import ServiceConsumers.PushEffects

set_option autoImplicit false

/-!
# Where faults come from

Only adding a transaction asserts the SBI object, and only the event loop asserts the session
or the TMGI that it searched for. Every other operation faults for reasons of its own.
-/

namespace ServiceConsumers.OperationFaults

open ObjectStore KeyedTable PublicSessions ConsumerState TmgiOperations SubscriptionOperations
  SessionOperations ResponseHandlers ProcessEvent TransitionRuns PushEffects

/-- A fault that is neither about an SBI object nor a search without a result. -/
def LocalFault : Fault → Prop
  | .danglingSbiObject | .nullSbiObject | .nullSession | .nullTmgi => False
  | _ => True

/-- A fault of operations that only read: no list is involved either. -/
def ReadFault : Fault → Prop
  | .nodeAlreadyLinked | .notAMember => False
  | f => LocalFault f

section Rules

variable {α β : Type} {x : Except Fault α}

/-- A computation that ends well or in a fault of its own. -/
abbrev Local (x : Except Fault α) : Prop := Outcome LocalFault (fun _ => True) x

/-- As `Local`, for a computation that links no list node. -/
abbrev Reads (x : Except Fault α) : Prop := Outcome ReadFault (fun _ => True) x

theorem LocalFault.of_read {f : Fault} (h : ReadFault f) : LocalFault f := by
  cases f <;> first | exact h | exact trivial

theorem Reads.local (h : Reads x) : Local x :=
  h.mono (fun _ _ => trivial) fun _ => .of_read

theorem Reads.bind {f : α → Except Fault β} (hx : Reads x) (hf : ∀ a, Reads (f a)) :
    Reads (x >>= f) :=
  Outcome.bind hx fun a _ => hf a

theorem Local.bind {f : α → Except Fault β} (hx : Local x) (hf : ∀ a, Local (f a)) :
    Local (x >>= f) :=
  Outcome.bind hx fun a _ => hf a

theorem Local.foldlM {σ : Type} {f : σ → α → Except Fault σ} (hf : ∀ s a, Local (f s a))
    (xs : List α) (s : σ) : Local (xs.foldlM f s) :=
  Outcome.foldlM (fun _ _ => True) (fun a _ s _ => hf s a) xs s trivial

theorem Local.mapM {f : α → Except Fault β} (hf : ∀ a, Local (f a)) (xs : List α) :
    Local (xs.mapM f) := by
  induction xs with
  | nil => exact trivial
  | cons a xs ih =>
      rw [List.mapM_cons]
      exact (hf a).bind fun b => ih.bind fun bs => trivial

end Rules

/-! ## Objects and TMGIs -/

variable (w : World)

theorem reads_sessionAt (s : Ref) : Reads (w.sessionAt s) := by
  unfold World.sessionAt
  split <;> exact trivial

theorem reads_subscriptionAt (u : Ref) : Reads (w.subscriptionAt u) := by
  unfold World.subscriptionAt
  split <;> exact trivial

theorem reads_tmgiAt (t : Ref) : Reads (w.tmgiAt t) := by
  unfold World.tmgiAt
  split <;> exact trivial

theorem reads_tmgiContent (t : Option Ref) : Reads (w.tmgiContent t) := by
  unfold World.tmgiContent
  split
  · exact trivial
  · exact (reads_tmgiAt w _).bind fun x => trivial

theorem reads_sessionContent (p : PublicSession Ref) : Reads (w.sessionContent p) :=
  (reads_tmgiContent w p.tmgi).bind fun _ => trivial

theorem local_contextRemoveTmgi (t : Ref) : Local (contextRemoveTmgi w t) := by
  unfold contextRemoveTmgi
  split <;> exact trivial

theorem local_tmgiFree (t : Ref) : Local (tmgiFree w t) :=
  (reads_tmgiAt w t).local.bind fun _ => (local_contextRemoveTmgi w t).bind fun _ => trivial

theorem local_tmgiReplaceSbiObject (t : Ref) (sbi : Option Ref) :
    Local (tmgiReplaceSbiObject w t sbi) :=
  (reads_tmgiAt w t).local.bind fun _ => trivial

theorem local_tmgiCopy (dest src : Option Ref) : Local (tmgiCopy w dest src) := by
  unfold tmgiCopy
  split
  · exact trivial
  · split
    · split
      · exact trivial
      · exact (local_tmgiFree w _).bind fun v => trivial
    · refine (reads_tmgiAt w _).local.bind fun x => ?_
      dsimp only
      exact (reads_tmgiAt _ _).local.bind fun y => (local_tmgiReplaceSbiObject _ _ _).bind fun v =>
        trivial

/-! ## Sessions -/

theorem local_mbsSessionPublicCopy (dest : Option (PublicSession Ref)) (src : PublicSession Ref) :
    Local (mbsSessionPublicCopy w dest src) := by
  have hcopy : Local (if src.tmgiReq then tmgiCopy w (dest.getD {}).tmgi src.tmgi
      else .ok (w, src.tmgi)) := by
    split
    · exact local_tmgiCopy w _ _
    · exact trivial
  refine hcopy.bind fun p => ?_
  dsimp only
  split <;> exact trivial

theorem local_mbsSessionPublicClear (p : PublicSession Ref) :
    Local (mbsSessionPublicClear w p) := by
  unfold mbsSessionPublicClear
  split
  · split
    · exact local_tmgiFree w _
    · exact trivial
  · exact trivial

theorem reads_mbsSessionPublicEqual (a b : PublicSession Ref) :
    Reads (mbsSessionPublicEqual w a b) := by
  refine (reads_sessionContent w a).bind fun x => (reads_sessionContent w b).bind fun y => ?_
  split <;> exact trivial

theorem reads_tmgiPointersEqual (a b : Option Ref) : Reads (tmgiPointersEqual w a b) :=
  (reads_tmgiContent w a).bind fun _ => (reads_tmgiContent w b).bind fun _ => trivial

theorem reads_mbsSessionPatchList (x : MbsSession) : Reads (mbsSessionPatchList x) := by
  unfold mbsSessionPatchList
  split
  · exact trivial
  · split <;> exact trivial

theorem reads_buildCreate (x : MbsSession) : Reads (buildCreate w x) := by
  refine (reads_sessionContent w x.session).bind fun carried => ?_
  split
  · exact trivial
  · exact (reads_subscriptionAt w _).bind fun n => trivial

theorem reads_buildUpdate (x : MbsSession) : Reads (buildUpdate w x) :=
  (reads_sessionContent w x.session).bind fun _ =>
    (reads_mbsSessionPatchList x).bind fun _ => trivial

theorem reads_pushDecision (x : MbsSession) : Reads (pushDecision w x) := by
  unfold pushDecision
  split
  · exact trivial
  · split
    · exact trivial
    · refine (reads_mbsSessionPublicEqual w _ _).bind fun equal => ?_
      split
      · exact trivial
      · split
        · exact trivial
        · refine (reads_tmgiPointersEqual w _ _).bind fun same => ?_
          split <;> exact trivial

theorem local_mbsSessionWrite (s : Ref) (f : MbsSession → MbsSession) :
    Local (mbsSessionWrite w s f) :=
  (reads_sessionAt w s).local.bind fun _ => trivial

theorem local_takeTmgi (s t : Ref) : Local (takeTmgi w s t) :=
  (reads_sessionAt w s).local.bind fun _ => (reads_tmgiAt w t).local.bind fun _ => trivial

theorem local_mbsSessionSetTmgi (s : Ref) (tmgi : Option Ref) :
    Local (mbsSessionSetTmgi w s tmgi) := by
  refine (reads_sessionAt w s).local.bind fun x => ?_
  split
  · exact trivial
  · split
    · exact trivial
    · split
      · exact local_takeTmgi w s _
      · refine (reads_tmgiAt w _).local.bind fun a => (reads_tmgiAt w _).local.bind fun b => ?_
        split
        · exact trivial
        · exact local_takeTmgi w s _

theorem local_mbsSessionDelete (s : Ref) : Local (mbsSessionDelete w s) := by
  refine (reads_sessionAt w s).local.bind fun x => ?_
  refine Local.bind ?_ fun v => ?_
  · split
    · exact local_mbsSessionPublicClear w _
    · exact trivial
  dsimp only
  split
  · exact trivial
  · refine (local_mbsSessionPublicClear _ _).bind fun v' => ?_
    split <;> exact trivial

theorem local_contextRemoveMbsSession (s : Ref) : Local (contextRemoveMbsSession w s) := by
  unfold contextRemoveMbsSession
  split
  · exact local_mbsSessionDelete _ s
  · exact trivial

theorem local_mbsSessionDoCallback (n : ℕ) (s : Ref) (kind : CallbackKind)
    (result : CallbackResult) (problem : Option ProblemDetails) :
    Local (mbsSessionDoCallback w n s kind result problem) := by
  refine (reads_sessionAt w s).local.bind fun x => ?_
  split <;> exact trivial

/-! ## Subscriptions -/

theorem local_ogsListAdd (s : Ref) (name : ListName) (u : Ref) : Local (ogsListAdd w s name u) := by
  refine (reads_sessionAt w s).local.bind fun x => (reads_subscriptionAt w u).local.bind fun n => ?_
  split <;> exact trivial

theorem local_ogsListRemove (s : Ref) (name : ListName) (u : Ref) :
    Local (ogsListRemove w s name u) := by
  refine (reads_sessionAt w s).local.bind fun x => ?_
  split <;> exact trivial

theorem local_mbsSessionRemoveSubscription (s u : Ref) :
    Local (mbsSessionRemoveSubscription w s u) := by
  refine (reads_sessionAt w s).local.bind fun x => (reads_subscriptionAt w u).local.bind fun n => ?_
  split
  · exact trivial
  · split
    · exact (local_ogsListAdd _ s _ u).bind fun v => trivial
    · split
      · exact (local_ogsListRemove w s _ u).bind fun v => trivial
      · exact trivial

theorem local_mbsStatusSubscriptionDelete (u : Ref) :
    Local (mbsStatusSubscriptionDelete w u) := by
  refine (reads_subscriptionAt w u).local.bind fun n => ?_
  split
  · exact local_mbsSessionRemoveSubscription w _ u
  · split <;> exact trivial

theorem local_establishSubscription (s u : Ref) (id : String) (slot : ℕ) :
    Local (establishSubscription w s u id slot) := by
  refine (reads_sessionAt _ s).local.bind fun x => ?_
  split
  · exact (local_ogsListRemove _ s _ u).bind fun v => trivial
  · exact trivial

/-! ## Answers -/

theorem local_createdTmgi (s : Ref) (m : CreatedSession) : Local (createdTmgi w s m) := by
  unfold createdTmgi
  split
  · dsimp only
    split
    · exact (local_contextRemoveTmgi _ _).bind fun v => trivial
    · exact (reads_sessionAt _ s).local.bind fun x => (local_tmgiReplaceSbiObject _ _ _).bind fun v =>
        trivial
  · exact trivial

theorem local_parseSessionId (s : Ref) (m : CreatedSession) : Local (parseSessionId w s m) := by
  unfold parseSessionId
  split
  · exact trivial
  · refine (reads_sessionAt w s).local.bind fun x => ?_
    exact (local_mbsSessionPublicCopy _ _ _).bind fun p => trivial

theorem local_nmbsmfMbsSessionParse (s : Ref) (rsp : Response) :
    Local (nmbsmfMbsSessionParse w s rsp) := by
  refine (reads_sessionAt w s).local.bind fun x => ?_
  split
  · exact trivial
  · exact trivial
  · exact trivial
  · dsimp only
    split
    · exact trivial
    · exact trivial
    · split
      · exact trivial
      · split
        -- with the tunnels and without them
        all_goals
          split
          · refine (local_createdTmgi _ s _).bind fun p => ?_
            split
            · exact trivial
            · exact (local_parseSessionId _ s _).bind fun _ => trivial
          · exact (local_parseSessionId _ s _).bind fun _ => trivial

theorem local_keepOrRevert (s : Ref) (resStatus : ℕ) : Local (keepOrRevert w s resStatus) := by
  refine (reads_sessionAt w s).local.bind fun x => ?_
  split
  · exact (local_mbsSessionPublicCopy w _ _).bind fun p => trivial
  · split
    · exact trivial
    · split
      · exact trivial
      · exact (local_mbsSessionPublicCopy w _ _).bind fun p => trivial

theorem local_nmbsmfMbsSessionPatchResponse (n : ℕ) (s : Ref) (rsp : Response) :
    Local (nmbsmfMbsSessionPatchResponse w n s rsp) :=
  (local_keepOrRevert w s _).bind fun v => local_mbsSessionDoCallback v n s _ _ _

theorem local_nmbsmfMbsSessionDeleteResponse (n : ℕ) (s : Ref) :
    Local (nmbsmfMbsSessionDeleteResponse w n s) :=
  (local_mbsSessionDoCallback w n s _ _ _).bind fun v => local_contextRemoveMbsSession v s

theorem local_nmbsmfMbsSessionSubscriptionResponse (s : Ref) (rsp : Response) :
    Local (nmbsmfMbsSessionSubscriptionResponse w s rsp) := by
  unfold nmbsmfMbsSessionSubscriptionResponse
  split
  · exact trivial
  · exact trivial
  · split
    · split
      · exact trivial
      · split
        · exact trivial
        · refine (local_establishSubscription w s _ _ _).bind fun v => ?_
          split <;> exact trivial
    · exact trivial

theorem local_tmgiDoCallback (n : ℕ) (t : Ref) (result : CallbackResult)
    (problem : Option ProblemDetails) : Local (tmgiDoCallback w n t result problem) := by
  refine (reads_tmgiAt w t).local.bind fun x => ?_
  split <;> exact trivial

theorem local_nmbsmfTmgiAllocated (x : Xact) (rsp : Response) :
    Local (nmbsmfTmgiAllocated w x rsp) := by
  unfold nmbsmfTmgiAllocated
  split
  · split
    · exact trivial
    · refine Local.foldlM (fun v api => ?_) _ w
      unfold takeAllocated
      split
      · exact trivial
      · exact local_tmgiDoCallback _ _ _ _ _
  · refine Local.foldlM (fun v c => ?_) _ w
    unfold reportRefused
    split
    · exact trivial
    · exact local_tmgiDoCallback _ _ _ _ _

theorem local_nmbsmfTmgiDeallocated (x : Xact) (rsp : Response) :
    Local (nmbsmfTmgiDeallocated w x rsp) := by
  refine Local.foldlM (fun v c => ?_) _ w
  unfold doTmgiRemove
  split
  · exact trivial
  · rename_i t ht
    have hcallback : Local (if isSuccess rsp.resStatus then tmgiDoCallback v x.id t .ogsDone none
        else tmgiDoCallback v x.id t .ogsError rsp.problemDetails) := by
      split <;> exact local_tmgiDoCallback _ _ _ _ _
    exact Local.bind hcallback fun v' => local_contextRemoveTmgi v' t

/-! ## Requests -/

/-- A fault of operations that send requests: the sender may have no SBI object. -/
def RequestFault (f : Fault) : Prop := LocalFault f ∨ f = .nullSbiObject

/-- As `Local`, for a computation that sends requests. -/
abbrev Sends {α : Type} (c : Except Fault α) : Prop := Outcome RequestFault (fun _ => True) c

section Requests

variable {α β : Type} {w}

theorem Local.sends {c : Except Fault α} (hc : Local c) : Sends c :=
  hc.mono (fun _ _ => trivial) fun _ => .inl

theorem Sends.bind {c : Except Fault α} {f : α → Except Fault β} (hc : Sends c)
    (hf : ∀ b, Sends (f b)) : Sends (c >>= f) :=
  Outcome.bind hc fun b _ => hf b

theorem Sends.foldlM {f : World → α → Except Fault World} (hf : ∀ v b, Sends (f v b))
    (bs : List α) (w : World) : Sends (bs.foldlM f w) :=
  Outcome.foldlM (fun _ _ => True) (fun b _ v _ => hf v b) bs w trivial

theorem sends_sbiXactAdd {sbi : Option Ref} {requester : Requester} {build : Except Fault Request}
    (hbuild : Local build) : Sends (w.sbiXactAdd sbi requester build) := by
  unfold World.sbiXactAdd
  split
  · exact .inr rfl
  · exact hbuild.sends.bind fun _ => trivial

theorem sends_mbsStatusSubscriptionSend {u : Ref}
    {build : World → MbsSession → StatusSubscription → Except Fault Request}
    (hbuild : ∀ x n, Local (build w x n)) : Sends (mbsStatusSubscriptionSend build w u) := by
  refine (reads_subscriptionAt w u).local.sends.bind fun n => ?_
  split
  · exact trivial
  · exact (reads_sessionAt w _).local.sends.bind fun x => sends_sbiXactAdd (hbuild x n)

theorem sends_updateNewSubscription (u : Ref) : Sends (updateNewSubscription w u) := by
  refine (reads_subscriptionAt w u).local.sends.bind fun n => ?_
  refine Sends.bind ?_ fun _ => trivial
  split
  · exact sends_mbsStatusSubscriptionSend fun x n =>
      (reads_tmgiContent w _).local.bind fun _ => trivial
  · exact trivial

theorem sends_updateStatusSubscription (u : Ref) : Sends (updateStatusSubscription w u) := by
  refine (reads_subscriptionAt w u).local.sends.bind fun n => ?_
  split
  · refine (sends_mbsStatusSubscriptionSend fun x n => ?_).bind fun _ => trivial
    exact (reads_mbsSessionPatchList x).local.bind fun _ => trivial
  · exact trivial

theorem sends_sendDelete (u : Ref) : Sends (mbsStatusSubscriptionSendDelete w u) :=
  sends_mbsStatusSubscriptionSend fun _ _ => trivial

theorem sends_mbsSessionSubscriptionsUpdate (s : Ref) :
    Sends (mbsSessionSubscriptionsUpdate w s) := by
  refine (reads_sessionAt w s).local.sends.bind fun x => ?_
  refine (Sends.foldlM (fun v u => sends_updateNewSubscription u) _ _).bind fun v => ?_
  refine (Sends.foldlM (fun v u => sends_updateStatusSubscription u) _ _).bind fun v => ?_
  refine Sends.foldlM (fun v u => (sends_sendDelete u).bind fun v' => ?_) _ _
  exact (local_ogsListRemove v' s _ u).sends.bind fun _ => trivial

theorem local_buildRemove (y : MbsSession) : Local (buildRemove y) := trivial

theorem sends_mbsSessionSendRemove (s : Ref) : Sends (mbsSessionSendRemove w s) :=
  (reads_sessionAt w s).local.sends.bind fun y => sends_sbiXactAdd (local_buildRemove y)

theorem sends_mbsSessionSendUpdate (s : Ref) : Sends (mbsSessionSendUpdate w s) :=
  (reads_sessionAt w s).local.sends.bind fun x => sends_sbiXactAdd (reads_buildUpdate w x).local

theorem sends_mbsSessionSendCreate (s : Ref) : Sends (mbsSessionSendCreate w s) :=
  (reads_sessionAt w s).local.sends.bind fun _ => sends_sbiXactAdd (reads_buildCreate _ _).local

theorem sends_mbsSessionPushChanges (s : Ref) : Sends (mbsSessionPushChanges w s) := by
  rw [mbsSessionPushChanges_eq]
  refine (reads_sessionAt w s).local.sends.bind fun x => ?_
  refine (reads_pushDecision w x).local.sends.bind fun d => ?_
  cases d with
  | remove => exact sends_mbsSessionSendRemove s
  | create => exact sends_mbsSessionSendCreate s
  | recreate removeFirst =>
      refine Sends.bind ?_ fun v => sends_mbsSessionSendCreate s
      split
      · exact sends_mbsSessionSendRemove s
      · exact trivial
  | update =>
      exact (sends_mbsSessionSendUpdate s).bind fun v => sends_mbsSessionSubscriptionsUpdate s
  | unchanged => exact sends_mbsSessionSubscriptionsUpdate s

end Requests

end ServiceConsumers.OperationFaults
