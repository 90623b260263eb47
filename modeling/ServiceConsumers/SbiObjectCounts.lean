import Mathlib.Data.Set.Card
import ServiceConsumers.CallbackHandlers
import ServiceConsumers.OperationFaults
import ServiceConsumers.RunInvariants
import ServiceConsumers.SessionReferences

set_option autoImplicit false

/-!
# Reference counts of SBI objects over runs with calls in callbacks

The counts are right as long as the handled transaction survives the callbacks of its event.
Only the handlers of DELETE responses hold on to its SBI object themselves.
-/

namespace ServiceConsumers.SbiObjectCounts

open ObjectStore KeyedTable PublicSessions ConsumerState TmgiOperations SubscriptionOperations
  SessionOperations ProcessEvent TransitionRuns TransactionLog TmgiEffects SessionEffects
  PushEffects AnswerEffects EventEffects SubscriptionLinks OperationFaults HolderCounts
  SbiReferences SbiBalance SessionReferences Routines CallbackHandlers

variable {held : Ref → ℤ} {w w' v v' : World} {p p' : Process} {a : Input} {x : Xact}
  {h : Option Ref} {s t u : Ref}

/-! ## What is to hold -/

def sessionsHolding (w : World) (o : Ref) : Set Ref :=
  {s | ∃ x, w.sessionStore s = some x ∧ x.sbiObject = some o}

def tmgisHolding (w : World) (o : Ref) : Set Ref :=
  {t | ∃ x, w.tmgiStore t = some x ∧ x.sbiObject = some o}

/-- The running handler holds at most one object. -/
def handlersHolding (p : Process) (o : Ref) : ℕ := share (p.handler.bind Handler.held) o

/-- The counts are the numbers of holders, an object without holders has no transactions left,
and no next step under the condition uses an object that was released. -/
structure SbiObjectsSound (good : Process → Input → Prop) (p : Process) : Prop where
  counts : ∀ o, (p.world.sbiObjects o : ℕ∞) =
    (sessionsHolding p.world o).encard + (tmgisHolding p.world o).encard + handlersHolding p o
  released : ∀ x ∈ p.world.xacts, p.world.sbiObjects x.sbiObject ≠ 0
  uses : ∀ a, good p a → CallbackHandlers.step p a ≠ .error .danglingSbiObject

/-- The references that a call gives up. -/
def callDrops (w : World) : PublicCall → Ref → ℕ
  | .tmgi call => tmgiDrops w call
  | .subscription _ => fun _ => 0
  | .session call => sessionDrops w call

/-- A request for new allocations has a TMGI to ask for, and a call in a callback leaves a
reference to the SBI object of the handled transaction. -/
structure KeepsHandled (p : Process) (a : Input) : Prop where
  allocates : ∀ call, a = .call (.tmgi call) → allocatedList p.world call ≠ some []
  leaves : ∀ c hd, a = .call c → p.handler = some hd →
    callDrops p.world c hd.xact.sbiObject < p.world.sbiObjects hd.xact.sbiObject

/-! ## Faults -/

/-- The computation uses no released SBI object. -/
abbrev Live {α : Type} (c : Except Fault α) : Prop :=
  Outcome (fun f => f ≠ Fault.danglingSbiObject) (fun _ => True) c

section Faults

variable {α β : Type}

theorem ne_dangling_of_local {f : Fault} (hf : LocalFault f) : f ≠ .danglingSbiObject := by
  rintro rfl
  exact hf

theorem live_of_local {c : Except Fault α} (hc : Local c) : Live c :=
  hc.mono (fun _ _ => trivial) fun _ => ne_dangling_of_local

theorem live_bind {c : Except Fault α} {f : α → Except Fault β} (hc : Live c)
    (hf : ∀ b, Live (f b)) : Live (c >>= f) :=
  Outcome.bind hc fun b _ => hf b

theorem live_foldlM {f : World → α → Except Fault World} (hf : ∀ v b, Live (f v b))
    (bs : List α) (w : World) : Live (bs.foldlM f w) :=
  Outcome.foldlM (fun _ _ => True) (fun b _ v _ => hf v b) bs w trivial

theorem live_of_sends {c : Except Fault α} (hc : Sends c) : Live c :=
  hc.mono (fun _ _ => trivial) fun _ hf => hf.elim ne_dangling_of_local fun heq => heq ▸ by decide

theorem live_sbiXactAdd {sbi : Option Ref} {requester : Requester}
    {build : Except Fault Request} (hbuild : Local build) :
    Live (w.sbiXactAdd sbi requester build) :=
  live_of_sends (sends_sbiXactAdd hbuild)

theorem live_mbsSessionPushChanges : Live (mbsSessionPushChanges w s) :=
  live_of_sends (sends_mbsSessionPushChanges s)

theorem live_mbsSessionAddSubscription : Live (mbsSessionAddSubscription w s u) := by
  refine live_bind (live_of_local (reads_sessionAt w s).local) fun x => ?_
  refine live_bind (live_of_local (reads_subscriptionAt w u).local) fun n => ?_
  split
  · exact trivial
  · refine live_bind ?_ fun v => live_bind (live_of_local (local_ogsListAdd v s _ u))
      fun _ => trivial
    refine live_bind (live_of_local (reads_subscriptionAt _ u).local) fun n => ?_
    split
    · exact trivial
    · split
      · exact (by decide : Fault.nullSession ≠ Fault.danglingSbiObject)
      · refine live_bind (live_of_local (reads_sessionAt _ _).local) fun y => ?_
        split
        · exact (by decide : Fault.notAHashTable ≠ Fault.danglingSbiObject)
        · exact live_bind (live_of_sends (sends_sendDelete u)) fun _ => trivial

theorem local_tmgiContents (ts : List Ref) : Local (tmgiContents w ts) := by
  refine Local.mapM (fun t => ?_) ts
  exact (reads_tmgiAt w t).local.bind fun _ => trivial

theorem live_sendRefresh (refresh : Option (List Ref)) :
    Live (tmgiListSendAllocate w none refresh) := by
  rcases refresh with _ | _ | ⟨t, ts⟩
  · exact trivial
  · exact (by decide : Fault.emptyRefreshList ≠ Fault.danglingSbiObject)
  · exact live_bind (live_of_local (reads_tmgiAt w t).local) fun y =>
      live_sbiXactAdd ((local_tmgiContents _).bind fun _ => trivial)

theorem live_sendAllocateNew {ts : List Ref} {refresh : Option (List Ref)} (hts : ts ≠ []) :
    Live (tmgiListSendAllocate w (some ts) refresh) := by
  refine live_bind (live_foldlM (fun v t => ?_) _ _) fun v => ?_
  · exact live_of_local (local_tmgiReplaceSbiObject v t _)
  · rw [if_neg hts]
    exact live_sbiXactAdd ((local_tmgiContents _).bind fun _ => trivial)

theorem live_tmgiListSendDeallocate (ts : List Ref) : Live (tmgiListSendDeallocate w ts) := by
  cases ts with
  | nil => exact trivial
  | cons t ts =>
      refine live_bind (live_of_local (reads_tmgiAt w t).local) fun y => ?_
      split
      · exact live_sbiXactAdd ((local_tmgiContents _).bind fun _ => trivial)
      · exact live_sbiXactAdd ((local_tmgiContents _).bind fun _ => trivial)

theorem live_tmgiStep {call : TmgiCall} (hlist : allocatedList w call ≠ some []) :
    Live (tmgiStep w call) := by
  have hset : ∀ t f, Live (tmgiSet w t f) := fun t f =>
    live_of_local ((reads_tmgiAt w t).local.bind fun _ => trivial)
  cases call with
  | create callback => exact live_sendAllocateNew (List.cons_ne_nil _ _)
  | new => exact trivial
  | free t => exact live_of_local (local_tmgiFree w t)
  | setMbsServiceId t mbsServiceId => exact hset t _
  | setPlmn t mcc mnc => exact hset t _
  | setExpiryTime t expiryTime => exact hset t _
  | setCallback t callback => exact hset t _
  | sendAllocate t => exact live_sendAllocateNew (List.cons_ne_nil _ _)
  | sendDeallocate t => exact live_tmgiListSendDeallocate [t]
  | sendAllocateAll => exact live_sendAllocateNew fun hnil => hlist (congrArg some hnil)
  | sendRefresh t => exact live_sendRefresh (some [t])
  | sendRefreshAll now => exact live_sendRefresh _
  | sendAllocateAndRefreshAll now =>
      exact live_sendAllocateNew fun hnil => hlist (congrArg some hnil)

theorem live_sessionStep (call : SessionCall) : Live (sessionStep w call) := by
  cases call with
  | newIpv4 source dest => exact trivial
  | newIpv6 source dest => exact trivial
  | edit s value => exact live_of_local (local_mbsSessionWrite w s _)
  | write s cell => exact live_of_local (local_mbsSessionWrite w s _)
  | delete s => exact live_of_local ((local_mbsSessionWrite w s _).bind fun _ => trivial)
  | setTmgi s tmgi => exact live_of_local (local_mbsSessionSetTmgi w s tmgi)
  | setCallback s cb => exact live_of_local (local_mbsSessionWrite w s _)
  | setCallbackOf s kind cb => exact live_of_local (local_mbsSessionWrite w s _)
  | pushChanges s => exact live_mbsSessionPushChanges
  | pushAllChanges => exact live_foldlM (fun v s => live_mbsSessionPushChanges) _ _

theorem live_subscriptionStep (call : SubscriptionCall) : Live (subscriptionStep w call) := by
  cases call with
  | new areaSessionId flags correlationId expiryTime => exact trivial
  | set u setting =>
      exact live_of_local ((reads_subscriptionAt w u).local.bind fun _ => trivial)
  | add s u => exact live_mbsSessionAddSubscription
  | remove s u => exact live_of_local (local_mbsSessionRemoveSubscription w s u)
  | delete u => exact live_of_local (local_mbsStatusSubscriptionDelete w u)

end Faults

/-! ## What a handler keeps -/

/-- The handled transaction is outstanding, and the held object counts the handler. -/
structure Attended (x : Xact) (h : Option Ref) (w : World) : Prop where
  counted : Counted (fun o => share h o) w
  outstanding : x ∈ w.xacts

theorem share_held_nonneg (o : Ref) : (0 : ℤ) ≤ share h o := Int.natCast_nonneg _

namespace Attended

/-- What gives up less than there is keeps the handled transaction. -/
theorem of_balanced {ds : Ref → ℕ} (hw : Attended x h w)
    (hb : Balanced (fun o => share h o) ds w w') (hds : ds x.sbiObject < w.sbiObjects x.sbiObject) :
    Attended x h w' :=
  ⟨hb.counted, (hb.givesUp _ hds).2 x hw.outstanding rfl⟩

theorem of_quiet (hw : Attended x h w) (hb : Balanced (fun o => share h o) (fun _ => 0) w w') :
    Attended x h w' :=
  hw.of_balanced hb (Nat.pos_of_ne_zero (hw.counted.xacts x hw.outstanding))

theorem say (hw : Attended x h w) (o : Observation) : Attended x h (w.say o) :=
  hw.of_quiet (.of_eq hw.counted rfl rfl rfl rfl (Nat.le_refl _))

end Attended

/-- The routine keeps the handled transaction, and uses no released object. -/
abbrev Attends (x : Xact) (h : Option Ref) (r : EventRoutine) : Prop :=
  r.Keeps (fun f => f ≠ .danglingSbiObject) (Attended x h)

theorem attends_of_local {α : Type} {c : Except Fault α} {f : α → EventRoutine} (hc : Local c)
    (hf : ∀ b, c = .ok b → Attends x h (f b)) : Attends x h (.after c f) :=
  Routine.Keeps.after (P := fun b => c = .ok b)
    (Outcome.of_cases (fun _ hb => hb) fun _ he => ne_dangling_of_local (hc.error he)) hf

theorem attends_of_balanced {c : Except Fault World} (hw : Attended x h w) (hc : Live c)
    (hb : ∀ v, c = .ok v → Balanced (fun o => share h o) (fun _ => 0) w v) :
    Attends x h (.ended c) :=
  Outcome.of_cases (fun v hv => hw.of_quiet (hb v hv)) fun _ he => hc.error he

theorem attends_callBack (hw : Attended x h w) : Attends x h (callBack w) :=
  ⟨hw, fun _ hv => hv⟩

theorem attends_tmgiDoCallback {n : ℕ} {result : CallbackResult}
    {problem : Option ProblemDetails} (hw : Attended x h w) :
    Attends x h (CallbackHandlers.tmgiDoCallback w n t result problem) := by
  refine attends_of_local (reads_tmgiAt w t).local fun y _ => ?_
  split
  · exact hw
  · exact attends_callBack (hw.say _)

theorem attends_mbsSessionDoCallback {n : ℕ} {kind : CallbackKind} {result : CallbackResult}
    {problem : Option ProblemDetails} (hw : Attended x h w) :
    Attends x h (CallbackHandlers.mbsSessionDoCallback w n s kind result problem) := by
  refine attends_of_local (reads_sessionAt w s).local fun y _ => ?_
  split
  · exact hw
  · exact attends_callBack (hw.say _)

theorem Attended.modifyTmgi {f : PrivTmgi → PrivTmgi} (hw : Attended x h w)
    (hf : ∀ y, (f y).sbiObject = y.sbiObject) : Attended x h (w.modifyTmgi t f) :=
  hw.of_quiet (.modifyTmgi hw.counted hf)

theorem attends_takeAllocated {n : ℕ} {expiryTime : ℤ} {api : ApiTmgi} (hw : Attended x h w) :
    Attends x h (CallbackHandlers.takeAllocated n expiryTime w api) := by
  unfold CallbackHandlers.takeAllocated
  split
  · exact hw
  · rename_i t _
    have hid := hw.modifyTmgi (t := t) (f := tmgiSetMbsServiceId api.mbsServiceId) fun _ => rfl
    have hplmn := hid.modifyTmgi (t := t) (f := tmgiSetPlmn api.mccNumber api.mncNumber)
      fun _ => rfl
    exact attends_tmgiDoCallback (hplmn.modifyTmgi fun _ => rfl)

theorem attends_nmbsmfTmgiAllocated {rsp : Response} (y : Xact) (hw : Attended x h w) :
    Attends x h (CallbackHandlers.nmbsmfTmgiAllocated w y rsp) := by
  unfold CallbackHandlers.nmbsmfTmgiAllocated
  split
  · split
    · exact hw
    · exact Routine.Keeps.loop (fun v api hv => attends_takeAllocated hv) _ hw
  · refine Routine.Keeps.loop (fun v c hv => ?_) _ hw
    unfold CallbackHandlers.reportRefused
    split
    · exact hv
    · exact attends_tmgiDoCallback hv

theorem attends_nmbsmfTmgiDeallocated {rsp : Response} (y : Xact) (hw : Attended x h w) :
    Attends x h (CallbackHandlers.nmbsmfTmgiDeallocated w y rsp) := by
  refine Routine.Keeps.loop (fun v c hv => ?_) _ hw
  unfold CallbackHandlers.doTmgiRemove
  split
  · exact hv
  · refine Routine.Keeps.andThen ?_ fun v' hv' => ?_
    · split <;> exact attends_tmgiDoCallback hv
    · exact attends_of_balanced hv' (live_of_local (local_contextRemoveTmgi v' _))
        fun _ hrun => balanced_contextRemoveTmgi hv'.counted hrun

/-- Only an answer to a deallocation is handled with the object held. -/
theorem attends_processTmgiResponse {tmgi : Option Ref} {rsp : Response}
    (hc : Counted (fun _ => 0) w) (hx : x ∈ w.xacts) :
    Attends x (heldByTmgiResponse w x tmgi rsp)
      (CallbackHandlers.processTmgiResponse w x tmgi rsp) := by
  have hnone : Attended x none w := ⟨hc.of_held fun _ => rfl, hx⟩
  unfold CallbackHandlers.processTmgiResponse heldByTmgiResponse
  by_cases hparsed : rsp.parsed = true
  · rw [hparsed]
    cases hm : x.request.method with
    | post => exact attends_nmbsmfTmgiAllocated x hnone
    | patch => exact hnone
    | delete =>
        cases tmgi with
        | none => exact (by decide : Fault.nullTmgi ≠ Fault.danglingSbiObject)
        | some t =>
            refine attends_of_local (reads_tmgiAt w t).local fun y hy => ?_
            rw [World.tmgiAt_eq_ok] at hy
            have hheld : ((some t).bind fun q => w.tmgiStore q).bind PrivTmgi.sbiObject =
                y.sbiObject := by
              rw [Option.bind_some, hy]
              rfl
            change Attends x (((some t).bind fun q => w.tmgiStore q).bind PrivTmgi.sbiObject) _
            rw [hheld]
            refine attends_nmbsmfTmgiDeallocated x ⟨?_, ?_⟩
            · refine (hc.ref fun o ho => ?_).of_held fun o => by omega
              exact hc.lt_of_object ((tmgi_counts (fun _ => le_refl _) hc hy).1 o ho)
            · exact stays_refCountSbiObjectRef _ _ x hx rfl
  · rw [Bool.not_eq_true] at hparsed
    rw [hparsed]
    cases tmgi with
    | none => exact (by decide : Fault.nullTmgi ≠ Fault.danglingSbiObject)
    | some t => exact attends_tmgiDoCallback hnone

/-! ### Sessions -/

theorem attends_handleCreateResponse {n : ℕ} {rsp : Response} (hw : Attended x none w)
    (hs : HeldBy s x.sbiObject w) :
    Attends x none (CallbackHandlers.handleCreateResponse w n s rsp) := by
  unfold CallbackHandlers.handleCreateResponse
  split
  · refine attends_of_local (local_nmbsmfMbsSessionParse w s rsp) fun ⟨v, understood⟩ hv => ?_
    have hkept := sessionsKept_nmbsmfMbsSessionParse share_held_nonneg hw.counted hv
    have hattended : Attended x none v :=
      ⟨hkept.counted, hkept.stays s _ hs x hw.outstanding rfl⟩
    dsimp only
    split
    · refine Routine.Keeps.andThen (attends_mbsSessionDoCallback hattended) fun v' hv' => ?_
      exact attends_of_balanced hv' live_mbsSessionPushChanges
        fun _ hrun => balanced_mbsSessionPushChanges share_held_nonneg hv'.counted hrun
    · exact attends_mbsSessionDoCallback hattended
  · exact attends_mbsSessionDoCallback hw

theorem attends_nmbsmfMbsSessionDeleteResponse {n : ℕ} (hw : Attended x (some x.sbiObject) w) :
    Attends x (some x.sbiObject) (CallbackHandlers.nmbsmfMbsSessionDeleteResponse w n s) := by
  refine Routine.Keeps.andThen (attends_mbsSessionDoCallback hw) fun v hv => ?_
  refine Outcome.of_cases (fun v' hv' => ?_) fun f hf =>
    ne_dangling_of_local ((local_contextRemoveMbsSession v s).error hf)
  obtain ⟨hcount, hstays⟩ := stays_contextRemoveMbsSession share_held_nonneg hv.counted hv'
  refine ⟨hcount, hstays x.sbiObject ?_ x hv.outstanding rfl⟩
  rw [share_self]
  decide

theorem attends_nmbsmfMbsSessionPatchResponse {n : ℕ} {rsp : Response} (hw : Attended x none w)
    (hs : HeldBy s x.sbiObject w) :
    Attends x none (CallbackHandlers.nmbsmfMbsSessionPatchResponse w n s rsp) := by
  refine attends_of_local (local_keepOrRevert w s _) fun v hv => ?_
  have hkept := sessionsKept_keepOrRevert share_held_nonneg hw.counted hv
  exact attends_mbsSessionDoCallback ⟨hkept.counted, hkept.stays s _ hs x hw.outstanding rfl⟩

theorem attends_subscriptionResponse {rsp : Response} (hw : Attended x h w) :
    Attends x h (.ended (ResponseHandlers.nmbsmfMbsSessionSubscriptionResponse w s
      (ogsSbiParseHeader rsp))) := by
  refine attends_of_balanced hw
    (live_of_local (local_nmbsmfMbsSessionSubscriptionResponse w s _)) fun v hv => ?_
  rw [nmbsmfMbsSessionSubscriptionResponse_header hv]
  exact .refl hw.counted

/-- Only an answer to the deletion of a session is handled with the object held. -/
theorem attends_processSessionResponse {session : Option Ref} {rsp : Response}
    (hc : Counted (fun _ => 0) w) (hx : x ∈ w.xacts)
    (hs : ∀ s, session = some s → HeldBy s x.sbiObject w) :
    Attends x (heldBySessionResponse w x session rsp)
      (CallbackHandlers.processSessionResponse w x session rsp) := by
  have hnone : Attended x none w := ⟨hc.of_held fun _ => rfl, hx⟩
  have hnull : Fault.nullSession ≠ Fault.danglingSbiObject := by decide
  have hresource : x.request.component1 ≠ some "subscriptions" → x.request.component2 = none := by
    intro hne
    cases hr : x.request <;> first | rfl | exact absurd (by rw [hr]; rfl) hne
  unfold CallbackHandlers.processSessionResponse heldBySessionResponse
  generalize x.request.component1 = component1 at hresource ⊢
  generalize x.request.component2 = component2 at hresource ⊢
  generalize x.request.method = method
  by_cases hparsed : rsp.parsed = true
  · simp only [hparsed, Bool.not_true, Bool.false_eq_true, if_false, Bool.true_and]
    cases component1 with
    | none =>
        cases method with
        | post =>
            cases session with
            | none =>
                dsimp only
                by_cases hstatus : isSuccess rsp.status = true
                · rw [if_pos hstatus]
                  exact hnull
                · rw [if_neg hstatus]
                  exact hnone
            | some s => exact attends_handleCreateResponse hnone (hs s rfl)
        | patch => exact hnone
        | delete => exact hnone
    | some component1 =>
        by_cases hsub : component1 = "subscriptions"
        · subst hsub
          cases component2 <;> cases method <;> cases session <;>
            first | exact hnone | exact attends_subscriptionResponse hnone
        · have hne : some component1 ≠ some "subscriptions" := fun heq =>
            hsub (Option.some.inj heq)
          obtain rfl := hresource hne
          simp only [hsub, if_false]
          cases method with
          | post => exact hnone
          | patch =>
              cases session with
              | none => exact hnone
              | some s => exact attends_nmbsmfMbsSessionPatchResponse hnone (hs s rfl)
          | delete =>
              cases session with
              | none => exact hnull
              | some s =>
                  obtain ⟨y, hy, ho⟩ := hs s rfl
                  refine attends_of_local (reads_sessionAt w s).local fun y' hy' => ?_
                  rw [World.sessionAt_eq_ok] at hy'
                  obtain rfl := Option.some.inj (hy.symm.trans hy')
                  have hheld : ((some s).bind fun q => w.sessionStore q).bind
                      MbsSession.sbiObject = some x.sbiObject := by
                    rw [Option.bind_some, hy]
                    exact ho
                  have hbool : (HttpMethod.delete == HttpMethod.delete &&
                      (some component1).isSome && some component1 != some "subscriptions") =
                      true := by
                    simp [hsub]
                  rw [if_pos hbool]
                  change Attends x (((some s).bind fun q => w.sessionStore q).bind
                    MbsSession.sbiObject) _
                  rw [hheld, ho]
                  refine attends_nmbsmfMbsSessionDeleteResponse ⟨?_, ?_⟩
                  · refine (hc.ref fun o heq => ?_).of_held fun o => by omega
                    exact Option.some.inj heq ▸ hc.lt_of_object (hc.xacts x hx)
                  · exact stays_refCountSbiObjectRef _ _ x hx rfl
  · rw [Bool.not_eq_true] at hparsed
    rw [hparsed]
    cases session with
    | none => exact hnone
    | some s => exact attends_mbsSessionDoCallback hnone

theorem attends_reportTimeout {tmgi : Option Ref} (hw : Attended x none w) :
    Attends x none (CallbackHandlers.reportTimeout w x s tmgi) := by
  unfold CallbackHandlers.reportTimeout
  split
  · cases tmgi with
    | none => exact (by decide : Fault.nullTmgi ≠ Fault.danglingSbiObject)
    | some t => exact attends_tmgiDoCallback hw
  · exact attends_mbsSessionDoCallback hw
  · exact hw

/-! ## The steps -/

/-- Between events nothing is held but in the fields; a handler that waits keeps its
transaction when the application does. -/
def Invariant (p : Process) : Prop :=
  match p.handler with
  | none => Counted (fun _ => 0) p.world
  | some hd => Attended hd.xact hd.held p.world ∧
      ∀ v, Attended hd.xact hd.held v → Attends hd.xact hd.held (hd.rest v)

theorem balanced_call (hheld : ∀ o, 0 ≤ held o) {c : PublicCall} (hc : Counted held w)
    (hrun : ProcessEvent.step w c.event = .ok w') : Balanced held (callDrops w c) w w' := by
  cases c with
  | tmgi call => exact balanced_tmgiStep hheld hc hrun
  | subscription call => exact balanced_subscriptionStep hheld hc hrun
  | session call => exact balanced_sessionStep hheld hc hrun

theorem live_call {c : PublicCall} (hgood : KeepsHandled p (.call c)) :
    Live (ProcessEvent.step p.world c.event) := by
  cases c with
  | tmgi call => exact live_tmgiStep (hgood.allocates call rfl)
  | subscription call => exact live_subscriptionStep call
  | session call => exact live_sessionStep call

theorem counted_removeXact (n : ℕ) (hc : Counted held w) : Counted held (w.removeXact n) :=
  hc.of_same (fun _ => rfl) (fun _ => rfl) rfl (Nat.le_refl _)
    fun _ hx => .inl (List.mem_filter.1 hx).1

/-- The end of an event finds the transaction, and drops what was held. -/
theorem endEvent_of_attended (hw : Attended x h w) :
    ∃ v, endEvent x h w = .ok v ∧ v = finishEvent x.id h w ∧ Counted (fun _ => 0) v := by
  have hfound : ∃ y, w.findXact x.id = some y := by
    have hsome : (w.findXact x.id).isSome := by
      unfold World.findXact
      rw [List.find?_isSome]
      exact ⟨x, hw.outstanding, by simp⟩
    exact Option.isSome_iff_exists.1 hsome
  obtain ⟨y, hy⟩ := hfound
  refine ⟨_, by rw [endEvent, hy], rfl, ?_⟩
  have hremoved := counted_removeXact x.id hw.counted
  refine (hremoved.unref fun o ho => ?_).of_held fun o => by omega
  have hcount := hremoved.counts o
  rw [ho, share_self] at hcount
  omega

/-- A routine that attends to its transaction settles without a use of a released object. -/
theorem settle_of_attends {r : EventRoutine} (hr : Attends x h r) :
    Outcome (fun f => f ≠ .danglingSbiObject) Invariant (settle x h r) := by
  cases r with
  | ended outcome =>
      refine Outcome.bind hr fun w hw => ?_
      obtain ⟨v, hv, -, hcount⟩ := endEvent_of_attended hw
      rw [hv]
      exact hcount
  | calling w rest => exact hr

theorem heldBy_of_found {o : Ref} (hs : contextSbiObjectToSession w o = some s) : HeldBy s o w := by
  have hpred := List.find?_some hs
  obtain ⟨y, hy, ho⟩ := (Option.any_eq_true _ _).1 hpred
  exact ⟨y, hy, of_decide_eq_true ho⟩

theorem Counted.say (hc : Counted held w) (o : Observation) : Counted held (w.say o) := by
  have hsaid : Balanced held (fun _ => 0) w (w.say o) :=
    .of_eq hc rfl rfl rfl rfl (Nat.le_refl _)
  exact hsaid.counted

theorem startResponse_sound {n : ℕ} {rsp : Response} (hc : Counted (fun _ => 0) w) :
    Outcome (fun f => f ≠ .danglingSbiObject) Invariant (startResponse w n rsp) := by
  unfold startResponse
  split
  · exact hc
  · rename_i sent _
    have hsaid := Counted.say hc (.answered sent rsp)
    dsimp only
    split
    · exact hsaid
    · rename_i x hx
      have hmem : x ∈ w.xacts := (findXact_eq_some (w := w.say (.answered sent rsp)) hx).1
      split
      · exact hsaid
      · refine settle_of_attends ?_
        have hhandled := Counted.say hsaid (.handled n
          (contextSbiObjectToSession (w.say (.answered sent rsp)) x.sbiObject)
          (contextSbiObjectToTmgi (w.say (.answered sent rsp)) x.sbiObject))
        split
        · exact attends_processTmgiResponse hhandled hmem
        · refine attends_processSessionResponse hhandled hmem fun s hs => ?_
          obtain ⟨y, hy, ho⟩ := heldBy_of_found hs
          exact ⟨y, hy, ho⟩

theorem startTimeout_sound {n : ℕ} (hc : Counted (fun _ => 0) w) :
    Outcome (fun f => f ≠ .danglingSbiObject) Invariant (startTimeout w n) := by
  unfold startTimeout
  split
  · exact hc
  · rename_i x hx
    have hsaid := Counted.say hc (.timedOut x)
    dsimp only
    split
    · exact hsaid
    · refine settle_of_attends (attends_reportTimeout ⟨?_, (findXact_eq_some hx).1⟩)
      exact (Counted.say hsaid _).of_held fun _ => rfl

theorem counted_processDiscovery (n : ℕ) (found : Bool) (hc : Counted held w) :
    Counted held (processDiscovery w n found) := by
  rcases processDiscovery_cases w n found with heq | heq
  · rw [heq]
    exact hc
  · rw [heq]
    exact counted_removeXact n hc

/-- One step: the application calls, an event begins, or a callback returns. -/
theorem step_sound (hp : Invariant p) (hgood : KeepsHandled p a) :
    Outcome (fun f => f ≠ .danglingSbiObject) Invariant (CallbackHandlers.step p a) := by
  cases a with
  | call c =>
      refine Outcome.bind_ok (live_call hgood) fun w hw => ?_
      obtain ⟨v, handler⟩ := p
      cases handler with
      | none => exact (balanced_call (fun _ => le_refl _) hp hw).counted
      | some hd =>
          refine ⟨?_, hp.2⟩
          exact hp.1.of_balanced (balanced_call share_held_nonneg hp.1.counted hw)
            (hgood.leaves c hd rfl rfl)
  | event e =>
      obtain ⟨v, handler⟩ := p
      cases handler with
      | some hd => exact hp
      | none =>
          cases e with
          | discovery n found => exact counted_processDiscovery n found hp
          | response n rsp => exact startResponse_sound hp
          | timeout n => exact startTimeout_sound hp
  | callbackReturns =>
      obtain ⟨v, handler⟩ := p
      cases handler with
      | none => exact hp
      | some hd => exact settle_of_attends (hp.2 v hp.1)

/-! ## Runs -/

theorem invariant_of_run (run : Reach CallbackHandlers.step KeepsHandled (idle World.initial) p) :
    Invariant p := by
  refine run.invariant Invariant ?_ fun _ _ _ _ hp hgood hstep => (step_sound hp hgood).ok hstep
  exact Counted.initial

theorem encard_holders {α : Type} {field : α → Option Ref} {store : Store α} {n : ℕ} {o : Ref}
    (hfree : ∀ q, n ≤ q → store q = none) :
    {q | ∃ y, store q = some y ∧ field y = some o}.encard = (holdersBelow field store n o : ℕ∞) := by
  have hset : {q | ∃ y, store q = some y ∧ field y = some o} =
      ↑((Finset.range n).filter fun q => (store q).bind field = some o) := by
    ext q
    simp only [Set.mem_ofPred_eq, Finset.coe_filter, Finset.mem_range]
    constructor
    · rintro ⟨y, hy, ho⟩
      refine ⟨?_, by rw [hy]; exact ho⟩
      by_contra hq
      rw [hfree q (Nat.le_of_not_lt hq)] at hy
      cases hy
    · rintro ⟨-, hq⟩
      exact Option.bind_eq_some_iff.1 hq
  rw [hset, Set.encard_coe_eq_coe_finsetCard, holdersBelow, Nat.count_eq_card_filter_range]

theorem Counted.exact (hc : Counted held w) {k : Ref → ℕ} (hk : ∀ o, held o = k o) (o : Ref) :
    (w.sbiObjects o : ℕ∞) =
      (sessionsHolding w o).encard + (tmgisHolding w o).encard + (k o : ℕ∞) := by
  have hcount := hc.counts o
  rw [hk o] at hcount
  have hnat : w.sbiObjects o = holders w o + k o := by exact_mod_cast hcount
  rw [hnat]
  unfold holders sessionsHolding tmgisHolding
  rw [encard_holders hc.sessions, encard_holders hc.tmgis]
  push_cast
  rfl

theorem sbi_objects_counted
    (run : Reach CallbackHandlers.step KeepsHandled (idle World.initial) p) :
    SbiObjectsSound KeepsHandled p := by
  have hp := invariant_of_run run
  refine ⟨fun o => ?_, ?_, fun a hgood hfault => ?_⟩
  · obtain ⟨w, handler⟩ := p
    cases handler with
    | none => exact Counted.exact hp (k := fun _ => 0) (fun _ => rfl) o
    | some hd => exact Counted.exact hp.1.counted (k := share hd.held) (fun _ => rfl) o
  · obtain ⟨w, handler⟩ := p
    cases handler with
    | none => exact hp.xacts
    | some hd => exact hp.1.counted.xacts
  · exact (step_sound hp hgood).error hfault rfl

theorem keepsHandled_of_ne (hne : ∀ c, a ≠ .call c) : KeepsHandled p a :=
  ⟨fun _ heq => absurd heq (hne _), fun _ _ heq => absurd heq (hne _)⟩

theorem keepsHandled_idle {c : PublicCall}
    (hlist : ∀ call, c = .tmgi call → allocatedList w call ≠ some []) :
    KeepsHandled (idle w) (.call c) := by
  refine ⟨fun call heq => hlist call (Input.call.inj heq), fun _ _ _ hsome => ?_⟩
  cases hsome

theorem keepsHandled_event (e : NetworkEvent) : KeepsHandled p (.event e) :=
  keepsHandled_of_ne fun _ heq => by cases heq

/-- The MB-SMF grants the TMGI that was asked for. -/
def granted : Response :=
  { status := 200, resStatus := 200,
    tmgiAllocated := some
      { tmgiList := [some
          { mbsServiceId := some "000001", mcc := "001", mnc := "01", mccNumber := 1,
            mncNumber := 1 }],
        expiryTime := 0 } }

/-- A TMGI that is freed in the callback that tells of its allocation. -/
def freedInCallback : List Input :=
  [.call (.tmgi (.create (some { function := 1, data := 0 }))), .event (.response 3 granted),
   .call (.tmgi (.free 1))]

/-- The transaction of the handler went with the SBI object. -/
theorem transaction_released_in_callback :
    ¬∀ p, Reachable CallbackHandlers.step (idle World.initial) p →
      SbiObjectsSound (fun _ _ => True) p := by
  intro hall
  have hsound := hall _ (Reachable.of_events freedInCallback)
  exact hsound.uses .callbackReturns trivial rfl

/-- The callback asks for a second TMGI. -/
def askedInCallback : List Input :=
  [.call (.tmgi (.create (some { function := 1, data := 0 }))), .event (.response 3 granted),
   .call (.tmgi (.create none)), .callbackReturns]

def askedState (k : ℕ) : Process :=
  (askedInCallback.take k).foldl (advance CallbackHandlers.step) (idle World.initial)

theorem sbi_objects_counted_asked : SbiObjectsSound KeepsHandled (askedState 4) ∧
    (askedState 4).world.tmgis = [1, 4] ∧ (askedState 2).handler.isSome = true ∧
    (askedState 4).handler.isSome = false := by
  refine ⟨sbi_objects_counted ?_, by decide +kernel, by decide +kernel, by decide +kernel⟩
  refine Reach.of_goodFrom askedInCallback .init ⟨?_, ?_, ?_, ?_, trivial⟩
  · refine ⟨fun call heq => ?_, fun _ _ _ hsome => ?_⟩
    · cases heq
      exact fun hnil => by cases hnil
    · cases hsome
  · exact keepsHandled_event _
  · refine ⟨fun call heq => ?_, fun c hd heq hsome => ?_⟩
    · cases heq
      exact fun hnil => by cases hnil
    · cases heq
      cases hsome
      decide +kernel
  · exact keepsHandled_of_ne fun _ heq => by cases heq

/-! ## An application that makes no calls in its callbacks -/

abbrev CarefulRun : Process → Prop :=
  Reach CallbackHandlers.step KeepsHandled (idle World.initial)

/-- Each callback returns at once, until the event ends. -/
theorem careful_settle {r : EventRoutine} (hr : Attends x h r) (hrun : r.run = .ok v)
    (run : CarefulRun p) (hgood : KeepsHandled p a)
    (hsettle : CallbackHandlers.step p a = settle x h r) :
    CarefulRun (idle (finishEvent x.id h v)) := by
  induction r generalizing p a with
  | ended outcome =>
      obtain rfl : outcome = .ok v := hrun
      obtain ⟨v', hend, rfl, -⟩ := endEvent_of_attended hr
      refine .next run hgood (hsettle.trans ?_)
      change (endEvent x h v >>= fun w => .ok (idle w)) = _
      rw [hend]
      rfl
  | calling w rest ih =>
      exact ih w (hr.2 w hr.1) hrun (.next run hgood hsettle) (a := .callbackReturns)
        (keepsHandled_of_ne fun _ heq => by cases heq) rfl

theorem careful_response {n : ℕ} {rsp : Response} (run : CarefulRun (idle w))
    (hrun : processResponse w n rsp = .ok w') : CarefulRun (idle w') := by
  have hc : Counted (fun _ => 0) w := invariant_of_run run
  have hsettle : CallbackHandlers.step (idle w) (.event (.response n rsp)) =
    startResponse w n rsp := rfl
  have hidle : ∀ {v : World}, startResponse w n rsp = .ok (idle v) → CarefulRun (idle v) :=
    fun heq => .next run (keepsHandled_event _) (hsettle.trans heq)
  unfold processResponse at hrun
  unfold startResponse at hsettle hidle
  split at hrun
  · rename_i hsent
    simp only [hsent] at hidle
    exact Except.ok.inj hrun ▸ hidle rfl
  · rename_i sent hsent
    simp only [hsent] at hidle hsettle
    have hsaid := Counted.say hc (.answered sent rsp)
    dsimp only at hrun
    split at hrun
    · rename_i hx
      simp only [hx] at hidle
      exact Except.ok.inj hrun ▸ hidle rfl
    · rename_i x hx
      simp only [hx] at hidle hsettle
      have hmem : x ∈ w.xacts := (findXact_eq_some (w := w.say (.answered sent rsp)) hx).1
      split at hrun
      · rename_i hnobody
        simp only [if_pos hnobody] at hidle
        exact Except.ok.inj hrun ▸ hidle rfl
      · rename_i hsomebody
        rw [if_neg hsomebody] at hsettle
        obtain rfl := (findXact_eq_some (w := w.say (.answered sent rsp)) hx).2
        have hhandled := Counted.say hsaid (.handled x.id
          (contextSbiObjectToSession (w.say (.answered sent rsp)) x.sbiObject)
          (contextSbiObjectToTmgi (w.say (.answered sent rsp)) x.sbiObject))
        obtain ⟨v, hv, hend⟩ := bind_eq_ok.1 hrun
        rw [← Except.ok.inj hend]
        split at hv
        · rename_i hservice
          simp only [hservice, if_true] at hsettle ⊢
          exact careful_settle (attends_processTmgiResponse hhandled hmem)
            ((run_processTmgiResponse _ x _ rsp).trans hv) run (keepsHandled_event _)
            hsettle
        · rename_i hservice
          simp only [hservice] at hsettle ⊢
          refine careful_settle (attends_processSessionResponse hhandled hmem fun s hs => ?_)
            ((run_processSessionResponse _ x _ rsp).trans hv) run (keepsHandled_event _)
            hsettle
          obtain ⟨y, hy, ho⟩ := heldBy_of_found hs
          exact ⟨y, hy, ho⟩

theorem careful_timeout {n : ℕ} (run : CarefulRun (idle w))
    (hrun : processTimeout w n = .ok w') : CarefulRun (idle w') := by
  have hc : Counted (fun _ => 0) w := invariant_of_run run
  have hsettle : CallbackHandlers.step (idle w) (.event (.timeout n)) = startTimeout w n := rfl
  have hidle : ∀ {v : World}, startTimeout w n = .ok (idle v) → CarefulRun (idle v) :=
    fun heq => .next run (keepsHandled_event _) (hsettle.trans heq)
  unfold processTimeout at hrun
  unfold startTimeout at hsettle hidle
  split at hrun
  · rename_i hx
    simp only [hx] at hidle
    exact Except.ok.inj hrun ▸ hidle rfl
  · rename_i x hx
    simp only [hx] at hidle hsettle
    have hsaid := Counted.say hc (.timedOut x)
    dsimp only at hrun
    split at hrun
    · rename_i hs
      simp only [hs] at hidle
      exact Except.ok.inj hrun ▸ hidle rfl
    · rename_i s hs
      simp only [hs] at hsettle
      obtain rfl := (findXact_eq_some hx).2
      obtain ⟨v, hv, hend⟩ := bind_eq_ok.1 hrun
      rw [← Except.ok.inj hend]
      have hattended : Attended x none ((w.say (.timedOut x)).say
          (.handled x.id (some s) (contextSbiObjectToTmgi (w.say (.timedOut x)) x.sbiObject))) :=
        ⟨(Counted.say hsaid _).of_held fun _ => rfl, (findXact_eq_some hx).1⟩
      exact careful_settle (attends_reportTimeout hattended)
        ((run_reportTimeout _ x s _).trans hv) run (keepsHandled_event _) hsettle

/-- A request that is sent has a TMGI to ask for. -/
theorem allocatedList_of_step {call : TmgiCall} (hrun : tmgiStep w call = .ok w') :
    allocatedList w call ≠ some [] := by
  have hempty : ∀ refresh, tmgiListSendAllocate w (some []) refresh ≠ .ok w' := by
    intro refresh heq
    cases heq
  intro hnil
  cases call <;> simp only [allocatedList, Option.some.injEq, reduceCtorEq] at hnil
  case sendAllocateAll =>
    refine hempty none ?_
    rw [← hnil]
    exact hrun
  case sendAllocateAndRefreshAll now =>
    refine hempty (some (registeredWhere w fun x => x.allocated && isExpired now x)) ?_
    rw [← hnil]
    exact hrun

/-- Every run of the library is one in which the callbacks return at once, and such a run
keeps what it handles. -/
theorem careful_of_reachable (run : Reachable ProcessEvent.step World.initial w) :
    CarefulRun (idle w) := by
  induction run with
  | init => exact .init
  | @next w w' e run cond fires ih =>
      have hcall : ∀ c : PublicCall, c.event = e → KeepsHandled (idle w) (.call c) →
          CarefulRun (idle w') := by
        rintro c rfl hgood
        refine .next ih hgood ?_
        change (ProcessEvent.step w c.event >>= fun v => .ok (idle v)) = _
        rw [fires]
        rfl
      cases e with
      | tmgi call =>
          refine hcall (.tmgi call) rfl (keepsHandled_idle fun call' heq => ?_)
          cases heq
          exact allocatedList_of_step fires
      | subscription call =>
          exact hcall (.subscription call) rfl (keepsHandled_idle fun _ heq => by cases heq)
      | session call =>
          exact hcall (.session call) rfl (keepsHandled_idle fun _ heq => by cases heq)
      | network event =>
          cases event with
          | discovery n found =>
              refine .next ih (keepsHandled_event (.discovery n found)) ?_
              exact congrArg (Except.ok ∘ idle) (Except.ok.inj fires)
          | response n rsp => exact careful_response ih fires
          | timeout n => exact careful_timeout ih fires

end ServiceConsumers.SbiObjectCounts
