import ServiceConsumers.OperationFaults
import ServiceConsumers.SubscriptionPlacement

set_option autoImplicit false

/-!
# The containers of subscriptions

Which container an operation takes a subscription to be in is decided by its id alone.
-/

namespace ServiceConsumers.SubscriptionContainers

open ObjectStore KeyedTable PublicSessions ConsumerState TmgiOperations SubscriptionOperations
  SessionOperations ResponseHandlers ProcessEvent TransitionRuns TransactionLog TmgiEffects
  SessionEffects PushEffects AnswerEffects EventEffects SubscriptionLinks StepDecomposition
  RunInvariants OperationFaults SubscriptionPlacement

/-! ## The law -/

structure ContainersSound (w : World) : Prop where
  once : ∀ u n s, w.subscriptionStore u = some n → n.session = some s →
    ∃ x, w.sessionStore s = some x ∧ (members x).count u = 1
  nowhere : ∀ q y u, w.sessionStore q = some y → u ∈ members y →
    ∃ n, w.subscriptionStore u = some n ∧ n.session = some q
  id : ∀ u n s x, w.subscriptionStore u = some n → n.session = some s →
    w.sessionStore s = some x →
    (n.id.isSome ↔ u ∈ x.active.map Prod.snd ∨ u ∈ x.deletedSubscriptions)
  keyed : ∀ s x k u, w.sessionStore s = some x → (k, u) ∈ x.active →
    ∃ n, w.subscriptionStore u = some n ∧ n.id = some k

/-- A fault that is no broken list. -/
def ListKept (f : Fault) : Prop := f ≠ .nodeAlreadyLinked ∧ f ≠ .notAMember

/-- No operation on subscriptions that satisfies the condition breaks a list. -/
structure ListsKept (good : World → Event → Prop) (w : World) : Prop where
  call : ∀ c f, good w (.subscription c) → subscriptionStep w c = .error f → ListKept f
  push : ∀ e v s f, good w e → PushCall w e v s → mbsSessionPushChanges v s = .error f →
    ListKept f
  answer : ∀ n rsp x s u body f, good w (.network (.response n rsp)) → Answers w n rsp x s →
    x.request = .subscribe u body →
    nmbsmfMbsSessionSubscriptionResponse (handlingState w x rsp) s (ogsSbiParseHeader rsp) =
      .error f → ListKept f

/-- A subscription is not linked again while its node is in a list. -/
structure LinkedOnce (w : World) (e : Event) : Prop where
  add : ∀ s u x n, e = .subscription (.add s u) → w.sessionStore s = some x →
    w.subscriptionStore u = some n → x.deleted = true ∨ n.node = none
  remove : ∀ s u x n, e = .subscription (.remove s u) ∨ e = .subscription (.delete u) →
    w.sessionStore s = some x → w.subscriptionStore u = some n → n.session = some s →
    n.id.isSome → x.deleted = true ∨ n.node = none

/-- Nor is one removed while it is new: the removal writes to it after it is freed. -/
structure ContainersRespected (w : World) (e : Event) : Prop extends LinkedOnce w e where
  kept : ∀ s u x n, e = .subscription (.remove s u) ∨ e = .subscription (.delete u) →
    w.sessionStore s = some x → w.subscriptionStore u = some n → n.session = some s →
    n.id = none → x.deleted = true ∨ u ∉ x.newSubscriptions

/-! ## Runs -/

variable {w w' v v' : World} {e : Event}

theorem Part.placed (hw : Sound w) (hl : Linked v) (hp : Placed v) (h : Part w e v v') :
    Placed v' := by
  cases h with
  | tmgi effect => exact hp.of_stores (Keeps.of_eq effect.sessionStore) effect.subscriptionStore
  | newSession ssm => exact placed_mbsSessionNew hp hw.sessionStore_next
  | writeSession live view =>
      have hview := congrArg MbsSession.active view
      exact hp.of_stores (Keeps.setSession live hview) rfl
  | markDeleted live =>
      rename_i s x
      have hset : Keeps MbsSession.active w (w.setSession s { x with deleted := true }) :=
        Keeps.setSession live rfl
      exact hp.of_stores hset rfl
  | newSubscription unused =>
      exact placed_newSubscription hp hw.subscriptionStore_next
        ⟨unused.1, unused.2.1, unused.2.2.1⟩
  | setSubscription event =>
      rename_i u setting
      refine hp.of_still (Keeps.refl w) ?_
      intro q
      by_cases hq : q = u
      · subst hq
        cases hn : w.subscriptionStore q <;> simp [hn, place_mbsStatusSubscriptionSet]
      · simp [Store.modify_of_ne _ _ _ hq]
  | addSubscription event run => exact placed_mbsSessionAddSubscription hp run
  | removeSubscription event run => exact placed_mbsSessionRemoveSubscription hl hp run
  | freeSubscription event live unattached =>
      rename_i u n
      refine hp.of_moves Moves.of_free (placedAt_of_free (Store.free_self _ _) ?_)
      intro s k hk
      obtain ⟨m, hm, hs, -⟩ := (hp.subscriptions u).active s k hk
      rw [live, Option.some.injEq] at hm
      rw [← hm, unattached.1] at hs
      cases hs
  | push call run => exact placed_mbsSessionPushChanges hl hp run
  | answered event sent => exact hp.of_stores (Keeps.refl _) rfl
  | said event outstanding observation => exact hp.of_stores (Keeps.refl _) rfl
  | parse event answers request status run =>
      have heffect := valueEffect_nmbsmfMbsSessionParse run
      exact hp.of_stores (heffect.keeps.comp MbsSession.active) heffect.subscriptionStore
  | left event answers request usable live callback run =>
      exact placed_leavingEffect hl hp (leavingEffect_contextRemoveMbsSession run)

theorem placed_of_run {good : World → Event → Prop} (h : Run good w) : Placed w :=
  run_invariant Placed placed_initial
    (fun _ _ _ _ _ hw _ hparts _ hv hpart =>
      Part.placed hw (hw.of_parts hparts).links hv hpart) h

theorem containersSound (hl : Linked w) (hp : Placed w) : ContainersSound w := by
  refine ⟨?_, ?_, ?_, ?_⟩
  · intro u n s hn hs
    obtain ⟨x, hx⟩ := live_of_attached hl hp hn hs
    exact ⟨x, hx, count_members hl hp hn hs hx⟩
  · intro q y u hy hu
    have hlist : ∀ name, u ∈ listOf y name →
        ∃ n, w.subscriptionStore u = some n ∧ n.session = some q := by
      intro name hmem
      obtain ⟨n, hn, hnode⟩ := hl.member q y name u hy hmem
      exact ⟨n, hn, (hl.node u n _ hn hnode).1⟩
    rw [members, List.mem_append, List.mem_append, mem_active_map] at hu
    rcases hu with (hu | ⟨k, hk⟩) | hu
    · exact hlist .newSubscriptions hu
    · obtain ⟨n, hn, hs, -⟩ := (hp.subscriptions u).active q k ⟨y, hy, hk⟩
      exact ⟨n, hn, hs⟩
    · exact hlist .deletedSubscriptions hu
  · intro u n s x hn hs hx
    obtain ⟨-, hactive, hdeleted⟩ := mem_containers hl hp hn hs hx
    rw [hactive, hdeleted]
    cases hnode : n.node with
    | none =>
        rcases (hp.subscriptions u).unlinked n hn hnode with ⟨hnone, -⟩ | ⟨q, k, -, hk⟩
        · rw [hs] at hnone
          cases hnone
        · obtain ⟨m, hm, -, hid, -⟩ := (hp.subscriptions u).active q k hk
          obtain rfl := Option.some.inj (hn.symm.trans hm)
          simp [hid]
    | some l =>
        obtain ⟨hsession, -⟩ := hl.node u n l hn hnode
        have hlisted := (hp.subscriptions u).listed n l hn hnode
        obtain ⟨q, name⟩ := l
        obtain rfl := Option.some.inj (hs.symm.trans hsession)
        rw [hlisted]
        simp
  · intro s x k u hx hk
    obtain ⟨n, hn, -, hid, -⟩ := (hp.subscriptions u).active s k ⟨x, hx, hk⟩
    exact ⟨n, hn, hid⟩

/-! ## The lists stay well formed -/

section Kept

variable {α β : Type} {s u : Ref}

abbrev Kept (x : Except Fault α) : Prop := Outcome ListKept (fun _ => True) x

theorem kept_of_reads {x : Except Fault α} (h : Reads x) : Kept x := by
  refine h.mono (fun _ _ => trivial) fun f hf => ?_
  cases f <;> first | exact absurd hf id | exact ⟨by decide, by decide⟩

theorem kept_bind {x : Except Fault α} {f : α → Except Fault β} (hx : Kept x)
    (hf : ∀ a, x = .ok a → Kept (f a)) : Kept (x >>= f) :=
  Outcome.bind_ok hx hf

theorem kept_sbiXactAdd {sbi : Option Ref} {requester : Requester}
    {build : Except Fault Request} (h : Reads build) : Kept (w.sbiXactAdd sbi requester build) := by
  unfold World.sbiXactAdd
  split
  · exact ⟨by decide, by decide⟩
  · exact kept_bind (kept_of_reads h) fun r _ => trivial

theorem kept_send {build : World → MbsSession → StatusSubscription → Except Fault Request}
    (h : ∀ x n, Reads (build w x n)) : Kept (mbsStatusSubscriptionSend build w u) := by
  refine kept_bind (kept_of_reads (reads_subscriptionAt w u)) fun n _ => ?_
  split
  · exact trivial
  · exact kept_bind (kept_of_reads (reads_sessionAt w _)) fun x _ => kept_sbiXactAdd (h x n)

theorem kept_sendDelete : Kept (mbsStatusSubscriptionSendDelete w u) :=
  kept_send fun _ _ => trivial

theorem kept_updateNewSubscription : Kept (updateNewSubscription w u) := by
  refine kept_bind (kept_of_reads (reads_subscriptionAt w u)) fun n _ => ?_
  have hsend : Kept (if n.changed then mbsStatusSubscriptionSendCreate w u else .ok w) := by
    split
    · exact kept_send fun x n => (reads_tmgiContent w _).bind fun _ => trivial
    · exact trivial
  exact kept_bind hsend fun v _ => trivial

theorem kept_updateStatusSubscription : Kept (updateStatusSubscription w u) := by
  refine kept_bind (kept_of_reads (reads_subscriptionAt w u)) fun n _ => ?_
  split
  · refine kept_bind (kept_send fun x n => ?_) fun v _ => trivial
    exact (reads_mbsSessionPatchList x).bind fun _ => trivial
  · exact trivial

theorem kept_ogsListAdd {name : ListName}
    (h : ∀ n, w.subscriptionStore u = some n → n.node = none) : Kept (ogsListAdd w s name u) := by
  refine kept_bind (kept_of_reads (reads_sessionAt w s)) fun x _ => ?_
  refine kept_bind (kept_of_reads (reads_subscriptionAt w u)) fun n hn => ?_
  rw [World.subscriptionAt_eq_ok] at hn
  rw [h n hn]
  exact trivial

theorem kept_ogsListRemove {name : ListName}
    (h : ∀ x, w.sessionStore s = some x → u ∈ listOf x name) :
    Kept (ogsListRemove w s name u) := by
  refine kept_bind (kept_of_reads (reads_sessionAt w s)) fun x hx => ?_
  rw [World.sessionAt_eq_ok] at hx
  rw [if_pos (h x hx)]
  exact trivial

/-- The session has these subscriptions left in its list of pending deletions. -/
def PendingLeft (s : Ref) (us : List Ref) (w : World) : Prop :=
  ∃ x, w.sessionStore s = some x ∧ x.deletedSubscriptions = us

theorem outcome_removePendingSubscription {us : List Ref} (h : PendingLeft s (u :: us) w) :
    Outcome ListKept (PendingLeft s us) (removePendingSubscription s w u) := by
  obtain ⟨x, hx, hus⟩ := h
  refine Outcome.bind_ok kept_sendDelete fun v hv => ?_
  have hxv : v.sessionStore s = some x := by
    rw [(sendEffect_sendDelete hv).sessionStore]
    exact hx
  have hmem : ∀ y, v.sessionStore s = some y → u ∈ listOf y .deletedSubscriptions := by
    intro y hy
    obtain rfl := Option.some.inj (hxv.symm.trans hy)
    rw [listOf, hus]
    exact List.mem_cons_self
  refine Outcome.bind_ok (kept_ogsListRemove hmem) fun v' hv' => ?_
  obtain ⟨y, hy, -, rfl⟩ := ogsListRemove_eq_ok hv'
  obtain rfl := Option.some.inj (hxv.symm.trans hy)
  refine ⟨_, Store.set_self _ _ _, ?_⟩
  rw [setList, listOf, hus, List.erase_cons_head]

theorem outcome_loop {f : World → Ref → Except Fault World} (hkept : ∀ t q, Kept (f t q))
    (hstore : ∀ t q t', f t q = .ok t' → t'.sessionStore = t.sessionStore) (us : List Ref) :
    Outcome ListKept (fun t => t.sessionStore = w.sessionStore) (us.foldlM f w) := by
  refine Outcome.foldlM (fun _ t => t.sessionStore = w.sessionStore) ?_ us w rfl
  intro q rest t ht
  exact Outcome.of_cases (fun t' ht' => (hstore t q t' ht').trans ht) fun g hg =>
    (hkept t q).error hg

theorem kept_mbsSessionSubscriptionsUpdate : Kept (mbsSessionSubscriptionsUpdate w s) := by
  refine kept_bind (kept_of_reads (reads_sessionAt w s)) fun x hx => ?_
  rw [World.sessionAt_eq_ok] at hx
  have hnew := outcome_loop (w := w) (fun t q => @kept_updateNewSubscription t q)
    (fun _ _ _ => updateNewSubscription_sessionStore) x.newSubscriptions
  refine hnew.bind fun v hv => ?_
  have hactive := outcome_loop (w := v) (fun t q => @kept_updateStatusSubscription t q)
    (fun _ _ _ => updateStatusSubscription_sessionStore) (x.active.map Prod.snd)
  refine hactive.bind fun v' hv' => ?_
  have hpending : PendingLeft s x.deletedSubscriptions v' := ⟨x, by rw [hv', hv, hx], rfl⟩
  exact (Outcome.foldlM (PendingLeft s) (fun _ _ _ => outcome_removePendingSubscription)
    x.deletedSubscriptions v' hpending).mono (fun _ _ => trivial) fun _ hf => hf

theorem kept_mbsSessionSendCreate : Kept (mbsSessionSendCreate w s) := by
  refine kept_bind (kept_of_reads (reads_sessionAt w s)) fun x _ => ?_
  exact kept_sbiXactAdd (reads_buildCreate _ _)

theorem kept_mbsSessionSendRemove : Kept (mbsSessionSendRemove w s) :=
  kept_bind (kept_of_reads (reads_sessionAt w s)) fun _ _ => kept_sbiXactAdd trivial

theorem kept_mbsSessionSendUpdate : Kept (mbsSessionSendUpdate w s) :=
  kept_bind (kept_of_reads (reads_sessionAt w s)) fun x _ => kept_sbiXactAdd (reads_buildUpdate w x)

theorem kept_mbsSessionPushChanges : Kept (mbsSessionPushChanges w s) := by
  rw [mbsSessionPushChanges_eq]
  refine kept_bind (kept_of_reads (reads_sessionAt w s)) fun x _ => ?_
  refine kept_bind (kept_of_reads (reads_pushDecision w x)) fun decision _ => ?_
  cases decision with
  | remove => exact kept_mbsSessionSendRemove
  | create => exact kept_mbsSessionSendCreate
  | recreate removeFirst =>
      have hremove : Kept (if removeFirst then mbsSessionSendRemove w s else .ok w) := by
        split
        · exact kept_mbsSessionSendRemove
        · exact trivial
      exact kept_bind hremove fun v _ => kept_mbsSessionSendCreate
  | update => exact kept_bind kept_mbsSessionSendUpdate fun v _ => kept_mbsSessionSubscriptionsUpdate
  | unchanged => exact kept_mbsSessionSubscriptionsUpdate

theorem kept_forgetId : Kept (forgetId w u) := by
  refine kept_bind (kept_of_reads (reads_subscriptionAt w u)) fun n _ => ?_
  split
  · exact trivial
  · split
    · exact ⟨by decide, by decide⟩
    · refine kept_bind (kept_of_reads (reads_sessionAt w _)) fun x _ => ?_
      split
      · exact ⟨by decide, by decide⟩
      · exact kept_bind kept_sendDelete fun v _ => trivial

theorem kept_mbsSessionAddSubscription
    (h : ∀ x n, w.sessionStore s = some x → w.subscriptionStore u = some n →
      x.deleted = true ∨ n.node = none) : Kept (mbsSessionAddSubscription w s u) := by
  refine kept_bind (kept_of_reads (reads_sessionAt w s)) fun x hx => ?_
  refine kept_bind (kept_of_reads (reads_subscriptionAt w u)) fun n hn => ?_
  rw [World.sessionAt_eq_ok] at hx
  rw [World.subscriptionAt_eq_ok] at hn
  split
  · exact trivial
  · rename_i hd
    have hnode : n.node = none := (h x n hx hn).resolve_left hd
    refine kept_bind kept_forgetId fun v hv => ?_
    refine kept_bind (kept_ogsListAdd fun m hm => ?_) fun v' _ => trivial
    obtain ⟨m', hm', -, hsame⟩ := (sameLinks_forgetId hv).back hm
    rw [show m' = n from Option.some.inj (hm'.symm.trans hn)] at hsame
    exact hsame.trans hnode

theorem kept_mbsSessionRemoveSubscription
    (h : ∀ x n, w.sessionStore s = some x → w.subscriptionStore u = some n →
      n.session = some s → n.id.isSome → x.deleted = true ∨ n.node = none) :
    Kept (mbsSessionRemoveSubscription w s u) := by
  refine kept_bind (kept_of_reads (reads_sessionAt w s)) fun x hx => ?_
  refine kept_bind (kept_of_reads (reads_subscriptionAt w u)) fun n hn => ?_
  rw [World.sessionAt_eq_ok] at hx
  rw [World.subscriptionAt_eq_ok] at hn
  split
  · exact trivial
  · rename_i hgo
    rw [not_or, not_not] at hgo
    split
    · rename_i id hid
      have hnode : n.node = none :=
        (h x n hx hn hgo.2 (by rw [hid]; rfl)).resolve_left hgo.1
      refine kept_bind (kept_ogsListAdd fun m hm => ?_) fun v _ => trivial
      rw [show m = n from Option.some.inj (hm.symm.trans hn)]
      exact hnode
    · split
      · rename_i hu
        refine kept_bind (kept_ogsListRemove fun y hy => ?_) fun v _ => trivial
        obtain rfl := Option.some.inj (hx.symm.trans hy)
        exact hu
      · exact trivial

theorem kept_nmbsmfMbsSessionSubscriptionResponse {rsp : Response} :
    Kept (nmbsmfMbsSessionSubscriptionResponse w s rsp) := by
  unfold nmbsmfMbsSessionSubscriptionResponse
  split
  · exact trivial
  · exact trivial
  · split
    · split
      · exact trivial
      · rename_i u hu
        split
        · exact ⟨by decide, by decide⟩
        · rename_i id hid
          have hestablish : Kept (establishSubscription w s u id rsp.hashSlot) := by
            refine kept_bind (kept_of_reads (reads_sessionAt _ s)) fun x hx => ?_
            rw [World.sessionAt_eq_ok] at hx
            split
            · rename_i hnew
              refine kept_bind (kept_ogsListRemove fun y hy => ?_) fun v _ => trivial
              obtain rfl := Option.some.inj (hx.symm.trans hy)
              exact hnew
            · exact trivial
          refine kept_bind hestablish fun v _ => ?_
          split
          · exact trivial
          · exact ⟨by decide, by decide⟩
    · exact trivial

end Kept

theorem listsKept : ListsKept ContainersRespected w := by
  refine ⟨?_, ?_, ?_⟩
  · intro c f hgood hf
    cases c with
    | new areaSessionId flags correlationId expiryTime => cases hf
    | set u setting =>
        have hset : Kept (subscriptionStep w (.set u setting)) :=
          kept_bind (kept_of_reads (reads_subscriptionAt w u)) fun n _ => trivial
        exact hset.error hf
    | add s u =>
        exact (kept_mbsSessionAddSubscription fun x n => hgood.add s u x n rfl).error hf
    | remove s u =>
        exact (kept_mbsSessionRemoveSubscription fun x n =>
          hgood.remove s u x n (.inl rfl)).error hf
    | delete u =>
        have hdelete : Kept (subscriptionStep w (.delete u)) := by
          refine kept_bind (kept_of_reads (reads_subscriptionAt w u)) fun n _ => ?_
          split
          · exact kept_mbsSessionRemoveSubscription fun x n => hgood.remove _ u x n (.inr rfl)
          · split <;> exact trivial
        exact hdelete.error hf
  · exact fun e v s f _ _ hf => kept_mbsSessionPushChanges.error hf
  · exact fun n rsp x s u body f _ _ _ hf => kept_nmbsmfMbsSessionSubscriptionResponse.error hf

theorem containers_sound (h : Run ContainersRespected w) :
    ContainersSound w ∧ ListsKept ContainersRespected w :=
  ⟨containersSound (sound_of_run h).links (placed_of_run h), listsKept⟩

/-- A subscription that is added to a session and requested. -/
def requestedRun : List Event :=
  [.session (.newIpv4 none none),
   .session (.edit 1 { tmgiReq := false }),
   .session (.pushChanges 1),
   .network (.response 3
     { status := 201, resStatus := 201, createLocation := .resource "a",
       createRspData := some (some {}) }),
   .subscription (.new 0 1 none 0),
   .subscription (.add 1 4),
   .session (.pushChanges 1)]

def requestedState (k : ℕ) : World := (requestedRun.take k).foldl (advance step) World.initial

/-- Adding a subscription that is attached already breaks the list of new subscriptions. -/
theorem second_add_breaks : ¬∀ w, Reachable step World.initial w →
    ContainersSound w ∧ ListsKept (fun _ _ => True) w := by
  intro h
  have hcall := (h _ (Reachable.of_events (requestedRun.take 6))).2.call (.add 1 4)
  exact absurd rfl (hcall .nodeAlreadyLinked trivial rfl).1

theorem ContainersRespected.of_other
    (hadd : ∀ s u, e ≠ .subscription (.add s u)) (hremove : ∀ s u, e ≠ .subscription (.remove s u))
    (hdelete : ∀ u, e ≠ .subscription (.delete u)) : ContainersRespected w e := by
  refine ⟨⟨?_, ?_⟩, ?_⟩
  · exact fun s u x n he => absurd he (hadd s u)
  · exact fun s u x n he => (he.elim (absurd · (hremove s u)) (absurd · (hdelete u)))
  · exact fun s u x n he => (he.elim (absurd · (hremove s u)) (absurd · (hdelete u)))

theorem ContainersRespected.of_session {c : SessionCall} : ContainersRespected w (.session c) :=
  .of_other (fun _ _ he => by cases he) (fun _ _ he => by cases he) fun _ he => by cases he

theorem ContainersRespected.of_network {c : NetworkEvent} : ContainersRespected w (.network c) :=
  .of_other (fun _ _ he => by cases he) (fun _ _ he => by cases he) fun _ he => by cases he

theorem ContainersRespected.of_new {areaSessionId : ℕ} {flags : BitVec 32}
    {correlationId : Option String} {expiryTime : ℤ} :
    ContainersRespected w (.subscription (.new areaSessionId flags correlationId expiryTime)) :=
  .of_other (fun _ _ he => by cases he) (fun _ _ he => by cases he) fun _ he => by cases he

theorem ContainersRespected.of_unlinked {s u : Ref}
    (h : (w.subscriptionStore u).map StatusSubscription.node = some none) :
    ContainersRespected w (.subscription (.add s u)) := by
  refine ⟨⟨?_, ?_⟩, ?_⟩
  · intro s' u' x n he _ hn
    cases he
    rw [hn, Option.map_some, Option.some.injEq] at h
    exact .inr h
  · intro s' u' x n he
    rcases he with he | he
    · cases he
    · cases he
  · intro s' u' x n he
    rcases he with he | he
    · cases he
    · cases he

theorem requestedRun_respected : Run ContainersRespected (requestedState 7) := by
  refine Reach.of_goodFrom requestedRun .init ⟨?_, ?_, ?_, ?_, ?_, ?_, ?_, trivial⟩
  · exact .of_session
  · exact .of_session
  · exact .of_session
  · exact .of_network
  · exact .of_new
  · exact .of_unlinked (by decide +kernel)
  · exact .of_session

/-- After that run the subscription is new, once, and its request is outstanding. -/
theorem containers_sound_requested : ContainersSound (requestedState 7) ∧
    ListsKept ContainersRespected (requestedState 7) ∧
    ((requestedState 7).sessionStore 1).map MbsSession.newSubscriptions = some [4] ∧
    ((requestedState 7).findSent 5).isSome = true :=
  ⟨(containers_sound requestedRun_respected).1, (containers_sound requestedRun_respected).2,
    by decide +kernel, by decide +kernel⟩

end ServiceConsumers.SubscriptionContainers
