import ServiceConsumers.TmgiEffects

set_option autoImplicit false

/-!
# What session operations change

An operation is described by the part of every session record that it leaves alone.
-/

namespace ServiceConsumers.SessionEffects

open ObjectStore KeyedTable PublicSessions ConsumerState TmgiOperations SubscriptionOperations
  SessionOperations ResponseHandlers ProcessEvent TransitionRuns TransactionLog TmgiEffects

/-! ## Parts of a session that an operation keeps -/

/-- The same sessions are live, and each shows the same under `view`. -/
def Keeps {α : Type} (view : MbsSession → α) (w w' : World) : Prop :=
  ∀ s, (w'.sessionStore s).map view = (w.sessionStore s).map view

namespace Keeps

variable {α β : Type} {view : MbsSession → α} {w w' w'' : World}

theorem refl (w : World) : Keeps view w w := fun _ => rfl

theorem trans (h₁ : Keeps view w w') (h₂ : Keeps view w' w'') : Keeps view w w'' :=
  fun s => (h₂ s).trans (h₁ s)

theorem of_eq (h : w'.sessionStore = w.sessionStore) : Keeps view w w' :=
  fun s => by rw [h]

theorem comp (g : α → β) (h : Keeps view w w') : Keeps (fun x => g (view x)) w w' := by
  intro s
  have hs := congrArg (Option.map g) (h s)
  rwa [Option.map_map, Option.map_map] at hs

/-- A record after the operation comes from one before it. -/
theorem back (h : Keeps view w w') {s : Ref} {x' : MbsSession}
    (hx' : w'.sessionStore s = some x') :
    ∃ x, w.sessionStore s = some x ∧ view x' = view x := by
  have hs := h s
  rw [hx', Option.map_some] at hs
  cases hx : w.sessionStore s with
  | none =>
      rw [hx] at hs
      cases hs
  | some x =>
      rw [hx, Option.map_some, Option.some.injEq] at hs
      exact ⟨x, rfl, hs⟩

theorem forth (h : Keeps view w w') {s : Ref} {x : MbsSession}
    (hx : w.sessionStore s = some x) :
    ∃ x', w'.sessionStore s = some x' ∧ view x' = view x := by
  have hs := h s
  rw [hx, Option.map_some] at hs
  cases hx' : w'.sessionStore s with
  | none =>
      rw [hx'] at hs
      cases hs
  | some x' =>
      rw [hx', Option.map_some, Option.some.injEq] at hs
      exact ⟨x', rfl, hs⟩

theorem isSome (h : Keeps view w w') (s : Ref) :
    (w'.sessionStore s).isSome = (w.sessionStore s).isSome := by
  have hs := congrArg Option.isSome (h s)
  rwa [Option.isSome_map, Option.isSome_map] at hs

/-- Writing a record that shows the same. -/
theorem setSession {s : Ref} {x x' : MbsSession} (hx : w.sessionStore s = some x)
    (hview : view x' = view x) : Keeps view w (w.setSession s x') := by
  intro q
  by_cases hq : q = s
  · subst hq
    simp [hx, hview]
  · simp [Store.set_of_ne _ _ _ hq]

theorem modifySession {s : Ref} {f : MbsSession → MbsSession}
    (hview : ∀ x, view (f x) = view x) : Keeps view w (w.modifySession s f) := by
  intro q
  by_cases hq : q = s
  · subst hq
    cases hx : w.sessionStore q <;> simp [hx, hview]
  · simp [Store.modify_of_ne _ _ _ hq]

theorem foldlM {γ : Type} {f : World → γ → Except Fault World} {xs : List γ}
    (hstep : ∀ x v v', f v x = .ok v' → Keeps view v v') (h : xs.foldlM f w = .ok w') :
    Keeps view w w' :=
  foldlM_ok_induction (fun _ v => Keeps view w v)
    (fun x _ v v' hv hf => hv.trans (hstep x v v' hf)) xs w w' (refl w) h

end Keeps

/-- What pushing changes may write. -/
def withoutSending (x : MbsSession) : MbsSession :=
  { x with sbiObject := none, deletedSubscriptions := [] }

/-- What an answer to a session request may write. -/
def withoutValue (x : MbsSession) : MbsSession :=
  { x with id := none, session := {}, previousSession := none }

/-- What operations on subscriptions may write. -/
def withoutLists (x : MbsSession) : MbsSession :=
  { x with newSubscriptions := [], activeSubscriptions := none, deletedSubscriptions := [] }

/-! ## Sending -/

variable {w w' : World}

/-- Sending a request for a subscription. -/
theorem mbsStatusSubscriptionSend_eq_ok
    {build : World → MbsSession → StatusSubscription → Except Fault Request} {u : Ref}
    (h : mbsStatusSubscriptionSend build w u = .ok w') :
    ∃ n, w.subscriptionStore u = some n ∧ ((n.session = none ∧ w' = w) ∨
      ∃ s x o request, n.session = some s ∧ w.sessionStore s = some x ∧ x.sbiObject = some o ∧
        build w x n = .ok request ∧
        w' = { w with
          xacts := w.xacts ++ [⟨w.next, o, .session s, request⟩]
          log := .sent ⟨w.next, o, .session s, request⟩ :: w.log
          next := w.next + 1 }) := by
  simp only [mbsStatusSubscriptionSend, bind_eq_ok, World.subscriptionAt_eq_ok] at h
  obtain ⟨n, hn, h⟩ := h
  refine ⟨n, hn, ?_⟩
  cases hs : n.session with
  | none =>
      simp only [hs, Except.ok.injEq] at h
      exact .inl ⟨rfl, h.symm⟩
  | some s =>
      simp only [hs, bind_eq_ok, World.sessionAt_eq_ok] at h
      obtain ⟨x, hx, h⟩ := h
      obtain ⟨o, request, ho, hbuild, hw'⟩ := sbiXactAdd_eq_ok.1 h
      exact .inr ⟨s, x, o, request, rfl, hx, ho, hbuild, hw'⟩

/-- Only the transactions, the log and the numbers change. -/
structure SendEffect (A : Observation → Prop) (w w' : World) : Prop where
  mbsSessions : w'.mbsSessions = w.mbsSessions
  tmgis : w'.tmgis = w.tmgis
  sessionStore : w'.sessionStore = w.sessionStore
  tmgiStore : w'.tmgiStore = w.tmgiStore
  subscriptionStore : w'.subscriptionStore = w.subscriptionStore
  log : Extends A w w'

theorem SendEffect.refl {A : Observation → Prop} (w : World) : SendEffect A w w :=
  ⟨rfl, rfl, rfl, rfl, rfl, Extends.refl w⟩

theorem sendEffect_mbsStatusSubscriptionSend {A : Observation → Prop}
    {build : World → MbsSession → StatusSubscription → Except Fault Request} {u : Ref}
    (hA : ∀ n o s x m r, w.subscriptionStore u = some m → m.session = some s →
      w.sessionStore s = some x → build w x m = .ok r → A (.sent ⟨n, o, .session s, r⟩))
    (h : mbsStatusSubscriptionSend build w u = .ok w') : SendEffect A w w' := by
  obtain ⟨m, hm, ⟨-, rfl⟩ | ⟨s, x, o, r, hs, hx, -, hbuild, rfl⟩⟩ :=
    mbsStatusSubscriptionSend_eq_ok h
  · exact SendEffect.refl _
  · exact ⟨rfl, rfl, rfl, rfl, rfl, extends_sent (hA _ o s x m r hm hs hx hbuild) rfl⟩

/-- The requests that pushes make of subscriptions. -/
def IsSubscriptionRequest : Request → Prop
  | .subscribe .. | .subscriptionUpdate .. | .subscriptionDelete .. => True
  | _ => False

/-- Only requests about subscriptions are sent. -/
def SubscriptionSent : Observation → Prop
  | .sent x => IsSubscriptionRequest x.request
  | _ => False

theorem buildStatusSubscriptionCreate_eq_ok {x : MbsSession} {u : Ref} {n : StatusSubscription}
    {r : Request} (h : buildStatusSubscriptionCreate w x u n = .ok r) :
    r = .subscribe u (subscriptionBody n) := by
  simp only [buildStatusSubscriptionCreate, bind_eq_ok, Except.ok.injEq] at h
  obtain ⟨_, -, rfl⟩ := h
  rfl

theorem buildStatusSubscriptionUpdate_eq_ok {x : MbsSession} {u : Ref} {n : StatusSubscription}
    {r : Request} (h : buildStatusSubscriptionUpdate x u n = .ok r) :
    ∃ patches, mbsSessionPatchList x = .ok patches ∧ r = .subscriptionUpdate u n.id patches := by
  simp only [buildStatusSubscriptionUpdate, bind_eq_ok, Except.ok.injEq] at h
  obtain ⟨patches, hp, rfl⟩ := h
  exact ⟨patches, hp, rfl⟩

theorem sendEffect_sendCreate {u : Ref} (h : mbsStatusSubscriptionSendCreate w u = .ok w') :
    SendEffect SubscriptionSent w w' := by
  refine sendEffect_mbsStatusSubscriptionSend ?_ h
  intro n o s x m r _ _ _ hr
  rw [buildStatusSubscriptionCreate_eq_ok hr]
  trivial

theorem sendEffect_sendUpdate {u : Ref} (h : mbsStatusSubscriptionSendUpdate w u = .ok w') :
    SendEffect SubscriptionSent w w' := by
  refine sendEffect_mbsStatusSubscriptionSend ?_ h
  intro n o s x m r _ _ _ hr
  obtain ⟨patches, -, rfl⟩ := buildStatusSubscriptionUpdate_eq_ok hr
  trivial

theorem sendEffect_sendDelete {u : Ref} (h : mbsStatusSubscriptionSendDelete w u = .ok w') :
    SendEffect SubscriptionSent w w' := by
  refine sendEffect_mbsStatusSubscriptionSend ?_ h
  intro n o s x m r _ _ _ hr
  simp only [buildStatusSubscriptionDelete, Except.ok.injEq] at hr
  rw [← hr]
  trivial

/-! ## One step of each loop of a subscriptions update -/

theorem updateNewSubscription_eq_ok {u : Ref} (h : updateNewSubscription w u = .ok w') :
    ∃ n v, w.subscriptionStore u = some n ∧
      (if n.changed then mbsStatusSubscriptionSendCreate w u else .ok w) = .ok v ∧
      w' = v.modifySubscription u fun n => { n with changed := false } := by
  simp only [updateNewSubscription, bind_eq_ok, World.subscriptionAt_eq_ok,
    Except.ok.injEq] at h
  obtain ⟨n, hn, v, hv, rfl⟩ := h
  exact ⟨n, v, hn, hv, rfl⟩

theorem updateStatusSubscription_eq_ok {u : Ref} (h : updateStatusSubscription w u = .ok w') :
    ∃ n, w.subscriptionStore u = some n ∧ ((n.changed = false ∧ w' = w) ∨
      (n.changed = true ∧ ∃ v, mbsStatusSubscriptionSendUpdate w u = .ok v ∧
        w' = v.modifySubscription u fun n => { n with changed := false })) := by
  simp only [updateStatusSubscription, bind_eq_ok, World.subscriptionAt_eq_ok] at h
  obtain ⟨n, hn, h⟩ := h
  refine ⟨n, hn, ?_⟩
  cases hc : n.changed with
  | false =>
      simp only [hc, Bool.false_eq_true, if_false, Except.ok.injEq] at h
      exact .inl ⟨rfl, h.symm⟩
  | true =>
      simp only [hc, if_true, bind_eq_ok, Except.ok.injEq] at h
      obtain ⟨v, hv, rfl⟩ := h
      exact .inr ⟨rfl, v, hv, rfl⟩

theorem ogsListRemove_eq_ok {s u : Ref} {name : ListName}
    (h : ogsListRemove w s name u = .ok w') :
    ∃ x, w.sessionStore s = some x ∧ u ∈ listOf x name ∧
      w' = (w.setSession s (setList x name ((listOf x name).erase u))).modifySubscription u
        fun n => { n with node := none } := by
  simp only [ogsListRemove, bind_eq_ok, World.sessionAt_eq_ok] at h
  obtain ⟨x, hx, h⟩ := h
  split at h
  · rename_i hu
    rw [Except.ok.injEq] at h
    exact ⟨x, hx, hu, h.symm⟩
  · cases h

theorem ogsListAdd_eq_ok {s u : Ref} {name : ListName} (h : ogsListAdd w s name u = .ok w') :
    ∃ x n, w.sessionStore s = some x ∧ w.subscriptionStore u = some n ∧ n.node = none ∧
      w' = (w.setSession s (setList x name (listOf x name ++ [u]))).modifySubscription u
        fun n => { n with node := some { session := s, list := name } } := by
  simp only [ogsListAdd, bind_eq_ok, World.sessionAt_eq_ok, World.subscriptionAt_eq_ok] at h
  obtain ⟨x, hx, n, hn, h⟩ := h
  split at h
  · cases h
  · rename_i hnode
    rw [Except.ok.injEq] at h
    exact ⟨x, n, hx, hn, by simpa using hnode, h.symm⟩

theorem removePendingSubscription_eq_ok {s u : Ref}
    (h : removePendingSubscription s w u = .ok w') :
    ∃ v v', mbsStatusSubscriptionSendDelete w u = .ok v ∧
      ogsListRemove v s .deletedSubscriptions u = .ok v' ∧
      w' = mbsStatusSubscriptionFree v' u := by
  simp only [removePendingSubscription, bind_eq_ok, Except.ok.injEq] at h
  obtain ⟨v, hv, v', hv', rfl⟩ := h
  exact ⟨v, v', hv, hv', rfl⟩

theorem updateNewSubscription_sessionStore {u : Ref} (h : updateNewSubscription w u = .ok w') :
    w'.sessionStore = w.sessionStore := by
  obtain ⟨n, v, -, hv, rfl⟩ := updateNewSubscription_eq_ok h
  split at hv
  · exact (sendEffect_sendCreate hv).sessionStore
  · rw [Except.ok.injEq] at hv
    rw [← hv]
    rfl

theorem updateStatusSubscription_sessionStore {u : Ref}
    (h : updateStatusSubscription w u = .ok w') : w'.sessionStore = w.sessionStore := by
  obtain ⟨n, -, ⟨-, rfl⟩ | ⟨-, v, hv, rfl⟩⟩ := updateStatusSubscription_eq_ok h
  · rfl
  · exact (sendEffect_sendUpdate hv).sessionStore

/-- What the three loops preserve, a subscriptions update preserves. In the first two the
sessions are as they were. -/
theorem mbsSessionSubscriptionsUpdate_induction {s : Ref} {x : MbsSession} (P : World → Prop)
    (hx : w.sessionStore s = some x)
    (hnew : ∀ u ∈ x.newSubscriptions, ∀ v v', v.sessionStore = w.sessionStore → P v →
      updateNewSubscription v u = .ok v' → P v')
    (hactive : ∀ u ∈ x.active.map Prod.snd, ∀ v v', v.sessionStore = w.sessionStore → P v →
      updateStatusSubscription v u = .ok v' → P v')
    (hdeleted : ∀ u ∈ x.deletedSubscriptions, ∀ v v', P v →
      removePendingSubscription s v u = .ok v' → P v')
    (hw : P w) (h : mbsSessionSubscriptionsUpdate w s = .ok w') : P w' := by
  simp only [mbsSessionSubscriptionsUpdate, bind_eq_ok, World.sessionAt_eq_ok] at h
  obtain ⟨y, hy, v₁, h₁, v₂, h₂, h₃⟩ := h
  rw [hx, Option.some.injEq] at hy
  subst hy
  have step : ∀ (Q : World → Prop) (f : World → Ref → Except Fault World) (us : List Ref)
      (v v' : World), (∀ u ∈ us, ∀ v v', Q v → f v u = .ok v' → Q v') → Q v →
      us.foldlM f v = .ok v' → Q v' := by
    intro Q f us v v' hf hv hrun
    refine (foldlM_ok_induction
      (fun rest v => (∀ u ∈ rest, ∀ v v', Q v → f v u = .ok v' → Q v') ∧ Q v)
      ?_ us v v' ⟨hf, hv⟩ hrun).2
    rintro u rest t t' ⟨hrest, ht⟩ hfu
    exact ⟨fun q hq => hrest q (List.mem_cons_of_mem u hq),
      hrest u List.mem_cons_self t t' ht hfu⟩
  have hv₁ := step (fun v => v.sessionStore = w.sessionStore ∧ P v) _ _ _ _
    (fun u hu v v' hv hf => ⟨(updateNewSubscription_sessionStore hf).trans hv.1,
      hnew u hu v v' hv.1 hv.2 hf⟩) ⟨rfl, hw⟩ h₁
  have hv₂ := step (fun v => v.sessionStore = w.sessionStore ∧ P v) _ _ _ _
    (fun u hu v v' hv hf => ⟨(updateStatusSubscription_sessionStore hf).trans hv.1,
      hactive u hu v v' hv.1 hv.2 hf⟩) hv₁ h₂
  exact step P _ _ _ _ hdeleted hv₂.2 h₃

end ServiceConsumers.SessionEffects
