import ServiceConsumers.RunInvariants

set_option autoImplicit false

/-!
# Where subscriptions are

A session keeps its subscriptions in two intrusive lists, which share one node, and in a table
that is keyed by their ids. Each operation moves one subscription at most.
-/

namespace ServiceConsumers.SubscriptionPlacement

open ObjectStore KeyedTable PublicSessions ConsumerState TmgiOperations SubscriptionOperations
  SessionOperations ResponseHandlers ProcessEvent TransitionRuns TransactionLog TmgiEffects
  SessionEffects PushEffects AnswerEffects EventEffects SubscriptionLinks StepDecomposition
  RunInvariants

/-- All entries of the three containers of a session. -/
def members (x : MbsSession) : List Ref :=
  x.newSubscriptions ++ x.active.map Prod.snd ++ x.deletedSubscriptions

variable {w w' w'' v : World}

/-- The active table of a session has an entry. -/
def Active (w : World) (s : Ref) (k : String) (u : Ref) : Prop :=
  ∃ x, w.sessionStore s = some x ∧ (k, u) ∈ x.active

/-- A subscription is active and unlinked, or linked and not active, or unattached. -/
structure PlacedAt (w : World) (u : Ref) : Prop where
  active : ∀ s k, Active w s k u →
    ∃ n, w.subscriptionStore u = some n ∧ n.session = some s ∧ n.id = some k ∧ n.node = none
  listed : ∀ n l, w.subscriptionStore u = some n → n.node = some l →
    (n.id.isSome ↔ l.list = .deletedSubscriptions)
  unlinked : ∀ n, w.subscriptionStore u = some n → n.node = none →
    (n.session = none ∧ n.id = none) ∨ ∃ s k, n.session = some s ∧ Active w s k u

structure Placed (w : World) : Prop where
  subscriptions : ∀ u, PlacedAt w u
  keys : ∀ s x, w.sessionStore s = some x → (Table.keys x.active).Nodup

def place (n : StatusSubscription) : Option Ref × Option String × Option ListLink :=
  (n.session, n.id, n.node)

theorem PlacedAt.congr {u : Ref} (h : PlacedAt w u)
    (hu : (w'.subscriptionStore u).map place = (w.subscriptionStore u).map place)
    (hactive : ∀ s k, Active w' s k u ↔ Active w s k u) : PlacedAt w' u := by
  have hback : ∀ n', w'.subscriptionStore u = some n' →
      ∃ n, w.subscriptionStore u = some n ∧ place n' = place n := by
    intro n' hn'
    rw [hn', Option.map_some] at hu
    exact (Option.map_eq_some_iff.1 hu.symm).imp fun n hn => ⟨hn.1, hn.2.symm⟩
  refine ⟨?_, ?_, ?_⟩
  · intro s k hk
    obtain ⟨n, hn, hsession, hid, hnode⟩ := h.active s k ((hactive s k).1 hk)
    rw [hn, Option.map_some] at hu
    obtain ⟨n', hn', hplace⟩ := Option.map_eq_some_iff.1 hu
    rw [place, place, Prod.mk.injEq, Prod.mk.injEq] at hplace
    exact ⟨n', hn', hplace.1.trans hsession, hplace.2.1.trans hid, hplace.2.2.trans hnode⟩
  · intro n' l hn' hl
    obtain ⟨n, hn, hplace⟩ := hback n' hn'
    rw [place, place, Prod.mk.injEq, Prod.mk.injEq] at hplace
    rw [hplace.2.1]
    exact h.listed n l hn (hplace.2.2.symm.trans hl)
  · intro n' hn' hnode
    obtain ⟨n, hn, hplace⟩ := hback n' hn'
    rw [place, place, Prod.mk.injEq, Prod.mk.injEq] at hplace
    rw [hplace.1, hplace.2.1]
    refine (h.unlinked n hn (hplace.2.2.symm.trans hnode)).imp_right ?_
    rintro ⟨s, k, hs, hk⟩
    exact ⟨s, k, hs, (hactive s k).2 hk⟩

/-! ## Moving one subscription -/

theorem active_iff_of_keeps (h : Keeps MbsSession.active w w') {s : Ref} {k : String} {u : Ref} :
    Active w' s k u ↔ Active w s k u := by
  constructor
  · rintro ⟨x', hx', hk⟩
    obtain ⟨x, hx, hactive⟩ := h.back hx'
    exact ⟨x, hx, hactive ▸ hk⟩
  · rintro ⟨x, hx, hk⟩
    obtain ⟨x', hx', hactive⟩ := h.forth hx
    exact ⟨x', hx', hactive ▸ hk⟩

/-- From `w` to `w'` no subscription but `u` is moved. -/
structure Moves (u : Ref) (w w' : World) : Prop where
  others : ∀ q, q ≠ u → w'.subscriptionStore q = w.subscriptionStore q
  active : ∀ s k q, q ≠ u → (Active w' s k q ↔ Active w s k q)
  keys : (∀ s x, w.sessionStore s = some x → (Table.keys x.active).Nodup) →
    ∀ s x, w'.sessionStore s = some x → (Table.keys x.active).Nodup

namespace Moves

variable {u : Ref}

theorem trans (h₁ : Moves u w w') (h₂ : Moves u w' w'') : Moves u w w'' :=
  ⟨fun q hq => (h₂.others q hq).trans (h₁.others q hq),
    fun s k q hq => (h₂.active s k q hq).trans (h₁.active s k q hq),
    fun h => h₂.keys (h₁.keys h)⟩

theorem of_keeps (h : Keeps MbsSession.active w w')
    (hu : ∀ q, q ≠ u → w'.subscriptionStore q = w.subscriptionStore q) : Moves u w w' := by
  refine ⟨hu, fun s k q _ => active_iff_of_keeps h, ?_⟩
  intro hkeys s x' hx'
  obtain ⟨x, hx, hactive⟩ := h.back hx'
  rw [hactive]
  exact hkeys s x hx

theorem of_sessions (h : Keeps MbsSession.active w w')
    (hu : w'.subscriptionStore = w.subscriptionStore) : Moves u w w' :=
  of_keeps h fun q _ => by rw [hu]

theorem of_modifySubscription {f : StatusSubscription → StatusSubscription} :
    Moves u w (w.modifySubscription u f) :=
  of_keeps (Keeps.refl w) fun _ hq => Store.modify_of_ne _ _ _ hq

theorem of_free : Moves u w (mbsStatusSubscriptionFree w u) :=
  of_keeps (Keeps.refl w) fun _ hq => Store.free_of_ne _ _ _ hq

end Moves

theorem Placed.of_moves {u : Ref} (h : Placed w) (hm : Moves u w w') (hu : PlacedAt w' u) :
    Placed w' := by
  refine ⟨?_, hm.keys h.keys⟩
  intro q
  by_cases hq : q = u
  · exact hq ▸ hu
  · exact (h.subscriptions q).congr (by rw [hm.others q hq]) fun s k => hm.active s k q hq

/-- An operation that moves nothing. -/
theorem Placed.of_still (h : Placed w) (hs : Keeps MbsSession.active w w')
    (hu : ∀ q, (w'.subscriptionStore q).map place = (w.subscriptionStore q).map place) :
    Placed w' := by
  refine ⟨fun u => (h.subscriptions u).congr (hu u) fun _ _ => active_iff_of_keeps hs, ?_⟩
  intro s x' hx'
  obtain ⟨x, hx, hactive⟩ := hs.back hx'
  rw [hactive]
  exact h.keys s x hx

theorem Placed.of_stores (h : Placed w) (hs : Keeps MbsSession.active w w')
    (hu : w'.subscriptionStore = w.subscriptionStore) : Placed w' :=
  h.of_still hs fun q => by rw [hu]

/-- A subscription whose node is linked is not active. -/
theorem PlacedAt.not_active {u : Ref} (h : PlacedAt w u) {n : StatusSubscription}
    (hn : w.subscriptionStore u = some n) (hnode : n.node ≠ none) (s : Ref) (k : String) :
    ¬Active w s k u := by
  intro hk
  obtain ⟨m, hm, -, -, hunlinked⟩ := h.active s k hk
  rw [hn, Option.some.injEq] at hm
  exact hnode (hm ▸ hunlinked)

/-- A freed subscription that was not active has no place any more. -/
theorem placedAt_of_free {u : Ref} (hu : w'.subscriptionStore u = none)
    (hactive : ∀ s k, ¬Active w' s k u) : PlacedAt w' u := by
  refine ⟨fun s k hk => absurd hk (hactive s k), ?_, ?_⟩
  · intro n l hn
    rw [hu] at hn
    cases hn
  · intro n hn
    rw [hu] at hn
    cases hn

/-- A linked subscription that is in no table. -/
theorem placedAt_of_linked {u : Ref} {n : StatusSubscription} {l : ListLink}
    (hn : w'.subscriptionStore u = some n) (hl : n.node = some l)
    (hid : n.id.isSome ↔ l.list = .deletedSubscriptions)
    (hactive : ∀ s k, ¬Active w' s k u) : PlacedAt w' u := by
  refine ⟨fun s k hk => absurd hk (hactive s k), ?_, ?_⟩
  · intro m l' hm hl'
    rw [hn, Option.some.injEq] at hm
    subst hm
    rw [hl, Option.some.injEq] at hl'
    exact hl' ▸ hid
  · intro m hm hnode
    rw [hn, Option.some.injEq] at hm
    subst hm
    rw [hl] at hnode
    cases hnode

@[simp] theorem active_setList (x : MbsSession) (name : ListName) (us : List Ref) :
    (setList x name us).active = x.active := by
  cases name <;> rfl

theorem keeps_active_ogsListAdd {s u : Ref} {name : ListName}
    (h : ogsListAdd w s name u = .ok w') : Keeps MbsSession.active w w' := by
  obtain ⟨x, n, hx, -, -, rfl⟩ := ogsListAdd_eq_ok h
  exact Keeps.setSession hx (active_setList x name _)

theorem keeps_active_ogsListRemove {s u : Ref} {name : ListName}
    (h : ogsListRemove w s name u = .ok w') : Keeps MbsSession.active w w' := by
  obtain ⟨x, hx, -, rfl⟩ := ogsListRemove_eq_ok h
  exact Keeps.setSession hx (active_setList x name _)

theorem moves_ogsListAdd {s u : Ref} {name : ListName} (h : ogsListAdd w s name u = .ok w') :
    Moves u w w' :=
  Moves.of_keeps (keeps_active_ogsListAdd h) fun _ => others_ogsListAdd h

theorem moves_ogsListRemove {s u : Ref} {name : ListName}
    (h : ogsListRemove w s name u = .ok w') : Moves u w w' :=
  Moves.of_keeps (keeps_active_ogsListRemove h) fun _ => others_ogsListRemove h

/-- Unlinking a subscription and freeing it. -/
theorem placed_removed {s u : Ref} {name : ListName} (hl : Linked w) (hp : Placed w)
    (h : ogsListRemove w s name u = .ok v) : Placed (mbsStatusSubscriptionFree v u) := by
  obtain ⟨x, hx, hu, -⟩ := ogsListRemove_eq_ok h
  obtain ⟨n, hn, hnode⟩ := hl.member s x name u hx hu
  have hmoves := (moves_ogsListRemove h).trans Moves.of_free
  have hkeeps : Keeps MbsSession.active w v := keeps_active_ogsListRemove h
  have hfree : Keeps MbsSession.active w (mbsStatusSubscriptionFree v u) := hkeeps
  refine hp.of_moves hmoves (placedAt_of_free (Store.free_self _ _) ?_)
  intro q k hk
  rw [active_iff_of_keeps hfree] at hk
  exact (hp.subscriptions u).not_active hn (by rw [hnode]; exact Option.some_ne_none _) q k hk

/-! ## Adding and removing -/

/-- A table without the entry of one subscription. -/
theorem moves_erase {s u : Ref} {x : MbsSession} {id : String}
    (hx : w.sessionStore s = some x) (hid : ∀ q, (id, q) ∈ x.active → q = u) :
    Moves u w (w.setSession s
      { x with activeSubscriptions := x.activeSubscriptions.map fun t => t.erase id }) := by
  have htable : MbsSession.active
      { x with activeSubscriptions := x.activeSubscriptions.map fun t => t.erase id } =
      Table.erase x.active id := by
    cases h : x.activeSubscriptions <;> simp [MbsSession.active, h, Table.erase]
  refine ⟨fun _ _ => rfl, ?_, ?_⟩
  · intro r k q hq
    by_cases hr : r = s
    · subst hr
      simp only [Active, World.setSession, Store.set_self, Option.some.injEq, exists_eq_left', hx,
        htable, Table.mem_erase, and_iff_left_iff_imp]
      rintro hk rfl
      exact hq (hid q hk)
    · simp only [Active, World.setSession, Store.set_of_ne _ _ _ hr]
  · intro hkeys r y hy
    by_cases hr : r = s
    · subst hr
      simp only [World.setSession, Store.set_self, Option.some.injEq] at hy
      subst hy
      rw [htable]
      exact Table.keys_nodup_erase (hkeys r x hx)
    · simp only [World.setSession, Store.set_of_ne _ _ _ hr] at hy
      exact hkeys r y hy

/-- An unlinked subscription with an id is the entry of its session under this id. -/
theorem Placed.entry {u s : Ref} {n : StatusSubscription} {x : MbsSession} {id : String}
    (h : Placed w) (hn : w.subscriptionStore u = some n) (hnode : n.node = none)
    (hid : n.id = some id) (hs : n.session = some s) (hx : w.sessionStore s = some x) :
    (id, u) ∈ x.active ∧ ∀ q, (id, q) ∈ x.active → q = u := by
  have hentry : (id, u) ∈ x.active := by
    rcases (h.subscriptions u).unlinked n hn hnode with ⟨-, hnone⟩ | ⟨r, k, hr, hk⟩
    · rw [hid] at hnone
      cases hnone
    · rw [hs, Option.some.injEq] at hr
      subst hr
      obtain ⟨m, hm, -, hkey, -⟩ := (h.subscriptions u).active s k hk
      rw [hn, Option.some.injEq] at hm
      rw [← hm, hid, Option.some.injEq] at hkey
      obtain ⟨y, hy, hmem⟩ := hk
      rw [hx, Option.some.injEq] at hy
      rw [hkey, hy]
      exact hmem
  exact ⟨hentry, fun q hq => Table.eq_of_mem_of_mem (h.keys s x hx) hq hentry⟩

/-- Without its entry the subscription is active nowhere. -/
theorem not_active_erase {u s : Ref} {n : StatusSubscription} {x : MbsSession} {id : String}
    (h : Placed w) (hn : w.subscriptionStore u = some n) (hid : n.id = some id)
    (hs : n.session = some s) (hx : w.sessionStore s = some x) (r : Ref) (k : String) :
    ¬Active (w.setSession s
      { x with activeSubscriptions := x.activeSubscriptions.map fun t => t.erase id }) r k u := by
  rintro ⟨y, hy, hk⟩
  have hsame : Active w r k u → r = s ∧ k = id := by
    intro hactive
    obtain ⟨m, hm, hr, hkey, -⟩ := (h.subscriptions u).active r k hactive
    rw [hn, Option.some.injEq] at hm
    rw [← hm, hs, Option.some.injEq] at hr
    rw [← hm, hid, Option.some.injEq] at hkey
    exact ⟨hr.symm, hkey.symm⟩
  by_cases hr : r = s
  · subst hr
    simp only [World.setSession, Store.set_self, Option.some.injEq] at hy
    subst hy
    cases htable : x.activeSubscriptions with
    | none => simp [MbsSession.active, htable] at hk
    | some table =>
        simp only [MbsSession.active, htable, Option.map_some, Option.getD_some,
          Table.mem_erase] at hk
        exact hk.2 (hsame ⟨x, hx, by simp [MbsSession.active, htable, hk.1]⟩).2
  · simp only [World.setSession, Store.set_of_ne _ _ _ hr] at hy
    exact hr (hsame ⟨y, hy, hk⟩).1

/-- An unlinked subscription that forgets its id leaves the table it is in. -/
theorem moves_forgetId {u : Ref} {n : StatusSubscription} (hp : Placed w)
    (hn : w.subscriptionStore u = some n) (hnode : n.node = none)
    (h : forgetId w u = .ok v) :
    Moves u w v ∧ (∀ s k, ¬Active v s k u) ∧
      v.subscriptionStore u = some { n with id := none } := by
  obtain ⟨m, hm, hcase⟩ := forgetId_eq_ok h
  rw [hn, Option.some.injEq] at hm
  subst hm
  rcases hcase with ⟨hid, rfl⟩ | ⟨id, s, x, table, t, hid, hs, hx, htable, hsend, rfl⟩
  · refine ⟨Moves.of_sessions (Keeps.refl _) rfl, ?_, ?_⟩
    · intro s k hk
      obtain ⟨m, hm, -, hkey, -⟩ := (hp.subscriptions u).active s k hk
      rw [hn, Option.some.injEq] at hm
      rw [← hm, hid] at hkey
      cases hkey
    · rw [hn, ← hid]
  · have herase : some (table.erase id) = x.activeSubscriptions.map fun t => t.erase id := by
      rw [htable, Option.map_some]
    rw [herase] at hsend
    have heffect := sendEffect_sendDelete hsend
    have hsent : Keeps MbsSession.active (w.setSession s
        { x with activeSubscriptions := x.activeSubscriptions.map fun t => t.erase id })
        (t.modifySubscription u fun n => { n with id := none }) := Keeps.of_eq heffect.sessionStore
    refine ⟨?_, ?_, ?_⟩
    · have hmoves := moves_erase hx (hp.entry hn hnode hid hs hx).2
      exact (hmoves.trans (Moves.of_sessions (Keeps.of_eq heffect.sessionStore)
        heffect.subscriptionStore)).trans Moves.of_modifySubscription
    · intro r k hk
      rw [active_iff_of_keeps hsent] at hk
      exact not_active_erase hp hn hid hs hx r k hk
    · have hu : t.subscriptionStore u = some n := by
        rw [heffect.subscriptionStore]
        exact hn
      simp [hu]

theorem placed_mbsSessionAddSubscription {s u : Ref} (hp : Placed w)
    (h : mbsSessionAddSubscription w s u = .ok w') : Placed w' := by
  obtain ⟨x, n, hx, hn, ⟨-, rfl⟩ | ⟨-, v, v', hv, hv', rfl⟩⟩ := mbsSessionAddSubscription_eq_ok h
  · exact hp
  · have htable : Keeps MbsSession.active w
        (w.setSession s { x with activeSubscriptions := some x.active }) :=
      Keeps.setSession hx rfl
    have hstart := hp.of_stores htable rfl
    -- The list takes only an unlinked node, and forgetting the id does not touch the node.
    have hnode : n.node = none := by
      obtain ⟨-, m, -, hm, hunlinked, -⟩ := ogsListAdd_eq_ok hv'
      obtain ⟨m', hm', -, hsame⟩ := (sameLinks_forgetId hv).back hm
      rw [show m' = n from Option.some.inj (hm'.symm.trans hn)] at hsame
      rw [← hsame]
      exact hunlinked
    obtain ⟨hmoves, hinactive, hu⟩ := moves_forgetId hstart hn hnode hv
    have hadd := keeps_active_ogsListAdd hv'
    have hfinal : Keeps MbsSession.active v ((v'.modifySubscription u
        fun n => { n with session := some s, changed := true }).say (.attached u s)) := hadd
    have hmoved : Moves u w ((v'.modifySubscription u
        fun n => { n with session := some s, changed := true }).say (.attached u s)) :=
      ((((Moves.of_sessions htable rfl).trans hmoves).trans (moves_ogsListAdd hv')).trans
        Moves.of_modifySubscription).trans (Moves.of_sessions (Keeps.refl _) rfl)
    refine hp.of_moves hmoved (placedAt_of_linked (l := ⟨s, .newSubscriptions⟩)
      (n := { n with id := none, node := some ⟨s, .newSubscriptions⟩, session := some s,
                     changed := true }) ?_ rfl ?_ ?_)
    · obtain ⟨-, -, -, -, -, rfl⟩ := ogsListAdd_eq_ok hv'
      simp [hu]
    · simp
    · intro r k hk
      rw [active_iff_of_keeps hfinal] at hk
      exact hinactive r k hk

theorem placed_mbsSessionRemoveSubscription {s u : Ref} (hl : Linked w) (hp : Placed w)
    (h : mbsSessionRemoveSubscription w s u = .ok w') : Placed w' := by
  obtain ⟨x, n, hx, hn, ⟨-, rfl⟩ | ⟨-, hs, hcase⟩⟩ := mbsSessionRemoveSubscription_eq_ok h
  · exact hp
  · rcases hcase with ⟨id, v, hid, hv, rfl⟩ | ⟨-, -, v, hv, rfl⟩ | ⟨-, -, rfl⟩
    · have hnode : n.node = none := by
        obtain ⟨-, m, -, hm, hunlinked, -⟩ := ogsListAdd_eq_ok hv
        rw [show n = m from Option.some.inj (hn.symm.trans hm)]
        exact hunlinked
      have hmoves := moves_erase hx (hp.entry hn hnode hid hs hx).2
      have hadd := keeps_active_ogsListAdd hv
      have hfinal : Keeps MbsSession.active _
          (v.modifySubscription u fun n => { n with changed := true }) := hadd
      refine hp.of_moves ((hmoves.trans (moves_ogsListAdd hv)).trans
        Moves.of_modifySubscription) (placedAt_of_linked (l := ⟨s, .deletedSubscriptions⟩)
        (n := { n with node := some ⟨s, .deletedSubscriptions⟩, changed := true }) ?_ rfl ?_ ?_)
      · obtain ⟨-, -, -, -, -, rfl⟩ := ogsListAdd_eq_ok hv
        simp [hn]
      · simp [hid]
      · intro r k hk
        rw [active_iff_of_keeps hfinal] at hk
        exact not_active_erase hp hn hid hs hx r k hk
    · exact placed_removed hl hp hv
    · exact hp

/-! ## Pushing -/

theorem placed_sendEffect {A : Observation → Prop} (h : Placed w) (he : SendEffect A w w') :
    Placed w' :=
  h.of_stores (Keeps.of_eq he.sessionStore) he.subscriptionStore

theorem placed_clearChanged {u : Ref} (h : Placed w) :
    Placed (w.modifySubscription u fun n => { n with changed := false }) := by
  refine h.of_still (Keeps.refl w) ?_
  intro q
  by_cases hq : q = u
  · subst hq
    cases hn : w.subscriptionStore q <;> simp [hn, place]
  · simp [Store.modify_of_ne _ _ _ hq]

theorem placed_updateNewSubscription {u : Ref} (h : Placed w)
    (hu : updateNewSubscription w u = .ok w') : Placed w' := by
  obtain ⟨n, v, -, hv, rfl⟩ := updateNewSubscription_eq_ok hu
  apply placed_clearChanged
  split at hv
  · exact placed_sendEffect h (sendEffect_sendCreate hv)
  · rw [Except.ok.injEq] at hv
    exact hv ▸ h

theorem placed_updateStatusSubscription {u : Ref} (h : Placed w)
    (hu : updateStatusSubscription w u = .ok w') : Placed w' := by
  obtain ⟨n, -, ⟨-, rfl⟩ | ⟨-, v, hv, rfl⟩⟩ := updateStatusSubscription_eq_ok hu
  · exact h
  · exact placed_clearChanged (placed_sendEffect h (sendEffect_sendUpdate hv))

theorem placed_removePendingSubscription {s u : Ref} (hl : Linked w) (h : Placed w)
    (hu : removePendingSubscription s w u = .ok w') : Placed w' := by
  obtain ⟨v, v', hv, hv', rfl⟩ := removePendingSubscription_eq_ok hu
  have hsend := sendEffect_sendDelete hv
  exact placed_removed (linked_sendEffect hl hsend) (placed_sendEffect h hsend) hv'

theorem placed_mbsSessionPushChanges {s : Ref} (hl : Linked w) (h : Placed w)
    (hp : mbsSessionPushChanges w s = .ok w') : Placed w' := by
  refine (mbsSessionPushChanges_induction (fun v => Linked v ∧ Placed v) ?_ ?_ ?_ ?_ ⟨hl, h⟩ hp).2
  · intro v v' hsend hv
    exact ⟨hv.1.of_sameLinks (.of_keeps (hsend.keeps.comp pendingLists) hsend.subscriptionStore),
      hv.2.of_stores (hsend.keeps.comp MbsSession.active) hsend.subscriptionStore⟩
  · intro u x v v' _ _ hv hu
    exact ⟨linked_updateNewSubscription hv.1 hu, placed_updateNewSubscription hv.2 hu⟩
  · intro u x v v' _ _ hv hu
    exact ⟨linked_updateStatusSubscription hv.1 hu, placed_updateStatusSubscription hv.2 hu⟩
  · intro u v v' hv hu
    exact ⟨linked_removePendingSubscription hv.1 hu, placed_removePendingSubscription hv.1 hv.2 hu⟩

/-! ## Answers -/

theorem placed_leavingEffect {s : Ref} (hl : Linked w) (hp : Placed w)
    (he : LeavingEffect s w w') : Placed w' := by
  obtain ⟨x, hx, hempty, hstore⟩ := he.record
  have hactive : ∀ r k q, Active w' r k q ↔ Active w r k q := by
    intro r k q
    simp only [Active, he.sessionStore, Store.free_apply]
    by_cases hr : r = s
    · subst hr
      simp [hx, hempty]
    · simp [hr]
  refine ⟨?_, ?_⟩
  · intro u
    by_cases hu : u ∈ x.newSubscriptions ∨ u ∈ x.deletedSubscriptions
    · refine placedAt_of_free (by rw [hstore u, if_pos hu]) ?_
      intro r k hk
      rw [hactive] at hk
      obtain ⟨n, hn, -, -, hnode⟩ := (hp.subscriptions u).active r k hk
      have hunlinked : ∀ m, w.subscriptionStore u = some m → m.node = none := by
        intro m hm
        rw [Option.some.inj (hm.symm.trans hn)]
        exact hnode
      have hout : ∀ name, u ∉ listOf x name := fun _ => hl.not_mem hunlinked hx
      rcases hu with hu | hu
      · exact hout .newSubscriptions hu
      · exact hout .deletedSubscriptions hu
    · exact (hp.subscriptions u).congr (by rw [hstore u, if_neg hu]) fun r k => hactive r k u
  · intro r y hy
    rw [he.sessionStore, Store.free_apply] at hy
    split at hy
    · cases hy
    · exact hp.keys r y hy

/-! ## Every part of a step -/

theorem place_mbsStatusSubscriptionSet (setting : SubscriptionSetting) (n : StatusSubscription) :
    place (mbsStatusSubscriptionSet setting n) = place n := by
  unfold mbsStatusSubscriptionSet
  split
  · rfl
  · cases setting <;> rfl

theorem placed_newSubscription {n : StatusSubscription} (hp : Placed w)
    (hfresh : w.subscriptionStore w.next = none)
    (hunused : n.id = none ∧ n.session = none ∧ n.node = none) :
    Placed { w with
      subscriptionStore := w.subscriptionStore.set w.next n, next := w.next + 1 } := by
  refine hp.of_moves (u := w.next) (Moves.of_keeps (Keeps.refl w) ?_) ⟨?_, ?_, ?_⟩
  · exact fun q hq => Store.set_of_ne _ _ _ hq
  · rintro s k ⟨x, hx, hk⟩
    obtain ⟨m, hm, -⟩ := (hp.subscriptions w.next).active s k ⟨x, hx, hk⟩
    rw [hfresh] at hm
    cases hm
  · intro m l hm hlink
    simp only [Store.set_self, Option.some.injEq] at hm
    rw [← hm, hunused.2.2] at hlink
    cases hlink
  · intro m hm _
    simp only [Store.set_self, Option.some.injEq] at hm
    rw [← hm]
    exact .inl ⟨hunused.2.1, hunused.1⟩

theorem placed_mbsSessionNew {ssm : Option SsmAddr} (hp : Placed w)
    (hfresh : w.sessionStore w.next = none) : Placed (mbsSessionNew w ssm) := by
  have hsession : ∀ r y, (mbsSessionNew w ssm).sessionStore r = some y →
      y.active = [] ∨ w.sessionStore r = some y := by
    intro r y hy
    by_cases hr : r = w.next
    · subst hr
      simp only [mbsSessionNew, Store.set_self, Option.some.injEq] at hy
      exact .inl (hy ▸ rfl)
    · simp only [mbsSessionNew, Store.set_of_ne _ _ _ hr] at hy
      exact .inr hy
  have hactive : ∀ r k q, Active (mbsSessionNew w ssm) r k q ↔ Active w r k q := by
    intro r k q
    constructor
    · rintro ⟨y, hy, hk⟩
      rcases hsession r y hy with hempty | hy
      · rw [hempty] at hk
        cases hk
      · exact ⟨y, hy, hk⟩
    · rintro ⟨y, hy, hk⟩
      have hr : r ≠ w.next := by
        rintro rfl
        rw [hfresh] at hy
        cases hy
      exact ⟨y, (Store.set_of_ne _ _ _ hr).trans hy, hk⟩
  refine ⟨fun u => (hp.subscriptions u).congr rfl fun r k => hactive r k u, ?_⟩
  intro r y hy
  rcases hsession r y hy with hempty | hy
  · rw [hempty]
    exact List.nodup_nil
  · exact hp.keys r y hy

theorem placed_initial : Placed World.initial := by
  refine ⟨fun u => ⟨?_, ?_, ?_⟩, ?_⟩
  · rintro s k ⟨x, hx, -⟩
    cases hx
  · intro n l hn
    cases hn
  · intro n hn
    cases hn
  · intro s x hx
    cases hx

/-! ## One container for every subscription -/

theorem Placed.nodup_active {s : Ref} {x : MbsSession} (h : Placed w)
    (hx : w.sessionStore s = some x) : (x.active.map Prod.snd).Nodup := by
  have hkeys := h.keys s x hx
  refine (List.Nodup.of_map Prod.fst hkeys).map_on ?_
  rintro ⟨k, u⟩ hk ⟨k', u'⟩ hk' rfl
  obtain ⟨n, hn, -, hid, -⟩ := (h.subscriptions u).active s k ⟨x, hx, hk⟩
  obtain ⟨m, hm, -, hid', -⟩ := (h.subscriptions u).active s k' ⟨x, hx, hk'⟩
  obtain rfl := Option.some.inj (hn.symm.trans hm)
  obtain rfl := Option.some.inj (hid.symm.trans hid')
  rfl

theorem mem_active_map {x : MbsSession} {u : Ref} :
    u ∈ x.active.map Prod.snd ↔ ∃ k, (k, u) ∈ x.active := by
  simp

/-- The containers that an attached subscription is in, by its node. -/
theorem mem_containers {u s : Ref} {n : StatusSubscription} {x : MbsSession} (hl : Linked w)
    (hp : Placed w) (hn : w.subscriptionStore u = some n) (hs : n.session = some s)
    (hx : w.sessionStore s = some x) :
    (u ∈ x.newSubscriptions ↔ n.node = some ⟨s, .newSubscriptions⟩) ∧
    (u ∈ x.active.map Prod.snd ↔ n.node = none) ∧
    (u ∈ x.deletedSubscriptions ↔ n.node = some ⟨s, .deletedSubscriptions⟩) := by
  have hlist : ∀ name, u ∈ listOf x name ↔ n.node = some ⟨s, name⟩ := by
    intro name
    constructor
    · exact fun hu => hl.node_of_mem hx hu hn
    · intro hnode
      obtain ⟨-, y, hy, hu⟩ := hl.node u n _ hn hnode
      rw [hx, Option.some.injEq] at hy
      exact hy ▸ hu
  refine ⟨hlist .newSubscriptions, ?_, hlist .deletedSubscriptions⟩
  rw [mem_active_map]
  constructor
  · rintro ⟨k, hk⟩
    obtain ⟨m, hm, -, -, hnode⟩ := (hp.subscriptions u).active s k ⟨x, hx, hk⟩
    rw [Option.some.inj (hn.symm.trans hm)]
    exact hnode
  · intro hnode
    rcases (hp.subscriptions u).unlinked n hn hnode with ⟨hnone, -⟩ | ⟨q, k, hq, y, hy, hk⟩
    · rw [hs] at hnone
      cases hnone
    · obtain rfl := Option.some.inj (hs.symm.trans hq)
      obtain rfl := Option.some.inj (hx.symm.trans hy)
      exact ⟨k, hk⟩

theorem live_of_attached {u s : Ref} {n : StatusSubscription} (hl : Linked w) (hp : Placed w)
    (hn : w.subscriptionStore u = some n) (hs : n.session = some s) :
    ∃ x, w.sessionStore s = some x := by
  cases hnode : n.node with
  | some l =>
      obtain ⟨hsession, x, hx, -⟩ := hl.node u n l hn hnode
      obtain rfl := Option.some.inj (hs.symm.trans hsession)
      exact ⟨x, hx⟩
  | none =>
      rcases (hp.subscriptions u).unlinked n hn hnode with ⟨hnone, -⟩ | ⟨q, k, hq, y, hy, -⟩
      · rw [hs] at hnone
        cases hnone
      · obtain rfl := Option.some.inj (hs.symm.trans hq)
        exact ⟨y, hy⟩

theorem count_members {u s : Ref} {n : StatusSubscription} {x : MbsSession} (hl : Linked w)
    (hp : Placed w) (hn : w.subscriptionStore u = some n) (hs : n.session = some s)
    (hx : w.sessionStore s = some x) : (members x).count u = 1 := by
  obtain ⟨hnew, hactive, hdeleted⟩ := mem_containers hl hp hn hs hx
  have hcount₁ := (hl.nodup s x .newSubscriptions hx).count (a := u)
  have hcount₂ := (hp.nodup_active hx).count (a := u)
  have hcount₃ := (hl.nodup s x .deletedSubscriptions hx).count (a := u)
  simp only [listOf] at hcount₁ hcount₃
  rw [members, List.count_append, List.count_append, hcount₁, hcount₂, hcount₃]
  simp only [hnew, hactive, hdeleted]
  cases hnode : n.node with
  | none => simp
  | some l =>
      obtain ⟨hsession, -⟩ := hl.node u n l hn hnode
      obtain ⟨q, name⟩ := l
      obtain rfl := Option.some.inj (hs.symm.trans hsession)
      cases name <;> simp

end ServiceConsumers.SubscriptionPlacement
