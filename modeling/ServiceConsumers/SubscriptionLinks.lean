import ServiceConsumers.EventEffects

set_option autoImplicit false

/-!
# The links of subscriptions

The lists of new and of pending subscriptions hold exactly the subscriptions whose list node
says so. This needs no condition on a run, since a node is never linked twice.
-/

namespace ServiceConsumers.SubscriptionLinks

open ObjectStore KeyedTable PublicSessions ConsumerState TmgiOperations SubscriptionOperations
  SessionOperations ResponseHandlers ProcessEvent TransitionRuns TransactionLog TmgiEffects
  SessionEffects PushEffects AnswerEffects EventEffects

structure Linked (w : World) : Prop where
  member : ∀ s x name u, w.sessionStore s = some x → u ∈ listOf x name →
    ∃ n, w.subscriptionStore u = some n ∧ n.node = some ⟨s, name⟩
  nodup : ∀ s x name, w.sessionStore s = some x → (listOf x name).Nodup
  node : ∀ u n l, w.subscriptionStore u = some n → n.node = some l →
    n.session = some l.session ∧ ∃ x, w.sessionStore l.session = some x ∧ u ∈ listOf x l.list

/-! ## Operations that move no subscription -/

def pendingLists (x : MbsSession) : List Ref × List Ref :=
  (x.newSubscriptions, x.deletedSubscriptions)

def attachment (n : StatusSubscription) : Option Ref × Option ListLink := (n.session, n.node)

/-- The lists are as they were, and so is every live subscription as far as they go. -/
structure SameLinks (w w' : World) : Prop where
  sessions : Keeps pendingLists w w'
  subscriptions : ∀ u, (w'.subscriptionStore u).map attachment =
    (w.subscriptionStore u).map attachment

variable {w w' w'' : World}

theorem listOf_eq_of_pendingLists {x x' : MbsSession} (h : pendingLists x' = pendingLists x)
    (name : ListName) : listOf x' name = listOf x name := by
  rw [pendingLists, pendingLists, Prod.mk.injEq] at h
  cases name with
  | newSubscriptions => exact h.1
  | deletedSubscriptions => exact h.2

namespace SameLinks

theorem refl (w : World) : SameLinks w w := ⟨Keeps.refl w, fun _ => rfl⟩

theorem trans (h₁ : SameLinks w w') (h₂ : SameLinks w' w'') : SameLinks w w'' :=
  ⟨h₁.sessions.trans h₂.sessions, fun u => (h₂.subscriptions u).trans (h₁.subscriptions u)⟩

theorem of_keeps (h : Keeps pendingLists w w')
    (hu : w'.subscriptionStore = w.subscriptionStore) : SameLinks w w' :=
  ⟨h, fun u => by rw [hu]⟩

theorem of_stores (hs : w'.sessionStore = w.sessionStore)
    (hu : w'.subscriptionStore = w.subscriptionStore) : SameLinks w w' :=
  of_keeps (Keeps.of_eq hs) hu

theorem back (h : SameLinks w w') {u : Ref} {n' : StatusSubscription}
    (hn' : w'.subscriptionStore u = some n') :
    ∃ n, w.subscriptionStore u = some n ∧ n'.session = n.session ∧ n'.node = n.node := by
  have hu := h.subscriptions u
  rw [hn', Option.map_some] at hu
  cases hn : w.subscriptionStore u with
  | none =>
      rw [hn] at hu
      cases hu
  | some n =>
      rw [hn, Option.map_some, Option.some.injEq, attachment, attachment, Prod.mk.injEq] at hu
      exact ⟨n, rfl, hu.1, hu.2⟩

theorem forth (h : SameLinks w w') {u : Ref} {n : StatusSubscription}
    (hn : w.subscriptionStore u = some n) :
    ∃ n', w'.subscriptionStore u = some n' ∧ n'.session = n.session ∧ n'.node = n.node := by
  have hu := h.subscriptions u
  rw [hn, Option.map_some] at hu
  cases hn' : w'.subscriptionStore u with
  | none =>
      rw [hn'] at hu
      cases hu
  | some n' =>
      rw [hn', Option.map_some, Option.some.injEq, attachment, attachment, Prod.mk.injEq] at hu
      exact ⟨n', rfl, hu.1, hu.2⟩

theorem of_modifySubscription {u : Ref} {f : StatusSubscription → StatusSubscription}
    (hf : ∀ n, attachment (f n) = attachment n) : SameLinks w (w.modifySubscription u f) := by
  refine ⟨Keeps.refl w, ?_⟩
  intro q
  by_cases hq : q = u
  · subst hq
    cases hn : w.subscriptionStore q <;> simp [hn, hf]
  · simp [Store.modify_of_ne _ _ _ hq]

end SameLinks

theorem Linked.of_sameLinks (h : Linked w) (hs : SameLinks w w') : Linked w' := by
  refine ⟨?_, ?_, ?_⟩
  · intro s x' name u hx' hu
    obtain ⟨x, hx, hlists⟩ := hs.sessions.back hx'
    rw [listOf_eq_of_pendingLists hlists] at hu
    obtain ⟨n, hn, hnode⟩ := h.member s x name u hx hu
    obtain ⟨n', hn', -, hnode'⟩ := hs.forth hn
    exact ⟨n', hn', hnode'.trans hnode⟩
  · intro s x' name hx'
    obtain ⟨x, hx, hlists⟩ := hs.sessions.back hx'
    rw [listOf_eq_of_pendingLists hlists]
    exact h.nodup s x name hx
  · intro u n' l hn' hl
    obtain ⟨n, hn, hsession, hnode⟩ := hs.back hn'
    obtain ⟨hattached, x, hx, hu⟩ := h.node u n l hn (hnode.symm.trans hl)
    obtain ⟨x', hx', hlists⟩ := hs.sessions.forth hx
    rw [← listOf_eq_of_pendingLists hlists] at hu
    exact ⟨hsession.trans hattached, x', hx', hu⟩

/-! ## Other subscriptions -/

section Others

variable {s u q : Ref}

theorem others_ogsListAdd {name : ListName} (h : ogsListAdd w s name u = .ok w') (hq : q ≠ u) :
    w'.subscriptionStore q = w.subscriptionStore q := by
  obtain ⟨x, n, -, -, -, rfl⟩ := ogsListAdd_eq_ok h
  exact Store.modify_of_ne _ _ _ hq

theorem others_ogsListRemove {name : ListName} (h : ogsListRemove w s name u = .ok w')
    (hq : q ≠ u) : w'.subscriptionStore q = w.subscriptionStore q := by
  obtain ⟨x, -, -, rfl⟩ := ogsListRemove_eq_ok h
  exact Store.modify_of_ne _ _ _ hq

end Others

/-! ## Moving a subscription -/

@[simp] theorem listOf_setList_self (x : MbsSession) (name : ListName) (us : List Ref) :
    listOf (setList x name us) name = us := by
  cases name <;> rfl

theorem listOf_setList_of_ne {x : MbsSession} {name name' : ListName} {us : List Ref}
    (h : name' ≠ name) : listOf (setList x name us) name' = listOf x name' := by
  cases name <;> cases name' <;> first | rfl | exact absurd rfl h

/-- A subscription is in the list its node names and in no other. -/
theorem Linked.node_of_mem (h : Linked w) {s : Ref} {x : MbsSession} {name : ListName} {u : Ref}
    {n : StatusSubscription} (hx : w.sessionStore s = some x) (hu : u ∈ listOf x name)
    (hn : w.subscriptionStore u = some n) : n.node = some ⟨s, name⟩ := by
  obtain ⟨m, hm, hnode⟩ := h.member s x name u hx hu
  rw [hn, Option.some.injEq] at hm
  rw [hm]
  exact hnode

/-- When one list of a session is replaced, no list has a subscription twice. -/
theorem Linked.nodup_setList (h : Linked w) {s : Ref} {x : MbsSession} {name : ListName}
    {us : List Ref} (hx : w.sessionStore s = some x) (hus : us.Nodup) {q : Ref} {y : MbsSession}
    {name' : ListName} (hy : (w.sessionStore.set s (setList x name us)) q = some y) :
    (listOf y name').Nodup := by
  by_cases hq : q = s
  · subst hq
    rw [Store.set_self, Option.some.injEq] at hy
    subst hy
    by_cases hname : name' = name
    · subst hname
      rw [listOf_setList_self]
      exact hus
    · rw [listOf_setList_of_ne hname]
      exact h.nodup q x name' hx
  · rw [Store.set_of_ne _ _ _ hq] at hy
    exact h.nodup q y name' hy

/-- When one list of a session is replaced, a subscription that stays in it is where its node says. -/
theorem Linked.node_setList (h : Linked w) {s v : Ref} {x : MbsSession} {name : ListName}
    {us : List Ref} {n : StatusSubscription} {l : ListLink} (hx : w.sessionStore s = some x)
    (hn : w.subscriptionStore v = some n) (hl : n.node = some l)
    (hstays : v ∈ listOf x name → v ∈ us) :
    n.session = some l.session ∧
      ∃ y, (w.sessionStore.set s (setList x name us)) l.session = some y ∧ v ∈ listOf y l.list := by
  obtain ⟨hattached, z, hz, hvz⟩ := h.node v n l hn hl
  refine ⟨hattached, ?_⟩
  by_cases hq : l.session = s
  · rw [hq] at hz ⊢
    rw [hx, Option.some.injEq] at hz
    subst hz
    refine ⟨_, Store.set_self _ _ _, ?_⟩
    by_cases hname : l.list = name
    · rw [hname] at hvz ⊢
      rw [listOf_setList_self]
      exact hstays hvz
    · rw [listOf_setList_of_ne hname]
      exact hvz
  · rw [Store.set_of_ne _ _ _ hq]
    exact ⟨z, hz, hvz⟩

theorem linked_ogsListRemove {s u : Ref} {name : ListName} (h : Linked w)
    (hr : ogsListRemove w s name u = .ok w') :
    Linked w' ∧ ∀ n, w'.subscriptionStore u = some n → n.node = none := by
  obtain ⟨x, hx, hu, rfl⟩ := ogsListRemove_eq_ok hr
  have hnodup := h.nodup s x name hx
  have hsub : ∀ q, q ≠ u → ((w.setSession s (setList x name ((listOf x name).erase u))
      ).modifySubscription u fun n => { n with node := none }).subscriptionStore q =
      w.subscriptionStore q := fun q hq => Store.modify_of_ne _ _ _ hq
  -- The node of `u` is cleared, so `u` may be in none of the remaining lists.
  have hlist : ∀ q y name' v, (w.sessionStore.set s
      (setList x name ((listOf x name).erase u))) q = some y → v ∈ listOf y name' →
      v ≠ u ∧ ∃ z, w.sessionStore q = some z ∧ v ∈ listOf z name' := by
    intro q y name' v hy hv
    by_cases hq : q = s
    · subst hq
      rw [Store.set_self, Option.some.injEq] at hy
      subst hy
      by_cases hname : name' = name
      · subst hname
        rw [listOf_setList_self] at hv
        exact ⟨(hnodup.mem_erase_iff.1 hv).1, x, hx, List.mem_of_mem_erase hv⟩
      · rw [listOf_setList_of_ne hname] at hv
        refine ⟨?_, x, hx, hv⟩
        rintro rfl
        obtain ⟨n, hn, hnode⟩ := h.member q x name v hx hu
        have hother := h.node_of_mem hx hv hn
        rw [hnode, Option.some.injEq, ListLink.mk.injEq] at hother
        exact hname hother.2.symm
    · rw [Store.set_of_ne _ _ _ hq] at hy
      refine ⟨?_, y, hy, hv⟩
      rintro rfl
      obtain ⟨n, hn, hnode⟩ := h.member s x name v hx hu
      have hother := h.node_of_mem hy hv hn
      rw [hnode, Option.some.injEq, ListLink.mk.injEq] at hother
      exact hq hother.1.symm
  refine ⟨⟨?_, ?_, ?_⟩, ?_⟩
  · intro q y name' v hy hv
    obtain ⟨hne, z, hz, hvz⟩ := hlist q y name' v hy hv
    obtain ⟨n, hn, hnode⟩ := h.member q z name' v hz hvz
    exact ⟨n, (hsub v hne).trans hn, hnode⟩
  · intro q y name' hy
    exact h.nodup_setList hx (hnodup.erase u) hy
  · intro v n l hn hl
    by_cases hv : v = u
    · subst hv
      simp only [World.modifySubscription, World.setSession, Store.modify_self,
        Option.map_eq_some_iff] at hn
      obtain ⟨m, -, rfl⟩ := hn
      cases hl
    · rw [hsub v hv] at hn
      exact h.node_setList hx hn hl (List.mem_erase_of_ne hv).2
  · intro n hn
    simp only [World.modifySubscription, World.setSession, Store.modify_self,
      Option.map_eq_some_iff] at hn
    obtain ⟨m, -, rfl⟩ := hn
    rfl

/-- An unlinked subscription is in no list. -/
theorem Linked.not_mem (h : Linked w) {u : Ref}
    (hu : ∀ n, w.subscriptionStore u = some n → n.node = none) {s : Ref} {x : MbsSession}
    {name : ListName} (hx : w.sessionStore s = some x) : u ∉ listOf x name := by
  intro hmem
  obtain ⟨n, hn, hnode⟩ := h.member s x name u hx hmem
  rw [hu n hn] at hnode
  cases hnode

theorem linked_free {u : Ref} (h : Linked w)
    (hu : ∀ n, w.subscriptionStore u = some n → n.node = none) :
    Linked (mbsStatusSubscriptionFree w u) := by
  refine ⟨?_, h.nodup, ?_⟩
  · intro s x name v hx hv
    have hne : v ≠ u := by
      rintro rfl
      exact h.not_mem hu hx hv
    obtain ⟨n, hn, hnode⟩ := h.member s x name v hx hv
    exact ⟨n, (Store.free_of_ne _ _ _ hne).trans hn, hnode⟩
  · intro v n l hn hl
    by_cases hv : v = u
    · subst hv
      simp [mbsStatusSubscriptionFree] at hn
    · simp only [mbsStatusSubscriptionFree, Store.free_of_ne _ _ _ hv] at hn
      exact h.node v n l hn hl

/-- Linking a subscription, which is attached to the session at the same time. -/
theorem linked_ogsListAdd {s u : Ref} {name : ListName}
    {f : StatusSubscription → StatusSubscription} (h : Linked w)
    (ha : ogsListAdd w s name u = .ok w') (hf : ∀ n, (f n).node = n.node)
    (hs : ∀ n, w.subscriptionStore u = some n →
      (f { n with node := some ⟨s, name⟩ }).session = some s) :
    Linked (w'.modifySubscription u f) := by
  obtain ⟨x, m, hx, hm, hnode, rfl⟩ := ogsListAdd_eq_ok ha
  have hunlinked : ∀ n, w.subscriptionStore u = some n → n.node = none := by
    intro n hn
    rw [hm, Option.some.injEq] at hn
    rw [← hn]
    exact hnode
  have hout : ∀ q y name', w.sessionStore q = some y → u ∉ listOf y name' :=
    fun q y name' hy => h.not_mem hunlinked hy
  have hself : (((w.setSession s (setList x name (listOf x name ++ [u]))).modifySubscription u
      fun n => { n with node := some ⟨s, name⟩ }).modifySubscription u f).subscriptionStore u =
      some (f { m with node := some ⟨s, name⟩ }) := by
    simp [hm]
  have hother : ∀ q, q ≠ u → (((w.setSession s (setList x name (listOf x name ++ [u]))
      ).modifySubscription u fun n => { n with node := some ⟨s, name⟩ }).modifySubscription u
      f).subscriptionStore q = w.subscriptionStore q := by
    intro q hq
    simp [Store.modify_of_ne _ _ _ hq]
  refine ⟨?_, ?_, ?_⟩
  · intro q y name' v hy hv
    change (w.sessionStore.set s _) q = some y at hy
    have old : v ≠ u → (∃ z, w.sessionStore q = some z ∧ v ∈ listOf z name') →
        ∃ n, (((w.setSession s (setList x name (listOf x name ++ [u]))).modifySubscription u
          fun n => { n with node := some ⟨s, name⟩ }).modifySubscription u f).subscriptionStore v =
          some n ∧ n.node = some ⟨q, name'⟩ := by
      rintro hne ⟨z, hz, hvz⟩
      obtain ⟨n, hn, hnode'⟩ := h.member q z name' v hz hvz
      exact ⟨n, (hother v hne).trans hn, hnode'⟩
    by_cases hq : q = s
    · subst hq
      rw [Store.set_self, Option.some.injEq] at hy
      subst hy
      by_cases hname : name' = name
      · subst hname
        rw [listOf_setList_self, List.mem_append, List.mem_singleton] at hv
        rcases hv with hv | rfl
        · exact old (fun hvu => hout q x name' hx (hvu ▸ hv)) ⟨x, hx, hv⟩
        · exact ⟨_, hself, hf _⟩
      · rw [listOf_setList_of_ne hname] at hv
        exact old (fun hvu => hout q x name' hx (hvu ▸ hv)) ⟨x, hx, hv⟩
    · rw [Store.set_of_ne _ _ _ hq] at hy
      exact old (fun hvu => hout q y name' hy (hvu ▸ hv)) ⟨y, hy, hv⟩
  · intro q y name' hy
    have hnew : ∀ v ∈ listOf x name, ∀ p ∈ [u], v ≠ p := by
      intro v hv p hp hvp
      rw [List.mem_singleton] at hp
      exact hout s x name hx (hp ▸ hvp ▸ hv)
    have hnodup : (listOf x name ++ [u]).Nodup :=
      List.nodup_append.2 ⟨h.nodup s x name hx, List.nodup_singleton u, hnew⟩
    exact h.nodup_setList hx hnodup hy
  · intro v n l hn hl
    by_cases hv : v = u
    · subst hv
      rw [hself, Option.some.injEq] at hn
      subst hn
      rw [hf, Option.some.injEq] at hl
      subst hl
      refine ⟨hs m hm, _, Store.set_self _ _ _, ?_⟩
      rw [listOf_setList_self]
      exact List.mem_append_right _ (List.mem_singleton_self v)
    · rw [hother v hv] at hn
      exact h.node_setList hx hn hl (List.mem_append_left _)

/-! ## The operations -/

theorem Keeps.pendingLists_of_withoutValue (h : Keeps withoutValue w w') :
    Keeps pendingLists w w' := h.comp pendingLists

theorem linked_tmgiEffect (h : Linked w) (he : TmgiEffect w w') : Linked w' :=
  h.of_sameLinks (.of_stores he.sessionStore he.subscriptionStore)

theorem linked_valueEffect {s : Ref} (h : Linked w) (he : ValueEffect s w w') : Linked w' :=
  h.of_sameLinks (.of_keeps (Keeps.pendingLists_of_withoutValue he.keeps) he.subscriptionStore)

theorem linked_sendEffect {A : Observation → Prop} (h : Linked w) (he : SendEffect A w w') :
    Linked w' :=
  h.of_sameLinks (.of_stores he.sessionStore he.subscriptionStore)

theorem sameLinks_clearChanged {u : Ref} :
    SameLinks w (w.modifySubscription u fun n => { n with changed := false }) :=
  SameLinks.of_modifySubscription fun _ => rfl

theorem linked_updateNewSubscription {u : Ref} (h : Linked w)
    (hu : updateNewSubscription w u = .ok w') : Linked w' := by
  obtain ⟨n, v, -, hv, rfl⟩ := updateNewSubscription_eq_ok hu
  have hsend : Linked v := by
    split at hv
    · exact linked_sendEffect h (sendEffect_sendCreate hv)
    · rw [Except.ok.injEq] at hv
      exact hv ▸ h
  exact hsend.of_sameLinks sameLinks_clearChanged

theorem linked_updateStatusSubscription {u : Ref} (h : Linked w)
    (hu : updateStatusSubscription w u = .ok w') : Linked w' := by
  obtain ⟨n, -, ⟨-, rfl⟩ | ⟨-, v, hv, rfl⟩⟩ := updateStatusSubscription_eq_ok hu
  · exact h
  · exact (linked_sendEffect h (sendEffect_sendUpdate hv)).of_sameLinks sameLinks_clearChanged

theorem linked_removePendingSubscription {s u : Ref} (h : Linked w)
    (hu : removePendingSubscription s w u = .ok w') : Linked w' := by
  obtain ⟨v, v', hv, hv', rfl⟩ := removePendingSubscription_eq_ok hu
  obtain ⟨hlinked, hnode⟩ :=
    linked_ogsListRemove (linked_sendEffect h (sendEffect_sendDelete hv)) hv'
  exact linked_free hlinked hnode

theorem linked_mbsSessionPushChanges {s : Ref} (h : Linked w)
    (hp : mbsSessionPushChanges w s = .ok w') : Linked w' := by
  refine mbsSessionPushChanges_induction Linked ?_
    (fun _ _ _ _ _ _ => linked_updateNewSubscription)
    (fun _ _ _ _ _ _ => linked_updateStatusSubscription)
    (fun _ _ _ => linked_removePendingSubscription) h hp
  intro v v' hsend hv
  exact hv.of_sameLinks (.of_keeps (hsend.keeps.comp pendingLists) hsend.subscriptionStore)

theorem forgetId_eq_ok {u : Ref} (h : forgetId w u = .ok w') :
    ∃ n, w.subscriptionStore u = some n ∧ ((n.id = none ∧ w' = w) ∨
      ∃ id s x table v, n.id = some id ∧ n.session = some s ∧ w.sessionStore s = some x ∧
        x.activeSubscriptions = some table ∧
        mbsStatusSubscriptionSendDelete
          (w.setSession s { x with activeSubscriptions := some (table.erase id) }) u = .ok v ∧
        w' = v.modifySubscription u fun n => { n with id := none }) := by
  simp only [forgetId, bind_eq_ok, World.subscriptionAt_eq_ok] at h
  obtain ⟨n, hn, h⟩ := h
  refine ⟨n, hn, ?_⟩
  cases hid : n.id with
  | none =>
      simp only [hid, Except.ok.injEq] at h
      exact .inl ⟨rfl, h.symm⟩
  | some id =>
      cases hs : n.session with
      | none =>
          simp only [hid, hs] at h
          cases h
      | some s =>
          simp only [hid, hs, bind_eq_ok, World.sessionAt_eq_ok] at h
          obtain ⟨x, hx, h⟩ := h
          cases ht : x.activeSubscriptions with
          | none =>
              simp only [ht] at h
              cases h
          | some table =>
              simp only [ht, bind_eq_ok, Except.ok.injEq] at h
              obtain ⟨v, hv, rfl⟩ := h
              exact .inr ⟨id, s, x, table, v, rfl, rfl, hx, ht, hv, rfl⟩

theorem sameLinks_forgetId {u : Ref} (h : forgetId w u = .ok w') : SameLinks w w' := by
  obtain ⟨n, -, ⟨-, rfl⟩ | ⟨id, s, x, table, v, -, -, hx, -, hv, rfl⟩⟩ := forgetId_eq_ok h
  · exact SameLinks.refl _
  · have hset : SameLinks w
        (w.setSession s { x with activeSubscriptions := some (table.erase id) }) :=
      .of_keeps (Keeps.setSession hx rfl) rfl
    have hsend := sendEffect_sendDelete hv
    have hsent : SameLinks _ v :=
      .of_stores hsend.sessionStore hsend.subscriptionStore
    exact (hset.trans hsent).trans (SameLinks.of_modifySubscription fun _ => rfl)

theorem mbsSessionAddSubscription_eq_ok {s u : Ref}
    (h : mbsSessionAddSubscription w s u = .ok w') :
    ∃ x n, w.sessionStore s = some x ∧ w.subscriptionStore u = some n ∧
      ((x.deleted = true ∧ w' = w) ∨ (x.deleted = false ∧ ∃ v v',
        forgetId (w.setSession s { x with activeSubscriptions := some x.active }) u = .ok v ∧
        ogsListAdd v s .newSubscriptions u = .ok v' ∧
        w' = (v'.modifySubscription u
          fun n => { n with session := some s, changed := true }).say (.attached u s))) := by
  simp only [mbsSessionAddSubscription, bind_eq_ok, World.sessionAt_eq_ok,
    World.subscriptionAt_eq_ok] at h
  obtain ⟨x, hx, n, hn, h⟩ := h
  refine ⟨x, n, hx, hn, ?_⟩
  cases hd : x.deleted with
  | true =>
      simp only [hd, if_true, Except.ok.injEq] at h
      exact .inl ⟨rfl, h.symm⟩
  | false =>
      simp only [hd, Bool.false_eq_true, if_false, bind_eq_ok, Except.ok.injEq] at h
      obtain ⟨v, hv, v', hv', rfl⟩ := h
      exact .inr ⟨rfl, v, v', hv, hv', rfl⟩

theorem linked_mbsSessionAddSubscription {s u : Ref} (h : Linked w)
    (ha : mbsSessionAddSubscription w s u = .ok w') : Linked w' := by
  obtain ⟨x, n, hx, -, ⟨-, rfl⟩ | ⟨-, v, v', hv, hv', rfl⟩⟩ := mbsSessionAddSubscription_eq_ok ha
  · exact h
  · have htable : SameLinks w
        (w.setSession s { x with activeSubscriptions := some x.active }) :=
      .of_keeps (Keeps.setSession hx rfl) rfl
    have hbefore : Linked v := h.of_sameLinks (htable.trans (sameLinks_forgetId hv))
    have hafter := linked_ogsListAdd
      (f := fun n => { n with session := some s, changed := true }) hbefore hv'
      (fun _ => rfl) (fun _ _ => rfl)
    exact hafter.of_sameLinks (.of_stores rfl rfl)

theorem mbsSessionRemoveSubscription_eq_ok {s u : Ref}
    (h : mbsSessionRemoveSubscription w s u = .ok w') :
    ∃ x n, w.sessionStore s = some x ∧ w.subscriptionStore u = some n ∧
      (((x.deleted = true ∨ n.session ≠ some s) ∧ w' = w) ∨
      (x.deleted = false ∧ n.session = some s ∧
        ((∃ id v, n.id = some id ∧ ogsListAdd (w.setSession s
            { x with activeSubscriptions := x.activeSubscriptions.map fun t => t.erase id })
            s .deletedSubscriptions u = .ok v ∧
            w' = v.modifySubscription u fun n => { n with changed := true }) ∨
        (n.id = none ∧ u ∈ x.newSubscriptions ∧ ∃ v,
          ogsListRemove w s .newSubscriptions u = .ok v ∧ w' = mbsStatusSubscriptionFree v u) ∨
        (n.id = none ∧ u ∉ x.newSubscriptions ∧ w' = w)))) := by
  simp only [mbsSessionRemoveSubscription, bind_eq_ok, World.sessionAt_eq_ok,
    World.subscriptionAt_eq_ok] at h
  obtain ⟨x, hx, n, hn, h⟩ := h
  refine ⟨x, n, hx, hn, ?_⟩
  split at h
  · rename_i hstop
    rw [Except.ok.injEq] at h
    exact .inl ⟨hstop, h.symm⟩
  · rename_i hgo
    rw [not_or, not_not, Bool.not_eq_true] at hgo
    refine .inr ⟨hgo.1, hgo.2, ?_⟩
    cases hid : n.id with
    | some id =>
        simp only [hid, bind_eq_ok, Except.ok.injEq] at h
        obtain ⟨v, hv, rfl⟩ := h
        exact .inl ⟨id, v, rfl, hv, rfl⟩
    | none =>
        simp only [hid] at h
        split at h
        · rename_i hu
          simp only [bind_eq_ok, Except.ok.injEq] at h
          obtain ⟨v, hv, rfl⟩ := h
          exact .inr (.inl ⟨rfl, hu, v, hv, rfl⟩)
        · rename_i hu
          rw [Except.ok.injEq] at h
          exact .inr (.inr ⟨rfl, hu, h.symm⟩)

theorem linked_mbsSessionRemoveSubscription {s u : Ref} (h : Linked w)
    (hr : mbsSessionRemoveSubscription w s u = .ok w') : Linked w' := by
  obtain ⟨x, n, hx, hn, ⟨-, rfl⟩ | ⟨-, hs, hcase⟩⟩ := mbsSessionRemoveSubscription_eq_ok hr
  · exact h
  · rcases hcase with ⟨id, v, -, hv, rfl⟩ | ⟨-, -, v, hv, rfl⟩ | ⟨-, -, rfl⟩
    · have htable : SameLinks w (w.setSession s
          { x with activeSubscriptions := x.activeSubscriptions.map fun t => t.erase id }) :=
        .of_keeps (Keeps.setSession hx rfl) rfl
      refine linked_ogsListAdd (h.of_sameLinks htable) hv (fun _ => rfl) ?_
      intro m hm
      rw [show m = n from Option.some.inj (hm.symm.trans hn)]
      exact hs
    · obtain ⟨hlinked, hnode⟩ := linked_ogsListRemove h hv
      exact linked_free hlinked hnode
    · exact h

theorem attachment_mbsStatusSubscriptionSet (setting : SubscriptionSetting)
    (n : StatusSubscription) :
    attachment (mbsStatusSubscriptionSet setting n) = attachment n := by
  unfold mbsStatusSubscriptionSet
  split
  · rfl
  · cases setting <;> rfl

/-- An object that is created at a fresh reference disturbs nothing. -/
theorem linked_newSubscription {n : StatusSubscription} (h : Linked w)
    (hfresh : w.subscriptionStore w.next = none) (hnode : n.node = none) :
    Linked { w with
      subscriptionStore := w.subscriptionStore.set w.next n, next := w.next + 1 } := by
  refine ⟨?_, h.nodup, ?_⟩
  · intro s x name u hx hu
    obtain ⟨m, hm, hmnode⟩ := h.member s x name u hx hu
    have hne : u ≠ w.next := by
      rintro rfl
      rw [hfresh] at hm
      cases hm
    exact ⟨m, (Store.set_of_ne _ _ _ hne).trans hm, hmnode⟩
  · intro u m l hm hl
    by_cases hu : u = w.next
    · subst hu
      simp only [Store.set_self, Option.some.injEq] at hm
      rw [← hm, hnode] at hl
      cases hl
    · simp only [Store.set_of_ne _ _ _ hu] at hm
      exact h.node u m l hm hl

theorem linked_mbsSessionNew {ssm : Option SsmAddr} (h : Linked w)
    (hfresh : w.sessionStore w.next = none) : Linked (mbsSessionNew w ssm) := by
  have hcases : ∀ s x, (mbsSessionNew w ssm).sessionStore s = some x →
      (∀ name, listOf x name = []) ∨ w.sessionStore s = some x := by
    intro s x hx
    by_cases hs : s = w.next
    · subst hs
      simp only [mbsSessionNew, Store.set_self, Option.some.injEq] at hx
      subst hx
      exact .inl fun name => by cases name <;> rfl
    · simp only [mbsSessionNew, Store.set_of_ne _ _ _ hs] at hx
      exact .inr hx
  refine ⟨?_, ?_, ?_⟩
  · intro s x name u hx hu
    rcases hcases s x hx with hempty | hx
    · rw [hempty name] at hu
      cases hu
    · exact h.member s x name u hx hu
  · intro s x name hx
    rcases hcases s x hx with hempty | hx
    · rw [hempty name]
      exact List.nodup_nil
    · exact h.nodup s x name hx
  · intro u n l hn hl
    obtain ⟨hattached, x, hx, hu⟩ := h.node u n l hn hl
    refine ⟨hattached, x, ?_, hu⟩
    have hne : l.session ≠ w.next := by
      intro heq
      rw [heq, hfresh] at hx
      cases hx
    exact (Store.set_of_ne _ _ _ hne).trans hx

theorem linked_leavingEffect {s : Ref} (h : Linked w) (he : LeavingEffect s w w') :
    Linked w' := by
  obtain ⟨x, hx, -, hstore⟩ := he.record
  have hlive : ∀ q y, w'.sessionStore q = some y → q ≠ s ∧ w.sessionStore q = some y := by
    intro q y hy
    rw [he.sessionStore] at hy
    by_cases hq : q = s
    · subst hq
      simp at hy
    · rw [Store.free_of_ne _ _ _ hq] at hy
      exact ⟨hq, hy⟩
  refine ⟨?_, ?_, ?_⟩
  · intro q y name u hy hu
    obtain ⟨hq, hy⟩ := hlive q y hy
    obtain ⟨n, hn, hnode⟩ := h.member q y name u hy hu
    refine ⟨n, ?_, hnode⟩
    rw [hstore u, if_neg, hn]
    -- A subscription of the leaving session has a node of that session.
    have hout : ∀ name', u ∉ listOf x name' := by
      intro name' hmem
      have hother := h.node_of_mem hx hmem hn
      rw [hnode, Option.some.injEq, ListLink.mk.injEq] at hother
      exact hq hother.1
    rintro (hmem | hmem)
    · exact hout .newSubscriptions hmem
    · exact hout .deletedSubscriptions hmem
  · intro q y name hy
    exact h.nodup q y name (hlive q y hy).2
  · intro u n l hn hl
    rw [hstore u] at hn
    split at hn
    · cases hn
    · rename_i hout
      obtain ⟨hattached, y, hy, hu⟩ := h.node u n l hn hl
      refine ⟨hattached, y, ?_, hu⟩
      rw [he.sessionStore, Store.free_of_ne]
      · exact hy
      · intro heq
        rw [heq, hx, Option.some.injEq] at hy
        subst hy
        cases hname : l.list with
        | newSubscriptions =>
            rw [hname] at hu
            exact hout (.inl hu)
        | deletedSubscriptions =>
            rw [hname] at hu
            exact hout (.inr hu)

end ServiceConsumers.SubscriptionLinks
