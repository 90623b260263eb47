import ServiceConsumers.AnswerEffects
import ServiceConsumers.HolderCounts

set_option autoImplicit false

/-!
# References to SBI objects

What each operation does to the balance between the reference counts and the holders. A
reference that is in nobody's field for the moment is carried in the balance until it is
stored or dropped.
-/

namespace ServiceConsumers.SbiReferences

open ObjectStore KeyedTable PublicSessions ConsumerState TmgiOperations SubscriptionOperations
  SessionOperations ResponseHandlers ProcessEvent TransitionRuns TransactionLog TmgiEffects
  SessionEffects PushEffects AnswerEffects HolderCounts

/-- How many sessions and TMGIs hold an SBI object. -/
def holders (w : World) (o : Ref) : ℕ :=
  holdersBelow MbsSession.sbiObject w.sessionStore w.next o +
    holdersBelow PrivTmgi.sbiObject w.tmgiStore w.next o

/-- The counts are the holders and the references `held` besides, and no transaction is left
on an object that was released. -/
structure Counted (held : Ref → ℤ) (w : World) : Prop where
  sessions : ∀ s, w.next ≤ s → w.sessionStore s = none
  tmgis : ∀ t, w.next ≤ t → w.tmgiStore t = none
  objects : ∀ o, w.next ≤ o → w.sbiObjects o = 0
  counts : ∀ o, (w.sbiObjects o : ℤ) = holders w o + held o
  xacts : ∀ x ∈ w.xacts, w.sbiObjects x.sbiObject ≠ 0

variable {held held' : Ref → ℤ} {w w' w'' : World}

/-! ## Single references -/

namespace Counted

theorem initial : Counted (fun _ => 0) World.initial :=
  ⟨fun _ _ => rfl, fun _ _ => rfl, fun _ _ => rfl, fun _ => rfl, fun x hx => by cases hx⟩

theorem of_held (h : Counted held w) (heq : ∀ o, held' o = held o) : Counted held' w := by
  obtain rfl : held' = held := funext heq
  exact h

theorem lt_of_session (h : Counted held w) {s : Ref} {x : MbsSession}
    (hx : w.sessionStore s = some x) : s < w.next := by
  by_contra hs
  rw [h.sessions s (Nat.le_of_not_lt hs)] at hx
  cases hx

theorem lt_of_tmgi (h : Counted held w) {t : Ref} {x : PrivTmgi}
    (hx : w.tmgiStore t = some x) : t < w.next := by
  by_contra ht
  rw [h.tmgis t (Nat.le_of_not_lt ht)] at hx
  cases hx

theorem lt_of_object (h : Counted held w) {o : Ref} (ho : w.sbiObjects o ≠ 0) : o < w.next := by
  by_contra hlt
  exact ho (h.objects o (Nat.le_of_not_lt hlt))

theorem session_pos (h : Counted held w) {s o : Ref} {x : MbsSession}
    (hx : w.sessionStore s = some x) (ho : x.sbiObject = some o) :
    0 < holdersBelow MbsSession.sbiObject w.sessionStore w.next o := by
  refine holdersBelow_pos (h.lt_of_session hx) ?_
  rw [hx]
  exact ho

theorem tmgi_pos (h : Counted held w) {t o : Ref} {x : PrivTmgi}
    (hx : w.tmgiStore t = some x) (ho : x.sbiObject = some o) :
    0 < holdersBelow PrivTmgi.sbiObject w.tmgiStore w.next o := by
  refine holdersBelow_pos (h.lt_of_tmgi hx) ?_
  rw [hx]
  exact ho

theorem lt_of_session_holds (h : Counted held w) {s o : Ref} {x : MbsSession}
    (hx : w.sessionStore s = some x) (ho : x.sbiObject = some o) : held o < w.sbiObjects o := by
  have hpos := h.session_pos hx ho
  have hcount := h.counts o
  unfold holders at hcount
  push_cast at hcount
  omega

theorem lt_of_tmgi_holds (h : Counted held w) {t o : Ref} {x : PrivTmgi}
    (hx : w.tmgiStore t = some x) (ho : x.sbiObject = some o) : held o < w.sbiObjects o := by
  have hpos := h.tmgi_pos hx ho
  have hcount := h.counts o
  unfold holders at hcount
  push_cast at hcount
  omega

/-- A session and a TMGI that hold one object count twice. -/
theorem lt_of_both_hold (h : Counted held w) {s t o : Ref} {x : MbsSession} {y : PrivTmgi}
    (hx : w.sessionStore s = some x) (hxo : x.sbiObject = some o) (hy : w.tmgiStore t = some y)
    (hyo : y.sbiObject = some o) : held o + 1 < w.sbiObjects o := by
  have hsession := h.session_pos hx hxo
  have htmgi := h.tmgi_pos hy hyo
  have hcount := h.counts o
  unfold holders at hcount
  push_cast at hcount
  omega

/-- Nobody's fields change, and transactions are only added on objects that are there. -/
theorem of_same (h : Counted held w)
    (hsessions : ∀ s, (w'.sessionStore s).map MbsSession.sbiObject =
      (w.sessionStore s).map MbsSession.sbiObject)
    (htmgis : ∀ t, (w'.tmgiStore t).map PrivTmgi.sbiObject =
      (w.tmgiStore t).map PrivTmgi.sbiObject)
    (hobjects : w'.sbiObjects = w.sbiObjects) (hnext : w.next ≤ w'.next)
    (hxacts : ∀ x ∈ w'.xacts, x ∈ w.xacts ∨ w.sbiObjects x.sbiObject ≠ 0) : Counted held w' := by
  have hbind : ∀ {α : Type} (f : α → Option Ref) (a b : Option α), a.map f = b.map f →
      a.bind f = b.bind f := by
    intro α f a b hab
    cases a <;> cases b <;> simp_all
  have hs : ∀ s, w.next ≤ s → w'.sessionStore s = none := by
    intro s hs
    have heq := hsessions s
    rwa [h.sessions s hs, Option.map_none, Option.map_eq_none_iff] at heq
  have ht : ∀ t, w.next ≤ t → w'.tmgiStore t = none := by
    intro t ht
    have heq := htmgis t
    rwa [h.tmgis t ht, Option.map_none, Option.map_eq_none_iff] at heq
  refine ⟨fun s hle => hs s (hnext.trans hle), fun t hle => ht t (hnext.trans hle), ?_, ?_, ?_⟩
  · intro o hle
    rw [hobjects]
    exact h.objects o (hnext.trans hle)
  · intro o
    have hold := h.counts o
    rw [hobjects, hold]
    unfold holders
    rw [holdersBelow_of_le hnext hs, holdersBelow_of_le hnext ht,
      holdersBelow_congr fun q _ => hbind _ _ _ (hsessions q),
      holdersBelow_congr fun q _ => hbind _ _ _ (htmgis q)]
  · intro x hx
    rw [hobjects]
    rcases hxacts x hx with hold | hlive
    · exact h.xacts x hold
    · exact hlive

theorem newObject (h : Counted held w) :
    Counted (fun o => held o + share (some w.next) o) w.refCountSbiObjectNew.1 := by
  have hsession : holdersBelow MbsSession.sbiObject w.sessionStore (w.next + 1) =
      holdersBelow MbsSession.sbiObject w.sessionStore w.next :=
    funext fun o => holdersBelow_of_le (Nat.le_succ _) h.sessions
  have htmgi : holdersBelow PrivTmgi.sbiObject w.tmgiStore (w.next + 1) =
      holdersBelow PrivTmgi.sbiObject w.tmgiStore w.next :=
    funext fun o => holdersBelow_of_le (Nat.le_succ _) h.tmgis
  refine ⟨fun s hs => h.sessions s (Nat.le_of_succ_le hs),
    fun t ht => h.tmgis t (Nat.le_of_succ_le ht), ?_, ?_, ?_⟩
  · intro o ho
    have hne : o ≠ w.next := Nat.ne_of_gt ho
    change Function.update w.sbiObjects w.next 1 o = 0
    rw [Function.update_of_ne hne]
    exact h.objects o (Nat.le_of_succ_le ho)
  · intro o
    change ((Function.update w.sbiObjects w.next 1 o : ℕ) : ℤ) =
      ((holdersBelow MbsSession.sbiObject w.sessionStore (w.next + 1) o +
        holdersBelow PrivTmgi.sbiObject w.tmgiStore (w.next + 1) o : ℕ) : ℤ) + _
    rw [hsession, htmgi]
    have hcount := h.counts o
    unfold holders at hcount
    by_cases ho : o = w.next
    · subst ho
      rw [Function.update_self, share_self]
      rw [h.objects _ (le_refl _)] at hcount
      omega
    · have hne : some w.next ≠ some o := fun heq => ho (Option.some.inj heq).symm
      rw [Function.update_of_ne ho, share_of_ne hne]
      omega
  · intro x hx
    change Function.update w.sbiObjects w.next 1 x.sbiObject ≠ 0
    have hlive := h.xacts x hx
    have hne : x.sbiObject ≠ w.next := Nat.ne_of_lt (h.lt_of_object hlive)
    rwa [Function.update_of_ne hne]

theorem ref (h : Counted held w) {b : Option Ref} (hb : ∀ o, b = some o → o < w.next) :
    Counted (fun o => held o + share b o) (w.refCountSbiObjectRef b) := by
  cases b with
  | none => exact h.of_held fun o => by simp
  | some r =>
      have hlt := hb r rfl
      refine ⟨h.sessions, h.tmgis, ?_, ?_, ?_⟩
      · intro o ho
        have hne : o ≠ r := Nat.ne_of_gt (Nat.lt_of_lt_of_le hlt ho)
        change Function.update w.sbiObjects r (w.sbiObjects r + 1) o = 0
        rw [Function.update_of_ne hne]
        exact h.objects o ho
      · intro o
        change ((Function.update w.sbiObjects r (w.sbiObjects r + 1) o : ℕ) : ℤ) = holders w o + _
        have hcount := h.counts o
        by_cases ho : o = r
        · subst ho
          rw [Function.update_self, share_self]
          omega
        · have hne : some r ≠ some o := fun heq => ho (Option.some.inj heq).symm
          rw [Function.update_of_ne ho, share_of_ne hne]
          omega
      · intro x hx
        change Function.update w.sbiObjects r (w.sbiObjects r + 1) x.sbiObject ≠ 0
        by_cases ho : x.sbiObject = r
        · rw [ho, Function.update_self]
          omega
        · rw [Function.update_of_ne ho]
          exact h.xacts x hx

end Counted

theorem refCountSbiObjectUnref_sbiObjects (w : World) (r : Ref) :
    (w.refCountSbiObjectUnref (some r)).sbiObjects =
      Function.update w.sbiObjects r (w.sbiObjects r - 1) := by
  unfold World.refCountSbiObjectUnref
  dsimp only
  split <;> rfl

theorem refCountSbiObjectUnref_xacts (w : World) (r : Ref) :
    (w.refCountSbiObjectUnref (some r)).xacts =
      if w.sbiObjects r = 1 then w.xacts.filter fun x => x.sbiObject ≠ r else w.xacts := by
  unfold World.refCountSbiObjectUnref
  dsimp only
  split <;> rfl

namespace Counted

/-- A reference that exists is dropped; with the last one the transactions go. -/
theorem unref (h : Counted held w) {a : Option Ref}
    (ha : ∀ o, a = some o → w.sbiObjects o ≠ 0) :
    Counted (fun o => held o - share a o) (w.refCountSbiObjectUnref a) := by
  cases a with
  | none => exact h.of_held fun o => by simp
  | some r =>
      have hpos := ha r rfl
      have hholders : holders (w.refCountSbiObjectUnref (some r)) = holders w := by
        unfold holders
        rw [World.refCountSbiObjectUnref_sessionStore, World.refCountSbiObjectUnref_tmgiStore,
          World.refCountSbiObjectUnref_next]
      refine ⟨?_, ?_, ?_, ?_, ?_⟩
      · rw [World.refCountSbiObjectUnref_sessionStore, World.refCountSbiObjectUnref_next]
        exact h.sessions
      · rw [World.refCountSbiObjectUnref_tmgiStore, World.refCountSbiObjectUnref_next]
        exact h.tmgis
      · intro o ho
        rw [World.refCountSbiObjectUnref_next] at ho
        rw [refCountSbiObjectUnref_sbiObjects]
        by_cases hor : o = r
        · subst hor
          exact absurd (h.objects o ho) hpos
        · rw [Function.update_of_ne hor]
          exact h.objects o ho
      · intro o
        rw [hholders, refCountSbiObjectUnref_sbiObjects]
        have hcount := h.counts o
        by_cases hor : o = r
        · subst hor
          rw [Function.update_self, share_self]
          omega
        · have hne : some r ≠ some o := fun heq => hor (Option.some.inj heq).symm
          rw [Function.update_of_ne hor, share_of_ne hne]
          omega
      · intro x hx
        rw [refCountSbiObjectUnref_xacts] at hx
        rw [refCountSbiObjectUnref_sbiObjects]
        by_cases hor : x.sbiObject = r
        · rw [hor, Function.update_self]
          split at hx
          · exact absurd hor (by simpa using (List.mem_filter.1 hx).2)
          · rename_i hone
            omega
        · rw [Function.update_of_ne hor]
          split at hx
          · exact h.xacts x (List.mem_filter.1 hx).1
          · exact h.xacts x hx

end Counted

/-! ## Single fields -/

namespace Counted

/-- One session holds something else now. -/
theorem changeSession (h : Counted held w) {s : Ref} (hs : s < w.next)
    (store : Store MbsSession) (heq : ∀ q, q ≠ s → store q = w.sessionStore q) :
    Counted (fun o => held o + share ((w.sessionStore s).bind MbsSession.sbiObject) o -
      share ((store s).bind MbsSession.sbiObject) o) { w with sessionStore := store } := by
  refine ⟨?_, h.tmgis, h.objects, ?_, h.xacts⟩
  · intro q hq
    have hne : q ≠ s := Nat.ne_of_gt (Nat.lt_of_lt_of_le hs hq)
    exact (heq q hne).trans (h.sessions q hq)
  · intro o
    have hcount := h.counts o
    have hchange : (holdersBelow MbsSession.sbiObject store w.next o : ℤ) =
        holdersBelow MbsSession.sbiObject w.sessionStore w.next o -
          share ((w.sessionStore s).bind MbsSession.sbiObject) o +
          share ((store s).bind MbsSession.sbiObject) o :=
      holdersBelow_change hs fun q hq => by rw [heq q hq]
    unfold holders at hcount ⊢
    push_cast at hcount ⊢
    rw [hchange]
    omega

/-- One TMGI holds something else now. -/
theorem changeTmgi (h : Counted held w) {t : Ref} (ht : t < w.next) (store : Store PrivTmgi)
    (heq : ∀ q, q ≠ t → store q = w.tmgiStore q) :
    Counted (fun o => held o + share ((w.tmgiStore t).bind PrivTmgi.sbiObject) o -
      share ((store t).bind PrivTmgi.sbiObject) o) { w with tmgiStore := store } := by
  refine ⟨h.sessions, ?_, h.objects, ?_, h.xacts⟩
  · intro q hq
    have hne : q ≠ t := Nat.ne_of_gt (Nat.lt_of_lt_of_le ht hq)
    exact (heq q hne).trans (h.tmgis q hq)
  · intro o
    have hcount := h.counts o
    have hchange : (holdersBelow PrivTmgi.sbiObject store w.next o : ℤ) =
        holdersBelow PrivTmgi.sbiObject w.tmgiStore w.next o -
          share ((w.tmgiStore t).bind PrivTmgi.sbiObject) o +
          share ((store t).bind PrivTmgi.sbiObject) o :=
      holdersBelow_change ht fun q hq => by rw [heq q hq]
    unfold holders at hcount ⊢
    push_cast at hcount ⊢
    rw [hchange]
    omega

theorem setSession (h : Counted held w) {s : Ref} {x y : MbsSession}
    (hx : w.sessionStore s = some x) :
    Counted (fun o => held o + share x.sbiObject o - share y.sbiObject o) (w.setSession s y) := by
  have hc := h.changeSession (h.lt_of_session hx)
    (w.sessionStore.set s y) fun q hq => Store.set_of_ne _ _ _ hq
  rw [hx, Store.set_self] at hc
  exact hc

theorem freeSession (h : Counted held w) {s : Ref} {x : MbsSession}
    (hx : w.sessionStore s = some x) :
    Counted (fun o => held o + share x.sbiObject o)
      { w with sessionStore := w.sessionStore.free s } := by
  have hc := h.changeSession (h.lt_of_session hx)
    (w.sessionStore.free s) fun q hq => Store.free_of_ne _ _ _ hq
  rw [hx, Store.free_self] at hc
  exact hc.of_held fun o => by simp

theorem modifyTmgi (h : Counted held w) {t : Ref} {x : PrivTmgi} {f : PrivTmgi → PrivTmgi}
    (hx : w.tmgiStore t = some x) :
    Counted (fun o => held o + share x.sbiObject o - share (f x).sbiObject o)
      (w.modifyTmgi t f) := by
  have hc := h.changeTmgi (h.lt_of_tmgi hx)
    (w.tmgiStore.modify t f) fun q hq => Store.modify_of_ne _ _ _ hq
  rw [Store.modify_self, hx] at hc
  exact hc

theorem freeTmgi (h : Counted held w) {t : Ref} {x : PrivTmgi} (hx : w.tmgiStore t = some x) :
    Counted (fun o => held o + share x.sbiObject o)
      { w with tmgiStore := w.tmgiStore.free t } := by
  have hc := h.changeTmgi (h.lt_of_tmgi hx)
    (w.tmgiStore.free t) fun q hq => Store.free_of_ne _ _ _ hq
  rw [hx, Store.free_self] at hc
  exact hc.of_held fun o => by simp

end Counted

/-! ## What an operation gives up -/

/-- The transactions on an object stay outstanding. -/
def Stays (o : Ref) (w w' : World) : Prop := ∀ x ∈ w.xacts, x.sbiObject = o → x ∈ w'.xacts

theorem Stays.trans {o : Ref} (h₁ : Stays o w w') (h₂ : Stays o w' w'') : Stays o w w'' :=
  fun x hx ho => h₂ x (h₁ x hx ho) ho

/-- At most `ds o` references to an object are given up, and an object that has more of them
keeps its transactions. -/
def GivesUp (ds : Ref → ℕ) (w w' : World) : Prop :=
  ∀ o, ds o < w.sbiObjects o → w.sbiObjects o ≤ w'.sbiObjects o + ds o ∧ Stays o w w'

namespace GivesUp

variable {ds ds' : Ref → ℕ}

theorem trans (h₁ : GivesUp ds w w') (h₂ : GivesUp ds' w' w'') :
    GivesUp (fun o => ds o + ds' o) w w'' := by
  intro o ho
  dsimp only at ho ⊢
  obtain ⟨hcount₁, hstays₁⟩ := h₁ o (by omega)
  obtain ⟨hcount₂, hstays₂⟩ := h₂ o (by omega)
  exact ⟨by omega, hstays₁.trans hstays₂⟩

theorem mono (h : GivesUp ds w w') (hle : ∀ o, w.sbiObjects o ≠ 0 → ds o ≤ ds' o) :
    GivesUp ds' w w' := by
  intro o ho
  have hds := hle o (by omega)
  obtain ⟨hcount, hstays⟩ := h o (by omega)
  exact ⟨by omega, hstays⟩

theorem of_eq (hobjects : w'.sbiObjects = w.sbiObjects) (hxacts : ∀ x ∈ w.xacts, x ∈ w'.xacts) :
    GivesUp (fun _ => 0) w w' := by
  intro o _
  rw [hobjects]
  exact ⟨Nat.le_refl _, fun x hx _ => hxacts x hx⟩

end GivesUp

theorem stays_refCountSbiObjectRef (o : Ref) (b : Option Ref) :
    Stays o w (w.refCountSbiObjectRef b) := by
  intro x hx _
  cases b <;> exact hx

theorem givesUp_refCountSbiObjectRef (b : Option Ref) :
    GivesUp (fun _ => 0) w (w.refCountSbiObjectRef b) := by
  intro o _
  refine ⟨?_, stays_refCountSbiObjectRef o b⟩
  cases b with
  | none => exact Nat.le_refl _
  | some r =>
      change _ ≤ Function.update w.sbiObjects r (w.sbiObjects r + 1) o + 0
      by_cases ho : o = r
      · subst ho
        rw [Function.update_self]
        omega
      · rw [Function.update_of_ne ho]
        omega

/-- Dropping a reference that is not the last one keeps the transactions. -/
theorem stays_refCountSbiObjectUnref {o : Ref} {a : Option Ref}
    (h : a = some o → w.sbiObjects o ≠ 1) : Stays o w (w.refCountSbiObjectUnref a) := by
  intro x hx ho
  cases a with
  | none => exact hx
  | some r =>
      rw [refCountSbiObjectUnref_xacts]
      split
      · rename_i hone
        refine List.mem_filter.2 ⟨hx, ?_⟩
        have hne : x.sbiObject ≠ r := by
          rintro rfl
          exact h (by rw [ho]) (ho ▸ hone)
        simpa using hne
      · exact hx

theorem givesUp_refCountSbiObjectUnref (a : Option Ref) :
    GivesUp (share a) w (w.refCountSbiObjectUnref a) := by
  intro o ho
  refine ⟨?_, stays_refCountSbiObjectUnref fun ha => ?_⟩
  · cases a with
    | none => exact Nat.le_refl _
    | some r =>
        rw [refCountSbiObjectUnref_sbiObjects]
        by_cases hor : o = r
        · subst hor
          rw [Function.update_self, share_self]
          omega
        · rw [Function.update_of_ne hor]
          omega
  · rw [ha, share_self] at ho
    omega

/-- An operation that keeps the balance: what is held besides the fields keeps its
transactions, and of the rest no more than `ds` is given up. -/
structure Balanced (held : Ref → ℤ) (ds : Ref → ℕ) (w w' : World) : Prop where
  counted : Counted held w'
  givesUp : GivesUp ds w w'
  stays : ∀ o, 0 < held o → Stays o w w'

namespace Balanced

variable {ds ds' : Ref → ℕ}

theorem refl (h : Counted held w) : Balanced held (fun _ => 0) w w :=
  ⟨h, .of_eq rfl fun _ hx => hx, fun _ _ _ hx _ => hx⟩

theorem trans (h₁ : Balanced held ds w w') (h₂ : Balanced held ds' w' w'') :
    Balanced held (fun o => ds o + ds' o) w w'' :=
  ⟨h₂.counted, h₁.givesUp.trans h₂.givesUp, fun o ho => (h₁.stays o ho).trans (h₂.stays o ho)⟩

theorem mono (h : Balanced held ds w w') (hle : ∀ o, w.sbiObjects o ≠ 0 → ds o ≤ ds' o) :
    Balanced held ds' w w' :=
  ⟨h.counted, h.givesUp.mono hle, h.stays⟩

/-- After an operation that gives nothing up. -/
theorem tail (h₁ : Balanced held ds w w') (h₂ : Balanced held (fun _ => 0) w' w'') :
    Balanced held ds w w'' :=
  (h₁.trans h₂).mono fun _ _ => Nat.le_refl _

theorem of_same (h : Counted held w)
    (hsessions : ∀ s, (w'.sessionStore s).map MbsSession.sbiObject =
      (w.sessionStore s).map MbsSession.sbiObject)
    (htmgis : ∀ t, (w'.tmgiStore t).map PrivTmgi.sbiObject =
      (w.tmgiStore t).map PrivTmgi.sbiObject)
    (hobjects : w'.sbiObjects = w.sbiObjects) (hnext : w.next ≤ w'.next)
    (hadded : ∀ x ∈ w'.xacts, x ∈ w.xacts ∨ w.sbiObjects x.sbiObject ≠ 0)
    (hkept : ∀ x ∈ w.xacts, x ∈ w'.xacts) : Balanced held (fun _ => 0) w w' :=
  ⟨h.of_same hsessions htmgis hobjects hnext hadded, .of_eq hobjects hkept,
    fun _ _ x hx _ => hkept x hx⟩

/-- Lists, logs and subscriptions do not matter. -/
theorem of_eq (h : Counted held w) (hsessions : w'.sessionStore = w.sessionStore)
    (htmgis : w'.tmgiStore = w.tmgiStore) (hobjects : w'.sbiObjects = w.sbiObjects)
    (hxacts : w'.xacts = w.xacts) (hnext : w.next ≤ w'.next) :
    Balanced held (fun _ => 0) w w' :=
  of_same h (fun s => by rw [hsessions]) (fun t => by rw [htmgis]) hobjects hnext
    (fun x hx => .inl (hxacts ▸ hx)) fun x hx => hxacts ▸ hx

theorem sent (h : Counted held w) {x : Xact} (ho : w.sbiObjects x.sbiObject ≠ 0) :
    Balanced held (fun _ => 0) w
      { w with xacts := w.xacts ++ [x], log := .sent x :: w.log, next := w.next + 1 } := by
  refine of_same h (fun _ => rfl) (fun _ => rfl) rfl (Nat.le_succ _) ?_ ?_
  · intro y hy
    rcases List.mem_append.1 hy with hold | hnew
    · exact .inl hold
    · rw [List.mem_singleton.1 hnew]
      exact .inr ho
  · exact fun y hy => List.mem_append_left _ hy

theorem writeSession (h : Counted held w) {s : Ref} {x y : MbsSession}
    (hx : w.sessionStore s = some x) (hy : y.sbiObject = x.sbiObject) :
    Balanced held (fun _ => 0) w (w.setSession s y) :=
  of_same h (Keeps.setSession hx hy) (fun _ => rfl) rfl (Nat.le_refl _)
    (fun _ hz => .inl hz) fun _ hz => hz

theorem modifySession (h : Counted held w) {s : Ref} {f : MbsSession → MbsSession}
    (hf : ∀ x, (f x).sbiObject = x.sbiObject) :
    Balanced held (fun _ => 0) w (w.modifySession s f) :=
  of_same h (Keeps.modifySession hf) (fun _ => rfl) rfl (Nat.le_refl _)
    (fun _ hz => .inl hz) fun _ hz => hz

theorem modifyTmgi (h : Counted held w) {t : Ref} {f : PrivTmgi → PrivTmgi}
    (hf : ∀ x, (f x).sbiObject = x.sbiObject) :
    Balanced held (fun _ => 0) w (w.modifyTmgi t f) := by
  refine of_same h (fun _ => rfl) (fun q => ?_) rfl (Nat.le_refl _)
    (fun _ hz => .inl hz) fun _ hz => hz
  change ((w.tmgiStore.modify t f) q).map PrivTmgi.sbiObject = _
  rw [Store.modify_apply]
  split
  · rw [Option.map_map]
    exact congrArg (fun g => (w.tmgiStore q).map g) (funext hf)
  · rfl

/-- A loop of items that give nothing up. -/
theorem foldlM {α : Type} {f : World → α → Except Fault World}
    (hf : ∀ v a v', Counted held v → f v a = .ok v' → Balanced held (fun _ => 0) v v')
    {as : List α} (hw : Counted held w) (h : as.foldlM f w = .ok w') :
    Balanced held (fun _ => 0) w w' :=
  foldlM_ok_induction (fun _ v => Balanced held (fun _ => 0) w v)
    (fun a _ v v' hv hrun => hv.tail (hf v a v' hv.counted hrun)) as w w' (refl hw) h

end Balanced

end ServiceConsumers.SbiReferences
