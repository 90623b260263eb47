import Mathlib.Logic.Function.Basic
import Mathlib.Data.List.Count

set_option autoImplicit false

/-!
# Resources of slots

Resources are numbered in the order in which they are opened. A slot holds a resource of its own,
which is closed when the slot lets it go, or the one that is shared, which slots do not close.
-/

namespace ServiceConsumers.ResourceLedgers

open Function

variable {ι : Type}

/-- The number of resources that were opened, and those that were closed, the latest first. -/
structure Ledger where
  opened : ℕ := 0
  closed : List ℕ := []
  deriving DecidableEq, Repr

namespace Ledger

variable (l : Ledger)

def openNext : Ledger := { l with opened := l.opened + 1 }

def close (s : ℕ) : Ledger := { l with closed := s :: l.closed }

def timesClosed (s : ℕ) : ℕ := l.closed.count s

theorem timesClosed_close_self (s : ℕ) : (l.close s).timesClosed s = l.timesClosed s + 1 :=
  List.count_cons_self

theorem timesClosed_close_of_ne {s t : ℕ} (h : s ≠ t) :
    (l.close s).timesClosed t = l.timesClosed t :=
  List.count_cons_of_ne h

end Ledger

/-- A resource that is not shared is open while its only slot holds it, and was closed once after
that. -/
structure Accounted (slots : ι → Option ℕ) (shared : Option ℕ) (l : Ledger) : Prop where
  opened : ∀ s, shared = some s ∨ (∃ i, slots i = some s) ∨ 0 < l.timesClosed s → s < l.opened
  held : ∀ i s, slots i = some s → shared ≠ some s →
    l.timesClosed s = 0 ∧ ∀ j, slots j = some s → j = i
  released : ∀ s, s < l.opened → shared ≠ some s → (∀ i, slots i ≠ some s) → l.timesClosed s = 1

namespace Accounted

variable {slots : ι → Option ℕ} {shared : Option ℕ} {l : Ledger} {i : ι} {s : ℕ}

theorem initial : Accounted (fun _ : ι => none) none {} := by
  constructor
  · rintro s (h | ⟨i, h⟩ | h)
    · cases h
    · cases h
    · exact absurd h (Nat.lt_irrefl 0)
  · intro i s h
    cases h
  · intro s h
    exact absurd h (Nat.not_lt_zero s)

/-- The next resource is held by no slot, is not the shared one and was never closed. -/
theorem next_new (h : Accounted slots shared l) : shared ≠ some l.opened ∧
    (∀ i, slots i ≠ some l.opened) ∧ l.timesClosed l.opened = 0 := by
  have hno := fun hany => Nat.lt_irrefl l.opened (h.opened l.opened hany)
  refine ⟨fun hs => hno (.inl hs), fun i hi => hno (.inr (.inl ⟨i, hi⟩)), ?_⟩
  by_contra hne
  exact hno (.inr (.inr (Nat.pos_of_ne_zero hne)))

/-- The first resource that is shared. -/
theorem open_shared (h : Accounted slots none l) : Accounted slots (some l.opened) l.openNext := by
  obtain ⟨-, hslots, -⟩ := h.next_new
  constructor
  · rintro s (hs | hs)
    · obtain rfl := Option.some.inj hs
      exact Nat.lt_succ_self l.opened
    · exact Nat.lt_succ_of_lt (h.opened s (.inr hs))
  · intro i s hi _
    exact h.held i s hi (Option.some_ne_none s).symm
  · intro s hs hne hnone
    have hlt : s < l.opened :=
      Nat.lt_of_le_of_ne (Nat.le_of_lt_succ hs) fun heq => hne (congrArg some heq.symm)
    exact h.released s hlt (Option.some_ne_none s).symm hnone

/-- The shared resource is closed, and stays the shared one. -/
theorem close_shared (h : Accounted slots (some s) l) : Accounted slots (some s) (l.close s) := by
  have hcount : ∀ t, some s ≠ some t → (l.close s).timesClosed t = l.timesClosed t :=
    fun t ht => l.timesClosed_close_of_ne fun heq => ht (congrArg some heq)
  constructor
  · rintro t (ht | ht | ht)
    · exact h.opened t (.inl ht)
    · exact h.opened t (.inr (.inl ht))
    · by_cases hts : some s = some t
      · exact h.opened t (.inl hts)
      · rw [hcount t hts] at ht
        exact h.opened t (.inr (.inr ht))
  · intro i t hi ht
    rw [hcount t ht]
    exact h.held i t hi ht
  · intro t hlt ht hnone
    rw [hcount t ht]
    exact h.released t hlt ht hnone

variable [DecidableEq ι]

/-- An empty slot opens a resource of its own. -/
theorem open_own (h : Accounted slots shared l) (hi : slots i = none) :
    Accounted (update slots i (some l.opened)) shared l.openNext := by
  obtain ⟨hshared, hslots, hclosed⟩ := h.next_new
  constructor
  · rintro s (hs | ⟨j, hj⟩ | hs)
    · exact Nat.lt_succ_of_lt (h.opened s (.inl hs))
    · by_cases hji : j = i
      · rw [hji, update_self] at hj
        obtain rfl := Option.some.inj hj
        exact Nat.lt_succ_self l.opened
      · rw [update_of_ne hji] at hj
        exact Nat.lt_succ_of_lt (h.opened s (.inr (.inl ⟨j, hj⟩)))
    · exact Nat.lt_succ_of_lt (h.opened s (.inr (.inr hs)))
  · intro j s hj hs
    by_cases hji : j = i
    · rw [hji, update_self] at hj
      obtain rfl := Option.some.inj hj
      refine ⟨hclosed, fun k hk => ?_⟩
      by_cases hki : k = i
      · exact hki.trans hji.symm
      · rw [update_of_ne hki] at hk
        exact absurd hk (hslots k)
    · rw [update_of_ne hji] at hj
      obtain ⟨hcount, hone⟩ := h.held j s hj hs
      refine ⟨hcount, fun k hk => ?_⟩
      by_cases hki : k = i
      · rw [hki, update_self] at hk
        obtain rfl := Option.some.inj hk
        exact absurd hj (hslots j)
      · rw [update_of_ne hki] at hk
        exact hone k hk
  · intro s hs hne hnone
    have hold : ∀ j, slots j ≠ some s := by
      intro j hj
      by_cases hji : j = i
      · rw [hji, hi] at hj
        cases hj
      · refine hnone j ?_
        rw [update_of_ne hji]
        exact hj
    have hlt : s < l.opened := by
      refine Nat.lt_of_le_of_ne (Nat.le_of_lt_succ hs) fun heq => hnone i ?_
      rw [update_self, heq]
    exact h.released s hlt hne hold

/-- A slot that holds nothing of its own takes the shared resource, or lets it go. -/
theorem update_shared (h : Accounted slots shared l) (hi : slots i = none ∨ slots i = shared)
    {v : Option ℕ} (hv : v = none ∨ v = shared) : Accounted (update slots i v) shared l := by
  have hnot : ∀ {w : Option ℕ} {s : ℕ}, w = none ∨ w = shared → w = some s → shared = some s := by
    rintro w s (hw | hw) hs
    · rw [hw] at hs
      cases hs
    · rw [← hw]
      exact hs
  constructor
  · rintro s (hs | ⟨j, hj⟩ | hs)
    · exact h.opened s (.inl hs)
    · by_cases hji : j = i
      · rw [hji, update_self] at hj
        exact h.opened s (.inl (hnot hv hj))
      · rw [update_of_ne hji] at hj
        exact h.opened s (.inr (.inl ⟨j, hj⟩))
    · exact h.opened s (.inr (.inr hs))
  · intro j s hj hs
    have hji : j ≠ i := by
      rintro rfl
      rw [update_self] at hj
      exact hs (hnot hv hj)
    rw [update_of_ne hji] at hj
    obtain ⟨hcount, hone⟩ := h.held j s hj hs
    refine ⟨hcount, fun k hk => hone k ?_⟩
    by_cases hki : k = i
    · rw [hki, update_self] at hk
      exact absurd (hnot hv hk) hs
    · rw [update_of_ne hki] at hk
      exact hk
  · intro s hlt hs hnone
    refine h.released s hlt hs fun j hj => hnone j ?_
    by_cases hji : j = i
    · rw [hji] at hj
      exact absurd (hnot hi hj) hs
    · rw [update_of_ne hji]
      exact hj

/-- A slot lets its own resource go. -/
theorem close_own (h : Accounted slots shared l) (hi : slots i = some s) (hs : shared ≠ some s) :
    Accounted (update slots i none) shared (l.close s) := by
  obtain ⟨hzero, hone⟩ := h.held i s hi hs
  have hcount : ∀ t, t ≠ s → (l.close s).timesClosed t = l.timesClosed t :=
    fun t ht => l.timesClosed_close_of_ne ht.symm
  have hold : ∀ {j t}, update slots i none j = some t → j ≠ i ∧ slots j = some t := by
    intro j t hj
    by_cases hji : j = i
    · rw [hji, update_self] at hj
      cases hj
    · rw [update_of_ne hji] at hj
      exact ⟨hji, hj⟩
  constructor
  · rintro t (ht | ⟨j, hj⟩ | ht)
    · exact h.opened t (.inl ht)
    · exact h.opened t (.inr (.inl ⟨j, (hold hj).2⟩))
    · by_cases hts : t = s
      · rw [hts]
        exact h.opened s (.inr (.inl ⟨i, hi⟩))
      · rw [hcount t hts] at ht
        exact h.opened t (.inr (.inr ht))
  · intro j t hj ht
    obtain ⟨hji, hj⟩ := hold hj
    have hts : t ≠ s := by
      rintro rfl
      exact hji (hone j hj)
    obtain ⟨hclosed, honly⟩ := h.held j t hj ht
    exact ⟨(hcount t hts).trans hclosed, fun k hk => honly k (hold hk).2⟩
  · intro t hlt ht hnone
    by_cases hts : t = s
    · rw [hts, l.timesClosed_close_self, hzero]
    · rw [hcount t hts]
      refine h.released t hlt ht fun j hj => hnone j ?_
      rw [update_of_ne]
      · exact hj
      · rintro rfl
        exact hts (Option.some.inj (hj.symm.trans hi))

end Accounted

end ServiceConsumers.ResourceLedgers
