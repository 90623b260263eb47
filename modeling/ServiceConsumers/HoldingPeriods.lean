import Mathlib.Logic.Function.Basic
import Mathlib.Data.Fintype.Basic

set_option autoImplicit false

/-!
# Values that several slots hold

A run is a list of moments. In each of them a slot takes a value or lets one go, and a value
may be freed.
-/

namespace ServiceConsumers.HoldingPeriods

open Function

variable {ι D F : Type}

/-- Some slot holds the value. -/
def Holds (slots : ι → Option D) (d : D) : Prop := ∃ i, slots i = some d

instance [Fintype ι] [DecidableEq D] (slots : ι → Option D) (d : D) : Decidable (Holds slots d) :=
  inferInstanceAs (Decidable (∃ i, slots i = some d))

structure Moment (ι D F : Type) where
  before : ι → Option D
  freed : Option (F × D)
  after : ι → Option D

/-- A run from one content of the slots to another. -/
def Chained : (ι → Option D) → List (Moment ι D F) → (ι → Option D) → Prop
  | slots, [], last => slots = last
  | slots, m :: ms, last => m.before = slots ∧ Chained m.after ms last

theorem Chained.append {slots middle last : ι → Option D} {ms ns : List (Moment ι D F)}
    (hm : Chained slots ms middle) (hn : Chained middle ns last) :
    Chained slots (ms ++ ns) last := by
  induction ms generalizing slots with
  | nil =>
      cases hm
      exact hn
  | cons m ms ih => exact ⟨hm.1, ih hm.2⟩

/-- What is freed is what no slot holds any longer, by the function that belongs to it. -/
def FreesWhatIsLetGo (free : D → Option F) (m : Moment ι D F) : Prop :=
  ∀ d f, m.freed = some (f, d) ↔ Holds m.before d ∧ ¬ Holds m.after d ∧ free d = some f

section Slots

variable [DecidableEq ι] {slots : ι → Option D} {i : ι} {d : D}

theorem holds_update_iff {v : Option D} :
    Holds (update slots i v) d ↔ v = some d ∨ ∃ j, j ≠ i ∧ slots j = some d := by
  constructor
  · rintro ⟨j, hj⟩
    by_cases h : j = i
    · subst h
      rw [update_self] at hj
      exact .inl hj
    · rw [update_of_ne h] at hj
      exact .inr ⟨j, h, hj⟩
  · rintro (h | ⟨j, h, hj⟩)
    · exact ⟨i, by rw [update_self, h]⟩
    · exact ⟨j, by rw [update_of_ne h, hj]⟩

/-- A value is let go when its last slot is emptied. -/
theorem letGo_iff : Holds slots d ∧ ¬ Holds (update slots i none) d ↔
    slots i = some d ∧ ∀ j, j ≠ i → slots j ≠ some d := by
  rw [holds_update_iff]
  constructor
  · rintro ⟨⟨j, hj⟩, hgone⟩
    have hothers : ∀ j, j ≠ i → slots j ≠ some d := fun j h hj => hgone (.inr ⟨j, h, hj⟩)
    refine ⟨?_, hothers⟩
    by_cases h : j = i
    · rw [← h, hj]
    · exact absurd hj (hothers j h)
  · rintro ⟨hi, hothers⟩
    refine ⟨⟨i, hi⟩, ?_⟩
    rintro (h | ⟨j, h, hj⟩)
    · cases h
    · exact hothers j h hj

/-- Writing to a slot that is empty, or what it holds already, lets nothing go. -/
theorem holds_update_of_holds {v : Option D} (hv : slots i = none ∨ slots i = v)
    (h : Holds slots d) : Holds (update slots i v) d := by
  obtain ⟨j, hj⟩ := h
  rw [holds_update_iff]
  by_cases heq : j = i
  · subst heq
    rcases hv with hv | hv
    · rw [hv] at hj
      cases hj
    · exact .inl (hv ▸ hj)
  · exact .inr ⟨j, heq, hj⟩

end Slots

section Periods

variable [Fintype ι] [DecidableEq D] [DecidableEq F]

/-- The number of maximal periods of a run in which some slot holds the value; `held` says
whether one did before it. -/
def periods (d : D) : Bool → List (Moment ι D F) → ℕ
  | _, [] => 0
  | held, m :: ms =>
      (if held = false ∧ Holds m.after d then 1 else 0) + periods d (decide (Holds m.after d)) ms

/-- How often a value was passed to a function. -/
def timesFreed (f : F) (d : D) (ms : List (Moment ι D F)) : ℕ :=
  ms.countP fun m => m.freed = some (f, d)

/-- Every period that has ended was ended by one call. -/
theorem timesFreed_add {free : D → Option F} {f : F} {d : D} (hf : free d = some f)
    {ms : List (Moment ι D F)} {slots last : ι → Option D} (hrun : Chained slots ms last)
    (hms : ∀ m ∈ ms, FreesWhatIsLetGo free m) :
    timesFreed f d ms + (if Holds last d then 1 else 0) =
      periods d (decide (Holds slots d)) ms + (if Holds slots d then 1 else 0) := by
  induction ms generalizing slots with
  | nil =>
      cases hrun
      rfl
  | cons m ms ih =>
      obtain ⟨rfl, hrest⟩ := hrun
      have hm := hms m List.mem_cons_self d f
      have htail := ih hrest fun n hn => hms n (List.mem_cons_of_mem m hn)
      rw [timesFreed, List.countP_cons, periods]
      rw [timesFreed] at htail
      by_cases hbefore : Holds m.before d <;> by_cases hafter : Holds m.after d <;>
        simp only [hbefore, hafter, hf, not_true, not_false_iff, and_true, true_and, false_and,
          iff_true, iff_false] at hm <;>
        simp only [hbefore, hafter, hm, if_true, if_false, decide_true, decide_false, and_true,
          and_false, reduceCtorEq, Bool.false_eq_true] at htail ⊢ <;>
        omega

/-- Between two moments at which no slot holds it, a value is freed once for each period. -/
theorem timesFreed_eq_periods {free : D → Option F} {f : F} {d : D} (hf : free d = some f)
    {ms : List (Moment ι D F)} {slots last : ι → Option D} (hrun : Chained slots ms last)
    (hms : ∀ m ∈ ms, FreesWhatIsLetGo free m) (hfirst : ¬ Holds slots d) (hlast : ¬ Holds last d) :
    timesFreed f d ms = periods d false ms := by
  have h := timesFreed_add hf hrun hms
  rw [if_neg hfirst, if_neg hlast, decide_eq_false hfirst] at h
  exact h

end Periods

end ServiceConsumers.HoldingPeriods
