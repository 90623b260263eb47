import Mathlib.Data.Option.Basic

set_option autoImplicit false

/-!
# Texts that may be missing

A missing text is a null pointer, which `strcmp` must not be given.
-/

namespace ServiceConsumers.OptionalTexts

/-- Whether `strcmp` tells two texts apart. -/
def strcmp : Option String → Option String → Option Bool
  | some s, some t => some (s != t)
  | _, _ => none

/-- `!(x && strcmp(x, y))`. -/
def stringAgrees (x y : Option String) : Option Bool :=
  if x.isSome then (strcmp x y).map not else some true

/-- The presence of two texts is compared, and then the texts. -/
def stringEqual (x y : Option String) : Option Bool :=
  if x.isSome = y.isSome then stringAgrees x y else some false

variable {x y : Option String}

/-- Texts that are there on both sides or on neither can be compared. -/
theorem stringAgrees_of_presence (h : x.isSome = y.isSome) : stringAgrees x y = some (x == y) := by
  cases x with
  | none =>
      cases y with
      | none => rfl
      | some t => cases h
  | some s =>
      cases y with
      | none => cases h
      | some t => simp [stringAgrees, strcmp, bne]

theorem stringEqual_eq (x y : Option String) : stringEqual x y = some (x == y) := by
  unfold stringEqual
  split
  · rename_i h
    exact stringAgrees_of_presence h
  · rename_i h
    have hne : x ≠ y := fun heq => h (heq ▸ rfl)
    rw [beq_eq_false_iff_ne.2 hne]

theorem allM_stringAgrees {fs : List (Option String × Option String)}
    (h : ∀ f ∈ fs, f.1.isSome = f.2.isSome) :
    (fs.allM fun f => stringAgrees f.1 f.2) = some (fs.all fun f => f.1 == f.2) := by
  induction fs with
  | nil => rfl
  | cons f fs ih =>
      obtain ⟨hf, hfs⟩ := List.forall_mem_cons.1 h
      rw [List.allM, stringAgrees_of_presence hf, List.all_cons]
      cases hxy : f.1 == f.2
      · rfl
      · exact ih hfs

end ServiceConsumers.OptionalTexts
