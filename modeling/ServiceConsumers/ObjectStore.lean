import Mathlib.Data.List.Basic

set_option autoImplicit false

/-!
# Stores of heap objects

A store maps references to the objects that are allocated there; a freed or never
allocated reference holds nothing.
-/

namespace ServiceConsumers.ObjectStore

abbrev Ref := ℕ

def Store (α : Type) := Ref → Option α

namespace Store

variable {α : Type} (h : Store α) (r q : Ref)

def empty : Store α := fun _ => none

def set (x : α) : Store α := fun q => if q = r then some x else h q

def free : Store α := fun q => if q = r then none else h q

/-- Writing through a reference; a write to freed memory changes no live object. -/
def modify (f : α → α) : Store α := fun q => if q = r then (h r).map f else h q

@[simp] theorem empty_apply : (empty : Store α) r = none := rfl

@[simp] theorem set_self (x : α) : h.set r x r = some x := by
  simp [set]

theorem set_of_ne {x : α} (hq : q ≠ r) : h.set r x q = h q := by
  simp [set, hq]

@[simp] theorem free_self : h.free r r = none := by
  simp [free]

theorem free_of_ne (hq : q ≠ r) : h.free r q = h q := by
  simp [free, hq]

@[simp] theorem modify_self (f : α → α) : h.modify r f r = (h r).map f := by
  simp [modify]

theorem modify_of_ne {f : α → α} (hq : q ≠ r) : h.modify r f q = h q := by
  simp [modify, hq]

theorem set_apply (x : α) : h.set r x q = if q = r then some x else h q := rfl

theorem free_apply : h.free r q = if q = r then none else h q := rfl

theorem modify_apply (f : α → α) :
    h.modify r f q = if q = r then (h q).map f else h q := by
  by_cases hq : q = r
  · subst hq; simp
  · simp [modify_of_ne _ _ _ hq, hq]

/-- An object that is live after a write was live before it. -/
theorem isSome_modify (f : α → α) : (h.modify r f q).isSome = (h q).isSome := by
  rw [modify_apply]
  split <;> simp

/-- Writing to an object that was just set up. -/
theorem modify_set (x : α) (f : α → α) : (h.set r x).modify r f = h.set r (f x) := by
  funext q
  by_cases hq : q = r
  · subst hq
    simp
  · rw [modify_of_ne _ _ _ hq, set_of_ne _ _ _ hq, set_of_ne _ _ _ hq]

variable {h r q}

/-- An object that is live after another one was freed was live before. -/
theorem isSome_of_free (hq : (h.free r q).isSome) : (h q).isSome := by
  rw [free_apply] at hq
  split at hq
  · cases hq
  · exact hq

end Store

end ServiceConsumers.ObjectStore
