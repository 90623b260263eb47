import Mathlib.Data.Multiset.ZeroCons
import Mathlib.Data.Multiset.MapFold

set_option autoImplicit false

/-!
# Lists that are matched by taking equal elements out

Each element of one list takes the first element that is equal to it out of a copy of another.
When to be equal is an equivalence, it does not matter which of the equal elements goes.
-/

namespace ServiceConsumers.GreedyMatching

variable {α : Type} (equal : α → α → Bool)

/-- Removes the first element of the copy that compares equal. -/
def removeEqual (x : α) : List α → Option (List α)
  | [] => none
  | y :: ys => if equal x y then some ys else (removeEqual x ys).map fun rest => y :: rest

/-- Every element of `a` takes an equal one out of the copy of `b`. -/
def matchAll : List α → List α → Bool
  | [], _ => true
  | x :: xs, ys =>
      match removeEqual equal x ys with
      | none => false
      | some rest => matchAll xs rest

/-! ## Comparisons of any kind -/

theorem matchAll_map (left right : α → α) (h : ∀ x, equal (left x) (right x) = true) (xs : List α) :
    matchAll equal (xs.map left) (xs.map right) = true := by
  induction xs with
  | nil => rfl
  | cons x xs ih =>
      simp only [List.map_cons, matchAll, removeEqual, h x, if_true]
      exact ih

theorem removeEqual_false (h : ∀ x y, equal x y = false) (x : α) (ys : List α) :
    removeEqual equal x ys = none := by
  induction ys with
  | nil => rfl
  | cons y ys ih =>
      rw [removeEqual, h x y]
      simp [ih]

variable {equal} {x : α} {xs ys rest : List α}

theorem removeEqual_eq_some (h : removeEqual equal x ys = some rest) :
    ∃ y, equal x y = true ∧ (ys : Multiset α) = y ::ₘ (rest : Multiset α) := by
  induction ys generalizing rest with
  | nil => cases h
  | cons y ys ih =>
      rw [removeEqual] at h
      split at h
      · rename_i hxy
        obtain rfl := Option.some.inj h
        exact ⟨y, hxy, rfl⟩
      · obtain ⟨rest', hrest, rfl⟩ := Option.map_eq_some_iff.1 h
        obtain ⟨z, hz, hys⟩ := ih hrest
        refine ⟨z, hz, ?_⟩
        rw [← Multiset.cons_coe, ← Multiset.cons_coe, hys, Multiset.cons_swap]

theorem removeEqual_eq_none : removeEqual equal x ys = none ↔ ∀ y ∈ ys, equal x y = false := by
  induction ys with
  | nil => exact iff_of_true rfl nofun
  | cons y ys ih =>
      rw [removeEqual, List.forall_mem_cons, ← ih]
      cases equal x y <;> simp

/-- Lists of one length that match can be paired. -/
theorem rel_of_matchAll (hlength : xs.length = ys.length) (h : matchAll equal xs ys = true) :
    Multiset.Rel (fun x y => equal x y = true) (xs : Multiset α) (ys : Multiset α) := by
  induction xs generalizing ys with
  | nil =>
      rw [List.eq_nil_of_length_eq_zero hlength.symm]
      exact .zero
  | cons x xs ih =>
      rw [matchAll] at h
      split at h
      · cases h
      · rename_i rest hrest
        obtain ⟨y, hxy, hys⟩ := removeEqual_eq_some hrest
        have hcard := congrArg Multiset.card hys
        rw [Multiset.coe_card, Multiset.card_cons, Multiset.coe_card] at hcard
        rw [← Multiset.cons_coe, hys]
        refine .cons hxy (ih ?_ h)
        rw [List.length_cons] at hlength
        omega

/-! ## Comparisons that are equivalences -/

section Classes

variable {s : Setoid α} (hequal : ∀ x y, equal x y = true ↔ s x y)

/-- The classes of the elements, each as often as it occurs. -/
def classes (s : Setoid α) (xs : List α) : Multiset (Quotient s) :=
  (xs : Multiset α).map (Quotient.mk s)

theorem classes_map {copy : α → α} (hcopy : ∀ x, s (copy x) x) (xs : List α) :
    classes s (xs.map copy) = classes s xs := by
  rw [classes, classes, ← Multiset.map_coe, Multiset.map_map]
  exact Multiset.map_congr rfl fun x _ => Quotient.sound (hcopy x)

theorem classes_cons : classes s (x :: xs) = Quotient.mk s x ::ₘ classes s xs := by
  rw [classes, ← Multiset.cons_coe, Multiset.map_cons]
  rfl

include hequal

/-- Elements can be paired exactly when their classes are the same. -/
theorem rel_iff_classes : Multiset.Rel (fun x y => equal x y = true) (xs : Multiset α)
    (ys : Multiset α) ↔ classes s xs = classes s ys := by
  have hclass : (fun x y => equal x y = true) =
      fun x y => Quotient.mk s x = Quotient.mk s y := by
    funext x y
    exact propext ((hequal x y).trans Quotient.eq.symm)
  rw [hclass, ← Multiset.rel_map, Multiset.rel_eq]
  rfl

/-- An element finds its equal when its class is among those of the list, and takes one such
class out. -/
theorem matchAll_of_classes (h : classes s xs = classes s ys) : matchAll equal xs ys = true := by
  induction xs generalizing ys with
  | nil => rfl
  | cons x xs ih =>
      rw [classes_cons] at h
      rw [matchAll]
      cases hremove : removeEqual equal x ys with
      | none =>
          have hmem : Quotient.mk s x ∈ classes s ys := h ▸ Multiset.mem_cons_self _ _
          obtain ⟨y, hy, heq⟩ := Multiset.mem_map.1 hmem
          have hne := removeEqual_eq_none.1 hremove y hy
          rw [(hequal x y).2 (Quotient.exact heq.symm)] at hne
          cases hne
      | some rest =>
          obtain ⟨y, hxy, hys⟩ := removeEqual_eq_some hremove
          have hy : Quotient.mk s x = Quotient.mk s y := Quotient.sound ((hequal x y).1 hxy)
          rw [classes, classes, hys, Multiset.map_cons, hy, Multiset.cons_inj_right] at h
          exact ih h

/-- The matching finds a pairing exactly when there is one. -/
theorem matchAll_iff_classes : (xs.length == ys.length && matchAll equal xs ys) = true ↔
    classes s xs = classes s ys := by
  rw [Bool.and_eq_true, beq_iff_eq]
  constructor
  · rintro ⟨hlength, hmatch⟩
    exact (rel_iff_classes hequal).1 (rel_of_matchAll hlength hmatch)
  · intro h
    have hcard := congrArg Multiset.card h
    rw [classes, classes, Multiset.card_map, Multiset.card_map] at hcard
    exact ⟨hcard, matchAll_of_classes hequal h⟩

end Classes

end ServiceConsumers.GreedyMatching
