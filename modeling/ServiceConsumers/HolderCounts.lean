import Mathlib.Algebra.Group.Pi.Basic
import Mathlib.Algebra.Order.Ring.Int
import Mathlib.Data.Nat.Count
import ServiceConsumers.ObjectStore

set_option autoImplicit false

/-!
# Counting the holders of a reference

The objects of a store may each hold one reference. A reference count is compared with the
number of the objects below a bound that hold the reference.
-/

namespace ServiceConsumers.HolderCounts

open ObjectStore

/-- What one holder counts for. -/
def share (a : Option Ref) (o : Ref) : ℕ := if a = some o then 1 else 0

@[simp] theorem share_none (o : Ref) : share none o = 0 := rfl

theorem share_self (o : Ref) : share (some o) o = 1 := if_pos rfl

theorem share_of_ne {a : Option Ref} {o : Ref} (h : a ≠ some o) : share a o = 0 := if_neg h

section Below

variable {α : Type} (field : α → Option Ref)

/-- How many objects below `n` hold `o`. -/
def holdersBelow (h : Store α) (n : ℕ) (o : Ref) : ℕ :=
  Nat.count (fun q => (h q).bind field = some o) n

variable {field} {h h' : Store α} {n m : ℕ} {r o : Ref}

theorem holdersBelow_congr (heq : ∀ q < n, (h' q).bind field = (h q).bind field) :
    holdersBelow field h' n o = holdersBelow field h n o := by
  unfold holdersBelow
  induction n with
  | zero => rfl
  | succ n ih =>
      rw [Nat.count_succ, Nat.count_succ, ih fun q hq => heq q (Nat.lt_succ_of_lt hq),
        heq n (Nat.lt_succ_self n)]

/-- Nothing is counted where nothing is allocated. -/
theorem holdersBelow_of_le (hnm : n ≤ m) (hfree : ∀ q, n ≤ q → h q = none) :
    holdersBelow field h m o = holdersBelow field h n o := by
  unfold holdersBelow
  induction m with
  | zero =>
      obtain rfl : n = 0 := Nat.le_zero.1 hnm
      rfl
  | succ m ih =>
      rcases Nat.lt_or_eq_of_le hnm with hlt | rfl
      · have hm : ¬(h m).bind field = some o := by
          rw [hfree m (Nat.le_of_lt_succ hlt)]
          simp
        rw [Nat.count_succ, if_neg hm, ih (Nat.le_of_lt_succ hlt), Nat.add_zero]
      · rfl

/-- One object changes hands: what it held is given up, what it holds now is taken. -/
theorem holdersBelow_change (hr : r < n)
    (heq : ∀ q, q ≠ r → (h' q).bind field = (h q).bind field) :
    (holdersBelow field h' n o : ℤ) =
      holdersBelow field h n o - share ((h r).bind field) o + share ((h' r).bind field) o := by
  induction n with
  | zero => exact absurd hr (Nat.not_lt_zero r)
  | succ n ih =>
      have hold : holdersBelow field h (n + 1) o =
          holdersBelow field h n o + if (h n).bind field = some o then 1 else 0 :=
        Nat.count_succ _ n
      have hnew : holdersBelow field h' (n + 1) o =
          holdersBelow field h' n o + if (h' n).bind field = some o then 1 else 0 :=
        Nat.count_succ _ n
      rcases Nat.lt_or_eq_of_le (Nat.le_of_lt_succ hr) with hlt | rfl
      · rw [hold, hnew, heq n (Nat.ne_of_gt hlt)]
        push_cast
        rw [ih hlt]
        omega
      · have hbelow : holdersBelow field h' r o = holdersBelow field h r o :=
          holdersBelow_congr fun q hq => heq q (Nat.ne_of_lt hq)
        rw [hold, hnew, hbelow]
        unfold share
        push_cast
        omega

theorem holdersBelow_pos (hr : r < n) (hholds : (h r).bind field = some o) :
    0 < holdersBelow field h n o := by
  induction n with
  | zero => exact absurd hr (Nat.not_lt_zero r)
  | succ n ih =>
      have hsucc : holdersBelow field h (n + 1) o =
          holdersBelow field h n o + if (h n).bind field = some o then 1 else 0 :=
        Nat.count_succ _ n
      rcases Nat.lt_or_eq_of_le (Nat.le_of_lt_succ hr) with hlt | rfl
      · have := ih hlt
        omega
      · rw [if_pos hholds] at hsucc
        omega

end Below

end ServiceConsumers.HolderCounts
