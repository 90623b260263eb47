import Mathlib.Data.Int.Notation
import Mathlib.Data.List.Basic
import Mathlib.Data.List.InsertIdx
import Mathlib.Data.List.Nodup

set_option autoImplicit false

/-!
# Keyed tables

A table is listed in the order its iterator visits it. Setting a new key puts the
entry at a position of the caller's choice, so that no iteration order is assumed;
setting a key that is present replaces the value in place.
-/

namespace ServiceConsumers.KeyedTable

variable {κ α : Type} [DecidableEq κ]

abbrev Table (κ α : Type) := List (κ × α)

namespace Table

def keys (t : Table κ α) : List κ := t.map Prod.fst

def set (t : Table κ α) (slot : ℕ) (k : κ) (v : α) : Table κ α :=
  if k ∈ keys t then t.map fun e => if e.1 = k then (k, v) else e
  else t.insertIdx (min slot t.length) (k, v)

def erase (t : Table κ α) (k : κ) : Table κ α := t.filter fun e => e.1 ≠ k

/-- Visits the entries in turn until the callback returns zero, which ends the visit. -/
def visit {ρ : Type} (callback : ρ → κ → α → ρ × ℤ) : ρ → Table κ α → ρ × ℤ
  | r, [] => (r, 1)
  | r, e :: t =>
      if (callback r e.1 e.2).2 = 0 then callback r e.1 e.2
      else visit callback (callback r e.1 e.2).1 t

omit [DecidableEq κ] in
/-- A visit whose callback stops at the values with a property, and keeps its record at the
others, is a search. -/
theorem visit_eq_find {ρ : Type} (callback : ρ → κ → α → ρ × ℤ) (p : α → Bool) (hit : α → ρ)
    (hhit : ∀ r k v, p v = true → callback r k v = (hit v, 0))
    (hmiss : ∀ r k v, p v = false → callback r k v = (r, 1)) (r : ρ) (t : Table κ α) :
    visit callback r t =
      ((t.map Prod.snd).find? p).elim (r, 1) fun v => (hit v, 0) := by
  induction t with
  | nil => rfl
  | cons e t ih =>
      cases hp : p e.2 with
      | true => simp [visit, hhit r e.1 e.2 hp, hp]
      | false => simpa [visit, hmiss r e.1 e.2 hp, hp] using ih

theorem mem_erase {t : Table κ α} {k : κ} {e : κ × α} :
    e ∈ erase t k ↔ e ∈ t ∧ e.1 ≠ k := by
  simp [erase]

theorem keys_nodup_erase {t : Table κ α} {k : κ} (h : (keys t).Nodup) :
    (keys (erase t k)).Nodup :=
  h.sublist (List.filter_sublist.map Prod.fst)

omit [DecidableEq κ] in
theorem eq_of_mem_of_mem {t : Table κ α} (h : (keys t).Nodup) {k : κ} {u v : α}
    (hu : (k, u) ∈ t) (hv : (k, v) ∈ t) : u = v := by
  have := List.inj_on_of_nodup_map h hu hv rfl
  exact (Prod.mk.inj this).2

end Table

end ServiceConsumers.KeyedTable
