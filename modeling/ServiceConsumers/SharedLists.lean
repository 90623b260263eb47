import ServiceConsumers.LinkedLists

set_option autoImplicit false

/-!
# Several lists over the same members

The headers and the members of all lists are places that hold neighbours. A removal is told
the header of the list, which need not be the list that the member is in.
-/

namespace ServiceConsumers.SharedLists

open Function LinkedLists

variable {H α : Type} [DecidableEq H] [DecidableEq α]

/-- The neighbours that headers and members hold. -/
structure SharedLinks (H α : Type) where
  next : H ⊕ α → Option α
  prev : H ⊕ α → Option α

/-- The place of a neighbour in a list: at its end this is the header. -/
def place (h : H) : Option α → H ⊕ α
  | none => .inl h
  | some n => .inr n

namespace SharedLinks

/-- One of the lists. -/
def view (l : SharedLinks H α) (h : H) : Links α where
  next p := l.next (place h p)
  prev p := l.prev (place h p)

/-- `ogs_list_remove`, given the header of a list. -/
def remove (l : SharedLinks H α) (h : H) (n : α) : SharedLinks H α where
  next := update l.next (place h (l.prev (.inr n))) (l.next (.inr n))
  prev := update l.prev (place h (l.next (.inr n))) (l.prev (.inr n))

/-- `ogs_list_for_each_safe` from a member on, for at most so many members, where each member
is removed from the list of a header. -/
def drain (h : H) : ℕ → SharedLinks H α → Option α → Option (SharedLinks H α × List α)
  | _, l, none => some (l, [])
  | 0, _, some _ => none
  | fuel + 1, l, some n =>
      (drain h fuel (l.remove h n) (l.next (.inr n))).map fun (l, ns) => (l, n :: ns)

end SharedLinks

open SharedLinks

variable {l l' : SharedLinks H α} {h h' : H} {n : α} {ns : List α}

omit [DecidableEq H] [DecidableEq α] in
theorem place_injective (h : H) : Injective (place h : Option α → H ⊕ α) := by
  intro p q heq
  cases p <;> cases q <;> simp_all [place]

omit [DecidableEq H] [DecidableEq α] in
/-- A list depends on its header and its members only. -/
theorem holds_view_congr (hl : (l.view h).Holds ns)
    (hnext : ∀ p, p = .inl h ∨ (∃ n ∈ ns, p = .inr n) → l'.next p = l.next p)
    (hprev : ∀ p, p = .inl h ∨ (∃ n ∈ ns, p = .inr n) → l'.prev p = l.prev p) :
    (l'.view h).Holds ns := by
  have hplace : ∀ p : Option α, (∀ n, p = some n → n ∈ ns) →
      place h p = .inl h ∨ ∃ n ∈ ns, place h p = .inr n := by
    intro p hp
    cases p with
    | none => exact .inl rfl
    | some n => exact .inr ⟨n, hp n rfl, rfl⟩
  refine ⟨hl.nodup, fun pre post heq => ?_, fun pre post heq => ?_⟩
  · change l'.next (place h pre.getLast?) = post.head?
    rw [hnext _ (hplace _ fun n hn => heq ▸ List.mem_append_left post (List.mem_of_getLast? hn))]
    exact hl.next pre post heq
  · change l'.prev (place h post.head?) = pre.getLast?
    rw [hprev _ (hplace _ fun n hn => heq ▸ List.mem_append_right pre (List.mem_of_head? hn))]
    exact hl.prev pre post heq

/-! ## Draining -/

/-- From a member on the next members are these. -/
inductive Walk (l : SharedLinks H α) : Option α → List α → Prop
  | nil : Walk l none []
  | cons (n : α) (ns : List α) : Walk l (l.next (.inr n)) ns → Walk l (some n) (n :: ns)

omit [DecidableEq H] [DecidableEq α] in
theorem Walk.congr {p : Option α} (hw : Walk l p ns)
    (hnext : ∀ n ∈ ns, l'.next (.inr n) = l.next (.inr n)) : Walk l' p ns := by
  induction hw with
  | nil => exact .nil
  | cons n ns _ ih =>
      refine .cons n ns ?_
      rw [hnext n List.mem_cons_self]
      exact ih fun m hm => hnext m (List.mem_cons_of_mem n hm)

omit [DecidableEq H] [DecidableEq α] in
theorem walk_of_holds (hl : (l.view h).Holds ns) : Walk l (l.next (.inl h)) ns := by
  have hwalk : ∀ pre post, ns = pre ++ post → Walk l post.head? post := by
    intro pre post heq
    induction post generalizing pre with
    | nil => exact .nil
    | cons n post ih =>
        have hnext := hl.next (pre ++ [n]) post (by simp [heq])
        rw [List.getLast?_concat] at hnext
        refine .cons n post ?_
        rw [show l.next (.inr n) = post.head? from hnext]
        exact ih (pre ++ [n]) (by simp [heq])
  have hfirst := hl.next [] ns rfl
  rw [show l.next (.inl h) = ns.head? from hfirst]
  exact hwalk [] ns rfl

/-- Wherever a list is drained from its first member on, all its members are visited. Only the
header that is named and the members themselves are written to. -/
theorem drain_of_walk {p : Option α} (hw : Walk l p ns) (hnodup : ns.Nodup)
    (hfirst : ∀ n, p = some n → l.prev (.inr n) = none) :
    ∃ l', drain h ns.length l p = some (l', ns) ∧
      (∀ q, q ≠ .inl h → l'.next q = l.next q) ∧
      ∀ q, q ≠ .inl h → (∀ n ∈ ns, q ≠ .inr n) → l'.prev q = l.prev q := by
  induction ns generalizing l p with
  | nil =>
      cases hw
      exact ⟨l, rfl, fun _ _ => rfl, fun _ _ _ => rfl⟩
  | cons n ns ih =>
      cases hw with
      | cons _ _ hrest =>
      obtain ⟨hn, hns⟩ := List.nodup_cons.1 hnodup
      -- the first member has no neighbour before it, so the named header takes its next one
      have hnext : ∀ q, q ≠ .inl h → (l.remove h n).next q = l.next q := by
        intro q hq
        have hheader : place h (l.prev (.inr n)) = .inl h := by rw [hfirst n rfl]; rfl
        exact update_of_ne (hheader ▸ hq) _ _
      have hprev : ∀ q, q ≠ place h (l.next (.inr n)) → (l.remove h n).prev q = l.prev q :=
        fun q hq => update_of_ne hq _ _
      have hmember : ∀ m, l.next (.inr n) = some m → m ∈ ns := by
        intro m hm
        rw [hm] at hrest
        cases hrest with
        | cons _ ns _ => exact List.mem_cons_self
      obtain ⟨l', hdrain, hkeep, hkeep'⟩ := ih (l := l.remove h n)
        (hrest.congr fun m _ => hnext _ Sum.inr_ne_inl) hns (by
          intro m hm
          have hplace : (.inr m : H ⊕ α) = place h (l.next (.inr n)) := by rw [hm]; rfl
          rw [hplace]
          exact (update_self _ _ _).trans (hfirst n rfl))
      refine ⟨l', ?_, fun q hq => (hkeep q hq).trans (hnext q hq), fun q hq hmem => ?_⟩
      · rw [List.length_cons, drain, hdrain]
        rfl
      · rw [hkeep' q hq fun m hm => hmem m (List.mem_cons_of_mem n hm)]
        refine hprev q fun heq => ?_
        cases hlink : l.next (.inr n) with
        | none => exact hq (by rw [heq, hlink]; rfl)
        | some m =>
            exact hmem m (List.mem_cons_of_mem n (hmember m hlink)) (by rw [heq, hlink]; rfl)

omit [DecidableEq H] [DecidableEq α] in
/-- The first member of a list has none before it. -/
theorem prev_of_first (hl : (l.view h).Holds ns) (hn : l.next (.inl h) = some n) :
    l.prev (.inr n) = none := by
  have hfirst : l.next (.inl h) = ns.head? := hl.next [] ns rfl
  have hprev := hl.prev [] ns rfl
  rw [← hfirst, hn] at hprev
  exact hprev

/-- A list is drained from its header on. -/
theorem drain_of_holds (hl : (l.view h').Holds ns) :
    ∃ l', drain h ns.length l (l.next (.inl h')) = some (l', ns) ∧
      (∀ q, q ≠ .inl h → l'.next q = l.next q) ∧
      ∀ q, q ≠ .inl h → (∀ n ∈ ns, q ≠ .inr n) → l'.prev q = l.prev q :=
  drain_of_walk (walk_of_holds hl) hl.nodup fun _ hn => prev_of_first hl hn

end ServiceConsumers.SharedLists
