import Mathlib.Data.List.Nodup
import Mathlib.Logic.Function.Basic

set_option autoImplicit false

/-!
# Lists whose members hold their neighbours

The header of a list holds its first and last members, and each member the one after it and
the one before it. A member that is taken out keeps what it holds.
-/

namespace ServiceConsumers.LinkedLists

open Function

variable {α : Type} [DecidableEq α]

/-- The neighbours of the members; those of the header are at `none`. -/
structure Links (α : Type) where
  next : Option α → Option α
  prev : Option α → Option α

namespace Links

def empty : Links α := ⟨fun _ => none, fun _ => none⟩

/-- `ogs_list_add`, at the end of the list. -/
def add (l : Links α) (n : α) : Links α where
  next := update (update l.next (some n) none) (l.prev none) (some n)
  prev := update (update l.prev (some n) (l.prev none)) none (some n)

/-- `ogs_list_remove`: the neighbours of the member are the ones it holds. -/
def remove (l : Links α) (n : α) : Links α where
  next := update l.next (l.prev (some n)) (l.next (some n))
  prev := update l.prev (l.next (some n)) (l.prev (some n))

/-- `ogs_list_for_each` after a member, for at most so many members. -/
def membersAfter (l : Links α) : ℕ → Option α → List α
  | 0, _ => []
  | fuel + 1, p =>
      match l.next p with
      | none => []
      | some a => a :: l.membersAfter fuel (some a)

/-- The list is well formed and has these members: wherever it is cut, the two ends hold each
other. -/
structure Holds (l : Links α) (xs : List α) : Prop where
  nodup : xs.Nodup
  next : ∀ pre post, xs = pre ++ post → l.next pre.getLast? = post.head?
  prev : ∀ pre post, xs = pre ++ post → l.prev post.head? = pre.getLast?

variable {l : Links α} {xs pre post : List α} {n : α}

omit [DecidableEq α] in
theorem holds_empty : Holds (empty : Links α) [] := by
  refine ⟨List.nodup_nil, fun pre post h => ?_, fun pre post h => ?_⟩
  · obtain ⟨rfl, rfl⟩ := List.append_eq_nil_iff.1 h.symm
    rfl
  · obtain ⟨rfl, rfl⟩ := List.append_eq_nil_iff.1 h.symm
    rfl

omit [DecidableEq α] in
/-- A list without duplicates is cut at most once after the same member. -/
theorem cut_after_unique {m : List α} (post' : List α) (h : (pre ++ (m ++ post')).Nodup)
    (hlast : (pre ++ m).getLast? = pre.getLast?) : m = [] := by
  rcases List.eq_nil_or_concat m with rfl | ⟨as, a, rfl⟩
  · rfl
  · rw [List.concat_eq_append, ← List.append_assoc, List.getLast?_concat] at hlast
    have hin : a ∈ pre := List.mem_of_getLast? hlast.symm
    have hout : a ∈ (as.concat a ++ post') := by simp
    exact absurd rfl ((List.nodup_append.1 h).2.2 a hin a hout)

omit [DecidableEq α] in
/-- A list without duplicates is cut at most once before the same member. -/
theorem cut_before_unique {m pre' : List α} (h : (pre' ++ m ++ post).Nodup)
    (hhead : (m ++ post).head? = post.head?) : m = [] := by
  cases m with
  | nil => rfl
  | cons a as =>
      have hin : a ∈ post := List.mem_of_head? (hhead.symm.trans rfl)
      exact absurd rfl ((List.nodup_append.1 h).2.2 a (by simp) a hin)

omit [DecidableEq α] in
theorem Holds.neighbours (h : Holds l (pre ++ n :: post)) :
    l.prev (some n) = pre.getLast? ∧ l.next (some n) = post.head? := by
  have hnext := h.next (pre ++ [n]) post (List.append_assoc pre [n] post).symm
  rw [List.getLast?_concat] at hnext
  exact ⟨h.prev pre (n :: post) rfl, hnext⟩

/-- Taking a member out of a list keeps the rest. -/
theorem Holds.remove (h : Holds l (pre ++ n :: post)) : Holds (l.remove n) (pre ++ post) := by
  obtain ⟨hprev, hnext⟩ := h.neighbours
  have hnodup : (pre ++ post).Nodup :=
    h.nodup.sublist (List.Sublist.append_left (List.sublist_cons_self n post) pre)
  have hsame : ∀ {m : List α}, m ≠ [] → (pre ++ n :: m).getLast? = (pre ++ m).getLast? := by
    intro m hm
    rw [← List.singleton_append, ← List.append_assoc, List.getLast?_append_of_ne_nil _ hm,
      List.getLast?_append_of_ne_nil _ hm]
  refine ⟨hnodup, fun pre' post' heq => ?_, fun pre' post' heq => ?_⟩
  · change update l.next (l.prev (some n)) (l.next (some n)) pre'.getLast? = post'.head?
    rw [hprev, hnext]
    rcases List.append_eq_append_iff.1 heq with ⟨m, rfl, rfl⟩ | ⟨m, rfl, rfl⟩
    · by_cases hm : m = []
      · subst hm
        rw [List.append_nil, update_self, List.nil_append]
      · rw [update_of_ne fun hcut => hm (cut_after_unique post' hnodup hcut), ← hsame hm]
        exact h.next (pre ++ n :: m) post' (by simp)
    · by_cases hm : m = []
      · subst hm
        rw [List.append_nil, update_self, List.nil_append]
      · rw [List.append_assoc] at hnodup
        rw [update_of_ne fun hcut => hm (cut_after_unique _ hnodup hcut.symm),
          List.head?_append_of_ne_nil m hm, ← List.head?_append_of_ne_nil m hm]
        exact h.next pre' (m ++ n :: post) (List.append_assoc pre' m (n :: post))
  · change update l.prev (l.next (some n)) (l.prev (some n)) post'.head? = pre'.getLast?
    rw [hprev, hnext]
    rcases List.append_eq_append_iff.1 heq with ⟨m, rfl, rfl⟩ | ⟨m, rfl, rfl⟩
    · by_cases hm : m = []
      · subst hm
        rw [List.append_nil, List.nil_append, update_self]
      · rw [← List.append_assoc] at hnodup
        rw [update_of_ne fun hcut => hm (cut_before_unique hnodup hcut.symm), ← hsame hm]
        exact h.prev (pre ++ n :: m) post' (by simp)
    · by_cases hm : m = []
      · subst hm
        rw [List.append_nil, List.nil_append, update_self]
      · rw [update_of_ne fun hcut => hm (cut_before_unique hnodup hcut),
          List.head?_append_of_ne_nil m hm, ← List.head?_append_of_ne_nil m hm]
        exact h.prev pre' (m ++ n :: post) (List.append_assoc pre' m (n :: post))

/-- A member that is taken out keeps its neighbours. -/
theorem Holds.neighbours_remove (h : Holds l (pre ++ n :: post)) :
    (l.remove n).prev (some n) = pre.getLast? ∧ (l.remove n).next (some n) = post.head? := by
  obtain ⟨hprev, hnext⟩ := h.neighbours
  have hnodup := List.nodup_append.1 h.nodup
  constructor
  · change update l.prev (l.next (some n)) (l.prev (some n)) (some n) = pre.getLast?
    rw [hnext, update_of_ne, hprev]
    intro heq
    exact (List.nodup_cons.1 hnodup.2.1).1 (List.mem_of_head? heq.symm)
  · change update l.next (l.prev (some n)) (l.next (some n)) (some n) = post.head?
    rw [hprev, update_of_ne, hnext]
    intro heq
    exact hnodup.2.2 n (List.mem_of_getLast? heq.symm) n List.mem_cons_self rfl

/-- A new member comes last. -/
theorem Holds.add (h : Holds l xs) (hn : n ∉ xs) : Holds (l.add n) (xs ++ [n]) := by
  have hlast : l.prev none = xs.getLast? := h.prev xs [] (List.append_nil xs).symm
  have hmem : ∀ {ys : List α}, ys ⊆ xs → ys.getLast? ≠ some n ∧ ys.head? ≠ some n := by
    intro ys hys
    exact ⟨fun heq => hn (hys (List.mem_of_getLast? heq)),
      fun heq => hn (hys (List.mem_of_head? heq))⟩
  have hnodup : (xs ++ [n]).Nodup := by
    refine List.nodup_append.2 ⟨h.nodup, List.nodup_singleton n, fun a ha b hb heq => ?_⟩
    rw [List.mem_singleton.1 hb] at heq
    exact hn (heq ▸ ha)
  refine ⟨hnodup, fun pre post heq => ?_, fun pre post heq => ?_⟩
  · change update (update l.next (some n) none) (l.prev none) (some n) pre.getLast? = post.head?
    rw [hlast]
    rcases List.append_eq_append_iff.1 heq with ⟨m, rfl, hm⟩ | ⟨m, rfl, rfl⟩
    · rcases List.append_eq_singleton_iff.1 hm.symm with ⟨rfl, rfl⟩ | ⟨rfl, rfl⟩
      · rw [List.append_nil, update_self]
        rfl
      · rw [List.getLast?_concat, update_of_ne fun hcut => (hmem (List.Subset.refl xs)).1 hcut.symm,
          update_self]
        rfl
    · by_cases hm : m = []
      · subst hm
        rw [List.append_nil, update_self]
        rfl
      · rw [update_of_ne fun hcut => hm (cut_after_unique [] (by simpa using h.nodup) hcut.symm), update_of_ne (hmem (List.subset_append_left pre m)).1,
          List.head?_append_of_ne_nil m hm]
        exact h.next pre m rfl
  · change update (update l.prev (some n) (l.prev none)) none (some n) post.head? = pre.getLast?
    rw [hlast]
    rcases List.append_eq_append_iff.1 heq with ⟨m, rfl, hm⟩ | ⟨m, rfl, rfl⟩
    · rcases List.append_eq_singleton_iff.1 hm.symm with ⟨rfl, rfl⟩ | ⟨rfl, rfl⟩
      · rw [List.append_nil, List.head?_cons, update_of_ne (Option.some_ne_none n), update_self]
      · rw [List.head?_nil, update_self, List.getLast?_concat]
    · by_cases hm : m = []
      · subst hm
        rw [List.append_nil, List.nil_append, List.head?_cons,
          update_of_ne (Option.some_ne_none n), update_self]
      · have hhead : m.head? ≠ none := fun hnil => hm (List.head?_eq_none_iff.1 hnil)
        rw [List.head?_append_of_ne_nil m hm, update_of_ne hhead,
          update_of_ne (hmem (List.subset_append_right pre m)).2]
        exact h.prev pre m rfl

/-- A list that has no such member leaves what the member holds. -/
theorem Holds.neighbours_add {c : α} (h : Holds l xs) (hn : n ∉ xs) (hc : n ≠ c) :
    (l.add c).prev (some n) = l.prev (some n) ∧ (l.add c).next (some n) = l.next (some n) := by
  have hlast : l.prev none = xs.getLast? := h.prev xs [] (List.append_nil xs).symm
  have hnlast : some n ≠ l.prev none := fun heq =>
    hn (List.mem_of_getLast? (hlast.symm.trans heq.symm))
  have hne : some n ≠ some c := fun heq => hc (Option.some.inj heq)
  constructor
  · change update (update l.prev (some c) (l.prev none)) none (some c) (some n) = _
    rw [update_of_ne (Option.some_ne_none n), update_of_ne hne]
  · change update (update l.next (some c) none) (l.prev none) (some c) (some n) = _
    rw [update_of_ne hnlast, update_of_ne hne]

section Again

variable (hprev : l.prev (some n) = pre.getLast?)
  (hnext : l.next (some n) = post.head?)

include hprev hnext

/-- Taking a member out again does nothing while its neighbours are still neighbours. -/
theorem Holds.remove_again (added : List α) (h : Holds l (pre ++ (post ++ added)))
    (hstill : post ≠ [] ∨ added = []) : l.remove n = l := by
  have hhead : (post ++ added).head? = post.head? := by
    rcases hstill with hpost | rfl
    · exact List.head?_append_of_ne_nil post hpost
    · rw [List.append_nil]
  have hn := h.next pre (post ++ added) rfl
  have hp := h.prev pre (post ++ added) rfl
  rw [hhead] at hn hp
  rw [Links.remove, hprev, hnext, ← hn, update_eq_self, hn, ← hp, update_eq_self]

/-- Taking the last member out again cuts off what was added in between. -/
theorem Holds.remove_last_again (added : List α) (h : Holds l (pre ++ added)) (hpost : post = []) :
    Holds (l.remove n) pre := by
  subst hpost
  have hhead : ∀ {m : List α}, m ≠ [] → (m ++ added).head? = m.head? := fun hm =>
    List.head?_append_of_ne_nil _ hm
  refine ⟨h.nodup.sublist (List.sublist_append_left pre added), fun pre' m heq => ?_,
    fun pre' m heq => ?_⟩
  · change update l.next (l.prev (some n)) (l.next (some n)) pre'.getLast? = m.head?
    rw [hprev, hnext]
    subst heq
    by_cases hm : m = []
    · subst hm
      rw [List.append_nil, update_self]
    · have hnodup := h.nodup
      rw [List.append_assoc] at hnodup
      rw [update_of_ne fun hcut => hm (cut_after_unique _ hnodup hcut.symm),
        ← hhead hm]
      exact h.next pre' (m ++ added) (List.append_assoc pre' m added)
  · change update l.prev (l.next (some n)) (l.prev (some n)) m.head? = pre'.getLast?
    rw [hprev, hnext]
    subst heq
    by_cases hm : m = []
    · subst hm
      rw [List.append_nil, List.head?_nil, update_self]
    · have hsome : m.head? ≠ none := fun hnil => hm (List.head?_eq_none_iff.1 hnil)
      rw [List.head?_nil, update_of_ne hsome, ← hhead hm]
      exact h.prev pre' (m ++ added) (List.append_assoc pre' m added)

end Again

omit [DecidableEq α] in
/-- A traversal with enough fuel visits the members in order. -/
theorem Holds.membersAfter {fuel : ℕ} (pre : List α) (h : Holds l (pre ++ post))
    (hfuel : post.length ≤ fuel) : l.membersAfter fuel pre.getLast? = post := by
  induction fuel generalizing pre post with
  | zero => rw [List.eq_nil_of_length_eq_zero (Nat.le_zero.1 hfuel), Links.membersAfter]
  | succ fuel ih =>
      have hnext := h.next pre post rfl
      cases post with
      | nil => rw [Links.membersAfter, hnext, List.head?_nil]
      | cons a as =>
          have hrest := ih (pre ++ [a]) (by simpa using h) (Nat.le_of_succ_le_succ hfuel)
          rw [List.getLast?_concat] at hrest
          simp only [Links.membersAfter, hnext, List.head?_cons, hrest]

omit [DecidableEq α] in
/-- What a list holds is determined by its links. -/
theorem Holds.unique {ys : List α} (h : Holds l xs) (h' : Holds l ys) : xs = ys := by
  have hx := Holds.membersAfter [] h (Nat.le_max_left xs.length ys.length)
  have hy := Holds.membersAfter [] h' (Nat.le_max_right xs.length ys.length)
  exact hx.symm.trans hy

end Links

end ServiceConsumers.LinkedLists
