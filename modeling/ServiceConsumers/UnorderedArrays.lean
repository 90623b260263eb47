import Mathlib.Data.List.Forall2
import Mathlib.Data.Multiset.MapFold
import ServiceConsumers.JsonDocuments

set_option autoImplicit false

/-!
# JSON values up to the order of arrays

Two objects are the same when each name leads to the same value in both.
-/

namespace ServiceConsumers.UnorderedArrays

open JsonDocuments

inductive UpToOrder : Json → Json → Prop
  | same (j : Json) : UpToOrder j j
  | arr {xs ys : List Json} : Multiset.Rel UpToOrder (xs : Multiset Json) (ys : Multiset Json) →
      UpToOrder (.arr xs) (.arr ys)
  | obj {ms ms' : Members} :
      (∀ name, Option.Rel UpToOrder (Members.lookup name ms) (Members.lookup name ms')) →
      UpToOrder (.obj ms) (.obj ms')

/-! ## Optional values -/

section Options

variable {α β : Type} {R : α → α → Prop}

theorem rel_refl (h : ∀ a, R a a) (x : Option α) : Option.Rel R x x := by
  cases x with
  | none => exact .none
  | some a => exact .some (h a)

theorem rel_map_iff {f : β → α} {x y : Option β} :
    Option.Rel R (x.map f) (y.map f) ↔ Option.Rel (fun b c => R (f b) (f c)) x y := by
  constructor
  · cases x <;> cases y
    · exact fun _ => .none
    · exact fun h => (by cases h)
    · exact fun h => (by cases h)
    · exact fun h => .some (Option.rel_some_some.1 h)
  · intro h
    cases h with
    | none => exact .none
    | some hbc => exact .some hbc

theorem rel_eq_map_iff {γ : Type} {f : α → γ} {x y : Option α} :
    Option.Rel (fun a b => f a = f b) x y ↔ x.map f = y.map f := by
  cases x <;> cases y
  · exact iff_of_true .none rfl
  · exact iff_of_false (fun h => by cases h) nofun
  · exact iff_of_false (fun h => by cases h) nofun
  · rw [Option.rel_some_some, Option.map_some, Option.map_some, Option.some.injEq]

end Options

/-! ## Members -/

theorem lookup_insert (name k : String) (v : Json) (ms : Members) :
    Members.lookup name (Members.insert k v ms) =
      if k = name then some v else Members.lookup name ms := by
  induction ms with
  | nil => rfl
  | cons m ms ih =>
      obtain ⟨k', u⟩ := m
      simp only [Members.insert]
      split
      · rfl
      · split
        · rename_i h
          subst h
          simp only [Members.lookup]
          split <;> rfl
        · rename_i hne
          simp only [Members.lookup, ih]
          by_cases hk : k' = name
          · rw [if_pos hk, if_pos hk, if_neg fun h => hne (h.trans hk.symm)]
          · rw [if_neg hk, if_neg hk]

theorem lookup_ofList_cons (name k : String) (v : Option Json) (l : List (String × Option Json)) :
    Members.lookup name (Members.ofList ((k, v) :: l)) =
      if k = name ∧ v.isSome then v else Members.lookup name (Members.ofList l) := by
  cases v with
  | none =>
      rw [if_neg fun h => Bool.false_ne_true h.2]
      rfl
  | some v =>
      rw [Members.ofList, lookup_insert]
      simp

theorem lookup_ofList_eq_none {name : String} {l : List (String × Option Json)}
    (h : name ∉ l.map Prod.fst) : Members.lookup name (Members.ofList l) = none := by
  induction l with
  | nil => rfl
  | cons m l ih =>
      obtain ⟨k, v⟩ := m
      rw [List.map_cons, List.mem_cons, not_or] at h
      rw [lookup_ofList_cons, if_neg fun hk => h.1 hk.1.symm]
      exact ih h.2

theorem lookup_ofList_self {k : String} {v : Option Json} {l : List (String × Option Json)}
    (h : Members.lookup k (Members.ofList l) = none) :
    Members.lookup k (Members.ofList ((k, v) :: l)) = v := by
  rw [lookup_ofList_cons, h]
  cases v <;> simp

/-- Two lists with the same names, each name once, are compared place by place. -/
theorem forall_lookup_iff {R : Json → Json → Prop} {l l' : List (String × Option Json)}
    (hnames : l.map Prod.fst = l'.map Prod.fst) (hnodup : (l.map Prod.fst).Nodup) :
    (∀ name, Option.Rel R (Members.lookup name (Members.ofList l))
        (Members.lookup name (Members.ofList l'))) ↔
      List.Forall₂ (fun m m' => Option.Rel R m.2 m'.2) l l' := by
  induction l generalizing l' with
  | nil =>
      rw [List.map_nil, eq_comm, List.map_eq_nil_iff] at hnames
      subst hnames
      exact iff_of_true (fun _ => .none) .nil
  | cons m l ih =>
      cases l' with
      | nil => cases hnames
      | cons m' l' =>
          obtain ⟨k, v⟩ := m
          obtain ⟨k', v'⟩ := m'
          simp only [List.map_cons, List.cons.injEq] at hnames
          obtain ⟨rfl, hnames⟩ := hnames
          rw [List.map_cons, List.nodup_cons] at hnodup
          have habsent := lookup_ofList_eq_none hnodup.1
          have habsent' := lookup_ofList_eq_none (hnames ▸ hnodup.1)
          rw [List.forall₂_cons, ← ih hnames hnodup.2]
          constructor
          · intro h
            refine ⟨?_, fun name => ?_⟩
            · have hk := h k
              rw [lookup_ofList_self habsent, lookup_ofList_self habsent'] at hk
              exact hk
            · by_cases hk : k = name
              · subst hk
                rw [habsent, habsent']
                exact .none
              · have hname := h name
                rw [lookup_ofList_cons, lookup_ofList_cons, if_neg fun h => hk h.1,
                  if_neg fun h => hk h.1] at hname
                exact hname
          · rintro ⟨hv, hrest⟩ name
            by_cases hk : k = name
            · subst hk
              rw [lookup_ofList_self habsent, lookup_ofList_self habsent']
              exact hv
            · rw [lookup_ofList_cons, lookup_ofList_cons, if_neg fun h => hk h.1,
                if_neg fun h => hk h.1]
              exact hrest name

/-! ## The relation -/

theorem upToOrder_str {s t : String} : UpToOrder (.str s) (.str t) ↔ s = t := by
  constructor
  · intro h
    cases h
    rfl
  · rintro rfl
    exact .same _

theorem upToOrder_arr {xs ys : List Json} : UpToOrder (.arr xs) (.arr ys) ↔
    Multiset.Rel UpToOrder (xs : Multiset Json) (ys : Multiset Json) := by
  constructor
  · intro h
    cases h with
    | same => exact Multiset.rel_refl_of_refl_on fun j _ => .same j
    | arr h => exact h
  · exact .arr

theorem upToOrder_obj {ms ms' : Members} : UpToOrder (.obj ms) (.obj ms') ↔
    ∀ name, Option.Rel UpToOrder (Members.lookup name ms) (Members.lookup name ms') := by
  constructor
  · intro h name
    cases h with
    | same => exact rel_refl .same _
    | obj h => exact h name
  · exact .obj

theorem upToOrder_ofList {l l' : List (String × Option Json)}
    (hnames : l.map Prod.fst = l'.map Prod.fst) (hnodup : (l.map Prod.fst).Nodup) :
    UpToOrder (.obj (Members.ofList l)) (.obj (Members.ofList l')) ↔
      List.Forall₂ (fun m m' => Option.Rel UpToOrder m.2 m'.2) l l' :=
  upToOrder_obj.trans (forall_lookup_iff hnames hnodup)

section Arrays

variable {α β : Type} {R : α → α → Prop}

/-- Elements that are written as texts are only permuted. -/
theorem rel_text_iff {f : α → β} {xs ys : List α} :
    Multiset.Rel (fun x y => f x = f y) (xs : Multiset α) (ys : Multiset α) ↔
      (xs.map f).Perm (ys.map f) := by
  rw [← Multiset.coe_eq_coe, ← Multiset.map_coe, ← Multiset.map_coe, ← Multiset.rel_eq,
    Multiset.rel_map]

theorem upToOrder_arr_map {toJson : α → Json} (h : ∀ x y, UpToOrder (toJson x) (toJson y) ↔ R x y)
    {xs ys : List α} : UpToOrder (.arr (xs.map toJson)) (.arr (ys.map toJson)) ↔
      Multiset.Rel R (xs : Multiset α) (ys : Multiset α) := by
  have hiff : (fun x y => UpToOrder (toJson x) (toJson y)) = R := by
    funext x y
    exact propext (h x y)
  rw [upToOrder_arr, ← Multiset.map_coe, ← Multiset.map_coe, Multiset.rel_map, hiff]

theorem upToOrder_texts {xs ys : List String} :
    UpToOrder (.arr (xs.map Json.str)) (.arr (ys.map Json.str)) ↔ xs.Perm ys := by
  rw [upToOrder_arr_map fun _ _ => upToOrder_str, ← Multiset.coe_eq_coe, ← Multiset.rel_eq]

/-- A member that holds an array unless there is nothing to hold. -/
theorem rel_nonempty_array {toArr : List α → Json}
    (h : ∀ xs ys : List α, UpToOrder (toArr xs) (toArr ys) ↔
      Multiset.Rel R (xs : Multiset α) (ys : Multiset α)) (xs ys : List α)
    [Decidable (xs = [])] [Decidable (ys = [])] :
    Option.Rel UpToOrder (if xs = [] then none else some (toArr xs))
        (if ys = [] then none else some (toArr ys)) ↔
      Multiset.Rel R (xs : Multiset α) (ys : Multiset α) := by
  by_cases hx : xs = []
  · subst hx
    rw [if_pos rfl, Multiset.coe_nil, Multiset.rel_zero_left, Multiset.coe_eq_zero]
    by_cases hy : ys = []
    · rw [if_pos hy]
      exact iff_of_true .none hy
    · rw [if_neg hy]
      exact iff_of_false (fun h => by cases h) hy
  · rw [if_neg hx]
    by_cases hy : ys = []
    · subst hy
      rw [if_pos rfl, Multiset.coe_nil, Multiset.rel_zero_right, Multiset.coe_eq_zero]
      exact iff_of_false (fun h => by cases h) hx
    · rw [if_neg hy, Option.rel_some_some, h]

end Arrays

end ServiceConsumers.UnorderedArrays
