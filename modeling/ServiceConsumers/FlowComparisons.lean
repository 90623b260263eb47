import ServiceConsumers.OptionalTexts
import ServiceConsumers.SessionCopies

set_option autoImplicit false

/-!
# The comparison of flow descriptions (`flow-description.c`)

Each description of one list takes an equal one out of a copy of the other. The flag that tells
whether there was one is set from the start.
-/

namespace ServiceConsumers.FlowComparisons

open GreedyMatching MediaComponents SessionCopies OptionalTexts

/-! ## The loops -/

/-- The two lists that are compared. They may be one and the same. -/
structure FlowLists where
  a : Option (List FlowDescription)
  b : Option (List FlowDescription)
  same : Bool
  same_eq : same = true → a = b

/-- The lists, and the copy that descriptions are taken out of. -/
structure CompareState where
  a : Option (List FlowDescription)
  b : Option (List FlowDescription)
  bCopy : List FlowDescription
  deriving DecidableEq

def flowDescriptionEqual (a b : FlowDescription) : Bool := a.string == b.string

/-- The strings are compared when they are there on both sides or on neither. -/
theorem flowDescriptionEqual_eq (a b : FlowDescription) :
    stringEqual a.string b.string = some (flowDescriptionEqual a b) :=
  stringEqual_eq a.string b.string

/-- The loop over the copy for one description. `found` starts out true. -/
def matchFlow (x : FlowDescription) (s : CompareState) : Bool × CompareState :=
  let found := true
  match removeEqual flowDescriptionEqual x s.bCopy with
  | some rest => (true, { s with bCopy := rest })
  | none => (found, s)

def matchFlows : List FlowDescription → CompareState → Bool × CompareState
  | [], s => (true, s)
  | x :: xs, s =>
      let (found, s') := matchFlow x s
      if found then matchFlows xs s' else (false, s')

/-- The comparison, which frees its copy at the end. -/
def flowDescriptionsCompare (l : FlowLists) : Option (Bool × CompareState) :=
  if l.same then some (true, ⟨l.a, l.b, []⟩)
  else
    match l.a, l.b with
    | none, none => some (true, ⟨l.a, l.b, []⟩)
    | some xs, some ys =>
        if xs.length ≠ ys.length then some (false, ⟨l.a, l.b, []⟩)
        else (flowDescriptionsCopy ys).map fun copy =>
          let (result, s) := matchFlows xs ⟨l.a, l.b, copy⟩
          (result, { s with bCopy := [] })
    | _, _ => some (false, ⟨l.a, l.b, []⟩)

/-! ## What they come to -/

variable (l : FlowLists) (x : FlowDescription) (xs ys : List FlowDescription) (s : CompareState)

theorem matchFlow_frame : (matchFlow x s).2.a = s.a ∧ (matchFlow x s).2.b = s.b := by
  unfold matchFlow
  cases removeEqual flowDescriptionEqual x s.bCopy <;> exact ⟨rfl, rfl⟩

theorem matchFlow_found : (matchFlow x s).1 = true := by
  unfold matchFlow
  cases removeEqual flowDescriptionEqual x s.bCopy <;> rfl

theorem matchFlows_cons : matchFlows (x :: xs) s = matchFlows xs (matchFlow x s).2 := by
  rw [matchFlows]
  exact if_pos (matchFlow_found x s)

/-- Only the copy is changed. -/
theorem matchFlows_frame : (matchFlows xs s).2.a = s.a ∧ (matchFlows xs s).2.b = s.b := by
  induction xs generalizing s with
  | nil => exact ⟨rfl, rfl⟩
  | cons x xs ih =>
      obtain ⟨ha, hb⟩ := matchFlow_frame x s
      rw [matchFlows_cons, ← ha, ← hb]
      exact ih _

/-- A description without an equal is never reported. -/
theorem matchFlows_true : (matchFlows xs s).1 = true := by
  induction xs generalizing s with
  | nil => rfl
  | cons x xs ih =>
      rw [matchFlows_cons]
      exact ih _

/-- What the comparison of two lists comes to, and that it leaves them as they are. -/
theorem flowDescriptionsCompare_eq (hsame : l.same = false) : flowDescriptionsCompare l =
    (flowDescriptionsEqual l.a l.b).map fun result => (result, ⟨l.a, l.b, []⟩) := by
  obtain ⟨a, b, same, same_eq⟩ := l
  obtain rfl : same = false := hsame
  cases a with
  | none => cases b <;> rfl
  | some xs =>
      cases b with
      | none => rfl
      | some ys =>
          simp only [flowDescriptionsCompare, flowDescriptionsEqual, Bool.false_eq_true, if_false]
          by_cases hlength : xs.length = ys.length
          · rw [if_neg (not_not.2 hlength), if_pos hlength, Option.map_map]
            congr 1
            funext copy
            obtain ⟨ha, hb⟩ := matchFlows_frame xs ⟨some xs, some ys, copy⟩
            simp only [Function.comp_apply, matchFlows_true xs, ha, hb]
          · rw [if_pos hlength, if_neg hlength, Option.map_some]

/-! ## When it is right -/

/-- Both lists are absent, or they hold the same descriptions, each as often. -/
def SameFlows (a b : Option (List FlowDescription)) : Prop :=
  a.map Multiset.ofList = b.map Multiset.ofList

/-- The comparison comes to the right result, and leaves both lists as they are. -/
def ComparesRightly (l : FlowLists) : Prop :=
  ∃ result s, flowDescriptionsCompare l = some (result, s) ∧ s.a = l.a ∧ s.b = l.b ∧
    (result = true ↔ SameFlows l.a l.b)

/-- Two lists of one length hold the same descriptions, and those that are copied have their
strings. -/
def LengthsDecide (l : FlowLists) : Prop :=
  l.same = true ∨ ∀ xs ys, l.a = some xs → l.b = some ys → xs.length = ys.length →
    xs.Perm ys ∧ ∀ y ∈ ys, y.string.isSome = true

theorem comparesRightly_own (hsame : l.same = false) : ComparesRightly l ↔
    ∃ result, flowDescriptionsEqual l.a l.b = some result ∧
      (result = true ↔ SameFlows l.a l.b) := by
  rw [ComparesRightly, flowDescriptionsCompare_eq l hsame]
  constructor
  · rintro ⟨result, s, heq, -, -, hright⟩
    obtain ⟨result', hresult, hpair⟩ := Option.map_eq_some_iff.1 heq
    obtain rfl : result' = result := congrArg Prod.fst hpair
    exact ⟨result', hresult, hright⟩
  · rintro ⟨result, hresult, hright⟩
    exact ⟨result, _, by rw [hresult]; rfl, rfl, rfl, hright⟩

theorem sameFlows_some : SameFlows (some xs) (some ys) ↔ xs.Perm ys := by
  rw [SameFlows, Option.map_some, Option.map_some, Option.some.injEq]
  exact Multiset.coe_eq_coe

/-- The copy is made when no string is missing, and then the lengths decide. -/
theorem equal_right_iff : (∃ result, flowDescriptionsEqual (some xs) (some ys) = some result ∧
    (result = true ↔ xs.Perm ys)) ↔
      (xs.length = ys.length → xs.Perm ys ∧ ∀ y ∈ ys, y.string.isSome = true) := by
  rw [flowDescriptionsEqual]
  by_cases hlength : xs.length = ys.length
  · rw [if_pos hlength]
    constructor
    · rintro ⟨result, hresult, hright⟩ -
      obtain ⟨copy, hcopy, rfl⟩ := Option.map_eq_some_iff.1 hresult
      exact ⟨hright.1 rfl, (flowDescriptionsCopy_eq_some.1 hcopy).2⟩
    · intro h
      obtain ⟨hperm, hstrings⟩ := h hlength
      rw [flowDescriptionsCopy_eq_some.2 ⟨rfl, hstrings⟩]
      exact ⟨true, rfl, iff_of_true rfl hperm⟩
  · rw [if_neg hlength]
    exact iff_of_true ⟨false, rfl, iff_of_false Bool.false_ne_true fun hperm => hlength hperm.length_eq⟩
      fun h => absurd h hlength

/-- The comparison is right except about lists of one length that are not the same up to order,
or of which the second lacks a string. -/
theorem flowDescriptions_compare_iff : ComparesRightly l ↔ LengthsDecide l := by
  by_cases hsame : l.same = true
  · refine iff_of_true ⟨true, ⟨l.a, l.b, []⟩, ?_, rfl, rfl, iff_of_true rfl ?_⟩ (.inl hsame)
    · rw [flowDescriptionsCompare, if_pos hsame]
    · rw [l.same_eq hsame, SameFlows]
  · rw [comparesRightly_own l (Bool.eq_false_iff.2 hsame), LengthsDecide, or_iff_right hsame]
    cases l.a with
    | none =>
        refine iff_of_true ?_ nofun
        cases l.b with
        | none => exact ⟨true, rfl, iff_of_true rfl rfl⟩
        | some ys => exact ⟨false, rfl, iff_of_false nofun nofun⟩
    | some xs =>
        cases l.b with
        | none => exact iff_of_true ⟨false, rfl, iff_of_false nofun nofun⟩ nofun
        | some ys =>
            rw [sameFlows_some, equal_right_iff]
            constructor
            · rintro h _ _ ⟨⟩ ⟨⟩
              exact h
            · exact fun h => h xs ys rfl rfl

/-- Two lists with one description each are taken for the same. -/
theorem different_flows_equal : ¬ ∀ l, ComparesRightly l := by
  intro h
  obtain ⟨result, s, hresult, -, -, hright⟩ := h
    { a := some [{ string := some "permit out ip from any to 10.0.0.1" }]
      b := some [{ string := some "permit out ip from any to 10.0.0.2" }]
      same := false
      same_eq := nofun }
  obtain rfl : true = result := congrArg Prod.fst (Option.some.inj hresult)
  rw [sameFlows_some] at hright
  have hmem := (hright.1 rfl).subset List.mem_cons_self
  simp at hmem

end ServiceConsumers.FlowComparisons
