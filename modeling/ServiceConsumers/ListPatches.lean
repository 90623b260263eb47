import ServiceConsumers.CarriedPatches

set_option autoImplicit false

/-!
# Patches of lists

The list differs walk two lists side by side. An element that compares equal stays as it was,
whatever else it says, so the walk arrives at the second list as far as equal elements are
written alike.
-/

namespace ServiceConsumers.ListPatches

open JsonDocuments ForeignPatches MemberPatches PatchLists CarriedPatches

variable {α β : Type} {equal : α → α → Bool} {addAt : ℕ → Token} {toJson : α → Json}
  {text : α → β} {idx : ℕ} {done xs ys : List α} {x y : α}

/-! ## The walk -/

/-- The operations of the walk, from a position on. -/
def walkItems (equal : α → α → Bool) (addAt : ℕ → Token) (toJson : α → Json) :
    ℕ → List α → List α → List PatchItem
  | _, [], [] => []
  | idx, [], y :: ys =>
      ⟨.add, [addAt idx], some (toJson y)⟩ :: walkItems equal addAt toJson (idx + 1) [] ys
  | idx, _ :: xs, [] => ⟨.remove, [.index idx], none⟩ :: walkItems equal addAt toJson idx xs []
  | idx, x :: xs, y :: ys =>
      (if equal x y then [] else [⟨.replace, [.index idx], some (toJson y)⟩]) ++
        walkItems equal addAt toJson (idx + 1) xs ys

/-- What the walk makes of a list. -/
def walkResult (equal : α → α → Bool) : List α → List α → List α
  | [], ys => ys
  | _ :: _, [] => []
  | x :: xs, y :: ys => (if equal x y then x else y) :: walkResult equal xs ys

/-- New elements go to the end, by its name or by its index. -/
def AddsAtEnd (addAt : ℕ → Token) : Prop := ∀ idx, addAt idx = .last ∨ addAt idx = .index idx

theorem addsAtEnd_last : AddsAtEnd fun _ => .last := fun _ => .inl rfl

theorem addsAtEnd_index : AddsAtEnd .index := fun _ => .inr rfl

/-- The walk of a differ that replaces unequal elements. -/
def walk (equal : α → α → Bool) (addAt : ℕ → Token) (toJson : α → Json) (idx : ℕ)
    (xs ys : List α) : Option (List PatchItem) :=
  walkPatchList addAt (fun x => some (toJson x)) (replaceUnlessEqual equal fun x => some (toJson x))
    idx xs ys

theorem walk_eq : walk equal addAt toJson idx xs ys = some (walkItems equal addAt toJson idx xs ys) := by
  unfold walk
  induction xs generalizing idx ys with
  | nil =>
      induction ys generalizing idx with
      | nil => rw [walkPatchList, walkItems]
      | cons y ys ih =>
          rw [walkPatchList, ih, walkItems]
          rfl
  | cons x xs ih =>
      cases ys with
      | nil =>
          rw [walkPatchList, ih, walkItems]
          rfl
      | cons y ys =>
          rw [walkPatchList, ih, walkItems, replaceUnlessEqual]
          rfl

theorem applyItem_append (hadd : AddsAtEnd addAt) {js : List Json} {v : Json} :
    applyItem (.arr js) ⟨.add, [addAt js.length], some v⟩ = some (.arr (js ++ [v])) := by
  have hitem : applyItem (.arr js) ⟨.add, [addAt js.length], some v⟩ =
      applyAt .add (some v) (addAt js.length) (.arr js) := rfl
  rcases hadd js.length with h | h
  · rw [hitem, h]
    rfl
  · rw [hitem, h, applyAt, if_pos (le_refl _), List.insertIdx_length_self]

theorem applyItem_drop {js js' : List Json} {v : Json} :
    applyItem (.arr (js ++ v :: js')) ⟨.remove, [.index js.length], none⟩ =
      some (.arr (js ++ js')) := by
  change applyAt .remove none (.index js.length) (.arr (js ++ v :: js')) = _
  rw [applyAt, if_pos (by simp), List.eraseIdx_append_of_length_le (le_refl _), Nat.sub_self,
    List.eraseIdx_cons_zero]

theorem applyItem_put {js js' : List Json} {u v : Json} :
    applyItem (.arr (js ++ u :: js')) ⟨.replace, [.index js.length], some v⟩ =
      some (.arr (js ++ v :: js')) := by
  change applyAt .replace (some v) (.index js.length) (.arr (js ++ u :: js')) = _
  rw [applyAt, if_pos (by simp), List.set_append_right _ _ (le_refl _), Nat.sub_self,
    List.set_cons_zero]

/-- Every operation of the walk finds its place. -/
theorem applyPatch_walkItems (hadd : AddsAtEnd addAt) :
    applyPatch (.arr ((done ++ xs).map toJson)) (walkItems equal addAt toJson done.length xs ys) =
      some (.arr ((done ++ walkResult equal xs ys).map toJson)) := by
  induction xs generalizing done ys with
  | nil =>
      rw [walkResult, List.append_nil]
      induction ys generalizing done with
      | nil =>
          rw [walkItems, applyPatch_nil, List.append_nil]
      | cons y ys ih =>
          have happend := @applyItem_append _ hadd (done.map toJson) (toJson y)
          have hrest := @ih (done ++ [y])
          rw [List.length_map] at happend
          rw [List.length_append, List.map_append, List.append_assoc] at hrest
          rw [walkItems, applyPatch_cons, happend]
          exact hrest
  | cons x xs ih =>
      cases ys with
      | nil =>
          have hdrop := @applyItem_drop (done.map toJson) (xs.map toJson) (toJson x)
          have hrest := @ih done []
          have hnil : walkResult equal xs [] = [] := by cases xs <;> rfl
          rw [List.length_map] at hdrop
          rw [hnil] at hrest
          rw [walkItems, applyPatch_cons, List.map_append, List.map_cons, hdrop, ← List.map_append]
          exact hrest
      | cons y ys =>
          rw [walkItems, walkResult]
          by_cases hxy : equal x y = true
          · have hrest := @ih (done ++ [x]) ys
            rw [List.length_append, List.append_assoc, List.append_assoc] at hrest
            rw [if_pos hxy, if_pos hxy, List.nil_append]
            exact hrest
          · have hput := @applyItem_put (done.map toJson) (xs.map toJson) (toJson x) (toJson y)
            have hrest := @ih (done ++ [y]) ys
            rw [List.length_map] at hput
            rw [List.length_append, List.append_assoc, List.append_assoc, List.map_append] at hrest
            rw [if_neg hxy, if_neg hxy, List.singleton_append, applyPatch_cons, List.map_append,
              List.map_cons, hput]
            exact hrest

theorem walkItems_paths : ∀ p ∈ walkItems equal addAt toJson idx xs ys, p.path ≠ [] := by
  induction xs generalizing idx ys with
  | nil =>
      induction ys generalizing idx with
      | nil =>
          rw [walkItems]
          exact nofun
      | cons y ys ih =>
          rw [walkItems, List.forall_mem_cons]
          exact ⟨List.cons_ne_nil _ _, ih⟩
  | cons x xs ih =>
      cases ys with
      | nil =>
          rw [walkItems, List.forall_mem_cons]
          exact ⟨List.cons_ne_nil _ _, ih⟩
      | cons y ys =>
          rw [walkItems]
          split
          · exact ih
          · exact List.forall_mem_cons.2 ⟨nofun, ih⟩

/-- Only a list that becomes shorter loses elements. -/
theorem valued_walkItems :
    Valued (walkItems equal addAt toJson idx xs ys) ↔ xs.length ≤ ys.length := by
  induction xs generalizing idx ys with
  | nil =>
      refine iff_of_true ?_ (Nat.zero_le _)
      induction ys generalizing idx with
      | nil =>
          rw [walkItems]
          exact valued_nil
      | cons y ys ih =>
          rw [walkItems, valued_cons]
          exact ⟨rfl, ih⟩
  | cons x xs ih =>
      cases ys with
      | nil =>
          rw [walkItems, valued_cons]
          exact iff_of_false (fun h => by cases h.1) (Nat.not_succ_le_zero _)
      | cons y ys =>
          rw [walkItems, List.length_cons, List.length_cons, Nat.succ_le_succ_iff, ← ih]
          split
          · rfl
          · exact valued_cons.trans (and_iff_right rfl)

/-! ## The differs -/

/-- Elements in the same places that compare equal are written alike. -/
def EqualAlike (equal : α → α → Bool) (text : α → β) (xs ys : List α) : Prop :=
  ∀ p ∈ xs.zip ys, equal p.1 p.2 = true → text p.1 = text p.2

/-- A list that is carried along does not become shorter either. -/
def ListPatchable (equal : α → α → Bool) (text : α → β) (xs ys : List α) : Prop :=
  xs.length ≤ ys.length ∧ EqualAlike equal text xs ys

/-- The whole list is replaced when its first element changes. -/
def PrefixPatchable (equal : α → α → Bool) (text : α → β) (xs ys : List α) : Prop :=
  (∃ x xs' y ys', xs = x :: xs' ∧ ys = y :: ys' ∧ equal x y = false) ∨
    ListPatchable equal text xs ys

def listMember (toJson : α → Json) (xs : List α) : Option Json :=
  if xs = [] then none else some (.arr (xs.map toJson))

/-- The walk arrives where it should as far as equal elements are written alike. -/
theorem walkResult_alike :
    (walkResult equal xs ys).map toJson = ys.map toJson ↔ EqualAlike equal toJson xs ys := by
  induction xs generalizing ys with
  | nil => exact iff_of_true rfl nofun
  | cons x xs ih =>
      cases ys with
      | nil => exact iff_of_true rfl nofun
      | cons y ys =>
          rw [walkResult, List.map_cons, List.map_cons, List.cons.injEq, ih, EqualAlike,
            EqualAlike, List.zip_cons_cons, List.forall_mem_cons]
          refine and_congr_left fun _ => ?_
          by_cases hxy : equal x y = true
          · rw [if_pos hxy]
            exact ⟨fun h _ => h, fun h => h hxy⟩
          · rw [if_neg hxy]
            exact iff_of_true rfl fun h => absurd h hxy

/-- What the walk's operations make of the first list. -/
theorem patchValue_walkItems (hadd : AddsAtEnd addAt) :
    patchValue (some (.arr (xs.map toJson))) (walkItems equal addAt toJson 0 xs ys) =
      some (some (.arr ((walkResult equal xs ys).map toJson))) := by
  have hpatch : applyPatch (.arr (xs.map toJson)) (walkItems equal addAt toJson 0 xs ys) =
      some (.arr ((walkResult equal xs ys).map toJson)) :=
    @applyPatch_walkItems _ equal addAt toJson [] xs ys hadd
  rw [patchValue_some walkItems_paths, hpatch, Option.map_some]

theorem carries_walk_iff (hadd : AddsAtEnd addAt) :
    Carries (walk equal addAt toJson 0 xs ys) (some (.arr (xs.map toJson)))
      (some (.arr (ys.map toJson))) ↔ ListPatchable equal toJson xs ys := by
  rw [walk_eq, carries_some, valued_walkItems, patchValue_walkItems hadd, Option.some.injEq,
    Option.some.injEq, Json.arr.injEq]
  exact and_congr_right fun _ => walkResult_alike

theorem equalAlike_congr (htext : ∀ x y, toJson x = toJson y ↔ text x = text y) :
    EqualAlike equal toJson xs ys ↔ EqualAlike equal text xs ys := by
  simp only [EqualAlike, htext]

theorem listPatchable_congr (htext : ∀ x y, toJson x = toJson y ↔ text x = text y) :
    ListPatchable equal toJson xs ys ↔ ListPatchable equal text xs ys :=
  and_congr_right fun _ => equalAlike_congr htext

theorem listMember_cons : listMember toJson (x :: xs) = some (.arr ((x :: xs).map toJson)) :=
  if_neg (List.cons_ne_nil x xs)

/-- The list comes as a whole where there was none. -/
theorem carries_come : Carries
    (some [jsonPatchNew .add [] (some (.arr ((y :: ys).map toJson)))]) (listMember toJson [])
      (listMember toJson (y :: ys)) := by
  rw [listMember_cons]
  exact carries_single.2 ⟨rfl, rfl⟩

theorem carries_indexPatchList (hadd : AddsAtEnd addAt)
    (htext : ∀ x y, toJson x = toJson y ↔ text x = text y) :
    Carries (indexPatchList addAt (fun x => some (toJson x)) (fun xs => some (.arr (xs.map toJson)))
        (replaceUnlessEqual equal fun x => some (toJson x)) xs ys)
      (listMember toJson xs) (listMember toJson ys) ↔ ListPatchable equal text xs ys := by
  rw [← listPatchable_congr htext]
  cases xs with
  | nil =>
      refine iff_of_true ?_ ⟨Nat.zero_le _, nofun⟩
      cases ys with
      | nil => exact carries_nil.2 rfl
      | cons y ys => exact carries_come
  | cons x xs =>
      cases ys with
      | nil => exact iff_of_false not_carries_leave fun h => Nat.not_succ_le_zero _ h.1
      | cons y ys =>
          rw [listMember_cons, listMember_cons]
          exact carries_walk_iff hadd

/-! ## Equal prefixes -/

theorem le_skipEqual (equal : α → α → Bool) (idx : ℕ) (xs ys : List α) :
    idx ≤ (skipEqual equal idx xs ys).1 := by
  induction xs generalizing idx ys with
  | nil => simp [skipEqual]
  | cons x xs ih =>
      cases ys with
      | nil => simp [skipEqual]
      | cons y ys =>
          simp only [skipEqual]
          split
          · exact le_trans (Nat.le_succ idx) (ih (idx + 1) ys)
          · exact le_refl _

/-- Nothing is done about an equal prefix. -/
theorem walk_skipEqual : walk equal addAt toJson (skipEqual equal idx xs ys).1
    (skipEqual equal idx xs ys).2.1 (skipEqual equal idx xs ys).2.2 =
      walk equal addAt toJson idx xs ys := by
  induction xs generalizing idx ys with
  | nil => rfl
  | cons x xs ih =>
      cases ys with
      | nil => rfl
      | cons y ys =>
          rw [skipEqual]
          split
          · rename_i hxy
            rw [ih, walk_eq, walk_eq, walkItems, if_pos hxy, List.nil_append]
          · rfl

theorem prefixPatchList_cons {listToJson : List α → Option Json} :
    prefixPatchList equal addAt (fun x => some (toJson x)) listToJson (x :: xs) (y :: ys) =
      if equal x y then walk equal addAt toJson 0 (x :: xs) (y :: ys)
      else some [jsonPatchNew .replace [] (listToJson (y :: ys))] := by
  rw [prefixPatchList, ← walk_skipEqual]
  by_cases hxy : equal x y = true
  · have hle := le_skipEqual equal 1 xs ys
    have hskip : skipEqual equal 0 (x :: xs) (y :: ys) = skipEqual equal 1 xs ys := by
      rw [skipEqual, if_pos hxy]
    rw [hskip, if_pos hxy]
    rcases hrest : skipEqual equal 1 xs ys with ⟨_ | n, as, bs⟩
    · rw [hrest] at hle
      cases hle
    · rfl
  · rw [skipEqual, if_neg hxy, if_neg hxy]

theorem carries_prefixPatchList (hadd : AddsAtEnd addAt)
    (htext : ∀ x y, toJson x = toJson y ↔ text x = text y) :
    Carries (prefixPatchList equal addAt (fun x => some (toJson x))
        (fun xs => some (.arr (xs.map toJson))) xs ys)
      (listMember toJson xs) (listMember toJson ys) ↔ PrefixPatchable equal text xs ys := by
  rw [PrefixPatchable, ← listPatchable_congr htext]
  cases xs with
  | nil =>
      refine iff_of_true ?_ (.inr ⟨Nat.zero_le _, nofun⟩)
      cases ys with
      | nil => exact carries_nil.2 rfl
      | cons y ys => exact carries_come
  | cons x xs =>
      cases ys with
      | nil =>
          refine iff_of_false not_carries_leave ?_
          rintro (⟨_, _, _, _, -, h, -⟩ | h)
          · cases h
          · exact Nat.not_succ_le_zero _ h.1
      | cons y ys =>
          rw [prefixPatchList_cons, listMember_cons, listMember_cons]
          by_cases hxy : equal x y = true
          · rw [if_pos hxy, carries_walk_iff hadd]
            refine (or_iff_right ?_).symm
            rintro ⟨_, _, _, _, ⟨⟩, ⟨⟩, h⟩
            rw [hxy] at h
            cases h
          · rw [if_neg hxy]
            refine iff_of_true (carries_single.2 ⟨rfl, rfl⟩) (.inl ⟨x, xs, y, ys, rfl, rfl, ?_⟩)
            exact Bool.eq_false_iff.2 hxy

end ServiceConsumers.ListPatches
