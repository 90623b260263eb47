import ServiceConsumers.AreaPatches

set_option autoImplicit false

/-!
# List differs on their own

A differ of lists is judged by what its operations make of the array of the first list. A list
that is absent is treated as an empty one, and neither is written.
-/

namespace ServiceConsumers.ListDiffers

open JsonDocuments ForeignPatches MemberPatches PatchLists CarriedPatches ListPatches ServiceAreas
  ExternalServiceAreas PublicSessions OverlookedChanges AreaPatches

/-- Every operation finds its place, and the last one leaves what there should be. -/
def Arrives (src : Option (List PatchItem)) (before after : Option Json) : Prop :=
  ∃ items, src = some items ∧ patchValue before items = some after

/-- Equal elements are written alike, unless the lists are told apart by their first ones. -/
def PrefixAlike {α β : Type} (equal : α → α → Bool) (text : α → β) (xs ys : List α) : Prop :=
  (∃ x xs' y ys', xs = x :: xs' ∧ ys = y :: ys' ∧ equal x y = false) ∨
    EqualAlike equal text xs ys

variable {α β : Type} {equal : α → α → Bool} {addAt : ℕ → Token} {toJson : α → Json}
  {text : α → β} {xs ys : List α} {x y : α} {items : List PatchItem} {before after : Option Json}

theorem arrives_some : Arrives (some items) before after ↔ patchValue before items = some after := by
  constructor
  · rintro ⟨items', heq, h⟩
    obtain rfl := Option.some.inj heq
    exact h
  · exact fun h => ⟨items, rfl, h⟩

/-! ## The walk -/

theorem arrives_walk_iff (hadd : AddsAtEnd addAt) :
    Arrives (walk equal addAt toJson 0 xs ys) (some (.arr (xs.map toJson)))
      (some (.arr (ys.map toJson))) ↔ EqualAlike equal toJson xs ys := by
  rw [walk_eq, arrives_some, patchValue_walkItems hadd, Option.some.injEq, Option.some.injEq,
    Json.arr.injEq]
  exact walkResult_alike

theorem arrives_come : Arrives
    (some [jsonPatchNew .add [] (some (.arr ((y :: ys).map toJson)))]) (listMember toJson [])
      (listMember toJson (y :: ys)) := by
  rw [listMember_cons]
  exact arrives_some.2 rfl

theorem arrives_leave : Arrives (some [jsonPatchNew .remove [] none])
    (listMember toJson (x :: xs)) (listMember toJson []) := by
  rw [listMember_cons]
  exact arrives_some.2 rfl

theorem arrives_indexPatchList (hadd : AddsAtEnd addAt) :
    Arrives (indexPatchList addAt (fun x => some (toJson x)) (fun xs => some (.arr (xs.map toJson)))
        (replaceUnlessEqual equal fun x => some (toJson x)) xs ys)
      (listMember toJson xs) (listMember toJson ys) ↔ EqualAlike equal toJson xs ys := by
  cases xs with
  | nil =>
      refine iff_of_true ?_ nofun
      cases ys with
      | nil => exact arrives_some.2 rfl
      | cons y ys => exact arrives_come
  | cons x xs =>
      cases ys with
      | nil => exact iff_of_true arrives_leave nofun
      | cons y ys =>
          rw [listMember_cons, listMember_cons]
          exact arrives_walk_iff hadd

theorem arrives_prefixPatchList (hadd : AddsAtEnd addAt)
    (htext : ∀ x y, toJson x = toJson y ↔ text x = text y) :
    Arrives (prefixPatchList equal addAt (fun x => some (toJson x))
        (fun xs => some (.arr (xs.map toJson))) xs ys)
      (listMember toJson xs) (listMember toJson ys) ↔ PrefixAlike equal text xs ys := by
  rw [PrefixAlike, ← equalAlike_congr htext]
  cases xs with
  | nil =>
      refine iff_of_true ?_ (.inr nofun)
      cases ys with
      | nil => exact arrives_some.2 rfl
      | cons y ys => exact arrives_come
  | cons x xs =>
      cases ys with
      | nil => exact iff_of_true arrives_leave (.inr nofun)
      | cons y ys =>
          rw [prefixPatchList_cons, listMember_cons, listMember_cons]
          by_cases hxy : equal x y = true
          · rw [if_pos hxy, arrives_walk_iff hadd]
            refine (or_iff_right ?_).symm
            rintro ⟨_, _, _, _, ⟨⟩, ⟨⟩, h⟩
            rw [hxy] at h
            cases h
          · rw [if_neg hxy]
            refine iff_of_true (arrives_some.2 rfl) (.inl ⟨x, xs, y, ys, rfl, rfl, ?_⟩)
            exact Bool.eq_false_iff.2 hxy

/-! ## Lists walked by their index -/

theorem arrives_fsaIds (a b : List ℕ) :
    Arrives (mbsFsaIdsPatchList a b) (listMember mbsFsaIdToJson a) (listMember mbsFsaIdToJson b) := by
  apply (arrives_indexPatchList addsAtEnd_index).2
  intro p _ h
  rw [beq_iff_eq.1 h]

theorem arrives_civicAddresses (a b : List CivicAddress) :
    Arrives (civicAddressesPatchList a b) (listMember civicAddressToJson a)
      (listMember civicAddressToJson b) := by
  apply (arrives_indexPatchList addsAtEnd_last).2
  intro p _ h
  exact civicAddressToJson_eq h

/-- The areas are replaced as if no two of them were equal. -/
theorem geographicAreasPatchList_eq (a b : List GeographicArea) :
    geographicAreasPatchList a b =
      indexPatchList (fun _ => .last) (fun g => some (geographicAreaToJson g))
        (fun gs => some (.arr (gs.map geographicAreaToJson)))
        (replaceUnlessEqual geographicAreaEqual fun g => some (geographicAreaToJson g)) a b := rfl

theorem arrives_geographicAreas (a b : List GeographicArea) :
    Arrives (geographicAreasPatchList a b) (listMember geographicAreaToJson a)
      (listMember geographicAreaToJson b) := by
  rw [geographicAreasPatchList_eq]
  apply (arrives_indexPatchList addsAtEnd_last).2
  intro p _ h
  cases h

/-- Whatever the two lists are, the operations find their places one after another and the array
of the first list becomes that of the second. -/
theorem index_differs_arrive :
    (∀ a b : Option (List ℕ), Arrives (mbsFsaIdsPatchList (a.getD []) (b.getD []))
      (listMember mbsFsaIdToJson (a.getD [])) (listMember mbsFsaIdToJson (b.getD []))) ∧
    (∀ a b : Option (List CivicAddress),
      Arrives (civicAddressesPatchList (a.getD []) (b.getD []))
        (listMember civicAddressToJson (a.getD [])) (listMember civicAddressToJson (b.getD []))) ∧
    (∀ a b : Option (List GeographicArea),
      Arrives (geographicAreasPatchList (a.getD []) (b.getD []))
        (listMember geographicAreaToJson (a.getD []))
        (listMember geographicAreaToJson (b.getD []))) :=
  ⟨fun _ _ => arrives_fsaIds _ _, fun _ _ => arrives_civicAddresses _ _,
    fun _ _ => arrives_geographicAreas _ _⟩

/-! ## Lists with a common prefix -/

theorem arrives_tais_iff (a b : List Tai) :
    Arrives (taisPatchList a b) (listMember taiToJson a) (listMember taiToJson b) ↔
      PrefixAlike taiEqual taiText a b :=
  arrives_prefixPatchList addsAtEnd_last taiToJson_inj

theorem arrives_ncgiTais_iff (a b : List NcgiTai) :
    Arrives (ncgiTaisPatchList a b) (listMember ncgiTaiToJson a) (listMember ncgiTaiToJson b) ↔
      PrefixAlike ncgiTaiEqual ncgiTaiText a b :=
  arrives_prefixPatchList addsAtEnd_index ncgiTaiToJson_inj

theorem ncgiEqual_iff {n m : Ncgi} : ncgiEqual n m = true ↔ n = m := by
  cases n
  cases m
  simp only [ncgiEqual, Bool.and_eq_true, beq_iff_eq, Ncgi.mk.injEq]
  tauto

/-- The cells are compared by everything that is written of them. -/
theorem arrives_ncgis (a b : List Ncgi) :
    Arrives (ncgisPatchList a b) (listMember ncgiToJson a) (listMember ncgiToJson b) := by
  apply (arrives_prefixPatchList addsAtEnd_index ncgiToJson_inj).2
  apply Or.inr
  intro p _ h
  rw [ncgiEqual_iff.1 h]

/-- The differs of TAIs and of NCGI-TAIs arrive as long as no two elements in the same place are
taken for equal that are written differently, or the first elements are told apart. -/
theorem prefix_differs_arrive_iff (a b : Option (List Tai)) (c d : Option (List Ncgi))
    (e f : Option (List NcgiTai)) :
    (Arrives (taisPatchList (a.getD []) (b.getD [])) (listMember taiToJson (a.getD []))
        (listMember taiToJson (b.getD [])) ∧
      Arrives (ncgisPatchList (c.getD []) (d.getD [])) (listMember ncgiToJson (c.getD []))
        (listMember ncgiToJson (d.getD [])) ∧
      Arrives (ncgiTaisPatchList (e.getD []) (f.getD [])) (listMember ncgiTaiToJson (e.getD []))
        (listMember ncgiTaiToJson (f.getD []))) ↔
    PrefixAlike taiEqual taiText (a.getD []) (b.getD []) ∧
      PrefixAlike ncgiTaiEqual ncgiTaiText (e.getD []) (f.getD []) := by
  rw [arrives_tais_iff, arrives_ncgiTais_iff, and_iff_right (arrives_ncgis _ _)]

def twoDigitTai : Tai := { plmnId := plmnIdBuild 1 1 2, tac := 7 }

def threeDigitTai : Tai := { plmnId := plmnIdBuild 1 1 3, tac := 7 }

/-- A two digit MNC becomes a three digit one, and a cell is added: nothing is sent of either. -/
theorem prefix_differs_overlook :
    ¬ Arrives (taisPatchList [twoDigitTai] [threeDigitTai]) (listMember taiToJson [twoDigitTai])
        (listMember taiToJson [threeDigitTai]) ∧
      ¬ Arrives (ncgiTaisPatchList [⟨twoDigitTai, []⟩] [⟨twoDigitTai, [{ nrCellId := 5 }]⟩])
        (listMember ncgiTaiToJson [⟨twoDigitTai, []⟩])
        (listMember ncgiTaiToJson [⟨twoDigitTai, [{ nrCellId := 5 }]⟩]) := by
  have hpair : ∀ {γ δ : Type} {equal : γ → γ → Bool} {text : γ → δ} {x y : γ},
      equal x y = true → text x ≠ text y → ¬ PrefixAlike equal text [x] [y] := by
    intro γ δ equal text x y hequal htext h
    rcases h with ⟨_, _, _, _, ⟨⟩, ⟨⟩, hne⟩ | h
    · rw [hequal] at hne
      cases hne
    · exact htext (h (x, y) List.mem_cons_self hequal)
  constructor
  · rw [arrives_tais_iff]
    exact hpair (by decide) (by decide)
  · rw [arrives_ncgiTais_iff]
    exact hpair (by decide) (by decide)

end ServiceConsumers.ListDiffers
