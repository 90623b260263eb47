import ServiceConsumers.CivicAddresses

set_option autoImplicit false

/-!
# Comparisons of areas in any order

Service areas and lists of civic addresses are compared by matching the elements of the one
with those of a copy of the other.
-/

namespace ServiceConsumers.AreaComparisons

open GreedyMatching ServiceAreas ExternalServiceAreas CivicAddresses

/-! ## Elements -/

/-- What the comparison of two TAIs looks at. -/
def taiKey (t : Tai) : ℕ × Option ℕ × ℕ × ℕ := (t.tac, t.nid, t.plmnId.mcc, t.plmnId.mnc)

theorem taiEqual_iff {t u : Tai} : taiEqual t u = true ↔ taiKey t = taiKey u := by
  simp [taiEqual, taiKey, and_assoc]

/-- A comparison that finds whether two keys are the same is an equivalence. -/
def keySetoid {α κ : Type} (equal : α → α → Bool) (key : α → κ)
    (h : ∀ x y, equal x y = true ↔ key x = key y) : Setoid α where
  r x y := equal x y = true
  iseqv :=
    ⟨fun x => (h x x).2 rfl, fun hxy => (h _ _).2 ((h _ _).1 hxy).symm,
      fun hxy hyz => (h _ _).2 (((h _ _).1 hxy).trans ((h _ _).1 hyz))⟩

def taiSetoid : Setoid Tai := keySetoid taiEqual taiKey fun _ _ => taiEqual_iff

def ncgiTaiSetoid : Setoid NcgiTai :=
  keySetoid ncgiTaiEqual (fun n => taiKey n.tai) fun _ _ => taiEqual_iff

def civicAddressSetoid : Setoid CivicAddress :=
  keySetoid civicAddressEqual id civicAddressEqual_iff

/-! ## Lists -/

/-- The elements can be paired one to one with elements that they are equal to. -/
def Paired {α : Type} (equal : α → α → Bool) (xs ys : List α) : Prop :=
  Multiset.Rel (fun x y => equal x y = true) (xs : Multiset α) (ys : Multiset α)

variable {α : Type} {s : Setoid α} {equal : α → α → Bool} {copy : α → α} {xs ys : List α}

/-- A list is matched with the copy of another as it is with the other, when each copy is equal
to what it was made of. -/
theorem matched_iff (hequal : ∀ x y, equal x y = true ↔ s x y) (hcopy : ∀ x, s (copy x) x) :
    (xs.length == ys.length && matchAll equal xs (ys.map copy)) = true ↔
      classes s xs = classes s ys := by
  have hlength : (ys.map copy).length = ys.length := List.length_map copy
  rw [← hlength, matchAll_iff_classes hequal, classes_map hcopy]

theorem paired_iff (hequal : ∀ x y, equal x y = true ↔ s x y) :
    Paired equal xs ys ↔ classes s xs = classes s ys := rel_iff_classes hequal

/-! ## Areas -/

theorem mbsServiceAreaEqual_iff (a b : MbsServiceArea) :
    mbsServiceAreaEqual a b = true ↔
      classes ncgiTaiSetoid a.ncgiTais = classes ncgiTaiSetoid b.ncgiTais ∧
        classes taiSetoid a.tais = classes taiSetoid b.tais := by
  have hncgi : ∀ n : NcgiTai, ncgiTaiSetoid (ncgiTaiCopy n) n := fun n =>
    ncgiTaiSetoid.refl n
  have htai : ∀ t : Tai, taiSetoid (taiCopy t) t := fun t => taiSetoid.refl t
  rw [← matched_iff (fun _ _ => Iff.rfl) hncgi, ← matched_iff (fun _ _ => Iff.rfl) htai,
    mbsServiceAreaEqual, mbsServiceAreaCopy]
  simp only [Bool.and_eq_true]
  tauto

theorem civicAddressesEqual_iff (a b : List CivicAddress) :
    civicAddressesEqual a b = true ↔
      classes civicAddressSetoid a = classes civicAddressSetoid b := by
  have hcopy : ∀ c : CivicAddress, civicAddressSetoid (civicAddressCopy c) c := fun c =>
    civicAddressSetoid.refl c
  rw [← matched_iff (fun _ _ => Iff.rfl) hcopy]
  unfold civicAddressesEqual
  split
  · exact iff_of_true rfl rfl
  · exact Iff.rfl

/-- How many TAIs of each kind an area has, with cells and without. -/
def areaKey (a : MbsServiceArea) :
    Multiset (Quotient ncgiTaiSetoid) × Multiset (Quotient taiSetoid) :=
  (classes ncgiTaiSetoid a.ncgiTais, classes taiSetoid a.tais)

/-- A comparison that is decided by what two values have in common is an equivalence. -/
theorem equivalence_of_key {β κ : Type} {compare : β → β → Bool} {key : β → κ}
    (h : ∀ a b, compare a b = true ↔ key a = key b) :
    Equivalence fun a b => compare a b = true := (keySetoid compare key h).iseqv

/-- The comparisons find whether the elements can be paired, that is, whether there is the same
number of each kind, and are reflexive, symmetric and transitive. -/
theorem areas_compare_in_any_order :
    (∀ a b, mbsServiceAreaEqual a b = true ↔
      Paired ncgiTaiEqual a.ncgiTais b.ncgiTais ∧ Paired taiEqual a.tais b.tais) ∧
    (∀ a b, mbsServiceAreaEqual a b = true ↔
      classes ncgiTaiSetoid a.ncgiTais = classes ncgiTaiSetoid b.ncgiTais ∧
        classes taiSetoid a.tais = classes taiSetoid b.tais) ∧
    (∀ a b, civicAddressesEqual a b = true ↔ Paired civicAddressEqual a b) ∧
    (∀ a b, civicAddressesEqual a b = true ↔
      classes civicAddressSetoid a = classes civicAddressSetoid b) ∧
    (Equivalence fun a b => mbsServiceAreaEqual a b = true) ∧
    (Equivalence fun a b => civicAddressesEqual a b = true) := by
  refine ⟨fun a b => ?_, mbsServiceAreaEqual_iff, fun a b => ?_, civicAddressesEqual_iff, ?_, ?_⟩
  · rw [mbsServiceAreaEqual_iff, paired_iff (s := ncgiTaiSetoid) fun _ _ => Iff.rfl,
      paired_iff (s := taiSetoid) fun _ _ => Iff.rfl]
  · rw [civicAddressesEqual_iff, paired_iff (s := civicAddressSetoid) fun _ _ => Iff.rfl]
  · have hkey : ∀ a b, mbsServiceAreaEqual a b = true ↔ areaKey a = areaKey b := fun a b => by
      rw [mbsServiceAreaEqual_iff, areaKey, areaKey, Prod.mk.injEq]
    exact equivalence_of_key hkey
  · exact equivalence_of_key civicAddressesEqual_iff

end ServiceConsumers.AreaComparisons
