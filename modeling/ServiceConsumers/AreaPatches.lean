import ServiceConsumers.ListPatches
import ServiceConsumers.OverlookedChanges

set_option autoImplicit false

/-!
# Patches of the areas of a session

A service area is sent when it has a list, and an external one when it has civic addresses. The
differs go by whether the areas are there, which is not the same.
-/

namespace ServiceConsumers.AreaPatches

open JsonDocuments UnorderedArrays ForeignPatches MemberPatches PatchLists CarriedPatches
  ListPatches ServiceAreas ExternalServiceAreas PublicSessions OverlookedChanges

/-! ## The condition -/

/-- The TAI and the cells, in their order. -/
def ncgiTaiText (n : NcgiTai) :
    ((String × String) × String × Option String) × List ((String × String) × String × Option String) :=
  (taiText n.tai, n.ncgis.map ncgiText)

def NoLists (x : MbsServiceArea) : Prop := x.ncgiTais = [] ∧ x.tais = []

/-- Neither area is sent, or both are and their lists can be patched. -/
def AreaChange (x y : MbsServiceArea) : Prop :=
  (NoLists x ∧ NoLists y) ∨
    (¬ NoLists x ∧ ¬ NoLists y ∧ PrefixPatchable ncgiTaiEqual ncgiTaiText x.ncgiTais y.ncgiTais ∧
      PrefixPatchable taiEqual taiText x.tais y.tais)

def AreaPatchable : Option MbsServiceArea → Option MbsServiceArea → Prop :=
  WholePatchable (fun y => ¬ NoLists y) AreaChange

/-- The civic addresses become no fewer, and the first ones do not come in between. -/
def ExtAreaChange (x y : ExtMbsServiceArea) : Prop :=
  (x.civicAddresses = [] ∧ y.civicAddresses = []) ∨
    (x.civicAddresses ≠ [] ∧ x.civicAddresses.length ≤ y.civicAddresses.length)

def ExtAreaPatchable : Option ExtMbsServiceArea → Option ExtMbsServiceArea → Prop :=
  WholePatchable (fun y => y.civicAddresses ≠ []) ExtAreaChange

/-! ## Elements and their texts -/

theorem map_eq_map_iff {α β γ : Type} {f : α → β} {g : α → γ}
    (h : ∀ x y, f x = f y ↔ g x = g y) {xs ys : List α} :
    xs.map f = ys.map f ↔ xs.map g = ys.map g := by
  induction xs generalizing ys with
  | nil => cases ys <;> simp
  | cons x xs ih => cases ys <;> simp [h, ih]

theorem str_map_inj {α : Type} {f : α → String} {x y : Option α} :
    x.map (fun a => Json.str (f a)) = y.map (fun a => Json.str (f a)) ↔ x.map f = y.map f := by
  cases x <;> cases y <;> simp

theorem plmnIdToJson_inj {p q : PlmnId} :
    plmnIdToJson p = plmnIdToJson q ↔ plmnIdText p = plmnIdText q := by
  refine (obj_ofList_inj (by rfl) (by simp)).trans ?_
  simp [plmnIdText]

theorem taiToJson_inj (t u : Tai) : taiToJson t = taiToJson u ↔ taiText t = taiText u := by
  refine (obj_ofList_inj (by rfl) (by simp)).trans ?_
  have hnid : t.nid.map nidToJson = u.nid.map nidToJson ↔ t.nid.map nidText = u.nid.map nidText :=
    str_map_inj
  simp [plmnIdToJson_inj, hnid, taiText]

theorem ncgiToJson_inj (n m : Ncgi) : ncgiToJson n = ncgiToJson m ↔ ncgiText n = ncgiText m := by
  refine (obj_ofList_inj (by rfl) (by simp)).trans ?_
  have hnid : n.nid.map nidToJson = m.nid.map nidToJson ↔ n.nid.map nidText = m.nid.map nidText :=
    str_map_inj
  simp [plmnIdToJson_inj, hnid, ncgiText]

theorem ncgiTaiToJson_inj (n m : NcgiTai) :
    ncgiTaiToJson n = ncgiTaiToJson m ↔ ncgiTaiText n = ncgiTaiText m := by
  refine (obj_ofList_inj (by rfl) (by simp)).trans ?_
  simp [taiToJson_inj, ncgisToJson, map_eq_map_iff ncgiToJson_inj, ncgiTaiText]

/-! ## Service areas -/

variable {x y : MbsServiceArea} {ncgis tais : List PatchItem}

def areaRows (x y : MbsServiceArea) (ncgis tais : List PatchItem) : List MemberPatch :=
  [⟨"ncgiList", listMember ncgiTaiToJson x.ncgiTais, ncgis, listMember ncgiTaiToJson y.ncgiTais⟩,
    ⟨"taiList", listMember taiToJson x.tais, tais, listMember taiToJson y.tais⟩]

/-- What the differ does about two areas. -/
def areaPatchList (x y : MbsServiceArea) : Option (List PatchItem) := do
  let patches ← appendPatches [] (ncgiTaisPatchList x.ncgiTais y.ncgiTais) [.key "ncgiList"]
  appendPatches patches (taisPatchList x.tais y.tais) [.key "taiList"]

theorem carries_areaPatchList {before after : Option Json} :
    Carries (areaPatchList x y) before after ↔
      ∃ ncgis tais, ncgiTaisPatchList x.ncgiTais y.ncgiTais = some ncgis ∧ Valued ncgis ∧
        taisPatchList x.tais y.tais = some tais ∧ Valued tais ∧
          Carries (some (objectPatch (areaRows x y ncgis tais))) before after := by
  have hlist : ∀ ncgis tais : List PatchItem,
      ([] ++ ncgis.map (below "ncgiList")) ++ tais.map (below "taiList") =
        objectPatch (areaRows x y ncgis tais) := by
    intro ncgis tais
    simp [objectPatch, areaRows]
  have hsome : ∀ items, areaPatchList x y = some items ↔
      ∃ ncgis tais, ncgiTaisPatchList x.ncgiTais y.ncgiTais = some ncgis ∧ Valued ncgis ∧
        taisPatchList x.tais y.tais = some tais ∧ Valued tais ∧
          items = objectPatch (areaRows x y ncgis tais) := by
    intro items
    simp only [areaPatchList, bind, Option.bind_eq_some_iff, appendPatches_key]
    constructor
    · rintro ⟨_, ⟨ncgis, hncgis, hvncgis, rfl⟩, tais, htais, hvtais, rfl⟩
      exact ⟨ncgis, tais, hncgis, hvncgis, htais, hvtais, hlist _ _⟩
    · rintro ⟨ncgis, tais, hncgis, hvncgis, htais, hvtais, rfl⟩
      exact ⟨_, ⟨ncgis, hncgis, hvncgis, rfl⟩, tais, htais, hvtais, (hlist _ _).symm⟩
  constructor
  · rintro ⟨items, hitems, h⟩
    obtain ⟨ncgis, tais, hncgis, hvncgis, htais, hvtais, rfl⟩ := (hsome items).1 hitems
    exact ⟨ncgis, tais, hncgis, hvncgis, htais, hvtais, _, rfl, h⟩
  · rintro ⟨ncgis, tais, hncgis, hvncgis, htais, hvtais, h⟩
    exact ⟨_, (hsome _).2 ⟨ncgis, tais, hncgis, hvncgis, htais, hvtais, rfl⟩, carries_some.1 h⟩

theorem areaMember_some (x : MbsServiceArea) :
    (NoLists x → areaMember (some x) = none) ∧
      (¬ NoLists x → areaMember (some x) = some (mbsServiceAreaToJson x)) := by
  have hlength : NoLists x ↔ ¬ x.ncgiTais.length + x.tais.length > 0 := by
    rw [NoLists, ← List.length_eq_zero_iff, ← List.length_eq_zero_iff]
    omega
  constructor
  · exact fun h => if_neg (hlength.1 h)
  · exact fun h => if_pos (not_not.1 (fun hnot => h (hlength.2 hnot)))

theorem areaPatchList_noLists (hx : NoLists x) (hy : NoLists y) : areaPatchList x y = some [] := by
  rw [areaPatchList, hx.1, hx.2, hy.1, hy.2]
  rfl

theorem carries_areaChange (x y : MbsServiceArea) :
    Carries (areaPatchList x y) (areaMember (some x)) (areaMember (some y)) ↔ AreaChange x y := by
  by_cases hx : NoLists x
  · rw [(areaMember_some x).1 hx]
    by_cases hy : NoLists y
    · rw [(areaMember_some y).1 hy, areaPatchList_noLists hx hy]
      exact iff_of_true (carries_nil.2 rfl) (.inl ⟨hx, hy⟩)
    · rw [(areaMember_some y).2 hy]
      refine iff_of_false (fun h => ?_) (by simp [AreaChange, hx, hy])
      obtain ⟨ncgis, tais, -, -, -, -, h⟩ := carries_areaPatchList.1 h
      exact not_carries_come objectPatch_paths h
  · rw [(areaMember_some x).2 hx]
    by_cases hy : NoLists y
    · rw [(areaMember_some y).1 hy]
      refine iff_of_false (fun h => ?_) (by simp [AreaChange, hx, hy])
      obtain ⟨ncgis, tais, -, -, -, -, h⟩ := carries_areaPatchList.1 h
      exact not_carries_go objectPatch_paths h
    · have hobject : ∀ ncgis tais, Carries (some (objectPatch (areaRows x y ncgis tais)))
          (some (mbsServiceAreaToJson x)) (some (mbsServiceAreaToJson y)) ↔
          ∀ r ∈ areaRows x y ncgis tais, Valued r.patches ∧ r.Right := by
        intro ncgis tais
        have hnames : ((areaRows x y ncgis tais).map MemberPatch.name).Nodup := by
          change ["ncgiList", "taiList"].Nodup
          decide
        exact carries_object_iff hnames
      have hncgis := @carries_prefixPatchList _ _ ncgiTaiEqual .index ncgiTaiToJson ncgiTaiText
        x.ncgiTais y.ncgiTais addsAtEnd_index ncgiTaiToJson_inj
      have htais := @carries_prefixPatchList _ _ taiEqual (fun _ => .last) taiToJson taiText
        x.tais y.tais addsAtEnd_last taiToJson_inj
      have hchange : AreaChange x y ↔
          PrefixPatchable ncgiTaiEqual ncgiTaiText x.ncgiTais y.ncgiTais ∧
            PrefixPatchable taiEqual taiText x.tais y.tais := by
        simp [AreaChange, hx, hy]
      rw [(areaMember_some y).2 hy, hchange, ← hncgis, ← htais, carries_areaPatchList]
      simp only [hobject]
      simp only [areaRows, List.forall_mem_cons, MemberPatch.Right]
      constructor
      · rintro ⟨ncgis, tais, hn, hvn, ht, hvt, ⟨-, hrn⟩, ⟨-, hrt⟩, -⟩
        exact ⟨⟨ncgis, hn, hvn, hrn⟩, ⟨tais, ht, hvt, hrt⟩⟩
      · rintro ⟨⟨ncgis, hn, hvn, hrn⟩, ⟨tais, ht, hvt, hrt⟩⟩
        exact ⟨ncgis, tais, hn, hvn, ht, hvt, ⟨hvn, hrn⟩, ⟨hvt, hrt⟩, List.forall_mem_nil _⟩

theorem carries_area_iff (a b : Option MbsServiceArea) :
    Carries (mbsServiceAreaPatchList a b) (areaMember a) (areaMember b) ↔ AreaPatchable a b := by
  have hbind : ∀ a, areaMember a = a.bind fun x => areaMember (some x) := by
    intro a
    cases a <;> rfl
  rw [hbind a, hbind b]
  refine carries_structure_iff (fun y _ => ?_) fun x _ y _ => carries_areaChange x y
  rw [Option.isSome_some, and_iff_right rfl]
  refine ⟨(areaMember_some y).2, fun h hy => ?_⟩
  rw [(areaMember_some y).1 hy] at h
  cases h

/-! ## External service areas -/

/-- What the differ does about two external areas. -/
def extAreaPatchList (x y : ExtMbsServiceArea) : Option (List PatchItem) := do
  let patches ← appendPatches [] (geographicAreasPatchList x.geographicAreas y.geographicAreas)
    [.key "geographicAreaList"]
  appendPatches patches (civicAddressesPatchList x.civicAddresses y.civicAddresses)
    [.key "civicAddressList"]

variable {v w : ExtMbsServiceArea} {civics : List PatchItem}

def extAreaRows (v w : ExtMbsServiceArea) (civics : List PatchItem) : List MemberPatch :=
  [⟨"civicAddressList", listMember civicAddressToJson v.civicAddresses, civics,
    listMember civicAddressToJson w.civicAddresses⟩]

theorem extAreaPatchList_eq_some (hv : v.geographicAreas = []) (hw : w.geographicAreas = [])
    {items : List PatchItem} : extAreaPatchList v w = some items ↔
      ∃ civics, civicAddressesPatchList v.civicAddresses w.civicAddresses = some civics ∧
        Valued civics ∧ items = objectPatch (extAreaRows v w civics) := by
  have hgeo : appendPatches [] (geographicAreasPatchList v.geographicAreas w.geographicAreas)
      [.key "geographicAreaList"] = some [] := by
    rw [hv, hw]
    rfl
  simp only [extAreaPatchList, hgeo, bind, Option.bind_some, appendPatches_key]
  simp [objectPatch, extAreaRows]

/-- Addresses that compare equal are written alike. -/
theorem civics_patchable {cs ds : List CivicAddress} :
    ListPatchable civicAddressEqual civicAddressToJson cs ds ↔ cs.length ≤ ds.length :=
  and_iff_left fun _ _ h => civicAddressToJson_eq h

theorem carries_civics (cs ds : List CivicAddress) :
    Carries (civicAddressesPatchList cs ds) (listMember civicAddressToJson cs)
      (listMember civicAddressToJson ds) ↔ cs.length ≤ ds.length :=
  (carries_indexPatchList addsAtEnd_last fun _ _ => Iff.rfl).trans civics_patchable

theorem extAreaMember_none (hv : v.civicAddresses = []) : extAreaMember (some v) = none := if_pos hv

theorem extAreaMember_some (hv : v.civicAddresses ≠ []) (w : ExtMbsServiceArea)
    (civics : List PatchItem) : extAreaMember (some v) = some (objectBefore (extAreaRows v w civics)) ∧
      extAreaMember (some v) = some (objectAfter (extAreaRows w v civics)) := by
  have hmember : listMember civicAddressToJson v.civicAddresses =
      some (civicAddressesToJson v.civicAddresses) := if_neg hv
  have hsome : extAreaMember (some v) = some (.obj (Members.ofList
      [("civicAddressList", some (civicAddressesToJson v.civicAddresses))])) := if_neg hv
  rw [hsome, ← hmember]
  exact ⟨rfl, rfl⟩

theorem carries_extAreaChange (hv : v.geographicAreas = []) (hw : w.geographicAreas = []) :
    Carries (extAreaPatchList v w) (extAreaMember (some v)) (extAreaMember (some w)) ↔
      ExtAreaChange v w := by
  have hitems : ∀ before after, Carries (extAreaPatchList v w) before after ↔
      ∃ civics, civicAddressesPatchList v.civicAddresses w.civicAddresses = some civics ∧
        Valued civics ∧ Carries (some (objectPatch (extAreaRows v w civics))) before after := by
    intro before after
    constructor
    · rintro ⟨items, hitems, h⟩
      obtain ⟨civics, hcivics, hvalued, rfl⟩ := (extAreaPatchList_eq_some hv hw).1 hitems
      exact ⟨civics, hcivics, hvalued, _, rfl, h⟩
    · rintro ⟨civics, hcivics, hvalued, h⟩
      exact ⟨_, (extAreaPatchList_eq_some hv hw).2 ⟨civics, hcivics, hvalued, rfl⟩,
        carries_some.1 h⟩
  rw [hitems]
  by_cases hcv : v.civicAddresses = []
  · rw [extAreaMember_none hcv]
    by_cases hcw : w.civicAddresses = []
    · rw [extAreaMember_none hcw]
      refine iff_of_true ⟨[], ?_, valued_nil, carries_nil.2 rfl⟩ (.inl ⟨hcv, hcw⟩)
      rw [hcv, hcw]
      rfl
    · rw [(extAreaMember_some hcw v []).1]
      refine iff_of_false ?_ (by simp [ExtAreaChange, hcv, hcw])
      rintro ⟨civics, -, -, h⟩
      exact not_carries_come objectPatch_paths h
  · have hchange : ExtAreaChange v w ↔ v.civicAddresses.length ≤ w.civicAddresses.length := by
      simp [ExtAreaChange, hcv]
    rw [hchange]
    by_cases hcw : w.civicAddresses = []
    · rw [extAreaMember_none hcw, (extAreaMember_some hcv w []).1]
      refine iff_of_false ?_ ?_
      · rintro ⟨civics, -, -, h⟩
        exact not_carries_go objectPatch_paths h
      · rw [hcw, List.length_nil, Nat.le_zero, List.length_eq_zero_iff]
        exact hcv
    · have hobject : ∀ civics, Carries (some (objectPatch (extAreaRows v w civics)))
          (extAreaMember (some v)) (extAreaMember (some w)) ↔
          ∀ r ∈ extAreaRows v w civics, Valued r.patches ∧ r.Right := by
        intro civics
        rw [(extAreaMember_some hcv w civics).1, (extAreaMember_some hcw v civics).2]
        exact carries_object_iff (List.nodup_singleton _)
      rw [← carries_civics]
      simp only [hobject]
      simp only [extAreaRows, List.forall_mem_cons, MemberPatch.Right]
      constructor
      · rintro ⟨civics, hcivics, hvalued, ⟨-, hright⟩, -⟩
        exact ⟨civics, hcivics, hvalued, hright⟩
      · rintro ⟨civics, hcivics, hvalued, hright⟩
        exact ⟨civics, hcivics, hvalued, ⟨hvalued, hright⟩, List.forall_mem_nil _⟩

theorem extMbsServiceAreaToJson_civic (hv : v.geographicAreas = []) :
    extMbsServiceAreaToJson v = some (.obj (Members.ofList
      [("civicAddressList", listMember civicAddressToJson v.civicAddresses)])) := by
  rw [extMbsServiceAreaToJson, hv]
  rfl

theorem carries_extArea_iff {a b : Option ExtMbsServiceArea}
    (ha : ∀ x, a = some x → x.geographicAreas = [])
    (hb : ∀ y, b = some y → y.geographicAreas = []) :
    Carries (extMbsServiceAreaPatchList a b) (extAreaMember a) (extAreaMember b) ↔
      ExtAreaPatchable a b := by
  refine carries_structure_iff (fun w hw => ?_) fun v hv w hw =>
    carries_extAreaChange (ha v hv) (hb w hw)
  rw [extMbsServiceAreaToJson_civic (hb w hw), Option.isSome_some, and_iff_right rfl]
  by_cases hcw : w.civicAddresses = []
  · exact iff_of_false (fun h => h hcw) fun h => by cases (extAreaMember_none hcw).symm.trans h
  · exact iff_of_true hcw (extAreaMember_some hcw w []).1

/-! ## FSA identifiers -/

theorem carries_fsaIds_iff (a b : List ℕ) :
    Carries (mbsFsaIdsPatchList a b) (listMember mbsFsaIdToJson a) (listMember mbsFsaIdToJson b) ↔
      a.length ≤ b.length := by
  refine (carries_indexPatchList addsAtEnd_index fun _ _ => Iff.rfl).trans ?_
  refine and_iff_left fun p _ h => ?_
  rw [beq_iff_eq.1 h]

end ServiceConsumers.AreaPatches
