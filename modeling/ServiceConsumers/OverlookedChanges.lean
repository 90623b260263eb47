import ServiceConsumers.MediaInfos
import ServiceConsumers.Quiescence
import ServiceConsumers.UnorderedArrays
import Std.Data.String.ToInt

set_option autoImplicit false

/-!
# Changes that the comparison of two sessions overlooks

A push compares a session with its copy, and sends nothing when they are equal. What two equal
sessions are sent as is compared here, member by member, with what the comparison looks at.
-/

namespace ServiceConsumers.OverlookedChanges

open ObjectStore JsonDocuments WireText ServiceAreas ExternalServiceAreas MediaComponents
  PublicSessions ConsumerState SessionOperations PushEffects SessionCopies Quiescence
  UnorderedArrays GreedyMatching MediaInfos

/-! ## What is to hold -/

/-- Both sessions are encoded, and alike. The FSA identifiers keep their order. -/
def EncodedAlike {τ : Type} (a b : PublicSession τ) : Prop :=
  ∀ forUpdate, ∃ ms ms', makeExtMbsSession forUpdate a = some ms ∧
    makeExtMbsSession forUpdate b = some ms' ∧ UpToOrder (.obj ms) (.obj ms') ∧
    Members.lookup "mbsFsaIdList" ms = Members.lookup "mbsFsaIdList" ms'

/-! ## The condition -/

def plmnIdText (p : PlmnId) : String × String := (plmnIdMccString p, plmnIdMncString p)

def nidText (nid : ℕ) : String := uint64ToHexStr nid 11 11

/-- A TAI with the digits of its MNC. -/
def taiText (t : Tai) : (String × String) × String × Option String :=
  (plmnIdText t.plmnId, uint32ToHexStr t.tac 4 6, t.nid.map nidText)

def ncgiText (n : Ncgi) : (String × String) × String × Option String :=
  (plmnIdText n.plmnId, uint64ToHexStr n.nrCellId 9 9, n.nid.map nidText)

/-- The same TAI and the same cells. -/
def NcgiTaisAgree (n m : NcgiTai) : Prop :=
  taiText n.tai = taiText m.tai ∧ (n.ncgis.map ncgiText).Perm (m.ncgis.map ncgiText)

structure AreasAgree (x y : MbsServiceArea) : Prop where
  ncgiTais : Multiset.Rel NcgiTaisAgree (x.ncgiTais : Multiset NcgiTai) (y.ncgiTais : Multiset NcgiTai)
  tais : (x.tais.map taiText).Perm (y.tais.map taiText)

def bandwidthTexts (info : MbsMediaInfo) : Option String × Option String :=
  (info.maxRequestedMbsBandwidthDownlink.map bitrateToStr,
    info.minRequestedMbsBandwidthDownlink.map bitrateToStr)

def flowTexts (c : MbsMediaComp) : List String :=
  (c.flowDescriptions.getD []).filterMap FlowDescription.string

structure CompsAgree (c d : MbsMediaComp) : Prop where
  flows : (flowTexts c).Perm (flowTexts d)
  bandwidths : c.mediaInfo.map bandwidthTexts = d.mediaInfo.map bandwidthTexts

/-- The sessions agree on the MNC digits and cells of their service areas and on the flow
descriptions and bandwidths of their media components. -/
structure OverlookedAgree {τ : Type} (a b : PublicSession τ) : Prop where
  areas : ∀ x y, a.mbsServiceArea = some x → b.mbsServiceArea = some y → AreasAgree x y
  comps : ∀ info info' s t, a.mbsServiceInfo = some info → b.mbsServiceInfo = some info' →
    info.mbsMediaComps = some s → info'.mbsMediaComps = some t →
      ∀ c ∈ s, ∀ d, findMediaComp t c.id = some d → CompsAgree c d

/-! ## Service areas -/

theorem forall_some_iff {α β : Type} {p : α → β → Prop} {a : α} {b : β} :
    (∀ a' b', some a = some a' → some b = some b' → p a' b') ↔ p a b := by
  constructor
  · exact fun h => h a b rfl rfl
  · rintro h _ _ ⟨⟩ ⟨⟩
    exact h

theorem rel_map_texts {α β : Type} {toJson : α → Json} {text : α → β} {x y : Option α}
    (h : ∀ a b, UpToOrder (toJson a) (toJson b) ↔ text a = text b) :
    Option.Rel UpToOrder (x.map toJson) (y.map toJson) ↔ x.map text = y.map text := by
  have hiff : (fun a b => UpToOrder (toJson a) (toJson b)) = fun a b => text a = text b := by
    funext a b
    exact propext (h a b)
  rw [rel_map_iff, hiff, rel_eq_map_iff]

theorem upToOrder_plmnIdToJson {p q : PlmnId} :
    UpToOrder (plmnIdToJson p) (plmnIdToJson q) ↔ plmnIdText p = plmnIdText q := by
  refine (upToOrder_ofList (by rfl) (by simp)).trans ?_
  simp [upToOrder_str, plmnIdText]

theorem upToOrder_nidToJson (a b : ℕ) :
    UpToOrder (nidToJson a) (nidToJson b) ↔ nidText a = nidText b := upToOrder_str

theorem upToOrder_taiToJson {t u : Tai} :
    UpToOrder (taiToJson t) (taiToJson u) ↔ taiText t = taiText u := by
  refine (upToOrder_ofList (by rfl) (by simp)).trans ?_
  simp [upToOrder_str, upToOrder_plmnIdToJson, rel_map_texts upToOrder_nidToJson,
    taiText]

theorem upToOrder_ncgiToJson {n m : Ncgi} :
    UpToOrder (ncgiToJson n) (ncgiToJson m) ↔ ncgiText n = ncgiText m := by
  refine (upToOrder_ofList (by rfl) (by simp)).trans ?_
  simp [upToOrder_str, upToOrder_plmnIdToJson, rel_map_texts upToOrder_nidToJson,
    ncgiText]

theorem upToOrder_ncgiTaiToJson {n m : NcgiTai} :
    UpToOrder (ncgiTaiToJson n) (ncgiTaiToJson m) ↔ NcgiTaisAgree n m := by
  have hcells : UpToOrder (ncgisToJson n.ncgis) (ncgisToJson m.ncgis) ↔
      (n.ncgis.map ncgiText).Perm (m.ncgis.map ncgiText) :=
    (upToOrder_arr_map fun _ _ => upToOrder_ncgiToJson).trans rel_text_iff
  refine (upToOrder_ofList (by rfl) (by simp)).trans ?_
  simp [upToOrder_taiToJson, hcells, NcgiTaisAgree]

theorem upToOrder_mbsServiceAreaToJson {x y : MbsServiceArea} :
    UpToOrder (mbsServiceAreaToJson x) (mbsServiceAreaToJson y) ↔ AreasAgree x y := by
  have hncgis := @rel_nonempty_array _ NcgiTaisAgree ncgiTaisToJson
    (fun _ _ => upToOrder_arr_map fun _ _ => upToOrder_ncgiTaiToJson) x.ncgiTais y.ncgiTais _ _
  have htais := @rel_nonempty_array _ _ taisToJson
    (fun _ _ => upToOrder_arr_map fun _ _ => upToOrder_taiToJson) x.tais y.tais _ _
  rw [rel_text_iff] at htais
  refine (upToOrder_ofList (by rfl) (by simp)).trans ?_
  simp only [List.forall₂_cons, List.forall₂_nil_left_iff, hncgis, htais, and_true]
  exact ⟨fun h => ⟨h.1, h.2⟩, fun h => ⟨h.ncgiTais, h.tais⟩⟩

/-- The member that a service area is sent as. -/
def areaMember (a : Option MbsServiceArea) : Option Json :=
  match a with
  | some x => if x.ncgiTais.length + x.tais.length > 0 then some (mbsServiceAreaToJson x) else none
  | none => none

theorem rel_areaMember {a b : Option MbsServiceArea}
    (h : optionEqual mbsServiceAreaEqual a b = true) :
    Option.Rel UpToOrder (areaMember a) (areaMember b) ↔
      ∀ x y, a = some x → b = some y → AreasAgree x y := by
  cases a with
  | none =>
      cases b with
      | none => exact iff_of_true .none nofun
      | some y => cases h
  | some x =>
      cases b with
      | none => cases h
      | some y =>
          simp only [optionEqual, mbsServiceAreaEqual, Bool.and_eq_true, beq_iff_eq] at h
          obtain ⟨⟨⟨hncgis, htais⟩, -⟩, -⟩ := h
          rw [forall_some_iff]
          simp only [areaMember, ← hncgis, ← htais]
          split
          · rw [Option.rel_some_some, upToOrder_mbsServiceAreaToJson]
          · rename_i hempty
            refine iff_of_true .none ?_
            have hx : x.ncgiTais = [] ∧ x.tais = [] :=
              ⟨List.eq_nil_of_length_eq_zero (by omega), List.eq_nil_of_length_eq_zero (by omega)⟩
            have hy : y.ncgiTais = [] ∧ y.tais = [] :=
              ⟨List.eq_nil_of_length_eq_zero (by omega), List.eq_nil_of_length_eq_zero (by omega)⟩
            refine ⟨?_, ?_⟩
            · rw [hx.1, hy.1]
              exact .zero
            · rw [hx.2, hy.2]

/-! ## External service areas -/

theorem civicAddressToJson_eq {c d : CivicAddress} (h : civicAddressEqual c d = true) :
    civicAddressToJson c = civicAddressToJson d := by
  rw [civicAddressEqual, beq_iff_eq] at h
  rw [civicAddressToJson, civicAddressToJson, h]

theorem upToOrder_civicAddressesToJson {cs ds : List CivicAddress}
    (h : civicAddressesEqual cs ds = true) :
    UpToOrder (civicAddressesToJson cs) (civicAddressesToJson ds) ∧ (cs = [] ↔ ds = []) := by
  have hcopy : ds.map civicAddressCopy = ds := List.map_id _
  unfold civicAddressesEqual at h
  split at h
  · exact ⟨.same _, Iff.rfl⟩
  · simp only [Bool.and_eq_true, beq_iff_eq, hcopy] at h
    obtain ⟨hlength, hmatch⟩ := h
    constructor
    · refine (upToOrder_arr_map fun _ _ => Iff.rfl).2 ?_
      refine (rel_of_matchAll hlength hmatch).mono fun c _ d _ hcd => ?_
      rw [civicAddressToJson_eq hcd]
      exact .same _
    · rw [← List.length_eq_zero_iff, ← List.length_eq_zero_iff, hlength]

/-- The member that an area without geographic areas is sent as. -/
def extAreaMember (a : Option ExtMbsServiceArea) : Option Json :=
  a.bind fun x =>
    if x.civicAddresses = [] then none
    else some (.obj (Members.ofList
      [("civicAddressList", some (civicAddressesToJson x.civicAddresses))]))

theorem rel_extAreaMember {a b : Option ExtMbsServiceArea}
    (h : optionEqual extMbsServiceAreaEqual a b = true) :
    Option.Rel UpToOrder (extAreaMember a) (extAreaMember b) := by
  cases a with
  | none =>
      cases b with
      | none => exact .none
      | some y => cases h
  | some x =>
      cases b with
      | none => cases h
      | some y =>
          simp only [optionEqual, extMbsServiceAreaEqual, Bool.and_eq_true] at h
          obtain ⟨halike, hempty⟩ := upToOrder_civicAddressesToJson h.2
          simp only [extAreaMember, Option.bind_some, hempty]
          split
          · exact .none
          · refine .some ((upToOrder_ofList (by rfl) (by simp)).2 ?_)
            exact .cons (.some halike) .nil

theorem geographicAreas_of_equal {a b : Option ExtMbsServiceArea}
    (h : optionEqual extMbsServiceAreaEqual a b = true) :
    (∀ x, a = some x → x.geographicAreas = []) ∧ ∀ y, b = some y → y.geographicAreas = [] := by
  cases a with
  | none =>
      cases b with
      | none => exact ⟨nofun, nofun⟩
      | some y => cases h
  | some x =>
      cases b with
      | none => cases h
      | some y =>
          simp only [optionEqual, extMbsServiceAreaEqual, Bool.and_eq_true] at h
          obtain ⟨hx, hy⟩ := geographicAreasEqual_iff.1 h.1
          exact ⟨fun x' hx' => by cases hx'; exact hx, fun y' hy' => by cases hy'; exact hy⟩

/-! ## Media components -/

theorem rel_texts {xs ys : List String} (h : xs.Perm ys) :
    Option.Rel UpToOrder (if xs = [] then none else some (.arr (xs.map Json.str)))
      (if ys = [] then none else some (.arr (ys.map Json.str))) := by
  refine (@rel_nonempty_array _ Eq (fun xs => .arr (xs.map Json.str)) (fun _ _ => ?_) xs ys _ _).2 ?_
  · rw [upToOrder_texts, ← Multiset.coe_eq_coe, ← Multiset.rel_eq]
  · rw [Multiset.rel_eq, Multiset.coe_eq_coe]
    exact h

theorem rel_codecs {x y : MbsMediaInfo} (h : codecsEqual (codecSlots x) (codecSlots y) = true) :
    Option.Rel UpToOrder
      (match x.codec0, x.codec1 with
        | none, none => none
        | c, d => some (Json.arr (c.toList.map .str ++ d.toList.map .str)))
      (match y.codec0, y.codec1 with
        | none, none => none
        | c, d => some (Json.arr (c.toList.map .str ++ d.toList.map .str))) := by
  have heq : ∀ info : MbsMediaInfo,
      (match info.codec0, info.codec1 with
        | none, none => none
        | c, d => some (Json.arr (c.toList.map .str ++ d.toList.map .str))) =
        if codecTexts info = [] then none else some (Json.arr ((codecTexts info).map .str)) := by
    rintro ⟨_, _, _, c0, c1⟩
    cases c0 <;> cases c1 <;> rfl
  rw [heq, heq]
  exact rel_texts ((codecsEqual_codecTexts x y).1 h)

theorem upToOrder_bitrateToJson (a b : ℕ) :
    UpToOrder (bitrateToJson a) (bitrateToJson b) ↔ bitrateToStr a = bitrateToStr b := upToOrder_str

theorem upToOrder_mbsMediaInfoToJson {x y : MbsMediaInfo}
    (h : mbsMediaInfoEqual (some x) (some y) = true) :
    UpToOrder (mbsMediaInfoToJson x) (mbsMediaInfoToJson y) ↔
      bandwidthTexts x = bandwidthTexts y := by
  simp only [mbsMediaInfoEqual, Bool.and_eq_true, beq_iff_eq] at h
  obtain ⟨⟨⟨htype, -⟩, -⟩, hcodecs⟩ := h
  refine (upToOrder_ofList (by rfl) (by simp)).trans ?_
  simp only [List.forall₂_cons, List.forall₂_nil_left_iff, and_true, htype,
    rel_refl UpToOrder.same, true_and, rel_map_texts upToOrder_bitrateToJson, bandwidthTexts,
    Prod.mk.injEq]
  exact and_congr_right fun _ => and_iff_left (rel_codecs hcodecs)

theorem rel_mbsMediaInfo {x y : Option MbsMediaInfo} (h : mbsMediaInfoEqual x y = true) :
    Option.Rel UpToOrder (x.map mbsMediaInfoToJson) (y.map mbsMediaInfoToJson) ↔
      x.map bandwidthTexts = y.map bandwidthTexts := by
  cases x with
  | none =>
      cases y with
      | none => exact iff_of_true .none rfl
      | some y => cases h
  | some x =>
      cases y with
      | none => cases h
      | some y =>
          rw [Option.map_some, Option.map_some, Option.rel_some_some,
            upToOrder_mbsMediaInfoToJson h, Option.map_some, Option.map_some, Option.some.injEq]

theorem flowJsons_eq (fs : List FlowDescription) :
    fs.filterMap flowDescriptionToJson = (fs.filterMap FlowDescription.string).map .str := by
  rw [List.map_filterMap]
  rfl

/-- Lists of flow descriptions of one length. -/
theorem rel_flowDescriptions {fs gs : List FlowDescription} (hlength : fs.length = gs.length) :
    Option.Rel UpToOrder (flowDescriptionsToJson fs) (flowDescriptionsToJson gs) ↔
      (fs.filterMap FlowDescription.string).Perm (gs.filterMap FlowDescription.string) := by
  have hempty : fs = [] ↔ gs = [] := by
    rw [← List.length_eq_zero_iff, ← List.length_eq_zero_iff, hlength]
  unfold flowDescriptionsToJson
  simp only [hempty]
  split
  · rename_i hgs
    rw [hempty.2 hgs, hgs]
    exact iff_of_true .none (.refl _)
  · rw [Option.rel_some_some, flowJsons_eq, flowJsons_eq, upToOrder_texts]

theorem flowDescriptions_length {a b : Option (List FlowDescription)}
    (h : flowDescriptionsEqual a b = some true) : (a.getD []).length = (b.getD []).length := by
  unfold flowDescriptionsEqual at h
  split at h
  · rfl
  · split at h
    · assumption
    · cases h
  · cases h

theorem mbsMediaCompEqual_eq_some_true {c d : MbsMediaComp} : mbsMediaCompEqual c d = some true ↔
    (c.mbsSdfReservePriority = d.mbsSdfReservePriority ∧ c.qosRef = d.qosRef) ∧
      flowDescriptionsEqual c.flowDescriptions d.flowDescriptions = some true ∧
      mbsMediaInfoEqual c.mediaInfo d.mediaInfo = true ∧ c.mbsQosReq = d.mbsQosReq := by
  unfold mbsMediaCompEqual
  split
  · rename_i h
    refine iff_of_false nofun fun hall => ?_
    exact h.elim (fun hne => hne hall.1.1) fun hne => hne hall.1.2
  · rename_i h
    rw [not_or, not_not, not_not] at h
    cases flowDescriptionsEqual c.flowDescriptions d.flowDescriptions with
    | none => simp
    | some flows => simp [h, mbsQosReqEqual, and_assoc]

theorem upToOrder_mbsMediaCompToJson {c d : MbsMediaComp} (hid : c.id = d.id)
    (h : mbsMediaCompEqual c d = some true) :
    UpToOrder (mbsMediaCompToJson c) (mbsMediaCompToJson d) ↔ CompsAgree c d := by
  obtain ⟨⟨hprio, hqosRef⟩, hflows, hinfo, hqos⟩ := mbsMediaCompEqual_eq_some_true.1 h
  have hsome : c.mediaInfo.isSome = d.mediaInfo.isSome := by
    cases hc : c.mediaInfo <;> cases hd : d.mediaInfo <;> simp_all [mbsMediaInfoEqual]
  refine (upToOrder_ofList (by rfl) (by simp)).trans ?_
  simp only [List.forall₂_cons, List.forall₂_nil_left_iff, and_true, hid, hprio, hqosRef, hqos,
    hsome, rel_refl UpToOrder.same, true_and, rel_mbsMediaInfo hinfo,
    rel_flowDescriptions (flowDescriptions_length hflows)]
  exact ⟨fun h => ⟨h.1, h.2⟩, fun h => ⟨h.flows, h.bandwidths⟩⟩

/-! ## Tables of media components -/

section Tables

variable {s t : MediaCompTable}

theorem find_key_eq (t : MediaCompTable) (i : ℤ) :
    t.find? (fun c => toString c.id = toString i) = findMediaComp t i := by
  have hkey : (fun c : MbsMediaComp => decide (toString c.id = toString i)) =
      fun c => decide (c.id = i) := by
    funext c
    exact decide_eq_decide.2 Int.repr_inj
  rw [findMediaComp, hkey]

theorem lookup_mbsMediaCompsToJson (name : String) (t : MediaCompTable) :
    Members.lookup name (Members.ofList (t.map fun c =>
      (toString c.id, some (mbsMediaCompToJson c)))) =
        (t.find? fun c => toString c.id = name).map mbsMediaCompToJson := by
  induction t with
  | nil => rfl
  | cons c t ih =>
      rw [List.map_cons, lookup_ofList_cons, ih, List.find?_cons]
      by_cases hc : toString c.id = name
      · rw [if_pos ⟨hc, rfl⟩, decide_eq_true hc]
        rfl
      · rw [if_neg fun h => hc h.1, decide_eq_false hc]

theorem exists_of_mediaCompsEqual (h : mediaCompsEqual s t = some true) :
    ∀ c ∈ s, ∃ d, findMediaComp t c.id = some d ∧ mbsMediaCompEqual c d = some true := by
  induction s with
  | nil => exact List.forall_mem_nil _
  | cons c s ih =>
      rw [mediaCompsEqual] at h
      cases hd : findMediaComp t c.id with
      | none =>
          rw [hd] at h
          cases h
      | some d =>
          simp only [hd] at h
          cases hcd : mbsMediaCompEqual c d with
          | none =>
              rw [hcd] at h
              cases h
          | some equal =>
              rw [hcd] at h
              cases equal with
              | false => cases h
              | true =>
                  rw [List.forall_mem_cons]
                  exact ⟨⟨d, hd, hcd⟩, ih h⟩

theorem findMediaComp_some {i : ℤ} {d : MbsMediaComp} (h : findMediaComp t i = some d) :
    d ∈ t ∧ d.id = i :=
  ⟨List.mem_of_find?_eq_some h, by simpa using List.find?_some h⟩

/-- A table that has each key of another one of its size has no other keys. -/
theorem findMediaComp_isSome (hkeys : KeyedByNumber s) (hlength : s.length = t.length)
    (h : ∀ c ∈ s, ∃ d, findMediaComp t c.id = some d) {d : MbsMediaComp} (hd : d ∈ t) :
    ∃ c ∈ s, c.id = d.id := by
  have hsubset : s.map MbsMediaComp.id ⊆ t.map MbsMediaComp.id := by
    intro i hi
    obtain ⟨c, hc, rfl⟩ := List.mem_map.1 hi
    obtain ⟨d, hd⟩ := h c hc
    obtain ⟨hmem, hid⟩ := findMediaComp_some hd
    exact List.mem_map.2 ⟨d, hmem, hid⟩
  have hperm : (s.map MbsMediaComp.id).Perm (t.map MbsMediaComp.id) := by
    refine (List.subperm_of_subset hkeys hsubset).perm_of_length_le ?_
    rw [List.length_map, List.length_map, hlength]
  have hid := hperm.mem_iff.2 (List.mem_map_of_mem hd)
  exact List.mem_map.1 hid

theorem upToOrder_mbsMediaCompsToJson (hkeys : KeyedByNumber s) (hlength : s.length = t.length)
    (h : mediaCompsEqual s t = some true) :
    UpToOrder (mbsMediaCompsToJson s) (mbsMediaCompsToJson t) ↔
      ∀ c ∈ s, ∀ d, findMediaComp t c.id = some d → CompsAgree c d := by
  have hfound := exists_of_mediaCompsEqual h
  rw [mbsMediaCompsToJson, mbsMediaCompsToJson, upToOrder_obj]
  simp only [lookup_mbsMediaCompsToJson]
  constructor
  · intro halike c hc d hd
    have hkey := halike (toString c.id)
    rw [find_key_eq, find_key_eq, findMediaComp_of_mem hkeys hc, hd] at hkey
    obtain ⟨d', hd', hequal⟩ := hfound c hc
    obtain rfl := Option.some.inj (hd.symm.trans hd')
    exact (upToOrder_mbsMediaCompToJson (findMediaComp_some hd).2.symm hequal).1
      (Option.rel_some_some.1 hkey)
  · intro hagree name
    cases hname : s.find? fun c => toString c.id = name with
    | some c =>
        have hc : c ∈ s := List.mem_of_find?_eq_some hname
        obtain rfl : toString c.id = name := by simpa using List.find?_some hname
        obtain ⟨d, hd, hequal⟩ := hfound c hc
        rw [find_key_eq, hd]
        exact .some ((upToOrder_mbsMediaCompToJson (findMediaComp_some hd).2.symm hequal).2
          (hagree c hc d hd))
    | none =>
        have hnone : t.find? (fun c => toString c.id = name) = none := by
          rw [List.find?_eq_none]
          intro d hd hdname
          obtain ⟨c, hc, hid⟩ := findMediaComp_isSome hkeys hlength
            (fun c hc => (hfound c hc).imp fun _ h => h.1) hd
          refine List.find?_eq_none.1 hname c hc ?_
          rw [hid]
          exact hdname
        rw [hnone]
        exact .none

end Tables

/-! ## Service information -/

theorem upToOrder_mbsServiceInfoToJson {info info' : MbsServiceInfo}
    (hkeys : ∀ s, info.mbsMediaComps = some s → KeyedByNumber s)
    (h : mbsServiceInfoEqual (some info) (some info') = some true) :
    UpToOrder (mbsServiceInfoToJson info) (mbsServiceInfoToJson info') ↔
      ∀ s t, info.mbsMediaComps = some s → info'.mbsMediaComps = some t →
        ∀ c ∈ s, ∀ d, findMediaComp t c.id = some d → CompsAgree c d := by
  obtain ⟨comps, app, ambr, prio⟩ := info
  obtain ⟨comps', app', ambr', prio'⟩ := info'
  simp only [mbsServiceInfoEqual] at h
  split at h
  · cases h
  · rename_i hsame
    simp only [not_or, not_not] at hsame
    obtain ⟨rfl, hsome, rfl, rfl⟩ := hsame
    refine (upToOrder_ofList (by rfl) (by simp)).trans ?_
    simp only [List.forall₂_cons, List.forall₂_nil_left_iff, and_true, rel_refl UpToOrder.same]
    cases comps with
    | none =>
        cases comps' with
        | none =>
            apply iff_of_true .none
            intro s t hs
            cases hs
        | some t => cases hsome
    | some s =>
        cases comps' with
        | none => cases hsome
        | some t =>
            dsimp only at h
            split at h
            · cases h
            · rename_i hlength
              rw [not_not] at hlength
              have hcomps := upToOrder_mbsMediaCompsToJson (hkeys s rfl) hlength h
              have hempty : s = [] ↔ t = [] := by
                rw [← List.length_eq_zero_iff, ← List.length_eq_zero_iff, hlength]
              rw [forall_some_iff, ← hcomps]
              simp only [Option.getD_some, hempty]
              split
              · rename_i ht
                rw [hempty.2 ht, ht]
                exact iff_of_true .none (.same _)
              · rw [Option.rel_some_some]

theorem rel_mbsServiceInfo {a b : Option MbsServiceInfo} (hkeys : EveryTable KeyedByNumber a)
    (h : mbsServiceInfoEqual a b = some true) :
    Option.Rel UpToOrder (a.map mbsServiceInfoToJson) (b.map mbsServiceInfoToJson) ↔
      ∀ info info' s t, a = some info → b = some info' → info.mbsMediaComps = some s →
        info'.mbsMediaComps = some t → ∀ c ∈ s, ∀ d, findMediaComp t c.id = some d →
          CompsAgree c d := by
  cases a with
  | none =>
      cases b with
      | none => exact iff_of_true .none nofun
      | some info' => cases h
  | some info =>
      cases b with
      | none => cases h
      | some info' =>
          have hinfo := upToOrder_mbsServiceInfoToJson (hkeys info · rfl) h
          rw [Option.map_some, Option.map_some, Option.rel_some_some, hinfo]
          constructor
          · rintro h _ _ s t ⟨⟩ ⟨⟩
            exact h s t
          · intro h s t
            exact h info info' s t rfl rfl

/-! ## Sessions -/

section Sessions

variable {τ : Type}

theorem makeExtMbsSession_eq {s : PublicSession τ}
    (h : ∀ x, s.extMbsServiceArea = some x → x.geographicAreas = []) (forUpdate : Bool) :
    makeExtMbsSession forUpdate s = some (Members.ofList
      [("mbsServiceArea", areaMember s.mbsServiceArea),
       ("extMbsServiceArea", extAreaMember s.extMbsServiceArea),
       ("mbsServInfo", s.mbsServiceInfo.map mbsServiceInfoToJson),
       ("activityStatus", if s.activityStatus = .none then none
          else some (activityStatusToJson s.activityStatus)),
       ("mbsFsaIdList", if s.mbsFsaIds = [] then none else some (mbsFsaIdsToJson s.mbsFsaIds)),
       ("contactPcfInd", if forUpdate && s.contactPcfInd then some (.bool true) else none)]) := by
  unfold makeExtMbsSession
  cases hext : s.extMbsServiceArea with
  | none => rfl
  | some x =>
      have hgeo := h x hext
      by_cases hcivic : x.civicAddresses = []
      · simp only [hgeo, hcivic, extAreaMember, Option.bind_some, if_true, List.length_nil]
        rfl
      · have hpos : x.geographicAreas.length + x.civicAddresses.length > 0 := by
          have := List.length_pos_iff.2 hcivic
          omega
        simp only [if_pos hpos, extAreaMember, Option.bind_some, extMbsServiceAreaToJson]
        rw [hgeo]
        simp only [if_neg hcivic]
        rfl

theorem publicEqualBefore_parts {a b : PublicSession Tmgi} (h : publicEqualBefore a b = true) :
    a.contactPcfInd = b.contactPcfInd ∧ a.activityStatus = b.activityStatus ∧
      optionEqual mbsServiceAreaEqual a.mbsServiceArea b.mbsServiceArea = true ∧
      optionEqual extMbsServiceAreaEqual a.extMbsServiceArea b.extMbsServiceArea = true := by
  simp only [publicEqualBefore, Bool.and_eq_true, beq_iff_eq] at h
  tauto

/-- Two sessions that compare equal are encoded alike exactly when they agree on what the
comparison overlooks. -/
theorem encodedAlike_iff {a b : PublicSession Tmgi} (hkeys : EveryTable KeyedByNumber a.mbsServiceInfo)
    (h : publicEqual a b = some true) : EncodedAlike a b ↔ OverlookedAgree a b := by
  obtain ⟨hbefore, hinfo, -, hfsa⟩ := publicEqual_eq_some_true.1 h
  obtain ⟨hcontact, hactivity, harea, hext⟩ := publicEqualBefore_parts hbefore
  rw [mbsFsaIdsEqual, beq_iff_eq] at hfsa
  obtain ⟨hgeo, hgeo'⟩ := geographicAreas_of_equal hext
  have halike : ∀ forUpdate, (∃ ms ms', makeExtMbsSession forUpdate a = some ms ∧
      makeExtMbsSession forUpdate b = some ms' ∧ UpToOrder (.obj ms) (.obj ms') ∧
      Members.lookup "mbsFsaIdList" ms = Members.lookup "mbsFsaIdList" ms') ↔
      OverlookedAgree a b := by
    intro forUpdate
    simp only [makeExtMbsSession_eq hgeo, makeExtMbsSession_eq hgeo', Option.some.injEq,
      exists_eq_left', exists_and_left]
    rw [upToOrder_ofList (by rfl) (by simp)]
    simp only [List.forall₂_cons, List.forall₂_nil_left_iff, and_true, hcontact, hactivity, hfsa,
      rel_refl UpToOrder.same, rel_extAreaMember hext, true_and, rel_areaMember harea,
      rel_mbsServiceInfo hkeys hinfo, lookup_ofList_cons]
    simp only [String.reduceEq, false_and, if_false, and_true]
    exact ⟨fun h => ⟨h.1, h.2⟩, fun h => ⟨h.areas, h.comps⟩⟩
  exact ⟨fun h => (halike false).1 (h false), fun h forUpdate => (halike forUpdate).2 h⟩

theorem pushDecision_unchanged {w : World} {x : MbsSession} {previous : PublicSession Ref}
    (hprevious : x.previousSession = some previous) (h : pushDecision w x = .ok .unchanged) :
    mbsSessionPublicEqual w previous x.session = .ok true := by
  cases hdeleted : x.deleted with
  | true =>
      rw [pushDecision, if_pos hdeleted] at h
      cases h
  | false => exact (pushDecision_eq_unchanged hdeleted hprevious).1 h

end Sessions

/-- Sessions that compare equal, and the two sides of a push that sends no update, are encoded
alike exactly when they agree on what the comparison overlooks. -/
theorem unseen_changes_iff (a b : PublicSession Tmgi)
    (hkeys : EveryTable KeyedByNumber a.mbsServiceInfo) :
    (publicEqual a b = some true → (EncodedAlike a b ↔ OverlookedAgree a b)) ∧
    ∀ w x previous c c', x.previousSession = some previous → previous.content c = a →
      x.session.content c' = b → pushDecision w x = .ok .unchanged →
        (EncodedAlike previous x.session ↔ OverlookedAgree previous x.session) := by
  refine ⟨encodedAlike_iff hkeys, ?_⟩
  rintro w x previous c c' hprevious rfl rfl h
  obtain ⟨d, d', -, -, hequal⟩ := mbsSessionPublicEqual_iff.1 (pushDecision_unchanged hprevious h)
  have halike : EncodedAlike (previous.content d) (x.session.content d') ↔
      OverlookedAgree (previous.content d) (x.session.content d') := encodedAlike_iff hkeys hequal
  have hencoded : EncodedAlike (previous.content d) (x.session.content d') ↔
      EncodedAlike previous x.session := Iff.rfl
  rw [← hencoded, halike]
  exact ⟨fun h => ⟨h.areas, h.comps⟩, fun h => ⟨h.areas, h.comps⟩⟩

def tunedSession (comps : MediaCompTable) (tais : List Tai) : PublicSession Tmgi :=
  { mbsServiceArea := some { tais := tais }
    mbsServiceInfo := some { mbsMediaComps := some comps } }

def firstTai : Tai := { plmnId := plmnIdBuild 1 1 2, tac := 1 }

def secondTai : Tai := { plmnId := plmnIdBuild 1 1 2, tac := 2 }

def flowComp (id : ℤ) (flow : String) : MbsMediaComp :=
  { id := id, flowDescriptions := some [{ string := some flow }] }

/-- Other orders of areas and components are no change. -/
theorem reordered_session_is_encoded_alike :
    EncodedAlike (tunedSession [flowComp 1 "permit", flowComp 2 "deny"] [firstTai, secondTai])
      (tunedSession [flowComp 2 "deny", flowComp 1 "permit"] [secondTai, firstTai]) := by
  refine ((unseen_changes_iff _ _ ?_).1 (by decide +kernel)).2 ⟨?_, ?_⟩
  · rintro _ _ ⟨⟩ ⟨⟩
    exact (by decide : ([1, 2] : List ℤ).Nodup)
  · rintro _ _ ⟨⟩ ⟨⟩
    exact ⟨.zero, .swap _ _ _⟩
  · rintro _ _ _ _ ⟨⟩ ⟨⟩ ⟨⟩ ⟨⟩ c hc d hd
    rw [List.mem_cons, List.mem_singleton] at hc
    rcases hc with rfl | rfl
    · obtain rfl := Option.some.inj hd
      exact ⟨.refl _, rfl⟩
    · obtain rfl := Option.some.inj hd
      exact ⟨.refl _, rfl⟩

/-- Another flow description is none either. -/
theorem changed_flow_is_overlooked : ¬∀ a b : PublicSession Tmgi,
    publicEqual a b = some true → EncodedAlike a b := by
  intro h
  have hkeys : EveryTable KeyedByNumber (tunedSession [flowComp 1 "permit"] []).mbsServiceInfo := by
    rintro _ _ ⟨⟩ ⟨⟩
    exact List.nodup_singleton _
  have hequal : publicEqual (tunedSession [flowComp 1 "permit"] [])
      (tunedSession [flowComp 1 "deny"] []) = some true := by decide +kernel
  have hagree := (encodedAlike_iff hkeys hequal).1 (h _ _ hequal)
  have hflows := (hagree.comps _ _ _ _ rfl rfl rfl rfl _ List.mem_cons_self _ rfl).flows
  exact absurd (List.perm_singleton.1 hflows) (by decide)

end ServiceConsumers.OverlookedChanges
