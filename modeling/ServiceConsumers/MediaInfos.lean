import ServiceConsumers.MediaComponentPatches
import ServiceConsumers.OptionalTexts

set_option autoImplicit false

/-!
# Media infos (`mbs-media-info.c`)

The codecs of a media info may stand in either of two slots. The comparison and the differ both
fill the first slot first.
-/

namespace ServiceConsumers.MediaInfos

open JsonDocuments PatchLists ForeignPatches MemberPatches CarriedPatches MediaComponents
  MediaComponentPatches OptionalTexts

/-! ## Codecs -/

def codecTexts (info : MbsMediaInfo) : List String := info.codec0.toList ++ info.codec1.toList

theorem codecTexts_codecSlots (x : MbsMediaInfo) :
    (codecSlots x).1.toList ++ (codecSlots x).2.toList = codecTexts x := by
  obtain ⟨_, _, _, c0, c1⟩ := x
  cases c0 <;> cases c1 <;> rfl

theorem pair_perm_iff {x₁ x₂ y₁ y₂ : String} : [x₁, x₂].Perm [y₁, y₂] ↔
    (if x₁ == y₁ then x₂ == y₂ else x₁ == y₂ && x₂ == y₁) = true := by
  by_cases h : x₁ = y₁
  · rw [h, List.perm_cons, List.perm_singleton, beq_self_eq_true, if_pos rfl, beq_iff_eq,
      List.cons.injEq]
    exact and_iff_left rfl
  · rw [if_neg fun heq => h (beq_iff_eq.1 heq), Bool.and_eq_true, beq_iff_eq, beq_iff_eq]
    constructor
    · intro hperm
      have hmem := hperm.subset List.mem_cons_self
      obtain rfl : x₁ = y₂ := by simpa [h] using hmem
      have hswap := hperm.trans (List.Perm.swap x₁ y₁ [])
      rw [List.perm_cons, List.perm_singleton, List.cons.injEq] at hswap
      exact ⟨rfl, hswap.1⟩
    · rintro ⟨rfl, rfl⟩
      exact List.Perm.swap x₂ x₁ []

/-- Slots that are filled in order compare equal when they hold the same texts. -/
theorem codecsEqual_iff {p q : Option String × Option String} (hp : FirstFilled p)
    (hq : FirstFilled q) : codecsEqual p q = true ↔
      (p.1.toList ++ p.2.toList).Perm (q.1.toList ++ q.2.toList) := by
  have hlength : ∀ {xs ys : List String}, xs.length ≠ ys.length → ¬ xs.Perm ys :=
    fun hne hperm => hne hperm.length_eq
  obtain ⟨p₁, p₂⟩ := p
  obtain ⟨q₁, q₂⟩ := q
  cases p₁ with
  | none =>
      obtain rfl : p₂ = none := hp rfl
      cases q₁ with
      | none =>
          obtain rfl : q₂ = none := hq rfl
          exact iff_of_true rfl (.refl _)
      | some y => exact iff_of_false nofun (hlength (by simp))
  | some x =>
      cases q₁ with
      | none =>
          obtain rfl : q₂ = none := hq rfl
          exact iff_of_false (by cases p₂ <;> exact nofun) (hlength (by simp))
      | some y =>
          cases p₂ with
          | none =>
              cases q₂ with
              | none =>
                  simp [codecsEqual]
              | some y₂ => exact iff_of_false nofun (hlength (by simp))
          | some x₂ =>
              cases q₂ with
              | none => exact iff_of_false nofun (hlength (by simp))
              | some y₂ => exact pair_perm_iff.symm

theorem codecsEqual_codecTexts (x y : MbsMediaInfo) :
    codecsEqual (codecSlots x) (codecSlots y) = true ↔ (codecTexts x).Perm (codecTexts y) := by
  rw [codecsEqual_iff (firstFilled_codecSlots x) (firstFilled_codecSlots y),
    codecTexts_codecSlots, codecTexts_codecSlots]

/-! ## The comparison -/

/-- The codecs as `strcmp` goes through them. When the first of `a` is not the first of `b`,
the two of `b` change places. -/
def compareCodecs (a b : Option String × Option String) : Option Bool :=
  if a.1.isSome ≠ b.1.isSome ∨ a.2.isSome ≠ b.2.isSome then some false
  else if a.1.isSome then do
    if ← strcmp a.1 b.1 then
      if b.2.isNone then return false
      if ← strcmp a.1 b.2 then return false
      stringAgrees a.2 b.1
    else stringAgrees a.2 b.2
  else stringAgrees a.2 b.2

def mbsMediaInfoCompare (a b : MbsMediaInfo) : Option Bool :=
  if a.mbsMediaType ≠ b.mbsMediaType then some false
  else if a.maxRequestedMbsBandwidthDownlink.isSome ≠
      b.maxRequestedMbsBandwidthDownlink.isSome then some false
  else if a.minRequestedMbsBandwidthDownlink.isSome ≠
      b.minRequestedMbsBandwidthDownlink.isSome then some false
  else compareCodecs (codecSlots a) (codecSlots b)

/-- No missing codec is read, and the result is that of the comparison of the slots. -/
theorem compareCodecs_eq {p q : Option String × Option String} (hp : FirstFilled p)
    (hq : FirstFilled q) : compareCodecs p q = some (codecsEqual p q) := by
  obtain ⟨p₁, p₂⟩ := p
  obtain ⟨q₁, q₂⟩ := q
  cases p₁ with
  | none =>
      obtain rfl : p₂ = none := hp rfl
      cases q₁ with
      | none =>
          obtain rfl : q₂ = none := hq rfl
          rfl
      | some y => rfl
  | some x =>
      cases q₁ with
      | none => cases p₂ <;> rfl
      | some y =>
          cases p₂ with
          | none =>
              cases q₂ with
              | none => by_cases hxy : x = y <;>
                  simp [compareCodecs, codecsEqual, strcmp, stringAgrees, hxy]
              | some y₂ => rfl
          | some x₂ =>
              cases q₂ with
              | none => rfl
              | some y₂ =>
                  by_cases hxy : x = y
                  · simp [compareCodecs, codecsEqual, strcmp, stringAgrees, bne, hxy]
                  · by_cases hxy₂ : x = y₂
                    · subst hxy₂
                      simp [compareCodecs, codecsEqual, strcmp, stringAgrees, bne, hxy]
                    · simp [compareCodecs, codecsEqual, strcmp, stringAgrees, hxy, hxy₂]

theorem mbsMediaInfoCompare_eq (a b : MbsMediaInfo) :
    mbsMediaInfoCompare a b = some (mbsMediaInfoEqual (some a) (some b)) := by
  have hequal : mbsMediaInfoEqual (some a) (some b) = (a.mbsMediaType == b.mbsMediaType &&
      a.maxRequestedMbsBandwidthDownlink.isSome == b.maxRequestedMbsBandwidthDownlink.isSome &&
      a.minRequestedMbsBandwidthDownlink.isSome == b.minRequestedMbsBandwidthDownlink.isSome &&
      codecsEqual (codecSlots a) (codecSlots b)) := rfl
  rw [mbsMediaInfoCompare, hequal,
    compareCodecs_eq (firstFilled_codecSlots a) (firstFilled_codecSlots b)]
  split_ifs with htype hmax hmin
  · simp [htype]
  · simp [hmax]
  · simp [hmin]
  · simp [not_not.1 htype, not_not.1 hmax, not_not.1 hmin]

/-- The same type, bandwidths and codecs. -/
structure SameMediaInfo (a b : MbsMediaInfo) : Prop where
  mediaType : a.mbsMediaType = b.mbsMediaType
  maxBandwidth : a.maxRequestedMbsBandwidthDownlink = b.maxRequestedMbsBandwidthDownlink
  minBandwidth : a.minRequestedMbsBandwidthDownlink = b.minRequestedMbsBandwidthDownlink
  codecs : (codecTexts a : Multiset String) = (codecTexts b : Multiset String)

/-- The comparison comes to an end, with the right result. -/
def ComparesRightly (a b : MbsMediaInfo) : Prop :=
  ∃ result, mbsMediaInfoCompare a b = some result ∧ (result = true ↔ SameMediaInfo a b)

/-- The media infos agree in everything but the values of their bandwidths. -/
structure AgreeUpToBandwidth (a b : MbsMediaInfo) : Prop where
  mediaType : a.mbsMediaType = b.mbsMediaType
  maxPresence : a.maxRequestedMbsBandwidthDownlink.isSome =
    b.maxRequestedMbsBandwidthDownlink.isSome
  minPresence : a.minRequestedMbsBandwidthDownlink.isSome =
    b.minRequestedMbsBandwidthDownlink.isSome
  codecs : (codecTexts a : Multiset String) = (codecTexts b : Multiset String)

theorem mbsMediaInfoEqual_iff (a b : MbsMediaInfo) :
    mbsMediaInfoEqual (some a) (some b) = true ↔ AgreeUpToBandwidth a b := by
  simp only [mbsMediaInfoEqual, Bool.and_eq_true, beq_iff_eq, codecsEqual_codecTexts]
  constructor
  · rintro ⟨⟨⟨htype, hmax⟩, hmin⟩, hcodecs⟩
    exact ⟨htype, hmax, hmin, Multiset.coe_eq_coe.2 hcodecs⟩
  · rintro ⟨htype, hmax, hmin, hcodecs⟩
    exact ⟨⟨⟨htype, hmax⟩, hmin⟩, Multiset.coe_eq_coe.1 hcodecs⟩

/-- The comparison is right except about media infos that only differ in the value of a
bandwidth. -/
theorem mediaInfo_compares_iff (a b : MbsMediaInfo) : ComparesRightly a b ↔
    (AgreeUpToBandwidth a b →
      a.maxRequestedMbsBandwidthDownlink = b.maxRequestedMbsBandwidthDownlink ∧
        a.minRequestedMbsBandwidthDownlink = b.minRequestedMbsBandwidthDownlink) := by
  have hresult : ComparesRightly a b ↔ (AgreeUpToBandwidth a b ↔ SameMediaInfo a b) := by
    simp only [ComparesRightly, mbsMediaInfoCompare_eq, Option.some.injEq, exists_eq_left',
      mbsMediaInfoEqual_iff]
  rw [hresult]
  constructor
  · intro h hagree
    have hsame := h.1 hagree
    exact ⟨hsame.maxBandwidth, hsame.minBandwidth⟩
  · refine fun h => ⟨fun hagree => ?_, fun hsame => ?_⟩
    · obtain ⟨hmax, hmin⟩ := h hagree
      exact ⟨hagree.mediaType, hmax, hmin, hagree.codecs⟩
    · exact ⟨hsame.mediaType, congrArg Option.isSome hsame.maxBandwidth,
        congrArg Option.isSome hsame.minBandwidth, hsame.codecs⟩

/-- Two maxima that are not the same are taken for equal. -/
theorem bandwidths_overlooked : ¬ ∀ a b, ComparesRightly a b := by
  intro h
  obtain ⟨result, hresult, hright⟩ := h { maxRequestedMbsBandwidthDownlink := some 1000000 }
    { maxRequestedMbsBandwidthDownlink := some 2000000 }
  obtain rfl : true = result := Option.some.inj (by rw [← hresult]; rfl)
  cases (hright.1 rfl).maxBandwidth

/-! ## The differ -/

/-- The patch from one media info to another turns the one's encoding into the other's. -/
def InfoPatchesTo (a b : MbsMediaInfo) : Prop :=
  ∃ ps, mbsMediaInfoPatchList (some a) (some b) = some ps ∧
    applyPatch (mbsMediaInfoToJson a) ps = some (mbsMediaInfoToJson b)

def HasCodec (info : MbsMediaInfo) : Prop := info.codec0.isSome ∨ info.codec1.isSome

theorem hasCodec_iff (x : MbsMediaInfo) : HasCodec x ↔ (codecSlots x).1.isSome := by
  obtain ⟨_, _, _, c0, c1⟩ := x
  cases c0 <;> cases c1 <;> simp [HasCodec, codecSlots]

theorem patch_second (c : String) (a b : Option String) :
    patchValue (slotsJson (some c, a)) (secondItems a b) = some (slotsJson (some c, b)) := by
  cases a with
  | none => cases b <;> rfl
  | some x =>
      cases b with
      | none => rfl
      | some d =>
          rw [secondItems]
          split
          · rename_i h
            rw [h, patchValue_nil]
          · rfl

/-- A codec cannot be added to an array that is not there. -/
theorem patch_codecs_iff {a b : Option String × Option String} (ha : FirstFilled a)
    (hb : FirstFilled b) : patchValue (slotsJson a) (codecItems a b) = some (slotsJson b) ↔
      (b.1.isSome → a.1.isSome) := by
  obtain ⟨a₁, a₂⟩ := a
  obtain ⟨b₁, b₂⟩ := b
  cases a₁ with
  | none =>
      obtain rfl : a₂ = none := ha rfl
      cases b₁ with
      | none =>
          obtain rfl : b₂ = none := hb rfl
          exact iff_of_true rfl id
      | some c => exact iff_of_false nofun fun h => by cases h rfl
  | some x =>
      refine iff_of_true ?_ fun _ => rfl
      cases b₁ with
      | none =>
          obtain rfl : b₂ = none := hb rfl
          cases a₂ <;> rfl
      | some c =>
          by_cases hxc : x = c
          · rw [hxc, codecItems_same]
            exact patch_second c a₂ b₂
          · rw [codecItems_changed hxc, patchValue_cons, applyWhole_first, Option.bind_some]
            exact patch_second c a₂ b₂

/-- The patch is right unless codecs come to a media info that has none. -/
theorem mediaInfo_patches_iff (a b : MbsMediaInfo) :
    InfoPatchesTo a b ↔ (HasCodec b → HasCodec a) := by
  have hnames : ((infoRows a b).map MemberPatch.name).Nodup := by
    change ["mbsMedType", "maxReqMbsBwDl", "minReqMbsBwDl", "codecs"].Nodup
    decide
  have hbefore : mbsMediaInfoToJson a = objectBefore (infoRows a b) := mbsMediaInfoToJson_eq a
  have hafter : mbsMediaInfoToJson b = objectAfter (infoRows a b) := mbsMediaInfoToJson_eq b
  have hpatches : InfoPatchesTo a b ↔ ∀ r ∈ infoRows a b, r.Right := by
    simp only [InfoPatchesTo, mbsMediaInfoPatchList_some, Option.some.injEq, exists_eq_left']
    rw [hbefore, hafter, applyPatch_object_iff hnames]
  rw [hpatches, hasCodec_iff, hasCodec_iff,
    ← patch_codecs_iff (firstFilled_codecSlots a) (firstFilled_codecSlots b)]
  simp [infoRows, MemberPatch.Right, patch_optional]

/-- The first codec of a media info cannot be added. -/
theorem first_codec_not_added : ¬ ∀ a b, InfoPatchesTo a b := by
  intro h
  obtain ⟨ps, hps, happly⟩ := h {} { codec0 := some "AMR" }
  obtain rfl : [jsonPatchNew .add [.key "codecs", .last] (some (.str "AMR"))] = ps :=
    Option.some.inj (by rw [← hps]; rfl)
  cases happly

end ServiceConsumers.MediaInfos
