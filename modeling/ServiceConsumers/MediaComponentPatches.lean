import ServiceConsumers.CarriedPatches

set_option autoImplicit false

/-!
# Patches of media components

A media component is sent with its media info, else with its QoS reference, else with its QoS
requirements. The differ compares all three.
-/

namespace ServiceConsumers.MediaComponentPatches

open JsonDocuments ForeignPatches MemberPatches PatchLists CarriedPatches WireText
  MediaComponents

/-! ## What is to hold -/

/-- The patch from one component to another turns the one's encoding into the other's. -/
def PatchesTo (a b : MbsMediaComp) : Prop := ∃ ps, mbsMediaCompPatchList a b = some ps ∧
  applyPatch (mbsMediaCompToJson a) ps = some (mbsMediaCompToJson b)

/-! ## The condition -/

def textsOf (fs : List FlowDescription) : List String := fs.filterMap FlowDescription.string

/-- The texts that change are written among the texts of the first list, each at the index that
its entry has in the list. An entry without a text has no place among the texts. -/
def writeTexts : ℕ → List FlowDescription → List FlowDescription → List String →
    Option (List String)
  | _, [], ys, texts => (ys.mapM FlowDescription.string).map fun new => texts ++ new
  | _, _ :: _, [], _ => none
  | idx, x :: xs, y :: ys, texts =>
      match x.string, y.string with
      | none, none => writeTexts (idx + 1) xs ys texts
      | some _, none => none
      | none, some t =>
          if idx ≤ texts.length then writeTexts (idx + 1) xs ys (texts.insertIdx idx t) else none
      | some s, some t =>
          if s = t then writeTexts (idx + 1) xs ys texts
          else if idx < texts.length then writeTexts (idx + 1) xs ys (texts.set idx t) else none

/-- An empty list may become any other. The texts of another are to end up in their places. -/
def FlowsLineUp (xs ys : List FlowDescription) : Prop :=
  xs = [] ∨ ys ≠ [] ∧ writeTexts 0 xs ys (textsOf xs) = some (textsOf ys)

/-- The first codec neither comes nor goes, and nothing that was set is unset. -/
structure InfoPatchable (x y : MbsMediaInfo) : Prop where
  mediaType : x.mbsMediaType ≠ .null → y.mbsMediaType ≠ .null
  maxBandwidth : Stays x.maxRequestedMbsBandwidthDownlink y.maxRequestedMbsBandwidthDownlink
  minBandwidth : Stays x.minRequestedMbsBandwidthDownlink y.minRequestedMbsBandwidthDownlink
  firstCodec : (codecSlots x).1.isSome = (codecSlots y).1.isSome
  secondCodec : Stays (codecSlots x).2 (codecSlots y).2

/-- What the differ has wrong names for is the same, and nothing that was set is unset. -/
structure QosPatchable (x y : MbsQosReq) : Prop where
  fiveQi : x.fiveQi = y.fiveQi
  guarenteedBitRate : Stays x.guarenteedBitRate y.guarenteedBitRate
  maxBitRate : Stays x.maxBitRate y.maxBitRate
  averagingWindow : Stays x.averagingWindow y.averagingWindow
  reqMbsArp : x.reqMbsArp = y.reqMbsArp

def MediaInfoPatchable : Option MbsMediaInfo → Option MbsMediaInfo → Prop
  | none, _ => True
  | some _, none => False
  | some x, some y => InfoPatchable x y

def qosRefVisible (c : MbsMediaComp) : Prop := c.mediaInfo = none

def qosReqVisible (c : MbsMediaComp) : Prop := c.mediaInfo = none ∧ c.qosRef = none

/-- The reference, as far as it is sent. -/
def sentQosRef (c : MbsMediaComp) : Option String :=
  if c.mediaInfo.isSome then none else c.qosRef

/-- A reference comes where it is sent, goes where it was sent, and is otherwise the same as
far as it is sent. -/
def QosRefPatchable (a b : MbsMediaComp) : Prop :=
  match a.qosRef, b.qosRef with
  | none, none => True
  | none, some _ => qosRefVisible b
  | some _, none => qosRefVisible a
  | some _, some _ => sentQosRef a = sentQosRef b

/-- Requirements come where they are sent and never go. Those that both components send can be
patched, those that neither sends are the same. -/
def QosReqPatchable (a b : MbsMediaComp) : Prop :=
  match a.mbsQosReq, b.mbsQosReq with
  | none, none => True
  | none, some _ => qosReqVisible b
  | some _, none => False
  | some x, some y => (qosReqVisible a ∧ qosReqVisible b ∧ QosPatchable x y) ∨
      (¬ qosReqVisible a ∧ ¬ qosReqVisible b ∧ x = y)

structure Patchable (a b : MbsMediaComp) : Prop where
  flows : FlowsLineUp (a.flowDescriptions.getD []) (b.flowDescriptions.getD [])
  mediaInfo : MediaInfoPatchable a.mediaInfo b.mediaInfo
  qosRef : QosRefPatchable a b
  qosReq : QosReqPatchable a b

/-! ## Flow descriptions -/

variable {before after : Option Json}

def textsJson (texts : List String) : Json := .arr (texts.map .str)

theorem textsJson_inj {texts texts' : List String} :
    textsJson texts = textsJson texts' ↔ texts = texts' := by
  rw [textsJson, textsJson, Json.arr.injEq]
  exact (List.map_injective_iff.2 fun _ _ h => Json.str.inj h).eq_iff

theorem flowDescriptionsToJson_eq (xs : List FlowDescription) :
    flowDescriptionsToJson xs = if xs = [] then none else some (textsJson (textsOf xs)) := by
  have hmap : xs.filterMap flowDescriptionToJson = (textsOf xs).map .str := by
    rw [textsOf, List.map_filterMap]
    rfl
  rw [flowDescriptionsToJson, hmap]
  rfl

/-- The walk over the descriptions, and what it does for a pair of them. -/
def walkFlows (idx : ℕ) (xs ys : List FlowDescription) : Option (List PatchItem) :=
  walkPatchList (fun _ => .last) flowDescriptionToJson
    (fun idx x y => jsonPatchesAppendList [] (flowDescriptionPatchList x y) [.index idx]) idx xs ys

variable {idx : ℕ} {x y : FlowDescription} {xs ys : List FlowDescription}
  {texts target : List String} {s t : String}

theorem walkFlows_cons : walkFlows idx (x :: xs) (y :: ys) =
    (jsonPatchesAppendList [] (flowDescriptionPatchList x y) [.index idx]).bind fun items =>
      (walkFlows (idx + 1) xs ys).map fun rest => items ++ rest := by
  rw [walkFlows, walkPatchList]
  rfl

theorem walkFlows_nil : walkFlows idx [] [] = some [] := by rw [walkFlows, walkPatchList]

theorem walkFlows_extra : walkFlows idx [] (y :: ys) = (walkFlows (idx + 1) [] ys).map fun rest =>
    jsonPatchNew .add [.last] (flowDescriptionToJson y) :: rest := by
  rw [walkFlows, walkPatchList]
  rfl

theorem walkFlows_gone : walkFlows idx (x :: xs) [] = (walkFlows idx xs []).map fun rest =>
    jsonPatchNew .remove [.index idx] none :: rest := by
  rw [walkFlows, walkPatchList]
  rfl

theorem walkFlows_same (h : x.string = y.string) :
    walkFlows idx (x :: xs) (y :: ys) = walkFlows (idx + 1) xs ys := by
  have hitems : flowDescriptionPatchList x y = [] := by
    unfold flowDescriptionPatchList
    rw [h]
    cases y.string with
    | none => rfl
    | some t => exact if_pos rfl
  rw [walkFlows_cons, hitems]
  change (walkFlows (idx + 1) xs ys).map id = _
  rw [Option.map_id, id]

theorem walkFlows_lost (hx : x.string = some s) (hy : y.string = none) :
    walkFlows idx (x :: xs) (y :: ys) = none := by
  rw [walkFlows_cons, flowDescriptionPatchList, hx, hy]
  rfl

theorem walkFlows_new (hx : x.string = none) (hy : y.string = some t) :
    walkFlows idx (x :: xs) (y :: ys) = (walkFlows (idx + 1) xs ys).map fun rest =>
      ⟨.add, [.index idx], some (.str t)⟩ :: rest := by
  rw [walkFlows_cons, flowDescriptionPatchList, hx, hy, flowDescriptionToJson, hy]
  rfl

theorem walkFlows_changed (hx : x.string = some s) (hy : y.string = some t) (hne : s ≠ t) :
    walkFlows idx (x :: xs) (y :: ys) = (walkFlows (idx + 1) xs ys).map fun rest =>
      ⟨.replace, [.index idx], some (.str t)⟩ :: rest := by
  rw [walkFlows_cons, flowDescriptionPatchList, hx, hy]
  simp only [if_neg hne]
  rw [flowDescriptionToJson, hy]
  rfl

/-- Descriptions beyond the first list are written at its end. -/
theorem carries_walkFlows_nil : Carries (walkFlows idx [] ys) (some (textsJson texts))
    (some (textsJson target)) ↔ writeTexts idx [] ys texts = some target := by
  induction ys generalizing idx texts with
  | nil =>
      rw [walkFlows_nil, carries_nil, Option.some.injEq, textsJson_inj]
      change texts = target ↔ some (texts ++ []) = some target
      rw [List.append_nil, Option.some.injEq]
  | cons y ys ih =>
      rw [walkFlows_extra, carries_cons, writeTexts, List.mapM_cons]
      cases hy : y.string with
      | none =>
          refine iff_of_false (fun h => ?_) fun h => ?_
          · rw [jsonPatchNew, flowDescriptionToJson, hy] at h
            cases h.1
          · cases h
      | some t =>
          have hstep : applyWhole (some (textsJson texts))
              (jsonPatchNew .add [.last] (flowDescriptionToJson y)) =
              some (some (textsJson (texts ++ [t]))) := by
            rw [jsonPatchNew, flowDescriptionToJson, hy, textsJson, textsJson, List.map_append]
            rfl
          rw [hstep]
          simp only [Option.some.injEq, exists_eq_left']
          rw [@ih (idx + 1), writeTexts]
          refine (and_iff_right ?_).trans ?_
          · rw [jsonPatchNew, flowDescriptionToJson, hy]
            rfl
          · cases ys.mapM FlowDescription.string with
            | none => rfl
            | some new => simp [List.append_assoc]

theorem applyWhole_insert : applyWhole (some (textsJson texts))
    ⟨.add, [.index idx], some (.str t)⟩ =
      if idx ≤ texts.length then some (some (textsJson (texts.insertIdx idx t))) else none := by
  change (applyAt .add (some (.str t)) (.index idx) (.arr (texts.map .str))).map some = _
  rw [applyAt, List.length_map]
  split
  · rw [textsJson, List.map_insertIdx]
    rfl
  · rfl

theorem applyWhole_set : applyWhole (some (textsJson texts))
    ⟨.replace, [.index idx], some (.str t)⟩ =
      if idx < texts.length then some (some (textsJson (texts.set idx t))) else none := by
  change (applyAt .replace (some (.str t)) (.index idx) (.arr (texts.map .str))).map some = _
  rw [applyAt, List.length_map]
  split
  · rw [textsJson, List.map_set]
    rfl
  · rfl

/-- The walk writes the texts at the indexes that the entries have in the list. -/
theorem carries_walkFlows : Carries (walkFlows idx xs ys) (some (textsJson texts))
    (some (textsJson target)) ↔ writeTexts idx xs ys texts = some target := by
  induction xs generalizing idx ys texts with
  | nil => exact carries_walkFlows_nil
  | cons x xs ih =>
      cases ys with
      | nil =>
          refine iff_of_false (fun h => ?_) fun h => by cases h
          rw [walkFlows_gone, carries_cons] at h
          cases h.1
      | cons y ys =>
          rw [writeTexts]
          cases hx : x.string with
          | none =>
              cases hy : y.string with
              | none => rw [walkFlows_same (hx.trans hy.symm), ih]
              | some t =>
                  rw [walkFlows_new hx hy, carries_cons, applyWhole_insert]
                  split
                  · simp [ih]
                  · simp
          | some s =>
              cases hy : y.string with
              | none =>
                  rw [walkFlows_lost hx hy]
                  exact iff_of_false not_carries_none fun h => by cases h
              | some t =>
                  by_cases hst : s = t
                  · rw [walkFlows_same (by rw [hx, hy, hst]), ih]
                    simp [hst]
                  · rw [walkFlows_changed hx hy hst, carries_cons, applyWhole_set]
                    simp only [if_neg hst]
                    split
                    · simp [ih]
                    · simp

theorem carries_flows_iff (a b : Option (List FlowDescription)) :
    Carries (flowDescriptionsPatchList a b) (flowDescriptionsToJson (a.getD []))
      (flowDescriptionsToJson (b.getD [])) ↔ FlowsLineUp (a.getD []) (b.getD []) := by
  rw [flowDescriptionsPatchList, FlowsLineUp]
  generalize a.getD [] = xs
  generalize b.getD [] = ys
  cases xs with
  | nil =>
      refine iff_of_true ?_ (.inl rfl)
      cases ys with
      | nil => exact carries_nil.2 rfl
      | cons y ys =>
          rw [flowDescriptionsToJson_eq (y :: ys), if_neg (List.cons_ne_nil y ys)]
          refine carries_single.2 ?_
          rw [flowDescriptionsToJson_eq, if_neg (List.cons_ne_nil y ys)]
          exact ⟨rfl, rfl⟩
  | cons x xs =>
      cases ys with
      | nil =>
          refine iff_of_false (fun h => ?_) fun h => ?_
          · cases (carries_single.1 h).1
          · simp at h
      | cons y ys =>
          rw [flowDescriptionsToJson_eq, flowDescriptionsToJson_eq,
            if_neg (List.cons_ne_nil x xs), if_neg (List.cons_ne_nil y ys)]
          change Carries (walkFlows 0 (x :: xs) (y :: ys)) _ _ ↔ _
          rw [carries_walkFlows]
          simp

/-- Where no entry lacks a text, the texts are in their places. -/
theorem writeTexts_of_texts {done : List String} (hlength : xs.length ≤ ys.length)
    (hxs : ∀ x ∈ xs, x.string ≠ none) (hys : ∀ y ∈ ys, y.string ≠ none) :
    writeTexts done.length xs ys (done ++ textsOf xs) = some (done ++ textsOf ys) := by
  induction xs generalizing done ys with
  | nil =>
      have hnew : ys.mapM FlowDescription.string = some (textsOf ys) := by
        induction ys with
        | nil => rfl
        | cons y ys ih =>
            obtain ⟨hy, hys⟩ := List.forall_mem_cons.1 hys
            obtain ⟨t, ht⟩ := Option.ne_none_iff_exists'.1 hy
            have hty : textsOf (y :: ys) = t :: textsOf ys := List.filterMap_cons_some ht
            rw [List.mapM_cons, ih (Nat.zero_le _) hys, ht, hty]
            rfl
      rw [writeTexts, hnew, textsOf, List.filterMap_nil, List.append_nil]
      rfl
  | cons x xs ih =>
      cases ys with
      | nil => exact absurd hlength (Nat.not_succ_le_zero _)
      | cons y ys =>
          obtain ⟨hx, hxs⟩ := List.forall_mem_cons.1 hxs
          obtain ⟨hy, hys⟩ := List.forall_mem_cons.1 hys
          obtain ⟨s, hs⟩ := Option.ne_none_iff_exists'.1 hx
          obtain ⟨t, ht⟩ := Option.ne_none_iff_exists'.1 hy
          have hrest : writeTexts (done ++ [t]).length xs ys (done ++ [t] ++ textsOf xs) =
              some (done ++ [t] ++ textsOf ys) := ih (Nat.le_of_succ_le_succ hlength) hxs hys
          rw [List.length_append, List.append_assoc, List.append_assoc] at hrest
          have hsx : textsOf (x :: xs) = s :: textsOf xs := List.filterMap_cons_some hs
          have hty : textsOf (y :: ys) = t :: textsOf ys := List.filterMap_cons_some ht
          rw [writeTexts, hs, ht, hsx, hty]
          by_cases hst : s = t
          · rw [hst]
            simp only [if_pos]
            exact hrest
          · have hidx : done.length < (done ++ s :: textsOf xs).length := by simp
            have hset : (done ++ s :: textsOf xs).set done.length t = done ++ t :: textsOf xs := by
              simp
            simp only [if_neg hst, if_pos hidx, hset]
            exact hrest

/-! ## Media info -/

def setType (t : MediaType) : Option MediaType := if t = .null then none else some t

def typeToJson (t : MediaType) : Json := .str (mediaTypeToString t)

theorem mediaTypePatch_eq (a b : MediaType) :
    mediaTypePatch a b = optionalPatch "mbsMedType" typeToJson (setType a) (setType b) := by
  unfold mediaTypePatch setType
  by_cases ha : a = .null
  · by_cases hb : b = .null
    · simp [ha, hb, optionalPatch]
    · have hne : a ≠ b := fun h => hb (h.symm.trans ha)
      rw [if_neg hne, if_pos ha, if_pos ha, if_neg hb]
      rfl
  · by_cases hb : b = .null
    · have hne : a ≠ b := fun h => ha (h.trans hb)
      rw [if_neg hne, if_neg ha, if_pos hb, if_neg ha, if_pos hb]
      rfl
    · rw [if_neg ha, if_neg hb, if_neg ha, if_neg hb]
      rfl

theorem stays_setType {a b : MediaType} :
    Stays (setType a) (setType b) ↔ (a ≠ .null → b ≠ .null) := by
  unfold Stays setType
  by_cases ha : a = .null <;> by_cases hb : b = .null <;> simp [ha, hb]

def slotsJson (codecs : Option String × Option String) : Option Json :=
  match codecs.1, codecs.2 with
  | none, none => none
  | c, d => some (.arr (c.toList.map .str ++ d.toList.map .str))

def codecItems (a b : Option String × Option String) : List PatchItem :=
  (match a.1, b.1 with
    | none, none => []
    | none, some c => [jsonPatchNew .add [.last] (some (.str c))]
    | some _, none => [jsonPatchNew .remove [] none]
    | some x, some c =>
        if x = c then [] else [jsonPatchNew .replace [.index 0] (some (.str c))]) ++
  (match a.2, b.2 with
    | none, none => []
    | none, some c => [jsonPatchNew .add [.last] (some (.str c))]
    | some _, none => if b.1.isSome then [jsonPatchNew .remove [.index 1] none] else []
    | some x, some c =>
        if x = c then [] else [jsonPatchNew .replace [.index 1] (some (.str c))])

theorem codecsPatch_eq (a b : Option String × Option String) :
    codecsPatch a b = (codecItems a b).map (below "codecs") := by
  obtain ⟨a₁, a₂⟩ := a
  obtain ⟨b₁, b₂⟩ := b
  unfold codecsPatch codecItems
  rw [List.map_append]
  congr 1
  · cases a₁ <;> cases b₁ <;> first | rfl | (dsimp only; split <;> rfl)
  · cases a₂ <;> cases b₂ <;> first | rfl | (dsimp only; split <;> rfl)

theorem slotsJson_codecSlots (x : MbsMediaInfo) :
    slotsJson (codecSlots x) = slotsJson (x.codec0, x.codec1) := by
  unfold codecSlots
  cases x.codec0 with
  | some c => rfl
  | none => cases x.codec1 <;> rfl

/-- The second slot is only filled after the first. -/
def FirstFilled (codecs : Option String × Option String) : Prop :=
  codecs.1 = none → codecs.2 = none

theorem firstFilled_codecSlots (x : MbsMediaInfo) : FirstFilled (codecSlots x) := by
  unfold codecSlots
  cases x.codec0 with
  | some c => exact fun h => by cases h
  | none => exact fun _ => rfl

/-- What is done about the second codec, with a first one on both sides. -/
def secondItems : Option String → Option String → List PatchItem
  | none, none => []
  | none, some d => [jsonPatchNew .add [.last] (some (.str d))]
  | some _, none => [jsonPatchNew .remove [.index 1] none]
  | some y, some d => if y = d then [] else [jsonPatchNew .replace [.index 1] (some (.str d))]

theorem codecItems_same {c : String} {a b : Option String} :
    codecItems (some c, a) (some c, b) = secondItems a b := by
  unfold codecItems
  dsimp only
  rw [if_pos rfl, List.nil_append]
  cases a <;> cases b <;> rfl

theorem codecItems_changed {x c : String} {a b : Option String} (hne : x ≠ c) :
    codecItems (some x, a) (some c, b) =
      jsonPatchNew .replace [.index 0] (some (.str c)) :: secondItems a b := by
  unfold codecItems
  dsimp only
  rw [if_neg hne]
  cases a <;> cases b <;> rfl

theorem applyWhole_first {x c : String} {a : Option String} : applyWhole (slotsJson (some x, a))
    (jsonPatchNew .replace [.index 0] (some (.str c))) = some (slotsJson (some c, a)) := by
  cases a <;> rfl

theorem carries_second_iff {c : String} {a b : Option String} :
    Carries (some (secondItems a b)) (slotsJson (some c, a)) (slotsJson (some c, b)) ↔
      Stays a b := by
  cases a with
  | none =>
      refine iff_of_true ?_ fun h => by cases h
      cases b with
      | none => exact carries_nil.2 rfl
      | some d => exact carries_single.2 ⟨rfl, rfl⟩
  | some y =>
      cases b with
      | none =>
          refine iff_of_false (fun h => ?_) fun h => by cases h rfl
          cases (carries_single.1 h).1
      | some d =>
          refine iff_of_true ?_ fun _ => rfl
          rw [secondItems]
          split
          · rename_i heq
            rw [carries_nil, heq]
          · exact carries_single.2 ⟨rfl, rfl⟩

theorem carries_codecs_iff {a b : Option String × Option String} (ha : FirstFilled a)
    (hb : FirstFilled b) : Carries (some (codecItems a b)) (slotsJson a) (slotsJson b) ↔
      a.1.isSome = b.1.isSome ∧ Stays a.2 b.2 := by
  obtain ⟨a₁, a₂⟩ := a
  obtain ⟨b₁, b₂⟩ := b
  cases a₁ with
  | none =>
      obtain rfl : a₂ = none := ha rfl
      cases b₁ with
      | none =>
          obtain rfl : b₂ = none := hb rfl
          exact iff_of_true (carries_nil.2 rfl) ⟨rfl, fun h => h⟩
      | some c =>
          refine iff_of_false (fun h => ?_) fun h => by cases h.1
          obtain ⟨-, v, hv, -⟩ := carries_some_cons.1 h
          cases hv
  | some x =>
      cases b₁ with
      | none =>
          refine iff_of_false (fun h => ?_) fun h => by cases h.1
          cases (carries_some_cons.1 h).1
      | some c =>
          refine Iff.trans ?_ (and_iff_right rfl).symm
          rw [← carries_second_iff (c := c)]
          by_cases hxc : x = c
          · rw [hxc, codecItems_same]
          · rw [codecItems_changed hxc, carries_some_cons, applyWhole_first]
            simp [jsonPatchNew]

/-- The members of a media info. -/
def infoRows (x y : MbsMediaInfo) : List MemberPatch :=
  [⟨"mbsMedType", (setType x.mbsMediaType).map typeToJson,
      optionalItems typeToJson (setType x.mbsMediaType) (setType y.mbsMediaType),
      (setType y.mbsMediaType).map typeToJson⟩,
    ⟨"maxReqMbsBwDl", x.maxRequestedMbsBandwidthDownlink.map bitrateToJson,
      optionalItems bitrateToJson x.maxRequestedMbsBandwidthDownlink
        y.maxRequestedMbsBandwidthDownlink,
      y.maxRequestedMbsBandwidthDownlink.map bitrateToJson⟩,
    ⟨"minReqMbsBwDl", x.minRequestedMbsBandwidthDownlink.map bitrateToJson,
      optionalItems bitrateToJson x.minRequestedMbsBandwidthDownlink
        y.minRequestedMbsBandwidthDownlink,
      y.minRequestedMbsBandwidthDownlink.map bitrateToJson⟩,
    ⟨"codecs", slotsJson (codecSlots x), codecItems (codecSlots x) (codecSlots y),
      slotsJson (codecSlots y)⟩]

theorem mbsMediaInfoToJson_eq (x : MbsMediaInfo) : mbsMediaInfoToJson x =
    .obj (Members.ofList
      [("mbsMedType", (setType x.mbsMediaType).map typeToJson),
        ("maxReqMbsBwDl", x.maxRequestedMbsBandwidthDownlink.map bitrateToJson),
        ("minReqMbsBwDl", x.minRequestedMbsBandwidthDownlink.map bitrateToJson),
        ("codecs", slotsJson (codecSlots x))]) := by
  have htype : (if x.mbsMediaType = .null then none
      else some (.str (mediaTypeToString x.mbsMediaType))) =
      (setType x.mbsMediaType).map typeToJson := by
    unfold setType
    split <;> rfl
  rw [slotsJson_codecSlots, ← htype]
  rfl

theorem mbsMediaInfoPatchList_some (x y : MbsMediaInfo) :
    mbsMediaInfoPatchList (some x) (some y) = some (objectPatch (infoRows x y)) := by
  rw [mbsMediaInfoPatchList, structurePatchList, mediaTypePatch_eq, codecsPatch_eq,
    optionalPatch_eq, optionalPatch_eq, optionalPatch_eq, List.append_assoc, List.append_assoc]
  simp [objectPatch, infoRows]

theorem carries_info_iff (x y : MbsMediaInfo) :
    Carries (mbsMediaInfoPatchList (some x) (some y)) (some (mbsMediaInfoToJson x))
      (some (mbsMediaInfoToJson y)) ↔ InfoPatchable x y := by
  have hnames : ((infoRows x y).map MemberPatch.name).Nodup := by
    change ["mbsMedType", "maxReqMbsBwDl", "minReqMbsBwDl", "codecs"].Nodup
    decide
  have hcodecs := carries_codecs_iff (firstFilled_codecSlots x) (firstFilled_codecSlots y)
  rw [carries_some] at hcodecs
  rw [mbsMediaInfoPatchList_some, mbsMediaInfoToJson_eq x, mbsMediaInfoToJson_eq y]
  refine (carries_object_iff hnames).trans ?_
  simp only [infoRows, List.forall_mem_cons, MemberPatch.Right, patch_optional, valued_optional,
    stays_setType, hcodecs]
  constructor
  · rintro ⟨⟨htype, -⟩, ⟨hmax, -⟩, ⟨hmin, -⟩, ⟨hfirst, hsecond⟩, -⟩
    exact ⟨htype, hmax, hmin, hfirst, hsecond⟩
  · rintro ⟨htype, hmax, hmin, hfirst, hsecond⟩
    exact ⟨⟨htype, trivial⟩, ⟨hmax, trivial⟩, ⟨hmin, trivial⟩, ⟨hfirst, hsecond⟩, nofun⟩

theorem carries_mediaInfo_iff (a b : Option MbsMediaInfo) :
    Carries (mbsMediaInfoPatchList a b) (a.map mbsMediaInfoToJson) (b.map mbsMediaInfoToJson) ↔
      MediaInfoPatchable a b := by
  cases a with
  | none =>
      refine iff_of_true ?_ trivial
      cases b with
      | none => exact carries_nil.2 rfl
      | some y => exact carries_single.2 ⟨rfl, rfl⟩
  | some x =>
      cases b with
      | none =>
          refine iff_of_false (fun h => ?_) id
          cases (carries_single.1 h).1
      | some y => exact carries_info_iff x y

/-! ## QoS requirements -/

def priorityToJson (n : ℕ) : Json := .num n

def capabilityToJson (c : PreemptionCapability) : Json := .str (preemptionCapabilityToString c)

def vulnerabilityToJson (v : PreemptionVulnerability) : Json :=
  .str (preemptionVulnerabilityToString v)

/-- The members of an ARP. -/
def arpRows (x y : Arp) : List MemberPatch :=
  [⟨"priorityLevel", some (priorityToJson x.priorityLevel),
      requiredItems priorityToJson x.priorityLevel y.priorityLevel,
      some (priorityToJson y.priorityLevel)⟩,
    ⟨"preemptCap", some (capabilityToJson x.preemptionCapability),
      requiredItems capabilityToJson x.preemptionCapability y.preemptionCapability,
      some (capabilityToJson y.preemptionCapability)⟩,
    ⟨"preemptVuln", some (vulnerabilityToJson x.preemptionVulnerability),
      requiredItems vulnerabilityToJson x.preemptionVulnerability y.preemptionVulnerability,
      some (vulnerabilityToJson y.preemptionVulnerability)⟩]

theorem arpPatchList_some (x y : Arp) :
    arpPatchList (some x) (some y) = some (objectPatch (arpRows x y)) := by
  rw [arpPatchList, structurePatchList, requiredPatch_eq, requiredPatch_eq, requiredPatch_eq,
    List.append_assoc]
  simp only [objectPatch, arpRows, List.flatMap_cons, List.flatMap_nil, List.append_nil]
  rfl

theorem objectPatch_eq_nil {rows : List MemberPatch} :
    objectPatch rows = [] ↔ ∀ r ∈ rows, r.patches = [] := by
  rw [objectPatch, List.flatMap_eq_nil_iff]
  simp only [List.map_eq_nil_iff]

theorem arpRows_eq_nil {x y : Arp} : objectPatch (arpRows x y) = [] ↔ x = y := by
  rw [objectPatch_eq_nil]
  simp only [arpRows, List.forall_mem_cons, requiredItems_eq_nil]
  obtain ⟨p, c, v⟩ := x
  obtain ⟨p', c', v'⟩ := y
  rw [Arp.mk.injEq]
  simp

theorem arpPatchList_eq_nil {a b : Option Arp} : arpPatchList a b = some [] ↔ a = b := by
  cases a with
  | none =>
      cases b with
      | none => exact iff_of_true rfl rfl
      | some y =>
          refine iff_of_false (fun h => ?_) nofun
          cases h
  | some x =>
      cases b with
      | none =>
          refine iff_of_false (fun h => ?_) nofun
          cases h
      | some y => rw [arpPatchList_some, Option.some.injEq, Option.some.injEq, arpRows_eq_nil]

/-- Under a name that no requirement has, an ARP can only be left alone. -/
theorem carries_arp_iff (a b : Option Arp) : Carries (arpPatchList a b) none none ↔ a = b := by
  cases a with
  | none =>
      cases b with
      | none => exact iff_of_true (carries_nil.2 rfl) rfl
      | some y =>
          refine iff_of_false (fun h => ?_) nofun
          cases (carries_single.1 h).2
  | some x =>
      cases b with
      | none =>
          refine iff_of_false (fun h => ?_) nofun
          cases (carries_single.1 h).1
      | some y =>
          rw [arpPatchList_some, carries_nothing_iff objectPatch_paths, arpRows_eq_nil,
            Option.some.injEq]

def fiveQiToJson (n : ℕ) : Json := .num n

/-- The members of the requirements, and the two names of the differ that are none of them. -/
def qosRows (x y : MbsQosReq) (arpItems : List PatchItem) : List MemberPatch :=
  [⟨"5qi", some (fiveQiToJson x.fiveQi), [], some (fiveQiToJson y.fiveQi)⟩,
    ⟨"5Qi", none, requiredItems fiveQiToJson x.fiveQi y.fiveQi, none⟩,
    ⟨"guarBitRate", x.guarenteedBitRate.map bitrateToJson,
      optionalItems bitrateToJson x.guarenteedBitRate y.guarenteedBitRate,
      y.guarenteedBitRate.map bitrateToJson⟩,
    ⟨"maxBitRate", x.maxBitRate.map bitrateToJson,
      optionalItems bitrateToJson x.maxBitRate y.maxBitRate, y.maxBitRate.map bitrateToJson⟩,
    ⟨"averWindow", x.averagingWindow.map averagingWindowToJson,
      optionalItems averagingWindowToJson x.averagingWindow y.averagingWindow,
      y.averagingWindow.map averagingWindowToJson⟩,
    ⟨"regMbsArp", none, arpItems, none⟩,
    ⟨"reqMbsArp", x.reqMbsArp.map arpToJson, [], y.reqMbsArp.map arpToJson⟩]

theorem mbsQosReqPatchList_some (x y : MbsQosReq) :
    Carries (mbsQosReqPatchList (some x) (some y)) before after ↔
      ∃ arpItems, arpPatchList x.reqMbsArp y.reqMbsArp = some arpItems ∧ Valued arpItems ∧
        Carries (some (objectPatch (qosRows x y arpItems))) before after := by
  have hlist : ∀ arpItems, requiredPatch "5Qi" (fun n : ℕ => .num n) x.fiveQi y.fiveQi ++
      optionalPatch "guarBitRate" bitrateToJson x.guarenteedBitRate y.guarenteedBitRate ++
      optionalPatch "maxBitRate" bitrateToJson x.maxBitRate y.maxBitRate ++
      optionalPatch "averWindow" averagingWindowToJson x.averagingWindow y.averagingWindow ++
      arpItems.map (below "regMbsArp") = objectPatch (qosRows x y arpItems) := by
    intro arpItems
    rw [requiredPatch_eq, optionalPatch_eq, optionalPatch_eq, optionalPatch_eq]
    simp only [objectPatch, qosRows, List.flatMap_cons, List.flatMap_nil, List.append_nil,
      List.map_nil, List.nil_append, List.append_assoc]
    rfl
  constructor
  · rintro ⟨items, hitems, hvalued, hpatch⟩
    obtain ⟨arpItems, harp, harpValued, rfl⟩ := appendPatches_key.1 hitems
    rw [hlist] at hvalued hpatch
    exact ⟨arpItems, harp, harpValued, carries_some.2 ⟨hvalued, hpatch⟩⟩
  · rintro ⟨arpItems, harp, harpValued, h⟩
    refine ⟨objectPatch (qosRows x y arpItems), ?_, (carries_some.1 h).1, (carries_some.1 h).2⟩
    exact appendPatches_key.2 ⟨arpItems, harp, harpValued, (hlist arpItems).symm⟩

theorem objectBefore_qosRows (x y : MbsQosReq) (arpItems : List PatchItem) :
    objectBefore (qosRows x y arpItems) = mbsQosReqToJson x :=
  congrArg Json.obj (ofList_congr ((ofList_absent _ _).trans
    (ofList_congr (ofList_congr (ofList_congr (ofList_absent _ _))))))

theorem objectAfter_qosRows (x y : MbsQosReq) (arpItems : List PatchItem) :
    objectAfter (qosRows x y arpItems) = mbsQosReqToJson y :=
  congrArg Json.obj (ofList_congr ((ofList_absent _ _).trans
    (ofList_congr (ofList_congr (ofList_congr (ofList_absent _ _))))))

theorem patch_required_none {α : Type} [DecidableEq α] {toJson : α → Json} {a b : α} :
    patchValue none (requiredItems toJson a b) = some none ↔ a = b := by
  unfold requiredItems
  split
  · rename_i h
    exact iff_of_true rfl h
  · rename_i h
    exact iff_of_false (fun hnone => by cases hnone) h

/-- Requirements that both components send. -/
theorem carries_qos_iff (x y : MbsQosReq) :
    Carries (mbsQosReqPatchList (some x) (some y)) (some (mbsQosReqToJson x))
      (some (mbsQosReqToJson y)) ↔ QosPatchable x y := by
  rw [mbsQosReqPatchList_some]
  have hobject : ∀ arpItems, Carries (some (objectPatch (qosRows x y arpItems)))
      (some (mbsQosReqToJson x)) (some (mbsQosReqToJson y)) ↔
      ∀ r ∈ qosRows x y arpItems, Valued r.patches ∧ r.Right := by
    intro arpItems
    have hnames : ((qosRows x y arpItems).map MemberPatch.name).Nodup := by
      change ["5qi", "5Qi", "guarBitRate", "maxBitRate", "averWindow", "regMbsArp",
        "reqMbsArp"].Nodup
      decide
    rw [← objectBefore_qosRows x y arpItems, ← objectAfter_qosRows x y arpItems]
    exact carries_object_iff hnames
  simp only [hobject]
  simp only [qosRows, List.forall_mem_cons, MemberPatch.Right, patch_optional,
    valued_optional, patch_required_none, patchValue_nil]
  constructor
  · rintro ⟨arpItems, harp, hvalued, -, ⟨-, hqi⟩, ⟨hguar, -⟩, ⟨hmax, -⟩, ⟨haver, -⟩,
      ⟨-, hright⟩, -⟩
    refine ⟨hqi, hguar, hmax, haver, ?_⟩
    exact (carries_arp_iff _ _).1 ⟨arpItems, harp, hvalued, hright⟩
  · rintro ⟨hqi, hguar, hmax, haver, harp⟩
    refine ⟨[], arpPatchList_eq_nil.2 harp, valued_nil, ⟨valued_nil, by rw [hqi]⟩,
      ⟨valued_required _ _ _, hqi⟩, ⟨hguar, trivial⟩, ⟨hmax, trivial⟩, ⟨haver, trivial⟩,
      ⟨valued_nil, rfl⟩, ⟨valued_nil, by rw [harp]⟩, nofun⟩

/-- Requirements that neither component sends. -/
theorem carries_hidden_iff (x y : MbsQosReq) :
    Carries (mbsQosReqPatchList (some x) (some y)) none none ↔ x = y := by
  rw [mbsQosReqPatchList_some]
  simp only [carries_nothing_iff objectPatch_paths, objectPatch_eq_nil, qosRows,
    List.forall_mem_cons, requiredItems_eq_nil, optionalItems_eq_nil]
  constructor
  · rintro ⟨arpItems, harp, -, -, hqi, hguar, hmax, haver, rfl, -⟩
    obtain ⟨q, g, m, w, p⟩ := x
    obtain ⟨q', g', m', w', p'⟩ := y
    rw [MbsQosReq.mk.injEq]
    exact ⟨hqi, hguar, hmax, haver, arpPatchList_eq_nil.1 harp⟩
  · rintro rfl
    exact ⟨[], arpPatchList_eq_nil.2 rfl, valued_nil, by simp⟩

/-! ## What the precedence lets through -/

variable {a b : MbsMediaComp}

def sentQosReq (c : MbsMediaComp) : Option MbsQosReq :=
  if c.mediaInfo.isSome || c.qosRef.isSome then none else c.mbsQosReq

theorem sentQosRef_visible (h : qosRefVisible a) : sentQosRef a = a.qosRef := by
  rw [sentQosRef, h]
  rfl

theorem sentQosRef_hidden (h : ¬ qosRefVisible a) : sentQosRef a = none :=
  if_pos (Option.isSome_iff_ne_none.2 h)

theorem sentQosReq_visible (h : qosReqVisible a) : sentQosReq a = a.mbsQosReq := by
  rw [sentQosReq, h.1, h.2]
  rfl

theorem sentQosReq_hidden (h : ¬ qosReqVisible a) : sentQosReq a = none := by
  refine if_pos ?_
  rw [Bool.or_eq_true, Option.isSome_iff_ne_none, Option.isSome_iff_ne_none]
  by_contra hnot
  push Not at hnot
  exact h hnot

def qosRefItems (x y : Option String) : List PatchItem :=
  if x.isSome = y.isSome then [] else optionalItems .str x y

theorem qosRefPatch_eq (x y : Option String) :
    qosRefPatch x y = (qosRefItems x y).map (below "qosRef") := by
  unfold qosRefPatch qosRefItems
  split
  · rfl
  · exact optionalPatch_eq "qosRef" .str x y

theorem map_str_inj {x y : Option String} : x.map Json.str = y.map Json.str ↔ x = y :=
  (Option.map_injective fun _ _ h => Json.str.inj h).eq_iff

theorem patch_qosRef_iff (a b : MbsMediaComp) :
    patchValue ((sentQosRef a).map .str) (qosRefItems a.qosRef b.qosRef) =
      some ((sentQosRef b).map .str) ↔ QosRefPatchable a b := by
  unfold QosRefPatchable
  cases ha : a.qosRef with
  | none =>
      have hsent : sentQosRef a = none := by
        rw [sentQosRef, ha, ite_self]
      cases hb : b.qosRef with
      | none =>
          have hsent' : sentQosRef b = none := by
            rw [sentQosRef, hb, ite_self]
          rw [hsent, hsent']
          exact iff_of_true rfl trivial
      | some y =>
          change some (some (Json.str y)) = _ ↔ _
          rw [Option.some.injEq]
          by_cases hvisible : qosRefVisible b
          · rw [sentQosRef_visible hvisible, hb]
            exact iff_of_true rfl hvisible
          · rw [sentQosRef_hidden hvisible]
            exact iff_of_false nofun hvisible
  | some x =>
      cases hb : b.qosRef with
      | none =>
          have hsent' : sentQosRef b = none := by
            rw [sentQosRef, hb, ite_self]
          rw [hsent']
          by_cases hvisible : qosRefVisible a
          · rw [sentQosRef_visible hvisible, ha]
            exact iff_of_true rfl hvisible
          · rw [sentQosRef_hidden hvisible]
            exact iff_of_false (fun h => by cases h) hvisible
      | some y =>
          change some ((sentQosRef a).map Json.str) = _ ↔ _
          rw [Option.some.injEq, map_str_inj]

theorem carries_qosReq_iff (a b : MbsMediaComp) :
    Carries (mbsQosReqPatchList a.mbsQosReq b.mbsQosReq) ((sentQosReq a).map mbsQosReqToJson)
      ((sentQosReq b).map mbsQosReqToJson) ↔ QosReqPatchable a b := by
  unfold QosReqPatchable
  cases ha : a.mbsQosReq with
  | none =>
      have hsent : sentQosReq a = none := by
        rw [sentQosReq, ha, ite_self]
      rw [hsent]
      cases hb : b.mbsQosReq with
      | none =>
          have hsent' : sentQosReq b = none := by
            rw [sentQosReq, hb, ite_self]
          rw [hsent']
          exact iff_of_true (carries_nil.2 rfl) trivial
      | some y =>
          refine carries_single.trans ?_
          by_cases hvisible : qosReqVisible b
          · rw [sentQosReq_visible hvisible, hb]
            exact iff_of_true ⟨rfl, rfl⟩ hvisible
          · rw [sentQosReq_hidden hvisible]
            exact iff_of_false (fun h => by cases h.2) hvisible
  | some x =>
      cases hb : b.mbsQosReq with
      | none => exact iff_of_false (fun h => by cases (carries_single.1 h).1) id
      | some y =>
          by_cases hvisible : qosReqVisible a
          · rw [sentQosReq_visible hvisible, ha]
            by_cases hvisible' : qosReqVisible b
            · rw [sentQosReq_visible hvisible', hb]
              refine (carries_qos_iff x y).trans ?_
              simp [hvisible, hvisible']
            · rw [sentQosReq_hidden hvisible']
              refine iff_of_false (fun h => ?_) (by simp [hvisible, hvisible'])
              obtain ⟨arpItems, -, -, hcarries⟩ := (mbsQosReqPatchList_some x y).1 h
              exact not_carries_go objectPatch_paths hcarries
          · rw [sentQosReq_hidden hvisible]
            by_cases hvisible' : qosReqVisible b
            · rw [sentQosReq_visible hvisible', hb]
              refine iff_of_false (fun h => ?_) (by simp [hvisible, hvisible'])
              obtain ⟨arpItems, -, -, hcarries⟩ := (mbsQosReqPatchList_some x y).1 h
              exact not_carries_come objectPatch_paths hcarries
            · rw [sentQosReq_hidden hvisible']
              refine (carries_hidden_iff x y).trans ?_
              simp [hvisible, hvisible']

/-! ## Components -/

/-- The members of a component, with what the nested differs say of three of them. -/
def compRows (a b : MbsMediaComp) (flows infos reqs : List PatchItem) : List MemberPatch :=
  [⟨"mbsMedCompNum", some (mediaCompNumberToJson a.id),
      requiredItems mediaCompNumberToJson a.id b.id, some (mediaCompNumberToJson b.id)⟩,
    ⟨"mbsFlowDescs", flowDescriptionsToJson (a.flowDescriptions.getD []), flows,
      flowDescriptionsToJson (b.flowDescriptions.getD [])⟩,
    ⟨"mbsSdfResPrio", (reservePriority a.mbsSdfReservePriority).map reservePriorityToJson,
      optionalItems reservePriorityToJson (reservePriority a.mbsSdfReservePriority)
        (reservePriority b.mbsSdfReservePriority),
      (reservePriority b.mbsSdfReservePriority).map reservePriorityToJson⟩,
    ⟨"mbsMediaInfo", a.mediaInfo.map mbsMediaInfoToJson, infos,
      b.mediaInfo.map mbsMediaInfoToJson⟩,
    ⟨"qosRef", (sentQosRef a).map .str, qosRefItems a.qosRef b.qosRef, (sentQosRef b).map .str⟩,
    ⟨"mbsQoSReq", (sentQosReq a).map mbsQosReqToJson, reqs, (sentQosReq b).map mbsQosReqToJson⟩]

theorem mbsMediaCompToJson_eq (c : MbsMediaComp) : mbsMediaCompToJson c =
    .obj (Members.ofList
      [("mbsMedCompNum", some (mediaCompNumberToJson c.id)),
        ("mbsFlowDescs", flowDescriptionsToJson (c.flowDescriptions.getD [])),
        ("mbsSdfResPrio", (reservePriority c.mbsSdfReservePriority).map reservePriorityToJson),
        ("mbsMediaInfo", c.mediaInfo.map mbsMediaInfoToJson),
        ("qosRef", (sentQosRef c).map .str),
        ("mbsQoSReq", (sentQosReq c).map mbsQosReqToJson)]) := by
  have href : (if c.mediaInfo.isSome then none else c.qosRef.map Json.str) =
      (sentQosRef c).map Json.str := by
    unfold sentQosRef
    split <;> rfl
  have hreq : (if c.mediaInfo.isSome || c.qosRef.isSome then none
      else c.mbsQosReq.map mbsQosReqToJson) = (sentQosReq c).map mbsQosReqToJson := by
    unfold sentQosReq
    split <;> rfl
  rw [← href, ← hreq]
  rfl

theorem mbsMediaCompPatchList_eq_some {ps : List PatchItem} :
    mbsMediaCompPatchList a b = some ps ↔ ∃ flows infos reqs,
      flowDescriptionsPatchList a.flowDescriptions b.flowDescriptions = some flows ∧
      Valued flows ∧ mbsMediaInfoPatchList a.mediaInfo b.mediaInfo = some infos ∧
      Valued infos ∧ mbsQosReqPatchList a.mbsQosReq b.mbsQosReq = some reqs ∧ Valued reqs ∧
      ps = objectPatch (compRows a b flows infos reqs) := by
  have hlist : ∀ flows infos reqs, requiredPatch "mbsMedCompNum" mediaCompNumberToJson a.id b.id ++
      flows.map (below "mbsFlowDescs") ++
      reservePriorityPatch a.mbsSdfReservePriority b.mbsSdfReservePriority ++
      infos.map (below "mbsMediaInfo") ++ qosRefPatch a.qosRef b.qosRef ++
      reqs.map (below "mbsQoSReq") = objectPatch (compRows a b flows infos reqs) := by
    intro flows infos reqs
    rw [requiredPatch_eq, reservePriorityPatch, optionalPatch_eq, qosRefPatch_eq]
    simp [objectPatch, compRows, List.append_assoc]
  simp only [mbsMediaCompPatchList, bind, Option.bind_eq_some_iff, appendPatches_key]
  constructor
  · rintro ⟨_, ⟨flows, hflows, hvflows, rfl⟩, _, ⟨infos, hinfos, hvinfos, rfl⟩, reqs, hreqs,
      hvreqs, rfl⟩
    exact ⟨flows, infos, reqs, hflows, hvflows, hinfos, hvinfos, hreqs, hvreqs, hlist _ _ _⟩
  · rintro ⟨flows, infos, reqs, hflows, hvflows, hinfos, hvinfos, hreqs, hvreqs, rfl⟩
    exact ⟨_, ⟨flows, hflows, hvflows, rfl⟩, _, ⟨infos, hinfos, hvinfos, rfl⟩, reqs, hreqs,
      hvreqs, (hlist _ _ _).symm⟩

/-- The patch of a component does what it is to do member by member. -/
theorem patch_comp_iff (flows infos reqs : List PatchItem) :
    applyPatch (mbsMediaCompToJson a) (objectPatch (compRows a b flows infos reqs)) =
      some (mbsMediaCompToJson b) ↔ ∀ r ∈ compRows a b flows infos reqs, r.Right := by
  have hnames : ((compRows a b flows infos reqs).map MemberPatch.name).Nodup := by
    change ["mbsMedCompNum", "mbsFlowDescs", "mbsSdfResPrio", "mbsMediaInfo", "qosRef",
      "mbsQoSReq"].Nodup
    decide
  rw [mbsMediaCompToJson_eq, mbsMediaCompToJson_eq]
  exact applyPatch_object_iff hnames

theorem patchable_of_patchesTo (h : PatchesTo a b) : Patchable a b := by
  obtain ⟨ps, hps, h⟩ := h
  obtain ⟨flows, infos, reqs, hflows, hvflows, hinfos, hvinfos, hreqs, hvreqs, rfl⟩ :=
    mbsMediaCompPatchList_eq_some.1 hps
  rw [patch_comp_iff] at h
  simp only [compRows, List.forall_mem_cons, MemberPatch.Right] at h
  obtain ⟨-, hf, -, hi, href, hq, -⟩ := h
  exact ⟨(carries_flows_iff _ _).1 ⟨flows, hflows, hvflows, hf⟩,
    (carries_mediaInfo_iff _ _).1 ⟨infos, hinfos, hvinfos, hi⟩, (patch_qosRef_iff a b).1 href,
    (carries_qosReq_iff a b).1 ⟨reqs, hreqs, hvreqs, hq⟩⟩

theorem patchesTo_of_patchable (h : Patchable a b) : PatchesTo a b := by
  obtain ⟨flows, hflows, hvflows, hf⟩ := (carries_flows_iff _ _).2 h.flows
  obtain ⟨infos, hinfos, hvinfos, hi⟩ := (carries_mediaInfo_iff _ _).2 h.mediaInfo
  obtain ⟨reqs, hreqs, hvreqs, hq⟩ := (carries_qosReq_iff a b).2 h.qosReq
  refine ⟨_, mbsMediaCompPatchList_eq_some.2
    ⟨flows, infos, reqs, hflows, hvflows, hinfos, hvinfos, hreqs, hvreqs, rfl⟩, ?_⟩
  rw [patch_comp_iff]
  simp only [compRows, List.forall_mem_cons, MemberPatch.Right]
  exact ⟨patch_required _ _ _, hf, patch_optional _ _ _, hi, (patch_qosRef_iff a b).2 h.qosRef,
    hq, nofun⟩

/-- A component is patched as it should be exactly when the nested lists lose nothing and keep
their places, and the QoS members change only where they are sent. -/
theorem patchesTo_iff (a b : MbsMediaComp) : PatchesTo a b ↔ Patchable a b :=
  ⟨patchable_of_patchesTo, patchesTo_of_patchable⟩

/-- A QoS reference is not replaced. -/
theorem not_patchesTo_qosRef :
    ¬ PatchesTo { id := 1, qosRef := some "a" } { id := 1, qosRef := some "b" } := by
  rintro ⟨ps, hps, h⟩
  obtain rfl : [] = ps := Option.some.inj hps
  rw [applyPatch_nil, Option.some.injEq, mbsMediaCompToJson_eq, mbsMediaCompToJson_eq,
    Json.obj.injEq] at h
  have href := congrArg (Members.lookup "qosRef") h
  simp [UnorderedArrays.lookup_ofList_cons, sentQosRef] at href

end ServiceConsumers.MediaComponentPatches
