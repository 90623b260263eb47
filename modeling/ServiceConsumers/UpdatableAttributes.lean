import Mathlib.Data.List.Forall2
import ServiceConsumers.ListPatches
import ServiceConsumers.PublicSessions

set_option autoImplicit false

/-!
# When a patch list is empty

A differ yields no operation exactly when the members that it covers are the same to it.
-/

namespace ServiceConsumers.UpdatableAttributes

open JsonDocuments PatchLists ListPatches ServiceAreas ExternalServiceAreas MediaComponents PublicSessions

/-! ## Building lists -/

theorem jsonPatchesAppendList_eq_nil {dst src : List PatchItem} {place : Pointer} :
    jsonPatchesAppendList dst src place = some [] ↔ dst = [] ∧ src = [] := by
  unfold jsonPatchesAppendList
  cases src with
  | nil => simp [List.mapM_nil]
  | cons item items =>
      simp only [List.mapM_cons, reduceCtorEq, and_false, iff_false]
      cases jsonPatchNewCopyWithPrefix item place with
      | none => simp
      | some p => cases items.mapM fun item => jsonPatchNewCopyWithPrefix item place <;> simp

theorem appendPatches_eq_nil {dst : List PatchItem} {src : Option (List PatchItem)}
    {place : Pointer} : appendPatches dst src place = some [] ↔ dst = [] ∧ src = some [] := by
  unfold appendPatches
  cases src with
  | none => simp
  | some items => simp [jsonPatchesAppendList_eq_nil]

section Differs

variable {α : Type}

theorem requiredPatch_eq_nil [DecidableEq α] {name : String} {toJson : α → Json} {a b : α} :
    requiredPatch name toJson a b = [] ↔ a = b := by
  unfold requiredPatch
  split <;> simp_all

theorem optionalPatch_eq_nil [DecidableEq α] {name : String} {toJson : α → Json}
    {a b : Option α} : optionalPatch name toJson a b = [] ↔ a = b := by
  cases a <;> cases b <;> simp [optionalPatch]

theorem structurePatchList_eq_nil {toJson : α → Option Json}
    {members : α → α → Option (List PatchItem)} {R : α → α → Prop}
    (hmembers : ∀ x y, members x y = some [] ↔ R x y) {a b : Option α} :
    structurePatchList toJson members a b = some [] ↔ Option.Rel R a b := by
  cases a with
  | none =>
      cases b with
      | none => simp [structurePatchList]
      | some y =>
          simp only [structurePatchList, Option.some.injEq, reduceCtorEq, false_iff]
          intro h
          cases h
  | some x =>
      cases b with
      | none =>
          simp only [structurePatchList, Option.some.injEq, reduceCtorEq, false_iff]
          intro h
          cases h
      | some y =>
          simp only [structurePatchList, hmembers]
          exact ⟨fun h => .some h, fun h => by cases h; assumption⟩

variable {addAt : ℕ → Token} {toJson : α → Option Json} {listToJson : List α → Option Json}

theorem walkPatchList_eq_nil {change : ℕ → α → α → Option (List PatchItem)} {R : α → α → Prop}
    (hchange : ∀ idx x y, change idx x y = some [] ↔ R x y) {idx : ℕ} {a b : List α} :
    walkPatchList addAt toJson change idx a b = some [] ↔ List.Forall₂ R a b := by
  induction a generalizing idx b with
  | nil =>
      cases b with
      | nil => simp [walkPatchList]
      | cons y ys => simp [walkPatchList]
  | cons x xs ih =>
      cases b with
      | nil => simp [walkPatchList]
      | cons y ys =>
          simp only [walkPatchList, List.forall₂_cons, ← hchange idx, ← @ih (idx + 1) ys]
          cases hc : change idx x y with
          | none => simp
          | some items =>
              cases walkPatchList addAt toJson change (idx + 1) xs ys <;> simp

theorem indexPatchList_eq_nil {change : ℕ → α → α → Option (List PatchItem)} {R : α → α → Prop}
    (hchange : ∀ idx x y, change idx x y = some [] ↔ R x y) {a b : List α} :
    indexPatchList addAt toJson listToJson change a b = some [] ↔ List.Forall₂ R a b := by
  cases a with
  | nil => cases b <;> simp [indexPatchList]
  | cons x xs =>
      cases b with
      | nil => simp [indexPatchList]
      | cons y ys =>
          simp only [indexPatchList]
          exact walkPatchList_eq_nil hchange

theorem replaceUnlessEqual_eq_nil {equal : α → α → Bool} {idx : ℕ} {x y : α} :
    replaceUnlessEqual equal toJson idx x y = some [] ↔ equal x y = true := by
  unfold replaceUnlessEqual
  cases equal x y <;> simp

/-- What follows the equal prefix is the same exactly when the lists are. -/
theorem skipEqual_forall₂ (equal : α → α → Bool) (idx : ℕ) (a b : List α) :
    List.Forall₂ (fun x y => equal x y = true) (skipEqual equal idx a b).2.1
      (skipEqual equal idx a b).2.2 ↔ List.Forall₂ (fun x y => equal x y = true) a b := by
  induction a generalizing idx b with
  | nil => simp [skipEqual]
  | cons x xs ih =>
      cases b with
      | nil => simp [skipEqual]
      | cons y ys =>
          simp only [skipEqual]
          cases hxy : equal x y with
          | false => simp
          | true => simp [ih, hxy]

theorem skipEqual_start (equal : α → α → Bool) (x y : α) (xs ys : List α)
    (h : (skipEqual equal 0 (x :: xs) (y :: ys)).1 = 0) : equal x y = false := by
  cases hxy : equal x y with
  | false => rfl
  | true =>
      have hle := le_skipEqual equal 1 xs ys
      simp only [skipEqual, hxy, if_true, Nat.zero_add] at h
      omega

theorem prefixPatchList_eq_nil {equal : α → α → Bool} {a b : List α} :
    prefixPatchList equal addAt toJson listToJson a b = some [] ↔
      List.Forall₂ (fun x y => equal x y = true) a b := by
  cases a with
  | nil => cases b <;> simp [prefixPatchList]
  | cons x xs =>
      cases b with
      | nil => simp [prefixPatchList]
      | cons y ys =>
          have hrest := skipEqual_forall₂ equal 0 (x :: xs) (y :: ys)
          simp only [prefixPatchList]
          rcases hskip : skipEqual equal 0 (x :: xs) (y :: ys) with ⟨_ | idx, as, bs⟩
          · have hxy := skipEqual_start equal x y xs ys (by rw [hskip])
            simp [hxy]
          · rw [hskip] at hrest
            simp only
            rw [← hrest]
            exact walkPatchList_eq_nil fun idx x y => replaceUnlessEqual_eq_nil

end Differs

/-- A differ goes on from what was appended before. -/
theorem appendPatches_bind_eq_nil (dst : List PatchItem) (src : Option (List PatchItem))
    (place : Pointer) {k : List PatchItem → Option (List PatchItem)} {Q : Prop}
    (hk : ∀ patches, k patches = some [] ↔ patches = [] ∧ Q) :
    (appendPatches dst src place >>= k) = some [] ↔ (dst = [] ∧ src = some []) ∧ Q := by
  rw [← @appendPatches_eq_nil dst src place]
  cases appendPatches dst src place with
  | none => simp
  | some patches => simp [hk]

theorem foldlM_eq_nil {α : Type} {f : List PatchItem → α → Option (List PatchItem)}
    {R : α → Prop} (hf : ∀ patches x, f patches x = some [] ↔ patches = [] ∧ R x)
    (xs : List α) (patches : List PatchItem) :
    xs.foldlM f patches = some [] ↔ patches = [] ∧ ∀ x ∈ xs, R x := by
  induction xs generalizing patches with
  | nil => simp
  | cons x xs ih =>
      rw [List.foldlM_cons, List.forall_mem_cons, ← and_assoc, ← hf patches x]
      cases f patches x with
      | none => simp
      | some rest => simp [ih]

theorem foldlM_bind_eq_nil {α : Type} {f : List PatchItem → α → Option (List PatchItem)}
    {R : α → Prop} (hf : ∀ patches x, f patches x = some [] ↔ patches = [] ∧ R x)
    (xs : List α) (patches : List PatchItem) {k : List PatchItem → Option (List PatchItem)}
    {Q : Prop} (hk : ∀ patches, k patches = some [] ↔ patches = [] ∧ Q) :
    (xs.foldlM f patches >>= k) = some [] ↔ (patches = [] ∧ ∀ x ∈ xs, R x) ∧ Q := by
  rw [← foldlM_eq_nil hf]
  cases xs.foldlM f patches with
  | none => simp
  | some rest => simp [hk]

/-! ## Media components -/

theorem flowDescriptionPatchList_eq_nil {a b : FlowDescription} :
    flowDescriptionPatchList a b = [] ↔ a = b := by
  obtain ⟨a⟩ := a
  obtain ⟨b⟩ := b
  cases a <;> cases b <;> simp [flowDescriptionPatchList]

theorem flowDescriptionsPatchList_eq_nil {a b : Option (List FlowDescription)} :
    flowDescriptionsPatchList a b = some [] ↔ a.getD [] = b.getD [] := by
  rw [← List.forall₂_eq_eq_eq]
  refine indexPatchList_eq_nil fun idx x y => ?_
  rw [jsonPatchesAppendList_eq_nil, flowDescriptionPatchList_eq_nil]
  simp

theorem mediaTypePatch_eq_nil {a b : MediaType} : mediaTypePatch a b = [] ↔ a = b := by
  unfold mediaTypePatch
  split
  · simp_all
  · split
    · simp_all
    · split <;> simp_all

theorem codecsPatch_eq_nil {x y : MbsMediaInfo} :
    codecsPatch (codecSlots x) (codecSlots y) = [] ↔ codecSlots x = codecSlots y := by
  unfold codecsPatch codecSlots
  cases x.codec0 <;> cases x.codec1 <;> cases y.codec0 <;> cases y.codec1 <;> simp

structure SameMediaInfo (a b : MbsMediaInfo) : Prop where
  mbsMediaType : a.mbsMediaType = b.mbsMediaType
  maxBandwidth : a.maxRequestedMbsBandwidthDownlink = b.maxRequestedMbsBandwidthDownlink
  minBandwidth : a.minRequestedMbsBandwidthDownlink = b.minRequestedMbsBandwidthDownlink
  codecs : codecSlots a = codecSlots b

theorem mbsMediaInfoPatchList_eq_nil {a b : Option MbsMediaInfo} :
    mbsMediaInfoPatchList a b = some [] ↔ Option.Rel SameMediaInfo a b := by
  refine structurePatchList_eq_nil fun x y => ?_
  simp only [Option.some.injEq, List.append_eq_nil_iff, mediaTypePatch_eq_nil,
    optionalPatch_eq_nil, codecsPatch_eq_nil]
  constructor
  · rintro ⟨⟨⟨h₁, h₂⟩, h₃⟩, h₄⟩
    exact ⟨h₁, h₂, h₃, h₄⟩
  · rintro ⟨h₁, h₂, h₃, h₄⟩
    exact ⟨⟨⟨h₁, h₂⟩, h₃⟩, h₄⟩

theorem rel_eq {α : Type} {a b : Option α} : Option.Rel (· = ·) a b ↔ a = b := by
  cases a with
  | none =>
      cases b with
      | none => exact ⟨fun _ => rfl, fun _ => .none⟩
      | some y => exact ⟨fun h => (by cases h), fun h => (by cases h)⟩
  | some x =>
      cases b with
      | none => exact ⟨fun h => (by cases h), fun h => (by cases h)⟩
      | some y =>
          rw [Option.some.injEq]
          exact ⟨fun h => (by cases h; assumption), .some⟩

theorem arpPatchList_eq_nil {a b : Option Arp} : arpPatchList a b = some [] ↔ a = b := by
  refine (structurePatchList_eq_nil fun x y => ?_).trans rel_eq
  obtain ⟨p, c, v⟩ := x
  obtain ⟨p', c', v'⟩ := y
  simp [requiredPatch_eq_nil]

theorem mbsQosReqPatchList_eq_nil {a b : Option MbsQosReq} :
    mbsQosReqPatchList a b = some [] ↔ a = b := by
  refine (structurePatchList_eq_nil fun x y => ?_).trans rel_eq
  obtain ⟨q, g, m, aw, r⟩ := x
  obtain ⟨q', g', m', aw', r'⟩ := y
  simp [appendPatches_eq_nil, requiredPatch_eq_nil, optionalPatch_eq_nil, arpPatchList_eq_nil,
    and_assoc]

theorem reservePriorityPatch_eq_nil {a b : ℕ} : reservePriorityPatch a b = [] ↔ a = b := by
  rw [reservePriorityPatch, optionalPatch_eq_nil]
  unfold reservePriority
  split <;> split <;> simp_all [eq_comm]

theorem qosRefPatch_eq_nil {a b : Option String} :
    qosRefPatch a b = [] ↔ a.isSome = b.isSome := by
  cases a <;> cases b <;> simp [qosRefPatch, optionalPatch]

structure SameMediaComp (a b : MbsMediaComp) : Prop where
  id : a.id = b.id
  flowDescriptions : a.flowDescriptions.getD [] = b.flowDescriptions.getD []
  mbsSdfReservePriority : a.mbsSdfReservePriority = b.mbsSdfReservePriority
  mediaInfo : Option.Rel SameMediaInfo a.mediaInfo b.mediaInfo
  qosRef : a.qosRef.isSome = b.qosRef.isSome
  mbsQosReq : a.mbsQosReq = b.mbsQosReq

theorem mbsMediaCompPatchList_eq_nil {a b : MbsMediaComp} :
    mbsMediaCompPatchList a b = some [] ↔ SameMediaComp a b := by
  have hlast : ∀ patches, appendPatches (patches ++ qosRefPatch a.qosRef b.qosRef)
      (mbsQosReqPatchList a.mbsQosReq b.mbsQosReq) [.key "mbsQoSReq"] = some [] ↔
      patches = [] ∧ a.qosRef.isSome = b.qosRef.isSome ∧ a.mbsQosReq = b.mbsQosReq := by
    intro patches
    rw [appendPatches_eq_nil, List.append_eq_nil_iff, qosRefPatch_eq_nil,
      mbsQosReqPatchList_eq_nil, and_assoc]
  have hinfo : ∀ patches, (appendPatches
      (patches ++ reservePriorityPatch a.mbsSdfReservePriority b.mbsSdfReservePriority)
      (mbsMediaInfoPatchList a.mediaInfo b.mediaInfo) [.key "mbsMediaInfo"] >>= fun patches =>
        appendPatches (patches ++ qosRefPatch a.qosRef b.qosRef)
          (mbsQosReqPatchList a.mbsQosReq b.mbsQosReq) [.key "mbsQoSReq"]) = some [] ↔
      patches = [] ∧ a.mbsSdfReservePriority = b.mbsSdfReservePriority ∧
        Option.Rel SameMediaInfo a.mediaInfo b.mediaInfo ∧
        a.qosRef.isSome = b.qosRef.isSome ∧ a.mbsQosReq = b.mbsQosReq := by
    intro patches
    rw [appendPatches_bind_eq_nil _ _ _ hlast, List.append_eq_nil_iff, reservePriorityPatch_eq_nil,
      mbsMediaInfoPatchList_eq_nil]
    simp only [and_assoc]
  unfold mbsMediaCompPatchList
  rw [appendPatches_bind_eq_nil _ _ _ hinfo, requiredPatch_eq_nil, flowDescriptionsPatchList_eq_nil]
  constructor
  · rintro ⟨⟨h₁, h₂⟩, h₃, h₄, h₅, h₆⟩
    exact ⟨h₁, h₂, h₃, h₄, h₅, h₆⟩
  · rintro ⟨h₁, h₂, h₃, h₄, h₅, h₆⟩
    exact ⟨⟨h₁, h₂⟩, h₃, h₄, h₅, h₆⟩

/-- Every component of either table is in the other one, and says the same there. -/
def SameMediaComps (a b : MediaCompTable) : Prop :=
  (∀ x ∈ a, ∃ y, findMediaComp b x.id = some y ∧ SameMediaComp x y) ∧
    ∀ y ∈ b, (findMediaComp a y.id).isSome

theorem mbsMediaCompsPatchList_eq_nil {a b : MediaCompTable} :
    mbsMediaCompsPatchList a b = some [] ↔ SameMediaComps a b := by
  cases a with
  | nil =>
      cases b with
      | nil => simp [mbsMediaCompsPatchList, SameMediaComps]
      | cons d ds =>
          simp only [mbsMediaCompsPatchList, Option.some.injEq, reduceCtorEq, false_iff]
          intro h
          have hd := h.2 d List.mem_cons_self
          cases hd
  | cons c cs =>
      cases b with
      | nil =>
          simp only [mbsMediaCompsPatchList, Option.some.injEq, reduceCtorEq, false_iff]
          intro h
          obtain ⟨y, hy, -⟩ := h.1 c List.mem_cons_self
          cases hy
      | cons d ds =>
          -- The first loop walks the components of `a`, the second those of `b`.
          refine (foldlM_bind_eq_nil (R := fun x => ∃ y,
              findMediaComp (d :: ds) x.id = some y ∧ SameMediaComp x y)
            (fun patches x => ?_) (c :: cs) [] (fun patches =>
              foldlM_eq_nil (R := fun y => (findMediaComp (c :: cs) y.id).isSome)
                (fun patches y => ?_) (d :: ds) patches)).trans ?_
          · cases findMediaComp (d :: ds) x.id with
            | none => simp
            | some y => simp [appendPatches_eq_nil, mbsMediaCompPatchList_eq_nil]
          · cases findMediaComp (c :: cs) y.id <;> simp
          · rw [eq_self_iff_true, true_and]
            rfl

/-! ## The session -/

def SameServiceArea (a b : MbsServiceArea) : Prop :=
  List.Forall₂ (fun x y => ncgiTaiEqual x y = true) a.ncgiTais b.ncgiTais ∧
    List.Forall₂ (fun x y => taiEqual x y = true) a.tais b.tais

theorem mbsServiceAreaPatchList_eq_nil {a b : Option MbsServiceArea} :
    mbsServiceAreaPatchList a b = some [] ↔ Option.Rel SameServiceArea a b := by
  refine structurePatchList_eq_nil fun x y => ?_
  refine (appendPatches_bind_eq_nil _ _ _ fun patches => appendPatches_eq_nil).trans ?_
  rw [ncgiTaisPatchList, taisPatchList, prefixPatchList_eq_nil, prefixPatchList_eq_nil,
    eq_self_iff_true, true_and]
  rfl

/-- The areas of two sessions are the same to the differ only when both lists are empty. -/
def SameExtServiceArea (a b : ExtMbsServiceArea) : Prop :=
  (a.geographicAreas = [] ∧ b.geographicAreas = []) ∧
    List.Forall₂ (fun x y => civicAddressEqual x y = true) a.civicAddresses b.civicAddresses

theorem geographicAreasPatchList_eq_nil {a b : List GeographicArea} :
    geographicAreasPatchList a b = some [] ↔ a = [] ∧ b = [] := by
  rw [geographicAreasPatchList, indexPatchList_eq_nil (R := fun _ _ => False)]
  · cases a <;> cases b <;> simp
  · simp

theorem extMbsServiceAreaPatchList_eq_nil {a b : Option ExtMbsServiceArea} :
    extMbsServiceAreaPatchList a b = some [] ↔ Option.Rel SameExtServiceArea a b := by
  refine structurePatchList_eq_nil fun x y => ?_
  refine (appendPatches_bind_eq_nil _ _ _ fun patches => appendPatches_eq_nil).trans ?_
  rw [geographicAreasPatchList_eq_nil, civicAddressesPatchList,
    indexPatchList_eq_nil fun idx x y => replaceUnlessEqual_eq_nil, eq_self_iff_true, true_and]
  rfl

theorem afAppIdPatch_eq_nil {a b : Option String} :
    afAppIdPatch a b = [] ↔ a = none ∧ b = none := by
  cases a <;> cases b <;> simp [afAppIdPatch]

/-- An application id is sent again even when it is the same. -/
structure SameServiceInfo (a b : MbsServiceInfo) : Prop where
  mbsMediaComps : SameMediaComps (a.mbsMediaComps.getD []) (b.mbsMediaComps.getD [])
  mbsSdfReservePriority : a.mbsSdfReservePriority = b.mbsSdfReservePriority
  afAppId : a.afAppId = none ∧ b.afAppId = none
  mbsSessionAmbr : a.mbsSessionAmbr = b.mbsSessionAmbr

theorem mbsServiceInfoPatchList_eq_nil {a b : Option MbsServiceInfo} :
    mbsServiceInfoPatchList a b = some [] ↔ Option.Rel SameServiceInfo a b := by
  refine structurePatchList_eq_nil fun x y => ?_
  rw [Option.map_eq_some_iff]
  constructor
  · rintro ⟨patches, hcomps, hrest⟩
    simp only [List.append_eq_nil_iff, reservePriorityPatch_eq_nil, afAppIdPatch_eq_nil,
      optionalPatch_eq_nil] at hrest
    obtain ⟨⟨⟨rfl, h₁⟩, h₂⟩, h₃⟩ := hrest
    exact ⟨mbsMediaCompsPatchList_eq_nil.1 (appendPatches_eq_nil.1 hcomps).2, h₁, h₂, h₃⟩
  · rintro ⟨hcomps, h₁, h₂, h₃⟩
    refine ⟨[], appendPatches_eq_nil.2 ⟨rfl, mbsMediaCompsPatchList_eq_nil.2 hcomps⟩, ?_⟩
    rw [List.append_eq_nil_iff, List.append_eq_nil_iff, List.append_eq_nil_iff,
      reservePriorityPatch_eq_nil, afAppIdPatch_eq_nil, optionalPatch_eq_nil]
    exact ⟨⟨⟨rfl, h₁⟩, h₂⟩, h₃⟩

theorem mbsFsaIdsPatchList_eq_nil {a b : List ℕ} : mbsFsaIdsPatchList a b = some [] ↔ a = b := by
  rw [mbsFsaIdsPatchList, indexPatchList_eq_nil fun idx x y => replaceUnlessEqual_eq_nil]
  simp [List.forall₂_eq_eq_eq]

theorem activityStatusPatch_eq_nil {a b : ActivityStatus} :
    activityStatusPatch a b = [] ↔ a = b := by
  unfold activityStatusPatch
  split
  · simp_all
  · split
    · simp_all
    · split <;> simp_all

/-- No attribute that an update can carry differs; which of the last two is one depends on the
service type. -/
structure SameUpdatable {τ : Type} (a b : PublicSession τ) : Prop where
  contactPcfInd : a.contactPcfInd = b.contactPcfInd
  mbsServiceArea : Option.Rel SameServiceArea a.mbsServiceArea b.mbsServiceArea
  extMbsServiceArea : Option.Rel SameExtServiceArea a.extMbsServiceArea b.extMbsServiceArea
  mbsServiceInfo : Option.Rel SameServiceInfo a.mbsServiceInfo b.mbsServiceInfo
  mbsFsaIds : a.serviceType = .broadcast → a.mbsFsaIds = b.mbsFsaIds
  activityStatus : a.serviceType = .multicast → a.activityStatus = b.activityStatus

/-- The members that are compared first, whatever is appended after them. -/
theorem publicRows_eq_nil {τ : Type} {a b : PublicSession τ}
    {last : List PatchItem → Option (List PatchItem)} {Q : Prop}
    (hlast : ∀ patches, last patches = some [] ↔ patches = [] ∧ Q) :
    (do
      let patches ← appendPatches
        (requiredPatch "contactPcfInd" .bool a.contactPcfInd b.contactPcfInd)
        (mbsServiceAreaPatchList a.mbsServiceArea b.mbsServiceArea) [.key "mbsServiceArea"]
      let patches ← appendPatches patches
        (extMbsServiceAreaPatchList a.extMbsServiceArea b.extMbsServiceArea)
        [.key "extMbsServiceArea"]
      let patches ← appendPatches patches
        (mbsServiceInfoPatchList a.mbsServiceInfo b.mbsServiceInfo) [.key "mbsServInfo"]
      last patches) = some [] ↔
      (a.contactPcfInd = b.contactPcfInd ∧
        Option.Rel SameServiceArea a.mbsServiceArea b.mbsServiceArea) ∧
      Option.Rel SameExtServiceArea a.extMbsServiceArea b.extMbsServiceArea ∧
      Option.Rel SameServiceInfo a.mbsServiceInfo b.mbsServiceInfo ∧ Q := by
  have hinfo := fun patches => appendPatches_bind_eq_nil patches
    (mbsServiceInfoPatchList a.mbsServiceInfo b.mbsServiceInfo) [.key "mbsServInfo"] hlast
  simp only [and_assoc] at hinfo
  have hext := fun patches => appendPatches_bind_eq_nil patches
    (extMbsServiceAreaPatchList a.extMbsServiceArea b.extMbsServiceArea)
    [.key "extMbsServiceArea"] hinfo
  simp only [and_assoc] at hext
  refine (appendPatches_bind_eq_nil _ _ _ hext).trans ?_
  rw [requiredPatch_eq_nil, mbsServiceAreaPatchList_eq_nil, extMbsServiceAreaPatchList_eq_nil,
    mbsServiceInfoPatchList_eq_nil]

theorem publicPatchList_eq_nil {τ : Type} {a b : PublicSession τ} :
    publicPatchList a b = some [] ↔ SameUpdatable a b := by
  refine (publicRows_eq_nil (Q := (a.serviceType = .broadcast → a.mbsFsaIds = b.mbsFsaIds) ∧
    (a.serviceType = .multicast → a.activityStatus = b.activityStatus)) ?_).trans ?_
  · intro patches
    cases a.serviceType with
    | broadcast => simp [appendPatches_eq_nil, mbsFsaIdsPatchList_eq_nil]
    | multicast => simp [activityStatusPatch_eq_nil]
  · constructor
    · rintro ⟨⟨h₁, h₂⟩, h₃, h₄, h₅, h₆⟩
      exact ⟨h₁, h₂, h₃, h₄, h₅, h₆⟩
    · rintro ⟨h₁, h₂, h₃, h₄, h₅, h₆⟩
      exact ⟨⟨h₁, h₂⟩, h₃, h₄, h₅, h₆⟩

end ServiceConsumers.UpdatableAttributes
