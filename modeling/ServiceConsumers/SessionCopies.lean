import Mathlib.Data.List.Nodup
import ServiceConsumers.PublicSessions

set_option autoImplicit false

/-!
# A session value and its copy

Copying and comparing are two traversals of one record. This module goes through them side
by side and collects what a value has to be like for its copy to compare equal to it.
-/

namespace ServiceConsumers.SessionCopies

open GreedyMatching ServiceAreas ExternalServiceAreas MediaComponents PublicSessions

/-! ## Service areas -/

theorem taiEqual_self (t : Tai) : taiEqual t t = true := by simp [taiEqual]

theorem mbsServiceAreaEqual_copy (a : MbsServiceArea) :
    mbsServiceAreaEqual (mbsServiceAreaCopy a) a = true ∧
      mbsServiceAreaEqual a (mbsServiceAreaCopy a) = true := by
  have hncgi : ∀ n : NcgiTai, ncgiTaiEqual (ncgiTaiCopy n) (ncgiTaiCopy n) = true :=
    fun n => taiEqual_self n.tai
  constructor
  · have htais := matchAll_map taiEqual taiCopy taiCopy taiEqual_self a.tais
    have hncgis := matchAll_map ncgiTaiEqual ncgiTaiCopy ncgiTaiCopy hncgi a.ncgiTais
    simp [mbsServiceAreaEqual, mbsServiceAreaCopy, htais, hncgis]
  · have htais := matchAll_map taiEqual id (fun t => taiCopy (taiCopy t)) taiEqual_self a.tais
    have hncgis := matchAll_map ncgiTaiEqual id (fun n => ncgiTaiCopy (ncgiTaiCopy n))
      hncgi a.ncgiTais
    rw [List.map_id] at htais hncgis
    simp [mbsServiceAreaEqual, mbsServiceAreaCopy, Function.comp_def, htais, hncgis]

theorem civicAddressesEqual_self (cs : List CivicAddress) : civicAddressesEqual cs cs = true := by
  have hself : ∀ c : CivicAddress, civicAddressEqual c c = true := fun c => by
    simp [civicAddressEqual]
  have h := matchAll_map civicAddressEqual id civicAddressCopy hself cs
  rw [List.map_id] at h
  unfold civicAddressesEqual
  split
  · rfl
  · simp [h]

/-- Geographic areas never compare equal, so there must be none. -/
theorem geographicAreasEqual_iff {a b : List GeographicArea} :
    geographicAreasEqual a b = true ↔ a = [] ∧ b = [] := by
  unfold geographicAreasEqual
  split
  · simp
  · rename_i hne
    refine iff_of_false ?_ (fun h => hne h.1 h.2)
    cases a with
    | nil => cases b with
      | nil => exact absurd rfl (hne rfl)
      | cons y ys => simp
    | cons x xs =>
        simp [matchAll, removeEqual_false geographicAreaEqual (fun _ _ => rfl)]

theorem extMbsServiceAreaEqual_copy_iff (a : ExtMbsServiceArea) :
    (extMbsServiceAreaEqual (extMbsServiceAreaCopy a) a = true ↔ a.geographicAreas = []) ∧
      (extMbsServiceAreaEqual a (extMbsServiceAreaCopy a) = true ↔ a.geographicAreas = []) := by
  have hcivic : a.civicAddresses.map civicAddressCopy = a.civicAddresses := List.map_id _
  simp [extMbsServiceAreaEqual, extMbsServiceAreaCopy, hcivic, geographicAreasEqual_iff,
    civicAddressesEqual_self]

/-! ## Addresses -/

def AddressFamily.Known : AddressFamily → Prop
  | .inet | .inet6 => True
  | .other _ => False

theorem ssmAddrEqual_self_iff (a : SsmAddr) :
    ssmAddrEqual a a = true ↔ AddressFamily.Known a.family := by
  cases h : a.family <;> simp [ssmAddrEqual, h, AddressFamily.Known]

theorem ssmEqual_self_iff (a : Option SsmAddr) :
    ssmEqual a a = true ↔ ∀ x, a = some x → AddressFamily.Known x.family := by
  cases a <;> simp [ssmEqual, ssmAddrEqual_self_iff]

theorem associatedSessionIdEqual_self_iff (a : Option AssociatedSessionId) :
    optionEqual associatedSessionIdEqual a a = true ↔
      ∀ x, a = some x → AddressFamily.Known x.ssm.family := by
  cases a <;> simp [optionEqual, associatedSessionIdEqual, ssmAddrEqual_self_iff]

/-! ## Media components -/

/-- Every flow description of a component has its string. -/
def FlowsHaveStrings (c : MbsMediaComp) : Prop :=
  ∀ fs, c.flowDescriptions = some fs → ∀ f ∈ fs, f.string.isSome

theorem flowDescriptionsCopy_eq_some {fs gs : List FlowDescription} :
    flowDescriptionsCopy fs = some gs ↔ gs = fs ∧ ∀ f ∈ fs, f.string.isSome := by
  unfold flowDescriptionsCopy
  induction fs generalizing gs with
  | nil => exact ⟨fun h => ⟨(Option.some.inj h).symm, nofun⟩, fun h => congrArg some h.1.symm⟩
  | cons f fs ih =>
      simp only [List.mapM_cons, bind, Option.bind_eq_some_iff, pure, Option.some.injEq,
        List.forall_mem_cons, flowDescriptionCopy, Option.map_eq_some_iff]
      constructor
      · rintro ⟨_, ⟨s, hs, rfl⟩, gs', hgs, rfl⟩
        obtain ⟨rfl, hall⟩ := ih.1 hgs
        obtain ⟨_⟩ := f
        simp only at hs
        subst hs
        exact ⟨rfl, rfl, hall⟩
      · rintro ⟨rfl, hf, hall⟩
        obtain ⟨s, hs⟩ := Option.isSome_iff_exists.1 hf
        obtain ⟨_⟩ := f
        simp only at hs
        subst hs
        exact ⟨_, ⟨s, rfl, rfl⟩, fs, ih.2 ⟨rfl, hall⟩, rfl⟩

/-- A component with its codecs in order, which is what a copy of it is. -/
def orderedCodecs (c : MbsMediaComp) : MbsMediaComp :=
  { c with mediaInfo := c.mediaInfo.map mbsMediaInfoCopy }

theorem mbsMediaCompCopy_eq_some {c d : MbsMediaComp} :
    mbsMediaCompCopy c = some d ↔ d = orderedCodecs c ∧ FlowsHaveStrings c := by
  obtain ⟨id, flows, prio, info, qosRef, qos⟩ := c
  cases flows with
  | none => exact ⟨fun h => ⟨(Option.some.inj h).symm, nofun⟩, fun h => congrArg some h.1.symm⟩
  | some fs =>
      simp only [mbsMediaCompCopy, bind, Option.bind_eq_some_iff, Option.map_eq_some_iff, pure,
        Option.some.injEq, FlowsHaveStrings, orderedCodecs]
      constructor
      · rintro ⟨_, ⟨gs, hgs, rfl⟩, rfl⟩
        obtain ⟨rfl, hall⟩ := flowDescriptionsCopy_eq_some.1 hgs
        exact ⟨rfl, fun _ h => h ▸ hall⟩
      · rintro ⟨rfl, hall⟩
        exact ⟨_, ⟨fs, flowDescriptionsCopy_eq_some.2 ⟨rfl, hall fs rfl⟩, rfl⟩, rfl⟩

theorem codecSlots_copy (info : MbsMediaInfo) :
    codecSlots (mbsMediaInfoCopy info) = codecSlots info := by
  obtain ⟨_, _, _, c0, c1⟩ := info
  cases c0 <;> cases c1 <;> rfl

theorem codecsEqual_codecSlots (info : MbsMediaInfo) :
    codecsEqual (codecSlots info) (codecSlots info) = true := by
  obtain ⟨_, _, _, c0, c1⟩ := info
  cases c0 <;> cases c1 <;> simp [codecsEqual, codecSlots]

theorem mbsMediaInfoEqual_copy (info : Option MbsMediaInfo) :
    mbsMediaInfoEqual (info.map mbsMediaInfoCopy) info = true ∧
      mbsMediaInfoEqual info (info.map mbsMediaInfoCopy) = true := by
  cases info with
  | none => exact ⟨rfl, rfl⟩
  | some i =>
      simp only [Option.map_some, mbsMediaInfoEqual, codecSlots_copy, codecsEqual_codecSlots]
      simp [mbsMediaInfoCopy]

theorem flowDescriptionsEqual_self {c : MbsMediaComp} (h : FlowsHaveStrings c) :
    flowDescriptionsEqual c.flowDescriptions c.flowDescriptions = some true := by
  cases hf : c.flowDescriptions with
  | none => rfl
  | some fs =>
      simp [flowDescriptionsEqual, flowDescriptionsCopy_eq_some.2 ⟨rfl, h fs hf⟩]

theorem mbsMediaCompEqual_copy {c : MbsMediaComp} (h : FlowsHaveStrings c) :
    mbsMediaCompEqual (orderedCodecs c) c = some true ∧
      mbsMediaCompEqual c (orderedCodecs c) = some true := by
  have hflows := flowDescriptionsEqual_self h
  obtain ⟨hinfo, hinfo'⟩ := mbsMediaInfoEqual_copy c.mediaInfo
  simp [mbsMediaCompEqual, orderedCodecs, hflows, hinfo, hinfo', mbsQosReqEqual]

/-- The components of a hash table have different keys. -/
def KeyedByNumber (t : MediaCompTable) : Prop := (t.map MbsMediaComp.id).Nodup

theorem findMediaComp_of_mem {t : MediaCompTable} (hkeys : KeyedByNumber t) {c : MbsMediaComp}
    (hc : c ∈ t) : findMediaComp t c.id = some c := by
  unfold findMediaComp
  cases hfind : t.find? fun d => d.id = c.id with
  | none => exact absurd (decide_eq_true rfl) (List.find?_eq_none.1 hfind c hc)
  | some d =>
      have hd : d ∈ t := List.mem_of_find?_eq_some hfind
      have hid : d.id = c.id := by simpa using List.find?_some hfind
      rw [List.inj_on_of_nodup_map hkeys hd hc hid]

theorem findMediaComp_orderedCodecs (t : MediaCompTable) (i : ℤ) :
    findMediaComp (t.map orderedCodecs) i = (findMediaComp t i).map orderedCodecs := by
  unfold findMediaComp
  rw [List.find?_map]
  rfl

/-- The loop over the components of one table goes through when each has its equal in the
other. -/
theorem mediaCompsEqual_of_forall {cs t : MediaCompTable}
    (h : ∀ c ∈ cs, ∃ d, findMediaComp t c.id = some d ∧ mbsMediaCompEqual c d = some true) :
    mediaCompsEqual cs t = some true := by
  induction cs with
  | nil => rfl
  | cons c cs ih =>
      obtain ⟨d, hd, heq⟩ := h c List.mem_cons_self
      rw [mediaCompsEqual, hd]
      simp only [heq]
      exact ih fun c' hc' => h c' (List.mem_cons_of_mem c hc')

theorem mediaCompsEqual_copy {t : MediaCompTable} (hkeys : KeyedByNumber t)
    (hflows : ∀ c ∈ t, FlowsHaveStrings c) :
    mediaCompsEqual (t.map orderedCodecs) t = some true ∧
      mediaCompsEqual t (t.map orderedCodecs) = some true := by
  constructor
  · refine mediaCompsEqual_of_forall fun c' hc' => ?_
    obtain ⟨c, hc, rfl⟩ := List.mem_map.1 hc'
    exact ⟨c, findMediaComp_of_mem hkeys hc, (mbsMediaCompEqual_copy (hflows c hc)).1⟩
  · refine mediaCompsEqual_of_forall fun c hc => ⟨orderedCodecs c, ?_, ?_⟩
    · rw [findMediaComp_orderedCodecs, findMediaComp_of_mem hkeys hc, Option.map_some]
    · exact (mbsMediaCompEqual_copy (hflows c hc)).2

theorem mapM_mbsMediaCompCopy_eq_some {t t' : MediaCompTable} :
    t.mapM mbsMediaCompCopy = some t' ↔
      t' = t.map orderedCodecs ∧ ∀ c ∈ t, FlowsHaveStrings c := by
  induction t generalizing t' with
  | nil =>
      simp only [List.mapM_nil, pure, Option.some.injEq, List.map_nil, List.not_mem_nil,
        false_implies, implies_true, and_true]
      exact eq_comm
  | cons c t ih =>
      simp only [List.mapM_cons, bind, Option.bind_eq_some_iff, pure, Option.some.injEq,
        List.forall_mem_cons, mbsMediaCompCopy_eq_some, List.map_cons]
      constructor
      · rintro ⟨_, ⟨rfl, hc⟩, _, ht, rfl⟩
        obtain ⟨rfl, hall⟩ := ih.1 ht
        exact ⟨rfl, hc, hall⟩
      · rintro ⟨rfl, hc, hall⟩
        exact ⟨_, ⟨rfl, hc⟩, _, ih.2 ⟨rfl, hall⟩, rfl⟩

/-! ## Service information -/

/-- The components that a copy of the service information has, if it comes to be. -/
def copiedComps (dst : Option MbsServiceInfo) (info : MbsServiceInfo) : Option MediaCompTable :=
  match info.mbsMediaComps with
  | some t => some (t.map orderedCodecs)
  | none =>
      match dst with
      | none => some []
      | some d => d.mbsMediaComps.map fun _ => []

def copiedInfo (dst : Option MbsServiceInfo) (info : MbsServiceInfo) : MbsServiceInfo :=
  { info with mbsMediaComps := copiedComps dst info }

/-- A property of every media component of the service information. -/
def EveryTable (p : MediaCompTable → Prop) (src : Option MbsServiceInfo) : Prop :=
  ∀ info t, src = some info → info.mbsMediaComps = some t → p t

def StringsPresent (src : Option MbsServiceInfo) : Prop :=
  EveryTable (fun t => ∀ c ∈ t, FlowsHaveStrings c) src

/-- Information without a table of components goes to information without one. -/
def TablesAgree (dst src : Option MbsServiceInfo) : Prop :=
  ∀ info, src = some info → info.mbsMediaComps = none →
    ∃ d, dst = some d ∧ d.mbsMediaComps = none

variable {dst src : Option MbsServiceInfo}

theorem mbsServiceInfoCopyInto_eq_some {copy : Option MbsServiceInfo} :
    mbsServiceInfoCopyInto dst src = some copy ↔
      copy = src.map (copiedInfo dst) ∧ StringsPresent src := by
  cases src with
  | none => exact ⟨fun h => ⟨(Option.some.inj h).symm, nofun⟩, fun h => congrArg some h.1.symm⟩
  | some info =>
      obtain ⟨comps, app, ambr, prio⟩ := info
      cases comps with
      | none =>
          exact ⟨fun h => ⟨(Option.some.inj h).symm, by rintro _ _ ⟨⟩ ⟨⟩⟩,
            fun h => congrArg some h.1.symm⟩
      | some t =>
          simp only [mbsServiceInfoCopyInto, mbsServiceInfoCopy, bind, pure, Option.map_eq_some_iff,
            Option.bind_eq_some_iff, Option.some.injEq]
          constructor
          · rintro ⟨_, ⟨_, ⟨t', ht', rfl⟩, rfl⟩, rfl⟩
            obtain ⟨rfl, hall⟩ := mapM_mbsMediaCompCopy_eq_some.1 ht'
            exact ⟨rfl, by rintro _ _ ⟨⟩ ⟨⟩; exact hall⟩
          · rintro ⟨rfl, hall⟩
            exact ⟨_, ⟨_, ⟨_, mapM_mbsMediaCompCopy_eq_some.2 ⟨rfl, hall _ _ rfl rfl⟩, rfl⟩, rfl⟩,
              rfl⟩

variable (dst) in
theorem mbsServiceInfoEqual_copy (hkeys : EveryTable KeyedByNumber src)
    (hstrings : StringsPresent src) :
    (mbsServiceInfoEqual (src.map (copiedInfo dst)) src = some true ↔ TablesAgree dst src) ∧
      (mbsServiceInfoEqual src (src.map (copiedInfo dst)) = some true ↔ TablesAgree dst src) := by
  cases src with
  | none => exact ⟨iff_of_true rfl nofun, iff_of_true rfl nofun⟩
  | some info =>
      obtain ⟨comps, app, ambr, prio⟩ := info
      cases comps with
      | some t =>
          have hagree : TablesAgree dst (some ⟨some t, app, ambr, prio⟩) := by rintro _ ⟨⟩ ⟨⟩
          obtain ⟨hcopy, hcopy'⟩ :=
            mediaCompsEqual_copy (hkeys _ _ rfl rfl) (hstrings _ _ rfl rfl)
          refine ⟨iff_of_true ?_ hagree, iff_of_true ?_ hagree⟩
          · simp [mbsServiceInfoEqual, copiedInfo, copiedComps, hcopy]
          · simp [mbsServiceInfoEqual, copiedInfo, copiedComps, hcopy']
      | none =>
          cases dst with
          | none => simp [mbsServiceInfoEqual, copiedInfo, copiedComps, TablesAgree]
          | some d =>
              cases hd : d.mbsMediaComps <;>
                simp [mbsServiceInfoEqual, copiedInfo, copiedComps, TablesAgree, hd]

/-! ## The session -/

section Session

variable {τ σ : Type} {dst src : PublicSession τ}

/-- The record that a copy of a session is, if it comes to be. -/
def copiedSession (dst src : PublicSession τ) (tmgi : Option τ) : PublicSession τ :=
  { src with
    tmgi := tmgi
    mbsServiceArea := src.mbsServiceArea.map mbsServiceAreaCopy
    extMbsServiceArea := src.extMbsServiceArea.map extMbsServiceAreaCopy
    terminationTime := dst.terminationTime
    mbsServiceInfo := src.mbsServiceInfo.map (copiedInfo dst.mbsServiceInfo) }

theorem publicCopyFields_eq_some {tmgi : Option τ} {copy : PublicSession τ} :
    publicCopyFields dst src tmgi = some copy ↔
      copy = copiedSession dst src tmgi ∧ StringsPresent src.mbsServiceInfo := by
  simp only [publicCopyFields, Option.map_eq_some_iff, mbsServiceInfoCopyInto_eq_some]
  constructor
  · rintro ⟨_, ⟨rfl, hstrings⟩, rfl⟩
    exact ⟨rfl, hstrings⟩
  · rintro ⟨rfl, hstrings⟩
    exact ⟨_, ⟨rfl, hstrings⟩, rfl⟩

/-- What makes a session compare equal to its copy: what the copy leaves out is not there,
and what never compares equal is not there. -/
structure Faithful (dst src : PublicSession τ) : Prop where
  terminationTime : dst.terminationTime = src.terminationTime
  ssm : ∀ a, src.ssm = some a → AddressFamily.Known a.family
  associatedSessionId : ∀ a, src.associatedSessionId = some a → AddressFamily.Known a.ssm.family
  geographicAreas : ∀ a, src.extMbsServiceArea = some a → a.geographicAreas = []
  strings : StringsPresent src.mbsServiceInfo
  tables : TablesAgree dst.mbsServiceInfo src.mbsServiceInfo

theorem cellValue_forgetAddress {α : Type} (c : Option (Cell α)) :
    cellValue (PublicSession.forgetAddress c) = cellValue c := by
  cases c <;> rfl

theorem optionEqual_tmgiEqual_self (t : Option Tmgi) : optionEqual tmgiEqual t t = true := by
  cases t <;> simp [optionEqual, tmgiEqual]

theorem optionEqual_mbsServiceArea_copy (a : Option MbsServiceArea) :
    optionEqual mbsServiceAreaEqual (a.map mbsServiceAreaCopy) a = true ∧
      optionEqual mbsServiceAreaEqual a (a.map mbsServiceAreaCopy) = true := by
  cases a with
  | none => exact ⟨rfl, rfl⟩
  | some a => exact mbsServiceAreaEqual_copy a

theorem optionEqual_extMbsServiceArea_copy (a : Option ExtMbsServiceArea) :
    (optionEqual extMbsServiceAreaEqual (a.map extMbsServiceAreaCopy) a = true ↔
        ∀ x, a = some x → x.geographicAreas = []) ∧
      (optionEqual extMbsServiceAreaEqual a (a.map extMbsServiceAreaCopy) = true ↔
        ∀ x, a = some x → x.geographicAreas = []) := by
  cases a with
  | none => exact ⟨iff_of_true rfl nofun, iff_of_true rfl nofun⟩
  | some a => simpa [optionEqual] using extMbsServiceAreaEqual_copy_iff a

theorem publicEqual_eq_some_true {a b : PublicSession Tmgi} :
    publicEqual a b = some true ↔ publicEqualBefore a b = true ∧
      mbsServiceInfoEqual a.mbsServiceInfo b.mbsServiceInfo = some true ∧
      optionEqual associatedSessionIdEqual a.associatedSessionId b.associatedSessionId = true ∧
      mbsFsaIdsEqual a.mbsFsaIds b.mbsFsaIds = true := by
  unfold publicEqual
  cases publicEqualBefore a b with
  | false => simp
  | true =>
      cases mbsServiceInfoEqual a.mbsServiceInfo b.mbsServiceInfo with
      | none => simp
      | some equal => simp [and_assoc]

/-- A session compares equal to its copy, in either order, exactly when it is faithful. -/
theorem publicEqual_copiedSession (hkeys : EveryTable KeyedByNumber src.mbsServiceInfo)
    (hstrings : StringsPresent src.mbsServiceInfo) (tmgi : Option τ) (t : Option Tmgi) :
    (publicEqual ((copiedSession dst src tmgi).content t) (src.content t) = some true ↔
        Faithful dst src) ∧
      (publicEqual (src.content t) ((copiedSession dst src tmgi).content t) = some true ↔
        Faithful dst src) := by
  obtain ⟨hinfo, hinfo'⟩ := mbsServiceInfoEqual_copy dst.mbsServiceInfo hkeys hstrings
  obtain ⟨harea, harea'⟩ := optionEqual_mbsServiceArea_copy src.mbsServiceArea
  obtain ⟨hext, hext'⟩ := optionEqual_extMbsServiceArea_copy src.extMbsServiceArea
  have hssm := ssmEqual_self_iff src.ssm
  have hassociated := associatedSessionIdEqual_self_iff src.associatedSessionId
  have hfaithful : Faithful dst src ↔ dst.terminationTime = src.terminationTime ∧
      (∀ a, src.ssm = some a → AddressFamily.Known a.family) ∧
      (∀ a, src.extMbsServiceArea = some a → a.geographicAreas = []) ∧
      TablesAgree dst.mbsServiceInfo src.mbsServiceInfo ∧
      (∀ a, src.associatedSessionId = some a → AddressFamily.Known a.ssm.family) :=
    ⟨fun h => ⟨h.terminationTime, h.ssm, h.geographicAreas, h.tables, h.associatedSessionId⟩,
      fun h => ⟨h.1, h.2.1, h.2.2.2.2, h.2.2.1, hstrings, h.2.2.2.1⟩⟩
  rw [hfaithful, publicEqual_eq_some_true, publicEqual_eq_some_true]
  constructor
  · simp [publicEqualBefore, copiedSession, PublicSession.content, cellValue_forgetAddress,
      optionEqual_tmgiEqual_self, harea, hext, hssm, hassociated, mbsFsaIdsEqual, hinfo, and_assoc]
  · simp [publicEqualBefore, copiedSession, PublicSession.content, cellValue_forgetAddress,
      optionEqual_tmgiEqual_self, harea', hext', hssm, hassociated, mbsFsaIdsEqual, hinfo',
      and_assoc, @eq_comm _ src.terminationTime]

end Session

end ServiceConsumers.SessionCopies
