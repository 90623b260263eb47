import ServiceConsumers.ExternalServiceAreas
import ServiceConsumers.MediaComponents

set_option autoImplicit false

/-!
# The public part of an MBS session (`mbs-service-info.c`, `mbs-fsa-id.c`, `ssm-addr.c`,
`associated-session-id.c` and the `_mbs_session_public_*` functions of `mbs-session.c`)
-/

namespace ServiceConsumers.PublicSessions

open JsonDocuments PatchLists WireText ServiceAreas ExternalServiceAreas MediaComponents

/-! ## Service information -/

structure MbsServiceInfo where
  mbsMediaComps : Option MediaCompTable := some []
  afAppId : Option String := none
  mbsSessionAmbr : Option ℕ := none
  mbsSdfReservePriority : ℕ := 0
  deriving DecidableEq, Repr, Inhabited

/-- A destination keeps its own, emptied table when the source has none. -/
def mbsServiceInfoCopy (dst : Option MbsServiceInfo) (src : MbsServiceInfo) :
    Option MbsServiceInfo := do
  let comps ← match src.mbsMediaComps with
    | some t => (t.mapM mbsMediaCompCopy).map some
    | none => some (match dst with
        | none => some []
        | some d => d.mbsMediaComps.map fun _ => [])
  return { src with mbsMediaComps := comps }

/-- The loop over the components of `a`, stopped at the first one that differs. -/
def mediaCompsEqual : MediaCompTable → MediaCompTable → Option Bool
  | [], _ => some true
  | c :: cs, t =>
      match findMediaComp t c.id with
      | none => some false
      | some d =>
          match mbsMediaCompEqual c d with
          | none => none
          | some false => some false
          | some true => mediaCompsEqual cs t

def mbsServiceInfoEqual (a b : Option MbsServiceInfo) : Option Bool :=
  match a, b with
  | none, none => some true
  | some x, some y =>
      if x.mbsSdfReservePriority ≠ y.mbsSdfReservePriority ∨
          x.mbsMediaComps.isSome ≠ y.mbsMediaComps.isSome ∨
          x.mbsSessionAmbr ≠ y.mbsSessionAmbr ∨ x.afAppId ≠ y.afAppId then some false
      else
        match x.mbsMediaComps, y.mbsMediaComps with
        | some s, some t => if s.length ≠ t.length then some false else mediaCompsEqual s t
        | _, _ => some true
  | _, _ => some false

def mbsServiceInfoToJson (info : MbsServiceInfo) : Json :=
  .obj (Members.ofList
    [("mbsMediaComps", if info.mbsMediaComps.getD [] = [] then none
        else some (mbsMediaCompsToJson (info.mbsMediaComps.getD []))),
     ("mbsSdfResPrio", (reservePriority info.mbsSdfReservePriority).map reservePriorityToJson),
     ("afAppId", info.afAppId.map .str),
     ("mbsSessionAmbr", info.mbsSessionAmbr.map bitrateToJson)])

/-- Compares the pointers, so two application ids that are both set are sent again. -/
def afAppIdPatch : Option String → Option String → List PatchItem
  | none, none => []
  | none, some y => [jsonPatchNew .add [.key "afAppId"] (some (.str y))]
  | some _, none => [jsonPatchNew .remove [.key "afAppId"] none]
  | some _, some y => [jsonPatchNew .replace [.key "afAppId"] (some (.str y))]

def mbsServiceInfoPatchList (a b : Option MbsServiceInfo) : Option (List PatchItem) :=
  structurePatchList (fun info => some (mbsServiceInfoToJson info))
    (fun x y =>
      (appendPatches [] (mbsMediaCompsPatchList (x.mbsMediaComps.getD []) (y.mbsMediaComps.getD []))
        [.key "mbsMediaComps"]).map fun patches =>
          patches ++ reservePriorityPatch x.mbsSdfReservePriority y.mbsSdfReservePriority ++
            afAppIdPatch x.afAppId y.afAppId ++
            optionalPatch "mbsSessionAmbr" bitrateToJson x.mbsSessionAmbr y.mbsSessionAmbr)
    a b

/-! ## FSA ids, addresses and identifiers -/

def mbsFsaIdToJson (id : ℕ) : Json := .str (uint32ToHexStr id 6 6)

def mbsFsaIdsToJson (ids : List ℕ) : Json := .arr (ids.map mbsFsaIdToJson)

def mbsFsaIdsCopy (src : List ℕ) : List ℕ := src

def mbsFsaIdsEqual (a b : List ℕ) : Bool := a == b

def mbsFsaIdsPatchList (a b : List ℕ) : Option (List PatchItem) :=
  indexPatchList .index (fun id => some (mbsFsaIdToJson id)) (fun ids => some (mbsFsaIdsToJson ids))
    (replaceUnlessEqual (fun x y => x == y) fun id => some (mbsFsaIdToJson id)) a b

/-- `AF_INET`, `AF_INET6`, or what else the application wrote into the field. -/
inductive AddressFamily where
  | inet
  | inet6
  | other (family : ℤ)
  deriving DecidableEq, Repr, Inhabited

structure SsmAddr where
  family : AddressFamily := .other 0
  source : ℕ := 0
  destMc : ℕ := 0
  deriving DecidableEq, Repr, Inhabited

/-- Addresses of an unknown family are never equal. -/
def ssmAddrEqual (a b : SsmAddr) : Bool :=
  a.family == b.family &&
    match a.family with
    | .inet | .inet6 => a.source == b.source && a.destMc == b.destMc
    | .other _ => false

def ssmEqual (a b : Option SsmAddr) : Bool :=
  match a, b with
  | none, none => true
  | some x, some y => ssmAddrEqual x y
  | _, _ => false

structure AssociatedSessionId where
  ssm : SsmAddr := {}
  string : Option String := none
  deriving DecidableEq, Repr, Inhabited

def associatedSessionIdEqual (a b : AssociatedSessionId) : Bool :=
  a.string == b.string && ssmAddrEqual a.ssm b.ssm

/-- The content of a TMGI object. -/
structure Tmgi where
  mbsServiceId : Option String := none
  plmn : PlmnId := {}
  expiryTime : ℤ := 0
  deriving DecidableEq, Repr, Inhabited

/-- The expiry time is not compared. -/
def tmgiEqual (a b : Tmgi) : Bool := a.mbsServiceId == b.mbsServiceId && a.plmn == b.plmn

structure Snssai where
  sst : ℕ := 0
  sd : ℕ := 0
  deriving DecidableEq, Repr, Inhabited

structure TunnelAddress where
  family : AddressFamily
  address : String
  port : ℕ
  deriving DecidableEq, Repr, Inhabited

inductive MbsServiceType where
  | broadcast
  | multicast
  deriving DecidableEq, Repr, Inhabited

inductive ActivityStatus where
  | none
  | active
  | inactive
  deriving DecidableEq, Repr, Inhabited

/-! ## The session -/

/-- A number the session points to. Copies of the session share the pointer, so the address
is kept beside the value. -/
structure Cell (α : Type) where
  address : ℕ
  value : α
  deriving DecidableEq, Repr, Inhabited

def cellValue {α : Type} (c : Option (Cell α)) : Option α := c.map Cell.value

/-- The pointers are the same and not `NULL`. -/
def sameCell {α : Type} : Option (Cell α) → Option (Cell α) → Bool
  | some c, some d => c.address == d.address
  | _, _ => false

/-- `mb_smf_sc_mbs_session_t`; `τ` is what the TMGI pointer stands for. The fields start
zeroed, as `ogs_calloc` leaves them. -/
structure PublicSession (τ : Type) where
  serviceType : MbsServiceType := .broadcast
  ssm : Option SsmAddr := none
  tmgi : Option τ := none
  mbUpfUdpTunnel : List TunnelAddress := []
  tunnelReq : Bool := false
  tmgiReq : Bool := false
  locationDependent : Bool := false
  anyUeInd : Bool := false
  contactPcfInd : Bool := false
  areaSessionId : Option (Cell ℕ) := none
  mbsServiceArea : Option MbsServiceArea := none
  extMbsServiceArea : Option ExtMbsServiceArea := none
  dnn : Option String := none
  snssai : Option Snssai := none
  startTime : Option (Cell ℤ) := none
  terminationTime : Option ℤ := none
  mbsServiceInfo : Option MbsServiceInfo := none
  activityStatus : ActivityStatus := .none
  mbsFsaIds : List ℕ := []
  associatedSessionId : Option AssociatedSessionId := none
  deriving Inhabited

namespace PublicSession

variable {τ σ : Type}

def forgetAddress {α : Type} (c : Option (Cell α)) : Option (Cell α) :=
  c.map fun cell => { cell with address := 0 }

/-- What the session says, with its TMGI read through and no addresses. -/
def content (s : PublicSession τ) (tmgi : Option σ) : PublicSession σ :=
  { s with
    tmgi := tmgi
    areaSessionId := forgetAddress s.areaSessionId
    startTime := forgetAddress s.startTime }

end PublicSession

section Copy

variable {τ : Type}

def mbsServiceInfoCopyInto (dst src : Option MbsServiceInfo) : Option (Option MbsServiceInfo) :=
  match src with
  | none => some none
  | some info => (mbsServiceInfoCopy dst info).map some

/-- Every field but the TMGI, which the caller has already copied. The termination time is
assigned to itself, so the destination keeps its own. `none` is a crash. -/
def publicCopyFields (dst : PublicSession τ) (src : PublicSession τ) (tmgi : Option τ) :
    Option (PublicSession τ) :=
  (mbsServiceInfoCopyInto dst.mbsServiceInfo src.mbsServiceInfo).map fun info =>
    { serviceType := src.serviceType
      ssm := src.ssm
      tmgi := tmgi
      mbUpfUdpTunnel := src.mbUpfUdpTunnel
      tunnelReq := src.tunnelReq
      tmgiReq := src.tmgiReq
      locationDependent := src.locationDependent
      anyUeInd := src.anyUeInd
      contactPcfInd := src.contactPcfInd
      areaSessionId := src.areaSessionId
      mbsServiceArea := src.mbsServiceArea.map mbsServiceAreaCopy
      extMbsServiceArea := src.extMbsServiceArea.map extMbsServiceAreaCopy
      dnn := src.dnn
      snssai := src.snssai
      startTime := src.startTime
      terminationTime := dst.terminationTime
      mbsServiceInfo := info
      activityStatus := src.activityStatus
      mbsFsaIds := mbsFsaIdsCopy src.mbsFsaIds
      associatedSessionId := src.associatedSessionId }

end Copy

section Equal

/-- Two optional members: equal presence, and equal content when both are set. -/
def optionEqual {α : Type} (equal : α → α → Bool) : Option α → Option α → Bool
  | none, none => true
  | some x, some y => equal x y
  | _, _ => false

/-- What is compared before the service information. -/
def publicEqualBefore (a b : PublicSession Tmgi) : Bool :=
  a.serviceType == b.serviceType && a.tunnelReq == b.tunnelReq && a.tmgiReq == b.tmgiReq &&
    a.locationDependent == b.locationDependent && a.anyUeInd == b.anyUeInd &&
    a.contactPcfInd == b.contactPcfInd && a.activityStatus == b.activityStatus &&
    a.mbUpfUdpTunnel.isEmpty == b.mbUpfUdpTunnel.isEmpty &&
    a.mbsFsaIds.length == b.mbsFsaIds.length &&
    a.mbsServiceInfo.isSome == b.mbsServiceInfo.isSome &&
    a.associatedSessionId.isSome == b.associatedSessionId.isSome &&
    cellValue a.areaSessionId == cellValue b.areaSessionId &&
    cellValue a.startTime == cellValue b.startTime &&
    a.terminationTime == b.terminationTime && a.dnn == b.dnn && ssmEqual a.ssm b.ssm &&
    optionEqual tmgiEqual a.tmgi b.tmgi &&
    optionEqual mbsServiceAreaEqual a.mbsServiceArea b.mbsServiceArea &&
    optionEqual extMbsServiceAreaEqual a.extMbsServiceArea b.extMbsServiceArea &&
    a.snssai == b.snssai

/-- `_mbs_session_public_equal` on two distinct objects; `none` is a crash in the
comparison of the flow descriptions. -/
def publicEqual (a b : PublicSession Tmgi) : Option Bool :=
  if publicEqualBefore a b then
    (mbsServiceInfoEqual a.mbsServiceInfo b.mbsServiceInfo).map fun info =>
      info && optionEqual associatedSessionIdEqual a.associatedSessionId b.associatedSessionId &&
        mbsFsaIdsEqual a.mbsFsaIds b.mbsFsaIds
  else some false

end Equal

section Patch

variable {τ : Type}

def activityStatusToJson : ActivityStatus → Json
  | .active => .str "ACTIVE"
  | .inactive => .str "INACTIVE"
  | .none => .null

def activityStatusPatch (a b : ActivityStatus) : List PatchItem :=
  if a = b then []
  else if a = .none then
    [jsonPatchNew .add [.key "activityStatus"] (some (activityStatusToJson b))]
  else if b = .none then [jsonPatchNew .remove [.key "activityStatus"] none]
  else [jsonPatchNew .replace [.key "activityStatus"] (some (activityStatusToJson b))]

/-- `_mbs_session_public_patch_list` on two sessions; the fields that cannot be updated only
give warnings. -/
def publicPatchList (a b : PublicSession τ) : Option (List PatchItem) := do
  let patches ← appendPatches (requiredPatch "contactPcfInd" .bool a.contactPcfInd b.contactPcfInd)
    (mbsServiceAreaPatchList a.mbsServiceArea b.mbsServiceArea) [.key "mbsServiceArea"]
  let patches ← appendPatches patches
    (extMbsServiceAreaPatchList a.extMbsServiceArea b.extMbsServiceArea) [.key "extMbsServiceArea"]
  let patches ← appendPatches patches
    (mbsServiceInfoPatchList a.mbsServiceInfo b.mbsServiceInfo) [.key "mbsServInfo"]
  match a.serviceType with
  | .broadcast =>
      appendPatches patches (mbsFsaIdsPatchList a.mbsFsaIds b.mbsFsaIds) [.key "mbsFsaIdList"]
  | .multicast => some (patches ++ activityStatusPatch a.activityStatus b.activityStatus)

/-- The members of the `ExtMbsSession` that the differ also covers, as
`__make_ext_mbs_session` encodes them. -/
def makeExtMbsSession (forUpdate : Bool) (s : PublicSession τ) : Option Members :=
  let area := match s.mbsServiceArea with
    | some x => if x.ncgiTais.length + x.tais.length > 0 then some (mbsServiceAreaToJson x) else none
    | none => none
  let extArea := match s.extMbsServiceArea with
    | some x =>
        if x.geographicAreas.length + x.civicAddresses.length > 0 then
          (extMbsServiceAreaToJson x).map some
        else some none
    | none => some none
  extArea.map fun ext => Members.ofList
    [("mbsServiceArea", area), ("extMbsServiceArea", ext),
     ("mbsServInfo", s.mbsServiceInfo.map mbsServiceInfoToJson),
     ("activityStatus", if s.activityStatus = .none then none
        else some (activityStatusToJson s.activityStatus)),
     ("mbsFsaIdList", if s.mbsFsaIds = [] then none else some (mbsFsaIdsToJson s.mbsFsaIds)),
     ("contactPcfInd", if forUpdate && s.contactPcfInd then some (.bool true) else none)]

end Patch

end ServiceConsumers.PublicSessions
