import ServiceConsumers.PcfCreations

set_option autoImplicit false

/-!
# The identity of a UE on its way to the PCF (`pcf-client.c`, `pcf-client-sess.c`, `pcf-build.c`)

An app session keeps a copy of the network identifier that it is created for, and has members of
its own for the same data, which the request is built from.
-/

namespace ServiceConsumers.UeIdentities

open PcfEvents PcfSessions PcfCreations

/-- `ogs_sockaddr_t` of the two families. -/
inductive Sockaddr where
  | inet (address : BitVec 32)
  | inet6 (address : BitVec 128)
  deriving DecidableEq, Repr

/-- `ue_network_identifier_t`. -/
structure UeNetworkIdentifier where
  address : Option Sockaddr := none
  supi : Option String := none
  gpsi : Option String := none
  dnn : Option String := none
  ipDomain : Option String := none
  deriving DecidableEq, Repr

/-- `ogs_s_nssai_t`. -/
structure SNssai where
  sst : BitVec 8 := 0
  sd : BitVec 24 := 0
  deriving DecidableEq, Repr

/-- `pcf_app_session_t` with what it knows of its UE. -/
structure UeAppSession extends PcfAppSession where
  ueNetworkIdentifier : UeNetworkIdentifier
  ipv4addr : Option String := none
  ipv6addr : Option String := none
  ipv6prefix : Option String := none
  supi : Option String := none
  gpsi : Option String := none
  sNssai : SNssai := {}
  dnn : Option String := none

/-- `OpenAPI_events_subsc_req_data_t`. -/
structure EventsSubscReqData where
  events : List AfEventSubscription
  notifUri : String

structure Snssai where
  sst : BitVec 8
  sd : Option String

inductive SponsoringStatus where
  | sponsorDisabled
  | sponsorEnabled

inductive ReservPriority where
  | prio (n : ℕ)

/-- `OpenAPI_app_session_context_req_data_t`, the members that are set or could tell of the UE;
`M` is the type of media components. -/
structure AppSessionContextReqData (M : Type) where
  notifUri : String
  suppFeat : String
  ueIpv4 : Option String
  ueIpv6 : Option String
  ueMac : Option String
  ipDomain : Option String
  dnn : Option String
  evSubsc : EventsSubscReqData
  sliceInfo : Option Snssai
  sponStatus : SponsoringStatus
  supi : Option String
  gpsi : Option String
  resPrio : ReservPriority
  medComponents : List M

/-- What the library takes from Open5GS: texts of addresses, of feature masks and of slice
differentiators. -/
structure Texts where
  ogsIpstrdup : Sockaddr → String
  ogsUint64ToString : BitVec 64 → String
  ogsSNssaiSdToString : BitVec 24 → Option String

/-- `__ue_network_identifier_clone`. -/
def ueNetworkIdentifierClone (toClone : UeNetworkIdentifier) : UeNetworkIdentifier :=
  { address := toClone.address
    supi := toClone.supi
    gpsi := toClone.gpsi
    dnn := toClone.dnn
    ipDomain := toClone.ipDomain }

/-- `_pcf_app_session_new`, which sets nothing else of the UE. -/
def pcfAppSessionNewFor (p : ℕ) (ueConnection : UeNetworkIdentifier) (args : CreateArgs) :
    UeAppSession :=
  { toPcfAppSession := newAppSession p args
    ueNetworkIdentifier := ueNetworkIdentifierClone ueConnection }

section

variable (texts : Texts) {M : Type}

/-- `_pcf_client_sess_ipv4addr_set_from_sockaddr`. -/
def pcfClientSessIpv4addrSetFromSockaddr (sess : UeAppSession) (addr : Option Sockaddr) :
    UeAppSession × Bool :=
  match addr with
  | some (.inet a) => ({ sess with ipv4addr := some (texts.ogsIpstrdup (.inet a)) }, true)
  | some (.inet6 _) | none => (sess, false)

/-- `_pcf_client_sess_ipv6prefix_set_from_sockaddr`. -/
def pcfClientSessIpv6prefixSetFromSockaddr (sess : UeAppSession) (addr : Option Sockaddr) :
    UeAppSession × Bool :=
  match addr with
  | some (.inet6 a) =>
      ({ sess with ipv6prefix := some (texts.ogsIpstrdup (.inet6 a) ++ "/128") }, true)
  | some (.inet _) | none => (sess, false)

/-- The app session as `pcf_session_create_app_session` hands it to the builder. -/
def appSessionFor (p : ℕ) (ueConnection : UeNetworkIdentifier) (args : CreateArgs) : UeAppSession :=
  let sess := pcfAppSessionNewFor p ueConnection args
  let sess := (pcfClientSessIpv4addrSetFromSockaddr texts sess sess.ueNetworkIdentifier.address).1
  (pcfClientSessIpv6prefixSetFromSockaddr texts sess sess.ueNetworkIdentifier.address).1

/-- The request data of `pcf_policyauthorization_request_create`. -/
def pcfPolicyauthorizationRequestCreate (sess : UeAppSession) (notifUrl : String)
    (mediaComponent : List M) (events : BitVec 32) : AppSessionContextReqData M :=
  { notifUri := notifUrl
    suppFeat := texts.ogsUint64ToString sess.policyauthorizationFeatures
    ueIpv4 := sess.ipv4addr
    ueIpv6 := sess.ipv6addr
    ueMac := none
    ipDomain := none
    dnn := sess.dnn
    evSubsc := { events := eventsSubscCreate events, notifUri := notifUrl }
    sliceInfo :=
      if sess.sNssai.sst ≠ 0 then
        some { sst := sess.sNssai.sst, sd := texts.ogsSNssaiSdToString sess.sNssai.sd }
      else none
    sponStatus := .sponsorDisabled
    supi := sess.supi
    gpsi := sess.gpsi
    resPrio := .prio 16
    medComponents := mediaComponent }

/-! ## What is to reach the PCF -/

/-- The text of an address of the one family. -/
def inetText (address : Option Sockaddr) : Option String :=
  match address with
  | some (.inet a) => some (texts.ogsIpstrdup (.inet a))
  | some (.inet6 _) | none => none

/-- The text of an address of the other family. -/
def inet6Text (address : Option Sockaddr) : Option String :=
  match address with
  | some (.inet6 a) => some (texts.ogsIpstrdup (.inet6 a))
  | some (.inet _) | none => none

/-- The UE is known by an IPv4 address or not by any, and by nothing else. -/
structure KnownByIpv4 (ue : UeNetworkIdentifier) : Prop where
  address : ∀ a, ue.address ≠ some (.inet6 a)
  supi : ue.supi = none
  gpsi : ue.gpsi = none
  dnn : ue.dnn = none
  ipDomain : ue.ipDomain = none

/-- The data is of the UE, with all that identifies it and nothing else. -/
structure CarriesIdentity (ue : UeNetworkIdentifier) (data : AppSessionContextReqData M) : Prop where
  ueIpv4 : data.ueIpv4 = inetText texts ue.address
  ueIpv6 : data.ueIpv6 = inet6Text texts ue.address
  supi : data.supi = ue.supi
  gpsi : data.gpsi = ue.gpsi
  dnn : data.dnn = ue.dnn
  ipDomain : data.ipDomain = ue.ipDomain

variable {texts} {p : ℕ} {ue : UeNetworkIdentifier} {args : CreateArgs}

/-- Of the members that the builder reads only the IPv4 address is ever set. -/
theorem appSessionFor_members : (appSessionFor texts p ue args).ipv4addr = inetText texts ue.address ∧
    (appSessionFor texts p ue args).ipv6addr = none ∧
    (appSessionFor texts p ue args).supi = none ∧ (appSessionFor texts p ue args).gpsi = none ∧
    (appSessionFor texts p ue args).dnn = none := by
  obtain ⟨address, supi, gpsi, dnn, ipDomain⟩ := ue
  cases address with
  | none => exact ⟨rfl, rfl, rfl, rfl, rfl⟩
  | some a => cases a <;> exact ⟨rfl, rfl, rfl, rfl, rfl⟩

theorem inet6Text_eq_none {address : Option Sockaddr} :
    inet6Text texts address = none ↔ ∀ a, address ≠ some (.inet6 a) := by
  cases address with
  | none => exact iff_of_true rfl nofun
  | some a =>
      cases a with
      | inet a => exact iff_of_true rfl nofun
      | inet6 a => exact iff_of_false nofun fun h => h a rfl

/-- The identity of a UE reaches the PCF exactly when there is nothing to it but an IPv4 address. -/
theorem identity_reaches_pcf_iff (texts : Texts) (p : ℕ) (ue : UeNetworkIdentifier)
    (args : CreateArgs) (notifUrl : String) (mediaComponent : List M) :
    CarriesIdentity texts ue (pcfPolicyauthorizationRequestCreate texts
      (appSessionFor texts p ue args) notifUrl mediaComponent args.events) ↔ KnownByIpv4 ue := by
  obtain ⟨hipv4, hipv6, hsupi, hgpsi, hdnn⟩ := @appSessionFor_members texts p ue args
  constructor
  · intro h
    have haddress : inet6Text texts ue.address = none := h.ueIpv6.symm.trans hipv6
    exact ⟨inet6Text_eq_none.1 haddress, h.supi.symm.trans hsupi, h.gpsi.symm.trans hgpsi,
      h.dnn.symm.trans hdnn, h.ipDomain.symm⟩
  · intro h
    have haddress : inet6Text texts ue.address = none := inet6Text_eq_none.2 h.address
    exact ⟨hipv4, hipv6.trans haddress.symm, hsupi.trans h.supi.symm, hgpsi.trans h.gpsi.symm,
      hdnn.trans h.dnn.symm, h.ipDomain.symm⟩

end

/-- Addresses of the first family as dotted numbers. -/
def plainTexts : Texts :=
  { ogsIpstrdup := fun address =>
      match address with
      | .inet a => toString (a.extractLsb' 24 8).toNat ++ "." ++ toString (a.extractLsb' 16 8).toNat ++
          "." ++ toString (a.extractLsb' 8 8).toNat ++ "." ++ toString (a.extractLsb' 0 8).toNat
      | .inet6 a => toString a.toNat
    ogsUint64ToString := fun n => toString n.toNat
    ogsSNssaiSdToString := fun sd => some (toString sd.toNat) }

def ueWithSupi : UeNetworkIdentifier :=
  { address := some (.inet 0x0A2D0002), supi := some "imsi-001010000000001" }

/-- The SUPI is copied with the identifier, but not to where the builder reads it. -/
theorem supi_does_not_reach_pcf :
    ¬ CarriesIdentity plainTexts ueWithSupi (pcfPolicyauthorizationRequestCreate plainTexts
      (appSessionFor plainTexts 0 ueWithSupi {}) "" ([] : List Unit) 0) := by
  intro h
  cases h.supi

end ServiceConsumers.UeIdentities
