import ServiceConsumers.BsfSessions
import ServiceConsumers.CommandLines
import ServiceConsumers.EventLoops
import ServiceConsumers.EventMasks
import ServiceConsumers.PcfHandlers
import ServiceConsumers.PcfNotifications

set_option autoImplicit false

/-!
# `pcf-policyauthorization` (`app-sm.c` and `init.c`)

The tool asks the BSF for the PCF of a UE, unless it is given one, and then asks the PCF for an
app session. Its runs go on until it is terminated from outside.
-/

namespace ServiceConsumers.PolicyAuthTool

open PublicSessions EndpointTexts CommandLines EventLoops

inductive AppState where
  | discoverPcf
  | createAppSession
  | running
  deriving DecidableEq, Repr

inductive LocalEvent where
  | discoveredPcf
  | pcfDiscoveryFailed
  | appSessionCreated
  | appSessionDestroyed
  deriving DecidableEq, Repr

/-! ## What the tool keeps -/

/-- `OpenAPI_ip_end_point_t`, as far as it is read. -/
structure IpEndPoint where
  ipv4Address : Option String := none
  ipv6Address : Option String := none
  port : Option ℤ := none
  deriving DecidableEq, Repr

/-- `OpenAPI_pcf_binding_t`, as far as it is read, with a list of end points. -/
structure PcfBinding where
  pcfIpEndPoints : List IpEndPoint
  deriving DecidableEq, Repr

structure PcfDiscovery where
  address : Option String := none
  port : ℤ := 0
  running : Bool := false
  deriving DecidableEq, Repr

/-- The members of `OpenAPI_media_sub_component_t` that depend on the command line. -/
structure MediaSubComponent where
  fDescs : List String
  marBwDl : Option String
  marBwUl : Option String
  deriving DecidableEq, Repr

/-- The members of `OpenAPI_media_component_t` that depend on the command line. -/
structure MediaComponent where
  marBwDl : Option String
  marBwUl : Option String
  medSubComps : Option MediaSubComponent
  medType : Option MediaType
  mirBwDl : Option String
  mirBwUl : Option String
  deriving DecidableEq, Repr

/-- What an app session is requested with. -/
structure AppSessionRequest where
  pcfAddress : String
  pcfPort : BitVec 16
  ueAddress : String
  mediaComponent : MediaComponent
  deriving DecidableEq, Repr

/-- The application with the two libraries. `cached` and `sends` are what the cache of the BSF
client would find and whether a request would be sent, if it were asked now. -/
structure ToolWorld where
  bsf : BsfSessions.Context PcfBinding := {}
  pcf : PcfSessions.Context := {}
  discovery : PcfDiscovery := {}
  pcfSession : Option ℕ := none
  appSession : Option ℕ := none
  requests : List AppSessionRequest := []
  notifications : List PcfNotifications.NotificationAnswer := []
  cached : Option PcfBinding := none
  sends : Bool := true

/-- A name that is not resolved is asserted against, and a callback may wait for the mutex that
its own caller holds. -/
inductive Failure where
  | bsf (fault : BsfSessions.Fault)
  | pcf (fault : PcfSessions.Fault)
  | assertion
  | deadlock
  deriving DecidableEq, Repr

abbrev Tool := Loop AppState LocalEvent ToolWorld

def onBsf {α : Type} : Except BsfSessions.Fault α → Except Failure α
  | .ok a => .ok a
  | .error fault => .error (.bsf fault)

def onPcf {α : Type} : Except PcfSessions.Fault α → Except Failure α
  | .ok a => .ok a
  | .error fault => .error (.pcf fault)

/-- What the host answers: the family of the address that a name resolves to, the number that
`atof` reads and what `"%0.3f"` prints. -/
structure Host where
  family : String → Option AddressFamily
  atof : String → Float
  printFixed : Float → String

def modifyWorld (m : Tool) (f : ToolWorld → ToolWorld) : Tool := { m with world := f m.world }

/-! ## Callbacks -/

/-- `_bsf_retrieve_callback`. The address of the first end point is taken, if there is one. -/
def bsfRetrieveCallback (binding : Option PcfBinding) (m : Tool) : Tool :=
  match binding.bind fun b => b.pcfIpEndPoints.head? with
  | some endPoint =>
      (modifyWorld m fun w => { w with
        discovery :=
          { address := endPoint.ipv4Address <|> endPoint.ipv6Address
            port := endPoint.port.getD 0
            running := false } }).post .discoveredPcf
  | none => (modifyWorld m fun w => { w with discovery := {} }).post .pcfDiscoveryFailed

/-- `_app_session_change_callback`. -/
def appSessionChangeCallback (appSession : Option ℕ) (m : Tool) : Tool :=
  (modifyWorld m fun w => { w with appSession := appSession }).post
    (match appSession with
      | none => .appSessionDestroyed
      | some _ => .appSessionCreated)

/-! ## Discovery -/

section Application

variable (host : Host) (options : PolicyAuthOptions)

/-- `_start_bsf_discovery`. The mutex is held until the call returns. -/
def startBsfDiscovery (ueAddress : String) (m : Tool) : Except Failure Tool :=
  if m.world.discovery.running then .ok m
  else
    let m := modifyWorld m fun w => { w with discovery := { w.discovery with running := true } }
    match host.family ueAddress with
    | none => .error .assertion
    | some f =>
        match m.world.cached with
        | some _ => .error .deadlock
        | none => do
            let bsf ← onBsf (BsfSessions.retrieve m.world.bsf
              { family := f, callback := 0, queued := m.takes })
            .ok (modifyWorld m fun w => { w with bsf := bsf })

/-- `pcf_policyauth_get_pcf_address`. -/
def getPcfAddress (m : Tool) : Except Failure (Tool × Option String) :=
  match options.pcfAddress with
  | some address => .ok (m, some address)
  | none =>
      match m.world.discovery.address with
      | some address => .ok (m, some address)
      | none => do
          let m ← startBsfDiscovery host (options.ueAddress.getD "") m
          .ok (m, none)

/-- `pcf_policyauth_get_pcf_port`, for an address that is known. -/
def getPcfPort (m : Tool) : BitVec 16 :=
  if options.pcfAddress.isSome then options.pcfPort else BitVec.ofInt 16 m.world.discovery.port

/-! ## The app session -/

/-- `_protocol_to_string`. -/
def protocolToString : IpProto → String
  | .ip => "ip"
  | .tcp => "tcp"
  | .udp => "udp"
  | .icmp => "icmp"
  | .sctp => "sctp"

/-- `_port_clause`. -/
def portClause (port : BitVec 16) : String :=
  if port = 0 then "" else " " ++ toString port.toNat

/-- The two flows between the UE and the other side, if anything is said about them. -/
def flowDescriptions : Option (List String) :=
  if options.uePort ≠ 0 ∨ options.protocol ≠ .ip ∨ options.remoteAddress.isSome ∨
      options.remotePort ≠ 0 then
    let protocol := protocolToString options.protocol
    let ue := options.ueAddress.getD "" ++ portClause options.uePort
    let remote := options.remoteAddress.getD "any" ++ portClause options.remotePort
    some ["permit in " ++ protocol ++ " from " ++ ue ++ " to " ++ remote,
      "permit out " ++ protocol ++ " from " ++ remote ++ " to " ++ ue]
  else none

/-- `_bw_string`. -/
def bwString (bitrate : Float) : Option String :=
  if bitrate ≤ 0 then none
  else if bitrate ≥ 1000000000 then some (host.printFixed (bitrate / 1000000000) ++ " Gbps")
  else if bitrate ≥ 1000000 then some (host.printFixed (bitrate / 1000000) ++ " Mbps")
  else if bitrate ≥ 1000 then some (host.printFixed (bitrate / 1000) ++ " Kbps")
  else some (host.printFixed (bitrate / 1) ++ " bps")

/-- The text for a bit rate option; one that was not given is 0, for which there is none. -/
def bitRateText (value : Option String) : Option String :=
  value.bind fun text => bwString host (host.atof text)

def mediaComponent : MediaComponent :=
  { marBwDl := bitRateText host options.maxDlBitRate
    marBwUl := bitRateText host options.maxUlBitRate
    medSubComps := (flowDescriptions options).map fun flowDescs =>
      { fDescs := flowDescs
        marBwDl := bitRateText host options.maxDlBitRate
        marBwUl := bitRateText host options.maxUlBitRate }
    medType := options.mediaType
    mirBwDl := bitRateText host options.minDlBitRate
    mirBwUl := bitRateText host options.minUlBitRate }

/-- The callbacks of an app session are numbered 0 and 1. -/
def createArgs : PcfSessions.CreateArgs :=
  { events := EventMasks.eventTypeAll, notifyCallback := some 0, changeCallback := some 1 }

/-- The PCF session of the tool, which is made when it is first needed. -/
def withPcfSession (pcfAddress : String) (m : Tool) : Except Failure (Tool × ℕ) :=
  match m.world.pcfSession with
  | some p => .ok (m, p)
  | none =>
      match host.family pcfAddress with
      | none => .error .assertion
      | some _ => .ok (modifyWorld m fun w => { w with
          pcf := PcfSessions.pcfSessionNew w.pcf
          pcfSession := some w.pcf.next }, m.world.pcf.next)

/-- `pcf_policyauth_get_app_session_context`. -/
def getAppSessionContext (m : Tool) : Except Failure Tool := do
  let (m, address) ← getPcfAddress host options m
  match address with
  | none => .ok m
  | some pcfAddress => do
      let (m, p) ← withPcfSession host pcfAddress m
      match host.family (options.ueAddress.getD "") with
      | none => .error .assertion
      | some _ => do
          let pcf ← onPcf (PcfSessions.pcfSessionCreateAppSession m.world.pcf p createArgs m.world.sends)
          .ok (modifyWorld m fun w => { w with
            pcf := pcf
            requests := if w.sends then w.requests ++ [
              { pcfAddress := pcfAddress
                pcfPort := getPcfPort options m
                ueAddress := options.ueAddress.getD ""
                mediaComponent := mediaComponent host options }] else w.requests })

/-! ## Events for the libraries -/

/-- The tool retrieves nothing in the callback of the BSF client. -/
inductive BsfEvent where
  | localEvent (s : ℕ) (discovery : BsfSessions.Discovery)
  | response (n : ℕ) (rsp : BsfSessions.SbiResponse PcfBinding)
  | clientWait (n : ℕ)

def BsfEvent.event : BsfEvent → BsfSessions.Event PcfBinding
  | .localEvent s discovery => .localEvent s discovery
  | .response n rsp => .response n rsp []
  | .clientWait n => .clientWait n []

/-- The only request that the tool sends to the PCF is a creation. -/
inductive LibraryEvent where
  | bsf (e : BsfEvent)
  | created (s : ℕ) (c : PcfHandlers.Completion)
  | notified (r : PcfNotifications.NotificationRequest)
  | environment (cached : Option PcfBinding) (sends : Bool)

/-- The tool is called back. -/
def bsfCallback (m : Tool) : BsfSessions.Observation PcfBinding → Tool
  | .cacheCallback _ binding => bsfRetrieveCallback (some binding) m
  | .retrieveCallback _ _ binding => bsfRetrieveCallback binding m

def pcfCallback (m : Tool) : PcfSessions.Observation → Tool
  | .created .. => m
  | .change _ _ appSession => appSessionChangeCallback appSession m

/-- `bsf_process_event` and `pcf_session_process_event`. -/
def processEvent (m : Tool) : LibraryEvent → Except Failure Tool
  | .bsf e => do
      let bsf ← onBsf (BsfSessions.step m.world.bsf e.event)
      .ok ((observedSince m.world.bsf.log bsf.log).foldl bsfCallback
        (modifyWorld m fun w => { w with bsf := bsf }))
  | .created s c => do
      let pcf ← onPcf (PcfHandlers.step m.world.pcf (.created s c))
      .ok ((observedSince m.world.pcf.log pcf.log).foldl pcfCallback
        (modifyWorld m fun w => { w with pcf := pcf }))
  | .notified r => .ok (modifyWorld m fun w => { w with
      notifications := w.notifications ++ [PcfNotifications.processServerEvent w.pcf r] })
  | .environment cached sends => .ok (modifyWorld m fun w => { w with
      cached := cached
      sends := sends })

/-! ## The states -/

/-- `kill(getpid(), SIGTERM)`, after which `main` returns 0. -/
def terminate (m : Tool) : Tool := { m with exited := some 0 }

/-- `app_state_discover_pcf`, `app_state_create_app_session` and `app_state_running`. What is
unexpected is only logged. -/
def appState : Handler AppState LocalEvent LibraryEvent ToolWorld Failure
  | _, .library e, m => processEvent m e
  | .discoverPcf, .own .discoveredPcf, m => .ok (m.goto .createAppSession)
  | .discoverPcf, .own .pcfDiscoveryFailed, m => .ok (terminate m)
  | .createAppSession, .entry, m => getAppSessionContext host options m
  | .createAppSession, .own .appSessionCreated, m => .ok (m.goto .running)
  | .createAppSession, .own .appSessionDestroyed, m => .ok (terminate m)
  | .running, .own .appSessionDestroyed, m => .ok (terminate m)
  | _, _, m => .ok m

/-- `app_state_init` and the entry of the state that it goes to. -/
def init (takes sends : Bool) : Except Failure Tool := do
  let (m, address) ← getPcfAddress host options
    { state := .discoverPcf, world := { sends := sends }, takes := takes }
  let q := if address.isSome then AppState.createAppSession else .discoverPcf
  appState host options q .entry (m.goto q)

def run (takes sends : Bool) (es : List (EventLoops.Event LibraryEvent)) : Except Failure Tool := do
  let m ← init host options takes sends
  es.foldlM (step (appState host options)) m

end Application

end ServiceConsumers.PolicyAuthTool
