import ServiceConsumers.CommandLines
import ServiceConsumers.EventLoops
import ServiceConsumers.FirstAnswers

set_option autoImplicit false

/-!
# `mbs-service-tool` (`app-sm.c`)

The tool creates one session with one subscription. It ends when the session is refused, and
runs on when it is accepted.
-/

namespace ServiceConsumers.MbsServiceTool

open ObjectStore PublicSessions ConsumerState SubscriptionOperations SessionOperations
  ResponseHandlers ProcessEvent TransitionRuns TransactionLog SessionEffects PushEffects
  AnswerEffects StepDecomposition SessionCopies SessionCallbacks CreateResponses TmgiCallbacks
  CommandLines EventLoops FirstAnswers

inductive AppState where
  | createSession
  | running
  | sessionFailed
  deriving DecidableEq, Repr

/-- `app_local_event_t`. -/
inductive LocalEvent where
  | mbsSessionCreate
  | mbsSessionCreateResult (session : Ref) (result : CallbackResult) (problem : Option ProblemDetails)
  deriving DecidableEq, Repr

/-- What the log says about the session. -/
inductive Report where
  | created (id : Option String)
  | tmgi (c : Tmgi)
  | tmgiRequestFailed
  | udpTunnel (address : TunnelAddress)
  | udpTunnelRequestFailed
  | creationFailed (problem : Option ProblemDetails)
  | unexpected (e : LocalEvent)
  deriving DecidableEq, Repr

structure ToolWorld where
  consumer : World := World.initial
  reports : List Report := []

/-- A result of `getaddrinfo`. -/
structure Address where
  family : AddressFamily
  value : ℕ
  deriving DecidableEq, Repr

/-- What the tool finds outside: the resolver, which may fail, and the time at which it creates
the session. -/
structure Environment where
  getaddrinfo : String → Option (List Address)
  now : ℤ

abbrev Tool := Loop AppState LocalEvent ToolWorld

abbrev ToolEvent := EventLoops.Event NetworkEvent

/-! ## Calls of the library -/

/-- `app_mbs_session_created_cb`, registered for all three results. -/
def appMbsSessionCreatedCb : ResultCallback := { function := 0, data := 0 }

/-- The callback sends an event. -/
def sentByCallback : Observation → Option LocalEvent
  | .sessionCallback _ s _ result problem => some (.mbsSessionCreateResult s result problem)
  | _ => none

/-- A call of the library, with the events that the callbacks send in it. -/
def callLibrary (call : World → Except Fault World) (m : Tool) : Except Fault Tool := do
  let w ← call m.world.consumer
  .ok (Loop.postAll { m with world := { m.world with consumer := w } }
    ((observedSince m.world.consumer.log w.log).filterMap sentByCallback))

/-- `find_family_pair`: the first address of the family on each side. -/
def findFamilyPair (family : AddressFamily) (src dst : List Address) : Option (ℕ × ℕ) :=
  match src.find? (fun a => a.family = family), dst.find? (fun a => a.family = family) with
  | some s, some d => some (s.value, d.value)
  | _, _ => none

/-- The call that makes the session; none when the SSM addresses have no family in common. -/
def sessionCall (getaddrinfo : String → Option (List Address)) :
    Option (String × String) → Option SessionCall
  | none => some (.newIpv4 none none)
  | some (source, dest) =>
      match getaddrinfo source, getaddrinfo dest with
      | some src, some dst =>
          match findFamilyPair .inet6 src dst with
          | some (s, d) => some (.newIpv6 (some s) (some d))
          | none => (findFamilyPair .inet src dst).map fun p => .newIpv4 (some p.1) (some p.2)
      | _, _ => none

/-- The fields that `app_mbs_session_create` writes into the session. -/
def requested (options : MbsServiceToolOptions) (p : PublicSession Ref) : PublicSession Ref :=
  { p with
    tmgiReq := options.reqTmgi
    tunnelReq := options.reqTunnel
    serviceType := if options.isMulticast then .multicast else .broadcast }

/-- The part of `app_mbs_session_create` behind the resolution of the addresses. -/
def createCalls (options : MbsServiceToolOptions) (call : SessionCall) (u : Ref) (w : World) :
    Except Fault World := do
  let s := w.next
  let w ← sessionStep w call
  let x ← w.sessionAt s
  let w ← sessionStep w (.edit s (requested options x.session))
  let w ← subscriptionStep w (.add s u)
  let w ← sessionStep w (.setCallback s (some appMbsSessionCreatedCb))
  sessionStep w (.pushChanges s)

/-- `app_mbs_session_create`. Addresses that cannot be resolved end the process. -/
def appMbsSessionCreate (env : Environment) (options : MbsServiceToolOptions) (m : Tool) :
    Except Fault Tool := do
  let u := m.world.consumer.next
  let m ← callLibrary
    (fun w => subscriptionStep w (.new 0 (BitVec.allOnes 32) none (env.now + 3600))) m
  match sessionCall env.getaddrinfo options.ssm with
  | none => .ok { m with exited := some 1 }
  | some call => callLibrary (createCalls options call u) m

/-! ## The states -/

def report (m : Tool) (rs : List Report) : Tool :=
  { m with world := { m.world with reports := m.world.reports ++ rs } }

/-- The lines about a TMGI that was requested. -/
def tmgiReports (w : World) (p : PublicSession Ref) : Except Fault (List Report) :=
  if p.tmgiReq then
    match p.tmgi with
    | none => .ok [.tmgiRequestFailed]
    | some t => do
        let y ← w.tmgiAt t
        .ok [.tmgi y.tmgi]
  else .ok []

def addressReports (addresses : List TunnelAddress) : List Report :=
  if addresses = [] then [.udpTunnelRequestFailed] else addresses.map .udpTunnel

/-- The lines about tunnels that were requested. -/
def tunnelReports (p : PublicSession Ref) : List Report :=
  if p.tunnelReq then addressReports p.mbUpfUdpTunnel else []

/-- The answer to `APP_LOCAL_EVENT_MBS_SESSION_CREATE_RESULT`. -/
def createResult (m : Tool) (s : Ref) (result : CallbackResult) (problem : Option ProblemDetails) :
    Except Fault Tool :=
  if result = .ogsOk then do
    let x ← m.world.consumer.sessionAt s
    let tmgis ← tmgiReports m.world.consumer x.session
    .ok ((report m (.created x.id :: tmgis ++ tunnelReports x.session)).goto .running)
  else .ok ((report m [.creationFailed problem]).goto .sessionFailed)

/-- `app_state_create_session`, `app_state_running` and `app_state_session_failed`. The last one
ends the process as it is entered. -/
def appState (env : Environment) (options : MbsServiceToolOptions) :
    Handler AppState LocalEvent NetworkEvent ToolWorld Fault
  | .createSession, .library e, m => callLibrary (fun w => networkStep w e) m
  | .createSession, .entry, m => .ok (m.post .mbsSessionCreate)
  | .createSession, .own .mbsSessionCreate, m => appMbsSessionCreate env options m
  | .createSession, .own (.mbsSessionCreateResult s result problem), m =>
      createResult m s result problem
  | .running, .library e, m => callLibrary (fun w => networkStep w e) m
  | .sessionFailed, .entry, m => .ok { m with exited := some 1 }
  | _, .own e, m => .ok (report m [.unexpected e])
  | _, _, m => .ok m

/-- `app_state_init` goes to `app_state_create_session`. -/
def init (env : Environment) (options : MbsServiceToolOptions) (takes : Bool) : Except Fault Tool :=
  appState env options .createSession .entry { state := .createSession, world := {}, takes := takes }

/-- A run from the start; the first flag says whether the queue takes the first event. -/
def run (env : Environment) (options : MbsServiceToolOptions) (takes : Bool) (es : List ToolEvent) :
    Except Fault Tool := do
  let m ← init env options takes
  es.foldlM (step (appState env options)) m

/-! ## The session and its requests -/

/-- The SSM that a call gives to its session. -/
def ssmOf : SessionCall → Option SsmAddr
  | .newIpv4 source dest => newSsm .inet source dest
  | .newIpv6 source dest => newSsm .inet6 source dest
  | _ => none

def toolSsm (env : Environment) (options : MbsServiceToolOptions) : Option SsmAddr :=
  (sessionCall env.getaddrinfo options.ssm).bind ssmOf

def toolPublic (env : Environment) (options : MbsServiceToolOptions) : PublicSession Ref :=
  requested options { ssm := toolSsm env options, tmgiReq := true }

def toolSession (env : Environment) (options : MbsServiceToolOptions) : MbsSession :=
  { session := toolPublic env options
    newSubscriptions := [1]
    activeSubscriptions := some []
    createResultCb := some appMbsSessionCreatedCb
    updateResultCb := some appMbsSessionCreatedCb
    deleteResultCb := some appMbsSessionCreatedCb
    sbiObject := some 3 }

def toolSubscription (env : Environment) : StatusSubscription :=
  { flags := BitVec.allOnes 32
    expiryTime := env.now + 3600
    session := some 2
    changed := true
    node := some { session := 2, list := .newSubscriptions } }

def toolCreate (env : Environment) (options : MbsServiceToolOptions) : Xact :=
  { id := 4
    sbiObject := 3
    requester := .session 2
    request := .create ((toolPublic env options).content none)
      (some (1, subscriptionBody (toolSubscription env))) }

def toolSubscribe (env : Environment) (k : ℕ) : Xact := subscribeXact k 2 1 3 (toolSubscription env)

section SessionCalls

variable {getaddrinfo : String → Option (List Address)} {given : Option (String × String)}
  {call : SessionCall}

/-- The call makes a session with its SSM, which has a family if it is there. -/
structure MakesSession (given : Option (String × String)) (call : SessionCall) : Prop where
  step : ∀ w, sessionStep w call = .ok (mbsSessionNew w (ssmOf call))
  known : ∀ a, ssmOf call = some a → AddressFamily.Known a.family
  ssm : (ssmOf call).isSome = given.isSome

theorem makesSession (h : sessionCall getaddrinfo given = some call) : MakesSession given call := by
  cases given with
  | none =>
      obtain rfl := Option.some.inj h
      refine ⟨fun w => rfl, fun a ha => ?_, rfl⟩
      cases ha
  | some pair =>
      obtain ⟨source, dest⟩ := pair
      rw [sessionCall] at h
      split at h
      · split at h
        · obtain rfl := Option.some.inj h
          refine ⟨fun w => rfl, fun a ha => ?_, rfl⟩
          obtain rfl := Option.some.inj ha
          trivial
        · obtain ⟨p, -, rfl⟩ := Option.map_eq_some_iff.1 h
          refine ⟨fun w => rfl, fun a ha => ?_, rfl⟩
          obtain rfl := Option.some.inj ha
          trivial
      · cases h

end SessionCalls

end ServiceConsumers.MbsServiceTool
