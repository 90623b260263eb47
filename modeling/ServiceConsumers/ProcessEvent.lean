import ServiceConsumers.ResponseHandlers

set_option autoImplicit false

/-!
# The event loop (`mb_smf_sc_process_event`)
-/

namespace ServiceConsumers.ProcessEvent

open ObjectStore ConsumerState TmgiOperations SubscriptionOperations SessionOperations
  ResponseHandlers TransitionRuns

/-- `_context_sbi_object_to_session`: the first session of the context with the object. -/
def contextSbiObjectToSession (w : World) (o : Ref) : Option Ref :=
  w.mbsSessions.find? fun s => (w.sessionStore s).any fun x => x.sbiObject = some o

/-- `_context_sbi_object_to_tmgi`: the first registered TMGI with the object. -/
def contextSbiObjectToTmgi (w : World) (o : Ref) : Option Ref :=
  w.tmgis.find? fun t => (w.tmgiStore t).any fun x => x.sbiObject = some o

inductive NetworkEvent where
  | discovery (xact : ℕ) (found : Bool)
  | response (xact : ℕ) (rsp : Response)
  | timeout (xact : ℕ)

/-! ## Responses -/

/-- The branch for the TMGI service. -/
def processTmgiResponse (w : World) (x : Xact) (tmgi : Option Ref) (rsp : Response) :
    Except Fault World :=
  if !rsp.parsed then
    match tmgi with
    | none => .error .nullTmgi
    | some t => tmgiDoCallback w x.id t .ogsError none
  else
    match x.request.method with
    | .post => nmbsmfTmgiAllocated w x rsp
    | .delete =>
        match tmgi with
        | none => .error .nullTmgi
        | some t => do
            let y ← w.tmgiAt t
            let w := w.refCountSbiObjectRef y.sbiObject
            nmbsmfTmgiDeallocated w x rsp
    | .patch => .ok w

/-- What the branch for the TMGI service holds on to until the transaction is removed. -/
def heldByTmgiResponse (w : World) (x : Xact) (tmgi : Option Ref) (rsp : Response) : Option Ref :=
  if rsp.parsed && x.request.method == .delete then
    (tmgi.bind w.tmgiStore).bind PrivTmgi.sbiObject
  else none

/-- The branch for the MBS session service. Of a response only the header is parsed, and the rest
of it for a create request alone. A session that is not found is only asserted for some of the
requests. -/
def processSessionResponse (w : World) (x : Xact) (session : Option Ref) (rsp : Response) :
    Except Fault World :=
  if !rsp.parsed then
    match session with
    | none => .ok w
    | some s => mbsSessionDoCallback w x.id s .create .ogsError rsp.problemDetails
  else
    match x.request.component1, x.request.component2, x.request.method with
    | none, _, .post =>
        match session with
        | none => if isSuccess rsp.status then .error .nullSession else .ok w
        | some s => handleCreateResponse w x.id s rsp
    | none, _, _ => .ok w
    | some component1, component2, method =>
        if component1 = "subscriptions" then
          match component2, method with
          | none, .post =>
              match session with
              | none => .ok w
              | some s => nmbsmfMbsSessionSubscriptionResponse w s (ogsSbiParseHeader rsp)
          | _, _ => .ok w
        else
          match component2, method with
          | none, .delete =>
              match session with
              | none => .error .nullSession
              | some s => do
                  let y ← w.sessionAt s
                  let w := w.refCountSbiObjectRef y.sbiObject
                  nmbsmfMbsSessionDeleteResponse w x.id s
          | none, .patch =>
              match session with
              | none => .ok w
              | some s => nmbsmfMbsSessionPatchResponse w x.id s (ogsSbiParseHeader rsp)
          | _, _ => .ok w

/-- What the branch for the MBS session service holds on to. -/
def heldBySessionResponse (w : World) (x : Xact) (session : Option Ref) (rsp : Response) :
    Option Ref :=
  if rsp.parsed && x.request.method == .delete && x.request.component1.isSome &&
      x.request.component1 != some "subscriptions" then
    (session.bind w.sessionStore).bind MbsSession.sbiObject
  else none

/-- The end of the event: the transaction is removed, then the held object is released. -/
def finishEvent (xact : ℕ) (held : Option Ref) (w : World) : World :=
  (w.removeXact xact).refCountSbiObjectUnref held

/-- A response of the MB-SMF. A transaction that has gone, or whose SBI object nobody holds
any more, is not handled. -/
def processResponse (w : World) (xact : ℕ) (rsp : Response) : Except Fault World :=
  match w.findSent xact with
  | none => .ok w
  | some sent =>
      let w := w.say (.answered sent rsp)
      match w.findXact xact with
      | none => .ok w
      | some x =>
          let session := contextSbiObjectToSession w x.sbiObject
          let tmgi := contextSbiObjectToTmgi w x.sbiObject
          if session = none ∧ tmgi = none then .ok w
          else do
            let w := w.say (.handled xact session tmgi)
            let held := if x.request.isTmgi then heldByTmgiResponse w x tmgi rsp
              else heldBySessionResponse w x session rsp
            let w ← (if x.request.isTmgi then processTmgiResponse w x tmgi rsp
              else processSessionResponse w x session rsp)
            .ok (finishEvent xact held w)

/-! ## Discovery and timeouts -/

/-- A discovery that finds no MB-SMF ends the transaction. -/
def processDiscovery (w : World) (xact : ℕ) (found : Bool) : World :=
  match w.findXact xact with
  | none => w
  | some x =>
      if contextSbiObjectToSession w x.sbiObject = none ∧
          contextSbiObjectToTmgi w x.sbiObject = none then w
      else if found then w
      else w.removeXact xact

/-- The timer arm acts on TMGI allocations and on session creations. -/
def reportTimeout (w : World) (x : Xact) (s : Ref) (tmgi : Option Ref) : Except Fault World :=
  match x.request with
  | .tmgiAllocate .. =>
      match tmgi with
      | none => .error .nullTmgi
      | some t => tmgiDoCallback w x.id t .ogsTimedOut none
  | .create .. => mbsSessionDoCallback w x.id s .create .ogsTimedOut none
  | _ => .ok w

/-- A timer event; without a session it is taken to be somebody else's. -/
def processTimeout (w : World) (xact : ℕ) : Except Fault World :=
  match w.findXact xact with
  | none => .ok w
  | some x =>
      let w := w.say (.timedOut x)
      match contextSbiObjectToSession w x.sbiObject with
      | none => .ok w
      | some s => do
          let tmgi := contextSbiObjectToTmgi w x.sbiObject
          let w := w.say (.handled xact (some s) tmgi)
          let w ← reportTimeout w x s tmgi
          .ok (w.removeXact xact)

/-! ## The machine -/

def networkStep (w : World) : NetworkEvent → Except Fault World
  | .discovery xact found => .ok (processDiscovery w xact found)
  | .response xact rsp => processResponse w xact rsp
  | .timeout xact => processTimeout w xact

/-- A call of the application or an event of the network. -/
inductive Event where
  | tmgi (call : TmgiCall)
  | subscription (call : SubscriptionCall)
  | session (call : SessionCall)
  | network (event : NetworkEvent)

def step (w : World) : Event → Except Fault World
  | .tmgi call => tmgiStep w call
  | .subscription call => subscriptionStep w call
  | .session call => sessionStep w call
  | .network event => networkStep w event

/-- The runs of the library that keep to a condition. -/
abbrev Run (good : World → Event → Prop) : World → Prop := Reach step good World.initial

end ServiceConsumers.ProcessEvent
