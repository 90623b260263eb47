import ServiceConsumers.ProcessEvent
import ServiceConsumers.Routines

set_option autoImplicit false

/-!
# Event handlers that wait in the callbacks of the application

The handlers of responses and timeouts once more, as routines: where the library calls the
application back, the application may call any public operation before it returns. The event
loop itself is not entered again in a callback.
-/

namespace ServiceConsumers.CallbackHandlers

open ObjectStore PublicSessions ConsumerState TmgiOperations SessionOperations TransitionRuns
  Routines

abbrev EventRoutine := Routine World Fault

/-! ## Callbacks -/

/-- The application has the state while the callback runs. -/
def callBack (w : World) : EventRoutine := .calling w fun v => .ended (.ok v)

def tmgiDoCallback (w : World) (xact : ℕ) (t : Ref) (result : CallbackResult)
    (problem : Option ProblemDetails) : EventRoutine :=
  .after (w.tmgiAt t) fun x =>
    match x.callback with
    | none => .ended (.ok w)
    | some cb => callBack (w.say (.tmgiCallback xact t cb result problem))

def mbsSessionDoCallback (w : World) (xact : ℕ) (s : Ref) (kind : CallbackKind)
    (result : CallbackResult) (problem : Option ProblemDetails) : EventRoutine :=
  .after (w.sessionAt s) fun x =>
    match callbackOf x kind with
    | none => .ended (.ok w)
    | some cb => callBack (w.say (.sessionCallback xact s cb result problem))

/-! ## Answers to TMGI requests -/

def takeAllocated (xact : ℕ) (expiryTime : ℤ) (w : World) (api : ApiTmgi) : EventRoutine :=
  match tmgiFindMatchingOpenapiType w api with
  | none => .ended (.ok w)
  | some t =>
      let w := w.modifyTmgi t (tmgiSetMbsServiceId api.mbsServiceId)
      let w := w.modifyTmgi t (tmgiSetPlmn api.mccNumber api.mncNumber)
      let w := w.modifyTmgi t (tmgiSetExpiryTime expiryTime)
      tmgiDoCallback w xact t .ogsOk none

def reportRefused (xact : ℕ) (problem : Option ProblemDetails) (w : World) (c : Tmgi) :
    EventRoutine :=
  match tmgiFindMatchingOpenapiType w (tmgiToOpenapiType c) with
  | none => .ended (.ok w)
  | some t => tmgiDoCallback w xact t .ogsError problem

def nmbsmfTmgiAllocated (w : World) (x : Xact) (rsp : Response) : EventRoutine :=
  if isSuccess rsp.resStatus then
    match rsp.tmgiAllocated with
    | none => .ended (.ok w)
    | some answer =>
        .loop (takeAllocated x.id answer.expiryTime)
          ((answer.tmgiList.takeWhile Option.isSome).filterMap id) w
  else .loop (reportRefused x.id rsp.problemDetails) (ResponseHandlers.requestTmgis x.request) w

/-- The TMGI leaves the registry after its callback has returned. -/
def doTmgiRemove (xact : ℕ) (rsp : Response) (w : World) (c : Tmgi) : EventRoutine :=
  match tmgiFindMatchingOpenapiType w (tmgiToOpenapiType c) with
  | none => .ended (.ok w)
  | some t =>
      Routine.andThen
        (if isSuccess rsp.resStatus then tmgiDoCallback w xact t .ogsDone none
          else tmgiDoCallback w xact t .ogsError rsp.problemDetails)
        fun w => .ended (contextRemoveTmgi w t)

def nmbsmfTmgiDeallocated (w : World) (x : Xact) (rsp : Response) : EventRoutine :=
  .loop (doTmgiRemove x.id rsp) (ResponseHandlers.requestTmgis x.request) w

def processTmgiResponse (w : World) (x : Xact) (tmgi : Option Ref) (rsp : Response) :
    EventRoutine :=
  if !rsp.parsed then
    match tmgi with
    | none => .ended (.error .nullTmgi)
    | some t => tmgiDoCallback w x.id t .ogsError none
  else
    match x.request.method with
    | .post => nmbsmfTmgiAllocated w x rsp
    | .delete =>
        match tmgi with
        | none => .ended (.error .nullTmgi)
        | some t =>
            .after (w.tmgiAt t) fun y =>
              nmbsmfTmgiDeallocated (w.refCountSbiObjectRef y.sbiObject) x rsp
    | .patch => .ended (.ok w)

/-! ## Answers to session requests -/

/-- Pending changes are pushed after the callback has returned. -/
def handleCreateResponse (w : World) (xact : ℕ) (s : Ref) (rsp : Response) : EventRoutine :=
  if isSuccess rsp.status then
    .after (ResponseHandlers.nmbsmfMbsSessionParse w s rsp) fun (w, understood) =>
      if understood then
        (mbsSessionDoCallback w xact s .create .ogsOk none).andThen fun w =>
          .ended (mbsSessionPushChanges w s)
      else mbsSessionDoCallback w xact s .create .ogsError none
  else mbsSessionDoCallback w xact s .create .ogsError rsp.problemDetails

def nmbsmfMbsSessionDeleteResponse (w : World) (xact : ℕ) (s : Ref) : EventRoutine :=
  (mbsSessionDoCallback w xact s .delete .ogsDone none).andThen fun w =>
    .ended (contextRemoveMbsSession w s)

def nmbsmfMbsSessionPatchResponse (w : World) (xact : ℕ) (s : Ref) (rsp : Response) :
    EventRoutine :=
  .after (ResponseHandlers.keepOrRevert w s rsp.resStatus) fun w =>
    mbsSessionDoCallback w xact s .update .ogsOk none

def processSessionResponse (w : World) (x : Xact) (session : Option Ref) (rsp : Response) :
    EventRoutine :=
  if !rsp.parsed then
    match session with
    | none => .ended (.ok w)
    | some s => mbsSessionDoCallback w x.id s .create .ogsError rsp.problemDetails
  else
    match x.request.component1, x.request.component2, x.request.method with
    | none, _, .post =>
        match session with
        | none => if isSuccess rsp.status then .ended (.error .nullSession) else .ended (.ok w)
        | some s => handleCreateResponse w x.id s rsp
    | none, _, _ => .ended (.ok w)
    | some component1, component2, method =>
        if component1 = "subscriptions" then
          match component2, method with
          | none, .post =>
              match session with
              | none => .ended (.ok w)
              | some s =>
                  .ended (ResponseHandlers.nmbsmfMbsSessionSubscriptionResponse w s
                    (ogsSbiParseHeader rsp))
          | _, _ => .ended (.ok w)
        else
          match component2, method with
          | none, .delete =>
              match session with
              | none => .ended (.error .nullSession)
              | some s =>
                  .after (w.sessionAt s) fun y =>
                    nmbsmfMbsSessionDeleteResponse (w.refCountSbiObjectRef y.sbiObject) x.id s
          | none, .patch =>
              match session with
              | none => .ended (.ok w)
              | some s => nmbsmfMbsSessionPatchResponse w x.id s (ogsSbiParseHeader rsp)
          | _, _ => .ended (.ok w)

def reportTimeout (w : World) (x : Xact) (s : Ref) (tmgi : Option Ref) : EventRoutine :=
  match x.request with
  | .tmgiAllocate .. =>
      match tmgi with
      | none => .ended (.error .nullTmgi)
      | some t => tmgiDoCallback w x.id t .ogsTimedOut none
  | .create .. => mbsSessionDoCallback w x.id s .create .ogsTimedOut none
  | _ => .ended (.ok w)

/-! ## With an application that makes no calls -/

section Silent

variable (w : World)

theorem run_tmgiDoCallback (xact : ℕ) (t : Ref) (result : CallbackResult)
    (problem : Option ProblemDetails) :
    (tmgiDoCallback w xact t result problem).run =
      ResponseHandlers.tmgiDoCallback w xact t result problem := by
  unfold tmgiDoCallback ResponseHandlers.tmgiDoCallback
  rw [Routine.run_after]
  refine congrArg (w.tmgiAt t >>= ·) (funext fun x => ?_)
  cases x.callback <;> rfl

theorem run_mbsSessionDoCallback (xact : ℕ) (s : Ref) (kind : CallbackKind)
    (result : CallbackResult) (problem : Option ProblemDetails) :
    (mbsSessionDoCallback w xact s kind result problem).run =
      SessionOperations.mbsSessionDoCallback w xact s kind result problem := by
  unfold mbsSessionDoCallback SessionOperations.mbsSessionDoCallback
  rw [Routine.run_after]
  refine congrArg (w.sessionAt s >>= ·) (funext fun x => ?_)
  cases callbackOf x kind <;> rfl

theorem run_takeAllocated (xact : ℕ) (expiryTime : ℤ) (api : ApiTmgi) :
    (takeAllocated xact expiryTime w api).run =
      ResponseHandlers.takeAllocated xact expiryTime w api := by
  unfold takeAllocated ResponseHandlers.takeAllocated
  cases tmgiFindMatchingOpenapiType w api with
  | none => rfl
  | some t => exact run_tmgiDoCallback _ _ _ _ _

theorem run_reportRefused (xact : ℕ) (problem : Option ProblemDetails) (c : Tmgi) :
    (reportRefused xact problem w c).run = ResponseHandlers.reportRefused xact problem w c := by
  unfold reportRefused ResponseHandlers.reportRefused
  cases tmgiFindMatchingOpenapiType w (tmgiToOpenapiType c) with
  | none => rfl
  | some t => exact run_tmgiDoCallback _ _ _ _ _

theorem run_doTmgiRemove (xact : ℕ) (rsp : Response) (c : Tmgi) :
    (doTmgiRemove xact rsp w c).run = ResponseHandlers.doTmgiRemove xact rsp w c := by
  unfold doTmgiRemove ResponseHandlers.doTmgiRemove
  cases tmgiFindMatchingOpenapiType w (tmgiToOpenapiType c) with
  | none => rfl
  | some t =>
      dsimp only
      rw [Routine.run_andThen]
      split
      · rw [run_tmgiDoCallback]
        rfl
      · rw [run_tmgiDoCallback]
        rfl

theorem run_nmbsmfTmgiAllocated (x : Xact) (rsp : Response) :
    (nmbsmfTmgiAllocated w x rsp).run = ResponseHandlers.nmbsmfTmgiAllocated w x rsp := by
  unfold nmbsmfTmgiAllocated ResponseHandlers.nmbsmfTmgiAllocated
  split
  · cases rsp.tmgiAllocated with
    | none => rfl
    | some answer =>
        dsimp only
        rw [Routine.run_loop]
        exact congrArg (fun f => List.foldlM f w _)
          (funext fun v => funext fun api => run_takeAllocated v _ _ api)
  · rw [Routine.run_loop]
    exact congrArg (fun f => List.foldlM f w _)
      (funext fun v => funext fun c => run_reportRefused v _ _ c)

theorem run_nmbsmfTmgiDeallocated (x : Xact) (rsp : Response) :
    (nmbsmfTmgiDeallocated w x rsp).run = ResponseHandlers.nmbsmfTmgiDeallocated w x rsp := by
  unfold nmbsmfTmgiDeallocated ResponseHandlers.nmbsmfTmgiDeallocated
  rw [Routine.run_loop]
  exact congrArg (fun f => List.foldlM f w _)
    (funext fun v => funext fun c => run_doTmgiRemove v _ _ c)

theorem run_processTmgiResponse (x : Xact) (tmgi : Option Ref) (rsp : Response) :
    (processTmgiResponse w x tmgi rsp).run = ProcessEvent.processTmgiResponse w x tmgi rsp := by
  unfold processTmgiResponse ProcessEvent.processTmgiResponse
  split
  · cases tmgi with
    | none => rfl
    | some t => exact run_tmgiDoCallback _ _ _ _ _
  · cases x.request.method with
    | post => exact run_nmbsmfTmgiAllocated w x rsp
    | patch => rfl
    | delete =>
        cases tmgi with
        | none => rfl
        | some t =>
            dsimp only
            rw [Routine.run_after]
            exact congrArg (w.tmgiAt t >>= ·) (funext fun y => run_nmbsmfTmgiDeallocated _ x rsp)

theorem run_handleCreateResponse (xact : ℕ) (s : Ref) (rsp : Response) :
    (handleCreateResponse w xact s rsp).run =
      ResponseHandlers.handleCreateResponse w xact s rsp := by
  unfold handleCreateResponse ResponseHandlers.handleCreateResponse
  split
  · rw [Routine.run_after]
    refine congrArg (_ >>= ·) (funext fun ⟨v, understood⟩ => ?_)
    dsimp only
    split
    · rw [Routine.run_andThen, run_mbsSessionDoCallback]
      rfl
    · exact run_mbsSessionDoCallback _ _ _ _ _ _
  · exact run_mbsSessionDoCallback _ _ _ _ _ _

theorem run_nmbsmfMbsSessionDeleteResponse (xact : ℕ) (s : Ref) :
    (nmbsmfMbsSessionDeleteResponse w xact s).run =
      ResponseHandlers.nmbsmfMbsSessionDeleteResponse w xact s := by
  unfold nmbsmfMbsSessionDeleteResponse ResponseHandlers.nmbsmfMbsSessionDeleteResponse
  rw [Routine.run_andThen, run_mbsSessionDoCallback]
  rfl

theorem run_nmbsmfMbsSessionPatchResponse (xact : ℕ) (s : Ref) (rsp : Response) :
    (nmbsmfMbsSessionPatchResponse w xact s rsp).run =
      ResponseHandlers.nmbsmfMbsSessionPatchResponse w xact s rsp := by
  unfold nmbsmfMbsSessionPatchResponse ResponseHandlers.nmbsmfMbsSessionPatchResponse
  rw [Routine.run_after]
  exact congrArg (_ >>= ·) (funext fun v => run_mbsSessionDoCallback v _ _ _ _ _)

theorem run_processSessionResponse (x : Xact) (session : Option Ref) (rsp : Response) :
    (processSessionResponse w x session rsp).run =
      ProcessEvent.processSessionResponse w x session rsp := by
  unfold processSessionResponse ProcessEvent.processSessionResponse
  split
  · cases session with
    | none => rfl
    | some s => exact run_mbsSessionDoCallback _ _ _ _ _ _
  · generalize x.request.component1 = component1
    generalize x.request.component2 = component2
    generalize x.request.method = method
    cases component1 with
    | none =>
        cases method with
        | post =>
            cases session with
            | none =>
                dsimp only
                split <;> rfl
            | some s => exact run_handleCreateResponse w _ s rsp
        | patch => rfl
        | delete => rfl
    | some component1 =>
        dsimp only
        split
        · cases component2 <;> cases method <;> cases session <;> rfl
        · cases component2 with
          | some component2 => rfl
          | none =>
              cases method with
              | post => rfl
              | patch =>
                  cases session with
                  | none => rfl
                  | some s => exact run_nmbsmfMbsSessionPatchResponse w _ s _
              | delete =>
                  cases session with
                  | none => rfl
                  | some s =>
                      dsimp only
                      rw [Routine.run_after]
                      exact congrArg (w.sessionAt s >>= ·)
                        (funext fun y => run_nmbsmfMbsSessionDeleteResponse _ _ s)

theorem run_reportTimeout (x : Xact) (s : Ref) (tmgi : Option Ref) :
    (reportTimeout w x s tmgi).run = ProcessEvent.reportTimeout w x s tmgi := by
  unfold reportTimeout ProcessEvent.reportTimeout
  generalize x.request = request
  cases request with
  | tmgiAllocate newTmgis refresh =>
      cases tmgi with
      | none => rfl
      | some t => exact run_tmgiDoCallback _ _ _ _ _
  | create carried embedded => exact run_mbsSessionDoCallback _ _ _ _ _ _
  | _ => rfl

end Silent

/-! ## The machine -/

/-- A handler that waits in a callback: the transaction of its event, the SBI object it holds
on to, and what is left to do. -/
structure Handler where
  xact : Xact
  held : Option Ref
  rest : World → EventRoutine

structure Process where
  world : World
  handler : Option Handler

/-- `ogs_sbi_xact_remove` at the end of an event, then the held object is released. A
transaction goes earlier only with its SBI object. -/
def endEvent (x : Xact) (held : Option Ref) (w : World) : Except Fault World :=
  match w.findXact x.id with
  | none => .error .danglingSbiObject
  | some _ => .ok (ProcessEvent.finishEvent x.id held w)

/-- A routine ends its event or waits in a callback. -/
def settle (x : Xact) (held : Option Ref) : EventRoutine → Except Fault Process
  | .ended outcome => do
      let w ← outcome
      let w ← endEvent x held w
      .ok { world := w, handler := none }
  | .calling w rest => .ok { world := w, handler := some { xact := x, held := held, rest := rest } }

def idle (w : World) : Process := { world := w, handler := none }

def startResponse (w : World) (xact : ℕ) (rsp : Response) : Except Fault Process :=
  match w.findSent xact with
  | none => .ok (idle w)
  | some sent =>
      let w := w.say (.answered sent rsp)
      match w.findXact xact with
      | none => .ok (idle w)
      | some x =>
          let session := ProcessEvent.contextSbiObjectToSession w x.sbiObject
          let tmgi := ProcessEvent.contextSbiObjectToTmgi w x.sbiObject
          if session = none ∧ tmgi = none then .ok (idle w)
          else
            let w := w.say (.handled xact session tmgi)
            let held := if x.request.isTmgi then ProcessEvent.heldByTmgiResponse w x tmgi rsp
              else ProcessEvent.heldBySessionResponse w x session rsp
            settle x held
              (if x.request.isTmgi then processTmgiResponse w x tmgi rsp
                else processSessionResponse w x session rsp)

def startTimeout (w : World) (xact : ℕ) : Except Fault Process :=
  match w.findXact xact with
  | none => .ok (idle w)
  | some x =>
      let w := w.say (.timedOut x)
      match ProcessEvent.contextSbiObjectToSession w x.sbiObject with
      | none => .ok (idle w)
      | some s =>
          let tmgi := ProcessEvent.contextSbiObjectToTmgi w x.sbiObject
          let w := w.say (.handled xact (some s) tmgi)
          settle x none (reportTimeout w x s tmgi)

def startEvent (w : World) : ProcessEvent.NetworkEvent → Except Fault Process
  | .discovery xact found => .ok (idle (ProcessEvent.processDiscovery w xact found))
  | .response xact rsp => startResponse w xact rsp
  | .timeout xact => startTimeout w xact

/-- The public operations. -/
inductive PublicCall where
  | tmgi (call : TmgiCall)
  | subscription (call : SubscriptionOperations.SubscriptionCall)
  | session (call : SessionCall)

def PublicCall.event : PublicCall → ProcessEvent.Event
  | .tmgi call => .tmgi call
  | .subscription call => .subscription call
  | .session call => .session call

inductive Input where
  | call (c : PublicCall)
  | event (e : ProcessEvent.NetworkEvent)
  | callbackReturns

/-- The application calls at any time, in its callbacks and outside. While a handler waits,
the event loop takes no event. -/
def step (p : Process) : Input → Except Fault Process
  | .call c => do
      let w ← ProcessEvent.step p.world c.event
      .ok { p with world := w }
  | .event e =>
      match p.handler with
      | none => startEvent p.world e
      | some _ => .ok p
  | .callbackReturns =>
      match p.handler with
      | none => .ok p
      | some h => settle h.xact h.held (h.rest p.world)

end ServiceConsumers.CallbackHandlers
