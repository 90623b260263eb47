import ServiceConsumers.SessionOperations

set_option autoImplicit false

/-!
# Handlers of responses (`nmbsmf-mbs-session-handle.c`, `nmbsmf-tmgi-handle.c`)
-/

namespace ServiceConsumers.ResponseHandlers

open ObjectStore KeyedTable PublicSessions ConsumerState TmgiOperations SubscriptionOperations
  SessionOperations

/-! ## The answer to a create request -/

/-- The TMGI of a create response; `none` is an error return. The object of a response whose
time stamp is malformed has left the registry again. -/
def createdTmgi (w : World) (s : Ref) (m : CreatedSession) :
    Except Fault (World × Option Ref) :=
  match m.tmgi, m.expirationTime with
  | some api, some stamp => do
      let (w, t) := tmgiCreate w none
      let w := w.modifyTmgi t (tmgiSetMbsServiceId api.mbsServiceId)
      let w := w.modifyTmgi t (tmgiSetPlmn api.mccNumber api.mncNumber)
      match stamp with
      | .malformed => do
          let w ← contextRemoveTmgi w t
          .ok (w, none)
      | .seconds expiryTime => do
          let w := w.modifyTmgi t (tmgiSetExpiryTime expiryTime)
          let x ← w.sessionAt s
          let w ← tmgiReplaceSbiObject w t x.sbiObject
          .ok (w, some t)
  | _, _ => .ok (w, none)

/-- The SSM object exists before the addresses are found to be unusable. -/
def answeredSsm (ssm : Option SsmAddr) : SsmAnswer → Option SsmAddr
  | .ipv4 source dest => some { family := .inet, source := source, destMc := dest }
  | .ipv6 source dest => some { family := .inet6, source := source, destMc := dest }
  | .unusable => some (ssm.getD {})

/-- The part of `_nmbsmf_mbs_session_parse` behind the TMGI. -/
def parseSessionId (w : World) (s : Ref) (m : CreatedSession) : Except Fault World :=
  match m.mbsSessionId with
  | none => .error .nullMbsSessionId
  | some answer => do
      let x ← w.sessionAt s
      let x := match answer with
        | none => x
        | some ssm => { x with session := { x.session with ssm := answeredSsm x.session.ssm ssm } }
      let w := w.setSession s x
      let (w, copy) ← mbsSessionPublicCopy w x.previousSession x.session
      .ok (w.modifySession s fun x => { x with previousSession := some copy })

def storeTmgi (t : Ref) (x : MbsSession) : MbsSession :=
  { x with session := { x.session with tmgi := some t } }

/-- `_nmbsmf_mbs_session_parse`: what was stored before an error stays stored. -/
def nmbsmfMbsSessionParse (w : World) (s : Ref) (rsp : Response) : Except Fault (World × Bool) := do
  let x ← w.sessionAt s
  match rsp.createLocation with
  | .absent | .unparsable | .noResource => .ok (w, false)
  | .resource id => do
      let x := { x with id := some id }
      let w := w.setSession s x
      match rsp.createRspData with
      | none | some none => .ok (w, false)
      | some (some m) =>
          if x.session.tunnelReq ∧ m.ingressTunAddr = none then .ok (w, false)
          else do
            let x := if x.session.tunnelReq then
                { x with session :=
                    { x.session with mbUpfUdpTunnel := m.ingressTunAddr.getD [] } }
              else x
            let w := w.setSession s x
            if x.session.tmgiReq then do
              let (w, tmgi) ← createdTmgi w s m
              match tmgi with
              | none => .ok (w, false)
              | some t => do
                  let w := w.modifySession s (storeTmgi t)
                  let w ← parseSessionId w s m
                  .ok (w, true)
            else do
              let w ← parseSessionId w s m
              .ok (w, true)

/-- The create branch of `mb_smf_sc_process_event`: pending changes follow an accepted
create at once. -/
def handleCreateResponse (w : World) (xact : ℕ) (s : Ref) (rsp : Response) :
    Except Fault World :=
  if isSuccess rsp.status then do
    let (w, understood) ← nmbsmfMbsSessionParse w s rsp
    if understood then do
      let w ← mbsSessionDoCallback w xact s .create .ogsOk none
      mbsSessionPushChanges w s
    else mbsSessionDoCallback w xact s .create .ogsError none
  else mbsSessionDoCallback w xact s .create .ogsError rsp.problemDetails

/-! ## The answers to update and delete requests -/

/-- `_nmbsmf_mbs_session_delete_response`: the status is not looked at. -/
def nmbsmfMbsSessionDeleteResponse (w : World) (xact : ℕ) (s : Ref) : Except Fault World := do
  let w ← mbsSessionDoCallback w xact s .delete .ogsDone none
  contextRemoveMbsSession w s

/-- The update of the cached copy in `_nmbsmf_mbs_session_patch_response`. -/
def keepOrRevert (w : World) (s : Ref) (resStatus : ℕ) : Except Fault World := do
  let x ← w.sessionAt s
  if isSuccess resStatus then do
    let (w, copy) ← mbsSessionPublicCopy w x.previousSession x.session
    .ok (w.modifySession s fun x => { x with previousSession := some copy })
  else if resStatus < 400 then .ok w
  else
    match x.previousSession with
    | none => .ok w
    | some previous => do
        let (w, copy) ← mbsSessionPublicCopy w (some x.session) previous
        .ok (w.modifySession s fun x => { x with session := copy })

/-- `_nmbsmf_mbs_session_patch_response`. -/
def nmbsmfMbsSessionPatchResponse (w : World) (xact : ℕ) (s : Ref) (rsp : Response) :
    Except Fault World := do
  let w ← keepOrRevert w s rsp.resStatus
  mbsSessionDoCallback w xact s .update .ogsOk none

/-! ## The answer to a subscribe request -/

/-- The answered subscription takes its id and, if it is still new, becomes active. The entry of
one that is active already keeps its key, which is the id that is freed here. -/
def establishSubscription (w : World) (s u : Ref) (id : String) (slot : ℕ) :
    Except Fault World := do
  let w := w.modifySubscription u fun n => { n with id := some id }
  let x ← w.sessionAt s
  if u ∈ x.newSubscriptions then do
    let w ← ogsListRemove w s .newSubscriptions u
    .ok (w.modifySession s fun x => { x with activeSubscriptions := some (x.active.set slot id u) })
  else .ok w

/-- `_nmbsmf_mbs_session_subscription_response`; nothing is done about errors. -/
def nmbsmfMbsSessionSubscriptionResponse (w : World) (s : Ref) (rsp : Response) :
    Except Fault World :=
  match rsp.subscribeBody with
  | .notJson => .ok w
  | .invalid => .ok w
  | .valid correlationId hasEventList =>
      if isSuccess rsp.status then
        match mbsSessionFindSubscription w s correlationId with
        | none => .ok w
        | some u =>
            match rsp.subscribeLocation with
            | none => .error .nullLocation
            | some id => do
                let w ← establishSubscription w s u id rsp.hashSlot
                if hasEventList then .ok w else .error .nullEventList
      else .ok w

/-! ## The answers to TMGI requests -/

def tmgiDoCallback (w : World) (xact : ℕ) (t : Ref) (result : CallbackResult)
    (problem : Option ProblemDetails) : Except Fault World := do
  let x ← w.tmgiAt t
  match x.callback with
  | none => .ok w
  | some cb => .ok (w.say (.tmgiCallback xact t cb result problem))

/-- An allocated TMGI of the answer, given to the first registered TMGI that matches. -/
def takeAllocated (xact : ℕ) (expiryTime : ℤ) (w : World) (api : ApiTmgi) : Except Fault World :=
  match tmgiFindMatchingOpenapiType w api with
  | none => .ok w
  | some t =>
      let w := w.modifyTmgi t (tmgiSetMbsServiceId api.mbsServiceId)
      let w := w.modifyTmgi t (tmgiSetPlmn api.mccNumber api.mncNumber)
      let w := w.modifyTmgi t (tmgiSetExpiryTime expiryTime)
      tmgiDoCallback w xact t .ogsOk none

def reportRefused (xact : ℕ) (problem : Option ProblemDetails) (w : World) (c : Tmgi) :
    Except Fault World :=
  match tmgiFindMatchingOpenapiType w (tmgiToOpenapiType c) with
  | none => .ok w
  | some t => tmgiDoCallback w xact t .ogsError problem

/-- The TMGIs a request names for a refresh or a deallocation. -/
def requestTmgis : Request → List Tmgi
  | .tmgiAllocate _ refresh => refresh
  | .tmgiDeallocate tmgis => tmgis
  | _ => []

/-- `_nmbsmf_tmgi_allocated`: the loop stops at a null entry. -/
def nmbsmfTmgiAllocated (w : World) (x : Xact) (rsp : Response) : Except Fault World :=
  if isSuccess rsp.resStatus then
    match rsp.tmgiAllocated with
    | none => .ok w
    | some answer =>
        ((answer.tmgiList.takeWhile Option.isSome).filterMap id).foldlM
          (takeAllocated x.id answer.expiryTime) w
  else (requestTmgis x.request).foldlM (reportRefused x.id rsp.problemDetails) w

/-- `__do_tmgi_remove`. -/
def doTmgiRemove (xact : ℕ) (rsp : Response) (w : World) (c : Tmgi) : Except Fault World :=
  match tmgiFindMatchingOpenapiType w (tmgiToOpenapiType c) with
  | none => .ok w
  | some t => do
      let w ← (if isSuccess rsp.resStatus then tmgiDoCallback w xact t .ogsDone none
        else tmgiDoCallback w xact t .ogsError rsp.problemDetails)
      contextRemoveTmgi w t

/-- `_nmbsmf_tmgi_deallocated`. -/
def nmbsmfTmgiDeallocated (w : World) (x : Xact) (rsp : Response) : Except Fault World :=
  (requestTmgis x.request).foldlM (doTmgiRemove x.id rsp) w

end ServiceConsumers.ResponseHandlers
