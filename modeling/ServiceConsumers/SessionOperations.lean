import ServiceConsumers.SubscriptionOperations
import ServiceConsumers.TmgiOperations

set_option autoImplicit false

/-!
# Sessions and their requests (`mbs-session.c`, `nmbsmf-mbs-session-build.c`)
-/

namespace ServiceConsumers.SessionOperations

open ObjectStore KeyedTable JsonDocuments PublicSessions ConsumerState TmgiOperations
  SubscriptionOperations

/-! ## Copies -/

/-- `_mbs_session_public_copy`: a source that asked for its TMGI owns it, so the TMGI object
is copied too. -/
def mbsSessionPublicCopy (w : World) (dest : Option (PublicSession Ref))
    (src : PublicSession Ref) : Except Fault (World × PublicSession Ref) := do
  let dst := dest.getD {}
  let (w, tmgi) ← (if src.tmgiReq then tmgiCopy w dst.tmgi src.tmgi else .ok (w, src.tmgi))
  match publicCopyFields dst src tmgi with
  | none => .error .nullFlowDescription
  | some copy => .ok (w, copy)

/-- `_mbs_session_public_clear`, as far as other objects are concerned: a session that asked
for its TMGI frees it. -/
def mbsSessionPublicClear (w : World) (p : PublicSession Ref) : Except Fault World :=
  match p.tmgi with
  | some t => if p.tmgiReq then tmgiFree w t else .ok w
  | none => .ok w

/-- `_mbs_session_public_equal`. -/
def mbsSessionPublicEqual (w : World) (a b : PublicSession Ref) : Except Fault Bool := do
  let a ← w.sessionContent a
  let b ← w.sessionContent b
  match publicEqual a b with
  | none => .error .nullFlowDescription
  | some equal => .ok equal

/-- `_tmgi_equal` on two pointers. -/
def tmgiPointersEqual (w : World) (a b : Option Ref) : Except Fault Bool := do
  let a ← w.tmgiContent a
  let b ← w.tmgiContent b
  .ok (optionEqual tmgiEqual a b)

/-! ## Requests -/

/-- The subscription that a create request embeds: the first new one, else the first active
one. -/
def firstSubscription (x : MbsSession) : Option Ref :=
  match x.newSubscriptions with
  | u :: _ => some u
  | [] => x.active.head?.map Prod.snd

/-- `_nmbsmf_mbs_session_build_create`; a subscription without events is not embedded. -/
def buildCreate (w : World) (x : MbsSession) : Except Fault Request := do
  let carried ← w.sessionContent x.session
  match firstSubscription x with
  | none => .ok (.create carried none)
  | some u => do
      let n ← w.subscriptionAt u
      .ok (.create carried (if hasEvents n.flags then some (u, subscriptionBody n) else none))

/-- `_nmbsmf_mbs_session_build_update`. -/
def buildUpdate (w : World) (x : MbsSession) : Except Fault Request := do
  let carried ← w.sessionContent x.session
  let patches ← mbsSessionPatchList x
  .ok (.update x.id patches carried)

/-- `_nmbsmf_mbs_session_build_remove`. -/
def buildRemove (x : MbsSession) : Except Fault Request := .ok (.remove x.id)

/-- A session without an SBI object gets a new one. -/
def ensureSbiObject (w : World) (s : Ref) (x : MbsSession) : World × MbsSession :=
  match x.sbiObject with
  | some _ => (w, x)
  | none =>
      let (w, o) := w.refCountSbiObjectNew
      let x := { x with sbiObject := some o }
      (w.setSession s x, x)

/-- `_mbs_session_send_create`. -/
def mbsSessionSendCreate (w : World) (s : Ref) : Except Fault World := do
  let x ← w.sessionAt s
  let (w, x) := ensureSbiObject w s x
  w.sbiXactAdd x.sbiObject (.session s) (buildCreate w x)

/-- `_mbs_session_send_update`. -/
def mbsSessionSendUpdate (w : World) (s : Ref) : Except Fault World := do
  let x ← w.sessionAt s
  w.sbiXactAdd x.sbiObject (.session s) (buildUpdate w x)

/-- `_mbs_session_send_remove`. -/
def mbsSessionSendRemove (w : World) (s : Ref) : Except Fault World := do
  let x ← w.sessionAt s
  w.sbiXactAdd x.sbiObject (.session s) (buildRemove x)

/-! ## Pushing changes -/

/-- The session is removed where it was accepted before it is created again. -/
def removeAndCreate (w : World) (s : Ref) (removeFirst : Bool) : Except Fault World := do
  let w ← (if removeFirst then mbsSessionSendRemove w s else .ok w)
  mbsSessionSendCreate w s

/-- `_mbs_session_push_changes`. -/
def mbsSessionPushChanges (w : World) (s : Ref) : Except Fault World := do
  let x ← w.sessionAt s
  if x.deleted then mbsSessionSendRemove w s
  else
    match x.previousSession with
    | none => mbsSessionSendCreate w s
    | some previous => do
        let equal ← mbsSessionPublicEqual w previous x.session
        if equal then mbsSessionSubscriptionsUpdate w s
        else if !ssmEqual previous.ssm x.session.ssm then
          removeAndCreate w s previous.ssm.isSome
        else do
          let sameTmgi ← tmgiPointersEqual w previous.tmgi x.session.tmgi
          if !sameTmgi then removeAndCreate w s previous.tmgi.isSome
          else do
            let w ← mbsSessionSendUpdate w s
            mbsSessionSubscriptionsUpdate w s

/-- `mb_smf_sc_mbs_session_push_all_changes`. -/
def mbsSessionPushAllChanges (w : World) : Except Fault World :=
  w.mbsSessions.foldlM mbsSessionPushChanges w

/-! ## The end of a session -/

/-- The subscriptions that are freed with a session: all but the active ones. -/
def freeSubscriptions (w : World) (us : List Ref) : World :=
  us.foldl mbsStatusSubscriptionFree w

/-- `_mbs_session_delete`. An active subscription is freed by a function that takes the
session for its hash table, and two sessions that point to the same number both free it. -/
def mbsSessionDelete (w : World) (s : Ref) : Except Fault World := do
  let x ← w.sessionAt s
  let w ← (match x.previousSession with
    | some previous => mbsSessionPublicClear w previous
    | none => .ok w)
  let w := freeSubscriptions w x.newSubscriptions
  if x.active ≠ [] then .error .notAHashTable
  else do
    let w := freeSubscriptions w x.deletedSubscriptions
    let w := w.refCountSbiObjectUnref x.sbiObject
    let w ← mbsSessionPublicClear w x.session
    if x.previousSession.any fun previous =>
        sameCell previous.startTime x.session.startTime ||
          sameCell previous.areaSessionId x.session.areaSessionId then .error .doubleFree
    else .ok { w with sessionStore := w.sessionStore.free s }

/-- `_context_remove_mbs_session`. -/
def contextRemoveMbsSession (w : World) (s : Ref) : Except Fault World :=
  if s ∈ w.mbsSessions then
    mbsSessionDelete ({ w with mbsSessions := w.mbsSessions.erase s }.say (.sessionLeft s)) s
  else .error .notAMember

/-! ## Callbacks -/

inductive CallbackKind where
  | create
  | update
  | delete
  deriving DecidableEq, Repr

def callbackOf (x : MbsSession) : CallbackKind → Option ResultCallback
  | .create => x.createResultCb
  | .update => x.updateResultCb
  | .delete => x.deleteResultCb

def setCallbackOf (x : MbsSession) (cb : Option ResultCallback) : CallbackKind → MbsSession
  | .create => { x with createResultCb := cb }
  | .update => { x with updateResultCb := cb }
  | .delete => { x with deleteResultCb := cb }

/-- The three `_mbs_session_do_*_callback` functions: nothing without a callback. -/
def mbsSessionDoCallback (w : World) (xact : ℕ) (s : Ref) (kind : CallbackKind)
    (result : CallbackResult) (problem : Option ProblemDetails) : Except Fault World := do
  let x ← w.sessionAt s
  match callbackOf x kind with
  | none => .ok w
  | some cb => .ok (w.say (.sessionCallback xact s cb result problem))

/-! ## Setting the TMGI -/

/-- A TMGI that is set brings its SBI object, and the session no longer asks for one. -/
def takeTmgi (w : World) (s t : Ref) : Except Fault World := do
  let x ← w.sessionAt s
  let y ← w.tmgiAt t
  let w := w.refCountSbiObjectRef y.sbiObject
  let w := w.setSession s
    { x with
      sbiObject := y.sbiObject
      session := { x.session with tmgi := some t, tmgiReq := false } }
  .ok (w.refCountSbiObjectUnref x.sbiObject)

/-- `_mbs_session_set_tmgi`; a TMGI of equal content is not taken. -/
def mbsSessionSetTmgi (w : World) (s : Ref) (tmgi : Option Ref) : Except Fault World := do
  let x ← w.sessionAt s
  if x.deleted ∨ x.session.tmgi = tmgi then .ok w
  else
    match tmgi with
    | none => .ok (w.setSession s { x with session := { x.session with tmgi := none } })
    | some t =>
        match x.session.tmgi with
        | none => takeTmgi w s t
        | some old => do
            let a ← w.tmgiAt t
            let b ← w.tmgiAt old
            if tmgiEqual a.tmgi b.tmgi then .ok w else takeTmgi w s t

/-! ## Calls of the application -/

/-- Writes of the application through the pointers of a session. -/
inductive CellWrite where
  | startTime (value : ℤ)
  | areaSessionId (value : ℕ)

def writeCell {α : Type} (address : ℕ) (value : α) (c : Option (Cell α)) : Option (Cell α) :=
  c.map fun cell => if cell.address = address then { cell with value := value } else cell

/-- Every copy that shares the pointer sees the new number. -/
def writeStartTime (address : ℕ) (value : ℤ) (p : PublicSession Ref) : PublicSession Ref :=
  { p with startTime := writeCell address value p.startTime }

def writeAreaSessionId (address : ℕ) (value : ℕ) (p : PublicSession Ref) : PublicSession Ref :=
  { p with areaSessionId := writeCell address value p.areaSessionId }

def writeThrough (x : MbsSession) : CellWrite → MbsSession
  | .startTime value =>
      match x.session.startTime with
      | none => x
      | some cell =>
          { x with
            session := writeStartTime cell.address value x.session
            previousSession := x.previousSession.map (writeStartTime cell.address value) }
  | .areaSessionId value =>
      match x.session.areaSessionId with
      | none => x
      | some cell =>
          { x with
            session := writeAreaSessionId cell.address value x.session
            previousSession := x.previousSession.map (writeAreaSessionId cell.address value) }

/-- The SSM address that `mb_smf_sc_mbs_session_new_ipv4` and `_new_ipv6` set up. -/
def newSsm (family : AddressFamily) (source dest : Option ℕ) : Option SsmAddr :=
  match source, dest with
  | none, none => none
  | _, _ => some { family := family, source := source.getD 0, destMc := dest.getD 0 }

/-- `_mbs_session_new`, given its SSM and added to the context. -/
def mbsSessionNew (w : World) (ssm : Option SsmAddr) : World :=
  { w with
    mbsSessions := w.mbsSessions ++ [w.next]
    sessionStore := w.sessionStore.set w.next { session := { ssm := ssm, tmgiReq := true } }
    next := w.next + 1 }

inductive SessionCall where
  | newIpv4 (source dest : Option ℕ)
  | newIpv6 (source dest : Option ℕ)
  | edit (s : Ref) (value : PublicSession Ref)
  | write (s : Ref) (cell : CellWrite)
  | delete (s : Ref)
  | setTmgi (s : Ref) (tmgi : Option Ref)
  | setCallback (s : Ref) (cb : Option ResultCallback)
  | setCallbackOf (s : Ref) (kind : CallbackKind) (cb : Option ResultCallback)
  | pushChanges (s : Ref)
  | pushAllChanges

def setAllCallbacks (x : MbsSession) (cb : Option ResultCallback) : MbsSession :=
  { x with createResultCb := cb, updateResultCb := cb, deleteResultCb := cb }

/-- The application writes any field of the public structure but the TMGI, which has a
setter, and the tunnel, which is read-only. -/
def mbsSessionEdit (value : PublicSession Ref) (x : MbsSession) : MbsSession :=
  { x with session :=
      { value with tmgi := x.session.tmgi, mbUpfUdpTunnel := x.session.mbUpfUdpTunnel } }

/-- A call that only writes fields of a live session. -/
def mbsSessionWrite (w : World) (s : Ref) (f : MbsSession → MbsSession) : Except Fault World := do
  let x ← w.sessionAt s
  .ok (w.setSession s (f x))

def sessionStep (w : World) : SessionCall → Except Fault World
  | .newIpv4 source dest => .ok (mbsSessionNew w (newSsm .inet source dest))
  | .newIpv6 source dest => .ok (mbsSessionNew w (newSsm .inet6 source dest))
  | .edit s value => mbsSessionWrite w s (mbsSessionEdit value)
  | .write s cell => mbsSessionWrite w s fun x => writeThrough x cell
  | .delete s => do
      let w ← mbsSessionWrite w s fun x => { x with deleted := true }
      .ok (w.say (.deleteCalled s))
  | .setTmgi s tmgi => mbsSessionSetTmgi w s tmgi
  | .setCallback s cb =>
      mbsSessionWrite w s fun x => if x.deleted then x else setAllCallbacks x cb
  | .setCallbackOf s kind cb => mbsSessionWrite w s fun x => setCallbackOf x cb kind
  | .pushChanges s => mbsSessionPushChanges w s
  | .pushAllChanges => mbsSessionPushAllChanges w

end ServiceConsumers.SessionOperations
