import ServiceConsumers.KeyedTable
import ServiceConsumers.ObjectStore
import ServiceConsumers.PublicSessions
import ServiceConsumers.TransitionRuns

set_option autoImplicit false

/-!
# The state of the MB-SMF service consumer

The library's objects live in stores, addressed by references as the source addresses
them by pointers. The log records what the application and the MB-SMF can observe of a
run; no operation of the library reads it.
-/

namespace ServiceConsumers.ConsumerState

open ObjectStore KeyedTable JsonDocuments PublicSessions

/-- What ends a run: a failed assertion, a pointer that is `NULL` or dangling where it is
followed, or a list operation that breaks the links of a list. -/
inductive Fault where
  | danglingSession
  | danglingTmgi
  | danglingSubscription
  | danglingSbiObject
  | nullSbiObject
  | nullSession
  | nullTmgi
  | nullMbsSessionId
  | nullLocation
  | nullEventList
  | nullPatchValue
  | nullFlowDescription
  | emptyRefreshList
  | nodeAlreadyLinked
  | notAMember
  | notAHashTable
  | doubleFree
  deriving DecidableEq, Repr

/-! ## Objects -/

/-- A callback with the data pointer it is registered with. -/
structure ResultCallback where
  function : ℕ
  data : ℕ
  deriving DecidableEq, Repr, Inhabited

/-- The results passed to callbacks. -/
inductive CallbackResult where
  | ogsOk
  | ogsDone
  | ogsError
  | ogsTimedOut
  deriving DecidableEq, Repr

/-- A `ProblemDetails` object. -/
abbrev ProblemDetails := ℕ

/-- `_priv_mbs_session_t`. -/
structure MbsSession where
  session : PublicSession Ref := { tmgiReq := true }
  id : Option String := none
  newSubscriptions : List Ref := []
  activeSubscriptions : Option (Table String Ref) := none
  deletedSubscriptions : List Ref := []
  previousSession : Option (PublicSession Ref) := none
  createResultCb : Option ResultCallback := none
  updateResultCb : Option ResultCallback := none
  deleteResultCb : Option ResultCallback := none
  deleted : Bool := false
  sbiObject : Option Ref := none

namespace MbsSession

/-- The entries of the active table, none when there is no table yet. -/
def active (x : MbsSession) : Table String Ref := x.activeSubscriptions.getD []

end MbsSession

/-- The two lists of a session that hold subscriptions by their own list node. -/
inductive ListName where
  | newSubscriptions
  | deletedSubscriptions
  deriving DecidableEq, Repr

structure ListLink where
  session : Ref
  list : ListName
  deriving DecidableEq, Repr

/-- `_priv_mbs_status_subscription_t`; `node` says which list its node is linked into. -/
structure StatusSubscription where
  areaSessionId : ℕ := 0
  flags : BitVec 32 := 0
  correlationId : Option String := none
  expiryTime : ℤ := 0
  id : Option String := none
  session : Option Ref := none
  changed : Bool := false
  node : Option ListLink := none
  deriving DecidableEq, Repr, Inhabited

/-- `_priv_tmgi_t`. -/
structure PrivTmgi where
  tmgi : Tmgi := {}
  callback : Option ResultCallback := none
  sbiObject : Option Ref := none
  allocated : Bool := false
  deriving DecidableEq, Repr, Inhabited

/-! ## Requests and transactions -/

/-- The subscription as a subscribe request describes it. -/
structure SubscriptionBody where
  areaSessionId : ℕ
  flags : BitVec 32
  correlationId : Option String
  expiryTime : ℤ
  deriving DecidableEq, Repr

/-- A request with what it was built from. The reference beside an embedded or subscribed
subscription names the object; it is not part of the message. -/
inductive Request where
  | create (carried : PublicSession Tmgi) (embedded : Option (Ref × SubscriptionBody))
  | update (id : Option String) (patches : List PatchItem) (carried : PublicSession Tmgi)
  | remove (id : Option String)
  | subscribe (subscription : Ref) (body : SubscriptionBody)
  | subscriptionUpdate (subscription : Ref) (id : Option String) (patches : List PatchItem)
  | subscriptionDelete (subscription : Ref) (id : Option String)
  | tmgiAllocate (newTmgis : ℕ) (refresh : List Tmgi)
  | tmgiDeallocate (tmgis : List Tmgi)

inductive HttpMethod where
  | post
  | patch
  | delete
  deriving DecidableEq, Repr

namespace Request

def method : Request → HttpMethod
  | create .. | subscribe .. | tmgiAllocate .. => .post
  | update .. | subscriptionUpdate .. => .patch
  | remove .. | subscriptionDelete .. | tmgiDeallocate .. => .delete

/-- `h.resource.component[1]`. -/
def component1 : Request → Option String
  | create .. => none
  | update id .. | remove id => id
  | subscribe .. | subscriptionUpdate .. | subscriptionDelete .. => some "subscriptions"
  | tmgiAllocate .. | tmgiDeallocate .. => none

/-- `h.resource.component[2]`. -/
def component2 : Request → Option String
  | subscriptionUpdate _ id _ | subscriptionDelete _ id => id
  | _ => none

/-- The request goes to the TMGI service, not to the MBS session service. -/
def isTmgi : Request → Bool
  | tmgiAllocate .. | tmgiDeallocate .. => true
  | _ => false

def isCreate : Request → Bool
  | create .. => true
  | _ => false

end Request

/-- Who sent a request. The library does not keep this: it searches for the sender again
when the answer arrives. -/
inductive Requester where
  | session (s : Ref)
  | tmgis (ts : List Ref)
  deriving DecidableEq, Repr

structure Xact where
  id : ℕ
  sbiObject : Ref
  requester : Requester
  request : Request

/-! ## Responses -/

/-- What parsing the `Location` header of a create response gives. -/
inductive LocationHeader where
  | absent
  | unparsable
  | noResource
  | resource (id : String)
  deriving DecidableEq, Repr

inductive SsmAnswer where
  | ipv4 (source dest : ℕ)
  | ipv6 (source dest : ℕ)
  | unusable
  deriving DecidableEq, Repr

/-- A TMGI in a message: its strings, and what the string to number functions make of the
two codes. -/
structure ApiTmgi where
  mbsServiceId : Option String
  mcc : String
  mnc : String
  mccNumber : ℕ
  mncNumber : ℕ
  deriving DecidableEq, Repr

/-- An expiration time that is present, read as seconds when it has the right format. -/
inductive TimestampAnswer where
  | malformed
  | seconds (t : ℤ)
  deriving DecidableEq, Repr

/-- The `mbsSession` object of a `CreateRspData`. The outer option of the session id is the
identifier object, the inner one its SSM with both addresses. -/
structure CreatedSession where
  ingressTunAddr : Option (List TunnelAddress) := none
  tmgi : Option ApiTmgi := none
  expirationTime : Option TimestampAnswer := none
  mbsSessionId : Option (Option SsmAnswer) := some none
  deriving DecidableEq, Repr

inductive SubscribeRspBody where
  | notJson
  | invalid
  | valid (correlationId : Option String) (hasEventList : Bool)
  deriving DecidableEq, Repr

structure TmgiAllocated where
  tmgiList : List (Option ApiTmgi)
  expiryTime : ℤ
  deriving DecidableEq, Repr

/-- A response as the handlers see it after parsing: its status line, the `res_status` and
problem details that parsing left in the message, and its headers and bodies.
`subscribeLocation` is the decoded text behind the last `/` of a `Location` header. -/
structure Response where
  status : ℕ
  parsed : Bool := true
  resStatus : ℕ := 0
  problemDetails : Option ProblemDetails := none
  createLocation : LocationHeader := .absent
  createRspData : Option (Option CreatedSession) := none
  subscribeLocation : Option String := none
  subscribeBody : SubscribeRspBody := .notJson
  tmgiAllocated : Option TmgiAllocated := none
  hashSlot : ℕ := 0
  deriving DecidableEq, Repr

/-- The message of `ogs_sbi_parse_header`, which is given the `h` of the response alone: it has no
status, none of the other headers and no body. What the handlers read of the response itself
(`status`, `subscribeBody`) stays. -/
def ogsSbiParseHeader (rsp : Response) : Response :=
  { rsp with
    resStatus := 0
    problemDetails := none
    createLocation := .absent
    createRspData := none
    subscribeLocation := none
    tmgiAllocated := none }

def isSuccess (status : ℕ) : Bool := 200 ≤ status && status < 300

/-! ## The log -/

inductive Observation where
  | sent (x : Xact)
  | answered (x : Xact) (rsp : Response)
  | timedOut (x : Xact)
  | dropped (x : Xact)
  | handled (xact : ℕ) (session tmgi : Option Ref)
  | sessionCallback (xact : ℕ) (s : Ref) (cb : ResultCallback) (result : CallbackResult)
      (problem : Option ProblemDetails)
  | tmgiCallback (xact : ℕ) (t : Ref) (cb : ResultCallback) (result : CallbackResult)
      (problem : Option ProblemDetails)
  | deleteCalled (s : Ref)
  | attached (subscription : Ref) (s : Ref)
  | sessionLeft (s : Ref)

/-- The whole state. `mbsSessions` and `tmgis` are the two lists of the context; `log` has
the newest observation first. -/
structure World where
  mbsSessions : List Ref := []
  tmgis : List Ref := []
  sessionStore : Store MbsSession := Store.empty
  tmgiStore : Store PrivTmgi := Store.empty
  subscriptionStore : Store StatusSubscription := Store.empty
  sbiObjects : Ref → ℕ := fun _ => 0
  xacts : List Xact := []
  log : List Observation := []
  next : ℕ := 1

namespace World

def initial : World := {}

@[simp] def say (w : World) (o : Observation) : World := { w with log := o :: w.log }

@[simp] def setSession (w : World) (s : Ref) (x : MbsSession) : World :=
  { w with sessionStore := w.sessionStore.set s x }

@[simp] def modifySession (w : World) (s : Ref) (f : MbsSession → MbsSession) : World :=
  { w with sessionStore := w.sessionStore.modify s f }

@[simp] def modifySubscription (w : World) (u : Ref) (f : StatusSubscription → StatusSubscription) :
    World :=
  { w with subscriptionStore := w.subscriptionStore.modify u f }

@[simp] def modifyTmgi (w : World) (t : Ref) (f : PrivTmgi → PrivTmgi) : World :=
  { w with tmgiStore := w.tmgiStore.modify t f }

def sessionAt (w : World) (s : Ref) : Except Fault MbsSession :=
  match w.sessionStore s with
  | none => .error .danglingSession
  | some x => .ok x

def subscriptionAt (w : World) (u : Ref) : Except Fault StatusSubscription :=
  match w.subscriptionStore u with
  | none => .error .danglingSubscription
  | some x => .ok x

def tmgiAt (w : World) (t : Ref) : Except Fault PrivTmgi :=
  match w.tmgiStore t with
  | none => .error .danglingTmgi
  | some x => .ok x

@[simp] theorem sessionAt_eq_ok {w : World} {s : Ref} {x : MbsSession} :
    w.sessionAt s = .ok x ↔ w.sessionStore s = some x := by
  unfold sessionAt
  cases w.sessionStore s <;> simp

@[simp] theorem subscriptionAt_eq_ok {w : World} {u : Ref} {x : StatusSubscription} :
    w.subscriptionAt u = .ok x ↔ w.subscriptionStore u = some x := by
  unfold subscriptionAt
  cases w.subscriptionStore u <;> simp

@[simp] theorem tmgiAt_eq_ok {w : World} {t : Ref} {x : PrivTmgi} :
    w.tmgiAt t = .ok x ↔ w.tmgiStore t = some x := by
  unfold tmgiAt
  cases w.tmgiStore t <;> simp

/-! ### Reference counted SBI objects (`ref_count_sbi_object.h`) -/

/-- `_ref_count_sbi_object_new`: a new object with one reference. -/
def refCountSbiObjectNew (w : World) : World × Ref :=
  ({ w with sbiObjects := Function.update w.sbiObjects w.next 1, next := w.next + 1 }, w.next)

def refCountSbiObjectRef (w : World) : Option Ref → World
  | none => w
  | some o => { w with sbiObjects := Function.update w.sbiObjects o (w.sbiObjects o + 1) }

/-- `ogs_sbi_xact_remove_all`: the outstanding transactions of a freed object go with it. -/
def sbiXactRemoveAll (w : World) (o : Ref) : World :=
  { w with
    xacts := w.xacts.filter fun x => x.sbiObject ≠ o
    log := ((w.xacts.filter fun x => x.sbiObject = o).map .dropped) ++ w.log }

def refCountSbiObjectUnref (w : World) : Option Ref → World
  | none => w
  | some o =>
      let w' : World := { w with sbiObjects := Function.update w.sbiObjects o (w.sbiObjects o - 1) }
      if w.sbiObjects o = 1 then w'.sbiXactRemoveAll o else w'

section RefCountFields

variable (w : World) (o : Option Ref)

/-- Releasing an object changes no other object. -/
theorem refCountSbiObjectUnref_eq : ∃ counts xacts log, w.refCountSbiObjectUnref o =
    { w with sbiObjects := counts, xacts := xacts, log := log } := by
  cases o with
  | none => exact ⟨w.sbiObjects, w.xacts, w.log, rfl⟩
  | some o =>
      by_cases h : w.sbiObjects o = 1
      · simp only [refCountSbiObjectUnref, if_pos h]
        exact ⟨_, _, _, rfl⟩
      · simp only [refCountSbiObjectUnref, if_neg h]
        exact ⟨_, _, _, rfl⟩

@[simp] theorem refCountSbiObjectUnref_mbsSessions :
    (w.refCountSbiObjectUnref o).mbsSessions = w.mbsSessions := by
  obtain ⟨_, _, _, h⟩ := w.refCountSbiObjectUnref_eq o
  rw [h]

@[simp] theorem refCountSbiObjectUnref_tmgis :
    (w.refCountSbiObjectUnref o).tmgis = w.tmgis := by
  obtain ⟨_, _, _, h⟩ := w.refCountSbiObjectUnref_eq o
  rw [h]

@[simp] theorem refCountSbiObjectUnref_sessionStore :
    (w.refCountSbiObjectUnref o).sessionStore = w.sessionStore := by
  obtain ⟨_, _, _, h⟩ := w.refCountSbiObjectUnref_eq o
  rw [h]

@[simp] theorem refCountSbiObjectUnref_tmgiStore :
    (w.refCountSbiObjectUnref o).tmgiStore = w.tmgiStore := by
  obtain ⟨_, _, _, h⟩ := w.refCountSbiObjectUnref_eq o
  rw [h]

@[simp] theorem refCountSbiObjectUnref_subscriptionStore :
    (w.refCountSbiObjectUnref o).subscriptionStore = w.subscriptionStore := by
  obtain ⟨_, _, _, h⟩ := w.refCountSbiObjectUnref_eq o
  rw [h]

@[simp] theorem refCountSbiObjectUnref_next :
    (w.refCountSbiObjectUnref o).next = w.next := by
  obtain ⟨_, _, _, h⟩ := w.refCountSbiObjectUnref_eq o
  rw [h]

@[simp] theorem refCountSbiObjectRef_next :
    (w.refCountSbiObjectRef o).next = w.next := by cases o <;> rfl

@[simp] theorem refCountSbiObjectRef_mbsSessions :
    (w.refCountSbiObjectRef o).mbsSessions = w.mbsSessions := by cases o <;> rfl

@[simp] theorem refCountSbiObjectRef_tmgis :
    (w.refCountSbiObjectRef o).tmgis = w.tmgis := by cases o <;> rfl

@[simp] theorem refCountSbiObjectRef_sessionStore :
    (w.refCountSbiObjectRef o).sessionStore = w.sessionStore := by cases o <;> rfl

@[simp] theorem refCountSbiObjectRef_tmgiStore :
    (w.refCountSbiObjectRef o).tmgiStore = w.tmgiStore := by cases o <;> rfl

@[simp] theorem refCountSbiObjectRef_subscriptionStore :
    (w.refCountSbiObjectRef o).subscriptionStore = w.subscriptionStore := by cases o <;> rfl

end RefCountFields

/-! ### Transactions -/

/-- `ogs_sbi_xact_add` followed by `ogs_sbi_discover_and_send`: the object is asserted, the
request is built at once and the transaction waits for its answer. -/
def sbiXactAdd (w : World) (sbi : Option Ref) (requester : Requester)
    (build : Except Fault Request) : Except Fault World :=
  match sbi with
  | none => .error .nullSbiObject
  | some o => do
      let request ← build
      let x : Xact := { id := w.next, sbiObject := o, requester := requester, request := request }
      .ok { w with xacts := w.xacts ++ [x], log := .sent x :: w.log, next := w.next + 1 }

def findXact (w : World) (n : ℕ) : Option Xact := w.xacts.find? fun x => x.id = n

def removeXact (w : World) (n : ℕ) : World :=
  { w with xacts := w.xacts.filter fun x => x.id ≠ n }

/-- The request with a given number, outstanding or not. -/
def findSent (w : World) (n : ℕ) : Option Xact :=
  w.log.findSome? fun
    | .sent x => if x.id = n then some x else none
    | _ => none

/-! ### Reading sessions through their TMGI -/

def tmgiContent (w : World) : Option Ref → Except Fault (Option Tmgi)
  | none => .ok none
  | some t => do
      let x ← w.tmgiAt t
      .ok (some x.tmgi)

def sessionContent (w : World) (p : PublicSession Ref) : Except Fault (PublicSession Tmgi) := do
  let tmgi ← w.tmgiContent p.tmgi
  .ok (p.content tmgi)

end World

end ServiceConsumers.ConsumerState
