import ServiceConsumers.CommandLines
import ServiceConsumers.EventLoops
import ServiceConsumers.TmgiCallbacks

set_option autoImplicit false

/-!
# `tmgi-tool` (`app-sm.c`)

The tool sends one request, waits to be told of its outcome and ends.
-/

namespace ServiceConsumers.TmgiTool

open ObjectStore ServiceAreas PublicSessions ConsumerState TmgiOperations ResponseHandlers
  ProcessEvent TransitionRuns TransactionLog StepDecomposition AllocationMatching TmgiCallbacks
  PlmnRoundTrips CommandLines EventLoops

inductive AppState where
  | createTmgi
  | deleteTmgi
  | exit
  deriving DecidableEq, Repr

/-- `app_local_event_t`. -/
inductive LocalEvent where
  | tmgiAllocate
  | tmgiAllocated (tmgi : Ref) (result : CallbackResult) (problem : Option ProblemDetails)
  | tmgiDeallocate
  | tmgiDeallocated (tmgi : Ref) (result : CallbackResult) (problem : Option ProblemDetails)
  deriving DecidableEq, Repr

/-- What the log says about the request. -/
inductive Report where
  | created (tmgi : Tmgi)
  | allocationFailed (problem : Option ProblemDetails)
  | deleted (tmgi : Tmgi)
  | deallocationFailed (problem : Option ProblemDetails)
  | unexpected (e : LocalEvent)
  deriving DecidableEq, Repr

structure ToolWorld where
  consumer : World := World.initial
  reports : List Report := []

inductive Failure where
  | library (fault : Fault)
  | nullText
  deriving DecidableEq, Repr

abbrev Tool := Loop AppState LocalEvent ToolWorld

abbrev ToolEvent := EventLoops.Event NetworkEvent

/-! ## Calls of the library -/

def inLibrary {α : Type} : Except Fault α → Except Failure α
  | .ok a => .ok a
  | .error fault => .error (.library fault)

/-- `app_tmgi_allocate_cb`, registered with `NULL`. -/
def appTmgiAllocateCb : ResultCallback := { function := 0, data := 0 }

/-- `app_tmgi_deallocate_cb`, registered with the TMGI. -/
def appTmgiDeallocateCb (t : Ref) : ResultCallback := { function := 1, data := t }

/-- The two callbacks send an event each. -/
def sentByCallback : Observation → Option LocalEvent
  | .tmgiCallback _ t cb result problem =>
      if cb.function = 0 then some (.tmgiAllocated t result problem)
      else some (.tmgiDeallocated t result problem)
  | _ => none

/-- A call of the library, with the events that the callbacks send in it. -/
def callLibrary (call : World → Except Fault World) (m : Tool) : Except Failure Tool := do
  let w ← inLibrary (call m.world.consumer)
  .ok (Loop.postAll { m with world := { m.world with consumer := w } }
    ((observedSince m.world.consumer.log w.log).filterMap sentByCallback))

/-- `app_tmgi_allocate`. -/
def appTmgiAllocate : Tool → Except Failure Tool :=
  callLibrary fun w => tmgiStep w (.create (some appTmgiAllocateCb))

/-- `atoi`, passed on as a `uint16_t`. -/
def code16 (str : String) : ℕ := (BitVec.ofInt 16 (CacheAges.atoi str.toList)).toNat

/-- The calls of `app_tmgi_deallocate`, for the object that the first one makes. -/
def deallocateCalls (mbsServiceId : Option String) (mcc mnc : String) (t : Ref) : List TmgiCall :=
  [.new, .setMbsServiceId t mbsServiceId, .setPlmn t (code16 mcc) (code16 mnc),
    .setCallback t (some (appTmgiDeallocateCb t)), .sendDeallocate t]

/-- `app_tmgi_deallocate`. -/
def appTmgiDeallocate (options : TmgiToolOptions) (m : Tool) : Except Failure Tool :=
  match options.mcc, options.mnc with
  | some mcc, some mnc =>
      callLibrary (fun w => (deallocateCalls options.mbsServiceId mcc mnc w.next).foldlM tmgiStep w) m
  | _, _ => .error .nullText

/-! ## The states -/

def report (m : Tool) (r : Report) : Tool :=
  { m with world := { m.world with reports := m.world.reports ++ [r] } }

/-- The end of either request: the log names the TMGI, or says why there is none. -/
def finish (m : Tool) (t : Ref) (done : Bool) (named : Tmgi → Report) (failed : Report) :
    Except Failure Tool :=
  if done then do
    let x ← inLibrary (m.world.consumer.tmgiAt t)
    .ok ((report m (named x.tmgi)).goto .exit)
  else .ok ((report m failed).goto .exit)

/-- `app_state_create_tmgi`, `app_state_delete_tmgi` and `app_state_exit`. The last one ends the
process with a status of 1, whatever the result was. -/
def appState (options : TmgiToolOptions) :
    Handler AppState LocalEvent NetworkEvent ToolWorld Failure
  | .createTmgi, .library e, m => callLibrary (fun w => networkStep w e) m
  | .createTmgi, .entry, m => .ok (m.post .tmgiAllocate)
  | .createTmgi, .own .tmgiAllocate, m => appTmgiAllocate m
  | .createTmgi, .own (.tmgiAllocated t result problem), m =>
      finish m t (result == .ogsOk) .created (.allocationFailed problem)
  | .deleteTmgi, .library e, m => callLibrary (fun w => networkStep w e) m
  | .deleteTmgi, .entry, m => .ok (m.post .tmgiDeallocate)
  | .deleteTmgi, .own .tmgiDeallocate, m => appTmgiDeallocate options m
  | .deleteTmgi, .own (.tmgiDeallocated t result problem), m =>
      finish m t (result == .ogsDone) .deleted (.deallocationFailed problem)
  | .exit, .entry, m => .ok { m with exited := some 1 }
  | _, .own e, m => .ok (report m (.unexpected e))
  | _, _, m => .ok m

/-- The state that `app_state_init` goes to. -/
def firstState (options : TmgiToolOptions) : AppState :=
  if options.deleteTmgi then .deleteTmgi else .createTmgi

def init (options : TmgiToolOptions) (takes : Bool) : Except Failure Tool :=
  appState options (firstState options) .entry
    { state := firstState options, world := {}, takes := takes }

/-- A run from the start; the first flag says whether the queue takes the first event. -/
def run (options : TmgiToolOptions) (takes : Bool) (es : List ToolEvent) : Except Failure Tool := do
  let m ← init options takes
  es.foldlM (step (appState options)) m

/-! ## The request -/

/-- The object that the tool makes. -/
def toolTmgi (options : TmgiToolOptions) : PrivTmgi :=
  if options.deleteTmgi then
    { tmgiSetPlmn (code16 (options.mcc.getD "")) (code16 (options.mnc.getD ""))
        (tmgiSetMbsServiceId options.mbsServiceId {}) with
      callback := some (appTmgiDeallocateCb 1)
      sbiObject := some 2 }
  else { callback := some appTmgiAllocateCb, sbiObject := some 2 }

def toolRequest (options : TmgiToolOptions) : Request :=
  if options.deleteTmgi then .tmgiDeallocate [(toolTmgi options).tmgi] else .tmgiAllocate 1 []

def toolXact (options : TmgiToolOptions) : Xact :=
  { id := 3, sbiObject := 2, requester := .tmgis [1], request := toolRequest options }

/-- What the tool is told of its request. -/
inductive Told where
  | granted (mbsServiceId : Option String)
  | released
  | failed (problem : Option ProblemDetails)
  deriving DecidableEq, Repr

/-- What an answer tells. An allocation that is refused, or granted without a TMGI, tells
nothing. -/
def answer (options : TmgiToolOptions) (rsp : Response) : Option Told :=
  if rsp.parsed = false then some (.failed none)
  else if options.deleteTmgi then
    some (if isSuccess rsp.resStatus then .released else .failed rsp.problemDetails)
  else if isSuccess rsp.resStatus then
    (reachedTmgis rsp).head?.map fun api => .granted api.mbsServiceId
  else none

/-- The report for what the tool is told. -/
def Reports (options : TmgiToolOptions) : Told → Report → Prop
  | .granted mbsServiceId, r => ∃ c, r = .created c ∧ c.mbsServiceId = mbsServiceId
  | .released, r => r = .deleted (toolTmgi options).tmgi
  | .failed problem, r => r =
      if options.deleteTmgi then .deallocationFailed problem else .allocationFailed problem

/-- The transaction is still waited for. -/
def waitsFor (m : Tool) (n : ℕ) : Bool := (m.world.consumer.findXact n).isSome

/-- An event decides the run when it ends the transaction: the tool is told, or never will be.
-/
def decides (options : TmgiToolOptions) (m : Tool) : ToolEvent → Option (Option Told)
  | .library (.discovery n found) _ => if waitsFor m n && !found then some none else none
  | .library (.response n rsp) takes =>
      if waitsFor m n then some (if takes then answer options rsp else none) else none
  | _ => none

/-! ## The stages of a run -/

variable {options : TmgiToolOptions} {m m' : Tool} {w w' : World} {told : Told} {rsp : Response}

/-- The event with which the run starts. -/
def firstEvent (options : TmgiToolOptions) : LocalEvent :=
  if options.deleteTmgi then .tmgiDeallocate else .tmgiAllocate

def lastEvent (options : TmgiToolOptions) : Told → LocalEvent
  | .granted _ => .tmgiAllocated 1 .ogsOk none
  | .released => .tmgiDeallocated 1 .ogsDone none
  | .failed problem =>
      if options.deleteTmgi then .tmgiDeallocated 1 .ogsError problem
      else .tmgiAllocated 1 .ogsError problem

structure Running (options : TmgiToolOptions) (m : Tool) : Prop where
  state : m.state = firstState options
  exited : m.exited = none
  reports : m.world.reports = []

structure Unsent (options : TmgiToolOptions) (m : Tool) : Prop extends Running options m where
  consumer : m.world.consumer = World.initial
  queue : m.queue = [] ∨ m.queue = [firstEvent options]

structure Outstanding (options : TmgiToolOptions) (w : World) : Prop where
  sent : sentOf w.log = [toolXact options]
  xacts : w.xacts = [toolXact options]
  sessions : w.mbsSessions = []
  tmgis : w.tmgis = [1]
  tmgi : w.tmgiStore 1 = some (toolTmgi options)

structure Requested (options : TmgiToolOptions) (m : Tool) : Prop extends Running options m where
  consumer : Outstanding options m.world.consumer
  queue : m.queue = []

/-- Nothing is left that could tell the tool anything. -/
structure Lost (options : TmgiToolOptions) (m : Tool) : Prop extends Running options m where
  sent : sentOf m.world.consumer.log = [toolXact options]
  xacts : m.world.consumer.xacts = []
  queue : m.queue = []

/-- The contents of the object once the tool has been told. -/
def Contents (options : TmgiToolOptions) : Told → Tmgi → Prop
  | .granted mbsServiceId, c => c.mbsServiceId = mbsServiceId
  | .released, c => c = (toolTmgi options).tmgi
  | .failed _, _ => True

structure Announced (options : TmgiToolOptions) (told : Told) (m : Tool) : Prop
    extends Running options m where
  sent : sentOf m.world.consumer.log = [toolXact options]
  xacts : m.world.consumer.xacts = []
  answered : ∃ rsp, answer options rsp = some told
  queue : ∃ rest, m.queue = lastEvent options told :: rest
  tmgi : ∃ x, m.world.consumer.tmgiStore 1 = some x ∧ Contents options told x.tmgi

structure Ended (options : TmgiToolOptions) (told : Told) (m : Tool) : Prop where
  sent : sentOf m.world.consumer.log = [toolXact options]
  exited : m.exited = some 1
  reports : ∃ r, m.world.reports = [r] ∧ Reports options told r

def Waiting (options : TmgiToolOptions) (m : Tool) : Prop := Unsent options m ∨ Requested options m

def Decided (options : TmgiToolOptions) : Option Told → Tool → Prop
  | none, m => Lost options m
  | some told, m => Announced options told m ∨ Ended options told m

/-! ## Calls that tell nothing -/

theorem callLibrary_eq {call : World → Except Fault World} (new : List Observation)
    (hcall : call m.world.consumer = .ok w) (hlog : w.log = new ++ m.world.consumer.log) :
    callLibrary call m = .ok (Loop.postAll { m with world := { m.world with consumer := w } }
      (new.reverse.filterMap sentByCallback)) := by
  rw [callLibrary, hcall, ← observedSince_append, ← hlog]
  rfl

/-- At most an observation is added, and it is no call of the tool. -/
inductive Silent (w : World) : World → Prop where
  | same : Silent w w
  | say (o : Observation) (hcallback : sentByCallback o = none) (hsent : sentXact o = none) :
      Silent w (w.say o)

theorem Silent.sentOf_eq (h : Silent w w') : sentOf w'.log = sentOf w.log := by
  cases h with
  | same => rfl
  | say o hcallback hsent =>
      change sentOf ([o] ++ w.log) = sentOf w.log
      rw [sentOf_append, sentOf_singleton_of_none hsent, List.append_nil]

theorem callLibrary_silent {call : World → Except Fault World}
    (hcall : call m.world.consumer = .ok w) (h : Silent m.world.consumer w) :
    callLibrary call m = .ok { m with world := { m.world with consumer := w } } := by
  cases h with
  | same => exact callLibrary_eq [] hcall rfl
  | say o hcallback hsent =>
      refine (callLibrary_eq [o] hcall rfl).trans ?_
      rw [List.reverse_singleton, List.filterMap_cons_none hcallback]
      rfl

/-- Without a transaction nothing happens. -/
theorem networkStep_of_idle (hxacts : w.xacts = []) (e : NetworkEvent) :
    ∃ w', networkStep w e = .ok w' ∧ Silent w w' := by
  have hnone : ∀ n, w.findXact n = none := by
    intro n
    rw [World.findXact, hxacts]
    rfl
  cases e with
  | discovery n found =>
      refine ⟨w, ?_, .same⟩
      rw [networkStep, processDiscovery, hnone]
  | response n rsp =>
      cases hsent : w.findSent n with
      | none =>
          refine ⟨w, ?_, .same⟩
          rw [networkStep, processResponse, hsent]
      | some x =>
          refine ⟨w.say (.answered x rsp), ?_, .say _ rfl rfl⟩
          have hfind : (w.say (.answered x rsp)).findXact n = none := hnone n
          rw [networkStep, processResponse, hsent]
          simp only [hfind]
  | timeout n =>
      refine ⟨w, ?_, .same⟩
      rw [networkStep, processTimeout, hnone]

namespace Outstanding

theorem findXact_self (h : Outstanding options w) : w.findXact 3 = some (toolXact options) := by
  rw [World.findXact, h.xacts]
  rfl

theorem findXact_of_ne (h : Outstanding options w) {n : ℕ} (hn : n ≠ 3) : w.findXact n = none := by
  have hid : ¬(toolXact options).id = n := hn.symm
  rw [World.findXact, h.xacts]
  simp [hid]

theorem isSome_findXact_iff (h : Outstanding options w) {n : ℕ} :
    (w.findXact n).isSome = true ↔ n = 3 := by
  by_cases hn : n = 3
  · subst hn
    simp [h.findXact_self]
  · simp [h.findXact_of_ne hn, hn]

theorem findSent (h : Outstanding options w) : w.findSent 3 = some (toolXact options) := by
  have hsome : (w.findSent 3).isSome := by
    rw [World.findSent, List.findSome?_isSome_iff]
    have hmem : toolXact options ∈ sentOf w.log := by
      rw [h.sent]
      exact List.mem_singleton_self _
    exact ⟨.sent (toolXact options), mem_sentOf.1 hmem, rfl⟩
  obtain ⟨y, hy⟩ := Option.isSome_iff_exists.1 hsome
  have hmem := (findSent_eq_some hy).1
  rw [h.sent, List.mem_singleton] at hmem
  rw [hy, hmem]

theorem findSent_of_ne (h : Outstanding options w) {n : ℕ} (hn : n ≠ 3) : w.findSent n = none := by
  cases hfind : w.findSent n with
  | none => rfl
  | some y =>
      obtain ⟨hmem, hid⟩ := findSent_eq_some hfind
      rw [h.sent, List.mem_singleton] at hmem
      rw [hmem] at hid
      exact absurd hid.symm hn

theorem toSession (h : Outstanding options w) (o : Ref) : contextSbiObjectToSession w o = none := by
  rw [contextSbiObjectToSession, h.sessions]
  rfl

theorem toTmgi (h : Outstanding options w) : contextSbiObjectToTmgi w 2 = some 1 := by
  rw [contextSbiObjectToTmgi, h.tmgis]
  have hsbi : (toolTmgi options).sbiObject = some 2 := by
    unfold toolTmgi
    split <;> rfl
  simp [h.tmgi, hsbi]

theorem say (h : Outstanding options w) {o : Observation} (ho : sentXact o = none) :
    Outstanding options (w.say o) := by
  refine ⟨?_, h.xacts, h.sessions, h.tmgis, h.tmgi⟩
  change sentOf ([o] ++ w.log) = _
  rw [sentOf_append, sentOf_singleton_of_none ho, List.append_nil]
  exact h.sent

end Outstanding

/-- An event that does not end the transaction, as a timeout does not. -/
theorem networkStep_waits (h : Outstanding options m.world.consumer) {e : NetworkEvent}
    {takes : Bool} (hdecides : decides options m (.library e takes) = none) :
    ∃ w', networkStep m.world.consumer e = .ok w' ∧ Silent m.world.consumer w' := by
  cases e with
  | discovery n found =>
      refine ⟨m.world.consumer, ?_, .same⟩
      by_cases hn : n = 3
      · subst hn
        have hfound : found = true := by
          simpa [decides, waitsFor, h.findXact_self] using hdecides
        have hsbi : (toolXact options).sbiObject = 2 := rfl
        rw [networkStep, processDiscovery, h.findXact_self]
        simp only [hsbi, h.toTmgi, hfound]
        simp
      · rw [networkStep, processDiscovery, h.findXact_of_ne hn]
  | response n rsp =>
      by_cases hn : n = 3
      · subst hn
        simp [decides, waitsFor, h.findXact_self] at hdecides
      · refine ⟨m.world.consumer, ?_, .same⟩
        rw [networkStep, processResponse, h.findSent_of_ne hn]
  | timeout n =>
      by_cases hn : n = 3
      · subst hn
        refine ⟨_, ?_, .say (.timedOut (toolXact options)) rfl rfl⟩
        exact processTimeout_none (x := toolXact options) h.findXact_self (h.toSession _)
      · refine ⟨m.world.consumer, ?_, .same⟩
        rw [networkStep, processTimeout, h.findXact_of_ne hn]

/-! ## Answers -/

/-- The transaction has ended, and the events that were sent in it are all the same. -/
structure Ends (w : World) (e : LocalEvent) (k : ℕ) (w' : World) : Prop where
  xacts : w'.xacts = []
  log : ∃ new, w'.log = new ++ w.log ∧ sentOf new = [] ∧
    new.filterMap sentByCallback = List.replicate k e

theorem finishEvent_ends {e : LocalEvent} {k : ℕ} {v : World} (held : Option Ref)
    (hxacts : v.xacts = [toolXact options]) (hlog : ∃ new, v.log = new ++ w.log ∧ sentOf new = [] ∧
      new.filterMap sentByCallback = List.replicate k e) :
    Ends w e k (finishEvent 3 held v) ∧ (finishEvent 3 held v).tmgiStore = v.tmgiStore := by
  have hremoved : (v.removeXact 3).xacts = [] := by
    rw [World.removeXact, hxacts]
    rfl
  have hdrop : (finishEvent 3 held v).xacts = [] ∧ (finishEvent 3 held v).log = v.log := by
    rw [finishEvent]
    cases held with
    | none => exact ⟨hremoved, rfl⟩
    | some o =>
        simp only [World.refCountSbiObjectUnref]
        split
        · simp only [World.sbiXactRemoveAll, hremoved]
          exact ⟨rfl, rfl⟩
        · exact ⟨hremoved, rfl⟩
  refine ⟨⟨hdrop.1, ?_⟩, World.refCountSbiObjectUnref_tmgiStore _ _⟩
  rw [hdrop.2]
  exact hlog

/-- Callbacks of the only TMGI, and the object as it is after them. -/
structure Called (w : World) (e : LocalEvent) (k : ℕ) (y : PrivTmgi) (v : World) : Prop where
  log : ∃ new, v.log = new ++ w.log ∧ sentOf new = [] ∧
    new.filterMap sentByCallback = List.replicate k e
  xacts : v.xacts = w.xacts
  tmgis : v.tmgis = w.tmgis
  tmgi : v.tmgiStore 1 = some y

namespace Called

variable {e : LocalEvent} {k l : ℕ} {y z : PrivTmgi} {u v : World}

theorem refl (hy : w.tmgiStore 1 = some y) : Called w e 0 y w :=
  ⟨⟨[], rfl, rfl, rfl⟩, rfl, rfl, hy⟩

theorem trans (h₁ : Called u e k y v) (h₂ : Called v e l z w) : Called u e (l + k) z w := by
  obtain ⟨new₁, hlog₁, hsent₁, hcalls₁⟩ := h₁.log
  obtain ⟨new₂, hlog₂, hsent₂, hcalls₂⟩ := h₂.log
  refine ⟨⟨new₂ ++ new₁, ?_, ?_, ?_⟩, h₂.xacts.trans h₁.xacts, h₂.tmgis.trans h₁.tmgis, h₂.tmgi⟩
  · rw [hlog₂, hlog₁, List.append_assoc]
  · rw [sentOf_append, hsent₁, hsent₂, List.append_nil]
  · rw [List.filterMap_append, hcalls₁, hcalls₂, List.replicate_append_replicate]

theorem tmgiDoCallback {cb : ResultCallback} (result : CallbackResult)
    (problem : Option ProblemDetails) (hy : w.tmgiStore 1 = some y) (hcb : y.callback = some cb)
    (he : sentByCallback (.tmgiCallback 3 1 cb result problem) = some e) :
    ∃ v, tmgiDoCallback w 3 1 result problem = .ok v ∧ Called w e 1 y v := by
  refine ⟨w.say (.tmgiCallback 3 1 cb result problem), ?_, ⟨[_], rfl, rfl, ?_⟩, rfl, rfl, hy⟩
  · simp only [ResponseHandlers.tmgiDoCallback, bind_eq_ok, World.tmgiAt_eq_ok]
    exact ⟨y, hy, by rw [hcb]⟩
  · rw [List.filterMap_cons_some he]
    rfl

end Called

section Allocations

variable {api : ApiTmgi} {expiryTime : ℤ} {y : PrivTmgi}

theorem tmgiFind_single (htmgis : w.tmgis = [1]) (hy : w.tmgiStore 1 = some y) :
    tmgiFindMatchingOpenapiType w api = if tmgiMatches api y = true then some 1 else none := by
  rw [tmgiFindMatchingOpenapiType, htmgis]
  by_cases hmatch : tmgiMatches api y = true
  · simp [hy, hmatch]
  · simp [hy, hmatch]

theorem mbsServiceId_granted : (granted api expiryTime y).tmgi.mbsServiceId = api.mbsServiceId := by
  change (tmgiSetPlmn _ _ (tmgiSetMbsServiceId _ y)).tmgi.mbsServiceId = _
  rw [tmgiSetPlmn_mbsServiceId]
  rfl

variable (expiryTime) in
theorem granted_called (htmgis : w.tmgis = [1]) (hy : w.tmgiStore 1 = some y)
    (hcb : y.callback = some appTmgiAllocateCb) (hmatch : tmgiMatches api y = true) :
    ∃ v, takeAllocated 3 expiryTime w api = .ok v ∧
      Called w (.tmgiAllocated 1 .ogsOk none) 1 (granted api expiryTime y) v := by
  have hafter : (((w.modifyTmgi 1 (tmgiSetMbsServiceId api.mbsServiceId)).modifyTmgi 1
      (tmgiSetPlmn api.mccNumber api.mncNumber)).modifyTmgi 1
        (tmgiSetExpiryTime expiryTime)).tmgiStore 1 = some (granted api expiryTime y) := by
    simp only [World.modifyTmgi, Store.modify_self, hy, Option.map_some]
    rfl
  obtain ⟨v, hv, hcalled⟩ := Called.tmgiDoCallback .ogsOk none hafter hcb rfl
  refine ⟨v, ?_, hcalled.log, hcalled.xacts, hcalled.tmgis, hcalled.tmgi⟩
  rw [takeAllocated, tmgiFind_single htmgis hy, if_pos hmatch]
  exact hv

/-- An object that has been allocated keeps its service id. -/
theorem mbsServiceId_of_matches (hallocated : y.allocated = true)
    (hmatch : tmgiMatches api y = true) : api.mbsServiceId = y.tmgi.mbsServiceId := by
  have hid := (Bool.and_eq_true _ _).mp hmatch |>.1
  cases hapi : api.mbsServiceId <;> cases hown : y.tmgi.mbsServiceId <;>
    simp_all

variable (expiryTime) in
/-- By induction on the TMGIs of the answer, each of which the object may take. -/
theorem called_takeAllocated (apis : List ApiTmgi) (htmgis : w.tmgis = [1])
    (hy : w.tmgiStore 1 = some y) (hcb : y.callback = some appTmgiAllocateCb)
    (hallocated : y.allocated = true) :
    ∃ v k z, apis.foldlM (takeAllocated 3 expiryTime) w = .ok v ∧
      Called w (.tmgiAllocated 1 .ogsOk none) k z v ∧
        z.tmgi.mbsServiceId = y.tmgi.mbsServiceId := by
  induction apis generalizing w y with
  | nil => exact ⟨w, 0, y, rfl, Called.refl hy, rfl⟩
  | cons api apis ih =>
      by_cases hmatch : tmgiMatches api y = true
      · obtain ⟨u, hu, hcalled⟩ := granted_called expiryTime htmgis hy hcb hmatch
        obtain ⟨v, k, z, hv, hrest, hid⟩ := ih (hcalled.tmgis.trans htmgis) hcalled.tmgi hcb rfl
        refine ⟨v, k + 1, z, ?_, hcalled.trans hrest, ?_⟩
        · rw [List.foldlM_cons, hu]
          exact hv
        · rw [hid, mbsServiceId_granted, mbsServiceId_of_matches hallocated hmatch]
      · obtain ⟨v, k, z, hv, hrest, hid⟩ := ih htmgis hy hcb hallocated
        refine ⟨v, k, z, ?_, hrest, hid⟩
        have hskip : takeAllocated 3 expiryTime w api = .ok w := by
          rw [takeAllocated, tmgiFind_single htmgis hy, if_neg hmatch]
        rw [List.foldlM_cons, hskip]
        exact hv

end Allocations

theorem handlingState_log (w : World) (x : Xact) (rsp : Response) :
    ∃ start, (handlingState w x rsp).log = start ++ w.log ∧ sentOf start = [] ∧
      start.filterMap sentByCallback = [] :=
  ⟨[_, _], rfl, rfl, rfl⟩

/-- What an answer has done to the library when the event has been handled. -/
structure Answered (options : TmgiToolOptions) (rsp : Response) (w w' : World) : Prop where
  untold : answer options rsp = none → Ends w (firstEvent options) 0 w'
  told : ∀ told, answer options rsp = some told →
    (∃ k, Ends w (lastEvent options told) (k + 1) w') ∧
      ∃ y, w'.tmgiStore 1 = some y ∧ Contents options told y.tmgi

/-- The event is ended after callbacks that told what the answer says. -/
theorem Answered.of_told {v u : World} {y : PrivTmgi} {k : ℕ} (h : Outstanding options w)
    (hanswer : answer options rsp = some told)
    (hcalled : Called (handlingState w (toolXact options) rsp) (lastEvent options told) (k + 1) y v)
    (hcontents : Contents options told y.tmgi) (hlog : u.log = v.log) (hxacts : u.xacts = v.xacts)
    (hstore : u.tmgiStore = v.tmgiStore) (held : Option Ref) :
    Answered options rsp w (finishEvent 3 held u) := by
  obtain ⟨new, hnew, hsent, hcalls⟩ := hcalled.log
  obtain ⟨start, hstart, hstartSent, hstartCalls⟩ := handlingState_log w (toolXact options) rsp
  obtain ⟨hends, hfinal⟩ : Ends w (lastEvent options told) (k + 1) (finishEvent 3 held u) ∧
      (finishEvent 3 held u).tmgiStore = u.tmgiStore := by
    refine finishEvent_ends held ((hxacts.trans hcalled.xacts).trans h.xacts)
      ⟨new ++ start, ?_, ?_, ?_⟩
    · rw [hlog, hnew, hstart, List.append_assoc]
    · rw [sentOf_append, hsent, hstartSent]
      rfl
    · rw [List.filterMap_append, hcalls, hstartCalls, List.append_nil]
  constructor
  · intro hnone
    rw [hanswer] at hnone
    cases hnone
  · intro told' htold
    rw [hanswer] at htold
    obtain rfl := Option.some.inj htold
    exact ⟨⟨k, hends⟩, y, by rw [hfinal, hstore]; exact hcalled.tmgi, hcontents⟩

theorem Answered.of_untold {v : World} (h : Outstanding options w)
    (hanswer : answer options rsp = none) (hxacts : v.xacts = w.xacts)
    (hlog : v.log = (handlingState w (toolXact options) rsp).log) (held : Option Ref) :
    Answered options rsp w (finishEvent 3 held v) := by
  obtain ⟨start, hstart, hsent, hcalls⟩ := handlingState_log w (toolXact options) rsp
  refine ⟨fun _ => ?_, fun told htold => ?_⟩
  · refine (finishEvent_ends (k := 0) held (hxacts.trans h.xacts) ⟨start, ?_, hsent, hcalls⟩).1
    rw [hlog, hstart]
  · rw [hanswer] at htold
    cases htold

theorem toolXact_isTmgi : (toolXact options).request.isTmgi = true := by
  unfold toolXact toolRequest
  split <;> rfl

theorem processResponse_tool (h : Outstanding options w) : processResponse w 3 rsp =
    processTmgiResponse (handlingState w (toolXact options) rsp) (toolXact options) (some 1) rsp >>=
      fun v => .ok (finishEvent 3 (heldByTmgiResponse (handlingState w (toolXact options) rsp)
        (toolXact options) (some 1) rsp) v) := by
  have hfound : contextSbiObjectToTmgi w (toolXact options).sbiObject = some 1 := h.toTmgi
  rw [← hfound]
  refine processResponse_tmgi h.findSent h.findXact_self toolXact_isTmgi ?_
  rw [hfound]
  rintro ⟨-, hnone⟩
  cases hnone

/-- The callback that the object was registered with. -/
theorem toolTmgi_callback : (toolTmgi options).callback =
    some (if options.deleteTmgi then appTmgiDeallocateCb 1 else appTmgiAllocateCb) := by
  unfold toolTmgi
  split <;> rfl

theorem lastEvent_failed (problem : Option ProblemDetails) :
    sentByCallback (.tmgiCallback 3 1
      (if options.deleteTmgi then appTmgiDeallocateCb 1 else appTmgiAllocateCb) .ogsError problem) =
        some (lastEvent options (.failed problem)) := by
  rw [lastEvent]
  cases options.deleteTmgi <;> rfl

/-- The answer to an allocation. -/
theorem allocation_answered (h : Outstanding options w) (hmode : options.deleteTmgi = false)
    (hparsed : rsp.parsed = true) :
    ∃ v, processTmgiResponse (handlingState w (toolXact options) rsp) (toolXact options) (some 1) rsp =
      .ok v ∧ ∀ held, Answered options rsp w (finishEvent 3 held v) := by
  have hrequest : (toolXact options).request = .tmgiAllocate 1 [] := by
    rw [toolXact, toolRequest, hmode]
    rfl
  have hprocess : processTmgiResponse (handlingState w (toolXact options) rsp) (toolXact options)
      (some 1) rsp = nmbsmfTmgiAllocated (handlingState w (toolXact options) rsp)
        (toolXact options) rsp := by
    simp [processTmgiResponse, hparsed, hrequest, Request.method]
  have htmgi : toolTmgi options = { callback := some appTmgiAllocateCb, sbiObject := some 2 } := by
    rw [toolTmgi, hmode]
    rfl
  rw [hprocess]
  by_cases hok : isSuccess rsp.resStatus = true
  · rw [nmbsmfTmgiAllocated_of_success hok]
    cases hreached : reachedTmgis rsp with
    | nil =>
        refine ⟨handlingState w (toolXact options) rsp, rfl, fun held =>
          Answered.of_untold (v := handlingState w (toolXact options) rsp) h ?_ rfl rfl held⟩
        simp [answer, hparsed, hmode, hok, hreached]
    | cons api apis =>
        have hy : (handlingState w (toolXact options) rsp).tmgiStore 1 = some (toolTmgi options) :=
          h.tmgi
        have hmatch : tmgiMatches api (toolTmgi options) = true := by
          rw [htmgi]
          unfold tmgiMatches
          cases api.mbsServiceId <;> rfl
        obtain ⟨u, hu, hfirst⟩ := granted_called (w := handlingState w (toolXact options) rsp)
          (expiryOf rsp) h.tmgis hy (by rw [htmgi]) hmatch
        obtain ⟨v, k, z, hv, hrest, hid⟩ := called_takeAllocated (expiryOf rsp) apis
          (hfirst.tmgis.trans h.tmgis) hfirst.tmgi (by rw [htmgi]; rfl) rfl
        have hanswer : answer options rsp = some (.granted api.mbsServiceId) := by
          simp [answer, hparsed, hmode, hok, hreached]
        refine ⟨v, ?_, fun held => Answered.of_told h hanswer (hfirst.trans hrest) ?_
          rfl rfl rfl held⟩
        · rw [List.foldlM_cons, show (toolXact options).id = 3 from rfl, hu]
          exact hv
        · rw [Contents, hid, mbsServiceId_granted]
  · refine ⟨handlingState w (toolXact options) rsp, ?_, fun held =>
      Answered.of_untold (v := handlingState w (toolXact options) rsp) h ?_ rfl rfl held⟩
    · rw [nmbsmfTmgiAllocated, if_neg hok, hrequest]
      rfl
    · simp [answer, hparsed, hmode, hok]

/-- A TMGI is found by its own contents. -/
theorem tmgiMatches_self {y : PrivTmgi} : tmgiMatches (tmgiToOpenapiType y.tmgi) y = true := by
  refine tmgiMatches_of_identity ?_
  rfl

/-- The answer to a deallocation. -/
theorem deallocation_answered (h : Outstanding options w) (hmode : options.deleteTmgi = true)
    (hparsed : rsp.parsed = true) :
    ∃ v, processTmgiResponse (handlingState w (toolXact options) rsp) (toolXact options) (some 1) rsp =
      .ok v ∧ ∀ held, Answered options rsp w (finishEvent 3 held v) := by
  have hrequest : (toolXact options).request = .tmgiDeallocate [(toolTmgi options).tmgi] := by
    rw [toolXact, toolRequest, hmode]
    rfl
  have hy : (handlingState w (toolXact options) rsp).tmgiStore 1 = some (toolTmgi options) := h.tmgi
  have hcb : (toolTmgi options).callback = some (appTmgiDeallocateCb 1) := by
    rw [toolTmgi_callback, hmode]
    rfl
  have hsbi : (toolTmgi options).sbiObject = some 2 := by
    unfold toolTmgi
    split <;> rfl
  have hfind : ∀ u : World, u.tmgis = [1] → u.tmgiStore 1 = some (toolTmgi options) →
      tmgiFindMatchingOpenapiType u (tmgiToOpenapiType (toolTmgi options).tmgi) = some 1 := by
    intro u htmgis hu
    rw [tmgiFind_single htmgis hu, if_pos tmgiMatches_self]
  obtain ⟨told, hanswer⟩ : ∃ told, answer options rsp = some told := by
    simp [answer, hparsed, hmode]
  have hresult : ∃ result problem, sentByCallback (.tmgiCallback 3 1 (appTmgiDeallocateCb 1) result
      problem) = some (lastEvent options told) ∧ ∀ u : World,
        (if isSuccess rsp.resStatus then tmgiDoCallback u 3 1 .ogsDone none
          else tmgiDoCallback u 3 1 .ogsError rsp.problemDetails) =
        tmgiDoCallback u 3 1 result problem := by
    by_cases hok : isSuccess rsp.resStatus = true
    · refine ⟨.ogsDone, none, ?_, fun u => if_pos hok⟩
      obtain rfl : Told.released = told := by simpa [answer, hparsed, hmode, hok] using hanswer
      rfl
    · refine ⟨.ogsError, rsp.problemDetails, ?_, fun u => if_neg hok⟩
      obtain rfl : Told.failed rsp.problemDetails = told := by
        simpa [answer, hparsed, hmode, hok] using hanswer
      rw [lastEvent, hmode]
      rfl
  obtain ⟨result, problem, he, hsame⟩ := hresult
  obtain ⟨v, hv, hcalled⟩ := Called.tmgiDoCallback (w := (handlingState w (toolXact options)
    rsp).refCountSbiObjectRef (some 2)) result problem hy hcb he
  have hmem : 1 ∈ v.tmgis := by
    rw [hcalled.tmgis]
    change 1 ∈ w.tmgis
    rw [h.tmgis]
    exact List.mem_singleton_self 1
  refine ⟨{ v with tmgis := v.tmgis.erase 1 }, ?_, fun held => ?_⟩
  · simp only [processTmgiResponse, hparsed, hrequest, Request.method, Bool.not_true,
      Bool.false_eq_true, if_false, bind_eq_ok, World.tmgiAt_eq_ok]
    refine ⟨toolTmgi options, hy, ?_⟩
    rw [nmbsmfTmgiDeallocated, hrequest, requestTmgis, List.foldlM_cons, hsbi, bind_eq_ok]
    refine ⟨_, ?_, rfl⟩
    have hfound := hfind ((handlingState w (toolXact options) rsp).refCountSbiObjectRef (some 2))
      h.tmgis hy
    rw [doTmgiRemove, hfound]
    simp only [bind_eq_ok]
    exact ⟨v, (hsame _).trans hv, if_pos hmem⟩
  · refine Answered.of_told (u := { v with tmgis := v.tmgis.erase 1 }) (k := 0) h hanswer
      ⟨hcalled.log, hcalled.xacts, hcalled.tmgis, hcalled.tmgi⟩ ?_ rfl rfl rfl held
    by_cases hok : isSuccess rsp.resStatus = true
    · obtain rfl : Told.released = told := by simpa [answer, hparsed, hmode, hok] using hanswer
      rfl
    · obtain rfl : Told.failed rsp.problemDetails = told := by
        simpa [answer, hparsed, hmode, hok] using hanswer
      trivial

theorem unparsed_answered (h : Outstanding options w) (hparsed : rsp.parsed = false) :
    ∃ v, processTmgiResponse (handlingState w (toolXact options) rsp) (toolXact options) (some 1) rsp =
      .ok v ∧ ∀ held, Answered options rsp w (finishEvent 3 held v) := by
  have hanswer : answer options rsp = some (.failed none) := by simp [answer, hparsed]
  obtain ⟨v, hv, hcalled⟩ := Called.tmgiDoCallback (w := handlingState w (toolXact options) rsp)
    .ogsError none h.tmgi toolTmgi_callback (lastEvent_failed none)
  refine ⟨v, ?_, fun held => Answered.of_told (k := 0) h hanswer hcalled trivial rfl rfl rfl held⟩
  rw [processTmgiResponse, hparsed]
  exact hv

/-- The answer to the request is handled. -/
theorem processResponse_answered (h : Outstanding options w) (rsp : Response) :
    ∃ w', processResponse w 3 rsp = .ok w' ∧ Answered options rsp w w' := by
  obtain ⟨v, hv, hanswered⟩ : ∃ v, processTmgiResponse (handlingState w (toolXact options) rsp)
      (toolXact options) (some 1) rsp = .ok v ∧
        ∀ held, Answered options rsp w (finishEvent 3 held v) := by
    cases hparsed : rsp.parsed with
    | false => exact unparsed_answered h hparsed
    | true =>
        cases hmode : options.deleteTmgi with
        | false => exact allocation_answered h hmode hparsed
        | true => exact deallocation_answered h hmode hparsed
  exact ⟨_, by rw [processResponse_tool h, hv]; rfl, hanswered _⟩

/-! ## The request is sent -/

structure CodesGiven (options : TmgiToolOptions) (mcc mnc : String) : Prop where
  givenMcc : options.mcc = some mcc
  givenMnc : options.mnc = some mnc
  isCodeMcc : IsCode 3 mcc
  isCodeMnc : IsCode 2 mnc ∨ IsCode 3 mnc

theorem store_codes {o o' : TmgiToolOptions} {a : TmgiToolArgument} (h : o.store a = .ok o') :
    (o'.mcc = o.mcc ∧ o'.mnc = o.mnc) ∨ ∃ mcc mnc, CodesGiven o' mcc mnc := by
  cases a with
  | plmn value =>
      simp only [TmgiToolOptions.store, bind_eq_ok] at h
      obtain ⟨codes, hcodes, ho'⟩ := h
      obtain rfl := Except.ok.inj ho'
      obtain ⟨hmcc, hmnc, -⟩ := splitMccAndMnc_eq_ok.1 hcodes
      exact .inr ⟨codes.1, codes.2, rfl, rfl, hmcc, hmnc⟩
  | nrfAddress value =>
      simp only [TmgiToolOptions.store, bind_eq_ok] at h
      obtain ⟨endpoint, -, ho'⟩ := h
      obtain rfl := Except.ok.inj ho'
      exact .inl ⟨rfl, rfl⟩
  | scpAddress value =>
      simp only [TmgiToolOptions.store, bind_eq_ok] at h
      obtain ⟨endpoint, -, ho'⟩ := h
      obtain rfl := Except.ok.inj ho'
      exact .inl ⟨rfl, rfl⟩
  | delete =>
      obtain rfl := Except.ok.inj h
      exact .inl ⟨rfl, rfl⟩
  | mbsServiceId value =>
      obtain rfl := Except.ok.inj h
      exact .inl ⟨rfl, rfl⟩

/-- A command line that asks for a deletion gives the two codes of a PLMN. -/
theorem codesGiven {command : String} {args : List (Argument TmgiToolArgument)}
    {operands : List String} {line : CommandLine TmgiToolOptions}
    (h : tmgiToolOptions command args operands = .ok line) (hdelete : line.options.deleteTmgi = true) :
    ∃ mcc mnc, CodesGiven line.options mcc mnc := by
  obtain ⟨hkept, hcheck⟩ := parse_keeps (fun o : TmgiToolOptions => (o.mcc = none ∧ o.mnc = none) ∨
    ∃ mcc mnc, CodesGiven o mcc mnc) (.inl ⟨rfl, rfl⟩) (fun o a o' ho hstore => by
      rcases store_codes hstore with ⟨hmcc, hmnc⟩ | hcodes
      · rcases ho with ⟨hmcc', hmnc'⟩ | ⟨mcc, mnc, hcodes⟩
        · exact .inl ⟨hmcc.trans hmcc', hmnc.trans hmnc'⟩
        · exact .inr ⟨mcc, mnc, hmcc.trans hcodes.givenMcc, hmnc.trans hcodes.givenMnc,
            hcodes.isCodeMcc, hcodes.isCodeMnc⟩
      · exact .inr hcodes) h
  refine hkept.resolve_left ?_
  rintro ⟨hmcc, -⟩
  rw [TmgiToolOptions.check, if_pos ⟨hdelete, .inr (.inl hmcc)⟩] at hcheck
  cases hcheck

/-- The start of a run sends the first event of the tool to itself. -/
theorem init_eq (options : TmgiToolOptions) (takes : Bool) : ∃ m, init options takes = .ok m ∧ Unsent options m := by
  refine ⟨Loop.post { state := firstState options, world := {}, takes := takes }
    (firstEvent options), ?_, ?_⟩
  · rw [init, firstState, firstEvent]
    cases options.deleteTmgi <;> rfl
  · cases takes with
    | false => exact ⟨⟨rfl, rfl, rfl⟩, rfl, .inl rfl⟩
    | true => exact ⟨⟨rfl, rfl, rfl⟩, rfl, .inr rfl⟩

/-- The call of the library that sends the request. -/
def requestCall (options : TmgiToolOptions) (w : World) : Except Fault World :=
  if options.deleteTmgi then
    (deallocateCalls options.mbsServiceId (options.mcc.getD "") (options.mnc.getD "") w.next).foldlM
      tmgiStep w
  else tmgiStep w (.create (some appTmgiAllocateCb))

theorem requestCall_initial (options : TmgiToolOptions) :
    ∃ w, requestCall options World.initial = .ok w ∧ w.log = [.sent (toolXact options)] ∧
      Outstanding options w := by
  cases hmode : options.deleteTmgi with
  | false =>
      have htmgi : toolTmgi options = { callback := some appTmgiAllocateCb, sbiObject := some 2 } := by
        rw [toolTmgi, hmode]
        rfl
      have hxact : toolXact options =
          { id := 3, sbiObject := 2, requester := .tmgis [1], request := .tmgiAllocate 1 [] } := by
        rw [toolXact, toolRequest, hmode]
        rfl
      rw [requestCall, hmode, hxact]
      refine ⟨_, rfl, rfl, ?_⟩
      constructor
      · rw [hxact]; rfl
      · rw [hxact]; rfl
      · rfl
      · rfl
      · rw [htmgi]; rfl
  | true =>
      have htmgi : toolTmgi options =
          { tmgiSetPlmn (code16 (options.mcc.getD "")) (code16 (options.mnc.getD ""))
              (tmgiSetMbsServiceId options.mbsServiceId {}) with
            callback := some (appTmgiDeallocateCb 1)
            sbiObject := some 2 } := by
        rw [toolTmgi, hmode]
        rfl
      have hxact : toolXact options =
          { id := 3, sbiObject := 2, requester := .tmgis [1],
            request := .tmgiDeallocate [(toolTmgi options).tmgi] } := by
        rw [toolXact, toolRequest, hmode]
        rfl
      rw [requestCall, hmode, hxact, htmgi]
      refine ⟨_, rfl, rfl, ?_⟩
      constructor
      · rw [hxact, htmgi]; rfl
      · rw [hxact, htmgi]; rfl
      · rfl
      · rfl
      · rw [htmgi]; rfl

/-- The handler of the first event sends the request. -/
theorem firstEvent_handled (hcodes : options.deleteTmgi = true → ∃ mcc mnc, CodesGiven options mcc mnc) :
    appState options (firstState options) (.own (firstEvent options)) m =
      callLibrary (requestCall options) m := by
  cases hmode : options.deleteTmgi with
  | false =>
      have hcall : requestCall options = fun w => tmgiStep w (.create (some appTmgiAllocateCb)) := by
        funext w
        rw [requestCall, hmode]
        rfl
      rw [firstState, firstEvent, hmode, hcall]
      rfl
  | true =>
      obtain ⟨mcc, mnc, hgiven⟩ := hcodes hmode
      have hcall : requestCall options = fun w =>
          (deallocateCalls options.mbsServiceId mcc mnc w.next).foldlM tmgiStep w := by
        funext w
        rw [requestCall, hmode, hgiven.givenMcc, hgiven.givenMnc]
        rfl
      rw [firstState, firstEvent, hmode, hcall]
      change appTmgiDeallocate options m = _
      rw [appTmgiDeallocate, hgiven.givenMcc, hgiven.givenMnc]

end ServiceConsumers.TmgiTool
