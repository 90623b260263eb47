import ServiceConsumers.MbsServiceAnswers

set_option autoImplicit false

/-!
# Runs of `mbs-service-tool`

A run waits until the tool is told of its session. What it is told first decides whether it
ends; the library may tell it more.
-/

namespace ServiceConsumers.MbsServiceRuns

open MbsServiceTool MbsServiceAnswers ObjectStore PublicSessions ConsumerState
  SubscriptionOperations SessionOperations ResponseHandlers ProcessEvent TransitionRuns
  TransactionLog StepDecomposition CreateResponses CommandLines EventLoops FirstAnswers

variable {env : Environment} {options : MbsServiceToolOptions} {m m' : Tool} {w w' : World}
  {call : SessionCall} {rsp rsp' : Response} {k : ℕ} {v : Verdict} {e : NetworkEvent}

/-! ## What an event says -/

/-- The answers that the library does not survive. -/
def answerFault (env : Environment) (options : MbsServiceToolOptions) (request : Request)
    (rsp : Response) : Option Fault :=
  if rsp.parsed then
    match request with
    | .create .. =>
        if Accepts env options rsp ∧ answeredId rsp = none then some .nullMbsSessionId else none
    | .subscribe .. => subscribeFault rsp
    | _ => none
  else none

def verdictOf (env : Environment) (options : MbsServiceToolOptions) (request : Request)
    (rsp : Response) : Option Verdict :=
  if rsp.parsed then
    match request with
    | .create .. =>
        if Accepts env options rsp then
          some (if Strays options rsp then .strayed else .accepted rsp)
        else some (.failed (if isSuccess rsp.status then none else rsp.problemDetails))
    | _ => none
  else some (.failed rsp.problemDetails)

section Answers

variable {request : Request}

theorem answerFault_unparsed (hparsed : rsp.parsed = false) :
    answerFault env options request rsp = none := by
  unfold answerFault
  rw [hparsed]
  rfl

theorem verdictOf_unparsed (hparsed : rsp.parsed = false) :
    verdictOf env options request rsp = some (.failed rsp.problemDetails) := by
  unfold verdictOf
  rw [hparsed]
  rfl

theorem answerFault_create (hparsed : rsp.parsed = true) :
    answerFault env options (toolCreate env options).request rsp =
      if Accepts env options rsp ∧ answeredId rsp = none then some .nullMbsSessionId else none := by
  unfold answerFault
  rw [if_pos hparsed]
  rfl

theorem verdictOf_create (hparsed : rsp.parsed = true) :
    verdictOf env options (toolCreate env options).request rsp =
      if Accepts env options rsp then some (if Strays options rsp then .strayed else .accepted rsp)
      else some (.failed (if isSuccess rsp.status then none else rsp.problemDetails)) := by
  unfold verdictOf
  rw [if_pos hparsed]
  rfl

theorem answerFault_subscribe (hparsed : rsp.parsed = true) :
    answerFault env options (toolSubscribe env k).request rsp = subscribeFault rsp := by
  unfold answerFault
  rw [if_pos hparsed]
  rfl

theorem verdictOf_subscribe (hparsed : rsp.parsed = true) :
    verdictOf env options (toolSubscribe env k).request rsp = none := by
  unfold verdictOf
  rw [if_pos hparsed]
  rfl

end Answers

def libraryFault (env : Environment) (options : MbsServiceToolOptions) (w : World) :
    NetworkEvent → Option Fault
  | .response n rsp => (w.findXact n).bind fun x => answerFault env options x.request rsp
  | _ => none

/-- The verdict of an event of the network. -/
def verdictAt (env : Environment) (options : MbsServiceToolOptions) (w : World) :
    NetworkEvent → Option Verdict
  | .discovery .. => none
  | .timeout n => (w.findXact n).bind fun x => if x.request.isCreate then some (.failed none) else none
  | .response n rsp => (w.findXact n).bind fun x => verdictOf env options x.request rsp

/-- The event by which the tool is told. -/
def Announces : Verdict → LocalEvent → Prop
  | .accepted _, a => a = .mbsSessionCreateResult 2 .ogsOk none
  | .failed problem, a => ∃ result, result ≠ .ogsOk ∧ a = .mbsSessionCreateResult 2 result problem
  | _, _ => False

/-- The session has been accepted by this answer. -/
def Kept (env : Environment) (options : MbsServiceToolOptions) (rsp : Response) (w : World) : Prop :=
  (∃ k, Subscribing env options rsp k w) ∨ Subscribed env options rsp w

/-- What a verdict says about the library. -/
def Leaves (env : Environment) (options : MbsServiceToolOptions) : Verdict → World → Prop
  | .accepted rsp, w => Kept env options rsp w
  | .failed _, w => w.xacts = [] ∧ (Refused env options w ∨ ∃ rsp, Subscribed env options rsp w)
  | _, _ => False

/-- Where the library is once the request has been sent. -/
inductive Stage (env : Environment) (options : MbsServiceToolOptions) (w : World) : Prop where
  | outstanding (h : Outstanding env options w)
  | refused (h : Refused env options w)
  | kept {rsp : Response} (h : Kept env options rsp w)

/-- What an event of the network does where the library does not stop. -/
structure Handled (env : Environment) (options : MbsServiceToolOptions) (Stays : World → Prop)
    (w : World) (e : NetworkEvent) (w' : World) : Prop where
  stays : Stays w'
  untold : verdictAt env options w e = none → ∃ xs, Tells [] xs w w'
  told : ∀ v, verdictAt env options w e = some v →
    (∃ a xs, Tells [a] xs w w' ∧ Announces v a) ∧ Leaves env options v w'

theorem verdictAt_none (h : w.findXact (numberOf e) = none) : verdictAt env options w e = none := by
  cases e with
  | discovery n found => rfl
  | timeout n => rw [verdictAt, show w.findXact n = none from h]; rfl
  | response n rsp => rw [verdictAt, show w.findXact n = none from h]; rfl

theorem libraryFault_none (h : w.findXact (numberOf e) = none) : libraryFault env options w e = none := by
  cases e with
  | discovery n found => rfl
  | timeout n => rfl
  | response n rsp => rw [libraryFault, show w.findXact n = none from h]; rfl

/-- An event without an open transaction. -/
theorem handled_unheeded {Stays : World → Prop} (hfind : w.findXact (numberOf e) = none)
    (hstays : Stays (unheeded w e)) : Handled env options Stays w e (unheeded w e) := by
  refine ⟨hstays, fun _ => ⟨[], tells_unheeded w e⟩, fun v hv => ?_⟩
  rw [verdictAt_none hfind] at hv
  cases hv

/-- The step of a stage: it fails with the fault that is foreseen, and no other. -/
def Steps (env : Environment) (options : MbsServiceToolOptions) (Stays : World → Prop) (w : World)
    (e : NetworkEvent) : Prop :=
  (∀ fault, libraryFault env options w e = some fault → networkStep w e = .error fault) ∧
    (libraryFault env options w e = none → verdictAt env options w e ≠ some .strayed →
      ∃ w', networkStep w e = .ok w' ∧ Handled env options Stays w e w')

theorem steps_unheeded {Stays : World → Prop} (hfind : w.findXact (numberOf e) = none)
    (hstays : Stays (unheeded w e)) : Steps env options Stays w e := by
  refine ⟨fun fault hfault => ?_, fun _ _ => ⟨_, networkStep_unheeded hfind,
    handled_unheeded hfind hstays⟩⟩
  rw [libraryFault_none hfind] at hfault
  cases hfault

/-- A failure that is told. -/
theorem handled_failed {Stays : World → Prop} {result : CallbackResult}
    {problem : Option ProblemDetails} {xs : List Xact}
    (hverdict : verdictAt env options w e = some (.failed problem)) (hresult : result ≠ .ogsOk)
    (htells : Tells [.mbsSessionCreateResult 2 result problem] xs w w')
    (hleaves : Leaves env options (.failed problem) w') (hstays : Stays w') :
    Handled env options Stays w e w' := by
  refine ⟨hstays, fun hnone => ?_, fun v hv => ?_⟩
  · rw [hverdict] at hnone
    cases hnone
  · obtain rfl := Option.some.inj (hverdict.symm.trans hv)
    exact ⟨⟨_, xs, htells, result, hresult, rfl⟩, hleaves⟩

theorem ogsError_ne_ok : CallbackResult.ogsError ≠ .ogsOk := by decide

/-- The create request is waited for. -/
theorem steps_outstanding (h : Outstanding env options w) (e : NetworkEvent) :
    Steps env options (Stage env options) w e := by
  by_cases hnumber : numberOf e = 4
  swap
  · exact steps_unheeded (h.sole.findXact_of_ne hnumber) (.outstanding (h.unheeded e))
  have hfind : w.findXact 4 = some (toolCreate env options) := h.sole.findXact_self
  cases e with
  | discovery n found =>
      obtain rfl : n = 4 := hnumber
      refine ⟨fun fault hfault => ?_, fun _ _ => ?_⟩
      · cases hfault
      · obtain ⟨w', hstep, htells, hstage⟩ := h.discovery found
        refine ⟨w', hstep, hstage.elim .outstanding .refused, fun _ => ⟨[], htells⟩,
          fun v hv => ?_⟩
        cases hv
  | timeout n =>
      obtain rfl : n = 4 := hnumber
      have hverdict : verdictAt env options w (.timeout 4) = some (.failed none) := by
        rw [verdictAt, hfind]
        rfl
      refine ⟨fun fault hfault => ?_, fun _ _ => ?_⟩
      · cases hfault
      · obtain ⟨w', hstep, htells, hrefused⟩ := h.timeout
        exact ⟨w', hstep, handled_failed hverdict (by decide) htells ⟨hrefused.xacts, .inl hrefused⟩
          (.refused hrefused)⟩
  | response n rsp =>
      obtain rfl : n = 4 := hnumber
      have hfault : libraryFault env options w (.response 4 rsp) =
          answerFault env options (toolCreate env options).request rsp := by
        rw [libraryFault, hfind]
        rfl
      have hverdict : verdictAt env options w (.response 4 rsp) =
          verdictOf env options (toolCreate env options).request rsp := by
        rw [verdictAt, hfind]
        rfl
      rw [Steps, hfault]
      cases hparsed : rsp.parsed with
      | false =>
          rw [answerFault_unparsed hparsed]
          rw [verdictOf_unparsed hparsed] at hverdict
          refine ⟨fun fault hsome => ?_, fun _ _ => ?_⟩
          · cases hsome
          · obtain ⟨w', hstep, htells, hrefused⟩ := h.response_unparsed hparsed
            exact ⟨w', hstep, handled_failed hverdict ogsError_ne_ok htells
              ⟨hrefused.xacts, .inl hrefused⟩ (.refused hrefused)⟩
      | true =>
          rw [answerFault_create hparsed]
          rw [verdictOf_create hparsed] at hverdict
          by_cases haccepts : Accepts env options rsp
          swap
          · refine ⟨fun fault hsome => ?_, fun _ _ => ?_⟩
            · rw [if_neg fun hboth => haccepts hboth.1] at hsome
              cases hsome
            · rw [if_neg haccepts] at hverdict
              obtain ⟨w', hstep, htells, hrefused⟩ := h.response_refused hparsed haccepts
              exact ⟨w', hstep, handled_failed hverdict ogsError_ne_ok htells
                ⟨hrefused.xacts, .inl hrefused⟩ (.refused hrefused)⟩
          rw [if_pos haccepts] at hverdict
          cases hid : answeredId rsp with
          | none =>
              rw [if_pos ⟨haccepts, rfl⟩]
              refine ⟨fun fault hsome => ?_, fun hnone => ?_⟩
              · obtain rfl := Option.some.inj hsome
                exact h.response_without_id hparsed haccepts hid
              · cases hnone
          | some answer =>
              refine ⟨fun fault hsome => ?_, fun _ hnot => ?_⟩
              · rw [if_neg] at hsome
                · cases hsome
                · rintro ⟨-, hnone⟩
                  cases hnone
              · have hstays : ¬Strays options rsp := by
                  intro hstrays
                  rw [if_pos hstrays] at hverdict
                  exact hnot hverdict
                rw [if_neg hstays] at hverdict
                obtain ⟨w', k, hstep, htells, hsubscribing⟩ :=
                  h.response_accepted hparsed haccepts hid hstays
                refine ⟨w', hstep, .kept (.inl ⟨k, hsubscribing⟩), fun hnone => ?_, fun v hv => ?_⟩
                · rw [hverdict] at hnone
                  cases hnone
                · obtain rfl := Option.some.inj (hverdict.symm.trans hv)
                  exact ⟨⟨_, _, htells, rfl⟩, .inl ⟨k, hsubscribing⟩⟩

/-- The subscription is waited for, or nothing any more. -/
theorem steps_kept (h : Kept env options rsp w) (e : NetworkEvent) :
    Steps env options (Kept env options rsp) w e := by
  rcases h with ⟨k, h⟩ | h
  swap
  · have hfind : w.findXact (numberOf e) = none := by
      rw [World.findXact, h.xacts]
      rfl
    exact steps_unheeded hfind (.inr (h.unheeded e))
  by_cases hnumber : numberOf e = k
  swap
  · exact steps_unheeded (h.sole.findXact_of_ne hnumber) (.inl ⟨k, h.unheeded e⟩)
  have hfind : w.findXact k = some (toolSubscribe env k) := h.sole.findXact_self
  cases e with
  | discovery n found =>
      obtain rfl : n = k := hnumber
      refine ⟨fun fault hfault => ?_, fun _ _ => ?_⟩
      · cases hfault
      · obtain ⟨w', hstep, htells, hstage⟩ := h.discovery found
        refine ⟨w', hstep, hstage.imp_left fun hstage => ⟨n, hstage⟩, fun _ => ⟨[], htells⟩,
          fun v hv => ?_⟩
        cases hv
  | timeout n =>
      obtain rfl : n = k := hnumber
      have hverdict : verdictAt env options w (.timeout n) = none := by
        rw [verdictAt, hfind]
        rfl
      refine ⟨fun fault hfault => ?_, fun _ _ => ?_⟩
      · cases hfault
      · obtain ⟨w', hstep, htells, hsubscribed⟩ := h.timeout
        refine ⟨w', hstep, .inr hsubscribed, fun _ => ⟨[], htells⟩, fun v hv => ?_⟩
        rw [hverdict] at hv
        cases hv
  | response n rsp' =>
      obtain rfl : n = k := hnumber
      have hfault : libraryFault env options w (.response n rsp') =
          answerFault env options (toolSubscribe env n).request rsp' := by
        rw [libraryFault, hfind]
        rfl
      have hverdict : verdictAt env options w (.response n rsp') =
          verdictOf env options (toolSubscribe env n).request rsp' := by
        rw [verdictAt, hfind]
        rfl
      rw [Steps, hfault]
      cases hparsed : rsp'.parsed with
      | false =>
          rw [answerFault_unparsed hparsed]
          rw [verdictOf_unparsed hparsed] at hverdict
          refine ⟨fun fault hsome => ?_, fun _ _ => ?_⟩
          · cases hsome
          · obtain ⟨w', hstep, htells, hsubscribed⟩ := h.response_unparsed hparsed
            exact ⟨w', hstep, handled_failed hverdict ogsError_ne_ok htells
              ⟨hsubscribed.xacts, .inr ⟨rsp, hsubscribed⟩⟩ (.inr hsubscribed)⟩
      | true =>
          rw [answerFault_subscribe hparsed]
          rw [verdictOf_subscribe hparsed] at hverdict
          obtain ⟨hfails, hdone⟩ := h.response_parsed hparsed
          refine ⟨hfails, fun hnone _ => ?_⟩
          obtain ⟨w', hstep, htells, hsubscribed⟩ := hdone hnone
          refine ⟨w', hstep, .inr hsubscribed, fun _ => ⟨[], htells⟩, fun v hv => ?_⟩
          rw [hverdict] at hv
          cases hv

/-! ## The stages of the tool -/

/-- The network decides when the tool is told and the queue takes it. -/
def decides (env : Environment) (options : MbsServiceToolOptions) (m : Tool) :
    ToolEvent → Option Verdict
  | .next _ =>
      if m.queue = [.mbsSessionCreate] ∧ (sessionCall env.getaddrinfo options.ssm).isNone then
        some .unresolved
      else none
  | .library e takes =>
      match verdictAt env options m.world.consumer e with
      | none => none
      | some .strayed => some .strayed
      | some v => if takes then some v else none

/-- The steps that the tool does not survive. -/
def toolFault (env : Environment) (options : MbsServiceToolOptions) (m : Tool) :
    ToolEvent → Option Fault
  | .next _ => none
  | .library e _ => libraryFault env options m.world.consumer e

/-- The tool has not been told anything yet. -/
structure Untold (m : Tool) : Prop where
  state : m.state = .createSession
  exited : m.exited = none
  reports : m.world.reports = []

structure Unsent (m : Tool) : Prop extends Untold m where
  consumer : m.world.consumer = World.initial
  queue : m.queue = [] ∨ m.queue = [.mbsSessionCreate]

structure Unaware (env : Environment) (options : MbsServiceToolOptions) (m : Tool) : Prop
    extends Untold m where
  queue : m.queue = []
  stage : Stage env options m.world.consumer

structure Announced (env : Environment) (options : MbsServiceToolOptions) (v : Verdict) (m : Tool) :
    Prop extends Untold m where
  queue : ∃ a rest, m.queue = a :: rest ∧ Announces v a
  leaves : Leaves env options v m.world.consumer

/-- The lines about a session that has been accepted. -/
def CreatedReports (options : MbsServiceToolOptions) (rsp : Response) (rs : List Report) : Prop :=
  ∃ id c tmgis, rsp.createLocation = .resource id ∧ rsp.createRspData = some (some c) ∧
    rs = .created (some id) :: (tmgis ++
      if options.reqTunnel then addressReports (c.ingressTunAddr.getD []) else []) ∧
    if options.reqTmgi then ∃ t, tmgis = [.tmgi t] ∧ TmgiFrom c t else tmgis = []

structure Running (env : Environment) (options : MbsServiceToolOptions) (rsp : Response) (m : Tool) :
    Prop where
  state : m.state = .running
  exited : m.exited = none
  reports : ∃ first rest, m.world.reports = first ++ rest ∧ CreatedReports options rsp first ∧
    ∀ r ∈ rest, ∃ a, r = .unexpected a
  kept : Kept env options rsp m.world.consumer

/-- The requests of the tool once it has sent its first one. -/
def Requests (env : Environment) (options : MbsServiceToolOptions) (xs : List Xact) : Prop :=
  Resolves env options ∧
    (xs = [toolCreate env options] ∨ ∃ k, xs = [toolCreate env options, toolSubscribe env k])

/-- The process has ended itself. -/
structure Ended (m : Tool) (rs : List Report) (xs : List Xact) : Prop where
  exited : m.exited = some 1
  reports : m.world.reports = rs
  sent : sentOf m.world.consumer.log = xs
  idle : m.world.consumer.xacts = []

def Waiting (env : Environment) (options : MbsServiceToolOptions) (m : Tool) : Prop :=
  Unsent m ∨ Unaware env options m

def Decided (env : Environment) (options : MbsServiceToolOptions) : Verdict → Tool → Prop
  | .unresolved, m => Ended m [] []
  | .accepted rsp, m => Announced env options (.accepted rsp) m ∨ Running env options rsp m
  | .failed problem, m => Announced env options (.failed problem) m ∨
      ∃ xs, Requests env options xs ∧ Ended m [.creationFailed problem] xs
  | .strayed, _ => True

/-! ## Steps of the library -/

theorem appState_library (hstate : m.state = .createSession ∨ m.state = .running) (e : NetworkEvent) :
    appState env options m.state (.library e) m = callLibrary (fun w => networkStep w e) m := by
  rcases hstate with hstate | hstate <;> rw [hstate] <;> rfl

/-- The tool after an event of the network. -/
def afterLibrary (m : Tool) (takes : Bool) (w : World) (as : List LocalEvent) : Tool :=
  { m with
    takes := takes
    world := { m.world with consumer := w }
    queue := m.queue ++ if takes then as else [] }

theorem step_library_ok {takes : Bool} {as : List LocalEvent} {xs : List Xact}
    (hexited : m.exited = none) (hstate : m.state = .createSession ∨ m.state = .running)
    (hcall : networkStep m.world.consumer e = .ok w) (htells : Tells as xs m.world.consumer w) :
    step (appState env options) m (.library e takes) = .ok (afterLibrary m takes w as) := by
  rw [step_library hexited]
  refine (dispatch_stay ((appState_library (m := { m with takes := takes }) hstate e).trans
    (callLibrary_eq hcall htells)) Loop.postAll_state).trans ?_
  rw [Loop.postAll_eq]
  rfl

theorem step_library_error {takes : Bool} {fault : Fault} (hexited : m.exited = none)
    (hstate : m.state = .createSession ∨ m.state = .running)
    (hcall : networkStep m.world.consumer e = .error fault) :
    step (appState env options) m (.library e takes) = .error fault := by
  rw [step_library hexited]
  refine dispatch_error ((appState_library (m := { m with takes := takes }) hstate e).trans ?_)
  rw [callLibrary]
  change (networkStep m.world.consumer e >>= _) = _
  rw [hcall]
  rfl

theorem steps_mono {Stays Stays' : World → Prop} (hmono : ∀ w, Stays w → Stays' w)
    (h : Steps env options Stays w e) : Steps env options Stays' w e := by
  refine ⟨h.1, fun hnone hstays => ?_⟩
  obtain ⟨w', hstep, hhandled⟩ := h.2 hnone hstays
  exact ⟨w', hstep, hmono w' hhandled.stays, hhandled.untold, hhandled.told⟩

theorem findXact_of_idle (h : w.xacts = []) (n : ℕ) : w.findXact n = none := by
  rw [World.findXact, h]
  rfl

theorem steps_stage (h : Stage env options w) (e : NetworkEvent) :
    Steps env options (Stage env options) w e := by
  cases h with
  | outstanding h => exact steps_outstanding h e
  | refused h => exact steps_unheeded (findXact_of_idle h.xacts _) (.refused (h.unheeded e))
  | kept h => exact steps_mono (fun w h => .kept h) (steps_kept h e)

theorem stage_of_leaves (h : Leaves env options v w) : Stage env options w := by
  cases v with
  | unresolved | strayed => exact h.elim
  | accepted rsp => exact .kept h
  | failed problem =>
      rcases h.2 with h | ⟨rsp, h⟩
      · exact .refused h
      · exact .kept (.inr h)

theorem steps_leaves (h : Leaves env options v w) (e : NetworkEvent) :
    Steps env options (Leaves env options v) w e := by
  cases v with
  | unresolved | strayed => exact h.elim
  | accepted rsp => exact steps_kept h e
  | failed problem =>
      have hidle : (unheeded w e).xacts = [] := by
        obtain ⟨log, hlog⟩ := unheeded_eq w e
        rw [hlog]
        exact h.1
      refine steps_unheeded (findXact_of_idle h.1 _) ⟨hidle, ?_⟩
      rcases h.2 with hrefused | ⟨rsp, hsubscribed⟩
      · exact .inl (hrefused.unheeded e)
      · exact .inr ⟨rsp, hsubscribed.unheeded e⟩

theorem Stage.requests (h : Stage env options w) : Requests env options (sentOf w.log) := by
  cases h with
  | outstanding h => exact ⟨h.resolves, .inl h.sent⟩
  | refused h => exact ⟨h.resolves, .inl h.sent⟩
  | kept h =>
      rcases h with ⟨k, h⟩ | h
      · exact ⟨h.resolves, .inr ⟨k, h.sent⟩⟩
      · exact ⟨h.resolves, .inr h.sent⟩

theorem not_strayed_of_idle (h : w.xacts = []) (e : NetworkEvent) :
    verdictAt env options w e ≠ some .strayed := by
  rw [verdictAt_none (findXact_of_idle h _)]
  exact (Option.some_ne_none _).symm

/-- Nothing strays once the session has been accepted or refused. -/
theorem not_strayed (h : Leaves env options v w) (e : NetworkEvent) :
    verdictAt env options w e ≠ some .strayed := by
  cases v with
  | unresolved | strayed => exact h.elim
  | failed problem => exact not_strayed_of_idle h.1 e
  | accepted rsp =>
      rcases h with ⟨k, h⟩ | h
      swap
      · exact not_strayed_of_idle h.xacts e
      cases e with
      | discovery n found => exact (Option.some_ne_none _).symm
      | timeout n =>
          by_cases hn : n = k
          · subst hn
            have hfind : w.findXact n = some (toolSubscribe env n) := h.sole.findXact_self
            rw [verdictAt, hfind]
            exact (Option.some_ne_none _).symm
          · have hnone : w.findXact n = none := h.sole.findXact_of_ne hn
            rw [verdictAt, hnone]
            exact (Option.some_ne_none _).symm
      | response n rsp' =>
          by_cases hn : n = k
          · subst hn
            have hfind : w.findXact n = some (toolSubscribe env n) := h.sole.findXact_self
            rw [verdictAt, hfind, Option.bind_some]
            cases hparsed : rsp'.parsed with
            | false =>
                rw [verdictOf_unparsed hparsed]
                exact fun hsome => Verdict.noConfusion (Option.some.inj hsome)
            | true =>
                rw [verdictOf_subscribe hparsed]
                exact (Option.some_ne_none _).symm
          · have hnone : w.findXact n = none := h.sole.findXact_of_ne hn
            rw [verdictAt, hnone]
            exact (Option.some_ne_none _).symm

/-! ## Steps of the tool -/

/-- A step of a stage of the tool: it fails as foreseen, or goes on to another stage. -/
def ToolSteps (env : Environment) (options : MbsServiceToolOptions) (m : Tool) (e : ToolEvent)
    (Next : Tool → Prop) : Prop :=
  (∀ fault, toolFault env options m e = some fault →
      step (appState env options) m e = .error fault) ∧
    (toolFault env options m e = none → decides env options m e ≠ some .strayed →
      ∃ m', step (appState env options) m e = .ok m' ∧ Next m')

theorem toolSteps_ok {e : ToolEvent} {Next : Tool → Prop} (hfault : toolFault env options m e = none)
    (h : ∃ m', step (appState env options) m e = .ok m' ∧ Next m') :
    ToolSteps env options m e Next := by
  refine ⟨fun fault hsome => ?_, fun _ _ => h⟩
  rw [hfault] at hsome
  cases hsome

theorem ToolSteps.imp {e : ToolEvent} {Next Next' : Tool → Prop} (h : ToolSteps env options m e Next)
    (himp : ∀ m', Next m' → Next' m') : ToolSteps env options m e Next' := by
  refine ⟨h.1, fun hnone hstays => ?_⟩
  obtain ⟨m', hstep, hnext⟩ := h.2 hnone hstays
  exact ⟨m', hstep, himp m' hnext⟩

/-- Where the library takes a step, the tool takes one. -/
theorem toolSteps_library {Stays : World → Prop} {takes : Bool} {Next : Tool → Prop}
    (hexited : m.exited = none) (hstate : m.state = .createSession ∨ m.state = .running)
    (hsteps : Steps env options Stays m.world.consumer e)
    (hstrayed : decides env options m (.library e takes) ≠ some .strayed →
      verdictAt env options m.world.consumer e ≠ some .strayed)
    (hnext : ∀ w as, Handled env options Stays m.world.consumer e w →
      (∃ xs, Tells as xs m.world.consumer w) →
      (∀ v, verdictAt env options m.world.consumer e = some v → ∃ a, as = [a] ∧ Announces v a) →
      (verdictAt env options m.world.consumer e = none → as = []) →
      Next (afterLibrary m takes w as)) :
    ToolSteps env options m (.library e takes) Next := by
  refine ⟨fun fault hsome => step_library_error hexited hstate (hsteps.1 fault hsome),
    fun hnone hnot => ?_⟩
  obtain ⟨w, hcall, hhandled⟩ := hsteps.2 hnone (hstrayed hnot)
  cases hverdict : verdictAt env options m.world.consumer e with
  | none =>
      obtain ⟨xs, htells⟩ := hhandled.untold hverdict
      refine ⟨_, step_library_ok hexited hstate hcall htells, hnext w [] hhandled ⟨xs, htells⟩ ?_ ?_⟩
      · intro v hv
        rw [hverdict] at hv
        cases hv
      · exact fun _ => rfl
  | some v =>
      obtain ⟨⟨a, xs, htells, hannounces⟩, -⟩ := hhandled.told v hverdict
      refine ⟨_, step_library_ok hexited hstate hcall htells, hnext w [a] hhandled ⟨xs, htells⟩ ?_ ?_⟩
      · intro v' hv'
        obtain rfl := Option.some.inj (hverdict.symm.trans hv')
        exact ⟨a, rfl, hannounces⟩
      · intro hnone
        rw [hverdict] at hnone
        cases hnone

theorem initial_idle (n : ℕ) : World.initial.findXact n = none := rfl

theorem initial_unheeded (e : NetworkEvent) : unheeded World.initial e = World.initial := by
  cases e <;> rfl

/-- The request is sent, or the addresses cannot be resolved. -/
theorem toolSteps_unsent (h : Unsent m) (e : ToolEvent) :
    ToolSteps env options m e fun m' =>
      (decides env options m e = none → Waiting env options m') ∧
        ∀ v, decides env options m e = some v → Decided env options v m' := by
  cases e with
  | library e takes =>
      have hfind : m.world.consumer.findXact (numberOf e) = none := by
        rw [h.consumer]
        exact initial_idle _
      have hverdict : verdictAt env options m.world.consumer e = none := verdictAt_none hfind
      have hdecides : decides env options m (.library e takes) = none := by
        rw [decides, hverdict]
      refine toolSteps_ok (libraryFault_none hfind) ?_
      refine ⟨_, step_library_ok h.exited (.inl h.state) (networkStep_unheeded hfind)
        (tells_unheeded _ e), fun _ => .inl ⟨⟨h.state, h.exited, h.reports⟩, ?_, ?_⟩, fun v hv => ?_⟩
      · change unheeded m.world.consumer e = _
        rw [h.consumer]
        exact initial_unheeded e
      · rw [afterLibrary, ite_self, List.append_nil]
        exact h.queue
      · rw [hdecides] at hv
        cases hv
  | next takes =>
      refine toolSteps_ok rfl ?_
      rcases h.queue with hqueue | hqueue
      · refine ⟨m, step_next_nil hqueue, fun _ => .inl h, fun v hv => ?_⟩
        rw [decides, hqueue, if_neg] at hv
        · cases hv
        · rintro ⟨hnil, -⟩
          cases hnil
      have hmade : callLibrary (fun w => subscriptionStep w
          (.new 0 (BitVec.allOnes 32) none (env.now + 3600))) { m with queue := [], takes := takes } =
            .ok { m with
              queue := []
              takes := takes
              world := { m.world with consumer := subscribedWorld env } } := by
        have hcall : subscriptionStep m.world.consumer
            (.new 0 (BitVec.allOnes 32) none (env.now + 3600)) = .ok (subscribedWorld env) := by
          rw [h.consumer]
          rfl
        have htells : Tells [] [] m.world.consumer (subscribedWorld env) := by
          rw [h.consumer]
          exact ⟨[], rfl, rfl, rfl⟩
        exact callLibrary_silent hcall htells
      have hhandle : appState env options m.state (.own .mbsSessionCreate)
          { m with queue := [], takes := takes } =
            appMbsSessionCreate env options { m with queue := [], takes := takes } := by
        rw [h.state]
        rfl
      cases hresolved : sessionCall env.getaddrinfo options.ssm with
      | none =>
          refine ⟨{ m with
            queue := []
            takes := takes
            world := { m.world with consumer := subscribedWorld env }
            exited := some 1 }, ?_, fun hnone => ?_, fun v hv => ?_⟩
          · rw [step_next_cons h.exited hqueue]
            refine dispatch_stay (hhandle.trans ?_) rfl
            simp only [appMbsSessionCreate, hmade, hresolved, bind, Except.bind]
          · rw [decides, hqueue, hresolved, if_pos ⟨rfl, rfl⟩] at hnone
            cases hnone
          · rw [decides, hqueue, hresolved, if_pos ⟨rfl, rfl⟩] at hv
            obtain rfl := Option.some.inj hv
            exact ⟨rfl, h.reports, rfl, rfl⟩
      | some call =>
          obtain ⟨w, hcalls, htells, hout⟩ := createCalls_initial hresolved
          refine ⟨{ m with
            queue := []
            takes := takes
            world := { m.world with consumer := w } }, ?_, fun _ => .inr ⟨⟨h.state, h.exited,
              h.reports⟩, rfl, .outstanding hout⟩, fun v hv => ?_⟩
          · rw [step_next_cons h.exited hqueue]
            refine dispatch_stay (hhandle.trans ?_) rfl
            have hu : m.world.consumer.next = 1 := by
              rw [h.consumer]
              rfl
            simp only [appMbsSessionCreate, hmade, hresolved, hu, bind, Except.bind]
            refine (callLibrary_eq hcalls htells).trans ?_
            rfl
          · rw [decides, hresolved, if_neg fun hboth => Bool.false_ne_true hboth.2] at hv
            cases hv

theorem decides_strayed {takes : Bool}
    (h : decides env options m (.library e takes) ≠ some .strayed) :
    verdictAt env options m.world.consumer e ≠ some .strayed := by
  intro hstrayed
  rw [decides, hstrayed] at h
  exact h rfl

/-- The tool waits to be told. -/
theorem toolSteps_unaware (h : Unaware env options m) (e : ToolEvent) :
    ToolSteps env options m e fun m' =>
      (decides env options m e = none → Waiting env options m') ∧
        ∀ v, decides env options m e = some v → Decided env options v m' := by
  cases e with
  | next takes =>
      refine toolSteps_ok rfl ⟨m, step_next_nil h.queue, fun _ => .inr h, fun v hv => ?_⟩
      rw [decides, h.queue, if_neg] at hv
      · cases hv
      · rintro ⟨hnil, -⟩
        cases hnil
  | library e takes =>
      refine toolSteps_library h.exited (.inl h.state) (steps_stage h.stage e) decides_strayed
        fun w as hhandled _ htold huntold => ?_
      have hafter : ∀ bs, (if takes then as else []) = bs →
          (afterLibrary m takes w as).queue = bs := by
        intro bs hbs
        rw [afterLibrary, h.queue, hbs]
        rfl
      cases hverdict : verdictAt env options m.world.consumer e with
      | none =>
          have hdecides : decides env options m (.library e takes) = none := by
            rw [decides, hverdict]
          refine ⟨fun _ => .inr ⟨⟨h.state, h.exited, h.reports⟩, hafter [] ?_, hhandled.stays⟩,
            fun v hv => ?_⟩
          · rw [huntold hverdict]
            exact ite_self _
          · rw [hdecides] at hv
            cases hv
      | some v =>
          obtain ⟨a, rfl, hannounces⟩ := htold v hverdict
          obtain ⟨-, hleaves⟩ := hhandled.told v hverdict
          have hdecides : decides env options m (.library e takes) = if takes then some v else none := by
            rw [decides, hverdict]
            cases v with
            | strayed => exact hleaves.elim
            | _ => rfl
          rw [hdecides]
          cases takes with
          | false =>
              refine ⟨fun _ => .inr ⟨⟨h.state, h.exited, h.reports⟩, hafter [] rfl,
                stage_of_leaves hleaves⟩, fun v hv => ?_⟩
              cases hv
          | true =>
              refine ⟨fun hnone => ?_, fun v' hv' => ?_⟩
              · cases hnone
              · obtain rfl := Option.some.inj hv'
                have hannounced : Announced env options v (afterLibrary m true w [a]) :=
                  ⟨⟨h.state, h.exited, h.reports⟩, ⟨a, [], hafter [a] rfl, hannounces⟩, hleaves⟩
                cases v with
                | unresolved | strayed => exact hleaves.elim
                | accepted rsp => exact .inl hannounced
                | failed problem => exact .inl hannounced

theorem AsAnswered.reports {y : MbsSession} {id : String} {c : CreatedSession}
    (h : AsAnswered w (toolSession env options) y id c) (hloc : rsp.createLocation = .resource id)
    (hdata : rsp.createRspData = some (some c)) :
    ∃ tmgis, tmgiReports w y.session = .ok tmgis ∧
      CreatedReports options rsp (.created y.id :: tmgis ++ tunnelReports y.session) := by
  have hreq : y.session.tmgiReq = options.reqTmgi := h.tmgiReq
  have htunnelReq : y.session.tunnelReq = options.reqTunnel := h.tunnelReq
  have htunnels : tunnelReports y.session =
      if options.reqTunnel then addressReports (c.ingressTunAddr.getD []) else [] := by
    rw [tunnelReports, htunnelReq]
    cases htunnel : options.reqTunnel with
    | false => rfl
    | true =>
        have hfound := h.tunnel
        rw [if_pos (show (toolSession env options).session.tunnelReq = true from htunnel)] at hfound
        rw [hfound]
        rfl
  cases hasked : options.reqTmgi with
  | false =>
      refine ⟨[], ?_, id, c, [], hloc, hdata, ?_, ?_⟩
      · rw [tmgiReports, hreq, hasked]
        rfl
      · rw [h.id, htunnels]
        rfl
      · rw [if_neg (by rw [hasked]; exact Bool.false_ne_true)]
  | true =>
      have hgranted := h.tmgi
      rw [if_pos (show (toolSession env options).session.tmgiReq = true from hasked)] at hgranted
      obtain ⟨t, z, ht, -, hz, hfrom⟩ := hgranted
      refine ⟨[.tmgi z.tmgi], ?_, id, c, [.tmgi z.tmgi], hloc, hdata, ?_, ?_⟩
      · rw [tmgiReports, hreq, hasked, if_pos rfl, ht]
        simp only [World.tmgiAt, hz, bind, Except.bind]
      · rw [h.id, htunnels]
        rfl
      · rw [if_pos hasked]
        exact ⟨z.tmgi, rfl, hfrom⟩

theorem Kept.session (h : Kept env options rsp w) :
    ∃ y, w.sessionStore 2 = some y ∧ AcceptedBy env options rsp w y := by
  rcases h with ⟨k, h⟩ | h
  · obtain ⟨y, hy, haccepted, -⟩ := h.session
    exact ⟨y, hy, haccepted⟩
  · exact h.session

/-- The tool hears that its session has been accepted. -/
theorem next_accepted (h : Announced env options (.accepted rsp) m) (takes : Bool) :
    ∃ m', step (appState env options) m (.next takes) = .ok m' ∧ Running env options rsp m' := by
  obtain ⟨a, rest, hqueue, rfl⟩ := h.queue
  obtain ⟨y, hy, id, c, hloc, hdata, hset⟩ := Kept.session h.leaves
  obtain ⟨tmgis, htmgis, hreports⟩ := AsAnswered.reports hset hloc hdata
  have hresult : createResult { m with queue := rest, takes := takes } 2 .ogsOk none =
      .ok ((report { m with queue := rest, takes := takes }
        (.created y.id :: tmgis ++ tunnelReports y.session)).goto .running) := by
    rw [createResult, if_pos rfl]
    refine bind_eq_ok.2 ⟨y, World.sessionAt_eq_ok.2 hy, bind_eq_ok.2 ⟨tmgis, htmgis, rfl⟩⟩
  have hhandle : appState env options m.state (.own (.mbsSessionCreateResult 2 .ogsOk none))
      { m with queue := rest, takes := takes } =
        createResult { m with queue := rest, takes := takes } 2 .ogsOk none := by
    rw [h.state]
    rfl
  refine ⟨(report { m with queue := rest, takes := takes }
    (.created y.id :: tmgis ++ tunnelReports y.session)).goto .running, ?_, rfl, h.exited, ?_, h.leaves⟩
  · rw [step_next_cons h.exited hqueue]
    refine (dispatch_move (hhandle.trans hresult) ?_ ?_).trans rfl
    · change AppState.running ≠ m.state
      rw [h.state]
      decide
    · rw [show ({ m with queue := rest, takes := takes } : Tool).state = .createSession from h.state]
      rfl
  · refine ⟨_, [], ?_, hreports, fun r hr => ?_⟩
    · change m.world.reports ++ _ = _
      rw [h.reports, List.append_nil]
      rfl
    · cases hr

/-- The tool hears of a failure, and ends. -/
theorem next_failed {problem : Option ProblemDetails} (h : Announced env options (.failed problem) m)
    (takes : Bool) : ∃ m', step (appState env options) m (.next takes) = .ok m' ∧
      ∃ xs, Requests env options xs ∧ Ended m' [.creationFailed problem] xs := by
  obtain ⟨a, rest, hqueue, result, hresult, rfl⟩ := h.queue
  have hhandle : appState env options m.state (.own (.mbsSessionCreateResult 2 result problem))
      { m with queue := rest, takes := takes } =
        .ok ((report { m with queue := rest, takes := takes } [.creationFailed problem]).goto
          .sessionFailed) := by
    rw [h.state]
    exact if_neg hresult
  refine ⟨{ (report { m with queue := rest, takes := takes } [.creationFailed problem]).goto
    .sessionFailed with exited := some 1 }, ?_, _, (stage_of_leaves h.leaves).requests, rfl, ?_, rfl,
      h.leaves.1⟩
  · rw [step_next_cons h.exited hqueue]
    refine (dispatch_move hhandle ?_ ?_).trans rfl
    · change AppState.sessionFailed ≠ m.state
      rw [h.state]
      decide
    · rw [show ({ m with queue := rest, takes := takes } : Tool).state = .createSession from h.state]
      rfl
  · change m.world.reports ++ _ = _
    rw [h.reports]
    rfl

/-- What comes after the announcement is behind it in the queue. -/
theorem toolSteps_announced (h : Announced env options v m) (e : NetworkEvent) (takes : Bool) :
    ToolSteps env options m (.library e takes) (Announced env options v) := by
  refine toolSteps_library h.exited (.inl h.state) (steps_leaves h.leaves e)
    (fun _ => not_strayed h.leaves e) fun w as hhandled _ _ _ => ?_
  obtain ⟨a, rest, hqueue, hannounces⟩ := h.queue
  refine ⟨⟨h.state, h.exited, h.reports⟩, ⟨a, rest ++ if takes then as else [], ?_, hannounces⟩,
    hhandled.stays⟩
  rw [afterLibrary, hqueue]
  rfl

/-- The tool runs on. -/
theorem toolSteps_running (h : Running env options rsp m) (e : ToolEvent) :
    ToolSteps env options m e (Running env options rsp) := by
  cases e with
  | library e takes =>
      refine toolSteps_library h.exited (.inr h.state) (steps_kept h.kept e)
        (fun _ => not_strayed (v := .accepted rsp) h.kept e) fun w as hhandled _ _ _ => ?_
      exact ⟨h.state, h.exited, h.reports, hhandled.stays⟩
  | next takes =>
      refine toolSteps_ok rfl ?_
      cases hqueue : m.queue with
      | nil => exact ⟨m, step_next_nil hqueue, h⟩
      | cons a rest =>
          obtain ⟨first, others, hreports, hfirst, hothers⟩ := h.reports
          have hhandle : appState env options m.state (.own a) { m with queue := rest, takes := takes } =
              .ok (report { m with queue := rest, takes := takes } [.unexpected a]) := by
            rw [h.state]
            cases a <;> rfl
          refine ⟨report { m with queue := rest, takes := takes } [.unexpected a], ?_, h.state, h.exited,
            ⟨first, others ++ [.unexpected a], ?_, hfirst, fun r hr => ?_⟩, h.kept⟩
          · rw [step_next_cons h.exited hqueue]
            exact dispatch_stay hhandle rfl
          · change m.world.reports ++ _ = _
            rw [hreports, List.append_assoc]
          · rcases List.mem_append.1 hr with hr | hr
            · exact hothers r hr
            · exact ⟨a, List.mem_singleton.1 hr⟩

theorem toolSteps_ended {rs : List Report} {xs : List Xact} (h : Ended m rs xs) (e : ToolEvent) :
    ToolSteps env options m e fun m' => Ended m' rs xs := by
  have hexited : m.exited ≠ none := by
    rw [h.exited]
    exact Option.some_ne_none 1
  refine toolSteps_ok ?_ ⟨m, step_of_exited hexited, h⟩
  cases e with
  | next takes => rfl
  | library e takes => exact libraryFault_none (findXact_of_idle h.idle _)

theorem toolSteps_waiting (h : Waiting env options m) (e : ToolEvent) :
    ToolSteps env options m e fun m' =>
      (decides env options m e = none → Waiting env options m') ∧
        ∀ v, decides env options m e = some v → Decided env options v m' :=
  h.elim (fun h => toolSteps_unsent h e) fun h => toolSteps_unaware h e

theorem toolSteps_decided (hv : v ≠ .strayed) (h : Decided env options v m) (e : ToolEvent) :
    ToolSteps env options m e (Decided env options v) := by
  cases v with
  | unresolved => exact toolSteps_ended h e
  | strayed => exact absurd rfl hv
  | accepted rsp =>
      rcases h with h | h
      · cases e with
        | next takes =>
            obtain ⟨m', hstep, hrunning⟩ := next_accepted h takes
            exact toolSteps_ok rfl ⟨m', hstep, .inr hrunning⟩
        | library e takes => exact (toolSteps_announced h e takes).imp fun _ => .inl
      · exact (toolSteps_running h e).imp fun _ => .inr
  | failed problem =>
      rcases h with h | ⟨xs, hrequests, h⟩
      · cases e with
        | next takes =>
            obtain ⟨m', hstep, hended⟩ := next_failed h takes
            exact toolSteps_ok rfl ⟨m', hstep, .inr hended⟩
        | library e takes => exact (toolSteps_announced h e takes).imp fun _ => .inl
      · exact (toolSteps_ended h e).imp fun _ hended => .inr ⟨xs, hrequests, hended⟩

/-! ## Runs -/

theorem ok_of_toolSteps {e : ToolEvent} {Next : Tool → Prop} (h : ToolSteps env options m e Next)
    (hstays : decides env options m e ≠ some .strayed)
    (hstep : step (appState env options) m e = .ok m') : Next m' := by
  cases hfault : toolFault env options m e with
  | some fault =>
      rw [h.1 fault hfault] at hstep
      cases hstep
  | none =>
      obtain ⟨m'', hstep', hnext⟩ := h.2 hfault hstays
      obtain rfl := Except.ok.inj (hstep.symm.trans hstep')
      exact hnext

end ServiceConsumers.MbsServiceRuns
