import ServiceConsumers.MbsServiceRuns

set_option autoImplicit false

/-!
# How `mbs-service-tool` ends

What the tool is told first of its session decides whether it ends itself, or goes on and would
wait for notifications: the answer that accepts its subscription ends the program. The session that
it asks for does not depend on the TMGI of the command line.
-/

namespace ServiceConsumers.MbsServiceEnds

open MbsServiceTool MbsServiceAnswers MbsServiceRuns ObjectStore PublicSessions ConsumerState
  SubscriptionOperations SessionOperations ResponseHandlers ProcessEvent TransitionRuns
  TransactionLog StepDecomposition CreateResponses CommandLines EventLoops FirstAnswers

variable {env : Environment} {options : MbsServiceToolOptions} {m m' m₀ : Tool} {v : Verdict}
  {takes : Bool} {es : List ToolEvent} {e : ToolEvent}

/-! ## The first outcome -/

theorem init_eq (env : Environment) (options : MbsServiceToolOptions) (takes : Bool) :
    ∃ m, init env options takes = .ok m ∧ Unsent m := by
  refine ⟨_, rfl, ⟨?_, ?_, ?_⟩, ?_, ?_⟩
  · rw [Loop.post_eq]
  · rw [Loop.post_eq]
  · rw [Loop.post_eq]
  · rw [Loop.post_eq]
  · rw [Loop.post_eq]
    cases takes with
    | false => exact .inl rfl
    | true => exact .inr rfl

theorem decides_some {n : NetworkEvent} (hfound : verdictAt env options m.world.consumer n = some v)
    (hv : v ≠ .strayed) :
    decides env options m (.library n takes) = if takes then some v else none := by
  rw [decides, hfound]
  cases v with
  | strayed => exact absurd rfl hv
  | unresolved | accepted rsp | failed problem => rfl

/-- Only the answer to the create request strays. -/
theorem not_strayed_of_decided (hv : v ≠ .strayed) (h : Decided env options v m) (e : ToolEvent) :
    decides env options m e ≠ some .strayed := by
  cases e with
  | next takes =>
      rw [decides]
      split
      · exact fun hsome => Verdict.noConfusion (Option.some.inj hsome)
      · exact (Option.some_ne_none _).symm
  | library e takes =>
      have hverdict : verdictAt env options m.world.consumer e ≠ some .strayed := by
        cases v with
        | unresolved => exact not_strayed_of_idle h.idle e
        | strayed => exact absurd rfl hv
        | accepted rsp =>
            rcases h with h | h
            · exact not_strayed h.leaves e
            · exact not_strayed (v := .accepted rsp) h.kept e
        | failed problem =>
            rcases h with h | ⟨xs, -, h⟩
            · exact not_strayed h.leaves e
            · exact not_strayed_of_idle h.idle e
      cases hfound : verdictAt env options m.world.consumer e with
      | none =>
          rw [decides, hfound]
          exact (Option.some_ne_none _).symm
      | some u =>
          have hu : u ≠ .strayed := fun hstrayed => hverdict (hfound.trans (congrArg some hstrayed))
          rw [decides_some hfound hu]
          cases takes with
          | false => exact (Option.some_ne_none _).symm
          | true => exact fun hsome => hu (Option.some.inj hsome)

theorem decidedByFirst : DecidedByFirst (step (appState env options)) (decides env options)
    (Waiting env options) (Decided env options) := by
  constructor
  · intro m e m' hwaiting hstep hdecides
    refine (ok_of_toolSteps (toolSteps_waiting hwaiting e) ?_ hstep).1 hdecides
    rw [hdecides]
    exact (Option.some_ne_none _).symm
  · intro m e m' v hwaiting hstep hdecides
    by_cases hv : v = .strayed
    · rw [hv]
      trivial
    · refine (ok_of_toolSteps (toolSteps_waiting hwaiting e) ?_ hstep).2 v hdecides
      rw [hdecides]
      exact fun hsome => hv (Option.some.inj hsome)
  · intro m e m' v hdecided hstep
    by_cases hv : v = .strayed
    · rw [hv]
      trivial
    · exact ok_of_toolSteps (toolSteps_decided hv hdecided e) (not_strayed_of_decided hv hdecided e)
        hstep

/-- The end of a run is decided by what the tool is told first. -/
theorem run_decided (hinit : init env options takes = .ok m₀) (hrun : run env options takes es = .ok m) :
    (firstOutcome (step (appState env options)) (decides env options) m₀ es = none →
        Waiting env options m) ∧
      ∀ v, firstOutcome (step (appState env options)) (decides env options) m₀ es = some v →
        Decided env options v m := by
  obtain ⟨m₁, hinit', hunsent⟩ := init_eq env options takes
  obtain rfl := Except.ok.inj (hinit.symm.trans hinit')
  rw [run, hinit] at hrun
  exact decidedByFirst.run (.inl hunsent) hrun

/-- The tool after what it was told first, whatever event of its own comes next. -/
def EndsAs (env : Environment) (options : MbsServiceToolOptions) (m : Tool) :
    Option Verdict → Prop
  | none => m.state = .createSession ∧ m.exited = none ∧ m.world.reports = []
  | some .unresolved => m.exited = some 1 ∧ m.world.reports = [] ∧ sentOf m.world.consumer.log = []
  | some (.accepted rsp) => m.exited = none ∧ ∀ takes, ∃ m',
      step (appState env options) m (.next takes) = .ok m' ∧ m'.state = .running ∧
        m'.exited = none ∧ ∃ first rest, m'.world.reports = first ++ rest ∧
          CreatedReports options rsp first ∧ ∀ r ∈ rest, ∃ a, r = .unexpected a
  | some (.failed problem) => ∀ takes, ∃ m',
      step (appState env options) m (.next takes) = .ok m' ∧ m'.exited = some 1 ∧
        m'.world.reports = [.creationFailed problem]
  | some .strayed => True

/-- In every run the tool ends itself with status 1 when its addresses cannot be resolved, before
anything is sent, or at the event by which it hears of a failure, which it reports. Told that the
session was created it reports what it asked for, and goes on. -/
theorem service_ends_as_told (hinit : init env options takes = .ok m₀)
    (hrun : run env options takes es = .ok m) :
    EndsAs env options m
      (firstOutcome (step (appState env options)) (decides env options) m₀ es) := by
  obtain ⟨hnone, hsome⟩ := run_decided hinit hrun
  cases hfirst : firstOutcome (step (appState env options)) (decides env options) m₀ es with
  | none =>
      rcases hnone hfirst with h | h
      · exact ⟨h.state, h.exited, h.reports⟩
      · exact ⟨h.state, h.exited, h.reports⟩
  | some v =>
      have hdecided := hsome v hfirst
      cases v with
      | unresolved => exact ⟨hdecided.exited, hdecided.reports, hdecided.sent⟩
      | strayed => trivial
      | accepted rsp =>
          have hnext : ∀ takes, ∃ m', step (appState env options) m (.next takes) = .ok m' ∧
              Running env options rsp m' := by
            intro takes
            rcases hdecided with h | h
            · exact next_accepted h takes
            · obtain ⟨-, hok⟩ := toolSteps_running h (.next takes)
              refine hok rfl ?_
              exact not_strayed_of_decided (v := .accepted rsp) Verdict.noConfusion (.inr h) _
          refine ⟨?_, fun takes => ?_⟩
          · rcases hdecided with h | h
            · exact h.exited
            · exact h.exited
          · obtain ⟨m', hstep, h⟩ := hnext takes
            exact ⟨m', hstep, h.state, h.exited, h.reports⟩
      | failed problem =>
          intro takes
          rcases hdecided with h | ⟨xs, -, h⟩
          · obtain ⟨m', hstep, xs, -, hended⟩ := next_failed h takes
            exact ⟨m', hstep, hended.exited, hended.reports⟩
          · have hexited : m.exited ≠ none := by
              rw [h.exited]
              exact Option.some_ne_none 1
            exact ⟨m, step_of_exited hexited, h.exited, h.reports⟩

section Example

def localNetwork : Environment := { getaddrinfo := fun _ => some [⟨.inet, 7⟩], now := 100 }

def everythingAsked : MbsServiceToolOptions := { reqTmgi := true, reqTunnel := true }

/-- A creation that gives the session all it asks for, and these addresses. -/
def createdAnswer (answer : Option SsmAnswer) : Response :=
  { status := 201
    resStatus := 201
    createLocation := .resource "7"
    createRspData := some (some {
      ingressTunAddr := some []
      tmgi := some ⟨some "000001", "001", "01", 1, 1⟩
      expirationTime := some (.seconds 9)
      mbsSessionId := some answer }) }

/-- The queue does not take the event for the creation, and then the answer about the subscription
cannot be parsed. -/
def creationUnheard : List ToolEvent :=
  [.next true, .library (.response 4 (createdAnswer none)) false,
    .library (.response 7 { status := 500, parsed := false }) true]

/-- The tool ends although its session has been created. -/
theorem unheard_creation_ends : ∃ m m', run localNetwork everythingAsked true creationUnheard = .ok m ∧
    step (appState localNetwork everythingAsked) m (.next true) = .ok m' ∧ m'.exited = some 1 ∧
      m'.world.reports = [.creationFailed none] := by
  obtain ⟨m₀, hinit, -⟩ := init_eq localNetwork everythingAsked true
  obtain ⟨m, hrun, -⟩ := exists_of_observed (x := run localNetwork everythingAsked true creationUnheard)
    (f := fun m => m.exited) (v := none) (by decide +kernel)
  have hends := service_ends_as_told hinit hrun
  have hfirst : firstOutcome (step (appState localNetwork everythingAsked))
      (decides localNetwork everythingAsked) m₀ creationUnheard = some (.failed none) := by
    obtain rfl := Except.ok.inj (hinit.symm.trans rfl)
    decide +kernel
  rw [hfirst] at hends
  obtain ⟨m', hstep, hexited, hreports⟩ := hends true
  exact ⟨m, m', hrun, hstep, hexited, hreports⟩

end Example

/-! ## Failing steps -/

theorem toolSteps_of_run (hinit : init env options takes = .ok m₀)
    (hrun : run env options takes es = .ok m)
    (hstays : firstOutcome (step (appState env options)) (decides env options) m₀ es ≠ some .strayed)
    (e : ToolEvent) : ToolSteps env options m e fun _ => True := by
  obtain ⟨hnone, hsome⟩ := run_decided hinit hrun
  cases hfirst : firstOutcome (step (appState env options)) (decides env options) m₀ es with
  | none => exact (toolSteps_waiting (hnone hfirst) e).imp fun _ _ => trivial
  | some v =>
      have hv : v ≠ .strayed := fun hstrayed => hstays (hfirst.trans (congrArg some hstrayed))
      exact (toolSteps_decided hv (hsome v hfirst) e).imp fun _ _ => trivial

/-- After a run that does not stray, the only steps that fail are those of `toolFault`. -/
theorem fails_where_unchecked (hinit : init env options takes = .ok m₀)
    (hrun : run env options takes es = .ok m)
    (hstays : firstOutcome (step (appState env options)) (decides env options) m₀ es ≠ some .strayed)
    (hnow : decides env options m e ≠ some .strayed) (f : Fault) :
    step (appState env options) m e = .error f ↔ toolFault env options m e = some f := by
  obtain ⟨hfails, hdone⟩ := toolSteps_of_run hinit hrun hstays e
  refine ⟨fun herror => ?_, hfails f⟩
  cases hfault : toolFault env options m e with
  | none =>
      obtain ⟨m', hok, -⟩ := hdone hfault hnow
      rw [hok] at herror
      cases herror
  | some fault =>
      rw [hfails fault hfault] at herror
      rw [Except.error.inj herror]

section Example

/-- The tool runs on. -/
def creationHeard : List ToolEvent :=
  [.next true, .library (.response 4 (createdAnswer none)) true, .next true]

/-- The MB-SMF accepts the subscription. -/
def acceptedSubscription : ToolEvent :=
  .library (.response 7
    { status := 201, resStatus := 201, subscribeLocation := some "1"
      subscribeBody := .valid none true }) true

theorem accepted_subscription_fails : ∃ m,
    run localNetwork everythingAsked true creationHeard = .ok m ∧ m.state = .running ∧
      step (appState localNetwork everythingAsked) m acceptedSubscription =
        .error .nullLocation := by
  obtain ⟨m₀, hinit, -⟩ := init_eq localNetwork everythingAsked true
  obtain ⟨m, hrun, hseen⟩ := exists_of_observed
    (x := run localNetwork everythingAsked true creationHeard)
    (f := fun m => (m.state, toolFault localNetwork everythingAsked m acceptedSubscription,
      decides localNetwork everythingAsked m acceptedSubscription))
    (v := (.running, some .nullLocation, none)) (by decide +kernel)
  obtain ⟨hstate, hfault, hdecides⟩ :
      m.state = .running ∧
        toolFault localNetwork everythingAsked m acceptedSubscription = some .nullLocation ∧
        decides localNetwork everythingAsked m acceptedSubscription = none := by
    simpa only [Prod.mk.injEq] using hseen
  have hfirst : firstOutcome (step (appState localNetwork everythingAsked))
      (decides localNetwork everythingAsked) m₀ creationHeard ≠ some .strayed := by
    obtain rfl := Except.ok.inj (hinit.symm.trans rfl)
    decide +kernel
  have hnow : decides localNetwork everythingAsked m acceptedSubscription ≠ some .strayed := by
    rw [hdecides]
    exact (Option.some_ne_none _).symm
  exact ⟨m, hrun, hstate, (fails_where_unchecked hinit hrun hfirst hnow .nullLocation).2 hfault⟩

end Example

/-! ## The requests -/

/-- `service_type` in `__make_ext_mbs_session`. -/
def makeServiceType {τ : Type} (p : PublicSession τ) : MbsServiceType :=
  if p.ssm.isSome then .multicast else .broadcast

theorem toolSsm_isSome (h : Resolves env options) :
    (toolSsm env options).isSome = options.ssm.isSome := by
  obtain ⟨call, hcall⟩ := h
  rw [toolSsm, hcall]
  exact (makesSession hcall).ssm

theorem requests_of_run (hinit : init env options takes = .ok m₀)
    (hrun : run env options takes es = .ok m)
    (hstays : firstOutcome (step (appState env options)) (decides env options) m₀ es ≠ some .strayed) :
    sentOf m.world.consumer.log = [] ∨ Requests env options (sentOf m.world.consumer.log) := by
  obtain ⟨hnone, hsome⟩ := run_decided hinit hrun
  cases hfirst : firstOutcome (step (appState env options)) (decides env options) m₀ es with
  | none =>
      rcases hnone hfirst with h | h
      · left
        rw [h.consumer]
        rfl
      · exact .inr h.stage.requests
  | some v =>
      have hdecided := hsome v hfirst
      cases v with
      | unresolved => exact .inl hdecided.sent
      | strayed => exact absurd hfirst hstays
      | accepted rsp =>
          right
          rcases hdecided with h | h
          · exact (stage_of_leaves h.leaves).requests
          · exact (Stage.kept h.kept).requests
      | failed problem =>
          right
          rcases hdecided with h | ⟨xs, hrequests, h⟩
          · exact (stage_of_leaves h.leaves).requests
          · rw [h.sent]
            exact hrequests

section Requests

variable {command : String} {args : List (Argument MbsServiceToolArgument)} {operands : List String}
  {line : CommandLine MbsServiceToolOptions}

/-- A multicast service has been asked for with its addresses, and a TMGI only if none is given. -/
theorem options_checked (hline : mbsServiceToolOptions command args operands = .ok line) :
    (line.options.isMulticast = true → line.options.ssm.isSome = true) ∧
      (line.options.tmgiId.isSome = true → line.options.reqTmgi = false) := by
  obtain ⟨t, -, -, hcheck, -, rfl⟩ := parse_eq_ok.1 hline
  rw [MbsServiceToolOptions.check] at hcheck
  split at hcheck
  · cases hcheck
  split at hcheck
  · cases hcheck
  rename_i hexclusive
  split at hcheck
  · cases hcheck
  rename_i hgiven
  refine ⟨fun hmulticast => ?_, fun hid => ?_⟩
  · rw [Option.isSome_iff_ne_none]
    exact fun hnone => hgiven ⟨hmulticast, hnone⟩
  · rw [← Bool.not_eq_true]
    exact fun hreq => hexclusive ⟨hreq, hid⟩

theorem requested_serviceType (hline : mbsServiceToolOptions command args operands = .ok line)
    (hresolves : Resolves env line.options) :
    makeServiceType ((toolPublic env line.options).content (none : Option Tmgi)) =
        ((toolPublic env line.options).content (none : Option Tmgi)).serviceType ↔
      (line.options.ssm.isSome = true → line.options.isMulticast = true) := by
  have hssm : ((toolPublic env line.options).content (none : Option Tmgi)).ssm.isSome =
      line.options.ssm.isSome := toolSsm_isSome hresolves
  have htype : ((toolPublic env line.options).content (none : Option Tmgi)).serviceType =
      if line.options.isMulticast then .multicast else .broadcast := rfl
  rw [makeServiceType, hssm, htype]
  have hgiven := (options_checked hline).1
  cases hmulticast : line.options.isMulticast with
  | true =>
      rw [hgiven hmulticast]
      exact ⟨fun _ _ => rfl, fun _ => rfl⟩
  | false =>
      cases line.options.ssm.isSome with
      | true => exact ⟨fun h => MbsServiceType.noConfusion h, fun h => Bool.noConfusion (h rfl)⟩
      | false => exact ⟨fun _ h => Bool.noConfusion h, fun _ => rfl⟩

/-- A run that does not stray sends one request for the session, and at most one more, for the
subscription that the first one has embedded already. The session is requested without the TMGI of
the command line, and its service type is the one that was asked for exactly when addresses are
given for a multicast service only. -/
theorem requests_for_command_line (hline : mbsServiceToolOptions command args operands = .ok line)
    (hinit : init env line.options takes = .ok m₀) (hrun : run env line.options takes es = .ok m)
    (hstays : firstOutcome (step (appState env line.options)) (decides env line.options) m₀ es ≠
      some .strayed) :
    sentOf m.world.consumer.log = [] ∨ ∃ carried body rest,
      sentOf m.world.consumer.log =
          { id := 4, sbiObject := 3, requester := .session 2
            request := .create carried (some (1, body)) } :: rest ∧
        (rest = [] ∨ ∃ k, rest = [{ id := k, sbiObject := 3, requester := .session 2
                                    request := .subscribe 1 body }]) ∧
        carried.tmgi = none ∧ (line.options.tmgiId.isSome = true → carried.tmgiReq = false) ∧
        carried.ssm.isSome = line.options.ssm.isSome ∧ carried.tunnelReq = line.options.reqTunnel ∧
        (makeServiceType carried = (if line.options.isMulticast then .multicast else .broadcast) ↔
          (line.options.ssm.isSome = true → line.options.isMulticast = true)) := by
  refine (requests_of_run hinit hrun hstays).imp_right ?_
  rintro ⟨hresolves, hsent⟩
  have hcarried : ((toolPublic env line.options).content none).tmgi = (none : Option Tmgi) ∧
      (line.options.tmgiId.isSome = true →
        ((toolPublic env line.options).content (none : Option Tmgi)).tmgiReq = false) ∧
      ((toolPublic env line.options).content (none : Option Tmgi)).ssm.isSome =
        line.options.ssm.isSome ∧
      ((toolPublic env line.options).content (none : Option Tmgi)).tunnelReq =
        line.options.reqTunnel ∧
      (makeServiceType ((toolPublic env line.options).content (none : Option Tmgi)) =
          (if line.options.isMulticast then .multicast else .broadcast) ↔
        (line.options.ssm.isSome = true → line.options.isMulticast = true)) :=
    ⟨rfl, (options_checked hline).2, toolSsm_isSome hresolves, rfl,
      requested_serviceType hline hresolves⟩
  rcases hsent with hsent | ⟨k, hsent⟩
  · exact ⟨_, subscriptionBody (toolSubscription env), [], hsent, .inl rfl, hcarried⟩
  · exact ⟨_, subscriptionBody (toolSubscription env), [toolSubscribe env k], hsent,
      .inr ⟨k, rfl⟩, hcarried⟩

def addressesLine : CommandLine MbsServiceToolOptions :=
  { options :=
      { ssm := some ("10.0.0.1", "232.0.0.1"), reqTmgi := true,
        scpAddress := some "127.0.0.1", scpPort := 7777 }
    argv := [some "mbs-service-tool", none] }

/-- Without `-M` the addresses make the service a multicast one. -/
theorem addresses_make_multicast : ∃ m, run localNetwork addressesLine.options true [.next true] =
    .ok m ∧ ∃ carried body rest, sentOf m.world.consumer.log =
        { id := 4, sbiObject := 3, requester := .session 2
          request := .create carried (some (1, body)) } :: rest ∧
      addressesLine.options.isMulticast = false ∧ makeServiceType carried ≠ .broadcast := by
  have hline : mbsServiceToolOptions "mbs-service-tool" [.own .allocateTmgi,
      .own (.ssm "10.0.0.1:232.0.0.1"), .own (.scpAddress "127.0.0.1:7777")] [] =
        .ok addressesLine := rfl
  obtain ⟨m₀, hinit, -⟩ := init_eq localNetwork addressesLine.options true
  obtain ⟨m, hrun, hlength⟩ := exists_of_observed
    (x := run localNetwork addressesLine.options true [.next true])
    (f := fun m => (sentOf m.world.consumer.log).length) (v := 1) (by decide +kernel)
  have hfirst : firstOutcome (step (appState localNetwork addressesLine.options))
      (decides localNetwork addressesLine.options) m₀ [.next true] ≠ some .strayed := by
    obtain rfl := Except.ok.inj (hinit.symm.trans rfl)
    decide +kernel
  rcases requests_for_command_line hline hinit hrun hfirst with hnone |
    ⟨carried, body, rest, hsent, -, -, -, -, -, htype⟩
  · rw [hnone] at hlength
    cases hlength
  · refine ⟨m, hrun, carried, body, rest, hsent, rfl, fun hbroadcast => ?_⟩
    exact Bool.noConfusion (htype.1 hbroadcast rfl)

end Requests

end ServiceConsumers.MbsServiceEnds
