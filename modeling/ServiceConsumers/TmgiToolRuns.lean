import ServiceConsumers.TmgiTool

set_option autoImplicit false

/-!
# Runs of `tmgi-tool`

A run waits for the outcome of its request. What the first outcome says is kept to the end.
-/

namespace ServiceConsumers.TmgiToolRuns

open TmgiTool ObjectStore ServiceAreas PublicSessions ConsumerState TmgiOperations ResponseHandlers
  ProcessEvent TransitionRuns TransactionLog StepDecomposition AllocationMatching TmgiCallbacks
  PlmnRoundTrips CommandLines EventLoops

variable {options : TmgiToolOptions} {m m' : Tool} {w w' : World} {told : Told} {rsp : Response}
  {takes : Bool}

/-! ## Steps -/

theorem appState_library (hstate : m.state = firstState options) (e : NetworkEvent) :
    appState options m.state (.library e) m = callLibrary (fun w => networkStep w e) m := by
  rw [hstate, firstState]
  cases options.deleteTmgi <;> rfl

/-- An event of the network while the request is waited for, or after it. -/
theorem step_network (new : List Observation) {e : NetworkEvent} (hrunning : Running options m)
    (hcall : networkStep m.world.consumer e = .ok w) (hlog : w.log = new ++ m.world.consumer.log) :
    step (appState options) m (.library e takes) =
      .ok (Loop.postAll { m with takes := takes, world := { m.world with consumer := w } }
        (new.reverse.filterMap sentByCallback)) := by
  rw [step_library hrunning.exited]
  refine dispatch_stay ?_ (Loop.postAll_state)
  exact (appState_library (m := { m with takes := takes }) hrunning.state e).trans
    (callLibrary_eq new hcall hlog)

theorem step_silent {e : NetworkEvent} (hrunning : Running options m)
    (hcall : networkStep m.world.consumer e = .ok w) (hsilent : Silent m.world.consumer w) :
    step (appState options) m (.library e takes) =
      .ok { m with takes := takes, world := { m.world with consumer := w } } := by
  rw [step_library hrunning.exited]
  refine dispatch_stay ?_ rfl
  exact (appState_library (m := { m with takes := takes }) hrunning.state e).trans
    (callLibrary_silent hcall hsilent)

/-- Before the request is sent the network has nothing to say. -/
theorem step_unsent (hcodes : options.deleteTmgi = true → ∃ mcc mnc, CodesGiven options mcc mnc)
    (h : Unsent options m) (e : ToolEvent) :
    ∃ m', step (appState options) m e = .ok m' ∧ Waiting options m' := by
  cases e with
  | next takes =>
      rcases h.queue with hqueue | hqueue
      · exact ⟨m, step_next_nil hqueue, .inl h⟩
      · obtain ⟨w, hcall, hlog, hout⟩ := requestCall_initial options
        refine ⟨{ m with queue := [], takes := takes, world := { m.world with consumer := w } }, ?_,
          .inr ⟨⟨h.state, h.exited, h.reports⟩, hout, rfl⟩⟩
        rw [step_next_cons h.exited hqueue]
        refine dispatch_stay ?_ rfl
        rw [h.state, firstEvent_handled hcodes]
        refine callLibrary_eq [.sent (toolXact options)] ?_ ?_
        · rw [h.consumer]
          exact hcall
        · rw [h.consumer]
          exact hlog
  | library e takes =>
      have hcall : networkStep m.world.consumer e = .ok World.initial := by
        rw [h.consumer]
        cases e <;> rfl
      exact ⟨_, step_silent h.toRunning hcall (h.consumer ▸ .same), .inl ⟨⟨h.state, h.exited,
        h.reports⟩, rfl, h.queue⟩⟩

theorem decides_of_unsent (h : Unsent options m) (e : ToolEvent) : decides options m e = none := by
  have hnone : ∀ n, waitsFor m n = false := by
    intro n
    rw [waitsFor, h.consumer]
    rfl
  cases e with
  | next takes => rfl
  | library e takes => cases e <;> simp [decides, hnone]

theorem networkStep_lost (h : Outstanding options w) :
    networkStep w (.discovery 3 false) = .ok (w.removeXact 3) := by
  have hsbi : (toolXact options).sbiObject = 2 := rfl
  rw [networkStep, processDiscovery, h.findXact_self]
  simp [hsbi, h.toTmgi]

theorem lost_of_failed_discovery (h : Requested options m) (takes : Bool) :
    ∃ m', step (appState options) m (.library (.discovery 3 false) takes) = .ok m' ∧
      Lost options m' := by
  refine ⟨_, step_network [] h.toRunning (networkStep_lost h.consumer) rfl,
    ⟨h.state, h.exited, h.reports⟩, h.consumer.sent, ?_, h.queue⟩
  change (m.world.consumer.xacts.filter fun x => x.id ≠ 3) = []
  rw [h.consumer.xacts]
  rfl

/-- An answer is announced if it tells anything and the queue takes the event. -/
theorem decided_of_response (h : Requested options m) (rsp : Response) (takes : Bool) :
    ∃ m', step (appState options) m (.library (.response 3 rsp) takes) = .ok m' ∧
      Decided options (if takes then answer options rsp else none) m' := by
  obtain ⟨w', hcall, hanswered⟩ := processResponse_answered h.consumer rsp
  have hlost : ∀ {e k}, Ends m.world.consumer e k w' → takes = false ∨ k = 0 → ∃ m',
      step (appState options) m (.library (.response 3 rsp) takes) = .ok m' ∧ Lost options m' := by
    intro e k hends hnone
    obtain ⟨new, hlog, hsent, hcalls⟩ := hends.log
    refine ⟨_, step_network _ h.toRunning hcall hlog, ?_⟩
    rw [Loop.postAll_eq]
    refine ⟨⟨h.state, h.exited, h.reports⟩, ?_, hends.xacts, ?_⟩
    · change sentOf w'.log = _
      rw [hlog, sentOf_append, hsent, List.append_nil]
      exact h.consumer.sent
    · change m.queue ++ _ = []
      rw [h.queue, List.nil_append]
      rcases hnone with rfl | rfl
      · rfl
      · rw [List.filterMap_reverse, hcalls]
        exact ite_self _
  cases takes with
  | false =>
      cases hanswer : answer options rsp with
      | none => exact hlost (hanswered.untold hanswer) (.inl rfl)
      | some told =>
          obtain ⟨⟨k, hends⟩, -⟩ := hanswered.told told hanswer
          exact hlost hends (.inl rfl)
  | true =>
      cases hanswer : answer options rsp with
      | none => exact hlost (hanswered.untold hanswer) (.inr rfl)
      | some told =>
          obtain ⟨⟨k, hends⟩, y, hy, hcontents⟩ := hanswered.told told hanswer
          obtain ⟨new, hlog, hsent, hcalls⟩ := hends.log
          refine ⟨_, step_network _ h.toRunning hcall hlog, .inl ?_⟩
          rw [Loop.postAll_eq]
          refine ⟨⟨h.state, h.exited, h.reports⟩, ?_, hends.xacts, ⟨rsp, hanswer⟩,
            ⟨List.replicate k (lastEvent options told), ?_⟩, y, hy, hcontents⟩
          · change sentOf w'.log = _
            rw [hlog, sentOf_append, hsent, List.append_nil]
            exact h.consumer.sent
          · change m.queue ++ _ = _
            rw [h.queue, List.nil_append, List.filterMap_reverse, hcalls, List.reverse_replicate]
            rfl

/-- The answer, or a discovery that fails, decides. -/
theorem step_requested (h : Requested options m) (e : ToolEvent) :
    ∃ m', step (appState options) m e = .ok m' ∧ (decides options m e = none → Waiting options m') ∧
      ∀ v, decides options m e = some v → Decided options v m' := by
  have hout := h.consumer
  cases e with
  | next takes =>
      refine ⟨m, step_next_nil h.queue, fun _ => .inr h, fun v hv => ?_⟩
      cases hv
  | library e takes =>
      cases hdecides : decides options m (.library e takes) with
      | none =>
          obtain ⟨w, hcall, hsilent⟩ := networkStep_waits hout hdecides
          refine ⟨_, step_silent h.toRunning hcall hsilent, fun _ => .inr ⟨⟨h.state, h.exited,
            h.reports⟩, ?_, h.queue⟩, fun v hv => ?_⟩
          · cases hsilent with
            | same => exact hout
            | say o hcallback hsent => exact hout.say hsent
          · cases hv
      | some v =>
          cases e with
          | timeout n => cases hdecides
          | discovery n found =>
              obtain ⟨⟨hwaits, rfl⟩, rfl⟩ : (waitsFor m n = true ∧ found = false) ∧ none = v := by
                simpa [decides] using hdecides
              obtain rfl := hout.isSome_findXact_iff.1 hwaits
              obtain ⟨m', hstep, hlost⟩ := lost_of_failed_discovery h takes
              refine ⟨m', hstep, fun hnone => ?_, fun v hv => ?_⟩
              · cases hnone
              · obtain rfl := Option.some.inj hv
                exact hlost
          | response n rsp =>
              obtain ⟨hwaits, rfl⟩ : waitsFor m n = true ∧
                  (if takes then answer options rsp else none) = v := by
                simpa [decides] using hdecides
              obtain rfl := hout.isSome_findXact_iff.1 hwaits
              obtain ⟨m', hstep, hdecided⟩ := decided_of_response h rsp takes
              refine ⟨m', hstep, fun hnone => ?_, fun v hv => ?_⟩
              · cases hnone
              · obtain rfl := Option.some.inj hv
                exact hdecided

theorem step_lost (h : Lost options m) (e : ToolEvent) :
    ∃ m', step (appState options) m e = .ok m' ∧ Lost options m' := by
  cases e with
  | next takes => exact ⟨m, step_next_nil h.queue, h⟩
  | library e takes =>
      obtain ⟨w, hcall, hsilent⟩ := networkStep_of_idle h.xacts e
      refine ⟨_, step_silent h.toRunning hcall hsilent, ⟨h.state, h.exited, h.reports⟩, ?_, ?_,
        h.queue⟩
      · exact hsilent.sentOf_eq.trans h.sent
      · cases hsilent with
        | same => exact h.xacts
        | say o hcallback hsent => exact h.xacts

theorem mode_of_granted {mbsServiceId : Option String}
    (h : answer options rsp = some (.granted mbsServiceId)) : options.deleteTmgi = false := by
  unfold answer at h
  split at h
  · cases h
  · split at h
    · split at h <;> cases h
    · rename_i hmode
      simpa using hmode

theorem mode_of_released (h : answer options rsp = some .released) : options.deleteTmgi = true := by
  unfold answer at h
  split at h
  · cases h
  · split at h
    · rename_i hmode
      exact hmode
    · split at h
      · cases hreached : (reachedTmgis rsp).head? with
        | none =>
            rw [hreached] at h
            cases h
        | some api =>
            rw [hreached] at h
            cases h
      · cases h

theorem finish_done {t : Ref} {x : PrivTmgi} {named : Tmgi → Report} {failed : Report}
    (hx : m.world.consumer.tmgiStore t = some x) :
    finish m t true named failed = .ok ((report m (named x.tmgi)).goto .exit) := by
  rw [finish, if_pos rfl, World.tmgiAt, hx]
  rfl

/-- The last event is reported. -/
theorem lastEvent_handled {q : AppState} (hq : q = firstState options)
    (hanswer : answer options rsp = some told) {x : PrivTmgi} (hx : m.world.consumer.tmgiStore 1 = some x)
    (hcontents : Contents options told x.tmgi) :
    ∃ r, Reports options told r ∧
      appState options q (.own (lastEvent options told)) m = .ok ((report m r).goto .exit) := by
  subst hq
  cases told with
  | granted mbsServiceId =>
      refine ⟨.created x.tmgi, ⟨x.tmgi, rfl, hcontents⟩, ?_⟩
      rw [firstState, mode_of_granted hanswer]
      exact finish_done hx
  | released =>
      refine ⟨.deleted x.tmgi, congrArg Report.deleted hcontents, ?_⟩
      rw [firstState, mode_of_released hanswer]
      exact finish_done hx
  | failed problem =>
      refine ⟨_, rfl, ?_⟩
      rw [firstState, lastEvent]
      cases options.deleteTmgi <;> rfl

theorem appState_exit {q : AppState} (hq : q = firstState options) (m : Tool) :
    appState options q .exit m = .ok m := by
  rw [hq, firstState]
  cases options.deleteTmgi <;> rfl

/-- The event that has been announced is the end of the tool. -/
theorem next_announced (h : Announced options told m) (takes : Bool) :
    ∃ m', step (appState options) m (.next takes) = .ok m' ∧ Ended options told m' := by
  obtain ⟨rest, hqueue⟩ := h.queue
  obtain ⟨rsp, hanswer⟩ := h.answered
  obtain ⟨x, hx, hcontents⟩ := h.tmgi
  obtain ⟨r, hr, hhandled⟩ := lastEvent_handled (m := { m with queue := rest, takes := takes })
    h.state hanswer hx hcontents
  refine ⟨{ (report { m with queue := rest, takes := takes } r).goto .exit with exited := some 1 }, ?_,
    h.sent, rfl, r, ?_, hr⟩
  · rw [step_next_cons h.exited hqueue]
    refine (dispatch_move hhandled ?_ (appState_exit h.state _)).trans rfl
    change AppState.exit ≠ m.state
    rw [h.state, firstState]
    split <;> decide
  · change m.world.reports ++ [r] = [r]
    rw [h.reports]
    rfl

theorem step_announced (h : Announced options told m) (e : ToolEvent) :
    ∃ m', step (appState options) m e = .ok m' ∧
      (Announced options told m' ∨ Ended options told m') := by
  cases e with
  | next takes =>
      obtain ⟨m', hstep, hended⟩ := next_announced h takes
      exact ⟨m', hstep, .inr hended⟩
  | library e takes =>
      obtain ⟨w, hcall, hsilent⟩ := networkStep_of_idle h.xacts e
      refine ⟨_, step_silent h.toRunning hcall hsilent, .inl ⟨⟨h.state, h.exited, h.reports⟩,
        hsilent.sentOf_eq.trans h.sent, ?_, h.answered, h.queue, ?_⟩⟩
      · cases hsilent with
        | same => exact h.xacts
        | say o hcallback hsent => exact h.xacts
      · cases hsilent with
        | same => exact h.tmgi
        | say o hcallback hsent => exact h.tmgi

theorem step_ended (h : Ended options told m) (e : ToolEvent) :
    step (appState options) m e = .ok m := by
  refine step_of_exited ?_
  rw [h.exited]
  exact Option.some_ne_none 1

/-! ## Runs -/

section Runs

variable (hcodes : options.deleteTmgi = true → ∃ mcc mnc, CodesGiven options mcc mnc)

include hcodes

theorem step_waiting (m : Tool) (e : ToolEvent) (h : Waiting options m) :
    ∃ m', step (appState options) m e = .ok m' ∧ (decides options m e = none → Waiting options m') ∧
      ∀ v, decides options m e = some v → Decided options v m' := by
  rcases h with h | h
  · obtain ⟨m', hstep, hwaiting⟩ := step_unsent hcodes h e
    refine ⟨m', hstep, fun _ => hwaiting, fun v hv => ?_⟩
    rw [decides_of_unsent h] at hv
    cases hv
  · exact step_requested h e

omit hcodes in
theorem step_decided (m : Tool) (e : ToolEvent) (v : Option Told) (h : Decided options v m) :
    ∃ m', step (appState options) m e = .ok m' ∧ Decided options v m' := by
  cases v with
  | none => exact step_lost h e
  | some told =>
      rcases h with h | h
      · exact step_announced h e
      · exact ⟨m, step_ended h e, .inr h⟩

theorem decidedByFirst : DecidedByFirst (step (appState options)) (decides options) (Waiting options)
    (Decided options) :=
  .of_steps (step_waiting hcodes) step_decided

/-- A run goes through, and its end is decided by the first outcome of the request. -/
theorem run_decided {takes : Bool} {m₀ : Tool} (hinit : init options takes = .ok m₀)
    (es : List ToolEvent) : ∃ m, run options takes es = .ok m ∧
      (firstOutcome (step (appState options)) (decides options) m₀ es = none → Waiting options m) ∧
      ∀ v, firstOutcome (step (appState options)) (decides options) m₀ es = some v →
        Decided options v m := by
  obtain ⟨m₁, hinit', hunsent⟩ := init_eq options takes
  obtain rfl := Except.ok.inj (hinit.symm.trans hinit')
  obtain ⟨m, hm⟩ := run_total (I := fun m => Waiting options m ∨ ∃ v, Decided options v m)
    (fun m e hI => by
      rcases hI with hI | ⟨v, hI⟩
      · obtain ⟨m', hstep, hnone, hsome⟩ := step_waiting hcodes m e hI
        cases hdecides : decides options m e with
        | none => exact ⟨m', hstep, .inl (hnone hdecides)⟩
        | some v => exact ⟨m', hstep, .inr ⟨v, hsome v hdecides⟩⟩
      · obtain ⟨m', hstep, hdecided⟩ := step_decided m e v hI
        exact ⟨m', hstep, .inr ⟨v, hdecided⟩⟩) es (.inl (.inl hunsent))
  refine ⟨m, ?_, (decidedByFirst hcodes).run (.inl hunsent) hm⟩
  rw [run, hinit]
  exact hm

end Runs

section CommandLine

variable {command : String} {args : List (Argument TmgiToolArgument)} {operands : List String}
  {line : CommandLine TmgiToolOptions}

/-- With a command line that is accepted no run fails, and the tool ends exactly when it has been
told of its request: with the report for the first outcome, and else never. -/
theorem tool_ends_as_told (hline : tmgiToolOptions command args operands = .ok line) {takes : Bool}
    {m₀ : Tool} (hinit : init line.options takes = .ok m₀) (es : List ToolEvent) :
    ∃ m, run line.options takes es = .ok m ∧
      (∀ told, firstOutcome (step (appState line.options)) (decides line.options) m₀ es =
        some (some told) → ∀ takes, ∃ m', step (appState line.options) m (.next takes) = .ok m' ∧
          m'.exited = some 1 ∧ ∃ r, m'.world.reports = [r] ∧ Reports line.options told r) ∧
      ((∀ told, firstOutcome (step (appState line.options)) (decides line.options) m₀ es ≠
        some (some told)) → m.exited = none ∧ m.world.reports = []) := by
  obtain ⟨m, hrun, hnone, hsome⟩ := run_decided (codesGiven hline) hinit es
  refine ⟨m, hrun, fun told htold takes => ?_, fun huntold => ?_⟩
  · rcases hsome _ htold with h | h
    · obtain ⟨m', hstep, hended⟩ := next_announced h takes
      exact ⟨m', hstep, hended.exited, hended.reports⟩
    · exact ⟨m, step_ended h _, h.exited, h.reports⟩
  · cases houtcome : firstOutcome (step (appState line.options)) (decides line.options) m₀ es with
    | none =>
        rcases hnone houtcome with h | h
        · exact ⟨h.exited, h.reports⟩
        · exact ⟨h.exited, h.reports⟩
    | some v =>
        cases v with
        | none =>
            have h : Lost line.options m := hsome none houtcome
            exact ⟨h.exited, h.reports⟩
        | some told => exact absurd houtcome (huntold told)

/-- A granted allocation. -/
def grantedAnswer : Response :=
  { status := 200, resStatus := 200,
    tmgiAllocated := some { tmgiList := [some ⟨some "000001", "001", "01", 1, 1⟩], expiryTime := 9 } }

def allocationLine : CommandLine TmgiToolOptions :=
  { options := { scpAddress := some "127.0.0.1", scpPort := 7777 },
    argv := [some "tmgi-tool", none] }

theorem granted_allocation_ends : ∃ m m', run allocationLine.options true
    [.next true, .library (.timeout 3) true, .library (.response 3 grantedAnswer) true] = .ok m ∧
      step (appState allocationLine.options) m (.next true) = .ok m' ∧ m'.exited = some 1 := by
  have hline : tmgiToolOptions "tmgi-tool" [.own (.scpAddress "127.0.0.1:7777")] [] =
      .ok allocationLine := rfl
  have hinit : init allocationLine.options true = .ok _ := rfl
  obtain ⟨m, hrun, htold, -⟩ := tool_ends_as_told hline hinit
    [.next true, .library (.timeout 3) true, .library (.response 3 grantedAnswer) true]
  obtain ⟨m', hstep, hexited, -⟩ := htold (.granted (some "000001")) (by rfl) true
  exact ⟨m, m', hrun, hstep, hexited⟩

theorem sent_of_run (hline : tmgiToolOptions command args operands = .ok line) {takes : Bool}
    {es : List ToolEvent} {m : Tool} (hrun : run line.options takes es = .ok m) :
    sentOf m.world.consumer.log = [] ∨ sentOf m.world.consumer.log = [toolXact line.options] := by
  obtain ⟨m₀, hinit, -⟩ := init_eq line.options takes
  obtain ⟨m', hrun', hnone, hsome⟩ := run_decided (codesGiven hline) hinit es
  obtain rfl := Except.ok.inj (hrun.symm.trans hrun')
  cases houtcome : firstOutcome (step (appState line.options)) (decides line.options) m₀ es with
  | none =>
      rcases hnone houtcome with h | h
      · left
        rw [h.consumer]
        rfl
      · exact .inr h.consumer.sent
  | some v =>
      right
      cases v with
      | none => exact (show Lost line.options m from hsome none houtcome).sent
      | some told =>
          rcases hsome _ houtcome with h | h
          · exact h.sent
          · exact h.sent

end CommandLine

/-! ## The PLMN of a deletion -/

section Codes

open CacheAges NumberTexts WireText

variable {mcc mnc : String}

/-- `atoi` reads the digits of a code. -/
theorem atoi_of_isCode {n : ℕ} {str : String} (hn : 0 < n ∧ n ≤ 3) (h : IsCode n str) :
    atoi str.toList = codeValue str := by
  have hlt : codeValue str < 1000 :=
    (codeValue_lt h).trans_le (Nat.pow_le_pow_right (n := 10) (by decide) hn.2)
  have hdigits : readDigits 10 0 str.toList = (codeValue str, []) := by
    have hvalue : ∀ d < 10, digitValue (id (Nat.digitChar d)) = some d :=
      fun d hd => digitValue_digitChar (by omega)
    have hread := readDigits_map_toDigits (by decide) hvalue (codeValue str)
    rw [List.map_id] at hread
    conv_lhs => rw [← padDecimal_codeValue hn.1 h]
    simp only [padDecimal, String.toList_ofList]
    rw [readDigits_zeros (by decide), hread]
  obtain ⟨c, cs, hcs⟩ : ∃ c cs, str.toList = c :: cs := by
    refine List.exists_cons_of_ne_nil fun hnil => ?_
    rw [IsCode, hnil] at h
    exact absurd h.1 (Nat.ne_of_lt hn.1)
  have hc : c.isDigit = true := h.2 c (by rw [hcs]; exact List.mem_cons_self)
  have hrange := Char.isDigit_iff_toNat.1 hc
  have hne : ∀ d : Char, d.toNat < 48 → c ≠ d := by
    rintro d hd rfl
    exact absurd hrange.1 (Nat.not_le.2 hd)
  have hspace : isSpace c = false := by
    have htab : ¬c ≤ '\r' := by
      intro hle
      have hnat : c.toNat ≤ '\r'.toNat := hle
      exact absurd (hrange.1.trans hnat) (by decide)
    simp [isSpace, hne ' ' (by decide), htab]
  have hsign : readSign (c :: cs) = (false, c :: cs) := by
    rw [readSign]
    · exact fun _ h => hne '-' (by decide) (List.cons.inj h).1
    · exact fun _ h => hne '+' (by decide) (List.cons.inj h).1
  rw [hcs] at hdigits ⊢
  rw [atoi, List.dropWhile_cons, hspace]
  simp only [Bool.false_eq_true, if_false, hsign, hdigits]
  rw [min_eq_left (by omega), Int.bmod_eq_of_le (by omega) (by omega)]

theorem code16_of_isCode {n : ℕ} {str : String} (hn : 0 < n ∧ n ≤ 3) (h : IsCode n str) :
    code16 str = codeValue str := by
  have hlt : codeValue str < 1000 :=
    (codeValue_lt h).trans_le (Nat.pow_le_pow_right (n := 10) (by decide) hn.2)
  rw [code16, atoi_of_isCode hn h, BitVec.toNat_ofInt]
  omega

/-- The request of a deletion names the PLMN of the command line, where the length of the MNC is
the one that is guessed from its value. -/
def NamesPlmn (mcc mnc : String) : Prop :=
  if codeValue mcc = 0 ∧ codeValue mnc = 0 then mnc.toList.length = 3
  else codeValue mnc < 100 → mnc.toList.length = 2

instance (mcc mnc : String) : Decidable (NamesPlmn mcc mnc) :=
  inferInstanceAs (Decidable (if codeValue mcc = 0 ∧ codeValue mnc = 0 then mnc.toList.length = 3
    else codeValue mnc < 100 → mnc.toList.length = 2))

theorem plmnKept_iff (hmcc : IsCode 3 mcc) (hmnc : IsCode 2 mnc ∨ IsCode 3 mnc) :
    PlmnKept code16 mcc mnc {} ↔ NamesPlmn mcc mnc := by
  have hreadMcc := code16_of_isCode (by decide) hmcc
  have hreadMnc : code16 mnc = codeValue mnc :=
    hmnc.elim (code16_of_isCode (by decide)) (code16_of_isCode (by decide))
  have hzero : codeValue mnc = 0 → (plmnIdMncString {} = mnc ↔ mnc.toList.length = 3) := by
    intro hvalue
    constructor
    · intro h
      rw [← h]
      rfl
    · intro hlength
      have hcode : IsCode 3 mnc := hmnc.resolve_left fun h => by
        have htwo := h.1
        omega
      have hpad := padDecimal_codeValue (by decide) hcode
      rw [hvalue] at hpad
      exact hpad
  constructor
  · intro h
    have hdigits := h.digits
    rw [hreadMcc, hreadMnc] at hdigits
    unfold NamesPlmn
    by_cases hboth : codeValue mcc = 0 ∧ codeValue mnc = 0
    · rw [if_pos ⟨hboth.1.symm, hboth.2.symm⟩] at hdigits
      rw [if_pos hboth]
      exact (hzero hboth.2).1 hdigits
    · rw [if_neg fun h => hboth ⟨h.1.symm, h.2.symm⟩] at hdigits
      rw [if_neg hboth]
      exact hdigits
  · intro h
    refine ⟨hreadMcc, hreadMnc, ?_⟩
    rw [hreadMcc, hreadMnc]
    unfold NamesPlmn at h
    by_cases hboth : codeValue mcc = 0 ∧ codeValue mnc = 0
    · rw [if_pos hboth] at h
      rw [if_pos ⟨hboth.1.symm, hboth.2.symm⟩]
      exact (hzero hboth.2).2 h
    · rw [if_neg hboth] at h
      rw [if_neg fun h => hboth ⟨h.1.symm, h.2.symm⟩]
      exact h

end Codes

section Requests

variable {command : String} {args : List (Argument TmgiToolArgument)} {operands : List String}
  {line : CommandLine TmgiToolOptions}

theorem toolTmgi_plmn {mcc mnc : String} (hmode : options.deleteTmgi = true)
    (hcodes : CodesGiven options mcc mnc) :
    (toolTmgi options).tmgi.plmn = storedPlmn code16 mcc mnc {} := by
  rw [toolTmgi, hmode, hcodes.givenMcc, hcodes.givenMnc]
  change (tmgiSetPlmn _ _ (tmgiSetMbsServiceId _ _)).tmgi.plmn = _
  rw [tmgiSetPlmn_plmn]
  rfl

theorem toolTmgi_mbsServiceId (hmode : options.deleteTmgi = true) :
    (toolTmgi options).tmgi.mbsServiceId = options.mbsServiceId := by
  rw [toolTmgi, hmode]
  change (tmgiSetPlmn _ _ (tmgiSetMbsServiceId _ _)).tmgi.mbsServiceId = _
  rw [tmgiSetPlmn_mbsServiceId]
  rfl

/-- A run sends one request at most. It asks for one TMGI, or gives back the TMGI of the command
line, whose PLMN it names exactly when the MNC has as many digits as its value makes expect. -/
theorem only_request_names_tmgi (hline : tmgiToolOptions command args operands = .ok line)
    {takes : Bool} {es : List ToolEvent} {m : Tool} (hrun : run line.options takes es = .ok m) :
    (sentOf m.world.consumer.log).length ≤ 1 ∧ ∀ x ∈ sentOf m.world.consumer.log,
      (line.options.deleteTmgi = false → x.request = .tmgiAllocate 1 []) ∧
      (line.options.deleteTmgi = true → ∃ c mcc mnc, x.request = .tmgiDeallocate [c] ∧
        line.options.mcc = some mcc ∧ line.options.mnc = some mnc ∧
        c.mbsServiceId = line.options.mbsServiceId ∧
        ((plmnIdMccString c.plmn = mcc ∧ plmnIdMncString c.plmn = mnc) ↔ NamesPlmn mcc mnc)) := by
  have hmem : ∀ x ∈ sentOf m.world.consumer.log, x = toolXact line.options := by
    intro x hx
    rcases sent_of_run hline hrun with hsent | hsent
    · rw [hsent] at hx
      cases hx
    · rw [hsent] at hx
      exact List.mem_singleton.1 hx
  refine ⟨?_, fun x hx => ?_⟩
  · rcases sent_of_run hline hrun with hsent | hsent
    · rw [hsent]
      exact Nat.zero_le 1
    · rw [hsent]
      exact Nat.le_refl 1
  · rw [hmem x hx]
    constructor
    · intro hmode
      rw [toolXact, toolRequest, hmode]
      rfl
    · intro hmode
      obtain ⟨mcc, mnc, hcodes⟩ := codesGiven hline hmode
      refine ⟨(toolTmgi line.options).tmgi, mcc, mnc, ?_, hcodes.givenMcc, hcodes.givenMnc,
        toolTmgi_mbsServiceId hmode, ?_⟩
      · rw [toolXact, toolRequest, hmode]
        rfl
      · rw [toolTmgi_plmn hmode hcodes, storedPlmn_texts_iff hcodes.isCodeMcc hcodes.isCodeMnc,
          plmnKept_iff hcodes.isCodeMcc hcodes.isCodeMnc]

def deletionLine : CommandLine TmgiToolOptions :=
  { options :=
      { deleteTmgi := true, mbsServiceId := some "000001", mcc := some "001", mnc := some "001",
        scpAddress := some "127.0.0.1", scpPort := 7777 }
    argv := [some "tmgi-tool", none] }

/-- An MNC of 001 is sent as 01. -/
theorem deletion_shortens_mnc : ∃ m, run deletionLine.options true [.next true] = .ok m ∧
    sentOf m.world.consumer.log ≠ [] ∧ ∀ x ∈ sentOf m.world.consumer.log, ∃ c,
      x.request = .tmgiDeallocate [c] ∧
        ¬(plmnIdMccString c.plmn = "001" ∧ plmnIdMncString c.plmn = "001") := by
  refine ⟨_, rfl, by exact List.cons_ne_nil _ _, fun x hx => ?_⟩
  have hline : tmgiToolOptions "tmgi-tool" [.own .delete, .own (.mbsServiceId "000001"),
      .own (.plmn "001-001"), .own (.scpAddress "127.0.0.1:7777")] [] = .ok deletionLine := rfl
  have hrun : run deletionLine.options true [.next true] = .ok _ := rfl
  obtain ⟨-, hrequests⟩ := only_request_names_tmgi hline hrun
  obtain ⟨c, mcc, mnc, hrequest, hmcc, hmnc, -, hnamed⟩ := (hrequests x hx).2 rfl
  refine ⟨c, hrequest, fun htexts => ?_⟩
  obtain rfl := Option.some.inj hmcc
  obtain rfl := Option.some.inj hmnc
  have hnames := hnamed.1 htexts
  revert hnames
  decide +kernel

end Requests

end ServiceConsumers.TmgiToolRuns
