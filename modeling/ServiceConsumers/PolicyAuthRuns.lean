import ServiceConsumers.PcfCreations
import ServiceConsumers.PolicyAuthTool

set_option autoImplicit false

/-!
# Runs of `pcf-policyauthorization`

A run goes from the discovery of the PCF to a creation and on to waiting for notifications. On
the way it may end, or be left with nothing to wait for.
-/

namespace ServiceConsumers.PolicyAuthRuns

open ObjectStore PublicSessions TransitionRuns PcfSessions PcfHandlers PcfCreations CommandLines
  EventLoops PolicyAuthTool

/-! ## The app session -/

/-- The context of the PCF client after the creation of the app session. -/
def createdPcf (sends : Bool) : Context :=
  { pcfSessions := [{ ref := 0, notifServer := some 2, pcfAppSessions := [1] }]
    appSessions := Store.empty.set 1 (newAppSession 0 createArgs)
    posts := if sends then [1] else []
    next := 3
    log := if sends then [.created 1 (some 1)] else [] }

theorem create_eq (sends : Bool) :
    pcfSessionCreateAppSession (pcfSessionNew {}) 0 createArgs sends = .ok (createdPcf sends) := by
  cases sends <;> rfl

/-- The creation has ended, and the tool was called with what it is told, if with anything. -/
structure Ended (w : Context) (told : List (Option ℕ)) : Prop where
  posts : w.posts = []
  log : w.log = told.map (.change 1 1) ++ (createdPcf true).log

theorem removed_ended : ∃ w, pcfAppSessRemove { createdPcf true with posts := [] } 1 = .ok w ∧
    Ended w [none] :=
  ⟨_, rfl, rfl, rfl⟩

theorem accepted_ended {rsp : SbiResponse} (h : SbiResponse.complete rsp) :
    Ended (pcfPolicyauthorizationCreate { createdPcf true with posts := [] } 1 rsp) [some 1] := by
  obtain ⟨component, id, features, hlocation, hid, hcontext⟩ := h
  unfold pcfPolicyauthorizationCreate
  simp only [hlocation, hid, hcontext]
  exact ⟨rfl, rfl⟩

theorem incomplete_ended {rsp : SbiResponse} (h : ¬SbiResponse.complete rsp) :
    Ended (pcfPolicyauthorizationCreate { createdPcf true with posts := [] } 1 rsp) [] := by
  unfold pcfPolicyauthorizationCreate
  split
  · exact ⟨rfl, rfl⟩
  · exact ⟨rfl, rfl⟩
  · rename_i component hlocation
    split
    · rename_i id context hid hcontext
      dsimp only
      split
      · exact ⟨rfl, rfl⟩
      · exact ⟨rfl, rfl⟩
      · rename_i features hreq
        refine absurd ⟨component, id, features, hlocation, hid, ?_⟩ h
        rw [hcontext]
        exact congrArg some (congrArg AppSessionContext.mk hreq)
    · exact ⟨rfl, rfl⟩

/-- The end of the creation is told unless it is dropped. -/
theorem creation_ends (c : Completion) :
    ∃ w told, PcfHandlers.step (createdPcf true) (.created 1 c) = .ok w ∧ Ended w told ∧
      (¬Completion.tells c → told = []) ∧
      (Completion.tells c → told = [some 1] ∧ Completion.accepted c ∨
        told = [none] ∧ ¬Completion.accepted c) := by
  have hstep : PcfHandlers.step (createdPcf true) (.created 1 c) =
      clientNotifyCb { createdPcf true with posts := [] } 1 { c with state := c.state.ofCreation } :=
    rfl
  have hsame : Ended { createdPcf true with posts := [] } [] := ⟨rfl, rfl⟩
  rw [hstep]
  unfold clientNotifyCb
  cases hqueued : c.queued with
  | false =>
      refine ⟨_, [], rfl, hsame, fun _ => rfl, fun htells => ?_⟩
      rw [Completion.tells, hqueued] at htells
      cases htells.1
  | true =>
      obtain ⟨v, hremove, hremoved⟩ := removed_ended
      cases hstate : c.state with
      | done =>
          refine ⟨v, [none], hremove, hremoved, fun hnot => absurd ?_ hnot, fun _ => .inr ⟨rfl, ?_⟩⟩
          · rw [Completion.tells, hqueued, hstate]
            exact ⟨rfl, trivial⟩
          · rintro ⟨rsp, hrsp, -⟩
            rw [hstate] at hrsp
            cases hrsp
      | other =>
          refine ⟨v, [none], hremove, hremoved, fun hnot => absurd ?_ hnot, fun _ => .inr ⟨rfl, ?_⟩⟩
          · rw [Completion.tells, hqueued, hstate]
            exact ⟨rfl, trivial⟩
          · rintro ⟨rsp, hrsp, -⟩
            rw [hstate] at hrsp
            cases hrsp
      | timeup =>
          refine ⟨_, [], rfl, hsame, fun _ => rfl, fun htells => ?_⟩
          rw [Completion.tells, hqueued, hstate] at htells
          exact absurd htells.2 id
      | ok rsp =>
          have haccepted : Completion.accepted c ↔ rsp.status = 201 := by
            rw [Completion.accepted, hstate]
            constructor
            · rintro ⟨rsp', hrsp, hstatus⟩
              obtain rfl := SbiState.ok.inj hrsp
              exact hstatus
            · intro hstatus
              exact ⟨rsp, rfl, hstatus⟩
          have htells : Completion.tells c ↔
              rsp.parsed = true ∧ (rsp.status = 201 → SbiResponse.complete rsp) := by
            rw [Completion.tells, hqueued, hstate]
            exact and_iff_right rfl
          simp only [htells, haccepted]
          cases hparsed : rsp.parsed with
          | false =>
              refine ⟨_, [], ?_, hsame, fun _ => rfl, fun htells => ?_⟩
              · change (if rsp.parsed = true then _ else _) = _
                rw [if_neg (by rw [hparsed]; exact Bool.false_ne_true)]
              · cases htells.1
          | true =>
              have hrun : ∀ r, processResponse { createdPcf true with posts := [] } 1
                  { rsp with header := createHeader } = r →
                (if true = true then processClientEvent { createdPcf true with posts := [] } 1
                  (SbiState.ok rsp).ofCreation else .ok { createdPcf true with posts := [] }) = r := by
                rintro r rfl
                change (if rsp.parsed = true then _ else _) = _
                rw [if_pos hparsed]
              rw [processResponse_created] at hrun
              by_cases hstatus : rsp.status = 201
              · rw [if_pos hstatus] at hrun
                by_cases hcomplete : SbiResponse.complete rsp
                · exact ⟨_, [some 1], hrun _ rfl, accepted_ended hcomplete,
                    fun hnot => absurd ⟨rfl, fun _ => hcomplete⟩ hnot, fun _ => .inl ⟨rfl, hstatus⟩⟩
                · exact ⟨_, [], hrun _ rfl, incomplete_ended hcomplete, fun _ => rfl,
                    fun htells => absurd (htells.2 hstatus) hcomplete⟩
              · rw [if_neg hstatus] at hrun
                exact ⟨v, [none], hrun _ hremove, hremoved,
                  fun hnot => absurd ⟨rfl, fun h => absurd h hstatus⟩ hnot,
                  fun _ => .inr ⟨rfl, hstatus⟩⟩

/-! ## What a run has seen -/

def toldBinding : BsfSessions.Observation PcfBinding → Option PcfBinding
  | .cacheCallback _ binding => some binding
  | .retrieveCallback _ _ binding => binding

/-- What the tool was told of the PCF first. -/
def firstTold (w : BsfSessions.Context PcfBinding) : Option (Option PcfBinding) :=
  (w.log.map toldBinding).getLast?

/-- What a binding says about the PCF. -/
inductive Finding where
  | known (address : String) (port : BitVec 16)
  | nameless
  | missing
  deriving DecidableEq, Repr

def finding (binding : Option PcfBinding) : Finding :=
  match binding.bind fun b => b.pcfIpEndPoints.head? with
  | none => .missing
  | some endPoint =>
      match endPoint.ipv4Address <|> endPoint.ipv6Address with
      | none => .nameless
      | some address => .known address (BitVec.ofInt 16 (endPoint.port.getD 0))

/-- The address is the one of the command line, or else that of the binding told first. -/
def KnownPcf (options : PolicyAuthOptions) (w : ToolWorld) (address : String) (port : BitVec 16) : Prop :=
  options.pcfAddress = some address ∧ port = options.pcfPort ∨
    options.pcfAddress = none ∧ ∃ b, firstTold w.bsf = some b ∧ finding b = .known address port

def requestFor (host : Host) (options : PolicyAuthOptions) (address : String) (port : BitVec 16) :
    AppSessionRequest :=
  { pcfAddress := address
    pcfPort := port
    ueAddress := options.ueAddress.getD ""
    mediaComponent := mediaComponent host options }

/-- The requests that were sent. -/
def Sent (host : Host) (options : PolicyAuthOptions) (w : ToolWorld) : Prop :=
  w.requests = [] ∨ ∃ address port, w.requests = [requestFor host options address port] ∧
    KnownPcf options w address port

variable {host : Host} {options : PolicyAuthOptions} {m m' : Tool}

/-- What is kept while nothing is said to the tool. -/
structure Frame (m m' : Tool) : Prop where
  state : m'.state = m.state
  exited : m'.exited = m.exited
  pcf : m'.world.pcf = m.world.pcf
  pcfSession : m'.world.pcfSession = m.world.pcfSession
  requests : m'.world.requests = m.world.requests

theorem Frame.refl (m : Tool) : Frame m m := ⟨rfl, rfl, rfl, rfl, rfl⟩

theorem Sent.of_frame (h : Sent host options m.world) (hframe : Frame m m')
    (htold : firstTold m'.world.bsf = firstTold m.world.bsf) : Sent host options m'.world := by
  rcases h with h | ⟨address, port, hrequests, hknown⟩
  · exact .inl (hframe.requests.trans h)
  · refine .inr ⟨address, port, hframe.requests.trans hrequests, ?_⟩
    rw [KnownPcf, htold]
    exact hknown

/-! ## The BSF client -/

section Bsf

open BsfSessions

variable {w w' : BsfSessions.Context PcfBinding}

/-- An event of the BSF client is silent, or ends a session with one callback. -/
inductive BsfStep (w : BsfSessions.Context PcfBinding) :
    BsfSessions.Context PcfBinding → Option (Option PcfBinding) → Prop where
  | silent (w' : BsfSessions.Context PcfBinding) (hlog : w'.log = w.log)
      (hsessions : w'.activeSessions = w.activeSessions) : BsfStep w w' none
  | told (w' : BsfSessions.Context PcfBinding) (sess : BsfClientSess) (binding : Option PcfBinding)
      (hmem : sess ∈ w.activeSessions)
      (hlog : w'.log = .retrieveCallback sess.id sess.callback binding :: w.log)
      (hsessions : w'.activeSessions = w.activeSessions.filter fun x => x.id ≠ sess.id) :
      BsfStep w w' (some binding)

theorem mem_of_findSession {s : ℕ} {sess : BsfClientSess} (h : w.findSession s = some sess) :
    sess ∈ w.activeSessions := List.mem_of_find?_eq_some h

theorem mem_of_ends {e : BsfSessions.Event PcfBinding} {n : ℕ} {sess : BsfClientSess}
    {binding : Option PcfBinding} (h : e.ends w = some (n, sess, binding)) :
    sess ∈ w.activeSessions := by
  cases e with
  | retrieve r => cases h
  | localEvent s discovery => cases h
  | response k rsp during =>
      simp only [Event.ends, Option.bind_eq_bind, Option.bind_eq_some_iff] at h
      obtain ⟨s, -, sess', hsess, binding', -, heq⟩ := h
      cases heq
      exact mem_of_findSession hsess
  | clientWait k during =>
      simp only [Event.ends, Option.bind_eq_bind, Option.bind_eq_some_iff] at h
      obtain ⟨s, -, sess', hsess, heq⟩ := h
      cases heq
      exact mem_of_findSession hsess

/-- The response that ends a session brings no binding for the cache. -/
def Unbound (w : BsfSessions.Context PcfBinding) (e : BsfEvent) : Prop :=
  (e.event.ends w).isSome = true ∧ e.event.copiesNothing = true

instance (w : BsfSessions.Context PcfBinding) (e : BsfEvent) : Decidable (Unbound w e) :=
  inferInstanceAs (Decidable (_ ∧ _))

/-- An event that ends a session or none. -/
theorem bsfStep_of_ends {e : BsfSessions.Event PcfBinding}
    (hnone : e.ends w = none → BsfSessions.step w e = .ok w)
    (hsome : ∀ n sess binding, e.ends w = some (n, sess, binding) →
      BsfSessions.step w e = complete w n sess binding []) :
    ∃ w' told, BsfSessions.step w e = .ok w' ∧ BsfStep w w' told := by
  cases hends : e.ends w with
  | none => exact ⟨w, none, hnone hends, .silent w rfl rfl⟩
  | some x =>
      obtain ⟨n, sess, binding⟩ := x
      exact ⟨_, some binding, hsome n sess binding hends,
        .told _ sess binding (mem_of_ends hends) rfl rfl⟩

theorem bsfStep {e : BsfEvent} (hbound : ¬Unbound w e) :
    ∃ w' told, BsfSessions.step w e.event = .ok w' ∧ BsfStep w w' told := by
  cases e with
  | response n rsp =>
      refine bsfStep_of_ends (fun h => ?_) fun k sess binding h => ?_
      · simp only [BsfEvent.event, BsfSessions.step] at h ⊢
        rw [h]
      · have hcopies : ¬(Event.response n rsp []).copiesNothing = true := fun hcopies =>
          hbound ⟨by rw [h]; rfl, hcopies⟩
        simp only [BsfEvent.event, BsfSessions.step] at h ⊢
        rw [h]
        exact if_neg hcopies
  | clientWait n =>
      refine bsfStep_of_ends (fun h => ?_) fun k sess binding h => ?_
      · simp only [BsfEvent.event, BsfSessions.step] at h ⊢
        rw [h]
      · simp only [BsfEvent.event, BsfSessions.step] at h ⊢
        rw [h]
        rfl
  | localEvent s discovery =>
      have hlocal : (bsfClientLocalProcessEvent w s discovery).log = w.log ∧
          (bsfClientLocalProcessEvent w s discovery).activeSessions = w.activeSessions := by
        unfold bsfClientLocalProcessEvent
        dsimp only
        split <;> exact ⟨rfl, rfl⟩
      refine ⟨_, none, rfl, ?_⟩
      split
      · exact .silent _ hlocal.1 hlocal.2
      · exact .silent _ rfl rfl

theorem bsfStep_unbound {e : BsfEvent} (h : Unbound w e) :
    BsfSessions.step w e.event = .error .assertion := by
  obtain ⟨hends, hcopies⟩ := h
  obtain ⟨x, hx⟩ := Option.isSome_iff_exists.1 hends
  cases e with
  | response n rsp =>
      simp only [BsfEvent.event, BsfSessions.step] at hx hcopies ⊢
      rw [hx]
      exact if_pos hcopies
  | clientWait n => cases hcopies
  | localEvent s discovery => cases hcopies

theorem not_unbound_of_idle {e : BsfEvent} (h : w.activeSessions = []) : ¬Unbound w e := by
  rintro ⟨hends, -⟩
  obtain ⟨⟨n, sess, binding⟩, hx⟩ := Option.isSome_iff_exists.1 hends
  have hmem := mem_of_ends hx
  rw [h] at hmem
  cases hmem

end Bsf

/-! ## Events for the libraries -/

/-- The event for what the callback of the BSF client is told. -/
def eventFor (binding : Option PcfBinding) : LocalEvent :=
  if finding binding = .missing then .pcfDiscoveryFailed else .discoveredPcf

def discoveryFor (binding : Option PcfBinding) : PcfDiscovery :=
  match binding.bind fun b => b.pcfIpEndPoints.head? with
  | none => {}
  | some endPoint =>
      { address := endPoint.ipv4Address <|> endPoint.ipv6Address
        port := endPoint.port.getD 0
        running := false }

theorem discoveryFor_nameless {binding : Option PcfBinding} (h : finding binding = .nameless) :
    (discoveryFor binding).address = none ∧ (discoveryFor binding).running = false := by
  unfold finding at h
  unfold discoveryFor
  split
  · exact ⟨rfl, rfl⟩
  · rename_i endPoint hend
    rw [hend] at h
    dsimp only at h
    split at h
    · rename_i hnone
      exact ⟨hnone, rfl⟩
    · cases h

theorem discoveryFor_known {binding : Option PcfBinding} {address : String} {port : BitVec 16}
    (h : finding binding = .known address port) :
    (discoveryFor binding).address = some address ∧
      BitVec.ofInt 16 (discoveryFor binding).port = port := by
  unfold finding at h
  unfold discoveryFor
  split
  · rename_i hnone
    rw [hnone] at h
    cases h
  · rename_i endPoint hend
    rw [hend] at h
    dsimp only at h
    split at h
    · cases h
    · rename_i address' haddress
      obtain ⟨rfl, hport⟩ := Finding.known.inj h
      exact ⟨haddress, hport⟩

theorem bsfRetrieveCallback_eq (binding : Option PcfBinding) (m : Tool) :
    bsfRetrieveCallback binding m =
      (modifyWorld m fun w => { w with discovery := discoveryFor binding }).post (eventFor binding) := by
  unfold bsfRetrieveCallback eventFor discoveryFor finding
  cases binding.bind fun b => b.pcfIpEndPoints.head? with
  | none => rfl
  | some endPoint =>
      dsimp only
      refine congrArg _ (if_neg fun h => ?_).symm
      split at h <;> cases h

/-- Nothing is said to the tool. -/
structure Still (m m' : Tool) : Prop extends Frame m m' where
  queue : m'.queue = m.queue
  discovery : m'.world.discovery = m.world.discovery
  log : m'.world.bsf.log = m.world.bsf.log
  sessions : m'.world.bsf.activeSessions = m.world.bsf.activeSessions

theorem Still.refl (m : Tool) : Still m m := ⟨Frame.refl m, rfl, rfl, rfl, rfl⟩

theorem Still.told (h : Still m m') : firstTold m'.world.bsf = firstTold m.world.bsf := by
  rw [firstTold, firstTold, h.log]

theorem Still.sent (h : Still m m') (hsent : Sent host options m.world) : Sent host options m'.world :=
  hsent.of_frame h.toFrame h.told

/-- The tool is told of a binding, or of none. -/
structure Hears (binding : Option PcfBinding) (takes : Bool) (m m' : Tool) : Prop
    extends Frame m m' where
  queue : m'.queue = m.queue ++ if takes = true then [eventFor binding] else []
  discovery : m'.world.discovery = discoveryFor binding
  log : ∃ s callback, m'.world.bsf.log = .retrieveCallback s callback binding :: m.world.bsf.log
  sessions : ∃ sess ∈ m.world.bsf.activeSessions,
    m'.world.bsf.activeSessions = m.world.bsf.activeSessions.filter fun x => x.id ≠ sess.id

theorem step_library_eq {e : LibraryEvent} {takes : Bool} (hexited : m.exited = none)
    (h : processEvent { m with takes := takes } e = .ok m') (hstate : m'.state = m.state) :
    step (appState host options) m (.library e takes) = .ok m' := by
  rw [step_library hexited]
  refine dispatch_stay ?_ hstate
  refine Eq.trans ?_ h
  cases m.state <;> rfl

variable (host options) in
theorem step_bsf (hexited : m.exited = none) {e : BsfEvent} (hbound : ¬Unbound m.world.bsf e)
    (takes : Bool) : ∃ m',
      step (appState host options) m (.library (.bsf e) takes) = .ok m' ∧
      (Still m m' ∨ ∃ binding, Hears binding takes m m') := by
  obtain ⟨w, told, hw, hstep⟩ := bsfStep hbound
  cases hstep with
  | silent hlog hsessions =>
      refine ⟨modifyWorld { m with takes := takes } fun v => { v with bsf := w }, ?_,
        .inl ⟨⟨rfl, rfl, rfl, rfl, rfl⟩, rfl, rfl, hlog, hsessions⟩⟩
      refine step_library_eq hexited ?_ rfl
      simp only [processEvent, hw, onBsf]
      have hnone : observedSince m.world.bsf.log w.log = [] := by
        rw [hlog]
        exact observedSince_append []
      change Except.ok ((observedSince m.world.bsf.log w.log).foldl _ _) = _
      rw [hnone]
      rfl
  | told sess binding hmem hlog hsessions =>
      refine ⟨bsfRetrieveCallback binding
        (modifyWorld { m with takes := takes } fun v => { v with bsf := w }), ?_, .inr ⟨binding, ?_⟩⟩
      · refine step_library_eq hexited ?_ ?_
        · simp only [processEvent, hw, onBsf]
          have hone : observedSince m.world.bsf.log w.log =
              [.retrieveCallback sess.id sess.callback binding] := by
            rw [hlog]
            exact observedSince_append [_]
          change Except.ok ((observedSince m.world.bsf.log w.log).foldl _ _) = _
          rw [hone]
          rfl
        · rw [bsfRetrieveCallback_eq, Loop.post_eq]
          rfl
      · rw [bsfRetrieveCallback_eq, Loop.post_eq]
        exact ⟨⟨rfl, rfl, rfl, rfl, rfl⟩, rfl, rfl, ⟨_, _, hlog⟩, sess, hmem, hsessions⟩

variable (host options) in
theorem step_bsf_unbound (hexited : m.exited = none) {e : BsfEvent} (h : Unbound m.world.bsf e)
    (takes : Bool) :
    step (appState host options) m (.library (.bsf e) takes) = .error (.bsf .assertion) := by
  rw [step_library hexited]
  refine dispatch_error ?_
  have hprocess : processEvent { m with takes := takes } (.bsf e) = .error (.bsf .assertion) := by
    simp only [processEvent, bsfStep_unbound h, onBsf]
    rfl
  refine Eq.trans ?_ hprocess
  cases m.state <;> rfl

/-- The other events, while no creation is waited for. -/
theorem step_still (hexited : m.exited = none) (hposts : m.world.pcf.posts = []) {e : LibraryEvent}
    (he : ∀ e', e ≠ .bsf e') (takes : Bool) :
    ∃ m', step (appState host options) m (.library e takes) = .ok m' ∧ Still m m' := by
  cases e with
  | bsf e => exact absurd rfl (he e)
  | created s c =>
      refine ⟨{ m with takes := takes }, step_library_eq hexited ?_ rfl, ⟨⟨rfl, rfl, rfl, rfl, rfl⟩,
        rfl, rfl, rfl, rfl⟩⟩
      have hpcf : PcfHandlers.step m.world.pcf (.created s c) = .ok m.world.pcf := by
        rw [PcfHandlers.step, hposts]
        rfl
      have hnone : observedSince m.world.pcf.log m.world.pcf.log = [] :=
        observedSince_append []
      simp only [processEvent, hpcf, onPcf]
      change Except.ok ((observedSince m.world.pcf.log m.world.pcf.log).foldl _ _) = _
      rw [hnone]
      rfl
  | notified r =>
      exact ⟨_, step_library_eq hexited rfl rfl, ⟨⟨rfl, rfl, rfl, rfl, rfl⟩, rfl, rfl, rfl, rfl⟩⟩
  | environment cached sends =>
      exact ⟨_, step_library_eq hexited rfl rfl, ⟨⟨rfl, rfl, rfl, rfl, rfl⟩, rfl, rfl, rfl, rfl⟩⟩

/-! ## The stages -/

/-- Nothing was asked of the PCF. -/
structure Untouched (m : Tool) : Prop where
  pcf : m.world.pcf = {}
  pcfSession : m.world.pcfSession = none
  requests : m.world.requests = []

theorem Untouched.of_frame (h : Untouched m) (hframe : Frame m m') : Untouched m' :=
  ⟨hframe.pcf.trans h.pcf, hframe.pcfSession.trans h.pcfSession, hframe.requests.trans h.requests⟩

theorem Untouched.posts (h : Untouched m) : m.world.pcf.posts = [] := by
  rw [h.pcf]

structure Live (q : AppState) (m : Tool) : Prop where
  state : m.state = q
  exited : m.exited = none

theorem Live.of_frame {q : AppState} (h : Live q m) (hframe : Frame m m') : Live q m' :=
  ⟨hframe.state.trans h.state, hframe.exited.trans h.exited⟩

/-- The address of the UE is one that a PCF can be asked for. -/
def Resolved (host : Host) (options : PolicyAuthOptions) : Prop :=
  host.family (options.ueAddress.getD "") = some .inet ∨ host.family (options.ueAddress.getD "") = some .inet6

structure Discovering (host : Host) (options : PolicyAuthOptions)
    (m : Tool) : Prop extends Live .discoverPcf m, Untouched m where
  given : options.pcfAddress = none
  resolved : Resolved host options
  queue : m.queue = []
  sessions : ∃ sess, m.world.bsf.activeSessions = [sess]
  log : m.world.bsf.log = []

/-- The event for what was told is in the queue. -/
structure Found (host : Host) (options : PolicyAuthOptions)
    (binding : Option PcfBinding) (m : Tool) : Prop extends Live .discoverPcf m, Untouched m where
  given : options.pcfAddress = none
  resolved : Resolved host options
  queue : m.queue = [eventFor binding]
  sessions : m.world.bsf.activeSessions = []
  told : firstTold m.world.bsf = some binding
  discovery : m.world.discovery = discoveryFor binding

/-- The PCF that was found has no address, and is asked for again in vain. -/
structure Nameless (options : PolicyAuthOptions) (m : Tool) : Prop
    extends Live .createAppSession m, Untouched m where
  queue : ∀ e ∈ m.queue, e = .discoveredPcf ∨ e = .pcfDiscoveryFailed

/-- One request was sent for a PCF that is known. -/
def OneSent (host : Host) (options : PolicyAuthOptions) (w : ToolWorld) : Prop :=
  ∃ address port, w.requests = [requestFor host options address port] ∧ KnownPcf options w address port

structure Requested (host : Host) (options : PolicyAuthOptions) (m : Tool) : Prop
    extends Live .createAppSession m where
  queue : m.queue = []
  sessions : m.world.bsf.activeSessions = []
  pcf : m.world.pcf = createdPcf true
  sent : OneSent host options m.world

/-- The event for the end of the creation is in the queue. -/
structure Answered (host : Host) (options : PolicyAuthOptions) (appSession : Option ℕ) (m : Tool) : Prop
    extends Live .createAppSession m where
  queue : m.queue = [if appSession = none then .appSessionDestroyed else .appSessionCreated]
  sessions : m.world.bsf.activeSessions = []
  posts : m.world.pcf.posts = []
  log : PcfSessions.Observation.change 1 1 appSession ∈ m.world.pcf.log
  sent : OneSent host options m.world

/-- Nothing that is left can say anything to the tool. -/
structure Quiet (host : Host) (options : PolicyAuthOptions) (q : AppState) (m : Tool) : Prop
    extends Live q m where
  queue : m.queue = []
  sessions : m.world.bsf.activeSessions = []
  posts : m.world.pcf.posts = []
  sent : Sent host options m.world

/-- The tool has ended itself: no PCF was found, or the app session was refused. -/
structure Terminated (host : Host) (options : PolicyAuthOptions) (m : Tool) : Prop where
  exited : m.exited = some 0
  state : m.state ≠ .running
  why : options.pcfAddress = none ∧ m.world.requests = [] ∧
      (∃ b, firstTold m.world.bsf = some b ∧ finding b = .missing) ∨
    OneSent host options m.world ∧ PcfSessions.Observation.change 1 1 none ∈ m.world.pcf.log

inductive Stage (host : Host) (options : PolicyAuthOptions) (m : Tool) :
    Prop where
  | discovering (h : Discovering host options m)
  | found (binding : Option PcfBinding) (h : Found host options binding m)
  | nameless (h : Nameless options m)
  | requested (h : Requested host options m)
  | answered (appSession : Option ℕ) (h : Answered host options appSession m)
  | quiet (q : AppState) (h : Quiet host options q m)
  | terminated (h : Terminated host options m)

theorem OneSent.of_frame (h : OneSent host options m.world) (hframe : Frame m m')
    (htold : firstTold m'.world.bsf = firstTold m.world.bsf) : OneSent host options m'.world := by
  obtain ⟨address, port, hrequests, hknown⟩ := h
  refine ⟨address, port, hframe.requests.trans hrequests, ?_⟩
  rw [KnownPcf, htold]
  exact hknown

/-! ## Events of the network -/

theorem not_hears {binding : Option PcfBinding} {takes : Bool}
    (h : m.world.bsf.activeSessions = []) : ¬Hears binding takes m m' := by
  intro hhears
  obtain ⟨sess, hmem, -⟩ := hhears.sessions
  rw [h] at hmem
  cases hmem

variable (host options) in
/-- Without a session and a creation nothing is said to the tool. -/
theorem step_library_still (hexited : m.exited = none) (hsessions : m.world.bsf.activeSessions = [])
    (hposts : m.world.pcf.posts = []) (e : LibraryEvent) (takes : Bool) :
    ∃ m', step (appState host options) m (.library e takes) = .ok m' ∧ Still m m' := by
  cases e with
  | bsf e =>
      obtain ⟨m', hstep, hstill | ⟨binding, hhears⟩⟩ :=
        step_bsf host options hexited (e := e) (not_unbound_of_idle hsessions) takes
      · exact ⟨m', hstep, hstill⟩
      · exact absurd hhears (not_hears hsessions)
  | created s c => exact step_still hexited hposts (fun e' he => by cases he) takes
  | notified r => exact step_still hexited hposts (fun e' he => by cases he) takes
  | environment cached sends => exact step_still hexited hposts (fun e' he => by cases he) takes

theorem library_discovering (h : Discovering host options m) {e : LibraryEvent}
    (hbound : ∀ e', e = .bsf e' → ¬Unbound m.world.bsf e') (takes : Bool) :
    ∃ m', step (appState host options) m (.library e takes) = .ok m' ∧ Stage host options m' := by
  have hstays : ∀ m', Still m m' → Stage host options m' := fun m' hstill =>
    .discovering ⟨h.toLive.of_frame hstill.toFrame, h.toUntouched.of_frame hstill.toFrame, h.given,
      h.resolved, hstill.queue.trans h.queue, by rw [hstill.sessions]; exact h.sessions,
      hstill.log.trans h.log⟩
  have hothers : (∀ e', e ≠ .bsf e') → ∃ m',
      step (appState host options) m (.library e takes) = .ok m' ∧ Stage host options m' := by
    intro he
    obtain ⟨m', hstep, hstill⟩ := step_still h.exited h.toUntouched.posts he takes
    exact ⟨m', hstep, hstays m' hstill⟩
  cases e with
  | bsf e =>
      obtain ⟨m', hstep, hstill | ⟨binding, hhears⟩⟩ :=
        step_bsf host options h.exited (hbound e rfl) takes
      · exact ⟨m', hstep, hstays m' hstill⟩
      · have hidle : m'.world.bsf.activeSessions = [] := by
          obtain ⟨sess, hsess⟩ := h.sessions
          obtain ⟨sess', hmem, hfilter⟩ := hhears.sessions
          rw [hsess, List.mem_singleton] at hmem
          rw [hfilter, hsess, hmem]
          simp
        have htold : firstTold m'.world.bsf = some binding := by
          obtain ⟨s, callback, hlog⟩ := hhears.log
          rw [firstTold, hlog, h.log]
          rfl
        have huntouched := h.toUntouched.of_frame hhears.toFrame
        have hqueue := hhears.queue
        rw [h.queue, List.nil_append] at hqueue
        refine ⟨m', hstep, ?_⟩
        cases takes with
        | true =>
            exact .found binding ⟨h.toLive.of_frame hhears.toFrame, huntouched, h.given, h.resolved, hqueue,
              hidle, htold, hhears.discovery⟩
        | false =>
            exact .quiet .discoverPcf ⟨h.toLive.of_frame hhears.toFrame, hqueue, hidle,
              huntouched.posts, .inl huntouched.requests⟩
  | created s c => exact hothers fun e' he => by cases he
  | notified r => exact hothers fun e' he => by cases he
  | environment cached sends => exact hothers fun e' he => by cases he

theorem library_found {binding : Option PcfBinding} (h : Found host options binding m) (e : LibraryEvent)
    (takes : Bool) :
    ∃ m', step (appState host options) m (.library e takes) = .ok m' ∧ Stage host options m' := by
  obtain ⟨m', hstep, hstill⟩ := step_library_still host options h.exited
    h.sessions h.toUntouched.posts e takes
  exact ⟨m', hstep, .found binding ⟨h.toLive.of_frame hstill.toFrame,
    h.toUntouched.of_frame hstill.toFrame, h.given, h.resolved, hstill.queue.trans h.queue,
    hstill.sessions.trans h.sessions, hstill.told.trans h.told, hstill.discovery.trans h.discovery⟩⟩

theorem library_nameless (h : Nameless options m) {e : LibraryEvent}
    (hbound : ∀ e', e = .bsf e' → ¬Unbound m.world.bsf e') (takes : Bool) :
    ∃ m', step (appState host options) m (.library e takes) = .ok m' ∧ Stage host options m' := by
  have hstays : ∀ m', Still m m' → Stage host options m' := fun m' hstill =>
    .nameless ⟨h.toLive.of_frame hstill.toFrame, h.toUntouched.of_frame hstill.toFrame, by
      rw [hstill.queue]
      exact h.queue⟩
  have hothers : (∀ e', e ≠ .bsf e') → ∃ m',
      step (appState host options) m (.library e takes) = .ok m' ∧ Stage host options m' := by
    intro he
    obtain ⟨m', hstep, hstill⟩ := step_still h.exited h.toUntouched.posts he takes
    exact ⟨m', hstep, hstays m' hstill⟩
  cases e with
  | bsf e =>
      obtain ⟨m', hstep, hstill | ⟨binding, hhears⟩⟩ :=
        step_bsf host options h.exited (hbound e rfl) takes
      · exact ⟨m', hstep, hstays m' hstill⟩
      · refine ⟨m', hstep, .nameless ⟨h.toLive.of_frame hhears.toFrame,
          h.toUntouched.of_frame hhears.toFrame, fun e he => ?_⟩⟩
        rw [hhears.queue] at he
        rcases List.mem_append.1 he with he | he
        · exact h.queue e he
        · split at he
          · rw [List.mem_singleton.1 he, eventFor]
            split
            · exact .inr rfl
            · exact .inl rfl
          · cases he
  | created s c => exact hothers fun e' he => by cases he
  | notified r => exact hothers fun e' he => by cases he
  | environment cached sends => exact hothers fun e' he => by cases he

theorem library_answered {appSession : Option ℕ} (h : Answered host options appSession m)
    (e : LibraryEvent) (takes : Bool) :
    ∃ m', step (appState host options) m (.library e takes) = .ok m' ∧ Stage host options m' := by
  obtain ⟨m', hstep, hstill⟩ := step_library_still host options h.exited
    h.sessions h.posts e takes
  exact ⟨m', hstep, .answered appSession ⟨h.toLive.of_frame hstill.toFrame,
    hstill.queue.trans h.queue, hstill.sessions.trans h.sessions, by rw [hstill.pcf]; exact h.posts,
    by rw [hstill.pcf]; exact h.log, h.sent.of_frame hstill.toFrame hstill.told⟩⟩

variable (host) in
theorem library_quiet {q : AppState} (h : Quiet host options q m) (e : LibraryEvent) (takes : Bool) :
    ∃ m', step (appState host options) m (.library e takes) = .ok m' ∧ Quiet host options q m' := by
  obtain ⟨m', hstep, hstill⟩ := step_library_still host options h.exited
    h.sessions h.posts e takes
  exact ⟨m', hstep, h.toLive.of_frame hstill.toFrame, hstill.queue.trans h.queue,
    hstill.sessions.trans h.sessions, by rw [hstill.pcf]; exact h.posts, hstill.sent h.sent⟩

theorem appSessionChangeCallback_eq (appSession : Option ℕ) (m : Tool) :
    appSessionChangeCallback appSession m =
      (modifyWorld m fun w => { w with appSession := appSession }).post
        (if appSession = none then .appSessionDestroyed else .appSessionCreated) := by
  cases appSession <;> rfl

/-- The end of the creation is told, or leaves nothing to wait for. -/
theorem library_created (h : Requested host options m) (c : Completion) (takes : Bool) :
    ∃ m', step (appState host options) m (.library (.created 1 c) takes) = .ok m' ∧
      Stage host options m' := by
  obtain ⟨w, told, hw, hended, huntold, htold⟩ := creation_ends c
  have hobserved : observedSince m.world.pcf.log w.log = (told.map (.change 1 1)).reverse := by
    rw [h.pcf, hended.log]
    exact observedSince_append _
  have hprocess : processEvent { m with takes := takes } (.created 1 c) =
      .ok ((told.map (PcfSessions.Observation.change 1 1)).reverse.foldl pcfCallback
        (modifyWorld { m with takes := takes } fun v => { v with pcf := w })) := by
    have hpcf : PcfHandlers.step m.world.pcf (.created 1 c) = .ok w := by
      rw [h.pcf]
      exact hw
    simp only [processEvent, hpcf, onPcf]
    change Except.ok ((observedSince m.world.pcf.log w.log).foldl _ _) = _
    rw [hobserved]
  have hsilent : told = [] → ∃ m', step (appState host options) m (.library (.created 1 c) takes) =
      .ok m' ∧ Stage host options m' := by
    intro hnone
    rw [hnone] at hprocess
    exact ⟨_, step_library_eq h.exited hprocess rfl, .quiet .createAppSession
      ⟨⟨h.state, h.exited⟩, h.queue, h.sessions, hended.posts, .inr h.sent⟩⟩
  have hcalled : ∀ appSession, told = [appSession] → ∃ m',
      step (appState host options) m (.library (.created 1 c) takes) = .ok m' ∧
        Stage host options m' := by
    intro appSession hone
    rw [hone] at hprocess hended
    have hcallback : (([appSession].map (PcfSessions.Observation.change 1 1)).reverse.foldl pcfCallback
        (modifyWorld { m with takes := takes } fun v => { v with pcf := w })) =
          appSessionChangeCallback appSession
            (modifyWorld { m with takes := takes } fun v => { v with pcf := w }) := rfl
    rw [hcallback, appSessionChangeCallback_eq, Loop.post_eq] at hprocess
    have hlog : PcfSessions.Observation.change 1 1 appSession ∈ w.log := by
      rw [hended.log]
      exact List.mem_cons_self
    refine ⟨_, step_library_eq h.exited hprocess rfl, ?_⟩
    cases takes with
    | true =>
        refine .answered appSession ⟨⟨h.state, h.exited⟩, ?_, h.sessions, hended.posts, hlog, h.sent⟩
        change m.queue ++ [_] = [_]
        rw [h.queue]
        rfl
    | false =>
        refine .quiet .createAppSession ⟨⟨h.state, h.exited⟩, ?_, h.sessions, hended.posts,
          .inr h.sent⟩
        change m.queue ++ [] = []
        rw [h.queue]
        rfl
  by_cases htells : Completion.tells c
  · rcases htold htells with ⟨hone, -⟩ | ⟨hone, -⟩
    · exact hcalled _ hone
    · exact hcalled _ hone
  · exact hsilent (huntold htells)

theorem library_requested (h : Requested host options m) (e : LibraryEvent) (takes : Bool) :
    ∃ m', step (appState host options) m (.library e takes) = .ok m' ∧ Stage host options m' := by
  have hstays : ∀ m', Still m m' → Stage host options m' := fun m' hstill =>
    .requested ⟨h.toLive.of_frame hstill.toFrame, hstill.queue.trans h.queue,
      hstill.sessions.trans h.sessions, hstill.toFrame.pcf.trans h.pcf,
      h.sent.of_frame hstill.toFrame hstill.told⟩
  cases e with
  | bsf e =>
      obtain ⟨m', hstep, hstill | ⟨binding, hhears⟩⟩ :=
        step_bsf host options h.exited (e := e) (not_unbound_of_idle h.sessions) takes
      · exact ⟨m', hstep, hstays m' hstill⟩
      · exact absurd hhears (not_hears h.sessions)
  | created s c =>
      by_cases hs : s = 1
      · rw [hs]
        exact library_created h c takes
      · have hpcf : PcfHandlers.step m.world.pcf (.created s c) = .ok m.world.pcf := by
          rw [PcfHandlers.step, h.pcf, if_neg]
          intro hmem
          exact hs (List.mem_singleton.1 hmem)
        have hnone : observedSince m.world.pcf.log m.world.pcf.log = [] :=
          observedSince_append []
        refine ⟨{ m with takes := takes }, step_library_eq h.exited ?_ rfl,
          hstays _ ⟨⟨rfl, rfl, rfl, rfl, rfl⟩, rfl, rfl, rfl, rfl⟩⟩
        simp only [processEvent, hpcf, onPcf]
        change Except.ok ((observedSince m.world.pcf.log m.world.pcf.log).foldl _ _) = _
        rw [hnone]
        rfl
  | notified r =>
      exact ⟨_, step_library_eq h.exited rfl rfl, hstays _ ⟨⟨rfl, rfl, rfl, rfl, rfl⟩, rfl, rfl, rfl,
        rfl⟩⟩
  | environment cached sends =>
      exact ⟨_, step_library_eq h.exited rfl rfl, hstays _ ⟨⟨rfl, rfl, rfl, rfl, rfl⟩, rfl, rfl, rfl,
        rfl⟩⟩

/-! ## The request -/

/-- The app session is asked for from a PCF that is known. -/
theorem getAppSessionContext_known (h : Untouched m) {address : String} {port : BitVec 16}
    (haddress : getPcfAddress host options m = .ok (m, some address))
    (hport : getPcfPort options m = port) (hfamily : host.family address ≠ none)
    (hue : host.family (options.ueAddress.getD "") ≠ none) :
    getAppSessionContext host options m = .ok (modifyWorld m fun w => { w with
      pcf := createdPcf w.sends
      pcfSession := some 0
      requests := if w.sends then [requestFor host options address port] else [] }) := by
  obtain ⟨f, hf⟩ := Option.ne_none_iff_exists'.1 hfamily
  obtain ⟨f', hf'⟩ := Option.ne_none_iff_exists'.1 hue
  have hsession : withPcfSession host address m = .ok (modifyWorld m fun w => { w with
      pcf := pcfSessionNew {}
      pcfSession := some 0 }, 0) := by
    simp only [withPcfSession, h.pcfSession, hf, modifyWorld, h.pcf]
  simp only [getAppSessionContext, haddress]
  change (withPcfSession host address m >>= _) = _
  rw [hsession]
  simp only [bind, Except.bind, hf', modifyWorld, create_eq, onPcf, h.requests, List.nil_append]
  cases hsends : m.world.sends with
  | true =>
      simp only [if_true, ← hport, requestFor]
      rfl
  | false => rfl

theorem getAppSessionContext_unresolved (h : Untouched m) {address : String}
    (haddress : getPcfAddress host options m = .ok (m, some address))
    (hfamily : host.family address = none ∨ host.family (options.ueAddress.getD "") = none) :
    getAppSessionContext host options m = .error .assertion := by
  simp only [getAppSessionContext, haddress]
  change (withPcfSession host address m >>= _) = _
  cases hpcf : host.family address with
  | none =>
      simp only [withPcfSession, h.pcfSession, hpcf]
      rfl
  | some f =>
      have hue : host.family (options.ueAddress.getD "") = none :=
        hfamily.resolve_left (by rw [hpcf]; exact Option.some_ne_none f)
      simp only [withPcfSession, h.pcfSession, hpcf, bind, Except.bind, hue]

/-- What is asked of the PCF is waited for, unless it was not sent. -/
theorem stage_of_request (hlive : Live .createAppSession m) (hqueue : m.queue = [])
    (hsessions : m.world.bsf.activeSessions = []) {address : String} {port : BitVec 16}
    (hknown : KnownPcf options m.world address port) :
    Stage host options (modifyWorld m fun w => { w with
      pcf := createdPcf w.sends
      pcfSession := some 0
      requests := if w.sends then [requestFor host options address port] else [] }) := by
  cases hsends : m.world.sends with
  | true =>
      refine .requested ⟨⟨hlive.state, hlive.exited⟩, hqueue, hsessions, ?_, address, port, ?_, hknown⟩
      · simp only [modifyWorld, hsends]
      · simp only [modifyWorld, hsends, if_true]
  | false =>
      refine .quiet .createAppSession ⟨⟨hlive.state, hlive.exited⟩, hqueue, hsessions, ?_, .inl ?_⟩
      · simp only [modifyWorld, hsends]
        rfl
      · simp only [modifyWorld, hsends]
        rfl

/-! ## Events of the application -/

/-- A response without a binding for the cache is asserted against. A PCF without an address is
asked for again, which waits for itself when the cache answers; an address of another kind is
asserted against. -/
def failure (host : Host) (m : Tool) :
    EventLoops.Event LibraryEvent → Option Failure
  | .library (.bsf e) _ =>
      if m.exited = none ∧ Unbound m.world.bsf e then some (.bsf .assertion) else none
  | .library _ _ => none
  | .next _ =>
      if m.exited = none ∧ m.state = .discoverPcf ∧ m.queue.head? = some .discoveredPcf then
        match m.world.discovery.address with
        | none => if m.world.cached.isSome then some .deadlock else none
        | some address => if host.family address = none then some .assertion else none
      else none

theorem failure_eq_none (h : ¬(m.exited = none ∧ m.state = .discoverPcf ∧
    m.queue.head? = some .discoveredPcf)) (takes : Bool) :
    failure host m (.next takes) = none := if_neg h

theorem failure_library {e : LibraryEvent} (h : ∀ e', e = .bsf e' → m.exited = none →
    ¬Unbound m.world.bsf e') (takes : Bool) : failure host m (.library e takes) = none := by
  cases e with
  | bsf e => exact if_neg fun hfails => h e rfl hfails.1 hfails.2
  | created s c => rfl
  | notified r => rfl
  | environment cached sends => rfl

/-- A step goes on to a stage, or fails as foreseen. -/
def Goes (host : Host) (options : PolicyAuthOptions) (m : Tool)
    (e : EventLoops.Event LibraryEvent) : Prop :=
  (failure host m e = none ∧
    ∃ m', step (appState host options) m e = .ok m' ∧ Stage host options m') ∨
  ∃ f, failure host m e = some f ∧ step (appState host options) m e = .error f

theorem next_nil (h : Stage host options m) (hqueue : m.queue = []) (takes : Bool) :
    Goes host options m (.next takes) := by
  refine .inl ⟨failure_eq_none (fun hhead => ?_) _, m, step_next_nil hqueue, h⟩
  rw [hqueue] at hhead
  cases hhead.2.2

theorem next_missing {binding : Option PcfBinding} (h : Found host options binding m)
    (hfinding : finding binding = .missing) (takes : Bool) :
    Goes host options m (.next takes) := by
  have hqueue : m.queue = [.pcfDiscoveryFailed] := by
    rw [h.queue, eventFor, if_pos hfinding]
  refine .inl ⟨failure_eq_none (fun hhead => ?_) _,
    terminate { m with queue := [], takes := takes }, ?_, ?_⟩
  · rw [hqueue] at hhead
    cases hhead.2.2
  · rw [step_next_cons h.exited hqueue]
    refine dispatch_stay ?_ rfl
    change appState host options m.state _ _ = _
    rw [h.state]
    rfl
  · refine .terminated ⟨rfl, fun hrunning => ?_,
      .inl ⟨h.given, h.requests, binding, h.told, hfinding⟩⟩
    cases h.state.symm.trans hrunning

variable (host options) in
/-- The tool after the event that something was discovered. -/
theorem step_discovered (hlive : Live .discoverPcf m) (hqueue : m.queue = [.discoveredPcf])
    (takes : Bool) : step (appState host options) m (.next takes) =
      getAppSessionContext host options
        { m with queue := [], takes := takes, state := .createAppSession } := by
  rw [step_next_cons hlive.exited hqueue]
  have hmove : appState host options m.state (.own .discoveredPcf)
      { m with queue := [], takes := takes } =
        .ok { m with queue := [], takes := takes, state := .createAppSession } := by
    rw [hlive.state]
    rfl
  refine (dispatch_move hmove ?_ ?_).trans rfl
  · rw [hlive.state]
    intro hsame
    cases hsame
  · change appState host options m.state _ _ = _
    rw [hlive.state]
    rfl

theorem next_known {binding : Option PcfBinding} (h : Found host options binding m)
    {address : String} {port : BitVec 16} (hfinding : finding binding = .known address port)
    (takes : Bool) : Goes host options m (.next takes) := by
  have hqueue : m.queue = [.discoveredPcf] := by
    rw [h.queue, eventFor, if_neg]
    rw [hfinding]
    intro hsame
    cases hsame
  have hdiscovery : m.world.discovery.address = some address ∧
      BitVec.ofInt 16 m.world.discovery.port = port := by
    rw [h.discovery]
    exact discoveryFor_known hfinding
  have huntouched : Untouched { m with queue := [], takes := takes, state := .createAppSession } :=
    ⟨h.pcf, h.pcfSession, h.requests⟩
  have haddress : getPcfAddress host options
      { m with queue := [], takes := takes, state := .createAppSession } =
        .ok ({ m with queue := [], takes := takes, state := .createAppSession }, some address) := by
    simp only [getPcfAddress, h.given, hdiscovery.1]
  have hfailure : failure host m (.next takes) =
      if host.family address = none then some .assertion else none := by
    simp only [failure, h.exited, h.state, hqueue, hdiscovery.1, List.head?_cons, and_self, if_true]
  have hstep := step_discovered host options h.toLive hqueue takes
  by_cases hfamily : host.family address = none
  · refine .inr ⟨.assertion, by rw [hfailure, if_pos hfamily], ?_⟩
    rw [hstep]
    exact getAppSessionContext_unresolved huntouched haddress (.inl hfamily)
  · have hue : host.family (options.ueAddress.getD "") ≠ none := by
      rcases h.resolved with hresolved | hresolved
      · rw [hresolved]
        exact Option.some_ne_none _
      · rw [hresolved]
        exact Option.some_ne_none _
    have hport : getPcfPort options
        { m with queue := [], takes := takes, state := .createAppSession } = port := by
      simp only [getPcfPort, h.given]
      exact hdiscovery.2
    refine .inl ⟨by rw [hfailure, if_neg hfamily], _, hstep.trans
      (getAppSessionContext_known huntouched haddress hport hfamily hue), ?_⟩
    exact stage_of_request (m := { m with queue := [], takes := takes, state := .createAppSession })
      ⟨rfl, h.exited⟩ rfl h.sessions (.inr ⟨h.given, binding, h.told, hfinding⟩)

/-- A PCF without an address is asked for again. -/
theorem next_unnamed {binding : Option PcfBinding} (h : Found host options binding m)
    (hfinding : finding binding = .nameless) (takes : Bool) :
    Goes host options m (.next takes) := by
  have hqueue : m.queue = [.discoveredPcf] := by
    rw [h.queue, eventFor, if_neg]
    rw [hfinding]
    intro hsame
    cases hsame
  obtain ⟨hnone, hidle⟩ := discoveryFor_nameless hfinding
  rw [← h.discovery] at hnone hidle
  have hfailure : failure host m (.next takes) =
      if m.world.cached.isSome then some .deadlock else none := by
    simp only [failure, h.exited, h.state, hqueue, hnone, List.head?_cons, and_self, if_true]
  have hstep := step_discovered host options h.toLive hqueue takes
  cases hcached : m.world.cached with
  | some b =>
      refine .inr ⟨.deadlock, by rw [hfailure, hcached]; rfl, ?_⟩
      rw [hstep]
      rcases h.resolved with hresolved | hresolved <;>
        simp [getAppSessionContext, getPcfAddress, h.given, hnone, startBsfDiscovery, hidle, hresolved,
          modifyWorld, hcached, bind, Except.bind]
  | none =>
      refine .inl ⟨by rw [hfailure, hcached]; rfl, ?_⟩
      rw [hstep]
      rcases h.resolved with hresolved | hresolved <;>
        simp only [getAppSessionContext, getPcfAddress, h.given, hnone, startBsfDiscovery, hidle,
          hresolved, modifyWorld, hcached, bind, Except.bind, BsfSessions.retrieve, onBsf,
          Bool.false_eq_true, if_false] <;>
        refine ⟨_, rfl, .nameless ⟨⟨rfl, h.exited⟩, ⟨h.pcf, h.pcfSession, h.requests⟩, ?_⟩⟩ <;>
        intro e he <;>
        cases he

theorem next_nameless (h : Nameless options m) (takes : Bool) :
    Goes host options m (.next takes) := by
  cases hqueue : m.queue with
  | nil => exact next_nil (.nameless h) hqueue takes
  | cons e rest =>
      refine .inl ⟨failure_eq_none (fun hhead => ?_) _, { m with queue := rest, takes := takes }, ?_,
        .nameless ⟨⟨h.state, h.exited⟩, ⟨h.pcf, h.pcfSession, h.requests⟩, fun e' he => ?_⟩⟩
      · rw [h.state] at hhead
        cases hhead.2.1
      · rw [step_next_cons h.exited hqueue]
        refine dispatch_stay ?_ rfl
        change appState host options m.state _ _ = _
        rw [h.state]
        rcases h.queue e (by rw [hqueue]; exact List.mem_cons_self) with rfl | rfl <;> rfl
      · exact h.queue e' (by rw [hqueue]; exact List.mem_cons_of_mem e he)

theorem next_answered {appSession : Option ℕ} (h : Answered host options appSession m) (takes : Bool) :
    Goes host options m (.next takes) := by
  have hfailure : failure host m (.next takes) = none := by
    refine failure_eq_none (fun hhead => ?_) _
    rw [h.state] at hhead
    cases hhead.2.1
  have hqueue := h.queue
  cases appSession with
  | none =>
      rw [if_pos rfl] at hqueue
      refine .inl ⟨hfailure, terminate { m with queue := [], takes := takes }, ?_,
        .terminated ⟨rfl, fun hrunning => ?_, .inr ⟨h.sent, h.log⟩⟩⟩
      swap
      · cases h.state.symm.trans hrunning
      rw [step_next_cons h.exited hqueue]
      refine dispatch_stay ?_ rfl
      change appState host options m.state _ _ = _
      rw [h.state]
      rfl
  | some s =>
      rw [if_neg (Option.some_ne_none s)] at hqueue
      refine .inl ⟨hfailure, { m with queue := [], takes := takes, state := .running }, ?_,
        .quiet .running ⟨⟨rfl, h.exited⟩, rfl, h.sessions, h.posts, .inr h.sent⟩⟩
      rw [step_next_cons h.exited hqueue]
      have hmove : appState host options m.state (.own .appSessionCreated)
          { m with queue := [], takes := takes } =
            .ok { m with queue := [], takes := takes, state := .running } := by
        rw [h.state]
        rfl
      refine (dispatch_move hmove ?_ ?_).trans rfl
      · rw [h.state]
        intro hsame
        cases hsame
      · change appState host options m.state _ _ = _
        rw [h.state]
        rfl

theorem next_found {binding : Option PcfBinding} (h : Found host options binding m) (takes : Bool) :
    Goes host options m (.next takes) := by
  cases hfinding : finding binding with
  | known address port => exact next_known h hfinding takes
  | nameless => exact next_unnamed h hfinding takes
  | missing => exact next_missing h hfinding takes

theorem stage_goes (h : Stage host options m) (e : EventLoops.Event LibraryEvent) :
    Goes host options m e := by
  cases e with
  | next takes =>
      cases h with
      | discovering h => exact next_nil (.discovering h) h.queue takes
      | found binding h => exact next_found h takes
      | nameless h => exact next_nameless h takes
      | requested h => exact next_nil (.requested h) h.queue takes
      | answered appSession h => exact next_answered h takes
      | quiet q h => exact next_nil (.quiet q h) h.queue takes
      | terminated h =>
          have hexited : m.exited ≠ none := by
            rw [h.exited]
            exact Option.some_ne_none 0
          exact .inl ⟨failure_eq_none (fun hhead => hexited hhead.1) _, m, step_of_exited hexited,
            .terminated h⟩
  | library e takes =>
      by_cases hfails : m.exited = none ∧ ∃ e', e = .bsf e' ∧ Unbound m.world.bsf e'
      · obtain ⟨hexited, e', rfl, hunbound⟩ := hfails
        exact .inr ⟨_, if_pos ⟨hexited, hunbound⟩,
          step_bsf_unbound host options hexited hunbound takes⟩
      · have hbound : m.exited = none → ∀ e', e = .bsf e' → ¬Unbound m.world.bsf e' :=
          fun hexited e' he hunbound => hfails ⟨hexited, e', he, hunbound⟩
        refine .inl ⟨failure_library (fun e' he hexited => hbound hexited e' he) takes, ?_⟩
        cases h with
        | discovering h => exact library_discovering h (hbound h.exited) takes
        | found binding h => exact library_found h e takes
        | nameless h => exact library_nameless h (hbound h.exited) takes
        | requested h => exact library_requested h e takes
        | answered appSession h => exact library_answered h e takes
        | quiet q h =>
            obtain ⟨m', hstep, hquiet⟩ := library_quiet host h e takes
            exact ⟨m', hstep, .quiet q hquiet⟩
        | terminated h =>
            have hexited : m.exited ≠ none := by
              rw [h.exited]
              exact Option.some_ne_none 0
            exact ⟨m, step_of_exited hexited, .terminated h⟩

/-! ## Runs -/

theorem init_stage {takes sends : Bool} (h : init host options takes sends = .ok m) :
    Stage host options m := by
  cases hgiven : options.pcfAddress with
  | some address =>
      have haddress : ∀ m : Tool, getPcfAddress host options m = .ok (m, some address) := by
        intro m
        simp only [getPcfAddress, hgiven]
      have hinit : init host options takes sends = getAppSessionContext host options
          { state := .createAppSession, world := { sends := sends }, takes := takes } := by
        simp only [init, haddress]
        rfl
      have huntouched : Untouched
          { state := .createAppSession, world := { sends := sends }, takes := takes } :=
        ⟨rfl, rfl, rfl⟩
      rw [hinit] at h
      by_cases hfamily : host.family address = none ∨ host.family (options.ueAddress.getD "") = none
      · rw [getAppSessionContext_unresolved huntouched (haddress _) hfamily] at h
        cases h
      · rw [not_or] at hfamily
        rw [getAppSessionContext_known huntouched (haddress _) rfl hfamily.1 hfamily.2] at h
        obtain rfl := Except.ok.inj h
        refine stage_of_request (m := { state := .createAppSession, world := { sends := sends }
                                        takes := takes }) ⟨rfl, rfl⟩ rfl rfl (.inl ⟨hgiven, ?_⟩)
        simp only [getPcfPort, hgiven, Option.isSome_some, if_true]
  | none =>
      have hresolved : Resolved host options := by
        by_contra hnot
        rw [Resolved, not_or] at hnot
        have hinit : ∃ f, init host options takes sends = .error f := by
          cases hfamily : host.family (options.ueAddress.getD "") with
          | none =>
              simp [init, getPcfAddress, hgiven, startBsfDiscovery, hfamily, bind, Except.bind]
          | some f =>
              cases f with
              | inet => exact absurd hfamily hnot.1
              | inet6 => exact absurd hfamily hnot.2
              | other n =>
                  simp [init, getPcfAddress, hgiven, startBsfDiscovery, hfamily, modifyWorld, bind,
                    Except.bind, BsfSessions.retrieve, onBsf]
        obtain ⟨f, hf⟩ := hinit
        rw [hf] at h
        cases h
      refine .discovering ?_
      have hready := hresolved
      rcases hready with hfamily | hfamily <;>
        simp only [init, getPcfAddress, hgiven, startBsfDiscovery, hfamily, modifyWorld, bind,
          Except.bind, BsfSessions.retrieve, onBsf, Bool.false_eq_true, if_false] at h <;>
        obtain rfl := Except.ok.inj h <;>
        exact ⟨⟨rfl, rfl⟩, ⟨rfl, rfl, rfl⟩, hgiven, hresolved, rfl, ⟨_, rfl⟩, rfl⟩

theorem run_stage {takes sends : Bool} {es : List (EventLoops.Event LibraryEvent)}
    (h : run host options takes sends es = .ok m) : Stage host options m := by
  rw [run, bind_eq_ok] at h
  obtain ⟨m₀, hinit, hrun⟩ := h
  refine foldlM_ok_induction (fun _ => Stage host options) (fun e _ m m' hm hstep => ?_) es m₀ m
    (init_stage hinit) hrun
  rcases stage_goes hm e with ⟨-, m'', hok, hstage⟩ | ⟨f, -, herror⟩
  · obtain rfl := Except.ok.inj (hok.symm.trans hstep)
    exact hstage
  · rw [herror] at hstep
    cases hstep

/-- In every run at most one app session is asked for, from the PCF that the command line or the
first callback of the BSF client says. The tool ends itself when no PCF was found, before any
request, or when the creation was refused. -/
theorem request_for_known_pcf {takes sends : Bool} {es : List (EventLoops.Event LibraryEvent)}
    (h : run host options takes sends es = .ok m) :
    Sent host options m.world ∧ ∀ status, m.exited = some status → status = 0 ∧
      (options.pcfAddress = none ∧ m.world.requests = [] ∧
          (∃ b, firstTold m.world.bsf = some b ∧ finding b = .missing) ∨
        OneSent host options m.world ∧ PcfSessions.Observation.change 1 1 none ∈ m.world.pcf.log) := by
  have hlives : ∀ q, Live q m → Sent host options m.world → Sent host options m.world ∧
      ∀ status, m.exited = some status → status = 0 ∧
        (options.pcfAddress = none ∧ m.world.requests = [] ∧
            (∃ b, firstTold m.world.bsf = some b ∧ finding b = .missing) ∨
          OneSent host options m.world ∧ PcfSessions.Observation.change 1 1 none ∈ m.world.pcf.log) := by
    intro q hlive hsent
    refine ⟨hsent, fun status hstatus => ?_⟩
    rw [hlive.exited] at hstatus
    cases hstatus
  cases run_stage h with
  | discovering h => exact hlives _ h.toLive (.inl h.requests)
  | found binding h => exact hlives _ h.toLive (.inl h.requests)
  | nameless h => exact hlives _ h.toLive (.inl h.requests)
  | requested h => exact hlives _ h.toLive (.inr h.sent)
  | answered appSession h => exact hlives _ h.toLive (.inr h.sent)
  | quiet q h => exact hlives q h.toLive h.sent
  | terminated h =>
      refine ⟨?_, fun status hstatus => ⟨?_, h.why⟩⟩
      · rcases h.why with ⟨-, hnone, -⟩ | ⟨hsent, -⟩
        · exact .inl hnone
        · exact .inr hsent
      · exact (Option.some.inj (h.exited.symm.trans hstatus)).symm

/-- An answer with one end point. -/
def bindingAnswer (endPoint : IpEndPoint) : LibraryEvent :=
  .bsf (.response 1 { header := .pcfBindings, pcfBinding := some { pcfIpEndPoints := [endPoint] } })

/-- Every name resolves to an IPv4 address, and no text is a number. -/
def inetHost : Host :=
  { family := fun _ => some .inet, atof := fun _ => 0, printFixed := Float.toString }

def refusal : LibraryEvent := .created 1 { state := .ok { header := createHeader, status := 403 } }

theorem request_for_found_pcf : ∃ m, run inetHost { ueAddress := some "10.0.0.1" }
    true true [.library (.bsf (.localEvent 0 .sent)) true,
      .library (bindingAnswer { ipv6Address := some "::7", port := some 70000 }) true, .next true,
      .library refusal true, .next true] = .ok m ∧
    m.world.requests = [requestFor inetHost { ueAddress := some "10.0.0.1" } "::7" 4464] ∧
    OneSent inetHost { ueAddress := some "10.0.0.1" } m.world := by
  obtain ⟨m, hrun, hseen⟩ := exists_of_observed
    (x := run inetHost { ueAddress := some "10.0.0.1" } true true
      [.library (.bsf (.localEvent 0 .sent)) true,
        .library (bindingAnswer { ipv6Address := some "::7", port := some 70000 }) true, .next true,
        .library refusal true, .next true])
    (f := fun m => (m.world.requests, m.exited))
    (v := ([requestFor inetHost { ueAddress := some "10.0.0.1" } "::7" 4464], some 0)) (by decide +kernel)
  obtain ⟨hrequests, hexited⟩ := Prod.mk.inj hseen
  refine ⟨m, hrun, hrequests, ?_⟩
  rcases ((request_for_known_pcf hrun).2 0 hexited).2 with ⟨-, hnone, -⟩ | ⟨hsent, -⟩
  · rw [hrequests] at hnone
    cases hnone
  · exact hsent

theorem quiet_of_running (h : Stage host options m) (hrunning : m.state = .running) :
    Quiet host options .running m := by
  cases h with
  | discovering h => cases h.state.symm.trans hrunning
  | found binding h => cases h.state.symm.trans hrunning
  | nameless h => cases h.state.symm.trans hrunning
  | requested h => cases h.state.symm.trans hrunning
  | answered appSession h => cases h.state.symm.trans hrunning
  | quiet q h =>
      obtain rfl := h.state.symm.trans hrunning
      exact h
  | terminated h => exact absurd hrunning h.state

/-- Nothing that happens ends a running tool or its app session. -/
structure Lasting (m m' : Tool) : Prop where
  state : m'.state = .running
  exited : m'.exited = none
  pcf : m'.world.pcf = m.world.pcf
  requests : m'.world.requests = m.world.requests

variable (host) in
theorem quiet_run (fs : List (EventLoops.Event LibraryEvent)) (h : Quiet host options .running m) :
    ∃ m', fs.foldlM (step (appState host options)) m = .ok m' ∧ Lasting m m' := by
  induction fs generalizing m with
  | nil => exact ⟨m, rfl, h.state, h.exited, rfl, rfl⟩
  | cons e fs ih =>
      have hstep : ∃ m₁, step (appState host options) m e = .ok m₁ ∧ Still m m₁ := by
        cases e with
        | next takes => exact ⟨m, step_next_nil h.queue, Still.refl m⟩
        | library e takes => exact step_library_still host options h.exited h.sessions h.posts e takes
      obtain ⟨m₁, hm₁, hstill⟩ := hstep
      obtain ⟨m', hrun, hlasting⟩ := ih (m := m₁) ⟨h.toLive.of_frame hstill.toFrame,
        hstill.queue.trans h.queue, hstill.sessions.trans h.sessions,
        by rw [hstill.toFrame.pcf]; exact h.posts, hstill.sent h.sent⟩
      refine ⟨m', ?_, hlasting.state, hlasting.exited, hlasting.pcf.trans hstill.toFrame.pcf,
        hlasting.requests.trans hstill.toFrame.requests⟩
      rw [List.foldlM_cons, hm₁]
      exact hrun

/-- A tool that waits for notifications does so until it is terminated: whatever else happens, it
does not end, and the app session stays as it is. -/
theorem running_for_ever {takes sends : Bool} {es : List (EventLoops.Event LibraryEvent)}
    (h : run host options takes sends es = .ok m) (hrunning : m.state = .running)
    (fs : List (EventLoops.Event LibraryEvent)) :
    ∃ m', run host options takes sends (es ++ fs) = .ok m' ∧ Lasting m m' := by
  obtain ⟨m', hrun, hlasting⟩ := quiet_run host fs
    (quiet_of_running (run_stage h) hrunning)
  refine ⟨m', ?_, hlasting⟩
  rw [run, bind_eq_ok] at h ⊢
  obtain ⟨m₀, hinit, hes⟩ := h
  refine ⟨m₀, hinit, ?_⟩
  rw [List.foldlM_append, hes]
  exact hrun

def grant : LibraryEvent :=
  .created 1 { state := .ok {
    header := createHeader
    status := 201
    location := some (.parsed ["app-sessions", "7"])
    appSessionContext := some { ascReqData := some (some 0) } } }

theorem granted_session_lasts : ∃ m m', run inetHost { pcfAddress := some "10.0.0.2" }
      true true [.library grant true, .next true] = .ok m ∧ m.state = .running ∧
    run inetHost { pcfAddress := some "10.0.0.2" } true true
      [.library grant true, .next true, .library refusal true, .next true] = .ok m' ∧
    Lasting m m' := by
  obtain ⟨m, hrun, hrunning⟩ := exists_of_observed
    (x := run inetHost { pcfAddress := some "10.0.0.2" } true true
      [.library grant true, .next true])
    (f := Loop.state) (v := .running) (by decide +kernel)
  obtain ⟨m', hrun', hlasting⟩ := running_for_ever hrun hrunning [.library refusal true, .next true]
  exact ⟨m, m', hrun, hrunning, hrun', hlasting⟩

end ServiceConsumers.PolicyAuthRuns
