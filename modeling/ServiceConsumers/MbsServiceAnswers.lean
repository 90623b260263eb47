import ServiceConsumers.MbsServiceTool

set_option autoImplicit false

/-!
# What the library does for `mbs-service-tool`

The library sends the create request. When that is accepted it sends a request for the
subscription by itself.
-/

namespace ServiceConsumers.MbsServiceAnswers

open MbsServiceTool ObjectStore KeyedTable PublicSessions ConsumerState SubscriptionOperations
  SessionOperations ResponseHandlers ProcessEvent TransitionRuns TransactionLog SessionEffects
  PushEffects AnswerEffects StepDecomposition SessionCopies SessionCallbacks CreateResponses
  TmgiCallbacks CommandLines EventLoops FirstAnswers

variable {env : Environment} {options : MbsServiceToolOptions} {m m' : Tool} {w w' : World}
  {call : SessionCall} {rsp rsp' : Response} {k : ℕ}

/-! ## The stages of the library -/

/-- The addresses have a family in common. -/
def Resolves (env : Environment) (options : MbsServiceToolOptions) : Prop :=
  ∃ call, sessionCall env.getaddrinfo options.ssm = some call

/-- The create request is waited for. -/
structure Outstanding (env : Environment) (options : MbsServiceToolOptions) (w : World) : Prop where
  resolves : Resolves env options
  sent : sentOf w.log = [toolCreate env options]
  xacts : w.xacts = [toolCreate env options]
  mbsSessions : w.mbsSessions = [2]
  session : w.sessionStore 2 = some (toolSession env options)
  subscription : w.subscriptionStore 1 = some (toolSubscription env)
  inTurn : InTurn w
  next : 4 < w.next

/-- Nothing is waited for, and the session was not accepted. -/
structure Refused (env : Environment) (options : MbsServiceToolOptions) (w : World) : Prop where
  resolves : Resolves env options
  sent : sentOf w.log = [toolCreate env options]
  xacts : w.xacts = []

/-- The session is what the answer makes of it. -/
def AcceptedBy (env : Environment) (options : MbsServiceToolOptions) (rsp : Response) (w : World)
    (y : MbsSession) : Prop :=
  ∃ id c, rsp.createLocation = .resource id ∧ rsp.createRspData = some (some c) ∧
    AsAnswered w (toolSession env options) y id c

/-- The session has been accepted, and the subscription has been requested. -/
structure Subscribing (env : Environment) (options : MbsServiceToolOptions) (rsp : Response) (k : ℕ)
    (w : World) : Prop where
  resolves : Resolves env options
  sent : sentOf w.log = [toolCreate env options, toolSubscribe env k]
  number : k ≠ 4
  xacts : w.xacts = [toolSubscribe env k]
  mbsSessions : w.mbsSessions = [2]
  session : ∃ y, w.sessionStore 2 = some y ∧ AcceptedBy env options rsp w y ∧
    withoutValue y = withoutValue (toolSession env options)
  subscription : w.subscriptionStore 1 = some { toolSubscription env with changed := false }

structure Subscribed (env : Environment) (options : MbsServiceToolOptions) (rsp : Response)
    (w : World) : Prop where
  resolves : Resolves env options
  sent : ∃ k, sentOf w.log = [toolCreate env options, toolSubscribe env k]
  xacts : w.xacts = []
  session : ∃ y, w.sessionStore 2 = some y ∧ AcceptedBy env options rsp w y

/-- The observations of a call: the events that the callbacks send, and the requests. -/
def Tells (es : List LocalEvent) (xs : List Xact) (w w' : World) : Prop :=
  ∃ new, w'.log = new ++ w.log ∧ new.reverse.filterMap sentByCallback = es ∧ sentOf new = xs

theorem callLibrary_eq {call : World → Except Fault World} {es : List LocalEvent} {xs : List Xact}
    (hcall : call m.world.consumer = .ok w) (htells : Tells es xs m.world.consumer w) :
    callLibrary call m =
      .ok (Loop.postAll { m with world := { m.world with consumer := w } } es) := by
  obtain ⟨new, hlog, rfl, -⟩ := htells
  rw [callLibrary, hcall, ← observedSince_append, ← hlog]
  rfl

theorem callLibrary_silent {call : World → Except Fault World} {xs : List Xact}
    (hcall : call m.world.consumer = .ok w) (htells : Tells [] xs m.world.consumer w) :
    callLibrary call m = .ok { m with world := { m.world with consumer := w } } :=
  callLibrary_eq hcall htells

theorem Tells.refl (w : World) : Tells [] [] w w := ⟨[], rfl, rfl, rfl⟩

theorem Tells.sentOf_eq {es : List LocalEvent} {xs : List Xact} (h : Tells es xs w w') :
    sentOf w'.log = sentOf w.log ++ xs := by
  obtain ⟨new, hlog, -, rfl⟩ := h
  rw [hlog, sentOf_append]

/-- An event without an open transaction tells nothing. -/
theorem tells_unheeded (w : World) (e : NetworkEvent) : Tells [] [] w (unheeded w e) := by
  cases e with
  | discovery n found => exact .refl w
  | timeout n => exact .refl w
  | response n rsp =>
      rw [unheeded]
      split
      · exact .refl w
      · exact ⟨[_], rfl, rfl, rfl⟩

/-- It says at most that an answer came. -/
theorem unheeded_eq (w : World) (e : NetworkEvent) : ∃ log, unheeded w e = { w with log := log } := by
  cases e with
  | discovery n found => exact ⟨w.log, rfl⟩
  | timeout n => exact ⟨w.log, rfl⟩
  | response n rsp =>
      rw [unheeded]
      split
      · exact ⟨w.log, rfl⟩
      · exact ⟨_, rfl⟩

/-! ## The request is sent -/

/-- The world after the subscription has been made. -/
def subscribedWorld (env : Environment) : World :=
  { World.initial with
    subscriptionStore := World.initial.subscriptionStore.set 1
      { flags := BitVec.allOnes 32, expiryTime := env.now + 3600 }
    next := 2 }

/-- The session before its request is sent. -/
def preparedSession (env : Environment) (options : MbsServiceToolOptions) : MbsSession :=
  { toolSession env options with sbiObject := none }

/-- The world before the request is sent. -/
structure Prepared (env : Environment) (options : MbsServiceToolOptions) (w : World) : Prop where
  log : w.log = [.attached 1 2]
  xacts : w.xacts = []
  mbsSessions : w.mbsSessions = [2]
  session : w.sessionStore 2 = some (preparedSession env options)
  subscription : w.subscriptionStore 1 = some (toolSubscription env)
  tmgis : w.tmgis = []
  tmgiStore : w.tmgiStore = Store.empty
  next : w.next = 3

/-- The request of a session that has no SBI object yet embeds its first subscription. -/
theorem mbsSessionSendCreate_first {s u : Ref} {x : MbsSession} {n : StatusSubscription}
    {carried : PublicSession Tmgi} (hx : w.sessionStore s = some x) (hsbi : x.sbiObject = none)
    (hcarried : w.sessionContent x.session = .ok carried) (hfirst : firstSubscription x = some u)
    (hn : w.subscriptionStore u = some n) (hevents : hasEvents n.flags = true) :
    ∃ counts, mbsSessionSendCreate w s = .ok { w with
      sessionStore := w.sessionStore.set s { x with sbiObject := some w.next }
      sbiObjects := counts
      xacts := w.xacts ++ [⟨w.next + 1, w.next, .session s,
        .create carried (some (u, subscriptionBody n))⟩]
      log := .sent ⟨w.next + 1, w.next, .session s,
        .create carried (some (u, subscriptionBody n))⟩ :: w.log
      next := w.next + 2 } := by
  refine ⟨Function.update w.sbiObjects w.next 1, ?_⟩
  simp only [mbsSessionSendCreate, bind_eq_ok, World.sessionAt_eq_ok]
  refine ⟨x, hx, ?_⟩
  simp only [ensureSbiObject, hsbi, World.refCountSbiObjectNew]
  refine sbiXactAdd_eq_ok.2 ⟨w.next, .create carried (some (u, subscriptionBody n)), rfl, ?_, rfl⟩
  simp only [buildCreate, bind_eq_ok]
  refine ⟨carried, hcarried, ?_⟩
  have hfirst' : firstSubscription { x with sbiObject := some w.next } = some u := hfirst
  simp only [hfirst', bind_eq_ok, World.subscriptionAt_eq_ok]
  exact ⟨n, hn, by rw [if_pos hevents]⟩

theorem pushChanges_prepared (hresolves : Resolves env options) (h : Prepared env options w) :
    ∃ w', mbsSessionPushChanges w 2 = .ok w' ∧ w'.log = .sent (toolCreate env options) :: w.log ∧
      Outstanding env options w' := by
  have hnext := h.next
  have hcarried : w.sessionContent (preparedSession env options).session =
      .ok ((toolPublic env options).content none) := rfl
  obtain ⟨counts, hsend⟩ := mbsSessionSendCreate_first h.session rfl hcarried rfl h.subscription
    (show hasEvents (BitVec.allOnes 32) = true by decide)
  rw [hnext, h.xacts] at hsend
  refine ⟨_, mbsSessionPushChanges_eq_ok.2 ⟨_, .create, h.session, rfl, hsend⟩, rfl, ?_⟩
  refine ⟨hresolves, ?_, rfl, h.mbsSessions, ?_, h.subscription, ?_, Nat.lt_succ_self 4⟩
  · change sentOf (.sent (toolCreate env options) :: w.log) = _
    rw [h.log]
    rfl
  · change (w.sessionStore.set 2 _) 2 = _
    rw [Store.set_self]
    rfl
  · refine ⟨fun t ht => ?_, fun t ht => ?_⟩
    · change (w.tmgiStore t).isSome = true at ht
      rw [h.tmgiStore] at ht
      cases ht
    · change t ∈ w.tmgis at ht
      rw [h.tmgis] at ht
      cases ht

theorem createCalls_eq {u : Ref} {x : MbsSession} {w₁ w₂ w₃ w₄ : World}
    (hcall : sessionStep w call = .ok w₁) (hx : w₁.sessionAt w.next = .ok x)
    (hedit : sessionStep w₁ (.edit w.next (requested options x.session)) = .ok w₂)
    (hadd : subscriptionStep w₂ (.add w.next u) = .ok w₃)
    (hset : sessionStep w₃ (.setCallback w.next (some appMbsSessionCreatedCb)) = .ok w₄) :
    createCalls options call u w = mbsSessionPushChanges w₄ w.next := by
  simp only [createCalls, hcall, hx, hedit, hadd, hset, bind, Except.bind]
  rfl

theorem createCalls_initial (h : sessionCall env.getaddrinfo options.ssm = some call) :
    ∃ w, createCalls options call 1 (subscribedWorld env) = .ok w ∧
      Tells [] [toolCreate env options] (subscribedWorld env) w ∧ Outstanding env options w := by
  have hmade := (makesSession h).step (subscribedWorld env)
  have hssm : toolSsm env options = ssmOf call := by
    rw [toolSsm, h]
    rfl
  have hprepared : ∃ w, Prepared env options w ∧
      createCalls options call 1 (subscribedWorld env) = mbsSessionPushChanges w 2 := by
    refine ⟨_, ?_, createCalls_eq hmade rfl rfl rfl rfl⟩
    constructor
    case session =>
      rw [preparedSession, toolSession, toolPublic, hssm]
      rfl
    all_goals rfl
  obtain ⟨v, hv, hcalls⟩ := hprepared
  obtain ⟨w, hpush, hlog, hout⟩ := pushChanges_prepared ⟨call, h⟩ hv
  refine ⟨w, hcalls.trans hpush, ⟨[.sent (toolCreate env options), .attached 1 2], ?_, rfl, rfl⟩, hout⟩
  rw [hlog, hv.log]
  rfl

/-! ## Answers to the create request -/

/-- What an answer means for the tool. -/
inductive Verdict where
  | unresolved
  | accepted (rsp : Response)
  | failed (problem : Option ProblemDetails)
  | strayed
  deriving DecidableEq

/-- The answer gives the session all it asked for. -/
def Accepts (env : Environment) (options : MbsServiceToolOptions) (rsp : Response) : Prop :=
  isSuccess rsp.status = true ∧ createUnderstood (toolSession env options) rsp = true

instance : Decidable (Accepts env options rsp) := inferInstanceAs (Decidable (_ ∧ _))

/-- The identifiers of the session that the answer brings. -/
def answeredId (rsp : Response) : Option (Option SsmAnswer) :=
  match rsp.createRspData with
  | some (some c) => c.mbsSessionId
  | _ => none

/-- The answer brings addresses that are not usable, to a session without SSM. -/
def Strays (options : MbsServiceToolOptions) (rsp : Response) : Prop :=
  options.ssm = none ∧ answeredId rsp = some (some .unusable)

instance : Decidable (Strays options rsp) := inferInstanceAs (Decidable (_ ∧ _))

theorem toolSession_asking (hresolves : Resolves env options)
    (h : w.sessionStore 2 = some (toolSession env options)) : Asking w 2 (toolSession env options) := by
  obtain ⟨call, hresolved⟩ := hresolves
  have hmakes := makesSession hresolved
  have hssm : toolSsm env options = ssmOf call := by
    rw [toolSsm, hresolved]
    rfl
  refine ⟨h, rfl, rfl, rfl, fun info t hinfo => ?_, rfl, fun a ha => ?_, fun a ha => ?_, fun a ha => ?_,
    fun info t hinfo => ?_, fun info hinfo => ?_⟩
  · cases hinfo
  · refine hmakes.known a ?_
    rw [← hssm]
    exact ha
  · cases ha
  · cases ha
  · cases hinfo
  · cases hinfo

theorem toolSession_oneNew (h : w.subscriptionStore 1 = some (toolSubscription env)) :
    OneNew w 2 1 3 (toolSubscription env) (toolSession env options) :=
  ⟨rfl, rfl, rfl, rfl, h, rfl, rfl⟩

theorem processSessionResponse_parsed (hparsed : rsp.parsed = true) (v : World) :
    processSessionResponse v (toolCreate env options) (some 2) rsp = handleCreateResponse v 4 2 rsp := by
  simp only [processSessionResponse, hparsed, toolCreate, Request.component1, Request.component2,
    Request.method, Bool.not_true, Bool.false_eq_true, if_false]

namespace Outstanding

variable (h : Outstanding env options w)

include h

theorem sole : Sole w (toolCreate env options) 2 := by
  refine ⟨h.xacts, findSent_of_only ?_ fun x hx _ => ?_, ?_, rfl⟩
  · rw [h.sent]
    exact List.mem_singleton_self _
  · rw [h.sent] at hx
    exact List.mem_singleton.1 hx
  · rw [contextSbiObjectToSession, h.mbsSessions]
    simp [h.session, toolCreate, toolSession]

theorem unheeded (e : NetworkEvent) : Outstanding env options (FirstAnswers.unheeded w e) := by
  have hsent := (tells_unheeded w e).sentOf_eq
  obtain ⟨log, hlog⟩ := unheeded_eq w e
  rw [hlog] at hsent ⊢
  refine ⟨h.resolves, ?_, h.xacts, h.mbsSessions, h.session, h.subscription,
    ⟨h.inTurn.store, h.inTurn.registry⟩, h.next⟩
  rw [hsent, h.sent]
  rfl

/-- The transaction ends without the session. -/
theorem refused {es : List LocalEvent} {v : World} (htells : Tells es [] w v)
    (hxacts : v.xacts = [toolCreate env options]) : Refused env options (v.removeXact 4) := by
  refine ⟨h.resolves, ?_, Sole.removeXact_xacts (z := toolCreate env options) hxacts⟩
  change sentOf v.log = _
  rw [htells.sentOf_eq, h.sent]
  rfl

theorem discovery (found : Bool) : ∃ w', networkStep w (.discovery 4 found) = .ok w' ∧
    Tells [] [] w w' ∧ (Outstanding env options w' ∨ Refused env options w') := by
  refine ⟨_, h.sole.networkStep_discovery found, ?_⟩
  cases found with
  | true => exact ⟨.refl w, .inl h⟩
  | false => exact ⟨⟨[], rfl, rfl, rfl⟩, .inr (h.refused (.refl w) h.xacts)⟩

/-- The event when it tells the tool of a failure. -/
theorem timeout : ∃ w', networkStep w (.timeout 4) = .ok w' ∧
    Tells [.mbsSessionCreateResult 2 .ogsTimedOut none] [] w w' ∧ Refused env options w' := by
  have hcall : reportTimeout (timeoutState w (toolCreate env options) 2) (toolCreate env options) 2
      (contextSbiObjectToTmgi w 3) = .ok ((timeoutState w (toolCreate env options) 2).say
        (.sessionCallback 4 2 appMbsSessionCreatedCb .ogsTimedOut none)) := by
    simp only [reportTimeout, toolCreate, mbsSessionDoCallback, bind_eq_ok, World.sessionAt_eq_ok]
    exact ⟨toolSession env options, h.session, rfl⟩
  have htells : Tells [.mbsSessionCreateResult 2 .ogsTimedOut none] [] w
      ((timeoutState w (toolCreate env options) 2).say
        (.sessionCallback 4 2 appMbsSessionCreatedCb .ogsTimedOut none)) := ⟨[_, _, _], rfl, rfl, rfl⟩
  refine ⟨_, (h.sole.networkStep_timeout).trans (bind_eq_ok.2 ⟨_, hcall, rfl⟩), ?_,
    h.refused htells h.xacts⟩
  obtain ⟨new, hlog, hes, hsent⟩ := htells
  exact ⟨new, hlog, hes, hsent⟩

/-- The answer is handled like the callback or the handler that it reaches. -/
theorem response_of {v : World} (hrun : processSessionResponse
    (handlingState w (toolCreate env options) rsp) (toolCreate env options) (some 2) rsp = .ok v) :
    networkStep w (.response 4 rsp) = .ok (v.removeXact 4) :=
  (h.sole.networkStep_response rfl rsp).trans (bind_eq_ok.2 ⟨v, hrun, rfl⟩)

theorem response_unparsed (hparsed : rsp.parsed = false) :
    ∃ w', networkStep w (.response 4 rsp) = .ok w' ∧
      Tells [.mbsSessionCreateResult 2 .ogsError rsp.problemDetails] [] w w' ∧
        Refused env options w' := by
  have hrun : processSessionResponse (handlingState w (toolCreate env options) rsp)
      (toolCreate env options) (some 2) rsp =
        .ok ((handlingState w (toolCreate env options) rsp).say
          (.sessionCallback 4 2 appMbsSessionCreatedCb .ogsError rsp.problemDetails)) := by
    simp only [processSessionResponse, hparsed, Bool.not_false, if_true, mbsSessionDoCallback,
      bind_eq_ok, World.sessionAt_eq_ok]
    exact ⟨toolSession env options, h.session, rfl⟩
  have htells : Tells [.mbsSessionCreateResult 2 .ogsError rsp.problemDetails] [] w
      ((handlingState w (toolCreate env options) rsp).say
        (.sessionCallback 4 2 appMbsSessionCreatedCb .ogsError rsp.problemDetails)) :=
    ⟨[_, _, _], rfl, rfl, rfl⟩
  refine ⟨_, h.response_of hrun, ?_, h.refused htells h.xacts⟩
  obtain ⟨new, hlog, hes, hsent⟩ := htells
  exact ⟨new, hlog, hes, hsent⟩

theorem response_refused (hparsed : rsp.parsed = true) (hrefused : ¬Accepts env options rsp) :
    ∃ w', networkStep w (.response 4 rsp) = .ok w' ∧
      Tells [.mbsSessionCreateResult 2 .ogsError
        (if isSuccess rsp.status then none else rsp.problemDetails)] [] w w' ∧
        Refused env options w' := by
  have hnot : isSuccess rsp.status = false ∨ createUnderstood (toolSession env options) rsp = false := by
    by_contra hboth
    rw [not_or, Bool.not_eq_false, Bool.not_eq_false] at hboth
    exact hrefused hboth
  obtain ⟨v, hrun, hxacts, hlog⟩ := handleCreateResponse_refused (k := 4)
    (toolSession_asking (w := handlingState w (toolCreate env options) rsp) h.resolves h.session)
    ⟨h.inTurn.nextUnused.store, h.inTurn.nextUnused.registry⟩ rfl hnot
  have htells : Tells [.mbsSessionCreateResult 2 .ogsError
      (if isSuccess rsp.status then none else rsp.problemDetails)] [] w v :=
    ⟨[_, _, _], hlog, rfl, rfl⟩
  refine ⟨_, h.response_of ((processSessionResponse_parsed hparsed _).trans hrun), ?_,
    h.refused htells (hxacts.trans h.xacts)⟩
  obtain ⟨new, hlog, hes, hsent⟩ := htells
  exact ⟨new, hlog, hes, hsent⟩

/-- The source follows the pointer to the identifiers without looking. -/
theorem response_without_id (hparsed : rsp.parsed = true) (haccepts : Accepts env options rsp)
    (hid : answeredId rsp = none) :
    networkStep w (.response 4 rsp) = .error .nullMbsSessionId := by
  obtain ⟨id, c, v, y, -, hdata, -⟩ := parse_understood h.session haccepts.2
  rw [answeredId, hdata] at hid
  have hparse := parse_unanswerable (w := handlingState w (toolCreate env options) rsp) h.session
    haccepts.2 hdata hid
  have hrun : handleCreateResponse (handlingState w (toolCreate env options) rsp) 4 2 rsp =
      .error .nullMbsSessionId := by
    rw [handleCreateResponse, if_pos haccepts.1, hparse]
    rfl
  rw [show 4 = (toolCreate env options).id from rfl, h.sole.networkStep_response rfl rsp,
    processSessionResponse_parsed hparsed, hrun]
  rfl

theorem response_accepted (hparsed : rsp.parsed = true) (haccepts : Accepts env options rsp)
    {answer : Option SsmAnswer} (hid : answeredId rsp = some answer) (hstays : ¬Strays options rsp) :
    ∃ w' k, networkStep w (.response 4 rsp) = .ok w' ∧
      Tells [.mbsSessionCreateResult 2 .ogsOk none] [toolSubscribe env k] w w' ∧
        Subscribing env options rsp k w' := by
  obtain ⟨c, hdata, hanswer⟩ : ∃ c, rsp.createRspData = some (some c) ∧ c.mbsSessionId = some answer := by
    unfold answeredId at hid
    split at hid
    · rename_i c hdata
      exact ⟨c, hdata, hid⟩
    · cases hid
  have husable : Usable (toolSession env options) answer := by
    rintro rfl
    have hgiven : options.ssm ≠ none := fun hnone => hstays ⟨hnone, hid⟩
    obtain ⟨call, hresolved⟩ := h.resolves
    have hmakes := makesSession hresolved
    change (toolSsm env options).isSome = true
    rw [toolSsm, hresolved]
    refine hmakes.ssm.trans ?_
    exact Option.isSome_iff_ne_none.2 hgiven
  obtain ⟨id, v, hloc, hrun, hdone⟩ := handleCreateResponse_accepted (k := 4)
    (toolSession_asking (w := handlingState w (toolCreate env options) rsp) h.resolves h.session)
    (toolSession_oneNew h.subscription) rfl haccepts.1 haccepts.2 hdata hanswer husable
  obtain ⟨l, hl, hxacts, hlog⟩ := hdone.traffic
  have hnumber : l ≠ 4 := (h.next.trans_le hl).ne'
  have htells : Tells [.mbsSessionCreateResult 2 .ogsOk none] [toolSubscribe env l] w v :=
    ⟨[_, _, _, _], hlog, rfl, rfl⟩
  obtain ⟨y, hy, hset, hview⟩ := hdone.session
  refine ⟨_, l, h.response_of ((processSessionResponse_parsed hparsed _).trans hrun), ?_,
    h.resolves, ?_, hnumber, ?_, hdone.mbsSessions.trans h.mbsSessions,
    ⟨y, hy, ⟨id, c, hloc, hdata, ?_⟩, hview⟩, hdone.subscription⟩
  · obtain ⟨new, hlog, hes, hsent⟩ := htells
    exact ⟨new, hlog, hes, hsent⟩
  · change sentOf v.log = _
    rw [htells.sentOf_eq, h.sent]
    rfl
  · rw [World.removeXact, hxacts]
    change ((w.xacts ++ [toolSubscribe env l]).filter fun x => x.id ≠ 4) = _
    have hkept : (toolSubscribe env l).id ≠ 4 := hnumber
    rw [h.xacts]
    simp [toolCreate, hkept]
  · exact hset.congr rfl rfl

end Outstanding

/-! ## Answers to the request for the subscription -/

/-- An acceptance of the subscription is read through the `Location` that its message lacks. -/
def subscribeFault (rsp : Response) : Option Fault :=
  match rsp.subscribeBody with
  | .valid none _ => if isSuccess rsp.status then some .nullLocation else none
  | _ => none

/-- The answer of the MB-SMF about the subscription changes nothing, or ends the program. -/
theorem subscriptionResponse_tool (rsp : Response) {v : World} {y : MbsSession}
    {n : StatusSubscription}
    (hy : v.sessionStore 2 = some y) (hn : v.subscriptionStore 1 = some n)
    (hcorrelation : n.correlationId = none) (hdeleted : y.deleted = false)
    (hnews : y.newSubscriptions = [1]) (hactive : y.active = []) :
    (∀ fault, subscribeFault rsp = some fault →
        nmbsmfMbsSessionSubscriptionResponse v 2 (ogsSbiParseHeader rsp) = .error fault) ∧
      (subscribeFault rsp = none →
        nmbsmfMbsSessionSubscriptionResponse v 2 (ogsSbiParseHeader rsp) = .ok v) := by
  have hfind : ∀ c, mbsSessionFindSubscription v 2 c = if c = none then some 1 else none := by
    intro c
    simp only [mbsSessionFindSubscription, hy, hdeleted, hnews, hactive]
    cases c <;> simp [hn, hcorrelation]
  have hsame : (ogsSbiParseHeader rsp).subscribeBody = rsp.subscribeBody := rfl
  have hlocation : (ogsSbiParseHeader rsp).subscribeLocation = none := rfl
  have hanswered : (ogsSbiParseHeader rsp).status = rsp.status := rfl
  rw [subscribeFault, nmbsmfMbsSessionSubscriptionResponse, hsame, hanswered]
  cases hbody : rsp.subscribeBody with
  | notJson | invalid => exact ⟨fun fault h => (Option.some_ne_none fault h.symm).elim, fun _ => rfl⟩
  | valid c hasEventList =>
      simp only [hfind, hlocation]
      cases hstatus : isSuccess rsp.status with
      | false =>
          refine ⟨fun fault h => ?_, fun _ => rfl⟩
          cases c <;> cases h
      | true =>
          cases c with
          | some c => exact ⟨fun fault h => (Option.some_ne_none fault h.symm).elim, fun _ => rfl⟩
          | none =>
              refine ⟨fun fault h => ?_, fun h => ?_⟩
              · obtain rfl := Option.some.inj h
                rfl
              · cases h

namespace Subscribing

variable (h : Subscribing env options rsp k w)

include h

theorem sole : Sole w (toolSubscribe env k) 2 := by
  obtain ⟨y, hy, -, hview⟩ := h.session
  have hsbi : (withoutValue y).sbiObject = some 3 := by
    rw [hview]
    rfl
  refine ⟨h.xacts, findSent_of_only ?_ fun x hx hid => ?_, ?_, rfl⟩
  · rw [h.sent]
    exact List.mem_cons_of_mem _ (List.mem_singleton_self _)
  · rw [h.sent, List.mem_cons, List.mem_singleton] at hx
    refine hx.resolve_left ?_
    rintro rfl
    exact h.number hid.symm
  · rw [contextSbiObjectToSession, h.mbsSessions]
    have hfound : y.sbiObject = some 3 := hsbi
    simp [hy, hfound, toolSubscribe, subscribeXact]

theorem unheeded (e : NetworkEvent) :
    Subscribing env options rsp k (FirstAnswers.unheeded w e) := by
  have hsent := (tells_unheeded w e).sentOf_eq
  obtain ⟨log, hlog⟩ := unheeded_eq w e
  rw [hlog] at hsent ⊢
  obtain ⟨y, hy, ⟨id, c, hloc, hdata, hset⟩, hview⟩ := h.session
  refine ⟨h.resolves, ?_, h.number, h.xacts, h.mbsSessions,
    ⟨y, hy, ⟨id, c, hloc, hdata, hset.congr rfl rfl⟩, hview⟩, h.subscription⟩
  rw [hsent, h.sent]
  rfl

/-- The transaction ends, and the session stays accepted. -/
theorem subscribed {es : List LocalEvent} {v : World} (htells : Tells es [] w v)
    (hxacts : v.xacts = w.xacts)
    (hsession : ∃ y, v.sessionStore 2 = some y ∧ AcceptedBy env options rsp v y) :
    Tells es [] w (v.removeXact k) ∧ Subscribed env options rsp (v.removeXact k) := by
  obtain ⟨y, hy, id, c, hloc, hdata, hset⟩ := hsession
  refine ⟨?_, h.resolves, ⟨k, ?_⟩, Sole.removeXact_xacts (z := toolSubscribe env k) (hxacts.trans h.xacts),
    ⟨y, hy, id, c, hloc, hdata, hset.congr rfl rfl⟩⟩
  · obtain ⟨new, hlog, hes, hsent⟩ := htells
    exact ⟨new, hlog, hes, hsent⟩
  · change sentOf v.log = _
    rw [htells.sentOf_eq, h.sent]
    rfl

theorem discovery (found : Bool) : ∃ w', networkStep w (.discovery k found) = .ok w' ∧
    Tells [] [] w w' ∧ (Subscribing env options rsp k w' ∨ Subscribed env options rsp w') := by
  refine ⟨_, h.sole.networkStep_discovery found, ?_⟩
  cases found with
  | true => exact ⟨.refl w, .inl h⟩
  | false =>
      obtain ⟨y, hy, haccepted, -⟩ := h.session
      obtain ⟨htells, hdone⟩ := h.subscribed (.refl w) rfl ⟨y, hy, haccepted⟩
      exact ⟨htells, .inr hdone⟩

/-- Nobody is told of a subscription that is not answered. -/
theorem timeout : ∃ w', networkStep w (.timeout k) = .ok w' ∧ Tells [] [] w w' ∧
    Subscribed env options rsp w' := by
  obtain ⟨y, hy, ⟨id, c, hloc, hdata, hset⟩, -⟩ := h.session
  have htells : Tells [] [] w (timeoutState w (toolSubscribe env k) 2) := ⟨[_, _], rfl, rfl, rfl⟩
  obtain ⟨htells', hdone⟩ := h.subscribed htells rfl
    ⟨y, hy, id, c, hloc, hdata, hset.congr rfl rfl⟩
  exact ⟨_, h.sole.networkStep_timeout.trans rfl, htells', hdone⟩

/-- An answer that cannot be parsed is told to the callback for creations. -/
theorem response_unparsed {rsp' : Response} (hparsed : rsp'.parsed = false) :
    ∃ w', networkStep w (.response k rsp') = .ok w' ∧
      Tells [.mbsSessionCreateResult 2 .ogsError rsp'.problemDetails] [] w w' ∧
        Subscribed env options rsp w' := by
  obtain ⟨y, hy, ⟨id, c, hloc, hdata, hset⟩, hview⟩ := h.session
  have hcb : (withoutValue y).createResultCb = some appMbsSessionCreatedCb := by
    rw [hview]
    rfl
  have hrun : processSessionResponse (handlingState w (toolSubscribe env k) rsp') (toolSubscribe env k)
      (some 2) rsp' = .ok ((handlingState w (toolSubscribe env k) rsp').say
        (.sessionCallback k 2 appMbsSessionCreatedCb .ogsError rsp'.problemDetails)) := by
    simp only [processSessionResponse, hparsed, Bool.not_false, if_true, mbsSessionDoCallback,
      bind_eq_ok, World.sessionAt_eq_ok]
    refine ⟨y, hy, ?_⟩
    rw [show callbackOf y .create = some appMbsSessionCreatedCb from hcb]
    rfl
  have htells : Tells [.mbsSessionCreateResult 2 .ogsError rsp'.problemDetails] [] w
      ((handlingState w (toolSubscribe env k) rsp').say
        (.sessionCallback k 2 appMbsSessionCreatedCb .ogsError rsp'.problemDetails)) :=
    ⟨[_, _, _], rfl, rfl, rfl⟩
  obtain ⟨htells', hdone⟩ := h.subscribed htells rfl
    ⟨y, hy, id, c, hloc, hdata, hset.congr rfl rfl⟩
  exact ⟨_, (h.sole.networkStep_response rfl rsp').trans (bind_eq_ok.2 ⟨_, hrun, rfl⟩), htells', hdone⟩

theorem response_parsed {rsp' : Response} (hparsed : rsp'.parsed = true) :
    (∀ fault, subscribeFault rsp' = some fault →
        networkStep w (.response k rsp') = .error fault) ∧
      (subscribeFault rsp' = none → ∃ w', networkStep w (.response k rsp') = .ok w' ∧
        Tells [] [] w w' ∧ Subscribed env options rsp w') := by
  obtain ⟨y, hy, haccepted, hview⟩ := h.session
  have hfields : (withoutValue y).deleted = false ∧ (withoutValue y).newSubscriptions = [1] ∧
      (withoutValue y).active = [] := by
    rw [hview]
    exact ⟨rfl, rfl, rfl⟩
  have hprocess : processSessionResponse (handlingState w (toolSubscribe env k) rsp')
      (toolSubscribe env k) (some 2) rsp' = nmbsmfMbsSessionSubscriptionResponse
        (handlingState w (toolSubscribe env k) rsp') 2 (ogsSbiParseHeader rsp') := by
    simp only [processSessionResponse, hparsed, toolSubscribe, subscribeXact, Request.component1,
      Request.component2, Request.method, Bool.not_true, Bool.false_eq_true, if_false, if_true]
  obtain ⟨hfault, hdone⟩ := subscriptionResponse_tool rsp'
    (v := handlingState w (toolSubscribe env k) rsp') hy h.subscription rfl hfields.1 hfields.2.1
      hfields.2.2
  have hstep := h.sole.networkStep_response rfl rsp'
  rw [hprocess] at hstep
  constructor
  · intro fault hsome
    rw [hfault fault hsome] at hstep
    exact hstep
  · intro hnone
    obtain ⟨id, c, hloc, hdata, hset⟩ := haccepted
    have htells : Tells [] [] w (handlingState w (toolSubscribe env k) rsp') := ⟨[_, _], rfl, rfl, rfl⟩
    obtain ⟨htells', hsubscribed⟩ := h.subscribed htells rfl
      ⟨y, hy, id, c, hloc, hdata, hset.congr rfl rfl⟩
    exact ⟨_, hstep.trans (bind_eq_ok.2 ⟨_, hdone hnone, rfl⟩), htells', hsubscribed⟩

end Subscribing

/-! ## Nothing is waited for -/

theorem Refused.unheeded (h : Refused env options w) (e : NetworkEvent) :
    Refused env options (FirstAnswers.unheeded w e) := by
  have hsent := (tells_unheeded w e).sentOf_eq
  obtain ⟨log, hlog⟩ := unheeded_eq w e
  rw [hlog] at hsent ⊢
  refine ⟨h.resolves, ?_, h.xacts⟩
  rw [hsent, h.sent]
  rfl

theorem Subscribed.unheeded (h : Subscribed env options rsp w) (e : NetworkEvent) :
    Subscribed env options rsp (FirstAnswers.unheeded w e) := by
  have hsent := (tells_unheeded w e).sentOf_eq
  obtain ⟨log, hlog⟩ := unheeded_eq w e
  rw [hlog] at hsent ⊢
  obtain ⟨k, hk⟩ := h.sent
  obtain ⟨y, hy, id, c, hloc, hdata, hset⟩ := h.session
  refine ⟨h.resolves, ⟨k, ?_⟩, h.xacts, ⟨y, hy, id, c, hloc, hdata, hset.congr rfl rfl⟩⟩
  rw [hsent, hk]
  rfl

end ServiceConsumers.MbsServiceAnswers
