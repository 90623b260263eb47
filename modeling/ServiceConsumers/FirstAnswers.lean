import ServiceConsumers.CreateResponses
import ServiceConsumers.TmgiCallbacks

set_option autoImplicit false

/-!
# The answer to the first create request

A session that has not been accepted yet keeps no copy, so the answer that accepts it frees
nothing and drops no transaction. The push that follows at once sends what the copy does not
hold: the subscriptions.
-/

namespace ServiceConsumers.FirstAnswers

open ObjectStore PublicSessions ConsumerState TmgiOperations SubscriptionOperations
  SessionOperations ResponseHandlers ProcessEvent TransitionRuns TransactionLog TmgiEffects
  SessionEffects PushEffects AnswerEffects EventEffects StepDecomposition SessionCopies
  TmgiContents Quiescence SessionCallbacks SessionTmgis AllocationMatching CreateResponses
  TmgiCallbacks

variable {w w' v : World} {s u t o : Ref} {x y : MbsSession} {n : StatusSubscription}
  {rsp : Response} {m : CreatedSession} {id : String} {answer : Option SsmAnswer} {z : Xact}

/-! ## Events and transactions -/

def numberOf : NetworkEvent → ℕ
  | .discovery n _ | .response n _ | .timeout n => n

/-- What is left of an event whose transaction is not open. -/
def unheeded (w : World) : NetworkEvent → World
  | .response n rsp =>
      match w.findSent n with
      | none => w
      | some x => w.say (.answered x rsp)
  | .discovery .. | .timeout _ => w

theorem networkStep_unheeded {e : NetworkEvent} (h : w.findXact (numberOf e) = none) :
    networkStep w e = .ok (unheeded w e) := by
  cases e with
  | discovery n found => simp only [networkStep, processDiscovery, show w.findXact n = none from h,
      unheeded]
  | timeout n => simp only [networkStep, processTimeout, show w.findXact n = none from h, unheeded]
  | response n rsp =>
      rw [networkStep, processResponse, unheeded]
      cases hsent : w.findSent n with
      | none => rfl
      | some x =>
          have hfind : (w.say (.answered x rsp)).findXact n = none := h
          simp only [hfind]

/-- A request is found by its number if no other one has it. -/
theorem findSent_of_only (hz : z ∈ sentOf w.log) (honly : ∀ z' ∈ sentOf w.log, z'.id = z.id → z' = z) :
    w.findSent z.id = some z := by
  have hsome : (w.findSent z.id).isSome := by
    rw [World.findSent, List.findSome?_isSome_iff]
    exact ⟨.sent z, mem_sentOf.1 hz, by simp⟩
  obtain ⟨z', hfind⟩ := Option.isSome_iff_exists.1 hsome
  obtain ⟨hmem, hid⟩ := findSent_eq_some hfind
  rw [hfind, honly z' hmem hid]

/-- The only open transaction, which a session waits for. -/
structure Sole (w : World) (z : Xact) (s : Ref) : Prop where
  xacts : w.xacts = [z]
  sent : w.findSent z.id = some z
  session : contextSbiObjectToSession w z.sbiObject = some s
  service : z.request.isTmgi = false

namespace Sole

theorem findXact_self (h : Sole w z s) : w.findXact z.id = some z := by
  rw [World.findXact, h.xacts]
  simp

theorem findXact_of_ne (h : Sole w z s) {k : ℕ} (hk : k ≠ z.id) : w.findXact k = none := by
  have hid : ¬z.id = k := hk.symm
  rw [World.findXact, h.xacts]
  simp [hid]

theorem networkStep_discovery (h : Sole w z s) (found : Bool) :
    networkStep w (.discovery z.id found) = .ok (if found then w else w.removeXact z.id) := by
  simp [networkStep, processDiscovery, h.findXact_self, h.session]

theorem networkStep_timeout (h : Sole w z s) : networkStep w (.timeout z.id) =
    reportTimeout (timeoutState w z s) z s (contextSbiObjectToTmgi w z.sbiObject) >>=
      fun v => .ok (v.removeXact z.id) :=
  processTimeout_some h.findXact_self h.session

/-- A request that is not a removal holds nothing until its end. -/
theorem networkStep_response (h : Sole w z s) (hpost : z.request.method = .post) (rsp : Response) :
    networkStep w (.response z.id rsp) =
      processSessionResponse (handlingState w z rsp) z (some s) rsp >>=
        fun v => .ok (v.removeXact z.id) := by
  have hfind : (w.say (.answered z rsp)).findXact z.id = some z := h.findXact_self
  have hsession : contextSbiObjectToSession (w.say (.answered z rsp)) z.sbiObject = some s :=
    h.session
  have hmethod : (z.request.method == .delete) = false := by
    rw [hpost]
    rfl
  simp only [networkStep, processResponse, h.sent, hfind, hsession, h.service, heldBySessionResponse,
    hmethod, reduceCtorEq, false_and, if_false, Bool.false_eq_true, Bool.and_false, Bool.false_and]
  rw [handlingState, h.session]
  rfl

/-- Without the transaction nothing is open. -/
theorem removeXact_xacts (h : w.xacts = [z]) : (w.removeXact z.id).xacts = [] := by
  rw [World.removeXact, h]
  simp

end Sole

/-! ## Nothing said, nothing sent -/

/-- No transaction comes or goes, and nothing is observed. -/
structure Untouched (w w' : World) : Prop where
  log : w'.log = w.log
  xacts : w'.xacts = w.xacts

namespace Untouched

variable {w'' : World}

theorem refl (w : World) : Untouched w w := ⟨rfl, rfl⟩

theorem trans (h₁ : Untouched w w') (h₂ : Untouched w' w'') : Untouched w w'' :=
  ⟨h₂.log.trans h₁.log, h₂.xacts.trans h₁.xacts⟩

end Untouched

/-- An object without an SBI object releases none. -/
theorem untouched_tmgiReplaceSbiObject {sbi : Option Ref} {p : PrivTmgi}
    (hp : w.tmgiStore t = some p) (hsbi : p.sbiObject = none)
    (h : tmgiReplaceSbiObject w t sbi = .ok w') : Untouched w w' := by
  obtain ⟨q, hq, rfl⟩ := tmgiReplaceSbiObject_eq_ok.1 h
  obtain rfl := Option.some.inj (hp.symm.trans hq)
  rw [hsbi]
  cases sbi <;> exact ⟨rfl, rfl⟩

theorem untouched_createdTmgi {tmgi : Option Ref} (hx : w.sessionStore s = some x)
    (h : createdTmgi w s m = .ok (w', tmgi)) : Untouched w w' := by
  cases hapi : m.tmgi with
  | none =>
      simp only [createdTmgi, hapi, Except.ok.injEq, Prod.mk.injEq] at h
      exact h.1 ▸ .refl w
  | some api =>
      cases hstamp : m.expirationTime with
      | none =>
          simp only [createdTmgi, hapi, hstamp, Except.ok.injEq, Prod.mk.injEq] at h
          exact h.1 ▸ .refl w
      | some stamp =>
          cases stamp with
          | malformed =>
              rw [createdTmgi_malformed s hapi hstamp] at h
              obtain ⟨v, hv, hdone⟩ := bind_eq_ok.1 h
              obtain ⟨-, rfl⟩ := contextRemoveTmgi_eq_ok.1 hv
              rw [Except.ok.injEq, Prod.mk.injEq] at hdone
              exact hdone.1 ▸ ⟨rfl, rfl⟩
          | seconds e =>
              rw [createdTmgi_seconds hx hapi hstamp] at h
              obtain ⟨v, hv, hdone⟩ := bind_eq_ok.1 h
              rw [Except.ok.injEq, Prod.mk.injEq] at hdone
              have hmade : (withTmgi w (granted api e {})).tmgiStore w.next =
                  some (granted api e {}) := Store.set_self _ _ _
              have hreplaced := untouched_tmgiReplaceSbiObject hmade rfl hv
              exact hdone.1 ▸ ⟨hreplaced.log, hreplaced.xacts⟩

/-- A first copy makes its TMGI, and gives none up. -/
theorem untouched_copyTmgi {dst src : PublicSession Ref} {r : Option Ref} (hdst : dst.tmgi = none)
    (h : copyTmgi w dst src = .ok (w', r)) : Untouched w w' := by
  unfold copyTmgi at h
  split at h
  · cases hsrc : src.tmgi with
    | none =>
        rw [hdst, hsrc, tmgiCopy_self, Except.ok.injEq, Prod.mk.injEq] at h
        exact h.1 ▸ .refl w
    | some t =>
        have hne : dst.tmgi ≠ some t := by
          rw [hdst]
          exact (Option.some_ne_none t).symm
        rw [hsrc] at h
        obtain ⟨p, -, -, -, hreplace⟩ := (tmgiCopy_some_eq_ok hne).1 h
        rw [hdst] at hreplace
        have hmade : ((copyTarget w p none).1.modifyTmgi (copyTarget w p none).2
            fun q => { q with tmgi := p.tmgi }).tmgiStore (copyTarget w p none).2 =
              some { callback := p.callback, tmgi := p.tmgi } := by
          simp [copyTarget, tmgiCreate, World.modifyTmgi]
        have hreplaced := untouched_tmgiReplaceSbiObject hmade rfl hreplace
        exact ⟨hreplaced.log, hreplaced.xacts⟩
  · rw [Except.ok.injEq, Prod.mk.injEq] at h
    exact h.1 ▸ .refl w

theorem untouched_parseSessionId (hx : w.sessionStore s = some x) (hprevious : x.previousSession = none)
    (h : parseSessionId w s m = .ok w') : Untouched w w' := by
  cases hanswer : m.mbsSessionId with
  | none =>
      rw [parseSessionId, hanswer] at h
      cases h
  | some answer =>
      obtain ⟨v, r, hcopy, -, rfl⟩ := (parseSessionId_eq_ok hx hanswer).1 h
      rw [hprevious] at hcopy
      have hcopied := untouched_copyTmgi rfl hcopy
      exact ⟨hcopied.log, hcopied.xacts⟩

theorem untouched_parse {understood : Bool} (hx : w.sessionStore s = some x)
    (hprevious : x.previousSession = none)
    (h : nmbsmfMbsSessionParse w s rsp = .ok (w', understood)) : Untouched w w' := by
  have hset : ∀ (v : World) (p : MbsSession), (v.setSession s p).sessionStore s = some p :=
    fun v p => Store.set_self _ _ _
  obtain ⟨x', hx', h⟩ := nmbsmfMbsSessionParse_eq_ok h
  obtain rfl := Option.some.inj (hx.symm.trans hx')
  rcases h with ⟨-, rfl, -⟩ | ⟨id, -, ⟨-, rfl, -⟩ | ⟨m, -, -, h⟩⟩
  · exact .refl w'
  · exact ⟨rfl, rfl⟩
  · rcases h with ⟨-, v, tmgi, hv, h⟩ | ⟨-, -, h⟩
    · have hcreated := untouched_createdTmgi (hset w _) hv
      have hhead : Untouched w v := ⟨hcreated.log, hcreated.xacts⟩
      rcases h with ⟨-, -, rfl⟩ | ⟨t, -, -, h⟩
      · exact hhead
      · have hstored : (v.modifySession s (storeTmgi t)).sessionStore s =
            some (storeTmgi t (parsedHead x id m)) := by
          simp only [World.modifySession, Store.modify_self, (tmgiEffect_createdTmgi hv).sessionStore,
            hset, Option.map_some]
        have hrest := untouched_parseSessionId hstored hprevious h
        exact hhead.trans ⟨hrest.log, hrest.xacts⟩
    · have hrest := untouched_parseSessionId (hset w (parsedHead x id m)) hprevious h
      exact ⟨hrest.log, hrest.xacts⟩

/-! ## Being accepted -/

/-- A session that waits to be accepted for the first time, and of which a copy can be kept. -/
structure Asking (w : World) (s : Ref) (x : MbsSession) : Prop where
  session : w.sessionStore s = some x
  previous : x.previousSession = none
  deleted : x.deleted = false
  tmgi : x.session.tmgi = none
  keyed : EveryTable KeyedByNumber x.session.mbsServiceInfo
  faithful : Faithful {} x.session

/-- An answer with unusable addresses leaves a session without SSM with one that is not even
equal to itself. -/
def Usable (x : MbsSession) (answer : Option SsmAnswer) : Prop :=
  answer = some .unusable → x.session.ssm.isSome = true

theorem parse_unanswerable (hx : w.sessionStore s = some x) (hunderstood : createUnderstood x rsp = true)
    (hdata : rsp.createRspData = some (some m)) (hnone : m.mbsSessionId = none) :
    nmbsmfMbsSessionParse w s rsp = .error .nullMbsSessionId := by
  obtain ⟨id, m', v, y, -, hdata', hparse, -⟩ := parse_understood hx hunderstood
  obtain rfl := Option.some.inj (Option.some.inj (hdata.symm.trans hdata'))
  rw [hparse, parseSessionId, hnone]
  rfl

/-- The answered value is one that its copy compares equal to. -/
theorem faithful_answered (hx : Faithful {} x.session) (husable : Usable x answer)
    {tunnel : List TunnelAddress} {tmgi : Option Ref} :
    Faithful {} (answeredSession { x.session with mbUpfUdpTunnel := tunnel, tmgi := tmgi } answer) := by
  cases answer with
  | none => exact ⟨hx.terminationTime, hx.ssm, hx.associatedSessionId, hx.geographicAreas, hx.strings,
      hx.tables⟩
  | some a =>
      refine ⟨hx.terminationTime, fun b hb => ?_, hx.associatedSessionId, hx.geographicAreas, hx.strings,
        hx.tables⟩
      cases a with
      | ipv4 source dest =>
          obtain rfl := Option.some.inj hb
          trivial
      | ipv6 source dest =>
          obtain rfl := Option.some.inj hb
          trivial
      | unusable =>
          obtain ⟨c, hc⟩ := Option.isSome_iff_exists.1 (husable rfl)
          have hkept : some (x.session.ssm.getD {}) = some b := hb
          rw [hc, Option.getD_some] at hkept
          exact hx.ssm b (hc.trans hkept)

/-- The session is what the answer makes of it, and asks for what it asked for. -/
structure AsAnswered (w : World) (x y : MbsSession) (id : String) (m : CreatedSession) : Prop
    extends SetFrom w x y id m where
  tmgiReq : y.session.tmgiReq = x.session.tmgiReq
  tunnelReq : y.session.tunnelReq = x.session.tunnelReq

theorem parseSessionId_session {y' : MbsSession} (hy : v.sessionStore s = some y)
    (hanswer : m.mbsSessionId = some answer) (h : parseSessionId v s m = .ok w')
    (hy' : w'.sessionStore s = some y') : y'.session = answeredSession y.session answer := by
  obtain ⟨u, r, hcopy, -, rfl⟩ := (parseSessionId_eq_ok hy hanswer).1 h
  simp only [World.modifySession, Store.modify_self, copyTmgi_sessionStore hcopy, World.setSession,
    Store.set_self, Option.map_some, Option.some.injEq] at hy'
  rw [← hy']
  rfl

/-- The session takes what the answer says, and compares equal to the copy that is kept. -/
theorem parse_accepted (h : Asking w s x) (hunderstood : createUnderstood x rsp = true)
    (hdata : rsp.createRspData = some (some m)) (hanswer : m.mbsSessionId = some answer)
    (husable : Usable x answer) :
    ∃ id w' y, rsp.createLocation = .resource id ∧ nmbsmfMbsSessionParse w s rsp = .ok (w', true) ∧
      w'.sessionStore s = some y ∧ AsAnswered w' x y id m ∧ pushDecision w' y = .ok .unchanged := by
  obtain ⟨id, m', v, y, hloc, hdata', hparse, hy, hhead, hsession⟩ :=
    parse_understood h.session hunderstood
  obtain rfl := Option.some.inj (Option.some.inj (hdata.symm.trans hdata'))
  have hanswerable : Answerable w x m := by
    refine ⟨⟨answer, hanswer, husable⟩, h.faithful.strings, fun _ p d hp => ?_⟩
    rw [h.previous] at hp
    cases hp
  obtain ⟨w', y', hrest, hy', hset⟩ := (setFrom_iff hy hhead).2 hanswerable
  have hvalue : (answeredSession y.session answer).tmgi = y.session.tmgi ∧
      (answeredSession y.session answer).mbsServiceInfo = y.session.mbsServiceInfo := by
    cases answer <;> exact ⟨rfl, rfl⟩
  have hplace : TmgisInPlace (v.setSession s { y with session := answeredSession y.session answer })
      {} (answeredSession y.session answer) := by
    refine ⟨fun t ht => ?_, fun _ d hd => ?_⟩
    · rw [hvalue.1] at ht
      cases hreq : x.session.tmgiReq with
      | false =>
          rw [hhead.kept hreq, h.tmgi] at ht
          cases ht
      | true =>
          obtain ⟨hgranted, -, q, hq, -⟩ := hhead.granted hreq
          rw [hgranted, Option.some.injEq] at ht
          change (v.tmgiStore t).isSome = true
          rw [← ht, hq]
          rfl
    · cases hd
  have hkeyed : EveryTable KeyedByNumber (answeredSession y.session answer).mbsServiceInfo := by
    rw [hvalue.2, hhead.info]
    exact h.keyed
  have hfaithful : Faithful {} (answeredSession y.session answer) := by
    rw [hsession]
    exact faithful_answered h.faithful husable
  have hdeleted : y.deleted = false := by
    have hwhole : nmbsmfMbsSessionParse w s rsp = .ok (w', true) := by
      rw [hparse, hrest]
      rfl
    obtain ⟨p, hp, hview⟩ := (valueEffect_nmbsmfMbsSessionParse hwhole).keeps.forth h.session
    obtain ⟨q, hq, hview'⟩ := (valueEffect_parseSessionId hrest).keeps.forth hy
    obtain rfl := Option.some.inj (hp.symm.trans hq)
    have hsame : (withoutValue y).deleted = (withoutValue x).deleted :=
      congrArg MbsSession.deleted (hview'.symm.trans hview)
    exact hsame.trans h.deleted
  have hquiet : ∃ u, refreshPrevious (v.setSession s
      { y with session := answeredSession y.session answer }) s
        { y with session := answeredSession y.session answer } = .ok u ∧ PushIsQuiet u s := by
    refine (refreshPrevious_quiet_iff (x := { y with session := answeredSession y.session answer })
      (Store.set_self _ _ _) hdeleted hkeyed).2 ?_
    have hfirst : y.previousSession.getD {} = {} := by
      rw [hhead.previous, h.previous]
      rfl
    constructor
    · change TmgisInPlace _ (y.previousSession.getD {}) _
      rw [hfirst]
      exact hplace
    · change Faithful (y.previousSession.getD {}) _
      rw [hfirst]
      exact hfaithful
  obtain ⟨u, href, y'', hy'', hdecision⟩ := hquiet
  rw [← parseSessionId_eq hy hanswer, hrest] at href
  obtain rfl := Except.ok.inj href
  obtain rfl := Option.some.inj (hy'.symm.trans hy'')
  have hflags : y'.session.tmgiReq = x.session.tmgiReq ∧ y'.session.tunnelReq = x.session.tunnelReq := by
    rw [parseSessionId_session hy hanswer hrest hy', hsession]
    cases answer <;> exact ⟨rfl, rfl⟩
  refine ⟨id, w', y', hloc, ?_, hy', ⟨hset, hflags.1, hflags.2⟩, hdecision⟩
  rw [hparse, hrest]
  rfl

/-! ## The push that follows -/

/-- The session has one subscription, which has been put into a create request at most. -/
structure OneNew (w : World) (s u o : Ref) (n : StatusSubscription) (x : MbsSession) : Prop where
  news : x.newSubscriptions = [u]
  active : x.active = []
  leaving : x.deletedSubscriptions = []
  sbiObject : x.sbiObject = some o
  subscription : w.subscriptionStore u = some n
  attached : n.session = some s
  changed : n.changed = true

def subscribeXact (k : ℕ) (s u o : Ref) (n : StatusSubscription) : Xact :=
  { id := k, sbiObject := o, requester := .session s, request := .subscribe u (subscriptionBody n) }

/-- The subscription has been requested. -/
def subscribing (w : World) (s u o : Ref) (n : StatusSubscription) : World :=
  { w with
    xacts := w.xacts ++ [subscribeXact w.next s u o n]
    log := .sent (subscribeXact w.next s u o n) :: w.log
    next := w.next + 1
    subscriptionStore := w.subscriptionStore.modify u fun n => { n with changed := false } }

theorem subscriptionsUpdate_one {c : Option Tmgi} (hx : w.sessionStore s = some x)
    (h : OneNew w s u o n x) (hread : w.tmgiContent x.session.tmgi = .ok c) :
    mbsSessionSubscriptionsUpdate w s = .ok (subscribing w s u o n) := by
  have hsend : updateNewSubscription w u = .ok (subscribing w s u o n) := by
    simp only [updateNewSubscription, bind_eq_ok, World.subscriptionAt_eq_ok]
    refine ⟨n, h.subscription, { w with
      xacts := w.xacts ++ [subscribeXact w.next s u o n]
      log := .sent (subscribeXact w.next s u o n) :: w.log
      next := w.next + 1 }, ?_, rfl⟩
    rw [if_pos h.changed, mbsStatusSubscriptionSendCreate, mbsStatusSubscriptionSend, bind_eq_ok]
    refine ⟨n, World.subscriptionAt_eq_ok.2 h.subscription, ?_⟩
    simp only [h.attached, bind_eq_ok, World.sessionAt_eq_ok]
    refine ⟨x, hx, sbiXactAdd_eq_ok.2 ⟨o, _, h.sbiObject, ?_, rfl⟩⟩
    rw [buildStatusSubscriptionCreate, hread]
    rfl
  simp only [mbsSessionSubscriptionsUpdate, bind_eq_ok, World.sessionAt_eq_ok]
  refine ⟨x, hx, subscribing w s u o n, ?_, subscribing w s u o n, ?_, ?_⟩
  · rw [h.news, List.foldlM_cons, hsend]
    rfl
  · rw [h.active]
    rfl
  · rw [h.leaving]
    rfl

theorem AsAnswered.congr (h : AsAnswered w x y id m) (htmgis : w'.tmgis = w.tmgis)
    (hstore : w'.tmgiStore = w.tmgiStore) : AsAnswered w' x y id m := by
  refine ⟨⟨h.id, h.tunnel, ?_, h.ssm, ?_⟩, h.tmgiReq, h.tunnelReq⟩
  · rw [htmgis, hstore]
    exact h.tmgi
  · obtain ⟨p, hp, hkept⟩ := h.previous
    refine ⟨p, hp, hkept.tunnel, hkept.ssm, ?_⟩
    rw [tmgiContent_congr hstore, tmgiContent_congr hstore]
    exact hkept.tmgi

/-- The TMGI of an accepted session can be read. -/
theorem AsAnswered.tmgiContent (h : AsAnswered w x y id m) (hx : x.session.tmgi = none) :
    ∃ c, w.tmgiContent y.session.tmgi = .ok c := by
  have htmgi := h.tmgi
  split at htmgi
  · obtain ⟨t, z, ht, -, hz, -⟩ := htmgi
    rw [ht]
    exact ⟨some z.tmgi, tmgiContent_some_eq_ok.2 ⟨z.tmgi, by simp [contentAt, hz], rfl⟩⟩
  · rw [htmgi, hx]
    exact ⟨none, rfl⟩

/-- What an accepted create leaves: the application has been told, and the subscription has been
requested. -/
structure AcceptedFirst (w w' : World) (k : ℕ) (cb : ResultCallback) (s u o : Ref)
    (n : StatusSubscription) (x : MbsSession) (id : String) (m : CreatedSession) : Prop where
  traffic : ∃ l, w.next ≤ l ∧ w'.xacts = w.xacts ++ [subscribeXact l s u o n] ∧
    w'.log = .sent (subscribeXact l s u o n) :: .sessionCallback k s cb .ogsOk none :: w.log
  mbsSessions : w'.mbsSessions = w.mbsSessions
  session : ∃ y, w'.sessionStore s = some y ∧ AsAnswered w' x y id m ∧
    withoutValue y = withoutValue x
  subscription : w'.subscriptionStore u = some { n with changed := false }

theorem handleCreateResponse_accepted {k : ℕ} {cb : ResultCallback} (h : Asking w s x)
    (hone : OneNew w s u o n x) (hcb : x.createResultCb = some cb)
    (hstatus : isSuccess rsp.status = true) (hunderstood : createUnderstood x rsp = true)
    (hdata : rsp.createRspData = some (some m)) (hanswer : m.mbsSessionId = some answer)
    (husable : Usable x answer) :
    ∃ id w', rsp.createLocation = .resource id ∧ handleCreateResponse w k s rsp = .ok w' ∧
      AcceptedFirst w w' k cb s u o n x id m := by
  obtain ⟨id, v, y, hloc, hparse, hy, hset, hdecision⟩ :=
    parse_accepted h hunderstood hdata hanswer husable
  have heffect := valueEffect_nmbsmfMbsSessionParse hparse
  have huntouched := untouched_parse h.session h.previous hparse
  obtain ⟨y', hy', hview⟩ := heffect.keeps.forth h.session
  obtain rfl := Option.some.inj (hy.symm.trans hy')
  have hfields : y.newSubscriptions = x.newSubscriptions ∧
      y.activeSubscriptions = x.activeSubscriptions ∧
      y.deletedSubscriptions = x.deletedSubscriptions ∧ y.sbiObject = x.sbiObject ∧
      y.createResultCb = x.createResultCb := by
    have hnews : (withoutValue y).newSubscriptions = (withoutValue x).newSubscriptions := by rw [hview]
    have hactive : (withoutValue y).activeSubscriptions = (withoutValue x).activeSubscriptions := by
      rw [hview]
    have hleaving : (withoutValue y).deletedSubscriptions = (withoutValue x).deletedSubscriptions := by
      rw [hview]
    have hsbi : (withoutValue y).sbiObject = (withoutValue x).sbiObject := by rw [hview]
    have hcreate : (withoutValue y).createResultCb = (withoutValue x).createResultCb := by rw [hview]
    exact ⟨hnews, hactive, hleaving, hsbi, hcreate⟩
  obtain ⟨hnews, hactive, hleaving, hsbi, hcreate⟩ := hfields
  have htold : mbsSessionDoCallback v k s .create .ogsOk none =
      .ok (v.say (.sessionCallback k s cb .ogsOk none)) := by
    simp only [mbsSessionDoCallback, bind_eq_ok, World.sessionAt_eq_ok]
    refine ⟨y, hy, ?_⟩
    rw [show callbackOf y .create = some cb from hcreate.trans hcb]
  have hone' : OneNew (v.say (.sessionCallback k s cb .ogsOk none)) s u o n y := by
    refine ⟨hnews.trans hone.news, ?_, hleaving.trans hone.leaving, hsbi.trans hone.sbiObject, ?_,
      hone.attached, hone.changed⟩
    · have hempty := hone.active
      rw [MbsSession.active, ← hactive] at hempty
      exact hempty
    · exact (congrFun heffect.subscriptionStore u).trans hone.subscription
  obtain ⟨c, hread⟩ := hset.tmgiContent h.tmgi
  have hupdate := subscriptionsUpdate_one (w := v.say (.sessionCallback k s cb .ogsOk none))
    (c := c) hy hone' ((tmgiContent_congr (w := v) rfl _).trans hread)
  have hpush : mbsSessionPushChanges (v.say (.sessionCallback k s cb .ogsOk none)) s =
      .ok (subscribing (v.say (.sessionCallback k s cb .ogsOk none)) s u o n) := by
    refine mbsSessionPushChanges_eq_ok.2 ⟨y, .unchanged, hy, ?_, hupdate⟩
    rw [← hdecision]
    exact pushDecision_congr rfl y
  refine ⟨id, subscribing (v.say (.sessionCallback k s cb .ogsOk none)) s u o n, hloc, ?_,
    ⟨v.next, heffect.log.next, ?_, ?_⟩, heffect.mbsSessions, ⟨y, hy, ?_, hview⟩, ?_⟩
  · rw [handleCreateResponse, if_pos hstatus, hparse]
    exact bind_eq_ok.2 ⟨(v, true), rfl, bind_eq_ok.2 ⟨_, htold, hpush⟩⟩
  · change v.xacts ++ _ = _
    rw [huntouched.xacts]
    rfl
  · change _ :: _ :: v.log = _
    rw [huntouched.log]
    rfl
  · exact hset.congr rfl rfl
  · change (v.subscriptionStore.modify u _) u = _
    rw [heffect.subscriptionStore, Store.modify_self, hone.subscription]
    rfl

/-- A create that is not accepted leaves the session as it was, but for its id and its tunnels. -/
theorem handleCreateResponse_refused {k : ℕ} {cb : ResultCallback} (h : Asking w s x)
    (hnext : NextUnused w) (hcb : x.createResultCb = some cb)
    (hrefused : isSuccess rsp.status = false ∨ createUnderstood x rsp = false) :
    ∃ w', handleCreateResponse w k s rsp = .ok w' ∧ w'.xacts = w.xacts ∧
      w'.log = .sessionCallback k s cb .ogsError
        (if isSuccess rsp.status then none else rsp.problemDetails) :: w.log := by
  by_cases hstatus : isSuccess rsp.status = true
  · have hlacks := hrefused.resolve_left (by simp [hstatus])
    obtain ⟨v, hparse, hv, -, -⟩ := parse_refused h.session hnext hlacks
    have huntouched := untouched_parse h.session h.previous hparse
    obtain ⟨y, hy, hview⟩ := (valueEffect_nmbsmfMbsSessionParse hparse).keeps.forth h.session
    have hcreate : (withoutValue y).createResultCb = (withoutValue x).createResultCb := by rw [hview]
    have htold : mbsSessionDoCallback v k s .create .ogsError none =
        .ok (v.say (.sessionCallback k s cb .ogsError none)) := by
      simp only [mbsSessionDoCallback, bind_eq_ok, World.sessionAt_eq_ok]
      refine ⟨y, hy, ?_⟩
      rw [show callbackOf y .create = some cb from hcreate.trans hcb]
    refine ⟨v.say (.sessionCallback k s cb .ogsError none), ?_, huntouched.xacts, ?_⟩
    · rw [handleCreateResponse, if_pos hstatus, hparse]
      exact htold
    · rw [if_pos hstatus, ← huntouched.log]
      rfl
  · refine ⟨w.say (.sessionCallback k s cb .ogsError rsp.problemDetails), ?_, rfl, ?_⟩
    · rw [handleCreateResponse, if_neg hstatus]
      simp only [mbsSessionDoCallback, bind_eq_ok, World.sessionAt_eq_ok]
      refine ⟨x, h.session, ?_⟩
      rw [show callbackOf x .create = some cb from hcb]
    · rw [if_neg hstatus]
      rfl

end ServiceConsumers.FirstAnswers
