import ServiceConsumers.CreateResponses
import ServiceConsumers.Snapshots

set_option autoImplicit false

/-!
# Lost updates

A request carries what the session says when it is sent. The copy of the session that a push
compares with is taken when the answer to a create arrives, and the session may have been edited
since. The answer to an update is never taken into the copy: its message has no status.
-/

namespace ServiceConsumers.LostUpdates

open ObjectStore ServiceAreas PublicSessions ConsumerState TmgiOperations SessionOperations
  ResponseHandlers ProcessEvent TransitionRuns TransactionLog SessionEffects PushEffects
  AnswerEffects EventEffects StepDecomposition RunInvariants TmgiEffects SessionCopies TmgiContents
  Quiescence SessionCallbacks TmgiSteps SessionTmgis CreateResponses Snapshots

/-! ## What is to hold -/

/-- The value of a session that a request was built from. -/
def carriedBy : Request → Option (PublicSession Tmgi)
  | .create carried _ | .update _ _ carried => some carried
  | _ => none

/-- The MB-SMF accepts a request of a session that is still there. -/
structure Accepts (w : World) (e : Event) (x : Xact) (s : Ref) (y : MbsSession) (rsp : Response) :
    Prop where
  event : e = .network (.response x.id rsp)
  outstanding : w.findXact x.id = some x
  requester : x.requester = .session s
  live : w.sessionStore s = some y
  parsed : rsp.parsed = true
  status : isSuccess rsp.status = true

/-- The value that was sent, with the identifiers and the addresses of the answer. -/
structure AnsweredWith (m : CreatedSession) (carried a : PublicSession Tmgi) : Prop where
  ssm : ∃ answer, m.mbsSessionId = some answer ∧ a.ssm = ssmFrom carried.ssm answer
  tunnel : if carried.tunnelReq then m.ingressTunAddr = some a.mbUpfUdpTunnel
    else a.mbUpfUdpTunnel = carried.mbUpfUdpTunnel
  tmgi : if carried.tmgiReq then ∃ c, a.tmgi = some c ∧ TmgiFrom m c else a.tmgi = carried.tmgi
  others : a = { carried with ssm := a.ssm, mbUpfUdpTunnel := a.mbUpfUdpTunnel, tmgi := a.tmgi }

/-- The value that the MB-SMF has accepted with a request. -/
def AcceptedAs (a : PublicSession Tmgi) (rsp : Response) : Request → Prop
  | .create carried _ => ∃ m, rsp.createRspData = some (some m) ∧ AnsweredWith m carried a
  | .update _ _ carried => a = carried
  | _ => False

def PreviousSays (w : World) (s : Ref) (a : PublicSession Tmgi) : Prop :=
  ∃ y p c, w.sessionStore s = some y ∧ y.previousSession = some p ∧ w.sessionContent p = .ok c ∧
    said c = said a

/-- A push sends what the session says when it compares different from the copy. -/
def DifferenceSent (w : World) (s : Ref) : Prop :=
  ∀ y p c d w', w.sessionStore s = some y → y.deleted = false → y.previousSession = some p →
    w.sessionContent p = .ok c → w.sessionContent y.session = .ok d →
    publicEqual c d = some false → mbsSessionPushChanges w s = .ok w' →
    ∃ new x, w'.log = new ++ w.log ∧ .sent x ∈ new ∧ x.requester = .session s ∧
      carriedBy x.request = some d

/-- After an answer the copy says what was accepted, so that what was edited in between is
still a difference, and differences are sent. -/
structure NoLostUpdate (w : World) (e : Event) (w' : World) : Prop where
  kept : ∀ x s y rsp, Accepts w e x s y rsp → (carriedBy x.request).isSome = true →
    ∃ a, AcceptedAs a rsp x.request ∧ PreviousSays w' s a
  sent : ∀ s, DifferenceSent w' s

/-! ## The condition -/

/-- The search finds the session that sent the request. It still says what the request carried,
its termination time apart, and a copy of it leaves nothing out. -/
structure StillSays (w : World) (x : Xact) (s : Ref) (y : MbsSession)
    (carried : PublicSession Tmgi) : Prop where
  found : contextSbiObjectToSession w x.sbiObject = some s
  content : ∃ c, w.sessionContent y.session = .ok c ∧
    said { c with terminationTime := carried.terminationTime } = said carried
  terminationTime : (y.previousSession.getD {}).terminationTime = carried.terminationTime
  cells : ∀ area, y.session.mbsServiceArea = some area → ∀ n ∈ area.ncgiTais, n.ncgis = []
  polygons : ∀ area, y.session.extMbsServiceArea = some area →
    ∀ g ∈ area.geographicAreas, PointsFree g

/-- The answer to a create is taken in whole. -/
def TakenIn (y : MbsSession) (rsp : Response) : Prop :=
  createUnderstood y rsp = true ∧
    ∀ m, rsp.createRspData = some (some m) → m.mbsSessionId = some (some .unusable) →
      y.session.ssm.isSome = true

/-- No edit in flight while a session is created, and no update whose value the copy does not have
already. -/
def Unedited (w : World) (e : Event) : Prop :=
  ∀ x s y rsp carried, Accepts w e x s y rsp → carriedBy x.request = some carried →
    if x.request.isCreate then StillSays w x s y carried ∧ TakenIn y rsp
    else PreviousSays w s carried

variable {w w' v v' u : World} {s : Ref} {x : Xact} {y : MbsSession} {rsp : Response} {n : ℕ}
  {a c carried : PublicSession Tmgi} {dst src copy : PublicSession Ref}

/-! ## The copy -/

theorem sessionContent_eq_ok : w.sessionContent src = .ok c ↔
    ∃ t, w.tmgiContent src.tmgi = .ok t ∧ c = src.content t := by
  simp only [World.sessionContent, bind_eq_ok, Except.ok.injEq]
  exact exists_congr fun t => and_congr_right fun _ => eq_comm

theorem sessionContent_congr (h : w'.tmgiStore = w.tmgiStore) (p : PublicSession Ref) :
    w'.sessionContent p = w.sessionContent p := by
  simp only [World.sessionContent, tmgiContent_congr h]

/-- The TMGI of a copy says what that of the source said. -/
theorem copyTmgi_content {r : Option Ref} {t : Option Tmgi} (h : copyTmgi w dst src = .ok (w', r))
    (ht : w.tmgiContent src.tmgi = .ok t) : w'.tmgiContent r = .ok t := by
  unfold copyTmgi at h
  by_cases hreq : src.tmgiReq
  swap
  · rw [if_neg hreq, Except.ok.injEq, Prod.mk.injEq] at h
    obtain ⟨rfl, rfl⟩ := h
    exact ht
  rw [if_pos hreq] at h
  by_cases hsame : dst.tmgi = src.tmgi
  · rw [hsame, tmgiCopy_self, Except.ok.injEq, Prod.mk.injEq] at h
    obtain ⟨rfl, rfl⟩ := h
    exact ht
  cases hsrc : src.tmgi with
  | none =>
      rw [hsrc] at h hsame ht
      obtain ⟨d, hd⟩ := Option.ne_none_iff_exists'.1 hsame
      rw [hd, tmgiCopy_none_eq_ok] at h
      obtain ⟨-, rfl⟩ := h
      exact ht
  | some q =>
      rw [hsrc] at h hsame ht
      obtain ⟨d, z, hz, rfl, hd, -⟩ := contentAt_tmgiCopy hsame h
      obtain ⟨content, hcontent, rfl⟩ := tmgiContent_some_eq_ok.1 ht
      rw [contentAt, hz, Option.map_some, Option.some.injEq] at hcontent
      exact tmgiContent_some_eq_ok.2 ⟨_, hd, by rw [hcontent]⟩

/-- A copy that leaves nothing out says what its source said, with its own termination time. -/
theorem said_of_copy {dest : Option (PublicSession Ref)}
    (h : mbsSessionPublicCopy w dest src = .ok (w', copy)) (hc : w.sessionContent src = .ok c)
    (hcells : ∀ area, src.mbsServiceArea = some area → ∀ n ∈ area.ncgiTais, n.ncgis = [])
    (hpolygons : ∀ area, src.extMbsServiceArea = some area → ∀ g ∈ area.geographicAreas,
      PointsFree g) :
    ∃ d, w'.sessionContent copy = .ok d ∧
      said d = said { c with terminationTime := (dest.getD {}).terminationTime } := by
  obtain ⟨t, ht, rfl⟩ := sessionContent_eq_ok.1 hc
  obtain ⟨r, hr, rfl, -⟩ := mbsSessionPublicCopy_iff.1 h
  refine ⟨_, sessionContent_eq_ok.2 ⟨t, copyTmgi_content hr ht, rfl⟩, ?_⟩
  exact (@said_copiedSession_iff _ (dest.getD {})
    { src with terminationTime := (dest.getD {}).terminationTime } r t).2 ⟨rfl, hcells, hpolygons⟩

theorem previousSays_of_refresh (hy : v.sessionStore s = some y) (h : refreshPrevious v s y = .ok u)
    (hc : v.sessionContent y.session = .ok c)
    (hsaid : said { c with terminationTime := (y.previousSession.getD {}).terminationTime } = said a)
    (hcells : ∀ area, y.session.mbsServiceArea = some area → ∀ n ∈ area.ncgiTais, n.ncgis = [])
    (hpolygons : ∀ area, y.session.extMbsServiceArea = some area → ∀ g ∈ area.geographicAreas,
      PointsFree g) : PreviousSays u s a := by
  obtain ⟨t, copy, hcopy, rfl⟩ := refreshPrevious_eq_ok.1 h
  obtain ⟨d, hd, hsame⟩ := said_of_copy hcopy hc hcells hpolygons
  have hstore : t.sessionStore s = some y := by
    rw [(mbsSessionPublicCopy_eq_ok hcopy).1.sessionStore]
    exact hy
  refine ⟨{ y with previousSession := some copy }, copy, d, ?_, rfl, hd, hsame.trans hsaid⟩
  simp [World.modifySession, Store.modify_self, hstore]

theorem PreviousSays.of_keeps (h : PreviousSays w s a)
    (hkeeps : Keeps MbsSession.previousSession w w') (hstore : w'.tmgiStore = w.tmgiStore) :
    PreviousSays w' s a := by
  obtain ⟨y, p, c, hy, hp, hc, hsaid⟩ := h
  have hkept := hkeeps s
  rw [hy, Option.map_some] at hkept
  obtain ⟨y', hy', hprevious⟩ := Option.map_eq_some_iff.1 hkept
  exact ⟨y', p, c, hy', hprevious.trans hp, (sessionContent_congr hstore p).trans hc, hsaid⟩

theorem PreviousSays.of_callback {kind : CallbackKind} {result : CallbackResult}
    {problem : Option ProblemDetails} (h : PreviousSays w s a)
    (hcallback : mbsSessionDoCallback w n s kind result problem = .ok w') : PreviousSays w' s a := by
  obtain ⟨hsessions, htmgis⟩ := callback_keeps_stores hcallback
  exact h.of_keeps (Keeps.of_eq hsessions) htmgis

theorem PreviousSays.of_push (h : PreviousSays w s a) (hpush : mbsSessionPushChanges w s = .ok w') :
    PreviousSays w' s a := by
  have heffect := pushEffect_mbsSessionPushChanges hpush
  exact h.of_keeps (heffect.keeps.comp MbsSession.previousSession) heffect.tmgiStore

theorem PreviousSays.finishEvent (h : PreviousSays w s a) (held : Option Ref) :
    PreviousSays (finishEvent n held w) s a := by
  refine h.of_keeps (Keeps.of_eq (tmgiEffect_finishEvent n held).sessionStore) ?_
  exact World.refCountSbiObjectUnref_tmgiStore _ _

/-! ## Accepted updates -/

/-- The copy says after the answer to an update what it said before. -/
theorem previousSays_updated_iff {id : Option String} {patches : List JsonDocuments.PatchItem}
    (hx : w.findXact n = some x) (hrequest : x.request = .update id patches carried)
    (h : step w (.network (.response n rsp)) = .ok w') :
    PreviousSays w' s a ↔ PreviousSays w s a := by
  obtain ⟨hsessions, htmgis⟩ := stores_of_updateAnswer hx hrequest h
  exact ⟨fun hp => hp.of_keeps (Keeps.of_eq hsessions.symm) htmgis.symm,
    fun hp => hp.of_keeps (Keeps.of_eq hsessions) htmgis⟩

/-! ## Accepted creates -/

/-- The session when its identifiers are read says what it said before, with the tunnels and
the TMGI of the answer. -/
theorem sessionContent_of_headed {id : String} {m : CreatedSession} {y' : MbsSession}
    (hnext : w.tmgiStore w.next = none) (hhead : Headed w v y y' id m)
    (hsession : y'.session = { y.session with
      mbUpfUdpTunnel := y'.session.mbUpfUdpTunnel
      tmgi := y'.session.tmgi })
    (hc : w.sessionContent y.session = .ok c) :
    ∃ t, v.tmgiContent y'.session.tmgi = .ok t ∧
      (if y.session.tmgiReq then ∃ z, t = some z ∧ TmgiFrom m z else t = c.tmgi) ∧
      y'.session.content t = { c with mbUpfUdpTunnel := y'.session.mbUpfUdpTunnel, tmgi := t } := by
  obtain ⟨t, ht, rfl⟩ := sessionContent_eq_ok.1 hc
  have hothers : ∀ t' : Option Tmgi, y'.session.content t' = { y.session.content t with
      mbUpfUdpTunnel := y'.session.mbUpfUdpTunnel
      tmgi := t' } := by
    intro t'
    rw [hsession]
    rfl
  cases hreq : y.session.tmgiReq with
  | true =>
      obtain ⟨hgranted, -, z, hz, hfrom⟩ := hhead.granted hreq
      refine ⟨some z.tmgi, ?_, ⟨z.tmgi, rfl, hfrom⟩, hothers _⟩
      rw [hgranted]
      exact tmgiContent_some_eq_ok.2 ⟨z.tmgi, by rw [contentAt, hz]; rfl, rfl⟩
  | false =>
      refine ⟨t, ?_, rfl, hothers t⟩
      rw [hhead.kept hreq]
      cases hq : y.session.tmgi with
      | none =>
          rw [hq] at ht
          exact ht
      | some q =>
          rw [hq] at ht
          obtain ⟨content, hcontent, rfl⟩ := tmgiContent_some_eq_ok.1 ht
          have hne : q ≠ w.next := by
            rintro rfl
            rw [contentAt, hnext] at hcontent
            cases hcontent
          refine tmgiContent_some_eq_ok.2 ⟨content, ?_, rfl⟩
          rw [contentAt, hhead.objects q hne]
          exact hcontent

theorem previousSays_of_parse {y' : MbsSession} {id : String} {m : CreatedSession}
    (hnext : w.tmgiStore w.next = none) (hy' : v.sessionStore s = some y')
    (hhead : Headed w v y y' id m)
    (hsession : y'.session = { y.session with
      mbUpfUdpTunnel := y'.session.mbUpfUdpTunnel
      tmgi := y'.session.tmgi })
    (hstill : StillSays w x s y carried)
    (hssm : m.mbsSessionId = some (some .unusable) → y.session.ssm.isSome = true)
    (h : parseSessionId v s m = .ok u) : ∃ a, AnsweredWith m carried a ∧ PreviousSays u s a := by
  obtain ⟨c, hc, hsaid⟩ := hstill.content
  obtain ⟨t, ht, htmgi, hcontent⟩ := sessionContent_of_headed hnext hhead hsession hc
  obtain ⟨t₀, -, rfl⟩ := sessionContent_eq_ok.1 hc
  have hreqs : y.session.ssm = carried.ssm ∧ y.session.tunnelReq = carried.tunnelReq ∧
      y.session.tmgiReq = carried.tmgiReq ∧ y.session.mbUpfUdpTunnel = carried.mbUpfUdpTunnel ∧
      t₀ = carried.tmgi :=
    ⟨congrArg PublicSession.ssm hsaid, congrArg PublicSession.tunnelReq hsaid,
      congrArg PublicSession.tmgiReq hsaid, congrArg PublicSession.mbUpfUdpTunnel hsaid,
      congrArg PublicSession.tmgi hsaid⟩
  obtain ⟨hsameSsm, htunnelReq, htmgiReq, htunnels, hsameTmgi⟩ := hreqs
  cases hanswer : m.mbsSessionId with
  | none =>
      rw [parseSessionId, hanswer] at h
      cases h
  | some answer =>
      rw [parseSessionId_eq hy' hanswer] at h
      have hssm' : (answeredSession y'.session answer).ssm = ssmFrom carried.ssm answer := by
        rw [← hsameSsm, ← hhead.ssm]
        refine answeredSession_ssm_iff.2 fun hunusable => ?_
        rw [hhead.ssm]
        exact hssm (by rw [hanswer, hunusable])
      have hanswered : (answeredSession y'.session answer).content t =
          { y'.session.content t with ssm := (answeredSession y'.session answer).ssm } := by
        cases answer <;> rfl
      have htmgi' : (answeredSession y'.session answer).tmgi = y'.session.tmgi := by
        cases answer <;> rfl
      have hareas : (answeredSession y'.session answer).mbsServiceArea = y.session.mbsServiceArea ∧
          (answeredSession y'.session answer).extMbsServiceArea = y.session.extMbsServiceArea := by
        rw [hsession]
        cases answer <;> exact ⟨rfl, rfl⟩
      refine ⟨{ carried with
          ssm := (answeredSession y'.session answer).ssm
          mbUpfUdpTunnel := y'.session.mbUpfUdpTunnel
          tmgi := t }, ⟨⟨answer, hanswer, hssm'⟩, ?_, ?_, rfl⟩, ?_⟩
      · rw [← htunnelReq, ← htunnels]
        exact hhead.tunnel
      · rw [← htmgiReq, ← hsameTmgi]
        exact htmgi
      · refine previousSays_of_refresh (Store.set_self _ _ _) h
          (sessionContent_eq_ok.2 ⟨t, htmgi' ▸ ht, rfl⟩) ?_ ?_ ?_
        · rw [hanswered, hcontent, hhead.previous, hstill.terminationTime]
          exact congrArg (fun b : PublicSession Tmgi => { b with
            ssm := (answeredSession y'.session answer).ssm
            mbUpfUdpTunnel := y'.session.mbUpfUdpTunnel
            tmgi := t }) hsaid
        · rw [hareas.1]
          exact hstill.cells
        · rw [hareas.2]
          exact hstill.polygons

theorem previousSays_of_create (hnext : NextUnused v) (hy : v.sessionStore s = some y)
    (hstill : StillSays v x s y carried) (hstatus : isSuccess rsp.status = true)
    (hunderstood : createUnderstood y rsp = true)
    (hssm : ∀ m, rsp.createRspData = some (some m) → m.mbsSessionId = some (some .unusable) →
      y.session.ssm.isSome = true)
    (h : handleCreateResponse v n s rsp = .ok u) : ∃ m a, rsp.createRspData = some (some m) ∧
      AnsweredWith m carried a ∧ PreviousSays u s a := by
  obtain ⟨id, m, t, y', -, hdata, hrun, hy', hhead, hsession⟩ := parse_understood hy hunderstood
  rcases handleCreateResponse_cases h with ⟨hrefused, -⟩ | ⟨-, t', hparse, -⟩ |
    ⟨-, t', t'', hparse, hcallback, hpush⟩
  · rw [hstatus] at hrefused
    cases hrefused
  · have hread := nmbsmfMbsSessionParse_understood hy hparse
    rw [hunderstood] at hread
    cases hread
  · rw [hrun] at hparse
    obtain ⟨r, hr, heq⟩ := bind_eq_ok.1 hparse
    rw [Except.ok.injEq, Prod.mk.injEq] at heq
    obtain ⟨rfl, -⟩ := heq
    obtain ⟨a, ha, hprevious⟩ :=
      previousSays_of_parse hnext.store hy' hhead hsession hstill (hssm m hdata) hr
    exact ⟨m, a, hdata, ha, (hprevious.of_callback hcallback).of_push hpush⟩

/-! ## Differences -/

/-- A session that is not deleted and differs from its copy is created again or updated. -/
theorem pushDecision_of_different {p : PublicSession Ref} {c d : PublicSession Tmgi}
    {decision : PushDecision} (hdeleted : y.deleted = false) (hp : y.previousSession = some p)
    (hc : w.sessionContent p = .ok c) (hd : w.sessionContent y.session = .ok d)
    (hdiffer : publicEqual c d = some false) (h : pushDecision w y = .ok decision) :
    decision = .update ∨ ∃ removeFirst, decision = .recreate removeFirst := by
  have hequal : mbsSessionPublicEqual w p y.session = .ok false := by
    simp only [mbsSessionPublicEqual, hc, hd, bind, Except.bind, hdiffer]
  simp only [pushDecision, hdeleted, hp, Bool.false_eq_true, if_false, hequal, bind, Except.bind]
    at h
  split at h
  · rw [Except.ok.injEq] at h
    exact .inr ⟨_, h.symm⟩
  · split at h
    · cases h
    · split at h
      · rw [Except.ok.injEq] at h
        exact .inr ⟨_, h.symm⟩
      · rw [Except.ok.injEq] at h
        exact .inl h.symm

theorem differenceSent (w : World) (s : Ref) : DifferenceSent w s := by
  intro y p c d w' hy hdeleted hp hc hd hdiffer hpush
  obtain ⟨y', decision, hy', hdecision, hout⟩ := mbsSessionPushChanges_eq_ok.1 hpush
  obtain rfl := Option.some.inj (hy.symm.trans hy')
  rcases pushDecision_of_different hdeleted hp hc hd hdiffer hdecision with
    rfl | ⟨removeFirst, rfl⟩
  · obtain ⟨v, hsend, hloops⟩ := bind_eq_ok.1 hout
    obtain ⟨y', o, patches, carried, hy', -, hcarried, -, rfl⟩ := mbsSessionSendUpdate_eq_ok hsend
    obtain rfl := Option.some.inj (hy.symm.trans hy')
    obtain rfl := Except.ok.inj (hd.symm.trans hcarried)
    obtain ⟨⟨new, hlog, -⟩, -⟩ := (pushEffect_mbsSessionSubscriptionsUpdate hloops).log
    refine ⟨new ++ [.sent ⟨w.next, o, .session s, .update y.id patches d⟩], _, ?_,
      List.mem_append_right _ List.mem_cons_self, rfl, rfl⟩
    rw [hlog, List.append_assoc]
    rfl
  · obtain ⟨v, hfirst, hcreate⟩ := bind_eq_ok.1 hout
    have hbefore : v.sessionStore = w.sessionStore ∧ v.tmgiStore = w.tmgiStore ∧
        ∃ new, v.log = new ++ w.log := by
      split at hfirst
      · obtain ⟨z, o, -, -, rfl⟩ := mbsSessionSendRemove_eq_ok hfirst
        exact ⟨rfl, rfl, [_], rfl⟩
      · rw [Except.ok.injEq] at hfirst
        exact hfirst ▸ ⟨rfl, rfl, [], rfl⟩
    obtain ⟨hsessions, htmgis, new, hlog⟩ := hbefore
    obtain ⟨z, o, carried, embedded, counts, next, hz, -, -, hcarried, -, rfl⟩ :=
      mbsSessionSendCreate_eq_ok hcreate
    rw [hsessions, hy, Option.some.injEq] at hz
    subst hz
    rw [sessionContent_congr htmgis, hd, Except.ok.injEq] at hcarried
    subst hcarried
    refine ⟨.sent ⟨next, o, .session s, .create d embedded⟩ :: new, _, ?_, List.mem_cons_self, rfl,
      rfl⟩
    rw [List.cons_append, ← hlog]

/-! ## Runs -/

theorem StillSays.handling (h : StillSays w x s y carried) (rsp : Response) :
    StillSays (handlingState w x rsp) x s y carried :=
  ⟨h.found, h.content, h.terminationTime, h.cells, h.polygons⟩

theorem kept_of_accepts (hrun : Run Unedited w) {e : Event} (hgood : Unedited w e)
    (hstep : step w e = .ok w') (haccepts : Accepts w e x s y rsp)
    (hcarries : (carriedBy x.request).isSome = true) :
    ∃ a, AcceptedAs a rsp x.request ∧ PreviousSays w' s a := by
  obtain ⟨carried, hcarried⟩ := Option.isSome_iff_exists.1 hcarries
  have hkept := hgood x s y rsp carried haccepts hcarried
  have hsound := (sound_of_run hrun).xacts
  obtain ⟨rfl, hx, -, hy, hparsed, hstatus⟩ := haccepts
  cases hrequest : x.request with
  | create carried' embedded =>
      rw [hrequest, carriedBy, Option.some.injEq] at hcarried
      subst hcarried
      simp only [hrequest, Request.isCreate, if_true] at hkept
      obtain ⟨hstill, htaken⟩ := hkept
      obtain ⟨v, held, rfl, hv⟩ := handleCreateResponse_of_answers hsound
        ⟨hx, hstill.found, hparsed⟩ (by rw [hrequest]; rfl) hstep
      have hnext : NextUnused (handlingState w x rsp) :=
        ⟨(nextUnused_of_run hrun).store, (nextUnused_of_run hrun).registry⟩
      obtain ⟨m, a, hdata, ha, hprevious⟩ :=
        previousSays_of_create hnext hy (hstill.handling rsp) hstatus htaken.1 htaken.2 hv
      exact ⟨a, ⟨m, hdata, ha⟩, hprevious.finishEvent held⟩
  | update id patches carried' =>
      rw [hrequest, carriedBy, Option.some.injEq] at hcarried
      subst hcarried
      simp only [hrequest, Request.isCreate, Bool.false_eq_true, if_false] at hkept
      exact ⟨carried', rfl, (previousSays_updated_iff hx hrequest hstep).2 hkept⟩
  | _ =>
      rw [hrequest] at hcarries
      cases hcarries

/-- In a run that meets the condition no update is lost. -/
theorem no_lost_update (hrun : Run Unedited w) {e : Event} (hgood : Unedited w e)
    (hstep : step w e = .ok w') : NoLostUpdate w e w' :=
  ⟨fun _ _ _ _ haccepts hcarries => kept_of_accepts hrun hgood hstep haccepts hcarries,
    differenceSent w'⟩

/-! ## An edit in flight -/

def sentRun : List Event :=
  [.session (.newIpv4 none none), .session (.edit 1 { tmgiReq := false }), .session (.pushChanges 1)]

def sentState : World := sentRun.foldl (advance step) World.initial

def dnnEdit : Event := .session (.edit 1 { tmgiReq := false, dnn := some "internet" })

def createdAnswer : Response :=
  { status := 201, resStatus := 201, createLocation := .resource "a",
    createRspData := some (some {}) }

def sentXact : Xact := ⟨3, 2, .session 1, .create { tmgiReq := false } none⟩

/-- The data network name that was edited in flight is taken to be accepted. -/
theorem edit_in_flight_is_lost : ¬∀ w e w', Reachable step World.initial w →
    step w e = .ok w' → NoLostUpdate w e w' := by
  intro h
  have hstep : step (advance step sentState dnnEdit) (.network (.response 3 createdAnswer)) =
      .ok (advance step (advance step sentState dnnEdit) (.network (.response 3 createdAnswer))) :=
    step_eq_advance (by decide +kernel)
  have hrun : Reachable step World.initial (advance step sentState dnnEdit) :=
    Reachable.of_events (sentRun ++ [dnnEdit])
  obtain ⟨a, ⟨m, -, ha⟩, y, p, c, hy, hp, hc, hsaid⟩ := (h _ _ _ hrun hstep).kept sentXact 1
    { session := { tmgiReq := false, dnn := some "internet" }, sbiObject := some 2 } createdAnswer
    ⟨rfl, rfl, rfl, rfl, rfl, rfl⟩ rfl
  have hsent : c.dnn = none :=
    (congrArg PublicSession.dnn hsaid).trans (congrArg PublicSession.dnn ha.others)
  obtain ⟨t, -, rfl⟩ := sessionContent_eq_ok.1 hc
  have hkept : ((advance step (advance step sentState dnnEdit)
      (.network (.response 3 createdAnswer))).sessionStore 1).map
        (fun y => y.previousSession.map PublicSession.dnn) = some (some (some "internet")) := by
    decide +kernel
  rw [hy, Option.map_some, hp, Option.map_some, Option.some.injEq, Option.some.injEq] at hkept
  exact absurd (hkept.symm.trans hsent) (by decide)

theorem Unedited.of_call {call : SessionCall} : Unedited w (.session call) := by
  intro x s y rsp carried haccepts
  cases haccepts.event

theorem sentState_unedited : Unedited sentState (.network (.response 3 createdAnswer)) := by
  rintro x s y rsp carried ⟨hevent, hx, hrequester, hy, -, -⟩ hcarried
  obtain ⟨hid, rfl⟩ : 3 = x.id ∧ createdAnswer = rsp := by
    rw [Event.network.injEq, NetworkEvent.response.injEq] at hevent
    exact hevent
  rw [← hid] at hx
  obtain rfl : sentXact = x := Option.some.inj (Eq.trans (by rfl) hx)
  obtain rfl : 1 = s := Requester.session.inj hrequester
  obtain rfl := Option.some.inj (Eq.trans (by rfl) hy)
  obtain rfl := Option.some.inj hcarried
  refine ⟨⟨rfl, ⟨_, rfl, rfl⟩, rfl, fun area h => ?_, fun area h => ?_⟩, rfl, fun m hm h => ?_⟩
  · cases h
  · cases h
  · obtain rfl := Option.some.inj (Option.some.inj hm)
    cases h

/-- Without that edit the create is accepted and nothing is lost. -/
theorem no_lost_update_created : ∃ w',
    step sentState (.network (.response 3 createdAnswer)) = .ok w' ∧
      NoLostUpdate sentState (.network (.response 3 createdAnswer)) w' := by
  have hstep : step sentState (.network (.response 3 createdAnswer)) =
      .ok (advance step sentState (.network (.response 3 createdAnswer))) :=
    step_eq_advance (by decide +kernel)
  have hrun : Run Unedited sentState :=
    Reach.of_goodFrom sentRun .init ⟨.of_call, .of_call, .of_call, trivial⟩
  exact ⟨_, hstep, no_lost_update hrun sentState_unedited hstep⟩

end ServiceConsumers.LostUpdates
