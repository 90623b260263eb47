import ServiceConsumers.LostUpdates

set_option autoImplicit false

/-!
# Refused updates

When the MB-SMF refuses an update, the snapshot that was accepted last is to be copied back over
the session, which has been edited since. The handler looks for the refusal in the status of the
message, and that of a header is zero.
-/

namespace ServiceConsumers.Rollbacks

open ObjectStore PublicSessions ConsumerState SessionOperations ResponseHandlers ProcessEvent
  TransitionRuns TransactionLog TmgiEffects PushEffects AnswerEffects EventEffects StepDecomposition
  RunInvariants SessionCopies TmgiContents Quiescence Snapshots

/-! ## What is to hold -/

/-- The session says what the snapshot says, the snapshot is as it was, and a push has nothing
to send. -/
structure RolledBack (w w' : World) (p : PublicSession Ref) (x : MbsSession) : Prop where
  current : SameValue w' x.session p
  previous : x.previousSession = some p
  previousTmgi : w'.tmgiContent p.tmgi = w.tmgiContent p.tmgi
  quiet : pushDecision w' x = .ok .unchanged

def RollsBack (w : World) (n : ℕ) (rsp : Response) (s : Ref) (p : PublicSession Ref) : Prop :=
  ∃ w' y, step w (.network (.response n rsp)) = .ok w' ∧ w'.sessionStore s = some y ∧
    RolledBack w w' p y

/-- The response refuses an update of the session. -/
structure Refuses (w : World) (n : ℕ) (rsp : Response) (x : Xact) (s : Ref) : Prop extends
    Answers w n rsp x s where
  request : ∃ id patches carried, x.request = .update (some id) patches carried ∧
    id ≠ "subscriptions"
  status : 400 ≤ rsp.status

/-! ## The conditions -/

/-- The session has not been edited, or edited back. -/
structure NothingToRollBack (w : World) (y : MbsSession) (p : PublicSession Ref) : Prop where
  undeleted : y.deleted = false
  value : SameValue w y.session p
  equal : mbsSessionPublicEqual w p y.session = .ok true

/-- The snapshot can be copied back whole, and compares equal to its copy. -/
structure Revertible (w : World) (x : MbsSession) (p : PublicSession Ref) : Prop where
  undeleted : x.deleted = false
  tmgis : TmgisInPlace w x.session p
  faithful : Faithful x.session p
  cells : ∀ area, p.mbsServiceArea = some area → ∀ n ∈ area.ncgiTais, n.ncgis = []

variable {w w' v : World} {n : ℕ} {s : Ref} {rsp : Response} {x y : MbsSession}
  {p copy : PublicSession Ref}

/-! ## The refusal -/

theorem undeleted_of_unchanged (h : pushDecision w x = .ok .unchanged) : x.deleted = false := by
  cases hdeleted : x.deleted with
  | false => rfl
  | true =>
      simp only [pushDecision, hdeleted, if_true] at h
      cases h

theorem SameValue.congr (h : w'.tmgiStore = w.tmgiStore) {src : PublicSession Ref}
    (hsame : SameValue w copy src) : SameValue w' copy src := by
  obtain ⟨⟨t, ht, ht', hsaid⟩, hencoding⟩ := hsame
  rw [← tmgiContent_congr h] at ht ht'
  exact ⟨⟨t, ht, ht', hsaid⟩, hencoding⟩

/-- The refusal is handled, and the session, the snapshot and the TMGIs are as they were. -/
theorem refusal_handled (hsound : XactsSound w) {xact : Xact} (h : Refuses w n rsp xact s)
    (hy : w.sessionStore s = some y) : ∃ w', step w (.network (.response n rsp)) = .ok w' ∧
      w'.sessionStore = w.sessionStore ∧ w'.tmgiStore = w.tmgiStore := by
  obtain ⟨id, patches, carried, hrequest, hid⟩ := h.request
  have hsent := findSent_of_findXact hsound h.outstanding
  have hfind : (w.say (.answered xact rsp)).findXact n = some xact := h.outstanding
  have hsession : contextSbiObjectToSession (w.say (.answered xact rsp)) xact.sbiObject = some s :=
    h.session
  obtain ⟨v, hv⟩ : ∃ v, processSessionResponse ((w.say (.answered xact rsp)).say (.handled n (some s)
      (contextSbiObjectToTmgi (w.say (.answered xact rsp)) xact.sbiObject))) xact (some s) rsp =
        .ok v := by
    simp only [processSessionResponse, h.parsed, hrequest, Request.component1, Request.component2,
      Request.method, hid, Bool.not_true, Bool.false_eq_true, if_false,
      nmbsmfMbsSessionPatchResponse_header]
    exact callback_isOk _ _ _ _ hy
  have hstep : ∃ w', step w (.network (.response n rsp)) = .ok w' := by
    change ∃ w', processResponse w n rsp = .ok w'
    simp only [processResponse, hsent, hfind, hsession, reduceCtorEq, false_and, if_false]
    simp only [hrequest, Request.isTmgi, Bool.false_eq_true, if_false, hv]
    exact ⟨_, rfl⟩
  obtain ⟨w', hw'⟩ := hstep
  exact ⟨w', hw', stores_of_updateAnswer h.outstanding hrequest hw'⟩

/-- A refusal rolls nothing back: the session says what the snapshot says, and a push has nothing
to send, exactly when this was so before. -/
theorem rollsBack_iff (hrun : Reachable step World.initial w) {xact : Xact}
    (hrefuses : Refuses w n rsp xact s) (hy : w.sessionStore s = some y)
    (hp : y.previousSession = some p) : RollsBack w n rsp s p ↔ NothingToRollBack w y p := by
  obtain ⟨w', hstep, hsessions, htmgis⟩ :=
    refusal_handled (sound_of_run hrun).xacts hrefuses hy
  have hy' : w'.sessionStore s = some y := by rw [hsessions, hy]
  have hpush : pushDecision w' y = pushDecision w y := pushDecision_congr htmgis y
  constructor
  · rintro ⟨v, z, hv, hz, hrolled⟩
    obtain rfl := Except.ok.inj (hstep.symm.trans hv)
    obtain rfl := Option.some.inj (hy'.symm.trans hz)
    have hunchanged : pushDecision w y = .ok .unchanged := hpush ▸ hrolled.quiet
    have hundeleted := undeleted_of_unchanged hunchanged
    exact ⟨hundeleted, SameValue.congr htmgis.symm hrolled.current,
      (pushDecision_eq_unchanged hundeleted hp).1 hunchanged⟩
  · intro h
    refine ⟨w', y, hstep, hy', SameValue.congr htmgis h.value, hp, tmgiContent_congr htmgis _, ?_⟩
    rw [hpush]
    exact (pushDecision_eq_unchanged h.undeleted hp).2 h.equal

/-- A session is created, edited and pushed again. -/
def editedRun : List Event :=
  [.session (.newIpv4 none none), .session (.edit 1 { tmgiReq := false }),
   .session (.pushChanges 1),
   .network (.response 3
     { status := 201, resStatus := 201, createLocation := .resource "a",
       createRspData := some (some {}) }),
   .session (.edit 1 { tmgiReq := false, dnn := some "internet" }), .session (.pushChanges 1)]

def editedState : World := editedRun.foldl (advance step) World.initial

/-- The application sets the session back before the answer arrives. -/
def editedBackRun : List Event := editedRun ++ [.session (.edit 1 { tmgiReq := false })]

def editedBackState : World := editedBackRun.foldl (advance step) World.initial

def refusal : Response := { status := 400 }

theorem refuses_edited : ∃ xact, Refuses editedState 4 refusal xact 1 :=
  ⟨_, ⟨rfl, rfl, rfl⟩, ⟨"a", _, _, rfl, by decide⟩, by decide⟩

theorem refuses_editedBack : ∃ xact, Refuses editedBackState 4 refusal xact 1 :=
  ⟨_, ⟨rfl, rfl, rfl⟩, ⟨"a", _, _, rfl, by decide⟩, by decide⟩

/-- The data network name that the MB-SMF refused stays in the session. -/
theorem not_rollsBack_dnn : ¬∀ w n rsp xact s y p, Reachable step World.initial w →
    Refuses w n rsp xact s → w.sessionStore s = some y → y.previousSession = some p →
    RollsBack w n rsp s p := by
  intro h
  have hrun : Reachable step World.initial editedState := Reachable.of_events _
  obtain ⟨xact, hrefuses⟩ := refuses_edited
  obtain ⟨w', z, hstep, hz, hrolled⟩ := h editedState 4 refusal xact 1
    { session := { tmgiReq := false, dnn := some "internet" }
      previousSession := some { tmgiReq := false }, id := some "a", sbiObject := some 2 }
    { tmgiReq := false } hrun hrefuses rfl rfl
  obtain ⟨v, hv, hsessions, -⟩ := refusal_handled (sound_of_run hrun).xacts hrefuses rfl
  obtain rfl := Except.ok.inj (hstep.symm.trans hv)
  obtain ⟨t, -, -, hsaid⟩ := hrolled.current.attributes
  have hnone : z.session.dnn = none := congrArg PublicSession.dnn hsaid
  have hedited : (editedState.sessionStore 1).map (fun y => y.session.dnn) =
      some (some "internet") := by decide +kernel
  rw [← hsessions, hz, Option.map_some, hnone] at hedited
  cases hedited

/-- A session that is set back in time says what was accepted last. -/
theorem rollsBack_editedBack : ∃ p, (editedBackState.sessionStore 1).bind
    MbsSession.previousSession = some p ∧ RollsBack editedBackState 4 refusal 1 p := by
  obtain ⟨xact, hrefuses⟩ := refuses_editedBack
  have hrun : Reachable step World.initial editedBackState := Reachable.of_events editedBackRun
  refine ⟨{ tmgiReq := false }, rfl, (rollsBack_iff hrun hrefuses rfl rfl).2
    ⟨rfl, ⟨⟨none, rfl, rfl, rfl⟩, fun _ => rfl⟩, rfl⟩⟩

/-! ## With the status -/

/-- What the handler leaves behind when the message has the status of the response. -/
def HandlerRollsBack (w : World) (n : ℕ) (s : Ref) (rsp : Response) (p : PublicSession Ref) :
    Prop :=
  ∃ w' x, nmbsmfMbsSessionPatchResponse w n s rsp = .ok w' ∧ w'.sessionStore s = some x ∧
    RolledBack w w' p x

/-- The session after the copy. -/
def revertedTo (x : MbsSession) (copy : PublicSession Ref) : MbsSession := { x with session := copy }

theorem keepOrRevert_refused (hx : w.sessionStore s = some x) (hp : x.previousSession = some p)
    (hstatus : 400 ≤ rsp.resStatus) : keepOrRevert w s rsp.resStatus = .ok v ↔
      ∃ u copy, mbsSessionPublicCopy w (some x.session) p = .ok (u, copy) ∧
        v = u.modifySession s fun x => revertedTo x copy := by
  have hsuccess : isSuccess rsp.resStatus = false := by
    rw [isSuccess, Bool.and_eq_false_iff]
    exact .inr (decide_eq_false (by omega))
  have hlow : ¬ rsp.resStatus < 400 := not_lt.2 hstatus
  simp only [keepOrRevert, World.sessionAt_eq_ok.2 hx, bind, Except.bind, hsuccess,
    Bool.false_eq_true, if_false, hlow, hp]
  cases hcopy : mbsSessionPublicCopy w (some x.session) p with
  | error f => simp
  | ok r =>
      obtain ⟨u, copy⟩ := r
      constructor
      · intro h
        exact ⟨u, copy, rfl, (Except.ok.inj h).symm⟩
      · rintro ⟨u', copy', heq, rfl⟩
        rw [Except.ok.injEq, Prod.mk.injEq] at heq
        obtain ⟨rfl, rfl⟩ := heq
        rfl

/-- What the handler leaves behind, apart from what it says to the application. -/
theorem patchResponse_refused (hx : w.sessionStore s = some x) (hp : x.previousSession = some p)
    (hstatus : 400 ≤ rsp.resStatus) :
    (∃ w' y, nmbsmfMbsSessionPatchResponse w n s rsp = .ok w' ∧ w'.sessionStore s = some y ∧
      RolledBack w w' p y) ↔
    ∃ u copy, mbsSessionPublicCopy w (some x.session) p = .ok (u, copy) ∧
      RolledBack w u p (revertedTo x copy) := by
  have hafter : ∀ u copy, mbsSessionPublicCopy w (some x.session) p = .ok (u, copy) →
      (u.modifySession s fun x => revertedTo x copy).sessionStore s = some (revertedTo x copy) := by
    intro u copy hcopy
    have hstore : u.sessionStore s = some x := by
      rw [(mbsSessionPublicCopy_eq_ok hcopy).1.sessionStore]
      exact hx
    simp [World.modifySession, Store.modify_self, hstore]
  have hsame : ∀ u w' (y : MbsSession), w'.tmgiStore = u.tmgiStore →
      (RolledBack w w' p y ↔ RolledBack w u p y) := by
    intro u w' y hstore
    have hvalue : SameValue w' y.session p ↔ SameValue u y.session p :=
      ⟨SameValue.congr hstore.symm, SameValue.congr hstore⟩
    have hcontent := tmgiContent_congr hstore p.tmgi
    have hpush := pushDecision_congr hstore y
    exact ⟨fun h => ⟨hvalue.1 h.current, h.previous, hcontent ▸ h.previousTmgi, hpush ▸ h.quiet⟩,
      fun h => ⟨hvalue.2 h.current, h.previous, hcontent.trans h.previousTmgi,
        hpush.trans h.quiet⟩⟩
  simp only [nmbsmfMbsSessionPatchResponse, bind_eq_ok, keepOrRevert_refused hx hp hstatus]
  constructor
  · rintro ⟨w', y, ⟨_, ⟨u, copy, hcopy, rfl⟩, hcallback⟩, hy, hrolled⟩
    obtain ⟨hsessions, htmgis⟩ := callback_keeps_stores hcallback
    rw [hsessions, hafter u copy hcopy, Option.some.injEq] at hy
    subst hy
    exact ⟨u, copy, hcopy, (hsame u w' _ htmgis).1 hrolled⟩
  · rintro ⟨u, copy, hcopy, hrolled⟩
    obtain ⟨w', hcallback⟩ := callback_isOk n .update .ogsOk none (hafter u copy hcopy)
    obtain ⟨hsessions, htmgis⟩ := callback_keeps_stores hcallback
    refine ⟨w', revertedTo x copy, ⟨_, ⟨u, copy, hcopy, rfl⟩, hcallback⟩, ?_,
      (hsame u w' _ htmgis).2 hrolled⟩
    rw [hsessions]
    exact hafter u copy hcopy

/-- With its status a refusal would take the session back to the snapshot exactly when the snapshot
can be copied back whole. -/
theorem handlerRollsBack_iff (w : World) (n : ℕ) (s : Ref) (rsp : Response) (x : MbsSession)
    (p : PublicSession Ref) (hx : w.sessionStore s = some x) (hp : x.previousSession = some p)
    (hstatus : 400 ≤ rsp.resStatus) (hkeys : EveryTable KeyedByNumber p.mbsServiceInfo) :
    HandlerRollsBack w n s rsp p ↔ Revertible w x p := by
  refine (patchResponse_refused hx hp hstatus).trans ?_
  constructor
  · rintro ⟨u, copy, hcopy, hrolled⟩
    have hundeleted : (revertedTo x copy).deleted = false := undeleted_of_unchanged hrolled.quiet
    have hprevious : (revertedTo x copy).previousSession = some p := hp
    have hequal := (pushDecision_eq_unchanged hundeleted hprevious).1 hrolled.quiet
    obtain ⟨r, hr, rfl, hstrings⟩ := mbsSessionPublicCopy_iff.1 hcopy
    obtain ⟨c, c', hc, hc', hpublic⟩ := mbsSessionPublicEqual_iff.1 hequal
    obtain ⟨hplace, heq⟩ := copyTmgi_reads hr hc' hc
    subst heq
    obtain ⟨t, -, -, hsaid⟩ := hrolled.current.attributes
    obtain ⟨-, hcells, -⟩ := (said_copiedSession_iff t).1 hsaid
    exact ⟨hundeleted, hplace, (publicEqual_copiedSession hkeys hstrings r c').2.1 hpublic, hcells⟩
  · intro h
    obtain ⟨u, r, c, hr, hc, hc'⟩ := copyTmgi_of_inPlace h.tmgis
    have hpoints : ∀ area, p.extMbsServiceArea = some area →
        ∀ g ∈ area.geographicAreas, PointsFree g := by
      intro area harea g hg
      rw [h.faithful.geographicAreas area harea] at hg
      cases hg
    have hsaid := (said_copiedSession_iff (r := r) c).2
      ⟨h.faithful.terminationTime, h.cells, hpoints⟩
    refine ⟨u, _, mbsSessionPublicCopy_iff.2 ⟨r, hr, rfl, h.faithful.strings⟩,
      ⟨⟨c, hc, hc', hsaid⟩, makeExtMbsSession_congr hsaid⟩, hp, ?_, ?_⟩
    · rw [hc', copyTmgi_source hr hc']
    · have hundeleted : (revertedTo x (copiedSession x.session p r)).deleted = false := h.undeleted
      have hprevious : (revertedTo x (copiedSession x.session p r)).previousSession = some p := hp
      refine (pushDecision_eq_unchanged hundeleted hprevious).2 (mbsSessionPublicEqual_iff.2 ?_)
      exact ⟨c, c, hc', hc,
        (publicEqual_copiedSession hkeys h.faithful.strings r c).2.2 h.faithful⟩

end ServiceConsumers.Rollbacks
