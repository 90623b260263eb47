import ServiceConsumers.PcfCreations
import ServiceConsumers.PcfNotifications

set_option autoImplicit false

/-!
# Creations that fail (`pcf_session_create_app_session`)

An app session is listed before its creation is requested. What a creation that returns `false`
leaves behind is told by the list and by what is called in the runs that follow.
-/

namespace ServiceConsumers.FailedCreates

open ObjectStore PcfEvents PcfSessions PcfHandlers PcfCreations PcfNotifications TransitionRuns

/-- An event of the machine, or a creation for whose app session there is no memory. -/
inductive Attempt where
  | event (e : Event)
  | noMemory (p : ℕ)

/-- Each creation takes a number of its own, whether or not there is memory. -/
def attemptStep (w : Context) : Attempt → Except Fault Context
  | .event e => step w e
  | .noMemory _ => .ok { w with next := w.next + 1 }

/-- `pcf_session_create_app_session` with what it returns. -/
def createReturn (w : Context) (p : ℕ) (args : CreateArgs) (allocated sent : Bool) :
    Except Fault (Context × Bool) :=
  if allocated then (pcfSessionCreateAppSession w p args sent).map fun w' => (w', sent)
  else .ok ({ w with next := w.next + 1 }, false)

/-! ## What is to hold -/

/-- The app sessions of a PCF session. -/
def appSessionsOf (w : Context) (p : ℕ) : List ℕ :=
  ((w.pcfSession p).map PcfSession.pcfAppSessions).getD []

/-- Whatever happens from here, neither the change callback of an app session is called nor one
for its events. -/
def Silent (w : Context) (s : ℕ) : Prop :=
  ∀ (calls : List Attempt) (w' : Context), calls.foldlM attemptStep w = .ok w' →
    (∀ callback appSession, .change s callback appSession ∉ w'.log) ∧
      ∀ r callback, (s, callback) ∉ (processServerEvent w' r).called

/-- A creation that fails leaves the list as it was and no callback to be called; one that does
not adds one app session. -/
structure LeavesNoTrace (w w' : Context) (p : ℕ) (rv : Bool) : Prop where
  failed : rv = false → appSessionsOf w' p = appSessionsOf w p ∧ Silent w' w.next
  made : rv = true → ∀ q, appSessionsOf w' q =
    if q = p then appSessionsOf w p ++ [w.next] else appSessionsOf w q

/-! ## Steps -/

variable {w w' : Context} {s t p : ℕ} {args : CreateArgs} {calls : List Attempt}

/-- What any step does to the app sessions that are not there. -/
structure Steps (w w' : Context) : Prop where
  sound : Sound w'
  next : w.next ≤ w'.next
  others : ∀ t < w.next, t ∉ w.registered → Keeps w w' t

theorem steps_clientNotifyCb (h : Sound w) {c : Completion}
    (hok : clientNotifyCb w s c = .ok w') : Steps w w' := by
  have hhandles := handles_clientNotifyCb h hok
  refine ⟨hhandles.sound, hhandles.next.ge, fun t _ ht => ?_⟩
  by_cases heq : t = s
  · subst heq
    have hexists : w.appSessionExists t = false := by
      rw [Context.appSessionExists, ← Bool.not_eq_true, List.contains_iff_mem]
      exact ht
    obtain rfl : w = w' := by
      unfold clientNotifyCb processClientEvent at hok
      rw [hexists] at hok
      simp only [Bool.false_eq_true, if_false, ite_self] at hok
      exact Except.ok.inj hok
    exact Keeps.refl w t
  · exact hhandles.others t heq (idOf_of_gone h ht)

theorem steps_attempt {a : Attempt} (h : Sound w) (hok : attemptStep w a = .ok w') : Steps w w' := by
  have hsame : (.ok w : Except Fault Context) = .ok w' → Steps w w' := by
    intro heq
    obtain rfl := Except.ok.inj heq
    exact ⟨h, le_refl _, fun t _ _ => Keeps.refl w t⟩
  cases a with
  | noMemory p =>
      obtain rfl := Except.ok.inj hok
      have hwf := h.wellFormed
      refine ⟨⟨⟨hwf.sessions, hwf.nodup, hwf.owner, fun q hq => ?_, fun t ht => ?_⟩, h.listed,
        fun o ho => ?_⟩, Nat.le_succ _, fun t _ _ => ⟨Iff.rfl, rfl, rfl⟩⟩
      · exact Nat.lt_succ_of_lt (hwf.freshSessions q hq)
      · exact Nat.lt_succ_of_lt (hwf.fresh t ht)
      · exact Nat.lt_succ_of_lt (h.logged o ho)
  | event e =>
      cases e with
      | sessionNew =>
          obtain rfl := Except.ok.inj hok
          obtain ⟨hsound, hkeeps⟩ := sound_pcfSessionNew h
          exact ⟨hsound, Nat.le_succ _, fun t _ _ => hkeeps t⟩
      | create p args sent =>
          obtain ⟨hsound, hkeeps, hlt, -⟩ := pcfSessionCreateAppSession_spec h hok
          exact ⟨hsound, hlt.le, fun t ht _ => hkeeps t (Nat.ne_of_lt ht)⟩
      | created s c =>
          rw [attemptStep, PcfHandlers.step] at hok
          split at hok
          · have hsound : Sound { w with posts := w.posts.erase s } :=
              ⟨⟨h.wellFormed.sessions, h.wellFormed.nodup, h.wellFormed.owner,
                h.wellFormed.freshSessions, h.wellFormed.fresh⟩, h.listed, h.logged⟩
            have hsteps := steps_clientNotifyCb hsound hok
            refine ⟨hsteps.sound, hsteps.next, fun t hlt ht => ?_⟩
            have herase : Keeps w { w with posts := w.posts.erase s } t := ⟨Iff.rfl, rfl, rfl⟩
            exact herase.trans (hsteps.others t hlt ht)
          · exact hsame hok
      | answered s c =>
          rw [attemptStep, PcfHandlers.step] at hok
          split at hok
          · exact hsame hok
          · exact steps_clientNotifyCb h hok
      | sessionFree p =>
          obtain ⟨hsound, -, hnext, hall⟩ := pcfSessionFree_spec h hok
          refine ⟨hsound, hnext.ge, fun t _ ht => ?_⟩
          exact (hall t).resolve_right fun hgone => ht hgone.1

theorem sound_init : Sound {} := consistent_init.sound

theorem sound_of_attempts (h : Sound w) (hrun : calls.foldlM attemptStep w = .ok w') : Sound w' :=
  foldlM_ok_induction (fun _ => Sound) (fun _ _ _ _ hv hok => (steps_attempt hv hok).sound)
    calls w w' h hrun

/-! ## App sessions that never were -/

/-- A number that has been taken, for an app session that is not there and of which nothing was
seen. -/
structure Unmade (w : Context) (s : ℕ) : Prop where
  sound : Sound w
  old : s < w.next
  unregistered : s ∉ w.registered
  unseen : seen w s = []

theorem Unmade.step {a : Attempt} (h : Unmade w s) (hok : attemptStep w a = .ok w') :
    Unmade w' s := by
  have hsteps := steps_attempt h.sound hok
  have hkeeps := hsteps.others s h.old h.unregistered
  refine ⟨hsteps.sound, Nat.lt_of_lt_of_le h.old hsteps.next, ?_, hkeeps.seen.trans h.unseen⟩
  rw [hkeeps.registered]
  exact h.unregistered

theorem Unmade.not_called (h : Unmade w s) (r : NotificationRequest) (callback : ℕ) :
    (s, callback) ∉ (processServerEvent w r).called := by
  intro hcalled
  by_cases hp : ∃ p ∈ w.pcfSessions, p.notifServer = some r.server
  · exact h.unregistered ((mem_called_iff hp).1 hcalled).1
  · rw [processServerEvent, if_neg hp] at hcalled
    cases hcalled

theorem Unmade.silent (h : Unmade w s) : Silent w s := by
  intro calls w' hrun
  have hlater : Unmade w' s :=
    foldlM_ok_induction (fun _ v => Unmade v s) (fun _ _ _ _ hv hok => hv.step hok) calls w w' h hrun
  refine ⟨fun callback appSession hmem => ?_, hlater.not_called⟩
  have hseen : Observation.change s callback appSession ∈ seen w' s :=
    List.mem_filter.2 ⟨hmem, decide_eq_true rfl⟩
  rw [hlater.unseen] at hseen
  cases hseen

theorem unmade_noMemory (h : Sound w) : Unmade { w with next := w.next + 1 } w.next := by
  have hok : attemptStep w (.noMemory 0) = .ok { w with next := w.next + 1 } := rfl
  refine ⟨(steps_attempt h hok).sound, Nat.lt_succ_self _, fun hmem => ?_, seen_eq_nil_of_fresh h⟩
  exact absurd (h.lt_next hmem) (Nat.lt_irrefl _)

/-! ## Creations -/

theorem pcfSession_modify {f : PcfSession → PcfSession} (hf : ∀ q, (f q).ref = q.ref) (q : ℕ) :
    (w.modifyPcfSession p f).pcfSession q =
      (w.pcfSession q).map fun session => if q = p then f session else session := by
  have hrefs : ∀ session : PcfSession,
      (if session.ref = p then f session else session).ref = session.ref := by
    intro session
    split
    · exact hf session
    · rfl
  rw [Context.pcfSession, Context.modifyPcfSession, List.find?_map]
  simp only [Function.comp_def, hrefs]
  change (w.pcfSession q).map _ = _
  cases hq : w.pcfSession q with
  | none => rfl
  | some session => rw [Option.map_some, Option.map_some, (pcfSession_eq_some hq).2]

/-- The list after the app session was made and its notification URL was asked for. -/
theorem appSessionsOf_new (hp : (w.pcfSession p).isSome = true) (args : CreateArgs) (q : ℕ) :
    appSessionsOf (pcfSessionGetNotificationsServer (pcfAppSessionNew w p args) p) q =
      if q = p then appSessionsOf w p ++ [w.next] else appSessionsOf w q := by
  obtain ⟨session, hsession⟩ := Option.isSome_iff_exists.1 hp
  have hserver : ∀ v : Context, appSessionsOf (pcfSessionGetNotificationsServer v p) q =
      appSessionsOf v q := by
    intro v
    have hmodify := pcfSession_modify (w := v) (p := p)
      (f := fun q => { q with notifServer := some (q.notifServer.getD v.next) }) (fun _ => rfl) q
    change (((v.modifyPcfSession p _).pcfSession q).map _).getD [] = _
    rw [hmodify, Option.map_map, appSessionsOf]
    congr 2
    funext session
    simp only [Function.comp_apply]
    split <;> rfl
  have hmodify := pcfSession_modify (w := w) (p := p)
    (f := fun q => { q with pcfAppSessions := q.pcfAppSessions ++ [w.next] }) (fun _ => rfl) q
  rw [hserver]
  change (((w.modifyPcfSession p _).pcfSession q).map _).getD [] = _
  rw [hmodify, appSessionsOf, appSessionsOf]
  by_cases hq : q = p
  · subst hq
    simp [hsession]
  · simp [hq]

/-- With memory a creation adds an app session, whether or not its request is sent. -/
theorem createReturn_allocated (hp : (w.pcfSession p).isSome = true) (args : CreateArgs)
    (sent : Bool) : ∃ w', createReturn w p args true sent = .ok (w', sent) ∧
      ∀ q, appSessionsOf w' q = if q = p then appSessionsOf w p ++ [w.next] else appSessionsOf w q := by
  obtain ⟨session, hsession⟩ := Option.isSome_iff_exists.1 hp
  rw [createReturn, if_pos rfl]
  simp only [pcfSessionCreateAppSession, hsession]
  refine ⟨_, rfl, fun q => ?_⟩
  rw [← appSessionsOf_new hp args q]
  cases sent <;> rfl

/-- From the start, a creation leaves no trace when it fails, and adds one app session when it does
not, exactly when its request is sent or there was no memory for the app session. -/
theorem create_leaves_no_trace_iff (calls : List Attempt)
    (hrun : calls.foldlM attemptStep {} = .ok w) (hp : (w.pcfSession p).isSome = true)
    (args : CreateArgs) (allocated sent : Bool) :
    (∃ w' rv, createReturn w p args allocated sent = .ok (w', rv) ∧ LeavesNoTrace w w' p rv) ↔
      ¬ (allocated = true ∧ sent = false) := by
  have hsound := sound_of_attempts sound_init hrun
  constructor
  · rintro ⟨w', rv, hcreate, htrace⟩ ⟨rfl, hsent⟩
    obtain ⟨w'', hcreate', hlist⟩ := createReturn_allocated hp args sent
    obtain ⟨rfl, rfl⟩ := Prod.mk.inj (Except.ok.inj (hcreate.symm.trans hcreate'))
    have hsame := (htrace.failed hsent).1
    rw [hlist p, if_pos rfl] at hsame
    exact absurd hsame (by simp)
  · intro hcond
    cases allocated with
    | true =>
        have hsent : sent = true := by
          cases sent with
          | true => rfl
          | false => exact absurd ⟨rfl, rfl⟩ hcond
        obtain ⟨w', hcreate, hlist⟩ := createReturn_allocated hp args sent
        refine ⟨w', sent, hcreate, fun hfalse => ?_, fun _ => hlist⟩
        rw [hsent] at hfalse
        cases hfalse
    | false =>
        refine ⟨{ w with next := w.next + 1 }, false, rfl, fun _ => ⟨rfl, ?_⟩, nofun⟩
        exact (unmade_noMemory hsound).silent

/-- A creation for which there is no memory leaves nothing in a context with one PCF session. -/
theorem unallocated_create_leaves_no_trace :
    ∃ w' rv, createReturn (pcfSessionNew {}) 0 { changeCallback := some 7 } false true =
      .ok (w', rv) ∧ LeavesNoTrace (pcfSessionNew {}) w' 0 rv :=
  (create_leaves_no_trace_iff [.event .sessionNew] rfl rfl _ false true).2 (by decide)

/-- The request of a creation is not sent: the app session stays in the list, and its change
callback is called when the PCF session is freed. -/
theorem unsent_create_leaves_trace :
    ¬ ∃ w' rv, createReturn (pcfSessionNew {}) 0 { changeCallback := some 7 } true false =
      .ok (w', rv) ∧ LeavesNoTrace (pcfSessionNew {}) w' 0 rv := by
  rintro ⟨w', rv, hcreate, htrace⟩
  obtain ⟨rfl, rfl⟩ := Prod.mk.inj (Except.ok.inj hcreate)
  obtain ⟨-, hsilent⟩ := htrace.failed rfl
  have hfree := (hsilent [.event (.sessionFree 0)] _ rfl).1 7 none
  exact hfree List.mem_cons_self

end ServiceConsumers.FailedCreates
