import ServiceConsumers.PcfCreations

set_option autoImplicit false

/-!
# The life of an app session (`npcf-process.c`, `pcf-handler.c` and `pcf-client-sess.c`)

Over a whole run, the calls of the change callback of one app session. A call without an app
session says that it is gone, or that the PCF refused a request about its events.
-/

namespace ServiceConsumers.PcfLifecycles

open ObjectStore PcfSessions PcfHandlers PcfCreations TransitionRuns

/-! ## Refused events -/

/-- The statuses that `pcf_policyauthorization_subscribe_event` does not take. -/
def SbiResponse.refused (rsp : SbiResponse) : Bool :=
  ¬ (rsp.status = 201 ∧ rsp.hasContent ∧ rsp.location ≠ none ∨ rsp.status = 200 ∧ rsp.hasContent) ∧
    rsp.status ≠ 204

/-- A refused request about events. -/
def SbiResponse.refusesEvents (rsp : SbiResponse) : Bool :=
  rsp.header.serviceName = "npcf-policyauthorization" ∧
    rsp.header.component[0]? = some "app-sessions" ∧ rsp.header.component[1]? ≠ none ∧
    rsp.header.component[2]? = some "events-subscription" ∧ SbiResponse.refused rsp

def Completion.refusesEvents (c : Completion) : Bool :=
  match c.state with
  | .ok rsp => c.queued && rsp.parsed && SbiResponse.refusesEvents rsp
  | _ => false

/-- A step processes the refusal for an app session that is registered. -/
def refuses (w : Context) (t : ℕ) : Event → Bool
  | .answered s c => s = t ∧ s ∉ w.posts ∧ s ∈ w.registered ∧ Completion.refusesEvents c
  | _ => false

def refusals (t : ℕ) : Context → List Event → ℕ
  | _, [] => 0
  | w, e :: es =>
      (if refuses w t e then 1 else 0) +
        match step w e with
        | .ok w' => refusals t w' es
        | .error _ => 0

/-! ## One step -/

def changeOf (w : Context) (t : ℕ) : Option ℕ := (w.appSessions t).bind PcfAppSession.change

/-- What a step is for one app session, and whether it is a refusal. -/
inductive Turn (w w' : Context) (t : ℕ) : Bool → Prop where
  | kept (registered : t ∈ w'.registered ↔ t ∈ w.registered) (change : changeOf w' t = changeOf w t)
      (same : seen w' t = seen w t) : Turn w w' t false
  | told (lost : Bool) (before : t ∈ w.registered) (after : t ∈ w'.registered)
      (change : changeOf w' t = changeOf w t)
      (called : seen w' t = changeCall t (changeOf w t) lost ++ seen w t) : Turn w w' t lost
  | removed (before : t ∈ w.registered) (after : t ∉ w'.registered)
      (called : seen w' t = changeCall t (changeOf w t) true ++ seen w t) : Turn w w' t false

variable {w w' : Context} {s t p : ℕ} {e : Event} {es : List Event} {b : Bool}

theorem turn_of_keeps (h : Keeps w w' t) : Turn w w' t false :=
  .kept h.registered (congrArg (Option.bind · _) h.stored) h.seen

/-- A context that shows the same of the app session may come before. -/
theorem Turn.after {v : Context} (registered : t ∈ w.registered ↔ t ∈ v.registered)
    (change : changeOf w t = changeOf v t) (same : seen w t = seen v t) (h : Turn w w' t b) :
    Turn v w' t b := by
  cases h with
  | kept hregistered hchange hsame =>
      exact .kept (hregistered.trans registered) (hchange.trans change) (hsame.trans same)
  | told _ before after hchange called =>
      rw [change, same] at called
      exact .told b (registered.1 before) after (hchange.trans change) called
  | removed before after called =>
      rw [change, same] at called
      exact .removed (registered.1 before) after called

theorem turn_changeCallbackCall (hs : s ∈ w.registered) (b : Bool) :
    Turn w (w.changeCallbackCall s b) t (b && s = t) := by
  by_cases heq : s = t
  · subst heq
    have hseen := seen_changeCallbackCall (w := w) s b
    rw [changeCallbackCall_eq] at hseen ⊢
    rw [decide_eq_true rfl, Bool.and_true]
    exact .told b hs hs rfl hseen
  · rw [decide_eq_false heq, Bool.and_false]
    exact turn_of_keeps (keeps_changeCallbackCall b (Ne.symm heq))

theorem turn_pcfAppSessRemove (h : Sound w) (hs : s ∈ w.registered)
    (hok : pcfAppSessRemove w s = .ok w') : Turn w w' t false := by
  obtain ⟨v, hout, hremoves⟩ := pcfAppSessRemove_spec h hs
  obtain rfl := Except.ok.inj (hout.symm.trans hok)
  by_cases heq : t = s
  · subst heq
    exact .removed hs hremoves.gone hremoves.seen
  · exact turn_of_keeps (hremoves.others t heq)

/-- Writes that leave the callbacks. -/
theorem changeOf_modifyAppSession {f : PcfAppSession → PcfAppSession}
    (hf : ∀ sess, (f sess).change = sess.change) :
    changeOf (modifyAppSession w s f) t = changeOf w t := by
  change (w.appSessions.modify s f t).bind _ = (w.appSessions t).bind _
  rw [Store.modify_apply]
  split
  · cases w.appSessions t with
    | none => rfl
    | some sess => exact hf sess
  · rfl

theorem turn_pcfPolicyauthorizationCreate (hs : s ∈ w.registered) (rsp : SbiResponse) :
    Turn w (pcfPolicyauthorizationCreate w s rsp) t false := by
  have hstore : ∀ context, Turn w
      (modifyAppSession w s fun sess => { sess with contextReceived := some context }) t false :=
    fun context => .kept Iff.rfl (changeOf_modifyAppSession fun sess => rfl) rfl
  unfold pcfPolicyauthorizationCreate
  split
  · exact turn_of_keeps (Keeps.refl w t)
  · exact turn_of_keeps (Keeps.refl w t)
  · split
    · rename_i id context _ _
      dsimp only
      split
      · exact hstore context
      · exact hstore context
      · refine Turn.after ?_ ?_ ?_ (turn_changeCallbackCall (s := s) ?_ false)
        · exact Iff.rfl
        · rw [changeOf_modifyAppSession, changeOf_modifyAppSession]
          · exact fun sess => rfl
          · exact fun sess => rfl
        · rfl
        · exact hs
    · exact turn_of_keeps (Keeps.refl w t)

theorem turn_pcfPolicyauthorizationDelete (h : Sound w)
    (hok : pcfPolicyauthorizationDelete w s = .ok w') : Turn w w' t false := by
  obtain ⟨found, hfind, hout⟩ := bind_eq_ok.1 hok
  cases found with
  | none =>
      obtain rfl := Except.ok.inj hout
      exact turn_of_keeps (Keeps.refl w t)
  | some u =>
      unfold pcfClientContextActiveSessionsExists at hfind
      split at hfind
      · cases hfind
      · split at hfind
        · cases hfind
        · rename_i session hsession
          -- the app session that is found may be another one with the same id
          obtain ⟨hmem, -⟩ := findById_eq_some hfind
          exact turn_pcfAppSessRemove h
            (mem_registered.2 ⟨session, (pcfSession_eq_some hsession).1, hmem⟩) hout

theorem turn_pcfPolicyauthorizationSubscribeEvent (hs : s ∈ w.registered) (rsp : SbiResponse) :
    Turn w (pcfPolicyauthorizationSubscribeEvent w s rsp) t
      (SbiResponse.refused rsp && s = t) := by
  unfold pcfPolicyauthorizationSubscribeEvent
  split
  · rename_i hstatus
    have hrefused : SbiResponse.refused rsp = false := by simp [SbiResponse.refused, hstatus]
    rw [hrefused]
    exact turn_changeCallbackCall hs false
  · rename_i hstatus
    split
    · rename_i hempty
      have hrefused : SbiResponse.refused rsp = false := by simp [SbiResponse.refused, hempty]
      rw [hrefused]
      exact turn_changeCallbackCall hs false
    · rename_i hcontent
      have hrefused : SbiResponse.refused rsp = true := decide_eq_true ⟨hstatus, hcontent⟩
      rw [hrefused]
      exact turn_changeCallbackCall hs true

theorem turn_processResponse (h : Sound w) (hs : s ∈ w.registered) {rsp : SbiResponse}
    (hok : processResponse w s rsp = .ok w') :
    Turn w w' t (SbiResponse.refusesEvents rsp && s = t) := by
  have hother : SbiResponse.refusesEvents rsp = false → Turn w w' t false →
      Turn w w' t (SbiResponse.refusesEvents rsp && s = t) := by
    intro heq hturn
    rw [heq]
    exact hturn
  have hsame : (.ok w : Except Fault Context) = .ok w' → Turn w w' t false := by
    intro heq
    obtain rfl := Except.ok.inj heq
    exact turn_of_keeps (Keeps.refl w t)
  unfold processResponse at hok
  split at hok
  · rename_i hservice
    exact hother (by simp [SbiResponse.refusesEvents, hservice]) (hsame hok)
  · rename_i hservice
    split at hok
    · rename_i hcomponent
      exact hother (by simp [SbiResponse.refusesEvents, hcomponent]) (hsame hok)
    · rename_i hcomponent
      split at hok
      · rename_i hnone
        refine hother (by simp [SbiResponse.refusesEvents, hnone]) ?_
        split at hok
        · exact hsame hok
        · split at hok
          · obtain rfl := Except.ok.inj hok
            exact turn_pcfPolicyauthorizationCreate hs rsp
          · exact turn_pcfAppSessRemove h hs hok
      · rename_i hid
        split at hok
        · rename_i hevents
          obtain rfl := Except.ok.inj hok
          have hrefused : SbiResponse.refusesEvents rsp = SbiResponse.refused rsp := by
            simp [SbiResponse.refusesEvents, not_not.1 hservice, not_not.1 hcomponent, hid, hevents]
          rw [hrefused]
          exact turn_pcfPolicyauthorizationSubscribeEvent hs rsp
        · rename_i hdelete
          exact hother (by simp [SbiResponse.refusesEvents, hdelete])
            (turn_pcfPolicyauthorizationDelete h hok)
        · rename_i component hevents hdelete hcomp
          have hne : component ≠ "events-subscription" := fun heq => hevents heq
          exact hother (by simp [SbiResponse.refusesEvents, hcomp, hne]) (hsame hok)
        · rename_i hnone
          refine hother (by simp [SbiResponse.refusesEvents, hnone]) ?_
          split at hok
          · obtain rfl := Except.ok.inj hok
            unfold pcfPolicyauthorizationUpdate
            split
            · exact turn_changeCallbackCall hs false
            · exact turn_of_keeps (Keeps.refl w t)
          · exact hsame hok

theorem turn_clientNotifyCb (h : Sound w) {c : Completion} (hok : clientNotifyCb w s c = .ok w') :
    Turn w w' t (s ∈ w.registered && (Completion.refusesEvents c && s = t)) := by
  have hsame : (.ok w : Except Fault Context) = .ok w' → Turn w w' t false := by
    intro heq
    obtain rfl := Except.ok.inj heq
    exact turn_of_keeps (Keeps.refl w t)
  have hother : Completion.refusesEvents c = false → Turn w w' t false →
      Turn w w' t (s ∈ w.registered && (Completion.refusesEvents c && s = t)) := by
    intro heq hturn
    rw [heq, Bool.false_and, Bool.and_false]
    exact hturn
  unfold clientNotifyCb at hok
  split at hok
  · rename_i hqueued
    unfold processClientEvent at hok
    split at hok
    · rename_i hexists
      have hs : s ∈ w.registered := List.contains_iff_mem.1 hexists
      split at hok
      · rename_i rsp hstate
        split at hok
        · rename_i hparsed
          have hrefuses : Completion.refusesEvents c = SbiResponse.refusesEvents rsp := by
            simp [Completion.refusesEvents, hstate, hqueued, hparsed]
          rw [hrefuses, decide_eq_true hs, Bool.true_and]
          exact turn_processResponse h hs hok
        · rename_i hparsed
          exact hother (by simp [Completion.refusesEvents, hstate, hparsed]) (hsame hok)
      · rename_i hstate
        exact hother (by simp [Completion.refusesEvents, hstate]) (turn_pcfAppSessRemove h hs hok)
      · rename_i hstate
        exact hother (by simp [Completion.refusesEvents, hstate]) (turn_pcfAppSessRemove h hs hok)
      · rename_i hstate
        exact hother (by simp [Completion.refusesEvents, hstate]) (hsame hok)
    · rename_i hexists
      have hs : s ∉ w.registered := fun hin => hexists (List.contains_iff_mem.2 hin)
      rw [decide_eq_false hs, Bool.false_and]
      exact hsame hok
  · rename_i hqueued
    refine hother ?_ (hsame hok)
    rw [Bool.not_eq_true] at hqueued
    unfold Completion.refusesEvents
    cases c.state with
    | ok rsp =>
        rw [hqueued]
        rfl
    | done => rfl
    | timeup => rfl
    | other => rfl

/-- What one step is for an app session that was made. -/
theorem turn_step (h : Consistent w) (hok : step w e = .ok w') (ht : t < w.next) :
    Turn w w' t (refuses w t e) := by
  cases e with
  | sessionNew =>
      obtain rfl := Except.ok.inj hok
      exact turn_of_keeps ((sound_pcfSessionNew h.sound).2 t)
  | create p args sent =>
      obtain ⟨-, hkeeps, -⟩ := pcfSessionCreateAppSession_spec h.sound hok
      exact turn_of_keeps (hkeeps t (Nat.ne_of_lt ht))
  | created s c =>
      rw [step] at hok
      split at hok
      · have hturn := turn_clientNotifyCb (t := t) (h.withoutPost s).sound hok
        have hrefuses : Completion.refusesEvents { c with state := c.state.ofCreation } = false := by
          unfold Completion.refusesEvents SbiState.ofCreation
          cases c.state with
          | ok rsp => simp [SbiResponse.refusesEvents, createHeader]
          | done => rfl
          | timeup => rfl
          | other => rfl
        rw [hrefuses, Bool.false_and, Bool.and_false] at hturn
        exact Turn.after (w := { w with posts := w.posts.erase s }) Iff.rfl rfl rfl hturn
      · obtain rfl := Except.ok.inj hok
        exact turn_of_keeps (Keeps.refl w t)
  | answered s c =>
      rw [step] at hok
      split at hok
      · rename_i hs
        obtain rfl := Except.ok.inj hok
        have hrefuses : refuses w t (.answered s c) = false := by simp [refuses, hs]
        rw [hrefuses]
        exact turn_of_keeps (Keeps.refl w t)
      · rename_i hs
        have hrefuses : refuses w t (.answered s c) =
            (decide (s ∈ w.registered) && (Completion.refusesEvents c && decide (s = t))) := by
          rw [Bool.eq_iff_iff]
          simp [refuses, hs, and_comm, and_assoc]
        rw [hrefuses]
        exact turn_clientNotifyCb h.sound hok
  | sessionFree p =>
      obtain ⟨-, -, -, hall⟩ := pcfSessionFree_spec h.sound hok
      rcases hall t with hkept | ⟨hin, hgone, hseen⟩
      · exact turn_of_keeps hkept
      · exact .removed hin hgone hseen

/-! ## Runs -/

/-- A call that says that the app session is gone or its events were refused. -/
def Observation.isLost : Observation → Bool
  | .change _ _ none => true
  | _ => false

/-- What was seen of an app session that was made with a change callback: calls of that callback
alone, as many of them without the app session as there were refusals and, once it is no longer
registered, one more, which is the last. -/
structure Lifeline (w : Context) (t : ℕ) (change : Option ℕ) (refused : ℕ) : Prop where
  made : t < w.next
  calls : ∀ o ∈ seen w t, o = .created t change ∨
    ∃ callback, change = some callback ∧ (o = .change t callback none ∨ o = .change t callback (some t))
  lost : (seen w t).countP Observation.isLost =
    if change.isSome then refused + (if t ∈ w.registered then 0 else 1) else 0
  current : t ∈ w.registered → changeOf w t = change
  ended : t ∉ w.registered → ∀ callback, change = some callback →
    (seen w t).head? = some (.change t callback none)

variable {change : Option ℕ} {n : ℕ}

theorem countP_changeCall : (changeCall t change b).countP Observation.isLost =
    if change.isSome ∧ b = true then 1 else 0 := by
  cases change with
  | none => rfl
  | some callback => cases b <;> rfl

theorem mem_changeCall {o : Observation} (ho : o ∈ changeCall t change b) :
    ∃ callback, change = some callback ∧
      (o = .change t callback none ∨ o = .change t callback (some t)) := by
  cases change with
  | none => cases ho
  | some callback =>
      refine ⟨callback, rfl, ?_⟩
      rw [List.mem_singleton.1 ho]
      cases b with
      | false => exact .inr rfl
      | true => exact .inl rfl

theorem Lifeline.turn (h : Lifeline w t change n) (hmade : t < w'.next) (hturn : Turn w w' t b) :
    Lifeline w' t change (n + if b then 1 else 0) := by
  cases hturn with
  | kept registered hchange same =>
      refine ⟨hmade, ?_, ?_, ?_, ?_⟩
      · rw [same]
        exact h.calls
      · rw [same, h.lost]
        simp only [registered, Bool.false_eq_true, if_false, Nat.add_zero]
      · intro hin
        rw [hchange, h.current (registered.1 hin)]
      · intro hgone
        rw [same]
        exact h.ended fun hin => hgone (registered.2 hin)
  | told _ before after hchange called =>
      rw [h.current before] at called hchange
      refine ⟨hmade, ?_, ?_, fun _ => hchange, fun hgone => absurd after hgone⟩
      · rw [called]
        intro o ho
        rcases List.mem_append.1 ho with hnew | hold
        · exact .inr (mem_changeCall hnew)
        · exact h.calls o hold
      · rw [called, List.countP_append, countP_changeCall, h.lost, if_pos before, if_pos after]
        cases change with
        | none => rfl
        | some callback => cases b <;> simp [Nat.add_comm]
  | removed before after called =>
      rw [h.current before] at called
      refine ⟨hmade, ?_, ?_, fun hin => absurd hin after, fun _ callback hcallback => ?_⟩
      · rw [called]
        intro o ho
        rcases List.mem_append.1 ho with hnew | hold
        · exact .inr (mem_changeCall hnew)
        · exact h.calls o hold
      · rw [called, List.countP_append, countP_changeCall, h.lost, if_pos before, if_neg after]
        cases change with
        | none => rfl
        | some callback => simp [Nat.add_comm]
      · rw [called, hcallback]
        rfl

theorem next_le_step (h : Consistent w) (hok : step w e = .ok w') : w.next ≤ w'.next := by
  cases e with
  | sessionNew =>
      obtain rfl := Except.ok.inj hok
      exact Nat.le_succ w.next
  | create p args sent =>
      obtain ⟨-, -, hlt, -⟩ := pcfSessionCreateAppSession_spec h.sound hok
      exact Nat.le_of_lt hlt
  | created s c =>
      rw [step] at hok
      split at hok
      · exact Nat.le_of_eq (handles_clientNotifyCb (h.withoutPost s).sound hok).next.symm
      · obtain rfl := Except.ok.inj hok
        exact Nat.le_refl _
  | answered s c =>
      rw [step] at hok
      split at hok
      · obtain rfl := Except.ok.inj hok
        exact Nat.le_refl _
      · exact Nat.le_of_eq (handles_clientNotifyCb h.sound hok).next.symm
  | sessionFree p =>
      obtain ⟨-, -, hnext, -⟩ := pcfSessionFree_spec h.sound hok
      exact Nat.le_of_eq hnext.symm

theorem Lifeline.run (h : Lifeline w t change n) (hw : Consistent w)
    (hrun : es.foldlM step w = .ok w') : Lifeline w' t change (n + refusals t w es) := by
  induction es generalizing w n with
  | nil =>
      obtain rfl := Except.ok.inj hrun
      exact h
  | cons e es ih =>
      rw [List.foldlM_cons] at hrun
      obtain ⟨v, hstep, hrest⟩ := bind_eq_ok.1 hrun
      have hmade := Nat.lt_of_lt_of_le h.made (next_le_step hw hstep)
      have hline := ih (h.turn hmade (turn_step hw hstep h.made)) (hw.step hstep) hrest
      rw [refusals, hstep, ← Nat.add_assoc]
      exact hline

/-- An app session that is gone stays so, and nothing more is seen of it. -/
theorem gone_run (hw : Consistent w) (hmade : t < w.next) (hgone : t ∉ w.registered)
    (hrun : es.foldlM step w = .ok w') : t ∉ w'.registered ∧ seen w' t = seen w t := by
  induction es generalizing w with
  | nil =>
      obtain rfl := Except.ok.inj hrun
      exact ⟨hgone, rfl⟩
  | cons e es ih =>
      rw [List.foldlM_cons] at hrun
      obtain ⟨v, hstep, hrest⟩ := bind_eq_ok.1 hrun
      have hturn := turn_step hw hstep hmade
      generalize refuses w t e = refused at hturn
      cases hturn with
      | kept registered _ same =>
          obtain ⟨hout, hseen⟩ := ih (hw.step hstep)
            (Nat.lt_of_lt_of_le hmade (next_le_step hw hstep)) (fun hin => hgone (registered.1 hin)) hrest
          exact ⟨hout, hseen.trans same⟩
      | told _ before => exact absurd before hgone
      | removed before => exact absurd before hgone

theorem lifeline_create {args : CreateArgs} {sent : Bool} (h : Consistent w)
    (hok : pcfSessionCreateAppSession w p args sent = .ok w') :
    Lifeline w' w.next args.changeCallback 0 := by
  obtain ⟨hsound, -, hlt, hstored, -, hseen⟩ := pcfSessionCreateAppSession_spec h.sound hok
  have hin : w.next ∈ w'.registered := hsound.listed w.next (by rw [hstored]; rfl)
  refine ⟨hlt, ?_, ?_, fun _ => ?_, fun hgone => absurd hin hgone⟩
  · rw [hseen]
    intro o ho
    cases sent with
    | false => cases ho
    | true => exact .inl (List.mem_singleton.1 ho)
  · rw [hseen, if_pos hin]
    cases sent <;> simp [Observation.isLost]
  · rw [changeOf, hstored]
    rfl

theorem consistent_run (hw : Consistent w) (hrun : es.foldlM step w = .ok w') : Consistent w' :=
  foldlM_ok_induction (fun _ => Consistent) (fun _ _ _ _ hv => hv.step) es w w' hw hrun

/-- In every run, the app session that a creation makes has the lifeline of its change callback,
and nothing is seen of it after its end. -/
theorem change_calls_over_life {before after rest : List Event} {args : CreateArgs} {sent : Bool}
    {v : Context} (hbefore : before.foldlM step {} = .ok v)
    (hafter : (.create p args sent :: after).foldlM step v = .ok w)
    (hrest : rest.foldlM step w = .ok w') :
    Lifeline w v.next args.changeCallback (refusals v.next v (.create p args sent :: after)) ∧
      (v.next ∉ w.registered → v.next ∉ w'.registered ∧ seen w' v.next = seen w v.next) := by
  have hv := consistent_run consistent_init hbefore
  have hw := consistent_run hv hafter
  rw [List.foldlM_cons] at hafter
  obtain ⟨u, hcreate, hlife⟩ := bind_eq_ok.1 hafter
  have hline := (lifeline_create hv hcreate).run (hv.step hcreate) hlife
  have hrefusals : refusals v.next v (.create p args sent :: after) = 0 + refusals v.next u after := by
    rw [refusals, hcreate]
    rfl
  rw [hrefusals]
  exact ⟨hline, fun hgone => gone_run hw hline.made hgone hrest⟩

def accepted : Completion :=
  { state := .ok {
      header := createHeader
      status := 201
      location := some (.parsed ["app-sessions", "a"])
      appSessionContext := some { ascReqData := some (some 0) } } }

/-- The end of a request for the app session with the id `a`. -/
def answer (resource : String) (status : ℕ) : Completion :=
  { state := .ok {
      header := { createHeader with component := ["app-sessions", "a", resource] },
      status := status } }

/-- The events of an app session are refused, and then it is deleted. -/
theorem refused_session_is_told_twice : ∃ w, [.create 0 { changeCallback := some 7 } true,
      .created 1 accepted, .answered 1 (answer "events-subscription" 403),
      .answered 1 (answer "delete" 204)].foldlM step (pcfSessionNew {}) = .ok w ∧
    (seen w 1).countP Observation.isLost = 2 ∧ seen (pcfSessionNew w) 1 = seen w 1 := by
  obtain ⟨w, hrun, hempty⟩ := exists_of_observed
    (x := [.create 0 { changeCallback := some 7 } true, .created 1 accepted,
      .answered 1 (answer "events-subscription" 403),
      .answered 1 (answer "delete" 204)].foldlM step (pcfSessionNew {}))
    (f := Context.registered) (v := []) (by decide +kernel)
  have hgone : 1 ∉ w.registered := by
    rw [hempty]
    exact List.not_mem_nil
  have hrefusals : refusals 1 (pcfSessionNew {}) [.create 0 { changeCallback := some 7 } true,
      .created 1 accepted, .answered 1 (answer "events-subscription" 403),
      .answered 1 (answer "delete" 204)] = 1 := by decide +kernel
  have hbefore : [.sessionNew].foldlM step {} = .ok (pcfSessionNew {}) := rfl
  have hrest : [.sessionNew].foldlM step w = .ok (pcfSessionNew w) := rfl
  obtain ⟨hline, hend⟩ := change_calls_over_life hbefore hrun hrest
  refine ⟨w, hrun, ?_, (hend hgone).2⟩
  have hlost := hline.lost
  rw [show (pcfSessionNew {}).next = 1 from rfl, hrefusals, if_neg hgone] at hlost
  exact hlost

end ServiceConsumers.PcfLifecycles
