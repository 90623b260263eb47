import ServiceConsumers.RunInvariants

set_option autoImplicit false

/-!
# The lifetime of sessions

A session leaves the context when an answer to one of its delete requests is handled. The
handler looks neither at the status nor at who asked for the removal.
-/

namespace ServiceConsumers.SessionLifetime

open ObjectStore KeyedTable PublicSessions ConsumerState TmgiOperations SubscriptionOperations
  SessionOperations ResponseHandlers ProcessEvent TransitionRuns TransactionLog TmgiEffects
  SessionEffects PushEffects AnswerEffects EventEffects SubscriptionLinks StepDecomposition
  RunInvariants

/-! ## What exists at the MB-SMF -/

/-- The id that a create answer names, if it names one. -/
def createdId (rsp : Response) : Option String :=
  match rsp.createLocation with
  | .resource id => some id
  | _ => none

/-- The resources that the MB-SMF created for a session and has not removed, by the answers it
gave. -/
def liveResources (s : Ref) : List Observation → List (Option String)
  | [] => []
  | .answered x rsp :: log =>
      if isSuccess rsp.status then
        match x.request with
        | .create .. =>
            if x.requester = .session s then createdId rsp :: liveResources s log
            else liveResources s log
        | .remove (some id) => (liveResources s log).filter (· ≠ some id)
        | _ => liveResources s log
      else liveResources s log
  | _ :: log => liveResources s log

theorem liveResources_append {s : Ref} {new log : List Observation}
    (hnew : ∀ o ∈ new, NotAnswered o) : liveResources s (new ++ log) = liveResources s log := by
  induction new with
  | nil => rfl
  | cons o new ih =>
      have hrest := ih fun p hp => hnew p (List.mem_cons_of_mem o hp)
      cases o with
      | answered x rsp => exact absurd (hnew _ List.mem_cons_self) id
      | _ => exact hrest

/-! ## The law -/

def LeavesContext (w w' : World) (s : Ref) : Prop :=
  (s ∈ w.mbsSessions ∧ s ∉ w'.mbsSessions) ∨
    ((w.sessionStore s).isSome ∧ w'.sessionStore s = none)

/-- The event is the answer to an outstanding delete request, with an error status. -/
def RefusesDelete (w : World) (e : Event) : Prop :=
  ∃ n rsp x id, e = .network (.response n rsp) ∧ w.findXact n = some x ∧
    x.request = .remove id ∧ 400 ≤ rsp.status

/-- A session that leaves was deleted by the application and is gone at the MB-SMF; a refused
delete request makes no session leave. -/
structure LifetimeLaw (w : World) (e : Event) (w' : World) : Prop where
  deleted : ∀ s, LeavesContext w w' s → .deleteCalled s ∈ w.log
  gone : ∀ s, LeavesContext w w' s → liveResources s w'.log = []
  refused : RefusesDelete w e → ∀ s, ¬LeavesContext w w' s

/-- Whenever the answer to a delete request is handled for a session, the application has
deleted the session, the MB-SMF has removed the resource, and it was the only one. -/
def DeletesAgreed (w : World) (e : Event) : Prop :=
  ∀ n rsp x s id, e = .network (.response n rsp) → Answers w n rsp x s →
    x.request = .remove (some id) → id ≠ "subscriptions" →
    (∃ y, w.sessionStore s = some y ∧ y.deleted = true) ∧ isSuccess rsp.status = true ∧
      ∀ r ∈ liveResources s w.log, r = some id

variable {w w' v v' : World} {e : Event}

/-! ## Deleted sessions were deleted by the application -/

def DeletedLogged (w : World) : Prop :=
  ∀ s x, w.sessionStore s = some x → x.deleted = true → .deleteCalled s ∈ w.log

theorem DeletedLogged.of_keeps {A : Observation → Prop} (h : DeletedLogged v)
    (hk : Keeps MbsSession.deleted v v') (hl : Extends A v v') : DeletedLogged v' := by
  intro s x' hx' hd
  obtain ⟨x, hx, hdeleted⟩ := hk.back hx'
  exact hl.mem_log (h s x hx (hdeleted ▸ hd))

theorem DeletedLogged.of_part (h : DeletedLogged v) (hpart : Part w e v v') :
    DeletedLogged v' := by
  have hlog := Part.extends_any hpart
  cases hpart with
  | tmgi effect => exact h.of_keeps (Keeps.of_eq effect.sessionStore) hlog
  | newSession ssm =>
      intro s x hx hd
      by_cases hs : s = w.next
      · subst hs
        simp only [mbsSessionNew, Store.set_self, Option.some.injEq] at hx
        subst hx
        cases hd
      · simp only [mbsSessionNew, Store.set_of_ne _ _ _ hs] at hx
        exact h s x hx hd
  | writeSession live view =>
      rename_i s x x'
      have hview := congrArg MbsSession.deleted view
      exact h.of_keeps (Keeps.setSession live hview) hlog
  | markDeleted live =>
      rename_i s y
      intro q x hx hd
      by_cases hq : q = s
      · subst hq
        exact List.mem_cons_self
      · simp only [World.say, World.setSession, Store.set_of_ne _ _ _ hq] at hx
        exact List.mem_cons_of_mem _ (h q x hx hd)
  | newSubscription unused => exact h.of_keeps (Keeps.refl w) hlog
  | setSubscription event => exact h.of_keeps (Keeps.refl w) hlog
  | addSubscription event run =>
      exact h.of_keeps ((keeps_mbsSessionAddSubscription run).comp MbsSession.deleted) hlog
  | removeSubscription event run =>
      exact h.of_keeps ((keeps_mbsSessionRemoveSubscription run).comp MbsSession.deleted) hlog
  | freeSubscription event live unattached => exact h.of_keeps (Keeps.refl w) hlog
  | push call run =>
      exact h.of_keeps ((pushEffect_mbsSessionPushChanges run).keeps.comp MbsSession.deleted) hlog
  | answered event sent => exact h.of_keeps (Keeps.refl w) hlog
  | said event outstanding observation => exact h.of_keeps (Keeps.refl v) hlog
  | parse event answers request status run =>
      exact h.of_keeps ((valueEffect_nmbsmfMbsSessionParse run).keeps.comp MbsSession.deleted) hlog
  | left event answers request usable live callback run =>
      have hleave := leavingEffect_contextRemoveMbsSession run
      intro q x hx hd
      rw [hleave.sessionStore] at hx
      rw [Store.free_apply] at hx
      split at hx
      · cases hx
      · exact hlog.mem_log (h q x hx hd)

theorem deletedLogged_of_run {good : World → Event → Prop} (h : Run good w) : DeletedLogged w :=
  run_invariant DeletedLogged (fun _ _ hx => by cases hx)
    (fun _ _ _ _ _ _ _ _ _ hv hpart => hv.of_part hpart) h

/-! ## Leaving -/

theorem LeavesContext.iff_sound (hw : Sound w) (hw' : Sound w') (s : Ref) :
    LeavesContext w w' s ↔ s ∈ w.mbsSessions ∧ s ∉ w'.mbsSessions := by
  have hnone : w'.sessionStore s = none ↔ s ∉ w'.mbsSessions := by
    rw [hw'.live, Option.not_isSome_iff_eq_none]
  unfold LeavesContext
  rw [hnone, ← hw.live, or_self]

/-- A session only leaves when the answer to a delete request is handled for it. -/
theorem Parts.leaves {s : Ref} (h : Parts w e w v) (hs : s ∈ w.mbsSessions)
    (hleft : s ∉ v.mbsSessions) :
    ∃ n rsp x id, e = .network (.response n rsp) ∧ Answers w n rsp x s ∧
      x.request = .remove (some id) ∧ id ≠ "subscriptions" := by
  induction h with
  | refl => exact absurd hs hleft
  | tail hv hlast ih =>
      rename_i v v'
      by_cases hmem : s ∈ v.mbsSessions
      · rcases Part.calm hlast with hcalm | ⟨rfl, ssm, rfl⟩ | ⟨rfl, n, -, rfl⟩ | ⟨q, hleave, hanswer⟩
        · rw [hcalm.mbsSessions] at hleft
          exact absurd hmem hleft
        · exact absurd (List.mem_append_left _ hmem) hleft
        · exact absurd hmem hleft
        · have hq : s = q := by
            by_contra hne
            rw [hleave.mbsSessions] at hleft
            exact hleft ((List.mem_erase_of_ne hne).2 hmem)
          exact hq ▸ hanswer
      · exact ih hmem

/-- After the answer to a delete request the MB-SMF has what it had, less the resource. -/
theorem liveResources_of_removed {n : ℕ} {rsp : Response} {x : Xact} {s : Ref} {id : String}
    (hw : Sound w) (ha : Answers w n rsp x s) (hrequest : x.request = .remove (some id))
    (hstatus : isSuccess rsp.status = true) (h : step w (.network (.response n rsp)) = .ok w') :
    liveResources s w'.log = (liveResources s w.log).filter (· ≠ some id) := by
  have hsent := findSent_of_findXact hw.xacts ha.outstanding
  have hanswered : liveResources s (.answered x rsp :: w.log) =
      (liveResources s w.log).filter (· ≠ some id) := by
    simp only [liveResources, hstatus, if_true, hrequest]
  obtain ⟨new, hlog, hnew⟩ := log_of_response hw.xacts hsent h
  rw [hlog, liveResources_append hnew, hanswered]

/-! ## The law holds where deletes are agreed -/

theorem session_leaves_only_when_gone (hrun : Run DeletesAgreed w) (hgood : DeletesAgreed w e)
    (hstep : step w e = .ok w') : LifetimeLaw w e w' := by
  have hw := sound_of_run hrun
  have hw' := hw.of_step hstep
  have hleaves : ∀ s, LeavesContext w w' s → ∃ n rsp x id,
      e = .network (.response n rsp) ∧ Answers w n rsp x s ∧ x.request = .remove (some id) ∧
        id ≠ "subscriptions" := by
    intro s hs
    rw [LeavesContext.iff_sound hw hw'] at hs
    exact Parts.leaves (step_parts hw.xacts hstep) hs.1 hs.2
  refine ⟨?_, ?_, ?_⟩
  · intro s hs
    obtain ⟨n, rsp, x, id, he, ha, hrequest, hid⟩ := hleaves s hs
    obtain ⟨⟨y, hy, hdeleted⟩, -⟩ := hgood n rsp x s id he ha hrequest hid
    exact deletedLogged_of_run hrun s y hy hdeleted
  · intro s hs
    obtain ⟨n, rsp, x, id, rfl, ha, hrequest, hid⟩ := hleaves s hs
    obtain ⟨-, hstatus, honly⟩ := hgood n rsp x s id rfl ha hrequest hid
    rw [liveResources_of_removed hw ha hrequest hstatus hstep, List.filter_eq_nil_iff]
    intro r hr
    simp [honly r hr]
  · rintro ⟨n, rsp, x, id, rfl, hx, -, hrefused⟩ s hs
    obtain ⟨n', rsp', x', id', he, ha, hrequest, hid⟩ := hleaves s hs
    rw [Event.network.injEq, NetworkEvent.response.injEq] at he
    obtain ⟨rfl, rfl⟩ := he
    obtain ⟨-, hstatus, -⟩ := hgood n rsp x' s id' rfl ha hrequest hid
    simp only [isSuccess, Bool.and_eq_true, decide_eq_true_eq] at hstatus
    omega

/-- A session that the MB-SMF created under the id `a`, and that was then deleted and pushed. -/
def deletedRun : List Event :=
  [.session (.newIpv4 none none),
   .session (.edit 1 { tmgiReq := false }),
   .session (.pushChanges 1),
   .network (.response 3
     { status := 201, resStatus := 201, createLocation := .resource "a",
       createRspData := some (some {}) }),
   .session (.delete 1),
   .session (.pushChanges 1)]

def deletedState : World := deletedRun.foldl (advance step) World.initial

def deleteAnswer (status : ℕ) : Event :=
  .network (.response 4 { status := status, resStatus := status })

theorem deletedState_outstanding :
    deletedState.findXact 4 = some ⟨4, 2, .session 1, .remove (some "a")⟩ := rfl

/-- The MB-SMF refuses the delete request, and the session leaves all the same. -/
theorem refused_delete_removes_session : ¬∀ w e w', Reachable step World.initial w →
    step w e = .ok w' → LifetimeLaw w e w' := by
  intro h
  have hstep : step deletedState (deleteAnswer 404) =
      .ok (advance step deletedState (deleteAnswer 404)) :=
    step_eq_advance (by decide +kernel)
  have hlaw := h _ _ _ (Reachable.of_events deletedRun) hstep
  refine hlaw.refused ⟨4, _, _, some "a", rfl, deletedState_outstanding, rfl, by decide⟩ 1 ?_
  exact .inl ⟨by decide +kernel, by decide +kernel⟩

theorem deletesAgreed_of_not_response (h : ∀ n rsp, e ≠ .network (.response n rsp)) :
    DeletesAgreed w e := by
  intro n rsp x s id he
  exact absurd he (h n rsp)

theorem deletedRun_agreed : Run DeletesAgreed deletedState := by
  refine Reach.of_goodFrom _ .init ⟨?_, ?_, ?_, ?_, ?_, ?_, trivial⟩
  · exact deletesAgreed_of_not_response fun n rsp he => by cases he
  · exact deletesAgreed_of_not_response fun n rsp he => by cases he
  · exact deletesAgreed_of_not_response fun n rsp he => by cases he
  · intro n rsp x s id he ha hrequest
    rw [Event.network.injEq, NetworkEvent.response.injEq] at he
    obtain ⟨rfl, -⟩ := he
    have hcreate : ((deletedRun.take 3).foldl (advance step) World.initial |>.findXact 3).map
        (fun x => x.request.isCreate) = some true := by decide +kernel
    have hfound : ((deletedRun.take 3).foldl (advance step) World.initial).findXact 3 = some x :=
      ha.outstanding
    rw [hfound, Option.map_some, hrequest] at hcreate
    cases hcreate
  · exact deletesAgreed_of_not_response fun n rsp he => by cases he
  · exact deletesAgreed_of_not_response fun n rsp he => by cases he

/-- The session of that run leaves when the MB-SMF answers its delete request with 204. -/
theorem session_leaves_only_when_gone_accepted :
    ∃ w', step deletedState (deleteAnswer 204) = .ok w' ∧ LeavesContext deletedState w' 1 ∧
      LifetimeLaw deletedState (deleteAnswer 204) w' := by
  have hstep : step deletedState (deleteAnswer 204) =
      .ok (advance step deletedState (deleteAnswer 204)) :=
    step_eq_advance (by decide +kernel)
  refine ⟨_, hstep, .inl ⟨by decide +kernel, by decide +kernel⟩,
    session_leaves_only_when_gone deletedRun_agreed ?_ hstep⟩
  intro n rsp x s id he ha hrequest _
  rw [deleteAnswer, Event.network.injEq, NetworkEvent.response.injEq] at he
  obtain ⟨rfl, rfl⟩ := he
  have hx := ha.outstanding
  rw [deletedState_outstanding, Option.some.injEq] at hx
  subst hx
  have hs : contextSbiObjectToSession deletedState 2 = some 1 := by decide +kernel
  have hsession := ha.session
  rw [hs, Option.some.injEq] at hsession
  subst hsession
  obtain rfl : "a" = id := by simpa using hrequest
  have hdeleted : (deletedState.sessionStore 1).map MbsSession.deleted = some true := by
    decide +kernel
  obtain ⟨y, hy, hd⟩ := Option.map_eq_some_iff.1 hdeleted
  have hlive : liveResources 1 deletedState.log = [some "a"] := by decide +kernel
  refine ⟨⟨y, hy, hd⟩, by decide, ?_⟩
  intro r hr
  rw [hlive] at hr
  exact List.mem_singleton.1 hr

end ServiceConsumers.SessionLifetime
