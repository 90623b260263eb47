import ServiceConsumers.StepDecomposition

set_option autoImplicit false

/-!
# What holds in every run

The invariants that need no condition on the application or on the MB-SMF.
-/

namespace ServiceConsumers.RunInvariants

open ObjectStore KeyedTable PublicSessions ConsumerState TmgiOperations SubscriptionOperations
  SessionOperations ResponseHandlers ProcessEvent TransitionRuns TransactionLog TmgiEffects
  SessionEffects PushEffects AnswerEffects EventEffects SubscriptionLinks StepDecomposition

variable {w w' v v' : World} {e : Event}

/-! ## The log -/

/-- What adding a subscription may say. -/
def AddObservation (s u : Ref) : Observation → Prop
  | .sent x => ∃ id, x.request = .subscriptionDelete u id
  | .attached u' s' => u' = u ∧ s' = s
  | _ => False

theorem extends_forgetId {s u : Ref} (h : forgetId w u = .ok w') :
    Extends (AddObservation s u) w w' := by
  obtain ⟨n, -, ⟨-, rfl⟩ | ⟨id, q, x, table, v, -, -, -, -, hv, rfl⟩⟩ := forgetId_eq_ok h
  · exact Extends.refl _
  · have hsend : SendEffect (AddObservation s u)
        (w.setSession q { x with activeSubscriptions := some (table.erase id) }) v := by
      refine sendEffect_mbsStatusSubscriptionSend ?_ hv
      intro n o s x m r _ _ _ hr
      simp only [buildStatusSubscriptionDelete, Except.ok.injEq] at hr
      exact ⟨m.id, hr.symm⟩
    have hset : Extends (AddObservation s u) w
        (w.setSession q { x with activeSubscriptions := some (table.erase id) }) :=
      .of_silent rfl (List.Sublist.refl _) (le_refl _)
    exact (hset.trans hsend.log).trans (.of_silent rfl (List.Sublist.refl _) (le_refl _))

theorem extends_ogsListAdd {A : Observation → Prop} {s u : Ref} {name : ListName}
    (h : ogsListAdd w s name u = .ok w') : Extends A w w' := by
  obtain ⟨x, n, -, -, -, rfl⟩ := ogsListAdd_eq_ok h
  exact .of_silent rfl (List.Sublist.refl _) (le_refl _)

theorem extends_ogsListRemove {A : Observation → Prop} {s u : Ref} {name : ListName}
    (h : ogsListRemove w s name u = .ok w') : Extends A w w' := by
  obtain ⟨x, -, -, rfl⟩ := ogsListRemove_eq_ok h
  exact .of_silent rfl (List.Sublist.refl _) (le_refl _)

theorem extends_mbsSessionAddSubscription {s u : Ref}
    (h : mbsSessionAddSubscription w s u = .ok w') : Extends (AddObservation s u) w w' := by
  obtain ⟨x, n, -, -, ⟨-, rfl⟩ | ⟨-, v, v', hv, hv', rfl⟩⟩ := mbsSessionAddSubscription_eq_ok h
  · exact Extends.refl _
  · have htable : Extends (AddObservation s u) w
        (w.setSession s { x with activeSubscriptions := some x.active }) :=
      .of_silent rfl (List.Sublist.refl _) (le_refl _)
    have hlinked := (htable.trans (extends_forgetId hv)).trans (extends_ogsListAdd hv')
    have hwrite : Extends (AddObservation s u) v' (v'.modifySubscription u
        fun n => { n with session := some s, changed := true }) :=
      .of_silent rfl (List.Sublist.refl _) (le_refl _)
    exact (hlinked.trans hwrite).trans
      (Extends.say (A := AddObservation s u) (o := .attached u s) ⟨rfl, rfl⟩ rfl)

theorem extends_mbsSessionRemoveSubscription {A : Observation → Prop} {s u : Ref}
    (h : mbsSessionRemoveSubscription w s u = .ok w') : Extends A w w' := by
  obtain ⟨x, n, -, -, ⟨-, rfl⟩ | ⟨-, -, hcase⟩⟩ := mbsSessionRemoveSubscription_eq_ok h
  · exact Extends.refl _
  · rcases hcase with ⟨id, v, -, hv, rfl⟩ | ⟨-, -, v, hv, rfl⟩ | ⟨-, -, rfl⟩
    · have htable : Extends A w (w.setSession s
          { x with activeSubscriptions := x.activeSubscriptions.map fun t => t.erase id }) :=
        .of_silent rfl (List.Sublist.refl _) (le_refl _)
      exact (htable.trans (extends_ogsListAdd hv)).trans
        (.of_silent rfl (List.Sublist.refl _) (le_refl _))
    · exact (extends_ogsListRemove hv).trans (.of_silent rfl (List.Sublist.refl _) (le_refl _))
    · exact Extends.refl _

/-- What a part of a step may say, by the kind of part. -/
inductive PartSays (w : World) (e : Event) (v : World) : Observation → Prop where
  | tmgi {o : Observation} (h : TmgiObservation o) : PartSays w e v o
  | added {s u : Ref} {o : Observation} (event : e = .subscription (.add s u))
      (h : AddObservation s u o) : PartSays w e v o
  | pushed {s : Ref} {o : Observation} (call : PushCall w e v s) (h : PushObservation s o) :
      PartSays w e v o
  | deleteCalled (s : Ref) : PartSays w e v (.deleteCalled s)
  | handled (n : ℕ) (s t : Option Ref) : PartSays w e v (.handled n s t)
  | timedOut (x : Xact) : PartSays w e v (.timedOut x)
  | sessionCallback {n : ℕ} {x : Xact} (s : Ref) (cb : ResultCallback) (result : CallbackResult)
      (problem : Option ProblemDetails)
      (event : e = .network (.timeout n) ∨ ∃ rsp, e = .network (.response n rsp))
      (outstanding : w.findXact n = some x) :
      PartSays w e v (.sessionCallback n s cb result problem)
  | sessionLeft (s : Ref) : PartSays w e v (.sessionLeft s)

/-- Only the first part of a response records an answer. -/
theorem Part.log (h : Part w e v v') : Extends (PartSays w e v) v v' ∨
    ∃ n rsp x, e = .network (.response n rsp) ∧ w.findSent n = some x ∧ v = w ∧
      v' = w.say (.answered x rsp) := by
  cases h with
  | tmgi effect => exact .inl (effect.log.mono fun _ => .tmgi)
  | newSession ssm => exact .inl (.of_silent rfl (List.Sublist.refl _) (Nat.le_succ _))
  | writeSession live view => exact .inl (.of_silent rfl (List.Sublist.refl _) (le_refl _))
  | markDeleted live =>
      rename_i s x
      have hset : Extends (PartSays w e w) w (w.setSession s { x with deleted := true }) :=
        .of_silent rfl (List.Sublist.refl _) (le_refl _)
      exact .inl (hset.trans (Extends.say (.deleteCalled s) rfl))
  | newSubscription unused => exact .inl (.of_silent rfl (List.Sublist.refl _) (Nat.le_succ _))
  | setSubscription event => exact .inl (.of_silent rfl (List.Sublist.refl _) (le_refl _))
  | addSubscription event run =>
      exact .inl ((extends_mbsSessionAddSubscription run).mono fun _ => .added event)
  | removeSubscription event run => exact .inl (extends_mbsSessionRemoveSubscription run)
  | freeSubscription event live unattached =>
      exact .inl (.of_silent rfl (List.Sublist.refl _) (le_refl _))
  | push call run =>
      exact .inl ((pushEffect_mbsSessionPushChanges run).log.mono fun _ => .pushed call)
  | answered event sent => exact .inr ⟨_, _, _, event, sent, rfl, rfl⟩
  | said event outstanding observation =>
      rcases observation with ⟨s, t, rfl⟩ | rfl | ⟨s, cb, result, problem, rfl⟩
      · exact .inl (Extends.say (.handled _ s t) rfl)
      · exact .inl (Extends.say (.timedOut _) rfl)
      · exact .inl (Extends.say (.sessionCallback s cb result problem event outstanding) rfl)
  | parse event answers request status run =>
      exact .inl ((valueEffect_nmbsmfMbsSessionParse run).log.mono fun _ => .tmgi)
  | left event answers request usable live callback run =>
      refine .inl ((leavingEffect_contextRemoveMbsSession run).log.mono fun o ho => ?_)
      cases o with
      | sessionLeft q => exact .sessionLeft q
      | _ => exact .tmgi ho

theorem Part.extends_any (h : Part w e v v') : Extends (fun _ => True) v v' := by
  rcases Part.log h with hlog | ⟨n, rsp, x, -, -, rfl, rfl⟩
  · exact hlog.mono fun _ _ => trivial
  · exact Extends.say trivial rfl

/-- An observation that records no answer of the MB-SMF. -/
def NotAnswered : Observation → Prop
  | .answered .. => False
  | _ => True

theorem PartSays.notAnswered {o : Observation} (h : PartSays w e v o) : NotAnswered o := by
  cases o with
  | answered x rsp =>
      cases h with
      | tmgi h => cases h
      | added event h => cases h
      | pushed call h => cases h
  | _ => trivial

/-- A step records one answer at most, the one to the response that it processes, and it does
so first. -/
theorem Parts.answers (h : Parts w e w v) :
    (∃ new, v.log = new ++ w.log ∧ ∀ o ∈ new, NotAnswered o) ∨
    ∃ n rsp x new, e = .network (.response n rsp) ∧ w.findSent n = some x ∧
      v.log = new ++ .answered x rsp :: w.log ∧ ∀ o ∈ new, NotAnswered o := by
  induction h with
  | refl => exact .inl ⟨[], rfl, fun o ho => by cases ho⟩
  | tail _ hlast ih =>
      rcases Part.log hlast with hlog | ⟨n, rsp, x, he, hsent, rfl, rfl⟩
      · obtain ⟨⟨new', hlog', hfacts, -⟩, -⟩ := hlog
        have hquiet : ∀ o ∈ new', NotAnswered o := fun o ho => (hfacts o ho).notAnswered
        rcases ih with ⟨new, hv, hnew⟩ | ⟨n, rsp, x, new, he, hsent, hv, hnew⟩
        · refine .inl ⟨new' ++ new, by rw [hlog', hv, List.append_assoc], ?_⟩
          intro o ho
          exact (List.mem_append.1 ho).elim (hquiet o) (hnew o)
        · refine .inr ⟨n, rsp, x, new' ++ new, he, hsent,
            by rw [hlog', hv, List.append_assoc], ?_⟩
          intro o ho
          exact (List.mem_append.1 ho).elim (hquiet o) (hnew o)
      · exact .inr ⟨n, rsp, x, [], he, hsent, rfl, fun o ho => by cases ho⟩

theorem Parts.extends_any {u : World} (h : Parts w e u v) : Extends (fun _ => True) u v := by
  induction h with
  | refl => exact Extends.refl _
  | tail _ hlast ih => exact ih.trans (Part.extends_any hlast)

/-- Processing a response goes on from the state in which the answer was recorded. -/
theorem extends_processResponse {n : ℕ} {rsp : Response} {x : Xact} (hsound : XactsSound w)
    (hsent : w.findSent n = some x) (h : processResponse w n rsp = .ok w') :
    Extends (fun _ => True) (w.say (.answered x rsp)) w' := by
  rcases processResponse_cases h with ⟨hnone, -⟩ | ⟨sent, hsent', ⟨rfl, -⟩ |
    ⟨y, session, tmgi, t, held, hy, rfl, rfl, -, ht, rfl⟩⟩
  · rw [hsent] at hnone
    cases hnone
  · rw [hsent, Option.some.injEq] at hsent'
    rw [hsent']
    exact Extends.refl _
  · rw [hsent, Option.some.injEq] at hsent'
    subst hsent'
    have hid := (findXact_eq_some hy).2
    obtain rfl := eq_of_findXact hsound hy hsent
    have hhandled : Extends (fun _ => True) (w.say (.answered x rsp)) (handlingState w x rsp) :=
      Extends.say trivial rfl
    have hstate : (w.say (.answered x rsp)).say (.handled n
        (contextSbiObjectToSession w x.sbiObject)
        (contextSbiObjectToTmgi w x.sbiObject)) = handlingState w x rsp := by
      rw [handlingState, hid]
    rw [hstate] at ht
    have hfinish : Extends (fun _ => True) t (finishEvent n held t) :=
      extends_finishEvent (fun _ => trivial) n held
    refine (hhandled.trans ?_).trans hfinish
    split at ht
    · exact (tmgiEffect_processTmgiResponse ht).log.mono fun _ _ => trivial
    · rename_i hservice
      exact Parts.extends_any (parts_sessionAnswer hy rfl rfl
        (processSessionResponse_cases (by simpa using hservice) ht))

/-- A processed response records its answer, and no other. -/
theorem log_of_response {n : ℕ} {rsp : Response} {x : Xact} (hsound : XactsSound w)
    (hsent : w.findSent n = some x) (h : step w (.network (.response n rsp)) = .ok w') :
    ∃ new, w'.log = new ++ .answered x rsp :: w.log ∧ ∀ o ∈ new, NotAnswered o := by
  obtain ⟨⟨new, hlog, -⟩, -⟩ := extends_processResponse hsound hsent h
  have hlog' : w'.log = (new ++ [.answered x rsp]) ++ w.log := by
    rw [hlog, List.append_assoc]
    rfl
  rcases Parts.answers (step_parts hsound h) with ⟨new', hquiet, hnew'⟩ |
    ⟨n', rsp', x', new', he, hsent', hanswered, hnew'⟩
  · rw [hquiet, List.append_cancel_right_eq] at hlog'
    exact absurd (hnew' (.answered x rsp) (by rw [hlog']; simp)) id
  · rw [Event.network.injEq, NetworkEvent.response.injEq] at he
    obtain ⟨rfl, rfl⟩ := he
    rw [hsent, Option.some.injEq] at hsent'
    subst hsent'
    exact ⟨new', hanswered, hnew'⟩

theorem Parts.next_le (h : Parts w e w v) : w.next ≤ v.next := by
  induction h with
  | refl => exact le_refl _
  | tail _ hlast ih => exact le_trans ih (Part.extends_any hlast).next

/-! ## Objects -/

/-- No session comes or goes, and no subscription comes. -/
structure Calm (w w' : World) : Prop where
  mbsSessions : w'.mbsSessions = w.mbsSessions
  sessions : ∀ s, (w'.sessionStore s).isSome = (w.sessionStore s).isSome
  subscriptions : ∀ u, (w'.subscriptionStore u).isSome → (w.subscriptionStore u).isSome

namespace Calm

theorem refl (w : World) : Calm w w := ⟨rfl, fun _ => rfl, fun _ hu => hu⟩

theorem trans {w'' : World} (h₁ : Calm w w') (h₂ : Calm w' w'') : Calm w w'' :=
  ⟨h₂.mbsSessions.trans h₁.mbsSessions, fun s => (h₂.sessions s).trans (h₁.sessions s),
    fun u hu => h₁.subscriptions u (h₂.subscriptions u hu)⟩

theorem of_keeps {α : Type} {f : MbsSession → α} (hm : w'.mbsSessions = w.mbsSessions)
    (hk : Keeps f w w') (hu : w'.subscriptionStore = w.subscriptionStore) : Calm w w' :=
  ⟨hm, hk.isSome, fun u h => by rwa [hu] at h⟩

theorem of_stores (hm : w'.mbsSessions = w.mbsSessions) (hs : w'.sessionStore = w.sessionStore)
    (hu : w'.subscriptionStore = w.subscriptionStore) : Calm w w' :=
  of_keeps (f := id) hm (Keeps.of_eq hs) hu

theorem of_setSession {s : Ref} {x x' : MbsSession} (hx : w.sessionStore s = some x) :
    Calm w (w.setSession s x') :=
  of_keeps (f := fun _ => ()) rfl (Keeps.setSession hx rfl) rfl

theorem of_modifySession {s : Ref} {f : MbsSession → MbsSession} :
    Calm w (w.modifySession s f) :=
  of_keeps (f := fun _ => ()) rfl (Keeps.modifySession fun _ => rfl) rfl

theorem of_modifySubscription {u : Ref} {f : StatusSubscription → StatusSubscription} :
    Calm w (w.modifySubscription u f) :=
  ⟨rfl, fun _ => rfl, fun q hq => by rwa [World.modifySubscription, Store.isSome_modify] at hq⟩

theorem of_free {u : Ref} : Calm w (mbsStatusSubscriptionFree w u) :=
  ⟨rfl, fun _ => rfl, fun _ hq => Store.isSome_of_free hq⟩

end Calm

theorem calm_ogsListAdd {s u : Ref} {name : ListName} (h : ogsListAdd w s name u = .ok w') :
    Calm w w' := by
  obtain ⟨x, n, hx, -, -, rfl⟩ := ogsListAdd_eq_ok h
  exact (Calm.of_setSession hx).trans Calm.of_modifySubscription

theorem calm_ogsListRemove {s u : Ref} {name : ListName}
    (h : ogsListRemove w s name u = .ok w') : Calm w w' := by
  obtain ⟨x, hx, -, rfl⟩ := ogsListRemove_eq_ok h
  exact (Calm.of_setSession hx).trans Calm.of_modifySubscription

theorem calm_forgetId {u : Ref} (h : forgetId w u = .ok w') : Calm w w' := by
  obtain ⟨n, -, ⟨-, rfl⟩ | ⟨id, q, x, table, v, -, -, hx, -, hv, rfl⟩⟩ := forgetId_eq_ok h
  · exact Calm.refl _
  · have hsend := sendEffect_sendDelete hv
    exact ((Calm.of_setSession hx).trans (Calm.of_stores hsend.mbsSessions hsend.sessionStore
      hsend.subscriptionStore)).trans Calm.of_modifySubscription

theorem calm_mbsSessionAddSubscription {s u : Ref}
    (h : mbsSessionAddSubscription w s u = .ok w') : Calm w w' := by
  obtain ⟨x, n, hx, -, ⟨-, rfl⟩ | ⟨-, v, v', hv, hv', rfl⟩⟩ := mbsSessionAddSubscription_eq_ok h
  · exact Calm.refl _
  · have hlinked := ((Calm.of_setSession hx).trans (calm_forgetId hv)).trans (calm_ogsListAdd hv')
    exact (hlinked.trans Calm.of_modifySubscription).trans (Calm.of_stores rfl rfl rfl)

theorem calm_mbsSessionRemoveSubscription {s u : Ref}
    (h : mbsSessionRemoveSubscription w s u = .ok w') : Calm w w' := by
  obtain ⟨x, n, hx, -, ⟨-, rfl⟩ | ⟨-, -, hcase⟩⟩ := mbsSessionRemoveSubscription_eq_ok h
  · exact Calm.refl _
  · rcases hcase with ⟨id, v, -, hv, rfl⟩ | ⟨-, -, v, hv, rfl⟩ | ⟨-, -, rfl⟩
    · exact ((Calm.of_setSession hx).trans (calm_ogsListAdd hv)).trans
        Calm.of_modifySubscription
    · exact (calm_ogsListRemove hv).trans Calm.of_free
    · exact Calm.refl _

theorem calm_valueEffect {s : Ref} (h : ValueEffect s w w') : Calm w w' :=
  Calm.of_keeps h.mbsSessions h.keeps h.subscriptionStore

/-- The three parts of a step in which objects come or go, and the others. -/
theorem Part.calm (h : Part w e v v') :
    Calm v v' ∨ (v = w ∧ ∃ ssm, v' = mbsSessionNew w ssm) ∨
    (v = w ∧ ∃ n, n.node = none ∧ v' = { w with
      subscriptionStore := w.subscriptionStore.set w.next n, next := w.next + 1 }) ∨
    ∃ s, LeavingEffect s v v' ∧ ∃ n rsp x id, e = .network (.response n rsp) ∧
      Answers w n rsp x s ∧ x.request = .remove (some id) ∧ id ≠ "subscriptions" := by
  cases h with
  | tmgi effect =>
      exact .inl (Calm.of_stores effect.mbsSessions effect.sessionStore effect.subscriptionStore)
  | newSession ssm => exact .inr (.inl ⟨rfl, ssm, rfl⟩)
  | writeSession live view => exact .inl (Calm.of_setSession live)
  | markDeleted live => exact .inl ((Calm.of_setSession live).trans (Calm.of_stores rfl rfl rfl))
  | newSubscription unused => exact .inr (.inr (.inl ⟨rfl, _, unused.2.2.1, rfl⟩))
  | setSubscription event => exact .inl Calm.of_modifySubscription
  | addSubscription event run => exact .inl (calm_mbsSessionAddSubscription run)
  | removeSubscription event run => exact .inl (calm_mbsSessionRemoveSubscription run)
  | freeSubscription event live unattached => exact .inl Calm.of_free
  | push call run =>
      have heffect := pushEffect_mbsSessionPushChanges run
      exact .inl ⟨heffect.mbsSessions, heffect.keeps.isSome, heffect.subscriptions⟩
  | answered event sent => exact .inl (Calm.of_stores rfl rfl rfl)
  | said event outstanding observation => exact .inl (Calm.of_stores rfl rfl rfl)
  | parse event answers request status run =>
      exact .inl (calm_valueEffect (valueEffect_nmbsmfMbsSessionParse run))
  | left event answers request usable live callback run =>
      exact .inr (.inr (.inr ⟨_, leavingEffect_contextRemoveMbsSession run, _, _, _, _, event,
        answers, request, usable⟩))

/-! ## What the subscription calls keep -/

theorem keeps_ogsListAdd {s u : Ref} {name : ListName} (h : ogsListAdd w s name u = .ok w') :
    Keeps withoutLists w w' := by
  obtain ⟨x, n, hx, -, -, rfl⟩ := ogsListAdd_eq_ok h
  have hset : Keeps withoutLists w (w.setSession s (setList x name (listOf x name ++ [u]))) :=
    Keeps.setSession hx (by cases name <;> rfl)
  exact hset

theorem keeps_ogsListRemove {s u : Ref} {name : ListName}
    (h : ogsListRemove w s name u = .ok w') : Keeps withoutLists w w' := by
  obtain ⟨x, hx, -, rfl⟩ := ogsListRemove_eq_ok h
  have hset : Keeps withoutLists w (w.setSession s (setList x name ((listOf x name).erase u))) :=
    Keeps.setSession hx (by cases name <;> rfl)
  exact hset

theorem keeps_forgetId {u : Ref} (h : forgetId w u = .ok w') : Keeps withoutLists w w' := by
  obtain ⟨n, -, ⟨-, rfl⟩ | ⟨id, s, x, table, v, -, -, hx, -, hv, rfl⟩⟩ := forgetId_eq_ok h
  · exact Keeps.refl _
  · have hset : Keeps withoutLists w
        (w.setSession s { x with activeSubscriptions := some (table.erase id) }) :=
      Keeps.setSession hx rfl
    have hsend : Keeps withoutLists _ v := Keeps.of_eq (sendEffect_sendDelete hv).sessionStore
    exact hset.trans hsend

theorem keeps_mbsSessionAddSubscription {s u : Ref}
    (h : mbsSessionAddSubscription w s u = .ok w') : Keeps withoutLists w w' := by
  obtain ⟨x, n, hx, -, ⟨-, rfl⟩ | ⟨-, v, v', hv, hv', rfl⟩⟩ := mbsSessionAddSubscription_eq_ok h
  · exact Keeps.refl _
  · have htable : Keeps withoutLists w
        (w.setSession s { x with activeSubscriptions := some x.active }) :=
      Keeps.setSession hx rfl
    have hadd : Keeps withoutLists w v' :=
      (htable.trans (keeps_forgetId hv)).trans (keeps_ogsListAdd hv')
    exact hadd

theorem keeps_mbsSessionRemoveSubscription {s u : Ref}
    (h : mbsSessionRemoveSubscription w s u = .ok w') : Keeps withoutLists w w' := by
  obtain ⟨x, n, hx, -, ⟨-, rfl⟩ | ⟨-, -, hcase⟩⟩ := mbsSessionRemoveSubscription_eq_ok h
  · exact Keeps.refl _
  · rcases hcase with ⟨id, v, -, hv, rfl⟩ | ⟨-, -, v, hv, rfl⟩ | ⟨-, -, rfl⟩
    · have htable : Keeps withoutLists w (w.setSession s
          { x with activeSubscriptions := x.activeSubscriptions.map fun t => t.erase id }) :=
        Keeps.setSession hx rfl
      have hadd : Keeps withoutLists w v := htable.trans (keeps_ogsListAdd hv)
      exact hadd
    · have hremove : Keeps withoutLists w v := keeps_ogsListRemove hv
      exact hremove
    · exact Keeps.refl _

/-! ## The invariant -/

/-- The context lists the live sessions once, references are fresh when they are handed out,
and transactions and list nodes are in order. -/
structure Sound (w : World) : Prop where
  xacts : XactsSound w
  links : Linked w
  nodup : w.mbsSessions.Nodup
  live : ∀ s, s ∈ w.mbsSessions ↔ (w.sessionStore s).isSome
  freshSession : ∀ s, (w.sessionStore s).isSome → s < w.next
  freshSubscription : ∀ u, (w.subscriptionStore u).isSome → u < w.next

theorem Sound.initial : Sound World.initial := by
  refine ⟨XactsSound.initial, ⟨?_, ?_, ?_⟩, List.nodup_nil, ?_, ?_, ?_⟩
  · intro s x name u hx
    cases hx
  · intro s x name hx
    cases hx
  · intro u n l hn
    cases hn
  · intro s
    simp [World.initial]
  · intro s hs
    cases hs
  · intro u hu
    cases hu

theorem Sound.sessionStore_next (h : Sound w) : w.sessionStore w.next = none := by
  cases hx : w.sessionStore w.next with
  | none => rfl
  | some x =>
      exact absurd (h.freshSession w.next (by rw [hx]; rfl)) (lt_irrefl _)

theorem Sound.subscriptionStore_next (h : Sound w) : w.subscriptionStore w.next = none := by
  cases hx : w.subscriptionStore w.next with
  | none => rfl
  | some x =>
      exact absurd (h.freshSubscription w.next (by rw [hx]; rfl)) (lt_irrefl _)

theorem Part.linked (hw : Sound w) (hl : Linked v) (h : Part w e v v') : Linked v' := by
  cases h with
  | tmgi effect => exact linked_tmgiEffect hl effect
  | newSession ssm => exact linked_mbsSessionNew hl hw.sessionStore_next
  | writeSession live view =>
      have hview := congrArg pendingLists view
      exact hl.of_sameLinks (.of_keeps (Keeps.setSession live hview) rfl)
  | markDeleted live =>
      rename_i s x
      have hset : SameLinks w (w.setSession s { x with deleted := true }) :=
        .of_keeps (Keeps.setSession live rfl) rfl
      exact hl.of_sameLinks (hset.trans (.of_stores rfl rfl))
  | newSubscription unused =>
      exact linked_newSubscription hl hw.subscriptionStore_next unused.2.2.1
  | setSubscription event =>
      exact hl.of_sameLinks
        (SameLinks.of_modifySubscription (attachment_mbsStatusSubscriptionSet _))
  | addSubscription event run => exact linked_mbsSessionAddSubscription hl run
  | removeSubscription event run => exact linked_mbsSessionRemoveSubscription hl run
  | freeSubscription event live unattached =>
      refine linked_free hl ?_
      intro m hm
      rw [show m = _ from Option.some.inj (hm.symm.trans live)]
      rename_i u n
      cases hnode : n.node with
      | none => rfl
      | some l =>
          have hattached := (hl.node u n l live hnode).1
          rw [unattached.1] at hattached
          cases hattached
  | push call run => exact linked_mbsSessionPushChanges hl run
  | answered event sent => exact hl.of_sameLinks (.of_stores rfl rfl)
  | said event outstanding observation => exact hl.of_sameLinks (.of_stores rfl rfl)
  | parse event answers request status run =>
      exact linked_valueEffect hl (valueEffect_nmbsmfMbsSessionParse run)
  | left event answers request usable live callback run =>
      exact linked_leavingEffect hl (leavingEffect_contextRemoveMbsSession run)

theorem Sound.of_part (hw : Sound w) (hv : Sound v) (h : Part w e v v') : Sound v' := by
  have hlog := Part.extends_any h
  have hxacts := hv.xacts.of_extends hlog
  have hlinks := Part.linked hw hv.links h
  have hnext := hlog.next
  rcases Part.calm h with hcalm | ⟨rfl, ssm, rfl⟩ | ⟨rfl, n, -, rfl⟩ | ⟨s, hleave, -⟩
  · refine ⟨hxacts, hlinks, ?_, ?_, ?_, ?_⟩
    · rw [hcalm.mbsSessions]
      exact hv.nodup
    · intro s
      rw [hcalm.mbsSessions, hcalm.sessions s]
      exact hv.live s
    · intro s hs
      rw [hcalm.sessions s] at hs
      exact lt_of_lt_of_le (hv.freshSession s hs) hnext
    · intro u hu
      exact lt_of_lt_of_le (hv.freshSubscription u (hcalm.subscriptions u hu)) hnext
  · have hnew : v.next ∉ v.mbsSessions := by
      rw [hv.live, hv.sessionStore_next]
      exact Bool.false_ne_true
    refine ⟨hxacts, hlinks, ?_, ?_, ?_, ?_⟩
    · exact List.nodup_append.2 ⟨hv.nodup, List.nodup_singleton _, fun a ha b hb hab =>
        hnew (List.mem_singleton.1 hb ▸ hab ▸ ha)⟩
    · intro s
      by_cases hs : s = v.next
      · subst hs
        simp [mbsSessionNew]
      · simp only [mbsSessionNew, List.mem_append, List.mem_singleton, hs, or_false,
          Store.set_of_ne _ _ _ hs]
        exact hv.live s
    · intro s hs
      by_cases hsn : s = v.next
      · subst hsn
        exact Nat.lt_succ_self _
      · simp only [mbsSessionNew, Store.set_of_ne _ _ _ hsn] at hs
        exact Nat.lt_succ_of_lt (hv.freshSession s hs)
    · intro u hu
      exact Nat.lt_succ_of_lt (hv.freshSubscription u hu)
  · refine ⟨hxacts, hlinks, hv.nodup, hv.live, ?_, ?_⟩
    · intro s hs
      exact Nat.lt_succ_of_lt (hv.freshSession s hs)
    · intro u hu
      by_cases hun : u = v.next
      · subst hun
        exact Nat.lt_succ_self _
      · simp only [Store.set_of_ne _ _ _ hun] at hu
        exact Nat.lt_succ_of_lt (hv.freshSubscription u hu)
  · obtain ⟨x, -, -, hstore⟩ := hleave.record
    refine ⟨hxacts, hlinks, ?_, ?_, ?_, ?_⟩
    · rw [hleave.mbsSessions]
      exact hv.nodup.erase s
    · intro q
      rw [hleave.mbsSessions, hv.nodup.mem_erase_iff, hleave.sessionStore]
      by_cases hq : q = s
      · subst hq
        simp
      · simp only [ne_eq, hq, not_false_eq_true, true_and, Store.free_of_ne _ _ _ hq]
        exact hv.live q
    · intro q hq
      rw [hleave.sessionStore] at hq
      exact lt_of_lt_of_le (hv.freshSession q (Store.isSome_of_free hq)) hnext
    · intro u hu
      rw [hstore u] at hu
      split at hu
      · cases hu
      · exact lt_of_lt_of_le (hv.freshSubscription u hu) hnext

theorem Sound.of_parts (hw : Sound w) (h : Parts w e w v) : Sound v := by
  induction h with
  | refl => exact hw
  | tail _ hlast ih => exact Sound.of_part hw ih hlast

theorem Sound.of_step (hw : Sound w) (h : step w e = .ok w') : Sound w' :=
  hw.of_parts (step_parts hw.xacts h)

theorem sound_of_run {good : World → Event → Prop} (h : Run good w) : Sound w :=
  h.invariant Sound Sound.initial fun _ _ _ _ hs _ hstep => hs.of_step hstep

/-- A property that the parts of every step keep under the condition of the run. -/
theorem run_invariant {good : World → Event → Prop} (I : World → Prop)
    (hinit : I World.initial)
    (hpart : ∀ w e v v', Run good w → Sound w → good w e → Parts w e w v → I w → I v →
      Part w e v v' → I v')
    (h : Run good w) : I w :=
  h.invariant I hinit fun u e _ hrun hu hgood hstep =>
    step_invariant I (sound_of_run hrun).xacts
      (fun v v' hv hIv hlast => hpart u e v v' hrun (sound_of_run hrun) hgood hv hu hIv hlast)
      hu hstep

end ServiceConsumers.RunInvariants
