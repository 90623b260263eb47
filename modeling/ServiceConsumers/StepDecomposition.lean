import Mathlib.Logic.Relation
import ServiceConsumers.SubscriptionLinks

set_option autoImplicit false

/-!
# What a step is made of

Every step of the machine is a chain of parts, each of which is one operation in one place.
An invariant of the parts is an invariant of the steps.
-/

namespace ServiceConsumers.StepDecomposition

open ObjectStore KeyedTable PublicSessions ConsumerState TmgiOperations SubscriptionOperations
  SessionOperations ResponseHandlers ProcessEvent TransitionRuns TransactionLog TmgiEffects
  SessionEffects PushEffects AnswerEffects EventEffects SubscriptionLinks

/-! ## Places -/

/-- The state in which the handler of a response starts. -/
def handlingState (w : World) (x : Xact) (rsp : Response) : World :=
  (w.say (.answered x rsp)).say (.handled x.id (contextSbiObjectToSession w x.sbiObject)
    (contextSbiObjectToTmgi w x.sbiObject))

/-- The response finds its transaction outstanding, is understood as far as its header goes,
and the search finds the session `s`. -/
structure Answers (w : World) (n : ℕ) (rsp : Response) (x : Xact) (s : Ref) : Prop where
  outstanding : w.findXact n = some x
  session : contextSbiObjectToSession w x.sbiObject = some s
  parsed : rsp.parsed = true

/-- The event calls `_mbs_session_push_changes` on `s` in the state `v`. -/
inductive PushCall (w : World) : Event → World → Ref → Prop where
  | direct (s : Ref) : PushCall w (.session (.pushChanges s)) w s
  | all {before after : List Ref} {s : Ref} {v : World}
      (split : w.mbsSessions = before ++ s :: after)
      (run : before.foldlM mbsSessionPushChanges w = .ok v) :
      PushCall w (.session .pushAllChanges) v s
  | created {n : ℕ} {rsp : Response} {x : Xact} {s : Ref} {v v' : World}
      (answers : Answers w n rsp x s) (request : x.request.isCreate = true)
      (status : isSuccess rsp.status = true)
      (parse : nmbsmfMbsSessionParse (handlingState w x rsp) s rsp = .ok (v, true))
      (callback : mbsSessionDoCallback v x.id s .create .ogsOk none = .ok v') :
      PushCall w (.network (.response n rsp)) v' s

/-- What the application writes into a session by itself. -/
def withoutApplication (x : MbsSession) : MbsSession :=
  { x with
    session := {}
    previousSession := none
    createResultCb := none
    updateResultCb := none
    deleteResultCb := none
    sbiObject := none }

/-- One part of the step that `e` makes in `w`, from `v` to `v'`. -/
inductive Part (w : World) (e : Event) : World → World → Prop where
  | tmgi {v v' : World} (effect : TmgiEffect v v') : Part w e v v'
  | newSession (ssm : Option SsmAddr) : Part w e w (mbsSessionNew w ssm)
  | writeSession {v : World} {s : Ref} {x x' : MbsSession} (live : v.sessionStore s = some x)
      (view : withoutApplication x' = withoutApplication x) : Part w e v (v.setSession s x')
  | markDeleted {s : Ref} {x : MbsSession} (live : w.sessionStore s = some x) :
      Part w e w ((w.setSession s { x with deleted := true }).say (.deleteCalled s))
  | newSubscription {n : StatusSubscription}
      (unused : n.id = none ∧ n.session = none ∧ n.node = none ∧ n.changed = false) :
      Part w e w { w with
        subscriptionStore := w.subscriptionStore.set w.next n, next := w.next + 1 }
  | setSubscription {u : Ref} {setting : SubscriptionSetting}
      (event : e = .subscription (.set u setting)) :
      Part w e w (w.modifySubscription u (mbsStatusSubscriptionSet setting))
  | addSubscription {s u : Ref} {v' : World} (event : e = .subscription (.add s u))
      (run : mbsSessionAddSubscription w s u = .ok v') : Part w e w v'
  | removeSubscription {s u : Ref} {v' : World}
      (event : e = .subscription (.remove s u) ∨ e = .subscription (.delete u))
      (run : mbsSessionRemoveSubscription w s u = .ok v') : Part w e w v'
  | freeSubscription {u : Ref} {n : StatusSubscription}
      (event : e = .subscription (.delete u)) (live : w.subscriptionStore u = some n)
      (unattached : n.session = none ∧ n.id = none) : Part w e w (mbsStatusSubscriptionFree w u)
  | push {v v' : World} {s : Ref} (call : PushCall w e v s)
      (run : mbsSessionPushChanges v s = .ok v') : Part w e v v'
  | answered {n : ℕ} {rsp : Response} {x : Xact} (event : e = .network (.response n rsp))
      (sent : w.findSent n = some x) : Part w e w (w.say (.answered x rsp))
  | said {v : World} {n : ℕ} {x : Xact} {o : Observation}
      (event : e = .network (.timeout n) ∨ ∃ rsp, e = .network (.response n rsp))
      (outstanding : w.findXact n = some x)
      (observation : (∃ s t, o = .handled n s t) ∨ o = .timedOut x ∨
        ∃ s cb result problem, o = .sessionCallback n s cb result problem) :
      Part w e v (v.say o)
  | parse {n : ℕ} {rsp : Response} {x : Xact} {s : Ref} {v' : World} {understood : Bool}
      (event : e = .network (.response n rsp)) (answers : Answers w n rsp x s)
      (request : x.request.isCreate = true) (status : isSuccess rsp.status = true)
      (run : nmbsmfMbsSessionParse (handlingState w x rsp) s rsp = .ok (v', understood)) :
      Part w e (handlingState w x rsp) v'
  | left {n : ℕ} {rsp : Response} {x : Xact} {s : Ref} {id : String} {y : MbsSession}
      {v v' : World} (event : e = .network (.response n rsp)) (answers : Answers w n rsp x s)
      (request : x.request = .remove (some id)) (usable : id ≠ "subscriptions")
      (live : w.sessionStore s = some y)
      (callback : mbsSessionDoCallback ((handlingState w x rsp).refCountSbiObjectRef y.sbiObject)
        x.id s .delete .ogsDone none = .ok v)
      (run : contextRemoveMbsSession v s = .ok v') : Part w e v v'

/-! ## The decomposition -/

section Decomposition

open Relation

variable {w w' : World} {e : Event}

abbrev Parts (w : World) (e : Event) : World → World → Prop := ReflTransGen (Part w e)

theorem Parts.tmgi {v v' : World} (h : TmgiEffect v v') : Parts w e v v' :=
  .single (.tmgi h)

theorem parts_subscriptionStep {call : SubscriptionCall}
    (h : subscriptionStep w call = .ok w') : Parts w (.subscription call) w w' := by
  cases call with
  | new areaSessionId flags correlationId expiryTime =>
      simp only [subscriptionStep, Except.ok.injEq] at h
      subst h
      exact .single (.newSubscription ⟨rfl, rfl, rfl, rfl⟩)
  | set u setting =>
      simp only [subscriptionStep, bind_eq_ok, Except.ok.injEq] at h
      obtain ⟨n, -, rfl⟩ := h
      exact .single (.setSubscription rfl)
  | add s u => exact .single (.addSubscription rfl h)
  | remove s u => exact .single (.removeSubscription (.inl rfl) h)
  | delete u =>
      simp only [subscriptionStep, mbsStatusSubscriptionDelete, bind_eq_ok,
        World.subscriptionAt_eq_ok] at h
      obtain ⟨n, hn, h⟩ := h
      cases hs : n.session with
      | some s =>
          simp only [hs] at h
          exact .single (.removeSubscription (.inr rfl) h)
      | none =>
          simp only [hs] at h
          cases hid : n.id with
          | some id =>
              simp only [hid, Option.isSome_some, if_true, Except.ok.injEq] at h
              subst h
              exact .refl
          | none =>
              simp only [hid, Option.isSome_none, Bool.false_eq_true, if_false,
                Except.ok.injEq] at h
              subst h
              exact .single (.freeSubscription rfl hn ⟨hs, hid⟩)

theorem parts_mbsSessionWrite {s : Ref} {f : MbsSession → MbsSession}
    (hview : ∀ x, withoutApplication (f x) = withoutApplication x)
    (h : mbsSessionWrite w s f = .ok w') : Parts w e w w' := by
  simp only [mbsSessionWrite, bind_eq_ok, World.sessionAt_eq_ok, Except.ok.injEq] at h
  obtain ⟨x, hx, rfl⟩ := h
  exact .single (.writeSession hx (hview x))

theorem parts_takeTmgi {s t : Ref} (h : takeTmgi w s t = .ok w') : Parts w e w w' := by
  simp only [takeTmgi, bind_eq_ok, World.sessionAt_eq_ok, Except.ok.injEq] at h
  obtain ⟨x, hx, y, -, rfl⟩ := h
  have href : Part w e w (w.refCountSbiObjectRef y.sbiObject) :=
    .tmgi (tmgiEffect_refCountSbiObjectRef _)
  have hlive : (w.refCountSbiObjectRef y.sbiObject).sessionStore s = some x := by
    rw [World.refCountSbiObjectRef_sessionStore]
    exact hx
  have hwrite : Part w e (w.refCountSbiObjectRef y.sbiObject)
      ((w.refCountSbiObjectRef y.sbiObject).setSession s
        { x with
          sbiObject := y.sbiObject
          session := { x.session with tmgi := some t, tmgiReq := false } }) :=
    .writeSession hlive rfl
  exact ((ReflTransGen.single href).tail hwrite).tail
    (.tmgi (tmgiEffect_refCountSbiObjectUnref _))

theorem parts_mbsSessionSetTmgi {s : Ref} {tmgi : Option Ref}
    (h : mbsSessionSetTmgi w s tmgi = .ok w') : Parts w e w w' := by
  simp only [mbsSessionSetTmgi, bind_eq_ok, World.sessionAt_eq_ok] at h
  obtain ⟨x, hx, h⟩ := h
  split at h
  · rw [Except.ok.injEq] at h
    subst h
    exact .refl
  · split at h
    · rw [Except.ok.injEq] at h
      subst h
      exact .single (.writeSession hx rfl)
    · split at h
      · exact parts_takeTmgi h
      · simp only [bind_eq_ok] at h
        obtain ⟨a, -, b, -, h⟩ := h
        split at h
        · rw [Except.ok.injEq] at h
          subst h
          exact .refl
        · exact parts_takeTmgi h

/-- A push of all sessions is a chain of pushes, each in the state the ones before it left. -/
theorem parts_pushAllChanges (h : mbsSessionPushAllChanges w = .ok w') :
    Parts w (.session .pushAllChanges) w w' := by
  have hchain : ∀ (after before : List Ref) (v : World), w.mbsSessions = before ++ after →
      before.foldlM mbsSessionPushChanges w = .ok v →
      after.foldlM mbsSessionPushChanges v = .ok w' →
      Parts w (.session .pushAllChanges) v w' := by
    intro after
    induction after with
    | nil =>
        intro before v _ _ hrun
        simp only [List.foldlM_nil, pure, Except.pure, Except.ok.injEq] at hrun
        subst hrun
        exact .refl
    | cons s after ih =>
        intro before v hsplit hbefore hrun
        rw [List.foldlM_cons] at hrun
        obtain ⟨v', hv', hrest⟩ := bind_eq_ok.1 hrun
        refine ReflTransGen.head (.push (.all hsplit hbefore) hv') ?_
        exact ih (before ++ [s]) v' (by rw [hsplit, List.append_assoc]; rfl)
          (foldlM_append_singleton hbefore hv') hrest
  exact hchain w.mbsSessions [] w rfl rfl h

theorem parts_sessionStep {call : SessionCall} (h : sessionStep w call = .ok w') :
    Parts w (.session call) w w' := by
  cases call <;> simp only [sessionStep] at h
  case newIpv4 source dest =>
    rw [Except.ok.injEq] at h
    subst h
    exact .single (.newSession _)
  case newIpv6 source dest =>
    rw [Except.ok.injEq] at h
    subst h
    exact .single (.newSession _)
  case edit s value => exact parts_mbsSessionWrite (f := mbsSessionEdit value) (fun _ => rfl) h
  case write s cell =>
    refine parts_mbsSessionWrite (fun x => ?_) h
    cases cell <;> (unfold writeThrough; dsimp only; split <;> rfl)
  case delete s =>
    simp only [mbsSessionWrite, bind_eq_ok, World.sessionAt_eq_ok, Except.ok.injEq] at h
    obtain ⟨v, ⟨x, hx, rfl⟩, rfl⟩ := h
    exact .single (.markDeleted hx)
  case setTmgi s tmgi => exact parts_mbsSessionSetTmgi h
  case setCallback s cb =>
    refine parts_mbsSessionWrite (fun x => ?_) h
    split <;> rfl
  case setCallbackOf s kind cb =>
    refine parts_mbsSessionWrite (fun x => ?_) h
    cases kind <;> rfl
  case pushChanges s => exact .single (.push (.direct s) h)
  case pushAllChanges => exact parts_pushAllChanges h

/-- A callback is at most said. -/
theorem parts_callback {v v' : World} {n : ℕ} {x : Xact} {s : Ref} {kind : CallbackKind}
    {result : CallbackResult} {problem : Option ProblemDetails}
    (event : e = .network (.timeout n) ∨ ∃ rsp, e = .network (.response n rsp))
    (outstanding : w.findXact n = some x)
    (h : mbsSessionDoCallback v n s kind result problem = .ok v') : Parts w e v v' := by
  obtain ⟨y, -, ⟨-, rfl⟩ | ⟨cb, -, rfl⟩⟩ := mbsSessionDoCallback_eq_ok h
  · exact .refl
  · exact .single (.said event outstanding (.inr (.inr ⟨s, cb, result, problem, rfl⟩)))

theorem parts_sessionAnswer {n : ℕ} {rsp : Response} {x : Xact} {session : Option Ref}
    (hx : w.findXact n = some x) (hsession : contextSbiObjectToSession w x.sbiObject = session)
    (hstore : (handlingState w x rsp).sessionStore = w.sessionStore)
    (h : SessionAnswer (handlingState w x rsp) x rsp session w') :
    Parts w (.network (.response n rsp)) (handlingState w x rsp) w' := by
  have hn : x.id = n := (findXact_eq_some hx).2
  have hcallback : ∀ {v v' : World} {s : Ref} {kind : CallbackKind} {result : CallbackResult}
      {problem : Option ProblemDetails},
      mbsSessionDoCallback v x.id s kind result problem = .ok v' →
      Parts w (.network (.response n rsp)) v v' := by
    intro v v' s kind result problem hcb
    rw [hn] at hcb
    exact parts_callback (.inr ⟨rsp, rfl⟩) hx hcb
  cases h with
  | ignored _ => exact .refl
  | unparsable hparsed h => exact hcallback h
  | created hparsed hrequest h =>
      rename_i s carried embedded
      have hanswers : Answers w n rsp x s := ⟨hx, hsession, hparsed⟩
      have hcreate : x.request.isCreate = true := by rw [hrequest]; rfl
      rcases handleCreateResponse_cases h with ⟨-, hcb⟩ | ⟨hstatus, v, hparse, hcb⟩ |
        ⟨hstatus, v, v', hparse, hcb, hpush⟩
      · exact hcallback hcb
      · exact ReflTransGen.head (.parse rfl hanswers hcreate hstatus hparse) (hcallback hcb)
      · have hcall : PushCall w (.network (.response n rsp)) v' s :=
          .created hanswers hcreate hstatus hparse hcb
        exact (ReflTransGen.head (.parse rfl hanswers hcreate hstatus hparse)
          (hcallback hcb)).tail (.push hcall hpush)
  | removed hparsed hrequest hid hy h =>
      rename_i s id y
      have hanswers : Answers w n rsp x s := ⟨hx, hsession, hparsed⟩
      simp only [nmbsmfMbsSessionDeleteResponse, bind_eq_ok] at h
      obtain ⟨v, hcb, hleave⟩ := h
      have href : Part w (.network (.response n rsp)) (handlingState w x rsp)
          ((handlingState w x rsp).refCountSbiObjectRef y.sbiObject) :=
        .tmgi (tmgiEffect_refCountSbiObjectRef _)
      rw [hstore] at hy
      exact (ReflTransGen.head href (hcallback hcb)).tail
        (.left rfl hanswers hrequest hid hy hcb hleave)
  | updated hparsed hrequest hid h => exact hcallback h

theorem parts_networkStep {event : NetworkEvent} (hsound : XactsSound w)
    (h : networkStep w event = .ok w') : Parts w (.network event) w w' := by
  cases event with
  | discovery n found =>
      simp only [networkStep, Except.ok.injEq] at h
      subst h
      rcases processDiscovery_cases w n found with heq | heq
      · rw [heq]
      · rw [heq]
        exact Parts.tmgi ⟨rfl, rfl, rfl, extends_removeXact n⟩
  | response n rsp =>
      rcases processResponse_cases h with ⟨-, rfl⟩ | ⟨sent, hsent, ⟨rfl, -⟩ |
        ⟨x, session, tmgi, v, held, hx, rfl, rfl, -, hv, rfl⟩⟩
      · exact .refl
      · exact .single (.answered rfl hsent)
      · have hid := (findXact_eq_some hx).2
        obtain rfl := eq_of_findXact hsound hx hsent
        have hstart : Parts w (.network (.response n rsp)) w (handlingState w sent rsp) := by
          have hsaid : Part w (.network (.response n rsp)) (w.say (.answered sent rsp))
              (handlingState w sent rsp) :=
            .said (n := n) (.inr ⟨rsp, rfl⟩) hx (.inl ⟨_, _, by rw [hid]⟩)
          exact (ReflTransGen.single (.answered rfl hsent)).tail hsaid
        have hstate : (w.say (.answered sent rsp)).say (.handled n
            (contextSbiObjectToSession w sent.sbiObject)
            (contextSbiObjectToTmgi w sent.sbiObject)) = handlingState w sent rsp := by
          rw [handlingState, hid]
        rw [hstate] at hv
        refine (hstart.trans ?_).tail (.tmgi (tmgiEffect_finishEvent n held))
        split at hv
        · exact Parts.tmgi (tmgiEffect_processTmgiResponse hv)
        · rename_i hservice
          exact parts_sessionAnswer hx rfl rfl
            (processSessionResponse_cases (by simpa using hservice) hv)
  | timeout n =>
      rcases processTimeout_cases h with ⟨-, rfl⟩ | ⟨x, hx, ⟨-, rfl⟩ | ⟨s, v, hs, hv, rfl⟩⟩
      · exact .refl
      · exact .single (.said (.inl rfl) hx (.inr (.inl rfl)))
      · have hn : x.id = n := (findXact_eq_some hx).2
        have htimed : Part w (.network (.timeout n)) w (w.say (.timedOut x)) :=
          .said (.inl rfl) hx (.inr (.inl rfl))
        have hhandled : Part w (.network (.timeout n)) (w.say (.timedOut x))
            ((w.say (.timedOut x)).say
              (.handled n (some s) (contextSbiObjectToTmgi w x.sbiObject))) :=
          .said (.inl rfl) hx (.inl ⟨_, _, rfl⟩)
        have hremove : TmgiEffect v (v.removeXact n) := ⟨rfl, rfl, rfl, extends_removeXact n⟩
        refine ReflTransGen.tail ?_ (.tmgi hremove)
        refine ReflTransGen.trans ((ReflTransGen.single htimed).tail hhandled) ?_
        rcases reportTimeout_cases hv with ⟨t, -, -, hcb⟩ | ⟨-, hcb⟩ | ⟨-, rfl⟩
        · exact Parts.tmgi (tmgiEffect_tmgiDoCallback hcb)
        · rw [hn] at hcb
          exact parts_callback (.inl rfl) hx hcb
        · exact .refl

theorem step_parts (hsound : XactsSound w) (h : step w e = .ok w') : Parts w e w w' := by
  cases e with
  | tmgi call => exact Parts.tmgi (tmgiEffect_tmgiStep h)
  | subscription call => exact parts_subscriptionStep h
  | session call => exact parts_sessionStep h
  | network event => exact parts_networkStep hsound h

/-- What the parts of a step preserve, the step preserves. -/
theorem step_invariant (I : World → Prop) (hsound : XactsSound w)
    (hpart : ∀ v v', Parts w e w v → I v → Part w e v v' → I v')
    (hw : I w) (h : step w e = .ok w') : I w' := by
  have hall : ∀ v, Parts w e w v → I v := by
    intro v hv
    induction hv with
    | refl => exact hw
    | tail hv hlast ih => exact hpart _ _ hv ih hlast
  exact hall w' (step_parts hsound h)

end Decomposition

end ServiceConsumers.StepDecomposition
