import ServiceConsumers.RunInvariants

set_option autoImplicit false

/-!
# The callbacks of session requests

A session request is answered to the application in the step that takes its transaction away,
and nowhere else.
-/

namespace ServiceConsumers.SessionCallbacks

open ObjectStore KeyedTable PublicSessions ConsumerState TmgiOperations SubscriptionOperations
  SessionOperations ResponseHandlers ProcessEvent TransitionRuns TransactionLog TmgiEffects
  SessionEffects PushEffects AnswerEffects EventEffects SubscriptionLinks StepDecomposition
  RunInvariants

abbrev SessionCallback := Ref × ResultCallback × CallbackResult × Option ProblemDetails

def callbackFor (n : ℕ) : Observation → Option SessionCallback
  | .sessionCallback m s cb result problem => if m = n then some (s, cb, result, problem) else none
  | _ => none

/-- The callbacks that were invoked for a request, newest first. -/
def callbacksFor (n : ℕ) (log : List Observation) : List SessionCallback :=
  log.filterMap (callbackFor n)

inductive TransactionOutcome where
  | response (rsp : Response)
  | timedOut

def outcomeOf : Event → Option (ℕ × TransactionOutcome)
  | .network (.response n rsp) => some (n, .response rsp)
  | .network (.timeout n) => some (n, .timedOut)
  | _ => none

def kindOf : Request → Option CallbackKind
  | .create .. => some .create
  | .update .. => some .update
  | .remove .. => some .delete
  | _ => none

/-- The answer to a create request has all that the session asked for. -/
def createUnderstood (y : MbsSession) (rsp : Response) : Bool :=
  match rsp.createLocation, rsp.createRspData with
  | .resource _, some (some m) =>
      !(y.session.tunnelReq && m.ingressTunAddr.isNone) &&
        (!y.session.tmgiReq || (m.tmgi.isSome && m.expirationTime.any (· != .malformed)))
  | _, _ => false

def accepts (y : MbsSession) (k : CallbackKind) (rsp : Response) : Bool :=
  rsp.parsed && isSuccess rsp.status && (k != .create || createUnderstood y rsp)

def acceptance : CallbackKind → CallbackResult
  | .create | .update => .ogsOk
  | .delete => .ogsDone

def report (y : MbsSession) (k : CallbackKind) :
    TransactionOutcome → CallbackResult × Option ProblemDetails
  | .timedOut => (.ogsTimedOut, none)
  | .response rsp =>
      if accepts y k rsp then (acceptance k, none) else (.ogsError, rsp.problemDetails)

/-- The event loop tells the session what it should, through the callback of the kind. -/
def ToldOf (y : MbsSession) (x : Xact) (k : CallbackKind) : TransactionOutcome → Prop
  | .timedOut => k = .create ∨ callbackOf y k = none
  | .response rsp =>
      (rsp.parsed = false → callbackOf y .create = callbackOf y k) ∧
      (rsp.parsed = true → callbackOf y k ≠ none →
        (k = .create → isSuccess rsp.status = true → createUnderstood y rsp = false →
          rsp.problemDetails = none) ∧
        (k ≠ .create → isSuccess rsp.status = true ∧
          ∃ id, x.request.component1 = some id ∧ id ≠ "subscriptions"))

/-- The search finds the session that sent the request, if that session still exists. -/
def RoutedTo (w : World) (x : Xact) (s : Ref) : Prop :=
  contextSbiObjectToSession w x.sbiObject = if (w.sessionStore s).isSome then some s else none

def CallbacksAgreed (w : World) (e : Event) : Prop :=
  ∀ x s k o, x ∈ w.xacts → x.requester = .session s → kindOf x.request = some k →
    outcomeOf e = some (x.id, o) →
    RoutedTo w x s ∧ ∀ y, w.sessionStore s = some y → ToldOf y x k o

/-! ## Operations that invoke no callback -/

variable {w w' v v' : World} {e : Event} {s : Ref} {n : ℕ}

/-- An observation that is no callback for the request. -/
def QuietFor (n : ℕ) (o : Observation) : Prop := callbackFor n o = none

theorem callbacksFor_of_extends {A : Observation → Prop} (h : Extends A v v')
    (hA : ∀ o, A o → QuietFor n o) : callbacksFor n v'.log = callbacksFor n v.log := by
  obtain ⟨⟨new, hlog, hnew, -⟩, -⟩ := h
  have hnone : new.filterMap (callbackFor n) = [] := by
    rw [List.filterMap_eq_nil_iff]
    exact fun o ho => hA o (hnew o ho)
  rw [callbacksFor, callbacksFor, hlog, List.filterMap_append, hnone]
  rfl

theorem QuietFor.of_tmgi {o : Observation} (h : TmgiObservation o) : QuietFor n o := by
  cases o <;> first | rfl | cases h

theorem QuietFor.of_push {o : Observation} (h : PushObservation s o) : QuietFor n o := by
  cases o <;> first | rfl | cases h

theorem createdTmgi_isSome {m : CreatedSession} {tmgi : Option Ref}
    (h : createdTmgi v s m = .ok (v', tmgi)) :
    tmgi.isSome = (m.tmgi.isSome && m.expirationTime.any (· != .malformed)) := by
  unfold createdTmgi at h
  cases ht : m.tmgi with
  | none =>
      simp only [ht, Except.ok.injEq, Prod.mk.injEq] at h
      rw [← h.2]
      rfl
  | some api =>
      cases hstamp : m.expirationTime with
      | none =>
          simp only [ht, hstamp, Except.ok.injEq, Prod.mk.injEq] at h
          rw [← h.2]
          rfl
      | some stamp =>
          cases stamp with
          | malformed =>
              simp only [ht, hstamp, bind_eq_ok, Except.ok.injEq, Prod.mk.injEq] at h
              obtain ⟨u, -, -, rfl⟩ := h
              rfl
          | seconds t =>
              simp only [ht, hstamp, bind_eq_ok, Except.ok.injEq, Prod.mk.injEq] at h
              obtain ⟨x, -, u, -, -, rfl⟩ := h
              rfl

/-- The parser understands the answers that have what the session asked for. -/
theorem nmbsmfMbsSessionParse_understood {y : MbsSession} {rsp : Response} {understood : Bool}
    (hy : v.sessionStore s = some y)
    (h : nmbsmfMbsSessionParse v s rsp = .ok (v', understood)) :
    understood = createUnderstood y rsp := by
  obtain ⟨x, hx, h⟩ := nmbsmfMbsSessionParse_eq_ok h
  rw [hy, Option.some.injEq] at hx
  subst hx
  unfold createUnderstood
  rcases h with ⟨rfl, -, hloc⟩ | ⟨id, hloc, ⟨rfl, -, hdata⟩ | ⟨m, hdata, htunnel, h⟩⟩
  · cases hl : rsp.createLocation with
    | resource id => exact absurd hl (hloc id)
    | _ => rfl
  · rw [hloc]
    cases hd : rsp.createRspData with
    | none => rfl
    | some data =>
        cases data with
        | none => rfl
        | some m =>
            obtain ⟨hreq, hnone⟩ := hdata m hd
            simp [hreq, hnone]
  · have hhead : (y.session.tunnelReq && m.ingressTunAddr.isNone) = false := by
      rw [Bool.eq_false_iff]
      intro hboth
      exact htunnel (by simpa using hboth)
    simp only [hloc, hdata, hhead, Bool.not_false, Bool.true_and]
    rcases h with ⟨htmgi, t, tmgi, ht, h⟩ | ⟨htmgi, rfl, -⟩
    · have hsome := createdTmgi_isSome ht
      rw [htmgi, ← hsome]
      rcases h with ⟨rfl, rfl, -⟩ | ⟨t, rfl, rfl, -⟩ <;> rfl
    · rw [htmgi]
      rfl

/-- Only the outcome of an outstanding request invokes a callback for it. -/
theorem Part.callbacksFor_eq (h : Part w e v v')
    (hn : (∀ o, outcomeOf e ≠ some (n, o)) ∨ w.findXact n = none) :
    callbacksFor n v'.log = callbacksFor n v.log := by
  rcases Part.log h with hlog | ⟨m, rsp, x, -, -, rfl, rfl⟩
  · refine callbacksFor_of_extends hlog fun o ho => ?_
    cases ho with
    | tmgi ho => exact QuietFor.of_tmgi ho
    | added event ho => cases o <;> first | rfl | cases ho
    | pushed call ho => exact QuietFor.of_push ho
    | sessionCallback s cb result problem event outstanding =>
        rename_i m x
        have hmn : m ≠ n := by
          rintro rfl
          rcases hn with hn | hn
          · rcases event with rfl | ⟨rsp, rfl⟩
            · exact hn .timedOut rfl
            · exact hn (.response rsp) rfl
          · rw [outstanding] at hn
            cases hn
        exact if_neg hmn
    | _ => rfl
  · rfl

theorem callbacksFor_step_eq (hsound : XactsSound w) (hstep : step w e = .ok w')
    (hn : (∀ o, outcomeOf e ≠ some (n, o)) ∨ w.findXact n = none) :
    callbacksFor n w'.log = callbacksFor n w.log :=
  step_invariant (fun v => callbacksFor n v.log = callbacksFor n w.log) hsound
    (fun _ _ _ hv hpart => (Part.callbacksFor_eq hpart hn).trans hv) rfl hstep

theorem findXact_removeXact (n : ℕ) : (v.removeXact n).findXact n = none := by
  rw [World.findXact, World.removeXact, List.find?_eq_none]
  intro x hx
  simpa using (List.mem_filter.1 hx).2

theorem findXact_finishEvent (held : Option Ref) : (finishEvent n held v).findXact n = none := by
  obtain ⟨⟨new, -, hnew, hxacts, -⟩, -⟩ := extends_refCountSbiObjectUnref
    (w := v.removeXact n) (A := fun o => sentXact o = none) (fun _ => rfl) held
  have hsent : sentOf new = [] := by
    rw [sentOf, List.filterMap_eq_nil_iff.2 hnew]
    rfl
  rw [hsent, List.append_nil] at hxacts
  have hgone := findXact_removeXact (v := v) n
  rw [World.findXact, List.find?_eq_none] at hgone ⊢
  exact fun x hx => hgone x (hxacts.subset hx)

/-- The outcome of a request takes its transaction away, or nobody is told. -/
theorem outcome_cases {o : TransactionOutcome} (hstep : step w e = .ok w')
    (ho : outcomeOf e = some (n, o)) :
    w'.findXact n = none ∨ callbacksFor n w'.log = callbacksFor n w.log := by
  cases e with
  | network event =>
      cases event with
      | discovery m found => cases ho
      | response m rsp =>
          rw [outcomeOf, Option.some.injEq, Prod.mk.injEq] at ho
          obtain ⟨rfl, rfl⟩ := ho
          rcases processResponse_cases hstep with ⟨-, rfl⟩ | ⟨sent, -, ⟨rfl, -⟩ |
            ⟨x, session, tmgi, v, held, -, -, -, -, -, rfl⟩⟩
          · exact .inr rfl
          · exact .inr rfl
          · exact .inl (findXact_finishEvent held)
      | timeout m =>
          rw [outcomeOf, Option.some.injEq, Prod.mk.injEq] at ho
          obtain ⟨rfl, rfl⟩ := ho
          rcases processTimeout_cases hstep with ⟨-, rfl⟩ | ⟨x, -, ⟨-, rfl⟩ | ⟨s, v, -, -, rfl⟩⟩
          · exact .inr rfl
          · exact .inr rfl
          · exact .inl (findXact_removeXact m)
  | _ => cases ho

/-- No callback was invoked for a request that is outstanding or not yet sent. -/
def NotYetCalled (w : World) : Prop :=
  ∀ n, (w.findXact n).isSome ∨ w.next ≤ n → callbacksFor n w.log = []

theorem findXact_fresh (hsound : XactsSound w) (hn : w.next ≤ n) : w.findXact n = none := by
  cases hx : w.findXact n with
  | none => rfl
  | some x =>
      obtain ⟨hmem, hid⟩ := findXact_eq_some hx
      have hlt := hsound.fresh x (hsound.mem_sentOf_of_mem hmem)
      omega

theorem NotYetCalled.of_step (h : NotYetCalled w) (hsound : XactsSound w)
    (hstep : step w e = .ok w') : NotYetCalled w' := by
  have hextends := Parts.extends_any (step_parts hsound hstep)
  have hnone : ∀ n, w.next ≤ n → callbacksFor n w'.log = [] := by
    intro n hn
    rw [callbacksFor_step_eq hsound hstep (.inr (findXact_fresh hsound hn))]
    exact h n (.inr hn)
  rintro n (hsome | hn)
  · obtain ⟨x, hx⟩ := Option.isSome_iff_exists.1 hsome
    obtain ⟨hmem, hid⟩ := findXact_eq_some hx
    obtain ⟨⟨new, -, -, hxacts, hids, -⟩, -⟩ := hextends
    rcases List.mem_append.1 (hxacts.subset hmem) with hold | hnew
    · have hbefore := h n (.inl (by rw [← hid, hsound.findXact_eq hold]; rfl))
      by_cases hout : ∀ o, outcomeOf e ≠ some (n, o)
      · rw [callbacksFor_step_eq hsound hstep (.inl hout), hbefore]
      · rw [not_forall] at hout
        obtain ⟨o, ho⟩ := hout
        rcases outcome_cases hstep (not_not.1 ho) with hgone | hsame
        · rw [hx] at hgone
          cases hgone
        · rw [hsame, hbefore]
    · exact hnone n (hid ▸ (hids x hnew).1)
  · exact hnone n (le_trans hextends.next hn)

def application : ResultCallback := { function := 7, data := 0 }

theorem CallbacksAgreed.of_call (he : outcomeOf e = none) : CallbacksAgreed w e := by
  intro x s k o _ _ _ ho
  rw [he] at ho
  cases ho

end ServiceConsumers.SessionCallbacks
