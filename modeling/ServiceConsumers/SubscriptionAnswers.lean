import ServiceConsumers.RunInvariants
import ServiceConsumers.TmgiSteps

set_option autoImplicit false

/-!
# Answers to subscribe requests

The handler gives an answer to the first subscription of the session with the correlation id of
the answer, whichever of the outstanding requests it answers, and reads the id of the subscription
from a `Location` that it is never handed.
-/

namespace ServiceConsumers.SubscriptionAnswers

open ObjectStore KeyedTable ConsumerState TmgiOperations SubscriptionOperations ResponseHandlers
  ProcessEvent TransitionRuns TransactionLog TmgiEffects SessionEffects AnswerEffects EventEffects
  StepDecomposition RunInvariants SubscriptionLinks TmgiSteps

/-! ## The law -/

def subscriptionId (w : World) (u : Ref) : Option String := (w.subscriptionStore u).bind (·.id)

/-- The subscription leaves the list of new subscriptions of a session and is active there. -/
def Moves (w w' : World) (u : Ref) : Prop :=
  ∃ s y y', w.sessionStore s = some y ∧ w'.sessionStore s = some y' ∧ u ∈ y.newSubscriptions ∧
    u ∉ y'.newSubscriptions ∧ u ∈ y'.active.map Prod.snd

/-- The id of the answer is stored in the subscription, which alone moves. -/
structure StoredIn (w w' : World) (u : Ref) (id : String) : Prop where
  stored : ∀ v, subscriptionId w' v = if v = u then some id else subscriptionId w v
  moves : ∀ v, Moves w w' v ↔ v = u

/-- The answer of the MB-SMF to the request of a subscription is stored in that subscription,
which alone becomes active. -/
def AnswerStored (w : World) (n : ℕ) (rsp : Response) (u : Ref) : Prop :=
  ∃ w' id, step w (.network (.response n rsp)) = .ok w' ∧ rsp.subscribeLocation = some id ∧
    StoredIn w w' u id

/-- The answer is an acceptance that reaches the session, and has the correlation id of a
subscription there. -/
def FindsSubscription (w : World) (n : ℕ) (rsp : Response) (x : Xact) : Prop :=
  ∃ s c hasEventList u, Answers w n rsp x s ∧ isSuccess rsp.status = true ∧
    rsp.subscribeBody = .valid c hasEventList ∧ mbsSessionFindSubscription w s c = some u

variable {w w' v : World} {n : ℕ} {rsp : Response} {x : Xact} {s u : Ref} {body : SubscriptionBody}
  {id : String} {c : Option String}

/-! ## How the answer is handled -/

theorem finishEvent_sessionStore (held : Option Ref) :
    (finishEvent n held w).sessionStore = w.sessionStore :=
  (tmgiEffect_finishEvent n held).sessionStore

/-- The handler of the session runs on the header of the answer, or no session changes. -/
theorem subscribeAnswer_cases (hsound : XactsSound w) (hx : w.findXact n = some x)
    (hrequest : x.request = .subscribe u body)
    (h : step w (.network (.response n rsp)) = .ok w') :
    w'.sessionStore = w.sessionStore ∨ ∃ s v held, Answers w n rsp x s ∧
      nmbsmfMbsSessionSubscriptionResponse (handlingState w x rsp) s (ogsSbiParseHeader rsp) =
        .ok v ∧
      w' = finishEvent n held v := by
  by_cases hfound : contextSbiObjectToSession w x.sbiObject = none ∧
      contextSbiObjectToTmgi w x.sbiObject = none
  · have hsent := findSent_of_findXact hsound hx
    rcases processResponse_cases h with ⟨hnone, -⟩ | ⟨sent, -, ⟨rfl, -⟩ |
      ⟨z, session, tmgi, v, held, hz, rfl, rfl, hne, -⟩⟩
    · rw [hsent] at hnone
      cases hnone
    · exact .inl rfl
    · rw [hx, Option.some.injEq] at hz
      exact absurd (hz ▸ hfound) hne
  · obtain ⟨v, held, rfl, hv⟩ := response_handled hsound hx hfound h
    rw [finishEvent_sessionStore]
    simp only [hrequest, Request.isTmgi, Bool.false_eq_true, if_false, processSessionResponse,
      Request.component1, Request.component2, Request.method] at hv
    cases hsession : contextSbiObjectToSession w x.sbiObject with
    | none =>
        rw [hsession] at hv
        refine .inl ?_
        have hstay : v = handlingState w x rsp := by
          split at hv <;> exact (Except.ok.inj hv).symm
        rw [hstay]
        rfl
    | some s =>
        rw [hsession] at hv
        cases hparsed : rsp.parsed with
        | false =>
            rw [hparsed] at hv
            have hstay := sessionStore_mbsSessionDoCallback (v := handlingState w x rsp) hv
            exact .inl hstay
        | true =>
            rw [hparsed] at hv
            exact .inr ⟨s, v, held, ⟨hx, hsession, hparsed⟩, hv, rfl⟩

/-- No answer changes a session: none of its subscriptions becomes active. -/
theorem subscribeAnswer_sessionStore (hsound : XactsSound w) (hx : w.findXact n = some x)
    (hrequest : x.request = .subscribe u body) (h : step w (.network (.response n rsp)) = .ok w') :
    w'.sessionStore = w.sessionStore := by
  rcases subscribeAnswer_cases hsound hx hrequest h with hsame | ⟨s, v, held, -, hrun, rfl⟩
  · exact hsame
  · rw [finishEvent_sessionStore, nmbsmfMbsSessionSubscriptionResponse_header hrun]
    rfl

/-- An acceptance with the correlation id of a subscription is read through the `Location` that
the message does not have. -/
theorem subscribeAnswer_fails (hsound : XactsSound w) (hrequest : x.request = .subscribe u body)
    (h : FindsSubscription w n rsp x) :
    step w (.network (.response n rsp)) = .error .nullLocation := by
  obtain ⟨s, c, hasEventList, q, hanswers, hstatus, hbody, hfound⟩ := h
  have hsent := findSent_of_findXact hsound hanswers.outstanding
  have hfind : (w.say (.answered x rsp)).findXact n = some x := hanswers.outstanding
  have hsession : contextSbiObjectToSession (w.say (.answered x rsp)) x.sbiObject = some s :=
    hanswers.session
  have hhandled : ∀ v : World, v.sessionStore = w.sessionStore →
      v.subscriptionStore = w.subscriptionStore →
      processSessionResponse v x (some s) rsp = .error .nullLocation := by
    intro v hsessions hsubscriptions
    have hsame : mbsSessionFindSubscription v s c = some q := by
      rw [← hfound, mbsSessionFindSubscription, mbsSessionFindSubscription, hsessions,
        hsubscriptions]
    have hparsedBody : (ogsSbiParseHeader rsp).subscribeBody = .valid c hasEventList := hbody
    have haccepted : isSuccess (ogsSbiParseHeader rsp).status = true := hstatus
    simp only [processSessionResponse, hanswers.parsed, hrequest, Request.component1,
      Request.component2, Request.method, nmbsmfMbsSessionSubscriptionResponse, hparsedBody,
      haccepted, if_true, hsame]
    rfl
  change processResponse w n rsp = _
  simp only [processResponse, hsent, hfind, hsession, reduceCtorEq, false_and, if_false]
  simp only [hrequest, Request.isTmgi, Bool.false_eq_true, if_false]
  rw [hhandled ((w.say (.answered x rsp)).say (.handled n (some s)
    (contextSbiObjectToTmgi (w.say (.answered x rsp)) x.sbiObject))) rfl rfl]
  rfl

/-! ## Which subscription the handler moves -/

/-- How a subscription is established. -/
theorem establishSubscription_eq_ok {s u : Ref} {id : String} {slot : ℕ}
    (h : establishSubscription w s u id slot = .ok w') :
    ∃ x, w.sessionStore s = some x ∧
      ((u ∉ x.newSubscriptions ∧ w' = w.modifySubscription u fun n => { n with id := some id }) ∨
      (u ∈ x.newSubscriptions ∧ ∃ v, ogsListRemove
        (w.modifySubscription u fun n => { n with id := some id }) s .newSubscriptions u = .ok v ∧
        w' = v.modifySession s fun x =>
          { x with activeSubscriptions := some (x.active.set slot id u) })) := by
  simp only [establishSubscription, bind_eq_ok, World.sessionAt_eq_ok] at h
  obtain ⟨x, hx, h⟩ := h
  refine ⟨x, hx, ?_⟩
  split at h
  · rename_i hu
    simp only [bind_eq_ok, Except.ok.injEq] at h
    obtain ⟨v, hv, rfl⟩ := h
    exact .inr ⟨hu, v, hv, rfl⟩
  · rename_i hu
    rw [Except.ok.injEq] at h
    exact .inl ⟨hu, h.symm⟩

/-- How a subscribe answer is handled: nothing happens, or the subscription that is found by
its correlation id is established. -/
theorem nmbsmfMbsSessionSubscriptionResponse_cases {s : Ref} {rsp : Response}
    (h : nmbsmfMbsSessionSubscriptionResponse w s rsp = .ok w') :
    w' = w ∨ ∃ correlationId u id, rsp.subscribeBody = .valid correlationId true ∧
      isSuccess rsp.status = true ∧ mbsSessionFindSubscription w s correlationId = some u ∧
      rsp.subscribeLocation = some id ∧
      establishSubscription w s u id rsp.hashSlot = .ok w' := by
  unfold nmbsmfMbsSessionSubscriptionResponse at h
  split at h
  · rw [Except.ok.injEq] at h
    exact .inl h.symm
  · rw [Except.ok.injEq] at h
    exact .inl h.symm
  · rename_i correlationId hasEventList hbody
    split at h
    · rename_i hstatus
      split at h
      · rw [Except.ok.injEq] at h
        exact .inl h.symm
      · rename_i u hu
        split at h
        · cases h
        · rename_i id hid
          simp only [bind_eq_ok] at h
          obtain ⟨v, hv, h⟩ := h
          split at h
          · rename_i hlist
            rw [Except.ok.injEq] at h
            subst h
            exact .inr ⟨correlationId, u, id, by rw [hbody, hlist], hstatus, hu, hid, hv⟩
          · cases h
    · rw [Except.ok.injEq] at h
      exact .inl h.symm

/-- A new subscription that is found is the first of the new ones with the correlation id. -/
theorem found_new {y : MbsSession} (hy : w.sessionStore s = some y) (hu : u ∈ y.newSubscriptions)
    (h : mbsSessionFindSubscription w s c = some u) :
    y.deleted = false ∧ (w.subscriptionStore u).any (fun m => m.correlationId = c) = true ∧
      ∃ before after, y.newSubscriptions = before ++ u :: after ∧
        ∀ v ∈ before, (w.subscriptionStore v).any (fun m => m.correlationId = c) = false := by
  simp only [mbsSessionFindSubscription, hy] at h
  split at h
  · cases h
  · rename_i hdeleted
    have hmatch := List.find?_some h
    refine ⟨Bool.eq_false_iff.2 hdeleted, hmatch, ?_⟩
    rw [List.find?_append] at h
    cases hfound : y.newSubscriptions.find?
        fun v => (w.subscriptionStore v).any fun m => m.correlationId = c with
    | none => exact absurd hmatch (List.find?_eq_none.1 hfound u hu)
    | some r =>
        rw [hfound, Option.some_or, Option.some.injEq] at h
        subst h
        obtain ⟨-, before, after, hsplit, hbefore⟩ := List.find?_eq_some_iff_append.1 hfound
        exact ⟨before, after, hsplit, fun v hv => by simpa using hbefore v hv⟩

theorem find_of_first {y : MbsSession} {before after : List Ref} (hy : w.sessionStore s = some y)
    (hdeleted : y.deleted = false) (hsplit : y.newSubscriptions = before ++ u :: after)
    (hmatch : (w.subscriptionStore u).any (fun m => m.correlationId = c) = true)
    (hbefore : ∀ v ∈ before,
      (w.subscriptionStore v).any (fun m => m.correlationId = c) = false) :
    mbsSessionFindSubscription w s c = some u := by
  have hfound : y.newSubscriptions.find?
      (fun v => (w.subscriptionStore v).any fun m => m.correlationId = c) = some u :=
    List.find?_eq_some_iff_append.2
      ⟨hmatch, before, after, hsplit, fun v hv => by rw [hbefore v hv]; rfl⟩
  simp only [mbsSessionFindSubscription, hy, hdeleted, Bool.false_eq_true, if_false]
  rw [List.find?_append, hfound, Option.some_or]

/-- The session after its new subscription was established. -/
def established (y : MbsSession) (slot : ℕ) (id : String) (u : Ref) : MbsSession :=
  { y with
    newSubscriptions := y.newSubscriptions.erase u
    activeSubscriptions := some (y.active.set slot id u) }

theorem mem_established {y : MbsSession} {slot : ℕ} :
    u ∈ (established y slot id u).active.map Prod.snd := by
  change u ∈ (y.active.set slot id u).map Prod.snd
  unfold Table.set
  split
  · rename_i hkey
    obtain ⟨e, he, hid⟩ := List.mem_map.1 hkey
    exact List.mem_map.2 ⟨(id, u), List.mem_map.2 ⟨e, he, by rw [if_pos hid]⟩, rfl⟩
  · exact List.mem_map.2 ⟨(id, u), (List.mem_insertIdx (Nat.min_le_right _ _)).2 (.inl rfl), rfl⟩

/-- The new subscription is established in its session, and no other one changes. -/
structure Established (w v : World) (s u : Ref) (y : MbsSession) (slot : ℕ) (id : String) :
    Prop where
  session : v.sessionStore = w.sessionStore.set s (established y slot id u)
  ids : ∀ q, subscriptionId v q =
    if q = u then (w.subscriptionStore u).map fun _ => id else subscriptionId w q

theorem establishSubscription_isOk {y : MbsSession} {slot : ℕ} (hy : w.sessionStore s = some y)
    (hu : u ∈ y.newSubscriptions) : ∃ v, establishSubscription w s u id slot = .ok v := by
  have hat : (w.modifySubscription u fun n => { n with id := some id }).sessionAt s = .ok y :=
    World.sessionAt_eq_ok.2 hy
  have hmember : u ∈ listOf y .newSubscriptions := hu
  simp only [establishSubscription, hat, if_pos hu, bind, Except.bind, ogsListRemove,
    if_pos hmember]
  exact ⟨_, rfl⟩

theorem established_of_run {y : MbsSession} {slot : ℕ} (hy : w.sessionStore s = some y)
    (hu : u ∈ y.newSubscriptions) (h : establishSubscription w s u id slot = .ok v) :
    Established w v s u y slot id := by
  obtain ⟨y', hy', ⟨hnot, -⟩ | ⟨-, v', hv', rfl⟩⟩ := establishSubscription_eq_ok h
  · rw [hy, Option.some.injEq] at hy'
    exact absurd (hy' ▸ hu) hnot
  · obtain ⟨z, hz, -, rfl⟩ := ogsListRemove_eq_ok hv'
    change w.sessionStore s = some z at hz
    rw [hy, Option.some.injEq] at hz
    subst hz
    refine ⟨Store.modify_set _ _ _ _, fun q => ?_⟩
    change Option.bind (((w.subscriptionStore.modify u _).modify u _) q) _ = _
    by_cases hq : q = u
    · subst hq
      rw [if_pos rfl, Store.modify_self, Store.modify_self]
      cases w.subscriptionStore q <;> rfl
    · rw [if_neg hq, Store.modify_of_ne _ _ _ hq, Store.modify_of_ne _ _ _ hq]
      rfl

theorem moves_established {y : MbsSession} {slot : ℕ} (hy : w.sessionStore s = some y)
    (hw : w'.sessionStore = w.sessionStore.set s (established y slot id u)) (q : Ref) :
    Moves w w' q ↔ q = u ∧ u ∈ y.newSubscriptions ∧ u ∉ y.newSubscriptions.erase u := by
  constructor
  · rintro ⟨r, z, z', hz, hz', hin, hout, -⟩
    rw [hw] at hz'
    by_cases hr : r = s
    · subst hr
      rw [Store.set_self, Option.some.injEq] at hz'
      rw [hy, Option.some.injEq] at hz
      subst hz hz'
      change q ∉ y.newSubscriptions.erase u at hout
      have hq : q = u := by
        by_contra hne
        exact hout ((List.mem_erase_of_ne hne).2 hin)
      subst hq
      exact ⟨rfl, hin, hout⟩
    · rw [Store.set_of_ne _ _ _ hr, hz, Option.some.injEq] at hz'
      subst hz'
      exact absurd hin hout
  · rintro ⟨rfl, hin, hout⟩
    exact ⟨s, y, established y slot id q, hy, by rw [hw, Store.set_self], hin, hout,
      mem_established⟩

theorem not_moves_of_same (h : w'.sessionStore = w.sessionStore) (q : Ref) : ¬Moves w w' q := by
  rintro ⟨r, z, z', hz, hz', hin, hout, -⟩
  rw [h, hz, Option.some.injEq] at hz'
  subst hz'
  exact hout hin

theorem not_mem_erase_iff {before after : List Ref} (hbefore : u ∉ before) :
    u ∉ (before ++ u :: after).erase u ↔ u ∉ after := by
  rw [List.erase_append_right _ hbefore, List.erase_cons_head, List.mem_append, not_or]
  exact and_iff_right hbefore

/-- The subscription is the first of the new ones of the session with the correlation id of the
answer, and is listed once. -/
structure FirstOfItsId (w : World) (s : Ref) (rsp : Response) (u : Ref) (y : MbsSession) (id : String)
    (c : Option String) (before after : List Ref) : Prop where
  live : w.sessionStore s = some y
  present : y.deleted = false
  location : rsp.subscribeLocation = some id
  body : rsp.subscribeBody = .valid c true
  split : y.newSubscriptions = before ++ u :: after
  once : u ∉ after
  correlated : (w.subscriptionStore u).any (fun m => m.correlationId = c) = true
  earlier : ∀ v ∈ before, (w.subscriptionStore v).any (fun m => m.correlationId = c) = false

def HandlerStores (w : World) (s : Ref) (rsp : Response) (u : Ref) : Prop :=
  ∃ w' id, nmbsmfMbsSessionSubscriptionResponse w s rsp = .ok w' ∧
    rsp.subscribeLocation = some id ∧ StoredIn w w' u id

theorem handlerStores_of_first {y : MbsSession} {before after : List Ref}
    (hstatus : isSuccess rsp.status = true) (h : FirstOfItsId w s rsp u y id c before after) :
    HandlerStores w s rsp u := by
  have hu : u ∈ y.newSubscriptions := by
    rw [h.split]
    exact List.mem_append_right _ List.mem_cons_self
  have hfound : mbsSessionFindSubscription w s c = some u :=
    find_of_first h.live h.present h.split h.correlated h.earlier
  obtain ⟨v, hv⟩ : ∃ v, establishSubscription w s u id rsp.hashSlot = .ok v :=
    establishSubscription_isOk h.live hu
  have hrun : nmbsmfMbsSessionSubscriptionResponse w s rsp = .ok v := by
    simp only [nmbsmfMbsSessionSubscriptionResponse, h.body, hstatus, if_true, hfound, h.location,
      hv, bind, Except.bind]
  have hestablished := established_of_run h.live hu hv
  refine ⟨v, id, hrun, h.location, fun q => ?_, fun q => ?_⟩
  · refine (hestablished.ids q).trans ?_
    by_cases hq : q = u
    · obtain ⟨m, hm, -⟩ := (Option.any_eq_true _ _).1 h.correlated
      rw [if_pos hq, if_pos hq, hm, Option.map_some]
    · rw [if_neg hq, if_neg hq]
  · have hnot : u ∉ before := by
      intro hmem
      have hfalse := h.earlier u hmem
      rw [h.correlated] at hfalse
      cases hfalse
    rw [moves_established h.live hestablished.session q, h.split, not_mem_erase_iff hnot]
    exact ⟨And.left, fun hq => ⟨hq, h.split ▸ hu, h.once⟩⟩

theorem first_of_handlerStores (h : HandlerStores w s rsp u) :
    ∃ y id c before after, FirstOfItsId w s rsp u y id c before after := by
  obtain ⟨w', id, hrun, -, hstored⟩ := h
  have hmoves := (hstored.moves u).2 rfl
  rcases nmbsmfMbsSessionSubscriptionResponse_cases hrun with rfl |
    ⟨c, q, id', hbody, -, hfound, hlocation', hv⟩
  · exact absurd hmoves (not_moves_of_same rfl u)
  · obtain ⟨y, hy, ⟨-, rfl⟩ | ⟨hq, -⟩⟩ := establishSubscription_eq_ok hv
    · exact absurd hmoves (not_moves_of_same rfl u)
    · have hestablished := established_of_run hy hq hv
      obtain ⟨rfl, hu, honce⟩ := (moves_established hy hestablished.session u).1 hmoves
      obtain ⟨hdeleted, hmatch, before, after, hsplit, hbefore⟩ := found_new hy hu hfound
      have hnot : u ∉ before := by
        intro hmem
        have hfalse := hbefore u hmem
        rw [hmatch] at hfalse
        cases hfalse
      rw [hsplit, not_mem_erase_iff hnot] at honce
      exact ⟨y, id', c, before, after, hy, hdeleted, hlocation', hbody, hsplit, honce, hmatch,
        hbefore⟩

/-- What the handler makes of a message that has the `Location`: it looks for the correlation id,
and not for the transaction. -/
theorem handlerStores_iff (hstatus : isSuccess rsp.status = true) :
    HandlerStores w s rsp u ↔
      ∃ y id c before after, FirstOfItsId w s rsp u y id c before after :=
  ⟨first_of_handlerStores, fun ⟨_, _, _, _, _, h⟩ => handlerStores_of_first hstatus h⟩

/-! ## No answer is stored -/

/-- No answer is stored in the subscription that it answers. -/
theorem answer_never_stored (hrun : Reachable step World.initial w) (hx : w.findXact n = some x)
    (hrequest : x.request = .subscribe u body) : ¬AnswerStored w n rsp u := by
  rintro ⟨w', id, hstep, -, hstored⟩
  have hsame := subscribeAnswer_sessionStore (sound_of_run hrun).xacts hx hrequest hstep
  exact not_moves_of_same hsame u ((hstored.moves u).2 rfl)

/-- Two subscriptions of a session whose requests are both outstanding. -/
def subscribedTwice (first second : Option String) : List Event :=
  [.session (.newIpv4 none none), .session (.edit 1 { tmgiReq := false }),
   .subscription (.new 0 0 first 0), .subscription (.new 0 0 second 0),
   .subscription (.add 1 2), .subscription (.add 1 3), .session (.pushChanges 1),
   .network (.response 5
     { status := 201, resStatus := 201, createLocation := .resource "a",
       createRspData := some (some {}) })]

def subscribedState (first second : Option String) : World :=
  (subscribedTwice first second).foldl (advance step) World.initial

def subscribeAnswer (correlationId : Option String) : Response :=
  { status := 201, resStatus := 201, subscribeLocation := some "b",
    subscribeBody := .valid correlationId true }

/-- The acceptance names the subscription and has its correlation id, and ends the program. -/
theorem answer_read_through_null : ¬∀ w, Reachable step World.initial w → ∀ n x u body rsp,
    w.findXact n = some x → x.request = .subscribe u body → isSuccess rsp.status = true →
    AnswerStored w n rsp u := by
  intro h
  obtain ⟨w', id, hstep, -, -⟩ := h (subscribedState (some "c") (some "d"))
    (Reachable.of_events _) 7 _ 3 _ (subscribeAnswer (some "d")) rfl rfl rfl
  have hfails : step (subscribedState (some "c") (some "d"))
      (.network (.response 7 (subscribeAnswer (some "d")))) = .error .nullLocation := by
    refine subscribeAnswer_fails (sound_of_run (Reachable.of_events _)).xacts (x := _) rfl
      ⟨1, some "d", true, 3, ⟨rfl, ?_, rfl⟩, rfl, rfl, ?_⟩
    · rfl
    · decide +kernel
  rw [hfails] at hstep
  cases hstep

/-- Both requests are outstanding, and neither can be answered. -/
theorem answer_never_stored_of_two :
    ¬AnswerStored (subscribedState (some "c") (some "d")) 6 (subscribeAnswer (some "c")) 2 ∧
      ¬AnswerStored (subscribedState (some "c") (some "d")) 7 (subscribeAnswer (some "d")) 3 :=
  ⟨answer_never_stored (Reachable.of_events _) (x := _) rfl rfl,
    answer_never_stored (Reachable.of_events _) (x := _) rfl rfl⟩

end ServiceConsumers.SubscriptionAnswers
