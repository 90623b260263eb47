import ServiceConsumers.AllocationMatching
import ServiceConsumers.TmgiRegistry

set_option autoImplicit false

/-!
# Callbacks of TMGIs (`nmbsmf-tmgi-handle.c`, `mb-smf-service-consumer.c`)

The library does not keep the list of TMGIs that a request was sent for. Each outcome of the
request recovers them in a way of its own.
-/

namespace ServiceConsumers.TmgiCallbacks

open ObjectStore PublicSessions ConsumerState TmgiOperations ResponseHandlers ProcessEvent
  TransitionRuns TransactionLog StepDecomposition RunInvariants TmgiContents SessionCallbacks
  TmgiSteps TmgiRegistry AllocationMatching

variable {w w' v v' : World} {n : ℕ} {x : Xact} {rsp : Response} {o : TransactionOutcome}
  {s t : Ref} {cb : ResultCallback}

/-! ## The law -/

def tmgiCallbackOf (w : World) (t : Ref) : Option ResultCallback :=
  (w.tmgiStore t).bind PrivTmgi.callback

abbrev CallbackCall := ResultCallback × CallbackResult × Option ProblemDetails

def callOf (n : ℕ) (t : Ref) : Observation → Option CallbackCall
  | .tmgiCallback m q cb result problem =>
      if m = n ∧ q = t then some (cb, result, problem) else none
  | _ => none

/-- The calls of the callback of an object for a request, the newest first. -/
def callsOf (n : ℕ) (t : Ref) (log : List Observation) : List CallbackCall := log.filterMap (callOf n t)

def outcomeEvent (n : ℕ) : TransactionOutcome → Event
  | .response rsp => .network (.response n rsp)
  | .timedOut => .network (.timeout n)

/-- What a TMGI of a request is to be told. Some TMGIs of an allocation that falls short are
refused. -/
def ToBeTold (x : Xact) (result : CallbackResult) (problem : Option ProblemDetails) :
    TransactionOutcome → Prop
  | .timedOut => result = .ogsTimedOut ∧ problem = none
  | .response rsp =>
      if rsp.parsed = false then result = .ogsError ∧ problem = none
      else if isSuccess rsp.status then
        problem = none ∧ match x.request with
          | .tmgiDeallocate _ => result = .ogsDone
          | _ => result = .ogsOk ∨ result = .ogsError ∧
              (listedTmgis rsp).length < (requestersTmgis x.requester).length
      else result = .ogsError ∧ problem = rsp.problemDetails

/-- The outcome is handled, and each TMGI of the request that has a callback gets one call. -/
def CallbacksComplete (w : World) (x : Xact) (o : TransactionOutcome) : Prop :=
  ∃ w', step w (outcomeEvent x.id o) = .ok w' ∧ ∀ t ∈ requestersTmgis x.requester, ∀ cb,
    tmgiCallbackOf w t = some cb → ∃ result problem, ToBeTold x result problem o ∧
      callsOf x.id t w'.log = (cb, result, problem) :: callsOf x.id t w.log

/-! ## The condition -/

/-- The first registered objects that fit the TMGIs of an answer, each with the TMGIs before
it given away. -/
def fittedInTurn (expiryTime : ℤ) (registry : List Ref) : Store PrivTmgi → List ApiTmgi → List Ref
  | _, [] => []
  | store, api :: apis =>
      match registry.find? fun t => (store t).any (tmgiMatches api) with
      | none => fittedInTurn expiryTime registry store apis
      | some t => t :: fittedInTurn expiryTime registry (store.modify t (granted api expiryTime)) apis

/-- The first registered objects that have the contents, each without those found before. -/
def foundInTurn (store : Store PrivTmgi) : List Ref → List Tmgi → List Ref
  | _, [] => []
  | registry, c :: cs =>
      match registry.find? fun t => (store t).any (tmgiMatches (tmgiToOpenapiType c)) with
      | none => foundInTurn store registry cs
      | some t => t :: foundInTurn store (registry.erase t) cs

/-- Where the TMGIs of a request are looked for: by the SBI object, in the answer, or by the
contents that the request was built with. -/
def recovered (w : World) (x : Xact) : TransactionOutcome → List Ref
  | .timedOut =>
      if contextSbiObjectToSession w x.sbiObject = none then []
      else
        match x.request with
        | .tmgiAllocate .. => (contextSbiObjectToTmgi w x.sbiObject).toList
        | _ => []
  | .response rsp =>
      if contextSbiObjectToSession w x.sbiObject = none ∧
          contextSbiObjectToTmgi w x.sbiObject = none then []
      else if rsp.parsed = false then (contextSbiObjectToTmgi w x.sbiObject).toList
      else
        match x.request with
        | .tmgiAllocate _ refresh =>
            if isSuccess rsp.status then
              fittedInTurn (expiryOf rsp) w.tmgis w.tmgiStore (reachedTmgis rsp)
            else refresh.filterMap fun c => tmgiFindMatchingOpenapiType w (tmgiToOpenapiType c)
        | .tmgiDeallocate contents => foundInTurn w.tmgiStore w.tmgis contents
        | _ => []

/-- The outcome is handled through the TMGI that shares the SBI object of the transaction. -/
def ReadsTmgi (w : World) (x : Xact) : TransactionOutcome → Prop
  | .timedOut => contextSbiObjectToSession w x.sbiObject ≠ none ∧
      ∃ newTmgis refresh, x.request = .tmgiAllocate newTmgis refresh
  | .response rsp => contextSbiObjectToSession w x.sbiObject ≠ none ∧
      (rsp.parsed = false ∨ ∃ contents, x.request = .tmgiDeallocate contents)

structure EachRecovered (w : World) (x : Xact) (o : TransactionOutcome) : Prop where
  read : ReadsTmgi w x o → contextSbiObjectToTmgi w x.sbiObject ≠ none
  once : ∀ t ∈ requestersTmgis x.requester, (tmgiCallbackOf w t).isSome = true →
    (recovered w x o).count t = 1

/-- What parsing a response leaves of its status. -/
def StatusKept : TransactionOutcome → Prop
  | .timedOut => True
  | .response rsp => rsp.parsed = true → rsp.resStatus = rsp.status

/-! ## Calls -/

/-- From `w` to `w'` the objects `ts` were called, in this order. -/
structure Calls (n : ℕ) (result : CallbackResult) (problem : Option ProblemDetails)
    (ts : List Ref) (w w' : World) : Prop where
  callback : ∀ t, tmgiCallbackOf w' t = tmgiCallbackOf w t
  calls : ∀ t cb, tmgiCallbackOf w t = some cb → callsOf n t w'.log =
    List.replicate (ts.count t) (cb, result, problem) ++ callsOf n t w.log

namespace Calls

variable {result : CallbackResult} {problem : Option ProblemDetails} {ts us : List Ref}

theorem nil (hstore : ∀ t, tmgiCallbackOf w' t = tmgiCallbackOf w t)
    (hlog : ∀ t, callsOf n t w'.log = callsOf n t w.log) : Calls n result problem [] w w' :=
  ⟨hstore, fun t _ _ => hlog t⟩

theorem refl (w : World) : Calls n result problem [] w w := nil (fun _ => rfl) fun _ => rfl

theorem trans (h₁ : Calls n result problem ts w v) (h₂ : Calls n result problem us v w') :
    Calls n result problem (ts ++ us) w w' := by
  refine ⟨fun t => (h₂.callback t).trans (h₁.callback t), fun t cb hcb => ?_⟩
  rw [h₂.calls t cb ((h₁.callback t).trans hcb), h₁.calls t cb hcb, List.count_append,
    ← List.append_assoc, List.replicate_append_replicate, Nat.add_comm]

/-- One call, if the object has a callback. -/
theorem one (hcallback : ∀ q, tmgiCallbackOf w' q = tmgiCallbackOf w q)
    (hlog : w'.log = ((tmgiCallbackOf w t).map fun cb =>
      .tmgiCallback n t cb result problem).toList ++ w.log) : Calls n result problem [t] w w' := by
  refine ⟨hcallback, fun q cb hq => ?_⟩
  rw [hlog, List.count_singleton]
  by_cases hne : t = q
  · subst hne
    rw [hq]
    simp [callsOf, callOf]
  · cases hcb : tmgiCallbackOf w t with
    | none => simp [hne]
    | some cb => simp [callsOf, callOf, hne]

theorem tmgiDoCallback (hlive : (w.tmgiStore t).isSome = true) :
    ∃ w', tmgiDoCallback w n t result problem = .ok w' ∧
      Calls n result problem [t] w w' ∧ w'.tmgis = w.tmgis ∧ w'.tmgiStore = w.tmgiStore := by
  obtain ⟨y, hy⟩ := Option.isSome_iff_exists.1 hlive
  have hcallback : tmgiCallbackOf w t = y.callback := by rw [tmgiCallbackOf, hy, Option.bind_some]
  cases hcb : y.callback with
  | none =>
      refine ⟨w, ?_, one (fun _ => rfl) (by rw [hcallback, hcb]; rfl), rfl, rfl⟩
      simp only [ResponseHandlers.tmgiDoCallback, bind_eq_ok, World.tmgiAt_eq_ok]
      exact ⟨y, hy, by rw [hcb]⟩
  | some cb =>
      refine ⟨w.say (.tmgiCallback n t cb result problem), ?_,
        one (fun _ => rfl) (by rw [hcallback, hcb]; rfl), rfl, rfl⟩
      simp only [ResponseHandlers.tmgiDoCallback, bind_eq_ok, World.tmgiAt_eq_ok]
      exact ⟨y, hy, by rw [hcb]⟩

end Calls

theorem live_of_find {p : PrivTmgi → Bool}
    (h : w.tmgis.find? (fun t => (w.tmgiStore t).any p) = some t) :
    (w.tmgiStore t).isSome = true := by
  have hany : (w.tmgiStore t).any p = true := by
    have hp := List.find?_some h
    exact hp
  obtain ⟨y, hy, -⟩ := (Option.any_eq_true _ _).1 hany
  rw [hy]
  rfl

/-! ## The loops of the handlers -/

theorem calls_takeAllocated {expiryTime : ℤ} (apis : List ApiTmgi) (w : World) :
    ∃ w', apis.foldlM (takeAllocated n expiryTime) w = .ok w' ∧
      Calls n .ogsOk none (fittedInTurn expiryTime w.tmgis w.tmgiStore apis) w w' := by
  induction apis generalizing w with
  | nil => exact ⟨w, rfl, Calls.refl w⟩
  | cons api apis ih =>
      cases hfind : tmgiFindMatchingOpenapiType w api with
      | none =>
          obtain ⟨w', hrun, hcalls⟩ := ih w
          refine ⟨w', ?_, ?_⟩
          · rw [List.foldlM_cons, bind_eq_ok]
            exact ⟨w, takeAllocated_of_none hfind, hrun⟩
          · rw [fittedInTurn, ← tmgiFindMatchingOpenapiType, hfind]
            exact hcalls
      | some t =>
          obtain ⟨y, v, hy, -, hv, htmgis, hstore, hlog⟩ :=
            takeAllocated_of_some (n := n) (e := expiryTime) hfind
          obtain ⟨w', hrun, hcalls⟩ := ih v
          have hcallback : ∀ q, tmgiCallbackOf v q = tmgiCallbackOf w q := by
            intro q
            rw [tmgiCallbackOf, tmgiCallbackOf, hstore]
            by_cases hq : q = t
            · subst hq
              rw [Store.modify_self, hy]
              rfl
            · rw [Store.modify_of_ne _ _ _ hq]
          have hone : Calls n .ogsOk none [t] w v := by
            refine Calls.one hcallback ?_
            rw [hlog, tmgiCallbackOf, hy, Option.bind_some]
          refine ⟨w', ?_, ?_⟩
          · rw [List.foldlM_cons, bind_eq_ok]
            exact ⟨v, hv, hrun⟩
          · rw [fittedInTurn, ← tmgiFindMatchingOpenapiType, hfind]
            rw [htmgis, hstore] at hcalls
            exact hone.trans hcalls

theorem calls_reportRefused {problem : Option ProblemDetails} (contents : List Tmgi) (w : World) :
    ∃ w', contents.foldlM (reportRefused n problem) w = .ok w' ∧
      Calls n .ogsError problem
        (contents.filterMap fun c => tmgiFindMatchingOpenapiType w (tmgiToOpenapiType c)) w w' := by
  induction contents generalizing w with
  | nil => exact ⟨w, rfl, Calls.refl w⟩
  | cons c contents ih =>
      cases hfind : tmgiFindMatchingOpenapiType w (tmgiToOpenapiType c) with
      | none =>
          obtain ⟨w', hrun, hcalls⟩ := ih w
          refine ⟨w', ?_, ?_⟩
          · rw [List.foldlM_cons, bind_eq_ok]
            exact ⟨w, by rw [reportRefused, hfind], hrun⟩
          · simp only [List.filterMap_cons, hfind]
            exact hcalls
      | some t =>
          obtain ⟨v, hv, hone, htmgis, hstore⟩ : ∃ v, tmgiDoCallback w n t .ogsError problem = .ok v ∧
              Calls n .ogsError problem [t] w v ∧ v.tmgis = w.tmgis ∧ v.tmgiStore = w.tmgiStore :=
            Calls.tmgiDoCallback (live_of_find hfind)
          obtain ⟨w', hrun, hcalls⟩ := ih v
          refine ⟨w', ?_, ?_⟩
          · rw [List.foldlM_cons, bind_eq_ok]
            exact ⟨v, by rw [reportRefused, hfind]; exact hv, hrun⟩
          · simp only [List.filterMap_cons, hfind]
            have hsame : (fun c => tmgiFindMatchingOpenapiType v (tmgiToOpenapiType c)) =
                fun c => tmgiFindMatchingOpenapiType w (tmgiToOpenapiType c) := by
              funext c
              rw [tmgiFindMatchingOpenapiType, tmgiFindMatchingOpenapiType, htmgis, hstore]
            rw [hsame] at hcalls
            exact hone.trans hcalls

/-- What the TMGIs of a deallocation are told. -/
def removalResult (rsp : Response) : CallbackResult × Option ProblemDetails :=
  if isSuccess rsp.resStatus then (.ogsDone, none) else (.ogsError, rsp.problemDetails)

theorem calls_doTmgiRemove (contents : List Tmgi) (w : World) :
    ∃ w', contents.foldlM (doTmgiRemove n rsp) w = .ok w' ∧
      Calls n (removalResult rsp).1 (removalResult rsp).2
        (foundInTurn w.tmgiStore w.tmgis contents) w w' := by
  induction contents generalizing w with
  | nil => exact ⟨w, rfl, Calls.refl w⟩
  | cons c contents ih =>
      cases hfind : tmgiFindMatchingOpenapiType w (tmgiToOpenapiType c) with
      | none =>
          obtain ⟨w', hrun, hcalls⟩ := ih w
          refine ⟨w', ?_, ?_⟩
          · rw [List.foldlM_cons, bind_eq_ok]
            exact ⟨w, doTmgiRemove_not_found hfind, hrun⟩
          · rw [foundInTurn, ← tmgiFindMatchingOpenapiType, hfind]
            exact hcalls
      | some t =>
          obtain ⟨u, hu, hone, htmgis, hstore⟩ :
              ∃ u, tmgiDoCallback w n t (removalResult rsp).1 (removalResult rsp).2 = .ok u ∧
                Calls n (removalResult rsp).1 (removalResult rsp).2 [t] w u ∧
                u.tmgis = w.tmgis ∧ u.tmgiStore = w.tmgiStore :=
            Calls.tmgiDoCallback (live_of_find hfind)
          have hmem : t ∈ u.tmgis := by
            rw [htmgis]
            exact List.mem_of_find?_eq_some hfind
          obtain ⟨w', hrun, hcalls⟩ := ih { u with tmgis := u.tmgis.erase t }
          refine ⟨w', ?_, ?_⟩
          · rw [List.foldlM_cons, bind_eq_ok]
            refine ⟨_, ?_, hrun⟩
            simp only [doTmgiRemove, hfind, bind_eq_ok]
            refine ⟨u, ?_, contextRemoveTmgi_eq_ok.2 ⟨hmem, rfl⟩⟩
            rw [← hu, removalResult]
            split <;> rfl
          · rw [foundInTurn, ← tmgiFindMatchingOpenapiType, hfind, ← htmgis, ← hstore]
            have hleft : Calls n (removalResult rsp).1 (removalResult rsp).2 [] u
                { u with tmgis := u.tmgis.erase t } := .nil (fun _ => rfl) fun _ => rfl
            exact hone.trans (hleft.trans hcalls)

/-! ## Outcomes -/

/-- What the library tells the TMGIs that it recovers. -/
def told (x : Xact) : TransactionOutcome → CallbackResult × Option ProblemDetails
  | .timedOut => (.ogsTimedOut, none)
  | .response rsp =>
      if rsp.parsed = false then (.ogsError, none)
      else if isSuccess rsp.status then
        match x.request with
        | .tmgiDeallocate _ => (.ogsDone, none)
        | _ => (.ogsOk, none)
      else (.ogsError, rsp.problemDetails)

theorem toBeTold_told : ToBeTold x (told x o).1 (told x o).2 o := by
  cases o with
  | timedOut => exact ⟨rfl, rfl⟩
  | response rsp =>
      by_cases hparsed : rsp.parsed = false
      · simp [ToBeTold, told, hparsed]
      · by_cases hstatus : isSuccess rsp.status = true
        · cases hrequest : x.request <;> simp [ToBeTold, told, hparsed, hstatus, hrequest]
        · simp [ToBeTold, told, hparsed, hstatus]

theorem callsOf_finishEvent (m : ℕ) (held : Option Ref) (t : Ref) :
    callsOf n t (finishEvent m held w).log = callsOf n t w.log := by
  obtain ⟨⟨new, hlog, hnew, -⟩, -⟩ := extends_finishEvent (w := w)
    (A := fun o => callOf n t o = none) (fun _ => rfl) m held
  have hnone : new.filterMap (callOf n t) = [] := by
    rw [List.filterMap_eq_nil_iff]
    exact hnew
  rw [callsOf, callsOf, hlog, List.filterMap_append, hnone]
  rfl

theorem calls_finishEvent {result : CallbackResult} {problem : Option ProblemDetails} (m : ℕ)
    (held : Option Ref) : Calls n result problem [] w (finishEvent m held w) := by
  refine .nil (fun t => ?_) (callsOf_finishEvent m held)
  have hstore : (finishEvent m held w).tmgiStore = w.tmgiStore :=
    World.refCountSbiObjectUnref_tmgiStore _ _
  rw [tmgiCallbackOf, tmgiCallbackOf, hstore]

/-- The state in which a timeout is reported. -/
def timeoutState (w : World) (x : Xact) (s : Ref) : World :=
  (w.say (.timedOut x)).say (.handled x.id (some s) (contextSbiObjectToTmgi w x.sbiObject))

theorem processTimeout_none (hx : w.findXact x.id = some x)
    (hs : contextSbiObjectToSession w x.sbiObject = none) :
    processTimeout w x.id = .ok (w.say (.timedOut x)) := by
  have hsearch : contextSbiObjectToSession (w.say (.timedOut x)) x.sbiObject = none := hs
  simp only [processTimeout, hx, hsearch]

theorem processTimeout_some (hx : w.findXact x.id = some x)
    (hs : contextSbiObjectToSession w x.sbiObject = some s) :
    processTimeout w x.id =
      reportTimeout (timeoutState w x s) x s (contextSbiObjectToTmgi w x.sbiObject) >>=
        fun v => .ok (v.removeXact x.id) := by
  have hsearch : contextSbiObjectToSession (w.say (.timedOut x)) x.sbiObject = some s := hs
  simp only [processTimeout, hx, hsearch]
  rfl

/-- An allocation that is not answered is reported to the TMGI that shares its SBI object. -/
theorem calls_timeout (hx : w.findXact x.id = some x) (hservice : x.request.isTmgi = true)
    (hread : ReadsTmgi w x .timedOut → contextSbiObjectToTmgi w x.sbiObject ≠ none) :
    ∃ w', processTimeout w x.id = .ok w' ∧
      Calls x.id .ogsTimedOut none (recovered w x .timedOut) w w' := by
  cases hs : contextSbiObjectToSession w x.sbiObject with
  | none =>
      refine ⟨_, processTimeout_none hx hs, ?_⟩
      rw [recovered, if_pos hs]
      exact .nil (fun _ => rfl) fun _ => rfl
  | some s =>
      have hstart : Calls x.id .ogsTimedOut none [] w (timeoutState w x s) :=
        .nil (fun _ => rfl) fun _ => rfl
      have hend : ∀ v : World, Calls x.id .ogsTimedOut none [] v (v.removeXact x.id) :=
        fun v => .nil (fun _ => rfl) fun _ => rfl
      have hsome : contextSbiObjectToSession w x.sbiObject ≠ none := by
        rw [hs]
        exact Option.some_ne_none s
      cases hrequest : x.request with
      | tmgiAllocate newTmgis refresh =>
          obtain ⟨t, ht⟩ := Option.ne_none_iff_exists'.1 (hread ⟨hsome, newTmgis, refresh, hrequest⟩)
          have hlive : ((timeoutState w x s).tmgiStore t).isSome = true := live_of_find ht
          obtain ⟨v, hv, hone, -⟩ := Calls.tmgiDoCallback hlive
          refine ⟨v.removeXact x.id, ?_, ?_⟩
          · rw [processTimeout_some hx hs, bind_eq_ok]
            simp only [reportTimeout, hrequest, ht]
            exact ⟨v, hv, rfl⟩
          · simp only [recovered, if_neg hsome, hrequest, ht]
            exact (hstart.trans hone).trans (hend v)
      | tmgiDeallocate contents =>
          refine ⟨(timeoutState w x s).removeXact x.id, ?_, ?_⟩
          · rw [processTimeout_some hx hs, bind_eq_ok]
            simp only [reportTimeout, hrequest]
            exact ⟨_, rfl, rfl⟩
          · simp only [recovered, if_neg hsome, hrequest]
            exact hstart.trans (hend _)
      | _ =>
          rw [hrequest] at hservice
          cases hservice

/-- Without a TMGI to read the handler runs into a null pointer. -/
theorem timeout_reads_null (hx : w.findXact x.id = some x) (hread : ReadsTmgi w x .timedOut)
    (hnone : contextSbiObjectToTmgi w x.sbiObject = none) :
    processTimeout w x.id = .error .nullTmgi := by
  obtain ⟨hsome, newTmgis, refresh, hrequest⟩ := hread
  obtain ⟨s, hs⟩ := Option.ne_none_iff_exists'.1 hsome
  rw [processTimeout_some hx hs, hnone]
  simp only [reportTimeout, hrequest]
  rfl

theorem processResponse_none (hsent : w.findSent x.id = some x) (hx : w.findXact x.id = some x)
    (hnone : contextSbiObjectToSession w x.sbiObject = none ∧
      contextSbiObjectToTmgi w x.sbiObject = none) :
    processResponse w x.id rsp = .ok (w.say (.answered x rsp)) := by
  have hfind : (w.say (.answered x rsp)).findXact x.id = some x := hx
  have hsearch : contextSbiObjectToSession (w.say (.answered x rsp)) x.sbiObject = none ∧
      contextSbiObjectToTmgi (w.say (.answered x rsp)) x.sbiObject = none := hnone
  simp only [processResponse, hsent, hfind, if_pos hsearch]

theorem processResponse_tmgi (hsent : w.findSent x.id = some x) (hx : w.findXact x.id = some x)
    (hservice : x.request.isTmgi = true)
    (hfound : ¬(contextSbiObjectToSession w x.sbiObject = none ∧
      contextSbiObjectToTmgi w x.sbiObject = none)) :
    processResponse w x.id rsp =
      processTmgiResponse (handlingState w x rsp) x (contextSbiObjectToTmgi w x.sbiObject) rsp >>=
        fun v => .ok (finishEvent x.id (heldByTmgiResponse (handlingState w x rsp) x
          (contextSbiObjectToTmgi w x.sbiObject) rsp) v) := by
  have hfind : (w.say (.answered x rsp)).findXact x.id = some x := hx
  have hsearch : ¬(contextSbiObjectToSession (w.say (.answered x rsp)) x.sbiObject = none ∧
      contextSbiObjectToTmgi (w.say (.answered x rsp)) x.sbiObject = none) := hfound
  simp only [processResponse, hsent, hfind, if_neg hsearch, hservice, if_true]
  rfl

/-- What the branch for the TMGI service makes of a response. -/
theorem calls_processTmgiResponse {tmgi : Option Ref} (hservice : x.request.isTmgi = true)
    (hkept : rsp.parsed = true → rsp.resStatus = rsp.status)
    (hread : rsp.parsed = false ∨ (∃ contents, x.request = .tmgiDeallocate contents) →
      ∃ t, tmgi = some t ∧ (w.tmgiStore t).isSome = true) :
    ∃ w', processTmgiResponse w x tmgi rsp = .ok w' ∧
      Calls x.id (told x (.response rsp)).1 (told x (.response rsp)).2
        (if rsp.parsed = false then tmgi.toList
          else
            match x.request with
            | .tmgiAllocate _ refresh =>
                if isSuccess rsp.status then
                  fittedInTurn (expiryOf rsp) w.tmgis w.tmgiStore (reachedTmgis rsp)
                else refresh.filterMap fun c => tmgiFindMatchingOpenapiType w (tmgiToOpenapiType c)
            | .tmgiDeallocate contents => foundInTurn w.tmgiStore w.tmgis contents
            | _ => []) w w' := by
  by_cases hparsed : rsp.parsed = false
  · obtain ⟨t, rfl, hlive⟩ := hread (.inl hparsed)
    obtain ⟨w', hrun, hone, -⟩ : ∃ w', tmgiDoCallback w x.id t .ogsError none = .ok w' ∧
        Calls x.id .ogsError none [t] w w' ∧ w'.tmgis = w.tmgis ∧ w'.tmgiStore = w.tmgiStore :=
      Calls.tmgiDoCallback hlive
    refine ⟨w', ?_, ?_⟩
    · rw [processTmgiResponse, hparsed]
      exact hrun
    · rw [told, if_pos hparsed, if_pos hparsed]
      exact hone
  · have htrue : rsp.parsed = true := by simpa using hparsed
    have hstatus := hkept htrue
    simp only [processTmgiResponse, told, htrue, Bool.not_true, Bool.false_eq_true, if_false]
    cases hrequest : x.request with
    | tmgiAllocate newTmgis refresh =>
        simp only [Request.method]
        by_cases hok : isSuccess rsp.status = true
        · rw [nmbsmfTmgiAllocated_of_success (hstatus ▸ hok)]
          simp only [hok, if_true]
          exact calls_takeAllocated (reachedTmgis rsp) w
        · rw [nmbsmfTmgiAllocated, hstatus, if_neg hok, hrequest, requestTmgis]
          simp only [if_neg hok]
          exact calls_reportRefused refresh w
    | tmgiDeallocate contents =>
        simp only [Request.method]
        obtain ⟨t, rfl, hlive⟩ := hread (.inr ⟨contents, hrequest⟩)
        obtain ⟨y, hy⟩ := Option.isSome_iff_exists.1 hlive
        have hheld : Calls x.id (removalResult rsp).1 (removalResult rsp).2 [] w
            (w.refCountSbiObjectRef y.sbiObject) := by
          cases y.sbiObject <;> exact .nil (fun _ => rfl) fun _ => rfl
        obtain ⟨w', hrun, hcalls⟩ : ∃ w', contents.foldlM (doTmgiRemove x.id rsp)
            (w.refCountSbiObjectRef y.sbiObject) = .ok w' ∧
            Calls x.id (removalResult rsp).1 (removalResult rsp).2 _ _ w' :=
          calls_doTmgiRemove contents _
        rw [World.refCountSbiObjectRef_tmgis, World.refCountSbiObjectRef_tmgiStore] at hcalls
        refine ⟨w', ?_, ?_⟩
        · simp only [bind_eq_ok, World.tmgiAt_eq_ok]
          refine ⟨y, hy, ?_⟩
          rw [nmbsmfTmgiDeallocated, hrequest, requestTmgis]
          exact hrun
        · rw [← hstatus]
          exact hheld.trans hcalls
    | _ =>
        rw [hrequest] at hservice
        cases hservice

theorem calls_response (hsent : w.findSent x.id = some x) (hx : w.findXact x.id = some x)
    (hservice : x.request.isTmgi = true) (hkept : rsp.parsed = true → rsp.resStatus = rsp.status)
    (hread : ReadsTmgi w x (.response rsp) → contextSbiObjectToTmgi w x.sbiObject ≠ none) :
    ∃ w', processResponse w x.id rsp = .ok w' ∧ Calls x.id (told x (.response rsp)).1
      (told x (.response rsp)).2 (recovered w x (.response rsp)) w w' := by
  by_cases hfound : contextSbiObjectToSession w x.sbiObject = none ∧
      contextSbiObjectToTmgi w x.sbiObject = none
  · refine ⟨_, processResponse_none hsent hx hfound, ?_⟩
    rw [recovered, if_pos hfound]
    exact .nil (fun _ => rfl) fun _ => rfl
  · have hsome : rsp.parsed = false ∨ (∃ contents, x.request = .tmgiDeallocate contents) →
        ∃ t, contextSbiObjectToTmgi w x.sbiObject = some t ∧ (w.tmgiStore t).isSome = true := by
      intro hneeds
      have htmgi : contextSbiObjectToTmgi w x.sbiObject ≠ none := by
        intro hnone
        exact hread ⟨fun hs => hfound ⟨hs, hnone⟩, hneeds⟩ hnone
      obtain ⟨t, ht⟩ := Option.ne_none_iff_exists'.1 htmgi
      exact ⟨t, ht, live_of_find ht⟩
    obtain ⟨v, hv, hcalls⟩ := calls_processTmgiResponse (w := handlingState w x rsp) hservice hkept
      hsome
    refine ⟨_, by rw [processResponse_tmgi hsent hx hservice hfound, bind_eq_ok]; exact ⟨v, hv, rfl⟩,
      ?_⟩
    have hstart : Calls x.id (told x (.response rsp)).1 (told x (.response rsp)).2 [] w
        (handlingState w x rsp) := .nil (fun _ => rfl) fun _ => rfl
    rw [recovered, if_neg hfound]
    have hall := (hstart.trans hcalls).trans (calls_finishEvent x.id
      (heldByTmgiResponse (handlingState w x rsp) x (contextSbiObjectToTmgi w x.sbiObject) rsp))
    rw [List.nil_append, List.append_nil] at hall
    exact hall

theorem response_reads_null (hsent : w.findSent x.id = some x) (hx : w.findXact x.id = some x)
    (hservice : x.request.isTmgi = true) (hread : ReadsTmgi w x (.response rsp))
    (hnone : contextSbiObjectToTmgi w x.sbiObject = none) :
    processResponse w x.id rsp = .error .nullTmgi := by
  obtain ⟨hsome, hneeds⟩ := hread
  rw [processResponse_tmgi hsent hx hservice fun h => hsome h.1, hnone]
  by_cases hparsed : rsp.parsed = false
  · rw [processTmgiResponse, hparsed]
    rfl
  · obtain ⟨contents, hrequest⟩ := hneeds.resolve_left hparsed
    have htrue : rsp.parsed = true := by simpa using hparsed
    rw [processTmgiResponse, htrue, hrequest]
    rfl

/-! ## The equivalence -/

/-- An outcome is handled, with the calls that the recovered objects get. -/
theorem calls_outcome (hsound : XactsSound w) (hx : x ∈ w.xacts)
    (hservice : x.request.isTmgi = true) (hkept : StatusKept o)
    (hread : ReadsTmgi w x o → contextSbiObjectToTmgi w x.sbiObject ≠ none) :
    ∃ w', step w (outcomeEvent x.id o) = .ok w' ∧
      Calls x.id (told x o).1 (told x o).2 (recovered w x o) w w' := by
  have hfind := hsound.findXact_eq hx
  cases o with
  | timedOut => exact calls_timeout hfind hservice hread
  | response rsp =>
      exact calls_response (findSent_of_findXact hsound hfind) hfind hservice hkept hread

theorem outcome_reads_null (hsound : XactsSound w) (hx : x ∈ w.xacts)
    (hservice : x.request.isTmgi = true) (hread : ReadsTmgi w x o)
    (hnone : contextSbiObjectToTmgi w x.sbiObject = none) :
    step w (outcomeEvent x.id o) = .error .nullTmgi := by
  have hfind := hsound.findXact_eq hx
  cases o with
  | timedOut => exact timeout_reads_null hfind hread hnone
  | response rsp =>
      exact response_reads_null (findSent_of_findXact hsound hfind) hfind hservice hread hnone

/-- The callbacks are complete exactly when the outcome is handled without a null pointer and
recovers each TMGI of the request that has a callback once. -/
theorem callbacks_complete_iff (hrun : Reachable step World.initial w) (hx : x ∈ w.xacts)
    (hservice : x.request.isTmgi = true) (hkept : StatusKept o) :
    CallbacksComplete w x o ↔ EachRecovered w x o := by
  have hsound := (sound_of_run hrun).xacts
  constructor
  · rintro ⟨w', hstep, hcomplete⟩
    have hread : ReadsTmgi w x o → contextSbiObjectToTmgi w x.sbiObject ≠ none := by
      intro hread hnone
      rw [outcome_reads_null hsound hx hservice hread hnone] at hstep
      cases hstep
    refine ⟨hread, fun t ht hsome => ?_⟩
    obtain ⟨cb, hcb⟩ := Option.isSome_iff_exists.1 hsome
    obtain ⟨result, problem, -, honce⟩ := hcomplete t ht cb hcb
    obtain ⟨v, hv, hcalls⟩ := calls_outcome hsound hx hservice hkept hread
    obtain rfl := Except.ok.inj (hstep.symm.trans hv)
    have hlength := congrArg List.length ((hcalls.calls t cb hcb).symm.trans honce)
    rw [List.length_append, List.length_replicate, List.length_cons] at hlength
    omega
  · rintro ⟨hread, honce⟩
    obtain ⟨w', hstep, hcalls⟩ := calls_outcome hsound hx hservice hkept hread
    refine ⟨w', hstep, fun t ht cb hcb => ⟨_, _, toBeTold_told, ?_⟩⟩
    rw [hcalls.calls t cb hcb, honce t ht (by rw [hcb]; rfl)]
    rfl

/-! ## An allocation -/

def allocatingState : World := advance step World.initial (.tmgi (.create (some application)))

def allocatingXact : Xact :=
  { id := 3, sbiObject := 2, requester := .tmgis [1], request := .tmgiAllocate 1 [] }

theorem allocatingXact_mem : allocatingXact ∈ allocatingState.xacts := List.mem_singleton_self _

theorem allocatingState_reachable : Reachable step World.initial allocatingState :=
  Reachable.of_events [Event.tmgi (.create (some application))]

/-- A new TMGI is not told that it was refused. -/
theorem refused_allocation_is_not_told : ¬∀ w x o, Reachable step World.initial w →
    x ∈ w.xacts → x.request.isTmgi = true → StatusKept o → CallbacksComplete w x o := by
  intro h
  obtain ⟨w', hstep, hcomplete⟩ := h _ _ (.response { status := 403, resStatus := 403 })
    allocatingState_reachable allocatingXact_mem rfl fun _ => rfl
  obtain ⟨result, problem, -, hcalls⟩ := hcomplete 1 List.mem_cons_self application
    (by decide +kernel)
  have hafter : (step allocatingState (outcomeEvent 3
      (.response { status := 403, resStatus := 403 }))).toOption.map (fun w => callsOf 3 1 w.log) =
        some [] := by decide +kernel
  rw [show step allocatingState (outcomeEvent 3 (.response { status := 403, resStatus := 403 })) =
    .ok w' from hstep] at hafter
  simp only [Except.toOption, Option.map_some, Option.some.injEq] at hafter
  have hnone := hafter.symm.trans hcalls
  cases hnone

/-- One that is accepted is told so, once. -/
theorem accepted_allocation_is_told : CallbacksComplete allocatingState allocatingXact
    (.response
      { status := 200, resStatus := 200,
        tmgiAllocated := some
          { tmgiList :=
              [some
                { mbsServiceId := some "000001", mcc := "001", mnc := "01", mccNumber := 1,
                  mncNumber := 1 }],
            expiryTime := 1000 } }) := by
  refine (callbacks_complete_iff allocatingState_reachable allocatingXact_mem rfl ?_).2 ?_
  · exact fun _ => rfl
  refine ⟨fun _ => ?_, fun t ht _ => ?_⟩
  · decide +kernel
  · rw [List.mem_singleton.1 ht]
    decide +kernel

end ServiceConsumers.TmgiCallbacks
