import ServiceConsumers.FirstFits
import ServiceConsumers.SbiReferences
import ServiceConsumers.TmgiRegistry

set_option autoImplicit false

/-!
# Deallocations of TMGIs

A response to a deallocation says which TMGIs went by what its request said about them. The
objects are looked for again in the registry, and are taken out whether the MB-SMF released
them or not.
-/

namespace ServiceConsumers.TmgiDeallocations

open ObjectStore PublicSessions ConsumerState TmgiOperations ResponseHandlers ProcessEvent TransitionRuns
  TransactionLog SbiReferences EventEffects StepDecomposition TmgiSteps TmgiRegistry FirstFits

/-! ## What is to hold -/

/-- The request that asked for the release of these objects, with these contents. -/
structure Deallocation (w : World) (n : ℕ) (x : Xact) (ts : List Ref) (contents : List Tmgi) :
    Prop where
  sent : w.findSent n = some x
  requester : x.requester = .tmgis ts
  request : x.request = .tmgiDeallocate contents

/-- The release was accepted. -/
def Accepted (rsp : Response) : Prop := rsp.parsed = true ∧ isSuccess rsp.status = true

instance (rsp : Response) : Decidable (Accepted rsp) := by unfold Accepted; infer_instance

/-- The object is as it was, and so is the SBI object for its next request. -/
structure StaysUsable (w w' : World) (t : Ref) : Prop where
  object : w'.tmgiStore t = w.tmgiStore t
  sbiObject : ∀ x o, w.tmgiStore t = some x → x.sbiObject = some o →
    w'.sbiObjects o = w.sbiObjects o

/-- The objects leave the registry if their release was accepted. If it was not, none does. -/
def ReleasesExactly (w : World) (n : ℕ) (rsp : Response) (ts : List Ref) : Prop :=
  ∃ w', step w (.network (.response n rsp)) = .ok w' ∧
    if Accepted rsp then w'.tmgis = w.tmgis.filter fun t => !decide (t ∈ ts)
    else w'.tmgis = w.tmgis ∧ ∀ t ∈ w.tmgis, StaysUsable w w' t

/-! ## The condition -/

/-- The transaction is outstanding and somebody still has its SBI object. -/
def Handled (w : World) (n : ℕ) (x : Xact) : Prop :=
  (w.findXact n).isSome = true ∧ ¬(contextSbiObjectToSession w x.sbiObject = none ∧
    contextSbiObjectToTmgi w x.sbiObject = none)

instance (w : World) (n : ℕ) (x : Xact) : Decidable (Handled w n x) := by
  unfold Handled
  infer_instance

/-- An accepted release finds its objects by their contents, a refused one finds nothing, and
where the response is not handled there is nothing to be taken out. -/
def FindsReleased (w : World) (n : ℕ) (rsp : Response) (x : Xact) (ts : List Ref)
    (contents : List Tmgi) : Prop :=
  if Handled w n x then
    contextSbiObjectToTmgi w x.sbiObject ≠ none ∧ (rsp.parsed = true →
      if isSuccess rsp.status = true then
        TakesOut (fitsContent w) (fun t => decide (t ∈ ts)) w.tmgis contents
      else ∀ c ∈ contents, ∀ t ∈ w.tmgis, fitsContent w c t = false)
  else Accepted rsp → ∀ t ∈ ts, t ∉ w.tmgis

variable {w w' v : World} {n : ℕ} {rsp : Response} {x : Xact} {t : Ref} {ts : List Ref}
  {c : Tmgi} {contents : List Tmgi}

/-! ## Taking objects out -/

/-- Everything but the log and the registry. -/
structure SameObjects (w w' : World) : Prop where
  store : w'.tmgiStore = w.tmgiStore
  sbiObjects : w'.sbiObjects = w.sbiObjects

namespace SameObjects

theorem refl (w : World) : SameObjects w w := ⟨rfl, rfl⟩

theorem trans (h₁ : SameObjects w v) (h₂ : SameObjects v w') : SameObjects w w' :=
  ⟨h₂.store.trans h₁.store, h₂.sbiObjects.trans h₁.sbiObjects⟩

theorem staysUsable (h : SameObjects w w') (t : Ref) : StaysUsable w w' t :=
  ⟨congrFun h.store t, fun _ o _ _ => congrFun h.sbiObjects o⟩

theorem fitsContent (h : SameObjects w w') : fitsContent w' = fitsContent w := by
  funext c t
  rw [TmgiRegistry.fitsContent, TmgiRegistry.fitsContent, h.store]

end SameObjects

theorem exists_tmgiDoCallback (n : ℕ) (result : CallbackResult) (problem : Option ProblemDetails)
    (hlive : (w.tmgiStore t).isSome = true) :
    ∃ v, tmgiDoCallback w n t result problem = .ok v ∧ v.tmgis = w.tmgis ∧ SameObjects w v := by
  obtain ⟨y, hy⟩ := Option.isSome_iff_exists.1 hlive
  cases hcallback : y.callback with
  | none =>
      refine ⟨w, ?_, rfl, .refl w⟩
      simp only [tmgiDoCallback, bind_eq_ok, World.tmgiAt_eq_ok]
      exact ⟨y, hy, by rw [hcallback]⟩
  | some cb =>
      refine ⟨w.say (.tmgiCallback n t cb result problem), ?_, rfl, rfl, rfl⟩
      simp only [tmgiDoCallback, bind_eq_ok, World.tmgiAt_eq_ok]
      exact ⟨y, hy, by rw [hcallback]⟩

/-- The first registered object that fits is taken out, whatever the response says. -/
theorem exists_doTmgiRemove (n : ℕ) (rsp : Response) (w : World) (c : Tmgi) :
    ∃ v, doTmgiRemove n rsp w c = .ok v ∧
      v.tmgis = w.tmgis.eraseP (fitsContent w c) ∧ SameObjects w v := by
  cases hfind : w.tmgis.find? (fitsContent w c) with
  | none =>
      refine ⟨w, doTmgiRemove_not_found hfind, ?_, .refl w⟩
      exact (eraseP_eq_self_of_find?_eq_none hfind).symm
  | some t =>
      have hlive : (w.tmgiStore t).isSome = true := by
        have hfits := List.find?_some hfind
        rw [fitsContent, Option.any_eq_true] at hfits
        obtain ⟨y, hy, -⟩ := hfits
        rw [hy]
        rfl
      obtain ⟨v, hv, htmgis, hsame⟩ : ∃ v, (if isSuccess rsp.resStatus then
            tmgiDoCallback w n t .ogsDone none
          else tmgiDoCallback w n t .ogsError rsp.problemDetails) = .ok v ∧
          v.tmgis = w.tmgis ∧ SameObjects w v := by
        split
        · exact exists_tmgiDoCallback n .ogsDone none hlive
        · exact exists_tmgiDoCallback n .ogsError rsp.problemDetails hlive
      have hmem : t ∈ v.tmgis := htmgis ▸ List.mem_of_find?_eq_some hfind
      refine ⟨{ v with tmgis := v.tmgis.erase t }, ?_, ?_, hsame.store, hsame.sbiObjects⟩
      · have hfind' : tmgiFindMatchingOpenapiType w (tmgiToOpenapiType c) = some t := hfind
        simp only [doTmgiRemove, hfind', bind_eq_ok]
        exact ⟨v, hv, TmgiContents.contextRemoveTmgi_eq_ok.2 ⟨hmem, rfl⟩⟩
      · change v.tmgis.erase t = _
        rw [htmgis, erase_eq_eraseP_of_find? hfind]

/-- The whole list of contents is gone through. -/
theorem exists_removed (n : ℕ) (rsp : Response) (contents : List Tmgi) (w : World) :
    ∃ v, contents.foldlM (doTmgiRemove n rsp) w = .ok v ∧
      v.tmgis = takeOut (fitsContent w) w.tmgis contents ∧ SameObjects w v := by
  induction contents generalizing w with
  | nil => exact ⟨w, rfl, rfl, .refl w⟩
  | cons c contents ih =>
      obtain ⟨u, hu, htmgis, hsame⟩ := exists_doTmgiRemove n rsp w c
      obtain ⟨v, hv, hrest, hsame'⟩ := ih u
      refine ⟨v, ?_, ?_, hsame.trans hsame'⟩
      · rw [List.foldlM_cons, bind_eq_ok]
        exact ⟨u, hu, hv⟩
      · rw [hrest, hsame.fitsContent, htmgis]
        rfl

/-! ## The response -/

/-- The reference that the handler takes is the one it gives back. -/
theorem finishEvent_ref {o : Option Ref} (hv : SameObjects (w.refCountSbiObjectRef o) v) :
    SameObjects w (finishEvent n o v) := by
  cases o with
  | none => exact ⟨hv.store, hv.sbiObjects⟩
  | some o =>
      refine ⟨?_, ?_⟩
      · rw [finishEvent, World.refCountSbiObjectUnref_tmgiStore]
        exact hv.store
      · have hobjects : (v.removeXact n).sbiObjects =
            Function.update w.sbiObjects o (w.sbiObjects o + 1) := hv.sbiObjects
        rw [finishEvent, refCountSbiObjectUnref_sbiObjects, hobjects,
          Function.update_self, Function.update_idem, Nat.add_sub_cancel, Function.update_eq_self]

/-- A response that is handled goes to the branch for the TMGI service. -/
theorem step_of_handled (hsound : XactsSound w) (hrequest : Deallocation w n x ts contents)
    (hhandled : Handled w n x) : step w (.network (.response n rsp)) =
      (processTmgiResponse (handlingState w x rsp) x (contextSbiObjectToTmgi w x.sbiObject) rsp >>=
        fun v => .ok (finishEvent n (heldByTmgiResponse (handlingState w x rsp) x
          (contextSbiObjectToTmgi w x.sbiObject) rsp) v)) := by
  obtain ⟨y, hy⟩ := Option.isSome_iff_exists.1 hhandled.1
  obtain rfl := Option.some.inj ((findSent_of_findXact hsound hy).symm.trans hrequest.sent)
  obtain ⟨-, rfl⟩ := findXact_eq_some hy
  have htmgi : y.request.isTmgi = true := by
    rw [hrequest.request]
    rfl
  have hfind : (w.say (.answered y rsp)).findXact y.id = some y := hy
  change processResponse w y.id rsp = _
  rw [processResponse, hrequest.sent]
  simp only [hfind, htmgi, if_true]
  exact if_neg hhandled.2

/-- A response that is not handled is only noted. -/
theorem step_of_not_handled (hsound : XactsSound w) (hrequest : Deallocation w n x ts contents)
    (hhandled : ¬ Handled w n x) :
    step w (.network (.response n rsp)) = .ok (w.say (.answered x rsp)) := by
  change processResponse w n rsp = _
  rw [processResponse, hrequest.sent]
  cases hy : w.findXact n with
  | none =>
      have hfind : (w.say (.answered x rsp)).findXact n = none := hy
      simp only [hfind]
  | some y =>
      obtain rfl := Option.some.inj ((findSent_of_findXact hsound hy).symm.trans hrequest.sent)
      have hfind : (w.say (.answered y rsp)).findXact n = some y := hy
      have hnobody : contextSbiObjectToSession w y.sbiObject = none ∧
          contextSbiObjectToTmgi w y.sbiObject = none := by
        by_contra hnot
        exact hhandled ⟨by rw [hy]; rfl, hnot⟩
      simp only [hfind]
      exact if_pos hnobody

theorem exists_of_sbiObjectToTmgi {o : Ref} (ht : contextSbiObjectToTmgi w o = some t) :
    ∃ y, w.tmgiStore t = some y := by
  have hfound := List.find?_some ht
  rw [Option.any_eq_true] at hfound
  obtain ⟨y, hy, -⟩ := hfound
  exact ⟨y, hy⟩

/-- A response that is not understood is only reported to the application. -/
theorem step_of_unparsed (hsound : XactsSound w) (hrequest : Deallocation w n x ts contents)
    (hhandled : Handled w n x) (ht : contextSbiObjectToTmgi w x.sbiObject = some t)
    (hparsed : rsp.parsed = false) :
    ∃ v, step w (.network (.response n rsp)) = .ok v ∧ SameObjects w v ∧ v.tmgis = w.tmgis := by
  obtain ⟨y, hy⟩ := exists_of_sbiObjectToTmgi ht
  have hlive : ((handlingState w x rsp).tmgiStore t).isSome = true := by
    change (w.tmgiStore t).isSome = true
    rw [hy]
    rfl
  obtain ⟨v, hv, htmgis, hsame⟩ :=
    exists_tmgiDoCallback x.id .ogsError none hlive
  refine ⟨finishEvent n none v, ?_, ⟨hsame.store, hsame.sbiObjects⟩, htmgis⟩
  rw [step_of_handled hsound hrequest hhandled, ht, bind_eq_ok]
  refine ⟨v, ?_, ?_⟩
  · simp only [processTmgiResponse, hparsed, Bool.not_false, if_true]
    exact hv
  · simp [heldByTmgiResponse, hparsed]

/-- A response that is understood takes out what the contents of the request find. -/
theorem step_of_parsed (hsound : XactsSound w) (hrequest : Deallocation w n x ts contents)
    (hhandled : Handled w n x) (ht : contextSbiObjectToTmgi w x.sbiObject = some t)
    (hparsed : rsp.parsed = true) :
    ∃ v, step w (.network (.response n rsp)) = .ok v ∧ SameObjects w v ∧
      v.tmgis = takeOut (fitsContent w) w.tmgis contents := by
  obtain ⟨y, hy⟩ := exists_of_sbiObjectToTmgi ht
  have hmethod : x.request.method = .delete := by
    rw [hrequest.request]
    rfl
  let u := (handlingState w x rsp).refCountSbiObjectRef y.sbiObject
  have hstore : u.tmgiStore = w.tmgiStore := World.refCountSbiObjectRef_tmgiStore _ _
  have hregistry : u.tmgis = w.tmgis := World.refCountSbiObjectRef_tmgis _ _
  have hstart : SameObjects (w.refCountSbiObjectRef y.sbiObject) u := by
    refine ⟨hstore.trans (World.refCountSbiObjectRef_tmgiStore _ _).symm, ?_⟩
    cases hsbi : y.sbiObject <;> simp only [u, hsbi] <;> rfl
  have hfits : fitsContent u = fitsContent w := by
    funext c t
    rw [fitsContent, fitsContent, hstore]
  obtain ⟨v, hv, htmgis, hsame⟩ := exists_removed x.id rsp contents u
  refine ⟨finishEvent n y.sbiObject v, ?_, finishEvent_ref (hstart.trans hsame), ?_⟩
  · rw [step_of_handled hsound hrequest hhandled, ht, bind_eq_ok]
    refine ⟨v, ?_, ?_⟩
    · simp only [processTmgiResponse, hparsed, Bool.not_true, Bool.false_eq_true, if_false,
        hmethod, bind_eq_ok, World.tmgiAt_eq_ok]
      refine ⟨y, hy, ?_⟩
      rw [nmbsmfTmgiDeallocated, hrequest.request]
      exact hv
    · have hheld : heldByTmgiResponse (handlingState w x rsp) x (some t) rsp = y.sbiObject := by
        rw [heldByTmgiResponse, hparsed, hmethod]
        change (w.tmgiStore t).bind PrivTmgi.sbiObject = y.sbiObject
        rw [hy]
        rfl
      rw [hheld]
  · rw [finishEvent, World.refCountSbiObjectUnref_tmgis]
    change v.tmgis = _
    rw [htmgis, hregistry, hfits]

/-- Without a TMGI of that SBI object the handler stops at an assertion. -/
theorem step_of_no_tmgi (hsound : XactsSound w) (hrequest : Deallocation w n x ts contents)
    (hhandled : Handled w n x) (ht : contextSbiObjectToTmgi w x.sbiObject = none) :
    step w (.network (.response n rsp)) = .error .nullTmgi := by
  have hmethod : x.request.method = .delete := by
    rw [hrequest.request]
    rfl
  rw [step_of_handled hsound hrequest hhandled, ht, processTmgiResponse, hmethod]
  cases rsp.parsed <;> rfl

/-! ## When it holds -/

theorem releasesExactly_of_step (hstep : step w (.network (.response n rsp)) = .ok v) :
    ReleasesExactly w n rsp ts ↔
      if Accepted rsp then v.tmgis = w.tmgis.filter fun t => !decide (t ∈ ts)
      else v.tmgis = w.tmgis ∧ ∀ t ∈ w.tmgis, StaysUsable w v t := by
  constructor
  · rintro ⟨w', hw', h⟩
    obtain rfl := Except.ok.inj (hstep.symm.trans hw')
    exact h
  · exact fun h => ⟨v, hstep, h⟩

theorem filter_nothing (row : List Ref) : row.filter (fun _ => !false) = row := by simp

/-- A response to a deallocation takes exactly the released objects out of the registry when
its contents find those objects and, after a refusal, when they find none. -/
theorem releasesExactly_iff (w : World) (n : ℕ) (rsp : Response) (x : Xact) (ts : List Ref)
    (contents : List Tmgi) (hsound : XactsSound w) (hrequest : Deallocation w n x ts contents) :
    ReleasesExactly w n rsp ts ↔ FindsReleased w n rsp x ts contents := by
  by_cases hhandled : Handled w n x
  · rw [FindsReleased, if_pos hhandled]
    cases ht : contextSbiObjectToTmgi w x.sbiObject with
    | none =>
        refine iff_of_false ?_ fun h => h.1 rfl
        rintro ⟨w', hw', -⟩
        rw [step_of_no_tmgi hsound hrequest hhandled ht] at hw'
        cases hw'
    | some t =>
        cases hparsed : rsp.parsed with
        | false =>
            obtain ⟨v, hstep, hsame, htmgis⟩ :=
              step_of_unparsed hsound hrequest hhandled ht hparsed
            rw [releasesExactly_of_step hstep, if_neg fun h => by simp [Accepted, hparsed] at h]
            exact iff_of_true ⟨htmgis, fun t _ => hsame.staysUsable t⟩ ⟨nofun, nofun⟩
        | true =>
            obtain ⟨v, hstep, hsame, htmgis⟩ := step_of_parsed hsound hrequest hhandled ht hparsed
            rw [releasesExactly_of_step hstep, htmgis]
            by_cases hstatus : isSuccess rsp.status = true
            · rw [if_pos ⟨hparsed, hstatus⟩, if_pos hstatus, takeOut_eq_filter_iff]
              simp
            · rw [if_neg fun h : Accepted rsp => hstatus h.2, if_neg hstatus]
              rw [← takesOut_nothing_iff fun _ => rfl, ← takeOut_eq_filter_iff, filter_nothing]
              constructor
              · exact fun h => ⟨nofun, fun _ => h.1⟩
              · exact fun h => ⟨h.2 rfl, fun t _ => hsame.staysUsable t⟩
  · rw [FindsReleased, if_neg hhandled,
      releasesExactly_of_step (step_of_not_handled hsound hrequest hhandled)]
    by_cases haccepted : Accepted rsp
    · rw [if_pos haccepted]
      change w.tmgis = _ ↔ _
      rw [eq_comm, List.filter_eq_self]
      simp only [haccepted, forall_const, Bool.not_eq_true', decide_eq_false_iff_not]
      exact ⟨fun h t ht hmem => h t hmem ht, fun h t hmem ht => h t ht hmem⟩
    · rw [if_neg haccepted]
      exact iff_of_true ⟨rfl, fun t _ => ⟨rfl, fun _ _ _ _ => rfl⟩⟩ fun h => absurd h haccepted

/-! ## A TMGI that was allocated and is to be released -/

def releasedContent : Tmgi :=
  { mbsServiceId := some "000001", plmn := { mcc := 1, mnc := 1, mncLen := 2 }, expiryTime := 1000 }

def releaseXact : Xact :=
  { id := 4, sbiObject := 2, requester := .tmgis [1], request := .tmgiDeallocate [releasedContent] }

theorem releaseXact_sent : Deallocation (releasedState 3) 4 releaseXact [1] [releasedContent] :=
  ⟨rfl, rfl, rfl⟩

theorem releasesExactly_accepted :
    ReleasesExactly (releasedState 3) 4 { status := 204, resStatus := 204 } [1] := by
  have hsound : XactsSound (releasedState 3) :=
    (RunInvariants.sound_of_run (Reachable.of_events (releasedRun.take 3))).xacts
  have hfind : (releasedState 3).tmgis.find? (fitsContent (releasedState 3) releasedContent) =
      some 1 := by decide +kernel
  have hrest : (releasedState 3).tmgis.eraseP (fitsContent (releasedState 3) releasedContent) =
      [] := by decide +kernel
  refine (releasesExactly_iff _ _ _ _ _ _ hsound releaseXact_sent).2 ?_
  rw [FindsReleased, if_pos ⟨rfl, by decide +kernel⟩]
  refine ⟨by decide +kernel, fun _ => ⟨fun t ht => ?_, fun t ht => ?_⟩⟩
  · obtain rfl := Option.some.inj (hfind.symm.trans ht)
    rfl
  · rw [hrest] at ht
    cases ht

/-- The MB-SMF keeps the TMGI, and the registry does not. -/
theorem not_releasesExactly_refused :
    ¬ ReleasesExactly (releasedState 3) 4 { status := 500, resStatus := 500 } [1] := by
  rintro ⟨w', hw', h⟩
  rw [if_neg (by decide)] at h
  have htmgis : w'.tmgis = [] := by
    obtain rfl := Except.ok.inj hw'
    decide +kernel
  have hregistry : (releasedState 3).tmgis = [1] := by decide +kernel
  rw [htmgis, hregistry] at h
  cases h.1

end ServiceConsumers.TmgiDeallocations
