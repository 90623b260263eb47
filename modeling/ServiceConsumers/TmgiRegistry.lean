import ServiceConsumers.SessionTmgis

set_option autoImplicit false

/-!
# The registry of TMGIs

The registry is for the TMGIs of the application and for those that came with a session. The
copies that are kept of sessions need objects too, and get them from the same constructor.
-/

namespace ServiceConsumers.TmgiRegistry

open ObjectStore PublicSessions ConsumerState TmgiOperations SessionOperations ResponseHandlers
  ProcessEvent TransitionRuns TransactionLog EventEffects StepDecomposition RunInvariants
  AnswerEffects TmgiContents SessionCallbacks TmgiSteps SessionTmgis

variable {w w' v v' : World} {e : Event} {s t : Ref}

/-! ## The history -/

/-- The TMGI objects that came to be so far, and those whose deallocation was accepted. -/
structure TmgiHistory where
  created : Set Ref := ∅
  granted : Set Ref := ∅
  deallocated : Set Ref := ∅

def requestersTmgis : Requester → List Ref
  | .session _ => []
  | .tmgis ts => ts

/-- A create response that is understood brings a TMGI for the session that asked for one. -/
def Grants (w : World) (e : Event) : Prop :=
  ∃ n rsp x s y, e = .network (.response n rsp) ∧ Answers w n rsp x s ∧
    x.request.isCreate = true ∧ isSuccess rsp.status = true ∧ w.sessionStore s = some y ∧
    y.session.tmgiReq = true ∧ createUnderstood y rsp = true

/-- The response is to a deallocation of these objects, with these contents. -/
structure AnswersDeallocation (w : World) (e : Event) (n : ℕ) (rsp : Response) (x : Xact)
    (contents : List Tmgi) : Prop where
  event : e = .network (.response n rsp)
  sent : w.findSent n = some x
  request : x.request = .tmgiDeallocate contents

def Deallocates (w : World) (e : Event) (t : Ref) : Prop :=
  ∃ n rsp x contents, AnswersDeallocation w e n rsp x contents ∧ isSuccess rsp.status = true ∧
    t ∈ requestersTmgis x.requester ∧ (w.tmgiStore t).isSome = true

def recordTmgis (w : World) (e : Event) (h : TmgiHistory) : TmgiHistory where
  created := h.created ∪ {t | (creates e).isSome = true ∧ t = w.next}
  granted := h.granted ∪ {t | Grants w e ∧ t = w.next}
  deallocated := h.deallocated ∪ {t | Deallocates w e t}

/-- The objects that came to be. -/
def madeTmgis (h : TmgiHistory) : Set Ref := h.created ∪ h.granted

/-- The registry holds the objects that the application created or a create response granted,
and that are neither freed nor deallocated. No others are counted, matched or called. -/
structure RegistryExact (w : World) (h : TmgiHistory) : Prop where
  exact : ∀ t, t ∈ w.tmgis ↔
    (t ∈ h.created ∨ t ∈ h.granted) ∧ (w.tmgiStore t).isSome = true ∧ t ∉ h.deallocated
  counted : ∀ p, ∀ t ∈ registeredWhere w p, t ∈ madeTmgis h
  matched : ∀ api t, tmgiFindMatchingOpenapiType w api = some t → t ∈ madeTmgis h
  called : ∀ n t cb result problem, .tmgiCallback n t cb result problem ∈ w.log →
    t ∈ madeTmgis h

/-! ## The condition -/

/-- A copy of a TMGI has an object to go to. -/
def HasTarget (dst src : PublicSession Ref) : Prop :=
  src.tmgiReq = true → src.tmgi.isSome = true → dst.tmgi.isSome = true

def fitsContent (w : World) (c : Tmgi) (t : Ref) : Bool :=
  (w.tmgiStore t).any (tmgiMatches (tmgiToOpenapiType c))

/-- Each content finds the object that it was taken from, unless that has left the registry
and nothing fits. -/
def FindsOwn (w : World) : List Ref → List Ref → List Tmgi → Prop
  | _, [], [] => True
  | registry, t :: ts, c :: cs =>
      (registry.find? (fitsContent w c) = some t ∧ FindsOwn w (registry.erase t) ts cs) ∨
        (t ∉ registry ∧ registry.find? (fitsContent w c) = none ∧ FindsOwn w registry ts cs)
  | _, _, _ => False

/-- No copy of a session makes a TMGI object, the deallocations that are accepted remove the
objects that they name, no others do, and what is freed has not left the registry before. -/
structure RegistryKept (w : World) (e : Event) : Prop where
  created : ∀ n rsp x s y, e = .network (.response n rsp) → Answers w n rsp x s →
    x.request.isCreate = true → isSuccess rsp.status = true → w.sessionStore s = some y →
    y.session.tmgiReq = true → createUnderstood y rsp = true →
    (y.previousSession.getD {}).tmgi.isSome = true
  accepted : ∀ n rsp x contents, AnswersDeallocation w e n rsp x contents →
    isSuccess rsp.status = true →
    (TmgiAnswers w n rsp x → FindsOwn w w.tmgis (requestersTmgis x.requester) contents) ∧
      (¬ TmgiAnswers w n rsp x → ∀ t ∈ requestersTmgis x.requester, t ∉ w.tmgis)
  refused : ∀ n rsp x contents, AnswersDeallocation w e n rsp x contents →
    isSuccess rsp.status = false → TmgiAnswers w n rsp x →
    ∀ c ∈ contents, tmgiFindMatchingOpenapiType w (tmgiToOpenapiType c) = none
  freed : ∀ t, e = .tmgi (.free t) → t ∈ w.tmgis
  left : ∀ n rsp x s y id, e = .network (.response n rsp) → Answers w n rsp x s →
    x.request = .remove (some id) → w.sessionStore s = some y →
    ∀ p, p = y.session ∨ y.previousSession = some p → p.tmgiReq = true →
    ∀ t, p.tmgi = some t → t ∈ w.tmgis

/-! ## Registries -/

/-- The registry holds the live objects of `made` that are not `gone`. -/
structure RegistryIs (made gone : Set Ref) (w : World) : Prop where
  nodup : w.tmgis.Nodup
  fresh : ∀ t, (w.tmgiStore t).isSome = true → t < w.next
  exact : ∀ t, t ∈ w.tmgis ↔ t ∈ made ∧ (w.tmgiStore t).isSome = true ∧ t ∉ gone
  called : ∀ t ∈ calledTmgis w.log, t ∈ made

namespace RegistryIs

variable {made gone : Set Ref}

theorem of_same (h : RegistryIs made gone w) (hsame : SameTmgis w w') :
    RegistryIs made gone w' := by
  refine ⟨hsame.tmgis ▸ h.nodup, fun t ht => ?_, fun t => ?_, fun t ht => ?_⟩
  · rw [hsame.isSome] at ht
    exact lt_of_lt_of_le (h.fresh t ht) hsame.next
  · rw [hsame.tmgis, hsame.isSome]
    exact h.exact t
  · rcases hsame.called t ht with ht | ht
    · exact h.called t ht
    · exact ((h.exact t).1 ht).1

theorem not_mem_next (h : RegistryIs made gone w) : w.next ∉ w.tmgis := by
  intro hmem
  exact lt_irrefl _ (h.fresh _ ((h.exact _).1 hmem).2.1)

theorem withTmgi (h : RegistryIs made gone w) (x : PrivTmgi) (hmade : w.next ∈ made)
    (hgone : w.next ∉ gone) : RegistryIs made gone (withTmgi w x) := by
  refine ⟨List.nodup_append_comm.1 (List.nodup_cons.2 ⟨h.not_mem_next, h.nodup⟩), ?_, ?_,
    h.called⟩
  · intro t ht
    change ((w.tmgiStore.set w.next x) t).isSome = true at ht
    rw [Store.set_apply] at ht
    split at ht
    · rename_i hnext
      exact hnext ▸ Nat.lt_succ_self _
    · exact (h.fresh t ht).trans (Nat.lt_succ_self _)
  · intro t
    change t ∈ w.tmgis ++ [w.next] ↔ t ∈ made ∧ ((w.tmgiStore.set w.next x) t).isSome = true ∧ _
    rw [List.mem_append, List.mem_singleton, Store.set_apply]
    by_cases hnext : t = w.next
    · subst hnext
      simp [hmade, hgone]
    · simp [hnext, h.exact t]

theorem withoutTmgi (h : RegistryIs made gone w) (t : Ref) :
    RegistryIs made gone (withoutTmgi w t) := by
  refine ⟨h.nodup.erase t, ?_, ?_, h.called⟩
  · intro q hq
    exact h.fresh q (Store.isSome_of_free hq)
  · intro q
    change q ∈ w.tmgis.erase t ↔ q ∈ made ∧ ((w.tmgiStore.free t) q).isSome = true ∧ _
    rw [h.nodup.mem_erase_iff, h.exact q, Store.free_apply]
    by_cases hq : q = t <;> simp [hq]

theorem modifyTmgi (h : RegistryIs made gone w) (f : PrivTmgi → PrivTmgi) :
    RegistryIs made gone (w.modifyTmgi t f) := by
  refine ⟨h.nodup, fun q hq => ?_, fun q => ?_, h.called⟩
  · exact h.fresh q ((Store.isSome_modify w.tmgiStore t q f).symm.trans hq)
  · change q ∈ w.tmgis ↔ q ∈ made ∧ ((w.tmgiStore.modify t f) q).isSome = true ∧ _
    rw [Store.isSome_modify]
    exact h.exact q

theorem tmgiFree (h : RegistryIs made gone w) (hrun : tmgiFree w t = .ok w') :
    RegistryIs made gone w' :=
  (h.withoutTmgi t).of_same (withoutTmgi_of_tmgiFree hrun).2.2

theorem frees {p : PublicSession Ref} (h : RegistryIs made gone w) (hfrees : Frees w p w') :
    RegistryIs made gone w' := by
  obtain ⟨v, hv, hsame | ⟨t, -, -, -, hsame⟩⟩ := hfrees
  · exact (h.of_same hv).of_same hsame
  · exact ((h.of_same hv).withoutTmgi t).of_same hsame

theorem copyEffect {dst src : PublicSession Ref} (h : RegistryIs made gone w)
    (htarget : HasTarget dst src) (hcopy : CopyEffect w dst src w') :
    RegistryIs made gone w' := by
  cases hcopy with
  | shared same => exact h.of_same same
  | freed req source target registered live same => exact (h.withoutTmgi _).of_same same
  | overwritten req source target other live same => exact (h.modifyTmgi _).of_same same
  | made req source target live same =>
      have hsome := htarget req (by rw [source]; rfl)
      rw [target] at hsome
      cases hsome

theorem foldlM {α : Type} {f : World → α → Except Fault World} {xs : List α}
    (hstep : ∀ x v v', RegistryIs made gone v → f v x = .ok v' → RegistryIs made gone v')
    (h : RegistryIs made gone w) (hrun : xs.foldlM f w = .ok w') : RegistryIs made gone w' :=
  foldlM_ok_induction (fun _ v => RegistryIs made gone v)
    (fun x _ v v' hv hf => hstep x v v' hv hf) xs w w' h hrun

theorem takeAllocated {n : ℕ} {expiryTime : ℤ} {api : ApiTmgi} (h : RegistryIs made gone w)
    (hrun : takeAllocated n expiryTime w api = .ok w') : RegistryIs made gone w' := by
  unfold ResponseHandlers.takeAllocated at hrun
  split at hrun
  · rw [Except.ok.injEq] at hrun
    exact hrun ▸ h
  · rename_i t hfind
    have hmem : t ∈ w.tmgis := List.mem_of_find?_eq_some hfind
    exact (((h.modifyTmgi _).modifyTmgi _).modifyTmgi _).of_same
      (SameTmgis.tmgiDoCallback hmem hrun)

theorem nmbsmfTmgiAllocated {x : Xact} {rsp : Response} (h : RegistryIs made gone w)
    (hrun : nmbsmfTmgiAllocated w x rsp = .ok w') : RegistryIs made gone w' := by
  unfold ResponseHandlers.nmbsmfTmgiAllocated at hrun
  split at hrun
  · split at hrun
    · rw [Except.ok.injEq] at hrun
      exact hrun ▸ h
    · exact foldlM (fun _ _ _ hv hstep => hv.takeAllocated hstep) h hrun
  · refine foldlM (fun c v v' hv hstep => ?_) h hrun
    unfold reportRefused at hstep
    split at hstep
    · rw [Except.ok.injEq] at hstep
      exact hstep ▸ hv
    · rename_i hfind
      exact hv.of_same (SameTmgis.tmgiDoCallback (List.mem_of_find?_eq_some hfind) hstep)

theorem tmgiSet {f : PrivTmgi → PrivTmgi} (h : RegistryIs made gone w)
    (hrun : tmgiSet w t f = .ok w') : RegistryIs made gone w' := by
  simp only [TmgiOperations.tmgiSet, bind_eq_ok, Except.ok.injEq] at hrun
  obtain ⟨x, -, rfl⟩ := hrun
  exact h.modifyTmgi f

/-- An object that is not there yet may be counted among the objects that came to be. -/
theorem enlarge {made' : Set Ref} (h : RegistryIs made gone w) (hsub : made ⊆ made')
    (hnew : ∀ t ∈ made', t ∈ made ∨ t = w.next) : RegistryIs made' gone w := by
  refine ⟨h.nodup, h.fresh, fun t => ?_, fun t ht => hsub (h.called t ht)⟩
  rw [h.exact t]
  constructor
  · exact fun ⟨hmade, hlive, hgone⟩ => ⟨hsub hmade, hlive, hgone⟩
  · rintro ⟨hmade, hlive, hgone⟩
    rcases hnew t hmade with hmade | rfl
    · exact ⟨hmade, hlive, hgone⟩
    · exact absurd (h.fresh _ hlive) (lt_irrefl _)

/-- A response whose object leaves the registry at once. -/
theorem discarded {x : PrivTmgi} (h : RegistryIs made gone w) (hmade : w.next ∉ made)
    (htmgis : w'.tmgis = (w.tmgis ++ [w.next]).erase w.next)
    (hstore : w'.tmgiStore = w.tmgiStore.set w.next x) (hnext : w'.next = w.next + 1)
    (hcalled : calledTmgis w'.log = calledTmgis w.log) : RegistryIs made gone w' := by
  have hsame : w'.tmgis = w.tmgis := by
    rw [htmgis, List.erase_append_right _ h.not_mem_next]
    simp
  refine ⟨hsame ▸ h.nodup, fun t ht => ?_, fun t => ?_, hcalled ▸ h.called⟩
  · rw [hstore, Store.set_apply] at ht
    rw [hnext]
    split at ht
    · rename_i heq
      exact heq ▸ Nat.lt_succ_self _
    · exact (h.fresh t ht).trans (Nat.lt_succ_self _)
  · rw [hsame, hstore, Store.set_apply]
    by_cases heq : t = w.next
    · subst heq
      simp [hmade, h.not_mem_next]
    · simp [heq, h.exact t]

end RegistryIs

/-! ## Deallocations -/

/-- Objects may leave the registry, and nothing else happens to them but callbacks. -/
structure Shrinks (w w' : World) : Prop where
  subset : w'.tmgis ⊆ w.tmgis
  store : ∀ t, (w'.tmgiStore t).map withoutSbi = (w.tmgiStore t).map withoutSbi
  next : w.next ≤ w'.next
  called : ∀ t ∈ calledTmgis w'.log, t ∈ calledTmgis w.log ∨ t ∈ w.tmgis

namespace Shrinks

theorem of_same (h : SameTmgis w w') : Shrinks w w' :=
  ⟨by rw [h.tmgis]; exact List.Subset.refl _, h.store, h.next, h.called⟩

theorem trans {w'' : World} (h₁ : Shrinks w w') (h₂ : Shrinks w' w'') : Shrinks w w'' := by
  refine ⟨fun t ht => h₁.subset (h₂.subset ht), fun t => (h₂.store t).trans (h₁.store t),
    h₁.next.trans h₂.next, fun t ht => ?_⟩
  rcases h₂.called t ht with ht | ht
  · exact h₁.called t ht
  · exact .inr (h₁.subset ht)

theorem isSome (h : Shrinks w w') (t : Ref) :
    (w'.tmgiStore t).isSome = (w.tmgiStore t).isSome := by
  have ht := congrArg Option.isSome (h.store t)
  rwa [Option.isSome_map, Option.isSome_map] at ht

theorem fitsContent (h : Shrinks w v) (c : Tmgi) : fitsContent v c = fitsContent w c := by
  funext t
  have hany : ∀ y : Option PrivTmgi, y.any (tmgiMatches (tmgiToOpenapiType c)) =
      (y.map withoutSbi).any (tmgiMatches (tmgiToOpenapiType c)) := by
    intro y
    cases y <;> rfl
  rw [TmgiRegistry.fitsContent, TmgiRegistry.fitsContent, hany, h.store t, ← hany]

end Shrinks

/-- The contents of a registered object that is found take it out of the registry. -/
theorem doTmgiRemove_found {n : ℕ} {rsp : Response} {c : Tmgi}
    (hfind : tmgiFindMatchingOpenapiType w (tmgiToOpenapiType c) = some t)
    (h : doTmgiRemove n rsp w c = .ok w') : Shrinks w w' ∧ w'.tmgis = w.tmgis.erase t := by
  simp only [doTmgiRemove, hfind, bind_eq_ok] at h
  obtain ⟨v, hv, hrun⟩ := h
  obtain ⟨-, rfl⟩ := contextRemoveTmgi_eq_ok.1 hrun
  have hmem : t ∈ w.tmgis := List.mem_of_find?_eq_some hfind
  have hcallback : SameTmgis w v := by
    split at hv
    · exact SameTmgis.tmgiDoCallback hmem hv
    · exact SameTmgis.tmgiDoCallback hmem hv
  refine ⟨⟨fun q hq => ?_, hcallback.store, hcallback.next, hcallback.called⟩,
    congrArg (List.erase · t) hcallback.tmgis⟩
  rw [← hcallback.tmgis]
  exact List.mem_of_mem_erase hq

theorem doTmgiRemove_not_found {n : ℕ} {rsp : Response} {c : Tmgi}
    (hfind : tmgiFindMatchingOpenapiType w (tmgiToOpenapiType c) = none) :
    doTmgiRemove n rsp w c = .ok w := by
  rw [doTmgiRemove, hfind]

/-- Contents that find their own objects take these out of the registry. -/
theorem mem_of_findsOwn {n : ℕ} {rsp : Response} {ts : List Ref} {contents : List Tmgi}
    (hnodup : v.tmgis.Nodup) (hfits : ∀ c, fitsContent v c = fitsContent w c)
    (hown : FindsOwn w v.tmgis ts contents)
    (h : contents.foldlM (doTmgiRemove n rsp) v = .ok v') :
    Shrinks v v' ∧ v'.tmgis.Nodup ∧ ∀ q, q ∈ v'.tmgis ↔ q ∈ v.tmgis ∧ q ∉ ts := by
  induction contents generalizing v ts with
  | nil =>
      cases ts with
      | nil =>
          rw [List.foldlM_nil] at h
          obtain rfl := Except.ok.inj h
          exact ⟨.of_same (.refl _), hnodup, fun q => by simp⟩
      | cons t ts => exact hown.elim
  | cons c contents ih =>
      cases ts with
      | nil => exact hown.elim
      | cons t ts =>
          rw [List.foldlM_cons, bind_eq_ok] at h
          obtain ⟨u, hu, hrest⟩ := h
          have hfind : tmgiFindMatchingOpenapiType v (tmgiToOpenapiType c) =
              v.tmgis.find? (fitsContent w c) := by
            rw [← hfits c]
            rfl
          rcases hown with ⟨hown, htail⟩ | ⟨hmem, hown, htail⟩
          · obtain ⟨hremoved, htmgis⟩ := doTmgiRemove_found (hfind.trans hown) hu
            have hfits' : ∀ c, fitsContent u c = fitsContent w c :=
              fun c => (hremoved.fitsContent c).trans (hfits c)
            obtain ⟨hrest, hnodup', hexact⟩ := ih (htmgis ▸ hnodup.erase t) hfits'
              (htmgis ▸ htail) hrest
            refine ⟨hremoved.trans hrest, hnodup', fun q => ?_⟩
            rw [hexact q, htmgis, hnodup.mem_erase_iff, List.mem_cons, not_or]
            tauto
          · obtain rfl := Except.ok.inj
              ((doTmgiRemove_not_found (hfind.trans hown)).symm.trans hu)
            obtain ⟨hrest, hnodup', hexact⟩ := ih hnodup hfits htail hrest
            refine ⟨hrest, hnodup', fun q => ?_⟩
            rw [hexact q, List.mem_cons, not_or]
            constructor
            · rintro ⟨hq, hts⟩
              exact ⟨hq, fun heq => hmem (heq ▸ hq), hts⟩
            · exact fun ⟨hq, _, hts⟩ => ⟨hq, hts⟩

theorem foldlM_doTmgiRemove_of_none {n : ℕ} {rsp : Response} {contents : List Tmgi}
    (hnone : ∀ c ∈ contents, tmgiFindMatchingOpenapiType w (tmgiToOpenapiType c) = none) :
    contents.foldlM (doTmgiRemove n rsp) w = .ok w := by
  induction contents with
  | nil => rfl
  | cons c contents ih =>
      rw [List.foldlM_cons, bind_eq_ok]
      exact ⟨w, doTmgiRemove_not_found (hnone c List.mem_cons_self),
        ih fun c' hc' => hnone c' (List.mem_cons_of_mem c hc')⟩

/-- The answer to a deallocation that is handled goes through the contents of the request. -/
theorem deallocation_run {n : ℕ} {rsp : Response} {x : Xact} {contents : List Tmgi}
    (hsound : XactsSound w) (hrequest : x.request = .tmgiDeallocate contents)
    (hanswers : TmgiAnswers w n rsp x) (h : step w (.network (.response n rsp)) = .ok w') :
    ∃ u v, SameTmgis w u ∧ contents.foldlM (doTmgiRemove x.id rsp) u = .ok v ∧
      SameTmgis v w' := by
  obtain ⟨v, held, rfl, hv⟩ := tmgiAnswer_of_answers hsound hanswers h
  have hmethod : x.request.method = .delete := by rw [hrequest]; rfl
  simp only [processTmgiResponse, hanswers.parsed, Bool.not_true, Bool.false_eq_true, if_false,
    hmethod] at hv
  split at hv
  · cases hv
  simp only [bind_eq_ok, nmbsmfTmgiDeallocated, hrequest, requestTmgis] at hv
  obtain ⟨y, -, hv⟩ := hv
  exact ⟨_, v, sameTmgis_handlingState.trans (SameTmgis.refCountSbiObjectRef _), hv,
    SameTmgis.finishEvent n held⟩

/-! ## One step -/

variable {h : TmgiHistory} {gone : Set Ref}

theorem madeTmgis_subset : madeTmgis h ⊆ madeTmgis (recordTmgis w e h) := by
  rintro t (ht | ht)
  · exact .inl (.inl ht)
  · exact .inr (.inl ht)

theorem mem_madeTmgis_record (ht : t ∈ madeTmgis (recordTmgis w e h)) :
    t ∈ madeTmgis h ∨ t = w.next ∧ ((creates e).isSome = true ∨ Grants w e) := by
  rcases ht with (ht | ⟨hcreates, ht⟩) | (ht | ⟨hgrants, ht⟩)
  · exact .inl (.inl ht)
  · exact .inr ⟨ht, .inl hcreates⟩
  · exact .inl (.inr ht)
  · exact .inr ⟨ht, .inr hgrants⟩

/-- The parts of an event that answers no deallocation. -/
theorem RegistryIs.part (hold : ∀ t ∈ madeTmgis h, t < w.next) (hgone : w.next ∉ gone)
    (hkept : RegistryKept w e) (hsound : XactsSound w)
    (hdealloc : ∀ n rsp x contents, ¬ AnswersDeallocation w e n rsp x contents)
    (hpart : TmgiPart w e v v') (hv : RegistryIs (madeTmgis (recordTmgis w e h)) gone v) :
    RegistryIs (madeTmgis (recordTmgis w e h)) gone v' := by
  cases hpart with
  | quiet same => exact hv.of_same same
  | create event =>
      refine hv.withTmgi _ (.inl (.inr ⟨?_, rfl⟩)) hgone
      rw [event]
      rfl
  | free event run => exact hv.tmgiFree run
  | set event setting run => exact hv.tmgiSet run
  | allocated event answers method same run => exact hv.nmbsmfTmgiAllocated run
  | @deallocated n rsp x _ _ event answers method same run =>
      obtain ⟨contents, hrequest⟩ := eq_tmgiDeallocate answers.service method
      exact absurd ⟨event, findSent_of_findXact hsound answers.outstanding, hrequest⟩
        (hdealloc n rsp x contents)
  | @parse n rsp x s _ understood event answers request status run =>
      obtain ⟨y, hy, -⟩ := nmbsmfMbsSessionParse_eq_ok run
      cases parseEffect hy run with
      | nothing idle same => exact hv.of_same same
      | discarded misunderstood tmgis store next called =>
          refine hv.discarded (fun hmade => ?_) tmgis store next called
          rcases mem_madeTmgis_record hmade with hmade | ⟨-, hcreates | hgrants⟩
          · exact lt_irrefl _ (hold _ hmade)
          · rw [event] at hcreates
            cases hcreates
          · obtain ⟨n', rsp', x', s', y', he, hanswers, -, -, hy', -, hunderstood⟩ := hgrants
            rw [event, Event.network.injEq, NetworkEvent.response.injEq] at he
            obtain ⟨rfl, rfl⟩ := he
            obtain rfl := Option.some.inj (answers.outstanding.symm.trans hanswers.outstanding)
            obtain rfl := Option.some.inj (answers.session.symm.trans hanswers.session)
            obtain rfl := Option.some.inj (hy.symm.trans hy')
            rw [misunderstood] at hunderstood
            cases hunderstood
      | granted req understood made source copied =>
          have hgrants : Grants w e :=
            ⟨n, rsp, x, s, y, event, answers, request, status, hy, req, understood⟩
          refine ((hv.withTmgi _ (.inr (.inr ⟨hgrants, rfl⟩)) hgone).of_same made).copyEffect
            (fun _ _ => ?_) copied
          exact hkept.created n rsp x s y event answers request status hy req understood
  | @left n rsp x s id _ _ event answers request usable same sessions run =>
      obtain ⟨y, hy⟩ := live_of_contextRemoveMbsSession run
      obtain ⟨u, hu, hfrees⟩ := frees_contextRemoveMbsSession hy run
      rcases hu with hsame | ⟨p, -, hp⟩
      · exact (hv.of_same hsame).frees hfrees
      · exact (hv.frees hp).frees hfrees

theorem RegistryIs.parts (hold : ∀ t ∈ madeTmgis h, t < w.next) (hgone : w.next ∉ gone)
    (hkept : RegistryKept w e) (hsound : XactsSound w)
    (hdealloc : ∀ n rsp x contents, ¬ AnswersDeallocation w e n rsp x contents)
    (hparts : TmgiParts w e w v) (hw : RegistryIs (madeTmgis (recordTmgis w e h)) gone w) :
    RegistryIs (madeTmgis (recordTmgis w e h)) gone v := by
  induction hparts with
  | refl => exact hw
  | tail _ hlast ih => exact RegistryIs.part hold hgone hkept hsound hdealloc hlast ih

/-- The contents of a deallocation that is accepted take the objects that they name out. -/
theorem RegistryIs.deallocated {made : Set Ref} {n : ℕ} {rsp : Response} {x : Xact}
    {contents : List Tmgi} (hkept : RegistryKept w e) (hsound : XactsSound w)
    (hanswers : AnswersDeallocation w e n rsp x contents) (hstep : step w e = .ok w')
    (hw : RegistryIs made gone w) : RegistryIs made (gone ∪ {t | Deallocates w e t}) w' := by
  obtain ⟨rfl, hsent, hrequest⟩ := hanswers
  have hgone : ∀ t, Deallocates w (.network (.response n rsp)) t ↔ isSuccess rsp.status = true ∧
      t ∈ requestersTmgis x.requester ∧ (w.tmgiStore t).isSome = true := by
    intro t
    constructor
    · rintro ⟨n', rsp', x', contents', ⟨he, hsent', -⟩, hdone⟩
      rw [Event.network.injEq, NetworkEvent.response.injEq] at he
      obtain ⟨rfl, rfl⟩ := he
      obtain rfl := Option.some.inj (hsent.symm.trans hsent')
      exact hdone
    · exact fun hdone => ⟨n, rsp, x, contents, ⟨rfl, hsent, hrequest⟩, hdone⟩
  have hservice : x.request.isTmgi = true := by rw [hrequest]; rfl
  -- What is left of the registry are the objects that the request does not name.
  have hleft : ∃ v, Shrinks w v ∧ v.tmgis.Nodup ∧ SameTmgis v w' ∧
      ∀ q, q ∈ v.tmgis ↔ q ∈ w.tmgis ∧
        ¬(isSuccess rsp.status = true ∧ q ∈ requestersTmgis x.requester) := by
    cases hstatus : isSuccess rsp.status with
    | true =>
        obtain ⟨hown, hnone⟩ := hkept.accepted n rsp x contents ⟨rfl, hsent, hrequest⟩ hstatus
        by_cases hhandled : TmgiAnswers w n rsp x
        · obtain ⟨u, v, hu, hrun, hv⟩ := deallocation_run hsound hrequest hhandled hstep
          have hstart := hown hhandled
          rw [← hu.tmgis] at hstart
          obtain ⟨hshrinks, hnodup, hexact⟩ := mem_of_findsOwn (hu.tmgis ▸ hw.nodup)
            (Shrinks.of_same hu).fitsContent hstart hrun
          refine ⟨v, (Shrinks.of_same hu).trans hshrinks, hnodup, hv, fun q => ?_⟩
          rw [hexact q, hu.tmgis]
          simp
        · refine ⟨w, .of_same (.refl _), hw.nodup, sameTmgis_of_not_tmgiAnswers hsound hsent hservice hhandled
            hstep, fun q => ?_⟩
          constructor
          · exact fun hq => ⟨hq, fun hts => hnone hhandled q hts.2 hq⟩
          · exact And.left
    | false =>
        have hsame : SameTmgis w w' := by
          by_cases hhandled : TmgiAnswers w n rsp x
          · obtain ⟨u, v, hu, hrun, hv⟩ := deallocation_run hsound hrequest hhandled hstep
            have hnone := hkept.refused n rsp x contents ⟨rfl, hsent, hrequest⟩ hstatus hhandled
            rw [foldlM_doTmgiRemove_of_none fun c hc => (hu.tmgiFind _).trans (hnone c hc)] at hrun
            obtain rfl := Except.ok.inj hrun
            exact hu.trans hv
          · exact sameTmgis_of_not_tmgiAnswers hsound hsent hservice hhandled hstep
        exact ⟨w, .of_same (.refl _), hw.nodup, hsame, fun q => by simp⟩
  obtain ⟨v, hshrinks, hnodup, hend, hexact⟩ := hleft
  refine RegistryIs.of_same ⟨hnodup, fun t ht => ?_, fun t => ?_, fun t ht => ?_⟩ hend
  · rw [hshrinks.isSome] at ht
    exact lt_of_lt_of_le (hw.fresh t ht) hshrinks.next
  · rw [hexact t, hw.exact t, hshrinks.isSome, Set.mem_union, Set.mem_ofPred_eq, hgone t]
    tauto
  · rcases hshrinks.called t ht with ht | ht
    · exact hw.called t ht
    · exact ((hw.exact t).1 ht).1

theorem next_lt_of_creates (hcreates : (creates e).isSome = true) (h : step w e = .ok w') :
    w.next < w'.next := by
  cases e with
  | tmgi call =>
      cases call with
      | create callback =>
          have hsend : tmgiSendAllocate (tmgiCreate w callback).1 w.next = .ok w' := h
          exact (SameTmgis.tmgiListSendAllocate hsend).next
      | new =>
          obtain rfl := Except.ok.inj h
          exact Nat.lt_succ_self _
      | _ => cases hcreates
  | _ => cases hcreates

/-- A granted TMGI has an object of its own. -/
theorem next_lt_of_grants (hsound : XactsSound w) (hgrants : Grants w e)
    (h : step w e = .ok w') : w.next < w'.next := by
  obtain ⟨n, rsp, x, s, y, rfl, hanswers, hcreate, hstatus, hy, hreq, hunderstood⟩ := hgrants
  obtain ⟨v, held, rfl, hrun⟩ := handleCreateResponse_of_answers hsound hanswers hcreate h
  have hparse : ∀ u understood,
      nmbsmfMbsSessionParse (handlingState w x rsp) s rsp = .ok (u, understood) →
        w.next < u.next := by
    intro u understood hrun
    have hlive : (handlingState w x rsp).sessionStore s = some y := hy
    cases parseEffect hlive hrun with
    | nothing idle same =>
        rcases idle with hidle | hidle
        · rw [hreq] at hidle
          cases hidle
        · rw [hunderstood] at hidle
          cases hidle
    | discarded misunderstood tmgis store next called =>
        rw [hunderstood] at misunderstood
        cases misunderstood
    | granted req understood made source copied =>
        exact lt_of_lt_of_le (Nat.lt_succ_self _) (made.next.trans copied.next)
  refine lt_of_lt_of_le ?_ (SameTmgis.finishEvent n held).next
  rcases handleCreateResponse_cases hrun with ⟨hfailed, -⟩ | ⟨-, u, hu, hcb⟩ |
    ⟨-, u, u', hu, hcb, hpush⟩
  · rw [hstatus] at hfailed
    cases hfailed
  · exact lt_of_lt_of_le (hparse u _ hu) (SameTmgis.mbsSessionDoCallback hcb).next
  · exact lt_of_lt_of_le (hparse u _ hu) ((SameTmgis.mbsSessionDoCallback hcb).trans
      (SameTmgis.mbsSessionPushChanges hpush)).next

/-! ## Runs -/

/-- What a run keeps true of the registry and of the history. -/
structure Recorded (w : World) (h : TmgiHistory) : Prop where
  registry : RegistryIs (madeTmgis h) h.deallocated w
  made : ∀ t ∈ madeTmgis h, t < w.next
  gone : ∀ t ∈ h.deallocated, t < w.next

theorem Recorded.step (hrecorded : Recorded w h) (hsound : XactsSound w) (hkept : RegistryKept w e)
    (hstep : step w e = .ok w') : Recorded w' (recordTmgis w e h) := by
  have hnext : w.next ≤ w'.next := Parts.next_le (step_parts hsound hstep)
  have hlarge : RegistryIs (madeTmgis (recordTmgis w e h)) h.deallocated w :=
    hrecorded.registry.enlarge madeTmgis_subset fun t ht =>
      (mem_madeTmgis_record ht).imp_right And.left
  refine ⟨?_, fun t ht => ?_, fun t ht => ?_⟩
  · by_cases hanswers : ∃ n rsp x contents, AnswersDeallocation w e n rsp x contents
    · obtain ⟨n, rsp, x, contents, hanswers⟩ := hanswers
      exact hlarge.deallocated hkept hsound hanswers hstep
    · have hnone : ∀ t, ¬ Deallocates w e t := fun t ⟨n, rsp, x, contents, h, _⟩ =>
        hanswers ⟨n, rsp, x, contents, h⟩
      have hgone : (recordTmgis w e h).deallocated = h.deallocated := by
        ext t
        simp [recordTmgis, hnone t]
      rw [hgone]
      exact RegistryIs.parts hrecorded.made (fun hmem => lt_irrefl _ (hrecorded.gone _ hmem))
        hkept hsound (fun n rsp x contents h => hanswers ⟨n, rsp, x, contents, h⟩)
        (step_tmgiParts hsound hstep) hlarge
  · rcases mem_madeTmgis_record ht with ht | ⟨rfl, hcreates | hgrants⟩
    · exact lt_of_lt_of_le (hrecorded.made t ht) hnext
    · exact next_lt_of_creates hcreates hstep
    · exact next_lt_of_grants hsound hgrants hstep
  · rcases ht with ht | ⟨n, rsp, x, contents, -, -, -, hlive⟩
    · exact lt_of_lt_of_le (hrecorded.gone t ht) hnext
    · exact lt_of_lt_of_le (hrecorded.registry.fresh t hlive) hnext

theorem Recorded.exact (hrecorded : Recorded w h) : RegistryExact w h := by
  have hregistered : ∀ t ∈ w.tmgis, t ∈ madeTmgis h :=
    fun t ht => ((hrecorded.registry.exact t).1 ht).1
  refine ⟨hrecorded.registry.exact, ?_, ?_, ?_⟩
  · exact fun p t ht => hregistered t (List.mem_filter.1 ht).1
  · exact fun api t ht => hregistered t (List.mem_of_find?_eq_some ht)
  · exact fun n t cb result problem ho =>
      hrecorded.registry.called t (List.mem_filterMap.2 ⟨_, ho, rfl⟩)

/-- The runs with a history of the TMGI objects. -/
abbrev RecordedRun (good : World × TmgiHistory → Event → Prop) : World × TmgiHistory → Prop :=
  Reach (withHistory recordTmgis step) good (World.initial, {})

theorem recorded_of_run {p : World × TmgiHistory} (hrun : RecordedRun (fun p e => RegistryKept p.1 e) p) :
    Recorded p.1 p.2 := by
  refine hrun.invariant (fun p => Recorded p.1 p.2) ?_ ?_
  · refine ⟨⟨List.nodup_nil, ?_, ?_, ?_⟩, ?_, ?_⟩
    · exact fun t ht => by cases ht
    · intro t
      constructor
      · exact fun ht => absurd ht List.not_mem_nil
      · rintro ⟨-, hlive, -⟩
        cases hlive
    · exact fun t ht => absurd ht List.not_mem_nil
    · rintro t (ht | ht) <;> exact ht.elim
    · exact fun t ht => ht.elim
  · intro p e q hreach hp hkept hstep
    obtain ⟨hfires, hq⟩ := withHistory_eq_ok.1 hstep
    rw [hq]
    exact hp.step (sound_of_run (Reach.forget hreach)).xacts hkept hfires

theorem registry_exact {p : World × TmgiHistory} (hrun : RecordedRun (fun p e => RegistryKept p.1 e) p) :
    RegistryExact p.1 p.2 :=
  (recorded_of_run hrun).exact

/-- The events of a run tell how many objects came to be, whatever became of these. -/
theorem made_lt_next {good : World × TmgiHistory → Event → Prop} {p : World × TmgiHistory}
    (hrun : RecordedRun good p) : ∀ t ∈ madeTmgis p.2, t < p.1.next := by
  refine hrun.invariant (fun p => ∀ t ∈ madeTmgis p.2, t < p.1.next) ?_ ?_
  · rintro t (ht | ht) <;> exact ht.elim
  · intro p e q hreach hp _ hstep t ht
    obtain ⟨hfires, hq⟩ := withHistory_eq_ok.1 hstep
    have hsound := (sound_of_run (Reach.forget hreach)).xacts
    rw [hq] at ht
    rcases mem_madeTmgis_record ht with ht | ⟨rfl, hcreates | hgrants⟩
    · exact lt_of_lt_of_le (hp t ht) (Parts.next_le (step_parts hsound hfires))
    · exact next_lt_of_creates hcreates hfires
    · exact next_lt_of_grants hsound hgrants hfires

/-! ## A session that is granted a TMGI -/

def grantAnswer : Event :=
  .network (.response 3
    { status := 201, resStatus := 201, createLocation := .resource "a",
      createRspData := some (some
        { tmgi := some
            { mbsServiceId := some "000001", mcc := "001", mnc := "01", mccNumber := 1,
              mncNumber := 1 },
          expirationTime := some (.seconds 1000) }) })

def grantedRun : List Event := [.session (.newIpv4 none none), .session (.pushChanges 1)]

def grantedState : World := grantedRun.foldl (advance step) World.initial

/-- The copy of the session brings a second object into the registry. -/
theorem copy_is_registered : ¬∀ p, RecordedRun (fun _ _ => True) p → RegistryExact p.1 p.2 := by
  intro h
  obtain ⟨history, hrun⟩ : ∃ history, RecordedRun (fun _ _ => True) (grantedState, history) :=
    Reach.withHistory (Reachable.of_events grantedRun)
  have hfires : step grantedState grantAnswer = .ok (advance step grantedState grantAnswer) :=
    step_eq_advance (by decide +kernel)
  have hnext : RecordedRun (fun _ _ => True) (advance step grantedState grantAnswer,
      recordTmgis grantedState grantAnswer history) :=
    .next hrun trivial (withHistory_eq_ok.2 ⟨hfires, rfl⟩)
  have hmem : 5 ∈ (advance step grantedState grantAnswer).tmgis := by decide +kernel
  have hbound : grantedState.next = 4 := by decide +kernel
  rcases mem_madeTmgis_record (((h _ hnext).exact 5).1 hmem).1 with hmade | ⟨heq, -⟩
  · have hlt : (5 : ℕ) < grantedState.next := made_lt_next hrun 5 hmade
    omega
  · rw [hbound] at heq
    exact absurd heq (by decide)

/-! ## A TMGI that is allocated and deallocated -/

theorem RegistryKept.of_call (h : ∀ n rsp, e ≠ .network (.response n rsp))
    (hfree : ∀ t, e ≠ .tmgi (.free t)) : RegistryKept w e :=
  ⟨fun n rsp _ _ _ he => absurd he (h n rsp), fun n rsp _ _ ha => absurd ha.event (h n rsp),
    fun n rsp _ _ ha => absurd ha.event (h n rsp), fun t he => absurd he (hfree t),
    fun n rsp _ _ _ _ he => absurd he (h n rsp)⟩

/-- The answer to a TMGI request, which is no refusal of a deallocation. -/
theorem RegistryKept.of_tmgi {n : ℕ} {rsp : Response} {x : Xact} (hx : w.findXact n = some x)
    (hsent : w.findSent n = some x) (hservice : x.request.isTmgi = true)
    (hdone : ∀ contents, x.request = .tmgiDeallocate contents → isSuccess rsp.status = true ∧
      TmgiAnswers w n rsp x ∧ FindsOwn w w.tmgis (requestersTmgis x.requester) contents) :
    RegistryKept w (.network (.response n rsp)) := by
  refine ⟨?_, ?_, ?_, fun t he => Event.noConfusion he, ?_⟩
  · intro n' rsp' x' s y he hanswers hcreate
    rw [Event.network.injEq, NetworkEvent.response.injEq] at he
    obtain ⟨rfl, rfl⟩ := he
    obtain rfl := Option.some.inj (hx.symm.trans hanswers.outstanding)
    cases hrequest : x.request with
    | create carried embedded =>
        rw [hrequest] at hservice
        cases hservice
    | _ =>
        rw [hrequest] at hcreate
        cases hcreate
  · rintro n' rsp' x' contents ⟨he, hsent', hrequest⟩ -
    rw [Event.network.injEq, NetworkEvent.response.injEq] at he
    obtain ⟨rfl, rfl⟩ := he
    obtain rfl := Option.some.inj (hsent.symm.trans hsent')
    obtain ⟨-, hhandled, hown⟩ := hdone contents hrequest
    exact ⟨fun _ => hown, fun hnot => absurd hhandled hnot⟩
  · rintro n' rsp' x' contents ⟨he, hsent', hrequest⟩ hstatus
    rw [Event.network.injEq, NetworkEvent.response.injEq] at he
    obtain ⟨rfl, rfl⟩ := he
    obtain rfl := Option.some.inj (hsent.symm.trans hsent')
    rw [(hdone contents hrequest).1] at hstatus
    cases hstatus
  · intro n' rsp' x' s y id he hanswers hrequest
    rw [Event.network.injEq, NetworkEvent.response.injEq] at he
    obtain ⟨rfl, rfl⟩ := he
    obtain rfl := Option.some.inj (hx.symm.trans hanswers.outstanding)
    rw [hrequest] at hservice
    cases hservice

def releasedRun : List Event :=
  [.tmgi (.create none),
   .network (.response 3
     { status := 200, resStatus := 200,
       tmgiAllocated := some
         { tmgiList :=
             [some
               { mbsServiceId := some "000001", mcc := "001", mnc := "01", mccNumber := 1,
                 mncNumber := 1 }],
           expiryTime := 1000 } }),
   .tmgi (.sendDeallocate 1), .network (.response 4 { status := 204, resStatus := 204 })]

def releasedState (k : ℕ) : World := (releasedRun.take k).foldl (advance step) World.initial

theorem releasedRun_kept : GoodFrom step RegistryKept World.initial releasedRun := by
  refine ⟨?_, ?_, ?_, ?_, trivial⟩
  · exact .of_call (fun _ _ => by simp) fun _ => by simp
  · refine .of_tmgi (w := releasedState 1) rfl rfl rfl fun contents hrequest => ?_
    cases hrequest
  · exact .of_call (fun _ _ => by simp) fun _ => by simp
  · refine .of_tmgi (w := releasedState 3) rfl rfl rfl fun contents hrequest => ?_
    cases hrequest
    refine ⟨rfl, ⟨rfl, by decide +kernel, rfl, rfl⟩, .inl ⟨by decide +kernel, trivial⟩⟩

/-- The TMGI of that run has left the registry. -/
theorem registry_exact_released : ∃ history, RegistryExact (releasedState 4) history ∧
    (releasedState 3).tmgis = [1] ∧ (releasedState 4).tmgis = [] := by
  obtain ⟨history, hrun⟩ : ∃ history,
      RecordedRun (fun p e => RegistryKept p.1 e) (releasedState 4, history) :=
    Reach.withHistory (Reach.of_goodFrom releasedRun .init releasedRun_kept)
  exact ⟨history, registry_exact hrun, by decide +kernel, by decide +kernel⟩

end ServiceConsumers.TmgiRegistry
