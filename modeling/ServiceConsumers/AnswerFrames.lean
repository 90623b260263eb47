import ServiceConsumers.TmgiCallbacks

set_option autoImplicit false

/-!
# What an answer leaves alone

The handler of an answer is given a session, or it searches the registry for TMGIs. What it
does stays with these: other sessions and TMGIs keep their records and are not called.
-/

namespace ServiceConsumers.AnswerFrames

open ObjectStore PublicSessions ConsumerState TmgiOperations SubscriptionOperations
  SessionOperations ResponseHandlers ProcessEvent TransitionRuns TransactionLog TmgiEffects
  SessionEffects PushEffects AnswerEffects EventEffects SubscriptionLinks StepDecomposition
  SessionCallbacks TmgiContents TmgiSteps TmgiRegistry AllocationMatching TmgiCallbacks

variable {S S' T T' : Set Ref} {w w' w'' v v' : World} {s t : Ref} {n : ℕ} {rsp : Response}

/-! ## Frames -/

/-- Callbacks are invoked of these sessions and TMGIs only. -/
def CallsOnly (S T : Set Ref) : Observation → Prop
  | .sessionCallback _ s _ _ _ => s ∈ S
  | .tmgiCallback _ t _ _ _ => t ∈ T
  | _ => True

/-- Only the sessions `S` and the TMGIs `T` are written, listed otherwise, or called. -/
structure Frame (S T : Set Ref) (w w' : World) : Prop where
  sessions : ∀ s ∉ S, w'.sessionStore s = w.sessionStore s
  context : ∀ s ∉ S, (s ∈ w'.mbsSessions ↔ s ∈ w.mbsSessions)
  tmgis : ∀ t ∉ T, w'.tmgiStore t = w.tmgiStore t
  registry : ∀ t ∉ T, (t ∈ w'.tmgis ↔ t ∈ w.tmgis)
  log : Extends (CallsOnly S T) w w'

namespace Frame

theorem refl (w : World) : Frame S T w w :=
  ⟨fun _ _ => rfl, fun _ _ => Iff.rfl, fun _ _ => rfl, fun _ _ => Iff.rfl, Extends.refl w⟩

theorem trans (h₁ : Frame S T w w') (h₂ : Frame S T w' w'') : Frame S T w w'' :=
  ⟨fun s hs => (h₂.sessions s hs).trans (h₁.sessions s hs),
    fun s hs => (h₂.context s hs).trans (h₁.context s hs),
    fun t ht => (h₂.tmgis t ht).trans (h₁.tmgis t ht),
    fun t ht => (h₂.registry t ht).trans (h₁.registry t ht), h₁.log.trans h₂.log⟩

/-- The records and the lists stay as they are. -/
theorem of_same (hsessions : w'.sessionStore = w.sessionStore)
    (hcontext : w'.mbsSessions = w.mbsSessions) (htmgis : w'.tmgiStore = w.tmgiStore)
    (hregistry : w'.tmgis = w.tmgis) (hlog : Extends (CallsOnly S T) w w') : Frame S T w w' :=
  ⟨fun _ _ => by rw [hsessions], fun _ _ => by rw [hcontext], fun _ _ => by rw [htmgis],
    fun _ _ => by rw [hregistry], hlog⟩

theorem say {o : Observation} (hcalls : CallsOnly S T o) (hsent : sentXact o = none) :
    Frame S T w (w.say o) :=
  of_same rfl rfl rfl rfl (Extends.say hcalls hsent)

theorem refCountSbiObjectRef (o : Option Ref) : Frame S T w (w.refCountSbiObjectRef o) :=
  of_same (by simp) (by simp) (by simp) (by simp) (extends_refCountSbiObjectRef o)

theorem refCountSbiObjectUnref (o : Option Ref) : Frame S T w (w.refCountSbiObjectUnref o) :=
  of_same (by simp) (by simp) (by simp) (by simp)
    (extends_refCountSbiObjectUnref (fun _ => trivial) o)

theorem setSession (hs : s ∈ S) (y : MbsSession) : Frame S T w (w.setSession s y) := by
  refine ⟨fun q hq => Store.set_of_ne _ _ _ ?_, fun _ _ => Iff.rfl, fun _ _ => rfl,
    fun _ _ => Iff.rfl, Extends.of_silent rfl (List.Sublist.refl _) (le_refl _)⟩
  rintro rfl
  exact hq hs

theorem modifySession (hs : s ∈ S) (f : MbsSession → MbsSession) :
    Frame S T w (w.modifySession s f) := by
  refine ⟨fun q hq => Store.modify_of_ne _ _ _ ?_, fun _ _ => Iff.rfl, fun _ _ => rfl,
    fun _ _ => Iff.rfl, Extends.of_silent rfl (List.Sublist.refl _) (le_refl _)⟩
  rintro rfl
  exact hq hs

theorem modifyTmgi (ht : t ∈ T) (f : PrivTmgi → PrivTmgi) : Frame S T w (w.modifyTmgi t f) := by
  refine ⟨fun _ _ => rfl, fun _ _ => Iff.rfl, fun q hq => Store.modify_of_ne _ _ _ ?_,
    fun _ _ => Iff.rfl, Extends.of_silent rfl (List.Sublist.refl _) (le_refl _)⟩
  rintro rfl
  exact hq ht

theorem mbsSessionDoCallback {kind : CallbackKind} {result : CallbackResult}
    {problem : Option ProblemDetails} (hs : s ∈ S)
    (h : mbsSessionDoCallback w n s kind result problem = .ok w') : Frame S T w w' := by
  obtain ⟨y, -, ⟨-, rfl⟩ | ⟨cb, -, rfl⟩⟩ := mbsSessionDoCallback_eq_ok h
  · exact refl _
  · exact say hs rfl

theorem tmgiDoCallback {result : CallbackResult} {problem : Option ProblemDetails} (ht : t ∈ T)
    (h : tmgiDoCallback w n t result problem = .ok w') : Frame S T w w' := by
  simp only [ResponseHandlers.tmgiDoCallback, bind_eq_ok] at h
  obtain ⟨y, -, h⟩ := h
  split at h
  · rw [Except.ok.injEq] at h
    exact h ▸ refl _
  · rw [Except.ok.injEq] at h
    exact h ▸ say ht rfl

theorem finishEvent (m : ℕ) (held : Option Ref) : Frame S T w (finishEvent m held w) := by
  have hremove : Frame S T w (w.removeXact m) := of_same rfl rfl rfl rfl (extends_removeXact m)
  exact hremove.trans (refCountSbiObjectUnref held)

end Frame

/-- Objects that are still to come are among `T`. -/
def HasNew (T : Set Ref) (w : World) : Prop := ∀ t, w.next ≤ t → t ∈ T

theorem HasNew.of_frame (hnew : HasNew T w) (h : Frame S T w w') : HasNew T w' :=
  fun t ht => hnew t (h.log.next.trans ht)

section SessionAnswers

variable {y : MbsSession}

theorem CallsOnly.of_push {o : Observation} (h : PushObservation s o) : CallsOnly S T o := by
  cases o <;> first | exact trivial | cases h

end SessionAnswers

/-! ## Answers to a TMGI request -/

end ServiceConsumers.AnswerFrames
