import ServiceConsumers.TmgiRegistry

set_option autoImplicit false

/-!
# TMGIs of the application in session handling

A session value frees its TMGI, and lets it be overwritten, by its own flag. The flag of the
copy that is kept of a session may differ from the one of the session.
-/

namespace ServiceConsumers.ApplicationTmgis

open ObjectStore PublicSessions ConsumerState TmgiOperations SessionOperations ResponseHandlers
  ProcessEvent TransitionRuns TransactionLog EventEffects StepDecomposition RunInvariants
  AnswerEffects TmgiContents SessionCallbacks TmgiSteps SessionTmgis TmgiRegistry

variable {w w' v v' : World} {e : Event} {s t : Ref} {ts : Set Ref}

/-! ## The law -/

/-- The calls on TMGIs and the answers to TMGI requests. -/
def TmgiEvent (w : World) (e : Event) : Prop :=
  (∃ call, e = .tmgi call) ∨ ∃ n rsp x, e = .network (.response n rsp) ∧
    w.findXact n = some x ∧ x.request.isTmgi = true

/-- The objects keep their content, and stay in the registry or out of it. -/
def Untouched (ts : Set Ref) (w w' : World) : Prop :=
  ∀ t ∈ ts, contentAt w' t = contentAt w t ∧ (t ∈ w'.tmgis ↔ t ∈ w.tmgis)

/-! ## The condition -/

/-- A copy of a session value does not go to an object of the application. -/
def SparesTarget (ts : Set Ref) (dst src : PublicSession Ref) : Prop :=
  src.tmgiReq = true → dst.tmgi ≠ src.tmgi → ∀ d, dst.tmgi = some d → d ∉ ts

/-- A session value that frees its TMGI has one of its own, which has not left the registry:
the second removal would link the neighbours that it had when it left. -/
def SparesOwn (ts : Set Ref) (w : World) (p : PublicSession Ref) : Prop :=
  p.tmgiReq = true → ∀ t, p.tmgi = some t → t ∉ ts ∧ t ∈ w.tmgis

/-- Where session handling writes to a TMGI or frees one, it is not one of the application. -/
structure OwnersRespected (ts : Set Ref) (w : World) (e : Event) : Prop where
  created : ∀ n rsp x s y, e = .network (.response n rsp) → Answers w n rsp x s →
    x.request.isCreate = true → isSuccess rsp.status = true → w.sessionStore s = some y →
    y.session.tmgiReq = true → createUnderstood y rsp = true →
    ∀ d, (y.previousSession.getD {}).tmgi = some d → d ∉ ts
  deleted : ∀ n rsp x s y id, e = .network (.response n rsp) → Answers w n rsp x s →
    x.request = .remove (some id) → w.sessionStore s = some y →
    SparesOwn ts w y.session ∧ ∀ previous, y.previousSession = some previous →
      SparesOwn ts w previous

/-! ## Effects on objects -/

namespace Untouched

theorem refl (w : World) : Untouched ts w w := fun _ _ => ⟨rfl, Iff.rfl⟩

theorem trans (h₁ : Untouched ts w v) (h₂ : Untouched ts v w') : Untouched ts w w' := by
  intro t ht
  exact ⟨(h₂ t ht).1.trans (h₁ t ht).1, (h₂ t ht).2.trans (h₁ t ht).2⟩

theorem of_same (h : SameTmgis w w') : Untouched ts w w' := by
  intro t _
  exact ⟨h.contentAt t, by rw [h.tmgis]⟩

theorem withTmgi (x : PrivTmgi) (hnext : w.next ∉ ts) : Untouched ts w (withTmgi w x) := by
  intro t ht
  have hne : t ≠ w.next := fun heq => hnext (heq ▸ ht)
  constructor
  · exact congrArg (Option.map PrivTmgi.tmgi) (Store.set_of_ne _ _ _ hne)
  · change t ∈ w.tmgis ++ [w.next] ↔ _
    simp [hne]

theorem withoutTmgi (hd : s ∉ ts) : Untouched ts w (withoutTmgi w s) := by
  intro t ht
  have hne : t ≠ s := fun heq => hd (heq ▸ ht)
  constructor
  · exact congrArg (Option.map PrivTmgi.tmgi) (Store.free_of_ne _ _ _ hne)
  · exact List.mem_erase_of_ne hne

theorem modifyTmgi (f : PrivTmgi → PrivTmgi) (hd : s ∉ ts) :
    Untouched ts w (w.modifyTmgi s f) := by
  intro t ht
  have hne : t ≠ s := fun heq => hd (heq ▸ ht)
  exact ⟨congrArg (Option.map PrivTmgi.tmgi) (Store.modify_of_ne _ _ _ hne), Iff.rfl⟩

theorem discarded {x : PrivTmgi} (hnext : w.next ∉ ts)
    (htmgis : w'.tmgis = (w.tmgis ++ [w.next]).erase w.next)
    (hstore : w'.tmgiStore = w.tmgiStore.set w.next x) : Untouched ts w w' := by
  intro t ht
  have hne : t ≠ w.next := fun heq => hnext (heq ▸ ht)
  constructor
  · rw [contentAt, contentAt, hstore, Store.set_of_ne _ _ _ hne]
  · rw [htmgis, List.mem_erase_of_ne hne]
    simp [hne]

theorem copyEffect {dst src : PublicSession Ref} (hnext : w.next ∉ ts)
    (hspares : SparesTarget ts dst src) (h : CopyEffect w dst src w') : Untouched ts w w' := by
  cases h with
  | shared same => exact of_same same
  | freed req source target registered live same =>
      have hd := hspares req (by rw [source, target]; simp) _ target
      exact (withoutTmgi hd).trans (of_same same)
  | overwritten req source target other live same =>
      have hd := hspares req (by rw [source, target]; simpa using other.symm) _ target
      exact (modifyTmgi _ hd).trans (of_same same)
  | made req source target live same => exact (withTmgi _ hnext).trans (of_same same)

theorem frees {p : PublicSession Ref} (hspares : SparesOwn ts w p) (h : Frees v p v') :
    Untouched ts v v' := by
  obtain ⟨u, hu, hsame | ⟨t, hreq, ht, -, hsame⟩⟩ := h
  · exact (of_same hu).trans (of_same hsame)
  · have hother : t ∉ ts := (hspares hreq t ht).1
    exact ((of_same hu).trans (withoutTmgi hother)).trans (of_same hsame)

end Untouched

/-! ## One step -/

theorem Untouched.part (hbound : ∀ t ∈ ts, t < w.next) (hrespected : OwnersRespected ts w e)
    (hother : ¬ TmgiEvent w e) (hpart : TmgiPart w e v v') : Untouched ts v v' := by
  have hfresh : ∀ u : World, w.next ≤ u.next → u.next ∉ ts := by
    intro u hu hmem
    exact absurd (hbound _ hmem) (not_lt_of_ge hu)
  cases hpart with
  | quiet same => exact of_same same
  | create event =>
      cases e with
      | tmgi call => exact absurd (.inl ⟨call, rfl⟩) hother
      | _ => cases event
  | free event run => exact absurd (.inl ⟨_, event⟩) hother
  | set event setting run => exact absurd (.inl ⟨_, event⟩) hother
  | allocated event answers method same run =>
      exact absurd (.inr ⟨_, _, _, event, answers.outstanding, answers.service⟩) hother
  | deallocated event answers method same run =>
      exact absurd (.inr ⟨_, _, _, event, answers.outstanding, answers.service⟩) hother
  | @parse n rsp x s _ understood event answers request status run =>
      obtain ⟨y, hy, -⟩ := nmbsmfMbsSessionParse_eq_ok run
      have hnext : w.next ∉ ts := hfresh w (le_refl _)
      cases parseEffect hy run with
      | nothing idle same => exact of_same same
      | discarded misunderstood tmgis store next called =>
          exact Untouched.discarded hnext tmgis store
      | granted req understood made source copied =>
          have hspares := hrespected.created n rsp x s y event answers request status hy req
            understood
          have hgranted := (withTmgi (w := handlingState w x rsp) _ hnext).trans (of_same made)
          refine hgranted.trans (copyEffect (hfresh _ ?_) (fun _ _ => hspares) copied)
          exact (Nat.le_succ _).trans made.next
  | @left n rsp x s id _ _ event answers request usable same sessions run =>
      obtain ⟨y, hy⟩ := live_of_contextRemoveMbsSession run
      obtain ⟨hown, hcopy⟩ := hrespected.deleted n rsp x s y id event answers request
        (sessions ▸ hy)
      obtain ⟨u, hu, hfrees⟩ := frees_contextRemoveMbsSession hy run
      refine Untouched.trans ?_ (frees hown hfrees)
      rcases hu with hsame | ⟨p, hp, hfrees⟩
      · exact of_same hsame
      · exact frees (hcopy p hp) hfrees

theorem Untouched.parts (hbound : ∀ t ∈ ts, t < w.next) (hrespected : OwnersRespected ts w e)
    (hother : ¬ TmgiEvent w e) (hparts : TmgiParts w e w v) : Untouched ts w v := by
  induction hparts with
  | refl => exact refl w
  | tail _ hlast ih => exact ih.trans (Untouched.part hbound hrespected hother hlast)

/-! ## Runs -/

def createdState : World := advance step World.initial (.tmgi (.create none))

/-- The MB-SMF creates a session with a TMGI of the application. -/
def givenRun : List Event :=
  [.session (.newIpv4 none none), .session (.setTmgi 4 (some 1)), .session (.pushChanges 4),
   .network (.response 5
     { status := 201, resStatus := 201, createLocation := .resource "a",
       createRspData := some (some {}) })]

def deletionRun : List Event := [.session (.delete 4), .session (.pushChanges 4)]

/-- The application asks for a TMGI of the session's own, and then deletes the session. -/
def askedRun : List Event := givenRun ++ .session (.edit 4 { tmgiReq := true }) :: deletionRun

def askedState : World := askedRun.foldl (advance step) createdState

theorem OwnersRespected.of_call (h : ∀ n rsp, e ≠ .network (.response n rsp)) :
    OwnersRespected ts w e :=
  ⟨fun n rsp _ _ _ he => absurd he (h n rsp), fun n rsp _ _ _ _ he => absurd he (h n rsp)⟩

def deletedState : World := (givenRun ++ deletionRun).foldl (advance step) createdState

end ServiceConsumers.ApplicationTmgis
