import ServiceConsumers.HoldingPeriods
import ServiceConsumers.SessionOperations

set_option autoImplicit false

/-!
# The data of the callbacks of a session

Each of the three result callbacks of a session has a data pointer and a function that frees
it. A pointer may be registered with several of them.
-/

namespace ServiceConsumers.CallbackData

open Function HoldingPeriods SessionOperations

instance : Fintype CallbackKind where
  elems := {.create, .update, .delete}
  complete := by
    intro k
    cases k <;> decide

variable {C D F : Type} [DecidableEq D]

/-- One result callback of `_priv_mbs_session_t`. -/
structure CallbackSlot (C D F : Type) where
  resultCb : Option C := none
  resultCbData : Option D := none
  cbDataFree : Option F := none

/-- The result callbacks of `_priv_mbs_session_t`. -/
structure ResultCallbacks (C D F : Type) where
  slot : CallbackKind → CallbackSlot C D F := fun _ => {}
  deleted : Bool := false

/-- What the session holds. -/
def ResultCallbacks.data (x : ResultCallbacks C D F) (k : CallbackKind) : Option D :=
  (x.slot k).resultCbData

/-- A function of the library, with the moments at which it writes to a data pointer. -/
abbrev Traced (C D F : Type) := ResultCallbacks C D F × List (Moment CallbackKind D F)

def Traced.andThen (t : Traced C D F) (f : ResultCallbacks C D F → Traced C D F) : Traced C D F :=
  ((f t.1).1, t.2 ++ (f t.1).2)

def moment (x y : ResultCallbacks C D F) (freed : Option (F × D)) : Traced C D F :=
  (y, [⟨x.data, freed, y.data⟩])

/-! ## Releasing -/

/-- The release of the data of one callback: it is freed unless one of the two others has it. -/
def releaseCallbackDataOf (k other another : CallbackKind) (x : ResultCallbacks C D F) :
    Traced C D F :=
  match x.data k with
  | none => (x, [])
  | some d =>
      moment x { x with slot := update x.slot k { x.slot k with resultCbData := none } }
        (match (x.slot k).cbDataFree with
        | none => none
        | some free =>
            if x.data other ≠ some d ∧ x.data another ≠ some d then some (free, d) else none)

/-- `_mbs_session_release_create_callback_data`. -/
def releaseCreateCallbackData : ResultCallbacks C D F → Traced C D F :=
  releaseCallbackDataOf .create .delete .update

/-- `_mbs_session_release_update_callback_data`. -/
def releaseUpdateCallbackData : ResultCallbacks C D F → Traced C D F :=
  releaseCallbackDataOf .update .create .delete

/-- `_mbs_session_release_delete_callback_data`. -/
def releaseDeleteCallbackData : ResultCallbacks C D F → Traced C D F :=
  releaseCallbackDataOf .delete .create .update

/-- `_mbs_session_release_callback_data`. -/
def releaseCallbackData (x : ResultCallbacks C D F) : Traced C D F :=
  ((releaseCreateCallbackData x).andThen releaseUpdateCallbackData).andThen
    releaseDeleteCallbackData

/-! ## Registering -/

/-- A callback, its data and the function that frees it; a setter without such a function
passes `NULL`. -/
structure Registration (C D F : Type) where
  callback : Option C
  data : Option D
  dataFree : Option F

def Registration.toSlot (r : Registration C D F) : CallbackSlot C D F :=
  { resultCb := r.callback, resultCbData := r.data, cbDataFree := r.dataFree }

/-- A setter of one callback: other data is released before the new is stored. -/
def setCallbackFreefnOf (k : CallbackKind) (release : ResultCallbacks C D F → Traced C D F)
    (r : Registration C D F) (x : ResultCallbacks C D F) : Traced C D F :=
  (if x.data k ≠ r.data then release x else (x, [])).andThen fun x =>
    moment x { x with slot := update x.slot k r.toSlot } none

/-- `_mbs_session_set_create_callback_freefn`. -/
def setCreateCallbackFreefn : Registration C D F → ResultCallbacks C D F → Traced C D F :=
  setCallbackFreefnOf .create releaseCreateCallbackData

/-- `_mbs_session_set_update_callback_freefn`. -/
def setUpdateCallbackFreefn : Registration C D F → ResultCallbacks C D F → Traced C D F :=
  setCallbackFreefnOf .update releaseUpdateCallbackData

/-- `_mbs_session_set_delete_callback_freefn`. -/
def setDeleteCallbackFreefn : Registration C D F → ResultCallbacks C D F → Traced C D F :=
  setCallbackFreefnOf .delete releaseDeleteCallbackData

/-- `_mbs_session_set_callback_freefn`. -/
def setCallbackFreefn (r : Registration C D F) (x : ResultCallbacks C D F) : Traced C D F :=
  if x.deleted then (x, [])
  else
    ((setCreateCallbackFreefn r x).andThen (setUpdateCallbackFreefn r)).andThen
      (setDeleteCallbackFreefn r)

/-! ## The life of a session -/

/-- The calls that concern the callbacks; `delete` is `mb_smf_sc_mbs_session_delete`. -/
inductive Call (C D F : Type) where
  | setCallback (r : Registration C D F)
  | setCreateCallback (r : Registration C D F)
  | setUpdateCallback (r : Registration C D F)
  | setDeleteCallback (r : Registration C D F)
  | delete

def Call.registration : Call C D F → Option (Registration C D F)
  | .setCallback r | .setCreateCallback r | .setUpdateCallback r | .setDeleteCallback r => some r
  | .delete => none

def callStep (x : ResultCallbacks C D F) : Call C D F → Traced C D F
  | .setCallback r => setCallbackFreefn r x
  | .setCreateCallback r => setCreateCallbackFreefn r x
  | .setUpdateCallback r => setUpdateCallbackFreefn r x
  | .setDeleteCallback r => setDeleteCallbackFreefn r x
  | .delete => ({ x with deleted := true }, [])

def callSteps (x : ResultCallbacks C D F) : List (Call C D F) → Traced C D F
  | [] => (x, [])
  | c :: calls => (callStep x c).andThen fun x => callSteps x calls

/-- From `_mbs_session_new` to `_mbs_session_delete`. -/
def lifetime (calls : List (Call C D F)) : Traced C D F :=
  (callSteps {} calls).andThen releaseCallbackData

/-- Each data pointer comes with the function that the application frees it by. -/
def SuppliesFree (free : D → Option F) (c : Call C D F) : Prop :=
  ∀ r, c.registration = some r → ∀ d, r.data = some d → r.dataFree = free d

/-! ## What a step frees -/

/-- The functions that are stored are those of the data. -/
def Consistent (free : D → Option F) (x : ResultCallbacks C D F) : Prop :=
  ∀ k d, x.data k = some d → (x.slot k).cbDataFree = free d

/-- A function that starts with these callbacks, stores the functions of the data, and frees
what it lets go. -/
structure Frees (free : D → Option F) (x : ResultCallbacks C D F) (t : Traced C D F) : Prop where
  chained : Chained x.data t.2 t.1.data
  consistent : Consistent free t.1
  moments : ∀ m ∈ t.2, FreesWhatIsLetGo free m

variable {free : D → Option F} {x : ResultCallbacks C D F} {t : Traced C D F} {k : CallbackKind}

omit [DecidableEq D] in
theorem frees_nothing (h : Consistent free x) : Frees free x (x, []) where
  chained := rfl
  consistent := h
  moments := by simp

omit [DecidableEq D] in
theorem Frees.andThen {f : ResultCallbacks C D F → Traced C D F} (ht : Frees free x t)
    (hf : Consistent free t.1 → Frees free t.1 (f t.1)) : Frees free x (t.andThen f) where
  chained := ht.chained.append (hf ht.consistent).chained
  consistent := (hf ht.consistent).consistent
  moments := by
    intro m hm
    rcases List.mem_append.1 hm with hm | hm
    · exact ht.moments m hm
    · exact (hf ht.consistent).moments m hm

omit [DecidableEq D] in
theorem frees_moment {y : ResultCallbacks C D F} {freed : Option (F × D)}
    (hy : Consistent free y) (h : FreesWhatIsLetGo free ⟨x.data, freed, y.data⟩) :
    Frees free x (moment x y freed) where
  chained := ⟨rfl, rfl⟩
  consistent := hy
  moments := by
    intro m hm
    rw [List.mem_singleton.1 hm]
    exact h

omit [DecidableEq D] in
theorem data_update (x : ResultCallbacks C D F) (k : CallbackKind) (s : CallbackSlot C D F) :
    ResultCallbacks.data { x with slot := update x.slot k s } =
      update x.data k s.resultCbData := by
  funext j
  by_cases h : j = k
  · subst h
    simp [ResultCallbacks.data]
  · simp [ResultCallbacks.data, update_of_ne h]

omit [DecidableEq D] in
theorem Consistent.update {s : CallbackSlot C D F} (h : Consistent free x)
    (hs : ∀ d, s.resultCbData = some d → s.cbDataFree = free d) :
    Consistent free { x with slot := Function.update x.slot k s } := by
  intro j d hd
  rw [data_update] at hd
  by_cases hj : j = k
  · subst hj
    rw [update_self] at hd
    change (Function.update x.slot j s j).cbDataFree = free d
    rw [update_self]
    exact hs d hd
  · rw [update_of_ne hj] at hd
    change (Function.update x.slot k s j).cbDataFree = free d
    rw [update_of_ne hj]
    exact h j d hd

/-- The two callbacks that a release looks at are the two others. -/
def Others (k other another : CallbackKind) : Prop := ∀ j, j ≠ k ↔ j = other ∨ j = another

instance (k other another : CallbackKind) : Decidable (Others k other another) :=
  inferInstanceAs (Decidable (∀ j, j ≠ k ↔ j = other ∨ j = another))

omit [DecidableEq D] in
/-- What a release passes to the function, by the data of the two other callbacks. -/
theorem freed_iff {other another : CallbackKind} [DecidableEq D]
    (hothers : Others k other another) {d d' : D} {f : F} :
    (match free d with
      | none => none
      | some g => if x.data other ≠ some d ∧ x.data another ≠ some d then some (g, d) else none)
        = some (f, d') ↔
      (some d = some d' ∧ ∀ j, j ≠ k → x.data j ≠ some d') ∧ free d' = some f := by
  have hlast : (∀ j, j ≠ k → x.data j ≠ some d) ↔
      x.data other ≠ some d ∧ x.data another ≠ some d := by
    constructor
    · intro h
      exact ⟨h other ((hothers other).2 (.inl rfl)), h another ((hothers another).2 (.inr rfl))⟩
    · rintro ⟨h, h'⟩ j hj
      rcases (hothers j).1 hj with rfl | rfl
      · exact h
      · exact h'
  constructor
  · intro h
    cases hfree : free d with
    | none => simp [hfree] at h
    | some g =>
        rw [hfree] at h
        split_ifs at h with hno
        cases h
        exact ⟨⟨rfl, hlast.2 hno⟩, hfree⟩
  · rintro ⟨⟨hd, hno⟩, hfree⟩
    cases hd
    rw [hfree]
    exact if_pos (hlast.1 hno)

theorem releaseCallbackDataOf_frees {other another : CallbackKind}
    (hothers : Others k other another) (h : Consistent free x) :
    Frees free x (releaseCallbackDataOf k other another x) := by
  unfold releaseCallbackDataOf
  cases hdata : x.data k with
  | none => exact frees_nothing h
  | some d =>
      refine frees_moment (h.update fun d hd => ?_) fun d' f => ?_
      · cases hd
      · change _ = _ ↔ Holds x.data d' ∧ ¬ Holds (ResultCallbacks.data _) d' ∧ _
        rw [data_update, ← and_assoc, letGo_iff, hdata, h k d hdata]
        exact freed_iff hothers

/-- A released callback has no data, and the others keep theirs. -/
theorem releaseCallbackDataOf_data {other another : CallbackKind} :
    (releaseCallbackDataOf k other another x).1.data = update x.data k none := by
  unfold releaseCallbackDataOf
  cases hdata : x.data k with
  | none => exact (hdata ▸ update_eq_self k x.data).symm
  | some d => exact data_update x k _

theorem setCallbackFreefnOf_frees {other another : CallbackKind} {r : Registration C D F}
    (hothers : Others k other another) (hr : ∀ d, r.data = some d → r.dataFree = free d)
    (h : Consistent free x) :
    Frees free x (setCallbackFreefnOf k (releaseCallbackDataOf k other another) r x) := by
  have hwrite : ∀ {y : ResultCallbacks C D F}, Consistent free y →
      (y.data k = none ∨ y.data k = r.data) →
      Frees free y (moment y { y with slot := update y.slot k r.toSlot } none) := by
    intro y hy hfree
    refine frees_moment (hy.update hr) fun d f => ?_
    -- nothing is let go where the slot is empty or keeps what it has
    change _ ↔ Holds y.data d ∧ ¬ Holds (ResultCallbacks.data _) d ∧ _
    rw [data_update]
    constructor
    · intro hnone
      cases hnone
    · rintro ⟨hheld, hgone, -⟩
      exact absurd (holds_update_of_holds hfree hheld) hgone
  unfold setCallbackFreefnOf
  split_ifs with hsame
  · refine (releaseCallbackDataOf_frees hothers h).andThen fun hy => hwrite hy (.inl ?_)
    rw [releaseCallbackDataOf_data, update_self]
  · exact (frees_nothing h).andThen fun hy => hwrite hy (.inr (not_not.1 hsame))

theorem callStep_frees {c : Call C D F} (hc : SuppliesFree free c) (h : Consistent free x) :
    Frees free x (callStep x c) := by
  cases c with
  | setCallback r =>
      have hr := hc r rfl
      change Frees free x (setCallbackFreefn r x)
      unfold setCallbackFreefn
      split_ifs
      · exact frees_nothing h
      · exact ((setCallbackFreefnOf_frees (by decide) hr h).andThen
          (setCallbackFreefnOf_frees (by decide) hr)).andThen
            (setCallbackFreefnOf_frees (by decide) hr)
  | setCreateCallback r => exact setCallbackFreefnOf_frees (by decide) (hc r rfl) h
  | setUpdateCallback r => exact setCallbackFreefnOf_frees (by decide) (hc r rfl) h
  | setDeleteCallback r => exact setCallbackFreefnOf_frees (by decide) (hc r rfl) h
  | delete => exact ⟨rfl, h, by simp [callStep]⟩

theorem callSteps_frees {calls : List (Call C D F)} (hcalls : ∀ c ∈ calls, SuppliesFree free c)
    (h : Consistent free x) : Frees free x (callSteps x calls) := by
  induction calls generalizing x with
  | nil => exact frees_nothing h
  | cons c calls ih =>
      exact (callStep_frees (hcalls c List.mem_cons_self) h).andThen
        (ih fun c' hc' => hcalls c' (List.mem_cons_of_mem c hc'))

theorem releaseCallbackData_frees (h : Consistent free x) :
    Frees free x (releaseCallbackData x) :=
  ((releaseCallbackDataOf_frees (by decide) h).andThen
    (releaseCallbackDataOf_frees (by decide))).andThen (releaseCallbackDataOf_frees (by decide))

/-- A session that is deleted holds no data. -/
theorem releaseCallbackData_data : (releaseCallbackData x).1.data = fun _ => none := by
  change (releaseCallbackDataOf _ _ _ (releaseCallbackDataOf _ _ _
    (releaseCallbackDataOf _ _ _ x).1).1).1.data = _
  rw [releaseCallbackDataOf_data, releaseCallbackDataOf_data, releaseCallbackDataOf_data]
  funext k
  cases k <;> rfl

theorem lifetime_frees {calls : List (Call C D F)} (hcalls : ∀ c ∈ calls, SuppliesFree free c) :
    Frees free ({} : ResultCallbacks C D F) (lifetime calls) :=
  (callSteps_frees hcalls fun _ _ hd => by cases hd).andThen releaseCallbackData_frees

/-! ## The callbacks that the session calls -/

/-- The callback of a session as the handlers of responses call it. -/
def CallbackSlot.resultCallback (s : CallbackSlot ℕ ℕ F) : Option ConsumerState.ResultCallback :=
  s.resultCb.map fun function => { function := function, data := s.resultCbData.getD 0 }

/-- The session has these callbacks. -/
def Represents (x : ResultCallbacks ℕ ℕ F) (y : ConsumerState.MbsSession) : Prop :=
  y.deleted = x.deleted ∧ ∀ k, callbackOf y k = (x.slot k).resultCallback

/-- What the calls write to the session. -/
def sessionWrite (y : ConsumerState.MbsSession) : Call ℕ ℕ F → ConsumerState.MbsSession
  | .setCallback r => if y.deleted then y else setAllCallbacks y r.toSlot.resultCallback
  | .setCreateCallback r => setCallbackOf y r.toSlot.resultCallback .create
  | .setUpdateCallback r => setCallbackOf y r.toSlot.resultCallback .update
  | .setDeleteCallback r => setCallbackOf y r.toSlot.resultCallback .delete
  | .delete => { y with deleted := true }

/-- A release leaves the other callbacks and the flag alone. -/
theorem releaseCallbackDataOf_slot (x : ResultCallbacks C D F) (k other another : CallbackKind) :
    (releaseCallbackDataOf k other another x).1.deleted = x.deleted ∧
      ∀ j, j ≠ k → (releaseCallbackDataOf k other another x).1.slot j = x.slot j := by
  unfold releaseCallbackDataOf
  cases x.data k with
  | none => exact ⟨rfl, fun _ _ => rfl⟩
  | some d => exact ⟨rfl, fun j hj => update_of_ne hj _ _⟩

/-- A setter changes its own callback and no other. -/
theorem setCallbackFreefnOf_slot (x : ResultCallbacks C D F) (k other another : CallbackKind)
    (r : Registration C D F) :
    (setCallbackFreefnOf k (releaseCallbackDataOf k other another) r x).1.deleted = x.deleted ∧
      (setCallbackFreefnOf k (releaseCallbackDataOf k other another) r x).1.slot =
        update x.slot k r.toSlot := by
  unfold setCallbackFreefnOf
  split_ifs with hsame
  · obtain ⟨hdeleted, hothers⟩ := releaseCallbackDataOf_slot x k other another
    refine ⟨hdeleted, funext fun j => ?_⟩
    change update (releaseCallbackDataOf k other another x).1.slot k r.toSlot j = _
    by_cases hj : j = k
    · rw [hj, update_self, update_self]
    · rw [update_of_ne hj, update_of_ne hj, hothers j hj]
  · exact ⟨rfl, rfl⟩

omit [DecidableEq D] in
theorem Represents.setCallbackFreefnOf {x : ResultCallbacks ℕ ℕ F} {y : ConsumerState.MbsSession}
    (h : Represents x y) (k other another : CallbackKind) (r : Registration ℕ ℕ F) :
    Represents (setCallbackFreefnOf k (releaseCallbackDataOf k other another) r x).1
      (setCallbackOf y r.toSlot.resultCallback k) := by
  obtain ⟨hdeleted, hslots⟩ := h
  obtain ⟨hflag, hslot⟩ := setCallbackFreefnOf_slot x k other another r
  refine ⟨?_, fun j => ?_⟩
  · rw [hflag, ← hdeleted]
    cases k <;> rfl
  · rw [hslot]
    have hj := hslots j
    cases k <;> cases j <;> first | rfl | exact hj

/-- The session keeps calling the callbacks that were registered last. -/
theorem represents_callStep {x : ResultCallbacks ℕ ℕ F} {y : ConsumerState.MbsSession}
    (h : Represents x y) (c : Call ℕ ℕ F) : Represents (callStep x c).1 (sessionWrite y c) := by
  cases c with
  | setCallback r =>
      unfold callStep sessionWrite
      simp only [setCallbackFreefn, h.1]
      split_ifs
      · exact h
      · exact ((h.setCallbackFreefnOf .create .delete .update r).setCallbackFreefnOf
          .update .create .delete r).setCallbackFreefnOf .delete .create .update r
  | setCreateCallback r => exact h.setCallbackFreefnOf .create .delete .update r
  | setUpdateCallback r => exact h.setCallbackFreefnOf .update .create .delete r
  | setDeleteCallback r => exact h.setCallbackFreefnOf .delete .create .update r
  | delete => exact ⟨rfl, h.2⟩

/-- Over the life of a session, each pointer is passed to its function once for each period in
which some callback has it, namely when the last of them lets it go. -/
theorem callbackData_freed_once [DecidableEq F] (free : D → Option F) (calls : List (Call C D F))
    (hcalls : ∀ c ∈ calls, SuppliesFree free c) :
    Chained (fun _ => none) (lifetime calls).2 (fun _ => none) ∧
      (∀ m ∈ (lifetime calls).2, FreesWhatIsLetGo free m) ∧
      ∀ d f, free d = some f →
        timesFreed f d (lifetime calls).2 = periods d false (lifetime calls).2 := by
  have h := lifetime_frees hcalls
  have hchained : Chained (fun _ => none) (lifetime calls).2 (fun _ => none) := by
    have hlast : (lifetime calls).1.data = fun _ => none := releaseCallbackData_data
    have hrun := h.chained
    rw [hlast] at hrun
    exact hrun
  have hnone : ∀ d, ¬ Holds (fun _ : CallbackKind => (none : Option D)) d := by
    rintro d ⟨k, hk⟩
    cases hk
  exact ⟨hchained, h.moments, fun d f hf =>
    timesFreed_eq_periods hf hchained h.moments (hnone d) (hnone d)⟩

/-- One pointer for all callbacks, which is replaced and comes back for one of them. -/
def sharedData : List (Call ℕ ℕ ℕ) :=
  [.setCallback ⟨some 0, some 1, some 9⟩, .setUpdateCallback ⟨some 0, some 2, none⟩,
    .setCallback ⟨some 0, some 2, none⟩, .setDeleteCallback ⟨none, some 1, some 9⟩, .delete]

theorem callbackData_freed_once_shared :
    timesFreed 9 1 (lifetime sharedData).2 = periods 1 false (lifetime sharedData).2 ∧
      periods 1 false (lifetime sharedData).2 = 2 := by
  have hsupplies : ∀ c ∈ sharedData, SuppliesFree (fun d => if d = 1 then some 9 else none) c := by
    intro c hc r hr d hd
    simp only [sharedData, List.mem_cons, List.not_mem_nil, or_false] at hc
    rcases hc with rfl | rfl | rfl | rfl | rfl <;> cases hr <;> cases hd <;> rfl
  exact ⟨(callbackData_freed_once _ sharedData hsupplies).2.2 1 9 rfl, by decide⟩

end ServiceConsumers.CallbackData
