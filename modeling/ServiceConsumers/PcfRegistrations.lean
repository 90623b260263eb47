import Mathlib.Data.List.Induction
import ServiceConsumers.EventMasks

set_option autoImplicit false

/-!
# Registrations for the events of an app session (`pcf-client.c`)

A registration can be added and taken back in parts. What is left of it at any time is told from
the calls made since it was added.
-/

namespace ServiceConsumers.PcfRegistrations

open PcfEvents EventMasks

/-- `pcf_event_notification_t` with its callback and the user data, which may be `NULL`. -/
structure EventNotification (C U : Type) where
  callback : C
  userData : Option U
  events : BitVec 32
  deriving DecidableEq, Repr

variable {C U : Type}

/-- `_pcf_app_session_add_event_notification`. -/
def pcfAppSessionAddEventNotification (registrations : List (EventNotification C U))
    (eventsMask : BitVec 32) (notifyCallback : Option C) (notifyUserData : Option U)
    (allocated : Bool) : List (EventNotification C U) × Bool :=
  match notifyCallback with
  | none => (registrations, false)
  | some callback =>
      if allocated then
        (registrations ++ [{ callback := callback, userData := notifyUserData,
                             events := eventsMask }], true)
      else (registrations, false)

variable [DecidableEq C] [DecidableEq U]

/-- Whether a removal is meant for a registration. -/
def matchesRemoval (node : EventNotification C U) (notifyCallback : Option C)
    (notifyUserData : Option U) : Bool :=
  match notifyCallback with
  | none => true
  | some callback =>
      node.callback = callback && (notifyUserData = none || node.userData = notifyUserData)

/-- What a removal leaves of one registration. -/
def removeEvents (eventsMask : BitVec 32) (notifyCallback : Option C) (notifyUserData : Option U)
    (node : EventNotification C U) : Option (EventNotification C U) :=
  if matchesRemoval node notifyCallback notifyUserData then
    if node.events &&& ~~~eventsMask = 0 then none
    else some { node with events := node.events &&& ~~~eventsMask }
  else some node

/-- `_pcf_app_session_remove_event_notification`. -/
def pcfAppSessionRemoveEventNotification (registrations : List (EventNotification C U))
    (eventsMask : BitVec 32) (notifyCallback : Option C) (notifyUserData : Option U) :
    List (EventNotification C U) :=
  registrations.filterMap (removeEvents eventsMask notifyCallback notifyUserData)

/-- The registrations that `_pcf_app_session_notifications_callback_call` calls, and the result;
`answer` is what a callback returns. -/
def pcfAppSessionNotificationsCallbackCall (registrations : List (EventNotification C U))
    (answer : C → Option U → Bool) (notifications : List NpcfAfEvent) :
    List (EventNotification C U) × Bool :=
  registrations.foldl (fun (called, result) node =>
    if node.events &&& eventsMask notifications ≠ 0 then
      (called ++ [node], result && answer node.callback node.userData)
    else (called, result)) ([], true)

inductive RegistrationCall (C U : Type) where
  | add (eventsMask : BitVec 32) (notifyCallback : Option C) (notifyUserData : Option U)
      (allocated : Bool)
  | remove (eventsMask : BitVec 32) (notifyCallback : Option C) (notifyUserData : Option U)

def callStep (registrations : List (EventNotification C U)) :
    RegistrationCall C U → List (EventNotification C U)
  | .add mask callback data allocated =>
      (pcfAppSessionAddEventNotification registrations mask callback data allocated).1
  | .remove mask callback data =>
      pcfAppSessionRemoveEventNotification registrations mask callback data

def runCalls (registrations : List (EventNotification C U)) (calls : List (RegistrationCall C U)) :
    List (EventNotification C U) := calls.foldl callStep registrations

/-! ## What is left of a registration -/

/-- The masks of the removals that are meant for a registration. -/
def removedMasks (r : EventNotification C U) (calls : List (RegistrationCall C U)) :
    List (BitVec 32) :=
  calls.filterMap fun call =>
    match call with
    | .add .. => none
    | .remove mask callback data => if matchesRemoval r callback data then some mask else none

/-- The events of a registration without those of any removal. -/
def eventsLeft (r : EventNotification C U) (calls : List (RegistrationCall C U)) : BitVec 32 :=
  (removedMasks r calls).foldl (fun events mask => events &&& ~~~mask) r.events

/-- A registration is there as long as no removal is meant for it, or events are left. -/
def Remains (r : EventNotification C U) (calls : List (RegistrationCall C U)) : Prop :=
  removedMasks r calls = [] ∨ eventsLeft r calls ≠ 0

instance (r : EventNotification C U) (calls : List (RegistrationCall C U)) :
    Decidable (Remains r calls) := inferInstanceAs (Decidable (_ ∨ _))

/-- The registration as it is after the calls, when it is there. -/
def remaining (r : EventNotification C U) (calls : List (RegistrationCall C U)) :
    Option (EventNotification C U) :=
  if Remains r calls then some { r with events := eventsLeft r calls } else none

/-- What is left of the registrations that the calls add, each by the calls after it. -/
def addedRemaining : List (RegistrationCall C U) → List (EventNotification C U)
  | .add mask (some callback) data true :: calls =>
      (remaining { callback := callback, userData := data, events := mask } calls).toList ++
        addedRemaining calls
  | _ :: calls => addedRemaining calls
  | [] => []

variable {r : EventNotification C U} {call : RegistrationCall C U}
  {calls later : List (RegistrationCall C U)} {registrations : List (EventNotification C U)}

theorem removedMasks_append : removedMasks r (calls ++ later) =
    removedMasks r calls ++ removedMasks r later := List.filterMap_append

theorem removedMasks_remove {mask : BitVec 32} {callback : Option C} {data : Option U} :
    removedMasks r (.remove mask callback data :: calls) =
      if matchesRemoval r callback data then mask :: removedMasks r calls
      else removedMasks r calls := by
  rw [removedMasks, List.filterMap_cons]
  split <;> rename_i h <;> split <;> simp_all [removedMasks]

/-- Nothing comes back by a removal. -/
theorem foldl_removed_zero (masks : List (BitVec 32)) :
    masks.foldl (fun events mask => events &&& ~~~mask) 0 = 0 := by
  induction masks with
  | nil => rfl
  | cons m ms ih =>
      have hzero : (0 : BitVec 32) &&& ~~~m = 0 := BitVec.zero_and
      rw [List.foldl_cons, hzero]
      exact ih

theorem eventsLeft_append (h : eventsLeft r calls = 0) : eventsLeft r (calls ++ later) = 0 := by
  rw [eventsLeft, removedMasks_append, List.foldl_append]
  change (removedMasks r later).foldl _ (eventsLeft r calls) = 0
  rw [h]
  exact foldl_removed_zero _

theorem remaining_add {mask : BitVec 32} {callback : Option C} {data : Option U}
    {allocated : Bool} :
    remaining r (.add mask callback data allocated :: calls) = remaining r calls := rfl

/-- A removal comes first, and the other calls see what it leaves. -/
theorem remaining_remove {mask : BitVec 32} {callback : Option C} {data : Option U} :
    remaining r (.remove mask callback data :: calls) =
      (removeEvents mask callback data r).bind fun r' => remaining r' calls := by
  unfold removeEvents
  by_cases hmatch : matchesRemoval r callback data = true
  · have hmasks : removedMasks r (.remove mask callback data :: calls) =
        mask :: removedMasks r calls := by
      rw [removedMasks_remove, if_pos hmatch]
    have hleft : eventsLeft r (.remove mask callback data :: calls) =
        (removedMasks r calls).foldl (fun events m => events &&& ~~~m) (r.events &&& ~~~mask) := by
      rw [eventsLeft, hmasks, List.foldl_cons]
    rw [if_pos hmatch]
    by_cases hzero : r.events &&& ~~~mask = 0
    · rw [hzero, foldl_removed_zero] at hleft
      rw [if_pos hzero, remaining, if_neg, Option.bind_none]
      rw [Remains, hmasks, hleft]
      simp
    · rw [if_neg hzero, Option.bind_some]
      have hiff : Remains r (.remove mask callback data :: calls) ↔
          Remains { r with events := r.events &&& ~~~mask } calls := by
        rw [Remains, Remains, hmasks, hleft]
        change _ ↔ removedMasks r calls = [] ∨
          (removedMasks r calls).foldl (fun events m => events &&& ~~~m) (r.events &&& ~~~mask) ≠ 0
        rw [or_iff_right (List.cons_ne_nil _ _)]
        constructor
        · exact .inr
        · rintro (hnil | h)
          · rw [hnil]
            exact hzero
          · exact h
      rw [remaining, remaining, hleft]
      exact if_congr hiff rfl rfl
  · have hmasks : removedMasks r (.remove mask callback data :: calls) = removedMasks r calls := by
      rw [removedMasks_remove, if_neg hmatch]
    have hleft : eventsLeft r (.remove mask callback data :: calls) = eventsLeft r calls := by
      rw [eventsLeft, eventsLeft, hmasks]
    have hiff : Remains r (.remove mask callback data :: calls) ↔ Remains r calls := by
      simp only [Remains, hmasks, hleft]
    rw [if_neg hmatch, Option.bind_some, remaining, remaining, hleft]
    exact if_congr hiff rfl rfl

/-! ## Runs -/

theorem remaining_nil : remaining r [] = some r := if_pos (.inl rfl)

/-- The registrations after some calls: what is left of each that was there, then of each that the
calls add. -/
theorem runCalls_eq : runCalls registrations calls =
    registrations.filterMap (fun r => remaining r calls) ++ addedRemaining calls := by
  induction calls generalizing registrations with
  | nil =>
      have hsome : (fun r : EventNotification C U => remaining r []) = some :=
        funext fun _ => remaining_nil
      rw [hsome, List.filterMap_some, addedRemaining, List.append_nil]
      rfl
  | cons call calls ih =>
      change runCalls (callStep registrations call) calls = _
      rw [ih]
      cases call with
      | add mask callback data allocated =>
          simp only [remaining_add]
          cases callback with
          | none => cases allocated <;> rfl
          | some callback =>
              cases allocated with
              | false => rfl
              | true =>
                  change (registrations ++ [_]).filterMap _ ++ _ = _
                  rw [List.filterMap_append, List.append_assoc, addedRemaining]
                  congr 2
      | remove mask callback data =>
          simp only [remaining_remove]
          change (registrations.filterMap _).filterMap _ ++ _ = _
          have hrest : addedRemaining (.remove mask callback data :: calls) =
              addedRemaining calls := rfl
          rw [List.filterMap_filterMap, hrest]

/-- A registration is gone when, at some removal that was meant for it, it was still there and
nothing was left of it. -/
theorem remaining_eq_none : remaining r calls = none ↔
    ∃ before call after, calls = before ++ call :: after ∧ (remaining r before).isSome = true ∧
      removedMasks r [call] ≠ [] ∧ eventsLeft r (before ++ [call]) = 0 := by
  have hnone : ∀ calls, remaining r calls = none ↔
      removedMasks r calls ≠ [] ∧ eventsLeft r calls = 0 := by
    intro calls
    rw [remaining, ite_eq_right_iff]
    simp [Remains]
  constructor
  · intro h
    induction calls using List.reverseRecOn with
    | nil => cases remaining_nil.symm.trans h
    | append_singleton before call ih =>
        cases hbefore : remaining r before with
        | none =>
            obtain ⟨first, call', after, rfl, hrest⟩ := ih hbefore
            exact ⟨first, call', after ++ [call], by simp, hrest⟩
        | some r' =>
            obtain ⟨hmasks, hleft⟩ := (hnone _).1 h
            refine ⟨before, call, [], rfl, by rw [hbefore]; rfl, fun hcall => ?_, hleft⟩
            have hsame : removedMasks r (before ++ [call]) = removedMasks r before := by
              rw [removedMasks_append, hcall, List.append_nil]
            have hgone : remaining r before = none := by
              rw [hnone, ← hsame]
              refine ⟨hmasks, ?_⟩
              rw [eventsLeft, ← hsame]
              exact hleft
            cases hbefore.symm.trans hgone
  · rintro ⟨before, call, after, rfl, -, hcall, hleft⟩
    rw [List.append_cons, hnone]
    refine ⟨?_, eventsLeft_append hleft⟩
    rw [removedMasks_append, removedMasks_append]
    simp [hcall]

/-! ## Notifications -/

/-- A registration is for one of the events. -/
def HasEvent (notifications : List NpcfAfEvent) (r : EventNotification C U) : Prop :=
  ∃ e ∈ notifications, r.events &&& npcfAfEventToEventMask e ≠ 0

instance (notifications : List NpcfAfEvent) :
    DecidablePred (HasEvent (C := C) (U := U) notifications) := fun _ =>
  inferInstanceAs (Decidable (∃ e ∈ notifications, _))

omit [DecidableEq C] [DecidableEq U] in
theorem hasEvent_iff {notifications : List NpcfAfEvent} {r : EventNotification C U} :
    HasEvent notifications r ↔ r.events &&& eventsMask notifications ≠ 0 := by
  rw [Ne, and_eventsMask_eq_zero]
  simp only [HasEvent, not_forall, exists_prop, ne_eq]

omit [DecidableEq C] [DecidableEq U] in
/-- The loop over the registrations calls those for one of the events and joins their results. -/
theorem callbackCall_eq (registrations : List (EventNotification C U))
    (answer : C → Option U → Bool) (notifications : List NpcfAfEvent) :
    pcfAppSessionNotificationsCallbackCall registrations answer notifications =
      (registrations.filter (HasEvent notifications ·),
        (registrations.filter (HasEvent notifications ·)).all fun r =>
          answer r.callback r.userData) := by
  have hfold : ∀ (rs called : List (EventNotification C U)) (result : Bool),
      rs.foldl (fun (called, result) node =>
        if node.events &&& eventsMask notifications ≠ 0 then
          (called ++ [node], result && answer node.callback node.userData)
        else (called, result)) (called, result) =
      (called ++ rs.filter (HasEvent notifications ·),
        result && (rs.filter (HasEvent notifications ·)).all fun r =>
          answer r.callback r.userData) := by
    intro rs
    induction rs with
    | nil => simp
    | cons r rs ih =>
        intro called result
        rw [List.foldl_cons]
        dsimp only
        by_cases hr : HasEvent notifications r
        · rw [if_pos (hasEvent_iff.1 hr), ih, List.filter_cons, if_pos (decide_eq_true hr),
            List.all_cons, List.append_assoc, Bool.and_assoc]
          rfl
        · rw [if_neg fun h => hr (hasEvent_iff.2 h), ih, List.filter_cons,
            if_neg fun h => hr (of_decide_eq_true h)]
  exact hfold registrations [] true

/-- After any calls the registrations are what is left of those added, each without the events of
the later removals meant for it and gone at the first one that leaves nothing. A notification calls
those with one of its events, once each and in order, and succeeds when all of them do. -/
theorem registrations_after_calls (answer : C → Option U → Bool)
    (calls : List (RegistrationCall C U)) (notifications : List NpcfAfEvent) :
    runCalls [] calls = addedRemaining calls ∧
    (pcfAppSessionNotificationsCallbackCall (runCalls [] calls) answer notifications).1 =
      (addedRemaining calls).filter (HasEvent notifications ·) ∧
    ((pcfAppSessionNotificationsCallbackCall (runCalls [] calls) answer notifications).2 = true ↔
      ∀ r ∈ addedRemaining calls, HasEvent notifications r →
        answer r.callback r.userData = true) ∧
    ∀ (r : EventNotification C U) (later : List (RegistrationCall C U)),
      remaining r later = none ↔
        ∃ before call after, later = before ++ call :: after ∧
          (remaining r before).isSome = true ∧ removedMasks r [call] ≠ [] ∧
          eventsLeft r (before ++ [call]) = 0 := by
  have hrun : runCalls [] calls = addedRemaining calls := runCalls_eq
  refine ⟨hrun, ?_, ?_, fun r later => remaining_eq_none⟩
  · rw [hrun, callbackCall_eq]
  · rw [hrun, callbackCall_eq, List.all_eq_true]
    simp only [List.mem_filter, decide_eq_true_eq, and_imp]

/-! ## Callbacks by number -/

omit [DecidableEq C] [DecidableEq U] in
/-- Callbacks and their user data can be numbered, as the runs of a session do. -/
theorem callbackCall_numbered (number : C → Option U → ℕ) (answer : C → Option U → Bool)
    (registrations : List (EventNotification C U)) (notifications : List NpcfAfEvent) :
    notificationsCallbackCall
        (registrations.map fun r => { callback := number r.callback r.userData, events := r.events })
        notifications =
      (pcfAppSessionNotificationsCallbackCall registrations answer notifications).1.map fun r =>
        number r.callback r.userData := by
  rw [callbackCall_eq, notificationsCallbackCall, List.filter_map, List.map_map]
  simp only [Function.comp_def, hasEvent_iff]

end ServiceConsumers.PcfRegistrations
