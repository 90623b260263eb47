import Mathlib.Data.List.Basic

set_option autoImplicit false

/-!
# Events of the PCF and their masks (`pcf-evsubsc.c`, `utils.c` and the registrations of
`pcf-client.c`)
-/

namespace ServiceConsumers.PcfEvents

/-- `OpenAPI_npcf_af_event_e`; the values that the library has no bit for have a number. -/
inductive NpcfAfEvent where
  | accessTypeChange
  | aniReport
  | appDetection
  | chargingCorrelation
  | epsFallback
  | failedQosUpdate
  | failedResourcesAllocation
  | outOfCredit
  | pduSessionStatus
  | plmnChg
  | qosMonitoring
  | qosNotif
  | ranNasCause
  | reallocationOfCredit
  | satCategoryChg
  | successfulQosUpdate
  | successfulResourcesAllocation
  | tsnBridgeInfo
  | upPathChgFailure
  | usageReport
  | other (value : ℕ)
  deriving DecidableEq, Repr

/-- `_npcf_af_event_to_event_mask`. -/
def npcfAfEventToEventMask : NpcfAfEvent → BitVec 32
  | .accessTypeChange => 0x00001
  | .aniReport => 0x00002
  | .appDetection => 0x00004
  | .chargingCorrelation => 0x00008
  | .upPathChgFailure => 0x00010
  | .epsFallback => 0x00020
  | .failedQosUpdate => 0x00040
  | .failedResourcesAllocation => 0x00080
  | .outOfCredit => 0x00100
  | .pduSessionStatus => 0x00200
  | .plmnChg => 0x00400
  | .qosNotif => 0x00800
  | .qosMonitoring => 0x01000
  | .ranNasCause => 0x02000
  | .reallocationOfCredit => 0x04000
  | .satCategoryChg => 0x08000
  | .successfulQosUpdate => 0x10000
  | .successfulResourcesAllocation => 0x20000
  | .tsnBridgeInfo => 0x40000
  | .usageReport => 0x80000
  | .other _ => 0

/-- `events_notification_to_events_mask` and `events_subsc_req_data_to_events_mask`. -/
def eventsMask (events : List NpcfAfEvent) : BitVec 32 :=
  events.foldl (fun mask e => mask ||| npcfAfEventToEventMask e) 0

inductive AfNotifMethod where
  | eventDetection
  | other (value : ℕ)
  deriving DecidableEq, Repr

/-- `OpenAPI_af_event_subscription_t`. -/
structure AfEventSubscription where
  event : NpcfAfEvent
  notifMethod : AfNotifMethod := .eventDetection
  deriving DecidableEq, Repr

/-- The events of `events_map`, in its order. -/
def eventsMap : List NpcfAfEvent :=
  [.accessTypeChange, .aniReport, .appDetection, .chargingCorrelation, .epsFallback,
    .failedQosUpdate, .failedResourcesAllocation, .outOfCredit, .pduSessionStatus, .plmnChg,
    .qosMonitoring, .qosNotif, .ranNasCause, .reallocationOfCredit, .satCategoryChg,
    .successfulQosUpdate, .successfulResourcesAllocation, .tsnBridgeInfo, .upPathChgFailure,
    .usageReport]

/-- `events_subsc_create`. -/
def eventsSubscCreate (events : BitVec 32) : List AfEventSubscription :=
  (eventsMap.filter fun e => events &&& npcfAfEventToEventMask e ≠ 0).map fun e => { event := e }

/-- `pcf_event_notification_t`; the number stands for the callback and its user data. -/
structure PcfEventNotification where
  callback : ℕ
  events : BitVec 32
  deriving DecidableEq, Repr

/-- `_pcf_app_session_add_event_notification`: nothing is added without a callback. -/
def addEventNotification (registrations : List PcfEventNotification) (events : BitVec 32) :
    Option ℕ → List PcfEventNotification
  | none => registrations
  | some callback => registrations ++ [{ callback := callback, events := events }]

/-- The callbacks that `_pcf_app_session_notifications_callback_call` calls, in order. -/
def notificationsCallbackCall (registrations : List PcfEventNotification)
    (notifications : List NpcfAfEvent) : List ℕ :=
  (registrations.filter fun r => r.events &&& eventsMask notifications ≠ 0).map
    PcfEventNotification.callback

/-! ## Masks -/

variable {mask : BitVec 32} {events : List NpcfAfEvent}

theorem and_or_eq_zero {a b c : BitVec 32} : a &&& (b ||| c) = 0 ↔ a &&& b = 0 ∧ a &&& c = 0 := by
  rw [show a &&& (b ||| c) = (a &&& b) ||| (a &&& c) from BitVec.and_or_distrib_left ..]
  exact BitVec.or_eq_zero_iff

/-- A mask has no bit of the events exactly when it has none of each. -/
theorem and_eventsMask_eq_zero :
    mask &&& eventsMask events = 0 ↔ ∀ e ∈ events, mask &&& npcfAfEventToEventMask e = 0 := by
  have hfold : ∀ (es : List NpcfAfEvent) (start : BitVec 32),
      mask &&& es.foldl (fun m e => m ||| npcfAfEventToEventMask e) start = 0 ↔
        mask &&& start = 0 ∧ ∀ e ∈ es, mask &&& npcfAfEventToEventMask e = 0 := by
    intro es
    induction es with
    | nil => simp
    | cons e es ih =>
        intro start
        rw [List.foldl_cons, ih, and_or_eq_zero, List.forall_mem_cons, and_assoc]
  have hzero : mask &&& 0 = 0 := BitVec.and_zero
  rw [eventsMask, hfold, and_iff_right hzero]

/-- No callback is called exactly when no registration has a bit of the events. -/
theorem notificationsCallbackCall_eq_nil {registrations : List PcfEventNotification}
    {notifications : List NpcfAfEvent} :
    notificationsCallbackCall registrations notifications = [] ↔
      ∀ r ∈ registrations, ∀ e ∈ notifications, r.events &&& npcfAfEventToEventMask e = 0 := by
  rw [notificationsCallbackCall, List.map_eq_nil_iff, List.filter_eq_nil_iff]
  simp only [decide_not, Bool.not_eq_true', decide_eq_false_iff_not, not_not,
    and_eventsMask_eq_zero]

/-- The events of the map have one bit each. -/
theorem eventsMap_bits : eventsMap.Pairwise fun e e' =>
    npcfAfEventToEventMask e &&& npcfAfEventToEventMask e' = 0 := by
  decide +kernel

/-- An event is asked for exactly when its bit is set. -/
theorem mem_eventsSubscCreate {s : AfEventSubscription} :
    s ∈ eventsSubscCreate mask ↔
      s.event ∈ eventsMap ∧ mask &&& npcfAfEventToEventMask s.event ≠ 0 ∧
        s.notifMethod = .eventDetection := by
  rw [eventsSubscCreate, List.mem_map]
  simp only [List.mem_filter, decide_eq_true_eq]
  constructor
  · rintro ⟨e, ⟨hmem, hbit⟩, rfl⟩
    exact ⟨hmem, hbit, rfl⟩
  · rintro ⟨hmem, hbit, hmethod⟩
    obtain ⟨event, method⟩ := s
    obtain rfl := hmethod
    exact ⟨event, ⟨hmem, hbit⟩, rfl⟩

end ServiceConsumers.PcfEvents
