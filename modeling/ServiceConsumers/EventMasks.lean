import ServiceConsumers.PcfEvents

set_option autoImplicit false

/-!
# The tables of events and bits (`pcf-evsubsc.c`, `utils.c`)

The source writes down which bit stands for which event three times: as a switch and as the
tables of two functions, which go through them in different orders.
-/

namespace ServiceConsumers.EventMasks

open PcfEvents

/-- `PCF_APP_SESSION_EVENT_TYPE_ALL`. -/
def eventTypeAll : BitVec 32 := 0xFFFFF

/-- `events_map` of `events_subsc_create`. -/
def eventsSubscCreateMap : List (BitVec 32 × NpcfAfEvent) :=
  [(0x00001, .accessTypeChange), (0x00002, .aniReport), (0x00004, .appDetection),
    (0x00008, .chargingCorrelation), (0x00020, .epsFallback), (0x00040, .failedQosUpdate),
    (0x00080, .failedResourcesAllocation), (0x00100, .outOfCredit), (0x00200, .pduSessionStatus),
    (0x00400, .plmnChg), (0x01000, .qosMonitoring), (0x00800, .qosNotif), (0x02000, .ranNasCause),
    (0x04000, .reallocationOfCredit), (0x08000, .satCategoryChg), (0x10000, .successfulQosUpdate),
    (0x20000, .successfulResourcesAllocation), (0x40000, .tsnBridgeInfo),
    (0x00010, .upPathChgFailure), (0x80000, .usageReport)]

/-- The rows whose bit is set, in the order of the table. -/
def eventsSubscCreateLoop (events : BitVec 32) : List AfEventSubscription :=
  eventsSubscCreateMap.filterMap fun row =>
    if events &&& row.1 ≠ 0 then some { event := row.2 } else none

/-- `events_map` of `pcf_app_session_evts`. -/
def pcfAppSessionEvtsMap : List (BitVec 32 × NpcfAfEvent) :=
  [(0x00001, .accessTypeChange), (0x00002, .aniReport), (0x00004, .appDetection),
    (0x00008, .chargingCorrelation), (0x00020, .epsFallback), (0x00040, .failedQosUpdate),
    (0x00080, .failedResourcesAllocation), (0x00100, .outOfCredit), (0x00200, .pduSessionStatus),
    (0x00400, .plmnChg), (0x01000, .qosMonitoring), (0x00800, .qosNotif), (0x02000, .ranNasCause),
    (0x04000, .reallocationOfCredit), (0x08000, .satCategoryChg), (0x10000, .successfulQosUpdate),
    (0x20000, .successfulResourcesAllocation), (0x40000, .tsnBridgeInfo),
    (0x00010, .upPathChgFailure), (0x80000, .usageReport)]

/-- `pcf_app_session_evts`: the table outside, the list inside. -/
def pcfAppSessionEvts (evtSubscReqEvents : List AfEventSubscription) : BitVec 32 :=
  pcfAppSessionEvtsMap.foldl (fun events row =>
    evtSubscReqEvents.foldl (fun events event =>
      if event.event = row.2 then events ||| row.1 else events) events) 0

/-- `events_subsc_req_data_to_events_mask`. -/
def eventsSubscReqDataToEventsMask (evtSubscReq : Option (List AfEventSubscription)) : BitVec 32 :=
  match evtSubscReq with
  | none => 0
  | some events => events.foldl (fun mask s => mask ||| npcfAfEventToEventMask s.event) 0

/-! ## Bits -/

variable {α : Type} {mask : BitVec 32} {i : ℕ} {subscs : List AfEventSubscription}

/-- A loop that only sets bits sets those that one of its steps sets. -/
theorem foldl_bit_iff {step : BitVec 32 → α → BitVec 32} {Sets : α → Prop}
    (hstep : ∀ m x, (step m x).getLsbD i = true ↔ m.getLsbD i = true ∨ Sets x)
    (xs : List α) (start : BitVec 32) :
    (xs.foldl step start).getLsbD i = true ↔ start.getLsbD i = true ∨ ∃ x ∈ xs, Sets x := by
  induction xs generalizing start with
  | nil => simp
  | cons x xs ih =>
      rw [List.foldl_cons, ih, hstep, or_assoc]
      simp only [List.mem_cons, exists_eq_or_imp]

/-- The mask of a list of subscriptions, by its bits. -/
theorem eventsMask_bit_iff : (eventsSubscReqDataToEventsMask (some subscs)).getLsbD i = true ↔
    ∃ s ∈ subscs, (npcfAfEventToEventMask s.event).getLsbD i = true := by
  have hstep : ∀ (m : BitVec 32) (s : AfEventSubscription),
      (m ||| npcfAfEventToEventMask s.event).getLsbD i = true ↔
        m.getLsbD i = true ∨ (npcfAfEventToEventMask s.event).getLsbD i = true := by
    intro m s
    rw [BitVec.getLsbD_or, Bool.or_eq_true]
  rw [eventsSubscReqDataToEventsMask, foldl_bit_iff hstep]
  simp

theorem eventsMask_append (xs ys : List AfEventSubscription) :
    eventsSubscReqDataToEventsMask (some (xs ++ ys)) =
      eventsSubscReqDataToEventsMask (some xs) ||| eventsSubscReqDataToEventsMask (some ys) := by
  apply BitVec.eq_of_getLsbD_eq
  intro i _
  rw [Bool.eq_iff_iff, BitVec.getLsbD_or, Bool.or_eq_true, eventsMask_bit_iff, eventsMask_bit_iff,
    eventsMask_bit_iff]
  simp only [List.mem_append, or_and_right, exists_or]

theorem eventsMask_map : eventsMask (subscs.map AfEventSubscription.event) =
    eventsSubscReqDataToEventsMask (some subscs) := List.foldl_map

/-! ## The tables -/

/-- The second table says of every event what the switch says. -/
theorem pcfAppSessionEvtsMap_bit_iff (e : NpcfAfEvent) :
    (∃ row ∈ pcfAppSessionEvtsMap, e = row.2 ∧ row.1.getLsbD i = true) ↔
      (npcfAfEventToEventMask e).getLsbD i = true := by
  have hrows : ∀ row ∈ pcfAppSessionEvtsMap, row.1 = npcfAfEventToEventMask row.2 := by decide
  constructor
  · rintro ⟨row, hrow, rfl, hbit⟩
    rwa [← hrows row hrow]
  · intro hbit
    have hrow : (npcfAfEventToEventMask e, e) ∈ pcfAppSessionEvtsMap := by
      cases e with
      | other value => exact absurd hbit (by simp [npcfAfEventToEventMask])
      | _ => decide
    exact ⟨_, hrow, rfl, hbit⟩

theorem pcfAppSessionEvts_eq (subscs : List AfEventSubscription) :
    pcfAppSessionEvts subscs = eventsSubscReqDataToEventsMask (some subscs) := by
  apply BitVec.eq_of_getLsbD_eq
  intro i _
  have hinner : ∀ (m : BitVec 32) (row : BitVec 32 × NpcfAfEvent),
      (subscs.foldl (fun m s => if s.event = row.2 then m ||| row.1 else m) m).getLsbD i = true ↔
        m.getLsbD i = true ∨ ∃ s ∈ subscs, s.event = row.2 ∧ row.1.getLsbD i = true := by
    intro m row
    apply foldl_bit_iff
    intro m s
    split
    · rename_i h
      rw [BitVec.getLsbD_or, Bool.or_eq_true, and_iff_right h]
    · rename_i h
      exact (or_iff_left fun hs => h hs.1).symm
  rw [Bool.eq_iff_iff, eventsMask_bit_iff, pcfAppSessionEvts, foldl_bit_iff hinner]
  simp only [← pcfAppSessionEvtsMap_bit_iff]
  constructor
  · rintro (hzero | ⟨row, hrow, s, hs, hevent, hbit⟩)
    · simp at hzero
    · exact ⟨s, hs, row, hrow, hevent, hbit⟩
  · rintro ⟨s, hs, row, hrow, hevent, hbit⟩
    exact .inr ⟨row, hrow, s, hs, hevent, hbit⟩

/-- The first table says of its events what the switch says. -/
theorem eventsSubscCreateLoop_eq (events : BitVec 32) :
    eventsSubscCreateLoop events = eventsSubscCreate events := by
  have hmap : eventsSubscCreateMap = eventsMap.map fun e => (npcfAfEventToEventMask e, e) := by
    decide
  rw [eventsSubscCreateLoop, hmap, List.filterMap_map, eventsSubscCreate, ← List.filterMap_eq_map',
    List.filterMap_filter]
  simp only [Function.comp_def, decide_eq_true_eq]

/-- Each bit that there is an event for is the bit of an event of the table, and no other. -/
theorem eventsMap_twoPow : (∀ e ∈ eventsMap, ∃ k < 20, npcfAfEventToEventMask e = BitVec.twoPow 32 k) ∧
    ∀ k < 20, ∃ e ∈ eventsMap, npcfAfEventToEventMask e = BitVec.twoPow 32 k := by
  constructor <;> decide +kernel

theorem eventTypeAll_bit (hi : i < 32) : eventTypeAll.getLsbD i = true ↔ i < 20 := by
  have hbits : ∀ i < 32, eventTypeAll.getLsbD i = true ↔ i < 20 := by decide +kernel
  exact hbits i hi

theorem and_twoPow_ne_zero {k : ℕ} (hk : k < 32) :
    mask &&& BitVec.twoPow 32 k ≠ 0 ↔ mask.getLsbD k = true := by
  constructor
  · intro h
    by_contra hbit
    rw [Bool.not_eq_true] at hbit
    exact h (by rw [BitVec.and_twoPow, hbit]; rfl)
  · intro hbit hzero
    have hk' : (mask &&& BitVec.twoPow 32 k).getLsbD k = true := by
      simp [hbit, hk]
    rw [hzero] at hk'
    simp at hk'

/-- An event is in the list that is made of a mask exactly when its bit is selected. -/
theorem mem_events_create {e : NpcfAfEvent} :
    e ∈ (eventsSubscCreateLoop mask).map AfEventSubscription.event ↔
      mask &&& npcfAfEventToEventMask e ≠ 0 := by
  rw [eventsSubscCreateLoop_eq, List.mem_map]
  constructor
  · rintro ⟨s, hs, rfl⟩
    exact (mem_eventsSubscCreate.1 hs).2.1
  · intro hbit
    have hmem : e ∈ eventsMap := by
      cases e with
      | other value => exact absurd (BitVec.and_zero (x := mask)) hbit
      | _ => decide
    exact ⟨{ event := e }, mem_eventsSubscCreate.2 ⟨hmem, hbit, rfl⟩, rfl⟩

theorem nodup_events_create :
    ((eventsSubscCreateLoop mask).map AfEventSubscription.event).Nodup := by
  have hnodup : eventsMap.Nodup := by decide
  rw [eventsSubscCreateLoop_eq, eventsSubscCreate, List.map_map]
  change ((eventsMap.filter _).map id).Nodup
  rw [List.map_id]
  exact hnodup.filter _

/-- The list that is made of a mask has the known bits of the mask. -/
theorem eventsMask_create (mask : BitVec 32) :
    eventsSubscReqDataToEventsMask (some (eventsSubscCreateLoop mask)) = mask &&& eventTypeAll := by
  apply BitVec.eq_of_getLsbD_eq
  intro i hi
  rw [Bool.eq_iff_iff, eventsMask_bit_iff, BitVec.getLsbD_and, Bool.and_eq_true, eventTypeAll_bit hi]
  constructor
  · rintro ⟨s, hs, hbit⟩
    rw [eventsSubscCreateLoop_eq] at hs
    obtain ⟨hmem, hselected, -⟩ := mem_eventsSubscCreate.1 hs
    obtain ⟨k, hk, hmask⟩ := eventsMap_twoPow.1 s.event hmem
    rw [hmask] at hbit hselected
    obtain rfl : k = i := by
      rw [BitVec.getLsbD_twoPow] at hbit
      simp only [Bool.and_eq_true, decide_eq_true_eq] at hbit
      omega
    exact ⟨(and_twoPow_ne_zero hi).1 hselected, hk⟩
  · rintro ⟨hbit, hlt⟩
    obtain ⟨e, hmem, hmask⟩ := eventsMap_twoPow.2 i hlt
    refine ⟨{ event := e }, ?_, ?_⟩
    · rw [eventsSubscCreateLoop_eq, mem_eventsSubscCreate, hmask]
      exact ⟨hmem, (and_twoPow_ne_zero hi).2 hbit, rfl⟩
    · rw [hmask, BitVec.getLsbD_twoPow]
      simp [hi]

/-! ## The three ways agree -/

/-- The two masks of a list are one, the union of the bits of its events; the list made of a mask
has each selected event once and leads back to the known bits; lists put together have the bits
of both. -/
theorem event_masks_agree :
    (∀ subscs, pcfAppSessionEvts subscs = eventsSubscReqDataToEventsMask (some subscs) ∧
      ∀ i, (pcfAppSessionEvts subscs).getLsbD i = true ↔
        ∃ s ∈ subscs, (npcfAfEventToEventMask s.event).getLsbD i = true) ∧
    (∀ mask, ((eventsSubscCreateLoop mask).map AfEventSubscription.event).Nodup ∧
      (∀ e, e ∈ (eventsSubscCreateLoop mask).map AfEventSubscription.event ↔
        mask &&& npcfAfEventToEventMask e ≠ 0) ∧
      pcfAppSessionEvts (eventsSubscCreateLoop mask) = mask &&& eventTypeAll ∧
      eventsSubscReqDataToEventsMask (some (eventsSubscCreateLoop mask)) = mask &&& eventTypeAll) ∧
    (∀ xs ys, pcfAppSessionEvts (xs ++ ys) = pcfAppSessionEvts xs ||| pcfAppSessionEvts ys ∧
      eventsSubscReqDataToEventsMask (some (xs ++ ys)) =
        eventsSubscReqDataToEventsMask (some xs) ||| eventsSubscReqDataToEventsMask (some ys)) := by
  refine ⟨fun subscs => ⟨pcfAppSessionEvts_eq subscs, fun i => ?_⟩,
    fun mask => ⟨nodup_events_create, fun _ => mem_events_create, ?_, eventsMask_create mask⟩,
    fun xs ys => ⟨?_, eventsMask_append xs ys⟩⟩
  · rw [pcfAppSessionEvts_eq, eventsMask_bit_iff]
  · rw [pcfAppSessionEvts_eq, eventsMask_create]
  · rw [pcfAppSessionEvts_eq, pcfAppSessionEvts_eq, pcfAppSessionEvts_eq, eventsMask_append]

end ServiceConsumers.EventMasks
