import ServiceConsumers.PcfEventSubscriptions

set_option autoImplicit false

/-!
# Merging requested events (`merge_event_subsc_to_app_session_context`)

The loop goes over the list that it appends to, and appends at each node what differs from it.
-/

namespace ServiceConsumers.EventMerges

open PcfEvents PcfSessions PcfEventSubscriptions

variable {held req nodes added added' : List AfEventSubscription} {fuel fuel' : ℕ}

/-- The list after the loop and the number that is returned, when the loop ends. -/
def mergeEventSubscToAppSessionContext (fuel : ℕ) (held req : List AfEventSubscription) :
    Option (List AfEventSubscription × ℕ) :=
  (mergeEventSubsc req fuel held).map fun added => (held ++ added, added.length)

/-- The events that are new are appended, each once. -/
structure Merged (held req events : List AfEventSubscription) (merged : ℕ) : Prop where
  appended : ∃ added, events = held ++ added ∧ merged = added.length ∧ added.Nodup ∧
    ∀ e, e ∈ added ↔ e ∈ req ∧ e ∉ held

/-- The loop ends with the new events appended, and a request is sent when there are any. -/
structure MergesNew (held req : List AfEventSubscription) : Prop where
  merges : ∃ fuel events merged,
    mergeEventSubscToAppSessionContext fuel held req = some (events, merged) ∧
      Merged held req events merged
  sends : ∀ (sess : PcfAppSession) (callback : ℕ), sess.contextRequested = held →
    ∃ fuel sess' sent,
      pcfAppSessionSubscribeEvent fuel sess req (some callback) = some (sess', sent) ∧
        (sent.isSome = true ↔ ∃ e ∈ req, e ∉ held)

/-- Nothing is requested; or what is requested is the same as all that is held, and something is
held; or there is one event on each side. -/
def MergesRight (held req : List AfEventSubscription) : Prop :=
  req = [] ∨ (held ≠ [] ∧ ∃ e, (∀ e' ∈ req, e' = e) ∧ ∀ e' ∈ held, e' = e) ∨
    ∃ e e', req = [e] ∧ held = [e']

/-! ## What the loop appends -/

/-- However long one waits, the loop ends in one way. -/
theorem mergeEventSubsc_unique (h : mergeEventSubsc req fuel nodes = some added)
    (h' : mergeEventSubsc req fuel' nodes = some added') : added = added' := by
  induction fuel generalizing fuel' nodes added added' with
  | zero =>
      cases nodes with
      | nil => cases fuel' <;> exact Option.some.inj (h.symm.trans h')
      | cons node nodes => cases h
  | succ fuel ih =>
      cases nodes with
      | nil => cases fuel' <;> exact Option.some.inj (h.symm.trans h')
      | cons node nodes =>
          cases fuel' with
          | zero => cases h'
          | succ fuel' =>
              simp only [mergeEventSubsc, Option.map_eq_some_iff] at h h'
              obtain ⟨rest, hrest, rfl⟩ := h
              obtain ⟨rest', hrest', rfl⟩ := h'
              rw [ih hrest hrest']

/-- With nothing held there is no node to append at. -/
theorem added_of_nothing_held (h : mergeEventSubsc req fuel [] = some added) : added = [] := by
  cases fuel <;> exact (Option.some.inj h).symm

theorem mergeEventSubsc_nothing (nodes : List AfEventSubscription) :
    ∃ fuel, mergeEventSubsc [] fuel nodes = some [] := by
  induction nodes with
  | nil => exact ⟨0, rfl⟩
  | cons node nodes ih =>
      obtain ⟨fuel, hfuel⟩ := ih
      refine ⟨fuel + 1, ?_⟩
      simp only [mergeEventSubsc, List.filter_nil, List.append_nil, hfuel, Option.map_some]

/-- When the loop ends and something is held, at most one event is requested. -/
theorem same_of_ends (hheld : held ≠ []) (h : mergeEventSubsc req fuel held = some added)
    {e : AfEventSubscription} (he : e ∈ req) : ∀ e' ∈ req, e' = e := by
  intro e' he'
  by_contra hne
  rw [mergeEventSubsc_eq_none he' he hne fuel hheld] at h
  cases h

/-- One event requested once or more: a copy of the request for each held event that is an other
one. -/
theorem added_of_single (h : mergeEventSubsc req fuel held = some added) {e : AfEventSubscription}
    (hall : ∀ e' ∈ req, e' = e) : added = (held.filter fun e' => e' ≠ e).flatMap fun _ => req := by
  obtain ⟨fuel', h'⟩ := mergeEventSubsc_of_single hall held [] nofun
  rw [List.append_nil] at h'
  exact mergeEventSubsc_unique h h'

/-! ## When it is right -/

theorem mergesNew_of_added (h : mergeEventSubsc req fuel held = some added) (hnodup : added.Nodup)
    (hnew : ∀ e, e ∈ added ↔ e ∈ req ∧ e ∉ held) : MergesNew held req := by
  constructor
  · refine ⟨fuel, held ++ added, added.length, ?_, ⟨added, rfl, rfl, hnodup, hnew⟩⟩
    rw [mergeEventSubscToAppSessionContext, h]
    rfl
  · rintro sess callback rfl
    have hsubscribe : pcfAppSessionSubscribeEvent fuel sess req (some callback) =
        some ({ sess with
          pcfEventNotifications :=
            addEventNotification sess.pcfEventNotifications (requestMask req) (some callback)
          contextRequested := sess.contextRequested ++ added },
          if added.length = 0 then none else some (.put (sess.contextRequested ++ added))) := by
      simp only [pcfAppSessionSubscribeEvent, h]
    refine ⟨fuel, _, _, hsubscribe, ?_⟩
    simp only [← hnew]
    cases added with
    | nil => simp
    | cons e added => exact iff_of_true rfl ⟨e, List.mem_cons_self⟩

theorem added_of_merges (h : MergesNew held req) : ∃ fuel added,
    mergeEventSubsc req fuel held = some added ∧ added.Nodup ∧
      ∀ e, e ∈ added ↔ e ∈ req ∧ e ∉ held := by
  obtain ⟨fuel, events, merged, hmerge, added', hevents, -, hnodup, hnew⟩ := h.merges
  rw [mergeEventSubscToAppSessionContext, Option.map_eq_some_iff] at hmerge
  obtain ⟨added, hadded, heq⟩ := hmerge
  obtain rfl : added = added' := List.append_cancel_left ((Prod.mk.inj heq).1.trans hevents)
  exact ⟨fuel, added, hadded, hnodup, hnew⟩

/-- As many copies of a request for one event as there are other events are without repetition
only when there is one of each. -/
theorem single_of_nodup {e : AfEventSubscription} {others : List AfEventSubscription}
    (hreq : req ≠ []) (hothers : others ≠ []) (hall : ∀ e' ∈ req, e' = e)
    (hnodup : (others.flatMap fun _ => req).Nodup) : req = [e] ∧ ∃ e', others = [e'] := by
  obtain ⟨r, rs, rfl⟩ := List.exists_cons_of_ne_nil hreq
  obtain ⟨e', os, rfl⟩ := List.exists_cons_of_ne_nil hothers
  obtain ⟨rfl, hrs⟩ := List.forall_mem_cons.1 hall
  rw [List.flatMap_cons, List.cons_append, List.nodup_cons, List.mem_append, not_or] at hnodup
  obtain ⟨⟨hrest, hcopies⟩, -⟩ := hnodup
  constructor
  · rw [List.cons.injEq]
    refine ⟨rfl, List.eq_nil_iff_forall_not_mem.2 fun x hx => hrest ?_⟩
    rwa [← hrs x hx]
  · refine ⟨e', ?_⟩
    rw [List.cons.injEq]
    refine ⟨rfl, List.eq_nil_iff_forall_not_mem.2 fun x hx => hcopies ?_⟩
    exact List.mem_flatMap.2 ⟨x, hx, List.mem_cons_self⟩

/-- The loop does what it is for exactly when nothing is requested, or nothing else than what is
held alone, or a single event where a single one is held. -/
theorem mergesNew_iff (held req : List AfEventSubscription) :
    MergesNew held req ↔ MergesRight held req := by
  constructor
  · intro h
    obtain ⟨fuel, added, hmerge, hnodup, hnew⟩ := added_of_merges h
    by_cases hreq : req = []
    · exact .inl hreq
    · obtain ⟨e, he⟩ := List.exists_mem_of_ne_nil req hreq
      have hheld : held ≠ [] := by
        rintro rfl
        have hadded := (hnew e).2 ⟨he, List.not_mem_nil⟩
        rw [added_of_nothing_held hmerge] at hadded
        cases hadded
      have hall := same_of_ends hheld hmerge he
      have hadded := added_of_single hmerge hall
      by_cases hother : held.filter (fun e' => e' ≠ e) = []
      · refine .inr (.inl ⟨hheld, e, hall, fun e' he' => ?_⟩)
        have hsame := List.filter_eq_nil_iff.1 hother e' he'
        simpa using hsame
      · rw [hadded] at hnodup
        obtain ⟨hone, e', he'⟩ := single_of_nodup hreq hother hall hnodup
        have hmem : e ∈ added := by
          rw [hadded, he', hone]
          exact List.mem_singleton_self e
        have hfilter : held.filter (fun e' => e' ≠ e) = held := by
          rw [List.filter_eq_self]
          intro e'' he''
          apply decide_eq_true
          rintro rfl
          exact ((hnew e'').1 hmem).2 he''
        exact .inr (.inr ⟨e, e', hone, hfilter.symm.trans he'⟩)
  · rintro (rfl | ⟨hheld, e, hreq, hsame⟩ | ⟨e, e', rfl, rfl⟩)
    · obtain ⟨fuel, hmerge⟩ := mergeEventSubsc_nothing held
      exact mergesNew_of_added hmerge List.nodup_nil (by simp)
    · obtain ⟨fuel, hmerge⟩ := mergeEventSubsc_of_single hreq held [] nofun
      have hnone : held.filter (fun e' => e' ≠ e) = [] := filter_ne_eq_nil hsame
      rw [List.append_nil, hnone] at hmerge
      refine mergesNew_of_added hmerge List.nodup_nil fun e' => ?_
      refine iff_of_false List.not_mem_nil fun hnew => hnew.2 ?_
      obtain ⟨e'', he''⟩ := List.exists_mem_of_ne_nil held hheld
      rw [hreq e' hnew.1, ← hsame e'' he'']
      exact he''
    · by_cases heq : e = e'
      · subst heq
        have hmerge : mergeEventSubsc [e] 1 [e] = some [] := by
          simp [mergeEventSubsc]
        exact mergesNew_of_added hmerge List.nodup_nil (by simp)
      · have hmerge : mergeEventSubsc [e] 2 [e'] = some [e] := by
          simp [mergeEventSubsc, heq]
        refine mergesNew_of_added hmerge (List.nodup_singleton e) ?_
        simp only [List.mem_singleton]
        rintro x
        exact ⟨fun h => ⟨h, h ▸ heq⟩, fun h => h.1⟩

/-- The first event that is subscribed of a session without events is not added. -/
theorem first_event_not_merged : ¬ MergesNew [] (eventsSubscCreate 0x00800) := by
  intro h
  obtain ⟨fuel, added, hmerge, -, hnew⟩ := added_of_merges h
  have hadded := (hnew { event := .qosNotif }).2 (by decide)
  rw [added_of_nothing_held hmerge] at hadded
  cases hadded

end ServiceConsumers.EventMerges
