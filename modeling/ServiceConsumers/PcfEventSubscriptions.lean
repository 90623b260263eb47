import ServiceConsumers.PcfSessions

set_option autoImplicit false

/-!
# Event subscriptions of an app session (`pcf_app_session_subscribe_event` and
`pcf_app_session_unsubscribe_event`)

What is subscribed is kept three times: by the PCF, in the requested context of the app session
and in the registrations of callbacks.
-/

namespace ServiceConsumers.PcfEventSubscriptions

open PcfEvents PcfSessions

/-! ## Subscribing -/

/-- The loop of `merge_event_subsc_to_app_session_context` over the nodes that are still to come,
for at most so many nodes: what it appends. At each node it appends the requested events that
differ from the node's, and comes to them in turn. -/
def mergeEventSubsc (evtSubscReq : List AfEventSubscription) :
    ℕ → List AfEventSubscription → Option (List AfEventSubscription)
  | _, [] => some []
  | 0, _ :: _ => none
  | fuel + 1, node :: nodes =>
      let added := evtSubscReq.filter fun e => e ≠ node
      (mergeEventSubsc evtSubscReq fuel (nodes ++ added)).map (added ++ ·)

/-- The requests about `events-subscription`: a `PUT` with all events, or a `DELETE`. -/
inductive EventsRequest where
  | put (events : List AfEventSubscription)
  | delete
  deriving DecidableEq, Repr

/-- The mask of a request. -/
def requestMask (evtSubscReq : List AfEventSubscription) : BitVec 32 :=
  eventsMask (evtSubscReq.map AfEventSubscription.event)

/-- `pcf_app_session_subscribe_event`, with the request that is sent. A callback is required. -/
def pcfAppSessionSubscribeEvent (fuel : ℕ) (sess : PcfAppSession)
    (evtSubscReq : List AfEventSubscription) (callback : Option ℕ) :
    Option (PcfAppSession × Option EventsRequest) :=
  match callback with
  | none => some (sess, none)
  | some _ =>
      match mergeEventSubsc evtSubscReq fuel sess.contextRequested with
      | none => none
      | some added =>
          let sess := { sess with
            pcfEventNotifications :=
              addEventNotification sess.pcfEventNotifications (requestMask evtSubscReq) callback
            contextRequested := sess.contextRequested ++ added }
          some (sess, if added.length = 0 then none else some (.put sess.contextRequested))

/-- `pcf_app_session_unsubscribe_event`: the events that are given are not looked at. -/
def pcfAppSessionUnsubscribeEvent (sess : PcfAppSession) (_ : List AfEventSubscription) :
    PcfAppSession × EventsRequest :=
  (sess, .delete)

/-- The subscription of the PCF after it accepted a request. -/
def EventsRequest.accepted : EventsRequest → List AfEventSubscription
  | .put events => events
  | .delete => []

/-! ## What is to hold -/

variable {sess : PcfAppSession} {pcf request later : List AfEventSubscription}

/-- The events of a request. -/
def eventsOf (evtSubscReq : List AfEventSubscription) : List NpcfAfEvent :=
  evtSubscReq.map AfEventSubscription.event

/-- What an accepted unsubscription is to do, with a later request for some of its events. -/
structure Unsubscribes (sess : PcfAppSession) (pcf request later : List AfEventSubscription) :
    Prop where
  subscription : ∀ e, e ∈ (pcfAppSessionUnsubscribeEvent sess request).2.accepted ↔
    e ∈ pcf ∧ e.event ∉ eventsOf request
  silent : ∀ notifications, (∀ e ∈ notifications, e ∈ eventsOf request) →
    notificationsCallbackCall
      (pcfAppSessionUnsubscribeEvent sess request).1.pcfEventNotifications notifications = []
  others : ∀ notifications, (∀ e ∈ notifications, e ∉ eventsOf request) →
    notificationsCallbackCall
        (pcfAppSessionUnsubscribeEvent sess request).1.pcfEventNotifications notifications =
      notificationsCallbackCall sess.pcfEventNotifications notifications
  again : ∀ callback, ∃ fuel sess' sent, pcfAppSessionSubscribeEvent fuel
    (pcfAppSessionUnsubscribeEvent sess request).1 later (some callback) = some (sess', some sent)

/-- The PCF has no other events, no callback is registered for the events, and the later request
is for one event, asked for once or more in the same way, while something else was requested
before. -/
structure Separate (sess : PcfAppSession) (pcf request later : List AfEventSubscription) :
    Prop where
  subscribed : ∀ e ∈ pcf, e.event ∈ eventsOf request
  unregistered : ∀ r ∈ sess.pcfEventNotifications, ∀ e ∈ eventsOf request,
    r.events &&& npcfAfEventToEventMask e = 0
  single : ∃ e ∈ later, (∀ e' ∈ later, e' = e) ∧ ∃ e' ∈ sess.contextRequested, e' ≠ e

/-! ## Merging -/

/-- With two different events in the request the loop does not end. -/
theorem mergeEventSubsc_eq_none {a b : AfEventSubscription} (ha : a ∈ later) (hb : b ∈ later)
    (hne : a ≠ b) (fuel : ℕ) {nodes : List AfEventSubscription} (hnodes : nodes ≠ []) :
    mergeEventSubsc later fuel nodes = none := by
  induction fuel generalizing nodes with
  | zero =>
      cases nodes with
      | nil => exact absurd rfl hnodes
      | cons node nodes => rfl
  | succ fuel ih =>
      cases nodes with
      | nil => exact absurd rfl hnodes
      | cons node nodes =>
          have hadded : later.filter (fun e => e ≠ node) ≠ [] := by
            by_cases heq : a = node
            · exact List.ne_nil_of_mem (List.mem_filter.2 ⟨hb, decide_eq_true (heq ▸ hne.symm)⟩)
            · exact List.ne_nil_of_mem (List.mem_filter.2 ⟨ha, decide_eq_true heq⟩)
          have hrest := ih (List.append_ne_nil_of_right_ne_nil nodes hadded)
          simp only [mergeEventSubsc, hrest, Option.map_none]

/-- Nothing is appended at a node that all requested events are the same as. -/
theorem filter_ne_eq_nil {e : AfEventSubscription} (hall : ∀ e' ∈ later, e' = e) :
    later.filter (fun e' => e' ≠ e) = [] := by
  rw [List.filter_eq_nil_iff]
  intro e' he'
  rw [hall e' he']
  simp

/-- With one event in the request the loop ends: the request is appended once for each node that
was there before and is an other event. -/
theorem mergeEventSubsc_of_single {e : AfEventSubscription} (hall : ∀ e' ∈ later, e' = e)
    (nodes copies : List AfEventSubscription) (hcopies : ∀ e' ∈ copies, e' = e) :
    ∃ fuel, mergeEventSubsc later fuel (nodes ++ copies) =
      some ((nodes.filter fun e' => e' ≠ e).flatMap fun _ => later) := by
  induction nodes generalizing copies with
  | nil =>
      refine ⟨copies.length, ?_⟩
      induction copies with
      | nil => rfl
      | cons c copies ih =>
          rw [List.forall_mem_cons] at hcopies
          have hrest := ih hcopies.2
          rw [List.nil_append] at hrest ⊢
          rw [List.length_cons, hcopies.1]
          simp only [mergeEventSubsc, filter_ne_eq_nil hall, List.append_nil, hrest,
            Option.map_some, List.nil_append]
  | cons node nodes ih =>
      by_cases heq : node = e
      · obtain ⟨fuel, hmerge⟩ := ih copies hcopies
        refine ⟨fuel + 1, ?_⟩
        have hdrop : (node :: nodes).filter (fun e' => e' ≠ e) =
            nodes.filter fun e' => e' ≠ e := List.filter_cons_of_neg (by simpa using heq)
        rw [hdrop, List.cons_append, heq]
        simp only [mergeEventSubsc, filter_ne_eq_nil hall, List.append_nil, hmerge,
          Option.map_some, List.nil_append]
      · have hsame : later.filter (fun e' => e' ≠ node) = later := by
          rw [List.filter_eq_self]
          intro e' hin
          rw [hall e' hin]
          exact decide_eq_true (Ne.symm heq)
        have hkeep : (node :: nodes).filter (fun e' => e' ≠ e) =
            node :: nodes.filter fun e' => e' ≠ e := List.filter_cons_of_pos (by simpa using heq)
        have hmore : ∀ e' ∈ copies ++ later, e' = e := List.forall_mem_append.2 ⟨hcopies, hall⟩
        obtain ⟨fuel, hmerge⟩ := ih (copies ++ later) hmore
        refine ⟨fuel + 1, ?_⟩
        rw [hkeep, List.flatMap_cons, List.cons_append]
        simp only [mergeEventSubsc, hsame, List.append_assoc, hmerge, Option.map_some]

/-- Nothing is appended when no requested event differs from one that is there. -/
theorem mergeEventSubsc_same {fuel : ℕ} {nodes added : List AfEventSubscription}
    (hsame : ∀ node ∈ nodes, ∀ e ∈ later, e = node)
    (h : mergeEventSubsc later fuel nodes = some added) : added = [] := by
  induction fuel generalizing nodes added with
  | zero =>
      cases nodes with
      | nil => exact (Option.some.inj h).symm
      | cons node nodes => cases h
  | succ fuel ih =>
      cases nodes with
      | nil => exact (Option.some.inj h).symm
      | cons node nodes =>
          rw [List.forall_mem_cons] at hsame
          have hnone : later.filter (fun e => e ≠ node) = [] := by
            rw [List.filter_eq_nil_iff]
            intro e he
            rw [hsame.1 e he]
            simp
          simp only [mergeEventSubsc, hnone, List.append_nil, Option.map_eq_some_iff] at h
          obtain ⟨rest, hrest, rfl⟩ := h
          exact ih hsame.2 hrest

/-- The loop ends and appends something exactly when one event is requested and another one is
there. -/
theorem mergeEventSubsc_appends_iff {nodes : List AfEventSubscription} :
    (∃ fuel added, mergeEventSubsc later fuel nodes = some added ∧ added ≠ []) ↔
      ∃ e ∈ later, (∀ e' ∈ later, e' = e) ∧ ∃ e' ∈ nodes, e' ≠ e := by
  constructor
  · rintro ⟨fuel, added, hmerge, hadded⟩
    have hdiffer : ∃ node ∈ nodes, ∃ e ∈ later, e ≠ node := by
      by_contra hsame
      refine hadded (mergeEventSubsc_same (fun node hnode e he => ?_) hmerge)
      by_contra hne
      exact hsame ⟨node, hnode, e, he, hne⟩
    obtain ⟨node, hnode, e, he, hne⟩ := hdiffer
    refine ⟨e, he, fun e' he' => ?_, node, hnode, hne.symm⟩
    by_contra hother
    rw [mergeEventSubsc_eq_none he' he hother fuel (List.ne_nil_of_mem hnode)] at hmerge
    cases hmerge
  · rintro ⟨e, he, hall, e', he', hne⟩
    obtain ⟨fuel, hmerge⟩ := mergeEventSubsc_of_single hall nodes [] nofun
    rw [List.append_nil] at hmerge
    refine ⟨fuel, _, hmerge, ?_⟩
    have hmem : e ∈ (nodes.filter fun e' => e' ≠ e).flatMap fun _ => later :=
      List.mem_flatMap.2 ⟨e', List.mem_filter.2 ⟨he', decide_eq_true hne⟩, he⟩
    exact List.ne_nil_of_mem hmem

theorem subscribe_sends_iff {callback : ℕ} :
    (∃ fuel sess' sent,
      pcfAppSessionSubscribeEvent fuel sess later (some callback) = some (sess', some sent)) ↔
      ∃ fuel added, mergeEventSubsc later fuel sess.contextRequested = some added ∧ added ≠ [] := by
  refine exists_congr fun fuel => ?_
  cases hmerge : mergeEventSubsc later fuel sess.contextRequested with
  | none => simp [pcfAppSessionSubscribeEvent, hmerge]
  | some added => cases added <;> simp [pcfAppSessionSubscribeEvent, hmerge]

/-! ## Unsubscribing -/

/-- What an accepted unsubscription leaves is as it should be exactly when it concerns all that
the PCF had, no callback was registered for it, and the later request is for a single event. -/
theorem unsubscribes_iff (sess : PcfAppSession) (pcf request later : List AfEventSubscription) :
    Unsubscribes sess pcf request later ↔ Separate sess pcf request later := by
  constructor
  · intro h
    refine ⟨fun e he => ?_, ?_, ?_⟩
    · by_contra hout
      have hin := (h.subscription e).2 ⟨he, hout⟩
      cases hin
    · exact notificationsCallbackCall_eq_nil.1 (h.silent (eventsOf request) fun e he => he)
    · exact mergeEventSubsc_appends_iff.1 (subscribe_sends_iff.1 (h.again 0))
  · intro h
    refine ⟨fun e => ?_, fun notifications hin => ?_, fun notifications _ => rfl, fun callback => ?_⟩
    · exact iff_of_false List.not_mem_nil fun hkept => hkept.2 (h.subscribed e hkept.1)
    · refine notificationsCallbackCall_eq_nil.2 fun r hr e he => ?_
      exact h.unregistered r hr e (hin e he)
    · exact subscribe_sends_iff.2 (mergeEventSubsc_appends_iff.2 h.single)

/-- One of two subscribed events is unsubscribed: the subscription for the other one goes too. -/
theorem other_event_is_unsubscribed : ¬ Unsubscribes
    { pcfSession := 0
      pcfEventNotifications := [{ callback := 7, events := 0x00c00 }]
      contextRequested := eventsSubscCreate 0x00c00 }
    (eventsSubscCreate 0x00c00) [{ event := .qosNotif }] [{ event := .qosNotif }] := by
  intro h
  have hkept := (h.subscription { event := .plmnChg }).2 (by decide)
  cases hkept

end ServiceConsumers.PcfEventSubscriptions
