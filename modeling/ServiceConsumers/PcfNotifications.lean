import ServiceConsumers.NumberTexts
import ServiceConsumers.PcfSessions

set_option autoImplicit false

/-!
# Notifications of the PCF (`npcf-process.c`, server events)

A notification arrives on the server of a PCF session, and its path names an app session by the
number that its pointer was printed as.
-/

namespace ServiceConsumers.PcfNotifications

open ObjectStore PcfEvents PcfSessions NumberTexts

inductive NotificationBody where
  | notJson
  | invalid
  | events (evNotifs : List NpcfAfEvent)
  deriving DecidableEq, Repr

/-- A request with what `ogs_sbi_parse_header` makes of its header; `server` is what its stream
leads to. -/
structure NotificationRequest where
  server : ℕ
  headerParsed : Bool := true
  serviceName : Option String
  apiVersion : Option String
  component : List String
  body : NotificationBody
  deriving DecidableEq, Repr

/-- What becomes of a request: it is left for others, or answered with a status after callbacks
of an app session were called. -/
inductive NotificationAnswer where
  | notTaken
  | answered (status : ℕ) (called : List (ℕ × ℕ))
  deriving DecidableEq, Repr

/-- The callbacks that were called, each with the app session it was called with. -/
def NotificationAnswer.called : NotificationAnswer → List (ℕ × ℕ)
  | .notTaken => []
  | .answered _ called => called

/-- The registrations of an app session. -/
def registrations (w : Context) (s : ℕ) : List PcfEventNotification :=
  ((w.appSessions s).map PcfAppSession.pcfEventNotifications).getD []

/-- The number in a path component, if that is all there is. -/
def instanceId (component : String) : Option ℕ :=
  match strtoull component.toList with
  | (n, []) => some n
  | (_, _ :: _) => none

/-- The handling of a notification for an app session that is registered. -/
def notify (w : Context) (s : ℕ) (r : NotificationRequest) : NotificationAnswer :=
  if r.component[2]? = some "notify" then
    match r.body with
    | .notJson | .invalid => .answered 400 []
    | .events evNotifs =>
        .answered 204 ((notificationsCallbackCall (registrations w s) evNotifs).map fun c => (s, c))
  else .answered 400 []

/-- `_pcf_process_event` for a server event. Any PCF session may have the server, and any the app
session. -/
def processServerEvent (w : Context) (r : NotificationRequest) : NotificationAnswer :=
  if ∃ p ∈ w.pcfSessions, p.notifServer = some r.server then
    if r.headerParsed then
      if r.serviceName = some "npcf-policyauthorization" then
        if r.component[0]? = some "app-session-instance" then
          match r.component[1]?.map instanceId with
          | none | some none => .answered 400 []
          | some (some s) =>
              if w.appSessionExists s then notify w s r else .answered 404 []
        else .answered 400 []
      else .answered 400 []
    else .notTaken
  else .notTaken

/-! ## What is to hold -/

/-- The request is for the notification URL of an app session, which is that of
`_pcf_app_session_get_notif_url` with `/notify`. -/
def SentTo (r : NotificationRequest) (s : ℕ) : Prop :=
  r.serviceName = some "npcf-policyauthorization" ∧ r.apiVersion = some "v1" ∧
    r.component = ["app-session-instance", formatPointer s, "notify"]

/-- A request on the server of a PCF session calls only callbacks that are registered on an app
session of it, and of no other, to whose notification URL it was sent. -/
def Isolated (w : Context) (r : NotificationRequest) : Prop :=
  ∀ p ∈ w.pcfSessions, p.notifServer = some r.server →
    ∀ s callback, (s, callback) ∈ (processServerEvent w r).called →
      (∃ n ∈ registrations w s, n.callback = callback) ∧ s ∈ p.pcfAppSessions ∧ SentTo r s ∧
        ∀ q ∈ w.pcfSessions, q.ref ≠ p.ref → s ∉ q.pcfAppSessions

/-- The app session that the path addresses. -/
def NotificationRequest.addressed (r : NotificationRequest) : Option ℕ :=
  if r.headerParsed ∧ r.serviceName = some "npcf-policyauthorization" ∧
      r.component[0]? = some "app-session-instance" ∧ r.component[2]? = some "notify" then
    r.component[1]?.bind instanceId
  else none

/-- The events of the body, when it can be parsed. -/
def NotificationBody.evNotifs : NotificationBody → List NpcfAfEvent
  | .notJson | .invalid => []
  | .events evNotifs => evNotifs

/-- An app session that is registered, that the path addresses and that has a registration for an
event of the body, is one of the PCF session that has the server, and the path is its own. -/
def Aimed (w : Context) (r : NotificationRequest) : Prop :=
  ∀ p ∈ w.pcfSessions, p.notifServer = some r.server →
    ∀ s ∈ w.registered, r.addressed = some s →
      (∃ n ∈ registrations w s, ∃ e ∈ r.body.evNotifs,
        n.events &&& npcfAfEventToEventMask e ≠ 0) → s ∈ p.pcfAppSessions ∧ SentTo r s

/-! ## Who is called -/

variable {w : Context} {r : NotificationRequest} {p : PcfSession} {s callback : ℕ}

theorem mem_notificationsCallbackCall {regs : List PcfEventNotification} {es : List NpcfAfEvent} :
    callback ∈ notificationsCallbackCall regs es ↔
      ∃ n ∈ regs, n.callback = callback ∧ ∃ e ∈ es, n.events &&& npcfAfEventToEventMask e ≠ 0 := by
  have hmask : ∀ n : PcfEventNotification, n.events &&& eventsMask es ≠ 0 ↔
      ∃ e ∈ es, n.events &&& npcfAfEventToEventMask e ≠ 0 := by
    intro n
    rw [Ne, and_eventsMask_eq_zero]
    simp only [not_forall, exists_prop, ne_eq]
  simp only [notificationsCallbackCall, List.mem_map, List.mem_filter, decide_eq_true_eq, hmask]
  constructor
  · rintro ⟨n, ⟨hn, hbit⟩, hcallback⟩
    exact ⟨n, hn, hcallback, hbit⟩
  · rintro ⟨n, hn, hcallback, hbit⟩
    exact ⟨n, ⟨hn, hbit⟩, hcallback⟩

theorem mem_called_notify : (s, callback) ∈ (notify w s r).called ↔
    r.component[2]? = some "notify" ∧ ∃ n ∈ registrations w s, n.callback = callback ∧
      ∃ e ∈ r.body.evNotifs, n.events &&& npcfAfEventToEventMask e ≠ 0 := by
  unfold notify
  split
  · rename_i hnotify
    rw [and_iff_right hnotify]
    cases r.body with
    | notJson => simp [NotificationAnswer.called, NotificationBody.evNotifs]
    | invalid => simp [NotificationAnswer.called, NotificationBody.evNotifs]
    | events evNotifs =>
        simp only [NotificationAnswer.called, NotificationBody.evNotifs, List.mem_map,
          Prod.mk.injEq, true_and, exists_eq_right, mem_notificationsCallbackCall]
  · rename_i hother
    exact iff_of_false List.not_mem_nil fun hboth => hother hboth.1

/-- What is called when the path names an app session by this component. -/
theorem mem_called_component {component : Option String} :
    (s, callback) ∈ (match component.map instanceId with
      | none | some none => NotificationAnswer.answered 400 []
      | some (some s) =>
          if w.appSessionExists s then notify w s r else .answered 404 []).called ↔
      s ∈ w.registered ∧ component.bind instanceId = some s ∧
        (s, callback) ∈ (notify w s r).called := by
  have hcalled : ∀ {t : ℕ}, (s, callback) ∈ (notify w t r).called → t = s := by
    intro t hmem
    unfold notify at hmem
    split at hmem
    · split at hmem
      · cases hmem
      · cases hmem
      · obtain ⟨c, -, heq⟩ := List.mem_map.1 hmem
        exact (Prod.mk.inj heq).1
    · cases hmem
  cases component with
  | none => simp [NotificationAnswer.called]
  | some text =>
      cases hid : instanceId text with
      | none => simp [NotificationAnswer.called, hid]
      | some t =>
          simp only [Option.map_some, hid, Option.bind_some, Option.some.injEq]
          by_cases ht : t ∈ w.registered
          · have hexists : w.appSessionExists t = true := List.contains_iff_mem.2 ht
            rw [if_pos hexists]
            constructor
            · intro hmem
              obtain rfl := hcalled hmem
              exact ⟨ht, rfl, hmem⟩
            · rintro ⟨-, rfl, hmem⟩
              exact hmem
          · have hexists : ¬ w.appSessionExists t = true := fun h => ht (List.contains_iff_mem.1 h)
            rw [if_neg hexists]
            refine iff_of_false List.not_mem_nil ?_
            rintro ⟨hs, rfl, -⟩
            exact ht hs

/-- The callbacks that are called are the registered ones of the app session that is addressed. -/
theorem mem_called_iff (hp : ∃ p ∈ w.pcfSessions, p.notifServer = some r.server) :
    (s, callback) ∈ (processServerEvent w r).called ↔
      s ∈ w.registered ∧ r.addressed = some s ∧ ∃ n ∈ registrations w s, n.callback = callback ∧
        ∃ e ∈ r.body.evNotifs, n.events &&& npcfAfEventToEventMask e ≠ 0 := by
  have hother : ∀ {answer : NotificationAnswer}, answer.called = [] → r.addressed = none →
      ((s, callback) ∈ answer.called ↔ s ∈ w.registered ∧ r.addressed = some s ∧
        ∃ n ∈ registrations w s, n.callback = callback ∧
          ∃ e ∈ r.body.evNotifs, n.events &&& npcfAfEventToEventMask e ≠ 0) := by
    intro answer hcalled haddressed
    rw [hcalled, haddressed]
    simp
  unfold processServerEvent
  rw [if_pos hp]
  by_cases hheader : r.headerParsed = true
  · rw [if_pos hheader]
    by_cases hservice : r.serviceName = some "npcf-policyauthorization"
    · rw [if_pos hservice]
      by_cases hcomponent : r.component[0]? = some "app-session-instance"
      · rw [if_pos hcomponent, mem_called_component, mem_called_notify]
        have haddressed : r.addressed = if r.component[2]? = some "notify" then
            r.component[1]?.bind instanceId else none := by
          simp only [NotificationRequest.addressed, hheader, hservice, hcomponent, true_and]
        rw [haddressed]
        split
        · rename_i hnotify
          rw [and_iff_right hnotify]
        · rename_i hnotify
          simp [hnotify]
      · rw [if_neg hcomponent]
        exact hother rfl (if_neg fun hall => hcomponent hall.2.2.1)
    · rw [if_neg hservice]
      exact hother rfl (if_neg fun hall => hservice hall.2.1)
  · rw [if_neg hheader]
    exact hother rfl (if_neg fun hall => hheader hall.1)

/-- A request on the server of a PCF session is isolated exactly when it is aimed at one of its
own app sessions. -/
theorem isolated_iff (h : WellFormed w) (r : NotificationRequest) : Isolated w r ↔ Aimed w r := by
  constructor
  · intro hisolated p hp hserver s hs haddressed ⟨n, hn, e, he, hbit⟩
    have hcalled := (mem_called_iff ⟨p, hp, hserver⟩).2
      ⟨hs, haddressed, n, hn, rfl, e, he, hbit⟩
    obtain ⟨-, hin, hsent, -⟩ := hisolated p hp hserver s n.callback hcalled
    exact ⟨hin, hsent⟩
  · intro haimed p hp hserver s callback hcalled
    obtain ⟨hs, haddressed, n, hn, hcallback, e, he, hbit⟩ :=
      (mem_called_iff ⟨p, hp, hserver⟩).1 hcalled
    obtain ⟨hin, hsent⟩ := haimed p hp hserver s hs haddressed ⟨n, hn, e, he, hbit⟩
    refine ⟨⟨n, hn, hcallback⟩, hin, hsent, fun q hq hne hother => ?_⟩
    obtain ⟨sess, hsess, howner⟩ := h.owner p hp s hin
    obtain ⟨sess', hsess', howner'⟩ := h.owner q hq s hother
    obtain rfl := Option.some.inj (hsess.symm.trans hsess')
    exact hne (howner'.symm.trans howner)

theorem instanceId_formatPointer (hne : s ≠ 0) (hlt : s < 2 ^ 64) :
    instanceId (formatPointer s) = some s := by
  rw [instanceId, strtoull_formatPointer hne hlt]

/-- A notification for an app session, on the server of its PCF session, goes to the callbacks
that are registered for its events. -/
theorem own_notification_delivered (hp : p ∈ w.pcfSessions)
    (hserver : p.notifServer = some r.server) (hs : s ∈ p.pcfAppSessions) (hne : s ≠ 0)
    (hlt : s < 2 ^ 64) (hheader : r.headerParsed = true) (hsent : SentTo r s)
    {evNotifs : List NpcfAfEvent} (hbody : r.body = .events evNotifs) :
    processServerEvent w r = .answered 204
      ((notificationsCallbackCall (registrations w s) evNotifs).map fun c => (s, c)) := by
  obtain ⟨hservice, -, hcomponent⟩ := hsent
  have hexists : w.appSessionExists s = true :=
    List.contains_iff_mem.2 (mem_registered.2 ⟨p, hp, hs⟩)
  have hid := instanceId_formatPointer hne hlt
  have hanswer : ∃ p ∈ w.pcfSessions, p.notifServer = some r.server := ⟨p, hp, hserver⟩
  unfold processServerEvent
  rw [if_pos hanswer, if_pos hheader, if_pos hservice, hcomponent]
  simp [hid, hexists, notify, hcomponent, hbody]

/-! ## Two PCF sessions -/

/-- Each has a server and an app session with a callback for `QOS_NOTIF`. -/
def twoPcfSessions : Context :=
  { pcfSessions := [{ ref := 0, notifServer := some 2, pcfAppSessions := [1] },
      { ref := 3, notifServer := some 5, pcfAppSessions := [4] }]
    appSessions := (Store.empty.set 1
        { pcfSession := 0, pcfEventNotifications := [{ callback := 7, events := 0x00800 }] }).set 4
      { pcfSession := 3, pcfEventNotifications := [{ callback := 8, events := 0x00800 }] }
    next := 6 }

/-- The notification of a `QOS_NOTIF` event, on the server of the first PCF session. -/
def qosNotification (s : ℕ) : NotificationRequest :=
  { server := 2
    serviceName := some "npcf-policyauthorization"
    apiVersion := some "v1"
    component := ["app-session-instance", formatPointer s, "notify"]
    body := .events [.qosNotif] }

theorem addressed_qosNotification (hne : s ≠ 0) (hlt : s < 2 ^ 64) :
    (qosNotification s).addressed = some s :=
  instanceId_formatPointer hne hlt

theorem wellFormed_twoPcfSessions : WellFormed twoPcfSessions := by
  refine ⟨by decide, by decide, ?_, by decide, fun t ht => ?_⟩
  · intro p hp t ht
    rcases List.mem_pair.1 hp with rfl | rfl
    · rw [List.mem_singleton.1 ht]
      exact ⟨_, rfl, rfl⟩
    · rw [List.mem_singleton.1 ht]
      exact ⟨_, rfl, rfl⟩
  · change t < 6
    by_contra hge
    have h1 : t ≠ 1 := by omega
    have h4 : t ≠ 4 := by omega
    simp [twoPcfSessions, Store.set_of_ne _ _ _ h4, Store.set_of_ne _ _ _ h1] at ht

/-- The first PCF session is notified for its own app session. -/
theorem own_notification_is_isolated : Isolated twoPcfSessions (qosNotification 1) := by
  refine (isolated_iff wellFormed_twoPcfSessions (qosNotification 1)).2 ?_
  intro p hp hserver s _ haddressed _
  rw [addressed_qosNotification (by decide) (by decide), Option.some.injEq] at haddressed
  subst haddressed
  rcases List.mem_pair.1 hp with rfl | rfl
  · exact ⟨List.mem_singleton_self 1, rfl, rfl, rfl⟩
  · cases hserver

/-- A notification for the app session of the second PCF session arrives on the server of the
first. -/
theorem foreign_notification_is_delivered : ¬ Isolated twoPcfSessions (qosNotification 4) := by
  intro h
  have hcalled : (4, 8) ∈ (processServerEvent twoPcfSessions (qosNotification 4)).called := by
    refine (mem_called_iff ⟨_, List.mem_cons_self, rfl⟩).2 ⟨by decide, ?_, ?_⟩
    · exact addressed_qosNotification (by decide) (by decide)
    · exact ⟨_, List.mem_singleton_self _, rfl, .qosNotif, List.mem_singleton_self _, by decide⟩
  obtain ⟨-, hin, -⟩ := h _ List.mem_cons_self rfl 4 8 hcalled
  exact absurd (List.mem_singleton.1 hin) (by decide)

end ServiceConsumers.PcfNotifications
