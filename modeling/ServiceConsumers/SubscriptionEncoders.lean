import ServiceConsumers.EventReports
import ServiceConsumers.NotificationUris

set_option autoImplicit false

/-!
# The two encodings of a status subscription (`nmbsmf-mbs-session-build.c`)

A subscription is embedded in the request that creates its session, or sent in a request of
its own.
-/

namespace ServiceConsumers.SubscriptionEncoders

open ObjectStore ConsumerState SubscriptionOperations SessionOperations NotificationDispatch
  NotificationUris EventReports

/-- `OpenAPI_mbs_session_subscription_t`, with the session id as some value. -/
structure MbsSessionSubscription (Id : Type) where
  mbsSessionId : Option Id
  areaSessionId : Option ℕ
  eventList : Option (List MbsSessionEventType)
  notifyUri : Option String
  notifyCorrelationId : Option String
  expiryTime : Option String
  nfcInstanceId : Option String

/-- What the library knows apart from its objects: `ogs_sbi_gmtime_string`, which takes a time
in microseconds, the id of this network function, and the host of the notification servers. -/
structure Environment where
  gmtimeString : ℤ → String
  nfInstanceId : Option String
  host : NotificationHost

variable {Id : Type} (env : Environment)

/-! ## The event lists -/

/-- A selected event type is added to a list that is made when it is needed. -/
def addEvent (flags : BitVec 32) (events : Option (List MbsSessionEventType))
    (type : MbsSessionEventType) : Option (List MbsSessionEventType) :=
  if flags &&& eventBit type ≠ 0 then some (events.getD [] ++ [type]) else events

/-- The three conditions of `_nmbsmf_mbs_session_build_create`. -/
def embeddedEvents (flags : BitVec 32) : Option (List MbsSessionEventType) :=
  let events :=
    if flags &&& eventBit .mbsRelTmgiExpiry ≠ 0 then some [.mbsRelTmgiExpiry] else none
  let events := addEvent flags events .broadcastDeliveryStatus
  addEvent flags events .ingressTunnelAddChange

/-- The loop of `_nmbsmf_mbs_session_build_status_subscription_create`. -/
def postedEvents (flags : BitVec 32) : Option (List MbsSessionEventType) :=
  [MbsSessionEventType.mbsRelTmgiExpiry, .broadcastDeliveryStatus,
    .ingressTunnelAddChange].foldl (addEvent flags) none

theorem embeddedEvents_eq_postedEvents (flags : BitVec 32) :
    embeddedEvents flags = postedEvents flags := rfl

/-- A list is made for the subscriptions that have events. -/
theorem postedEvents_isSome_iff (flags : BitVec 32) :
    (postedEvents flags).isSome = true ↔ ∃ type, flags &&& eventBit type ≠ 0 := by
  have hadd : ∀ (events : Option (List MbsSessionEventType)) (type : MbsSessionEventType),
      (addEvent flags events type).isSome = true ↔
        events.isSome = true ∨ flags &&& eventBit type ≠ 0 := by
    intro events type
    unfold addEvent
    split_ifs with h
    · exact ⟨fun _ => .inr h, fun _ => rfl⟩
    · exact ⟨.inl, fun h' => h'.resolve_right h⟩
  simp only [postedEvents, List.foldl_cons, List.foldl_nil, hadd]
  constructor
  · rintro (((h | h) | h) | h)
    · cases h
    · exact ⟨_, h⟩
    · exact ⟨_, h⟩
    · exact ⟨_, h⟩
  · rintro ⟨type, h⟩
    cases type with
    | mbsRelTmgiExpiry => exact .inl (.inl (.inr h))
    | broadcastDeliveryStatus => exact .inl (.inr h)
    | ingressTunnelAddChange => exact .inr h

/-! ## The encoders -/

/-- The subscription that transaction `xact` embeds in a create request. -/
def embedSubscription (xact : ℕ) (c : SubscriptionCache) (n : StatusSubscription) :
    Option (MbsSessionSubscription Id) :=
  (embeddedEvents n.flags).map fun events =>
    { mbsSessionId := none
      areaSessionId := none
      eventList := some events
      notifyUri := (allocateNotificationServer env.host xact c).notifUrl
      notifyCorrelationId := n.correlationId
      expiryTime := none
      nfcInstanceId := env.nfInstanceId }

/-- The subscription that `_nmbsmf_mbs_session_build_status_subscription_create` sends. -/
def postSubscription (mbsSessionId : Option Id) (c : SubscriptionCache) (n : StatusSubscription) :
    MbsSessionSubscription Id :=
  { mbsSessionId := mbsSessionId
    areaSessionId := if n.areaSessionId ≠ 0 then some n.areaSessionId else none
    eventList := postedEvents n.flags
    notifyUri := c.notifUrl
    notifyCorrelationId := n.correlationId
    expiryTime := if n.expiryTime ≠ 0 then some (env.gmtimeString n.expiryTime) else none
    nfcInstanceId := env.nfInstanceId }

/-- An expiry time in seconds, or none, as a time of the message. -/
def Denotes (time : Option String) (expiryTime : ℤ) : Prop :=
  time = if expiryTime = 0 then none else some (env.gmtimeString (expiryTime * 1000000))

/-- The members that both forms carry are the same, and the expiry time is that of the
application. -/
structure Agree (expiry : ℤ) (a b : MbsSessionSubscription Id) : Prop where
  eventList : a.eventList = b.eventList
  notifyUri : a.notifyUri = b.notifyUri
  notifyCorrelationId : a.notifyCorrelationId = b.notifyCorrelationId
  nfcInstanceId : a.nfcInstanceId = b.nfcInstanceId
  expiryTime : a.expiryTime = b.expiryTime
  denotes : Denotes env a.expiryTime expiry

/-- Whatever is embedded agrees with what would be sent on its own in the same state. -/
def EncodersAgree (xact : ℕ) (mbsSessionId : Option Id) (c : SubscriptionCache)
    (n : StatusSubscription) : Prop :=
  ∀ e, embedSubscription env xact c n = some e →
    Agree env n.expiryTime e (postSubscription env mbsSessionId c n)

/-- The builder of transaction `xact` can open a notification server. -/
def CanServe (host : NotificationHost) (xact : ℕ) : Prop :=
  if host.ephemeral then (host.newServer xact).isSome = true else host.fixedServer.isSome = true

variable {env}

/-- The URI changes exactly when a server is opened for the subscription. -/
theorem notifUrl_allocate_iff {host : NotificationHost} {xact : ℕ} {u : Ref}
    {log : List Observation} :
    (allocateNotificationServer host xact (cacheOf host u log)).notifUrl =
        (cacheOf host u log).notifUrl ↔
      (cacheOf host u log).notifServer.isSome = true ∨ ¬ CanServe host xact := by
  unfold allocateNotificationServer CanServe
  by_cases hserved : (cacheOf host u log).notifServer.isSome = true
  · simp [hserved]
  · have hnone : (cacheOf host u log).notifUrl = none := by
      rw [notifServer_isSome_iff] at hserved
      simpa using hserved
    rw [if_neg hserved, hnone]
    by_cases hport : host.ephemeral = true
    · rw [if_pos hport, if_pos hport]
      cases host.newServer xact <;> simp [hserved, hnone, servedAt]
    · rw [if_neg hport, if_neg hport]
      cases host.fixedServer <;> simp [hserved, hnone, servedAt]

/-- The two encodings of a subscription agree exactly when nothing is embedded, or it has its
notification server already (or can have none) and no expiry time. -/
theorem encodersAgree_iff (env : Environment) (xact : ℕ) (mbsSessionId : Option Id) (u : Ref)
    (log : List Observation) (n : StatusSubscription) :
    EncodersAgree env xact mbsSessionId (cacheOf env.host u log) n ↔
      (∀ type, n.flags &&& eventBit type = 0) ∨
        ((cacheOf env.host u log).notifServer.isSome = true ∨ ¬ CanServe env.host xact) ∧
          n.expiryTime = 0 := by
  have hevents : (∀ type, n.flags &&& eventBit type = 0) ↔ postedEvents n.flags = none := by
    rw [← Option.not_isSome_iff_eq_none, postedEvents_isSome_iff]
    simp
  rw [hevents, ← notifUrl_allocate_iff]
  unfold EncodersAgree embedSubscription
  rw [embeddedEvents_eq_postedEvents]
  cases hposted : postedEvents n.flags with
  | none => simp
  | some events =>
      constructor
      · intro h
        have hagree := h _ rfl
        refine .inr ⟨hagree.notifyUri, ?_⟩
        by_contra hexpiry
        have htime := hagree.expiryTime
        simp [postSubscription, hexpiry] at htime
      · rintro (h | ⟨huri, hexpiry⟩)
        · cases h
        · intro e he
          cases he
          exact ⟨hposted.symm, huri, rfl, rfl, by simp [postSubscription, hexpiry],
            by simp [Denotes, hexpiry]⟩

/-! ## The subscription of a create request -/

theorem hasEvents_iff (flags : BitVec 32) :
    hasEvents flags = true ↔ ∃ type, flags &&& eventBit type ≠ 0 := by
  have hmask : flags &&& 7#32 = flags &&& eventBit .mbsRelTmgiExpiry |||
      flags &&& eventBit .broadcastDeliveryStatus ||| flags &&& eventBit .ingressTunnelAddChange := by
    rw [← BitVec.and_or_distrib_left, ← BitVec.and_or_distrib_left]
    rfl
  have hnone : flags &&& 7#32 = 0#32 ↔ (flags &&& eventBit .mbsRelTmgiExpiry = 0#32 ∧
      flags &&& eventBit .broadcastDeliveryStatus = 0#32) ∧
        flags &&& eventBit .ingressTunnelAddChange = 0#32 := by
    rw [hmask, BitVec.or_eq_zero_iff, BitVec.or_eq_zero_iff]
  rw [hasEvents, decide_eq_true_iff, ← not_forall]
  refine not_congr (hnone.trans ⟨fun h type => ?_, fun h => ⟨⟨h _, h _⟩, h _⟩⟩)
  cases type with
  | mbsRelTmgiExpiry => exact h.1.1
  | broadcastDeliveryStatus => exact h.1.2
  | ingressTunnelAddChange => exact h.2

/-- A create request embeds a subscription exactly when its encoding does. -/
theorem embedSubscription_isSome_iff (xact : ℕ) (c : SubscriptionCache) (n : StatusSubscription) :
    (embedSubscription env xact c n : Option (MbsSessionSubscription Id)).isSome = true ↔
      hasEvents n.flags = true := by
  rw [hasEvents_iff, ← postedEvents_isSome_iff, embedSubscription,
    embeddedEvents_eq_postedEvents, Option.isSome_map]

/-- A host on which a server can be opened for any transaction. -/
def openHost : NotificationHost where
  ephemeral := true
  newServer xact := some xact
  fixedServer := none
  uuid _ := "u"
  serverUri _ path := path
  parseUrl _ := none
  arrival uri := (0, uri)

/-- Encoded in the state it is created in, a subscription until 2023-11-14T22:13:20Z is embedded
without an expiry time, and sent with one in 1970. -/
theorem not_encodersAgree_expiring :
    ¬ @EncodersAgree ℕ ⟨fun _ => "1970-01-01T00:28:20.000000Z", some "nf", openHost⟩ 0 none
      (cacheOf openHost 1 []) { flags := 1, expiryTime := 1700000000 } := by
  intro h
  have hagree := h _ rfl
  cases hagree.expiryTime

end ServiceConsumers.SubscriptionEncoders
