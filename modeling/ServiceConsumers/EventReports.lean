import ServiceConsumers.ConsumerState

set_option autoImplicit false

/-!
# Event reports of status subscriptions
(`_nmbsmf_mbs_session_subscription_report_list_handler`)
-/

namespace ServiceConsumers.EventReports

open ObjectStore

/-! ## Reports and notifications -/

inductive MbsSessionEventType where
  | mbsRelTmgiExpiry
  | broadcastDeliveryStatus
  | ingressTunnelAddChange
  deriving DecidableEq, Repr

inductive BroadcastDeliveryStatus where
  | started
  | terminated
  deriving DecidableEq, Repr

structure TunnelAddress where
  ipv4Addr : Option String := none
  ipv6Addr : Option String := none
  portNumber : ℤ := 0
  deriving DecidableEq, Repr

/-- `OpenAPI_mbs_session_event_report_t`; a type or a status without a name here is one that
the library does not know. -/
structure EventReport where
  eventType : Option MbsSessionEventType
  timeStamp : String
  ingressTunAddrInfo : Option (List TunnelAddress) := none
  broadcastDelStatus : Option BroadcastDeliveryStatus := none
  deriving DecidableEq, Repr

/-- `mb_smf_sc_mbs_session_event_type_t`. -/
def eventAll : BitVec 32 := -1

def eventOther : BitVec 32 := 0

def eventBit : MbsSessionEventType → BitVec 32
  | .mbsRelTmgiExpiry => 1
  | .broadcastDeliveryStatus => 2
  | .ingressTunnelAddChange => 4

def eventTypeName : MbsSessionEventType → String
  | .mbsRelTmgiExpiry => "MBS_REL_TMGI_EXPIRY"
  | .broadcastDeliveryStatus => "BROADCAST_DELIVERY_STATUS"
  | .ingressTunnelAddChange => "INGRESS_TUNNEL_ADD_CHANGE"

structure IngressTunnelAddr where
  ipv4 : Option (BitVec 32)
  ipv6 : Option (BitVec 128)
  port : BitVec 16
  deriving DecidableEq, Repr

/-- `mb_smf_sc_mbs_status_notification_result_t`, zero where nothing was written. -/
structure NotificationResult where
  eventType : BitVec 32 := eventOther
  eventTypeName : Option String := none
  mbsSession : Option Ref
  correlationId : Option String
  eventTime : ℤ
  broadcastDeliveryStatus : BroadcastDeliveryStatus := .started
  ingressTunnelAddChange : List IngressTunnelAddr := []
  deriving DecidableEq, Repr

/-- What the handler reads of `_priv_mbs_status_subscription_t`. -/
structure ReportedSubscription where
  session : Option Ref
  correlationId : Option String
  flags : BitVec 32
  callback : Option ℕ

/-! ## Time -/

/-- `struct tm`, with the year and the month counted from one. -/
structure BrokenDownTime where
  year : ℤ
  month : ℤ
  day : ℤ
  hour : ℤ
  minute : ℤ
  second : ℤ
  deriving DecidableEq, Repr

/-- Days from 1970-01-01 in the Gregorian calendar; a year is counted from March on. -/
def daysFromEpoch (t : BrokenDownTime) : ℤ :=
  let year := if t.month ≤ 2 then t.year - 1 else t.year
  let era := year / 400
  let yearOfEra := year - era * 400
  let dayOfYear := (153 * (if t.month ≤ 2 then t.month + 9 else t.month - 3) + 2) / 5 + t.day - 1
  let dayOfEra := yearOfEra * 365 + yearOfEra / 4 - yearOfEra / 100 + dayOfYear
  era * 146097 + dayOfEra - 719468

/-- The instant of a time in UTC. -/
def utcSeconds (t : BrokenDownTime) : ℤ :=
  daysFromEpoch t * 86400 + t.hour * 3600 + t.minute * 60 + t.second

example : utcSeconds ⟨2024, 2, 29, 12, 30, 15⟩ = 1709209815 := by decide

/-- The functions of the C library: `strptime` where it reads a whole time stamp of the form
`%Y-%m-%dT%H:%M:%SZ`, `mktime`, which takes a time for one of the local zone, and
`inet_pton`. -/
structure CLibrary where
  strptime : String → Option BrokenDownTime
  mktime : BrokenDownTime → ℤ
  inetPton : String → Option (BitVec 32)
  inetPton6 : String → Option (BitVec 128)

/-! ## The handler -/

inductive ReportFault where
  | nullIngressTunAddrInfo
  deriving DecidableEq, Repr

variable (libc : CLibrary)

def notificationTunnel (a : TunnelAddress) : IngressTunnelAddr :=
  { ipv4 := a.ipv4Addr.bind libc.inetPton
    ipv6 := a.ipv6Addr.bind libc.inetPton6
    port := BitVec.ofInt 16 a.portNumber }

/-- The notification of a report with a readable time stamp. -/
def buildNotification (n : ReportedSubscription) (r : EventReport) (t : BrokenDownTime) :
    Except ReportFault NotificationResult :=
  let notification : NotificationResult :=
    { mbsSession := n.session, correlationId := n.correlationId, eventTime := libc.mktime t }
  match r.eventType with
  | none => .ok notification
  | some type =>
      let notification :=
        { notification with eventType := eventBit type, eventTypeName := eventTypeName type }
      match type with
      | .mbsRelTmgiExpiry => .ok notification
      | .broadcastDeliveryStatus =>
          match r.broadcastDelStatus with
          | none => .ok notification
          | some status => .ok { notification with broadcastDeliveryStatus := status }
      | .ingressTunnelAddChange =>
          match r.ingressTunAddrInfo with
          | none => .error .nullIngressTunAddrInfo
          | some tunnels =>
              .ok { notification with
                ingressTunnelAddChange := tunnels.map (notificationTunnel libc) }

/-- The notifications of a list of reports, in the order in which the callback gets them. -/
def reportLoop (n : ReportedSubscription) :
    List EventReport → Except ReportFault (List NotificationResult)
  | [] => .ok []
  | r :: reports =>
      match libc.strptime r.timeStamp with
      | none => reportLoop n reports
      | some t => do
          let notification ← buildNotification libc n r t
          let rest ← reportLoop n reports
          .ok (if n.flags &&& notification.eventType ≠ 0 then notification :: rest else rest)

/-- `_nmbsmf_mbs_session_subscription_report_list_handler`, with what it returns. -/
def subscriptionReportListHandler (n : Option ReportedSubscription)
    (reports : Option (List EventReport)) : Except ReportFault (List NotificationResult × ℤ) :=
  match n, reports with
  | some n, some reports =>
      if n.callback.isNone then .ok ([], 0)
      else do
        let notifications ← reportLoop libc n reports
        .ok (notifications, 1)
  | _, _ => .ok ([], 0)

/-! ## What is to be delivered -/

/-- The flags of a subscription select an event type. -/
def selects (flags : BitVec 32) (type : Option MbsSessionEventType) : Bool :=
  flags = eventAll || type.any fun t => flags &&& eventBit t ≠ 0

def isDelivered (n : ReportedSubscription) (r : EventReport) : Bool :=
  (libc.strptime r.timeStamp).isSome && selects n.flags r.eventType

/-- A tunnel address with the addresses and the port of the report. -/
def ConveysTunnel (a : TunnelAddress) (t : IngressTunnelAddr) : Prop :=
  t.ipv4 = a.ipv4Addr.bind libc.inetPton ∧ t.ipv6 = a.ipv6Addr.bind libc.inetPton6 ∧
    (t.port.toNat : ℤ) = a.portNumber

/-- A notification of the subscription with the report's own content. -/
structure Conveys (n : ReportedSubscription) (r : EventReport) (m : NotificationResult) :
    Prop where
  mbsSession : m.mbsSession = n.session
  correlationId : m.correlationId = n.correlationId
  eventType : m.eventType = r.eventType.elim eventOther eventBit
  eventTime : ∃ t, libc.strptime r.timeStamp = some t ∧ m.eventTime = utcSeconds t
  broadcastDeliveryStatus : r.eventType = some .broadcastDeliveryStatus →
    r.broadcastDelStatus = some m.broadcastDeliveryStatus
  ingressTunnelAddChange : r.eventType = some .ingressTunnelAddChange →
    ∃ tunnels, r.ingressTunAddrInfo = some tunnels ∧
      List.Forall₂ (ConveysTunnel libc) tunnels m.ingressTunnelAddChange

/-- The handler returns, and the callback gets the reports that are to be delivered, each with
its own content. -/
def Delivers (n : ReportedSubscription) (reports : List EventReport) : Prop :=
  ∃ notifications,
    subscriptionReportListHandler libc (some n) (some reports) = .ok (notifications, 1) ∧
      List.Forall₂ (Conveys libc n) (reports.filter (isDelivered libc n)) notifications

/-- A report whose content fits into a notification: its type is known, UTC is the local time
at its time stamp, it has the status that its type asks for, and its ports are ports. -/
structure Fits (r : EventReport) (t : BrokenDownTime) : Prop where
  eventType : r.eventType.isSome = true
  eventTime : libc.mktime t = utcSeconds t
  broadcastDelStatus : r.eventType = some .broadcastDeliveryStatus →
    r.broadcastDelStatus.isSome = true
  ports : r.eventType = some .ingressTunnelAddChange →
    ∀ a ∈ r.ingressTunAddrInfo.getD [], 0 ≤ a.portNumber ∧ a.portNumber < 65536

/-- Every readable report of a tunnel change has its tunnels, and every selected one fits. -/
def Deliverable (n : ReportedSubscription) (reports : List EventReport) : Prop :=
  ∀ r ∈ reports, ∀ t, libc.strptime r.timeStamp = some t →
    (r.eventType = some .ingressTunnelAddChange → r.ingressTunAddrInfo.isSome = true) ∧
      (selects n.flags r.eventType = true → Fits libc r t)

/-! ## What the handler delivers -/

variable {libc}
variable {n : ReportedSubscription} {r : EventReport} {t : BrokenDownTime}
  {m : NotificationResult} {reports : List EventReport} {ms : List NotificationResult}

/-- The types are selected by their bits, also by the flags for all of them. -/
theorem selects_some (flags : BitVec 32) (type : MbsSessionEventType) :
    selects flags (some type) = true ↔ flags &&& eventBit type ≠ 0 := by
  have hall : flags = eventAll → flags &&& eventBit type ≠ 0 := by
    rintro rfl
    cases type <;> decide
  simpa [selects] using hall

theorem conveysTunnel_iff {a : TunnelAddress} :
    ConveysTunnel libc a (notificationTunnel libc a) ↔ 0 ≤ a.portNumber ∧ a.portNumber < 65536 := by
  have hport : ((BitVec.ofInt 16 a.portNumber).toNat : ℤ) = a.portNumber % 65536 := by
    rw [BitVec.toNat_ofInt]
    omega
  constructor
  · rintro ⟨-, -, h⟩
    rw [notificationTunnel, hport] at h
    omega
  · intro h
    refine ⟨rfl, rfl, ?_⟩
    rw [notificationTunnel, hport]
    omega

theorem conveysTunnels_iff {tunnels : List TunnelAddress} :
    List.Forall₂ (ConveysTunnel libc) tunnels (tunnels.map (notificationTunnel libc)) ↔
      ∀ a ∈ tunnels, 0 ≤ a.portNumber ∧ a.portNumber < 65536 := by
  rw [List.forall₂_map_right_iff, List.forall₂_same]
  exact forall₂_congr fun a _ => conveysTunnel_iff

/-- A notification can be built unless the tunnels of a tunnel change are missing. -/
theorem exists_buildNotification_iff : (∃ m, buildNotification libc n r t = .ok m) ↔
    (r.eventType = some .ingressTunnelAddChange → r.ingressTunAddrInfo.isSome = true) := by
  unfold buildNotification
  cases htype : r.eventType with
  | none => simp
  | some type =>
      cases type with
      | mbsRelTmgiExpiry => simp
      | broadcastDeliveryStatus => cases r.broadcastDelStatus <;> simp
      | ingressTunnelAddChange => cases r.ingressTunAddrInfo <;> simp

variable (libc) in
/-- What a notification is built of. -/
structure BuiltFrom (n : ReportedSubscription) (r : EventReport) (t : BrokenDownTime)
    (m : NotificationResult) : Prop where
  mbsSession : m.mbsSession = n.session
  correlationId : m.correlationId = n.correlationId
  eventType : m.eventType = r.eventType.elim eventOther eventBit
  eventTime : m.eventTime = libc.mktime t
  broadcastDeliveryStatus : r.eventType = some .broadcastDeliveryStatus →
    m.broadcastDeliveryStatus = r.broadcastDelStatus.getD .started
  ingressTunnelAddChange : r.eventType = some .ingressTunnelAddChange →
    ∃ tunnels, r.ingressTunAddrInfo = some tunnels ∧
      m.ingressTunnelAddChange = tunnels.map (notificationTunnel libc)

theorem builtFrom_of_ok (h : buildNotification libc n r t = .ok m) : BuiltFrom libc n r t m := by
  unfold buildNotification at h
  cases htype : r.eventType with
  | none =>
      rw [htype] at h
      cases h
      exact ⟨rfl, rfl, by simp [htype], rfl, by simp [htype], by simp [htype]⟩
  | some type =>
      rw [htype] at h
      cases type with
      | mbsRelTmgiExpiry =>
          cases h
          exact ⟨rfl, rfl, by simp [htype], rfl, by simp [htype], by simp [htype]⟩
      | broadcastDeliveryStatus =>
          cases hstatus : r.broadcastDelStatus <;> rw [hstatus] at h <;> cases h <;>
            exact ⟨rfl, rfl, by simp [htype], rfl, by simp [hstatus], by simp [htype]⟩
      | ingressTunnelAddChange =>
          cases htunnels : r.ingressTunAddrInfo <;> rw [htunnels] at h <;> cases h
          exact ⟨rfl, rfl, by simp [htype], rfl, by simp [htype], fun _ => ⟨_, htunnels, rfl⟩⟩

/-- The notification of a report has the report's content when that fits. -/
theorem conveys_iff (ht : libc.strptime r.timeStamp = some t)
    (htype : r.eventType.isSome = true) (h : BuiltFrom libc n r t m) :
    Conveys libc n r m ↔ Fits libc r t := by
  constructor
  · intro hc
    refine ⟨htype, ?_, fun hstatus => ?_, fun htunnels => ?_⟩
    · obtain ⟨t', ht', htime⟩ := hc.eventTime
      rw [ht] at ht'
      cases ht'
      exact h.eventTime.symm.trans htime
    · rw [hc.broadcastDeliveryStatus hstatus]
      rfl
    · obtain ⟨tunnels, hinfo, hmap⟩ := h.ingressTunnelAddChange htunnels
      obtain ⟨tunnels', hinfo', hconveys⟩ := hc.ingressTunnelAddChange htunnels
      rw [hinfo] at hinfo'
      cases hinfo'
      rw [hmap] at hconveys
      rw [hinfo]
      exact conveysTunnels_iff.1 hconveys
  · intro hf
    refine ⟨h.mbsSession, h.correlationId, h.eventType, ⟨t, ht, h.eventTime.trans hf.eventTime⟩,
      fun hstatus => ?_, fun htunnels => ?_⟩
    · obtain ⟨status, hsome⟩ := Option.isSome_iff_exists.1 (hf.broadcastDelStatus hstatus)
      rw [h.broadcastDeliveryStatus hstatus, hsome]
      rfl
    · obtain ⟨tunnels, hinfo, hmap⟩ := h.ingressTunnelAddChange htunnels
      have hports := hf.ports htunnels
      rw [hinfo] at hports
      exact ⟨tunnels, hinfo, hmap ▸ conveysTunnels_iff.2 hports⟩

/-! ## The loop -/

/-- The callback gets the notification of a known type that is selected; one of an unknown
type has no bit to select. -/
theorem and_eventType_ne_zero_iff (h : BuiltFrom libc n r t m) :
    n.flags &&& m.eventType ≠ 0 ↔ r.eventType.isSome = true ∧ selects n.flags r.eventType = true := by
  rw [h.eventType]
  cases htype : r.eventType with
  | none => simp [eventOther]
  | some type => simp [selects_some]

theorem reportLoop_cons_eq_ok_iff : reportLoop libc n (r :: reports) = .ok ms ↔
    (libc.strptime r.timeStamp = none ∧ reportLoop libc n reports = .ok ms) ∨
    ∃ t m rest, libc.strptime r.timeStamp = some t ∧ buildNotification libc n r t = .ok m ∧
      reportLoop libc n reports = .ok rest ∧
      ms = if n.flags &&& m.eventType ≠ 0 then m :: rest else rest := by
  rw [reportLoop]
  cases libc.strptime r.timeStamp with
  | none => simp
  | some t =>
      dsimp only
      cases hm : buildNotification libc n r t with
      | error e => simp [hm, Bind.bind, Except.bind]
      | ok m =>
          cases hrest : reportLoop libc n reports with
          | error e => simp [Bind.bind, Except.bind]
          | ok rest => simp [hm, Bind.bind, Except.bind, eq_comm]

/-- The callback is never called more often than it should be. -/
theorem length_reportLoop_le (h : reportLoop libc n reports = .ok ms) :
    ms.length ≤ (reports.filter (isDelivered libc n)).length := by
  induction reports generalizing ms with
  | nil =>
      cases h
      exact le_rfl
  | cons r reports ih =>
      rcases reportLoop_cons_eq_ok_iff.1 h with ⟨ht, hrest⟩ | ⟨t, m, rest, ht, hm, hrest, rfl⟩
      · rw [List.filter_cons_of_neg (by simp [isDelivered, ht])]
        exact ih hrest
      · have hle := ih hrest
        split_ifs with hbit
        · obtain ⟨-, hselected⟩ := (and_eventType_ne_zero_iff (builtFrom_of_ok hm)).1 hbit
          rw [List.filter_cons_of_pos (by simp [isDelivered, ht, hselected])]
          exact Nat.succ_le_succ hle
        · rw [List.filter_cons]
          split_ifs
          · exact Nat.le_succ_of_le hle
          · exact hle

/-- One report more is delivered exactly when it has what a notification needs. -/
theorem delivers_cons_iff : (∃ ms, reportLoop libc n (r :: reports) = .ok ms ∧
      List.Forall₂ (Conveys libc n) ((r :: reports).filter (isDelivered libc n)) ms) ↔
    Deliverable libc n [r] ∧ ∃ ms, reportLoop libc n reports = .ok ms ∧
      List.Forall₂ (Conveys libc n) (reports.filter (isDelivered libc n)) ms := by
  constructor
  · rintro ⟨ms, hloop, hall⟩
    rcases reportLoop_cons_eq_ok_iff.1 hloop with ⟨ht, hrest⟩ | ⟨t, m, rest, ht, hm, hrest, rfl⟩
    · rw [List.filter_cons_of_neg (by simp [isDelivered, ht])] at hall
      refine ⟨fun r' hr' t' ht' => ?_, ms, hrest, hall⟩
      rw [List.mem_singleton.1 hr', ht] at ht'
      cases ht'
    · have hbuilt := builtFrom_of_ok hm
      have hinfo := exists_buildNotification_iff.1 ⟨m, hm⟩
      by_cases hselected : selects n.flags r.eventType = true
      · rw [List.filter_cons_of_pos (by simp [isDelivered, ht, hselected])] at hall
        have htype : r.eventType.isSome = true := by
          by_contra hnone
          -- an unknown type would leave fewer calls than selected reports
          have hbit : ¬ (n.flags &&& m.eventType ≠ 0) := fun hbit =>
            hnone ((and_eventType_ne_zero_iff hbuilt).1 hbit).1
          rw [if_neg hbit] at hall
          have hle := length_reportLoop_le hrest
          have hlength := hall.length_eq
          rw [List.length_cons] at hlength
          omega
        rw [if_pos ((and_eventType_ne_zero_iff hbuilt).2 ⟨htype, hselected⟩)] at hall
        obtain ⟨hconveys, hall⟩ := List.forall₂_cons.1 hall
        refine ⟨fun r' hr' t' ht' => ?_, rest, hrest, hall⟩
        rw [List.mem_singleton.1 hr'] at ht' ⊢
        rw [ht] at ht'
        cases ht'
        exact ⟨hinfo, fun _ => (conveys_iff ht htype hbuilt).1 hconveys⟩
      · rw [List.filter_cons_of_neg (by simp [isDelivered, hselected]),
          if_neg fun hbit => hselected ((and_eventType_ne_zero_iff hbuilt).1 hbit).2] at hall
        refine ⟨fun r' hr' t' _ => ?_, rest, hrest, hall⟩
        rw [List.mem_singleton.1 hr']
        exact ⟨hinfo, fun h => absurd h hselected⟩
  · rintro ⟨hone, rest, hrest, hall⟩
    have hone := hone r (List.mem_singleton_self r)
    cases ht : libc.strptime r.timeStamp with
    | none =>
        refine ⟨rest, reportLoop_cons_eq_ok_iff.2 (.inl ⟨ht, hrest⟩), ?_⟩
        rwa [List.filter_cons_of_neg (by simp [isDelivered, ht])]
    | some t =>
        obtain ⟨hinfo, hfits⟩ := hone t ht
        obtain ⟨m, hm⟩ := exists_buildNotification_iff.2 hinfo
        have hbuilt := builtFrom_of_ok hm
        refine ⟨_, reportLoop_cons_eq_ok_iff.2 (.inr ⟨t, m, rest, ht, hm, hrest, rfl⟩), ?_⟩
        by_cases hselected : selects n.flags r.eventType = true
        · have hfits := hfits hselected
          rw [List.filter_cons_of_pos (by simp [isDelivered, ht, hselected]),
            if_pos ((and_eventType_ne_zero_iff hbuilt).2 ⟨hfits.eventType, hselected⟩)]
          exact .cons ((conveys_iff ht hfits.eventType hbuilt).2 hfits) hall
        · rwa [List.filter_cons_of_neg (by simp [isDelivered, hselected]),
            if_neg fun hbit => hselected ((and_eventType_ne_zero_iff hbuilt).1 hbit).2]

theorem delivers_iff_loop (hcallback : n.callback.isSome = true) :
    Delivers libc n reports ↔ ∃ ms, reportLoop libc n reports = .ok ms ∧
      List.Forall₂ (Conveys libc n) (reports.filter (isDelivered libc n)) ms := by
  obtain ⟨callback, hsome⟩ := Option.isSome_iff_exists.1 hcallback
  have hhandler : subscriptionReportListHandler libc (some n) (some reports) =
      (reportLoop libc n reports).map fun ms => (ms, 1) := by
    simp only [subscriptionReportListHandler, hsome, Option.isNone_some, Bool.false_eq_true,
      if_false]
    cases reportLoop libc n reports <;> rfl
  unfold Delivers
  rw [hhandler]
  cases reportLoop libc n reports <;> simp [Except.map]

theorem deliverable_cons_iff :
    Deliverable libc n (r :: reports) ↔ Deliverable libc n [r] ∧ Deliverable libc n reports := by
  simp [Deliverable]

/-- The reports of a list are delivered as they are exactly when every readable report of a
tunnel change has its tunnels and every selected report fits into a notification. -/
theorem delivers_iff (libc : CLibrary) (n : ReportedSubscription) (reports : List EventReport)
    (hcallback : n.callback.isSome = true) :
    Delivers libc n reports ↔ Deliverable libc n reports := by
  rw [delivers_iff_loop hcallback]
  induction reports with
  | nil =>
      constructor
      · intro _ r hr
        cases hr
      · intro _
        exact ⟨[], rfl, .nil⟩
  | cons r reports ih => rw [delivers_cons_iff, ih, ← deliverable_cons_iff]

/-- A host in UTC, as far as one time stamp and one address show. -/
def utcHost : CLibrary where
  strptime s := if s = "2024-02-29T12:30:15Z" then some ⟨2024, 2, 29, 12, 30, 15⟩ else none
  mktime := utcSeconds
  inetPton s := if s = "192.0.2.1" then some 0xc0000201 else none
  inetPton6 _ := none

/-- A subscription to all event types. -/
def allEvents : ReportedSubscription :=
  { session := some 0, correlationId := some "c", flags := eventAll, callback := some 5 }

theorem delivers_iff_allEvents :
    Delivers utcHost allEvents
      [{ eventType := some .ingressTunnelAddChange, timeStamp := "2024-02-29T12:30:15Z",
         ingressTunAddrInfo := some [{ ipv4Addr := some "192.0.2.1", portNumber := 2152 }] },
       { eventType := none, timeStamp := "yesterday" }] := by
  refine (delivers_iff utcHost allEvents _ rfl).2 fun r hr t ht => ?_
  simp only [List.mem_cons, List.not_mem_nil, or_false] at hr
  rcases hr with rfl | rfl
  · cases ht
    exact ⟨fun _ => rfl, fun _ => ⟨rfl, rfl, by decide, by decide⟩⟩
  · cases ht

theorem not_delivers_unknown_type :
    ¬ Delivers utcHost allEvents [{ eventType := none, timeStamp := "2024-02-29T12:30:15Z" }] := by
  rintro ⟨ms, hms, hall⟩
  have hnone : subscriptionReportListHandler utcHost (some allEvents)
      (some [{ eventType := none, timeStamp := "2024-02-29T12:30:15Z" }]) = .ok ([], 1) := by
    decide
  rw [hnone] at hms
  cases hms
  cases hall

end ServiceConsumers.EventReports
