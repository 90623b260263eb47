import ServiceConsumers.NotificationDispatch
import ServiceConsumers.TransactionLog

set_option autoImplicit false

/-!
# Notification URIs (`__allocate_notification_server`)

The builder of a create request opens a notification server for the subscription that it
embeds. The builder of a subscribe request uses the server that is there.
-/

namespace ServiceConsumers.NotificationUris

open ObjectStore ConsumerState TransactionLog NotificationDispatch

/-- `service.name`, `api.version` and `resource.component[0]` of a notification URI. -/
def notifyPath (component : String) : String := "mbs-session-notify/v1/" ++ component

/-- The host the library runs on: whether the notification address leaves the port open, the
servers it opens (for the n-th transaction, or the shared one on a fixed port), its UUIDs, the
URIs of its servers, and where a request to a URI arrives. -/
structure NotificationHost where
  ephemeral : Bool
  newServer : ℕ → Option Ref
  fixedServer : Option Ref
  uuid : ℕ → String
  serverUri : Ref → String → String
  parseUrl : String → Option (Option String)
  arrival : String → Ref × String

/-- New servers are new, UUIDs differ, and a URI names the server and the path it is made of. -/
structure NotificationHost.Lawful (host : NotificationHost) : Prop where
  newServer : ∀ m n server, host.newServer m = some server → host.newServer n = some server →
    m = n
  uuid : Function.Injective host.uuid
  parseUrl : ∀ server component,
    host.parseUrl (host.serverUri server component) = some (some (notifyPath component))
  arrival : ∀ server component,
    host.arrival (host.serverUri server component) = (server, "/" ++ notifyPath component)

/-- A notification server can be opened whenever one is needed. -/
def NotificationHost.Available (host : NotificationHost) : Prop :=
  if host.ephemeral then ∀ n, (host.newServer n).isSome else host.fixedServer.isSome

/-! ## Servers of subscriptions -/

def servedAt (host : NotificationHost) (server : Ref) (component : String) : SubscriptionCache :=
  { notifServer := some server, notifUrl := some (host.serverUri server component) }

/-- `__allocate_notification_server` while transaction `n` is built. -/
def allocateNotificationServer (host : NotificationHost) (n : ℕ) (c : SubscriptionCache) :
    SubscriptionCache :=
  if c.notifServer.isSome then c
  else if host.ephemeral then
    match host.newServer n with
    | none => c
    | some server => servedAt host server "notification"
  else
    match host.fixedServer with
    | none => c
    | some server => servedAt host server (host.uuid n)

/-- The subscription that a create request embeds. -/
def embedded : Request → Option Ref
  | .create _ (some (u, _)) => some u
  | _ => none

/-- The subscription that a request subscribes to. -/
def requested : Request → Option Ref
  | .subscribe u _ => some u
  | request => embedded request

/-- The cache of a subscription after a run, newest observation first. -/
def cacheOf (host : NotificationHost) (u : Ref) : List Observation → SubscriptionCache
  | [] => {}
  | .sent x :: log =>
      if embedded x.request = some u then allocateNotificationServer host x.id (cacheOf host u log)
      else cacheOf host u log
  | _ :: log => cacheOf host u log

/-- The `notifyUri` of a request, when it is the newest observation. -/
def notifyUri (host : NotificationHost) (u : Ref) (log : List Observation) : Option String :=
  (cacheOf host u log).notifUrl

variable {host : NotificationHost} {u : Ref} {log : List Observation}

/-- The server and the path component that transaction `n` gives a subscription. -/
def AllocatedAs (host : NotificationHost) (n : ℕ) (server : Ref) (component : String) : Prop :=
  host.ephemeral = true ∧ host.newServer n = some server ∧ component = "notification" ∨
    host.ephemeral = false ∧ host.fixedServer = some server ∧ component = host.uuid n

variable (host) in
theorem allocateNotificationServer_cases (n : ℕ) (c : SubscriptionCache) :
    allocateNotificationServer host n c = c ∨ ∃ server component,
      AllocatedAs host n server component ∧
        allocateNotificationServer host n c = servedAt host server component := by
  unfold allocateNotificationServer
  split
  · exact .inl rfl
  · split
    · rename_i hport
      split
      · exact .inl rfl
      · rename_i server hserver
        exact .inr ⟨server, _, .inl ⟨hport, hserver, rfl⟩, rfl⟩
    · rename_i hport
      split
      · exact .inl rfl
      · rename_i server hserver
        exact .inr ⟨server, _, .inr ⟨by simpa using hport, hserver, rfl⟩, rfl⟩

variable (host) in
/-- A cache is empty, or holds what some create request that embedded the subscription opened. -/
theorem cacheOf_cases (u : Ref) (log : List Observation) :
    cacheOf host u log = {} ∨ ∃ x server component, .sent x ∈ log ∧
      embedded x.request = some u ∧ AllocatedAs host x.id server component ∧
        cacheOf host u log = servedAt host server component := by
  induction log with
  | nil => exact .inl rfl
  | cons o log ih =>
      have hold : cacheOf host u (o :: log) = cacheOf host u log →
          cacheOf host u (o :: log) = {} ∨ ∃ x server component, .sent x ∈ o :: log ∧
            embedded x.request = some u ∧ AllocatedAs host x.id server component ∧
              cacheOf host u (o :: log) = servedAt host server component := by
        intro h
        rw [h]
        refine ih.imp_right ?_
        rintro ⟨x, server, component, hx, hrest⟩
        exact ⟨x, server, component, List.mem_cons_of_mem o hx, hrest⟩
      cases o with
      | sent x =>
          by_cases hembedded : embedded x.request = some u
          · obtain hkept | ⟨server, component, halloc, hserved⟩ :=
              allocateNotificationServer_cases host x.id (cacheOf host u log)
            · exact hold (by rw [cacheOf, if_pos hembedded, hkept])
            · refine .inr ⟨x, server, component, List.mem_cons_self, hembedded, halloc, ?_⟩
              rw [cacheOf, if_pos hembedded, hserved]
          · exact hold (by rw [cacheOf, if_neg hembedded])
      | _ => exact hold rfl

theorem notifServer_isSome_iff : (cacheOf host u log).notifServer.isSome = true ↔
    (cacheOf host u log).notifUrl.isSome = true := by
  obtain h | ⟨x, server, component, -, -, -, h⟩ := cacheOf_cases host u log
  · simp [h]
  · simp [h, servedAt]

/-- Once a subscription has its URI it keeps it. -/
theorem cacheOf_append {new : List Observation} (h : (cacheOf host u log).notifUrl.isSome = true) :
    cacheOf host u (new ++ log) = cacheOf host u log := by
  induction new with
  | nil => rfl
  | cons o new ih =>
      cases o with
      | sent x =>
          have hserver : (cacheOf host u (new ++ log)).notifServer.isSome = true := by
            rw [ih]
            exact notifServer_isSome_iff.2 h
          rw [List.cons_append, cacheOf, allocateNotificationServer, if_pos hserver, ite_self]
          exact ih
      | _ => exact ih

/-- An embedded subscription has a URI when a server can be opened. -/
theorem notifyUri_embedded {x : Xact} (havailable : host.Available)
    (hx : embedded x.request = some u) :
    (notifyUri host u (.sent x :: log)).isSome = true := by
  rw [notifyUri, cacheOf, if_pos hx, allocateNotificationServer]
  unfold NotificationHost.Available at havailable
  split
  · rename_i hserver
    exact notifServer_isSome_iff.1 hserver
  · split
    · rename_i hport
      rw [if_pos hport] at havailable
      obtain ⟨server, hserver⟩ := Option.isSome_iff_exists.1 (havailable x.id)
      rw [hserver]
      rfl
    · rename_i hport
      rw [if_neg hport] at havailable
      obtain ⟨server, hserver⟩ := Option.isSome_iff_exists.1 havailable
      rw [hserver]
      rfl

/-! ## Addresses of subscriptions -/

theorem withoutLeadingSlash_slash (p : String) : withoutLeadingSlash ("/" ++ p) = p := by
  simp [withoutLeadingSlash, String.toList_append]

theorem notifyPath_injective : Function.Injective notifyPath := fun _ _ h =>
  String.append_right_inj _ |>.1 h

/-- The cache as the dispatcher sees it. -/
def subscriptionCache (host : NotificationHost) (log : List Observation) (u : Ref) :
    Option SubscriptionCache :=
  some (cacheOf host u log)

/-- A request to the URI of a subscription is addressed to it and to no other. -/
theorem addressedBy_iff (hlaw : host.Lawful) (hnodup : ((sentOf log).map Xact.id).Nodup)
    {uri : String} (huri : (cacheOf host u log).notifUrl = some uri) (v : Ref) :
    AddressedBy host.parseUrl (subscriptionCache host log) (host.arrival uri).1
      (some (host.arrival uri).2) v ↔ v = u := by
  obtain h | ⟨x, server, component, hx, hembedded, halloc, h⟩ := cacheOf_cases host u log
  · rw [h] at huri
    cases huri
  rw [h, servedAt, Option.some.injEq] at huri
  subst huri
  rw [hlaw.arrival]
  constructor
  · rintro ⟨c, hc, hserver, hpath⟩
    rw [subscriptionCache, Option.some.injEq] at hc
    obtain h' | ⟨y, server', component', hy, hembedded', halloc', h'⟩ :=
      cacheOf_cases host v log
    · rw [← hc, h'] at hserver
      cases hserver
    rw [← hc, h', servedAt, Option.some.injEq] at hserver
    subst hserver
    obtain ⟨urlPath, requested, hparse, hrequested, hsame⟩ :
        PathOf host.parseUrl (some (host.serverUri server' component')) _ := by
      rw [← hc, h'] at hpath
      exact hpath
    rw [hlaw.parseUrl, Option.some.injEq] at hparse
    rw [Option.some.injEq] at hrequested
    rw [← hparse, ← hrequested, withoutLeadingSlash_slash, Option.getD_some] at hsame
    have hcomponent := notifyPath_injective hsame
    have hid : x.id = y.id := by
      obtain ⟨hport, hnew, -⟩ | ⟨hport, -, huuid⟩ := halloc <;>
        obtain ⟨hport', hnew', -⟩ | ⟨hport', -, huuid'⟩ := halloc'
      · exact hlaw.newServer _ _ _ hnew hnew'
      · exact absurd (hport.symm.trans hport') (by decide)
      · exact absurd (hport'.symm.trans hport) (by decide)
      · exact hlaw.uuid (huuid.symm.trans (hcomponent.symm.trans huuid'))
    obtain rfl := List.inj_on_of_nodup_map hnodup (mem_sentOf.2 hx) (mem_sentOf.2 hy) hid
    exact Option.some.inj (hembedded'.symm.trans hembedded)
  · rintro rfl
    refine ⟨_, rfl, by rw [h]; rfl, ?_⟩
    rw [h]
    exact ⟨_, _, hlaw.parseUrl _ _, rfl, (withoutLeadingSlash_slash _).symm⟩

/-! ## A host -/

/-- The port of a URI on the local host, and the path that follows it. -/
def splitAtPort (uri : String) : List Char × List Char :=
  let rest := uri.toList.drop "http://localhost:".length
  (rest.takeWhile Char.isDigit, rest.dropWhile Char.isDigit)

/-- A host that listens for each subscription on a port of its own. -/
def localHost : NotificationHost where
  ephemeral := true
  newServer := some
  fixedServer := none
  uuid := Nat.repr
  serverUri server component :=
    "http://localhost:" ++ (Nat.repr server ++ ("/" ++ notifyPath component))
  parseUrl uri := some (match (splitAtPort uri).2 with
    | '/' :: path => some (String.ofList path)
    | _ => none)
  arrival uri := (Nat.ofDigitChars 10 (splitAtPort uri).1 0, String.ofList (splitAtPort uri).2)

theorem splitAtPort_serverUri (server : Ref) (component : String) :
    splitAtPort (localHost.serverUri server component) =
      (Nat.toDigits 10 server, '/' :: (notifyPath component).toList) := by
  have hdigits : ∀ c ∈ Nat.toDigits 10 server, c.isDigit = true := fun c hc =>
    Nat.isDigit_of_mem_toDigits (by omega) (le_refl _) hc
  have hdrop : (localHost.serverUri server component).toList.drop "http://localhost:".length =
      Nat.toDigits 10 server ++ '/' :: (notifyPath component).toList := by
    rw [localHost, String.toList_append, ← String.length_toList, List.drop_left,
      String.toList_append, Nat.toList_repr, String.toList_append]
    rfl
  rw [splitAtPort, hdrop, List.takeWhile_append_of_pos hdigits,
    List.dropWhile_append_of_pos hdigits]
  simp

theorem localHost_lawful : localHost.Lawful := by
  refine ⟨?_, ?_, ?_, ?_⟩
  · intro m n server hm hn
    exact Option.some.inj (hm.trans hn.symm)
  · intro m n h
    have hdigits := congrArg (fun s => Nat.ofDigitChars 10 s.toList 0) h
    simpa [localHost] using hdigits
  · intro server component
    change some _ = _
    rw [splitAtPort_serverUri]
    simp
  · intro server component
    change (Nat.ofDigitChars 10 _ 0, _) = _
    rw [splitAtPort_serverUri]
    refine Prod.ext ?_ ?_
    · simp
    · apply String.toList_injective
      simp

theorem localHost_available : localHost.Available := fun _ => rfl

end ServiceConsumers.NotificationUris
