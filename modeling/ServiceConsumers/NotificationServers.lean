import ServiceConsumers.NotificationConfig
import ServiceConsumers.NotificationUris
import ServiceConsumers.ResourceLedgers
import ServiceConsumers.TransitionRuns

set_option autoImplicit false

/-!
# Notification servers (`nmbsmf-mbs-session-build.c`, `_mbs_status_subscription_delete` and
`mb_smf_sc_terminate`)

With an ephemeral port every subscription has a notification server of its own, and with a fixed
port they all have the same one, which a variable of the builders keeps.
-/

namespace ServiceConsumers.NotificationServers

open Function ObjectStore TransitionRuns NotificationConfig NotificationDispatch ResourceLedgers

inductive Fault where
  | useAfterFree
  deriving DecidableEq, Repr

/-- The servers with what the library keeps of them: the notification address of its context, the
server on the fixed port, and the subscriptions that are allocated. -/
structure Servers (Host : Type) where
  context : Option (Option (BindAddress Host)) := none
  fixedPortNotifications : Option Ref := none
  ledger : Ledger := {}
  caches : Store SubscriptionCache := Store.empty
  next : ℕ := 0

inductive Event (Host : Type) where
  | parseConfig (bindAddress : Option (BindAddress Host))
  | terminate
  | subscriptionNew
  | allocate (u : Ref) (opens : Bool) (uuid : String)
  | subscriptionDelete (u : Ref)

def Event.isTerminate {Host : Type} : Event Host → Bool
  | .terminate => true
  | _ => false

section Model

-- `ogs_sbi_server_uri` for a path component.
variable {Host : Type} (serverUri : Ref → String → String)

namespace Servers

variable (x : Servers Host)

/-- `_context_get_notification_address`. -/
def notificationAddress : Option (BindAddress Host) := x.context.join

/-- Without an address the port is ephemeral. -/
def isEphemeral : Bool :=
  match x.notificationAddress with
  | none => true
  | some a => a.port = (0, 0)

def served (server : Ref) (component : String) : SubscriptionCache :=
  { notifServer := some server, notifUrl := some (serverUri server component) }

/-- The server on the fixed port is opened when it is first needed. -/
def withFixedServer (opens : Bool) : Servers Host :=
  if x.fixedPortNotifications = none ∧ opens = true then
    { x with
      fixedPortNotifications := some x.ledger.opened
      ledger := x.ledger.openNext }
  else x

/-- `__allocate_notification_server`; the SBI layer may open no server. -/
def allocateNotificationServer (u : Ref) (c : SubscriptionCache) (opens : Bool) (uuid : String) :
    Servers Host :=
  if c.notifServer.isSome then x
  else if x.isEphemeral then
    if opens then
      { x with
        ledger := x.ledger.openNext
        caches := x.caches.set u (served serverUri x.ledger.opened "notification") }
    else x
  else
    match (x.withFixedServer opens).fixedPortNotifications with
    | none => x.withFixedServer opens
    | some server =>
        { x.withFixedServer opens with caches := x.caches.set u (served serverUri server uuid) }

/-- `_notification_server_free`. -/
def notificationServerFree (server : Option Ref) : Servers Host :=
  match server with
  | none => x
  | some s => if x.fixedPortNotifications = some s then x else { x with ledger := x.ledger.close s }

/-- `_tidy_fixed_notification_server`. -/
def tidyFixedNotificationServer : Servers Host :=
  match x.fixedPortNotifications with
  | none => x
  | some s => { x with ledger := x.ledger.close s }

/-- `_mbs_status_subscription_delete`. -/
def subscriptionDelete (u : Ref) (c : SubscriptionCache) : Servers Host :=
  { x.notificationServerFree c.notifServer with caches := x.caches.free u }

end Servers

open Servers

/-- `mb_smf_sc_terminate` also deletes subscriptions, each of which is an event of its own. -/
def step (x : Servers Host) : Event Host → Except Fault (Servers Host)
  | .parseConfig bindAddress => .ok { x with context := some bindAddress }
  | .terminate => .ok { x.tidyFixedNotificationServer with context := none }
  | .subscriptionNew => .ok { x with caches := x.caches.set x.next {}, next := x.next + 1 }
  | .allocate u opens uuid =>
      match x.caches u with
      | none => .error .useAfterFree
      | some c => .ok (x.allocateNotificationServer serverUri u c opens uuid)
  | .subscriptionDelete u =>
      match x.caches u with
      | none => .error .useAfterFree
      | some c => .ok (x.subscriptionDelete u c)

def run (es : List (Event Host)) : Except Fault (Servers Host) := es.foldlM (step serverUri) {}

/-! ## The servers of the subscriptions -/

/-- The server that a subscription has. -/
def serverOf (x : Servers Host) (u : Ref) : Option Ref :=
  (x.caches u).bind SubscriptionCache.notifServer

variable {serverUri} {x x' : Servers Host} {u : Ref} {c : SubscriptionCache} {s : Ref}

theorem serverOf_set (v : SubscriptionCache) :
    (fun q => (x.caches.set u v q).bind SubscriptionCache.notifServer) =
      update (serverOf x) u v.notifServer := by
  funext q
  by_cases hq : q = u
  · rw [hq, Store.set_self, update_self]
    rfl
  · rw [Store.set_of_ne _ _ _ hq, update_of_ne hq]
    rfl

theorem serverOf_free :
    (fun q => (x.caches.free u q).bind SubscriptionCache.notifServer) =
      update (serverOf x) u none := by
  funext q
  by_cases hq : q = u
  · rw [hq, Store.free_self, update_self]
    rfl
  · rw [Store.free_of_ne _ _ _ hq, update_of_ne hq]
    rfl

/-- Every server but the one on the fixed port belongs to one subscription. -/
structure Kept (x : Servers Host) : Prop where
  servers : Accounted (serverOf x) x.fixedPortNotifications x.ledger
  fresh : ∀ u, x.next ≤ u → x.caches u = none

theorem kept_initial : Kept ({} : Servers Host) := ⟨Accounted.initial, fun _ _ => rfl⟩

theorem kept_withFixedServer (h : Kept x) (opens : Bool) : Kept (x.withFixedServer opens) := by
  unfold withFixedServer
  split
  · rename_i hnew
    have hservers := h.servers
    rw [hnew.1] at hservers
    exact ⟨hservers.open_shared, h.fresh⟩
  · exact h

theorem kept_allocate (h : Kept x) (hu : x.caches u = some c) (opens : Bool) (uuid : String) :
    Kept (x.allocateNotificationServer serverUri u c opens uuid) := by
  have hlt : u < x.next := by
    by_contra hle
    rw [h.fresh u (Nat.le_of_not_lt hle)] at hu
    cases hu
  have hfresh : ∀ v q, x.next ≤ q → (x.caches.set u v) q = none := by
    intro v q hq
    rw [Store.set_of_ne _ _ _ (Nat.ne_of_gt (Nat.lt_of_lt_of_le hlt hq))]
    exact h.fresh q hq
  unfold allocateNotificationServer
  split
  · exact h
  · rename_i hserver
    have hnone : serverOf x u = none := by
      rw [serverOf, hu, Option.bind_some]
      exact Option.not_isSome_iff_eq_none.1 hserver
    split
    · split
      · refine ⟨?_, hfresh _⟩
        change Accounted (fun q => (x.caches.set u _ q).bind _) _ _
        rw [serverOf_set]
        exact h.servers.open_own hnone
      · exact h
    · have hfixed := kept_withFixedServer h opens
      have hcaches : (x.withFixedServer opens).caches = x.caches := by
        unfold withFixedServer
        split <;> rfl
      have hnext : (x.withFixedServer opens).next = x.next := by
        unfold withFixedServer
        split <;> rfl
      split
      · exact hfixed
      · rename_i server hserver
        refine ⟨?_, fun q hq => hfresh _ q (by rw [← hnext]; exact hq)⟩
        have hslots : serverOf (x.withFixedServer opens) = serverOf x := by
          funext q
          rw [serverOf, hcaches]
          rfl
        change Accounted (fun q => (x.caches.set u _ q).bind _) _ _
        rw [serverOf_set, ← hslots]
        exact hfixed.servers.update_shared (.inl (by rw [hslots]; exact hnone)) (.inr hserver.symm)

theorem kept_delete (h : Kept x) (hu : x.caches u = some c) : Kept (x.subscriptionDelete u c) := by
  have hserver : serverOf x u = c.notifServer := by
    rw [serverOf, hu, Option.bind_some]
  have hfresh : ∀ q, x.next ≤ q → x.caches.free u q = none := by
    intro q hq
    rw [Store.free_apply]
    split
    · rfl
    · exact h.fresh q hq
  unfold subscriptionDelete notificationServerFree
  split
  · rename_i hnone
    refine ⟨?_, hfresh⟩
    change Accounted (fun q => (x.caches.free u q).bind _) _ _
    rw [serverOf_free]
    exact h.servers.update_shared (.inl (hserver.trans hnone)) (.inl rfl)
  · rename_i s hsome
    split
    · rename_i hfixed
      refine ⟨?_, hfresh⟩
      change Accounted (fun q => (x.caches.free u q).bind _) _ _
      rw [serverOf_free]
      exact h.servers.update_shared (.inr ((hserver.trans hsome).trans hfixed.symm)) (.inl rfl)
    · rename_i hother
      refine ⟨?_, hfresh⟩
      change Accounted (fun q => (x.caches.free u q).bind _) _ _
      rw [serverOf_free]
      exact h.servers.close_own (hserver.trans hsome) hother

theorem kept_tidy (h : Kept x) : Kept x.tidyFixedNotificationServer := by
  unfold tidyFixedNotificationServer
  split
  · exact h
  · rename_i s hfixed
    have hservers := h.servers
    rw [hfixed] at hservers
    refine ⟨?_, h.fresh⟩
    change Accounted (serverOf x) x.fixedPortNotifications _
    rw [hfixed]
    exact hservers.close_shared

theorem kept_step (h : Kept x) {e : Event Host} (hstep : step serverUri x e = .ok x') : Kept x' := by
  cases e with
  | parseConfig bindAddress =>
      obtain rfl := Except.ok.inj hstep
      exact ⟨h.servers, h.fresh⟩
  | terminate =>
      obtain rfl := Except.ok.inj hstep
      exact ⟨(kept_tidy h).servers, (kept_tidy h).fresh⟩
  | subscriptionNew =>
      obtain rfl := Except.ok.inj hstep
      refine ⟨?_, fun q hq => ?_⟩
      · change Accounted (fun q => (x.caches.set x.next {} q).bind _) _ _
        rw [serverOf_set]
        refine h.servers.update_shared (.inl ?_) (.inl rfl)
        rw [serverOf, h.fresh x.next (Nat.le_refl _)]
        rfl
      · change x.caches.set x.next {} q = none
        rw [Store.set_of_ne _ _ _ (Nat.ne_of_gt (Nat.lt_of_succ_le hq))]
        exact h.fresh q (Nat.le_of_succ_le hq)
  | allocate u opens uuid =>
      cases hu : x.caches u with
      | none =>
          rw [step, hu] at hstep
          cases hstep
      | some c =>
          rw [step, hu] at hstep
          obtain rfl := Except.ok.inj hstep
          exact kept_allocate h hu opens uuid
  | subscriptionDelete u =>
      cases hu : x.caches u with
      | none =>
          rw [step, hu] at hstep
          cases hstep
      | some c =>
          rw [step, hu] at hstep
          obtain rfl := Except.ok.inj hstep
          exact kept_delete h hu

theorem kept_run {es : List (Event Host)} (h : run serverUri es = .ok x) : Kept x :=
  foldlM_ok_induction (fun _ => Kept) (fun _ _ _ _ hx hstep => kept_step hx hstep) es {} x
    kept_initial h

/-- One allocation is that of a host whose servers are those of the moment. -/
theorem allocate_refines {host : NotificationUris.NotificationHost} {n : ℕ} {opens : Bool}
    (hu : x.caches u = some c) (hport : host.ephemeral = x.isEphemeral)
    (hnew : host.newServer n = if opens then some x.ledger.opened else none)
    (hfixed : host.fixedServer = (x.withFixedServer opens).fixedPortNotifications) :
    (x.allocateNotificationServer host.serverUri u c opens (host.uuid n)).caches u =
      some (NotificationUris.allocateNotificationServer host n c) := by
  have hcaches : (x.withFixedServer opens).caches = x.caches := by
    unfold withFixedServer
    split <;> rfl
  unfold allocateNotificationServer NotificationUris.allocateNotificationServer
  rw [hport, hnew, hfixed]
  split
  · exact hu
  · split
    · cases opens with
      | false => exact hu
      | true => exact Store.set_self _ _ _
    · cases hserver : (x.withFixedServer opens).fixedPortNotifications with
      | none =>
          dsimp only
          rw [hcaches]
          exact hu
      | some server => exact Store.set_self _ _ _

/-! ## Runs -/

/-- In every run, a server that is not the one on the fixed port belongs to one subscription and
was not closed, or belongs to none and was closed once. -/
theorem servers_closed_once {es : List (Event Host)} (h : run serverUri es = .ok x)
    (hs : s < x.ledger.opened) (hown : x.fixedPortNotifications ≠ some s) :
    (∃! u, serverOf x u = some s) ∧ x.ledger.timesClosed s = 0 ∨
      (∀ u, serverOf x u ≠ some s) ∧ x.ledger.timesClosed s = 1 := by
  have hkept := kept_run h
  by_cases hheld : ∃ u, serverOf x u = some s
  · obtain ⟨u, hu⟩ := hheld
    obtain ⟨hzero, hone⟩ := hkept.servers.held u s hu hown
    exact .inl ⟨⟨u, hu, hone⟩, hzero⟩
  · have hnone : ∀ u, serverOf x u ≠ some s := fun u hu => hheld ⟨u, hu⟩
    exact .inr ⟨hnone, hkept.servers.released s hs hown hnone⟩

/-- The first of two subscriptions is deleted. -/
theorem deleted_subscription_closes : ∃ x : Servers Unit, run (fun _ component => component)
      [.subscriptionNew, .subscriptionNew, .allocate 0 true "a", .allocate 1 true "b",
        .subscriptionDelete 0] = .ok x ∧
    (∀ u, serverOf x u ≠ some 0) ∧ x.ledger.timesClosed 0 = 1 := by
  obtain ⟨x, hrun, hseen⟩ := exists_of_observed
    (x := run (fun _ component => component) [.subscriptionNew, .subscriptionNew,
      .allocate 0 true "a", .allocate 1 true "b", .subscriptionDelete 0])
    (f := fun x : Servers Unit => (x.ledger, x.fixedPortNotifications))
    (v := ({ opened := 2, closed := [0] }, none)) (by decide +kernel)
  obtain ⟨hledger, hfixed⟩ := Prod.mk.inj hseen
  have hclosed : x.ledger.timesClosed 0 = 1 := by
    rw [hledger]
    rfl
  refine ⟨x, hrun, ?_, hclosed⟩
  rcases servers_closed_once (s := 0) hrun (by rw [hledger]; exact Nat.two_pos)
    (by rw [hfixed]; exact (Option.some_ne_none 0).symm) with ⟨-, hzero⟩ | ⟨hnone, -⟩
  · rw [hclosed] at hzero
    cases hzero
  · exact hnone

/-- The variable keeps its server, which each termination closes. -/
structure Fixed (s : Ref) (n : ℕ) (x x' : Servers Host) : Prop where
  fixed : x'.fixedPortNotifications = some s
  closed : x'.ledger.timesClosed s = x.ledger.timesClosed s + n

theorem fixed_allocate (h : x.fixedPortNotifications = some s) (c : SubscriptionCache) (opens : Bool)
    (uuid : String) : Fixed s 0 x (x.allocateNotificationServer serverUri u c opens uuid) := by
  have hsame : x.withFixedServer opens = x := by
    refine if_neg fun hnew => ?_
    rw [h] at hnew
    cases hnew.1
  unfold allocateNotificationServer
  split
  · exact ⟨h, rfl⟩
  · split
    · split <;> exact ⟨h, rfl⟩
    · split
      · rw [hsame]
        exact ⟨h, rfl⟩
      · refine ⟨?_, ?_⟩
        · change (x.withFixedServer opens).fixedPortNotifications = some s
          rw [hsame, h]
        · change (x.withFixedServer opens).ledger.timesClosed s = _
          rw [hsame]
          rfl

theorem fixed_delete (h : x.fixedPortNotifications = some s) (c : SubscriptionCache) :
    Fixed s 0 x (x.subscriptionDelete u c) := by
  unfold subscriptionDelete notificationServerFree
  split
  · exact ⟨h, rfl⟩
  · rename_i t ht
    split
    · exact ⟨h, rfl⟩
    · rename_i hother
      refine ⟨h, x.ledger.timesClosed_close_of_ne ?_⟩
      rintro rfl
      exact hother h

theorem fixed_step (h : x.fixedPortNotifications = some s) {e : Event Host}
    (hstep : step serverUri x e = .ok x') : Fixed s (if e.isTerminate then 1 else 0) x x' := by
  cases e with
  | parseConfig bindAddress =>
      obtain rfl := Except.ok.inj hstep
      exact ⟨h, rfl⟩
  | terminate =>
      obtain rfl := Except.ok.inj hstep
      have htidy : x.tidyFixedNotificationServer = { x with ledger := x.ledger.close s } := by
        unfold tidyFixedNotificationServer
        rw [h]
      refine ⟨?_, ?_⟩
      · change x.tidyFixedNotificationServer.fixedPortNotifications = some s
        rw [htidy, h]
      · change x.tidyFixedNotificationServer.ledger.timesClosed s = _
        rw [htidy]
        exact x.ledger.timesClosed_close_self s
  | subscriptionNew =>
      obtain rfl := Except.ok.inj hstep
      exact ⟨h, rfl⟩
  | allocate u opens uuid =>
      cases hu : x.caches u with
      | none =>
          rw [step, hu] at hstep
          cases hstep
      | some c =>
          rw [step, hu] at hstep
          obtain rfl := Except.ok.inj hstep
          exact fixed_allocate h c opens uuid
  | subscriptionDelete u =>
      cases hu : x.caches u with
      | none =>
          rw [step, hu] at hstep
          cases hstep
      | some c =>
          rw [step, hu] at hstep
          obtain rfl := Except.ok.inj hstep
          exact fixed_delete h c

/-- By induction on the rest of the run. -/
theorem fixed_run (fs : List (Event Host)) (h : x.fixedPortNotifications = some s)
    (hrun : fs.foldlM (step serverUri) x = .ok x') :
    Fixed s (fs.countP Event.isTerminate) x x' := by
  induction fs generalizing x with
  | nil =>
      obtain rfl := Except.ok.inj hrun
      exact ⟨h, rfl⟩
  | cons e fs ih =>
      rw [List.foldlM_cons, bind_eq_ok] at hrun
      obtain ⟨y, hstep, hrest⟩ := hrun
      have hfirst := fixed_step h hstep
      have hothers := ih hfirst.fixed hrest
      refine ⟨hothers.fixed, ?_⟩
      rw [hothers.closed, hfirst.closed, List.countP_cons, Nat.add_assoc,
        Nat.add_comm (List.countP _ _)]

/-- The first server on a fixed port is the one of every later subscription that is served on a
fixed port, and every termination closes it, so that after one they are given a server that is
closed. -/
theorem fixed_server_never_renewed {es : List (Event Host)} (h : run serverUri es = .ok x)
    (hfixed : x.fixedPortNotifications = some s) (fs : List (Event Host))
    (hrun : run serverUri (es ++ fs) = .ok x') :
    x'.ledger.timesClosed s = x.ledger.timesClosed s + fs.countP Event.isTerminate ∧
      ∀ u c opens uuid, x'.caches u = some c → c.notifServer = none → x'.isEphemeral = false →
        step serverUri x' (.allocate u opens uuid) =
          .ok { x' with caches := x'.caches.set u (served serverUri s uuid) } := by
  have hrest : fs.foldlM (step serverUri) x = .ok x' := by
    rw [run, List.foldlM_append, bind_eq_ok] at hrun
    obtain ⟨y, hes, hfs⟩ := hrun
    obtain rfl := Except.ok.inj (h.symm.trans hes)
    exact hfs
  have hkept := fixed_run fs hfixed hrest
  refine ⟨hkept.closed, fun u c opens uuid hu hnone hport => ?_⟩
  have hsame : x'.withFixedServer opens = x' := by
    refine if_neg fun hnew => ?_
    rw [hkept.fixed] at hnew
    cases hnew.1
  rw [step, hu]
  refine congrArg Except.ok ?_
  rw [allocateNotificationServer, if_neg (by rw [hnone]; exact Bool.false_ne_true),
    if_neg (by rw [hport]; exact Bool.false_ne_true), hsame]
  split
  · rename_i hempty
    rw [hkept.fixed] at hempty
    cases hempty
  · rename_i server hserver
    rw [hkept.fixed] at hserver
    obtain rfl := Option.some.inj hserver
    rfl

/-- A port is configured, the library terminated and configured again. -/
theorem restarted_library_hands_out_closed : ∃ x x' : Servers Unit,
    run (fun _ component => component) [.parseConfig (some { host := (), port := (48, 57) }),
      .subscriptionNew, .allocate 0 true "a"] = .ok x ∧
    run (fun _ component => component) ([.parseConfig (some { host := (), port := (48, 57) }),
      .subscriptionNew, .allocate 0 true "a"] ++ [.terminate,
        .parseConfig (some { host := (), port := (48, 57) }), .subscriptionNew]) = .ok x' ∧
    x'.ledger.timesClosed 0 = 1 ∧ step (fun _ component => component) x' (.allocate 1 true "b") =
      .ok { x' with caches := x'.caches.set 1 { notifServer := some 0, notifUrl := some "b" } } := by
  obtain ⟨x, hx, hseen⟩ := exists_of_observed
    (x := run (fun _ component => component) [.parseConfig (some { host := (), port := (48, 57) }),
      .subscriptionNew, .allocate 0 true "a"])
    (f := fun x : Servers Unit => (x.ledger, x.fixedPortNotifications))
    (v := ({ opened := 1, closed := [] }, some 0)) (by decide +kernel)
  obtain ⟨x', hx', hseen'⟩ := exists_of_observed
    (x := run (fun _ component => component) ([.parseConfig (some { host := (), port := (48, 57) }),
      .subscriptionNew, .allocate 0 true "a"] ++ [.terminate,
        .parseConfig (some { host := (), port := (48, 57) }), .subscriptionNew]))
    (f := fun x : Servers Unit => (x.caches 1, x.isEphemeral)) (v := (some {}, false))
    (by decide +kernel)
  obtain ⟨hledger, hfixed⟩ := Prod.mk.inj hseen
  obtain ⟨hcache, hport⟩ := Prod.mk.inj hseen'
  obtain ⟨hclosed, halloc⟩ := fixed_server_never_renewed hx hfixed _ hx'
  refine ⟨x, x', hx, hx', ?_, halloc 1 {} true "b" hcache rfl hport⟩
  rw [hclosed, hledger]
  rfl

end Model

end ServiceConsumers.NotificationServers
