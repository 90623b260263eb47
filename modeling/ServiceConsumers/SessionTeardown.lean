import ServiceConsumers.SharedLists
import ServiceConsumers.SessionOperations

set_option autoImplicit false

/-!
# The subscriptions of a session that is deleted (`_mbs_session_delete`)

All sessions keep their subscriptions in two lists, linked through the subscriptions, and in a
hash table.
-/

namespace ServiceConsumers.SessionTeardown

open Function KeyedTable ObjectStore ConsumerState LinkedLists SharedLists

/-! ## The containers of all sessions -/

structure Containers where
  links : SharedLinks ListLink Ref
  activeSubscriptions : Ref → Option (Table String Ref)

/-- The containers, with the members of each list. No subscription is in two lists. -/
structure Attachments extends Containers where
  members : ListLink → List Ref
  holds : ∀ c, (links.view c).Holds (members c)
  apart : ∀ c c' u, u ∈ members c → u ∈ members c' → c = c'

inductive Container where
  | list (c : ListLink)
  | activeSubscriptions (s : Ref)

/-- The subscriptions that a container holds. -/
def Attachments.held (x : Attachments) : Container → List Ref
  | .list c => x.members c
  | .activeSubscriptions s => ((x.activeSubscriptions s).getD []).map Prod.snd

def newSubscriptions (s : Ref) : ListLink := { session := s, list := .newSubscriptions }

def deletedSubscriptions (s : Ref) : ListLink := { session := s, list := .deletedSubscriptions }

/-- The subscriptions that are attached to a session. -/
def Attachments.attached (x : Attachments) (s : Ref) : List Ref :=
  x.members (newSubscriptions s) ++ x.held (.activeSubscriptions s) ++
    x.members (deletedSubscriptions s)

/-! ## Deleting -/

/-- The first argument of a callback of `ogs_hash_do`. -/
inductive HashArgument where
  | session (s : Ref)
  | activeSubscriptions (s : Ref)

inductive Event where
  | handed (rec : HashArgument)
  | unlinked (container : Container) (u : Ref)
  | released (u : Ref)

inductive TeardownFault where
  | notAHashTable
  | endlessList

abbrev Outcome := Except TeardownFault (Containers × List Event)

/-- `__free_status_subscription`: its argument is cast to a hash table. -/
def freeStatusSubscription (rec : HashArgument) (c : Containers) (key : String) (u : Ref) :
    Outcome :=
  match rec with
  | .session _ => .error .notAHashTable
  | .activeSubscriptions s =>
      let tables := update c.activeSubscriptions s
        ((c.activeSubscriptions s).map fun t => t.erase key)
      .ok ({ c with activeSubscriptions := tables },
        [.unlinked (.activeSubscriptions s) u, .released u])

/-- `ogs_hash_do` with `__free_status_subscription`, which never stops it. -/
def hashDo (rec : HashArgument) : Containers → Table String Ref → Outcome
  | c, [] => .ok (c, [])
  | c, e :: t => do
      let (c, events) ← freeStatusSubscription rec c e.1 e.2
      let (c, rest) ← hashDo rec c t
      .ok (c, .handed rec :: events ++ rest)

/-- A loop over a list of so many members, each of which is removed from the list that is
named and deleted. -/
def freeList (walked named : ListLink) (members : ℕ) (c : Containers) : Outcome :=
  match c.links.drain named members (c.links.next (.inl walked)) with
  | none => .error .endlessList
  | some (links, us) =>
      .ok ({ c with links := links },
        us.flatMap fun u => [.unlinked (.list named) u, .released u])

def freeActive (s : Ref) (c : Containers) : Outcome :=
  match c.activeSubscriptions s with
  | none => .ok (c, [])
  | some table => do
      let (c, events) ← hashDo (.session s) c table
      .ok ({ c with activeSubscriptions := update c.activeSubscriptions s none }, events)

/-- The part of `_mbs_session_delete` that is about the subscriptions. -/
def mbsSessionDelete (x : Attachments) (s : Ref) : Outcome := do
  let (c, new) ← freeList (newSubscriptions s) (newSubscriptions s)
    (x.members (newSubscriptions s)).length x.toContainers
  let (c, active) ← freeActive s c
  let (c, deleted) ← freeList (deletedSubscriptions s) (newSubscriptions s)
    (x.members (deletedSubscriptions s)).length c
  .ok (c, new ++ active ++ deleted)

/-- How often a subscription is released. -/
def timesReleased (u : Ref) (events : List Event) : ℕ :=
  events.countP fun e => match e with
    | .released v => v = u
    | _ => false

/-- Each attached subscription is released once, what is unlinked is unlinked from the
container that holds it, the callback gets the table of the session, and the containers of the
other sessions are left alone. -/
def TornDown (x : Attachments) (s : Ref) : Prop :=
  ∃ c events, mbsSessionDelete x s = .ok (c, events) ∧
    (∀ u ∈ x.attached s, timesReleased u events = 1) ∧
    (∀ container u, .unlinked container u ∈ events → u ∈ x.held container) ∧
    (∀ u ∈ x.attached s, ∃ container, .unlinked container u ∈ events) ∧
    (∀ rec, .handed rec ∈ events → rec = .activeSubscriptions s) ∧
    ∀ s', s' ≠ s → c.activeSubscriptions s' = x.activeSubscriptions s' ∧
      ∀ name, (c.links.view { session := s', list := name }).Holds
        (x.members { session := s', list := name })

/-! ## The loops -/

variable {x : Attachments} {s u : Ref} {c : Containers} {events : List Event}

/-- Links that only the header of one list and certain members may have changed. -/
def Untouched (header : ListLink) (us : List Ref) (l l' : SharedLinks ListLink Ref) : Prop :=
  ∀ q, q ≠ .inl header → (∀ u ∈ us, q ≠ .inr u) → l'.next q = l.next q ∧ l'.prev q = l.prev q

/-- A list is emptied, whichever list the loop names. -/
theorem freeList_of_holds {walked : ListLink} (named : ListLink) {us : List Ref}
    (h : (c.links.view walked).Holds us) :
    ∃ links, freeList walked named us.length c = .ok ({ c with links := links },
        us.flatMap fun u => [.unlinked (.list named) u, .released u]) ∧
      Untouched named us c.links links := by
  obtain ⟨links, hdrain, hnext, hprev⟩ := drain_of_holds (h := named) h
  refine ⟨links, ?_, fun q hq hmem => ⟨hnext q hq, hprev q hq hmem⟩⟩
  rw [freeList, hdrain]

/-- A list of which nothing was touched holds what it held. -/
theorem holds_of_untouched {header other : ListLink} {l l' : SharedLinks ListLink Ref}
    {us vs : List Ref} (h : (l.view other).Holds vs) (htouched : Untouched header us l l')
    (hne : other ≠ header) (hapart : ∀ v ∈ vs, v ∉ us) : (l'.view other).Holds vs := by
  have hkept : ∀ p, p = Sum.inl other ∨ (∃ v ∈ vs, p = .inr v) →
      l'.next p = l.next p ∧ l'.prev p = l.prev p := by
    rintro p (rfl | ⟨v, hv, rfl⟩)
    · exact htouched _ (fun heq => hne (Sum.inl.inj heq)) fun u _ heq => by cases heq
    · exact htouched _ Sum.inr_ne_inl fun u hu heq => hapart v hv (Sum.inr.inj heq ▸ hu)
  exact holds_view_congr h (fun p hp => (hkept p hp).1) fun p hp => (hkept p hp).2

/-- The callback is handed the session. -/
theorem freeActive_eq_ok_iff {r : Containers × List Event} : freeActive s c = .ok r ↔
    (c.activeSubscriptions s).getD [] = [] ∧
      r = ({ c with activeSubscriptions := update c.activeSubscriptions s none }, []) := by
  unfold freeActive
  cases htable : c.activeSubscriptions s with
  | none =>
      have hsame : update c.activeSubscriptions s none = c.activeSubscriptions := by
        rw [← htable, update_eq_self]
      simp [hsame, eq_comm]
  | some table =>
      cases table with
      | nil => simp [hashDo, Bind.bind, Except.bind, eq_comm]
      | cons e t => simp [hashDo, freeStatusSubscription, Bind.bind, Except.bind]

/-! ## The whole -/

/-- What a loop over a list does. -/
def freedFrom (named : ListLink) (us : List Ref) : List Event :=
  us.flatMap fun u => [.unlinked (.list named) u, .released u]

theorem mem_freedFrom {named : ListLink} {us : List Ref} {e : Event} :
    e ∈ freedFrom named us ↔ ∃ u ∈ us, e = .unlinked (.list named) u ∨ e = .released u := by
  simp [freedFrom]

theorem timesReleased_append (u : Ref) (events events' : List Event) :
    timesReleased u (events ++ events') = timesReleased u events + timesReleased u events' :=
  List.countP_append

theorem timesReleased_freedFrom (u : Ref) (named : ListLink) (us : List Ref) :
    timesReleased u (freedFrom named us) = us.count u := by
  induction us with
  | nil => rfl
  | cons v us ih =>
      have hhead : timesReleased u [.unlinked (.list named) v, .released v] =
          if v = u then 1 else 0 := by
        by_cases h : v = u <;> simp [timesReleased, h]
      change timesReleased u ([_, _] ++ freedFrom named us) = _
      rw [timesReleased_append, hhead, ih, List.count_cons, Nat.add_comm]
      by_cases h : v = u <;> simp [h]

theorem untouched_append {header : ListLink} {us vs : List Ref}
    {l l' l'' : SharedLinks ListLink Ref} (h : Untouched header us l l')
    (h' : Untouched header vs l' l'') : Untouched header (us ++ vs) l l'' := by
  intro q hq hmem
  obtain ⟨hnext, hprev⟩ := h q hq fun u hu => hmem u (List.mem_append_left vs hu)
  obtain ⟨hnext', hprev'⟩ := h' q hq fun u hu => hmem u (List.mem_append_right us hu)
  exact ⟨hnext'.trans hnext, hprev'.trans hprev⟩

theorem deleted_ne_new (s : Ref) : deletedSubscriptions s ≠ newSubscriptions s := by
  simp [deletedSubscriptions, newSubscriptions]

/-- Without active subscriptions both lists are emptied, both by the name of the first. -/
theorem mbsSessionDelete_of_inactive (h : x.held (.activeSubscriptions s) = []) :
    ∃ c, mbsSessionDelete x s =
        .ok (c, freedFrom (newSubscriptions s) (x.members (newSubscriptions s)) ++ [] ++
          freedFrom (newSubscriptions s) (x.members (deletedSubscriptions s))) ∧
      Untouched (newSubscriptions s)
        (x.members (newSubscriptions s) ++ x.members (deletedSubscriptions s)) x.links c.links ∧
      c.activeSubscriptions = update x.activeSubscriptions s none := by
  obtain ⟨links, hnew, htouched⟩ :=
    freeList_of_holds (c := x.toContainers) (newSubscriptions s)
      (x.holds (newSubscriptions s))
  have hactive : freeActive s { x.toContainers with links := links } = .ok
      ({ links := links, activeSubscriptions := update x.activeSubscriptions s none }, []) :=
    freeActive_eq_ok_iff.2 ⟨List.map_eq_nil_iff.1 h, rfl⟩
  have hdeleted : (links.view (deletedSubscriptions s)).Holds
      (x.members (deletedSubscriptions s)) :=
    holds_of_untouched (x.holds _) htouched (deleted_ne_new s) fun u hu hu' =>
      deleted_ne_new s (x.apart _ _ u hu hu')
  obtain ⟨links', hrest, htouched'⟩ := freeList_of_holds (newSubscriptions s)
    (c := { links := links, activeSubscriptions := update x.activeSubscriptions s none }) hdeleted
  refine ⟨{ links := links', activeSubscriptions := update x.activeSubscriptions s none }, ?_,
    untouched_append htouched htouched', rfl⟩
  simp only [mbsSessionDelete, hnew, hactive, hrest, Bind.bind, Except.bind]
  rfl

/-- A session that is deleted releases each of its subscriptions once, if none is active. -/
theorem released_of_inactive (h : x.held (.activeSubscriptions s) = []) :
    ∃ c events, mbsSessionDelete x s = .ok (c, events) ∧
      ∀ u ∈ x.attached s, timesReleased u events = 1 := by
  obtain ⟨c, hrun, -, -⟩ := mbsSessionDelete_of_inactive h
  refine ⟨c, _, hrun, fun u hu => ?_⟩
  have hnodup : ∀ list, (x.members list).Nodup := fun list => (x.holds list).nodup
  have hapart := x.apart (deletedSubscriptions s) (newSubscriptions s) u
  rw [timesReleased_append, timesReleased_append, timesReleased_freedFrom,
    timesReleased_freedFrom, (hnodup _).count, (hnodup _).count]
  rw [Attachments.attached, h, List.append_nil, List.mem_append] at hu
  by_cases hnew : u ∈ x.members (newSubscriptions s)
  · have hnot : u ∉ x.members (deletedSubscriptions s) := fun hdel =>
      deleted_ne_new s (hapart hdel hnew)
    simp [timesReleased, hnew, hnot]
  · simp [timesReleased, hnew, hu.resolve_left hnew]

/-! ## The subscriptions that are freed with a session -/

def released (events : List Event) : List Ref :=
  events.filterMap fun
    | .released u => some u
    | _ => none

theorem released_append (events events' : List Event) :
    released (events ++ events') = released events ++ released events' :=
  List.filterMap_append

theorem released_freedFrom (named : ListLink) (us : List Ref) :
    released (freedFrom named us) = us := by
  induction us with
  | nil => rfl
  | cons u us ih =>
      change released ([_, _] ++ freedFrom named us) = _
      rw [released_append, ih]
      rfl

/-- A session that is deleted in its world frees what it releases here. -/
theorem freeSubscriptions_released (w : World) (y : MbsSession)
    (hnew : x.members (newSubscriptions s) = y.newSubscriptions)
    (hactive : x.activeSubscriptions s = y.activeSubscriptions)
    (hdeleted : x.members (deletedSubscriptions s) = y.deletedSubscriptions)
    (h : y.active = []) : ∃ c events, mbsSessionDelete x s = .ok (c, events) ∧
      SessionOperations.freeSubscriptions
          (SessionOperations.freeSubscriptions w y.newSubscriptions) y.deletedSubscriptions =
        SessionOperations.freeSubscriptions w (released events) := by
  have hidle : x.held (.activeSubscriptions s) = [] := by
    rw [Attachments.held, hactive]
    exact List.map_eq_nil_iff.2 h
  obtain ⟨c, hrun, -, -⟩ := mbsSessionDelete_of_inactive hidle
  refine ⟨c, _, hrun, ?_⟩
  rw [released_append, released_append, released_freedFrom, released_freedFrom, hnew, hdeleted]
  exact (List.foldl_append).symm.trans (by simp [released, SessionOperations.freeSubscriptions])

/-- The deletion of a session keeps to its own containers exactly when it has neither active
subscriptions nor subscriptions that are to be deleted. -/
theorem tornDown_iff (x : Attachments) (s : Ref) : TornDown x s ↔
    x.held (.activeSubscriptions s) = [] ∧ x.members (deletedSubscriptions s) = [] := by
  constructor
  · rintro ⟨c, events, hrun, -, hcontainer, -, -, -⟩
    have hactive : x.held (.activeSubscriptions s) = [] := by
      simp only [mbsSessionDelete] at hrun
      obtain ⟨links, hnew, -⟩ :=
        freeList_of_holds (c := x.toContainers) (newSubscriptions s)
          (x.holds (newSubscriptions s))
      simp only [hnew, Bind.bind, Except.bind] at hrun
      cases hfree : freeActive s { x.toContainers with links := links } with
      | error e => simp [hfree] at hrun
      | ok r => exact List.map_eq_nil_iff.2 (freeActive_eq_ok_iff.1 hfree).1
    refine ⟨hactive, List.eq_nil_iff_forall_not_mem.2 fun u hu => ?_⟩
    obtain ⟨c', hrun', -, -⟩ := mbsSessionDelete_of_inactive hactive
    rw [hrun'] at hrun
    cases hrun
    have hheld : u ∈ x.members (newSubscriptions s) :=
      hcontainer (.list (newSubscriptions s)) u
        (List.mem_append_right _ (mem_freedFrom.2 ⟨u, hu, .inl rfl⟩))
    exact deleted_ne_new s (x.apart _ _ u hu hheld)
  · rintro ⟨hactive, hdeleted⟩
    obtain ⟨c, events, hrun, hreleased⟩ := released_of_inactive hactive
    obtain ⟨c', hrun', htouched, htables⟩ := mbsSessionDelete_of_inactive hactive
    rw [hrun'] at hrun
    cases hrun
    rw [hdeleted] at htouched
    have hevents : ∀ e, e ∈ freedFrom (newSubscriptions s) (x.members (newSubscriptions s)) ++ [] ++
        freedFrom (newSubscriptions s) (x.members (deletedSubscriptions s)) ↔
        ∃ u ∈ x.members (newSubscriptions s),
          e = .unlinked (.list (newSubscriptions s)) u ∨ e = .released u := by
      intro e
      rw [hdeleted, ← mem_freedFrom]
      simp [freedFrom]
    refine ⟨c, _, hrun', hreleased, fun container u he => ?_, fun u hu => ?_, fun rec he => ?_,
      fun s' hs' => ⟨by rw [htables, update_of_ne hs'], fun name => ?_⟩⟩
    · obtain ⟨v, hv, heq | heq⟩ := (hevents _).1 he <;> cases heq
      exact hv
    · rw [Attachments.attached, hactive, hdeleted, List.append_nil, List.append_nil] at hu
      exact ⟨_, (hevents _).2 ⟨u, hu, .inl rfl⟩⟩
    · obtain ⟨v, -, heq | heq⟩ := (hevents _).1 he <;> cases heq
    · have hne : ({ session := s', list := name } : ListLink) ≠ newSubscriptions s := fun heq =>
        hs' (congrArg ListLink.session heq)
      refine holds_of_untouched (x.holds _) htouched hne fun u hu hu' => hne (x.apart _ _ u hu ?_)
      rwa [List.append_nil] at hu'

/-- A session with one subscription, which is active. -/
def oneActive : Attachments where
  links := ⟨fun _ => none, fun _ => none⟩
  activeSubscriptions s := if s = 0 then some [("a", 1)] else none
  members _ := []
  holds _ := Links.holds_empty
  apart _ _ _ h := by cases h

theorem not_tornDown_oneActive : ¬ TornDown oneActive 0 := by
  rintro ⟨c, events, hrun, -⟩
  have hfault : mbsSessionDelete oneActive 0 = .error .notAHashTable := rfl
  rw [hfault] at hrun
  cases hrun

end ServiceConsumers.SessionTeardown
