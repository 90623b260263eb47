import Mathlib.Data.List.Nodup
import ServiceConsumers.PublicSessions
import ServiceConsumers.TransitionRuns

set_option autoImplicit false

/-!
# Retrieving PCF bindings from the BSF (`pcf-bind.c`, `local.c`, `bsf-client-sess.c` and
`nbsf-process.c`)

A retrieve that the cache does not answer makes a session. The session is handed from a local
event to a transaction, and its callback is called when the transaction ends. What the queue,
the SBI layer and the cache answer is part of the events.
-/

namespace ServiceConsumers.BsfSessions

open PublicSessions TransitionRuns

inductive Fault where
  | assertion
  deriving DecidableEq, Repr

section Model

variable {B : Type}

/-- A call of `_bsf_retrieve_pcf_binding_for_pdu_session`, with what the cache finds and whether
the queue takes the event. The number stands for the callback and its user data. -/
structure Retrieve (B : Type) where
  family : AddressFamily
  callback : ℕ
  cached : Option B := none
  queued : Bool := true

structure BsfClientSess where
  id : ℕ
  callback : ℕ
  deriving DecidableEq, Repr

inductive Observation (B : Type) where
  | cacheCallback (callback : ℕ) (binding : B)
  | retrieveCallback (session callback : ℕ) (binding : Option B)

/-- The context of the library with the local events in the queue and the transactions of the
SBI layer that have a session of the library. The log starts with the latest callback. -/
structure Context (B : Type) where
  activeSessions : List BsfClientSess := []
  localEvents : List ℕ := []
  xacts : List (ℕ × ℕ) := []
  next : ℕ := 0
  log : List (Observation B) := []

namespace Context

def sessionIds (w : Context B) : List ℕ := w.activeSessions.map BsfClientSess.id

/-- `_bsf_client_context_active_sessions_exists`, with what is found. -/
def findSession (w : Context B) (s : ℕ) : Option BsfClientSess :=
  w.activeSessions.find? fun sess => sess.id = s

/-- `ogs_sbi_xact_find_by_id`, for the library's transactions: the session it is for. -/
def findXact (w : Context B) (n : ℕ) : Option ℕ := (w.xacts.find? fun x => x.1 = n).map Prod.snd

end Context

/-- An address that is neither IPv4 nor IPv6 is asserted against when the session is already
active. The session is queued last, and nothing is done when that fails. -/
def retrieve (w : Context B) (r : Retrieve B) : Except Fault (Context B) :=
  match r.cached with
  | some b => .ok { w with log := .cacheCallback r.callback b :: w.log }
  | none =>
      match r.family with
      | .other _ => .error .assertion
      | _ => .ok { w with
          activeSessions := w.activeSessions ++ [{ id := w.next, callback := r.callback }]
          localEvents := if r.queued then w.localEvents ++ [w.next] else w.localEvents
          next := w.next + 1 }

/-- How `_bsf_client_sess_discover_and_send` ends. -/
inductive Discovery where
  | noTransaction
  | notSent
  | sent
  deriving DecidableEq, Repr

/-- `_bsf_client_local_process_event` for an event that is in the queue. A transaction that was
not sent is removed again. -/
def bsfClientLocalProcessEvent (w : Context B) (s : ℕ) (discovery : Discovery) : Context B :=
  let w := { w with localEvents := w.localEvents.erase s }
  match w.findSession s, discovery with
  | some _, .sent => { w with xacts := w.xacts ++ [(w.next, s)], next := w.next + 1 }
  | _, _ => w

/-- What the header of a response names, or that it has none that can be parsed. -/
inductive ResponseHeader where
  | unparsable
  | nfInstances
  | pcfBindings
  | other
  deriving DecidableEq, Repr

structure SbiResponse (B : Type) where
  header : ResponseHeader
  status : ℕ := 200
  parsed : Bool := true
  pcfBinding : Option B := none

/-- What the session is told when the response ends it. The NRF's answer only passes the
transaction on, and a response that cannot be parsed is dropped. -/
def SbiResponse.completion (rsp : SbiResponse B) : Option (Option B) :=
  match rsp.header with
  | .unparsable | .nfInstances | .other => none
  | .pcfBindings =>
      if rsp.status = 200 then if rsp.parsed then some rsp.pcfBinding else none
      else some none

/-- The callback, in which the application may retrieve more; then the transaction is removed
and the session freed. -/
def complete (w : Context B) (n : ℕ) (sess : BsfClientSess) (binding : Option B)
    (during : List (Retrieve B)) : Except Fault (Context B) := do
  let w ← during.foldlM retrieve
    { w with log := .retrieveCallback sess.id sess.callback binding :: w.log }
  .ok { w with
    xacts := w.xacts.filter fun x => x.1 ≠ n
    activeSessions := w.activeSessions.filter fun x => x.id ≠ sess.id }

inductive Event (B : Type) where
  | retrieve (r : Retrieve B)
  | localEvent (s : ℕ) (discovery : Discovery)
  | response (n : ℕ) (rsp : SbiResponse B) (during : List (Retrieve B))
  | clientWait (n : ℕ) (during : List (Retrieve B))

/-- The session that an event ends, and what it is told. -/
def Event.ends (w : Context B) : Event B → Option (ℕ × BsfClientSess × Option B)
  | .response n rsp _ => do
      let s ← w.findXact n
      let sess ← w.findSession s
      let binding ← rsp.completion
      return (n, sess, binding)
  | .clientWait n _ => do
      let s ← w.findXact n
      let sess ← w.findSession s
      return (n, sess, none)
  | _ => none

/-- What the application retrieves in a callback that the event leads to. -/
def Event.during : Event B → List (Retrieve B)
  | .response _ _ during | .clientWait _ during => during
  | _ => []

/-- What a 200 response brings is copied into the cache before the callback, and
`OpenAPI_pcf_binding_copy` asserts that there is something to copy. -/
def Event.copiesNothing : Event B → Bool
  | .response _ rsp _ => rsp.status = 200 && rsp.pcfBinding.isNone
  | _ => false

/-- `_bsf_process_event`, and the calls of the application. -/
def step (w : Context B) (e : Event B) : Except Fault (Context B) :=
  match e with
  | .retrieve r => retrieve w r
  | .localEvent s discovery =>
      .ok (if s ∈ w.localEvents then bsfClientLocalProcessEvent w s discovery else w)
  | .response .. | .clientWait .. =>
      match e.ends w with
      | none => .ok w
      | some (n, sess, binding) =>
          if e.copiesNothing then .error .assertion else complete w n sess binding e.during

/-! ## What is to hold -/

/-- The sessions whose callbacks were called, the latest first. -/
def calledIds (log : List (Observation B)) : List ℕ :=
  log.filterMap fun
    | .retrieveCallback s _ _ => some s
    | .cacheCallback .. => none

/-- Every active session has an event in the queue or a transaction that can still end it. -/
def Waiting (w : Context B) : Prop :=
  ∀ s ∈ w.sessionIds, s ∈ w.localEvents ∨ ∃ n, w.findXact n = some s

/-- In one step the sessions that leave are those whose callbacks are called. -/
structure StepTells (w w' : Context B) : Prop where
  called : ∀ s ∈ w.sessionIds, s ∉ w'.sessionIds →
    s ∉ calledIds w.log ∧ s ∈ calledIds w'.log
  gone : ∀ s ∈ calledIds w'.log, s ∉ calledIds w.log → s ∈ w.sessionIds ∧ s ∉ w'.sessionIds

/-- In every state of the run each callback was called at most once and no session is left
without what can end it, and every step tells the sessions that leave. -/
def Completes : Context B → List (Event B) → Prop
  | w, [] => (calledIds w.log).Nodup ∧ Waiting w
  | w, e :: es => ((calledIds w.log).Nodup ∧ Waiting w) ∧
      ∀ w', step w e = .ok w' → StepTells w w' ∧ Completes w' es

/-! ## The condition -/

/-- The new session is not in the queue. -/
def Retrieve.Strands (r : Retrieve B) : Prop := r.cached = none ∧ r.queued = false

/-- The retrieves that the application gets to make. -/
def Event.executed (w : Context B) (e : Event B) : List (Retrieve B) :=
  match e with
  | .retrieve r => [r]
  | e => if (e.ends w).isSome then e.during else []

/-- The queue does not take the event of a new session, or the request of a session that was in
the queue is not sent. -/
def Fails (w : Context B) (e : Event B) : Prop :=
  (∃ r ∈ e.executed w, r.Strands) ∨
    ∃ s discovery, e = .localEvent s discovery ∧ s ∈ w.localEvents ∧ discovery ≠ .sent

def NeverFails : Context B → List (Event B) → Prop
  | _, [] => True
  | w, e :: es => ∀ w', step w e = .ok w' → ¬ Fails w e ∧ NeverFails w' es

/-! ## The invariant -/

variable {w w' : Context B} {o : Option ℕ}

/-- Sessions, queued events and transactions belong together, and a session that was called is
gone, except for the one being called. -/
structure Consistent (o : Option ℕ) (w : Context B) : Prop where
  sessions : w.sessionIds.Nodup
  fresh : ∀ s ∈ w.sessionIds, s < w.next
  queue : w.localEvents.Nodup
  queued : ∀ s ∈ w.localEvents, s ∈ w.sessionIds ∧ s ∉ w.xacts.map Prod.snd
  numbers : (w.xacts.map Prod.fst).Nodup
  freshNumbers : ∀ n ∈ w.xacts.map Prod.fst, n < w.next
  requests : (w.xacts.map Prod.snd).Nodup
  requested : ∀ s ∈ w.xacts.map Prod.snd, s ∈ w.sessionIds
  once : (calledIds w.log).Nodup
  calledBefore : ∀ s ∈ calledIds w.log, s < w.next
  called : ∀ s ∈ calledIds w.log, s ∈ w.sessionIds → o = some s

theorem findXact_eq_some (hnumbers : (w.xacts.map Prod.fst).Nodup) {n s : ℕ} :
    w.findXact n = some s ↔ (n, s) ∈ w.xacts := by
  rw [Context.findXact, Option.map_eq_some_iff]
  constructor
  · rintro ⟨x, hx, rfl⟩
    have hn : x.1 = n := by simpa using List.find?_some hx
    rw [← hn]
    exact List.mem_of_find?_eq_some hx
  · intro hmem
    cases hfind : w.xacts.find? fun x => x.1 = n with
    | none => exact absurd (decide_eq_true rfl) (List.find?_eq_none.1 hfind (n, s) hmem)
    | some x =>
        have hn : x.1 = n := by simpa using List.find?_some hfind
        rw [List.inj_on_of_nodup_map hnumbers (List.mem_of_find?_eq_some hfind) hmem hn]
        exact ⟨(n, s), rfl, rfl⟩

theorem waiting_iff (hnumbers : (w.xacts.map Prod.fst).Nodup) :
    Waiting w ↔ ∀ s ∈ w.sessionIds, s ∈ w.localEvents ∨ s ∈ w.xacts.map Prod.snd := by
  have hxact : ∀ s, (∃ n, w.findXact n = some s) ↔ s ∈ w.xacts.map Prod.snd := by
    intro s
    simp only [findXact_eq_some hnumbers, List.mem_map, Prod.exists, exists_eq_right]
  simp only [Waiting, hxact]

theorem findSession_eq_some {s : ℕ} {sess : BsfClientSess} (h : w.findSession s = some sess) :
    sess.id = s ∧ s ∈ w.sessionIds := by
  have hid : sess.id = s := by simpa using List.find?_some h
  exact ⟨hid, hid ▸ List.mem_map_of_mem (List.mem_of_find?_eq_some h)⟩

theorem findSession_of_mem {s : ℕ} (h : s ∈ w.sessionIds) : ∃ sess, w.findSession s = some sess := by
  obtain ⟨sess, hsess, rfl⟩ := List.mem_map.1 h
  rw [← Option.isSome_iff_exists, Context.findSession, List.find?_isSome]
  exact ⟨sess, hsess, decide_eq_true rfl⟩

/-! ## Retrieves -/

/-- What retrieves of the application do: sessions come, nothing else is called. -/
structure Grows (w w' : Context B) : Prop where
  sessions : ∃ new, w'.sessionIds = w.sessionIds ++ new ∧ ∀ s ∈ new, w.next ≤ s
  called : calledIds w'.log = calledIds w.log
  xacts : w'.xacts = w.xacts
  next : w.next ≤ w'.next

theorem Grows.refl (w : Context B) : Grows w w :=
  ⟨⟨[], (List.append_nil _).symm, nofun⟩, rfl, rfl, le_refl _⟩

theorem Grows.trans {v : Context B} (h : Grows w v) (h' : Grows v w') : Grows w w' := by
  obtain ⟨new, hnew, hge⟩ := h.sessions
  obtain ⟨new', hnew', hge'⟩ := h'.sessions
  refine ⟨⟨new ++ new', by rw [hnew', hnew, List.append_assoc], fun s hs => ?_⟩,
    h'.called.trans h.called, h'.xacts.trans h.xacts, le_trans h.next h'.next⟩
  rcases List.mem_append.1 hs with hs | hs
  · exact hge s hs
  · exact le_trans h.next (hge' s hs)

theorem retrieve_eq_ok {r : Retrieve B} (h : retrieve w r = .ok w') :
    (∃ b, r.cached = some b ∧ w' = { w with log := .cacheCallback r.callback b :: w.log }) ∨
      r.cached = none ∧ w' = { w with
        activeSessions := w.activeSessions ++ [{ id := w.next, callback := r.callback }]
        localEvents := if r.queued then w.localEvents ++ [w.next] else w.localEvents
        next := w.next + 1 } := by
  unfold retrieve at h
  split at h
  · rename_i b hb
    exact .inl ⟨b, hb, (Except.ok.inj h).symm⟩
  · rename_i hnone
    split at h
    · cases h
    · exact .inr ⟨hnone, (Except.ok.inj h).symm⟩

/-- The state after a session was made. -/
def withSession (w : Context B) (callback : ℕ) (queued : Bool) : Context B :=
  { w with
    activeSessions := w.activeSessions ++ [{ id := w.next, callback := callback }]
    localEvents := if queued then w.localEvents ++ [w.next] else w.localEvents
    next := w.next + 1 }

theorem sessionIds_withSession (w : Context B) (callback : ℕ) (queued : Bool) :
    (withSession w callback queued).sessionIds = w.sessionIds ++ [w.next] := by
  simp [Context.sessionIds, withSession]

theorem mem_localEvents_withSession {callback : ℕ} {queued : Bool} {s : ℕ} :
    s ∈ (withSession w callback queued).localEvents ↔
      s ∈ w.localEvents ∨ queued = true ∧ s = w.next := by
  cases queued <;> simp [withSession]

theorem Consistent.withSession (h : Consistent o w) (callback : ℕ) (queued : Bool) :
    Consistent o (withSession w callback queued) := by
  have hids := sessionIds_withSession w callback queued
  have hnew : w.next ∉ w.sessionIds := fun hs => absurd (h.fresh _ hs) (Nat.lt_irrefl _)
  refine ⟨?_, fun s hs => ?_, ?_, fun s hs => ?_, h.numbers, fun n hn => ?_, h.requests,
    fun s hs => ?_, h.once, fun s hs => ?_, fun s hs hin => ?_⟩
  · rw [hids]
    exact List.nodup_append.2 ⟨h.sessions, List.nodup_singleton _, fun a ha b hb heq => by
      rw [List.mem_singleton] at hb
      exact hnew (hb ▸ heq ▸ ha)⟩
  · change s < w.next + 1
    rw [hids, List.mem_append, List.mem_singleton] at hs
    rcases hs with hs | rfl
    · have := h.fresh s hs
      omega
    · omega
  · cases queued with
    | false => exact h.queue
    | true =>
        refine List.nodup_append.2 ⟨h.queue, List.nodup_singleton _, fun a ha b hb heq => ?_⟩
        rw [List.mem_singleton] at hb
        exact hnew (hb ▸ heq ▸ (h.queued a ha).1)
  · rw [hids]
    rcases mem_localEvents_withSession.1 hs with hs | ⟨-, rfl⟩
    · obtain ⟨hin, hout⟩ := h.queued s hs
      exact ⟨List.mem_append_left _ hin, hout⟩
    · exact ⟨List.mem_append_right _ (List.mem_singleton_self _),
        fun hx => hnew (h.requested _ hx)⟩
  · have := h.freshNumbers n hn
    exact Nat.lt_succ_of_lt this
  · rw [hids]
    exact List.mem_append_left _ (h.requested s hs)
  · exact Nat.lt_succ_of_lt (h.calledBefore s hs)
  · rw [hids, List.mem_append, List.mem_singleton] at hin
    rcases hin with hin | rfl
    · exact h.called s hs hin
    · exact absurd (h.calledBefore _ hs) (Nat.lt_irrefl _)

theorem waiting_withSession (h : Consistent o w) (callback : ℕ) (queued : Bool) :
    Waiting (withSession w callback queued) ↔ Waiting w ∧ queued = true := by
  have hnew : w.next ∉ w.sessionIds := fun hs => absurd (h.fresh _ hs) (Nat.lt_irrefl _)
  rw [waiting_iff (h.withSession callback queued).numbers, waiting_iff h.numbers,
    sessionIds_withSession]
  simp only [mem_localEvents_withSession]
  constructor
  · intro hwait
    constructor
    · intro s hs
      rcases hwait s (List.mem_append_left _ hs) with (hs' | ⟨-, rfl⟩) | hs'
      · exact .inl hs'
      · exact absurd hs hnew
      · exact .inr hs'
    · rcases hwait w.next (List.mem_append_right _ (List.mem_singleton_self _)) with
        (hs | ⟨hqueued, -⟩) | hs
      · exact absurd (h.queued _ hs).1 hnew
      · exact hqueued
      · exact absurd (h.requested _ hs) hnew
  · rintro ⟨hwait, hqueued⟩ s hs
    rcases List.mem_append.1 hs with hs | hs
    · exact (hwait s hs).imp .inl id
    · exact .inl (.inr ⟨hqueued, List.mem_singleton.1 hs⟩)

theorem retrieve_spec {r : Retrieve B} (h : Consistent o w) (hr : retrieve w r = .ok w') :
    Consistent o w' ∧ Grows w w' ∧ (Waiting w' ↔ Waiting w ∧ ¬ r.Strands) := by
  rcases retrieve_eq_ok hr with ⟨b, hb, rfl⟩ | ⟨hnone, hout⟩
  · refine ⟨{ h with }, ⟨⟨[], (List.append_nil _).symm, nofun⟩, rfl, rfl, le_refl _⟩, ?_⟩
    have hstrands : ¬ r.Strands := fun hs => by
      rw [hs.1] at hb
      cases hb
    rw [and_iff_left hstrands]
    exact Iff.rfl
  · obtain rfl : w' = withSession w r.callback r.queued := hout
    refine ⟨h.withSession _ _, ⟨⟨[w.next], sessionIds_withSession _ _ _, ?_⟩, rfl, rfl,
      Nat.le_succ _⟩, ?_⟩
    · intro s hs
      rw [List.mem_singleton.1 hs]
    · rw [waiting_withSession h, Retrieve.Strands, hnone]
      simp

theorem retrieves_spec {rs : List (Retrieve B)} (h : Consistent o w)
    (hrs : rs.foldlM retrieve w = .ok w') :
    Consistent o w' ∧ Grows w w' ∧ (Waiting w' ↔ Waiting w ∧ ∀ r ∈ rs, ¬ r.Strands) := by
  induction rs generalizing w with
  | nil =>
      obtain rfl := Except.ok.inj hrs
      refine ⟨h, Grows.refl _, ?_⟩
      simp
  | cons r rs ih =>
      rw [List.foldlM_cons, bind_eq_ok] at hrs
      obtain ⟨v, hv, hrs⟩ := hrs
      obtain ⟨hconsistent, hgrows, hwaiting⟩ := retrieve_spec h hv
      obtain ⟨hconsistent', hgrows', hwaiting'⟩ := ih hconsistent hrs
      refine ⟨hconsistent', hgrows.trans hgrows', ?_⟩
      rw [hwaiting', hwaiting, List.forall_mem_cons, and_assoc]

/-! ## Ends -/

/-- The state after the transaction is removed and the session freed. -/
def withoutSession (w : Context B) (n s : ℕ) : Context B :=
  { w with
    xacts := w.xacts.filter fun x => x.1 ≠ n
    activeSessions := w.activeSessions.filter fun x => x.id ≠ s }

theorem mem_sessionIds_withoutSession {n s t : ℕ} :
    t ∈ (withoutSession w n s).sessionIds ↔ t ∈ w.sessionIds ∧ t ≠ s := by
  simp only [Context.sessionIds, withoutSession, List.mem_map, List.mem_filter, decide_not,
    Bool.not_eq_true', decide_eq_false_iff_not]
  constructor
  · rintro ⟨sess, ⟨hsess, hne⟩, rfl⟩
    exact ⟨⟨sess, hsess, rfl⟩, hne⟩
  · rintro ⟨⟨sess, hsess, rfl⟩, hne⟩
    exact ⟨sess, ⟨hsess, hne⟩, rfl⟩

/-- Of the requests only that of the session goes. -/
theorem mem_requests_withoutSession (h : Consistent o w) {n s t : ℕ} (hx : (n, s) ∈ w.xacts) :
    t ∈ (withoutSession w n s).xacts.map Prod.snd ↔ t ∈ w.xacts.map Prod.snd ∧ t ≠ s := by
  simp only [withoutSession, List.mem_map, List.mem_filter, decide_not, Bool.not_eq_true',
    decide_eq_false_iff_not]
  constructor
  · rintro ⟨x, ⟨hmem, hne⟩, rfl⟩
    refine ⟨⟨x, hmem, rfl⟩, fun heq => hne ?_⟩
    rw [List.inj_on_of_nodup_map h.requests hmem hx heq]
  · rintro ⟨⟨x, hmem, rfl⟩, hne⟩
    refine ⟨x, ⟨hmem, fun heq => hne ?_⟩, rfl⟩
    rw [List.inj_on_of_nodup_map h.numbers hmem hx heq]

theorem Consistent.withoutSession {n s : ℕ} (h : Consistent (some s) w) (hx : (n, s) ∈ w.xacts) :
    Consistent none (withoutSession w n s) := by
  have hsub : (BsfSessions.withoutSession w n s).xacts.Sublist w.xacts := List.filter_sublist
  have hrequest : s ∈ w.xacts.map Prod.snd := List.mem_map.2 ⟨(n, s), hx, rfl⟩
  refine ⟨?_, fun t ht => ?_, h.queue, fun t ht => ?_, ?_, fun m hm => ?_, ?_, fun t ht => ?_,
    h.once, h.calledBefore, fun t ht hin => ?_⟩
  · exact h.sessions.sublist (List.Sublist.map _ List.filter_sublist)
  · exact h.fresh t (mem_sessionIds_withoutSession.1 ht).1
  · obtain ⟨hin, hout⟩ := h.queued t ht
    refine ⟨mem_sessionIds_withoutSession.2 ⟨hin, fun heq => hout (heq ▸ hrequest)⟩, fun hr => ?_⟩
    exact hout ((mem_requests_withoutSession h hx).1 hr).1
  · exact h.numbers.sublist (hsub.map _)
  · exact h.freshNumbers m ((hsub.map Prod.fst).subset hm)
  · exact h.requests.sublist (hsub.map _)
  · obtain ⟨hr, hne⟩ := (mem_requests_withoutSession h hx).1 ht
    exact mem_sessionIds_withoutSession.2 ⟨h.requested t hr, hne⟩
  · obtain ⟨hin, hne⟩ := mem_sessionIds_withoutSession.1 hin
    exact absurd (Option.some.inj (h.called t ht hin)).symm hne

theorem waiting_withoutSession {n s : ℕ} (h : Consistent (some s) w) (hx : (n, s) ∈ w.xacts) :
    Waiting (withoutSession w n s) ↔ Waiting w := by
  rw [waiting_iff (h.withoutSession hx).numbers, waiting_iff h.numbers]
  have hrequest : s ∈ w.xacts.map Prod.snd := List.mem_map.2 ⟨(n, s), hx, rfl⟩
  constructor
  · intro hwait t ht
    by_cases heq : t = s
    · exact .inr (heq ▸ hrequest)
    · exact (hwait t (mem_sessionIds_withoutSession.2 ⟨ht, heq⟩)).imp id fun hr =>
        ((mem_requests_withoutSession h hx).1 hr).1
  · intro hwait t ht
    obtain ⟨hin, hne⟩ := mem_sessionIds_withoutSession.1 ht
    exact (hwait t hin).imp id fun hr => (mem_requests_withoutSession h hx).2 ⟨hr, hne⟩

theorem complete_spec {n s : ℕ} {sess : BsfClientSess} {binding : Option B}
    {during : List (Retrieve B)} (h : Consistent none w) (hx : w.findXact n = some s)
    (hs : w.findSession s = some sess) (hc : complete w n sess binding during = .ok w') :
    Consistent none w' ∧ StepTells w w' ∧
      (Waiting w' ↔ Waiting w ∧ ∀ r ∈ during, ¬ r.Strands) := by
  obtain ⟨rfl, hactive⟩ := findSession_eq_some hs
  have hmem : (n, sess.id) ∈ w.xacts := (findXact_eq_some h.numbers).1 hx
  have hnew : sess.id ∉ calledIds w.log := fun hin => by
    have := h.called _ hin hactive
    cases this
  simp only [complete, bind_eq_ok, Except.ok.injEq] at hc
  obtain ⟨v, hv, rfl⟩ := hc
  have hcalling : Consistent (some sess.id)
      { w with log := .retrieveCallback sess.id sess.callback binding :: w.log } := by
    refine { h with once := ?_, calledBefore := fun t ht => ?_, called := fun t ht hin => ?_ }
    · exact List.nodup_cons.2 ⟨hnew, h.once⟩
    · rcases List.mem_cons.1 ht with rfl | ht
      · exact h.fresh _ hactive
      · exact h.calledBefore t ht
    · rcases List.mem_cons.1 ht with rfl | ht
      · rfl
      · have := h.called t ht hin
        cases this
  obtain ⟨hv', hgrows, hwaiting⟩ := retrieves_spec hcalling hv
  obtain ⟨new, hids, hge⟩ := hgrows.sessions
  have hxv : (n, sess.id) ∈ v.xacts := by
    rw [hgrows.xacts]
    exact hmem
  have hcalled : calledIds v.log = sess.id :: calledIds w.log := hgrows.called
  have hleft : ∀ t ∈ w.sessionIds, t ∉ (withoutSession v n sess.id).sessionIds ↔ t = sess.id := by
    intro t ht
    have hin : t ∈ v.sessionIds := by
      rw [hids]
      exact List.mem_append_left _ ht
    rw [mem_sessionIds_withoutSession, not_and_or, not_not, or_iff_right (not_not.2 hin)]
  refine ⟨hv'.withoutSession hxv, ⟨fun t ht hout => ?_, fun t ht hout => ?_⟩, ?_⟩
  · obtain rfl := (hleft t ht).1 hout
    refine ⟨hnew, ?_⟩
    change _ ∈ calledIds v.log
    rw [hcalled]
    exact List.mem_cons_self
  · change t ∈ calledIds v.log at ht
    rw [hcalled] at ht
    rcases List.mem_cons.1 ht with rfl | ht
    · exact ⟨hactive, (hleft _ hactive).2 rfl⟩
    · exact absurd ht hout
  · exact (waiting_withoutSession hv' hxv).trans hwaiting

/-- A transaction that is waited for too long ends the session that it is for. -/
theorem clientWait_ends {n s : ℕ} (h : Consistent none w) (hx : w.findXact n = some s)
    (hs : s ∈ w.sessionIds) : ∃ w', step w (.clientWait n []) = .ok w' ∧ s ∉ w'.sessionIds ∧
      s ∈ calledIds w'.log := by
  obtain ⟨sess, hsess⟩ := findSession_of_mem hs
  obtain ⟨rfl, -⟩ := findSession_eq_some hsess
  have hstep : step w (.clientWait n []) = complete w n sess none [] := by
    simp only [step, Event.ends, hx, hsess, bind, Option.bind, pure, Event.during,
      Event.copiesNothing, Bool.false_eq_true, if_false]
  obtain ⟨w', hc⟩ : ∃ w', complete w n sess none [] = .ok w' := ⟨_, rfl⟩
  obtain ⟨-, htells, -⟩ := complete_spec h hx hsess hc
  have hout : sess.id ∉ w'.sessionIds := by
    obtain rfl := Except.ok.inj hc
    exact fun hin => (mem_sessionIds_withoutSession.1 hin).2 rfl
  exact ⟨w', hstep.trans hc, hout, (htells.called _ hs hout).2⟩

/-! ## Local events -/

theorem mem_erase_queue (h : Consistent o w) {s t : ℕ} :
    t ∈ w.localEvents.erase s ↔ t ≠ s ∧ t ∈ w.localEvents := h.queue.mem_erase_iff

theorem localEvent_spec {s : ℕ} (discovery : Discovery) (h : Consistent none w)
    (hs : s ∈ w.localEvents) :
    Consistent none (bsfClientLocalProcessEvent w s discovery) ∧
      StepTells w (bsfClientLocalProcessEvent w s discovery) ∧
      (Waiting w → (Waiting (bsfClientLocalProcessEvent w s discovery) ↔ discovery = .sent)) := by
  obtain ⟨hactive, hnone⟩ := h.queued s hs
  obtain ⟨sess, hsess⟩ := findSession_of_mem hactive
  have htells : ∀ {v : Context B}, v.sessionIds = w.sessionIds → v.log = w.log → StepTells w v := by
    intro v hids hlog
    refine ⟨fun t ht hout => ?_, fun t ht hout => ?_⟩
    · rw [hids] at hout
      exact absurd ht hout
    · rw [hlog] at ht
      exact absurd ht hout
  have herased : Consistent none { w with localEvents := w.localEvents.erase s } :=
    { h with
      queue := h.queue.erase s
      queued := fun t ht => h.queued t (List.mem_of_mem_erase ht) }
  have hfind : ({ w with localEvents := w.localEvents.erase s } : Context B).findSession s =
      some sess := hsess
  by_cases hd : discovery = .sent
  · subst hd
    have hnumber : w.next ∉ w.xacts.map Prod.fst := fun hn =>
      absurd (h.freshNumbers _ hn) (Nat.lt_irrefl _)
    have hout : bsfClientLocalProcessEvent w s .sent = { w with
        localEvents := w.localEvents.erase s
        xacts := w.xacts ++ [(w.next, s)]
        next := w.next + 1 } := by
      simp only [bsfClientLocalProcessEvent, hfind]
    rw [hout]
    have hconsistent : Consistent none { w with
        localEvents := w.localEvents.erase s
        xacts := w.xacts ++ [(w.next, s)]
        next := w.next + 1 } := by
      refine ⟨h.sessions, fun t ht => Nat.lt_succ_of_lt (h.fresh t ht), herased.queue,
        fun t ht => ?_, ?_, fun m hm => ?_, ?_, fun t ht => ?_, h.once,
        fun t ht => Nat.lt_succ_of_lt (h.calledBefore t ht), h.called⟩
      · obtain ⟨hne, hin⟩ := (mem_erase_queue h).1 ht
        obtain ⟨hactive', hnone'⟩ := h.queued t hin
        refine ⟨hactive', fun hr => ?_⟩
        rw [List.map_append, List.mem_append] at hr
        rcases hr with hr | hr
        · exact hnone' hr
        · exact hne (List.mem_singleton.1 hr)
      · rw [List.map_append]
        exact List.nodup_append.2 ⟨h.numbers, List.nodup_singleton _, fun a ha b hb heq => by
          rw [List.mem_singleton.1 hb] at heq
          subst heq
          exact hnumber ha⟩
      · rw [List.map_append, List.mem_append] at hm
        rcases hm with hm | hm
        · exact Nat.lt_succ_of_lt (h.freshNumbers m hm)
        · rw [List.mem_singleton.1 hm]
          exact Nat.lt_succ_self _
      · rw [List.map_append]
        exact List.nodup_append.2 ⟨h.requests, List.nodup_singleton _, fun a ha b hb heq => by
          rw [List.mem_singleton.1 hb] at heq
          subst heq
          exact hnone ha⟩
      · rw [List.map_append, List.mem_append] at ht
        rcases ht with ht | ht
        · exact h.requested t ht
        · rw [List.mem_singleton.1 ht]
          exact hactive
    refine ⟨hconsistent, htells rfl rfl, fun hwait => iff_of_true ?_ rfl⟩
    rw [waiting_iff hconsistent.numbers]
    intro t ht
    change t ∈ w.localEvents.erase s ∨ t ∈ (w.xacts ++ [(w.next, s)]).map Prod.snd
    rw [mem_erase_queue h, List.map_append, List.mem_append]
    by_cases heq : t = s
    · exact .inr (.inr (List.mem_singleton.2 heq))
    · rcases (waiting_iff h.numbers).1 hwait t ht with hin | hin
      · exact .inl ⟨heq, hin⟩
      · exact .inr (.inl hin)
  · have hout : bsfClientLocalProcessEvent w s discovery =
        { w with localEvents := w.localEvents.erase s } := by
      cases discovery with
      | sent => exact absurd rfl hd
      | noTransaction => simp only [bsfClientLocalProcessEvent, hfind]
      | notSent => simp only [bsfClientLocalProcessEvent, hfind]
    rw [hout]
    refine ⟨herased, htells rfl rfl, fun _ => iff_of_false (fun hwait => ?_) hd⟩
    rcases (waiting_iff herased.numbers).1 hwait s hactive with hin | hin
    · exact ((mem_erase_queue h).1 hin).1 rfl
    · exact hnone hin

/-! ## Steps and runs -/

theorem stepTells_of_grows (h : Grows w w') : StepTells w w' := by
  obtain ⟨new, hids, -⟩ := h.sessions
  refine ⟨fun t ht hout => ?_, fun t ht hout => ?_⟩
  · rw [hids] at hout
    exact absurd (List.mem_append_left _ ht) hout
  · rw [h.called] at ht
    exact absurd ht hout

theorem Event.ends_spec {e : Event B} {n : ℕ} {sess : BsfClientSess} {binding : Option B}
    (h : e.ends w = some (n, sess, binding)) :
    ∃ s, w.findXact n = some s ∧ w.findSession s = some sess := by
  cases e with
  | retrieve r => cases h
  | localEvent s discovery => cases h
  | response m rsp during =>
      simp only [Event.ends, bind, Option.bind_eq_some_iff, pure, Option.some.injEq,
        Prod.mk.injEq] at h
      obtain ⟨s, hs, sess', hsess, b, -, rfl, rfl, -⟩ := h
      exact ⟨s, hs, hsess⟩
  | clientWait m during =>
      simp only [Event.ends, bind, Option.bind_eq_some_iff, pure, Option.some.injEq,
        Prod.mk.injEq] at h
      obtain ⟨s, hs, sess', hsess, rfl, rfl, -⟩ := h
      exact ⟨s, hs, hsess⟩

/-- An event about a transaction, which may end a session. -/
theorem ends_step {e : Event B} (h : Consistent none w) (hwait : Waiting w)
    (hstep : (match e.ends w with
      | none => (Except.ok w : Except Fault (Context B))
      | some (n, sess, binding) =>
          if e.copiesNothing then .error .assertion else complete w n sess binding e.during) =
        .ok w') :
    Consistent none w' ∧ StepTells w w' ∧ (Waiting w' ↔
      ¬ ∃ r ∈ if (e.ends w).isSome then e.during else [], r.Strands) := by
  cases hends : e.ends w with
  | none =>
      rw [hends] at hstep
      obtain rfl := Except.ok.inj hstep
      exact ⟨h, stepTells_of_grows (Grows.refl w), iff_of_true hwait (by simp)⟩
  | some end' =>
      obtain ⟨n, sess, binding⟩ := end'
      rw [hends] at hstep
      have hcopies : e.copiesNothing = false := by
        by_contra hcopies
        rw [Bool.not_eq_false] at hcopies
        simp only [hcopies, if_true] at hstep
        cases hstep
      simp only [hcopies, Bool.false_eq_true, if_false] at hstep
      obtain ⟨s, hx, hs⟩ := Event.ends_spec hends
      obtain ⟨hconsistent, htells, hwaiting⟩ := complete_spec h hx hs hstep
      refine ⟨hconsistent, htells, hwaiting.trans ?_⟩
      rw [Option.isSome_some, if_pos rfl, and_iff_right hwait, not_exists]
      exact forall_congr' fun r => not_and.symm

/-- What one step does: the sessions that leave are told, and all are waiting afterwards exactly
when nothing failed. -/
theorem step_spec {e : Event B} (h : Consistent none w) (hwait : Waiting w)
    (hstep : step w e = .ok w') :
    Consistent none w' ∧ StepTells w w' ∧ (Waiting w' ↔ ¬ Fails w e) := by
  have hother : ∀ {P : Prop}, (∀ s discovery, e ≠ .localEvent s discovery) →
      (P ↔ ¬ ∃ r ∈ e.executed w, r.Strands) → (P ↔ ¬ Fails w e) := by
    intro P hne hP
    rw [hP, Fails, not_or]
    refine (and_iff_left ?_).symm
    rintro ⟨s, discovery, heq, -⟩
    exact hne s discovery heq
  cases e with
  | retrieve r =>
      obtain ⟨hconsistent, hgrows, hwaiting⟩ := retrieve_spec h hstep
      refine ⟨hconsistent, stepTells_of_grows hgrows, hother nofun (hwaiting.trans ?_)⟩
      simp [Event.executed, hwait]
  | localEvent s discovery =>
      have hexecuted : (Event.localEvent s discovery).executed w = [] := rfl
      rw [step, Except.ok.injEq] at hstep
      subst hstep
      by_cases hs : s ∈ w.localEvents
      · rw [if_pos hs]
        obtain ⟨hconsistent, htells, hwaiting⟩ := localEvent_spec discovery h hs
        refine ⟨hconsistent, htells, (hwaiting hwait).trans ?_⟩
        simp [Fails, hexecuted, hs]
      · rw [if_neg hs]
        refine ⟨h, stepTells_of_grows (Grows.refl w), iff_of_true hwait ?_⟩
        simp [Fails, hexecuted, hs]
  | response n rsp during =>
      obtain ⟨hconsistent, htells, hwaiting⟩ := ends_step h hwait hstep
      exact ⟨hconsistent, htells, hother nofun hwaiting⟩
  | clientWait n during =>
      obtain ⟨hconsistent, htells, hwaiting⟩ := ends_step h hwait hstep
      exact ⟨hconsistent, htells, hother nofun hwaiting⟩

theorem consistent_init : Consistent none ({} : Context B) :=
  ⟨List.nodup_nil, nofun, List.nodup_nil, nofun, List.nodup_nil, nofun, List.nodup_nil, nofun,
    List.nodup_nil, nofun, nofun⟩

theorem completes_of_consistent {es : List (Event B)} (h : Consistent none w)
    (hwait : Waiting w) : Completes w es ↔ NeverFails w es := by
  induction es generalizing w with
  | nil => exact iff_of_true ⟨h.once, hwait⟩ trivial
  | cons e es ih =>
      rw [Completes, and_iff_right ⟨h.once, hwait⟩, NeverFails]
      refine forall_congr' fun w' => forall_congr' fun hstep => ?_
      obtain ⟨hconsistent, htells, hwaiting⟩ := step_spec h hwait hstep
      rw [and_iff_right htells, ← hwaiting]
      constructor
      · intro hcompletes
        have hwait' : Waiting w' := by
          cases es with
          | nil => exact hcompletes.2
          | cons e es => exact hcompletes.1.2
        exact ⟨hwait', (ih hconsistent hwait').1 hcompletes⟩
      · rintro ⟨hwait', hnever⟩
        exact (ih hconsistent hwait').2 hnever

/-- From the start every retrieve is completed exactly when the queue takes every event and
every request is sent. -/
theorem retrieves_complete_iff (es : List (Event B)) :
    Completes ({} : Context B) es ↔ NeverFails ({} : Context B) es :=
  completes_of_consistent consistent_init nofun

/-- The queue does not take the event of the first retrieve. -/
theorem unqueued_session_is_stranded :
    ¬ Completes ({} : Context String) [.retrieve { family := .inet, callback := 1, queued := false }] := by
  rintro ⟨-, h⟩
  obtain ⟨-, -, hwait⟩ := h _ rfl
  rcases hwait 0 (List.mem_singleton_self 0) with hin | ⟨n, hn⟩
  · cases hin
  · cases hn

end Model

end ServiceConsumers.BsfSessions
