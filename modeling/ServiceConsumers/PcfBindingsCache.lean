import ServiceConsumers.ObjectStore
import ServiceConsumers.PublicSessions
import ServiceConsumers.TransitionRuns

set_option autoImplicit false

/-!
# The cache of PCF bindings (`pcf-bindings-cache.c`, and where `nbsf-process.c` and
`bsf-client-sess.c` use it)

The hash table keeps the pointer to the key that it was given. The key of an entry is the
address object of the session that was answered, and it is freed with the session.
-/

namespace ServiceConsumers.PcfBindingsCache

open ObjectStore PublicSessions TransitionRuns

/-! ## Addresses -/

/-- Which UE address it is. -/
structure Endpoint where
  family : AddressFamily
  address : ℕ
  port : ℕ
  deriving DecidableEq, Repr, Inhabited

/-- `ogs_sockaddr_t`: beside the endpoint, the bytes of its storage that the endpoint leaves
open, and two pointers. -/
structure SockAddr where
  endpoint : Endpoint
  storage : ℕ := 0
  hostname : Option ℕ := none
  next : Option ℕ := none
  deriving DecidableEq, Repr, Inhabited

inductive Fault where
  | useAfterFree
  deriving DecidableEq, Repr

/-! ## The table -/

section Cache

variable {B : Type}

/-- `pcf_bindings_cache_t` with what `ogs_hash` keeps beside it: the pointer to the key and the
hash that its bytes had. -/
structure Entry (B : Type) where
  key : ℕ
  hash : ℕ
  pcfBinding : B
  expires : ℤ

/-- `bsf_client_sess_t`, as far as the cache is concerned. -/
structure BsfClientSess where
  ueAddress : ℕ
  deriving DecidableEq, Repr

structure State (B : Type) where
  addresses : Store SockAddr := Store.empty
  sessions : Store BsfClientSess := Store.empty
  cache : List (Entry B) := []
  next : ℕ := 0

/-- `ogs_hash_get`: among the entries with the hash, the first whose key has the same bytes. -/
def hashGet (hash : SockAddr → ℕ) (addresses : Store SockAddr) (key : SockAddr) :
    List (Entry B) → Except Fault (Option (Entry B))
  | [] => .ok none
  | e :: es =>
      if e.hash = hash key then
        match addresses e.key with
        | none => .error .useAfterFree
        | some bytes => if bytes = key then .ok (some e) else hashGet hash addresses key es
      else hashGet hash addresses key es

/-- Writes an entry of the table in place, or takes it out. -/
def hashUpdate (entry : Entry B) (new : Option (Entry B)) (es : List (Entry B)) : List (Entry B) :=
  es.filterMap fun e => if e.key = entry.key then new else some e

/-- `_pcf_bindings_cache_find` at a time. -/
def pcfBindingsCacheFind (hash : SockAddr → ℕ) (st : State B) (ueAddress : SockAddr) (now : ℤ) :
    Except Fault (State B × Option B) := do
  let value ← hashGet hash st.addresses ueAddress st.cache
  match value with
  | none => .ok (st, none)
  | some e =>
      if e.expires < now then .ok ({ st with cache := hashUpdate e none st.cache }, none)
      else .ok (st, some e.pcfBinding)

def addressAt (st : State B) (r : ℕ) : Except Fault SockAddr :=
  match st.addresses r with
  | none => .error .useAfterFree
  | some a => .ok a

/-- `_pcf_bindings_cache_add`: an entry that is found keeps its key. -/
def pcfBindingsCacheAdd (hash : SockAddr → ℕ) (st : State B) (ueAddress : ℕ) (bindings : B)
    (expires : ℤ) : Except Fault (State B) := do
  let key ← addressAt st ueAddress
  let value ← hashGet hash st.addresses key st.cache
  match value with
  | some e =>
      .ok { st with
        cache := hashUpdate e (some { e with pcfBinding := bindings, expires := expires }) st.cache }
  | none =>
      .ok { st with
        cache := st.cache ++
          [{ key := ueAddress, hash := hash key, pcfBinding := bindings, expires := expires }] }

/-- `_pcf_bindings_cache_log_debug` formats every key, also when nothing is logged. -/
def pcfBindingsCacheLogDebug (st : State B) : Except Fault Unit := do
  let _ ← st.cache.mapM fun e => addressAt st e.key
  .ok ()

/-! ## Sessions -/

/-- `ogs_copyaddrinfo`: what the address points to is copied as well. -/
def ogsCopyaddrinfo (src : SockAddr) (hostname next : ℕ) : SockAddr :=
  { src with hostname := src.hostname.map fun _ => hostname, next := src.next.map fun _ => next }

/-- `_bsf_client_sess_new` with `_bsf_client_sess_ue_address_set`: the session has a copy of the
address of its own. -/
def bsfClientSessNew (st : State B) (ueAddress : SockAddr) : State B :=
  { st with
    addresses := st.addresses.set st.next (ogsCopyaddrinfo ueAddress (st.next + 2) (st.next + 3))
    sessions := st.sessions.set (st.next + 1) { ueAddress := st.next }
    next := st.next + 4 }

def bsfClientSessFree (st : State B) (s : ℕ) (sess : BsfClientSess) : State B :=
  { st with addresses := st.addresses.free sess.ueAddress, sessions := st.sessions.free s }

inductive Event (B : Type) where
  | sessionNew (ueAddress : SockAddr)
  | answer (s : ℕ) (binding : B) (expires : ℤ)
  | release (s : ℕ)
  | lookup (ueAddress : SockAddr) (now : ℤ)

/-- One event, with what a lookup finds. An answer is the `200` branch of `_bsf_process_event`:
the context is logged, the binding is cached and the session is released. -/
def step (hash : SockAddr → ℕ) (st : State B) : Event B → Except Fault (State B × List (Option B))
  | .sessionNew ueAddress => .ok (bsfClientSessNew st ueAddress, [])
  | .answer s binding expires =>
      match st.sessions s with
      | none => .ok (st, [])
      | some sess => do
          pcfBindingsCacheLogDebug st
          let st ← pcfBindingsCacheAdd hash st sess.ueAddress binding expires
          .ok (bsfClientSessFree st s sess, [])
  | .release s =>
      match st.sessions s with
      | none => .ok (st, [])
      | some sess => .ok (bsfClientSessFree st s sess, [])
  | .lookup ueAddress now => do
      let (st, found) ← pcfBindingsCacheFind hash st ueAddress now
      .ok (st, [found])

/-- What the lookups of a run find, in order. -/
def run (hash : SockAddr → ℕ) : State B → List (Event B) → Except Fault (List (Option B))
  | _, [] => .ok []
  | st, e :: es => do
      let (st, found) ← step hash st e
      let rest ← run hash st es
      .ok (found ++ rest)

end Cache

/-! ## What is to hold -/

section Law

variable {B : Type}

/-- The bindings that were added last, by endpoint, and the endpoints of the sessions. -/
structure Law (B : Type) where
  latest : Endpoint → Option (B × ℤ) := fun _ => none
  sessions : Store Endpoint := Store.empty
  next : ℕ := 0

/-- The binding of an endpoint at a time. -/
def Law.binding (law : Law B) (p : Endpoint) (now : ℤ) : Option B :=
  match law.latest p with
  | none => none
  | some (b, expires) => if expires < now then none else some b

def Law.step (law : Law B) : Event B → Law B × List (Option B)
  | .sessionNew ueAddress =>
      ({ law with
          sessions := law.sessions.set (law.next + 1) ueAddress.endpoint
          next := law.next + 4 }, [])
  | .answer s binding expires =>
      match law.sessions s with
      | none => (law, [])
      | some p =>
          ({ law with
              latest := Function.update law.latest p (some (binding, expires))
              sessions := law.sessions.free s }, [])
  | .release s => ({ law with sessions := law.sessions.free s }, [])
  | .lookup ueAddress now => (law, [law.binding ueAddress.endpoint now])

def Law.run : Law B → List (Event B) → List (Option B)
  | _, [] => []
  | law, e :: es => (law.step e).2 ++ Law.run (law.step e).1 es

end Law

/-! ## The condition -/

section Condition

variable {B : Type} {hash : SockAddr → ℕ} {st st' : State B} {law : Law B} {key : SockAddr}

/-- A step that does not come upon the key of a cached entry, and does not need one: an answer
finds the cache empty, a lookup finds no entry with its hash and no binding is due to it. -/
def PassesBy (hash : SockAddr → ℕ) (st : State B) (law : Law B) : Event B → Prop
  | .answer s _ _ => (st.sessions s).isSome → st.cache = []
  | .lookup ueAddress now => (∀ e ∈ st.cache, e.hash ≠ hash ueAddress) ∧
      law.binding ueAddress.endpoint now = none
  | _ => True

/-- Every step of the run, in the state that it finds. -/
def AllPassBy (hash : SockAddr → ℕ) : State B → Law B → List (Event B) → Prop
  | _, _, [] => True
  | st, law, e :: es => PassesBy hash st law e ∧
      ∀ st' found, step hash st e = .ok (st', found) → AllPassBy hash st' (law.step e).1 es

/-- The keys of the entries are freed; the sessions have their addresses, as the law says. -/
structure Dangling (st : State B) (law : Law B) : Prop where
  keys : ∀ e ∈ st.cache, st.addresses e.key = none ∧ e.key < st.next
  sessions : ∀ (s : ℕ) sess, st.sessions s = some sess →
    s = sess.ueAddress + 1 ∧ s < st.next ∧ ∃ a, st.addresses sess.ueAddress = some a ∧
      law.sessions s = some a.endpoint
  noSession : ∀ s : ℕ, st.sessions s = none → law.sessions s = none
  next : law.next = st.next

variable (hash key) in
theorem hashGet_of_dangling {addresses : Store SockAddr} {es : List (Entry B)}
    (hdead : ∀ e ∈ es, addresses e.key = none) :
    hashGet hash addresses key es = .ok none ∧ (∀ e ∈ es, e.hash ≠ hash key) ∨
      hashGet hash addresses key es = .error .useAfterFree ∧ ∃ e ∈ es, e.hash = hash key := by
  induction es with
  | nil => exact .inl ⟨rfl, nofun⟩
  | cons e es ih =>
      rw [List.forall_mem_cons] at hdead
      by_cases he : e.hash = hash key
      · refine .inr ⟨?_, e, List.mem_cons_self, he⟩
        rw [hashGet, if_pos he, hdead.1]
      · rw [hashGet, if_neg he]
        rcases ih hdead.2 with ⟨hget, hnone⟩ | ⟨hget, e', he', hhash⟩
        · exact .inl ⟨hget, List.forall_mem_cons.2 ⟨he, hnone⟩⟩
        · exact .inr ⟨hget, e', List.mem_cons_of_mem e he', hhash⟩

variable (hash key) in
theorem pcfBindingsCacheFind_of_dangling (h : Dangling st law) (now : ℤ) :
    pcfBindingsCacheFind hash st key now = .ok (st, none) ∧ (∀ e ∈ st.cache, e.hash ≠ hash key) ∨
      pcfBindingsCacheFind hash st key now = .error .useAfterFree ∧
        ∃ e ∈ st.cache, e.hash = hash key := by
  rcases hashGet_of_dangling hash key fun e he => (h.keys e he).1 with
    ⟨hget, hnone⟩ | ⟨hget, hsome⟩
  · refine .inl ⟨?_, hnone⟩
    rw [pcfBindingsCacheFind, hget]
    rfl
  · refine .inr ⟨?_, hsome⟩
    rw [pcfBindingsCacheFind, hget]
    rfl

theorem pcfBindingsCacheLogDebug_of_dangling (h : Dangling st law) :
    pcfBindingsCacheLogDebug st = .ok () ↔ st.cache = [] := by
  constructor
  · intro hlog
    cases hcache : st.cache with
    | nil => rfl
    | cons e es =>
        have hdead : addressAt st e.key = .error .useAfterFree := by
          rw [addressAt, (h.keys e (by rw [hcache]; exact List.mem_cons_self)).1]
        rw [pcfBindingsCacheLogDebug, hcache, List.mapM_cons, hdead] at hlog
        cases hlog
  · intro hcache
    rw [pcfBindingsCacheLogDebug, hcache]
    rfl

/-! ## Steps -/

theorem Dangling.sessionNew (h : Dangling st law) (ueAddress : SockAddr) :
    Dangling (bsfClientSessNew st ueAddress) (law.step (.sessionNew ueAddress)).1 := by
  refine ⟨fun e he => ?_, fun s sess hs => ?_, fun s hs => ?_, ?_⟩
  · obtain ⟨hdead, hlt⟩ := h.keys e he
    refine ⟨?_, Nat.lt_add_right 4 hlt⟩
    change st.addresses.set st.next _ e.key = none
    rw [Store.set_of_ne _ _ _ (Nat.ne_of_lt hlt)]
    exact hdead
  · change (st.sessions.set (st.next + 1) _) s = some sess at hs
    change s = _ ∧ s < st.next + 4 ∧ ∃ a, st.addresses.set st.next _ sess.ueAddress = some a ∧
      law.sessions.set (law.next + 1) _ s = some a.endpoint
    by_cases hnew : s = st.next + 1
    · subst hnew
      rw [Store.set_self, Option.some.injEq] at hs
      subst hs
      rw [h.next]
      exact ⟨rfl, by omega, _, Store.set_self _ _ _, Store.set_self _ _ _⟩
    · rw [Store.set_of_ne _ _ _ hnew] at hs
      obtain ⟨hsucc, hlt, a, ha, hlaw⟩ := h.sessions s sess hs
      have hne : sess.ueAddress ≠ st.next := by omega
      refine ⟨hsucc, by omega, a, ?_, ?_⟩
      · rw [Store.set_of_ne _ _ _ hne]
        exact ha
      · rw [h.next, Store.set_of_ne _ _ _ hnew]
        exact hlaw
  · change (st.sessions.set (st.next + 1) _) s = none at hs
    change law.sessions.set (law.next + 1) _ s = none
    by_cases hnew : s = st.next + 1
    · subst hnew
      rw [Store.set_self] at hs
      cases hs
    · rw [Store.set_of_ne _ _ _ hnew] at hs
      rw [h.next, Store.set_of_ne _ _ _ hnew]
      exact h.noSession s hs
  · change law.next + 4 = st.next + 4
    rw [h.next]

/-- A session goes with its address; the others keep theirs. -/
theorem Dangling.free {s : ℕ} {sess : BsfClientSess} (h : Dangling st law)
    (hs : st.sessions s = some sess) (latest : Endpoint → Option (B × ℤ)) (entries : List (Entry B))
    (hentries : ∀ e ∈ entries, e ∈ st.cache ∨ e.key = sess.ueAddress) :
    Dangling (bsfClientSessFree { st with cache := entries } s sess)
      { law with latest := latest, sessions := law.sessions.free s } := by
  obtain ⟨hsucc, hlt, -⟩ := h.sessions s sess hs
  refine ⟨fun e he => ?_, fun q qsess hq => ?_, fun q hq => ?_, h.next⟩
  · change st.addresses.free sess.ueAddress e.key = none ∧ e.key < st.next
    rw [Store.free_apply]
    rcases hentries e he with hold | hkey
    · obtain ⟨hdead, hkey⟩ := h.keys e hold
      rw [hdead, ite_self]
      exact ⟨rfl, hkey⟩
    · rw [if_pos hkey, hkey]
      exact ⟨rfl, by omega⟩
  · change (st.sessions.free s) q = some qsess at hq
    change q = _ ∧ q < st.next ∧ ∃ a, st.addresses.free sess.ueAddress qsess.ueAddress = some a ∧
      law.sessions.free s q = some a.endpoint
    rw [Store.free_apply] at hq
    split at hq
    · cases hq
    · rename_i hne
      obtain ⟨hqsucc, hqlt, a, ha, hlaw⟩ := h.sessions q qsess hq
      have hother : qsess.ueAddress ≠ sess.ueAddress := by
        have hne' : (q : ℕ) ≠ s := hne
        omega
      refine ⟨hqsucc, hqlt, a, ?_, ?_⟩
      · rw [Store.free_of_ne _ _ _ hother]
        exact ha
      · rw [Store.free_of_ne _ _ _ hne]
        exact hlaw
  · change (st.sessions.free s) q = none at hq
    change law.sessions.free s q = none
    rw [Store.free_apply] at hq ⊢
    split
    · rfl
    · rename_i hne
      rw [if_neg hne] at hq
      exact h.noSession q hq

variable (hash) in
/-- An answer to a session is processed exactly when the cache is empty. -/
theorem answer_of_dangling {s : ℕ} {sess : BsfClientSess} (h : Dangling st law)
    (hs : st.sessions s = some sess) (binding : B) (expires : ℤ) :
    (st.cache = [] ∧ ∃ a, st.addresses sess.ueAddress = some a ∧
      step hash st (.answer s binding expires) = .ok (bsfClientSessFree { st with cache :=
        [{ key := sess.ueAddress, hash := hash a, pcfBinding := binding, expires := expires }] }
        s sess, [])) ∨
      st.cache ≠ [] ∧ ∀ out, step hash st (.answer s binding expires) ≠ .ok out := by
  obtain ⟨-, -, a, ha, -⟩ := h.sessions s sess hs
  by_cases hcache : st.cache = []
  · refine .inl ⟨hcache, a, ha, ?_⟩
    have hlog := (pcfBindingsCacheLogDebug_of_dangling h).2 hcache
    have haddress : addressAt st sess.ueAddress = .ok a := by rw [addressAt, ha]
    simp only [step, hs, hlog, pcfBindingsCacheAdd, haddress, hcache, hashGet, bind, Except.bind,
      List.nil_append]
  · refine .inr ⟨hcache, fun out hout => ?_⟩
    simp only [step, hs, bind_eq_ok] at hout
    obtain ⟨⟨⟩, hlog, -⟩ := hout
    exact hcache ((pcfBindingsCacheLogDebug_of_dangling h).1 hlog)

theorem Dangling.step {e : Event B} {found : List (Option B)} (h : Dangling st law)
    (hstep : step hash st e = .ok (st', found)) : Dangling st' (law.step e).1 := by
  cases e with
  | sessionNew ueAddress =>
      obtain ⟨rfl, -⟩ := Prod.mk.inj (Except.ok.inj hstep)
      exact h.sessionNew ueAddress
  | answer s binding expires =>
      cases hs : st.sessions s with
      | none =>
          simp only [PcfBindingsCache.step, hs, Except.ok.injEq, Prod.mk.injEq] at hstep
          obtain ⟨rfl, -⟩ := hstep
          simp only [Law.step, h.noSession s hs]
          exact h
      | some sess =>
          obtain ⟨-, -, a, -, hlaw⟩ := h.sessions s sess hs
          rcases answer_of_dangling hash h hs binding expires with
            ⟨hcache, a', -, hout⟩ | ⟨-, hfault⟩
          · rw [hout, Except.ok.injEq, Prod.mk.injEq] at hstep
            obtain ⟨rfl, -⟩ := hstep
            simp only [Law.step, hlaw]
            refine h.free hs _ _ fun e he => .inr ?_
            rw [List.mem_singleton.1 he]
          · exact absurd hstep (hfault _)
  | release s =>
      cases hs : st.sessions s with
      | none =>
          simp only [PcfBindingsCache.step, hs, Except.ok.injEq, Prod.mk.injEq] at hstep
          obtain ⟨rfl, -⟩ := hstep
          refine ⟨h.keys, fun q sess hq => ?_, fun q hq => ?_, h.next⟩
          · obtain ⟨hsucc, hlt, a, ha, hlaw⟩ := h.sessions q sess hq
            have hne : q ≠ s := by
              rintro rfl
              rw [hs] at hq
              cases hq
            refine ⟨hsucc, hlt, a, ha, ?_⟩
            change law.sessions.free s q = _
            rw [Store.free_of_ne _ _ _ hne]
            exact hlaw
          · change law.sessions.free s q = none
            rw [Store.free_apply, h.noSession q hq, ite_self]
      | some sess =>
          simp only [PcfBindingsCache.step, hs, Except.ok.injEq, Prod.mk.injEq] at hstep
          obtain ⟨rfl, -⟩ := hstep
          exact h.free hs law.latest st.cache fun e he => .inl he
  | lookup ueAddress now =>
      simp only [PcfBindingsCache.step, bind_eq_ok, Prod.exists, Except.ok.injEq,
        Prod.mk.injEq] at hstep
      obtain ⟨st₁, b, hfind, rfl, -⟩ := hstep
      rcases pcfBindingsCacheFind_of_dangling hash ueAddress h now with
        ⟨hout, -⟩ | ⟨hout, -⟩
      · rw [hout, Except.ok.injEq, Prod.mk.injEq] at hfind
        obtain ⟨rfl, -⟩ := hfind
        exact h
      · rw [hout] at hfind
        cases hfind

/-- A step does what the law says exactly when it passes the cached entries by. -/
theorem step_agrees_iff {e : Event B} (h : Dangling st law) :
    (∃ st', step hash st e = .ok (st', (law.step e).2)) ↔ PassesBy hash st law e := by
  cases e with
  | sessionNew ueAddress => exact iff_of_true ⟨_, rfl⟩ trivial
  | release s =>
      refine iff_of_true ?_ trivial
      cases hs : st.sessions s <;> simp [step, hs, Law.step]
  | answer s binding expires =>
      cases hs : st.sessions s with
      | none =>
          refine iff_of_true ⟨st, ?_⟩ ?_
          · simp [step, hs, Law.step, h.noSession s hs]
          · rw [PassesBy, hs]
            exact fun hsome => by cases hsome
      | some sess =>
          obtain ⟨-, -, a, -, hlaw⟩ := h.sessions s sess hs
          simp only [PassesBy, hs, Option.isSome_some, forall_const]
          rcases answer_of_dangling hash h hs binding expires with
            ⟨hcache, a', -, hout⟩ | ⟨hcache, hfault⟩
          · have hlawstep : (law.step (.answer s binding expires)).2 = [] := by
              simp only [Law.step, hlaw]
            rw [hlawstep]
            exact iff_of_true ⟨_, hout⟩ hcache
          · exact iff_of_false (fun ⟨st', hout⟩ => hfault _ hout) hcache
  | lookup ueAddress now =>
      rw [PassesBy]
      rcases pcfBindingsCacheFind_of_dangling hash ueAddress h now with
        ⟨hout, hnone⟩ | ⟨hout, e, he, hhash⟩
      · have hstep : step hash st (.lookup ueAddress now) = .ok (st, [none]) := by
          simp only [step, hout, bind, Except.bind]
        rw [hstep]
        constructor
        · rintro ⟨st', heq⟩
          rw [Except.ok.injEq, Prod.mk.injEq] at heq
          exact ⟨hnone, (List.cons.inj heq.2).1.symm⟩
        · rintro ⟨-, hbinding⟩
          exact ⟨st, by rw [Law.step, hbinding]⟩
      · refine iff_of_false (fun ⟨st', heq⟩ => ?_) fun hboth => hboth.1 e he hhash
        simp only [step, hout, bind, Except.bind] at heq
        cases heq

/-! ## Runs -/

/-- A lookup finds one thing, the other events none. -/
theorem length_of_step {e : Event B} {found : List (Option B)}
    (hstep : step hash st e = .ok (st', found)) : found.length = (law.step e).2.length := by
  have hlaw : (law.step e).2.length = match e with
      | .lookup _ _ => 1
      | _ => 0 := by
    cases e with
    | answer s binding expires =>
        rw [Law.step]
        split <;> rfl
    | _ => rfl
  rw [hlaw]
  cases e with
  | sessionNew ueAddress =>
      obtain ⟨-, rfl⟩ := Prod.mk.inj (Except.ok.inj hstep)
      rfl
  | answer s binding expires =>
      rw [step] at hstep
      split at hstep
      · obtain ⟨-, rfl⟩ := Prod.mk.inj (Except.ok.inj hstep)
        rfl
      · simp only [bind_eq_ok, Except.ok.injEq, Prod.mk.injEq] at hstep
        obtain ⟨-, -, st₁, -, -, rfl⟩ := hstep
        rfl
  | release s =>
      rw [step] at hstep
      split at hstep
      · obtain ⟨-, rfl⟩ := Prod.mk.inj (Except.ok.inj hstep)
        rfl
      · obtain ⟨-, rfl⟩ := Prod.mk.inj (Except.ok.inj hstep)
        rfl
  | lookup ueAddress now =>
      simp only [step, bind_eq_ok, Prod.exists, Except.ok.injEq, Prod.mk.injEq] at hstep
      obtain ⟨st₁, b, -, -, rfl⟩ := hstep
      rfl

theorem run_agrees_iff {es : List (Event B)} (h : Dangling st law) :
    run hash st es = .ok (law.run es) ↔ AllPassBy hash st law es := by
  induction es generalizing st law with
  | nil => exact iff_of_true rfl trivial
  | cons e es ih =>
      rw [AllPassBy, ← step_agrees_iff h]
      constructor
      · intro hrun
        simp only [run, bind_eq_ok, Prod.exists, Except.ok.injEq] at hrun
        obtain ⟨st', found, hstep, rest, hrest, heq⟩ := hrun
        rw [Law.run] at heq
        obtain ⟨rfl, rfl⟩ := List.append_inj heq (length_of_step hstep)
        refine ⟨⟨st', hstep⟩, fun st'' found hagain => ?_⟩
        obtain ⟨rfl, -⟩ := Prod.mk.inj (Except.ok.inj (hstep.symm.trans hagain))
        exact (ih (h.step hstep)).1 hrest
      · rintro ⟨⟨st', hstep⟩, hrest⟩
        have hlater := (ih (h.step hstep)).2 (hrest st' _ hstep)
        simp only [run, hstep, bind, Except.bind, hlater, Law.run]

theorem dangling_init : Dangling ({} : State B) {} :=
  ⟨nofun, nofun, fun _ _ => rfl, rfl⟩

variable (hash) in
/-- From the start the lookups find what the law says exactly when none of them, and no later
answer, comes upon a cached binding. -/
theorem lookups_lawful_iff (es : List (Event B)) :
    run hash {} es = .ok (Law.run {} es) ↔ AllPassBy hash {} {} es :=
  run_agrees_iff dangling_init

end Condition

/-! ## The first binding -/

def ueAddress (address : ℕ) : SockAddr :=
  { endpoint := { family := .inet, address := address, port := 0 } }

/-- A binding is cached until 100, and looked up at 50. -/
theorem lookup_reads_freed_key :
    run SockAddr.storage {} [.sessionNew (ueAddress 1), .answer 1 "pcf" 100, .lookup (ueAddress 1) 50] =
        .error .useAfterFree ∧
      Law.run {} [.sessionNew (ueAddress 1), .answer 1 "pcf" 100, .lookup (ueAddress 1) 50] =
        [some "pcf"] := by
  exact ⟨rfl, rfl⟩

end ServiceConsumers.PcfBindingsCache
