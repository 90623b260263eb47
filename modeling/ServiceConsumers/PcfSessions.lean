import Mathlib.Data.List.Nodup
import ServiceConsumers.ObjectStore
import ServiceConsumers.PcfEvents

set_option autoImplicit false

/-!
# PCF sessions and their app sessions (`context.c`, `pcf-client.c`, `pcf-client-sess.c` and
`pcf-service-consumer.c`)

A PCF session lists its app sessions in the order they were created. An app session has no id
until the PCF has answered its creation.
-/

namespace ServiceConsumers.PcfSessions

open ObjectStore PcfEvents

inductive Fault where
  | useAfterFree
  | absentId
  deriving DecidableEq, Repr

/-- `OpenAPI_app_session_context_t`: the supported features of its request data, as
`ogs_uint64_from_string` reads them. -/
structure AppSessionContext where
  ascReqData : Option (Option (BitVec 64))
  deriving DecidableEq, Repr

/-- `pcf_app_session_t`. The number of a callback stands for its user data too. -/
structure PcfAppSession where
  pcfSession : ℕ
  pcfAppSessionId : Option String := none
  policyauthorizationFeatures : BitVec 64 := 0
  change : Option ℕ := none
  pcfEventNotifications : List PcfEventNotification := []
  contextRequested : List AfEventSubscription := []
  contextReceived : Option AppSessionContext := none
  deriving Repr

def idOf (m : Store PcfAppSession) (s : ℕ) : Option String :=
  (m s).bind PcfAppSession.pcfAppSessionId

structure PcfSession where
  ref : ℕ
  notifServer : Option ℕ := none
  pcfAppSessions : List ℕ := []
  deriving DecidableEq, Repr

/-- What the application sees: that a creation was requested, with its change callback, and the
calls of change callbacks, with what they are called with. -/
inductive Observation where
  | created (s : ℕ) (change : Option ℕ)
  | change (s callback : ℕ) (appSession : Option ℕ)
  deriving DecidableEq, Repr

def Observation.session : Observation → ℕ
  | .created s _ | .change s _ _ => s

/-- The context of the library, with the app sessions whose creation has not been answered. The
log starts with what was seen last. -/
structure Context where
  pcfSessions : List PcfSession := []
  appSessions : Store PcfAppSession := Store.empty
  posts : List ℕ := []
  next : ℕ := 0
  log : List Observation := []

namespace Context

variable (w : Context)

def pcfSession (p : ℕ) : Option PcfSession := w.pcfSessions.find? fun q => q.ref = p

def modifyPcfSession (p : ℕ) (f : PcfSession → PcfSession) : Context :=
  { w with pcfSessions := w.pcfSessions.map fun q => if q.ref = p then f q else q }

/-- All app sessions, in the order of the nested loops over the context. -/
def registered : List ℕ := w.pcfSessions.flatMap PcfSession.pcfAppSessions

/-- `_pcf_app_session_exists`. -/
def appSessionExists (s : ℕ) : Bool := w.registered.contains s

/-- `_pcf_app_session_change_callback_call`. -/
def changeCallbackCall (s : ℕ) (deleteOrError : Bool) : Context :=
  match (w.appSessions s).bind PcfAppSession.change with
  | none => w
  | some callback =>
      { w with log := .change s callback (if deleteOrError then none else some s) :: w.log }

end Context

/-! ## Creating sessions -/

def pcfSessionNew (w : Context) : Context :=
  { w with pcfSessions := w.pcfSessions ++ [{ ref := w.next }], next := w.next + 1 }

structure CreateArgs where
  events : BitVec 32 := 0
  notifyCallback : Option ℕ := none
  changeCallback : Option ℕ := none
  deriving DecidableEq, Repr

/-- `_pcf_app_session_new`. -/
def pcfAppSessionNew (w : Context) (p : ℕ) (args : CreateArgs) : Context :=
  { w.modifyPcfSession p fun q => { q with pcfAppSessions := q.pcfAppSessions ++ [w.next] } with
    appSessions := w.appSessions.set w.next
      { pcfSession := p
        change := args.changeCallback
        pcfEventNotifications := addEventNotification [] args.events args.notifyCallback
        contextRequested := eventsSubscCreate args.events }
    next := w.next + 1 }

/-- `_pcf_session_get_notifications_server`, for the notification URL of an app session. -/
def pcfSessionGetNotificationsServer (w : Context) (p : ℕ) : Context :=
  { w.modifyPcfSession p fun q => { q with notifServer := some (q.notifServer.getD w.next) } with
    next := w.next + 1 }

/-- `pcf_session_create_app_session`, which returns whether the request was sent. -/
def pcfSessionCreateAppSession (w : Context) (p : ℕ) (args : CreateArgs) (sent : Bool) :
    Except Fault Context :=
  match w.pcfSession p with
  | none => .error .useAfterFree
  | some _ =>
      let w' := pcfSessionGetNotificationsServer (pcfAppSessionNew w p args) p
      .ok (if sent then
        { w' with posts := w.posts ++ [w.next], log := .created w.next args.changeCallback :: w.log }
      else w')

/-! ## Removing sessions -/

/-- `_pcf_app_session_free`. -/
def pcfAppSessionFree (w : Context) (s : ℕ) : Except Fault Context :=
  match w.appSessions s with
  | none => .error .useAfterFree
  | some sess =>
      match w.pcfSession sess.pcfSession with
      | none => .error .useAfterFree
      | some _ =>
          .ok { w.modifyPcfSession sess.pcfSession fun q =>
              { q with pcfAppSessions := q.pcfAppSessions.erase s } with
            appSessions := w.appSessions.free s }

/-- `pcf_app_sess_remove`. -/
def pcfAppSessRemove (w : Context) (s : ℕ) : Except Fault Context :=
  pcfAppSessionFree (w.changeCallbackCall s true) s

/-- `pcf_session_free`. -/
def pcfSessionFree (w : Context) (p : ℕ) : Except Fault Context := do
  match w.pcfSession p with
  | none => .error .useAfterFree
  | some session =>
      let w ← session.pcfAppSessions.foldlM pcfAppSessRemove w
      .ok { w with pcfSessions := w.pcfSessions.filter fun q => q.ref ≠ p }

/-! ## Searches by id -/

/-- A loop over app sessions that compares their ids with `strcmp`. -/
def findById (m : Store PcfAppSession) (id : Option String) : List ℕ → Except Fault (Option ℕ)
  | [] => .ok none
  | t :: ts =>
      match m t with
      | none => .error .useAfterFree
      | some sess =>
          match id, sess.pcfAppSessionId with
          | some a, some b => if a = b then .ok (some t) else findById m id ts
          | _, _ => .error .absentId

/-- `_pcf_client_context_active_sessions_exists`. -/
def pcfClientContextActiveSessionsExists (w : Context) (s : ℕ) : Except Fault (Option ℕ) :=
  match w.appSessions s with
  | none => .error .useAfterFree
  | some appSess =>
      match w.pcfSession appSess.pcfSession with
      | none => .error .useAfterFree
      | some session => findById w.appSessions appSess.pcfAppSessionId session.pcfAppSessions

/-- `pcf_session_find_by_pcf_app_session_id`. -/
def pcfSessionFindByPcfAppSessionId (w : Context) (id : String) : Except Fault (Option ℕ) :=
  findById w.appSessions (some id) w.registered

/-- The `PATCH` request for an app session, with the session that its response is for. -/
structure UpdateRequest where
  session : ℕ
  pcfAppSessionId : Option String
  deriving DecidableEq, Repr

/-- `pcf_session_update_app_session`: the request that is sent and what is returned. -/
def pcfSessionUpdateAppSession (w : Context) (appSess : Option ℕ) (sent : Bool) :
    Except Fault (Option UpdateRequest × Bool) := do
  match appSess with
  | none => .ok (none, false)
  | some s =>
      match ← pcfClientContextActiveSessionsExists w s with
      | none => .ok (none, false)
      | some t => .ok (some { session := t, pcfAppSessionId := idOf w.appSessions t }, sent)

/-! ## Well-formed contexts -/

/-- The app sessions that are listed are allocated, each is listed once and belongs to the PCF
session that lists it. -/
structure WellFormed (w : Context) : Prop where
  sessions : (w.pcfSessions.map PcfSession.ref).Nodup
  nodup : ∀ p ∈ w.pcfSessions, p.pcfAppSessions.Nodup
  owner : ∀ p ∈ w.pcfSessions, ∀ s ∈ p.pcfAppSessions,
    ∃ sess, w.appSessions s = some sess ∧ sess.pcfSession = p.ref
  freshSessions : ∀ p ∈ w.pcfSessions, p.ref < w.next
  fresh : ∀ s : ℕ, (w.appSessions s).isSome → s < w.next

variable {w : Context} {s p : ℕ}

theorem mem_registered : s ∈ w.registered ↔ ∃ p ∈ w.pcfSessions, s ∈ p.pcfAppSessions :=
  List.mem_flatMap

theorem pcfSession_eq_some {session : PcfSession} (h : w.pcfSession p = some session) :
    session ∈ w.pcfSessions ∧ session.ref = p :=
  ⟨List.mem_of_find?_eq_some h, by simpa using List.find?_some h⟩

theorem WellFormed.pcfSession_of_mem (h : WellFormed w) {session : PcfSession}
    (hmem : session ∈ w.pcfSessions) : w.pcfSession session.ref = some session := by
  cases hfind : w.pcfSession session.ref with
  | none => exact absurd (decide_eq_true rfl) (List.find?_eq_none.1 hfind session hmem)
  | some q =>
      obtain ⟨hq, href⟩ := pcfSession_eq_some hfind
      rw [List.inj_on_of_nodup_map h.sessions hq hmem href]

/-- A session that is listed is listed where it belongs, and nowhere else. -/
theorem WellFormed.mem_registered_iff (h : WellFormed w) {sess : PcfAppSession}
    {session : PcfSession} (hs : w.appSessions s = some sess)
    (hp : w.pcfSession sess.pcfSession = some session) :
    s ∈ w.registered ↔ s ∈ session.pcfAppSessions := by
  obtain ⟨hmem, href⟩ := pcfSession_eq_some hp
  rw [mem_registered]
  constructor
  · rintro ⟨q, hq, hsq⟩
    obtain ⟨sess', hs', howner⟩ := h.owner q hq s hsq
    obtain rfl := Option.some.inj (hs.symm.trans hs')
    rwa [List.inj_on_of_nodup_map h.sessions hmem hq (href.trans howner)]
  · exact fun hin => ⟨session, hmem, hin⟩

theorem WellFormed.of_mem_registered (h : WellFormed w) (hs : s ∈ w.registered) :
    ∃ sess session, w.appSessions s = some sess ∧ w.pcfSession sess.pcfSession = some session ∧
      s ∈ session.pcfAppSessions := by
  obtain ⟨session, hmem, hin⟩ := mem_registered.1 hs
  obtain ⟨sess, hsess, howner⟩ := h.owner session hmem s hin
  refine ⟨sess, session, hsess, ?_, hin⟩
  rw [howner]
  exact h.pcfSession_of_mem hmem

/-! ## What the searches find -/

/-- The lookups compare no absent id, the first finds the session itself while it is listed, and
an update is for the session that it was called with. -/
structure LookupsExact (w : Context) (s : ℕ) (id : String) : Prop where
  active : pcfClientContextActiveSessionsExists w s =
    .ok (if s ∈ w.registered then some s else none)
  total : ∃ found, pcfSessionFindByPcfAppSessionId w id = .ok found
  update : ∀ sent, pcfSessionUpdateAppSession w (some s) sent =
    .ok (if s ∈ w.registered then (some { session := s, pcfAppSessionId := idOf w.appSessions s }, sent)
      else (none, false))

/-- The session is allocated, as its PCF session is. That one lists nothing, or the session has
an id and the sessions listed before it, all if it is not listed, have ids other than its own. -/
def Findable (w : Context) (s : ℕ) : Prop :=
  ∃ sess session, w.appSessions s = some sess ∧ w.pcfSession sess.pcfSession = some session ∧
    (session.pcfAppSessions = [] ∨ ∃ id, sess.pcfAppSessionId = some id ∧
      ∀ t ∈ session.pcfAppSessions.takeWhile (· ≠ s), ∃ id', idOf w.appSessions t = some id' ∧ id' ≠ id)

/-- The sessions before the first with the id, all if there is none, have ids. -/
def Searchable (w : Context) (id : String) : Prop :=
  ∀ t ∈ w.registered.takeWhile fun t => idOf w.appSessions t ≠ some id, (idOf w.appSessions t).isSome

variable {m : Store PcfAppSession}

theorem findById_eq_iff {id : String} {ts : List ℕ} (hs : idOf m s = some id)
    (hlive : ∀ t ∈ ts, (m t).isSome) :
    findById m (some id) ts = .ok (if s ∈ ts then some s else none) ↔
      ∀ t ∈ ts.takeWhile (· ≠ s), ∃ id', idOf m t = some id' ∧ id' ≠ id := by
  induction ts with
  | nil => exact iff_of_true rfl nofun
  | cons t ts ih =>
      rw [List.forall_mem_cons] at hlive
      obtain ⟨sess, hsess⟩ := Option.isSome_iff_exists.1 hlive.1
      have hid : idOf m t = sess.pcfAppSessionId := by rw [idOf, hsess, Option.bind_some]
      by_cases hts : t = s
      · subst hts
        rw [hs] at hid
        refine iff_of_true ?_ (by simp)
        simp only [findById, hsess, ← hid, if_pos, List.mem_cons_self]
      · have hmem : s ∈ t :: ts ↔ s ∈ ts := by
          rw [List.mem_cons, or_iff_right (Ne.symm hts)]
        rw [List.takeWhile_cons_of_pos (by simpa using hts), List.forall_mem_cons, ← ih hlive.2, hid]
        simp only [findById, hsess, hmem]
        cases hown : sess.pcfAppSessionId with
        | none => simp
        | some id' =>
            by_cases heq : id = id'
            · subst heq
              simp only [if_pos, Except.ok.injEq, Option.some.injEq, exists_eq_left', ne_eq,
                not_true_eq_false, false_and, iff_false]
              split
              · exact fun h => hts (Option.some.inj h)
              · exact fun h => by cases h
            · simp [heq, Ne.symm heq]

/-- What is found is listed and has an id. -/
theorem findById_eq_some {id : Option String} {ts : List ℕ} {t : ℕ}
    (h : findById m id ts = .ok (some t)) : t ∈ ts ∧ (idOf m t).isSome := by
  induction ts with
  | nil => cases h
  | cons u ts ih =>
      rw [findById] at h
      split at h
      · cases h
      · rename_i sess hsess
        split at h
        · rename_i a b hown
          split at h
          · obtain rfl := Option.some.inj (Except.ok.inj h)
            refine ⟨List.mem_cons_self, ?_⟩
            rw [idOf, hsess, Option.bind_some, hown]
            rfl
          · exact (ih h).imp (List.mem_cons_of_mem u) id
        · cases h

theorem findById_total_iff (id : String) {ts : List ℕ}
    (hlive : ∀ t ∈ ts, (m t).isSome) :
    (∃ found, findById m (some id) ts = .ok found) ↔
      ∀ t ∈ ts.takeWhile fun t => idOf m t ≠ some id, (idOf m t).isSome := by
  induction ts with
  | nil => exact iff_of_true ⟨none, rfl⟩ nofun
  | cons t ts ih =>
      rw [List.forall_mem_cons] at hlive
      obtain ⟨sess, hsess⟩ := Option.isSome_iff_exists.1 hlive.1
      have hid : idOf m t = sess.pcfAppSessionId := by rw [idOf, hsess, Option.bind_some]
      by_cases hfound : idOf m t = some id
      · refine iff_of_true ⟨some t, ?_⟩ (by simp [hfound])
        simp only [findById, hsess, ← hid, hfound, if_pos]
      · rw [List.takeWhile_cons_of_pos (by simpa using hfound), List.forall_mem_cons, ← ih hlive.2]
        simp only [findById, hsess]
        rw [hid] at hfound ⊢
        cases hown : sess.pcfAppSessionId with
        | none => simp
        | some id' =>
            rw [hown, Option.some.injEq] at hfound
            simp [Ne.symm hfound]

theorem WellFormed.isSome_of_registered (h : WellFormed w) :
    ∀ t ∈ w.registered, (w.appSessions t).isSome := by
  intro t ht
  obtain ⟨sess, -, hsess, -⟩ := h.of_mem_registered ht
  rw [hsess]
  rfl

theorem active_eq_iff (h : WellFormed w) :
    pcfClientContextActiveSessionsExists w s = .ok (if s ∈ w.registered then some s else none) ↔
      Findable w s := by
  cases hs : w.appSessions s with
  | none => simp [pcfClientContextActiveSessionsExists, Findable, hs]
  | some sess =>
      cases hp : w.pcfSession sess.pcfSession with
      | none => simp [pcfClientContextActiveSessionsExists, Findable, hs, hp]
      | some session =>
          have hlive : ∀ t ∈ session.pcfAppSessions, (w.appSessions t).isSome := fun t ht =>
            h.isSome_of_registered t
              (mem_registered.2 ⟨session, (pcfSession_eq_some hp).1, ht⟩)
          simp only [pcfClientContextActiveSessionsExists, hs, hp, Findable,
            h.mem_registered_iff hs hp, Option.some.injEq, exists_and_left, exists_eq_left']
          cases hid : sess.pcfAppSessionId with
          | none =>
              cases hlist : session.pcfAppSessions with
              | nil => simp [findById]
              | cons t ts =>
                  obtain ⟨tsess, htsess⟩ := Option.isSome_iff_exists.1
                    (hlive t (by rw [hlist]; exact List.mem_cons_self))
                  simp [findById, htsess]
          | some id =>
              have hown : idOf w.appSessions s = some id := by rw [idOf, hs, Option.bind_some, hid]
              rw [findById_eq_iff hown hlive]
              simp only [Option.some.injEq, exists_eq_left']
              constructor
              · exact Or.inr
              · rintro (hnil | hall)
                · simp [hnil]
                · exact hall

/-- An update goes to what the lookup finds. -/
theorem update_of_active (h : pcfClientContextActiveSessionsExists w s =
    .ok (if s ∈ w.registered then some s else none)) (sent : Bool) :
    pcfSessionUpdateAppSession w (some s) sent =
      .ok (if s ∈ w.registered then (some { session := s, pcfAppSessionId := idOf w.appSessions s }, sent)
        else (none, false)) := by
  simp only [pcfSessionUpdateAppSession, h, bind, Except.bind]
  by_cases hs : s ∈ w.registered
  · simp only [if_pos hs]
  · simp only [if_neg hs]

/-- The lookups are exact exactly when no session without an id, and none with the same id, is in
the way. -/
theorem lookups_exact_iff (h : WellFormed w) (s : ℕ) (id : String) :
    LookupsExact w s id ↔ Findable w s ∧ Searchable w id := by
  have htotal := findById_total_iff id h.isSome_of_registered
  constructor
  · intro hexact
    exact ⟨(active_eq_iff h).1 hexact.active, htotal.1 hexact.total⟩
  · rintro ⟨hfindable, hsearchable⟩
    have hactive := (active_eq_iff h).2 hfindable
    exact ⟨hactive, htotal.2 hsearchable, update_of_active hactive⟩

/-! ## Two app sessions of one PCF session -/

def twoSessions (first second : Option String) : Context :=
  { pcfSessions := [{ ref := 0, pcfAppSessions := [1, 3] }]
    appSessions := (Store.empty.set 1 { pcfSession := 0, pcfAppSessionId := first }).set 3
      { pcfSession := 0, pcfAppSessionId := second }
    next := 4 }

theorem wellFormed_twoSessions (first second : Option String) :
    WellFormed (twoSessions first second) := by
  refine ⟨List.nodup_singleton 0, ?_, ?_, ?_, fun r hr => ?_⟩
  · exact fun p hp => by
      rw [List.mem_singleton.1 hp]
      decide
  · intro p hp s hs
    rw [List.mem_singleton.1 hp] at hs ⊢
    rcases List.mem_pair.1 hs with rfl | rfl
    · exact ⟨_, rfl, rfl⟩
    · exact ⟨_, rfl, rfl⟩
  · intro p hp
    rw [List.mem_singleton.1 hp]
    exact Nat.zero_lt_succ 3
  · change r < 4
    by_contra hge
    have h1 : r ≠ 1 := by omega
    have h3 : r ≠ 3 := by omega
    simp [twoSessions, Store.set_of_ne _ _ _ h3, Store.set_of_ne _ _ _ h1] at hr

/-- Both creations have been answered. -/
theorem answered_sessions_are_found : LookupsExact (twoSessions (some "a") (some "b")) 3 "b" := by
  refine (lookups_exact_iff (wellFormed_twoSessions _ _) 3 "b").2 ⟨?_, ?_⟩
  · refine ⟨_, _, rfl, rfl, .inr ⟨"b", rfl, fun t ht => ?_⟩⟩
    obtain rfl : t = 1 := List.mem_singleton.1 ht
    exact ⟨"a", rfl, by decide⟩
  · intro t ht
    obtain rfl : t = 1 := List.mem_singleton.1 ht
    rfl

/-- The creation of the second session is answered before that of the first. -/
theorem pending_session_stops_lookup : ¬ LookupsExact (twoSessions none (some "a")) 3 "a" := by
  intro h
  have hfault : pcfClientContextActiveSessionsExists (twoSessions none (some "a")) 3 =
      .error .absentId := rfl
  have hactive := h.active
  rw [hfault] at hactive
  cases hactive

end ServiceConsumers.PcfSessions
