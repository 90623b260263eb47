import ServiceConsumers.PcfSessions
import ServiceConsumers.TransitionRuns

set_option autoImplicit false

/-!
# Responses of the PCF (`npcf-process.c` and `pcf-handler.c`)

The handlers of client events, and the machine of the application's calls and the ends of the
library's requests. The application is given an app session by its change callback, so that its
creation is the only request for it until then. Change callbacks do not call the library.
-/

namespace ServiceConsumers.PcfHandlers

open ObjectStore PcfEvents PcfSessions TransitionRuns

/-- What the header of a message names. -/
structure SbiHeader where
  serviceName : String
  component : List String
  method : String
  deriving DecidableEq, Repr

/-- The URI of a `Location` header: the resource components, when it can be parsed. -/
inductive Location where
  | unparsable
  | parsed (component : List String)
  deriving DecidableEq, Repr

/-- A response as `ogs_sbi_parse_response` makes it; of the `AppSessionContextUpdateDataPatch`
it says whether it has request data. -/
structure SbiResponse where
  header : SbiHeader
  parsed : Bool := true
  status : ℕ := 200
  location : Option Location := none
  hasContent : Bool := true
  appSessionContext : Option AppSessionContext := none
  updateDataPatch : Option Bool := none
  deriving DecidableEq, Repr

/-- The state of a client event. -/
inductive SbiState where
  | ok (rsp : SbiResponse)
  | done
  | timeup
  | other
  deriving DecidableEq, Repr

/-! ## Handlers -/

def modifyAppSession (w : Context) (s : ℕ) (f : PcfAppSession → PcfAppSession) : Context :=
  { w with appSessions := w.appSessions.modify s f }

/-- `pcf_policyauthorization_create`. What is missing is only logged. -/
def pcfPolicyauthorizationCreate (w : Context) (s : ℕ) (rsp : SbiResponse) : Context :=
  match rsp.location with
  | none | some .unparsable => w
  | some (.parsed component) =>
      match component[1]?, rsp.appSessionContext with
      | some id, some context =>
          let w := modifyAppSession w s fun sess => { sess with contextReceived := some context }
          match context.ascReqData with
          | none | some none => w
          | some (some features) =>
              (modifyAppSession w s fun sess => { sess with
                policyauthorizationFeatures := sess.policyauthorizationFeatures &&& features
                pcfAppSessionId := some id }).changeCallbackCall s false
      | _, _ => w

/-- `pcf_policyauthorization_update`. -/
def pcfPolicyauthorizationUpdate (w : Context) (s : ℕ) (rsp : SbiResponse) : Context :=
  if rsp.updateDataPatch = some true then w.changeCallbackCall s false else w

/-- `pcf_policyauthorization_subscribe_event`. -/
def pcfPolicyauthorizationSubscribeEvent (w : Context) (s : ℕ) (rsp : SbiResponse) : Context :=
  if rsp.status = 201 ∧ rsp.hasContent ∧ rsp.location ≠ none ∨ rsp.status = 200 ∧ rsp.hasContent then
    w.changeCallbackCall s false
  else if rsp.status = 204 then w.changeCallbackCall s false
  else w.changeCallbackCall s true

/-- `pcf_policyauthorization_delete`. As the callback leaves the list as it is, the second removal
from the list does nothing. -/
def pcfPolicyauthorizationDelete (w : Context) (s : ℕ) : Except Fault Context := do
  match ← pcfClientContextActiveSessionsExists w s with
  | none => .ok w
  | some t => pcfAppSessRemove w t

/-- The switches on service, resource and method. Every status of a creation other than 201
removes the app session. -/
def processResponse (w : Context) (s : ℕ) (rsp : SbiResponse) : Except Fault Context :=
  if rsp.header.serviceName ≠ "npcf-policyauthorization" then .ok w
  else if rsp.header.component[0]? ≠ some "app-sessions" then .ok w
  else if rsp.header.component[1]? = none then
    if rsp.header.method ≠ "POST" then .ok w
    else if rsp.status = 201 then .ok (pcfPolicyauthorizationCreate w s rsp)
    else pcfAppSessRemove w s
  else
    match rsp.header.component[2]? with
    | some "events-subscription" => .ok (pcfPolicyauthorizationSubscribeEvent w s rsp)
    | some "delete" => pcfPolicyauthorizationDelete w s
    | some _ => .ok w
    | none =>
        if rsp.header.method = "PATCH" ∧ rsp.status = 200 then
          .ok (pcfPolicyauthorizationUpdate w s rsp)
        else .ok w

/-- `_pcf_process_event` for a client event. -/
def processClientEvent (w : Context) (s : ℕ) (state : SbiState) : Except Fault Context :=
  if w.appSessionExists s then
    match state with
    | .ok rsp => if rsp.parsed then processResponse w s rsp else .ok w
    | .done | .other => pcfAppSessRemove w s
    | .timeup => .ok w
  else .ok w

/-- How a request ends, and whether the queue takes the event that says so. -/
structure Completion where
  state : SbiState
  queued : Bool := true
  deriving DecidableEq, Repr

/-- `client_notify_cb`, with the processing of its event. -/
def clientNotifyCb (w : Context) (s : ℕ) (c : Completion) : Except Fault Context :=
  if c.queued then processClientEvent w s c.state else .ok w

/-! ## The machine -/

/-- The header of a response is that of its request; this is the one of
`pcf_policyauthorization_request_create`. -/
def createHeader : SbiHeader :=
  { serviceName := "npcf-policyauthorization", component := ["app-sessions"], method := "POST" }

def SbiState.ofCreation : SbiState → SbiState
  | .ok rsp => .ok { rsp with header := createHeader }
  | state => state

inductive Event where
  | sessionNew
  | create (p : ℕ) (args : CreateArgs) (sent : Bool)
  | created (s : ℕ) (c : Completion)
  | answered (s : ℕ) (c : Completion)
  | sessionFree (p : ℕ)

/-- A creation ends once; other requests are made for app sessions whose creation has ended. -/
def step (w : Context) : Event → Except Fault Context
  | .sessionNew => .ok (pcfSessionNew w)
  | .create p args sent => pcfSessionCreateAppSession w p args sent
  | .created s c =>
      if s ∈ w.posts then
        clientNotifyCb { w with posts := w.posts.erase s } s { c with state := c.state.ofCreation }
      else .ok w
  | .answered s c => if s ∈ w.posts then .ok w else clientNotifyCb w s c
  | .sessionFree p => pcfSessionFree w p

/-! ## Frames -/

/-- What the application saw of one app session. -/
def seen (w : Context) (t : ℕ) : List Observation := w.log.filter fun o => o.session = t

/-- Another app session is kept as it is. -/
structure Keeps (w w' : Context) (t : ℕ) : Prop where
  registered : t ∈ w'.registered ↔ t ∈ w.registered
  stored : w'.appSessions t = w.appSessions t
  seen : seen w' t = seen w t

/-- A well-formed context where just the listed app sessions are allocated. -/
structure Sound (w : Context) : Prop where
  wellFormed : WellFormed w
  listed : ∀ t : ℕ, (w.appSessions t).isSome → t ∈ w.registered
  logged : ∀ o ∈ w.log, Observation.session o < w.next

variable {w w' : Context} {s t p : ℕ}

theorem Keeps.refl (w : Context) (t : ℕ) : Keeps w w t := ⟨Iff.rfl, rfl, rfl⟩

theorem Keeps.trans {v : Context} (h : Keeps w v t) (h' : Keeps v w' t) : Keeps w w' t :=
  ⟨h'.registered.trans h.registered, h'.stored.trans h.stored, h'.seen.trans h.seen⟩

theorem Sound.registered_iff (h : Sound w) : t ∈ w.registered ↔ (w.appSessions t).isSome :=
  ⟨h.wellFormed.isSome_of_registered t, h.listed t⟩

theorem Sound.lt_next (h : Sound w) (ht : t ∈ w.registered) : t < w.next :=
  h.wellFormed.fresh t (h.registered_iff.1 ht)

theorem seen_eq_nil_of_fresh (h : Sound w) : seen w w.next = [] := by
  rw [seen, List.filter_eq_nil_iff]
  intro o ho heq
  have := h.logged o ho
  rw [of_decide_eq_true heq] at this
  exact absurd this (Nat.lt_irrefl _)

theorem mem_registered_modify {f : PcfSession → PcfSession} :
    t ∈ (w.modifyPcfSession p f).registered ↔
      ∃ q ∈ w.pcfSessions, t ∈ (if q.ref = p then f q else q).pcfAppSessions := by
  rw [mem_registered]
  simp only [Context.modifyPcfSession, List.mem_map, exists_exists_and_eq_and]

theorem forall_mem_modify {f : PcfSession → PcfSession} {P : PcfSession → Prop} :
    (∀ q ∈ (w.modifyPcfSession p f).pcfSessions, P q) ↔
      ∀ q ∈ w.pcfSessions, P (if q.ref = p then f q else q) :=
  List.forall_mem_map

theorem refs_modify {f : PcfSession → PcfSession} (hf : ∀ q, (f q).ref = q.ref) :
    (w.modifyPcfSession p f).pcfSessions.map PcfSession.ref = w.pcfSessions.map PcfSession.ref := by
  rw [Context.modifyPcfSession, List.map_map]
  refine List.map_congr_left fun q _ => ?_
  change (if q.ref = p then f q else q).ref = q.ref
  split
  · exact hf q
  · rfl

/-! ## Calls of change callbacks -/

/-- What a call of the change callback shows. -/
def changeCall (s : ℕ) (change : Option ℕ) (deleteOrError : Bool) : List Observation :=
  match change with
  | none => []
  | some callback => [.change s callback (if deleteOrError then none else some s)]

theorem session_of_mem_changeCall {change : Option ℕ} {b : Bool} {o : Observation}
    (ho : o ∈ changeCall s change b) : o.session = s := by
  cases change with
  | none => cases ho
  | some callback =>
      rw [List.mem_singleton.1 ho]
      rfl

theorem changeCallbackCall_eq (s : ℕ) (b : Bool) :
    w.changeCallbackCall s b = { w with
      log := changeCall s ((w.appSessions s).bind PcfAppSession.change) b ++ w.log } := by
  unfold Context.changeCallbackCall changeCall
  cases (w.appSessions s).bind PcfAppSession.change <;> rfl

theorem seen_append {log : List Observation} (hlog : ∀ o ∈ log, Observation.session o = s) :
    seen { w with log := log ++ w.log } t = if t = s then log ++ seen w s else seen w t := by
  rw [seen, List.filter_append]
  split
  · rename_i heq
    subst heq
    rw [List.filter_eq_self.2 fun o ho => decide_eq_true (hlog o ho)]
    rfl
  · rename_i hne
    rw [List.filter_eq_nil_iff.2 fun o ho heq => hne ((of_decide_eq_true heq).symm.trans (hlog o ho))]
    rfl

theorem seen_changeCallbackCall (s : ℕ) (b : Bool) : seen (w.changeCallbackCall s b) s =
    changeCall s ((w.appSessions s).bind PcfAppSession.change) b ++ seen w s := by
  rw [changeCallbackCall_eq, seen_append fun o => session_of_mem_changeCall, if_pos rfl]

theorem keeps_changeCallbackCall (b : Bool) (hne : t ≠ s) :
    Keeps w (w.changeCallbackCall s b) t := by
  rw [changeCallbackCall_eq]
  refine ⟨Iff.rfl, rfl, ?_⟩
  rw [seen_append fun o => session_of_mem_changeCall, if_neg hne]

theorem Sound.changeCallbackCall (h : Sound w) (hs : s ∈ w.registered) (b : Bool) :
    Sound (w.changeCallbackCall s b) := by
  rw [changeCallbackCall_eq]
  refine ⟨⟨h.wellFormed.sessions, h.wellFormed.nodup, h.wellFormed.owner, h.wellFormed.freshSessions,
    h.wellFormed.fresh⟩, h.listed, fun o ho => ?_⟩
  rcases List.mem_append.1 ho with ho | ho
  · rw [session_of_mem_changeCall ho]
    exact h.lt_next hs
  · exact h.logged o ho

/-! ## Writes to an app session -/

theorem Sound.modifyAppSession (h : Sound w) {f : PcfAppSession → PcfAppSession}
    (hf : ∀ sess, (f sess).pcfSession = sess.pcfSession) : Sound (modifyAppSession w s f) := by
  have hsome : ∀ t : ℕ, (w.appSessions.modify s f t).isSome = (w.appSessions t).isSome := fun t =>
    Store.isSome_modify _ _ _ f
  refine ⟨⟨h.wellFormed.sessions, h.wellFormed.nodup, fun q hq t ht => ?_,
    h.wellFormed.freshSessions, fun t ht => ?_⟩, fun t ht => ?_, h.logged⟩
  · obtain ⟨sess, hsess, howner⟩ := h.wellFormed.owner q hq t ht
    change ∃ sess, w.appSessions.modify s f t = some sess ∧ _
    rw [Store.modify_apply, hsess]
    split
    · exact ⟨f sess, rfl, (hf sess).trans howner⟩
    · exact ⟨sess, rfl, howner⟩
  · change (w.appSessions.modify s f t).isSome at ht
    rw [hsome] at ht
    exact h.wellFormed.fresh t ht
  · change (w.appSessions.modify s f t).isSome at ht
    rw [hsome] at ht
    exact h.listed t ht

theorem keeps_modifyAppSession {f : PcfAppSession → PcfAppSession} (hne : t ≠ s) :
    Keeps w (modifyAppSession w s f) t :=
  ⟨Iff.rfl, Store.modify_of_ne _ _ _ hne, rfl⟩

/-! ## Removals -/

/-- An app session is removed, which its change callback is told. -/
structure Removes (w w' : Context) (s : ℕ) : Prop where
  sound : Sound w'
  others : ∀ t, t ≠ s → Keeps w w' t
  gone : s ∉ w'.registered
  seen : seen w' s = changeCall s ((w.appSessions s).bind PcfAppSession.change) true ++ seen w s
  posts : w'.posts = w.posts
  next : w'.next = w.next
  lists : ∀ p, w'.pcfSession p = (w.pcfSession p).map fun q =>
    { q with pcfAppSessions := q.pcfAppSessions.erase s }

/-- The app session leaves the one list that it is in. -/
theorem mem_registered_erase (h : WellFormed w) {sess : PcfAppSession}
    (hs : w.appSessions s = some sess) :
    t ∈ (w.modifyPcfSession sess.pcfSession fun q =>
        { q with pcfAppSessions := q.pcfAppSessions.erase s }).registered ↔
      t ∈ w.registered ∧ t ≠ s := by
  rw [mem_registered_modify, mem_registered]
  constructor
  · rintro ⟨q, hq, ht⟩
    split at ht
    · obtain ⟨hne, hmem⟩ := (h.nodup q hq).mem_erase_iff.1 ht
      exact ⟨⟨q, hq, hmem⟩, hne⟩
    · rename_i hother
      refine ⟨⟨q, hq, ht⟩, ?_⟩
      rintro rfl
      obtain ⟨sess', hs', howner⟩ := h.owner q hq t ht
      obtain rfl := Option.some.inj (hs.symm.trans hs')
      exact hother howner.symm
  · rintro ⟨⟨q, hq, ht⟩, hne⟩
    refine ⟨q, hq, ?_⟩
    split
    · exact (List.mem_erase_of_ne hne).2 ht
    · exact ht

theorem pcfSession_erase (h : WellFormed w) {sess : PcfAppSession}
    (hs : w.appSessions s = some sess) (p : ℕ) :
    (w.modifyPcfSession sess.pcfSession fun q =>
        { q with pcfAppSessions := q.pcfAppSessions.erase s }).pcfSession p =
      (w.pcfSession p).map fun q => { q with pcfAppSessions := q.pcfAppSessions.erase s } := by
  have hsame : w.pcfSessions.map (fun q => if q.ref = sess.pcfSession then
        { q with pcfAppSessions := q.pcfAppSessions.erase s } else q) =
      w.pcfSessions.map fun q => { q with pcfAppSessions := q.pcfAppSessions.erase s } := by
    refine List.map_congr_left fun q hq => ?_
    split
    · rfl
    · rename_i hother
      rw [List.erase_of_not_mem]
      intro hin
      obtain ⟨sess', hs', howner⟩ := h.owner q hq s hin
      obtain rfl := Option.some.inj (hs.symm.trans hs')
      exact hother howner.symm
  rw [Context.pcfSession, Context.modifyPcfSession, hsame, List.find?_map]
  rfl

theorem pcfAppSessionFree_spec (h : Sound w) (hs : s ∈ w.registered) :
    ∃ w', pcfAppSessionFree w s = .ok w' ∧ Sound w' ∧ (∀ t, t ≠ s → Keeps w w' t) ∧
      s ∉ w'.registered ∧ w'.log = w.log ∧ w'.posts = w.posts ∧ w'.next = w.next ∧
      ∀ p, w'.pcfSession p = (w.pcfSession p).map fun q =>
        { q with pcfAppSessions := q.pcfAppSessions.erase s } := by
  obtain ⟨sess, session, hsess, hsession, -⟩ := h.wellFormed.of_mem_registered hs
  have hmem : ∀ t, t ∈ (w.modifyPcfSession sess.pcfSession fun q =>
      { q with pcfAppSessions := q.pcfAppSessions.erase s }).registered ↔
        t ∈ w.registered ∧ t ≠ s := fun t => mem_registered_erase h.wellFormed hsess
  have hstored : ∀ t : ℕ, t ≠ s → w.appSessions.free s t = w.appSessions t := fun t hne =>
    Store.free_of_ne _ _ _ hne
  refine ⟨{ w.modifyPcfSession sess.pcfSession fun q =>
      { q with pcfAppSessions := q.pcfAppSessions.erase s } with
    appSessions := w.appSessions.free s }, ?_, ⟨⟨?_, ?_, ?_, ?_, ?_⟩, fun t ht => ?_, h.logged⟩,
    fun t hne => ⟨?_, hstored t hne, rfl⟩, fun hin => ((hmem s).1 hin).2 rfl, rfl, rfl, rfl,
    pcfSession_erase h.wellFormed hsess⟩
  · simp only [pcfAppSessionFree, hsess, hsession]
  · have hrefs := refs_modify (w := w) (p := sess.pcfSession)
      (f := fun q => { q with pcfAppSessions := q.pcfAppSessions.erase s }) fun q => rfl
    exact hrefs ▸ h.wellFormed.sessions
  · refine forall_mem_modify.2 fun q hq => ?_
    split
    · exact (h.wellFormed.nodup q hq).erase s
    · exact h.wellFormed.nodup q hq
  · intro q hq t ht
    obtain ⟨hold, hne⟩ := (hmem t).1 (mem_registered.2 ⟨q, hq, ht⟩)
    refine (forall_mem_modify (P := fun q => t ∈ q.pcfAppSessions →
      ∃ sess, w.appSessions.free s t = some sess ∧ sess.pcfSession = q.ref)).2 ?_ q hq ht
    intro q hq ht
    rw [hstored t hne]
    by_cases howns : q.ref = sess.pcfSession
    · rw [if_pos howns] at ht ⊢
      exact h.wellFormed.owner q hq t (List.mem_of_mem_erase ht)
    · rw [if_neg howns] at ht ⊢
      exact h.wellFormed.owner q hq t ht
  · refine forall_mem_modify.2 fun q hq => ?_
    split
    · exact h.wellFormed.freshSessions q hq
    · exact h.wellFormed.freshSessions q hq
  · intro t ht
    exact h.wellFormed.fresh t (Store.isSome_of_free ht)
  · have hne : t ≠ s := by
      rintro rfl
      simp at ht
    exact (hmem t).2 ⟨h.listed t (Store.isSome_of_free ht), hne⟩
  · rw [← and_iff_left (a := t ∈ w.registered) hne]
    exact hmem t

theorem pcfAppSessRemove_spec (h : Sound w) (hs : s ∈ w.registered) :
    ∃ w', pcfAppSessRemove w s = .ok w' ∧ Removes w w' s := by
  have hcall : (w.changeCallbackCall s true).registered = w.registered ∧
      (w.changeCallbackCall s true).posts = w.posts ∧
      (w.changeCallbackCall s true).next = w.next ∧
      (w.changeCallbackCall s true).pcfSessions = w.pcfSessions := by
    rw [changeCallbackCall_eq]
    exact ⟨rfl, rfl, rfl, rfl⟩
  obtain ⟨hregistered, hposts, hnext, hsessions⟩ := hcall
  obtain ⟨w', hfree, hsound, hothers, hgone, hlog, hposts', hnext', hlists⟩ :=
    pcfAppSessionFree_spec (h.changeCallbackCall hs true) (hregistered ▸ hs)
  refine ⟨w', hfree, hsound, fun t hne => (keeps_changeCallbackCall true hne).trans (hothers t hne),
    hgone, ?_, hposts'.trans hposts, hnext'.trans hnext, fun p => ?_⟩
  · rw [seen, hlog]
    exact seen_changeCallbackCall s true
  · rw [hlists p, Context.pcfSession, hsessions]
    rfl

/-- What `pcf_session_free` does to each app session. -/
theorem pcfSessionFree_spec (h : Sound w) (hok : pcfSessionFree w p = .ok w') :
    Sound w' ∧ w'.posts = w.posts ∧ w'.next = w.next ∧ ∀ t, Keeps w w' t ∨
      t ∈ w.registered ∧ t ∉ w'.registered ∧
        seen w' t = changeCall t ((w.appSessions t).bind PcfAppSession.change) true ++ seen w t := by
  unfold pcfSessionFree at hok
  split at hok
  · cases hok
  · rename_i session hsession
    obtain ⟨v, hv, hout⟩ := bind_eq_ok.1 hok
    obtain rfl := Except.ok.inj hout
    have hloop := foldlM_ok_induction (fun rest v => Sound v ∧ v.posts = w.posts ∧ v.next = w.next ∧
      v.pcfSession p = some { session with pcfAppSessions := rest } ∧ ∀ t, Keeps w v t ∨
        t ∉ rest ∧ t ∈ w.registered ∧ t ∉ v.registered ∧
          seen v t = changeCall t ((w.appSessions t).bind PcfAppSession.change) true ++ seen w t)
      ?_ session.pcfAppSessions w v ⟨h, rfl, rfl, hsession, fun t => .inl (Keeps.refl w t)⟩ hv
    · obtain ⟨hsound, hposts, hnext, hempty, hall⟩ := hloop
      have hmem : ∀ t, t ∈ Context.registered { v with
          pcfSessions := v.pcfSessions.filter fun q => q.ref ≠ p } ↔ t ∈ v.registered := by
        intro t
        rw [mem_registered, mem_registered]
        constructor
        · rintro ⟨q, hq, ht⟩
          exact ⟨q, List.mem_of_mem_filter hq, ht⟩
        · rintro ⟨q, hq, ht⟩
          refine ⟨q, List.mem_filter.2 ⟨hq, decide_eq_true ?_⟩, ht⟩
          rintro rfl
          rw [hsound.wellFormed.pcfSession_of_mem hq, Option.some.injEq] at hempty
          rw [hempty] at ht
          cases ht
      refine ⟨⟨⟨?_, fun q hq => ?_, fun q hq => ?_, fun q hq => ?_, hsound.wellFormed.fresh⟩,
        fun t ht => (hmem t).2 (hsound.listed t ht), hsound.logged⟩, hposts, hnext, fun t => ?_⟩
      · exact hsound.wellFormed.sessions.sublist (List.filter_sublist.map _)
      · exact hsound.wellFormed.nodup q (List.mem_of_mem_filter hq)
      · exact hsound.wellFormed.owner q (List.mem_of_mem_filter hq)
      · exact hsound.wellFormed.freshSessions q (List.mem_of_mem_filter hq)
      · rcases hall t with hsame | ⟨-, hin, hgone, hseen⟩
        · exact .inl ⟨(hmem t).trans hsame.registered, hsame.stored, hsame.seen⟩
        · exact .inr ⟨hin, fun hback => hgone ((hmem t).1 hback), hseen⟩
    · rintro s rest v v' ⟨hsound, hposts, hnext, hlist, hall⟩ hremove
      obtain ⟨hq, -⟩ := pcfSession_eq_some hlist
      have hnodup := List.nodup_cons.1 (hsound.wellFormed.nodup _ hq)
      have hs : s ∈ v.registered := mem_registered.2 ⟨_, hq, List.mem_cons_self⟩
      obtain ⟨v'', hout, hremoves⟩ := pcfAppSessRemove_spec hsound hs
      obtain rfl := Except.ok.inj (hout.symm.trans hremove)
      refine ⟨hremoves.sound, hremoves.posts.trans hposts, hremoves.next.trans hnext, ?_,
        fun t => ?_⟩
      · rw [hremoves.lists p, hlist, Option.map_some, List.erase_cons_head]
      · by_cases heq : t = s
        · subst heq
          have hkept : Keeps w v t := (hall t).resolve_right fun hgone => hgone.1 List.mem_cons_self
          refine .inr ⟨hnodup.1, hkept.registered.1 hs, hremoves.gone, ?_⟩
          rw [hremoves.seen, hkept.stored, hkept.seen]
        · have hkept := hremoves.others t heq
          rcases hall t with hsame | ⟨hout, hin, hgone, hseen⟩
          · exact .inl (hsame.trans hkept)
          · exact .inr ⟨fun hmem => hout (List.mem_cons_of_mem s hmem), hin,
              fun hback => hgone (hkept.registered.1 hback), hkept.seen.trans hseen⟩

end ServiceConsumers.PcfHandlers
