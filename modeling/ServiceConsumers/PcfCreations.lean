import ServiceConsumers.PcfHandlers

set_option autoImplicit false

/-!
# The outcome of a creation (`pcf_session_create_app_session`)

Of each creation that was requested the application is to be told exactly one outcome by the
change callback it gave.
-/

namespace ServiceConsumers.PcfCreations

open ObjectStore PcfEvents PcfSessions PcfHandlers TransitionRuns

/-! ## What is to hold -/

/-- The request was answered with 201. -/
def Completion.accepted (c : Completion) : Prop := ∃ rsp, c.state = .ok rsp ∧ rsp.status = 201

/-- After the creation has ended the application was called once, with the app session when it
was accepted and its id stored, and otherwise with none, the app session being gone. -/
structure ToldOnce (w' : Context) (s callback : ℕ) (c : Completion) : Prop where
  once : ∃ appSession, seen w' s = [.change s callback appSession, .created s (some callback)] ∧
    (appSession = some s ↔ Completion.accepted c ∧ (idOf w'.appSessions s).isSome) ∧
    (appSession ≠ some s → appSession = none ∧ s ∉ w'.registered)

/-- The creation of an app session ends, for which a change callback was given. -/
def Ends (w : Context) (e : Event) (s callback : ℕ) (c : Completion) : Prop :=
  e = .created s c ∧ s ∈ w.posts ∧ .created s (some callback) ∈ seen w s

/-- Whenever a creation ends in a run, the application is told. -/
def Reports : Context → List Event → Prop
  | _, [] => True
  | w, e :: es => ∀ w', step w e = .ok w' →
      (∀ s callback c, Ends w e s callback c → ToldOnce w' s callback c) ∧ Reports w' es

/-! ## The condition -/

/-- The response has all that `pcf_policyauthorization_create` needs. -/
def SbiResponse.complete (rsp : SbiResponse) : Prop :=
  ∃ component id features, rsp.location = some (.parsed component) ∧ component[1]? = some id ∧
    rsp.appSessionContext = some { ascReqData := some (some features) }

/-- The end of the creation is not dropped: the queue takes its event, it is no timeout, the
response can be parsed, and if it is a 201 it is complete. -/
def Completion.tells (c : Completion) : Prop :=
  c.queued = true ∧
    match c.state with
    | .ok rsp => rsp.parsed = true ∧ (rsp.status = 201 → SbiResponse.complete rsp)
    | .done | .other => True
    | .timeup => False

/-- No creation of an app session that is still registered has its end dropped. -/
def NeverDropped : Context → List Event → Prop
  | _, [] => True
  | w, e :: es => ∀ w', step w e = .ok w' →
      (∀ s callback c, Ends w e s callback c → s ∈ w.registered → Completion.tells c) ∧
        NeverDropped w' es

/-! ## Creations -/

variable {w w' : Context} {s t p : ℕ} {args : CreateArgs}

theorem sound_pcfSessionNew (h : Sound w) : Sound (pcfSessionNew w) ∧ ∀ t, Keeps w (pcfSessionNew w) t := by
  have hmem : ∀ t, t ∈ (pcfSessionNew w).registered ↔ t ∈ w.registered := by
    intro t
    rw [Context.registered, pcfSessionNew, List.flatMap_append]
    simp [Context.registered]
  refine ⟨⟨⟨?_, ?_, ?_, ?_, fun t ht => Nat.lt_succ_of_lt (h.wellFormed.fresh t ht)⟩,
    fun t ht => (hmem t).2 (h.listed t ht), fun o ho => Nat.lt_succ_of_lt (h.logged o ho)⟩,
    fun t => ⟨hmem t, rfl, rfl⟩⟩
  · rw [pcfSessionNew, List.map_append, List.nodup_append]
    refine ⟨h.wellFormed.sessions, List.nodup_singleton _, fun a ha b hb heq => ?_⟩
    obtain ⟨q, hq, rfl⟩ := List.mem_map.1 ha
    rw [List.mem_singleton.1 hb] at heq
    exact absurd (h.wellFormed.freshSessions q hq) (heq ▸ Nat.lt_irrefl _)
  · exact List.forall_mem_append.2 ⟨h.wellFormed.nodup, List.forall_mem_singleton.2 List.nodup_nil⟩
  · exact List.forall_mem_append.2 ⟨h.wellFormed.owner, List.forall_mem_singleton.2 nofun⟩
  · refine List.forall_mem_append.2 ⟨fun q hq => ?_, List.forall_mem_singleton.2 ?_⟩
    · exact Nat.lt_succ_of_lt (h.wellFormed.freshSessions q hq)
    · exact Nat.lt_succ_self _

theorem mem_registered_new (hp : (w.pcfSession p).isSome) :
    t ∈ (pcfAppSessionNew w p args).registered ↔ t ∈ w.registered ∨ t = w.next := by
  obtain ⟨session, hsession⟩ := Option.isSome_iff_exists.1 hp
  obtain ⟨hin, rfl⟩ := pcfSession_eq_some hsession
  change t ∈ (w.modifyPcfSession session.ref fun q =>
    { q with pcfAppSessions := q.pcfAppSessions ++ [w.next] }).registered ↔ _
  rw [mem_registered_modify, mem_registered]
  constructor
  · rintro ⟨q, hq, ht⟩
    split at ht
    · rcases List.mem_append.1 ht with ht | ht
      · exact .inl ⟨q, hq, ht⟩
      · exact .inr (List.mem_singleton.1 ht)
    · exact .inl ⟨q, hq, ht⟩
  · rintro (⟨q, hq, ht⟩ | rfl)
    · refine ⟨q, hq, ?_⟩
      split
      · exact List.mem_append_left _ ht
      · exact ht
    · refine ⟨session, hin, ?_⟩
      rw [if_pos rfl]
      exact List.mem_append_right _ (List.mem_singleton_self _)

/-- The app session that a creation makes. -/
def newAppSession (p : ℕ) (args : CreateArgs) : PcfAppSession :=
  { pcfSession := p
    change := args.changeCallback
    pcfEventNotifications := addEventNotification [] args.events args.notifyCallback
    contextRequested := eventsSubscCreate args.events }

theorem sound_pcfAppSessionNew (args : CreateArgs) (h : Sound w)
    (hp : (w.pcfSession p).isSome) :
    Sound (pcfAppSessionNew w p args) ∧
      ∀ t, t ≠ w.next → Keeps w (pcfAppSessionNew w p args) t := by
  have hold : ∀ t : ℕ, t ≠ w.next → (pcfAppSessionNew w p args).appSessions t = w.appSessions t :=
    fun t ht => Store.set_of_ne _ _ _ ht
  have hnew : (pcfAppSessionNew w p args).appSessions w.next = some (newAppSession p args) :=
    Store.set_self _ _ _
  have hne : ∀ q ∈ w.pcfSessions, ∀ t ∈ q.pcfAppSessions, t ≠ w.next := fun q hq t ht =>
    Nat.ne_of_lt (h.lt_next (mem_registered.2 ⟨q, hq, ht⟩))
  have hrefs := refs_modify (w := w) (p := p)
    (f := fun q => { q with pcfAppSessions := q.pcfAppSessions ++ [w.next] }) fun q => rfl
  refine ⟨⟨⟨hrefs ▸ h.wellFormed.sessions, forall_mem_modify.2 fun q hq => ?_, ?_,
    forall_mem_modify.2 fun q hq => ?_, fun t ht => ?_⟩, fun t ht => ?_, fun o ho =>
      Nat.lt_succ_of_lt (h.logged o ho)⟩, fun t ht => ⟨?_, hold t ht, rfl⟩⟩
  · split
    · refine List.nodup_append.2 ⟨h.wellFormed.nodup q hq, List.nodup_singleton _,
        fun a ha b hb heq => ?_⟩
      rw [List.mem_singleton.1 hb] at heq
      exact hne q hq a ha heq
    · exact h.wellFormed.nodup q hq
  · refine (forall_mem_modify (P := fun q => ∀ t ∈ q.pcfAppSessions,
      ∃ sess, (pcfAppSessionNew w p args).appSessions t = some sess ∧ sess.pcfSession = q.ref)).2 ?_
    intro q hq t ht
    by_cases howns : q.ref = p
    · rw [if_pos howns] at ht ⊢
      rcases List.mem_append.1 ht with ht | ht
      · rw [hold t (hne q hq t ht)]
        exact h.wellFormed.owner q hq t ht
      · rw [List.mem_singleton.1 ht]
        exact ⟨_, hnew, howns.symm⟩
    · rw [if_neg howns] at ht ⊢
      rw [hold t (hne q hq t ht)]
      exact h.wellFormed.owner q hq t ht
  · split
    · exact Nat.lt_succ_of_lt (h.wellFormed.freshSessions q hq)
    · exact Nat.lt_succ_of_lt (h.wellFormed.freshSessions q hq)
  · by_cases heq : t = w.next
    · rw [heq]
      exact Nat.lt_succ_self _
    · rw [hold t heq] at ht
      exact Nat.lt_succ_of_lt (h.wellFormed.fresh t ht)
  · by_cases heq : t = w.next
    · exact (mem_registered_new hp).2 (.inr heq)
    · rw [hold t heq] at ht
      exact (mem_registered_new hp).2 (.inl (h.listed t ht))
  · rw [mem_registered_new hp, or_iff_left ht]

theorem sound_pcfSessionGetNotificationsServer (h : Sound w) (p : ℕ) :
    Sound (pcfSessionGetNotificationsServer w p) ∧
      ∀ t, Keeps w (pcfSessionGetNotificationsServer w p) t := by
  have hmem : ∀ t, t ∈ (pcfSessionGetNotificationsServer w p).registered ↔ t ∈ w.registered := by
    intro t
    change t ∈ (w.modifyPcfSession p fun q =>
      { q with notifServer := some (q.notifServer.getD w.next) }).registered ↔ _
    rw [mem_registered_modify, mem_registered]
    refine exists_congr fun q => and_congr_right fun _ => ?_
    split <;> rfl
  have hrefs := refs_modify (w := w) (p := p)
    (f := fun q => { q with notifServer := some (q.notifServer.getD w.next) }) fun q => rfl
  refine ⟨⟨⟨hrefs ▸ h.wellFormed.sessions, forall_mem_modify.2 fun q hq => ?_,
    forall_mem_modify.2 fun q hq => ?_, forall_mem_modify.2 fun q hq => ?_,
    fun t ht => Nat.lt_succ_of_lt (h.wellFormed.fresh t ht)⟩,
    fun t ht => (hmem t).2 (h.listed t ht), fun o ho => Nat.lt_succ_of_lt (h.logged o ho)⟩,
    fun t => ⟨hmem t, rfl, rfl⟩⟩
  · split
    · exact h.wellFormed.nodup q hq
    · exact h.wellFormed.nodup q hq
  · split
    · exact h.wellFormed.owner q hq
    · exact h.wellFormed.owner q hq
  · split
    · exact Nat.lt_succ_of_lt (h.wellFormed.freshSessions q hq)
    · exact Nat.lt_succ_of_lt (h.wellFormed.freshSessions q hq)

/-- A creation makes one app session, without an id, and keeps the others. -/
theorem pcfSessionCreateAppSession_spec {sent : Bool} (h : Sound w)
    (hok : pcfSessionCreateAppSession w p args sent = .ok w') :
    Sound w' ∧ (∀ t, t ≠ w.next → Keeps w w' t) ∧ w.next < w'.next ∧
      w'.appSessions w.next = some (newAppSession p args) ∧
      w'.posts = (if sent then w.posts ++ [w.next] else w.posts) ∧
      seen w' w.next = if sent then [.created w.next args.changeCallback] else [] := by
  unfold pcfSessionCreateAppSession at hok
  split at hok
  · cases hok
  · rename_i session hsession
    obtain ⟨hnew, hkeepsNew⟩ := sound_pcfAppSessionNew args h (by rw [hsession]; rfl)
    obtain ⟨hserver, hkeeps⟩ := sound_pcfSessionGetNotificationsServer hnew p
    have hall : ∀ t, t ≠ w.next →
        Keeps w (pcfSessionGetNotificationsServer (pcfAppSessionNew w p args) p) t := fun t ht =>
      (hkeepsNew t ht).trans (hkeeps t)
    have hstored := Store.set_self w.appSessions w.next (newAppSession p args)
    have hlt : w.next < (pcfSessionGetNotificationsServer (pcfAppSessionNew w p args) p).next :=
      Nat.lt_succ_of_lt (Nat.lt_succ_self _)
    have hfresh := seen_eq_nil_of_fresh h
    obtain rfl := Except.ok.inj hok
    cases sent with
    | false => exact ⟨hserver, hall, hlt, hstored, rfl, hfresh⟩
    | true =>
        refine ⟨⟨⟨hserver.wellFormed.sessions, hserver.wellFormed.nodup, hserver.wellFormed.owner,
          hserver.wellFormed.freshSessions, hserver.wellFormed.fresh⟩, hserver.listed,
          List.forall_mem_cons.2 ⟨hlt, hserver.logged⟩⟩, fun t ht => ?_, hlt, hstored, rfl, ?_⟩
        · refine (hall t ht).trans ⟨Iff.rfl, rfl, ?_⟩
          exact List.filter_cons_of_neg fun heq => ht (of_decide_eq_true heq).symm
        · rw [if_pos rfl, ← hfresh]
          exact List.filter_cons_of_pos (decide_eq_true rfl)

/-! ## Client events -/

/-- A client event for an app session keeps the others that have no id. -/
structure Handles (w w' : Context) (s : ℕ) : Prop where
  sound : Sound w'
  posts : w'.posts = w.posts
  next : w'.next = w.next
  others : ∀ t, t ≠ s → idOf w.appSessions t = none → Keeps w w' t

theorem Handles.refl (h : Sound w) (s : ℕ) : Handles w w s :=
  ⟨h, rfl, rfl, fun t _ _ => Keeps.refl w t⟩

theorem handles_changeCallbackCall (h : Sound w) (hs : s ∈ w.registered) (b : Bool) :
    Handles w (w.changeCallbackCall s b) s := by
  have hsound := h.changeCallbackCall hs b
  refine ⟨hsound, ?_, ?_, fun _ hne _ => keeps_changeCallbackCall b hne⟩
  · rw [changeCallbackCall_eq]
  · rw [changeCallbackCall_eq]

theorem handles_modifyAppSession (h : Sound w) {f : PcfAppSession → PcfAppSession}
    (hf : ∀ sess, (f sess).pcfSession = sess.pcfSession) :
    Handles w (modifyAppSession w s f) s :=
  ⟨h.modifyAppSession hf, rfl, rfl, fun _ hne _ => keeps_modifyAppSession hne⟩

theorem Handles.trans {v : Context} (h : Handles w v s) (h' : Handles v w' s) : Handles w w' s := by
  refine ⟨h'.sound, h'.posts.trans h.posts, h'.next.trans h.next, fun t hne hid => ?_⟩
  have hkept := h.others t hne hid
  refine hkept.trans (h'.others t hne ?_)
  rw [idOf, hkept.stored]
  exact hid

theorem handles_pcfAppSessRemove (h : Sound w) (ht : t ∈ w.registered)
    (hid : t = s ∨ (idOf w.appSessions t).isSome) (hok : pcfAppSessRemove w t = .ok w') :
    Handles w w' s := by
  obtain ⟨v, hout, hremoves⟩ := pcfAppSessRemove_spec h ht
  obtain rfl := Except.ok.inj (hout.symm.trans hok)
  refine ⟨hremoves.sound, hremoves.posts, hremoves.next, fun u hne hnone => hremoves.others u ?_⟩
  rintro rfl
  rcases hid with rfl | hsome
  · exact hne rfl
  · rw [hnone] at hsome
    cases hsome

theorem handles_pcfPolicyauthorizationCreate (h : Sound w) (hs : s ∈ w.registered)
    (rsp : SbiResponse) : Handles w (pcfPolicyauthorizationCreate w s rsp) s := by
  have hstore : ∀ context, Handles w
      (modifyAppSession w s fun sess => { sess with contextReceived := some context }) s :=
    fun context => handles_modifyAppSession h fun sess => rfl
  unfold pcfPolicyauthorizationCreate
  split
  · exact Handles.refl h s
  · exact Handles.refl h s
  · split
    · rename_i id context _ _
      dsimp only
      split
      · exact hstore context
      · exact hstore context
      · refine (hstore context).trans ((handles_modifyAppSession (hstore context).sound ?_).trans
          (handles_changeCallbackCall ?_ ?_ false))
        · exact fun sess => rfl
        · exact (hstore context).sound.modifyAppSession fun sess => rfl
        · exact hs
    · exact Handles.refl h s

theorem handles_pcfPolicyauthorizationDelete (h : Sound w)
    (hok : PcfHandlers.pcfPolicyauthorizationDelete w s = .ok w') : Handles w w' s := by
  obtain ⟨found, hfind, hout⟩ := bind_eq_ok.1 hok
  cases found with
  | none =>
      obtain rfl := Except.ok.inj hout
      exact Handles.refl h s
  | some t =>
      unfold pcfClientContextActiveSessionsExists at hfind
      split at hfind
      · cases hfind
      · split at hfind
        · cases hfind
        · rename_i session hsession
          obtain ⟨hmem, hid⟩ := findById_eq_some hfind
          have ht : t ∈ w.registered :=
            mem_registered.2 ⟨session, (pcfSession_eq_some hsession).1, hmem⟩
          exact handles_pcfAppSessRemove h ht (.inr hid) hout

theorem handles_processResponse (h : Sound w) (hs : s ∈ w.registered) {rsp : SbiResponse}
    (hok : processResponse w s rsp = .ok w') : Handles w w' s := by
  have hkept : ∀ {v : Context}, (.ok v : Except Fault Context) = .ok w' → Handles w v s →
      Handles w w' s := by
    intro v heq hv
    obtain rfl := Except.ok.inj heq
    exact hv
  unfold processResponse at hok
  split at hok
  · exact hkept hok (Handles.refl h s)
  · split at hok
    · exact hkept hok (Handles.refl h s)
    · split at hok
      · split at hok
        · exact hkept hok (Handles.refl h s)
        · split at hok
          · exact hkept hok (handles_pcfPolicyauthorizationCreate h hs rsp)
          · exact handles_pcfAppSessRemove h hs (.inl rfl) hok
      · split at hok
        · refine hkept hok ?_
          unfold pcfPolicyauthorizationSubscribeEvent
          split
          · exact handles_changeCallbackCall h hs false
          · split
            · exact handles_changeCallbackCall h hs false
            · exact handles_changeCallbackCall h hs true
        · exact handles_pcfPolicyauthorizationDelete h hok
        · exact hkept hok (Handles.refl h s)
        · split at hok
          · refine hkept hok ?_
            unfold pcfPolicyauthorizationUpdate
            split
            · exact handles_changeCallbackCall h hs false
            · exact Handles.refl h s
          · exact hkept hok (Handles.refl h s)

theorem handles_clientNotifyCb (h : Sound w) {c : Completion}
    (hok : clientNotifyCb w s c = .ok w') : Handles w w' s := by
  have hsame : (.ok w : Except Fault Context) = .ok w' → Handles w w' s := by
    intro heq
    obtain rfl := Except.ok.inj heq
    exact Handles.refl h s
  unfold clientNotifyCb processClientEvent at hok
  split at hok
  · split at hok
    · rename_i hexists
      have hs : s ∈ w.registered := List.contains_iff_mem.1 hexists
      split at hok
      · split at hok
        · exact handles_processResponse h hs hok
        · exact hsame hok
      · exact handles_pcfAppSessRemove h hs (.inl rfl) hok
      · exact handles_pcfAppSessRemove h hs (.inl rfl) hok
      · exact hsame hok
    · exact hsame hok
  · exact hsame hok

/-! ## The end of a creation -/

/-- An app session whose creation has not ended: it is there without an id and nothing was called,
or it was removed, which its callback was told. -/
def Pending (w : Context) (t : ℕ) : Prop :=
  (∃ sess, w.appSessions t = some sess ∧ sess.pcfAppSessionId = none ∧
    seen w t = [.created t sess.change]) ∨
  (t ∉ w.registered ∧ ∃ change, seen w t = changeCall t change true ++ [.created t change])

theorem Pending.of_keeps (h : Pending w t) (hkept : Keeps w w' t) : Pending w' t := by
  rw [Pending, hkept.stored, hkept.seen, hkept.registered]
  exact h

theorem not_toldOnce {callback : ℕ} {c : Completion} {o : Observation} (h : seen w s = [o]) :
    ¬ ToldOnce w s callback c := by
  rintro ⟨appSession, hseen, -⟩
  rw [h] at hseen
  cases hseen

theorem idOf_of_gone (h : Sound w) (hs : s ∉ w.registered) : idOf w.appSessions s = none := by
  cases hsess : w.appSessions s with
  | none => rw [idOf, hsess, Option.bind_none]
  | some sess => exact absurd (h.listed s (hsess ▸ rfl)) hs

theorem toldOnce_of_gone {callback : ℕ} {c : Completion} (h : Sound w) (hs : s ∉ w.registered)
    (hseen : seen w s = [.change s callback none, .created s (some callback)]) :
    ToldOnce w s callback c := by
  refine ⟨none, hseen, iff_of_false (fun heq => by cases heq) fun hstored => ?_,
    fun _ => ⟨rfl, hs⟩⟩
  rw [idOf_of_gone h hs] at hstored
  cases hstored.2

/-- A complete response stores the id and tells the application the app session; one that is
not leaves the application untold. -/
theorem pcfPolicyauthorizationCreate_spec {sess : PcfAppSession} (hs : w.appSessions s = some sess)
    (rsp : SbiResponse) :
    SbiResponse.complete rsp ∧ (idOf (pcfPolicyauthorizationCreate w s rsp).appSessions s).isSome ∧
        seen (pcfPolicyauthorizationCreate w s rsp) s = changeCall s sess.change false ++ seen w s ∨
      ¬ SbiResponse.complete rsp ∧ seen (pcfPolicyauthorizationCreate w s rsp) s = seen w s := by
  unfold pcfPolicyauthorizationCreate
  split
  · rename_i hnone
    refine .inr ⟨?_, rfl⟩
    rintro ⟨_, _, _, hsome, _⟩
    rw [hnone] at hsome
    cases hsome
  · rename_i hunparsable
    refine .inr ⟨?_, rfl⟩
    rintro ⟨_, _, _, hsome, _⟩
    rw [hunparsable] at hsome
    cases hsome
  · rename_i component hlocation
    split
    · rename_i id context hid hcontext
      dsimp only
      split
      · rename_i hreq
        refine .inr ⟨?_, rfl⟩
        rintro ⟨_, _, _, _, _, hsome⟩
        rw [hcontext, Option.some.injEq] at hsome
        rw [hsome] at hreq
        cases hreq
      · rename_i hreq
        refine .inr ⟨?_, rfl⟩
        rintro ⟨_, _, _, _, _, hsome⟩
        rw [hcontext, Option.some.injEq] at hsome
        rw [hsome] at hreq
        cases hreq
      · rename_i features hreq
        refine .inl ⟨⟨component, id, features, hlocation, hid, ?_⟩, ?_, ?_⟩
        · rw [hcontext]
          exact congrArg some (congrArg AppSessionContext.mk hreq)
        · rw [changeCallbackCall_eq]
          change (idOf ((w.appSessions.modify s _).modify s _) s).isSome
          simp [idOf, hs]
        · rw [seen_changeCallbackCall]
          change changeCall s ((((w.appSessions.modify s _).modify s _) s).bind _) false ++ seen w s = _
          simp [hs]
    · rename_i hmissing
      refine .inr ⟨?_, rfl⟩
      rintro ⟨_, id, features, hsome, hid, hcontext⟩
      rw [hlocation, Option.some.injEq, Location.parsed.injEq] at hsome
      subst hsome
      exact hmissing id _ hid hcontext

theorem processResponse_created (rsp : SbiResponse) :
    processResponse w s { rsp with header := createHeader } =
      if rsp.status = 201 then .ok (pcfPolicyauthorizationCreate w s rsp)
      else pcfAppSessRemove w s := rfl

/-- The end of a creation is told exactly when it is not dropped, or the app session was removed
before. -/
theorem clientNotifyCb_created {callback : ℕ} {c : Completion} (h : Sound w) (hs : Pending w s)
    (hseen : .created s (some callback) ∈ seen w s)
    (hok : clientNotifyCb w s { c with state := c.state.ofCreation } = .ok w') :
    ToldOnce w' s callback c ↔ (s ∈ w.registered → Completion.tells c) := by
  rcases hs with ⟨sess, hsess, hid, hlog⟩ | ⟨hgone, change, hlog⟩
  · have hregistered : s ∈ w.registered := h.listed s (hsess ▸ rfl)
    have hexists : w.appSessionExists s = true := List.contains_iff_mem.2 hregistered
    rw [imp_iff_right hregistered, Completion.tells]
    rw [hlog, List.mem_singleton, Observation.created.injEq] at hseen
    obtain ⟨-, hchange⟩ := hseen
    obtain ⟨v, hremove, hremoves⟩ := pcfAppSessRemove_spec h hregistered
    have hremoved : pcfAppSessRemove w s = .ok w' → ToldOnce w' s callback c := by
      intro hok
      obtain rfl := Except.ok.inj (hremove.symm.trans hok)
      refine toldOnce_of_gone hremoves.sound hremoves.gone ?_
      rw [hremoves.seen, hlog, hsess, Option.bind_some, ← hchange]
      rfl
    have hsame : (.ok w : Except Fault Context) = .ok w' → ¬ ToldOnce w' s callback c := by
      intro hok
      obtain rfl := Except.ok.inj hok
      exact not_toldOnce hlog
    unfold clientNotifyCb at hok
    cases hqueued : c.queued with
    | false =>
        simp only [hqueued, Bool.false_eq_true, if_false] at hok
        exact iff_of_false (hsame hok) fun htells => by cases htells.1
    | true =>
        simp only [hqueued, if_true, processClientEvent, hexists] at hok
        rw [and_iff_right rfl]
        cases hstate : c.state with
        | done =>
            simp only [hstate, SbiState.ofCreation] at hok
            exact iff_of_true (hremoved hok) trivial
        | other =>
            simp only [hstate, SbiState.ofCreation] at hok
            exact iff_of_true (hremoved hok) trivial
        | timeup =>
            simp only [hstate, SbiState.ofCreation] at hok
            exact iff_of_false (hsame hok) id
        | ok rsp =>
            simp only [hstate, SbiState.ofCreation] at hok
            change _ ↔ rsp.parsed = true ∧ (rsp.status = 201 → SbiResponse.complete rsp)
            cases hparsed : rsp.parsed with
            | false =>
                simp only [hparsed, Bool.false_eq_true, if_false] at hok
                exact iff_of_false (hsame hok) fun htells => Bool.false_ne_true htells.1
            | true =>
                rw [if_pos hparsed] at hok
                rw [and_iff_right rfl]
                have hout := (processResponse_created rsp).symm.trans hok
                by_cases hstatus : rsp.status = 201
                · rw [if_pos hstatus] at hout
                  obtain rfl := Except.ok.inj hout
                  rw [imp_iff_right hstatus]
                  rcases pcfPolicyauthorizationCreate_spec hsess rsp with
                    ⟨hcomplete, hstored, hseen⟩ | ⟨hmissing, hseen⟩
                  · refine iff_of_true ⟨some s, ?_, ?_, fun hne => absurd rfl hne⟩ hcomplete
                    · rw [hseen, hlog, ← hchange]
                      rfl
                    · exact iff_of_true rfl ⟨⟨rsp, hstate, hstatus⟩, hstored⟩
                  · exact iff_of_false (not_toldOnce (hseen.trans hlog)) hmissing
                · rw [if_neg hstatus] at hout
                  exact iff_of_true (hremoved hout) fun h201 => absurd h201 hstatus
  · refine iff_of_true ?_ fun hregistered => absurd hregistered hgone
    have hexists : w.appSessionExists s = false := by
      rw [Context.appSessionExists, ← Bool.not_eq_true, List.contains_iff_mem]
      exact hgone
    obtain rfl : w = w' := by
      unfold clientNotifyCb processClientEvent at hok
      rw [hexists] at hok
      simp only [Bool.false_eq_true, if_false, ite_self] at hok
      exact Except.ok.inj hok
    obtain rfl : change = some callback := by
      rw [hlog] at hseen
      rcases List.mem_append.1 hseen with hin | hin
      · cases change with
        | none => cases hin
        | some callback =>
            have := List.mem_singleton.1 hin
            cases this
      · have := List.mem_singleton.1 hin
        cases this
        rfl
    exact toldOnce_of_gone h hgone hlog

/-! ## Runs -/

structure Consistent (w : Context) : Prop where
  sound : Sound w
  nodup : w.posts.Nodup
  fresh : ∀ t ∈ w.posts, t < w.next
  pending : ∀ t ∈ w.posts, Pending w t

theorem Pending.idOf_eq_none (h : Sound w) (ht : Pending w t) : idOf w.appSessions t = none := by
  rcases ht with ⟨sess, hsess, hid, -⟩ | ⟨hgone, -⟩
  · rw [idOf, hsess, Option.bind_some, hid]
  · exact idOf_of_gone h hgone

/-- A client event for an app session keeps the pending ones, apart from its own. -/
theorem Consistent.clientNotifyCb (h : Consistent w) (hs : s ∉ w.posts) {c : Completion}
    (hok : clientNotifyCb w s c = .ok w') : Consistent w' := by
  have hhandles := handles_clientNotifyCb h.sound hok
  refine ⟨hhandles.sound, hhandles.posts ▸ h.nodup, fun t ht => ?_, fun t ht => ?_⟩
  · rw [hhandles.next]
    exact h.fresh t (hhandles.posts ▸ ht)
  · rw [hhandles.posts] at ht
    have hpending := h.pending t ht
    refine hpending.of_keeps (hhandles.others t ?_ (hpending.idOf_eq_none h.sound))
    rintro rfl
    exact hs ht

theorem Consistent.withoutPost (h : Consistent w) (s : ℕ) :
    Consistent { w with posts := w.posts.erase s } := by
  have hwf := h.sound.wellFormed
  exact ⟨⟨⟨hwf.sessions, hwf.nodup, hwf.owner, hwf.freshSessions, hwf.fresh⟩, h.sound.listed,
    h.sound.logged⟩, h.nodup.erase s, fun t ht => h.fresh t (List.mem_of_mem_erase ht),
    fun t ht => h.pending t (List.mem_of_mem_erase ht)⟩

theorem Consistent.step {e : Event} (h : Consistent w) (hok : step w e = .ok w') :
    Consistent w' := by
  cases e with
  | sessionNew =>
      obtain rfl := Except.ok.inj hok
      obtain ⟨hsound, hkeeps⟩ := sound_pcfSessionNew h.sound
      exact ⟨hsound, h.nodup, fun t ht => Nat.lt_succ_of_lt (h.fresh t ht),
        fun t ht => (h.pending t ht).of_keeps (hkeeps t)⟩
  | create p args sent =>
      obtain ⟨hsound, hkeeps, hlt, hstored, hposts, hseen⟩ :=
        pcfSessionCreateAppSession_spec h.sound hok
      have hfresh : ∀ t ∈ w.posts, t < w'.next := fun t ht => Nat.lt_trans (h.fresh t ht) hlt
      have hpending : ∀ t ∈ w.posts, Pending w' t := fun t ht =>
        (h.pending t ht).of_keeps (hkeeps t (Nat.ne_of_lt (h.fresh t ht)))
      cases sent with
      | false => exact ⟨hsound, hposts ▸ h.nodup, hposts ▸ hfresh, hposts ▸ hpending⟩
      | true =>
          rw [if_pos rfl] at hposts hseen
          refine ⟨hsound, ?_, ?_, ?_⟩
          · rw [hposts, List.nodup_append]
            refine ⟨h.nodup, List.nodup_singleton _, fun a ha b hb heq => ?_⟩
            rw [List.mem_singleton.1 hb] at heq
            exact absurd (h.fresh a ha) (heq ▸ Nat.lt_irrefl _)
          · rw [hposts]
            exact List.forall_mem_append.2 ⟨hfresh, List.forall_mem_singleton.2 hlt⟩
          · rw [hposts]
            refine List.forall_mem_append.2 ⟨hpending, List.forall_mem_singleton.2 (.inl ?_)⟩
            exact ⟨newAppSession p args, hstored, rfl, hseen⟩
  | created s c =>
      rw [PcfHandlers.step] at hok
      split at hok
      · exact (h.withoutPost s).clientNotifyCb h.nodup.not_mem_erase hok
      · obtain rfl := Except.ok.inj hok
        exact h
  | answered s c =>
      rw [PcfHandlers.step] at hok
      split at hok
      · obtain rfl := Except.ok.inj hok
        exact h
      · rename_i hs
        exact h.clientNotifyCb hs hok
  | sessionFree p =>
      obtain ⟨hsound, hposts, hnext, hall⟩ := pcfSessionFree_spec h.sound hok
      refine ⟨hsound, hposts ▸ h.nodup, ?_, ?_⟩
      · rw [hposts, hnext]
        exact h.fresh
      · rw [hposts]
        intro t ht
        have hpending := h.pending t ht
        rcases hall t with hkept | ⟨hin, hgone, hseen⟩
        · exact hpending.of_keeps hkept
        · rcases hpending with ⟨sess, hsess, -, hlog⟩ | ⟨hout, -⟩
          · refine .inr ⟨hgone, sess.change, ?_⟩
            rw [hseen, hsess, hlog, Option.bind_some]
          · exact absurd hin hout

/-- In one step the end of a creation is told exactly when it is not dropped. -/
theorem ends_told_iff {e : Event} (h : Consistent w) (hok : step w e = .ok w') :
    (∀ s callback c, Ends w e s callback c → ToldOnce w' s callback c) ↔
      ∀ s callback c, Ends w e s callback c → s ∈ w.registered → Completion.tells c := by
  refine forall_congr' fun s => forall_congr' fun callback => forall_congr' fun c =>
    forall_congr' fun hends => ?_
  obtain ⟨rfl, hs, hseen⟩ := hends
  rw [PcfHandlers.step, if_pos hs] at hok
  exact clientNotifyCb_created (w := { w with posts := w.posts.erase s }) (h.withoutPost s).sound
    (h.pending s hs) hseen hok

theorem consistent_init : Consistent {} :=
  ⟨⟨⟨List.nodup_nil, nofun, nofun, nofun, nofun⟩, nofun, nofun⟩, List.nodup_nil, nofun, nofun⟩

theorem reports_of_consistent {es : List Event} (h : Consistent w) :
    Reports w es ↔ NeverDropped w es := by
  induction es generalizing w with
  | nil => exact Iff.rfl
  | cons e es ih =>
      refine forall_congr' fun w' => forall_congr' fun hok => ?_
      rw [ends_told_iff h hok, ih (h.step hok)]

/-- From the start the application is told of each creation exactly when the end of none is
dropped while its app session is registered. -/
theorem creations_reported_iff (es : List Event) : Reports {} es ↔ NeverDropped {} es :=
  reports_of_consistent consistent_init

/-- A run comes upon well-formed contexts only. -/
theorem wellFormed_of_run {es : List Event} (h : es.foldlM step {} = .ok w) : WellFormed w := by
  have hconsistent := foldlM_ok_induction (fun _ => Consistent) (fun _ _ _ _ hv => hv.step) es {} w
    consistent_init h
  exact hconsistent.sound.wellFormed

/-- The first creation is answered with 201, but without a `Location`. -/
theorem unlocated_creation_is_not_reported :
    ¬ Reports {} [.sessionNew, .create 0 { changeCallback := some 7 } true,
      .created 1 { state := .ok { header := createHeader, status := 201 } }] := by
  intro h
  obtain ⟨-, h⟩ := h _ rfl
  obtain ⟨-, h⟩ := h _ rfl
  obtain ⟨h, -⟩ := h _ rfl
  have htold := h 1 7 _ ⟨rfl, List.mem_singleton_self _, List.mem_singleton_self _⟩
  exact not_toldOnce rfl htold

end ServiceConsumers.PcfCreations
