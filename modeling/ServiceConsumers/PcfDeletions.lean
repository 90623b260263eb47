import Mathlib.Data.List.Perm.Subperm
import ServiceConsumers.LinkedLists
import ServiceConsumers.PcfHandlers

set_option autoImplicit false

/-!
# Deleting an app session (`pcf_policyauthorization_delete`)

The handler takes the app session out of its list, has the change callback called, and frees the
app session, which takes it out of the list again. In between, the callback may create more.
-/

namespace ServiceConsumers.PcfDeletions

open ObjectStore PcfEvents PcfSessions LinkedLists

/-- The app sessions of one PCF session with the pointers of their list. What was freed is
listed from the latest. -/
structure Sessions where
  links : Links ℕ
  appSessions : Store PcfAppSession
  next : ℕ
  released : List ℕ := []

/-- `_pcf_app_session_new`, on this PCF session. -/
def appSessionNew (pcfSession : ℕ) (st : Sessions) (args : CreateArgs) : Sessions :=
  { st with
    links := st.links.add st.next
    appSessions := st.appSessions.set st.next
      { pcfSession := pcfSession
        change := args.changeCallback
        pcfEventNotifications := addEventNotification [] args.events args.notifyCallback
        contextRequested := eventsSubscCreate args.events }
    next := st.next + 1 }

/-- `_pcf_app_session_free`. -/
def appSessionFree (st : Sessions) (t : ℕ) : Sessions :=
  { st with
    links := st.links.remove t
    appSessions := st.appSessions.free t
    released := t :: st.released }

/-- What the change callback of an app session creates, if it has one. -/
def creations (m : Store PcfAppSession) (t : ℕ) (during : List CreateArgs) : List CreateArgs :=
  match (m t).bind PcfAppSession.change with
  | none => []
  | some _ => during

/-- `pcf_app_sess_remove`. -/
def appSessRemove (pcfSession : ℕ) (st : Sessions) (t : ℕ) (during : List CreateArgs) : Sessions :=
  appSessionFree ((creations st.appSessions t during).foldl (appSessionNew pcfSession) st) t

/-- `pcf_policyauthorization_delete`, where the callback creates these sessions. -/
def pcfPolicyauthorizationDelete (st : Sessions) (s : ℕ) (during : List CreateArgs) :
    Except Fault Sessions :=
  match st.appSessions s with
  | none => .error .useAfterFree
  | some appSess =>
      match findById st.appSessions appSess.pcfAppSessionId (st.links.membersAfter st.next none) with
      | .error f => .error f
      | .ok none => .ok st
      | .ok (some t) =>
          .ok (appSessRemove appSess.pcfSession { st with links := st.links.remove t } t during)

/-- The list is well formed and has these sessions, which are allocated. -/
structure Listed (st : Sessions) (xs : List ℕ) : Prop where
  holds : st.links.Holds xs
  live : ∀ t ∈ xs, (st.appSessions t).isSome
  fresh : ∀ t ∈ xs, t < st.next

/-- The numbers of the sessions that the callback creates. -/
def created (st : Sessions) (s : ℕ) (during : List CreateArgs) : List ℕ :=
  List.range' st.next (creations st.appSessions s during).length

/-- The session leaves the list and is freed, once; the sessions that the callback created follow
the others. -/
structure Deleted (st : Sessions) (xs : List ℕ) (s : ℕ) (during : List CreateArgs)
    (st' : Sessions) : Prop where
  listed : Listed st' (xs.erase s ++ created st s during)
  freed : st'.appSessions s = none
  released : st'.released = s :: st.released

/-- The session and those listed before it have different ids, and it is not the last of the
list when its callback creates a session. -/
def Deletable (st : Sessions) (xs : List ℕ) (s : ℕ) (during : List CreateArgs) : Prop :=
  (∃ id, idOf st.appSessions s = some id ∧
    ∀ t ∈ xs.takeWhile (· ≠ s), ∃ id', idOf st.appSessions t = some id' ∧ id' ≠ id) ∧
  (xs.getLast? = some s → creations st.appSessions s during = [])

variable {st st' : Sessions} {xs pre post : List ℕ} {s p : ℕ} {during : List CreateArgs}

theorem Listed.members (h : Listed st xs) : st.links.membersAfter st.next none = xs := by
  have hlength : xs.length ≤ (List.range st.next).length := by
    refine (h.holds.nodup.subperm fun t ht => ?_).length_le
    exact List.mem_range.2 (h.fresh t ht)
  rw [List.length_range] at hlength
  exact Links.Holds.membersAfter [] h.holds hlength

theorem released_appSessionsNew (args : List CreateArgs) :
    (args.foldl (appSessionNew p) st).released = st.released := by
  induction args generalizing st with
  | nil => rfl
  | cons arg args ih => exact ih

/-- What creating sessions does to a list that another session was taken out of. -/
theorem appSessionsNew_spec (h : Listed st xs) (hs : s ∉ xs) (hlt : s < st.next)
    (args : List CreateArgs) :
    Listed (args.foldl (appSessionNew p) st) (xs ++ List.range' st.next args.length) ∧
      (args.foldl (appSessionNew p) st).links.prev (some s) = st.links.prev (some s) ∧
      (args.foldl (appSessionNew p) st).links.next (some s) = st.links.next (some s) := by
  induction args generalizing st xs with
  | nil =>
      rw [List.length_nil, List.range'_zero, List.append_nil]
      exact ⟨h, rfl, rfl⟩
  | cons arg args ih =>
      have hnew : st.next ∉ xs := fun hin => absurd (h.fresh _ hin) (Nat.lt_irrefl _)
      have hlisted : Listed (appSessionNew p st arg) (xs ++ [st.next]) := by
        refine ⟨h.holds.add hnew, fun t ht => ?_, fun t ht => ?_⟩
        · change (st.appSessions.set st.next _ t).isSome
          rw [Store.set_apply]
          split
          · rfl
          · rename_i hne
            rcases List.mem_append.1 ht with ht | ht
            · exact h.live t ht
            · exact absurd (List.mem_singleton.1 ht) hne
        · change t < st.next + 1
          rcases List.mem_append.1 ht with ht | ht
          · exact Nat.lt_succ_of_lt (h.fresh t ht)
          · rw [List.mem_singleton.1 ht]
            exact Nat.lt_succ_self _
      have hs' : s ∉ xs ++ [st.next] := by
        rw [List.mem_append, List.mem_singleton, not_or]
        exact ⟨hs, Nat.ne_of_lt hlt⟩
      obtain ⟨hrest, hprev, hnext⟩ := ih hlisted hs' (Nat.lt_succ_of_lt hlt)
      obtain ⟨hprev', hnext'⟩ := h.holds.neighbours_add hs (Nat.ne_of_lt hlt)
      rw [List.append_assoc] at hrest
      rw [List.foldl_cons, List.length_cons, List.range'_succ]
      exact ⟨hrest, hprev.trans hprev', hnext.trans hnext'⟩

theorem delete_eq (h : Listed st xs) {appSess : PcfAppSession}
    (hs : st.appSessions s = some appSess) :
    pcfPolicyauthorizationDelete st s during =
      match findById st.appSessions appSess.pcfAppSessionId xs with
      | .error f => .error f
      | .ok none => .ok st
      | .ok (some t) =>
          .ok (appSessRemove appSess.pcfSession { st with links := st.links.remove t } t during) := by
  simp only [pcfPolicyauthorizationDelete, hs, h.members]

theorem released_appSessRemove {t : ℕ} :
    (appSessRemove p st t during).released = t :: st.released :=
  congrArg (t :: ·) (released_appSessionsNew _)

/-- The second removal does nothing, or cuts off what the callback created. -/
theorem appSessRemove_spec (h : Listed st (pre ++ s :: post)) (during : List CreateArgs) :
    (post ≠ [] ∨ creations st.appSessions s during = [] →
      Listed (appSessRemove p { st with links := st.links.remove s } s during)
        (pre ++ post ++ created st s during)) ∧
      (post = [] →
        (appSessRemove p { st with links := st.links.remove s } s during).links.Holds pre) := by
  have hout : Listed { st with links := st.links.remove s } (pre ++ post) := by
    have hsub : pre ++ post ⊆ pre ++ s :: post :=
      (List.Sublist.append_left (List.sublist_cons_self s post) pre).subset
    exact ⟨h.holds.remove, fun t ht => h.live t (hsub ht), fun t ht => h.fresh t (hsub ht)⟩
  have hnodup := List.nodup_middle.1 h.holds.nodup
  have hs : s ∉ pre ++ post := (List.nodup_cons.1 hnodup).1
  have hlt : s < st.next := h.fresh s (List.mem_append_right pre List.mem_cons_self)
  obtain ⟨hlisted, hprev, hnext⟩ := appSessionsNew_spec (p := p) hout hs hlt
    (creations st.appSessions s during)
  obtain ⟨hprev', hnext'⟩ := h.holds.neighbours_remove
  refine ⟨fun hstill => ?_, fun hpost => ?_⟩
  · have hsame := Links.Holds.remove_again (hprev.trans hprev') (hnext.trans hnext')
      (created st s during) (by rw [← List.append_assoc]; exact hlisted.holds)
      (hstill.imp id fun hnone => by rw [created, hnone]; rfl)
    refine ⟨?_, fun t ht => ?_, hlisted.fresh⟩
    · change Links.Holds (Links.remove _ s) _
      rw [hsame]
      exact hlisted.holds
    · have hne : t ≠ s := by
        rintro rfl
        rcases List.mem_append.1 ht with ht | ht
        · exact hs ht
        · exact absurd (List.mem_range'_1.1 ht).1 (Nat.not_le.2 hlt)
      change (Store.free _ s t).isSome
      rw [Store.free_of_ne _ _ _ hne]
      exact hlisted.live t ht
  · subst hpost
    refine Links.Holds.remove_last_again (hprev.trans hprev') (hnext.trans hnext')
      (created st s during) ?_ rfl
    have hholds := hlisted.holds
    rw [List.append_nil] at hholds
    exact hholds

/-- The search stops at the session itself exactly when it and those before it have different
ids. -/
theorem findById_self_iff (h : Listed st xs) (hs : s ∈ xs) {appSess : PcfAppSession}
    (hsess : st.appSessions s = some appSess) :
    findById st.appSessions appSess.pcfAppSessionId xs = .ok (some s) ↔
      ∃ id, idOf st.appSessions s = some id ∧
        ∀ t ∈ xs.takeWhile (· ≠ s), ∃ id', idOf st.appSessions t = some id' ∧ id' ≠ id := by
  have hown : idOf st.appSessions s = appSess.pcfAppSessionId := by
    rw [idOf, hsess, Option.bind_some]
  cases hid : appSess.pcfAppSessionId with
  | none =>
      refine iff_of_false (fun hfind => ?_) (fun hall => ?_)
      · obtain ⟨t, ts, rfl⟩ := List.exists_cons_of_ne_nil (List.ne_nil_of_mem hs)
        obtain ⟨first, hfirst⟩ := Option.isSome_iff_exists.1 (h.live t List.mem_cons_self)
        simp only [findById, hfirst] at hfind
        cases hfind
      · obtain ⟨id, hsome, -⟩ := hall
        rw [hown, hid] at hsome
        cases hsome
  | some id =>
      rw [hid] at hown
      have hfind := findById_eq_iff hown h.live
      rw [if_pos hs] at hfind
      rw [hfind, hown]
      simp only [Option.some.injEq, exists_eq_left']

/-- The deletion of a listed app session removes just that one, and once, exactly when it is
found by its id and its second removal comes upon the neighbours of the first. -/
theorem deletes_exactly_iff (h : Listed st xs) (hs : s ∈ xs) (during : List CreateArgs) :
    (∃ st', pcfPolicyauthorizationDelete st s during = .ok st' ∧ Deleted st xs s during st') ↔
      Deletable st xs s during := by
  obtain ⟨appSess, hsess⟩ := Option.isSome_iff_exists.1 (h.live s hs)
  obtain ⟨pre, post, hcut⟩ := List.append_of_mem hs
  have hlisted := h
  rw [hcut] at hlisted
  have hnodup := List.nodup_cons.1 (List.nodup_middle.1 hlisted.holds.nodup)
  have hpre : s ∉ pre := fun hin => hnodup.1 (List.mem_append_left post hin)
  have herase : xs.erase s = pre ++ post := by
    rw [hcut, List.erase_append_right _ hpre, List.erase_cons_head]
  have hlast : xs.getLast? = some s ↔ post = [] := by
    rw [hcut]
    constructor
    · intro heq
      by_contra hne
      rw [← List.singleton_append, ← List.append_assoc, List.getLast?_append_of_ne_nil _ hne] at heq
      exact hnodup.1 (List.mem_append_right pre (List.mem_of_getLast? heq))
    · rintro rfl
      exact List.getLast?_concat
  have hspec := appSessRemove_spec (p := appSess.pcfSession) hlisted during
  rw [delete_eq h hsess, Deletable, ← findById_self_iff h hs hsess, hlast]
  constructor
  · rintro ⟨st', hdelete, hdeleted⟩
    have hfound : findById st.appSessions appSess.pcfAppSessionId xs = .ok (some s) := by
      cases hfind : findById st.appSessions appSess.pcfAppSessionId xs with
      | error f =>
          rw [hfind] at hdelete
          cases hdelete
      | ok found =>
          rw [hfind] at hdelete
          cases found with
          | none =>
              obtain rfl := Except.ok.inj hdelete
              exact absurd hdeleted.released.symm (List.cons_ne_self s _)
          | some t =>
              obtain rfl := Except.ok.inj hdelete
              have hreleased := hdeleted.released
              rw [released_appSessRemove] at hreleased
              rw [(List.cons.inj hreleased).1]
    refine ⟨hfound, fun hpost => ?_⟩
    rw [hfound] at hdelete
    obtain rfl := Except.ok.inj hdelete
    have hsame := (hspec.2 hpost).unique hdeleted.listed.holds
    rw [herase, hpost, List.append_nil] at hsame
    have hnone : created st s during = [] := List.self_eq_append_right.1 hsame
    rw [created, List.range'_eq_nil_iff] at hnone
    exact List.eq_nil_of_length_eq_zero hnone
  · rintro ⟨hfound, hstill⟩
    rw [hfound]
    refine ⟨_, rfl, ?_, Store.free_self _ _, released_appSessRemove⟩
    rw [herase]
    refine hspec.1 ?_
    by_cases hpost : post = []
    · exact .inr (hstill hpost)
    · exact .inl hpost

/-! ## The deletion of the machine -/

/-- The list of a PCF session of the context, with its pointers. -/
structure Pictures (st : Sessions) (w : Context) (p : ℕ) : Prop where
  listed : ∃ session, w.pcfSession p = some session ∧ Listed st session.pcfAppSessions
  appSessions : st.appSessions = w.appSessions

theorem creations_nil (m : Store PcfAppSession) (t : ℕ) : creations m t [] = [] := by
  rw [creations]
  split <;> rfl

/-- What the machine leaves of the list when the app session is removed. -/
theorem lists_of_removed {w w' : Context} {t : ℕ} {appSess : PcfAppSession} {session : PcfSession}
    (h : PcfSessions.WellFormed w) (ht : w.appSessions t = some appSess)
    (hsession : w.pcfSession appSess.pcfSession = some session)
    (hremove : pcfAppSessRemove w t = .ok w') :
    w'.appSessions = w.appSessions.free t ∧ w'.pcfSession appSess.pcfSession =
      some { session with pcfAppSessions := session.pcfAppSessions.erase t } := by
  have hcall : (w.changeCallbackCall t true).pcfSessions = w.pcfSessions ∧
      (w.changeCallbackCall t true).appSessions = w.appSessions := by
    rw [PcfHandlers.changeCallbackCall_eq]
    exact ⟨rfl, rfl⟩
  have herase := PcfHandlers.pcfSession_erase h ht appSess.pcfSession
  rw [hsession] at herase
  have hcalled : (w.changeCallbackCall t true).pcfSession appSess.pcfSession = some session := by
    rw [Context.pcfSession, hcall.1]
    exact hsession
  rw [pcfAppSessRemove, pcfAppSessionFree, hcall.2, ht] at hremove
  simp only [hcalled] at hremove
  obtain rfl := Except.ok.inj hremove
  refine ⟨rfl, Eq.trans ?_ herase⟩
  simp only [Context.pcfSession, Context.modifyPcfSession, hcall.1]

/-- What the pointers say when the app session is removed and its callback creates nothing. -/
theorem Listed.removed {t : ℕ} (h : Listed st xs) (ht : t ∈ xs) :
    Listed (appSessRemove p { st with links := st.links.remove t } t []) (xs.erase t) := by
  obtain ⟨pre, post, rfl⟩ := List.append_of_mem ht
  have hpre : t ∉ pre := fun hmem =>
    (List.nodup_cons.1 (List.nodup_middle.1 h.holds.nodup)).1 (List.mem_append_left post hmem)
  have hleft := (appSessRemove_spec (p := p) h []).1 (.inr (creations_nil st.appSessions t))
  rw [created, creations_nil, List.length_nil, List.range'_zero, List.append_nil] at hleft
  rw [List.erase_append_right _ hpre, List.erase_cons_head]
  exact hleft

/-- Where the callback creates nothing, the second removal does nothing and the handler of the
machine is this one. -/
theorem Pictures.delete {w w' : Context} {appSess : PcfAppSession} (h : PcfSessions.WellFormed w)
    (hs : w.appSessions s = some appSess) (hpict : Pictures st w appSess.pcfSession)
    (hdelete : PcfHandlers.pcfPolicyauthorizationDelete w s = .ok w') :
    ∃ st', pcfPolicyauthorizationDelete st s [] = .ok st' ∧ Pictures st' w' appSess.pcfSession := by
  obtain ⟨⟨session, hsession, hlisted⟩, hstore⟩ := hpict
  obtain ⟨found, hfound, hrest⟩ := TransitionRuns.bind_eq_ok.1 hdelete
  simp only [pcfClientContextActiveSessionsExists, hs, hsession] at hfound
  rw [← hstore] at hfound
  rw [delete_eq hlisted (hstore ▸ hs), hfound]
  cases found with
  | none =>
      obtain rfl := Except.ok.inj hrest
      exact ⟨st, rfl, ⟨session, hsession, hlisted⟩, hstore⟩
  | some t =>
      have ht := (findById_eq_some hfound).1
      obtain ⟨hin, hown⟩ := pcfSession_eq_some hsession
      obtain ⟨tsess, htsess, howner⟩ := h.owner session hin t ht
      rw [hown] at howner
      rw [← howner] at hsession ⊢
      obtain ⟨hstored, hlists⟩ := lists_of_removed h htsess hsession hrest
      refine ⟨_, rfl, ⟨_, hlists, hlisted.removed ht⟩, ?_⟩
      rw [hstored, ← hstore]
      change Store.free _ t = _
      rw [creations_nil]
      rfl

/-! ## Two app sessions -/

def listedSessions : Sessions :=
  { links := (Links.empty.add 1).add 2
    appSessions :=
      (Store.empty.set 1 { pcfSession := 0, pcfAppSessionId := some "a", change := some 7 }).set 2
        { pcfSession := 0, pcfAppSessionId := some "b", change := some 7 }
    next := 3 }

theorem listed_listedSessions : Listed listedSessions [1, 2] := by
  have hfirst : (Links.empty.add 1).Holds [1] := Links.holds_empty.add List.not_mem_nil
  refine ⟨hfirst.add (by decide), fun t ht => ?_, by decide⟩
  rcases List.mem_pair.1 ht with rfl | rfl
  · rfl
  · rfl

/-- The callback creates a session while the first of the two is deleted. -/
theorem first_session_is_deleted :
    ∃ st', pcfPolicyauthorizationDelete listedSessions 1 [{}] = .ok st' ∧
      Deleted listedSessions [1, 2] 1 [{}] st' := by
  refine (deletes_exactly_iff listed_listedSessions (by decide) [{}]).2 ⟨⟨"a", rfl, nofun⟩, ?_⟩
  intro hlast
  cases hlast

/-- The callback creates a session while the last of the two is deleted: the new session is in
the list no more. -/
theorem created_session_is_lost :
    ¬ ∃ st', pcfPolicyauthorizationDelete listedSessions 2 [{}] = .ok st' ∧
      Deleted listedSessions [1, 2] 2 [{}] st' := by
  rintro ⟨st', hdelete, hdeleted⟩
  have hout : pcfPolicyauthorizationDelete listedSessions 2 [{}] = .ok (appSessRemove 0
      { listedSessions with links := listedSessions.links.remove 2 } 2 [{}]) := rfl
  obtain rfl := Except.ok.inj (hout.symm.trans hdelete)
  have hlisted : Listed listedSessions ([1] ++ 2 :: []) := listed_listedSessions
  have hcut := (appSessRemove_spec (p := 0) hlisted [{}]).2 rfl
  have hholds := hcut.unique hdeleted.listed.holds
  cases hholds

end ServiceConsumers.PcfDeletions
