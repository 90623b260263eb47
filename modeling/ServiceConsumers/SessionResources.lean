import ServiceConsumers.Quiescence
import ServiceConsumers.SbiReferences
import ServiceConsumers.SessionLifetime
import ServiceConsumers.TmgiSteps

set_option autoImplicit false

/-!
# The resources of a session

A session knows one resource of the MB-SMF, the one its id names. Whether to create one is
decided from the copy that the last answer left, not from the requests that wait for theirs.
-/

namespace ServiceConsumers.SessionResources

open ObjectStore PublicSessions ConsumerState TmgiOperations SubscriptionOperations
  SessionOperations ResponseHandlers ProcessEvent TransitionRuns TransactionLog TmgiEffects
  SessionEffects PushEffects AnswerEffects EventEffects StepDecomposition RunInvariants
  SessionLifetime Quiescence TmgiSteps

/-! ## The law -/

/-- The create requests of a session among some transactions. -/
def createsOf (s : Ref) (xs : List Xact) : List Xact :=
  xs.filter fun x => x.requester = .session s && x.request.isCreate

/-- The MB-SMF answered to a create request of the session that it created the resource. -/
def CreatedFor (s : Ref) (id : String) (log : List Observation) : Prop :=
  ∃ x rsp, .answered x rsp ∈ log ∧ x.request.isCreate = true ∧ x.requester = .session s ∧
    isSuccess rsp.status = true ∧ createdId rsp = some id

def NamedBy (w : World) (s : Ref) (id : String) : Prop :=
  ∃ y, w.sessionStore s = some y ∧ y.id = some id

def DeleteSent (w : World) (id : String) : Prop :=
  ∃ x, .sent x ∈ w.log ∧ x.request = .remove (some id)

/-- No session has two create requests outstanding, and every resource that was created for a
session is the one that it names, or one that it asked to delete. -/
structure OneResource (w : World) : Prop where
  outstanding : ∀ s, (createsOf s w.xacts).length ≤ 1
  named : ∀ s id, CreatedFor s id w.log → NamedBy w s id ∨ DeleteSent w id

/-! ## The condition -/

/-- The address or the TMGI is not that of the copy. -/
def Readdressed (w : World) (y : MbsSession) : Prop :=
  ∃ previous, y.previousSession = some previous ∧
    mbsSessionPublicEqual w previous y.session = .ok false ∧
    (ssmEqual previous.ssm y.session.ssm = false ∨
      tmgiPointersEqual w previous.tmgi y.session.tmgi = .ok false)

/-- Pushing the changes of the session sends a create request. -/
def PushCreates (w : World) (y : MbsSession) : Prop :=
  y.deleted = false ∧ (y.previousSession = none ∨ Readdressed w y)

def Pushes (w : World) (e : Event) (s : Ref) : Prop :=
  e = .session (.pushChanges s) ∨ e = .session .pushAllChanges ∧ s ∈ w.mbsSessions

/-- No push creates while a create request is outstanding, the answer to a create request
reaches its session, which has given up the resource it had, and so has a session that
leaves. -/
structure CreatesOnce (w : World) (e : Event) : Prop where
  pushed : ∀ s y, Pushes w e s → w.sessionStore s = some y → PushCreates w y →
    createsOf s w.xacts = []
  answered : ∀ n rsp x id, e = .network (.response n rsp) → w.findSent n = some x →
    x.request.isCreate = true → isSuccess rsp.status = true → createdId rsp = some id →
    ∃ s, x.requester = .session s ∧ Answers w n rsp x s ∧
      ∀ old, NamedBy w s old → old = id ∨ DeleteSent w old
  left : ∀ n rsp x s r id, e = .network (.response n rsp) → Answers w n rsp x s →
    x.request = .remove (some r) → r ≠ "subscriptions" → NamedBy w s id → DeleteSent w id

variable {w w' v v' : World} {e : Event} {s q : Ref} {n : ℕ} {rsp : Response} {x : Xact}

/-! ## Outstanding create requests -/

/-- The transactions that do not wait for the answer that an event brings. -/
def elsewhere (e : Event) (xs : List Xact) : List Xact :=
  match e with
  | .network (.response n _) => xs.filter fun x => x.id ≠ n
  | _ => xs

theorem elsewhere_append (e : Event) (xs ys : List Xact) :
    elsewhere e (xs ++ ys) = elsewhere e xs ++ elsewhere e ys := by
  unfold elsewhere
  split
  · exact List.filter_append ..
  · rfl

theorem elsewhere_sublist (e : Event) (xs : List Xact) : (elsewhere e xs).Sublist xs := by
  unfold elsewhere
  split
  · exact List.filter_sublist
  · exact List.Sublist.refl _

theorem elsewhere_mono {xs ys : List Xact} (h : xs.Sublist ys) :
    (elsewhere e xs).Sublist (elsewhere e ys) := by
  unfold elsewhere
  split
  · exact h.filter _
  · exact h

theorem createsOf_append (s : Ref) (xs ys : List Xact) :
    createsOf s (xs ++ ys) = createsOf s xs ++ createsOf s ys := List.filter_append ..

theorem createsOf_eq_nil {xs : List Xact}
    (h : ∀ x ∈ xs, x.requester = .session s → x.request.isCreate = false) :
    createsOf s xs = [] := by
  refine List.filter_eq_nil_iff.2 fun x hx hcond => ?_
  rw [Bool.and_eq_true, decide_eq_true_iff] at hcond
  rw [h x hx hcond.1] at hcond
  cases hcond.2

/-- Nothing that is sent on the way is a create request of the session. -/
theorem creates_of_extends {A : Observation → Prop} (h : Extends A w w')
    (hA : ∀ x, A (.sent x) → x.requester = .session s → x.request.isCreate = false) :
    (createsOf s (elsewhere e w'.xacts)).Sublist (createsOf s (elsewhere e w.xacts)) := by
  obtain ⟨⟨new, -, hnew, hsub, -⟩, -⟩ := h
  have hnone : createsOf s (elsewhere e (sentOf new)) = [] :=
    createsOf_eq_nil fun x hx => hA x (hnew _ (mem_sentOf.1 ((elsewhere_sublist e _).subset hx)))
  have hall := (elsewhere_mono (e := e) hsub).filter
    fun x => x.requester = .session s && x.request.isCreate
  change (createsOf s _).Sublist (createsOf s _) at hall
  rwa [elsewhere_append, createsOf_append, hnone, List.append_nil] at hall

theorem creates_of_tmgi (h : Extends TmgiObservation w w') :
    (createsOf s (elsewhere e w'.xacts)).Sublist (createsOf s (elsewhere e w.xacts)) := by
  refine creates_of_extends h fun x hx _ => ?_
  change x.request.isTmgi = true at hx
  cases hrequest : x.request with
  | create carried embedded =>
      rw [hrequest] at hx
      cases hx
  | _ => rfl

theorem isCreate_of_subscription {r : Request} (h : IsSubscriptionRequest r) :
    r.isCreate = false := by
  cases r with
  | create carried embedded => exact h.elim
  | _ => rfl

/-- The pushes of other sessions. -/
theorem creates_of_push_other (hne : q ≠ s) (h : mbsSessionPushChanges w q = .ok w') :
    (createsOf s (elsewhere e w'.xacts)).Sublist (createsOf s (elsewhere e w.xacts)) := by
  refine creates_of_extends (pushEffect_mbsSessionPushChanges h).log fun x hx hrequester => ?_
  rcases hx with ⟨hrequester', -⟩ | hsubscription
  · rw [hrequester', Requester.session.injEq] at hrequester
    exact absurd hrequester hne
  · exact isCreate_of_subscription hsubscription

theorem creates_of_sendRemove (h : mbsSessionSendRemove w s = .ok w') :
    (createsOf s (elsewhere e w'.xacts)).Sublist (createsOf s (elsewhere e w.xacts)) := by
  have heffect : PushEffect (fun o => ∀ x, o = .sent x → x.request.isCreate = false) s w w' := by
    refine pushEffect_mbsSessionSendRemove (fun n o y _ x hx => ?_) h
    rw [Observation.sent.injEq] at hx
    exact hx ▸ rfl
  exact creates_of_extends heffect.log fun x hx _ => hx x rfl

theorem creates_of_sendCreate (h : mbsSessionSendCreate w s = .ok w') :
    (createsOf s (elsewhere e w'.xacts)).length ≤ (createsOf s (elsewhere e w.xacts)).length + 1 := by
  obtain ⟨y, o, carried, embedded, counts, next, -, -, -, -, -, rfl⟩ := mbsSessionSendCreate_eq_ok h
  have hone : (createsOf s (elsewhere e [⟨next, o, .session s, .create carried embedded⟩])).length ≤ 1 :=
    ((List.filter_sublist (l := elsewhere e _)).trans (elsewhere_sublist e _)).length_le
  change (createsOf s (elsewhere e (w.xacts ++ _))).length ≤ _
  rw [elsewhere_append, createsOf_append, List.length_append]
  omega

theorem creates_of_subscriptionsUpdate (h : mbsSessionSubscriptionsUpdate w s = .ok w') :
    (createsOf s (elsewhere e w'.xacts)).Sublist (createsOf s (elsewhere e w.xacts)) :=
  creates_of_extends (pushEffect_mbsSessionSubscriptionsUpdate h).log
    fun _ hx _ => isCreate_of_subscription hx

theorem pushCreates_of_create {y : MbsSession} (h : pushDecision w y = .ok .create) :
    PushCreates w y := by
  unfold pushDecision at h
  split at h
  · cases h
  · rename_i hdeleted
    refine ⟨Bool.eq_false_iff.2 hdeleted, ?_⟩
    split at h
    · exact .inl ‹_›
    · simp only [bind_eq_ok] at h
      obtain ⟨equal, -, h⟩ := h
      cases equal with
      | true => cases h
      | false =>
          simp only [Bool.false_eq_true, if_false] at h
          split at h
          · cases h
          · obtain ⟨same, -, h⟩ := bind_eq_ok.1 h
            cases same <;> cases h

theorem pushCreates_of_recreate {y : MbsSession} {removeFirst : Bool}
    (h : pushDecision w y = .ok (.recreate removeFirst)) : PushCreates w y := by
  unfold pushDecision at h
  split at h
  · cases h
  · rename_i hdeleted
    refine ⟨Bool.eq_false_iff.2 hdeleted, ?_⟩
    split at h
    · cases h
    · rename_i previous hprevious
      simp only [bind_eq_ok] at h
      obtain ⟨equal, hequal, h⟩ := h
      cases equal with
      | true => cases h
      | false =>
          refine .inr ⟨previous, hprevious, hequal, ?_⟩
          simp only [Bool.false_eq_true, if_false] at h
          split at h
          · rename_i hssm
            exact .inl (by simpa using hssm)
          · obtain ⟨same, hsame, h⟩ := bind_eq_ok.1 h
            cases same with
            | true => cases h
            | false => exact .inr hsame

/-- A push of the session sends one create request at most, and none unless it decides to. -/
theorem creates_of_push (h : mbsSessionPushChanges w s = .ok w') :
    ∃ y, w.sessionStore s = some y ∧
      (createsOf s (elsewhere e w'.xacts)).length ≤ (createsOf s (elsewhere e w.xacts)).length + 1 ∧
      (¬ PushCreates w y →
        (createsOf s (elsewhere e w'.xacts)).Sublist (createsOf s (elsewhere e w.xacts))) := by
  obtain ⟨y, decision, hy, hdecision, hrun⟩ := mbsSessionPushChanges_eq_ok.1 h
  refine ⟨y, hy, ?_⟩
  have hquiet : (createsOf s (elsewhere e w'.xacts)).Sublist (createsOf s (elsewhere e w.xacts)) →
      (createsOf s (elsewhere e w'.xacts)).length ≤
          (createsOf s (elsewhere e w.xacts)).length + 1 ∧
        (¬ PushCreates w y →
          (createsOf s (elsewhere e w'.xacts)).Sublist (createsOf s (elsewhere e w.xacts))) :=
    fun hsub => ⟨hsub.length_le.trans (Nat.le_succ _), fun _ => hsub⟩
  cases decision with
  | remove => exact hquiet (creates_of_sendRemove hrun)
  | create => exact ⟨creates_of_sendCreate hrun, fun hnot => absurd (pushCreates_of_create hdecision) hnot⟩
  | recreate removeFirst =>
      refine ⟨?_, fun hnot => absurd (pushCreates_of_recreate hdecision) hnot⟩
      simp only [PushDecision.carryOut, removeAndCreate, bind_eq_ok] at hrun
      obtain ⟨v, hv, hrun⟩ := hrun
      have hremove : (createsOf s (elsewhere e v.xacts)).Sublist (createsOf s (elsewhere e w.xacts)) := by
        split at hv
        · exact creates_of_sendRemove hv
        · exact Except.ok.inj hv ▸ List.Sublist.refl _
      have hlength := hremove.length_le
      have hcreate := creates_of_sendCreate (e := e) hrun
      omega
  | update =>
      simp only [PushDecision.carryOut, bind_eq_ok] at hrun
      obtain ⟨v, hv, hrun⟩ := hrun
      have heffect : PushEffect (fun o => ∀ x, o = .sent x → x.request.isCreate = false) s w v := by
        refine pushEffect_mbsSessionSendUpdate (fun n o y patches carried _ _ x hx => ?_) hv
        rw [Observation.sent.injEq] at hx
        exact hx ▸ rfl
      exact hquiet ((creates_of_subscriptionsUpdate hrun).trans
        (creates_of_extends heffect.log fun x hx _ => hx x rfl))
  | unchanged => exact hquiet (creates_of_subscriptionsUpdate hrun)

/-! ## Pushes in their places -/

/-- The sessions that are pushed before it leave a session and its requests as they were. -/
theorem before_push {before : List Ref} (hnot : s ∉ before)
    (h : before.foldlM mbsSessionPushChanges w = .ok v) :
    v.sessionStore s = w.sessionStore s ∧ v.tmgiStore = w.tmgiStore ∧
      (createsOf s (elsewhere e v.xacts)).Sublist (createsOf s (elsewhere e w.xacts)) := by
  refine (foldlM_ok_induction (fun rest v => s ∉ rest ∧ v.sessionStore s = w.sessionStore s ∧
    v.tmgiStore = w.tmgiStore ∧ (createsOf s (elsewhere e v.xacts)).Sublist
      (createsOf s (elsewhere e w.xacts))) ?_ before w v
    ⟨hnot, rfl, rfl, List.Sublist.refl _⟩ h).2
  intro q rest v v' ⟨hnot, hstore, htmgi, hsub⟩ hrun
  rw [List.mem_cons, not_or] at hnot
  have heffect := pushEffect_mbsSessionPushChanges hrun
  exact ⟨hnot.2, (heffect.others s hnot.1).trans hstore, heffect.tmgiStore.trans htmgi,
    (creates_of_push_other (Ne.symm hnot.1) hrun).trans hsub⟩

theorem readdressed_congr (h : v.tmgiStore = w.tmgiStore) {y : MbsSession} :
    Readdressed v y ↔ Readdressed w y := by
  simp only [Readdressed, mbsSessionPublicEqual, tmgiPointersEqual, World.sessionContent,
    tmgiContent_congr h]

theorem pushCreates_congr (h : v.tmgiStore = w.tmgiStore) {y : MbsSession}
    (hy : PushCreates v y) : PushCreates w y :=
  ⟨hy.1, hy.2.imp_right (readdressed_congr h).1⟩

theorem createdId_of_parse (h : nmbsmfMbsSessionParse w s rsp = .ok (w', true)) :
    ∃ id, createdId rsp = some id := by
  obtain ⟨y, -, ⟨hfalse, -⟩ | ⟨id, hlocation, -⟩⟩ := nmbsmfMbsSessionParse_eq_ok h
  · cases hfalse
  · exact ⟨id, by rw [createdId, hlocation]⟩

/-- The create request whose answer is handled was the only one. -/
theorem creates_of_answered (hone : ∀ s, (createsOf s w.xacts).length ≤ 1)
    (hx : w.findXact n = some x) (hcreate : x.request.isCreate = true)
    (hrequester : x.requester = .session s) :
    createsOf s (elsewhere (.network (.response n rsp)) w.xacts) = [] := by
  obtain ⟨hmem, hid⟩ := findXact_eq_some hx
  have hin : x ∈ createsOf s w.xacts :=
    List.mem_filter.2 ⟨hmem, by rw [hrequester, hcreate]; simp⟩
  refine List.eq_nil_iff_forall_not_mem.2 fun y hy => ?_
  obtain ⟨hy, hcond⟩ := List.mem_filter.1 hy
  obtain ⟨hy, hne⟩ := List.mem_filter.1 hy
  have hyin : y ∈ createsOf s w.xacts := List.mem_filter.2 ⟨hy, hcond⟩
  have hyx : y = x := by
    obtain ⟨z, hz⟩ | hnil : (∃ z, createsOf s w.xacts = [z]) ∨ createsOf s w.xacts = [] := by
      have hlength := hone s
      cases hlist : createsOf s w.xacts with
      | nil => exact .inr rfl
      | cons z zs =>
          rw [hlist, List.length_cons] at hlength
          obtain rfl := List.eq_nil_of_length_eq_zero (by omega : zs.length = 0)
          exact .inl ⟨z, rfl⟩
    · rw [hz] at hin hyin
      rw [List.mem_singleton.1 hin, List.mem_singleton.1 hyin]
    · rw [hnil] at hin
      cases hin
  rw [hyx] at hne
  exact absurd hid (by simpa using hne)

/-- A push that creates finds no create request of the session but the one that is answered. -/
theorem creates_before_push (hw : Sound w) (hone : ∀ s, (createsOf s w.xacts).length ≤ 1)
    (hgood : CreatesOnce w e) (call : PushCall w e v s) {y : MbsSession}
    (hy : v.sessionStore s = some y) (hcreates : PushCreates v y) :
    createsOf s (elsewhere e v.xacts) = [] := by
  cases call with
  | direct s => exact hgood.pushed s y (.inl rfl) hy hcreates
  | all split run =>
      have hnodup := hw.nodup
      rw [split] at hnodup
      have hnot : s ∉ _ := fun hmem =>
        (List.nodup_append.1 hnodup).2.2 s hmem s List.mem_cons_self rfl
      obtain ⟨hstore, htmgi, hsub⟩ := before_push (e := .session .pushAllChanges) hnot run
      have hmem : s ∈ w.mbsSessions := by
        rw [split]
        exact List.mem_append_right _ List.mem_cons_self
      rw [hstore] at hy
      have hnone := hgood.pushed s y (.inr ⟨rfl, hmem⟩) hy (pushCreates_congr htmgi hcreates)
      change (createsOf s v.xacts).Sublist (createsOf s w.xacts) at hsub
      rw [hnone] at hsub
      exact List.sublist_nil.1 hsub
  | created answers request status parse callback =>
      rename_i n rsp x v₀
      obtain ⟨id, hid⟩ := createdId_of_parse parse
      have hsent := findSent_of_findXact hw.xacts answers.outstanding
      obtain ⟨s', hrequester, hanswers, -⟩ := hgood.answered n rsp x id rfl hsent request status hid
      obtain rfl : s = s' := Option.some.inj (answers.session.symm.trans hanswers.session)
      have hparsed : Extends TmgiObservation (handlingState w x rsp) v₀ :=
        (valueEffect_nmbsmfMbsSessionParse parse).log
      have hcallback : v.xacts = v₀.xacts := by
        obtain ⟨y, -, ⟨-, rfl⟩ | ⟨cb, -, rfl⟩⟩ := mbsSessionDoCallback_eq_ok callback <;> rfl
      have hsub := creates_of_tmgi (s := s) (e := .network (.response n rsp)) hparsed
      have hnone : createsOf s (elsewhere (.network (.response n rsp)) w.xacts) = [] :=
        creates_of_answered hone answers.outstanding request hrequester
      change (createsOf s (elsewhere _ v₀.xacts)).Sublist (createsOf s (elsewhere _ w.xacts)) at hsub
      rw [hnone] at hsub
      rw [hcallback]
      exact List.sublist_nil.1 hsub

/-- One create request of a session at most waits for another answer than the one that the
event brings. -/
def AtMostOne (e : Event) (v : World) : Prop :=
  ∀ s, (createsOf s (elsewhere e v.xacts)).length ≤ 1

theorem AtMostOne.of_sublist (h : AtMostOne e v)
    (hsub : ∀ s, (createsOf s (elsewhere e v'.xacts)).Sublist (createsOf s (elsewhere e v.xacts))) :
    AtMostOne e v' :=
  fun s => (hsub s).length_le.trans (h s)

theorem AtMostOne.of_push (hw : Sound w) (hone : ∀ s, (createsOf s w.xacts).length ≤ 1)
    (hgood : CreatesOnce w e) (hv : AtMostOne e v) (call : PushCall w e v s)
    (run : mbsSessionPushChanges v s = .ok v') : AtMostOne e v' := by
  intro q
  by_cases hq : s = q
  · subst hq
    obtain ⟨y, hy, hlength, hquiet⟩ := creates_of_push (e := e) run
    by_cases hcreates : PushCreates v y
    · rw [creates_before_push hw hone hgood call hy hcreates] at hlength
      exact hlength
    · exact (hquiet hcreates).length_le.trans (hv s)
  · exact (creates_of_push_other hq run).length_le.trans (hv q)

theorem AtMostOne.of_part (hw : Sound w) (hone : ∀ s, (createsOf s w.xacts).length ≤ 1)
    (hgood : CreatesOnce w e) (hv : AtMostOne e v) (h : Part w e v v') : AtMostOne e v' := by
  cases h with
  | tmgi effect => exact hv.of_sublist fun s => creates_of_tmgi effect.log
  | newSession ssm => exact hv
  | writeSession live view => exact hv
  | markDeleted live => exact hv
  | newSubscription unused => exact hv
  | setSubscription event => exact hv
  | addSubscription event run =>
      refine hv.of_sublist fun s => creates_of_extends (extends_mbsSessionAddSubscription run) ?_
      intro x hx _
      obtain ⟨id, hrequest⟩ := hx
      rw [hrequest]
      rfl
  | removeSubscription event run =>
      exact hv.of_sublist fun s => creates_of_extends
        (extends_mbsSessionRemoveSubscription (A := fun _ => False) run) fun _ hx => hx.elim
  | freeSubscription event live unattached => exact hv
  | push call run => exact hv.of_push hw hone hgood call run
  | answered event sent => exact hv
  | said event outstanding observation => exact hv
  | parse event answers request status run =>
      exact hv.of_sublist fun s => creates_of_tmgi (valueEffect_nmbsmfMbsSessionParse run).log
  | left event answers request usable live callback run =>
      refine hv.of_sublist fun s =>
        creates_of_extends (leavingEffect_contextRemoveMbsSession run).log fun x hx _ => ?_
      change x.request.isTmgi = true at hx
      cases hrequest : x.request with
      | create carried embedded =>
          rw [hrequest] at hx
          cases hx
      | _ => rfl

/-- A response that is handled ends its transaction. -/
theorem xacts_of_response (h : step w (.network (.response n rsp)) = .ok w') :
    w'.xacts = w.xacts ∨ ∀ x ∈ w'.xacts, x.id ≠ n := by
  rcases processResponse_cases h with ⟨-, rfl⟩ | ⟨sent, -, ⟨rfl, -⟩ |
    ⟨x, session, tmgi, v, held, -, -, -, -, -, rfl⟩⟩
  · exact .inl rfl
  · exact .inl rfl
  · refine .inr fun y hy => ?_
    have hmem : y ∈ (v.removeXact n).xacts := by
      unfold finishEvent at hy
      cases held with
      | none => exact hy
      | some o =>
          rw [SbiReferences.refCountSbiObjectUnref_xacts] at hy
          split at hy
          · exact (List.mem_filter.1 hy).1
          · exact hy
    simpa using (List.mem_filter.1 hmem).2

theorem outstanding_of_step (hw : Sound w) (hone : ∀ s, (createsOf s w.xacts).length ≤ 1)
    (hgood : CreatesOnce w e) (h : step w e = .ok w') :
    ∀ s, (createsOf s w'.xacts).length ≤ 1 := by
  have hstart : AtMostOne e w := fun s =>
    ((elsewhere_sublist e w.xacts).filter _).length_le.trans (hone s)
  have hend : AtMostOne e w' := step_invariant (AtMostOne e) hw.xacts
    (fun v v' _ hv hlast => hv.of_part hw hone hgood hlast) hstart h
  intro s
  have hs := hend s
  cases e with
  | network event =>
      cases event with
      | response n rsp =>
          rcases xacts_of_response h with hsame | hall
          · rw [hsame]
            exact hone s
          · have hid : elsewhere (.network (.response n rsp)) w'.xacts = w'.xacts :=
              List.filter_eq_self.2 fun x hx => decide_eq_true (hall x hx)
            rwa [hid] at hs
      | _ => exact hs
  | _ => exact hs

/-! ## The ids of sessions -/

theorem NamedBy.of_keeps {id : String} (h : NamedBy v s id) (hk : Keeps MbsSession.id v v') :
    NamedBy v' s id := by
  obtain ⟨y, hy, hid⟩ := h
  obtain ⟨y', hy', heq⟩ := hk.forth hy
  exact ⟨y', hy', heq.trans hid⟩

theorem DeleteSent.mono {id : String} {A : Observation → Prop} (h : DeleteSent v id)
    (hl : Extends A v v') : DeleteSent v' id := by
  obtain ⟨x, hx, hrequest⟩ := h
  exact ⟨x, hl.mem_log hx, hrequest⟩

theorem keepsId_parseSessionId {m : CreatedSession} (h : parseSessionId w s m = .ok w') :
    Keeps MbsSession.id w w' := by
  unfold parseSessionId at h
  split at h
  · cases h
  · simp only [bind_eq_ok, World.sessionAt_eq_ok, Prod.exists, Except.ok.injEq] at h
    obtain ⟨x, hx, v, copy, hv, rfl⟩ := h
    refine (Keeps.setSession hx ?_).trans
      ((Keeps.of_eq (mbsSessionPublicCopy_eq_ok hv).1.sessionStore).trans
        (Keeps.modifySession fun _ => rfl))
    split <;> rfl

theorem namedBy_setSession {y : MbsSession} {id : String} (hy : y.id = some id) :
    NamedBy (w.setSession s y) s id :=
  ⟨y, Store.set_self .., hy⟩

/-- An answer with a location leaves the session with that id, understood or not. -/
theorem namedBy_of_parse {understood : Bool} {id : String} (hid : createdId rsp = some id)
    (h : nmbsmfMbsSessionParse w s rsp = .ok (w', understood)) : NamedBy w' s id := by
  obtain ⟨y, hy, h⟩ := nmbsmfMbsSessionParse_eq_ok h
  rcases h with ⟨-, -, hnone⟩ | ⟨id', hlocation, h⟩
  · rw [createdId] at hid
    split at hid
    · rename_i r hr
      exact absurd hr (hnone r)
    · cases hid
  · have hsame : id' = id := by
      rw [createdId, hlocation] at hid
      exact Option.some.inj hid
    subst hsame
    rcases h with ⟨-, rfl, -⟩ | ⟨m, -, -, ⟨-, v, tmgi, hv, h⟩ | ⟨-, -, h⟩⟩
    · exact namedBy_setSession rfl
    · have hhead : NamedBy v s id' := (namedBy_setSession (y := parsedHead y id' m) rfl).of_keeps
        (Keeps.of_eq (tmgiEffect_createdTmgi hv).sessionStore)
      rcases h with ⟨-, -, rfl⟩ | ⟨t, -, -, h⟩
      · exact hhead
      · have hstored : Keeps MbsSession.id v (v.modifySession s (storeTmgi t)) :=
          Keeps.modifySession fun _ => rfl
        exact hhead.of_keeps (hstored.trans (keepsId_parseSessionId h))
    · exact (namedBy_setSession (y := parsedHead y id' m) rfl).of_keeps (keepsId_parseSessionId h)

theorem keepsId_of_push (h : mbsSessionPushChanges w s = .ok w') : Keeps MbsSession.id w w' :=
  (pushEffect_mbsSessionPushChanges h).keeps.comp MbsSession.id

theorem keepsId_mbsSessionDoCallback {kind : CallbackKind} {result : CallbackResult}
    {problem : Option ProblemDetails} (h : mbsSessionDoCallback w n s kind result problem = .ok w') :
    Keeps MbsSession.id w w' :=
  Keeps.of_eq (sessionStore_mbsSessionDoCallback h)

theorem namedBy_of_handleCreateResponse {id : String} (hid : createdId rsp = some id)
    (hstatus : isSuccess rsp.status = true) (h : handleCreateResponse w n s rsp = .ok w') :
    NamedBy w' s id := by
  rcases handleCreateResponse_cases h with ⟨hrefused, -⟩ | ⟨-, v, hparse, hcb⟩ |
    ⟨-, v, v', hparse, hcb, hpush⟩
  · rw [hstatus] at hrefused
    cases hrefused
  · exact (namedBy_of_parse hid hparse).of_keeps (keepsId_mbsSessionDoCallback hcb)
  · exact (namedBy_of_parse hid hparse).of_keeps
      ((keepsId_mbsSessionDoCallback hcb).trans (keepsId_of_push hpush))

/-! ## Resources that were created before -/

/-- The resources that `w` records are accounted for in `v`. -/
def StillNamed (w v : World) : Prop :=
  ∀ s id, CreatedFor s id w.log → NamedBy v s id ∨ DeleteSent v id

theorem StillNamed.of_keeps {A : Observation → Prop} (h : StillNamed w v)
    (hk : Keeps MbsSession.id v v') (hl : Extends A v v') : StillNamed w v' :=
  fun s id hcreated => (h s id hcreated).imp (·.of_keeps hk) (·.mono hl)

/-- The answer to a create request is parsed for a session whose former resource was given up. -/
theorem StillNamed.of_parse {understood : Bool} (hw : Sound w) (hgood : CreatesOnce w e)
    (h : StillNamed w (handlingState w x rsp)) (event : e = .network (.response n rsp))
    (answers : Answers w n rsp x s) (request : x.request.isCreate = true)
    (status : isSuccess rsp.status = true)
    (run : nmbsmfMbsSessionParse (handlingState w x rsp) s rsp = .ok (v', understood)) :
    StillNamed w v' := by
  have hvalue := valueEffect_nmbsmfMbsSessionParse run
  intro q id hcreated
  rcases h q id hcreated with hnamed | hdeleted
  · by_cases hq : q = s
    · subst hq
      cases hid : createdId rsp with
      | none =>
          obtain ⟨y, -, ⟨-, rfl, -⟩ | ⟨id', hlocation, -⟩⟩ := nmbsmfMbsSessionParse_eq_ok run
          · exact .inl hnamed
          · rw [createdId, hlocation] at hid
            cases hid
      | some id' =>
          have hsent := findSent_of_findXact hw.xacts answers.outstanding
          obtain ⟨s', -, hanswers, hold⟩ := hgood.answered n rsp x id' event hsent request status hid
          obtain rfl : q = s' := Option.some.inj (answers.session.symm.trans hanswers.session)
          rcases hold id hnamed with rfl | hdeleted
          · exact .inl (namedBy_of_parse hid run)
          · have hstart : DeleteSent (handlingState w x rsp) id := by
              obtain ⟨z, hz, hrequest⟩ := hdeleted
              exact ⟨z, List.mem_cons_of_mem _ (List.mem_cons_of_mem _ hz), hrequest⟩
            exact .inr (hstart.mono hvalue.log)
    · obtain ⟨y, hy, hid⟩ := hnamed
      exact .inl ⟨y, (hvalue.others q hq).trans hy, hid⟩
  · exact .inr (hdeleted.mono hvalue.log)

theorem StillNamed.of_part (hw : Sound w) (hgood : CreatesOnce w e) (hparts : Parts w e w v)
    (h : StillNamed w v) (hpart : Part w e v v') : StillNamed w v' := by
  have hlog := Part.extends_any hpart
  cases hpart with
  | tmgi effect => exact h.of_keeps (Keeps.of_eq effect.sessionStore) hlog
  | newSession ssm =>
      intro q id hcreated
      rcases h q id hcreated with ⟨y, hy, hid⟩ | hdeleted
      · have hne : q ≠ w.next := by
          rintro rfl
          rw [hw.sessionStore_next] at hy
          cases hy
        exact .inl ⟨y, (Store.set_of_ne _ _ _ hne).trans hy, hid⟩
      · exact .inr (hdeleted.mono hlog)
  | writeSession live view =>
      have hview := congrArg MbsSession.id view
      exact h.of_keeps (Keeps.setSession live hview) hlog
  | markDeleted live =>
      rename_i q y
      have hset : Keeps MbsSession.id w (w.setSession q { y with deleted := true }) :=
        Keeps.setSession live rfl
      exact h.of_keeps (hset.trans (Keeps.of_eq rfl)) hlog
  | newSubscription unused => exact h.of_keeps (Keeps.of_eq rfl) hlog
  | setSubscription event => exact h.of_keeps (Keeps.of_eq rfl) hlog
  | addSubscription event run =>
      exact h.of_keeps ((keeps_mbsSessionAddSubscription run).comp MbsSession.id) hlog
  | removeSubscription event run =>
      exact h.of_keeps ((keeps_mbsSessionRemoveSubscription run).comp MbsSession.id) hlog
  | freeSubscription event live unattached => exact h.of_keeps (Keeps.of_eq rfl) hlog
  | push call run => exact h.of_keeps (keepsId_of_push run) hlog
  | answered event sent => exact h.of_keeps (Keeps.of_eq rfl) hlog
  | said event outstanding observation => exact h.of_keeps (Keeps.of_eq rfl) hlog
  | parse event answers request status run =>
      exact h.of_parse hw hgood event answers request status run
  | left event answers request usable live callback run =>
      rename_i n rsp x s r y
      have hleave := leavingEffect_contextRemoveMbsSession run
      have hstore : v.sessionStore = w.sessionStore := by
        rw [sessionStore_mbsSessionDoCallback callback, World.refCountSbiObjectRef_sessionStore]
        rfl
      intro q id hcreated
      rcases h q id hcreated with ⟨z, hz, hid⟩ | hdeleted
      · by_cases hq : q = s
        · subst hq
          rw [hstore] at hz
          have hdeleted := hgood.left n rsp x q r id event answers request usable ⟨z, hz, hid⟩
          exact .inr ((hdeleted.mono (Parts.extends_any hparts)).mono hlog)
        · refine .inl ⟨z, ?_, hid⟩
          rw [hleave.sessionStore, Store.free_of_ne _ _ _ hq]
          exact hz
      · exact .inr (hdeleted.mono hlog)

/-- The resources of the answers before a step are accounted for after it. -/
theorem stillNamed_of_step (hw : Sound w) (hgood : CreatesOnce w e)
    (hnamed : ∀ s id, CreatedFor s id w.log → NamedBy w s id ∨ DeleteSent w id)
    (h : step w e = .ok w') : StillNamed w w' :=
  step_invariant (StillNamed w) hw.xacts
    (fun _ _ hparts hv hpart => hv.of_part hw hgood hparts hpart) hnamed h

/-- The resource of the answer that a step handles is the one that its session names then. -/
theorem namedBy_of_answer {id : String} (hw : Sound w) (hgood : CreatesOnce w e)
    (event : e = .network (.response n rsp)) (hsent : w.findSent n = some x)
    (hcreate : x.request.isCreate = true) (hrequester : x.requester = .session s)
    (hstatus : isSuccess rsp.status = true) (hid : createdId rsp = some id)
    (h : step w e = .ok w') : NamedBy w' s id := by
  obtain ⟨s', hrequester', hanswers, -⟩ :=
    hgood.answered n rsp x id event hsent hcreate hstatus hid
  have hs : s = s' := by
    rw [hrequester, Requester.session.injEq] at hrequester'
    exact hrequester'
  subst hs
  subst event
  obtain ⟨v, held, rfl, hrun⟩ := handleCreateResponse_of_answers hw.xacts hanswers hcreate h
  exact (namedBy_of_handleCreateResponse hid hstatus hrun).of_keeps
    (Keeps.of_eq (tmgiEffect_finishEvent n held).sessionStore)

theorem named_of_step (hw : Sound w) (hgood : CreatesOnce w e)
    (hnamed : ∀ s id, CreatedFor s id w.log → NamedBy w s id ∨ DeleteSent w id)
    (h : step w e = .ok w') :
    ∀ s id, CreatedFor s id w'.log → NamedBy w' s id ∨ DeleteSent w' id := by
  have hold := stillNamed_of_step hw hgood hnamed h
  rintro s id ⟨x, rsp, hmem, hcreate, hrequester, hstatus, hid⟩
  have hbefore : Observation.answered x rsp ∈ w.log → CreatedFor s id w.log :=
    fun hmem => ⟨x, rsp, hmem, hcreate, hrequester, hstatus, hid⟩
  rcases Parts.answers (step_parts hw.xacts h) with ⟨new, hlog, hquiet⟩ |
    ⟨n, rsp', x', new, event, hsent, hlog, hquiet⟩
  · rw [hlog] at hmem
    rcases List.mem_append.1 hmem with hnew | hmem
    · exact (hquiet _ hnew).elim
    · exact hold s id (hbefore hmem)
  · rw [hlog] at hmem
    rcases List.mem_append.1 hmem with hnew | hmem
    · exact (hquiet _ hnew).elim
    · rcases List.mem_cons.1 hmem with hanswer | hmem
      · rw [Observation.answered.injEq] at hanswer
        obtain ⟨rfl, rfl⟩ := hanswer
        exact .inl (namedBy_of_answer hw hgood event hsent hcreate hrequester hstatus hid h)
      · exact hold s id (hbefore hmem)

theorem OneResource.of_step (hw : Sound w) (hone : OneResource w) (hgood : CreatesOnce w e)
    (h : step w e = .ok w') : OneResource w' where
  outstanding := outstanding_of_step hw hone.outstanding hgood h
  named := named_of_step hw hgood hone.named h

theorem OneResource.initial : OneResource World.initial where
  outstanding _ := Nat.zero_le _
  named := by
    rintro s id ⟨x, rsp, hmem, -⟩
    cases hmem

/-- When no push creates before the answer to the last create request, every session has one
create request outstanding at most and loses none of its resources. -/
theorem one_resource_each (h : Run CreatesOnce w) : OneResource w :=
  h.invariant OneResource OneResource.initial fun _ _ _ hrun hone hgood hstep =>
    hone.of_step (sound_of_run hrun) hgood hstep

/-- The application pushes a new session twice before the MB-SMF answers. -/
def pushedTwice : List Event :=
  [.session (.newIpv4 none none), .session (.pushChanges 1), .session (.pushChanges 1)]

theorem two_creates_outstanding : ¬∀ w, Reachable step World.initial w → OneResource w := by
  intro h
  have hone := (h _ (Reachable.of_events pushedTwice)).outstanding 1
  exact absurd hone (by decide)

def createAnswer (id : String) : Response :=
  { status := 201, resStatus := 201, createLocation := .resource id,
    createRspData := some (some {}) }

/-- A session that the MB-SMF created as `a` and that moved to another address, where it is `b`. -/
def movedRun : List Event :=
  [.session (.newIpv4 (some 1) (some 2)),
   .session (.edit 1 { tmgiReq := false, ssm := some { family := .inet, source := 1, destMc := 2 } }),
   .session (.pushChanges 1),
   .network (.response 3 (createAnswer "a")),
   .session (.edit 1 { tmgiReq := false, ssm := some { family := .inet, source := 1, destMc := 3 } }),
   .session (.pushChanges 1),
   .network (.response 5 (createAnswer "b"))]

def movedState (k : ℕ) : World := (movedRun.take k).foldl (advance step) World.initial

theorem CreatesOnce.of_call (hpush : ∀ s, ¬Pushes w e s)
    (hresponse : ∀ n rsp, e ≠ .network (.response n rsp)) : CreatesOnce w e where
  pushed s _ hs := absurd hs (hpush s)
  answered n rsp _ _ event := absurd event (hresponse n rsp)
  left n rsp _ _ _ _ event := absurd event (hresponse n rsp)

theorem CreatesOnce.of_push (h : createsOf s w.xacts = []) :
    CreatesOnce w (.session (.pushChanges s)) where
  pushed q y hq _ _ := by
    rcases hq with heq | ⟨heq, -⟩
    · cases heq
      exact h
    · cases heq
  answered _ _ _ _ event := by cases event
  left _ _ _ _ _ _ event := by cases event

/-- The answer to the only create request of a session that gave up the resource it names. -/
theorem CreatesOnce.of_answer (hw : XactsSound w)
    (hx : (w.findXact n).any (fun x => x.request.isCreate && x.requester = .session s &&
      contextSbiObjectToSession w x.sbiObject = some s) = true) (hparsed : rsp.parsed = true)
    (hold : ∀ old, NamedBy w s old → DeleteSent w old) :
    CreatesOnce w (.network (.response n rsp)) := by
  obtain ⟨x, hx, hcond⟩ := Option.any_eq_true _ _ |>.1 hx
  rw [Bool.and_eq_true, Bool.and_eq_true, decide_eq_true_iff, decide_eq_true_iff] at hcond
  obtain ⟨⟨hcreate, hrequester⟩, hsession⟩ := hcond
  refine ⟨?_, ?_, ?_⟩
  · intro q _ hq
    rcases hq with heq | ⟨heq, -⟩ <;> cases heq
  · intro n' rsp' z id event hz hzcreate hstatus hid
    cases event
    rw [findSent_of_findXact hw hx, Option.some.injEq] at hz
    subst hz
    exact ⟨s, hrequester, ⟨hx, hsession, hparsed⟩, fun old hnamed => .inr (hold old hnamed)⟩
  · intro n' rsp' z q r id event answers hrequest
    cases event
    have hz := answers.outstanding
    rw [hx, Option.some.injEq] at hz
    subst hz
    rw [hrequest] at hcreate
    cases hcreate

theorem movedState_sound (k : ℕ) : XactsSound (movedState k) :=
  (sound_of_run (Reachable.of_events (movedRun.take k))).xacts

theorem movedState_first : ((movedState 3).sessionStore 1).map MbsSession.id = some none := by
  decide +kernel

/-- The id of the session is still that of the resource whose DELETE was sent. -/
theorem movedState_given_up :
    ((movedState 6).sessionStore 1).map MbsSession.id = some (some "a") := by
  decide +kernel

theorem movedState_delete : DeleteSent (movedState 6) "a" :=
  ⟨_, List.mem_cons_of_mem _ List.mem_cons_self, rfl⟩

theorem movedState_answered_first :
    CreatesOnce (movedState 3) (.network (.response 3 (createAnswer "a"))) := by
  refine .of_answer (s := 1) (movedState_sound 3) (by decide +kernel) rfl ?_
  rintro old ⟨y, hy, hid⟩
  have hnone := movedState_first
  rw [hy, Option.map_some, hid, Option.some.injEq] at hnone
  cases hnone

theorem movedState_answered_second :
    CreatesOnce (movedState 6) (.network (.response 5 (createAnswer "b"))) := by
  refine .of_answer (s := 1) (movedState_sound 6) (by decide +kernel) rfl ?_
  rintro old ⟨y, hy, hid⟩
  have hnamed := movedState_given_up
  rw [hy, Option.map_some, hid, Option.some.injEq, Option.some.injEq] at hnamed
  exact hnamed ▸ movedState_delete

theorem movedRun_good : Run CreatesOnce (movedState 7) := by
  refine Reach.of_goodFrom movedRun .init
    ⟨?_, ?_, ?_, movedState_answered_first, ?_, ?_, movedState_answered_second, trivial⟩
  · exact .of_call (by rintro s (h | ⟨h, -⟩) <;> cases h) fun _ _ he => by cases he
  · exact .of_call (by rintro s (h | ⟨h, -⟩) <;> cases h) fun _ _ he => by cases he
  · exact .of_push rfl
  · exact .of_call (by rintro s (h | ⟨h, -⟩) <;> cases h) fun _ _ he => by cases he
  · exact .of_push rfl

def isCreatedFor (s : Ref) (id : String) : Observation → Bool
  | .answered x rsp =>
      x.request.isCreate && x.requester = .session s && isSuccess rsp.status &&
        createdId rsp = some id
  | _ => false

theorem createdFor_of_any {id : String} {log : List Observation}
    (h : log.any (isCreatedFor s id) = true) : CreatedFor s id log := by
  obtain ⟨o, hmem, ho⟩ := List.any_eq_true.1 h
  cases o with
  | answered x rsp =>
      simp only [isCreatedFor, Bool.and_eq_true, decide_eq_true_iff] at ho
      obtain ⟨⟨⟨hcreate, hrequester⟩, hstatus⟩, hid⟩ := ho
      exact ⟨x, rsp, hmem, hcreate, hrequester, hstatus, hid⟩
  | _ => cases ho

/-- Both resources of that run are accounted for. -/
theorem one_resource_each_moved : OneResource (movedState 7) ∧
    CreatedFor 1 "a" (movedState 7).log ∧ CreatedFor 1 "b" (movedState 7).log :=
  ⟨one_resource_each movedRun_good, createdFor_of_any (by decide +kernel),
    createdFor_of_any (by decide +kernel)⟩

end ServiceConsumers.SessionResources
