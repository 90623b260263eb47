import ServiceConsumers.RunInvariants
import ServiceConsumers.TmgiContents

set_option autoImplicit false

/-!
# Steps on TMGI objects

Every step is a sequence of operations on TMGI objects, and of parts that leave them alone
but for their SBI objects.
-/

namespace ServiceConsumers.TmgiSteps

open ObjectStore KeyedTable PublicSessions ConsumerState TmgiOperations SubscriptionOperations
  SessionOperations ResponseHandlers ProcessEvent TransitionRuns TransactionLog TmgiEffects
  SessionEffects PushEffects AnswerEffects EventEffects SubscriptionLinks StepDecomposition
  RunInvariants TmgiContents

/-! ## Parts that leave TMGI objects alone -/

def withoutSbi (x : PrivTmgi) : PrivTmgi := { x with sbiObject := none }

def calledTmgi : Observation → Option Ref
  | .tmgiCallback _ t _ _ _ => some t
  | _ => none

/-- The objects whose callbacks were called. -/
def calledTmgis (log : List Observation) : List Ref := log.filterMap calledTmgi

/-- The registry and the TMGI objects stay the same, the SBI objects of these aside, and
callbacks are called of registered objects only. -/
structure SameTmgis (w w' : World) : Prop where
  tmgis : w'.tmgis = w.tmgis
  store : ∀ t, (w'.tmgiStore t).map withoutSbi = (w.tmgiStore t).map withoutSbi
  next : w.next ≤ w'.next
  called : ∀ t ∈ calledTmgis w'.log, t ∈ calledTmgis w.log ∨ t ∈ w.tmgis

variable {w w' v v' : World} {e : Event} {s u t : Ref}

theorem calledTmgis_of_extends {A : Observation → Prop} (h : Extends A w w')
    (hA : ∀ o, A o → calledTmgi o = none) : calledTmgis w'.log = calledTmgis w.log := by
  obtain ⟨⟨new, hlog, hnew, -⟩, -⟩ := h
  have hnone : new.filterMap calledTmgi = [] := by
    rw [List.filterMap_eq_nil_iff]
    exact fun o ho => hA o (hnew o ho)
  rw [calledTmgis, calledTmgis, hlog, List.filterMap_append, hnone]
  rfl

theorem calledTmgis_refCountSbiObjectUnref (o : Option Ref) :
    calledTmgis (w.refCountSbiObjectUnref o).log = calledTmgis w.log :=
  calledTmgis_of_extends (A := fun o => calledTmgi o = none)
    (extends_refCountSbiObjectUnref (fun _ => rfl) o) fun _ ho => ho

theorem calledTmgis_refCountSbiObjectRef (o : Option Ref) :
    calledTmgis (w.refCountSbiObjectRef o).log = calledTmgis w.log := by
  cases o <;> rfl

namespace SameTmgis

variable {w'' : World}

theorem of_eq (htmgis : w'.tmgis = w.tmgis) (hstore : w'.tmgiStore = w.tmgiStore)
    (hnext : w.next ≤ w'.next) (hcalled : calledTmgis w'.log = calledTmgis w.log) :
    SameTmgis w w' :=
  ⟨htmgis, fun t => by rw [hstore], hnext, fun t ht => .inl (hcalled ▸ ht)⟩

/-- Nothing that concerns TMGI objects is written. -/
theorem of_rfl (htmgis : w'.tmgis = w.tmgis) (hstore : w'.tmgiStore = w.tmgiStore)
    (hnext : w'.next = w.next) (hcalled : calledTmgis w'.log = calledTmgis w.log) :
    SameTmgis w w' :=
  of_eq htmgis hstore hnext.ge hcalled

theorem refl (w : World) : SameTmgis w w := of_rfl rfl rfl rfl rfl

theorem trans (h₁ : SameTmgis w w') (h₂ : SameTmgis w' w'') : SameTmgis w w'' := by
  refine ⟨h₂.tmgis.trans h₁.tmgis, fun t => (h₂.store t).trans (h₁.store t),
    h₁.next.trans h₂.next, fun t ht => ?_⟩
  rcases h₂.called t ht with ht | ht
  · exact h₁.called t ht
  · exact .inr (h₁.tmgis ▸ ht)

theorem back (h : SameTmgis w w') {x' : PrivTmgi} (hx' : w'.tmgiStore t = some x') :
    ∃ x, w.tmgiStore t = some x ∧ withoutSbi x' = withoutSbi x := by
  have ht := h.store t
  rw [hx', Option.map_some] at ht
  obtain ⟨x, hx, heq⟩ := Option.map_eq_some_iff.1 ht.symm
  exact ⟨x, hx, heq.symm⟩

theorem forth (h : SameTmgis w w') {x : PrivTmgi} (hx : w.tmgiStore t = some x) :
    ∃ x', w'.tmgiStore t = some x' ∧ withoutSbi x' = withoutSbi x := by
  have ht := h.store t
  rw [hx, Option.map_some] at ht
  exact Option.map_eq_some_iff.1 ht

theorem isSome (h : SameTmgis w w') (t : Ref) :
    (w'.tmgiStore t).isSome = (w.tmgiStore t).isSome := by
  have ht := congrArg Option.isSome (h.store t)
  rw [Option.isSome_map, Option.isSome_map] at ht
  exact ht

theorem contentAt (h : SameTmgis w w') (t : Ref) : contentAt w' t = contentAt w t := by
  have ht := congrArg (Option.map PrivTmgi.tmgi) (h.store t)
  rw [Option.map_map, Option.map_map] at ht
  exact ht

/-- What matches a TMGI of a message does not depend on SBI objects. -/
theorem tmgiFind (h : SameTmgis w w') (api : ApiTmgi) :
    tmgiFindMatchingOpenapiType w' api = tmgiFindMatchingOpenapiType w api := by
  have hany : ∀ y : Option PrivTmgi,
      y.any (tmgiMatches api) = (y.map withoutSbi).any (tmgiMatches api) := by
    intro y
    cases y <;> rfl
  unfold tmgiFindMatchingOpenapiType
  rw [h.tmgis]
  congr 1
  funext t
  rw [hany, h.store t, ← hany]

theorem modifyTmgi {f : PrivTmgi → PrivTmgi} (hf : ∀ x, withoutSbi (f x) = withoutSbi x) :
    SameTmgis w (w.modifyTmgi t f) := by
  refine ⟨rfl, fun q => ?_, le_refl _, fun q hq => .inl hq⟩
  by_cases hq : q = t
  · subst hq
    cases hx : w.tmgiStore q <;> simp [hx, hf]
  · simp [Store.modify_of_ne _ _ _ hq]

theorem refCountSbiObjectUnref (o : Option Ref) : SameTmgis w (w.refCountSbiObjectUnref o) :=
  of_rfl (by simp) (by simp) (by simp) (calledTmgis_refCountSbiObjectUnref o)

theorem refCountSbiObjectRef (o : Option Ref) : SameTmgis w (w.refCountSbiObjectRef o) :=
  of_rfl (by simp) (by simp) (by simp) (calledTmgis_refCountSbiObjectRef o)

theorem foldlM {α : Type} {f : World → α → Except Fault World} {xs : List α}
    (hstep : ∀ x v v', f v x = .ok v' → SameTmgis v v') (h : xs.foldlM f w = .ok w') :
    SameTmgis w w' :=
  foldlM_ok_induction (fun _ v => SameTmgis w v)
    (fun x _ v v' hv hf => hv.trans (hstep x v v' hf)) xs w w' (refl w) h

theorem tmgiReplaceSbiObject {sbi : Option Ref} (h : tmgiReplaceSbiObject w t sbi = .ok w') :
    SameTmgis w w' := by
  obtain ⟨x, -, rfl⟩ := tmgiReplaceSbiObject_eq_ok.1 h
  exact ((refCountSbiObjectUnref x.sbiObject).trans (refCountSbiObjectRef sbi)).trans
    (modifyTmgi fun _ => rfl)

theorem shareSbiObject {o : Ref} (h : shareSbiObject o w t = .ok w') : SameTmgis w w' := by
  simp only [TmgiOperations.shareSbiObject, bind_eq_ok, Except.ok.injEq] at h
  obtain ⟨x, -, rfl⟩ := h
  exact ((refCountSbiObjectUnref x.sbiObject).trans (refCountSbiObjectRef (some o))).trans
    (modifyTmgi fun _ => rfl)

theorem sbiXactAdd {sbi : Option Ref} {requester : Requester} {build : Except Fault Request}
    (h : w.sbiXactAdd sbi requester build = .ok w') : SameTmgis w w' := by
  obtain ⟨o, r, -, -, rfl⟩ := sbiXactAdd_eq_ok.1 h
  exact of_eq rfl rfl (Nat.le_succ _) rfl

theorem tmgiListSendAllocate {newTmgis refreshTmgis : Option (List Ref)}
    (h : tmgiListSendAllocate w newTmgis refreshTmgis = .ok w') : SameTmgis w w' := by
  cases newTmgis with
  | some ts =>
      simp only [TmgiOperations.tmgiListSendAllocate, bind_eq_ok] at h
      obtain ⟨v, hv, h⟩ := h
      have hnew : SameTmgis w w.refCountSbiObjectNew.1 := of_eq rfl rfl (Nat.le_succ _) rfl
      have hshare := (hnew.trans (foldlM (fun _ _ _ => shareSbiObject) hv)).trans
        (refCountSbiObjectUnref (some w.refCountSbiObjectNew.2))
      split at h
      · cases h
      · exact hshare.trans (sbiXactAdd h)
  | none =>
      cases refreshTmgis with
      | none =>
          simp only [TmgiOperations.tmgiListSendAllocate, Except.ok.injEq] at h
          exact h ▸ refl w
      | some refresh =>
          cases refresh with
          | nil => cases h
          | cons t ts =>
              simp only [TmgiOperations.tmgiListSendAllocate, bind_eq_ok] at h
              obtain ⟨x, -, h⟩ := h
              exact sbiXactAdd h

theorem tmgiListSendDeallocate {ts : List Ref} (h : tmgiListSendDeallocate w ts = .ok w') :
    SameTmgis w w' := by
  cases ts with
  | nil =>
      simp only [TmgiOperations.tmgiListSendDeallocate, Except.ok.injEq] at h
      exact h ▸ refl w
  | cons t ts =>
      simp only [TmgiOperations.tmgiListSendDeallocate, bind_eq_ok] at h
      obtain ⟨x, -, h⟩ := h
      cases hsbi : x.sbiObject with
      | some o =>
          simp only [hsbi] at h
          exact sbiXactAdd h
      | none =>
          simp only [hsbi] at h
          have hnew : SameTmgis w (w.refCountSbiObjectNew.1.modifyTmgi t
              fun x => { x with sbiObject := some w.refCountSbiObjectNew.2 }) :=
            (of_eq rfl rfl (Nat.le_succ _) rfl : SameTmgis w w.refCountSbiObjectNew.1).trans
              (modifyTmgi fun _ => rfl)
          exact hnew.trans (sbiXactAdd h)

theorem tmgiDoCallback {n : ℕ} {result : CallbackResult} {problem : Option ProblemDetails}
    (ht : t ∈ w.tmgis) (h : tmgiDoCallback w n t result problem = .ok w') : SameTmgis w w' := by
  simp only [ResponseHandlers.tmgiDoCallback, bind_eq_ok] at h
  obtain ⟨x, -, h⟩ := h
  split at h
  · rw [Except.ok.injEq] at h
    exact h ▸ refl w
  · rename_i cb _
    obtain rfl := Except.ok.inj h
    refine ⟨rfl, fun _ => rfl, le_refl _, fun q hq => ?_⟩
    have hmem : q ∈ t :: calledTmgis w.log := hq
    rcases List.mem_cons.1 hmem with rfl | hq
    · exact .inr ht
    · exact .inl hq

end SameTmgis

/-! ## Calls on subscriptions and sessions -/

namespace SameTmgis

theorem of_sendEffect (h : SendEffect SubscriptionSent w w') : SameTmgis w w' :=
  of_eq h.tmgis h.tmgiStore h.log.next (calledTmgis_of_extends h.log fun o ho => by
    cases o with
    | sent x => rfl
    | _ => cases ho)

theorem forgetId (h : forgetId w u = .ok w') : SameTmgis w w' := by
  obtain ⟨n, -, ⟨-, rfl⟩ | ⟨id, q, x, table, v, -, -, -, -, hv, rfl⟩⟩ := forgetId_eq_ok h
  · exact refl _
  · have hset : SameTmgis w (w.setSession q { x with activeSubscriptions := some (table.erase id) }) :=
      of_rfl rfl rfl rfl rfl
    exact (hset.trans (of_sendEffect (sendEffect_sendDelete hv))).trans (of_rfl rfl rfl rfl rfl)

theorem ogsListAdd {name : ListName} (h : ogsListAdd w s name u = .ok w') : SameTmgis w w' := by
  obtain ⟨x, n, -, -, -, rfl⟩ := ogsListAdd_eq_ok h
  exact of_rfl rfl rfl rfl rfl

theorem ogsListRemove {name : ListName} (h : ogsListRemove w s name u = .ok w') :
    SameTmgis w w' := by
  obtain ⟨x, -, -, rfl⟩ := ogsListRemove_eq_ok h
  exact of_rfl rfl rfl rfl rfl

theorem mbsSessionAddSubscription (h : mbsSessionAddSubscription w s u = .ok w') :
    SameTmgis w w' := by
  obtain ⟨x, n, -, -, ⟨-, rfl⟩ | ⟨-, v, v', hv, hv', rfl⟩⟩ := mbsSessionAddSubscription_eq_ok h
  · exact refl _
  · have hset : SameTmgis w (w.setSession s { x with activeSubscriptions := some x.active }) :=
      of_rfl rfl rfl rfl rfl
    exact ((hset.trans (forgetId hv)).trans (ogsListAdd hv')).trans (of_rfl rfl rfl rfl rfl)

theorem mbsSessionRemoveSubscription (h : mbsSessionRemoveSubscription w s u = .ok w') :
    SameTmgis w w' := by
  obtain ⟨x, n, -, -, ⟨-, rfl⟩ | ⟨-, -, hcase⟩⟩ := mbsSessionRemoveSubscription_eq_ok h
  · exact refl _
  · rcases hcase with ⟨id, v, -, hv, rfl⟩ | ⟨-, -, v, hv, rfl⟩ | ⟨-, -, rfl⟩
    · have hset : SameTmgis w (w.setSession s
          { x with activeSubscriptions := x.activeSubscriptions.map fun t => t.erase id }) :=
        of_rfl rfl rfl rfl rfl
      exact (hset.trans (ogsListAdd hv)).trans (of_rfl rfl rfl rfl rfl)
    · exact (ogsListRemove hv).trans (of_rfl rfl rfl rfl rfl)
    · exact of_rfl rfl rfl rfl rfl

theorem subscriptionStep {call : SubscriptionCall} (h : subscriptionStep w call = .ok w') :
    SameTmgis w w' := by
  cases call with
  | new areaSessionId flags correlationId expiryTime =>
      simp only [SubscriptionOperations.subscriptionStep, Except.ok.injEq] at h
      exact h ▸ of_eq rfl rfl (Nat.le_succ _) rfl
  | set u setting =>
      simp only [SubscriptionOperations.subscriptionStep, bind_eq_ok, Except.ok.injEq] at h
      obtain ⟨n, -, rfl⟩ := h
      exact of_rfl rfl rfl rfl rfl
  | add s u => exact mbsSessionAddSubscription h
  | remove s u => exact mbsSessionRemoveSubscription h
  | delete u =>
      simp only [SubscriptionOperations.subscriptionStep, mbsStatusSubscriptionDelete, bind_eq_ok,
        World.subscriptionAt_eq_ok] at h
      obtain ⟨n, hn, h⟩ := h
      cases hs : n.session with
      | some s =>
          simp only [hs] at h
          exact mbsSessionRemoveSubscription h
      | none =>
          simp only [hs] at h
          split at h
          · rw [Except.ok.injEq] at h
            exact h ▸ refl w
          · rw [Except.ok.injEq] at h
            exact h ▸ of_rfl rfl rfl rfl rfl

theorem mbsSessionWrite {f : MbsSession → MbsSession} (h : mbsSessionWrite w s f = .ok w') :
    SameTmgis w w' := by
  simp only [SessionOperations.mbsSessionWrite, bind_eq_ok, Except.ok.injEq] at h
  obtain ⟨x, -, rfl⟩ := h
  exact of_rfl rfl rfl rfl rfl

theorem takeTmgi (h : takeTmgi w s t = .ok w') : SameTmgis w w' := by
  simp only [SessionOperations.takeTmgi, bind_eq_ok, Except.ok.injEq] at h
  obtain ⟨x, -, y, -, rfl⟩ := h
  refine (refCountSbiObjectRef y.sbiObject).trans (trans ?_ (refCountSbiObjectUnref x.sbiObject))
  exact of_rfl rfl rfl rfl rfl

theorem mbsSessionSetTmgi {tmgi : Option Ref} (h : mbsSessionSetTmgi w s tmgi = .ok w') :
    SameTmgis w w' := by
  simp only [SessionOperations.mbsSessionSetTmgi, bind_eq_ok] at h
  obtain ⟨x, -, h⟩ := h
  split at h
  · rw [Except.ok.injEq] at h
    exact h ▸ refl w
  · split at h
    · rw [Except.ok.injEq] at h
      exact h ▸ of_rfl rfl rfl rfl rfl
    · split at h
      · exact takeTmgi h
      · simp only [bind_eq_ok] at h
        obtain ⟨a, -, b, -, h⟩ := h
        split at h
        · rw [Except.ok.injEq] at h
          exact h ▸ refl w
        · exact takeTmgi h

theorem mbsSessionPushChanges (h : mbsSessionPushChanges w s = .ok w') : SameTmgis w w' :=
  have heffect := pushEffect_mbsSessionPushChanges h
  of_eq heffect.tmgis heffect.tmgiStore heffect.log.next
    (calledTmgis_of_extends heffect.log fun o ho => by
      cases o with
      | sent x => rfl
      | _ => cases ho)

theorem sessionStep {call : SessionCall} (h : sessionStep w call = .ok w') : SameTmgis w w' := by
  cases call <;> simp only [SessionOperations.sessionStep] at h
  case newIpv4 source dest =>
    rw [Except.ok.injEq] at h
    exact h ▸ of_eq rfl rfl (Nat.le_succ _) rfl
  case newIpv6 source dest =>
    rw [Except.ok.injEq] at h
    exact h ▸ of_eq rfl rfl (Nat.le_succ _) rfl
  case edit s value => exact mbsSessionWrite h
  case write s cell => exact mbsSessionWrite h
  case delete s =>
    simp only [bind_eq_ok, Except.ok.injEq] at h
    obtain ⟨v, hv, rfl⟩ := h
    exact (mbsSessionWrite hv).trans (of_rfl rfl rfl rfl rfl)
  case setTmgi s tmgi => exact mbsSessionSetTmgi h
  case setCallback s cb => exact mbsSessionWrite h
  case setCallbackOf s kind cb => exact mbsSessionWrite h
  case pushChanges s => exact mbsSessionPushChanges h
  case pushAllChanges => exact foldlM (fun _ _ _ => mbsSessionPushChanges) h

theorem mbsSessionDoCallback {n : ℕ} {kind : CallbackKind} {result : CallbackResult}
    {problem : Option ProblemDetails} (h : mbsSessionDoCallback w n s kind result problem = .ok w') :
    SameTmgis w w' := by
  obtain ⟨x, -, ⟨-, rfl⟩ | ⟨cb, -, rfl⟩⟩ := mbsSessionDoCallback_eq_ok h
  · exact refl _
  · exact of_rfl rfl rfl rfl rfl

theorem finishEvent (n : ℕ) (held : Option Ref) : SameTmgis w (finishEvent n held w) :=
  (of_rfl rfl rfl rfl rfl : SameTmgis w (w.removeXact n)).trans (refCountSbiObjectUnref held)

end SameTmgis

/-! ## The decomposition -/

/-- The calls that make a TMGI object, with the callback it is given. -/
def creates : Event → Option (Option ResultCallback)
  | .tmgi (.create callback) => some callback
  | .tmgi .new => some none
  | _ => none

/-- The setter that a call is. -/
def settingOf : TmgiCall → Option (Ref × (PrivTmgi → PrivTmgi))
  | .setMbsServiceId t mbsServiceId => some (t, tmgiSetMbsServiceId mbsServiceId)
  | .setPlmn t mcc mnc => some (t, tmgiSetPlmn mcc mnc)
  | .setExpiryTime t expiryTime => some (t, tmgiSetExpiryTime expiryTime)
  | .setCallback t callback => some (t, tmgiSetCallback callback)
  | _ => none

/-- The response is handled by the branch for the TMGI service. -/
structure TmgiAnswers (w : World) (n : ℕ) (rsp : Response) (x : Xact) : Prop where
  outstanding : w.findXact n = some x
  found : ¬(contextSbiObjectToSession w x.sbiObject = none ∧
    contextSbiObjectToTmgi w x.sbiObject = none)
  service : x.request.isTmgi = true
  parsed : rsp.parsed = true

/-- One part of a step, as far as it goes for TMGI objects. -/
inductive TmgiPart (w : World) (e : Event) : World → World → Prop where
  | quiet {v v' : World} (same : SameTmgis v v') : TmgiPart w e v v'
  | create {callback : Option ResultCallback} (event : creates e = some callback) :
      TmgiPart w e w (tmgiCreate w callback).1
  | free {t : Ref} {v' : World} (event : e = .tmgi (.free t)) (run : tmgiFree w t = .ok v') :
      TmgiPart w e w v'
  | set {call : TmgiCall} {t : Ref} {f : PrivTmgi → PrivTmgi} {v' : World}
      (event : e = .tmgi call) (setting : settingOf call = some (t, f))
      (run : tmgiSet w t f = .ok v') : TmgiPart w e w v'
  | allocated {n : ℕ} {rsp : Response} {x : Xact} {v v' : World}
      (event : e = .network (.response n rsp)) (answers : TmgiAnswers w n rsp x)
      (method : x.request.method = .post) (same : SameTmgis w v)
      (run : nmbsmfTmgiAllocated v x rsp = .ok v') : TmgiPart w e v v'
  | deallocated {n : ℕ} {rsp : Response} {x : Xact} {v v' : World}
      (event : e = .network (.response n rsp)) (answers : TmgiAnswers w n rsp x)
      (method : x.request.method = .delete) (same : SameTmgis w v)
      (run : nmbsmfTmgiDeallocated v x rsp = .ok v') : TmgiPart w e v v'
  | parse {n : ℕ} {rsp : Response} {x : Xact} {s : Ref} {v' : World} {understood : Bool}
      (event : e = .network (.response n rsp)) (answers : Answers w n rsp x s)
      (request : x.request.isCreate = true) (status : isSuccess rsp.status = true)
      (run : nmbsmfMbsSessionParse (handlingState w x rsp) s rsp = .ok (v', understood)) :
      TmgiPart w e (handlingState w x rsp) v'
  | left {n : ℕ} {rsp : Response} {x : Xact} {s : Ref} {id : String} {v v' : World}
      (event : e = .network (.response n rsp)) (answers : Answers w n rsp x s)
      (request : x.request = .remove (some id)) (usable : id ≠ "subscriptions")
      (same : SameTmgis w v) (sessions : v.sessionStore = w.sessionStore)
      (run : contextRemoveMbsSession v s = .ok v') : TmgiPart w e v v'

open Relation

abbrev TmgiParts (w : World) (e : Event) : World → World → Prop := ReflTransGen (TmgiPart w e)

theorem TmgiParts.quiet (h : SameTmgis v v') : TmgiParts w e v v' := .single (.quiet h)

theorem tmgiParts_tmgiStep {call : TmgiCall} (h : tmgiStep w call = .ok w') :
    TmgiParts w (.tmgi call) w w' := by
  cases call <;> simp only [tmgiStep] at h
  case create callback =>
    exact ReflTransGen.head (@TmgiPart.create _ _ callback rfl)
      (TmgiParts.quiet (SameTmgis.tmgiListSendAllocate h))
  case new =>
    rw [Except.ok.injEq] at h
    exact h ▸ .single (@TmgiPart.create _ _ none rfl)
  case free t => exact .single (.free rfl h)
  case setMbsServiceId t mbsServiceId => exact .single (.set rfl rfl h)
  case setPlmn t mcc mnc => exact .single (.set rfl rfl h)
  case setExpiryTime t expiryTime => exact .single (.set rfl rfl h)
  case setCallback t callback => exact .single (.set rfl rfl h)
  case sendDeallocate t => exact .quiet (SameTmgis.tmgiListSendDeallocate h)
  all_goals exact .quiet (SameTmgis.tmgiListSendAllocate h)

theorem tmgiParts_tmgiAnswer {n : ℕ} {rsp : Response} {x : Xact} {tmgi : Option Ref}
    (hx : w.findXact n = some x) (hservice : x.request.isTmgi = true)
    (hfound : ¬(contextSbiObjectToSession w x.sbiObject = none ∧
      contextSbiObjectToTmgi w x.sbiObject = none)) (hsame : SameTmgis w v)
    (htmgi : ∀ t, tmgi = some t → t ∈ v.tmgis) (h : processTmgiResponse v x tmgi rsp = .ok w') :
    TmgiParts w (.network (.response n rsp)) v w' := by
  unfold processTmgiResponse at h
  cases hparsed : rsp.parsed with
  | false =>
      simp only [hparsed, Bool.not_false, if_true] at h
      cases tmgi with
      | none => cases h
      | some t => exact .quiet (SameTmgis.tmgiDoCallback (htmgi t rfl) h)
  | true =>
      have hanswers : TmgiAnswers w n rsp x := ⟨hx, hfound, hservice, hparsed⟩
      simp only [hparsed, Bool.not_true, Bool.false_eq_true, if_false] at h
      cases hmethod : x.request.method with
      | post =>
          simp only [hmethod] at h
          exact .single (.allocated rfl hanswers hmethod hsame h)
      | patch =>
          simp only [hmethod, Except.ok.injEq] at h
          exact h ▸ .refl
      | delete =>
          simp only [hmethod] at h
          cases tmgi with
          | none => cases h
          | some t =>
              simp only [bind_eq_ok] at h
              obtain ⟨y, -, h⟩ := h
              have href : SameTmgis v (v.refCountSbiObjectRef y.sbiObject) :=
                SameTmgis.refCountSbiObjectRef _
              exact ReflTransGen.head (.quiet href)
                (.single (.deallocated rfl hanswers hmethod (hsame.trans href) h))

theorem sameTmgis_handlingState {x : Xact} {rsp : Response} :
    SameTmgis w (handlingState w x rsp) := .of_rfl rfl rfl rfl rfl

theorem sessionStore_mbsSessionDoCallback {n : ℕ} {kind : CallbackKind} {result : CallbackResult}
    {problem : Option ProblemDetails} (h : mbsSessionDoCallback v n s kind result problem = .ok v') :
    v'.sessionStore = v.sessionStore := by
  obtain ⟨y, -, ⟨-, rfl⟩ | ⟨cb, -, rfl⟩⟩ := mbsSessionDoCallback_eq_ok h <;> rfl

theorem tmgiParts_sessionAnswer {n : ℕ} {rsp : Response} {x : Xact} {session : Option Ref}
    (hx : w.findXact n = some x) (hsession : contextSbiObjectToSession w x.sbiObject = session)
    (h : SessionAnswer (handlingState w x rsp) x rsp session w') :
    TmgiParts w (.network (.response n rsp)) (handlingState w x rsp) w' := by
  cases h with
  | ignored _ => exact .refl
  | unparsable hparsed h => exact .quiet (SameTmgis.mbsSessionDoCallback h)
  | created hparsed hrequest h =>
      rename_i s carried embedded
      have hanswers : Answers w n rsp x s := ⟨hx, hsession, hparsed⟩
      have hcreate : x.request.isCreate = true := by rw [hrequest]; rfl
      rcases handleCreateResponse_cases h with ⟨-, hcb⟩ | ⟨hstatus, v, hparse, hcb⟩ |
        ⟨hstatus, v, v', hparse, hcb, hpush⟩
      · exact .quiet (SameTmgis.mbsSessionDoCallback hcb)
      · exact ReflTransGen.head (.parse rfl hanswers hcreate hstatus hparse)
          (TmgiParts.quiet (SameTmgis.mbsSessionDoCallback hcb))
      · exact ReflTransGen.head (.parse rfl hanswers hcreate hstatus hparse) (TmgiParts.quiet
          ((SameTmgis.mbsSessionDoCallback hcb).trans (SameTmgis.mbsSessionPushChanges hpush)))
  | removed hparsed hrequest hid hy h =>
      rename_i s id y
      have hanswers : Answers w n rsp x s := ⟨hx, hsession, hparsed⟩
      simp only [nmbsmfMbsSessionDeleteResponse, bind_eq_ok] at h
      obtain ⟨v, hcb, hleave⟩ := h
      have hquiet : SameTmgis (handlingState w x rsp) v :=
        (SameTmgis.refCountSbiObjectRef y.sbiObject).trans (SameTmgis.mbsSessionDoCallback hcb)
      have hsessions : v.sessionStore = w.sessionStore := by
        rw [sessionStore_mbsSessionDoCallback hcb, World.refCountSbiObjectRef_sessionStore]
        rfl
      exact ReflTransGen.head (.quiet hquiet) (.single (.left rfl hanswers hrequest hid
        (sameTmgis_handlingState.trans hquiet) hsessions hleave))
  | updated hparsed hrequest hid h => exact .quiet (SameTmgis.mbsSessionDoCallback h)

theorem tmgiParts_networkStep {event : NetworkEvent} (hsound : XactsSound w)
    (h : networkStep w event = .ok w') : TmgiParts w (.network event) w w' := by
  cases event with
  | discovery n found =>
      simp only [networkStep, Except.ok.injEq] at h
      subst h
      rcases processDiscovery_cases w n found with heq | heq
      · rw [heq]
      · rw [heq]
        exact .quiet (.of_rfl rfl rfl rfl rfl)
  | response n rsp =>
      rcases processResponse_cases h with ⟨-, rfl⟩ | ⟨sent, hsent, ⟨rfl, -⟩ |
        ⟨x, session, tmgi, v, held, hx, rfl, rfl, hfound, hv, rfl⟩⟩
      · exact .refl
      · exact .quiet (.of_rfl rfl rfl rfl rfl)
      · have hid := (findXact_eq_some hx).2
        obtain rfl := eq_of_findXact hsound hx hsent
        have hstate : (w.say (.answered sent rsp)).say (.handled n
            (contextSbiObjectToSession w sent.sbiObject)
            (contextSbiObjectToTmgi w sent.sbiObject)) = handlingState w sent rsp := by
          rw [handlingState, hid]
        rw [hstate] at hv
        have hstart : SameTmgis w (handlingState w sent rsp) := sameTmgis_handlingState
        refine ReflTransGen.head (.quiet hstart) ?_
        refine ReflTransGen.tail ?_ (.quiet (SameTmgis.finishEvent n held))
        split at hv
        · rename_i hservice
          exact tmgiParts_tmgiAnswer hx hservice hfound sameTmgis_handlingState
            (fun t ht => List.mem_of_find?_eq_some ht) hv
        · rename_i hservice
          exact tmgiParts_sessionAnswer hx rfl
            (processSessionResponse_cases (by simpa using hservice) hv)
  | timeout n =>
      rcases processTimeout_cases h with ⟨-, rfl⟩ | ⟨x, hx, ⟨-, rfl⟩ | ⟨s, v, hs, hv, rfl⟩⟩
      · exact .refl
      · exact .quiet (.of_rfl rfl rfl rfl rfl)
      · have hstart : SameTmgis w ((w.say (.timedOut x)).say
            (.handled n (some s) (contextSbiObjectToTmgi w x.sbiObject))) := .of_rfl rfl rfl rfl rfl
        have hend : SameTmgis v (v.removeXact n) := .of_rfl rfl rfl rfl rfl
        rcases reportTimeout_cases hv with ⟨t, -, ht, hcb⟩ | ⟨-, hcb⟩ | ⟨-, rfl⟩
        · have hmem : t ∈ w.tmgis := List.mem_of_find?_eq_some ht
          exact .quiet ((hstart.trans (SameTmgis.tmgiDoCallback hmem hcb)).trans hend)
        · exact .quiet ((hstart.trans (SameTmgis.mbsSessionDoCallback hcb)).trans hend)
        · exact .quiet (hstart.trans hend)

theorem step_tmgiParts (hsound : XactsSound w) (h : step w e = .ok w') : TmgiParts w e w w' := by
  cases e with
  | tmgi call => exact tmgiParts_tmgiStep h
  | subscription call => exact .quiet (SameTmgis.subscriptionStep h)
  | session call => exact .quiet (SameTmgis.sessionStep h)
  | network event => exact tmgiParts_networkStep hsound h

/-! ## Answers that are handled -/

theorem eq_tmgiDeallocate {r : Request} (hservice : r.isTmgi = true) (hmethod : r.method = .delete) :
    ∃ contents, r = .tmgiDeallocate contents := by
  cases r with
  | tmgiDeallocate contents => exact ⟨contents, rfl⟩
  | tmgiAllocate newTmgis refresh => cases hmethod
  | _ => cases hservice

section Handled

variable {n : ℕ} {rsp : Response} {x : Xact}

/-- An answer for which a session or a TMGI is found goes to the branch for its service. -/
theorem response_handled (hsound : XactsSound w) (hx : w.findXact n = some x)
    (hfound : ¬(contextSbiObjectToSession w x.sbiObject = none ∧
      contextSbiObjectToTmgi w x.sbiObject = none))
    (h : step w (.network (.response n rsp)) = .ok w') :
    ∃ v held, w' = finishEvent n held v ∧
      (if x.request.isTmgi then processTmgiResponse (handlingState w x rsp) x
          (contextSbiObjectToTmgi w x.sbiObject) rsp
        else processSessionResponse (handlingState w x rsp) x
          (contextSbiObjectToSession w x.sbiObject) rsp) = .ok v := by
  have hsent := findSent_of_findXact hsound hx
  obtain ⟨-, hid⟩ := findXact_eq_some hx
  rcases processResponse_cases h with ⟨hnone, -⟩ | ⟨sent, hsent', ⟨-, hnone⟩ |
    ⟨x', session, tmgi, v, held, hx', rfl, rfl, -, hv, rfl⟩⟩
  · rw [hsent] at hnone
    cases hnone
  · exact absurd (hnone x hx) hfound
  · obtain rfl := Option.some.inj (hsent.symm.trans hsent')
    obtain rfl := Option.some.inj (hx.symm.trans hx')
    refine ⟨v, held, rfl, ?_⟩
    rw [handlingState, hid]
    exact hv

theorem handleCreateResponse_of_answers (hsound : XactsSound w) (hanswers : Answers w n rsp x s)
    (hcreate : x.request.isCreate = true) (h : step w (.network (.response n rsp)) = .ok w') :
    ∃ v held, w' = finishEvent n held v ∧
      handleCreateResponse (handlingState w x rsp) x.id s rsp = .ok v := by
  have hfound : ¬(contextSbiObjectToSession w x.sbiObject = none ∧
      contextSbiObjectToTmgi w x.sbiObject = none) := by
    rw [hanswers.session]
    exact fun hnone => by cases hnone.1
  obtain ⟨v, held, hw', hv⟩ := response_handled hsound hanswers.outstanding hfound h
  cases hrequest : x.request with
  | create carried embedded =>
      simp only [hrequest, Request.isTmgi, Bool.false_eq_true, if_false, hanswers.session,
        processSessionResponse, hanswers.parsed, Bool.not_true, Request.component1,
        Request.component2, Request.method] at hv
      exact ⟨v, held, hw', hv⟩
  | _ =>
      rw [hrequest] at hcreate
      cases hcreate

theorem tmgiAnswer_of_answers (hsound : XactsSound w) (hanswers : TmgiAnswers w n rsp x)
    (h : step w (.network (.response n rsp)) = .ok w') :
    ∃ v held, w' = finishEvent n held v ∧
      processTmgiResponse (handlingState w x rsp) x (contextSbiObjectToTmgi w x.sbiObject) rsp =
        .ok v := by
  obtain ⟨v, held, hw', hv⟩ := response_handled hsound hanswers.outstanding hanswers.found h
  rw [if_pos hanswers.service] at hv
  exact ⟨v, held, hw', hv⟩

/-- The answer to a TMGI request that does not reach the branch for its method leaves the
TMGI objects alone. -/
theorem sameTmgis_of_not_tmgiAnswers (hsound : XactsSound w) (hsent : w.findSent n = some x)
    (hservice : x.request.isTmgi = true) (hnot : ¬ TmgiAnswers w n rsp x)
    (h : step w (.network (.response n rsp)) = .ok w') : SameTmgis w w' := by
  rcases processResponse_cases h with ⟨-, rfl⟩ | ⟨sent, hsent', ⟨rfl, -⟩ |
    ⟨x', session, tmgi, v, held, hx', rfl, rfl, hfound, hv, rfl⟩⟩
  · exact SameTmgis.refl _
  · exact .of_rfl rfl rfl rfl rfl
  · obtain rfl := Option.some.inj ((findSent_of_findXact hsound hx').symm.trans hsent)
    have hparsed : rsp.parsed = false := by
      rw [← Bool.not_eq_true]
      exact fun hparsed => hnot ⟨hx', hfound, hservice, hparsed⟩
    rw [if_pos hservice] at hv
    simp only [processTmgiResponse, hparsed, Bool.not_false, if_true] at hv
    cases htmgi : contextSbiObjectToTmgi w x'.sbiObject with
    | none =>
        rw [htmgi] at hv
        cases hv
    | some t =>
        rw [htmgi] at hv
        have hmem : t ∈ w.tmgis := List.mem_of_find?_eq_some htmgi
        have hstart : SameTmgis w ((w.say (.answered sent rsp)).say
            (.handled n (contextSbiObjectToSession w x'.sbiObject) (some t))) :=
          .of_rfl rfl rfl rfl rfl
        exact (hstart.trans (SameTmgis.tmgiDoCallback hmem hv)).trans
          (SameTmgis.finishEvent n held)

end Handled

end ServiceConsumers.TmgiSteps
