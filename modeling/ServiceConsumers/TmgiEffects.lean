import ServiceConsumers.TransactionLog

set_option autoImplicit false

/-!
# What TMGI operations leave alone

The operations on TMGI objects and on SBI objects never touch a session or a subscription.
-/

namespace ServiceConsumers.TmgiEffects

open ObjectStore PublicSessions ConsumerState TmgiOperations SubscriptionOperations
  SessionOperations ResponseHandlers ProcessEvent TransitionRuns TransactionLog

/-- What operations on TMGIs may say. -/
def TmgiObservation : Observation → Prop
  | .sent x => x.request.isTmgi = true
  | .dropped _ => True
  | .tmgiCallback .. => True
  | _ => False

structure TmgiEffect (w w' : World) : Prop where
  mbsSessions : w'.mbsSessions = w.mbsSessions
  sessionStore : w'.sessionStore = w.sessionStore
  subscriptionStore : w'.subscriptionStore = w.subscriptionStore
  log : Extends TmgiObservation w w'

namespace TmgiEffect

variable {w w' w'' : World}

theorem refl (w : World) : TmgiEffect w w := ⟨rfl, rfl, rfl, Extends.refl w⟩

theorem trans (h₁ : TmgiEffect w w') (h₂ : TmgiEffect w' w'') : TmgiEffect w w'' :=
  ⟨h₂.mbsSessions.trans h₁.mbsSessions, h₂.sessionStore.trans h₁.sessionStore,
    h₂.subscriptionStore.trans h₁.subscriptionStore, h₁.log.trans h₂.log⟩

theorem foldlM {α : Type} {f : World → α → Except Fault World} {xs : List α}
    (hstep : ∀ x v v', f v x = .ok v' → TmgiEffect v v') (h : xs.foldlM f w = .ok w') :
    TmgiEffect w w' :=
  foldlM_ok_induction (fun _ v => TmgiEffect w v)
    (fun x _ v v' hv hf => hv.trans (hstep x v v' hf)) xs w w' (refl w) h

end TmgiEffect

variable {w w' : World}

/-! ## Objects -/

theorem tmgiEffect_tmgiCreate (callback : Option ResultCallback) :
    TmgiEffect w (tmgiCreate w callback).1 :=
  ⟨rfl, rfl, rfl, Extends.of_silent rfl (List.Sublist.refl _) (Nat.le_succ _)⟩

theorem tmgiEffect_contextRemoveTmgi {t : Ref} (h : contextRemoveTmgi w t = .ok w') :
    TmgiEffect w w' := by
  unfold contextRemoveTmgi at h
  split at h
  · rw [Except.ok.injEq] at h
    subst h
    exact ⟨rfl, rfl, rfl, Extends.of_silent rfl (List.Sublist.refl _) (le_refl _)⟩
  · cases h

theorem tmgiEffect_refCountSbiObjectUnref (o : Option Ref) :
    TmgiEffect w (w.refCountSbiObjectUnref o) :=
  ⟨by simp, by simp, by simp, extends_refCountSbiObjectUnref (fun _ => trivial) o⟩

theorem tmgiEffect_refCountSbiObjectRef (o : Option Ref) :
    TmgiEffect w (w.refCountSbiObjectRef o) :=
  ⟨by simp, by simp, by simp, extends_refCountSbiObjectRef o⟩

theorem tmgiEffect_refCountSbiObjectNew : TmgiEffect w w.refCountSbiObjectNew.1 :=
  ⟨rfl, rfl, rfl, Extends.of_silent rfl (List.Sublist.refl _) (Nat.le_succ _)⟩

theorem tmgiEffect_modifyTmgi (t : Ref) (f : PrivTmgi → PrivTmgi) :
    TmgiEffect w (w.modifyTmgi t f) :=
  ⟨rfl, rfl, rfl, Extends.of_silent rfl (List.Sublist.refl _) (le_refl _)⟩

theorem tmgiEffect_tmgiFree {t : Ref} (h : tmgiFree w t = .ok w') : TmgiEffect w w' := by
  simp only [tmgiFree, bind_eq_ok, Except.ok.injEq] at h
  obtain ⟨x, -, v, hv, rfl⟩ := h
  have hremove := tmgiEffect_contextRemoveTmgi hv
  have hunref := tmgiEffect_refCountSbiObjectUnref (w := v) x.sbiObject
  exact (hremove.trans hunref).trans
    ⟨rfl, rfl, rfl, Extends.of_silent rfl (List.Sublist.refl _) (le_refl _)⟩

theorem tmgiEffect_tmgiReplaceSbiObject {t : Ref} {o : Option Ref}
    (h : tmgiReplaceSbiObject w t o = .ok w') : TmgiEffect w w' := by
  simp only [tmgiReplaceSbiObject, bind_eq_ok, Except.ok.injEq] at h
  obtain ⟨x, -, rfl⟩ := h
  exact ((tmgiEffect_refCountSbiObjectUnref x.sbiObject).trans
    (tmgiEffect_refCountSbiObjectRef o)).trans (tmgiEffect_modifyTmgi t _)

theorem tmgiEffect_tmgiCopy {dest src d : Option Ref} (h : tmgiCopy w dest src = .ok (w', d)) :
    TmgiEffect w w' := by
  unfold tmgiCopy at h
  by_cases heq : dest = src
  · rw [if_pos heq, Except.ok.injEq, Prod.mk.injEq] at h
    rw [← h.1]
    exact TmgiEffect.refl w
  · rw [if_neg heq] at h
    cases src with
    | none =>
        cases dest with
        | none => exact absurd rfl heq
        | some r =>
            simp only [bind_eq_ok, Except.ok.injEq, Prod.mk.injEq] at h
            obtain ⟨v, hv, rfl, -⟩ := h
            exact tmgiEffect_tmgiFree hv
    | some t =>
        cases dest with
        | none =>
            simp only [bind_eq_ok, Except.ok.injEq, Prod.mk.injEq] at h
            obtain ⟨x, -, y, -, v, hv, rfl, -⟩ := h
            exact ((tmgiEffect_tmgiCreate x.callback).trans (tmgiEffect_modifyTmgi _ _)).trans
              (tmgiEffect_tmgiReplaceSbiObject hv)
        | some r =>
            simp only [bind_eq_ok, Except.ok.injEq, Prod.mk.injEq] at h
            obtain ⟨x, -, y, -, v, hv, rfl, -⟩ := h
            exact (tmgiEffect_modifyTmgi _ _).trans (tmgiEffect_tmgiReplaceSbiObject hv)

/-! ## Requests -/

theorem tmgiEffect_sbiXactAdd {sbi : Option Ref} {requester : Requester}
    {build : Except Fault Request} (hbuild : ∀ r, build = .ok r → r.isTmgi = true)
    (h : w.sbiXactAdd sbi requester build = .ok w') : TmgiEffect w w' := by
  have hlog : Extends TmgiObservation w w' :=
    extends_sbiXactAdd (fun _ _ r hr => hbuild r hr) h
  obtain ⟨o, r, -, -, rfl⟩ := sbiXactAdd_eq_ok.1 h
  exact ⟨rfl, rfl, rfl, hlog⟩

theorem isTmgi_buildCreate {v : World} {newTmgis refreshTmgis : List Ref} {r : Request}
    (h : nmbsmfTmgiBuildCreate v newTmgis refreshTmgis = .ok r) : r.isTmgi = true := by
  simp only [nmbsmfTmgiBuildCreate, bind_eq_ok, Except.ok.injEq] at h
  obtain ⟨refresh, -, rfl⟩ := h
  rfl

theorem isTmgi_buildRemove {v : World} {tmgis : List Ref} {r : Request}
    (h : nmbsmfTmgiBuildRemove v tmgis = .ok r) : r.isTmgi = true := by
  simp only [nmbsmfTmgiBuildRemove, bind_eq_ok, Except.ok.injEq] at h
  obtain ⟨contents, -, rfl⟩ := h
  rfl

theorem tmgiEffect_shareSbiObject {o : Ref} {t : Ref} (h : shareSbiObject o w t = .ok w') :
    TmgiEffect w w' := by
  simp only [shareSbiObject, bind_eq_ok, Except.ok.injEq] at h
  obtain ⟨x, -, rfl⟩ := h
  exact ((tmgiEffect_refCountSbiObjectUnref x.sbiObject).trans
    (tmgiEffect_refCountSbiObjectRef (some o))).trans (tmgiEffect_modifyTmgi t _)

theorem tmgiEffect_tmgiListSendAllocate {newTmgis refreshTmgis : Option (List Ref)}
    (h : tmgiListSendAllocate w newTmgis refreshTmgis = .ok w') : TmgiEffect w w' := by
  cases newTmgis with
  | some ts =>
      simp only [tmgiListSendAllocate, bind_eq_ok] at h
      obtain ⟨v, hv, h⟩ := h
      have hshare := TmgiEffect.foldlM (fun _ _ _ => tmgiEffect_shareSbiObject) hv
      have hv' := (tmgiEffect_refCountSbiObjectNew.trans hshare).trans
        (tmgiEffect_refCountSbiObjectUnref (w := v) (some w.refCountSbiObjectNew.2))
      split at h
      · cases h
      · exact hv'.trans (tmgiEffect_sbiXactAdd (fun _ => isTmgi_buildCreate) h)
  | none =>
      cases refreshTmgis with
      | none =>
          simp only [tmgiListSendAllocate, Except.ok.injEq] at h
          subst h
          exact TmgiEffect.refl w
      | some ts =>
          cases ts with
          | nil => cases h
          | cons t ts =>
              simp only [tmgiListSendAllocate, bind_eq_ok] at h
              obtain ⟨x, -, h⟩ := h
              exact tmgiEffect_sbiXactAdd (fun _ => isTmgi_buildCreate) h

theorem tmgiEffect_tmgiListSendDeallocate {ts : List Ref}
    (h : tmgiListSendDeallocate w ts = .ok w') : TmgiEffect w w' := by
  cases ts with
  | nil =>
      simp only [tmgiListSendDeallocate, Except.ok.injEq] at h
      subst h
      exact TmgiEffect.refl w
  | cons t ts =>
      simp only [tmgiListSendDeallocate, bind_eq_ok] at h
      obtain ⟨x, -, h⟩ := h
      cases hsbi : x.sbiObject with
      | some o =>
          simp only [hsbi] at h
          exact tmgiEffect_sbiXactAdd (fun _ => isTmgi_buildRemove) h
      | none =>
          simp only [hsbi] at h
          exact (tmgiEffect_refCountSbiObjectNew.trans (tmgiEffect_modifyTmgi t _)).trans
            (tmgiEffect_sbiXactAdd (fun _ => isTmgi_buildRemove) h)

theorem tmgiEffect_tmgiSet {t : Ref} {f : PrivTmgi → PrivTmgi} (h : tmgiSet w t f = .ok w') :
    TmgiEffect w w' := by
  simp only [tmgiSet, bind_eq_ok, Except.ok.injEq] at h
  obtain ⟨x, -, rfl⟩ := h
  exact tmgiEffect_modifyTmgi t f

theorem tmgiEffect_tmgiStep {call : TmgiCall} (h : tmgiStep w call = .ok w') :
    TmgiEffect w w' := by
  cases call <;> simp only [tmgiStep] at h
  case create callback =>
    exact (tmgiEffect_tmgiCreate callback).trans (tmgiEffect_tmgiListSendAllocate h)
  case new =>
    rw [Except.ok.injEq] at h
    subst h
    exact tmgiEffect_tmgiCreate none
  case free t => exact tmgiEffect_tmgiFree h
  case setMbsServiceId t _ => exact tmgiEffect_tmgiSet h
  case setPlmn t _ _ => exact tmgiEffect_tmgiSet h
  case setExpiryTime t _ => exact tmgiEffect_tmgiSet h
  case setCallback t _ => exact tmgiEffect_tmgiSet h
  case sendDeallocate t => exact tmgiEffect_tmgiListSendDeallocate h
  all_goals exact tmgiEffect_tmgiListSendAllocate h

/-! ## Answers -/

theorem tmgiEffect_tmgiDoCallback {n : ℕ} {t : Ref} {result : CallbackResult}
    {problem : Option ProblemDetails} (h : tmgiDoCallback w n t result problem = .ok w') :
    TmgiEffect w w' := by
  simp only [tmgiDoCallback, bind_eq_ok] at h
  obtain ⟨x, -, h⟩ := h
  split at h
  · rw [Except.ok.injEq] at h
    subst h
    exact TmgiEffect.refl w
  · rw [Except.ok.injEq] at h
    subst h
    exact ⟨rfl, rfl, rfl, Extends.say trivial rfl⟩

theorem tmgiEffect_takeAllocated {n : ℕ} {expiryTime : ℤ} {api : ApiTmgi}
    (h : takeAllocated n expiryTime w api = .ok w') : TmgiEffect w w' := by
  unfold takeAllocated at h
  split at h
  · rw [Except.ok.injEq] at h
    subst h
    exact TmgiEffect.refl w
  · rename_i t _
    exact (((tmgiEffect_modifyTmgi t _).trans (tmgiEffect_modifyTmgi t _)).trans
      (tmgiEffect_modifyTmgi t _)).trans (tmgiEffect_tmgiDoCallback h)

theorem tmgiEffect_reportRefused {n : ℕ} {problem : Option ProblemDetails} {c : Tmgi}
    (h : reportRefused n problem w c = .ok w') : TmgiEffect w w' := by
  unfold reportRefused at h
  split at h
  · rw [Except.ok.injEq] at h
    subst h
    exact TmgiEffect.refl w
  · exact tmgiEffect_tmgiDoCallback h

theorem tmgiEffect_doTmgiRemove {n : ℕ} {rsp : Response} {c : Tmgi}
    (h : doTmgiRemove n rsp w c = .ok w') : TmgiEffect w w' := by
  unfold doTmgiRemove at h
  split at h
  · rw [Except.ok.injEq] at h
    subst h
    exact TmgiEffect.refl w
  · simp only [bind_eq_ok] at h
    obtain ⟨v, hv, h⟩ := h
    refine TmgiEffect.trans ?_ (tmgiEffect_contextRemoveTmgi h)
    split at hv <;> exact tmgiEffect_tmgiDoCallback hv

theorem tmgiEffect_nmbsmfTmgiAllocated {x : Xact} {rsp : Response}
    (h : nmbsmfTmgiAllocated w x rsp = .ok w') : TmgiEffect w w' := by
  unfold nmbsmfTmgiAllocated at h
  split at h
  · split at h
    · rw [Except.ok.injEq] at h
      subst h
      exact TmgiEffect.refl w
    · exact TmgiEffect.foldlM (fun _ _ _ => tmgiEffect_takeAllocated) h
  · exact TmgiEffect.foldlM (fun _ _ _ => tmgiEffect_reportRefused) h

theorem tmgiEffect_nmbsmfTmgiDeallocated {x : Xact} {rsp : Response}
    (h : nmbsmfTmgiDeallocated w x rsp = .ok w') : TmgiEffect w w' :=
  TmgiEffect.foldlM (fun _ _ _ => tmgiEffect_doTmgiRemove) h

theorem tmgiEffect_processTmgiResponse {x : Xact} {tmgi : Option Ref} {rsp : Response}
    (h : processTmgiResponse w x tmgi rsp = .ok w') : TmgiEffect w w' := by
  unfold processTmgiResponse at h
  split at h
  · split at h
    · cases h
    · exact tmgiEffect_tmgiDoCallback h
  · split at h
    · exact tmgiEffect_nmbsmfTmgiAllocated h
    · split at h
      · cases h
      · simp only [bind_eq_ok] at h
        obtain ⟨y, -, h⟩ := h
        exact (tmgiEffect_refCountSbiObjectRef y.sbiObject).trans
          (tmgiEffect_nmbsmfTmgiDeallocated h)
    · rw [Except.ok.injEq] at h
      subst h
      exact TmgiEffect.refl w

/-! ## The TMGIs of sessions -/

theorem tmgiEffect_createdTmgi {s : Ref} {m : CreatedSession} {t : Option Ref}
    (h : createdTmgi w s m = .ok (w', t)) : TmgiEffect w w' := by
  unfold createdTmgi at h
  split at h
  · rename_i api stamp _ _
    have hnew : TmgiEffect w (((tmgiCreate w none).1.modifyTmgi (tmgiCreate w none).2
        (tmgiSetMbsServiceId api.mbsServiceId)).modifyTmgi (tmgiCreate w none).2
        (tmgiSetPlmn api.mccNumber api.mncNumber)) :=
      ((tmgiEffect_tmgiCreate none).trans (tmgiEffect_modifyTmgi _ _)).trans
        (tmgiEffect_modifyTmgi _ _)
    cases stamp with
    | malformed =>
        simp only [bind_eq_ok, Except.ok.injEq, Prod.mk.injEq] at h
        obtain ⟨v, hv, rfl, -⟩ := h
        exact hnew.trans (tmgiEffect_contextRemoveTmgi hv)
    | seconds expiryTime =>
        simp only [bind_eq_ok, Except.ok.injEq, Prod.mk.injEq] at h
        obtain ⟨x, -, v, hv, rfl, -⟩ := h
        exact (hnew.trans (tmgiEffect_modifyTmgi _ _)).trans
          (tmgiEffect_tmgiReplaceSbiObject hv)
  · rw [Except.ok.injEq, Prod.mk.injEq] at h
    rw [← h.1]
    exact TmgiEffect.refl w

/-- A copy of a session is made of TMGI operations, and its fields are copied. -/
theorem mbsSessionPublicCopy_eq_ok {dest : Option (PublicSession Ref)}
    {src copy : PublicSession Ref} (h : mbsSessionPublicCopy w dest src = .ok (w', copy)) :
    TmgiEffect w w' ∧ ∃ tmgi, publicCopyFields (dest.getD {}) src tmgi = some copy ∧
      (if src.tmgiReq then tmgiCopy w (dest.getD {}).tmgi src.tmgi else .ok (w, src.tmgi)) =
        .ok (w', tmgi) := by
  simp only [mbsSessionPublicCopy, bind_eq_ok, Prod.exists] at h
  obtain ⟨v, tmgi, hv, h⟩ := h
  split at h
  · cases h
  · rename_i c hc
    rw [Except.ok.injEq, Prod.mk.injEq] at h
    obtain ⟨rfl, rfl⟩ := h
    refine ⟨?_, tmgi, hc, hv⟩
    split at hv
    · exact tmgiEffect_tmgiCopy hv
    · rw [Except.ok.injEq, Prod.mk.injEq] at hv
      rw [← hv.1]
      exact TmgiEffect.refl w

theorem tmgiEffect_mbsSessionPublicClear {p : PublicSession Ref}
    (h : mbsSessionPublicClear w p = .ok w') : TmgiEffect w w' := by
  unfold mbsSessionPublicClear at h
  split at h
  · split at h
    · exact tmgiEffect_tmgiFree h
    · rw [Except.ok.injEq] at h
      subst h
      exact TmgiEffect.refl w
  · rw [Except.ok.injEq] at h
    subst h
    exact TmgiEffect.refl w

theorem tmgiEffect_finishEvent (n : ℕ) (held : Option Ref) :
    TmgiEffect w (finishEvent n held w) := by
  have hremove : TmgiEffect w (w.removeXact n) := ⟨rfl, rfl, rfl, extends_removeXact n⟩
  exact hremove.trans (tmgiEffect_refCountSbiObjectUnref held)

end ServiceConsumers.TmgiEffects
