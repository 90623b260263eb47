import ServiceConsumers.Quiescence
import ServiceConsumers.SessionCallbacks
import ServiceConsumers.TmgiSteps

set_option autoImplicit false

/-!
# TMGI objects in session handling

Session handling makes a TMGI object for a grant, copies TMGIs between a session and the copy
that is kept of it, and frees those of a session that leaves.
-/

namespace ServiceConsumers.SessionTmgis

open ObjectStore PublicSessions ConsumerState TmgiOperations SessionOperations ResponseHandlers
  TransitionRuns TmgiEffects AnswerEffects TmgiContents Quiescence SessionCallbacks TmgiSteps

variable {w w' v v' : World} {dst src : PublicSession Ref} {r : Option Ref} {s t : Ref}

/-! ## Objects that come and go -/

/-- A new object at the end of the registry. -/
def withTmgi (w : World) (x : PrivTmgi) : World :=
  { w with
    tmgis := w.tmgis ++ [w.next]
    tmgiStore := w.tmgiStore.set w.next x
    next := w.next + 1 }

/-- An object leaves the registry and is freed. -/
def withoutTmgi (w : World) (t : Ref) : World :=
  { w with tmgis := w.tmgis.erase t, tmgiStore := w.tmgiStore.free t }

theorem withoutTmgi_of_tmgiFree (h : tmgiFree w t = .ok w') :
    t ∈ w.tmgis ∧ (w.tmgiStore t).isSome = true ∧ SameTmgis (withoutTmgi w t) w' := by
  obtain ⟨x, hx, ht, rfl⟩ := tmgiFree_eq_ok.1 h
  refine ⟨ht, by rw [hx]; rfl, .of_rfl ?_ rfl ?_ ?_⟩
  · exact World.refCountSbiObjectUnref_tmgis _ _
  · exact World.refCountSbiObjectUnref_next _ _
  · exact calledTmgis_refCountSbiObjectUnref _

/-! ## Copies -/

/-- What the copy of a TMGI does to the objects. -/
inductive CopyEffect (w : World) (dst src : PublicSession Ref) (w' : World) : Prop where
  | shared (same : SameTmgis w w')
  | freed {d : Ref} (req : src.tmgiReq = true) (source : src.tmgi = none)
      (target : dst.tmgi = some d) (registered : d ∈ w.tmgis)
      (live : (w.tmgiStore d).isSome = true) (same : SameTmgis (withoutTmgi w d) w')
  | overwritten {t d : Ref} {x : PrivTmgi} (req : src.tmgiReq = true) (source : src.tmgi = some t)
      (target : dst.tmgi = some d) (other : t ≠ d) (live : w.tmgiStore t = some x)
      (same : SameTmgis (w.modifyTmgi d fun y => { y with tmgi := x.tmgi }) w')
  | made {t : Ref} {x : PrivTmgi} (req : src.tmgiReq = true) (source : src.tmgi = some t)
      (target : dst.tmgi = none) (live : w.tmgiStore t = some x)
      (same : SameTmgis (withTmgi w { tmgi := x.tmgi, callback := x.callback }) w')

theorem sameTmgis_copyTarget (w : World) (x : PrivTmgi) :
    SameTmgis (withTmgi w { tmgi := x.tmgi, callback := x.callback })
      ((copyTarget w x none).1.modifyTmgi (copyTarget w x none).2
        fun y => { y with tmgi := x.tmgi }) := by
  exact .of_rfl rfl (Store.modify_set _ _ _ _) rfl rfl

theorem copyEffect_copyTmgi (h : copyTmgi w dst src = .ok (w', r)) : CopyEffect w dst src w' := by
  unfold copyTmgi at h
  by_cases hreq : src.tmgiReq = true
  swap
  · rw [if_neg hreq, Except.ok.injEq, Prod.mk.injEq] at h
    exact .shared (h.1 ▸ SameTmgis.refl w)
  rw [if_pos hreq] at h
  by_cases hsame : dst.tmgi = src.tmgi
  · rw [hsame, tmgiCopy_self, Except.ok.injEq, Prod.mk.injEq] at h
    exact .shared (h.1 ▸ SameTmgis.refl w)
  cases hsrc : src.tmgi with
  | none =>
      rw [hsrc] at h hsame
      obtain ⟨d, hd⟩ := Option.ne_none_iff_exists'.1 hsame
      rw [hd, tmgiCopy_none_eq_ok] at h
      obtain ⟨hmem, hlive, hfree⟩ := withoutTmgi_of_tmgiFree h.1
      exact .freed hreq hsrc hd hmem hlive hfree
  | some t =>
      rw [hsrc] at h hsame
      obtain ⟨x, hx, -, -, hreplace⟩ := (tmgiCopy_some_eq_ok hsame).1 h
      have hsbi := SameTmgis.tmgiReplaceSbiObject hreplace
      cases hdst : dst.tmgi with
      | none =>
          rw [hdst] at hsbi
          exact .made hreq hsrc hdst hx ((sameTmgis_copyTarget w x).trans hsbi)
      | some d =>
          rw [hdst] at hsbi hsame
          exact .overwritten hreq hsrc hdst (fun heq => hsame (by rw [heq])) hx hsbi

theorem copyEffect_mbsSessionPublicCopy {dest : Option (PublicSession Ref)}
    {copy : PublicSession Ref} (h : mbsSessionPublicCopy w dest src = .ok (w', copy)) :
    CopyEffect w (dest.getD {}) src w' := by
  obtain ⟨r, hr, -, -⟩ := mbsSessionPublicCopy_iff.1 h
  exact copyEffect_copyTmgi hr

theorem CopyEffect.trans_same (h : CopyEffect w dst src v) (hsame : SameTmgis v v') :
    CopyEffect w dst src v' := by
  cases h with
  | shared same => exact .shared (same.trans hsame)
  | freed req source target registered live same =>
      exact .freed req source target registered live (same.trans hsame)
  | overwritten req source target other live same =>
      exact .overwritten req source target other live (same.trans hsame)
  | made req source target live same => exact .made req source target live (same.trans hsame)

/-- The effect is about the registry and the TMGI objects only. -/
theorem CopyEffect.congr (h : CopyEffect v dst src w') (htmgis : v.tmgis = w.tmgis)
    (hstore : v.tmgiStore = w.tmgiStore) (hnext : v.next = w.next)
    (hcalled : calledTmgis v.log = calledTmgis w.log) : CopyEffect w dst src w' := by
  cases h with
  | shared same => exact .shared ((SameTmgis.of_rfl htmgis hstore hnext hcalled).trans same)
  | @freed d req source target registered live same =>
      refine .freed req source target (htmgis ▸ registered) (hstore ▸ live) (.trans ?_ same)
      exact .of_rfl (by rw [withoutTmgi, withoutTmgi, htmgis])
        (by rw [withoutTmgi, withoutTmgi, hstore]) hnext hcalled
  | @overwritten t d x req source target other live same =>
      have hmodify : SameTmgis (w.modifyTmgi d fun y => { y with tmgi := x.tmgi })
          (v.modifyTmgi d fun y => { y with tmgi := x.tmgi }) :=
        .of_rfl htmgis (congrArg
          (fun store : Store PrivTmgi => store.modify d fun y => { y with tmgi := x.tmgi }) hstore)
          hnext hcalled
      exact .overwritten req source target other (hstore ▸ live) (hmodify.trans same)
  | @made t x req source target live same =>
      refine .made req source target (hstore ▸ live) (.trans ?_ same)
      exact .of_rfl (by rw [withTmgi, withTmgi, htmgis, hnext])
        (by rw [withTmgi, withTmgi, hstore, hnext]) (congrArg (· + 1) hnext) hcalled

theorem CopyEffect.next (h : CopyEffect w dst src w') : w.next ≤ w'.next := by
  cases h with
  | shared same => exact same.next
  | freed req source target registered live same => exact same.next
  | overwritten req source target other live same => exact same.next
  | made req source target live same => exact (Nat.le_succ _).trans same.next

/-! ## Answers -/

theorem copyEffect_parseSessionId {y : MbsSession} {m : CreatedSession}
    (hy : w.sessionStore s = some y) (h : parseSessionId w s m = .ok w') :
    ∃ src, src.tmgi = y.session.tmgi ∧ src.tmgiReq = y.session.tmgiReq ∧
      CopyEffect w (y.previousSession.getD {}) src w' := by
  cases hm : m.mbsSessionId with
  | none =>
      rw [parseSessionId, hm] at h
      cases h
  | some answer =>
      rw [parseSessionId_eq hy hm, refreshPrevious_eq_ok] at h
      obtain ⟨v, copy, hcopy, rfl⟩ := h
      refine ⟨answeredSession y.session answer, ?_, ?_, ?_⟩
      · cases answer <;> rfl
      · cases answer <;> rfl
      · have heffect : CopyEffect (w.setSession s _) (y.previousSession.getD {})
            (answeredSession y.session answer) v := copyEffect_mbsSessionPublicCopy hcopy
        have hstart : CopyEffect w (y.previousSession.getD {})
            (answeredSession y.session answer) v := heffect.congr rfl rfl rfl rfl
        exact hstart.trans_same (.of_rfl rfl rfl rfl rfl)

/-- An object for a grant; one whose time stamp is malformed has left the registry again. -/
theorem createdTmgi_tmgis {m : CreatedSession} {tmgi : Option Ref}
    (h : createdTmgi w s m = .ok (w', tmgi)) :
    (tmgi = none ∧ (SameTmgis w w' ∨ ∃ x, w'.tmgis = (w.tmgis ++ [w.next]).erase w.next ∧
      w'.tmgiStore = w.tmgiStore.set w.next x ∧ w'.next = w.next + 1 ∧
      calledTmgis w'.log = calledTmgis w.log)) ∨
    (tmgi = some w.next ∧ ∃ x, SameTmgis (withTmgi w x) w') := by
  unfold createdTmgi at h
  split at h
  swap
  · rw [Except.ok.injEq, Prod.mk.injEq] at h
    exact .inl ⟨h.2.symm, .inl (h.1 ▸ SameTmgis.refl w)⟩
  rename_i api stamp _ _
  have hmade : ∀ f g : PrivTmgi → PrivTmgi,
      (((tmgiCreate w none).1.modifyTmgi w.next f).modifyTmgi w.next g) =
        withTmgi w (g (f {})) := by
    intro f g
    simp only [tmgiCreate, World.modifyTmgi, withTmgi, Store.modify_set]
  have hset : ∀ (x : PrivTmgi) f, (withTmgi w x).modifyTmgi w.next f = withTmgi w (f x) := by
    intro x f
    simp only [World.modifyTmgi, withTmgi, Store.modify_set]
  cases stamp with
  | malformed =>
      simp only [bind_eq_ok, Except.ok.injEq, Prod.mk.injEq] at h
      obtain ⟨v, hv, rfl, rfl⟩ := h
      obtain ⟨-, rfl⟩ := contextRemoveTmgi_eq_ok.1 hv
      have heq := hmade (tmgiSetMbsServiceId api.mbsServiceId)
        (tmgiSetPlmn api.mccNumber api.mncNumber)
      exact .inl ⟨rfl, .inr ⟨_, congrArg (fun u => u.tmgis.erase w.next) heq,
        congrArg World.tmgiStore heq, rfl, rfl⟩⟩
  | seconds expiryTime =>
      simp only [bind_eq_ok, Except.ok.injEq, Prod.mk.injEq] at h
      obtain ⟨x, -, v, hv, rfl, rfl⟩ := h
      have heq := hmade (tmgiSetMbsServiceId api.mbsServiceId)
        (tmgiSetPlmn api.mccNumber api.mncNumber)
      refine .inr ⟨rfl, tmgiSetExpiryTime expiryTime (tmgiSetPlmn api.mccNumber api.mncNumber
        (tmgiSetMbsServiceId api.mbsServiceId {})), ?_⟩
      rw [← hset, ← heq]
      exact SameTmgis.tmgiReplaceSbiObject hv

/-- What an answer to a create request does to the objects. -/
inductive ParseEffect (w : World) (y : MbsSession) (rsp : Response) (w' : World) : Prop where
  | nothing (idle : y.session.tmgiReq = false ∨ createUnderstood y rsp = false)
      (same : SameTmgis w w')
  | discarded {x : PrivTmgi} (misunderstood : createUnderstood y rsp = false)
      (tmgis : w'.tmgis = (w.tmgis ++ [w.next]).erase w.next)
      (store : w'.tmgiStore = w.tmgiStore.set w.next x) (next : w'.next = w.next + 1)
      (called : calledTmgis w'.log = calledTmgis w.log)
  | granted {x : PrivTmgi} {v : World} {src : PublicSession Ref} (req : y.session.tmgiReq = true)
      (understood : createUnderstood y rsp = true) (made : SameTmgis (withTmgi w x) v)
      (source : src.tmgi = some w.next)
      (copied : CopyEffect v (y.previousSession.getD {}) src w')

theorem sameTmgis_of_copyEffect (h : CopyEffect w dst src w') (hreq : src.tmgiReq = false) :
    SameTmgis w w' := by
  cases h with
  | shared same => exact same
  | freed req | overwritten req | made req =>
      rw [hreq] at req
      cases req

theorem parseEffect {y : MbsSession} {rsp : Response} {understood : Bool}
    (hy : w.sessionStore s = some y) (h : nmbsmfMbsSessionParse w s rsp = .ok (w', understood)) :
    ParseEffect w y rsp w' := by
  have hunderstood := nmbsmfMbsSessionParse_understood hy h
  obtain ⟨x, hx, h⟩ := nmbsmfMbsSessionParse_eq_ok h
  obtain rfl := Option.some.inj (hy.symm.trans hx)
  rcases h with ⟨rfl, rfl, -⟩ | ⟨id, -, ⟨rfl, rfl, -⟩ | ⟨m, -, -, h⟩⟩
  · exact .nothing (.inr hunderstood.symm) (.refl _)
  · exact .nothing (.inr hunderstood.symm) (.of_rfl rfl rfl rfl rfl)
  · have hset : SameTmgis w (w.setSession s (parsedHead y id m)) := .of_rfl rfl rfl rfl rfl
    have hstore : (w.setSession s (parsedHead y id m)).sessionStore s =
        some (parsedHead y id m) := Store.set_self _ _ _
    have hreq : (parsedHead y id m).session.tmgiReq = y.session.tmgiReq := by
      simp only [parsedHead]
      split <;> rfl
    rcases h with ⟨htmgi, v, tmgi, hcreated, h⟩ | ⟨htmgi, -, h⟩
    · have heffect := tmgiEffect_createdTmgi hcreated
      have hsession : v.sessionStore s = some (parsedHead y id m) := by
        rw [heffect.sessionStore]
        exact hstore
      rcases createdTmgi_tmgis hcreated with ⟨rfl, hnone⟩ | ⟨rfl, z, hmade⟩
      · obtain ⟨-, rfl, rfl⟩ := h.resolve_right fun ⟨t, ht, _⟩ => by cases ht
        rcases hnone with hsame | ⟨z, htmgis, hz, hnext, hcalled⟩
        · exact .nothing (.inr hunderstood.symm) (hset.trans hsame)
        · exact .discarded hunderstood.symm htmgis hz hnext hcalled
      · obtain ⟨t, ht, rfl, hparse⟩ := h.resolve_left fun ⟨ht, _⟩ => by cases ht
        obtain rfl := Option.some.inj ht
        have hstored : (v.modifySession s (storeTmgi w.next)).sessionStore s =
            some (storeTmgi w.next (parsedHead y id m)) := by
          simp [hsession]
        obtain ⟨src, hsrc, -, hcopy⟩ := copyEffect_parseSessionId hstored hparse
        have hstart : SameTmgis (withTmgi w z) (withTmgi (w.setSession s (parsedHead y id m)) z) :=
          .of_rfl rfl rfl rfl rfl
        exact .granted htmgi hunderstood.symm (hstart.trans hmade) hsrc (hcopy.congr rfl rfl rfl rfl)
    · obtain ⟨src, -, hsrc, hcopy⟩ := copyEffect_parseSessionId hstore h
      exact .nothing (.inl htmgi)
        (hset.trans (sameTmgis_of_copyEffect hcopy (hsrc.trans (hreq.trans htmgi))))

/-! ## The end of a session -/

/-- A session value that asked for its TMGI frees it. -/
def Frees (w : World) (p : PublicSession Ref) (w' : World) : Prop :=
  ∃ v, SameTmgis w v ∧ (SameTmgis v w' ∨ ∃ t, p.tmgiReq = true ∧ p.tmgi = some t ∧
    t ∈ v.tmgis ∧ SameTmgis (withoutTmgi v t) w')

theorem frees_mbsSessionPublicClear {p : PublicSession Ref}
    (h : mbsSessionPublicClear w p = .ok w') : Frees w p w' := by
  refine ⟨w, .refl w, ?_⟩
  unfold mbsSessionPublicClear at h
  split at h
  · rename_i t ht
    split at h
    · rename_i hreq
      obtain ⟨hmem, -, hfree⟩ := withoutTmgi_of_tmgiFree h
      exact .inr ⟨t, hreq, ht, hmem, hfree⟩
    · rw [Except.ok.injEq] at h
      exact .inl (h ▸ SameTmgis.refl _)
  · rw [Except.ok.injEq] at h
    exact .inl (h ▸ SameTmgis.refl _)

theorem Frees.same_trans {p : PublicSession Ref} (hsame : SameTmgis w v) (h : Frees v p w') :
    Frees w p w' := by
  obtain ⟨u, hu, h⟩ := h
  exact ⟨u, hsame.trans hu, h⟩

theorem Frees.trans_same {p : PublicSession Ref} (h : Frees w p v) (hsame : SameTmgis v w') :
    Frees w p w' := by
  obtain ⟨u, hu, h | ⟨t, hreq, ht, hmem, h⟩⟩ := h
  · exact ⟨u, hu, .inl (h.trans hsame)⟩
  · exact ⟨u, hu, .inr ⟨t, hreq, ht, hmem, h.trans hsame⟩⟩

theorem live_of_contextRemoveMbsSession (h : contextRemoveMbsSession w s = .ok w') :
    ∃ y, w.sessionStore s = some y := by
  unfold contextRemoveMbsSession at h
  split at h
  · simp only [mbsSessionDelete, bind_eq_ok, World.sessionAt_eq_ok] at h
    obtain ⟨y, hy, -⟩ := h
    exact ⟨y, hy⟩
  · cases h

/-- The session that leaves frees the TMGI of its copy, then its own. -/
theorem frees_contextRemoveMbsSession {y : MbsSession} (hy : w.sessionStore s = some y)
    (h : contextRemoveMbsSession w s = .ok w') :
    ∃ v, (SameTmgis w v ∨ ∃ p, y.previousSession = some p ∧ Frees w p v) ∧
      Frees v y.session w' := by
  unfold contextRemoveMbsSession at h
  split at h
  swap
  · cases h
  simp only [mbsSessionDelete, bind_eq_ok, World.sessionAt_eq_ok] at h
  obtain ⟨x, hx, v, hv, h⟩ := h
  obtain rfl := Option.some.inj (hy.symm.trans hx)
  split at h
  · cases h
  simp only [bind_eq_ok] at h
  obtain ⟨v', hclear, h⟩ := h
  split at h
  · cases h
  rw [Except.ok.injEq] at h
  obtain ⟨store₁, hstore₁, -⟩ := freeSubscriptions_eq (w := v) y.newSubscriptions
  obtain ⟨store₂, hstore₂, -⟩ := freeSubscriptions_eq
    (w := freeSubscriptions v y.newSubscriptions) y.deletedSubscriptions
  have hfreed : SameTmgis v (freeSubscriptions (freeSubscriptions v y.newSubscriptions)
      y.deletedSubscriptions) := by
    rw [hstore₂, hstore₁]
    exact .of_rfl rfl rfl rfl rfl
  refine ⟨v, ?_, ?_⟩
  · have hstart : SameTmgis w ({ w with mbsSessions := w.mbsSessions.erase s }.say
        (.sessionLeft s)) := .of_rfl rfl rfl rfl rfl
    split at hv
    · rename_i p hp
      exact .inr ⟨p, hp, (frees_mbsSessionPublicClear hv).same_trans hstart⟩
    · rw [Except.ok.injEq] at hv
      exact .inl (hv ▸ hstart)
  · have hend : SameTmgis v' w' := h ▸ .of_rfl rfl rfl rfl rfl
    exact ((frees_mbsSessionPublicClear hclear).same_trans
      (hfreed.trans (SameTmgis.refCountSbiObjectUnref _))).trans_same hend

end ServiceConsumers.SessionTmgis
