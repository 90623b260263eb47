import ServiceConsumers.SbiBalance
import ServiceConsumers.SubscriptionLinks

set_option autoImplicit false

/-!
# The balance of references over sessions and their subscriptions
-/

namespace ServiceConsumers.SessionReferences

open ObjectStore KeyedTable PublicSessions ConsumerState TmgiOperations SubscriptionOperations
  SessionOperations ResponseHandlers ProcessEvent TransitionRuns TransactionLog TmgiEffects
  SessionEffects PushEffects AnswerEffects SubscriptionLinks HolderCounts TmgiContents
  SbiReferences SbiBalance

variable {held : Ref → ℤ} {w w' v v' : World} {s t u : Ref}

/-! ## Subscriptions -/

section Subscriptions

theorem Balanced.modifySubscription (hc : Counted held w)
    (f : StatusSubscription → StatusSubscription) :
    Balanced held (fun _ => 0) w (w.modifySubscription u f) :=
  .of_eq hc rfl rfl rfl rfl (Nat.le_refl _)

theorem balanced_ogsListAdd {name : ListName} (hc : Counted held w)
    (h : ogsListAdd w s name u = .ok w') : Balanced held (fun _ => 0) w w' := by
  obtain ⟨x, n, hx, -, -, rfl⟩ := ogsListAdd_eq_ok h
  have hlist : Balanced held (fun _ => 0) w
      (w.setSession s (setList x name (listOf x name ++ [u]))) :=
    .writeSession hc hx (by cases name <;> rfl)
  exact hlist.tail (Balanced.modifySubscription hlist.counted _)

theorem balanced_ogsListRemove {name : ListName} (hc : Counted held w)
    (h : ogsListRemove w s name u = .ok w') : Balanced held (fun _ => 0) w w' := by
  obtain ⟨x, hx, -, rfl⟩ := ogsListRemove_eq_ok h
  have hlist : Balanced held (fun _ => 0) w
      (w.setSession s (setList x name ((listOf x name).erase u))) :=
    .writeSession hc hx (by cases name <;> rfl)
  exact hlist.tail (Balanced.modifySubscription hlist.counted _)

theorem balanced_mbsSessionRemoveSubscription (hc : Counted held w)
    (h : mbsSessionRemoveSubscription w s u = .ok w') : Balanced held (fun _ => 0) w w' := by
  obtain ⟨x, n, hx, -, ⟨-, rfl⟩ | ⟨-, -, hcase⟩⟩ := mbsSessionRemoveSubscription_eq_ok h
  · exact .refl hc
  · rcases hcase with ⟨id, v, -, hv, rfl⟩ | ⟨-, -, v, hv, rfl⟩ | ⟨-, -, rfl⟩
    · have htable : Balanced held (fun _ => 0) w (w.setSession s
          { x with activeSubscriptions := x.activeSubscriptions.map fun t => t.erase id }) :=
        .writeSession hc hx rfl
      have hadded := htable.tail (balanced_ogsListAdd htable.counted hv)
      exact hadded.tail (Balanced.modifySubscription hadded.counted _)
    · have hremoved := balanced_ogsListRemove hc hv
      exact hremoved.tail (.of_eq hremoved.counted rfl rfl rfl rfl (Nat.le_refl _))
    · exact .refl hc

variable (hheld : ∀ o, 0 ≤ held o)

include hheld

/-- A request goes out on the object of a live session. -/
theorem balanced_mbsStatusSubscriptionSend
    {build : World → MbsSession → StatusSubscription → Except Fault Request}
    (hc : Counted held w) (h : mbsStatusSubscriptionSend build w u = .ok w') :
    Balanced held (fun _ => 0) w w' := by
  obtain ⟨n, -, ⟨-, rfl⟩ | ⟨q, x, o, r, -, hx, ho, -, rfl⟩⟩ := mbsStatusSubscriptionSend_eq_ok h
  · exact .refl hc
  · exact .sent hc ((session_counts hheld hc hx).1 o ho)

theorem balanced_forgetId (hc : Counted held w) (h : forgetId w u = .ok w') :
    Balanced held (fun _ => 0) w w' := by
  obtain ⟨n, -, ⟨-, rfl⟩ | ⟨id, q, x, table, v, -, -, hx, -, hv, rfl⟩⟩ := forgetId_eq_ok h
  · exact .refl hc
  · have htable : Balanced held (fun _ => 0) w
        (w.setSession q { x with activeSubscriptions := some (table.erase id) }) :=
      .writeSession hc hx rfl
    have hsent := htable.tail (balanced_mbsStatusSubscriptionSend hheld htable.counted hv)
    exact hsent.tail (Balanced.modifySubscription hsent.counted _)

theorem balanced_mbsSessionAddSubscription (hc : Counted held w)
    (h : mbsSessionAddSubscription w s u = .ok w') : Balanced held (fun _ => 0) w w' := by
  obtain ⟨x, n, hx, -, ⟨-, rfl⟩ | ⟨-, v, v', hv, hv', rfl⟩⟩ := mbsSessionAddSubscription_eq_ok h
  · exact .refl hc
  · have htable : Balanced held (fun _ => 0) w
        (w.setSession s { x with activeSubscriptions := some x.active }) :=
      .writeSession hc hx rfl
    have hforgot := htable.tail (balanced_forgetId hheld htable.counted hv)
    have hadded := hforgot.tail (balanced_ogsListAdd hforgot.counted hv')
    exact hadded.tail (.of_eq hadded.counted rfl rfl rfl rfl (Nat.le_refl _))

theorem balanced_updateNewSubscription (hc : Counted held w)
    (h : updateNewSubscription w u = .ok w') : Balanced held (fun _ => 0) w w' := by
  obtain ⟨n, v, -, hv, rfl⟩ := updateNewSubscription_eq_ok h
  have hsent : Balanced held (fun _ => 0) w v := by
    split at hv
    · exact balanced_mbsStatusSubscriptionSend hheld hc hv
    · rw [Except.ok.injEq] at hv
      exact hv ▸ .refl hc
  exact hsent.tail (Balanced.modifySubscription hsent.counted _)

theorem balanced_updateStatusSubscription (hc : Counted held w)
    (h : updateStatusSubscription w u = .ok w') : Balanced held (fun _ => 0) w w' := by
  obtain ⟨n, -, ⟨-, rfl⟩ | ⟨-, v, hv, rfl⟩⟩ := updateStatusSubscription_eq_ok h
  · exact .refl hc
  · have hsent := balanced_mbsStatusSubscriptionSend hheld hc hv
    exact hsent.tail (Balanced.modifySubscription hsent.counted _)

theorem balanced_removePendingSubscription (hc : Counted held w)
    (h : removePendingSubscription s w u = .ok w') : Balanced held (fun _ => 0) w w' := by
  obtain ⟨v, v', hv, hv', rfl⟩ := removePendingSubscription_eq_ok h
  have hsent := balanced_mbsStatusSubscriptionSend hheld hc hv
  have hremoved := hsent.tail (balanced_ogsListRemove hsent.counted hv')
  exact hremoved.tail (.of_eq hremoved.counted rfl rfl rfl rfl (Nat.le_refl _))

theorem balanced_subscriptionStep {call : SubscriptionCall} (hc : Counted held w)
    (h : subscriptionStep w call = .ok w') : Balanced held (fun _ => 0) w w' := by
  cases call with
  | new areaSessionId flags correlationId expiryTime =>
      simp only [subscriptionStep, Except.ok.injEq] at h
      subst h
      exact .of_eq hc rfl rfl rfl rfl (Nat.le_succ _)
  | set u setting =>
      simp only [subscriptionStep, bind_eq_ok, Except.ok.injEq] at h
      obtain ⟨n, -, rfl⟩ := h
      exact Balanced.modifySubscription hc _
  | add s u => exact balanced_mbsSessionAddSubscription hheld hc h
  | remove s u => exact balanced_mbsSessionRemoveSubscription hc h
  | delete u =>
      simp only [subscriptionStep, mbsStatusSubscriptionDelete, bind_eq_ok,
        World.subscriptionAt_eq_ok] at h
      obtain ⟨n, -, h⟩ := h
      split at h
      · exact balanced_mbsSessionRemoveSubscription hc h
      · split at h
        · rw [Except.ok.injEq] at h
          exact h ▸ .refl hc
        · rw [Except.ok.injEq] at h
          subst h
          exact .of_eq hc rfl rfl rfl rfl (Nat.le_refl _)

/-! ## Pushing -/

theorem balanced_mbsSessionSendRemove (hc : Counted held w)
    (h : mbsSessionSendRemove w s = .ok w') : Balanced held (fun _ => 0) w w' := by
  obtain ⟨x, o, hx, ho, rfl⟩ := mbsSessionSendRemove_eq_ok h
  exact .sent hc ((session_counts hheld hc hx).1 o ho)

theorem balanced_mbsSessionSendUpdate (hc : Counted held w)
    (h : mbsSessionSendUpdate w s = .ok w') : Balanced held (fun _ => 0) w w' := by
  obtain ⟨x, o, patches, carried, hx, ho, -, -, rfl⟩ := mbsSessionSendUpdate_eq_ok h
  exact .sent hc ((session_counts hheld hc hx).1 o ho)

/-- A session without an SBI object takes the new one. -/
theorem balanced_ensureSbiObject {x : MbsSession} (hc : Counted held w)
    (hx : w.sessionStore s = some x) :
    Balanced held (fun _ => 0) w (ensureSbiObject w s x).1 ∧
      (ensureSbiObject w s x).1.sessionStore s = some (ensureSbiObject w s x).2 := by
  cases ho : x.sbiObject with
  | some o =>
      simp only [ensureSbiObject, ho]
      exact ⟨.refl hc, hx⟩
  | none =>
      simp only [ensureSbiObject, ho]
      obtain ⟨hnew, -⟩ := balanced_newObject hheld hc
      have hstored : w.refCountSbiObjectNew.1.sessionStore s = some x := hx
      refine ⟨⟨?_, hnew, fun _ _ _ hz _ => hz⟩, Store.set_self _ _ _⟩
      refine (hc.newObject.setSession (y := { x with sbiObject := some w.next })
        hstored).of_held fun o => ?_
      rw [ho]
      simp

theorem balanced_mbsSessionSendCreate (hc : Counted held w)
    (h : mbsSessionSendCreate w s = .ok w') : Balanced held (fun _ => 0) w w' := by
  simp only [mbsSessionSendCreate, bind_eq_ok, World.sessionAt_eq_ok] at h
  obtain ⟨x, hx, h⟩ := h
  obtain ⟨hensured, hstored⟩ := balanced_ensureSbiObject hheld hc hx
  exact hensured.tail (balanced_sbiXactAdd hensured.counted
    (session_counts hheld hensured.counted hstored).1 h)

theorem balanced_mbsSessionPushChanges (hc : Counted held w)
    (h : mbsSessionPushChanges w s = .ok w') : Balanced held (fun _ => 0) w w' :=
  mbsSessionPushChanges_steps (fun v => Balanced held (fun _ => 0) w v)
    (fun _ _ hv hb => hb.tail (balanced_mbsSessionSendRemove hheld hb.counted hv))
    (fun _ _ hv hb => hb.tail (balanced_mbsSessionSendCreate hheld hb.counted hv))
    (fun _ _ hv hb => hb.tail (balanced_mbsSessionSendUpdate hheld hb.counted hv))
    (fun _ _ _ _ _ _ hb hv => hb.tail (balanced_updateNewSubscription hheld hb.counted hv))
    (fun _ _ _ _ _ _ hb hv => hb.tail (balanced_updateStatusSubscription hheld hb.counted hv))
    (fun _ _ _ hb hv => hb.tail (balanced_removePendingSubscription hheld hb.counted hv))
    (.refl hc) h

end Subscriptions

/-! ## Calls of the application -/

/-- What a session gives up for a TMGI: nothing where it keeps its object. -/
def takingShare (x : MbsSession) (y : PrivTmgi) (o : Ref) : ℕ :=
  if y.sbiObject = some o then 0 else share x.sbiObject o

/-- A reference is taken before another one is dropped: an object that has both stays. -/
theorem givesUp_exchange {a b : Option Ref}
    (hobjects : v.sbiObjects = (w.refCountSbiObjectRef b).sbiObjects) (hxacts : v.xacts = w.xacts) :
    GivesUp (fun o => if b = some o then 0 else share a o) w (v.refCountSbiObjectUnref a) := by
  intro o ho
  have hdrop := givesUp_refCountSbiObjectUnref (w := v) a o
  have hshare : share a o ≤ 1 := by
    unfold share
    split <;> omega
  have hstays : Stays o w v := fun x hx _ => hxacts ▸ hx
  dsimp only at ho ⊢
  by_cases hb : b = some o
  · rw [if_pos hb] at ho ⊢
    have hcount : v.sbiObjects o = w.sbiObjects o + 1 := by
      rw [hobjects, hb]
      exact Function.update_self ..
    obtain ⟨hle, hstay⟩ := hdrop (by omega)
    exact ⟨by omega, hstays.trans hstay⟩
  · rw [if_neg hb] at ho ⊢
    have hle := (givesUp_refCountSbiObjectRef (w := w) b o (Nat.zero_lt_of_lt ho)).1
    rw [← hobjects, Nat.add_zero] at hle
    obtain ⟨hle', hstay⟩ := hdrop (by omega)
    exact ⟨by omega, hstays.trans hstay⟩

theorem balanced_takeTmgi (hheld : ∀ o, 0 ≤ held o) {x : MbsSession} {y : PrivTmgi}
    (hc : Counted held w) (hx : w.sessionStore s = some x) (hy : w.tmgiStore t = some y)
    (h : takeTmgi w s t = .ok w') : Balanced held (takingShare x y) w w' := by
  simp only [takeTmgi, bind_eq_ok, World.sessionAt_eq_ok, World.tmgiAt_eq_ok,
    Except.ok.injEq] at h
  obtain ⟨x', hx', y', hy', rfl⟩ := h
  obtain rfl := Option.some.inj (hx.symm.trans hx')
  obtain rfl := Option.some.inj (hy.symm.trans hy')
  have hlt : ∀ o, y.sbiObject = some o → o < w.next := fun o ho =>
    hc.lt_of_object ((tmgi_counts hheld hc hy).1 o ho)
  have hstored : (w.refCountSbiObjectRef y.sbiObject).sessionStore s = some x := by
    rw [World.refCountSbiObjectRef_sessionStore]
    exact hx
  have hset := (hc.ref hlt).setSession (y := { x with
    sbiObject := y.sbiObject, session := { x.session with tmgi := some t, tmgiReq := false } })
    hstored
  have htaken : Counted (fun o => held o + share x.sbiObject o) _ := hset.of_held fun o => by
    dsimp only
    omega
  have hxacts : (w.refCountSbiObjectRef y.sbiObject).xacts = w.xacts := by
    cases y.sbiObject <;> rfl
  generalize hv : (w.refCountSbiObjectRef y.sbiObject).setSession s { x with
    sbiObject := y.sbiObject, session := { x.session with tmgi := some t, tmgiReq := false } } = v
    at htaken ⊢
  have hobjects : v.sbiObjects = (w.refCountSbiObjectRef y.sbiObject).sbiObjects := by
    rw [← hv]
    rfl
  have hsame : v.xacts = w.xacts := by
    rw [← hv]
    exact hxacts
  have hcount : ∀ o, x.sbiObject = some o → held o + 1 ≤ v.sbiObjects o := by
    intro o ho
    have hcount := htaken.counts o
    rw [ho, share_self] at hcount
    omega
  refine ⟨?_, givesUp_exchange hobjects hsame, ?_⟩
  · refine (htaken.unref fun o ho => ?_).of_held fun o => by omega
    have := hcount o ho
    have := hheld o
    omega
  · intro o ho
    have hfirst : Stays o w v := fun z hz _ => hsame ▸ hz
    refine hfirst.trans (stays_refCountSbiObjectUnref fun ha hone => ?_)
    have := hcount o ha
    omega

/-- A TMGI is taken by a session that is not deleted, unless it has it or one of equal
content. -/
def takes (w : World) (x : MbsSession) (t : Ref) (y : PrivTmgi) : Bool :=
  !x.deleted && x.session.tmgi ≠ some t &&
    !(x.session.tmgi.bind fun q => w.tmgiStore q).any fun z => tmgiEqual y.tmgi z.tmgi

/-- The references that setting a TMGI gives up. -/
def setTmgiDrops (w : World) (s : Ref) (tmgi : Option Ref) (o : Ref) : ℕ :=
  match tmgi with
  | none => 0
  | some t =>
      match w.sessionStore s, w.tmgiStore t with
      | some x, some y => if takes w x t y then takingShare x y o else 0
      | _, _ => 0

theorem setTmgiDrops_of_takes {x : MbsSession} {y : PrivTmgi} (hx : w.sessionStore s = some x)
    (hy : w.tmgiStore t = some y) (htakes : takes w x t y = true) :
    setTmgiDrops w s (some t) = takingShare x y := by
  funext o
  simp only [setTmgiDrops, hx, hy, htakes, if_true]

theorem balanced_mbsSessionSetTmgi (hheld : ∀ o, 0 ≤ held o) {tmgi : Option Ref}
    (hc : Counted held w) (h : mbsSessionSetTmgi w s tmgi = .ok w') :
    Balanced held (setTmgiDrops w s tmgi) w w' := by
  have hkept : ∀ {v : World}, Balanced held (fun _ => 0) w v →
      Balanced held (setTmgiDrops w s tmgi) w v :=
    fun hb => hb.mono fun _ _ => Nat.zero_le _
  simp only [mbsSessionSetTmgi, bind_eq_ok, World.sessionAt_eq_ok] at h
  obtain ⟨x, hx, h⟩ := h
  split at h
  · rw [Except.ok.injEq] at h
    exact h ▸ hkept (.refl hc)
  · rename_i hgo
    rw [not_or] at hgo
    split at h
    · rw [Except.ok.injEq] at h
      subst h
      exact hkept (.writeSession hc hx rfl)
    · rename_i t
      have hlive : ∀ {v : World}, takeTmgi w s t = .ok v → ∃ y, w.tmgiStore t = some y := by
        intro v hv
        simp only [takeTmgi, bind_eq_ok, World.tmgiAt_eq_ok] at hv
        obtain ⟨-, -, y, hy, -⟩ := hv
        exact ⟨y, hy⟩
      split at h
      · rename_i hnone
        obtain ⟨y, hy⟩ := hlive h
        have htakes : takes w x t y = true := by
          simp [takes, hgo.1, hnone]
        rw [setTmgiDrops_of_takes hx hy htakes]
        exact balanced_takeTmgi hheld hc hx hy h
      · rename_i old hold
        simp only [bind_eq_ok, World.tmgiAt_eq_ok] at h
        obtain ⟨a, ha, b, hb, h⟩ := h
        split at h
        · rw [Except.ok.injEq] at h
          exact h ▸ hkept (.refl hc)
        · rename_i hdiffer
          have htakes : takes w x t a = true := by
            have hne : old ≠ t := fun heq => hgo.2 (by rw [hold, heq])
            simp [takes, hgo.1, hold, hb, hdiffer, hne]
          rw [setTmgiDrops_of_takes hx ha htakes]
          exact balanced_takeTmgi hheld hc hx ha h

theorem balanced_mbsSessionWrite {f : MbsSession → MbsSession} (hc : Counted held w)
    (h : mbsSessionWrite w s f = .ok w') (hf : ∀ x, (f x).sbiObject = x.sbiObject) :
    Balanced held (fun _ => 0) w w' := by
  simp only [mbsSessionWrite, bind_eq_ok, World.sessionAt_eq_ok, Except.ok.injEq] at h
  obtain ⟨x, hx, rfl⟩ := h
  exact .writeSession hc hx (hf x)

/-- A new session holds nothing. -/
theorem balanced_mbsSessionNew (ssm : Option SsmAddr) (hc : Counted held w) :
    Balanced held (fun _ => 0) w (mbsSessionNew w ssm) := by
  have hnext : Balanced held (fun _ => 0) w
      { w with mbsSessions := w.mbsSessions ++ [w.next], next := w.next + 1 } :=
    .of_eq hc rfl rfl rfl rfl (Nat.le_succ _)
  refine ⟨?_, hnext.givesUp, hnext.stays⟩
  have hset := hnext.counted.changeSession (s := w.next) (Nat.lt_succ_self _)
    (w.sessionStore.set w.next { session := { ssm := ssm, tmgiReq := true } })
    fun q hq => Store.set_of_ne _ _ _ hq
  refine hset.of_held fun o => ?_
  change held o = held o + share ((w.sessionStore w.next).bind MbsSession.sbiObject) o -
    share (((w.sessionStore.set w.next { session := { ssm := ssm, tmgiReq := true } })
      w.next).bind MbsSession.sbiObject) o
  rw [hc.sessions _ (Nat.le_refl _), Store.set_self]
  simp

/-- The references that a call about sessions gives up. -/
def sessionDrops (w : World) : SessionCall → Ref → ℕ
  | .setTmgi s tmgi => setTmgiDrops w s tmgi
  | _ => fun _ => 0

theorem balanced_sessionStep (hheld : ∀ o, 0 ≤ held o) {call : SessionCall} (hc : Counted held w)
    (h : sessionStep w call = .ok w') : Balanced held (sessionDrops w call) w w' := by
  cases call <;> simp only [sessionStep] at h
  case newIpv4 source dest =>
    rw [Except.ok.injEq] at h
    exact h ▸ balanced_mbsSessionNew _ hc
  case newIpv6 source dest =>
    rw [Except.ok.injEq] at h
    exact h ▸ balanced_mbsSessionNew _ hc
  case edit s value => exact balanced_mbsSessionWrite hc h fun _ => rfl
  case write s cell =>
    refine balanced_mbsSessionWrite hc h fun x => ?_
    cases cell <;> (unfold writeThrough; dsimp only; split <;> rfl)
  case delete s =>
    simp only [bind_eq_ok, Except.ok.injEq] at h
    obtain ⟨v, hv, rfl⟩ := h
    have hwrite : Balanced held (fun _ => 0) w v := balanced_mbsSessionWrite hc hv fun _ => rfl
    exact hwrite.tail (.of_eq hwrite.counted rfl rfl rfl rfl (Nat.le_refl _))
  case setTmgi s tmgi => exact balanced_mbsSessionSetTmgi hheld hc h
  case setCallback s cb =>
    refine balanced_mbsSessionWrite hc h fun x => ?_
    split <;> rfl
  case setCallbackOf s kind cb =>
    refine balanced_mbsSessionWrite hc h fun x => ?_
    cases kind <;> rfl
  case pushChanges s => exact balanced_mbsSessionPushChanges hheld hc h
  case pushAllChanges =>
    exact .foldlM (fun v s v' hv hrun => balanced_mbsSessionPushChanges hheld hv hrun) hc h

/-- The TMGIs that a call asks new allocations for, where the request needs at least one. -/
def allocatedList (w : World) : TmgiCall → Option (List Ref)
  | .sendAllocate t => some [t]
  | .sendAllocateAll | .sendAllocateAndRefreshAll _ =>
      some (registeredWhere w fun x => !x.allocated)
  | _ => none

/-- The references that a call about TMGIs gives up. -/
def tmgiDrops (w : World) (call : TmgiCall) : Ref → ℕ :=
  match call, allocatedList w call with
  | .free t, _ => tmgiShare w (some t)
  | _, some ts => holdersIn w ts
  | _, none => fun _ => 0

theorem balanced_tmgiSet {f : PrivTmgi → PrivTmgi} (hc : Counted held w)
    (h : tmgiSet w t f = .ok w') (hf : ∀ x, (f x).sbiObject = x.sbiObject) :
    Balanced held (fun _ => 0) w w' := by
  simp only [tmgiSet, bind_eq_ok, Except.ok.injEq] at h
  obtain ⟨x, -, rfl⟩ := h
  exact .modifyTmgi hc hf

theorem balanced_tmgiStep (hheld : ∀ o, 0 ≤ held o) {call : TmgiCall} (hc : Counted held w)
    (h : tmgiStep w call = .ok w') : Balanced held (tmgiDrops w call) w w' := by
  cases call <;> simp only [tmgiStep] at h
  case create callback =>
    have hnew := balanced_tmgiCreate callback hc
    refine (hnew.trans (balanced_sendAllocateNew hheld hnew.counted h)).mono fun r _ => ?_
    have hnone : ((tmgiCreate w callback).1.tmgiStore w.next).bind PrivTmgi.sbiObject = none := by
      change ((w.tmgiStore.set w.next { callback := callback }) w.next).bind _ = none
      rw [Store.set_self]
      rfl
    have hzero : holdersIn (tmgiCreate w callback).1 [w.next] r = 0 := by
      unfold holdersIn
      rw [List.countP_singleton, hnone]
      rfl
    change 0 + holdersIn (tmgiCreate w callback).1 [w.next] r ≤ 0
    omega
  case new =>
    rw [Except.ok.injEq] at h
    exact h ▸ balanced_tmgiCreate none hc
  case free t =>
    obtain ⟨x, hx, -, -⟩ := tmgiFree_eq_ok.1 h
    change Balanced held (tmgiShare w (some t)) w w'
    rw [tmgiShare_some hx]
    exact balanced_tmgiFree_held hheld hc hx h
  case setMbsServiceId t mbsServiceId => exact balanced_tmgiSet hc h fun _ => rfl
  case setPlmn t mcc mnc => exact balanced_tmgiSet hc h fun _ => rfl
  case setExpiryTime t expiryTime => exact balanced_tmgiSet hc h fun _ => rfl
  case setCallback t callback => exact balanced_tmgiSet hc h fun _ => rfl
  case sendAllocate t => exact balanced_sendAllocateNew hheld hc h
  case sendDeallocate t => exact balanced_tmgiListSendDeallocate hheld hc h
  case sendAllocateAll => exact balanced_sendAllocateNew hheld hc h
  case sendRefresh t => exact balanced_sendRefresh hheld hc h
  case sendRefreshAll now => exact balanced_sendRefresh hheld hc h
  case sendAllocateAndRefreshAll now => exact balanced_sendAllocateNew hheld hc h

/-! ## Answers -/

/-- The object is held by the session. -/
def HeldBy (s o : Ref) (w : World) : Prop :=
  ∃ x, w.sessionStore s = some x ∧ x.sbiObject = some o

theorem HeldBy.of_keeps {o : Ref} (h : HeldBy s o w) (hk : Keeps MbsSession.sbiObject w w') :
    HeldBy s o w' := by
  obtain ⟨x, hx, ho⟩ := h
  obtain ⟨x', hx', hview⟩ := hk.forth hx
  exact ⟨x', hx', hview.trans ho⟩

/-- The balance is kept, and no object of a session loses its transactions. -/
structure SessionsKept (held : Ref → ℤ) (w w' : World) : Prop where
  counted : Counted held w'
  keeps : Keeps MbsSession.sbiObject w w'
  stays : ∀ s o, HeldBy s o w → Stays o w w'

namespace SessionsKept

variable {w'' : World}

theorem trans (h₁ : SessionsKept held w w') (h₂ : SessionsKept held w' w'') :
    SessionsKept held w w'' :=
  ⟨h₂.counted, h₁.keeps.trans h₂.keeps, fun s o hs =>
    (h₁.stays s o hs).trans (h₂.stays s o (hs.of_keeps h₁.keeps))⟩

variable (hheld : ∀ o, 0 ≤ held o)

include hheld

/-- At most one TMGI gives something up, and a session that holds the same object counts
too. -/
theorem of_balanced {d : Option Ref} (hc : Counted held w)
    (hb : Balanced held (tmgiShare w d) w w') (hk : Keeps MbsSession.sbiObject w w') :
    SessionsKept held w w' := by
  refine ⟨hb.counted, hk, ?_⟩
  rintro s o ⟨x, hx, ho⟩
  refine (hb.givesUp o ?_).2
  have hone := hc.lt_of_session_holds hx ho
  have hnonneg := hheld o
  by_cases hd : (d.bind fun q => (w.tmgiStore q).bind PrivTmgi.sbiObject) = some o
  · obtain ⟨q, -, hq⟩ := Option.bind_eq_some_iff.1 hd
    obtain ⟨y, hy, hyo⟩ := Option.bind_eq_some_iff.1 hq
    have htwo := hc.lt_of_both_hold hx ho hy hyo
    unfold tmgiShare
    rw [hd, share_self]
    omega
  · unfold tmgiShare
    rw [share_of_ne hd]
    omega

theorem of_quiet (hc : Counted held w) (hb : Balanced held (fun _ => 0) w w')
    (hk : Keeps MbsSession.sbiObject w w') : SessionsKept held w w' :=
  of_balanced hheld (d := none) hc hb hk

end SessionsKept

theorem freeSubscriptions_same (us : List Ref) :
    (freeSubscriptions w us).sessionStore = w.sessionStore ∧
      ∀ o, Stays o w (freeSubscriptions w us) := by
  obtain ⟨store, hstore, -⟩ := freeSubscriptions_eq (w := w) us
  rw [hstore]
  exact ⟨rfl, fun _ _ hz _ => hz⟩

theorem counted_freeSubscriptions (us : List Ref) (hc : Counted held w) :
    Counted held (freeSubscriptions w us) := by
  obtain ⟨store, hstore, -⟩ := freeSubscriptions_eq (w := w) us
  rw [hstore]
  have hfreed : Balanced held (fun _ => 0) w { w with subscriptionStore := store } :=
    .of_eq hc rfl rfl rfl rfl (Nat.le_refl _)
  exact hfreed.counted

variable (hheld : ∀ o, 0 ≤ held o)

include hheld

theorem sessionsKept_mbsSessionPublicCopy {dest : Option (PublicSession Ref)}
    {src copy : PublicSession Ref} (hc : Counted held w)
    (h : mbsSessionPublicCopy w dest src = .ok (w', copy)) : SessionsKept held w w' := by
  obtain ⟨heffect, tmgi, -, hcopy⟩ := mbsSessionPublicCopy_eq_ok h
  have hkeeps : Keeps MbsSession.sbiObject w w' := Keeps.of_eq heffect.sessionStore
  split at hcopy
  · exact .of_balanced hheld hc (balanced_tmgiCopy hheld hc hcopy) hkeeps
  · rw [Except.ok.injEq, Prod.mk.injEq] at hcopy
    obtain ⟨rfl, -⟩ := hcopy
    exact .of_quiet hheld hc (.refl hc) hkeeps

theorem balanced_createdTmgi {m : CreatedSession} {tmgi : Option Ref} (hc : Counted held w)
    (h : createdTmgi w s m = .ok (w', tmgi)) : Balanced held (fun _ => 0) w w' := by
  unfold createdTmgi at h
  split at h
  · rename_i api stamp _ _
    have hnew := balanced_tmgiCreate none hc
    have hid := hnew.tail (Balanced.modifyTmgi (t := w.next)
      (f := tmgiSetMbsServiceId api.mbsServiceId) hnew.counted fun _ => rfl)
    have hplmn := hid.tail (Balanced.modifyTmgi (t := w.next)
      (f := tmgiSetPlmn api.mccNumber api.mncNumber) hid.counted fun _ => rfl)
    cases stamp with
    | malformed =>
        simp only [bind_eq_ok, Except.ok.injEq, Prod.mk.injEq] at h
        obtain ⟨v, hv, rfl, -⟩ := h
        exact hplmn.tail (balanced_contextRemoveTmgi hplmn.counted hv)
    | seconds expiryTime =>
        simp only [bind_eq_ok, World.sessionAt_eq_ok, Except.ok.injEq, Prod.mk.injEq] at h
        obtain ⟨x, hx, v, hv, rfl, -⟩ := h
        have hexpiry := hplmn.tail (Balanced.modifyTmgi (t := w.next)
          (f := tmgiSetExpiryTime expiryTime) hplmn.counted fun _ => rfl)
        obtain ⟨y, hy, hyo⟩ : ∃ y, ((((tmgiCreate w none).1.modifyTmgi w.next
            (tmgiSetMbsServiceId api.mbsServiceId)).modifyTmgi w.next
            (tmgiSetPlmn api.mccNumber api.mncNumber)).modifyTmgi w.next
            (tmgiSetExpiryTime expiryTime)).tmgiStore w.next = some y ∧ y.sbiObject = none := by
          refine ⟨tmgiSetExpiryTime expiryTime (tmgiSetPlmn api.mccNumber api.mncNumber
            (tmgiSetMbsServiceId api.mbsServiceId {})), ?_, rfl⟩
          change (Store.modify (Store.modify (Store.modify (Store.set _ _ _) _ _) _ _) _ _) _ = _
          rw [Store.modify_self, Store.modify_self, Store.modify_self, Store.set_self]
          rfl
        have hreplace := balanced_tmgiReplaceSbiObject hheld hexpiry.counted hy (fun o ho =>
          hexpiry.counted.lt_of_object ((session_counts hheld hexpiry.counted hx).1 o ho)) hv
        rw [hyo] at hreplace
        exact hexpiry.tail hreplace
  · rw [Except.ok.injEq, Prod.mk.injEq] at h
    obtain ⟨rfl, -⟩ := h
    exact .refl hc

theorem sessionsKept_setSession {x y : MbsSession} (hc : Counted held w)
    (hx : w.sessionStore s = some x) (hy : y.sbiObject = x.sbiObject) :
    SessionsKept held w (w.setSession s y) :=
  .of_quiet hheld hc (.writeSession hc hx hy) (Keeps.setSession hx hy)

theorem sessionsKept_modifySession {f : MbsSession → MbsSession} (hc : Counted held w)
    (hf : ∀ x, (f x).sbiObject = x.sbiObject) : SessionsKept held w (w.modifySession s f) :=
  .of_quiet hheld hc (.modifySession hc hf) (Keeps.modifySession hf)

theorem sessionsKept_parseSessionId {m : CreatedSession} (hc : Counted held w)
    (h : parseSessionId w s m = .ok w') : SessionsKept held w w' := by
  unfold parseSessionId at h
  split at h
  · cases h
  · simp only [bind_eq_ok, World.sessionAt_eq_ok, Prod.exists, Except.ok.injEq] at h
    obtain ⟨x, hx, v, copy, hv, rfl⟩ := h
    have hrest : ∀ y, y.sbiObject = x.sbiObject →
        mbsSessionPublicCopy (w.setSession s y) y.previousSession y.session = .ok (v, copy) →
        SessionsKept held w (v.modifySession s fun x => { x with previousSession := some copy }) := by
      intro y hy hcopy
      have hssm := sessionsKept_setSession hheld hc hx hy
      have hcopied := hssm.trans (sessionsKept_mbsSessionPublicCopy hheld hssm.counted hcopy)
      exact hcopied.trans (sessionsKept_modifySession hheld hcopied.counted fun _ => rfl)
    rename_i answer _
    cases answer with
    | none => exact hrest x rfl hv
    | some ssm =>
        exact hrest { x with
          session := { x.session with ssm := answeredSsm x.session.ssm ssm } } rfl hv

theorem sessionsKept_nmbsmfMbsSessionParse {rsp : Response} {understood : Bool}
    (hc : Counted held w) (h : nmbsmfMbsSessionParse w s rsp = .ok (w', understood)) :
    SessionsKept held w w' := by
  obtain ⟨x, hx, h⟩ := nmbsmfMbsSessionParse_eq_ok h
  rcases h with ⟨-, rfl, -⟩ | ⟨id, -, ⟨-, rfl, -⟩ | ⟨m, -, -, h⟩⟩
  · exact .of_quiet hheld hc (.refl hc) (Keeps.refl _)
  · exact sessionsKept_setSession hheld hc hx rfl
  · have hhead : SessionsKept held w (w.setSession s (parsedHead x id m)) :=
      sessionsKept_setSession hheld hc hx rfl
    rcases h with ⟨-, v, tmgi, hv, h⟩ | ⟨-, -, h⟩
    · have hcreated := hhead.trans (.of_quiet hheld hhead.counted
        (balanced_createdTmgi hheld hhead.counted hv)
        (Keeps.of_eq (tmgiEffect_createdTmgi hv).sessionStore))
      rcases h with ⟨-, -, rfl⟩ | ⟨t, -, -, h⟩
      · exact hcreated
      · have hstore := hcreated.trans (sessionsKept_modifySession (s := s)
          (f := storeTmgi t) hheld hcreated.counted fun _ => rfl)
        exact hstore.trans (sessionsKept_parseSessionId hheld hstore.counted h)
    · exact hhead.trans (sessionsKept_parseSessionId hheld hhead.counted h)

theorem sessionsKept_keepOrRevert {resStatus : ℕ} (hc : Counted held w)
    (h : keepOrRevert w s resStatus = .ok w') : SessionsKept held w w' := by
  have hrefl : SessionsKept held w w := .of_quiet hheld hc (.refl hc) (Keeps.refl _)
  simp only [keepOrRevert, bind_eq_ok, World.sessionAt_eq_ok] at h
  obtain ⟨x, hx, h⟩ := h
  split at h
  · simp only [bind_eq_ok, Prod.exists, Except.ok.injEq] at h
    obtain ⟨v, copy, hv, rfl⟩ := h
    have hcopied := sessionsKept_mbsSessionPublicCopy hheld hc hv
    exact hcopied.trans (sessionsKept_modifySession hheld hcopied.counted fun _ => rfl)
  · split at h
    · exact Except.ok.inj h ▸ hrefl
    · split at h
      · exact Except.ok.inj h ▸ hrefl
      · simp only [bind_eq_ok, Prod.exists, Except.ok.injEq] at h
        obtain ⟨v, copy, hv, rfl⟩ := h
        have hcopied := sessionsKept_mbsSessionPublicCopy hheld hc hv
        exact hcopied.trans (sessionsKept_modifySession hheld hcopied.counted fun _ => rfl)

/-- The TMGI of a public structure that is cleared counts itself. -/
theorem balanced_mbsSessionPublicClear {p : PublicSession Ref} (hc : Counted held w)
    (h : mbsSessionPublicClear w p = .ok w') :
    Counted held w' ∧ ∀ o, 0 < held o → Stays o w w' := by
  unfold mbsSessionPublicClear at h
  split at h
  · split at h
    · obtain ⟨x, hx, -, -⟩ := tmgiFree_eq_ok.1 h
      have hfree := balanced_tmgiFree_held hheld hc hx h
      exact ⟨hfree.counted, hfree.stays⟩
    · exact Except.ok.inj h ▸ ⟨hc, fun _ _ _ hz _ => hz⟩
  · exact Except.ok.inj h ▸ ⟨hc, fun _ _ _ hz _ => hz⟩

/-- The reference of the session is dropped before its TMGI is freed: a TMGI with the same
object still has its own. -/
theorem counted_clearAfterDrop {x : MbsSession} {p : PublicSession Ref}
    (hx : w.sessionStore s = some x) (hc : Counted (fun o => held o - share x.sbiObject o) w)
    (h : mbsSessionPublicClear w p = .ok w') :
    Counted (fun o => held o - share x.sbiObject o) w' ∧ ∀ o, 0 < held o → Stays o w w' := by
  unfold mbsSessionPublicClear at h
  split at h
  · split at h
    · obtain ⟨y, hy, -, -⟩ := tmgiFree_eq_ok.1 h
      have hmore : ∀ o, y.sbiObject = some o → held o < w.sbiObjects o := by
        intro o ho
        by_cases hxo : x.sbiObject = some o
        · have hboth := hc.lt_of_both_hold hx hxo hy ho
          rw [hxo, share_self] at hboth
          omega
        · have hone := hc.lt_of_tmgi_holds hy ho
          rw [share_of_ne hxo] at hone
          omega
      have hpos : ∀ o, y.sbiObject = some o → w.sbiObjects o ≠ 0 := by
        intro o ho
        have := hmore o ho
        have := hheld o
        omega
      have hlast : ∀ o, 0 < held o - share x.sbiObject o → y.sbiObject = some o →
          w.sbiObjects o ≠ 1 := by
        intro o hheldo ho
        have := hmore o ho
        omega
      refine ⟨(balanced_tmgiFree hc hy hpos hlast h).counted, fun o ho => ?_⟩
      refine stays_tmgiFree hy (fun hyo hone => ?_) h
      have := hmore o hyo
      omega
    · exact Except.ok.inj h ▸ ⟨hc, fun _ _ _ hz _ => hz⟩
  · exact Except.ok.inj h ▸ ⟨hc, fun _ _ _ hz _ => hz⟩

theorem stays_mbsSessionDelete {x : MbsSession} (hc : Counted held w)
    (hx : w.sessionStore s = some x) (h : mbsSessionDelete w s = .ok w') :
    Counted held w' ∧ ∀ o, 0 < held o → Stays o w w' := by
  simp only [mbsSessionDelete, bind_eq_ok, World.sessionAt_eq_ok] at h
  obtain ⟨x', hx', v₁, hv₁, h⟩ := h
  obtain rfl := Option.some.inj (hx.symm.trans hx')
  obtain ⟨hc₁, hstays₁, hstore₁⟩ : Counted held v₁ ∧ (∀ o, 0 < held o → Stays o w v₁) ∧
      v₁.sessionStore = w.sessionStore := by
    split at hv₁
    · obtain ⟨hcount, hstay⟩ := balanced_mbsSessionPublicClear hheld hc hv₁
      exact ⟨hcount, hstay, (tmgiEffect_mbsSessionPublicClear hv₁).sessionStore⟩
    · exact Except.ok.inj hv₁ ▸ ⟨hc, fun _ _ _ hz _ => hz, rfl⟩
  split at h
  · cases h
  · simp only [bind_eq_ok] at h
    obtain ⟨v₂, hv₂, h⟩ := h
    -- The state in which the reference of the session is dropped.
    generalize hfreed : freeSubscriptions (freeSubscriptions v₁ x.newSubscriptions)
      x.deletedSubscriptions = v at hv₂
    have hcv : Counted held v := by
      rw [← hfreed]
      exact counted_freeSubscriptions _ (counted_freeSubscriptions _ hc₁)
    have hxv : v.sessionStore s = some x := by
      rw [← hfreed, (freeSubscriptions_same _).1, (freeSubscriptions_same _).1, hstore₁]
      exact hx
    have hstaysv : ∀ o, 0 < held o → Stays o w v := by
      intro o ho
      rw [← hfreed]
      exact (hstays₁ o ho).trans
        (((freeSubscriptions_same _).2 o).trans ((freeSubscriptions_same _).2 o))
    obtain ⟨hpos, hlast⟩ := session_counts hheld hcv hxv
    have hlive : (v.refCountSbiObjectUnref x.sbiObject).sessionStore s = some x := by
      rw [World.refCountSbiObjectUnref_sessionStore]
      exact hxv
    obtain ⟨hc₂, hstays₂⟩ := counted_clearAfterDrop hheld hlive (hcv.unref hpos) hv₂
    have hx₂ : v₂.sessionStore s = some x := by
      rw [(tmgiEffect_mbsSessionPublicClear hv₂).sessionStore]
      exact hlive
    split at h
    · cases h
    · obtain rfl := Except.ok.inj h
      refine ⟨(hc₂.freeSession hx₂).of_held fun o => by omega, fun o ho => ?_⟩
      have hdrop : Stays o v (v.refCountSbiObjectUnref x.sbiObject) :=
        stays_refCountSbiObjectUnref (hlast o ho)
      have hall : Stays o w v₂ := ((hstaysv o ho).trans hdrop).trans (hstays₂ o ho)
      exact hall

/-- A session that leaves drops its own references only. -/
theorem stays_contextRemoveMbsSession (hc : Counted held w)
    (h : contextRemoveMbsSession w s = .ok w') :
    Counted held w' ∧ ∀ o, 0 < held o → Stays o w w' := by
  unfold contextRemoveMbsSession at h
  split at h
  · have hleft : Balanced held (fun _ => 0) w
        (World.say { w with mbsSessions := w.mbsSessions.erase s } (.sessionLeft s)) :=
      .of_eq hc rfl rfl rfl rfl (Nat.le_refl _)
    obtain ⟨x, -, -, hx, -⟩ := mbsSessionDelete_eq_ok h
    obtain ⟨hcount, hstays⟩ := stays_mbsSessionDelete hheld hleft.counted hx h
    exact ⟨hcount, fun o ho => (hleft.stays o ho).trans (hstays o ho)⟩
  · cases h

end ServiceConsumers.SessionReferences
