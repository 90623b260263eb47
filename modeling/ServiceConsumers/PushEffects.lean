import ServiceConsumers.SessionEffects

set_option autoImplicit false

/-!
# What pushing changes does
-/

namespace ServiceConsumers.PushEffects

open ObjectStore KeyedTable PublicSessions ConsumerState TmgiOperations SubscriptionOperations
  SessionOperations ResponseHandlers ProcessEvent TransitionRuns TransactionLog TmgiEffects
  SessionEffects

/-! ## The branch a push takes -/

inductive PushDecision where
  | remove
  | create
  | recreate (removeFirst : Bool)
  | update
  | unchanged
  deriving DecidableEq, Repr

/-- The comparisons of `_mbs_session_push_changes`, without the requests. -/
def pushDecision (w : World) (x : MbsSession) : Except Fault PushDecision :=
  if x.deleted then .ok .remove
  else
    match x.previousSession with
    | none => .ok .create
    | some previous => do
        let equal ← mbsSessionPublicEqual w previous x.session
        if equal then .ok .unchanged
        else if !ssmEqual previous.ssm x.session.ssm then .ok (.recreate previous.ssm.isSome)
        else do
          let sameTmgi ← tmgiPointersEqual w previous.tmgi x.session.tmgi
          if !sameTmgi then .ok (.recreate previous.tmgi.isSome) else .ok .update

/-- The requests that follow a decision. -/
def PushDecision.carryOut (w : World) (s : Ref) : PushDecision → Except Fault World
  | .remove => mbsSessionSendRemove w s
  | .create => mbsSessionSendCreate w s
  | .recreate removeFirst => removeAndCreate w s removeFirst
  | .update => do
      let w ← mbsSessionSendUpdate w s
      mbsSessionSubscriptionsUpdate w s
  | .unchanged => mbsSessionSubscriptionsUpdate w s

theorem mbsSessionPushChanges_eq (w : World) (s : Ref) :
    mbsSessionPushChanges w s = (do
      let x ← w.sessionAt s
      let decision ← pushDecision w x
      decision.carryOut w s) := by
  unfold mbsSessionPushChanges pushDecision
  refine congrArg (w.sessionAt s >>= ·) (funext fun x => ?_)
  by_cases hd : x.deleted
  · rw [if_pos hd, if_pos hd]
    rfl
  · rw [if_neg hd, if_neg hd]
    cases x.previousSession with
    | none => rfl
    | some previous =>
        simp only [bind, Except.bind]
        generalize mbsSessionPublicEqual w previous x.session = equal
        generalize tmgiPointersEqual w previous.tmgi x.session.tmgi = sameTmgi
        cases equal with
        | error e => rfl
        | ok equal =>
            cases equal with
            | true => rfl
            | false =>
                cases ssmEqual previous.ssm x.session.ssm with
                | false => rfl
                | true =>
                    cases sameTmgi with
                    | error e => rfl
                    | ok same => cases same <;> rfl

theorem mbsSessionPushChanges_eq_ok {w w' : World} {s : Ref} :
    mbsSessionPushChanges w s = .ok w' ↔ ∃ x decision, w.sessionStore s = some x ∧
      pushDecision w x = .ok decision ∧ decision.carryOut w s = .ok w' := by
  rw [mbsSessionPushChanges_eq]
  simp only [bind_eq_ok, World.sessionAt_eq_ok]
  constructor
  · rintro ⟨x, hx, d, hd, h⟩
    exact ⟨x, d, hx, hd, h⟩
  · rintro ⟨x, d, hx, hd, h⟩
    exact ⟨x, hx, d, hd, h⟩

/-! ## Single requests -/

variable {w w' : World} {s : Ref}

theorem mbsSessionSendRemove_eq_ok (h : mbsSessionSendRemove w s = .ok w') :
    ∃ x o, w.sessionStore s = some x ∧ x.sbiObject = some o ∧
      w' = { w with
        xacts := w.xacts ++ [⟨w.next, o, .session s, .remove x.id⟩]
        log := .sent ⟨w.next, o, .session s, .remove x.id⟩ :: w.log
        next := w.next + 1 } := by
  simp only [mbsSessionSendRemove, bind_eq_ok, World.sessionAt_eq_ok] at h
  obtain ⟨x, hx, h⟩ := h
  obtain ⟨o, request, ho, hbuild, rfl⟩ := sbiXactAdd_eq_ok.1 h
  simp only [buildRemove, Except.ok.injEq] at hbuild
  subst hbuild
  exact ⟨x, o, hx, ho, rfl⟩

theorem mbsSessionSendUpdate_eq_ok (h : mbsSessionSendUpdate w s = .ok w') :
    ∃ x o patches carried, w.sessionStore s = some x ∧ x.sbiObject = some o ∧
      w.sessionContent x.session = .ok carried ∧ mbsSessionPatchList x = .ok patches ∧
      w' = { w with
        xacts := w.xacts ++ [⟨w.next, o, .session s, .update x.id patches carried⟩]
        log := .sent ⟨w.next, o, .session s, .update x.id patches carried⟩ :: w.log
        next := w.next + 1 } := by
  simp only [mbsSessionSendUpdate, bind_eq_ok, World.sessionAt_eq_ok] at h
  obtain ⟨x, hx, h⟩ := h
  obtain ⟨o, request, ho, hbuild, rfl⟩ := sbiXactAdd_eq_ok.1 h
  simp only [buildUpdate, bind_eq_ok, Except.ok.injEq] at hbuild
  obtain ⟨carried, hc, patches, hp, rfl⟩ := hbuild
  exact ⟨x, o, patches, carried, hx, ho, hc, hp, rfl⟩

/-- The subscription that a create request of the session may embed. -/
def Embeds (w : World) (x : MbsSession) (u : Ref) : Prop :=
  firstSubscription x = some u ∧
    ∃ n, w.subscriptionStore u = some n ∧ hasEvents n.flags = true

/-- The embedded subscription of a create request is the first new or active one. -/
theorem buildCreate_eq_ok {v : World} {x : MbsSession} {r : Request}
    (h : buildCreate v x = .ok r) :
    ∃ carried embedded, r = .create carried embedded ∧ v.sessionContent x.session = .ok carried ∧
      ∀ u body, embedded = some (u, body) → Embeds v x u := by
  simp only [buildCreate, bind_eq_ok] at h
  obtain ⟨carried, hc, h⟩ := h
  cases hf : firstSubscription x with
  | none =>
      simp only [hf, Except.ok.injEq] at h
      exact ⟨carried, none, h.symm, hc, fun u body hu => by cases hu⟩
  | some u =>
      simp only [hf, bind_eq_ok, World.subscriptionAt_eq_ok, Except.ok.injEq] at h
      obtain ⟨n, hn, rfl⟩ := h
      refine ⟨carried, _, rfl, hc, ?_⟩
      intro u' body hu'
      split at hu'
      · rename_i hevents
        rw [Option.some.injEq, Prod.mk.injEq] at hu'
        rw [← hu'.1]
        exact ⟨hf, n, hn, hevents⟩
      · cases hu'

/-- The state in which a create request is built: the session has an SBI object. -/
theorem mbsSessionSendCreate_eq_ok (h : mbsSessionSendCreate w s = .ok w') :
    ∃ x o carried embedded counts next, w.sessionStore s = some x ∧ w.next ≤ next ∧
      (∀ o', x.sbiObject = some o' → o' = o) ∧ w.sessionContent x.session = .ok carried ∧
      (∀ u body, embedded = some (u, body) → Embeds w x u) ∧
      w' = { w with
        sessionStore := w.sessionStore.set s { x with sbiObject := some o }
        sbiObjects := counts
        xacts := w.xacts ++ [⟨next, o, .session s, .create carried embedded⟩]
        log := .sent ⟨next, o, .session s, .create carried embedded⟩ :: w.log
        next := next + 1 } := by
  simp only [mbsSessionSendCreate, bind_eq_ok, World.sessionAt_eq_ok] at h
  obtain ⟨x, hx, h⟩ := h
  cases hsbi : x.sbiObject with
  | some o =>
      simp only [ensureSbiObject, hsbi] at h
      obtain ⟨o', request, ho, hbuild, rfl⟩ := sbiXactAdd_eq_ok.1 h
      rw [Option.some.injEq] at ho
      subst ho
      obtain ⟨carried, embedded, rfl, hc, he⟩ := buildCreate_eq_ok hbuild
      have hset : w.sessionStore.set s { x with sbiObject := some o } = w.sessionStore := by
        funext q
        by_cases hq : q = s
        · subst hq
          rw [Store.set_self, hx, ← hsbi]
        · rw [Store.set_of_ne _ _ _ hq]
      refine ⟨x, o, carried, embedded, w.sbiObjects, w.next, hx, le_refl _, ?_, hc, he, ?_⟩
      · intro o' ho'
        rw [hsbi, Option.some.injEq] at ho'
        exact ho'.symm
      · rw [hset]
  | none =>
      simp only [ensureSbiObject, hsbi, World.refCountSbiObjectNew] at h
      obtain ⟨o', request, ho, hbuild, rfl⟩ := sbiXactAdd_eq_ok.1 h
      rw [Option.some.injEq] at ho
      subst ho
      obtain ⟨carried, embedded, rfl, hc, he⟩ := buildCreate_eq_ok hbuild
      refine ⟨x, w.next, carried, embedded, _, w.next + 1, hx, Nat.le_succ _, ?_, hc, he, rfl⟩
      intro o' ho'
      rw [hsbi] at ho'
      cases ho'

/-- A create request writes no more than the SBI object. -/
def withoutSbiObject (x : MbsSession) : MbsSession := { x with sbiObject := none }

theorem mbsSessionSendCreate_stores (h : mbsSessionSendCreate w s = .ok w') :
    w'.subscriptionStore = w.subscriptionStore ∧ Keeps withoutSbiObject w w' := by
  obtain ⟨x, o, carried, embedded, counts, next, hx, -, -, -, -, rfl⟩ :=
    mbsSessionSendCreate_eq_ok h
  refine ⟨rfl, ?_⟩
  have hset : Keeps withoutSbiObject w (w.setSession s { x with sbiObject := some o }) :=
    Keeps.setSession hx rfl
  exact hset

/-- The requests about a session itself. -/
def IsSessionRequest : Request → Prop
  | .create .. | .update .. | .remove .. => True
  | _ => False

/-- One request about the session is sent, and at most an SBI object is set up for it. -/
structure SessionSend (s : Ref) (w w' : World) : Prop where
  subscriptionStore : w'.subscriptionStore = w.subscriptionStore
  keeps : Keeps withoutSbiObject w w'
  sent : ∃ x, w'.log = .sent x :: w.log ∧ x.requester = .session s ∧ IsSessionRequest x.request

theorem sessionSend_remove (h : mbsSessionSendRemove w s = .ok w') : SessionSend s w w' := by
  obtain ⟨x, o, -, -, rfl⟩ := mbsSessionSendRemove_eq_ok h
  exact ⟨rfl, Keeps.of_eq rfl, _, rfl, rfl, trivial⟩

theorem sessionSend_update (h : mbsSessionSendUpdate w s = .ok w') : SessionSend s w w' := by
  obtain ⟨x, o, patches, carried, -, -, -, -, rfl⟩ := mbsSessionSendUpdate_eq_ok h
  exact ⟨rfl, Keeps.of_eq rfl, _, rfl, rfl, trivial⟩

theorem sessionSend_create (h : mbsSessionSendCreate w s = .ok w') : SessionSend s w w' := by
  obtain ⟨hstore, hkeeps⟩ := mbsSessionSendCreate_stores h
  obtain ⟨x, o, carried, embedded, counts, next, -, -, -, -, -, rfl⟩ := mbsSessionSendCreate_eq_ok h
  exact ⟨hstore, hkeeps, _, rfl, rfl, trivial⟩

/-- What the requests of a push and the items of its three loops preserve, the push
preserves. -/
theorem mbsSessionPushChanges_steps (P : World → Prop)
    (hremove : ∀ v v', mbsSessionSendRemove v s = .ok v' → P v → P v')
    (hcreate : ∀ v v', mbsSessionSendCreate v s = .ok v' → P v → P v')
    (hupdate : ∀ v v', mbsSessionSendUpdate v s = .ok v' → P v → P v')
    (hnew : ∀ u x v v', v.sessionStore s = some x → u ∈ x.newSubscriptions → P v →
      updateNewSubscription v u = .ok v' → P v')
    (hactive : ∀ u x v v', v.sessionStore s = some x → u ∈ x.active.map Prod.snd → P v →
      updateStatusSubscription v u = .ok v' → P v')
    (hdeleted : ∀ u v v', P v → removePendingSubscription s v u = .ok v' → P v')
    (hw : P w) (h : mbsSessionPushChanges w s = .ok w') : P w' := by
  have hloops : ∀ v v', P v → mbsSessionSubscriptionsUpdate v s = .ok v' → P v' := by
    intro v v' hv hu
    have hlive : ∃ x, v.sessionStore s = some x := by
      simp only [mbsSessionSubscriptionsUpdate, bind_eq_ok, World.sessionAt_eq_ok] at hu
      obtain ⟨x, hx, -⟩ := hu
      exact ⟨x, hx⟩
    obtain ⟨x, hx⟩ := hlive
    exact mbsSessionSubscriptionsUpdate_induction P hx
      (fun u hu t t' hstore => hnew u x t t' (by rw [hstore]; exact hx) hu)
      (fun u hu t t' hstore => hactive u x t t' (by rw [hstore]; exact hx) hu)
      (fun u _ => hdeleted u) hv hu
  obtain ⟨x, decision, -, -, hd⟩ := mbsSessionPushChanges_eq_ok.1 h
  cases decision with
  | remove => exact hremove _ _ hd hw
  | create => exact hcreate _ _ hd hw
  | recreate removeFirst =>
      simp only [PushDecision.carryOut, removeAndCreate, bind_eq_ok] at hd
      obtain ⟨v, hv, hd⟩ := hd
      refine hcreate _ _ hd ?_
      split at hv
      · exact hremove _ _ hv hw
      · rw [Except.ok.injEq] at hv
        exact hv ▸ hw
  | update =>
      simp only [PushDecision.carryOut, bind_eq_ok] at hd
      obtain ⟨v, hv, hd⟩ := hd
      exact hloops _ _ (hupdate _ _ hv hw) hd
  | unchanged => exact hloops _ _ hw hd

/-- As `mbsSessionPushChanges_steps`, with one case for the requests about the session. -/
theorem mbsSessionPushChanges_induction (P : World → Prop)
    (hsend : ∀ v v', SessionSend s v v' → P v → P v')
    (hnew : ∀ u x v v', v.sessionStore s = some x → u ∈ x.newSubscriptions → P v →
      updateNewSubscription v u = .ok v' → P v')
    (hactive : ∀ u x v v', v.sessionStore s = some x → u ∈ x.active.map Prod.snd → P v →
      updateStatusSubscription v u = .ok v' → P v')
    (hdeleted : ∀ u v v', P v → removePendingSubscription s v u = .ok v' → P v')
    (hw : P w) (h : mbsSessionPushChanges w s = .ok w') : P w' :=
  mbsSessionPushChanges_steps P (fun v v' hv => hsend v v' (sessionSend_remove hv))
    (fun v v' hv => hsend v v' (sessionSend_create hv))
    (fun v v' hv => hsend v v' (sessionSend_update hv)) hnew hactive hdeleted hw h

/-! ## Effects -/

/-- What a push leaves alone. -/
structure PushEffect (A : Observation → Prop) (s : Ref) (w w' : World) : Prop where
  mbsSessions : w'.mbsSessions = w.mbsSessions
  tmgis : w'.tmgis = w.tmgis
  tmgiStore : w'.tmgiStore = w.tmgiStore
  keeps : Keeps withoutSending w w'
  others : ∀ q, q ≠ s → w'.sessionStore q = w.sessionStore q
  subscriptions : ∀ u, (w'.subscriptionStore u).isSome → (w.subscriptionStore u).isSome
  log : Extends A w w'

namespace PushEffect

variable {A B : Observation → Prop} {w'' : World}

theorem refl (w : World) : PushEffect A s w w :=
  ⟨rfl, rfl, rfl, Keeps.refl w, fun _ _ => rfl, fun _ hu => hu, Extends.refl w⟩

theorem trans (h₁ : PushEffect A s w w') (h₂ : PushEffect A s w' w'') : PushEffect A s w w'' :=
  ⟨h₂.mbsSessions.trans h₁.mbsSessions, h₂.tmgis.trans h₁.tmgis, h₂.tmgiStore.trans h₁.tmgiStore,
    h₁.keeps.trans h₂.keeps, fun q hq => (h₂.others q hq).trans (h₁.others q hq),
    fun u hu => h₁.subscriptions u (h₂.subscriptions u hu), h₁.log.trans h₂.log⟩

theorem mono (hAB : ∀ o, A o → B o) (h : PushEffect A s w w') : PushEffect B s w w' :=
  ⟨h.mbsSessions, h.tmgis, h.tmgiStore, h.keeps, h.others, h.subscriptions, h.log.mono hAB⟩

theorem of_send (h : SendEffect A w w') : PushEffect A s w w' :=
  ⟨h.mbsSessions, h.tmgis, h.tmgiStore, Keeps.of_eq h.sessionStore,
    fun q _ => by rw [h.sessionStore], fun u hu => by rwa [h.subscriptionStore] at hu, h.log⟩

theorem of_modifySubscription (u : Ref) (f : StatusSubscription → StatusSubscription) :
    PushEffect A s w (w.modifySubscription u f) :=
  ⟨rfl, rfl, rfl, Keeps.refl _, fun _ _ => rfl,
    fun q hq => by rwa [World.modifySubscription, Store.isSome_modify] at hq,
    Extends.of_silent rfl (List.Sublist.refl _) (le_refl _)⟩

end PushEffect

theorem pushEffect_mbsSessionSendRemove {A : Observation → Prop}
    (hA : ∀ n o x, w.sessionStore s = some x → A (.sent ⟨n, o, .session s, .remove x.id⟩))
    (h : mbsSessionSendRemove w s = .ok w') : PushEffect A s w w' := by
  obtain ⟨x, o, hx, -, rfl⟩ := mbsSessionSendRemove_eq_ok h
  exact ⟨rfl, rfl, rfl, Keeps.refl _, fun _ _ => rfl, fun _ hu => hu,
    extends_sent (hA _ _ _ hx) rfl⟩

theorem pushEffect_mbsSessionSendUpdate {A : Observation → Prop}
    (hA : ∀ n o x patches carried, w.sessionStore s = some x →
      mbsSessionPatchList x = .ok patches →
      A (.sent ⟨n, o, .session s, .update x.id patches carried⟩))
    (h : mbsSessionSendUpdate w s = .ok w') : PushEffect A s w w' := by
  obtain ⟨x, o, patches, carried, hx, -, -, hp, rfl⟩ := mbsSessionSendUpdate_eq_ok h
  exact ⟨rfl, rfl, rfl, Keeps.refl _, fun _ _ => rfl, fun _ hu => hu,
    extends_sent (hA _ _ _ _ _ hx hp) rfl⟩

theorem pushEffect_mbsSessionSendCreate {A : Observation → Prop}
    (hA : ∀ n o carried embedded, A (.sent ⟨n, o, .session s, .create carried embedded⟩))
    (h : mbsSessionSendCreate w s = .ok w') : PushEffect A s w w' := by
  obtain ⟨x, o, carried, embedded, counts, next, hx, hnext, -, -, -, rfl⟩ :=
    mbsSessionSendCreate_eq_ok h
  refine ⟨rfl, rfl, rfl, ?_, ?_, fun _ hu => hu, ?_⟩
  · intro q
    by_cases hq : q = s
    · subst hq
      simp [hx, withoutSending]
    · simp [Store.set_of_ne _ _ _ hq]
  · intro q hq
    exact Store.set_of_ne _ _ _ hq
  · have hquiet : Extends A w { w with
        sessionStore := w.sessionStore.set s { x with sbiObject := some o }
        sbiObjects := counts
        next := next } := Extends.of_silent rfl (List.Sublist.refl _) hnext
    exact hquiet.trans (extends_sent (hA _ _ _ _) rfl)

theorem pushEffect_updateNewSubscription {u : Ref} (h : updateNewSubscription w u = .ok w') :
    PushEffect SubscriptionSent s w w' := by
  obtain ⟨n, v, -, hv, rfl⟩ := updateNewSubscription_eq_ok h
  have hsend : SendEffect SubscriptionSent w v := by
    split at hv
    · exact sendEffect_sendCreate hv
    · rw [Except.ok.injEq] at hv
      subst hv
      exact SendEffect.refl _
  exact (PushEffect.of_send hsend).trans (PushEffect.of_modifySubscription u _)

theorem pushEffect_updateStatusSubscription {u : Ref}
    (h : updateStatusSubscription w u = .ok w') : PushEffect SubscriptionSent s w w' := by
  obtain ⟨n, -, ⟨-, rfl⟩ | ⟨-, v, hv, rfl⟩⟩ := updateStatusSubscription_eq_ok h
  · exact PushEffect.refl _
  · exact (PushEffect.of_send (sendEffect_sendUpdate hv)).trans
      (PushEffect.of_modifySubscription u _)

theorem pushEffect_ogsListRemove_deleted {A : Observation → Prop} {u : Ref}
    (h : ogsListRemove w s .deletedSubscriptions u = .ok w') : PushEffect A s w w' := by
  obtain ⟨x, hx, -, rfl⟩ := ogsListRemove_eq_ok h
  refine ⟨rfl, rfl, rfl, ?_, ?_, ?_, Extends.of_silent rfl (List.Sublist.refl _) (le_refl _)⟩
  · exact Keeps.setSession hx rfl
  · intro q hq
    exact Store.set_of_ne _ _ _ hq
  · intro q hq
    rwa [World.modifySubscription, Store.isSome_modify] at hq

theorem pushEffect_removePendingSubscription {u : Ref}
    (h : removePendingSubscription s w u = .ok w') : PushEffect SubscriptionSent s w w' := by
  obtain ⟨v, v', hv, hv', rfl⟩ := removePendingSubscription_eq_ok h
  have hsend := PushEffect.of_send (s := s) (sendEffect_sendDelete hv)
  have hremove := pushEffect_ogsListRemove_deleted (A := SubscriptionSent) hv'
  exact (hsend.trans hremove).trans
    ⟨rfl, rfl, rfl, Keeps.refl _, fun _ _ => rfl, fun q hq => Store.isSome_of_free hq,
      Extends.of_silent rfl (List.Sublist.refl _) (le_refl _)⟩

theorem pushEffect_mbsSessionSubscriptionsUpdate
    (h : mbsSessionSubscriptionsUpdate w s = .ok w') : PushEffect SubscriptionSent s w w' := by
  have hs : ∃ x, w.sessionStore s = some x := by
    simp only [mbsSessionSubscriptionsUpdate, bind_eq_ok, World.sessionAt_eq_ok] at h
    obtain ⟨x, hx, -⟩ := h
    exact ⟨x, hx⟩
  obtain ⟨x, hx⟩ := hs
  refine mbsSessionSubscriptionsUpdate_induction (fun v => PushEffect SubscriptionSent s w v)
    hx ?_ ?_ ?_ (PushEffect.refl w) h
  · intro u _ v v' _ hv hu
    exact hv.trans (pushEffect_updateNewSubscription hu)
  · intro u _ v v' _ hv hu
    exact hv.trans (pushEffect_updateStatusSubscription hu)
  · intro u _ v v' hv hu
    exact hv.trans (pushEffect_removePendingSubscription hu)

/-- A push of `s` sends requests of `s` and requests about subscriptions. -/
def PushObservation (s : Ref) : Observation → Prop
  | .sent x => x.requester = .session s ∧ x.request.isTmgi = false ∨
      IsSubscriptionRequest x.request
  | _ => False

theorem PushObservation.of_subscriptionSent {o : Observation} (h : SubscriptionSent o) :
    PushObservation s o := by
  cases o with
  | sent x => exact .inr h
  | _ => cases h

theorem pushEffect_carryOut {decision : PushDecision} (h : decision.carryOut w s = .ok w') :
    PushEffect (PushObservation s) s w w' := by
  have hremove : ∀ v v', mbsSessionSendRemove v s = .ok v' →
      PushEffect (PushObservation s) s v v' := fun v v' =>
    pushEffect_mbsSessionSendRemove fun _ _ _ _ => .inl ⟨rfl, rfl⟩
  have hcreate : ∀ v v', mbsSessionSendCreate v s = .ok v' →
      PushEffect (PushObservation s) s v v' := fun v v' =>
    pushEffect_mbsSessionSendCreate fun _ _ _ _ => .inl ⟨rfl, rfl⟩
  have hsubscriptions : ∀ v v', mbsSessionSubscriptionsUpdate v s = .ok v' →
      PushEffect (PushObservation s) s v v' := fun v v' hv =>
    (pushEffect_mbsSessionSubscriptionsUpdate hv).mono fun _ =>
      PushObservation.of_subscriptionSent
  cases decision with
  | remove => exact hremove _ _ h
  | create => exact hcreate _ _ h
  | recreate removeFirst =>
      simp only [PushDecision.carryOut, removeAndCreate, bind_eq_ok] at h
      obtain ⟨v, hv, h⟩ := h
      refine PushEffect.trans ?_ (hcreate _ _ h)
      split at hv
      · exact hremove _ _ hv
      · rw [Except.ok.injEq] at hv
        subst hv
        exact PushEffect.refl _
  | update =>
      simp only [PushDecision.carryOut, bind_eq_ok] at h
      obtain ⟨v, hv, h⟩ := h
      have hupdate : PushEffect (PushObservation s) s w v :=
        pushEffect_mbsSessionSendUpdate (fun _ _ _ _ _ _ _ => .inl ⟨rfl, rfl⟩) hv
      exact hupdate.trans (hsubscriptions _ _ h)
  | unchanged => exact hsubscriptions _ _ h

theorem pushEffect_mbsSessionPushChanges (h : mbsSessionPushChanges w s = .ok w') :
    PushEffect (PushObservation s) s w w' := by
  obtain ⟨x, decision, -, -, hd⟩ := mbsSessionPushChanges_eq_ok.1 h
  exact pushEffect_carryOut hd

end ServiceConsumers.PushEffects
