import ServiceConsumers.PushEffects

set_option autoImplicit false

/-!
# What the handlers of answers change
-/

namespace ServiceConsumers.AnswerEffects

open ObjectStore KeyedTable PublicSessions ConsumerState TmgiOperations SubscriptionOperations
  SessionOperations ResponseHandlers ProcessEvent TransitionRuns TransactionLog TmgiEffects
  SessionEffects PushEffects

variable {w w' : World} {s : Ref}

/-! ## Callbacks -/

theorem callback_keeps_stores {n : ℕ} {kind : CallbackKind} {result : CallbackResult}
    {problem : Option ProblemDetails} (h : mbsSessionDoCallback w n s kind result problem = .ok w') :
    w'.sessionStore = w.sessionStore ∧ w'.tmgiStore = w.tmgiStore := by
  simp only [mbsSessionDoCallback, bind_eq_ok] at h
  obtain ⟨x, -, h⟩ := h
  split at h
  · rw [Except.ok.injEq] at h
    exact ⟨by rw [h], by rw [h]⟩
  · rw [Except.ok.injEq] at h
    exact ⟨by rw [← h]; rfl, by rw [← h]; rfl⟩

theorem callback_isOk (n : ℕ) (kind : CallbackKind) (result : CallbackResult)
    (problem : Option ProblemDetails) {x : MbsSession} (hx : w.sessionStore s = some x) :
    ∃ w', mbsSessionDoCallback w n s kind result problem = .ok w' := by
  simp only [mbsSessionDoCallback, World.sessionAt_eq_ok.2 hx, bind, Except.bind]
  split
  · exact ⟨_, rfl⟩
  · exact ⟨_, rfl⟩

/-! ## Answers of which the header is parsed -/

/-- Without the status of the response the copy and the session stay, and the application is told
of an update. -/
theorem nmbsmfMbsSessionPatchResponse_header (w : World) (n : ℕ) (s : Ref) (rsp : Response) :
    nmbsmfMbsSessionPatchResponse w n s (ogsSbiParseHeader rsp) =
      mbsSessionDoCallback w n s .update .ogsOk none := by
  have hstatus : (ogsSbiParseHeader rsp).resStatus = 0 := rfl
  cases hx : w.sessionStore s with
  | none =>
      have hdangling : w.sessionAt s = .error .danglingSession := by rw [World.sessionAt, hx]
      simp only [nmbsmfMbsSessionPatchResponse, keepOrRevert, mbsSessionDoCallback, hdangling]
      rfl
  | some x =>
      have hkeep : keepOrRevert w s (ogsSbiParseHeader rsp).resStatus = .ok w := by
        rw [hstatus, keepOrRevert, World.sessionAt_eq_ok.2 hx]
        rfl
      rw [nmbsmfMbsSessionPatchResponse, hkeep]
      rfl

/-- Without the `Location` no subscription is established: the handler changes nothing, or it reads
through `NULL`. -/
theorem nmbsmfMbsSessionSubscriptionResponse_header {rsp : Response}
    (h : nmbsmfMbsSessionSubscriptionResponse w s (ogsSbiParseHeader rsp) = .ok w') : w' = w := by
  have hlocation : (ogsSbiParseHeader rsp).subscribeLocation = none := rfl
  unfold nmbsmfMbsSessionSubscriptionResponse at h
  simp only [hlocation] at h
  split at h
  · exact (Except.ok.inj h).symm
  · exact (Except.ok.inj h).symm
  · split at h
    · split at h
      · exact (Except.ok.inj h).symm
      · cases h
    · exact (Except.ok.inj h).symm

/-! ## Writing the value of a session -/

/-- Only the value, the cached copy and the id of `s` change, and TMGIs. -/
structure ValueEffect (s : Ref) (w w' : World) : Prop where
  mbsSessions : w'.mbsSessions = w.mbsSessions
  subscriptionStore : w'.subscriptionStore = w.subscriptionStore
  keeps : Keeps withoutValue w w'
  others : ∀ q, q ≠ s → w'.sessionStore q = w.sessionStore q
  log : Extends TmgiObservation w w'

namespace ValueEffect

variable {w'' : World}

theorem refl (w : World) : ValueEffect s w w :=
  ⟨rfl, rfl, Keeps.refl w, fun _ _ => rfl, Extends.refl w⟩

theorem trans (h₁ : ValueEffect s w w') (h₂ : ValueEffect s w' w'') : ValueEffect s w w'' :=
  ⟨h₂.mbsSessions.trans h₁.mbsSessions, h₂.subscriptionStore.trans h₁.subscriptionStore,
    h₁.keeps.trans h₂.keeps, fun q hq => (h₂.others q hq).trans (h₁.others q hq),
    h₁.log.trans h₂.log⟩

theorem of_tmgi (h : TmgiEffect w w') : ValueEffect s w w' :=
  ⟨h.mbsSessions, h.subscriptionStore, Keeps.of_eq h.sessionStore,
    fun q _ => by rw [h.sessionStore], h.log⟩

theorem of_setSession {x x' : MbsSession} (hx : w.sessionStore s = some x)
    (hview : withoutValue x' = withoutValue x) : ValueEffect s w (w.setSession s x') :=
  ⟨rfl, rfl, Keeps.setSession hx hview, fun _ hq => Store.set_of_ne _ _ _ hq,
    Extends.of_silent rfl (List.Sublist.refl _) (le_refl _)⟩

theorem of_modifySession {f : MbsSession → MbsSession}
    (hview : ∀ x, withoutValue (f x) = withoutValue x) :
    ValueEffect s w (w.modifySession s f) :=
  ⟨rfl, rfl, Keeps.modifySession hview, fun _ hq => Store.modify_of_ne _ _ _ hq,
    Extends.of_silent rfl (List.Sublist.refl _) (le_refl _)⟩

end ValueEffect

theorem valueEffect_parseSessionId {m : CreatedSession} (h : parseSessionId w s m = .ok w') :
    ValueEffect s w w' := by
  unfold parseSessionId at h
  split at h
  · cases h
  · simp only [bind_eq_ok, World.sessionAt_eq_ok, Prod.exists, Except.ok.injEq] at h
    obtain ⟨x, hx, v, copy, hv, rfl⟩ := h
    refine (ValueEffect.trans (ValueEffect.of_setSession hx ?_)
      (ValueEffect.of_tmgi (mbsSessionPublicCopy_eq_ok hv).1)).trans
      (ValueEffect.of_modifySession fun _ => rfl)
    split <;> rfl

/-- The session as the location and the tunnels of an answer leave it. -/
def parsedHead (x : MbsSession) (id : String) (m : CreatedSession) : MbsSession :=
  { x with
    id := some id
    session :=
      if x.session.tunnelReq then { x.session with mbUpfUdpTunnel := m.ingressTunAddr.getD [] }
      else x.session }

/-- What is left of a create answer behind its TMGI. -/
def parseTail (s : Ref) (m : CreatedSession) : World × Option Ref → Except Fault (World × Bool)
  | (w, none) => .ok (w, false)
  | (w, some t) => (parseSessionId (w.modifySession s (storeTmgi t)) s m).bind fun w => .ok (w, true)

/-- How the function runs on a response with a location and a body that has the tunnels. -/
theorem nmbsmfMbsSessionParse_eq {rsp : Response} {x : MbsSession} {id : String}
    {m : CreatedSession} (hx : w.sessionStore s = some x)
    (hloc : rsp.createLocation = .resource id) (hdata : rsp.createRspData = some (some m))
    (htunnel : (x.session.tunnelReq && m.ingressTunAddr.isNone) = false) :
    nmbsmfMbsSessionParse w s rsp =
      if x.session.tmgiReq then
        (createdTmgi (w.setSession s (parsedHead x id m)) s m).bind (parseTail s m)
      else (parseSessionId (w.setSession s (parsedHead x id m)) s m).bind fun w => .ok (w, true) := by
  have hboth : ¬(x.session.tunnelReq = true ∧ m.ingressTunAddr = none) := by
    rintro ⟨hreq, hnone⟩
    rw [hreq, hnone] at htunnel
    cases htunnel
  have hhead : (if x.session.tunnelReq = true then
      { x with
        id := some id
        session := { x.session with mbUpfUdpTunnel := m.ingressTunAddr.getD [] } }
      else { x with id := some id }) = parsedHead x id m := by
    unfold parsedHead
    split <;> rfl
  have hstore : (w.setSession s { x with id := some id }).setSession s (parsedHead x id m) =
      w.setSession s (parsedHead x id m) := by
    simp only [World.setSession, World.mk.injEq, true_and, and_true]
    funext q
    by_cases hq : q = s <;> simp [Store.set, hq]
  have hreq : (parsedHead x id m).session.tmgiReq = x.session.tmgiReq := by
    unfold parsedHead
    split <;> rfl
  simp only [nmbsmfMbsSessionParse, World.sessionAt_eq_ok.2 hx, bind, Except.bind, hloc, hdata,
    if_neg hboth, hhead, hstore, hreq]
  split
  · cases createdTmgi (w.setSession s (parsedHead x id m)) s m with
    | error f => rfl
    | ok r =>
        obtain ⟨v, tmgi⟩ := r
        cases tmgi <;> rfl
  · rfl

/-- How a create answer is parsed: it fails before or behind the location, or it stores the
tunnels, the TMGI and the rest in turn. -/
theorem nmbsmfMbsSessionParse_eq_ok {rsp : Response} {understood : Bool}
    (h : nmbsmfMbsSessionParse w s rsp = .ok (w', understood)) :
    ∃ x, w.sessionStore s = some x ∧
      ((understood = false ∧ w' = w ∧ ∀ id, rsp.createLocation ≠ .resource id) ∨
      ∃ id, rsp.createLocation = .resource id ∧
        ((understood = false ∧ w' = w.setSession s { x with id := some id } ∧
          ∀ m, rsp.createRspData = some (some m) →
            x.session.tunnelReq = true ∧ m.ingressTunAddr = none) ∨
        ∃ m, rsp.createRspData = some (some m) ∧
          ¬(x.session.tunnelReq ∧ m.ingressTunAddr = none) ∧
          ((x.session.tmgiReq = true ∧ ∃ v tmgi,
              createdTmgi (w.setSession s (parsedHead x id m)) s m = .ok (v, tmgi) ∧
              ((tmgi = none ∧ understood = false ∧ w' = v) ∨
              ∃ t, tmgi = some t ∧ understood = true ∧
                parseSessionId (v.modifySession s (storeTmgi t)) s m = .ok w')) ∨
          (x.session.tmgiReq = false ∧ understood = true ∧
            parseSessionId (w.setSession s (parsedHead x id m)) s m = .ok w')))) := by
  have hparse := h
  simp only [nmbsmfMbsSessionParse, bind_eq_ok, World.sessionAt_eq_ok] at h
  obtain ⟨x, hx, h⟩ := h
  refine ⟨x, hx, ?_⟩
  cases hloc : rsp.createLocation with
  | absent | unparsable | noResource =>
      simp only [hloc, Except.ok.injEq, Prod.mk.injEq] at h
      exact .inl ⟨h.2.symm, h.1.symm, fun id hid => by cases hid⟩
  | resource id =>
      refine .inr ⟨id, rfl, ?_⟩
      simp only [hloc] at h
      split at h
      · rename_i hnone
        rw [Except.ok.injEq, Prod.mk.injEq] at h
        exact .inl ⟨h.2.symm, h.1.symm, fun m hm => by rw [hnone] at hm; cases hm⟩
      · rename_i hnone
        rw [Except.ok.injEq, Prod.mk.injEq] at h
        exact .inl ⟨h.2.symm, h.1.symm, fun m hm => by rw [hnone] at hm; cases hm⟩
      · rename_i m hm
        split at h
        · rename_i htunnel
          rw [Except.ok.injEq, Prod.mk.injEq] at h
          refine .inl ⟨h.2.symm, h.1.symm, fun m' hm' => ?_⟩
          rw [hm, Option.some.injEq, Option.some.injEq] at hm'
          exact hm' ▸ htunnel
        · rename_i htunnel
          refine .inr ⟨m, hm, htunnel, ?_⟩
          have hthere : (x.session.tunnelReq && m.ingressTunAddr.isNone) = false := by
            rw [Bool.eq_false_iff]
            intro hboth
            exact htunnel (by simpa using hboth)
          rw [nmbsmfMbsSessionParse_eq hx hloc hm hthere] at hparse
          split at hparse
          · rename_i htmgi
            refine .inl ⟨htmgi, ?_⟩
            obtain ⟨⟨v, tmgi⟩, hv, hrest⟩ := bind_eq_ok.1 hparse
            refine ⟨v, tmgi, hv, ?_⟩
            cases tmgi with
            | none =>
                rw [parseTail, Except.ok.injEq, Prod.mk.injEq] at hrest
                exact .inl ⟨rfl, hrest.2.symm, hrest.1.symm⟩
            | some t =>
                rw [parseTail] at hrest
                obtain ⟨v', hv', hdone⟩ := bind_eq_ok.1 hrest
                rw [Except.ok.injEq, Prod.mk.injEq] at hdone
                obtain ⟨rfl, rfl⟩ := hdone
                exact .inr ⟨t, rfl, rfl, hv'⟩
          · rename_i htmgi
            obtain ⟨v', hv', hdone⟩ := bind_eq_ok.1 hparse
            rw [Except.ok.injEq, Prod.mk.injEq] at hdone
            obtain ⟨rfl, rfl⟩ := hdone
            exact .inr ⟨by simpa using htmgi, rfl, hv'⟩

theorem valueEffect_nmbsmfMbsSessionParse {rsp : Response} {understood : Bool}
    (h : nmbsmfMbsSessionParse w s rsp = .ok (w', understood)) : ValueEffect s w w' := by
  obtain ⟨x, hx, h⟩ := nmbsmfMbsSessionParse_eq_ok h
  rcases h with ⟨-, rfl, -⟩ | ⟨id, -, ⟨-, rfl, -⟩ | ⟨m, -, -, h⟩⟩
  · exact ValueEffect.refl _
  · exact ValueEffect.of_setSession hx rfl
  · have hhead : ValueEffect s w (w.setSession s (parsedHead x id m)) :=
      ValueEffect.of_setSession hx rfl
    rcases h with ⟨-, v, tmgi, hv, h⟩ | ⟨-, -, h⟩
    · have hcreated := hhead.trans (ValueEffect.of_tmgi (tmgiEffect_createdTmgi hv))
      rcases h with ⟨-, -, rfl⟩ | ⟨t, -, -, h⟩
      · exact hcreated
      · have hstore : ValueEffect s v (v.modifySession s (storeTmgi t)) :=
          ValueEffect.of_modifySession fun _ => rfl
        exact (hcreated.trans hstore).trans (valueEffect_parseSessionId h)
    · exact hhead.trans (valueEffect_parseSessionId h)

/-! ## Callbacks -/

theorem mbsSessionDoCallback_eq_ok {n : ℕ} {kind : CallbackKind} {result : CallbackResult}
    {problem : Option ProblemDetails} (h : mbsSessionDoCallback w n s kind result problem = .ok w') :
    ∃ x, w.sessionStore s = some x ∧ ((callbackOf x kind = none ∧ w' = w) ∨
      ∃ cb, callbackOf x kind = some cb ∧
        w' = w.say (.sessionCallback n s cb result problem)) := by
  simp only [mbsSessionDoCallback, bind_eq_ok, World.sessionAt_eq_ok] at h
  obtain ⟨x, hx, h⟩ := h
  refine ⟨x, hx, ?_⟩
  cases hcb : callbackOf x kind with
  | none =>
      simp only [hcb, Except.ok.injEq] at h
      exact .inl ⟨rfl, h.symm⟩
  | some cb =>
      simp only [hcb, Except.ok.injEq] at h
      exact .inr ⟨cb, rfl, h.symm⟩

/-! ## The end of a session -/

theorem freeSubscriptions_eq (us : List Ref) : ∃ store, freeSubscriptions w us =
    { w with subscriptionStore := store } ∧
    ∀ u, store u = if u ∈ us then none else w.subscriptionStore u := by
  induction us generalizing w with
  | nil => exact ⟨w.subscriptionStore, rfl, fun u => by simp⟩
  | cons q us ih =>
      obtain ⟨store, hstore, hu⟩ := ih (w := mbsStatusSubscriptionFree w q)
      refine ⟨store, hstore, ?_⟩
      intro u
      rw [hu u]
      by_cases hq : u = q
      · subst hq
        simp [mbsStatusSubscriptionFree]
      · simp [mbsStatusSubscriptionFree, Store.free_of_ne _ _ _ hq, hq]

/-- What the end of a session says. -/
def LeavingObservation (s : Ref) : Observation → Prop
  | .sessionLeft q => q = s
  | o => TmgiObservation o

/-- A session that leaves takes its new and its pending subscriptions along. It had no active
ones. -/
structure LeavingEffect (s : Ref) (w w' : World) : Prop where
  mbsSessions : w'.mbsSessions = w.mbsSessions.erase s
  member : s ∈ w.mbsSessions
  sessionStore : w'.sessionStore = w.sessionStore.free s
  record : ∃ x, w.sessionStore s = some x ∧ x.active = [] ∧ ∀ u, w'.subscriptionStore u =
    if u ∈ x.newSubscriptions ∨ u ∈ x.deletedSubscriptions then none else w.subscriptionStore u
  log : Extends (LeavingObservation s) w w'

theorem LeavingObservation.of_tmgi {o : Observation} (h : TmgiObservation o) :
    LeavingObservation s o := by
  cases o <;> first | exact h | cases h

theorem extends_freeSubscriptions {A : Observation → Prop} (us : List Ref) :
    Extends A w (freeSubscriptions w us) := by
  obtain ⟨store, hstore, -⟩ := freeSubscriptions_eq (w := w) us
  rw [hstore]
  exact Extends.of_silent rfl (List.Sublist.refl _) (le_refl _)

theorem mbsSessionDelete_eq_ok (h : mbsSessionDelete w s = .ok w') :
    ∃ x v₁ v₂, w.sessionStore s = some x ∧ x.active = [] ∧ TmgiEffect w v₁ ∧
      TmgiEffect (freeSubscriptions (freeSubscriptions v₁ x.newSubscriptions)
        x.deletedSubscriptions) v₂ ∧
      w' = { v₂ with sessionStore := v₂.sessionStore.free s } := by
  simp only [mbsSessionDelete, bind_eq_ok, World.sessionAt_eq_ok] at h
  obtain ⟨x, hx, v₁, hv₁, h⟩ := h
  have heffect : TmgiEffect w v₁ := by
    split at hv₁
    · exact tmgiEffect_mbsSessionPublicClear hv₁
    · rw [Except.ok.injEq] at hv₁
      subst hv₁
      exact TmgiEffect.refl _
  split at h
  · cases h
  · rename_i hactive
    simp only [bind_eq_ok] at h
    obtain ⟨v₂, hv₂, h⟩ := h
    split at h
    · cases h
    · rw [Except.ok.injEq] at h
      exact ⟨x, v₁, v₂, hx, by simpa using hactive, heffect,
        (tmgiEffect_refCountSbiObjectUnref _).trans (tmgiEffect_mbsSessionPublicClear hv₂),
        h.symm⟩

theorem leavingEffect_contextRemoveMbsSession (h : contextRemoveMbsSession w s = .ok w') :
    LeavingEffect s w w' := by
  unfold contextRemoveMbsSession at h
  split at h
  · rename_i hs
    obtain ⟨x, v₁, v₂, hx, hactive, h₁, h₂, rfl⟩ := mbsSessionDelete_eq_ok h
    obtain ⟨store₁, hstore₁, hu₁⟩ := freeSubscriptions_eq (w := v₁) x.newSubscriptions
    obtain ⟨store₂, hstore₂, hu₂⟩ := freeSubscriptions_eq
      (w := freeSubscriptions v₁ x.newSubscriptions) x.deletedSubscriptions
    have hS₁ : v₁.subscriptionStore = w.subscriptionStore := h₁.subscriptionStore
    have hS₂ := h₂.subscriptionStore
    have hM₂ := h₂.mbsSessions
    have hX₂ := h₂.sessionStore
    rw [hstore₂] at hS₂ hM₂ hX₂
    simp only [hstore₁] at hS₂ hM₂ hX₂ hu₂
    refine ⟨?_, hs, ?_, ⟨x, hx, hactive, ?_⟩, ?_⟩
    · change v₂.mbsSessions = _
      rw [hM₂, h₁.mbsSessions]
      rfl
    · change v₂.sessionStore.free s = _
      rw [hX₂, h₁.sessionStore]
      rfl
    · intro u
      change v₂.subscriptionStore u = _
      rw [hS₂, hu₂ u, hu₁ u, hS₁]
      by_cases hnew : u ∈ x.newSubscriptions <;> by_cases hdel : u ∈ x.deletedSubscriptions <;>
        simp [hnew, hdel]
    · have hsay : Extends (LeavingObservation s) w
          ({ w with mbsSessions := w.mbsSessions.erase s }.say (.sessionLeft s)) := by
        have herase : Extends (LeavingObservation s) w
            { w with mbsSessions := w.mbsSessions.erase s } :=
          Extends.of_silent rfl (List.Sublist.refl _) (le_refl _)
        exact herase.trans (Extends.say (A := LeavingObservation s) rfl rfl)
      have hfirst := hsay.trans (h₁.log.mono fun _ => LeavingObservation.of_tmgi)
      have hfree := (hfirst.trans (extends_freeSubscriptions x.newSubscriptions)).trans
        (extends_freeSubscriptions x.deletedSubscriptions)
      exact (hfree.trans (h₂.log.mono fun _ => LeavingObservation.of_tmgi)).trans
        (Extends.of_silent rfl (List.Sublist.refl _) (le_refl _))
  · cases h

end ServiceConsumers.AnswerEffects
