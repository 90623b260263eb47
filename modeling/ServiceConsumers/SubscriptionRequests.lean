import ServiceConsumers.NotificationUris
import ServiceConsumers.SessionResources

set_option autoImplicit false

/-!
# One request for each subscription

A subscription is carried to the resource of its session by a subscribe request, or by the
create request that made the resource. Whether a request is still to be sent is decided from
its list and its flag alone.
-/

namespace ServiceConsumers.SubscriptionRequests

open ObjectStore PublicSessions ConsumerState TmgiOperations SubscriptionOperations
  SessionOperations ResponseHandlers ProcessEvent TransitionRuns TransactionLog TmgiEffects
  SessionEffects PushEffects AnswerEffects EventEffects StepDecomposition RunInvariants
  SubscriptionLinks TmgiSteps NotificationUris SessionResources

variable {w w' v v' v'' : World} {e : Event} {s q u : Ref} {y : MbsSession} {x : Xact}
  {rsp : Response} {n : ℕ}

/-! ## The law -/

def subscribesTo (u : Ref) : Request → Bool
  | .subscribe v _ => v = u
  | _ => false

/-- The answer makes a resource of the session. -/
def makesResource (s : Ref) (x : Xact) (rsp : Response) : Bool :=
  x.request.isCreate && x.requester = .session s && isSuccess rsp.status

/-- The requests that carried a subscription to the resource of its session since it was
attached, newest first. -/
def carriersOf (s u : Ref) : List Observation → List Xact
  | [] => []
  | .sent x :: log =>
      if subscribesTo u x.request then x :: carriersOf s u log else carriersOf s u log
  | .answered x rsp :: log =>
      if makesResource s x rsp then if embedded x.request = some u then [x] else []
      else carriersOf s u log
  | .attached v _ :: log => if v = u then [] else carriersOf s u log
  | _ :: log => carriersOf s u log

/-- The new and the active subscriptions. -/
def listed (y : MbsSession) : List Ref := y.newSubscriptions ++ y.active.map Prod.snd

structure AttachedTo (w : World) (s u : Ref) (m : StatusSubscription) : Prop where
  subscription : w.subscriptionStore u = some m
  session : m.session = some s

/-- The subscription is not carried twice, and when it is listed and has nothing left to send
it was carried. -/
structure CarriedOnce (w : World) (u : Ref) : Prop where
  atMostOnce : ∀ s m, AttachedTo w s u m → (carriersOf s u w.log).length ≤ 1
  carried : ∀ s m y, AttachedTo w s u m → w.sessionStore s = some y → u ∈ listed y →
    m.changed = false → carriersOf s u w.log ≠ []

/-- The event is an answer that makes a resource of the session with the subscription. -/
def AcceptsEmbedded (w : World) (e : Event) (s u : Ref) : Prop :=
  ∃ n rsp x, e = .network (.response n rsp) ∧ w.findSent n = some x ∧
    makesResource s x rsp = true ∧ embedded x.request = some u

def IsActive (w : World) (s u : Ref) : Prop :=
  ∃ y, w.sessionStore s = some y ∧ u ∈ y.active.map Prod.snd

/-! ## The condition -/

/-- The log as the event finds it, with the answer that it brings. -/
def logAt (w : World) : Event → List Observation
  | .network (.response n rsp) =>
      match w.findSent n with
      | none => w.log
      | some x => .answered x rsp :: w.log
  | _ => w.log

/-- A push of the session goes on to its subscriptions. -/
def UpdatesSubscriptions (w : World) (y : MbsSession) : Prop :=
  y.deleted = false ∧ y.previousSession.isSome = true ∧ ¬Readdressed w y

/-- The event may update the subscriptions of the session. -/
inductive MayUpdate (w : World) (s : Ref) (y : MbsSession) : Event → Prop where
  | direct (updates : UpdatesSubscriptions w y) : MayUpdate w s y (.session (.pushChanges s))
  | all (updates : UpdatesSubscriptions w y) (listed : s ∈ w.mbsSessions) :
      MayUpdate w s y (.session .pushAllChanges)
  | created {n : ℕ} {rsp : Response} {x : Xact} (answers : Answers w n rsp x s)
      (request : x.request.isCreate = true) (status : isSuccess rsp.status = true) :
      MayUpdate w s y (.network (.response n rsp))

/-- An update requests no subscription that was carried and patches none that was not. A
resource is made with an active subscription or none, when all others are still to be
requested. -/
structure SubscribesOnce (w : World) (e : Event) : Prop where
  requests : ∀ s y u m, MayUpdate w s y e → w.sessionStore s = some y →
    w.subscriptionStore u = some m → m.changed = true → u ∈ y.newSubscriptions →
    carriersOf s u (logAt w e) = []
  patches : ∀ s y u m q, MayUpdate w s y e → w.sessionStore s = some y → AttachedTo w q u m →
    m.changed = true → u ∈ y.active.map Prod.snd → u ∉ y.newSubscriptions →
    carriersOf q u (logAt w e) ≠ []
  recorded : ∀ s u, AcceptsEmbedded w e s u → IsActive w s u
  remade : ∀ n rsp x s u m y, e = .network (.response n rsp) → w.findSent n = some x →
    makesResource s x rsp = true → AttachedTo w s u m → w.sessionStore s = some y →
    u ∈ listed y → m.changed = false → embedded x.request = some u

/-- Every subscription is carried once, and the one that an accepted create request embeds is
active after the answer. -/
structure SubscriptionsCarried (good : World → Event → Prop) (w : World) : Prop where
  once : ∀ u, CarriedOnce w u
  recorded : ∀ e w' s u, good w e → step w e = .ok w' → AcceptsEmbedded w e s u → IsActive w' s u

/-! ## What is said of no subscription -/

/-- The observation changes the carriers of no subscription. -/
def Neutral : Observation → Prop
  | .sent x => ∀ u, subscribesTo u x.request = false
  | .answered x rsp => ∀ s, makesResource s x rsp = false
  | .attached .. => False
  | _ => True

theorem carriersOf_cons {o : Observation} {log : List Observation} (h : Neutral o) :
    carriersOf s u (o :: log) = carriersOf s u log := by
  cases o with
  | sent x => rw [carriersOf, if_neg (by rw [h u]; exact Bool.false_ne_true)]
  | answered x rsp => rw [carriersOf, if_neg (by rw [h s]; exact Bool.false_ne_true)]
  | attached v q => exact h.elim
  | _ => rfl

theorem carriersOf_append {new log : List Observation} (h : ∀ o ∈ new, Neutral o) :
    carriersOf s u (new ++ log) = carriersOf s u log := by
  induction new with
  | nil => rfl
  | cons o new ih =>
      rw [List.cons_append, carriersOf_cons (h o List.mem_cons_self)]
      exact ih fun p hp => h p (List.mem_cons_of_mem o hp)

/-- The carriers of every subscription are as they were. -/
def SameCarriers (w w' : World) : Prop :=
  ∀ s u, carriersOf s u w'.log = carriersOf s u w.log

theorem SameCarriers.of_extends {A : Observation → Prop} (h : Extends A w w')
    (hA : ∀ o, A o → Neutral o) : SameCarriers w w' := by
  intro s u
  obtain ⟨⟨new, hlog, hnew, -⟩, -⟩ := h
  rw [hlog]
  exact carriersOf_append fun o ho => hA o (hnew o ho)

theorem SameCarriers.of_log (h : w'.log = w.log) : SameCarriers w w' := fun s u => by rw [h]

theorem SameCarriers.trans (h : SameCarriers v v') (h' : SameCarriers v' v'') :
    SameCarriers v v'' :=
  fun s u => (h' s u).trans (h s u)

theorem neutral_of_tmgi {o : Observation} (h : TmgiObservation o) : Neutral o := by
  cases o with
  | sent x =>
      intro u
      change x.request.isTmgi = true at h
      cases hrequest : x.request <;> rw [hrequest] at h <;> first | rfl | cases h
  | answered x rsp => exact h.elim
  | attached v q => exact h.elim
  | _ => trivial

/-! ## What a push does to a subscription -/

/-- What becomes of a subscription when the new and the active ones of a session are updated. -/
inductive Fate (new active : List Ref) (v v' : World) (u : Ref) : Prop where
  | same (kept : ∀ m', v'.subscriptionStore u = some m' → v.subscriptionStore u = some m')
      (carriers : ∀ s, carriersOf s u v'.log = carriersOf s u v.log)
  | requested {m : StatusSubscription} {x : Xact} (live : v.subscriptionStore u = some m)
      (changed : m.changed = true) (listed : u ∈ new)
      (after : ∀ m', v'.subscriptionStore u = some m' → m' = { m with changed := false })
      (carriers : ∀ s, carriersOf s u v'.log = x :: carriersOf s u v.log)
  | patched {m : StatusSubscription} (live : v.subscriptionStore u = some m)
      (changed : m.changed = true) (why : m.session = none ∨ u ∈ active ∧ u ∉ new)
      (after : ∀ m', v'.subscriptionStore u = some m' → m' = { m with changed := false })
      (carriers : ∀ s, carriersOf s u v'.log = carriersOf s u v.log)

namespace Fate

variable {new active : List Ref}

/-- An update clears the flag, so that nothing but what is quiet follows it. -/
theorem trans (h : Fate new active v v' u) (h' : Fate new active v' v'' u) :
    Fate new active v v'' u := by
  cases h with
  | same kept carriers =>
      cases h' with
      | same kept' carriers' =>
          exact .same (fun m' hm' => kept m' (kept' m' hm')) fun s => (carriers' s).trans (carriers s)
      | requested live changed listed after carriers' =>
          exact .requested (kept _ live) changed listed after fun s => by
            rw [carriers' s, carriers s]
      | patched live changed why after carriers' =>
          exact .patched (kept _ live) changed why after fun s => (carriers' s).trans (carriers s)
  | requested live changed listed after carriers =>
      cases h' with
      | same kept' carriers' =>
          exact .requested live changed listed (fun m' hm' => after m' (kept' m' hm'))
            fun s => (carriers' s).trans (carriers s)
      | requested live' changed' =>
          rw [after _ live'] at changed'
          cases changed'
      | patched live' changed' =>
          rw [after _ live'] at changed'
          cases changed'
  | patched live changed why after carriers =>
      cases h' with
      | same kept' carriers' =>
          exact .patched live changed why (fun m' hm' => after m' (kept' m' hm'))
            fun s => (carriers' s).trans (carriers s)
      | requested live' changed' =>
          rw [after _ live'] at changed'
          cases changed'
      | patched live' changed' =>
          rw [after _ live'] at changed'
          cases changed'

theorem refl (v : World) : Fate new active v v u := .same (fun _ hm => hm) fun _ => rfl

end Fate

theorem neutral_sendUpdate (h : mbsStatusSubscriptionSendUpdate v q = .ok v') :
    SendEffect Neutral v v' := by
  refine sendEffect_mbsStatusSubscriptionSend ?_ h
  intro n o s x m r _ _ _ hr
  obtain ⟨patches, -, rfl⟩ := buildStatusSubscriptionUpdate_eq_ok hr
  exact fun _ => rfl

theorem neutral_sendDelete (h : mbsStatusSubscriptionSendDelete v q = .ok v') :
    SendEffect Neutral v v' := by
  refine sendEffect_mbsStatusSubscriptionSend ?_ h
  intro n o s x m r _ _ _ hr
  simp only [buildStatusSubscriptionDelete, Except.ok.injEq] at hr
  rw [← hr]
  exact fun _ => rfl

/-- Its flag is down, if it is still there. -/
def Settled (v : World) (u : Ref) : Prop :=
  ∀ m, v.subscriptionStore u = some m → m.changed = false

def unchanged (m : StatusSubscription) : StatusSubscription := { m with changed := false }

theorem eq_unchanged {m : StatusSubscription} (h : m.changed = false) : unchanged m = m := by
  cases m
  cases h
  rfl

section Loops

variable {new active : List Ref}

/-- The other subscriptions when the flag of one is cleared and a request for it may be sent. -/
theorem fate_other (hq : u ≠ q) (hstore : v'.subscriptionStore = v.subscriptionStore)
    (hcarriers : ∀ s, carriersOf s u v'.log = carriersOf s u v.log) :
    Fate new active v (v'.modifySubscription q unchanged) u := by
  refine .same (fun m' hm' => ?_) hcarriers
  change (v'.subscriptionStore.modify q unchanged) u = some m' at hm'
  rwa [Store.modify_of_ne _ _ _ hq, hstore] at hm'

theorem after_unchanged {m m' : StatusSubscription}
    (hstore : v'.subscriptionStore = v.subscriptionStore) (hm : v.subscriptionStore q = some m)
    (hm' : (v'.modifySubscription q unchanged).subscriptionStore q = some m') :
    m' = { m with changed := false } := by
  change (v'.subscriptionStore.modify q unchanged) q = some m' at hm'
  rw [Store.modify_self, hstore, hm, Option.map_some, Option.some.injEq] at hm'
  exact hm'.symm

theorem fate_updateNewSubscription (hq : q ∈ new) (h : updateNewSubscription v q = .ok v') :
    ∀ u, Fate new active v v' u := by
  intro u
  obtain ⟨m, t, hm, hsend, rfl⟩ := updateNewSubscription_eq_ok h
  change Fate new active v (t.modifySubscription q unchanged) u
  cases hchanged : m.changed with
  | false =>
      rw [hchanged, if_neg Bool.false_ne_true, Except.ok.injEq] at hsend
      subst hsend
      by_cases hu : u = q
      · subst hu
        refine .same (fun m' hm' => ?_) fun _ => rfl
        rw [after_unchanged rfl hm hm', hm]
        exact congrArg some (eq_unchanged hchanged).symm
      · exact fate_other hu rfl fun _ => rfl
  | true =>
      rw [hchanged, if_pos rfl] at hsend
      obtain ⟨m', hm', hcase⟩ := mbsStatusSubscriptionSend_eq_ok hsend
      obtain rfl := Option.some.inj (hm.symm.trans hm')
      rcases hcase with ⟨hnone, rfl⟩ | ⟨s, y, o, r, hattached, -, -, hbuild, rfl⟩
      · by_cases hu : u = q
        · subst hu
          exact .patched hm hchanged (.inl hnone) (fun _ hm' => after_unchanged rfl hm hm')
            fun _ => rfl
        · exact fate_other hu rfl fun _ => rfl
      · obtain rfl := buildStatusSubscriptionCreate_eq_ok hbuild
        by_cases hu : u = q
        · subst hu
          refine .requested (x := ⟨v.next, o, .session s, .subscribe u (subscriptionBody m)⟩) hm
            hchanged hq (fun _ hm' => after_unchanged rfl hm hm') fun s' => ?_
          exact if_pos (decide_eq_true rfl)
        · refine fate_other hu rfl fun s' => ?_
          exact if_neg (by rw [subscribesTo, decide_eq_true_iff]; exact Ne.symm hu)

theorem settled_updateNewSubscription (h : updateNewSubscription v q = .ok v') : Settled v' q := by
  obtain ⟨m, t, -, -, rfl⟩ := updateNewSubscription_eq_ok h
  intro m' hm'
  change (t.subscriptionStore.modify q unchanged) q = some m' at hm'
  rw [Store.modify_self] at hm'
  obtain ⟨m, -, rfl⟩ := Option.map_eq_some_iff.1 hm'
  rfl

/-- Once its flag is down, no update raises it. -/
theorem Fate.settled (h : Fate new active v v' u) (hv : Settled v u) : Settled v' u := by
  intro m' hm'
  cases h with
  | same kept => exact hv m' (kept m' hm')
  | requested live changed listed after => rw [after m' hm']
  | patched live changed why after => rw [after m' hm']

theorem fate_updateStatusSubscription (hq : q ∈ active) (hsettled : q ∈ new → Settled v q)
    (h : updateStatusSubscription v q = .ok v') : ∀ u, Fate new active v v' u := by
  intro u
  obtain ⟨m, hm, ⟨-, rfl⟩ | ⟨hchanged, t, hsend, rfl⟩⟩ := updateStatusSubscription_eq_ok h
  · exact .refl v'
  · have heffect := neutral_sendUpdate hsend
    have hsame : SameCarriers v t := .of_extends heffect.log fun _ ho => ho
    change Fate new active v (t.modifySubscription q unchanged) u
    by_cases hu : u = q
    · subst hu
      have hnot : u ∉ new := by
        intro hin
        rw [hsettled hin m hm] at hchanged
        cases hchanged
      exact .patched hm hchanged (.inr ⟨hq, hnot⟩)
        (fun _ hm' => after_unchanged heffect.subscriptionStore hm hm') fun s => hsame s u
    · exact fate_other hu heffect.subscriptionStore fun s => hsame s u

theorem fate_removePendingSubscription (h : removePendingSubscription s v q = .ok v') :
    ∀ u, Fate new active v v' u := by
  intro u
  obtain ⟨t, t', ht, ht', rfl⟩ := removePendingSubscription_eq_ok h
  obtain ⟨z, -, -, rfl⟩ := ogsListRemove_eq_ok ht'
  have heffect := neutral_sendDelete ht
  have hsame : SameCarriers v t := .of_extends heffect.log fun _ ho => ho
  refine .same (fun m' hm' => ?_) fun s => hsame s u
  change ((t.subscriptionStore.modify q _).free q) u = some m' at hm'
  by_cases hu : u = q
  · subst hu
    rw [Store.free_self] at hm'
    cases hm'
  · rwa [Store.free_of_ne _ _ _ hu, Store.modify_of_ne _ _ _ hu, heffect.subscriptionStore] at hm'

/-- Every new subscription is settled by the first loop. -/
theorem fate_newLoop (h : new.foldlM updateNewSubscription v = .ok v') :
    ∀ u, Fate new active v v' u ∧ (u ∈ new → Settled v' u) := by
  have hloop := foldlM_ok_induction
    (fun rest t => (∀ u ∈ rest, u ∈ new) ∧ (∀ u, Fate new active v t u) ∧
      ∀ u ∈ new, u ∈ rest ∨ Settled t u) ?_ new v v'
    ⟨fun _ hu => hu, fun _ => .refl v, fun _ hu => .inl hu⟩ h
  · obtain ⟨-, hfate, hsettled⟩ := hloop
    exact fun u => ⟨hfate u, fun hu => (hsettled u hu).resolve_left List.not_mem_nil⟩
  · rintro q rest t t' ⟨hrest, hfate, hsettled⟩ hrun
    have hstep : ∀ u, Fate new active t t' u :=
      fate_updateNewSubscription (hrest q List.mem_cons_self) hrun
    refine ⟨fun u hu => hrest u (List.mem_cons_of_mem q hu), fun u => (hfate u).trans (hstep u), ?_⟩
    intro u hu
    rcases hsettled u hu with hmem | hdone
    · rcases List.mem_cons.1 hmem with rfl | hmem
      · exact .inr (settled_updateNewSubscription hrun)
      · exact .inl hmem
    · exact .inr ((hstep u).settled hdone)

theorem fate_loop {f : World → Ref → Except Fault World} {us : List Ref} {t t' : World}
    (hf : ∀ q ∈ us, ∀ r r', (∀ u ∈ new, Settled r u) → f r q = .ok r' →
      ∀ u, Fate new active r r' u)
    (hsettled : ∀ u ∈ new, Settled t u) (hfate : ∀ u, Fate new active v t u)
    (h : us.foldlM f t = .ok t') :
    (∀ u ∈ new, Settled t' u) ∧ ∀ u, Fate new active v t' u := by
  refine (foldlM_ok_induction (fun rest t => (∀ u ∈ rest, u ∈ us) ∧ (∀ u ∈ new, Settled t u) ∧
    ∀ u, Fate new active v t u) ?_ us t t' ⟨fun _ hu => hu, hsettled, hfate⟩ h).2
  rintro q rest r r' ⟨hrest, hdone, hsofar⟩ hrun
  have hstep := hf q (hrest q List.mem_cons_self) r r' hdone hrun
  exact ⟨fun u hu => hrest u (List.mem_cons_of_mem q hu),
    fun u hu => (hstep u).settled (hdone u hu), fun u => (hsofar u).trans (hstep u)⟩

end Loops

/-- The fate of every subscription when those of a session are updated. -/
theorem fate_subscriptionsUpdate (hy : v.sessionStore s = some y)
    (h : mbsSessionSubscriptionsUpdate v s = .ok v') :
    ∀ u, Fate y.newSubscriptions (y.active.map Prod.snd) v v' u := by
  simp only [mbsSessionSubscriptionsUpdate, bind_eq_ok, World.sessionAt_eq_ok] at h
  obtain ⟨z, hz, v₁, h₁, v₂, h₂, h₃⟩ := h
  obtain rfl := Option.some.inj (hy.symm.trans hz)
  have hnew : ∀ u, Fate y.newSubscriptions (y.active.map Prod.snd) v v₁ u ∧
      (u ∈ y.newSubscriptions → Settled v₁ u) := fate_newLoop h₁
  obtain ⟨hsettled, hactive⟩ := fate_loop
    (fun q hq r r' hdone hrun => fate_updateStatusSubscription hq (hdone q) hrun)
    (fun u hu => (hnew u).2 hu) (fun u => (hnew u).1) h₂
  exact (fate_loop (fun q _ r r' _ hrun => fate_removePendingSubscription hrun) hsettled hactive h₃).2

theorem fate_sessionSend {new active : List Ref} (h : SessionSend s v v') :
    ∀ u, Fate new active v v' u := by
  intro u
  obtain ⟨x, hlog, -, hrequest⟩ := h.sent
  refine .same (fun _ hm => h.subscriptionStore ▸ hm) fun q => ?_
  have hneutral : Neutral (.sent x) := by
    intro r
    cases hx : x.request <;> rw [hx] at hrequest <;> first | rfl | exact hrequest.elim
  rw [hlog, carriersOf_cons hneutral]

theorem updates_of_unchanged (h : pushDecision v y = .ok .unchanged) : UpdatesSubscriptions v y := by
  unfold pushDecision at h
  split at h
  · cases h
  · rename_i hdeleted
    split at h
    · cases h
    · rename_i previous hprevious
      obtain ⟨equal, hequal, h⟩ := bind_eq_ok.1 h
      refine ⟨Bool.eq_false_iff.2 hdeleted, by rw [hprevious]; rfl, ?_⟩
      rintro ⟨previous', hprevious', hdiffers, -⟩
      rw [hprevious, Option.some.injEq] at hprevious'
      rw [← hprevious', hequal, Except.ok.injEq] at hdiffers
      rw [hdiffers, if_neg Bool.false_ne_true] at h
      split at h
      · cases h
      · obtain ⟨same, -, h⟩ := bind_eq_ok.1 h
        cases same <;> cases h

theorem updates_of_update (h : pushDecision v y = .ok .update) : UpdatesSubscriptions v y := by
  unfold pushDecision at h
  split at h
  · cases h
  · rename_i hdeleted
    split at h
    · cases h
    · rename_i previous hprevious
      obtain ⟨equal, hequal, h⟩ := bind_eq_ok.1 h
      refine ⟨Bool.eq_false_iff.2 hdeleted, by rw [hprevious]; rfl, ?_⟩
      rintro ⟨previous', hprevious', -, hcase⟩
      rw [hprevious, Option.some.injEq] at hprevious'
      subst hprevious'
      cases equal with
      | true => cases h
      | false =>
          rw [if_neg Bool.false_ne_true] at h
          split at h
          · cases h
          · rename_i hssm
            obtain ⟨same, hsame, h⟩ := bind_eq_ok.1 h
            rcases hcase with hssm' | htmgi
            · rw [hssm'] at hssm
              exact hssm rfl
            · rw [hsame, Except.ok.injEq] at htmgi
              rw [htmgi] at h
              cases h

/-- The fate of every subscription when a session is pushed. -/
theorem fate_push (h : mbsSessionPushChanges v s = .ok v') :
    ∃ y, v.sessionStore s = some y ∧ ((∀ u, Fate [] [] v v' u) ∨ UpdatesSubscriptions v y ∧
      ∀ u, Fate y.newSubscriptions (y.active.map Prod.snd) v v' u) := by
  obtain ⟨y, decision, hy, hdecision, hrun⟩ := mbsSessionPushChanges_eq_ok.1 h
  refine ⟨y, hy, ?_⟩
  cases decision with
  | remove => exact .inl (fate_sessionSend (sessionSend_remove hrun))
  | create => exact .inl (fate_sessionSend (sessionSend_create hrun))
  | recreate removeFirst =>
      simp only [PushDecision.carryOut, removeAndCreate, bind_eq_ok] at hrun
      obtain ⟨t, ht, hrun⟩ := hrun
      refine .inl fun u => ?_
      have hremove : Fate [] [] v t u := by
        split at ht
        · exact fate_sessionSend (sessionSend_remove ht) u
        · exact Except.ok.inj ht ▸ .refl v
      exact hremove.trans (fate_sessionSend (sessionSend_create hrun) u)
  | update =>
      simp only [PushDecision.carryOut, bind_eq_ok] at hrun
      obtain ⟨t, ht, hrun⟩ := hrun
      have hstore : t.sessionStore s = some y := by
        obtain ⟨z, o, patches, carried, hz, -, -, -, rfl⟩ := mbsSessionSendUpdate_eq_ok ht
        exact hy
      exact .inr ⟨updates_of_update hdecision, fun u =>
        (fate_sessionSend (sessionSend_update ht) u).trans (fate_subscriptionsUpdate hstore hrun u)⟩
  | unchanged => exact .inr ⟨updates_of_unchanged hdecision, fate_subscriptionsUpdate hy hrun⟩

/-! ## Operations that request nothing -/

/-- The subscription is listed nowhere where it was not. -/
def ListedBefore (u : Ref) (v v' : World) : Prop :=
  ∀ s y', v'.sessionStore s = some y' → u ∈ listed y' →
    ∃ y, v.sessionStore s = some y ∧ u ∈ listed y

namespace ListedBefore

theorem of_keeps (h : Keeps listed v v') : ListedBefore u v v' := by
  intro s y' hy' hu
  obtain ⟨y, hy, heq⟩ := h.back hy'
  exact ⟨y, hy, heq ▸ hu⟩

theorem of_eq (h : v'.sessionStore = v.sessionStore) : ListedBefore u v v' :=
  fun _ y' hy' hu => ⟨y', h ▸ hy', hu⟩

theorem trans (h : ListedBefore u v v') (h' : ListedBefore u v' v'') : ListedBefore u v v'' := by
  intro s y'' hy'' hu
  obtain ⟨y', hy', hu'⟩ := h' s y'' hy'' hu
  exact h s y' hy' hu'

theorem setSession {y' : MbsSession} (hy : v.sessionStore s = some y)
    (h : u ∈ listed y' → u ∈ listed y) : ListedBefore u v (v.setSession s y') := by
  intro q z hz hu
  change v.sessionStore.set s y' q = some z at hz
  rw [Store.set_apply] at hz
  split at hz
  · rename_i hq
    cases hz
    exact ⟨y, hq ▸ hy, h hu⟩
  · exact ⟨z, hz, hu⟩

end ListedBefore

/-- The subscription is requested by nobody, attached nowhere, and its flag only goes up. -/
structure Steady (u : Ref) (v v' : World) : Prop where
  listed : ListedBefore u v v'
  kept : ∀ s m', AttachedTo v' s u m' →
    ∃ m, AttachedTo v s u m ∧ (m'.changed = false → m.changed = false)
  carriers : ∀ s, carriersOf s u v'.log = carriersOf s u v.log

namespace Steady

theorem trans (h : Steady u v v') (h' : Steady u v' v'') : Steady u v v'' where
  listed := h.listed.trans h'.listed
  kept s m'' hm'' := by
    obtain ⟨m', hm', hflag'⟩ := h'.kept s m'' hm''
    obtain ⟨m, hm, hflag⟩ := h.kept s m' hm'
    exact ⟨m, hm, fun hc => hflag (hflag' hc)⟩
  carriers s := (h'.carriers s).trans (h.carriers s)

theorem carriedOnce (h : Steady u v v') (hv : CarriedOnce v u) : CarriedOnce v' u where
  atMostOnce s m' hm' := by
    obtain ⟨m, hm, -⟩ := h.kept s m' hm'
    rw [h.carriers s]
    exact hv.atMostOnce s m hm
  carried s m' y' hm' hy' hu hc := by
    obtain ⟨m, hm, hflag⟩ := h.kept s m' hm'
    obtain ⟨y, hy, hu⟩ := h.listed s y' hy' hu
    rw [h.carriers s]
    exact hv.carried s m y hm hy hu (hflag hc)

/-- Only the log grows, by neutral observations, and sessions keep their lists. -/
theorem of_stores {A : Observation → Prop} (hlists : ListedBefore u v v')
    (hstore : v'.subscriptionStore = v.subscriptionStore) (hlog : Extends A v v')
    (hA : ∀ o, A o → Neutral o) : Steady u v v' where
  listed := hlists
  kept _ m' hm' := ⟨m', ⟨hstore ▸ hm'.subscription, hm'.session⟩, fun hc => hc⟩
  carriers s := SameCarriers.of_extends hlog hA s u

/-- A subscription is written to. -/
theorem modifySubscription {f : StatusSubscription → StatusSubscription}
    (hsession : ∀ m, (f m).session = m.session)
    (hflag : ∀ m, (f m).changed = false → m.changed = false) :
    Steady u v (v.modifySubscription q f) where
  listed := .of_eq rfl
  kept s m' hm' := by
    obtain ⟨hm', hs⟩ := hm'
    change v.subscriptionStore.modify q f u = some m' at hm'
    rw [Store.modify_apply] at hm'
    split at hm'
    · obtain ⟨m, hm, rfl⟩ := Option.map_eq_some_iff.1 hm'
      exact ⟨m, ⟨hm, (hsession m).symm.trans hs⟩, hflag m⟩
    · exact ⟨m', ⟨hm', hs⟩, fun hc => hc⟩
  carriers _ := rfl

theorem free : Steady u v (mbsStatusSubscriptionFree v q) where
  listed := .of_eq rfl
  kept s m' hm' := by
    obtain ⟨hm', hs⟩ := hm'
    change v.subscriptionStore.free q u = some m' at hm'
    rw [Store.free_apply] at hm'
    split at hm'
    · cases hm'
    · exact ⟨m', ⟨hm', hs⟩, fun hc => hc⟩
  carriers _ := rfl

theorem of_lists (hlists : ListedBefore u v v')
    (hstore : v'.subscriptionStore = v.subscriptionStore) (hlog : v'.log = v.log) :
    Steady u v v' where
  listed := hlists
  kept _ m' hm' := ⟨m', ⟨hstore ▸ hm'.subscription, hm'.session⟩, fun hc => hc⟩
  carriers s := by rw [hlog]

theorem ogsListRemove {name : ListName} (h : ogsListRemove v s name q = .ok v') :
    Steady u v v' := by
  obtain ⟨y, hy, -, rfl⟩ := ogsListRemove_eq_ok h
  have hset : Steady u v (v.setSession s (setList y name ((listOf y name).erase q))) := by
    refine .of_lists (.setSession hy fun hu => ?_) rfl rfl
    cases name with
    | newSubscriptions =>
        rcases List.mem_append.1 hu with hu | hu
        · exact List.mem_append_left _ (List.mem_of_mem_erase hu)
        · exact List.mem_append_right _ hu
    | deletedSubscriptions => exact hu
  exact hset.trans (modifySubscription (fun _ => rfl) fun _ hc => hc)

theorem ogsListAdd {name : ListName} (hu : u ≠ q ∨ name = .deletedSubscriptions)
    (h : ogsListAdd v s name q = .ok v') : Steady u v v' := by
  obtain ⟨y, m, hy, -, -, rfl⟩ := ogsListAdd_eq_ok h
  have hset : Steady u v (v.setSession s (setList y name (listOf y name ++ [q]))) := by
    refine .of_lists (.setSession hy fun hin => ?_) rfl rfl
    cases name with
    | newSubscriptions =>
        have hne : u ≠ q := hu.resolve_right (by decide)
        rcases List.mem_append.1 hin with hin | hin
        · rcases List.mem_append.1 hin with hin | hin
          · exact List.mem_append_left _ hin
          · exact absurd (List.mem_singleton.1 hin) hne
        · exact List.mem_append_right _ hin
    | deletedSubscriptions => exact hin
  exact hset.trans (modifySubscription (fun _ => rfl) fun _ hc => hc)

end Steady

theorem mem_active_erase {table : KeyedTable.Table String Ref} {id : String}
    (h : u ∈ (table.erase id).map Prod.snd) : u ∈ table.map Prod.snd := by
  obtain ⟨entry, hentry, rfl⟩ := List.mem_map.1 h
  exact List.mem_map.2 ⟨entry, (List.mem_filter.1 hentry).1, rfl⟩

theorem steady_forgetId (h : forgetId v q = .ok v') : Steady u v v' := by
  obtain ⟨m, -, ⟨-, rfl⟩ | ⟨id, s, y, table, t, -, -, hy, htable, ht, rfl⟩⟩ := forgetId_eq_ok h
  · exact .of_lists (.of_eq rfl) rfl rfl
  · have hset : Steady u v
        (v.setSession s { y with activeSubscriptions := some (table.erase id) }) := by
      refine .of_lists (.setSession hy fun hu => ?_) rfl rfl
      rcases List.mem_append.1 hu with hu | hu
      · exact List.mem_append_left _ hu
      · refine List.mem_append_right _ ?_
        rw [MbsSession.active, htable]
        exact mem_active_erase hu
    have hsend := neutral_sendDelete ht
    exact (hset.trans (.of_stores (.of_eq hsend.sessionStore) hsend.subscriptionStore hsend.log
      fun _ ho => ho)).trans (.modifySubscription (fun _ => rfl) fun _ hc => hc)

/-- A subscription that is attached is yet to be carried, and the others are as they were. -/
theorem carriedOnce_addSubscription (hv : CarriedOnce v u)
    (h : mbsSessionAddSubscription v s q = .ok v') : CarriedOnce v' u := by
  obtain ⟨y, m, hy, -, ⟨-, rfl⟩ | ⟨-, t, t', ht, ht', rfl⟩⟩ := mbsSessionAddSubscription_eq_ok h
  · exact hv
  by_cases hu : u = q
  · subst hu
    have hcarriers : ∀ r, carriersOf r u ((t'.modifySubscription u
        fun n => { n with session := some s, changed := true }).say (.attached u s)).log = [] :=
      fun r => if_pos rfl
    refine ⟨fun r m _ => by rw [hcarriers r]; exact Nat.zero_le 1, fun r m z hm _ _ hc => ?_⟩
    obtain ⟨hm, -⟩ := hm
    change t'.subscriptionStore.modify u _ u = some m at hm
    rw [Store.modify_self] at hm
    obtain ⟨m, -, rfl⟩ := Option.map_eq_some_iff.1 hm
    cases hc
  · have hset : Steady u v (v.setSession s { y with activeSubscriptions := some y.active }) :=
      .of_lists (.setSession hy fun hin => hin) rfl rfl
    have hmoved : Steady u v t' :=
      (hset.trans (steady_forgetId ht)).trans (.ogsListAdd (.inl hu) ht')
    have hwrite : Steady u t' ((t'.modifySubscription q
        fun n => { n with session := some s, changed := true }).say (.attached q s)) := by
      refine ⟨.of_eq rfl, fun r m' hm' => ?_, fun r => if_neg (Ne.symm hu)⟩
      obtain ⟨hm', hr⟩ := hm'
      change t'.subscriptionStore.modify q _ u = some m' at hm'
      rw [Store.modify_of_ne _ _ _ hu] at hm'
      exact ⟨m', ⟨hm', hr⟩, fun hc => hc⟩
    exact (hmoved.trans hwrite).carriedOnce hv

theorem steady_removeSubscription (h : mbsSessionRemoveSubscription v s q = .ok v') :
    Steady u v v' := by
  obtain ⟨y, m, hy, -, ⟨-, rfl⟩ | ⟨-, -, hcase⟩⟩ := mbsSessionRemoveSubscription_eq_ok h
  · exact .of_lists (.of_eq rfl) rfl rfl
  · rcases hcase with ⟨id, t, -, ht, rfl⟩ | ⟨-, -, t, ht, rfl⟩ | ⟨-, -, rfl⟩
    · have hset : Steady u v (v.setSession s
          { y with activeSubscriptions := y.activeSubscriptions.map fun t => t.erase id }) := by
        refine .of_lists (.setSession hy fun hu => ?_) rfl rfl
        rcases List.mem_append.1 hu with hu | hu
        · exact List.mem_append_left _ hu
        · refine List.mem_append_right _ ?_
          rw [MbsSession.active] at hu ⊢
          cases htable : y.activeSubscriptions with
          | none =>
              rw [htable] at hu
              cases hu
          | some table =>
              rw [htable] at hu
              exact mem_active_erase hu
      exact (hset.trans (.ogsListAdd (.inr rfl) ht)).trans
        (.modifySubscription (fun _ => rfl) fun _ hc => by cases hc)
    · exact (Steady.ogsListRemove ht).trans .free
    · exact .of_lists (.of_eq rfl) rfl rfl

/-! ## Pushes in their places -/

/-- An update of the session requests what was not carried, and patches what was. -/
structure ReadyFor (v : World) (s : Ref) : Prop where
  requests : ∀ y u m, v.sessionStore s = some y → UpdatesSubscriptions v y →
    v.subscriptionStore u = some m → m.changed = true → u ∈ y.newSubscriptions →
    carriersOf s u v.log = []
  patches : ∀ y u m q, v.sessionStore s = some y → UpdatesSubscriptions v y → AttachedTo v q u m →
    m.changed = true → u ∈ y.active.map Prod.snd → u ∉ y.newSubscriptions →
    carriersOf q u v.log ≠ []

theorem CarriedOnce.of_push (hl : Linked v) (hready : ReadyFor v s) (hv : CarriedOnce v u)
    (h : mbsSessionPushChanges v s = .ok v') : CarriedOnce v' u := by
  obtain ⟨y, hy, hfate⟩ := fate_push h
  have hlists : ListedBefore u v v' :=
    .of_keeps ((pushEffect_mbsSessionPushChanges h).keeps.comp listed)
  have hsame : (∀ m', v'.subscriptionStore u = some m' → v.subscriptionStore u = some m') →
      (∀ r, carriersOf r u v'.log = carriersOf r u v.log) → CarriedOnce v' u := by
    intro hkept hcarriers
    have hsteady : Steady u v v' :=
      ⟨hlists, fun r m' hm' => ⟨m', ⟨hkept m' hm'.subscription, hm'.session⟩, fun hc => hc⟩,
        hcarriers⟩
    exact hsteady.carriedOnce hv
  have hpatched : ∀ m, v.subscriptionStore u = some m →
      (m.session = none ∨ ∀ r, m.session = some r → carriersOf r u v.log ≠ []) →
      (∀ m', v'.subscriptionStore u = some m' → m' = { m with changed := false }) →
      (∀ r, carriersOf r u v'.log = carriersOf r u v.log) → CarriedOnce v' u := by
    intro m hm hwhy hafter hcarriers
    refine ⟨fun r m' hm' => ?_, fun r m' z hm' _ _ _ => ?_⟩
    · obtain rfl := hafter m' hm'.subscription
      rw [hcarriers r]
      exact hv.atMostOnce r m ⟨hm, hm'.session⟩
    · obtain rfl := hafter m' hm'.subscription
      have hr : m.session = some r := hm'.session
      rw [hcarriers r]
      rcases hwhy with hnone | hwhy
      · rw [hnone] at hr
        cases hr
      · exact hwhy r hr
  rcases hfate with hquiet | ⟨hupdates, hfate⟩
  · cases hquiet u with
    | same kept carriers => exact hsame kept carriers
    | requested live changed hin => cases hin
    | patched live changed why after carriers =>
        refine hpatched _ live (.inl ?_) after carriers
        exact why.resolve_right fun hin => List.not_mem_nil hin.1
  · cases hfate u with
    | same kept carriers => exact hsame kept carriers
    | patched live changed why after carriers =>
        refine hpatched _ live ?_ after carriers
        exact why.imp_right fun hin r hr =>
          hready.patches y u _ r hy hupdates ⟨live, hr⟩ changed hin.1 hin.2
    | requested live changed hin after carriers =>
        rename_i m x
        have hnone := hready.requests y u m hy hupdates live changed hin
        obtain ⟨m', hm', hnode⟩ := hl.member s y .newSubscriptions u hy hin
        obtain rfl := Option.some.inj (live.symm.trans hm')
        obtain ⟨hs, -⟩ := hl.node u m ⟨s, .newSubscriptions⟩ live hnode
        have hone : ∀ r m', AttachedTo v' r u m' → carriersOf r u v'.log = [x] := by
          intro r m' hm'
          obtain rfl := after m' hm'.subscription
          have hr : m.session = some r := hm'.session
          obtain rfl : s = r := Option.some.inj (hs.symm.trans hr)
          rw [carriers s, hnone]
        refine ⟨fun r m' hm' => ?_, fun r m' z hm' _ _ _ => ?_⟩
        · rw [hone r m' hm']
          exact le_refl 1
        · rw [hone r m' hm']
          exact List.cons_ne_nil x []

/-- What a push leaves changed it did not touch. -/
theorem untouched_of_push {m : StatusSubscription} (h : mbsSessionPushChanges v s = .ok v')
    (hm : v'.subscriptionStore u = some m) (hchanged : m.changed = true) :
    v.subscriptionStore u = some m ∧ ∀ q, carriersOf q u v'.log = carriersOf q u v.log := by
  obtain ⟨y, -, hfate⟩ := fate_push h
  obtain ⟨new, active, hfate⟩ : ∃ new active, Fate new active v v' u :=
    hfate.elim (fun hf => ⟨_, _, hf u⟩) fun hf => ⟨_, _, hf.2 u⟩
  cases hfate with
  | same kept carriers => exact ⟨kept m hm, carriers⟩
  | requested live changed listed after =>
      rw [after m hm] at hchanged
      cases hchanged
  | patched live changed why after =>
      rw [after m hm] at hchanged
      cases hchanged

theorem untouched_before {before : List Ref} {m : StatusSubscription}
    (h : before.foldlM mbsSessionPushChanges w = .ok v) (hm : v.subscriptionStore u = some m)
    (hchanged : m.changed = true) :
    w.subscriptionStore u = some m ∧ ∀ q, carriersOf q u v.log = carriersOf q u w.log := by
  refine foldlM_ok_induction (fun _ t => t.subscriptionStore u = some m →
    w.subscriptionStore u = some m ∧ ∀ q, carriersOf q u t.log = carriersOf q u w.log) ?_ before w v
    (fun hw => ⟨hw, fun _ => rfl⟩) h hm
  intro q rest t t' ht hrun hm'
  obtain ⟨hm, hcarriers⟩ := untouched_of_push hrun hm' hchanged
  obtain ⟨hw, hbefore⟩ := ht hm
  exact ⟨hw, fun r => (hcarriers r).trans (hbefore r)⟩

/-! ## Every part of a step -/

theorem logAt_response (hsent : w.findSent n = some x) :
    logAt w (.network (.response n rsp)) = .answered x rsp :: w.log := by
  simp only [logAt, hsent]

/-- The lists that decide what an update sends. -/
def updatedLists (y : MbsSession) : List Ref × List Ref :=
  (y.newSubscriptions, y.active.map Prod.snd)

theorem readyFor_of_call (hw : Sound w) (hgood : SubscribesOnce w e) (call : PushCall w e v s) :
    ReadyFor v s := by
  cases call with
  | direct s =>
      exact ⟨fun y u m hy hup => hgood.requests s y u m (.direct hup) hy,
        fun y u m q hy hup => hgood.patches s y u m q (.direct hup) hy⟩
  | all split run =>
      rename_i before after
      have hnodup := hw.nodup
      rw [split] at hnodup
      have hnot : s ∉ before := fun hmem =>
        (List.nodup_append.1 hnodup).2.2 s hmem s List.mem_cons_self rfl
      have hin : s ∈ w.mbsSessions := by
        rw [split]
        exact List.mem_append_right _ List.mem_cons_self
      obtain ⟨hstore, htmgi, -⟩ := before_push (e := .session .pushAllChanges) hnot run
      have hall : ∀ y, UpdatesSubscriptions v y → MayUpdate w s y (.session .pushAllChanges) :=
        fun y hup => .all ⟨hup.1, hup.2.1, fun hr => hup.2.2 ((readdressed_congr htmgi).2 hr)⟩ hin
      refine ⟨fun y u m hy hup hm hchanged hu => ?_, fun y u m q hy hup hm hchanged hu hnew => ?_⟩
      · obtain ⟨hm, hcarriers⟩ := untouched_before run hm hchanged
        rw [hcarriers s]
        exact hgood.requests s y u m (hall y hup) (hstore ▸ hy) hm hchanged hu
      · obtain ⟨hsub, hcarriers⟩ := untouched_before run hm.subscription hchanged
        rw [hcarriers q]
        exact hgood.patches s y u m q (hall y hup) (hstore ▸ hy) ⟨hsub, hm.session⟩ hchanged hu hnew
  | created answers request status parse callback =>
      rename_i n rsp x t
      have hvalue := valueEffect_nmbsmfMbsSessionParse parse
      have hstores : v.sessionStore = t.sessionStore ∧ v.subscriptionStore = t.subscriptionStore ∧
          SameCarriers t v := by
        obtain ⟨z, -, ⟨-, rfl⟩ | ⟨cb, -, rfl⟩⟩ := mbsSessionDoCallback_eq_ok callback
        · exact ⟨rfl, rfl, .of_log rfl⟩
        · exact ⟨rfl, rfl, fun _ _ => rfl⟩
      obtain ⟨hsessions, hsubscriptions, hcallback⟩ := hstores
      have hsent := findSent_of_findXact hw.xacts answers.outstanding
      have hcarriers : ∀ q u, carriersOf q u v.log =
          carriersOf q u (logAt w (.network (.response n rsp))) := by
        intro q u
        rw [logAt_response hsent, hcallback q u]
        exact SameCarriers.of_extends hvalue.log (fun _ => neutral_of_tmgi) q u
      have hsub : ∀ u, v.subscriptionStore u = w.subscriptionStore u :=
        fun u => by rw [hsubscriptions, hvalue.subscriptionStore]; rfl
      have hlists : ∀ y, v.sessionStore s = some y →
          ∃ z, w.sessionStore s = some z ∧ updatedLists y = updatedLists z := by
        intro y hy
        rw [hsessions] at hy
        exact (hvalue.keeps.comp updatedLists).back hy
      refine ⟨fun y u m hy _ hm hchanged hu => ?_, fun y u m q hy _ hm hchanged hu hnew => ?_⟩
      · obtain ⟨z, hz, heq⟩ := hlists y hy
        rw [hcarriers s u]
        have hfst : y.newSubscriptions = z.newSubscriptions := congrArg Prod.fst heq
        exact hgood.requests s z u m (.created answers request status) hz (hsub u ▸ hm) hchanged
          (hfst ▸ hu)
      · obtain ⟨z, hz, heq⟩ := hlists y hy
        rw [hcarriers q u]
        have hfst : y.newSubscriptions = z.newSubscriptions := congrArg Prod.fst heq
        have hsnd : y.active.map Prod.snd = z.active.map Prod.snd := congrArg Prod.snd heq
        exact hgood.patches s z u m q (.created answers request status) hz
          ⟨hsub u ▸ hm.subscription, hm.session⟩ hchanged (hsnd ▸ hu) (hfst ▸ hnew)

/-- The answer that an event brings makes the create request that it accepts a carrier. -/
theorem CarriedOnce.of_answered (hgood : SubscribesOnce w (.network (.response n rsp)))
    (hsent : w.findSent n = some x) (hw : CarriedOnce w u) :
    CarriedOnce (w.say (.answered x rsp)) u := by
  have hcarriers : ∀ s, carriersOf s u (w.say (.answered x rsp)).log =
      if makesResource s x rsp then if embedded x.request = some u then [x] else []
      else carriersOf s u w.log := fun _ => rfl
  refine ⟨fun s m hm => ?_, fun s m y hm hy hu hc => ?_⟩
  · rw [hcarriers s]
    split
    · split
      · exact le_refl 1
      · exact Nat.zero_le 1
    · exact hw.atMostOnce s m ⟨hm.subscription, hm.session⟩
  · rw [hcarriers s]
    split
    · rename_i hmakes
      rw [if_pos (hgood.remade n rsp x s u m y rfl hsent hmakes ⟨hm.subscription, hm.session⟩ hy hu hc)]
      exact List.cons_ne_nil x []
    · exact hw.carried s m y ⟨hm.subscription, hm.session⟩ hy hu hc

theorem neutral_of_leaving {o : Observation} (h : LeavingObservation s o) : Neutral o := by
  cases o with
  | sessionLeft q => trivial
  | sent x => exact neutral_of_tmgi h
  | answered x rsp => exact h.elim
  | attached q r => exact h.elim
  | _ => trivial

theorem steady_newSession (ssm : Option SsmAddr) : Steady u w (mbsSessionNew w ssm) := by
  refine ⟨?_, fun s m' hm' => ⟨m', ⟨hm'.subscription, hm'.session⟩, fun hc => hc⟩, fun _ => rfl⟩
  intro s y' hy' hu
  change (w.sessionStore.set w.next _) s = some y' at hy'
  rw [Store.set_apply] at hy'
  split at hy'
  · cases hy'
    cases hu
  · exact ⟨y', hy', hu⟩

theorem steady_newSubscription {m : StatusSubscription} (hm : m.session = none) :
    Steady u w { w with
      subscriptionStore := w.subscriptionStore.set w.next m, next := w.next + 1 } := by
  refine ⟨.of_eq rfl, fun s m' hm' => ?_, fun _ => rfl⟩
  obtain ⟨hm', hs⟩ := hm'
  change (w.subscriptionStore.set w.next m) u = some m' at hm'
  rw [Store.set_apply] at hm'
  split at hm'
  · cases hm'
    rw [hm] at hs
    cases hs
  · exact ⟨m', ⟨hm', hs⟩, fun hc => hc⟩

theorem steady_set (setting : SubscriptionSetting) :
    Steady u w (w.modifySubscription q (mbsStatusSubscriptionSet setting)) := by
  refine .modifySubscription (fun m => ?_) fun m hc => ?_
  · exact congrArg Prod.fst (attachment_mbsStatusSubscriptionSet setting m)
  · unfold mbsStatusSubscriptionSet at hc
    split at hc
    · exact hc
    · cases hc

theorem steady_say {o : Observation} (ho : Neutral o) : Steady u v (v.say o) :=
  ⟨.of_eq rfl, fun _ m' hm' => ⟨m', ⟨hm'.subscription, hm'.session⟩, fun hc => hc⟩,
    fun _ => carriersOf_cons ho⟩

theorem steady_left (h : LeavingEffect s v v') : Steady u v v' := by
  obtain ⟨z, -, -, hrecord⟩ := h.record
  refine ⟨fun q y' hy' hu => ?_, fun q m' hm' => ?_,
    fun q => SameCarriers.of_extends h.log (fun _ => neutral_of_leaving) q u⟩
  · rw [h.sessionStore, Store.free_apply] at hy'
    split at hy'
    · cases hy'
    · exact ⟨y', hy', hu⟩
  · obtain ⟨hm', hq⟩ := hm'
    rw [hrecord u] at hm'
    split at hm'
    · cases hm'
    · exact ⟨m', ⟨hm', hq⟩, fun hc => hc⟩

theorem steady_value (h : ValueEffect s v v') : Steady u v v' :=
  .of_stores (.of_keeps (h.keeps.comp listed)) h.subscriptionStore h.log fun _ => neutral_of_tmgi

theorem CarriedOnce.of_part (hw : Sound w) (hgood : SubscribesOnce w e) (hparts : Parts w e w v)
    (hv : CarriedOnce v u) (h : Part w e v v') : CarriedOnce v' u := by
  cases h with
  | tmgi effect =>
      exact (Steady.of_stores (.of_eq effect.sessionStore) effect.subscriptionStore effect.log
        fun _ => neutral_of_tmgi).carriedOnce hv
  | newSession ssm => exact (steady_newSession ssm).carriedOnce hv
  | writeSession live view =>
      have hlists : listed _ = listed _ := congrArg listed view
      exact (Steady.of_lists (.setSession live fun hu => hlists ▸ hu) rfl rfl).carriedOnce hv
  | markDeleted live =>
      rename_i s y
      have hset : Steady u w (w.setSession s { y with deleted := true }) :=
        .of_lists (.setSession live fun hu => hu) rfl rfl
      exact (hset.trans (steady_say (o := .deleteCalled s) trivial)).carriedOnce hv
  | newSubscription unused => exact (steady_newSubscription unused.2.1).carriedOnce hv
  | setSubscription event => exact (steady_set _).carriedOnce hv
  | addSubscription event run => exact carriedOnce_addSubscription hv run
  | removeSubscription event run => exact (steady_removeSubscription run).carriedOnce hv
  | freeSubscription event live unattached => exact Steady.free.carriedOnce hv
  | push call run =>
      exact hv.of_push (hw.of_parts hparts).links (readyFor_of_call hw hgood call) run
  | answered event sent =>
      subst event
      exact hv.of_answered hgood sent
  | said event outstanding observation =>
      refine Steady.carriedOnce (steady_say ?_) hv
      rcases observation with ⟨q, t, rfl⟩ | rfl | ⟨q, cb, result, problem, rfl⟩ <;> trivial
  | parse event answers request status run =>
      exact (steady_value (valueEffect_nmbsmfMbsSessionParse run)).carriedOnce hv
  | left event answers request usable live callback run =>
      exact (steady_left (leavingEffect_contextRemoveMbsSession run)).carriedOnce hv

/-! ## What an accepted create request leaves -/

def activeRefs (y : MbsSession) : List Ref := y.active.map Prod.snd

theorem IsActive.of_keeps (h : IsActive v s u) (hk : Keeps activeRefs v v') : IsActive v' s u := by
  obtain ⟨y, hy, hu⟩ := h
  obtain ⟨y', hy', heq⟩ := hk.forth hy
  refine ⟨y', hy', ?_⟩
  change activeRefs y' = activeRefs y at heq
  change u ∈ activeRefs y'
  rw [heq]
  exact hu

/-- No part of the answer to a create request changes which subscriptions are active. -/
theorem IsActive.of_part (hw : Sound w) (hsent : w.findSent n = some x)
    (hcreate : x.request.isCreate = true) (hv : IsActive v s u)
    (h : Part w (.network (.response n rsp)) v v') : IsActive v' s u := by
  have hother : ∀ {n' rsp' x' r}, Event.network (.response n rsp) = .network (.response n' rsp') →
      Answers w n' rsp' x' r → x' = x := by
    intro n' rsp' x' r event answers
    cases event
    exact Option.some.inj ((findSent_of_findXact hw.xacts answers.outstanding).symm.trans hsent)
  cases h with
  | tmgi effect => exact hv.of_keeps (.of_eq effect.sessionStore)
  | newSession ssm =>
      obtain ⟨y, hy, hu⟩ := hv
      have hne : s ≠ w.next := by
        rintro rfl
        rw [hw.sessionStore_next] at hy
        cases hy
      exact ⟨y, (Store.set_of_ne _ _ _ hne).trans hy, hu⟩
  | writeSession live view =>
      rename_i r y y'
      have hview := congrArg activeRefs view
      change activeRefs y' = activeRefs y at hview
      exact hv.of_keeps (Keeps.setSession live hview)
  | markDeleted live =>
      rename_i r y
      have hset : Keeps activeRefs w (w.setSession r { y with deleted := true }) :=
        Keeps.setSession live rfl
      exact hv.of_keeps (hset.trans (Keeps.of_eq rfl))
  | newSubscription unused => exact hv.of_keeps (.of_eq rfl)
  | setSubscription event => cases event
  | addSubscription event run => cases event
  | removeSubscription event run => rcases event with event | event <;> cases event
  | freeSubscription event live unattached => cases event
  | push call run =>
      exact hv.of_keeps ((pushEffect_mbsSessionPushChanges run).keeps.comp activeRefs)
  | answered event sent => exact hv.of_keeps (.of_eq rfl)
  | said event outstanding observation => exact hv.of_keeps (.of_eq rfl)
  | parse event answers request status run =>
      exact hv.of_keeps ((valueEffect_nmbsmfMbsSessionParse run).keeps.comp activeRefs)
  | left event answers request usable live callback run =>
      obtain rfl := hother event answers
      rw [request] at hcreate
      cases hcreate

theorem active_of_accepted (hw : Sound w) (hgood : SubscribesOnce w e)
    (h : step w e = .ok w') (haccepts : AcceptsEmbedded w e s u) : IsActive w' s u := by
  have hactive := hgood.recorded s u haccepts
  obtain ⟨n, rsp, x, rfl, hsent, hmakes, -⟩ := haccepts
  have hcreate : x.request.isCreate = true := by
    rw [makesResource, Bool.and_eq_true, Bool.and_eq_true] at hmakes
    exact hmakes.1.1
  exact step_invariant (fun v => IsActive v s u) hw.xacts
    (fun _ _ _ hv hpart => hv.of_part hw hsent hcreate hpart) hactive h

/-! ## Runs -/

theorem carriedOnce_initial : CarriedOnce World.initial u where
  atMostOnce _ _ _ := Nat.zero_le 1
  carried s m y hm := by
    obtain ⟨hm, -⟩ := hm
    cases hm

theorem carriedOnce_of_run (h : Run SubscribesOnce w) (u : Ref) : CarriedOnce w u :=
  run_invariant (fun v => CarriedOnce v u) carriedOnce_initial
    (fun _ _ _ _ _ hw hgood hparts _ hv hpart => hv.of_part hw hgood hparts hpart) h

/-- When no update requests a subscription again and no create request carries one that is not
active, every subscription is carried once. -/
theorem subscriptions_carried_once (h : Run SubscribesOnce w) :
    SubscriptionsCarried SubscribesOnce w where
  once := carriedOnce_of_run h
  recorded _ _ _ _ hgood hstep haccepts := active_of_accepted (sound_of_run h) hgood hstep haccepts

/-- A session with a new subscription that the MB-SMF creates. -/
def embeddedRun : List Event :=
  [.session (.newIpv4 none none), .session (.edit 1 { tmgiReq := false }),
   .subscription (.new 0 1 none 0), .subscription (.add 1 2), .session (.pushChanges 1),
   .network (.response 4
     { status := 201, resStatus := 201, createLocation := .resource "a",
       createRspData := some (some {}) })]

def embeddedState : World := embeddedRun.foldl (advance step) World.initial

/-- The create request carried the subscription, and so does the request that follows it. -/
theorem embedded_subscription_requested_again :
    ¬∀ w, Reachable step World.initial w → SubscriptionsCarried (fun _ _ => True) w := by
  intro h
  have hsession : (embeddedState.subscriptionStore 2).map (·.session) = some (some 1) := by
    decide +kernel
  obtain ⟨m, hm, hs⟩ := Option.map_eq_some_iff.1 hsession
  have hone := ((h embeddedState (Reachable.of_events _)).once 2).atMostOnce 1 m ⟨hm, hs⟩
  have htwo : (carriersOf 1 2 embeddedState.log).length = 2 := by decide +kernel
  omega

/-- A subscription that is added to a session after the MB-SMF created it. -/
def subscribedRun : List Event :=
  [.session (.newIpv4 none none), .session (.edit 1 { tmgiReq := false }),
   .session (.pushChanges 1),
   .network (.response 3
     { status := 201, resStatus := 201, createLocation := .resource "a",
       createRspData := some (some {}) }),
   .subscription (.new 0 1 none 0), .subscription (.add 1 4), .session (.pushChanges 1)]

def subscribedState (k : ℕ) : World := (subscribedRun.take k).foldl (advance step) World.initial

theorem SubscribesOnce.of_call (hpush : ∀ s y, ¬MayUpdate w s y e)
    (hresponse : ∀ n rsp, e ≠ .network (.response n rsp)) : SubscribesOnce w e where
  requests s y _ _ hmay := absurd hmay (hpush s y)
  patches s y _ _ _ hmay := absurd hmay (hpush s y)
  recorded s u := by
    rintro ⟨n, rsp, x, event, -⟩
    exact absurd event (hresponse n rsp)
  remade n rsp _ _ _ _ _ event := absurd event (hresponse n rsp)

/-- A push of a session without active subscriptions, none of whose new ones was carried. -/
theorem SubscribesOnce.of_push (h : (w.sessionStore s).all (fun y => y.active.isEmpty &&
      y.newSubscriptions.all fun u => (carriersOf s u w.log).isEmpty) = true) :
    SubscribesOnce w (.session (.pushChanges s)) := by
  have hsession : ∀ y, w.sessionStore s = some y →
      y.active = [] ∧ ∀ u ∈ y.newSubscriptions, carriersOf s u w.log = [] := by
    intro y hy
    rw [hy, Option.all_some, Bool.and_eq_true] at h
    exact ⟨List.isEmpty_iff.1 h.1, fun u hu => List.isEmpty_iff.1 (List.all_eq_true.1 h.2 u hu)⟩
  refine ⟨?_, ?_, ?_, ?_⟩
  · intro q y u m hmay hy _ _ hu
    cases hmay
    exact (hsession y hy).2 u hu
  · intro q y u m r hmay hy _ _ hu
    cases hmay
    rw [(hsession y hy).1] at hu
    cases hu
  · rintro q u ⟨n, rsp, x, event, -⟩
    cases event
  · intro n rsp _ _ _ _ _ event
    cases event

/-- The answer to a create request that embeds nothing, when nothing is listed. -/
theorem SubscribesOnce.of_created (hlists : ∀ s y, w.sessionStore s = some y → listed y = [])
    (hsent : (w.findSent n).all (fun x => (embedded x.request).isNone) = true) :
    SubscribesOnce w (.network (.response n rsp)) where
  requests s y u m _ hy _ _ hu := by
    have hin : u ∈ listed y := List.mem_append_left _ hu
    rw [hlists s y hy] at hin
    cases hin
  patches s y u m q _ hy _ _ hu := by
    have hin : u ∈ listed y := List.mem_append_right _ hu
    rw [hlists s y hy] at hin
    cases hin
  recorded s u := by
    rintro ⟨n', rsp', x, event, hx, -, hembedded⟩
    cases event
    rw [hx, Option.all_some, hembedded] at hsent
    cases hsent
  remade _ _ _ s u m y _ _ _ _ hy hu := by
    rw [hlists s y hy] at hu
    cases hu

theorem subscribedState_unlisted (s : Ref) (y : MbsSession)
    (hy : (subscribedState 3).sessionStore s = some y) : listed y = [] := by
  have hsound : Sound (subscribedState 3) :=
    sound_of_run (Reachable.of_events (subscribedRun.take 3))
  have hs : s ∈ (subscribedState 3).mbsSessions := (hsound.live s).2 (by rw [hy]; rfl)
  have hone : (subscribedState 3).mbsSessions = [1] := by decide +kernel
  rw [hone, List.mem_singleton] at hs
  subst hs
  have hlists : ((subscribedState 3).sessionStore 1).map listed = some [] := by decide +kernel
  rw [hy, Option.map_some, Option.some.injEq] at hlists
  exact hlists

theorem subscribedRun_good : Run SubscribesOnce (subscribedState 7) := by
  refine Reach.of_goodFrom subscribedRun .init ⟨?_, ?_, ?_, ?_, ?_, ?_, ?_, trivial⟩
  · exact .of_call (fun s y h => by cases h) fun _ _ he => by cases he
  · exact .of_call (fun s y h => by cases h) fun _ _ he => by cases he
  · exact .of_push (by decide +kernel)
  · exact .of_created (w := subscribedState 3) subscribedState_unlisted (by decide +kernel)
  · exact .of_call (fun s y h => by cases h) fun _ _ he => by cases he
  · exact .of_call (fun s y h => by cases h) fun _ _ he => by cases he
  · exact .of_push (by decide +kernel)

/-- The subscription of that run is carried by its request alone. -/
theorem subscriptions_carried_once_subscribed :
    SubscriptionsCarried SubscribesOnce (subscribedState 7) ∧
      (carriersOf 1 4 (subscribedState 7).log).length = 1 :=
  ⟨subscriptions_carried_once subscribedRun_good, by decide +kernel⟩

end ServiceConsumers.SubscriptionRequests
