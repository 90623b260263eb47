import ServiceConsumers.OperationFaults
import ServiceConsumers.RunInvariants
import ServiceConsumers.UpdatableAttributes

set_option autoImplicit false

/-!
# The form of requests

Whether a request has a resource id, an operation and an SBI object is decided by what the
push finds in the session and its subscriptions; the push itself checks none of it.
-/

namespace ServiceConsumers.WellFormedRequests

open ObjectStore KeyedTable PublicSessions ConsumerState TmgiOperations SubscriptionOperations
  SessionOperations ResponseHandlers ProcessEvent TransitionRuns TransactionLog TmgiEffects
  SessionEffects PushEffects AnswerEffects EventEffects SubscriptionLinks StepDecomposition
  RunInvariants OperationFaults UpdatableAttributes

/-- A PATCH or DELETE names its resource, and a PATCH carries an operation. -/
def WellFormed : Request → Prop
  | .update id patches _ | .subscriptionUpdate _ id patches => id.isSome ∧ patches ≠ []
  | .remove id | .subscriptionDelete _ id => id.isSome
  | _ => True

def SentWellFormed : Observation → Prop
  | .sent x => WellFormed x.request
  | _ => True

/-! ## What a push needs -/

/-- Some attribute that a PATCH can carry differs from the cached copy. -/
def HasUpdates (x : MbsSession) : Prop :=
  ∃ previous, x.previousSession = some previous ∧ ¬SameUpdatable previous x.session

def BranchReady (x : MbsSession) : PushDecision → Prop
  | .remove | .recreate true => x.id.isSome ∧ x.sbiObject.isSome
  | .update => x.id.isSome ∧ x.sbiObject.isSome ∧ HasUpdates x
  | .create | .recreate false | .unchanged => True

/-- The session that the subscription is attached to satisfies `P`. -/
def OwnerHas (v : World) (n : StatusSubscription) (P : MbsSession → Prop) : Prop :=
  ∀ q y, n.session = some q → v.sessionStore q = some y → P y

structure SubscriptionsReady (v : World) (x : MbsSession) : Prop where
  new : ∀ u ∈ x.newSubscriptions, ∀ n, v.subscriptionStore u = some n → n.changed = true →
    OwnerHas v n fun y => y.sbiObject.isSome
  active : ∀ u ∈ x.active.map Prod.snd, ∀ n, v.subscriptionStore u = some n →
    n.changed = true → OwnerHas v n fun y => n.id.isSome ∧ y.sbiObject.isSome ∧ HasUpdates y
  deleted : ∀ u ∈ x.deletedSubscriptions, ∀ n, v.subscriptionStore u = some n →
    OwnerHas v n fun y => n.id.isSome ∧ y.sbiObject.isSome

structure PushReady (v : World) (s : Ref) : Prop where
  branch : ∀ x d, v.sessionStore s = some x → pushDecision v x = .ok d → BranchReady x d
  subscriptions : ∀ x d, v.sessionStore s = some x → pushDecision v x = .ok d →
    d = .update ∨ d = .unchanged → SubscriptionsReady v x

/-- Every push of the step finds what it needs, and a subscription with an id that is added
again is attached to a session that has an SBI object. -/
structure RequestsReady (w : World) (e : Event) : Prop where
  push : ∀ v s, PushCall w e v s → PushReady v s
  add : ∀ s u x n, e = .subscription (.add s u) → w.sessionStore s = some x →
    x.deleted = false → w.subscriptionStore u = some n → n.id.isSome →
    OwnerHas w n fun y => y.sbiObject.isSome

/-! ## Sending -/

/-- Any fault but the assertion of the SBI object. -/
def ObjectGiven (f : Fault) : Prop := f ≠ .nullSbiObject

theorem ObjectGiven.of_local {f : Fault} (h : LocalFault f) : ObjectGiven f := by
  rintro rfl
  exact h

variable {w w' v v' t : World} {e : Event} {s u : Ref}

theorem outcome_of_local {α β : Type} {x : Except Fault α} {f : α → Except Fault β}
    {Q : β → Prop} (hx : Local x) (hf : ∀ a, x = .ok a → Outcome ObjectGiven Q (f a)) :
    Outcome ObjectGiven Q (x >>= f) :=
  Outcome.bind_ok (hx.mono (fun _ _ => trivial) fun _ => ObjectGiven.of_local) hf

theorem outcome_sbiXactAdd {sbi : Option Ref} {requester : Requester}
    {build : Except Fault Request} (hsbi : sbi.isSome) (hlocal : Local build)
    (hform : ∀ r, build = .ok r → WellFormed r) :
    Outcome ObjectGiven (SendEffect SentWellFormed w) (w.sbiXactAdd sbi requester build) := by
  obtain ⟨o, rfl⟩ := Option.isSome_iff_exists.1 hsbi
  refine outcome_of_local hlocal fun r hr => ?_
  exact ⟨rfl, rfl, rfl, rfl, rfl, extends_sent (A := SentWellFormed) (hform r hr) rfl⟩

theorem patches_ne_nil {x : MbsSession} {patches : List JsonDocuments.PatchItem}
    (h : HasUpdates x) (hp : mbsSessionPatchList x = .ok patches) : patches ≠ [] := by
  obtain ⟨previous, hprevious, hdiffers⟩ := h
  rintro rfl
  refine hdiffers (publicPatchList_eq_nil.1 ?_)
  simp only [mbsSessionPatchList, hprevious] at hp
  split at hp
  · cases hp
  · rename_i patches hpatches
    rw [Except.ok.injEq] at hp
    rw [hpatches, hp]

theorem outcome_send {build : World → MbsSession → StatusSubscription → Except Fault Request}
    (hready : ∀ n q y, t.subscriptionStore u = some n → n.session = some q →
      t.sessionStore q = some y → y.sbiObject.isSome ∧ Local (build t y n) ∧
        ∀ r, build t y n = .ok r → WellFormed r) :
    Outcome ObjectGiven (SendEffect SentWellFormed t) (mbsStatusSubscriptionSend build t u) := by
  refine outcome_of_local (reads_subscriptionAt t u).local fun n hn => ?_
  rw [World.subscriptionAt_eq_ok] at hn
  split
  · exact SendEffect.refl t
  · rename_i q hq
    refine outcome_of_local (reads_sessionAt t q).local fun y hy => ?_
    obtain ⟨hsbi, hlocal, hform⟩ := hready n q y hn hq (World.sessionAt_eq_ok.1 hy)
    exact outcome_sbiXactAdd hsbi hlocal hform

/-! ## Pushing subscriptions -/

/-- What sending reads of a session. -/
def sendingView (x : MbsSession) :
    Option String × Option Ref × PublicSession Ref × Option (PublicSession Ref) :=
  (x.id, x.sbiObject, x.session, x.previousSession)

/-- Sending reads the same sessions as before, and no flag was raised. -/
structure Quieter (v t : World) : Prop where
  sessions : Keeps sendingView v t
  subscriptions : ∀ u n', t.subscriptionStore u = some n' →
    ∃ n, v.subscriptionStore u = some n ∧ n'.id = n.id ∧ n'.session = n.session ∧
      (n'.changed = true → n.changed = true)

namespace Quieter

theorem refl (v : World) : Quieter v v :=
  ⟨Keeps.refl v, fun _ n hn => ⟨n, hn, rfl, rfl, id⟩⟩

theorem trans {v' : World} (h₁ : Quieter v v') (h₂ : Quieter v' t) : Quieter v t := by
  refine ⟨h₁.sessions.trans h₂.sessions, ?_⟩
  intro u n₂ hn₂
  obtain ⟨n₁, hn₁, hid₁, hs₁, hc₁⟩ := h₂.subscriptions u n₂ hn₂
  obtain ⟨n, hn, hid, hs, hc⟩ := h₁.subscriptions u n₁ hn₁
  exact ⟨n, hn, hid₁.trans hid, hs₁.trans hs, fun h => hc (hc₁ h)⟩

theorem of_send {A : Observation → Prop} (h : SendEffect A v t) : Quieter v t :=
  ⟨Keeps.of_eq h.sessionStore, fun u n hn =>
    ⟨n, by rw [← h.subscriptionStore]; exact hn, rfl, rfl, id⟩⟩

theorem of_modifySubscription {f : StatusSubscription → StatusSubscription}
    (hf : ∀ n, (f n).id = n.id ∧ (f n).session = n.session ∧
      ((f n).changed = true → n.changed = true)) : Quieter v (v.modifySubscription u f) := by
  refine ⟨Keeps.refl v, ?_⟩
  intro q n' hn'
  simp only [World.modifySubscription, Store.modify_apply] at hn'
  split at hn'
  · obtain ⟨n, hn, rfl⟩ := Option.map_eq_some_iff.1 hn'
    exact ⟨n, hn, hf n⟩
  · exact ⟨n', hn', rfl, rfl, id⟩

theorem of_free : Quieter v (mbsStatusSubscriptionFree v u) := by
  refine ⟨Keeps.refl v, ?_⟩
  intro q n hn
  simp only [mbsStatusSubscriptionFree, Store.free_apply] at hn
  split at hn
  · cases hn
  · exact ⟨n, hn, rfl, rfl, id⟩

theorem of_ogsListRemove {name : ListName} (h : ogsListRemove v s name u = .ok t) :
    Quieter v t := by
  obtain ⟨x, hx, -, rfl⟩ := ogsListRemove_eq_ok h
  have hset : Quieter v (v.setSession s (setList x name ((listOf x name).erase u))) :=
    ⟨Keeps.setSession hx (by cases name <;> rfl), fun _ n hn => ⟨n, hn, rfl, rfl, id⟩⟩
  exact hset.trans (of_modifySubscription fun n => ⟨rfl, rfl, id⟩)

/-- What holds of the owner of a subscription held of it before. -/
theorem owner (h : Quieter v t) {P : MbsSession → Prop}
    (hP : ∀ x x', sendingView x' = sendingView x → P x → P x') {n n' : StatusSubscription}
    (hs : n'.session = n.session) (ho : OwnerHas v n P) : OwnerHas t n' P := by
  intro q y' hq hy'
  obtain ⟨y, hy, hview⟩ := h.sessions.back hy'
  exact hP y y' hview (ho q y (hs.symm.trans hq) hy)

end Quieter

/-- A part of a push: its requests are well formed, and sending reads the same after it. -/
structure QuietSend (v t : World) : Prop where
  quieter : Quieter v t
  log : Extends SentWellFormed v t

theorem QuietSend.trans {v' : World} (h₁ : QuietSend v v') (h₂ : QuietSend v' t) :
    QuietSend v t :=
  ⟨h₁.quieter.trans h₂.quieter, h₁.log.trans h₂.log⟩

theorem QuietSend.of_send (h : SendEffect SentWellFormed v t) : QuietSend v t :=
  ⟨Quieter.of_send h, h.log⟩

theorem sbiObject_of_view {x x' : MbsSession} (h : sendingView x' = sendingView x) :
    x'.sbiObject = x.sbiObject := congrArg (fun p => p.2.1) h

theorem hasUpdates_of_view {x x' : MbsSession} (h : sendingView x' = sendingView x)
    (hx : HasUpdates x) : HasUpdates x' := by
  have hsession : x'.session = x.session := congrArg (fun p => p.2.2.1) h
  have hprevious : x'.previousSession = x.previousSession := congrArg (fun p => p.2.2.2) h
  unfold HasUpdates
  rw [hsession, hprevious]
  exact hx

theorem outcome_updateNewSubscription (hq : Quieter v t)
    (hready : ∀ n, v.subscriptionStore u = some n → n.changed = true →
      OwnerHas v n fun y => y.sbiObject.isSome) :
    Outcome ObjectGiven (QuietSend t) (updateNewSubscription t u) := by
  refine outcome_of_local (reads_subscriptionAt t u).local fun n' hn' => ?_
  rw [World.subscriptionAt_eq_ok] at hn'
  obtain ⟨n, hn, -, hs, hchanged⟩ := hq.subscriptions u n' hn'
  have hsend : Outcome ObjectGiven (SendEffect SentWellFormed t)
      (if n'.changed then mbsStatusSubscriptionSendCreate t u else .ok t) := by
    split
    · rename_i hc
      refine outcome_send fun m q y hm hmq hy => ?_
      rw [hn', Option.some.injEq] at hm
      subst hm
      have howner : OwnerHas t n' fun y => y.sbiObject.isSome :=
        hq.owner (fun x x' hview hx => by rwa [sbiObject_of_view hview]) hs
          (hready n hn (hchanged hc))
      refine ⟨howner q y hmq hy, (reads_tmgiContent t _).local.bind fun _ => trivial, ?_⟩
      intro r hr
      rw [buildStatusSubscriptionCreate_eq_ok hr]
      trivial
    · exact SendEffect.refl t
  refine hsend.bind fun t' ht' => ?_
  exact (QuietSend.of_send ht').trans
    ⟨Quieter.of_modifySubscription fun n => ⟨rfl, rfl, fun h => by cases h⟩,
      Extends.of_silent rfl (List.Sublist.refl _) (le_refl _)⟩

theorem outcome_updateStatusSubscription (hq : Quieter v t)
    (hready : ∀ n, v.subscriptionStore u = some n → n.changed = true →
      OwnerHas v n fun y => n.id.isSome ∧ y.sbiObject.isSome ∧ HasUpdates y) :
    Outcome ObjectGiven (QuietSend t) (updateStatusSubscription t u) := by
  refine outcome_of_local (reads_subscriptionAt t u).local fun n' hn' => ?_
  rw [World.subscriptionAt_eq_ok] at hn'
  obtain ⟨n, hn, hid, hs, hchanged⟩ := hq.subscriptions u n' hn'
  split
  · rename_i hc
    have hsend : Outcome ObjectGiven (SendEffect SentWellFormed t)
        (mbsStatusSubscriptionSendUpdate t u) := by
      refine outcome_send fun m q y hm hmq hy => ?_
      rw [hn', Option.some.injEq] at hm
      subst hm
      have howner : OwnerHas t n' fun y => n.id.isSome ∧ y.sbiObject.isSome ∧ HasUpdates y :=
        hq.owner (fun x x' hview hx => ⟨hx.1, by rw [sbiObject_of_view hview]; exact hx.2.1,
          hasUpdates_of_view hview hx.2.2⟩) hs (hready n hn (hchanged hc))
      obtain ⟨hidSome, hsbi, hupdates⟩ := howner q y hmq hy
      refine ⟨hsbi, (reads_mbsSessionPatchList y).local.bind fun _ => trivial, ?_⟩
      intro r hr
      obtain ⟨patches, hp, rfl⟩ := buildStatusSubscriptionUpdate_eq_ok hr
      exact ⟨hid.symm ▸ hidSome, patches_ne_nil hupdates hp⟩
    refine hsend.bind fun t' ht' => ?_
    exact (QuietSend.of_send ht').trans
      ⟨Quieter.of_modifySubscription fun n => ⟨rfl, rfl, fun h => by cases h⟩,
        Extends.of_silent rfl (List.Sublist.refl _) (le_refl _)⟩
  · exact QuietSend.of_send (SendEffect.refl t)

theorem outcome_removePendingSubscription (hq : Quieter v t)
    (hready : ∀ n, v.subscriptionStore u = some n →
      OwnerHas v n fun y => n.id.isSome ∧ y.sbiObject.isSome) :
    Outcome ObjectGiven (QuietSend t) (removePendingSubscription s t u) := by
  have hsend : Outcome ObjectGiven (SendEffect SentWellFormed t)
      (mbsStatusSubscriptionSendDelete t u) := by
    refine outcome_send fun n' q y hn' hmq hy => ?_
    obtain ⟨n, hn, hid, hs, -⟩ := hq.subscriptions u n' hn'
    have howner : OwnerHas t n' fun y => n.id.isSome ∧ y.sbiObject.isSome :=
      hq.owner (fun x x' hview hx => ⟨hx.1, by rw [sbiObject_of_view hview]; exact hx.2⟩) hs
        (hready n hn)
    obtain ⟨hidSome, hsbi⟩ := howner q y hmq hy
    refine ⟨hsbi, trivial, ?_⟩
    intro r hr
    simp only [buildStatusSubscriptionDelete, Except.ok.injEq] at hr
    rw [← hr]
    exact hid.symm ▸ hidSome
  refine hsend.bind fun t' ht' => ?_
  refine outcome_of_local (local_ogsListRemove t' s _ u) fun t'' ht'' => ?_
  have hremoved : QuietSend t' t'' := ⟨Quieter.of_ogsListRemove ht'', extends_ogsListRemove ht''⟩
  exact ((QuietSend.of_send ht').trans hremoved).trans
    ⟨Quieter.of_free, Extends.of_silent rfl (List.Sublist.refl _) (le_refl _)⟩

/-- A loop over subscriptions that are ready at its start. -/
theorem outcome_loop {f : World → Ref → Except Fault World} (us : List Ref)
    (hf : ∀ u ∈ us, ∀ t, Quieter v t → Outcome ObjectGiven (QuietSend t) (f t u))
    (ht : QuietSend v t) : Outcome ObjectGiven (QuietSend v) (us.foldlM f t) := by
  have hloop := Outcome.foldlM (F := ObjectGiven) (f := f)
    (fun rest t => (∀ u ∈ rest, u ∈ us) ∧ QuietSend v t)
    (fun u rest t ⟨hrest, ht⟩ => by
      refine (hf u (hrest u List.mem_cons_self) t ht.quieter).mono (fun t' ht' => ?_) fun _ => id
      exact ⟨fun q hq => hrest q (List.mem_cons_of_mem u hq), ht.trans ht'⟩)
    us t ⟨fun _ => id, ht⟩
  exact hloop.mono (fun _ h => h.2) fun _ => id

theorem outcome_mbsSessionSubscriptionsUpdate (hq : Quieter v t) {x : MbsSession}
    (hx : t.sessionStore s = some x) (hready : SubscriptionsReady v x) :
    Outcome ObjectGiven (QuietSend t) (mbsSessionSubscriptionsUpdate t s) := by
  refine outcome_of_local (reads_sessionAt t s).local fun y hy => ?_
  rw [World.sessionAt_eq_ok, hx, Option.some.injEq] at hy
  subst hy
  have hstart : QuietSend t t := QuietSend.of_send (SendEffect.refl t)
  refine (outcome_loop x.newSubscriptions (fun u hu t' ht' =>
    outcome_updateNewSubscription (hq.trans ht') (hready.new u hu)) hstart).bind fun t₁ h₁ => ?_
  refine (outcome_loop (x.active.map Prod.snd) (fun u hu t' ht' =>
    outcome_updateStatusSubscription (hq.trans ht') (hready.active u hu)) h₁).bind fun t₂ h₂ => ?_
  exact outcome_loop x.deletedSubscriptions (fun u hu t' ht' =>
    outcome_removePendingSubscription (hq.trans ht') (hready.deleted u hu)) h₂

/-! ## Pushing a session -/

theorem outcome_mbsSessionSendRemove {x : MbsSession} (hx : t.sessionStore s = some x)
    (hid : x.id.isSome) (hsbi : x.sbiObject.isSome) :
    Outcome ObjectGiven (SendEffect SentWellFormed t) (mbsSessionSendRemove t s) := by
  refine outcome_of_local (reads_sessionAt t s).local fun y hy => ?_
  rw [World.sessionAt_eq_ok, hx, Option.some.injEq] at hy
  subst hy
  have hlocal : Local (buildRemove x) := trivial
  refine outcome_sbiXactAdd hsbi hlocal fun r hr => ?_
  rw [buildRemove, Except.ok.injEq] at hr
  rw [← hr]
  exact hid

theorem outcome_mbsSessionSendUpdate {x : MbsSession} (hx : t.sessionStore s = some x)
    (hid : x.id.isSome) (hsbi : x.sbiObject.isSome) (hupdates : HasUpdates x) :
    Outcome ObjectGiven (SendEffect SentWellFormed t) (mbsSessionSendUpdate t s) := by
  refine outcome_of_local (reads_sessionAt t s).local fun y hy => ?_
  rw [World.sessionAt_eq_ok, hx, Option.some.injEq] at hy
  subst hy
  refine outcome_sbiXactAdd hsbi (reads_buildUpdate t x).local fun r hr => ?_
  simp only [buildUpdate, bind_eq_ok, Except.ok.injEq] at hr
  obtain ⟨carried, -, patches, hp, rfl⟩ := hr
  exact ⟨hid, patches_ne_nil hupdates hp⟩

/-- A create request has an SBI object in any case. -/
theorem outcome_mbsSessionSendCreate :
    Outcome ObjectGiven (Extends SentWellFormed t) (mbsSessionSendCreate t s) := by
  refine Outcome.of_cases (fun t' ht' => ?_) fun f hf => ?_
  · exact (pushEffect_mbsSessionSendCreate (A := SentWellFormed)
      (fun _ _ _ _ => trivial) ht').log
  · refine Outcome.error (F := ObjectGiven) (Q := fun _ => True) ?_ hf
    refine outcome_of_local (reads_sessionAt t s).local fun x _ => ?_
    have hobject : ∀ w y, (ensureSbiObject w s y).2.sbiObject.isSome := by
      intro w y
      unfold ensureSbiObject
      split
      · rename_i o ho
        rw [ho]
        rfl
      · rfl
    refine (outcome_sbiXactAdd (hobject t x) (reads_buildCreate _ _).local fun r hr => ?_).mono
      (fun _ _ => trivial) fun _ => id
    obtain ⟨carried, embedded, rfl, -⟩ := buildCreate_eq_ok hr
    trivial

theorem outcome_mbsSessionPushChanges (h : PushReady t s) :
    Outcome ObjectGiven (Extends SentWellFormed t) (mbsSessionPushChanges t s) := by
  rw [mbsSessionPushChanges_eq]
  refine outcome_of_local (reads_sessionAt t s).local fun x hx => ?_
  refine outcome_of_local (reads_pushDecision t x).local fun d hd => ?_
  rw [World.sessionAt_eq_ok] at hx
  have hbranch := h.branch x d hx hd
  have hsubscriptions := h.subscriptions x d hx hd
  cases d with
  | remove =>
      exact (outcome_mbsSessionSendRemove hx hbranch.1 hbranch.2).mono (fun _ h => h.log)
        fun _ => id
  | create => exact outcome_mbsSessionSendCreate
  | recreate removeFirst =>
      have hremove : Outcome ObjectGiven (Extends SentWellFormed t)
          (if removeFirst then mbsSessionSendRemove t s else .ok t) := by
        split
        · rename_i hfirst
          subst hfirst
          exact (outcome_mbsSessionSendRemove hx hbranch.1 hbranch.2).mono (fun _ h => h.log)
            fun _ => id
        · exact Extends.refl t
      refine hremove.bind fun t' ht' => ?_
      exact outcome_mbsSessionSendCreate.mono (fun _ h => ht'.trans h) fun _ => id
  | update =>
      refine (outcome_mbsSessionSendUpdate hx hbranch.1 hbranch.2.1 hbranch.2.2).bind
        fun t' ht' => ?_
      have hx' : t'.sessionStore s = some x := by rw [ht'.sessionStore, hx]
      exact (outcome_mbsSessionSubscriptionsUpdate (Quieter.of_send ht') hx'
        (hsubscriptions (.inl rfl))).mono (fun _ h => ht'.log.trans h.log) fun _ => id
  | unchanged =>
      exact (outcome_mbsSessionSubscriptionsUpdate (Quieter.refl t) hx
        (hsubscriptions (.inr rfl))).mono (fun _ h => h.log) fun _ => id

/-! ## The steps -/

theorem outcome_mbsSessionPushAllChanges
    (h : ∀ v s, PushCall w (.session .pushAllChanges) v s → PushReady v s) :
    Outcome ObjectGiven (Extends SentWellFormed w) (mbsSessionPushAllChanges w) := by
  have hloop := Outcome.foldlM (F := ObjectGiven) (f := mbsSessionPushChanges)
    (fun after v => (∃ before, w.mbsSessions = before ++ after ∧
      before.foldlM mbsSessionPushChanges w = .ok v) ∧ Extends SentWellFormed w v)
    (fun s after v hv => by
      obtain ⟨⟨before, hsplit, hrun⟩, hlog⟩ := hv
      have hpush := outcome_mbsSessionPushChanges (h v s (.all hsplit hrun))
      refine Outcome.of_cases (fun v' hv' => ⟨⟨before ++ [s], ?_, ?_⟩, ?_⟩) fun f => hpush.error
      · rw [hsplit, List.append_assoc]
        rfl
      · exact foldlM_append_singleton hrun hv'
      · exact hlog.trans (hpush.ok hv'))
    w.mbsSessions w ⟨⟨[], List.nil_append _, rfl⟩, Extends.refl w⟩
  exact hloop.mono (fun _ h => h.2) fun _ => id

theorem outcome_forgetId (h : ∀ n, t.subscriptionStore u = some n → n.id.isSome →
      OwnerHas t n fun y => y.sbiObject.isSome) :
    Outcome ObjectGiven (Extends SentWellFormed t) (forgetId t u) := by
  refine outcome_of_local (reads_subscriptionAt t u).local fun n hn => ?_
  rw [World.subscriptionAt_eq_ok] at hn
  split
  · exact Extends.refl t
  · rename_i id hid
    split
    · exact (by decide : Fault.nullSession ≠ Fault.nullSbiObject)
    · rename_i q hq
      refine outcome_of_local (reads_sessionAt t q).local fun y hy => ?_
      rw [World.sessionAt_eq_ok] at hy
      split
      · exact (by decide : Fault.notAHashTable ≠ Fault.nullSbiObject)
      · rename_i table _
        have hset : Quieter t (t.setSession q
            { y with activeSubscriptions := some (table.erase id) }) :=
          ⟨Keeps.setSession hy rfl, fun _ m hm => ⟨m, hm, rfl, rfl, fun hc => hc⟩⟩
        have howner := hset.owner (fun x x' hview hx => by rwa [sbiObject_of_view hview]) rfl
          (h n hn (by rw [hid]; rfl))
        have hsend : Outcome ObjectGiven (SendEffect SentWellFormed (t.setSession q
            { y with activeSubscriptions := some (table.erase id) }))
            (mbsStatusSubscriptionSendDelete (t.setSession q
              { y with activeSubscriptions := some (table.erase id) }) u) := by
          refine outcome_send fun m p z hm hp hz => ?_
          have hmn : m = n := Option.some.inj (hm.symm.trans hn)
          subst hmn
          refine ⟨howner p z hp hz, trivial, ?_⟩
          intro r hr
          simp only [buildStatusSubscriptionDelete, Except.ok.injEq] at hr
          rw [← hr]
          exact Option.isSome_iff_exists.2 ⟨id, hid⟩
        refine hsend.bind fun t' ht' => ?_
        have hfirst : Extends SentWellFormed t (t.setSession q
            { y with activeSubscriptions := some (table.erase id) }) :=
          .of_silent rfl (List.Sublist.refl _) (le_refl _)
        exact (hfirst.trans ht'.log).trans (.of_silent rfl (List.Sublist.refl _) (le_refl _))

theorem outcome_mbsSessionAddSubscription (h : RequestsReady w (.subscription (.add s u))) :
    Outcome ObjectGiven (Extends SentWellFormed w) (mbsSessionAddSubscription w s u) := by
  refine outcome_of_local (reads_sessionAt w s).local fun x hx => ?_
  refine outcome_of_local (reads_subscriptionAt w u).local fun n hn => ?_
  rw [World.sessionAt_eq_ok] at hx
  split
  · exact Extends.refl w
  · rename_i hd
    have htable : Quieter w (w.setSession s { x with activeSubscriptions := some x.active }) :=
      ⟨Keeps.setSession hx rfl, fun _ m hm => ⟨m, hm, rfl, rfl, fun hc => hc⟩⟩
    refine (outcome_forgetId fun m hm hid => ?_).bind fun v hv => ?_
    · exact htable.owner (fun x x' hview hx => by rwa [sbiObject_of_view hview]) rfl
        (h.add s u x m rfl hx (by simpa using hd) hm hid)
    · refine outcome_of_local (local_ogsListAdd v s _ u) fun v' hv' => ?_
      have hfirst : Extends SentWellFormed w
          (w.setSession s { x with activeSubscriptions := some x.active }) :=
        .of_silent rfl (List.Sublist.refl _) (le_refl _)
      have hadd : Extends SentWellFormed v v' := extends_ogsListAdd hv'
      have hwrite : Extends SentWellFormed v' (v'.modifySubscription u
          fun n => { n with session := some s, changed := true }) :=
        .of_silent rfl (List.Sublist.refl _) (le_refl _)
      exact ((hfirst.trans hv).trans (hadd.trans hwrite)).trans
        (Extends.say (A := SentWellFormed) trivial rfl)

theorem SentWellFormed.of_tmgi {o : Observation} (h : TmgiObservation o) : SentWellFormed o := by
  cases o with
  | sent x =>
      obtain ⟨n, o, requester, request⟩ := x
      cases request <;> trivial
  | _ => trivial

/-- Every part of a step sends well formed requests. -/
theorem Part.sentWellFormed (hgood : RequestsReady w e) (h : Part w e v v') :
    Extends SentWellFormed v v' := by
  cases h with
  | tmgi effect => exact effect.log.mono fun _ => SentWellFormed.of_tmgi
  | newSession ssm => exact .of_silent rfl (List.Sublist.refl _) (Nat.le_succ _)
  | writeSession live view => exact .of_silent rfl (List.Sublist.refl _) (le_refl _)
  | markDeleted live =>
      rename_i s x
      have hset : Extends SentWellFormed w (w.setSession s { x with deleted := true }) :=
        .of_silent rfl (List.Sublist.refl _) (le_refl _)
      exact hset.trans (Extends.say (A := SentWellFormed) trivial rfl)
  | newSubscription unused => exact .of_silent rfl (List.Sublist.refl _) (Nat.le_succ _)
  | setSubscription event => exact .of_silent rfl (List.Sublist.refl _) (le_refl _)
  | addSubscription event run =>
      subst event
      exact (outcome_mbsSessionAddSubscription hgood).ok run
  | removeSubscription event run => exact extends_mbsSessionRemoveSubscription run
  | freeSubscription event live unattached =>
      exact .of_silent rfl (List.Sublist.refl _) (le_refl _)
  | push call run => exact (outcome_mbsSessionPushChanges (hgood.push _ _ call)).ok run
  | answered event sent => exact Extends.say (A := SentWellFormed) trivial rfl
  | said event outstanding observation =>
      rcases observation with ⟨s, t, rfl⟩ | rfl | ⟨s, cb, result, problem, rfl⟩ <;>
        exact Extends.say (A := SentWellFormed) trivial rfl
  | parse event answers request status run =>
      exact (valueEffect_nmbsmfMbsSessionParse run).log.mono fun _ => SentWellFormed.of_tmgi
  | left event answers request usable live callback run =>
      refine (leavingEffect_contextRemoveMbsSession run).log.mono fun o ho => ?_
      cases o with
      | sent x => exact SentWellFormed.of_tmgi ho
      | _ => trivial

/-! ## Faults of a step -/

/-- In the create branch the push that follows is the one of the event. -/
theorem outcome_handleCreateResponse {n : ℕ} {rsp : Response}
    (hpush : ∀ v v', isSuccess rsp.status = true → nmbsmfMbsSessionParse t s rsp = .ok (v, true) →
      mbsSessionDoCallback v n s .create .ogsOk none = .ok v' → PushReady v' s) :
    Outcome ObjectGiven (fun _ => True) (handleCreateResponse t n s rsp) := by
  have hcallback : ∀ v result problem, Outcome ObjectGiven (fun _ => True)
      (mbsSessionDoCallback v n s .create result problem) := fun v result problem =>
    (local_mbsSessionDoCallback v n s _ _ _).mono (fun _ _ => trivial) fun _ => .of_local
  unfold handleCreateResponse
  split
  · rename_i hstatus
    refine outcome_of_local (local_nmbsmfMbsSessionParse t s rsp) fun p hp => ?_
    obtain ⟨v, understood⟩ := p
    dsimp only
    split
    · rename_i hunderstood
      rw [hunderstood] at hp
      refine outcome_of_local (local_mbsSessionDoCallback v n s _ _ _) fun v' hv' => ?_
      exact (outcome_mbsSessionPushChanges (hpush v v' hstatus hp hv')).mono
        (fun _ _ => trivial) fun _ => id
    · exact hcallback _ _ _
  · exact hcallback _ _ _

theorem outcome_processTmgiResponse {x : Xact} {tmgi : Option Ref} {rsp : Response} :
    Outcome ObjectGiven (fun _ => True) (processTmgiResponse t x tmgi rsp) := by
  have hnull : Fault.nullTmgi ≠ Fault.nullSbiObject := by decide
  have hmono : ∀ {m : Except Fault World}, Local m → Outcome ObjectGiven (fun _ => True) m :=
    fun h => h.mono (fun _ _ => trivial) fun _ => .of_local
  unfold processTmgiResponse
  split
  · split
    · exact hnull
    · exact hmono (local_tmgiDoCallback _ _ _ _ _)
  · split
    · exact hmono (local_nmbsmfTmgiAllocated _ _ _)
    · split
      · exact hnull
      · exact hmono ((reads_tmgiAt _ _).local.bind fun _ => local_nmbsmfTmgiDeallocated _ _ _)
    · trivial

theorem isCreate_of_post {r : Request} (hservice : r.isTmgi = false) (hc : r.component1 = none)
    (hm : r.method = .post) : r.isCreate = true := by
  cases r <;> simp_all [Request.isTmgi, Request.component1, Request.method, Request.isCreate]

theorem outcome_processSessionResponse {x : Xact} {session : Option Ref} {rsp : Response}
    (hservice : x.request.isTmgi = false)
    (hpush : ∀ s v v', session = some s → x.request.isCreate = true → rsp.parsed = true →
      isSuccess rsp.status = true → nmbsmfMbsSessionParse t s rsp = .ok (v, true) →
      mbsSessionDoCallback v x.id s .create .ogsOk none = .ok v' → PushReady v' s) :
    Outcome ObjectGiven (fun _ => True) (processSessionResponse t x session rsp) := by
  have hnull : Fault.nullSession ≠ Fault.nullSbiObject := by decide
  have hmono : ∀ {m : Except Fault World}, Local m → Outcome ObjectGiven (fun _ => True) m :=
    fun h => h.mono (fun _ _ => trivial) fun _ => .of_local
  unfold processSessionResponse
  split
  · split
    · trivial
    · exact hmono (local_mbsSessionDoCallback _ _ _ _ _ _)
  · rename_i hparsed
    have hp : rsp.parsed = true := by simpa using hparsed
    split
    · rename_i hc hm
      split
      · split
        · exact hnull
        · trivial
      · rename_i s
        exact outcome_handleCreateResponse fun v v' =>
          hpush s v v' rfl (isCreate_of_post hservice hc hm) hp
    · trivial
    · split
      · split
        · split
          · trivial
          · exact hmono (local_nmbsmfMbsSessionSubscriptionResponse _ _ _)
        · trivial
      · split
        · split
          · exact hnull
          · exact hmono ((reads_sessionAt _ _).local.bind fun _ =>
              local_nmbsmfMbsSessionDeleteResponse _ _ _)
        · split
          · trivial
          · exact hmono (local_nmbsmfMbsSessionPatchResponse _ _ _ _)
        · trivial

theorem outcome_processResponse {n : ℕ} {rsp : Response} (hsound : XactsSound w)
    (hgood : RequestsReady w (.network (.response n rsp))) :
    Outcome ObjectGiven (fun _ => True) (processResponse w n rsp) := by
  unfold processResponse
  split
  · trivial
  · rename_i sent hsent
    dsimp only
    split
    · trivial
    · rename_i x hx
      split
      · trivial
      · have hfound : w.findXact n = some x := hx
        obtain rfl := eq_of_findXact hsound hfound hsent
        obtain rfl := (findXact_eq_some hfound).2
        refine Outcome.bind (P := fun _ => True) ?_ fun _ _ => trivial
        split
        · exact outcome_processTmgiResponse
        · rename_i hservice
          refine outcome_processSessionResponse (by simpa using hservice) ?_
          intro s v v' hs hcreate hparsed hstatus hparse hcallback
          exact hgood.push v' s (.created ⟨hfound, hs, hparsed⟩ hcreate hstatus hparse hcallback)

theorem outcome_processTimeout {n : ℕ} :
    Outcome ObjectGiven (fun _ => True) (processTimeout w n) := by
  have hnull : Fault.nullTmgi ≠ Fault.nullSbiObject := by decide
  have hmono : ∀ {m : Except Fault World}, Local m → Outcome ObjectGiven (fun _ => True) m :=
    fun h => h.mono (fun _ _ => trivial) fun _ => .of_local
  unfold processTimeout
  split
  · trivial
  · dsimp only
    split
    · trivial
    · refine Outcome.bind (P := fun _ => True) ?_ fun _ _ => trivial
      unfold reportTimeout
      split
      · split
        · exact hnull
        · exact hmono (local_tmgiDoCallback _ _ _ _ _)
      · exact hmono (local_mbsSessionDoCallback _ _ _ _ _ _)
      · trivial

/-- No call that concerns sessions or subscriptions, and no event of the network, runs into the
assertion of the SBI object. -/
theorem outcome_step (hsound : XactsSound w) (hgood : RequestsReady w e)
    (he : ∀ call, e ≠ .tmgi call) : Outcome ObjectGiven (fun _ => True) (step w e) := by
  have hmono : ∀ {m : Except Fault World}, Local m → Outcome ObjectGiven (fun _ => True) m :=
    fun h => h.mono (fun _ _ => trivial) fun _ => .of_local
  have hlog : ∀ {m : Except Fault World}, Outcome ObjectGiven (Extends SentWellFormed w) m →
      Outcome ObjectGiven (fun _ => True) m := fun h => h.mono (fun _ _ => trivial) fun _ => id
  cases e with
  | tmgi call => exact absurd rfl (he call)
  | subscription call =>
      cases call with
      | new areaSessionId flags correlationId expiryTime => trivial
      | set u setting => exact hmono ((reads_subscriptionAt w u).local.bind fun _ => trivial)
      | add s u => exact hlog (outcome_mbsSessionAddSubscription hgood)
      | remove s u => exact hmono (local_mbsSessionRemoveSubscription w s u)
      | delete u => exact hmono (local_mbsStatusSubscriptionDelete w u)
  | session call =>
      cases call with
      | newIpv4 source dest => trivial
      | newIpv6 source dest => trivial
      | edit s value => exact hmono (local_mbsSessionWrite w s _)
      | write s cell => exact hmono (local_mbsSessionWrite w s _)
      | delete s => exact hmono ((local_mbsSessionWrite w s _).bind fun _ => trivial)
      | setTmgi s tmgi => exact hmono (local_mbsSessionSetTmgi w s tmgi)
      | setCallback s cb => exact hmono (local_mbsSessionWrite w s _)
      | setCallbackOf s kind cb => exact hmono (local_mbsSessionWrite w s _)
      | pushChanges s => exact hlog (outcome_mbsSessionPushChanges (hgood.push w s (.direct s)))
      | pushAllChanges => exact hlog (outcome_mbsSessionPushAllChanges hgood.push)
  | network event =>
      cases event with
      | discovery n found => trivial
      | response n rsp => exact outcome_processResponse hsound hgood
      | timeout n => exact outcome_processTimeout

/-! ## Runs -/

/-- The requests sent so far are well formed, and no next step under the condition is one that
sends without an SBI object. -/
structure RequestsFormed (good : World → Event → Prop) (w : World) : Prop where
  sent : ∀ x, .sent x ∈ w.log → WellFormed x.request
  given : ∀ e, (∀ call, e ≠ .tmgi call) → good w e → step w e ≠ .error .nullSbiObject

theorem requests_formed (h : Run RequestsReady w) : RequestsFormed RequestsReady w := by
  refine ⟨?_, ?_⟩
  · refine run_invariant (fun v => ∀ x, .sent x ∈ v.log → WellFormed x.request) ?_ ?_ h
    · intro x hx
      cases hx
    · intro u e v v' _ _ hgood _ _ hv hpart x hx
      rcases (Part.sentWellFormed hgood hpart).of_mem_log hx with hform | hold
      · exact hform
      · exact hv x hold
  · intro e he hgood herror
    exact (outcome_step (sound_of_run h).xacts hgood he).error herror rfl

/-- A session that is deleted while its create request is outstanding. -/
def deletedEarlyRun : List Event :=
  [.session (.newIpv4 none none), .session (.pushChanges 1), .session (.delete 1),
   .session (.pushChanges 1)]

/-- The delete request of that session names no resource. -/
theorem delete_request_without_id :
    ¬∀ w, Reachable step World.initial w → RequestsFormed (fun _ _ => True) w := by
  intro h
  have hform := (h _ (Reachable.of_events deletedEarlyRun)).sent
    ⟨4, 2, .session 1, .remove none⟩ List.mem_cons_self
  cases hform

theorem RequestsReady.of_noPush (hpush : ∀ v s, ¬PushCall w e v s)
    (hadd : ∀ s u, e ≠ .subscription (.add s u)) : RequestsReady w e :=
  ⟨fun v s hcall => absurd hcall (hpush v s), fun s u _ _ he => absurd he (hadd s u)⟩

theorem PushReady.of_decision {x : MbsSession} {d : PushDecision}
    (hx : v.sessionStore s = some x) (hd : pushDecision v x = .ok d) (hbranch : BranchReady x d)
    (hnone : x.newSubscriptions = [] ∧ x.active = [] ∧ x.deletedSubscriptions = []) :
    PushReady v s := by
  obtain ⟨hnew, hactive, hdeleted⟩ := hnone
  refine ⟨?_, ?_⟩
  · intro y d' hy hd'
    rw [hx, Option.some.injEq] at hy
    subst hy
    rw [hd, Except.ok.injEq] at hd'
    exact hd' ▸ hbranch
  · intro y d' hy _ _
    rw [hx, Option.some.injEq] at hy
    subst hy
    refine ⟨?_, ?_, ?_⟩ <;> simp [hnew, hactive, hdeleted]

def createdAnswer : Response :=
  { status := 201, resStatus := 201, createLocation := .resource "a",
    createRspData := some (some {}) }

/-- A session that the MB-SMF created and that then asks for the contact PCF. -/
def updatedRun : List Event :=
  [.session (.newIpv4 none none), .session (.edit 1 { tmgiReq := false }),
   .session (.pushChanges 1), .network (.response 3 createdAnswer),
   .session (.edit 1 { tmgiReq := false, contactPcfInd := true }), .session (.pushChanges 1)]

def updatedState (k : ℕ) : World := (updatedRun.take k).foldl (advance step) World.initial

/-- The push that follows the create answer finds nothing to send. -/
theorem updatedState_created
    (h : PushCall (updatedState 3) (.network (.response 3 createdAnswer)) v s) :
    PushReady v s := by
  cases h with
  | created answers request status parse callback =>
      have hx := answers.outstanding
      have hs := answers.session
      obtain rfl := Option.some.inj (hx.symm.trans rfl)
      obtain rfl := Option.some.inj (hs.symm.trans rfl)
      obtain ⟨rfl, -⟩ := Prod.mk.inj (Except.ok.inj (parse.symm.trans rfl))
      obtain rfl := Except.ok.inj (callback.symm.trans rfl)
      refine PushReady.of_decision rfl (d := .unchanged) ?_ trivial ⟨rfl, rfl, rfl⟩
      rfl

theorem RequestsReady.of_direct (h : PushReady w s) :
    RequestsReady w (.session (.pushChanges s)) := by
  refine ⟨?_, fun _ _ _ _ he => by cases he⟩
  intro v q hcall
  cases hcall with
  | direct => exact h

theorem updatedState_run : Run RequestsReady (updatedState 6) := by
  refine Reach.of_goodFrom updatedRun .init ⟨?_, ?_, ?_, ?_, ?_, ?_, trivial⟩
  · exact .of_noPush (fun v s hcall => by cases hcall) fun s u he => by cases he
  · exact .of_noPush (fun v s hcall => by cases hcall) fun s u he => by cases he
  · refine .of_direct (PushReady.of_decision rfl (d := .create) ?_ trivial ⟨rfl, rfl, rfl⟩)
    rfl
  · exact ⟨fun v s hcall => updatedState_created hcall, fun _ _ _ _ he => by cases he⟩
  · exact .of_noPush (fun v s hcall => by cases hcall) fun s u he => by cases he
  · refine .of_direct (PushReady.of_decision rfl (d := .update) ?_ ?_ ⟨rfl, rfl, rfl⟩)
    · rfl
    · refine ⟨rfl, rfl, _, rfl, ?_⟩
      rintro ⟨hflag, -⟩
      cases hflag

/-- The last push of that run sends a PATCH. -/
theorem requests_formed_updated : RequestsFormed RequestsReady (updatedState 6) ∧
    ∃ x, .sent x ∈ (updatedState 6).log ∧ x.request.method = .patch :=
  ⟨requests_formed updatedState_run, _, List.mem_cons_self, rfl⟩

end ServiceConsumers.WellFormedRequests
