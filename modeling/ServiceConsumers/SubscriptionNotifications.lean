import ServiceConsumers.NotificationUris
import ServiceConsumers.SubscriptionContainers

set_option autoImplicit false

/-!
# Notifications for every subscription

A subscription can be notified when the request that made it carried a URI, and when the
dispatcher is not stopped on its way to it.
-/

namespace ServiceConsumers.SubscriptionNotifications

open ObjectStore KeyedTable PublicSessions ConsumerState TmgiOperations SubscriptionOperations
  SessionOperations ResponseHandlers ProcessEvent TransitionRuns TransactionLog TmgiEffects
  SessionEffects PushEffects AnswerEffects EventEffects SubscriptionLinks StepDecomposition
  RunInvariants OperationFaults SubscriptionPlacement SubscriptionContainers
  NotificationDispatch NotificationUris

variable {host : NotificationHost} {w w' v v' t : World} {e : Event} {s u q : Ref}

/-! ## The law -/

/-- The sessions of the context, in order. -/
def contextSessions (w : World) : List MbsSession := w.mbsSessions.filterMap w.sessionStore

def HasTable (w : World) (q : Ref) : Prop :=
  ∃ y, w.sessionStore q = some y ∧ y.activeSubscriptions.isSome = true

/-- Every session that stands before `s` in the context has its table. -/
def TablesBefore (w : World) (s : Ref) : Prop :=
  ∀ q, List.Sublist [q, s] w.mbsSessions → HasTable w q

/-- Every subscribe request carried a URI. From then on, until the subscription is attached
again, is pending for deletion or is gone, a request to that URI is dispatched to it. -/
structure SubscriptionsNotified (host : NotificationHost) (w : World) : Prop where
  carried : ∀ after x before u, w.log = after ++ .sent x :: before →
    requested x.request = some u → (notifyUri host u (.sent x :: before)).isSome = true
  dispatched : ∀ after x before u uri n s y, w.log = after ++ .sent x :: before →
    requested x.request = some u → notifyUri host u (.sent x :: before) = some uri →
    (∀ q, .attached u q ∉ after) → w.subscriptionStore u = some n → n.session = some s →
    w.sessionStore s = some y → u ∉ y.deletedSubscriptions →
    findSubscription host.parseUrl (subscriptionCache host w.log) (host.arrival uri).1
      (some (host.arrival uri).2) (contextSessions w) = .ok (some u)

def IsCreation (d : PushDecision) : Prop := d = .create ∨ ∃ removeFirst, d = .recreate removeFirst

def IsSubscriptionsUpdate (d : PushDecision) : Prop := d = .update ∨ d = .unchanged

/-- When a subscription is embedded a server can be opened, when it is subscribed to by itself
it has its URI already, and the sessions before its own have their tables. -/
structure NotificationsServed (host : NotificationHost) (w : World) (e : Event) : Prop where
  containers : LinkedOnce w e
  embedded : ∀ v s x d u, PushCall w e v s → v.sessionStore s = some x →
    pushDecision v x = .ok d → IsCreation d → Embeds v x u → host.Available ∧ TablesBefore v s
  subscribed : ∀ v s x d u n, PushCall w e v s → v.sessionStore s = some x →
    pushDecision v x = .ok d → IsSubscriptionsUpdate d → u ∈ x.newSubscriptions →
    v.subscriptionStore u = some n → n.changed = true →
    (cacheOf host u v.log).notifUrl.isSome = true ∧ TablesBefore v s

/-! ## What a push says -/

/-- Why a push of a session requests a subscription. -/
def RequestFor (v : World) (x : MbsSession) (d : PushDecision) (r : Request) (u : Ref) : Prop :=
  (IsCreation d ∧ Embeds v x u ∧ embedded r = some u) ∨
    (IsSubscriptionsUpdate d ∧ u ∈ x.newSubscriptions ∧ embedded r = none ∧
      ∃ n, v.subscriptionStore u = some n ∧ n.changed = true)

def PushSays (v : World) (x : MbsSession) (d : PushDecision) : Observation → Prop
  | .sent y => ∀ u, requested y.request = some u → RequestFor v x d y.request u
  | .attached .. => False
  | _ => True

/-- The log grew by observations that satisfy `A`. -/
def Says (A : Observation → Prop) (w w' : World) : Prop :=
  ∃ new, w'.log = new ++ w.log ∧ ∀ o ∈ new, A o

namespace Says

variable {A B : Observation → Prop} {w'' : World}

theorem of_eq (h : w'.log = w.log) : Says A w w' := ⟨[], h, fun _ ho => by cases ho⟩

theorem one {o : Observation} (hA : A o) (h : w'.log = o :: w.log) : Says A w w' :=
  ⟨[o], h, fun p hp => by rw [List.mem_singleton.1 hp]; exact hA⟩

theorem trans (h₁ : Says A w w') (h₂ : Says A w' w'') : Says A w w'' := by
  obtain ⟨new₁, hlog₁, hA₁⟩ := h₁
  obtain ⟨new₂, hlog₂, hA₂⟩ := h₂
  refine ⟨new₂ ++ new₁, by rw [hlog₂, hlog₁, List.append_assoc], fun o ho => ?_⟩
  exact (List.mem_append.1 ho).elim (hA₂ o) (hA₁ o)

theorem of_extends (h : Extends A w w') : Says A w w' := by
  obtain ⟨⟨new, hlog, hA, -⟩, -⟩ := h
  exact ⟨new, hlog, hA⟩

end Says

/-- The subscriptions that are left are attached where they were, and none has changed that
had not. -/
def Tracks (w w' : World) : Prop :=
  ∀ u n', w'.subscriptionStore u = some n' → ∃ n, w.subscriptionStore u = some n ∧
    n'.session = n.session ∧ (n'.changed = true → n.changed = true)

namespace Tracks

variable {w'' : World}

theorem of_eq (h : w'.subscriptionStore = w.subscriptionStore) : Tracks w w' :=
  fun u n' hn' => ⟨n', by rw [← h]; exact hn', rfl, fun hc => hc⟩

theorem trans (h₁ : Tracks w w') (h₂ : Tracks w' w'') : Tracks w w'' := by
  intro u n'' hn''
  obtain ⟨n', hn', hs', hc'⟩ := h₂ u n'' hn''
  obtain ⟨n, hn, hs, hc⟩ := h₁ u n' hn'
  exact ⟨n, hn, hs'.trans hs, fun h => hc (hc' h)⟩

theorem modifySubscription {f : StatusSubscription → StatusSubscription}
    (hs : ∀ n, (f n).session = n.session) (hc : ∀ n, (f n).changed = true → n.changed = true) :
    Tracks w (w.modifySubscription u f) := by
  intro q n' hn'
  replace hn' : w.subscriptionStore.modify u f q = some n' := hn'
  rw [Store.modify_apply] at hn'
  split at hn'
  · obtain ⟨n, hn, rfl⟩ := Option.map_eq_some_iff.1 hn'
    exact ⟨n, hn, hs n, hc n⟩
  · exact ⟨n', hn', rfl, fun h => h⟩

theorem free : Tracks w (mbsStatusSubscriptionFree w u) := by
  intro q n' hn'
  replace hn' : w.subscriptionStore.free u q = some n' := hn'
  rw [Store.free_apply] at hn'
  split at hn'
  · cases hn'
  · exact ⟨n', hn', rfl, fun h => h⟩

theorem ogsListRemove {name : ListName} (h : ogsListRemove w s name u = .ok w') :
    Tracks w w' := by
  obtain ⟨x, -, -, rfl⟩ := ogsListRemove_eq_ok h
  have hset : Tracks w (w.setSession s (setList x name ((listOf x name).erase u))) := of_eq rfl
  exact hset.trans (modifySubscription (fun _ => rfl) fun _ h => h)

end Tracks

theorem tracks_updateNewSubscription (h : updateNewSubscription w u = .ok w') : Tracks w w' := by
  obtain ⟨n, v, -, hv, rfl⟩ := updateNewSubscription_eq_ok h
  have hsend : v.subscriptionStore = w.subscriptionStore := by
    split at hv
    · exact (sendEffect_sendCreate hv).subscriptionStore
    · rw [Except.ok.injEq] at hv
      rw [hv]
  exact (Tracks.of_eq hsend).trans (Tracks.modifySubscription (fun _ => rfl) fun _ h => by cases h)

theorem tracks_updateStatusSubscription (h : updateStatusSubscription w u = .ok w') :
    Tracks w w' := by
  obtain ⟨n, -, ⟨-, rfl⟩ | ⟨-, v, hv, rfl⟩⟩ := updateStatusSubscription_eq_ok h
  · exact Tracks.of_eq rfl
  · exact (Tracks.of_eq (sendEffect_sendUpdate hv).subscriptionStore).trans
      (Tracks.modifySubscription (fun _ => rfl) fun _ h => by cases h)

theorem tracks_removePendingSubscription (h : removePendingSubscription s w u = .ok w') :
    Tracks w w' := by
  obtain ⟨v, v', hv, hv', rfl⟩ := removePendingSubscription_eq_ok h
  exact ((Tracks.of_eq (sendEffect_sendDelete hv).subscriptionStore).trans
    (Tracks.ogsListRemove hv')).trans Tracks.free

theorem tracks_mbsSessionPushChanges (h : mbsSessionPushChanges v s = .ok v') : Tracks v v' :=
  mbsSessionPushChanges_induction (fun t => Tracks v t)
    (fun _ _ hsend ht => ht.trans (Tracks.of_eq hsend.subscriptionStore))
    (fun _ _ _ _ _ _ ht hu => ht.trans (tracks_updateNewSubscription hu))
    (fun _ _ _ _ _ _ ht hu => ht.trans (tracks_updateStatusSubscription hu))
    (fun _ _ _ ht hu => ht.trans (tracks_removePendingSubscription hu)) (Tracks.of_eq rfl) h

section Push

variable {x : MbsSession} {d : PushDecision}

theorem says_sent {y : Xact}
    (h : ∀ u, requested y.request = some u → RequestFor v x d y.request u)
    (hlog : w'.log = .sent y :: w.log) : Says (PushSays v x d) w w' :=
  Says.one (A := PushSays v x d) (o := .sent y) h hlog

theorem says_updateNewSubscription (hd : IsSubscriptionsUpdate d) (hu : u ∈ x.newSubscriptions)
    (ht : Tracks v t) (h : updateNewSubscription t u = .ok v') : Says (PushSays v x d) t v' := by
  obtain ⟨n, t', hn, ht', rfl⟩ := updateNewSubscription_eq_ok h
  have hsend : Says (PushSays v x d) t t' := by
    split at ht'
    · rename_i hchanged
      obtain ⟨m, hm, hcase⟩ := mbsStatusSubscriptionSend_eq_ok ht'
      obtain rfl := Option.some.inj (hn.symm.trans hm)
      rcases hcase with ⟨-, rfl⟩ | ⟨q, y, o, r, -, -, -, hbuild, rfl⟩
      · exact Says.of_eq rfl
      · obtain rfl := buildStatusSubscriptionCreate_eq_ok hbuild
        refine says_sent (fun u' hu' => ?_) rfl
        obtain rfl : u = u' := Option.some.inj hu'
        obtain ⟨n', hn', -, hchanged'⟩ := ht u n hn
        exact .inr ⟨hd, hu, rfl, n', hn', hchanged' hchanged⟩
    · rw [Except.ok.injEq] at ht'
      exact Says.of_eq (by rw [ht'])
  exact hsend.trans (Says.of_eq rfl)

theorem says_sendUpdate (h : mbsStatusSubscriptionSendUpdate t u = .ok v') :
    Says (PushSays v x d) t v' := by
  refine Says.of_extends (sendEffect_mbsStatusSubscriptionSend (A := PushSays v x d) ?_ h).log
  intro n o q y m r _ _ _ hr
  obtain ⟨patches, -, rfl⟩ := buildStatusSubscriptionUpdate_eq_ok hr
  intro u' hu'
  cases hu'

theorem says_sendDelete (h : mbsStatusSubscriptionSendDelete t u = .ok v') :
    Says (PushSays v x d) t v' := by
  refine Says.of_extends (sendEffect_mbsStatusSubscriptionSend (A := PushSays v x d) ?_ h).log
  intro n o q y m r _ _ _ hr
  simp only [buildStatusSubscriptionDelete, Except.ok.injEq] at hr
  intro u' hu'
  rw [← hr] at hu'
  cases hu'

theorem says_updateStatusSubscription (h : updateStatusSubscription t u = .ok v') :
    Says (PushSays v x d) t v' := by
  obtain ⟨n, -, ⟨-, rfl⟩ | ⟨-, t', ht', rfl⟩⟩ := updateStatusSubscription_eq_ok h
  · exact Says.of_eq rfl
  · exact (says_sendUpdate ht').trans (Says.of_eq rfl)

theorem says_removePendingSubscription (h : removePendingSubscription s t u = .ok v') :
    Says (PushSays v x d) t v' := by
  obtain ⟨t', t'', ht', ht'', rfl⟩ := removePendingSubscription_eq_ok h
  obtain ⟨y, -, -, rfl⟩ := ogsListRemove_eq_ok ht''
  exact (says_sendDelete ht').trans (Says.of_eq rfl)

theorem says_mbsSessionSubscriptionsUpdate (hx : t.sessionStore s = some x)
    (hd : IsSubscriptionsUpdate d) (ht : Tracks v t)
    (h : mbsSessionSubscriptionsUpdate t s = .ok v') : Says (PushSays v x d) t v' := by
  refine (mbsSessionSubscriptionsUpdate_induction
    (fun r => Tracks v r ∧ Says (PushSays v x d) t r) hx ?_ ?_ ?_ ⟨ht, Says.of_eq rfl⟩ h).2
  · intro u hu r r' _ hr hrun
    exact ⟨hr.1.trans (tracks_updateNewSubscription hrun),
      hr.2.trans (says_updateNewSubscription hd hu hr.1 hrun)⟩
  · intro u _ r r' _ hr hrun
    exact ⟨hr.1.trans (tracks_updateStatusSubscription hrun),
      hr.2.trans (says_updateStatusSubscription hrun)⟩
  · intro u _ r r' hr hrun
    exact ⟨hr.1.trans (tracks_removePendingSubscription hrun),
      hr.2.trans (says_removePendingSubscription hrun)⟩

theorem says_mbsSessionSendRemove (h : mbsSessionSendRemove t s = .ok v') :
    Says (PushSays v x d) t v' := by
  obtain ⟨y, o, -, -, rfl⟩ := mbsSessionSendRemove_eq_ok h
  exact says_sent (fun u hu => by cases hu) rfl

theorem says_mbsSessionSendUpdate (h : mbsSessionSendUpdate t s = .ok v') :
    Says (PushSays v x d) t v' := by
  obtain ⟨y, o, patches, carried, -, -, -, -, rfl⟩ := mbsSessionSendUpdate_eq_ok h
  exact says_sent (fun u hu => by cases hu) rfl

theorem says_mbsSessionSendCreate (hx : t.sessionStore s = some x) (hd : IsCreation d)
    (hstore : t.subscriptionStore = v.subscriptionStore)
    (h : mbsSessionSendCreate t s = .ok v') : Says (PushSays v x d) t v' := by
  obtain ⟨y, o, carried, embedded, counts, next, hy, -, -, -, hembeds, rfl⟩ :=
    mbsSessionSendCreate_eq_ok h
  obtain rfl := Option.some.inj (hx.symm.trans hy)
  refine says_sent (fun u hu => ?_) rfl
  cases embedded with
  | none => cases hu
  | some e =>
      obtain ⟨u', body⟩ := e
      obtain rfl : u' = u := Option.some.inj hu
      obtain ⟨hfirst, n, hn, hevents⟩ := hembeds u' body rfl
      exact .inl ⟨hd, ⟨hfirst, n, by rw [← hstore]; exact hn, hevents⟩, rfl⟩

/-- What a push says about subscriptions follows from its decision. -/
theorem says_mbsSessionPushChanges (h : mbsSessionPushChanges v s = .ok v') :
    ∃ x d, v.sessionStore s = some x ∧ pushDecision v x = .ok d ∧ Says (PushSays v x d) v v' := by
  obtain ⟨x, d, hx, hdecision, hout⟩ := mbsSessionPushChanges_eq_ok.1 h
  refine ⟨x, d, hx, hdecision, ?_⟩
  cases d with
  | remove => exact says_mbsSessionSendRemove hout
  | create => exact says_mbsSessionSendCreate hx (.inl rfl) rfl hout
  | recreate removeFirst =>
      simp only [PushDecision.carryOut, removeAndCreate, bind_eq_ok] at hout
      obtain ⟨t, ht, hout⟩ := hout
      split at ht
      · have hsays := says_mbsSessionSendRemove (v := v) (x := x) (d := .recreate removeFirst) ht
        obtain ⟨y, o, -, -, rfl⟩ := mbsSessionSendRemove_eq_ok ht
        exact hsays.trans (says_mbsSessionSendCreate hx (.inr ⟨_, rfl⟩) rfl hout)
      · rw [Except.ok.injEq] at ht
        subst ht
        exact says_mbsSessionSendCreate hx (.inr ⟨_, rfl⟩) rfl hout
  | update =>
      simp only [PushDecision.carryOut, bind_eq_ok] at hout
      obtain ⟨t, ht, hout⟩ := hout
      have hsays := says_mbsSessionSendUpdate (v := v) (x := x) (d := .update) ht
      obtain ⟨y, o, patches, carried, -, -, -, -, rfl⟩ := mbsSessionSendUpdate_eq_ok ht
      exact hsays.trans (says_mbsSessionSubscriptionsUpdate hx (.inl rfl) (Tracks.of_eq rfl) hout)
  | unchanged =>
      exact says_mbsSessionSubscriptionsUpdate hx (.inr rfl) (Tracks.of_eq rfl) hout

end Push

/-! ## Tables stay -/

def hasTable (x : MbsSession) : Bool := x.activeSubscriptions.isSome

/-- Sessions stay, and keep their tables. -/
def TablesStay (w w' : World) : Prop :=
  ∀ q x, w.sessionStore q = some x → ∃ x', w'.sessionStore q = some x' ∧
    (hasTable x = true → hasTable x' = true)

namespace TablesStay

variable {w'' : World}

theorem trans (h₁ : TablesStay w w') (h₂ : TablesStay w' w'') : TablesStay w w'' := by
  intro q x hx
  obtain ⟨x', hx', ht⟩ := h₁ q x hx
  obtain ⟨x'', hx'', ht'⟩ := h₂ q x' hx'
  exact ⟨x'', hx'', fun h => ht' (ht h)⟩

theorem of_keeps {α : Type} {f : MbsSession → α} {g : α → Bool} (h : Keeps f w w')
    (hg : ∀ x, hasTable x = g (f x)) : TablesStay w w' := by
  intro q x hx
  obtain ⟨x', hx', hf⟩ := h.forth hx
  exact ⟨x', hx', fun ht => by rw [hg, hf, ← hg]; exact ht⟩

theorem of_eq (h : w'.sessionStore = w.sessionStore) : TablesStay w w' :=
  fun q x hx => ⟨x, by rw [h]; exact hx, fun ht => ht⟩

theorem setSession {x x' : MbsSession} (hx : w.sessionStore s = some x)
    (h : hasTable x = true → hasTable x' = true) : TablesStay w (w.setSession s x') := by
  intro q y hy
  by_cases hq : q = s
  · subst hq
    obtain rfl := Option.some.inj (hx.symm.trans hy)
    exact ⟨x', Store.set_self _ _ _, h⟩
  · exact ⟨y, (Store.set_of_ne _ _ _ hq).trans hy, fun ht => ht⟩

theorem modifySession {f : MbsSession → MbsSession}
    (h : ∀ x, hasTable x = true → hasTable (f x) = true) :
    TablesStay w (w.modifySession s f) := by
  intro q y hy
  by_cases hq : q = s
  · subst hq
    exact ⟨f y, by simp [hy], h y⟩
  · exact ⟨y, (Store.modify_of_ne _ _ _ hq).trans hy, fun ht => ht⟩

theorem hasTable_setList (x : MbsSession) (name : ListName) (us : List Ref) :
    hasTable (setList x name us) = hasTable x := by cases name <;> rfl

theorem ogsListAdd {name : ListName} (h : ogsListAdd w s name u = .ok w') : TablesStay w w' := by
  obtain ⟨x, n, hx, -, -, rfl⟩ := ogsListAdd_eq_ok h
  have hset : TablesStay w (w.setSession s (setList x name (listOf x name ++ [u]))) :=
    setSession hx fun ht => by rw [hasTable_setList]; exact ht
  exact hset.trans (of_eq rfl)

theorem ogsListRemove {name : ListName} (h : ogsListRemove w s name u = .ok w') :
    TablesStay w w' := by
  obtain ⟨x, hx, -, rfl⟩ := ogsListRemove_eq_ok h
  have hset : TablesStay w (w.setSession s (setList x name ((listOf x name).erase u))) :=
    setSession hx fun ht => by rw [hasTable_setList]; exact ht
  exact hset.trans (of_eq rfl)

theorem forgetId (h : forgetId w u = .ok w') : TablesStay w w' := by
  obtain ⟨n, -, ⟨-, rfl⟩ | ⟨id, q, x, table, v, -, -, hx, -, hv, rfl⟩⟩ := forgetId_eq_ok h
  · exact of_eq rfl
  · have hset : TablesStay w
        (w.setSession q { x with activeSubscriptions := some (table.erase id) }) :=
      setSession hx fun _ => rfl
    exact (hset.trans (of_eq (sendEffect_sendDelete hv).sessionStore)).trans (of_eq rfl)

theorem mbsSessionAddSubscription (h : mbsSessionAddSubscription w s u = .ok w') :
    TablesStay w w' := by
  obtain ⟨x, n, hx, -, ⟨-, rfl⟩ | ⟨-, v, v', hv, hv', rfl⟩⟩ := mbsSessionAddSubscription_eq_ok h
  · exact of_eq rfl
  · have hset : TablesStay w (w.setSession s { x with activeSubscriptions := some x.active }) :=
      setSession hx fun _ => rfl
    exact ((hset.trans (forgetId hv)).trans (ogsListAdd hv')).trans (of_eq rfl)

theorem mbsSessionRemoveSubscription (h : mbsSessionRemoveSubscription w s u = .ok w') :
    TablesStay w w' := by
  obtain ⟨x, n, hx, -, ⟨-, rfl⟩ | ⟨-, -, hcase⟩⟩ := mbsSessionRemoveSubscription_eq_ok h
  · exact of_eq rfl
  · rcases hcase with ⟨id, v, -, hv, rfl⟩ | ⟨-, -, v, hv, rfl⟩ | ⟨-, -, rfl⟩
    · have hset : TablesStay w (w.setSession s
          { x with activeSubscriptions := x.activeSubscriptions.map fun t => t.erase id }) :=
        setSession hx fun ht => by rw [hasTable, Option.isSome_map]; exact ht
      exact (hset.trans (ogsListAdd hv)).trans (of_eq rfl)
    · exact (ogsListRemove hv).trans (of_eq rfl)
    · exact of_eq rfl

end TablesStay

/-- No part of a step but the end of a session takes a table away. -/
theorem Part.tablesStay (hw : Sound w) (h : Part w e v v') :
    TablesStay v v' ∨ ∃ s, LeavingEffect s v v' := by
  cases h with
  | tmgi effect => exact .inl (.of_eq effect.sessionStore)
  | newSession ssm =>
      refine .inl fun q x hx => ⟨x, ?_, fun ht => ht⟩
      have hne : q ≠ w.next := by
        rintro rfl
        rw [hw.sessionStore_next] at hx
        cases hx
      exact (Store.set_of_ne _ _ _ hne).trans hx
  | writeSession live view =>
      have hview := congrArg hasTable view
      exact .inl (.setSession live fun ht => by rw [← ht]; exact hview)
  | markDeleted live =>
      rename_i s x
      have hset : TablesStay w (w.setSession s { x with deleted := true }) :=
        .setSession live fun ht => ht
      exact .inl (hset.trans (.of_eq rfl))
  | newSubscription unused => exact .inl (.of_eq rfl)
  | setSubscription event => exact .inl (.of_eq rfl)
  | addSubscription event run => exact .inl (.mbsSessionAddSubscription run)
  | removeSubscription event run => exact .inl (.mbsSessionRemoveSubscription run)
  | freeSubscription event live unattached => exact .inl (.of_eq rfl)
  | push call run =>
      exact .inl (.of_keeps (pushEffect_mbsSessionPushChanges run).keeps (g := hasTable)
        fun _ => rfl)
  | answered event sent => exact .inl (.of_eq rfl)
  | said event outstanding observation => exact .inl (.of_eq rfl)
  | parse event answers request status run =>
      exact .inl (.of_keeps (valueEffect_nmbsmfMbsSessionParse run).keeps (g := hasTable)
        fun _ => rfl)
  | left event answers request usable live callback run =>
      exact .inr ⟨_, leavingEffect_contextRemoveMbsSession run⟩

theorem sublist_append_singleton {α : Type} {a b c : α} {l : List α} (hb : b ≠ c)
    (h : List.Sublist [a, b] (l ++ [c])) : List.Sublist [a, b] l := by
  obtain ⟨l₁, l₂, heq, h₁, h₂⟩ := List.sublist_append_iff.1 h
  cases l₂ with
  | nil =>
      rw [List.append_nil] at heq
      exact heq ▸ h₁
  | cons c' l₂ =>
      obtain ⟨rfl, rfl⟩ : c' = c ∧ l₂ = [] := by
        have := List.sublist_singleton.1 h₂
        simpa using this
      have hlast := congrArg List.getLast? heq
      simp at hlast
      exact absurd hlast hb

/-- A session that comes later in the context stays behind the same tables. -/
theorem Part.tablesBefore (hw : Sound w) (hv : Sound v) (h : Part w e v v')
    (hlive : (v.sessionStore s).isSome = true) (hbefore : TablesBefore v s) :
    TablesBefore v' s := by
  have hold : ∀ q, List.Sublist [q, s] v'.mbsSessions → List.Sublist [q, s] v.mbsSessions := by
    intro q hq
    rcases Part.calm h with hcalm | ⟨rfl, ssm, rfl⟩ | ⟨rfl, n, -, rfl⟩ | ⟨r, hleave, -⟩
    · rw [hcalm.mbsSessions] at hq
      exact hq
    · refine sublist_append_singleton ?_ hq
      rintro rfl
      rw [hv.sessionStore_next] at hlive
      cases hlive
    · exact hq
    · rw [hleave.mbsSessions] at hq
      exact hq.trans List.erase_sublist
  intro q hq
  obtain ⟨y, hy, ht⟩ := hbefore q (hold q hq)
  rcases Part.tablesStay hw h with hstay | ⟨r, hleave⟩
  · obtain ⟨y', hy', ht'⟩ := hstay q y hy
    exact ⟨y', hy', ht' ht⟩
  · refine ⟨y, ?_, ht⟩
    have hne : q ≠ r := by
      rintro rfl
      have hmem : q ∈ v'.mbsSessions := hq.subset List.mem_cons_self
      rw [hleave.mbsSessions, hv.nodup.mem_erase_iff] at hmem
      exact hmem.1 rfl
    rw [hleave.sessionStore, Store.free_of_ne _ _ _ hne]
    exact hy

/-! ## Attachments stay -/

/-- A subscription that is attached was attached there before. -/
def AttachedBefore (w w' : World) (u : Ref) : Prop :=
  ∀ n' s, w'.subscriptionStore u = some n' → n'.session = some s →
    ∃ n, w.subscriptionStore u = some n ∧ n.session = some s

theorem Tracks.attachedBefore (h : Tracks w w') (u : Ref) : AttachedBefore w w' u := by
  intro n' s hn' hs
  obtain ⟨n, hn, hsession, -⟩ := h u n' hn'
  exact ⟨n, hn, hsession ▸ hs⟩

theorem AttachedBefore.of_sameLinks (h : SameLinks w w') (u : Ref) : AttachedBefore w w' u := by
  intro n' s hn' hs
  obtain ⟨n, hn, hsession, -⟩ := h.back hn'
  exact ⟨n, hn, hsession ▸ hs⟩

theorem AttachedBefore.of_eq (h : w'.subscriptionStore u = w.subscriptionStore u) :
    AttachedBefore w w' u := by
  intro n' s hn' hs
  exact ⟨n', by rw [← h]; exact hn', hs⟩

theorem tracks_mbsSessionRemoveSubscription (h : mbsSessionRemoveSubscription w s u = .ok w')
    (q : Ref) : AttachedBefore w w' q := by
  obtain ⟨x, n, hx, hn, ⟨-, rfl⟩ | ⟨-, hs, hcase⟩⟩ := mbsSessionRemoveSubscription_eq_ok h
  · exact .of_eq rfl
  · rcases hcase with ⟨id, v, -, hv, rfl⟩ | ⟨-, -, v, hv, rfl⟩ | ⟨-, -, rfl⟩
    · by_cases hq : q = u
      · subst hq
        intro n' s' hn' hs'
        obtain ⟨y, m, -, hm, -, rfl⟩ := ogsListAdd_eq_ok hv
        obtain rfl := Option.some.inj (hn.symm.trans hm)
        simp only [World.modifySubscription, Store.modify_self] at hn'
        obtain ⟨m', hm', rfl⟩ := Option.map_eq_some_iff.1 hn'
        obtain ⟨m'', hm'', rfl⟩ := Option.map_eq_some_iff.1 hm'
        obtain rfl := Option.some.inj (hn.symm.trans hm'')
        exact ⟨n, hn, hs'⟩
      · refine .of_eq ?_
        exact (Store.modify_of_ne _ _ _ hq).trans ((others_ogsListAdd hv hq).trans rfl)
    · exact ((Tracks.ogsListRemove hv).trans Tracks.free).attachedBefore q
    · exact .of_eq rfl

/-- Only adding a subscription attaches it, and it says so. -/
theorem Part.attachedBefore (h : Part w e v v') (u : Ref) :
    AttachedBefore v v' u ∨ ∃ s new, v'.log = .attached u s :: new ∧ v.log.Sublist new := by
  cases h with
  | tmgi effect => exact .inl (.of_eq (by rw [effect.subscriptionStore]))
  | newSession ssm => exact .inl (.of_eq rfl)
  | writeSession live view => exact .inl (.of_eq rfl)
  | markDeleted live => exact .inl (.of_eq rfl)
  | newSubscription unused =>
      refine .inl fun n' s hn' hs => ?_
      by_cases hu : u = w.next
      · subst hu
        obtain rfl := Option.some.inj ((Store.set_self _ _ _).symm.trans hn')
        rw [unused.2.1] at hs
        cases hs
      · exact ⟨n', (Store.set_of_ne _ _ _ hu).symm.trans hn', hs⟩
  | setSubscription event =>
      exact .inl (.of_sameLinks (SameLinks.of_modifySubscription
        (attachment_mbsStatusSubscriptionSet _)) u)
  | addSubscription event run =>
      rename_i s q
      obtain ⟨x, n, hx, hn, ⟨-, rfl⟩ | ⟨-, t, t', ht, ht', rfl⟩⟩ :=
        mbsSessionAddSubscription_eq_ok run
      · exact .inl (.of_eq rfl)
      · by_cases hu : u = q
        · subst hu
          have hold := (extends_forgetId (s := s) ht).trans (extends_ogsListAdd ht')
          obtain ⟨⟨new, hlog, -⟩, -⟩ := hold
          refine .inr ⟨s, t'.log, rfl, ?_⟩
          rw [hlog]
          exact List.sublist_append_right new _
        · refine .inl fun n' s' hn' hs' => ?_
          have hstore : t'.subscriptionStore u = some n' :=
            (Store.modify_of_ne _ _ _ hu).symm.trans hn'
          rw [others_ogsListAdd ht' hu] at hstore
          exact AttachedBefore.of_sameLinks (sameLinks_forgetId ht) u n' s' hstore hs'
  | removeSubscription event run => exact .inl (tracks_mbsSessionRemoveSubscription run u)
  | freeSubscription event live unattached => exact .inl (Tracks.free.attachedBefore u)
  | push call run => exact .inl ((tracks_mbsSessionPushChanges run).attachedBefore u)
  | answered event sent => exact .inl (.of_eq rfl)
  | said event outstanding observation => exact .inl (.of_eq rfl)
  | parse event answers request status run =>
      exact .inl (.of_eq (by rw [(valueEffect_nmbsmfMbsSessionParse run).subscriptionStore]))
  | left event answers request usable live callback run =>
      refine .inl fun n' s' hn' hs' => ?_
      obtain ⟨x, -, -, hstore⟩ := (leavingEffect_contextRemoveMbsSession run).record
      rw [hstore] at hn'
      split at hn'
      · cases hn'
      · exact ⟨n', hn', hs'⟩

/-! ## What is kept -/

/-- The part of the law that follows the requests. -/
structure RequestsServed (host : NotificationHost) (w : World) : Prop where
  carried : ∀ after x before u, w.log = after ++ .sent x :: before →
    requested x.request = some u → (notifyUri host u (.sent x :: before)).isSome = true
  tables : ∀ after x before u n s, w.log = after ++ .sent x :: before →
    requested x.request = some u → (∀ q, .attached u q ∉ after) →
    w.subscriptionStore u = some n → n.session = some s → TablesBefore w s

/-- A request in the new log is new or was there before. -/
theorem log_split {new old after before : List Observation} {o : Observation}
    (h : new ++ old = after ++ o :: before) :
    (∃ older, new = after ++ o :: older ∧ before = older ++ old) ∨
      ∃ after', after = new ++ after' ∧ old = after' ++ o :: before := by
  obtain ⟨after', rfl, hold⟩ | ⟨rest, rfl, hrest⟩ := List.append_eq_append_iff.1 h
  · exact .inr ⟨after', rfl, hold⟩
  · cases rest with
    | nil => exact .inr ⟨[], by simp, hrest.symm⟩
    | cons p older =>
        obtain ⟨rfl, rfl⟩ := List.cons.inj hrest
        exact .inl ⟨older, rfl, rfl⟩

theorem RequestsServed.of_log {new : List Observation} (h : RequestsServed host v)
    (hlog : v'.log = new ++ v.log)
    (hnew : ∀ newer x older u, new = newer ++ .sent x :: older → requested x.request = some u →
      (notifyUri host u (.sent x :: (older ++ v.log))).isSome = true ∧
        ∀ n s, v'.subscriptionStore u = some n → n.session = some s → TablesBefore v' s)
    (hold : ∀ u, (∀ q, .attached u q ∉ new) → AttachedBefore v v' u)
    (htables : ∀ u n s, v.subscriptionStore u = some n → n.session = some s → TablesBefore v s →
      TablesBefore v' s) : RequestsServed host v' := by
  refine ⟨?_, ?_⟩
  · intro after x before u hsplit hx
    rw [hlog] at hsplit
    obtain ⟨older, hnew', rfl⟩ | ⟨after', -, hold'⟩ := log_split hsplit
    · exact (hnew after x older u hnew' hx).1
    · exact h.carried after' x before u hold' hx
  · intro after x before u n' s hsplit hx hattached hn' hs
    rw [hlog] at hsplit
    obtain ⟨older, hnew', rfl⟩ | ⟨after', rfl, hold'⟩ := log_split hsplit
    · exact (hnew after x older u hnew' hx).2 n' s hn' hs
    · have hquiet : ∀ q, .attached u q ∉ new ∧ .attached u q ∉ after' := fun q =>
        ⟨fun hq => hattached q (List.mem_append_left _ hq),
          fun hq => hattached q (List.mem_append_right _ hq)⟩
      obtain ⟨n, hn, hs'⟩ := hold u (fun q => (hquiet q).1) n' s hn' hs
      exact htables u n s hn hs'
        (h.tables after' x before u n s hold' hx (fun q => (hquiet q).2) hn hs')

/-! ## Requests of a push -/

theorem mem_members_of_firstSubscription {x : MbsSession} (h : firstSubscription x = some u) :
    u ∈ members x := by
  unfold firstSubscription at h
  rw [members]
  split at h
  · rename_i q us hnew
    obtain rfl := Option.some.inj h
    simp [hnew]
  · obtain ⟨⟨k, q⟩, hhead, rfl⟩ := Option.map_eq_some_iff.1 h
    exact List.mem_append_left _
      (List.mem_append_right _ (List.mem_map_of_mem (List.mem_of_mem_head? hhead)))

/-- What the condition says about a request of a push. -/
theorem served_of_requestFor {x : MbsSession} {d : PushDecision} {y : Xact}
    (hgood : NotificationsServed host w e) (hcall : PushCall w e v s)
    (hx : v.sessionStore s = some x) (hd : pushDecision v x = .ok d) (older : List Observation)
    (h : RequestFor v x d y.request u) :
    u ∈ members x ∧ TablesBefore v s ∧
      (notifyUri host u (.sent y :: (older ++ v.log))).isSome = true := by
  rcases h with ⟨hcreation, hembeds, hu⟩ | ⟨hupdate, hu, hnone, n, hn, hchanged⟩
  · obtain ⟨havailable, htables⟩ := hgood.embedded v s x d u hcall hx hd hcreation hembeds
    exact ⟨mem_members_of_firstSubscription hembeds.1, htables, notifyUri_embedded havailable hu⟩
  · obtain ⟨huri, htables⟩ := hgood.subscribed v s x d u n hcall hx hd hupdate hu hn hchanged
    refine ⟨?_, htables, ?_⟩
    · exact List.mem_append_left _ (List.mem_append_left _ hu)
    · have hkept : cacheOf host u (.sent y :: (older ++ v.log)) = cacheOf host u v.log := by
        rw [← List.cons_append]
        exact cacheOf_append huri
      rw [notifyUri, hkept]
      exact huri

theorem requestsServed_push (hw : Sound w) (hv : Sound v) (hp : Placed v)
    (hgood : NotificationsServed host w e) (hcall : PushCall w e v s)
    (run : mbsSessionPushChanges v s = .ok v') (h : RequestsServed host v) :
    RequestsServed host v' := by
  have hpart : Part w e v v' := .push hcall run
  have htracks := tracks_mbsSessionPushChanges run
  obtain ⟨x, d, hx, hd, new, hlog, hsays⟩ := says_mbsSessionPushChanges run
  refine h.of_log hlog ?_ (fun u _ => htracks.attachedBefore u) ?_
  · intro newer y older u hnew hrequested
    have hrequest : RequestFor v x d y.request u := by
      have hmem : .sent y ∈ new := by simp [hnew]
      exact hsays _ hmem u hrequested
    obtain ⟨hmem, htables, huri⟩ := served_of_requestFor hgood hcall hx hd older hrequest
    refine ⟨huri, fun n' s' hn' hs' => ?_⟩
    obtain ⟨n, hn, hs⟩ := (containersSound hv.links hp).nowhere s x u hx hmem
    obtain ⟨m, hm, hsession, -⟩ := htracks u n' hn'
    obtain rfl := Option.some.inj (hn.symm.trans hm)
    obtain rfl := Option.some.inj (hs.symm.trans (hsession.symm.trans hs'))
    exact Part.tablesBefore hw hv hpart (by rw [hx]; rfl) htables
  · intro u n q hn hq htables
    obtain ⟨y, hy⟩ := live_of_attached hv.links hp hn hq
    exact Part.tablesBefore hw hv hpart (by rw [hy]; rfl) htables

/-! ## Requests of other parts -/

def NoRequest : Observation → Prop
  | .sent x => requested x.request = none
  | _ => True

theorem noRequest_of_tmgi {o : Observation} (h : TmgiObservation o) : NoRequest o := by
  cases o with
  | sent x =>
      change x.request.isTmgi = true at h
      change requested x.request = none
      cases hx : x.request <;> rw [hx] at h <;> first | rfl | cases h
  | _ => trivial

theorem noRequest_of_add {o : Observation} (h : AddObservation s u o) : NoRequest o := by
  cases o with
  | sent x =>
      obtain ⟨id, hx⟩ := h
      change requested x.request = none
      rw [hx]
      rfl
  | _ => trivial

/-- Only a push requests subscriptions. -/
theorem Part.says (h : Part w e v v') :
    Says NoRequest v v' ∨ ∃ s, PushCall w e v s ∧ mbsSessionPushChanges v s = .ok v' := by
  have tmgi : ∀ {t t' : World}, Extends TmgiObservation t t' → Says NoRequest t t' :=
    fun h => Says.of_extends (h.mono fun _ => noRequest_of_tmgi)
  cases h with
  | tmgi effect => exact .inl (tmgi effect.log)
  | newSession ssm => exact .inl (.of_eq rfl)
  | writeSession live view => exact .inl (.of_eq rfl)
  | markDeleted live => exact .inl (.one (A := NoRequest) (o := .deleteCalled _) trivial rfl)
  | newSubscription unused => exact .inl (.of_eq rfl)
  | setSubscription event => exact .inl (.of_eq rfl)
  | addSubscription event run =>
      exact .inl (.of_extends ((extends_mbsSessionAddSubscription run).mono
        fun _ => noRequest_of_add))
  | removeSubscription event run => exact .inl (.of_extends (extends_mbsSessionRemoveSubscription run))
  | freeSubscription event live unattached => exact .inl (.of_eq rfl)
  | push call run => exact .inr ⟨_, call, run⟩
  | answered event sent => exact .inl (.one (A := NoRequest) (o := .answered _ _) trivial rfl)
  | said event outstanding observation =>
      rename_i n x o
      have ho : NoRequest o := by
        rcases observation with ⟨s, t, rfl⟩ | rfl | ⟨s, cb, result, problem, rfl⟩ <;> trivial
      exact .inl (.one ho rfl)
  | parse event answers request status run =>
      exact .inl (tmgi (valueEffect_nmbsmfMbsSessionParse run).log)
  | left event answers request usable live callback run =>
      refine .inl (.of_extends ((leavingEffect_contextRemoveMbsSession run).log.mono
        fun o ho => ?_))
      cases o with
      | sessionLeft q => trivial
      | _ => exact noRequest_of_tmgi ho

/-- An attachment that is recorded is among what the log grew by. -/
theorem attached_mem_new {new newest : List Observation} (hlog : v'.log = new ++ v.log)
    (hfirst : v'.log = .attached u s :: newest) (hold : v.log.Sublist newest) :
    .attached u s ∈ new := by
  cases new with
  | nil =>
      have hlength := hold.length_le
      have heq := congrArg List.length (hlog.symm.trans hfirst)
      simp only [List.nil_append, List.length_cons] at heq
      omega
  | cons o new =>
      obtain ⟨rfl, -⟩ := List.cons.inj (hlog.symm.trans hfirst)
      exact List.mem_cons_self

theorem Part.requestsServed (hw : Sound w) (hv : Sound v) (hp : Placed v)
    (hgood : NotificationsServed host w e) (hpart : Part w e v v') (h : RequestsServed host v) :
    RequestsServed host v' := by
  obtain ⟨new, hlog, hquiet⟩ | ⟨s, hcall, run⟩ := Part.says hpart
  · refine h.of_log hlog ?_ ?_ ?_
    · intro newer x older u hnew hrequested
      have hmem : .sent x ∈ new := by simp [hnew]
      have hnone : requested x.request = none := hquiet _ hmem
      rw [hnone] at hrequested
      cases hrequested
    · intro u hattached
      obtain hold | ⟨s, newest, hfirst, hold⟩ := Part.attachedBefore hpart u
      · exact hold
      · exact absurd (attached_mem_new hlog hfirst hold) (hattached s)
    · intro u n q hn hq htables
      obtain ⟨y, hy⟩ := live_of_attached hv.links hp hn hq
      exact Part.tablesBefore hw hv hpart (by rw [hy]; rfl) htables
  · exact requestsServed_push hw hv hp hgood hcall run h

/-! ## Runs -/

theorem requestsServed_initial : RequestsServed host World.initial := by
  refine ⟨?_, ?_⟩
  · intro after x before u h
    exact absurd h.symm (by simp [World.initial])
  · intro after x before u n s h
    exact absurd h.symm (by simp [World.initial])

theorem requestsServed_of_run (h : Run (NotificationsServed host) w) :
    Placed w ∧ RequestsServed host w :=
  run_invariant (fun w => Placed w ∧ RequestsServed host w) ⟨placed_initial, requestsServed_initial⟩
    (fun _ _ _ _ _ hw hgood hparts _ hv hpart =>
      have hsound := hw.of_parts hparts
      ⟨Part.placed hw hsound.links hv.1 hpart,
        Part.requestsServed hw hsound hv.1 hgood hpart hv.2⟩) h

/-! ## Dispatch -/

/-- A session of the context and where it stands. -/
theorem contextSessions_split {before after : List MbsSession} {x : MbsSession}
    (h : contextSessions w = before ++ x :: after) :
    ∃ earlier q later, w.mbsSessions = earlier ++ q :: later ∧ w.sessionStore q = some x ∧
      before = earlier.filterMap w.sessionStore := by
  obtain ⟨earlier, rest, hsplit, hbefore, hrest⟩ := List.filterMap_eq_append_iff.1 h
  obtain ⟨skipped, q, later, rfl, hskipped, hq, -⟩ := List.filterMap_eq_cons_iff.1 hrest
  refine ⟨earlier ++ skipped, q, later, by rw [hsplit, List.append_assoc], hq, ?_⟩
  have hnone : skipped.filterMap w.sessionStore = [] := List.filterMap_eq_nil_iff.2 hskipped
  have hall : (earlier ++ skipped).filterMap w.sessionStore = before ++ [] :=
    List.filterMap_append.trans (congrArg₂ (· ++ ·) hbefore hnone)
  exact (hall.trans (List.append_nil before)).symm

theorem held_of_mem {qs : List Ref} {y : MbsSession} (hs : s ∈ qs)
    (hy : w.sessionStore s = some y) (hu : u ∈ y.newSubscriptions ∨ u ∈ y.active.map Prod.snd) :
    Held (qs.filterMap w.sessionStore) u :=
  ⟨y, List.mem_filterMap.2 ⟨s, hs, hy⟩, hu⟩

/-- The search passes no session without a table before it meets a subscription that is
addressed. -/
theorem tablesWhereRead_of_tablesBefore {parseUrl : String → Option (Option String)}
    {cache : Ref → Option SubscriptionCache} {server : Ref} {path : Option String}
    {y : MbsSession} (hs : s ∈ w.mbsSessions) (hy : w.sessionStore s = some y)
    (hu : u ∈ y.newSubscriptions ∨ u ∈ y.active.map Prod.snd)
    (haddressed : AddressedBy parseUrl cache server path u) (htables : TablesBefore w s) :
    TablesWhereRead parseUrl cache server path (contextSessions w) := by
  intro before x after hsplit hnone
  obtain ⟨earlier, q, later, hsessions, hq, rfl⟩ := contextSessions_split hsplit
  rw [hsessions, List.mem_append, List.mem_cons] at hs
  rcases hs with hs | rfl | hs
  · exact .inl ⟨u, held_of_mem hs hy hu, haddressed⟩
  · obtain rfl := Option.some.inj (hq.symm.trans hy)
    rw [MbsSession.active, hnone] at hu
    exact .inr ⟨u, hu.resolve_right (by simp), haddressed⟩
  · have hsub : List.Sublist [q, s] w.mbsSessions := by
      rw [hsessions]
      exact (List.Sublist.cons_cons q (List.singleton_sublist.2 hs)).trans
        (List.sublist_append_right earlier _)
    obtain ⟨z, hz, htable⟩ := htables q hsub
    obtain rfl := Option.some.inj (hq.symm.trans hz)
    rw [hnone] at htable
    cases htable

theorem subscriptionsNotified_of_served (hlaw : host.Lawful) (hw : Sound w) (hp : Placed w)
    (h : RequestsServed host w) : SubscriptionsNotified host w := by
  refine ⟨h.carried, ?_⟩
  intro after x before u uri n s y hsplit hx huri hattached hn hs hy hdeleted
  have hcache : (cacheOf host u w.log).notifUrl = some uri := by
    have hsome : (cacheOf host u (.sent x :: before)).notifUrl.isSome = true := by
      rw [← notifyUri, huri]
      rfl
    rw [hsplit, cacheOf_append hsome]
    exact huri
  have haddressed := addressedBy_iff hlaw hw.xacts.nodup hcache
  have hu : u ∈ y.newSubscriptions ∨ u ∈ y.active.map Prod.snd := by
    have hcount := count_members hw.links hp hn hs hy
    have hmem : u ∈ members y := List.count_pos_iff.1 (by omega)
    rw [members, List.mem_append, List.mem_append] at hmem
    exact hmem.resolve_right hdeleted
  have hmem : s ∈ w.mbsSessions := (hw.live s).2 (by rw [hy]; rfl)
  have htables := tablesWhereRead_of_tablesBefore hmem hy hu ((haddressed u).2 rfl)
    (h.tables after x before u n s hsplit hx hattached hn hs)
  obtain ⟨-, r, hfind, hsome, hnone⟩ | ⟨hmissing, -⟩ :=
    findSubscription_spec host.parseUrl (subscriptionCache host w.log) (host.arrival uri).1
      (some (host.arrival uri).2) (contextSessions w)
  · cases r with
    | none => exact absurd ((haddressed u).2 rfl) (hnone rfl u (held_of_mem hmem hy hu))
    | some v =>
        obtain rfl := (haddressed v).1 (hsome v rfl).2
        exact hfind
  · exact absurd htables hmissing

/-- While the condition holds, every subscription that the MB-SMF accepts can be notified. -/
theorem subscriptions_notified (hlaw : host.Lawful) (h : Run (NotificationsServed host) w) :
    SubscriptionsNotified host w :=
  subscriptionsNotified_of_served hlaw (sound_of_run h) (requestsServed_of_run h).1
    (requestsServed_of_run h).2

/-! ## Two runs -/

/-- A subscription that is added to a session which exists already is requested without a URI. -/
theorem later_subscription_carries_no_uri :
    localHost.Lawful ∧ localHost.Available ∧
      ¬ ∀ w, Reachable step World.initial w → SubscriptionsNotified localHost w := by
  refine ⟨localHost_lawful, localHost_available, fun h => ?_⟩
  have hsent : ((requestedState 7).log.head?.bind sentXact).map (fun x => requested x.request) =
      some (some 4) := by decide +kernel
  have huri : (cacheOf localHost 4 (requestedState 7).log).notifUrl = none := by decide +kernel
  have hcarried := (h _ (Reachable.of_events (requestedRun.take 7))).carried
  change ∀ after x before u, (requestedState 7).log = after ++ .sent x :: before → _ at hcarried
  generalize requestedState 7 = w at hsent huri hcarried
  cases hlog : w.log with
  | nil =>
      rw [hlog] at hsent
      cases hsent
  | cons o before =>
      rw [hlog] at hsent huri
      cases o with
      | sent x =>
          have huri' := hcarried [] x before 4 hlog (Option.some.inj hsent)
          rw [notifyUri, huri] at huri'
          cases huri'
      | _ => cases hsent

/-- The first subscription of a session is embedded in the request that creates it. -/
def firstSubscriptionRun : List Event :=
  [.session (.newIpv4 none none),
   .session (.edit 1 { tmgiReq := false }),
   .subscription (.new 0 1 none 0),
   .subscription (.add 1 2),
   .session (.pushChanges 1)]

def firstSubscriptionState : World := firstSubscriptionRun.foldl (advance step) World.initial

theorem NotificationsServed.of_no_push (hcontainers : ContainersRespected w e)
    (hpush : ∀ v s, ¬ PushCall w e v s) : NotificationsServed host w e :=
  ⟨hcontainers.toLinkedOnce, fun v s _ _ _ hcall => absurd hcall (hpush v s),
    fun v s _ _ _ _ hcall => absurd hcall (hpush v s)⟩

theorem NotificationsServed.of_creation (havailable : host.Available)
    (hone : w.mbsSessions = [s])
    (hdecision : (w.sessionStore s).map (fun x => (pushDecision w x).toOption) =
      some (some .create)) : NotificationsServed host w (.session (.pushChanges s)) := by
  refine ⟨ContainersRespected.of_session.toLinkedOnce, ?_, ?_⟩
  · intro v q x d u hcall hx hd hcreation hembeds
    cases hcall
    refine ⟨havailable, fun r hr => ?_⟩
    rw [hone] at hr
    exact absurd hr.length_le (by simp)
  · intro v q x d u n hcall hx hd hupdate
    cases hcall
    rw [hx, Option.map_some, hd, Option.some.injEq] at hdecision
    obtain rfl := Option.some.inj hdecision
    exact hupdate.elim (fun h => by cases h) fun h => by cases h

theorem firstSubscription_served : Run (NotificationsServed localHost) firstSubscriptionState := by
  refine Reach.of_goodFrom firstSubscriptionRun .init ⟨?_, ?_, ?_, ?_, ?_, trivial⟩
  · exact .of_no_push .of_session fun v s h => by cases h
  · exact .of_no_push .of_session fun v s h => by cases h
  · exact .of_no_push .of_new fun v s h => by cases h
  · exact .of_no_push (.of_unlinked (by decide +kernel)) fun v s h => by cases h
  · exact .of_creation localHost_available (by decide +kernel) (by decide +kernel)

/-- After that run a request to the URI that the create request carried reaches the
subscription. -/
theorem first_subscription_is_notified : SubscriptionsNotified localHost firstSubscriptionState ∧
    (cacheOf localHost 2 firstSubscriptionState.log).notifUrl =
      some "http://localhost:4/mbs-session-notify/v1/notification" :=
  ⟨subscriptions_notified localHost_lawful firstSubscription_served, by decide +kernel⟩

end ServiceConsumers.SubscriptionNotifications
