import ServiceConsumers.ForeignPatches
import ServiceConsumers.PushEffects
import ServiceConsumers.UpdatableAttributes

set_option autoImplicit false

/-!
# Updates of status subscriptions

A changed subscription is updated with a PATCH at the next push of its session. What that PATCH
makes of the subscription at the MB-SMF is compared with what the setters were told.
-/

namespace ServiceConsumers.SubscriptionUpdates

open ObjectStore KeyedTable JsonDocuments PatchLists ServiceAreas ExternalServiceAreas
  MediaComponents PublicSessions ConsumerState SubscriptionOperations SessionOperations
  TransitionRuns TransactionLog SessionEffects PushEffects UpdatableAttributes UnorderedArrays
  ForeignPatches

variable {w w' v v' : World} {s u : Ref} {x : MbsSession} {n : StatusSubscription}

/-! ## The subscription's document -/

/-- What a subscription's document says beside the subscription: how the session is named, the
library's URI and instance, and `ogs_sbi_gmtime_string`. -/
structure SubscriptionFrame where
  mbsSessionId : Json
  notifyUri : Option String := none
  nfcInstanceId : Option String := none
  gmtimeString : ℤ → String

/-- The event types in the order of the source, with the bit of each. -/
def eventTypes : List (BitVec 32 × String) :=
  [(1#32, "MBS_REL_TMGI_EXPIRY"), (2#32, "BROADCAST_DELIVERY_STATUS"),
   (4#32, "INGRESS_TUNNEL_ADD_CHANGE")]

def eventToJson (name : String) : Json := .obj (Members.ofList [("eventType", some (.str name))])

def eventList (flags : BitVec 32) : Option Json :=
  match eventTypes.filter fun e => flags &&& e.1 ≠ 0 with
  | [] => none
  | es => some (.arr (es.map fun e => eventToJson e.2))

/-- The subscription of `_nmbsmf_mbs_session_build_status_subscription_create`. -/
def subscriptionMembers (f : SubscriptionFrame) (b : SubscriptionBody) : Members :=
  Members.ofList
    [("mbsSessionId", some f.mbsSessionId),
     ("areaSessionId", if b.areaSessionId ≠ 0 then some (.num b.areaSessionId) else none),
     ("eventList", eventList b.flags),
     ("notifyUri", f.notifyUri.map .str),
     ("notifyCorrelationId", b.correlationId.map .str),
     ("expiryTime", if b.expiryTime ≠ 0 then some (.str (f.gmtimeString b.expiryTime)) else none),
     ("nfcInstanceId", f.nfcInstanceId.map .str)]

def subscriptionToJson (f : SubscriptionFrame) (b : SubscriptionBody) : Json :=
  .obj (subscriptionMembers f b)

/-! ## What is to hold -/

/-- Between the two states a PATCH of `u` was sent. -/
def PatchSent (u : Ref) (w w' : World) (id : Option String) (patches : List PatchItem) : Prop :=
  ∃ new x, w'.log = new ++ w.log ∧ .sent x ∈ new ∧ x.request = .subscriptionUpdate u id patches

/-- The subscription is in the active table of its session, and is not a new one. -/
structure Established (w : World) (s u : Ref) (x : MbsSession) (n : StatusSubscription) : Prop where
  session : w.sessionStore s = some x
  subscription : w.subscriptionStore u = some n
  belongs : n.session = some s
  active : u ∈ x.active.map Prod.snd
  settled : u ∉ x.newSubscriptions

/-- The push goes on to the subscriptions of the session. -/
def VisitsSubscriptions (w : World) (x : MbsSession) : Prop :=
  pushDecision w x = .ok .update ∨ pushDecision w x = .ok .unchanged

/-- A sequence of setter calls on one subscription. -/
def applySettings (w : World) (u : Ref) (settings : List SubscriptionSetting) : Except Fault World :=
  settings.foldlM (fun w setting => subscriptionStep w (.set u setting)) w

/-- From `w` over `v`, where the setters are done, to `w'`, after the push. The PATCH turns what
the MB-SMF accepted into what the application sees; a change is followed by one; and a
subscription without a change by none. -/
structure UpdateConveyed (f : SubscriptionFrame) (accepted : SubscriptionBody) (s u : Ref)
    (w v w' : World) : Prop where
  applied : ∀ id patches n, v.subscriptionStore u = some n → PatchSent u v w' id patches →
    applyPatch (subscriptionToJson f accepted) patches =
      some (subscriptionToJson f (subscriptionBody n))
  noticed : ∀ x n₀ n, v.sessionStore s = some x → w.subscriptionStore u = some n₀ →
    v.subscriptionStore u = some n → subscriptionBody n ≠ subscriptionBody n₀ →
    VisitsSubscriptions v x → ∃ patches, PatchSent u v w' n.id patches
  untouched : ∀ n, v.subscriptionStore u = some n → n.changed = false →
    ∀ id patches, ¬ PatchSent u v w' id patches

/-- The session has not changed in any attribute that its own update carries. -/
def NoDifference (x : MbsSession) : Prop :=
  ∀ previous, x.previousSession = some previous → SameUpdatable previous x.session

/-- Where a PATCH is due, the session has no difference for it to carry, and the subscription is
still encoded as it was accepted. -/
def NothingToConvey (f : SubscriptionFrame) (accepted : SubscriptionBody) (s u : Ref)
    (v : World) : Prop :=
  ∀ x n, v.sessionStore s = some x → v.subscriptionStore u = some n → n.changed = true →
    VisitsSubscriptions v x → NoDifference x ∧
      subscriptionToJson f accepted = subscriptionToJson f (subscriptionBody n)

/-! ## The patches of a session -/

section SessionPatches

variable {α τ : Type} {items dst out : List PatchItem} {toJson : α → Option Json}

/-- The operations of one differ: a single one on the whole, or all on its members. -/
def Rooted (items : List PatchItem) : Prop :=
  (∃ op v, items = [⟨op, [], v⟩]) ∨ ∀ p ∈ items, p.path ≠ []

theorem mem_of_mapM_copy {src : List PatchItem} {place : Pointer}
    (h : (src.mapM fun item => jsonPatchNewCopyWithPrefix item place) = some items) :
    ∀ p ∈ items, ∃ q ∈ src, p.op = q.op ∧ p.path = place ++ q.path := by
  obtain ⟨-, rfl⟩ := CarriedPatches.mapM_copy_iff.1 h
  intro p hp
  obtain ⟨q, hq, rfl⟩ := List.mem_map.1 hp
  exact ⟨q, hq, rfl, rfl⟩

theorem appendPatches_eq_some {src : Option (List PatchItem)} {place : Pointer}
    (h : appendPatches dst src place = some out) : ∃ new items, src = some new ∧
      (new.mapM fun item => jsonPatchNewCopyWithPrefix item place) = some items ∧
      out = dst ++ items := by
  simp only [appendPatches, jsonPatchesAppendList, Option.bind_eq_some_iff,
    Option.map_eq_some_iff] at h
  obtain ⟨new, hnew, items, hitems, rfl⟩ := h
  exact ⟨new, items, hnew, hitems, rfl⟩

/-- What a differ says of a member is a segment for it. -/
theorem appendPatches_segment {src : Option (List PatchItem)} {k : String}
    (h : appendPatches dst src [.key k] = some out)
    (hrooted : ∀ new, src = some new → Rooted new) : ∃ seg, out = dst ++ seg ∧ Segment k seg := by
  obtain ⟨new, items, hnew, hitems, rfl⟩ := appendPatches_eq_some h
  refine ⟨items, rfl, ?_⟩
  rcases hrooted new hnew with ⟨op, v, rfl⟩ | hpaths
  · cases v with
    | none => cases hitems
    | some j =>
        obtain rfl := Option.some.inj hitems
        exact .inl ⟨op, some j, rfl⟩
  · refine .inr fun p hp => ?_
    obtain ⟨q, hq, -, hpath⟩ := mem_of_mapM_copy hitems p hp
    obtain ⟨t, ts, hts⟩ := List.exists_cons_of_ne_nil (hpaths q hq)
    exact ⟨t, ts, by rw [hpath, hts]; rfl⟩

/-- A differ that goes on from operations on members adds only operations on members. -/
theorem appendPatches_paths {src : Option (List PatchItem)} {t : Token} {ts : Pointer}
    (h : appendPatches dst src (t :: ts) = some out) (hdst : ∀ p ∈ dst, p.path ≠ []) :
    ∀ p ∈ out, p.path ≠ [] := by
  obtain ⟨new, items, -, hitems, rfl⟩ := appendPatches_eq_some h
  intro p hp
  rcases List.mem_append.1 hp with hp | hp
  · exact hdst p hp
  · obtain ⟨q, -, -, hpath⟩ := mem_of_mapM_copy hitems p hp
    simp [hpath]

theorem rooted_structurePatchList {members : α → α → Option (List PatchItem)}
    (hmembers : ∀ x y items, members x y = some items → ∀ p ∈ items, p.path ≠ [])
    {a b : Option α} (h : structurePatchList toJson members a b = some items) : Rooted items := by
  cases a with
  | none =>
      cases b with
      | none =>
          obtain rfl := Option.some.inj h
          exact .inr nofun
      | some y =>
          obtain rfl := Option.some.inj h
          exact .inl ⟨.add, toJson y, rfl⟩
  | some x =>
      cases b with
      | none =>
          obtain rfl := Option.some.inj h
          exact .inl ⟨.remove, none, rfl⟩
      | some y => exact .inr (hmembers x y items h)

theorem walkPatchList_paths {addAt : ℕ → Token} {change : ℕ → α → α → Option (List PatchItem)}
    (hchange : ∀ idx x y items, change idx x y = some items → ∀ p ∈ items, p.path ≠ [])
    {idx : ℕ} {a b : List α} (h : walkPatchList addAt toJson change idx a b = some items) :
    ∀ p ∈ items, p.path ≠ [] := by
  induction idx, a, b using walkPatchList.induct generalizing items with
  | case1 idx =>
      rw [walkPatchList, Option.some.injEq] at h
      subst h
      exact List.forall_mem_nil _
  | case2 idx y ys ih =>
      simp only [walkPatchList, Option.map_eq_some_iff] at h
      obtain ⟨rest, hrest, rfl⟩ := h
      exact List.forall_mem_cons.2 ⟨List.cons_ne_nil _ _, ih hrest⟩
  | case3 idx x xs ih =>
      simp only [walkPatchList, Option.map_eq_some_iff] at h
      obtain ⟨rest, hrest, rfl⟩ := h
      exact List.forall_mem_cons.2 ⟨List.cons_ne_nil _ _, ih hrest⟩
  | case4 idx x xs y ys ih =>
      simp only [walkPatchList, Option.bind_eq_some_iff, Option.map_eq_some_iff] at h
      obtain ⟨first, hfirst, rest, hrest, rfl⟩ := h
      exact List.forall_mem_append.2 ⟨hchange idx x y first hfirst, ih hrest⟩

theorem rooted_mbsFsaIdsPatchList {a b : List ℕ} (h : mbsFsaIdsPatchList a b = some items) :
    Rooted items := by
  unfold mbsFsaIdsPatchList indexPatchList at h
  split at h
  · obtain rfl := Option.some.inj h
    exact .inr nofun
  · obtain rfl := Option.some.inj h
    exact .inl ⟨.add, _, rfl⟩
  · obtain rfl := Option.some.inj h
    exact .inl ⟨.remove, none, rfl⟩
  · refine .inr (walkPatchList_paths (fun idx x y items hitems => ?_) h)
    unfold replaceUnlessEqual at hitems
    obtain rfl := Option.some.inj hitems
    split
    · exact nofun
    · exact List.forall_mem_singleton.2 (List.cons_ne_nil _ _)

theorem rooted_mbsServiceAreaPatchList {a b : Option MbsServiceArea}
    (h : mbsServiceAreaPatchList a b = some items) : Rooted items := by
  refine rooted_structurePatchList (fun x y items hitems => ?_) h
  simp only [bind, Option.bind_eq_some_iff] at hitems
  obtain ⟨first, hfirst, hitems⟩ := hitems
  exact appendPatches_paths hitems (appendPatches_paths hfirst nofun)

theorem rooted_extMbsServiceAreaPatchList {a b : Option ExtMbsServiceArea}
    (h : extMbsServiceAreaPatchList a b = some items) : Rooted items := by
  refine rooted_structurePatchList (fun x y items hitems => ?_) h
  simp only [bind, Option.bind_eq_some_iff] at hitems
  obtain ⟨first, hfirst, hitems⟩ := hitems
  exact appendPatches_paths hitems (appendPatches_paths hfirst nofun)

theorem optionalPatch_paths [DecidableEq α] (name : String) (toJson : α → Json)
    (a b : Option α) :
    ∀ p ∈ optionalPatch name toJson a b, p.path ≠ [] := by
  unfold optionalPatch
  split
  · exact nofun
  · exact List.forall_mem_singleton.2 (List.cons_ne_nil _ _)
  · exact List.forall_mem_singleton.2 (List.cons_ne_nil _ _)
  · split
    · exact nofun
    · exact List.forall_mem_singleton.2 (List.cons_ne_nil _ _)

theorem afAppIdPatch_paths (a b : Option String) : ∀ p ∈ afAppIdPatch a b, p.path ≠ [] := by
  unfold afAppIdPatch
  split
  · exact nofun
  · exact List.forall_mem_singleton.2 (List.cons_ne_nil _ _)
  · exact List.forall_mem_singleton.2 (List.cons_ne_nil _ _)
  · exact List.forall_mem_singleton.2 (List.cons_ne_nil _ _)

theorem rooted_mbsServiceInfoPatchList {a b : Option MbsServiceInfo}
    (h : mbsServiceInfoPatchList a b = some items) : Rooted items := by
  refine rooted_structurePatchList (fun x y items hitems => ?_) h
  rw [Option.map_eq_some_iff] at hitems
  obtain ⟨comps, hcomps, rfl⟩ := hitems
  have hfirst := appendPatches_paths hcomps nofun
  have hprio := optionalPatch_paths "mbsSdfResPrio" reservePriorityToJson
    (reservePriority x.mbsSdfReservePriority) (reservePriority y.mbsSdfReservePriority)
  have happ := afAppIdPatch_paths x.afAppId y.afAppId
  have hambr := optionalPatch_paths "mbsSessionAmbr" bitrateToJson
    x.mbsSessionAmbr y.mbsSessionAmbr
  exact List.forall_mem_append.2
    ⟨List.forall_mem_append.2 ⟨List.forall_mem_append.2 ⟨hfirst, hprio⟩, happ⟩, hambr⟩

/-- The members of a session that its differ covers. -/
def sessionMembers : List String :=
  ["contactPcfInd", "mbsServiceArea", "extMbsServiceArea", "mbsServInfo", "mbsFsaIdList",
   "activityStatus"]

theorem segment_contactPcfInd (a b : Bool) :
    Segment "contactPcfInd" (requiredPatch "contactPcfInd" .bool a b) := by
  unfold requiredPatch
  split
  · exact .inr nofun
  · exact .inl ⟨.replace, _, rfl⟩

theorem segment_activityStatus (a b : ActivityStatus) :
    Segment "activityStatus" (activityStatusPatch a b) := by
  unfold activityStatusPatch
  split
  · exact .inr nofun
  · split
    · exact .inl ⟨.add, _, rfl⟩
    · split
      · exact .inl ⟨.remove, none, rfl⟩
      · exact .inl ⟨.replace, _, rfl⟩

/-- The patches of a session are segments, one for each member. -/
theorem publicPatchList_segments {a b : PublicSession τ} (h : publicPatchList a b = some out) :
    ∃ segments : List (String × List PatchItem), out = segments.flatMap Prod.snd ∧
      (segments.map Prod.fst).Nodup ∧ ∀ p ∈ segments, p.1 ∈ sessionMembers ∧ Segment p.1 p.2 := by
  simp only [publicPatchList, bind, Option.bind_eq_some_iff] at h
  obtain ⟨patches₁, h₁, patches₂, h₂, patches₃, h₃, h⟩ := h
  obtain ⟨area, rfl, harea⟩ := appendPatches_segment h₁ fun _ => rooted_mbsServiceAreaPatchList
  obtain ⟨ext, rfl, hext⟩ := appendPatches_segment h₂ fun _ => rooted_extMbsServiceAreaPatchList
  obtain ⟨info, rfl, hinfo⟩ := appendPatches_segment h₃ fun _ => rooted_mbsServiceInfoPatchList
  have hcontact := segment_contactPcfInd a.contactPcfInd b.contactPcfInd
  have hlast : ∃ k seg, (k = "mbsFsaIdList" ∨ k = "activityStatus") ∧ Segment k seg ∧
      out = requiredPatch "contactPcfInd" .bool a.contactPcfInd b.contactPcfInd ++ area ++ ext ++
        info ++ seg := by
    split at h
    · obtain ⟨seg, rfl, hseg⟩ := appendPatches_segment h fun _ => rooted_mbsFsaIdsPatchList
      exact ⟨_, seg, .inl rfl, hseg, rfl⟩
    · exact ⟨_, _, .inr rfl, segment_activityStatus a.activityStatus b.activityStatus,
        (Option.some.inj h).symm⟩
  obtain ⟨k, seg, hk, hseg, rfl⟩ := hlast
  refine ⟨[("contactPcfInd", requiredPatch "contactPcfInd" .bool a.contactPcfInd b.contactPcfInd),
    ("mbsServiceArea", area), ("extMbsServiceArea", ext), ("mbsServInfo", info), (k, seg)],
    ?_, ?_, ?_⟩
  · simp only [List.flatMap_cons, List.flatMap_nil, List.append_nil, List.append_assoc]
  · simp only [List.map_cons, List.map_nil]
    rcases hk with rfl | rfl <;> decide
  · simp only [List.forall_mem_cons, List.not_mem_nil, false_implies, implies_true, and_true]
    refine ⟨⟨by decide, hcontact⟩, ⟨by decide, harea⟩, ⟨by decide, hext⟩, ⟨by decide, hinfo⟩, ?_,
      hseg⟩
    rcases hk with rfl | rfl <;> decide

end SessionPatches

theorem mbsSessionPatchList_eq_nil : mbsSessionPatchList x = .ok [] ↔ NoDifference x := by
  unfold mbsSessionPatchList NoDifference
  cases hprevious : x.previousSession with
  | none =>
      constructor
      · intro _ previous h
        cases h
      · intro _
        rfl
  | some previous =>
      simp only [Option.some.injEq, forall_eq']
      rw [← publicPatchList_eq_nil]
      cases publicPatchList previous x.session with
      | none => simp
      | some patches => simp

/-- A subscription has none of the members of a session that are patched. -/
theorem lookup_subscriptionMembers {k : String} (hk : k ∈ sessionMembers) (f : SubscriptionFrame)
    (b : SubscriptionBody) : Members.lookup k (subscriptionMembers f b) = none := by
  refine lookup_ofList_eq_none ?_
  have hdisjoint : ∀ k ∈ sessionMembers, k ∉ ["mbsSessionId", "areaSessionId", "eventList",
      "notifyUri", "notifyCorrelationId", "expiryTime", "nfcInstanceId"] := by decide
  exact hdisjoint k hk

/-- The patches of a session make nothing else of a subscription. -/
theorem applyPatch_sessionPatchList {f : SubscriptionFrame} {a b : SubscriptionBody}
    {patches : List PatchItem} (h : mbsSessionPatchList x = .ok patches) :
    applyPatch (subscriptionToJson f a) patches = some (subscriptionToJson f b) ↔
      patches = [] ∧ subscriptionToJson f a = subscriptionToJson f b := by
  have hsegments : ∃ segments : List (String × List PatchItem),
      patches = segments.flatMap Prod.snd ∧ (segments.map Prod.fst).Nodup ∧
        ∀ p ∈ segments, p.1 ∈ sessionMembers ∧ Segment p.1 p.2 := by
    unfold mbsSessionPatchList at h
    split at h
    · obtain rfl := Except.ok.inj h
      exact ⟨[], rfl, List.nodup_nil, nofun⟩
    · split at h
      · cases h
      · rename_i hpatches
        obtain rfl := Except.ok.inj h
        exact publicPatchList_segments hpatches
  obtain ⟨segments, rfl, hnames, hseg⟩ := hsegments
  rw [subscriptionToJson, subscriptionToJson, Json.obj.injEq]
  exact applyPatch_segments_eq hnames (fun p hp => (hseg p hp).2)
    (fun p hp => lookup_subscriptionMembers (hseg p hp).1 f a)
    (fun p hp => lookup_subscriptionMembers (hseg p hp).1 f b)

/-! ## The setters -/

theorem applySettings_eq_ok {settings : List SubscriptionSetting}
    (h : applySettings w u settings = .ok v) :
    v.sessionStore = w.sessionStore ∧ ∀ n₀, w.subscriptionStore u = some n₀ →
      ∃ n, v.subscriptionStore u = some n ∧ n.session = n₀.session ∧
        (subscriptionBody n ≠ subscriptionBody n₀ → n.changed = true) := by
  refine foldlM_ok_induction (fun _ v => v.sessionStore = w.sessionStore ∧
    ∀ n₀, w.subscriptionStore u = some n₀ → ∃ n, v.subscriptionStore u = some n ∧
      n.session = n₀.session ∧ (subscriptionBody n ≠ subscriptionBody n₀ → n.changed = true))
    ?_ settings w v ⟨rfl, fun n₀ hn₀ => ⟨n₀, hn₀, rfl, fun hne => absurd rfl hne⟩⟩ h
  intro setting rest t t' ⟨hstore, hsub⟩ hset
  simp only [subscriptionStep, bind_eq_ok, World.subscriptionAt_eq_ok, Except.ok.injEq] at hset
  obtain ⟨-, -, rfl⟩ := hset
  refine ⟨hstore, fun n₀ hn₀ => ?_⟩
  obtain ⟨n, hn, hsession, hchanged⟩ := hsub n₀ hn₀
  refine ⟨mbsStatusSubscriptionSet setting n, by simp [hn], ?_, ?_⟩
  · unfold mbsStatusSubscriptionSet
    split
    · exact hsession
    · rw [← hsession]
      cases setting <;> rfl
  · unfold mbsStatusSubscriptionSet
    split
    · exact hchanged
    · exact fun _ => rfl

/-! ## What a push sends -/

theorem PatchSent.of_log {id : Option String} {patches : List PatchItem}
    (h : PatchSent u w v id patches) (hlog : ∃ new, w'.log = new ++ v.log) :
    PatchSent u w w' id patches := by
  obtain ⟨old, x, hold, hx, hrequest⟩ := h
  obtain ⟨new, hnew⟩ := hlog
  exact ⟨new ++ old, x, by rw [hnew, hold, List.append_assoc],
    List.mem_append_right new hx, hrequest⟩

/-- What is sent between two states satisfies what the log grew by. -/
theorem PatchSent.satisfies {A : Observation → Prop} {id : Option String}
    {patches : List PatchItem} (h : PatchSent u w w' id patches) (hlog : Extends A w w') :
    ∃ x, A (.sent x) ∧ x.request = .subscriptionUpdate u id patches := by
  obtain ⟨new, x, hnew, hx, hrequest⟩ := h
  obtain ⟨⟨new', hnew', hA, -⟩, -⟩ := hlog
  obtain rfl := List.append_cancel_right (hnew.symm.trans hnew')
  exact ⟨x, hA _ hx, hrequest⟩

/-- An update of `u` is one that its change made due, and carries the session's patches. -/
def UpdateOf (u : Ref) (x : MbsSession) (n : StatusSubscription) : Observation → Prop
  | .sent xact => ∀ id patches, xact.request = .subscriptionUpdate u id patches →
      n.changed = true ∧ mbsSessionPatchList x = .ok patches
  | _ => True

/-- The subscription is still the one of before, perhaps with its change sent. -/
def Calmer (n m : StatusSubscription) : Prop :=
  m.session = n.session ∧ (m.changed = true → n.changed = true)

theorem calmer_modifySubscription {t : Ref} {f : StatusSubscription → StatusSubscription}
    (hf : ∀ m, Calmer n m → Calmer n (f m))
    (h : ∀ m, v.subscriptionStore u = some m → Calmer n m) :
    ∀ m, (v.modifySubscription t f).subscriptionStore u = some m → Calmer n m := by
  intro m hm
  by_cases hu : u = t
  · subst hu
    change (v.subscriptionStore.modify u f) u = some m at hm
    rw [Store.modify_self, Option.map_eq_some_iff] at hm
    obtain ⟨m', hm', rfl⟩ := hm
    exact hf m' (h m' hm')
  · change (v.subscriptionStore.modify t f) u = some m at hm
    rw [Store.modify_of_ne _ _ _ hu] at hm
    exact h m hm

theorem calmer_unchanged {m : StatusSubscription} (h : Calmer n m) :
    Calmer n { m with changed := false } :=
  ⟨h.1, fun hc => by cases hc⟩

/-- The updates of `u` among what the loops over the subscriptions send. -/
theorem extends_mbsSessionSubscriptionsUpdate (hx : w.sessionStore s = some x)
    (hn : w.subscriptionStore u = some n) (hs : n.session = some s)
    (h : mbsSessionSubscriptionsUpdate w s = .ok w') : Extends (UpdateOf u x n) w w' := by
  refine (mbsSessionSubscriptionsUpdate_induction (fun v => Extends (UpdateOf u x n) w v ∧
    ∀ m, v.subscriptionStore u = some m → Calmer n m) hx ?_ ?_ ?_
    ⟨Extends.refl w, fun m hm => ?_⟩ h).1
  · rintro t - v v' - ⟨hlog, hcalm⟩ hrun
    obtain ⟨m, v₁, -, hsend, rfl⟩ := updateNewSubscription_eq_ok hrun
    have heffect : SendEffect (UpdateOf u x n) v v₁ := by
      split at hsend
      · refine sendEffect_mbsStatusSubscriptionSend (fun _ _ _ _ _ _ _ _ _ hr => ?_) hsend
        rw [buildStatusSubscriptionCreate_eq_ok hr]
        exact nofun
      · obtain rfl := Except.ok.inj hsend
        exact SendEffect.refl _
    refine ⟨(hlog.trans heffect.log).trans (.of_silent rfl (List.Sublist.refl _) (le_refl _)), ?_⟩
    refine calmer_modifySubscription (fun _ => calmer_unchanged) fun m hm => hcalm m ?_
    rwa [heffect.subscriptionStore] at hm
  · rintro t - v v' hstore ⟨hlog, hcalm⟩ hrun
    obtain ⟨m, hm, ⟨-, rfl⟩ | ⟨hchanged, v₁, hsend, rfl⟩⟩ := updateStatusSubscription_eq_ok hrun
    · exact ⟨hlog, hcalm⟩
    have heffect : SendEffect (UpdateOf u x n) v v₁ := by
      refine sendEffect_mbsStatusSubscriptionSend (fun _ _ q y k r hk hq hy hr => ?_) hsend
      obtain ⟨patches, hpatches, rfl⟩ := buildStatusSubscriptionUpdate_eq_ok hr
      intro id patches' hrequest
      rw [Request.subscriptionUpdate.injEq] at hrequest
      obtain ⟨rfl, -, rfl⟩ := hrequest
      obtain rfl := Option.some.inj (hm.symm.trans hk)
      obtain ⟨hsession, hdue⟩ := hcalm m hm
      obtain rfl := Option.some.inj ((hq.symm.trans hsession).trans hs)
      rw [hstore, hx] at hy
      obtain rfl := Option.some.inj hy
      exact ⟨hdue hchanged, hpatches⟩
    refine ⟨(hlog.trans heffect.log).trans (.of_silent rfl (List.Sublist.refl _) (le_refl _)), ?_⟩
    refine calmer_modifySubscription (fun _ => calmer_unchanged) fun m hm => hcalm m ?_
    rwa [heffect.subscriptionStore] at hm
  · rintro t - v v' ⟨hlog, hcalm⟩ hrun
    obtain ⟨v₁, v₂, hsend, hremove, rfl⟩ := removePendingSubscription_eq_ok hrun
    have heffect : SendEffect (UpdateOf u x n) v v₁ := by
      refine sendEffect_mbsStatusSubscriptionSend (fun _ _ _ _ _ _ _ _ _ hr => ?_) hsend
      obtain rfl := Except.ok.inj hr
      exact nofun
    obtain ⟨y, -, -, rfl⟩ := ogsListRemove_eq_ok hremove
    refine ⟨(hlog.trans heffect.log).trans (.of_silent rfl (List.Sublist.refl _) (le_refl _)), ?_⟩
    intro m hm
    change (Store.free _ t) u = some m at hm
    rw [Store.free_apply] at hm
    split at hm
    · cases hm
    · refine calmer_modifySubscription ?_ ?_ m hm
      · exact fun m hcalm => hcalm
      · intro m hm
        change v₁.subscriptionStore u = some m at hm
        rw [heffect.subscriptionStore] at hm
        exact hcalm m hm
  · obtain rfl := Option.some.inj (hn.symm.trans hm)
    exact ⟨rfl, id⟩

/-- A request about a session, which is no update of a subscription. -/
def SessionRequestSent : Observation → Prop
  | .sent xact => IsSessionRequest xact.request
  | _ => False

theorem log_of_extends {A : Observation → Prop} (h : Extends A w w') :
    ∃ new, w'.log = new ++ w.log := by
  obtain ⟨⟨new, hnew, -⟩, -⟩ := h
  exact ⟨new, hnew⟩

theorem log_trans (h : ∃ new, v.log = new ++ w.log) (h' : ∃ new, w'.log = new ++ v.log) :
    ∃ new, w'.log = new ++ w.log := by
  obtain ⟨old, hold⟩ := h
  obtain ⟨new, hnew⟩ := h'
  exact ⟨new ++ old, by rw [hnew, hold, List.append_assoc]⟩

/-- A loop whose items add to the log adds to the log. -/
theorem log_of_foldlM {f : World → Ref → Except Fault World}
    (hf : ∀ t v v', f v t = .ok v' → ∃ new, v'.log = new ++ v.log) {us : List Ref}
    (h : us.foldlM f w = .ok w') : ∃ new, w'.log = new ++ w.log :=
  foldlM_ok_induction (fun _ v => ∃ new, v.log = new ++ w.log)
    (fun t _ _ _ hlog hstep => log_trans hlog (hf t _ _ hstep)) us w w' ⟨[], rfl⟩ h

theorem mbsSessionSendUpdate_stores (h : mbsSessionSendUpdate w s = .ok v) :
    v.sessionStore = w.sessionStore ∧ v.subscriptionStore = w.subscriptionStore ∧
      ∃ new, v.log = new ++ w.log := by
  obtain ⟨y, o, patches, carried, -, -, -, -, rfl⟩ := mbsSessionSendUpdate_eq_ok h
  exact ⟨rfl, rfl, [_], rfl⟩

/-- An update that a push sends was due, and the push went on to the subscriptions. -/
theorem PatchSent.of_push {id : Option String} {patches : List PatchItem}
    (hx : w.sessionStore s = some x) (hn : w.subscriptionStore u = some n)
    (hs : n.session = some s) (h : mbsSessionPushChanges w s = .ok w')
    (hsent : PatchSent u w w' id patches) :
    VisitsSubscriptions w x ∧ n.changed = true ∧ mbsSessionPatchList x = .ok patches := by
  obtain ⟨y, decision, hy, hdecision, hout⟩ := mbsSessionPushChanges_eq_ok.1 h
  obtain rfl := Option.some.inj (hx.symm.trans hy)
  have hnone : ∀ {v}, Extends SessionRequestSent w v → ¬ PatchSent u w v id patches := by
    intro v hlog hpatch
    obtain ⟨xact, hrequest, heq⟩ := hpatch.satisfies hlog
    rw [SessionRequestSent, heq] at hrequest
    exact hrequest
  have hloops : ∀ {v}, Extends (UpdateOf u x n) w v → PatchSent u w v id patches →
      n.changed = true ∧ mbsSessionPatchList x = .ok patches := by
    intro v hlog hpatch
    obtain ⟨xact, hupdate, heq⟩ := hpatch.satisfies hlog
    exact hupdate id patches heq
  cases decision with
  | remove =>
      have heffect := pushEffect_mbsSessionSendRemove (A := SessionRequestSent)
        (fun _ _ _ _ => trivial) hout
      exact absurd hsent (hnone heffect.log)
  | create =>
      have heffect := pushEffect_mbsSessionSendCreate (A := SessionRequestSent)
        (fun _ _ _ _ => trivial) hout
      exact absurd hsent (hnone heffect.log)
  | recreate removeFirst =>
      simp only [PushDecision.carryOut, removeAndCreate, bind_eq_ok] at hout
      obtain ⟨v, hv, hout⟩ := hout
      have hfirst : PushEffect SessionRequestSent s w v := by
        split at hv
        · exact pushEffect_mbsSessionSendRemove (fun _ _ _ _ => trivial) hv
        · obtain rfl := Except.ok.inj hv
          exact PushEffect.refl _
      have hcreate := pushEffect_mbsSessionSendCreate (A := SessionRequestSent)
        (fun _ _ _ _ => trivial) hout
      exact absurd hsent (hnone (hfirst.trans hcreate).log)
  | update =>
      simp only [PushDecision.carryOut, bind_eq_ok] at hout
      obtain ⟨v, hv, hout⟩ := hout
      have hother : ∀ k o y items carried, w.sessionStore s = some y →
          mbsSessionPatchList y = .ok items →
          UpdateOf u x n (.sent ⟨k, o, .session s, .update y.id items carried⟩) := by
        intro k o y items carried hy hitems id patches hrequest
        cases hrequest
      have hupdate := pushEffect_mbsSessionSendUpdate hother hv
      obtain ⟨hsessions, hsubscriptions, -⟩ := mbsSessionSendUpdate_stores hv
      rw [← hsessions] at hx
      rw [← hsubscriptions] at hn
      have hrest := extends_mbsSessionSubscriptionsUpdate hx hn hs hout
      exact ⟨.inl hdecision, hloops (hupdate.log.trans hrest) hsent⟩
  | unchanged =>
      exact ⟨.inr hdecision,
        hloops (extends_mbsSessionSubscriptionsUpdate hx hn hs hout) hsent⟩

theorem PatchSent.later {id : Option String} {patches : List PatchItem}
    (h : PatchSent u v w' id patches) (hlog : ∃ new, v.log = new ++ w.log) :
    PatchSent u w w' id patches := by
  obtain ⟨new, x, hnew, hx, hrequest⟩ := h
  obtain ⟨old, hold⟩ := hlog
  exact ⟨new ++ old, x, by rw [hnew, hold, List.append_assoc], List.mem_append_left old hx,
    hrequest⟩

/-- The scan over the active subscriptions reaches one whose change is due. -/
theorem patchSent_of_scan (hs : n.session = some s) (hchanged : n.changed = true) {us : List Ref}
    (hu : u ∈ us) (hx : w.sessionStore s = some x) (hn : w.subscriptionStore u = some n)
    (h : us.foldlM updateStatusSubscription w = .ok w') :
    ∃ patches, PatchSent u w w' n.id patches := by
  induction us generalizing w with
  | nil => cases hu
  | cons t us ih =>
      rw [List.foldlM_cons, bind_eq_ok] at h
      obtain ⟨v, hv, h⟩ := h
      by_cases ht : u = t
      · subst ht
        obtain ⟨m, hm, ⟨hunchanged, -⟩ | ⟨-, v₁, hsend, rfl⟩⟩ := updateStatusSubscription_eq_ok hv
        · obtain rfl := Option.some.inj (hn.symm.trans hm)
          rw [hchanged] at hunchanged
          cases hunchanged
        obtain ⟨m', hm', ⟨hnone, -⟩ | ⟨q, y, o, r, -, -, -, hr, rfl⟩⟩ :=
          mbsStatusSubscriptionSend_eq_ok hsend
        · obtain rfl := Option.some.inj (hn.symm.trans hm')
          rw [hs] at hnone
          cases hnone
        obtain rfl := Option.some.inj (hn.symm.trans hm')
        obtain ⟨patches, -, rfl⟩ := buildStatusSubscriptionUpdate_eq_ok hr
        have hrest := log_of_foldlM (fun t v v' hstep =>
          log_of_extends (pushEffect_updateStatusSubscription (s := s) hstep).log) h
        exact ⟨patches, PatchSent.of_log ⟨[_], _, rfl, List.mem_singleton_self _, rfl⟩ hrest⟩
      · have hrest : u ∈ us := List.mem_of_ne_of_mem ht hu
        have hstore := updateStatusSubscription_sessionStore hv
        have hkeep : v.subscriptionStore u = some n := by
          obtain ⟨m, -, ⟨-, rfl⟩ | ⟨-, v₁, hsend, rfl⟩⟩ := updateStatusSubscription_eq_ok hv
          · exact hn
          · change (v₁.subscriptionStore.modify t _) u = some n
            rw [Store.modify_of_ne _ _ _ ht, (sendEffect_sendUpdate hsend).subscriptionStore]
            exact hn
        obtain ⟨patches, hpatch⟩ := ih hrest (by rw [hstore]; exact hx) hkeep h
        exact ⟨patches, hpatch.later
          (log_of_extends (pushEffect_updateStatusSubscription (s := s) hv).log)⟩

/-- A loop over the subscriptions reaches an established one whose change is due. -/
theorem patchSent_of_loops (hestablished : Established w s u x n) (hchanged : n.changed = true)
    (h : mbsSessionSubscriptionsUpdate w s = .ok w') : ∃ patches, PatchSent u w w' n.id patches := by
  simp only [mbsSessionSubscriptionsUpdate, bind_eq_ok, World.sessionAt_eq_ok] at h
  obtain ⟨y, hy, v₁, h₁, v₂, h₂, h₃⟩ := h
  obtain rfl := Option.some.inj (hestablished.session.symm.trans hy)
  have hnew := foldlM_ok_induction (fun rest v => u ∉ rest ∧ v.sessionStore s = some x ∧
    v.subscriptionStore u = some n ∧ ∃ new, v.log = new ++ w.log)
    (fun t rest v v' ⟨hrest, hx, hn, hlog⟩ hstep => by
      rw [List.mem_cons, not_or] at hrest
      have hstore := updateNewSubscription_sessionStore hstep
      refine ⟨hrest.2, by rw [hstore]; exact hx, ?_,
        log_trans hlog (log_of_extends (pushEffect_updateNewSubscription (s := s) hstep).log)⟩
      obtain ⟨m, v₁, -, hsend, rfl⟩ := updateNewSubscription_eq_ok hstep
      change (v₁.subscriptionStore.modify t _) u = some n
      rw [Store.modify_of_ne _ _ _ hrest.1]
      split at hsend
      · rw [(sendEffect_sendCreate hsend).subscriptionStore]
        exact hn
      · obtain rfl := Except.ok.inj hsend
        exact hn)
    x.newSubscriptions w v₁
    ⟨hestablished.settled, hestablished.session, hestablished.subscription, [], rfl⟩ h₁
  obtain ⟨-, hx₁, hn₁, hlog₁⟩ := hnew
  obtain ⟨patches, hpatch⟩ := patchSent_of_scan hestablished.belongs hchanged hestablished.active
    hx₁ hn₁ h₂
  have hdeleted := log_of_foldlM (fun t v v' hstep =>
    log_of_extends (pushEffect_removePendingSubscription hstep).log) h₃
  exact ⟨patches, (hpatch.of_log hdeleted).later hlog₁⟩

theorem patchSent_of_push (hestablished : Established w s u x n) (hchanged : n.changed = true)
    (hvisits : VisitsSubscriptions w x) (h : mbsSessionPushChanges w s = .ok w') :
    ∃ patches, PatchSent u w w' n.id patches := by
  obtain ⟨y, decision, hy, hdecision, hout⟩ := mbsSessionPushChanges_eq_ok.1 h
  obtain rfl := Option.some.inj (hestablished.session.symm.trans hy)
  rcases hvisits with hvisits | hvisits
  · obtain rfl := Except.ok.inj (hvisits.symm.trans hdecision)
    simp only [PushDecision.carryOut, bind_eq_ok] at hout
    obtain ⟨v, hv, hout⟩ := hout
    obtain ⟨hsessions, hsubscriptions, hlog⟩ := mbsSessionSendUpdate_stores hv
    have hlater : Established v s u x n :=
      { hestablished with
        session := by rw [hsessions]; exact hestablished.session
        subscription := by rw [hsubscriptions]; exact hestablished.subscription }
    obtain ⟨patches, hpatch⟩ := patchSent_of_loops hlater hchanged hout
    exact ⟨patches, hpatch.later hlog⟩
  · obtain rfl := Except.ok.inj (hvisits.symm.trans hdecision)
    exact patchSent_of_loops hestablished hchanged hout

/-! ## What the MB-SMF ends up with -/

/-- The PATCH of a push conveys what the setters did exactly when there is nothing to convey. -/
theorem update_conveyed_iff (f : SubscriptionFrame) (accepted : SubscriptionBody) (w v w' : World)
    (s u : Ref) (x : MbsSession) (n : StatusSubscription) (settings : List SubscriptionSetting)
    (hestablished : Established w s u x n) (hsettings : applySettings w u settings = .ok v)
    (hpush : mbsSessionPushChanges v s = .ok w') :
    UpdateConveyed f accepted s u w v w' ↔ NothingToConvey f accepted s u v := by
  obtain ⟨hstore, hset⟩ := applySettings_eq_ok hsettings
  obtain ⟨m, hm, hsession, hchanged⟩ := hset n hestablished.subscription
  have hsession' : m.session = some s := hsession.trans hestablished.belongs
  have hx : v.sessionStore s = some x := by
    rw [hstore]
    exact hestablished.session
  have hlater : Established v s u x m :=
    ⟨hx, hm, hsession', hestablished.active, hestablished.settled⟩
  constructor
  · intro h y k hy hk hdue hvisits
    obtain rfl := Option.some.inj (hx.symm.trans hy)
    obtain rfl := Option.some.inj (hm.symm.trans hk)
    obtain ⟨patches, hpatch⟩ := patchSent_of_push hlater hdue hvisits hpush
    obtain ⟨-, -, hlist⟩ := hpatch.of_push hx hm hsession' hpush
    obtain ⟨rfl, hsame⟩ :=
      (applyPatch_sessionPatchList hlist).1 (h.applied m.id patches m hm hpatch)
    exact ⟨mbsSessionPatchList_eq_nil.1 hlist, hsame⟩
  · intro h
    refine ⟨fun id patches k hk hpatch => ?_, fun y k₀ k hy hk₀ hk hne hvisits => ?_,
      fun k hk hquiet id patches hpatch => ?_⟩
    · obtain rfl := Option.some.inj (hm.symm.trans hk)
      obtain ⟨hvisits, hdue, hlist⟩ := hpatch.of_push hx hm hsession' hpush
      obtain ⟨hempty, hsame⟩ := h x m hx hm hdue hvisits
      obtain rfl := Except.ok.inj ((mbsSessionPatchList_eq_nil.2 hempty).symm.trans hlist)
      exact (applyPatch_sessionPatchList hlist).2 ⟨rfl, hsame⟩
    · obtain rfl := Option.some.inj (hx.symm.trans hy)
      obtain rfl := Option.some.inj (hestablished.subscription.symm.trans hk₀)
      obtain rfl := Option.some.inj (hm.symm.trans hk)
      exact patchSent_of_push hlater (hchanged hne) hvisits hpush
    · obtain rfl := Option.some.inj (hm.symm.trans hk)
      obtain ⟨-, hdue, -⟩ := hpatch.of_push hx hm hsession' hpush
      rw [hquiet] at hdue
      cases hdue

/-! ## A correlation id -/

def exampleFrame : SubscriptionFrame :=
  { mbsSessionId := .obj [], gmtimeString := fun t => toString t }

def activeSession : MbsSession :=
  { previousSession := some { tmgiReq := true }
    activeSubscriptions := some [("sub-1", 1)]
    sbiObject := some 2 }

def activeSubscription : StatusSubscription :=
  { flags := 1#32, correlationId := some "a", id := some "sub-1", session := some 0 }

/-- A session with one subscription, which the MB-SMF has accepted as it is. -/
def subscribedWorld : World :=
  { mbsSessions := [0]
    sessionStore := Store.empty.set 0 activeSession
    subscriptionStore := Store.empty.set 1 activeSubscription
    next := 3 }

theorem subscribedWorld_established :
    Established subscribedWorld 0 1 activeSession activeSubscription :=
  ⟨rfl, rfl, rfl, List.mem_singleton_self _, nofun⟩

theorem activeSession_noDifference : NoDifference activeSession := by
  rintro previous hprevious
  obtain rfl := Option.some.inj hprevious
  exact ⟨rfl, .none, .none, .none, fun _ => rfl, fun _ => rfl⟩

/-- A correlation id that is set to another one and back. -/
theorem restored_subscription_is_conveyed : ∃ v w',
    UpdateConveyed exampleFrame (subscriptionBody activeSubscription) 0 1 subscribedWorld v w' := by
  refine ⟨_, _, (update_conveyed_iff exampleFrame (subscriptionBody activeSubscription)
    subscribedWorld _ _ 0 1 activeSession activeSubscription
    [.correlationId (some "b"), .correlationId (some "a")] subscribedWorld_established rfl rfl).2 ?_⟩
  intro x n hx hn hdue hvisits
  obtain rfl := Option.some.inj (hx.symm.trans (rfl : _ = some activeSession))
  exact ⟨activeSession_noDifference, by rw [← Option.some.inj hn]; rfl⟩

/-- One that is set to another one: the PATCH leaves it as it was. -/
theorem changed_subscription_is_not_conveyed : ∃ v w',
    applySettings subscribedWorld 1 [.correlationId (some "b")] = .ok v ∧
      mbsSessionPushChanges v 0 = .ok w' ∧
      ¬ UpdateConveyed exampleFrame (subscriptionBody activeSubscription) 0 1 subscribedWorld v w' := by
  refine ⟨_, _, rfl, rfl, fun h => ?_⟩
  have happlied := h.applied (some "sub-1") [] _ rfl ⟨[_], _, rfl, List.mem_singleton_self _, rfl⟩
  rw [applyPatch_nil, Option.some.injEq] at happlied
  have hid : some (Json.str "a") = some (Json.str "b") :=
    congrArg (Members.lookup "notifyCorrelationId") (Json.obj.inj happlied)
  rw [Option.some.injEq, Json.str.injEq] at hid
  exact absurd hid (by decide)

end ServiceConsumers.SubscriptionUpdates
