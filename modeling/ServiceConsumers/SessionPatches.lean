import ServiceConsumers.AreaPatches
import ServiceConsumers.MediaComponentTables

set_option autoImplicit false

/-!
# Patches of sessions

An update sends what the differ says of the last accepted session and the current one. It is
applied here to what the last accepted session was sent as.
-/

namespace ServiceConsumers.SessionPatches

open JsonDocuments UnorderedArrays ForeignPatches MemberPatches PatchLists CarriedPatches
  ListPatches AreaPatches ServiceAreas ExternalServiceAreas MediaComponents
  MediaComponentPatches MediaComponentTables PublicSessions SessionCopies OverlookedChanges

/-! ## What is to hold -/

/-- The members that an update of a session of this type is about. -/
def patchedMembers : MbsServiceType → List String
  | .broadcast =>
      ["contactPcfInd", "mbsServiceArea", "extMbsServiceArea", "mbsServInfo", "mbsFsaIdList"]
  | .multicast =>
      ["contactPcfInd", "mbsServiceArea", "extMbsServiceArea", "mbsServInfo", "activityStatus"]

/-- Both sessions are encoded, there is a patch, and it turns the one's members into the other's. -/
def PatchConveys {τ : Type} (forUpdate : Bool) (a b : PublicSession τ) : Prop :=
  ∃ ms ms' ps result, makeExtMbsSession forUpdate a = some ms ∧
    makeExtMbsSession forUpdate b = some ms' ∧ publicPatchList a b = some ps ∧
    applyPatch (.obj ms) ps = some (.obj result) ∧
    ∀ name ∈ patchedMembers a.serviceType, Members.lookup name result = Members.lookup name ms'

/-! ## The condition -/

/-- The same components, of which each can be patched. -/
structure SameComps (a b : MediaCompTable) : Prop where
  kept : ∀ x ∈ a, ∃ y ∈ b, y.id = x.id
  known : ∀ y ∈ b, ∃ x ∈ a, x.id = y.id
  patchable : ∀ x ∈ a, ∀ y ∈ b, x.id = y.id → CompPatchable x y

/-- Nothing that was set is unset, and components come only where there were none. -/
structure ServiceInfoChange (x y : MbsServiceInfo) : Prop where
  mbsMediaComps : x.mbsMediaComps.getD [] = [] ∨
    SameComps (x.mbsMediaComps.getD []) (y.mbsMediaComps.getD [])
  priority : x.mbsSdfReservePriority ≠ 0 → y.mbsSdfReservePriority ≠ 0
  afAppId : Stays x.afAppId y.afAppId
  mbsSessionAmbr : Stays x.mbsSessionAmbr y.mbsSessionAmbr

def ServiceInfoPatchable : Option MbsServiceInfo → Option MbsServiceInfo → Prop :=
  WholePatchable (fun _ => True) ServiceInfoChange

structure SessionPatchable {τ : Type} (a b : PublicSession τ) : Prop where
  noGeographicAreas : ∀ x, a.extMbsServiceArea = some x → x.geographicAreas = []
  noGeographicAreas' : ∀ y, b.extMbsServiceArea = some y → y.geographicAreas = []
  contactPcfInd : a.contactPcfInd = b.contactPcfInd
  mbsServiceArea : AreaPatchable a.mbsServiceArea b.mbsServiceArea
  extMbsServiceArea : ExtAreaPatchable a.extMbsServiceArea b.extMbsServiceArea
  mbsServiceInfo : ServiceInfoPatchable a.mbsServiceInfo b.mbsServiceInfo
  mbsFsaIds : a.serviceType = .broadcast → a.mbsFsaIds.length ≤ b.mbsFsaIds.length

/-! ## Service information -/

variable {s t : MediaCompTable} {rows : List MemberPatch}

/-- A component that goes is removed without a value. -/
theorem valued_rows_iff (h : List.Forall₂ (RowFor t) s rows) :
    Valued (objectPatch rows) ↔ ∀ x ∈ s, (findMediaComp t x.id).isSome = true := by
  rw [valued_objectPatch]
  induction h with
  | nil => exact iff_of_true (List.forall_mem_nil _) (List.forall_mem_nil _)
  | @cons x r _ _ hr _ ih =>
      rw [List.forall_mem_cons, List.forall_mem_cons, ih]
      refine and_congr_left fun _ => ?_
      obtain ⟨-, -, -, hpatches⟩ := hr
      cases hfind : findMediaComp t x.id with
      | none =>
          rw [hfind] at hpatches
          dsimp only at hpatches
          rw [hpatches]
          exact iff_of_false (fun h => by cases h _ List.mem_cons_self) Bool.false_ne_true
      | some y =>
          rw [hfind] at hpatches
          exact iff_of_true hpatches.2 rfl

theorem carries_table_iff (hs : KeyedByNumber s) (ht : KeyedByNumber t) :
    Carries (mbsMediaCompsPatchList s t) (tableJson s) (tableJson t) ↔ s = [] ∨ SameComps s t := by
  cases s with
  | nil =>
      refine iff_of_true ?_ (.inl rfl)
      cases t with
      | nil => exact carries_nil.2 rfl
      | cons d ds => exact carries_come_iff.2 ⟨rfl, if_neg (List.cons_ne_nil _ _)⟩
  | cons c cs =>
      cases t with
      | nil =>
          refine iff_of_false not_carries_leave ?_
          rintro (h | h)
          · cases h
          · obtain ⟨y, hy, -⟩ := h.kept c List.mem_cons_self
            cases hy
      | cons d ds =>
          have hkept : (∀ x ∈ c :: cs, (findMediaComp (d :: ds) x.id).isSome = true) ↔
              ∀ x ∈ c :: cs, ∃ y ∈ d :: ds, y.id = x.id := forall_known_iff ht
          have hsame : SameComps (c :: cs) (d :: ds) ↔
              (∀ x ∈ c :: cs, (findMediaComp (d :: ds) x.id).isSome = true) ∧
              (∀ y ∈ d :: ds, (findMediaComp (c :: cs) y.id).isSome = true) ∧
              ∀ x ∈ c :: cs, ∀ y, findMediaComp (d :: ds) x.id = some y → CompPatchable x y := by
            rw [hkept, forall_known_iff hs, forall_found_iff ht]
            exact ⟨fun h => ⟨h.kept, h.known, h.patchable⟩, fun h => ⟨h.1, h.2.1, h.2.2⟩⟩
          rw [or_iff_right (List.cons_ne_nil c cs), hsame]
          constructor
          · rintro ⟨ps, hps, hvalued, h⟩
            obtain ⟨hknown, rows, hrows, rfl⟩ := mbsMediaCompsPatchList_eq_some.1 hps
            exact ⟨(valued_rows_iff hrows).1 hvalued, hknown,
              (patch_rows_iff hs ht hrows hknown).1 h⟩
          · rintro ⟨hkept, hknown, h⟩
            obtain ⟨rows, hrows⟩ := exists_rows h
            exact ⟨_, mbsMediaCompsPatchList_eq_some.2 ⟨hknown, rows, hrows, rfl⟩,
              (valued_rows_iff hrows).2 hkept, (patch_rows_iff hs ht hrows hknown).2 h⟩

/-- Application identifiers that are both set are sent again. -/
def afAppIdItems : Option String → Option String → List PatchItem
  | none, none => []
  | none, some y => [jsonPatchNew .add [] (some (.str y))]
  | some _, none => [jsonPatchNew .remove [] none]
  | some _, some y => [jsonPatchNew .replace [] (some (.str y))]

theorem afAppIdPatch_eq (a b : Option String) :
    afAppIdPatch a b = (afAppIdItems a b).map (below "afAppId") := by
  cases a <;> cases b <;> rfl

theorem patch_afAppId (a b : Option String) :
    patchValue (a.map .str) (afAppIdItems a b) = some (b.map .str) := by
  cases a <;> cases b <;> rfl

theorem valued_afAppId {a b : Option String} : Valued (afAppIdItems a b) ↔ Stays a b := by
  cases a with
  | none =>
      refine iff_of_true ?_ nofun
      cases b with
      | none => exact valued_nil
      | some y => exact valued_cons.2 ⟨rfl, valued_nil⟩
  | some x =>
      cases b with
      | none => exact iff_of_false (fun h => by cases h _ List.mem_cons_self) fun h => by cases h rfl
      | some y => exact iff_of_true (valued_cons.2 ⟨rfl, valued_nil⟩) fun _ => rfl

def infoMembers (x y : MbsServiceInfo) (comps : List PatchItem) : List MemberPatch :=
  [⟨"mbsMediaComps", tableJson (x.mbsMediaComps.getD []), comps,
      tableJson (y.mbsMediaComps.getD [])⟩,
    ⟨"mbsSdfResPrio", (reservePriority x.mbsSdfReservePriority).map reservePriorityToJson,
      optionalItems reservePriorityToJson (reservePriority x.mbsSdfReservePriority)
        (reservePriority y.mbsSdfReservePriority),
      (reservePriority y.mbsSdfReservePriority).map reservePriorityToJson⟩,
    ⟨"afAppId", x.afAppId.map .str, afAppIdItems x.afAppId y.afAppId, y.afAppId.map .str⟩,
    ⟨"mbsSessionAmbr", x.mbsSessionAmbr.map bitrateToJson,
      optionalItems bitrateToJson x.mbsSessionAmbr y.mbsSessionAmbr,
      y.mbsSessionAmbr.map bitrateToJson⟩]

/-- What the differ does about two service informations. -/
def infoPatchList (x y : MbsServiceInfo) : Option (List PatchItem) :=
  (appendPatches [] (mbsMediaCompsPatchList (x.mbsMediaComps.getD []) (y.mbsMediaComps.getD []))
    [.key "mbsMediaComps"]).map fun patches =>
      patches ++ reservePriorityPatch x.mbsSdfReservePriority y.mbsSdfReservePriority ++
        afAppIdPatch x.afAppId y.afAppId ++
        optionalPatch "mbsSessionAmbr" bitrateToJson x.mbsSessionAmbr y.mbsSessionAmbr

theorem infoPatchList_eq_some {x y : MbsServiceInfo} {items : List PatchItem} :
    infoPatchList x y = some items ↔ ∃ comps,
      mbsMediaCompsPatchList (x.mbsMediaComps.getD []) (y.mbsMediaComps.getD []) = some comps ∧
        Valued comps ∧ items = objectPatch (infoMembers x y comps) := by
  have hlist : ∀ comps : List PatchItem, ([] ++ comps.map (below "mbsMediaComps")) ++
      reservePriorityPatch x.mbsSdfReservePriority y.mbsSdfReservePriority ++
      afAppIdPatch x.afAppId y.afAppId ++
      optionalPatch "mbsSessionAmbr" bitrateToJson x.mbsSessionAmbr y.mbsSessionAmbr =
        objectPatch (infoMembers x y comps) := by
    intro comps
    rw [reservePriorityPatch, optionalPatch_eq, optionalPatch_eq, afAppIdPatch_eq]
    simp [objectPatch, infoMembers]
  simp only [infoPatchList, Option.map_eq_some_iff, appendPatches_key]
  constructor
  · rintro ⟨_, ⟨comps, hcomps, hvalued, rfl⟩, rfl⟩
    exact ⟨comps, hcomps, hvalued, hlist comps⟩
  · rintro ⟨comps, hcomps, hvalued, rfl⟩
    exact ⟨_, ⟨comps, hcomps, hvalued, rfl⟩, hlist comps⟩

theorem carries_infoChange {x y : MbsServiceInfo} (hx : KeyedByNumber (x.mbsMediaComps.getD []))
    (hy : KeyedByNumber (y.mbsMediaComps.getD [])) :
    Carries (infoPatchList x y) (some (mbsServiceInfoToJson x)) (some (mbsServiceInfoToJson y)) ↔
      ServiceInfoChange x y := by
  have hobject : ∀ comps, Carries (some (objectPatch (infoMembers x y comps)))
      (some (mbsServiceInfoToJson x)) (some (mbsServiceInfoToJson y)) ↔
      ∀ r ∈ infoMembers x y comps, Valued r.patches ∧ r.Right := by
    intro comps
    have hnames : ((infoMembers x y comps).map MemberPatch.name).Nodup := by
      change ["mbsMediaComps", "mbsSdfResPrio", "afAppId", "mbsSessionAmbr"].Nodup
      decide
    exact carries_object_iff hnames
  have hcomps := carries_table_iff hx hy
  constructor
  · rintro ⟨items, hitems, h⟩
    obtain ⟨comps, hpatch, hvalued, rfl⟩ := infoPatchList_eq_some.1 hitems
    have hrows := (hobject comps).1 ⟨_, rfl, h⟩
    simp only [infoMembers, List.forall_mem_cons, MemberPatch.Right, valued_optional,
      stays_reservePriority, valued_afAppId] at hrows
    obtain ⟨⟨-, hright⟩, ⟨hprio, -⟩, ⟨happ, -⟩, ⟨hambr, -⟩, -⟩ := hrows
    exact ⟨hcomps.1 ⟨comps, hpatch, hvalued, hright⟩, hprio, happ, hambr⟩
  · rintro ⟨htable, hprio, happ, hambr⟩
    obtain ⟨comps, hpatch, hvalued, hright⟩ := hcomps.2 htable
    refine ⟨_, infoPatchList_eq_some.2 ⟨comps, hpatch, hvalued, rfl⟩,
      carries_some.1 ((hobject comps).2 ?_)⟩
    simp only [infoMembers, List.forall_mem_cons, MemberPatch.Right, valued_optional,
      stays_reservePriority, valued_afAppId, patch_optional, patch_afAppId]
    exact ⟨⟨hvalued, hright⟩, ⟨hprio, trivial⟩, ⟨happ, trivial⟩, ⟨hambr, trivial⟩,
      List.forall_mem_nil _⟩

theorem keyed_getD {info : MbsServiceInfo} (h : EveryTable KeyedByNumber (some info)) :
    KeyedByNumber (info.mbsMediaComps.getD []) := by
  cases ht : info.mbsMediaComps with
  | none => exact List.nodup_nil
  | some t => exact h info t rfl ht

theorem carries_info_iff {a b : Option MbsServiceInfo} (ha : EveryTable KeyedByNumber a)
    (hb : EveryTable KeyedByNumber b) :
    Carries (mbsServiceInfoPatchList a b) (a.map mbsServiceInfoToJson)
      (b.map mbsServiceInfoToJson) ↔ ServiceInfoPatchable a b := by
  rw [Option.map_eq_bind, Option.map_eq_bind]
  refine carries_structure_iff (fun y _ => iff_of_true trivial ⟨rfl, rfl⟩) fun x hx y hy => ?_
  exact carries_infoChange (keyed_getD (hx ▸ ha)) (keyed_getD (hy ▸ hb))

/-! ## Sessions -/

section Sessions

variable {τ : Type} {a b : PublicSession τ} {forUpdate : Bool}

def setStatus (status : ActivityStatus) : Option ActivityStatus :=
  if status = .none then none else some status

theorem activityStatusPatch_eq (x y : ActivityStatus) : activityStatusPatch x y =
    (optionalItems activityStatusToJson (setStatus x) (setStatus y)).map
      (below "activityStatus") := by
  rw [← optionalPatch_eq]
  cases x <;> cases y <;> rfl

/-- The flag as it is sent. -/
def contactMember (forUpdate contactPcfInd : Bool) : Option Json :=
  if forUpdate && contactPcfInd then some (.bool true) else none

/-- The flag is replaced where none was sent, or where none is to be sent. -/
theorem patch_contact_iff {x y : Bool} :
    patchValue (contactMember forUpdate x) (requiredItems .bool x y) =
      some (contactMember forUpdate y) ↔ x = y := by
  constructor
  · intro h
    by_contra hne
    rw [requiredItems, if_neg hne] at h
    cases forUpdate <;> cases x <;> cases y <;> first | exact hne rfl | cases h
  · rintro rfl
    rw [requiredItems, if_pos rfl, patchValue_nil]

def encodedMembers (forUpdate : Bool) (s : PublicSession τ) : List (String × Option Json) :=
  [("mbsServiceArea", areaMember s.mbsServiceArea),
    ("extMbsServiceArea", extAreaMember s.extMbsServiceArea),
    ("mbsServInfo", s.mbsServiceInfo.map mbsServiceInfoToJson),
    ("activityStatus", (setStatus s.activityStatus).map activityStatusToJson),
    ("mbsFsaIdList", listMember mbsFsaIdToJson s.mbsFsaIds),
    ("contactPcfInd", contactMember forUpdate s.contactPcfInd)]

theorem makeExtMbsSession_eq_some {s : PublicSession τ} {ms : Members} :
    makeExtMbsSession forUpdate s = some ms ↔
      (∀ x, s.extMbsServiceArea = some x → x.geographicAreas = []) ∧
        ms = Members.ofList (encodedMembers forUpdate s) := by
  have hstatus : (if s.activityStatus = .none then none
      else some (activityStatusToJson s.activityStatus)) =
      (setStatus s.activityStatus).map activityStatusToJson := by
    unfold setStatus
    split <;> rfl
  have hsome : (∀ x, s.extMbsServiceArea = some x → x.geographicAreas = []) →
      makeExtMbsSession forUpdate s = some (Members.ofList (encodedMembers forUpdate s)) := by
    intro h
    rw [makeExtMbsSession_eq h, hstatus]
    rfl
  constructor
  · intro h
    have hgeo : ∀ x, s.extMbsServiceArea = some x → x.geographicAreas = [] := by
      intro x hx
      by_contra hgeo
      obtain ⟨g, gs, hgs⟩ := List.exists_cons_of_ne_nil hgeo
      simp [makeExtMbsSession, hx, hgs, extMbsServiceAreaToJson] at h
    exact ⟨hgeo, Option.some.inj (h.symm.trans (hsome hgeo))⟩
  · rintro ⟨hgeo, rfl⟩
    exact hsome hgeo

theorem lookup_encoded {s : PublicSession τ} {k : String} {v : Option Json}
    (h : (k, v) ∈ encodedMembers forUpdate s) :
    Members.lookup k (Members.ofList (encodedMembers forUpdate s)) = v := by
  refine lookup_ofList_mem ?_ h
  change ["mbsServiceArea", "extMbsServiceArea", "mbsServInfo", "activityStatus", "mbsFsaIdList",
    "contactPcfInd"].Nodup
  decide

/-- What the differ says of one member, in the order of the source. -/
def sessionRows (forUpdate : Bool) (a b : PublicSession τ) (areas exts infos : List PatchItem)
    (last : MemberPatch) : List MemberPatch :=
  [⟨"contactPcfInd", contactMember forUpdate a.contactPcfInd,
      requiredItems .bool a.contactPcfInd b.contactPcfInd,
      contactMember forUpdate b.contactPcfInd⟩,
    ⟨"mbsServiceArea", areaMember a.mbsServiceArea, areas, areaMember b.mbsServiceArea⟩,
    ⟨"extMbsServiceArea", extAreaMember a.extMbsServiceArea, exts,
      extAreaMember b.extMbsServiceArea⟩,
    ⟨"mbsServInfo", a.mbsServiceInfo.map mbsServiceInfoToJson, infos,
      b.mbsServiceInfo.map mbsServiceInfoToJson⟩,
    last]

/-- The last member that is patched depends on the type of the session. -/
inductive LastRow (a b : PublicSession τ) : MemberPatch → Prop
  | fsaIds {items : List PatchItem} (htype : a.serviceType = .broadcast)
      (hitems : mbsFsaIdsPatchList a.mbsFsaIds b.mbsFsaIds = some items) (hvalued : Valued items) :
      LastRow a b ⟨"mbsFsaIdList", listMember mbsFsaIdToJson a.mbsFsaIds, items,
        listMember mbsFsaIdToJson b.mbsFsaIds⟩
  | activityStatus (htype : a.serviceType = .multicast) :
      LastRow a b ⟨"activityStatus", (setStatus a.activityStatus).map activityStatusToJson,
        optionalItems activityStatusToJson (setStatus a.activityStatus)
          (setStatus b.activityStatus),
        (setStatus b.activityStatus).map activityStatusToJson⟩

theorem publicPatchList_eq_some {ps : List PatchItem} : publicPatchList a b = some ps ↔
    ∃ areas exts infos last,
      mbsServiceAreaPatchList a.mbsServiceArea b.mbsServiceArea = some areas ∧ Valued areas ∧
      extMbsServiceAreaPatchList a.extMbsServiceArea b.extMbsServiceArea = some exts ∧
        Valued exts ∧
      mbsServiceInfoPatchList a.mbsServiceInfo b.mbsServiceInfo = some infos ∧ Valued infos ∧
      LastRow a b last ∧ ps = objectPatch (sessionRows forUpdate a b areas exts infos last) := by
  have hlist : ∀ areas exts infos last,
      (((requiredPatch "contactPcfInd" .bool a.contactPcfInd b.contactPcfInd ++
        areas.map (below "mbsServiceArea")) ++ exts.map (below "extMbsServiceArea")) ++
        infos.map (below "mbsServInfo")) ++ last.patches.map (below last.name) =
        objectPatch (sessionRows forUpdate a b areas exts infos last) := by
    intro areas exts infos last
    rw [requiredPatch_eq]
    simp [objectPatch, sessionRows]
  simp only [publicPatchList, bind, Option.bind_eq_some_iff, appendPatches_key]
  constructor
  · rintro ⟨_, ⟨areas, hareas, hvareas, rfl⟩, _, ⟨exts, hexts, hvexts, rfl⟩, _,
      ⟨infos, hinfos, hvinfos, rfl⟩, hlast⟩
    cases htype : a.serviceType with
    | broadcast =>
        rw [htype] at hlast
        obtain ⟨ids, hids, hvids, rfl⟩ := appendPatches_key.1 hlast
        exact ⟨areas, exts, infos, _, hareas, hvareas, hexts, hvexts, hinfos, hvinfos,
          .fsaIds htype hids hvids, hlist areas exts infos ⟨_, _, _, _⟩⟩
    | multicast =>
        rw [htype] at hlast
        obtain rfl := Option.some.inj hlast
        refine ⟨areas, exts, infos, _, hareas, hvareas, hexts, hvexts, hinfos, hvinfos,
          .activityStatus htype, ?_⟩
        rw [activityStatusPatch_eq]
        exact hlist areas exts infos ⟨_, _, _, _⟩
  · rintro ⟨areas, exts, infos, last, hareas, hvareas, hexts, hvexts, hinfos, hvinfos, hlast, rfl⟩
    refine ⟨_, ⟨areas, hareas, hvareas, rfl⟩, _, ⟨exts, hexts, hvexts, rfl⟩, _,
      ⟨infos, hinfos, hvinfos, rfl⟩, ?_⟩
    rw [← hlist]
    cases hlast with
    | fsaIds htype hids hvids =>
        rw [htype]
        exact appendPatches_key.2 ⟨_, hids, hvids, rfl⟩
    | activityStatus htype => rw [htype, activityStatusPatch_eq]

variable {areas exts infos : List PatchItem} {last : MemberPatch}

theorem sessionRows_names (hlast : LastRow a b last) :
    (sessionRows forUpdate a b areas exts infos last).map MemberPatch.name =
      patchedMembers a.serviceType := by
  cases hlast with
  | fsaIds htype =>
      rw [htype]
      rfl
  | activityStatus htype =>
      rw [htype]
      rfl

/-- The rows say what the members are and are to be. -/
theorem sessionRows_encoded (hlast : LastRow a b last) {r : MemberPatch}
    (hr : r ∈ sessionRows forUpdate a b areas exts infos last) :
    Members.lookup r.name (Members.ofList (encodedMembers forUpdate a)) = r.before ∧
      Members.lookup r.name (Members.ofList (encodedMembers forUpdate b)) = r.after := by
  have hmem : (r.name, r.before) ∈ encodedMembers forUpdate a ∧
      (r.name, r.after) ∈ encodedMembers forUpdate b := by
    simp only [sessionRows, List.mem_cons, List.not_mem_nil, or_false] at hr
    rcases hr with rfl | rfl | rfl | rfl | rfl
    · simp [encodedMembers]
    · simp [encodedMembers]
    · simp [encodedMembers]
    · simp [encodedMembers]
    · cases hlast <;> simp [encodedMembers]
  exact ⟨lookup_encoded hmem.1, lookup_encoded hmem.2⟩

theorem conveys_rows_iff : PatchConveys forUpdate a b ↔
    (∀ x, a.extMbsServiceArea = some x → x.geographicAreas = []) ∧
    (∀ y, b.extMbsServiceArea = some y → y.geographicAreas = []) ∧
    ∃ areas exts infos last,
      mbsServiceAreaPatchList a.mbsServiceArea b.mbsServiceArea = some areas ∧ Valued areas ∧
      extMbsServiceAreaPatchList a.extMbsServiceArea b.extMbsServiceArea = some exts ∧
        Valued exts ∧
      mbsServiceInfoPatchList a.mbsServiceInfo b.mbsServiceInfo = some infos ∧ Valued infos ∧
      LastRow a b last ∧ ∀ r ∈ sessionRows forUpdate a b areas exts infos last, r.Right := by
  have hright : ∀ areas exts infos last, LastRow a b last →
      ((∃ result, applyPatch (.obj (Members.ofList (encodedMembers forUpdate a)))
          (objectPatch (sessionRows forUpdate a b areas exts infos last)) = some (.obj result) ∧
        ∀ name ∈ patchedMembers a.serviceType, Members.lookup name result =
          Members.lookup name (Members.ofList (encodedMembers forUpdate b))) ↔
        ∀ r ∈ sessionRows forUpdate a b areas exts infos last, r.Right) := by
    intro areas exts infos last hlast
    have hpatched := @sessionRows_names τ a b forUpdate areas exts infos last hlast
    have hnames : ((sessionRows forUpdate a b areas exts infos last).map MemberPatch.name).Nodup := by
      rw [hpatched]
      cases a.serviceType <;> decide
    rw [← hpatched]
    simp only [List.forall_mem_map]
    refine (applyPatch_members_iff (sorted_ofList _) hnames).trans (forall₂_congr fun r hr => ?_)
    obtain ⟨hbefore, hafter⟩ := sessionRows_encoded hlast hr
    rw [hbefore, hafter, MemberPatch.Right]
  constructor
  · rintro ⟨ms, ms', ps, result, ha, hb, hps, hresult⟩
    obtain ⟨hgeo, rfl⟩ := makeExtMbsSession_eq_some.1 ha
    obtain ⟨hgeo', rfl⟩ := makeExtMbsSession_eq_some.1 hb
    obtain ⟨areas, exts, infos, last, hareas, hvareas, hexts, hvexts, hinfos, hvinfos, hlast, rfl⟩ :=
      (@publicPatchList_eq_some τ a b forUpdate _).1 hps
    exact ⟨hgeo, hgeo', areas, exts, infos, last, hareas, hvareas, hexts, hvexts, hinfos, hvinfos,
      hlast, (hright areas exts infos last hlast).1 ⟨result, hresult⟩⟩
  · rintro ⟨hgeo, hgeo', areas, exts, infos, last, hareas, hvareas, hexts, hvexts, hinfos, hvinfos,
      hlast, hrows⟩
    obtain ⟨result, hresult⟩ := (hright areas exts infos last hlast).2 hrows
    exact ⟨_, _, _, result, makeExtMbsSession_eq_some.2 ⟨hgeo, rfl⟩,
      makeExtMbsSession_eq_some.2 ⟨hgeo', rfl⟩,
      publicPatchList_eq_some.2 ⟨areas, exts, infos, last, hareas, hvareas, hexts, hvexts, hinfos,
        hvinfos, hlast, rfl⟩, hresult⟩

theorem exists_lastRow (h : a.serviceType = .broadcast → a.mbsFsaIds.length ≤ b.mbsFsaIds.length) :
    ∃ last, LastRow a b last ∧ last.Right := by
  cases htype : a.serviceType with
  | broadcast =>
      obtain ⟨ids, hids, hvids, hright⟩ := (carries_fsaIds_iff _ _).2 (h htype)
      exact ⟨_, .fsaIds htype hids hvids, hright⟩
  | multicast => exact ⟨_, .activityStatus htype, patch_optional _ _ _⟩

theorem fsaIds_of_lastRow (hlast : LastRow a b last) (hright : last.Right) :
    a.serviceType = .broadcast → a.mbsFsaIds.length ≤ b.mbsFsaIds.length := by
  intro hbroadcast
  cases hlast with
  | fsaIds _ hids hvids => exact (carries_fsaIds_iff _ _).1 ⟨_, hids, hvids, hright⟩
  | activityStatus htype =>
      rw [htype] at hbroadcast
      cases hbroadcast

end Sessions

/-- An update turns the members of the last accepted session into those of the current one exactly
when the flag for the PCF is the same, no area has an encoding that fails, and what was set and
listed only grows or is replaced. -/
theorem patch_conveys_iff {τ : Type} (forUpdate : Bool) (a b : PublicSession τ)
    (ha : EveryTable KeyedByNumber a.mbsServiceInfo)
    (hb : EveryTable KeyedByNumber b.mbsServiceInfo) :
    PatchConveys forUpdate a b ↔ SessionPatchable a b := by
  rw [conveys_rows_iff]
  simp only [sessionRows, List.forall_mem_cons, MemberPatch.Right, patch_contact_iff]
  constructor
  · rintro ⟨hgeo, hgeo', areas, exts, infos, last, hareas, hvareas, hexts, hvexts, hinfos, hvinfos,
      hlast, hcontact, harea, hext, hinfo, hright, -⟩
    exact ⟨hgeo, hgeo', hcontact, (carries_area_iff _ _).1 ⟨areas, hareas, hvareas, harea⟩,
      (carries_extArea_iff hgeo hgeo').1 ⟨exts, hexts, hvexts, hext⟩,
      (carries_info_iff ha hb).1 ⟨infos, hinfos, hvinfos, hinfo⟩,
      fsaIds_of_lastRow hlast hright⟩
  · intro h
    obtain ⟨areas, hareas, hvareas, harea⟩ := (carries_area_iff _ _).2 h.mbsServiceArea
    obtain ⟨exts, hexts, hvexts, hext⟩ := (carries_extArea_iff h.noGeographicAreas
      h.noGeographicAreas').2 h.extMbsServiceArea
    obtain ⟨infos, hinfos, hvinfos, hinfo⟩ := (carries_info_iff ha hb).2 h.mbsServiceInfo
    obtain ⟨last, hlast, hright⟩ := exists_lastRow h.mbsFsaIds
    exact ⟨h.noGeographicAreas, h.noGeographicAreas', areas, exts, infos, last, hareas, hvareas,
      hexts, hvexts, hinfos, hvinfos, hlast, h.contactPcfInd, harea, hext, hinfo, hright,
      List.forall_mem_nil _⟩

/-- Another area and another flow description are conveyed. -/
theorem grown_session_is_conveyed : PatchConveys false
    (tunedSession [flowComp 1 "permit"] [firstTai])
    (tunedSession [flowComp 1 "deny"] [firstTai, secondTai]) := by
  have hkeyed : ∀ c tais, EveryTable KeyedByNumber (tunedSession [c] tais).mbsServiceInfo := by
    rintro c tais _ _ ⟨⟩ ⟨⟩
    exact List.nodup_singleton _
  have hcomp : CompPatchable (flowComp 1 "permit") (flowComp 1 "deny") :=
    ⟨⟨.inr ⟨nofun, by decide⟩, trivial, trivial, trivial⟩, fun h => h, fun h => h⟩
  refine (patch_conveys_iff false _ _ (hkeyed _ _) (hkeyed _ _)).2
    ⟨nofun, nofun, rfl, ?_, trivial, ⟨.inr ?_, fun h => h, fun h => h, fun h => h⟩,
      fun _ => le_refl 0⟩
  · refine .inr ⟨fun h => List.cons_ne_nil _ _ h.2, fun h => List.cons_ne_nil _ _ h.2,
      .inr ⟨le_refl 0, nofun⟩, .inr ⟨by decide, fun p hp _ => ?_⟩⟩
    obtain rfl : p = (firstTai, firstTai) := List.mem_singleton.1 hp
    rfl
  · refine ⟨fun x hx => ?_, fun y hy => ?_, fun x hx y hy _ => ?_⟩
    · obtain rfl := List.mem_singleton.1 hx
      exact ⟨_, List.mem_singleton_self _, rfl⟩
    · obtain rfl := List.mem_singleton.1 hy
      exact ⟨_, List.mem_singleton_self _, rfl⟩
    · obtain rfl := List.mem_singleton.1 hx
      obtain rfl := List.mem_singleton.1 hy
      exact hcomp

/-- The patch that takes an area away is copied without having a value. -/
theorem removed_area_is_not_conveyed : ¬ ∀ a b : PublicSession Tmgi,
    EveryTable KeyedByNumber a.mbsServiceInfo → EveryTable KeyedByNumber b.mbsServiceInfo →
      PatchConveys false a b := by
  intro h
  obtain ⟨_, _, ps, _, -, -, hps, -⟩ :=
    h { mbsServiceArea := some { tais := [firstTai] } } {} nofun nofun
  have hcrash : publicPatchList
      ({ mbsServiceArea := some { tais := [firstTai] } } : PublicSession Tmgi) {} = none := rfl
  rw [hcrash] at hps
  cases hps

end ServiceConsumers.SessionPatches
