import ServiceConsumers.Quiescence

set_option autoImplicit false

/-!
# Snapshots of a session

A push and an answer each keep a copy of a session. What the copy is to be is stated here: it
says what the session says, and it does not change with the session afterwards.
-/

namespace ServiceConsumers.Snapshots

open ObjectStore ServiceAreas ExternalServiceAreas MediaComponents PublicSessions ConsumerState
  TmgiOperations SessionOperations TransitionRuns SessionCopies TmgiContents Quiescence

variable {w w' : World} {dest : Option (PublicSession Ref)} {copy src : PublicSession Ref}

/-! ## What is to hold -/

section Said

variable {τ : Type}

/-- Service information without a table says the same as with an empty one, and a codec says
the same in either slot when it is the only one. -/
def saidInfo (info : MbsServiceInfo) : MbsServiceInfo :=
  { info with mbsMediaComps := some ((info.mbsMediaComps.getD []).map orderedCodecs) }

def said (s : PublicSession τ) : PublicSession τ :=
  { s with mbsServiceInfo := s.mbsServiceInfo.map saidInfo }

end Said

/-- The copy says what the source says, in every attribute and when it is encoded. -/
structure SameValue (w : World) (copy src : PublicSession Ref) : Prop where
  attributes : ∃ t, w.tmgiContent copy.tmgi = .ok t ∧ w.tmgiContent src.tmgi = .ok t ∧
    said (copy.content t) = said (src.content t)
  encoding : ∀ forUpdate, makeExtMbsSession forUpdate copy = makeExtMbsSession forUpdate src

/-- What is written through the source's pointers is not seen in the copy. A TMGI that the
source did not request is not its own. -/
structure Independent (w : World) (copy src : PublicSession Ref) : Prop where
  startTime : ∀ cell value, src.startTime = some cell →
    writeStartTime cell.address value copy = copy
  areaSessionId : ∀ cell value, src.areaSessionId = some cell →
    writeAreaSessionId cell.address value copy = copy
  tmgi : src.tmgiReq = true → ∀ t content, src.tmgi = some t →
    (w.modifyTmgi t fun x => { x with tmgi := content }).tmgiContent copy.tmgi =
      w.tmgiContent copy.tmgi

/-- The copy comes to be, with the source's value and on its own. -/
def SnapshotTaken (w : World) (dest : Option (PublicSession Ref)) (src : PublicSession Ref) : Prop :=
  ∃ w' copy, mbsSessionPublicCopy w dest src = .ok (w', copy) ∧ SameValue w' copy src ∧
    Independent w' copy src

/-! ## The condition -/

/-- No polygon of the area, or of the areas it is relative to, has points. -/
def PointsFree : GeographicArea → Prop
  | .polygon points => points = []
  | .local2dPointUncertaintyEllipse _ _ area _ _ _ _ =>
      match area with
      | none => True
      | some inner => PointsFree inner
  | .local3dPointUncertaintyEllipsoid _ _ area _ _ _ _ _ =>
      match area with
      | none => True
      | some inner => PointsFree inner
  | _ => True

/-- What the copy leaves out is not there, and nothing that it shares is. -/
structure Copyable (w : World) (dest : Option (PublicSession Ref)) (src : PublicSession Ref) :
    Prop where
  tmgis : TmgisInPlace w (dest.getD {}) src
  strings : StringsPresent src.mbsServiceInfo
  terminationTime : (dest.getD {}).terminationTime = src.terminationTime
  cells : ∀ area, src.mbsServiceArea = some area → ∀ n ∈ area.ncgiTais, n.ncgis = []
  polygons : ∀ area, src.extMbsServiceArea = some area → ∀ g ∈ area.geographicAreas, PointsFree g
  startTime : src.startTime = none
  areaSessionId : src.areaSessionId = none
  ownTmgi : src.tmgiReq = true → ∀ t, src.tmgi = some t → (dest.getD {}).tmgi ≠ some t

/-! ## Areas -/

theorem geographicAreaCopy_eq_iff (g : GeographicArea) : geographicAreaCopy g = g ↔ PointsFree g := by
  induction g using geographicAreaCopy.induct with
  | case1 points => simp [geographicAreaCopy, PointsFree, eq_comm]
  | case2 cid origin area horiz point ellipse conf ih =>
      cases area with
      | none => simp [geographicAreaCopy, PointsFree]
      | some inner => simpa [geographicAreaCopy, PointsFree] using ih
  | case3 cid origin area horiz point ellipse conf vconf ih =>
      cases area with
      | none => simp [geographicAreaCopy, PointsFree]
      | some inner => simpa [geographicAreaCopy, PointsFree] using ih
  | case4 area hpolygon h2d h3d =>
      cases area <;> simp_all [geographicAreaCopy, PointsFree]

theorem taiCopy_eq (t : Tai) : taiCopy t = t := rfl

theorem ncgiTaiCopy_eq_iff (n : NcgiTai) : ncgiTaiCopy n = n ↔ n.ncgis = [] := by
  obtain ⟨tai, ncgis⟩ := n
  simp [ncgiTaiCopy, taiCopy_eq, eq_comm]

/-- A list equals its image exactly when every element is kept. -/
theorem map_eq_self_iff {α : Type} (f : α → α) (xs : List α) :
    xs.map f = xs ↔ ∀ x ∈ xs, f x = x := by
  conv_lhs => rhs; rw [← List.map_id xs]
  exact List.map_inj_left

theorem mbsServiceAreaCopy_eq_iff (a : MbsServiceArea) :
    mbsServiceAreaCopy a = a ↔ ∀ n ∈ a.ncgiTais, n.ncgis = [] := by
  obtain ⟨ncgiTais, tais⟩ := a
  have htais : tais.map taiCopy = tais := (map_eq_self_iff taiCopy tais).2 fun t _ => taiCopy_eq t
  simp [mbsServiceAreaCopy, htais, map_eq_self_iff, ncgiTaiCopy_eq_iff]

theorem extMbsServiceAreaCopy_eq_iff (a : ExtMbsServiceArea) :
    extMbsServiceAreaCopy a = a ↔ ∀ g ∈ a.geographicAreas, PointsFree g := by
  obtain ⟨geographicAreas, civicAddresses⟩ := a
  have hcivic : civicAddresses.map civicAddressCopy = civicAddresses := List.map_id _
  simp [extMbsServiceAreaCopy, hcivic, map_eq_self_iff, geographicAreaCopy_eq_iff]

/-- An optional member equals its image exactly when what is there is kept. -/
theorem option_map_eq_self_iff {α : Type} (f : α → α) (o : Option α) :
    o.map f = o ↔ ∀ x, o = some x → f x = x := by
  cases o <;> simp

/-! ## Service information -/

theorem orderedCodecs_orderedCodecs (c : MbsMediaComp) :
    orderedCodecs (orderedCodecs c) = orderedCodecs c := by
  have hinfo : mbsMediaInfoCopy ∘ mbsMediaInfoCopy = mbsMediaInfoCopy := by
    funext info
    have hslots := codecSlots_copy info
    simp only [Function.comp_apply]
    rw [mbsMediaInfoCopy, hslots]
    rfl
  simp [orderedCodecs, hinfo]

theorem saidInfo_copiedInfo (dst : Option MbsServiceInfo) (info : MbsServiceInfo) :
    saidInfo (copiedInfo dst info) = saidInfo info := by
  obtain ⟨comps, app, ambr, prio⟩ := info
  cases comps with
  | some t => simp [saidInfo, copiedInfo, copiedComps, orderedCodecs_orderedCodecs]
  | none =>
      cases dst with
      | none => simp [saidInfo, copiedInfo, copiedComps]
      | some d => cases hd : d.mbsMediaComps <;> simp [saidInfo, copiedInfo, copiedComps, hd]

theorem mbsMediaInfoToJson_copy (info : MbsMediaInfo) :
    mbsMediaInfoToJson (mbsMediaInfoCopy info) = mbsMediaInfoToJson info := by
  obtain ⟨_, _, _, c0, c1⟩ := info
  cases c0 <;> cases c1 <;> rfl

theorem mbsMediaCompToJson_orderedCodecs (c : MbsMediaComp) :
    mbsMediaCompToJson (orderedCodecs c) = mbsMediaCompToJson c := by
  have hinfo : mbsMediaInfoToJson ∘ mbsMediaInfoCopy = mbsMediaInfoToJson :=
    funext mbsMediaInfoToJson_copy
  simp [mbsMediaCompToJson, orderedCodecs, hinfo]

/-- What the service information says is what it is encoded as. -/
theorem mbsServiceInfoToJson_saidInfo (info : MbsServiceInfo) :
    mbsServiceInfoToJson (saidInfo info) = mbsServiceInfoToJson info := by
  have hcomps : ∀ t : MediaCompTable,
      mbsMediaCompsToJson (t.map orderedCodecs) = mbsMediaCompsToJson t := by
    intro t
    simp only [mbsMediaCompsToJson, List.map_map, Function.comp_def,
      mbsMediaCompToJson_orderedCodecs]
    rfl
  simp [mbsServiceInfoToJson, saidInfo, hcomps]

/-! ## The copy's value -/

section Value

variable {τ : Type} {a b : PublicSession τ}

/-- A session is encoded by what it says. -/
theorem makeExtMbsSession_said (forUpdate : Bool) (s : PublicSession τ) :
    makeExtMbsSession forUpdate (said s) = makeExtMbsSession forUpdate s := by
  have hinfo : mbsServiceInfoToJson ∘ saidInfo = mbsServiceInfoToJson :=
    funext mbsServiceInfoToJson_saidInfo
  simp only [makeExtMbsSession, said, Option.map_map, hinfo]
  rfl

theorem makeExtMbsSession_content {σ : Type} (forUpdate : Bool) (s : PublicSession τ)
    (t : Option σ) : makeExtMbsSession forUpdate (s.content t) = makeExtMbsSession forUpdate s :=
  rfl

/-- Sessions that say the same are encoded alike. -/
theorem makeExtMbsSession_congr {t : Option Tmgi} (h : said (a.content t) = said (b.content t))
    (forUpdate : Bool) : makeExtMbsSession forUpdate a = makeExtMbsSession forUpdate b := by
  calc makeExtMbsSession forUpdate a
      = makeExtMbsSession forUpdate (said (a.content t)) := by
        rw [makeExtMbsSession_said, makeExtMbsSession_content]
    _ = makeExtMbsSession forUpdate (said (b.content t)) := by rw [h]
    _ = makeExtMbsSession forUpdate b := by
        rw [makeExtMbsSession_said, makeExtMbsSession_content]

/-- The copy says what the source says exactly when it leaves nothing out. -/
theorem said_copiedSession_iff {dst src : PublicSession τ} {r : Option τ} (t : Option Tmgi) :
    said ((copiedSession dst src r).content t) = said (src.content t) ↔
      dst.terminationTime = src.terminationTime ∧
        (∀ area, src.mbsServiceArea = some area → ∀ n ∈ area.ncgiTais, n.ncgis = []) ∧
        ∀ area, src.extMbsServiceArea = some area → ∀ g ∈ area.geographicAreas, PointsFree g := by
  have hinfo : saidInfo ∘ copiedInfo dst.mbsServiceInfo = saidInfo :=
    funext (saidInfo_copiedInfo dst.mbsServiceInfo)
  have harea := option_map_eq_self_iff mbsServiceAreaCopy src.mbsServiceArea
  have hext := option_map_eq_self_iff extMbsServiceAreaCopy src.extMbsServiceArea
  simp only [mbsServiceAreaCopy_eq_iff] at harea
  simp only [extMbsServiceAreaCopy_eq_iff] at hext
  rw [← harea, ← hext]
  simp only [said, PublicSession.content, copiedSession, Option.map_map, hinfo,
    PublicSession.mk.injEq, true_and, and_true]
  tauto

end Value

/-! ## What is shared -/

theorem writeCell_ne {α : Type} {cell : Cell α} {value : α} (h : value ≠ cell.value) :
    writeCell cell.address value (some cell) ≠ some cell := by
  intro hwrite
  rw [writeCell, Option.map_some, if_pos rfl] at hwrite
  exact h (congrArg Cell.value (Option.some.inj hwrite))

/-- The start time of the copy is the source's own. -/
theorem startTime_independent_iff {r : Option Ref} {dst : PublicSession Ref} :
    (∀ cell value, src.startTime = some cell →
      writeStartTime cell.address value (copiedSession dst src r) = copiedSession dst src r) ↔
      src.startTime = none := by
  constructor
  · intro h
    cases hcell : src.startTime with
    | none => rfl
    | some cell =>
        have hwrite := congrArg PublicSession.startTime (h cell (cell.value + 1) hcell)
        change writeCell cell.address _ src.startTime = src.startTime at hwrite
        rw [hcell] at hwrite
        exact absurd hwrite (writeCell_ne (by omega))
  · intro h cell value hcell
    rw [h] at hcell
    cases hcell

theorem areaSessionId_independent_iff {r : Option Ref} {dst : PublicSession Ref} :
    (∀ cell value, src.areaSessionId = some cell →
      writeAreaSessionId cell.address value (copiedSession dst src r) = copiedSession dst src r) ↔
      src.areaSessionId = none := by
  constructor
  · intro h
    cases hcell : src.areaSessionId with
    | none => rfl
    | some cell =>
        have hwrite := congrArg PublicSession.areaSessionId (h cell (cell.value + 1) hcell)
        change writeCell cell.address _ src.areaSessionId = src.areaSessionId at hwrite
        rw [hcell] at hwrite
        exact absurd hwrite (writeCell_ne (by omega))
  · intro h cell value hcell
    rw [h] at hcell
    cases hcell

/-- A write to a TMGI is seen through every pointer to it. -/
theorem tmgi_independent_iff {t : Ref} {r : Option Ref} (hlive : (w.tmgiStore t).isSome) :
    (∀ content, (w.modifyTmgi t fun x => { x with tmgi := content }).tmgiContent r =
      w.tmgiContent r) ↔ r ≠ some t := by
  obtain ⟨x, hx⟩ := Option.isSome_iff_exists.1 hlive
  constructor
  · rintro h rfl
    have hwrite := h { x.tmgi with expiryTime := x.tmgi.expiryTime + 1 }
    have hold : w.tmgiContent (some t) = .ok (some x.tmgi) :=
      tmgiContent_some_eq_ok.2 ⟨_, by simp [contentAt, hx], rfl⟩
    rw [hold, tmgiContent_some_eq_ok] at hwrite
    obtain ⟨y, hy, hxy⟩ := hwrite
    rw [contentAt_modifyTmgi, if_pos rfl, hx] at hy
    have hexpiry := congrArg Tmgi.expiryTime ((Option.some.inj hxy).trans (Option.some.inj hy).symm)
    simp at hexpiry
  · intro hne content
    cases r with
    | none => rfl
    | some q =>
        have hq : q ≠ t := fun h => hne (congrArg some h)
        have hstore : (w.modifyTmgi t fun x => { x with tmgi := content }).tmgiStore q =
            w.tmgiStore q := Store.modify_of_ne _ _ _ hq
        simp only [World.tmgiContent, World.tmgiAt, hstore]

/-- The copy of a TMGI is another object unless the destination already had the source's. -/
theorem copyTmgi_ne_iff {dst : PublicSession Ref} {t : Ref} {r : Option Ref}
    (hnext : w.tmgiStore w.next = none) (h : copyTmgi w dst src = .ok (w', r))
    (hreq : src.tmgiReq = true) (ht : src.tmgi = some t) : r ≠ some t ↔ dst.tmgi ≠ some t := by
  rw [copyTmgi, if_pos hreq, ht] at h
  by_cases hsame : dst.tmgi = some t
  · rw [hsame, tmgiCopy_self, Except.ok.injEq, Prod.mk.injEq] at h
    simp [hsame, ← h.2]
  · obtain ⟨x, hx, -, rfl, -⟩ := (tmgiCopy_some_eq_ok hsame).1 h
    refine iff_of_true ?_ hsame
    cases hd : dst.tmgi with
    | some d =>
        rw [hd] at hsame
        exact hsame
    | none =>
        have hne : w.next ≠ t := by
          rintro rfl
          rw [hnext] at hx
          cases hx
        exact fun heq => hne (Option.some.inj heq)

/-- A copy is a faithful snapshot of its own exactly when nothing that it leaves out or shares
is there. -/
theorem snapshot_taken_iff (w : World) (dest : Option (PublicSession Ref))
    (src : PublicSession Ref) (hnext : w.tmgiStore w.next = none) :
    SnapshotTaken w dest src ↔ Copyable w dest src := by
  constructor
  · rintro ⟨w', copy, hcopy, hvalue, hown⟩
    obtain ⟨r, hr, rfl, hstrings⟩ := mbsSessionPublicCopy_iff.1 hcopy
    obtain ⟨c, hc, hc', hsaid⟩ := hvalue.attributes
    obtain ⟨hplace, -⟩ := copyTmgi_reads hr hc hc'
    obtain ⟨htermination, hcells, hpolygons⟩ := (said_copiedSession_iff c).1 hsaid
    refine ⟨hplace, hstrings, htermination, hcells, hpolygons,
      startTime_independent_iff.1 hown.startTime,
      areaSessionId_independent_iff.1 hown.areaSessionId, fun hreq t ht => ?_⟩
    rw [ht, tmgiContent_some_eq_ok] at hc'
    obtain ⟨y, hy, -⟩ := hc'
    have hlive : (w'.tmgiStore t).isSome := by
      rw [← contentAt_isSome, hy]
      rfl
    exact (copyTmgi_ne_iff hnext hr hreq ht).1
      ((tmgi_independent_iff hlive).1 fun content => hown.tmgi hreq t content ht)
  · intro h
    obtain ⟨w', r, c, hr, hc, hc'⟩ := copyTmgi_of_inPlace h.tmgis
    have hsaid := (said_copiedSession_iff (r := r) c).2 ⟨h.terminationTime, h.cells, h.polygons⟩
    refine ⟨w', _, mbsSessionPublicCopy_iff.2 ⟨r, hr, rfl, h.strings⟩,
      ⟨⟨c, hc, hc', hsaid⟩, makeExtMbsSession_congr hsaid⟩,
      ⟨startTime_independent_iff.2 h.startTime, areaSessionId_independent_iff.2 h.areaSessionId,
        fun hreq t content ht => ?_⟩⟩
    rw [ht, tmgiContent_some_eq_ok] at hc'
    obtain ⟨y, hy, -⟩ := hc'
    have hlive : (w'.tmgiStore t).isSome := by
      rw [← contentAt_isSome, hy]
      rfl
    exact (tmgi_independent_iff hlive).2
      ((copyTmgi_ne_iff hnext hr hreq ht).2 (h.ownTmgi hreq t ht)) content

/-! ## A termination time -/

/-- A multicast session with its media components, one of them with a flow and two codecs. -/
def plainSession : PublicSession Ref :=
  { serviceType := .multicast
    dnn := some "internet"
    mbsServiceInfo := some
      { mbsMediaComps := some [
          { id := 1
            flowDescriptions := some [{ string := some "permit out ip from any to any" }]
            mediaInfo := some { codec0 := some "a", codec1 := some "b" } }] } }

theorem plainSession_copyable : Copyable {} none plainSession := by
  refine ⟨⟨nofun, nofun⟩, ?_, rfl, nofun, nofun, rfl, rfl, nofun⟩
  rintro info t hinfo ht c hc fs hfs f hf
  obtain rfl := Option.some.inj hinfo
  obtain rfl := Option.some.inj ht
  rw [List.mem_singleton] at hc
  subst hc
  obtain rfl := Option.some.inj hfs
  rw [List.mem_singleton] at hf
  subst hf
  rfl

theorem plain_snapshot : SnapshotTaken {} none plainSession :=
  (snapshot_taken_iff {} none plainSession rfl).2 plainSession_copyable

def endingSession : PublicSession Ref := { terminationTime := some 3600 }

/-- The first copy of a session that ends at some time does not say so. -/
theorem snapshot_loses_terminationTime : ¬ SnapshotTaken {} none endingSession := by
  rintro ⟨w', copy, hcopy, ⟨⟨c, -, -, hsaid⟩, -⟩, -⟩
  obtain ⟨r, -, rfl, -⟩ := mbsSessionPublicCopy_iff.1 hcopy
  have htermination := ((said_copiedSession_iff c).1 hsaid).1
  cases htermination

end ServiceConsumers.Snapshots
