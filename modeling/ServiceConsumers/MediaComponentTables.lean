import ServiceConsumers.MediaComponentPatches

set_option autoImplicit false

/-!
# Patches of media component tables

The components of a session are kept in a hash table by their numbers, and are sent as an
object with a member for each of them.
-/

namespace ServiceConsumers.MediaComponentTables

open JsonDocuments UnorderedArrays ForeignPatches MemberPatches PatchLists CarriedPatches
  MediaComponents MediaComponentPatches

/-! ## What is to hold -/

/-- The components in the order of the table's iterator, whichever that is. -/
def MediaCompMap : Type := { t : MediaCompTable // (t.map MbsMediaComp.id).Nodup }

/-- A table that is missing or empty is not sent. -/
def tableJson (t : MediaCompTable) : Option Json :=
  if t = [] then none else some (mbsMediaCompsToJson t)

/-- The patch from one table to another turns the one's object into the other's. -/
def TablePatchesTo (a b : MediaCompMap) : Prop := ∃ ps,
  mbsMediaCompsPatchList a.1 b.1 = some ps ∧ patchValue (tableJson a.1) ps = some (tableJson b.1)

/-! ## The condition -/

/-- A component of both tables: its own patch is right, and removes nothing. -/
structure CompPatchable (x y : MbsMediaComp) : Prop where
  patchable : Patchable x y
  priority : x.mbsSdfReservePriority ≠ 0 → y.mbsSdfReservePriority ≠ 0
  qosRef : Stays x.qosRef y.qosRef

/-- Either table is empty, or no component is new and those of both tables can be patched. -/
def TablePatchable (a b : MediaCompMap) : Prop :=
  a.1 = [] ∨ b.1 = [] ∨ (∀ y ∈ b.1, ∃ x ∈ a.1, x.id = y.id) ∧
    ∀ x ∈ a.1, ∀ y ∈ b.1, x.id = y.id → CompPatchable x y

variable {x y : MbsMediaComp} {a b : MediaCompTable} {out acc : List PatchItem} {id : ℤ}

/-! ## Components of both tables -/

theorem stays_reservePriority {p q : ℕ} :
    Stays (reservePriority p) (reservePriority q) ↔ (p ≠ 0 → q ≠ 0) := by
  unfold Stays reservePriority
  by_cases hp : p = 0 <;> by_cases hq : q = 0 <;> simp [hp, hq]

theorem valued_qosRefItems {r s : Option String} : Valued (qosRefItems r s) ↔ Stays r s := by
  unfold qosRefItems
  split
  · rename_i h
    exact iff_of_true valued_nil fun hr => h ▸ hr
  · exact valued_optional _ _ _

/-- Within the table's patch a component's own removals cannot be copied. -/
theorem carries_comp_iff (x y : MbsMediaComp) :
    Carries (mbsMediaCompPatchList x y) (some (mbsMediaCompToJson x))
      (some (mbsMediaCompToJson y)) ↔ CompPatchable x y := by
  have hvalued : ∀ flows infos reqs, Valued flows → Valued infos → Valued reqs →
      (Valued (objectPatch (compRows x y flows infos reqs)) ↔
        (x.mbsSdfReservePriority ≠ 0 → y.mbsSdfReservePriority ≠ 0) ∧ Stays x.qosRef y.qosRef) := by
    intro flows infos reqs hflows hinfos hreqs
    rw [valued_objectPatch]
    simp only [compRows, List.forall_mem_cons, valued_optional, stays_reservePriority,
      valued_qosRefItems]
    constructor
    · rintro ⟨-, -, hprio, -, href, -⟩
      exact ⟨hprio, href⟩
    · rintro ⟨hprio, href⟩
      exact ⟨valued_required _ _ _, hflows, hprio, hinfos, href, hreqs, List.forall_mem_nil _⟩
  constructor
  · rintro ⟨ps, hps, hvps, hpatch⟩
    obtain ⟨flows, infos, reqs, -, hvflows, -, hvinfos, -, hvreqs, rfl⟩ :=
      mbsMediaCompPatchList_eq_some.1 hps
    obtain ⟨hprio, href⟩ := (hvalued flows infos reqs hvflows hvinfos hvreqs).1 hvps
    rw [patchValue_some objectPatch_paths, Option.map_eq_some_iff] at hpatch
    obtain ⟨doc, hdoc, heq⟩ := hpatch
    rw [Option.some.injEq] at heq
    subst heq
    exact ⟨patchable_of_patchesTo ⟨_, hps, hdoc⟩, hprio, href⟩
  · rintro ⟨hpatchable, hprio, href⟩
    obtain ⟨ps, hps, hpatch⟩ := patchesTo_of_patchable hpatchable
    obtain ⟨flows, infos, reqs, -, hvflows, -, hvinfos, -, hvreqs, rfl⟩ :=
      mbsMediaCompPatchList_eq_some.1 hps
    refine ⟨_, hps, (hvalued flows infos reqs hvflows hvinfos hvreqs).2 ⟨hprio, href⟩, ?_⟩
    rw [patchValue_some objectPatch_paths, hpatch]
    rfl

/-! ## The members of a table -/

theorem repr_nat_inj {m n : ℕ} (h : m.repr = n.repr) : m = n := by
  have hdigits := congrArg (fun t : String => Nat.ofDigitChars 10 t.toList 0) h
  simpa only [Nat.toList_repr, Nat.ofDigitChars_ten_toDigits] using hdigits

/-- No number without a sign starts with one. -/
theorem minus_repr_ne {m n : ℕ} : "-" ++ m.repr ≠ n.repr := by
  intro h
  have hlist := congrArg String.toList h
  rw [String.toList_append, Nat.toList_repr, Nat.toList_repr] at hlist
  have hmem : '-' ∈ Nat.toDigits 10 n := by
    rw [← hlist]
    exact List.mem_append_left _ (by decide)
  exact absurd (Nat.isDigit_of_mem_toDigits (by decide) (by decide) hmem) (by decide)

/-- Different numbers are different members. -/
theorem toString_int_inj {m n : ℤ} (h : toString m = toString n) : m = n := by
  rw [Int.toString_eq_repr, Int.toString_eq_repr, Int.repr_eq_if, Int.repr_eq_if] at h
  split at h
  · split at h
    · have hnat := repr_nat_inj h
      omega
    · exact absurd h.symm minus_repr_ne
  · split at h
    · exact absurd h minus_repr_ne
    · have hnat := repr_nat_inj (String.append_right_inj "-" |>.1 h)
      omega

/-- The row of a component of the first table. -/
def RowFor (b : MediaCompTable) (x : MbsMediaComp) (r : MemberPatch) : Prop :=
  r.name = toString x.id ∧ r.before = some (mbsMediaCompToJson x) ∧
    r.after = (findMediaComp b x.id).map mbsMediaCompToJson ∧
    match findMediaComp b x.id with
    | none => r.patches = [jsonPatchNew .remove [] none]
    | some y => mbsMediaCompPatchList x y = some r.patches ∧ Valued r.patches

/-- The first loop. -/
def patchesOf (b : MediaCompTable) (patches : List PatchItem) (x : MbsMediaComp) :
    Option (List PatchItem) :=
  match findMediaComp b x.id with
  | none => some (patches ++ [jsonPatchNew .remove [mediaCompKey x.id] none])
  | some y => appendPatches patches (mbsMediaCompPatchList x y) [mediaCompKey x.id]

theorem patchesOf_eq_some : patchesOf b acc x = some out ↔
    ∃ r, RowFor b x r ∧ out = acc ++ r.patches.map (below r.name) := by
  unfold patchesOf RowFor
  cases hfind : findMediaComp b x.id with
  | none =>
      dsimp only
      rw [Option.some.injEq]
      constructor
      · rintro rfl
        exact ⟨⟨toString x.id, some (mbsMediaCompToJson x), [jsonPatchNew .remove [] none], none⟩,
          ⟨rfl, rfl, rfl, rfl⟩, rfl⟩
      · rintro ⟨⟨name, before, patches, after⟩, ⟨rfl, -, -, rfl⟩, rfl⟩
        rfl
  | some y =>
      dsimp only
      rw [mediaCompKey, appendPatches_key]
      constructor
      · rintro ⟨items, hitems, hvalued, rfl⟩
        exact ⟨⟨toString x.id, some (mbsMediaCompToJson x), items, some (mbsMediaCompToJson y)⟩,
          ⟨rfl, rfl, rfl, hitems, hvalued⟩, rfl⟩
      · rintro ⟨⟨name, before, patches, after⟩, ⟨rfl, -, -, hitems, hvalued⟩, rfl⟩
        exact ⟨patches, hitems, hvalued, rfl⟩

theorem foldlM_patchesOf : a.foldlM (patchesOf b) acc = some out ↔
    ∃ rows, List.Forall₂ (RowFor b) a rows ∧ out = acc ++ objectPatch rows := by
  induction a generalizing acc with
  | nil =>
      rw [List.foldlM_nil]
      constructor
      · intro h
        obtain rfl := Option.some.inj h
        exact ⟨[], .nil, (List.append_nil _).symm⟩
      · rintro ⟨rows, hrows, rfl⟩
        cases hrows
        exact congrArg some (List.append_nil _).symm
  | cons x a ih =>
      simp only [List.foldlM_cons, bind, Option.bind_eq_some_iff, patchesOf_eq_some, ih]
      constructor
      · rintro ⟨_, ⟨r, hr, rfl⟩, rows, hrows, rfl⟩
        exact ⟨r :: rows, .cons hr hrows, List.append_assoc _ _ _⟩
      · rintro ⟨rows, hrows, rfl⟩
        cases hrows with
        | cons hr hrows =>
            exact ⟨_, ⟨_, hr, rfl⟩, _, hrows, (List.append_assoc _ _ _).symm⟩

/-- The second loop reads a component of the first table for every new one. -/
theorem foldlM_new {patches : List PatchItem} :
    b.foldlM (fun patches y => match findMediaComp a y.id with
        | none => none
        | some _ => some patches) patches = some out ↔
      (∀ y ∈ b, (findMediaComp a y.id).isSome = true) ∧ out = patches := by
  induction b with
  | nil =>
      change some patches = some out ↔ _
      rw [Option.some.injEq, eq_comm, and_iff_right fun y hy => by cases hy]
  | cons y b ih =>
      rw [List.foldlM_cons, List.forall_mem_cons]
      cases findMediaComp a y.id with
      | none => exact iff_of_false (fun h => by cases h) fun h => by cases h.1.1
      | some x =>
          refine ih.trans ?_
          rw [Option.isSome_some, and_iff_right rfl]

theorem findMediaComp_eq_some (hnodup : (b.map MbsMediaComp.id).Nodup) :
    findMediaComp b id = some y ↔ y ∈ b ∧ y.id = id := by
  constructor
  · intro h
    exact ⟨List.mem_of_find?_eq_some h, by simpa using List.find?_some h⟩
  · rintro ⟨hy, rfl⟩
    cases hfind : findMediaComp b y.id with
    | none =>
        have hnone := List.find?_eq_none.1 hfind y hy
        simp at hnone
    | some z =>
        have hid : z.id = y.id := by simpa using List.find?_some hfind
        rw [List.inj_on_of_nodup_map hnodup (List.mem_of_find?_eq_some hfind) hy hid]

/-! ## Tables -/

variable {rows : List MemberPatch} {c d : MbsMediaComp} {cs ds : MediaCompTable}

theorem mbsMediaCompsPatchList_eq_some : mbsMediaCompsPatchList (c :: cs) (d :: ds) = some out ↔
    (∀ y ∈ d :: ds, (findMediaComp (c :: cs) y.id).isSome = true) ∧
      ∃ rows, List.Forall₂ (RowFor (d :: ds)) (c :: cs) rows ∧ out = objectPatch rows := by
  have hfirst : mbsMediaCompsPatchList (c :: cs) (d :: ds) =
      ((c :: cs).foldlM (patchesOf (d :: ds)) []).bind fun patches =>
        (d :: ds).foldlM (fun patches y =>
          match findMediaComp (c :: cs) y.id with
          | none => none
          | some _ => some patches) patches := rfl
  simp only [hfirst, Option.bind_eq_some_iff, foldlM_patchesOf, foldlM_new, List.nil_append]
  constructor
  · rintro ⟨_, ⟨rows, hrows, rfl⟩, hall, rfl⟩
    exact ⟨hall, rows, hrows, rfl⟩
  · rintro ⟨hall, rows, hrows, rfl⟩
    exact ⟨_, ⟨rows, hrows, rfl⟩, hall, rfl⟩

theorem rows_names (h : List.Forall₂ (RowFor b) a rows) :
    rows.map MemberPatch.name = a.map fun x => toString x.id := by
  induction h with
  | nil => rfl
  | cons hr _ ih => rw [List.map_cons, List.map_cons, ih, hr.1]

theorem rows_before (h : List.Forall₂ (RowFor b) a rows) :
    objectBefore rows = mbsMediaCompsToJson a := by
  have hlist : rows.map (fun r => (r.name, r.before)) =
      a.map fun x => (toString x.id, some (mbsMediaCompToJson x)) := by
    induction h with
    | nil => rfl
    | cons hr _ ih => rw [List.map_cons, List.map_cons, ih, hr.1, hr.2.1]
  rw [objectBefore, hlist, mbsMediaCompsToJson]

/-- A member of a table's object is for the component of that number. -/
theorem lookup_table (hnodup : (a.map MbsMediaComp.id).Nodup) (f : MbsMediaComp → Option Json)
    (id : ℤ) : Members.lookup (toString id) (Members.ofList
        (a.map fun x => (toString x.id, f x))) = (findMediaComp a id).bind f := by
  induction a with
  | nil => rfl
  | cons x a ih =>
      rw [List.map_cons, List.nodup_cons] at hnodup
      by_cases hid : x.id = id
      · have habsent : Members.lookup (toString id) (Members.ofList
            (a.map fun x => (toString x.id, f x))) = none := by
          refine lookup_ofList_eq_none fun hmem => hnodup.1 ?_
          rw [List.map_map] at hmem
          obtain ⟨y, hy, heq⟩ := List.mem_map.1 hmem
          exact List.mem_map.2 ⟨y, hy, (toString_int_inj heq).trans hid.symm⟩
        rw [List.map_cons, hid, lookup_ofList_self habsent, findMediaComp,
          List.find?_cons_of_pos (by simpa using hid)]
        rfl
      · rw [List.map_cons, lookup_ofList_cons, if_neg fun h => hid (toString_int_inj h.1),
          ih hnodup.2, findMediaComp, findMediaComp, List.find?_cons_of_neg (by simpa using hid)]

theorem rows_after (ha : (a.map MbsMediaComp.id).Nodup) (hb : (b.map MbsMediaComp.id).Nodup)
    (h : List.Forall₂ (RowFor b) a rows)
    (hall : ∀ y ∈ b, (findMediaComp a y.id).isSome = true) :
    objectAfter rows = mbsMediaCompsToJson b := by
  have hlist : rows.map (fun r => (r.name, r.after)) =
      a.map fun x => (toString x.id, (findMediaComp b x.id).map mbsMediaCompToJson) := by
    clear ha hall
    induction h with
    | nil => rfl
    | cons hr _ ih => rw [List.map_cons, List.map_cons, ih, hr.1, hr.2.2.1]
  rw [objectAfter, hlist, mbsMediaCompsToJson]
  refine congrArg Json.obj (eq_of_lookup (sorted_ofList _) (sorted_ofList _) fun name => ?_)
  by_cases hname : ∃ x ∈ a, toString x.id = name
  · obtain ⟨x, hx, rfl⟩ := hname
    have hfind : findMediaComp a x.id = some x := (findMediaComp_eq_some ha).2 ⟨hx, rfl⟩
    rw [lookup_table ha, lookup_table hb, hfind, Option.bind_some, Option.map_eq_bind]
    rfl
  · have habsent : ∀ f : MbsMediaComp → Option Json,
        name ∉ (a.map fun x => (toString x.id, f x)).map Prod.fst := by
      intro f hmem
      rw [List.map_map] at hmem
      exact hname (List.mem_map.1 hmem)
    rw [lookup_ofList_eq_none (habsent _), lookup_ofList_eq_none]
    intro hmem
    rw [List.map_map] at hmem
    obtain ⟨y, hy, rfl⟩ := List.mem_map.1 hmem
    obtain ⟨x, hx⟩ := Option.isSome_iff_exists.1 (hall y hy)
    obtain ⟨hmem, hid⟩ := (findMediaComp_eq_some ha).1 hx
    exact hname ⟨x, hmem, congrArg toString hid⟩

/-- What a row is to do is to remove a component or to patch it. -/
theorem right_of_row {r : MemberPatch} (hr : RowFor b x r) : r.Right ↔
    ∀ y, findMediaComp b x.id = some y → Carries (mbsMediaCompPatchList x y)
      (some (mbsMediaCompToJson x)) (some (mbsMediaCompToJson y)) := by
  obtain ⟨name, before, patches, after⟩ := r
  obtain ⟨-, hbefore, hafter, hpatches⟩ := hr
  dsimp only at hbefore hafter hpatches
  subst hbefore hafter
  unfold MemberPatch.Right
  cases hfind : findMediaComp b x.id with
  | none =>
      rw [hfind] at hpatches
      dsimp only at hpatches
      subst hpatches
      exact iff_of_true rfl fun y hy => by cases hy
  | some y =>
      rw [hfind] at hpatches
      dsimp only at hpatches
      obtain ⟨hitems, hvalued⟩ := hpatches
      rw [Option.map_some]
      constructor
      · intro hright z hz
        obtain rfl := Option.some.inj hz
        exact ⟨patches, hitems, hvalued, hright⟩
      · intro hcarries
        obtain ⟨items, hitems', -, hright⟩ := hcarries y rfl
        obtain rfl := Option.some.inj (hitems.symm.trans hitems')
        exact hright

/-- Where every component of both tables can be patched there is a row for each. -/
theorem exists_rows (h : ∀ x ∈ a, ∀ y, findMediaComp b x.id = some y → CompPatchable x y) :
    ∃ rows, List.Forall₂ (RowFor b) a rows := by
  induction a with
  | nil => exact ⟨[], .nil⟩
  | cons x a ih =>
      obtain ⟨hx, ha⟩ := List.forall_mem_cons.1 h
      obtain ⟨rows, hrows⟩ := ih ha
      obtain ⟨r, hr⟩ : ∃ r, RowFor b x r := by
        unfold RowFor
        cases hfind : findMediaComp b x.id with
        | none => exact ⟨⟨_, _, _, _⟩, rfl, rfl, rfl, rfl⟩
        | some y =>
            obtain ⟨items, hitems, hvalued, -⟩ := (carries_comp_iff x y).2 (hx y hfind)
            exact ⟨⟨_, _, items, _⟩, rfl, rfl, rfl, hitems, hvalued⟩
      exact ⟨r :: rows, .cons hr hrows⟩

theorem forall_right_iff (h : List.Forall₂ (RowFor b) a rows) : (∀ r ∈ rows, r.Right) ↔
    ∀ x ∈ a, ∀ y, findMediaComp b x.id = some y → CompPatchable x y := by
  induction h with
  | nil => exact iff_of_true (fun r hr => by cases hr) fun x hx => by cases hx
  | cons hr _ ih =>
      rw [List.forall_mem_cons, List.forall_mem_cons, ih, right_of_row hr]
      simp only [carries_comp_iff]

theorem rows_nodup (ha : (a.map MbsMediaComp.id).Nodup) (h : List.Forall₂ (RowFor b) a rows) :
    (rows.map MemberPatch.name).Nodup := by
  have hids : a.map (fun x => toString x.id) = (a.map MbsMediaComp.id).map toString :=
    (List.map_map ..).symm
  rw [rows_names h, hids]
  exact ha.map fun m n h => toString_int_inj h

/-- The rows of a table do together what each is to do. -/
theorem patch_rows_iff (ha : ((c :: cs).map MbsMediaComp.id).Nodup)
    (hb : ((d :: ds).map MbsMediaComp.id).Nodup)
    (h : List.Forall₂ (RowFor (d :: ds)) (c :: cs) rows)
    (hall : ∀ y ∈ d :: ds, (findMediaComp (c :: cs) y.id).isSome = true) :
    patchValue (tableJson (c :: cs)) (objectPatch rows) = some (tableJson (d :: ds)) ↔
      ∀ x ∈ c :: cs, ∀ y, findMediaComp (d :: ds) x.id = some y → CompPatchable x y := by
  rw [tableJson, tableJson, if_neg (List.cons_ne_nil _ _), if_neg (List.cons_ne_nil _ _),
    patchValue_some objectPatch_paths, ← rows_before h, ← rows_after ha hb h hall,
    ← forall_right_iff h, ← applyPatch_object_iff (rows_nodup ha h), Option.map_eq_some_iff]
  simp

theorem forall_found_iff (hb : (b.map MbsMediaComp.id).Nodup) :
    (∀ x ∈ a, ∀ y, findMediaComp b x.id = some y → CompPatchable x y) ↔
      ∀ x ∈ a, ∀ y ∈ b, x.id = y.id → CompPatchable x y := by
  simp only [findMediaComp_eq_some hb]
  exact ⟨fun h x hx y hy hid => h x hx y ⟨hy, hid.symm⟩, fun h x hx y hy => h x hx y hy.1 hy.2.symm⟩

theorem forall_known_iff (ha : (a.map MbsMediaComp.id).Nodup) :
    (∀ y ∈ b, (findMediaComp a y.id).isSome = true) ↔ ∀ y ∈ b, ∃ x ∈ a, x.id = y.id := by
  simp only [Option.isSome_iff_exists, findMediaComp_eq_some ha]

/-- A table is patched as it should be exactly when no component is new and the patches of the
others are right on their own. -/
theorem tablePatchesTo_iff (a b : MediaCompMap) : TablePatchesTo a b ↔ TablePatchable a b := by
  obtain ⟨a, ha⟩ := a
  obtain ⟨b, hb⟩ := b
  unfold TablePatchesTo TablePatchable
  dsimp only
  cases a with
  | nil =>
      refine iff_of_true ?_ (.inl rfl)
      cases b with
      | nil => exact ⟨[], rfl, rfl⟩
      | cons d ds => exact ⟨_, rfl, rfl⟩
  | cons c cs =>
      cases b with
      | nil => exact iff_of_true ⟨_, rfl, rfl⟩ (.inr (.inl rfl))
      | cons d ds =>
          simp only [mbsMediaCompsPatchList_eq_some, List.cons_ne_nil, false_or]
          rw [← forall_known_iff ha, ← forall_found_iff hb]
          constructor
          · rintro ⟨ps, ⟨hall, rows, hrows, rfl⟩, h⟩
            exact ⟨hall, (patch_rows_iff ha hb hrows hall).1 h⟩
          · rintro ⟨hall, h⟩
            obtain ⟨rows, hrows⟩ := exists_rows h
            exact ⟨_, ⟨hall, rows, hrows, rfl⟩, (patch_rows_iff ha hb hrows hall).2 h⟩

/-- A new component crashes the differ. -/
theorem not_tablePatchesTo_new :
    ¬ TablePatchesTo ⟨[{ id := 1 }], by decide⟩ ⟨[{ id := 1 }, { id := 2 }], by decide⟩ := by
  rintro ⟨ps, hps, -⟩
  cases hps

end ServiceConsumers.MediaComponentTables
