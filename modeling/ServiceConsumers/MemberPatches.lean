import Mathlib.Data.List.Sort
import ServiceConsumers.ForeignPatches

set_option autoImplicit false

/-!
# Patches that go member by member

Objects list their members in order, so that an object is known by its lookups. A patch that
is put together from one patch for each member does what these do, one member at a time.
-/

namespace ServiceConsumers.MemberPatches

open JsonDocuments UnorderedArrays ForeignPatches

variable {ms ms' : Members} {k name : String} {v v' : Option Json} {doc : Json}
  {ps : List PatchItem}

/-! ## Objects and their lookups -/

def Sorted (ms : Members) : Prop := ms.Pairwise fun m m' => m.1 < m'.1

/-- A member is set, or taken away. -/
def setMember (k : String) (v : Option Json) (ms : Members) : Members :=
  match v with
  | none => Members.remove k ms
  | some j => Members.insert k j ms

theorem lookup_remove (name k : String) (ms : Members) :
    Members.lookup name (Members.remove k ms) =
      if k = name then none else Members.lookup name ms := by
  induction ms with
  | nil => simp [Members.remove, Members.lookup]
  | cons m ms ih =>
      obtain ⟨k', u⟩ := m
      by_cases hk : k' = k
      · subst hk
        have hremove : Members.remove k' ((k', u) :: ms) = Members.remove k' ms := by
          simp [Members.remove]
        rw [hremove, ih]
        by_cases hname : k' = name
        · rw [if_pos hname, if_pos hname]
        · rw [if_neg hname, if_neg hname, Members.lookup, if_neg hname]
      · have hremove : Members.remove k ((k', u) :: ms) = (k', u) :: Members.remove k ms := by
          simp [Members.remove, hk]
        rw [hremove, Members.lookup, Members.lookup, ih]
        by_cases hname : k' = name
        · subst hname
          rw [if_pos rfl, if_pos rfl, if_neg fun h => hk h.symm]
        · rw [if_neg hname, if_neg hname]

theorem lookup_setMember : Members.lookup name (setMember k v ms) =
    if k = name then v else Members.lookup name ms := by
  cases v with
  | none => exact lookup_remove name k ms
  | some j => exact lookup_insert name k j ms

theorem mem_insert {m : String × Json} {j : Json} (h : m ∈ Members.insert k j ms) :
    m.1 = k ∨ m ∈ ms := by
  induction ms with
  | nil => exact .inl (congrArg Prod.fst (List.mem_singleton.1 h))
  | cons m' ms ih =>
      obtain ⟨k', u⟩ := m'
      simp only [Members.insert] at h
      split at h
      · rcases List.mem_cons.1 h with rfl | h
        · exact .inl rfl
        · exact .inr h
      · split at h
        · rcases List.mem_cons.1 h with rfl | h
          · exact .inl rfl
          · exact .inr (List.mem_cons_of_mem _ h)
        · rcases List.mem_cons.1 h with rfl | h
          · exact .inr List.mem_cons_self
          · rcases ih h with h | h
            · exact .inl h
            · exact .inr (List.mem_cons_of_mem _ h)

theorem sorted_insert {j : Json} (h : Sorted ms) : Sorted (Members.insert k j ms) := by
  induction ms with
  | nil => exact List.pairwise_singleton _ _
  | cons m ms ih =>
      obtain ⟨k', u⟩ := m
      obtain ⟨hhead, htail⟩ := List.pairwise_cons.1 h
      simp only [Members.insert]
      split
      · rename_i hlt
        refine List.pairwise_cons.2 ⟨fun m hm => ?_, h⟩
        rcases List.mem_cons.1 hm with rfl | hm
        · exact hlt
        · exact lt_trans hlt (hhead m hm)
      · rename_i hnot
        split
        · rename_i heq
          subst heq
          exact List.pairwise_cons.2 ⟨hhead, htail⟩
        · rename_i hne
          have hlt : k' < k := lt_of_le_of_ne (not_lt.1 hnot) (Ne.symm hne)
          refine List.pairwise_cons.2 ⟨fun m hm => ?_, ih htail⟩
          rcases mem_insert hm with hm | hm
          · rw [hm]
            exact hlt
          · exact hhead m hm

theorem sorted_setMember (h : Sorted ms) : Sorted (setMember k v ms) := by
  cases v with
  | none => exact h.filter _
  | some j => exact sorted_insert h

theorem sorted_ofList (l : List (String × Option Json)) : Sorted (Members.ofList l) := by
  induction l with
  | nil => exact List.Pairwise.nil
  | cons m l ih =>
      obtain ⟨k, v⟩ := m
      cases v with
      | none => exact ih
      | some j => exact sorted_insert ih

theorem ofList_absent (k : String) (l : List (String × Option Json)) :
    Members.ofList ((k, none) :: l) = Members.ofList l := rfl

theorem ofList_congr {m : String × Option Json} {l l' : List (String × Option Json)}
    (h : Members.ofList l = Members.ofList l') :
    Members.ofList (m :: l) = Members.ofList (m :: l') := by
  obtain ⟨k, v⟩ := m
  cases v with
  | none => exact h
  | some j => exact congrArg (Members.insert k j) h

theorem lookup_eq_none_of_lt (h : ∀ m ∈ ms, name < m.1) : Members.lookup name ms = none := by
  induction ms with
  | nil => rfl
  | cons m ms ih =>
      obtain ⟨hm, hms⟩ := List.forall_mem_cons.1 h
      rw [Members.lookup, if_neg (ne_of_gt hm)]
      exact ih hms

/-- The first member of an object is its least. -/
theorem le_of_lookup_cons {u j : Json} (h : Sorted ((k, u) :: ms))
    (hname : Members.lookup name ((k, u) :: ms) = some j) : k ≤ name := by
  by_contra hlt
  have hnone : Members.lookup name ((k, u) :: ms) = none := by
    refine lookup_eq_none_of_lt (List.forall_mem_cons.2 ⟨not_le.1 hlt, fun m hm => ?_⟩)
    exact lt_trans (not_le.1 hlt) ((List.pairwise_cons.1 h).1 m hm)
  rw [hnone] at hname
  cases hname

theorem eq_of_lookup (h : Sorted ms) (h' : Sorted ms')
    (heq : ∀ name, Members.lookup name ms = Members.lookup name ms') : ms = ms' := by
  induction ms generalizing ms' with
  | nil =>
      cases ms' with
      | nil => rfl
      | cons m ms' =>
          have hm := heq m.1
          rw [Members.lookup, Members.lookup, if_pos rfl] at hm
          cases hm
  | cons m ms ih =>
      obtain ⟨k, u⟩ := m
      have hk : Members.lookup k ((k, u) :: ms) = some u := if_pos rfl
      cases ms' with
      | nil =>
          rw [heq k] at hk
          cases hk
      | cons m' ms' =>
          obtain ⟨k', u'⟩ := m'
          have hk' : Members.lookup k' ((k', u') :: ms') = some u' := if_pos rfl
          obtain rfl : k = k' := le_antisymm (le_of_lookup_cons h ((heq k').trans hk'))
            (le_of_lookup_cons h' ((heq k).symm.trans hk))
          obtain rfl : u = u' := Option.some.inj (hk.symm.trans ((heq k).trans hk'))
          obtain ⟨hhead, htail⟩ := List.pairwise_cons.1 h
          obtain ⟨hhead', htail'⟩ := List.pairwise_cons.1 h'
          rw [ih htail htail' fun name => ?_]
          by_cases hname : k = name
          · subst hname
            rw [lookup_eq_none_of_lt hhead, lookup_eq_none_of_lt hhead']
          · have hboth := heq name
            rwa [Members.lookup, Members.lookup, if_neg hname, if_neg hname] at hboth

/-- Objects with the same names, each name once, are equal place by place. -/
theorem obj_ofList_inj {l l' : List (String × Option Json)}
    (hnames : l.map Prod.fst = l'.map Prod.fst) (hnodup : (l.map Prod.fst).Nodup) :
    Json.obj (Members.ofList l) = Json.obj (Members.ofList l') ↔
      List.Forall₂ (fun m m' => m.2 = m'.2) l l' := by
  have hrel : ∀ v w : Option Json, Option.Rel (· = ·) v w ↔ v = w := fun v w => by
    simpa using rel_eq_map_iff (f := id) (x := v) (y := w)
  have hplaces := forall_lookup_iff (R := (· = ·)) hnames hnodup
  simp only [hrel] at hplaces
  rw [← hplaces, Json.obj.injEq]
  exact ⟨fun h name => by rw [h], eq_of_lookup (sorted_ofList l) (sorted_ofList l')⟩

theorem setMember_lookup (h : Sorted ms) : setMember k (Members.lookup k ms) ms = ms := by
  refine eq_of_lookup (sorted_setMember h) h fun name => ?_
  rw [lookup_setMember]
  split
  · rename_i hk
    rw [hk]
  · rfl

theorem setMember_setMember (h : Sorted ms) :
    setMember k v' (setMember k v ms) = setMember k v' ms := by
  refine eq_of_lookup (sorted_setMember (sorted_setMember h)) (sorted_setMember h) fun name => ?_
  rw [lookup_setMember, lookup_setMember, lookup_setMember]
  split <;> rfl

/-! ## The patch of one member -/

/-- One operation on a value that may be missing. -/
def applyWhole (doc : Option Json) (p : PatchItem) : Option (Option Json) :=
  match p.path with
  | [] =>
      match p.op, doc with
      | .remove, some _ => some none
      | .add, _ => p.value.map some
      | .replace, some _ => p.value.map some
      | _, none => none
  | _ :: _ => doc.bind fun j => (applyItem j p).map some

def patchValue (doc : Option Json) (ps : List PatchItem) : Option (Option Json) :=
  ps.foldlM applyWhole doc

/-- The operation as it reads from outside the member. -/
def below (k : String) (p : PatchItem) : PatchItem := { p with path := .key k :: p.path }

theorem patchValue_nil (doc : Option Json) : patchValue doc [] = some doc := rfl

theorem patchValue_cons (doc : Option Json) (p : PatchItem) (ps : List PatchItem) :
    patchValue doc (p :: ps) = (applyWhole doc p).bind fun doc' => patchValue doc' ps := by
  rw [patchValue, List.foldlM_cons]
  rfl

/-- An operation inside a member does to the object what it does to the member. -/
theorem applyItem_member (ms : Members) (k : String) (p : PatchItem) :
    applyItem (.obj ms) (below k p) =
      (applyWhole (Members.lookup k ms) p).map fun v => .obj (setMember k v ms) := by
  obtain ⟨op, path, value⟩ := p
  cases path with
  | nil =>
      change applyAt op value (.key k) (.obj ms) = _
      cases hk : Members.lookup k ms with
      | none => cases op <;> cases value <;> simp [applyAt, applyWhole, hk, setMember]
      | some j => cases op <;> cases value <;> simp [applyAt, applyWhole, hk, setMember]
  | cons t ts =>
      change within (applyPath op value (t :: ts)) (.key k) (.obj ms) = _
      cases hk : Members.lookup k ms with
      | none => simp [within, applyWhole, hk]
      | some j =>
          simp only [within, hk, applyWhole, Option.bind_some, Option.map_map]
          rfl

theorem applyPatch_member (h : Sorted ms) :
    applyPatch (.obj ms) (ps.map (below k)) =
      (patchValue (Members.lookup k ms) ps).map fun v => .obj (setMember k v ms) := by
  induction ps generalizing ms with
  | nil =>
      rw [List.map_nil, applyPatch_nil, patchValue_nil, Option.map_some, setMember_lookup h]
  | cons p ps ih =>
      rw [List.map_cons, applyPatch_cons, applyItem_member, patchValue_cons]
      cases applyWhole (Members.lookup k ms) p with
      | none => rfl
      | some v =>
          rw [Option.map_some, Option.bind_some, Option.bind_some, ih (sorted_setMember h),
            lookup_setMember, if_pos rfl]
          congr 1
          funext v'
          rw [setMember_setMember h]

/-- Operations that do not go at the whole need a value to go into. -/
theorem patchValue_none (h : ∀ p ∈ ps, p.path ≠ []) :
    patchValue none ps = if ps = [] then some none else none := by
  cases ps with
  | nil => rfl
  | cons p ps =>
      obtain ⟨t, ts, hpath⟩ := List.exists_cons_of_ne_nil (h p List.mem_cons_self)
      obtain ⟨op, path, value⟩ := p
      obtain rfl : path = t :: ts := hpath
      rw [patchValue_cons, if_neg (List.cons_ne_nil _ _)]
      rfl

theorem patchValue_some (h : ∀ p ∈ ps, p.path ≠ []) :
    patchValue (some doc) ps = (applyPatch doc ps).map some := by
  induction ps generalizing doc with
  | nil => rfl
  | cons p ps ih =>
      obtain ⟨hp, hps⟩ := List.forall_mem_cons.1 h
      obtain ⟨t, ts, hpath⟩ := List.exists_cons_of_ne_nil hp
      obtain ⟨op, path, value⟩ := p
      obtain rfl : path = t :: ts := hpath
      have hwhole : applyWhole (some doc) ⟨op, t :: ts, value⟩ =
          (applyItem doc ⟨op, t :: ts, value⟩).map some := rfl
      rw [patchValue_cons, applyPatch_cons, hwhole]
      cases applyItem doc ⟨op, t :: ts, value⟩ with
      | none => rfl
      | some doc' => exact ih hps

/-! ## The patch of an object -/

/-- What a patch is to make of one member, and its operations for that. -/
structure MemberPatch where
  name : String
  before : Option Json
  patches : List PatchItem
  after : Option Json

namespace MemberPatch

def Right (r : MemberPatch) : Prop := patchValue r.before r.patches = some r.after

end MemberPatch

variable {rows : List MemberPatch}

def objectBefore (rows : List MemberPatch) : Json :=
  .obj (Members.ofList (rows.map fun r => (r.name, r.before)))

def objectAfter (rows : List MemberPatch) : Json :=
  .obj (Members.ofList (rows.map fun r => (r.name, r.after)))

/-- The patches of the members, one after the other. -/
def objectPatch (rows : List MemberPatch) : List PatchItem :=
  rows.flatMap fun r => r.patches.map (below r.name)

theorem lookup_ofList_mem {l : List (String × Option Json)} (hnames : (l.map Prod.fst).Nodup)
    (hmem : (k, v) ∈ l) : Members.lookup k (Members.ofList l) = v := by
  induction l with
  | nil => cases hmem
  | cons m l ih =>
      obtain ⟨k', u⟩ := m
      rw [List.map_cons, List.nodup_cons] at hnames
      have habsent : Members.lookup k' (Members.ofList l) = none := lookup_ofList_eq_none hnames.1
      rcases List.mem_cons.1 hmem with heq | hmem
      · obtain ⟨rfl, rfl⟩ := Prod.mk.inj heq
        exact lookup_ofList_self habsent
      · have hne : k' ≠ k := fun heq =>
          hnames.1 (List.mem_map.2 ⟨(k, v), hmem, heq.symm⟩)
        rw [lookup_ofList_cons, if_neg fun h => hne h.1]
        exact ih hnames.2 hmem

theorem lookup_before (hnames : (rows.map MemberPatch.name).Nodup) {r : MemberPatch}
    (hr : r ∈ rows) (f : MemberPatch → Option Json) :
    Members.lookup r.name (Members.ofList (rows.map fun r => (r.name, f r))) = f r := by
  refine lookup_ofList_mem ?_ (List.mem_map_of_mem hr)
  rw [List.map_map]
  exact hnames

/-- What the patch makes of an object is known by its members. -/
theorem applyPatch_rows (h : Sorted ms) (hnames : (rows.map MemberPatch.name).Nodup) :
    applyPatch (.obj ms) (objectPatch rows) = some doc ↔
      ∃ ms', doc = .obj ms' ∧ Sorted ms' ∧
        (∀ name, name ∉ rows.map MemberPatch.name →
          Members.lookup name ms' = Members.lookup name ms) ∧
        ∀ r ∈ rows, patchValue (Members.lookup r.name ms) r.patches =
          some (Members.lookup r.name ms') := by
  induction rows generalizing ms with
  | nil =>
      change some (Json.obj ms) = some doc ↔ _
      rw [Option.some.injEq]
      constructor
      · rintro rfl
        exact ⟨ms, rfl, h, fun _ _ => rfl, nofun⟩
      · rintro ⟨ms', rfl, h', hkeep, -⟩
        rw [eq_of_lookup h' h fun name => hkeep name List.not_mem_nil]
  | cons r rows ih =>
      rw [List.map_cons, List.nodup_cons] at hnames
      have hpatch : objectPatch (r :: rows) = r.patches.map (below r.name) ++ objectPatch rows :=
        List.flatMap_cons
      have hne : ∀ q ∈ rows, r.name ≠ q.name := fun q hq heq =>
        hnames.1 (heq ▸ List.mem_map_of_mem hq)
      rw [hpatch, applyPatch_append, applyPatch_member h]
      cases hr : patchValue (Members.lookup r.name ms) r.patches with
      | none =>
          refine iff_of_false (fun hnone => by cases hnone) ?_
          rintro ⟨ms', -, -, -, hall⟩
          have hsome := hall r List.mem_cons_self
          rw [hr] at hsome
          cases hsome
      | some v =>
          rw [Option.map_some, Option.bind_some, ih (sorted_setMember h) hnames.2]
          constructor
          · rintro ⟨ms', rfl, hs', hkeep, hall⟩
            refine ⟨ms', rfl, hs', fun name hname => ?_, List.forall_mem_cons.2 ⟨?_, ?_⟩⟩
            · rw [List.map_cons, List.mem_cons, not_or] at hname
              rw [hkeep name hname.2, lookup_setMember, if_neg (Ne.symm hname.1)]
            · rw [hr, hkeep r.name hnames.1, lookup_setMember, if_pos rfl]
            · intro q hq
              rw [← hall q hq, lookup_setMember, if_neg (hne q hq)]
          · rintro ⟨ms', rfl, hs', hkeep, hall⟩
            obtain ⟨hhead, htail⟩ := List.forall_mem_cons.1 hall
            rw [hr, Option.some.injEq] at hhead
            refine ⟨ms', rfl, hs', fun name hname => ?_, fun q hq => ?_⟩
            · rw [lookup_setMember]
              split
              · rename_i hk
                rw [← hk, ← hhead]
              · rename_i hk
                refine hkeep name fun hmem => ?_
                rcases List.mem_cons.1 hmem with heq | hmem
                · exact hk heq.symm
                · exact hname hmem
            · rw [lookup_setMember, if_neg (hne q hq)]
              exact htail q hq

/-- The members of the rows come out as those of another object exactly when each does. -/
theorem applyPatch_members_iff (h : Sorted ms) (hnames : (rows.map MemberPatch.name).Nodup) :
    (∃ result, applyPatch (.obj ms) (objectPatch rows) = some (.obj result) ∧
      ∀ r ∈ rows, Members.lookup r.name result = Members.lookup r.name ms') ↔
    ∀ r ∈ rows, patchValue (Members.lookup r.name ms) r.patches =
      some (Members.lookup r.name ms') := by
  constructor
  · rintro ⟨result, hresult, hlookup⟩ r hr
    obtain ⟨_, ⟨⟩, -, -, hall⟩ := (applyPatch_rows h hnames).1 hresult
    rw [hall r hr, hlookup r hr]
  · intro hall
    induction rows generalizing ms with
    | nil => exact ⟨ms, rfl, List.forall_mem_nil _⟩
    | cons r rows ih =>
        obtain ⟨hr, hrows⟩ := List.forall_mem_cons.1 hall
        rw [List.map_cons, List.nodup_cons] at hnames
        have hne : ∀ q ∈ rows, r.name ≠ q.name := fun q hq heq =>
          hnames.1 (heq ▸ List.mem_map_of_mem hq)
        have hset : Sorted (setMember r.name (Members.lookup r.name ms') ms) := sorted_setMember h
        obtain ⟨result, hresult, hlookup⟩ := ih hset hnames.2 fun q hq => by
          rw [lookup_setMember, if_neg (hne q hq)]
          exact hrows q hq
        obtain ⟨_, ⟨⟩, -, hkeep, -⟩ := (applyPatch_rows hset hnames.2).1 hresult
        refine ⟨result, ?_, List.forall_mem_cons.2 ⟨?_, hlookup⟩⟩
        · have hpatch : objectPatch (r :: rows) = r.patches.map (below r.name) ++ objectPatch rows :=
            List.flatMap_cons
          rw [hpatch, applyPatch_append, applyPatch_member h, hr]
          exact hresult
        · rw [hkeep r.name hnames.1, lookup_setMember, if_pos rfl]

/-- An object is patched as it should be exactly when each of its members is. -/
theorem applyPatch_object_iff (hnames : (rows.map MemberPatch.name).Nodup) :
    applyPatch (objectBefore rows) (objectPatch rows) = some (objectAfter rows) ↔
      ∀ r ∈ rows, r.Right := by
  rw [objectBefore, objectAfter, applyPatch_rows (sorted_ofList _) hnames]
  constructor
  · rintro ⟨ms', heq, -, -, hall⟩ r hr
    rw [Json.obj.injEq] at heq
    have hright := hall r hr
    rw [← heq, lookup_before hnames hr, lookup_before hnames hr] at hright
    exact hright
  · intro hright
    refine ⟨_, rfl, sorted_ofList _, fun name hname => ?_, fun r hr => ?_⟩
    · have habsent : ∀ f : MemberPatch → Option Json,
          Members.lookup name (Members.ofList (rows.map fun r => (r.name, f r))) = none := by
        intro f
        refine lookup_ofList_eq_none ?_
        rw [List.map_map]
        exact hname
      rw [habsent, habsent]
    · rw [lookup_before hnames hr, lookup_before hnames hr]
      exact hright r hr

end ServiceConsumers.MemberPatches
