import ServiceConsumers.MediaComponents
import ServiceConsumers.MemberPatches

set_option autoImplicit false

/-!
# Carrying patches along

The result of a differ becomes part of a longer patch when each of its operations is copied
with a longer path. The copy needs a value, which a removal does not have.
-/

namespace ServiceConsumers.CarriedPatches

open JsonDocuments ForeignPatches MemberPatches PatchLists MediaComponents

/-! ## Patches that are carried along -/

/-- An optional value is not dropped. -/
def Stays {α : Type} (x y : Option α) : Prop := x.isSome = true → y.isSome = true

/-- All operations have a value, as their copies with a longer path need. -/
def Valued (ps : List PatchItem) : Prop := ∀ p ∈ ps, p.value.isSome = true

/-- What a differ says of one member, and what this makes of the member. -/
def Carries (src : Option (List PatchItem)) (before after : Option Json) : Prop :=
  ∃ items, src = some items ∧ Valued items ∧ patchValue before items = some after

variable {items dst out : List PatchItem} {src : Option (List PatchItem)} {k : String}
  {before after : Option Json} {p : PatchItem}

theorem valued_nil : Valued [] := nofun

theorem valued_cons : Valued (p :: items) ↔ p.value.isSome = true ∧ Valued items :=
  List.forall_mem_cons

theorem valued_map_below : Valued (items.map (below k)) ↔ Valued items := by
  rw [Valued, List.forall_mem_map]
  rfl

/-- The operation as it reads from where the prefix starts. -/
def underPrefix (q : Pointer) (p : PatchItem) : PatchItem := { p with path := q ++ p.path }

theorem mapM_copy_iff {q : Pointer} : (items.mapM fun item => jsonPatchNewCopyWithPrefix item q) =
    some out ↔ Valued items ∧ out = items.map (underPrefix q) := by
  induction items generalizing out with
  | nil =>
      rw [List.mapM_nil]
      exact ⟨fun h => ⟨valued_nil, (Option.some.inj h).symm⟩, fun h => congrArg some h.2.symm⟩
  | cons p items ih =>
      rw [valued_cons, List.mapM_cons]
      obtain ⟨op, path, value⟩ := p
      cases value with
      | none =>
          refine iff_of_false (fun h => ?_) fun h => ?_
          · cases h
          · cases h.1.1
      | some v =>
          have hcopy : jsonPatchNewCopyWithPrefix ⟨op, path, some v⟩ q =
              some (underPrefix q ⟨op, path, some v⟩) := rfl
          simp only [hcopy, bind, Option.bind_some, Option.bind_eq_some_iff, ih, pure,
            Option.some.injEq]
          constructor
          · rintro ⟨rest, ⟨hvalued, rfl⟩, rfl⟩
            exact ⟨⟨rfl, hvalued⟩, rfl⟩
          · rintro ⟨⟨-, hvalued⟩, rfl⟩
            exact ⟨_, ⟨hvalued, rfl⟩, rfl⟩

theorem mapM_copy_key : (items.mapM fun item => jsonPatchNewCopyWithPrefix item [.key k]) =
    some out ↔ Valued items ∧ out = items.map (below k) := mapM_copy_iff

theorem appendPatches_key : appendPatches dst src [.key k] = some out ↔
    ∃ items, src = some items ∧ Valued items ∧ out = dst ++ items.map (below k) := by
  simp only [appendPatches, jsonPatchesAppendList, Option.bind_eq_some_iff,
    Option.map_eq_some_iff, mapM_copy_key]
  constructor
  · rintro ⟨items, hsrc, new, ⟨hvalued, rfl⟩, rfl⟩
    exact ⟨items, hsrc, hvalued, rfl⟩
  · rintro ⟨items, hsrc, hvalued, rfl⟩
    exact ⟨items, hsrc, _, ⟨hvalued, rfl⟩, rfl⟩

theorem carries_some : Carries (some items) before after ↔
    Valued items ∧ patchValue before items = some after := by
  constructor
  · rintro ⟨items', heq, h⟩
    obtain rfl := Option.some.inj heq
    exact h
  · exact fun h => ⟨items, rfl, h⟩

theorem not_carries_none : ¬ Carries none before after := by
  rintro ⟨items, heq, -⟩
  cases heq

/-- Nothing is said: the member is as it is to be. -/
theorem carries_nil : Carries (some []) before after ↔ before = after := by
  rw [carries_some, patchValue_nil, Option.some.injEq]
  exact and_iff_right valued_nil

theorem carries_cons : Carries (src.map fun rest => p :: rest) before after ↔
    p.value.isSome = true ∧ ∃ v, applyWhole before p = some v ∧ Carries src v after := by
  constructor
  · rintro ⟨items, heq, hvalued, hpatch⟩
    obtain ⟨rest, rfl, rfl⟩ := Option.map_eq_some_iff.1 heq
    rw [patchValue_cons, Option.bind_eq_some_iff] at hpatch
    obtain ⟨v, hv, hrest⟩ := hpatch
    obtain ⟨hp, hvalued⟩ := valued_cons.1 hvalued
    exact ⟨hp, v, hv, rest, rfl, hvalued, hrest⟩
  · rintro ⟨hp, v, hv, rest, rfl, hvalued, hrest⟩
    refine ⟨p :: rest, rfl, valued_cons.2 ⟨hp, hvalued⟩, ?_⟩
    rw [patchValue_cons, hv, Option.bind_some, hrest]

theorem carries_some_cons : Carries (some (p :: items)) before after ↔
    p.value.isSome = true ∧ ∃ v, applyWhole before p = some v ∧ Carries (some items) v after := by
  rw [← carries_cons, Option.map_some]

theorem carries_single : Carries (some [p]) before after ↔
    p.value.isSome = true ∧ applyWhole before p = some after := by
  rw [carries_some_cons]
  refine and_congr_right fun _ => ?_
  constructor
  · rintro ⟨v, hv, hrest⟩
    rw [hv, carries_nil.1 hrest]
  · exact fun h => ⟨after, h, carries_nil.2 rfl⟩

/-! ## Single members -/

section Members

variable {α : Type} [DecidableEq α]

def requiredItems (toJson : α → Json) (a b : α) : List PatchItem :=
  if a = b then [] else [jsonPatchNew .replace [] (some (toJson b))]

def optionalItems (toJson : α → Json) : Option α → Option α → List PatchItem
  | none, none => []
  | none, some y => [jsonPatchNew .add [] (some (toJson y))]
  | some _, none => [jsonPatchNew .remove [] none]
  | some x, some y => requiredItems toJson x y

theorem requiredPatch_eq (name : String) (toJson : α → Json) (a b : α) :
    requiredPatch name toJson a b = (requiredItems toJson a b).map (below name) := by
  unfold requiredPatch requiredItems
  split <;> rfl

theorem optionalPatch_eq (name : String) (toJson : α → Json) (a b : Option α) :
    optionalPatch name toJson a b = (optionalItems toJson a b).map (below name) := by
  cases a with
  | none => cases b <;> rfl
  | some x =>
      cases b with
      | none => rfl
      | some y => exact requiredPatch_eq name toJson x y

theorem patch_required (toJson : α → Json) (a b : α) :
    patchValue (some (toJson a)) (requiredItems toJson a b) = some (some (toJson b)) := by
  unfold requiredItems
  split
  · rename_i h
    rw [h, patchValue_nil]
  · rfl

theorem patch_optional (toJson : α → Json) (a b : Option α) :
    patchValue (a.map toJson) (optionalItems toJson a b) = some (b.map toJson) := by
  cases a with
  | none => cases b <;> rfl
  | some x =>
      cases b with
      | none => rfl
      | some y => exact patch_required toJson x y

theorem valued_required (toJson : α → Json) (a b : α) : Valued (requiredItems toJson a b) := by
  unfold requiredItems
  split
  · exact valued_nil
  · exact valued_cons.2 ⟨rfl, valued_nil⟩

theorem valued_optional (toJson : α → Json) (a b : Option α) :
    Valued (optionalItems toJson a b) ↔ Stays a b := by
  cases a with
  | none =>
      refine iff_of_true ?_ fun h => (by cases h)
      cases b with
      | none => exact valued_nil
      | some y => exact valued_cons.2 ⟨rfl, valued_nil⟩
  | some x =>
      cases b with
      | none =>
          refine iff_of_false (fun h => ?_) fun h => ?_
          · cases h _ List.mem_cons_self
          · cases h rfl
      | some y => exact iff_of_true (valued_required toJson x y) fun _ => rfl

theorem requiredItems_eq_nil {toJson : α → Json} {a b : α} :
    requiredItems toJson a b = [] ↔ a = b := by
  unfold requiredItems
  split
  · rename_i h
    exact iff_of_true rfl h
  · rename_i h
    exact iff_of_false (List.cons_ne_nil _ _) h

theorem optionalItems_eq_nil {toJson : α → Json} {a b : Option α} :
    optionalItems toJson a b = [] ↔ a = b := by
  cases a with
  | none =>
      cases b with
      | none => exact iff_of_true rfl rfl
      | some y => exact iff_of_false (List.cons_ne_nil _ _) nofun
  | some x =>
      cases b with
      | none => exact iff_of_false (List.cons_ne_nil _ _) nofun
      | some y =>
          rw [Option.some.injEq]
          exact requiredItems_eq_nil

end Members

/-! ## Objects -/

theorem valued_objectPatch {rows : List MemberPatch} :
    Valued (objectPatch rows) ↔ ∀ r ∈ rows, Valued r.patches := by
  constructor
  · intro h r hr
    rw [← valued_map_below (k := r.name)]
    exact fun p hp => h p (List.mem_flatMap.2 ⟨r, hr, hp⟩)
  · intro h p hp
    obtain ⟨r, hr, hp⟩ := List.mem_flatMap.1 hp
    exact valued_map_below.2 (h r hr) p hp

theorem objectPatch_paths {rows : List MemberPatch} : ∀ p ∈ objectPatch rows, p.path ≠ [] := by
  intro p hp
  obtain ⟨r, -, hp⟩ := List.mem_flatMap.1 hp
  obtain ⟨q, -, rfl⟩ := List.mem_map.1 hp
  exact List.cons_ne_nil _ _

/-- An object within a member: each of its own members is patched and carried along. -/
theorem carries_object_iff {rows : List MemberPatch} (hnames : (rows.map MemberPatch.name).Nodup) :
    Carries (some (objectPatch rows)) (some (objectBefore rows)) (some (objectAfter rows)) ↔
      ∀ r ∈ rows, Valued r.patches ∧ r.Right := by
  rw [carries_some, valued_objectPatch, patchValue_some objectPatch_paths,
    Option.map_eq_some_iff]
  simp only [Option.some.injEq, exists_eq_right]
  rw [applyPatch_object_iff hnames]
  exact ⟨fun h r hr => ⟨h.1 r hr, h.2 r hr⟩, fun h => ⟨fun r hr => (h r hr).1, fun r hr => (h r hr).2⟩⟩

/-- Members of a whole that is not there, and is not to be. -/
theorem carries_nothing_iff (hpaths : ∀ p ∈ items, p.path ≠ []) :
    Carries (some items) none none ↔ items = [] := by
  rw [carries_some, patchValue_none hpaths]
  split
  · rename_i h
    exact iff_of_true ⟨h ▸ valued_nil, rfl⟩ h
  · rename_i h
    exact iff_of_false (fun hnone => by cases hnone.2) h

theorem not_carries_come (hpaths : ∀ p ∈ items, p.path ≠ []) {j : Json} :
    ¬ Carries (some items) none (some j) := by
  rw [carries_some, patchValue_none hpaths]
  split
  · exact fun h => by cases h.2
  · exact fun h => by cases h.2

theorem not_carries_go (hpaths : ∀ p ∈ items, p.path ≠ []) {j : Json} :
    ¬ Carries (some items) (some j) none := by
  rw [carries_some, patchValue_some hpaths]
  rintro ⟨-, h⟩
  obtain ⟨j', -, hj'⟩ := Option.map_eq_some_iff.1 h
  cases hj'

/-! ## Whole structures -/

/-- A structure that is there does not go. -/
def WholePatchable {α : Type} (comes : α → Prop) (changes : α → α → Prop) :
    Option α → Option α → Prop
  | none, none => True
  | none, some y => comes y
  | some _, none => False
  | some x, some y => changes x y

theorem not_carries_leave : ¬ Carries (some [jsonPatchNew .remove [] none]) before after := by
  rw [carries_single]
  exact fun h => by cases h.1

theorem carries_come_iff {v : Option Json} :
    Carries (some [jsonPatchNew .add [] v]) none after ↔ v.isSome = true ∧ after = v := by
  rw [carries_single]
  refine and_congr_right fun hv => ?_
  obtain ⟨j, rfl⟩ := Option.isSome_iff_exists.1 hv
  change some (some j) = some after ↔ _
  rw [Option.some.injEq, eq_comm]

/-- A structure is added as it is sent, and is then compared member by member. -/
theorem carries_structure_iff {α : Type} {toJson sent : α → Option Json}
    {members : α → α → Option (List PatchItem)} {comes : α → Prop} {changes : α → α → Prop}
    {a b : Option α}
    (hcomes : ∀ y ∈ b, (comes y ↔ (toJson y).isSome = true ∧ sent y = toJson y))
    (hchanges : ∀ x ∈ a, ∀ y ∈ b, (Carries (members x y) (sent x) (sent y) ↔ changes x y)) :
    Carries (structurePatchList toJson members a b) (a.bind sent) (b.bind sent) ↔
      WholePatchable comes changes a b := by
  cases a with
  | none =>
      cases b with
      | none => exact iff_of_true (carries_nil.2 rfl) trivial
      | some y => exact carries_come_iff.trans (hcomes y rfl).symm
  | some x =>
      cases b with
      | none => exact iff_of_false not_carries_leave id
      | some y => exact hchanges x rfl y rfl

end ServiceConsumers.CarriedPatches
