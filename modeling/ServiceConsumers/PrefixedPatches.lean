import ServiceConsumers.CarriedPatches

set_option autoImplicit false

/-!
# Patches under a prefix (`json-patch.c`)

The operations that a differ has for one member are copied with the path of the member in front.
What they do to a document is what the original operations do to the member.
-/

namespace ServiceConsumers.PrefixedPatches

open JsonDocuments ForeignPatches MemberPatches PatchLists CarriedPatches

/-! ## Paths as texts -/

def tokenText : Token → String
  | .key name => name
  | .index i => toString i
  | .last => "-"

def tokensText : List Token → String
  | [] => ""
  | t :: ts => "/" ++ tokenText t ++ tokensText ts

/-- The whole is written as `"/"`. -/
def pathText (p : Pointer) : String := if p = [] then "/" else tokensText p

/-- The path that `_json_patch_new_copy_with_prefix` gives to the copy. -/
def copyPath (path atPrefix : Option String) : Option String :=
  match path with
  | some text =>
      match atPrefix with
      | some front => if text = "/" then some front else some (front ++ text)
      | none => some text
  | none => atPrefix

theorem tokensText_append (p q : List Token) : tokensText (p ++ q) = tokensText p ++ tokensText q := by
  induction p with
  | nil => exact String.empty_append.symm
  | cons t ts ih =>
      rw [List.cons_append, tokensText, tokensText, ih]
      simp only [String.append_assoc]

theorem tokenText_eq_empty {t : Token} (h : tokenText t = "") : t = .key "" := by
  have hlist : (tokenText t).toList = [] := by rw [h]; rfl
  cases t with
  | key name => exact congrArg Token.key h
  | index i =>
      rw [tokenText, Nat.toString_eq_ofList_toDigits, String.toList_ofList] at hlist
      exact absurd hlist Nat.toDigits_ne_nil
  | last => exact absurd hlist (by decide)

/-- No path but that of a member without a name is taken for the whole. -/
theorem pathText_eq_slash {p : Pointer} (h : pathText p = "/") (hname : p ≠ [.key ""]) : p = [] := by
  cases p with
  | nil => rfl
  | cons t ts =>
      have hlist : (tokensText (t :: ts)).toList = ['/'] := by
        rw [pathText, if_neg (List.cons_ne_nil t ts)] at h
        rw [h]
        rfl
      have hrest : (tokenText t).toList = [] ∧ (tokensText ts).toList = [] := by
        simpa [tokensText] using hlist
      cases ts with
      | nil =>
          have ht : tokenText t = "" := String.toList_inj.1 hrest.1
          exact absurd (congrArg (fun t => [t]) (tokenText_eq_empty ht)) hname
      | cons u us =>
          have hlast := hrest.2
          simp [tokensText] at hlast

/-- On texts the copy's path is the prefix followed by the path. -/
theorem copyPath_text {p q : Pointer} (hname : p ≠ [.key ""]) (hq : q ≠ []) :
    copyPath (some (pathText p)) (some (pathText q)) = some (pathText (q ++ p)) := by
  have happend : pathText (q ++ p) = tokensText q ++ tokensText p := by
    rw [pathText, if_neg fun h => hq (List.append_eq_nil_iff.1 h).1, tokensText_append]
  have hfront : pathText q = tokensText q := if_neg hq
  rw [copyPath, happend, hfront]
  by_cases hp : p = []
  · subst hp
    exact congrArg some String.append_empty.symm
  · have hslash : pathText p ≠ "/" := fun h => hp (pathText_eq_slash h hname)
    have htext : pathText p = tokensText p := if_neg hp
    simp only [if_neg hslash]
    rw [htext]

/-- The copy's path is written as the source writes it, with no prefix at all for the empty one. -/
theorem copy_pathText {item copy : PatchItem} {q : Pointer} (hname : item.path ≠ [.key ""])
    (h : jsonPatchNewCopyWithPrefix item q = some copy) :
    copyPath (some (pathText item.path)) (if q = [] then none else some (pathText q)) =
      some (pathText copy.path) := by
  obtain ⟨op, path, value⟩ := item
  cases value with
  | none => cases h
  | some v =>
      obtain rfl := Option.some.inj h
      by_cases hq : q = []
      · subst hq
        rfl
      · rw [if_neg hq]
        exact copyPath_text hname hq

/-! ## Places in a document -/

/-- The place that a path leads to, and what is there. The objects on the way have their members
in order. -/
inductive MemberAt : Pointer → Option Json → Option Json → Prop
  | here {d : Option Json} : MemberAt [] d d
  | member {k : String} {ts : Pointer} {ms : Members} {d : Option Json} (h : Sorted ms)
      (hrest : MemberAt ts (Members.lookup k ms) d) : MemberAt (.key k :: ts) (some (.obj ms)) d
  | element {i : ℕ} {ts : Pointer} {xs : List Json} {x : Json} {d : Option Json}
      (h : xs[i]? = some x) (hrest : MemberAt ts (some x) d) :
      MemberAt (.index i :: ts) (some (.arr xs)) d

def setElement (i : ℕ) (v : Option Json) (xs : List Json) : List Json :=
  match v with
  | none => xs.eraseIdx i
  | some j => xs.set i j

/-- The document with something else in that place. -/
def setAt : Pointer → Option Json → Option Json → Option Json
  | [], v, _ => v
  | .key k :: ts, v, some (.obj ms) =>
      some (.obj (setMember k (setAt ts v (Members.lookup k ms)) ms))
  | .index i :: ts, v, some (.arr xs) => some (.arr (setElement i (setAt ts v xs[i]?) xs))
  | _, _, doc => doc

/-- The operation does not put an element before another, nor take one away. -/
def InPlace (p : PatchItem) : Prop := p.path = [] → p.op = .replace

/-- A prefix that leads to an element of an array is for operations that leave the others where
they are. -/
def Fits (q : Pointer) (items : List PatchItem) : Prop :=
  ∀ i, q.getLast? = some (.index i) → ∀ p ∈ items, InPlace p

/-! ## One level -/

variable {xs : List Json} {x : Json} {i k : ℕ} {name : String} {q q' ts : Pointer} {t : Token}
  {dst src items : List PatchItem} {doc d : Option Json}

theorem underPrefix_cons : src.map (underPrefix (t :: ts)) =
    (src.map (underPrefix ts)).map (underPrefix [t]) := by
  rw [List.map_map]
  rfl

theorem underPrefix_append : src.map (underPrefix (q ++ q')) =
    (src.map (underPrefix q')).map (underPrefix q) := by
  rw [List.map_map]
  apply List.map_congr_left
  intro p _
  simp only [Function.comp_apply, underPrefix, List.append_assoc]

theorem underPrefix_nil : src.map (underPrefix []) = src := by
  induction src with
  | nil => rfl
  | cons p src ih =>
      rw [List.map_cons, ih]
      rfl

theorem underPrefix_paths : ∀ p ∈ src.map (underPrefix (t :: ts)), p.path ≠ [] := by
  rw [List.forall_mem_map]
  exact fun p _ => List.cons_ne_nil t (ts ++ p.path)

theorem patchValue_member {ms : Members} (h : Sorted ms) :
    patchValue (some (.obj ms)) (items.map (underPrefix [.key name])) =
      (patchValue (Members.lookup name ms) items).map fun v => some (.obj (setMember name v ms)) := by
  have hpatch : applyPatch (.obj ms) (items.map (underPrefix [.key name])) = _ :=
    applyPatch_member h
  rw [patchValue_some underPrefix_paths, hpatch, Option.map_map]
  rfl

/-- An operation that leaves the other elements where they are. -/
theorem applyItem_element {p : PatchItem} (hx : xs[i]? = some x) (hp : InPlace p) :
    applyItem (.arr xs) (underPrefix [.index i] p) =
      (applyWhole (some x) p).bind fun v => v.map fun j => .arr (xs.set i j) := by
  obtain ⟨op, path, value⟩ := p
  cases path with
  | nil =>
      have hop : op = .replace := hp rfl
      have hlt : i < xs.length := (List.getElem?_eq_some_iff.1 hx).1
      subst hop
      change applyAt .replace value (.index i) (.arr xs) = _
      cases value with
      | none => rfl
      | some v => rw [applyAt, if_pos hlt]; rfl
  | cons u us =>
      change within (applyPath op value (u :: us)) (.index i) (.arr xs) = _
      have hwhole : applyWhole (some x) ⟨op, u :: us, value⟩ =
          (applyPath op value (u :: us) x).map some := rfl
      simp only [hwhole, within, hx]
      cases applyPath op value (u :: us) x with
      | none => rfl
      | some j => rfl

theorem applyWhole_some {p : PatchItem} {v : Option Json} (hp : InPlace p)
    (h : applyWhole (some x) p = some v) : ∃ j, v = some j := by
  obtain ⟨op, path, value⟩ := p
  cases path with
  | nil =>
      have hop : op = .replace := hp rfl
      subst hop
      change value.map some = some v at h
      obtain ⟨j, -, hj⟩ := Option.map_eq_some_iff.1 h
      exact ⟨j, hj.symm⟩
  | cons u us =>
      obtain ⟨j, -, hj⟩ := Option.map_eq_some_iff.1 h
      exact ⟨j, hj.symm⟩

theorem patchValue_element (hx : xs[i]? = some x) (hitems : ∀ p ∈ items, InPlace p) :
    patchValue (some (.arr xs)) (items.map (underPrefix [.index i])) =
      (patchValue (some x) items).map fun v => some (.arr (setElement i v xs)) := by
  rw [patchValue_some underPrefix_paths]
  induction items generalizing xs x with
  | nil =>
      obtain ⟨hlt, hget⟩ := List.getElem?_eq_some_iff.1 hx
      rw [List.map_nil, applyPatch_nil, patchValue_nil, Option.map_some, Option.map_some,
        setElement, ← hget, List.set_getElem_self]
  | cons p items ih =>
      obtain ⟨hp, hrest⟩ := List.forall_mem_cons.1 hitems
      rw [List.map_cons, applyPatch_cons, applyItem_element hx hp, patchValue_cons]
      cases happly : applyWhole (some x) p with
      | none => rfl
      | some v =>
          obtain ⟨j, rfl⟩ := applyWhole_some hp happly
          have hlt : i < xs.length := (List.getElem?_eq_some_iff.1 hx).1
          have hget : (xs.set i j)[i]? = some j := List.getElem?_set_self hlt
          rw [Option.bind_some, Option.map_some, Option.bind_some, ih hget hrest, Option.bind_some]
          congr 1
          funext v'
          cases v' with
          | none => simp only [setElement, List.eraseIdx_set_eq]
          | some j' => simp only [setElement, List.set_set]

/-! ## Any prefix -/

/-- The operations under a prefix do in a document what they do to the member on its own. -/
theorem patchValue_prefix (hmember : MemberAt q doc d) (hfits : Fits q src) :
    patchValue doc (src.map (underPrefix q)) =
      (patchValue d src).map fun d' => setAt q d' doc := by
  induction hmember with
  | here => rw [underPrefix_nil]; exact (congrFun Option.map_id _).symm
  | @member k ts ms d hsorted hrest ih =>
      have hfits' : Fits ts src := by
        intro i hi
        apply hfits i
        rw [List.getLast?_cons, hi, Option.getD_some]
      rw [underPrefix_cons, patchValue_member hsorted, ih hfits', Option.map_map]
      rfl
  | @element i ts xs x d hx hrest ih =>
      have hfits' : Fits ts src := by
        intro i hi
        apply hfits i
        rw [List.getLast?_cons, hi, Option.getD_some]
      have hplace : ∀ p ∈ src.map (underPrefix ts), InPlace p := by
        cases ts with
        | nil => rw [underPrefix_nil]; exact hfits i rfl
        | cons u us => exact fun p hp h => absurd h (underPrefix_paths p hp)
      rw [underPrefix_cons, patchValue_element hx hplace, ih hfits', Option.map_map]
      congr 1
      funext d'
      rw [Function.comp_apply, setAt, hx]

/-- A patch list that has been carried along through several levels, the innermost first. -/
def nestPatches (qs : List Pointer) (items : List PatchItem) : Option (List PatchItem) :=
  qs.foldlM (fun items q => jsonPatchesAppendList [] items q) items

theorem appendList_eq_some {out : List PatchItem} : jsonPatchesAppendList dst src q = some out ↔
    Valued src ∧ out = dst ++ src.map (underPrefix q) := by
  simp only [jsonPatchesAppendList, Option.map_eq_some_iff, mapM_copy_iff]
  constructor
  · rintro ⟨new, ⟨hvalued, rfl⟩, rfl⟩
    exact ⟨hvalued, rfl⟩
  · rintro ⟨hvalued, rfl⟩
    exact ⟨_, ⟨hvalued, rfl⟩, rfl⟩

theorem valued_underPrefix : Valued (src.map (underPrefix q)) ↔ Valued src := by
  rw [CarriedPatches.Valued, List.forall_mem_map]
  rfl

theorem nestPatches_eq (qs : List Pointer) (hvalued : Valued src) :
    nestPatches qs (src.map (underPrefix q)) =
      some (src.map (underPrefix (qs.reverse.flatten ++ q))) := by
  induction qs generalizing q with
  | nil => rfl
  | cons q' qs ih =>
      have hstep : jsonPatchesAppendList [] (src.map (underPrefix q)) q' =
          some (src.map (underPrefix (q' ++ q))) := by
        rw [appendList_eq_some, underPrefix_append]
        exact ⟨valued_underPrefix.2 hvalued, rfl⟩
      have hflat : (q' :: qs).reverse.flatten ++ q = qs.reverse.flatten ++ (q' ++ q) := by
        simp only [List.reverse_cons, List.flatten_append, List.flatten_cons, List.flatten_nil,
          List.append_nil, List.append_assoc]
      rw [nestPatches, List.foldlM_cons, hstep, hflat]
      exact ih

/-- What carrying a list of operations along is for, through one level or several. -/
structure Composes (dst src : List PatchItem) (q : Pointer) : Prop where
  appended : jsonPatchesAppendList dst src q = some (dst ++ src.map (underPrefix q))
  nested : ∀ qs, (jsonPatchesAppendList [] src q).bind (nestPatches qs) =
    some (src.map (underPrefix (qs.reverse.flatten ++ q)))
  effect : ∀ qs items, (jsonPatchesAppendList [] src q).bind (nestPatches qs) = some items →
    ∀ doc d, MemberAt (qs.reverse.flatten ++ q) doc d → Fits (qs.reverse.flatten ++ q) src →
      patchValue doc items = (patchValue d src).map fun d' => setAt (qs.reverse.flatten ++ q) d' doc

/-- A list of operations can be carried along exactly when each of them has a value. -/
theorem composes_iff (dst src : List PatchItem) (q : Pointer) :
    Composes dst src q ↔ Valued src := by
  constructor
  · intro h
    exact (appendList_eq_some.1 h.appended).1
  · intro hvalued
    have happend : ∀ dst, jsonPatchesAppendList dst src q = some (dst ++ src.map (underPrefix q)) :=
      fun _ => appendList_eq_some.2 ⟨hvalued, rfl⟩
    have hnested : ∀ qs, (jsonPatchesAppendList [] src q).bind (nestPatches qs) =
        some (src.map (underPrefix (qs.reverse.flatten ++ q))) := by
      intro qs
      rw [happend [], Option.bind_some, List.nil_append]
      exact nestPatches_eq qs hvalued
    refine ⟨happend dst, hnested, fun qs items hitems doc d hmember hfits => ?_⟩
    rw [hnested qs] at hitems
    rw [← Option.some.inj hitems]
    exact patchValue_prefix hmember hfits

/-- The removal of a member has no value and is not copied. -/
theorem removal_not_composed : ¬ Composes [] [jsonPatchNew .remove [.key "nid"] none] [.key "tai"] := by
  intro h
  cases h.appended

end ServiceConsumers.PrefixedPatches
