import Mathlib.Data.Rat.Defs
import Mathlib.Data.String.Basic

set_option autoImplicit false

/-!
# JSON documents and JSON Patch

Objects list their members in increasing order of name, so that two objects with
the same members are equal. `applyPatch` is RFC 6902 for the operations add,
remove and replace.
-/

namespace ServiceConsumers.JsonDocuments

inductive Json where
  | null
  | bool (b : Bool)
  | num (n : ℚ)
  | str (s : String)
  | arr (items : List Json)
  | obj (members : List (String × Json))

abbrev Members := List (String × Json)

namespace Members

def lookup (name : String) : Members → Option Json
  | [] => none
  | (k, v) :: ms => if k = name then some v else lookup name ms

/-- Sets a member, keeping the names increasing. -/
def insert (name : String) (v : Json) : Members → Members
  | [] => [(name, v)]
  | (k, u) :: ms =>
      if name < k then (name, v) :: (k, u) :: ms
      else if name = k then (name, v) :: ms
      else (k, u) :: insert name v ms

def remove (name : String) (ms : Members) : Members :=
  ms.filter fun m => m.1 ≠ name

/-- The members that are present. -/
def ofList : List (String × Option Json) → Members
  | [] => []
  | (_, none) :: ms => ofList ms
  | (k, some v) :: ms => insert k v (ofList ms)

end Members

/-- One reference token of a JSON pointer: a member name, an array index, or the
position past the last element. -/
inductive Token where
  | key (name : String)
  | index (i : ℕ)
  | last
  deriving DecidableEq, Repr

abbrev Pointer := List Token

inductive PatchOperation where
  | add
  | remove
  | replace
  deriving DecidableEq, Repr

structure PatchItem where
  op : PatchOperation
  path : Pointer
  value : Option Json

/-- What an operation does at its target's parent. -/
def applyAt (op : PatchOperation) (value : Option Json) : Token → Json → Option Json
  | .key name, .obj ms =>
      match op, value with
      | .add, some v => some (.obj (Members.insert name v ms))
      | .replace, some v =>
          if (Members.lookup name ms).isSome then some (.obj (Members.insert name v ms)) else none
      | .remove, _ =>
          if (Members.lookup name ms).isSome then some (.obj (Members.remove name ms)) else none
      | _, none => none
  | .index i, .arr xs =>
      match op, value with
      | .add, some v => if i ≤ xs.length then some (.arr (xs.insertIdx i v)) else none
      | .replace, some v => if i < xs.length then some (.arr (xs.set i v)) else none
      | .remove, _ => if i < xs.length then some (.arr (xs.eraseIdx i)) else none
      | _, none => none
  | .last, .arr xs =>
      match op, value with
      | .add, some v => some (.arr (xs ++ [v]))
      | _, _ => none
  | _, _ => none

/-- Changes the value a token leads to, when there is one. -/
def within (f : Json → Option Json) : Token → Json → Option Json
  | .key name, .obj ms =>
      match Members.lookup name ms with
      | none => none
      | some v => (f v).map fun v' => .obj (Members.insert name v' ms)
  | .index i, .arr xs =>
      match xs[i]? with
      | none => none
      | some v => (f v).map fun v' => .arr (xs.set i v')
  | _, _ => none

/-- One operation on the value its path leads to, `none` when the path does not exist. -/
def applyPath (op : PatchOperation) (value : Option Json) : Pointer → Json → Option Json
  | [], _ =>
      match op, value with
      | .remove, _ => none
      | _, v => v
  | [t], doc => applyAt op value t doc
  | t :: u :: ts, doc => within (applyPath op value (u :: ts)) t doc

def applyItem (doc : Json) (item : PatchItem) : Option Json :=
  applyPath item.op item.value item.path doc

/-- A patch is its operations in order; one that fails makes the whole patch fail. -/
def applyPatch (doc : Json) (items : List PatchItem) : Option Json :=
  items.foldlM applyItem doc

end ServiceConsumers.JsonDocuments
