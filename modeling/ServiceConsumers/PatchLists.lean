import ServiceConsumers.JsonDocuments

set_option autoImplicit false

/-!
# Building JSON Patch lists (`json-patch.c`)

A patch list that is `NULL` in the library is the empty list here. The path `"/"`,
which the library reads as "the prefixed member itself", is the empty pointer. A
differ returns `none` where the library reads through a `NULL` pointer.
-/

namespace ServiceConsumers.PatchLists

open JsonDocuments

def jsonPatchNew (op : PatchOperation) (path : Pointer) (value : Option Json) : PatchItem :=
  { op := op, path := path, value := value }

/-- The copy reads `src->item->value->json` without checking that there is a value. -/
def jsonPatchNewCopyWithPrefix (src : PatchItem) (atPrefix : Pointer) : Option PatchItem :=
  match src.value with
  | none => none
  | some v => some { op := src.op, path := atPrefix ++ src.path, value := some v }

def jsonPatchesAppendList (dst src : List PatchItem) (atPrefix : Pointer) :
    Option (List PatchItem) :=
  (src.mapM fun item => jsonPatchNewCopyWithPrefix item atPrefix).map fun items => dst ++ items

/-- Appends a differ's result, when the differ had one. -/
def appendPatches (dst : List PatchItem) (src : Option (List PatchItem)) (atPrefix : Pointer) :
    Option (List PatchItem) :=
  src.bind fun items => jsonPatchesAppendList dst items atPrefix

section ListDiffers

variable {α : Type}

/-- The loop of the list differs: one operation for each position from `idx` on. After a
removal the index stays, because the later elements have moved down. -/
def walkPatchList (addAt : ℕ → Token) (toJson : α → Option Json)
    (change : ℕ → α → α → Option (List PatchItem)) :
    ℕ → List α → List α → Option (List PatchItem)
  | _, [], [] => some []
  | idx, [], y :: ys =>
      (walkPatchList addAt toJson change (idx + 1) [] ys).map fun rest =>
        jsonPatchNew .add [addAt idx] (toJson y) :: rest
  | idx, _ :: xs, [] =>
      (walkPatchList addAt toJson change idx xs []).map fun rest =>
        jsonPatchNew .remove [.index idx] none :: rest
  | idx, x :: xs, y :: ys =>
      (change idx x y).bind fun items =>
        (walkPatchList addAt toJson change (idx + 1) xs ys).map fun rest => items ++ rest

/-- What the plain list differs do with two elements: replace, unless they compare equal. -/
def replaceUnlessEqual (equal : α → α → Bool) (toJson : α → Option Json) (idx : ℕ) (x y : α) :
    Option (List PatchItem) :=
  some (if equal x y then [] else [jsonPatchNew .replace [.index idx] (toJson y)])

/-- A list differ that walks both lists from the start. -/
def indexPatchList (addAt : ℕ → Token) (toJson : α → Option Json)
    (listToJson : List α → Option Json)
    (change : ℕ → α → α → Option (List PatchItem)) (a b : List α) : Option (List PatchItem) :=
  match a, b with
  | [], [] => some []
  | [], y :: ys => some [jsonPatchNew .add [] (listToJson (y :: ys))]
  | _ :: _, [] => some [jsonPatchNew .remove [] none]
  | x :: xs, y :: ys => walkPatchList addAt toJson change 0 (x :: xs) (y :: ys)

/-- The length of the equal prefix of two lists and what follows it in each. -/
def skipEqual (equal : α → α → Bool) : ℕ → List α → List α → ℕ × List α × List α
  | idx, x :: xs, y :: ys =>
      if equal x y then skipEqual equal (idx + 1) xs ys else (idx, x :: xs, y :: ys)
  | idx, xs, ys => (idx, xs, ys)

/-- A list differ that replaces the whole list when the first elements already differ. -/
def prefixPatchList (equal : α → α → Bool) (addAt : ℕ → Token) (toJson : α → Option Json)
    (listToJson : List α → Option Json) (a b : List α) : Option (List PatchItem) :=
  match a, b with
  | [], [] => some []
  | [], y :: ys => some [jsonPatchNew .add [] (listToJson (y :: ys))]
  | _ :: _, [] => some [jsonPatchNew .remove [] none]
  | x :: xs, y :: ys =>
      match skipEqual equal 0 (x :: xs) (y :: ys) with
      | (0, _, _) => some [jsonPatchNew .replace [] (listToJson (y :: ys))]
      | (idx + 1, as, bs) =>
          walkPatchList addAt toJson (replaceUnlessEqual equal toJson) (idx + 1) as bs

end ListDiffers

/-- An optional string or number that is added, removed or replaced as a whole. -/
def optionalPatch {α : Type} [DecidableEq α] (name : String) (toJson : α → Json) :
    Option α → Option α → List PatchItem
  | none, none => []
  | none, some y => [jsonPatchNew .add [.key name] (some (toJson y))]
  | some _, none => [jsonPatchNew .remove [.key name] none]
  | some x, some y =>
      if x = y then [] else [jsonPatchNew .replace [.key name] (some (toJson y))]

/-- A whole optional structure: added or removed as a whole, else compared member by member. -/
def structurePatchList {α : Type} (toJson : α → Option Json)
    (members : α → α → Option (List PatchItem)) :
    Option α → Option α → Option (List PatchItem)
  | none, none => some []
  | none, some y => some [jsonPatchNew .add [] (toJson y)]
  | some _, none => some [jsonPatchNew .remove [] none]
  | some x, some y => members x y

end ServiceConsumers.PatchLists
