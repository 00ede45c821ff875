import FabPcb.WebGeometry
import FabPcb.OrderedMap
import Mathlib.Data.List.Nodup

/-!
How the web app pastes: `translateChild` and `cloneForPaste` of `create.ts`, `edit.paste` of
`editing.ts`.

`translateChild` has a walk of its own. It moves what stands under the name of a coordinate and
has an x, and copies the rest, so what is packed comes out as the plain object of its fields. Its
`none` is an exception. `packed` is what a packed message is in bytes, and `number` is what the
runtime makes of a value that is no number when it needs one: `none` where there is no integer.
New ids come one after the other from `kiids`.
-/

namespace FabPcb.ClonePaste

open OrderedMap WebGeometry

/-! ### The walk of a copy -/

def positional : List String :=
  ["position", "start", "end", "mid", "center", "radiusPoint", "topLeft", "bottomRight", "p0", "p1",
    "p2", "p3"]

/-- What the walk of a copy does not enter. -/
def keptKeys : List String := ["size", "offset", "diameter", "anchor"]

/-- `{ ...fields, [key]: value }` -/
def setKey (key : String) (value : Js) (fields : List (String × Js)) : List (String × Js) :=
  if key ∈ fields.map Prod.fst then fields.map fun e => (e.1, if e.1 = key then value else e.2)
  else fields ++ [(key, value)]

/-- Bytes as an object, which has them under their indexes. -/
def bytesObject (data : List UInt8) : Js :=
  .obj (data.mapIdx fun i b => (toString i, .num b.toNat))

section TranslateChild

variable (packed : Js → List UInt8) (number : Js → Option ℚ) (dx dy : ℤ)

def toNumber : Js → Option ℚ
  | .num v => some v
  | .big v => some v
  | t => number t

/-- Only called on what has a number under `xNm`. -/
def shiftVec (fields : List (String × Js)) : Option (List (String × Js)) :=
  (toNumber number (look "yNm" fields)).map fun y =>
    setKey "yNm" (.big ⌊y + (dy : ℚ) + 1 / 2⌋)
      (setKey "xNm" (.big ⌊num (look "xNm" fields) + (dx : ℚ) + 1 / 2⌋) fields)

/-- What is shifted, when it stands under this key. -/
def isPositional (key : String) (fields : List (String × Js)) : Bool :=
  decide (key ∈ positional) && isNm (look "xNm" fields)

mutual

def walkChild (key : String) : Js → Option Js
  | .arr items => (walkChildItems key items).map .arr
  | .obj fields =>
    if isPositional key fields then (shiftVec number dx dy fields).map .obj
    else (walkChildFields fields).map .obj
  | .any typeUrl message =>
    some (.obj [("$typeName", .str "google.protobuf.Any"), ("typeUrl", .str typeUrl),
      ("value", bytesObject (packed message))])
  | .bytes data => some (bytesObject data)
  | t => some t

def walkChildItems (key : String) : List Js → Option (List Js)
  | [] => some []
  | t :: items => (walkChild key t).bind fun t => (walkChildItems key items).map (t :: ·)

def walkChildFields : List (String × Js) → Option (List (String × Js))
  | [] => some []
  | e :: fields => (walkChildField e).bind fun e => (walkChildFields fields).map (e :: ·)

def walkChildField : String × Js → Option (String × Js)
  | (k, t) => if k ∈ keptKeys then some (k, t) else (walkChild k t).map (k, ·)

end

def translateChild (t : Js) : Option Js := walkChild packed number dx dy "" t

end TranslateChild

/-! ### Copies -/

mutual

/-- An object has each of its keys once. -/
def Keyed : Js → Prop
  | .arr items => KeyedItems items
  | .obj fields => (fields.map Prod.fst).Nodup ∧ KeyedFields fields
  | _ => True

def KeyedItems : List Js → Prop
  | [] => True
  | t :: items => Keyed t ∧ KeyedItems items

def KeyedFields : List (String × Js) → Prop
  | [] => True
  | e :: fields => KeyedField e ∧ KeyedFields fields

def KeyedField : String × Js → Prop
  | (_, t) => Keyed t

end

/-- An item of the store. Its proto is a message, so an object. -/
structure Item where
  id : String
  parent : Option String
  type : String
  proto : List (String × Js)
  bbox : Option Box
  keyed : Keyed (.obj proto)

/-- The item without what makes it part of a document. -/
def Item.stored (item : Item) : StoredItem := ⟨item.type, .obj item.proto, item.bbox⟩

/-- What `cloneForPaste` returns. -/
structure Clone where
  id : String
  parent : Option String
  type : String
  proto : List (String × Js)
  bbox : Option Box

/-- The fields that a spread finds in a value. -/
def entries : Js → List (String × Js)
  | .obj fields => fields
  | .arr items => items.mapIdx fun i t => (toString i, t)
  | .str s => s.toList.mapIdx fun i c => (toString i, .str (String.singleton c))
  | _ => []

def isObject : Js → Bool
  | .obj _ | .arr _ => true
  | _ => false

/-- The ids given so far, and how many new ones there were. -/
structure Ids where
  idMap : OMap String String
  used : ℕ

section Paste

variable (packed : Js → List UInt8) (number : Js → Option ℚ) (kiids : ℕ → String) (dx dy : ℤ)

/-- The id for the copy of an item. -/
def Ids.get (ids : Ids) (id : String) : String × Ids :=
  match ids.idMap.get? id with
  | some copy => (copy, { ids with idMap := ids.idMap.set id copy })
  | none => (kiids ids.used, ⟨ids.idMap.set id (kiids ids.used), ids.used + 1⟩)

/-- The new id in the proto, in place of the old one. -/
def setId (id : String) (fields : List (String × Js)) : List (String × Js) :=
  if isObject (look "id" fields) then
    setKey "id" (.obj (setKey "value" (.str id) (entries (look "id" fields)))) fields
  else setKey "id" (.obj [("value", .str id)]) fields

def setParent (parent : Option String) (fields : List (String × Js)) : List (String × Js) :=
  match parent.filter (· ≠ "") with
  | some parent =>
    setKey "parent" (.obj (setKey "value" (.str parent) (entries (look "parent" fields)))) fields
  | none => fields.filter (·.1 ≠ "parent")

/-- Deep copy of a store item with a fresh id (and parent remap), shifted by (dx, dy). -/
def cloneForPaste (item : Item) (ids : Ids) : Option (Clone × Ids) :=
  (translateChild packed number dx dy (.obj item.proto)).map fun proto =>
    let (id, ids) := ids.get kiids item.id
    let parent := (item.parent.filter (· ≠ "")).bind ids.idMap.get?
    ({ id
       parent
       type := item.type
       proto := setParent parent (setId id (entries proto))
       bbox := item.bbox.map fun b => { b with x := b.x + dx, y := b.y + dy } }, ids)

def cloneAll : List Item → Ids → Option (List Clone)
  | [], _ => some []
  | item :: items, ids =>
    (cloneForPaste packed number kiids dx dy item ids).bind fun r =>
      (cloneAll items r.2).map (r.1 :: ·)

/-- The items that `edit.paste` creates. -/
def paste (items : List Item) : Option (List Clone) :=
  cloneAll packed number kiids dx dy items ⟨OMap.empty, 0⟩

end Paste

end FabPcb.ClonePaste
