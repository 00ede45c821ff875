import FabPcb.FootprintItems

/-!
How the web app moves an item, whatever the item is.

A message is taken as the plain object that it is. Whatever has an x and a y is a place, unless
the key that it stands under says that it is a size. The items of a footprint are packed, and
are unpacked for it.
-/

namespace FabPcb.WebGeometry

open FootprintItems
open SpecctraData (Vec2 roundHalfUp)

/-! ### Plain values -/

/-- A value as a program has it. A packed message has the type that it says and what is
unpacked, which is `undefined` where the type is not known. -/
inductive Js where
  | undefined
  | bool (value : Bool)
  | num (value : ℚ)
  | big (value : ℤ)
  | str (value : String)
  | bytes (data : List UInt8)
  | any (typeUrl : String) (message : Js)
  | arr (items : List Js)
  | obj (fields : List (String × Js))

def look (key : String) (fields : List (String × Js)) : Js := (fields.lookup key).getD .undefined

/-- The value at a path of keys is changed, where there is one. -/
def modifyAt (f : Js → Js) : List String → Js → Js
  | [], t => f t
  | key :: path, .obj fields =>
    .obj (fields.map fun e => (e.1, if e.1 = key then modifyAt f path e.2 else e.2))
  | _ :: _, t => t

lemma modifyAt_id (path : List String) (t : Js) : modifyAt id path t = t := by
  induction path generalizing t with
  | nil => rfl
  | cons key path ih =>
    cases t with
    | obj fields =>
      simp [modifyAt, ih, ite_self, List.map_id_fun', id]
    | undefined => rfl
    | bool _ => rfl
    | num _ => rfl
    | big _ => rfl
    | str _ => rfl
    | bytes _ => rfl
    | any _ _ => rfl
    | arr _ => rfl

/-! ### Places -/

def isNm : Js → Bool
  | .num _ | .big _ => true
  | _ => false

def num : Js → ℚ
  | .num v => v
  | .big v => v
  | _ => 0

/-- A number as the field already has it. -/
def like : Js → ℚ → Js
  | .big _, v => .big ⌊v + 1 / 2⌋
  | _, v => .num (roundHalfUp v)

/-- Keys whose value is a size or an offset rather than a coordinate. -/
def nonPositional : List String :=
  ["size", "diameter", "spacing", "extent", "offset", "trapezoidDelta", "knockoutMargin",
    "hatchingOffset", "transformOriginOffset", "anchor"]

def isVec (fields : List (String × Js)) : Bool :=
  isNm (look "xNm" fields) && isNm (look "yNm" fields)

def setVec (fn : Vec2 → Vec2) (fields : List (String × Js)) : List (String × Js) :=
  let v := fn ⟨num (look "xNm" fields), num (look "yNm" fields)⟩
  fields.map fun e =>
    (e.1, if e.1 = "xNm" then like e.2 v.x else if e.1 = "yNm" then like e.2 v.y else e.2)

section Walk

variable (fn : Vec2 → Vec2)

mutual

/-- Each place in a value is changed. What is under `definition` is left. -/
def walk (key : String) : Js → Js
  | .arr items => .arr (walkItems key items)
  | .obj fields =>
    if isVec fields then
      if key ∈ nonPositional then .obj fields else .obj (setVec fn fields)
    else .obj (walkFields fields)
  | t => t

def walkItems (key : String) : List Js → List Js
  | [] => []
  | t :: items => walk key t :: walkItems key items

def walkFields : List (String × Js) → List (String × Js)
  | [] => []
  | e :: fields => walkField e :: walkFields fields

def walkField : String × Js → String × Js
  | (k, t) => (k, if k = "definition" then t else walk k t)

end

/-- An item of a definition is unpacked, edited and packed again. -/
def editItem (edit : Js → Js) : Js → Js
  | .any typeUrl .undefined => .any typeUrl .undefined
  | .any typeUrl message => .any typeUrl (edit message)
  | .obj fields => edit (.obj fields)
  | .arr items => edit (.arr items)
  | t => t

def mapDefinitionItems (edit : Js → Js) : Js → Js :=
  modifyAt (fun
    | .arr items => .arr (items.map (editItem edit))
    | t => t) ["definition", "items"]

end Walk

/-! ### Items of the store -/

structure Box where
  x : ℚ
  y : ℚ
  w : ℚ
  h : ℚ

structure StoredItem where
  type : String
  proto : Js
  bbox : Option Box

/-- A translated copy of an item. -/
def translateItem (item : StoredItem) (dx dy : ℚ) : StoredItem :=
  let shift := fun v : Vec2 => (⟨v.x + dx, v.y + dy⟩ : Vec2)
  let proto := walk shift "" item.proto
  { item with
    proto :=
      if item.type = "KOT_PCB_FOOTPRINT" then mapDefinitionItems (walk shift "") proto else proto
    bbox := item.bbox.map fun b => { b with x := b.x + dx, y := b.y + dy } }

/-- An angle, not below zero and below a whole turn. -/
def bumped (deg a : ℚ) : ℚ := remainder (remainder (a + deg) 360 + 360) 360

def bumpNum (f : ℚ → ℚ) : Js → Js
  | .num a => .num (f a)
  | t => t

/-- The angle at a path is bumped, when it is there. -/
def bump (f : ℚ → ℚ) (path : List String) : Js → Js :=
  modifyAt (bumpNum f) (path ++ ["valueDegrees"])

def textAngle (f : ℚ → ℚ) (path : List String) : Js → Js := bump f (path ++ ["attributes", "angle"])

/-- The angles of an item itself. -/
def bumpProto (f : ℚ → ℚ) (proto : Js) : Js :=
  ["referenceField", "valueField", "datasheetField", "descriptionField"].foldl
    (fun t key => textAngle f [key, "text", "text"] t)
    (textAngle f ["text"] (bump f ["orientation"] proto))

/-- The angles of what is in a footprint. -/
def bumpChild (f : ℚ → ℚ) (child : Js) : Js :=
  textAngle f ["text"] (bump f ["padStack", "angle"] child)

/-- The orientation of a symbol, as it is after `deg`. -/
def turnSymbol (deg : ℚ) (orientation : Js) : Js :=
  let pick := fun (order : List Js) (i : Nat) =>
    let n := (i + ⌊deg / 90 + 1 / 2⌋ + 4).tmod 4
    if n < 0 then Js.undefined else order.getD n.toNat .undefined
  match orientation with
  | .str s =>
    let order := ["SSO_0", "SSO_90", "SSO_180", "SSO_270"]
    if s ∈ order then pick (order.map .str) (order.idxOf s) else .str s
  | .num v =>
    let order : List ℚ := [1, 2, 3, 4]
    if v ∈ order then pick (order.map .num) (order.idxOf v) else .num v
  | t => t

section Rotate

variable (J : JsMath)

def rotatedAbout (cx cy deg : ℚ) (v : Vec2) : Vec2 :=
  let rad := deg * J.pi / 180
  let x := v.x - cx
  let y := v.y - cy
  ⟨cx + x * J.cos rad + y * J.sin rad, cy - x * J.sin rad + y * J.cos rad⟩

/-- The box of the corners of a box, rotated. -/
def rotateBox (cx cy deg : ℚ) (b : Box) : Box :=
  let corner := fun x y => rotatedAbout J cx cy deg ⟨x, y⟩
  let c₁ := corner b.x b.y
  let c₂ := corner (b.x + b.w) b.y
  let c₃ := corner b.x (b.y + b.h)
  let c₄ := corner (b.x + b.w) (b.y + b.h)
  let left := min (min (min c₁.x c₂.x) c₃.x) c₄.x
  let top := min (min (min c₁.y c₂.y) c₃.y) c₄.y
  ⟨left, top, max (max (max c₁.x c₂.x) c₃.x) c₄.x - left,
    max (max (max c₁.y c₂.y) c₃.y) c₄.y - top⟩

/-- An item rotated about a centre. Places rotate; `orientation` and `angle` are bumped. -/
def rotateItem (item : StoredItem) (cx cy deg : ℚ) : StoredItem :=
  let rot := rotatedAbout J cx cy deg
  let proto := bumpProto (bumped deg) (walk rot "" item.proto)
  let proto :=
    if item.type = "KOT_PCB_FOOTPRINT" then
      mapDefinitionItems (fun child => bumpChild (bumped deg) (walk rot "" child)) proto
    else proto
  { item with
    proto := modifyAt (turnSymbol deg) ["transform", "orientation"] proto
    bbox := item.bbox.map (rotateBox J cx cy deg) }

end Rotate

/-! ### Walking -/

section Lemmas

variable {fn : Vec2 → Vec2} {key : String}

@[simp]
lemma walk_arr (items : List Js) :
    walk fn key (.arr items) = .arr (items.map (walk fn key)) := by
  rw [walk]
  congr 1
  induction items with
  | nil => rfl
  | cons t items ih => rw [walkItems, ih, List.map_cons]

lemma walkFields_eq (fields : List (String × Js)) : walkFields fn fields =
    fields.map fun e => (e.1, if e.1 = "definition" then e.2 else walk fn e.1 e.2) := by
  induction fields with
  | nil => rfl
  | cons e fields ih => rw [walkFields, ih, List.map_cons, walkField]

lemma walk_obj {fields : List (String × Js)} (h : isVec fields = false) :
    walk fn key (.obj fields) =
      .obj (fields.map fun e => (e.1, if e.1 = "definition" then e.2 else walk fn e.1 e.2)) := by
  rw [walk, h, if_neg Bool.false_ne_true, walkFields_eq]

lemma walk_vec {fields : List (String × Js)} (h : isVec fields = true)
    (hkey : key ∉ nonPositional) : walk fn key (.obj fields) = .obj (setVec fn fields) := by
  rw [walk, if_pos h, if_neg hkey]

lemma walk_size {fields : List (String × Js)} (h : isVec fields = true)
    (hkey : key ∈ nonPositional) : walk fn key (.obj fields) = .obj fields := by
  rw [walk, if_pos h, if_pos hkey]

end Lemmas

end FabPcb.WebGeometry
