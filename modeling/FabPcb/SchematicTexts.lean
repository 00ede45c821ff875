import FabPcb.SpecctraData
import Mathlib.Algebra.Order.Floor.Ring
import Mathlib.Data.Rat.Floor

/-!
Where the schematic adapter places the texts of an item: `schematicAdapter.ts`, and of
`labelShapes.ts`, `symbolTransform.ts` and `textMetrics.ts` what it uses for them.

Numbers are rationals, with the constants and functions of `Math` that are more than arithmetic
given. A message is given by the fields that are read of it; an absent number is `none`, and an
absent message of which only fields are read is one without fields.
-/

namespace FabPcb.SchematicTexts

open SpecctraData (roundHalfUp)

structure JsMath where
  pi : ℚ
  cos : ℚ → ℚ
  sin : ℚ → ℚ

structure Vec2 where
  x : ℚ
  y : ℚ
  deriving DecidableEq

def vAdd (a b : Vec2) : Vec2 := ⟨a.x + b.x, a.y + b.y⟩
def vSub (a b : Vec2) : Vec2 := ⟨a.x - b.x, a.y - b.y⟩
def vScale (a : Vec2) (s : ℚ) : Vec2 := ⟨a.x * s, a.y * s⟩

variable (J : JsMath)

/-- `vRotate` about the origin. -/
def vRotate (p : Vec2) (deg : ℚ) : Vec2 :=
  if deg = 0 then p
  else
    let r := deg * J.pi / 180
    ⟨p.x * J.cos r + p.y * J.sin r, p.y * J.cos r - p.x * J.sin r⟩

/-- `Math.trunc` -/
def jsTrunc (q : ℚ) : ℚ := if 0 ≤ q then (⌊q⌋ : ℤ) else (⌈q⌉ : ℤ)

/-- The `%` operator. -/
def jsMod (a b : ℚ) : ℚ := a - b * jsTrunc (a / b)

/-- `Math.min` and `Math.max` are those of the rationals; `n || m` takes the other one at `0`. -/
def orNumber (a b : ℚ) : ℚ := if a = 0 then b else a

def orText (s : Option String) (fallback : String) : String := (s.filter (· ≠ "")).getD fallback

/-! ### Enumerations -/

/-- A value of an enumeration of the API, by its number or by its name. -/
inductive EnumLike
  | num (n : ℤ)
  | name (s : String)
  deriving DecidableEq

def EnumLike.is (v : EnumLike) (n : ℤ) (s : String) : Bool :=
  match v with
  | .num m => m = n
  | .name t => t = s

/-- What a table of numbers, names and values has for a value. -/
def fromEnum {α : Type} (table : List (ℤ × String × α)) (v : Option EnumLike) : Option α :=
  v.bind fun v => (table.find? fun e => v.is e.1 e.2.1).map (·.2.2)

inductive HAlign
  | left | center | right
  deriving DecidableEq

inductive VAlign
  | top | center | bottom
  deriving DecidableEq

def halignFromEnum (v : Option EnumLike) (fallback : HAlign) : HAlign :=
  (fromEnum [(1, "HA_LEFT", .left), (2, "HA_CENTER", .center), (3, "HA_RIGHT", .right)] v).getD
    fallback

def valignFromEnum (v : Option EnumLike) (fallback : VAlign) : VAlign :=
  (fromEnum [(1, "VA_TOP", .top), (2, "VA_CENTER", .center), (3, "VA_BOTTOM", .bottom)] v).getD
    fallback

def flipHAlign : HAlign → HAlign
  | .left => .right
  | .right => .left
  | .center => .center

def flipVAlign : VAlign → VAlign
  | .top => .bottom
  | .bottom => .top
  | .center => .center

inductive SpinStyle
  | left | up | right | bottom
  deriving DecidableEq

def spinStyleFromEnum : Option EnumLike → Option SpinStyle :=
  fromEnum [(1, "SLSS_LEFT", .left), (2, "SLSS_UP", .up), (3, "SLSS_RIGHT", .right),
    (4, "SLSS_BOTTOM", .bottom)]

def sheetSideSpin : Option EnumLike → Option SpinStyle :=
  fromEnum [(1, "SHS_LEFT", .right), (2, "SHS_RIGHT", .left), (3, "SHS_TOP", .bottom),
    (4, "SHS_BOTTOM", .up)]

inductive LabelShape
  | input | output | bidi | tristate | passive | dot | circle | diamond | rectangle
  deriving DecidableEq

def labelShapeFromEnum (v : Option EnumLike) (fallback : LabelShape) : LabelShape :=
  (fromEnum [(1, "SLSH_INPUT", .input), (2, "SLSH_OUTPUT", .output), (3, "SLSH_BIDI", .bidi),
    (4, "SLSH_TRISTATE", .tristate), (5, "SLSH_PASSIVE", .passive), (6, "SLSH_DOT", .dot),
    (7, "SLSH_CIRCLE", .circle), (8, "SLSH_DIAMOND", .diamond),
    (9, "SLSH_RECTANGLE", .rectangle)] v).getD fallback

inductive PinOrientation
  | right | left | up | down
  deriving DecidableEq

def pinOrientationFromEnum (v : Option EnumLike) : PinOrientation :=
  (fromEnum [(2, "SPO_LEFT", .left), (3, "SPO_UP", .up), (4, "SPO_DOWN", .down)] v).getD .right

/-- A number of degrees, or `SSO_0` to `SSO_270`. -/
def orientationFromEnum (v : Option EnumLike) : ℕ :=
  (fromEnum [(2, "SSO_90", 90), (90, "SSO_90", 90), (3, "SSO_180", 180), (180, "SSO_180", 180),
    (4, "SSO_270", 270), (270, "SSO_270", 270)] v).getD 0

/-! ### Messages -/

structure Vector2Like where
  xNm : Option ℚ := none
  yNm : Option ℚ := none
  deriving DecidableEq

/-- `dist`, and each coordinate of `vec`. -/
def nm (v : Option ℚ) : ℚ := v.getD 0

def vec (v : Vector2Like) : Vec2 := ⟨nm v.xNm, nm v.yNm⟩

structure TextAttributes where
  horizontalAlignment : Option EnumLike := none
  verticalAlignment : Option EnumLike := none
  angle : Option ℚ := none
  lineSpacing : Option ℚ := none
  strokeWidth : Option ℚ := none
  italic : Bool := false
  bold : Bool := false
  mirrored : Bool := false
  size : Vector2Like := {}
  fontName : Option String := none
  deriving DecidableEq

structure SchText where
  position : Vector2Like := {}
  attributes : TextAttributes := {}
  text : Option String := none
  deriving DecidableEq

structure SchField where
  name : Option String := none
  text : Option SchText := none
  visible : Option Bool := none
  showName : Bool := false
  isPrivate : Bool := false
  deriving DecidableEq

structure Margins where
  marginLeft : Option ℚ := none
  marginTop : Option ℚ := none
  marginRight : Option ℚ := none
  marginBottom : Option ℚ := none
  deriving DecidableEq

structure TextBox where
  topLeft : Vector2Like := {}
  bottomRight : Vector2Like := {}
  attributes : TextAttributes := {}
  text : Option String := none
  borderEnabled : Option Bool := none
  margins : Margins := {}
  deriving DecidableEq

structure SheetPin where
  id : String := ""
  position : Option Vector2Like := none
  text : SchText := {}
  spinStyle : Option EnumLike := none
  shape : Option EnumLike := none
  side : Option EnumLike := none
  deriving DecidableEq

/-- A text box that a table cell or a symbol owns, with the margins that are kept beside it. -/
structure OwnedBox where
  id : String := ""
  textbox : Option TextBox := none
  margins : Margins := {}
  deriving DecidableEq

structure SymbolTransformLike where
  orientation : Option EnumLike := none
  mirrorX : Bool := false
  mirrorY : Bool := false
  deriving DecidableEq

/-- A child of a library symbol, `item` being the object that stands for it. -/
structure Child (Obj : Type) where
  item : Obj
  unit : Option ℤ := none
  bodyStyle : Option ℤ := none
  isPrivate : Bool := false

structure Definition (Obj : Type) where
  items : List (Child Obj) := []
  unitCount : Option ℤ := none

/-- The fields of a message of any type. -/
structure Fields (Obj : Type) where
  id : String := ""
  text : Option SchText := none
  textbox : Option TextBox := none
  margins : Margins := {}
  position : Option Vector2Like := none
  spinStyle : Option EnumLike := none
  shape : Option EnumLike := none
  side : Option EnumLike := none
  /-- of labels -/
  fields : List SchField := []
  intersheetRefsField : Option SchField := none
  /-- of tables -/
  cells : List (Option OwnedBox) := []
  /-- of sheets -/
  nameField : Option SchField := none
  filenameField : Option SchField := none
  userFields : List SchField := []
  pins : List SheetPin := []
  /-- of symbols -/
  transform : Option SymbolTransformLike := none
  unit : Option ℤ := none
  bodyStyle : Option ℤ := none
  definition : Definition Obj := {}
  showPinNames : Option Bool := none
  showPinNumbers : Option Bool := none
  pinNameOffset : Option ℚ := none
  referenceField : Option SchField := none
  valueField : Option SchField := none
  footprintField : Option SchField := none
  datasheetField : Option SchField := none
  descriptionField : Option SchField := none
  /-- of pins and fields -/
  name : Option String := none
  visible : Option Bool := none
  showName : Bool := false
  isPrivate : Bool := false
  number : Option String := none
  orientation : Option EnumLike := none
  length : Option ℚ := none
  nameTextSize : Option ℚ := none
  numberTextSize : Option ℚ := none
  alternates : List (Option String) := []
  activeAlternate : Option String := none

/-- The types of items, `KOT_SCH_LINE` and so on. -/
inductive ItemType
  | line | junction | noConnect | busWireEntry | text | textbox | shape | bitmap | label
  | globalLabel | hierLabel | directiveLabel | group | ruleArea | sheet | sheetPin | symbol | pin
  | field | table
  | other (name : String)
  deriving DecidableEq

/-- An object that may stand for an item: an `Any` with what the decoder of the context makes of
it, a wrapper, or a message. -/
inductive Obj
  | any (decoded : Option Obj)
  | wrapped (type : Option ItemType) (proto : Obj)
  | message (typeName : Option String) (fields : Fields Obj)

def Obj.fields : Obj → Fields Obj
  | .any _ | .wrapped _ _ => {}
  | .message _ fields => fields

/-- The object has a `$typeName`. -/
def Obj.named : Obj → Bool
  | .any _ => true
  | .wrapped _ _ => false
  | .message typeName _ => typeName.isSome

/-! ### Contexts -/

inductive TextFallback
  | glyphs | box | none
  deriving DecidableEq

/-- The overrides of `SchematicDefaults` that texts depend on. -/
structure Defaults where
  lineWidth : Option ℚ := none
  textSize : Option ℚ := none
  pinTextSize : Option ℚ := none
  textOffsetRatio : Option ℚ := none

/-- A context of the adapter, without cached shapes. -/
structure SchematicAdapterContext where
  symbolPinsAbsolute : Option Bool := none
  showHiddenPins : Bool := false
  showHiddenFields : Bool := false
  textFallback : Option TextFallback := none
  assumePinNameOffset : Option ℚ := none
  subpartFirstId : Option String := none
  subpartIdSeparator : Option String := none
  defaults : Defaults := {}

def MIL : ℚ := 25400

namespace SchematicAdapterContext

variable (c : SchematicAdapterContext)

def lineWidth : ℚ := c.defaults.lineWidth.getD (6 * MIL)
def textSize : ℚ := c.defaults.textSize.getD (50 * MIL)
def pinTextSize : ℚ := c.defaults.pinTextSize.getD (50 * MIL)
def textOffsetRatio : ℚ := c.defaults.textOffsetRatio.getD (15 / 100)

end SchematicAdapterContext

open SchematicAdapterContext

variable (c : SchematicAdapterContext)

/-! ### Attributes -/

structure TextAttrs where
  size : Vec2
  thickness : ℚ
  angle : ℚ
  halign : HAlign
  valign : VAlign
  mirrored : Bool := false
  bold : Bool := false
  italic : Bool := false
  lineSpacing : Option ℚ := none
  deriving DecidableEq

def effectivePenWidth (a : TextAttributes) (size : Vec2) (defaultPen : ℚ) : ℚ :=
  let stored := nm a.strokeWidth
  let thickness :=
    if stored ≤ 1 then
      if a.bold then roundHalfUp (size.x / 5)
      else if defaultPen ≤ 1 then roundHalfUp (size.x / 8) else defaultPen
    else if a.bold then roundHalfUp (stored * (16 / 10)) else stored
  min thickness (roundHalfUp (min size.x size.y * (1 / 4)))

def readTextSize (a : TextAttributes) : Vec2 :=
  let sx := nm a.size.xNm
  let sy := nm a.size.yNm
  ⟨orNumber (orNumber sx sy) c.textSize, orNumber (orNumber sy sx) c.textSize⟩

def readTextAttrs (a : TextAttributes) : TextAttrs where
  size := readTextSize c a
  thickness := effectivePenWidth a (readTextSize c a) c.lineWidth
  angle := nm a.angle
  halign := halignFromEnum a.horizontalAlignment .left
  valign := valignFromEnum a.verticalAlignment .bottom
  mirrored := a.mirrored
  bold := a.bold
  italic := a.italic
  lineSpacing := some (orNumber (nm a.lineSpacing) 1)

/-- `SCH_TEXT_OFFSET` -/
def SCH_TEXT_OFFSET : Vec2 := ⟨0, -250000⟩

/-! ### Fields -/

inductive FieldKind
  | field | sheetfile

/-- The string that a field shows. -/
def fieldShownText (f : Option SchField) (showHidden : Bool) (kind : FieldKind) : String :=
  match f with
  | none => ""
  | some f =>
    match f.text with
    | none => ""
    | some t =>
      let text := t.text.getD ""
      if f.isPrivate ∨ (f.visible = some false ∧ ¬ showHidden) ∨ text = "" then ""
      else if f.showName ∧ orText f.name "" ≠ "" then orText f.name "" ++ ": " ++ text
      else
        match kind with
        | .sheetfile => "File: " ++ text
        | .field => text

/-- What the text variables of a sheet stand for, the last of a name. -/
def sheetTextVars {O : Type} (p : Fields O) : List (String × String) :=
  let add (f : Option SchField) (fallback : String) : List (String × String) :=
    (f.bind fun f => (f.text.bind (·.text)).map fun t => (orText f.name fallback, t)).toList
  add p.nameField "Sheetname" ++ add p.filenameField "Sheetfile" ++
    p.userFields.flatMap fun f => add (some f) ""

/-- The text with each variable that has a value replaced, `fuel` being its length at least. -/
def expandChars (vars : List (String × String)) : ℕ → List Char → List Char
  | 0, cs => cs
  | _ + 1, [] => []
  | fuel + 1, ch :: cs =>
    match ch, cs with
    | '$', '\x7b' :: rest =>
      let name := rest.takeWhile (· ≠ '\x7d')
      match rest.dropWhile (· ≠ '\x7d') with
      | [] => '$' :: expandChars vars fuel cs
      | _ :: after =>
        if name = [] then '$' :: expandChars vars fuel cs
        else
          match vars.reverse.lookup (String.ofList name) with
          | some value => value.toList ++ expandChars vars fuel after
          | none => '$' :: '\x7b' :: name ++ '\x7d' :: expandChars vars fuel after
    | ch, cs => ch :: expandChars vars fuel cs

def expandTextVars (text : String) (vars : Option (List (String × String))) : String :=
  match vars with
  | none => text
  | some vars => String.ofList (expandChars vars text.toList.length text.toList)

/-! ### Symbols -/

structure SymTransform where
  x1 : ℚ
  y1 : ℚ
  x2 : ℚ
  y2 : ℚ
  deriving DecidableEq

def IDENTITY_TRANSFORM : SymTransform := ⟨1, 0, 0, 1⟩
def ROTATE_CCW : SymTransform := ⟨0, 1, -1, 0⟩
def ROTATE_CW : SymTransform := ⟨0, -1, 1, 0⟩
def MIRROR_X : SymTransform := ⟨1, 0, 0, -1⟩
def MIRROR_Y : SymTransform := ⟨-1, 0, 0, 1⟩

def composeTransform (temp old : SymTransform) : SymTransform where
  x1 := old.x1 * temp.x1 + old.x2 * temp.y1
  y1 := old.y1 * temp.x1 + old.y2 * temp.y1
  x2 := old.x1 * temp.x2 + old.x2 * temp.y2
  y2 := old.y1 * temp.x2 + old.y2 * temp.y2

def symbolTransform (tr : SymbolTransformLike) : SymTransform :=
  let o := orientationFromEnum tr.orientation
  let t := if o = 90 then composeTransform ROTATE_CCW IDENTITY_TRANSFORM
    else if o = 180 then
      composeTransform ROTATE_CCW (composeTransform ROTATE_CCW IDENTITY_TRANSFORM)
    else if o = 270 then composeTransform ROTATE_CW IDENTITY_TRANSFORM
    else IDENTITY_TRANSFORM
  let t := if tr.mirrorX then composeTransform MIRROR_X t else t
  if tr.mirrorY then composeTransform MIRROR_Y t else t

def transformCoordinate (t : SymTransform) (p : Vec2) : Vec2 :=
  ⟨t.x1 * p.x + t.y1 * p.y, t.x2 * p.x + t.y2 * p.y⟩

def toSheet (t : SymTransform) (p origin : Vec2) : Vec2 := vAdd (transformCoordinate t p) origin

def pinDirection : PinOrientation → Vec2
  | .right => ⟨1, 0⟩
  | .left => ⟨-1, 0⟩
  | .up => ⟨0, -1⟩
  | .down => ⟨0, 1⟩

def pinDrawOrientation (o : PinOrientation) (t : SymTransform) : PinOrientation :=
  let stop := transformCoordinate t (pinDirection o)
  if stop.x = 0 then (if 0 < stop.y then .down else .up)
  else if stop.x < 0 then .left else .right

structure FieldPlacement where
  pos : Vec2
  angle : ℚ
  halign : HAlign
  valign : VAlign
  exact : Bool
  deriving DecidableEq

/-- An angle from `0` on and below `360`. -/
def turned (angle : ℚ) : ℚ := jsMod (jsMod angle 360 + 360) 360

def isHorizontal (angle : ℚ) : Bool := |jsMod (turned angle) 180| < 1 / 1000000

/-- `SCH_FIELD::GetDrawRotation` -/
def drawRotation (t : SymTransform) (angle : ℚ) : ℚ :=
  if t.y1 ≠ 0 then (if isHorizontal angle then 90 else 0) else turned angle

def symbolFieldPlacement (a : TextAttrs) (pos : Vec2) (t : SymTransform) (origin : Vec2)
    (boxPen : ℚ) : FieldPlacement :=
  let posT := toSheet t (vSub pos origin) origin
  let angle := drawRotation t a.angle
  let d := transformCoordinate t (vRotate J ⟨1, 0⟩ (turned a.angle))
  let dDraw := vRotate J ⟨1, 0⟩ angle
  let flip := d.x * dDraw.x + d.y * dDraw.y < 0
  let rho := roundHalfUp (15 / 10 * boxPen)
  let offsetX := jsTrunc (a.thickness / (152 / 100))
  let delta := match a.halign with
    | .left => rho - offsetX
    | .right => offsetX - rho
    | .center => 0
  { pos := vAdd posT (vScale d delta)
    angle := angle
    halign := if flip then flipHAlign a.halign else a.halign
    valign := .center
    exact := a.valign = .center ∧ ¬ a.italic ∧ ¬ a.mirrored }

structure Box where
  x : ℚ
  y : ℚ
  w : ℚ
  h : ℚ

def symbolFieldPlacementFromBox (a : TextAttrs) (pos : Vec2) (t : SymTransform) (origin : Vec2)
    (box : Box) : FieldPlacement :=
  let centre : Vec2 := ⟨box.x + box.w / 2, box.y + box.h / 2⟩
  { pos := vAdd (toSheet t (vSub pos origin) origin) (transformCoordinate t (vSub centre pos))
    angle := drawRotation t a.angle
    halign := .center
    valign := .center
    exact := true }

/-- Where a library text inside a symbol goes. -/
def symbolTextPlacement (a : TextAttrs) (pos : Vec2) (t : SymTransform) (origin : Vec2) :
    TextAttrs × Vec2 :=
  let origHoriz := isHorizontal a.angle
  let screenHoriz : Bool := decide (t.x1 ≠ 0) ≠ !origHoriz
  let flipH : Bool := if origHoriz then (if screenHoriz then t.x1 < 0 else 0 < t.x2)
    else if screenHoriz then 0 < t.y1 else t.y2 < 0
  let det := t.x1 * t.y2 - t.x2 * t.y1
  let flipV : Bool := det < 0 ∧ origHoriz = decide (0 < t.x1)
  ({ a with
      angle := if screenHoriz then 0 else 90
      halign := if flipH then flipHAlign a.halign else a.halign
      valign := if flipV then flipVAlign a.valign else a.valign }, toSheet t pos origin)

/-- The box of a text box inside a symbol. -/
def symbolTextBoxProto (tb : TextBox) (t : SymTransform) (origin : Vec2) : TextBox :=
  let a := toSheet t (vec tb.topLeft) origin
  let b := toSheet t (vec tb.bottomRight) origin
  { tb with
    topLeft := ⟨some (min a.x b.x), some (min a.y b.y)⟩
    bottomRight := ⟨some (max a.x b.x), some (max a.y b.y)⟩
    attributes :=
      if t.y1 ≠ 0 then
        { tb.attributes with
          angle := some (if isHorizontal (nm tb.attributes.angle) then 90 else 0) }
      else tb.attributes }

/-! ### Labels -/

def isVertical (angle : ℚ) : Bool := |jsMod (jsMod angle 180 + 180) 180 - 90| < 1 / 1000000

def spinStyleFromText (angle : ℚ) (halign : HAlign) : SpinStyle :=
  if isVertical angle then (if halign = .right then .bottom else .up)
  else if halign = .right then .left else .right

def spinTextAttrs : SpinStyle → ℚ × HAlign
  | .right => (0, .left)
  | .up => (90, .left)
  | .left => (0, .right)
  | .bottom => (90, .right)

def labelBoxExpansion (textHeight : ℚ) : ℚ := roundHalfUp (375 / 1000 * textHeight)

def globalLabelTextOffset (textHeight : ℚ) (shape : LabelShape) (spin : SpinStyle) : Vec2 :=
  let horiz := labelBoxExpansion textHeight +
    if shape = .input ∨ shape = .bidi ∨ shape = .tristate
      then roundHalfUp (textHeight * 3 / 4) else 0
  let vert := roundHalfUp (textHeight * (715 / 10000))
  match spin with
  | .left => ⟨-horiz, vert⟩
  | .up => ⟨vert, -horiz⟩
  | .right => ⟨horiz, vert⟩
  | .bottom => ⟨vert, horiz⟩

def hierLabelTextOffset (textHeight textWidth : ℚ) (spin : SpinStyle) (offsetRatio : ℚ) : Vec2 :=
  let dist := roundHalfUp (offsetRatio * textHeight) + textWidth
  match spin with
  | .left => ⟨-dist, 0⟩
  | .up => ⟨0, -dist⟩
  | .right => ⟨dist, 0⟩
  | .bottom => ⟨0, dist⟩

def localLabelTextOffset (textHeight penWidth : ℚ) (spin : SpinStyle) (offsetRatio : ℚ) : Vec2 :=
  let dist := roundHalfUp (offsetRatio * textHeight) + penWidth
  if spin = .up ∨ spin = .bottom then ⟨-dist, 0⟩ else ⟨0, -dist⟩

/-- What the layouts of labels have in common. -/
structure LabelBase where
  pos : Vec2
  text : String
  a : TextAttrs
  spin : SpinStyle

/-- The attributes that a spin style implies, with a vertical justification. -/
def spun (a : TextAttrs) (spin : SpinStyle) (valign : VAlign) : TextAttrs :=
  { a with angle := (spinTextAttrs spin).1, halign := (spinTextAttrs spin).2, valign := valign }

def labelBase {O : Type} (p : Fields O) (valign : VAlign) : LabelBase :=
  let t := p.text.getD {}
  let a := readTextAttrs c t.attributes
  let spin := (spinStyleFromEnum p.spinStyle).getD (spinStyleFromText a.angle a.halign)
  { pos := vec (p.position.getD t.position)
    text := t.text.getD ""
    a := spun a spin valign
    spin := spin }

inductive LabelKind
  | local | global | hier
  deriving DecidableEq

structure LabelTextLayout extends LabelBase where
  anchor : Vec2
  /-- The offset of a global label, which its fields have too. -/
  fieldOffset : Option Vec2

def labelTextLayout {O : Type} (kind : LabelKind) (p : Fields O) : LabelTextLayout :=
  match kind with
  | .local =>
    let l := labelBase c p .bottom
    { l with
      anchor := vAdd l.pos
        (localLabelTextOffset l.a.size.y l.a.thickness l.spin c.textOffsetRatio)
      fieldOffset := none }
  | .global =>
    let l := labelBase c p .center
    let off := globalLabelTextOffset l.a.size.y (labelShapeFromEnum p.shape .input) l.spin
    { l with anchor := vAdd l.pos off, fieldOffset := some off }
  | .hier =>
    let l := labelBase c p .center
    { l with
      anchor := vAdd l.pos (hierLabelTextOffset l.a.size.y l.a.size.x l.spin c.textOffsetRatio)
      fieldOffset := none }

/-- A field, with the key of its shapes. -/
structure FieldRef where
  key : String
  field : SchField

def labelFieldRefs {O : Type} (p : Fields O) (id : String) : List FieldRef :=
  (p.fields.mapIdx fun i f => ⟨id ++ ":field:" ++ orText f.name (toString i), f⟩) ++
    (p.intersheetRefsField.map fun f =>
      ⟨id ++ ":field:" ++ orText f.name "Intersheetrefs", f⟩).toList

structure SheetPinLayout where
  key : String
  text : String
  a : TextAttrs
  anchor : Vec2

def sheetPinLayout (pin : SheetPin) (index : ℕ) (sheetId : String)
    (vars : Option (List (String × String))) : SheetPinLayout :=
  let pinId := if pin.id = "" then sheetId ++ ":pin" ++ toString index else pin.id
  let a := readTextAttrs c pin.text.attributes
  let spin := ((spinStyleFromEnum pin.spinStyle).or (sheetSideSpin pin.side)).getD
    (spinStyleFromText a.angle a.halign)
  { key := sheetId ++ ":pin:" ++ pinId
    text := expandTextVars (pin.text.text.getD "") vars
    a := spun a spin .center
    anchor := vAdd (vec (pin.position.getD pin.text.position))
      (hierLabelTextOffset a.size.y a.size.x spin c.textOffsetRatio) }

/-! ### Pins -/

structure PinGeom where
  pos : Vec2
  root : Vec2
  orient : PinOrientation

structure PinTextLayout where
  text : String
  pos : Vec2
  size : ℚ
  thickness : ℚ
  angle : ℚ
  halign : HAlign
  valign : VAlign
  deriving DecidableEq

structure PinTexts where
  number : Option PinTextLayout
  name : Option PinTextLayout

/-- The name and the number that a pin shows. -/
def pinShown {O : Type} (pin : Fields O) : String × String :=
  let alt := (pin.activeAlternate.filter (· ≠ "")).bind fun active =>
    pin.alternates.find? (· = some active)
  let raw := (alt.join.or pin.name).getD ""
  (if raw = "~" then "" else raw, pin.number.getD "")

def pinTextLayouts (g : PinGeom) (name number : String) (numSize nameSize penWidth inside : ℚ) :
    PinTexts :=
  let drawName : Bool := name ≠ "" ∧ 0 < nameSize
  let drawNum : Bool := number ≠ "" ∧ 0 < numSize
  let offset := roundHalfUp (24 * c.textOffsetRatio) * MIL + 4 * MIL + penWidth
  let x1 := g.root.x
  let y1 := g.root.y
  let midX := jsTrunc ((x1 + g.pos.x) / 2)
  let midY := jsTrunc ((y1 + g.pos.y) / 2)
  let horizontal := g.orient = .left ∨ g.orient = .right
  let mkName (pos : Vec2) (angle : ℚ) (halign : HAlign) (valign : VAlign) :=
    if drawName then some ⟨name, pos, nameSize, penWidth, angle, halign, valign⟩ else none
  let mkNum (pos : Vec2) (angle : ℚ) (halign : HAlign) (valign : VAlign) :=
    if drawNum then some ⟨number, pos, numSize, penWidth, angle, halign, valign⟩ else none
  if 0 < inside then
    if horizontal then
      { name := if g.orient = .right then mkName ⟨x1 + inside, y1⟩ 0 .left .center
          else mkName ⟨x1 - inside, y1⟩ 0 .right .center
        number := mkNum ⟨midX, y1 - offset⟩ 0 .center .bottom }
    else
      { name := if g.orient = .down then mkName ⟨x1, y1 + inside⟩ 90 .right .center
          else mkName ⟨x1, y1 - inside⟩ 90 .left .center
        number := mkNum ⟨x1 - offset, midY⟩ 90 .center .bottom }
  else if horizontal then
    { name := mkName ⟨midX, y1 - offset⟩ 0 .center .bottom
      number := if drawName then mkNum ⟨midX, y1 + offset⟩ 0 .center .top
        else mkNum ⟨midX, y1 - offset⟩ 0 .center .bottom }
  else
    { name := mkName ⟨x1 - offset, midY⟩ 90 .center .bottom
      number := if drawName then mkNum ⟨x1 + offset, midY⟩ 90 .center .top
        else mkNum ⟨x1 - offset, midY⟩ 90 .center .bottom }

structure SymbolInfo where
  id : String
  pos : Vec2
  t : SymTransform
  showPinNames : Bool
  showPinNumbers : Bool
  pinNameOffset : ℚ

structure PinLayout where
  pinKiid : String
  texts : PinTexts

def pinLayout {O : Type} (pin : Fields O) (index : ℕ) (s : SymbolInfo) : Option PinLayout :=
  if pin.visible = some false ∧ ¬ c.showHiddenPins then none
  else
    let orient := pinDrawOrientation (pinOrientationFromEnum pin.orientation) s.t
    let rawPos := vec (pin.position.getD {})
    let pos := if c.symbolPinsAbsolute = some false
      then vAdd s.pos (transformCoordinate s.t rawPos) else rawPos
    let root := vAdd pos (vScale (pinDirection orient) (nm pin.length))
    let shown := pinShown pin
    some {
      pinKiid := if pin.id = "" then toString index else pin.id
      texts := pinTextLayouts c ⟨pos, root, orient⟩ (if s.showPinNames then shown.1 else "")
        (if s.showPinNumbers then shown.2 else "")
        (orNumber (nm pin.numberTextSize) c.pinTextSize)
        (orNumber (nm pin.nameTextSize) c.pinTextSize) c.lineWidth s.pinNameOffset }

/-! ### Items -/

/-- The type of an item, by the name of its message. -/
def KOT_BY_TYPENAME : List (String × ItemType) :=
  [("kiapi.schematic.types.SchematicLine", .line),
    ("kiapi.schematic.types.Junction", .junction),
    ("kiapi.schematic.types.NoConnectMarker", .noConnect),
    ("kiapi.schematic.types.BusEntry", .busWireEntry),
    ("kiapi.schematic.types.SchematicText", .text),
    ("kiapi.schematic.types.SchematicTextBox", .textbox),
    ("kiapi.schematic.types.SchematicGraphicShape", .shape),
    ("kiapi.schematic.types.SchematicImage", .bitmap),
    ("kiapi.schematic.types.LocalLabel", .label),
    ("kiapi.schematic.types.GlobalLabel", .globalLabel),
    ("kiapi.schematic.types.HierarchicalLabel", .hierLabel),
    ("kiapi.schematic.types.DirectiveLabel", .directiveLabel),
    ("kiapi.schematic.types.Group", .group),
    ("kiapi.schematic.types.SchematicRuleArea", .ruleArea),
    ("kiapi.schematic.types.SheetSymbol", .sheet),
    ("kiapi.schematic.types.SheetPin", .sheetPin),
    ("kiapi.schematic.types.SchematicSymbolInstance", .symbol),
    ("kiapi.schematic.types.SchematicPin", .pin),
    ("kiapi.schematic.types.SchematicField", .field),
    ("kiapi.schematic.types.SchematicTable", .table)]

/-- An object without a type, by the fields that it has. -/
def guessType {O : Type} (p : Fields O) : Option ItemType :=
  if p.number.isSome ∧ p.orientation.isSome then some .pin
  else if p.textbox.isSome then some .textbox
  else if p.shape.isSome ∧ p.spinStyle.isNone then some .shape
  else if p.text.isSome then some .text
  else none

def schematicItemTypeOf : Obj → Option (ItemType × Fields Obj)
  | .any none => none
  | .any (some (.any _)) => none
  | .any (some o) => schematicItemTypeOf o
  | .wrapped type proto =>
    match type with
    | some type => some (type, proto.fields)
    | none => if proto.named then schematicItemTypeOf proto else none
  | .message (some typeName) fields => (KOT_BY_TYPENAME.lookup typeName).map (·, fields)
  | .message none fields => (guessType fields).map (·, fields)

/-- The letters of a unit, from the last one, or the number of it. -/
def unitLetters (base : ℕ) : ℕ → ℤ → List Char → List Char
  | 0, _, suffix => suffix
  | fuel + 1, n, suffix =>
    let u := Int.tmod (n - 1) 26
    let suffix := Char.ofNat (base + u).toNat :: suffix
    let n := (n - u) / 26
    if 0 < n then unitLetters base fuel n suffix else suffix

def subReference (unit : ℤ) (firstId separator : String) : String :=
  if "0" ≤ firstId ∧ firstId ≤ "9" then separator ++ toString unit
  else separator ++ String.ofList
    (unitLetters ((firstId.toList.head?.map Char.toNat).getD 0) (unit.toNat + 1) unit [])

/-- A child of a symbol that is drawn. -/
structure SymbolChild where
  type : ItemType
  proto : Fields Obj
  cid : String

structure SymbolParts where
  info : SymbolInfo
  children : List SymbolChild
  pins : List (Fields Obj)
  fields : List FieldRef

def orOne (n : Option ℤ) : ℤ := (n.filter (· ≠ 0)).getD 1

def symbolParts (p : Fields Obj) (id : String) : SymbolParts :=
  let unit := orOne p.unit
  let bodyStyle := orOne p.bodyStyle
  let filtered := p.definition.items.filter fun ch =>
    ¬ ch.isPrivate ∧ (ch.unit.getD 0 = 0 ∨ ch.unit = some unit) ∧
      (ch.bodyStyle.getD 0 = 0 ∨ ch.bodyStyle = some bodyStyle)
  let children := (filtered.filterMap fun ch => schematicItemTypeOf ch.item).mapIdx fun i d =>
    ⟨d.1, d.2, if d.2.id = "" then toString i else d.2.id⟩
  let reference := p.referenceField.map fun f =>
    match f.text with
    | some t =>
      if 1 < p.definition.unitCount.getD 1 ∧ t.text.getD "" ≠ "" then
        { f with text := some { t with
            text := some (t.text.getD "" ++ subReference unit (c.subpartFirstId.getD "A")
              (c.subpartIdSeparator.getD "")) } }
      else f
    | none => f
  let ref (key : String) (f : Option SchField) : List FieldRef :=
    (f.map fun f => ⟨id ++ ":field:" ++ orText f.name key, f⟩).toList
  { info := {
      id := id
      pos := vec (p.position.getD {})
      t := (p.transform.map symbolTransform).getD IDENTITY_TRANSFORM
      showPinNames := p.showPinNames.getD true
      showPinNumbers := p.showPinNumbers.getD true
      pinNameOffset := orNumber (nm p.pinNameOffset) (c.assumePinNameOffset.getD 0) }
    children := children
    pins := (children.filter (·.type = .pin)).map (·.proto)
    fields := ref "referenceField" reference ++ ref "valueField" p.valueField ++
      ref "footprintField" p.footprintField ++ ref "datasheetField" p.datasheetField ++
      ref "descriptionField" p.descriptionField ++
      p.userFields.mapIdx fun i f =>
        ⟨id ++ ":field:" ++ orText f.name ("user" ++ toString i), f⟩ }

end FabPcb.SchematicTexts
