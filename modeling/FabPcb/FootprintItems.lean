import FabPcb.SpecctraData
import Mathlib.Algebra.Order.Floor.Div
import Mathlib.Algebra.Order.Ring.Unbundled.Rat
import Mathlib.Data.Rat.Floor
import Mathlib.Tactic.Ring

/-!
Footprints as the messages of KiCad have them, and how the client moves them.

A footprint has its place and its turn, and what is in it has places on the board of its own.
Of each message there are the fields that hold a place, a size or an angle, and those that are
read. A place is in whole nanometres. Numbers are exact, and what `Math` gives is what it is
taken to be at whole quarter turns.
-/

namespace FabPcb.FootprintItems

open SpecctraData (Vec2 BoardLayer roundHalfUp)

/-! ### Messages -/

structure Vector2 where
  xNm : ℤ
  yNm : ℤ
  deriving DecidableEq

structure Vector3D where
  xNm : ℚ
  yNm : ℚ
  zNm : ℚ
  deriving DecidableEq

structure Angle where
  valueDegrees : ℚ
  deriving DecidableEq

structure TextAttributes where
  angle : Option Angle
  size : Option Vector2
  deriving DecidableEq

structure Text where
  position : Option Vector2
  attributes : Option TextAttributes
  deriving DecidableEq

inductive NodeGeometry where
  | point (value : Vector2)
  | arc (start mid stop : Option Vector2)
  | unset
  deriving DecidableEq

structure PolyLine where
  nodes : List NodeGeometry
  closed : Bool
  deriving DecidableEq

structure PolygonWithHoles where
  outline : Option PolyLine
  holes : List PolyLine
  deriving DecidableEq

structure PolySet where
  polygons : List PolygonWithHoles
  deriving DecidableEq

structure BoardText where
  text : Option Text
  knockoutShapes : Option PolySet
  deriving DecidableEq

structure Field where
  text : Option BoardText
  deriving DecidableEq

structure TextBox where
  topLeft : Option Vector2
  bottomRight : Option Vector2
  attributes : Option TextAttributes
  deriving DecidableEq

structure BoardTextBox where
  textbox : Option TextBox
  knockoutShapes : Option PolySet
  deriving DecidableEq

inductive Geometry where
  | segment (start stop : Option Vector2)
  | rectangle (topLeft bottomRight : Option Vector2) (cornerRadius : Option ℤ)
  | arc (start mid stop : Option Vector2)
  | circle (center radiusPoint : Option Vector2)
  | polygon (value : PolySet)
  | bezier (start control1 control2 stop : Option Vector2)
  | ellipse (center : Option Vector2) (rotation : Option Angle)
  | ellipseArc (center : Option Vector2) (rotation startAngle endAngle : Option Angle)
  | unset
  deriving DecidableEq

structure GraphicShape where
  geometry : Geometry
  deriving DecidableEq

structure BoardGraphicShape where
  shape : Option GraphicShape
  deriving DecidableEq

structure DrillProperties where
  diameter : Option Vector2
  deriving DecidableEq

structure PadStackLayer where
  size : Option Vector2
  customShapes : List BoardGraphicShape
  trapezoidDelta : Option Vector2
  offset : Option Vector2
  deriving DecidableEq

structure PadStack where
  drill : Option DrillProperties
  copperLayers : List PadStackLayer
  angle : Option Angle
  secondaryDrill : Option DrillProperties
  tertiaryDrill : Option DrillProperties
  deriving DecidableEq

structure Pad where
  padStack : Option PadStack
  position : Option Vector2
  deriving DecidableEq

inductive DimensionStyle where
  | aligned (start stop : Option Vector2)
  | orthogonal (start stop : Option Vector2)
  | radial (center radiusPoint : Option Vector2)
  | leader (start stop : Option Vector2)
  | center (center stop : Option Vector2)
  | unset
  deriving DecidableEq

structure Dimension where
  text : Option Text
  dimensionStyle : DimensionStyle
  deriving DecidableEq

inductive ZoneType where
  | unknown
  | copper
  | graphical
  | ruleArea
  | teardrop
  deriving DecidableEq

structure Net where
  name : String
  code : Option ℤ
  deriving DecidableEq

inductive ZoneSettings where
  | copperSettings (net : Option Net)
  | ruleAreaSettings (keepoutCopper keepoutVias keepoutTracks : Bool)
  | unset
  deriving DecidableEq

structure ZoneFilledPolygons where
  layer : BoardLayer
  shapes : Option PolySet
  deriving DecidableEq

structure ZoneLayerProperties where
  hatchingOffset : Option Vector2
  deriving DecidableEq

structure Zone where
  id : String
  type : ZoneType
  layers : List BoardLayer
  outline : Option PolySet
  name : String
  settings : ZoneSettings
  filledPolygons : List ZoneFilledPolygons
  layerProperties : List ZoneLayerProperties
  deriving DecidableEq

structure Barcode where
  position : Option Vector2
  orientation : Option Angle
  knockoutMargin : Option Vector2
  shapes : Option PolySet
  deriving DecidableEq

structure ReferencePoint where
  position : Option Vector2
  deriving DecidableEq

structure ReferenceImage where
  position : Option Vector2
  transformOriginOffset : Option Vector2
  deriving DecidableEq

structure Footprint3DModel where
  scale : Option Vector3D
  rotation : Option Vector3D
  offset : Option Vector3D
  deriving DecidableEq

/-- What `unpackAny` makes of an embedded item; `other` is of a type that it does not know or
that is no item of a footprint. -/
inductive Child where
  | pad (item : Pad)
  | referenceImage (item : ReferenceImage)
  | referencePoint (item : ReferencePoint)
  | barcode (item : Barcode)
  | field (item : Field)
  | text (item : BoardText)
  | textBox (item : BoardTextBox)
  | shape (item : BoardGraphicShape)
  | dimension (item : Dimension)
  | zone (item : Zone)
  | model3D (item : Footprint3DModel)
  | other (typeUrl : String) (known : Bool)
  deriving DecidableEq

/-- The four fields that every footprint may have. -/
structure MandatoryFields where
  referenceField : Option Field
  valueField : Option Field
  datasheetField : Option Field
  descriptionField : Option Field
  deriving DecidableEq

structure Footprint extends MandatoryFields where
  anchor : Option Vector2
  items : List Child
  deriving DecidableEq

structure FootprintInstance extends MandatoryFields where
  position : Option Vector2
  orientation : Option Angle
  definition : Option Footprint
  deriving DecidableEq

/-! ### Numbers -/

/-- The functions of `Math` on angles, exact where quarter turns are concerned. -/
structure JsMath where
  pi : ℚ
  cos : ℚ → ℚ
  sin : ℚ → ℚ
  atan2 : ℚ → ℚ → ℚ
  hypot : ℚ → ℚ → ℚ
  pi_pos : 0 < pi
  cos_zero : cos 0 = 1
  sin_zero : sin 0 = 0
  cos_quarter : ∀ a, cos (a + pi / 2) = -sin a
  sin_quarter : ∀ a, sin (a + pi / 2) = cos a
  atan2_quarter : ∀ x y, (x, y) ≠ (0, 0) →
    ∃ k : ℤ, atan2 (-x) y = atan2 y x - pi / 2 + k * (2 * pi)
  hypot_quarter : ∀ x y, hypot y (-x) = hypot x y

def vec2 (v : Option Vector2) : Vec2 := v.elim ⟨0, 0⟩ fun v => ⟨v.xNm, v.yNm⟩

def toVector2 (v : Vec2) : Vector2 := ⟨⌊v.x + 1 / 2⌋, ⌊v.y + 1 / 2⌋⟩

def deg (a : Option Angle) : ℚ := a.elim 0 (·.valueDegrees)

def toAngle (degrees : ℚ) : Angle := ⟨degrees⟩

/-- `a % b`, with the sign of `a`. -/
def remainder (a b : ℚ) : ℚ :=
  if 0 ≤ a / b then a - b * ⌊a / b⌋ else a - b * ⌈a / b⌉

/-! ### Places and angles in a message -/

section Maps

variable (point : Option Vector2 → Vector2) (angle : Option Angle → Option Angle)

def mapNode : NodeGeometry → NodeGeometry
  | .point value => .point (point (some value))
  | .arc start mid stop => .arc (some (point start)) (some (point mid)) (some (point stop))
  | .unset => .unset

def mapPolyLine (line : PolyLine) : PolyLine :=
  { line with nodes := line.nodes.map (mapNode point) }

def mapPolySet (polySet : PolySet) : PolySet where
  polygons := polySet.polygons.map fun polygon =>
    ⟨polygon.outline.map (mapPolyLine point), polygon.holes.map (mapPolyLine point)⟩

/-- Each place of a shape, and the turn of an ellipse. -/
def mapGeometry : Geometry → Geometry
  | .segment start stop => .segment (some (point start)) (some (point stop))
  | .rectangle topLeft bottomRight cornerRadius =>
    .rectangle (some (point topLeft)) (some (point bottomRight)) cornerRadius
  | .arc start mid stop => .arc (some (point start)) (some (point mid)) (some (point stop))
  | .circle center radiusPoint => .circle (some (point center)) (some (point radiusPoint))
  | .polygon value => .polygon (mapPolySet point value)
  | .bezier start control1 control2 stop =>
    .bezier (some (point start)) (some (point control1)) (some (point control2))
      (some (point stop))
  | .ellipse center rotation => .ellipse (some (point center)) (angle rotation)
  | .ellipseArc center rotation startAngle endAngle =>
    .ellipseArc (some (point center)) (angle rotation) startAngle endAngle
  | .unset => .unset

/-- The places of a dimension that are there. -/
def mapDimensionStyle : DimensionStyle → DimensionStyle
  | .aligned start stop => .aligned (move start) (move stop)
  | .orthogonal start stop => .orthogonal (move start) (move stop)
  | .radial center radiusPoint => .radial (move center) (move radiusPoint)
  | .leader start stop => .leader (move start) (move stop)
  | .center center stop => .center (move center) (move stop)
  | .unset => .unset
where
  move (value : Option Vector2) : Option Vector2 := value.map fun v => point (some v)

def mapZone (zone : Zone) : Zone :=
  { zone with
    outline := zone.outline.map (mapPolySet point)
    filledPolygons := zone.filledPolygons.map fun filled =>
      { filled with shapes := filled.shapes.map (mapPolySet point) } }

def mapMandatory (move : Field → Field) (container : MandatoryFields) : MandatoryFields :=
  ⟨container.referenceField.map move, container.valueField.map move,
    container.datasheetField.map move, container.descriptionField.map move⟩

end Maps

/-! ### Translation -/

section Translate

variable (delta : Vec2)

def shifted (value : Option Vector2) : Vector2 :=
  toVector2 ⟨(vec2 value).x + delta.x, (vec2 value).y + delta.y⟩

def translateText (text : Text) : Text :=
  { text with position := some (shifted delta text.position) }

def translateField (field : Field) : Field where
  text := field.text.map fun t => { t with text := t.text.map (translateText delta) }

def translateShape (shape : GraphicShape) : GraphicShape :=
  ⟨mapGeometry (shifted delta) id shape.geometry⟩

def translatePolySet (polySet : PolySet) : PolySet := mapPolySet (shifted delta) polySet

/-- Translates the item kinds with coordinates that a footprint definition may embed. -/
def translateFootprintChild : Child → Option Child
  | .pad item => some (.pad { item with position := some (shifted delta item.position) })
  | .referenceImage item =>
    some (.referenceImage { item with position := some (shifted delta item.position) })
  | .referencePoint item => some (.referencePoint ⟨some (shifted delta item.position)⟩)
  | .barcode item => some (.barcode { item with position := some (shifted delta item.position) })
  | .field item => some (.field (translateField delta item))
  | .text item => some (.text { item with text := item.text.map (translateText delta) })
  | .textBox item =>
    some (.textBox { item with
      textbox := item.textbox.map fun box =>
        { box with
          topLeft := some (shifted delta box.topLeft)
          bottomRight := some (shifted delta box.bottomRight) } })
  | .shape item => some (.shape ⟨item.shape.map (translateShape delta)⟩)
  | .dimension item =>
    some (.dimension ⟨item.text.map (translateText delta),
      mapDimensionStyle (shifted delta) item.dimensionStyle⟩)
  | .zone item => some (.zone (mapZone (shifted delta) item))
  | .model3D _ => none
  | .other .. => none

def translateDefinition (definition : Footprint) : Footprint :=
  { definition with
    toMandatoryFields := mapMandatory (translateField delta) definition.toMandatoryFields
    items := definition.items.map fun item =>
      (translateFootprintChild delta item).getD item }

def translate (proto : FootprintInstance) : FootprintInstance :=
  if delta.x = 0 ∧ delta.y = 0 then proto
  else
    { proto with
      position := some (shifted delta proto.position)
      toMandatoryFields := mapMandatory (translateField delta) proto.toMandatoryFields
      definition := proto.definition.map (translateDefinition delta) }

end Translate

/-! ### Rotation -/

section Rotate

variable (point : Option Vector2 → Vector2) (angle : Option Angle → Angle) (degrees : ℚ)

def rotateText (text : Text) : Text where
  position := some (point text.position)
  attributes := text.attributes.map fun a => { a with angle := some (angle a.angle) }

def rotateField (field : Field) : Field where
  text := field.text.map fun t => { t with text := t.text.map (rotateText point angle) }

def rotatePolySet (polySet : PolySet) : PolySet := mapPolySet point polySet

/-- A rectangle that is no more along the axes becomes a polygon. -/
def rotateShape (shape : GraphicShape) : Except String GraphicShape :=
  match shape.geometry with
  | .rectangle topLeft bottomRight cornerRadius =>
    if remainder degrees 90 = 0 then
      .ok ⟨.rectangle (some (point topLeft)) (some (point bottomRight)) cornerRadius⟩
    else if cornerRadius.getD 0 ≠ 0 then
      .error "cannot rotate a rounded footprint rectangle by a non-right angle"
    else
      let a := vec2 topLeft
      let b := vec2 bottomRight
      .ok ⟨.polygon ⟨[⟨some ⟨[a, ⟨b.x, a.y⟩, b, ⟨a.x, b.y⟩].map fun p =>
        .point (point (some (toVector2 p))), true⟩, []⟩]⟩⟩
  | geometry => .ok ⟨mapGeometry point (fun a => some (angle a)) geometry⟩

def rotateFootprintChild : Child → Except String Child
  | .model3D item => .ok (.model3D item)
  | .pad item =>
    .ok (.pad ⟨item.padStack.map fun stack => { stack with angle := some (angle stack.angle) },
      some (point item.position)⟩)
  | .referencePoint item => .ok (.referencePoint ⟨some (point item.position)⟩)
  | .barcode item =>
    .ok (.barcode { item with
      position := some (point item.position)
      orientation := some (angle item.orientation) })
  | .field item => .ok (.field (rotateField point angle item))
  | .text item => .ok (.text { item with text := item.text.map (rotateText point angle) })
  | .textBox item =>
    .ok (.textBox { item with
      textbox := item.textbox.map fun box =>
        ⟨some (point box.topLeft), some (point box.bottomRight),
          box.attributes.map fun a => { a with angle := some (angle a.angle) }⟩ })
  | .shape item =>
    match item.shape with
    | none => .ok (.shape ⟨none⟩)
    | some shape => (rotateShape point angle degrees shape).map fun s => .shape ⟨some s⟩
  | .dimension item =>
    .ok (.dimension ⟨item.text.map (rotateText point angle),
      mapDimensionStyle point item.dimensionStyle⟩)
  | .zone item => .ok (.zone (mapZone point item))
  | .referenceImage _ =>
    .error "cannot rotate footprint child kiapi.board.types.ReferenceImage"
  | .other typeUrl known =>
    if known then .error ("cannot rotate footprint child " ++ typeUrl)
    else .error ("cannot rotate unknown footprint child " ++ typeUrl)

def rotateDefinition (definition : Footprint) : Except String Footprint :=
  (definition.items.mapM (rotateFootprintChild point angle degrees)).map fun items =>
    { definition with
      toMandatoryFields := mapMandatory (rotateField point angle) definition.toMandatoryFields
      items := items }

end Rotate

/-- A place turned about another; angles are counterclockwise, and y goes down. -/
def turnedAbout (J : JsMath) (origin : Vec2) (degrees : ℚ) (value : Option Vector2) : Vector2 :=
  let radians := degrees * J.pi / 180
  let x := (vec2 value).x - origin.x
  let y := (vec2 value).y - origin.y
  toVector2 ⟨roundHalfUp (origin.x + x * J.cos radians + y * J.sin radians),
    roundHalfUp (origin.y - x * J.sin radians + y * J.cos radians)⟩

/-- What throws leaves the footprint as it was. -/
def rotate (J : JsMath) (turn : ℚ) (proto : FootprintInstance) :
    Except String FootprintInstance :=
  let degrees := remainder turn 360
  if degrees = 0 then .ok proto
  else
    let point := turnedAbout J (vec2 proto.position) degrees
    let angle := fun value => toAngle (deg value + degrees)
    let next := { proto with
      toMandatoryFields := mapMandatory (rotateField point angle) proto.toMandatoryFields
      orientation := some (angle proto.orientation) }
    match proto.definition with
    | none => .ok next
    | some definition =>
      (rotateDefinition point angle degrees definition).map fun d =>
        { next with definition := some d }

/-! ### Quarter turns -/

/-- A turn by an angle, counterclockwise where y goes down. -/
def rot (J : JsMath) (degrees : ℚ) (v : Vec2) : Vec2 :=
  ⟨v.x * J.cos (degrees * J.pi / 180) + v.y * J.sin (degrees * J.pi / 180),
    -v.x * J.sin (degrees * J.pi / 180) + v.y * J.cos (degrees * J.pi / 180)⟩

/-- A quarter turn. -/
def turn (v : Vec2) : Vec2 := ⟨v.y, -v.x⟩

/-- So many quarter turns. -/
def turns (k : ℤ) (v : Vec2) : Vec2 := turn^[(k % 4).toNat] v

/-- So many quarter turns about a place. -/
def about (o : Vec2) (k : ℤ) (p : Vec2) : Vec2 :=
  ⟨o.x + (turns k ⟨p.x - o.x, p.y - o.y⟩).x, o.y + (turns k ⟨p.x - o.x, p.y - o.y⟩).y⟩

/-- A place in whole numbers. -/
def Whole (v : Vec2) : Prop := ∃ a b : ℤ, v = ⟨a, b⟩

variable {J : JsMath} {v o : Vec2} {a : ℚ} {k : ℤ} {n : ℕ}

lemma turn_four (v : Vec2) : turn (turn (turn (turn v))) = v := by
  simp [turn]

lemma turn_iterate_add_four : turn^[n + 4] v = turn^[n] v := by
  exact congrArg _ (turn_four v)

lemma turn_iterate_mod : turn^[n % 4] v = turn^[n] v := by
  conv_rhs => rw [← Nat.mod_add_div n 4]
  generalize n / 4 = q
  induction q with
  | zero => rw [Nat.add_zero]
  | succ q ih => rw [Nat.mul_succ, ← Nat.add_assoc, turn_iterate_add_four, ih]

lemma turns_natCast : turns n v = turn^[n] v := by
  rw [← turn_iterate_mod (n := n)]
  rfl

lemma turns_emod (k : ℤ) (v : Vec2) : turns (k % 4) v = turns k v := by
  rw [turns, turns, Int.emod_emod_of_dvd k (dvd_refl 4)]

lemma turns_zero : turns 0 v = v := rfl

lemma turns_add (j k : ℤ) (v : Vec2) : turns (j + k) v = turns j (turns k v) := by
  have hsum : ((j + k) % 4).toNat = ((j % 4).toNat + (k % 4).toNat) % 4 := by omega
  rw [turns, hsum, turn_iterate_mod, Function.iterate_add_apply]
  rfl

lemma rot_quarter : rot J (a + 90) v = turn (rot J a v) := by
  have hangle : (a + 90) * J.pi / 180 = a * J.pi / 180 + J.pi / 2 := by ring
  rw [rot, hangle, J.cos_quarter, J.sin_quarter, turn, rot, Vec2.mk.injEq]
  exact ⟨by ring, by ring⟩

lemma rot_nat : rot J (a + 90 * n) v = turn^[n] (rot J a v) := by
  induction n with
  | zero => simp
  | succ n ih =>
    have hangle : a + 90 * ((n + 1 : ℕ) : ℚ) = a + 90 * n + 90 := by
      push_cast
      ring
    rw [hangle, rot_quarter, ih, Function.iterate_succ_apply']

/-- **A turn by a further angle of whole quarters** is that many quarter turns more. -/
lemma rot_add (k : ℤ) : rot J (a + 90 * k) v = turns k (rot J a v) := by
  obtain ⟨m, n, hk⟩ : ∃ m n : ℕ, k + 4 * m = n := ⟨k.natAbs, (k + 4 * k.natAbs).toNat, by omega⟩
  have hangle : a + 90 * (n : ℚ) = a + 90 * k + 90 * ((4 * m : ℕ) : ℚ) := by
    rw [← Int.cast_natCast n, ← hk]
    push_cast
    ring
  have hround : turn^[4 * m] (rot J (a + 90 * k) v) = rot J (a + 90 * k) v := by
    rw [← turn_iterate_mod, Nat.mul_mod_right]
    rfl
  rw [← hround, ← rot_nat, ← hangle, rot_nat, ← turns_natCast, ← hk, ← turns_emod,
    Int.add_mul_emod_self_left, turns_emod]

lemma rot_zero : rot J 0 v = v := by
  simp [rot, J.cos_zero, J.sin_zero]

lemma rot_quarters (k : ℤ) : rot J (90 * k) v = turns k v := by
  have h := rot_add (J := J) (a := 0) (v := v) k
  rwa [zero_add, rot_zero] at h

lemma Whole.turn (h : Whole v) : Whole (turn v) := by
  obtain ⟨a, b, rfl⟩ := h
  exact ⟨b, -a, by rw [FootprintItems.turn, Int.cast_neg]⟩

lemma Whole.turns (h : Whole v) : Whole (turns k v) := by
  rw [FootprintItems.turns]
  generalize (k % 4).toNat = n
  induction n with
  | zero => exact h
  | succ n ih =>
    rw [Function.iterate_succ_apply']
    exact ih.turn

lemma whole_vec2 (v : Option Vector2) : Whole (vec2 v) := by
  cases v with
  | none => exact ⟨0, 0, by simp [vec2]⟩
  | some v => exact ⟨v.xNm, v.yNm, rfl⟩

lemma Whole.about (hv : Whole v) (ho : Whole o) : Whole (about o k v) := by
  obtain ⟨a, b, rfl⟩ := ho
  obtain ⟨c, d, rfl⟩ := hv
  obtain ⟨x, y, hxy⟩ := (show Whole ⟨(c : ℚ) - a, (d : ℚ) - b⟩ from
    ⟨c - a, d - b, by push_cast; rfl⟩).turns (k := k)
  exact ⟨a + x, b + y, by rw [FootprintItems.about, hxy]; push_cast; rfl⟩

lemma floor_half (z : ℤ) : ⌊(z : ℚ) + 1 / 2⌋ = z := by
  norm_num

lemma roundHalfUp_intCast (z : ℤ) : roundHalfUp z = z := by
  rw [roundHalfUp, floor_half]

lemma vec2_toVector2 (h : Whole v) : vec2 (some (toVector2 v)) = v := by
  obtain ⟨a, b, rfl⟩ := h
  simp only [vec2, toVector2, Option.elim_some, floor_half]

lemma vec2_shifted (dx dy : ℤ) (v : Option Vector2) :
    vec2 (some (shifted ⟨dx, dy⟩ v)) = ⟨(vec2 v).x + dx, (vec2 v).y + dy⟩ := by
  obtain ⟨a, b, hv⟩ := whole_vec2 v
  rw [shifted, hv]
  exact vec2_toVector2 ⟨a + dx, b + dy, by push_cast; rfl⟩

lemma vec2_turnedAbout (ho : Whole o) (k : ℤ) (v : Option Vector2) :
    vec2 (some (turnedAbout J o (90 * k) v)) = about o k (vec2 v) := by
  have hwhole := (whole_vec2 v).about ho (k := k)
  have hrot := rot_quarters (J := J) (v := ⟨(vec2 v).x - o.x, (vec2 v).y - o.y⟩) k
  have habout : about o k (vec2 v) =
      ⟨o.x + ((vec2 v).x - o.x) * J.cos (90 * k * J.pi / 180) +
          ((vec2 v).y - o.y) * J.sin (90 * k * J.pi / 180),
        o.y - ((vec2 v).x - o.x) * J.sin (90 * k * J.pi / 180) +
          ((vec2 v).y - o.y) * J.cos (90 * k * J.pi / 180)⟩ := by
    rw [about, ← hrot, rot, Vec2.mk.injEq]
    exact ⟨by ring, by ring⟩
  obtain ⟨x, y, hxy⟩ := hwhole
  rw [hxy] at habout ⊢
  rw [Vec2.mk.injEq] at habout
  rw [turnedAbout]
  simp only [← habout.1, ← habout.2, roundHalfUp_intCast]
  exact vec2_toVector2 ⟨x, y, rfl⟩

lemma remainder_quarters (k : ℤ) : ∃ j : ℤ, remainder (90 * k) 360 = 90 * j ∧
    j % 4 = k % 4 ∧ (j = 0 ↔ k % 4 = 0) := by
  have hquot : (90 * k : ℚ) / 360 = k / 4 := by ring
  obtain ⟨m, hm, hzero⟩ : ∃ m : ℤ, remainder (90 * k) 360 = 90 * k - 360 * m ∧
      (k % 4 = 0 → k = 4 * m) := by
    have hexact : ∀ q : ℤ, k = 4 * q → (k : ℚ) / 4 = q := by
      rintro q rfl
      push_cast
      ring
    rw [remainder, hquot]
    by_cases hpos : (0 : ℚ) ≤ k / 4
    · refine ⟨⌊(k : ℚ) / 4⌋, if_pos hpos, fun h => ?_⟩
      rw [hexact (k / 4) (by omega), Int.floor_intCast]
      omega
    · refine ⟨⌈(k : ℚ) / 4⌉, if_neg hpos, fun h => ?_⟩
      rw [hexact (k / 4) (by omega), Int.ceil_intCast]
      omega
  refine ⟨k - 4 * m, ?_, by omega, by omega⟩
  rw [hm]
  push_cast
  ring

end FabPcb.FootprintItems
