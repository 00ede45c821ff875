import FabPcb.WebGeometry
import FabPcb.FootprintZones

/-!
A footprint moved by the client, and by the web app.

The client lists the fields of each message; the web app walks whatever there is. The messages
are written out as plain objects, both moves are taken over them, and it is said when they
come to the same, angles being read up to whole turns.
-/

namespace FabPcb.FootprintMovers

open FootprintItems WebGeometry
open SpecctraData (Vec2 roundHalfUp)

/-! ### Messages as plain objects -/

section Objects

def optionJs {α : Type} (f : α → Js) (o : Option α) : Js := o.elim .undefined f

def listJs {α : Type} (f : α → Js) (l : List α) : Js := .arr (l.map f)

def vector2Js (v : Vector2) : Js := .obj [("xNm", .big v.xNm), ("yNm", .big v.yNm)]

def vector3DJs (v : Vector3D) : Js :=
  .obj [("xNm", .num v.xNm), ("yNm", .num v.yNm), ("zNm", .num v.zNm)]

def placeJs : Option Vector2 → Js := optionJs vector2Js

def angleJs (a : Angle) : Js := .obj [("valueDegrees", .num a.valueDegrees)]

def textAttributesJs (a : TextAttributes) : Js :=
  .obj [("angle", optionJs angleJs a.angle), ("size", placeJs a.size)]

def textJs (t : Text) : Js :=
  .obj [("position", placeJs t.position), ("attributes", optionJs textAttributesJs t.attributes)]

/-- The case of a oneof. -/
def caseJs (name : String) (value : Js) : Js := .obj [("case", .str name), ("value", value)]

def unsetJs : Js := .obj [("case", .undefined)]

def arcJs (start mid stop : Option Vector2) : Js :=
  .obj [("start", placeJs start), ("mid", placeJs mid), ("end", placeJs stop)]

def nodeGeometryJs : NodeGeometry → Js
  | .point value => caseJs "point" (vector2Js value)
  | .arc start mid stop => caseJs "arc" (arcJs start mid stop)
  | .unset => unsetJs

def nodeJs (n : NodeGeometry) : Js := .obj [("geometry", nodeGeometryJs n)]

def polyLineJs (line : PolyLine) : Js :=
  .obj [("nodes", listJs nodeJs line.nodes), ("closed", .bool line.closed)]

def polygonJs (p : PolygonWithHoles) : Js :=
  .obj [("outline", optionJs polyLineJs p.outline), ("holes", listJs polyLineJs p.holes)]

def polySetJs (s : PolySet) : Js := .obj [("polygons", listJs polygonJs s.polygons)]

def boardTextJs (t : BoardText) : Js :=
  .obj [("text", optionJs textJs t.text), ("knockoutShapes", optionJs polySetJs t.knockoutShapes)]

def fieldJs (f : Field) : Js := .obj [("text", optionJs boardTextJs f.text)]

def textBoxJs (b : TextBox) : Js :=
  .obj [("topLeft", placeJs b.topLeft), ("bottomRight", placeJs b.bottomRight),
    ("attributes", optionJs textAttributesJs b.attributes)]

def boardTextBoxJs (b : BoardTextBox) : Js :=
  .obj [("textbox", optionJs textBoxJs b.textbox),
    ("knockoutShapes", optionJs polySetJs b.knockoutShapes)]

def distanceJs (valueNm : ℤ) : Js := .obj [("valueNm", .big valueNm)]

def geometryJs : Geometry → Js
  | .segment start stop => caseJs "segment" (.obj [("start", placeJs start), ("end", placeJs stop)])
  | .rectangle topLeft bottomRight cornerRadius =>
    caseJs "rectangle" (.obj [("topLeft", placeJs topLeft), ("bottomRight", placeJs bottomRight),
      ("cornerRadius", optionJs distanceJs cornerRadius)])
  | .arc start mid stop => caseJs "arc" (arcJs start mid stop)
  | .circle center radiusPoint =>
    caseJs "circle" (.obj [("center", placeJs center), ("radiusPoint", placeJs radiusPoint)])
  | .polygon value => caseJs "polygon" (polySetJs value)
  | .bezier start control1 control2 stop =>
    caseJs "bezier" (.obj [("start", placeJs start), ("control1", placeJs control1),
      ("control2", placeJs control2), ("end", placeJs stop)])
  | .ellipse center rotation =>
    caseJs "ellipse" (.obj [("center", placeJs center), ("rotation", optionJs angleJs rotation)])
  | .ellipseArc center rotation startAngle endAngle =>
    caseJs "ellipseArc" (.obj [("center", placeJs center),
      ("rotation", optionJs angleJs rotation), ("startAngle", optionJs angleJs startAngle),
      ("endAngle", optionJs angleJs endAngle)])
  | .unset => unsetJs

def graphicShapeJs (s : GraphicShape) : Js := .obj [("geometry", geometryJs s.geometry)]

def boardGraphicShapeJs (s : BoardGraphicShape) : Js :=
  .obj [("shape", optionJs graphicShapeJs s.shape)]

def drillJs (d : DrillProperties) : Js := .obj [("diameter", placeJs d.diameter)]

def padStackLayerJs (l : PadStackLayer) : Js :=
  .obj [("size", placeJs l.size), ("customShapes", listJs boardGraphicShapeJs l.customShapes),
    ("trapezoidDelta", placeJs l.trapezoidDelta), ("offset", placeJs l.offset)]

def padStackJs (s : PadStack) : Js :=
  .obj [("drill", optionJs drillJs s.drill),
    ("copperLayers", listJs padStackLayerJs s.copperLayers), ("angle", optionJs angleJs s.angle),
    ("secondaryDrill", optionJs drillJs s.secondaryDrill),
    ("tertiaryDrill", optionJs drillJs s.tertiaryDrill)]

def padJs (p : Pad) : Js :=
  .obj [("padStack", optionJs padStackJs p.padStack), ("position", placeJs p.position)]

def dimensionStyleJs : DimensionStyle → Js
  | .aligned start stop => caseJs "aligned" (.obj [("start", placeJs start), ("end", placeJs stop)])
  | .orthogonal start stop =>
    caseJs "orthogonal" (.obj [("start", placeJs start), ("end", placeJs stop)])
  | .radial center radiusPoint =>
    caseJs "radial" (.obj [("center", placeJs center), ("radiusPoint", placeJs radiusPoint)])
  | .leader start stop => caseJs "leader" (.obj [("start", placeJs start), ("end", placeJs stop)])
  | .center center stop =>
    caseJs "center" (.obj [("center", placeJs center), ("end", placeJs stop)])
  | .unset => unsetJs

def dimensionJs (d : Dimension) : Js :=
  .obj [("text", optionJs textJs d.text), ("dimensionStyle", dimensionStyleJs d.dimensionStyle)]

def zoneTypeJs : ZoneType → Js
  | .unknown => .num 0
  | .copper => .num 1
  | .graphical => .num 2
  | .ruleArea => .num 3
  | .teardrop => .num 4

def kiidJs (id : String) : Js := .obj [("value", .str id)]

def netJs (n : Net) : Js :=
  .obj [("name", .str n.name), ("code", optionJs (fun c => .obj [("value", .num c)]) n.code)]

def zoneSettingsJs : ZoneSettings → Js
  | .copperSettings net => caseJs "copperSettings" (.obj [("net", optionJs netJs net)])
  | .ruleAreaSettings keepoutCopper keepoutVias keepoutTracks =>
    caseJs "ruleAreaSettings" (.obj [("keepoutCopper", .bool keepoutCopper),
      ("keepoutVias", .bool keepoutVias), ("keepoutTracks", .bool keepoutTracks)])
  | .unset => unsetJs

def layerJs (layer : ℕ) : Js := .num layer

def filledJs (f : ZoneFilledPolygons) : Js :=
  .obj [("layer", layerJs f.layer), ("shapes", optionJs polySetJs f.shapes)]

def layerPropertiesJs (p : ZoneLayerProperties) : Js :=
  .obj [("hatchingOffset", placeJs p.hatchingOffset)]

def zoneJs (z : Zone) : Js :=
  .obj [("id", kiidJs z.id), ("type", zoneTypeJs z.type), ("layers", listJs layerJs z.layers),
    ("outline", optionJs polySetJs z.outline), ("name", .str z.name),
    ("settings", zoneSettingsJs z.settings), ("filledPolygons", listJs filledJs z.filledPolygons),
    ("layerProperties", listJs layerPropertiesJs z.layerProperties)]

def barcodeJs (b : Barcode) : Js :=
  .obj [("position", placeJs b.position), ("orientation", optionJs angleJs b.orientation),
    ("knockoutMargin", placeJs b.knockoutMargin), ("shapes", optionJs polySetJs b.shapes)]

def referencePointJs (p : ReferencePoint) : Js := .obj [("position", placeJs p.position)]

def referenceImageJs (i : ReferenceImage) : Js :=
  .obj [("position", placeJs i.position),
    ("transformOriginOffset", placeJs i.transformOriginOffset)]

def model3DJs (m : Footprint3DModel) : Js :=
  .obj [("scale", optionJs vector3DJs m.scale), ("rotation", optionJs vector3DJs m.rotation),
    ("offset", optionJs vector3DJs m.offset)]

def childMessageJs : Child → Js
  | .pad item => padJs item
  | .referenceImage item => referenceImageJs item
  | .referencePoint item => referencePointJs item
  | .barcode item => barcodeJs item
  | .field item => fieldJs item
  | .text item => boardTextJs item
  | .textBox item => boardTextBoxJs item
  | .shape item => boardGraphicShapeJs item
  | .dimension item => dimensionJs item
  | .zone item => zoneJs item
  | .model3D item => model3DJs item
  | .other _ known => if known then .obj [] else .undefined

def typeUrl : Child → String
  | .pad _ => "kiapi.board.types.Pad"
  | .referenceImage _ => "kiapi.board.types.ReferenceImage"
  | .referencePoint _ => "kiapi.board.types.ReferencePoint"
  | .barcode _ => "kiapi.board.types.Barcode"
  | .field _ => "kiapi.board.types.Field"
  | .text _ => "kiapi.board.types.BoardText"
  | .textBox _ => "kiapi.board.types.BoardTextBox"
  | .shape _ => "kiapi.board.types.BoardGraphicShape"
  | .dimension _ => "kiapi.board.types.Dimension"
  | .zone _ => "kiapi.board.types.Zone"
  | .model3D _ => "kiapi.board.types.Footprint3DModel"
  | .other typeUrl _ => typeUrl

/-- A packed item. -/
def childJs (c : Child) : Js := .any (typeUrl c) (childMessageJs c)

def footprintJs (f : Footprint) : Js :=
  .obj [("anchor", placeJs f.anchor), ("referenceField", optionJs fieldJs f.referenceField),
    ("valueField", optionJs fieldJs f.valueField),
    ("datasheetField", optionJs fieldJs f.datasheetField),
    ("descriptionField", optionJs fieldJs f.descriptionField), ("items", listJs childJs f.items)]

def footprintInstanceJs (f : FootprintInstance) : Js :=
  .obj [("position", placeJs f.position), ("orientation", optionJs angleJs f.orientation),
    ("definition", optionJs footprintJs f.definition),
    ("referenceField", optionJs fieldJs f.referenceField),
    ("valueField", optionJs fieldJs f.valueField),
    ("datasheetField", optionJs fieldJs f.datasheetField),
    ("descriptionField", optionJs fieldJs f.descriptionField)]

end Objects

/-! ### Values read alike -/

section Read

variable (reading : ℚ → ℚ)

mutual

/-- A value with its angles as they are read. -/
def readAs : Js → Js
  | .any typeUrl message => .any typeUrl (readAs message)
  | .arr items => .arr (readItems items)
  | .obj fields => .obj (readFields fields)
  | t => t

def readItems : List Js → List Js
  | [] => []
  | t :: items => readAs t :: readItems items

def readFields : List (String × Js) → List (String × Js)
  | [] => []
  | e :: fields => readField e :: readFields fields

def readField : String × Js → String × Js
  | (k, t) => (k, if k = "valueDegrees" then bumpNum reading t else readAs t)

end

@[simp]
lemma readAs_arr (items : List Js) :
    readAs reading (.arr items) = .arr (items.map (readAs reading)) := by
  rw [readAs]
  congr 1
  induction items with
  | nil => rfl
  | cons t items ih => rw [readItems, ih, List.map_cons]

@[simp]
lemma readAs_obj (fields : List (String × Js)) : readAs reading (.obj fields) = .obj (fields.map
    fun e => (e.1, if e.1 = "valueDegrees" then bumpNum reading e.2 else readAs reading e.2)) := by
  rw [readAs]
  congr 1
  induction fields with
  | nil => rfl
  | cons e fields ih => rw [readFields, ih, List.map_cons, readField]

@[simp]
lemma readAs_any (typeUrl : String) (t : Js) :
    readAs reading (.any typeUrl t) = .any typeUrl (readAs reading t) := by
  rw [readAs]

@[simp]
lemma readAs_undef : readAs reading .undefined = .undefined := rfl

@[simp]
lemma readAs_bool (b : Bool) : readAs reading (.bool b) = .bool b := rfl

@[simp]
lemma readAs_num (v : ℚ) : readAs reading (.num v) = .num v := rfl

@[simp]
lemma readAs_big (v : ℤ) : readAs reading (.big v) = .big v := rfl

@[simp]
lemma readAs_str (s : String) : readAs reading (.str s) = .str s := rfl

end Read

lemma bumpNum_id : bumpNum id = id := funext fun t => by cases t <;> rfl

mutual

lemma readAs_id : ∀ t, readAs id t = t
  | .any typeUrl message => by rw [readAs, readAs_id message]
  | .arr items => by rw [readAs, readItems_id items]
  | .obj fields => by rw [readAs, readFields_id fields]
  | .undefined => rfl
  | .bool _ => rfl
  | .num _ => rfl
  | .big _ => rfl
  | .str _ => rfl
  | .bytes _ => rfl

lemma readItems_id : ∀ items, readItems id items = items
  | [] => rfl
  | t :: items => by rw [readItems, readAs_id t, readItems_id items]

lemma readFields_id : ∀ fields, readFields id fields = fields
  | [] => rfl
  | e :: fields => by rw [readFields, readField_id e, readFields_id fields]

lemma readField_id : ∀ e, readField id e = e
  | (k, t) => by rw [readField, readAs_id t, bumpNum_id, id, ite_self]

end

/-! ### A move, by either -/

/-- What the web app makes of a place and of an angle, and what the client makes of those. -/
structure Mover where
  move : Vec2 → Vec2
  turned : ℚ → ℚ
  place : Option Vector2 → Option Vector2
  angle : Option Angle → Option Angle
  reading : ℚ → ℚ
  place_some : ∀ v, place (some v) = some (toVector2 (move (vec2 (some v))))
  angle_some : ∀ a, ∃ b, angle (some a) = some b ∧
    reading b.valueDegrees = reading (turned a.valueDegrees)

section Client

variable (place : Option Vector2 → Option Vector2) (angle : Option Angle → Option Angle)

def clientText (t : Text) : Text :=
  ⟨place t.position, t.attributes.map fun a => { a with angle := angle a.angle }⟩

def clientNode : NodeGeometry → NodeGeometry
  | .point value => .point ((place (some value)).getD value)
  | .arc start mid stop => .arc (place start) (place mid) (place stop)
  | .unset => .unset

def clientPolyLine (line : PolyLine) : PolyLine :=
  { line with nodes := line.nodes.map (clientNode place) }

def clientPolygon (p : PolygonWithHoles) : PolygonWithHoles :=
  ⟨p.outline.map (clientPolyLine place), p.holes.map (clientPolyLine place)⟩

def clientPolySet (s : PolySet) : PolySet := ⟨s.polygons.map (clientPolygon place)⟩

def clientField (f : Field) : Field where
  text := f.text.map fun t => { t with text := t.text.map (clientText place angle) }

def clientGeometry : Geometry → Geometry
  | .segment start stop => .segment (place start) (place stop)
  | .rectangle topLeft bottomRight cornerRadius =>
    .rectangle (place topLeft) (place bottomRight) cornerRadius
  | .arc start mid stop => .arc (place start) (place mid) (place stop)
  | .circle center radiusPoint => .circle (place center) (place radiusPoint)
  | .polygon value => .polygon (clientPolySet place value)
  | .bezier start control1 control2 stop =>
    .bezier (place start) (place control1) (place control2) (place stop)
  | .ellipse center rotation => .ellipse (place center) (angle rotation)
  | .ellipseArc center rotation startAngle endAngle =>
    .ellipseArc (place center) (angle rotation) startAngle endAngle
  | .unset => .unset

/-- The places of a dimension that are there. -/
def clientDimensionStyle : DimensionStyle → DimensionStyle
  | .aligned start stop => .aligned (move start) (move stop)
  | .orthogonal start stop => .orthogonal (move start) (move stop)
  | .radial center radiusPoint => .radial (move center) (move radiusPoint)
  | .leader start stop => .leader (move start) (move stop)
  | .center center stop => .center (move center) (move stop)
  | .unset => .unset
where
  move (value : Option Vector2) : Option Vector2 := value.bind fun v => place (some v)

/-- The items that may be turned. -/
def clientChild : Child → Child
  | .pad item =>
    .pad ⟨item.padStack.map fun s => { s with angle := angle s.angle }, place item.position⟩
  | .referencePoint item => .referencePoint ⟨place item.position⟩
  | .barcode item =>
    .barcode { item with
      position := place item.position
      orientation := angle item.orientation }
  | .field item => .field (clientField place angle item)
  | .text item => .text { item with text := item.text.map (clientText place angle) }
  | .textBox item =>
    .textBox { item with
      textbox := item.textbox.map fun box =>
        ⟨place box.topLeft, place box.bottomRight,
          box.attributes.map fun a => { a with angle := angle a.angle }⟩ }
  | .shape item => .shape ⟨item.shape.map fun s => ⟨clientGeometry place angle s.geometry⟩⟩
  | .dimension item =>
    .dimension ⟨item.text.map (clientText place angle),
      clientDimensionStyle place item.dimensionStyle⟩
  | .zone item =>
    .zone { item with
      outline := item.outline.map (clientPolySet place)
      filledPolygons := item.filledPolygons.map fun filled =>
        { filled with shapes := filled.shapes.map (clientPolySet place) } }
  | c => c

def clientMandatory (c : MandatoryFields) : MandatoryFields :=
  mapMandatory (clientField place angle) c

def clientFootprint (f : Footprint) : Footprint :=
  { f with
    toMandatoryFields := clientMandatory place angle f.toMandatoryFields
    items := f.items.map (clientChild place angle) }

def clientInstance (position : Option Vector2) (f : FootprintInstance) : FootprintInstance where
  toMandatoryFields := clientMandatory place angle f.toMandatoryFields
  position := position
  orientation := angle f.orientation
  definition := f.definition.map (clientFootprint place angle)

end Client

/-! ### Where they come to the same -/

/-- What is to hold of the place of a footprint; of a place that both move, one that the web app
alone moves, and one that the client alone moves; of a vector of a model; of an angle that both
turn, and one that the client alone turns. -/
structure Places where
  anchor : Option Vector2 → Prop
  there : Option Vector2 → Prop
  still : Option Vector2 → Prop
  kept : Option Vector2 → Prop
  still3D : Option Vector3D → Prop
  angleThere : Option Angle → Prop
  angleKept : Option Angle → Prop

def NodeGeometry.places : NodeGeometry → List (Option Vector2)
  | .point value => [some value]
  | .arc start mid stop => [start, mid, stop]
  | .unset => []

def PolyLine.places (line : PolyLine) : List (Option Vector2) :=
  line.nodes.flatMap NodeGeometry.places

def PolySet.places (s : PolySet) : List (Option Vector2) :=
  s.polygons.flatMap fun p =>
    p.outline.elim [] PolyLine.places ++ p.holes.flatMap PolyLine.places

def Geometry.places : Geometry → List (Option Vector2)
  | .segment start stop => [start, stop]
  | .rectangle topLeft bottomRight _ => [topLeft, bottomRight]
  | .arc start mid stop => [start, mid, stop]
  | .circle center radiusPoint => [center, radiusPoint]
  | .polygon value => PolySet.places value
  | .bezier start control1 control2 stop => [start, control1, control2, stop]
  | .ellipse center _ => [center]
  | .ellipseArc center _ _ _ => [center]
  | .unset => []

/-- The turn of an ellipse. -/
def Geometry.rotations : Geometry → List (Option Angle)
  | .ellipse _ rotation => [rotation]
  | .ellipseArc _ rotation _ _ => [rotation]
  | _ => []

section Alike

variable (P : Places)

def StillPolySet (s : Option PolySet) : Prop := ∀ x ∈ s, ∀ v ∈ PolySet.places x, P.still v

def TherePolySet (s : Option PolySet) : Prop := ∀ x ∈ s, ∀ v ∈ PolySet.places x, P.there v

/-- A text that both move; the client turns it, and the web app does where `angle` says. -/
def AlikeText (angle : Option Angle → Prop) (t : Option Text) : Prop :=
  ∀ x ∈ t, P.there x.position ∧ ∀ a ∈ x.attributes, angle a.angle

def AlikeBoardText (angle : Option Angle → Prop) (t : BoardText) : Prop :=
  AlikeText P angle t.text ∧ StillPolySet P t.knockoutShapes

def AlikeField (angle : Option Angle → Prop) (f : Option Field) : Prop :=
  ∀ x ∈ f, ∀ t ∈ x.text, AlikeBoardText P angle t

/-- A field of the definition: the client alone moves it. -/
def KeptField (f : Option Field) : Prop :=
  ∀ x ∈ f, ∀ t ∈ x.text, ∀ y ∈ t.text, P.kept y.position ∧ ∀ a ∈ y.attributes, P.angleKept a.angle

def EachField (p : Option Field → Prop) (c : MandatoryFields) : Prop :=
  p c.referenceField ∧ p c.valueField ∧ p c.datasheetField ∧ p c.descriptionField

def AlikeChild : Child → Prop
  | .pad item =>
    P.there item.position ∧ ∀ s ∈ item.padStack, P.angleThere s.angle ∧
      ∀ l ∈ s.copperLayers, ∀ c ∈ l.customShapes, ∀ g ∈ c.shape,
        ∀ v ∈ Geometry.places g.geometry, P.still v
  | .referencePoint item => P.there item.position
  | .barcode item =>
    P.there item.position ∧ P.angleKept item.orientation ∧ StillPolySet P item.shapes
  | .field item => ∀ t ∈ item.text, AlikeBoardText P P.angleKept t
  | .text item => AlikeBoardText P P.angleThere item
  | .textBox item =>
    (∀ b ∈ item.textbox, P.there b.topLeft ∧ P.there b.bottomRight ∧
      ∀ a ∈ b.attributes, P.angleKept a.angle) ∧ StillPolySet P item.knockoutShapes
  | .shape item =>
    ∀ g ∈ item.shape, (∀ v ∈ Geometry.places g.geometry, P.there v) ∧
      ∀ a ∈ Geometry.rotations g.geometry, P.angleKept a
  | .dimension item => AlikeText P P.angleThere item.text
  | .zone item => TherePolySet P item.outline ∧ ∀ f ∈ item.filledPolygons, TherePolySet P f.shapes
  | .model3D item => P.still3D item.scale ∧ P.still3D item.rotation
  | .referenceImage _ => True
  | .other _ _ => True

/-- A footprint that both moves bring to the same. -/
structure Alike (f : FootprintInstance) : Prop where
  position : P.anchor f.position
  orientation : P.angleThere f.orientation
  fields : EachField (AlikeField P P.angleThere) f.toMandatoryFields
  definitionFields : ∀ d ∈ f.definition, EachField (KeptField P) d.toMandatoryFields
  items : ∀ d ∈ f.definition, ∀ c ∈ d.items, AlikeChild P c

end Alike

/-! ### Angles that the web app turns -/

def webAngle (M : Mover) (a : Option Angle) : Option Angle :=
  a.map fun b => ⟨M.turned b.valueDegrees⟩

def turnText (turn : Option Angle → Option Angle) (t : Text) : Text :=
  { t with attributes := t.attributes.map fun a => { a with angle := turn a.angle } }

/-- The angles in an item that the web app knows of. -/
def turnChild (turn : Option Angle → Option Angle) : Child → Child
  | .pad item =>
    .pad { item with padStack := item.padStack.map fun s => { s with angle := turn s.angle } }
  | .text item => .text { item with text := item.text.map (turnText turn) }
  | .dimension item => .dimension { item with text := item.text.map (turnText turn) }
  | item => item

/-! ### The two moves, part by part -/

section Parts

variable (M : Mover)

/-- A value that the web app has walked, read. -/
def web (key : String) (t : Js) : Js := readAs M.reading (walk M.move key t)

def seen (t : Js) : Js := readAs M.reading t

def webPlace (v : Option Vector2) : Option Vector2 :=
  v.map fun w => toVector2 (M.move (vec2 (some w)))

def webVector3D (v : Vector3D) : Vector3D :=
  { v with
    xNm := roundHalfUp (M.move ⟨v.xNm, v.yNm⟩).x
    yNm := roundHalfUp (M.move ⟨v.xNm, v.yNm⟩).y }

def readAngle (a : Option Angle) : Option ℚ := a.map fun b => M.reading b.valueDegrees

/-- The conditions are those of a move. -/
structure Judges (P : Places) : Prop where
  there : ∀ v, webPlace M v = M.place v ↔ P.there v
  still : ∀ v, webPlace M v = v ↔ P.still v
  kept : ∀ v, v = M.place v ↔ P.kept v
  still3D : ∀ v : Option Vector3D, v.map (webVector3D M) = v ↔ P.still3D v
  angleThere : ∀ a, (a.map fun b => M.reading (M.turned b.valueDegrees)) =
    readAngle M (M.angle a) ↔ P.angleThere a
  angleKept : ∀ a, readAngle M a = readAngle M (M.angle a) ↔ P.angleKept a

variable {M} {P : Places} {key : String} {f : ℚ → ℚ}

/-- The fields of an object that is walked and read field by field. -/
def plain (fields : List (String × Js)) : Bool :=
  fields.all fun e => e.1 ≠ "xNm" ∧ e.1 ≠ "valueDegrees" ∧ e.1 ≠ "definition"

lemma plain_isVec {fields : List (String × Js)} (h : plain fields = true) :
    isVec fields = false := by
  have hnone : fields.lookup "xNm" = none := by
    rw [List.lookup_eq_none_iff]
    intro e he
    have := (decide_eq_true_eq.mp (List.all_eq_true.mp h e he)).1
    exact bne_iff_ne.mpr (Ne.symm this)
  rw [isVec, look, hnone]
  rfl

lemma seen_obj {fields : List (String × Js)} (h : plain fields = true) :
    seen M (.obj fields) = .obj (fields.map fun e => (e.1, seen M e.2)) := by
  rw [seen, readAs_obj]
  congr 1
  refine List.map_congr_left fun e he => ?_
  rw [if_neg (decide_eq_true_eq.mp (List.all_eq_true.mp h e he)).2.1]
  rfl

lemma walk_plain {fields : List (String × Js)} (h : plain fields = true) :
    walk M.move key (.obj fields) = .obj (fields.map fun e => (e.1, walk M.move e.1 e.2)) := by
  rw [walk_obj (plain_isVec h)]
  congr 1
  refine List.map_congr_left fun e he => ?_
  rw [if_neg (decide_eq_true_eq.mp (List.all_eq_true.mp h e he)).2.2]

lemma plain_map {fields : List (String × Js)} (g : String × Js → Js) (h : plain fields = true) :
    plain (fields.map fun e => (e.1, g e)) = true := by
  rwa [plain, List.all_map]

lemma web_obj {fields : List (String × Js)} (h : plain fields = true) :
    web M key (.obj fields) = .obj (fields.map fun e => (e.1, web M e.1 e.2)) := by
  rw [web, walk_plain h]
  change seen M _ = _
  rw [seen_obj (plain_map _ h), List.map_map]
  rfl

/-! Of a value that both have written out in the same way, each part is looked at. -/

/-- The web app brings a value to what the client has. -/
def Meets (M : Mover) (key : String) (t t' : Js) : Prop := web M key t = seen M t'

lemma fields_eq_iff {g : String → Js → Js} {g' : Js → Js} {fields fields' : List (String × Js)} :
    (fields.map fun e => (e.1, g e.1 e.2)) = (fields'.map fun e => (e.1, g' e.2)) ↔
      List.Forall₂ (fun e e' => e.1 = e'.1 ∧ g e.1 e.2 = g' e'.2) fields fields' := by
  induction fields generalizing fields' with
  | nil =>
    cases fields' with
    | nil => exact iff_of_true rfl .nil
    | cons e' fields' => exact iff_of_false nofun nofun
  | cons e fields ih =>
    cases fields' with
    | nil => exact iff_of_false nofun nofun
    | cons e' fields' =>
      rw [List.map_cons, List.map_cons, List.cons.injEq, Prod.mk.injEq, List.forall₂_cons, ih]

lemma meets_obj {fields fields' : List (String × Js)} (h : plain fields = true)
    (h' : plain fields' = true) : Meets M key (.obj fields) (.obj fields') ↔
      List.Forall₂ (fun e e' => e.1 = e'.1 ∧ Meets M e.1 e.2 e'.2) fields fields' := by
  rw [Meets, web_obj h, seen_obj h', Js.obj.injEq]
  exact fields_eq_iff

lemma seen_obj_iff {fields fields' : List (String × Js)} (h : plain fields = true)
    (h' : plain fields' = true) : seen M (.obj fields) = seen M (.obj fields') ↔
      List.Forall₂ (fun e e' => e.1 = e'.1 ∧ seen M e.2 = seen M e'.2) fields fields' := by
  rw [seen_obj h, seen_obj h', Js.obj.injEq]
  exact @fields_eq_iff (fun _ => seen M) (seen M) _ _

lemma meets_list {α : Type} {w : α → Js} {c : α → α} {l : List α} :
    Meets M key (listJs w l) (listJs w (l.map c)) ↔ ∀ x ∈ l, Meets M key (w x) (w (c x)) := by
  rw [Meets, web, seen, listJs, listJs, walk_arr, readAs_arr, readAs_arr, Js.arr.injEq,
    List.map_map, List.map_map, List.map_map, List.map_map, List.map_inj_left]
  rfl

lemma meets_option {α : Type} {w : α → Js} {c : α → α} {o : Option α} :
    Meets M key (optionJs w o) (optionJs w (o.map c)) ↔
      ∀ x ∈ o, Meets M key (w x) (w (c x)) := by
  cases o with
  | none => exact iff_of_true rfl nofun
  | some x => simp [optionJs]

lemma meets_list_self {α : Type} {w : α → Js} {l : List α} :
    Meets M key (listJs w l) (listJs w l) ↔ ∀ x ∈ l, Meets M key (w x) (w x) := by
  have h : Meets M key (listJs w l) (listJs w (l.map id)) ↔ _ := meets_list
  rwa [List.map_id] at h

lemma meets_option_self {α : Type} {w : α → Js} {o : Option α} :
    Meets M key (optionJs w o) (optionJs w o) ↔ ∀ x ∈ o, Meets M key (w x) (w x) := by
  have h : Meets M key (optionJs w o) (optionJs w (o.map id)) ↔ _ := meets_option
  rwa [Option.map_id] at h

lemma meets_self {t : Js} (h : walk M.move key t = t) : Meets M key t t := by
  rw [Meets, web, h, seen]

lemma walk_placeJs (hkey : key ∉ nonPositional) (v : Option Vector2) :
    walk M.move key (placeJs v) = placeJs (webPlace M v) := by
  cases v with
  | none => rfl
  | some v =>
    refine (walk_vec (by rfl) hkey).trans ?_
    rfl

lemma walk_placeJs_size (hkey : key ∈ nonPositional) (v : Option Vector2) :
    walk M.move key (placeJs v) = placeJs v := by
  cases v with
  | none => rfl
  | some v => exact walk_size (by rfl) hkey

lemma placeJs_inj {v w : Option Vector2} : seen M (placeJs v) = seen M (placeJs w) ↔ v = w := by
  cases v with
  | none =>
    cases w with
    | none => exact iff_of_true rfl rfl
    | some w => exact iff_of_false nofun nofun
  | some v =>
    cases w with
    | none => exact iff_of_false nofun nofun
    | some w =>
      simp [seen, placeJs, optionJs, vector2Js]
      cases v
      cases w
      simp

lemma meets_place (hkey : key ∉ nonPositional) {v w : Option Vector2} :
    Meets M key (placeJs v) (placeJs w) ↔ webPlace M v = w := by
  rw [Meets, web, walk_placeJs hkey, ← placeJs_inj (M := M)]
  rfl

lemma meets_size (hkey : key ∈ nonPositional) (v : Option Vector2) :
    Meets M key (placeJs v) (placeJs v) :=
  meets_self (walk_placeJs_size hkey v)

lemma walk_angle (a : Option Angle) :
    walk M.move key (optionJs angleJs a) = optionJs angleJs a := by
  cases a with
  | none => rfl
  | some a => rfl

lemma seen_angle {a b : Option Angle} : seen M (optionJs angleJs a) = seen M (optionJs angleJs b) ↔
    readAngle M a = readAngle M b := by
  cases a with
  | none =>
    cases b with
    | none => exact iff_of_true rfl rfl
    | some b => exact iff_of_false nofun nofun
  | some a =>
    cases b with
    | none => exact iff_of_false nofun nofun
    | some b => simp [seen, optionJs, angleJs, readAngle, bumpNum]

lemma meets_angle {a b : Option Angle} : Meets M key (optionJs angleJs a) (optionJs angleJs b) ↔
    readAngle M a = readAngle M b := by
  rw [Meets, web, walk_angle, ← seen_angle]
  rfl

lemma meets_attributes {turn : Option Angle → Option Angle} {angle : Option Angle → Prop}
    (hangle : ∀ a, readAngle M (turn a) = readAngle M (M.angle a) ↔ angle a)
    (a : TextAttributes) : Meets M key (textAttributesJs { a with angle := turn a.angle })
      (textAttributesJs { a with angle := M.angle a.angle }) ↔ angle a.angle := by
  rw [textAttributesJs, textAttributesJs, meets_obj (by rfl) (by rfl)]
  simp only [List.forall₂_cons, List.forall₂_nil_right_iff, true_and, and_true, meets_angle,
    hangle]
  exact and_iff_left (meets_size (by decide) _)

lemma meets_text (h : Judges M P) {turn : Option Angle → Option Angle}
    {angle : Option Angle → Prop}
    (hangle : ∀ a, readAngle M (turn a) = readAngle M (M.angle a) ↔ angle a) (t : Text) :
    Meets M key (textJs (turnText turn t)) (textJs (clientText M.place M.angle t)) ↔
      P.there t.position ∧ ∀ a ∈ t.attributes, angle a.angle := by
  rw [textJs, textJs, meets_obj (by rfl) (by rfl)]
  simp only [List.forall₂_cons, List.forall₂_nil_right_iff, true_and, and_true, clientText,
    turnText]
  rw [meets_place (by decide), h.there]
  refine and_congr_right fun _ => ?_
  cases t.attributes with
  | none => exact iff_of_true rfl nofun
  | some a =>
    simp [Option.map_some, Option.mem_def, Option.some.injEq, forall_eq', optionJs,
      Option.elim_some, meets_attributes hangle]

/-- A map of places that the web app agrees with where `D` holds. -/
structure Agrees (M : Mover) (c : Option Vector2 → Option Vector2) (D : Option Vector2 → Prop) :
    Prop where
  agrees : ∀ v, webPlace M v = c v ↔ D v
  present : ∀ v, ∃ w, c (some v) = some w

lemma Judges.agrees_place (h : Judges M P) : Agrees M M.place P.there where
  agrees := h.there
  present v := ⟨_, M.place_some v⟩

lemma Judges.agrees_id (h : Judges M P) : Agrees M id P.still where
  agrees := h.still
  present v := ⟨v, rfl⟩

variable {c : Option Vector2 → Option Vector2} {D : Option Vector2 → Prop}

lemma Agrees.meets_place (hc : Agrees M c D) (hkey : key ∉ nonPositional) (v : Option Vector2) :
    Meets M key (placeJs v) (placeJs (c v)) ↔ D v := by
  rw [FootprintMovers.meets_place hkey, hc.agrees]

lemma Agrees.meets_arc (hc : Agrees M c D) (start mid stop : Option Vector2) :
    Meets M key (arcJs start mid stop) (arcJs (c start) (c mid) (c stop)) ↔
      ∀ v ∈ [start, mid, stop], D v := by
  rw [arcJs, arcJs, meets_obj (by rfl) (by rfl)]
  simp only [List.forall₂_cons, List.forall₂_nil_right_iff, true_and, and_true,
    List.forall_mem_cons, List.not_mem_nil, false_implies, implies_true]
  rw [hc.meets_place (by decide), hc.meets_place (by decide), hc.meets_place (by decide)]

lemma meets_case {name : String} {t t' : Js} :
    Meets M key (caseJs name t) (caseJs name t') ↔ Meets M "value" t t' := by
  rw [caseJs, caseJs, meets_obj (by rfl) (by rfl)]
  simp only [List.forall₂_cons, List.forall₂_nil_right_iff, true_and, and_true]
  exact and_iff_right (meets_self rfl)

lemma meets_unset : Meets M key unsetJs unsetJs := meets_self rfl

lemma Agrees.meets_node (hc : Agrees M c D) (n : NodeGeometry) :
    Meets M key (nodeJs n) (nodeJs (clientNode c n)) ↔ ∀ v ∈ NodeGeometry.places n, D v := by
  rw [nodeJs, nodeJs, meets_obj (by rfl) (by rfl)]
  simp only [List.forall₂_cons, List.forall₂_nil_right_iff, true_and, and_true]
  cases n with
  | point value =>
    obtain ⟨w, hw⟩ := hc.present value
    have hplace : Meets M "value" (placeJs (some value)) (placeJs (c (some value))) ↔ _ :=
      hc.meets_place (by decide) (some value)
    rw [hw] at hplace
    simp only [clientNode, nodeGeometryJs, hw, Option.getD_some, meets_case,
      NodeGeometry.places, List.mem_singleton, forall_eq]
    exact hplace
  | arc start mid stop => exact meets_case.trans (hc.meets_arc start mid stop)
  | unset => exact iff_of_true meets_unset nofun

lemma Agrees.meets_polyLine (hc : Agrees M c D) (line : PolyLine) :
    Meets M key (polyLineJs line) (polyLineJs (clientPolyLine c line)) ↔
      ∀ v ∈ PolyLine.places line, D v := by
  rw [polyLineJs, polyLineJs, meets_obj (by rfl) (by rfl)]
  simp only [List.forall₂_cons, List.forall₂_nil_right_iff, true_and, and_true, clientPolyLine,
    meets_list, hc.meets_node, PolyLine.places, List.forall_mem_flatMap]
  exact and_iff_left (meets_self rfl)

lemma Agrees.meets_polySet (hc : Agrees M c D) (s : PolySet) :
    Meets M key (polySetJs s) (polySetJs (clientPolySet c s)) ↔
      ∀ v ∈ PolySet.places s, D v := by
  rw [polySetJs, polySetJs, meets_obj (by rfl) (by rfl)]
  simp only [List.forall₂_cons, List.forall₂_nil_right_iff, true_and, and_true, clientPolySet,
    meets_list, PolySet.places, List.forall_mem_flatMap]
  refine forall₂_congr fun p _ => ?_
  rw [polygonJs, polygonJs, meets_obj (by rfl) (by rfl)]
  simp only [List.forall₂_cons, List.forall₂_nil_right_iff, true_and, and_true, clientPolygon,
    meets_list, meets_option, hc.meets_polyLine, List.forall_mem_append, List.forall_mem_flatMap]
  refine and_congr_left fun _ => ?_
  cases p.outline with
  | none => exact iff_of_true nofun nofun
  | some line => simp

/-- The places and the turn of a shape. -/
lemma Agrees.meets_geometry (hc : Agrees M c D) {turn : Option Angle → Option Angle}
    (g : Geometry) : Meets M key (geometryJs g) (geometryJs (clientGeometry c turn g)) ↔
      (∀ v ∈ Geometry.places g, D v) ∧
        ∀ a ∈ Geometry.rotations g, readAngle M a = readAngle M (turn a) := by
  cases g with
  | segment start stop =>
    simp only [geometryJs, clientGeometry, meets_case, Geometry.places, Geometry.rotations]
    rw [meets_obj (by rfl) (by rfl)]
    simp only [List.forall₂_cons, List.forall₂_nil_right_iff, true_and, and_true,
      List.forall_mem_cons, List.not_mem_nil, false_implies, implies_true]
    rw [hc.meets_place (by decide), hc.meets_place (by decide)]
  | rectangle topLeft bottomRight cornerRadius =>
    simp only [geometryJs, clientGeometry, meets_case, Geometry.places, Geometry.rotations]
    rw [meets_obj (by rfl) (by rfl)]
    have hradius : Meets M "cornerRadius" (optionJs distanceJs cornerRadius)
        (optionJs distanceJs cornerRadius) := meets_self (by cases cornerRadius <;> rfl)
    simp only [List.forall₂_cons, List.forall₂_nil_right_iff, true_and, and_true, hradius,
      List.forall_mem_cons, List.not_mem_nil, false_implies, implies_true]
    rw [hc.meets_place (by decide), hc.meets_place (by decide)]
  | arc start mid stop =>
    simp [geometryJs, clientGeometry, meets_case, Geometry.places, Geometry.rotations,
      hc.meets_arc, List.not_mem_nil, implies_true, and_true]
  | circle center radiusPoint =>
    simp only [geometryJs, clientGeometry, meets_case, Geometry.places, Geometry.rotations]
    rw [meets_obj (by rfl) (by rfl)]
    simp only [List.forall₂_cons, List.forall₂_nil_right_iff, true_and, and_true,
      List.forall_mem_cons, List.not_mem_nil, false_implies, implies_true]
    rw [hc.meets_place (by decide), hc.meets_place (by decide)]
  | polygon value =>
    simp [geometryJs, clientGeometry, meets_case, Geometry.places, Geometry.rotations,
      hc.meets_polySet, List.not_mem_nil, implies_true, and_true]
  | bezier start control1 control2 stop =>
    simp only [geometryJs, clientGeometry, meets_case, Geometry.places, Geometry.rotations]
    rw [meets_obj (by rfl) (by rfl)]
    simp only [List.forall₂_cons, List.forall₂_nil_right_iff, true_and, and_true,
      List.forall_mem_cons, List.not_mem_nil, false_implies, implies_true]
    rw [hc.meets_place (by decide), hc.meets_place (by decide), hc.meets_place (by decide),
      hc.meets_place (by decide)]
  | ellipse center rotation =>
    simp only [geometryJs, clientGeometry, meets_case, Geometry.places, Geometry.rotations]
    rw [meets_obj (by rfl) (by rfl)]
    simp only [List.forall₂_cons, List.forall₂_nil_right_iff, true_and, and_true,
      List.forall_mem_cons, List.not_mem_nil, false_implies, implies_true, meets_angle]
    rw [hc.meets_place (by decide)]
  | ellipseArc center rotation startAngle endAngle =>
    simp only [geometryJs, clientGeometry, meets_case, Geometry.places, Geometry.rotations]
    rw [meets_obj (by rfl) (by rfl)]
    simp only [List.forall₂_cons, List.forall₂_nil_right_iff, true_and, and_true,
      List.forall_mem_cons, List.not_mem_nil, false_implies, implies_true, meets_angle]
    rw [hc.meets_place (by decide)]
  | unset =>
    simp only [geometryJs, clientGeometry, Geometry.places, Geometry.rotations, List.not_mem_nil,
      false_implies, implies_true, and_true, iff_true]
    exact meets_unset

lemma clientPolySet_id (s : PolySet) : clientPolySet id s = s := by
  have hnode : clientNode id = id := funext fun n => by cases n <;> rfl
  have hline : clientPolyLine id = id := funext fun line => by
    rw [clientPolyLine, hnode, List.map_id]
    rfl
  have hpolygon : clientPolygon id = id := funext fun p => by
    rw [clientPolygon, hline, Option.map_id, List.map_id]
    rfl
  rw [clientPolySet, hpolygon, List.map_id]

lemma clientGeometry_id (g : Geometry) : clientGeometry id id g = g := by
  cases g with
  | polygon value => exact congrArg Geometry.polygon (clientPolySet_id value)
  | segment _ _ => rfl
  | rectangle _ _ _ => rfl
  | arc _ _ _ => rfl
  | circle _ _ => rfl
  | bezier _ _ _ _ => rfl
  | ellipse _ _ => rfl
  | ellipseArc _ _ _ _ => rfl
  | unset => rfl

lemma meets_therePolySet (h : Judges M P) (s : Option PolySet) :
    Meets M key (optionJs polySetJs s) (optionJs polySetJs (s.map (clientPolySet M.place))) ↔
      TherePolySet P s :=
  meets_option.trans (forall₂_congr fun x _ => h.agrees_place.meets_polySet x)

lemma meets_stillPolySet (h : Judges M P) (s : Option PolySet) :
    Meets M key (optionJs polySetJs s) (optionJs polySetJs s) ↔ StillPolySet P s := by
  have hmap : s.map (clientPolySet id) = s := by
    rw [funext clientPolySet_id]
    exact Option.map_id'
  have hmeets : Meets M key (optionJs polySetJs s)
      (optionJs polySetJs (s.map (clientPolySet id))) ↔ StillPolySet P s :=
    meets_option.trans (forall₂_congr fun x _ => h.agrees_id.meets_polySet x)
  rwa [hmap] at hmeets

lemma meets_boardText (h : Judges M P) {turn : Option Angle → Option Angle}
    {angle : Option Angle → Prop}
    (hangle : ∀ a, readAngle M (turn a) = readAngle M (M.angle a) ↔ angle a) (t : BoardText) :
    Meets M key
        (boardTextJs { t with text := t.text.map (turnText turn) })
        (boardTextJs { t with text := t.text.map (clientText M.place M.angle) }) ↔
      AlikeBoardText P angle t := by
  rw [boardTextJs, boardTextJs, meets_obj (by rfl) (by rfl)]
  simp only [List.forall₂_cons, List.forall₂_nil_right_iff, true_and, and_true,
    meets_stillPolySet h]
  refine and_congr_left fun _ => ?_
  cases t.text with
  | none => exact iff_of_true rfl nofun
  | some x =>
    simp [Option.map_some, optionJs, Option.elim_some, meets_text h hangle, AlikeText,
      Option.mem_def, Option.some.injEq, forall_eq']

lemma turnText_id (t : Text) : turnText id t = t := by
  cases t with
  | mk position attributes => cases attributes <;> rfl

lemma Judges.webAngle (h : Judges M P) (a : Option Angle) :
    readAngle M (webAngle M a) = readAngle M (M.angle a) ↔ P.angleThere a := by
  rw [← h.angleThere, FootprintMovers.webAngle, readAngle, Option.map_map]
  rfl

/-- The shapes of a pad are moved by the web app alone. -/
lemma meets_padStackLayer (h : Judges M P) (l : PadStackLayer) :
    Meets M key (padStackLayerJs l) (padStackLayerJs l) ↔
      ∀ c ∈ l.customShapes, ∀ g ∈ c.shape, ∀ v ∈ Geometry.places g.geometry, P.still v := by
  rw [padStackLayerJs, meets_obj (by rfl) (by rfl)]
  have hsize : ∀ key ∈ nonPositional, ∀ v, Meets M key (placeJs v) (placeJs v) :=
    fun _ hkey v => meets_size hkey v
  simp only [List.forall₂_cons, List.forall₂_nil_right_iff, true_and, and_true,
    hsize "size" (by decide), hsize "trapezoidDelta" (by decide), hsize "offset" (by decide),
    meets_list_self]
  refine forall₂_congr fun c _ => ?_
  rw [boardGraphicShapeJs, meets_obj (by rfl) (by rfl)]
  simp only [List.forall₂_cons, List.forall₂_nil_right_iff, true_and, and_true,
    meets_option_self]
  refine forall₂_congr fun g _ => ?_
  rw [graphicShapeJs, meets_obj (by rfl) (by rfl)]
  simp only [List.forall₂_cons, List.forall₂_nil_right_iff, true_and, and_true]
  have hgeometry : Meets M "geometry" (geometryJs g.geometry)
      (geometryJs (clientGeometry id id g.geometry)) ↔ _ := h.agrees_id.meets_geometry g.geometry
  rw [clientGeometry_id] at hgeometry
  exact hgeometry.trans (and_iff_left fun _ _ => rfl)

lemma meets_drill (d : Option DrillProperties) :
    Meets M key (optionJs drillJs d) (optionJs drillJs d) := by
  rw [meets_option_self]
  intro x _
  rw [drillJs, meets_obj (by rfl) (by rfl)]
  have hsize : Meets M "diameter" (placeJs x.diameter) (placeJs x.diameter) :=
    meets_size (by decide) _
  exact .cons ⟨rfl, hsize⟩ .nil

lemma meets_pad (h : Judges M P) (p : Pad) :
    Meets M key
        (padJs { p with
          padStack := p.padStack.map fun s => { s with angle := webAngle M s.angle } })
        (padJs ⟨p.padStack.map fun s => { s with angle := M.angle s.angle }, M.place p.position⟩) ↔
      AlikeChild P (.pad p) := by
  rw [padJs, padJs, meets_obj (by rfl) (by rfl)]
  simp only [List.forall₂_cons, List.forall₂_nil_right_iff, true_and, and_true]
  rw [h.agrees_place.meets_place (by decide), and_comm]
  refine and_congr_right fun _ => ?_
  cases p.padStack with
  | none => exact iff_of_true rfl nofun
  | some s =>
    simp only [Option.map_some, optionJs, Option.elim_some, Option.mem_def, Option.some.injEq,
      forall_eq']
    rw [padStackJs, padStackJs, meets_obj (by rfl) (by rfl)]
    simp only [List.forall₂_cons, List.forall₂_nil_right_iff, true_and, and_true, meets_drill,
      meets_list_self, meets_padStackLayer h, meets_angle, h.webAngle]
    exact and_comm

lemma meets_ends {a b : String} (hplain : plain [(a, .undefined), (b, .undefined)] = true)
    (ha : a ∉ nonPositional) (hb : b ∉ nonPositional) (v w : Option Vector2) :
    Meets M key (.obj [(a, placeJs v), (b, placeJs w)])
      (.obj [(a, placeJs (clientDimensionStyle.move M.place v)),
        (b, placeJs (clientDimensionStyle.move M.place w))]) := by
  have hmove : ∀ v, webPlace M v = clientDimensionStyle.move M.place v := by
    intro v
    cases v with
    | none => rfl
    | some v => exact (M.place_some v).symm
  have hboth : ∀ t u : Js, plain [(a, t), (b, u)] = true := fun _ _ => hplain
  refine (meets_obj (hboth _ _) (hboth _ _)).mpr (.cons ⟨rfl, ?_⟩ (.cons ⟨rfl, ?_⟩ .nil))
  · exact (FootprintMovers.meets_place ha).mpr (hmove v)
  · exact (FootprintMovers.meets_place hb).mpr (hmove w)

lemma meets_dimensionStyle (d : DimensionStyle) :
    Meets M key (dimensionStyleJs d) (dimensionStyleJs (clientDimensionStyle M.place d)) := by
  cases d with
  | aligned start stop =>
    exact meets_case.mpr (meets_ends (by rfl) (by decide) (by decide) start stop)
  | orthogonal start stop =>
    exact meets_case.mpr (meets_ends (by rfl) (by decide) (by decide) start stop)
  | radial center radiusPoint =>
    exact meets_case.mpr (meets_ends (by rfl) (by decide) (by decide) center radiusPoint)
  | leader start stop =>
    exact meets_case.mpr (meets_ends (by rfl) (by decide) (by decide) start stop)
  | center center stop =>
    exact meets_case.mpr (meets_ends (by rfl) (by decide) (by decide) center stop)
  | unset => exact meets_unset

lemma meets_optionText (h : Judges M P) {turn : Option Angle → Option Angle}
    {angle : Option Angle → Prop}
    (hangle : ∀ a, readAngle M (turn a) = readAngle M (M.angle a) ↔ angle a) (t : Option Text) :
    Meets M key (optionJs textJs (t.map (turnText turn)))
        (optionJs textJs (t.map (clientText M.place M.angle))) ↔ AlikeText P angle t := by
  cases t with
  | none => exact iff_of_true rfl nofun
  | some x =>
    simp [Option.map_some, optionJs, Option.elim_some, meets_text h hangle, AlikeText,
      Option.mem_def, Option.some.injEq, forall_eq']

lemma meets_vector3D (h : Judges M P) (hkey : key ∉ nonPositional) (v : Option Vector3D) :
    Meets M key (optionJs vector3DJs v) (optionJs vector3DJs v) ↔ P.still3D v := by
  rw [← h.still3D]
  cases v with
  | none => exact iff_of_true rfl rfl
  | some v =>
    have hwalk : walk M.move key (vector3DJs v) = vector3DJs (webVector3D M v) :=
      walk_vec (by rfl) hkey
    simp only [Meets, web, seen, optionJs, Option.elim_some, hwalk, Option.map_some,
      Option.some.injEq]
    simp [vector3DJs, webVector3D]
    obtain ⟨x, y, z⟩ := v
    simp

lemma meets_zoneSettings (z : ZoneSettings) :
    Meets M key (zoneSettingsJs z) (zoneSettingsJs z) := by
  cases z with
  | copperSettings net =>
    cases net with
    | none => exact meets_self rfl
    | some n =>
      obtain ⟨name, code⟩ := n
      cases code with
      | none => exact meets_self rfl
      | some c => exact meets_self rfl
  | ruleAreaSettings a b c => exact meets_self rfl
  | unset => exact meets_unset

lemma meets_zone (h : Judges M P) (z : Zone) :
    Meets M key (zoneJs z) (childMessageJs (clientChild M.place M.angle (.zone z))) ↔
      AlikeChild P (.zone z) := by
  simp only [childMessageJs, clientChild]
  rw [zoneJs, zoneJs, meets_obj (by rfl) (by rfl)]
  have htype : Meets M "type" (zoneTypeJs z.type) (zoneTypeJs z.type) :=
    meets_self (by cases z.type <;> rfl)
  have hid : Meets M "id" (kiidJs z.id) (kiidJs z.id) := meets_self rfl
  have hname : Meets M "name" (.str z.name) (.str z.name) := meets_self rfl
  have hlayer : ∀ key l, Meets M key (layerJs l) (layerJs l) := fun _ _ => meets_self rfl
  have hproperties : ∀ l,
      Meets M "layerProperties" (layerPropertiesJs l) (layerPropertiesJs l) := by
    intro l
    rw [layerPropertiesJs, meets_obj (by rfl) (by rfl)]
    have hsize : Meets M "hatchingOffset" (placeJs l.hatchingOffset) (placeJs l.hatchingOffset) :=
      meets_size (by decide) _
    exact .cons ⟨rfl, hsize⟩ .nil
  have hfilled : ∀ f : ZoneFilledPolygons, Meets M "filledPolygons" (filledJs f)
      (filledJs { f with shapes := f.shapes.map (clientPolySet M.place) }) ↔
        TherePolySet P f.shapes := by
    intro f
    rw [filledJs, filledJs, meets_obj (by rfl) (by rfl)]
    simp [List.forall₂_cons, true_and, and_true, hlayer,
      meets_therePolySet h]
  simp only [List.forall₂_cons, List.forall₂_nil_right_iff, true_and, and_true, htype, hid, hname,
    meets_list_self, hlayer, hproperties, implies_true, meets_zoneSettings, meets_therePolySet h,
    meets_list, hfilled]
  rfl

def turnField (turn : Option Angle → Option Angle) (f : Field) : Field where
  text := f.text.map fun t => { t with text := t.text.map (turnText turn) }

lemma meets_field (h : Judges M P) {turn : Option Angle → Option Angle}
    {angle : Option Angle → Prop}
    (hangle : ∀ a, readAngle M (turn a) = readAngle M (M.angle a) ↔ angle a) (f : Option Field) :
    Meets M key (optionJs fieldJs (f.map (turnField turn)))
      (optionJs fieldJs (f.map (clientField M.place M.angle))) ↔ AlikeField P angle f := by
  cases f with
  | none => exact iff_of_true rfl nofun
  | some f =>
    simp only [Option.map_some, optionJs, Option.elim_some, AlikeField, Option.mem_def,
      Option.some.injEq, forall_eq']
    rw [fieldJs, fieldJs, meets_obj (by rfl) (by rfl)]
    simp only [List.forall₂_cons, List.forall₂_nil_right_iff, true_and, and_true, turnField,
      clientField]
    cases f.text with
    | none => exact iff_of_true rfl nofun
    | some t =>
      simp [Option.map_some, optionJs, Option.elim_some, Option.some.injEq, forall_eq',
        meets_boardText h hangle]

lemma turnField_id (f : Field) : turnField id f = f := by
  have htext : turnText id = id := funext turnText_id
  have hboard : ∀ t : BoardText, { t with text := t.text.map (turnText id) } = t := fun t => by
    rw [htext, Option.map_id]
    rfl
  rw [turnField]
  simp [hboard, Option.map_id']

/-- The kinds of items that a footprint may be turned with. -/
def accepts : Child → Bool
  | .referenceImage _ | .other _ _ => false
  | _ => true

/-- **An item of a footprint.** -/
lemma meets_child (h : Judges M P) {c : Child} (hc : accepts c = true) :
    Meets M key (childMessageJs (turnChild (webAngle M) c))
      (childMessageJs (clientChild M.place M.angle c)) ↔ AlikeChild P c := by
  cases c with
  | pad item => exact meets_pad h item
  | referencePoint item =>
    simp only [turnChild, clientChild, childMessageJs, AlikeChild]
    rw [referencePointJs, referencePointJs, meets_obj (by rfl) (by rfl)]
    simp only [List.forall₂_cons, List.forall₂_nil_right_iff, true_and, and_true]
    exact h.agrees_place.meets_place (by decide) _
  | barcode item =>
    simp only [turnChild, clientChild, childMessageJs, AlikeChild]
    rw [barcodeJs, barcodeJs, meets_obj (by rfl) (by rfl)]
    have hmargin : Meets M "knockoutMargin" (placeJs item.knockoutMargin)
        (placeJs item.knockoutMargin) := meets_size (by decide) _
    simp only [List.forall₂_cons, List.forall₂_nil_right_iff, true_and, and_true, hmargin,
      meets_angle, h.angleKept, meets_stillPolySet h]
    rw [h.agrees_place.meets_place (by decide)]
  | field item =>
    have hfield : Meets M key (optionJs fieldJs ((some item).map (turnField id)))
        (optionJs fieldJs ((some item).map (clientField M.place M.angle))) ↔ _ :=
      meets_field h h.angleKept (some item)
    rw [funext turnField_id] at hfield
    simpa [AlikeField, optionJs, turnChild, clientChild, childMessageJs, AlikeChild] using hfield
  | text item => exact meets_boardText h h.webAngle item
  | textBox item =>
    simp only [turnChild, clientChild, childMessageJs, AlikeChild]
    rw [boardTextBoxJs, boardTextBoxJs, meets_obj (by rfl) (by rfl)]
    simp only [List.forall₂_cons, List.forall₂_nil_right_iff, true_and, and_true,
      meets_stillPolySet h]
    refine and_congr_left fun _ => ?_
    rw [meets_option]
    refine forall₂_congr fun b _ => ?_
    rw [textBoxJs, textBoxJs, meets_obj (by rfl) (by rfl)]
    simp only [List.forall₂_cons, List.forall₂_nil_right_iff, true_and, and_true, meets_option,
      meets_attributes h.angleKept]
    rw [h.agrees_place.meets_place (by decide), h.agrees_place.meets_place (by decide)]
  | shape item =>
    simp only [turnChild, clientChild, childMessageJs, AlikeChild]
    rw [boardGraphicShapeJs, boardGraphicShapeJs, meets_obj (by rfl) (by rfl)]
    simp only [List.forall₂_cons, List.forall₂_nil_right_iff, true_and, and_true, meets_option]
    refine forall₂_congr fun g _ => ?_
    rw [graphicShapeJs, graphicShapeJs, meets_obj (by rfl) (by rfl)]
    simp only [List.forall₂_cons, List.forall₂_nil_right_iff, true_and, and_true]
    refine (h.agrees_place.meets_geometry _).trans (and_congr_right fun _ => ?_)
    exact forall₂_congr fun a _ => h.angleKept a
  | dimension item =>
    simp only [turnChild, clientChild, childMessageJs, AlikeChild]
    rw [dimensionJs, dimensionJs, meets_obj (by rfl) (by rfl)]
    simp only [List.forall₂_cons, List.forall₂_nil_right_iff, true_and, and_true,
      meets_dimensionStyle]
    exact meets_optionText h h.webAngle item.text
  | zone item => exact meets_zone h item
  | model3D item =>
    simp only [turnChild, clientChild, childMessageJs, AlikeChild]
    rw [model3DJs, meets_obj (by rfl) (by rfl)]
    have hoffset : Meets M "offset" (optionJs vector3DJs item.offset)
        (optionJs vector3DJs item.offset) := by
      refine meets_option_self.mpr fun v _ => meets_self ?_
      exact walk_size (by rfl) (by decide)
    simp only [List.forall₂_cons, List.forall₂_nil_right_iff, true_and, and_true, hoffset]
    rw [meets_vector3D h (by decide), meets_vector3D h (by decide)]
  | referenceImage item => cases hc
  | other typeUrl known => cases hc

/-! ### A footprint -/

/-- The angles on a footprint that the web app knows of. -/
def turnInstance (turn : Option Angle → Option Angle) (f : FootprintInstance) :
    FootprintInstance where
  toMandatoryFields := mapMandatory (turnField turn) f.toMandatoryFields
  position := f.position
  orientation := turn f.orientation
  definition := f.definition.map fun d => { d with items := d.items.map (turnChild turn) }

lemma look_modify {g : Js → Js} {k l : String} (h : l ≠ k) (fields : List (String × Js)) :
    look l (fields.map fun e => (e.1, if e.1 = k then g e.2 else e.2)) = look l fields := by
  induction fields with
  | nil => rfl
  | cons e fields ih =>
    rw [look, look] at ih ⊢
    rw [List.map_cons, List.lookup_cons, List.lookup_cons]
    cases hl : l == e.1 with
    | false => exact ih
    | true =>
      have hne : e.1 ≠ k := fun hk => h ((beq_iff_eq.mp hl).trans hk)
      rw [if_neg hne]

/-- What a path of keys changes is walked all the same: it goes by no coordinate. -/
lemma modifyAt_walk (path : List String) (hpath : ∀ k ∈ path, k ≠ "xNm" ∧ k ≠ "yNm")
    (fn : Vec2 → Vec2) (key : String) (t : Js) :
    modifyAt (bumpNum f) path (walk fn key t) = walk fn key (modifyAt (bumpNum f) path t) := by
  induction path generalizing key t with
  | nil =>
    cases t with
    | obj fields =>
      rw [modifyAt, modifyAt, bumpNum.eq_2 f (.obj fields) fun _ h => absurd h (by simp)]
      rw [walk]
      split_ifs <;> rfl
    | arr items => rfl
    | undefined => rfl
    | bool _ => rfl
    | num _ => rfl
    | big _ => rfl
    | str _ => rfl
    | bytes _ => rfl
    | any _ _ => rfl
  | cons k path ih =>
    obtain ⟨⟨hx, hy⟩, hpath⟩ := List.forall_mem_cons.mp hpath
    cases t with
    | obj fields =>
      have hlook : ∀ l, l ≠ k → look l (fields.map fun e =>
          (e.1, if e.1 = k then modifyAt (bumpNum f) path e.2 else e.2)) = look l fields :=
        fun l hl => look_modify hl fields
      have hvec : isVec (fields.map fun e =>
          (e.1, if e.1 = k then modifyAt (bumpNum f) path e.2 else e.2)) = isVec fields := by
        rw [isVec, isVec, hlook _ hx.symm, hlook _ hy.symm]
      rw [modifyAt, walk, walk, hvec]
      cases hv : isVec fields with
      | true =>
        rw [if_pos rfl, if_pos rfl]
        by_cases hkey : key ∈ nonPositional
        · rw [if_pos hkey, if_pos hkey, modifyAt]
        · rw [if_neg hkey, if_neg hkey, modifyAt, setVec, setVec, hlook _ hx.symm,
            hlook _ hy.symm, List.map_map, List.map_map]
          congr 1
          refine List.map_congr_left fun e _ => ?_
          simp only [Function.comp_apply]
          by_cases hk : e.1 = k
          · rw [if_pos hk, if_pos hk, hk, if_neg hx, if_neg hy, if_neg hx, if_neg hy]
          · rw [if_neg hk, if_neg hk]
      | false =>
        rw [if_neg Bool.false_ne_true, modifyAt, walkFields_eq,
          walkFields_eq, List.map_map, List.map_map]
        congr 1
        refine List.map_congr_left fun e _ => ?_
        simp only [Function.comp_apply]
        by_cases hk : e.1 = k
        · rw [if_pos hk, if_pos hk]
          by_cases hd : e.1 = "definition"
          · rw [if_pos hd, if_pos hd]
          · rw [if_neg hd, if_neg hd, ih hpath]
        · rw [if_neg hk, if_neg hk]
    | arr items => rfl
    | undefined => rfl
    | bool _ => rfl
    | num _ => rfl
    | big _ => rfl
    | str _ => rfl
    | bytes _ => rfl
    | any _ _ => rfl

lemma bumpChild_walk (fn : Vec2 → Vec2) (t : Js) :
    bumpChild f (walk fn key t) = walk fn key (bumpChild f t) := by
  simp only [bumpChild, textAngle, bump]
  rw [modifyAt_walk _ (by decide), modifyAt_walk _ (by decide)]

lemma bumpProto_walk (fn : Vec2 → Vec2) (t : Js) :
    bumpProto f (walk fn key t) = walk fn key (bumpProto f t) := by
  simp only [bumpProto, textAngle, bump, List.foldl_cons, List.foldl_nil]
  rw [modifyAt_walk _ (by decide), modifyAt_walk _ (by decide), modifyAt_walk _ (by decide),
    modifyAt_walk _ (by decide), modifyAt_walk _ (by decide), modifyAt_walk _ (by decide)]

/-- An angle of a text, bumped. -/
def bumpedAngle (f : ℚ → ℚ) (a : Option Angle) : Option Angle :=
  a.map fun b => ⟨f b.valueDegrees⟩

lemma bump_angle (a : Option Angle) :
    modifyAt (bumpNum f) ["valueDegrees"] (optionJs angleJs a) =
      optionJs angleJs (bumpedAngle f a) := by
  cases a <;> rfl

lemma bump_text (t : Option Text) :
    modifyAt (bumpNum f) ["attributes", "angle", "valueDegrees"] (optionJs textJs t) =
      optionJs textJs (t.map (turnText (bumpedAngle f))) := by
  cases t with
  | none => rfl
  | some t =>
    obtain ⟨position, attributes⟩ := t
    cases attributes with
    | none => rfl
    | some a =>
      obtain ⟨angle, size⟩ := a
      cases angle <;> rfl

lemma bump_field (x : Option Field) :
    modifyAt (bumpNum f) ["text", "text", "attributes", "angle", "valueDegrees"]
      (optionJs fieldJs x) = optionJs fieldJs (x.map (turnField (bumpedAngle f))) := by
  cases x with
  | none => rfl
  | some x =>
    obtain ⟨text⟩ := x
    cases text with
    | none => rfl
    | some t =>
      obtain ⟨text, knockoutShapes⟩ := t
      exact congrArg (fun j : Js => Js.obj [("text", .obj [("text", j),
        ("knockoutShapes", optionJs polySetJs knockoutShapes)])]) (bump_text text)

lemma bumpChild_child (c : Child) :
    bumpChild f (childMessageJs c) = childMessageJs (turnChild (bumpedAngle f) c) := by
  cases c with
  | pad item =>
    obtain ⟨padStack, position⟩ := item
    cases padStack with
    | none => rfl
    | some s =>
      obtain ⟨drill, copperLayers, angle, secondaryDrill, tertiaryDrill⟩ := s
      cases angle <;> rfl
  | text item =>
    exact congrArg (fun j : Js => Js.obj [("text", j),
      ("knockoutShapes", optionJs polySetJs item.knockoutShapes)]) (bump_text item.text)
  | dimension item =>
    exact congrArg (fun j : Js => Js.obj [("text", j),
      ("dimensionStyle", dimensionStyleJs item.dimensionStyle)]) (bump_text item.text)
  | referenceImage item => rfl
  | referencePoint item => rfl
  | barcode item => rfl
  | field item =>
    obtain ⟨text⟩ := item
    cases text <;> rfl
  | textBox item => rfl
  | shape item => rfl
  | zone item => rfl
  | model3D item => rfl
  | other typeUrl known => cases known <;> rfl

/-- The angles of a footprint itself. -/
def turnProto (turn : Option Angle → Option Angle) (x : FootprintInstance) : FootprintInstance :=
  { x with
    toMandatoryFields := mapMandatory (turnField turn) x.toMandatoryFields
    orientation := turn x.orientation }

lemma bumpProto_instance (x : FootprintInstance) :
    bumpProto f (footprintInstanceJs x) = footprintInstanceJs (turnProto (bumpedAngle f) x) := by
  simp only [bumpProto, textAngle, bump, List.foldl_cons, List.foldl_nil, footprintInstanceJs,
    List.cons_append, List.nil_append]
  simp only [modifyAt, List.map_cons, List.map_nil, String.reduceEq, if_true, if_false,
    bump_field, bump_angle]
  rfl

lemma seen_option {α : Type} {w : α → Js} {c : α → α} {o : Option α} :
    seen M (optionJs w o) = seen M (optionJs w (o.map c)) ↔
      ∀ x ∈ o, seen M (w x) = seen M (w (c x)) := by
  cases o with
  | none => exact iff_of_true rfl nofun
  | some x => simp [optionJs]

/-- A field of the definition, which only the client moves. -/
lemma seen_field (h : Judges M P) (x : Option Field) : seen M (optionJs fieldJs x) =
    seen M (optionJs fieldJs (x.map (clientField M.place M.angle))) ↔ KeptField P x := by
  rw [seen_option]
  refine forall₂_congr fun y _ => ?_
  rw [fieldJs, fieldJs, seen_obj_iff (by rfl) (by rfl)]
  simp only [List.forall₂_cons, List.forall₂_nil_right_iff, true_and, and_true, clientField,
    seen_option]
  refine forall₂_congr fun t _ => ?_
  rw [boardTextJs, boardTextJs, seen_obj_iff (by rfl) (by rfl)]
  simp only [List.forall₂_cons, List.forall₂_nil_right_iff, true_and, and_true, seen_option]
  refine forall₂_congr fun u _ => ?_
  rw [textJs, textJs, seen_obj_iff (by rfl) (by rfl)]
  simp only [List.forall₂_cons, List.forall₂_nil_right_iff, true_and, and_true, clientText,
    seen_option, placeJs_inj, h.kept]
  refine and_congr_right fun _ => forall₂_congr fun a _ => ?_
  rw [textAttributesJs, textAttributesJs, seen_obj_iff (by rfl) (by rfl)]
  simp [List.forall₂_cons, true_and, and_true, seen_angle,
    h.angleKept]

/-- What the web app makes of the definition of a footprint. -/
def webDefinition (f : ℚ → ℚ) (fn : Vec2 → Vec2) (d : Footprint) : Js :=
  .obj [("anchor", placeJs d.anchor), ("referenceField", optionJs fieldJs d.referenceField),
    ("valueField", optionJs fieldJs d.valueField),
    ("datasheetField", optionJs fieldJs d.datasheetField),
    ("descriptionField", optionJs fieldJs d.descriptionField),
    ("items", listJs (fun c => editItem (fun m => bumpChild f (walk fn "" m)) (childJs c)) d.items)]

lemma web_instance (fn : Vec2 → Vec2) (x : FootprintInstance) :
    mapDefinitionItems (fun m => bumpChild f (walk fn "" m))
        (bumpProto f (walk fn "" (footprintInstanceJs x))) =
      .obj [("position", walk fn "position" (placeJs x.position)),
        ("orientation", walk fn "orientation" (optionJs angleJs (bumpedAngle f x.orientation))),
        ("definition", optionJs (webDefinition f fn) x.definition),
        ("referenceField", walk fn "referenceField"
          (optionJs fieldJs (x.referenceField.map (turnField (bumpedAngle f))))),
        ("valueField", walk fn "valueField"
          (optionJs fieldJs (x.valueField.map (turnField (bumpedAngle f))))),
        ("datasheetField", walk fn "datasheetField"
          (optionJs fieldJs (x.datasheetField.map (turnField (bumpedAngle f))))),
        ("descriptionField", walk fn "descriptionField"
          (optionJs fieldJs (x.descriptionField.map (turnField (bumpedAngle f)))))] := by
  rw [bumpProto_walk, bumpProto_instance, footprintInstanceJs, walk_obj (by rfl)]
  simp only [mapDefinitionItems, modifyAt, List.map_cons, List.map_nil, String.reduceEq, if_true,
    if_false, Js.obj.injEq, List.cons.injEq, Prod.mk.injEq, true_and, and_true]
  refine ⟨rfl, rfl, ?_, rfl, rfl, rfl, rfl⟩
  change modifyAt _ ["items"] (optionJs footprintJs x.definition) = _
  cases x.definition with
  | none => rfl
  | some d =>
    simp only [optionJs, Option.elim_some, footprintJs, modifyAt, List.map_cons, List.map_nil,
      String.reduceEq, if_true, if_false, webDefinition, listJs, List.map_map]
    rfl

lemma seen_child (h : Judges M P) {c : Child} (hc : accepts c = true) :
    seen M (editItem (fun m => bumpChild M.turned (walk M.move "" m)) (childJs c)) =
      seen M (childJs (clientChild M.place M.angle c)) ↔ AlikeChild P c := by
  have hedit : editItem (fun m => bumpChild M.turned (walk M.move "" m)) (childJs c) =
      .any (typeUrl c) (walk M.move "" (childMessageJs (turnChild (webAngle M) c))) := by
    have hobj : ∃ fields, childMessageJs c = .obj fields := by
      cases c with
      | other typeUrl known => cases hc
      | _ => exact ⟨_, rfl⟩
    obtain ⟨fields, hfields⟩ := hobj
    rw [childJs, hfields]
    change Js.any _ (bumpChild M.turned (walk M.move "" (.obj fields))) = _
    rw [bumpChild_walk, ← hfields, bumpChild_child]
    rfl
  have htype : typeUrl (clientChild M.place M.angle c) = typeUrl c := by
    cases c <;> rfl
  rw [hedit, childJs, htype, seen, seen, readAs_any, readAs_any, Js.any.injEq,
    and_iff_right rfl]
  exact meets_child h hc

lemma seen_items (h : Judges M P) {items : List Child} (hc : ∀ c ∈ items, accepts c = true) :
    seen M (listJs (fun c => editItem (fun m => bumpChild M.turned (walk M.move "" m)) (childJs c))
        items) = seen M (listJs childJs (items.map (clientChild M.place M.angle))) ↔
      ∀ c ∈ items, AlikeChild P c := by
  rw [seen, seen, listJs, listJs, readAs_arr, readAs_arr, Js.arr.injEq, List.map_map,
    List.map_map, List.map_map, List.map_inj_left]
  exact forall₂_congr fun c hmem => seen_child h (hc c hmem)

lemma seen_definition (h : Judges M P) {d : Footprint} (hc : ∀ c ∈ d.items, accepts c = true) :
    seen M (webDefinition M.turned M.move d) =
        seen M (footprintJs (clientFootprint M.place M.angle d)) ↔
      EachField (KeptField P) d.toMandatoryFields ∧ ∀ c ∈ d.items, AlikeChild P c := by
  rw [← seen_items h hc, EachField, ← seen_field h, ← seen_field h, ← seen_field h,
    ← seen_field h]
  rw [seen, seen, webDefinition, footprintJs, readAs_obj, readAs_obj]
  simp only [List.map_cons, List.map_nil, String.reduceEq, if_false, Js.obj.injEq,
    List.cons.injEq, Prod.mk.injEq, true_and, and_true, and_assoc]
  exact and_iff_right rfl

/-- **A footprint** is brought to the same by both just where it is `Alike`. -/
theorem seen_instance (h : Judges M P) {x : FootprintInstance} {position : Option Vector2}
    (hp : webPlace M x.position = position ↔ P.anchor x.position)
    (hc : ∀ d ∈ x.definition, ∀ c ∈ d.items, accepts c = true) :
    seen M (mapDefinitionItems (fun m => bumpChild M.turned (walk M.move "" m))
        (bumpProto M.turned (walk M.move "" (footprintInstanceJs x)))) =
      seen M (footprintInstanceJs (clientInstance M.place M.angle position x)) ↔ Alike P x := by
  have hfield : ∀ key, ∀ y : Option Field,
      seen M (walk M.move key (optionJs fieldJs (y.map (turnField (bumpedAngle M.turned))))) =
        seen M (optionJs fieldJs (y.map (clientField M.place M.angle))) ↔
      AlikeField P P.angleThere y := fun key y => meets_field h h.webAngle y
  have hposition : seen M (walk M.move "position" (placeJs x.position)) =
      seen M (placeJs position) ↔ P.anchor x.position :=
    (meets_place (by decide)).trans hp
  have horientation : seen M (walk M.move "orientation"
        (optionJs angleJs (bumpedAngle M.turned x.orientation))) =
      seen M (optionJs angleJs (M.angle x.orientation)) ↔ P.angleThere x.orientation :=
    meets_angle.trans (h.webAngle _)
  have hdefinition : seen M (optionJs (webDefinition M.turned M.move) x.definition) =
      seen M (optionJs footprintJs (x.definition.map (clientFootprint M.place M.angle))) ↔
      ∀ d ∈ x.definition, EachField (KeptField P) d.toMandatoryFields ∧
        ∀ c ∈ d.items, AlikeChild P c := by
    cases hd : x.definition with
    | none => simp [optionJs]
    | some d =>
      have hone := seen_definition h (hc d hd)
      simpa only [optionJs, Option.elim_some, Option.map_some, Option.mem_def, Option.some.injEq,
        forall_eq'] using hone
  have halike : Alike P x ↔ P.anchor x.position ∧ P.angleThere x.orientation ∧
      (∀ d ∈ x.definition, EachField (KeptField P) d.toMandatoryFields ∧
        ∀ c ∈ d.items, AlikeChild P c) ∧
      EachField (AlikeField P P.angleThere) x.toMandatoryFields :=
    ⟨fun a => ⟨a.position, a.orientation, fun d hd => ⟨a.definitionFields d hd, a.items d hd⟩,
      a.fields⟩, fun a => ⟨a.1, a.2.1, a.2.2.2, fun d hd => (a.2.2.1 d hd).1,
      fun d hd => (a.2.2.1 d hd).2⟩⟩
  rw [halike, ← hposition, ← horientation, ← hdefinition, EachField, ← hfield "referenceField",
    ← hfield "valueField", ← hfield "datasheetField", ← hfield "descriptionField"]
  rw [web_instance, footprintInstanceJs, seen, seen, readAs_obj, readAs_obj]
  simp only [List.map_cons, List.map_nil, String.reduceEq, if_false, Js.obj.injEq,
    List.cons.injEq, Prod.mk.injEq, true_and, and_true]
  rfl

end Parts

/-! ### The client's moves -/

lemma clientText_id (t : Text) : clientText id id t = t := by
  obtain ⟨position, attributes⟩ := t
  cases attributes <;> rfl

lemma clientField_id (f : Field) : clientField id id f = f := by
  obtain ⟨text⟩ := f
  cases text with
  | none => rfl
  | some t =>
    obtain ⟨text, knockoutShapes⟩ := t
    cases text with
    | none => rfl
    | some x => simp [clientField, clientText_id]

lemma mapMandatory_id (c : MandatoryFields) : mapMandatory id c = c := by
  simp [mapMandatory]

lemma clientDimensionStyle_id (d : DimensionStyle) : clientDimensionStyle id d = d := by
  have hmove : ∀ v, clientDimensionStyle.move id v = v := fun v => by cases v <;> rfl
  cases d <;> simp [clientDimensionStyle, hmove]

lemma clientChild_id (c : Child) : clientChild id id c = c := by
  cases c with
  | pad item => simp [clientChild]
  | text item => simp [clientChild, funext clientText_id]
  | field item => simp [clientChild, clientField_id]
  | textBox item => simp [clientChild]
  | shape item => simp [clientChild, clientGeometry_id]
  | dimension item => simp [clientChild, funext clientText_id, clientDimensionStyle_id]
  | zone item => simp [clientChild, funext clientPolySet_id]
  | barcode item => rfl
  | referencePoint item => rfl
  | referenceImage item => rfl
  | model3D item => rfl
  | other typeUrl known => rfl

lemma clientInstance_id (x : FootprintInstance) : clientInstance id id x.position x = x := by
  have hmandatory : ∀ c, clientMandatory id id c = c := fun c => by
    rw [clientMandatory, funext clientField_id]
    exact mapMandatory_id c
  have hdefinition : ∀ d, clientFootprint id id d = d := fun d => by
    simp [clientFootprint, hmandatory, funext clientChild_id]
  simp [clientInstance, hmandatory, funext hdefinition]

section Point

variable (point : Option Vector2 → Vector2)

/-- A place that is made where there is none. -/
def made (v : Option Vector2) : Option Vector2 := some (point v)

lemma mapPolySet_eq (s : PolySet) : mapPolySet point s = clientPolySet (made point) s := by
  rfl

lemma mapGeometry_eq (angle : Option Angle → Option Angle) (g : Geometry) :
    mapGeometry point angle g = clientGeometry (made point) angle g := by
  cases g with
  | polygon value => exact congrArg Geometry.polygon (mapPolySet_eq point value)
  | _ => rfl

lemma mapDimensionStyle_eq (d : DimensionStyle) :
    mapDimensionStyle point d = clientDimensionStyle (made point) d := by
  have hmove : ∀ v, mapDimensionStyle.move point v = clientDimensionStyle.move (made point) v :=
    fun v => by cases v <;> rfl
  cases d <;> simp [mapDimensionStyle, clientDimensionStyle, hmove]

lemma mapZone_eq (angle : Option Angle → Option Angle) (z : Zone) :
    .zone (mapZone point z) = clientChild (made point) angle (.zone z) := by
  simp [mapZone, clientChild, funext (mapPolySet_eq point)]

end Point

section Translated

variable (delta : Vec2)

lemma translateText_eq : translateText delta = clientText (made (shifted delta)) id :=
  funext fun t => by
    obtain ⟨position, attributes⟩ := t
    cases attributes <;> rfl

lemma translateField_eq : translateField delta = clientField (made (shifted delta)) id := by
  funext f
  rw [translateField, clientField, translateText_eq]

/-- A shifted item of a kind that may be turned. -/
lemma translateChild_eq {c : Child} (hc : accepts c = true) :
    (translateFootprintChild delta c).getD c = clientChild (made (shifted delta)) id c := by
  cases c with
  | pad item => simp [translateFootprintChild, clientChild, made]
  | field item => simp [translateFootprintChild, clientChild, translateField_eq]
  | text item => simp [translateFootprintChild, clientChild, translateText_eq]
  | textBox item => simp [translateFootprintChild, clientChild, made]
  | shape item =>
    have hshape : translateShape delta =
        fun s => ⟨clientGeometry (made (shifted delta)) id s.geometry⟩ :=
      funext fun s => by rw [translateShape, mapGeometry_eq]
    simp [translateFootprintChild, clientChild, hshape]
  | dimension item =>
    simp [translateFootprintChild, clientChild, translateText_eq, mapDimensionStyle_eq]
  | zone item => simp [translateFootprintChild, mapZone_eq _ id]
  | barcode item => rfl
  | referencePoint item => rfl
  | model3D item => rfl
  | referenceImage item => cases hc
  | other typeUrl known => cases hc

lemma translate_eq (hdelta : ¬ (delta.x = 0 ∧ delta.y = 0)) (x : FootprintInstance)
    (hc : ∀ d ∈ x.definition, ∀ c ∈ d.items, accepts c = true) :
    FootprintItems.translate delta x =
      clientInstance (made (shifted delta)) id (made (shifted delta) x.position) x := by
  have hdefinition : x.definition.map (translateDefinition delta) =
      x.definition.map (clientFootprint (made (shifted delta)) id) := by
    cases hd : x.definition with
    | none => rfl
    | some d =>
      rw [Option.map_some, translateDefinition, translateField_eq]
      have hitems := List.map_congr_left fun c hmem => translateChild_eq delta (hc d hd c hmem)
      rw [hitems]
      rfl
  rw [FootprintItems.translate, if_neg hdelta, hdefinition, translateField_eq]
  rfl

end Translated

section Rotated

variable (point : Option Vector2 → Vector2) (angle : Option Angle → Angle)

lemma rotateField_eq :
    rotateField point angle = clientField (made point) (fun a => some (angle a)) := rfl

lemma rotateChild_eq {degrees : ℚ} (hdegrees : remainder degrees 90 = 0) {c : Child}
    (hc : accepts c = true) : rotateFootprintChild point angle degrees c =
      .ok (clientChild (made point) (fun a => some (angle a)) c) := by
  cases c with
  | shape item =>
    obtain ⟨shape⟩ := item
    cases shape with
    | none => rfl
    | some s =>
      have hshape : rotateShape point angle degrees s =
          .ok ⟨clientGeometry (made point) (fun a => some (angle a)) s.geometry⟩ := by
        rw [← mapGeometry_eq]
        obtain ⟨g⟩ := s
        cases g with
        | rectangle topLeft bottomRight cornerRadius => simp [rotateShape, hdegrees, mapGeometry]
        | _ => rfl
      simp only [rotateFootprintChild, hshape]
      rfl
  | zone item => exact congrArg Except.ok (mapZone_eq point _ item)
  | dimension item =>
    simp only [rotateFootprintChild, mapDimensionStyle_eq]
    rfl
  | referenceImage item => cases hc
  | other typeUrl known => cases hc
  | _ => rfl

lemma mapM_ok {α β : Type} {F : α → Except String β} {g : α → β} {l : List α}
    (h : ∀ x ∈ l, F x = .ok (g x)) : l.mapM F = .ok (l.map g) := by
  induction l with
  | nil => rfl
  | cons x l ih =>
    rw [List.forall_mem_cons] at h
    rw [List.mapM_cons, h.1, ih h.2]
    rfl

lemma rotateDefinition_eq {degrees : ℚ} (hdegrees : remainder degrees 90 = 0) {d : Footprint}
    (hc : ∀ c ∈ d.items, accepts c = true) : rotateDefinition point angle degrees d =
      .ok (clientFootprint (made point) (fun a => some (angle a)) d) := by
  rw [rotateDefinition, mapM_ok fun c hmem => rotateChild_eq point angle hdegrees (hc c hmem)]
  rfl

end Rotated

variable {J : JsMath} {k : ℤ}

lemma remainder_quarter (j : ℤ) : remainder (90 * j) 90 = 0 := by
  have hquot : (90 * j : ℚ) / 90 = j := by ring
  rw [remainder, hquot, Int.floor_intCast, Int.ceil_intCast, sub_self, ite_self]

lemma rotate_eq (hk : k % 4 ≠ 0) (x : FootprintInstance)
    (hc : ∀ d ∈ x.definition, ∀ c ∈ d.items, accepts c = true) :
    ∃ j : ℤ, j % 4 = k % 4 ∧ rotate J (90 * k) x = .ok (clientInstance
      (made (turnedAbout J (vec2 x.position) (90 * j)))
      (fun a => some (toAngle (deg a + 90 * j))) x.position x) := by
  obtain ⟨j, hj, hmod, hzero⟩ := remainder_quarters k
  have hne : (90 * j : ℚ) ≠ 0 := by
    rw [mul_ne_zero_iff]
    exact ⟨by norm_num, Int.cast_ne_zero.mpr fun h => hk (hzero.mp h)⟩
  refine ⟨j, hmod, ?_⟩
  rw [rotate, hj, if_neg hne]
  cases hd : x.definition with
  | none =>
    simp only [hd, clientInstance, clientMandatory, rotateField_eq]
    rfl
  | some d =>
    simp only [hd, clientInstance, clientMandatory, rotateField_eq,
      rotateDefinition_eq _ _ (remainder_quarter j) (hc d hd)]
    rfl

/-! ### What is to hold of the parts -/

/-- Where nothing is moved: the web app still writes the vectors of models in whole numbers. -/
def idle : Places where
  anchor _ := True
  there _ := True
  still _ := True
  kept _ := True
  still3D v := ∀ w ∈ v, Whole ⟨w.xNm, w.yNm⟩
  angleThere _ := True
  angleKept _ := True

/-- Where all is shifted: a place that only one of them moves must not be there. -/
def shifting : Places where
  anchor v := v ≠ none
  there v := v ≠ none
  still v := v = none
  kept _ := False
  still3D v := v = none
  angleThere _ := True
  angleKept _ := True

/-- Where all is turned about a place: what only one of them turns must be at that place. -/
def turning (o : Vec2) : Places where
  anchor _ := True
  there v := v ≠ none
  still v := ∀ w ∈ v, vec2 (some w) = o
  kept v := ∃ w ∈ v, vec2 (some w) = o
  still3D v := ∀ w ∈ v, (⟨w.xNm, w.yNm⟩ : Vec2) = o
  angleThere a := a ≠ none
  angleKept _ := False

variable {o p : Vec2} {dx dy : ℤ}

lemma toVector2_vec2 (v : Vector2) : toVector2 (vec2 (some v)) = v := by
  rw [vec2, Option.elim_some, toVector2, floor_half, floor_half]

lemma vec2_some_inj {v w : Vector2} : vec2 (some v) = vec2 (some w) ↔ v = w :=
  ⟨fun h => by rw [← toVector2_vec2 v, h, toVector2_vec2], fun h => by rw [h]⟩

lemma whole_of_round {x y : ℚ} (hx : roundHalfUp x = y) : ∃ n : ℤ, y = n :=
  ⟨⌊x + 1 / 2⌋, hx.symm⟩

lemma rounded_whole (h : Whole p) : roundHalfUp p.x = p.x ∧ roundHalfUp p.y = p.y := by
  obtain ⟨a, b, rfl⟩ := h
  exact ⟨roundHalfUp_intCast a, roundHalfUp_intCast b⟩

/-- Only the place itself stays when all is turned about it, and not by whole turns. -/
lemma about_eq_iff (hk : k % 4 ≠ 0) : about o k p = p ↔ p = o := by
  have hzero : ∀ v : Vec2, turns k v = v → v = ⟨0, 0⟩ := by
    intro v hv
    obtain ⟨x, y⟩ := v
    have hcases : (k % 4).toNat = 1 ∨ (k % 4).toNat = 2 ∨ (k % 4).toNat = 3 := by omega
    rw [turns] at hv
    rcases hcases with h | h | h
    · simp only [h, Function.iterate_succ_apply, Function.iterate_zero_apply, turn,
        Vec2.mk.injEq] at hv
      rw [Vec2.mk.injEq]
      exact ⟨by linarith, by linarith⟩
    · simp only [h, Function.iterate_succ_apply, Function.iterate_zero_apply, turn,
        Vec2.mk.injEq] at hv
      rw [Vec2.mk.injEq]
      exact ⟨by linarith, by linarith⟩
    · simp only [h, Function.iterate_succ_apply, Function.iterate_zero_apply, turn,
        Vec2.mk.injEq] at hv
      rw [Vec2.mk.injEq]
      exact ⟨by linarith, by linarith⟩
  obtain ⟨px, py⟩ := p
  obtain ⟨ox, oy⟩ := o
  constructor
  · intro h
    have hv := hzero ⟨px - ox, py - oy⟩ (by
      rw [about, Vec2.mk.injEq] at h
      cases ht : turns k ⟨px - ox, py - oy⟩
      rw [ht] at h
      rw [Vec2.mk.injEq]
      exact ⟨by linarith [h.1], by linarith [h.2]⟩)
    rw [Vec2.mk.injEq] at hv ⊢
    exact ⟨by linarith [hv.1], by linarith [hv.2]⟩
  · intro h
    rw [h]
    simp [about, FootprintZones.turns_origin]

lemma bumped_eq (d a : ℚ) : bumped d a = 360 * Int.fract ((a + d) / 360) :=
  FootprintZones.remainder_add_remainder (by norm_num)

lemma bumped_eq_iff (a b : ℚ) : bumped 0 a = bumped 0 b ↔ ∃ n : ℤ, a - b = 360 * n := by
  rw [bumped_eq, bumped_eq, mul_right_inj' (by norm_num), Int.fract_eq_fract]
  refine exists_congr fun n => ?_
  rw [add_zero, add_zero, ← sub_div, div_eq_iff (by norm_num), mul_comm]

lemma bumped_bumped (d a : ℚ) : bumped 0 (bumped d a) = bumped 0 (a + d) := by
  rw [bumped_eq_iff, bumped_eq]
  refine ⟨-⌊(a + d) / 360⌋, ?_⟩
  rw [Int.fract]
  push_cast
  ring

/-! ### The moves -/

/-- Nothing is moved, and an angle is only written otherwise. -/
def stayMover (turned reading : ℚ → ℚ) (h : ∀ a, reading a = reading (turned a)) : Mover where
  move := id
  turned := turned
  place := id
  angle := id
  reading := reading
  place_some v := by rw [id, id, toVector2_vec2]
  angle_some a := ⟨a, rfl, h _⟩

/-- All is shifted, and no angle is turned. -/
def shiftMover (dx dy : ℤ) : Mover where
  move v := ⟨v.x + dx, v.y + dy⟩
  turned := id
  place := made (shifted ⟨dx, dy⟩)
  angle := id
  reading := id
  place_some _ := rfl
  angle_some a := ⟨a, rfl, rfl⟩

/-- All is turned about a place, by as many quarters to either. -/
def turnMover (J : JsMath) (o : Vec2) (ho : Whole o) (j k : ℤ) (hmod : j % 4 = k % 4) :
    Mover where
  move := about o k
  turned := bumped (90 * k)
  place := made (turnedAbout J o (90 * j))
  angle a := some (toAngle (deg a + 90 * j))
  reading := bumped 0
  place_some v := by
    rw [made, ← toVector2_vec2 (turnedAbout J o (90 * j) (some v)), vec2_turnedAbout ho,
      FootprintZones.about_emod o hmod]
  angle_some a := by
    refine ⟨_, rfl, ?_⟩
    rw [bumped_bumped, bumped_eq_iff]
    refine ⟨(j - k) / 4, ?_⟩
    have hdiv : ((j - k : ℤ) : ℚ) = 4 * ((j - k) / 4 : ℤ) := by
      exact_mod_cast (by omega : j - k = 4 * ((j - k) / 4))
    push_cast at hdiv
    simp only [toAngle, deg, Option.elim_some]
    linarith

lemma judges_stay {turned reading : ℚ → ℚ} (h : ∀ a, reading a = reading (turned a)) :
    Judges (stayMover turned reading h) idle := by
  have hplace : ∀ v, webPlace (stayMover turned reading h) v = v := by
    intro v
    cases v with
    | none => rfl
    | some v => exact congrArg some (toVector2_vec2 v)
  constructor
  · exact fun v => iff_of_true (hplace v) trivial
  · exact fun v => iff_of_true (hplace v) trivial
  · exact fun v => iff_of_true rfl trivial
  · intro v
    cases v with
    | none => exact iff_of_true rfl nofun
    | some v =>
      obtain ⟨x, y, z⟩ := v
      simp only [Option.map_some, Option.some.injEq, webVector3D, stayMover, id,
        Vector3D.mk.injEq, and_true, idle, Option.mem_def, forall_eq']
      constructor
      · rintro ⟨hx, hy⟩
        obtain ⟨a, rfl⟩ := whole_of_round hx
        obtain ⟨b, rfl⟩ := whole_of_round hy
        exact ⟨a, b, rfl⟩
      · exact rounded_whole
  · intro a
    refine iff_of_true ?_ trivial
    cases a with
    | none => rfl
    | some a => exact congrArg some (h _).symm
  · exact fun a => iff_of_true rfl trivial

lemma shifted_ne (hdelta : ¬ (dx = 0 ∧ dy = 0)) (v : Vector2) : shifted ⟨dx, dy⟩ (some v) ≠ v := by
  intro h
  have hvec := vec2_shifted dx dy (some v)
  rw [h] at hvec
  simp only [vec2, Option.elim_some, Vec2.mk.injEq, left_eq_add, Int.cast_eq_zero] at hvec
  exact hdelta hvec

lemma judges_shift (hdelta : ¬ (dx = 0 ∧ dy = 0)) : Judges (shiftMover dx dy) shifting := by
  constructor
  · intro v
    cases v with
    | none => exact iff_of_false nofun fun h => h rfl
    | some v => exact iff_of_true rfl nofun
  · intro v
    cases v with
    | none => exact iff_of_true rfl rfl
    | some v =>
      exact iff_of_false (fun h => shifted_ne hdelta v (Option.some.inj h)) nofun
  · intro v
    cases v with
    | none => exact iff_of_false nofun id
    | some v => exact iff_of_false (fun h => shifted_ne hdelta v (Option.some.inj h).symm) id
  · intro v
    cases v with
    | none => exact iff_of_true rfl rfl
    | some v =>
      refine iff_of_false (fun h => hdelta ?_) nofun
      obtain ⟨x, y, z⟩ := v
      simp only [Option.map_some, Option.some.injEq, webVector3D, shiftMover, Vector3D.mk.injEq,
        and_true] at h
      obtain ⟨hx, hy⟩ := h
      obtain ⟨a, rfl⟩ := whole_of_round hx
      obtain ⟨b, rfl⟩ := whole_of_round hy
      rw [FootprintZones.roundHalfUp_intCast_add, roundHalfUp_intCast, add_eq_left,
        Int.cast_eq_zero] at hx hy
      exact ⟨hx, hy⟩
  · intro a
    refine iff_of_true ?_ trivial
    cases a with
    | none => rfl
    | some a => rfl
  · exact fun a => iff_of_true rfl trivial

lemma judges_turn (ho : Whole o) {j : ℤ} (hmod : j % 4 = k % 4) (hk : k % 4 ≠ 0) :
    Judges (turnMover J o ho j k hmod) (turning o) := by
  have hsome : ∀ v : Vector2, toVector2 (about o k (vec2 (some v))) = v ↔ vec2 (some v) = o := by
    intro v
    rw [← about_eq_iff hk, ← vec2_some_inj, vec2_toVector2 ((whole_vec2 _).about ho)]
  have hplace : ∀ v, some (turnedAbout J o (90 * j) (some v)) =
      some (toVector2 (about o k (vec2 (some v)))) := (turnMover J o ho j k hmod).place_some
  constructor
  · intro v
    cases v with
    | none => exact iff_of_false nofun fun h => h rfl
    | some v => exact iff_of_true (hplace v).symm nofun
  · intro v
    cases v with
    | none => exact iff_of_true rfl nofun
    | some v =>
      simp only [turning, Option.mem_def, Option.some.injEq, forall_eq', ← hsome]
      change some (toVector2 (about o k (vec2 (some v)))) = some v ↔ _
      rw [Option.some.injEq]
  · intro v
    cases v with
    | none => exact iff_of_false nofun (fun ⟨_, h, _⟩ => nomatch h)
    | some v =>
      simp only [turning, Option.mem_def, Option.some.injEq, exists_eq_left', ← hsome]
      change some v = some (turnedAbout J o (90 * j) (some v)) ↔ _
      rw [hplace, Option.some.injEq, eq_comm]
  · intro v
    cases v with
    | none => exact iff_of_true rfl nofun
    | some v =>
      obtain ⟨x, y, z⟩ := v
      simp only [Option.map_some, Option.some.injEq, webVector3D, turnMover, Vector3D.mk.injEq,
        and_true, turning, Option.mem_def, forall_eq']
      constructor
      · rintro ⟨hx, hy⟩
        obtain ⟨a, ha⟩ := whole_of_round hx
        obtain ⟨b, hb⟩ := whole_of_round hy
        have hwhole : Whole ⟨x, y⟩ := ⟨a, b, by rw [ha, hb]⟩
        obtain ⟨hx', hy'⟩ := rounded_whole (hwhole.about ho (k := k))
        rw [← about_eq_iff hk]
        rw [hx'] at hx
        rw [hy'] at hy
        cases h : about o k ⟨x, y⟩
        rw [h] at hx hy
        rw [Vec2.mk.injEq]
        exact ⟨hx, hy⟩
      · intro h
        have hstay : about o k ⟨x, y⟩ = ⟨x, y⟩ := (about_eq_iff hk).mpr h
        rw [hstay]
        exact rounded_whole (h ▸ ho)
  · intro a
    cases a with
    | none => exact iff_of_false nofun fun h => h rfl
    | some a =>
      refine iff_of_true ?_ nofun
      obtain ⟨b, hb, hread⟩ := (turnMover J o ho j k hmod).angle_some a
      rw [hb]
      exact congrArg some hread.symm
  · intro a
    refine iff_of_false ?_ id
    cases a with
    | none => nofun
    | some a =>
      intro h
      have hread : bumped 0 a.valueDegrees = bumped 0 (a.valueDegrees + 90 * j) :=
        Option.some.inj h
      obtain ⟨n, hn⟩ := (bumped_eq_iff _ _).mp hread
      have hj : (j : ℚ) = 4 * (-n : ℤ) := by
        push_cast
        linarith
      have hj' : j = 4 * -n := by exact_mod_cast hj
      omega

/-! ### Both moves of a footprint -/

/-- A footprint in the store. -/
def stored (x : FootprintInstance) (bbox : Option Box) : StoredItem :=
  ⟨"KOT_PCB_FOOTPRINT", footprintInstanceJs x, bbox⟩

lemma seen_id {M : Mover} (h : M.reading = id) (t : Js) : seen M t = t := by
  rw [seen, h, readAs_id]

lemma bumpChild_id (t : Js) : bumpChild id t = t := by
  simp [bumpChild, textAngle, bump, bumpNum_id, modifyAt_id]

lemma bumpProto_id (t : Js) : bumpProto id t = t := by
  simp [bumpProto, textAngle, bump, bumpNum_id, modifyAt_id, List.foldl_cons, List.foldl_nil]

variable {x : FootprintInstance} {bbox : Option Box}

lemma webPlace_stay {turned reading : ℚ → ℚ} (h : ∀ a, reading a = reading (turned a))
    (v : Option Vector2) : webPlace (stayMover turned reading h) v = v :=
  ((judges_stay h).there v).mpr trivial

lemma stay_iff {turned reading : ℚ → ℚ} (h : ∀ a, reading a = reading (turned a))
    (hc : ∀ d ∈ x.definition, ∀ c ∈ d.items, accepts c = true) :
    readAs reading (mapDefinitionItems (fun m => bumpChild turned (walk id "" m))
        (bumpProto turned (walk id "" (footprintInstanceJs x)))) =
      readAs reading (footprintInstanceJs x) ↔ Alike idle x := by
  have hinstance := seen_instance (judges_stay h)
    (iff_of_true (webPlace_stay h x.position) trivial) hc
  rwa [show clientInstance (stayMover turned reading h).place (stayMover turned reading h).angle
    x.position x = x from clientInstance_id x] at hinstance

lemma translateItem_iff (hc : ∀ d ∈ x.definition, ∀ c ∈ d.items, accepts c = true) :
    (translateItem (stored x bbox) dx dy).proto =
        footprintInstanceJs (FootprintItems.translate ⟨dx, dy⟩ x) ↔
      Alike (if dx = 0 ∧ dy = 0 then idle else shifting) x := by
  have hproto : (translateItem (stored x bbox) dx dy).proto =
      mapDefinitionItems (fun m => bumpChild id (walk (fun v => ⟨v.x + dx, v.y + dy⟩) "" m))
        (bumpProto id (walk (fun v => ⟨v.x + dx, v.y + dy⟩) "" (footprintInstanceJs x))) := by
    simp only [bumpChild_id, bumpProto_id]
    rfl
  rw [hproto]
  by_cases hdelta : dx = 0 ∧ dy = 0
  · have hmove : (fun v : Vec2 => (⟨v.x + dx, v.y + dy⟩ : Vec2)) = id := by
      funext v
      simp [hdelta.1, hdelta.2]
    have hclient : FootprintItems.translate ⟨dx, dy⟩ x = x :=
      if_pos ⟨Int.cast_eq_zero.mpr hdelta.1, Int.cast_eq_zero.mpr hdelta.2⟩
    have hstay := stay_iff (fun a : ℚ => (rfl : id a = id (id a))) hc
    rw [readAs_id, readAs_id] at hstay
    rw [if_pos hdelta, hmove, hclient]
    exact hstay
  · have hclient := translate_eq ⟨dx, dy⟩ (fun h : (dx : ℚ) = 0 ∧ (dy : ℚ) = 0 =>
      hdelta ⟨Int.cast_eq_zero.mp h.1, Int.cast_eq_zero.mp h.2⟩) x hc
    have hplace : webPlace (shiftMover dx dy) x.position =
        made (shifted ⟨dx, dy⟩) x.position ↔ shifting.anchor x.position :=
      (judges_shift hdelta).there x.position
    have hshift := seen_instance (judges_shift hdelta) hplace hc
    rw [seen_id rfl, seen_id rfl] at hshift
    rw [if_neg hdelta, hclient]
    exact hshift

lemma rotateItem_proto (cx cy d : ℚ) : (rotateItem J (stored x bbox) cx cy d).proto =
    mapDefinitionItems (fun m => bumpChild (bumped d) (walk (rotatedAbout J cx cy d) "" m))
      (bumpProto (bumped d) (walk (rotatedAbout J cx cy d) "" (footprintInstanceJs x))) := by
  change modifyAt (turnSymbol d) ["transform", "orientation"] (mapDefinitionItems _
    (bumpProto (bumped d) (walk (rotatedAbout J cx cy d) "" (footprintInstanceJs x)))) = _
  rw [web_instance]
  simp [modifyAt, List.map_cons, List.map_nil, String.reduceEq]

lemma rotatedAbout_quarters (o : Vec2) (k : ℤ) :
    rotatedAbout J o.x o.y (90 * k) = about o k := by
  funext v
  have hrot := rot_quarters (J := J) (v := ⟨v.x - o.x, v.y - o.y⟩) k
  rw [about, ← hrot, rot, rotatedAbout, Vec2.mk.injEq]
  exact ⟨by ring, by ring⟩

lemma about_whole_turns (hk : k % 4 = 0) : about o k = id := by
  funext v
  rw [about, ← turns_emod, hk, turns_zero]
  simp

lemma rotateItem_iff (hc : ∀ d ∈ x.definition, ∀ c ∈ d.items, accepts c = true) :
    ∃ x', rotate J (90 * k) x = .ok x' ∧
      (readAs (bumped 0) (rotateItem J (stored x bbox) (vec2 x.position).x (vec2 x.position).y
          (90 * k)).proto = readAs (bumped 0) (footprintInstanceJs x') ↔
        Alike (if k % 4 = 0 then idle else turning (vec2 x.position)) x) := by
  rw [rotateItem_proto, rotatedAbout_quarters]
  by_cases hk : k % 4 = 0
  · obtain ⟨j, hj, -, hzero⟩ := remainder_quarters k
    refine ⟨x, ?_, ?_⟩
    · rw [rotate, hj, hzero.mpr hk, Int.cast_zero, mul_zero, if_pos rfl]
    · rw [if_pos hk, about_whole_turns hk]
      refine stay_iff (fun a => ?_) hc
      rw [bumped_bumped, bumped_eq_iff]
      refine ⟨-(k / 4), ?_⟩
      have hdiv : (k : ℚ) = 4 * (k / 4 : ℤ) := by exact_mod_cast (by omega : k = 4 * (k / 4))
      push_cast at hdiv ⊢
      linarith
  · obtain ⟨j, hmod, hrotate⟩ := rotate_eq (J := J) hk x hc
    refine ⟨_, hrotate, ?_⟩
    have ho : Whole (vec2 x.position) := whole_vec2 _
    have hplace : webPlace (turnMover J (vec2 x.position) ho j k hmod) x.position =
        x.position ↔ (turning (vec2 x.position)).anchor x.position := by
      refine iff_of_true (((judges_turn ho hmod hk).still _).mpr fun w hw => ?_) trivial
      rw [Option.mem_def.mp hw]
    rw [if_neg hk]
    exact seen_instance (judges_turn ho hmod hk) hplace hc

/-- **Where the two moves of a footprint agree**, its items being of the kinds that may be turned.
A shift agrees just where every place that the client would make is there and none is that the
web app alone moves, or the client alone; a turn about the footprint by whole quarters, angles
being read up to whole turns, just where the same holds but for places at the footprint's own,
every angle that the client would make is there, and there is none that the web app leaves. Where
nothing is moved, just the vectors of models are to be whole. -/
theorem movers_agree_iff (J : JsMath) (x : FootprintInstance) (bbox : Option Box) (dx dy k : ℤ)
    (hc : ∀ d ∈ x.definition, ∀ c ∈ d.items, accepts c = true) :
    ((translateItem (stored x bbox) dx dy).proto =
        footprintInstanceJs (FootprintItems.translate ⟨dx, dy⟩ x) ↔
      Alike (if dx = 0 ∧ dy = 0 then idle else shifting) x) ∧
    ∃ x', rotate J (90 * k) x = .ok x' ∧
      (readAs (bumped 0) (rotateItem J (stored x bbox) (vec2 x.position).x (vec2 x.position).y
          (90 * k)).proto = readAs (bumped 0) (footprintInstanceJs x') ↔
        Alike (if k % 4 = 0 then idle else turning (vec2 x.position)) x) :=
  ⟨translateItem_iff hc, rotateItem_iff hc⟩

/-- A footprint with one item. -/
def withItem (c : Child) : FootprintInstance where
  referenceField := none
  valueField := none
  datasheetField := none
  descriptionField := none
  position := some ⟨0, 0⟩
  orientation := some ⟨0⟩
  definition := some ⟨⟨none, none, none, none⟩, none, [c]⟩

lemma forall_mem_withItem {p : Footprint → Prop} {c : Child}
    (h : p ⟨⟨none, none, none, none⟩, none, [c]⟩) : ∀ d ∈ (withItem c).definition, p d := by
  intro d hd
  rwa [← Option.some.inj hd]

lemma accepts_withItem {c : Child} (h : accepts c = true) :
    ∀ d ∈ (withItem c).definition, ∀ c' ∈ d.items, accepts c' = true :=
  forall_mem_withItem fun _ hc' => (List.mem_singleton.mp hc').symm ▸ h

lemma alike_withItem {P : Places} {c : Child} (hanchor : P.anchor (some ⟨0, 0⟩))
    (hangle : P.angleThere (some ⟨0⟩)) : Alike P (withItem c) ↔ AlikeChild P c := by
  constructor
  · exact fun h => h.items _ rfl c (List.mem_singleton.mpr rfl)
  · intro h
    refine ⟨hanchor, hangle, ⟨nofun, nofun, nofun, nofun⟩, ?_, ?_⟩
    · exact forall_mem_withItem ⟨nofun, nofun, nofun, nofun⟩
    · exact forall_mem_withItem fun _ hc' => (List.mem_singleton.mp hc').symm ▸ h

/-- A pad is moved alike by both. -/
theorem movers_agree_withItem :
    (translateItem (stored (withItem (.pad ⟨none, some ⟨5, 0⟩⟩)) none) (10 : ℤ) (0 : ℤ)).proto =
      footprintInstanceJs (FootprintItems.translate ⟨(10 : ℤ), (0 : ℤ)⟩
        (withItem (.pad ⟨none, some ⟨5, 0⟩⟩))) := by
  have h := (movers_agree_iff FootprintZones.quarterMath (withItem (.pad ⟨none, some ⟨5, 0⟩⟩))
    none 10 0 1 (accepts_withItem rfl)).1
  have hpad : AlikeChild shifting (.pad ⟨none, some ⟨5, 0⟩⟩) := ⟨nofun, nofun⟩
  exact h.mpr ((alike_withItem (P := shifting) (Option.some_ne_none _) trivial).mpr hpad)

/-- The scale of a 3D model is moved by the web app. -/
theorem scale_of_model_moves :
    (translateItem (stored (withItem (.model3D ⟨some ⟨1, 1, 1⟩, none, none⟩)) none) (10 : ℤ)
        (0 : ℤ)).proto ≠
      footprintInstanceJs (FootprintItems.translate ⟨(10 : ℤ), (0 : ℤ)⟩
        (withItem (.model3D ⟨some ⟨1, 1, 1⟩, none, none⟩))) := by
  intro h
  have halike := (translateItem_iff (accepts_withItem rfl)).mp h
  have hmodel := halike.items _ rfl _ (List.mem_singleton.mpr rfl)
  cases hmodel.1

end FabPcb.FootprintMovers
