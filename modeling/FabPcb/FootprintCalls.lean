import FabPcb.FootprintMovers

/-!
The calls that move a footprint, with what they may throw.

A coordinate is read as a number, and one outside the range of the whole numbers that a number
holds exactly is refused. `rotate` works on a copy of the snapshot, which takes the place of the
snapshot last of all.
-/

namespace FabPcb.FootprintCalls

open FootprintItems FootprintMovers
open SpecctraData (Vec2)

/-! ### Reading coordinates -/

/-- `Number.MAX_SAFE_INTEGER`. -/
def maxSafe : ℤ := 2 ^ 53 - 1

def isUnsafe (v : ℤ) : Bool := maxSafe < v || v < -maxSafe

/-- `fromBigInt` of each number in turn. -/
def fromBigInts (numbers : List ℤ) : Except String Unit :=
  match numbers.find? isUnsafe with
  | none => .ok ()
  | some v => .error ("int64 value " ++ toString v ++ " exceeds the safe integer range")

def coordinates (v : Option Vector2) : List ℤ := v.elim [] fun v => [v.xNm, v.yNm]

/-- `vec2` of each place in turn. -/
def readPlaces (places : List (Option Vector2)) : Except String Unit :=
  fromBigInts (places.flatMap coordinates)

/-! ### The places that are read -/

def textPlaces (text : Option Text) : List (Option Vector2) := text.elim [] fun t => [t.position]

def fieldPlaces (field : Field) : List (Option Vector2) :=
  field.text.elim [] fun t => textPlaces t.text

def mandatoryFields (container : MandatoryFields) : List Field :=
  [container.referenceField, container.valueField, container.datasheetField,
    container.descriptionField].filterMap id

def stylePlaces : DimensionStyle → List (Option Vector2)
  | .aligned start stop => [start, stop]
  | .orthogonal start stop => [start, stop]
  | .radial center radiusPoint => [center, radiusPoint]
  | .leader start stop => [start, stop]
  | .center center stop => [stop, center]
  | .unset => []

def polySetPlaces (s : Option PolySet) : List (Option Vector2) := s.elim [] PolySet.places

/-- The places of an embedded item, those of a kind that is not moved left out. -/
def childPlaces : Child → List (Option Vector2)
  | .pad item => [item.position]
  | .referenceImage item => [item.position]
  | .referencePoint item => [item.position]
  | .barcode item => [item.position]
  | .field item => fieldPlaces item
  | .text item => textPlaces item.text
  | .textBox item => item.textbox.elim [] fun box => [box.topLeft, box.bottomRight]
  | .shape item => item.shape.elim [] fun shape => Geometry.places shape.geometry
  | .dimension item => textPlaces item.text ++ stylePlaces item.dimensionStyle
  | .zone item =>
    polySetPlaces item.outline ++ item.filledPolygons.flatMap fun f => polySetPlaces f.shapes
  | .model3D _ => []
  | .other .. => []

def mandatoryPlaces (container : MandatoryFields) : List (Option Vector2) :=
  (mandatoryFields container).flatMap fieldPlaces

def definitionPlaces (definition : Footprint) : List (Option Vector2) :=
  mandatoryPlaces definition.toMandatoryFields ++ definition.items.flatMap childPlaces

def places (proto : FootprintInstance) : List (Option Vector2) :=
  proto.position :: mandatoryPlaces proto.toMandatoryFields ++
    proto.definition.elim [] definitionPlaces

/-! ### The calls -/

/-- `Footprint.translate`: the snapshot after the call. -/
def translateCall (delta : Vec2) (proto : FootprintInstance) : Except String FootprintInstance :=
  if delta.x = 0 ∧ delta.y = 0 then .ok proto
  else (readPlaces (places proto)).map fun _ => FootprintItems.translate delta proto

/-- The snapshot of a footprint, and the copy that `rotate` makes of it. -/
structure Objects where
  proto : FootprintInstance
  next : FootprintInstance
  deriving DecidableEq

/-- Code that changes the objects and may throw; what it has changed stays changed. -/
abbrev Action := ExceptT String (StateM Objects)

def attempt {α : Type} (r : Except String α) : Action α := ExceptT.mk (pure r)

/-- A change to the copy. -/
def onNext (f : FootprintInstance → FootprintInstance) : Action Unit :=
  modify fun o => { o with next := f o.next }

def onDefinition (f : Footprint → Footprint) : Action Unit :=
  onNext fun next => { next with definition := next.definition.map f }

/-- The corner radius that `rotateShape` reads before it makes a polygon of a rectangle. -/
def cornerRadiusRead (degrees : ℚ) : Child → List ℤ
  | .shape ⟨some ⟨.rectangle _ _ cornerRadius⟩⟩ =>
    if remainder degrees 90 = 0 then [] else cornerRadius.toList
  | _ => []

section

variable (point : Option Vector2 → Vector2) (angle : Option Angle → Angle) (degrees : ℚ)

/-- `rotateFootprintChild`. A kind that cannot be turned is refused with none of its places
read. -/
def rotateChild (child : Child) : Except String Child := do
  fromBigInts (cornerRadiusRead degrees child)
  let item ← rotateFootprintChild point angle degrees child
  readPlaces (childPlaces child)
  return item

/-- What `rotate` does with the definition of the copy. -/
def rotateNextDefinition (definition : Footprint) : Action Unit := do
  attempt (readPlaces (mandatoryPlaces definition.toMandatoryFields))
  onDefinition fun d =>
    { d with toMandatoryFields := mapMandatory (rotateField point angle) d.toMandatoryFields }
  let items ← attempt (definition.items.mapM (rotateChild point angle degrees))
  onDefinition fun d => { d with items := items }

/-- What `rotate` does with the copy. -/
def rotateNext (next : FootprintInstance) : Action Unit := do
  attempt (readPlaces (mandatoryPlaces next.toMandatoryFields))
  onNext fun next =>
    { next with
      toMandatoryFields := mapMandatory (rotateField point angle) next.toMandatoryFields }
  next.definition.elim (pure ()) (rotateNextDefinition point angle degrees)
  onNext fun next => { next with orientation := some (angle next.orientation) }

end

/-- `Footprint.rotate`; no number of degrees stands for one that is not finite. -/
def rotateAction (J : JsMath) (degrees : Option ℚ) : Action Unit :=
  degrees.elim (throw "footprint rotation must be finite") fun turn => do
    let degrees := remainder turn 360
    if degrees = 0 then return
    modify fun o => { o with next := o.proto }
    let next := (← get).next
    attempt (readPlaces [next.position])
    let point := turnedAbout J (vec2 next.position) degrees
    rotateNext point (fun value => toAngle (deg value + degrees)) degrees next
    modify fun o => { o with proto := o.next }

/-- What a footprint is after `rotate`, and what the call throws. -/
def rotateCall (J : JsMath) (degrees : Option ℚ) (proto : FootprintInstance) :
    Except String Unit × FootprintInstance :=
  let after := (rotateAction J degrees).run.run ⟨proto, proto⟩
  (after.1, after.2.proto)

end FabPcb.FootprintCalls
