import FabPcb.EmitterRoundTrip
import FabPcb.SpecctraData
import Mathlib.Data.List.Sort

/-!
The writer of Specctra DSN files: `writeDsn`.

A file is its forms. Names are as they are written, between quotation marks where they need them, and
lengths are in the unit of the file, micrometres, with y up. What `drillClearanceDsn` adds to a
finished file is not part of it.
-/

namespace FabPcb.DsnWriter

open OrderedMap
open EmitterRoundTrip (quote)
open SpecctraData (Vec2 BoardLayer RouteLayer RouteNet RouteTrack RouteVia RouteNetRules
  Numerals roundHalfUp)

/-! ### The input -/

structure Box where
  x : ℚ
  y : ℚ
  w : ℚ
  h : ℚ

inductive PadShape where
  | circle
  | rect
  | oval
  | roundrect
  | trapezoid
  | chamferedrect
  | custom
  deriving DecidableEq

structure RoutePad where
  id : String
  /-- The reference of its footprint. -/
  footprint : String
  number : String
  net : String
  position : Vec2
  size : Vec2
  shape : PadShape
  rotation : ℚ
  /-- The copper layers that it has copper on. -/
  layers : List BoardLayer
  bounds : Option Box
  /-- Of a plated hole, unless it is said not to be plated. -/
  through : Bool := false
  nonPlated : Bool := false
  drill : ℚ := 0
  /-- Both lengths of a drill. -/
  drillSize : Option Vec2 := none
  collisionGeometryUnsupported : Bool := false

structure RouteKeepout where
  id : String
  name : String
  layers : List BoardLayer
  polygon : List Vec2
  tracks : Bool
  vias : Bool
  copper : Bool

structure RouteZone where
  net : String
  layers : List BoardLayer
  polygon : List Vec2

structure RouteObstacle where
  id : String
  kind : String
  layers : List BoardLayer
  bounds : Box

structure NetRules extends RouteNetRules where
  netClass : String
  clearance : ℚ

structure RouteRules where
  minClearance : ℚ
  minTrackWidth : ℚ
  minViaDiameter : ℚ
  minViaDrill : ℚ
  holeToHole : ℚ
  holeClearance : Option ℚ
  default : NetRules
  perNet : OMap String NetRules

/-- Widths and gaps in millimetres. -/
structure DifferentialPair where
  p : String
  n : String
  widthMm : Option ℚ
  gapMm : Option ℚ
  skewToleranceMm : Option ℚ

structure RouteInput where
  boardName : String
  outline : List (List Vec2)
  bounds : Box
  copperLayers : List RouteLayer
  nets : List RouteNet
  pads : List RoutePad
  tracks : List RouteTrack
  vias : List RouteVia
  keepouts : List RouteKeepout
  zones : List RouteZone
  obstacles : List RouteObstacle
  rules : RouteRules
  differentialPairs : List DifferentialPair := []

structure DsnOptions where
  name : Option String := none
  /-- The layers to publish. -/
  layers : Option (List BoardLayer) := none
  /-- Diameters and drills. -/
  extraVias : List (ℚ × ℚ) := []
  /-- The nets that get pins, if not all. -/
  routableNets : Option (List String) := none

/-- Rules for a net: its class's, or the default. -/
def rulesForNet (input : RouteInput) (net : String) : NetRules :=
  (input.rules.perNet.get? net).getD input.rules.default

/-! ### Layers -/

def isCopperLayer (l : BoardLayer) : Bool := 3 ≤ l && l ≤ 34

def copperLayersInOrder (layers : List BoardLayer) : List BoardLayer :=
  ((layers.filter isCopperLayer).dedup).insertionSort (· ≤ ·)

/-- The name of a copper layer in the enumeration. -/
def enumName (l : BoardLayer) : String :=
  if l = 3 then "BL_F_Cu" else if l = 34 then "BL_B_Cu" else "BL_In" ++ toString (l - 3) ++ "_Cu"

section Layers

variable (input : RouteInput) (opts : DsnOptions)

def layerIds : List BoardLayer :=
  copperLayersInOrder (opts.layers.getD (input.copperLayers.map (·.id)))

def exportedLayer (id : BoardLayer) : RouteLayer :=
  (input.copperLayers.find? (·.id = id)).getD ⟨id, enumName id, enumName id⟩

def layers : List RouteLayer := (layerIds input opts).map (exportedLayer input)

def layerName : OMap BoardLayer String :=
  OMap.ofList ((layers input opts).map fun l => (l.id, l.userName))

/-- The name of a layer, if it is exported and has one. -/
def lname (id : BoardLayer) : Option String :=
  ((layerName input opts).get? id).filter (· ≠ "")

end Layers

/-! ### Tokens and numbers -/

/-- A name as it is written. -/
abbrev Token := List Char

def token (s : String) : Token := quote s.toList

/-- Nanometres in the unit of the file, to a tenth of a micrometre. -/
def um (nm : ℚ) : ℚ := roundHalfUp (nm / 100) / 10

/-- A point, y up. -/
def pt (v : Vec2) : Vec2 := ⟨um v.x, um (-v.y)⟩

/-- Whole micrometres, in names. -/
def whole (nm : ℚ) : String := toString (⌊nm / 1000 + 1 / 2⌋ : ℤ)

def viaPadstackName (diameter drill : ℚ) (layerCount : ℕ) : String :=
  "Via[0-" ++ toString ((layerCount : ℤ) - 1) ++ "]_" ++ whole diameter ++ ":" ++ whole drill ++ "_um"

/-- `A`, `T` and `B`. -/
inductive Side where
  | all
  | top
  | bottom
  deriving DecidableEq

def sideOf (front back : Bool) : Side := if front && back then .all else if front then .top else .bottom

def Side.letter : Side → String
  | .all => "A"
  | .top => "T"
  | .bottom => "B"

def padstackName (pad : RoutePad) (side : Side) : String :=
  let w := whole pad.size.x
  let h := whole pad.size.y
  match pad.shape with
  | .circle => "Round[" ++ side.letter ++ "]Pad_" ++ w ++ "_um"
  | .oval => "Oval[" ++ side.letter ++ "]Pad_" ++ w ++ "x" ++ h ++ "_um"
  | .roundrect => "RoundRect[" ++ side.letter ++ "]Pad_" ++ w ++ "x" ++ h ++ "_um"
  | .chamferedrect => "ChamferedRect[" ++ side.letter ++ "]Pad_" ++ w ++ "x" ++ h ++ "_um"
  | _ => "Rect[" ++ side.letter ++ "]Pad_" ++ w ++ "x" ++ h ++ "_um"

/-- Copper on a layer, about the origin. -/
inductive Geometry where
  | circle (diameter : ℚ)
  | path (width : ℚ) (start stop : Vec2)
  | rect (corner corner' : Vec2)
  deriving DecidableEq

structure Shape where
  layer : Token
  geometry : Geometry
  deriving DecidableEq

/-- The shape of a pad: rectangles also stand for rounded, chamfered and custom ones. -/
def padGeometry (pad : RoutePad) : Geometry :=
  let w := pad.size.x
  let h := pad.size.y
  match pad.shape with
  | .circle => .circle (um (max w h))
  | .oval =>
    if |w - h| < 1000 then .circle (um w)
    else
      let d := min w h
      let half := (max w h - d) / 2
      if h < w then .path (um d) ⟨um (-half), 0⟩ ⟨um half, 0⟩
      else .path (um d) ⟨0, um (-half)⟩ ⟨0, um half⟩
  | _ => .rect ⟨um (-w / 2), um (-h / 2)⟩ ⟨um (w / 2), um (h / 2)⟩

/-! ### The file -/

inductive Boundary where
  | path (points : List Vec2)
  | rect (corner corner' : Vec2)

inductive Area where
  | polygon (points : List Vec2)
  | rect (corner corner' : Vec2)

structure Plane where
  net : Token
  layer : Token
  polygon : List Vec2

inductive KeepoutKind where
  | keepout
  | wireKeepout
  | viaKeepout

structure Keepout where
  kind : KeepoutKind
  name : Token
  layer : Token
  area : Area

/-- A pad in the placement. -/
structure Component where
  image : Token
  place : Token
  position : Vec2

structure Image where
  name : Token
  padstack : Token
  rotation : Option ℚ

structure Padstack where
  name : Token
  shapes : List Shape

structure Net where
  name : Token
  pins : List Token

structure NetClass where
  name : Token
  nets : List Token
  via : Token
  width : ℚ
  clearance : ℚ

structure Wire where
  layer : Token
  width : ℚ
  start : Vec2
  stop : Vec2
  net : Option Token

structure ViaUse where
  padstack : Token
  position : Vec2
  net : Option Token

structure Dsn where
  name : Token
  layers : List Token
  boundary : Boundary
  planes : List Plane
  keepouts : List Keepout
  /-- The via padstacks, and the rule of the structure: width and clearance. -/
  vias : List Token
  width : ℚ
  clearance : ℚ
  components : List Component
  images : List Image
  padstacks : List Padstack
  nets : List Net
  classes : List NetClass
  wires : List Wire
  viaUses : List ViaUse

/-! ### `writeDsn` -/

def rectOf (b : Box) : Vec2 × Vec2 :=
  (⟨um b.x, um (-(b.y + b.h))⟩, ⟨um (b.x + b.w), um (-b.y)⟩)

def boundaryOf (input : RouteInput) : Boundary :=
  match input.outline with
  | outer :: _ => .path (outer.map pt)
  | [] => .rect (rectOf input.bounds).1 (rectOf input.bounds).2

section Structure

variable (input : RouteInput) (opts : DsnOptions)

def planes : List Plane :=
  (input.zones.filter (·.net ≠ "")).flatMap fun z =>
    (z.layers.filterMap (lname input opts)).map fun l => ⟨token z.net, token l, z.polygon.map pt⟩

def keepoutKind (k : RouteKeepout) : KeepoutKind :=
  if k.copper || (k.tracks && k.vias) then .keepout else if k.tracks then .wireKeepout else .viaKeepout

def areaKeepouts : List Keepout :=
  (input.keepouts.filter fun k => k.tracks || k.copper || k.vias).flatMap fun k =>
    ((if k.layers = [] then layerIds input opts else k.layers).filterMap (lname input opts)).map
      fun l => ⟨keepoutKind k, token (if k.name = "" then k.id else k.name), token l,
        .polygon (k.polygon.map pt)⟩

def obstacleKeepouts : List Keepout :=
  input.obstacles.flatMap fun g =>
    (g.layers.filterMap (lname input opts)).map fun l =>
      ⟨.keepout, token (g.kind ++ "-" ++ g.id), token l, .rect (rectOf g.bounds).1 (rectOf g.bounds).2⟩

/-! #### Vias -/

def viaName (size : ℚ × ℚ) : String := viaPadstackName size.1 size.2 (layers input opts).length

def ruleVia (r : NetRules) : ℚ × ℚ := (r.viaDiameter, r.viaDrill)

/-- The sizes of the library, in their order: diameters and drills. -/
def viaSizes : List (ℚ × ℚ) :=
  ruleVia input.rules.default ::
    (input.rules.perNet.values.map ruleVia ++ input.vias.map (fun v => (v.diameter, v.drill)) ++
      opts.extraVias)

/-- A later size of the same name takes the place of an earlier one. -/
def viaNames : OMap String (ℚ × ℚ) :=
  OMap.ofList ((viaSizes input opts).map fun size => (viaName input opts size, size))

/-! #### Pads -/

/-- The pads that are exported. -/
def pads : List RoutePad :=
  input.pads.filter fun p =>
    p.layers.any (layerName input opts).has && decide (0 < p.size.x) && decide (0 < p.size.y)

/-- The first eight characters of an id stand for a missing number. -/
def compName (p : RoutePad) : String :=
  let base := (if p.footprint = "" then "PAD" else p.footprint) ++ "_" ++
    if p.number = "" then String.ofList (p.id.toList.take 8) else p.number
  String.ofList (base.toList.map fun c => if c = '-' then '_' else c)

/-- A name that has been seen gets the number of times. -/
def numbered (base : String) (k : ℕ) : String := if k = 0 then base else base ++ "_" ++ toString k

/-- The ids of pads with their names. -/
def compNames (seen : OMap String ℕ) : List RoutePad → List (String × String)
  | [] => []
  | p :: ps =>
    let k := (seen.get? (compName p)).getD 0
    (p.id, numbered (compName p) k) :: compNames (seen.set (compName p) (k + 1)) ps

def compOf : OMap String String := OMap.ofList (compNames OMap.empty (pads input opts))

def componentName (p : RoutePad) : String := ((compOf input opts).get? p.id).getD ""

def padSide (p : RoutePad) : Side :=
  sideOf ((layerIds input opts).head?.any (· ∈ p.layers))
    ((layerIds input opts).getLast?.any (· ∈ p.layers))

def stackOf (p : RoutePad) : String := padstackName p (padSide input opts p)

/-- To a hundredth of a degree. -/
def rotationOf (p : RoutePad) : ℚ := roundHalfUp (p.rotation * 100) / 100

def imageOf (nums : Numerals) (p : RoutePad) : String :=
  stackOf input opts p ++ if p.rotation = 0 then "" else "_r" ++ nums.print (some (rotationOf p))

/-- The first pad of each image. -/
def images (nums : Numerals) : OMap String RoutePad :=
  (pads input opts).foldl (fun m p =>
    if m.has (imageOf input opts nums p) then m else m.set (imageOf input opts nums p) p) OMap.empty

/-- The last pad of each padstack. -/
def padStacks : OMap String RoutePad :=
  OMap.ofList ((pads input opts).map fun p => (stackOf input opts p, p))

def padShapes (p : RoutePad) : List Shape :=
  (p.layers.filterMap (lname input opts)).map fun l => ⟨token l, padGeometry p⟩

def placeOf (p : RoutePad) : Vec2 :=
  match p.bounds with
  | some b => ⟨b.x + b.w / 2, b.y + b.h / 2⟩
  | none => p.position

/-! #### Nets -/

def isRoutable (net : String) : Bool := (opts.routableNets.map fun nets => decide (net ∈ nets)).getD true

def pinOf (p : RoutePad) : String := componentName input opts p ++ "-1"

/-- The pads that are to be routed, with their nets. -/
def routablePads : List RoutePad :=
  (pads input opts).filter fun p => p.net ≠ "" && isRoutable opts p.net

def addPin (m : OMap String (List String)) (e : String × String) : OMap String (List String) :=
  m.set e.1 ((m.get? e.1).getD [] ++ [e.2])

/-- A net that only has wiring. -/
def addName (m : OMap String (List String)) (net : String) : OMap String (List String) :=
  if net ≠ "" && !m.has net then m.set net [] else m

def pinsByNet : OMap String (List String) :=
  ((input.tracks.map (·.net) ++ input.vias.map (·.net)).foldl addName
    (((routablePads input opts).map fun p => (p.net, pinOf input opts p)).foldl addPin OMap.empty))

structure Group where
  nets : List String
  /-- Of the first net. -/
  rules : NetRules

def addNet (m : OMap String Group) (net : String) : OMap String Group :=
  let r := rulesForNet input net
  let c := (m.get? r.netClass).getD ⟨[], r⟩
  m.set r.netClass { c with nets := c.nets ++ [net] }

def byClass : OMap String Group := (pinsByNet input opts).keys.foldl (addNet input) OMap.empty

def className (cls : String) : String := if cls = "Default" then "kicad_default" else cls

def classOf (e : String × Group) : NetClass where
  name := token (className e.1)
  nets := e.2.nets.map token
  via := token (viaName input opts (ruleVia e.2.rules))
  width := um e.2.rules.trackWidth
  clearance := um e.2.rules.clearance

/-! #### Wiring -/

def netToken (net : String) : Option Token := if net = "" then none else some (token net)

def wireOf (t : RouteTrack) : Option Wire :=
  (lname input opts t.layer).map fun l => ⟨token l, um t.width, pt t.start, pt t.stop, netToken t.net⟩

def viaUseOf (v : RouteVia) : ViaUse :=
  ⟨token (viaName input opts (v.diameter, v.drill)), pt v.position, netToken v.net⟩

end Structure

def padstackForms (input : RouteInput) (opts : DsnOptions) : List Padstack :=
  (padStacks input opts).entries.map (fun e => ⟨token e.1, padShapes input opts e.2⟩) ++
    (viaNames input opts).entries.map fun e =>
      ⟨token e.1, (layers input opts).map fun l => ⟨token l.userName, .circle (um e.2.1)⟩⟩

def writeDsn (nums : Numerals) (input : RouteInput) (opts : DsnOptions) : Dsn where
  name := token (opts.name.getD input.boardName)
  layers := (layers input opts).map fun l => token l.userName
  boundary := boundaryOf input
  planes := planes input opts
  keepouts := areaKeepouts input opts ++ obstacleKeepouts input opts
  vias := (viaNames input opts).keys.map token
  width := um input.rules.default.trackWidth
  clearance := um input.rules.default.clearance
  components := (pads input opts).map fun p =>
    ⟨token (imageOf input opts nums p), token (componentName input opts p), pt (placeOf p)⟩
  images := (images input opts nums).entries.map fun e =>
    ⟨token e.1, token (stackOf input opts e.2),
      if e.2.rotation = 0 then none else some (rotationOf e.2)⟩
  padstacks := padstackForms input opts
  nets := (pinsByNet input opts).entries.map fun e => ⟨token e.1, e.2.map token⟩
  classes := (byClass input opts).entries.map (classOf input opts)
  wires := input.tracks.filterMap (wireOf input opts)
  viaUses := input.vias.map (viaUseOf input opts)

end FabPcb.DsnWriter
