import FabPcb.DsnWriter
import FabPcb.SExprForms

/-!
Distances between drilled holes and copper, for a router that knows of copper only.

A clearance between two kinds of items is raised so far that with the copper around a drill, its
ring, it is the distance that a hole is to have. What is around each drill is not known to the rule,
so the least ring counts. `drillClearanceDsn` adds these clearances to a file that it reads and
writes again.
-/

namespace FabPcb.DrillClearance

open OrderedMap SExprText SExprForms DsnWriter
open EmitterRoundTrip (quoting lines)
open SpecctraData (Vec2 Numerals inherited toText times per)

/-! ### Items and rings -/

/-- What a clearance is between. -/
inductive Item where
  | wire
  | smd
  | area
  | pin
  | via
  deriving DecidableEq

def Item.text : Item → String
  | .wire => "wire"
  | .smd => "smd"
  | .area => "area"
  | .pin => "pin"
  | .via => "via"

def Item.drilled (i : Item) : Bool := i = .pin || i = .via

def pairs : List (Item × Item) :=
  [(.wire, .pin), (.wire, .via), (.smd, .pin), (.smd, .via), (.area, .pin), (.area, .via),
    (.pin, .pin), (.pin, .via), (.via, .via)]

def pairText (p : Item × Item) : String := p.1.text ++ "_" ++ p.2.text

/-- `Math.min(...list)`, of a list that is not empty. -/
def least : List ℚ → ℚ
  | [] => 0
  | x :: xs => xs.foldl min x

def drillOf (p : RoutePad) : Vec2 := p.drillSize.getD ⟨p.drill, p.drill⟩

/-- Half of what the copper of a pad is wider than its drill. -/
def padRing (p : RoutePad) : ℚ := min (p.size.x - (drillOf p).x) (p.size.y - (drillOf p).y) / 2

def viaRing (size : ℚ × ℚ) : ℚ := (size.1 - size.2) / 2

section Rings

variable (input : RouteInput)

def hole : ℚ := input.rules.holeClearance.getD 0

def platedPads : List RoutePad := input.pads.filter fun p => p.through && !p.nonPlated

/-- Only copper that is known to surround the drill counts. -/
def pinRings : List ℚ :=
  (platedPads input).map fun p =>
    if p.collisionGeometryUnsupported || p.shape = .custom then 0 else max 0 (padRing p)

/-- The sizes of the rules and those on the board. -/
def countedVias : List (ℚ × ℚ) :=
  input.rules.perNet.values.map ruleVia ++
    (ruleVia input.rules.default :: input.vias.map fun v => (v.diameter, v.drill))

def viaRings : List ℚ := (countedVias input).map fun size => max 0 (viaRing size)

def ring : Item → ℚ
  | .pin => least (pinRings input)
  | .via => least (viaRings input)
  | _ => 0

/-- The least ring of the drilled sides. -/
def leastRing (p : Item × Item) : ℚ :=
  least ((if p.1.drilled then [ring input p.1] else []) ++
    if p.2.drilled then [ring input p.2] else [])

/-- What is left of the distance of two holes. -/
def holesRest (p : Item × Item) : ℚ :=
  if p.1.drilled && p.2.drilled then
    input.rules.holeToHole - ring input p.1 - ring input p.2
  else 0

def typedValue (copper : ℚ) (p : Item × Item) : ℚ :=
  max (max copper (hole input - leastRing input p)) (holesRest input p)

end Rings

/-! ### `drillClearanceDsn` -/

inductive DrillError where
  | syntaxError (e : ParseError)
  | unsupportedUnit (unit : String)
  | noRule

/-- Nanometres; what every object inherits is found, and is no number. -/
def unitScale (unit : String) : Except DrillError (Option ℚ) :=
  if unit = "um" then .ok (some 1000)
  else if unit = "mm" then .ok (some 1000000)
  else if unit = "mil" then .ok (some 25400)
  else if unit = "inch" then .ok (some 25400000)
  else if unit ∈ inherited then .ok none
  else .error (.unsupportedUnit unit)

def unitOf (pcb : List SExpr) : String :=
  ((((child pcb "unit").bind (·[1]?)) <|> ((child pcb "resolution").bind (·[1]?))).map
    toText).getD "um"

/-- `String(list[i])` -/
def textAt (list : List SExpr) (i : ℕ) : String := (list[i]?.map toText).getD "undefined"

def exceeds (a b : Option ℚ) : Bool :=
  match a, b with
  | some p, some q => q < p
  | _, _ => false

section Drill

variable (nums : Numerals) (input : RouteInput) (scale : Option ℚ)

def clearanceForm (value : Option ℚ) (p : Item × Item) : SExpr :=
  .list [.atom "clearance", .atom (nums.print value), .list [.atom "type", .atom (pairText p)]]

/-- The clearances that are more than that of the copper. -/
def rules (copper : Option ℚ) : List SExpr :=
  pairs.filterMap fun p =>
    let value := per (copper.map fun c => typedValue input c p) scale
    if exceeds (nums.read (nums.print value)) (per copper scale) then
      some (clearanceForm nums value p)
    else none

/-- A hole without copper keeps a circle free on each layer. -/
def drillKeepouts (structureItems : List SExpr) : List SExpr :=
  (input.pads.filter fun p => p.nonPlated && decide (0 < p.drill)).flatMap fun pad =>
    let diameter := max (drillOf pad).x (drillOf pad).y +
      2 * max 0 (max (hole input) input.rules.holeToHole - input.rules.default.clearance)
    (children structureItems "layer").map fun layer =>
      .list [.atom "keepout", .atom ("fabdesk-drill-" ++ pad.id),
        .list [.atom "circle", .atom (textAt layer 1),
          .atom (nums.print (per (some diameter) scale)),
          .atom (nums.print (per (some pad.position.x) scale)),
          .atom (nums.print (per (some (-pad.position.y)) scale))]]

/-- The clearance of a rule, or of the default. -/
def copperOf (rule : List SExpr) : Option ℚ :=
  times ((((child rule "clearance").bind (·[1]?)).map fun x => nums.read (toText x)).getD
    (per (some input.rules.default.clearance) scale)) scale

/-- The rule of a class, if it has one, gets the clearances. -/
def drillClass (cls : List SExpr) : List SExpr :=
  match child cls "rule" with
  | some rule => editFirst "rule" (· ++ rules nums input scale (copperOf nums input scale rule)) cls
  | none => cls

def classNames (network : List SExpr) : List String :=
  ("kicad_default" :: (children network "class").map (textAt · 1)).reverse.dedup.reverse

/-- The last class of a name has its clearance. -/
def classCopper (network : List SExpr) (name : String) : Option ℚ :=
  ((OMap.ofList ((children network "class").map fun c =>
    (textAt c 1, copperOf nums input scale ((child c "rule").getD [])))).get? name).getD
      (some input.rules.default.clearance)

/-- `Math.max` -/
def most (a b : Option ℚ) : Option ℚ := a.bind fun p => b.map fun q => max p q

/-- The clearance of the copper of two classes. -/
def pairCopper (network : List SExpr) (a b : String) : Option ℚ :=
  most (some input.rules.default.clearance)
    (most (classCopper nums input scale network a) (classCopper nums input scale network b))

/-- Each name with those after it. -/
def later : List String → List (String × String)
  | [] => []
  | a :: names => names.map (a, ·) ++ later names

def classPairForm (mixed : List SExpr) (a b : String) : SExpr :=
  .list [.atom "class_class", .list [.atom "classes", .atom a, .atom b],
    .list (.atom "rule" :: mixed)]

def classPairs (network : List SExpr) : List SExpr :=
  (later (classNames network)).filterMap fun (a, b) =>
    let mixed := rules nums input scale (pairCopper nums input scale network a b)
    if mixed = [] then none else some (classPairForm mixed a b)

def drillNetwork (network : List SExpr) : List SExpr :=
  let classes := editAll "class" (drillClass nums input scale) network
  classes ++ classPairs nums input scale classes

def drillStructure (structureItems : List SExpr) : List SExpr :=
  structureItems ++ drillKeepouts nums input scale structureItems

end Drill

/-- The clearances in the items of a file. -/
def drillPcb (nums : Numerals) (input : RouteInput) (freeroutingRules : Bool) (pcb : List SExpr) :
    Except DrillError (List SExpr) :=
  (unitScale (unitOf pcb)).bind fun scale =>
    let kept := editFirst "structure" (drillStructure nums input scale) pcb
    if freeroutingRules then
      if ((child pcb "structure").bind (child · "rule")).isSome then
        .ok (editFirst "network" (drillNetwork nums input scale)
          (editFirst "structure" (editFirst "rule"
            (· ++ rules nums input scale (some input.rules.default.clearance))) kept))
      else .error .noRule
    else .ok kept

def drillClearanceDsn (nums : Numerals) (text : String) (input : RouteInput)
    (freeroutingRules : Bool) : Except DrillError String :=
  if hole input = 0 ∧ input.rules.holeToHole = 0 then .ok text
  else
    match parseSExpr text with
    | .error e => .error (.syntaxError e)
    | .ok tree =>
      (drillPcb nums input freeroutingRules ((child tree "pcb").getD [])).map fun pcb =>
        String.ofList (lines quoting (editFirst "pcb" (fun _ => pcb) tree) ++ ['\n'])

end FabPcb.DrillClearance
