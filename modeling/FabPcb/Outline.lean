import FabPcb.OrderedMap
import FabPcb.Worklist
import Mathlib.Algebra.Ring.Rat
import Mathlib.Data.Sym.Sym2

/-!
The board outline that a compile draws: `outlinePoints`, `outlineItems` and the tests by which a
later compile knows its own outline.

Lengths of a specification are in millimetres; `nm` stands for `Math.round(mm(v))`, the nanometres
that the runtime's numbers give. Where the source puts points and sides into strings to use them as
keys, the points and the unordered pairs themselves are used.
-/

namespace FabPcb.Outline

open OrderedMap Worklist

structure Vec2 where
  x : ℤ
  y : ℤ
  deriving DecidableEq

structure BoardRules where
  clearanceMm : Option ℚ := none
  trackWidthMm : Option ℚ := none
  viaDiameterMm : Option ℚ := none
  viaDrillMm : Option ℚ := none

structure PrefabVia where
  x : ℚ
  y : ℚ
  diameterMm : Option ℚ := none
  drillMm : Option ℚ := none

structure PrefabHole where
  x : ℚ
  y : ℚ
  diameterMm : ℚ

structure ComponentPlacement where
  ref : String
  x : ℚ
  y : ℚ

structure BoardSpec where
  outline : Option (List (ℚ × ℚ)) := none
  widthMm : Option ℚ := none
  heightMm : Option ℚ := none
  rules : Option BoardRules := none
  vias : List PrefabVia := []
  holes : List PrefabHole := []
  placements : List ComponentPlacement := []

inductive BoardLayer where
  | BL_Edge_Cuts
  | other (n : ℕ)
  deriving DecidableEq

inductive Geometry where
  | segment (start stop : Vec2)
  | circle (center radiusPoint : Vec2)
  /-- Arcs, rectangles, polygons and curves. -/
  | other (kind : String)
  deriving DecidableEq

/-- `id` is the server's from the time the shape is on the board. -/
structure BoardShape where
  id : ℕ := 0
  layer : BoardLayer
  geometry : Geometry
  customProperties : List (String × String) := []
  deriving DecidableEq

structure Via where
  position : Vec2
  diameter : ℤ
  drill : ℤ
  deriving DecidableEq

def GENERATED_OUTLINE_PROPERTY : String := "fp-pcb.generated-outline"

def GENERATED_OUTLINE_VALUE : String := "circuit.netlist.json"

section Spec

variable (nm : ℚ → ℤ)

/-- The outline polygon in nanometres, if the specification describes one. -/
def outlinePoints : Option BoardSpec → Option (List Vec2)
  | none => none
  | some spec =>
    match spec.outline with
    | some (p :: ps) => some ((p :: ps).map fun q => ⟨nm q.1, nm q.2⟩)
    | _ =>
      match spec.widthMm, spec.heightMm with
      | some w, some h =>
        if w = 0 ∨ h = 0 then none
        else some [⟨0, 0⟩, ⟨nm w, 0⟩, ⟨nm w, nm h⟩, ⟨0, nm h⟩]
      | _, _ => none

/-- KiCad's defaults for a new project. -/
def DEFAULT_VIA : ℚ × ℚ := (6 / 10, 3 / 10)

def freeViaItem (v : PrefabVia) (diameter drill : ℚ) : Via :=
  ⟨⟨nm v.x, nm v.y⟩, nm (v.diameterMm.getD diameter), nm (v.drillMm.getD drill)⟩

def holeItem (h : PrefabHole) : BoardShape where
  layer := .BL_Edge_Cuts
  geometry := .circle ⟨nm h.x, nm h.y⟩ ⟨nm h.x + nm (h.diameterMm / 2), nm h.y⟩

/-- The vias and the holes of a prefabricated blank. -/
def prefabItems (spec : Option BoardSpec) : List Via × List BoardShape :=
  let rules := spec.bind (·.rules)
  let viaDiameter := (rules.bind (·.viaDiameterMm)).getD DEFAULT_VIA.1
  let viaDrill := (rules.bind (·.viaDrillMm)).getD DEFAULT_VIA.2
  (((spec.map (·.vias)).getD []).map fun v => freeViaItem nm v viaDiameter viaDrill,
    ((spec.map (·.holes)).getD []).map (holeItem nm))

end Spec

/-- The sides of a closed polygon, in order. -/
def sides (points : List Vec2) : List (Vec2 × Vec2) := points.zip (points.rotate 1)

def outlineItem (side : Vec2 × Vec2) : BoardShape where
  layer := .BL_Edge_Cuts
  geometry := .segment side.1 side.2
  customProperties := [(GENERATED_OUTLINE_PROPERTY, GENERATED_OUTLINE_VALUE)]

def outlineItems (points : List Vec2) : List BoardShape := (sides points).map outlineItem

/-- The later of two properties of one name counts. -/
def BoardShape.generated (shape : BoardShape) : Bool :=
  shape.customProperties.reverse.lookup GENERATED_OUTLINE_PROPERTY = some GENERATED_OUTLINE_VALUE

def BoardShape.segment? (shape : BoardShape) : Option (Vec2 × Vec2) :=
  match shape.geometry with
  | .segment a b => some (a, b)
  | _ => none

def BoardShape.isSegment (shape : BoardShape) : Bool := shape.segment?.isSome

/-- The segments among some graphics. -/
def segmentsOf (edges : List BoardShape) : List (Vec2 × Vec2) := edges.filterMap (·.segment?)

def segmentKey (s : Vec2 × Vec2) : Sym2 Vec2 := s(s.1, s.2)

/-- How often each side occurs, whichever way it runs. -/
def countKeys (keys : List (Sym2 Vec2)) : OMap (Sym2 Vec2) ℕ :=
  keys.foldl (fun counts key => counts.set key ((counts.get? key).getD 0 + 1)) OMap.empty

def segmentCounts (edges : List BoardShape) : OMap (Sym2 Vec2) ℕ :=
  countKeys ((segmentsOf edges).map segmentKey)

def expectedSegmentCounts (points : List Vec2) : OMap (Sym2 Vec2) ℕ :=
  countKeys ((sides points).map segmentKey)

def outlineMatches (edges : List BoardShape) (points : List Vec2) : Bool :=
  let actual := segmentCounts edges
  let expected := expectedSegmentCounts points
  actual.size = expected.size && expected.entries.all fun e => actual.get? e.1 = some e.2

/-! ### Contours -/

/-- `neighborsFor(p).add(q)`, in a map from points to the sets of their neighbours. -/
def addNeighbor (adjacency : OMap Vec2 (List Vec2)) (p q : Vec2) : OMap Vec2 (List Vec2) :=
  let neighbors := (adjacency.get? p).getD []
  adjacency.set p (if q ∈ neighbors then neighbors else neighbors ++ [q])

def addSegment (adjacency : OMap Vec2 (List Vec2)) (s : Vec2 × Vec2) : OMap Vec2 (List Vec2) :=
  addNeighbor (addNeighbor adjacency s.1 s.2) s.2 s.1

def adjacencyOf (segments : List (Vec2 × Vec2)) : OMap Vec2 (List Vec2) :=
  segments.foldl addSegment OMap.empty

/-- One complete loop of segments. -/
def isSingleClosedContour (edges : List BoardShape) : Bool :=
  let segments := segmentsOf edges
  let adjacency := adjacencyOf segments
  if segments.any fun s => s.1 = s.2 then false
  else if segments.length < 3 ∨ adjacency.values.any fun neighbors => neighbors.length ≠ 2 then false
  else
    match adjacency.keys with
    | [] => false
    | first :: _ =>
      let seen := explore (fun p => (adjacency.get? p).getD []) adjacency.size [first] [first]
      seen.length = adjacency.size && segments.length = adjacency.size

/-- The points a point is joined to, in the order of the segments. -/
def connected (segments : List (Vec2 × Vec2)) (p : Vec2) : List Vec2 :=
  segments.flatMap fun s => (if s.1 = p then [s.2] else []) ++ if s.2 = p then [s.1] else []

/-- The points of a loop from `current` on, back to `first`. -/
def contourPoints (segments : List (Vec2 × Vec2)) (first : Vec2) :
    ℕ → Option Vec2 → Vec2 → List Vec2 → Option (List Vec2)
  | 0, _, _, _ => none
  | n + 1, previous, current, ordered =>
    let options := connected segments current
    match if options.head? = previous then options[1]? else options.head? with
    | none => none
    | some next =>
      if next = first then some (ordered ++ [current])
      else contourPoints segments first n (some current) next (ordered ++ [current])

/-- Twice the area within a loop, without the rounding of the runtime's numbers. -/
def contourArea (edges : List BoardShape) : ℕ :=
  let segments := segmentsOf edges
  match segments with
  | [] => 0
  | s :: _ =>
    match contourPoints segments s.1 edges.length none s.1 [] with
    | none => 0
    | some ordered =>
      if ordered.length ≠ edges.length then 0
      else ((sides ordered).map fun (t : Vec2 × Vec2) => t.1.x * t.2.y - t.2.x * t.1.y).sum.natAbs

def endpointsOf (edge : BoardShape) : List Vec2 :=
  match edge.segment? with
  | none => []
  | some s => [s.1, s.2]

/-- The edges that hang together with those pending, in the order they are looked at, and the edges
that remain. -/
def flood (edges : List BoardShape) : ℕ → List ℕ → List ℕ → List ℕ → List ℕ × List ℕ
  | 0, remaining, _, indexes => (indexes, remaining)
  | _ + 1, remaining, [], indexes => (indexes, remaining)
  | n + 1, remaining, i :: pending, indexes =>
    let touching := ((edges[i]?.map endpointsOf).getD []).flatMap fun p =>
      (List.range edges.length).flatMap fun k =>
        ((edges[k]?.map endpointsOf).getD []).filterMap fun q => if q = p then some k else none
    let r := touching.foldl
      (fun r k => if k ∈ r.1 then (r.1.erase k, k :: r.2) else r) (remaining, pending)
    flood edges n r.1 r.2 (indexes ++ [i])

/-- The groups of edges that hang together, unless one of them is no loop. -/
def contours (edges : List BoardShape) : ℕ → List ℕ → Option (List (List BoardShape))
  | 0, _ => some []
  | _ + 1, [] => some []
  | n + 1, first :: remaining =>
    let r := flood edges edges.length remaining [first] []
    let contour := r.1.filterMap fun i => edges[i]?
    if isSingleClosedContour contour then
      (contours edges n r.2).map (contour :: ·)
    else none

/-- The first of the largest, as a stable sort by falling area has it. -/
def largest : List (List BoardShape) → Option (List BoardShape)
  | [] => none
  | c :: cs => some (cs.foldl (fun best c => if contourArea best < contourArea c then c else best) c)

/-- The largest complete loop of segments; the others are cutouts. -/
def outerSegmentContour (edges : List BoardShape) : Option (List BoardShape) :=
  (contours edges edges.length (List.range edges.length)).bind largest

end FabPcb.Outline
