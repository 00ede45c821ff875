import FabPcb.DsnWriter
import FabPcb.FreshNames
import FabPcb.PointDistances
import FabPcb.RoundedShapes
import FabPcb.Writes
import Mathlib

/-!
What stands too close to the ends of the connections that are left open.

The pads at their ends are probed on each of their layers, as if a track left from there: what is
of another net, and closer to the disc of the track's width than the rules say, is reported. The
distances are exact over the reals; what has copper that is not known exactly is only counted.
-/

namespace FabPcb.EndpointCollisions

open OrderedMap PointDistances RoundedShapes
open SpecctraData (BoardLayer RouteLayer)
open DsnWriter (PadShape)
open Metric Real

/-- What of `Math` is more than arithmetic, and how numbers are printed. -/
structure JsMath (K : Type) where
  pi : K
  hypot : K → K → K
  cos : K → K
  sin : K → K
  toFixed : K → ℕ → String

section Board

variable (K : Type) [Field K] [LinearOrder K]

structure RoutePad where
  id : String
  /-- The reference of its footprint. -/
  footprint : String
  number : String
  net : String
  position : Vec2 K
  size : Vec2 K
  shape : PadShape
  /-- In degrees. -/
  rotation : K
  /-- The copper layers that it has copper on. -/
  layers : List BoardLayer
  /-- Overrides what the rules of its net say. -/
  clearance : Option K
  bounds : Option (Box K)
  cornerRadius : Option K
  collisionGeometryUnsupported : Bool

structure RouteVia where
  id : String
  net : String
  position : Vec2 K
  diameter : K
  layers : List BoardLayer
  diameter_nonneg : 0 ≤ diameter

structure RouteTrack where
  id : String
  net : String
  start : Vec2 K
  stop : Vec2 K
  width : K
  layer : BoardLayer
  /-- A chord of an arc. -/
  collisionGeometryUnsupported : Bool
  width_nonneg : 0 ≤ width

structure RouteNetRules where
  clearance : K
  trackWidth : K
  trackWidth_nonneg : 0 ≤ trackWidth

structure RouteRules where
  minClearance : K
  default : RouteNetRules K
  perNet : OMap String (RouteNetRules K)

structure RouteInput where
  copperLayers : List RouteLayer
  pads : List (RoutePad K)
  tracks : List (RouteTrack K)
  vias : List (RouteVia K)
  rules : RouteRules K

end Board

/-- The items at the ends of a connection that is open. -/
structure RouteConnection where
  fromItemId : String
  toItemId : String

/-! ### The report -/

inductive BlockerType
  | pad
  | via
  | track
  deriving DecidableEq

def BlockerType.text : BlockerType → String
  | .pad => "pad"
  | .via => "via"
  | .track => "track"

structure Endpoint where
  uuid : String
  ref : String
  pin : String
  layer : String

structure Blocker where
  uuid : String
  type : BlockerType
  net : String

structure EndpointCollision (K : Type) where
  endpoint : Endpoint
  blocker : Blocker
  requiredClearanceMm : K
  measuredClearanceMm : K
  test : String := "endpoint-track-width"

structure Report (K : Type) where
  text : String
  obstacleSet : String := "pre-route"
  testedEndpoints : ℕ
  unsupported : ℕ
  total : ℕ
  truncated : Bool
  physicalBlockerEstablished : Bool
  collisions : List (EndpointCollision K)

/-- What is counted, and the keys of what has been probed. -/
structure Tally (K : Type) where
  collisions : List (EndpointCollision K) := []
  testedEndpoints : ℕ := 0
  unsupported : ℕ := 0
  total : ℕ := 0
  seen : List String := []

/-- With the items that the endpoint has been tested against, on the layer. -/
structure Probe (K : Type) extends Tally K where
  testedItems : List String := []

section Probing

variable {K : Type} [Field K] [LinearOrder K] (J : JsMath K)

/-! ### Distances -/

def segmentDistance (p a b : Vec2 K) : K :=
  let dx := b.x - a.x
  let dy := b.y - a.y
  let t := if dx ≠ 0 ∨ dy ≠ 0 then
      max 0 (min 1 (((p.x - a.x) * dx + (p.y - a.y) * dy) / (dx * dx + dy * dy)))
    else 0
  J.hypot (p.x - a.x - t * dx) (p.y - a.y - t * dy)

/-- To the copper of the pad. What is undefined is not supported. -/
def padDistance (p : Vec2 K) (pad : RoutePad K) : Option K :=
  if pad.collisionGeometryUnsupported ∨ pad.size.x ≤ 0 ∨ pad.size.y ≤ 0 then none
  else
    let angle := pad.rotation * J.pi / 180
    let dx := p.x - pad.position.x
    let dy := p.y - pad.position.y
    let x := |dx * J.cos angle - dy * J.sin angle|
    let y := |dx * J.sin angle + dy * J.cos angle|
    let hx := pad.size.x / 2
    let hy := pad.size.y / 2
    match pad.shape with
    | .custom | .trapezoid | .chamferedrect => none
    | .circle => if hx = hy then some (max 0 (J.hypot x y - hx)) else none
    | .rect => some (J.hypot (max 0 (x - hx)) (max 0 (y - hy)))
    | .oval =>
      let r := min hx hy
      some (max 0 (J.hypot (max 0 (x - (hx - r))) (max 0 (y - (hy - r))) - r))
    | .roundrect =>
      match pad.cornerRadius with
      | none => none
      | some r =>
        if r < 0 ∨ min hx hy < r then none
        else some (max 0 (J.hypot (max 0 (x - (hx - r))) (max 0 (y - (hy - r))) - r))

def viaDistance (p : Vec2 K) (via : RouteVia K) : K :=
  max 0 (J.hypot (p.x - via.position.x) (p.y - via.position.y) - via.diameter / 2)

def trackDistance (p : Vec2 K) (track : RouteTrack K) : Option K :=
  if track.collisionGeometryUnsupported then none
  else some (max 0 (segmentDistance J p track.start track.stop - track.width / 2))

/-! ### Rules -/

variable (input : RouteInput K)

def rules (net : String) : RouteNetRules K :=
  (input.rules.perNet.get? net).getD input.rules.default

def clearance (net : String) (pad : Option (RoutePad K)) : K :=
  (pad.bind (·.clearance)).getD (rules input net).clearance

/-- The largest of what the board, the endpoint and the item require. -/
def required (endpoint : RoutePad K) (net : String) (pad : Option (RoutePad K)) : K :=
  max (max input.rules.minClearance (clearance input endpoint.net (some endpoint)))
    (clearance input net pad)

def radius (endpoint : RoutePad K) : K := (rules input endpoint.net).trackWidth / 2

/-! ### The loops -/

section Layer

variable (endpoint : RoutePad K) (layer : BoardLayer)

def layerName : String :=
  ((input.copperLayers.find? (·.id = layer)).map (·.userName)).getD (toString layer)

/-- The endpoint against an item on the layer. The first collisions are shown. -/
def check (id net : String) (type : BlockerType) (distance : Option K) (pad : Option (RoutePad K))
    (s : Probe K) : Probe K :=
  if id = endpoint.id ∨ net = endpoint.net ∨ id ∈ s.testedItems then s
  else
    let s := { s with testedItems := s.testedItems ++ [id] }
    match distance with
    | none => { s with unsupported := s.unsupported + 1 }
    | some distance =>
      let required := required input endpoint net pad
      let measured := max 0 (distance - radius input endpoint)
      if required ≤ measured then s
      else
        let collision : EndpointCollision K :=
          { endpoint := ⟨endpoint.id, endpoint.footprint, endpoint.number, layerName input layer⟩
            blocker := ⟨id, type, net⟩
            requiredClearanceMm := required / 1000000
            measuredClearanceMm := measured / 1000000 }
        { s with
          total := s.total + 1
          collisions :=
            if s.collisions.length < 24 then s.collisions ++ [collision] else s.collisions }

/-- How far the point is from the box, at least. -/
def lowerBound (p : Vec2 K) (b : Box K) : K :=
  J.hypot (max (max (b.x - p.x) 0) (p.x - b.x - b.w)) (max (max (b.y - p.y) 0) (p.y - b.y - b.h))

/-- A custom pad is left out if its box is far enough. -/
def skipped (pad : RoutePad K) : Bool :=
  decide (pad.shape = .custom) && pad.bounds.any fun b =>
    decide (required input endpoint pad.net (some pad) ≤
      lowerBound J endpoint.position b - radius input endpoint)

def checkPad (s : Probe K) (pad : RoutePad K) : Probe K :=
  if layer ∈ pad.layers then
    if skipped J input endpoint pad then s
    else check input endpoint layer pad.id pad.net .pad (padDistance J endpoint.position pad)
      (some pad) s
  else s

def checkVia (s : Probe K) (via : RouteVia K) : Probe K :=
  if layer ∈ via.layers then
    check input endpoint layer via.id via.net .via (some (viaDistance J endpoint.position via))
      none s
  else s

def checkTrack (s : Probe K) (track : RouteTrack K) : Probe K :=
  if track.layer = layer then
    check input endpoint layer track.id track.net .track
      (trackDistance J endpoint.position track) none s
  else s

def key : String := endpoint.id ++ String.singleton '\x00' ++ toString layer

end Layer

/-- An endpoint on one of its layers, unless it has been probed there. -/
def probeLayer (endpoint : RoutePad K) (s : Tally K) (layer : BoardLayer) : Tally K :=
  if key endpoint layer ∈ s.seen then s
  else
    let s : Probe K :=
      { s with
        seen := s.seen ++ [key endpoint layer]
        testedEndpoints := s.testedEndpoints + 1 }
    let s := input.pads.foldl (checkPad J input endpoint layer) s
    let s := input.vias.foldl (checkVia J input endpoint layer) s
    (input.tracks.foldl (checkTrack J input endpoint layer) s).toTally

def padOf (itemId : String) : Option (RoutePad K) :=
  (OMap.ofList (input.pads.map fun p => (p.id, p))).get? itemId

def probeEnd (s : Tally K) (itemId : String) : Tally K :=
  match padOf input itemId with
  | none => s
  | some endpoint => endpoint.layers.foldl (probeLayer J input endpoint) s

def probe (connections : List RouteConnection) : Tally K :=
  connections.foldl (fun s connection =>
    [connection.fromItemId, connection.toItemId].foldl (probeEnd J input) s) {}

/-! ### The text -/

def detail (c : EndpointCollision K) : String :=
  c.endpoint.ref ++ "." ++ c.endpoint.pin ++ " " ++ c.endpoint.uuid ++ " on " ++ c.endpoint.layer ++
    "; blocker " ++ c.blocker.uuid ++ " " ++ c.blocker.type.text ++ " net " ++
    (if c.blocker.net = "" then "unassigned" else c.blocker.net) ++ "; clearance required " ++
    J.toFixed c.requiredClearanceMm 3 ++ " mm, measured " ++ J.toFixed c.measuredClearanceMm 3 ++
    " mm"

def text (s : Tally K) : String :=
  "Endpoint-track-width probe tested against the board before routing: " ++
    toString s.testedEndpoints ++ " pad/layer endpoint(s), " ++ toString s.unsupported ++
    " unsupported comparison(s). " ++
    if s.total = 0 then "No physical blocker was established by this test."
    else
      toString s.total ++ " collision(s) established" ++
        (if s.collisions.length < s.total then "; showing " ++ toString s.collisions.length
          else "") ++ ": " ++
        String.intercalate "; " ((s.collisions.take 3).map (detail J)) ++
        ". This does not establish that every escape is blocked."

def endpointCollisions (connections : List RouteConnection) : Report K :=
  let s := probe J input connections
  { text := text J s
    testedEndpoints := s.testedEndpoints
    unsupported := s.unsupported
    total := s.total
    truncated := decide (s.collisions.length < s.total)
    physicalBlockerEstablished := decide (0 < s.total)
    collisions := s.collisions }

end Probing

/-! ### Copper -/

noncomputable def realMath (toFixed : ℝ → ℕ → String) : JsMath ℝ where
  pi := π
  hypot x y := √(x * x + y * y)
  cos := cos
  sin := sin
  toFixed := toFixed

/-- Where a point of what is turned by `θ` about `c` is. It is turned counterclockwise, where `y`
points down. -/
noncomputable def place (c : ℂ) (θ : ℝ) (z : ℂ) : ℂ :=
  ⟨c.re + z.re * cos θ + z.im * sin θ, c.im - z.re * sin θ + z.im * cos θ⟩

/-- The copper of a pad, if it is known exactly. -/
noncomputable def padCopper (pad : RoutePad ℝ) : Option (Set ℂ) :=
  if pad.collisionGeometryUnsupported ∨ pad.size.x ≤ 0 ∨ pad.size.y ≤ 0 then none
  else
    let turned := place (toC pad.position) (pad.rotation * π / 180)
    let hx := pad.size.x / 2
    let hy := pad.size.y / 2
    match pad.shape with
    | .custom | .trapezoid | .chamferedrect => none
    | .circle => if hx = hy then some (closedBall (toC pad.position) hx) else none
    | .rect => some (turned '' box hx hy)
    | .oval => some (turned '' rounded hx hy (min hx hy))
    | .roundrect =>
      match pad.cornerRadius with
      | none => none
      | some r => if 0 ≤ r ∧ r ≤ min hx hy then some (turned '' rounded hx hy r) else none

def viaCopper (via : RouteVia ℝ) : Set ℂ := closedBall (toC via.position) (via.diameter / 2)

/-- A track has round ends. A chord of an arc is not where its copper is. -/
noncomputable def trackCopper (track : RouteTrack ℝ) : Option (Set ℂ) :=
  if track.collisionGeometryUnsupported then none
  else some (cthickening (track.width / 2) (segment ℝ (toC track.start) (toC track.stop)))

section Distances

variable {toFixed : ℝ → ℕ → String}

lemma ofReal_max_zero (x : ℝ) : ENNReal.ofReal (max 0 x) = ENNReal.ofReal x := by
  rcases le_total 0 x with h | h
  · rw [max_eq_right h]
  · rw [max_eq_left h, ENNReal.ofReal_zero, ENNReal.ofReal_of_nonpos h]

lemma infEDist_thickened {E : Type*} [SeminormedAddCommGroup E] [NormedSpace ℝ E] {p : E}
    {S : Set E} {d r : ℝ} (hr : 0 ≤ r) (h : infEDist p S = ENNReal.ofReal d) :
    infEDist p (cthickening r S) = ENNReal.ofReal (max 0 (d - r)) := by
  rw [infEDist_cthickening, h, ofReal_max_zero, ENNReal.ofReal_sub _ hr]

lemma infEDist_disc (p c : Vec2 ℝ) {r : ℝ} (hr : 0 ≤ r) : infEDist (toC p) (closedBall (toC c) r) =
    ENNReal.ofReal (max 0 ((realMath toFixed).hypot (p.x - c.x) (p.y - c.y) - r)) := by
  rw [← cthickening_singleton _ hr]
  refine infEDist_thickened hr ?_
  rw [infEDist_singleton, edist_dist, Complex.dist_eq]
  exact congrArg _ (norm_mk_eq _ _).symm

/-! ### Tracks -/

lemma segmentDistance_eq (p a b : Vec2 ℝ) : segmentDistance (realMath toFixed) p a b =
    pointSegmentDistance PointDistances.realMath p a b := by
  have hzero : (b.x - a.x) * (b.x - a.x) + (b.y - a.y) * (b.y - a.y) = 0 ↔
      ¬(b.x - a.x ≠ 0 ∨ b.y - a.y ≠ 0) := by
    rw [mul_self_add_mul_self_eq_zero, not_or, not_not, not_not]
  rw [segmentDistance, pointSegmentDistance]
  by_cases h : b.x - a.x ≠ 0 ∨ b.y - a.y ≠ 0
  · simp only [if_pos h, if_neg (fun h' => hzero.mp h' h), sub_sub]
    rfl
  · simp only [if_neg h, if_pos (hzero.mpr h), zero_mul, sub_zero]
    rfl

lemma infEDist_segment (p a b : Vec2 ℝ) : infEDist (toC p) (segment ℝ (toC a) (toC b)) =
    ENNReal.ofReal (segmentDistance (realMath toFixed) p a b) := by
  have hpoint : ∀ t : ℝ, toC a + t • (toC b - toC a) =
      toC ⟨a.x + t * (b.x - a.x), a.y + t * (b.y - a.y)⟩ := by
    intro t
    refine Complex.ext ?_ ?_ <;> simp [toC]
  obtain ⟨t, h0, h1, ht⟩ := exists_pointSegmentDistance p a b
  rw [segmentDistance_eq, ht, vDist_eq, ← Complex.dist_eq, ← hpoint, segment_eq_image']
  refine infEDist_of_nearest ⟨t, ⟨h0, h1⟩, rfl⟩ ?_
  rintro _ ⟨u, ⟨hu0, hu1⟩, rfl⟩
  dsimp only
  rw [hpoint, hpoint, Complex.dist_eq, Complex.dist_eq, ← vDist_eq, ← ht]
  exact pointSegmentDistance_le p a b hu0 hu1

/-! ### Pads -/

lemma isometry_place (c : ℂ) (θ : ℝ) : Isometry (place c θ) := by
  refine Isometry.of_dist_eq fun z w => ?_
  have hsq := Real.cos_sq_add_sin_sq θ
  rw [Complex.dist_eq, Complex.dist_eq, Complex.norm_def, Complex.norm_def, Complex.normSq_apply,
    Complex.normSq_apply]
  refine congrArg _ ?_
  simp only [place, Complex.sub_re, Complex.sub_im]
  linear_combination ((z.re - w.re) ^ 2 + (z.im - w.im) ^ 2) * hsq

/-- Where the point is, seen from what is turned. -/
noncomputable def seenFrom (c : Vec2 ℝ) (θ : ℝ) (p : Vec2 ℝ) : ℂ :=
  ⟨(p.x - c.x) * cos θ - (p.y - c.y) * sin θ, (p.x - c.x) * sin θ + (p.y - c.y) * cos θ⟩

lemma place_seenFrom (c : Vec2 ℝ) (θ : ℝ) (p : Vec2 ℝ) :
    place (toC c) θ (seenFrom c θ p) = toC p := by
  have hsq := Real.cos_sq_add_sin_sq θ
  refine Complex.ext ?_ ?_ <;> simp only [place, seenFrom, toC]
  · linear_combination (p.x - c.x) * hsq
  · linear_combination (p.y - c.y) * hsq

lemma infEDist_turned (c : Vec2 ℝ) (θ : ℝ) (p : Vec2 ℝ) (S : Set ℂ) :
    infEDist (toC p) (place (toC c) θ '' S) = infEDist (seenFrom c θ p) S := by
  rw [← place_seenFrom c θ p, infEDist_image (isometry_place _ _)]

lemma infEDist_rounded {a b r : ℝ} (hr : 0 ≤ r) (ha : r ≤ a) (hb : r ≤ b) (z : ℂ) :
    infEDist z (rounded a b r) = ENNReal.ofReal (max 0 ((realMath toFixed).hypot
      (max 0 (|z.re| - (a - r))) (max 0 (|z.im| - (b - r))) - r)) := by
  rw [rounded_eq_cthickening hr ha hb]
  exact infEDist_thickened hr (infEDist_box (sub_nonneg.mpr ha) (sub_nonneg.mpr hb) z)

lemma hypot_seenFrom (c : Vec2 ℝ) (θ : ℝ) (p : Vec2 ℝ) : (realMath toFixed).hypot
    |(seenFrom c θ p).re| |(seenFrom c θ p).im| =
      (realMath toFixed).hypot (p.x - c.x) (p.y - c.y) := by
  refine congrArg Real.sqrt ?_
  rw [abs_mul_abs_self, abs_mul_abs_self]
  simp only [seenFrom]
  linear_combination ((p.x - c.x) ^ 2 + (p.y - c.y) ^ 2) * Real.cos_sq_add_sin_sq θ

/-- **How far a pad is**, as it is computed, is how far its copper is: there is none if it is not
known exactly. -/
theorem infEDist_padCopper (p : Vec2 ℝ) (pad : RoutePad ℝ) :
    (padCopper pad).map (infEDist (toC p)) =
      (padDistance (realMath toFixed) p pad).map ENNReal.ofReal := by
  rw [padCopper, padDistance]
  by_cases hsize : pad.collisionGeometryUnsupported ∨ pad.size.x ≤ 0 ∨ pad.size.y ≤ 0
  · rw [if_pos hsize, if_pos hsize]
    rfl
  rw [if_neg hsize, if_neg hsize]
  obtain ⟨-, hx, hy⟩ := (not_or.trans (and_congr_right' not_or)).mp hsize
  have hx2 : 0 ≤ pad.size.x / 2 := by linarith
  have hy2 : 0 ≤ pad.size.y / 2 := by linarith
  dsimp only
  cases pad.shape with
  | custom => rfl
  | trapezoid => rfl
  | chamferedrect => rfl
  | circle =>
    by_cases h : pad.size.x / 2 = pad.size.y / 2
    · rw [if_pos h, if_pos h]
      refine congrArg some ?_
      rw [infEDist_disc _ _ hx2, ← hypot_seenFrom _ (pad.rotation * π / 180)]
      rfl
    · rw [if_neg h, if_neg h]
      rfl
  | rect =>
    refine congrArg some ?_
    rw [infEDist_turned, infEDist_box hx2 hy2]
    rfl
  | oval =>
    refine congrArg some ?_
    rw [infEDist_turned, infEDist_rounded (le_min hx2 hy2) (min_le_left _ _) (min_le_right _ _)]
    rfl
  | roundrect =>
    cases pad.cornerRadius with
    | none => rfl
    | some r =>
      dsimp only
      by_cases h : 0 ≤ r ∧ r ≤ min (pad.size.x / 2) (pad.size.y / 2)
      · rw [if_pos h, if_neg (by simpa only [not_or, not_lt] using h)]
        refine congrArg some ?_
        rw [infEDist_turned, infEDist_rounded h.1 (h.2.trans (min_le_left _ _))
          (h.2.trans (min_le_right _ _))]
        rfl
      · rw [if_neg h, if_pos (by simpa only [not_and_or, not_le] using h)]
        rfl

end Distances

/-! ### Items -/

/-- What the endpoints are tested against. -/
inductive Item (K : Type) [Field K] [LinearOrder K]
  | pad (pad : RoutePad K)
  | via (via : RouteVia K)
  | track (track : RouteTrack K)

section Items

variable {K : Type} [Field K] [LinearOrder K]

namespace Item

def id : Item K → String
  | .pad p => p.id
  | .via v => v.id
  | .track t => t.id

def net : Item K → String
  | .pad p => p.net
  | .via v => v.net
  | .track t => t.net

/-- The item has copper on the layer. -/
def On (layer : BoardLayer) : Item K → Prop
  | .pad p => layer ∈ p.layers
  | .via v => layer ∈ v.layers
  | .track t => t.layer = layer

/-- The chords of an arc have its id. -/
def IsChord : Item K → Prop
  | .track t => t.collisionGeometryUnsupported = true
  | .pad _ | .via _ => False

/-- The pad, whose own clearance counts. -/
def asPad : Item K → Option (RoutePad K)
  | .pad p => some p
  | .via _ | .track _ => none

def distance (J : JsMath K) (point : Vec2 K) : Item K → Option K
  | .pad p => padDistance J point p
  | .via v => some (viaDistance J point v)
  | .track t => trackDistance J point t

noncomputable def copper : Item ℝ → Option (Set ℂ)
  | .pad p => padCopper p
  | .via v => some (viaCopper v)
  | .track t => trackCopper t

end Item

def items (input : RouteInput K) : List (Item K) :=
  input.pads.map .pad ++ input.vias.map .via ++ input.tracks.map .track

/-- No two items have an id in common, but for the chords of an arc. -/
def DistinctIds (input : RouteInput K) : Prop :=
  (items input).Pairwise fun a b => a.id = b.id → a.IsChord ∧ b.IsChord

end Items

/-- **How far an item is**, as it is computed, is how far its copper is. -/
theorem infEDist_copper (toFixed : ℝ → ℕ → String) (p : Vec2 ℝ) (item : Item ℝ) :
    item.copper.map (infEDist (toC p)) =
      (item.distance (realMath toFixed) p).map ENNReal.ofReal := by
  cases item with
  | pad pad => exact infEDist_padCopper p pad
  | via via =>
    exact congrArg some (infEDist_disc p via.position (by linarith [via.diameter_nonneg]))
  | track track =>
    rw [Item.copper, Item.distance, trackCopper, trackDistance]
    cases track.collisionGeometryUnsupported with
    | true => rfl
    | false =>
      exact congrArg some (infEDist_thickened (by linarith [track.width_nonneg])
        (infEDist_segment p track.start track.stop))

/-! ### Collisions -/

section Collisions

variable (input : RouteInput ℝ)

/-- Where a track that leaves from the endpoint has copper. -/
def trackEnd (endpoint : RoutePad ℝ) : Set ℂ :=
  closedBall (toC endpoint.position) (radius input endpoint)

/-- The item is of another net, and its copper on the layer is too close to the endpoint. -/
def Collides (endpoint : RoutePad ℝ) (layer : BoardLayer) (item : Item ℝ) : Prop :=
  item.On layer ∧ item.net ≠ endpoint.net ∧ ∃ copper, item.copper = some copper ∧
    gap (trackEnd input endpoint) copper <
      ENNReal.ofReal (required input endpoint item.net item.asPad)

/-- The pad is at an end of a connection that is open. -/
def IsEndpoint (connections : List RouteConnection) (pad : RoutePad ℝ) : Prop :=
  pad ∈ input.pads ∧
    ∃ connection ∈ connections, pad.id = connection.fromItemId ∨ pad.id = connection.toItemId

variable (endpoint : RoutePad ℝ) (layer : BoardLayer)

/-- What is found to be too close. -/
def TooClose (distance : Option ℝ) (net : String) (pad : Option (RoutePad ℝ)) : Prop :=
  ∃ d, distance = some d ∧ max 0 (d - radius input endpoint) < required input endpoint net pad

lemma radius_nonneg : 0 ≤ radius input endpoint :=
  div_nonneg (rules input endpoint.net).trackWidth_nonneg zero_le_two

/-- An item is found to be too close if its copper is. -/
lemma tooClose_iff (toFixed : ℝ → ℕ → String) (item : Item ℝ) : TooClose input endpoint
    (item.distance (realMath toFixed) endpoint.position) item.net item.asPad ↔
      ∃ copper, item.copper = some copper ∧ gap (trackEnd input endpoint) copper <
        ENNReal.ofReal (required input endpoint item.net item.asPad) := by
  have hgap : ∀ (copper : Set ℂ) (d : ℝ),
      infEDist (toC endpoint.position) copper = ENNReal.ofReal d →
      gap (trackEnd input endpoint) copper =
        ENNReal.ofReal (max 0 (d - radius input endpoint)) := by
    intro copper d h
    rw [trackEnd, gap_closedBall _ (radius_nonneg input endpoint), h, ofReal_max_zero,
      ENNReal.ofReal_sub _ (radius_nonneg input endpoint)]
  have hcopper := infEDist_copper toFixed endpoint.position item
  constructor
  · rintro ⟨d, hd, hlt⟩
    rw [hd] at hcopper
    obtain ⟨copper, hsome, hdist⟩ := Option.map_eq_some_iff.mp hcopper
    refine ⟨copper, hsome, ?_⟩
    rwa [hgap copper d hdist, ENNReal.ofReal_lt_ofReal_iff_of_nonneg (le_max_left _ _)]
  · rintro ⟨copper, hsome, hlt⟩
    rw [hsome] at hcopper
    obtain ⟨d, hd, hdist⟩ := Option.map_eq_some_iff.mp hcopper.symm
    refine ⟨d, hd, ?_⟩
    rwa [hgap copper d hdist.symm,
      ENNReal.ofReal_lt_ofReal_iff_of_nonneg (le_max_left _ _)] at hlt

/-! ### One item after the other -/

variable {input endpoint layer}

lemma seen_check (id net : String) (type : BlockerType) (distance : Option ℝ)
    (pad : Option (RoutePad ℝ)) (s : Probe ℝ) :
    (check input endpoint layer id net type distance pad s).seen = s.seen := by
  rw [check]
  split_ifs
  · rfl
  · cases distance with
    | none => rfl
    | some d =>
      dsimp only
      split_ifs <;> rfl

lemma mem_testedItems_check {id net x : String} {type : BlockerType} {distance : Option ℝ}
    {pad : Option (RoutePad ℝ)} {s : Probe ℝ}
    (hx : x ∈ (check input endpoint layer id net type distance pad s).testedItems) :
    x ∈ s.testedItems ∨ x = id := by
  rw [check] at hx
  split_ifs at hx
  · exact .inl hx
  · have hmem : x ∈ s.testedItems ++ [id] := by
      cases distance with
      | none => exact hx
      | some d =>
        dsimp only at hx
        split_ifs at hx <;> exact hx
    exact (List.mem_append.mp hmem).imp_right List.mem_singleton.mp

lemma total_check {id net : String} (type : BlockerType) {distance : Option ℝ}
    {pad : Option (RoutePad ℝ)} {s : Probe ℝ} (hid : id ≠ endpoint.id) (hnet : net ≠ endpoint.net)
    (hnew : id ∉ s.testedItems) (hclose : TooClose input endpoint distance net pad) :
    (check input endpoint layer id net type distance pad s).total = s.total + 1 := by
  obtain ⟨d, rfl, hlt⟩ := hclose
  rw [check, if_neg (by tauto)]
  dsimp only
  rw [if_neg (not_le.mpr hlt)]

lemma total_check_of_not {id net : String} (type : BlockerType) {distance : Option ℝ}
    {pad : Option (RoutePad ℝ)} (s : Probe ℝ)
    (h : ¬(net ≠ endpoint.net ∧ TooClose input endpoint distance net pad)) :
    (check input endpoint layer id net type distance pad s).total = s.total := by
  rw [check]
  split_ifs with hskip
  · rfl
  cases distance with
  | none => rfl
  | some d =>
    dsimp only
    rw [if_pos]
    by_contra hlt
    exact h ⟨fun hnet => hskip (.inr (.inl hnet)), d, rfl, not_le.mp hlt⟩

section Visits

variable (input endpoint layer) (toFixed : ℝ → ℕ → String)

/-- The endpoint against an item, on the layer. -/
noncomputable def visit (s : Probe ℝ) : Item ℝ → Probe ℝ
  | .pad pad => checkPad (realMath toFixed) input endpoint layer s pad
  | .via via => checkVia (realMath toFixed) input endpoint layer s via
  | .track track => checkTrack (realMath toFixed) input endpoint layer s track

variable {input endpoint layer toFixed}

lemma distance_skipped {pad : RoutePad ℝ}
    (h : skipped (realMath toFixed) input endpoint pad = true) (p : Vec2 ℝ) :
    padDistance (realMath toFixed) p pad = none := by
  have hcustom : pad.shape = .custom :=
    of_decide_eq_true (Bool.and_eq_true_iff.mp h).1
  rw [padDistance, hcustom]
  exact ite_self none

/-- An item is left as it is if it is not on the layer, or its copper is not known. -/
lemma visit_cases (s : Probe ℝ) (item : Item ℝ) :
    visit input endpoint layer toFixed s item = s ∧
        (item.On layer → item.distance (realMath toFixed) endpoint.position = none) ∨
      item.On layer ∧ ∃ type, visit input endpoint layer toFixed s item =
        check input endpoint layer item.id item.net type
          (item.distance (realMath toFixed) endpoint.position) item.asPad s := by
  cases item with
  | pad pad =>
    by_cases hon : layer ∈ pad.layers
    · by_cases hskip : skipped (realMath toFixed) input endpoint pad = true
      · refine .inl ⟨?_, fun _ => distance_skipped hskip _⟩
        rw [visit, checkPad, if_pos hon, if_pos hskip]
      · refine .inr ⟨hon, .pad, ?_⟩
        rw [visit, checkPad, if_pos hon, if_neg hskip]
        rfl
    · exact .inl ⟨by rw [visit, checkPad, if_neg hon], fun h => absurd h hon⟩
  | via via =>
    by_cases hon : layer ∈ via.layers
    · exact .inr ⟨hon, .via, by rw [visit, checkVia, if_pos hon]; rfl⟩
    · exact .inl ⟨by rw [visit, checkVia, if_neg hon], fun h => absurd h hon⟩
  | track track =>
    by_cases hon : track.layer = layer
    · exact .inr ⟨hon, .track, by rw [visit, checkTrack, if_pos hon]; rfl⟩
    · exact .inl ⟨by rw [visit, checkTrack, if_neg hon], fun h => absurd h hon⟩

lemma seen_visit (s : Probe ℝ) (item : Item ℝ) :
    (visit input endpoint layer toFixed s item).seen = s.seen := by
  rcases visit_cases s item with ⟨h, -⟩ | ⟨-, type, h⟩
  · rw [h]
  · rw [h, seen_check]

lemma mem_testedItems_visit {s : Probe ℝ} {item : Item ℝ} {x : String}
    (hx : x ∈ (visit input endpoint layer toFixed s item).testedItems) :
    x ∈ s.testedItems ∨ x = item.id := by
  rcases visit_cases s item with ⟨h, -⟩ | ⟨-, type, h⟩
  · rw [h] at hx
    exact .inl hx
  · rw [h] at hx
    exact mem_testedItems_check hx

lemma total_visit {s : Probe ℝ} {item : Item ℝ} (hid : item.id ≠ endpoint.id)
    (hnew : item.id ∉ s.testedItems) (hcollides : Collides input endpoint layer item) :
    (visit input endpoint layer toFixed s item).total = s.total + 1 := by
  obtain ⟨hon, hnet, hcopper⟩ := hcollides
  have hclose := (tooClose_iff input endpoint toFixed item).mpr hcopper
  rcases @visit_cases input endpoint layer toFixed s item with ⟨-, h⟩ | ⟨-, type, h⟩
  · obtain ⟨d, hd, -⟩ := hclose
    rw [h hon] at hd
    cases hd
  · rw [h, total_check type hid hnet hnew hclose]

lemma total_visit_of_not (s : Probe ℝ) {item : Item ℝ}
    (hcollides : ¬Collides input endpoint layer item) :
    (visit input endpoint layer toFixed s item).total = s.total := by
  rcases visit_cases s item with ⟨h, -⟩ | ⟨hon, type, h⟩
  · rw [h]
  · rw [h, total_check_of_not type s fun hclose =>
      hcollides ⟨hon, hclose.1, (tooClose_iff input endpoint toFixed item).mp hclose.2⟩]

lemma not_collides_of_isChord {item : Item ℝ} (h : item.IsChord) :
    ¬Collides input endpoint layer item := by
  rintro ⟨-, -, copper, hcopper, -⟩
  cases item with
  | pad p => exact h
  | via v => exact h
  | track t =>
    rw [Item.copper, trackCopper, if_pos (show t.collisionGeometryUnsupported = true from h)]
      at hcopper
    cases hcopper

/-! ### One layer of an endpoint -/

open Classical in
/-- The items that collide with the endpoint on the layer. -/
noncomputable def blockers (input : RouteInput ℝ) (endpoint : RoutePad ℝ) (layer : BoardLayer) :
    List (Item ℝ) :=
  (items input).filter fun item => Collides input endpoint layer item

lemma seen_visits (l : List (Item ℝ)) (s : Probe ℝ) :
    (l.foldl (visit input endpoint layer toFixed) s).seen = s.seen := by
  induction l generalizing s with
  | nil => rfl
  | cons item l ih => rw [List.foldl_cons, ih, seen_visit]

open Classical in
/-- **All items**, one after the other: of those that are left, only chords have been tested. -/
lemma total_visits (l : List (Item ℝ)) (s : Probe ℝ)
    (hids : l.Pairwise fun a b => a.id = b.id → a.IsChord ∧ b.IsChord)
    (hself : ∀ item ∈ l, item.id = endpoint.id → item.net = endpoint.net)
    (htested : ∀ item ∈ l, item.id ∈ s.testedItems → item.IsChord) :
    (l.foldl (visit input endpoint layer toFixed) s).total =
      s.total + (l.filter fun item => Collides input endpoint layer item).length := by
  induction l generalizing s with
  | nil => rfl
  | cons item l ih =>
    obtain ⟨hitem, hids⟩ := List.pairwise_cons.mp hids
    have htested' : ∀ other ∈ l,
        other.id ∈ (visit input endpoint layer toFixed s item).testedItems → other.IsChord := by
      intro other hother hmem
      rcases mem_testedItems_visit hmem with h | h
      · exact htested other (List.mem_cons_of_mem _ hother) h
      · exact (hitem other hother h.symm).2
    rw [List.foldl_cons, ih _ hids (fun other h => hself other (List.mem_cons_of_mem _ h)) htested']
    by_cases hcollides : Collides input endpoint layer item
    · have hid : item.id ≠ endpoint.id := fun h =>
        hcollides.2.1 (hself item List.mem_cons_self h)
      have hnew : item.id ∉ s.testedItems := fun h =>
        not_collides_of_isChord (htested item List.mem_cons_self h) hcollides
      rw [total_visit hid hnew hcollides, List.filter_cons_of_pos (by simpa using hcollides),
        List.length_cons]
      omega
    · rw [total_visit_of_not s hcollides, List.filter_cons_of_neg (by simpa using hcollides)]

lemma probeLayer_of_new {s : Tally ℝ} (hnew : key endpoint layer ∉ s.seen) :
    probeLayer (realMath toFixed) input endpoint s layer =
      ((items input).foldl (visit input endpoint layer toFixed)
        { s with
          seen := s.seen ++ [key endpoint layer]
          testedEndpoints := s.testedEndpoints + 1 }).toTally := by
  rw [probeLayer, if_neg hnew, items, List.foldl_append, List.foldl_append, List.foldl_map,
    List.foldl_map, List.foldl_map]
  rfl

end Visits

/-! ### All endpoints -/

section Endpoints

variable {toFixed : ℝ → ℕ → String} {connections : List RouteConnection}

lemma DistinctIds.eq_or_isChord (hids : DistinctIds input) {a b : Item ℝ} (ha : a ∈ items input)
    (hb : b ∈ items input) (hid : a.id = b.id) : a = b ∨ a.IsChord ∧ b.IsChord := by
  have : Std.Symm fun a b : Item ℝ => a.id = b.id → a.IsChord ∧ b.IsChord :=
    ⟨fun _ _ h hid => (h hid.symm).symm⟩
  by_contra h
  obtain ⟨hne, hchord⟩ := not_or.mp h
  exact hchord (List.Pairwise.forall hids ha hb hne hid)

lemma pad_mem_items {pad : RoutePad ℝ} (h : pad ∈ input.pads) : Item.pad pad ∈ items input :=
  List.mem_append_left _ (List.mem_append_left _ (List.mem_map_of_mem h))

lemma DistinctIds.eq_pad (hids : DistinctIds input) {pad : RoutePad ℝ} (hpad : pad ∈ input.pads)
    {item : Item ℝ} (hitem : item ∈ items input) (hid : item.id = pad.id) : item = .pad pad :=
  (hids.eq_or_isChord hitem (pad_mem_items hpad) hid).resolve_right fun h => h.2

lemma DistinctIds.pad_inj (hids : DistinctIds input) {p q : RoutePad ℝ} (hp : p ∈ input.pads)
    (hq : q ∈ input.pads) (hid : p.id = q.id) : p = q :=
  Item.pad.inj (hids.eq_pad hq (pad_mem_items hp) hid)

lemma DistinctIds.nodup_pads (hids : DistinctIds input) :
    ((input.pads.map fun p => (p.id, p)).map Prod.fst).Nodup := by
  rw [DistinctIds, items, List.append_assoc] at hids
  have hpads := (List.pairwise_append.mp hids).1
  rw [List.pairwise_map] at hpads
  rw [List.Nodup, List.map_map, List.pairwise_map]
  exact hpads.imp fun h hid => (h hid).1

lemma DistinctIds.padOf_eq_some_iff (hids : DistinctIds input) {itemId : String}
    {pad : RoutePad ℝ} : padOf input itemId = some pad ↔ pad ∈ input.pads ∧ pad.id = itemId := by
  rw [padOf, Writes.get?_ofList]
  constructor
  · intro h
    obtain ⟨p, hp, heq⟩ := List.mem_map.mp (Writes.mem_of_lastWrite h)
    cases heq
    exact ⟨hp, rfl⟩
  · rintro ⟨hp, rfl⟩
    exact Writes.lastWrite_of_mem hids.nodup_pads (List.mem_map.mpr ⟨pad, hp, rfl⟩)

/-- What is probed, in order. -/
noncomputable def probes (input : RouteInput ℝ) (connections : List RouteConnection) :
    List (RoutePad ℝ × BoardLayer) :=
  (connections.flatMap fun c => [c.fromItemId, c.toItemId]).flatMap fun itemId =>
    ((padOf input itemId).map fun pad => pad.layers.map (pad, ·)).getD []

lemma probe_eq (connections : List RouteConnection) :
    probe (realMath toFixed) input connections = (probes input connections).foldl
      (fun s x => probeLayer (realMath toFixed) input x.1 s x.2) {} := by
  rw [probes, List.foldl_flatMap, List.foldl_flatMap]
  refine congrArg (fun f => List.foldl f _ _) (funext fun s => funext fun connection => ?_)
  refine congrArg (fun f => List.foldl f _ _) (funext fun s => funext fun itemId => ?_)
  rw [probeEnd]
  cases padOf input itemId with
  | none => rfl
  | some pad =>
    rw [Option.map_some, Option.getD_some, List.foldl_map]

lemma DistinctIds.mem_probes_iff (hids : DistinctIds input) {x : RoutePad ℝ × BoardLayer} :
    x ∈ probes input connections ↔ IsEndpoint input connections x.1 ∧ x.2 ∈ x.1.layers := by
  have hends : ∀ itemId, itemId ∈ connections.flatMap (fun c => [c.fromItemId, c.toItemId]) ↔
      ∃ c ∈ connections, itemId = c.fromItemId ∨ itemId = c.toItemId := by
    simp [List.mem_flatMap, List.mem_cons, List.not_mem_nil, or_false]
  rw [probes, List.mem_flatMap]
  constructor
  · rintro ⟨itemId, hmem, hx⟩
    cases hpad : padOf input itemId with
    | none =>
      rw [hpad] at hx
      cases hx
    | some pad =>
      rw [hpad] at hx
      obtain ⟨layer, hlayer, rfl⟩ := List.mem_map.mp hx
      obtain ⟨hp, rfl⟩ := hids.padOf_eq_some_iff.mp hpad
      exact ⟨⟨hp, (hends _).mp hmem⟩, hlayer⟩
  · rintro ⟨⟨hp, hc⟩, hlayer⟩
    refine ⟨x.1.id, (hends _).mpr hc, ?_⟩
    rw [hids.padOf_eq_some_iff.mpr ⟨hp, rfl⟩]
    exact List.mem_map.mpr ⟨x.2, hlayer, rfl⟩

lemma DistinctIds.key_inj (hids : DistinctIds input) {x y : RoutePad ℝ × BoardLayer}
    (hx : x.1 ∈ input.pads) (hy : y.1 ∈ input.pads) (h : key x.1 x.2 = key y.1 y.2) : x = y := by
  obtain ⟨hid, hlayer⟩ := FreshNames.keyed_inj (by decide) h
  exact Prod.ext (hids.pad_inj hx hy hid) hlayer

lemma DistinctIds.total_items (hids : DistinctIds input) (hpad : endpoint ∈ input.pads)
    (s : Probe ℝ) (htested : s.testedItems = []) :
    ((items input).foldl (visit input endpoint layer toFixed) s).total =
      s.total + (blockers input endpoint layer).length := by
  refine total_visits _ s hids (fun item hitem hid => ?_) fun item _ hmem => ?_
  · rw [hids.eq_pad hpad hitem hid]
    rfl
  · rw [htested] at hmem
    cases hmem

/-- What has been probed is known by its keys, and its collisions are counted. -/
structure Counted (input : RouteInput ℝ) (done : Finset (RoutePad ℝ × BoardLayer))
    (s : Tally ℝ) : Prop where
  pads : ∀ x ∈ done, x.1 ∈ input.pads
  seen : ∀ k, k ∈ s.seen ↔ ∃ x ∈ done, key x.1 x.2 = k
  total : s.total = ∑ x ∈ done, (blockers input x.1 x.2).length

open Classical in
lemma Counted.step (toFixed : ℝ → ℕ → String) (hids : DistinctIds input)
    {done : Finset (RoutePad ℝ × BoardLayer)} {s : Tally ℝ} (h : Counted input done s)
    {x : RoutePad ℝ × BoardLayer} (hx : x.1 ∈ input.pads) :
    Counted input (insert x done) (probeLayer (realMath toFixed) input x.1 s x.2) := by
  have hpads : ∀ y ∈ insert x done, y.1 ∈ input.pads := by
    intro y hy
    rcases Finset.mem_insert.mp hy with rfl | hy
    · exact hx
    · exact h.pads y hy
  by_cases hseen : key x.1 x.2 ∈ s.seen
  · obtain ⟨y, hy, hkey⟩ := (h.seen _).mp hseen
    obtain rfl := hids.key_inj (h.pads y hy) hx hkey
    rw [probeLayer, if_pos hseen, Finset.insert_eq_of_mem hy]
    exact h
  · have hnew : x ∉ done := fun hmem => hseen ((h.seen _).mpr ⟨x, hmem, rfl⟩)
    rw [probeLayer_of_new hseen]
    refine ⟨hpads, fun k => ?_, ?_⟩
    · rw [seen_visits]
      simp only [List.mem_append, List.mem_singleton, h.seen, Finset.mem_insert,
        exists_eq_or_imp]
      exact or_comm.trans (or_congr_left eq_comm)
    · rw [hids.total_items hx _ rfl, Finset.sum_insert hnew, h.total, add_comm]

open Classical in
lemma Counted.run (toFixed : ℝ → ℕ → String) (hids : DistinctIds input)
    (l : List (RoutePad ℝ × BoardLayer)) (hl : ∀ x ∈ l, x.1 ∈ input.pads)
    {done : Finset (RoutePad ℝ × BoardLayer)} {s : Tally ℝ} (h : Counted input done s) :
    Counted input (l.toFinset ∪ done)
      (l.foldl (fun s x => probeLayer (realMath toFixed) input x.1 s x.2) s) := by
  induction l generalizing done s with
  | nil => rwa [List.toFinset_nil, Finset.empty_union]
  | cons x l ih =>
    have hstep := ih (fun y hy => hl y (List.mem_cons_of_mem x hy))
      (h.step toFixed hids (hl x List.mem_cons_self))
    rwa [Finset.union_insert, ← Finset.insert_union, ← List.toFinset_cons] at hstep

lemma counted_empty (input : RouteInput ℝ) : Counted input ∅ {} :=
  ⟨fun _ h => absurd h (Finset.notMem_empty _), fun _ => by simp, rfl⟩

open Classical in
lemma DistinctIds.nodup_blockers (hids : DistinctIds input) :
    (blockers input endpoint layer).Nodup := by
  refine (List.Pairwise.filter _ hids).imp_of_mem fun ha _ h heq => ?_
  exact not_collides_of_isChord (h (congrArg Item.id heq)).1
    (of_decide_eq_true (List.mem_filter.mp ha).2)

/-- The collisions: an endpoint, one of its layers, and an item that is too close there. -/
def collisions (input : RouteInput ℝ) (connections : List RouteConnection) :
    Set (RoutePad ℝ × BoardLayer × Item ℝ) :=
  {t | IsEndpoint input connections t.1 ∧ t.2.1 ∈ t.1.layers ∧ t.2.2 ∈ items input ∧
    Collides input t.1 t.2.1 t.2.2}

open Classical in
lemma DistinctIds.encard_collisions (hids : DistinctIds input) :
    (collisions input connections).encard =
      ∑ x ∈ (probes input connections).toFinset, (blockers input x.1 x.2).length := by
  set found := (probes input connections).toFinset.sigma fun x => (blockers input x.1 x.2).toFinset
  have hset : collisions input connections =
      (fun t : (_ : RoutePad ℝ × BoardLayer) × Item ℝ => (t.1.1, t.1.2, t.2)) '' found := by
    ext ⟨pad, layer, item⟩
    constructor
    · rintro ⟨hend, hlayer, hitem, hcollides⟩
      refine ⟨⟨(pad, layer), item⟩, Finset.mem_coe.mpr (Finset.mem_sigma.mpr ⟨?_, ?_⟩), rfl⟩
      · exact List.mem_toFinset.mpr (hids.mem_probes_iff.mpr ⟨hend, hlayer⟩)
      · exact List.mem_toFinset.mpr (List.mem_filter.mpr ⟨hitem, decide_eq_true hcollides⟩)
    · rintro ⟨⟨x, i⟩, hmem, heq⟩
      cases heq
      obtain ⟨hx, hi⟩ := Finset.mem_sigma.mp (Finset.mem_coe.mp hmem)
      obtain ⟨hend, hlayer⟩ := hids.mem_probes_iff.mp (List.mem_toFinset.mp hx)
      obtain ⟨hitem, hcollides⟩ := List.mem_filter.mp (List.mem_toFinset.mp hi)
      exact ⟨hend, hlayer, hitem, of_decide_eq_true hcollides⟩
  have hinj : Function.Injective fun t : (_ : RoutePad ℝ × BoardLayer) × Item ℝ =>
      (t.1.1, t.1.2, t.2) := by
    rintro ⟨⟨p, l⟩, i⟩ ⟨⟨p', l'⟩, i'⟩ h
    cases h
    rfl
  rw [hset, hinj.encard_image, Set.encard_coe_eq_coe_finsetCard, Finset.card_sigma]
  refine congrArg _ (Finset.sum_congr rfl fun x _ => ?_)
  exact List.toFinset_card_of_nodup hids.nodup_blockers

open Classical in
lemma DistinctIds.total_probe (hids : DistinctIds input) :
    ((probe (realMath toFixed) input connections).total : ℕ∞) =
      (collisions input connections).encard := by
  have hrun := (counted_empty input).run toFixed hids (probes input connections)
    fun x hx => (hids.mem_probes_iff.mp hx).1.1
  rw [probe_eq, hrun.total, Finset.union_empty, hids.encard_collisions]

/-! ### Boxes -/

/-- What the box of a custom pad has in it. -/
def inBox (b : Box ℝ) : Set ℂ :=
  {z | b.x ≤ z.re ∧ z.re ≤ b.x + b.w ∧ b.y ≤ z.im ∧ z.im ≤ b.y + b.h}

lemma abs_interval_le {lo size p z : ℝ} (h1 : lo ≤ z) (h2 : z ≤ lo + size) :
    |max (max (lo - p) 0) (p - lo - size)| ≤ |p - z| := by
  rw [abs_of_nonneg ((le_max_right _ _).trans (le_max_left _ _))]
  refine max_le (max_le ?_ (abs_nonneg _)) ?_
  · exact le_trans (by linarith) (neg_le_abs (p - z))
  · exact le_trans (by linarith) (le_abs_self (p - z))

lemma lowerBound_le (p : Vec2 ℝ) {b : Box ℝ} {z : ℂ} (hz : z ∈ inBox b) :
    lowerBound (realMath toFixed) p b ≤ dist (toC p) z := by
  rw [Complex.dist_eq]
  exact sqrt_le_norm (abs_interval_le hz.1 hz.2.1) (abs_interval_le hz.2.2.1 hz.2.2.2)

lemma required_le_gap {pad : RoutePad ℝ} {b : Box ℝ} (hbounds : pad.bounds = some b)
    (hskip : skipped (realMath toFixed) input endpoint pad = true) :
    ENNReal.ofReal (required input endpoint pad.net (some pad)) ≤
      gap (trackEnd input endpoint) (inBox b) := by
  have hle : required input endpoint pad.net (some pad) ≤
      lowerBound (realMath toFixed) endpoint.position b - radius input endpoint := by
    have hany := (Bool.and_eq_true_iff.mp hskip).2
    rw [hbounds] at hany
    exact of_decide_eq_true hany
  rw [trackEnd, gap_closedBall _ (radius_nonneg input endpoint)]
  refine (ENNReal.ofReal_le_ofReal hle).trans ?_
  rw [ENNReal.ofReal_sub _ (radius_nonneg input endpoint)]
  refine tsub_le_tsub_right (le_infEDist.mpr fun z hz => ?_) _
  rw [edist_dist]
  exact ENNReal.ofReal_le_ofReal (lowerBound_le _ hz)

end Endpoints

end Collisions

/-! ### What is shown -/

section Shown

variable {K : Type} [Field K] [LinearOrder K] {J : JsMath K} {input : RouteInput K}
  {endpoint : RoutePad K} {layer : BoardLayer}

/-- Up to 24 collisions are shown. -/
def Shown (s : Tally K) : Prop := s.collisions.length = min 24 s.total

lemma shown_check {s : Probe K} (h : Shown s.toTally) (id net : String) (type : BlockerType)
    (distance : Option K) (pad : Option (RoutePad K)) :
    Shown (check input endpoint layer id net type distance pad s).toTally := by
  rw [check]
  split_ifs
  · exact h
  cases distance with
  | none => exact h
  | some d =>
    dsimp only
    split_ifs with hfar hfew
    · exact h
    · have h' : s.collisions.length = min 24 s.total := h
      change (s.collisions ++ [_]).length = min 24 (s.total + 1)
      rw [List.length_append, List.length_singleton]
      omega
    · have h' : s.collisions.length = min 24 s.total := h
      change s.collisions.length = min 24 (s.total + 1)
      omega

lemma shown_probeLayer {s : Tally K} (h : Shown s) (layer : BoardLayer) :
    Shown (probeLayer J input endpoint s layer) := by
  rw [probeLayer]
  split_ifs
  · exact h
  refine List.foldlRecOn (motive := fun s : Probe K => Shown s.toTally) input.tracks _ ?_ ?_
  · refine List.foldlRecOn (motive := fun s : Probe K => Shown s.toTally) input.vias _ ?_ ?_
    · refine List.foldlRecOn (motive := fun s : Probe K => Shown s.toTally) input.pads _ h ?_
      intro s hs pad _
      rw [checkPad]
      split_ifs
      · exact hs
      · exact shown_check hs _ _ _ _ _
      · exact hs
    · intro s hs via _
      rw [checkVia]
      split_ifs
      · exact shown_check hs _ _ _ _ _
      · exact hs
  · intro s hs track _
    rw [checkTrack]
    split_ifs
    · exact shown_check hs _ _ _ _ _
    · exact hs

lemma shown_probe (connections : List RouteConnection) : Shown (probe J input connections) := by
  refine List.foldlRecOn (motive := Shown) connections _ rfl fun s hs connection _ => ?_
  refine List.foldlRecOn (motive := Shown) _ _ hs fun s hs itemId _ => ?_
  rw [probeEnd]
  cases padOf input itemId with
  | none => exact hs
  | some endpoint =>
    exact List.foldlRecOn (motive := Shown) _ _ hs fun s hs layer _ => shown_probeLayer hs layer

/-- **The list is cut off** exactly when there are more than 24 collisions. -/
theorem truncated_iff (connections : List RouteConnection) :
    (endpointCollisions J input connections).truncated = true ↔
      24 < (endpointCollisions J input connections).total := by
  have hshown : (probe J input connections).collisions.length =
      min 24 (probe J input connections).total := shown_probe connections
  rw [endpointCollisions, decide_eq_true_iff]
  dsimp only
  omega

end Shown

/-! ### What the report says -/

/-- **The report is exact.** As many collisions are reported as there are endpoints, layers and
items with copper that is too close, each once; and a pad that is left out for its box is not
closer to the box than required. -/
theorem report_exact (toFixed : ℝ → ℕ → String) (input : RouteInput ℝ) (hids : DistinctIds input)
    (connections : List RouteConnection) :
    ((endpointCollisions (realMath toFixed) input connections).total : ℕ∞) =
        (collisions input connections).encard ∧
      ∀ (endpoint pad : RoutePad ℝ) (b : Box ℝ), pad.bounds = some b →
        skipped (realMath toFixed) input endpoint pad = true →
          ENNReal.ofReal (required input endpoint pad.net (some pad)) ≤
            gap (trackEnd input endpoint) (inBox b) :=
  ⟨hids.total_probe, fun _ _ _ hbounds hskip => required_le_gap hbounds hskip⟩

section Board

variable {K : Type} [Field K] [LinearOrder K] [IsStrictOrderedRing K]

/-- A round pad, on one layer. -/
def padAt (id net : String) (x : K) : RoutePad K where
  id := id
  footprint := id
  number := "1"
  net := net
  position := ⟨x, 0⟩
  size := ⟨1, 1⟩
  shape := .circle
  rotation := 0
  layers := [3]
  clearance := none
  bounds := none
  cornerRadius := none
  collisionGeometryUnsupported := false

/-- Two pads of a net, and one of another net that is too close to the first. -/
def collisionBoard : RouteInput K where
  copperLayers := [⟨3, "BL_F_Cu", "F.Cu"⟩]
  pads := [padAt "endpoint" "A" 0, padAt "target" "A" 10, padAt "blocker" "B" (7 / 10)]
  tracks := []
  vias := []
  rules := ⟨1 / 10, ⟨1 / 5, 1 / 5, by positivity⟩, .empty⟩

lemma distinctIds_collisionBoard : DistinctIds (collisionBoard : RouteInput K) := by
  simp [DistinctIds, items, collisionBoard, padAt, Item.id]

end Board

theorem report_exact_collisionBoard :
    ((endpointCollisions (realMath fun _ _ => "") collisionBoard [⟨"endpoint", "target"⟩]).total :
        ℕ∞) = (collisions collisionBoard [⟨"endpoint", "target"⟩]).encard :=
  (report_exact _ _ distinctIds_collisionBoard _).1

/-- A connection that is given twice is probed once. -/
example :
    (endpointCollisions ⟨0, fun x y => max |x| |y|, fun _ => 1, fun _ => 0, fun _ _ => ""⟩
      (collisionBoard : RouteInput ℚ)
      [⟨"endpoint", "target"⟩, ⟨"endpoint", "target"⟩]).total = 1 := by
  decide +kernel

end FabPcb.EndpointCollisions
