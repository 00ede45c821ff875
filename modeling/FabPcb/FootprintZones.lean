import FabPcb.DsnWriter
import FabPcb.FootprintItems
import Mathlib.Tactic.FieldSimp
import Mathlib.Tactic.Linarith

/-!
The zones that a router is given, and what moving a footprint does to them.

A zone of the board is taken as it is. A zone in a footprint is taken to be in the footprint's
own coordinates, and is turned and moved as the footprint is placed. An arc of an outline is
taken in steps.
-/

namespace FabPcb.FootprintZones

open OrderedMap FootprintItems
open SpecctraData (Vec2 BoardLayer roundHalfUp)
open DsnWriter (RouteKeepout isCopperLayer copperLayersInOrder)

/-! ### Arcs -/

section Arcs

variable (J : JsMath)

/-- Twice the area of the triangle of three places, with a sign. -/
def arcD (start mid stop : Vec2) : ℚ :=
  2 * (start.x * (mid.y - stop.y) + mid.x * (stop.y - start.y) + stop.x * (start.y - mid.y))

/-- The centre of the circle through three places. -/
def arcCenter (start mid stop : Vec2) : Vec2 :=
  let d := arcD start mid stop
  let a2 := start.x * start.x + start.y * start.y
  let b2 := mid.x * mid.x + mid.y * mid.y
  let c2 := stop.x * stop.x + stop.y * stop.y
  ⟨(a2 * (mid.y - stop.y) + b2 * (stop.y - start.y) + c2 * (start.y - mid.y)) / d,
    (a2 * (stop.x - mid.x) + b2 * (start.x - stop.x) + c2 * (mid.x - start.x)) / d⟩

/-- How far it is from one angle to another, counterclockwise. -/
def ccw (a b : ℚ) : ℚ := remainder (remainder (b - a) (2 * J.pi) + 2 * J.pi) (2 * J.pi)

/-- The sweep from the first angle to the last that passes through the one between. -/
def arcSweep (a0 am a1 : ℚ) : ℚ :=
  if ccw J a0 am ≤ ccw J a0 a1 then ccw J a0 a1 else ccw J a0 a1 - 2 * J.pi

def arcPoints (start mid stop : Vec2) (maxStepDeg : ℚ) : List Vec2 :=
  if |arcD start mid stop| < 1 / 10 ^ 9 then [start, stop]
  else
    let c := arcCenter start mid stop
    let r := J.hypot (start.x - c.x) (start.y - c.y)
    let a0 := J.atan2 (start.y - c.y) (start.x - c.x)
    let am := J.atan2 (mid.y - c.y) (mid.x - c.x)
    let a1 := J.atan2 (stop.y - c.y) (stop.x - c.x)
    let sweep := arcSweep J a0 am a1
    let steps := max 2 ⌈|sweep| / (maxStepDeg * J.pi / 180)⌉.toNat
    (List.range (steps + 1)).map fun i =>
      if i = 0 then start
      else if i = steps then stop
      else ⟨c.x + r * J.cos (a0 + sweep * i / steps), c.y + r * J.sin (a0 + sweep * i / steps)⟩

end Arcs

/-! ### Extraction -/

section Extract

variable (J : JsMath)

def nodePoints (pts : List Vec2) : NodeGeometry → List Vec2
  | .point value => pts ++ [vec2 (some value)]
  | .arc start mid stop =>
    let arc := arcPoints J (vec2 start) (vec2 mid) (vec2 stop) 10
    pts ++ if pts.isEmpty then arc else arc.drop 1
  | .unset => pts

def polygonsOf (set : Option PolySet) : List (List Vec2) :=
  ((set.elim [] (·.polygons)).map fun poly =>
    (poly.outline.elim [] (·.nodes)).foldl (nodePoints J) []).filter (3 ≤ ·.length)

structure ZoneFill where
  layer : BoardLayer
  polygons : List (List Vec2)

structure RouteZone extends DsnWriter.RouteZone where
  id : String
  name : String
  netCode : ℤ
  fills : List ZoneFill

/-- What a rule area keeps out, through a transform. -/
def keepoutsOf (transform : Vec2 → Vec2) (z : Zone) : List RouteKeepout :=
  match z.settings with
  | .ruleAreaSettings keepoutCopper keepoutVias keepoutTracks =>
    if keepoutCopper || keepoutTracks || keepoutVias then
      (polygonsOf J z.outline).map fun polygon =>
        { id := z.id, name := z.name, layers := copperLayersInOrder z.layers,
          polygon := polygon.map transform, tracks := keepoutTracks, vias := keepoutVias,
          copper := keepoutCopper }
    else []
  | _ => []

/-- The zone of copper that a zone is, through a transform. -/
def routeZoneOf (transform : Vec2 → Vec2) (z : Zone) : List RouteZone :=
  match z.settings, polygonsOf J z.outline with
  | .copperSettings net, polygon :: _ =>
    let layers := copperLayersInOrder z.layers
    if z.type ≠ .ruleArea ∧ layers ≠ [] then
      [{ id := z.id, name := z.name, net := net.elim "" (·.name),
         netCode := (net.bind (·.code)).getD 0, layers := layers,
         polygon := polygon.map transform,
         fills := z.filledPolygons.map fun f =>
           ⟨f.layer, (polygonsOf J f.shapes).map (·.map transform)⟩ }]
    else []
  | _, _ => []

/-- Where a footprint is placed, and its turn in degrees. -/
structure Pose where
  origin : Vec2
  orientation : ℚ

def pose (f : FootprintInstance) : Pose := ⟨vec2 f.position, deg f.orientation⟩

/-- From the coordinates of a footprint to those of the board. -/
def placed (p : Pose) (point : Vec2) : Vec2 :=
  let angle := p.orientation * J.pi / 180
  ⟨roundHalfUp (p.origin.x + point.x * J.cos angle + point.y * J.sin angle),
    roundHalfUp (p.origin.y - point.x * J.sin angle + point.y * J.cos angle)⟩

/-- The zones of the board, which the router gets from `GetItems`, and the footprints. -/
structure Board where
  zones : List Zone
  footprints : List FootprintInstance

def embedded (f : FootprintInstance) : List Zone :=
  (f.definition.elim [] (·.items)).filterMap fun
    | .zone item => some item
    | _ => none

/-- The zones by their ids, with the places of the footprints that they are in. -/
abbrev ZoneMap := OMap String (Zone × Option Pose)

def addZone (p : Pose) (m : ZoneMap) (z : Zone) : ZoneMap :=
  if m.has z.id then m else m.set z.id (z, some p)

def addFootprint (m : ZoneMap) (f : FootprintInstance) : ZoneMap :=
  (embedded f).foldl (addZone (pose f)) m

def allZones (b : Board) : ZoneMap :=
  b.footprints.foldl addFootprint (.ofList (b.zones.map fun z => (z.id, (z, none))))

def transformOf (p : Option Pose) : Vec2 → Vec2 := p.elim id (placed J)

structure Extracted where
  keepouts : List RouteKeepout
  zones : List RouteZone

/-- The keepouts and the zones of `extractRouteInput`. -/
def extractZones (b : Board) : Extracted where
  keepouts := (allZones b).values.flatMap fun e => keepoutsOf J (transformOf J e.2) e.1
  zones := (allZones b).values.flatMap fun e => routeZoneOf J (transformOf J e.2) e.1

end Extract

/-! ### Arcs that are moved -/

variable {J : JsMath} {s m e v c : Vec2} {k : ℤ} {a b : ℚ}

/-- A place moved by another. -/
def plus (c v : Vec2) : Vec2 := ⟨v.x + c.x, v.y + c.y⟩

lemma arcD_plus : arcD (plus c s) (plus c m) (plus c e) = arcD s m e := by
  simp only [arcD, plus]
  ring

lemma arcD_turn : arcD (turn s) (turn m) (turn e) = arcD s m e := by
  simp only [arcD, turn]
  ring

lemma arcCenter_plus (h : arcD s m e ≠ 0) :
    arcCenter (plus c s) (plus c m) (plus c e) = plus c (arcCenter s m e) := by
  have hd : arcD (plus c s) (plus c m) (plus c e) = arcD s m e := arcD_plus
  simp only [arcCenter, hd]
  simp only [plus, Vec2.mk.injEq]
  constructor
  · rw [div_add' _ _ _ h]
    simp only [arcD]
    ring
  · rw [div_add' _ _ _ h]
    simp only [arcD]
    ring

lemma arcCenter_turn : arcCenter (turn s) (turn m) (turn e) = turn (arcCenter s m e) := by
  have hd : arcD (turn s) (turn m) (turn e) = arcD s m e := arcD_turn
  simp only [arcCenter, hd]
  simp only [turn, Vec2.mk.injEq]
  exact ⟨by ring, by ring⟩

lemma arcCenter_bisects (h : arcD s m e ≠ 0) :
    2 * ((m.x - s.x) * (arcCenter s m e).x + (m.y - s.y) * (arcCenter s m e).y) =
      m.x * m.x + m.y * m.y - (s.x * s.x + s.y * s.y) ∧
    2 * ((e.x - s.x) * (arcCenter s m e).x + (e.y - s.y) * (arcCenter s m e).y) =
      e.x * e.x + e.y * e.y - (s.x * s.x + s.y * s.y) := by
  simp only [arcCenter]
  constructor
  · rw [← mul_div_assoc, ← mul_div_assoc, ← add_div, ← mul_div_assoc, div_eq_iff h]
    simp only [arcD]
    ring
  · rw [← mul_div_assoc, ← mul_div_assoc, ← add_div, ← mul_div_assoc, div_eq_iff h]
    simp only [arcD]
    ring

lemma eq_zero_of_sq {x y : ℚ} (h : x * x + y * y = 0) : x = 0 ∧ y = 0 :=
  ⟨by nlinarith [mul_self_nonneg x, mul_self_nonneg y],
    by nlinarith [mul_self_nonneg x, mul_self_nonneg y]⟩

lemma arcD_eq_zero (h : m = s ∨ e = s) : arcD s m e = 0 := by
  rcases h with rfl | rfl
  · simp only [arcD]
    ring
  · simp only [arcD]
    ring

lemma arcCenter_ne (h : arcD s m e ≠ 0) {v : Vec2} (hv : v = s ∨ v = m ∨ v = e) :
    (v.x - (arcCenter s m e).x, v.y - (arcCenter s m e).y) ≠ (0, 0) := by
  obtain ⟨hmid, hstop⟩ := arcCenter_bisects h
  intro hzero
  obtain ⟨hx, hy⟩ := Prod.mk.inj hzero
  have hx' : (arcCenter s m e).x = v.x := by linarith
  have hy' : (arcCenter s m e).y = v.y := by linarith
  rw [hx', hy'] at hmid hstop
  have hsame : ∀ w : Vec2, (w.x - s.x) * (w.x - s.x) + (w.y - s.y) * (w.y - s.y) = 0 → w = s := by
    intro w hw
    obtain ⟨h₁, h₂⟩ := eq_zero_of_sq hw
    rw [Vec2.mk.injEq]
    exact ⟨by linarith, by linarith⟩
  rcases hv with rfl | rfl | rfl
  · exact h (arcD_eq_zero (Or.inl (hsame m (by linarith))))
  · exact h (arcD_eq_zero (Or.inl (hsame v (by linarith))))
  · exact h (arcD_eq_zero (Or.inr (hsame v (by linarith))))

/-- What is left of a number after whole parts, whatever the sign. -/
lemma remainder_add_remainder (hb : 0 < b) :
    remainder (remainder a b + b) b = b * Int.fract (a / b) := by
  have hne : b ≠ 0 := hb.ne'
  have hwhole : ∀ (z : ℤ) (x : ℚ), (x - b * z) / b = x / b - z := by
    intro z x
    rw [sub_div, mul_div_cancel_left₀ _ hne]
  have hpositive : ∀ x : ℚ, 0 ≤ x / b → remainder x b = b * Int.fract (x / b) := by
    intro x hx
    rw [remainder, if_pos hx, Int.fract, mul_sub, mul_div_cancel₀ _ hne]
  have hshift : ∀ (z : ℤ) (x : ℚ), 0 ≤ (x - b * z + b) / b →
      remainder (x - b * z + b) b = b * Int.fract (x / b) := by
    intro z x hx
    rw [hpositive _ hx, add_div, hwhole, div_self hne]
    have hint : x / b - z + 1 = x / b + ((1 - z : ℤ) : ℚ) := by
      push_cast
      ring
    rw [hint, Int.fract_add_intCast]
  by_cases hpos : 0 ≤ a / b
  · rw [show remainder a b = a - b * ⌊a / b⌋ from if_pos hpos]
    refine hshift _ _ ?_
    rw [add_div, hwhole, div_self hne]
    linarith [Int.floor_le (a / b)]
  · rw [show remainder a b = a - b * ⌈a / b⌉ from if_neg hpos]
    refine hshift _ _ ?_
    rw [add_div, hwhole, div_self hne]
    linarith [Int.ceil_lt_add_one (a / b)]

lemma ccw_turns (i j : ℤ) : ccw J (a + i * (2 * J.pi)) (b + j * (2 * J.pi)) = ccw J a b := by
  have hpos : 0 < 2 * J.pi := by linarith [J.pi_pos]
  have hdiff : (b + j * (2 * J.pi) - (a + i * (2 * J.pi))) / (2 * J.pi) =
      (b - a) / (2 * J.pi) + ((j - i : ℤ) : ℚ) := by
    rw [div_add' _ _ _ hpos.ne']
    push_cast
    ring
  rw [ccw, ccw, remainder_add_remainder hpos, remainder_add_remainder hpos, hdiff,
    Int.fract_add_intCast]

lemma cos_turns (k : ℤ) : J.cos (a + k * (2 * J.pi)) = J.cos a ∧
    J.sin (a + k * (2 * J.pi)) = J.sin a := by
  have hturn : ∀ a, J.cos (a + 2 * J.pi) = J.cos a ∧ J.sin (a + 2 * J.pi) = J.sin a := by
    intro a
    have hfour : a + 2 * J.pi = a + J.pi / 2 + J.pi / 2 + J.pi / 2 + J.pi / 2 := by ring
    rw [hfour]
    simp [J.cos_quarter, J.sin_quarter, neg_neg, and_self]
  induction k using Int.induction_on with
  | zero => simp
  | succ n ih =>
    have hnext : a + ((n + 1 : ℤ) : ℚ) * (2 * J.pi) = a + (n : ℤ) * (2 * J.pi) + 2 * J.pi := by
      push_cast
      ring
    rw [hnext, (hturn _).1, (hturn _).2]
    exact ih
  | pred n ih =>
    have hnext : a + (-(n : ℤ) : ℤ) * (2 * J.pi) =
        a + ((-(n : ℤ) - 1 : ℤ) : ℚ) * (2 * J.pi) + 2 * J.pi := by
      push_cast
      ring
    rw [hnext, (hturn _).1, (hturn _).2] at ih
    exact ih

lemma cos_back (k : ℤ) : J.cos (a - J.pi / 2 + k * (2 * J.pi)) = J.sin a ∧
    J.sin (a - J.pi / 2 + k * (2 * J.pi)) = -J.cos a := by
  rw [(cos_turns k).1, (cos_turns k).2]
  have hc := J.cos_quarter (a - J.pi / 2)
  have hs := J.sin_quarter (a - J.pi / 2)
  rw [sub_add_cancel] at hc hs
  exact ⟨hs.symm, by rw [hc, neg_neg]⟩

lemma arcSweep_back (a0 am a1 : ℚ) (i j l : ℤ) :
    arcSweep J (a0 - J.pi / 2 + i * (2 * J.pi)) (am - J.pi / 2 + j * (2 * J.pi))
      (a1 - J.pi / 2 + l * (2 * J.pi)) = arcSweep J a0 am a1 := by
  have hback : ∀ x y, ccw J (x - J.pi / 2) (y - J.pi / 2) = ccw J x y := by
    intro x y
    rw [ccw, ccw, sub_sub_sub_cancel_right]
  simp [arcSweep, ccw_turns, hback]

lemma small_arcD (h : ¬ |arcD s m e| < 1 / 10 ^ 9) : arcD s m e ≠ 0 := by
  intro hzero
  rw [hzero] at h
  exact h (by norm_num)

/-- **An arc that is moved** is taken in the steps of the arc, moved. -/
lemma arcPoints_plus (d : ℚ) : arcPoints J (plus c s) (plus c m) (plus c e) d =
    (arcPoints J s m e d).map (plus c) := by
  rw [arcPoints, arcPoints, arcD_plus]
  by_cases h : |arcD s m e| < 1 / 10 ^ 9
  · rw [if_pos h, if_pos h]
    rfl
  · rw [if_neg h, if_neg h, arcCenter_plus (small_arcD h)]
    simp only [plus, add_sub_add_right_eq_sub, List.map_map]
    refine List.map_congr_left fun i _ => ?_
    rw [Function.comp_apply]
    split
    · rfl
    · split
      · rfl
      · exact Vec2.mk.injEq .. ▸ ⟨add_right_comm _ _ _, add_right_comm _ _ _⟩

/-- **An arc that is turned** is taken in the steps of the arc, turned. -/
lemma arcPoints_turn (d : ℚ) : arcPoints J (turn s) (turn m) (turn e) d =
    (arcPoints J s m e d).map turn := by
  rw [arcPoints, arcPoints, arcD_turn]
  by_cases h : |arcD s m e| < 1 / 10 ^ 9
  · rw [if_pos h, if_pos h]
    rfl
  · rw [if_neg h, if_neg h, arcCenter_turn]
    obtain ⟨i, hi⟩ := J.atan2_quarter _ _ (arcCenter_ne (small_arcD h) (Or.inl rfl))
    obtain ⟨j, hj⟩ := J.atan2_quarter _ _ (arcCenter_ne (small_arcD h) (Or.inr (Or.inl rfl)))
    obtain ⟨l, hl⟩ := J.atan2_quarter _ _ (arcCenter_ne (small_arcD h) (Or.inr (Or.inr rfl)))
    have hneg : ∀ x y : ℚ, -x - -y = -(x - y) := fun x y => by ring
    simp only [turn, hneg, hi, hj, hl, arcSweep_back, J.hypot_quarter, List.map_map]
    refine List.map_congr_left fun n _ => ?_
    rw [Function.comp_apply]
    split
    · rfl
    · split
      · rfl
      · generalize arcSweep J _ _ _ * (n : ℚ) / _ = b
        have hangle : J.atan2 (s.y - (arcCenter s m e).y) (s.x - (arcCenter s m e).x) -
              J.pi / 2 + i * (2 * J.pi) + b =
            J.atan2 (s.y - (arcCenter s m e).y) (s.x - (arcCenter s m e).x) + b -
              J.pi / 2 + i * (2 * J.pi) := by ring
        rw [hangle, (cos_back i).1, (cos_back i).2, Vec2.mk.injEq]
        exact ⟨rfl, by rw [mul_neg]; exact (neg_add _ _).symm⟩

/-! ### Zones that are moved -/

/-- A motion of the board by whole quarter turns. -/
def motion (k : ℤ) (c : Vec2) (v : Vec2) : Vec2 := plus c (turns k v)

lemma arcPoints_motion (d : ℚ) : arcPoints J (motion k c s) (motion k c m) (motion k c e) d =
    (arcPoints J s m e d).map (motion k c) := by
  have hturns : ∀ n, arcPoints J (turn^[n] s) (turn^[n] m) (turn^[n] e) d =
      (arcPoints J s m e d).map turn^[n] := by
    intro n
    induction n with
    | zero => simp
    | succ n ih =>
      simp only [Function.iterate_succ_apply']
      rw [arcPoints_turn, ih, List.map_map]
      exact List.map_congr_left fun v _ => (Function.iterate_succ_apply' turn n v).symm
  simp only [motion, turns]
  rw [arcPoints_plus, hturns, List.map_map]
  rfl

lemma motion_about (o : Vec2) (k : ℤ) (v : Vec2) : about o k v =
    motion k ⟨o.x - (turns k o).x, o.y - (turns k o).y⟩ v := by
  have hturns : ∀ n, turn^[n] ⟨v.x - o.x, v.y - o.y⟩ =
      ⟨(turn^[n] v).x - (turn^[n] o).x, (turn^[n] v).y - (turn^[n] o).y⟩ := by
    intro n
    induction n with
    | zero => rfl
    | succ n ih =>
      simp only [Function.iterate_succ_apply', ih, turn, Vec2.mk.injEq]
      exact ⟨trivial, by ring⟩
  simp only [about, motion, plus, turns, hturns, Vec2.mk.injEq]
  exact ⟨by ring, by ring⟩

/-- A move of the places in messages that is a motion of the board. -/
def Moves (point : Option Vector2 → Vector2) (g : Vec2 → Vec2) : Prop :=
  ∃ k c, g = motion k c ∧ ∀ v, vec2 (some (point v)) = g (vec2 v)

variable {point : Option Vector2 → Vector2} {g : Vec2 → Vec2} {z z' : Zone}

lemma nodePoints_map (h : Moves point g) (pts : List Vec2) (n : NodeGeometry) :
    nodePoints J (pts.map g) (mapNode point n) = (nodePoints J pts n).map g := by
  obtain ⟨k, c, rfl, hpoint⟩ := h
  cases n with
  | point value => simp [nodePoints, mapNode, hpoint, List.map_append]
  | arc start mid stop =>
    simp [nodePoints, mapNode, hpoint, arcPoints_motion, List.isEmpty_map, List.map_append,
      ← List.map_drop, apply_ite (List.map (motion k c))]
  | unset => rfl

lemma polygonsOf_map (h : Moves point g) (set : Option PolySet) :
    polygonsOf J (set.map (mapPolySet point)) = (polygonsOf J set).map (List.map g) := by
  have hnodes : ∀ (nodes : List NodeGeometry) pts,
      (nodes.map (mapNode point)).foldl (nodePoints J) (pts.map g) =
        (nodes.foldl (nodePoints J) pts).map g := by
    intro nodes
    induction nodes with
    | nil => exact fun _ => rfl
    | cons n nodes ih =>
      intro pts
      rw [List.map_cons, List.foldl_cons, List.foldl_cons, nodePoints_map h, ih]
  cases set with
  | none => rfl
  | some set =>
    simp only [polygonsOf, Option.map_some, Option.elim_some, mapPolySet, List.map_map]
    rw [List.filter_map, List.filter_map, List.map_map]
    congr 1
    · funext poly
      cases houtline : poly.outline with
      | none => simp [houtline]
      | some line => simpa [houtline, mapPolyLine] using hnodes line.nodes []
    · refine List.filter_congr fun poly _ => ?_
      cases houtline : poly.outline with
      | none => simp [houtline]
      | some line =>
        have hlength := congrArg List.length (hnodes line.nodes [])
        simpa [houtline, mapPolyLine] using congrArg (3 ≤ ·) hlength

/-- A zone with the outlines of another, moved. -/
structure Carries (J : JsMath) (g : Vec2 → Vec2) (z z' : Zone) : Prop where
  id : z'.id = z.id
  type : z'.type = z.type
  layers : z'.layers = z.layers
  name : z'.name = z.name
  settings : z'.settings = z.settings
  outline : polygonsOf J z'.outline = (polygonsOf J z.outline).map (List.map g)
  fills : (z'.filledPolygons.map fun f => (f.layer, polygonsOf J f.shapes)) =
    z.filledPolygons.map fun f => (f.layer, (polygonsOf J f.shapes).map (List.map g))

lemma carries_mapZone (h : Moves point g) : Carries J g z (mapZone point z) where
  id := rfl
  type := rfl
  layers := rfl
  name := rfl
  settings := rfl
  outline := polygonsOf_map h z.outline
  fills := by
    rw [mapZone, List.map_map]
    exact List.map_congr_left fun f _ => congrArg _ (polygonsOf_map h f.shapes)

lemma carries_id : Carries J id z z where
  id := rfl
  type := rfl
  layers := rfl
  name := rfl
  settings := rfl
  outline := by simp
  fills := by simp

/-- A keepout, and a zone of copper, with its places moved. -/
def moveKeepout (g : Vec2 → Vec2) (r : RouteKeepout) : RouteKeepout :=
  { r with polygon := r.polygon.map g }

def moveZone (g : Vec2 → Vec2) (r : RouteZone) : RouteZone :=
  { r with
    polygon := r.polygon.map g
    fills := r.fills.map fun f => ⟨f.layer, f.polygons.map (List.map g)⟩ }

lemma keepoutsOf_carries (h : Carries J g z z') (T T' : Vec2 → Vec2) :
    keepoutsOf J T z = (keepoutsOf J id z).map (moveKeepout T) ∧
      keepoutsOf J T' z' = (keepoutsOf J id z).map (moveKeepout (T' ∘ g)) := by
  cases hs : z.settings with
  | ruleAreaSettings keepoutCopper keepoutVias keepoutTracks =>
    simp only [keepoutsOf, h.settings, hs, h.id, h.name, h.layers, h.outline]
    by_cases hany : (keepoutCopper || keepoutTracks || keepoutVias) = true
    · simp only [if_pos hany, List.map_map]
      refine ⟨List.map_congr_left fun polygon _ => ?_, List.map_congr_left fun polygon _ => ?_⟩
      · simp [moveKeepout]
      · simp [moveKeepout]
    · simp only [if_neg hany, List.map_nil, and_self]
  | copperSettings net => simp [keepoutsOf, h.settings, hs, List.map_nil, and_self]
  | unset => simp [keepoutsOf, h.settings, hs, List.map_nil, and_self]

lemma routeZoneOf_carries (h : Carries J g z z') (T T' : Vec2 → Vec2) :
    routeZoneOf J T z = (routeZoneOf J id z).map (moveZone T) ∧
      routeZoneOf J T' z' = (routeZoneOf J id z).map (moveZone (T' ∘ g)) := by
  have hfills : (z'.filledPolygons.map fun f =>
        (⟨f.layer, (polygonsOf J f.shapes).map (·.map T')⟩ : ZoneFill)) =
      z.filledPolygons.map fun f =>
        ⟨f.layer, ((polygonsOf J f.shapes).map (List.map g)).map (·.map T')⟩ := by
    have := congrArg (List.map fun x : BoardLayer × List (List Vec2) =>
      (⟨x.1, x.2.map (·.map T')⟩ : ZoneFill)) h.fills
    rw [List.map_map, List.map_map] at this
    exact this
  cases hs : z.settings with
  | copperSettings net =>
    cases ho : polygonsOf J z.outline with
    | nil => simp [routeZoneOf, h.settings, hs, h.outline, ho, List.map_nil, and_self]
    | cons polygon rest =>
      simp only [routeZoneOf, h.settings, hs, h.outline, ho, List.map_cons, h.id, h.name,
        h.layers, h.type, hfills]
      by_cases hok : z.type ≠ .ruleArea ∧ copperLayersInOrder z.layers ≠ []
      · simp only [if_pos hok]
        simp [moveZone]
      · simp [if_neg hok, List.map_nil, and_self]
  | ruleAreaSettings keepoutCopper keepoutVias keepoutTracks =>
    simp [routeZoneOf, h.settings, hs, List.map_nil, and_self]
  | unset => simp [routeZoneOf, h.settings, hs, List.map_nil, and_self]

/-! ### The zones of one footprint -/

/-- The zones that come before those of a footprint. -/
def zonesBefore (zones : List Zone) (before : List FootprintInstance) : ZoneMap :=
  allZones ⟨zones, before⟩

/-- An id by which a zone of a footprint is taken: none of the zones of the board, and of the
footprints before, has it. -/
def own (zones : List Zone) (before : List FootprintInstance) (f : FootprintInstance)
    (id : String) : Bool :=
  !(zonesBefore zones before).has id && (embedded f).any (·.id = id)

/-- The keepouts and zones of a footprint have followed a motion, and the others stayed. -/
structure Follows (mine : String → Bool) (g : Vec2 → Vec2) (x x' : Extracted) : Prop where
  keepouts : x'.keepouts = x.keepouts.map fun r => if mine r.id then moveKeepout g r else r
  zones : x'.zones = x.zones.map fun r => if mine r.id then moveZone g r else r

/-- The places that the router is given of a zone, before they are placed. -/
def points (J : JsMath) (z : Zone) : List Vec2 :=
  (keepoutsOf J id z).flatMap (·.polygon) ++
    (routeZoneOf J id z).flatMap fun r => r.polygon ++ r.fills.flatMap fun f => f.polygons.flatten

/-- An entry before and after its footprint is moved. -/
structure EntryMoved (J : JsMath) (mine : String → Bool) (g : Vec2 → Vec2) (q q' : Pose)
    (e e' : String × Zone × Option Pose) : Prop where
  key : e'.1 = e.1
  id : e.2.1.id = e.1
  moved : mine e.1 = true → e.2.2 = some q ∧ e'.2.2 = some q' ∧ Carries J g e.2.1 e'.2.1
  others : mine e.1 = false → e' = e

variable {mine : String → Bool} {q q' : Pose} {m m' : ZoneMap} {f f' : FootprintInstance}
  {zones : List Zone} {before after : List FootprintInstance}

lemma has_iff_keys {id : String} : m.has id = true ↔ id ∈ m.entries.map Prod.fst := by
  rw [← OMap.mem_keys_iff_has, OMap.keys]

lemma moved_keys (h : List.Forall₂ (EntryMoved J mine g q q') m.entries m'.entries) :
    m'.entries.map Prod.fst = m.entries.map Prod.fst := by
  generalize m.entries = l, m'.entries = l' at h
  induction h with
  | nil => rfl
  | cons he _ ih => rw [List.map_cons, List.map_cons, he.key, ih]

lemma moved_has (h : List.Forall₂ (EntryMoved J mine g q q') m.entries m'.entries)
    (id : String) : m'.has id = m.has id := by
  rw [Bool.eq_iff_iff, has_iff_keys, has_iff_keys, moved_keys h]

lemma set_new {id : String} {e : Zone × Option Pose} (h : m.has id = false) :
    (m.set id e).entries = m.entries ++ [(id, e)] := by
  have hnot : id ∉ m.entries.map Prod.fst := by
    rw [← has_iff_keys, h]
    exact Bool.false_ne_true
  exact if_neg hnot

lemma has_addZone {p : Pose} {z : Zone} {id : String} :
    (addZone p m z).has id = (m.has id || decide (id = z.id)) := by
  rw [addZone]
  by_cases h : m.has z.id = true
  · rw [if_pos h]
    by_cases hid : id = z.id
    · rw [hid, h, Bool.true_or]
    · simp [hid]
  · rw [if_neg h, OMap.has_set, Bool.or_comm]

lemma moved_addZone {p : Pose} {z : Zone}
    (h : List.Forall₂ (EntryMoved J mine g q q') m.entries m'.entries)
    (hmine : mine z.id = true → m.has z.id = true) :
    List.Forall₂ (EntryMoved J mine g q q') (addZone p m z).entries
      (addZone p m' z).entries := by
  rw [addZone, addZone, moved_has h]
  cases hhas : m.has z.id with
  | true => exact h
  | false =>
    have hhas' : m'.has z.id = false := by rw [moved_has h, hhas]
    rw [if_neg Bool.false_ne_true, if_neg Bool.false_ne_true, set_new hhas, set_new hhas']
    refine List.rel_append h (List.Forall₂.cons ⟨rfl, rfl, fun h' => ?_, fun _ => rfl⟩ .nil)
    rw [hmine h'] at hhas
    cases hhas

lemma moved_addOwn {z z' : Zone} (hz : Carries J g z z')
    (h : List.Forall₂ (EntryMoved J mine g q q') m.entries m'.entries)
    (hmine : m.has z.id = false → mine z.id = true) :
    List.Forall₂ (EntryMoved J mine g q q') (addZone q m z).entries
      (addZone q' m' z').entries := by
  rw [addZone, addZone, hz.id, moved_has h]
  cases hhas : m.has z.id with
  | true => exact h
  | false =>
    have hhas' : m'.has z.id = false := by rw [moved_has h, hhas]
    rw [if_neg Bool.false_ne_true, if_neg Bool.false_ne_true, set_new hhas, set_new hhas']
    refine List.rel_append h (List.Forall₂.cons ⟨rfl, rfl, fun _ => ⟨rfl, rfl, hz⟩, ?_⟩ .nil)
    intro hno
    rw [hmine hhas] at hno
    cases hno

lemma moved_addZones (p : Pose) (zs : List Zone)
    (h : List.Forall₂ (EntryMoved J mine g q q') m.entries m'.entries)
    (hmine : ∀ id, mine id = true → m.has id = true) :
    List.Forall₂ (EntryMoved J mine g q q') (zs.foldl (addZone p) m).entries
        (zs.foldl (addZone p) m').entries ∧
      ∀ id, mine id = true → (zs.foldl (addZone p) m).has id = true := by
  induction zs generalizing m m' with
  | nil => exact ⟨h, hmine⟩
  | cons z zs ih =>
    refine ih (moved_addZone h (hmine z.id)) fun id hid => ?_
    rw [has_addZone, hmine id hid, Bool.true_or]

lemma moved_addFootprints {fs : List FootprintInstance}
    (h : List.Forall₂ (EntryMoved J mine g q q') m.entries m'.entries)
    (hmine : ∀ id, mine id = true → m.has id = true) :
    List.Forall₂ (EntryMoved J mine g q q') (fs.foldl addFootprint m).entries
      (fs.foldl addFootprint m').entries := by
  induction fs generalizing m m' with
  | nil => exact h
  | cons f fs ih =>
    obtain ⟨h', hmine'⟩ := moved_addZones (pose f) (embedded f) h hmine
    exact ih h' hmine'

lemma moved_addOwns {zs zs' : List Zone} (hzs : List.Forall₂ (Carries J g) zs zs')
    (h : List.Forall₂ (EntryMoved J mine g q q') m.entries m'.entries)
    (hmine : ∀ z ∈ zs, m.has z.id = false → mine z.id = true) :
    List.Forall₂ (EntryMoved J mine g q q') (zs.foldl (addZone q) m).entries
        (zs'.foldl (addZone q') m').entries ∧
      ∀ id, (m.has id = true ∨ ∃ z ∈ zs, z.id = id) →
        (zs.foldl (addZone q) m).has id = true := by
  induction hzs generalizing m m' with
  | nil => exact ⟨h, fun id hid => hid.resolve_right fun ⟨z, hz, _⟩ => by cases hz⟩
  | @cons z z' zs zs' hz _ ih =>
    have hstep := moved_addOwn hz h (hmine z List.mem_cons_self)
    obtain ⟨h₁, h₂⟩ := ih hstep fun w hw hno => hmine w (List.mem_cons_of_mem _ hw) (by
      rw [has_addZone, Bool.or_eq_false_iff] at hno
      exact hno.1)
    refine ⟨h₁, fun id hid => h₂ id ?_⟩
    rw [has_addZone, Bool.or_eq_true, decide_eq_true_eq]
    rcases hid with hid | ⟨w, hw, rfl⟩
    · exact Or.inl (Or.inl hid)
    · rcases List.mem_cons.mp hw with rfl | hw
      · exact Or.inl (Or.inr rfl)
      · exact Or.inr ⟨w, hw, rfl⟩

/-- Each zone stands under its own id. -/
def Keyed (m : ZoneMap) : Prop := ∀ e ∈ m.entries, e.2.1.id = e.1

lemma keyed_addZone {p : Pose} {z : Zone} (h : Keyed m) : Keyed (addZone p m z) := by
  rw [addZone]
  cases hhas : m.has z.id with
  | true => exact h
  | false =>
    rw [if_neg Bool.false_ne_true]
    intro e he
    rw [set_new hhas] at he
    rcases List.mem_append.mp he with he | he
    · exact h e he
    · rw [List.mem_singleton.mp he]

lemma keyed_addFootprint (h : Keyed m) : Keyed (addFootprint m f) := by
  rw [addFootprint]
  generalize embedded f = zs
  induction zs generalizing m with
  | nil => exact h
  | cons z zs ih => exact ih (keyed_addZone h)

lemma keyed_ofList : Keyed (.ofList (zones.map fun z => (z.id, (z, none)))) := by
  induction zones using List.reverseRecOn with
  | nil => exact fun e he => (by cases he)
  | append_singleton zones z ih =>
    rintro ⟨id, w, p⟩ he
    rw [List.map_append, OMap.ofList, List.foldl_append, ← OMap.get?_eq_some_iff] at he
    simp only [List.map_cons, List.map_nil, List.foldl_cons, List.foldl_nil, OMap.get?_set] at he
    by_cases hid : id = z.id
    · rw [if_pos hid] at he
      cases he
      exact hid.symm
    · rw [if_neg hid] at he
      exact ih _ (OMap.get?_eq_some_iff.mp he)

lemma keyed_allZones (b : Board) : Keyed (allZones b) := by
  rw [allZones]
  generalize hm : OMap.ofList (b.zones.map fun z => (z.id, (z, none))) = m
  have h : Keyed m := hm ▸ keyed_ofList
  clear hm
  induction b.footprints generalizing m with
  | nil => exact h
  | cons f fs ih => exact ih _ (keyed_addFootprint h)

lemma allZones_split (f : FootprintInstance) : allZones ⟨zones, before ++ f :: after⟩ =
    after.foldl addFootprint (addFootprint (zonesBefore zones before) f) := by
  rw [allZones, List.foldl_append]
  rfl

variable (zones before after) in
/-- The zones before and after, where the footprint's own are moved. -/
lemma moved_allZones (hown : List.Forall₂ (Carries J g) (embedded f) (embedded f')) :
    List.Forall₂ (EntryMoved J (own zones before f) g (pose f) (pose f'))
      (allZones ⟨zones, before ++ f :: after⟩).entries
      (allZones ⟨zones, before ++ f' :: after⟩).entries := by
  rw [allZones_split, allZones_split]
  have hbase : List.Forall₂ (EntryMoved J (own zones before f) g (pose f) (pose f'))
      (zonesBefore zones before).entries (zonesBefore zones before).entries := by
    refine List.forall₂_same.mpr fun e he =>
      ⟨rfl, keyed_allZones _ e he, fun hmine => ?_, fun _ => rfl⟩
    have hhas : (zonesBefore zones before).has e.1 = true :=
      has_iff_keys.mpr (List.mem_map_of_mem he)
    rw [own, hhas] at hmine
    cases hmine
  obtain ⟨hstep, hhas⟩ := moved_addOwns hown hbase fun z hz hno => by
    rw [own, hno, Bool.not_false, Bool.true_and, List.any_eq_true]
    exact ⟨z, hz, decide_eq_true rfl⟩
  refine moved_addFootprints hstep fun id hid => hhas id (Or.inr ?_)
  rw [own, Bool.and_eq_true, List.any_eq_true] at hid
  obtain ⟨-, z, hz, hzid⟩ := hid
  exact ⟨z, hz, of_decide_eq_true hzid⟩

/-! ### What the router sees -/

lemma flatMap_eq_iff {α β γ : Type} {R : α → β → Prop} {F : α → List γ} {G : β → List γ}
    {l : List α} {l' : List β} (h : List.Forall₂ R l l')
    (hlength : ∀ x y, R x y → (G y).length = (F x).length) :
    l'.flatMap G = l.flatMap F ↔ List.Forall₂ (fun x y => R x y ∧ G y = F x) l l' := by
  induction h with
  | nil => exact iff_of_true rfl .nil
  | @cons x y l l' hxy _ ih =>
    rw [List.flatMap_cons, List.flatMap_cons, List.forall₂_cons, ← ih]
    constructor
    · intro heq
      obtain ⟨h₁, h₂⟩ := List.append_inj heq (hlength x y hxy)
      exact ⟨⟨hxy, h₁⟩, h₂⟩
    · rintro ⟨⟨-, h₁⟩, h₂⟩
      rw [h₁, h₂]

lemma forall₂_iff {α β : Type} {R : α → β → Prop} {P : α → β → Prop} {Q : α → Prop}
    {l : List α} {l' : List β} (h : List.Forall₂ R l l') (hPQ : ∀ x y, R x y → (P x y ↔ Q x)) :
    List.Forall₂ (fun x y => R x y ∧ P x y) l l' ↔ ∀ x ∈ l, Q x := by
  induction h with
  | nil => exact iff_of_true .nil fun x hx => (by cases hx)
  | @cons x y l l' hxy _ ih =>
    rw [List.forall₂_cons, ih, List.forall_mem_cons, hPQ x y hxy, and_iff_right hxy]

lemma moveKeepout_eq_iff {F G : Vec2 → Vec2} {r : RouteKeepout} :
    moveKeepout F r = moveKeepout G r ↔ ∀ p ∈ r.polygon, F p = G p := by
  simp [moveKeepout, RouteKeepout.mk.injEq, true_and, and_true]

lemma moveZone_eq_iff {F G : Vec2 → Vec2} {r : RouteZone} : moveZone F r = moveZone G r ↔
    ∀ p ∈ r.polygon ++ r.fills.flatMap fun f => f.polygons.flatten, F p = G p := by
  simp only [moveZone, RouteZone.mk.injEq, DsnWriter.RouteZone.mk.injEq, true_and,
    List.map_inj_left, ZoneFill.mk.injEq, List.mem_append, List.mem_flatMap, List.mem_flatten]
  constructor
  · rintro ⟨h₁, h₂⟩ p (hp | ⟨f, hf, ps, hps, hp⟩)
    · exact h₁ p hp
    · exact h₂ f hf ps hps p hp
  · exact fun h => ⟨fun p hp => h p (Or.inl hp),
      fun f hf ps hps p hp => h p (Or.inr ⟨f, hf, ps, hps, hp⟩)⟩

lemma keepoutsOf_id {T : Vec2 → Vec2} {r : RouteKeepout} (h : r ∈ keepoutsOf J T z) :
    r.id = z.id := by
  cases hs : z.settings with
  | ruleAreaSettings keepoutCopper keepoutVias keepoutTracks =>
    simp only [keepoutsOf, hs] at h
    by_cases hany : (keepoutCopper || keepoutTracks || keepoutVias) = true
    · rw [if_pos hany] at h
      obtain ⟨polygon, -, rfl⟩ := List.mem_map.mp h
      rfl
    · rw [if_neg hany] at h
      cases h
  | copperSettings net => simp [keepoutsOf, hs, List.not_mem_nil] at h
  | unset => simp [keepoutsOf, hs, List.not_mem_nil] at h

lemma routeZoneOf_id {T : Vec2 → Vec2} {r : RouteZone} (h : r ∈ routeZoneOf J T z) :
    r.id = z.id := by
  cases hs : z.settings with
  | copperSettings net =>
    cases ho : polygonsOf J z.outline with
    | nil => simp [routeZoneOf, hs, ho, List.not_mem_nil] at h
    | cons polygon rest =>
      simp only [routeZoneOf, hs, ho] at h
      by_cases hok : z.type ≠ .ruleArea ∧ copperLayersInOrder z.layers ≠ []
      · rw [if_pos hok] at h
        rw [List.mem_singleton.mp h]
      · rw [if_neg hok] at h
        cases h
  | ruleAreaSettings keepoutCopper keepoutVias keepoutTracks =>
    simp [routeZoneOf, hs, List.not_mem_nil] at h
  | unset => simp [routeZoneOf, hs, List.not_mem_nil] at h

/-- What the router is given of zones, one kind of it: how its places are moved, and which they
are. -/
structure Emits (J : JsMath) {ρ : Type} (out : (Vec2 → Vec2) → Zone → List ρ)
    (move : (Vec2 → Vec2) → ρ → ρ) (idOf : ρ → String) (places : ρ → List Vec2) : Prop where
  carries : ∀ g z z' T T', Carries J g z z' → out T z = (out id z).map (move T) ∧
    out T' z' = (out id z).map (move (T' ∘ g))
  move_eq_iff : ∀ F G r, move F r = move G r ↔ ∀ p ∈ places r, F p = G p
  move_move : ∀ F G r, move G (move F r) = move (G ∘ F) r
  idOf_move : ∀ F r, idOf (move F r) = idOf r
  idOf : ∀ T z r, r ∈ out T z → idOf r = z.id

lemma emits_keepouts : Emits J (keepoutsOf J) moveKeepout (·.id) (·.polygon) where
  carries g z z' T T' h := keepoutsOf_carries h T T'
  move_eq_iff F G r := moveKeepout_eq_iff
  move_move F G r := by simp [moveKeepout]
  idOf_move F r := rfl
  idOf T z r h := keepoutsOf_id h

lemma emits_zones : Emits J (routeZoneOf J) moveZone (·.id)
    fun r => r.polygon ++ r.fills.flatMap fun f => f.polygons.flatten where
  carries g z z' T T' h := routeZoneOf_carries h T T'
  move_eq_iff F G r := moveZone_eq_iff
  move_move F G r := by simp [moveZone]
  idOf_move F r := rfl
  idOf T z r h := routeZoneOf_id h

/-- What is given of all zones has followed the footprint just when its own places have. -/
lemma emitted_iff {ρ : Type} {out : (Vec2 → Vec2) → Zone → List ρ}
    {move : (Vec2 → Vec2) → ρ → ρ} {idOf : ρ → String} {places : ρ → List Vec2}
    (ho : Emits J out move idOf places) {l l' : List (String × Zone × Option Pose)}
    (h : List.Forall₂ (EntryMoved J mine g q q') l l') :
    (l'.flatMap fun e => out (transformOf J e.2.2) e.2.1) =
        (l.flatMap fun e => out (transformOf J e.2.2) e.2.1).map
          (fun r => if mine (idOf r) then move g r else r) ↔
      ∀ e ∈ l, mine e.1 = true → ∀ r ∈ out id e.2.1, ∀ p ∈ places r,
        placed J q' (g p) = g (placed J q p) := by
  have hown : ∀ x y, EntryMoved J mine g q q' x y → mine x.1 = true →
      out (transformOf J y.2.2) y.2.1 = (out id x.2.1).map (move (placed J q' ∘ g)) ∧
      (out (transformOf J x.2.2) x.2.1).map (fun r => if mine (idOf r) then move g r else r) =
        (out id x.2.1).map (move (g ∘ placed J q)) := by
    intro x y hxy hx
    obtain ⟨hq, hq', hcarries⟩ := hxy.moved hx
    rw [hq, hq']
    obtain ⟨h₁, h₂⟩ := ho.carries g x.2.1 y.2.1 (placed J q) (placed J q') hcarries
    refine ⟨h₂, ?_⟩
    change (out (placed J q) x.2.1).map _ = _
    rw [h₁, List.map_map]
    refine List.map_congr_left fun r hr => ?_
    rw [Function.comp_apply, ho.idOf_move, ho.idOf _ _ r hr, hxy.id, if_pos hx, ho.move_move]
  have hother : ∀ x y, EntryMoved J mine g q q' x y → mine x.1 = false →
      (out (transformOf J x.2.2) x.2.1).map (fun r => if mine (idOf r) then move g r else r) =
        out (transformOf J y.2.2) y.2.1 := by
    intro x y hxy hx
    rw [hxy.others hx]
    refine (List.map_congr_left fun r hr => ?_).trans (List.map_id _)
    rw [ho.idOf _ _ r hr, hxy.id, hx, if_neg Bool.false_ne_true, id]
  rw [List.map_flatMap, flatMap_eq_iff h fun x y hxy => ?_]
  · refine forall₂_iff h fun x y hxy => ?_
    cases hx : mine x.1 with
    | false =>
      rw [hother x y hxy hx]
      exact iff_of_true rfl nofun
    | true =>
      obtain ⟨h₁, h₂⟩ := hown x y hxy hx
      rw [h₁, h₂, List.map_inj_left, imp_iff_right rfl]
      exact forall₂_congr fun r _ => ho.move_eq_iff _ _ r
  · cases hx : mine x.1 with
    | false => rw [hother x y hxy hx]
    | true =>
      obtain ⟨h₁, h₂⟩ := hown x y hxy hx
      rw [h₁, h₂, List.length_map, List.length_map]

/-- **What the router sees of a footprint that is moved** follows the motion just when each
place that it is given of a zone in the footprint does. -/
lemma follows_iff (hown : List.Forall₂ (Carries J g) (embedded f) (embedded f')) :
    Follows (own zones before f) g (extractZones J ⟨zones, before ++ f :: after⟩)
        (extractZones J ⟨zones, before ++ f' :: after⟩) ↔
      ∀ e ∈ (allZones ⟨zones, before ++ f :: after⟩).entries, own zones before f e.1 = true →
        ∀ p ∈ points J e.2.1, placed J (pose f') (g p) = g (placed J (pose f) p) := by
  have hmoved := moved_allZones zones before after hown
  have hkeepouts := emitted_iff emits_keepouts hmoved
  have hzones := emitted_iff emits_zones hmoved
  have hboth : Follows (own zones before f) g (extractZones J ⟨zones, before ++ f :: after⟩)
        (extractZones J ⟨zones, before ++ f' :: after⟩) ↔ _ ∧ _ :=
    ⟨fun h => ⟨h.keepouts, h.zones⟩, fun h => ⟨h.1, h.2⟩⟩
  rw [hboth]
  simp only [extractZones, OMap.values, List.flatMap_map]
  rw [hkeepouts, hzones]
  simp only [points, List.mem_append, List.mem_flatMap]
  constructor
  · rintro ⟨h₁, h₂⟩ e he hmine p (⟨r, hr, hp⟩ | ⟨r, hr, hp⟩)
    · exact h₁ e he hmine r hr p hp
    · exact h₂ e he hmine r hr p (by simpa using hp)
  · intro h
    refine ⟨fun e he hmine r hr p hp => h e he hmine p (Or.inl ⟨r, hr, hp⟩),
      fun e he hmine r hr p hp => h e he hmine p (Or.inr ⟨r, hr, by simpa using hp⟩)⟩

/-! ### Moves of a footprint -/

/-- Both lengths rounded. -/
def rounded (v : Vec2) : Vec2 := ⟨roundHalfUp v.x, roundHalfUp v.y⟩

variable {o : Vec2} {p : Vec2} {dx dy : ℤ}

lemma roundHalfUp_intCast_add (z : ℤ) (x : ℚ) : roundHalfUp (z + x) = z + roundHalfUp x := by
  rw [roundHalfUp, add_assoc, Int.floor_intCast_add, Int.cast_add, roundHalfUp]

lemma placed_eq (ho : Whole q.origin) :
    placed J q p = plus q.origin (rounded (rot J q.orientation p)) := by
  obtain ⟨a, b, hab⟩ := ho
  have hx : q.origin.x = a := by rw [hab]
  have hy : q.origin.y = b := by rw [hab]
  have hx' : (a : ℚ) + p.x * J.cos (q.orientation * J.pi / 180) +
      p.y * J.sin (q.orientation * J.pi / 180) = a + (p.x * J.cos (q.orientation * J.pi / 180) +
        p.y * J.sin (q.orientation * J.pi / 180)) := by ring
  have hy' : (b : ℚ) - p.x * J.sin (q.orientation * J.pi / 180) +
      p.y * J.cos (q.orientation * J.pi / 180) = b + (-p.x * J.sin (q.orientation * J.pi / 180) +
        p.y * J.cos (q.orientation * J.pi / 180)) := by ring
  rw [placed, plus, hx, hy]
  simp only [hx', hy', roundHalfUp_intCast_add, Vec2.mk.injEq]
  exact ⟨add_comm _ _, add_comm _ _⟩

lemma plus_inj {v w : Vec2} : plus c v = plus c w ↔ v = w := by
  simp only [plus, Vec2.mk.injEq, add_left_inj]
  rw [Vec2.mk.injEq]

lemma moves_shifted (dx dy : ℤ) : Moves (shifted ⟨dx, dy⟩) (plus ⟨dx, dy⟩) :=
  ⟨0, ⟨dx, dy⟩, rfl, fun v => vec2_shifted dx dy v⟩

lemma moves_turnedAbout (ho : Whole o) (k : ℤ) :
    Moves (turnedAbout J o (90 * k)) (about o k) :=
  ⟨k, _, funext (motion_about o k), fun v => vec2_turnedAbout ho k v⟩

/-- The zones of a footprint that is shifted. -/
lemma embedded_translate : List.Forall₂ (Carries J (plus ⟨dx, dy⟩)) (embedded f)
    (embedded (FootprintItems.translate ⟨dx, dy⟩ f)) := by
  rw [FootprintItems.translate]
  by_cases hzero : (dx : ℚ) = 0 ∧ (dy : ℚ) = 0
  · rw [hzero.1, hzero.2]
    have hid : plus ⟨0, 0⟩ = id := funext fun v => by simp [plus]
    rw [hid]
    exact List.forall₂_same.mpr fun _ _ => carries_id
  · rw [if_neg hzero]
    cases hdef : f.definition with
    | none => simp [embedded, hdef]
    | some d =>
      simp only [embedded, hdef, Option.map_some, Option.elim_some, translateDefinition]
      induction d.items with
      | nil => exact .nil
      | cons item items ih =>
        cases item with
        | zone z => exact .cons (carries_mapZone (moves_shifted dx dy)) ih
        | pad _ => exact ih
        | referenceImage _ => exact ih
        | referencePoint _ => exact ih
        | barcode _ => exact ih
        | field _ => exact ih
        | text _ => exact ih
        | textBox _ => exact ih
        | shape _ => exact ih
        | dimension _ => exact ih
        | model3D _ => exact ih
        | other _ _ => exact ih

lemma about_emod (o : Vec2) {j k : ℤ} (h : j % 4 = k % 4) : about o j = about o k := by
  funext v
  rw [about, about, ← turns_emod j, ← turns_emod k, h]

lemma rotateShape_child {angle : Option Angle → Angle} {degrees : ℚ} {item : BoardGraphicShape}
    {c : Child} (h : rotateFootprintChild point angle degrees (.shape item) = .ok c) :
    ∃ item', c = .shape item' := by
  cases hs : item.shape with
  | none =>
    simp only [rotateFootprintChild, hs, Except.ok.injEq] at h
    exact ⟨_, h.symm⟩
  | some shape =>
    simp only [rotateFootprintChild, hs] at h
    cases hr : rotateShape point angle degrees shape with
    | error e =>
      rw [hr] at h
      cases h
    | ok shape' =>
      rw [hr] at h
      exact ⟨_, (Except.ok.inj h).symm⟩

/-- The zones among the items that are turned are the zones of the items, turned. -/
lemma carries_rotateItems {angle : Option Angle → Angle} {degrees : ℚ} (hpoint : Moves point g)
    {items items' : List Child}
    (h : List.Forall₂ (fun i i' => rotateFootprintChild point angle degrees i = .ok i') items
      items') :
    List.Forall₂ (Carries J g)
      (items.filterMap fun | .zone item => some item | _ => none)
      (items'.filterMap fun | .zone item => some item | _ => none) := by
  induction h with
  | nil => exact .nil
  | @cons item item' items items' hitem _ ih =>
    cases item with
    | zone z =>
      cases hitem
      exact .cons (carries_mapZone hpoint) ih
    | shape s =>
      obtain ⟨s', rfl⟩ := rotateShape_child hitem
      exact ih
    | pad _ => cases hitem; exact ih
    | referenceImage _ => cases hitem
    | referencePoint _ => cases hitem; exact ih
    | barcode _ => cases hitem; exact ih
    | field _ => cases hitem; exact ih
    | text _ => cases hitem; exact ih
    | textBox _ => cases hitem; exact ih
    | dimension _ => cases hitem; exact ih
    | model3D _ => cases hitem; exact ih
    | other typeUrl known =>
      cases known with
      | true => cases hitem
      | false => cases hitem

lemma forall₂_of_mapM {α β : Type} {F : α → Except String β} {l : List α} {l' : List β}
    (h : l.mapM F = .ok l') : List.Forall₂ (fun x y => F x = .ok y) l l' := by
  induction l generalizing l' with
  | nil =>
    cases h
    exact .nil
  | cons x l ih =>
    rw [List.mapM_cons] at h
    cases hx : F x with
    | error e =>
      rw [hx] at h
      cases h
    | ok y =>
      cases hl : l.mapM F with
      | error e =>
        rw [hx, hl] at h
        cases h
      | ok ys =>
        rw [hx, hl] at h
        cases h
        exact .cons hx (ih hl)

/-- **What a turn by whole quarters comes to**: the turn of the footprint, and that of the zones
in it about its place. -/
lemma rotate_quarters (h : rotate J (90 * k) f = .ok f') :
    List.Forall₂ (Carries J (about (vec2 f.position) k)) (embedded f) (embedded f') ∧
      f'.position = f.position ∧
      ∃ j : ℤ, j % 4 = k % 4 ∧ deg f'.orientation = deg f.orientation + 90 * j := by
  obtain ⟨j, hj, hmod, hzero⟩ := remainder_quarters k
  have hmoves : Moves (turnedAbout J (vec2 f.position) (90 * j)) (about (vec2 f.position) k) :=
    about_emod (vec2 f.position) hmod ▸ moves_turnedAbout (whole_vec2 _) j
  rw [rotate, hj] at h
  by_cases hnone : (90 * j : ℚ) = 0
  · have hj0 : j = 0 := by
      have : (j : ℚ) = 0 := by linarith
      exact_mod_cast this
    have hid : about (vec2 f.position) k = id := by
      rw [about_emod (vec2 f.position) (hmod.symm.trans (hj0 ▸ rfl) : k % 4 = 0 % 4)]
      funext v
      simp [about, turns_zero]
    rw [if_pos hnone] at h
    cases h
    rw [hid]
    exact ⟨List.forall₂_same.mpr fun _ _ => carries_id, rfl, j, hmod, by rw [hnone, add_zero]⟩
  · rw [if_neg hnone] at h
    cases hdef : f.definition with
    | none =>
      simp only [hdef] at h
      cases h
      refine ⟨?_, rfl, j, hmod, rfl⟩
      simp [embedded, hdef]
    | some d =>
      simp only [hdef, rotateDefinition] at h
      generalize hitems : d.items.mapM (rotateFootprintChild _ _ _) = r at h
      cases r with
      | error e => cases h
      | ok items =>
        cases h
        refine ⟨?_, rfl, j, hmod, rfl⟩
        have hcarries := carries_rotateItems (J := J) hmoves (forall₂_of_mapM hitems)
        simpa only [embedded, hdef, Option.elim_some] using hcarries

lemma pose_translate : pose (FootprintItems.translate ⟨dx, dy⟩ f) =
    ⟨plus ⟨dx, dy⟩ (vec2 f.position), deg f.orientation⟩ := by
  rw [FootprintItems.translate]
  by_cases hzero : (dx : ℚ) = 0 ∧ (dy : ℚ) = 0
  · simp [pose, plus, hzero.1, hzero.2]
  · rw [if_neg hzero, pose, vec2_shifted]
    rfl

lemma whole_plus {v w : Vec2} (hv : Whole v) (hw : Whole w) : Whole (plus v w) := by
  obtain ⟨a, b, rfl⟩ := hv
  obtain ⟨c, d, rfl⟩ := hw
  exact ⟨c + a, d + b, by simp [plus, Int.cast_add]⟩

lemma placed_shifted (f : FootprintInstance) (p : Vec2) :
    placed J (pose (FootprintItems.translate ⟨dx, dy⟩ f)) (plus ⟨dx, dy⟩ p) =
        plus ⟨dx, dy⟩ (placed J (pose f) p) ↔
      rounded (rot J (deg f.orientation) (plus ⟨dx, dy⟩ p)) =
        rounded (rot J (deg f.orientation) p) := by
  have hplace : Whole (vec2 f.position) := whole_vec2 _
  have hdelta : Whole (⟨dx, dy⟩ : Vec2) := ⟨dx, dy, rfl⟩
  have hassoc : ∀ v w : Vec2, plus (plus ⟨dx, dy⟩ v) w = plus ⟨dx, dy⟩ (plus v w) := by
    intro v w
    simp only [plus, Vec2.mk.injEq]
    exact ⟨(add_assoc _ _ _).symm, (add_assoc _ _ _).symm⟩
  rw [pose_translate, placed_eq (whole_plus hdelta hplace), placed_eq hplace, pose]
  simp [hassoc, plus_inj]

lemma about_plus (o v : Vec2) (k : ℤ) : about o k (plus o v) = plus o (turns k v) := by
  have hdiff : (⟨(plus o v).x - o.x, (plus o v).y - o.y⟩ : Vec2) = v := by
    simp [plus]
  rw [about, hdiff]
  exact Vec2.mk.injEq .. ▸ ⟨add_comm _ _, add_comm _ _⟩

lemma placed_turned {f f' : FootprintInstance} {j : ℤ} (hposition : f'.position = f.position)
    (hmod : j % 4 = k % 4) (hdeg : deg f'.orientation = deg f.orientation + 90 * j) (p : Vec2) :
    placed J (pose f') (about (vec2 f.position) k p) =
        about (vec2 f.position) k (placed J (pose f) p) ↔
      rounded (turns k (rot J (deg f.orientation) (about (vec2 f.position) k p))) =
        turns k (rounded (rot J (deg f.orientation) p)) := by
  have hplace : Whole (vec2 f.position) := whole_vec2 _
  have hpose : pose f' = ⟨vec2 f.position, deg f.orientation + 90 * j⟩ := by
    rw [pose, hposition, hdeg]
  have hturns : ∀ v, turns j v = turns k v := fun v => by
    rw [← turns_emod, hmod, turns_emod]
  rw [hpose, placed_eq hplace, placed_eq hplace, pose]
  simp [about_plus, plus_inj, rot_add, hturns]

/-! ### What the router sees of a footprint that is moved -/

/-- **Where the zones in a footprint go** when it is moved. Those that the router takes from the
footprint follow a shift of it just when each of their places, turned as the footprint is and
rounded, is where it was without the shift. They follow a turn by whole quarters just when each
of their places, turned about the footprint and then as the footprint is, comes to what it came
to before. The extraction takes the places as the footprint's own, and the moves take them as
places on the board. -/
theorem follows_moved_iff (zones : List Zone) (before after : List FootprintInstance)
    (f f' : FootprintInstance) (dx dy k : ℤ) (h : rotate J (90 * k) f = .ok f') :
    (Follows (own zones before f) (plus ⟨dx, dy⟩) (extractZones J ⟨zones, before ++ f :: after⟩)
        (extractZones J ⟨zones, before ++ FootprintItems.translate ⟨dx, dy⟩ f :: after⟩) ↔
      ∀ e ∈ (allZones ⟨zones, before ++ f :: after⟩).entries, own zones before f e.1 = true →
        ∀ p ∈ points J e.2.1, rounded (rot J (deg f.orientation) (plus ⟨dx, dy⟩ p)) =
          rounded (rot J (deg f.orientation) p)) ∧
    (Follows (own zones before f) (about (vec2 f.position) k)
        (extractZones J ⟨zones, before ++ f :: after⟩)
        (extractZones J ⟨zones, before ++ f' :: after⟩) ↔
      ∀ e ∈ (allZones ⟨zones, before ++ f :: after⟩).entries, own zones before f e.1 = true →
        ∀ p ∈ points J e.2.1,
          rounded (turns k (rot J (deg f.orientation) (about (vec2 f.position) k p))) =
            turns k (rounded (rot J (deg f.orientation) p))) := by
  constructor
  · rw [follows_iff embedded_translate]
    simp only [placed_shifted]
  · obtain ⟨hcarries, hposition, j, hmod, hdeg⟩ := rotate_quarters h
    rw [follows_iff hcarries]
    simp only [placed_turned hposition hmod hdeg]

lemma turns_origin (k : ℤ) : turns k ⟨0, 0⟩ = ⟨0, 0⟩ := by
  rw [turns]
  generalize (k % 4).toNat = n
  induction n with
  | zero => rfl
  | succ n ih => rw [Function.iterate_succ_apply', ih, turn, neg_zero]

lemma four_cases (z : ℤ) : z % 4 = 0 ∧ (z + 1) % 4 = 1 ∨ z % 4 = 1 ∧ (z + 1) % 4 = 2 ∨
    z % 4 = 2 ∧ (z + 1) % 4 = 3 ∨ z % 4 = 3 ∧ (z + 1) % 4 = 0 := by
  omega

/-- The functions on angles at the nearest quarter turn. -/
def quarterMath : JsMath where
  pi := 2
  cos a := if ⌊a⌋ % 4 = 0 then 1 else if ⌊a⌋ % 4 = 2 then -1 else 0
  sin a := if ⌊a⌋ % 4 = 1 then 1 else if ⌊a⌋ % 4 = 3 then -1 else 0
  atan2 y x := if 0 < x ∧ 0 ≤ y then 0 else if x ≤ 0 ∧ 0 < y then 1 else if x < 0 ∧ y ≤ 0 then 2
    else 3
  hypot x y := max |x| |y|
  pi_pos := by norm_num
  cos_zero := by norm_num
  sin_zero := by norm_num
  cos_quarter a := by
    rw [show (2 : ℚ) / 2 = 1 by norm_num, Int.floor_add_one]
    rcases four_cases ⌊a⌋ with ⟨h, h'⟩ | ⟨h, h'⟩ | ⟨h, h'⟩ | ⟨h, h'⟩ <;> simp [h, h']
  sin_quarter a := by
    rw [show (2 : ℚ) / 2 = 1 by norm_num, Int.floor_add_one]
    rcases four_cases ⌊a⌋ with ⟨h, h'⟩ | ⟨h, h'⟩ | ⟨h, h'⟩ | ⟨h, h'⟩ <;> simp [h, h']
  atan2_quarter x y h := by
    by_cases h₀ : 0 < x ∧ 0 ≤ y
    · refine ⟨1, ?_⟩
      rw [if_neg fun h' => by linarith [h₀.1, h'.2], if_neg fun h' => by linarith [h₀.1, h'.2],
        if_neg fun h' => by linarith [h₀.2, h'.1], if_pos h₀]
      norm_num
    by_cases h₁ : x ≤ 0 ∧ 0 < y
    · refine ⟨0, ?_⟩
      rw [if_pos ⟨h₁.2, neg_nonneg.mpr h₁.1⟩, if_neg h₀, if_pos h₁]
      norm_num
    by_cases h₂ : x < 0 ∧ y ≤ 0
    · refine ⟨0, ?_⟩
      rw [if_neg fun h' => by linarith [h₂.2, h'.1], if_pos ⟨h₂.2, neg_pos.mpr h₂.1⟩, if_neg h₀,
        if_neg h₁, if_pos h₂]
      norm_num
    · have hy : y < 0 := by
        by_contra hy
        grind
      have hx : 0 ≤ x := by
        by_contra hx
        exact h₂ ⟨not_le.mp hx, hy.le⟩
      refine ⟨0, ?_⟩
      rw [if_neg fun h' => by linarith [hy, h'.1], if_neg fun h' => by linarith [hx, h'.2],
        if_pos ⟨hy, neg_nonpos.mpr hx⟩, if_neg h₀, if_neg h₁, if_neg h₂]
      norm_num
  hypot_quarter x y := by rw [abs_neg, max_comm]

/-- A keepout for copper in a footprint, a triangle. -/
def ruleArea (a b c : Vector2) : Zone where
  id := "area"
  type := .ruleArea
  layers := [3]
  outline := some ⟨[⟨some ⟨[.point a, .point b, .point c], true⟩, []⟩]⟩
  name := ""
  settings := .ruleAreaSettings true false false
  filledPolygons := []
  layerProperties := []

def withArea (a b c : Vector2) (orientation : ℚ) : FootprintInstance where
  referenceField := none
  valueField := none
  datasheetField := none
  descriptionField := none
  position := some ⟨0, 0⟩
  orientation := some ⟨orientation⟩
  definition := some ⟨⟨none, none, none, none⟩, none, [.zone (ruleArea a b c)]⟩

lemma rotate_withArea : rotate quarterMath (90 * (1 : ℤ)) (withArea ⟨0, 0⟩ ⟨10, 0⟩ ⟨0, 10⟩ 0) =
    .ok (withArea ⟨0, 0⟩ ⟨0, -10⟩ ⟨10, 0⟩ 90) := by
  decide +kernel

lemma mem_allZones_withArea (a b c : Vector2) (orientation : ℚ) :
    ("area", ruleArea a b c, some (pose (withArea a b c orientation))) ∈
      (allZones ⟨[], [] ++ withArea a b c orientation :: []⟩).entries ∧
    own [] [] (withArea a b c orientation) "area" = true :=
  ⟨List.mem_singleton.mpr rfl, rfl⟩

lemma mem_points_ruleArea (a b c : Vector2) : vec2 (some b) ∈ points J (ruleArea a b c) :=
  List.mem_append_left _ (by simp [keepoutsOf, ruleArea, polygonsOf, nodePoints])

/-- A keepout in a footprint that is turned goes elsewhere than the footprint. -/
theorem follows_moved_iff_withArea :
    ¬ Follows (own [] [] (withArea ⟨0, 0⟩ ⟨10, 0⟩ ⟨0, 10⟩ 0)) (about ⟨0, 0⟩ 1)
      (extractZones quarterMath ⟨[], [withArea ⟨0, 0⟩ ⟨10, 0⟩ ⟨0, 10⟩ 0]⟩)
      (extractZones quarterMath ⟨[], [withArea ⟨0, 0⟩ ⟨0, -10⟩ ⟨10, 0⟩ 90]⟩) := by
  intro h
  obtain ⟨hmem, hown⟩ := mem_allZones_withArea ⟨0, 0⟩ ⟨10, 0⟩ ⟨0, 10⟩ 0
  have hplace := (follows_moved_iff [] [] [] _ _ 10 0 1 rotate_withArea).2.mp h _ hmem hown _
    (mem_points_ruleArea _ _ _)
  revert hplace
  decide +kernel

/-- A keepout in a footprint is shifted twice as far as the footprint. -/
theorem shifted_twice_withArea :
    ¬ Follows (own [] [] (withArea ⟨0, 0⟩ ⟨10, 0⟩ ⟨0, 10⟩ 0)) (plus ⟨10, 0⟩)
      (extractZones quarterMath ⟨[], [withArea ⟨0, 0⟩ ⟨10, 0⟩ ⟨0, 10⟩ 0]⟩)
      (extractZones quarterMath
        ⟨[], [FootprintItems.translate ⟨10, 0⟩ (withArea ⟨0, 0⟩ ⟨10, 0⟩ ⟨0, 10⟩ 0)]⟩) := by
  intro h
  have hkeepouts := congrArg (List.map (·.polygon)) h.keepouts
  revert hkeepouts
  decide +kernel

end FabPcb.FootprintZones
