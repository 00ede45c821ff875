import FabPcb.FootprintItems

/-!
What is drawn, as polygons about an anchor.

Curves and wide lines are made polygons before they are drawn, with so many corners whatever the
zoom is. All of it is relative: what is shifted is drawn as it was, shifted as much.
-/

namespace FabPcb.RenderShapes

open SpecctraData (Vec2)
open FootprintItems (JsMath remainder)

def shift (v p : Vec2) : Vec2 := ⟨p.x + v.x, p.y + v.y⟩

/-! ### `geometry.ts` -/

structure Circle where
  c : Vec2
  r : ℚ

/-- A start angle, and a signed sweep from it. -/
structure ArcGeom extends Circle where
  a0 : ℚ
  sweep : ℚ

section Shapes

variable (J : JsMath)

def tau : ℚ := J.pi * 2

def circlePoint (c : Vec2) (r a : ℚ) : Vec2 := ⟨c.x + r * J.cos a, c.y + r * J.sin a⟩

/-- The circle through three points, unless they are on a line. -/
def circleFrom3 (a b c : Vec2) : Option Circle :=
  let d := 2 * (a.x * (b.y - c.y) + b.x * (c.y - a.y) + c.x * (a.y - b.y))
  if |d| < 1 / 1000000000 then none
  else
    let a2 := a.x * a.x + a.y * a.y
    let b2 := b.x * b.x + b.y * b.y
    let c2 := c.x * c.x + c.y * c.y
    let ux := (a2 * (b.y - c.y) + b2 * (c.y - a.y) + c2 * (a.y - b.y)) / d
    let uy := (a2 * (c.x - b.x) + b2 * (a.x - c.x) + c2 * (b.x - a.x)) / d
    some ⟨⟨ux, uy⟩, J.hypot (a.x - ux) (a.y - uy)⟩

def norm (a : ℚ) : ℚ := remainder (remainder a (tau J) + tau J) (tau J)

/-- Of the two ways round, the one that passes the middle. -/
def arcFrom3 (start mid stop : Vec2) : Option ArcGeom :=
  (circleFrom3 J start mid stop).map fun cir =>
    let a0 := J.atan2 (start.y - cir.c.y) (start.x - cir.c.x)
    let am := J.atan2 (mid.y - cir.c.y) (mid.x - cir.c.x)
    let a1 := J.atan2 (stop.y - cir.c.y) (stop.x - cir.c.x)
    let sweepPos := norm J (a1 - a0)
    let midPos := norm J (am - a0)
    ⟨cir, a0, if midPos ≤ sweepPos then sweepPos else -(tau J - sweepPos)⟩

def arcPoint (g : ArcGeom) (t : ℚ) : Vec2 := circlePoint J g.c g.r (g.a0 + g.sweep * t)

/-- With the number of segments that is asked for. -/
def circleToPolygon (c : Vec2) (r : ℚ) (n : ℕ) : List Vec2 :=
  (List.range n).map fun i => circlePoint J c r (i / n * tau J)

def bezierToPolyline (p0 p1 p2 p3 : Vec2) (segments : ℕ) : List Vec2 :=
  (List.range (segments + 1)).map fun i =>
    let t : ℚ := i / segments
    let mt := 1 - t
    let a := mt * mt * mt
    let b := 3 * mt * mt * t
    let c := 3 * mt * t * t
    let d := t * t * t
    ⟨a * p0.x + b * p1.x + c * p2.x + d * p3.x, a * p0.y + b * p1.y + c * p2.y + d * p3.y⟩

/-- One for each 60 micrometres, from 8 to 64. -/
def circleSegments (r : ℚ) : ℕ := (min 64 (max 8 ⌈tau J * r / 60000⌉)).toNat

def halfSegments (r : ℚ) : ℕ := max 3 ((circleSegments J r + 1) / 2)

/-- A line with round ends; of a point, a circle. -/
def stadiumPolygon (a b : Vec2) (width : ℚ) : List Vec2 :=
  let r := width / 2
  let n := halfSegments J r
  let dx := b.x - a.x
  let dy := b.y - a.y
  if dx = 0 ∧ dy = 0 then circleToPolygon J a r (2 * n)
  else
    let th := J.atan2 dy dx
    (List.range (n + 1)).map (fun i => circlePoint J b r (th - J.pi / 2 + i * J.pi / n)) ++
      (List.range (n + 1)).map fun i => circlePoint J a r (th + J.pi / 2 + i * J.pi / n)

/-- Whole turns are taken off, or added, until the angle is at most half a turn. -/
def shortWay (d : ℚ) : ℚ :=
  let d := if J.pi < d then d - tau J * ⌈(d - J.pi) / tau J⌉ else d
  if d < -J.pi then d + tau J * ⌈(-J.pi - d) / tau J⌉ else d

/-- The points between the ends of a cap. -/
def cap (c start stop : Vec2) (r : ℚ) : List Vec2 :=
  let n := halfSegments J r
  let a0 := J.atan2 (start.y - c.y) (start.x - c.x)
  let d := shortWay J (J.atan2 (stop.y - c.y) (stop.x - c.x) - a0)
  (List.range (n - 1)).map fun i => circlePoint J c r (a0 + d * (i + 1 : ℕ) / n)

def normal (p q : Vec2) : Vec2 :=
  let dx := q.x - p.x
  let dy := q.y - p.y
  let h := J.hypot dx dy
  let l := if h = 0 then 1 else h
  ⟨-dy / l, dx / l⟩

/-- The last point of a line that has one. -/
def lastOf (p : Vec2) (pts : List Vec2) : Vec2 := (p :: pts).getLast (List.cons_ne_nil p pts)

/-- At each point, across the way from the point before to the point after. -/
def normals (first last : Vec2) (pts : List Vec2) : List Vec2 :=
  List.zipWith (normal J) (first :: pts.dropLast) (pts.tail ++ [last])

def leftOf (r : ℚ) (n p : Vec2) : Vec2 := ⟨p.x + n.x * r, p.y + n.y * r⟩

def rightOf (r : ℚ) (n p : Vec2) : Vec2 := ⟨p.x - n.x * r, p.y - n.y * r⟩

/-- The right side is reversed before its first point is taken for the cap at the start, so that is
the point at the end. -/
def sidesPolygon (first last : Vec2) (left right : List Vec2) (r : ℚ) : List Vec2 :=
  left ++ cap J last (left.getLast?.getD last) (right.getLast?.getD last) r ++ right.reverse ++
    cap J first (right.reverse.head?.getD first) (left.head?.getD first) r

/-- A line of many points, with round ends. -/
def offsetPathPolygon (pts : List Vec2) (width : ℚ) : List Vec2 :=
  let r := width / 2
  match pts with
  | [] => []
  | [p] => circleToPolygon J p r (circleSegments J r)
  | p :: q :: more =>
    let last := lastOf p (q :: more)
    let ns := normals J p last (p :: q :: more)
    sidesPolygon J p last (List.zipWith (leftOf r) ns (p :: q :: more))
      (List.zipWith (rightOf r) ns (p :: q :: more)) r

/-- Of three points on a line, only the ends. -/
def arcPoints (start stop : Vec2) : Option ArcGeom → List Vec2
  | none => [start, stop]
  | some g =>
    let n := (max 2 ⌈circleSegments J g.r * |g.sweep| / tau J⌉).toNat
    start :: ((List.range (n - 1)).map (fun i => arcPoint J g ((i + 1 : ℕ) / n)) ++ [stop])

def arcToPolylineFixed (start mid stop : Vec2) : List Vec2 :=
  arcPoints J start stop (arcFrom3 J start mid stop)

end Shapes

/-! ### What is shifted is drawn shifted -/

variable {J : JsMath} {v : Vec2}

lemma shift_sub_x (p q : Vec2) : (shift v p).x - (shift v q).x = p.x - q.x := by
  rw [shift, shift]
  ring

lemma shift_sub_y (p q : Vec2) : (shift v p).y - (shift v q).y = p.y - q.y := by
  rw [shift, shift]
  ring

lemma circlePoint_shift (c : Vec2) (r a : ℚ) :
    circlePoint J (shift v c) r a = shift v (circlePoint J c r a) := by
  simp only [circlePoint, shift, Vec2.mk.injEq]
  constructor <;> ring

lemma circleToPolygon_shift (c : Vec2) (r : ℚ) (n : ℕ) :
    circleToPolygon J (shift v c) r n = (circleToPolygon J c r n).map (shift v) := by
  rw [circleToPolygon, circleToPolygon, List.map_map]
  exact List.map_congr_left fun i _ => circlePoint_shift c r _

lemma bezierToPolyline_shift (p0 p1 p2 p3 : Vec2) (n : ℕ) :
    bezierToPolyline (shift v p0) (shift v p1) (shift v p2) (shift v p3) n =
      (bezierToPolyline p0 p1 p2 p3 n).map (shift v) := by
  rw [bezierToPolyline, bezierToPolyline, List.map_map]
  refine List.map_congr_left fun i _ => ?_
  simp only [Function.comp_apply, shift, Vec2.mk.injEq]
  constructor <;> ring

/-- Twice the area of a triangle, twice. -/
def det (a b c : Vec2) : ℚ := 2 * (a.x * (b.y - c.y) + b.x * (c.y - a.y) + c.x * (a.y - b.y))

def sq (a : Vec2) : ℚ := a.x * a.x + a.y * a.y

lemma det_shift (a b c : Vec2) : det (shift v a) (shift v b) (shift v c) = det a b c := by
  simp only [det, shift]
  ring

lemma centreX_shift (a b c : Vec2) :
    sq (shift v a) * ((shift v b).y - (shift v c).y) +
      sq (shift v b) * ((shift v c).y - (shift v a).y) +
      sq (shift v c) * ((shift v a).y - (shift v b).y) =
      sq a * (b.y - c.y) + sq b * (c.y - a.y) + sq c * (a.y - b.y) + v.x * det a b c := by
  simp only [sq, det, shift]
  ring

lemma centreY_shift (a b c : Vec2) :
    sq (shift v a) * ((shift v c).x - (shift v b).x) +
      sq (shift v b) * ((shift v a).x - (shift v c).x) +
      sq (shift v c) * ((shift v b).x - (shift v a).x) =
      sq a * (c.x - b.x) + sq b * (a.x - c.x) + sq c * (b.x - a.x) + v.y * det a b c := by
  simp only [sq, det, shift]
  ring

def centre (a b c : Vec2) : Vec2 :=
  ⟨(sq a * (b.y - c.y) + sq b * (c.y - a.y) + sq c * (a.y - b.y)) / det a b c,
    (sq a * (c.x - b.x) + sq b * (a.x - c.x) + sq c * (b.x - a.x)) / det a b c⟩

lemma circleFrom3_eq (a b c : Vec2) : circleFrom3 J a b c =
    if |det a b c| < 1 / 1000000000 then none
    else some ⟨centre a b c, J.hypot (a.x - (centre a b c).x) (a.y - (centre a b c).y)⟩ := rfl

lemma centre_shift {a b c : Vec2} (h : det a b c ≠ 0) :
    centre (shift v a) (shift v b) (shift v c) = shift v (centre a b c) := by
  have hadd : ∀ n w : ℚ, (n + w * det a b c) / det a b c = n / det a b c + w := fun n w => by
    rw [add_div, mul_div_cancel_right₀ _ h]
  rw [centre, det_shift, centreX_shift, centreY_shift, hadd, hadd]
  rfl

lemma circleFrom3_shift (a b c : Vec2) :
    circleFrom3 J (shift v a) (shift v b) (shift v c) =
      (circleFrom3 J a b c).map fun g => ⟨shift v g.c, g.r⟩ := by
  rw [circleFrom3_eq, circleFrom3_eq, det_shift]
  by_cases hsmall : |det a b c| < 1 / 1000000000
  · rw [if_pos hsmall, if_pos hsmall]
    rfl
  · have hne : det a b c ≠ 0 := by
      intro h
      rw [h] at hsmall
      exact hsmall (by norm_num)
    rw [if_neg hsmall, if_neg hsmall, Option.map_some, centre_shift hne, shift_sub_x, shift_sub_y]

lemma arcFrom3_shift (a b c : Vec2) :
    arcFrom3 J (shift v a) (shift v b) (shift v c) =
      (arcFrom3 J a b c).map fun g => { g with c := shift v g.c } := by
  rw [arcFrom3, arcFrom3, circleFrom3_shift, Option.map_map, Option.map_map]
  congr 1
  funext g
  simp [Function.comp_apply, shift_sub_x, shift_sub_y]

lemma arcPoints_shift (a b : Vec2) (g : ArcGeom) :
    arcPoints J (shift v a) (shift v b) (some { g with c := shift v g.c }) =
      (arcPoints J a b (some g)).map (shift v) := by
  simp only [arcPoints, List.map_cons, List.map_append, List.map_map, List.map_nil]
  congr 2
  exact List.map_congr_left fun i _ => circlePoint_shift g.c g.r _

lemma arcToPolylineFixed_shift (a b c : Vec2) :
    arcToPolylineFixed J (shift v a) (shift v b) (shift v c) =
      (arcToPolylineFixed J a b c).map (shift v) := by
  rw [arcToPolylineFixed, arcFrom3_shift, arcToPolylineFixed]
  cases arcFrom3 J a b c with
  | none => rfl
  | some g => exact arcPoints_shift a c g

lemma stadiumPolygon_shift (a b : Vec2) (width : ℚ) :
    stadiumPolygon J (shift v a) (shift v b) width =
      (stadiumPolygon J a b width).map (shift v) := by
  rw [stadiumPolygon, stadiumPolygon]
  simp only [shift_sub_x, shift_sub_y]
  by_cases hpoint : b.x - a.x = 0 ∧ b.y - a.y = 0
  · rw [if_pos hpoint, if_pos hpoint, circleToPolygon_shift]
  · rw [if_neg hpoint, if_neg hpoint, List.map_append, List.map_map, List.map_map]
    simp only [circlePoint_shift]
    rfl

lemma normal_shift (p q : Vec2) : normal J (shift v p) (shift v q) = normal J p q := by
  simp [normal, shift_sub_x, shift_sub_y]

lemma cap_shift (c a b : Vec2) (r : ℚ) :
    cap J (shift v c) (shift v a) (shift v b) r = (cap J c a b r).map (shift v) := by
  simp only [cap, shift_sub_x, shift_sub_y, circlePoint_shift, List.map_map]
  rfl

lemma lastOf_shift (p : Vec2) (pts : List Vec2) :
    lastOf (shift v p) (pts.map (shift v)) = shift v (lastOf p pts) := by
  simp [lastOf, ← List.map_cons, List.getLast_map]

lemma normals_shift (first last : Vec2) (pts : List Vec2) :
    normals J (shift v first) (shift v last) (pts.map (shift v)) = normals J first last pts := by
  have hfirst : shift v first :: (pts.map (shift v)).dropLast =
      (first :: pts.dropLast).map (shift v) := by
    rw [List.map_cons, List.map_dropLast]
  have hlast : (pts.map (shift v)).tail ++ [shift v last] =
      (pts.tail ++ [last]).map (shift v) := by
    rw [List.map_append, List.map_tail, List.map_singleton]
  rw [normals, normals, hfirst, hlast, List.zipWith_map]
  simp [normal_shift]

lemma side_shift {f : Vec2 → Vec2 → Vec2} (hf : ∀ n p, f n (shift v p) = shift v (f n p))
    (ns pts : List Vec2) :
    List.zipWith f ns (pts.map (shift v)) = (List.zipWith f ns pts).map (shift v) := by
  rw [List.zipWith_map_right]
  simp [hf]

lemma leftOf_shift (r : ℚ) (n p : Vec2) : leftOf r n (shift v p) = shift v (leftOf r n p) := by
  simp only [leftOf, shift, Vec2.mk.injEq]
  constructor <;> ring

lemma rightOf_shift (r : ℚ) (n p : Vec2) : rightOf r n (shift v p) = shift v (rightOf r n p) := by
  simp only [rightOf, shift, Vec2.mk.injEq]
  constructor <;> ring

lemma sidesPolygon_shift (first last : Vec2) (left right : List Vec2) (r : ℚ) :
    sidesPolygon J (shift v first) (shift v last) (left.map (shift v)) (right.map (shift v)) r =
      (sidesPolygon J first last left right r).map (shift v) := by
  simp [sidesPolygon, ← List.map_reverse, List.getLast?_map, List.head?_map, cap_shift, List.map_append]

lemma offsetPathPolygon_shift (pts : List Vec2) (width : ℚ) :
    offsetPathPolygon J (pts.map (shift v)) width =
      (offsetPathPolygon J pts width).map (shift v) := by
  match pts with
  | [] => rfl
  | [p] => exact circleToPolygon_shift p _ _
  | p :: q :: more =>
    have hlast : lastOf (shift v p) (shift v q :: more.map (shift v)) =
        shift v (lastOf p (q :: more)) := lastOf_shift p (q :: more)
    have hns : normals J (shift v p) (shift v (lastOf p (q :: more)))
        (shift v p :: shift v q :: more.map (shift v)) =
        normals J p (lastOf p (q :: more)) (p :: q :: more) := normals_shift _ _ (p :: q :: more)
    simp only [List.map_cons, offsetPathPolygon, hlast, hns]
    rw [← sidesPolygon_shift, ← side_shift (leftOf_shift (width / 2)),
      ← side_shift (rightOf_shift (width / 2))]
    rfl

end FabPcb.RenderShapes
