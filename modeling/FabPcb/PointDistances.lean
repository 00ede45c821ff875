import Mathlib.Algebra.Order.Floor.Defs
import Mathlib.Algebra.Field.Defs
import Mathlib.Analysis.SpecialFunctions.Complex.Arg
import Mathlib.Order.WithBot
import Mathlib.Tactic.FieldSimp
import Mathlib.Tactic.Linarith
import Mathlib.Tactic.LinearCombination

/-!
The distance of a point from a segment.

It is over an ordered field, with what of `Math` is more than arithmetic given; so it can be run on
rationals, and is exact over the reals.
-/

namespace FabPcb.PointDistances

structure Vec2 (K : Type) where
  x : K
  y : K

structure Box (K : Type) where
  x : K
  y : K
  w : K
  h : K

/-- What of `Math` is more than arithmetic. -/
structure JsMath (K : Type) where
  hypot : K → K → K

section Shapes

variable {K : Type} [Field K] [LinearOrder K] (J : JsMath K)

def vDist (a b : Vec2 K) : K := J.hypot (a.x - b.x) (a.y - b.y)

def pointSegmentDistance (p a b : Vec2 K) : K :=
  let dx := b.x - a.x
  let dy := b.y - a.y
  let l2 := dx * dx + dy * dy
  if l2 = 0 then vDist J p a
  else
    let t := max 0 (min 1 (((p.x - a.x) * dx + (p.y - a.y) * dy) / l2))
    J.hypot (p.x - (a.x + t * dx)) (p.y - (a.y + t * dy))

end Shapes

/-! ### The plane of real numbers -/

noncomputable def realMath : JsMath ℝ where
  hypot x y := √(x * x + y * y)

def toC (p : Vec2 ℝ) : ℂ := ⟨p.x, p.y⟩

lemma hypot_eq (x y : ℝ) : realMath.hypot x y = ‖(⟨x, y⟩ : ℂ)‖ := by
  rfl

lemma vDist_eq (p q : Vec2 ℝ) : vDist realMath p q = ‖toC p - toC q‖ := hypot_eq _ _

lemma exists_pointSegmentDistance (p a b : Vec2 ℝ) : ∃ t, 0 ≤ t ∧ t ≤ 1 ∧
    pointSegmentDistance realMath p a b =
      vDist realMath p ⟨a.x + t * (b.x - a.x), a.y + t * (b.y - a.y)⟩ := by
  rw [pointSegmentDistance]
  split_ifs with hl
  · exact ⟨0, le_rfl, zero_le_one, by simp⟩
  · exact ⟨_, le_max_left _ _, max_le zero_le_one (min_le_left _ _), rfl⟩

/-- The point taken is not farther than another one. -/
lemma pointSegmentDistance_le (p a b : Vec2 ℝ) {t : ℝ} (h0 : 0 ≤ t) (h1 : t ≤ 1) :
    pointSegmentDistance realMath p a b ≤
      vDist realMath p ⟨a.x + t * (b.x - a.x), a.y + t * (b.y - a.y)⟩ := by
  rw [pointSegmentDistance]
  split_ifs with hl
  · obtain ⟨hx, hy⟩ := mul_self_add_mul_self_eq_zero.mp hl
    rw [hx, hy, mul_zero, add_zero, add_zero]
  · have hpos : 0 < (b.x - a.x) * (b.x - a.x) + (b.y - a.y) * (b.y - a.y) :=
      lt_of_le_of_ne (add_nonneg (mul_self_nonneg _) (mul_self_nonneg _)) (Ne.symm hl)
    set l2 := (b.x - a.x) * (b.x - a.x) + (b.y - a.y) * (b.y - a.y) with hl2
    set u := ((p.x - a.x) * (b.x - a.x) + (p.y - a.y) * (b.y - a.y)) / l2 with hu
    set c := max 0 (min 1 u) with hc
    have hul : u * l2 = (p.x - a.x) * (b.x - a.x) + (p.y - a.y) * (b.y - a.y) :=
      div_mul_cancel₀ _ hl
    -- the clamped parameter is the nearest of the interval to the foot of the perpendicular
    have hclamp : (c - u) * (c - u) ≤ (t - u) * (t - u) := by
      rcases le_total u 0 with h | h
      · have hc0 : c = 0 := by rw [hc, min_eq_right (by linarith), max_eq_left h]
        nlinarith
      · rcases le_total u 1 with h' | h'
        · have hcu : c = u := by rw [hc, min_eq_right h', max_eq_right h]
          nlinarith [mul_self_nonneg (t - u)]
        · have hc1 : c = 1 := by rw [hc, min_eq_left h', max_eq_right zero_le_one]
          nlinarith
    have hexpand : ∀ s, (p.x - (a.x + s * (b.x - a.x))) * (p.x - (a.x + s * (b.x - a.x))) +
        (p.y - (a.y + s * (b.y - a.y))) * (p.y - (a.y + s * (b.y - a.y))) =
        (p.x - a.x) * (p.x - a.x) + (p.y - a.y) * (p.y - a.y) - u * u * l2 +
          (s - u) * (s - u) * l2 := by
      intro s
      linear_combination 2 * s * hul - s ^ 2 * hl2
    refine Real.sqrt_le_sqrt ?_
    rw [hexpand, hexpand]
    exact add_le_add_right (mul_le_mul_of_nonneg_right hclamp hpos.le) _

end FabPcb.PointDistances
