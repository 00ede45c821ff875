import Mathlib

/-!
How far two sets are apart, and rectangles with round corners.

A rectangle whose corners are rounded is all that is within the radius of a smaller rectangle; and
of a rectangle, the nearest point is found in each of its directions alone. So how far a disc is
from it is known by the centre of the disc.
-/

namespace FabPcb.RoundedShapes

open Metric ENNReal

/-! ### Gaps -/

/-- How far two sets are apart. Nothing is infinitely far. -/
noncomputable def gap {α : Type*} [PseudoEMetricSpace α] (A B : Set α) : ℝ≥0∞ :=
  ⨅ a ∈ A, infEDist a B

lemma gap_lt_iff {α : Type*} [PseudoEMetricSpace α] {A B : Set α} {r : ℝ≥0∞} :
    gap A B < r ↔ ∃ a ∈ A, ∃ b ∈ B, edist a b < r := by
  simp [gap, iInf_lt_iff, infEDist_lt_iff, exists_prop]

lemma infEDist_of_nearest {α : Type*} [PseudoMetricSpace α] {p q : α} {T : Set α} (hq : q ∈ T)
    (hle : ∀ t ∈ T, dist p q ≤ dist p t) : infEDist p T = ENNReal.ofReal (dist p q) := by
  rw [← edist_dist]
  refine le_antisymm (infEDist_le_edist_of_mem hq) (le_infEDist.mpr fun t ht => ?_)
  rw [edist_dist, edist_dist]
  exact ENNReal.ofReal_le_ofReal (hle t ht)

/-- **A disc is as far as its centre, less its radius.** -/
theorem gap_closedBall {E : Type*} [SeminormedAddCommGroup E] [NormedSpace ℝ E] (p : E) {R : ℝ}
    (hR : 0 ≤ R) (T : Set E) :
    gap (closedBall p R) T = infEDist p T - ENNReal.ofReal R := by
  refine le_antisymm (le_of_forall_gt fun x hx => ?_) (le_iInf₂ fun a ha => ?_)
  · have hsum : infEDist p T < x + ENNReal.ofReal R := by
      by_contra h
      exact not_le.mpr hx (ENNReal.le_sub_of_add_le_right ENNReal.ofReal_ne_top (not_lt.mp h))
    obtain ⟨t, ht, hlt⟩ := infEDist_lt_iff.mp hsum
    -- the point of the disc that is nearest to `t`
    have hball : infEDist t (closedBall p R) < x := by
      rw [← cthickening_singleton p hR, infEDist_cthickening, infEDist_singleton, edist_comm]
      rcases le_total (ENNReal.ofReal R) (edist p t) with h | h
      · exact (ENNReal.sub_lt_iff_lt_right ENNReal.ofReal_ne_top h).mpr hlt
      · rw [tsub_eq_zero_of_le h]
        exact lt_of_le_of_lt zero_le hx
    obtain ⟨a, ha, hat⟩ := infEDist_lt_iff.mp hball
    exact gap_lt_iff.mpr ⟨a, ha, t, ht, by rwa [edist_comm]⟩
  · refine tsub_le_iff_left.mpr (infEDist_le_edist_add_infEDist.trans (add_le_add_left ?_ _))
    rw [edist_comm, edist_dist]
    exact ENNReal.ofReal_le_ofReal (mem_closedBall.mp ha)

/-! ### Rectangles -/

/-- The rectangle about the origin, of half the sizes. -/
def box (a b : ℝ) : Set ℂ := {z | |z.re| ≤ a ∧ |z.im| ≤ b}

/-- How far a coordinate is outside. -/
def outside (a x : ℝ) : ℝ := max 0 (|x| - a)

/-- The coordinate that is nearest, inside. -/
def clamp (a x : ℝ) : ℝ := max (-a) (min a x)

variable {a b r x y : ℝ}

lemma abs_clamp_le (ha : 0 ≤ a) : |clamp a x| ≤ a :=
  abs_le.mpr ⟨le_max_left _ _, max_le (by linarith) (min_le_left _ _)⟩

lemma abs_sub_clamp (ha : 0 ≤ a) : |x - clamp a x| = outside a x := by
  rw [clamp, outside]
  rcases le_total x 0 with hx | hx
  · rw [abs_of_nonpos hx, min_eq_right (by linarith)]
    rcases le_total x (-a) with h | h
    · rw [max_eq_left h, max_eq_right (by linarith), abs_of_nonpos (by linarith)]
      ring
    · rw [max_eq_right h, sub_self, abs_zero, max_eq_left (by linarith)]
  · rw [abs_of_nonneg hx]
    rcases le_total x a with h | h
    · rw [min_eq_right h, max_eq_right (by linarith), sub_self, abs_zero, max_eq_left (by linarith)]
    · rw [min_eq_left h, max_eq_right (by linarith), abs_of_nonneg (by linarith),
        max_eq_right (by linarith)]

lemma outside_le_abs_sub (hy : |y| ≤ a) : outside a x ≤ |x - y| := by
  refine max_le (abs_nonneg _) ?_
  have := abs_sub_abs_le_abs_sub x y
  linarith

lemma outside_nonneg : 0 ≤ outside a x := le_max_left _ _

lemma norm_mk_eq (x y : ℝ) : ‖(⟨x, y⟩ : ℂ)‖ = √(x * x + y * y) := by
  rw [Complex.norm_def, Complex.normSq_mk]

lemma sqrt_le_norm {z : ℂ} (hx : |x| ≤ |z.re|) (hy : |y| ≤ |z.im|) :
    √(x * x + y * y) ≤ ‖z‖ := by
  exact Real.sqrt_le_sqrt (add_le_add (abs_le_iff_mul_self_le.mp hx)
    (abs_le_iff_mul_self_le.mp hy))

/-- **How far a point is from a rectangle**, by how far it is outside in each direction. -/
theorem infEDist_box (ha : 0 ≤ a) (hb : 0 ≤ b) (z : ℂ) : infEDist z (box a b) =
    ENNReal.ofReal √(outside a z.re * outside a z.re + outside b z.im * outside b z.im) := by
  have hdist : dist z ⟨clamp a z.re, clamp b z.im⟩ =
      √(outside a z.re * outside a z.re + outside b z.im * outside b z.im) := by
    rw [Complex.dist_eq, ← abs_sub_clamp ha,
      ← abs_sub_clamp hb, abs_mul_abs_self, abs_mul_abs_self]
    rfl
  rw [← hdist]
  refine infEDist_of_nearest ⟨abs_clamp_le ha, abs_clamp_le hb⟩ fun t ht => ?_
  rw [hdist, Complex.dist_eq]
  refine sqrt_le_norm ?_ ?_
  · rw [abs_of_nonneg outside_nonneg]
    exact outside_le_abs_sub ht.1
  · rw [abs_of_nonneg outside_nonneg]
    exact outside_le_abs_sub ht.2

/-! ### Round corners -/

/-- The rectangle with its corners rounded: beyond the centres of the corners in both directions,
it is as far as the radius from them. -/
def rounded (a b r : ℝ) : Set ℂ :=
  {z | z ∈ box a b ∧ (a - r < |z.re| → b - r < |z.im| →
    (|z.re| - (a - r)) ^ 2 + (|z.im| - (b - r)) ^ 2 ≤ r ^ 2)}

/-- **A rectangle with round corners** is what is within their radius of the rectangle of the
centres. -/
theorem rounded_eq_cthickening (hr : 0 ≤ r) (ha : r ≤ a) (hb : r ≤ b) :
    rounded a b r = cthickening r (box (a - r) (b - r)) := by
  ext z
  rw [mem_cthickening_iff, infEDist_box (sub_nonneg.mpr ha) (sub_nonneg.mpr hb),
    ENNReal.ofReal_le_ofReal_iff hr, Real.sqrt_le_left hr]
  rw [outside, outside]
  rcases le_or_gt |z.re| (a - r) with hx | hx <;> rcases le_or_gt |z.im| (b - r) with hy | hy
  · rw [max_eq_left (by linarith), max_eq_left (by linarith)]
    exact ⟨fun _ => by nlinarith, fun _ =>
      ⟨⟨by linarith, by linarith⟩, fun h => absurd h (not_lt.mpr hx)⟩⟩
  · rw [max_eq_left (by linarith), max_eq_right (by linarith), mul_zero, zero_add, ← sq,
      sq_le_sq₀ (by linarith) hr]
    exact ⟨fun h => by linarith [h.1.2], fun h =>
      ⟨⟨by linarith, by linarith⟩, fun h => absurd h (not_lt.mpr hx)⟩⟩
  · rw [max_eq_right (by linarith), max_eq_left (by linarith), mul_zero, add_zero, ← sq,
      sq_le_sq₀ (by linarith) hr]
    exact ⟨fun h => by linarith [h.1.1], fun h =>
      ⟨⟨by linarith, by linarith⟩, fun _ h => absurd h (not_lt.mpr hy)⟩⟩
  · rw [max_eq_right (by linarith), max_eq_right (by linarith), ← sq, ← sq]
    refine ⟨fun h => h.2 hx hy, fun h => ⟨⟨?_, ?_⟩, fun _ _ => h⟩⟩
    · have := (sq_le_sq₀ (by linarith) hr).mp (by nlinarith [sq_nonneg (|z.im| - (b - r))] :
        (|z.re| - (a - r)) ^ 2 ≤ r ^ 2)
      linarith
    · have := (sq_le_sq₀ (by linarith) hr).mp (by nlinarith [sq_nonneg (|z.re| - (a - r))] :
        (|z.im| - (b - r)) ^ 2 ≤ r ^ 2)
      linarith

end FabPcb.RoundedShapes
