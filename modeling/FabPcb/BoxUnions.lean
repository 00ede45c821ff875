import Mathlib.Algebra.Order.Group.Defs
import Mathlib.Order.Bounds.Basic
import Mathlib.Data.List.Induction
import Mathlib.Data.Rat.Defs
import Mathlib.Algebra.Order.Ring.Rat

/-!
The boxes of `units.ts`, and what becomes of a flat one in a union.

A box spans a set of points when its sides are at the least and the greatest coordinates; there is
one such box. Without the test for emptiness a union of boxes would span the union of the sets.
-/

namespace FabPcb.BoxUnions

structure Vec2 (K : Type*) where
  x : K
  y : K
  deriving DecidableEq

structure Box (K : Type*) where
  x : K
  y : K
  w : K
  h : K
  deriving DecidableEq

variable {K : Type*} [AddCommGroup K] [LinearOrder K]

def EMPTY_BOX : Box K := ⟨0, 0, 0, 0⟩

def boxIsEmpty (b : Box K) : Bool := b.w ≤ 0 || b.h ≤ 0

/-- The bounds start at infinity, so the first point sets them. -/
def boxFromPoints : List (Vec2 K) → Box K
  | [] => EMPTY_BOX
  | p :: points =>
    let minX := (points.map Vec2.x).foldl min p.x
    let minY := (points.map Vec2.y).foldl min p.y
    let maxX := (points.map Vec2.x).foldl max p.x
    let maxY := (points.map Vec2.y).foldl max p.y
    ⟨minX, minY, maxX - minX, maxY - minY⟩

/-- `boxUnion` of boxes that are not empty. -/
def Box.join (a b : Box K) : Box K :=
  let x := min a.x b.x
  let y := min a.y b.y
  ⟨x, y, max (a.x + a.w) (b.x + b.w) - x, max (a.y + a.h) (b.y + b.h) - y⟩

def boxUnion (a b : Box K) : Box K :=
  if boxIsEmpty a then b else if boxIsEmpty b then a else a.join b

def boxContains (b : Box K) (p : Vec2 K) : Bool :=
  b.x ≤ p.x && p.x ≤ b.x + b.w && b.y ≤ p.y && p.y ≤ b.y + b.h

/-- The points are on one vertical or on one horizontal line. -/
def Flat (points : List (Vec2 K)) : Prop :=
  (∀ p ∈ points, ∀ q ∈ points, p.x = q.x) ∨ ∀ p ∈ points, ∀ q ∈ points, p.y = q.y

/-- A box that has points but no width or no height. -/
def Box.IsFlat (b : Box K) : Prop := 0 ≤ b.w ∧ 0 ≤ b.h ∧ (b.w = 0 ∨ b.h = 0)

/-- The sides of the first box are within those of the second. -/
def Box.Inside (a b : Box K) : Prop :=
  (b.x ≤ a.x ∧ a.x + a.w ≤ b.x + b.w) ∧ b.y ≤ a.y ∧ a.y + a.h ≤ b.y + b.h

/-- The sides of a box are at the ends of a set of points. -/
structure Spans (b : Box K) (S : Set (Vec2 K)) : Prop where
  left : IsLeast (Vec2.x '' S) b.x
  right : IsGreatest (Vec2.x '' S) (b.x + b.w)
  top : IsLeast (Vec2.y '' S) b.y
  bottom : IsGreatest (Vec2.y '' S) (b.y + b.h)

variable {a b : Box K} {A B : Set (Vec2 K)} {p : Vec2 K}

lemma boxContains_iff : boxContains b p = true ↔
    (b.x ≤ p.x ∧ p.x ≤ b.x + b.w) ∧ b.y ≤ p.y ∧ p.y ≤ b.y + b.h := by
  simp [boxContains, and_assoc]

/-! ### The box of some points -/

lemma isLeast_foldl_min {P L : Type*} [LinearOrder L] (f : P → L) (p : P) (points : List P) :
    IsLeast (f '' {q | q ∈ p :: points}) ((points.map f).foldl min (f p)) := by
  induction points using List.reverseRecOn with
  | nil => simp
  | append_singleton points q ih =>
    have hsplit : {r | r ∈ p :: (points ++ [q])} = {r | r ∈ p :: points} ∪ {q} := by
      ext r
      simp [or_comm, or_left_comm]
    rw [hsplit, Set.image_union]
    simpa using ih.union isLeast_singleton

lemma isGreatest_foldl_max {P L : Type*} [LinearOrder L] (f : P → L) (p : P) (points : List P) :
    IsGreatest (f '' {q | q ∈ p :: points}) ((points.map f).foldl max (f p)) :=
  isLeast_foldl_min (L := Lᵒᵈ) f p points

lemma spans_boxFromPoints {points : List (Vec2 K)} (h : points ≠ []) :
    Spans (boxFromPoints points) {p | p ∈ points} := by
  cases points with
  | nil => exact absurd rfl h
  | cons p points =>
    refine ⟨isLeast_foldl_min Vec2.x p points, ?_, isLeast_foldl_min Vec2.y p points, ?_⟩
    · simpa [boxFromPoints] using isGreatest_foldl_max Vec2.x p points
    · simpa [boxFromPoints] using isGreatest_foldl_max Vec2.y p points

lemma Spans.unique (ha : Spans a A) (hb : Spans b A) : a = b := by
  have hx : a.x = b.x := ha.left.unique hb.left
  have hy : a.y = b.y := ha.top.unique hb.top
  have hw : a.w = b.w := add_left_cancel ((ha.right.unique hb.right).trans (by rw [hx]))
  have hh : a.h = b.h := add_left_cancel ((ha.bottom.unique hb.bottom).trans (by rw [hy]))
  cases a
  simp_all

lemma Spans.join (ha : Spans a A) (hb : Spans b B) : Spans (a.join b) (A ∪ B) where
  left := by simpa [Set.image_union, Box.join] using ha.left.union hb.left
  right := by simpa [Set.image_union, Box.join] using ha.right.union hb.right
  top := by simpa [Set.image_union, Box.join] using ha.top.union hb.top
  bottom := by simpa [Set.image_union, Box.join] using ha.bottom.union hb.bottom

lemma Spans.inside_iff (h : Spans a A) : a.Inside b ↔ ∀ p ∈ A, boxContains b p = true := by
  simp only [boxContains_iff]
  constructor
  · rintro ⟨⟨hx, hx'⟩, hy, hy'⟩ p hp
    exact ⟨⟨hx.trans (h.left.2 ⟨p, hp, rfl⟩), (h.right.2 ⟨p, hp, rfl⟩).trans hx'⟩,
      hy.trans (h.top.2 ⟨p, hp, rfl⟩), (h.bottom.2 ⟨p, hp, rfl⟩).trans hy'⟩
  · intro hall
    obtain ⟨l, hl, hlx⟩ := h.left.1
    obtain ⟨r, hr, hrx⟩ := h.right.1
    obtain ⟨t, ht, hty⟩ := h.top.1
    obtain ⟨u, hu, huy⟩ := h.bottom.1
    exact ⟨⟨hlx ▸ (hall l hl).1.1, hrx ▸ (hall r hr).1.2⟩, hty ▸ (hall t ht).2.1,
      huy ▸ (hall u hu).2.2⟩

lemma join_eq_right_iff : a.join b = b ↔ a.Inside b := by
  constructor
  · intro h
    have hx : min a.x b.x = b.x := congrArg Box.x h
    have hy : min a.y b.y = b.y := congrArg Box.y h
    have hw : max (a.x + a.w) (b.x + b.w) - min a.x b.x = b.w := congrArg Box.w h
    have hh : max (a.y + a.h) (b.y + b.h) - min a.y b.y = b.h := congrArg Box.h h
    rw [hx, sub_eq_iff_eq_add'] at hw
    rw [hy, sub_eq_iff_eq_add'] at hh
    exact ⟨⟨min_eq_right_iff.mp hx, max_eq_right_iff.mp hw⟩, min_eq_right_iff.mp hy,
      max_eq_right_iff.mp hh⟩
  · rintro ⟨⟨hx, hw⟩, hy, hh⟩
    simp [Box.join, min_eq_right hx, max_eq_right hw, min_eq_right hy, max_eq_right hh]

/-! ### Flat boxes -/

variable [IsOrderedAddMonoid K]

lemma Spans.sized (h : Spans b B) : 0 ≤ b.w ∧ 0 ≤ b.h := by
  have hx : b.x ≤ b.x + b.w := h.left.2 h.right.1
  have hy : b.y ≤ b.y + b.h := h.top.2 h.bottom.1
  exact ⟨by simpa using hx, by simpa using hy⟩

lemma constant_iff {P : Type*} {f : P → K} {S : Set P} {m w : K} (hm : IsLeast (f '' S) m)
    (hw : IsGreatest (f '' S) (m + w)) : w ≤ 0 ↔ ∀ p ∈ S, ∀ q ∈ S, f p = f q := by
  constructor
  · intro h p hp q hq
    have hone : ∀ r ∈ S, f r = m := fun r hr =>
      le_antisymm ((hw.2 ⟨r, hr, rfl⟩).trans (add_le_of_nonpos_right h)) (hm.2 ⟨r, hr, rfl⟩)
    rw [hone p hp, hone q hq]
  · intro h
    obtain ⟨p, hp, hpm⟩ := hm.1
    obtain ⟨q, hq, hqw⟩ := hw.1
    have hsum : m + w = m := by rw [← hqw, ← hpm, h p hp q hq]
    exact (add_eq_left.mp hsum).le

lemma boxIsEmpty_boxFromPoints (points : List (Vec2 K)) :
    boxIsEmpty (boxFromPoints points) = true ↔ Flat points := by
  cases points with
  | nil => simp [boxFromPoints, boxIsEmpty, EMPTY_BOX, Flat]
  | cons p points =>
    have h := spans_boxFromPoints (List.cons_ne_nil p points)
    simpa [boxIsEmpty, Flat] using or_congr (constant_iff h.left h.right)
      (constant_iff h.top h.bottom)

lemma zero_of_within {x w : K} (hw : 0 ≤ w) (hx : 0 ≤ x) (hxw : x + w ≤ 0) : x = 0 ∧ w = 0 := by
  have hx0 : x = 0 := le_antisymm ((le_add_of_nonneg_right hw).trans hxw) hx
  exact ⟨hx0, le_antisymm (by simpa [hx0] using hxw) hw⟩

lemma eq_right_iff {pts points : List (Vec2 K)} {c : Box K} (ha : Spans a {p | p ∈ pts})
    (hc : Spans c ({p | p ∈ pts} ∪ {p | p ∈ points})) :
    c = boxFromPoints points ↔ ∀ p ∈ pts, boxContains (boxFromPoints points) p = true := by
  refine Iff.trans ?_ ha.inside_iff
  cases points with
  | nil =>
    have hca : c = a := hc.unique (by simpa using ha)
    obtain ⟨hw, hh⟩ := ha.sized
    rw [hca, boxFromPoints]
    constructor
    · rintro rfl
      simp [Box.Inside]
    · rintro ⟨⟨hx, hx'⟩, hy, hy'⟩
      simp only [EMPTY_BOX, add_zero] at hx hx' hy hy'
      obtain ⟨hx0, hw0⟩ := zero_of_within hw hx hx'
      obtain ⟨hy0, hh0⟩ := zero_of_within hh hy hy'
      cases a
      simp_all [EMPTY_BOX]
  | cons q points =>
    have hb := spans_boxFromPoints (List.cons_ne_nil q points)
    rw [hc.unique (ha.join hb), join_eq_right_iff]

omit [IsOrderedAddMonoid K] in
lemma boxFromPoints_congr {as bs : List (Vec2 K)} (h : ∀ p, p ∈ as ↔ p ∈ bs) :
    boxFromPoints as = boxFromPoints bs := by
  have hset : {p | p ∈ as} = {p | p ∈ bs} := Set.ext h
  by_cases has : as = []
  · have hbs : bs = [] := List.eq_nil_iff_forall_not_mem.mpr fun p hp => by
      simpa [has] using (h p).mpr hp
    rw [has, hbs]
  · have hbs : bs ≠ [] := fun hbs => has (List.eq_nil_iff_forall_not_mem.mpr fun p hp => by
      simpa [hbs] using (h p).mp hp)
    exact (spans_boxFromPoints has).unique (hset ▸ spans_boxFromPoints hbs)

lemma boxFromPoints_union {as bs cs : List (Vec2 K)} (h : ∀ p, p ∈ cs ↔ p ∈ as ∨ p ∈ bs) :
    boxFromPoints cs = boxUnion (boxFromPoints as) (boxFromPoints bs) ↔
      (Flat as → ∀ p ∈ as, boxContains (boxFromPoints bs) p = true) ∧
      (¬Flat as → Flat bs → ∀ p ∈ bs, boxContains (boxFromPoints as) p = true) := by
  have hset : {p | p ∈ cs} = {p | p ∈ as} ∪ {p | p ∈ bs} := Set.ext h
  have hcs : ∀ p, p ∈ cs → Spans (boxFromPoints cs) ({p | p ∈ as} ∪ {p | p ∈ bs}) :=
    fun p hp => hset ▸ spans_boxFromPoints (List.ne_nil_of_mem hp)
  unfold boxUnion
  by_cases has : Flat as
  · simp only [if_pos ((boxIsEmpty_boxFromPoints as).mpr has), has,
      true_imp_iff, not_true_eq_false, false_imp_iff, and_true]
    cases as with
    | nil => simp [boxFromPoints_congr fun p => by simpa using h p]
    | cons p as =>
      exact eq_right_iff (spans_boxFromPoints (List.cons_ne_nil p as))
        (hcs p ((h p).mpr (.inl List.mem_cons_self)))
  · obtain ⟨p, hp⟩ := List.exists_mem_of_ne_nil as fun hnil => has (by simp [hnil, Flat])
    have hc := hcs p ((h p).mpr (.inl hp))
    simp only [if_neg (mt (boxIsEmpty_boxFromPoints as).mp has), has,
      false_imp_iff, true_and, not_false_eq_true, true_imp_iff]
    by_cases hbs : Flat bs
    · simp only [if_pos ((boxIsEmpty_boxFromPoints bs).mpr hbs), hbs, true_imp_iff]
      cases bs with
      | nil => simp [boxFromPoints_congr fun p => by simpa using h p]
      | cons q bs =>
        exact eq_right_iff (spans_boxFromPoints (List.cons_ne_nil q bs)) (Set.union_comm _ _ ▸ hc)
    · obtain ⟨q, hq⟩ := List.exists_mem_of_ne_nil bs fun hnil => hbs (by simp [hnil, Flat])
      have hjoin := (spans_boxFromPoints (List.ne_nil_of_mem hp)).join
        (spans_boxFromPoints (List.ne_nil_of_mem hq))
      simp [if_neg (mt (boxIsEmpty_boxFromPoints bs).mp hbs), hbs, hc.unique hjoin]

/-! ### Unions of boxes -/

lemma contained_iff : (∀ p, boxContains a p = true → boxContains b p = true) ↔
    (0 ≤ a.w → 0 ≤ a.h → a.Inside b) := by
  simp only [boxContains_iff]
  constructor
  · intro h hw hh
    have hlow := h ⟨a.x, a.y⟩ (by simp [hw, hh])
    have hhigh := h ⟨a.x + a.w, a.y + a.h⟩ (by simp [hw, hh])
    exact ⟨⟨hlow.1.1, hhigh.1.2⟩, hlow.2.1, hhigh.2.2⟩
  · rintro h p ⟨⟨hx, hx'⟩, hy, hy'⟩
    have hw : 0 ≤ a.w := by simpa using hx.trans hx'
    have hh : 0 ≤ a.h := by simpa using hy.trans hy'
    obtain ⟨⟨hl, hr⟩, ht, hu⟩ := h hw hh
    exact ⟨⟨hl.trans hx, hx'.trans hr⟩, ht.trans hy, hy'.trans hu⟩

omit [IsOrderedAddMonoid K] in
lemma inside_join (a b : Box K) : a.Inside (a.join b) ∧ b.Inside (a.join b) := by
  simp [Box.Inside, Box.join]

lemma contained_iff_of_empty (h : boxIsEmpty a = true) :
    (∀ p, boxContains a p = true → boxContains b p = true) ↔ (a.IsFlat → a.Inside b) := by
  have hflat : 0 ≤ a.w → 0 ≤ a.h → (a.w = 0 ∨ a.h = 0) := by
    intro hw hh
    simp only [boxIsEmpty, Bool.or_eq_true, decide_eq_true_eq] at h
    exact h.imp (le_antisymm · hw) (le_antisymm · hh)
  rw [contained_iff]
  exact ⟨fun hin hflat => hin hflat.1 hflat.2.1, fun hin hw hh => hin ⟨hw, hh, hflat hw hh⟩⟩

omit [IsOrderedAddMonoid K] in
lemma Box.IsFlat.isEmpty (h : a.IsFlat) : boxIsEmpty a = true := by
  obtain ⟨-, -, hw | hh⟩ := h <;> simp [boxIsEmpty, *]

lemma boxUnion_contains (a b : Box K) :
    ((∀ p, boxContains a p = true → boxContains (boxUnion a b) p = true) ∧
      ∀ p, boxContains b p = true → boxContains (boxUnion a b) p = true) ↔
      (a.IsFlat → a.Inside b) ∧ (boxIsEmpty a = false → b.IsFlat → b.Inside a) := by
  unfold boxUnion
  by_cases ha : boxIsEmpty a = true
  · simpa [ha] using contained_iff_of_empty ha
  · have hflat : ¬a.IsFlat := fun h => ha h.isEmpty
    by_cases hb : boxIsEmpty b = true
    · simpa [ha, hb, hflat] using contained_iff_of_empty hb
    · have hflat' : ¬b.IsFlat := fun h => hb h.isEmpty
      have hin := inside_join a b
      simp only [ha, hb, hflat, hflat', false_imp_iff, true_and, imp_true_iff, iff_true, if_false,
        Bool.false_eq_true]
      exact ⟨contained_iff.mpr fun _ _ => hin.1, contained_iff.mpr fun _ _ => hin.2⟩

/-- **Boxes of unions.** The box of a union of point sets is the union of their boxes, just when
each set on one vertical or horizontal line that is taken for empty lies in the other box; and the
union of two boxes contains both, just when each flat one that is taken for empty is in the other.
-/
theorem boxUnion_exact :
    (∀ as bs cs : List (Vec2 K), (∀ p, p ∈ cs ↔ p ∈ as ∨ p ∈ bs) →
      (boxFromPoints cs = boxUnion (boxFromPoints as) (boxFromPoints bs) ↔
        (Flat as → ∀ p ∈ as, boxContains (boxFromPoints bs) p = true) ∧
        (¬Flat as → Flat bs → ∀ p ∈ bs, boxContains (boxFromPoints as) p = true))) ∧
    ∀ a b : Box K,
      ((∀ p, boxContains a p = true → boxContains (boxUnion a b) p = true) ∧
        ∀ p, boxContains b p = true → boxContains (boxUnion a b) p = true) ↔
        (a.IsFlat → a.Inside b) ∧ (boxIsEmpty a = false → b.IsFlat → b.Inside a) :=
  ⟨fun _ _ _ h => boxFromPoints_union h, boxUnion_contains⟩

/-- Two points at the corners of a square, and a point that is not in it. -/
theorem boxUnion_exact_point :
    boxFromPoints [⟨1, 1⟩, ⟨5, 5⟩, (⟨6, 6⟩ : Vec2 ℚ)] ≠
      boxUnion (boxFromPoints [⟨1, 1⟩]) (boxFromPoints [⟨5, 5⟩, ⟨6, 6⟩]) :=
  fun h => absurd (((boxUnion_exact (K := ℚ)).1 [⟨1, 1⟩] [⟨5, 5⟩, ⟨6, 6⟩] _ (by simp)).mp h).1
    (by simp +decide [Flat])

/-- A point and a square apart from it: the box of the three corners is lost in the union, which
does not contain the box of the point. -/
theorem boxUnion_loses_point :
    ¬((∀ as bs cs : List (Vec2 ℚ), (∀ p, p ∈ cs ↔ p ∈ as ∨ p ∈ bs) →
        boxFromPoints cs = boxUnion (boxFromPoints as) (boxFromPoints bs)) ∧
      ∀ a b : Box ℚ, (∀ p, boxContains a p = true → boxContains (boxUnion a b) p = true) ∧
        ∀ p, boxContains b p = true → boxContains (boxUnion a b) p = true) := by
  rintro ⟨h, -⟩
  have hbox := h [⟨1, 1⟩] [⟨5, 5⟩, ⟨6, 6⟩] [⟨1, 1⟩, ⟨5, 5⟩, ⟨6, 6⟩] (by simp)
  revert hbox
  decide +kernel

end FabPcb.BoxUnions
