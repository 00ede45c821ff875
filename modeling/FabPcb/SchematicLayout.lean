import Mathlib.Algebra.Order.Floor.Ring
import Mathlib.Data.Rat.Floor
import Mathlib.Tactic.Linarith
import FabPcb.VirtualReferences

/-!
`symbolExtent` and `layoutSymbols`: how far the symbols of a schematic reach from their origins, and
where their origins are.

Coordinates are nanometres. The extents of two symbols are at least a gap apart, and every origin is
on the grid.
-/

namespace FabPcb.SchematicLayout

open OrderedMap VirtualReferences
open SpecctraData (Vec2)

/-! ### Extents -/

/-- `mm(SCHEMATIC_GRID_MM)`. -/
def grid : ℚ := 1270000

def STUB_LENGTH : ℚ := 4 * grid

inductive SpinStyle where
  | left
  | right
  | up
  | bottom

/-- Away from the body of the symbol. -/
def outward : PinOrientation → Vec2 × SpinStyle
  | .left => (⟨1, 0⟩, .right)
  | .up => (⟨0, 1⟩, .bottom)
  | .down => (⟨0, -1⟩, .up)
  | .right => (⟨-1, 0⟩, .left)
  | .unknown => (⟨-1, 0⟩, .left)

def along (start direction : Vec2) (distance : ℚ) : Vec2 :=
  ⟨start.x + direction.x * distance, start.y + direction.y * distance⟩

/-- `text.length`, in units of UTF-16. -/
def textLength (text : String) : ℕ :=
  (text.toList.map fun c => if 0x10000 ≤ c.toNat then 2 else 1).sum

def labelLength (text : String) : ℚ := grid * (textLength text + 2)

/-- How far a symbol reaches from its origin. -/
structure Extent where
  left : ℚ
  right : ℚ
  top : ℚ
  bottom : ℚ

/-- `include`. -/
def Extent.reach (e : Extent) (point : Vec2) : Extent :=
  ⟨max e.left (-point.x), max e.right point.x, max e.top (-point.y), max e.bottom point.y⟩

def minimum : Extent := ⟨2 * grid, 2 * grid, 2 * grid, 2 * grid⟩

/-- A child of the unit, in the first body style. -/
def isShown (unit : ℤ) (child : SymbolChild) : Bool :=
  (child.unit = 0 || child.unit = unit) && (child.bodyStyle = 0 || child.bodyStyle = 1)

def pinKey (reference pin : String) : String := reference ++ ":" ++ pin

def reachPin (reference : String) (pinNets : OMap String String) (e : Extent)
    (pin : SchematicPin) : Extent :=
  let direction := (outward pin.orientation).1
  let e := (e.reach pin.position).reach (along pin.position direction (-pin.length))
  match pinNets.get? (pinKey reference pin.number) with
  | none => e
  | some net => e.reach (along pin.position direction (STUB_LENGTH + labelLength net))

/-- The pins of a unit. -/
def pinsOf (definition : LibSymbol) (unit : ℤ) : List SchematicPin :=
  (definition.items.filter (isShown unit)).filterMap (·.pin)

def symbolExtent (definition : LibSymbol) (reference : String) (pinNets : OMap String String)
    (unit : ℤ) : Extent :=
  (pinsOf definition unit).foldl (reachPin reference pinNets) minimum

/-! ### `layoutSymbols` -/

def snapUp (value : ℚ) : ℚ := (⌈value / grid⌉ : ℤ) * grid

def LAYOUT_COLUMNS : ℕ := 4

def gap : ℚ := 2 * grid

def margin : ℚ := 8 * grid

/-- The greatest value, or zero. -/
def greatest (values : List ℚ) : ℚ := values.foldl max 0

section Layout

variable (extents : List (Option Extent))

def known : List Extent := extents.filterMap id

def pitchX : ℚ :=
  snapUp (max (28 * grid) (greatest ((known extents).map (·.right)) +
    greatest ((known extents).map (·.left)) + gap))

def firstX : ℚ := snapUp (max (24 * grid) (greatest ((known extents).map (·.left)) + margin))

/-- The extents of a row. -/
def row (r : ℕ) : List Extent := known ((extents.drop (r * LAYOUT_COLUMNS)).take LAYOUT_COLUMNS)

def rowY : ℕ → ℚ
  | 0 => snapUp (max (20 * grid) (greatest ((row extents 0).map (·.top)) + margin))
  | r + 1 => rowY r + snapUp (max (24 * grid) (greatest ((row extents r).map (·.bottom)) +
      greatest ((row extents (r + 1)).map (·.top)) + gap))

/-- The origin at a place. -/
def originAt (index : ℕ) : Vec2 :=
  ⟨firstX extents + (index % LAYOUT_COLUMNS : ℕ) * pitchX extents,
    rowY extents (index / LAYOUT_COLUMNS)⟩

def layoutSymbols : List Vec2 := extents.mapIdx fun index _ => originAt extents index

end Layout

/-! ### Rounding and greatest values -/

/-- A coordinate on the grid. -/
def OnGrid (value : ℚ) : Prop := ∃ k : ℤ, value = k * grid

lemma grid_pos : 0 < grid := by norm_num [grid]

lemma le_snapUp (value : ℚ) : value ≤ snapUp value := by
  have hceil : value / grid ≤ (⌈value / grid⌉ : ℤ) := Int.le_ceil _
  exact (div_le_iff₀ grid_pos).mp hceil

lemma onGrid_snapUp (value : ℚ) : OnGrid (snapUp value) := ⟨_, rfl⟩

lemma OnGrid.add {a b : ℚ} (ha : OnGrid a) (hb : OnGrid b) : OnGrid (a + b) := by
  obtain ⟨i, rfl⟩ := ha
  obtain ⟨j, rfl⟩ := hb
  exact ⟨i + j, by rw [Int.cast_add, add_mul]⟩

lemma OnGrid.times {a : ℚ} (ha : OnGrid a) (n : ℕ) : OnGrid (n * a) := by
  obtain ⟨i, rfl⟩ := ha
  exact ⟨n * i, by rw [Int.cast_mul, Int.cast_natCast, mul_assoc]⟩

lemma le_foldl_max (values : List ℚ) : ∀ start, start ≤ values.foldl max start ∧
    ∀ v ∈ values, v ≤ values.foldl max start := by
  induction values with
  | nil => exact fun start => ⟨le_rfl, fun v hv => absurd hv List.not_mem_nil⟩
  | cons a values ih =>
    intro start
    obtain ⟨hstart, hall⟩ := ih (max start a)
    refine ⟨(le_max_left _ _).trans hstart, fun v hv => ?_⟩
    rcases List.mem_cons.mp hv with rfl | hv
    · exact (le_max_right _ _).trans hstart
    · exact hall v hv

lemma greatest_nonneg (values : List ℚ) : 0 ≤ greatest values := (le_foldl_max values 0).1

lemma le_greatest {α : Type} {f : α → ℚ} {as : List α} {a : α} (h : a ∈ as) :
    f a ≤ greatest (as.map f) :=
  (le_foldl_max _ 0).2 _ (List.mem_map.mpr ⟨a, h, rfl⟩)

/-! ### Extents that are apart -/

/-- The extents at their origins are a distance apart, in one direction. -/
def Apart (distance : ℚ) (o : Vec2) (e : Extent) (o' : Vec2) (e' : Extent) : Prop :=
  o.x + e.right + distance ≤ o'.x - e'.left ∨ o'.x + e'.right + distance ≤ o.x - e.left ∨
    o.y + e.bottom + distance ≤ o'.y - e'.top ∨ o'.y + e'.bottom + distance ≤ o.y - e.top

lemma Apart.symm {distance : ℚ} {o o' : Vec2} {e e' : Extent} (h : Apart distance o e o' e') :
    Apart distance o' e' o e := by
  rcases h with h | h | h | h
  · exact .inr (.inl h)
  · exact .inl h
  · exact .inr (.inr (.inr h))
  · exact .inr (.inr (.inl h))

section Placed

variable {extents : List (Option Extent)}

lemma mem_known {i : ℕ} {e : Extent} (h : extents[i]? = some (some e)) : e ∈ known extents :=
  List.mem_filterMap.mpr ⟨some e, List.mem_of_getElem? h, rfl⟩

lemma mem_row {i : ℕ} {e : Extent} (h : extents[i]? = some (some e)) :
    e ∈ row extents (i / LAYOUT_COLUMNS) := by
  have hdiv : i / LAYOUT_COLUMNS * LAYOUT_COLUMNS + i % LAYOUT_COLUMNS = i :=
    Nat.div_add_mod' i LAYOUT_COLUMNS
  have hmod : i % LAYOUT_COLUMNS < LAYOUT_COLUMNS := Nat.mod_lt _ (by decide)
  refine mem_known (i := i % LAYOUT_COLUMNS) ?_
  rw [List.getElem?_take_of_lt hmod, List.getElem?_drop, hdiv, h]

section Rows

variable (extents)

lemma rowY_succ (r : ℕ) : rowY extents r + (greatest ((row extents r).map (·.bottom)) +
    greatest ((row extents (r + 1)).map (·.top)) + gap) ≤ rowY extents (r + 1) := by
  exact add_le_add_right ((le_max_right _ _).trans (le_snapUp _)) _

lemma gap_pos : 0 < gap := mul_pos two_pos grid_pos

lemma rowY_mono {r r' : ℕ} (h : r ≤ r') : rowY extents r ≤ rowY extents r' := by
  induction r', h using Nat.le_induction with
  | base => exact le_rfl
  | succ r' _ ih =>
    have hstep := rowY_succ extents r'
    have hbottom := greatest_nonneg ((row extents r').map (·.bottom))
    have htop := greatest_nonneg ((row extents (r' + 1)).map (·.top))
    linarith [gap_pos]

lemma rows_apart {r r' : ℕ} (h : r < r') :
    rowY extents r + greatest ((row extents r).map (·.bottom)) + gap ≤
      rowY extents r' - greatest ((row extents r').map (·.top)) := by
  obtain ⟨k, rfl⟩ : ∃ k, r' = k + 1 := ⟨r' - 1, by omega⟩
  have hlast := rowY_succ extents k
  have hbottom := greatest_nonneg ((row extents k).map (·.bottom))
  rcases Nat.lt_or_ge r k with hlt | hge
  · have hfirst := rowY_succ extents r
    have hbetween := rowY_mono extents (Nat.succ_le_of_lt hlt)
    have htop := greatest_nonneg ((row extents (r + 1)).map (·.top))
    linarith [gap_pos]
  · obtain rfl : r = k := by omega
    linarith

lemma pitchX_ge : greatest ((known extents).map (·.right)) +
    greatest ((known extents).map (·.left)) + gap ≤ pitchX extents :=
  (le_max_right _ _).trans (le_snapUp _)

lemma columns_apart {c c' : ℕ} (h : c < c') :
    c * pitchX extents + greatest ((known extents).map (·.right)) + gap ≤
      c' * pitchX extents - greatest ((known extents).map (·.left)) := by
  have hpitch := pitchX_ge extents
  have hright := greatest_nonneg ((known extents).map (·.right))
  have hleft := greatest_nonneg ((known extents).map (·.left))
  have hpos : 0 ≤ pitchX extents := by linarith [gap_pos]
  have hnext : ((c : ℚ) + 1) * pitchX extents ≤ c' * pitchX extents := by
    refine mul_le_mul_of_nonneg_right ?_ hpos
    exact_mod_cast h
  linarith

end Rows

lemma apart_of_lt {i j : ℕ} {e e' : Extent} (hi : extents[i]? = some (some e))
    (hj : extents[j]? = some (some e')) (h : i < j) :
    Apart gap (originAt extents i) e (originAt extents j) e' := by
  rcases Nat.lt_or_ge (i / LAYOUT_COLUMNS) (j / LAYOUT_COLUMNS) with hrow | hrow
  · have hrows := rows_apart extents hrow
    have hbottom := le_greatest (f := (·.bottom)) (mem_row hi)
    have htop := le_greatest (f := (·.top)) (mem_row hj)
    refine .inr (.inr (.inl ?_))
    simp only [originAt]
    linarith
  · have hsame : i / LAYOUT_COLUMNS = j / LAYOUT_COLUMNS :=
      le_antisymm (Nat.div_le_div_right h.le) hrow
    have hcolumn : i % LAYOUT_COLUMNS < j % LAYOUT_COLUMNS := by
      have hdivi := Nat.div_add_mod i LAYOUT_COLUMNS
      have hdivj := Nat.div_add_mod j LAYOUT_COLUMNS
      rw [hsame] at hdivi
      omega
    have hcolumns := columns_apart extents hcolumn
    have hright := le_greatest (f := (·.right)) (mem_known hi)
    have hleft := le_greatest (f := (·.left)) (mem_known hj)
    refine .inl ?_
    simp only [originAt]
    linarith

/-- **Extents at different places are a gap apart.** -/
theorem layout_apart {i j : ℕ} {e e' : Extent} (hi : extents[i]? = some (some e))
    (hj : extents[j]? = some (some e')) (h : i ≠ j) :
    Apart gap (originAt extents i) e (originAt extents j) e' := by
  rcases Nat.lt_or_gt_of_ne h with hlt | hgt
  · exact apart_of_lt hi hj hlt
  · exact (apart_of_lt hj hi hgt).symm

lemma onGrid_rowY (r : ℕ) : OnGrid (rowY extents r) := by
  induction r with
  | zero => exact onGrid_snapUp _
  | succ r ih => exact ih.add (onGrid_snapUp _)

/-- **Every origin is on the grid.** -/
theorem origin_onGrid (index : ℕ) :
    OnGrid (originAt extents index).x ∧ OnGrid (originAt extents index).y :=
  ⟨(onGrid_snapUp _).add ((onGrid_snapUp _).times _), onGrid_rowY _⟩

lemma layoutSymbols_getElem? (index : ℕ) : (layoutSymbols extents)[index]? =
    (extents[index]?).map fun _ => originAt extents index :=
  List.getElem?_mapIdx

end Placed

end FabPcb.SchematicLayout
