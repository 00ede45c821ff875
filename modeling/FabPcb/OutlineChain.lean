import FabPcb.SpecctraData
import Mathlib.Data.Sym.Sym2

/-!
`chainOutline` of `geometry.ts`: the open pieces of the board outline chained into polygons.

Two points are near when their distance is at most the tolerance. A chain takes the first piece
left that fits its tail, by either end, until it closes or nothing fits. Each piece taken is one
less to choose from, so both loops end.
-/

namespace FabPcb.OutlineChain

open SpecctraData (Vec2)

structure OutlinePiece where
  points : List Vec2
  /-- Already closed (circle, rectangle, closed polygon). -/
  closed : Bool

def near (tolerance : ℚ) (a b : Vec2) : Bool :=
  decide (0 ≤ tolerance ∧ (a.x - b.x) ^ 2 + (a.y - b.y) ^ 2 ≤ tolerance ^ 2)

def first (p : List Vec2) : Vec2 := p.headD ⟨0, 0⟩

def last (p : List Vec2) : Vec2 := p.getLastD ⟨0, 0⟩

/-- The inner `for`: the points that the first piece that fits adds, and the pieces left. -/
def takeNext (tolerance : ℚ) (tail : Vec2) :
    List (List Vec2) → Option (List Vec2 × List (List Vec2))
  | [] => none
  | cand :: rest =>
    if near tolerance tail (first cand) then some (cand.tail, rest)
    else if near tolerance tail (last cand) then some (cand.dropLast.reverse, rest)
    else (takeNext tolerance tail rest).map fun taken => (taken.1, cand :: taken.2)

lemma length_of_takeNext {tolerance : ℚ} {tail : Vec2} {pieces : List (List Vec2)} :
    ∀ {taken}, takeNext tolerance tail pieces = some taken →
      taken.2.length < pieces.length := by
  induction pieces with
  | nil => intro taken h; cases h
  | cons cand rest ih =>
    intro taken h
    rw [takeNext] at h
    split_ifs at h with hfirst hlast
    · cases h
      simp
    · cases h
      simp
    · obtain ⟨inner, hinner, rfl⟩ := Option.map_eq_some_iff.mp h
      have := ih hinner
      simpa using this

/-- The chain is a polygon when it has come back to where it started. -/
def closes (tolerance : ℚ) (chain : List Vec2) : Bool :=
  decide (2 < chain.length) && near tolerance (last chain) (first chain)

/-- The `while (progress)`: the chain as far as it goes, and the pieces left. -/
def extend (tolerance : ℚ) (chain : List Vec2) (pieces : List (List Vec2)) :
    List Vec2 × List (List Vec2) :=
  if closes tolerance chain then (chain, pieces)
  else
    match _h : takeNext tolerance (last chain) pieces with
    | none => (chain, pieces)
    | some taken => extend tolerance (chain ++ taken.1) taken.2
termination_by pieces.length
decreasing_by exact length_of_takeNext _h

lemma extend_of_closes {tolerance : ℚ} {chain : List Vec2} {pieces : List (List Vec2)}
    (h : closes tolerance chain) : extend tolerance chain pieces = (chain, pieces) := by
  rw [extend, if_pos h]

lemma extend_of_takeNext {tolerance : ℚ} {chain : List Vec2} {pieces : List (List Vec2)}
    {taken : List Vec2 × List (List Vec2)} (h : closes tolerance chain = false)
    (htake : takeNext tolerance (last chain) pieces = some taken) :
    extend tolerance chain pieces = extend tolerance (chain ++ taken.1) taken.2 := by
  rw [extend, if_neg (by simp [h])]
  split
  case h_1 hnone => exact absurd (hnone.symm.trans htake) (by simp)
  case h_2 other hsome => rw [Option.some.inj (hsome.symm.trans htake)]

lemma length_extend (tolerance : ℚ) (chain : List Vec2) (pieces : List (List Vec2)) :
    (extend tolerance chain pieces).2.length ≤ pieces.length := by
  fun_induction extend tolerance chain pieces with
  | case1 => exact le_rfl
  | case2 => exact le_rfl
  | case3 _ _ _ _ h ih => exact ih.trans (length_of_takeNext h).le

/-- The outer `while`: the polygons of the pieces that are not closed themselves. -/
def chainAll (tolerance : ℚ) : List (List Vec2) → List (List Vec2)
  | [] => []
  | chain :: pieces =>
    let grown := extend tolerance chain pieces
    (if closes tolerance grown.1 then [grown.1.dropLast] else []) ++ chainAll tolerance grown.2
termination_by pieces => pieces.length
decreasing_by
  have := length_extend tolerance chain pieces
  simp only [List.length_cons]
  omega

def polygonArea (p : List Vec2) : ℚ :=
  (((last p :: p).zip p).map fun s => (s.1.x + s.2.x) * (s.1.y - s.2.y)).sum / 2

def closedPieces (pieces : List OutlinePiece) : List (List Vec2) :=
  (pieces.filter (·.closed)).map (·.points)

def openPieces (pieces : List OutlinePiece) : List (List Vec2) :=
  (pieces.filter fun p => !p.closed && decide (2 ≤ p.points.length)).map (·.points)

def chainOutline (pieces : List OutlinePiece) (tolerance : ℚ := 10000) : List (List Vec2) :=
  (closedPieces pieces ++ chainAll tolerance (openPieces pieces)).mergeSort
    fun a b => decide (|polygonArea b| ≤ |polygonArea a|)

end FabPcb.OutlineChain
