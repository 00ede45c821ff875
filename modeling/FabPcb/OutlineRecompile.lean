import FabPcb.OutlineRebuild
import Mathlib.Algebra.BigOperators.Group.Finset.Basic
import Mathlib.Data.Int.Cast.Lemmas

/-!
Compiling twice from one specification.

The outline that a first compile drew is moved by the edge margin after the placing. A second compile
compares it with the specification, where it stood before, and draws it there again.
-/

namespace FabPcb.OutlineRecompile

open Outline BoardJob ApplyNetlist OutlineContour OutlineRebuild

/-! ### Moving an outline -/

def shift (d p : Vec2) : Vec2 := ⟨p.x + d.x, p.y + d.y⟩

def shiftSide (d : Vec2) (s : Vec2 × Vec2) : Vec2 × Vec2 := (shift d s.1, shift d s.2)

lemma shift_injective (d : Vec2) : Function.Injective (shift d) := by
  rintro ⟨x, y⟩ ⟨x', y'⟩ h
  have hx : x + d.x = x' + d.x := congrArg Vec2.x h
  have hy : y + d.y = y' + d.y := congrArg Vec2.y h
  rw [Vec2.mk.injEq]
  omega

lemma shiftSide_injective (d : Vec2) : Function.Injective (shiftSide d) := by
  rintro ⟨a, b⟩ ⟨a', b'⟩ h
  have ha := shift_injective d (congrArg Prod.fst h)
  have hb := shift_injective d (congrArg Prod.snd h)
  exact Prod.ext ha hb

lemma eq_zero_of_image_eq {γ : Type*} [DecidableEq γ] {P : Finset γ} {τ : γ → γ} {g : γ → ℤ}
    {c : ℤ} (hτ : Function.Injective τ) (hg : ∀ p, g (τ p) = g p + c) (hne : P.Nonempty)
    (himage : P.image τ = P) : c = 0 := by
  have hsum : ∑ p ∈ P, g p = ∑ p ∈ P, g p + P.card * c :=
    calc ∑ p ∈ P, g p = ∑ p ∈ P.image τ, g p := by rw [himage]
      _ = ∑ p ∈ P, g (τ p) := Finset.sum_image fun a _ b _ h => hτ h
      _ = ∑ p ∈ P, (g p + c) := Finset.sum_congr rfl fun p _ => hg p
      _ = ∑ p ∈ P, g p + P.card * c := by
        rw [Finset.sum_add_distrib, Finset.sum_const, nsmul_eq_mul]
  have hzero : (P.card : ℤ) * c = 0 := by omega
  have hcard : (P.card : ℤ) ≠ 0 := by
    have hpos := hne.card_pos
    omega
  exact (mul_eq_zero.mp hzero).resolve_left hcard

lemma moved_away {d : Vec2} {segments : List (Vec2 × Vec2)} (hd : ¬ (d.x = 0 ∧ d.y = 0))
    (hne : segments ≠ []) :
    ¬ ∀ side, side ∈ segments ↔ side ∈ segments.map (shiftSide d) := by
  intro h
  have hnonempty : segments.toFinset.Nonempty := by
    obtain ⟨side, hside⟩ := List.exists_mem_of_ne_nil segments hne
    exact ⟨side, List.mem_toFinset.mpr hside⟩
  have himage : segments.toFinset.image (shiftSide d) = segments.toFinset := by
    ext side
    rw [List.mem_toFinset, h side]
    simp [List.mem_toFinset]
  refine hd ⟨?_, ?_⟩
  · exact eq_zero_of_image_eq (g := fun s => s.1.x) (shiftSide_injective d) (fun _ => rfl)
      hnonempty himage
  · exact eq_zero_of_image_eq (g := fun s => s.1.y) (shiftSide_injective d) (fun _ => rfl)
      hnonempty himage

lemma sides_shift (d : Vec2) (points : List Vec2) :
    sides (points.map (shift d)) = (sides points).map (shiftSide d) := sides_map (shift d) points

/-- The sum of two coordinates of an unordered pair. -/
def pairSum (f : Vec2 → ℤ) : Sym2 Vec2 → ℤ :=
  Sym2.lift ⟨fun a b => f a + f b, fun _ _ => Int.add_comm _ _⟩

lemma not_sameSides_shift {d : Vec2} {points : List Vec2} (hd : ¬ (d.x = 0 ∧ d.y = 0))
    (hlen : 3 ≤ points.length) : ¬ SameSides (sides (points.map (shift d))) points := by
  intro h
  let keys := ((sides points).map segmentKey).toFinset
  have hkey : ∀ s, segmentKey (shiftSide d s) = Sym2.map (shift d) (segmentKey s) := fun _ => rfl
  have himage : keys.image (Sym2.map (shift d)) = keys := by
    ext k
    rw [List.mem_toFinset, ← h.mem_iff, sides_shift]
    simp [keys, hkey]
  have hnonempty : keys.Nonempty := by
    obtain ⟨side, hside⟩ := List.exists_mem_of_ne_nil _ (sides_ne_nil hlen)
    exact ⟨segmentKey side, List.mem_toFinset.mpr (List.mem_map_of_mem hside)⟩
  have hinj : Function.Injective (Sym2.map (shift d)) := Sym2.map.injective (shift_injective d)
  have hx : d.x + d.x = 0 := by
    refine eq_zero_of_image_eq (g := pairSum Vec2.x) hinj (fun k => ?_) hnonempty himage
    induction k with
    | _ a b =>
      show a.x + d.x + (b.x + d.x) = a.x + b.x + (d.x + d.x)
      omega
  have hy : d.y + d.y = 0 := by
    refine eq_zero_of_image_eq (g := pairSum Vec2.y) hinj (fun k => ?_) hnonempty himage
    induction k with
    | _ a b =>
      show a.y + d.y + (b.y + d.y) = a.y + b.y + (d.y + d.y)
      omega
  exact hd ⟨by omega, by omega⟩

/-! ### The board after the shift -/

/-- A graphic on the layer of the outline, moved if it is a segment. -/
def moveEdge (d : Vec2) (shape : BoardShape) : BoardShape :=
  if shape.layer = .BL_Edge_Cuts then (shiftedSegment d shape).getD shape else shape

lemma shiftedSegment_id {d : Vec2} {shape moved : BoardShape}
    (h : shiftedSegment d shape = some moved) : moved.id = shape.id := by
  unfold shiftedSegment at h
  split at h
  · exact (Option.some.inj h) ▸ rfl
  · cases h

/-- The update replaces each segment of the outline by the moved one. -/
lemma updateShapes_moved (b : Board) (d : Vec2) :
    (b.updateShapes ((edgesOf b.shapes).filterMap (shiftedSegment d))).shapes =
      b.shapes.map (moveEdge d) := by
  refine List.map_congr_left fun shape hshape => ?_
  have hsame : ∀ e ∈ b.shapes, e.id = shape.id → e = shape := by
    intro e he hid
    exact List.inj_on_of_nodup_map b.distinct he hshape hid
  have hfound : ∀ m ∈ (edgesOf b.shapes).filterMap (shiftedSegment d), m.id = shape.id →
      shape.layer = .BL_Edge_Cuts ∧ shiftedSegment d shape = some m := by
    intro m hm hid
    obtain ⟨e, he, hem⟩ := List.mem_filterMap.mp hm
    obtain ⟨hmem, hlayer⟩ := List.mem_filter.mp he
    obtain rfl := hsame e hmem ((shiftedSegment_id hem).symm.trans hid)
    exact ⟨of_decide_eq_true hlayer, hem⟩
  unfold replaced moveEdge
  cases hfind : ((edgesOf b.shapes).filterMap (shiftedSegment d)).find? (·.id = shape.id) with
  | some m =>
    have hid : m.id = shape.id := by
      have hm := List.find?_some hfind
      exact of_decide_eq_true hm
    obtain ⟨hlayer, hm⟩ := hfound m (List.mem_of_find?_eq_some hfind) hid
    rw [if_pos hlayer, hm]
  | none =>
    split
    next hlayer =>
      cases hm : shiftedSegment d shape with
      | none => rfl
      | some m =>
        have hedge : shape ∈ edgesOf b.shapes :=
          List.mem_filter.mpr ⟨hshape, decide_eq_true hlayer⟩
        have hmem := List.mem_filterMap.mpr ⟨shape, hedge, hm⟩
        have hnot := List.find?_eq_none.mp hfind m hmem
        exact absurd (decide_eq_true (shiftedSegment_id hm)) hnot
    · rfl

/-- The segments of the outline. -/
def edgeSegments (shapes : List BoardShape) : List (Vec2 × Vec2) := segmentsOf (edgesOf shapes)

lemma filterMap_moveEdge {f : BoardShape → Option (Vec2 × Vec2)} {d : Vec2}
    (hf : ∀ shape, f (moveEdge d shape) = (f shape).map (shiftSide d)) (shapes : List BoardShape) :
    (shapes.map (moveEdge d)).filterMap f = (shapes.filterMap f).map (shiftSide d) := by
  induction shapes with
  | nil => rfl
  | cons shape shapes ih =>
    rw [List.map_cons, List.filterMap_cons, List.filterMap_cons, hf, ih]
    cases f shape <;> rfl

lemma edgeSegments_eq (shapes : List BoardShape) : edgeSegments shapes =
    shapes.filterMap fun shape => if shape.layer = .BL_Edge_Cuts then shape.segment? else none := by
  rw [edgeSegments, segmentsOf, edgesOf, List.filterMap_filter]
  simp

lemma generatedSegments_moved (d : Vec2) (shapes : List BoardShape) :
    generatedSegments (shapes.map (moveEdge d)) = (generatedSegments shapes).map (shiftSide d) := by
  rw [generatedSegments_eq, generatedSegments_eq]
  refine filterMap_moveEdge (fun shape => ?_) shapes
  obtain ⟨id, layer, geometry, properties⟩ := shape
  have hgen : BoardShape.generated (moveEdge d ⟨id, layer, geometry, properties⟩) =
      BoardShape.generated ⟨id, layer, geometry, properties⟩ := by
    cases layer <;> cases geometry <;> rfl
  unfold generatedSegment?
  rw [hgen]
  by_cases h : BoardShape.generated ⟨id, layer, geometry, properties⟩ = true
  · simp only [h, and_true]
    cases layer <;> cases geometry <;> rfl
  · simp [h]

lemma edgesOf_moved_ne_nil {d : Vec2} {shapes : List BoardShape}
    (h : generatedSegments shapes ≠ []) : edgesOf (shapes.map (moveEdge d)) ≠ [] := by
  refine edgesOf_ne_nil ?_
  rw [generatedSegments_moved]
  simpa using h

/-! ### What `applyNetlist` does to the outline -/

/-- The graphics after the outline moved, if it did. -/
def movedBy (d : Option Vec2) (shapes : List BoardShape) : List BoardShape :=
  match d with
  | none => shapes
  | some d => shapes.map (moveEdge d)

/-- How far a fresh outline is moved: the additions were all autoplaced, and too close to it. -/
def insetOf (srv : Server) (opts : ApplyOptions) : Option Vec2 :=
  if opts.autoplace = true ∧ autoIds srv opts ≠ [] ∧ srv.autoplace = .completed true ∧
      unplacedIds srv (autoIds srv opts) = [] ∧ 0 < opts.edgeMarginNm then
    insetShift srv.edgeBoxes srv.boxes opts.edgeMarginNm
  else none

/-- Only an outline that this run drew is moved, and not that of a blank. -/
def shiftOf (srv : Server) (opts : ApplyOptions) (outline : OutlineOutcome) : Option Vec2 :=
  if (outline.drew && !outline.fixed) = true then insetOf srv opts else none

/-- There are graphics on the layer of the outline, and all of them segments. -/
def Drawn (shapes : List BoardShape) : Prop :=
  edgesOf shapes ≠ [] ∧ ∀ e ∈ edgesOf shapes, e.isSegment = true

variable {nm : ℚ → ℤ} {srv : Server} {opts : ApplyOptions} {outline : OutlineOutcome}
  {ids : List String} {s t : Session}

lemma length_filterMap_shifted {d : Vec2} {edges : List BoardShape}
    (h : ∀ e ∈ edges, e.isSegment = true) :
    (edges.filterMap (shiftedSegment d)).length = edges.length := by
  induction edges with
  | nil => rfl
  | cons e edges ih =>
    have hsome : ∃ m, shiftedSegment d e = some m := by
      have he := h e List.mem_cons_self
      obtain ⟨id, layer, geometry, properties⟩ := e
      cases geometry with
      | segment a b => exact ⟨_, rfl⟩
      | circle c r => cases he
      | other k => cases he
    obtain ⟨m, hm⟩ := hsome
    rw [List.filterMap_cons_some hm, List.length_cons, List.length_cons,
      ih fun e he => h e (List.mem_cons_of_mem _ he)]

lemma insetOutline_board {marginNm : ℤ} {d : Option Vec2} (hdrawn : Drawn s.board.shapes)
    (h : insetOutline srv ids marginNm s = .ok (d, t)) :
    t.board.shapes = movedBy (if ids ≠ [] ∧ 0 < marginNm then
      insetShift srv.edgeBoxes srv.boxes marginNm else none) s.board.shapes := by
  unfold insetOutline at h
  split at h
  next hno =>
    obtain ⟨rfl, rfl⟩ := pure_ok.mp h
    rw [if_neg (by rintro ⟨hids, hpos⟩; exact hno.elim hids (by omega))]
    rfl
  next hyes =>
    obtain ⟨hids, hpos⟩ := not_or.mp hyes
    rw [if_pos ⟨hids, by omega⟩]
    obtain ⟨shapes, u, hshapes, h⟩ := bind_ok.mp h
    obtain ⟨rfl, rfl⟩ := getShapes_ok hshapes
    rw [if_neg hdrawn.1] at h
    obtain ⟨_, v, hask, h⟩ := bind_ok.mp h
    obtain ⟨_, rfl⟩ := ask_ok.mp hask
    split at h
    next hempty =>
      obtain ⟨rfl, rfl⟩ := pure_ok.mp h
      have hnil : srv.edgeBoxes = [] := List.isEmpty_iff.mp hempty
      rw [hnil]
      rfl
    · obtain ⟨_, w, hask', h⟩ := bind_ok.mp h
      obtain ⟨_, rfl⟩ := ask_ok.mp hask'
      cases hshift : insetShift srv.edgeBoxes srv.boxes marginNm with
      | none =>
        rw [hshift] at h
        obtain ⟨rfl, rfl⟩ := pure_ok.mp h
        rfl
      | some d =>
        rw [hshift] at h
        obtain ⟨shapes', x, hshapes', h⟩ := bind_ok.mp h
        obtain ⟨rfl, rfl⟩ := getShapes_ok hshapes'
        rw [if_neg (not_not.mpr (length_filterMap_shifted hdrawn.2))] at h
        obtain ⟨_, y, hcommit, h⟩ := bind_ok.mp h
        obtain rfl := commit_ok hcommit
        obtain ⟨rfl, rfl⟩ := pure_ok.mp h
        exact updateShapes_moved s.board d

lemma autoplaceAdded_board {placing : Placing} (hids : ids ≠ [])
    (hdrawn : (outline.drew && !outline.fixed) = true → Drawn s.board.shapes)
    (h : autoplaceAdded srv opts outline ids s = .ok (placing, t)) :
    t.board.shapes = movedBy (if (outline.drew && !outline.fixed) = true ∧
        srv.autoplace = .completed true ∧ unplacedIds srv ids = [] ∧ 0 < opts.edgeMarginNm then
      insetShift srv.edgeBoxes srv.boxes opts.edgeMarginNm else none) s.board.shapes := by
  obtain ⟨_, u, hask, h⟩ := bind_ok.mp h
  obtain ⟨_, rfl⟩ := ask_ok.mp hask
  obtain ⟨_, v, hplace, h⟩ := bind_ok.mp h
  cases hplace
  obtain ⟨_, w, hask', h⟩ := bind_ok.mp h
  obtain ⟨_, rfl⟩ := ask_ok.mp hask'
  cases hanswer : srv.autoplace with
  | failed m =>
    rw [hanswer] at h
    obtain ⟨rfl, rfl⟩ := pure_ok.mp h
    rw [if_neg (by simp)]
    rfl
  | completed ok =>
    rw [hanswer] at h
    cases ok with
    | false =>
      obtain ⟨rfl, rfl⟩ := pure_ok.mp h
      rw [if_neg (by simp)]
      rfl
    | true =>
      dsimp only at h
      rw [if_neg (by simp)] at h
      split at h
      next hsome =>
        obtain ⟨rfl, rfl⟩ := pure_ok.mp h
        rw [if_neg (by simp [hsome])]
        rfl
      next hall =>
        have hplaced : unplacedIds srv ids = [] := not_not.mp hall
        split at h
        next hzero =>
          obtain ⟨rfl, rfl⟩ := pure_ok.mp h
          rw [if_neg (by simp [hzero])]
          rfl
        · split at h
          next hfree =>
            obtain ⟨d, x, hinset, h⟩ := bind_ok.mp h
            obtain ⟨rfl, rfl⟩ := pure_ok.mp h
            have hmove := fun hd => insetOutline_board hd hinset
            rw [hmove (hdrawn hfree)]
            simp [hids, hfree, hplaced, ne_eq, not_false_eq_true, true_and]
          next hnot =>
            rw [if_neg (fun hc => hnot hc.1)]
            split at h
            · obtain ⟨rfl, rfl⟩ := pure_ok.mp h
              rfl
            · obtain ⟨rfl, rfl⟩ := pure_ok.mp h
              rfl

lemma placeFootprints_board {placements : List ComponentPlacement} {n : ℕ}
    (h : placeFootprints nm srv placements s = .ok (n, t)) : t.board.shapes = s.board.shapes := by
  obtain ⟨_, u, hask, h⟩ := bind_ok.mp h
  obtain ⟨_, rfl⟩ := ask_ok.mp hask
  split at h
  · obtain ⟨_, v, hcommit, h⟩ := bind_ok.mp h
    obtain rfl := commit_ok hcommit
    obtain ⟨rfl, rfl⟩ := pure_ok.mp h
    rfl
  · obtain ⟨rfl, rfl⟩ := pure_ok.mp h
    rfl

/-- From the import on, the outline is moved at most. -/
lemma importAndPlace_board {o : ApplyOutcome}
    (hdrawn : (outline.drew && !outline.fixed) = true → Drawn s.board.shapes)
    (h : importAndPlace nm srv opts outline s = .ok (o, t)) :
    t.board.shapes = movedBy (shiftOf srv opts outline) s.board.shapes ∧
      ∃ ds, o.diagnostics = outline.diagnostics ++ ds := by
  obtain ⟨_, s₁, hcancel, h⟩ := bind_ok.mp h
  obtain ⟨_, rfl⟩ := cancelled_ok.mp hcancel
  obtain ⟨_, s₂, hask, h⟩ := bind_ok.mp h
  obtain ⟨_, rfl⟩ := ask_ok.mp hask
  obtain ⟨_, s₃, hask, h⟩ := bind_ok.mp h
  obtain ⟨_, rfl⟩ := ask_ok.mp hask
  obtain ⟨_, s₄, hask, h⟩ := bind_ok.mp h
  obtain ⟨_, rfl⟩ := ask_ok.mp hask
  obtain ⟨_, s₅, hfootprints, h⟩ := bind_ok.mp h
  have h₅ : s₅.board = s.board := by
    rcases onlyIf_ok hfootprints with ⟨_, hask⟩ | ⟨_, _, rfl⟩
    · obtain ⟨_, rfl⟩ := ask_ok.mp hask
      rfl
    · rfl
  obtain ⟨_, s₆, hbegin, h⟩ := bind_ok.mp h
  have h₆ : s₆.board = s.board := by
    rcases onlyIf_ok hbegin with ⟨_, hcancel⟩ | ⟨_, _, rfl⟩
    · obtain ⟨_, rfl⟩ := cancelled_ok.mp hcancel
      exact h₅
    · exact h₅
  obtain ⟨placing, s₇, hplacing, h⟩ := bind_ok.mp h
  have h₇ : s₇.board.shapes = movedBy (shiftOf srv opts outline) s.board.shapes := by
    rcases onlyIf_ok hplacing with ⟨⟨hauto, hids⟩, hadded⟩ | ⟨hnot, _, rfl⟩
    · rw [autoplaceAdded_board hids (fun hfree => h₆ ▸ hdrawn hfree) hadded, h₆]
      unfold shiftOf insetOf
      simp [hauto, hids, ne_eq, not_false_eq_true, true_and, ite_and]
    · rw [h₆]
      have hnone : shiftOf srv opts outline = none := by
        unfold shiftOf insetOf
        split
        · rw [if_neg fun hc => hnot ⟨hc.1, hc.2.1⟩]
        · rfl
      rw [hnone]
      rfl
  obtain ⟨_, s₈, hplaced, h⟩ := bind_ok.mp h
  have h₈ : s₈.board = s₇.board := by
    rcases onlyIf_ok hplaced with ⟨_, hcancel⟩ | ⟨_, _, rfl⟩
    · obtain ⟨_, rfl⟩ := cancelled_ok.mp hcancel
      rfl
    · rfl
  obtain ⟨moved, s₉, hmoved, h⟩ := bind_ok.mp h
  have h₉ : s₉.board.shapes = s₈.board.shapes := by
    rcases onlyIf_ok hmoved with ⟨_, hplace⟩ | ⟨_, _, rfl⟩
    · exact placeFootprints_board hplace
    · rfl
  obtain ⟨rfl, rfl⟩ := pure_ok.mp h
  refine ⟨by rw [h₉, h₈, h₇], reportDiagnostics srv.imported ++ placing.diagnostics, ?_⟩
  exact List.append_assoc ..

/-! ### The outline of a first run -/

/-- All on the layer of the outline is the compiler's. -/
def AllGenerated (shapes : List BoardShape) : Prop :=
  ∀ shape ∈ shapes, shape.layer = .BL_Edge_Cuts → shape.generated = true

lemma mem_numbered_iff {n : ℕ} {shapes : List BoardShape} {shape : BoardShape}
    (h : shape ∈ numbered n shapes) : ∃ old ∈ shapes, ∃ id, shape = { old with id := id } := by
  induction shapes generalizing n with
  | nil => cases h
  | cons a shapes ih =>
    rcases List.mem_cons.mp h with rfl | h
    · exact ⟨a, List.mem_cons_self, n, rfl⟩
    · obtain ⟨old, hold, id, heq⟩ := ih h
      exact ⟨old, List.mem_cons_of_mem _ hold, id, heq⟩

lemma created_edges {b : Board} {points : List Vec2} {vias : List Via}
    (hnone : edgesOf b.shapes = []) {shape : BoardShape}
    (hmem : shape ∈ (b.create (outlineItems points) vias).shapes)
    (hlayer : shape.layer = .BL_Edge_Cuts) : shape.generated = true ∧ shape.isSegment = true := by
  rcases List.mem_append.mp hmem with hold | hnew
  · have hedge : shape ∈ edgesOf b.shapes := List.mem_filter.mpr ⟨hold, decide_eq_true hlayer⟩
    rw [hnone] at hedge
    cases hedge
  · obtain ⟨old, hold, id, rfl⟩ := mem_numbered_iff hnew
    obtain ⟨side, _, rfl⟩ := List.mem_map.mp hold
    exact ⟨rfl, rfl⟩

lemma generated_moveEdge (d : Vec2) (shape : BoardShape) :
    (moveEdge d shape).generated = shape.generated ∧ (moveEdge d shape).layer = shape.layer := by
  obtain ⟨id, layer, geometry, properties⟩ := shape
  cases layer <;> cases geometry <;> exact ⟨rfl, rfl⟩

lemma edgeSegments_generated {shapes : List BoardShape} (h : AllGenerated shapes) :
    edgeSegments shapes = generatedSegments shapes := by
  rw [edgeSegments_eq, generatedSegments_eq]
  refine List.filterMap_congr fun shape hshape => ?_
  unfold generatedSegment?
  by_cases hlayer : shape.layer = .BL_Edge_Cuts
  · rw [if_pos hlayer, if_pos ⟨hlayer, h shape hshape hlayer⟩]
  · rw [if_neg hlayer, if_neg fun hc => hlayer hc.1]

lemma allGenerated_redrawn {b : Board} {points : List Vec2} (h : AllGenerated b.shapes) :
    AllGenerated (Board.redrawn b points).shapes := by
  intro shape hshape hlayer
  rcases List.mem_append.mp hshape with hold | hnew
  · exact h shape (List.mem_of_mem_filter hold) hlayer
  · obtain ⟨old, hold, id, rfl⟩ := mem_numbered_iff hnew
    obtain ⟨side, _, rfl⟩ := List.mem_map.mp hold
    rfl

variable {points : List Vec2}

/-- The first run draws an outline that it then moves: the board has none, the specification is no
blank's, and the additions that were autoplaced are too close to the outline. -/
def Moves (nm : ℚ → ℤ) (srv : Server) (opts : ApplyOptions) (b : Board) (d : Vec2) : Prop :=
  edgesOf b.shapes = [] ∧ (prefabItems nm opts.board).1 = [] ∧ (prefabItems nm opts.board).2 = [] ∧
    insetOf srv opts = some d

/-- What a first run leaves: an outline that the second will keep, unless the first moved it. -/
structure Left (nm : ℚ → ℤ) (srv : Server) (opts : ApplyOptions) (points : List Vec2)
    (b b' : Board) : Prop where
  drawn : edgesOf b'.shapes ≠ []
  kept : (∀ d, ¬ Moves nm srv opts b d) → reconcile b'.shapes points = .kept
  moved : ∀ d, Moves nm srv opts b d →
    AllGenerated b'.shapes ∧ generatedSegments b'.shapes = sides (points.map (shift d))

/-- A first run on a board without an outline. -/
lemma left_of_none {u v : Session} {o : ApplyOutcome}
    (hpoints : outlinePoints nm opts.board = some points) (hlen : 3 ≤ points.length)
    (hnone : edgesOf s.board.shapes = []) (hv : v.board = s.board)
    (houtline : ensureOutline nm srv.fails opts.board opts.message v = .ok (outline, u))
    (himport : importAndPlace nm srv opts outline u = .ok (o, t)) :
    Left nm srv opts points s.board t.board := by
  obtain ⟨hboard, rfl⟩ := ensureOutline_draws hpoints hlen (hv ▸ hnone) houtline
  rw [hv] at hboard
  have hdrawn : generatedSegments u.board.shapes = sides points := by
    rw [hboard]
    exact generatedSegments_created hnone _
  have hsides : generatedSegments u.board.shapes ≠ [] := by
    rw [hdrawn]
    exact sides_ne_nil hlen
  -- a blank's outline stays put
  let free := (prefabItems nm opts.board).1 = [] ∧ (prefabItems nm opts.board).2 = []
  let fresh : OutlineOutcome :=
    { drew := true
      fixed := !(prefabItems nm opts.board).1.isEmpty || !(prefabItems nm opts.board).2.isEmpty
      viasAdded := (prefabItems nm opts.board).1.length
      holesAdded := (prefabItems nm opts.board).2.length }
  have hfree : (fresh.drew && !fresh.fixed) = true ↔ free := by
    simp [fresh, free]
  have hedges : free → ∀ shape ∈ u.board.shapes, shape.layer = .BL_Edge_Cuts →
      shape.generated = true ∧ shape.isSegment = true := by
    rintro ⟨_, hholes⟩ shape hshape hlayer
    rw [hboard, hholes, List.append_nil] at hshape
    exact created_edges hnone hshape hlayer
  have hsegments : (fresh.drew && !fresh.fixed) = true → Drawn u.board.shapes := by
    intro hc
    refine ⟨edgesOf_ne_nil hsides, fun e he => ?_⟩
    obtain ⟨hmem, hlayer⟩ := List.mem_filter.mp he
    exact (hedges (hfree.mp hc) e hmem (of_decide_eq_true hlayer)).2
  obtain ⟨hshapes, _⟩ := importAndPlace_board hsegments himport
  have hmoves : ∀ d, shiftOf srv opts fresh = some d ↔ Moves nm srv opts s.board d := by
    intro d
    unfold shiftOf
    split
    next hc => exact ⟨fun hd => ⟨hnone, (hfree.mp hc).1, (hfree.mp hc).2, hd⟩, fun hm => hm.2.2.2⟩
    next hc =>
      refine ⟨fun hd => ?_, fun hm => absurd (hfree.mpr ⟨hm.2.1, hm.2.2.1⟩) hc⟩
      cases hd
  refine ⟨?_, fun hnot => ?_, fun d hd => ?_⟩
  · rw [hshapes]
    cases shiftOf srv opts fresh with
    | none => exact edgesOf_ne_nil hsides
    | some d => exact edgesOf_moved_ne_nil hsides
  · have hstays : shiftOf srv opts fresh = none :=
      Option.eq_none_iff_forall_ne_some.mpr fun d hd => hnot d ((hmoves d).mp hd)
    have hsame : t.board.shapes = u.board.shapes := by
      rw [hshapes, show shiftOf srv opts _ = none from hstays]
      rfl
    rw [hsame]
    exact (reconcile_generated hlen hdrawn points).1 (List.Perm.refl _)
  · have hmoved : t.board.shapes = u.board.shapes.map (moveEdge d) := by
      rw [hshapes, show shiftOf srv opts _ = some d from (hmoves d).mpr hd]
      rfl
    refine ⟨fun shape hshape hlayer => ?_, ?_⟩
    · rw [hmoved] at hshape
      obtain ⟨old, hold, rfl⟩ := List.mem_map.mp hshape
      obtain ⟨hgen, hsame⟩ := generated_moveEdge d old
      rw [hgen]
      exact (hedges ⟨hd.2.1, hd.2.2.1⟩ old hold (hsame ▸ hlayer)).1
    · rw [hmoved, generatedSegments_moved, hdrawn, sides_shift]

/-- A first run on a board that has one. -/
lemma left_of_some {u v : Session} {o : ApplyOutcome}
    (hpoints : outlinePoints nm opts.board = some points) (hlen : 3 ≤ points.length)
    (hnone : edgesOf s.board.shapes ≠ []) (hv : v.board = s.board)
    (houtline : ensureOutline nm srv.fails opts.board opts.message v = .ok (outline, u))
    (hno : hasErrors outline.diagnostics = false)
    (himport : importAndPlace nm srv opts outline u = .ok (o, t)) :
    Left nm srv opts points s.board t.board := by
  have hreconciled := ensureOutline_reconciles hpoints hlen (hv ▸ hnone) houtline
  rw [hv] at hreconciled
  have hstays : ∀ hdrew : outline.drew = false, t.board.shapes = u.board.shapes := by
    intro hdrew
    have hnever : ¬ (outline.drew && !outline.fixed) = true := by simp [hdrew]
    obtain ⟨hshapes, _⟩ := importAndPlace_board (fun hc => absurd hc hnever) himport
    rw [hshapes, shiftOf, if_neg hnever]
    rfl
  have hnever : ∀ d, ¬ Moves nm srv opts s.board d := fun d hd => hnone hd.1
  cases hrec : reconcile s.board.shapes points with
  | refused d =>
    rw [hrec] at hreconciled
    obtain ⟨_, rfl⟩ := hreconciled
    have herr : hasErrors [d] = true := by simp [hasErrors, reconcile_refused hrec]
    exact absurd (herr.symm.trans hno) (by decide)
  | kept =>
    rw [hrec] at hreconciled
    obtain ⟨hboard, hdrew, _⟩ := hreconciled
    have hsame : t.board.shapes = s.board.shapes := by rw [hstays hdrew, hboard]
    exact ⟨hsame ▸ hnone, fun _ => hsame ▸ hrec, fun d hd => absurd hd (hnever d)⟩
  | replaced =>
    rw [hrec] at hreconciled
    obtain ⟨hboard, hdrew, _⟩ := hreconciled
    have hdrawn := generatedSegments_redrawn s.board points
    rw [← hboard, ← hstays hdrew] at hdrawn
    refine ⟨edgesOf_ne_nil ?_, fun _ => ?_, fun d hd => absurd hd (hnever d)⟩
    · rw [hdrawn]
      exact sides_ne_nil hlen
    · exact (reconcile_generated hlen hdrawn points).1 (List.Perm.refl _)

/-- **The first run.** -/
lemma left_of_run {o : ApplyOutcome} (hpoints : outlinePoints nm opts.board = some points)
    (hlen : 3 ≤ points.length) (h : applyNetlist nm srv opts s = .ok (o, t))
    (hsuccess : hasErrors o.diagnostics = false) : Left nm srv opts points s.board t.board := by
  rcases applyNetlist_ok h with ⟨_, _, herr⟩ | ⟨_, outline, u, houtline, hrest⟩
  · rw [hsuccess] at herr
    cases herr
  rcases hrest with ⟨herr, _, hsame⟩ | ⟨hno, himport⟩
  · rw [hsame, herr] at hsuccess
    cases hsuccess
  have hv : Session.board ⟨s.board, s.issued ++ [.updateBoard true]⟩ = s.board := rfl
  by_cases hnone : edgesOf s.board.shapes = []
  · exact left_of_none hpoints hlen hnone hv houtline himport
  · exact left_of_some hpoints hlen hnone hv houtline hno himport

/-! ### The second run -/

/-- A second run, in which the import adds nothing, does to the outline what `ensureOutline` does. -/
lemma second_run {o : ApplyOutcome} (hpoints : outlinePoints nm opts.board = some points)
    (hlen : 3 ≤ points.length) (hdry : srv.dryRun.errorCount = 0) (hadded : addedIds srv = [])
    (hdrawn : edgesOf s.board.shapes ≠ []) (h : applyNetlist nm srv opts s = .ok (o, t)) :
    match reconcile s.board.shapes points with
    | .replaced => t.board.shapes = (Board.redrawn s.board points).shapes
    | _ => t.board.shapes = s.board.shapes := by
  have hids : autoIds srv opts = [] := by
    unfold autoIds
    rw [hadded]
    simp
  have hstays : ∀ outline, shiftOf srv opts outline = none := by
    intro outline
    unfold shiftOf insetOf
    rw [if_neg (c := opts.autoplace = true ∧ _) fun hc => hc.2.1 hids]
    split <;> rfl
  rcases applyNetlist_ok h with ⟨herr, _, _⟩ | ⟨_, outline, u, houtline, hrest⟩
  · omega
  have hv : Session.board ⟨s.board, s.issued ++ [.updateBoard true]⟩ = s.board := rfl
  have hreconciled := ensureOutline_reconciles hpoints hlen (hv ▸ hdrawn) houtline
  have himported : outline.drew = false → hasErrors outline.diagnostics = false →
      t.board.shapes = u.board.shapes := by
    intro hdrew hno
    have hnever : ¬ (outline.drew && !outline.fixed) = true := by simp [hdrew]
    rcases hrest with ⟨herr, _, _⟩ | ⟨_, himport⟩
    · rw [hno] at herr
      cases herr
    · obtain ⟨hshapes, _⟩ := importAndPlace_board (fun hc => absurd hc hnever) himport
      rw [hshapes, hstays]
      rfl
  cases hrec : reconcile s.board.shapes points with
  | refused d =>
    rw [hrec] at hreconciled
    obtain ⟨hboard, rfl⟩ := hreconciled
    have herr : hasErrors [d] = true := by simp [hasErrors, reconcile_refused hrec]
    rcases hrest with ⟨_, rfl, _⟩ | ⟨hno, _⟩
    · rw [hboard]
    · exact absurd (herr.symm.trans hno) (by decide)
  | kept =>
    rw [hrec] at hreconciled
    obtain ⟨hboard, hdrew, _, hno⟩ := hreconciled
    exact (himported hdrew hno).trans (congrArg Board.shapes hboard)
  | replaced =>
    rw [hrec] at hreconciled
    obtain ⟨hboard, hdrew, _, hno⟩ := hreconciled
    exact (himported hdrew hno).trans (congrArg Board.shapes hboard)

lemma insetShift_ne_zero {edgeBoxes boxes : List Box} {marginNm : ℤ} {d : Vec2}
    (h : insetShift edgeBoxes boxes marginNm = some d) : ¬ (d.x = 0 ∧ d.y = 0) := by
  unfold insetShift at h
  split at h
  · dsimp only at h
    split at h
    · cases h
    next hd =>
      cases h
      exact hd
  · cases h

/-! ### A margin that is lost -/

def firstServer : Server where
  fails := answered
  aborted := fun _ => false
  dryRun := ⟨0, 0, []⟩
  imported := ⟨0, 0, []⟩
  footprintIds := fun after => if after then ["fp1"] else []
  footprints := fun _ => []
  pads := fun after => [⟨some "fp1", if after then ⟨5000000, 5000000⟩ else ⟨0, 0⟩⟩]
  autoplace := .completed true
  edgeBoxes := [⟨0, 0⟩]
  boxes := [⟨100000, 200000⟩]

/-- The import of a second run adds nothing. -/
def secondServer : Server := { firstServer with footprintIds := fun _ => ["fp1"] }

def withMargin : ApplyOptions where
  board := some (rectangle 20 10)
  autoplace := true
  edgeMarginNm := 500000

/-- Two compiles, one after the other. -/
def compiles : Job (ApplyOutcome × ApplyOutcome) := do
  let o ← applyNetlist roundMm firstServer withMargin
  let o' ← applyNetlist roundMm secondServer withMargin
  return (o, o')

lemma compiles_some {α : Type} {f : (ApplyOutcome × ApplyOutcome) × Session → α} {a : α}
    (h : (compiles blankSession).toOption.map f = some a) : ∃ o t o' u,
      applyNetlist roundMm firstServer withMargin blankSession = .ok (o, t) ∧
      applyNetlist roundMm secondServer withMargin t = .ok (o', u) ∧ f ((o, o'), u) = a :=
  pair_some h

lemma withMargin_points : outlinePoints roundMm withMargin.board =
    some (corners 20000000 10000000) := by decide +kernel

/-- **Compiling again keeps the outline** just when the first run did not move it, or drew one that
meets a point twice, which the second run refuses. -/
theorem recompile_iff {srv' : Server} {opts' : ApplyOptions} {o o' : ApplyOutcome} {u : Session}
    (hspec : opts'.board = opts.board) (hpoints : outlinePoints nm opts.board = some points)
    (hlen : 3 ≤ points.length) (h : applyNetlist nm srv opts s = .ok (o, t))
    (hsuccess : hasErrors o.diagnostics = false) (hdry : srv'.dryRun.errorCount = 0)
    (hadded : addedIds srv' = []) (h' : applyNetlist nm srv' opts' t = .ok (o', u)) :
    (∀ side, side ∈ edgeSegments u.board.shapes ↔ side ∈ edgeSegments t.board.shapes) ↔
      ¬ ((∃ d, Moves nm srv opts s.board d) ∧ points.Nodup) := by
  have hleft := left_of_run hpoints hlen h hsuccess
  have hsecond := second_run (hspec ▸ hpoints) hlen hdry hadded hleft.drawn h'
  by_cases hmoves : ∃ d, Moves nm srv opts s.board d
  · obtain ⟨d, hd⟩ := hmoves
    obtain ⟨hall, hdrawn⟩ := hleft.moved d hd
    have haway : ¬ (d.x = 0 ∧ d.y = 0) := by
      have hinset := hd.2.2.2
      unfold insetOf at hinset
      split at hinset
      · exact insetShift_ne_zero hinset
      · cases hinset
    have hlen' : 3 ≤ (points.map (shift d)).length := by rwa [List.length_map]
    obtain ⟨_, hreplaced, hrefused⟩ := reconcile_generated hlen' hdrawn points
    have hdiffers := not_sameSides_shift haway hlen
    by_cases hnodup : points.Nodup
    · have hnodup' : (points.map (shift d)).Nodup := hnodup.map (shift_injective d)
      rw [hreplaced hdiffers hnodup'] at hsecond
      refine ⟨fun hsame => ?_, fun hnot => absurd ⟨⟨d, hd⟩, hnodup⟩ hnot⟩
      have hbefore : edgeSegments t.board.shapes = (sides points).map (shiftSide d) := by
        rw [edgeSegments_generated hall, hdrawn, sides_shift]
      have hafter : edgeSegments u.board.shapes = sides points := by
        rw [hsecond, edgeSegments_generated (allGenerated_redrawn hall),
          generatedSegments_redrawn]
      rw [hbefore, hafter] at hsame
      exact absurd hsame (moved_away haway (sides_ne_nil hlen))
    · have hnodup' : ¬ (points.map (shift d)).Nodup :=
        fun hn => hnodup (List.Nodup.of_map _ hn)
      rw [hrefused hdiffers hnodup'] at hsecond
      exact ⟨fun _ hc => hnodup hc.2, fun _ side => by rw [hsecond]⟩
  · have hkept := hleft.kept fun d hd => hmoves ⟨d, hd⟩
    rw [hkept] at hsecond
    exact ⟨fun _ hc => hmoves hc.1, fun _ side => by rw [hsecond]⟩

/-- A rectangle that made room for a footprint. -/
theorem recompile_margin : ∃ o t o' u,
    applyNetlist roundMm firstServer withMargin blankSession = .ok (o, t) ∧
    applyNetlist roundMm secondServer withMargin t = .ok (o', u) ∧
    ((∀ side, side ∈ edgeSegments u.board.shapes ↔ side ∈ edgeSegments t.board.shapes) ↔
      ¬ ((∃ d, Moves roundMm firstServer withMargin blankSession.board d) ∧
        (corners 20000000 10000000).Nodup)) := by
  have hruns : (compiles blankSession).toOption.map (fun r => hasErrors r.1.1.diagnostics) =
      some false := by decide +kernel
  obtain ⟨o, t, o', u, h, h', hsuccess⟩ := compiles_some hruns
  exact ⟨o, t, o', u, h, h', recompile_iff rfl withMargin_points (by decide) h hsuccess rfl
    (by decide) h'⟩

/-- The second compile puts the outline back. -/
theorem not_recompiled :
    ¬ ∀ (nm : ℚ → ℤ) (srv srv' : Server) (opts opts' : ApplyOptions) (points : List Vec2)
      (s t u : Session) (o o' : ApplyOutcome),
      opts'.board = opts.board → outlinePoints nm opts.board = some points → 3 ≤ points.length →
      applyNetlist nm srv opts s = .ok (o, t) → hasErrors o.diagnostics = false →
      srv'.dryRun.errorCount = 0 → addedIds srv' = [] → o'.footprintsPlaced = 0 →
      applyNetlist nm srv' opts' t = .ok (o', u) →
      ∀ side, side ∈ edgeSegments u.board.shapes ↔ side ∈ edgeSegments t.board.shapes := by
  intro h
  have hfirst : (applyNetlist roundMm firstServer withMargin blankSession).toOption.map
      (fun r => decide ((⟨0, 0⟩, ⟨20000000, 0⟩) ∈ edgeSegments r.2.board.shapes)) =
        some false := by decide +kernel
  have hruns : (compiles blankSession).toOption.map (fun r => (hasErrors r.1.1.diagnostics,
      r.1.2.footprintsPlaced,
      decide ((⟨0, 0⟩, ⟨20000000, 0⟩) ∈ edgeSegments r.2.board.shapes))) =
        some (false, 0, true) := by decide +kernel
  obtain ⟨o, t, o', u, hrun, hrun', hshown⟩ := compiles_some hruns
  obtain ⟨p, t', hrun'', hgone⟩ := run_some hfirst
  rw [hrun] at hrun''
  cases hrun''
  simp only [Prod.mk.injEq, decide_eq_true_iff] at hshown
  have hsame := h roundMm firstServer secondServer withMargin withMargin _ blankSession t u o o' rfl
    withMargin_points (by decide) hrun hshown.1 rfl (by decide) hshown.2.1 hrun' (⟨0, 0⟩,
      ⟨20000000, 0⟩)
  exact of_decide_eq_false hgone (hsame.mp hshown.2.2)

end FabPcb.OutlineRecompile
