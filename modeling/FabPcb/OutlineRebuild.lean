import FabPcb.ApplyNetlist
import FabPcb.OutlineContour

/-!
Rebuilding with a changed outline.

`ensureOutline` knows the outline of an earlier compile by its property and replaces it only if it is
one closed contour. What a compile drew is one just when no point of the specification comes twice
after rounding, so an outline that touches itself cannot be changed any more.
-/

namespace FabPcb.OutlineRebuild

open Outline BoardJob ApplyNetlist OutlineContour

/-! ### The generated boundary -/

/-- The side that a graphic of the compiler stands for. -/
def generatedSegment? (shape : BoardShape) : Option (Vec2 × Vec2) :=
  if shape.layer = .BL_Edge_Cuts ∧ shape.generated = true then shape.segment? else none

def generatedSegments (shapes : List BoardShape) : List (Vec2 × Vec2) :=
  segmentsOf (generatedBoundary shapes)

lemma generatedSegments_eq (shapes : List BoardShape) :
    generatedSegments shapes = shapes.filterMap generatedSegment? := by
  induction shapes with
  | nil => rfl
  | cons shape shapes ih =>
    have hcons : generatedSegments (shape :: shapes) =
        (generatedSegment? shape).toList ++ generatedSegments shapes := by
      by_cases hlayer : shape.layer = .BL_Edge_Cuts <;>
        by_cases hgen : shape.generated = true <;>
        cases hseg : shape.segment? <;>
        simp [generatedSegments, segmentsOf, generatedBoundary, boundaryOf, edgesOf,
          generatedSegment?, BoardShape.isSegment, hlayer, hgen, hseg]
    rw [hcons, ih, List.filterMap_cons]
    cases generatedSegment? shape <;> rfl

lemma generatedSegments_append (shapes shapes' : List BoardShape) :
    generatedSegments (shapes ++ shapes') = generatedSegments shapes ++ generatedSegments shapes' := by
  rw [generatedSegments_eq, generatedSegments_eq, generatedSegments_eq, List.filterMap_append]

lemma generatedSegments_numbered (n : ℕ) (shapes : List BoardShape) :
    generatedSegments (numbered n shapes) = generatedSegments shapes := by
  rw [generatedSegments_eq, generatedSegments_eq]
  induction shapes generalizing n with
  | nil => rfl
  | cons shape shapes ih =>
    have hsame : generatedSegment? { shape with id := n } = generatedSegment? shape := rfl
    rw [numbered, List.filterMap_cons, List.filterMap_cons, ih, hsame]

lemma generatedSegments_outlineItems (points : List Vec2) :
    generatedSegments (outlineItems points) = sides points := by
  rw [generatedSegments_eq, outlineItems, List.filterMap_map]
  have hall : generatedSegment? ∘ outlineItem = some := by
    rfl
  rw [hall, List.filterMap_some]

lemma generatedSegments_holes {nm : ℚ → ℤ} (holes : List PrefabHole) :
    generatedSegments (holes.map (holeItem nm)) = [] := by
  rw [generatedSegments_eq, List.filterMap_map, List.filterMap_eq_nil_iff]
  intro h _
  have hgen : (holeItem nm h).generated = false := rfl
  rw [Function.comp, generatedSegment?, if_neg fun hc => Bool.false_ne_true (hgen.symm.trans hc.2)]

lemma generatedSegments_of_no_edges {shapes : List BoardShape} (h : edgesOf shapes = []) :
    generatedSegments shapes = [] := by
  simp [generatedSegments, generatedBoundary, boundaryOf, h, segmentsOf]

lemma generatedBoundary_ne_nil {shapes : List BoardShape} (h : generatedSegments shapes ≠ []) :
    generatedBoundary shapes ≠ [] := by
  intro hnil
  rw [generatedSegments, hnil] at h
  exact h rfl

lemma edgesOf_ne_nil {shapes : List BoardShape} (h : generatedSegments shapes ≠ []) :
    edgesOf shapes ≠ [] := fun hnil => h (generatedSegments_of_no_edges hnil)

lemma generatedSegments_deleted (shapes : List BoardShape) :
    generatedSegments (shapes.filter (·.id ∉ (generatedBoundary shapes).map (·.id))) = [] := by
  rw [generatedSegments_eq, List.filterMap_eq_nil_iff]
  intro shape hshape
  obtain ⟨hmem, hid⟩ := List.mem_filter.mp hshape
  by_contra hseg
  refine of_decide_eq_true hid (List.mem_map_of_mem ?_)
  unfold generatedSegment? at hseg
  split at hseg
  next hgen =>
    simp only [generatedBoundary, boundaryOf, edgesOf, List.mem_filter, decide_eq_true_iff]
    exact ⟨⟨⟨hmem, hgen.1⟩, Option.isSome_iff_ne_none.mpr hseg⟩, hgen.2⟩
  · exact absurd rfl hseg

/-! ### What `ensureOutline` does -/

variable {nm : ℚ → ℤ} {fails : Fails} {spec : Option BoardSpec} {message : String}
  {points : List Vec2} {s t : Session} {o : OutlineOutcome}

lemma checkBlank_ok {vias : List Via} (h : checkBlank fails vias s = .ok (o, t)) :
    t.board = s.board ∧ o.drew = false ∧ (∀ d ∈ o.diagnostics, d.code = "blank_not_drawn") ∧
      hasErrors o.diagnostics = false := by
  unfold checkBlank at h
  split at h
  · obtain ⟨tracks, u, htracks, h⟩ := bind_ok.mp h
    obtain ⟨_, rfl⟩ := getTracks_ok htracks
    split at h
    · obtain ⟨rfl, rfl⟩ := pure_ok.mp h
      exact ⟨rfl, rfl, fun d hd => absurd hd List.not_mem_nil, rfl⟩
    · obtain ⟨rfl, rfl⟩ := pure_ok.mp h
      exact ⟨rfl, rfl, fun d hd => by rw [List.mem_singleton.mp hd]; rfl, rfl⟩
  · obtain ⟨rfl, rfl⟩ := pure_ok.mp h
    exact ⟨rfl, rfl, fun d hd => absurd hd List.not_mem_nil, rfl⟩

lemma ensureOutline_draws (hpoints : outlinePoints nm spec = some points) (hlen : 3 ≤ points.length)
    (hnone : edgesOf s.board.shapes = [])
    (h : ensureOutline nm fails spec message s = .ok (o, t)) :
    t.board = s.board.create (outlineItems points ++ (prefabItems nm spec).2) (prefabItems nm spec).1 ∧
      o = { drew := true, fixed := !(prefabItems nm spec).1.isEmpty || !(prefabItems nm spec).2.isEmpty,
            viasAdded := (prefabItems nm spec).1.length,
            holesAdded := (prefabItems nm spec).2.length } := by
  rw [ensureOutline, hpoints] at h
  dsimp only at h
  rw [if_neg (by omega)] at h
  obtain ⟨shapes, u, hshapes, h⟩ := bind_ok.mp h
  obtain ⟨rfl, rfl⟩ := getShapes_ok hshapes
  rw [if_neg (fun hne => hne hnone)] at h
  obtain ⟨_, v, hcommit, h⟩ := bind_ok.mp h
  obtain rfl := commit_ok hcommit
  obtain ⟨rfl, rfl⟩ := pure_ok.mp h
  exact ⟨rfl, rfl⟩

lemma reconcile_refused {shapes : List BoardShape} {d : Diagnostic}
    (h : reconcile shapes points = .refused d) : d.severity = .error := by
  unfold reconcile at h
  dsimp only at h
  split at h
  · split at h
    · cases h
    · split at h
      · cases h
      · cases h
        rfl
  · split at h
    · cases h
    · cases h
      rfl

/-- The board after an outline was replaced. -/
def Board.redrawn (b : Board) (points : List Vec2) : Board :=
  (b.deleteShapes ((generatedBoundary b.shapes).map (·.id))).create (outlineItems points) []

/-- A board with graphics on the layer keeps them, has its generated outline replaced or is
refused. -/
lemma ensureOutline_reconciles (hpoints : outlinePoints nm spec = some points)
    (hlen : 3 ≤ points.length) (hsome : edgesOf s.board.shapes ≠ [])
    (h : ensureOutline nm fails spec message s = .ok (o, t)) :
    match reconcile s.board.shapes points with
    | .refused d => t.board = s.board ∧ o = { diagnostics := [d] }
    | .kept => t.board = s.board ∧ o.drew = false ∧
        (∀ d ∈ o.diagnostics, d.code = "blank_not_drawn") ∧ hasErrors o.diagnostics = false
    | .replaced => t.board = Board.redrawn s.board points ∧ o.drew = false ∧
        (∀ d ∈ o.diagnostics, d.code = "blank_not_drawn") ∧ hasErrors o.diagnostics = false := by
  rw [ensureOutline, hpoints] at h
  dsimp only at h
  rw [if_neg (by omega)] at h
  obtain ⟨shapes, u, hshapes, h⟩ := bind_ok.mp h
  obtain ⟨rfl, rfl⟩ := getShapes_ok hshapes
  rw [if_pos hsome] at h
  cases hrec : reconcile s.board.shapes points with
  | kept =>
    rw [hrec] at h
    have hblank : checkBlank fails (prefabItems nm spec).1
        ⟨s.board, s.issued ++ [.getShapes]⟩ = .ok (o, t) := h
    have hkept := checkBlank_ok hblank
    exact hkept
  | replaced =>
    rw [hrec] at h
    obtain ⟨_, v, hcommit, h⟩ := bind_ok.mp h
    obtain rfl := commit_ok hcommit
    exact checkBlank_ok h
  | refused d =>
    rw [hrec] at h
    obtain ⟨rfl, rfl⟩ := pure_ok.mp h
    exact ⟨rfl, rfl⟩

/-! ### One outline after another -/

lemma generatedSegments_created {b : Board} {vias : List Via} (hnone : edgesOf b.shapes = [])
    (holes : List PrefabHole) :
    generatedSegments (b.create (outlineItems points ++ holes.map (holeItem nm)) vias).shapes =
      sides points := by
  rw [Board.create, generatedSegments_append, generatedSegments_numbered,
    generatedSegments_append, generatedSegments_of_no_edges hnone, generatedSegments_outlineItems,
    generatedSegments_holes, List.append_nil, List.nil_append]

lemma generatedSegments_redrawn (b : Board) (points : List Vec2) :
    generatedSegments (Board.redrawn b points).shapes = sides points := by
  rw [Board.redrawn, Board.create, generatedSegments_append, generatedSegments_numbered,
    generatedSegments_outlineItems, Board.deleteShapes, generatedSegments_deleted,
    List.nil_append]

/-- The same sides, whichever way they run. -/
def SameSides (segments : List (Vec2 × Vec2)) (points : List Vec2) : Prop :=
  (segments.map segmentKey).Perm ((sides points).map segmentKey)

lemma outlineMatches_generated {shapes : List BoardShape} :
    outlineMatches (generatedBoundary shapes) points = true ↔
      SameSides (generatedSegments shapes) points := outlineMatches_iff

lemma sides_ne_nil (hlen : 3 ≤ points.length) : sides points ≠ [] := by
  intro hnil
  have hzero := length_sides points
  rw [hnil, List.length_nil] at hzero
  omega

/-- What becomes of the outline that an earlier compile drew. -/
lemma reconcile_generated {shapes : List BoardShape} {drawn : List Vec2} (hlen : 3 ≤ drawn.length)
    (hdrawn : generatedSegments shapes = sides drawn) (points : List Vec2) :
    (SameSides (sides drawn) points → reconcile shapes points = .kept) ∧
      (¬ SameSides (sides drawn) points → drawn.Nodup → reconcile shapes points = .replaced) ∧
      (¬ SameSides (sides drawn) points → ¬ drawn.Nodup →
        reconcile shapes points = .refused partlyOwned) := by
  have hsome : generatedBoundary shapes ≠ [] :=
    generatedBoundary_ne_nil (by rw [hdrawn]; exact sides_ne_nil hlen)
  have hmatches : outlineMatches (generatedBoundary shapes) points = true ↔
      SameSides (sides drawn) points := hdrawn ▸ outlineMatches_generated
  have hclosed : isSingleClosedContour (generatedBoundary shapes) = true ↔ drawn.Nodup :=
    isSingleClosedContour_iff hlen hdrawn
  refine ⟨fun h => ?_, fun h hnodup => ?_, fun h hnodup => ?_⟩
  · simp [reconcile, if_pos hsome, if_pos (hmatches.mpr h)]
  · simp [reconcile, if_pos hsome, if_neg (mt hmatches.mp h), if_pos (hclosed.mpr hnodup)]
  · simp [reconcile, if_pos hsome, if_neg (mt hmatches.mp h), if_neg (mt hclosed.mp hnodup)]

/-- No outline was refused. -/
def Accepted (o : OutlineOutcome) : Prop := ∀ d ∈ o.diagnostics, d.code ≠ "outline_conflict"

lemma accepted_of_blank (h : ∀ d ∈ o.diagnostics, d.code = "blank_not_drawn") : Accepted o := by
  intro d hd
  rw [h d hd]
  decide

/-! ### Two builds -/

/-- A board on which nothing is drawn. -/
def blankSession : Session := ⟨⟨[], [], 0, List.nodup_nil, fun _ h => absurd h List.not_mem_nil⟩, []⟩

/-- Exact arithmetic in place of the runtime's. -/
def roundMm (v : ℚ) : ℤ := (v * 1000000 + 1 / 2).floor

/-- Every request is answered. -/
def answered : Fails := fun _ _ => none

def rectangle (w h : ℚ) : BoardSpec where
  widthMm := some w
  heightMm := some h

def corners (w h : ℤ) : List Vec2 := [⟨0, 0⟩, ⟨w, 0⟩, ⟨w, h⟩, ⟨0, h⟩]

/-- A square that comes back to its first point. -/
def closedRing : BoardSpec where
  outline := some [(0, 0), (10, 0), (10, 10), (0, 10), (0, 0)]

/-- Two builds, one after the other. -/
def builds (spec spec' : BoardSpec) : Job (OutlineOutcome × OutlineOutcome) := do
  let o ← ensureOutline roundMm answered (some spec) "first"
  let o' ← ensureOutline roundMm answered (some spec') "second"
  return (o, o')

lemma builds_some {α : Type} {spec spec' : BoardSpec} {s : Session}
    {f : (OutlineOutcome × OutlineOutcome) × Session → α} {a : α}
    (h : (builds spec spec' s).toOption.map f = some a) : ∃ o t o' u,
      ensureOutline roundMm answered (some spec) "first" s = .ok (o, t) ∧
      ensureOutline roundMm answered (some spec') "second" t = .ok (o', u) ∧
      f ((o, o'), u) = a := pair_some h

/-- **A rebuild follows the specification** just when the sides are the same or the outline that the
first build drew meets no point twice. -/
theorem rebuild_iff {spec' : Option BoardSpec} {message' : String} {points' : List Vec2}
    {u : Session} {o' : OutlineOutcome} (hpoints : outlinePoints nm spec = some points)
    (hpoints' : outlinePoints nm spec' = some points') (hlen : 3 ≤ points.length)
    (hlen' : 3 ≤ points'.length) (hnone : edgesOf s.board.shapes = [])
    (h : ensureOutline nm fails spec message s = .ok (o, t))
    (h' : ensureOutline nm fails spec' message' t = .ok (o', u)) :
    (SameSides (generatedSegments u.board.shapes) points' ∧ Accepted o ∧ Accepted o') ↔
      SameSides (sides points) points' ∨ points.Nodup := by
  obtain ⟨hboard, rfl⟩ := ensureOutline_draws hpoints hlen hnone h
  have hdrawn : generatedSegments t.board.shapes = sides points := by
    rw [hboard]
    exact generatedSegments_created hnone _
  have hsome : edgesOf t.board.shapes ≠ [] :=
    edgesOf_ne_nil (by rw [hdrawn]; exact sides_ne_nil hlen)
  obtain ⟨hkept, hreplaced, hrefused⟩ := reconcile_generated hlen hdrawn points'
  have hsecond := ensureOutline_reconciles hpoints' hlen' hsome h'
  by_cases hsame : SameSides (sides points) points'
  · rw [hkept hsame] at hsecond
    obtain ⟨hboard', _, hblank, _⟩ := hsecond
    refine ⟨fun _ => Or.inl hsame, fun _ => ⟨?_, fun d hd => ?_, accepted_of_blank hblank⟩⟩
    · rw [hboard', hdrawn]
      exact hsame
    · cases hd
  · by_cases hnodup : points.Nodup
    · rw [hreplaced hsame hnodup] at hsecond
      obtain ⟨hboard', _, hblank, _⟩ := hsecond
      refine ⟨fun _ => Or.inr hnodup, fun _ => ⟨?_, fun d hd => ?_, accepted_of_blank hblank⟩⟩
      · rw [hboard', generatedSegments_redrawn]
        exact List.Perm.refl _
      · cases hd
    · rw [hrefused hsame hnodup] at hsecond
      obtain ⟨_, rfl⟩ := hsecond
      refine ⟨fun hall => ?_, fun hor => absurd hor (not_or.mpr ⟨hsame, hnodup⟩)⟩
      exact absurd rfl (hall.2.2 partlyOwned List.mem_cons_self)

/-- A rectangle is made smaller. -/
theorem rebuild_resized : ∃ o t o' u,
    ensureOutline roundMm answered (some (rectangle 20 10)) "first" blankSession = .ok (o, t) ∧
    ensureOutline roundMm answered (some (rectangle 18 17)) "second" t = .ok (o', u) ∧
    ((SameSides (generatedSegments u.board.shapes) (corners 18000000 17000000) ∧ Accepted o ∧
      Accepted o') ↔ SameSides (sides (corners 20000000 10000000)) (corners 18000000 17000000) ∨
        (corners 20000000 10000000).Nodup) := by
  have hfirst : outlinePoints roundMm (some (rectangle 20 10)) =
      some (corners 20000000 10000000) := by decide +kernel
  have hsecond : outlinePoints roundMm (some (rectangle 18 17)) =
      some (corners 18000000 17000000) := by decide +kernel
  have hruns : (builds (rectangle 20 10) (rectangle 18 17) blankSession).toOption.map
      (fun r => r.1.2.diagnostics.length) = some 0 := by decide +kernel
  obtain ⟨o, t, o', u, h, h', _⟩ := builds_some hruns
  exact ⟨o, t, o', u, h, h', rebuild_iff hfirst hsecond (by decide) (by decide) rfl h h'⟩

/-- The ring is refused when it is to become a rectangle. -/
theorem not_rebuilt :
    ¬ ∀ (nm : ℚ → ℤ) (fails : Fails) (spec spec' : BoardSpec) (points points' : List Vec2)
      (s t u : Session) (o o' : OutlineOutcome),
      outlinePoints nm (some spec) = some points → outlinePoints nm (some spec') = some points' →
      3 ≤ points.length → 3 ≤ points'.length → edgesOf s.board.shapes = [] →
      ensureOutline nm fails (some spec) "first" s = .ok (o, t) →
      ensureOutline nm fails (some spec') "second" t = .ok (o', u) →
      SameSides (generatedSegments u.board.shapes) points' ∧ Accepted o ∧ Accepted o' := by
  intro h
  have hruns : (builds closedRing (rectangle 20 10) blankSession).toOption.map
      (fun r => r.1.2.diagnostics.map (·.code)) = some ["outline_conflict"] := by decide +kernel
  obtain ⟨o, t, o', u, hfirst, hsecond, hcodes⟩ := builds_some hruns
  have hring : outlinePoints roundMm (some closedRing) = some [⟨0, 0⟩, ⟨10000000, 0⟩,
      ⟨10000000, 10000000⟩, ⟨0, 10000000⟩, ⟨0, 0⟩] := by decide +kernel
  have hcorners : outlinePoints roundMm (some (rectangle 20 10)) =
      some (corners 20000000 10000000) := by decide +kernel
  have hall := h roundMm answered closedRing (rectangle 20 10) _ _ blankSession t u o o' hring
    hcorners (by decide) (by decide) rfl hfirst hsecond
  obtain ⟨d, hd, hcode⟩ := List.mem_map.mp (hcodes ▸ List.mem_cons_self)
  exact hall.2.2 d hd hcode

end FabPcb.OutlineRebuild
