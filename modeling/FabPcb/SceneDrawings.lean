import FabPcb.RenderScene

/-!
What is drawn is relative to the anchor, and what is put into the object of an item.

An item that is shifted with its anchor has the same instructions and the same meshes. A drawing
that is not used has no instructions, and a context holds no meshes, no images and nothing that a
builder adds.
-/

namespace FabPcb.SceneDrawings

open RenderShapes RenderScene
open SpecctraData (Vec2)

/-! ### What is drawn is relative -/

section Relative

variable {δ : Type} {opts : SceneOptions δ} {anchor v : Vec2} {d : Drawing δ} {pts : List Vec2}

lemma flat_shift : flat (shift v anchor) (pts.map (shift v)) = flat anchor pts := by
  rw [flat, List.map_map]
  refine List.map_congr_left fun p _ => ?_
  rw [Function.comp_apply, shift_sub_x, shift_sub_y]

lemma addFill_shift : addFill (shift v anchor) d (pts.map (shift v)) = addFill anchor d pts := by
  rw [addFill, addFill, List.length_map, flat_shift]

lemma hairline_shift (closed : Bool) :
    hairline (shift v anchor) d (pts.map (shift v)) closed = hairline anchor d pts closed := by
  rw [hairline, hairline, List.length_map, flat_shift]

lemma sides_shift (closed : Bool) : sides (pts.map (shift v)) closed =
    (sides pts closed).map fun s => (shift v s.1, shift v s.2) := by
  have hnext : (pts.map (shift v)).tail ++
      (if closed then (pts.map (shift v)).head?.toList else []) =
      (pts.tail ++ if closed then pts.head?.toList else []).map (shift v) := by
    rw [List.map_append, List.map_tail]
    cases closed with
    | false => rfl
    | true => cases pts <;> rfl
  rw [sides, hnext, List.zip_map]
  rfl

lemma wideOutline_shift (width : ℚ) (closed : Bool) :
    wideOutline opts (shift v anchor) d (pts.map (shift v)) width closed =
      wideOutline opts anchor d pts width closed := by
  rw [wideOutline, sides_shift, List.foldl_map, wideOutline]
  simp [stadiumPolygon_shift, addFill_shift]

lemma drawPath_shift (width : ℚ) :
    drawPath opts (shift v anchor) d (pts.map (shift v)) width =
      drawPath opts anchor d pts width := by
  rw [drawPath, offsetPathPolygon_shift, addFill_shift, hairline_shift, drawPath]

lemma holeStarts_shift (holes : List (List Vec2)) (n : ℕ) :
    holeStarts n (holes.map (List.map (shift v))) = holeStarts n holes := by
  induction holes generalizing n with
  | nil => rfl
  | cons h hs ih => rw [List.map_cons, holeStarts, ih, List.length_map, holeStarts]

lemma filter_shift (holes : List (List Vec2)) :
    (holes.map (List.map (shift v))).filter (fun h => 3 ≤ h.length) =
      (holes.filter fun h => 3 ≤ h.length).map (List.map (shift v)) := by
  rw [List.filter_map]
  simp [Function.comp_def, List.length_map]

lemma buildMesh_shift (holes : List (List Vec2)) :
    buildMesh opts (shift v anchor) (pts.map (shift v)) (holes.map (List.map (shift v))) =
      buildMesh opts anchor pts holes := by
  have hcoords : ∀ rings : List (List Vec2), flat (shift v anchor)
      (pts.map (shift v) ++ (rings.map (List.map (shift v))).flatten) =
      flat anchor (pts ++ rings.flatten) := by
    intro rings
    rw [← List.map_flatten, ← List.map_append, flat_shift]
  simp [buildMesh, filter_shift, hcoords, holeStarts_shift, List.length_map]

lemma isBig_shift (holes : List (List Vec2)) (mesh : Bool) :
    isBig opts (pts.map (shift v)) (holes.map (List.map (shift v))) mesh =
      isBig opts pts holes mesh := by
  simp [isBig, List.map_map, Function.comp_def, List.length_map]

lemma drawFill_shift (holes : List (List Vec2)) (mesh : Bool) :
    drawFill opts (shift v anchor) d (pts.map (shift v)) (holes.map (List.map (shift v))) mesh =
      drawFill opts anchor d pts holes mesh := by
  simp [drawFill, isBig_shift, buildMesh_shift, filter_shift, flat_shift, List.flatMap_map]

lemma drawOutline_shift (holes : List (List Vec2)) (width : ℚ) :
    drawOutline opts (shift v anchor) d (pts.map (shift v)) (holes.map (List.map (shift v))) width =
      drawOutline opts anchor d pts holes width := by
  simp [drawOutline, wideOutline_shift, hairline_shift, List.foldl_map, List.length_map]

lemma drawCircle_shift (c : Vec2) (r width : ℚ) (fill : Bool) :
    drawCircle opts (shift v anchor) d (shift v c) r width fill =
      drawCircle opts anchor d c r width fill := by
  simp [drawCircle, circleToPolygon_shift, addFill_shift, hairline_shift, flat_shift]

lemma drawImage_shift (c : Vec2) (w h : ℚ) (dataUrl : String) :
    drawImage opts (shift v anchor) d (shift v c) w h dataUrl =
      drawImage opts anchor d c w h dataUrl := by
  have hcorners : [(⟨(shift v c).x - w / 2, (shift v c).y - h / 2⟩ : Vec2),
      ⟨(shift v c).x + w / 2, (shift v c).y - h / 2⟩,
      ⟨(shift v c).x + w / 2, (shift v c).y + h / 2⟩,
      ⟨(shift v c).x - w / 2, (shift v c).y + h / 2⟩] =
      [(⟨c.x - w / 2, c.y - h / 2⟩ : Vec2), ⟨c.x + w / 2, c.y - h / 2⟩,
        ⟨c.x + w / 2, c.y + h / 2⟩, ⟨c.x - w / 2, c.y + h / 2⟩].map (shift v) := by
    simp only [shift, List.map_cons, List.map_nil, List.cons.injEq, Vec2.mk.injEq, and_true]
    refine ⟨⟨?_, ?_⟩, ⟨?_, ?_⟩, ⟨?_, ?_⟩, ?_, ?_⟩ <;> ring
  rw [drawImage, hcorners, hairline_shift, shift_sub_x, shift_sub_y, drawImage]

lemma drawShapes_shift (polys : List (List Vec2)) :
    drawPrimitive opts (shift v anchor) d (.textShapes (polys.map (List.map (shift v)))) =
      drawPrimitive opts anchor d (.textShapes polys) := by
  simp [drawPrimitive, List.foldl_map, List.length_map, addFill_shift, hairline_shift]

lemma drawPolygon_shift (holes : List (List Vec2)) (fill : Bool) (width : ℚ) (mesh : Bool) :
    drawPrimitive opts (shift v anchor) d
        (.polygon (pts.map (shift v)) (holes.map (List.map (shift v))) fill width mesh) =
      drawPrimitive opts anchor d (.polygon pts holes fill width mesh) := by
  simp [drawPrimitive, List.length_map, drawFill_shift, drawOutline_shift]

lemma drawPrimitive_shift (p : Primitive) :
    drawPrimitive opts (shift v anchor) d (p.shift v) = drawPrimitive opts anchor d p := by
  cases p with
  | segment a b width =>
    have hends : [shift v a, shift v b] = [a, b].map (shift v) := rfl
    simp only [Primitive.shift, drawPrimitive, stadiumPolygon_shift, addFill_shift, hends,
      hairline_shift]
  | arc start mid stop width =>
    rw [Primitive.shift, drawPrimitive, arcToPolylineFixed_shift, drawPath_shift, drawPrimitive]
  | circle c r width fill => exact drawCircle_shift c r width fill
  | polygon outline holes fill width mesh => exact drawPolygon_shift holes fill width mesh
  | bezier p0 p1 p2 p3 width =>
    rw [Primitive.shift, drawPrimitive, bezierToPolyline_shift, drawPath_shift, drawPrimitive]
  | textShapes polys => exact drawShapes_shift polys
  | image c w h dataUrl => exact drawImage_shift c w h dataUrl
  | textGlyphs g => rfl

lemma claimed_shift (p : Primitive) :
    claimed opts (shift v anchor) (p.shift v) = claimed opts anchor p := by
  rw [claimed, claimed]
  cases opts.primitiveBuilder with
  | none => rfl
  | some b => rw [Option.map_some, Option.map_some, b.relative]

/-- **What is shifted with its anchor** is drawn as it was. -/
lemma buildGraphics_shift (prims : List Primitive) :
    buildGraphics opts (shift v anchor) (prims.map (Primitive.shift v)) =
      buildGraphics opts anchor prims := by
  rw [buildGraphics, List.foldl_map]
  congr 1
  refine congrArg (fun f => List.foldl f ({} : Drawing δ) prims) (funext₂ fun d p => ?_)
  rw [drawOne, claimed_shift, drawPrimitive_shift, drawOne]

end Relative

/-- The primitives about the anchor. -/
def relative (item : RenderItem) : List Primitive :=
  item.prims.map (Primitive.shift ⟨-(anchorOf item).x, -(anchorOf item).y⟩)

variable {δ : Type} {opts : SceneOptions δ}

lemma buildGraphics_relative (item : RenderItem) :
    buildGraphics opts (anchorOf item) item.prims = buildGraphics opts ⟨0, 0⟩ (relative item) := by
  have hzero : shift ⟨-(anchorOf item).x, -(anchorOf item).y⟩ (anchorOf item) = ⟨0, 0⟩ := by
    rw [shift, add_neg_cancel, add_neg_cancel]
  rw [relative, ← hzero, buildGraphics_shift]

/-- What an item would be drawn as on its own. -/
def drawn (opts : SceneOptions δ) (item : RenderItem) : Drawing δ :=
  buildGraphics opts (anchorOf item) item.prims

/-! ### Drawings without instructions -/

/-- A drawing with instructions is used, or has fills that are pending. -/
def Ready (d : Drawing δ) : Prop := d.instructions = [] ∨ d.used = true ∨ d.pendingFill ≠ 0

section Ready

variable {d : Drawing δ} {anchor : Vec2}

lemma ready_addFill (h : Ready d) (poly : List Vec2) : Ready (addFill anchor d poly) := by
  rw [addFill]
  split_ifs
  · exact h
  · exact Or.inr (Or.inr (Nat.succ_ne_zero _))

lemma ready_emit (instructions : List Instruction) : Ready (emit d instructions) :=
  Or.inr (Or.inl rfl)

lemma ready_hairline (h : Ready d) (pts : List Vec2) (closed : Bool) :
    Ready (hairline anchor d pts closed) := by
  rw [hairline]
  split_ifs
  · exact h
  · exact ready_emit _

lemma ready_foldl {α : Type} {f : Drawing δ → α → Drawing δ} (hf : ∀ d a, Ready d → Ready (f d a))
    (h : Ready d) (l : List α) : Ready (l.foldl f d) := by
  induction l generalizing d with
  | nil => exact h
  | cons a l ih => exact ih (hf d a h)

lemma ready_wideOutline (h : Ready d) (pts : List Vec2) (width : ℚ) (closed : Bool) :
    Ready (wideOutline opts anchor d pts width closed) :=
  ready_foldl (fun _ _ hd => ready_addFill hd _) h _

lemma ready_drawPath (h : Ready d) (pts : List Vec2) (width : ℚ) :
    Ready (drawPath opts anchor d pts width) := by
  rw [drawPath]
  split_ifs
  · exact ready_addFill h _
  · exact ready_hairline h _ _

lemma ready_drawFill (h : Ready d) (outline : List Vec2) (holes : List (List Vec2)) (mesh : Bool) :
    Ready (drawFill opts anchor d outline holes mesh) := by
  rw [drawFill]
  split_ifs
  · exact h
  · exact ready_emit _

lemma ready_drawOutline (h : Ready d) (outline : List Vec2) (holes : List (List Vec2))
    (width : ℚ) : Ready (drawOutline opts anchor d outline holes width) := by
  rw [drawOutline]
  split_ifs
  · exact ready_foldl (fun _ _ hd => ready_wideOutline hd _ _ _) (ready_wideOutline h _ _ _) _
  · exact ready_foldl (fun _ _ hd => ready_hairline hd _ _) (ready_hairline h _ _) _

lemma ready_drawCircle (h : Ready d) (c : Vec2) (r width : ℚ) (fill : Bool) :
    Ready (drawCircle opts anchor d c r width fill) := by
  simp only [drawCircle]
  split_ifs
  · exact ready_addFill (ready_addFill h _) _
  · exact ready_addFill h _
  · exact ready_emit _
  · exact ready_emit _
  · exact ready_hairline h _ _

lemma ready_drawPrimitive (h : Ready d) (p : Primitive) :
    Ready (drawPrimitive opts anchor d p) := by
  cases p with
  | segment a b width =>
    rw [drawPrimitive]
    split_ifs
    · exact ready_addFill h _
    · exact ready_hairline h _ _
  | arc start mid stop width => exact ready_drawPath h _ _
  | circle c r width fill => exact ready_drawCircle h c r width fill
  | polygon outline holes fill width mesh =>
    simp only [drawPrimitive]
    split_ifs
    · exact h
    · exact ready_drawOutline (ready_drawFill h _ _ _) _ _ _
    · exact ready_drawOutline h _ _ _
    · exact ready_drawFill h _ _ _
    · exact h
  | bezier p0 p1 p2 p3 width => exact ready_drawPath h _ _
  | textShapes polys =>
    refine ready_foldl (fun d poly hd => ?_) h polys
    split_ifs
    · exact ready_addFill hd _
    · exact ready_hairline hd _ _
    · exact hd
  | image c w h' dataUrl =>
    rw [drawPrimitive, drawImage]
    split_ifs
    · exact h
    · exact ready_hairline h _ _
  | textGlyphs g => exact h

lemma instructions_of_unused {prims : List Primitive}
    (h : (buildGraphics opts anchor prims).used = false) :
    (buildGraphics opts anchor prims).instructions = [] := by
  have hready : Ready (prims.foldl (drawOne opts anchor) {}) := by
    refine ready_foldl (fun d p hd => ?_) (Or.inl rfl) prims
    have hadded : Ready { d with children := d.children ++
        (claimed opts anchor p).2.map HostChild.built } := hd
    rw [drawOne]
    split_ifs
    · exact hadded
    · exact ready_drawPrimitive hadded p
  rw [buildGraphics] at h ⊢
  generalize prims.foldl (drawOne opts anchor) {} = d at h hready ⊢
  by_cases hzero : d.pendingFill = 0
  · rw [flushFill, if_pos hzero] at h ⊢
    obtain hnil | hused | hpending := hready
    · exact hnil
    · rw [hused] at h
      cases h
    · exact absurd hzero hpending
  · rw [flushFill, if_neg hzero] at h
    cases h

end Ready
/-! ### What a context cannot hold -/

/-- What of a primitive goes into the object, if no builder claims it. -/
def placedOf (opts : SceneOptions δ) (anchor : Vec2) : Primitive → List (HostChild δ)
  | .polygon outline holes fill _ mesh =>
    if fill && decide (3 ≤ outline.length) && isBig opts outline holes mesh then
      (buildMesh opts anchor outline holes).toList
    else []
  | .image c w h dataUrl =>
    if opts.hasDocument then [.sprite ⟨c.x - anchor.x, c.y - anchor.y⟩ w h dataUrl] else []
  | _ => []

def placed (opts : SceneOptions δ) (anchor : Vec2) (p : Primitive) : List (HostChild δ) :=
  (claimed opts anchor p).2.map .built ++
    if (claimed opts anchor p).1 then [] else placedOf opts anchor p

/-- Nothing of an item goes into its object. -/
def PlacesNothing (opts : SceneOptions δ) (item : RenderItem) : Prop :=
  ∀ p ∈ item.prims, placed opts (anchorOf item) p = []

instance (item : RenderItem) : Decidable (PlacesNothing opts item) :=
  inferInstanceAs (Decidable (∀ p ∈ item.prims, placed opts (anchorOf item) p = []))

section Children

variable {d : Drawing δ} {anchor : Vec2}

lemma children_addFill (poly : List Vec2) : (addFill anchor d poly).children = d.children := by
  rw [addFill]
  split_ifs <;> rfl

lemma children_flushFill : (flushFill d).children = d.children := by
  rw [flushFill]
  split_ifs <;> rfl

lemma children_emit (instructions : List Instruction) :
    (emit d instructions).children = d.children := children_flushFill

lemma children_hairline (pts : List Vec2) (closed : Bool) :
    (hairline anchor d pts closed).children = d.children := by
  rw [hairline]
  split_ifs
  · rfl
  · exact children_emit _

lemma children_foldl {α : Type} {f : Drawing δ → α → Drawing δ}
    (hf : ∀ d a, (f d a).children = d.children) (l : List α) :
    (l.foldl f d).children = d.children := by
  induction l generalizing d with
  | nil => rfl
  | cons a l ih => rw [List.foldl_cons, ih, hf]

lemma children_wideOutline (pts : List Vec2) (width : ℚ) (closed : Bool) :
    (wideOutline opts anchor d pts width closed).children = d.children :=
  children_foldl (fun _ _ => children_addFill _) _

lemma children_drawPath (pts : List Vec2) (width : ℚ) :
    (drawPath opts anchor d pts width).children = d.children := by
  rw [drawPath]
  split_ifs
  · exact children_addFill _
  · exact children_hairline _ _

lemma children_drawFill (outline : List Vec2) (holes : List (List Vec2)) (mesh : Bool) :
    (drawFill opts anchor d outline holes mesh).children = d.children ++
      if isBig opts outline holes mesh then (buildMesh opts anchor outline holes).toList
      else [] := by
  rw [drawFill]
  split_ifs
  · rfl
  · rw [List.append_nil]
    exact children_emit _

lemma children_drawOutline (outline : List Vec2) (holes : List (List Vec2)) (width : ℚ) :
    (drawOutline opts anchor d outline holes width).children = d.children := by
  rw [drawOutline]
  split_ifs
  · rw [children_foldl fun _ _ => children_wideOutline _ _ _, children_wideOutline]
  · rw [children_foldl fun _ _ => children_hairline _ _, children_hairline]

lemma children_drawCircle (c : Vec2) (r width : ℚ) (fill : Bool) :
    (drawCircle opts anchor d c r width fill).children = d.children := by
  simp only [drawCircle]
  split_ifs
  · rw [children_addFill, children_addFill]
  · exact children_addFill _
  · exact children_emit _
  · exact children_emit _
  · exact children_hairline _ _

lemma children_drawPolygon (outline : List Vec2) (holes : List (List Vec2)) (fill : Bool)
    (width : ℚ) (mesh : Bool) :
    (drawPrimitive opts anchor d (.polygon outline holes fill width mesh)).children =
      d.children ++
        if fill && decide (3 ≤ outline.length) && isBig opts outline holes mesh then
          (buildMesh opts anchor outline holes).toList
        else [] := by
  by_cases hshort : outline.length < 2
  · have hthree : ¬ 3 ≤ outline.length := by omega
    simp [drawPrimitive, hshort, hthree]
  · have hfilled : (if fill && decide (3 ≤ outline.length) then
        drawFill opts anchor d outline holes mesh else d).children = d.children ++
        if fill && decide (3 ≤ outline.length) && isBig opts outline holes mesh then
          (buildMesh opts anchor outline holes).toList
        else [] := by
      by_cases hfill : (fill && decide (3 ≤ outline.length)) = true
      · rw [if_pos hfill, children_drawFill, hfill, Bool.true_and]
      · rw [if_neg hfill, Bool.not_eq_true] at *
        rw [hfill, Bool.false_and, if_neg Bool.false_ne_true, List.append_nil]
    simp only [drawPrimitive, if_neg hshort]
    rw [← hfilled]
    split_ifs
    all_goals first | exact children_drawOutline _ _ _ | rfl

lemma children_drawPrimitive (p : Primitive) :
    (drawPrimitive opts anchor d p).children = d.children ++ placedOf opts anchor p := by
  cases p with
  | segment a b width =>
    refine Eq.trans ?_ (List.append_nil _).symm
    rw [drawPrimitive]
    split_ifs
    · exact children_addFill _
    · exact children_hairline _ _
  | arc start mid stop width => exact (children_drawPath _ _).trans (List.append_nil _).symm
  | circle c r width fill => exact (children_drawCircle _ _ _ _).trans (List.append_nil _).symm
  | polygon outline holes fill width mesh =>
    exact children_drawPolygon outline holes fill width mesh
  | bezier p0 p1 p2 p3 width => exact (children_drawPath _ _).trans (List.append_nil _).symm
  | textShapes polys =>
    refine (children_foldl (fun d poly => ?_) polys).trans (List.append_nil _).symm
    split_ifs
    · exact children_addFill _
    · exact children_hairline _ _
    · rfl
  | image c w h dataUrl =>
    rw [drawPrimitive, drawImage, placedOf]
    split_ifs
    · rfl
    · exact (children_hairline _ _).trans (List.append_nil _).symm
  | textGlyphs g => exact (List.append_nil _).symm

lemma children_drawOne (p : Primitive) :
    (drawOne opts anchor d p).children = d.children ++ placed opts anchor p := by
  rw [drawOne, placed]
  split_ifs
  · rw [List.append_nil]
  · rw [children_drawPrimitive, List.append_assoc]

lemma children_drawn (item : RenderItem) :
    (drawn opts item).children = item.prims.flatMap (placed opts (anchorOf item)) := by
  have hfold : ∀ (prims : List Primitive) (d : Drawing δ),
      (prims.foldl (drawOne opts (anchorOf item)) d).children =
        d.children ++ prims.flatMap (placed opts (anchorOf item)) := by
    intro prims
    induction prims with
    | nil => exact fun d => (List.append_nil _).symm
    | cons p prims ih =>
      intro d
      rw [List.foldl_cons, ih, children_drawOne, List.flatMap_cons, List.append_assoc]
  rw [drawn, buildGraphics, children_flushFill, hfold]
  rfl

lemma children_nil_iff (item : RenderItem) :
    (drawn opts item).children = [] ↔ PlacesNothing opts item := by
  rw [children_drawn, List.flatMap_eq_nil_iff, PlacesNothing]

end Children

end FabPcb.SceneDrawings
