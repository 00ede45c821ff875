import FabPcb.BoxUnions
import Mathlib.Algebra.Order.Field.Basic
import Mathlib.Algebra.Order.Round
import Mathlib.Data.List.DropRight
import Mathlib.Data.Rat.Floor
import Mathlib.Tactic.FieldSimp
import Mathlib.Tactic.Linarith
import Mathlib.Tactic.LinearCombination

/-!
The camera of the canvas, and the moving origin that objects are drawn about.

Objects are placed about an origin near the camera, so that their coordinates are small; the root
of the scene is placed so that this does not show. Coordinates are exact.
-/

namespace FabPcb.CameraFrames

open BoxUnions (Vec2 Box boxContains)

/-! ### The camera -/

/-- One pixel is a metre. -/
def minZoom : ℚ := 1 / 10 ^ 9

/-- One pixel is ten nanometres. -/
def maxZoom : ℚ := 1 / 10

def rebaseThresholdPx : ℚ := 50000

structure Camera where
  x : ℚ := 0
  y : ℚ := 0
  /-- Pixels per nanometre. -/
  zoom : ℚ := 1 / 10 ^ 5
  width : ℚ := 1
  height : ℚ := 1
  flipX : Bool := false
  originX : ℚ := 0
  originY : ℚ := 0
  /-- How often the listeners were called. -/
  revision : ℕ := 0
  deriving DecidableEq

structure RootTransform where
  x : ℚ
  y : ℚ
  scaleX : ℚ
  scaleY : ℚ

namespace Camera

variable (c : Camera)

def changed : Camera := { c with revision := c.revision + 1 }

def clampZoom (z : ℚ) : ℚ := if 0 < z then min maxZoom (max minZoom z) else c.zoom

def sx : ℚ := if c.flipX then -1 else 1

def worldToScreen (p : Vec2 ℚ) : Vec2 ℚ :=
  ⟨c.width / 2 + c.sx * (p.x - c.x) * c.zoom, c.height / 2 + (p.y - c.y) * c.zoom⟩

def screenToWorld (s : Vec2 ℚ) : Vec2 ℚ :=
  ⟨c.x + c.sx * (s.x - c.width / 2) / c.zoom, c.y + (s.y - c.height / 2) / c.zoom⟩

def visibleBox : Box ℚ :=
  let a := c.screenToWorld ⟨0, 0⟩
  let b := c.screenToWorld ⟨c.width, c.height⟩
  ⟨min a.x b.x, min a.y b.y, |b.x - a.x|, |b.y - a.y|⟩

def rootTransform : RootTransform :=
  let o := c.worldToScreen ⟨c.originX, c.originY⟩
  ⟨o.x, o.y, c.sx * c.zoom, c.zoom⟩

/-- The distance is compared by its square. -/
def maybeRebase : Bool × Camera :=
  let dx := (c.x - c.originX) * c.zoom
  let dy := (c.y - c.originY) * c.zoom
  if dx * dx + dy * dy ≤ rebaseThresholdPx * rebaseThresholdPx then (false, c)
  else (true, { c with originX := round c.x, originY := round c.y })

def setState (x y zoom : Option ℚ) : Camera :=
  { c with
    x := x.getD c.x
    y := y.getD c.y
    zoom := (zoom.map c.clampZoom).getD c.zoom }.changed

def setViewport (width height : ℚ) : Camera :=
  { c with width := max 1 width, height := max 1 height }.changed

def setFlip (flip : Bool) : Camera :=
  if c.flipX ≠ flip then { c with flipX := flip }.changed else c

def panByPixels (dxPx dyPx : ℚ) : Camera :=
  { c with x := c.x - c.sx * dxPx / c.zoom, y := c.y - dyPx / c.zoom }.changed

def zoomAt (s : Vec2 ℚ) (factor : ℚ) : Camera :=
  let before := c.screenToWorld s
  let zoomed := { c with zoom := c.clampZoom (c.zoom * factor) }
  let after := zoomed.screenToWorld s
  { zoomed with x := c.x + (before.x - after.x), y := c.y + (before.y - after.y) }.changed

/-- `boxIsEmpty` of the renderer: not a point. -/
def zoomToBox (box : Box ℚ) (paddingPx : ℚ) : Camera :=
  if ¬(0 ≤ box.w ∧ 0 ≤ box.h) ∨ box.w ≤ 0 ∧ box.h ≤ 0 then c
  else
    let availW := max 1 (c.width - 2 * paddingPx)
    let availH := max 1 (c.height - 2 * paddingPx)
    { c with
      zoom := c.clampZoom (min (availW / max box.w 1) (availH / max box.h 1))
      x := box.x + box.w / 2
      y := box.y + box.h / 2 }.changed

def centerOn (p : Vec2 ℚ) : Camera := { c with x := p.x, y := p.y }.changed

end Camera

inductive Move where
  | setState (x y zoom : Option ℚ)
  | setViewport (width height : ℚ)
  | setFlip (flip : Bool)
  | panByPixels (dxPx dyPx : ℚ)
  | zoomAt (s : Vec2 ℚ) (factor : ℚ)
  | zoomToBox (box : Box ℚ) (paddingPx : ℚ)
  | centerOn (p : Vec2 ℚ)

def Camera.move (c : Camera) : Move → Camera
  | .setState x y zoom => c.setState x y zoom
  | .setViewport width height => c.setViewport width height
  | .setFlip flip => c.setFlip flip
  | .panByPixels dxPx dyPx => c.panByPixels dxPx dyPx
  | .zoomAt s factor => c.zoomAt s factor
  | .zoomToBox box paddingPx => c.zoomToBox box paddingPx
  | .centerOn p => c.centerOn p

/-! ### The host -/

/-- An object of the scene, or a marker. -/
structure Object where
  anchor : Vec2 ℚ
  position : Vec2 ℚ

structure Host where
  camera : Camera := {}
  /-- Of the scene. -/
  origin : Vec2 ℚ := ⟨0, 0⟩
  objects : List Object := []
  root : RootTransform := ({} : Camera).rootTransform

namespace Host

variable (h : Host)

def place (anchor : Vec2 ℚ) : Object :=
  ⟨anchor, ⟨anchor.x - h.origin.x, anchor.y - h.origin.y⟩⟩

def setOrigin (origin : Vec2 ℚ) : Host :=
  if origin = h.origin then h
  else
    let h := { h with origin }
    { h with objects := h.objects.map fun o => h.place o.anchor }

def frame : Host :=
  let r := h.camera.maybeRebase
  let h := { h with camera := r.2 }
  let h := if r.1 then h.setOrigin ⟨r.2.originX, r.2.originY⟩ else h
  { h with root := h.camera.rootTransform }

/-- The pixel of a point of an object, given about its anchor. -/
def pixel (o : Object) (q : Vec2 ℚ) : Vec2 ℚ :=
  ⟨h.root.x + h.root.scaleX * (o.position.x + q.x),
    h.root.y + h.root.scaleY * (o.position.y + q.y)⟩

end Host

inductive Event where
  | move (m : Move)
  | build (anchor : Vec2 ℚ)
  | remove (keep : Object → Bool)
  | frame

def Host.step (h : Host) : Event → Host
  | .move m => { h with camera := h.camera.move m }
  | .build anchor => { h with objects := h.objects ++ [h.place anchor] }
  | .remove keep => { h with objects := h.objects.filter keep }
  | .frame => h.frame

/-- The host after some events. -/
def Host.after (events : List Event) : Host := events.foldl Host.step {}

/-! ### Moves of the camera -/

structure Camera.Sound (c : Camera) : Prop where
  zoom_ge : minZoom ≤ c.zoom
  zoom_le : c.zoom ≤ maxZoom
  width : 1 ≤ c.width
  height : 1 ≤ c.height

lemma minZoom_pos : 0 < minZoom := by norm_num [minZoom]

lemma minZoom_le_maxZoom : minZoom ≤ maxZoom := by norm_num [minZoom, maxZoom]

section Moves

variable {c : Camera}

lemma Camera.Sound.zoom_pos (h : c.Sound) : 0 < c.zoom := minZoom_pos.trans_le h.zoom_ge

lemma Camera.Sound.clamped (h : c.Sound) (z : ℚ) :
    minZoom ≤ c.clampZoom z ∧ c.clampZoom z ≤ maxZoom := by
  unfold Camera.clampZoom
  split_ifs
  · exact ⟨le_min minZoom_le_maxZoom (le_max_left _ _), min_le_left _ _⟩
  · exact ⟨h.zoom_ge, h.zoom_le⟩

lemma sx_mul_sx (c : Camera) : c.sx * c.sx = 1 := by
  unfold Camera.sx
  split_ifs <;> norm_num

lemma Camera.Sound.move (h : c.Sound) (m : Move) : (c.move m).Sound := by
  cases m with
  | setState x y zoom =>
    cases zoom with
    | none => exact ⟨h.zoom_ge, h.zoom_le, h.width, h.height⟩
    | some z => exact ⟨(h.clamped z).1, (h.clamped z).2, h.width, h.height⟩
  | setViewport => exact ⟨h.zoom_ge, h.zoom_le, le_max_left _ _, le_max_left _ _⟩
  | setFlip flip =>
    rw [Camera.move, Camera.setFlip]
    split_ifs
    · exact ⟨h.zoom_ge, h.zoom_le, h.width, h.height⟩
    · exact h
  | panByPixels => exact ⟨h.zoom_ge, h.zoom_le, h.width, h.height⟩
  | zoomAt s factor => exact ⟨(h.clamped _).1, (h.clamped _).2, h.width, h.height⟩
  | zoomToBox box paddingPx =>
    rw [Camera.move, Camera.zoomToBox]
    split_ifs
    · exact h
    · exact ⟨(h.clamped _).1, (h.clamped _).2, h.width, h.height⟩
  | centerOn => exact ⟨h.zoom_ge, h.zoom_le, h.width, h.height⟩

/-- A move that calls no listener leaves the camera as it is. -/
lemma move_eq_of_revision {m : Move} (h : (c.move m).revision = c.revision) : c.move m = c := by
  cases m with
  | setFlip flip =>
    rw [Camera.move, Camera.setFlip] at h ⊢
    split_ifs at h ⊢ with hflip
    · exact absurd h (Nat.succ_ne_self _)
    · rfl
  | zoomToBox box paddingPx =>
    rw [Camera.move, Camera.zoomToBox] at h ⊢
    split_ifs at h ⊢
    · rfl
    · exact absurd h (Nat.succ_ne_self _)
  | _ => exact absurd h (Nat.succ_ne_self _)

lemma Camera.Sound.screenToWorld_worldToScreen (h : c.Sound) (p : Vec2 ℚ) :
    c.screenToWorld (c.worldToScreen p) = p := by
  have hz := h.zoom_pos.ne'
  have hx : c.x + c.sx * (c.width / 2 + c.sx * (p.x - c.x) * c.zoom - c.width / 2) / c.zoom =
      p.x := by
    field_simp
    linear_combination 2 * (p.x - c.x) * c.zoom * sx_mul_sx c
  have hy : c.y + (c.height / 2 + (p.y - c.y) * c.zoom - c.height / 2) / c.zoom = p.y := by
    field_simp
    ring
  rw [Camera.screenToWorld, Camera.worldToScreen, hx, hy]

lemma Camera.Sound.worldToScreen_screenToWorld (h : c.Sound) (s : Vec2 ℚ) :
    c.worldToScreen (c.screenToWorld s) = s := by
  have hz := h.zoom_pos.ne'
  have hx : c.width / 2 + c.sx * (c.x + c.sx * (s.x - c.width / 2) / c.zoom - c.x) * c.zoom =
      s.x := by
    field_simp
    linear_combination (2 * s.x - c.width) * sx_mul_sx c
  have hy : c.height / 2 + (c.y + (s.y - c.height / 2) / c.zoom - c.y) * c.zoom = s.y := by
    field_simp
    ring
  rw [Camera.worldToScreen, Camera.screenToWorld, hx, hy]

lemma screenToWorld_zoomAt (s : Vec2 ℚ) (factor : ℚ) :
    (c.zoomAt s factor).screenToWorld s = c.screenToWorld s := by
  have hback (x a b : ℚ) : x + (x + a - (x + b)) + b = x + a := by ring
  exact congrArg₂ Vec2.mk (hback _ _ _) (hback _ _ _)

lemma Camera.Sound.worldToScreen_panByPixels (h : c.Sound) (dx dy : ℚ) (p : Vec2 ℚ) :
    (c.panByPixels dx dy).worldToScreen p =
      ⟨(c.worldToScreen p).x + dx, (c.worldToScreen p).y + dy⟩ := by
  have hz := h.zoom_pos.ne'
  have hx : c.width / 2 + c.sx * (p.x - (c.x - c.sx * dx / c.zoom)) * c.zoom =
      c.width / 2 + c.sx * (p.x - c.x) * c.zoom + dx := by
    field_simp
    linear_combination 2 * dx * sx_mul_sx c
  have hy : c.height / 2 + (p.y - (c.y - dy / c.zoom)) * c.zoom =
      c.height / 2 + (p.y - c.y) * c.zoom + dy := by
    field_simp
    ring
  exact congrArg₂ Vec2.mk hx hy

/-- A stretch of pixels about the middle, seen from the world, whichever way it is looked at. -/
lemma within_iff {z x p l σ : ℚ} (hz : 0 < z) (hσ : σ = 1 ∨ σ = -1) :
    x - l / 2 / z ≤ p ∧ p ≤ x - l / 2 / z + l / z ↔
      0 ≤ l / 2 + σ * (p - x) * z ∧ l / 2 + σ * (p - x) * z ≤ l := by
  have hleft : x - l / 2 / z ≤ p ↔ -(l / 2) ≤ (p - x) * z := by
    rw [sub_le_comm, le_div_iff₀ hz]
    constructor <;> intro h <;> linarith
  have hright : p ≤ x - l / 2 / z + l / z ↔ (p - x) * z ≤ l / 2 := by
    have hsum : x - l / 2 / z + l / z = x + l / 2 / z := by ring
    rw [hsum, ← sub_le_iff_le_add', le_div_iff₀ hz]
  rw [hleft, hright]
  rcases hσ with rfl | rfl <;> constructor <;> rintro ⟨h, h'⟩ <;> constructor <;> linarith

def Camera.OnScreen (c : Camera) (s : Vec2 ℚ) : Prop :=
  (0 ≤ s.x ∧ s.x ≤ c.width) ∧ 0 ≤ s.y ∧ s.y ≤ c.height

lemma sx_eq (c : Camera) : c.sx = 1 ∨ c.sx = -1 := by
  unfold Camera.sx
  split_ifs
  · exact .inr rfl
  · exact .inl rfl

/-- The ends of a stretch about the middle. -/
lemma ends_eq {x k σ : ℚ} (hk : 0 ≤ k) (hσ : σ = 1 ∨ σ = -1) :
    min (x + σ * -k) (x + σ * k) = x - k ∧ |x + σ * k - (x + σ * -k)| = 2 * k := by
  rcases hσ with rfl | rfl
  · rw [min_eq_left (by linarith), abs_of_nonneg (by linarith)]
    constructor <;> ring
  · rw [min_eq_right (by linarith), abs_of_nonpos (by linarith)]
    constructor <;> ring

lemma Camera.Sound.visibleBox_eq (h : c.Sound) : c.visibleBox =
    ⟨c.x - c.width / 2 / c.zoom, c.y - c.height / 2 / c.zoom, c.width / c.zoom,
      c.height / c.zoom⟩ := by
  have hw : 0 ≤ c.width / 2 / c.zoom :=
    div_nonneg (by linarith [h.width]) h.zoom_pos.le
  have hh : 0 ≤ c.height / 2 / c.zoom :=
    div_nonneg (by linarith [h.height]) h.zoom_pos.le
  have hfirst (σ l : ℚ) : σ * (0 - l / 2) / c.zoom = σ * -(l / 2 / c.zoom) := by ring
  have hlast (σ l : ℚ) : σ * (l - l / 2) / c.zoom = σ * (l / 2 / c.zoom) := by ring
  have hx := ends_eq (x := c.x) hw (sx_eq c)
  have hy := ends_eq (x := c.y) hh (.inl rfl)
  simp only [one_mul] at hy
  have htwo (l : ℚ) : 2 * (l / 2 / c.zoom) = l / c.zoom := by ring
  have hfirst' (l : ℚ) : (0 - l / 2) / c.zoom = -(l / 2 / c.zoom) := by ring
  have hlast' (l : ℚ) : (l - l / 2) / c.zoom = l / 2 / c.zoom := by ring
  simp only [Camera.visibleBox, Camera.screenToWorld, hfirst, hlast, hfirst', hlast', hx.1, hx.2,
    hy.1, hy.2, htwo]

lemma Camera.Sound.visible_iff (h : c.Sound) (p : Vec2 ℚ) :
    boxContains c.visibleBox p = true ↔ c.OnScreen (c.worldToScreen p) := by
  rw [BoxUnions.boxContains_iff, h.visibleBox_eq]
  have hx := within_iff (x := c.x) (p := p.x) (l := c.width) h.zoom_pos (sx_eq c)
  have hy := within_iff (x := c.y) (p := p.y) (l := c.height) h.zoom_pos (.inl rfl)
  rw [one_mul] at hy
  exact and_congr hx hy

/-- What holds of a camera that has only been moved. -/
structure Camera.Lawful (c : Camera) : Prop extends c.Sound where
  toWorld : ∀ p, c.screenToWorld (c.worldToScreen p) = p
  toScreen : ∀ s, c.worldToScreen (c.screenToWorld s) = s
  visible : ∀ p, boxContains c.visibleBox p = true ↔ c.OnScreen (c.worldToScreen p)
  /-- What is under the pointer stays there, also where the zoom is at its limit. -/
  zoomed : ∀ s factor, (c.zoomAt s factor).worldToScreen (c.screenToWorld s) = s
  panned : ∀ dx dy p, (c.panByPixels dx dy).worldToScreen p =
    ⟨(c.worldToScreen p).x + dx, (c.worldToScreen p).y + dy⟩
  told : ∀ m, (c.move m).revision = c.revision → c.move m = c

lemma Camera.Sound.lawful (h : c.Sound) : c.Lawful where
  toSound := h
  toWorld := h.screenToWorld_worldToScreen
  toScreen := h.worldToScreen_screenToWorld
  visible := h.visible_iff
  zoomed s factor := by
    rw [← screenToWorld_zoomAt s factor]
    exact (h.move (.zoomAt s factor)).worldToScreen_screenToWorld s
  panned := h.worldToScreen_panByPixels
  told _ := move_eq_of_revision

end Moves

/-- The camera after some moves. -/
def moved (moves : List Move) : Camera := moves.foldl Camera.move {}

lemma sound_moved (moves : List Move) : (moved moves).Sound := by
  induction moves using List.reverseRecOn with
  | nil => exact ⟨by norm_num [moved, minZoom], by norm_num [moved, maxZoom], le_rfl, le_rfl⟩
  | append_singleton moves m ih =>
    rw [moved, List.foldl_append]
    exact ih.move m

/-- **The camera.** Whatever moves it has made, it goes from the world to the screen and back, shows
what its box says, keeps what is under the pointer where it is while it zooms, and tells its
listeners of every change. -/
theorem camera_lawful (moves : List Move) : (moved moves).Lawful := (sound_moved moves).lawful

/-! ### A box in the view -/

/-- The room for a box of a size, in pixels. -/
def room (size paddingPx : ℚ) : ℚ := max 1 (size - 2 * paddingPx)

/-- A box has room in the view, at a zoom. -/
def Fits (c : Camera) (box : Box ℚ) (paddingPx zoom : ℚ) : Prop :=
  box.w * zoom ≤ room c.width paddingPx ∧ box.h * zoom ≤ room c.height paddingPx

/-- The part of the view that the padding leaves. -/
def Inner (c : Camera) (paddingPx : ℚ) (s : Vec2 ℚ) : Prop :=
  |s.x - c.width / 2| ≤ room c.width paddingPx / 2 ∧
    |s.y - c.height / 2| ≤ room c.height paddingPx / 2

lemma one_le_room (size paddingPx : ℚ) : 1 ≤ room size paddingPx := le_max_left _ _

lemma abs_turned {σ : ℚ} (hσ : σ = 1 ∨ σ = -1) (v : ℚ) : |σ * v| = |v| := by
  rcases hσ with rfl | rfl <;> simp

/-- A side has room at the zoom that is chosen when it has room at the least one. -/
lemma side_fits {l r : ℚ} (hl : 0 ≤ l) (hr : 0 ≤ r) {z wanted : ℚ} (hz : minZoom ≤ z)
    (hle : z ≤ max minZoom wanted) (hwanted : wanted ≤ r / max l 1) :
    l * z ≤ r ↔ l * minZoom ≤ r := by
  have hpos : 0 < max l 1 := zero_lt_one.trans_le (le_max_right l 1)
  constructor
  · exact fun h => (mul_le_mul_of_nonneg_left hz hl).trans h
  · intro h
    refine (mul_le_mul_of_nonneg_left hle hl).trans ?_
    rw [mul_max_of_nonneg _ _ hl]
    refine max_le h ?_
    calc l * wanted ≤ l * (r / max l 1) := mul_le_mul_of_nonneg_left hwanted hl
      _ = r * (l / max l 1) := by ring
      _ ≤ r * 1 := mul_le_mul_of_nonneg_left ((div_le_one hpos).mpr (le_max_left _ _)) hr
      _ = r := mul_one r

/-- How far the points of a side are from the middle. -/
lemma side_le {x p l z r σ : ℚ} (hz : 0 ≤ z) (hσ : σ = 1 ∨ σ = -1) (h : l * z ≤ r)
    (hp : x ≤ p ∧ p ≤ x + l) : |σ * (p - (x + l / 2)) * z| ≤ r / 2 := by
  have hdist : |p - (x + l / 2)| ≤ l / 2 := abs_le.mpr ⟨by linarith [hp.1], by linarith [hp.2]⟩
  rw [mul_assoc, abs_turned hσ, abs_mul, abs_of_nonneg hz]
  linarith [mul_le_mul_of_nonneg_right hdist hz]

lemma side_of_end {x l z r σ : ℚ} (hσ : σ = 1 ∨ σ = -1)
    (h : |σ * (x + l - (x + l / 2)) * z| ≤ r / 2) : l * z ≤ r := by
  rw [mul_assoc, abs_turned hσ] at h
  linarith [le_abs_self ((x + l - (x + l / 2)) * z)]

/-- **Zooming to a box.** A box that is no point is shown within the padding just when it has room
there at the least zoom; for any other box the camera stays. -/
theorem zoomToBox_fits_iff (moves : List Move) (box : Box ℚ) (paddingPx : ℚ) :
    if 0 ≤ box.w ∧ 0 ≤ box.h ∧ (0 < box.w ∨ 0 < box.h) then
      (∀ p, boxContains box p = true → Inner (moved moves) paddingPx
        (((moved moves).zoomToBox box paddingPx).worldToScreen p)) ↔
        Fits (moved moves) box paddingPx minZoom
    else (moved moves).zoomToBox box paddingPx = moved moves := by
  set c := moved moves
  split_ifs with hbox
  · obtain ⟨hw, hh, hpos⟩ := hbox
    set wanted := min (room c.width paddingPx / max box.w 1) (room c.height paddingPx / max box.h 1)
    have hzoomed : c.zoomToBox box paddingPx = { c with
        zoom := c.clampZoom wanted
        x := box.x + box.w / 2
        y := box.y + box.h / 2 }.changed := by
      refine if_neg ?_
      rintro (h | h)
      · exact h ⟨hw, hh⟩
      · exact hpos.elim (not_lt.mpr h.1) (not_lt.mpr h.2)
    obtain ⟨hmin, -⟩ := (sound_moved moves).clamped wanted
    have hmax : c.clampZoom wanted ≤ max minZoom wanted := by
      have hwanted : 0 < wanted := by
        refine lt_min (div_pos ?_ ?_) (div_pos ?_ ?_) <;>
          exact zero_lt_one.trans_le (by simp [room])
      rw [Camera.clampZoom, if_pos hwanted]
      exact min_le_right _ _
    have hroom (size : ℚ) : 0 ≤ room size paddingPx :=
      zero_le_one.trans (one_le_room size paddingPx)
    have hfits : Fits c box paddingPx (c.clampZoom wanted) ↔ Fits c box paddingPx minZoom :=
      and_congr (side_fits hw (hroom _) hmin hmax (min_le_left _ _))
        (side_fits hh (hroom _) hmin hmax (min_le_right _ _))
    have hz := minZoom_pos.le.trans hmin
    have hcentre (l v : ℚ) : l / 2 + v - l / 2 = v := by ring
    rw [hzoomed, ← hfits]
    simp only [BoxUnions.boxContains_iff, Inner, Camera.worldToScreen, Camera.changed, hcentre]
    constructor
    · intro h
      obtain ⟨hx, hy⟩ := h ⟨box.x + box.w, box.y + box.h⟩
        ⟨⟨by simpa using hw, le_rfl⟩, by simpa using hh, le_rfl⟩
      exact ⟨side_of_end (sx_eq c) hx, side_of_end (.inl rfl) (by rwa [one_mul])⟩
    · rintro ⟨hx, hy⟩ p ⟨hpx, hpy⟩
      have hdown := side_le hz (.inl rfl) hy hpy
      rw [one_mul] at hdown
      exact ⟨side_le hz (sx_eq c) hx hpx, hdown⟩
  · refine if_pos ?_
    by_cases hneg : 0 ≤ box.w ∧ 0 ≤ box.h
    · refine .inr ⟨not_lt.mp fun h => hbox ⟨hneg.1, hneg.2, .inl h⟩, not_lt.mp fun h => ?_⟩
      exact hbox ⟨hneg.1, hneg.2, .inr h⟩
    · exact .inl hneg

/-! ### What is on the screen -/

def Event.isFrame : Event → Bool
  | .frame => true
  | _ => false

/-- The camera of the last frame, if there was one. -/
def shown (events : List Event) : Camera :=
  (Host.after (events.rdropWhile fun e => !e.isFrame)).camera

/-- The camera is not far from its origin, in pixels. -/
def Camera.Near (c : Camera) : Prop :=
  (c.x - c.originX) * c.zoom * ((c.x - c.originX) * c.zoom) +
    (c.y - c.originY) * c.zoom * ((c.y - c.originY) * c.zoom) ≤
      rebaseThresholdPx * rebaseThresholdPx

/-- The host draws what the camera `c` shows. -/
structure Host.Draws (h : Host) (c : Camera) : Prop where
  origin : h.origin = ⟨h.camera.originX, h.camera.originY⟩
  placed : ∀ o ∈ h.objects, o = h.place o.anchor
  root : h.root = c.rootTransform
  same : c.originX = h.camera.originX ∧ c.originY = h.camera.originY
  near : c.Near

lemma origin_move (c : Camera) (m : Move) :
    (c.move m).originX = c.originX ∧ (c.move m).originY = c.originY := by
  cases m with
  | setFlip flip =>
    rw [Camera.move, Camera.setFlip]
    split_ifs <;> exact ⟨rfl, rfl⟩
  | zoomToBox box paddingPx =>
    rw [Camera.move, Camera.zoomToBox]
    split_ifs <;> exact ⟨rfl, rfl⟩
  | _ => exact ⟨rfl, rfl⟩

lemma near_maybeRebase {c : Camera} (h : c.Sound) : c.maybeRebase.2.Near := by
  rw [Camera.maybeRebase]
  split_ifs with hnear
  · exact hnear
  · have hle (v : ℚ) : ((v - round v) * c.zoom) * ((v - round v) * c.zoom) ≤ 1 := by
      have hround : |(v - round v) * c.zoom| ≤ 1 := by
        rw [abs_mul, abs_of_pos h.zoom_pos]
        have hz : c.zoom ≤ 1 := h.zoom_le.trans (by norm_num [maxZoom])
        exact mul_le_one₀ ((abs_sub_round v).trans (by norm_num)) h.zoom_pos.le hz
      rw [← abs_mul_abs_self]
      exact mul_le_one₀ hround (abs_nonneg _) hround
    refine (add_le_add (hle c.x) (hle c.y)).trans ?_
    norm_num [rebaseThresholdPx]

lemma Host.Draws.frame {h : Host} {c : Camera} (hs : h.camera.Sound) (hd : h.Draws c) :
    h.frame.camera.Sound ∧ h.frame.Draws h.frame.camera := by
  have hnear := near_maybeRebase hs
  have hsound : h.camera.maybeRebase.2.Sound := by
    rw [Camera.maybeRebase]
    split_ifs
    · exact hs
    · exact ⟨hs.zoom_ge, hs.zoom_le, hs.width, hs.height⟩
  by_cases hkeep : h.camera.maybeRebase.1 = true
  · have hframe : h.frame = { ({ h with camera := h.camera.maybeRebase.2 } : Host).setOrigin
        ⟨h.camera.maybeRebase.2.originX, h.camera.maybeRebase.2.originY⟩ with
          camera := h.camera.maybeRebase.2
          root := h.camera.maybeRebase.2.rootTransform } := by
      rw [Host.frame, if_pos hkeep, Host.setOrigin]
      split_ifs <;> rfl
    rw [hframe, Host.setOrigin]
    refine ⟨hsound, ?_⟩
    split_ifs with horigin
    · exact ⟨horigin.symm, hd.placed, rfl, ⟨rfl, rfl⟩, hnear⟩
    · refine ⟨rfl, fun o ho => ?_, rfl, ⟨rfl, rfl⟩, hnear⟩
      obtain ⟨o', -, rfl⟩ := List.mem_map.mp ho
      rfl
  · have hsame : h.camera.maybeRebase.2 = h.camera := by
      revert hkeep
      rw [Camera.maybeRebase]
      split_ifs <;> simp
    rw [hsame] at hnear
    have hframe : h.frame = { h with root := h.camera.rootTransform } := by
      rw [Host.frame, if_neg hkeep, hsame]
    rw [hframe]
    exact ⟨hs, hd.origin, hd.placed, rfl, ⟨rfl, rfl⟩, hnear⟩

lemma Host.Draws.step {h : Host} {c : Camera} (hs : h.camera.Sound) (hd : h.Draws c) (e : Event) :
    (h.step e).camera.Sound ∧
      (h.step e).Draws (if e.isFrame then (h.step e).camera else c) := by
  cases e with
  | move m =>
    obtain ⟨hx, hy⟩ := origin_move h.camera m
    exact ⟨hs.move m, { hd with
      origin := hd.origin.trans (by rw [Host.step, hx, hy])
      same := ⟨hd.same.1.trans hx.symm, hd.same.2.trans hy.symm⟩ }⟩
  | build anchor =>
    refine ⟨hs, { hd with placed := fun o ho => ?_ }⟩
    rcases List.mem_append.mp ho with ho | ho
    · exact hd.placed o ho
    · rw [List.mem_singleton.mp ho]
      rfl
  | remove keep =>
    exact ⟨hs, { hd with placed := fun o ho => hd.placed o (List.mem_filter.mp ho).1 }⟩
  | frame => exact hd.frame hs

lemma draws_after (events : List Event) :
    (Host.after events).camera.Sound ∧ (Host.after events).Draws (shown events) := by
  induction events using List.reverseRecOn with
  | nil =>
    refine ⟨sound_moved [], ⟨rfl, nofun, rfl, ⟨rfl, rfl⟩, ?_⟩⟩
    norm_num [shown, Host.after, Camera.Near, rebaseThresholdPx]
  | append_singleton events e ih =>
    have hstep := ih.2.step ih.1 e
    rw [Host.after, List.foldl_append, shown, List.rdropWhile_concat]
    cases e with
    | frame =>
      rw [if_neg (by simp [Event.isFrame]), Host.after, List.foldl_append]
      exact hstep
    | _ => exact hstep

/-- **Frames.** Whatever was moved, built and removed, and whenever frames were drawn, each object
is on the screen where the camera of the last frame has it, about an origin near that camera. -/
theorem frames_exact (events : List Event) :
    (∀ o ∈ (Host.after events).objects, ∀ q, (Host.after events).pixel o q =
      (shown events).worldToScreen ⟨o.anchor.x + q.x, o.anchor.y + q.y⟩) ∧
    (Host.after events).Draws (shown events) := by
  obtain ⟨-, hd⟩ := draws_after events
  refine ⟨fun o ho q => ?_, hd⟩
  rw [Host.pixel, hd.root, hd.placed o ho, Host.place, hd.origin, ← hd.same.1, ← hd.same.2]
  exact congrArg₂ Vec2.mk (by simp only [Camera.rootTransform, Camera.worldToScreen]; ring)
    (by simp only [Camera.rootTransform, Camera.worldToScreen]; ring)

end FabPcb.CameraFrames
