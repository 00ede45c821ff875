import FabPcb.FootprintCalls
import FabPcb.RequestRules

/-!
`translate` and `rotate` of a footprint are rigid motions.

Both move every place of the snapshot by one map and every angle by another, and such moves
compose. So the laws of the motions are those of the plane: shifts add up, quarter turns about
one place add up, and a shift takes a turn about a place to the turn about the shifted place.
An absent place is read as the origin, and an angle up to whole turns.
-/

namespace FabPcb.FootprintMotions

open FootprintItems FootprintMovers FootprintCalls WebGeometry
open SpecctraData (Vec2)

/-! ### Moves compose -/

/-- The items that `translate` moves: those that may be turned, and images. -/
def movedChild (place : Option Vector2 → Option Vector2) (angle : Option Angle → Option Angle) :
    Child → Child
  | .referenceImage item => .referenceImage { item with position := place item.position }
  | c => clientChild place angle c

def movedFootprint (place : Option Vector2 → Option Vector2)
    (angle : Option Angle → Option Angle) (f : Footprint) : Footprint :=
  { f with
    toMandatoryFields := clientMandatory place angle f.toMandatoryFields
    items := f.items.map (movedChild place angle) }

/-- Every place of a snapshot moved, its own too, and every angle. -/
def moved (place : Option Vector2 → Option Vector2) (angle : Option Angle → Option Angle)
    (f : FootprintInstance) : FootprintInstance where
  toMandatoryFields := clientMandatory place angle f.toMandatoryFields
  position := place f.position
  orientation := angle f.orientation
  definition := f.definition.map (movedFootprint place angle)

section Compose

variable (f g : Option Vector2 → Vector2) (a b : Option Angle → Option Angle)

/-- One place after the other. -/
def after (v : Option Vector2) : Vector2 := g (some (f v))

lemma clientText_comp (t : Text) : clientText (made g) b (clientText (made f) a t) =
    clientText (made (after f g)) (b ∘ a) t := by
  simp [clientText, Function.comp_def, made, after]

lemma clientField_comp (x : Field) : clientField (made g) b (clientField (made f) a x) =
    clientField (made (after f g)) (b ∘ a) x := by
  simp [clientField, Function.comp_def, clientText_comp]

lemma clientPolyLine_comp (l : PolyLine) : clientPolyLine (made g) (clientPolyLine (made f) l) =
    clientPolyLine (made (after f g)) l := by
  have hnode : clientNode (made g) ∘ clientNode (made f) = clientNode (made (after f g)) :=
    funext fun n => by cases n <;> rfl
  simp [clientPolyLine, hnode]

lemma clientPolySet_comp (s : PolySet) : clientPolySet (made g) (clientPolySet (made f) s) =
    clientPolySet (made (after f g)) s := by
  simp [clientPolySet, clientPolygon, Function.comp_def, clientPolyLine_comp]

lemma clientGeometry_comp (x : Geometry) :
    clientGeometry (made g) b (clientGeometry (made f) a x) =
      clientGeometry (made (after f g)) (b ∘ a) x := by
  cases x with
  | polygon value => exact congrArg Geometry.polygon (clientPolySet_comp f g value)
  | _ => rfl

lemma clientDimensionStyle_comp (d : DimensionStyle) :
    clientDimensionStyle (made g) (clientDimensionStyle (made f) d) =
      clientDimensionStyle (made (after f g)) d := by
  have hmove : ∀ v, clientDimensionStyle.move (made g) (clientDimensionStyle.move (made f) v) =
      clientDimensionStyle.move (made (after f g)) v := fun v => by cases v <;> rfl
  cases d <;> simp [clientDimensionStyle, hmove]

lemma movedChild_comp (c : Child) : movedChild (made g) b (movedChild (made f) a c) =
    movedChild (made (after f g)) (b ∘ a) c := by
  cases c with
  | pad item => simp [movedChild, clientChild, Function.comp_def, made, after]
  | field item => simp [movedChild, clientChild, clientField_comp]
  | text item => simp [movedChild, clientChild, Function.comp_def, clientText_comp]
  | textBox item => simp [movedChild, clientChild, Function.comp_def, made, after]
  | shape item => simp [movedChild, clientChild, Function.comp_def, clientGeometry_comp]
  | dimension item =>
    simp [movedChild, clientChild, Function.comp_def, clientText_comp, clientDimensionStyle_comp]
  | zone item => simp [movedChild, clientChild, Function.comp_def, clientPolySet_comp]
  | barcode item => rfl
  | referencePoint item => rfl
  | referenceImage item => rfl
  | model3D item => rfl
  | other typeUrl known => rfl

lemma clientMandatory_comp (c : MandatoryFields) :
    clientMandatory (made g) b (clientMandatory (made f) a c) =
      clientMandatory (made (after f g)) (b ∘ a) c := by
  simp [clientMandatory, mapMandatory, Function.comp_def, clientField_comp]

lemma movedFootprint_comp (d : Footprint) :
    movedFootprint (made g) b (movedFootprint (made f) a d) =
      movedFootprint (made (after f g)) (b ∘ a) d := by
  simp [movedFootprint, Function.comp_def, movedChild_comp, clientMandatory_comp]

/-- **Moves compose**, each place being moved once by each of them. -/
lemma moved_comp (x : FootprintInstance) : moved (made g) b (moved (made f) a x) =
    moved (made (after f g)) (b ∘ a) x := by
  simp [moved, Function.comp_def, movedFootprint_comp, clientMandatory_comp]
  rfl

end Compose

/-! ### Snapshots that read the same -/

/-- A place as it is read. -/
def read (v : Option Vector2) : Vector2 := toVector2 (vec2 v)

/-- The snapshots have the same places, and the same angles in the given reading. -/
def Same (reading : Option Angle → Option Angle) (x y : FootprintInstance) : Prop :=
  moved (made read) reading x = moved (made read) reading y

/-- An angle up to whole turns. -/
def turned (a : Option Angle) : Option Angle := some ⟨360 * Int.fract (deg a / 360)⟩

instance (reading : Option Angle → Option Angle) (x y : FootprintInstance) :
    Decidable (Same reading x y) := inferInstanceAs (Decidable (_ = _))

section Same

variable {reading a b : Option Angle → Option Angle} {f g : Option Vector2 → Vector2}
  {x y z : FootprintInstance}

@[simp] lemma read_some (v : Vector2) : read (some v) = v := toVector2_vec2 v

lemma after_read (f : Option Vector2 → Vector2) : after f read = f :=
  funext fun v => read_some (f v)

lemma Same.refl : Same reading x x := Eq.refl _

lemma Same.symm (h : Same reading x y) : Same reading y x := Eq.symm h

lemma Same.trans (h : Same reading x y) (h' : Same reading y z) : Same reading x z := Eq.trans h h'

lemma same_moved (hf : f = g) (ha : reading ∘ a = reading ∘ b) :
    Same reading (moved (made f) a x) (moved (made g) b x) := by
  rw [Same, moved_comp, moved_comp, hf, ha]

lemma Same.map (h : Same reading x y) (hf : ∀ v, f (some (read v)) = f v)
    (ha : reading ∘ a ∘ reading = reading ∘ a) :
    Same reading (moved (made f) a x) (moved (made f) a y) := by
  have hread : ∀ u, moved (made read) reading (moved (made f) a u) =
      moved (made f) (reading ∘ a) (moved (made read) reading u) :=
    fun u => by
      rw [moved_comp, moved_comp, after_read, show after read f = f from funext hf,
        Function.comp_assoc, ha]
  rw [Same, hread, hread, h]

lemma Same.origin (h : Same reading x y) : vec2 x.position = vec2 y.position := by
  have hpos := congrArg FootprintInstance.position h
  have hread : read x.position = read y.position := Option.some_injective _ hpos
  have hvec : ∀ v, vec2 (some (read v)) = vec2 v := fun v => vec2_toVector2 (whole_vec2 v)
  rw [← hvec, hread, hvec]

lemma Same.of_id (h : Same id x y) : Same reading x y := by
  have hid : ∀ u, moved (made read) reading (moved (made read) id u) =
      moved (made read) reading u := fun u => by
    rw [moved_comp, after_read]
    rfl
  rw [Same, ← hid x, ← hid y, show moved (made read) id x = _ from h]

lemma same_read (ha : reading ∘ a = reading) : Same reading (moved (made read) a x) x := by
  rw [Same, moved_comp, after_read, ha]

end Same

/-! ### Shifts -/

section Shifts

variable {x y z : FootprintInstance} {dx dy ex ey : ℤ}

lemma translateChild_moved (delta : Vec2) (c : Child) :
    (translateFootprintChild delta c).getD c = movedChild (made (shifted delta)) id c := by
  cases c with
  | referenceImage item => rfl
  | other typeUrl known => rfl
  | _ => exact translateChild_eq delta rfl

lemma translate_moved {delta : Vec2} (h : ¬(delta.x = 0 ∧ delta.y = 0)) (x : FootprintInstance) :
    FootprintItems.translate delta x = moved (made (shifted delta)) id x := by
  have hdefinition : translateDefinition delta = movedFootprint (made (shifted delta)) id := by
    funext d
    rw [translateDefinition, translateField_eq]
    simp only [translateChild_moved]
    rfl
  rw [FootprintItems.translate, if_neg h, hdefinition, translateField_eq]
  rfl

lemma shifted_zero : shifted ⟨0, 0⟩ = read := by
  funext v
  simp [shifted, read]

lemma shifted_read (delta : Vec2) (v : Option Vector2) :
    shifted delta (some (read v)) = shifted delta v := by
  rw [shifted, shifted, read, vec2_toVector2 (whole_vec2 v)]

lemma vector2_ext {v w : Vector2} (h : vec2 (some v) = vec2 (some w)) : v = w :=
  vec2_some_inj.mp h

lemma after_shifted : after (shifted ⟨dx, dy⟩) (shifted ⟨ex, ey⟩) =
    shifted ⟨(dx + ex : ℤ), (dy + ey : ℤ)⟩ := by
  funext v
  apply vector2_ext
  rw [after, vec2_shifted, vec2_shifted, vec2_shifted]
  push_cast
  rw [add_assoc, add_assoc]

/-- The shift of every place. -/
def shift (dx dy : ℤ) (x : FootprintInstance) : FootprintInstance :=
  moved (made (shifted ⟨dx, dy⟩)) id x

lemma same_translate : Same id (FootprintItems.translate ⟨dx, dy⟩ x) (shift dx dy x) := by
  by_cases h : (dx : ℚ) = 0 ∧ (dy : ℚ) = 0
  · rw [shift, h.1, h.2, shifted_zero]
    exact (same_read rfl).symm
  · rw [translate_moved h]
    exact Same.refl

lemma Same.shift {reading : Option Angle → Option Angle} (h : Same reading x y)
    (hread : reading ∘ reading = reading) :
    Same reading (shift dx dy x) (shift dx dy y) := h.map (shifted_read _) hread

lemma same_shift_shift : Same id (shift ex ey (shift dx dy x)) (shift (dx + ex) (dy + ey) x) := by
  rw [FootprintMotions.shift, FootprintMotions.shift, moved_comp, after_shifted]
  exact Same.refl

lemma same_translate_translate :
    Same id (FootprintItems.translate ⟨ex, ey⟩ (FootprintItems.translate ⟨dx, dy⟩ x))
      (FootprintItems.translate ⟨(dx + ex : ℤ), (dy + ey : ℤ)⟩ x) :=
  same_translate.trans <| (same_translate.shift rfl).trans <|
    same_shift_shift.trans same_translate.symm

end Shifts

/-! ### Quarter turns -/

section Turns

variable {x y z : FootprintInstance} {J : JsMath} {o : Vec2} {j k dx dy : ℤ}

/-- A place turned by whole quarters about another. -/
def swung (o : Vec2) (k : ℤ) (v : Option Vector2) : Vector2 := toVector2 (about o k (vec2 v))

/-- An angle turned by whole quarters. -/
def wound (k : ℤ) (a : Option Angle) : Option Angle := some (toAngle (deg a + 90 * k))

/-- Every place and every angle turned by whole quarters. -/
def swing (o : Vec2) (k : ℤ) (x : FootprintInstance) : FootprintInstance :=
  moved (made (swung o k)) (wound k) x

lemma turned_eq (a : Option Angle) : turned a = some ⟨bumped 0 (deg a)⟩ := by
  rw [turned, bumped_eq, add_zero]

lemma turned_eq_iff {a b : Option Angle} :
    turned a = turned b ↔ ∃ n : ℤ, deg a - deg b = 360 * n := by
  rw [turned_eq, turned_eq, ← bumped_eq_iff, Option.some_inj, Angle.mk.injEq]

lemma deg_wound (a : Option Angle) : deg (wound k a) = deg a + 90 * k := rfl

lemma turned_wound (h : j % 4 = k % 4) : turned ∘ wound j = turned ∘ wound k := by
  obtain ⟨m, rfl⟩ : ∃ m, j = k + 4 * m := ⟨j / 4 - k / 4, by omega⟩
  funext a
  refine turned_eq_iff.mpr ⟨m, ?_⟩
  rw [deg_wound, deg_wound]
  push_cast
  ring

lemma turned_wound_turned : turned ∘ wound k ∘ turned = turned ∘ wound k := by
  funext a
  refine turned_eq_iff.mpr ⟨-⌊deg a / 360⌋, ?_⟩
  have hdeg : deg (turned a) = deg a - 360 * ⌊deg a / 360⌋ := by
    rw [turned, deg, Option.elim_some, Int.fract]
    ring
  rw [Function.comp_apply, deg_wound, deg_wound, hdeg]
  push_cast
  ring

lemma wound_zero : turned ∘ wound 0 = turned := by
  funext a
  refine turned_eq_iff.mpr ⟨0, ?_⟩
  rw [deg_wound]
  simp

lemma turned_turned : turned ∘ turned = turned := by
  have h := turned_wound_turned (k := 0)
  rwa [← Function.comp_assoc, wound_zero] at h

lemma wound_wound : wound k ∘ wound j = wound (j + k) := by
  funext a
  have hsum : deg (wound j a) + 90 * k = deg a + 90 * (j + k : ℤ) := by
    rw [deg_wound]
    push_cast
    ring
  rw [Function.comp_apply, wound, hsum, wound]

lemma vec2_swung (ho : Whole o) (v : Option Vector2) :
    vec2 (some (swung o k v)) = about o k (vec2 v) :=
  vec2_toVector2 ((whole_vec2 v).about ho)

lemma swung_read (v : Option Vector2) : swung o k (some (read v)) = swung o k v := by
  rw [swung, swung, read, vec2_toVector2 (whole_vec2 v)]

lemma about_about (o p : Vec2) : about o k (about o j p) = about o (j + k) p := by
  obtain ⟨w, rfl⟩ : ∃ w, p = FootprintZones.plus o w :=
    ⟨⟨p.x - o.x, p.y - o.y⟩, by simp [FootprintZones.plus]⟩
  rw [FootprintZones.about_plus, FootprintZones.about_plus, FootprintZones.about_plus, add_comm,
    turns_add]

lemma after_swung (ho : Whole o) : after (swung o j) (swung o k) = swung o (j + k) := by
  funext v
  apply vector2_ext
  rw [after, vec2_swung ho, vec2_swung ho, vec2_swung ho, about_about]

lemma swung_emod (h : j % 4 = k % 4) : swung o j = swung o k := by
  funext v
  rw [swung, swung, FootprintZones.about_emod o h]

lemma swung_whole_turns (h : k % 4 = 0) : swung o k = read := by
  funext v
  rw [swung, about_whole_turns h]
  rfl

lemma after_shifted_swung (ho : Whole o) : after (shifted ⟨dx, dy⟩) (swung ⟨o.x + dx, o.y + dy⟩ k) =
    after (swung o k) (shifted ⟨dx, dy⟩) := by
  have ho' : Whole ⟨o.x + dx, o.y + dy⟩ := by
    obtain ⟨a, b, rfl⟩ := ho
    exact ⟨a + dx, b + dy, by push_cast; rfl⟩
  funext v
  apply vector2_ext
  rw [after, after, vec2_swung ho', vec2_shifted, vec2_shifted, vec2_swung ho, about, about]
  simp only [add_sub_add_right_eq_sub, Vec2.mk.injEq]
  exact ⟨by ring, by ring⟩

lemma same_swing (h : j % 4 = k % 4) : Same turned (swing o j x) (swing o k x) :=
  same_moved (swung_emod h) (turned_wound h)

lemma same_swing_swing (ho : Whole o) :
    Same turned (swing o k (swing o j x)) (swing o (j + k) x) := by
  rw [swing, swing, moved_comp, after_swung ho, wound_wound]
  exact Same.refl

lemma same_swing_whole_turns (h : k % 4 = 0) : Same turned (swing o k x) x := by
  rw [swing, swung_whole_turns h]
  exact same_read (by rw [turned_wound (show k % 4 = 0 % 4 by omega), wound_zero])

lemma Same.swing (h : Same turned x y) : Same turned (swing o k x) (swing o k y) :=
  h.map swung_read turned_wound_turned

lemma same_shift_swing (ho : Whole o) :
    Same turned (swing ⟨o.x + dx, o.y + dy⟩ k (shift dx dy x)) (shift dx dy (swing o k x)) := by
  rw [shift, shift, FootprintMotions.swing, FootprintMotions.swing, moved_comp, moved_comp,
    after_shifted_swung ho]
  exact Same.refl

end Turns

/-! ### A run of `rotate` -/

section Run

variable {α β : Type} {m : Action α} {f : α → Action β} {o o' : Objects}

/-- What the code gives or throws, and the objects after it. -/
def runs (m : Action α) (o : Objects) : Except String α × Objects := m.run.run o

lemma runs_bind_ok {a : α} (h : runs m o = (.ok a, o')) : runs (m >>= f) o = runs (f a) o' := by
  simp only [runs, ExceptT.run_bind, StateT.run_bind] at h ⊢
  rw [h]
  rfl

lemma runs_bind_error {e : String} (h : runs m o = (.error e, o')) :
    runs (m >>= f) o = (.error e, o') := by
  simp only [runs, ExceptT.run_bind, StateT.run_bind] at h ⊢
  rw [h]
  rfl

/-- What is read off the objects stays as it is. -/
def Keeps {γ : Type} (part : Objects → γ) (m : Action α) : Prop :=
  ∀ o, part (runs m o).2 = part o

/-- What throws leaves the snapshot as it is. -/
def Guarded (m : Action α) : Prop :=
  ∀ o e, (runs m o).1 = .error e → (runs m o).2.proto = o.proto

variable {γ : Type} {part : Objects → γ}

lemma keeps_attempt (r : Except String α) : Keeps part (attempt r) := fun _ => rfl

lemma Keeps.bind (hm : Keeps part m) (hf : ∀ a, Keeps part (f a)) : Keeps part (m >>= f) := by
  intro o
  rcases hr : runs m o with ⟨e | a, o'⟩
  · rw [runs_bind_error hr, ← hm o, hr]
  · rw [runs_bind_ok hr, hf a o', ← hm o, hr]

lemma Keeps.bind_guarded (hm : Keeps Objects.proto m) (hf : ∀ a, Guarded (f a)) :
    Guarded (m >>= f) := by
  intro o e h
  rcases hr : runs m o with ⟨e' | a, o'⟩
  · rw [runs_bind_error hr, ← hm o, hr]
  · rw [runs_bind_ok hr] at h ⊢
    rw [hf a o' e h, ← hm o, hr]

variable {point : Option Vector2 → Vector2} {angle : Option Angle → Angle} {degrees : ℚ}

/-- The snapshot, and where the copy is. -/
def fixed (o : Objects) : FootprintInstance × Option Vector2 := (o.proto, o.next.position)

lemma keeps_rotateNextDefinition (d : Footprint) :
    Keeps fixed (rotateNextDefinition point angle degrees d) :=
  (keeps_attempt _).bind fun _ => Keeps.bind (fun _ => rfl) fun _ =>
    (keeps_attempt _).bind fun _ => fun _ => rfl

lemma keeps_rotateNext (x : FootprintInstance) :
    Keeps fixed (rotateNext point angle degrees x) := by
  refine (keeps_attempt _).bind fun _ => Keeps.bind (fun _ => rfl) fun _ =>
    Keeps.bind ?_ fun _ => fun _ => rfl
  cases x.definition with
  | none => exact fun _ => rfl
  | some d => exact keeps_rotateNextDefinition d

lemma guarded_rotateAction (J : JsMath) (degrees : Option ℚ) :
    Guarded (rotateAction J degrees) := by
  cases degrees with
  | none => exact fun _ _ _ => rfl
  | some turn =>
    simp only [rotateAction, Option.elim_some]
    split_ifs with hzero
    · exact fun _ _ _ => rfl
    · refine Keeps.bind_guarded (fun _ => rfl) fun _ => Keeps.bind_guarded (fun _ => rfl) fun o =>
        (keeps_attempt _).bind_guarded fun _ => Keeps.bind_guarded
          (fun o => congrArg Prod.fst (keeps_rotateNext _ o)) fun _ => ?_
      exact fun _ _ h => by cases h

end Run

/-! ### What `rotate` makes of a snapshot -/

section Rotated

variable {x y z : FootprintInstance} {J : JsMath} {k : ℤ} {o : Objects}

/-- Every coordinate that is read is in range. -/
def InRange (places : List (Option Vector2)) : Prop :=
  ∀ v ∈ places, ∀ n ∈ coordinates v, isUnsafe n = false

instance (places : List (Option Vector2)) : Decidable (InRange places) :=
  inferInstanceAs (Decidable (∀ v ∈ places, ∀ n ∈ coordinates v, isUnsafe n = false))

lemma fromBigInts_ok_iff {numbers : List ℤ} :
    fromBigInts numbers = .ok () ↔ ∀ n ∈ numbers, isUnsafe n = false := by
  rw [fromBigInts]
  cases h : numbers.find? isUnsafe with
  | none => simpa using List.find?_eq_none.mp h
  | some v =>
    have hv := List.find?_some h
    have hmem := List.mem_of_find?_eq_some h
    simp only [reduceCtorEq, false_iff, not_forall]
    exact ⟨v, hmem, by simp [hv]⟩

lemma readPlaces_ok_iff {l : List (Option Vector2)} : readPlaces l = .ok () ↔ InRange l := by
  rw [readPlaces, fromBigInts_ok_iff]
  simp only [List.mem_flatMap, forall_exists_index, and_imp]
  exact ⟨fun h v hv n hn => h n v hv hn, fun h n v hv hn => h v hv n hn⟩

lemma inRange_append {l l' : List (Option Vector2)} :
    InRange (l ++ l') ↔ InRange l ∧ InRange l' := List.forall_mem_append

/-- The snapshot may be turned: its items are of the kinds for it, and its places are in
range. -/
def Turnable (x : FootprintInstance) : Prop :=
  InRange (places x) ∧ ∀ d ∈ x.definition, ∀ c ∈ d.items, accepts c = true

variable {point : Option Vector2 → Vector2} {angle : Option Angle → Angle} {degrees : ℚ}

lemma rotateChild_ok_iff (hdegrees : remainder degrees 90 = 0) {c c' : Child} :
    rotateChild point angle degrees c = .ok c' ↔ (accepts c = true ∧ InRange (childPlaces c)) ∧
      c' = movedChild (made point) (fun a => some (angle a)) c := by
  have hcorner : cornerRadiusRead degrees c = [] := by
    unfold cornerRadiusRead
    split <;> simp [hdegrees]
  have hread : fromBigInts [] = .ok () := rfl
  rw [rotateChild, hcorner, hread, ← readPlaces_ok_iff]
  by_cases hc : accepts c = true
  · have hclient : movedChild (made point) (fun a => some (angle a)) c =
        clientChild (made point) (fun a => some (angle a)) c := by
      cases c with
      | referenceImage item => cases hc
      | _ => rfl
    rw [rotateChild_eq point angle hdegrees hc, hclient]
    cases hplaces : readPlaces (childPlaces c) with
    | error e => simp [bind, Except.bind]
    | ok u =>
      simp only [bind, Except.bind, pure, Except.pure, Except.ok.injEq, hc, and_self, true_and]
      exact eq_comm
  · have herror : ∃ e, rotateFootprintChild point angle degrees c = .error e := by
      cases c with
      | referenceImage item => exact ⟨_, rfl⟩
      | other typeUrl known => cases known <;> exact ⟨_, rfl⟩
      | _ => exact absurd rfl hc
    obtain ⟨e, he⟩ := herror
    simp [bind, Except.bind, he, hc]

lemma mapM_ok_iff {α β : Type} {F : α → Except String β} {good : α → Prop} {g : α → β}
    (h : ∀ c c', F c = .ok c' ↔ good c ∧ c' = g c) {l : List α} {l' : List β} :
    l.mapM F = .ok l' ↔ (∀ c ∈ l, good c) ∧ l' = l.map g := by
  induction l generalizing l' with
  | nil => simp [List.mapM_nil, pure, Except.pure, eq_comm]
  | cons c l ih =>
    rw [List.mapM_cons, List.forall_mem_cons]
    constructor
    · intro hrun
      obtain ⟨c', hc, hrun⟩ := RequestRules.bind_ok hrun
      obtain ⟨l'', hl, hrun⟩ := RequestRules.bind_ok hrun
      obtain ⟨hgood, rfl⟩ := (h c c').mp hc
      obtain ⟨hrest, rfl⟩ := ih.mp hl
      cases hrun
      exact ⟨⟨hgood, hrest⟩, rfl⟩
    · rintro ⟨⟨hgood, hrest⟩, rfl⟩
      rw [(h c (g c)).mpr ⟨hgood, rfl⟩, ih.mpr ⟨hrest, rfl⟩]
      rfl

lemma runs_bind_iff {α β : Type} {m : Action α} {f : α → Action β} {o o' : Objects} {b : β} :
    runs (m >>= f) o = (.ok b, o') ↔
      ∃ a o₁, runs m o = (.ok a, o₁) ∧ runs (f a) o₁ = (.ok b, o') := by
  rcases hr : runs m o with ⟨e | a, o₁⟩
  · simp [runs_bind_error hr]
  · rw [runs_bind_ok hr]
    constructor
    · exact fun h => ⟨a, o₁, rfl, h⟩
    · rintro ⟨a', o₂, heq, h⟩
      cases heq
      exact h

lemma runs_attempt_iff {α : Type} {r : Except String α} {a : α} {o o' : Objects} :
    runs (attempt r) o = (.ok a, o') ↔ r = .ok a ∧ o' = o := by
  rw [Prod.mk.injEq]
  exact and_congr_right fun _ => eq_comm

lemma runs_onNext_iff {g : FootprintInstance → FootprintInstance} {u : Unit} {o o' : Objects} :
    runs (onNext g) o = (.ok u, o') ↔ o' = { o with next := g o.next } := by
  rw [show runs (onNext g) o = (.ok (), { o with next := g o.next }) from rfl]
  simp [eq_comm]

variable {o o' : Objects}

lemma runs_rotateNextDefinition_iff (hdegrees : remainder degrees 90 = 0) {d : Footprint}
    (hd : o.next.definition = some d) :
    runs (rotateNextDefinition point angle degrees d) o = (.ok (), o') ↔
      (InRange (definitionPlaces d) ∧ ∀ c ∈ d.items, accepts c = true) ∧
      o' = { o with next := { o.next with
        definition := some (movedFootprint (made point) (fun a => some (angle a)) d) } } := by
  simp only [rotateNextDefinition, runs_bind_iff, runs_attempt_iff, onDefinition, runs_onNext_iff,
    mapM_ok_iff fun c c' => (rotateChild_ok_iff hdegrees :
      rotateChild point angle degrees c = .ok c' ↔ _)]
  have hmandatory : mapMandatory (rotateField point angle) d.toMandatoryFields =
      clientMandatory (made point) (fun a => some (angle a)) d.toMandatoryFields := rfl
  constructor
  · rintro ⟨_, _, ⟨hread, rfl⟩, _, _, rfl, items, _, ⟨⟨hitems, rfl⟩, rfl⟩, rfl⟩
    refine ⟨⟨inRange_append.mpr ⟨readPlaces_ok_iff.mp hread, fun v hv => ?_⟩,
      fun c hc => (hitems c hc).1⟩, ?_⟩
    · obtain ⟨c, hc, hv⟩ := List.mem_flatMap.mp hv
      exact (hitems c hc).2 v hv
    · simp [hd, movedFootprint, hmandatory]
  · rintro ⟨⟨hread, haccepts⟩, rfl⟩
    obtain ⟨hfields, hitems⟩ := inRange_append.mp hread
    refine ⟨(), o, ⟨readPlaces_ok_iff.mpr hfields, rfl⟩, (), _, rfl, _, _,
      ⟨⟨fun c hc => ⟨haccepts c hc, fun v hv => hitems v ?_⟩, rfl⟩, rfl⟩, ?_⟩
    · exact List.mem_flatMap.mpr ⟨c, hc, hv⟩
    · simp [hd, movedFootprint, hmandatory]

/-- What `rotate` makes of the copy, by a right angle. -/
lemma runs_rotateNext_iff (hdegrees : remainder degrees 90 = 0) :
    runs (rotateNext point angle degrees o.next) o = (.ok (), o') ↔
      (InRange (mandatoryPlaces o.next.toMandatoryFields ++
          o.next.definition.elim [] definitionPlaces) ∧
        ∀ d ∈ o.next.definition, ∀ c ∈ d.items, accepts c = true) ∧
      o' = { o with next := { moved (made point) (fun a => some (angle a)) o.next with
        position := o.next.position } } := by
  have hmandatory : mapMandatory (rotateField point angle) o.next.toMandatoryFields =
      clientMandatory (made point) (fun a => some (angle a)) o.next.toMandatoryFields := rfl
  simp only [rotateNext, runs_bind_iff, runs_attempt_iff, runs_onNext_iff, inRange_append]
  cases hd : o.next.definition with
  | none =>
    constructor
    · rintro ⟨_, _, ⟨hread, rfl⟩, _, _, rfl, _, o₂, hrun, rfl⟩
      cases hrun
      exact ⟨⟨⟨readPlaces_ok_iff.mp hread, by simp [InRange]⟩, by simp⟩,
        by simp [moved, hd, hmandatory]⟩
    · rintro ⟨⟨⟨hread, -⟩, -⟩, rfl⟩
      exact ⟨(), o, ⟨readPlaces_ok_iff.mpr hread, rfl⟩, (), _, rfl, (), _, rfl,
        by simp [moved, hd, hmandatory]⟩
  | some d =>
    simp only [Option.elim_some, Option.mem_some_iff, forall_eq']
    constructor
    · rintro ⟨_, _, ⟨hread, rfl⟩, _, _, rfl, _, o₂, hrun, rfl⟩
      obtain ⟨⟨hplaces, haccepts⟩, rfl⟩ :=
        (runs_rotateNextDefinition_iff hdegrees (by exact hd)).mp hrun
      exact ⟨⟨⟨readPlaces_ok_iff.mp hread, hplaces⟩, haccepts⟩, by simp [moved, hd, hmandatory]⟩
    · rintro ⟨⟨⟨hread, hplaces⟩, haccepts⟩, rfl⟩
      exact ⟨(), o, ⟨readPlaces_ok_iff.mpr hread, rfl⟩, (), _, rfl, (), _,
        (runs_rotateNextDefinition_iff hdegrees (by exact hd)).mpr ⟨⟨hplaces, haccepts⟩, rfl⟩,
        by simp [moved, hd, hmandatory]⟩

end Rotated

/-! ### The motions -/

section Motions

variable {x y z : FootprintInstance} {J : JsMath} {dx dy j k : ℤ}

lemma translateCall_eq {delta : Vec2} (h : translateCall delta x = .ok y) :
    y = FootprintItems.translate delta x := by
  unfold translateCall at h
  split_ifs at h with hzero
  · cases h
    rw [FootprintItems.translate, if_pos hzero]
  · cases hread : readPlaces (places x) with
    | error e => rw [hread] at h; cases h
    | ok u => rw [hread] at h; cases h; rfl

lemma translateCall_ok_iff : (∃ y, translateCall ⟨dx, dy⟩ x = .ok y) ↔
    (dx = 0 ∧ dy = 0) ∨ InRange (places x) := by
  rw [translateCall, ← readPlaces_ok_iff]
  by_cases hzero : dx = 0 ∧ dy = 0
  · simp [hzero]
  · cases hread : readPlaces (places x) with
    | error e => simp [hzero, Except.map]
    | ok u => simp [hzero, Except.map]

lemma turnedAbout_eq_swung (v : Option Vector2) :
    turnedAbout J (vec2 x.position) (90 * j) v = swung (vec2 x.position) j v :=
  vector2_ext <| by
    rw [vec2_turnedAbout (whole_vec2 _), vec2_swung (whole_vec2 _)]

/-- A turn of every place by whole quarters, the place of the footprint left as it is written. -/
def swingAt (j : ℤ) (x : FootprintInstance) : FootprintInstance :=
  { swing (vec2 x.position) j x with position := x.position }

lemma same_swingAt : Same turned (swingAt j x) (swing (vec2 x.position) j x) := by
  have hanchor : read x.position = read (some (swung (vec2 x.position) j x.position)) := by
    rw [read_some, swung, about, sub_self, sub_self, FootprintZones.turns_origin]
    simp [read]
  rw [Same]
  simp [swingAt, swing, moved, made, hanchor]

lemma turnable_iff : Turnable x ↔ readPlaces [x.position] = .ok () ∧
    InRange (mandatoryPlaces x.toMandatoryFields ++ x.definition.elim [] definitionPlaces) ∧
      ∀ d ∈ x.definition, ∀ c ∈ d.items, accepts c = true := by
  have hsplit : InRange (places x) ↔ InRange [x.position] ∧
      InRange (mandatoryPlaces x.toMandatoryFields ++ x.definition.elim [] definitionPlaces) :=
    inRange_append (l := [x.position])
  rw [Turnable, hsplit, readPlaces_ok_iff, and_assoc]

/-- A turn by whole quarters: when it throws nothing, and what it makes of the snapshot. -/
lemma rotateCall_iff (J : JsMath) (k : ℤ) : ∃ j : ℤ, j % 4 = k % 4 ∧ ∀ x y,
    rotateCall J (some (90 * k)) x = (.ok (), y) ↔
      (k % 4 = 0 ∧ y = x) ∨ (k % 4 ≠ 0 ∧ Turnable x ∧ y = swingAt j x) := by
  obtain ⟨j, hj, hmod, hzero⟩ := remainder_quarters k
  refine ⟨j, hmod, fun x y => ?_⟩
  by_cases hk : k % 4 = 0
  · have hrun : rotateCall J (some (90 * k)) x = (.ok (), x) := by
      simp only [rotateCall, rotateAction, Option.elim_some, hj, hzero.mpr hk, Int.cast_zero,
        mul_zero, if_true]
      rfl
    simp [hrun, hk, eq_comm]
  · have hne : (90 * j : ℚ) ≠ 0 :=
      mul_ne_zero (by norm_num) (Int.cast_ne_zero.mpr fun h => hk (hzero.mp h))
    have hpoint : turnedAbout J (vec2 x.position) (90 * j) = swung (vec2 x.position) j :=
      funext turnedAbout_eq_swung
    have hcall : rotateCall J (some (90 * k)) x = (.ok (), y) ↔
        ∃ o', runs (rotateAction J (some (90 * k))) ⟨x, x⟩ = (.ok (), o') ∧ o'.proto = y := by
      rw [Prod.mk.injEq]
      constructor
      · exact fun h => ⟨_, Prod.ext h.1 rfl, h.2⟩
      · rintro ⟨o', h, rfl⟩
        exact ⟨congrArg Prod.fst h, congrArg (fun r => r.2.proto) h⟩
    rw [hcall, turnable_iff]
    simp only [rotateAction, Option.elim_some, hj, if_neg hne, hk, false_and, false_or,
      runs_bind_iff, runs_attempt_iff]
    constructor
    · rintro ⟨o', ⟨_, _, hclone, _, _, hget, _, _, ⟨hread, rfl⟩, _, o₂, hrun, hassign⟩, rfl⟩
      cases hclone
      cases hget
      cases hassign
      rw [hpoint] at hrun
      obtain ⟨⟨hplaces, haccepts⟩, rfl⟩ :=
        (runs_rotateNext_iff (o := ⟨x, x⟩) (remainder_quarter j)).mp hrun
      exact ⟨hk, ⟨hread, hplaces, haccepts⟩, rfl⟩
    · rintro ⟨-, ⟨hread, hplaces, haccepts⟩, rfl⟩
      refine ⟨⟨swingAt j x, swingAt j x⟩, ⟨(), ⟨x, x⟩, rfl, ⟨x, x⟩, ⟨x, x⟩, rfl, (), ⟨x, x⟩,
        ⟨hread, rfl⟩, (), ⟨x, swingAt j x⟩, ?_, rfl⟩, rfl⟩
      rw [hpoint]
      exact (runs_rotateNext_iff (o := ⟨x, x⟩) (remainder_quarter j)).mpr
        ⟨⟨hplaces, haccepts⟩, rfl⟩

lemma rotateCall_same (h : rotateCall J (some (90 * k)) x = (.ok (), y)) :
    Same turned y (swing (vec2 x.position) k x) ∧ y.position = x.position := by
  obtain ⟨j, hmod, hcall⟩ := rotateCall_iff J k
  obtain ⟨hk, rfl⟩ | ⟨-, -, rfl⟩ := (hcall x y).mp h
  · exact ⟨(same_swing_whole_turns hk).symm, rfl⟩
  · exact ⟨same_swingAt.trans (same_swing hmod), rfl⟩

lemma rotateCall_ok_iff : (∃ y, rotateCall J (some (90 * k)) x = (.ok (), y)) ↔
    k % 4 = 0 ∨ Turnable x := by
  obtain ⟨j, -, hcall⟩ := rotateCall_iff J k
  simp only [hcall]
  by_cases hk : k % 4 = 0 <;> simp [hk]

lemma rotateCall_rotateCall (hy : rotateCall J (some (90 * j)) x = (.ok (), y))
    (hz : rotateCall J (some (90 * k)) y = (.ok (), z)) :
    ∃ w, rotateCall J (some (90 * (j + k : ℤ))) x = (.ok (), w) ∧ Same turned z w := by
  have hturn : (j + k) % 4 = 0 ∨ Turnable x := by
    rcases rotateCall_ok_iff.mp ⟨y, hy⟩ with hj | hx
    · obtain ⟨m, -, hcall⟩ := rotateCall_iff J j
      obtain ⟨-, rfl⟩ | ⟨hne, -⟩ := (hcall x y).mp hy
      · rcases rotateCall_ok_iff.mp ⟨z, hz⟩ with hk | hx
        · exact .inl (by omega)
        · exact .inr hx
      · exact absurd hj hne
    · exact .inr hx
  obtain ⟨w, hw⟩ := rotateCall_ok_iff (J := J).mpr hturn
  obtain ⟨hsame, hpos⟩ := rotateCall_same hy
  have hsecond := (rotateCall_same hz).1
  rw [hpos] at hsecond
  exact ⟨w, hw, hsecond.trans (hsame.swing.trans
    ((same_swing_swing (whole_vec2 _)).trans (rotateCall_same hw).1.symm))⟩

lemma origin_translate : vec2 (FootprintItems.translate ⟨dx, dy⟩ x).position =
    ⟨(vec2 x.position).x + dx, (vec2 x.position).y + dy⟩ := by
  rw [Same.origin (same_translate (x := x)), shift, moved, made, vec2_shifted]

lemma translate_rotate_comm {u : FootprintInstance}
    (hz : rotateCall J (some (90 * k)) (FootprintItems.translate ⟨dx, dy⟩ x) = (.ok (), z))
    (hu : rotateCall J (some (90 * k)) x = (.ok (), u)) :
    Same turned z (FootprintItems.translate ⟨dx, dy⟩ u) := by
  have hfirst := (rotateCall_same hz).1
  rw [origin_translate] at hfirst
  have hshift : Same turned (FootprintItems.translate ⟨dx, dy⟩ x) (shift dx dy x) :=
    same_translate.of_id
  have hlast : Same turned (FootprintItems.translate ⟨dx, dy⟩ u) (shift dx dy u) :=
    same_translate.of_id
  exact hfirst.trans (hshift.swing.trans ((same_shift_swing (whole_vec2 _)).trans
    (((rotateCall_same hu).1.shift turned_turned).symm.trans hlast.symm)))

lemma assign_position {m : Action Unit} (hm : Keeps fixed m) (x : FootprintInstance) :
    (runs (m >>= fun _ => modify fun o => { o with proto := o.next }) ⟨x, x⟩).2.proto.position =
      x.position := by
  have hkept := hm ⟨x, x⟩
  rcases hr : runs m ⟨x, x⟩ with ⟨e | a, o'⟩
  · rw [runs_bind_error hr]
    rw [hr] at hkept
    exact congrArg (fun r => r.1.position) hkept
  · rw [runs_bind_ok hr]
    rw [hr] at hkept
    exact congrArg Prod.snd hkept

lemma rotateCall_position (J : JsMath) (degrees : Option ℚ) (x : FootprintInstance) :
    (rotateCall J degrees x).2.position = x.position := by
  cases degrees with
  | none => rfl
  | some turn =>
    change (runs (rotateAction J (some turn)) ⟨x, x⟩).2.proto.position = x.position
    simp only [rotateAction, Option.elim_some]
    generalize remainder turn 360 = degrees
    split_ifs with hzero
    · rfl
    · have hclone : runs (modify fun o => { o with next := o.proto } : Action Unit) ⟨x, x⟩ =
        (.ok (), ⟨x, x⟩) := rfl
      have hget : runs (get : Action Objects) ⟨x, x⟩ = (.ok ⟨x, x⟩, ⟨x, x⟩) := rfl
      rw [runs_bind_ok hclone, runs_bind_ok hget]
      have hnext : Keeps fixed (rotateNext (turnedAbout J (vec2 x.position) degrees)
          (fun value => toAngle (deg value + degrees)) degrees x) := keeps_rotateNext x
      have hlast :=
        assign_position ((keeps_attempt (readPlaces [x.position])).bind fun _ => hnext) x
      rwa [bind_assoc] at hlast

end Motions

/-! ### Small footprints -/

/-- A footprint at a place, with nothing in it. -/
def bare (xNm yNm : ℤ) : FootprintInstance where
  referenceField := none
  valueField := none
  datasheetField := none
  descriptionField := none
  position := some ⟨xNm, yNm⟩
  orientation := none
  definition := none

/-- A pad goes around the footprint counterclockwise, y going down. -/
example : (rotateCall FootprintZones.quarterMath (some 90) { bare 100 200 with
      definition := some ⟨⟨none, none, none, none⟩, none, [.pad ⟨none, some ⟨110, 220⟩⟩]⟩ }).2 =
    { bare 100 200 with
      orientation := some ⟨90⟩
      definition := some ⟨⟨none, none, none, none⟩, none, [.pad ⟨none, some ⟨120, 190⟩⟩]⟩ } := by
  decide +kernel

end FabPcb.FootprintMotions
