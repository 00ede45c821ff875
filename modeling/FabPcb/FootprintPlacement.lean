import FabPcb.PasteCopies
import FabPcb.WalkLaws

/-!
How a footprint of a library is put on the board: `makeFootprintInstance` of `create.ts`.

The children are moved by the walk of `translateChild`, which goes by the names that coordinates
have. A footprint that is on the board is moved by the walk of `geometry.ts`, which goes by the
names that they do not have. Here it is said when placing a footprint is placing it at the origin
and moving it then.

`known` are the types of messages that the registry has. What is created and packed is taken to
be what is unpacked.
-/

namespace FabPcb.FootprintPlacement

open SpecctraData (Vec2 roundHalfUp)
open WebGeometry ClonePaste ChildWalk WalkLaws
open PasteCopies (ownKeys without)

/-! ### Messages of a library -/

/-- Coordinates are integers, and nothing is packed. -/
def Decoded : Js → Prop
  | .arr items => ∀ t ∈ items, Decoded t
  | .obj fields =>
    (isNm (look "xNm" fields) = true → BigVec fields) ∧ ∀ e ∈ fields, Decoded e.2
  | .any _ _ => False
  | .bytes _ => False
  | _ => True
termination_by t => t
decreasing_by
  · exact sizeOf_item ‹_›
  · exact sizeOf_field ‹_›

structure Message where
  typeName : String
  fields : List (String × Js)
  keyed : Keyed (.obj fields)
  decoded : Decoded (.obj fields)

structure LibraryFootprint where
  libId : String
  /-- Pads, shapes, texts, zones, in coordinates of the footprint. -/
  items : List Message
  /-- Reference, Value, Datasheet, Description. -/
  fields : List Message

structure Pt where
  x : ℤ
  y : ℤ

def V (p : Pt) : Js := .obj [("xNm", .big p.x), ("yNm", .big p.y)]

def D (nm : ℤ) : Js := .obj [("valueNm", .big nm)]

/-- The names of `BoardLayer`, by their numbers. -/
def boardLayers : List String :=
  ["BL_UNKNOWN", "BL_UNDEFINED", "BL_UNSELECTED", "BL_F_Cu", "BL_In1_Cu", "BL_In2_Cu",
    "BL_In3_Cu", "BL_In4_Cu", "BL_In5_Cu", "BL_In6_Cu", "BL_In7_Cu", "BL_In8_Cu", "BL_In9_Cu",
    "BL_In10_Cu", "BL_In11_Cu", "BL_In12_Cu", "BL_In13_Cu", "BL_In14_Cu", "BL_In15_Cu",
    "BL_In16_Cu", "BL_In17_Cu", "BL_In18_Cu", "BL_In19_Cu", "BL_In20_Cu", "BL_In21_Cu",
    "BL_In22_Cu", "BL_In23_Cu", "BL_In24_Cu", "BL_In25_Cu", "BL_In26_Cu", "BL_In27_Cu",
    "BL_In28_Cu", "BL_In29_Cu", "BL_In30_Cu", "BL_B_Cu", "BL_B_Adhes", "BL_F_Adhes", "BL_B_Paste",
    "BL_F_Paste", "BL_B_SilkS", "BL_F_SilkS", "BL_B_Mask", "BL_F_Mask", "BL_Dwgs_User",
    "BL_Cmts_User", "BL_Eco1_User", "BL_Eco2_User", "BL_Edge_Cuts", "BL_Margin", "BL_B_CrtYd",
    "BL_F_CrtYd", "BL_B_Fab", "BL_F_Fab", "BL_User_1", "BL_User_2", "BL_User_3", "BL_User_4",
    "BL_User_5", "BL_User_6", "BL_User_7", "BL_User_8", "BL_User_9", "BL_Rescue", "BL_User_10",
    "BL_User_11", "BL_User_12", "BL_User_13", "BL_User_14", "BL_User_15", "BL_User_16",
    "BL_User_17", "BL_User_18", "BL_User_19", "BL_User_20", "BL_User_21", "BL_User_22",
    "BL_User_23", "BL_User_24", "BL_User_25", "BL_User_26", "BL_User_27", "BL_User_28",
    "BL_User_29", "BL_User_30"]

def layerEnum (id : String) : Js :=
  .num (boardLayers.idxOf (if id ∈ boardLayers then id else "BL_F_Cu"))

/-- The box around some points, padded. -/
def bboxOf (pad : ℚ) : List Pt → Option Box
  | [] => none
  | p :: points =>
    let x₀ := (points.map Pt.x).foldl min p.x
    let x₁ := (points.map Pt.x).foldl max p.x
    let y₀ := (points.map Pt.y).foldl min p.y
    let y₁ := (points.map Pt.y).foldl max p.y
    some ⟨x₀ - pad, y₀ - pad, x₁ - x₀ + 2 * pad, y₁ - y₀ + 2 * pad⟩

/-! ### Placing -/

/-- `delete moved.id` and `delete moved.parent`. -/
def bare : Js → Js
  | .obj fields => .obj (without ownKeys fields)
  | t => t

/-- A text message with another text. -/
def setText (text : String) : Js → Js
  | .obj fields => .obj (setKey "text" (.str text) fields)
  | t => t

/-- `ref.text.text.text = text` -/
def withText (text : String) : Js → Js := modifyAt (setText text) ["text", "text"]

/-- A field that the library does not have: its text is `dy` from the anchor. -/
def defaultField (name layer : String) (pos : Pt) (dy : ℤ) : Js :=
  .obj [("name", .str name), ("visible", .bool true),
    ("text", .obj [("layer", layerEnum layer),
      ("text", .obj [("text", .str ""), ("position", V ⟨pos.x, pos.y + dy⟩),
        ("attributes", .obj [("size", V ⟨1000000, 1000000⟩), ("strokeWidth", D 150000),
          ("visible", .bool true)])])])]

def nameIs (name : String) (m : Message) : Bool :=
  match look "name" m.fields with
  | .str s => s = name
  | _ => false

/-- `nick:entry`, where the entry may have colons. -/
def splitLibId (libId : String) : String × String :=
  match libId.splitOn ":" with
  | nick :: rest => (nick, ":".intercalate rest)
  | [] => ("", "")

/-- Where the items have their places. An item that has none is left out. -/
def itemPoints (pos : Pt) (items : List Message) : List Pt :=
  items.filterMap fun m =>
    match look "position" m.fields with
    | .obj v => some ⟨pos.x + ⌊num (look "xNm" v)⌋, pos.y + ⌊num (look "yNm" v)⌋⟩
    | _ => none

section Place

variable (packed : Js → List UInt8) (number : Js → Option ℚ) (known : String → Bool)

/-- The items of the definition. Their `none` is an exception, as is that of what follows. -/
def definitionItems (pos : Pt) : List Message → Option (List Js)
  | [] => some []
  | m :: items =>
    if known m.typeName then
      (translateChild packed number pos.x pos.y (.obj m.fields)).bind fun moved =>
        (definitionItems pos items).map
          (.any ("type.googleapis.com/" ++ m.typeName) (bare moved) :: ·)
    else definitionItems pos items

def fieldByName (lib : LibraryFootprint) (pos : Pt) (name : String) : Option Js :=
  match lib.fields.find? (nameIs name) with
  | none => some .undefined
  | some f =>
    (translateChild packed number pos.x pos.y (.obj f.fields)).map (modifyAt bare ["text"])

/-- `t ?? default` -/
def orElse (t fallback : Js) : Js :=
  match t with
  | .undefined => fallback
  | t => t

def instanceProto (kiid : String) (pos : Pt) (layer libId : String)
    (items : List Js) (ref val datasheet description : Js) : Js :=
  .obj [("id", .obj [("value", .str kiid)]), ("position", V pos),
    ("orientation", .obj [("valueDegrees", .num 0)]), ("layer", layerEnum layer),
    ("locked", .num 1),
    ("definition", .obj [("id", .obj [("libraryNickname", .str (splitLibId libId).1),
      ("entryName", .str (splitLibId libId).2)]), ("items", .arr items)]),
    ("referenceField", ref), ("valueField", val), ("datasheetField", datasheet),
    ("descriptionField", description)]

def makeFootprintInstance (kiid : String) (pos : Pt) (layer : String) (lib : LibraryFootprint)
    (reference : String) (value : Option String) : Option StoredItem :=
  (definitionItems packed number known pos lib.items).bind fun items =>
  (fieldByName packed number lib pos "Reference").bind fun ref =>
  (fieldByName packed number lib pos "Value").bind fun val =>
  (fieldByName packed number lib pos "Datasheet").bind fun datasheet =>
  (fieldByName packed number lib pos "Description").map fun description =>
    let ref := orElse ref (defaultField "Reference" "BL_F_SilkS" pos (-1500000))
    let ref := withText reference ref
    let val := orElse val (defaultField "Value" "BL_F_Fab" pos 1500000)
    let val := (value.elim id withText) val
    let pts := itemPoints pos lib.items
    { type := "KOT_PCB_FOOTPRINT"
      proto := instanceProto kiid pos layer lib.libId items ref val datasheet description
      bbox := bboxOf 1000000 (if pts = [] then [pos] else pts) }

end Place

/-! ### The walk of a child -/

section Walks

variable {packed : Js → List UInt8} {number : Js → Option ℚ} {dx dy : ℤ} {key : String}
  {t : Js} {fields : List (String × Js)}

lemma decoded_arr {items : List Js} : Decoded (.arr items) ↔ ∀ t ∈ items, Decoded t := by
  rw [Decoded]

lemma decoded_obj : Decoded (.obj fields) ↔
    (isNm (look "xNm" fields) = true → BigVec fields) ∧ ∀ e ∈ fields, Decoded e.2 := by
  rw [Decoded]

lemma bigVec_of_positional (h : Decoded (.obj fields)) (hpos : isPositional key fields = true) :
    BigVec fields :=
  (decoded_obj.mp h).1 (Bool.and_eq_true _ _ ▸ hpos).2

lemma isSome_walkChild (h : Decoded t) (key : String) :
    (walkChild packed number dx dy key t).isSome := by
  rw [safe_iff]
  induction t using parts_induction generalizing key with
  | harr items ih =>
    rw [Safe]
    exact fun t ht => ih t ht (decoded_arr.mp h t ht) key
  | hobj fields ih =>
    rw [Safe]
    split_ifs with hpos
    · obtain ⟨y, hy⟩ := isBig_iff.mp (bigVec_of_positional h hpos).2
      rw [hy]
      rfl
    · exact fun e he _ => ih e he ((decoded_obj.mp h).2 e he) e.1
  | hleaf t harr hobj =>
    cases t with
    | arr items => exact absurd rfl (harr items)
    | obj fields => exact absurd rfl (hobj fields)
    | _ => simp [Safe]

lemma rests_origin (h : Decoded t) (key : String) : Rests 0 0 key t := by
  induction t using parts_induction generalizing key with
  | harr items ih =>
    rw [Rests]
    exact fun t ht => ih t ht (decoded_arr.mp h t ht) key
  | hobj fields ih =>
    rw [Rests]
    split_ifs with hpos
    · exact ⟨bigVec_of_positional h hpos, rfl, rfl⟩
    · exact fun e he _ => ih e he ((decoded_obj.mp h).2 e he) e.1
  | hleaf t harr hobj =>
    cases t with
    | arr items => exact absurd rfl (harr items)
    | obj fields => exact absurd rfl (hobj fields)
    | any typeUrl message => exact absurd h (by simp [Decoded])
    | bytes data => exact absurd h (by simp [Decoded])
    | _ => simp [Rests]

/-- What the walk of a child makes of a field of an object. -/
def placedField (packed : Js → List UInt8) (number : Js → Option ℚ) (dx dy : ℤ) (key : String)
    (fields : List (String × Js)) (e : String × Js) : Js :=
  if isPositional key fields then moved dx dy fields e
  else if e.1 ∈ keptKeys then e.2
  else (walkChild packed number dx dy e.1 e.2).getD .undefined

lemma walkChild_fields (h : Decoded (.obj fields)) (hkeyed : Keyed (.obj fields)) :
    walkChild packed number dx dy key (.obj fields) =
      some (.obj (fields.map fun e => (e.1, placedField packed number dx dy key fields e))) := by
  simp only [placedField]
  by_cases hpos : isPositional key fields = true
  · rw [walkChild_vec hpos, shiftVec_of_bigVec (keyed_obj.mp hkeyed).1
      (bigVec_of_positional h hpos), setVec_shift]
    simp [hpos]
  · rw [walkChild_obj (Bool.eq_false_iff.mpr hpos), walkChildFields_iff]
    intro e he
    rw [walkChildField_iff]
    split_ifs with hkept
    · rfl
    · obtain ⟨t, ht⟩ := Option.isSome_iff_exists.mp
        (@isSome_walkChild packed number dx dy _ ((decoded_obj.mp h).2 e he) e.1)
      rw [ht, Option.getD_some]

/-! ### Edits before and after -/

/-- A change that may be made before a walk as well as after it. -/
structure Apt (e : Js → Js) : Prop where
  decoded : ∀ {t}, Decoded t → Decoded (e t)
  keyed : ∀ {t}, Keyed t → Keyed (e t)
  placed : ∀ {packed number dx dy key t t'}, Decoded t → Keyed t →
    walkChild packed number dx dy key t = some t' →
      walkChild packed number dx dy key (e t) = some (e t')
  walked : ∀ f key t, e (walk f key t) = walk f key (e t)

lemma Apt.comp {e e' : Js → Js} (h : Apt e) (h' : Apt e') : Apt (e ∘ e') where
  decoded hd := h.decoded (h'.decoded hd)
  keyed hk := h.keyed (h'.keyed hk)
  placed hd hk hw := h.placed (h'.decoded hd) (h'.keyed hk) (h'.placed hd hk hw)
  walked f key t := by rw [Function.comp_apply, h'.walked, h.walked, Function.comp_apply]

lemma placedField_congr {fields' : List (String × Js)}
    (h : ∀ k ∈ ["xNm", "yNm"], look k fields' = look k fields) (e : String × Js) :
    placedField packed number dx dy key fields' e =
      placedField packed number dx dy key fields e := by
  rw [placedField, placedField, isPositional, isPositional, moved, moved, h "xNm" (by simp),
    h "yNm" (by simp)]

lemma placedField_text (s : String) :
    placedField packed number dx dy key fields ("text", .str s) = .str s := by
  rw [placedField]
  split_ifs
  · rfl
  · rfl
  · simp [walkChild]

/-- What the walk of a move makes of a field of an object. -/
def walkedField (f : Vec2 → Vec2) (key : String) (fields : List (String × Js))
    (e : String × Js) : Js :=
  if isVec fields then
    if key ∈ nonPositional then e.2
    else if e.1 = "xNm" then like e.2 (f ⟨num (look "xNm" fields), num (look "yNm" fields)⟩).x
    else if e.1 = "yNm" then like e.2 (f ⟨num (look "xNm" fields), num (look "yNm" fields)⟩).y
    else e.2
  else walkField' f e.1 e.2

lemma walk_eq_map (f : Vec2 → Vec2) (key : String) (fields : List (String × Js)) :
    walk f key (.obj fields) =
      .obj (fields.map fun e => (e.1, walkedField f key fields e)) := by
  simp only [walkedField]
  by_cases hvec : isVec fields = true
  · by_cases hsize : key ∈ nonPositional
    · simp [walk_size hvec hsize, hvec, hsize]
    · simp [walk_vec hvec hsize, hvec, hsize, setVec]
  · rw [walk_obj' (Bool.eq_false_iff.mpr hvec)]
    simp only [hvec]
    rfl

lemma walkedField_congr {fields' : List (String × Js)} {f : Vec2 → Vec2}
    (h : ∀ k ∈ ["xNm", "yNm"], look k fields' = look k fields) (e : String × Js) :
    walkedField f key fields' e = walkedField f key fields e := by
  rw [walkedField, walkedField, isVec, isVec, h "xNm" (by simp), h "yNm" (by simp)]

lemma walkedField_text {f : Vec2 → Vec2} (s : String) :
    walkedField f key fields ("text", .str s) = .str s := by
  have hleaf : walkField' f "text" (.str s) = .str s := by exact ite_self _
  simp [walkedField, hleaf]

lemma walkChild_notObj (hd : Decoded t) (ht : ∀ fields, t ≠ .obj fields) {t' : Js}
    (h : walkChild packed number dx dy key t = some t') : ∀ fields, t' ≠ .obj fields := by
  cases t with
  | obj fields => exact absurd rfl (ht fields)
  | arr items =>
    obtain ⟨items', -, rfl⟩ := Option.map_eq_some_iff.mp h
    exact fun _ => Js.noConfusion
  | any typeUrl message => exact absurd hd (by simp [Decoded])
  | bytes data => exact absurd hd (by simp [Decoded])
  | _ =>
    cases h
    exact fun _ => Js.noConfusion

/-- A change of the fields of objects which leaves coordinates, and comes to the same before and
after a change of each field that leaves texts. -/
lemma apt_of_fields {e : Js → Js} {g : List (String × Js) → List (String × Js)}
    (hobj : ∀ fields, e (.obj fields) = .obj (g fields))
    (hleaf : ∀ t, (∀ fields, t ≠ .obj fields) → e t = t)
    (hlook : ∀ k ∈ ["xNm", "yNm"], ∀ fields, look k (g fields) = look k fields)
    (hdecoded : ∀ fields, (∀ e ∈ fields, Decoded e.2) → ∀ e ∈ g fields, Decoded e.2)
    (hkeyed : ∀ {fields}, Keyed (.obj fields) → Keyed (.obj (g fields)))
    (hmap : ∀ (h : String × Js → Js) fields, (∀ s, h ("text", .str s) = .str s) →
      g (fields.map fun e => (e.1, h e)) = (g fields).map fun e => (e.1, h e)) : Apt e := by
  have hd : ∀ {fields}, Decoded (.obj fields) → Decoded (.obj (g fields)) := by
    intro fields hd
    rw [decoded_obj, BigVec, hlook _ (by simp), hlook _ (by simp)]
    exact ⟨(decoded_obj.mp hd).1, hdecoded fields (decoded_obj.mp hd).2⟩
  refine ⟨fun {t} h => ?_, fun {t} h => ?_, fun {packed number dx dy key t t'} h hk hw => ?_,
    fun f key t => ?_⟩
  · cases t with
    | obj fields => rw [hobj]; exact hd h
    | _ => rwa [hleaf _ fun _ => Js.noConfusion]
  · cases t with
    | obj fields => rw [hobj]; exact hkeyed h
    | _ => rwa [hleaf _ fun _ => Js.noConfusion]
  · by_cases ht : ∃ fields, t = .obj fields
    · obtain ⟨fields, rfl⟩ := ht
      rw [walkChild_fields h hk, Option.some.injEq] at hw
      rw [← hw, hobj, hobj, walkChild_fields (hd h) (hkeyed hk), hmap _ _ placedField_text]
      simp [placedField_congr fun k hk => hlook k hk fields]
    · rw [not_exists] at ht
      rw [hleaf t ht, hleaf t' (walkChild_notObj h ht hw), hw]
  · by_cases ht : ∃ fields, t = .obj fields
    · obtain ⟨fields, rfl⟩ := ht
      rw [hobj, walk_eq_map, walk_eq_map, hobj, hmap _ _ walkedField_text]
      simp [walkedField_congr fun k hk => hlook k hk fields]
    · rw [not_exists] at ht
      rw [hleaf t ht, hleaf]
      cases t with
      | obj fields => exact absurd rfl (ht fields)
      | arr items => exact fun _ => Js.noConfusion
      | _ => exact fun _ => Js.noConfusion

lemma apt_bare : Apt bare := by
  refine apt_of_fields (fun _ => rfl) (fun t ht => ?_) (fun k hk fields => ?_)
    (fun fields h e he => ?_) PasteCopies.keyed_without fun h fields _ => ?_
  · cases t with
    | obj fields => exact absurd rfl (ht fields)
    | _ => rfl
  · exact PasteCopies.look_without (by revert k; decide)
  · exact h e (PasteCopies.mem_without.mp he).1
  · exact PasteCopies.without_map h

lemma setKey_map {h : String × Js → Js} {k : String} {v : Js} (hv : h (k, v) = v)
    (fields : List (String × Js)) : setKey k v (fields.map fun e => (e.1, h e)) =
      (setKey k v fields).map fun e => (e.1, h e) := by
  have hkeys : (fields.map fun e => (e.1, h e)).map Prod.fst = fields.map Prod.fst := by
    rw [List.map_map]
    rfl
  rw [setKey, setKey, hkeys]
  split_ifs
  · rw [List.map_map, List.map_map]
    refine List.map_congr_left fun e _ => ?_
    by_cases he : e.1 = k
    · subst he
      simp [hv]
    · simp [he]
  · rw [List.map_append, List.map_singleton, hv]

lemma keyed_setKey {k : String} {v : Js} (hv : Keyed v) (h : Keyed (.obj fields)) :
    Keyed (.obj (setKey k v fields)) := by
  obtain ⟨hnodup, hfields⟩ := keyed_obj.mp h
  rw [setKey]
  split_ifs with hk
  · rw [keyed_obj, List.map_map]
    refine ⟨hnodup, List.forall_mem_map.mpr fun e he => ?_⟩
    split_ifs
    · exact hv
    · exact hfields e he
  · rw [keyed_obj, List.map_append, List.nodup_append']
    refine ⟨⟨hnodup, List.nodup_singleton k, by simpa using hk⟩, fun e he => ?_⟩
    rcases List.mem_append.mp he with he | he
    · exact hfields e he
    · rw [List.mem_singleton.mp he]
      exact hv

lemma apt_setText (text : String) : Apt (setText text) := by
  refine apt_of_fields (fun _ => rfl) (fun t ht => ?_) (fun k hk fields => ?_)
    (fun fields h e he => ?_) (keyed_setKey trivial) fun h fields htext => setKey_map (htext text) _
  · cases t with
    | obj fields => exact absurd rfl (ht fields)
    | _ => rfl
  · exact look_setKey_ne (by revert k; decide) _ _
  · rw [setKey] at he
    split_ifs at he
    · obtain ⟨d, hd, rfl⟩ := List.mem_map.mp he
      split_ifs
      · simp [Decoded]
      · exact h d hd
    · rcases List.mem_append.mp he with he | he
      · exact h e he
      · rw [List.mem_singleton.mp he]
        simp [Decoded]

lemma Apt.field {e : Js → Js} {k : String} {path : List String} (h : Apt (modifyAt e path))
    (hk : k ≠ "xNm" ∧ k ≠ "yNm") : Apt (modifyAt e (k :: path)) := by
  have hd : ∀ {fields}, Decoded (.obj fields) → Decoded (modifyAt e (k :: path) (.obj fields)) := by
    intro fields hd
    obtain ⟨hbig, hfields⟩ := decoded_obj.mp hd
    rw [modifyAt_changed, decoded_obj, BigVec, look_changed hk.1.symm, look_changed hk.2.symm]
    refine ⟨hbig, List.forall_mem_map.mpr fun d hmem => ?_⟩
    rw [changed]
    split_ifs
    · exact h.decoded (hfields d hmem)
    · exact hfields d hmem
  have hkd : ∀ {fields}, Keyed (.obj fields) → Keyed (modifyAt e (k :: path) (.obj fields)) := by
    intro fields hkeyed
    obtain ⟨hnodup, hfields⟩ := keyed_obj.mp hkeyed
    rw [modifyAt_changed, keyed_obj, List.map_map]
    refine ⟨hnodup, List.forall_mem_map.mpr fun d hmem => ?_⟩
    rw [changed]
    split_ifs
    · exact h.keyed (hfields d hmem)
    · exact hfields d hmem
  have hleaf : ∀ {t}, (∀ fields, t ≠ .obj fields) → modifyAt e (k :: path) t = t := by
    intro t ht
    cases t with
    | obj fields => exact absurd rfl (ht fields)
    | _ => rfl
  refine ⟨fun {t} ht => ?_, fun {t} ht => ?_, fun {packed number dx dy key t t'} ht hkt hw => ?_,
    fun f key t => ?_⟩
  · cases t with
    | obj fields => exact hd ht
    | _ => exact ht
  · cases t with
    | obj fields => exact hkd ht
    | _ => exact ht
  · by_cases hobj : ∃ fields, t = .obj fields
    · obtain ⟨fields, rfl⟩ := hobj
      rw [walkChild_fields ht hkt, Option.some.injEq] at hw
      have hfields := hd ht
      have hkeyed := hkd hkt
      rw [modifyAt_changed] at hfields hkeyed
      rw [← hw, modifyAt_changed, modifyAt_changed, walkChild_fields hfields hkeyed, List.map_map,
        List.map_map]
      congr 2
      refine List.map_congr_left fun d hmem => ?_
      have hlook : ∀ l ∈ ["xNm", "yNm"],
          look l (fields.map fun x => (x.1, changed e k path x.1 x.2)) = look l fields := by
        intro l hl
        refine look_changed ?_ fields
        rcases List.mem_pair.mp hl with rfl | rfl
        · exact hk.1.symm
        · exact hk.2.symm
      rw [Function.comp_apply, Function.comp_apply, placedField_congr hlook, Prod.mk.injEq,
        and_iff_right rfl, changed, changed]
      by_cases hdk : d.1 = k
      · rw [if_pos hdk, if_pos hdk, placedField, placedField, moved, moved, hdk, if_neg hk.1,
          if_neg hk.1, if_neg hk.2, if_neg hk.2]
        split_ifs
        · rfl
        · rfl
        · obtain ⟨v, hv⟩ := Option.isSome_iff_exists.mp (@isSome_walkChild packed number dx dy _
            ((decoded_obj.mp ht).2 d hmem) k)
          rw [hv, h.placed ((decoded_obj.mp ht).2 d hmem) ((keyed_obj.mp hkt).2 d hmem) hv]
          rfl
      · rw [if_neg hdk, if_neg hdk]
    · rw [not_exists] at hobj
      rw [hleaf hobj, hleaf (walkChild_notObj ht hobj hw), hw]
  · refine modifyAt_walk_field hk f (fun t => ?_) key t
    rw [walkField', walkField']
    split_ifs
    · rfl
    · exact h.walked f k t

lemma Apt.along {e : Js → Js} (h : Apt e) {path : List String} (hpath : Clear path) :
    Apt (modifyAt e path) := by
  induction path with
  | nil => exact h
  | cons k path ih =>
    obtain ⟨hk, hpath⟩ := List.forall_mem_cons.mp hpath
    exact (ih hpath).field hk

/-- **A part that is placed** is moved from the origin when the walks agree on it. -/
lemma placed_part {e : Js → Js} (h : Apt e) (hd : Decoded t) (hk : Keyed t) :
    ∃ t', walkChild packed number dx dy "" t = some t' ∧
      (e t' = walk (shift dx dy) "" (e t) ↔ Agrees dx dy "" (e t)) := by
  obtain ⟨t', ht'⟩ := Option.isSome_iff_exists.mp (@isSome_walkChild packed number dx dy _ hd "")
  refine ⟨t', ht', ?_⟩
  rw [← @agrees_iff packed number dx dy _ (h.keyed hk), h.placed hd hk ht', Option.some.injEq]

end Walks

/-! ### The instance -/

section Instance

variable {packed : Js → List UInt8} {number : Js → Option ℚ} {known : String → Bool} {pos : Pt}
  {lib : LibraryFootprint} {reference : String} {value : Option String}

def origin : Pt := ⟨0, 0⟩

/-- The parts of a footprint of a library as they are placed, where they are in the library: the
items, and the fields that it has, with their texts. -/
def fieldPart (lib : LibraryFootprint) (edit : Js → Js) (name : String) : List Js :=
  ((lib.fields.find? (nameIs name)).map fun f =>
    edit (modifyAt bare ["text"] (.obj f.fields))).toList

def parts (known : String → Bool) (lib : LibraryFootprint) (reference : String)
    (value : Option String) : List Js :=
  (lib.items.filter (known ·.typeName)).map (fun m => bare (.obj m.fields)) ++
    fieldPart lib (withText reference) "Reference" ++
    fieldPart lib (value.elim id withText) "Value" ++ fieldPart lib id "Datasheet" ++
    fieldPart lib id "Description"

/-- Placing at `pos` is placing at the origin and moving, up to the id and the box. -/
def Commutes (packed : Js → List UInt8) (number : Js → Option ℚ) (known : String → Bool)
    (pos : Pt) (layer : String) (lib : LibraryFootprint) (reference : String)
    (value : Option String) : Prop :=
  ∀ kiid kiid', ∃ placed moved,
    makeFootprintInstance packed number known kiid pos layer lib reference value = some placed ∧
    (makeFootprintInstance packed number known kiid' origin layer lib reference value).map
      (translateItem · pos.x pos.y) = some moved ∧
    placed.type = moved.type ∧
    without ["id"] (entries placed.proto) = without ["id"] (entries moved.proto)

/-- A message of the library, moved. -/
def placedAt (packed : Js → List UInt8) (number : Js → Option ℚ) (pos : Pt) (m : Message) : Js :=
  (translateChild packed number pos.x pos.y (.obj m.fields)).getD .undefined

lemma translateChild_message (m : Message) : translateChild packed number pos.x pos.y
    (.obj m.fields) = some (placedAt packed number pos m) := by
  obtain ⟨t, ht⟩ := Option.isSome_iff_exists.mp
    (@isSome_walkChild packed number pos.x pos.y _ m.decoded "")
  rw [placedAt, translateChild, ht, Option.getD_some]

lemma placedAt_origin (m : Message) : placedAt packed number origin m = .obj m.fields := by
  rw [placedAt, translateChild, origin, (rests_iff m.keyed "").mpr (rests_origin m.decoded ""),
    Option.getD_some]

/-- **A message that is placed** is moved from the origin when the walks agree on it. -/
lemma placedAt_iff {e : Js → Js} (h : Apt e) (m : Message) :
    e (placedAt packed number pos m) = walk (shift pos.x pos.y) "" (e (.obj m.fields)) ↔
      Agrees pos.x pos.y "" (e (.obj m.fields)) := by
  obtain ⟨t, ht, hiff⟩ := @placed_part packed number pos.x pos.y _ _ h m.decoded m.keyed
  rwa [placedAt, translateChild, ht]

lemma definitionItems_eq (items : List Message) : definitionItems packed number known pos items =
    some ((items.filter (known ·.typeName)).map fun m =>
      .any ("type.googleapis.com/" ++ m.typeName) (bare (placedAt packed number pos m))) := by
  induction items with
  | nil => rfl
  | cons m items ih =>
    rw [definitionItems, ih, translateChild_message]
    by_cases hknown : known m.typeName = true
    · simp [hknown]
    · simp [hknown]

def fieldAt (packed : Js → List UInt8) (number : Js → Option ℚ) (lib : LibraryFootprint) (pos : Pt)
    (name : String) : Js :=
  (lib.fields.find? (nameIs name)).elim .undefined fun f =>
    modifyAt bare ["text"] (placedAt packed number pos f)

lemma fieldByName_eq (name : String) :
    fieldByName packed number lib pos name = some (fieldAt packed number lib pos name) := by
  rw [fieldByName, fieldAt]
  cases lib.fields.find? (nameIs name) with
  | none => rfl
  | some f =>
    show (translateChild packed number pos.x pos.y (.obj f.fields)).map _ = _
    rw [translateChild_message]
    rfl

lemma walk_V (p : Pt) (key : String) (hkey : key ∉ nonPositional) :
    walk (shift pos.x pos.y) key (V p) = V ⟨p.x + pos.x, p.y + pos.y⟩ := by
  have hlike : ∀ a b : ℤ, like (.big a) ((a : ℚ) + b) = .big (a + b) := by
    intro a b
    rw [like, ← Int.cast_add, Int.floor_intCast_add]
    norm_num
  have hset : setVec (shift pos.x pos.y) [("xNm", .big p.x), ("yNm", .big p.y)] =
      [("xNm", like (.big p.x) (p.x + pos.x)), ("yNm", like (.big p.y) (p.y + pos.y))] := rfl
  rw [V, walk_vec rfl hkey, hset, hlike, hlike]
  rfl

/-- A field that the library does not have is moved with the anchor. -/
lemma walk_defaultField (name layer : String) (dy : ℤ) :
    walk (shift pos.x pos.y) "" (defaultField name layer origin dy) =
      defaultField name layer pos dy := by
  have hpos : (⟨origin.x + pos.x, origin.y + dy + pos.y⟩ : Pt) = ⟨pos.x, pos.y + dy⟩ := by
    simp [origin, add_comm]
  have hanchor := @walk_V pos ⟨origin.x, origin.y + dy⟩ "position" (by decide)
  rw [hpos] at hanchor
  have htext : walk (shift pos.x pos.y) "text" (.obj [("text", .str ""),
      ("position", V ⟨origin.x, origin.y + dy⟩), ("attributes", .obj
        [("size", V ⟨1000000, 1000000⟩), ("strokeWidth", D 150000), ("visible", .bool true)])]) =
      .obj [("text", .str ""), ("position", V ⟨pos.x, pos.y + dy⟩), ("attributes", .obj
        [("size", V ⟨1000000, 1000000⟩), ("strokeWidth", D 150000), ("visible", .bool true)])] := by
    rw [walk_obj' rfl]
    simp only [List.map_cons, List.map_nil, walkField']
    rw [hanchor]
    rfl
  rw [defaultField, walk_obj' rfl]
  simp only [List.map_cons, List.map_nil, walkField']
  rw [walk_obj' rfl]
  simp only [List.map_cons, List.map_nil, walkField']
  rw [htext]
  rfl

/-- A footprint at the origin, moved. -/
lemma translateItem_instance (kiid layer libId : String) (items : List Js)
    (ref val datasheet description : Js) (bbox : Option Box) :
    (translateItem ⟨"KOT_PCB_FOOTPRINT",
      instanceProto kiid origin layer libId items ref val datasheet description, bbox⟩
        pos.x pos.y).proto =
      instanceProto kiid pos layer libId (items.map (editItem (walk (shift pos.x pos.y) "")))
        (walk (shift pos.x pos.y) "" ref) (walk (shift pos.x pos.y) "" val)
        (walk (shift pos.x pos.y) "" datasheet) (walk (shift pos.x pos.y) "" description) := by
  have hanchor := @walk_V pos origin "position" (by decide)
  have hpos : (⟨origin.x + pos.x, origin.y + pos.y⟩ : Pt) = pos := by simp [origin]
  rw [hpos] at hanchor
  have hkey : ∀ key, key ∉ nonPositional → ∀ t,
      walk (shift pos.x pos.y) key t = walk (shift pos.x pos.y) "" t :=
    fun key h t => PasteCopies.walk_key h (by decide) t
  have hwalk : walk (shift pos.x pos.y) "" (instanceProto kiid origin layer libId items ref val
      datasheet description) = instanceProto kiid pos layer libId items
        (walk (shift pos.x pos.y) "" ref) (walk (shift pos.x pos.y) "" val)
        (walk (shift pos.x pos.y) "" datasheet) (walk (shift pos.x pos.y) "" description) := by
    rw [instanceProto, walk_obj' rfl]
    simp only [List.map_cons, List.map_nil, walkField', String.reduceEq, if_false, if_true]
    rw [hanchor, hkey "referenceField" (by decide), hkey "valueField" (by decide),
      hkey "datasheetField" (by decide), hkey "descriptionField" (by decide)]
    rfl
  have hproto : ∀ proto bbox, (translateItem ⟨"KOT_PCB_FOOTPRINT", proto, bbox⟩ pos.x pos.y).proto =
      mapDefinitionItems (walk (shift pos.x pos.y) "") (walk (shift pos.x pos.y) "" proto) :=
    fun _ _ => rfl
  rw [hproto, hwalk, mapDefinitionItems]
  simp [instanceProto, modifyAt, List.map_cons, List.map_nil, String.reduceEq]

lemma apt_withText (text : String) : Apt (withText text) := (apt_setText text).along (by decide)

lemma apt_bareText : Apt (modifyAt bare ["text"]) := apt_bare.along (by decide)

lemma apt_value (value : Option String) : Apt (value.elim id withText) := by
  cases value with
  | none => exact ⟨fun h => h, fun h => h, fun _ _ h => h, fun _ _ _ => rfl⟩
  | some text => exact apt_withText text

lemma field_iff {e : Js → Js} (h : Apt e) (f : Message) :
    e (modifyAt bare ["text"] (placedAt packed number pos f)) =
        walk (shift pos.x pos.y) "" (e (modifyAt bare ["text"] (placedAt packed number origin f))) ↔
      Agrees pos.x pos.y "" (e (modifyAt bare ["text"] (.obj f.fields))) := by
  rw [placedAt_origin]
  exact placedAt_iff (h.comp apt_bareText) f

lemma orElse_placed (f : Message) (fallback : Js) :
    orElse (modifyAt bare ["text"] (placedAt packed number pos f)) fallback =
      modifyAt bare ["text"] (placedAt packed number pos f) := by
  rw [placedAt, translateChild, walkChild_fields f.decoded f.keyed]
  rfl

lemma fieldOr_iff {e : Js → Js} (h : Apt e) (name layer : String) (dy : ℤ) :
    e (orElse (fieldAt packed number lib pos name) (defaultField name layer pos dy)) =
        walk (shift pos.x pos.y) ""
          (e (orElse (fieldAt packed number lib origin name) (defaultField name layer origin dy))) ↔
      ∀ t ∈ fieldPart lib e name, Agrees pos.x pos.y "" t := by
  rw [fieldAt, fieldAt, fieldPart]
  cases lib.fields.find? (nameIs name) with
  | none =>
    refine iff_of_true ?_ fun t ht => absurd ht List.not_mem_nil
    show e (defaultField name layer pos dy) =
      walk (shift pos.x pos.y) "" (e (defaultField name layer origin dy))
    rw [← h.walked, walk_defaultField]
  | some f =>
    show e (orElse (modifyAt bare ["text"] (placedAt packed number pos f)) _) =
      walk (shift pos.x pos.y) ""
        (e (orElse (modifyAt bare ["text"] (placedAt packed number origin f)) _)) ↔ _
    rw [orElse_placed, orElse_placed, field_iff h]
    exact List.forall_mem_singleton.symm

lemma fieldAt_iff (name : String) : fieldAt packed number lib pos name =
      walk (shift pos.x pos.y) "" (fieldAt packed number lib origin name) ↔
    ∀ t ∈ fieldPart lib id name, Agrees pos.x pos.y "" t := by
  rw [fieldAt, fieldAt, fieldPart]
  cases lib.fields.find? (nameIs name) with
  | none => exact iff_of_true rfl fun t ht => absurd ht List.not_mem_nil
  | some f => exact (field_iff (apt_value none) f).trans List.forall_mem_singleton.symm

lemma items_iff (items : List Message) :
    (items.map fun m =>
        Js.any ("type.googleapis.com/" ++ m.typeName) (bare (placedAt packed number pos m))) =
      (items.map fun m => Js.any ("type.googleapis.com/" ++ m.typeName)
        (bare (placedAt packed number origin m))).map (editItem (walk (shift pos.x pos.y) "")) ↔
      ∀ t ∈ items.map fun m => bare (.obj m.fields), Agrees pos.x pos.y "" t := by
  rw [List.map_map, List.map_inj_left, List.forall_mem_map]
  refine forall₂_congr fun m _ => ?_
  rw [Function.comp_apply, placedAt_origin, ← @placedAt_iff packed number pos _ apt_bare m]
  show _ = Js.any _ _ ↔ _
  rw [Js.any.injEq, and_iff_right rfl]

lemma makeFootprintInstance_eq (kiid layer : String) :
    makeFootprintInstance packed number known kiid pos layer lib reference value =
      some ⟨"KOT_PCB_FOOTPRINT", instanceProto kiid pos layer lib.libId
        ((lib.items.filter (known ·.typeName)).map fun m =>
          .any ("type.googleapis.com/" ++ m.typeName) (bare (placedAt packed number pos m)))
        (withText reference (orElse (fieldAt packed number lib pos "Reference")
          (defaultField "Reference" "BL_F_SilkS" pos (-1500000))))
        (value.elim id withText (orElse (fieldAt packed number lib pos "Value")
          (defaultField "Value" "BL_F_Fab" pos 1500000)))
        (fieldAt packed number lib pos "Datasheet")
        (fieldAt packed number lib pos "Description"),
        bboxOf 1000000
          (if itemPoints pos lib.items = [] then [pos] else itemPoints pos lib.items)⟩ := by
  rw [makeFootprintInstance, definitionItems_eq, fieldByName_eq, fieldByName_eq, fieldByName_eq,
    fieldByName_eq]
  rfl

lemma without_id_iff {kiid kiid' layer libId : String} {items items' : List Js}
    {ref ref' val val' datasheet datasheet' description description' : Js} :
    without ["id"] (entries
        (instanceProto kiid pos layer libId items ref val datasheet description)) =
      without ["id"] (entries
        (instanceProto kiid' pos layer libId items' ref' val' datasheet' description')) ↔
      items = items' ∧ ref = ref' ∧ val = val' ∧ datasheet = datasheet' ∧
        description = description' := by
  simp [instanceProto, entries, without]

/-- Two instances, by their parts. -/
lemma placed_iff (kiid kiid' layer : String) :
    (∃ placed moved,
      makeFootprintInstance packed number known kiid pos layer lib reference value = some placed ∧
      (makeFootprintInstance packed number known kiid' origin layer lib reference value).map
        (translateItem · pos.x pos.y) = some moved ∧
      placed.type = moved.type ∧
      without ["id"] (entries placed.proto) = without ["id"] (entries moved.proto)) ↔
    ∀ t ∈ parts known lib reference value, Agrees pos.x pos.y "" t := by
  rw [parts, List.forall_mem_append, List.forall_mem_append, List.forall_mem_append,
    List.forall_mem_append, and_assoc, and_assoc, and_assoc, ← @items_iff packed number,
    ← @fieldOr_iff packed number pos lib _ (apt_withText reference) "Reference" "BL_F_SilkS"
      (-1500000), ← @fieldOr_iff packed number pos lib _ (apt_value value) "Value" "BL_F_Fab"
      1500000, ← @fieldAt_iff packed number, ← @fieldAt_iff packed number,
    makeFootprintInstance_eq, makeFootprintInstance_eq]
  constructor
  · rintro ⟨placed, moved, hplaced, hmoved, -, hproto⟩
    cases hplaced
    cases hmoved
    rw [translateItem_instance] at hproto
    exact without_id_iff.mp hproto
  · intro h
    refine ⟨_, _, rfl, rfl, rfl, ?_⟩
    rw [translateItem_instance]
    exact without_id_iff.mpr h

end Instance

/-- **When placing commutes with moving**: if and only if the walk that places and the walk that
moves agree on every part of the footprint as it is placed. -/
theorem commutes_iff (packed : Js → List UInt8) (number : Js → Option ℚ) (known : String → Bool)
    (pos : Pt) (layer : String) (lib : LibraryFootprint) (reference : String)
    (value : Option String) : Commutes packed number known pos layer lib reference value ↔
      ∀ t ∈ parts known lib reference value, Agrees pos.x pos.y "" t :=
  ⟨fun h => (placed_iff "" "" layer).mp (h "" ""), fun h kiid kiid' =>
    (placed_iff kiid kiid' layer).mpr h⟩

/-- A point of an outline. -/
def node (p : Pt) : Js := .obj [("geometry", .obj [("case", .str "point"), ("value", V p)])]

def triangle : Js :=
  .obj [("geometry", .obj [("case", .str "polygon"), ("value", .obj [("polygons",
    .arr [.obj [("outline", .obj [("nodes", .arr ([⟨0, 0⟩, ⟨5, 0⟩, ⟨0, 5⟩].map node)),
      ("closed", .bool true)]), ("holes", .arr [])]])])])]

/-- A filled triangle on the silkscreen. -/
def triangleShape : Message where
  typeName := "kiapi.board.types.BoardGraphicShape"
  fields := [("layer", layerEnum "BL_F_SilkS"), ("shape", triangle)]
  keyed := by simp [Keyed, KeyedFields, KeyedField, KeyedItems, triangle, node, V, layerEnum]
  decoded := by simp [Decoded, triangle, node, V, layerEnum, look, BigVec, IsBig, List.lookup_cons, isNm]

def arrow : LibraryFootprint := ⟨"Symbols:Arrow", [triangleShape], []⟩

lemma agrees_field {dx dy : ℤ} {key k : String} {fields : List (String × Js)} {t : Js}
    (h : Agrees dx dy key (.obj fields)) (hkey : key ∉ positional)
    (hvec : isVec fields = false) (hmem : (k, t) ∈ fields) (hkept : k ∉ keptKeys)
    (hdef : k ≠ "definition") : Agrees dx dy k t := by
  rw [Agrees, isPositional, decide_eq_false hkey, hvec] at h
  have hfield := h _ hmem
  rwa [if_neg hkept, if_neg hdef] at hfield

/-- The points of a polygon stay at the origin. -/
theorem triangle_left : ¬ Commutes (fun _ => []) (fun _ => none) (fun _ => true) ⟨10, 20⟩ "BL_F_Cu"
    arrow "REF1" none := by
  intro h
  have hagrees : Agrees 10 20 "" (bare (.obj triangleShape.fields)) :=
    (placed_iff "" "" "BL_F_Cu").mp (h "" "") _ List.mem_cons_self
  have hshape : Agrees 10 20 "shape" triangle :=
    agrees_field hagrees (by decide) rfl (by simp [triangleShape, without, ownKeys]) (by decide)
      (by decide)
  have hgeometry := agrees_field hshape (by decide) rfl List.mem_cons_self (by decide) (by decide)
  have hvalue := agrees_field hgeometry (by decide) rfl (List.mem_cons_of_mem _ List.mem_cons_self)
    (by decide) (by decide)
  have hpolygons := agrees_field hvalue (by decide) rfl List.mem_cons_self (by decide) (by decide)
  rw [Agrees] at hpolygons
  have houtline := agrees_field (hpolygons _ List.mem_cons_self) (by decide) rfl
    List.mem_cons_self (by decide) (by decide)
  have hnodes := agrees_field houtline (by decide) rfl List.mem_cons_self (by decide) (by decide)
  rw [Agrees] at hnodes
  have hnode := agrees_field (hnodes (node ⟨0, 0⟩) List.mem_cons_self) (by decide) rfl
    List.mem_cons_self (by decide) (by decide)
  have hpoint : Agrees 10 20 "value" (V ⟨0, 0⟩) := agrees_field hnode (by decide) rfl
    (List.mem_cons_of_mem _ List.mem_cons_self) (by decide) (by decide)
  rw [V, Agrees] at hpoint
  rcases hpoint.1 with hsize | hstill
  · exact absurd hsize (by decide)
  · exact absurd hstill.1.1 (by decide)

end FabPcb.FootprintPlacement
