import FabPcb.ApplyNetlist
import Mathlib.Data.Rat.Floor

/-!
The netlist as a file: `checkNetlistJson`, which stands for the types `Netlist`, `BoardSpec` and
`LibrarySpec`.

The checker is put together of checks that each give diagnostics, the types are predicates of JSON
values, and each check is clean where its predicate holds. For two of them the predicate is not
that of the type: the points of an outline may lack coordinates, and a pin that is left
unconnected is checked as a pin of a net.

`nm` stands for `Math.round(mm(v))`, and `quote` for `JSON.stringify` of a text.
-/

namespace FabPcb.NetlistJson

open ApplyNetlist (Severity)

/-! ### JSON -/

/-- A number is infinite where it is `none`, as `1e999` is. -/
inductive Json where
  | null
  | bool (b : Bool)
  | num (v : Option ℚ)
  | str (s : String)
  | arr (items : List Json)
  | obj (fields : List (String × Json))

/-- `v?.[key]` of a record. What is `none` is undefined. -/
def field (v : Option Json) (key : String) : Option Json :=
  match v with
  | some (.obj fields) => fields.lookup key
  | _ => none

def items (v : Option Json) : List Json :=
  match v with
  | some (.arr items) => items
  | _ => []

/-! ### The checks -/

structure Diagnostic where
  severity : Severity
  stage : String
  code : String
  file : String
  message : String

abbrev Check := Option Json → String → List Diagnostic

section Checks

variable (file : String)

def error (path message code : String) : List Diagnostic :=
  [⟨.error, "frontend", code, file, path ++ ": " ++ message⟩]

def badShape (path message : String) : List Diagnostic := error file path message "bad_shape"

def str (required : Bool) : Check := fun v path =>
  match v with
  | none => if required then badShape file path "is required" else []
  | some (.str _) => []
  | some _ => badShape file path "must be a string"

def num (required : Bool) : Check := fun v path =>
  match v with
  | none => if required then badShape file path "is required" else []
  | some (.num (some _)) => []
  | some _ => badShape file path "must be a finite number"

def arr (each : Check) : Check := fun v path =>
  match v with
  | some (.arr items) => (items.mapIdx fun i item => each (some item) s!"{path}/{i}").flatten
  | _ => badShape file path "must be an array"

def obj (fields : List (String × Check)) (required : Bool) : Check := fun v path =>
  match v with
  | none => if required then badShape file path "must be an object" else []
  | some (.obj o) => fields.flatMap fun e => e.2 (o.lookup e.1) s!"{path}/{e.1}"
  | some _ => badShape file path "must be an object"

/-- `(v, path) => v !== undefined && check(v, path)` -/
def given (check : Check) : Check := fun v path =>
  match v with
  | none => []
  | some v => check (some v) path

def extraFields : Check := fun v path =>
  match v with
  | some (.obj o) => o.flatMap fun e => str file true (some e.2) s!"{path}/{e.1}"
  | _ => badShape file path "must be an object of strings"

def component : Check :=
  obj file [("ref", str file true), ("value", str file true), ("footprint", str file true),
    ("uuid", str file false), ("fields", given (extraFields file)),
    ("libSource", obj file [("lib", str file true), ("part", str file true),
      ("description", str file false)] false)] true

def node : Check :=
  obj file [("ref", str file true), ("pin", str file true), ("pinFunction", str file false),
    ("pinType", str file false)] true

def net : Check :=
  obj file [("name", str file true), ("code", num file false), ("nodes", arr file (node file))] true

def point : Check := obj file [("x", num file false), ("y", num file false)] true

def axis (key : String) (o : List (String × Json)) (path : String) : List Diagnostic :=
  match o.lookup key with
  | some (.num (some _)) => []
  | _ => error file s!"{path}/{key}" "must be a finite number" "bad_placement_position"

def position : Check := fun v path =>
  match v with
  | some (.obj o) => axis file "x" o path ++ axis file "y" o path
  | _ =>
    error file path "use position: \x7bx, y\x7d in mm; x and y must be finite numbers"
      "bad_placement_position"

def ownAxis (key : String) (o : List (String × Json)) (path : String) : List Diagnostic :=
  if key ∈ o.map Prod.fst then
    error file s!"{path}/{key}" "unknown placement field; use position: \x7bx, y\x7d in mm"
      "bad_placement_position"
  else []

def placement : Check := fun v path =>
  obj file [("ref", str file true), ("position", position file)] true v path ++
    match v with
    | some (.obj o) => ownAxis file "x" o path ++ ownAxis file "y" o path
    | _ => []

def libraryKind : Check := fun v path =>
  match v with
  | some (.str s) =>
    if s ≠ "footprint" ∧ s ≠ "symbol" then
      badShape file path "must be \"footprint\" or \"symbol\""
    else []
  | _ => badShape file path "must be \"footprint\" or \"symbol\""

def library : Check :=
  obj file [("kind", libraryKind file), ("nickname", str file true), ("uri", str file true),
    ("description", str file false)] true

def netlist : Check :=
  obj file [("components", arr file (component file)), ("nets", arr file (net file)),
    ("noConnects", given (arr file (node file))),
    ("design", obj file [("source", str file false), ("date", str file false),
      ("tool", str file false)] false)] true

def board : Check :=
  obj file [("outline", given (arr file (point file))), ("widthMm", num file false),
    ("heightMm", num file false), ("copperLayers", num file false),
    ("rules", obj file [("clearanceMm", num file false), ("trackWidthMm", num file false),
      ("viaDiameterMm", num file false), ("viaDrillMm", num file false)] false),
    ("vias", given (arr file (obj file [("x", num file true), ("y", num file true),
      ("diameterMm", num file false), ("drillMm", num file false)] true))),
    ("holes", given (arr file (obj file [("x", num file true), ("y", num file true),
      ("diameterMm", num file true)] true))),
    ("placements", given (arr file (placement file)))] false

def shape : Check :=
  obj file [("netlist", netlist file), ("board", board file),
    ("libraries", given (arr file (library file)))] true

/-- The references of the components that have one. -/
def componentRefs (components : List Json) : List String :=
  components.filterMap fun c =>
    match field (some c) "ref" with
    | some (.str ref) => some ref
    | _ => none

def unknownReference (quote : String → String) (refs : List String) (index : ℕ)
    (candidate : Json) : List Diagnostic :=
  match field (some candidate) "ref" with
  | some (.str ref) =>
    if ref ∈ refs then []
    else error file s!"/board/placements/{index}/ref"
      ("unknown component reference " ++ quote ref) "unknown_placement_reference"
  | _ => []

def unknownReferences (quote : String → String) (value : Json) : List Diagnostic :=
  match field (field (some value) "netlist") "components",
    field (field (some value) "board") "placements" with
  | some (.arr components), some (.arr placements) =>
    (placements.mapIdx (unknownReference file quote (componentRefs components))).flatten
  | _, _ => []

structure Checked where
  file : Option Json
  diagnostics : List Diagnostic

def checkNetlistJson (quote : String → String) (value : Json) : Checked :=
  let diagnostics := shape file (some value) "" ++ unknownReferences file quote value
  ⟨if diagnostics = [] then some value else none, diagnostics⟩

end Checks

/-! ### The declared types -/

/-- A field that is required. -/
def Needed (p : Json → Prop) : Option Json → Prop
  | none => False
  | some v => p v

/-- A field that is optional. -/
def Maybe (p : Json → Prop) : Option Json → Prop
  | none => True
  | some v => p v

def IsString : Json → Prop
  | .str _ => True
  | _ => False

def IsNumber : Json → Prop
  | .num (some _) => True
  | _ => False

def ArrayOf (p : Json → Prop) : Json → Prop
  | .arr items => ∀ v ∈ items, p v
  | _ => False

/-- `Record<string, T>` -/
def RecordOf (p : Json → Prop) : Json → Prop
  | .obj o => ∀ e ∈ o, p e.2
  | _ => False

/-- What an interface says of each field by its name. -/
def Interface (p : (String → Option Json) → Prop) : Json → Prop
  | .obj o => p fun key => o.lookup key
  | _ => False

def IsLibSource : Json → Prop := Interface fun o =>
  Needed IsString (o "lib") ∧ Needed IsString (o "part") ∧ Maybe IsString (o "description")

def IsComponent : Json → Prop := Interface fun o =>
  Needed IsString (o "ref") ∧ Needed IsString (o "value") ∧ Needed IsString (o "footprint") ∧
    Maybe IsLibSource (o "libSource") ∧ Maybe (RecordOf IsString) (o "fields") ∧
    Maybe IsString (o "uuid")

def IsNode : Json → Prop := Interface fun o =>
  Needed IsString (o "ref") ∧ Needed IsString (o "pin") ∧ Maybe IsString (o "pinFunction") ∧
    Maybe IsString (o "pinType")

def IsNoConnect : Json → Prop := Interface fun o =>
  Needed IsString (o "ref") ∧ Needed IsString (o "pin")

def IsNet : Json → Prop := Interface fun o =>
  Needed IsString (o "name") ∧ Maybe IsNumber (o "code") ∧ Needed (ArrayOf IsNode) (o "nodes")

def IsDesign : Json → Prop := Interface fun o =>
  Maybe IsString (o "source") ∧ Maybe IsString (o "date") ∧ Maybe IsString (o "tool")

def IsPoint : Json → Prop := Interface fun o => Needed IsNumber (o "x") ∧ Needed IsNumber (o "y")

def IsRules : Json → Prop := Interface fun o =>
  Maybe IsNumber (o "clearanceMm") ∧ Maybe IsNumber (o "trackWidthMm") ∧
    Maybe IsNumber (o "viaDiameterMm") ∧ Maybe IsNumber (o "viaDrillMm")

def IsPrefabVia : Json → Prop := Interface fun o =>
  Needed IsNumber (o "x") ∧ Needed IsNumber (o "y") ∧ Maybe IsNumber (o "diameterMm") ∧
    Maybe IsNumber (o "drillMm")

def IsPrefabHole : Json → Prop := Interface fun o =>
  Needed IsNumber (o "x") ∧ Needed IsNumber (o "y") ∧ Needed IsNumber (o "diameterMm")

def IsPlacement : Json → Prop := Interface fun o =>
  Needed IsString (o "ref") ∧ Needed IsPoint (o "position")

def IsLibraryKind : Json → Prop
  | .str s => s = "footprint" ∨ s = "symbol"
  | _ => False

def IsLibrary : Json → Prop := Interface fun o =>
  Needed IsLibraryKind (o "kind") ∧ Needed IsString (o "nickname") ∧ Needed IsString (o "uri") ∧
    Maybe IsString (o "description")

section Files

variable (Point Placement NoConnect : Json → Prop)

def IsNetlist : Json → Prop := Interface fun o =>
  Needed (ArrayOf IsComponent) (o "components") ∧ Needed (ArrayOf IsNet) (o "nets") ∧
    Maybe (ArrayOf NoConnect) (o "noConnects") ∧ Maybe IsDesign (o "design")

def IsBoardSpec : Json → Prop := Interface fun o =>
  Maybe (ArrayOf Point) (o "outline") ∧ Maybe IsNumber (o "widthMm") ∧
    Maybe IsNumber (o "heightMm") ∧ Maybe IsNumber (o "copperLayers") ∧
    Maybe IsRules (o "rules") ∧ Maybe (ArrayOf IsPrefabVia) (o "vias") ∧
    Maybe (ArrayOf IsPrefabHole) (o "holes") ∧ Maybe (ArrayOf Placement) (o "placements")

/-- A file, of points, placements and unconnected pins that are to be said. -/
def IsFile : Json → Prop := Interface fun o =>
  Needed (IsNetlist NoConnect) (o "netlist") ∧ Maybe (IsBoardSpec Point Placement) (o "board") ∧
    Maybe (ArrayOf IsLibrary) (o "libraries")

end Files

def placements (value : Json) : List Json := items (field (field (some value) "board") "placements")

def components (value : Json) : List Json :=
  items (field (field (some value) "netlist") "components")

/-- No placement has an x or y of its own, and each names a component. -/
structure PlacementsNamed (value : Json) : Prop where
  bare : ∀ v ∈ placements value, ∀ key ∈ ["x", "y"], field (some v) key = none
  named : ∀ v ∈ placements value, ∀ ref, field (some v) "ref" = some (.str ref) →
    ref ∈ componentRefs (components value)

/-- What a file is to be. -/
structure WellTyped (value : Json) : Prop where
  file : IsFile IsPoint IsPlacement IsNoConnect value
  placements : PlacementsNamed value

/-! ### What is read of a file -/

section Coordinates

variable (nm : ℚ → ℤ)

/-- A coordinate in nanometres, of what is a number; any other is `none`, as NaN is. -/
def coordinate (f : ℚ → ℤ) : Option Json → Option ℤ
  | some (.num (some v)) => some (f v)
  | _ => none

def pointOf (v : Option Json) : Option ℤ × Option ℤ :=
  (coordinate nm (field v "x"), coordinate nm (field v "y"))

/-- A size, when there is one and it is not zero. -/
def extentOf (v : Option Json) : Option ℚ :=
  match v with
  | some (.num (some v)) => if v = 0 then none else some v
  | _ => none

def outlinePoints (spec : Option Json) : List (Option ℤ × Option ℤ) :=
  if items (field spec "outline") = [] then
    match extentOf (field spec "widthMm"), extentOf (field spec "heightMm") with
    | some w, some h =>
      [(some 0, some 0), (some (nm w), some 0), (some (nm w), some (nm h)), (some 0, some (nm h))]
    | _, _ => []
  else (items (field spec "outline")).map fun p => pointOf nm (some p)

/-- The centre of a hole, and a point on its rim. -/
def holePoints (hole : Json) : List (Option ℤ × Option ℤ) :=
  let c := pointOf nm (some hole)
  let r := coordinate (fun d => nm (d / 2)) (field (some hole) "diameterMm")
  [c, (c.1.bind fun x => r.map (x + ·), c.2)]

/-- Every place that is computed of a file: the outline, vias and holes, and where footprints
are put. -/
def appliedPoints (value : Json) : List (Option ℤ × Option ℤ) :=
  let spec := field (some value) "board"
  outlinePoints nm spec ++ (items (field spec "vias")).map (fun v => pointOf nm (some v)) ++
    (items (field spec "holes")).flatMap (holePoints nm) ++
    (placements value).map fun p => pointOf nm (field (some p) "position")

end Coordinates

/-! ### What each check finds -/

/-- A check finds nothing where its predicate holds, and something elsewhere. -/
def Clean (check : Check) (p : Option Json → Prop) : Prop := ∀ v path, check v path = [] ↔ p v

section Clean

variable {file : String} {check : Check} {p : Json → Prop}

lemma error_ne_nil (path message code : String) : error file path message code ≠ [] :=
  List.cons_ne_nil _ _

lemma badShape_ne_nil (path message : String) : badShape file path message ≠ [] :=
  List.cons_ne_nil _ _

lemma clean_str_needed : Clean (str file true) (Needed IsString) := by
  intro v path
  rcases v with _ | v
  · exact iff_of_false (badShape_ne_nil _ _) id
  · cases v with
    | str s => exact iff_of_true rfl trivial
    | _ => exact iff_of_false (badShape_ne_nil _ _) id

lemma clean_str_maybe : Clean (str file false) (Maybe IsString) := by
  intro v path
  rcases v with _ | v
  · exact iff_of_true rfl trivial
  · cases v with
    | str s => exact iff_of_true rfl trivial
    | _ => exact iff_of_false (badShape_ne_nil _ _) id

lemma num_some (required : Bool) (v : Json) (path : String) :
    num file required (some v) path = [] ↔ IsNumber v := by
  cases v with
  | num v =>
    cases v with
    | some v => exact iff_of_true rfl trivial
    | none => exact iff_of_false (badShape_ne_nil _ _) id
  | _ => exact iff_of_false (badShape_ne_nil _ _) id

lemma clean_num_needed : Clean (num file true) (Needed IsNumber) := by
  intro v path
  rcases v with _ | v
  · exact iff_of_false (badShape_ne_nil _ _) id
  · exact num_some true v path

lemma clean_num_maybe : Clean (num file false) (Maybe IsNumber) := by
  intro v path
  rcases v with _ | v
  · exact iff_of_true rfl trivial
  · exact num_some false v path

lemma mapIdx_flatten_eq_nil {α : Type} {f : ℕ → α → List Diagnostic} {q : α → Prop} {as : List α}
    (h : ∀ i, ∀ a ∈ as, f i a = [] ↔ q a) : (as.mapIdx f).flatten = [] ↔ ∀ a ∈ as, q a := by
  rw [List.flatten_eq_nil_iff]
  constructor
  · intro hnil a ha
    obtain ⟨i, hi, rfl⟩ := List.getElem_of_mem ha
    exact (h i _ ha).mp (hnil _ (List.mem_mapIdx.mpr ⟨i, hi, rfl⟩))
  · intro hq l hl
    obtain ⟨i, hi, rfl⟩ := List.mem_mapIdx.mp hl
    exact (h i _ (List.getElem_mem hi)).mpr (hq _ (List.getElem_mem hi))

lemma clean_arr (h : Clean check (Needed p)) : Clean (arr file check) (Needed (ArrayOf p)) := by
  intro v path
  rcases v with _ | v
  · exact iff_of_false (badShape_ne_nil _ _) id
  · cases v with
    | arr items => exact mapIdx_flatten_eq_nil fun i v _ => h (some v) _
    | _ => exact iff_of_false (badShape_ne_nil _ _) id

lemma clean_given (h : Clean check (Needed p)) : Clean (given check) (Maybe p) := by
  intro v path
  rcases v with _ | v
  · exact iff_of_true rfl trivial
  · exact h (some v) path

lemma obj_some {fields : List (String × Check)} {q : (String → Option Json) → Prop}
    (h : ∀ (o : String → Option Json) (path : String),
      (∀ e ∈ fields, e.2 (o e.1) s!"{path}/{e.1}" = []) ↔ q o)
    (required : Bool) (v : Json) (path : String) :
    obj file fields required (some v) path = [] ↔ Interface q v := by
  cases v with
  | obj o =>
    show fields.flatMap _ = [] ↔ q fun key => o.lookup key
    rw [List.flatMap_eq_nil_iff]
    exact h (fun key => o.lookup key) path
  | _ => exact iff_of_false (badShape_ne_nil _ _) id

lemma clean_obj_needed {fields : List (String × Check)} {q : (String → Option Json) → Prop}
    (h : ∀ (o : String → Option Json) (path : String),
      (∀ e ∈ fields, e.2 (o e.1) s!"{path}/{e.1}" = []) ↔ q o) :
    Clean (obj file fields true) (Needed (Interface q)) := by
  intro v path
  rcases v with _ | v
  · exact iff_of_false (badShape_ne_nil _ _) id
  · exact obj_some h true v path

lemma clean_obj_maybe {fields : List (String × Check)} {q : (String → Option Json) → Prop}
    (h : ∀ (o : String → Option Json) (path : String),
      (∀ e ∈ fields, e.2 (o e.1) s!"{path}/{e.1}" = []) ↔ q o) :
    Clean (obj file fields false) (Maybe (Interface q)) := by
  intro v path
  rcases v with _ | v
  · exact iff_of_true rfl trivial
  · exact obj_some h false v path

lemma each_nil {q : String × Check → Prop} : (∀ e ∈ ([] : List (String × Check)), q e) ↔ True :=
  iff_true_intro fun _ h => absurd h List.not_mem_nil

lemma clean_libSource : Clean (obj file [("lib", str file true), ("part", str file true),
    ("description", str file false)] false) (Maybe IsLibSource) :=
  clean_obj_maybe fun o path => by
    simp [clean_str_needed _ _, clean_str_maybe _ _]

lemma clean_extraFields : Clean (extraFields file) (Needed (RecordOf IsString)) := by
  intro v path
  rcases v with _ | v
  · exact iff_of_false (badShape_ne_nil _ _) id
  · cases v with
    | obj o =>
      show o.flatMap _ = [] ↔ ∀ e ∈ o, IsString e.2
      rw [List.flatMap_eq_nil_iff]
      exact forall₂_congr fun e _ => clean_str_needed (some e.2) _
    | _ => exact iff_of_false (badShape_ne_nil _ _) id

lemma clean_component : Clean (component file) (Needed IsComponent) :=
  clean_obj_needed fun o path => by
    simp only [List.forall_mem_cons, each_nil, clean_str_needed _ _, clean_str_maybe _ _,
      clean_given clean_extraFields _ _, clean_libSource _ _, and_true]
    tauto

lemma clean_node : Clean (node file) (Needed IsNode) :=
  clean_obj_needed fun o path => by
    simp [clean_str_needed _ _, clean_str_maybe _ _]

lemma clean_net : Clean (net file) (Needed IsNet) :=
  clean_obj_needed fun o path => by
    simp [clean_str_needed _ _, clean_num_maybe _ _,
      clean_arr clean_node _ _]

/-- A point as it is checked. -/
def LoosePoint : Json → Prop := Interface fun o => Maybe IsNumber (o "x") ∧ Maybe IsNumber (o "y")

lemma clean_point : Clean (point file) (Needed LoosePoint) :=
  clean_obj_needed fun o path => by
    simp [clean_num_maybe _ _]

lemma axis_nil (key : String) (o : List (String × Json)) (path : String) :
    axis file key o path = [] ↔ Needed IsNumber (o.lookup key) := by
  rw [axis]
  rcases o.lookup key with _ | v
  · exact iff_of_false (error_ne_nil _ _ _) id
  · cases v with
    | num v =>
      cases v with
      | some v => exact iff_of_true rfl trivial
      | none => exact iff_of_false (error_ne_nil _ _ _) id
    | _ => exact iff_of_false (error_ne_nil _ _ _) id

lemma clean_position : Clean (position file) (Needed IsPoint) := by
  intro v path
  rcases v with _ | v
  · exact iff_of_false (error_ne_nil _ _ _) id
  · cases v with
    | obj o =>
      show axis file "x" o path ++ axis file "y" o path = [] ↔ _ ∧ _
      rw [List.append_eq_nil_iff, axis_nil, axis_nil]
    | _ => exact iff_of_false (error_ne_nil _ _ _) id

lemma ownAxis_nil (key : String) (o : List (String × Json)) (path : String) :
    ownAxis file key o path = [] ↔ field (some (.obj o)) key = none := by
  rw [ownAxis, field, List.lookup_eq_none_iff]
  split_ifs with hkey
  · obtain ⟨e, he, rfl⟩ := List.mem_map.mp hkey
    exact iff_of_false (error_ne_nil _ _ _) fun h => by simpa using h e he
  · refine iff_of_true rfl fun e he => ?_
    rw [bne_iff_ne]
    rintro rfl
    exact hkey (List.mem_map_of_mem he)

/-- A placement as it is checked. -/
def BarePlacement (v : Json) : Prop :=
  IsPlacement v ∧ ∀ key ∈ ["x", "y"], field (some v) key = none

lemma clean_placement : Clean (placement file) (Needed BarePlacement) := by
  intro v path
  have hobj : obj file [("ref", str file true), ("position", position file)] true v path = [] ↔
      Needed IsPlacement v := clean_obj_needed (fun o path => by
    simp [clean_str_needed _ _, clean_position _ _])
      v path
  have hnone : obj file [("ref", str file true), ("position", position file)] true v path ++ [] =
      [] ↔ Needed IsPlacement v := by rw [List.append_nil, hobj]
  rcases v with _ | v
  · exact hnone
  · cases v with
    | obj o =>
      show _ ++ (ownAxis file "x" o path ++ ownAxis file "y" o path) = [] ↔ _ ∧ _
      rw [List.append_eq_nil_iff, List.append_eq_nil_iff, ownAxis_nil, ownAxis_nil, hobj,
        List.forall_mem_cons, List.forall_mem_singleton]
      rfl
    | _ => exact hnone.trans ⟨fun h => absurd h id, fun h => absurd h.1 id⟩

lemma clean_libraryKind : Clean (libraryKind file) (Needed IsLibraryKind) := by
  intro v path
  rcases v with _ | v
  · exact iff_of_false (badShape_ne_nil _ _) id
  · cases v with
    | str s =>
      show (if _ then _ else _) = [] ↔ s = "footprint" ∨ s = "symbol"
      split_ifs with hs
      · exact iff_of_false (badShape_ne_nil _ _) fun h => h.elim hs.1 hs.2
      · exact iff_of_true rfl (by tauto)
    | _ => exact iff_of_false (badShape_ne_nil _ _) id

lemma clean_library : Clean (library file) (Needed IsLibrary) :=
  clean_obj_needed fun o path => by
    simp [clean_str_needed _ _, clean_str_maybe _ _,
      clean_libraryKind _ _]

lemma clean_design : Clean (obj file [("source", str file false), ("date", str file false),
    ("tool", str file false)] false) (Maybe IsDesign) :=
  clean_obj_maybe fun o path => by
    simp [clean_str_maybe _ _]

lemma clean_netlist : Clean (netlist file) (Needed (IsNetlist IsNode)) :=
  clean_obj_needed fun o path => by
    simp [clean_arr clean_component _ _,
      clean_arr clean_net _ _, clean_given (clean_arr clean_node) _ _, clean_design _ _]

lemma clean_rules : Clean (obj file [("clearanceMm", num file false),
    ("trackWidthMm", num file false), ("viaDiameterMm", num file false),
    ("viaDrillMm", num file false)] false) (Maybe IsRules) :=
  clean_obj_maybe fun o path => by
    simp [clean_num_maybe _ _]

lemma clean_via : Clean (obj file [("x", num file true), ("y", num file true),
    ("diameterMm", num file false), ("drillMm", num file false)] true) (Needed IsPrefabVia) :=
  clean_obj_needed fun o path => by
    simp [clean_num_needed _ _, clean_num_maybe _ _]

lemma clean_hole : Clean (obj file [("x", num file true), ("y", num file true),
    ("diameterMm", num file true)] true) (Needed IsPrefabHole) :=
  clean_obj_needed fun o path => by
    simp [clean_num_needed _ _]

lemma clean_board : Clean (board file) (Maybe (IsBoardSpec LoosePoint BarePlacement)) :=
  clean_obj_maybe fun o path => by
    simp [clean_given (clean_arr clean_point) _ _,
      clean_num_maybe _ _, clean_rules _ _, clean_given (clean_arr clean_via) _ _,
      clean_given (clean_arr clean_hole) _ _, clean_given (clean_arr clean_placement) _ _]

lemma clean_shape : Clean (shape file) (Needed (IsFile LoosePoint BarePlacement IsNode)) :=
  clean_obj_needed fun o path => by
    simp [clean_netlist _ _, clean_board _ _,
      clean_given (clean_arr clean_library) _ _]

lemma unknownReference_nil {quote : String → String} {refs : List String} (index : ℕ)
    (candidate : Json) : unknownReference file quote refs index candidate = [] ↔
      ∀ ref, field (some candidate) "ref" = some (.str ref) → ref ∈ refs := by
  rw [unknownReference]
  rcases field (some candidate) "ref" with _ | v
  · exact iff_of_true rfl fun ref h => absurd h (by simp)
  · cases v with
    | str ref =>
      show (if ref ∈ refs then [] else _) = [] ↔ _
      split_ifs with href
      · exact iff_of_true rfl fun ref' h => by cases h; exact href
      · exact iff_of_false (error_ne_nil _ _ _) fun h => href (h ref rfl)
    | _ => exact iff_of_true rfl fun ref h => absurd h (by simp)

lemma interface_field {q : (String → Option Json) → Prop} {v : Json} (h : Interface q v) :
    q fun key => field (some v) key := by
  cases v with
  | obj o => exact h
  | _ => exact absurd h id

lemma needed_iff {v : Option Json} : Needed p v ↔ ∃ t, v = some t ∧ p t := by
  rcases v with _ | t
  · simp [Needed]
  · simp [Needed]

lemma needed_array {v : Option Json} (h : Needed (ArrayOf p) v) :
    ∃ items, v = some (.arr items) ∧ ∀ t ∈ items, p t := by
  obtain ⟨t, rfl, ht⟩ := needed_iff.mp h
  cases t with
  | arr items => exact ⟨items, rfl, ht⟩
  | _ => exact absurd ht id

lemma unknownReferences_nil {quote : String → String} {value : Json}
    (h : IsFile LoosePoint BarePlacement IsNode value) :
    unknownReferences file quote value = [] ↔ ∀ v ∈ placements value, ∀ ref,
      field (some v) "ref" = some (.str ref) → ref ∈ componentRefs (components value) := by
  rw [unknownReferences, placements, components]
  obtain ⟨netlist, hnetlist, hparts⟩ := needed_iff.mp (interface_field h).1
  obtain ⟨cs, hcs, -⟩ := needed_array (interface_field hparts).1
  beta_reduce at hnetlist hcs
  rw [hnetlist, hcs]
  rcases hps : field (field (some value) "board") "placements" with _ | v
  · exact iff_of_true rfl fun v hv => absurd hv List.not_mem_nil
  · cases v with
    | arr ps => exact mapIdx_flatten_eq_nil fun i v _ => unknownReference_nil i v
    | _ => exact iff_of_true rfl fun v hv => absurd hv List.not_mem_nil

end Clean

/-! ### What is accepted -/

def outline (value : Json) : List Json := items (field (field (some value) "board") "outline")

def noConnects (value : Json) : List Json :=
  items (field (field (some value) "netlist") "noConnects")

section Accepted

variable {P Q N p q n : Json → Prop} {v : Option Json} {value : Json}

lemma arrayOf_and : Maybe (ArrayOf fun t => P t ∧ p t) v ↔
    Maybe (ArrayOf P) v ∧ ∀ t ∈ items v, p t := by
  rcases v with _ | t
  · exact iff_of_true trivial ⟨trivial, fun t ht => absurd ht List.not_mem_nil⟩
  · cases t with
    | arr items => exact forall₂_and
    | _ => exact ⟨fun h => absurd h id, fun h => absurd h.1 id⟩

lemma isNetlist_and : Needed (IsNetlist fun t => N t ∧ n t) v ↔
    Needed (IsNetlist N) v ∧ ∀ t ∈ items (field v "noConnects"), n t := by
  rcases v with _ | t
  · exact ⟨fun h => absurd h id, fun h => absurd h.1 id⟩
  · cases t with
    | obj o =>
      show IsNetlist _ (.obj o) ↔ IsNetlist N (.obj o) ∧ _
      simp only [IsNetlist, Interface, arrayOf_and, field]
      tauto
    | _ => exact ⟨fun h => absurd h id, fun h => absurd h.1 id⟩

lemma isBoardSpec_and :
    Maybe (IsBoardSpec (fun t => P t ∧ p t) fun t => Q t ∧ q t) v ↔
      Maybe (IsBoardSpec P Q) v ∧ (∀ t ∈ items (field v "outline"), p t) ∧
        ∀ t ∈ items (field v "placements"), q t := by
  have hnil : ∀ r : Json → Prop, ∀ t ∈ items none, r t := fun _ t ht => absurd ht List.not_mem_nil
  rcases v with _ | t
  · exact iff_of_true trivial ⟨trivial, hnil p, hnil q⟩
  · cases t with
    | obj o =>
      show IsBoardSpec _ _ (.obj o) ↔ IsBoardSpec P Q (.obj o) ∧ _
      simp only [IsBoardSpec, Interface, arrayOf_and, field]
      tauto
    | _ => exact ⟨fun h => absurd h id, fun h => absurd h.1 id⟩

lemma isFile_and :
    IsFile (fun t => P t ∧ p t) (fun t => Q t ∧ q t) (fun t => N t ∧ n t) value ↔
      IsFile P Q N value ∧ (∀ t ∈ outline value, p t) ∧ (∀ t ∈ placements value, q t) ∧
        ∀ t ∈ noConnects value, n t := by
  cases value with
  | obj o =>
    simp only [IsFile, Interface, isNetlist_and, isBoardSpec_and, outline, placements, noConnects,
      field]
    tauto
  | _ => exact ⟨fun h => absurd h id, fun h => absurd h.1 id⟩

/-- A point that has both coordinates. -/
def HasBoth (v : Json) : Prop := ∀ key ∈ ["x", "y"], field (some v) key ≠ none

/-- What else is said of a pin of a net is text. -/
def PlainPin (v : Json) : Prop :=
  ∀ key ∈ ["pinFunction", "pinType"], Maybe IsString (field (some v) key)

lemma needed_iff_maybe : Needed p v ↔ Maybe p v ∧ v ≠ none := by
  rcases v with _ | t
  · simp [Needed, Maybe]
  · simp [Needed, Maybe]

lemma forall_pair {r : String → Prop} {a b : String} : (∀ key ∈ [a, b], r key) ↔ r a ∧ r b := by
  rw [List.forall_mem_cons, List.forall_mem_singleton]

lemma isPoint_eq : IsPoint = fun t => LoosePoint t ∧ HasBoth t := by
  funext t
  cases t with
  | obj o =>
    simp only [IsPoint, LoosePoint, HasBoth, Interface, field, needed_iff_maybe, forall_pair]
    exact propext and_and_and_comm
  | _ => exact propext ⟨fun h => absurd h id, fun h => absurd h.1 id⟩

lemma isNode_eq : IsNode = fun t => IsNoConnect t ∧ PlainPin t := by
  funext t
  cases t with
  | obj o =>
    simp [IsNode, IsNoConnect, PlainPin, Interface, field, and_assoc]
  | _ => exact propext ⟨fun h => absurd h id, fun h => absurd h.1 id⟩

/-- A file but for what the checker sees otherwise: points may lack coordinates, and of
unconnected pins only what is declared is looked at. -/
structure Loose (value : Json) : Prop where
  file : IsFile LoosePoint IsPlacement IsNoConnect value
  placements : PlacementsNamed value

lemma isFile_point : IsFile IsPoint Q N value ↔
    IsFile LoosePoint Q N value ∧ ∀ t ∈ outline value, HasBoth t := by
  have hand := @isFile_and LoosePoint Q N HasBoth (fun _ => True) (fun _ => True) value
  simpa [← isPoint_eq] using hand

lemma isFile_placement : IsFile P BarePlacement N value ↔ IsFile P IsPlacement N value ∧
    ∀ t ∈ placements value, ∀ key ∈ ["x", "y"], field (some t) key = none := by
  have hand := @isFile_and P IsPlacement N (fun _ => True)
    (fun t => ∀ key ∈ ["x", "y"], field (some t) key = none) (fun _ => True) value
  simp only [and_true, implies_true, true_and] at hand
  exact hand

lemma isFile_node : IsFile P Q IsNode value ↔
    IsFile P Q IsNoConnect value ∧ ∀ t ∈ noConnects value, PlainPin t := by
  have hand := @isFile_and P Q IsNoConnect (fun _ => True) (fun _ => True) PlainPin value
  simpa [← isNode_eq] using hand

/-- **What is well-typed.** -/
lemma wellTyped_iff : WellTyped value ↔ Loose value ∧ ∀ t ∈ outline value, HasBoth t := by
  constructor
  · rintro ⟨hfile, hplacements⟩
    obtain ⟨hfile, hboth⟩ := isFile_point.mp hfile
    exact ⟨⟨hfile, hplacements⟩, hboth⟩
  · rintro ⟨⟨hfile, hplacements⟩, hboth⟩
    exact ⟨isFile_point.mpr ⟨hfile, hboth⟩, hplacements⟩

/-- **What is accepted.** -/
lemma diagnostics_nil (file : String) (quote : String → String) (value : Json) :
    (checkNetlistJson file quote value).diagnostics = [] ↔
      Loose value ∧ ∀ t ∈ noConnects value, PlainPin t := by
  have hshape : shape file (some value) "" = [] ↔ IsFile LoosePoint BarePlacement IsNode value :=
    clean_shape (some value) ""
  show shape file (some value) "" ++ unknownReferences file quote value = [] ↔ _
  rw [List.append_eq_nil_iff, hshape]
  constructor
  · rintro ⟨hfile, hrefs⟩
    rw [unknownReferences_nil hfile] at hrefs
    obtain ⟨hfile, hbare⟩ := isFile_placement.mp hfile
    obtain ⟨hfile, hplain⟩ := isFile_node.mp hfile
    exact ⟨⟨hfile, hbare, hrefs⟩, hplain⟩
  · rintro ⟨⟨hfile, hbare, hrefs⟩, hplain⟩
    have hfile := isFile_placement.mpr ⟨isFile_node.mpr ⟨hfile, hplain⟩, hbare⟩
    exact ⟨hfile, (unknownReferences_nil hfile).mpr hrefs⟩

lemma items_of_maybe (h : Maybe (ArrayOf p) v) : ∀ t ∈ items v, p t := by
  rcases v with _ | t
  · exact fun t ht => absurd ht List.not_mem_nil
  · cases t with
    | arr items => exact h
    | _ => exact absurd h id

lemma board_parts (h : IsFile P Q N value) :
    (∀ t ∈ outline value, P t) ∧
      (∀ t ∈ items (field (field (some value) "board") "vias"), IsPrefabVia t) ∧
      (∀ t ∈ items (field (field (some value) "board") "holes"), IsPrefabHole t) ∧
      ∀ t ∈ placements value, Q t := by
  have hboard := (interface_field h).2.1
  beta_reduce at hboard
  rw [outline, placements]
  rcases hb : field (some value) "board" with _ | b
  · have hnil : ∀ r : Json → Prop, ∀ t ∈ items none, r t := fun _ t ht => absurd ht List.not_mem_nil
    exact ⟨hnil P, hnil _, hnil _, hnil Q⟩
  · rw [hb] at hboard
    have hspec : IsBoardSpec P Q b := hboard
    obtain ⟨hpoints, -, -, -, -, hvias, hholes, hplacements⟩ := interface_field hspec
    exact ⟨items_of_maybe hpoints, items_of_maybe hvias, items_of_maybe hholes,
      items_of_maybe hplacements⟩

lemma coordinate_isSome {f : ℚ → ℤ} (h : Needed IsNumber v) : (coordinate f v).isSome := by
  rcases v with _ | t
  · exact absurd h id
  · cases t with
    | num x =>
      cases x with
      | some x => rfl
      | none => exact absurd h id
    | _ => exact absurd h id

/-- Both coordinates are numbers. -/
def Placed (c : Option ℤ × Option ℤ) : Prop := c.1.isSome ∧ c.2.isSome

lemma placed_pointOf {nm : ℚ → ℤ} (hx : Needed IsNumber (field v "x"))
    (hy : Needed IsNumber (field v "y")) : Placed (pointOf nm v) :=
  ⟨coordinate_isSome hx, coordinate_isSome hy⟩

lemma placed_outlinePoints {nm : ℚ → ℤ} (h : ∀ t ∈ items (field v "outline"), IsPoint t) :
    ∀ c ∈ outlinePoints nm v, Placed c := by
  intro c hc
  rw [outlinePoints] at hc
  split_ifs at hc
  · rcases hw : extentOf (field v "widthMm") with _ | w
    · rw [hw] at hc
      exact absurd hc List.not_mem_nil
    · rcases hl : extentOf (field v "heightMm") with _ | l
      · rw [hw, hl] at hc
        exact absurd hc List.not_mem_nil
      · simp only [hw, hl, List.mem_cons, List.not_mem_nil, or_false] at hc
        rcases hc with rfl | rfl | rfl | rfl
        all_goals exact ⟨rfl, rfl⟩
  · obtain ⟨t, ht, rfl⟩ := List.mem_map.mp hc
    exact placed_pointOf (interface_field (h t ht)).1 (interface_field (h t ht)).2

lemma placed_holePoints {nm : ℚ → ℤ} {hole : Json} (h : IsPrefabHole hole) :
    ∀ c ∈ holePoints nm hole, Placed c := by
  obtain ⟨hx, hy, hd⟩ := interface_field h
  obtain ⟨x, hx⟩ := Option.isSome_iff_exists.mp (@coordinate_isSome _ nm hx)
  obtain ⟨r, hr⟩ := Option.isSome_iff_exists.mp (@coordinate_isSome _ (fun d => nm (d / 2)) hd)
  have hc : (pointOf nm (some hole)).1 = some x := hx
  rw [holePoints, List.forall_mem_cons, List.forall_mem_singleton]
  exact ⟨⟨by rw [hc]; rfl, coordinate_isSome hy⟩, by rw [hc, hr]; rfl, coordinate_isSome hy⟩

/-- **No place of a well-typed file is NaN.** -/
lemma placed_of_wellTyped (nm : ℚ → ℤ) (h : WellTyped value) :
    ∀ c ∈ appliedPoints nm value, Placed c := by
  obtain ⟨houtline, hvias, hholes, hplacements⟩ := board_parts h.file
  rw [appliedPoints, List.forall_mem_append, List.forall_mem_append, List.forall_mem_append,
    List.forall_mem_map, List.forall_mem_map]
  refine ⟨⟨⟨placed_outlinePoints houtline, fun t ht => ?_⟩, fun c hc => ?_⟩, fun t ht => ?_⟩
  · obtain ⟨hx, hy, -⟩ := interface_field (hvias t ht)
    exact placed_pointOf hx hy
  · obtain ⟨t, ht, hmem⟩ := List.mem_flatMap.mp hc
    exact placed_holePoints (hholes t ht) c hmem
  · obtain ⟨position, hposition, hpoint⟩ := needed_iff.mp (interface_field (hplacements t ht)).2
    beta_reduce at hposition
    rw [hposition]
    exact placed_pointOf (interface_field hpoint).1 (interface_field hpoint).2

end Accepted

/-! ### Exactness -/

/-- The well-typed values are accepted and no others, and what is computed of an accepted file is
never NaN. -/
structure Exact (nm : ℚ → ℤ) (file : String) (quote : String → String) (value : Json) : Prop where
  accepts : (checkNetlistJson file quote value).file = some value ∧
    (checkNetlistJson file quote value).diagnostics = [] ↔ WellTyped value
  placed : (checkNetlistJson file quote value).file.isSome →
    ∀ c ∈ appliedPoints nm value, Placed c

lemma file_eq (file : String) (quote : String → String) (value : Json) :
    (checkNetlistJson file quote value).file =
      if (checkNetlistJson file quote value).diagnostics = [] then some value else none := rfl

/-- **When the checker is exact**: a value that is no file for another reason is refused, and of
any other the points have both coordinates when, and only when, what else its unconnected pins
say is text. -/
theorem exact_iff (nm : ℚ → ℤ) (file : String) (quote : String → String) (value : Json) :
    Exact nm file quote value ↔
      (Loose value → ((∀ t ∈ outline value, HasBoth t) ↔ ∀ t ∈ noConnects value, PlainPin t)) := by
  have haccepts : (checkNetlistJson file quote value).file = some value ∧
      (checkNetlistJson file quote value).diagnostics = [] ↔
        Loose value ∧ ∀ t ∈ noConnects value, PlainPin t := by
    rw [← diagnostics_nil file quote]
    exact ⟨fun h => h.2, fun h => ⟨if_pos h, h⟩⟩
  constructor
  · rintro ⟨hexact, -⟩ hloose
    rw [haccepts, wellTyped_iff] at hexact
    exact ⟨fun h => (hexact.mpr ⟨hloose, h⟩).2, fun h => (hexact.mp ⟨hloose, h⟩).2⟩
  · intro h
    have hexact : Loose value ∧ (∀ t ∈ noConnects value, PlainPin t) ↔ WellTyped value := by
      rw [wellTyped_iff]
      exact and_congr_right fun hloose => (h hloose).symm
    refine ⟨haccepts.trans hexact, fun hfile => placed_of_wellTyped nm (hexact.mp ?_)⟩
    rw [file_eq] at hfile
    split_ifs at hfile with hnil
    · exact (diagnostics_nil file quote value).mp hnil
    · exact absurd hfile (by simp)

/-- Three corners that have no coordinates. -/
def corners : Json :=
  .obj [("netlist", .obj [("components", .arr []), ("nets", .arr [])]),
    ("board", .obj [("outline", .arr [.obj [], .obj [], .obj []])])]

/-- Whole nanometres of exact millimetres. -/
def nanometres (v : ℚ) : ℤ := ⌊v * 1000000 + 1 / 2⌋

/-- An outline without coordinates is accepted, and its points are NaN. -/
theorem corners_accepted :
    (checkNetlistJson "circuit.netlist.json" id corners).file = some corners ∧
      (none, none) ∈ appliedPoints nanometres corners ∧
      ¬ Exact nanometres "circuit.netlist.json" id corners := by
  have hnil : (checkNetlistJson "circuit.netlist.json" id corners).diagnostics = [] := rfl
  have hfile : (checkNetlistJson "circuit.netlist.json" id corners).file = some corners := by
    rw [file_eq, if_pos hnil]
  refine ⟨hfile, List.mem_cons_self, fun h => ?_⟩
  have hboth := (wellTyped_iff.mp (h.accepts.mp ⟨hfile, hnil⟩)).2 (.obj []) List.mem_cons_self
  exact hboth "x" List.mem_cons_self rfl

end FabPcb.NetlistJson
