import FabPcb.DsnWriter
import FabPcb.SExprSpelling

/-!
The text of the DSN file that `writeDsn` writes, and the forms that are read from it.

The forms are the same: in the text their names are the tokens of the file, and read they are what
the tokens say. A number is its numeral, and the blanks between two tokens are one space.
-/

namespace FabPcb.DsnForms

open SExprText SExprSpelling DsnWriter
open SpecctraData (Vec2 Numerals)

def form (head : String) (items : List SExpr) : SExpr := .list (.atom head :: items)

section Forms

variable (nums : Numerals) (as : Token → String)

def name (t : Token) : SExpr := .atom (as t)

def number (v : ℚ) : SExpr := .atom (nums.print (some v))

def point (v : Vec2) : List SExpr := [number nums v.x, number nums v.y]

def points (vs : List Vec2) : List SExpr := vs.flatMap (point nums)

/-- Between quotation marks, needed or not. -/
def quoted (s : String) : Token := dquote :: (s.toList ++ [dquote])

def parserForm : SExpr :=
  form "parser" [form "string_quote" [.atom "\""], form "space_in_quoted_tokens" [.atom "on"],
    form "host_cad" [name as (quoted "KiCad's Pcbnew")],
    form "host_version" [name as (quoted "9.0.0")]]

def layerForm (i : ℕ) (layer : Token) : SExpr :=
  form "layer" [name as layer, form "type" [.atom "signal"],
    form "property" [form "index" [number nums i]]]

def boundaryForm : Boundary → SExpr
  | .path ps => form "boundary" [form "path" (.atom "pcb" :: .atom "0" :: points nums ps)]
  | .rect a b => form "boundary" [form "rect" (.atom "pcb" :: (point nums a ++ point nums b))]

def planeForm (p : Plane) : SExpr :=
  form "plane" [name as p.net,
    form "polygon" (name as p.layer :: .atom "0" :: points nums p.polygon)]

def kindText : KeepoutKind → String
  | .keepout => "keepout"
  | .wireKeepout => "wire_keepout"
  | .viaKeepout => "via_keepout"

def areaForm (layer : Token) : Area → SExpr
  | .polygon ps => form "polygon" (name as layer :: .atom "0" :: points nums ps)
  | .rect a b => form "rect" (name as layer :: (point nums a ++ point nums b))

def keepoutForm (k : Keepout) : SExpr :=
  form (kindText k.kind) [name as k.name, areaForm nums as k.layer k.area]

def widthForm (v : ℚ) : SExpr := form "width" [number nums v]

def clearanceOf (v : ℚ) : SExpr := form "clearance" [number nums v]

def clearanceOfType (v : ℚ) (type : String) : SExpr :=
  form "clearance" [number nums v, form "type" [.atom type]]

def structureForm (d : Dsn) : SExpr :=
  form "structure" (d.layers.mapIdx (layerForm nums as) ++ [boundaryForm nums d.boundary] ++
    d.planes.map (planeForm nums as) ++ d.keepouts.map (keepoutForm nums as) ++
    [form "via" (d.vias.map (name as)),
      form "rule" [widthForm nums d.width, clearanceOf nums d.clearance,
        clearanceOfType nums d.clearance "default_smd",
        clearanceOfType nums d.clearance "smd_smd"]])

def componentForm (c : Component) : SExpr :=
  form "component" [name as c.image, form "place" (name as c.place :: (point nums c.position ++
    [.atom "front", .atom "0"]))]

def imageForm (i : Image) : SExpr :=
  form "image" [name as i.name, form "pin" (name as i.padstack ::
    ((i.rotation.map fun r => form "rotate" [number nums r]).toList ++
      [.atom "1", .atom "0", .atom "0"]))]

def shapeForm (s : Shape) : SExpr :=
  form "shape" [match s.geometry with
    | .circle diameter => form "circle" [name as s.layer, number nums diameter]
    | .path width start stop =>
      form "path" (name as s.layer :: number nums width :: (point nums start ++ point nums stop))
    | .rect a b => form "rect" (name as s.layer :: (point nums a ++ point nums b))]

def padstackForm (p : Padstack) : SExpr :=
  form "padstack" (name as p.name :: (p.shapes.map (shapeForm nums as) ++
    [form "attach" [.atom "off"]]))

def netForm (n : Net) : SExpr := form "net" [name as n.name, form "pins" (n.pins.map (name as))]

def classForm (c : NetClass) : SExpr :=
  form "class" (name as c.name :: (c.nets.map (name as) ++
    [form "circuit" [form "use_via" [name as c.via]],
      form "rule" [widthForm nums c.width, clearanceOf nums c.clearance]]))

def netOf (net : Option Token) : List SExpr := (net.map fun n => form "net" [name as n]).toList

def wireForm (w : Wire) : SExpr :=
  form "wire" (form "path" (name as w.layer :: number nums w.width ::
    (point nums w.start ++ point nums w.stop)) ::
      (netOf as w.net ++ [form "type" [.atom "protect"]]))

def viaForm (v : ViaUse) : SExpr :=
  form "via" (name as v.padstack :: (point nums v.position ++ netOf as v.net ++
    [form "type" [.atom "protect"]]))

def networkItems (d : Dsn) : List SExpr :=
  .atom "network" :: (d.nets.map (netForm as) ++ d.classes.map (classForm nums as))

/-- The items of the file. -/
def pcbItems (d : Dsn) : List SExpr :=
  [.atom "pcb", name as d.name, parserForm as, form "resolution" [.atom "um", .atom "10"],
    form "unit" [.atom "um"], structureForm nums as d,
    form "placement" (d.components.map (componentForm nums as)),
    form "library" (d.images.map (imageForm nums as) ++ d.padstacks.map (padstackForm nums as)),
    .list (networkItems nums as d),
    form "wiring" (d.wires.map (wireForm nums as) ++ d.viaUses.map (viaForm nums as))]

end Forms

/-- A token in the text. -/
def written (t : Token) : String := String.ofList t

/-- The text of the file, before drill clearances are added. -/
def dsnText (nums : Numerals) (d : Dsn) : String := text (pcbItems nums written d)

/-- Every token of the file ends where the reader ends it. -/
def Legible (nums : Numerals) (d : Dsn) : Prop :=
  legible (.list (pcbItems nums written d)) = true

/-! ### What is read -/

variable {nums : Numerals} {items : List SExpr} {s head : String} {t : Token}

lemma readBack_list : readBack (.list items) = .list (items.map readBack) := by
  rw [readBack, readItems_eq_map]

lemma readBack_atom (h : isPlain s.toList = true) : readBack (.atom s) = .atom s := by
  rw [readBack, spelled_plain h]

lemma readBack_form (h : isPlain head.toList = true) :
    readBack (form head items) = form head (items.map readBack) := by
  rw [form, readBack_list, List.map_cons, readBack_atom h, form]

@[simp] lemma readBack_name : readBack (name written t) = name spelled t := by
  rw [name, readBack, written, String.toList_ofList, name]

@[simp] lemma readBack_number (v : ℚ) : readBack (number nums v) = number nums v :=
  readBack_atom (nums.plain_print _)

@[simp] lemma readBack_point (v : Vec2) : (point nums v).map readBack = point nums v := by
  rw [point, List.map_cons, List.map_cons, readBack_number, readBack_number, List.map_nil]

@[simp] lemma readBack_points (vs : List Vec2) :
    (points nums vs).map readBack = points nums vs := by
  rw [points, List.map_flatMap]
  exact List.flatMap_congr fun v _ => readBack_point v

lemma readBack_parserForm : readBack (parserForm written) = parserForm spelled := by
  rfl

lemma readBack_layer (i : ℕ) (layer : Token) :
    readBack (layerForm nums written i layer) = layerForm nums spelled i layer := by
  simp (disch := decide) [layerForm, readBack_form, readBack_atom]

lemma readBack_layers (layers : List Token) :
    (layers.mapIdx (layerForm nums written)).map readBack =
      layers.mapIdx (layerForm nums spelled) := by
  rw [List.mapIdx_eq_zipIdx_map, List.mapIdx_eq_zipIdx_map, List.map_map]
  exact List.map_congr_left fun e _ => readBack_layer e.2 e.1

lemma readBack_boundary (b : Boundary) : readBack (boundaryForm nums b) = boundaryForm nums b := by
  cases b <;> simp (disch := decide) [boundaryForm, readBack_form, readBack_atom]

lemma readBack_plane (p : Plane) :
    readBack (planeForm nums written p) = planeForm nums spelled p := by
  simp (disch := decide) [planeForm, readBack_form, readBack_atom]

lemma readBack_keepout (k : Keepout) :
    readBack (keepoutForm nums written k) = keepoutForm nums spelled k := by
  obtain ⟨kind, label, layer, area⟩ := k
  have harea : readBack (areaForm nums written layer area) = areaForm nums spelled layer area := by
    cases area <;> simp (disch := decide) [areaForm, readBack_form, readBack_atom]
  have hkind : isPlain (kindText kind).toList = true := by cases kind <;> decide
  rw [keepoutForm, readBack_form hkind, List.map_cons, List.map_singleton, harea, readBack_name]
  rfl

lemma readBack_structure (d : Dsn) :
    readBack (structureForm nums written d) = structureForm nums spelled d := by
  simp (disch := decide) [structureForm, Function.comp_def, readBack_form, readBack_atom,
    readBack_layers, readBack_boundary, readBack_plane, readBack_keepout, widthForm, clearanceOf,
    clearanceOfType]

lemma readBack_component (c : Component) :
    readBack (componentForm nums written c) = componentForm nums spelled c := by
  simp (disch := decide) [componentForm, readBack_form, readBack_atom]

lemma readBack_image (i : Image) :
    readBack (imageForm nums written i) = imageForm nums spelled i := by
  obtain ⟨label, padstack, rotation⟩ := i
  cases rotation <;> simp (disch := decide) [imageForm, readBack_form, readBack_atom]

lemma readBack_shape (s : Shape) :
    readBack (shapeForm nums written s) = shapeForm nums spelled s := by
  obtain ⟨layer, geometry⟩ := s
  cases geometry <;> simp (disch := decide) [shapeForm, readBack_form]

lemma readBack_padstack (p : Padstack) :
    readBack (padstackForm nums written p) = padstackForm nums spelled p := by
  simp (disch := decide) [padstackForm, Function.comp_def, readBack_form, readBack_atom,
    readBack_shape]

lemma readBack_net (n : Net) : readBack (netForm written n) = netForm spelled n := by
  simp (disch := decide) [netForm, Function.comp_def, readBack_form]

lemma readBack_class (c : NetClass) :
    readBack (classForm nums written c) = classForm nums spelled c := by
  simp (disch := decide) [classForm, Function.comp_def, readBack_form, widthForm, clearanceOf]

lemma readBack_netOf (net : Option Token) :
    (netOf written net).map readBack = netOf spelled net := by
  cases net <;> simp (disch := decide) [netOf, readBack_form]

lemma readBack_wire (w : Wire) : readBack (wireForm nums written w) = wireForm nums spelled w := by
  simp (disch := decide) [wireForm, readBack_form, readBack_atom, readBack_netOf]

lemma readBack_via (v : ViaUse) : readBack (viaForm nums written v) = viaForm nums spelled v := by
  simp (disch := decide) [viaForm, readBack_form, readBack_atom, readBack_netOf]

lemma readItems_network (d : Dsn) :
    (networkItems nums written d).map readBack = networkItems nums spelled d := by
  simp (disch := decide) [networkItems, Function.comp_def, readBack_atom, readBack_net,
    readBack_class]

lemma readItems_pcb (d : Dsn) :
    readItems (pcbItems nums written d) = pcbItems nums spelled d := by
  rw [readItems_eq_map]
  simp (disch := decide) [pcbItems, Function.comp_def, readBack_form, readBack_atom,
    readBack_list, readBack_parserForm, readBack_structure, readBack_component, readBack_image,
    readBack_padstack, readItems_network, readBack_wire, readBack_via]

/-- **A legible file** is read as its forms. -/
theorem parse_dsnText {d : Dsn} (h : Legible nums d) :
    parseSExpr (dsnText nums d) = .ok [.list (pcbItems nums spelled d)] := by
  rw [dsnText, parse_text h, readItems_pcb]

end FabPcb.DsnForms
