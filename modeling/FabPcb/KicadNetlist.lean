import FabPcb.KicadSExpr
import FabPcb.SpecctraData

/-!
`emitKicadNetlist`: a netlist as KiCad's own format, and what a reader of the format finds in it.

`content` is what the text has to say of a netlist: an optional text that is empty is as one that is
missing, and a net without a code has its place.
-/

namespace FabPcb.KicadNetlist

open SExprText KicadSExpr SpecctraData

structure LibSource where
  lib : String
  part : String
  description : Option String

structure NetlistComponent where
  ref : String
  value : String
  footprint : String
  libSource : Option LibSource
  fields : List (String × String)
  uuid : Option String

structure NetlistNode where
  ref : String
  pin : String
  pinFunction : Option String
  pinType : Option String

/-- A symbol pin that is left unconnected on purpose. -/
structure NetlistNoConnect where
  ref : String
  pin : String

structure NetlistNet where
  name : String
  code : Option (Option ℚ)
  nodes : List NetlistNode

structure NetlistDesign where
  source : Option String := none
  date : Option String := none
  tool : Option String := none

structure Netlist where
  design : Option NetlistDesign
  components : List NetlistComponent
  nets : List NetlistNet
  noConnects : List NetlistNoConnect := []

/-! ### `emitKicadNetlist` -/

def NETLIST_VERSION : String := "E"

def TOOL_NAME : String := "@fp-pcb/compile"

/-- A text that is there and not empty. -/
def given (text : Option String) : Option String := text.filter (· ≠ "")

/-- `lines[lines.length - 1] += ")"`. -/
def closeLast : List String → List String
  | [] => []
  | [line] => [line ++ ")"]
  | line :: lines => line :: closeLast lines

def joined (lines : List String) : String := "\n".intercalate lines

def footprintLines (inner footprint : String) : List String :=
  if footprint = "" then [] else [inner ++ "(footprint " ++ q footprint ++ ")"]

def fieldLine (inner : String) (field : String × String) : String :=
  inner ++ "  (field (name " ++ q field.1 ++ ") " ++ q field.2 ++ ")"

def fieldsLines (inner : String) (fields : List (String × String)) : List String :=
  if fields = [] then []
  else (inner ++ "(fields") :: (fields.map (fieldLine inner) ++ [inner ++ ")"])

def libSourceLines (inner : String) : Option LibSource → List String
  | none => []
  | some source =>
    let desc := match given source.description with
      | none => ""
      | some description => " (description " ++ q description ++ ")"
    [inner ++ "(libsource (lib " ++ q source.lib ++ ") (part " ++ q source.part ++ ")" ++ desc ++
      ")"]

def uuidLines (inner : String) (uuid : Option String) : List String :=
  match given uuid with
  | none => []
  | some uuid => [inner ++ "(tstamps " ++ q ("/" ++ uuid) ++ ")"]

def comp (c : NetlistComponent) (indent : String) : String :=
  let inner := indent ++ "  "
  joined (closeLast ((indent ++ "(comp (ref " ++ q c.ref ++ ")") ::
    (inner ++ "(value " ++ q c.value ++ ")") :: (footprintLines inner c.footprint ++
      fieldsLines inner c.fields ++ libSourceLines inner c.libSource ++ uuidLines inner c.uuid)))

def nodeLine (n : NetlistNode) : String :=
  let fn := match given n.pinFunction with
    | none => ""
    | some pinFunction => " (pinfunction " ++ q pinFunction ++ ")"
  let pt := match given n.pinType with
    | none => ""
    | some pinType => " (pintype " ++ q pinType ++ ")"
  "      (node (ref " ++ q n.ref ++ ") (pin " ++ q n.pin ++ ")" ++ fn ++ pt ++ ")"

section Emit

variable (N : Numerals)

/-- `net.code ?? i + 1`. -/
def codeOf (net : NetlistNet) (i : ℕ) : Option ℚ := net.code.getD (some (i + 1))

def netLines (net : NetlistNet) (i : ℕ) : List String :=
  closeLast (("    (net (code " ++ q (N.print (codeOf net i)) ++ ") (name " ++ q net.name ++ ")") ::
    net.nodes.map nodeLine)

/-- `date` is the option's, `now` the time of the call. -/
def emitKicadNetlist (netlist : Netlist) (date : Option String) (now : String) : String :=
  let design := netlist.design.getD {}
  let out := ("(export (version " ++ q NETLIST_VERSION ++ ")") ::
    (["  (design",
      "    (source " ++ q (design.source.getD "") ++ ")",
      "    (date " ++ q ((date.orElse fun _ => design.date).getD now) ++ ")",
      "    (tool " ++ q (design.tool.getD TOOL_NAME) ++ "))"] ++
    ("  (components" :: (netlist.components.map (comp · "    ") ++ ["  )"])) ++
    ("  (nets" :: ((netlist.nets.zipIdx.flatMap fun net => netLines N net.1 net.2) ++ ["  )"])) ++
    [")"])
  joined out ++ "\n"

end Emit

/-! ### What a reader finds -/

/-- What is in the first list with this head. -/
def sublist (items : List SExpr) (head : String) : Option (List SExpr) :=
  items.findSome? fun
    | .list (.atom first :: rest) => if first = head then some rest else none
    | _ => none

def textOf (items : List SExpr) (head : String) : Option String :=
  match sublist items head with
  | some [.atom text] => some text
  | _ => none

/-- A component as the format has it. -/
structure ComponentContent where
  ref : String
  value : String
  footprint : Option String
  fields : List (String × String)
  libSource : Option LibSource
  uuid : Option String

structure NetContent where
  code : Option ℚ
  name : String
  nodes : List NetlistNode

structure Content where
  components : List ComponentContent
  nets : List NetContent

def decodeField : SExpr → Option (String × String)
  | .list [.atom "field", .list [.atom "name", .atom name], .atom value] => some (name, value)
  | _ => none

def decodeFields (items : List SExpr) : Option (List (String × String)) :=
  match sublist items "fields" with
  | none => some []
  | some fields => fields.mapM decodeField

def decodeLibSource (items : List SExpr) : Option (Option LibSource) :=
  match sublist items "libsource" with
  | none => some none
  | some source => do
    let lib ← textOf source "lib"
    let part ← textOf source "part"
    some (some ⟨lib, part, textOf source "description"⟩)

/-- A time stamp is a path: the part behind its slash. -/
def pathName (path : String) : String := String.ofList (path.toList.drop 1)

def decodeComp : SExpr → Option ComponentContent
  | .list (.atom "comp" :: items) => do
    let ref ← textOf items "ref"
    let value ← textOf items "value"
    let fields ← decodeFields items
    let libSource ← decodeLibSource items
    some ⟨ref, value, textOf items "footprint", fields, libSource,
      (textOf items "tstamps").map pathName⟩
  | _ => none

def decodeNode : SExpr → Option NetlistNode
  | .list (.atom "node" :: items) => do
    let ref ← textOf items "ref"
    let pin ← textOf items "pin"
    some ⟨ref, pin, textOf items "pinfunction", textOf items "pintype"⟩
  | _ => none

section Decode

variable (N : Numerals)

/-- The nodes of a net are behind its code and its name. -/
def decodeNet : SExpr → Option NetContent
  | .list (.atom "net" :: code :: name :: nodes) => do
    let code ← textOf [code] "code"
    let name ← textOf [name] "name"
    let nodes ← nodes.mapM decodeNode
    some ⟨N.read code, name, nodes⟩
  | _ => none

def decode : SExpr → Option Content
  | .list (.atom "export" :: items) => do
    let components ← (← sublist items "components").mapM decodeComp
    let nets ← (← sublist items "nets").mapM (decodeNet N)
    some ⟨components, nets⟩
  | _ => none

/-- What a reader finds in a text that is one s-expression. -/
def readNetlist (text : String) : Option Content := (readOne text).bind (decode N)

end Decode

/-! ### What a netlist says -/

def componentContent (c : NetlistComponent) : ComponentContent where
  ref := c.ref
  value := c.value
  footprint := given (some c.footprint)
  fields := c.fields
  libSource := c.libSource.map fun source => { source with description := given source.description }
  uuid := given c.uuid

def nodeContent (n : NetlistNode) : NetlistNode :=
  { n with pinFunction := given n.pinFunction, pinType := given n.pinType }

def netContent (net : NetlistNet) (i : ℕ) : NetContent where
  code := codeOf net i
  name := net.name
  nodes := net.nodes.map nodeContent

def content (netlist : Netlist) : Content where
  components := netlist.components.map componentContent
  nets := netlist.nets.zipIdx.map fun net => netContent net.1 net.2

end FabPcb.KicadNetlist
