import Mathlib.Data.List.Nodup

/-!
Item wrappers: what the client reads off a KiCad item, and the item types each kind of
document asks the server for.

The decoded message is an opaque value of type `P`; a wrapper is the message together with
the getters the commit pipeline and the store read.
-/

namespace FabPcb.Items

/-- `KiCadObjectType`, as far as the documents request it and wrappers report it. -/
inductive KiCadObjectType where
  | KOT_PCB_FOOTPRINT | KOT_PCB_PAD | KOT_PCB_SHAPE | KOT_PCB_REFERENCE_IMAGE | KOT_PCB_FIELD
  | KOT_PCB_TEXT | KOT_PCB_TEXTBOX | KOT_PCB_TABLE | KOT_PCB_TABLECELL | KOT_PCB_TRACE
  | KOT_PCB_VIA | KOT_PCB_ARC | KOT_PCB_DIMENSION | KOT_PCB_ZONE | KOT_PCB_GROUP
  | KOT_PCB_BARCODE | KOT_PCB_CONSTRAINT | KOT_PCB_GRIDITEM | KOT_PCB_POINT | KOT_SCH_JUNCTION
  | KOT_SCH_NO_CONNECT | KOT_SCH_BUS_WIRE_ENTRY | KOT_SCH_BUS_BUS_ENTRY | KOT_SCH_LINE
  | KOT_SCH_SHAPE | KOT_SCH_RULE_AREA | KOT_SCH_BITMAP | KOT_SCH_TEXTBOX | KOT_SCH_TEXT
  | KOT_SCH_TABLE | KOT_SCH_LABEL | KOT_SCH_GLOBAL_LABEL | KOT_SCH_HIER_LABEL
  | KOT_SCH_DIRECTIVE_LABEL | KOT_SCH_GROUP | KOT_SCH_SYMBOL | KOT_SCH_SHEET | KOT_SCH_PIN
  | KOT_SCH_FIELD | KOT_PCB_MARKER | KOT_UNKNOWN
  deriving DecidableEq, Repr

/-- The enum name, what `StoredItem.type` carries. -/
def KiCadObjectType.typeName : KiCadObjectType → String
  | .KOT_PCB_FOOTPRINT => "KOT_PCB_FOOTPRINT"
  | .KOT_PCB_PAD => "KOT_PCB_PAD"
  | .KOT_PCB_SHAPE => "KOT_PCB_SHAPE"
  | .KOT_PCB_REFERENCE_IMAGE => "KOT_PCB_REFERENCE_IMAGE"
  | .KOT_PCB_FIELD => "KOT_PCB_FIELD"
  | .KOT_PCB_TEXT => "KOT_PCB_TEXT"
  | .KOT_PCB_TEXTBOX => "KOT_PCB_TEXTBOX"
  | .KOT_PCB_TABLE => "KOT_PCB_TABLE"
  | .KOT_PCB_TABLECELL => "KOT_PCB_TABLECELL"
  | .KOT_PCB_TRACE => "KOT_PCB_TRACE"
  | .KOT_PCB_VIA => "KOT_PCB_VIA"
  | .KOT_PCB_ARC => "KOT_PCB_ARC"
  | .KOT_PCB_DIMENSION => "KOT_PCB_DIMENSION"
  | .KOT_PCB_ZONE => "KOT_PCB_ZONE"
  | .KOT_PCB_GROUP => "KOT_PCB_GROUP"
  | .KOT_PCB_BARCODE => "KOT_PCB_BARCODE"
  | .KOT_PCB_CONSTRAINT => "KOT_PCB_CONSTRAINT"
  | .KOT_PCB_GRIDITEM => "KOT_PCB_GRIDITEM"
  | .KOT_PCB_POINT => "KOT_PCB_POINT"
  | .KOT_SCH_JUNCTION => "KOT_SCH_JUNCTION"
  | .KOT_SCH_NO_CONNECT => "KOT_SCH_NO_CONNECT"
  | .KOT_SCH_BUS_WIRE_ENTRY => "KOT_SCH_BUS_WIRE_ENTRY"
  | .KOT_SCH_BUS_BUS_ENTRY => "KOT_SCH_BUS_BUS_ENTRY"
  | .KOT_SCH_LINE => "KOT_SCH_LINE"
  | .KOT_SCH_SHAPE => "KOT_SCH_SHAPE"
  | .KOT_SCH_RULE_AREA => "KOT_SCH_RULE_AREA"
  | .KOT_SCH_BITMAP => "KOT_SCH_BITMAP"
  | .KOT_SCH_TEXTBOX => "KOT_SCH_TEXTBOX"
  | .KOT_SCH_TEXT => "KOT_SCH_TEXT"
  | .KOT_SCH_TABLE => "KOT_SCH_TABLE"
  | .KOT_SCH_LABEL => "KOT_SCH_LABEL"
  | .KOT_SCH_GLOBAL_LABEL => "KOT_SCH_GLOBAL_LABEL"
  | .KOT_SCH_HIER_LABEL => "KOT_SCH_HIER_LABEL"
  | .KOT_SCH_DIRECTIVE_LABEL => "KOT_SCH_DIRECTIVE_LABEL"
  | .KOT_SCH_GROUP => "KOT_SCH_GROUP"
  | .KOT_SCH_SYMBOL => "KOT_SCH_SYMBOL"
  | .KOT_SCH_SHEET => "KOT_SCH_SHEET"
  | .KOT_SCH_PIN => "KOT_SCH_PIN"
  | .KOT_SCH_FIELD => "KOT_SCH_FIELD"
  | .KOT_PCB_MARKER => "KOT_PCB_MARKER"
  | .KOT_UNKNOWN => "KOT_UNKNOWN"

/-- `BOARD_ITEM_TYPES`. -/
def boardItemTypes : List KiCadObjectType :=
  [.KOT_PCB_FOOTPRINT, .KOT_PCB_PAD, .KOT_PCB_SHAPE, .KOT_PCB_REFERENCE_IMAGE, .KOT_PCB_FIELD,
   .KOT_PCB_TEXT, .KOT_PCB_TEXTBOX, .KOT_PCB_TABLE, .KOT_PCB_TABLECELL, .KOT_PCB_TRACE,
   .KOT_PCB_VIA, .KOT_PCB_ARC, .KOT_PCB_DIMENSION, .KOT_PCB_ZONE, .KOT_PCB_GROUP,
   .KOT_PCB_BARCODE, .KOT_PCB_CONSTRAINT, .KOT_PCB_GRIDITEM, .KOT_PCB_POINT]

/-- `SCHEMATIC_ITEM_TYPES`. -/
def schematicItemTypes : List KiCadObjectType :=
  [.KOT_SCH_JUNCTION, .KOT_SCH_NO_CONNECT, .KOT_SCH_BUS_WIRE_ENTRY, .KOT_SCH_BUS_BUS_ENTRY,
   .KOT_SCH_LINE, .KOT_SCH_SHAPE, .KOT_SCH_RULE_AREA, .KOT_SCH_BITMAP, .KOT_SCH_TEXTBOX,
   .KOT_SCH_TEXT, .KOT_SCH_TABLE, .KOT_SCH_LABEL, .KOT_SCH_GLOBAL_LABEL, .KOT_SCH_HIER_LABEL,
   .KOT_SCH_DIRECTIVE_LABEL, .KOT_SCH_GROUP, .KOT_SCH_SYMBOL, .KOT_SCH_SHEET]

/-- `FOOTPRINT_ITEM_TYPES`. -/
def footprintItemTypes : List KiCadObjectType :=
  [.KOT_PCB_PAD, .KOT_PCB_SHAPE, .KOT_PCB_TEXT, .KOT_PCB_TEXTBOX, .KOT_PCB_FIELD,
   .KOT_PCB_DIMENSION, .KOT_PCB_ZONE, .KOT_PCB_GROUP, .KOT_PCB_REFERENCE_IMAGE]

/-- `SYMBOL_ITEM_TYPES`. -/
def symbolItemTypes : List KiCadObjectType :=
  [.KOT_SCH_PIN, .KOT_SCH_SHAPE, .KOT_SCH_TEXT, .KOT_SCH_TEXTBOX, .KOT_SCH_FIELD]

inductive DocumentKind where
  | board | schematic | footprint | symbol
  deriving DecidableEq, Repr

/-- `itemTypes` of the document class serving each kind. -/
def DocumentKind.itemTypes : DocumentKind → List KiCadObjectType
  | .board => boardItemTypes
  | .schematic => schematicItemTypes
  | .footprint => footprintItemTypes
  | .symbol => symbolItemTypes

lemma itemTypes_nodup (kind : DocumentKind) : kind.itemTypes.Nodup := by
  cases kind <;> decide

/-- `Item`: a wrapper, its message and the getters read off it. The id is empty when the
item has none; `hasIdField` says whether its message type can carry one. -/
structure Item (P : Type*) where
  id : String
  hasIdField : Bool
  type : KiCadObjectType
  layer : Option String
  net : Option String
  parent : Option String
  proto : P
  deriving DecidableEq

end FabPcb.Items
