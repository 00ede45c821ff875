import FabPcb.SchematicTexts
import Mathlib.Data.List.Forall2

/-!
The texts that KiCad is asked to lay out for an item of a schematic, `schematicTextRequests`, and
the texts that the adapter draws of it, `schematicItemToRenderItems`: two walks over the item.

Of what is drawn only the texts are kept: each call of `textPrims`, with the key of the shapes that
it looks up.
-/

namespace FabPcb.TextRequests

open SchematicTexts
open SpecctraData (roundHalfUp)

structure StoredItemLike where
  id : String
  type : Option ItemType
  proto : Obj

/-- The id of an item, or that of its message. -/
def StoredItemLike.ownId (item : StoredItemLike) : String :=
  if item.id = "" then item.proto.fields.id else item.id

/-- The type of an item, or that of its message. -/
def StoredItemLike.ownType (item : StoredItemLike) : Option ItemType :=
  item.type.or ((schematicItemTypeOf item.proto).map (·.1))

/-- The message of a pin or a field, as one. -/
def asField {O : Type} (p : Fields O) : SchField :=
  ⟨p.name, p.text, p.visible, p.showName, p.isPrivate⟩

def asSheetPin {O : Type} (p : Fields O) (id : String) : SheetPin where
  id := id
  position := p.position
  text := p.text.getD {}
  spinStyle := p.spinStyle
  shape := p.shape
  side := p.side

/-- What a pin that is no part of a symbol is drawn with. -/
def pinInfo (id : String) : SymbolInfo := ⟨id, ⟨0, 0⟩, IDENTITY_TRANSFORM, true, true, 0⟩

variable (J : JsMath) (c : SchematicAdapterContext)

/-! ### Drawing -/

/-- A text handed to `textPrims`. -/
structure TextDraw where
  key : String
  text : String
  pos : Vec2
  a : TextAttrs
  deriving DecidableEq

/-- The lines that glyphs are made for. -/
def textPrims (d : TextDraw) : List (List Char) :=
  match c.textFallback.getD .glyphs with
  | .none => []
  | .glyphs | .box => (d.text.toList.splitOn '\n').filter (· ≠ [])

/-- Some of the text is drawn. -/
def TextDraw.drawn (d : TextDraw) : Bool := textPrims c d ≠ []

/-- `fieldItems`, for a field that no transform applies to. -/
def fieldItems (key : String) (f : SchField) (kind : FieldKind) (offset : Vec2) :
    List TextDraw :=
  let text := fieldShownText (some f) c.showHiddenFields kind
  if text = "" then []
  else
    let t := f.text.getD {}
    [⟨key, text, vAdd (vec t.position) offset, readTextAttrs c t.attributes⟩]

/-- `fieldItems`, for a field of a symbol. -/
def symbolFieldItems (key : String) (f : SchField) (t : SymTransform) (origin : Vec2) :
    List TextDraw :=
  let text := fieldShownText (some f) c.showHiddenFields .field
  if text = "" then []
  else
    let stored := (f.text.getD {}).attributes
    let a := readTextAttrs c stored
    let placed := symbolFieldPlacement J a (vAdd (vec (f.text.getD {}).position) ⟨0, 0⟩) t origin
      (effectivePenWidth stored a.size 0)
    [⟨key, text, placed.pos,
      { a with angle := placed.angle, halign := placed.halign, valign := placed.valign }⟩]

/-- Where the text of a text box starts. -/
def textBoxPos (tb : TextBox) (outer : Margins) (a : TextAttrs) : Vec2 :=
  let tl : Vec2 := ⟨min (vec tb.topLeft).x (vec tb.bottomRight).x,
    min (vec tb.topLeft).y (vec tb.bottomRight).y⟩
  let br : Vec2 := ⟨max (vec tb.topLeft).x (vec tb.bottomRight).x,
    max (vec tb.topLeft).y (vec tb.bottomRight).y⟩
  let ml := nm (outer.marginLeft.or tb.margins.marginLeft)
  let mt := nm (outer.marginTop.or tb.margins.marginTop)
  let mr := nm (outer.marginRight.or tb.margins.marginRight)
  let mb := nm (outer.marginBottom.or tb.margins.marginBottom)
  let mid : Vec2 := ⟨(tl.x + br.x) / 2, (tl.y + br.y) / 2⟩
  if isVertical a.angle then
    { x := match a.valign with | .top => tl.x + ml | .bottom => br.x - mr | .center => mid.x
      y := match a.halign with | .left => br.y - mb | .right => tl.y + mt | .center => mid.y }
  else
    { x := match a.halign with | .left => tl.x + ml | .right => br.x - mr | .center => mid.x
      y := match a.valign with | .top => tl.y + mt | .bottom => br.y - mb | .center => mid.y }

/-- `convertTextBox` -/
def boxItems (key : String) (tb : Option TextBox) (outer : Margins) : List TextDraw :=
  match tb with
  | none => []
  | some tb =>
    let a := readTextAttrs c tb.attributes
    [⟨key, tb.text.getD "", textBoxPos tb outer a, a⟩]

/-- `convertText` -/
def textItems (p : Fields Obj) (id : String) : List TextDraw :=
  match p.text with
  | none => []
  | some t => [⟨id, t.text.getD "", vAdd (vec t.position) SCH_TEXT_OFFSET,
      readTextAttrs c t.attributes⟩]

/-- `convertTable` -/
def tableItems (p : Fields Obj) (id : String) : List TextDraw :=
  (p.cells.mapIdx fun i cell =>
    match cell with
    | none => []
    | some tb => boxItems c (if tb.id = "" then id ++ ":cell" ++ toString i else tb.id)
        tb.textbox tb.margins).flatten

def labelFields (p : Fields Obj) (id : String) (offset : Vec2) : List TextDraw :=
  (labelFieldRefs p id).flatMap fun r => fieldItems c r.key r.field .field offset

/-- `convertLocalLabel`, `convertGlobalLabel` and `convertHierLabel` -/
def labelItems (kind : LabelKind) (p : Fields Obj) (id : String) : List TextDraw :=
  let l := labelTextLayout c kind p
  ⟨id, l.text, l.anchor, l.a⟩ :: labelFields c p id (l.fieldOffset.getD ⟨0, 0⟩)

def sheetPinItems (pin : SheetPin) (index : ℕ) (sheetId : String)
    (vars : Option (List (String × String))) : List TextDraw :=
  let l := sheetPinLayout c pin index sheetId vars
  [⟨l.key, l.text, l.anchor, l.a⟩]

/-- `convertSheet` -/
def sheetItems (p : Fields Obj) (id : String) : List TextDraw :=
  let field (f : Option SchField) (fallback : String) (kind : FieldKind) : List TextDraw :=
    match f with
    | none => []
    | some f => fieldItems c (id ++ ":field:" ++ orText f.name fallback) f kind ⟨0, 0⟩
  field p.nameField "Sheetname" .field ++ field p.filenameField "Sheetfile" .sheetfile ++
    (p.userFields.mapIdx fun i f => field (some f) (toString i) .field).flatten ++
    (p.pins.mapIdx fun i pin => sheetPinItems c pin i id (some (sheetTextVars p))).flatten

/-- The text of a pin, with the attributes that it is drawn with. -/
def pinText (key : String) (layout : Option PinTextLayout) : List TextDraw :=
  (layout.map fun l =>
    ⟨key, l.text, l.pos,
      { size := ⟨l.size, l.size⟩, thickness := l.thickness, angle := l.angle,
        halign := l.halign, valign := l.valign }⟩).toList

def pinItems (pin : Fields Obj) (index : ℕ) (s : SymbolInfo) : List TextDraw :=
  match pinLayout c pin index s with
  | none => []
  | some l =>
    pinText (s.id ++ ":pin:" ++ l.pinKiid ++ ":number") l.texts.number ++
      pinText (s.id ++ ":pin:" ++ l.pinKiid ++ ":name") l.texts.name

def childItems (id : String) (info : SymbolInfo) (d : SymbolChild) : List TextDraw :=
  if d.type = .text then
    match d.proto.text with
    | none => []
    | some txt =>
      let placed := symbolTextPlacement (readTextAttrs c txt.attributes) (vec txt.position)
        info.t info.pos
      [⟨id ++ ":text:" ++ d.cid, txt.text.getD "", placed.2, placed.1⟩]
  else if d.type = .textbox then
    boxItems c (id ++ ":textbox:" ++ d.cid)
      (d.proto.textbox.map fun tb => symbolTextBoxProto tb info.t info.pos) d.proto.margins
  else []

/-- `convertSymbol` -/
def symbolItems (p : Fields Obj) (id : String) : List TextDraw :=
  let parts := symbolParts c p id
  parts.children.flatMap (childItems c id parts.info) ++
    (parts.pins.mapIdx fun i pin => pinItems c pin i parts.info).flatten ++
    parts.fields.flatMap fun f => symbolFieldItems J c f.key f.field parts.info.t parts.info.pos

/-- The texts of an item, in the order in which they are drawn. -/
def convert (type : ItemType) (p : Fields Obj) (id : String) : List TextDraw :=
  match type with
  | .text => textItems c p id
  | .textbox => boxItems c id p.textbox p.margins
  | .label => labelItems c .local p id
  | .globalLabel => labelItems c .global p id
  | .hierLabel => labelItems c .hier p id
  | .directiveLabel => labelFields c p id ⟨0, 0⟩
  | .sheet => sheetItems c p id
  | .sheetPin => sheetPinItems c (asSheetPin p id) 0 id none
  | .symbol => symbolItems J c p id
  | .pin => pinItems c { p with id := id } 0 (pinInfo id)
  | .field => fieldItems c id (asField p) .field ⟨0, 0⟩
  | .table => tableItems c p id
  | _ => []

def schematicItemToRenderItems (item : StoredItemLike) : List TextDraw :=
  item.ownType.elim [] fun type => convert J c type item.proto.fields item.ownId

/-! ### Requests -/

structure RequestTextAttributes where
  horizontalAlignment : ℕ
  verticalAlignment : ℕ
  angle : ℚ
  lineSpacing : ℚ
  strokeWidth : ℤ
  italic : Bool
  bold : Bool
  mirrored : Bool
  size : ℤ × ℤ
  fontName : Option String
  deriving DecidableEq

structure RequestText where
  position : ℤ × ℤ
  text : String
  attributes : RequestTextAttributes
  deriving DecidableEq

structure RequestTextBox where
  topLeft : ℤ × ℤ
  bottomRight : ℤ × ℤ
  attributes : RequestTextAttributes
  text : String
  borderEnabled : Bool
  marginLeft : ℤ
  marginTop : ℤ
  marginRight : ℤ
  marginBottom : ℤ
  deriving DecidableEq

/-- What the place of a measured field is found with. -/
structure Placing where
  text : String
  a : TextAttrs
  pos : Vec2
  t : SymTransform
  origin : Vec2
  stored : TextAttributes
  deriving DecidableEq

/-- What is asked for: a text, a text box, or the extents of a text that its place depends on. -/
inductive Content
  | text (msg : RequestText)
  | textbox (box : RequestTextBox)
  | measured (p : Placing)
  deriving DecidableEq

structure SchTextRequest where
  key : String
  content : Content
  deriving DecidableEq

def HA : HAlign → ℕ
  | .left => 1
  | .center => 2
  | .right => 3

def VA : VAlign → ℕ
  | .top => 1
  | .center => 2
  | .bottom => 3

def big (v : ℚ) : ℤ := ⌊v + 1 / 2⌋

def bigVec (v : Vec2) : ℤ × ℤ := (big v.x, big v.y)

def wirePenWidth (stored : TextAttributes) (resolved : ℚ) : ℚ :=
  let s := nm stored.strokeWidth
  if 1 < s then s else if stored.bold then 0 else resolved

def requestAttributes (size : Vec2) (a : TextAttrs) (stored : TextAttributes) (penWidth : ℚ) :
    RequestTextAttributes where
  horizontalAlignment := HA a.halign
  verticalAlignment := VA a.valign
  angle := a.angle
  lineSpacing := orNumber (a.lineSpacing.getD 0) 1
  strokeWidth := big penWidth
  italic := a.italic
  bold := a.bold
  mirrored := a.mirrored
  size := bigVec size
  fontName := stored.fontName.filter (· ≠ "")

def textMessage (text : String) (pos : Vec2) (a : TextAttrs) (stored : TextAttributes)
    (penWidth : ℚ) : RequestText :=
  ⟨bigVec pos, text, requestAttributes a.size a stored penWidth⟩

/-- `textMessage` with the pen width that it has by default. -/
def plainMessage (text : String) (pos : Vec2) (a : TextAttrs) (stored : TextAttributes) :
    RequestText :=
  textMessage text pos a stored (wirePenWidth stored a.thickness)

def textRequest (key : String) (msg : RequestText) : SchTextRequest := ⟨key, .text msg⟩

def textBoxRequest (key : String) (tb : TextBox) (outer : Margins) : List SchTextRequest :=
  if tb.text.getD "" = "" then []
  else
    let a := readTextAttrs c tb.attributes
    [⟨key, .textbox {
      topLeft := bigVec (vec tb.topLeft)
      bottomRight := bigVec (vec tb.bottomRight)
      attributes := requestAttributes (readTextSize c tb.attributes) a tb.attributes
        (wirePenWidth tb.attributes a.thickness)
      text := tb.text.getD ""
      borderEnabled := tb.borderEnabled.getD true
      marginLeft := big (nm (outer.marginLeft.or tb.margins.marginLeft))
      marginTop := big (nm (outer.marginTop.or tb.margins.marginTop))
      marginRight := big (nm (outer.marginRight.or tb.margins.marginRight))
      marginBottom := big (nm (outer.marginBottom.or tb.margins.marginBottom)) }⟩]

def plainFieldRequest (key : String) (f : Option SchField) (offset : Vec2) (kind : FieldKind) :
    List SchTextRequest :=
  let text := fieldShownText f c.showHiddenFields kind
  let t := (f.bind (·.text)).getD {}
  if text = "" then []
  else [textRequest key (plainMessage text (vAdd (vec t.position) offset)
    (readTextAttrs c t.attributes) t.attributes)]

/-- The pen of `GetTextBox`. -/
def boxPen (stored : TextAttributes) (a : TextAttrs) : ℚ :=
  let s := nm stored.strokeWidth
  let w := if 1 < s then (if stored.bold then roundHalfUp (s * (16 / 10)) else s)
    else if stored.bold then roundHalfUp (a.size.x / 5) else roundHalfUp (a.size.x / 8)
  min w (roundHalfUp (min a.size.x a.size.y * (1 / 4)))

/-- The attributes with a placement's. -/
def placedAttrs (a : TextAttrs) (p : FieldPlacement) : TextAttrs :=
  { a with angle := p.angle, halign := p.halign, valign := p.valign }

/-- The request for the extents. -/
def Placing.measure (p : Placing) : RequestText :=
  textMessage p.text p.pos p.a p.stored (nm p.stored.strokeWidth)

/-- The request for the text, with its box known. -/
def Placing.place (p : Placing) (box : Box) : RequestText :=
  let m := symbolFieldPlacementFromBox p.a p.pos p.t p.origin box
  plainMessage p.text m.pos (placedAttrs p.a m) p.stored

def symbolFieldRequest (key : String) (f : SchField) (t : SymTransform) (origin : Vec2) :
    List SchTextRequest :=
  let text := fieldShownText (some f) c.showHiddenFields .field
  if text = "" then []
  else
    let stored := (f.text.getD {}).attributes
    let a := readTextAttrs c stored
    let pos := vec (f.text.getD {}).position
    let placed := symbolFieldPlacement J a pos t origin (boxPen stored a)
    if placed.exact then
      [textRequest key (plainMessage text placed.pos (placedAttrs a placed) stored)]
    else
      [⟨key, .measured ⟨text, a, pos, t, origin, stored⟩⟩]

/-- The request for the text of a pin. -/
def pinTextRequest (key : String) (layout : Option PinTextLayout) : List SchTextRequest :=
  (layout.map fun l =>
    textRequest key (textMessage l.text l.pos
      { size := ⟨l.size, l.size⟩, thickness := l.thickness, angle := l.angle,
        halign := l.halign, valign := l.valign, lineSpacing := some 1 } {} l.thickness)).toList

def pinRequests (id : String) (pin : Fields Obj) (index : ℕ) (info : SymbolInfo) :
    List SchTextRequest :=
  match pinLayout c pin index info with
  | none => []
  | some l =>
    pinTextRequest (id ++ ":pin:" ++ l.pinKiid ++ ":number") l.texts.number ++
      pinTextRequest (id ++ ":pin:" ++ l.pinKiid ++ ":name") l.texts.name

def childRequests (id : String) (info : SymbolInfo) (d : SymbolChild) : List SchTextRequest :=
  if d.type = .text then
    let txt := d.proto.text.getD {}
    if txt.text.getD "" = "" then []
    else
      let placed := symbolTextPlacement (readTextAttrs c txt.attributes) (vec txt.position)
        info.t info.pos
      [textRequest (id ++ ":text:" ++ d.cid)
        (plainMessage (txt.text.getD "") placed.2 placed.1 txt.attributes)]
  else if d.type = .textbox then
    match d.proto.textbox with
    | none => []
    | some tb => textBoxRequest c (id ++ ":textbox:" ++ d.cid)
        (symbolTextBoxProto tb info.t info.pos) d.proto.margins
  else []

def symbolRequests (p : Fields Obj) (id : String) : List SchTextRequest :=
  let parts := symbolParts c p id
  (parts.pins.mapIdx fun i pin => pinRequests c id pin i parts.info).flatten ++
    (parts.fields.flatMap fun f =>
      symbolFieldRequest J c f.key f.field parts.info.t parts.info.pos) ++
    parts.children.flatMap (childRequests c id parts.info)

def sheetPinRequest (pin : SheetPin) (index : ℕ) (sheetId : String)
    (vars : Option (List (String × String))) : List SchTextRequest :=
  let l := sheetPinLayout c pin index sheetId vars
  if l.text = "" then []
  else [textRequest l.key (plainMessage l.text l.anchor l.a pin.text.attributes)]

def sheetRequests (p : Fields Obj) (id : String) : List SchTextRequest :=
  let key (f : Option SchField) (fallback : String) : String :=
    id ++ ":field:" ++ orText (f.bind (·.name)) fallback
  plainFieldRequest c (key p.nameField "Sheetname") p.nameField ⟨0, 0⟩ .field ++
    plainFieldRequest c (key p.filenameField "Sheetfile") p.filenameField ⟨0, 0⟩ .sheetfile ++
    (p.userFields.mapIdx fun i f =>
      plainFieldRequest c (key (some f) (toString i)) (some f) ⟨0, 0⟩ .field).flatten ++
    (p.pins.mapIdx fun i pin => sheetPinRequest c pin i id (some (sheetTextVars p))).flatten

/-- `labelRequests`, `kind` being none for a directive label. -/
def labelRequests (kind : Option LabelKind) (p : Fields Obj) (id : String) :
    List SchTextRequest :=
  let own := match kind with
    | none => []
    | some kind =>
      let l := labelTextLayout c kind p
      if l.text = "" then []
      else [textRequest id (plainMessage l.text l.anchor l.a (p.text.getD {}).attributes)]
  let offset := (kind.bind fun kind => (labelTextLayout c kind p).fieldOffset).getD ⟨0, 0⟩
  own ++ (labelFieldRefs p id).flatMap fun r =>
    plainFieldRequest c r.key (some r.field) offset .field

def tableRequests (p : Fields Obj) : List SchTextRequest :=
  p.cells.flatMap fun cell =>
    match cell with
    | none => []
    | some tb =>
      match tb.textbox with
      | none => []
      | some box => if tb.id = "" then [] else textBoxRequest c tb.id box tb.margins

def requestsOf (type : ItemType) (p : Fields Obj) (id : String) : List SchTextRequest :=
  match type with
  | .text =>
    let t := p.text.getD {}
    if t.text.getD "" = "" then []
    else [textRequest id (plainMessage (t.text.getD "") (vAdd (vec t.position) SCH_TEXT_OFFSET)
      (readTextAttrs c t.attributes) t.attributes)]
  | .textbox =>
    match p.textbox with
    | none => []
    | some tb => textBoxRequest c id tb p.margins
  | .table => tableRequests c p
  | .label => labelRequests c (some .local) p id
  | .globalLabel => labelRequests c (some .global) p id
  | .hierLabel => labelRequests c (some .hier) p id
  | .directiveLabel => labelRequests c none p id
  | .sheet => sheetRequests c p id
  | .sheetPin => sheetPinRequest c (asSheetPin p id) 0 id none
  | .symbol => symbolRequests J c p id
  | .pin => pinRequests c id { p with id := id } 0 (pinInfo id)
  | .field => plainFieldRequest c id (some (asField p)) ⟨0, 0⟩ .field
  | _ => []

def schematicTextRequests (item : StoredItemLike) : List SchTextRequest :=
  item.ownType.elim [] fun type => requestsOf J c type item.proto.fields item.ownId

/-! ### A request for each text -/

def Content.shown : Content → String
  | .text msg => msg.text
  | .textbox box => box.text
  | .measured p => p.text

/-- The message places its text where it is drawn. -/
structure PlacedAs (msg : RequestText) (d : TextDraw) : Prop where
  position : msg.position = bigVec d.pos
  angle : msg.attributes.angle = d.a.angle
  halign : msg.attributes.horizontalAlignment = HA d.a.halign
  valign : msg.attributes.verticalAlignment = VA d.a.valign
  size : msg.attributes.size = bigVec d.a.size

/-- The request is for the text that is drawn, at its place unless that is laid out by KiCad. -/
structure Agrees (r : SchTextRequest) (d : TextDraw) : Prop where
  key : r.key = d.key
  shown : r.content.shown = d.text
  placed : ∀ msg, r.content = .text msg → PlacedAs msg d

def shownDraws (ds : List TextDraw) : List TextDraw := ds.filter (·.text ≠ "")

/-- The requests are for the texts, those without characters apart, in their order. -/
def Paired (rs : List SchTextRequest) (ds : List TextDraw) : Prop :=
  List.Forall₂ Agrees rs (shownDraws ds)

lemma paired_nil : Paired [] [] := .nil

lemma paired_append {rs rs' : List SchTextRequest} {ds ds' : List TextDraw} (h : Paired rs ds)
    (h' : Paired rs' ds') : Paired (rs ++ rs') (ds ++ ds') := by
  rw [Paired, shownDraws, List.filter_append]
  exact List.rel_append h h'

lemma paired_flatten {rss : List (List SchTextRequest)} {dss : List (List TextDraw)}
    (h : List.Forall₂ Paired rss dss) : Paired rss.flatten dss.flatten := by
  induction h with
  | nil => exact paired_nil
  | cons h _ ih => exact paired_append h ih

lemma paired_flatMap {α : Type} {l : List α} {f : α → List SchTextRequest}
    {g : α → List TextDraw} (h : ∀ x ∈ l, Paired (f x) (g x)) :
    Paired (l.flatMap f) (l.flatMap g) := by
  exact paired_flatten (List.forall₂_map_left_iff.mpr (List.forall₂_map_right_iff.mpr
    (List.forall₂_same.mpr h)))

lemma paired_mapIdx {α : Type} {l : List α} {f : ℕ → α → List SchTextRequest}
    {g : ℕ → α → List TextDraw} (h : ∀ i, ∀ x ∈ l, Paired (f i x) (g i x)) :
    Paired (l.mapIdx f).flatten (l.mapIdx g).flatten := by
  refine paired_flatten (List.forall₂_iff_get.mpr ⟨by simp, fun i hi hi' => ?_⟩)
  simp only [List.get_eq_getElem, List.getElem_mapIdx]
  exact h i _ (List.getElem_mem _)

lemma paired_one {r : SchTextRequest} {d : TextDraw} (h : d.text ≠ "" → Agrees r d) :
    Paired (if d.text = "" then [] else [r]) [d] := by
  by_cases hd : d.text = ""
  · simp [Paired, shownDraws, hd]
  · simpa [Paired, shownDraws, hd] using h hd

lemma paired_single {r : SchTextRequest} {d : TextDraw} (htext : d.text ≠ "") (h : Agrees r d) :
    Paired [r] [d] := by
  simpa [Paired, shownDraws, htext] using h

lemma flatMap_eq_mapIdx {α β : Type} (l : List α) (f : α → List β) :
    l.flatMap f = (l.mapIdx fun _ x => f x).flatten := by
  exact congrArg List.flatten (List.ext_getElem (by simp) (by simp))

lemma agrees_message {key text : String} {pos : Vec2} {a : TextAttrs} {stored : TextAttributes}
    {penWidth : ℚ} {d : TextDraw} (hkey : key = d.key) (htext : text = d.text) (hpos : pos = d.pos)
    (hangle : a.angle = d.a.angle) (hhalign : a.halign = d.a.halign)
    (hvalign : a.valign = d.a.valign) (hsize : a.size = d.a.size) :
    Agrees (textRequest key (textMessage text pos a stored penWidth)) d := by
  refine ⟨hkey, htext, fun msg hmsg => ?_⟩
  obtain rfl := Content.text.inj hmsg
  exact ⟨congrArg bigVec hpos, hangle, congrArg HA hhalign, congrArg VA hvalign,
    congrArg bigVec hsize⟩

lemma agrees_plain (d : TextDraw) (stored : TextAttributes) :
    Agrees (textRequest d.key (plainMessage d.text d.pos d.a stored)) d :=
  agrees_message rfl rfl rfl rfl rfl rfl rfl

variable {J c}

lemma paired_plain (d : TextDraw) (stored : TextAttributes) :
    Paired (if d.text = "" then [] else
      [textRequest d.key (plainMessage d.text d.pos d.a stored)]) [d] :=
  paired_one fun _ => agrees_plain d stored

lemma paired_plainField (key : String) (f : SchField) (offset : Vec2) (kind : FieldKind) :
    Paired (plainFieldRequest c key (some f) offset kind) (fieldItems c key f kind offset) := by
  rw [plainFieldRequest, fieldItems]
  by_cases h : fieldShownText (some f) c.showHiddenFields kind = ""
  · simp only [h, if_pos]
    exact paired_nil
  · simp only [if_neg h]
    exact paired_single h (agrees_plain ⟨key, _, _, _⟩ _)

lemma paired_textBox (key : String) (tb : TextBox) (outer : Margins) :
    Paired (textBoxRequest c key tb outer) (boxItems c key (some tb) outer) :=
  paired_one (d := ⟨key, _, _, _⟩) fun _ => ⟨rfl, rfl, fun msg hmsg => by cases hmsg⟩

lemma boxPen_eq (stored : TextAttributes) (a : TextAttrs) :
    boxPen stored a = effectivePenWidth stored a.size 0 := by
  rw [boxPen, effectivePenWidth]
  by_cases h : 1 < nm stored.strokeWidth
  · simp [if_pos h, if_neg (not_le.mpr h)]
  · simp [if_neg h, if_pos (not_lt.mp h), zero_le_one]

lemma vAdd_zero (p : Vec2) : vAdd p ⟨0, 0⟩ = p := by
  simp [vAdd]

lemma paired_symbolField (key : String) (f : SchField) (t : SymTransform) (origin : Vec2) :
    Paired (symbolFieldRequest J c key f t origin) (symbolFieldItems J c key f t origin) := by
  rw [symbolFieldRequest, symbolFieldItems]
  by_cases h : fieldShownText (some f) c.showHiddenFields .field = ""
  · simp only [h, if_pos]
    exact paired_nil
  simp only [if_neg h, vAdd_zero, boxPen_eq]
  -- the field is placed by its own box, or its extents are asked for
  split_ifs
  · exact paired_single h (agrees_plain ⟨key, _, _, _⟩ _)
  · exact paired_single h ⟨rfl, rfl, fun msg hmsg => by cases hmsg⟩

lemma paired_pinText (key : String) (layout : Option PinTextLayout)
    (hshown : ∀ l ∈ layout, l.text ≠ "") :
    Paired (pinTextRequest key layout) (pinText key layout) := by
  cases layout with
  | none => exact paired_nil
  | some l =>
    exact paired_single (hshown l rfl) (agrees_message rfl rfl rfl rfl rfl rfl rfl)

lemma pinTextLayouts_shown (g : PinGeom) (name number : String)
    (numSize nameSize penWidth inside : ℚ) :
    (∀ l ∈ (pinTextLayouts c g name number numSize nameSize penWidth inside).number,
      l.text ≠ "") ∧
    ∀ l ∈ (pinTextLayouts c g name number numSize nameSize penWidth inside).name, l.text ≠ "" := by
  unfold pinTextLayouts
  constructor
  all_goals
    intro l hl
    simp only [decide_eq_true_eq] at hl
    split_ifs at hl <;> simp only [Option.mem_def, reduceCtorEq, Option.some.injEq] at hl
    all_goals
      subst hl
      simp_all

lemma paired_pin (id : String) (pin : Fields Obj) (index : ℕ) (info : SymbolInfo)
    (hid : info.id = id) :
    Paired (pinRequests c id pin index info) (pinItems c pin index info) := by
  rw [pinRequests, pinItems, hid]
  rcases hl : pinLayout c pin index info with _ | l
  · exact paired_nil
  have hshown : (∀ t ∈ l.texts.number, t.text ≠ "") ∧ ∀ t ∈ l.texts.name, t.text ≠ "" := by
    by_cases hhidden : pin.visible = some false ∧ ¬ c.showHiddenPins
    · rw [pinLayout, if_pos hhidden] at hl
      cases hl
    · rw [pinLayout, if_neg hhidden] at hl
      obtain rfl := Option.some.inj hl
      exact pinTextLayouts_shown ..
  exact paired_append (paired_pinText _ _ hshown.1) (paired_pinText _ _ hshown.2)

lemma paired_child (id : String) (info : SymbolInfo) (d : SymbolChild) :
    Paired (childRequests c id info d) (childItems c id info d) := by
  rw [childRequests, childItems]
  split_ifs
  · rcases d.proto.text with _ | txt
    · exact paired_nil
    · exact paired_plain ⟨_, _, _, _⟩ _
  · rcases d.proto.textbox with _ | tb
    · exact paired_nil
    · exact paired_textBox _ _ _
  · exact paired_nil

lemma paired_sheetPin (pin : SheetPin) (index : ℕ) (sheetId : String)
    (vars : Option (List (String × String))) :
    Paired (sheetPinRequest c pin index sheetId vars) (sheetPinItems c pin index sheetId vars) :=
  paired_plain ⟨_, _, _, _⟩ _

lemma paired_sheet (p : Fields Obj) (id : String) :
    Paired (sheetRequests c p id) (sheetItems c p id) := by
  refine paired_append (paired_append (paired_append ?_ ?_) ?_) ?_
  · cases p.nameField with
    | none => exact paired_nil
    | some f => exact paired_plainField _ f _ _
  · cases p.filenameField with
    | none => exact paired_nil
    | some f => exact paired_plainField _ f _ _
  · exact paired_mapIdx fun i f _ => paired_plainField _ f _ _
  · exact paired_mapIdx fun i pin _ => paired_sheetPin pin i id _

lemma paired_labelFields (p : Fields Obj) (id : String) (offset : Vec2) :
    Paired ((labelFieldRefs p id).flatMap fun r =>
      plainFieldRequest c r.key (some r.field) offset .field) (labelFields c p id offset) :=
  paired_flatMap fun r _ => paired_plainField r.key r.field offset .field

lemma paired_label (kind : LabelKind) (p : Fields Obj) (id : String) :
    Paired (labelRequests c (some kind) p id) (labelItems c kind p id) :=
  show Paired _ ([_] ++ _) from paired_append (paired_plain ⟨_, _, _, _⟩ _) (paired_labelFields p id _)

lemma paired_table (p : Fields Obj) (id : String)
    (hcells : ∀ cell ∈ p.cells, ∀ tb ∈ cell, tb.id ≠ "") :
    Paired (tableRequests c p) (tableItems c p id) := by
  rw [tableRequests, flatMap_eq_mapIdx]
  refine paired_mapIdx fun i cell hcell => ?_
  rcases cell with _ | tb
  · exact paired_nil
  have hid : tb.id ≠ "" := hcells _ hcell tb rfl
  rcases hbox : tb.textbox with _ | box
  · simp only [hbox]
    exact paired_nil
  · simp only [hbox, if_neg hid]
    exact paired_textBox _ _ _

/-- The requests are for the texts that an item is drawn with, in some order. -/
def Covers (rs : List SchTextRequest) (ds : List TextDraw) : Prop :=
  ∃ ds', ds'.Perm (shownDraws ds) ∧ List.Forall₂ Agrees rs ds'

lemma Paired.covers {rs : List SchTextRequest} {ds : List TextDraw} (h : Paired rs ds) :
    Covers rs ds := ⟨_, .refl _, h⟩

/-- The children of a symbol are drawn first, and asked for last. -/
lemma covers_symbol (p : Fields Obj) (id : String) :
    Covers (symbolRequests J c p id) (symbolItems J c p id) := by
  have hpins : Paired
      (((symbolParts c p id).pins.mapIdx fun i pin =>
        pinRequests c id pin i (symbolParts c p id).info).flatten)
      (((symbolParts c p id).pins.mapIdx fun i pin =>
        pinItems c pin i (symbolParts c p id).info).flatten) :=
    paired_mapIdx fun i pin _ => paired_pin id pin i _ rfl
  have hfields : Paired
      ((symbolParts c p id).fields.flatMap fun f => symbolFieldRequest J c f.key f.field
        (symbolParts c p id).info.t (symbolParts c p id).info.pos)
      ((symbolParts c p id).fields.flatMap fun f => symbolFieldItems J c f.key f.field
        (symbolParts c p id).info.t (symbolParts c p id).info.pos) :=
    paired_flatMap fun f _ => paired_symbolField _ _ _ _
  have hchildren : Paired
      ((symbolParts c p id).children.flatMap (childRequests c id (symbolParts c p id).info))
      ((symbolParts c p id).children.flatMap (childItems c id (symbolParts c p id).info)) :=
    paired_flatMap fun d _ => paired_child _ _ _
  refine ⟨_, ?_, paired_append (paired_append hpins hfields) hchildren⟩
  simp only [symbolItems, shownDraws, List.append_assoc]
  exact List.Perm.filter _ (List.perm_append_comm.trans (by rw [List.append_assoc])).symm

lemma covers_convert (type : ItemType) (p : Fields Obj) (id : String)
    (hcells : type = .table → ∀ cell ∈ p.cells, ∀ tb ∈ cell, tb.id ≠ "") :
    Covers (requestsOf J c type p id) (convert J c type p id) := by
  cases type
  case symbol => exact covers_symbol p id
  all_goals refine Paired.covers ?_
  case text =>
    rcases ht : p.text with _ | t
    · simp only [requestsOf, convert, textItems, ht]
      exact paired_nil
    · simp only [requestsOf, convert, textItems, ht]
      exact paired_plain ⟨_, _, _, _⟩ _
  case textbox =>
    rcases htb : p.textbox with _ | tb
    · simp only [requestsOf, convert, htb]
      exact paired_nil
    · simp only [requestsOf, convert, htb]
      exact paired_textBox _ _ _
  case table => exact paired_table p id (hcells rfl)
  case label => exact paired_label .local p id
  case globalLabel => exact paired_label .global p id
  case hierLabel => exact paired_label .hier p id
  case directiveLabel => exact paired_labelFields p id _
  case sheet => exact paired_sheet p id
  case sheetPin => exact paired_sheetPin _ _ _ _
  case pin => exact paired_pin id _ _ _ rfl
  case field => exact paired_plainField id _ _ _
  all_goals exact paired_nil

/-! ### The two walks -/

/-- Some request has this key and this text. -/
def Requested (rs : List SchTextRequest) (key text : String) : Prop :=
  ∃ r ∈ rs, r.key = key ∧ r.content.shown = text

/-- What an item is asked for against what is drawn of it. -/
structure Matches (item : StoredItemLike) : Prop where
  /-- The requests are for the texts with characters that are laid out, by their keys. -/
  requested : ∀ key text, Requested (schematicTextRequests J c item) key text ↔
    text ≠ "" ∧ ∃ d ∈ schematicItemToRenderItems J c item, d.key = key ∧ d.text = text
  /-- Unless nothing is drawn without shapes, those with a line that is not empty are drawn. -/
  drawn : ∀ key text,
    (∃ d ∈ schematicItemToRenderItems J c item, d.drawn c ∧ d.key = key ∧ d.text = text) ↔
      Requested (schematicTextRequests J c item) key text ∧
        c.textFallback ≠ some .none ∧ ∃ line ∈ text.toList.splitOn '\n', line ≠ []
  /-- Request by request, the places agree. -/
  covers : Covers (schematicTextRequests J c item) (schematicItemToRenderItems J c item)

lemma exists_partner {α β : Type} {R : α → β → Prop} {l : List α} {l' : List β}
    (h : List.Forall₂ R l l') {x : α} (hx : x ∈ l) : ∃ y ∈ l', R x y := by
  obtain ⟨i, hi, rfl⟩ := List.mem_iff_getElem.mp hx
  exact ⟨_, List.getElem_mem (h.length_eq ▸ hi), h.get hi (h.length_eq ▸ hi)⟩

lemma Covers.requested {rs : List SchTextRequest} {ds : List TextDraw} (h : Covers rs ds)
    (key text : String) :
    Requested rs key text ↔ text ≠ "" ∧ ∃ d ∈ ds, d.key = key ∧ d.text = text := by
  obtain ⟨ds', hperm, hall⟩ := h
  constructor
  · rintro ⟨r, hr, rfl, rfl⟩
    obtain ⟨d, hd, hagrees⟩ := exists_partner hall hr
    have hmem := hperm.mem_iff.mp hd
    rw [shownDraws, List.mem_filter, decide_eq_true_eq] at hmem
    exact ⟨hagrees.shown ▸ hmem.2, d, hmem.1, hagrees.key.symm, hagrees.shown.symm⟩
  · rintro ⟨htext, d, hd, rfl, rfl⟩
    have hmem : d ∈ ds' := hperm.mem_iff.mpr (List.mem_filter.mpr ⟨hd, by simpa using htext⟩)
    obtain ⟨r, hr, hagrees⟩ := exists_partner hall.flip hmem
    exact ⟨r, hr, hagrees.key, hagrees.shown⟩

lemma drawn_iff (d : TextDraw) :
    d.drawn c ↔ c.textFallback ≠ some .none ∧ ∃ line ∈ d.text.toList.splitOn '\n', line ≠ [] := by
  rw [TextDraw.drawn, textPrims]
  rcases hmode : c.textFallback with _ | mode
  · simp
  · cases mode <;> simp

variable (J c)

/-- **Requests and drawing**: KiCad is asked for just the texts that the adapter lays out, under
the keys that it looks up, each at the place, the angle, the alignment and the size that it is
drawn with, text boxes and measured fields apart. -/
theorem requests_match {item : StoredItemLike}
    (hcells : item.ownType = some .table → ∀ cell ∈ item.proto.fields.cells, ∀ tb ∈ cell,
      tb.id ≠ "") : Matches (J := J) (c := c) item := by
  have hcovers : Covers (schematicTextRequests J c item)
      (schematicItemToRenderItems J c item) := by
    rw [schematicTextRequests, schematicItemToRenderItems]
    rcases htype : item.ownType with _ | type
    · exact paired_nil.covers
    · exact covers_convert type _ _ fun h => hcells (htype.trans (congrArg some h))
  refine ⟨hcovers.requested, fun key text => ?_, hcovers⟩
  rw [hcovers.requested]
  constructor
  · rintro ⟨d, hd, hdrawn, rfl, rfl⟩
    obtain ⟨hmode, line, hline, hne⟩ := (drawn_iff d).mp hdrawn
    have htext : d.text ≠ "" := by
      intro h
      rw [h] at hline
      simp at hline
      exact hne hline
    exact ⟨⟨htext, d, hd, rfl, rfl⟩, hmode, line, hline, hne⟩
  · rintro ⟨⟨_, d, hd, rfl, rfl⟩, hmode, hline⟩
    exact ⟨d, hd, (drawn_iff d).mpr ⟨hmode, hline⟩, rfl, rfl⟩

/-! ### Two items -/

def noMath : JsMath := ⟨3, fun _ => 0, fun _ => 0⟩

/-- A table with one cell, of two lines. -/
def sampleTable : StoredItemLike where
  id := "T1"
  type := some .table
  proto := .message none { cells := [none, some { id := "C1", textbox := some {
    text := some "one\ntwo" } }] }

theorem requests_match_table : Matches (J := noMath) (c := {}) sampleTable :=
  requests_match noMath {} fun _ cell hcell tb htb => by
    simp only [sampleTable, Obj.fields, List.mem_cons, List.not_mem_nil, or_false] at hcell
    rcases hcell with rfl | rfl
    · cases htb
    · obtain rfl := Option.some.inj htb
      decide

/-- A text, and a context in which a text without shapes is not drawn. -/
def sampleText : StoredItemLike where
  id := "S1"
  type := some .text
  proto := .message none { text := some { text := some "R" } }

def noFallback : SchematicAdapterContext := { textFallback := some .none }

/-- The text is asked for, and nothing is drawn. -/
theorem requested_undrawn :
    Requested (schematicTextRequests noMath noFallback sampleText) "S1" "R" ∧
      ∀ d ∈ schematicItemToRenderItems noMath noFallback sampleText, ¬ d.drawn noFallback := by
  refine ⟨⟨_, List.mem_singleton.mpr rfl, rfl, rfl⟩, fun d _ => ?_⟩
  simp [TextDraw.drawn, textPrims, noFallback]

end FabPcb.TextRequests
