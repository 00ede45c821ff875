import FabPcb.JsonText
import FabPcb.SpecctraData
import FabPcb.TextRequests
import Mathlib.Tactic.Linarith
import Mathlib.Tactic.Ring

/-!
The hashes of texts, by which the shapes that are cached for a text are known to be those of the
text as it is: `hashText` for the texts of boards, and the hashes that the requests of a schematic
bring with them.

A hash of the first kind is the fields, joined with bars; one of the second kind is the request, as
JSON.
-/

namespace FabPcb.TextHashes

open SchematicTexts (JsMath SymTransform Vec2 SchematicAdapterContext)
open SpecctraData (printRat readRat readRat_print isNumeral_print printFraction_digit)
open JsonText (inNumeral NumberText Json Elems Members stringify stringify_inj)
open TextRequests

/-! ### Texts of numbers -/

lemma printRat_inj : Function.Injective printRat := fun p q h => by
  have hread := congrArg readRat h
  rwa [readRat_print, readRat_print, Option.some.injEq] at hread

lemma printRat_ne (q : ℚ) : printRat q ≠ [] := by
  obtain ⟨c, cs, hprint, -⟩ := printFraction_digit q.num.natAbs q.den
  unfold printRat
  split_ifs <;> simp [hprint]

lemma inNumeral_printRat (q : ℚ) : ∀ c ∈ printRat q, inNumeral c := by
  have hfraction : ∀ c ∈ SpecctraData.printFraction q.num.natAbs q.den, inNumeral c := by
    intro c hc
    have h := isNumeral_print hc
    simp only [SpecctraData.isNumeral, Bool.or_eq_true, decide_eq_true_eq] at h
    rcases h with (h | rfl) | rfl <;> simp [inNumeral, *]
  intro c hc
  unfold printRat at hc
  split_ifs at hc
  · rcases List.mem_cons.mp hc with rfl | hc
    · rfl
    · exact hfraction c hc
  · exact hfraction c hc

/-- Numbers printed as fractions, which the integers are printed the usual way by. -/
def fractionText : NumberText := ⟨printRat, printRat_inj, inNumeral_printRat, printRat_ne⟩

/-- The digits of a `bigint`. -/
def bigText (z : ℤ) : List Char := printRat z

lemma bigText_inj : Function.Injective bigText := fun _ _ h =>
  Int.cast_injective (printRat_inj h)

variable (N : NumberText)

/-! ### Texts of boards -/

structure Attributes where
  angle : Option ℚ
  size : Option (ℤ × ℤ)
  strokeWidth : Option ℤ
  horizontalAlignment : ℕ
  verticalAlignment : ℕ
  italic : Bool
  bold : Bool
  underlined : Bool
  mirrored : Bool
  multiline : Bool
  fontName : List Char
  lineSpacing : Option ℚ
  deriving DecidableEq

structure Text where
  text : List Char
  position : Option (ℤ × ℤ)
  attributes : Option Attributes
  deriving DecidableEq

structure TextBox where
  text : List Char
  topLeft : Option (ℤ × ℤ)
  bottomRight : Option (ℤ × ℤ)
  marginLeft : Option ℤ
  marginTop : Option ℤ
  marginRight : Option ℤ
  marginBottom : Option ℤ
  attributes : Option Attributes
  deriving DecidableEq

/-- A text of a board as it is sent for its shapes, with the fields that these depend on. -/
inductive TextRef
  | text (t : Text)
  | textbox (b : TextBox)
  deriving DecidableEq

/-- A part of a joined text; what is undefined is empty. -/
def cell {α : Type} (print : α → List Char) (v : Option α) : List Char := v.elim [] print

def boolText (b : Bool) : List Char := if b then "true".toList else "false".toList

def join (parts : List (List Char)) : List Char := ['|'].intercalate parts

/-- The parts of `hashAttrs`, but for the last two. -/
def attrCells (a : Option Attributes) : List (List Char) :=
  [cell N.print (a.bind (·.angle)), cell bigText ((a.bind (·.size)).map (·.1)),
    cell bigText ((a.bind (·.size)).map (·.2)), cell bigText (a.bind (·.strokeWidth)),
    cell (fun n : ℕ => N.print n) (a.map (·.horizontalAlignment)),
    cell (fun n : ℕ => N.print n) (a.map (·.verticalAlignment)), cell boolText (a.map (·.italic)),
    cell boolText (a.map (·.bold)), cell boolText (a.map (·.mirrored))]

def fontCell (a : Option Attributes) : List Char := cell id (a.map (·.fontName))

def spacingCell (a : Option Attributes) : List Char := cell N.print (a.bind (·.lineSpacing))

def hashAttrs (a : Option Attributes) : List Char :=
  join (attrCells N a ++ [fontCell a, spacingCell N a])

def pointCells (p : Option (ℤ × ℤ)) : List (List Char) :=
  [cell bigText (p.map (·.1)), cell bigText (p.map (·.2))]

/-- The parts of the place of a text. -/
def placeCells : TextRef → List (List Char)
  | .text t => pointCells t.position
  | .textbox b => pointCells b.topLeft ++ pointCells b.bottomRight ++
      [cell bigText b.marginLeft, cell bigText b.marginTop, cell bigText b.marginRight,
        cell bigText b.marginBottom]

def TextRef.attributes : TextRef → Option Attributes
  | .text t => t.attributes
  | .textbox b => b.attributes

/-- The parts before the place. -/
def textCells : TextRef → List (List Char)
  | .text t => [t.text]
  | .textbox b => ["box".toList, b.text]

def hashText (r : TextRef) : List Char :=
  join (textCells r ++ placeCells r ++ [hashAttrs N r.attributes])

/-! ### Rows of cells -/

/-- The text of a text, or `box` and that of a text box, cut at the bars. -/
def headRow (r : TextRef) : List (List Char) := (textCells r).flatMap (·.splitOn '|')

/-- The numbers and the font, this one cut at the bars. -/
def tailRow (r : TextRef) : List (List Char) :=
  placeCells r ++ attrCells N r.attributes ++ (fontCell r.attributes).splitOn '|'

def row (r : TextRef) : List (List Char) :=
  headRow r ++ tailRow N r ++ [spacingCell N r.attributes]

lemma splitOn_join {parts : List (List Char)} (h : parts ≠ []) :
    (join parts).splitOn '|' = parts.flatMap (·.splitOn '|') := by
  induction parts with
  | nil => exact absurd rfl h
  | cons p ps ih =>
    cases ps with
    | nil => simp [join]
    | cons q qs =>
      have hjoin : join (p :: q :: qs) = p ++ '|' :: join (q :: qs) := by
        simp [join, List.intercalate_cons_cons]
      rw [hjoin, List.splitOn_append_cons_self, ih (List.cons_ne_nil _ _)]
      rfl

lemma join_splitOn (s : List Char) : join (s.splitOn '|') = s := List.intercalate_splitOn '|'

lemma bar_notMem_numeral {cs : List Char} (h : ∀ c ∈ cs, inNumeral c) : '|' ∉ cs :=
  fun hmem => absurd (h _ hmem) (by decide)

lemma splitOn_cell {α : Type} {print : α → List Char} {v : Option α}
    (h : ∀ a, '|' ∉ print a) : (cell print v).splitOn '|' = [cell print v] := by
  refine List.splitOn_eq_singleton ?_
  cases v with
  | none => exact List.not_mem_nil
  | some a => exact h a

lemma bar_notMem_print (q : ℚ) : '|' ∉ N.print q := bar_notMem_numeral (N.numeral q)

lemma bar_notMem_bigText (z : ℤ) : '|' ∉ bigText z := bar_notMem_numeral (inNumeral_printRat z)

lemma bar_notMem_boolText (b : Bool) : '|' ∉ boolText b := by
  cases b <;> decide

lemma splitOn_placeCells (r : TextRef) :
    (placeCells r).flatMap (·.splitOn '|') = placeCells r := by
  cases r <;> simp [placeCells, pointCells, splitOn_cell bar_notMem_bigText]

lemma splitOn_attrCells (a : Option Attributes) :
    (attrCells N a).flatMap (·.splitOn '|') = attrCells N a := by
  simp [attrCells, splitOn_cell bar_notMem_bigText, splitOn_cell (bar_notMem_print N),
    splitOn_cell (fun n : ℕ => bar_notMem_print N n), splitOn_cell bar_notMem_boolText]

lemma splitOn_hashText (r : TextRef) : (hashText N r).splitOn '|' = row N r := by
  have hattrs : (hashAttrs N r.attributes).splitOn '|' =
      attrCells N r.attributes ++ (fontCell r.attributes).splitOn '|' ++
        [spacingCell N r.attributes] := by
    rw [hashAttrs, splitOn_join (by simp), List.flatMap_append, splitOn_attrCells]
    simp [spacingCell, splitOn_cell (bar_notMem_print N)]
  rw [hashText, splitOn_join (by simp), List.flatMap_append, List.flatMap_append,
    splitOn_placeCells, List.flatMap_singleton, hattrs]
  simp [row, headRow, tailRow]

lemma hashText_eq_iff {r s : TextRef} : hashText N r = hashText N s ↔ row N r = row N s := by
  rw [← splitOn_hashText, ← splitOn_hashText]
  exact ⟨congrArg _, fun h => by rw [← join_splitOn (hashText N r), h, join_splitOn]⟩

/-! ### Equal cells -/

lemma cell_inj {α : Type} {print : α → List Char} (hinj : Function.Injective print)
    (hne : ∀ a, print a ≠ []) {v w : Option α} (h : cell print v = cell print w) : v = w := by
  cases v <;> cases w
  · rfl
  · exact absurd h.symm (hne _)
  · exact absurd h (hne _)
  · exact congrArg some (hinj h)

lemma bigCell_inj {v w : Option ℤ} (h : cell bigText v = cell bigText w) : v = w :=
  cell_inj bigText_inj (fun z => printRat_ne z) h

variable {N} in
lemma printCell_inj {v w : Option ℚ} (h : cell N.print v = cell N.print w) : v = w :=
  cell_inj N.print_inj N.print_ne h

variable {N} in
lemma enumCell_inj {v w : Option ℕ}
    (h : cell (fun n : ℕ => N.print n) v = cell (fun n : ℕ => N.print n) w) : v = w :=
  cell_inj (fun _ _ h => Nat.cast_injective (N.print_inj h)) (fun n => N.print_ne n) h

lemma boolCell_inj {v w : Option Bool} (h : cell boolText v = cell boolText w) : v = w :=
  cell_inj (fun a b => by cases a <;> cases b <;> decide) (by decide) h

lemma pair_inj {v w : Option (ℤ × ℤ)} (h₁ : v.map (·.1) = w.map (·.1))
    (h₂ : v.map (·.2) = w.map (·.2)) : v = w := by
  cases v <;> cases w <;> simp_all [Prod.ext_iff]

lemma pointCells_inj {v w : Option (ℤ × ℤ)} (h : pointCells v = pointCells w) : v = w := by
  simp only [pointCells, List.cons.injEq, and_true] at h
  exact pair_inj (bigCell_inj h.1) (bigCell_inj h.2)

/-- The attributes without those that are not in the hash. -/
def unmarkedAttributes (a : Option Attributes) : Option Attributes :=
  a.map fun a => { a with underlined := false, multiline := false }

def TextRef.unmarked : TextRef → TextRef
  | .text t => .text { t with attributes := unmarkedAttributes t.attributes }
  | .textbox b => .textbox { b with attributes := unmarkedAttributes b.attributes }

lemma attributes_inj {a b : Option Attributes} (hcells : attrCells N a = attrCells N b)
    (hfont : fontCell a = fontCell b) (hspacing : spacingCell N a = spacingCell N b) :
    unmarkedAttributes a = unmarkedAttributes b := by
  simp only [attrCells, List.cons.injEq, and_true] at hcells
  obtain ⟨hangle, hx, hy, hwidth, hhalign, hvalign, hitalic, hbold, hmirrored⟩ := hcells
  have hangle := printCell_inj hangle
  have hsize := pair_inj (bigCell_inj hx) (bigCell_inj hy)
  have hwidth := bigCell_inj hwidth
  have hhalign := enumCell_inj hhalign
  have hvalign := enumCell_inj hvalign
  have hitalic := boolCell_inj hitalic
  have hbold := boolCell_inj hbold
  have hmirrored := boolCell_inj hmirrored
  have hspacing := printCell_inj hspacing
  cases a <;> cases b <;> simp_all [unmarkedAttributes, fontCell, cell]

/-! ### Faithful hashes of boards -/

def TextRef.isBox : TextRef → Bool
  | .text _ => false
  | .textbox _ => true

/-- The text of the second goes on, after that of the first and a bar, with what comes behind it in
the first; or it is a text and a text box, and the texts are the same as far as the bars go. -/
def RunsOn (r s : TextRef) : Prop :=
  ∃ cells, (cells ≠ [] ∨ r.isBox ≠ s.isBox) ∧ headRow s = headRow r ++ cells ∧
    tailRow N r = cells ++ tailRow N s ∧ spacingCell N r.attributes = spacingCell N s.attributes

lemma headRow_inj {r s : TextRef} (hbox : r.isBox = s.isBox) (h : headRow r = headRow s) :
    textCells r = textCells s := by
  have hjoin : ∀ a b : List Char, a.splitOn '|' = b.splitOn '|' → a = b := fun a b h => by
    rw [← join_splitOn a, h, join_splitOn]
  cases r <;> cases s <;> simp only [TextRef.isBox, Bool.false_eq_true, reduceCtorEq] at hbox
  · simp only [headRow, textCells, List.flatMap_singleton] at h ⊢
    rw [hjoin _ _ h]
  · simp only [headRow, textCells, List.flatMap_cons, List.flatMap_nil, List.append_nil,
      List.append_cancel_left_eq] at h ⊢
    rw [hjoin _ _ h]

lemma length_placeCells (r : TextRef) : (placeCells r).length = if r.isBox then 8 else 2 := by
  cases r <;> rfl

/-- The cells are all the same: so are the fields, but for those that are not in the hash. -/
lemma unmarked_eq_of_cells {r s : TextRef} (hbox : r.isBox = s.isBox)
    (hhead : headRow r = headRow s) (htail : tailRow N r = tailRow N s)
    (hspacing : spacingCell N r.attributes = spacingCell N s.attributes) :
    r.unmarked = s.unmarked := by
  have htext := headRow_inj hbox hhead
  simp only [tailRow, List.append_assoc] at htail
  have hlen : (placeCells r).length = (placeCells s).length := by
    rw [length_placeCells, length_placeCells, hbox]
  obtain ⟨hplace, hrest⟩ := List.append_inj htail hlen
  obtain ⟨hattrs, hfont⟩ := List.append_inj hrest rfl
  have hattributes := attributes_inj N hattrs
    (by rw [← join_splitOn (fontCell r.attributes), hfont, join_splitOn]) hspacing
  rcases r with r | r <;> rcases s with s | s <;>
    simp only [TextRef.isBox, Bool.false_eq_true, reduceCtorEq] at hbox
  · simp only [textCells, List.cons.injEq, and_true] at htext
    have hposition := pointCells_inj hplace
    simp_all [TextRef.unmarked, TextRef.attributes]
  · simp only [textCells, List.cons.injEq, and_true, true_and] at htext
    simp only [placeCells, pointCells, List.cons_append, List.nil_append, List.cons.injEq,
      and_true] at hplace
    obtain ⟨hx, hy, hx', hy', hl, ht, hr, hb⟩ := hplace
    have htopLeft := pair_inj (bigCell_inj hx) (bigCell_inj hy)
    have hbottomRight := pair_inj (bigCell_inj hx') (bigCell_inj hy')
    have hl := bigCell_inj hl
    have ht := bigCell_inj ht
    have hr := bigCell_inj hr
    have hb := bigCell_inj hb
    simp_all [TextRef.unmarked, TextRef.attributes]

lemma row_unmarked (r : TextRef) : row N r.unmarked = row N r := by
  have hattributes : ∀ a : Option Attributes, attrCells N (unmarkedAttributes a) = attrCells N a ∧
      fontCell (unmarkedAttributes a) = fontCell a ∧
      spacingCell N (unmarkedAttributes a) = spacingCell N a := fun a => by
    cases a <;> exact ⟨rfl, rfl, rfl⟩
  rcases r with t | b
  · obtain ⟨hcells, hfont, hspacing⟩ := hattributes t.attributes
    simp [row, headRow, tailRow, TextRef.unmarked, TextRef.attributes, textCells, placeCells,
      hcells, hfont, hspacing]
  · obtain ⟨hcells, hfont, hspacing⟩ := hattributes b.attributes
    simp [row, headRow, tailRow, TextRef.unmarked, TextRef.attributes, textCells, placeCells,
      hcells, hfont, hspacing]

lemma row_eq_of_runsOn {r s : TextRef} (h : RunsOn N r s) : row N r = row N s := by
  obtain ⟨cells, _, hhead, htail, hspacing⟩ := h
  simp [row, hhead, htail, hspacing, List.append_assoc]

lemma ne_of_runsOn {r s : TextRef} (h : RunsOn N r s) : r ≠ s := by
  rintro rfl
  obtain ⟨cells, hne, hhead, -⟩ := h
  rcases hne with hne | hne
  · exact hne (by simpa using hhead)
  · exact hne rfl

lemma runsOn_of_head {r s : TextRef} {cells : List (List Char)}
    (hhead : headRow s = headRow r ++ cells)
    (htail : tailRow N r ++ [spacingCell N r.attributes] =
      cells ++ (tailRow N s ++ [spacingCell N s.attributes])) :
    r.unmarked = s.unmarked ∨ RunsOn N r s := by
  rw [← List.append_assoc] at htail
  obtain ⟨htail, hspacing⟩ := List.append_inj' htail rfl
  rw [List.cons.injEq] at hspacing
  by_cases h : cells ≠ [] ∨ r.isBox ≠ s.isBox
  · exact .inr ⟨cells, h, hhead, htail, hspacing.1⟩
  · obtain ⟨rfl, hbox⟩ : cells = [] ∧ r.isBox = s.isBox := by
      simpa only [not_or, not_not] using h
    refine .inl (unmarked_eq_of_cells N hbox ?_ htail hspacing.1)
    rw [hhead, List.append_nil]

lemma row_eq_iff {r s : TextRef} :
    row N r = row N s ↔ r.unmarked = s.unmarked ∨ RunsOn N r s ∨ RunsOn N s r := by
  constructor
  · intro h
    simp only [row, List.append_assoc] at h
    rcases List.append_eq_append_iff.mp h with ⟨cells, hhead, htail⟩ | ⟨cells, hhead, htail⟩
    · exact (runsOn_of_head N hhead htail).imp_right .inl
    · exact (runsOn_of_head N hhead htail).imp .symm .inr
  · rintro (h | h | h)
    · rw [← row_unmarked, h, row_unmarked]
    · exact row_eq_of_runsOn N h
    · exact (row_eq_of_runsOn N h).symm

/-- What the hashes of two texts of boards need to be faithful: that the two do not differ in what
is not in the hash alone, and that neither's text runs on into the cells of the other's. -/
structure Telling (r s : TextRef) : Prop where
  marks : r.unmarked = s.unmarked → r = s
  bars : ¬ RunsOn N r s
  bars' : ¬ RunsOn N s r

lemma hashText_faithful_iff (r s : TextRef) :
    (hashText N r = hashText N s → r = s) ↔ Telling N r s := by
  rw [hashText_eq_iff, row_eq_iff]
  constructor
  · intro h
    exact ⟨fun hmarks => h (.inl hmarks), fun hruns => ne_of_runsOn N hruns (h (.inr (.inl hruns))),
      fun hruns => ne_of_runsOn N hruns (h (.inr (.inr hruns))).symm⟩
  · rintro ⟨hmarks, hbars, hbars'⟩ (h | h | h)
    · exact hmarks h
    · exact absurd h hbars
    · exact absurd h hbars'

/-! ### Requests of schematics -/

def vectorJson (v : ℤ × ℤ) : Json :=
  .obj (.ofList [("xNm", .str (bigText v.1)), ("yNm", .str (bigText v.2))])

def distanceJson (z : ℤ) : Json := .obj (.ofList [("valueNm", .str (bigText z))])

/-- An absent font is left out. -/
def attributesJson (a : RequestTextAttributes) : Json :=
  .obj (.ofList ([("horizontalAlignment", .num a.horizontalAlignment),
    ("verticalAlignment", .num a.verticalAlignment),
    ("angle", .obj (.ofList [("valueDegrees", .num a.angle)])),
    ("lineSpacing", .num a.lineSpacing), ("strokeWidth", distanceJson a.strokeWidth),
    ("italic", .bool a.italic), ("bold", .bool a.bold), ("mirrored", .bool a.mirrored),
    ("size", vectorJson a.size)] ++
    (a.fontName.map fun font => ("fontName", .str font.toList)).toList))

def textJson (msg : RequestText) : Json :=
  .obj (.ofList [("position", vectorJson msg.position), ("text", .str msg.text.toList),
    ("attributes", attributesJson msg.attributes)])

def textBoxJson (box : RequestTextBox) : Json :=
  .obj (.ofList [("topLeft", vectorJson box.topLeft), ("bottomRight", vectorJson box.bottomRight),
    ("attributes", attributesJson box.attributes), ("text", .str box.text.toList),
    ("borderEnabled", .bool box.borderEnabled), ("marginLeft", distanceJson box.marginLeft),
    ("marginTop", distanceJson box.marginTop), ("marginRight", distanceJson box.marginRight),
    ("marginBottom", distanceJson box.marginBottom)])

def transformJson (t : SymTransform) : Json :=
  .obj (.ofList [("x1", .num t.x1), ("y1", .num t.y1), ("x2", .num t.x2), ("y2", .num t.y2)])

def pointJson (p : Vec2) : Json := .obj (.ofList [("x", .num p.x), ("y", .num p.y)])

/-- The parts of the hash of a request. -/
def hashParts : Content → List Json
  | .text msg => [.str "text".toList, textJson msg]
  | .textbox box => [.str "textbox".toList, textBoxJson box]
  | .measured p => [.str "measured".toList, textJson p.measure, transformJson p.t,
      pointJson p.origin]

/-- `hashOf` -/
def hashOf (parts : List Json) : List Char := stringify N (.arr (.ofList parts))

def requestHash (r : SchTextRequest) : List Char := hashOf N (hashParts r.content)

/-- `resolveTextRequests`, for one of the requests. -/
def resolved (textExtents : RequestText → SchematicTexts.Box) (r : SchTextRequest) :
    SchTextRequest :=
  match r.content with
  | .measured p => { r with content := .text (p.place (textExtents p.measure)) }
  | .text _ | .textbox _ => r

def resolveTextRequests (requests : List SchTextRequest)
    (textExtents : RequestText → SchematicTexts.Box) : List SchTextRequest :=
  requests.map (resolved textExtents)

/-! ### No field of a request is lost -/

lemma vectorJson_inj {v w : ℤ × ℤ} (h : vectorJson v = vectorJson w) : v = w := by
  simp only [vectorJson, Members.ofList, List.foldr_cons, List.foldr_nil, Json.obj.injEq,
    Members.cons.injEq, Json.str.injEq, true_and, and_true] at h
  exact Prod.ext (bigText_inj h.1) (bigText_inj h.2)

lemma distanceJson_inj {a b : ℤ} (h : distanceJson a = distanceJson b) : a = b := by
  simp only [distanceJson, Members.ofList, List.foldr_cons, List.foldr_nil, Json.obj.injEq,
    Members.cons.injEq, Json.str.injEq, true_and, and_true] at h
  exact bigText_inj h

lemma attributesJson_inj {a b : RequestTextAttributes} (h : attributesJson a = attributesJson b) :
    a = b := by
  simp only [attributesJson, Members.ofList, List.cons_append, List.nil_append, List.foldr_cons,
    Json.obj.injEq, Members.cons.injEq, Json.num.injEq, Json.bool.injEq, Nat.cast_inj, true_and,
    and_true, List.foldr_nil] at h
  obtain ⟨hhalign, hvalign, hangle, hspacing, hwidth, hitalic, hbold, hmirrored, hsize, hfont⟩ := h
  have hwidth := distanceJson_inj hwidth
  have hsize := vectorJson_inj hsize
  cases a with | mk _ _ _ _ _ _ _ _ _ f =>
  cases b with | mk _ _ _ _ _ _ _ _ _ g =>
  cases f <;> cases g <;> simp_all [String.toList_inj]

lemma textJson_inj {m n : RequestText} (h : textJson m = textJson n) : m = n := by
  simp only [textJson, Members.ofList, List.foldr_cons, List.foldr_nil, Json.obj.injEq,
    Members.cons.injEq, Json.str.injEq, true_and, and_true] at h
  obtain ⟨hposition, htext, hattributes⟩ := h
  rw [RequestText.mk.injEq]
  exact ⟨vectorJson_inj hposition, String.toList_inj.mp htext, attributesJson_inj hattributes⟩

lemma textBoxJson_inj {m n : RequestTextBox} (h : textBoxJson m = textBoxJson n) : m = n := by
  simp only [textBoxJson, Members.ofList, List.foldr_cons, List.foldr_nil, Json.obj.injEq,
    Members.cons.injEq, Json.str.injEq, Json.bool.injEq, true_and, and_true] at h
  obtain ⟨htl, hbr, hattributes, htext, hborder, hl, ht, hr, hb⟩ := h
  rw [RequestTextBox.mk.injEq]
  exact ⟨vectorJson_inj htl, vectorJson_inj hbr, attributesJson_inj hattributes,
    String.toList_inj.mp htext, hborder, distanceJson_inj hl, distanceJson_inj ht,
    distanceJson_inj hr, distanceJson_inj hb⟩

lemma transformJson_inj {t u : SymTransform} (h : transformJson t = transformJson u) : t = u := by
  simp only [transformJson, Members.ofList, List.foldr_cons, List.foldr_nil, Json.obj.injEq,
    Members.cons.injEq, Json.num.injEq, true_and, and_true] at h
  rw [SymTransform.mk.injEq]
  exact h

lemma pointJson_inj {p q : Vec2} (h : pointJson p = pointJson q) : p = q := by
  simp only [pointJson, Members.ofList, List.foldr_cons, List.foldr_nil, Json.obj.injEq,
    Members.cons.injEq, Json.num.injEq, true_and, and_true] at h
  rw [Vec2.mk.injEq]
  exact h

lemma hashParts_inj {a b : Content} (h : hashOf N (hashParts a) = hashOf N (hashParts b)) :
    hashParts a = hashParts b := by
  have hofList : Function.Injective Elems.ofList := by
    intro vs
    induction vs with
    | nil => intro ws h; cases ws <;> simp_all [Elems.ofList]
    | cons v vs ih =>
      intro ws h
      cases ws with
      | nil => simp [Elems.ofList] at h
      | cons w ws =>
        simp only [Elems.ofList, List.foldr_cons, Elems.cons.injEq] at h
        rw [h.1, ih h.2]
  exact hofList (Json.arr.inj (stringify_inj N h))

/-! ### Faithful hashes of schematics -/

/-- The pen that the field is drawn with, by what is stored of it and by the default line width. -/
def penOf (p : Placing) : ℤ := big (wirePenWidth p.stored p.a.thickness)

lemma placed_pos (a : SchematicTexts.TextAttrs) (pos : Vec2) (t : SymTransform) (origin : Vec2)
    (box : SchematicTexts.Box) :
    (SchematicTexts.symbolFieldPlacementFromBox a pos t origin box).pos =
      SchematicTexts.vAdd (SchematicTexts.transformCoordinate t (SchematicTexts.vSub
        ⟨box.x + box.w / 2, box.y + box.h / 2⟩ origin)) origin := by
  simp only [SchematicTexts.symbolFieldPlacementFromBox, SchematicTexts.toSheet,
    SchematicTexts.vAdd, SchematicTexts.vSub, SchematicTexts.transformCoordinate, Vec2.mk.injEq]
  constructor <;> ring

/-- Fields with the same extents asked for and the same transform are drawn alike, but for the
pen. -/
lemma place_eq_iff {p q : Placing} (hmeasure : p.measure = q.measure) (ht : p.t = q.t)
    (horigin : p.origin = q.origin) (box : SchematicTexts.Box) :
    p.place box = q.place box ↔ penOf p = penOf q := by
  simp only [Placing.measure, textMessage, requestAttributes, RequestText.mk.injEq,
    RequestTextAttributes.mk.injEq] at hmeasure
  obtain ⟨-, htext, -, -, hangle, hspacing, -, hitalic, hbold, hmirrored, hsize, hfont⟩ := hmeasure
  constructor
  · intro h
    exact congrArg (fun msg => msg.attributes.strokeWidth) h
  · intro hpen
    have hpos : (SchematicTexts.symbolFieldPlacementFromBox p.a p.pos q.t q.origin box).pos =
        (SchematicTexts.symbolFieldPlacementFromBox q.a q.pos q.t q.origin box).pos := by
      rw [placed_pos, placed_pos]
    simp only [Placing.place, plainMessage, textMessage, requestAttributes, placedAttrs,
      SchematicTexts.symbolFieldPlacementFromBox, RequestText.mk.injEq,
      RequestTextAttributes.mk.injEq, ht, horigin, htext, hangle, hspacing, hitalic, hbold,
      hmirrored, hsize, hfont, true_and, and_true]
    exact ⟨congrArg bigVec hpos, hpen⟩

/-- Measured fields that are told apart by nothing but the pen do not differ in it. -/
def SamePen (r s : SchTextRequest) : Prop :=
  ∀ p q, r.content = .measured p → s.content = .measured q → p.measure = q.measure → p.t = q.t →
    p.origin = q.origin → penOf p = penOf q

lemma requestHash_faithful_iff (r s : SchTextRequest) :
    (requestHash N r = requestHash N s → ∀ box,
      (resolved (fun _ => box) r).content = (resolved (fun _ => box) s).content) ↔
      SamePen r s := by
  constructor
  · intro h p q hp hq hmeasure ht horigin
    have hhash : requestHash N r = requestHash N s := by
      rw [requestHash, requestHash, hp, hq, hashParts, hashParts, hmeasure, ht, horigin]
    have hplace := h hhash ⟨0, 0, 0, 0⟩
    simp only [resolved, hp, hq, Content.text.injEq] at hplace
    exact (place_eq_iff hmeasure ht horigin _).mp hplace
  · intro h hhash box
    have hparts := hashParts_inj N hhash
    rcases hr : r.content with m | b | p <;> rcases hs : s.content with m' | b' | q <;>
      rw [hr, hs] at hparts <;>
      simp only [hashParts, List.cons.injEq, List.cons_ne_nil, and_false, Json.str.injEq,
        and_true, true_and, List.nil_eq, List.cons_ne_nil] at hparts
    all_goals simp [resolved, hr, hs]
    · rw [textJson_inj hparts]
    · exact absurd hparts.1 (by decide)
    · exact absurd hparts.1 (by decide)
    · rw [textBoxJson_inj hparts]
    · obtain ⟨hmeasure, ht, horigin⟩ := hparts
      have hmeasure := textJson_inj hmeasure
      have ht := transformJson_inj ht
      have horigin := pointJson_inj horigin
      rw [(place_eq_iff hmeasure ht horigin box).mpr (h p q hr hs hmeasure ht horigin)]

/-- **Faithful hashes.** Of two texts of a board with one hash, the same is sent for the shapes just
when they are `Telling`; of two requests of schematics with one hash, the same is sent when all
extents are known just when the pens are the same. -/
theorem hashes_faithful_iff :
    (∀ r s : TextRef, (hashText N r = hashText N s → r = s) ↔ Telling N r s) ∧
    ∀ r s : SchTextRequest, (requestHash N r = requestHash N s → ∀ box,
      (resolved (fun _ => box) r).content = (resolved (fun _ => box) s).content) ↔
      SamePen r s :=
  ⟨hashText_faithful_iff N, requestHash_faithful_iff N⟩

/-- A text that is underlined or not. -/
def sampleLine (underlined : Bool) : TextRef :=
  .text ⟨"R1".toList, some (0, 0), some ⟨some 0, some (1000000, 1000000), some 150000, 2, 2, false,
    false, underlined, false, false, [], some 1⟩⟩

/-- A symbol with a reference in italics. -/
def sampleSymbol : StoredItemLike where
  id := "U1"
  type := some .symbol
  proto := .message none { referenceField := some { name := some "Reference", text := some {
    text := some "R1", attributes := { italic := true } } } }

/-- A context with another default line width. -/
def wideLines : SchematicAdapterContext := { defaults := { lineWidth := some 254000 } }

def sampleField (c : SchematicAdapterContext) : SchTextRequest :=
  ⟨"U1:field:Reference", .measured ⟨"R1", SchematicTexts.readTextAttrs c { italic := true }, ⟨0, 0⟩,
    SchematicTexts.IDENTITY_TRANSFORM, ⟨0, 0⟩, { italic := true }⟩⟩

/-- An underline and a pen that the hashes do not tell. -/
theorem hashes_untold :
    (hashText fractionText (sampleLine true) = hashText fractionText (sampleLine false) ∧
      sampleLine true ≠ sampleLine false) ∧
    sampleField {} ∈ schematicTextRequests noMath {} sampleSymbol ∧
    sampleField wideLines ∈ schematicTextRequests noMath wideLines sampleSymbol ∧
    requestHash fractionText (sampleField {}) = requestHash fractionText (sampleField wideLines) ∧
    (resolved (fun _ => ⟨0, 0, 0, 0⟩) (sampleField {})).content ≠
      (resolved (fun _ => ⟨0, 0, 0, 0⟩) (sampleField wideLines)).content := by
  decide +kernel

end FabPcb.TextHashes
