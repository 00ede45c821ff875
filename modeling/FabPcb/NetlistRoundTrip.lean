import FabPcb.KicadNetlist

/-!
A reader finds in an emitted netlist what the netlist says.

First the tree that the lines of the text make, block by block; then what is looked up in it.
-/

namespace FabPcb.NetlistRoundTrip

open SExprText KicadSExpr SpecctraData KicadNetlist

/-! ### Lines -/

/-- The lines, joined, are a sequence of complete s-expressions. -/
def LinesRead (lines : List String) (xs : List SExpr) : Prop := Reads (joined lines).toList xs

lemma linesRead_nil : LinesRead [] [] := by
  exact reads_nil

lemma linesRead_single {line : String} {xs : List SExpr} (h : Reads line.toList xs) :
    LinesRead [line] xs := by
  rwa [LinesRead]

lemma joined_append {a b : List String} (ha : a ≠ []) (hb : b ≠ []) :
    (joined (a ++ b)).toList = (joined a).toList ++ '\n' :: (joined b).toList := by
  rw [joined, String.intercalate_append_of_ne_nil ha hb]
  simp [joined]

lemma reads_blank {text : List Char} {xs : List SExpr} (h : Reads text xs) :
    Reads (' ' :: text) xs :=
  fun top below => h top below

lemma reads_newline : Reads ['\n'] [] := reads_space (by decide)

lemma linesRead_append {a b : List String} {xs ys : List SExpr} (ha : LinesRead a xs)
    (hb : LinesRead b ys) : LinesRead (a ++ b) (xs ++ ys) := by
  by_cases hnil : a = []
  · subst hnil
    exact reads_append ha hb
  by_cases hlast : b = []
  · subst hlast
    have hboth := reads_append ha hb
    rw [show (joined []).toList = [] from rfl, List.append_nil] at hboth
    rwa [List.append_nil]
  · rw [LinesRead, joined_append hnil hlast]
    exact reads_append ha (reads_append reads_newline hb)

lemma linesRead_cons {line : String} {lines : List String} {x : SExpr} {xs : List SExpr}
    (hline : LinesRead [line] [x]) (hlines : LinesRead lines xs) :
    LinesRead (line :: lines) (x :: xs) :=
  linesRead_append hline hlines

lemma linesRead_map {α : Type} {f : α → String} {g : α → SExpr} (as : List α)
    (h : ∀ a, Reads (f a).toList [g a]) : LinesRead (as.map f) (as.map g) := by
  induction as with
  | nil => exact linesRead_nil
  | cons a as ih =>
    exact linesRead_cons (linesRead_single (h a)) ih

/-- The lines of a list with its parentheses on lines of their own. -/
lemma linesRead_block (lead head : String) {lines : List String} {xs : List SExpr}
    (hlead : lead.toList.all isSpace = true) (hhead : IsHead head) (h : LinesRead lines xs) :
    LinesRead ((lead ++ "(" ++ head) :: (lines ++ [lead ++ ")"])) [.list (.atom head :: xs)] := by
  have hend : LinesRead (lines ++ [lead]) xs := by
    have hboth := linesRead_append h (linesRead_single (reads_space hlead))
    rwa [List.append_nil] at hboth
  have hclosed : joined (lines ++ [lead ++ ")"]) = joined (lines ++ [lead]) ++ ")" := by
    by_cases hnil : lines = []
    · subst hnil
      rfl
    · rw [joined, joined, String.intercalate_append_of_ne_nil hnil (List.cons_ne_nil _ _),
        String.intercalate_append_of_ne_nil hnil (List.cons_ne_nil _ _)]
      simp [String.append_assoc]
  have htext : (joined ((lead ++ "(" ++ head) :: (lines ++ [lead ++ ")"]))).toList =
      lead.toList ++ (opening head '\n' ++ (joined (lines ++ [lead])).toList ++ [')']) := by
    rw [← List.singleton_append, joined_append (List.cons_ne_nil _ _)
      (List.append_ne_nil_of_right_ne_nil _ (List.cons_ne_nil _ _)), hclosed, joined]
    simp [opening]
  rw [LinesRead, htext]
  exact reads_append (reads_space hlead) (reads_list hhead (by decide) hend)

lemma joined_cons_append (a b : String) (lines : List String) :
    joined ((a ++ b) :: lines) = a ++ joined (b :: lines) := by
  cases lines with
  | nil => rw [joined, joined, String.intercalate_singleton, String.intercalate_singleton]
  | cons line lines =>
    rw [joined, joined]
    simp [String.append_assoc]

lemma closeLast_cons (a b : String) (lines : List String) :
    closeLast (a :: b :: lines) = a :: closeLast (b :: lines) := by
  rw [closeLast]
  exact List.cons_ne_nil b lines

lemma joined_closeLast {lines : List String} (hne : lines ≠ []) :
    joined (closeLast lines) = joined lines ++ ")" := by
  induction lines with
  | nil => exact absurd rfl hne
  | cons a lines ih =>
    cases lines with
    | nil => rw [closeLast, joined, joined, String.intercalate_singleton,
        String.intercalate_singleton]
    | cons b lines =>
      have hrest := ih (List.cons_ne_nil _ _)
      have hclosed : closeLast (b :: lines) ≠ [] := by
        cases lines with
        | nil => exact List.cons_ne_nil _ _
        | cons c lines => exact List.cons_ne_nil _ _
      rw [closeLast_cons, joined, String.intercalate_cons_of_ne_nil hclosed, ← joined, hrest, joined,
        joined]
      simp [String.append_assoc]

lemma linesRead_closed (lead head : String) {line : String} {lines : List String} {xs : List SExpr}
    (hlead : lead.toList.all isSpace = true) (hhead : IsHead head)
    (h : LinesRead (line :: lines) xs) :
    LinesRead (closeLast ((lead ++ "(" ++ head ++ " " ++ line) :: lines))
      [.list (.atom head :: xs)] := by
  have htext : (joined (closeLast ((lead ++ "(" ++ head ++ " " ++ line) :: lines))).toList =
      lead.toList ++ (opening head ' ' ++ (joined (line :: lines)).toList ++ [')']) := by
    rw [joined_closeLast (List.cons_ne_nil _ _), joined_cons_append]
    simp [opening]
  rw [LinesRead, htext]
  exact reads_append (reads_space hlead) (reads_list hhead (by decide) h)

lemma linesRead_opened (lead head : String) {lines : List String} {xs : List SExpr}
    (hlead : lead.toList.all isSpace = true) (hhead : IsHead head) (hne : lines ≠ [])
    (h : LinesRead lines xs) :
    LinesRead ((lead ++ "(" ++ head) :: closeLast lines) [.list (.atom head :: xs)] := by
  have hclosed : closeLast lines ≠ [] := by
    cases lines with
    | nil => exact hne
    | cons a lines =>
      cases lines with
      | nil => exact List.cons_ne_nil _ _
      | cons b lines => exact List.cons_ne_nil _ _
  have htext : (joined ((lead ++ "(" ++ head) :: closeLast lines)).toList =
      lead.toList ++ (opening head '\n' ++ (joined lines).toList ++ [')']) := by
    rw [← List.singleton_append, joined_append (List.cons_ne_nil _ _) hclosed,
      joined_closeLast hne, joined]
    simp [opening]
  rw [LinesRead, htext]
  exact reads_append (reads_space hlead) (reads_list hhead (by decide) h)

lemma linesRead_ended (head : String) {line : String} {lines : List String} {xs : List SExpr}
    (hhead : IsHead head) (h : LinesRead (line :: lines) xs) :
    LinesRead (("(" ++ head ++ " " ++ line) :: (lines ++ [")"])) [.list (.atom head :: xs)] := by
  have htext : (joined (("(" ++ head ++ " " ++ line) :: (lines ++ [")"]))).toList =
      opening head ' ' ++ ((joined (line :: lines)).toList ++ ['\n']) ++ [')'] := by
    rw [joined_cons_append, ← List.cons_append, String.toList_append,
      joined_append (List.cons_ne_nil _ _) (List.cons_ne_nil _ _),
      show (joined [")"]).toList = [')'] from rfl]
    simp [opening]
  have hline : Reads ((joined (line :: lines)).toList ++ ['\n']) xs := by
    have hboth := reads_append h reads_newline
    rwa [List.append_nil] at hboth
  rw [LinesRead, htext]
  exact reads_list hhead (by decide) hline

/-! ### Forms -/

/-- A list of a name and a text. -/
def form (head text : String) : SExpr := .list [.atom head, .atom text]

def formText (head text : String) : List Char := opening head ' ' ++ (q text).toList ++ [')']

lemma reads_form {head : String} (hhead : IsHead head) (text : String) :
    Reads (formText head text) [form head text] :=
  reads_list hhead (by decide) (reads_q text)

/-- A form with a text that may be missing. -/
def forms (head : String) (text : Option String) : List SExpr :=
  match given text with
  | none => []
  | some text => [form head text]

/-- Such a form behind a space. -/
def formsText (head : String) (text : Option String) : List Char :=
  match given text with
  | none => []
  | some text => ' ' :: formText head text

lemma reads_forms {head : String} (hhead : IsHead head) (text : Option String) :
    Reads (formsText head text) (forms head text) := by
  unfold formsText forms
  cases given text with
  | none => exact reads_nil
  | some text => exact reads_blank (reads_form hhead text)

/-! ### Nodes and nets -/

def nodeTree (n : NetlistNode) : SExpr :=
  .list (.atom "node" :: form "ref" n.ref :: form "pin" n.pin ::
    (forms "pinfunction" n.pinFunction ++ forms "pintype" n.pinType))

lemma nodeLine_toList (n : NetlistNode) : (nodeLine n).toList =
    "      ".toList ++ (opening "node" ' ' ++ (formText "ref" n.ref ++
      (' ' :: formText "pin" n.pin ++ (formsText "pinfunction" n.pinFunction ++
        formsText "pintype" n.pinType))) ++ [')']) := by
  unfold nodeLine formsText
  cases given n.pinFunction with
  | none =>
    cases given n.pinType with
    | none => simp [formText, opening]
    | some pinType => simp [formText, opening]
  | some pinFunction =>
    cases given n.pinType with
    | none => simp [formText, opening]
    | some pinType => simp [formText, opening]

lemma reads_space_form {head : String} (hhead : IsHead head) (text : String) :
    Reads (' ' :: formText head text) [form head text] :=
  reads_blank (reads_form hhead text)

lemma reads_nodeLine (n : NetlistNode) : Reads (nodeLine n).toList [nodeTree n] := by
  rw [nodeLine_toList]
  refine reads_append (reads_space (by decide)) (reads_list (by decide) (by decide) ?_)
  exact reads_append (reads_form (by decide) _) (reads_append (reads_space_form (by decide) _)
    (reads_append (reads_forms (by decide) _) (reads_forms (by decide) _)))

section Nets

variable (N : Numerals)

def netTree (net : NetlistNet) (i : ℕ) : SExpr :=
  .list (.atom "net" :: form "code" (N.print (codeOf net i)) :: form "name" net.name ::
    net.nodes.map nodeTree)

lemma linesRead_net (net : NetlistNet) (i : ℕ) :
    LinesRead (netLines N net i) [netTree N net i] := by
  have hfirst : ("    (net (code " ++ q (N.print (codeOf net i)) ++ ") (name " ++ q net.name ++
      ")") = "    " ++ "(" ++ "net" ++ " " ++
        ("(code " ++ q (N.print (codeOf net i)) ++ ") (name " ++ q net.name ++ ")") := by
    rw [← String.toList_inj]
    simp
  have hline : Reads ("(code " ++ q (N.print (codeOf net i)) ++ ") (name " ++ q net.name ++
      ")").toList [form "code" (N.print (codeOf net i)), form "name" net.name] := by
    have htext : ("(code " ++ q (N.print (codeOf net i)) ++ ") (name " ++ q net.name ++
        ")").toList = formText "code" (N.print (codeOf net i)) ++ ' ' :: formText "name" net.name := by
      simp [formText, opening]
    rw [htext]
    exact reads_append (reads_form (by decide) _) (reads_space_form (by decide) _)
  rw [netLines, hfirst]
  exact linesRead_closed "    " "net" (by decide) (by decide)
    (linesRead_append (linesRead_single hline) (linesRead_map net.nodes reads_nodeLine))

end Nets

/-! ### Components -/

lemma linesRead_form (lead head text : String) {line : String} (hlead : lead.toList.all isSpace = true)
    (hhead : IsHead head) (hline : line.toList = lead.toList ++ formText head text) :
    LinesRead [line] [form head text] := by
  refine linesRead_single ?_
  rw [hline]
  exact reads_append (reads_space hlead) (reads_form hhead text)

def fieldTree (field : String × String) : SExpr :=
  .list [.atom "field", form "name" field.1, .atom field.2]

def fieldsForms (fields : List (String × String)) : List SExpr :=
  if fields = [] then [] else [.list (.atom "fields" :: fields.map fieldTree)]

def libSourceForms : Option LibSource → List SExpr
  | none => []
  | some source => [.list (.atom "libsource" :: form "lib" source.lib :: form "part" source.part ::
      forms "description" source.description)]

def uuidForms (uuid : Option String) : List SExpr :=
  match given uuid with
  | none => []
  | some uuid => [form "tstamps" ("/" ++ uuid)]

def compTree (c : NetlistComponent) : SExpr :=
  .list (.atom "comp" :: form "ref" c.ref :: form "value" c.value ::
    (forms "footprint" (some c.footprint) ++ fieldsForms c.fields ++ libSourceForms c.libSource ++
      uuidForms c.uuid))

lemma given_some (text : String) : given (some text) = if text = "" then none else some text := by
  rw [given]
  by_cases h : text = ""
  · simp [h]
  · simp [h]

section Lead

variable {lead : String} (hlead : lead.toList.all isSpace = true)

include hlead

lemma linesRead_footprint (footprint : String) :
    LinesRead (footprintLines lead footprint) (forms "footprint" (some footprint)) := by
  unfold footprintLines forms
  rw [given_some]
  split
  · exact linesRead_nil
  · exact linesRead_form lead "footprint" footprint hlead (by decide) (by simp [formText, opening])

lemma reads_fieldLine (field : String × String) :
    Reads (fieldLine lead field).toList [fieldTree field] := by
  have htext : (fieldLine lead field).toList = lead.toList ++ ("  ".toList ++
      (opening "field" ' ' ++ (formText "name" field.1 ++ (' ' :: (q field.2).toList)) ++
        [')'])) := by
    simp [fieldLine, formText, opening]
  rw [htext]
  refine reads_append (reads_space hlead) (reads_append (reads_space (by decide))
    (reads_list (by decide) (by decide) ?_))
  exact reads_append (reads_form (by decide) _) (reads_blank (reads_q _))

lemma linesRead_fields (fields : List (String × String)) :
    LinesRead (fieldsLines lead fields) (fieldsForms fields) := by
  unfold fieldsLines fieldsForms
  split
  · exact linesRead_nil
  · have hopen : lead ++ "(fields" = lead ++ "(" ++ "fields" := by
      rw [← String.toList_inj]
      simp
    rw [hopen]
    exact linesRead_block lead "fields" hlead (by decide) (linesRead_map fields (reads_fieldLine hlead))

lemma linesRead_libSource (source : Option LibSource) :
    LinesRead (libSourceLines lead source) (libSourceForms source) := by
  cases source with
  | none => exact linesRead_nil
  | some source =>
    refine linesRead_single ?_
    have htext : ∀ desc : String, desc.toList = formsText "description" source.description →
        (lead ++ "(libsource (lib " ++ q source.lib ++ ") (part " ++ q source.part ++ ")" ++ desc ++
          ")").toList = lead.toList ++ (opening "libsource" ' ' ++ (formText "lib" source.lib ++
            (' ' :: formText "part" source.part ++ formsText "description" source.description)) ++
              [')']) := by
      intro desc hdesc
      simp [← hdesc, formText, opening]
    rw [htext]
    · refine reads_append (reads_space hlead) (reads_list (by decide) (by decide) ?_)
      exact reads_append (reads_form (by decide) _) (reads_append
        (reads_space_form (by decide) _) (reads_forms (by decide) _))
    · unfold formsText
      cases given source.description with
      | none => rfl
      | some description => simp [formText, opening]

lemma linesRead_uuid (uuid : Option String) : LinesRead (uuidLines lead uuid) (uuidForms uuid) := by
  unfold uuidLines uuidForms
  cases given uuid with
  | none => exact linesRead_nil
  | some uuid => exact linesRead_form lead "tstamps" _ hlead (by decide) (by simp [formText, opening])

end Lead

lemma linesRead_bare (head text : String) {line : String} (hhead : IsHead head)
    (hline : line.toList = formText head text) : LinesRead [line] [form head text] :=
  linesRead_single (hline ▸ reads_form hhead text)

lemma reads_comp (c : NetlistComponent) : Reads (comp c "    ").toList [compTree c] := by
  have hlead : ("    " ++ "  ").toList.all isSpace = true := by decide
  have hfirst : "    " ++ "(comp (ref " ++ q c.ref ++ ")" =
      "    " ++ "(" ++ "comp" ++ " " ++ ("(ref " ++ q c.ref ++ ")") := by
    rw [← String.toList_inj]
    simp
  have href : LinesRead ["(ref " ++ q c.ref ++ ")"] [form "ref" c.ref] :=
    linesRead_bare "ref" c.ref (by decide) (by simp [formText, opening])
  have hvalue : LinesRead ["    " ++ "  " ++ "(value " ++ q c.value ++ ")"]
      [form "value" c.value] :=
    linesRead_form _ "value" c.value hlead (by decide) (by simp [formText, opening])
  have hrest := linesRead_append (linesRead_append (linesRead_append
    (linesRead_footprint hlead c.footprint) (linesRead_fields hlead c.fields))
    (linesRead_libSource hlead c.libSource)) (linesRead_uuid hlead c.uuid)
  rw [comp, hfirst]
  exact linesRead_closed "    " "comp" (by decide) (by decide)
    (linesRead_cons href (linesRead_cons hvalue hrest))

/-! ### The whole text -/

section Whole

variable (N : Numerals)

def designTree (source date tool : String) : SExpr :=
  .list [.atom "design", form "source" source, form "date" date, form "tool" tool]

def netTrees (netlist : Netlist) : List SExpr :=
  netlist.nets.zipIdx.map fun net => netTree N net.1 net.2

def designOf (netlist : Netlist) (date : Option String) (now : String) : SExpr :=
  let design := netlist.design.getD {}
  designTree (design.source.getD "") ((date.orElse fun _ => design.date).getD now)
    (design.tool.getD TOOL_NAME)

def exportTree (netlist : Netlist) (date : Option String) (now : String) : SExpr :=
  .list [.atom "export", form "version" NETLIST_VERSION, designOf netlist date now,
    .list (.atom "components" :: netlist.components.map compTree),
    .list (.atom "nets" :: netTrees N netlist)]

lemma linesRead_nets (nets : List (NetlistNet × ℕ)) :
    LinesRead (nets.flatMap fun net => netLines N net.1 net.2)
      (nets.map fun net => netTree N net.1 net.2) := by
  induction nets with
  | nil => exact linesRead_nil
  | cons net nets ih => exact linesRead_append (linesRead_net N net.1 net.2) ih

lemma linesRead_design (source date tool : String) :
    LinesRead ["  (design", "    (source " ++ q source ++ ")", "    (date " ++ q date ++ ")",
      "    (tool " ++ q tool ++ "))"] [designTree source date tool] := by
  have hlast : "    (tool " ++ q tool ++ "))" = "    (tool " ++ q tool ++ ")" ++ ")" := by
    rw [← String.toList_inj]
    simp
  have hsource : LinesRead ["    (source " ++ q source ++ ")"] [form "source" source] :=
    linesRead_form "    " "source" source (by decide) (by decide) (by simp [formText, opening])
  have hdate : LinesRead ["    (date " ++ q date ++ ")"] [form "date" date] :=
    linesRead_form "    " "date" date (by decide) (by decide) (by simp [formText, opening])
  have htool : LinesRead ["    (tool " ++ q tool ++ ")"] [form "tool" tool] :=
    linesRead_form "    " "tool" tool (by decide) (by decide) (by simp [formText, opening])
  have hall := linesRead_opened "  " "design" (by decide) (by decide) (List.cons_ne_nil _ _)
    (linesRead_cons hsource (linesRead_cons hdate htool))
  rw [hlast]
  exact hall

/-- **The emitted text is one s-expression.** -/
theorem readOne_emit (netlist : Netlist) (date : Option String) (now : String) :
    readOne (emitKicadNetlist N netlist date now) = some (exportTree N netlist date now) := by
  refine readOne_of_reads ?_
  have hversion : LinesRead ["(version " ++ q NETLIST_VERSION ++ ")"]
      [form "version" NETLIST_VERSION] :=
    linesRead_bare "version" NETLIST_VERSION (by decide) (by simp [formText, opening])
  have hdesign := linesRead_design ((netlist.design.getD {}).source.getD "")
    ((date.orElse fun _ => (netlist.design.getD {}).date).getD now)
    ((netlist.design.getD {}).tool.getD TOOL_NAME)
  have hcomponents := linesRead_block "  " "components" (by decide) (by decide)
    (linesRead_map netlist.components reads_comp)
  have hnets := linesRead_block "  " "nets" (by decide) (by decide)
    (linesRead_nets N netlist.nets.zipIdx)
  have hall := linesRead_ended "export" (by decide) (linesRead_cons hversion
    (linesRead_append (linesRead_append hdesign hcomponents) hnets))
  have hend := reads_append hall reads_newline
  rw [emitKicadNetlist, String.toList_append]
  exact hend

end Whole

/-! ### What is looked up -/

@[simp] lemma sublist_nil (head : String) : sublist [] head = none := rfl

lemma sublist_append (xs ys : List SExpr) (head : String) :
    sublist (xs ++ ys) head = (sublist xs head).or (sublist ys head) :=
  List.findSome?_append

@[simp] lemma sublist_list (first head : String) (rest xs : List SExpr) :
    sublist (.list (.atom first :: rest) :: xs) head =
      if first = head then some rest else sublist xs head := by
  by_cases h : first = head
  · rw [sublist]
    simp [h]
  · simp [h, sublist]

@[simp] lemma sublist_form (first head text : String) (xs : List SExpr) :
    sublist (form first text :: xs) head =
      if first = head then some [.atom text] else sublist xs head :=
  sublist_list first head [.atom text] xs

lemma sublist_forms (first head : String) (text : Option String) :
    sublist (forms first text) head =
      if first = head then (given text).map fun text => [.atom text] else none := by
  unfold forms
  cases given text with
  | none => simp
  | some text => simp

lemma textOf_map {items : List SExpr} {head : String} {text : Option String}
    (h : sublist items head = text.map fun text => [.atom text]) : textOf items head = text := by
  rw [textOf, h]
  cases text with
  | none => rfl
  | some text => rfl

lemma mapM_map {α β γ : Type} {f : α → β} (decode : β → Option γ) {g : α → γ} (as : List α)
    (h : ∀ a ∈ as, decode (f a) = some (g a)) : (as.map f).mapM decode = some (as.map g) := by
  induction as with
  | nil => rfl
  | cons a as ih =>
    have hrest := ih fun b hb => h b (List.mem_cons_of_mem _ hb)
    rw [List.map_cons, List.mapM_cons, h a List.mem_cons_self, hrest]
    rfl

lemma sublist_fieldsForms (fields : List (String × String)) (head : String) :
    sublist (fieldsForms fields) head =
      if "fields" = head ∧ fields ≠ [] then some (fields.map fieldTree) else none := by
  unfold fieldsForms
  by_cases h : fields = []
  · simp [h]
  · simp [h]

lemma sublist_libSourceForms (source : Option LibSource) {head : String} (h : "libsource" ≠ head) :
    sublist (libSourceForms source) head = none := by
  cases source with
  | none => rfl
  | some source => simp [libSourceForms, h]

lemma sublist_uuidForms (uuid : Option String) (head : String) :
    sublist (uuidForms uuid) head =
      if "tstamps" = head then (given uuid).map fun uuid => [.atom ("/" ++ uuid)] else none := by
  unfold uuidForms
  cases given uuid with
  | none => simp
  | some uuid => simp

/-! ### Components, nodes and nets -/

/-- What is in a component's list. -/
def compItems (c : NetlistComponent) : List SExpr :=
  form "ref" c.ref :: form "value" c.value :: (forms "footprint" (some c.footprint) ++
    fieldsForms c.fields ++ libSourceForms c.libSource ++ uuidForms c.uuid)

lemma textOf_footprint (c : NetlistComponent) :
    textOf (compItems c) "footprint" = given (some c.footprint) := by
  refine textOf_map ?_
  simp [compItems, sublist_append, sublist_forms, sublist_fieldsForms, sublist_libSourceForms,
    sublist_uuidForms]

lemma textOf_tstamps (c : NetlistComponent) :
    textOf (compItems c) "tstamps" = (given c.uuid).map ("/" ++ ·) := by
  refine textOf_map ?_
  simp [compItems, sublist_append, sublist_forms, sublist_fieldsForms, sublist_libSourceForms,
    sublist_uuidForms, Function.comp_def]

lemma decodeFields_comp (c : NetlistComponent) : decodeFields (compItems c) = some c.fields := by
  have hchild : sublist (compItems c) "fields" =
      if c.fields ≠ [] then some (c.fields.map fieldTree) else none := by
    simp [compItems, sublist_append, sublist_forms, sublist_fieldsForms, sublist_libSourceForms,
      sublist_uuidForms]
  rw [decodeFields, hchild]
  by_cases h : c.fields = []
  · rw [if_neg (not_not.mpr h), h]
  · rw [if_pos h]
    have hall : (c.fields.map fieldTree).mapM decodeField = some (c.fields.map id) :=
      mapM_map decodeField c.fields fun field _ => rfl
    rwa [List.map_id] at hall

lemma decodeLibSource_comp (c : NetlistComponent) : decodeLibSource (compItems c) =
    some (c.libSource.map fun source => { source with description := given source.description }) := by
  have hchild : sublist (compItems c) "libsource" = sublist (libSourceForms c.libSource) "libsource" := by
    simp [compItems, sublist_append, sublist_forms, sublist_fieldsForms, sublist_uuidForms]
  rw [decodeLibSource, hchild]
  cases c.libSource with
  | none => rfl
  | some source =>
    have hdescription : textOf (form "lib" source.lib :: form "part" source.part ::
        forms "description" source.description) "description" = given source.description := by
      refine textOf_map ?_
      simp [sublist_forms]
    simp only [libSourceForms, sublist_list, if_true, hdescription]
    simp [textOf]

lemma pathName_slash (uuid : String) : pathName ("/" ++ uuid) = uuid := by
  simp [pathName]

lemma decodeComp_compTree (c : NetlistComponent) :
    decodeComp (compTree c) = some (componentContent c) := by
  have htree : compTree c = .list (.atom "comp" :: compItems c) := rfl
  have huuid : ((given c.uuid).map ("/" ++ ·)).map pathName = given c.uuid := by
    simp [Function.comp_def, pathName_slash]
  rw [htree, decodeComp, decodeFields_comp, decodeLibSource_comp,
    textOf_footprint, textOf_tstamps, huuid]
  rfl

lemma decodeNode_nodeTree (n : NetlistNode) : decodeNode (nodeTree n) = some (nodeContent n) := by
  have hfunction : textOf (form "ref" n.ref :: form "pin" n.pin ::
      (forms "pinfunction" n.pinFunction ++ forms "pintype" n.pinType)) "pinfunction" =
        given n.pinFunction := by
    refine textOf_map ?_
    simp [sublist_append, sublist_forms]
  have htype : textOf (form "ref" n.ref :: form "pin" n.pin ::
      (forms "pinfunction" n.pinFunction ++ forms "pintype" n.pinType)) "pintype" =
        given n.pinType := by
    refine textOf_map ?_
    simp [sublist_append, sublist_forms]
  rw [nodeTree, decodeNode, hfunction, htype]
  simp [textOf, nodeContent]

section Content

variable (N : Numerals)

lemma decodeNet_netTree (net : NetlistNet) (i : ℕ) :
    decodeNet N (netTree N net i) = some (netContent net i) := by
  have hnodes := mapM_map decodeNode net.nodes fun n _ => decodeNode_nodeTree n
  rw [netTree, decodeNet, hnodes]
  simp [textOf, netContent, N.read_print]

lemma decode_exportTree (netlist : Netlist) (date : Option String) (now : String) :
    decode N (exportTree N netlist date now) = some (content netlist) := by
  have hcomponents := mapM_map decodeComp netlist.components
    fun c _ => decodeComp_compTree c
  have hnets := mapM_map (decodeNet N) netlist.nets.zipIdx
    fun net _ => decodeNet_netTree N net.1 net.2
  simp [exportTree, decode, designOf, designTree, netTrees, hcomponents, hnets, content]

/-- **An emitted netlist can be read.** It is one s-expression, in which a reader finds what the
netlist says; netlists that say something else have other texts. -/
theorem emitted_read (netlist : Netlist) (date : Option String) (now : String) :
    (∃ tree, readAll (emitKicadNetlist N netlist date now) = some [tree]) ∧
      readNetlist N (emitKicadNetlist N netlist date now) = some (content netlist) ∧
      ∀ other date' now', emitKicadNetlist N netlist date now = emitKicadNetlist N other date' now' →
        content netlist = content other := by
  have hread : ∀ netlist date now,
      readNetlist N (emitKicadNetlist N netlist date now) = some (content netlist) := by
    intro netlist date now
    rw [readNetlist, readOne_emit, Option.bind_some, decode_exportTree]
  refine ⟨?_, hread netlist date now, fun other date' now' hsame => ?_⟩
  · have hone := readOne_emit N netlist date now
    unfold readOne at hone
    split at hone
    next x hall => exact ⟨x, hall⟩
    next => exact absurd hone.symm (Option.some_ne_none _)
  · have hfirst := hread netlist date now
    rw [hsame, hread] at hfirst
    exact (Option.some.inj hfirst).symm

end Content

end FabPcb.NetlistRoundTrip
