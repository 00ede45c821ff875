import FabPcb.StreamDecoder

/-!
The events of a routing job, as the bridge writes them into a stream of text and the web app reads
them out of it.

Texts are lists of UTF-16 code units, so that a chunk may end anywhere.
-/

namespace FabPcb.EventStream

open StreamDecoder

abbrev Text := List ℕ

/-- A text of the source, which is of one unit each character. -/
def text (s : String) : Text := s.toList.map Char.toNat

/-! ### What is sent -/

/-- The text of a number, which has no control characters. -/
structure NumberText where
  text : Text
  printable : ∀ u ∈ text, 32 ≤ u

inductive Json
  | null
  | bool (b : Bool)
  | number (n : NumberText)
  | string (s : Text)
  | array (items : List Json)
  | object (fields : List (Text × Json))

def isHigh (u : ℕ) : Bool := 0xD800 ≤ u && u < 0xDC00

def isLow (u : ℕ) : Bool := 0xDC00 ≤ u && u < 0xE000

def hexDigit (d : ℕ) : ℕ := if d < 10 then 48 + d else 87 + d

/-- `\u` and four digits -/
def unicodeEscape (u : ℕ) : Text :=
  text "\\u" ++ [hexDigit (u / 4096 % 16), hexDigit (u / 256 % 16), hexDigit (u / 16 % 16),
    hexDigit (u % 16)]

/-- A unit of a string that is not half of a pair. -/
def escape (u : ℕ) : Text :=
  if u = 34 then text "\\\""
  else if u = 92 then text "\\\\"
  else if u = 8 then text "\\b"
  else if u = 12 then text "\\f"
  else if u = 10 then text "\\n"
  else if u = 13 then text "\\r"
  else if u = 9 then text "\\t"
  else if u < 32 || isHigh u || isLow u then unicodeEscape u
  else [u]

def escapeAll : Text → Text
  | [] => []
  | [u] => escape u
  | u :: v :: rest =>
    if isHigh u && isLow v then u :: v :: escapeAll rest else escape u ++ escapeAll (v :: rest)

def quote (s : Text) : Text := 34 :: escapeAll s ++ [34]

mutual

/-- `JSON.stringify` -/
def stringify : Json → Text
  | .null => text "null"
  | .bool b => text (if b then "true" else "false")
  | .number n => n.text
  | .string s => quote s
  | .array items => 91 :: stringifyItems items ++ [93]
  | .object fields => 123 :: stringifyFields fields ++ [125]

def stringifyItems : List Json → Text
  | [] => []
  | [j] => stringify j
  | j :: more => stringify j ++ 44 :: stringifyItems more

def stringifyFields : List (Text × Json) → Text
  | [] => []
  | [(k, j)] => quote k ++ 58 :: stringify j
  | (k, j) :: more => quote k ++ 58 :: stringify j ++ 44 :: stringifyFields more

end

inductive EventName
  | state
  | progress
  | done
  | error

def EventName.text : EventName → Text
  | .state => EventStream.text "state"
  | .progress => EventStream.text "progress"
  | .done => EventStream.text "done"
  | .error => EventStream.text "error"

/-- What the bridge puts into a stream. -/
inductive Sent
  | event (name : EventName) (data : Json)
  | keepalive

/-- What stands before the blank line. -/
def Sent.block : Sent → Text
  | .event name data =>
    EventStream.text "event: " ++ name.text ++ 10 :: EventStream.text "data: " ++ stringify data
  | .keepalive => EventStream.text ": keepalive"

def Sent.text (s : Sent) : Text := s.block ++ [10, 10]

def streamText (sent : List Sent) : Text := (sent.map Sent.text).flatten

/-! ### `SseParser` -/

structure SseEvent where
  event : Text
  data : Text
  deriving DecidableEq

/-- Where the first blank line begins. -/
def indexOfBlank : Text → Option ℕ
  | [] => none
  | [_] => none
  | u :: v :: rest => if u = 10 ∧ v = 10 then some 0 else (indexOfBlank (v :: rest)).map (· + 1)

def dropCr (line : Text) : Text := if line.getLast? = some 13 then line.dropLast else line

def dropSpace (value : Text) : Text := if value.head? = some 32 then value.tail else value

/-- The event and the lines of data so far, with one more line. -/
def parseLine (acc : Text × List Text) (raw : Text) : Text × List Text :=
  let line := dropCr raw
  if line = [] || line.head? == some 58 then acc
  else
    let field := line.takeWhile (· != 58)
    let value := dropSpace (line.drop (field.length + 1))
    if field = text "event" then (value, acc.2)
    else if field = text "data" then (acc.1, acc.2 ++ [value])
    else acc

def parseSseBlock (block : Text) : Option SseEvent :=
  let acc := (block.splitOn 10).foldl parseLine (text "message", [])
  if acc.2 = [] then none else some ⟨acc.1, [10].intercalate acc.2⟩

structure SseParser where
  buffer : Text := []

/-- The blocks that are complete, at most `n`. -/
def SseParser.blocks : ℕ → Text → List SseEvent × Text
  | 0, buffer => ([], buffer)
  | n + 1, buffer =>
    match indexOfBlank buffer with
    | none => ([], buffer)
    | some idx =>
      let (out, rest) := blocks n (buffer.drop (idx + 2))
      ((parseSseBlock (buffer.take idx)).toList ++ out, rest)

/-- Each block makes the buffer shorter. -/
def SseParser.push (p : SseParser) (chunk : Text) : SseParser × List SseEvent :=
  let buffer := p.buffer ++ chunk
  let (out, rest) := blocks (buffer.length + 1) buffer
  (⟨rest⟩, out)

/-- White space, as `trim` takes it. -/
def isSpace (u : ℕ) : Bool :=
  (9 ≤ u && u ≤ 13) || u == 32 || u == 0xA0 || u == 0x1680 || (0x2000 ≤ u && u ≤ 0x200A) ||
    u == 0x2028 || u == 0x2029 || u == 0x202F || u == 0x205F || u == 0x3000 || u == 0xFEFF

def SseParser.flush (p : SseParser) : List SseEvent :=
  if p.buffer.all isSpace then [] else (parseSseBlock p.buffer).toList

/-- The chunks of a stream, one after another. -/
def SseParser.pushAll (p : SseParser) : List Text → SseParser × List SseEvent
  | [] => (p, [])
  | chunk :: chunks =>
    let (p, out) := p.push chunk
    let (p, more) := p.pushAll chunks
    (p, out ++ more)

/-! ### No control characters in data -/

/-- No unit is a control character. -/
def Printable (t : Text) : Prop := ∀ u ∈ t, 32 ≤ u

instance (t : Text) : Decidable (Printable t) := inferInstanceAs (Decidable (∀ u ∈ t, 32 ≤ u))

lemma printable_append {s t : Text} (hs : Printable s) (ht : Printable t) : Printable (s ++ t) :=
  fun u hu => (List.mem_append.mp hu).elim (hs u) (ht u)

lemma printable_cons {u : ℕ} {t : Text} (hu : 32 ≤ u) (ht : Printable t) : Printable (u :: t) :=
  List.forall_mem_cons.mpr ⟨hu, ht⟩

lemma printable_nil : Printable [] := fun _ h => by cases h

lemma le_hexDigit (d : ℕ) : 32 ≤ hexDigit d := by
  rw [hexDigit]
  split_ifs <;> omega

lemma printable_escape (u : ℕ) : Printable (escape u) := by
  rw [escape]
  split_ifs with h1 h2 h3 h4 h5 h6 h7 h8
  iterate 7 decide
  · refine printable_append (s := text "\\u") (by decide) fun v hv => ?_
    simp only [List.mem_cons, List.not_mem_nil, or_false] at hv
    rcases hv with rfl | rfl | rfl | rfl <;> exact le_hexDigit _
  · simp only [Bool.or_eq_true, decide_eq_true_eq, not_or] at h8
    exact printable_cons (by omega) printable_nil

lemma printable_escapeAll (s : Text) : Printable (escapeAll s) := by
  fun_induction escapeAll s with
  | case1 => exact printable_nil
  | case2 u => exact printable_escape u
  | case3 u v rest h ih =>
    simp only [isHigh, isLow, Bool.and_eq_true, decide_eq_true_eq] at h
    exact printable_cons (by omega) (printable_cons (by omega) ih)
  | case4 u v rest h ih => exact printable_append (printable_escape u) ih

lemma printable_quote (s : Text) : Printable (quote s) :=
  printable_cons (by decide) (printable_append (printable_escapeAll s) (by decide))

mutual

lemma printable_stringify : (j : Json) → Printable (stringify j)
  | .null => by rw [stringify]; decide
  | .bool true => by rw [stringify]; decide
  | .bool false => by rw [stringify]; decide
  | .number n => n.printable
  | .string s => printable_quote s
  | .array items =>
    printable_cons (by decide) (printable_append (printable_stringifyItems items) (by decide))
  | .object fields =>
    printable_cons (by decide) (printable_append (printable_stringifyFields fields) (by decide))

lemma printable_stringifyItems : (items : List Json) → Printable (stringifyItems items)
  | [] => printable_nil
  | [j] => printable_stringify j
  | j :: k :: more =>
    printable_append (printable_stringify j)
      (printable_cons (by decide) (printable_stringifyItems (k :: more)))

lemma printable_stringifyFields :
    (fields : List (Text × Json)) → Printable (stringifyFields fields)
  | [] => printable_nil
  | [(k, j)] =>
    printable_append (printable_quote k) (printable_cons (by decide) (printable_stringify j))
  | (k, j) :: f :: more =>
    printable_append
      (printable_append (printable_quote k) (printable_cons (by decide) (printable_stringify j)))
      (printable_cons (by decide) (printable_stringifyFields (f :: more)))

end

/-! ### Blocks -/

lemma indexOfBlank_append {s : Text} {idx : ℕ} (h : indexOfBlank s = some idx) (t : Text) :
    indexOfBlank (s ++ t) = some idx ∧ idx + 2 ≤ s.length := by
  induction s using indexOfBlank.induct generalizing idx with
  | case1 => cases h
  | case2 u => cases h
  | case3 u v rest hblank =>
    rw [indexOfBlank, if_pos hblank] at h
    obtain rfl := Option.some.inj h
    exact ⟨if_pos hblank, by simp⟩
  | case4 u v rest hblank ih =>
    rw [indexOfBlank, if_neg hblank] at h
    obtain ⟨i, hi, rfl⟩ := Option.map_eq_some_iff.mp h
    obtain ⟨happend, hlength⟩ := ih hi
    refine ⟨?_, by rw [List.length_cons]; omega⟩
    rw [List.cons_append, List.cons_append, indexOfBlank, if_neg hblank, ← List.cons_append,
      happend, Option.map_some]

lemma indexOfBlank_cons {u : ℕ} (hu : u ≠ 10) (s : Text) :
    indexOfBlank (u :: s) = (indexOfBlank s).map (· + 1) := by
  cases s with
  | nil => rfl
  | cons v rest => exact if_neg fun h => hu h.1

lemma indexOfBlank_line {l : Text} (hl : 10 ∉ l) (s : Text) :
    indexOfBlank (l ++ s) = (indexOfBlank s).map (· + l.length) := by
  induction l with
  | nil => simp
  | cons u l ih =>
    rw [List.cons_append, indexOfBlank_cons (List.ne_of_not_mem_cons hl).symm,
      ih (List.not_mem_of_not_mem_cons hl), Option.map_map]
    rfl

/-- A text without blank lines, nor a line feed at its end. -/
def Closed (block : Text) : Prop := ∀ t, indexOfBlank (block ++ 10 :: 10 :: t) = some block.length

lemma closed_line {l : Text} (hl : 10 ∉ l) : Closed l := by
  intro t
  rw [indexOfBlank_line hl]
  simp [indexOfBlank]

lemma closed_lines {l l' : Text} (hl : 10 ∉ l) (hl' : 10 ∉ l') (hne : l' ≠ []) :
    Closed (l ++ 10 :: l') := by
  intro t
  obtain ⟨u, rest, rfl⟩ := List.exists_cons_of_ne_nil hne
  have hu : u ≠ 10 := (List.ne_of_not_mem_cons hl').symm
  have hrest := closed_line hl' t
  rw [List.append_assoc, indexOfBlank_line hl, List.cons_append, List.cons_append, indexOfBlank,
    if_neg fun h => hu h.2, ← List.cons_append, hrest]
  simp only [Option.map_some, List.length_append, List.length_cons]
  congr 1
  omega

/-- A decoder that takes a block at a time. -/
def blockDecoder : Decoder Unit ℕ (Option SseEvent) Empty := fun _ s =>
  match indexOfBlank s with
  | none => .ok none
  | some idx => .ok (some ((), [parseSseBlock (s.take idx)], s.drop (idx + 2)))

lemma blockDecoder_of_some {s : Text} {idx : ℕ} (h : indexOfBlank s = some idx) :
    blockDecoder () s = .ok (some ((), [parseSseBlock (s.take idx)], s.drop (idx + 2))) := by
  rw [blockDecoder, h]

lemma blockDecoder_of_none {s : Text} (h : indexOfBlank s = none) :
    blockDecoder () s = .ok none := by
  rw [blockDecoder, h]

lemma exists_of_blockDecoder {a b : Unit} {s r : Text} {x : List (Option SseEvent)}
    (h : blockDecoder a s = .ok (some (b, x, r))) : ∃ idx, indexOfBlank s = some idx ∧
      x = [parseSseBlock (s.take idx)] ∧ r = s.drop (idx + 2) := by
  cases hidx : indexOfBlank s with
  | none =>
    rw [blockDecoder_of_none hidx] at h
    cases h
  | some idx =>
    rw [blockDecoder_of_some hidx] at h
    cases h
    exact ⟨idx, rfl, rfl, rfl⟩

lemma steady_blockDecoder : Steady blockDecoder where
  shorter := by
    intro a s b x r h
    obtain ⟨idx, hidx, -, rfl⟩ := exists_of_blockDecoder h
    have := (indexOfBlank_append hidx []).2
    rw [List.length_drop]
    omega
  taken := by
    intro a s b x r t h
    obtain ⟨idx, hidx, rfl, rfl⟩ := exists_of_blockDecoder h
    obtain ⟨happend, hlength⟩ := indexOfBlank_append hidx t
    rw [blockDecoder_of_some happend, List.take_append_of_le_length (by omega),
      List.drop_append_of_le_length (by omega)]
  refused := fun _ _ e => e.elim

lemma blocks_of_reads {a b : Unit} {s r : Text} {x : List (Option SseEvent)} {n : ℕ}
    (h : Reads blockDecoder a s b x r) (hn : s.length < n) :
    SseParser.blocks n s = (x.filterMap id, r) := by
  induction h generalizing n with
  | @waits a s h =>
    cases n with
    | zero => omega
    | succ n =>
      cases hidx : indexOfBlank s with
      | none => rw [SseParser.blocks, hidx]; rfl
      | some idx =>
        rw [blockDecoder_of_some hidx] at h
        cases h
  | @takes a b c s r q x y h hrest ih =>
    cases n with
    | zero => omega
    | succ n =>
      have hshort := steady_blockDecoder.shorter _ _ _ _ _ h
      obtain ⟨idx, hidx, rfl, rfl⟩ := exists_of_blockDecoder h
      have hblock : [parseSseBlock (s.take idx)].filterMap id =
          (parseSseBlock (s.take idx)).toList := by
        cases parseSseBlock (s.take idx) <;> rfl
      rw [SseParser.blocks, hidx]
      dsimp only
      rw [ih (by omega), List.filterMap_append, hblock]

/-- However a stream is cut, its blocks are read once they are complete. -/
lemma pushAll_of_reads {p : SseParser} {chunks : List Text} {x : List (Option SseEvent)} {r : Text}
    (hp : indexOfBlank p.buffer = none)
    (h : Reads blockDecoder () (p.buffer ++ chunks.flatten) () x r) :
    p.pushAll chunks = (⟨r⟩, x.filterMap id) := by
  induction chunks generalizing p x with
  | nil =>
    rw [List.flatten_nil, List.append_nil] at h
    cases h with
    | waits _ => rfl
    | takes h' _ =>
      rw [blockDecoder_of_none hp] at h'
      cases h'
  | cons t ts ih =>
    rw [List.flatten_cons, ← List.append_assoc] at h
    obtain ⟨_, y, z, q, hfirst, hsecond, rfl⟩ := h.split steady_blockDecoder
    have hpush : p.push t = (⟨q⟩, y.filterMap id) := by
      rw [SseParser.push, blocks_of_reads hfirst (Nat.lt_succ_self _)]
    have hwaits : indexOfBlank q = none := by
      have hwaiting := hfirst.waiting
      cases hidx : indexOfBlank q with
      | none => rfl
      | some idx =>
        rw [blockDecoder_of_some hidx] at hwaiting
        cases hwaiting
    rw [SseParser.pushAll, hpush]
    dsimp only
    rw [ih (p := ⟨q⟩) hwaits hsecond, List.filterMap_append]

/-! ### What is read of what was sent -/

/-- The event that a block is read as. -/
def Sent.event? : Sent → Option SseEvent
  | .event name data => some ⟨name.text, stringify data⟩
  | .keepalive => none

/-- The events that were sent, with their names and data. -/
def eventsOf (sent : List Sent) : List SseEvent := sent.filterMap Sent.event?

lemma notMem_of_printable {t : Text} (h : Printable t) {u : ℕ} (hu : u < 32) : u ∉ t :=
  fun hmem => absurd (h u hmem) (by omega)

lemma printable_name (name : EventName) : Printable name.text := by
  cases name <;> decide

lemma dropCr_of_printable {t : Text} (h : Printable t) : dropCr t = t := by
  rw [dropCr, if_neg]
  intro hlast
  exact notMem_of_printable h (by decide) (List.mem_of_getLast? hlast)

/-- A line of a field and its value, which has no colon in the field. -/
lemma parseLine_field {acc : Text × List Text} {field value : Text} (hfield : 58 ∉ field)
    (hne : field ≠ []) (hf : Printable field) (hv : Printable value) :
    parseLine acc (field ++ 58 :: 32 :: value) =
      if field = text "event" then (value, acc.2)
      else if field = text "data" then (acc.1, acc.2 ++ [value]) else acc := by
  have hline : dropCr (field ++ 58 :: 32 :: value) = field ++ 58 :: 32 :: value :=
    dropCr_of_printable (printable_append hf (printable_cons (by decide)
      (printable_cons (by decide) hv)))
  have htake : (field ++ 58 :: 32 :: value).takeWhile (· != 58) = field := by
    rw [List.takeWhile_append_of_pos fun u hu => bne_iff_ne.mpr (ne_of_mem_of_not_mem hu hfield)]
    simp
  have hdrop : (field ++ 58 :: 32 :: value).drop (field.length + 1) = 32 :: value := by
    simp
  have hhead : (field ++ 58 :: 32 :: value).head? ≠ some 58 := by
    obtain ⟨u, rest, rfl⟩ := List.exists_cons_of_ne_nil hne
    exact fun h => List.ne_of_not_mem_cons hfield (Option.some.inj h).symm
  rw [parseLine, hline]
  simp only [htake, hdrop, dropSpace, List.head?_cons, List.tail_cons, if_true,
    beq_eq_false_iff_ne.mpr hhead, List.append_eq_nil_iff, reduceCtorEq, and_false, decide_false,
    Bool.or_false, Bool.false_eq_true, if_false]

/-- What is written is one event with its name and data, or nothing. -/
lemma parse_block (sent : Sent) : parseSseBlock sent.block = sent.event? := by
  cases sent with
  | keepalive => decide
  | event name data =>
    have hname := printable_name name
    have hdata := printable_stringify data
    have hfirst : Printable (text "event" ++ 58 :: 32 :: name.text) :=
      printable_append (by decide) (printable_cons (by decide) (printable_cons (by decide) hname))
    have hsecond : Printable (text "data" ++ 58 :: 32 :: stringify data) :=
      printable_append (by decide) (printable_cons (by decide) (printable_cons (by decide) hdata))
    have hblock : (Sent.event name data).block = (text "event" ++ 58 :: 32 :: name.text) ++
        10 :: (text "data" ++ 58 :: 32 :: stringify data) := by
      have hevent : text "event: " = text "event" ++ [58, 32] := by decide
      have hdataText : text "data: " = text "data" ++ [58, 32] := by decide
      simp [Sent.block, hevent, hdataText, List.append_assoc, List.cons_append,
        List.nil_append]
    have hlines : (Sent.event name data).block.splitOn 10 =
        [text "event" ++ 58 :: 32 :: name.text, text "data" ++ 58 :: 32 :: stringify data] := by
      rw [hblock, List.splitOn_append_cons_self,
        List.splitOn_eq_singleton (notMem_of_printable hfirst (by decide)),
        List.splitOn_eq_singleton (notMem_of_printable hsecond (by decide))]
      rfl
    rw [parseSseBlock, hlines, List.foldl_cons, List.foldl_cons, parseLine_field (by decide) (by decide) (by decide) hname,
      parseLine_field (by decide) (by decide) (by decide) hdata]
    simp [Sent.event?, text, List.intercalate]

lemma closed_block (sent : Sent) : Closed sent.block := by
  cases sent with
  | keepalive => exact closed_line (by decide)
  | event name data =>
    have hfirst : 10 ∉ text "event: " ++ name.text :=
      notMem_of_printable (printable_append (by decide) (printable_name name)) (by decide)
    have hsecond : 10 ∉ text "data: " ++ stringify data :=
      notMem_of_printable (printable_append (by decide) (printable_stringify data)) (by decide)
    have hblock : (Sent.event name data).block =
        (text "event: " ++ name.text) ++ 10 :: (text "data: " ++ stringify data) := by
      simp [Sent.block, List.append_assoc, List.cons_append]
    rw [hblock]
    exact closed_lines hfirst hsecond (List.append_ne_nil_of_left_ne_nil (by decide) _)

lemma decodes_text (sent : Sent) (t : Text) :
    blockDecoder () (sent.text ++ t) = .ok (some ((), [sent.event?], t)) := by
  have htext : sent.text ++ t = sent.block ++ 10 :: 10 :: t := by
    rw [Sent.text, List.append_assoc]
    rfl
  rw [htext, blockDecoder_of_some (closed_block sent t), List.take_left' rfl, parse_block,
    ← List.drop_drop, List.drop_left' rfl]
  rfl

lemma waits_of_part {sent : Sent} {tail : Text} (h : tail <+: sent.text)
    (hshort : tail.length < sent.text.length) : indexOfBlank tail = none := by
  cases hidx : indexOfBlank tail with
  | none => rfl
  | some idx =>
    obtain ⟨u, hu⟩ := h
    obtain ⟨hwhole, hlength⟩ := indexOfBlank_append hidx u
    rw [hu, Sent.text, closed_block sent []] at hwhole
    obtain rfl := Option.some.inj hwhole
    rw [Sent.text, List.length_append] at hshort
    simp only [List.length_cons, List.length_nil] at hshort
    omega

lemma waits_of_unfinished {sent : List Sent} {tail : Text}
    (h : Unfinished (sent.map Sent.text) tail) : indexOfBlank tail = none := by
  cases sent with
  | nil =>
    rw [show tail = [] from h]
    rfl
  | cons s more => exact waits_of_part h.1 h.2

lemma reads_stream (sent : List Sent) {tail : Text} (htail : indexOfBlank tail = none) :
    Reads blockDecoder () (streamText sent ++ tail) () (sent.map Sent.event?) tail := by
  refine reads_frames ?_ (blockDecoder_of_none htail)
  exact List.forall₂_map_left_iff.mpr (List.forall₂_map_right_iff.mpr
    (List.forall₂_same.mpr fun s _ => decodes_text s))

/-- **The stream is read as it was sent.** However what has arrived of it is cut into chunks, the
events read are those sent whose blank line has arrived, in their order and with their names and
data; and at its end these are all that were sent, and nothing is left to flush. -/
theorem stream_read {sent : List Sent} {chunks : List Text} {rest : Text}
    (h : chunks.flatten ++ rest = streamText sent) :
    ∃ k tail, chunks.flatten = streamText (sent.take k) ++ tail ∧
      Unfinished ((sent.drop k).map Sent.text) tail ∧
      (({} : SseParser).pushAll chunks).2 = eventsOf (sent.take k) ∧
      (rest = [] → (({} : SseParser).pushAll chunks).2 ++
        (({} : SseParser).pushAll chunks).1.flush = eventsOf sent) := by
  obtain ⟨k, tail, hcut, htail⟩ := exists_unfinished (sent.map Sent.text) ⟨rest, h⟩
  rw [← List.map_take] at hcut
  rw [← List.map_drop] at htail
  change chunks.flatten = streamText (sent.take k) ++ tail at hcut
  have hreads := reads_stream (sent.take k) (waits_of_unfinished htail)
  rw [← hcut] at hreads
  have hpush := pushAll_of_reads (p := {}) rfl hreads
  have hevents : ((sent.take k).map Sent.event?).filterMap id = eventsOf (sent.take k) :=
    List.filterMap_map
  rw [hevents] at hpush
  refine ⟨k, tail, hcut, htail, by rw [hpush], fun hrest => ?_⟩
  have hdrop : sent.drop k = [] := by
    cases hmore : sent.drop k with
    | nil => rfl
    | cons s more =>
      rw [hmore] at htail
      have hall : streamText sent = streamText (sent.take k) ++ streamText (sent.drop k) := by
        rw [streamText, streamText, streamText, ← List.flatten_append, ← List.map_append,
          List.take_append_drop]
      rw [hrest, List.append_nil, hcut, hall] at h
      have htext := List.append_cancel_left h
      have hshort := htail.2
      rw [htext, hmore, streamText, List.map_cons, List.flatten_cons, List.length_append] at hshort
      omega
  have hnil : tail = [] := by rwa [hdrop] at htail
  have htake : sent.take k = sent := List.take_of_length_le (List.drop_eq_nil_iff.mp hdrop)
  rw [hpush, hnil, htake]
  exact List.append_nil _

/-- The state and the end of a job, with a comment between them. -/
def jobStream : List Sent :=
  [.event .state (.object [(text "id", .string (text "j1"))]), .keepalive,
    .event .done (.array [.null, .bool true])]

theorem stream_read_jobStream :
    ∃ k tail, [(streamText jobStream).take 9, (streamText jobStream).drop 9].flatten =
        streamText (jobStream.take k) ++ tail ∧
      Unfinished ((jobStream.drop k).map Sent.text) tail ∧
      (({} : SseParser).pushAll [(streamText jobStream).take 9, (streamText jobStream).drop 9]).2 =
        eventsOf (jobStream.take k) ∧
      (([] : Text) = [] → (({} : SseParser).pushAll
        [(streamText jobStream).take 9, (streamText jobStream).drop 9]).2 ++
        (({} : SseParser).pushAll
          [(streamText jobStream).take 9, (streamText jobStream).drop 9]).1.flush =
        eventsOf jobStream) :=
  stream_read (by simp)

end FabPcb.EventStream
