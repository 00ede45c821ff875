import FabPcb.SExprText

/-!
The steps of `parseSExpr`, and the texts that it reads back.

Two kinds of text do not come back: JSON escapes control characters in a way that the reader does not
undo, and a text that begins with a closing parenthesis makes its quotation mark a token.
-/

namespace FabPcb.SExprRoundTrip

open SExprText

/-! ### Steps of the reader -/

lemma readString_length {cs : List Char} {r : List Char × List Char}
    (h : readString cs = some r) : r.2.length < cs.length := by
  induction cs using readString.induct generalizing r with
  | case1 => cases h
  | case2 cs =>
    cases h
    simp
  | case3 c cs ih =>
    obtain ⟨q, hq, rfl⟩ := Option.map_eq_some_iff.mp h
    have hshort := ih hq
    simp only [List.length_cons]
    omega
  | case4 => cases h
  | case5 c cs hquote hback hlast ih =>
    rw [readString.eq_5 c cs hquote hback hlast] at h
    obtain ⟨q, hq, rfl⟩ := Option.map_eq_some_iff.mp h
    have hshort := ih hq
    simp only [List.length_cons]
    omega

lemma length_dropWhile_le (p : Char → Bool) (cs : List Char) :
    (cs.dropWhile p).length ≤ cs.length := (List.dropWhile_sublist p).length_le

/-- Fuel beyond the length of the text makes no difference. -/
lemma parseLoop_fuel {n m : ℕ} {b : Bool} {cs : List Char} {stack : List (List SExpr)}
    (hn : cs.length < n) (hm : cs.length < m) :
    parseLoop n b cs stack = parseLoop m b cs stack := by
  induction n generalizing m b cs stack with
  | zero => omega
  | succ n ih =>
    cases m with
    | zero => omega
    | succ m =>
      cases cs with
      | nil => rfl
      | cons c cs =>
        rw [List.length_cons] at hn hm
        have hstep : ∀ b' cs' stack', cs'.length ≤ cs.length →
            parseLoop n b' cs' stack' = parseLoop m b' cs' stack' :=
          fun b' cs' stack' hle => ih (by omega) (by omega)
        have hsame := fun b' stack' => hstep b' cs stack' (Nat.le_refl _)
        have hdrop := fun p b' stack' => hstep b' (cs.dropWhile p) stack' (length_dropWhile_le p cs)
        rw [parseLoop, parseLoop]
        simp only [hsame, hdrop]
        cases hread : readString cs with
        | none => rfl
        | some r =>
          have hshort := readString_length hread
          simp [hstep _ _ _ (Nat.le_of_lt hshort)]

/-- The reader, with fuel for all that is left. -/
def parseRest (b : Bool) (cs : List Char) (stack : List (List SExpr)) :
    Except ParseError (List SExpr) := parseLoop (cs.length + 1) b cs stack

variable {b : Bool} {c : Char} {cs rest : List Char} {stack : List (List SExpr)}

lemma parseRest_open : parseRest b ('(' :: cs) stack = parseRest false cs ([] :: stack) := rfl

lemma parseRest_close {top below : List SExpr} {stack : List (List SExpr)} :
    parseRest b (')' :: cs) (top :: below :: stack) =
      parseRest false cs ((below ++ [.list top]) :: stack) := rfl

lemma parseRest_space : parseRest b (' ' :: cs) stack = parseRest false cs stack := rfl

lemma parseRest_string {text : List Char} (hsoon : closesSoon cs = false)
    (hread : readString cs = some (text, rest)) :
    parseRest b (dquote :: cs) stack =
      parseRest false rest (push (.atom (String.ofList text)) stack) := by
  have hshort : rest.length < cs.length := readString_length hread
  have hstep : parseRest b (dquote :: cs) stack = parseLoop (cs.length + 1) false rest
      (push (.atom (String.ofList text)) stack) := by
    rw [parseRest, parseLoop, hsoon, hread]
    rfl
  rw [hstep]
  exact parseLoop_fuel (by omega) (by omega)

lemma bare_ne (h : isBare c = true) : c ≠ '(' ∧ c ≠ ')' ∧ c ≠ dquote ∧
    ¬ (c = ' ' ∨ c = '\t' ∨ c = '\n' ∨ c = '\r') := by
  refine ⟨?_, ?_, ?_, ?_⟩
  · rintro rfl
    exact absurd h (by decide)
  · rintro rfl
    exact absurd h (by decide)
  · rintro rfl
    exact absurd h (by decide)
  · rintro (rfl | rfl | rfl | rfl) <;> exact absurd h (by decide)

lemma parseRest_bare (hbare : isBare c = true) (hhash : ¬ (c = '#' ∧ b = true)) :
    parseRest b (c :: cs) stack = parseRest false (cs.dropWhile isBare)
      (push (.atom (String.ofList (c :: cs.takeWhile isBare))) stack) := by
  obtain ⟨hopen, hclose, hquote, hspace⟩ := bare_ne hbare
  rw [parseRest, parseLoop, if_neg hopen, if_neg hclose, if_neg hquote, if_neg hhash,
    if_neg hspace, if_pos hbare]
  exact parseLoop_fuel (by have hle := length_dropWhile_le isBare cs; simp; omega) (by omega)

lemma parseRest_comment : parseRest true ('#' :: cs) stack =
    parseRest false (cs.dropWhile (· ≠ '\n')) stack := by
  have hstep : parseRest true ('#' :: cs) stack =
      parseLoop (cs.length + 1) false (cs.dropWhile (· ≠ '\n')) stack := rfl
  rw [hstep]
  exact parseLoop_fuel (by have hle := length_dropWhile_le (· ≠ '\n') cs; omega) (by omega)

/-! ### Texts that come back -/

/-- No JSON escape but those of quotation marks and backslashes, and no closing parenthesis at the
beginning. -/
def isReadable (s : List Char) : Bool :=
  isPlain s || (s.all (fun c => 32 ≤ c.toNat) && !closesSoon s)

lemma jsonChar_printable (h : 32 ≤ c.toNat) :
    jsonChar c = if c = dquote ∨ c = backslash then [backslash, c] else [c] := by
  have hnot : ∀ d : Char, d.toNat < 32 → c ≠ d := by
    rintro d hd rfl
    omega
  unfold jsonChar
  by_cases hquote : c = dquote
  · subst hquote
    rfl
  by_cases hback : c = backslash
  · subst hback
    rfl
  rw [if_neg hquote, if_neg hback, if_neg (hnot _ (by decide)), if_neg (hnot _ (by decide)),
    if_neg (hnot _ (by decide)), if_neg (hnot _ (by decide)), if_neg (hnot _ (by decide)),
    if_neg (by omega), if_neg (not_or.mpr ⟨hquote, hback⟩)]

lemma readString_other (hquote : c ≠ dquote) (hback : c ≠ backslash) :
    readString (c :: cs) = (readString cs).map fun r => (c :: r.1, r.2) :=
  readString.eq_5 c cs hquote (fun _ _ h _ => hback h) fun h _ => hback h

lemma readString_json {s : List Char} (h : ∀ c ∈ s, 32 ≤ c.toNat) :
    readString (s.flatMap jsonChar ++ dquote :: rest) = some (s, rest) := by
  induction s with
  | nil => rfl
  | cons c s ih =>
    have hrest := ih fun d hd => h d (List.mem_cons_of_mem _ hd)
    rw [List.flatMap_cons, jsonChar_printable (h c List.mem_cons_self)]
    split
    · have hstep : readString (backslash :: c :: (s.flatMap jsonChar ++ dquote :: rest)) =
          (readString (s.flatMap jsonChar ++ dquote :: rest)).map fun r => (c :: r.1, r.2) := rfl
      exact hstep.trans (by rw [hrest]; rfl)
    next hnot =>
      obtain ⟨hquote, hback⟩ := not_or.mp hnot
      rw [List.append_assoc, List.singleton_append, readString_other hquote hback, hrest]
      rfl

lemma closesSoon_json {s : List Char} (h : ∀ c ∈ s, 32 ≤ c.toNat) :
    closesSoon (s.flatMap jsonChar ++ dquote :: rest) = closesSoon s := by
  unfold closesSoon
  generalize 3 = n
  induction s generalizing n with
  | nil => cases n <;> rfl
  | cons c s ih =>
    have hrest := ih (fun d hd => h d (List.mem_cons_of_mem _ hd))
    rw [List.flatMap_cons, jsonChar_printable (h c List.mem_cons_self)]
    cases n with
    | zero => rfl
    | succ n =>
      by_cases hspecial : c = dquote ∨ c = backslash
      · rcases hspecial with rfl | rfl <;> rfl
      · rw [if_neg hspecial, List.append_assoc, List.singleton_append, List.take_succ_cons,
          List.take_succ_cons, List.dropWhile_cons, List.dropWhile_cons]
        split
        · exact hrest n
        · rfl

/-- What ends a bare token. -/
def Stops (rest : List Char) : Prop := ∀ c ∈ rest.head?, isBare c = false

lemma takeWhile_stops {p : Char → Bool} {s : List Char} (hs : ∀ c ∈ s, p c = true)
    (hstop : ∀ c ∈ rest.head?, p c = false) :
    (s ++ rest).takeWhile p = s ∧ (s ++ rest).dropWhile p = rest := by
  have hrest : rest.takeWhile p = [] ∧ rest.dropWhile p = rest := by
    cases rest with
    | nil => exact ⟨rfl, rfl⟩
    | cons c rest =>
      have hc : p c = false := hstop c rfl
      simp [hc]
  rw [List.takeWhile_append_of_pos hs, List.dropWhile_append_of_pos hs, hrest.1, hrest.2]
  simp

/-- A comment, if it stands at the start of a line. -/
def isComment (s : List Char) : Bool := isPlain s && s.head? = some '#'

lemma isPlain_iff {s : List Char} : isPlain s = true ↔
    ∃ c t, s = c :: t ∧ ∀ d ∈ c :: t, isBare d = true ∧ d ≠ backslash := by
  cases s with
  | nil => simp [isPlain]
  | cons c t => simp [isPlain]

/-! ### Trees -/

mutual

/-- The texts of a tree, in order. -/
def texts : SExpr → List String
  | .atom s => [s]
  | .list items => textsOf items

def textsOf : List SExpr → List String
  | [] => []
  | x :: xs => texts x ++ textsOf xs

end

lemma mem_textsOf {s : String} {xs : List SExpr} : s ∈ textsOf xs ↔ ∃ x ∈ xs, s ∈ texts x := by
  induction xs with
  | nil => simp [textsOf]
  | cons x xs ih => simp [textsOf, ih]

/-- Every text of a tree comes back. -/
def Readable (x : SExpr) : Prop := ∀ s ∈ texts x, isReadable s.toList = true

lemma readable_list {items : List SExpr} : Readable (.list items) ↔ ∀ x ∈ items, Readable x := by
  simp only [Readable, texts, mem_textsOf]
  exact ⟨fun h x hx s hs => h s ⟨x, hx, hs⟩, fun h s ⟨x, hx, hs⟩ => h x hx s hs⟩

/-- A form that is read as a comment when it stands on a line of its own. -/
def isRemark : SExpr → Bool
  | .atom s => isComment s.toList
  | .list _ => false

lemma stops_close : Stops (')' :: rest) := fun c hc => by
  cases hc
  rfl

end FabPcb.SExprRoundTrip
