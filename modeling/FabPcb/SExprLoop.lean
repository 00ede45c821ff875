import FabPcb.SExprRoundTrip
import Mathlib.Logic.Relation

/-!
The loop of `parseSExpr`, turn by turn.

The loop skips four characters as blanks, but a token ends at every space of the pattern class `\s`.
At a space of the class that is no blank the loop pushes an empty token and stays where it is. Where
that happens depends on what is quoted or commented out, and on whether a closing parenthesis was one
too many before.
-/

namespace FabPcb.SExprLoop

open SExprText SExprRoundTrip

/-! ### Turns -/

/-- Before a turn: what is left of the text, and the lists that are open. -/
structure Reader where
  lineStart : Bool
  rest : List Char
  stack : List (List SExpr)

inductive Turn where
  | next (r : Reader)
  | ends (result : Except ParseError (List SExpr))

/-- The four characters that the loop skips. -/
def isBlank (c : Char) : Bool := c = ' ' || c = '\t' || c = '\n' || c = '\r'

def turn (r : Reader) : Turn :=
  match r.rest with
  | [] => .ends (finish r.stack)
  | c :: cs =>
    if c = '(' then .next ⟨false, cs, [] :: r.stack⟩
    else if c = ')' then
      match closeTop r.stack with
      | none => .ends (.error .unbalanced)
      | some stack => .next ⟨false, cs, stack⟩
    else if c = dquote then
      if closesSoon cs then .next ⟨false, cs, push (.atom "\"") r.stack⟩
      else
        match readString cs with
        | none => .ends (.error .unterminated)
        | some s => .next ⟨false, s.2, push (.atom (String.ofList s.1)) r.stack⟩
    else if c = '#' ∧ r.lineStart = true then .next ⟨false, cs.dropWhile (· ≠ '\n'), r.stack⟩
    else if isBlank c then .next ⟨c = '\n', cs, r.stack⟩
    else if isBare c then
      .next ⟨false, cs.dropWhile isBare,
        push (.atom (String.ofList (c :: cs.takeWhile isBare))) r.stack⟩
    else
      -- the token has no character, and the loop does not move
      .next ⟨r.lineStart, c :: cs, push (.atom "") r.stack⟩

def start (text : String) : Reader := ⟨true, text.toList, [[]]⟩

/-- The result after so many turns, if the loop has ended. -/
def loop : ℕ → Reader → Option (Except ParseError (List SExpr))
  | 0, _ => none
  | n + 1, r =>
    match turn r with
    | .ends result => some result
    | .next r => loop n r

def Next (r r' : Reader) : Prop := turn r = .next r'

/-- Every turn takes something away from the text. -/
def Advances (r : Reader) : Prop := ∀ r', Next r r' → r'.rest.length < r.rest.length

/-- The loop makes progress at each turn, and it ends. -/
def Terminates (text : String) : Prop :=
  (∀ r, Relation.ReflTransGen Next (start text) r → Advances r) ∧
    ∃ n result, loop n (start text) = some result

/-! ### Where the loop gets stuck -/

inductive Mode where
  | outside (lineStart : Bool)
  | quoted
  | escaped
  | comment

/-- A space that is no blank stands outside quotation marks and comments, before any closing
parenthesis that closes nothing. `depth` is the number of open parentheses. -/
def meetsStray : Mode → ℕ → List Char → Bool
  | _, _, [] => false
  | .quoted, depth, c :: cs =>
    if c = dquote then meetsStray (.outside false) depth cs
    else if c = backslash then meetsStray .escaped depth cs
    else meetsStray .quoted depth cs
  | .escaped, depth, _ :: cs => meetsStray .quoted depth cs
  | .comment, depth, c :: cs =>
    if c = '\n' then meetsStray (.outside true) depth cs else meetsStray .comment depth cs
  | .outside lineStart, depth, c :: cs =>
    if c = '(' then meetsStray (.outside false) (depth + 1) cs
    else if c = ')' then depth ≠ 0 && meetsStray (.outside false) (depth - 1) cs
    else if c = dquote then
      meetsStray (if closesSoon cs then .outside false else .quoted) depth cs
    else if c = '#' ∧ lineStart = true then meetsStray .comment depth cs
    else if isBlank c then meetsStray (.outside (c = '\n')) depth cs
    else !isBare c || meetsStray (.outside false) depth cs

def hasStray (text : String) : Bool := meetsStray (.outside true) 0 text.toList

variable {c : Char} {cs : List Char} {d : ℕ} {b : Bool}

lemma bare_not_special (h : isBare c = true) : c ≠ '(' ∧ c ≠ ')' ∧ c ≠ dquote ∧ isBlank c = false := by
  refine ⟨?_, ?_, ?_, ?_⟩
  · rintro rfl
    exact absurd h (by decide)
  · rintro rfl
    exact absurd h (by decide)
  · rintro rfl
    exact absurd h (by decide)
  · refine Bool.eq_false_iff.mpr fun hblank => ?_
    simp only [isBlank, Bool.or_eq_true, decide_eq_true_eq] at hblank
    rcases hblank with ((rfl | rfl) | rfl) | rfl <;> exact absurd h (by decide)

lemma meetsStray_bare (h : isBare c = true) :
    meetsStray (.outside false) d (c :: cs) = meetsStray (.outside false) d cs := by
  obtain ⟨hopen, hclose, hquote, hblank⟩ := bare_not_special h
  simp [meetsStray, hopen, hclose, hquote, hblank, h]

lemma meetsStray_dropBare :
    meetsStray (.outside false) d (cs.dropWhile isBare) = meetsStray (.outside false) d cs := by
  induction cs with
  | nil => rfl
  | cons c cs ih =>
    by_cases h : isBare c = true
    · rw [List.dropWhile_cons_of_pos h, ih, meetsStray_bare h]
    · rw [List.dropWhile_cons_of_neg h]

lemma meetsStray_dropComment :
    meetsStray (.outside false) d (cs.dropWhile (· ≠ '\n')) = meetsStray .comment d cs := by
  induction cs with
  | nil => rfl
  | cons c cs ih =>
    by_cases h : c = '\n'
    · subst h
      rfl
    · have hgo : (c :: cs).dropWhile (· ≠ '\n') = cs.dropWhile (· ≠ '\n') :=
        List.dropWhile_cons_of_pos (decide_eq_true h)
      rw [hgo, ih, meetsStray, if_neg h]

lemma meetsStray_string :
    meetsStray .quoted d cs =
      ((readString cs).map fun s => meetsStray (.outside false) d s.2).getD false := by
  induction cs using readString.induct with
  | case1 => rfl
  | case2 cs => rfl
  | case3 c cs ih =>
    have hstep : meetsStray .quoted d ('\x5c' :: c :: cs) = meetsStray .quoted d cs := rfl
    rw [hstep, ih, readString, Option.map_map]
    rfl
  | case4 => rfl
  | case5 c cs hquote hback hlast ih =>
    have hback' : c ≠ backslash := by
      rintro rfl
      cases cs with
      | nil => exact hlast rfl rfl
      | cons d ds => exact hback d ds rfl rfl
    have hquote' : c ≠ dquote := hquote
    rw [readString.eq_5 c cs hquote hback hlast, Option.map_map, meetsStray, if_neg hquote',
      if_neg hback', ih]
    rfl

/-! ### What a turn does -/

/-- A reader comes to stand at a stray space. -/
def strayFrom (r : Reader) : Bool :=
  meetsStray (.outside r.lineStart) (r.stack.length - 1) r.rest

lemma length_push (x : SExpr) (stack : List (List SExpr)) : (push x stack).length = stack.length := by
  cases stack <;> rfl

lemma closeTop_length {stack stack' : List (List SExpr)} (h : closeTop stack = some stack') :
    stack.length = stack'.length + 1 ∧ stack'.length ≠ 0 := by
  match stack, h with
  | top :: below :: rest, h =>
    cases h
    exact ⟨rfl, Nat.succ_ne_zero _⟩

lemma closeTop_none {stack : List (List SExpr)} (h : closeTop stack = none) : stack.length ≤ 1 := by
  match stack, h with
  | [], _ => exact Nat.zero_le 1
  | [top], _ => exact Nat.le_refl 1

/-- The cases of a turn: the loop ends, or it takes something away, or it stays at a stray space. -/
inductive Outcome (r : Reader) : Prop where
  | ends (result : Except ParseError (List SExpr)) (hturn : turn r = .ends result)
      (hstray : strayFrom r = false)
  | advances (r' : Reader) (hturn : turn r = .next r') (hshort : r'.rest.length < r.rest.length)
      (hstack : r'.stack.length ≠ 0) (hstray : strayFrom r' = strayFrom r)
  | stays (stack : List (List SExpr)) (hturn : turn r = .next { r with stack := stack })
      (hstack : stack.length = r.stack.length) (hstray : strayFrom r = true)

lemma outcome (r : Reader) (hstack : r.stack.length ≠ 0) : Outcome r := by
  obtain ⟨b, rest, stack⟩ := r
  simp only at hstack
  cases rest with
  | nil => exact .ends (finish stack) rfl rfl
  | cons c cs =>
    by_cases hopen : c = '('
    · subst hopen
      refine .advances ⟨false, cs, [] :: stack⟩ rfl (Nat.lt_succ_self _) (Nat.succ_ne_zero _) ?_
      have hdepth : ([] :: stack).length - 1 = stack.length - 1 + 1 := by
        rw [List.length_cons]
        omega
      rw [strayFrom, hdepth]
      rfl
    by_cases hclose : c = ')'
    · subst hclose
      cases htop : closeTop stack with
      | none =>
        have hone : stack.length - 1 = 0 := by
          have hle := closeTop_none htop
          omega
        refine .ends (.error .unbalanced) ?_ ?_
        · simp [turn, htop]
        · simp [strayFrom, meetsStray, hone]
      | some stack' =>
        obtain ⟨hlength, hne⟩ := closeTop_length htop
        have hdepth : stack.length - 1 ≠ 0 ∧ stack.length - 1 - 1 = stack'.length - 1 := by omega
        refine .advances ⟨false, cs, stack'⟩ ?_ (Nat.lt_succ_self _) hne ?_
        · simp [turn, htop]
        · simp [strayFrom, meetsStray, hdepth]
    by_cases hquote : c = dquote
    · subst hquote
      by_cases hsoon : closesSoon cs = true
      · refine .advances ⟨false, cs, push (.atom "\"") stack⟩ ?_ (Nat.lt_succ_self _) ?_ ?_
        · simp [turn, hopen, hclose, hsoon]
        · rw [length_push]
          exact hstack
        · simp [strayFrom, meetsStray, hopen, hclose, hsoon, length_push]
      · have hscan : strayFrom ⟨b, dquote :: cs, stack⟩ =
            meetsStray .quoted (stack.length - 1) cs := by
          simp [strayFrom, meetsStray, hopen, hclose, hsoon]
        cases hread : readString cs with
        | none =>
          refine .ends (.error .unterminated) ?_ ?_
          · simp [turn, hopen, hclose, hsoon, hread]
          · rw [hscan, meetsStray_string, hread]
            rfl
        | some s =>
          have hshort : s.2.length < cs.length := readString_length hread
          refine .advances ⟨false, s.2, push (.atom (String.ofList s.1)) stack⟩ ?_ ?_ ?_ ?_
          · simp [turn, hopen, hclose, hsoon, hread]
          · exact Nat.lt_succ_of_lt hshort
          · rw [length_push]
            exact hstack
          · rw [hscan, meetsStray_string, hread, strayFrom, length_push]
            rfl
    by_cases hhash : c = '#' ∧ b = true
    · obtain ⟨rfl, rfl⟩ := hhash
      refine .advances ⟨false, cs.dropWhile (· ≠ '\n'), stack⟩ rfl ?_ hstack ?_
      · exact Nat.lt_succ_of_le (List.dropWhile_sublist _).length_le
      · rw [strayFrom, meetsStray_dropComment]
        rfl
    by_cases hblank : isBlank c = true
    · refine .advances ⟨c = '\n', cs, stack⟩ ?_ (Nat.lt_succ_self _) hstack ?_
      · simp [turn, hopen, hclose, hquote, hhash, hblank]
      · simp [strayFrom, meetsStray, hopen, hclose, hquote, hhash, hblank]
    by_cases hbare : isBare c = true
    · refine .advances ⟨false, cs.dropWhile isBare,
        push (.atom (String.ofList (c :: cs.takeWhile isBare))) stack⟩ ?_ ?_ ?_ ?_
      · simp [turn, hopen, hclose, hquote, hhash, hblank, hbare]
      · exact Nat.lt_succ_of_le (List.dropWhile_sublist _).length_le
      · rw [length_push]
        exact hstack
      · rw [strayFrom, meetsStray_dropBare, length_push]
        simp [strayFrom, meetsStray, hopen, hclose, hquote, hhash, hblank, hbare]
    · refine .stays (push (.atom "") stack) ?_ (length_push _ _) ?_
      · simp [turn, hopen, hclose, hquote, hhash, hblank, hbare]
      · simp [strayFrom, meetsStray, hopen, hclose, hquote, hhash, hblank, hbare]

/-! ### Runs -/

lemma loop_of_ends {r : Reader} {result : Except ParseError (List SExpr)} {n : ℕ}
    (h : turn r = .ends result) : loop (n + 1) r = some result := by
  rw [loop, h]

lemma loop_of_next {r r' : Reader} {n : ℕ} (h : turn r = .next r') :
    loop (n + 1) r = loop n r' := by
  rw [loop, h]

lemma ends_of_clear {r : Reader} (hstack : r.stack.length ≠ 0) (h : strayFrom r = false) :
    ∃ n result, loop n r = some result := by
  induction hlength : r.rest.length using Nat.strongRecOn generalizing r with
  | _ length ih =>
    rcases outcome r hstack with ⟨result, hturn, -⟩ | ⟨r', hturn, hshort, hstack', hstray⟩ |
      ⟨-, -, -, hstray⟩
    · exact ⟨1, result, loop_of_ends hturn⟩
    · obtain ⟨n, result, hloop⟩ := ih _ (hlength ▸ hshort) hstack' (hstray.trans h) rfl
      exact ⟨n + 1, result, (loop_of_next hturn).trans hloop⟩
    · rw [h] at hstray
      cases hstray

lemma never_of_stray {r : Reader} (hstack : r.stack.length ≠ 0) (h : strayFrom r = true) (n : ℕ) :
    loop n r = none := by
  induction n generalizing r with
  | zero => rfl
  | succ n ih =>
    rcases outcome r hstack with ⟨result, -, hstray⟩ | ⟨r', hturn, -, hstack', hstray⟩ |
      ⟨stack, hturn, hlength, -⟩
    · rw [h] at hstray
      cases hstray
    · rw [loop_of_next hturn]
      exact ih hstack' (hstray.trans h)
    · rw [loop_of_next hturn]
      refine ih (hlength ▸ hstack) ?_
      have hsame : strayFrom { r with stack := stack } = strayFrom r := by
        rw [strayFrom, strayFrom, hlength]
      exact hsame.trans h

lemma clear_of_reached {r r' : Reader} (hreach : Relation.ReflTransGen Next r r')
    (hstack : r.stack.length ≠ 0) (h : strayFrom r = false) :
    r'.stack.length ≠ 0 ∧ strayFrom r' = false := by
  induction hreach with
  | refl => exact ⟨hstack, h⟩
  | tail _ hnext ih =>
    obtain ⟨hstack, h⟩ := ih
    have hnext : turn _ = .next _ := hnext
    rcases outcome _ hstack with ⟨result, hturn, -⟩ | ⟨r', hturn, -, hstack', hstray⟩ |
      ⟨-, -, -, hstray⟩
    · rw [hturn] at hnext
      cases hnext
    · rw [hturn] at hnext
      cases hnext
      exact ⟨hstack', hstray.trans h⟩
    · rw [h] at hstray
      cases hstray

lemma advances_of_clear {r : Reader} (hstack : r.stack.length ≠ 0) (h : strayFrom r = false) :
    Advances r := by
  intro r' hnext
  have hnext : turn r = .next r' := hnext
  rcases outcome r hstack with ⟨result, hturn, -⟩ | ⟨s, hturn, hshort, -, -⟩ | ⟨-, -, -, hstray⟩
  · rw [hturn] at hnext
    cases hnext
  · rw [hturn] at hnext
    cases hnext
    exact hshort
  · rw [h] at hstray
    cases hstray

/-- **The loop ends exactly** on the texts without a stray space where a token could begin. -/
theorem terminates_iff (text : String) : Terminates text ↔ hasStray text = false := by
  have hstack : (start text).stack.length ≠ 0 := Nat.succ_ne_zero 0
  refine ⟨fun ⟨_, n, result, hloop⟩ => Bool.eq_false_iff.mpr fun hstray => ?_, fun h => ⟨?_, ?_⟩⟩
  · rw [never_of_stray hstack hstray n] at hloop
    cases hloop
  · intro r hreach
    obtain ⟨hstack', hclear⟩ := clear_of_reached hreach hstack h
    exact advances_of_clear hstack' hclear
  · exact ends_of_clear hstack h

/-- **A form feed** after the text keeps the loop turning. -/
theorem not_terminates : ¬ Terminates "(session)\x0c" := by
  have hstray : strayFrom (start "(session)\x0c") = true := by decide
  rintro ⟨-, n, result, hloop⟩
  have hstack : (start "(session)\x0c").stack.length ≠ 0 := Nat.succ_ne_zero 0
  rw [never_of_stray hstack hstray n] at hloop
  cases hloop

/-! ### The reader of texts -/

end FabPcb.SExprLoop
