import FabPcb.SExprText
import FabPcb.OrderedMap
import Mathlib.Data.Rat.Floor

/-!
What the Specctra texts of a board share: its layers, nets and copper, numbers and their texts.

Numbers are exact, and `none` is what is not a number. How the runtime reads and prints them is a
`Numerals`. Lengths of the board are in nanometres.
-/

namespace FabPcb.SpecctraData

open OrderedMap SExprText

/-! ### The board, for a router -/

structure Vec2 where
  x : ℚ
  y : ℚ
  deriving DecidableEq

abbrev BoardLayer := ℕ

structure RouteLayer where
  id : BoardLayer
  /-- Of the enumeration. -/
  name : String
  userName : String

structure RouteNet where
  name : String
  code : ℤ

structure RouteTrack where
  net : String
  start : Vec2
  stop : Vec2
  width : ℚ
  layer : BoardLayer
  /-- A chord of an arc. -/
  collisionGeometryUnsupported : Bool := false

structure RouteVia where
  net : String
  position : Vec2
  diameter : ℚ
  drill : ℚ
  layers : List BoardLayer

structure RouteNetRules where
  trackWidth : ℚ
  viaDiameter : ℚ
  viaDrill : ℚ

/-! ### Numbers -/

/-- `Number(text)` and `String(number)`. -/
structure Numerals where
  read : String → Option ℚ
  print : Option ℚ → String
  read_print : ∀ v, read (print v) = v
  plain_print : ∀ v, isPlain (print v).toList = true

def times (a b : Option ℚ) : Option ℚ := a.bind fun p => b.map fun q => p * q

def per (a b : Option ℚ) : Option ℚ := a.bind fun p => b.map fun q => p / q

def roundHalfUp (q : ℚ) : ℚ := (⌊q + 1 / 2⌋ : ℤ)

/-! ### Texts -/

/-- What every object inherits is no number, but stands before the default. -/
def inherited : List String :=
  ["constructor", "hasOwnProperty", "isPrototypeOf", "propertyIsEnumerable", "toLocaleString",
    "toString", "valueOf", "__proto__", "__defineGetter__", "__defineSetter__",
    "__lookupGetter__", "__lookupSetter__"]

mutual

/-- `String(value)`. -/
def toText : SExpr → String
  | .atom s => s
  | .list items => String.intercalate "," (toTexts items)

def toTexts : List SExpr → List String
  | [] => []
  | x :: xs => toText x :: toTexts xs

end

/-- The number that some digits stand for. -/
def numberOfDigits (digits : List Char) : ℕ := Nat.ofDigitChars 10 digits 0

/-! ### Fractions

Numerals of digits, exact for every number. A numeral with a point is none of them.
-/

section Fractions

def readDigits (digits : List Char) : Option ℕ :=
  if digits = [] ∨ digits.all Char.isDigit = false then none else some (numberOfDigits digits)

def readFraction (numeral : List Char) : Option ℚ :=
  match numeral.dropWhile Char.isDigit with
  | [] => (readDigits (numeral.takeWhile Char.isDigit)).map fun p => (p : ℚ)
  | '/' :: denominator => (readDigits (numeral.takeWhile Char.isDigit)).bind fun p =>
    (readDigits denominator).map fun (q : ℕ) => (p : ℚ) / q
  | _ => none

def readRat (numeral : List Char) : Option ℚ :=
  if numeral.head? = some '-' then (readFraction numeral.tail).map fun q => -q
  else readFraction numeral

def printFraction (p q : ℕ) : List Char :=
  Nat.toDigits 10 p ++ if q = 1 then [] else '/' :: Nat.toDigits 10 q

def printRat (q : ℚ) : List Char :=
  if q < 0 then '-' :: printFraction q.num.natAbs q.den else printFraction q.num.natAbs q.den

lemma digits_toDigits {n : ℕ} {c : Char} (hc : c ∈ Nat.toDigits 10 n) : c.isDigit = true :=
  Nat.isDigit_of_mem_toDigits (by decide) (by decide) hc

lemma readDigits_toDigits (n : ℕ) : readDigits (Nat.toDigits 10 n) = some n := by
  have hall : (Nat.toDigits 10 n).all Char.isDigit = true :=
    List.all_eq_true.mpr fun c hc => digits_toDigits hc
  rw [readDigits, if_neg (by simp [hall, Nat.toDigits_ne_nil]), numberOfDigits,
    Nat.ofDigitChars_toDigits (by decide) (by decide)]

lemma readFraction_print (p q : ℕ) : readFraction (printFraction p q) = some ((p : ℚ) / q) := by
  have hdigits : ∀ c ∈ Nat.toDigits 10 p, c.isDigit = true := fun c hc => digits_toDigits hc
  unfold readFraction printFraction
  rw [List.takeWhile_append_of_pos hdigits, List.dropWhile_append_of_pos hdigits]
  by_cases hone : q = 1
  · subst hone
    simp [readDigits_toDigits]
  · rw [if_neg hone]
    simp [readDigits_toDigits, Option.bind_some, Option.map_some]

lemma printFraction_digit (p q : ℕ) :
    ∃ c cs, printFraction p q = c :: cs ∧ c.isDigit = true := by
  cases hdigits : Nat.toDigits 10 p with
  | nil => exact absurd hdigits Nat.toDigits_ne_nil
  | cons c cs =>
    refine ⟨c, cs ++ if q = 1 then [] else '/' :: Nat.toDigits 10 q, ?_,
      digits_toDigits (n := p) (hdigits ▸ List.mem_cons_self)⟩
    rw [printFraction, hdigits, List.cons_append]

lemma readRat_print (q : ℚ) : readRat (printRat q) = some q := by
  have habs : (q.num.natAbs : ℚ) / q.den = |q| := by
    rw [Rat.abs_def, Rat.divInt_eq_div]
    norm_num
  unfold printRat
  split
  next hneg =>
    have hhead : ('-' :: printFraction q.num.natAbs q.den).head? = some '-' := rfl
    rw [readRat, if_pos hhead, List.tail_cons, readFraction_print, habs, Option.map_some,
      abs_of_neg hneg, neg_neg]
  next hpos =>
    obtain ⟨c, cs, hprint, hdigit⟩ := printFraction_digit q.num.natAbs q.den
    have hhead : (printFraction q.num.natAbs q.den).head? ≠ some '-' := by
      intro h
      rw [hprint] at h
      cases h
      exact absurd hdigit (by decide)
    rw [readRat, if_neg hhead, readFraction_print, habs, abs_of_nonneg (not_lt.mp hpos)]

/-- What the characters of a numeral are: none that ends a token. -/
def isNumeral (c : Char) : Bool := c.isDigit || c = '-' || c = '/'

lemma isBare_of_isNumeral {c : Char} (h : isNumeral c = true) :
    (isBare c && c ≠ backslash) = true := by
  have hcode : c.toNat ≤ 57 ∧ 45 ≤ c.toNat := by
    rcases (by simpa [isNumeral] using h : (c.isDigit = true ∨ c = '-') ∨ c = '/') with
      (hdigit | rfl) | rfl
    · obtain ⟨hlow, hhigh⟩ := Char.isDigit_iff_toNat.mp hdigit
      exact ⟨hhigh, Nat.le_trans (by decide) hlow⟩
    · decide
    · decide
  have hnot : ∀ d : Char, 57 < d.toNat ∨ d.toNat < 45 → c ≠ d := by
    rintro d hd rfl
    omega
  have hspace : isSpace c = false := by
    simp only [isSpace, List.mem_cons, List.not_mem_nil, or_false, Bool.or_eq_false_iff,
      decide_eq_false_iff_not, Bool.and_eq_false_iff]
    omega
  simp [isBare, hspace, hnot '(' (by decide), hnot ')' (by decide), hnot dquote (by decide),
    hnot backslash (by decide), decide_false, Bool.not_false, ne_eq,
    not_false_eq_true, decide_true]

lemma isNumeral_toDigits {n : ℕ} {c : Char} (h : c ∈ Nat.toDigits 10 n) : isNumeral c = true := by
  rw [isNumeral, digits_toDigits h, Bool.true_or, Bool.true_or]

lemma isNumeral_print {p q : ℕ} {c : Char} (h : c ∈ printFraction p q) : isNumeral c = true := by
  rcases List.mem_append.mp h with h | h
  · exact isNumeral_toDigits h
  · split at h
    · cases h
    · rcases List.mem_cons.mp h with rfl | h
      · rfl
      · exact isNumeral_toDigits h

lemma plain_printRat (q : ℚ) : isPlain (printRat q) = true := by
  obtain ⟨c, cs, hprint, -⟩ := printFraction_digit q.num.natAbs q.den
  have hall : ∀ d ∈ printRat q, isNumeral d = true := by
    intro d hd
    unfold printRat at hd
    split at hd
    · rcases List.mem_cons.mp hd with rfl | hd
      · rfl
      · exact isNumeral_print hd
    · exact isNumeral_print hd
  have hsome : (!(printRat q).isEmpty) = true := by
    unfold printRat
    split
    · rfl
    · rw [hprint]
      rfl
  rw [isPlain, hsome, Bool.true_and, List.all_eq_true]
  exact fun d hd => isBare_of_isNumeral (hall d hd)

/-- Numerals that are exact for every number. -/
def fractions : Numerals where
  read s := readRat s.toList
  print q := (q.map fun q => String.ofList (printRat q)).getD "NaN"
  read_print v := by
    cases v with
    | none => rfl
    | some q =>
      rw [Option.map_some, Option.getD_some, String.toList_ofList]
      exact readRat_print q
  plain_print v := by
    cases v with
    | none => decide
    | some q =>
      rw [Option.map_some, Option.getD_some, String.toList_ofList]
      exact plain_printRat q

end Fractions

end FabPcb.SpecctraData
