import FabPcb.SignedNumbers

/-!
`evalArithmetic` of the web client's unit fields: a sum typed into a field is read by recursive
descent. The index of the source into the text is here the text still to be read, and the
recursion counts down a fuel that `evalArithmetic` hands out in excess.
-/

namespace FabPcb.UnitArithmetic

open SignedNumbers

/-- Why there is no number: the parser said `null`, or the fuel was spent. -/
inductive Stop where
  | null
  | endless
  deriving DecidableEq, Repr

/-- What `\s` matches. -/
def isSpace (c : Char) : Bool :=
  c ∈ ['\t', '\n', '\x0b', '\x0c', '\r', ' ', '\u00a0', '\u1680', '\u2028', '\u2029', '\u202f',
    '\u205f', '\u3000', '\ufeff'] || ('\u2000' ≤ c && c ≤ '\u200a')

def stripSpace (expr : List Char) : List Char := expr.filter fun c => !isSpace c

def isDigit (c : Char) : Bool := '0' ≤ c && c ≤ '9'

/-- `/[0-9.]/`. -/
def isNumeric (c : Char) : Bool := isDigit c || c = '.'

/-- `/[0-9.+\-*/()]/`. -/
def isAllowed (c : Char) : Bool := isNumeric c || c ∈ ['+', '-', '*', '/', '(', ')']

/-- The digits as a whole number. -/
def digitsValue (digits : List Char) : ℕ :=
  digits.foldl (fun n c => 10 * n + (c.toNat - '0'.toNat)) 0

/-- `Number(text)` of a text of digits and points. -/
def number (text : List Char) : Option ℚ :=
  let whole := text.takeWhile isDigit
  let fraction := (text.dropWhile isDigit).drop 1
  if fraction.all isDigit ∧ whole ++ fraction ≠ [] then
    some (digitsValue (whole ++ fraction) / 10 ^ fraction.length)
  else none

def parseNumber (src : List Char) : Except Stop (Value × List Char) :=
  let slice := src.takeWhile isNumeric
  if slice = [] then .error .null
  else
    match number slice with
    | some n => .ok (.num n, src.dropWhile isNumeric)
    | none => .error .null

/-- `if (next() !== ')') return null`. -/
def closing (v : Value) (src : List Char) : Except Stop (Value × List Char) :=
  if src.head? = some ')' then .ok (v, src.tail) else .error .null

mutual

def parseFactor : ℕ → List Char → Except Stop (Value × List Char)
  | 0, _ => .error .endless
  | fuel + 1, '(' :: src => do
    let r ← parseExpr fuel src
    closing r.1 r.2
  | fuel + 1, '-' :: src => do
    let r ← parseFactor fuel src
    .ok (r.1.neg, r.2)
  | fuel + 1, '+' :: src => parseFactor fuel src
  | _ + 1, src => parseNumber src

def parseTerm : ℕ → List Char → Except Stop (Value × List Char)
  | 0, _ => .error .endless
  | fuel + 1, src => do
    let r ← parseFactor fuel src
    termLoop fuel r.1 r.2

/-- The `while` of `parseTerm`, with its `v`. -/
def termLoop : ℕ → Value → List Char → Except Stop (Value × List Char)
  | 0, _, _ => .error .endless
  | fuel + 1, v, '*' :: src => do
    let r ← parseFactor fuel src
    termLoop fuel (v.mul r.1) r.2
  | fuel + 1, v, '/' :: src => do
    let r ← parseFactor fuel src
    termLoop fuel (v.div r.1) r.2
  | _ + 1, v, src => .ok (v, src)

def parseExpr : ℕ → List Char → Except Stop (Value × List Char)
  | 0, _ => .error .endless
  | fuel + 1, src => do
    let r ← parseTerm fuel src
    exprLoop fuel r.1 r.2

/-- The `while` of `parseExpr`, with its `v`. -/
def exprLoop : ℕ → Value → List Char → Except Stop (Value × List Char)
  | 0, _, _ => .error .endless
  | fuel + 1, v, '+' :: src => do
    let r ← parseTerm fuel src
    exprLoop fuel (v.add r.1) r.2
  | fuel + 1, v, '-' :: src => do
    let r ← parseTerm fuel src
    exprLoop fuel (v.sub r.1) r.2
  | _ + 1, v, src => .ok (v, src)

end

/-- What is left to check of a parse: the whole text is read and the number is finite. -/
def finish (r : Value × List Char) : Except Stop Value :=
  if r.2 ≠ [] ∨ r.1.toRat = none then .error .null else .ok r.1

def evalArithmetic (expr : List Char) : Except Stop Value :=
  let src := stripSpace expr
  if src = [] ∨ ¬src.all isAllowed then .error .null
  else do
    let r ← parseExpr (3 * src.length + 4) src
    finish r

end FabPcb.UnitArithmetic
