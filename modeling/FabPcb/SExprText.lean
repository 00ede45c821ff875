import Mathlib.Data.List.Basic

/-!
The s-expressions of Specctra files: `parseSExpr` and the session filter's `emit`.

`parseLoop` is one turn of the source's loop for each unit of fuel. `lineStart` says whether the
character before is a line break or missing, and the stack has the lists that are still open, the
innermost first. A character that is a space but none of those that the loop skips makes the source
push empty tokens without end.
-/

namespace FabPcb.SExprText

inductive SExpr where
  | atom (text : String)
  | list (items : List SExpr)

def dquote : Char := '\x22'

def backslash : Char := '\x5c'

/-- `\s` of the source's patterns. -/
def isSpace (c : Char) : Bool :=
  c.toNat ∈ [9, 10, 11, 12, 13, 32, 0xa0, 0x1680, 0x2028, 0x2029, 0x202f, 0x205f, 0x3000, 0xfeff] ||
    (0x2000 ≤ c.toNat && c.toNat ≤ 0x200a)

/-! ### `parseSExpr` -/

inductive ParseError where
  | unbalanced
  | unterminated
  | missingClose
  | endless

/-- A character that does not end a token. -/
def isBare (c : Char) : Bool := !(isSpace c || c = '(' || c = ')' || c = dquote)

/-- A closing parenthesis is near: the quotation mark before it is a token of its own. -/
def closesSoon (cs : List Char) : Bool := ((cs.take 3).dropWhile isSpace).head? = some ')'

/-- The text of a string up to its quotation mark, and what follows. -/
def readString : List Char → Option (List Char × List Char)
  | [] => none
  | '\x22' :: cs => some ([], cs)
  | '\x5c' :: c :: cs => (readString cs).map fun r => (c :: r.1, r.2)
  | ['\x5c'] => none
  | c :: cs => (readString cs).map fun r => (c :: r.1, r.2)

def push (x : SExpr) : List (List SExpr) → List (List SExpr)
  | [] => []
  | top :: below => (top ++ [x]) :: below

/-- The innermost list is complete. -/
def closeTop : List (List SExpr) → Option (List (List SExpr))
  | top :: below :: rest => some ((below ++ [.list top]) :: rest)
  | _ => none

def finish : List (List SExpr) → Except ParseError (List SExpr)
  | [root] => .ok root
  | _ => .error .missingClose

def parseLoop : ℕ → Bool → List Char → List (List SExpr) → Except ParseError (List SExpr)
  | 0, _, _, _ => .error .endless
  | _ + 1, _, [], stack => finish stack
  | n + 1, lineStart, c :: cs, stack =>
    if c = '(' then parseLoop n false cs ([] :: stack)
    else if c = ')' then
      match closeTop stack with
      | none => .error .unbalanced
      | some stack => parseLoop n false cs stack
    else if c = dquote then
      if closesSoon cs then parseLoop n false cs (push (.atom "\"") stack)
      else
        match readString cs with
        | none => .error .unterminated
        | some r => parseLoop n false r.2 (push (.atom (String.ofList r.1)) stack)
    else if c = '#' ∧ lineStart = true then parseLoop n false (cs.dropWhile (· ≠ '\n')) stack
    else if c = ' ' ∨ c = '\t' ∨ c = '\n' ∨ c = '\r' then parseLoop n (c = '\n') cs stack
    else if isBare c then
      parseLoop n false (cs.dropWhile isBare)
        (push (.atom (String.ofList (c :: cs.takeWhile isBare))) stack)
    else .error .endless

def parseSExpr (text : String) : Except ParseError (List SExpr) :=
  parseLoop (text.toList.length + 1) true text.toList [[]]

/-! ### Writing -/

def hexDigit (n : ℕ) : Char := if n < 10 then Char.ofNat (48 + n) else Char.ofNat (87 + n)

/-- A character in a JSON string. -/
def jsonChar (c : Char) : List Char :=
  if c = dquote then [backslash, dquote]
  else if c = backslash then [backslash, backslash]
  else if c = '\x08' then [backslash, 'b']
  else if c = '\x0c' then [backslash, 'f']
  else if c = '\n' then [backslash, 'n']
  else if c = '\r' then [backslash, 'r']
  else if c = '\t' then [backslash, 't']
  else if c.toNat < 32 then
    [backslash, 'u', '0', '0', hexDigit (c.toNat / 16), hexDigit (c.toNat % 16)]
  else [c]

/-- `JSON.stringify` of a string. -/
def jsonText (s : List Char) : List Char := dquote :: (s.flatMap jsonChar ++ [dquote])

def jsonString (s : String) : String := String.ofList (jsonText s.toList)

/-- A token that `emit` does not quote. -/
def isPlain (s : List Char) : Bool := !s.isEmpty && s.all fun c => isBare c && c ≠ backslash

mutual

def emit : SExpr → List Char
  | .atom s => if isPlain s.toList then s.toList else jsonText s.toList
  | .list items => '(' :: (emitItems items ++ [')'])

def emitItems : List SExpr → List Char
  | [] => []
  | x :: xs => emit x ++ emitRest xs

/-- Each further item with the space before it. -/
def emitRest : List SExpr → List Char
  | [] => []
  | x :: xs => ' ' :: (emit x ++ emitRest xs)

end

/-- Each form on a line of its own. -/
def emitLines (trees : List SExpr) : List Char :=
  List.intercalate ['\n'] (trees.map emit) ++ ['\n']

/-! ### Forms -/

def SExpr.items? : SExpr → Option (List SExpr)
  | .atom _ => none
  | .list items => some items

def SExpr.text? : SExpr → Option String
  | .atom s => some s
  | .list _ => none

/-- A list that is headed by a name. -/
def SExpr.headed (name : String) : SExpr → Bool
  | .list (.atom s :: _) => s = name
  | _ => false

/-- The items of a list that is headed by a name. -/
def SExpr.form? (name : String) (x : SExpr) : Option (List SExpr) :=
  if x.headed name then x.items? else none

def children (list : List SExpr) (name : String) : List (List SExpr) :=
  list.filterMap (·.form? name)

def child (list : List SExpr) (name : String) : Option (List SExpr) := list.findSome? (·.form? name)

/-- The strings of a list, without its head. -/
def atoms (list : List SExpr) : List String := list.tail.filterMap (·.text?)

end FabPcb.SExprText
