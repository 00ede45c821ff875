import Mathlib.Algebra.Ring.Nat
import Mathlib.Data.List.Basic
import Mathlib.Data.Nat.Log
import FabPcb.TextDecoding

/-!
`requestTypeName`: the walk over the fields of an `ApiRequest` and of its `Any` for the name of the
message inside.

The walk has an index into its bytes and reads a byte at a time. That it comes to an end, and that
no byte is read past the end, is left to be shown: both are outcomes here. Numbers are the doubles
that are not negative.
-/

namespace FabPcb.EnvelopeScan

open TextDecoding (decode)

/-! ### Numbers -/

/-- A double: a whole number, infinity or no number. -/
inductive Number
  | finite (n : ℕ)
  | infinite
  | nan
  deriving DecidableEq

namespace Number

/-- Where the exponents of doubles end. -/
def emax : ℕ := 1024

/-- To 53 bits, ties to even. -/
def round (n : ℕ) : Number :=
  if n < 2 ^ 53 then finite n
  else
    let unit := 2 ^ (Nat.log2 n - 52)
    let q := n / unit
    let r := n % unit
    let rounded := (if 2 * r < unit ∨ 2 * r = unit ∧ q % 2 = 0 then q else q + 1) * unit
    if rounded < 2 ^ emax then finite rounded else infinite

def add : Number → Number → Number
  | finite m, finite n => round (m + n)
  | nan, _ | _, nan => nan
  | infinite, _ | _, infinite => infinite

/-- `d * 2 ** s`, of seven bits. -/
def shifted (d s : ℕ) : Number :=
  if s < emax then (if d * 2 ^ s < 2 ^ emax then finite (d * 2 ^ s) else infinite)
  else if d = 0 then nan
  else infinite

/-- As an unsigned number of 32 bits. -/
def toUint32 : Number → ℕ
  | finite n => n % 2 ^ 32
  | infinite | nan => 0

end Number

/-! ### The walk -/

inductive ScanError
  | truncated
  | unsupported (wire : ℕ)
  /-- A byte is read past the end. -/
  | past
  /-- The walk has not come to its end. -/
  | endless
  deriving DecidableEq

structure Field where
  field : ℕ
  bytes : List UInt8
  deriving DecidableEq

section Walk

variable (buf : List UInt8)

/-- `varint`: the number, and the index behind it. -/
def varint : ℕ → ℕ → Number → ℕ → Except ScanError (Number × ℕ)
  | 0, _, _, _ => .error .endless
  | fuel + 1, i, r, s =>
    if buf.length ≤ i then .error .truncated
    else
      match buf[i]? with
      | none => .error .past
      | some b =>
        let r' := r.add (.shifted (b.toNat % 128) s)
        if b.toNat < 128 then .ok (r', i + 1) else varint fuel (i + 1) r' (s + 7)

def readVarint (i : ℕ) : Except ScanError (Number × ℕ) :=
  varint buf (buf.length + 1) i (.finite 0) 0

/-- `buf.subarray(i, i + len)` -/
def subarray (i : ℕ) : Number → List UInt8
  | .finite n => (buf.drop i).take n
  | .infinite => buf.drop i
  | .nan => []

/-- `i += len`. An index that is infinite or no number is not below the length either. -/
def advance (i : ℕ) : Number → ℕ
  | .finite n => i + n
  | .infinite | .nan => buf.length

def scanFrom : ℕ → ℕ → List Field → Except ScanError (List Field)
  | 0, _, _ => .error .endless
  | fuel + 1, i, out =>
    if buf.length ≤ i then .ok out
    else do
      let (key, i) ← readVarint buf i
      let wire := key.toUint32 % 8
      let field := key.toUint32 / 8
      if wire = 0 then
        let (_, i) ← readVarint buf i
        scanFrom fuel i out
      else if wire = 2 then
        let (len, i) ← readVarint buf i
        scanFrom fuel (advance buf i len) (out ++ [⟨field, subarray buf i len⟩])
      else if wire = 1 then scanFrom fuel (i + 8) out
      else if wire = 5 then scanFrom fuel (i + 4) out
      else .error (.unsupported wire)

def scan : Except ScanError (List Field) := scanFrom buf (buf.length + 1) 0 []

end Walk

/-! ### The name -/

/-- `lastIndexOf`, counted from one: zero when there is none. -/
def lastIndexOf (c : Char) : List Char → ℕ
  | [] => 0
  | x :: cs =>
    match lastIndexOf c cs with
    | 0 => if x = c then 1 else 0
    | n + 1 => n + 2

/-- `url.slice(url.lastIndexOf("/") + 1).split(".").pop()` -/
def bareName (url : List Char) : List Char :=
  let name := url.drop (lastIndexOf '/' url)
  name.drop (lastIndexOf '.' name)

/-- The loops: the first `type_url` of a field that can be the `Any`. -/
def typeUrl : List Field → Except ScanError (Option (List UInt8))
  | [] => .ok none
  | f :: fs =>
    if f.field ≠ 2 then typeUrl fs
    else do
      let fields ← scan f.bytes
      (fields.find? (·.field = 1)).elim (typeUrl fs) fun a => .ok (some a.bytes)

/-- What is in the `try`. -/
def readTypeName (request : List UInt8) : Except ScanError (List Char) := do
  let url ← typeUrl (← scan request)
  return (url.map fun bytes => bareName (decode bytes)).getD []

def requestTypeName (request : List UInt8) : List Char :=
  match readTypeName request with
  | .ok name => name
  | .error _ => []

end FabPcb.EnvelopeScan
