import Mathlib.Data.Rat.Defs
import Mathlib.Algebra.Order.Field.Rat
import Mathlib.Tactic.Ring

/-!
Numbers as a script language has them, with exact rationals in place of rounded doubles: zero
has a sign, a division by zero gives an infinity or no number at all. The four operations follow
the tables of the language, and `toRat` reads a finite number.
-/

namespace FabPcb.SignedNumbers

inductive Value where
  | num (q : ℚ)
  | negZero
  | inf (negative : Bool)
  | nan
  deriving DecidableEq, Repr

namespace Value

/-- `Number.isFinite`, with the number when it is. -/
def toRat : Value → Option ℚ
  | .num q => some q
  | .negZero => some 0
  | .inf _ => none
  | .nan => none

/-- The sign bit. -/
def negative : Value → Bool
  | .num q => q < 0
  | .negZero => true
  | .inf b => b
  | .nan => false

/-- A rational that takes the sign bit where it is zero. -/
def ofSigned (q : ℚ) (b : Bool) : Value := if q = 0 ∧ b then .negZero else .num q

def neg : Value → Value
  | .num q => if q = 0 then .negZero else .num (-q)
  | .negZero => .num 0
  | .inf b => .inf !b
  | .nan => .nan

def add : Value → Value → Value
  | .nan, _ => .nan
  | _, .nan => .nan
  | .inf a, .inf b => if a = b then .inf a else .nan
  | .inf a, _ => .inf a
  | _, .inf b => .inf b
  | .negZero, .negZero => .negZero
  | .negZero, .num q => .num q
  | .num p, .negZero => .num p
  | .num p, .num q => .num (p + q)

def sub (a b : Value) : Value := add a b.neg

def mul (a b : Value) : Value :=
  match a, b with
  | .nan, _ => .nan
  | _, .nan => .nan
  | .inf _, _ => if b.toRat = some 0 then .nan else .inf (a.negative ^^ b.negative)
  | _, .inf _ => if a.toRat = some 0 then .nan else .inf (a.negative ^^ b.negative)
  | _, _ => ofSigned (a.toRat.getD 0 * b.toRat.getD 0) (a.negative ^^ b.negative)

def div (a b : Value) : Value :=
  match a, b with
  | .nan, _ => .nan
  | _, .nan => .nan
  | .inf _, .inf _ => .nan
  | .inf _, _ => .inf (a.negative ^^ b.negative)
  | _, .inf _ => ofSigned 0 (a.negative ^^ b.negative)
  | _, _ =>
    if b.toRat = some 0 then
      if a.toRat = some 0 then .nan else .inf (a.negative ^^ b.negative)
    else ofSigned (a.toRat.getD 0 / b.toRat.getD 0) (a.negative ^^ b.negative)

@[simp] lemma toRat_num (q : ℚ) : (num q).toRat = some q := rfl
@[simp] lemma toRat_negZero : negZero.toRat = some 0 := rfl

@[simp] lemma toRat_ofSigned (q : ℚ) (b : Bool) : (ofSigned q b).toRat = some q := by
  unfold ofSigned
  split_ifs with h
  · simp [toRat, h.1]
  · rfl

lemma neg_spec {a : Value} {p : ℚ} (ha : a.toRat = some p) : a.neg.toRat = some (-p) := by
  cases a with
  | num q =>
    cases ha
    by_cases hq : p = 0 <;> simp [neg, toRat, hq]
  | negZero => cases ha; simp [neg, toRat]
  | inf b => cases ha
  | nan => cases ha

variable {a b : Value} {p q : ℚ}

lemma add_spec (ha : a.toRat = some p) (hb : b.toRat = some q) :
    (a.add b).toRat = some (p + q) := by
  cases a <;> cases ha <;> cases b <;> cases hb <;> simp [add]

lemma sub_spec (ha : a.toRat = some p) (hb : b.toRat = some q) :
    (a.sub b).toRat = some (p - q) := by
  rw [sub_eq_add_neg]
  exact add_spec ha (neg_spec hb)

lemma mul_spec (ha : a.toRat = some p) (hb : b.toRat = some q) :
    (a.mul b).toRat = some (p * q) := by
  cases a <;> cases ha <;> cases b <;> cases hb <;> simp [mul]

lemma div_spec (ha : a.toRat = some p) (hb : b.toRat = some q) (hq : q ≠ 0) :
    (a.div b).toRat = some (p / q) := by
  cases a <;> cases ha <;> cases b <;> cases hb <;> simp_all [div]

end Value

end FabPcb.SignedNumbers
