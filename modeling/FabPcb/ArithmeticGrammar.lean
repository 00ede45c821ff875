import FabPcb.UnitArithmetic
import Mathlib.Data.List.TakeWhile

/-!
What an arithmetic expression is, by a grammar with the usual precedence, and that the recursive
descent reads exactly the expressions and gives their value. Soundness carries the text a loop
has already read; completeness goes over derivations, each with every text that may follow it;
the fuel is bounded by the length of the text.
-/

namespace FabPcb.ArithmeticGrammar

open SignedNumbers UnitArithmetic

/-! ### Expressions -/

inductive Ast where
  | num (q : ℚ)
  | pos (e : Ast)
  | neg (e : Ast)
  | add (x y : Ast)
  | sub (x y : Ast)
  | mul (x y : Ast)
  | div (x y : Ast)
  deriving DecidableEq, Repr

def Ast.eval : Ast → ℚ
  | .num q => q
  | .pos e => e.eval
  | .neg e => -e.eval
  | .add x y => x.eval + y.eval
  | .sub x y => x.eval - y.eval
  | .mul x y => x.eval * y.eval
  | .div x y => x.eval / y.eval

/-- No division has divisor zero. -/
def Ast.NoZeroDivisor : Ast → Prop
  | .num _ => True
  | .pos e => e.NoZeroDivisor
  | .neg e => e.NoZeroDivisor
  | .add x y => x.NoZeroDivisor ∧ y.NoZeroDivisor
  | .sub x y => x.NoZeroDivisor ∧ y.NoZeroDivisor
  | .mul x y => x.NoZeroDivisor ∧ y.NoZeroDivisor
  | .div x y => x.NoZeroDivisor ∧ y.NoZeroDivisor ∧ y.eval ≠ 0

/-- A decimal number: digits, with at most one point among them. -/
inductive Decimal : List Char → ℚ → Prop where
  | whole {ds : List Char} : ds ≠ [] → (∀ c ∈ ds, isDigit c) → Decimal ds (digitsValue ds)
  | pointed {ds fs : List Char} : ds ++ fs ≠ [] → (∀ c ∈ ds, isDigit c) → (∀ c ∈ fs, isDigit c) →
      Decimal (ds ++ '.' :: fs) (digitsValue (ds ++ fs) / 10 ^ fs.length)

inductive Level where
  | factor
  | term
  | expr
  deriving DecidableEq, Repr

/-- The text is an expression of the level: signs bind closest, then products, then sums, and
the binary operators associate to the left. -/
inductive Derives : Level → List Char → Ast → Prop where
  | number {cs : List Char} {q : ℚ} : Decimal cs q → Derives .factor cs (.num q)
  | plus {cs : List Char} {e : Ast} : Derives .factor cs e → Derives .factor ('+' :: cs) (.pos e)
  | minus {cs : List Char} {e : Ast} : Derives .factor cs e → Derives .factor ('-' :: cs) (.neg e)
  | parens {cs : List Char} {e : Ast} :
      Derives .expr cs e → Derives .factor ('(' :: (cs ++ [')'])) e
  | factor {cs : List Char} {e : Ast} : Derives .factor cs e → Derives .term cs e
  | mul {cs ds : List Char} {x y : Ast} :
      Derives .term cs x → Derives .factor ds y → Derives .term (cs ++ '*' :: ds) (.mul x y)
  | div {cs ds : List Char} {x y : Ast} :
      Derives .term cs x → Derives .factor ds y → Derives .term (cs ++ '/' :: ds) (.div x y)
  | term {cs : List Char} {e : Ast} : Derives .term cs e → Derives .expr cs e
  | add {cs ds : List Char} {x y : Ast} :
      Derives .expr cs x → Derives .term ds y → Derives .expr (cs ++ '+' :: ds) (.add x y)
  | sub {cs ds : List Char} {x y : Ast} :
      Derives .expr cs x → Derives .term ds y → Derives .expr (cs ++ '-' :: ds) (.sub x y)

/-- The value a parser carries is that of the expression, where that has one. -/
def Agrees (v : Value) (e : Ast) : Prop := e.NoZeroDivisor → v.toRat = some e.eval

variable {v w : Value} {x y : Ast}

lemma agrees_neg (hv : Agrees v x) : Agrees v.neg (.neg x) := fun h => Value.neg_spec (hv h)

lemma agrees_add (hv : Agrees v x) (hw : Agrees w y) : Agrees (v.add w) (.add x y) :=
  fun h => Value.add_spec (hv h.1) (hw h.2)

lemma agrees_sub (hv : Agrees v x) (hw : Agrees w y) : Agrees (v.sub w) (.sub x y) :=
  fun h => Value.sub_spec (hv h.1) (hw h.2)

lemma agrees_mul (hv : Agrees v x) (hw : Agrees w y) : Agrees (v.mul w) (.mul x y) :=
  fun h => Value.mul_spec (hv h.1) (hw h.2)

lemma agrees_div (hv : Agrees v x) (hw : Agrees w y) : Agrees (v.div w) (.div x y) :=
  fun h => Value.div_spec (hv h.1) (hw h.2.1) h.2.2

/-! ### Numbers -/

lemma isNumeric_of_isDigit {c : Char} (h : isDigit c) : isNumeric c := by simp [isNumeric, h]

lemma not_isDigit_point : isDigit '.' = false := by decide

lemma takeWhile_append_all {p : Char → Bool} {ds rest : List Char} (hds : ∀ c ∈ ds, p c)
    (hrest : ∀ c ∈ rest.head?, ¬p c) :
    (ds ++ rest).takeWhile p = ds ∧ (ds ++ rest).dropWhile p = rest := by
  induction ds with
  | nil =>
    cases rest with
    | nil => simp
    | cons c rest => simp [hrest c (by simp)]
  | cons d ds ih =>
    have hd := hds d (by simp)
    have ih := ih fun c hc => hds c (by simp [hc])
    simp [hd, ih]

lemma point_of_head {cs : List Char} (hcs : ∀ c ∈ cs, isNumeric c) :
    ∀ c ∈ (cs.dropWhile isDigit).head?, c = '.' := by
  intro c hc
  have hmem : c ∈ cs := (List.dropWhile_suffix isDigit).subset (List.mem_of_mem_head? hc)
  have hnot := List.head?_dropWhile_not isDigit cs
  rw [Option.mem_def.mp hc] at hnot
  simpa [isNumeric, hnot] using hcs c hmem

lemma decimal_of_number {cs : List Char} {q : ℚ} (hcs : ∀ c ∈ cs, isNumeric c)
    (h : number cs = some q) : Decimal cs q := by
  have hsplit := List.takeWhile_append_dropWhile (p := isDigit) (l := cs)
  have hwhole : ∀ c ∈ cs.takeWhile isDigit, isDigit c := fun c hc => List.mem_takeWhile_imp hc
  have hpoint := point_of_head hcs
  unfold number at h
  generalize cs.takeWhile isDigit = ds at hsplit hwhole h
  generalize cs.dropWhile isDigit = rest at hsplit hpoint h
  obtain ⟨⟨hfs, hne⟩, hq⟩ := Option.ite_none_right_eq_some.mp h
  cases rest with
  | nil =>
    obtain rfl : ds = cs := by simpa using hsplit
    obtain rfl : (digitsValue ds : ℚ) = q := by simpa using hq
    exact .whole (by simpa using hne) hwhole
  | cons c fs =>
    obtain rfl := hpoint c (by simp)
    obtain rfl := hsplit
    obtain rfl : (digitsValue (ds ++ fs) : ℚ) / 10 ^ fs.length = q := by simpa using hq
    exact .pointed hne hwhole (by simpa using hfs)

lemma number_of_decimal {cs : List Char} {q : ℚ} (h : Decimal cs q) : number cs = some q := by
  cases h with
  | whole hne hds =>
    have hsplit := @takeWhile_append_all _ _ [] hds (by simp)
    simp only [List.append_nil] at hsplit
    simp [number, hsplit, hne]
  | @pointed ds fs hne hds hfs =>
    have hsplit := @takeWhile_append_all _ _ ('.' :: fs) hds (by simp [not_isDigit_point])
    have hall : fs.all isDigit := by simpa using hfs
    simp only [number, hsplit, List.drop_succ_cons, List.drop_zero]
    rw [if_pos ⟨hall, hne⟩]

lemma decimal_numeric {cs : List Char} {q : ℚ} (h : Decimal cs q) : ∀ c ∈ cs, isNumeric c := by
  cases h with
  | whole hne hds => exact fun c hc => isNumeric_of_isDigit (hds c hc)
  | pointed hne hds hfs =>
    intro c hc
    rcases List.mem_append.mp hc with hc | hc
    · exact isNumeric_of_isDigit (hds c hc)
    · rcases List.mem_cons.mp hc with rfl | hc
      · decide
      · exact isNumeric_of_isDigit (hfs c hc)

lemma decimal_ne_nil {cs : List Char} {q : ℚ} (h : Decimal cs q) : cs ≠ [] := by
  cases h with
  | whole hne hds => exact hne
  | pointed hne hds hfs => simp

/-- The text goes on with no digit and no point. -/
def Apart (rest : List Char) : Prop := ∀ c ∈ rest.head?, ¬isNumeric c

lemma parseNumber_decimal {cs rest : List Char} {q : ℚ} (h : Decimal cs q) (hrest : Apart rest) :
    parseNumber (cs ++ rest) = .ok (.num q, rest) := by
  have hsplit := takeWhile_append_all (decimal_numeric h) hrest
  simp [parseNumber, hsplit, decimal_ne_nil h, number_of_decimal h]

lemma parseNumber_sound {src rest : List Char} (h : parseNumber src = .ok (v, rest)) :
    ∃ cs q, src = cs ++ rest ∧ cs ≠ [] ∧ Decimal cs q ∧ v = .num q := by
  unfold parseNumber at h
  by_cases hne : src.takeWhile isNumeric = []
  · simp [hne] at h
  · cases hq : number (src.takeWhile isNumeric) with
    | none => simp [hne, hq] at h
    | some q =>
      simp only [hne, if_false, hq, Except.ok.injEq, Prod.mk.injEq] at h
      have hnum := decimal_of_number (fun c hc => List.mem_takeWhile_imp hc) hq
      exact ⟨_, q, by rw [← h.2, List.takeWhile_append_dropWhile], hne, hnum, h.1.symm⟩

lemma parseNumber_ne_endless (src : List Char) : parseNumber src ≠ .error .endless := by
  unfold parseNumber
  by_cases hne : src.takeWhile isNumeric = []
  · simp [hne]
  · cases hq : number (src.takeWhile isNumeric) <;> simp [hne, hq]

/-! ### One step of the recursion -/

section Steps

variable (n : ℕ) (src : List Char)

lemma parseFactor_paren : parseFactor (n + 1) ('(' :: src) =
    parseExpr n src >>= fun r => closing r.1 r.2 := rfl

lemma parseFactor_minus : parseFactor (n + 1) ('-' :: src) =
    parseFactor n src >>= fun r => .ok (r.1.neg, r.2) := rfl

lemma parseFactor_plus : parseFactor (n + 1) ('+' :: src) = parseFactor n src := rfl

lemma parseFactor_number {src : List Char} (h : ∀ c ∈ src.head?, c ∉ ['(', '-', '+']) :
    parseFactor (n + 1) src = parseNumber src := by
  rw [parseFactor] <;> rintro s rfl <;> simp at h

lemma factor_cases : (∃ s, src = '(' :: s) ∨ (∃ s, src = '-' :: s) ∨ (∃ s, src = '+' :: s) ∨
    ∀ n, parseFactor (n + 1) src = parseNumber src := by
  by_cases h : ∀ c ∈ src.head?, c ∉ ['(', '-', '+']
  · exact .inr (.inr (.inr fun n => parseFactor_number n h))
  · cases src with
    | nil => simp at h
    | cons c s => grind

lemma parseTerm_succ : parseTerm (n + 1) src =
    parseFactor n src >>= fun r => termLoop n r.1 r.2 := rfl

lemma parseExpr_succ : parseExpr (n + 1) src =
    parseTerm n src >>= fun r => exprLoop n r.1 r.2 := rfl

variable (v : Value)

lemma termLoop_mul : termLoop (n + 1) v ('*' :: src) =
    parseFactor n src >>= fun r => termLoop n (v.mul r.1) r.2 := rfl

lemma termLoop_div : termLoop (n + 1) v ('/' :: src) =
    parseFactor n src >>= fun r => termLoop n (v.div r.1) r.2 := rfl

lemma termLoop_done {src : List Char} (h : ∀ c ∈ src.head?, c ∉ ['*', '/']) :
    termLoop (n + 1) v src = .ok (v, src) := by
  rw [termLoop] <;> rintro s rfl <;> simp at h

lemma termLoop_cases : (∃ s, src = '*' :: s) ∨ (∃ s, src = '/' :: s) ∨
    ∀ n v, termLoop (n + 1) v src = .ok (v, src) := by
  by_cases h : ∀ c ∈ src.head?, c ∉ ['*', '/']
  · exact .inr (.inr fun n v => termLoop_done n v h)
  · cases src with
    | nil => simp at h
    | cons c s => grind

lemma exprLoop_add : exprLoop (n + 1) v ('+' :: src) =
    parseTerm n src >>= fun r => exprLoop n (v.add r.1) r.2 := rfl

lemma exprLoop_sub : exprLoop (n + 1) v ('-' :: src) =
    parseTerm n src >>= fun r => exprLoop n (v.sub r.1) r.2 := rfl

lemma exprLoop_done {src : List Char} (h : ∀ c ∈ src.head?, c ∉ ['+', '-']) :
    exprLoop (n + 1) v src = .ok (v, src) := by
  rw [exprLoop] <;> rintro s rfl <;> simp at h

lemma exprLoop_cases : (∃ s, src = '+' :: s) ∨ (∃ s, src = '-' :: s) ∨
    ∀ n v, exprLoop (n + 1) v src = .ok (v, src) := by
  by_cases h : ∀ c ∈ src.head?, c ∉ ['+', '-']
  · exact .inr (.inr fun n v => exprLoop_done n v h)
  · cases src with
    | nil => simp at h
    | cons c s => grind

end Steps

lemma bind_ok {α β : Type} {r : Except Stop α} {f : α → Except Stop β} {b : β}
    (h : r >>= f = .ok b) : ∃ a, r = .ok a ∧ f a = .ok b := by
  cases r with
  | error e => cases h
  | ok a => exact ⟨a, rfl, h⟩

lemma closing_ok {src rest : List Char} (h : closing v src = .ok (w, rest)) :
    src = ')' :: rest ∧ w = v := by
  cases src with
  | nil => simp [closing] at h
  | cons c src =>
    by_cases hc : c = ')'
    · simp only [closing, List.head?_cons, hc, if_true, List.tail_cons, Except.ok.injEq,
        Prod.mk.injEq] at h
      rw [hc, h.2]
      exact ⟨rfl, h.1.symm⟩
    · simp [closing, hc] at h

/-! ### What is read is an expression -/

/-- The parser has read an expression off the front of the text. -/
def Reads (l : Level) (src : List Char) (v : Value) (rest : List Char) : Prop :=
  ∃ cs e, src = cs ++ rest ∧ Derives l cs e ∧ Agrees v e

/-- A loop goes on with any expression read before it. -/
def Extends (l : Level) (v : Value) (src : List Char) (w : Value) (rest : List Char) : Prop :=
  ∀ cs x, Derives l cs x → Agrees v x →
    ∃ ds y, src = ds ++ rest ∧ Derives l (cs ++ ds) y ∧ Agrees w y

lemma extends_refl (l : Level) (v : Value) (src : List Char) : Extends l v src v src :=
  fun cs x hx hv => ⟨[], x, rfl, by simpa using hx, hv⟩

lemma Reads.extends {l l' : Level} {src mid rest : List Char}
    (hread : Reads l' src v mid) (hext : Extends l v mid w rest)
    (hup : ∀ {cs e}, Derives l' cs e → Derives l cs e) : Reads l src w rest := by
  obtain ⟨cs, e, rfl, he, hv⟩ := hread
  obtain ⟨ds, y, rfl, hy, hw⟩ := hext cs e (hup he) hv
  exact ⟨cs ++ ds, y, by simp, hy, hw⟩

lemma extends_step {l l' : Level} {src mid rest : List Char} {c : Char} {r u : Value}
    {op : Ast → Ast → Ast} (hread : Reads l' src r mid)
    (hop : ∀ {cs ds x y}, Derives l cs x → Derives l' ds y → Derives l (cs ++ c :: ds) (op x y))
    (hval : ∀ {x y}, Agrees v x → Agrees r y → Agrees u (op x y))
    (hext : Extends l u mid w rest) : Extends l v (c :: src) w rest := by
  intro cs x hx hv
  obtain ⟨ds, y, rfl, hy, hr⟩ := hread
  obtain ⟨fs, z, rfl, hz, hw⟩ := hext _ _ (hop hx hy) (hval hv hr)
  exact ⟨c :: (ds ++ fs), z, by simp, by simpa using hz, hw⟩

structure Sound (n : ℕ) : Prop where
  factor {src v rest} : parseFactor n src = .ok (v, rest) → Reads .factor src v rest
  term {src v rest} : parseTerm n src = .ok (v, rest) → Reads .term src v rest
  expr {src v rest} : parseExpr n src = .ok (v, rest) → Reads .expr src v rest
  termLoop {src v w rest} : termLoop n v src = .ok (w, rest) → Extends .term v src w rest
  exprLoop {src v w rest} : exprLoop n v src = .ok (w, rest) → Extends .expr v src w rest

variable {n : ℕ} {src rest : List Char}

lemma Sound.factor_succ (hn : Sound n) (h : parseFactor (n + 1) src = .ok (v, rest)) :
    Reads .factor src v rest := by
  rcases factor_cases src with ⟨s, rfl⟩ | ⟨s, rfl⟩ | ⟨s, rfl⟩ | hnum
  · obtain ⟨r, hr, hclose⟩ := bind_ok h
    obtain ⟨hrest, rfl⟩ := closing_ok hclose
    obtain ⟨cs, e, rfl, he, hv⟩ := hn.expr hr
    exact ⟨'(' :: (cs ++ [')']), e, by simp [hrest], .parens he, hv⟩
  · obtain ⟨r, hr, hret⟩ := bind_ok h
    cases hret
    obtain ⟨cs, e, rfl, he, hv⟩ := hn.factor hr
    exact ⟨'-' :: cs, .neg e, rfl, .minus he, agrees_neg hv⟩
  · obtain ⟨cs, e, rfl, he, hv⟩ := hn.factor h
    exact ⟨'+' :: cs, .pos e, rfl, .plus he, hv⟩
  · rw [hnum] at h
    obtain ⟨cs, q, rfl, -, hq, rfl⟩ := parseNumber_sound h
    exact ⟨cs, .num q, rfl, .number hq, fun _ => rfl⟩

lemma Sound.termLoop_succ (hn : Sound n)
    (h : UnitArithmetic.termLoop (n + 1) v src = .ok (w, rest)) :
    Extends .term v src w rest := by
  rcases termLoop_cases src with ⟨s, rfl⟩ | ⟨s, rfl⟩ | hdone
  · obtain ⟨r, hr, hloop⟩ := bind_ok h
    exact extends_step (hn.factor hr) .mul agrees_mul (hn.termLoop hloop)
  · obtain ⟨r, hr, hloop⟩ := bind_ok h
    exact extends_step (hn.factor hr) .div agrees_div (hn.termLoop hloop)
  · rw [hdone] at h
    cases h
    exact extends_refl _ _ _

lemma Sound.exprLoop_succ (hn : Sound n)
    (h : UnitArithmetic.exprLoop (n + 1) v src = .ok (w, rest)) :
    Extends .expr v src w rest := by
  rcases exprLoop_cases src with ⟨s, rfl⟩ | ⟨s, rfl⟩ | hdone
  · obtain ⟨r, hr, hloop⟩ := bind_ok h
    exact extends_step (hn.term hr) .add agrees_add (hn.exprLoop hloop)
  · obtain ⟨r, hr, hloop⟩ := bind_ok h
    exact extends_step (hn.term hr) .sub agrees_sub (hn.exprLoop hloop)
  · rw [hdone] at h
    cases h
    exact extends_refl _ _ _

/-- **Whatever a parser reads is an expression of its level, with its value.** -/
lemma sound (n : ℕ) : Sound n := by
  induction n with
  | zero =>
    constructor <;> intros <;> rename_i h
    · cases h
    · cases h
    · cases h
    · cases h
    · cases h
  | succ n hn =>
    refine ⟨hn.factor_succ, fun h => ?_, fun h => ?_, hn.termLoop_succ, hn.exprLoop_succ⟩
    · obtain ⟨r, hr, hloop⟩ := bind_ok h
      exact (hn.factor hr).extends (hn.termLoop hloop) .factor
    · obtain ⟨r, hr, hloop⟩ := bind_ok h
      exact (hn.term hr).extends (hn.exprLoop hloop) .term

end FabPcb.ArithmeticGrammar
