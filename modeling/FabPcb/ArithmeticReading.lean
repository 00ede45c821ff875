import FabPcb.ArithmeticGrammar

/-!
The recursive descent reads every expression and always comes to an end: the fuel handed out is
enough for the length of the text, more fuel changes nothing, and a derivation gives the run that
follows it.
-/

namespace FabPcb.ArithmeticReading

open SignedNumbers UnitArithmetic ArithmeticGrammar

variable {v w : Value} {n : ℕ} {src rest : List Char}

/-! ### The fuel is enough -/

lemma bind_ne_endless {α β : Type} {r : Except Stop α} {f : α → Except Stop β}
    (hr : r ≠ .error .endless) (hf : ∀ a, r = .ok a → f a ≠ .error .endless) :
    r >>= f ≠ .error .endless := by
  cases r with
  | error e => exact fun h => hr (by cases h; rfl)
  | ok a => exact hf a rfl

lemma closing_ne_endless (v : Value) (src : List Char) : closing v src ≠ .error .endless := by
  unfold closing
  split_ifs <;> simp

lemma derives_ne_nil {l : Level} {cs : List Char} {e : Ast} (h : Derives l cs e) : cs ≠ [] := by
  induction h with
  | number h => exact decimal_ne_nil h
  | factor _ ih => exact ih
  | term _ ih => exact ih
  | _ => simp

lemma Reads.shorter {l : Level} (h : Reads l src v rest) : rest.length < src.length := by
  obtain ⟨cs, e, rfl, he, -⟩ := h
  have := List.length_pos_iff.mpr (derives_ne_nil he)
  simp
  omega

structure Enough (n : ℕ) : Prop where
  factor {src : List Char} : 3 * src.length + 1 ≤ n → parseFactor n src ≠ .error .endless
  term {src : List Char} : 3 * src.length + 2 ≤ n → parseTerm n src ≠ .error .endless
  expr {src : List Char} : 3 * src.length + 3 ≤ n → parseExpr n src ≠ .error .endless
  termLoop {v : Value} {src : List Char} :
    3 * src.length + 1 ≤ n → termLoop n v src ≠ .error .endless
  exprLoop {v : Value} {src : List Char} :
    3 * src.length + 1 ≤ n → exprLoop n v src ≠ .error .endless

lemma Enough.factor_succ (hn : Enough n) (h : 3 * src.length + 1 ≤ n + 1) :
    parseFactor (n + 1) src ≠ .error .endless := by
  rcases factor_cases src with ⟨s, rfl⟩ | ⟨s, rfl⟩ | ⟨s, rfl⟩ | hnum
  · rw [List.length_cons] at h
    exact bind_ne_endless (hn.expr (by omega)) fun r _ => closing_ne_endless _ _
  · rw [List.length_cons] at h
    exact bind_ne_endless (hn.factor (by omega)) (by simp)
  · rw [List.length_cons] at h
    exact hn.factor (by omega)
  · rw [hnum]
    exact parseNumber_ne_endless src

lemma Enough.termLoop_after (hn : Enough n) (h : 3 * src.length + 1 ≤ n) (u : Value → Value) :
    parseFactor n src >>= (fun r => UnitArithmetic.termLoop n (u r.1) r.2) ≠ .error .endless := by
  refine bind_ne_endless (hn.factor h) fun r hr => hn.termLoop ?_
  have := Reads.shorter ((sound n).factor (show parseFactor n src = .ok (r.1, r.2) from hr))
  omega

lemma Enough.exprLoop_after (hn : Enough n) (h : 3 * src.length + 2 ≤ n) (u : Value → Value) :
    parseTerm n src >>= (fun r => UnitArithmetic.exprLoop n (u r.1) r.2) ≠ .error .endless := by
  refine bind_ne_endless (hn.term h) fun r hr => hn.exprLoop ?_
  have := Reads.shorter ((sound n).term (show parseTerm n src = .ok (r.1, r.2) from hr))
  omega

lemma Enough.termLoop_succ (hn : Enough n) (h : 3 * src.length + 1 ≤ n + 1) :
    UnitArithmetic.termLoop (n + 1) v src ≠ .error .endless := by
  rcases termLoop_cases src with ⟨s, rfl⟩ | ⟨s, rfl⟩ | hdone
  · rw [List.length_cons] at h
    exact hn.termLoop_after (by omega) v.mul
  · rw [List.length_cons] at h
    exact hn.termLoop_after (by omega) v.div
  · rw [hdone]
    simp

lemma Enough.exprLoop_succ (hn : Enough n) (h : 3 * src.length + 1 ≤ n + 1) :
    UnitArithmetic.exprLoop (n + 1) v src ≠ .error .endless := by
  rcases exprLoop_cases src with ⟨s, rfl⟩ | ⟨s, rfl⟩ | hdone
  · rw [List.length_cons] at h
    exact hn.exprLoop_after (by omega) v.add
  · rw [List.length_cons] at h
    exact hn.exprLoop_after (by omega) v.sub
  · rw [hdone]
    simp

lemma enough (n : ℕ) : Enough n := by
  induction n with
  | zero => constructor <;> intros <;> omega
  | succ n hn =>
    refine ⟨hn.factor_succ, fun h => ?_, fun h => ?_, hn.termLoop_succ, hn.exprLoop_succ⟩
    · exact hn.termLoop_after (by omega) id
    · exact hn.exprLoop_after (by omega) id

/-! ### More fuel changes nothing -/

lemma bind_stable {α β : Type} {r r' : Except Stop α} {f f' : α → Except Stop β}
    (h : r >>= f ≠ .error .endless) (hr : r ≠ .error .endless → r' = r)
    (hf : ∀ a, f a ≠ .error .endless → f' a = f a) : r' >>= f' = r >>= f := by
  cases r with
  | error e =>
    rw [hr (fun he => h (by rw [he]; rfl))]
    rfl
  | ok a =>
    rw [hr (by simp)]
    exact hf a h

structure Stable (n : ℕ) : Prop where
  factor {src : List Char} :
    parseFactor n src ≠ .error .endless → parseFactor (n + 1) src = parseFactor n src
  term {src : List Char} :
    parseTerm n src ≠ .error .endless → parseTerm (n + 1) src = parseTerm n src
  expr {src : List Char} :
    parseExpr n src ≠ .error .endless → parseExpr (n + 1) src = parseExpr n src
  termLoop {v : Value} {src : List Char} :
    termLoop n v src ≠ .error .endless → termLoop (n + 1) v src = termLoop n v src
  exprLoop {v : Value} {src : List Char} :
    exprLoop n v src ≠ .error .endless → exprLoop (n + 1) v src = exprLoop n v src

lemma Stable.factor_succ (hn : Stable n) (h : parseFactor (n + 1) src ≠ .error .endless) :
    parseFactor (n + 2) src = parseFactor (n + 1) src := by
  rcases factor_cases src with ⟨s, rfl⟩ | ⟨s, rfl⟩ | ⟨s, rfl⟩ | hnum
  · exact bind_stable h hn.expr fun _ _ => rfl
  · exact bind_stable h hn.factor fun _ _ => rfl
  · exact hn.factor h
  · rw [hnum, hnum]

lemma Stable.termLoop_succ (hn : Stable n)
    (h : UnitArithmetic.termLoop (n + 1) v src ≠ .error .endless) :
    UnitArithmetic.termLoop (n + 2) v src = UnitArithmetic.termLoop (n + 1) v src := by
  rcases termLoop_cases src with ⟨s, rfl⟩ | ⟨s, rfl⟩ | hdone
  · exact bind_stable h hn.factor fun _ => hn.termLoop
  · exact bind_stable h hn.factor fun _ => hn.termLoop
  · rw [hdone, hdone]

lemma Stable.exprLoop_succ (hn : Stable n)
    (h : UnitArithmetic.exprLoop (n + 1) v src ≠ .error .endless) :
    UnitArithmetic.exprLoop (n + 2) v src = UnitArithmetic.exprLoop (n + 1) v src := by
  rcases exprLoop_cases src with ⟨s, rfl⟩ | ⟨s, rfl⟩ | hdone
  · exact bind_stable h hn.term fun _ => hn.exprLoop
  · exact bind_stable h hn.term fun _ => hn.exprLoop
  · rw [hdone, hdone]

lemma stable (n : ℕ) : Stable n := by
  induction n with
  | zero =>
    constructor <;> intros <;> rename_i h
    · exact absurd rfl h
    · exact absurd rfl h
    · exact absurd rfl h
    · exact absurd rfl h
    · exact absurd rfl h
  | succ n hn =>
    refine ⟨hn.factor_succ, fun h => ?_, fun h => ?_, hn.termLoop_succ, hn.exprLoop_succ⟩
    · exact bind_stable h hn.factor fun _ => hn.termLoop
    · exact bind_stable h hn.term fun _ => hn.exprLoop

lemma stable_le {f : ℕ → List Char → Except Stop (Value × List Char)}
    (hf : ∀ n, f n src ≠ .error .endless → f (n + 1) src = f n src)
    (hr : f n src ≠ .error .endless) {m : ℕ} (hm : n ≤ m) : f m src = f n src := by
  induction m, hm using Nat.le_induction with
  | base => rfl
  | succ m hm ih => rw [hf m (by rw [ih]; exact hr), ih]

variable {m : ℕ} {r : Value × List Char}

lemma factor_le (h : parseFactor n src = .ok r) (hm : n ≤ m) : parseFactor m src = .ok r := by
  rw [stable_le (fun n => (stable n).factor) (by simp [h]) hm, h]

lemma term_le (h : parseTerm n src = .ok r) (hm : n ≤ m) : parseTerm m src = .ok r := by
  rw [stable_le (fun n => (stable n).term) (by simp [h]) hm, h]

lemma termLoop_le (h : termLoop n v src = .ok r) (hm : n ≤ m) : termLoop m v src = .ok r := by
  rw [stable_le (f := fun n => termLoop n v) (fun n => (stable n).termLoop) (by simp [h]) hm, h]

lemma exprLoop_le (h : exprLoop n v src = .ok r) (hm : n ≤ m) : exprLoop m v src = .ok r := by
  rw [stable_le (f := fun n => exprLoop n v) (fun n => (stable n).exprLoop) (by simp [h]) hm, h]

/-! ### Every expression is read -/

/-- What a parser of the level does with an expression and any text that may follow it. A factor
is read off; after a term or a sum the loop of the level goes on with its value. -/
def Run (l : Level) (src : List Char) (v : Value) (rest : List Char) : Prop :=
  match l with
  | .factor => ∃ n, parseFactor n src = .ok (v, rest)
  | .term => ∀ k r, termLoop k v rest = .ok r → ∃ n, parseTerm n src = .ok r
  | .expr => ∀ k r, exprLoop k v rest = .ok r → ∃ n, parseExpr n src = .ok r

/-- The text may follow an expression of the level. -/
def Follows : Level → List Char → Prop
  | .factor, rest => Apart rest
  | .term, rest => Apart rest
  | .expr, rest => Apart rest ∧ ∀ c ∈ rest.head?, c ∉ ['*', '/']

lemma run_term_of_factor (h : Run .factor src v rest) : Run .term src v rest := by
  obtain ⟨n, hn⟩ := h
  intro k r hk
  refine ⟨max n k + 1, ?_⟩
  rw [parseTerm_succ, factor_le hn (le_max_left n k)]
  exact termLoop_le hk (le_max_right n k)

lemma run_expr_of_term (h : Run .term src v rest) (hrest : ∀ c ∈ rest.head?, c ∉ ['*', '/']) :
    Run .expr src v rest := by
  intro k r hk
  obtain ⟨n, hn⟩ := h 1 (v, rest) (termLoop_done 0 v hrest)
  refine ⟨max n k + 1, ?_⟩
  rw [parseExpr_succ, term_le hn (le_max_left n k)]
  exact exprLoop_le hk (le_max_right n k)

lemma run_term_step {c : Char} {ds : List Char} {u : Value → Value → Value}
    (hleft : Run .term src v (c :: (ds ++ rest))) (hright : Run .factor (ds ++ rest) w rest)
    (hstep : ∀ n, termLoop (n + 1) v (c :: (ds ++ rest)) =
      parseFactor n (ds ++ rest) >>= fun r => termLoop n (u v r.1) r.2) :
    Run .term src (u v w) rest := by
  obtain ⟨n, hn⟩ := hright
  intro k r hk
  refine hleft (max n k + 1) r ?_
  rw [hstep, factor_le hn (le_max_left n k)]
  exact termLoop_le hk (le_max_right n k)

lemma run_expr_step {c : Char} {ds : List Char} {u : Value → Value → Value}
    (hleft : Run .expr src v (c :: (ds ++ rest))) (hright : Run .term (ds ++ rest) w rest)
    (hrest : ∀ c ∈ rest.head?, c ∉ ['*', '/'])
    (hstep : ∀ n, exprLoop (n + 1) v (c :: (ds ++ rest)) =
      parseTerm n (ds ++ rest) >>= fun r => exprLoop n (u v r.1) r.2) :
    Run .expr src (u v w) rest := by
  obtain ⟨n, hn⟩ := hright 1 (w, rest) (termLoop_done 0 w hrest)
  intro k r hk
  refine hleft (max n k + 1) r ?_
  rw [hstep, term_le hn (le_max_left n k)]
  exact exprLoop_le hk (le_max_right n k)

lemma decimal_head {cs : List Char} {q : ℚ} (h : Decimal cs q) :
    ∀ c ∈ (cs ++ rest).head?, c ∉ ['(', '-', '+'] := by
  obtain ⟨d, ds, rfl⟩ := List.exists_cons_of_ne_nil (decimal_ne_nil h)
  have hd := decimal_numeric h d (by simp)
  intro c hc hmem
  obtain rfl : d = c := by simpa using hc
  have hnot : ∀ c ∈ ['(', '-', '+'], isNumeric c = false := by
    simp only [List.forall_mem_cons, List.not_mem_nil, false_imp_iff, implies_true, and_true]
    decide
  simp [hnot d hmem] at hd

/-- **Every expression is read, with its value, whatever may follow it.** -/
lemma complete {l : Level} {cs : List Char} {e : Ast} (h : Derives l cs e) :
    ∀ rest, Follows l rest → ∃ v, Agrees v e ∧ Run l (cs ++ rest) v rest := by
  induction h with
  | @number cs q hq =>
    intro rest hrest
    refine ⟨.num q, fun _ => rfl, 1, ?_⟩
    rw [parseFactor_number 0 (decimal_head hq)]
    exact parseNumber_decimal hq hrest
  | plus _ ih =>
    intro rest hrest
    obtain ⟨v, hv, n, hn⟩ := ih rest hrest
    exact ⟨v, hv, n + 1, by rw [List.cons_append, parseFactor_plus, hn]⟩
  | minus _ ih =>
    intro rest hrest
    obtain ⟨v, hv, n, hn⟩ := ih rest hrest
    refine ⟨v.neg, agrees_neg hv, n + 1, ?_⟩
    rw [List.cons_append, parseFactor_minus, hn]
    rfl
  | @parens cs e _ ih =>
    intro rest hrest
    obtain ⟨v, hv, hrun⟩ := ih (')' :: rest) (by simp [Follows, Apart]; decide)
    obtain ⟨n, hn⟩ := hrun 1 (v, ')' :: rest) (exprLoop_done 0 v (by simp))
    refine ⟨v, hv, n + 1, ?_⟩
    rw [List.cons_append, List.append_assoc, List.singleton_append, parseFactor_paren, hn]
    rfl
  | factor _ ih =>
    intro rest hrest
    obtain ⟨v, hv, hrun⟩ := ih rest hrest
    exact ⟨v, hv, run_term_of_factor hrun⟩
  | @mul cs ds x y _ _ ihx ihy =>
    intro rest hrest
    obtain ⟨v, hv, hleft⟩ := ihx ('*' :: (ds ++ rest)) (by simp [Follows, Apart]; decide)
    obtain ⟨w, hw, hright⟩ := ihy rest hrest
    refine ⟨v.mul w, agrees_mul hv hw, ?_⟩
    rw [List.append_assoc]
    exact run_term_step hleft hright fun n => termLoop_mul n _ v
  | @div cs ds x y _ _ ihx ihy =>
    intro rest hrest
    obtain ⟨v, hv, hleft⟩ := ihx ('/' :: (ds ++ rest)) (by simp [Follows, Apart]; decide)
    obtain ⟨w, hw, hright⟩ := ihy rest hrest
    refine ⟨v.div w, agrees_div hv hw, ?_⟩
    rw [List.append_assoc]
    exact run_term_step hleft hright fun n => termLoop_div n _ v
  | term _ ih =>
    intro rest hrest
    obtain ⟨v, hv, hrun⟩ := ih rest hrest.1
    exact ⟨v, hv, run_expr_of_term hrun hrest.2⟩
  | @add cs ds x y _ _ ihx ihy =>
    intro rest hrest
    obtain ⟨v, hv, hleft⟩ := ihx ('+' :: (ds ++ rest)) (by simp [Follows, Apart]; decide)
    obtain ⟨w, hw, hright⟩ := ihy rest hrest.1
    refine ⟨v.add w, agrees_add hv hw, ?_⟩
    rw [List.append_assoc]
    exact run_expr_step hleft hright hrest.2 fun n => exprLoop_add n _ v
  | @sub cs ds x y _ _ ihx ihy =>
    intro rest hrest
    obtain ⟨v, hv, hleft⟩ := ihx ('-' :: (ds ++ rest)) (by simp [Follows, Apart]; decide)
    obtain ⟨w, hw, hright⟩ := ihy rest hrest.1
    refine ⟨v.sub w, agrees_sub hv hw, ?_⟩
    rw [List.append_assoc]
    exact run_expr_step hleft hright hrest.2 fun n => exprLoop_sub n _ v

/-! ### The whole text -/

lemma derives_allowed {l : Level} {cs : List Char} {e : Ast} (h : Derives l cs e) :
    ∀ c ∈ cs, isAllowed c := by
  have hops : ∀ c ∈ ['+', '-', '*', '/', '(', ')'], isAllowed c := by simp [isAllowed]
  induction h with
  | number h => exact fun c hc => by simp [isAllowed, decimal_numeric h c hc]
  | factor _ ih => exact ih
  | term _ ih => exact ih
  | plus _ ih => simpa using ⟨hops _ (by simp), ih⟩
  | minus _ ih => simpa using ⟨hops _ (by simp), ih⟩
  | parens _ ih => grind
  | _ => grind

lemma parseExpr_derives {cs : List Char} {e : Ast} (h : Derives .expr cs e) :
    ∃ v, Agrees v e ∧ parseExpr (3 * cs.length + 4) cs = .ok (v, []) := by
  obtain ⟨v, hv, hrun⟩ := complete h [] ⟨by simp [Apart], by simp⟩
  obtain ⟨n, hn⟩ := hrun 1 (v, []) (exprLoop_done 0 v (by simp))
  rw [List.append_nil] at hn
  -- both runs stop by themselves, so they agree where either has the fuel of the other
  have hstop : parseExpr (3 * cs.length + 4) cs ≠ .error .endless := (enough _).expr (by omega)
  have hmore := stable_le (fun n => (stable n).expr) hstop (le_max_left _ n)
  rw [stable_le (fun n => (stable n).expr) (by simp [hn]) (le_max_right _ n), hn] at hmore
  exact ⟨v, hv, hmore.symm⟩

lemma evalArithmetic_derives {expr : List Char} {e : Ast}
    (h : Derives .expr (stripSpace expr) e) (he : e.NoZeroDivisor) :
    ∃ v, evalArithmetic expr = .ok v ∧ v.toRat = some e.eval := by
  obtain ⟨v, hv, hrun⟩ := parseExpr_derives h
  have hne := derives_ne_nil h
  have hall : (stripSpace expr).all isAllowed = true := by
    simpa using derives_allowed h
  refine ⟨v, ?_, hv he⟩
  unfold evalArithmetic
  rw [if_neg (by simp [hne, hall]), hrun]
  show finish (v, []) = .ok v
  simp [finish, hv he]

lemma derives_of_evalArithmetic {expr : List Char} (h : evalArithmetic expr = .ok v) :
    ∃ e, Derives .expr (stripSpace expr) e := by
  unfold evalArithmetic at h
  by_cases hbad : stripSpace expr = [] ∨ ¬(stripSpace expr).all isAllowed
  · rw [if_pos hbad] at h
    cases h
  · rw [if_neg hbad] at h
    obtain ⟨⟨w, rest⟩, hparse, hfin⟩ := bind_ok h
    obtain ⟨cs, e, hcs, he, -⟩ := (sound _).expr hparse
    have hrest : rest = [] := by
      by_contra hne
      simp [finish, hne] at hfin
    rw [hrest, List.append_nil] at hcs
    exact ⟨e, hcs ▸ he⟩

lemma evalArithmetic_ne_endless (expr : List Char) : evalArithmetic expr ≠ .error .endless := by
  unfold evalArithmetic
  by_cases hbad : stripSpace expr = [] ∨ ¬(stripSpace expr).all isAllowed
  · rw [if_pos hbad]
    simp
  · rw [if_neg hbad]
    refine bind_ne_endless ((enough _).expr (by omega)) fun r _ => ?_
    unfold finish
    split_ifs <;> simp

/-- **`evalArithmetic` is a correct parser.** It stops on every text. Where no division has
divisor zero it returns a number exactly for the arithmetic expressions, the number is their
value, and every other text gives `null`. -/
theorem evalArithmetic_correct (expr : List Char) :
    evalArithmetic expr ≠ .error .endless ∧
    ((∀ e, Derives .expr (stripSpace expr) e → e.NoZeroDivisor) →
      ((∃ v, evalArithmetic expr = .ok v) ↔ ∃ e, Derives .expr (stripSpace expr) e) ∧
      (∀ e, Derives .expr (stripSpace expr) e →
        ∃ v, evalArithmetic expr = .ok v ∧ v.toRat = some e.eval) ∧
      ((¬∃ e, Derives .expr (stripSpace expr) e) → evalArithmetic expr = .error .null)) := by
  refine ⟨evalArithmetic_ne_endless expr, fun hz => ⟨⟨?_, ?_⟩, ?_, ?_⟩⟩
  · rintro ⟨v, hv⟩
    exact derives_of_evalArithmetic hv
  · rintro ⟨e, he⟩
    obtain ⟨v, hv, -⟩ := evalArithmetic_derives he (hz e he)
    exact ⟨v, hv⟩
  · exact fun e he => evalArithmetic_derives he (hz e he)
  · intro hno
    cases hr : evalArithmetic expr with
    | ok v => exact absurd (derives_of_evalArithmetic hr) hno
    | error stop =>
      cases stop with
      | null => rfl
      | endless => exact absurd hr (evalArithmetic_ne_endless expr)

lemma noZeroDivisor_of_slash_free {l : Level} {cs : List Char} {e : Ast} (h : Derives l cs e)
    (hcs : '/' ∉ cs) : e.NoZeroDivisor := by
  induction h with
  | number _ => trivial
  | factor _ ih => exact ih hcs
  | term _ ih => exact ih hcs
  | plus _ ih => exact ih (by simpa using hcs)
  | minus _ ih => exact ih (by simpa using hcs)
  | parens _ ih => exact ih (by simpa using hcs)
  | div _ _ _ _ => simp at hcs
  | _ => simp_all [Ast.NoZeroDivisor]

/-- A sum with signs, parentheses and blanks. -/
theorem evalArithmetic_correct_sum :
    ((∃ v, evalArithmetic "-2 * (1.5 - +.25)".toList = .ok v) ↔
      ∃ e, Derives .expr "-2*(1.5-+.25)".toList e) ∧
    evalArithmetic "-2 * (1.5 - +.25)".toList = .ok (.num (-5 / 2)) :=
  ⟨((evalArithmetic_correct "-2 * (1.5 - +.25)".toList).2 fun _ he =>
    noZeroDivisor_of_slash_free he (by decide +kernel)).1, by decide +kernel⟩

/-- Signs bind closer than products, and quotients associate to the left. -/
example : evalArithmetic "6 / -3 / 4 + 1".toList = .ok (.num (1 / 2)) := by decide +kernel

example : evalArithmetic "1/0".toList = .error .null := by decide +kernel

end FabPcb.ArithmeticReading
