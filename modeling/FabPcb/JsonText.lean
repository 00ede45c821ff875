import Mathlib.Data.List.Basic
import Mathlib.Data.Rat.Defs

/-!
JSON as `JSON.stringify` writes it, and that nothing is lost by it.

A text of a value is followed by the end, a comma or a closing bracket; what is read up to there is
the value, by induction on it.
-/

namespace FabPcb.JsonText

/-- The characters of the texts of numbers are among these. -/
def inNumeral (c : Char) : Bool := c.isDigit || c ∈ ['-', '+', '.', 'e', '/']

/-- `String` of a number. -/
structure NumberText where
  print : ℚ → List Char
  print_inj : Function.Injective print
  numeral : ∀ q, ∀ c ∈ print q, inNumeral c
  print_ne : ∀ q, print q ≠ []

mutual

inductive Json
  | num (q : ℚ)
  | bool (b : Bool)
  | str (s : List Char)
  | arr (elems : Elems)
  | obj (members : Members)

inductive Elems
  | nil
  | cons (v : Json) (rest : Elems)

inductive Members
  | nil
  | cons (key : List Char) (v : Json) (rest : Members)

end

def Elems.ofList (vs : List Json) : Elems := vs.foldr .cons .nil

def Members.ofList (fields : List (String × Json)) : Members :=
  fields.foldr (fun f => .cons f.1.toList f.2) .nil

def dquote : Char := '"'
def backslash : Char := '\\'

/-- The characters with an escape, by their codes. -/
def special (n : ℕ) : Bool := n < 32 || n = 34 || n = 92

/-- What follows the backslash. -/
def escapeCode (n : ℕ) : List Char :=
  if n = 34 then [dquote] else if n = 92 then [backslash]
  else if n = 8 then ['b'] else if n = 9 then ['t'] else if n = 10 then ['n']
  else if n = 12 then ['f'] else if n = 13 then ['r']
  else ['u', '0', '0', Nat.digitChar (n / 16), Nat.digitChar (n % 16)]

def escape (c : Char) : List Char :=
  if special c.toNat then backslash :: escapeCode c.toNat else [c]

def quote (s : List Char) : List Char := dquote :: (s.flatMap escape ++ [dquote])

variable (N : NumberText)

mutual

def stringify : Json → List Char
  | .num q => N.print q
  | .bool b => if b then "true".toList else "false".toList
  | .str s => quote s
  | .arr elems => '[' :: elemsText elems
  | .obj members => '\x7b' :: membersText members

/-- The elements, each with what comes before it in an array, and the closing bracket. -/
def elemsText : Elems → List Char
  | .nil => [']']
  | .cons v rest => stringify v ++ restText rest

def restText : Elems → List Char
  | .nil => [']']
  | .cons v rest => ',' :: (stringify v ++ restText rest)

def membersText : Members → List Char
  | .nil => ['\x7d']
  | .cons key v rest => quote key ++ ':' :: (stringify v ++ moreText rest)

def moreText : Members → List Char
  | .nil => ['\x7d']
  | .cons key v rest => ',' :: (quote key ++ ':' :: (stringify v ++ moreText rest))

end

/-! ### Strings -/

lemma escapeCode_start : ∀ m < 93, ∀ n < 93, special m → special n →
    escapeCode m <+: escapeCode n → m = n := by
  decide +kernel

lemma special_lt {n : ℕ} (h : special n) : n < 93 := by
  simp only [special, Bool.or_eq_true, decide_eq_true_eq] at h
  omega

lemma escape_append_inj {c d : Char} {x y : List Char} (h : escape c ++ x = escape d ++ y) :
    c = d ∧ x = y := by
  unfold escape at h
  by_cases hc : special c.toNat <;> by_cases hd : special d.toNat
  · simp only [hc, hd, if_true, List.cons_append, List.cons.injEq, true_and] at h
    have hcd : c = d := by
      refine Char.toNat_inj.mp ?_
      rcases List.prefix_or_prefix_of_prefix (List.prefix_append _ x)
        (h ▸ List.prefix_append _ y) with hp | hp
      · exact escapeCode_start _ (special_lt hc) _ (special_lt hd) hc hd hp
      · exact (escapeCode_start _ (special_lt hd) _ (special_lt hc) hd hc hp).symm
    subst hcd
    exact ⟨rfl, List.append_cancel_left h⟩
  · simp only [hc, hd, if_true, Bool.false_eq_true, if_false, List.cons_append, List.nil_append,
      List.cons.injEq] at h
    exact absurd (by rw [← h.1]; rfl) hd
  · simp only [hc, hd, if_true, Bool.false_eq_true, if_false, List.cons_append, List.nil_append,
      List.cons.injEq] at h
    exact absurd (by rw [h.1]; rfl) hc
  · simpa [hc, hd] using h

lemma escape_head (c : Char) (x : List Char) : ∀ y, escape c ++ x ≠ dquote :: y := by
  intro y h
  unfold escape at h
  by_cases hc : special c.toNat
  · simp only [hc, if_true, List.cons_append, List.cons.injEq] at h
    exact absurd h.1 (by decide)
  · simp only [hc, Bool.false_eq_true, if_false, List.cons_append, List.cons.injEq] at h
    exact hc (by rw [h.1]; rfl)

lemma quote_append_inj {s t x y : List Char} (h : quote s ++ x = quote t ++ y) :
    s = t ∧ x = y := by
  simp only [quote, List.cons_append, List.append_assoc, List.nil_append, List.cons.injEq,
    true_and] at h
  induction s generalizing t with
  | nil =>
    cases t with
    | nil => simpa using h
    | cons d t =>
      rw [List.flatMap_cons, List.append_assoc] at h
      exact absurd h.symm (escape_head d _ _)
  | cons c s ih =>
    cases t with
    | nil =>
      rw [List.flatMap_cons, List.append_assoc] at h
      exact absurd h (escape_head c _ _)
    | cons d t =>
      simp only [List.flatMap_cons, List.append_assoc] at h
      obtain ⟨rfl, hrest⟩ := escape_append_inj h
      obtain ⟨rfl, hxy⟩ := ih hrest
      exact ⟨rfl, hxy⟩

/-! ### Values -/

/-- What may follow the text of a number. -/
def Ends (x : List Char) : Prop := ∀ c ∈ x.head?, ¬ inNumeral c

/-- The kind of a value, by the first character of its text. -/
def kindOf (c : Char) : ℕ :=
  if inNumeral c then 0 else if c = 't' ∨ c = 'f' then 1 else if c = dquote then 2
  else if c = '[' then 3 else if c = '\x7b' then 4 else 5

def Json.kind : Json → ℕ
  | .num _ => 0
  | .bool _ => 1
  | .str _ => 2
  | .arr _ => 3
  | .obj _ => 4

lemma stringify_head (v : Json) : ∃ c cs, stringify N v = c :: cs ∧ kindOf c = v.kind := by
  cases v with
  | num q =>
    obtain ⟨c, cs, h⟩ := List.exists_cons_of_ne_nil (N.print_ne q)
    have hc : inNumeral c := N.numeral q c (h ▸ List.mem_cons_self)
    exact ⟨c, cs, h, by simp [kindOf, hc, Json.kind]⟩
  | bool b => cases b <;> exact ⟨_, _, rfl, by decide⟩
  | str s => exact ⟨_, _, rfl, (by decide : kindOf dquote = 2)⟩
  | arr vs => exact ⟨_, _, by rw [stringify], (by decide : kindOf '[' = 3)⟩
  | obj ms => exact ⟨_, _, by rw [stringify], (by decide : kindOf '\x7b' = 4)⟩

lemma kind_eq {v w : Json} {x y : List Char} (h : stringify N v ++ x = stringify N w ++ y) :
    v.kind = w.kind := by
  obtain ⟨c, cs, hv, hc⟩ := stringify_head N v
  obtain ⟨d, ds, hw, hd⟩ := stringify_head N w
  rw [hv, hw, List.cons_append, List.cons_append, List.cons.injEq] at h
  rw [← hc, ← hd, h.1]

lemma stringify_ne {v : Json} {x y : List Char} {c : Char} (hc : kindOf c = 5) :
    stringify N v ++ x ≠ c :: y := by
  obtain ⟨d, ds, hv, hd⟩ := stringify_head N v
  intro h
  rw [hv, List.cons_append, List.cons.injEq] at h
  rw [h.1, hc] at hd
  cases v <;> cases hd

lemma print_append_inj {p q : ℚ} {x y : List Char} (hx : Ends x) (hy : Ends y)
    (h : N.print p ++ x = N.print q ++ y) : p = q ∧ x = y := by
  have htake : ∀ {r : ℚ} {z : List Char}, Ends z →
      (N.print r ++ z).takeWhile inNumeral = N.print r := by
    intro r z hz
    rw [List.takeWhile_append_of_pos (N.numeral r)]
    cases z with
    | nil => simp
    | cons c z => simp [hz c rfl]
  have hprint : N.print p = N.print q := by rw [← htake hx, h, htake hy]
  obtain rfl := N.print_inj hprint
  exact ⟨rfl, List.append_cancel_left h⟩

lemma ends_restText (vs : Elems) (x : List Char) : Ends (restText N vs ++ x) := by
  intro c hc
  cases vs <;>
  · obtain rfl := Option.some.inj hc
    decide

lemma ends_moreText (ms : Members) (x : List Char) : Ends (moreText N ms ++ x) := by
  intro c hc
  cases ms <;>
  · obtain rfl := Option.some.inj hc
    decide

mutual

/-- A value and what follows it, read off a text. -/
theorem stringify_append_inj (v w : Json) {x y : List Char} (hx : Ends x) (hy : Ends y)
    (h : stringify N v ++ x = stringify N w ++ y) : v = w ∧ x = y := by
  have hkind := kind_eq N h
  cases v with
  | num p =>
    cases w with
    | num q =>
      rw [stringify, stringify] at h
      obtain ⟨rfl, hxy⟩ := print_append_inj N hx hy h
      exact ⟨rfl, hxy⟩
    | bool _ | str _ | arr _ | obj _ => cases hkind
  | bool a =>
    cases w with
    | bool b => cases a <;> cases b <;> simp_all [stringify]
    | num _ | str _ | arr _ | obj _ => cases hkind
  | str s =>
    cases w with
    | str t =>
      rw [stringify, stringify] at h
      obtain ⟨rfl, hxy⟩ := quote_append_inj h
      exact ⟨rfl, hxy⟩
    | num _ | bool _ | arr _ | obj _ => cases hkind
  | arr vs =>
    cases w with
    | arr ws =>
      rw [stringify, stringify, List.cons_append, List.cons_append, List.cons.injEq] at h
      obtain ⟨rfl, hxy⟩ := elemsText_append_inj vs ws h.2
      exact ⟨rfl, hxy⟩
    | num _ | bool _ | str _ | obj _ => cases hkind
  | obj ms =>
    cases w with
    | obj ns =>
      rw [stringify, stringify, List.cons_append, List.cons_append, List.cons.injEq] at h
      obtain ⟨rfl, hxy⟩ := membersText_append_inj ms ns h.2
      exact ⟨rfl, hxy⟩
    | num _ | bool _ | str _ | arr _ => cases hkind

theorem elemsText_append_inj (vs ws : Elems) {x y : List Char}
    (h : elemsText N vs ++ x = elemsText N ws ++ y) : vs = ws ∧ x = y := by
  cases vs with
  | nil =>
    cases ws with
    | nil => simpa [elemsText] using h
    | cons w ws =>
      rw [elemsText, elemsText, List.append_assoc] at h
      exact absurd h.symm (stringify_ne N (by decide))
  | cons v vs =>
    cases ws with
    | nil =>
      rw [elemsText, elemsText, List.append_assoc] at h
      exact absurd h (stringify_ne N (by decide))
    | cons w ws =>
      rw [elemsText, elemsText, List.append_assoc, List.append_assoc] at h
      obtain ⟨rfl, hrest⟩ :=
        stringify_append_inj v w (ends_restText N vs x) (ends_restText N ws y) h
      obtain ⟨rfl, hxy⟩ := restText_append_inj vs ws hrest
      exact ⟨rfl, hxy⟩

theorem restText_append_inj (vs ws : Elems) {x y : List Char}
    (h : restText N vs ++ x = restText N ws ++ y) : vs = ws ∧ x = y := by
  cases vs with
  | nil =>
    cases ws with
    | nil => simpa [restText] using h
    | cons w ws => simp [restText] at h
  | cons v vs =>
    cases ws with
    | nil => simp [restText] at h
    | cons w ws =>
      rw [restText, restText, List.cons_append, List.cons_append, List.cons.injEq,
        List.append_assoc, List.append_assoc] at h
      obtain ⟨rfl, hrest⟩ :=
        stringify_append_inj v w (ends_restText N vs x) (ends_restText N ws y) h.2
      obtain ⟨rfl, hxy⟩ := restText_append_inj vs ws hrest
      exact ⟨rfl, hxy⟩

theorem membersText_append_inj (ms ns : Members) {x y : List Char}
    (h : membersText N ms ++ x = membersText N ns ++ y) : ms = ns ∧ x = y := by
  cases ms with
  | nil =>
    cases ns with
    | nil => simpa [membersText] using h
    | cons k w ns => simp [membersText, quote, dquote] at h
  | cons k v ms =>
    cases ns with
    | nil => simp [membersText, quote, dquote] at h
    | cons l w ns =>
      rw [membersText, membersText, List.append_assoc, List.append_assoc] at h
      obtain ⟨rfl, hvalue⟩ := quote_append_inj h
      rw [List.cons_append, List.cons_append, List.cons.injEq, List.append_assoc,
        List.append_assoc] at hvalue
      obtain ⟨rfl, hrest⟩ :=
        stringify_append_inj v w (ends_moreText N ms x) (ends_moreText N ns y) hvalue.2
      obtain ⟨rfl, hxy⟩ := moreText_append_inj ms ns hrest
      exact ⟨rfl, hxy⟩

theorem moreText_append_inj (ms ns : Members) {x y : List Char}
    (h : moreText N ms ++ x = moreText N ns ++ y) : ms = ns ∧ x = y := by
  cases ms with
  | nil =>
    cases ns with
    | nil => simpa [moreText] using h
    | cons k w ns => simp [moreText] at h
  | cons k v ms =>
    cases ns with
    | nil => simp [moreText] at h
    | cons l w ns =>
      rw [moreText, moreText, List.cons_append, List.cons_append, List.cons.injEq,
        List.append_assoc, List.append_assoc] at h
      obtain ⟨rfl, hvalue⟩ := quote_append_inj h.2
      rw [List.cons_append, List.cons_append, List.cons.injEq, List.append_assoc,
        List.append_assoc] at hvalue
      obtain ⟨rfl, hrest⟩ :=
        stringify_append_inj v w (ends_moreText N ms x) (ends_moreText N ns y) hvalue.2
      obtain ⟨rfl, hxy⟩ := moreText_append_inj ms ns hrest
      exact ⟨rfl, hxy⟩

end

/-- **No value is lost in its text.** -/
theorem stringify_inj {v w : Json} (h : stringify N v = stringify N w) : v = w :=
  (stringify_append_inj N v w (x := []) (y := []) (fun c hc => by cases hc)
    (fun c hc => by cases hc) (congrArg (· ++ []) h)).1

end FabPcb.JsonText
