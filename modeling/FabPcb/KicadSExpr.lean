import FabPcb.SExprText

/-!
S-expressions under KiCad's quoting rules: inside a string, a backslash escapes a backslash and a
quotation mark, and stands for itself before anything else.

The reader is a scan of the characters. `Reads text xs` says what a text adds to the innermost list
that is open; such texts compose.
-/

namespace FabPcb.KicadSExpr

open SExprText

/-! ### The reader -/

/-- Between tokens, in a bare token, in a string, after a backslash in a string, or stopped. -/
inductive Mode where
  | blank
  | bare (text : List Char)
  | quoted (text : List Char)
  | escaped (text : List Char)
  | failed

structure Reader where
  mode : Mode
  stack : List (List SExpr)

/-- The token so far is complete. -/
def put (text : List Char) (stack : List (List SExpr)) : List (List SExpr) :=
  push (.atom (String.ofList text)) stack

/-- A character that no token is read at. -/
def outside (stack : List (List SExpr)) (c : Char) : Reader :=
  if c = '(' then ⟨.blank, [] :: stack⟩
  else if c = ')' then
    match closeTop stack with
    | none => ⟨.failed, stack⟩
    | some stack => ⟨.blank, stack⟩
  else if c = dquote then ⟨.quoted [], stack⟩
  else if isSpace c then ⟨.blank, stack⟩
  else ⟨.bare [c], stack⟩

def step (r : Reader) (c : Char) : Reader :=
  match r.mode with
  | .blank => outside r.stack c
  | .bare text => if isBare c then ⟨.bare (text ++ [c]), r.stack⟩ else outside (put text r.stack) c
  | .quoted text =>
    if c = dquote then ⟨.blank, put text r.stack⟩
    else if c = backslash then ⟨.escaped text, r.stack⟩
    else ⟨.quoted (text ++ [c]), r.stack⟩
  | .escaped text =>
    if c = dquote ∨ c = backslash then ⟨.quoted (text ++ [c]), r.stack⟩
    else ⟨.quoted (text ++ [backslash, c]), r.stack⟩
  | .failed => r

def run (r : Reader) (text : List Char) : Reader := text.foldl step r

/-- What was read, when nothing is open. -/
def complete (r : Reader) : Option (List SExpr) :=
  match r.mode, r.stack with
  | .blank, [top] => some top
  | .bare text, [top] => some (top ++ [.atom (String.ofList text)])
  | _, _ => none

def readAll (text : String) : Option (List SExpr) := complete (run ⟨.blank, [[]]⟩ text.toList)

/-- The text is one s-expression. -/
def readOne (text : String) : Option SExpr :=
  match readAll text with
  | some [x] => some x
  | _ => none

@[simp] lemma run_nil (r : Reader) : run r [] = r := rfl

@[simp] lemma run_cons (r : Reader) (c : Char) (cs : List Char) :
    run r (c :: cs) = run (step r c) cs := rfl

lemma run_append (r : Reader) (a b : List Char) : run r (a ++ b) = run (run r a) b :=
  List.foldl_append

/-! ### Quoting -/

/-- `.replace` of every `c` by `c` behind a backslash. -/
def escape (c : Char) (text : List Char) : List Char :=
  text.flatMap fun x => if x = c then [backslash, c] else [x]

/-- A quoted atom. -/
def q (value : String) : String :=
  "\"" ++ String.ofList (escape dquote (escape backslash value.toList)) ++ "\""

lemma escape_cons (c x : Char) (text : List Char) :
    escape c (x :: text) = (if x = c then [backslash, c] else [x]) ++ escape c text := rfl

lemma escape_append (c : Char) (a b : List Char) : escape c (a ++ b) = escape c a ++ escape c b :=
  List.flatMap_append

lemma escape_escape_cons (x : Char) (text : List Char) :
    escape dquote (escape backslash (x :: text)) =
      (if x = backslash ∨ x = dquote then [backslash, x] else [x]) ++
        escape dquote (escape backslash text) := by
  rw [escape_cons, escape_append]
  by_cases hback : x = backslash
  · rw [hback]
    rfl
  · rw [if_neg hback, escape_cons]
    by_cases hquote : x = dquote
    · rw [hquote]
      rfl
    · rw [if_neg hquote, if_neg (not_or.mpr ⟨hback, hquote⟩)]
      rfl

lemma run_escaped (stack : List (List SExpr)) (cs : List Char) : ∀ text,
    run ⟨.quoted text, stack⟩ (escape dquote (escape backslash cs)) =
      ⟨.quoted (text ++ cs), stack⟩ := by
  induction cs with
  | nil =>
    intro text
    rw [List.append_nil]
    rfl
  | cons x cs ih =>
    intro text
    have hnext : run ⟨.quoted text, stack⟩ (if x = backslash ∨ x = dquote then [backslash, x]
        else [x]) = ⟨.quoted (text ++ [x]), stack⟩ := by
      by_cases hback : x = backslash
      · rw [hback]
        rfl
      · by_cases hquote : x = dquote
        · rw [hquote]
          rfl
        · rw [if_neg (not_or.mpr ⟨hback, hquote⟩)]
          simp [step, if_neg hquote, if_neg hback]
    rw [escape_escape_cons, run_append, hnext, ih, List.append_assoc, List.singleton_append]

/-! ### Texts that are complete -/

/-- The text is a sequence of complete s-expressions. -/
def Reads (text : List Char) (xs : List SExpr) : Prop :=
  ∀ top below, run ⟨.blank, top :: below⟩ text = ⟨.blank, (top ++ xs) :: below⟩

lemma reads_nil : Reads [] [] := by
  intro top below
  rw [List.append_nil]
  rfl

lemma reads_append {a b : List Char} {xs ys : List SExpr} (ha : Reads a xs) (hb : Reads b ys) :
    Reads (a ++ b) (xs ++ ys) := by
  intro top below
  rw [run_append, ha, hb, List.append_assoc]

lemma reads_space {text : List Char} (h : text.all isSpace = true) : Reads text [] := by
  induction text with
  | nil => exact reads_nil
  | cons c text ih =>
    rw [List.all_cons, Bool.and_eq_true] at h
    have hopen : c ≠ '(' := fun hc => absurd (hc ▸ h.1) (by decide)
    have hclose : c ≠ ')' := fun hc => absurd (hc ▸ h.1) (by decide)
    have hquote : c ≠ dquote := fun hc => absurd (hc ▸ h.1) (by decide)
    intro top below
    have hstep : step ⟨.blank, top :: below⟩ c = ⟨.blank, top :: below⟩ := by
      simp [step, outside, if_neg hopen, if_neg hclose, if_neg hquote, h.1]
    rw [run_cons, hstep]
    exact ih h.2 top below

lemma reads_q (value : String) : Reads (q value).toList [.atom value] := by
  intro top below
  have htext : (q value).toList =
      dquote :: (escape dquote (escape backslash value.toList) ++ [dquote]) := by
    simp [q, dquote]
  have hstart : step ⟨.blank, top :: below⟩ dquote = ⟨.quoted [], top :: below⟩ := rfl
  rw [htext, run_cons, hstart, run_append, run_escaped]
  change (⟨.blank, put value.toList (top :: below)⟩ : Reader) = _
  rw [put, String.ofList_toList]
  rfl

lemma run_bare (stack : List (List SExpr)) {head : List Char} (hbare : head.all isBare = true) :
    ∀ text, run ⟨.bare text, stack⟩ head = ⟨.bare (text ++ head), stack⟩ := by
  induction head with
  | nil =>
    intro text
    rw [List.append_nil]
    rfl
  | cons c head ih =>
    intro text
    rw [List.all_cons, Bool.and_eq_true] at hbare
    rw [run_cons]
    simp only [step, hbare.1, if_true]
    rw [ih hbare.2, List.append_assoc, List.singleton_append]

/-- A list with its head before the separator, which is a space. -/
def opening (head : String) (sep : Char) : List Char := '(' :: (head.toList ++ [sep])

/-- The head of a list is a bare token. -/
def IsHead (head : String) : Prop := head.toList ≠ [] ∧ head.toList.all isBare = true

instance (head : String) : Decidable (IsHead head) := inferInstanceAs (Decidable (_ ∧ _))

lemma run_opening {head : String} {sep : Char} (hhead : IsHead head) (hsep : isSpace sep = true)
    (stack : List (List SExpr)) :
    run ⟨.blank, stack⟩ (opening head sep) = ⟨.blank, [.atom head] :: stack⟩ := by
  obtain ⟨hne, hbare⟩ := hhead
  obtain ⟨c, cs, hcs⟩ := List.exists_cons_of_ne_nil hne
  rw [hcs, List.all_cons, Bool.and_eq_true] at hbare
  have hnot : isBare sep = false := by rw [isBare, hsep]; rfl
  have hspace : ∀ stack, outside stack sep = ⟨.blank, stack⟩ := by
    have hopen : sep ≠ '(' := fun hc => absurd (hc ▸ hsep) (by decide)
    have hclose : sep ≠ ')' := fun hc => absurd (hc ▸ hsep) (by decide)
    have hquote : sep ≠ dquote := fun hc => absurd (hc ▸ hsep) (by decide)
    simp [outside, if_neg hopen, if_neg hclose, if_neg hquote, hsep]
  have hfirst : step ⟨.blank, [] :: stack⟩ c = ⟨.bare [c], [] :: stack⟩ := by
    have hopen : c ≠ '(' := fun hc => absurd (hc ▸ hbare.1) (by decide)
    have hclose : c ≠ ')' := fun hc => absurd (hc ▸ hbare.1) (by decide)
    have hquote : c ≠ dquote := fun hc => absurd (hc ▸ hbare.1) (by decide)
    have hword : isSpace c = false := by
      have hb := hbare.1
      simp only [isBare, Bool.not_eq_true', Bool.or_eq_false_iff] at hb
      exact hb.1.1.1
    simp [step, outside, if_neg hopen, if_neg hclose, if_neg hquote, hword,
      Bool.false_eq_true]
  have hstart : step ⟨.blank, stack⟩ '(' = ⟨.blank, [] :: stack⟩ := rfl
  have htoken : run ⟨.blank, [] :: stack⟩ (c :: cs) = ⟨.bare (c :: cs), [] :: stack⟩ := by
    rw [run_cons, hfirst, run_bare _ hbare.2, List.singleton_append]
  rw [opening, run_cons, hstart, run_append, hcs, htoken, run_cons]
  simp only [step, hnot, Bool.false_eq_true, if_false, hspace]
  rw [put, ← hcs, String.ofList_toList]
  rfl

lemma reads_list {head : String} {sep : Char} {inner : List Char} {xs : List SExpr}
    (hhead : IsHead head) (hsep : isSpace sep = true) (hinner : Reads inner xs) :
    Reads (opening head sep ++ inner ++ [')']) [.list (.atom head :: xs)] := by
  intro top below
  rw [run_append, run_append, run_opening hhead hsep, hinner]
  rfl

lemma readOne_of_reads {text : String} {x : SExpr} (h : Reads text.toList [x]) :
    readOne text = some x := by
  rw [readOne, readAll, h]
  rfl

end FabPcb.KicadSExpr
