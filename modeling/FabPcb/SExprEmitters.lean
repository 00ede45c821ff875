import FabPcb.SExprRoundTrip

/-!
Emitters of s-expressions, and when the reader takes back what they write.

An emitter writes a text as it is or between quotation marks. The reader gives every text a place in
the tree, so the first one that it takes for another is found at that place. Only a text on a line of
its own can lose its place: as a comment.
-/

namespace FabPcb.SExprEmitters

open SExprText SExprRoundTrip

structure Emitter where
  write : List Char → List Char
  /-- The declaration of the quotation mark is written as such. -/
  declares : Bool

def isDeclaration (items : List SExpr) : Bool := (SExpr.list items).headed "string_quote"

def declaration : List Char := "(string_quote \")".toList

namespace Emitter

variable (E : Emitter)

mutual

def emit : SExpr → List Char
  | .atom s => E.write s.toList
  | .list items =>
    if E.declares && isDeclaration items then declaration else '(' :: (emitItems items ++ [')'])

def emitItems : List SExpr → List Char
  | [] => []
  | x :: xs => emit x ++ emitRest xs

def emitRest : List SExpr → List Char
  | [] => []
  | x :: xs => ' ' :: (emit x ++ emitRest xs)

end

/-- The forms on lines of their own, with what ends the file. -/
def file (tail : List Char) : List SExpr → List Char
  | [] => tail
  | x :: xs => E.emit x ++ if xs = [] then tail else '\n' :: file tail xs

/-! ### Texts -/

/-- A bare text that stands for a comment at the start of a line. -/
def isComment (s : List Char) : Bool := E.write s = s && s.head? = some '#'

/-- How a text is written, and what the reader makes of it. A text that is `lost` is a comment, or is
read as another. -/
inductive Written (good lost : List Char → Bool) (s : List Char) : Prop where
  | bare (hwrite : E.write s = s) (hne : s ≠ []) (hbare : ∀ c ∈ s, isBare c = true)
      (hgood : good s = true) (hlost : lost s = decide (s.head? = some '#'))
  | quoted (body : List Char) (hwrite : E.write s = dquote :: (body ++ [dquote]))
      (hwhole : E.write s ≠ s)
      (hread : good s = true → lost s = false ∧ ∀ rest,
        closesSoon (body ++ dquote :: rest) = false ∧
          readString (body ++ dquote :: rest) = some (s, rest))
      (hsoon : good s = false → ∀ rest, closesSoon (body ++ dquote :: rest) = true → s ≠ [dquote])
      (hmiss : good s = false → ∀ rest t rest', closesSoon (body ++ dquote :: rest) = false →
        readString (body ++ dquote :: rest) = some (t, rest') →
          t ≠ s ∧ (lost t = true → rest' = rest ∧ lost s = true))

structure Lawful (good lost : List Char → Bool) : Prop where
  written : ∀ s, Written E good lost s
  quote_kept : lost [dquote] = false

end Emitter

/-! ### Places -/

def FitsIn (root : List SExpr) : List SExpr → List (List SExpr) → Prop
  | top, [] => top <+: root
  | top, below :: rest => ∃ items, top <+: items ∧ FitsIn root (below ++ [.list items]) rest

/-- A tree that the open lists can still become. -/
def Fits (stack : List (List SExpr)) (root : List SExpr) : Prop :=
  match stack with
  | [] => False
  | top :: rest => FitsIn root top rest

variable {root : List SExpr} {stack : List (List SExpr)} {top : List SExpr}

lemma fits_prefix {top' : List SExpr} (h : Fits (top' :: stack) root) (hpre : top <+: top') :
    Fits (top :: stack) root := by
  cases stack with
  | nil => exact List.IsPrefix.trans hpre h
  | cons below rest =>
    obtain ⟨items, hitems, hfits⟩ := h
    exact ⟨items, hpre.trans hitems, hfits⟩

lemma fits_of_push {x : SExpr} (h : Fits (push x stack) root) : Fits stack root := by
  cases stack with
  | nil => exact False.elim h
  | cons top rest => exact fits_prefix h (List.prefix_append top [x])

lemma fits_of_close {stack' : List (List SExpr)} (hclose : closeTop stack = some stack')
    (h : Fits stack' root) : Fits stack root := by
  match stack, hclose with
  | top :: below :: rest, hclose =>
    cases hclose
    exact ⟨top, List.prefix_refl top, h⟩

lemma fits_of_open (h : Fits ([] :: stack) root) (hne : stack ≠ []) : Fits stack root := by
  cases stack with
  | nil => exact absurd rfl hne
  | cons top rest =>
    obtain ⟨items, -, hfits⟩ := h
    exact fits_prefix hfits (List.prefix_append top [.list items])

/-- What the reader returns, the open lists could become. -/
lemma fits_of_parse {n : ℕ} {b : Bool} {cs : List Char} (hne : stack ≠ [])
    (h : parseLoop n b cs stack = .ok root) : Fits stack root := by
  induction n generalizing b cs stack with
  | zero => cases h
  | succ n ih =>
    cases cs with
    | nil =>
      cases stack with
      | nil => exact absurd rfl hne
      | cons top rest =>
        cases rest with
        | nil =>
          cases h
          exact List.prefix_refl _
        | cons below rest => cases h
    | cons c cs =>
      have hpush : ∀ x, push x stack ≠ [] := fun x => by
        cases stack with
        | nil => exact absurd rfl hne
        | cons top rest => exact List.cons_ne_nil _ _
      rw [parseLoop] at h
      split_ifs at h
      · exact fits_of_open (ih (List.cons_ne_nil _ _) h) hne
      · cases hclose : closeTop stack with
        | none =>
          rw [hclose] at h
          cases h
        | some stack' =>
          rw [hclose] at h
          refine fits_of_close hclose (ih ?_ h)
          cases stack with
          | nil => cases hclose
          | cons top rest =>
            cases rest with
            | nil => cases hclose
            | cons below rest =>
              cases hclose
              exact List.cons_ne_nil _ _
      · exact fits_of_push (ih (hpush _) h)
      · cases hread : readString cs with
        | none =>
          rw [hread] at h
          cases h
        | some s =>
          rw [hread] at h
          exact fits_of_push (ih (hpush _) h)
      · exact ih hne h
      · exact ih hne h
      · exact fits_of_push (ih (hpush _) h)

lemma prefix_snoc_inj {α : Type} {t l : List α} {a b : α} (ha : t ++ [a] <+: l) (hb : t ++ [b] <+: l) :
    a = b := by
  obtain ⟨u, rfl⟩ := ha
  obtain ⟨v, hv⟩ := hb
  rw [List.append_assoc, List.append_assoc] at hv
  have hcons := List.append_cancel_left hv
  rw [List.singleton_append, List.singleton_append, List.cons.injEq] at hcons
  exact hcons.1.symm

lemma fits_unique {x y : SExpr} (hx : Fits ((top ++ [x]) :: stack) root)
    (hy : Fits ((top ++ [y]) :: stack) root) : x = y := by
  induction stack generalizing top x y with
  | nil => exact prefix_snoc_inj hx hy
  | cons below rest ih =>
    obtain ⟨items, hitems, hfits⟩ := hx
    obtain ⟨items', hitems', hfits'⟩ := hy
    have hlists := ih hfits hfits'
    cases hlists
    exact prefix_snoc_inj hitems hitems'

/-! ### Trees that come back -/

/-- What the declaration of the quotation mark is read as. -/
def isMark : List SExpr → Bool
  | [.atom a, .atom b] => a = "string_quote" && b = "\""
  | _ => false

lemma isMark_iff {items : List SExpr} :
    isMark items = true ↔ items = [.atom "string_quote", .atom "\""] := by
  refine ⟨fun h => ?_, fun h => by subst h; rfl⟩
  unfold isMark at h
  split at h
  · obtain ⟨ha, hb⟩ := Bool.and_eq_true_iff.mp h
    rw [of_decide_eq_true ha, of_decide_eq_true hb]
  · cases h

namespace Emitter

variable (E : Emitter) (good : List Char → Bool)

mutual

/-- Every text of a tree is good, and every declaration says what is written for it. -/
def fine : SExpr → Bool
  | .atom s => good s.toList
  | .list items =>
    if E.declares && isDeclaration items then isMark items else fineItems items

def fineItems : List SExpr → Bool
  | [] => true
  | x :: xs => fine x && fineItems xs

end

/-- A form that is skipped as a comment. -/
def isRemark : SExpr → Bool
  | .atom s => E.isComment s.toList
  | .list _ => false

variable {E good} {lost : List Char → Bool} {b : Bool} {s : String} {rest : List Char}
  {below : List (List SExpr)}

lemma write_of_isComment {s : List Char} (h : E.isComment s = true) :
    E.write s = s ∧ s.head? = some '#' := by
  simpa [isComment] using h

/-- A good text comes back. -/
lemma parse_text (hE : Lawful E good lost) (hgood : good s.toList = true) (hstop : Stops rest)
    (hcomment : b = true → E.isComment s.toList = false) :
    parseRest b (E.write s.toList ++ rest) stack = parseRest false rest (push (.atom s) stack) := by
  rcases hE.written s.toList with ⟨hwrite, hne, hbare, -, -⟩ | ⟨body, hwrite, -, hread, -, -⟩
  · rw [hwrite]
    cases heq : s.toList with
    | nil => exact absurd heq hne
    | cons c cs =>
      rw [heq] at hbare
      have hhash : ¬ (c = '#' ∧ b = true) := by
        rintro ⟨rfl, hb⟩
        have hno := hcomment hb
        rw [isComment, hwrite, heq] at hno
        simp at hno
      obtain ⟨htake, hdrop⟩ := takeWhile_stops (p := isBare)
        (fun d hd => hbare d (List.mem_cons_of_mem _ hd)) hstop
      rw [List.cons_append, parseRest_bare (hbare c List.mem_cons_self) hhash, htake, hdrop, ← heq,
        String.ofList_toList]
  · obtain ⟨-, hquoted⟩ := hread hgood
    obtain ⟨hsoon, hstring⟩ := hquoted rest
    rw [hwrite, List.cons_append, List.append_assoc, List.singleton_append,
      parseRest_string hsoon hstring, String.ofList_toList]

/-- A text that is not good is taken for another. -/
lemma parse_other (hE : Lawful E good lost) (hbad : good s.toList = false)
    (h : parseRest b (E.write s.toList ++ rest) stack = .ok root) :
    ∃ r rest', parseRest false rest' (push (.atom r) stack) = .ok root ∧ r ≠ s ∧
      (lost r.toList = true → rest' = rest ∧ lost s.toList = true) := by
  rcases hE.written s.toList with ⟨-, -, -, hgood, -⟩ | ⟨body, hwrite, -, -, hclose, hmiss⟩
  · rw [hbad] at hgood
    cases hgood
  · rw [hwrite, List.cons_append, List.append_assoc, List.singleton_append] at h
    by_cases hsoon : closesSoon (body ++ dquote :: rest) = true
    · have hstep : parseRest b (dquote :: (body ++ dquote :: rest)) stack =
          parseRest false (body ++ dquote :: rest) (push (.atom "\"") stack) := by
        rw [parseRest, parseLoop, if_pos hsoon]
        rfl
      rw [hstep] at h
      refine ⟨"\"", _, h, ?_, fun hlost => ?_⟩
      · rintro rfl
        exact hclose hbad rest hsoon rfl
      · have hkept : lost "\"".toList = false := hE.quote_kept
        rw [hkept] at hlost
        cases hlost
    · rw [Bool.not_eq_true] at hsoon
      cases hread : readString (body ++ dquote :: rest) with
      | none =>
        have hstep : parseRest b (dquote :: (body ++ dquote :: rest)) stack =
            .error .unterminated := by
          rw [parseRest, parseLoop, hsoon, hread]
          rfl
        rw [hstep] at h
        cases h
      | some r =>
        obtain ⟨hne, hlost⟩ := hmiss hbad rest r.1 r.2 hsoon hread
        rw [parseRest_string hsoon hread] at h
        refine ⟨String.ofList r.1, r.2, h, ?_, ?_⟩
        · intro heq
          rw [← heq, String.toList_ofList] at hne
          exact hne rfl
        · rw [String.toList_ofList]
          exact hlost

lemma parse_declaration :
    parseRest b (declaration ++ rest) (top :: below) =
      parseRest false rest ((top ++ [.list [.atom "string_quote", .atom "\""]]) :: below) := by
  have hsplit : declaration ++ rest =
      '(' :: 's' :: ("tring_quote".toList ++ ' ' :: dquote :: ')' :: rest) := rfl
  have hmark : parseRest false (dquote :: ')' :: rest) ([.atom "string_quote"] :: top :: below) =
      parseRest false (')' :: rest) ([.atom "string_quote", .atom "\""] :: top :: below) := rfl
  rw [hsplit, parseRest_open, parseRest_bare (by decide) (by decide)]
  exact hmark.trans parseRest_close

lemma stops_rest {xs : List SExpr} : Stops (E.emitRest xs ++ ([')'] ++ rest)) := by
  cases xs with
  | nil => exact stops_close
  | cons x xs =>
    intro c hc
    cases hc
    rfl

lemma parse_emitRest {xs : List SExpr} :
    parseRest false (E.emitRest xs ++ rest) stack =
      parseRest false (E.emitItems xs ++ rest) stack := by
  cases xs with
  | nil => rfl
  | cons x xs => rw [emitRest, List.cons_append, parseRest_space, emitItems]

mutual

lemma parse_emit (hE : Lawful E good lost) (x : SExpr) (hx : fine E good x = true) {b : Bool}
    {rest : List Char} (hstop : Stops rest) {below : List (List SExpr)} {top : List SExpr}
    (hcomment : b = true → isRemark E x = false) :
    parseRest b (E.emit x ++ rest) (top :: below) =
      parseRest false rest ((top ++ [x]) :: below) := by
  cases x with
  | atom s => exact parse_text hE hx hstop hcomment
  | list items =>
    rw [fine] at hx
    rw [emit]
    by_cases hdecl : (E.declares && isDeclaration items) = true
    · rw [if_pos hdecl] at hx
      rw [if_pos hdecl, isMark_iff.mp hx, parse_declaration]
    · rw [if_neg hdecl] at hx
      rw [if_neg hdecl, List.cons_append, List.append_assoc, parseRest_open]
      exact parse_items hE items hx []

lemma parse_items (hE : Lawful E good lost) (xs : List SExpr)
    (hxs : fineItems E good xs = true) (done : List SExpr) {rest : List Char}
    {below : List (List SExpr)} {top : List SExpr} :
    parseRest false (E.emitItems xs ++ ([')'] ++ rest)) (done :: top :: below) =
      parseRest false rest ((top ++ [.list (done ++ xs)]) :: below) := by
  cases xs with
  | nil =>
    rw [List.append_nil]
    rfl
  | cons x xs =>
    obtain ⟨hx, hxs⟩ := Bool.and_eq_true_iff.mp hxs
    rw [emitItems, List.append_assoc, parse_emit hE x hx stops_rest Bool.noConfusion, parse_emitRest,
      parse_items hE xs hxs (done ++ [x]), List.append_assoc, List.singleton_append]

end

mutual

lemma emit_fine (hE : Lawful E good lost) (x : SExpr) {b : Bool} {rest : List Char}
    {below : List (List SExpr)} {top root : List SExpr}
    (h : parseRest b (E.emit x ++ rest) (top :: below) = .ok root)
    (hfits : Fits ((top ++ [x]) :: below) root) : fine E good x = true := by
  cases x with
  | atom s =>
    by_contra hbad
    obtain ⟨r, rest', hparse, hne, -⟩ := parse_other hE (Bool.eq_false_iff.mpr hbad) h
    cases fits_unique hfits (fits_of_parse (List.cons_ne_nil _ _) hparse)
    exact hne rfl
  | list items =>
    rw [fine]
    rw [emit] at h
    by_cases hdecl : (E.declares && isDeclaration items) = true
    · rw [if_pos hdecl] at h ⊢
      rw [parse_declaration] at h
      cases fits_unique hfits (fits_of_parse (List.cons_ne_nil _ _) h)
      rfl
    · rw [if_neg hdecl] at h ⊢
      rw [List.cons_append, List.append_assoc, parseRest_open] at h
      exact items_fine hE items h hfits

lemma items_fine (hE : Lawful E good lost) (xs : List SExpr) {rest : List Char}
    {done top root : List SExpr} {below : List (List SExpr)}
    (h : parseRest false (E.emitItems xs ++ ([')'] ++ rest)) (done :: top :: below) = .ok root)
    (hfits : Fits ((top ++ [.list (done ++ xs)]) :: below) root) :
    fineItems E good xs = true := by
  cases xs with
  | nil => rfl
  | cons x xs =>
    rw [emitItems, List.append_assoc] at h
    have hpre : done ++ [x] <+: done ++ x :: xs := ⟨xs, by simp⟩
    have hx := emit_fine hE x h ⟨done ++ x :: xs, hpre, hfits⟩
    rw [parse_emit hE x hx stops_rest Bool.noConfusion, parse_emitRest] at h
    have hxs := items_fine hE xs h (by rwa [List.append_assoc, List.singleton_append])
    exact Bool.and_eq_true_iff.mpr ⟨hx, hxs⟩

end

/-! ### Files -/

/-- What stands between a form and the next, or the end of the file. -/
def after (E : Emitter) (tail : List Char) (xs : List SExpr) : List Char :=
  if xs = [] then tail else '\n' :: E.file tail xs

variable {tail : List Char} {x : SExpr} {xs done : List SExpr}

lemma file_cons : E.file tail (x :: xs) = E.emit x ++ E.after tail xs := by
  rw [file, after]

lemma after_cases (E : Emitter) (xs : List SExpr) (htail : tail = [] ∨ tail = ['\n']) :
    E.after tail xs = [] ∨ ∃ more, E.after tail xs = '\n' :: more := by
  unfold after
  split
  · exact htail.imp_right fun h => ⟨[], h⟩
  · exact Or.inr ⟨_, rfl⟩

lemma stops_after (htail : tail = [] ∨ tail = ['\n']) : Stops (E.after tail xs) := by
  rcases after_cases E xs htail with h | ⟨more, h⟩ <;> rw [h]
  · exact nofun
  · intro c hc
    cases hc
    rfl

lemma parse_after (htail : tail = [] ∨ tail = ['\n']) :
    parseRest false (E.after tail xs) stack = parseRest true (E.file tail xs) stack := by
  unfold after
  split
  next hnil =>
    subst hnil
    rcases htail with rfl | rfl <;> rfl
  · rfl

lemma parse_line (hE : Lawful E good lost) (htail : tail = [] ∨ tail = ['\n'])
    (hx : fine E good x = true) (hremark : isRemark E x = false) :
    parseRest true (E.file tail (x :: xs)) [done] =
      parseRest true (E.file tail xs) [done ++ [x]] := by
  rw [file_cons, parse_emit hE x hx (stops_after htail) fun _ => hremark, parse_after htail]

/-- A line that looks like a comment is skipped. -/
lemma parse_remark (hE : Lawful E good lost) (htail : tail = [] ∨ tail = ['\n'])
    (hremark : isRemark E x = true) :
    parseRest true (E.file tail (x :: xs)) [done] = parseRest true (E.file tail xs) [done] := by
  cases x with
  | list items => cases hremark
  | atom s =>
    obtain ⟨hwhole, hhead⟩ := write_of_isComment hremark
    rcases hE.written s.toList with ⟨-, hne, hbare, -, -⟩ | ⟨body, hwrite, hnot, -, -, -⟩
    · cases heq : s.toList with
      | nil => exact absurd heq hne
      | cons c t =>
        rw [heq] at hhead hbare
        cases hhead
        have hline : ∀ d ∈ t, decide (d ≠ '\n') = true := by
          intro d hd
          refine decide_eq_true fun h => ?_
          subst h
          exact absurd (hbare _ (List.mem_cons_of_mem _ hd)) (by decide)
        have hbreak : ∀ d ∈ (E.after tail xs).head?, decide (d ≠ '\n') = false := by
          rcases after_cases E xs htail with h | ⟨more, h⟩ <;> rw [h]
          · exact nofun
          · intro d hd
            cases hd
            rfl
        have hdrop := (takeWhile_stops hline hbreak).2
        rw [file_cons, emit, hwhole, heq, List.cons_append, parseRest_comment, hdrop,
          parse_after htail]
    · exact absurd hwhole hnot

lemma parse_file (hE : Lawful E good lost) (htail : tail = [] ∨ tail = ['\n'])
    (h : fineItems E good xs = true) :
    parseRest true (E.file tail xs) [done] = .ok (done ++ xs.filter (!isRemark E ·)) := by
  induction xs generalizing done with
  | nil =>
    rw [List.filter_nil, List.append_nil]
    rcases htail with rfl | rfl <;> rfl
  | cons x xs ih =>
    obtain ⟨hx, hxs⟩ := Bool.and_eq_true_iff.mp h
    cases hremark : isRemark E x with
    | false =>
      rw [parse_line hE htail hx hremark, ih hxs, List.filter_cons_of_pos (by simp [hremark]),
        List.append_assoc, List.singleton_append]
    | true =>
      rw [parse_remark hE htail hremark, ih hxs, List.filter_cons_of_neg (by simp [hremark])]

/-- A text that may have lost its place. -/
def isLost (lost : List Char → Bool) : SExpr → Bool
  | .atom s => lost s.toList
  | .list _ => false

lemma list_place {items : List SExpr} (h : parseRest b (E.emit (.list items) ++ rest)
    (top :: below) = .ok root) :
    ∃ items', Fits ((top ++ [.list items']) :: below) root := by
  rw [emit] at h
  split at h
  · rw [parse_declaration] at h
    exact ⟨_, fits_of_parse (List.cons_ne_nil _ _) h⟩
  · rw [List.cons_append, parseRest_open] at h
    obtain ⟨items', -, hfits⟩ := fits_of_parse (List.cons_ne_nil _ _) h
    exact ⟨items', hfits⟩

lemma lost_of_good (hE : Lawful E good lost) (hgood : good s.toList = true)
    (hlost : lost s.toList = true) : E.isComment s.toList = true := by
  rcases hE.written s.toList with ⟨hwrite, -, -, -, hhash⟩ | ⟨body, -, -, hread, -, -⟩
  · rw [hlost] at hhash
    simpa [isComment, hwrite] using hhash.symm
  · obtain ⟨hkept, -⟩ := hread hgood
    rw [hkept] at hlost
    cases hlost

lemma lost_of_remark (hE : Lawful E good lost) (hremark : E.isComment s.toList = true) :
    lost s.toList = true := by
  obtain ⟨hwhole, hhead⟩ := write_of_isComment hremark
  rcases hE.written s.toList with ⟨-, -, -, -, hhash⟩ | ⟨body, -, hnot, -, -, -⟩
  · rw [hhash, hhead]
    rfl
  · exact absurd hwhole hnot

/-- Forms that have lost their places are not found again further down. -/
lemma lost_place (hE : Lawful E good lost) (htail : tail = [] ∨ tail = ['\n'])
    {m : SExpr} {missing : List SExpr} (hlost : ∀ x ∈ m :: missing, isLost lost x = true) :
    parseRest true (E.file tail xs) [done] ≠ .ok (done ++ (m :: missing ++ xs)) := by
  induction xs generalizing done m missing with
  | nil =>
    have hend : parseRest true (E.file tail []) [done] = .ok done := by
      rcases htail with rfl | rfl <;> rfl
    rw [hend]
    intro h
    exact List.cons_ne_nil _ _ (List.append_right_eq_self.mp (Except.ok.inj h).symm)
  | cons y ys ih =>
    intro h
    have hm : Fits [done ++ [m]] (done ++ (m :: missing ++ y :: ys)) := ⟨missing ++ y :: ys, by simp⟩
    have hfirst := hlost m List.mem_cons_self
    cases y with
    | list items =>
      obtain ⟨items', hfits⟩ := list_place h
      cases fits_unique hm hfits
      cases hfirst
    | atom s =>
      cases hremark : E.isComment s.toList with
      | true =>
        -- The comment is one more form that is missing.
        rw [parse_remark (x := .atom s) hE htail hremark] at h
        have hrest : ∀ x ∈ m :: (missing ++ [.atom s]), isLost lost x = true := by
          intro x hx
          rw [← List.cons_append, List.mem_append, List.mem_singleton] at hx
          rcases hx with hx | rfl
          · exact hlost x hx
          · exact lost_of_remark hE hremark
        exact ih hrest (h.trans (by simp))
      | false =>
        cases hgood : good s.toList with
        | true =>
          rw [parse_line (x := .atom s) hE htail hgood hremark] at h
          cases fits_unique hm (fits_of_parse (List.cons_ne_nil _ _) h)
          rw [lost_of_good hE hgood hfirst] at hremark
          cases hremark
        | false =>
          -- What is read for the bad text must be the first of the missing forms.
          obtain ⟨r, rest', hparse, -, hstill⟩ := parse_other hE hgood h
          cases fits_unique hm (fits_of_parse (List.cons_ne_nil _ _) hparse)
          obtain ⟨rfl, hs⟩ := hstill hfirst
          have hnext : parseRest false (E.after tail ys) [done ++ [.atom r]] =
              .ok ((done ++ [.atom r]) ++ (missing ++ .atom s :: ys)) := hparse.trans (by simp)
          rw [parse_after htail] at hnext
          have hrest : ∀ x ∈ missing ++ [.atom s], isLost lost x = true := by
            intro x hx
            rw [List.mem_append, List.mem_singleton] at hx
            rcases hx with hx | rfl
            · exact hlost x (List.mem_cons_of_mem _ hx)
            · exact hs
          cases missing with
          | nil => exact ih hrest hnext
          | cons m' missing =>
            exact ih hrest (hnext.trans (by simp))

/-- The texts of a file that is read as it was are good, and no line looks like a comment. -/
lemma fine_of_file (hE : Lawful E good lost) (htail : tail = [] ∨ tail = ['\n'])
    (h : parseRest true (E.file tail xs) [done] = .ok (done ++ xs)) :
    fineItems E good xs = true ∧ ∀ x ∈ xs, isRemark E x = false := by
  induction xs generalizing done with
  | nil => exact ⟨rfl, fun x hx => (nomatch hx)⟩
  | cons x xs ih =>
    have hplace : Fits [done ++ [x]] (done ++ x :: xs) := ⟨xs, by simp⟩
    have hremark : isRemark E x = false := by
      by_contra hremark
      rw [Bool.not_eq_false] at hremark
      rw [parse_remark hE htail hremark] at h
      cases x with
      | list items => cases hremark
      | atom s =>
        have hlost : ∀ x ∈ [SExpr.atom s], isLost lost x = true := by
          intro x hx
          cases List.mem_singleton.mp hx
          exact lost_of_remark hE hremark
        exact lost_place hE htail hlost h
    have hx : fine E good x = true := by
      exact emit_fine hE x h hplace
    rw [parse_line hE htail hx hremark] at h
    obtain ⟨hxs, hremarks⟩ := ih (h.trans (by simp))
    exact ⟨Bool.and_eq_true_iff.mpr ⟨hx, hxs⟩, List.forall_mem_cons.mpr ⟨hremark, hremarks⟩⟩

/-- The trees that a file of this emitter keeps. -/
def keeps (E : Emitter) (good : List Char → Bool) (trees : List SExpr) : Bool :=
  fineItems E good trees && trees.all fun x => !isRemark E x

lemma parse_file_iff (hE : Lawful E good lost) (htail : tail = [] ∨ tail = ['\n']) :
    parseSExpr (String.ofList (E.file tail xs)) = .ok xs ↔ keeps E good xs = true := by
  have hparse : parseSExpr (String.ofList (E.file tail xs)) =
      parseRest true (E.file tail xs) [[]] := by
    rw [parseSExpr, String.toList_ofList]
    rfl
  rw [hparse, keeps, Bool.and_eq_true_iff, List.all_eq_true]
  constructor
  · intro h
    obtain ⟨hfine, hremark⟩ := fine_of_file hE htail (h.trans (by rw [List.nil_append]))
    exact ⟨hfine, fun x hx => by rw [hremark x hx]; rfl⟩
  · rintro ⟨hfine, hremark⟩
    rw [parse_file hE htail hfine, List.nil_append, List.filter_eq_self.mpr hremark]

end Emitter

end FabPcb.SExprEmitters
