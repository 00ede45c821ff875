import FabPcb.EmitterRoundTrip

/-!
Files whose names are written in quotation marks by their writer.

The texts of such a tree are the tokens of the file, quotation marks and all, and the blanks between
two tokens are one space. A token is legible if it ends where the reader ends it; then the file is
read as the tree of what the tokens say.
-/

namespace FabPcb.SExprSpelling

open SExprText SExprRoundTrip SExprEmitters

/-- What a token says. The quotation mark alone is a token too. -/
def spelled (t : List Char) : String :=
  match t with
  | [] => ""
  | c :: cs =>
    if c = dquote then ((readString cs).map fun r => String.ofList r.1).getD "\""
    else String.ofList (c :: cs)

mutual

def readBack : SExpr → SExpr
  | .atom s => .atom (spelled s.toList)
  | .list items => .list (readItems items)

def readItems : List SExpr → List SExpr
  | [] => []
  | x :: xs => readBack x :: readItems xs

end

/-- The tokens are written as they are. -/
def verbatim : Emitter where
  write s := s
  declares := false

/-- A token that ends where the reader ends it. -/
def isLegible (t : List Char) : Bool :=
  match t with
  | [] => false
  | c :: cs =>
    if c = dquote then !closesSoon cs && (readString cs).any fun r => r.2 = []
    else t.all isBare

mutual

def legible : SExpr → Bool
  | .atom s => isLegible s.toList
  | .list items => isMark items || legibleItems items

def legibleItems : List SExpr → Bool
  | [] => true
  | x :: xs => legible x && legibleItems xs

end

/-! ### One token -/

variable {cs t rest rest' : List Char} {s : String} {b : Bool} {stack below : List (List SExpr)}
  {top : List SExpr}

lemma readString_append (h : readString cs = some (t, rest)) :
    readString (cs ++ rest') = some (t, rest ++ rest') := by
  fun_induction readString cs generalizing t rest with
  | case1 => cases h
  | case2 cs =>
    cases h
    rfl
  | case3 c cs ih =>
    obtain ⟨r, hr, heq⟩ := Option.map_eq_some_iff.mp h
    cases heq
    have hstep : readString (backslash :: c :: (cs ++ rest')) =
        (readString (cs ++ rest')).map fun r => (c :: r.1, r.2) := rfl
    refine hstep.trans ?_
    rw [ih hr]
    rfl
  | case4 => cases h
  | case5 c cs hquote hback hlast ih =>
    obtain ⟨r, hr, heq⟩ := Option.map_eq_some_iff.mp h
    cases heq
    have hescape : c ≠ backslash := by
      rintro rfl
      cases cs with
      | nil => exact hlast rfl rfl
      | cons d cs => exact hback d cs rfl rfl
    rw [List.cons_append, readString_other hquote hescape, ih hr]
    rfl

lemma dquote_mem (h : readString cs = some (t, rest)) : dquote ∈ cs := by
  fun_induction readString cs generalizing t rest with
  | case1 => cases h
  | case2 cs => exact List.mem_cons_self
  | case3 c cs ih =>
    obtain ⟨r, hr, -⟩ := Option.map_eq_some_iff.mp h
    exact List.mem_cons_of_mem _ (List.mem_cons_of_mem _ (ih hr))
  | case4 => cases h
  | case5 c cs hquote hback hlast ih =>
    obtain ⟨r, hr, -⟩ := Option.map_eq_some_iff.mp h
    exact List.mem_cons_of_mem _ (ih hr)

lemma closesSoon_append (h : dquote ∈ cs) : closesSoon (cs ++ rest) = closesSoon cs := by
  unfold closesSoon
  generalize 3 = n
  induction cs generalizing n with
  | nil => cases h
  | cons c cs ih =>
    cases n with
    | zero => rfl
    | succ n =>
      rw [List.cons_append, List.take_succ_cons, List.take_succ_cons, List.dropWhile_cons,
        List.dropWhile_cons]
      cases hspace : isSpace c with
      | true =>
        refine ih ((List.mem_cons.mp h).resolve_left ?_) n
        rintro rfl
        cases hspace
      | false => rfl

lemma parse_token (h : isLegible s.toList = true) (hstop : Stops rest) :
    parseRest false (s.toList ++ rest) stack =
      parseRest false rest (push (.atom (spelled s.toList)) stack) := by
  cases hs : s.toList with
  | nil =>
    rw [hs] at h
    cases h
  | cons c cs =>
    rw [hs, isLegible] at h
    rw [spelled]
    by_cases hquote : c = dquote
    · rw [if_pos hquote, Bool.and_eq_true, Option.any_eq_true] at h
      obtain ⟨hsoon, ⟨text, left⟩, hread, hleft⟩ := h
      have hend : left = [] := of_decide_eq_true hleft
      subst hend
      have hclose : closesSoon (cs ++ rest) = false := by
        rw [closesSoon_append (dquote_mem hread)]
        simpa using hsoon
      rw [hquote, List.cons_append,
        parseRest_string hclose (readString_append hread), hread]
      rfl
    · rw [if_neg hquote, List.all_eq_true] at h
      rw [if_neg hquote]
      obtain ⟨htake, hdrop⟩ := takeWhile_stops (p := isBare)
        (fun d hd => h d (List.mem_cons_of_mem _ hd)) hstop
      have hline : ¬ (c = '#' ∧ false = true) := fun hc => Bool.false_ne_true hc.2
      rw [List.cons_append, parseRest_bare (h c List.mem_cons_self) hline, htake, hdrop]

/-! ### Trees of tokens -/

lemma parse_mark : parseRest b (verbatim.emit (.list [.atom "string_quote", .atom "\""]) ++ rest)
    (top :: below) =
      parseRest false rest ((top ++ [.list [.atom "string_quote", .atom "\""]]) :: below) :=
  Emitter.parse_declaration

mutual

lemma parse_tree (x : SExpr) (hx : legible x = true) {rest : List Char} (hstop : Stops rest)
    {below : List (List SExpr)} {top : List SExpr} :
    parseRest false (verbatim.emit x ++ rest) (top :: below) =
      parseRest false rest ((top ++ [readBack x]) :: below) := by
  cases x with
  | atom s => exact parse_token hx hstop
  | list items =>
    rw [legible, Bool.or_eq_true] at hx
    rcases hx with hmark | hitems
    · rw [isMark_iff.mp hmark]
      exact parse_mark
    · have hplain : ¬ (verbatim.declares && isDeclaration items) = true := Bool.false_ne_true
      rw [Emitter.emit, if_neg hplain, List.cons_append, List.append_assoc, parseRest_open]
      exact parse_trees items hitems []

lemma parse_trees (xs : List SExpr) (hxs : legibleItems xs = true) (done : List SExpr)
    {rest : List Char} {below : List (List SExpr)} {top : List SExpr} :
    parseRest false (verbatim.emitItems xs ++ ([')'] ++ rest)) (done :: top :: below) =
      parseRest false rest ((top ++ [.list (done ++ readItems xs)]) :: below) := by
  cases xs with
  | nil =>
    rw [readItems, List.append_nil]
    rfl
  | cons x xs =>
    obtain ⟨hx, hxs⟩ := Bool.and_eq_true_iff.mp hxs
    rw [Emitter.emitItems, List.append_assoc, parse_tree x hx Emitter.stops_rest,
      Emitter.parse_emitRest, parse_trees xs hxs (done ++ [readBack x]), List.append_assoc,
      List.singleton_append, readItems]

end

/-- The text of a file of one form. -/
def text (items : List SExpr) : String := String.ofList (verbatim.emit (.list items) ++ ['\n'])

/-- **A legible file** is read as the form of what its tokens say. -/
theorem parse_text {items : List SExpr} (h : legible (.list items) = true) :
    parseSExpr (text items) = .ok [.list (readItems items)] := by
  have hstop : Stops ['\n'] := fun c hc => by
    cases hc
    rfl
  have hstart : parseSExpr (text items) =
      parseRest true (verbatim.emit (.list items) ++ ['\n']) [[]] := by
    rw [parseSExpr, text, String.toList_ofList]
    rfl
  have hopen : parseRest true (verbatim.emit (.list items) ++ ['\n']) [[]] =
      parseRest false (verbatim.emit (.list items) ++ ['\n']) [[]] := rfl
  rw [hstart, hopen, parse_tree (.list items) h hstop]
  rfl

lemma readItems_eq_map (xs : List SExpr) : readItems xs = xs.map readBack := by
  induction xs with
  | nil => rfl
  | cons x xs ih => rw [readItems, ih, List.map_cons]

lemma spelled_plain {s : String} (h : isPlain s.toList = true) : spelled s.toList = s := by
  obtain ⟨c, cs, hs, hall⟩ := isPlain_iff.mp h
  have hquote : c ≠ dquote := by
    rintro rfl
    exact absurd (hall _ List.mem_cons_self).1 (by decide)
  rw [hs, spelled, if_neg hquote, ← hs, String.ofList_toList]

end FabPcb.SExprSpelling
