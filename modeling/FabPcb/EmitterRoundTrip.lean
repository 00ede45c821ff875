import FabPcb.SExprEmitters

/-!
The emitters that write a parsed file again, and which trees survive them.

The rewriters of DSN files quote a text that has a space, a parenthesis, an apostrophe or a semicolon,
with apostrophes for its quotation marks and with its backslashes as they are. The session filter
writes JSON strings, whose control characters the reader does not know.
-/

namespace FabPcb.EmitterRoundTrip

open SExprText SExprRoundTrip SExprEmitters

/-! ### The emitters -/

/-- A text that the parser of Specctra files would split. -/
def needsQuotes (s : List Char) : Bool := s.any fun c => !isBare c || c = '\'' || c = ';'

def apostrophe (c : Char) : Char := if c = dquote then '\'' else c

/-- `quote` -/
def quote (s : List Char) : List Char :=
  if s = [] then [dquote, dquote]
  else if needsQuotes s then dquote :: (s.map apostrophe ++ [dquote])
  else s

/-- `emit` of `overlayDsnRules` and of `drillClearanceDsn`. -/
def quoting : Emitter where
  write := quote
  declares := true

/-- `emit` of `filterSessionCopper`. -/
def json : Emitter where
  write s := if isPlain s then s else jsonText s
  declares := false

/-- The forms of a file on lines of their own. -/
def lines (E : Emitter) (trees : List SExpr) : List Char :=
  List.intercalate ['\n'] (trees.map E.emit)

lemma file_eq (E : Emitter) (tail : List Char) (trees : List SExpr) :
    E.file tail trees = lines E trees ++ tail := by
  induction trees with
  | nil => rfl
  | cons x xs ih =>
    rw [Emitter.file, ih]
    cases xs with
    | nil => simp [lines, List.intercalate]
    | cons y ys => simp [lines, List.intercalate]

mutual

lemma emit_json (x : SExpr) : SExprText.emit x = json.emit x := by
  cases x with
  | atom s => rfl
  | list items =>
    rw [SExprText.emit, Emitter.emit, emitItems_json items]
    rfl

lemma emitItems_json (xs : List SExpr) : SExprText.emitItems xs = json.emitItems xs := by
  cases xs with
  | nil => rfl
  | cons x xs => rw [SExprText.emitItems, Emitter.emitItems, emit_json x, emitRest_json xs]

lemma emitRest_json (xs : List SExpr) : SExprText.emitRest xs = json.emitRest xs := by
  cases xs with
  | nil => rfl
  | cons x xs => rw [SExprText.emitRest, Emitter.emitRest, emit_json x, emitRest_json xs]

end

lemma emitLines_json (trees : List SExpr) : emitLines trees = json.file ['\n'] trees := by
  rw [file_eq, emitLines]
  congr 2
  exact List.map_congr_left fun x _ => emit_json x

/-! ### Quotation marks around a text -/

variable {c : Char} {s t rest rest' : List Char}

lemma closesSoon_body : closesSoon (s.map apostrophe ++ dquote :: rest) = closesSoon s := by
  unfold closesSoon
  generalize 3 = n
  induction s generalizing n with
  | nil => cases n <;> rfl
  | cons c s ih =>
    cases n with
    | zero => rfl
    | succ n =>
      have hspace : isSpace (apostrophe c) = isSpace c := by
        unfold apostrophe
        split
        next h =>
          subst h
          rfl
        · rfl
      have hclose : decide (some (apostrophe c) = some ')') = decide (some c = some ')') := by
        unfold apostrophe
        split
        next h =>
          subst h
          rfl
        · rfl
      rw [List.map_cons, List.cons_append, List.take_succ_cons, List.take_succ_cons,
        List.dropWhile_cons, List.dropWhile_cons, hspace]
      split
      · exact ih n
      · exact hclose

lemma apostrophe_ne_dquote : apostrophe c ≠ dquote := by
  unfold apostrophe
  split
  · decide
  · assumption

lemma apostrophe_eq_backslash : apostrophe c = backslash ↔ c = backslash := by
  unfold apostrophe
  split
  next h =>
    subst h
    decide
  · exact Iff.rfl

lemma readString_body_cons (hback : c ≠ backslash)
    (h : readString ((c :: s).map apostrophe ++ dquote :: rest) = some (t, rest')) :
    ∃ t', t = apostrophe c :: t' ∧
      readString (s.map apostrophe ++ dquote :: rest) = some (t', rest') := by
  rw [List.map_cons, List.cons_append,
    readString_other apostrophe_ne_dquote (mt apostrophe_eq_backslash.mp hback)] at h
  obtain ⟨q, hq, heq⟩ := Option.map_eq_some_iff.mp h
  cases heq
  exact ⟨q.1, rfl, hq⟩

lemma readString_body_escape
    (h : readString ((backslash :: s).map apostrophe ++ dquote :: rest) = some (t, rest')) :
    (s = [] ∧ ∃ t', t = dquote :: t') ∨
      ∃ d s' t', s = d :: s' ∧ t = apostrophe d :: t' ∧
        readString (s'.map apostrophe ++ dquote :: rest) = some (t', rest') := by
  cases s with
  | nil =>
    have hstep : (readString rest).map (fun r => (dquote :: r.1, r.2)) = some (t, rest') := h
    obtain ⟨q, -, heq⟩ := Option.map_eq_some_iff.mp hstep
    cases heq
    exact Or.inl ⟨rfl, q.1, rfl⟩
  | cons d s' =>
    have hstep : (readString (s'.map apostrophe ++ dquote :: rest)).map
        (fun r => (apostrophe d :: r.1, r.2)) = some (t, rest') := h
    obtain ⟨q, hq, heq⟩ := Option.map_eq_some_iff.mp hstep
    cases heq
    exact Or.inr ⟨d, s', q.1, rfl, rfl, hq⟩

/-- A body is never read as itself with backslashes before it. -/
lemma readString_ne_backslashes (k : ℕ)
    (h : readString (s.map apostrophe ++ dquote :: rest) = some (t, rest')) :
    t ≠ List.replicate (k + 1) backslash ++ s := by
  induction hn : s.length using Nat.strongRecOn generalizing s t k with
  | _ n ih =>
    intro heq
    cases s with
    | nil =>
      cases h
      cases heq
    | cons c s =>
      by_cases hback : c = backslash
      · subst hback
        obtain ⟨-, t', rfl⟩ | ⟨d, s', t', rfl, rfl, hread⟩ := readString_body_escape h
        · cases heq
        · obtain ⟨hd, htail⟩ := List.cons.inj heq
          have hshort : s'.length < n := by
            rw [← hn, List.length_cons, List.length_cons]
            omega
          refine ih s'.length hshort (k + 1) hread rfl ?_
          rw [htail, apostrophe_eq_backslash.mp hd, List.replicate_succ', List.replicate_succ']
          simp
      · obtain ⟨t', rfl, -⟩ := readString_body_cons hback h
        exact hback (apostrophe_eq_backslash.mp (List.cons.inj heq).1)

lemma readString_body_self
    (h : readString (s.map apostrophe ++ dquote :: rest) = some (s, rest')) :
    ∀ c ∈ s, c ≠ dquote ∧ c ≠ backslash := by
  induction s with
  | nil => exact nofun
  | cons c s ih =>
    by_cases hback : c = backslash
    · subst hback
      obtain ⟨-, t', heq⟩ | ⟨d, s', t', rfl, heq, hread⟩ := readString_body_escape h
      · cases heq
      · obtain ⟨hd, rfl⟩ := List.cons.inj heq
        rw [apostrophe_eq_backslash.mp hd.symm] at hread
        exact absurd rfl (readString_ne_backslashes 0 hread)
    · obtain ⟨t', heq, hread⟩ := readString_body_cons hback h
      obtain ⟨hc, rfl⟩ := List.cons.inj heq
      have hquote : c ≠ dquote := fun hquote => apostrophe_ne_dquote (hc ▸ hquote)
      exact List.forall_mem_cons.mpr ⟨⟨hquote, hback⟩, ih hread⟩

lemma readString_body (h : ∀ c ∈ s, c ≠ dquote ∧ c ≠ backslash) :
    readString (s.map apostrophe ++ dquote :: rest) = some (s, rest) := by
  induction s with
  | nil => rfl
  | cons c s ih =>
    obtain ⟨⟨hquote, hback⟩, hs⟩ := List.forall_mem_cons.mp h
    have hc : apostrophe c = c := if_neg hquote
    rw [List.map_cons, hc, List.cons_append, readString_other hquote hback, ih hs]
    rfl

/-- Whatever is read has the body's characters, but for backslashes. -/
lemma mem_of_readString_body (hc : c ∈ s) (hback : c ≠ backslash)
    (h : readString (s.map apostrophe ++ dquote :: rest) = some (t, rest')) :
    apostrophe c ∈ t := by
  induction hn : s.length using Nat.strongRecOn generalizing s t with
  | _ n ih =>
    cases s with
    | nil => cases hc
    | cons d s =>
      by_cases hd : d = backslash
      · subst hd
        have hc := (List.mem_cons.mp hc).resolve_left hback
        obtain ⟨rfl, -⟩ | ⟨d, s', t', rfl, rfl, hread⟩ := readString_body_escape h
        · cases hc
        · rcases List.mem_cons.mp hc with rfl | hc
          · exact List.mem_cons_self
          · have hshort : s'.length < n := by
              rw [← hn, List.length_cons, List.length_cons]
              omega
            exact List.mem_cons_of_mem _ (ih s'.length hshort hc hread rfl)
      · obtain ⟨t', rfl, hread⟩ := readString_body_cons hd h
        rcases List.mem_cons.mp hc with rfl | hc
        · exact List.mem_cons_self
        · have hshort : s.length < n := by
            rw [← hn, List.length_cons]
            omega
          exact List.mem_cons_of_mem _ (ih s.length hshort hc hread rfl)

/-- A text that the quoting emitter keeps. -/
def isKept (s : List Char) : Bool :=
  !needsQuotes s || (s.all (fun c => c ≠ dquote && c ≠ backslash) && !closesSoon s)

/-- A text that the quoting emitter writes as it is, and that can be a comment. -/
def isStray (s : List Char) : Bool := !needsQuotes s && s.head? = some '#'

lemma bare_of_needsQuotes (h : needsQuotes s = false) : ∀ c ∈ s, isBare c = true := by
  simp only [needsQuotes, List.any_eq_false] at h
  intro c hc
  by_contra hbare
  exact h c hc (by simp [hbare])

lemma isKept_iff (hneeds : needsQuotes s = true) : isKept s = true ↔
    (∀ c ∈ s, c ≠ dquote ∧ c ≠ backslash) ∧ closesSoon s = false := by
  simp [isKept, hneeds]

lemma needsQuotes_of_readString (hneeds : needsQuotes s = true)
    (h : readString (s.map apostrophe ++ dquote :: rest) = some (t, rest')) :
    needsQuotes t = true := by
  obtain ⟨c, hc, hsplit⟩ := List.any_eq_true.mp hneeds
  have hback : c ≠ backslash := by
    rintro rfl
    exact absurd hsplit (by decide)
  refine List.any_eq_true.mpr ⟨apostrophe c, mem_of_readString_body hc hback h, ?_⟩
  unfold apostrophe
  split
  · decide
  · exact hsplit

lemma quoting_written (s : List Char) : quoting.Written isKept isStray s := by
  by_cases hnil : s = []
  · subst hnil
    exact .quoted [] rfl (by decide) (fun _ => ⟨rfl, fun rest => ⟨rfl, rfl⟩⟩)
      (fun h => absurd h (by decide)) fun h => absurd h (by decide)
  cases hneeds : needsQuotes s with
  | false =>
    have hwrite : quoting.write s = s := by
      change quote s = s
      rw [quote, if_neg hnil, hneeds, if_neg (by decide)]
    exact .bare hwrite hnil (bare_of_needsQuotes hneeds) (by simp [isKept, hneeds])
      (by simp [isStray, hneeds])
  | true =>
    have hwrite : quoting.write s = dquote :: (s.map apostrophe ++ [dquote]) := by
      change quote s = _
      rw [quote, if_neg hnil, hneeds, if_pos rfl]
    refine .quoted (s.map apostrophe) hwrite (fun hwhole => ?_) (fun hkept => ?_)
      (fun _ rest hsoon => ?_) fun hbad rest t rest' hsoon hread => ⟨?_, fun hstray => ?_⟩
    · have hlength := congrArg List.length (hwrite.symm.trans hwhole)
      simp only [List.length_cons, List.length_append, List.length_map, List.length_nil] at hlength
      omega
    · obtain ⟨hchars, hsoon⟩ := (isKept_iff hneeds).mp hkept
      refine ⟨by simp [isStray, hneeds], fun rest => ⟨?_, readString_body hchars⟩⟩
      rw [closesSoon_body, hsoon]
    · rintro rfl
      rw [closesSoon_body] at hsoon
      exact absurd hsoon (by decide)
    · rintro rfl
      rw [closesSoon_body] at hsoon
      rw [(isKept_iff hneeds).mpr ⟨readString_body_self hread, hsoon⟩] at hbad
      cases hbad
    · rw [isStray, needsQuotes_of_readString hneeds hread] at hstray
      cases hstray

lemma quoting_lawful : quoting.Lawful isKept isStray where
  written := quoting_written
  quote_kept := by decide

/-! ### JSON strings -/

/-- What the reader makes of a character in a JSON string. -/
def unescaped (c : Char) : List Char := if 32 ≤ c.toNat then [c] else (jsonChar c).tail

/-- The escape of a control character. -/
lemma jsonChar_control (h : ¬ 32 ≤ c.toNat) : ∃ x more, jsonChar c = backslash :: x :: more ∧
    32 ≤ x.toNat ∧ ∀ d ∈ more, 32 ≤ d.toNat ∧ d ≠ dquote ∧ d ≠ backslash := by
  have hall : ∀ n < 32, (jsonChar (Char.ofNat n)).head? = some backslash ∧
      2 ≤ (jsonChar (Char.ofNat n)).length ∧
      ((jsonChar (Char.ofNat n)).tail.head?.all fun d => 32 ≤ d.toNat) = true ∧
      ((jsonChar (Char.ofNat n)).tail.tail.all fun d =>
        32 ≤ d.toNat ∧ d ≠ dquote ∧ d ≠ backslash) = true := by
    decide
  have hc := hall c.toNat (by omega)
  rw [Char.ofNat_toNat] at hc
  obtain ⟨hhead, hlength, hsecond, hmore⟩ := hc
  match hjson : jsonChar c with
  | [] => rw [hjson] at hlength; exact absurd hlength (by decide)
  | [_] => rw [hjson] at hlength; exact absurd hlength (Nat.not_succ_le_self 1)
  | a :: x :: more =>
    rw [hjson] at hhead hsecond hmore
    cases hhead
    exact ⟨x, more, rfl, of_decide_eq_true hsecond,
      fun d hd => of_decide_eq_true (List.all_eq_true.mp hmore d hd)⟩

lemma unescaped_printable : ∀ d ∈ unescaped c, 32 ≤ d.toNat := by
  unfold unescaped
  split
  next h => simpa using h
  next h =>
    obtain ⟨x, more, hjson, hx, hmore⟩ := jsonChar_control h
    rw [hjson]
    exact List.forall_mem_cons.mpr ⟨hx, fun d hd => (hmore d hd).1⟩

lemma readString_append {u cs : List Char} (hu : ∀ d ∈ u, d ≠ dquote ∧ d ≠ backslash) :
    readString (u ++ cs) = (readString cs).map fun r => (u ++ r.1, r.2) := by
  induction u with
  | nil => cases hread : readString cs <;> simp [hread]
  | cons d u ih =>
    obtain ⟨⟨hquote, hback⟩, hu⟩ := List.forall_mem_cons.mp hu
    rw [List.cons_append, readString_other hquote hback, ih hu, Option.map_map]
    rfl

lemma readString_jsonChar {cs : List Char} : readString (jsonChar c ++ cs) =
    (readString cs).map fun r => (unescaped c ++ r.1, r.2) := by
  unfold unescaped
  split
  next h =>
    rw [jsonChar_printable h]
    split
    · rfl
    next hnot =>
      obtain ⟨hquote, hback⟩ := not_or.mp hnot
      exact readString_other hquote hback
  next h =>
    obtain ⟨x, more, hjson, -, hmore⟩ := jsonChar_control h
    have hstep : readString (backslash :: x :: (more ++ cs)) =
        (readString (more ++ cs)).map fun r => (x :: r.1, r.2) := rfl
    rw [hjson, List.cons_append, List.cons_append, hstep,
      readString_append fun d hd => (hmore d hd).2, Option.map_map]
    rfl

lemma readString_jsonText : readString (s.flatMap jsonChar ++ dquote :: rest) =
    some (s.flatMap unescaped, rest) := by
  induction s with
  | nil => rfl
  | cons c s ih =>
    rw [List.flatMap_cons, List.append_assoc, readString_jsonChar, ih]
    rfl

lemma length_le_json : s.length ≤ (s.flatMap jsonChar).length := by
  induction s with
  | nil => exact Nat.le_refl _
  | cons c s ih =>
    have hc : 1 ≤ (jsonChar c).length := by
      unfold jsonChar
      split_ifs <;> simp
    rw [List.flatMap_cons, List.length_append, List.length_cons]
    omega

/-- A text that the session filter writes as it is and that can be a comment, or one with a control
character between quotation marks. -/
def isSpoilt (s : List Char) : Bool :=
  if isPlain s then s.head? = some '#' else s.any fun c => c.toNat < 32

lemma isReadable_iff (hplain : isPlain s = false) : isReadable s = true ↔
    (∀ c ∈ s, 32 ≤ c.toNat) ∧ closesSoon s = false := by
  simp [isReadable, hplain]

lemma json_written (s : List Char) : json.Written isReadable isSpoilt s := by
  cases hplain : isPlain s with
  | true =>
    have hwrite : json.write s = s := if_pos hplain
    obtain ⟨c, t, rfl, hall⟩ := isPlain_iff.mp hplain
    exact .bare hwrite (List.cons_ne_nil c t) (fun d hd => (hall d hd).1)
      (by simp [isReadable, hplain]) (by simp [isSpoilt, hplain])
  | false =>
    have hwrite : json.write s = jsonText s := if_neg (by simp [hplain])
    have hspoilt : isSpoilt s = s.any fun c => c.toNat < 32 := if_neg (by simp [hplain])
    refine .quoted (s.flatMap jsonChar) hwrite (fun hwhole => ?_) (fun hkept => ?_)
      (fun _ rest hsoon => ?_) fun hbad rest t rest' hsoon hread => ?_
    · have hlength := congrArg List.length (hwrite.symm.trans hwhole)
      have hlong := length_le_json (s := s)
      rw [jsonText, List.length_cons, List.length_append] at hlength
      omega
    · obtain ⟨hchars, hsoon⟩ := (isReadable_iff hplain).mp hkept
      refine ⟨?_, fun rest => ⟨?_, readString_json hchars⟩⟩
      · rw [hspoilt, List.any_eq_false]
        intro c hc
        have hlarge := hchars c hc
        simp only [decide_eq_true_eq]
        omega
      · rw [closesSoon_json hchars, hsoon]
    · rintro rfl
      have hquoted : closesSoon (backslash :: dquote :: dquote :: rest) = true := hsoon
      exact absurd hquoted Bool.false_ne_true
    · rw [readString_jsonText] at hread
      cases hread
      by_cases hchars : ∀ c ∈ s, 32 ≤ c.toNat
      · rw [closesSoon_json hchars] at hsoon
        rw [(isReadable_iff hplain).mpr ⟨hchars, hsoon⟩] at hbad
        cases hbad
      · push Not at hchars
        obtain ⟨c, hc, hsmall⟩ := hchars
        refine ⟨fun heq => ?_, fun _ => ⟨rfl, ?_⟩⟩
        · rw [← heq] at hc
          obtain ⟨d, -, hd⟩ := List.mem_flatMap.mp hc
          have hlarge := unescaped_printable c hd
          omega
        · rw [hspoilt]
          exact List.any_eq_true.mpr ⟨c, hc, by simpa using hsmall⟩

lemma json_lawful : json.Lawful isReadable isSpoilt where
  written := json_written
  quote_kept := by decide

/-! ### Which trees survive -/

lemma isComment_eq {E : Emitter} {good lost : List Char → Bool} (hE : E.Lawful good lost)
    (s : String) : E.isComment s.toList = (good s.toList && lost s.toList) := by
  rw [Bool.eq_iff_iff, Bool.and_eq_true_iff]
  refine ⟨fun h => ⟨?_, Emitter.lost_of_remark hE h⟩, fun h => Emitter.lost_of_good hE h.1 h.2⟩
  obtain ⟨hwhole, -⟩ := Emitter.write_of_isComment h
  rcases hE.written s.toList with ⟨-, -, -, hgood, -⟩ | ⟨body, -, hnot, -, -, -⟩
  · exact hgood
  · exact absurd hwhole hnot

/-- Every text of a tree is kept, and every declaration of the quotation mark is the usual one. -/
def isQuotable (x : SExpr) : Bool := quoting.fine isKept x

/-- A bare text on a line of its own that is taken for a comment. -/
def isStrayLine : SExpr → Bool
  | .atom s => isStray s.toList
  | .list _ => false

lemma isRemark_quoting (x : SExpr) : quoting.isRemark x = isStrayLine x := by
  cases x with
  | list items => rfl
  | atom s =>
    rw [Emitter.isRemark, isComment_eq quoting_lawful, isStrayLine]
    cases hneeds : needsQuotes s.toList <;> simp [isKept, isStray, hneeds]

lemma isRemark_json (x : SExpr) : json.isRemark x = SExprRoundTrip.isRemark x := by
  cases x with
  | list items => rfl
  | atom s =>
    rw [Emitter.isRemark, isComment_eq json_lawful, SExprRoundTrip.isRemark,
      SExprRoundTrip.isComment]
    cases hplain : isPlain s.toList with
    | true => simp [isReadable, isSpoilt, hplain]
    | false =>
      -- A readable text has no control characters.
      simp only [isReadable, isSpoilt, hplain, Bool.false_or, Bool.false_and, Bool.false_eq_true,
        if_false]
      rw [Bool.and_eq_false_iff, or_iff_not_imp_left]
      intro h
      simp only [Bool.not_eq_false, Bool.and_eq_true, List.all_eq_true, decide_eq_true_eq] at h
      rw [List.any_eq_false]
      intro c hc
      have hlarge := h.1 c hc
      simp only [decide_eq_true_eq]
      omega

mutual

lemma fine_json (x : SExpr) : json.fine isReadable x = true ↔ Readable x := by
  cases x with
  | atom s => simp [Emitter.fine, Readable, texts]
  | list items =>
    rw [readable_list, ← fineItems_json items, Emitter.fine]
    rfl

lemma fineItems_json (xs : List SExpr) :
    json.fineItems isReadable xs = true ↔ ∀ x ∈ xs, Readable x := by
  cases xs with
  | nil => exact ⟨fun _ x hx => (nomatch hx), fun _ => rfl⟩
  | cons x xs =>
    rw [Emitter.fineItems, Bool.and_eq_true_iff, fine_json x, fineItems_json xs,
      List.forall_mem_cons]

end

lemma fineItems_iff {E : Emitter} {good : List Char → Bool} {xs : List SExpr} :
    E.fineItems good xs = true ↔ ∀ x ∈ xs, E.fine good x = true := by
  induction xs with
  | nil => exact ⟨fun _ x hx => (nomatch hx), fun _ => rfl⟩
  | cons x xs ih => rw [Emitter.fineItems, Bool.and_eq_true_iff, ih, List.forall_mem_cons]

lemma parse_lines_iff {E : Emitter} {good lost : List Char → Bool} (hE : E.Lawful good lost)
    {tail : List Char} (htail : tail = [] ∨ tail = ['\n']) (trees : List SExpr) :
    parseSExpr (String.ofList (lines E trees ++ tail)) = .ok trees ↔
      ∀ x ∈ trees, E.fine good x = true ∧ E.isRemark x = false := by
  rw [← file_eq, Emitter.parse_file_iff hE htail, Emitter.keeps, Bool.and_eq_true_iff,
    fineItems_iff, List.all_eq_true]
  simp only [Bool.not_eq_true']
  exact forall₂_and.symm

/-- **Round trips of the rewriters.** Each of the texts that they write is read as the trees that it
was written for exactly if every text in them is one that the emitter keeps, no form of the file
looks like a comment and, with the quoting emitter, a declaration of the quotation mark declares
nothing else. -/
theorem round_trip_iff (trees : List SExpr) :
    (parseSExpr (String.ofList (lines quoting trees)) = .ok trees ↔
        ∀ x ∈ trees, isQuotable x = true ∧ isStrayLine x = false) ∧
      (parseSExpr (String.ofList (lines quoting trees ++ ['\n'])) = .ok trees ↔
        ∀ x ∈ trees, isQuotable x = true ∧ isStrayLine x = false) ∧
      (parseSExpr (String.ofList (emitLines trees)) = .ok trees ↔
        ∀ x ∈ trees, Readable x ∧ SExprRoundTrip.isRemark x = false) := by
  have hquoting : (∀ x ∈ trees, quoting.fine isKept x = true ∧ quoting.isRemark x = false) ↔
      ∀ x ∈ trees, isQuotable x = true ∧ isStrayLine x = false := by
    simp [isRemark_quoting, isQuotable]
  have hjson : (∀ x ∈ trees, json.fine isReadable x = true ∧ json.isRemark x = false) ↔
      ∀ x ∈ trees, Readable x ∧ SExprRoundTrip.isRemark x = false := by
    simp [isRemark_json, fine_json]
  refine ⟨?_, ?_, ?_⟩
  · have hopen := parse_lines_iff quoting_lawful (Or.inl rfl) trees
    rw [List.append_nil] at hopen
    exact hopen.trans hquoting
  · exact (parse_lines_iff quoting_lawful (Or.inr rfl) trees).trans hquoting
  · rw [emitLines_json, file_eq]
    exact (parse_lines_iff json_lawful (Or.inr rfl) trees).trans hjson

/-- In a text that the quoting emitter writes a quotation mark becomes an apostrophe, and a backslash
is gone; with the session filter a line break becomes the letter of its escape. -/
theorem not_round_trip :
    (parseSExpr (String.ofList (lines quoting [.atom "6\" pad"])) = .ok [.atom "6' pad"] ∧
      parseSExpr (String.ofList (lines quoting [.atom "a\\ b"] ++ ['\n'])) = .ok [.atom "a b"] ∧
      parseSExpr (String.ofList (emitLines [.atom "a\nb"])) = .ok [.atom "anb"]) ∧
      ¬ (∀ trees, parseSExpr (String.ofList (lines quoting trees)) = .ok trees) ∧
      ¬ (∀ trees, parseSExpr (String.ofList (lines quoting trees ++ ['\n'])) = .ok trees) ∧
      ¬ ∀ trees, parseSExpr (String.ofList (emitLines trees)) = .ok trees := by
  have hquote : parseSExpr (String.ofList (lines quoting [.atom "6\" pad"])) =
      .ok [.atom "6' pad"] := by rfl
  have hback : parseSExpr (String.ofList (lines quoting [.atom "a\\ b"] ++ ['\n'])) =
      .ok [.atom "a b"] := by rfl
  have hbreak : parseSExpr (String.ofList (emitLines [.atom "a\nb"])) = .ok [.atom "anb"] := by rfl
  refine ⟨⟨hquote, hback, hbreak⟩, fun h => ?_, fun h => ?_, fun h => ?_⟩
  · have heq := hquote.symm.trans (h _)
    simp at heq
  · have heq := hback.symm.trans (h _)
    simp at heq
  · have heq := hbreak.symm.trans (h _)
    simp at heq

end FabPcb.EmitterRoundTrip
