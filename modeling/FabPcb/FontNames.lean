import FabPcb.EventStream
import FabPcb.NngFraming
import FabPcb.OrderedMap

/-!
The names of a font, as they are read out of the bytes of its file.

A read outside of the file is an error that escapes. The offsets come from the file itself; a table
that does not fit gives no names, and a record or a text that does not fit is left out.
-/

namespace FabPcb.FontNames

open EventStream (Text text isSpace)
open NngFraming (Bytes)
open OrderedMap

/-! ### `DataView` -/

/-- What a read outside of the bytes throws. -/
inductive RangeError
  | outside (offset : ℕ)
  deriving DecidableEq

def byteAt (data : Bytes) (i : ℕ) : ℕ := (data.getD i 0).toNat

def u16 (data : Bytes) (i : ℕ) : ℕ := byteAt data i * 256 + byteAt data (i + 1)

def u32 (data : Bytes) (i : ℕ) : ℕ := u16 data i * 65536 + u16 data (i + 2)

def getUint16 (data : Bytes) (i : ℕ) : Except RangeError ℕ :=
  if i + 2 ≤ data.length then .ok (u16 data i) else .error (.outside i)

def getUint32 (data : Bytes) (i : ℕ) : Except RangeError ℕ :=
  if i + 4 ≤ data.length then .ok (u32 data i) else .error (.outside i)

/-! ### Texts -/

/-- Two bytes a unit, a last one alone left out. -/
def utf16 : Bytes → Text
  | a :: b :: rest => (a.toNat * 256 + b.toNat) :: utf16 rest
  | [_] => []
  | [] => []

/-- What the bytes from 0x80 to 0x9F are, as `latin1` is decoded. -/
def latin1Table : List ℕ :=
  [0x20AC, 0x81, 0x201A, 0x0192, 0x201E, 0x2026, 0x2020, 0x2021, 0x02C6, 0x2030, 0x0160, 0x2039,
    0x0152, 0x8D, 0x017D, 0x8F, 0x90, 0x2018, 0x2019, 0x201C, 0x201D, 0x2022, 0x2013, 0x2014,
    0x02DC, 0x2122, 0x0161, 0x203A, 0x0153, 0x9D, 0x017E, 0x0178]

def latin1 (bytes : Bytes) : Text :=
  bytes.map fun b =>
    if 0x80 ≤ b.toNat ∧ b.toNat < 0xA0 then latin1Table.getD (b.toNat - 0x80) 0 else b.toNat

def trim (t : Text) : Text := ((t.dropWhile isSpace).reverse.dropWhile isSpace).reverse

/-- The text of a record: UTF-16 on Windows and for Unicode, without zeros and outer blanks. -/
def decode (platformId : ℕ) (bytes : Bytes) : Text :=
  let t := if platformId = 3 ∨ platformId = 0 then utf16 bytes else latin1 bytes
  trim (t.filter (· != 0))

/-! ### `readFontNames` -/

structure Best where
  score : ℕ
  text : Text
  deriving DecidableEq

structure Names where
  family : Text
  style : Text
  deriving DecidableEq

/-- `0x00010000`, `OTTO`, `true` and `typ1` -/
def tags : List ℕ := [0x00010000, 0x4f54544f, 0x74727565, 0x74797031]

/-- Where the table of names is, of the `n` tables from `i` on; `none` when one does not fit. -/
def findName (data : Bytes) : ℕ → ℕ → Except RangeError (Option (Option ℕ))
  | 0, _ => .ok (some none)
  | n + 1, i =>
    let entry := 12 + i * 16
    if entry + 16 > data.length then .ok none
    else do
      if (← getUint32 data entry) = 0x6e616d65 then
        return some (some (← getUint32 data (entry + 8)))
      else findName data n (i + 1)

/-- Windows before the others, and what is English. -/
def scoreOf (platformId languageId : ℕ) : ℕ :=
  (if platformId = 3 then 2 else 1) + if languageId = 0x409 ∨ languageId = 0 then 1 else 0

/-- Kept if it is the first for its name, or better than the one there. -/
def improve (best : OMap ℕ Best) (nameId : ℕ) (b : Best) : OMap ℕ Best :=
  match best.get? nameId with
  | none => best.set nameId b
  | some prev => if b.score > prev.score then best.set nameId b else best

/-- One record, which fits. -/
def readRecord (data : Bytes) (stringOffset entry : ℕ) (best : OMap ℕ Best) :
    Except RangeError (OMap ℕ Best) := do
  let platformId ← getUint16 data entry
  let languageId ← getUint16 data (entry + 4)
  let nameId ← getUint16 data (entry + 6)
  if nameId ≠ 1 ∧ nameId ≠ 2 then return best
  let length ← getUint16 data (entry + 8)
  let offset := stringOffset + (← getUint16 data (entry + 10))
  if offset + length > data.length then return best
  let text := decode platformId ((data.drop offset).take length)
  if text = [] then return best
  return improve best nameId ⟨scoreOf platformId languageId, text⟩

/-- The `n` records from `i` on, up to one that does not fit. -/
def readRecords (data : Bytes) (nameOffset stringOffset : ℕ) :
    ℕ → ℕ → OMap ℕ Best → Except RangeError (OMap ℕ Best)
  | 0, _, best => .ok best
  | n + 1, i, best =>
    let entry := nameOffset + 6 + i * 12
    if entry + 12 > data.length then .ok best
    else do
      let best ← readRecord data stringOffset entry best
      readRecords data nameOffset stringOffset n (i + 1) best

/-- The names in a table. -/
def readTable (data : Bytes) (nameOffset : ℕ) : Except RangeError (Option Names) :=
  if nameOffset + 6 > data.length then .ok none
  else do
    let count ← getUint16 data (nameOffset + 2)
    let stringOffset := nameOffset + (← getUint16 data (nameOffset + 4))
    let best ← readRecords data nameOffset stringOffset count 0 OMap.empty
    match best.get? 1 with
    | none => return none
    | some family =>
      if family.text = [] then return none
      return some ⟨family.text, ((best.get? 2).map Best.text).getD (text "Regular")⟩

def readFontNames (data : Bytes) : Except RangeError (Option Names) :=
  if data.length < 12 then .ok none
  else do
    let tag ← getUint32 data 0
    if tag ∉ tags then return none
    let numTables ← getUint16 data 4
    match ← findName data numTables 0 with
    | none => return none
    | some none => return none
    | some (some nameOffset) => readTable data nameOffset

/-! ### What is wanted -/

section Table

variable (data : Bytes) (nameOffset i : ℕ)

def countOf : ℕ := u16 data (nameOffset + 2)

def stringsAt : ℕ := nameOffset + u16 data (nameOffset + 4)

def recordAt : ℕ := nameOffset + 6 + i * 12

def nameIdAt : ℕ := u16 data (recordAt nameOffset i + 6)

def scoreAt : ℕ := scoreOf (u16 data (recordAt nameOffset i)) (u16 data (recordAt nameOffset i + 4))

def lengthAt : ℕ := u16 data (recordAt nameOffset i + 8)

def offsetAt : ℕ := stringsAt data nameOffset + u16 data (recordAt nameOffset i + 10)

def textAt : Text :=
  decode (u16 data (recordAt nameOffset i))
    ((data.drop (offsetAt data nameOffset i)).take (lengthAt data nameOffset i))

/-- The file has a table of names there: the first of that tag, and the tables up to it fit. -/
structure HasNames : Prop where
  header : 12 ≤ data.length
  tag : u32 data 0 ∈ tags
  table : ∃ k < u16 data 4, 12 + k * 16 + 16 ≤ data.length ∧
    u32 data (12 + k * 16) = 0x6e616d65 ∧ u32 data (12 + k * 16 + 8) = nameOffset ∧
    ∀ j < k, u32 data (12 + j * 16) ≠ 0x6e616d65

/-- The table, its records and their texts are in the file. -/
structure WellFormed : Prop where
  header : nameOffset + 6 ≤ data.length
  records : ∀ i < countOf data nameOffset, recordAt nameOffset i + 12 ≤ data.length
  texts : ∀ i < countOf data nameOffset,
    offsetAt data nameOffset i + lengthAt data nameOffset i ≤ data.length

variable (nameId : ℕ)

/-- The text of a record of the name that is not empty, and that no other such record has a better
score than. -/
def IsBest (t : Text) : Prop :=
  ∃ i < countOf data nameOffset, nameIdAt data nameOffset i = nameId ∧
    textAt data nameOffset i = t ∧ t ≠ [] ∧
    ∀ j < countOf data nameOffset, nameIdAt data nameOffset j = nameId →
      textAt data nameOffset j ≠ [] → scoreAt data nameOffset j ≤ scoreAt data nameOffset i

/-- No record of the name has a text. -/
def NoText : Prop :=
  ∀ i < countOf data nameOffset, nameIdAt data nameOffset i = nameId → textAt data nameOffset i = []

end Table

variable {data : Bytes} {nameOffset i n : ℕ} {best : OMap ℕ Best}

/-! ### Reads inside the file -/

lemma getUint16_ok (h : i + 2 ≤ data.length) : getUint16 data i = .ok (u16 data i) := if_pos h

lemma getUint32_ok (h : i + 4 ≤ data.length) : getUint32 data i = .ok (u32 data i) := if_pos h

lemma findName_succ (h : 12 + i * 16 + 16 ≤ data.length) : findName data (n + 1) i =
    if u32 data (12 + i * 16) = 0x6e616d65 then .ok (some (some (u32 data (12 + i * 16 + 8))))
    else findName data n (i + 1) := by
  rw [findName, if_neg (by omega), getUint32_ok (by omega), getUint32_ok (by omega)]
  rfl

lemma findName_ok (data : Bytes) : ∀ n i, ∃ r, findName data n i = .ok r
  | 0, _ => ⟨_, rfl⟩
  | n + 1, i => by
    by_cases h : 12 + i * 16 + 16 ≤ data.length
    · rw [findName_succ h]
      split_ifs
      · exact ⟨_, rfl⟩
      · exact findName_ok data n (i + 1)
    · exact ⟨none, if_pos (by omega)⟩

lemma findName_first {k : ℕ} (hfits : 12 + k * 16 + 16 ≤ data.length)
    (hname : u32 data (12 + k * 16) = 0x6e616d65)
    (hfirst : ∀ j < k, u32 data (12 + j * 16) ≠ 0x6e616d65) :
    ∀ n i, i ≤ k → k < i + n →
      findName data n i = .ok (some (some (u32 data (12 + k * 16 + 8))))
  | 0, i, hi, hn => by omega
  | n + 1, i, hi, hn => by
    rw [findName_succ (by omega)]
    rcases Nat.eq_or_lt_of_le hi with rfl | hlt
    · rw [if_pos hname]
    · rw [if_neg (hfirst i hlt)]
      exact findName_first hfits hname hfirst n (i + 1) hlt (by omega)

/-! ### Records -/

/-- What a record that fits offers for its name. -/
def offered (data : Bytes) (nameOffset i : ℕ) : Option (ℕ × Best) :=
  if nameIdAt data nameOffset i ≠ 1 ∧ nameIdAt data nameOffset i ≠ 2 then none
  else if offsetAt data nameOffset i + lengthAt data nameOffset i > data.length then none
  else if textAt data nameOffset i = [] then none
  else some (nameIdAt data nameOffset i, ⟨scoreAt data nameOffset i, textAt data nameOffset i⟩)

lemma readRecord_eq (h : recordAt nameOffset i + 12 ≤ data.length) :
    readRecord data (stringsAt data nameOffset) (recordAt nameOffset i) best =
      .ok ((offered data nameOffset i).elim best fun b => improve best b.1 b.2) := by
  rw [readRecord, getUint16_ok (by omega), getUint16_ok (by omega), getUint16_ok (by omega),
    getUint16_ok (by omega), getUint16_ok (by omega), offered]
  by_cases hid : nameIdAt data nameOffset i ≠ 1 ∧ nameIdAt data nameOffset i ≠ 2
  · rw [if_pos hid]
    exact if_pos hid
  · rw [if_neg hid]
    refine (if_neg hid).trans ?_
    by_cases hfits : offsetAt data nameOffset i + lengthAt data nameOffset i > data.length
    · rw [if_pos hfits]
      exact if_pos hfits
    · rw [if_neg hfits]
      refine (if_neg hfits).trans ?_
      by_cases htext : textAt data nameOffset i = []
      · rw [if_pos htext]
        exact if_pos htext
      · rw [if_neg htext]
        exact if_neg htext

/-- Of the first `n` records the best is kept for each name. -/
structure Kept (data : Bytes) (nameOffset n : ℕ) (best : OMap ℕ Best) : Prop where
  absent : ∀ nameId, best.get? nameId = none → ∀ i < n, ∀ b,
    offered data nameOffset i ≠ some (nameId, b)
  present : ∀ nameId b, best.get? nameId = some b →
    (∃ i < n, offered data nameOffset i = some (nameId, b)) ∧
      ∀ i < n, ∀ b', offered data nameOffset i = some (nameId, b') → b'.score ≤ b.score

lemma kept_empty (data : Bytes) (nameOffset : ℕ) : Kept data nameOffset 0 OMap.empty where
  absent _ _ i hi := by omega
  present nameId b h := by
    cases h

lemma kept_skip (h : Kept data nameOffset n best) (hnone : offered data nameOffset n = none) :
    Kept data nameOffset (n + 1) best where
  absent nameId hb i hi b := by
    rcases Nat.lt_succ_iff_lt_or_eq.mp hi with hi | rfl
    · exact h.absent nameId hb i hi b
    · rw [hnone]
      exact (by cases ·)
  present nameId b hb := by
    obtain ⟨⟨i, hi, hib⟩, hmax⟩ := h.present nameId b hb
    refine ⟨⟨i, by omega, hib⟩, fun j hj b' hb' => ?_⟩
    rcases Nat.lt_succ_iff_lt_or_eq.mp hj with hj | rfl
    · exact hmax j hj b' hb'
    · cases hnone.symm.trans hb'

lemma get?_improve (best : OMap ℕ Best) (nameId nameId' : ℕ) (b : Best) :
    (improve best nameId b).get? nameId' =
      if nameId' = nameId ∧ ∀ prev, best.get? nameId = some prev → prev.score < b.score then some b
      else best.get? nameId' := by
  rw [improve]
  cases hprev : best.get? nameId with
  | none => simp
  | some prev =>
    by_cases hbetter : b.score > prev.score
    · simp [hbetter]
    · simp [hbetter]

lemma kept_improve {nameId : ℕ} {b : Best} (h : Kept data nameOffset n best)
    (hb : offered data nameOffset n = some (nameId, b)) :
    Kept data nameOffset (n + 1) (improve best nameId b) where
  absent nameId' hnone i hi b' hb' := by
    rw [get?_improve] at hnone
    split_ifs at hnone with hset
    rcases Nat.lt_succ_iff_lt_or_eq.mp hi with hi | rfl
    · exact h.absent nameId' hnone i hi b' hb'
    · obtain ⟨rfl, rfl⟩ := Prod.mk.inj (Option.some.inj (hb.symm.trans hb'))
      exact hset ⟨rfl, fun prev hprev => by cases hnone.symm.trans hprev⟩
  present nameId' b' hget := by
    rw [get?_improve] at hget
    split_ifs at hget with hset
    · obtain ⟨rfl, hbetter⟩ := hset
      obtain rfl := Option.some.inj hget
      refine ⟨⟨n, by omega, hb⟩, fun i hi b' hb' => ?_⟩
      rcases Nat.lt_succ_iff_lt_or_eq.mp hi with hi | rfl
      · cases hprev : best.get? nameId' with
        | none => exact absurd hb' (h.absent nameId' hprev i hi b')
        | some prev =>
          have := (h.present nameId' prev hprev).2 i hi b' hb'
          have := hbetter prev hprev
          omega
      · obtain ⟨-, rfl⟩ := Prod.mk.inj (Option.some.inj (hb.symm.trans hb'))
        exact le_rfl
    · obtain ⟨⟨i, hi, hib⟩, hmax⟩ := h.present nameId' b' hget
      refine ⟨⟨i, by omega, hib⟩, fun j hj b'' hb'' => ?_⟩
      rcases Nat.lt_succ_iff_lt_or_eq.mp hj with hj | rfl
      · exact hmax j hj b'' hb''
      · -- the last record is not better, or it would have been kept
        obtain ⟨rfl, rfl⟩ := Prod.mk.inj (Option.some.inj (hb.symm.trans hb''))
        by_contra hlt
        refine hset ⟨rfl, fun prev hprev => ?_⟩
        obtain rfl := Option.some.inj (hget.symm.trans hprev)
        omega

/-- Records are read without leaving the file, up to the first that does not fit. -/
lemma readRecords_ok : ∀ n i best, Kept data nameOffset i best → ∃ m best',
    readRecords data nameOffset (stringsAt data nameOffset) n i best = .ok best' ∧
      Kept data nameOffset m best' ∧
      ((∀ j < i + n, recordAt nameOffset j + 12 ≤ data.length) → m = i + n)
  | 0, i, best, h => ⟨i, best, rfl, h, fun _ => rfl⟩
  | n + 1, i, best, h => by
    by_cases hfits : recordAt nameOffset i + 12 ≤ data.length
    · have hstep : readRecords data nameOffset (stringsAt data nameOffset) (n + 1) i best =
          readRecords data nameOffset (stringsAt data nameOffset) n (i + 1)
            ((offered data nameOffset i).elim best fun b => improve best b.1 b.2) := by
        refine (if_neg (not_lt.mpr hfits)).trans ?_
        change (readRecord data (stringsAt data nameOffset) (recordAt nameOffset i) best >>= _) = _
        rw [readRecord_eq hfits]
        rfl
      have hkept : Kept data nameOffset (i + 1)
          ((offered data nameOffset i).elim best fun b => improve best b.1 b.2) := by
        cases hb : offered data nameOffset i with
        | none => exact kept_skip h hb
        | some b => exact kept_improve h hb
      obtain ⟨m, best', hread, hkept', hall⟩ := readRecords_ok n (i + 1) _ hkept
      refine ⟨m, best', hstep.trans hread, hkept', fun hrecords => ?_⟩
      rw [hall fun j hj => hrecords j (by omega)]
      omega
    · refine ⟨i, best, ?_, h, fun hrecords => absurd (hrecords i (by omega)) hfits⟩
      exact if_pos (not_le.mp hfits)

/-! ### The names -/

lemma offered_eq_some {nameId : ℕ} {b : Best} (h : offered data nameOffset i = some (nameId, b)) :
    nameIdAt data nameOffset i = nameId ∧ textAt data nameOffset i = b.text ∧ b.text ≠ [] ∧
      scoreAt data nameOffset i = b.score := by
  rw [offered] at h
  split_ifs at h with hid hfits htext
  obtain ⟨rfl, rfl⟩ := Prod.mk.inj (Option.some.inj h)
  exact ⟨rfl, rfl, htext, rfl⟩

lemma offered_of_text {nameId : ℕ} (hid : nameId = 1 ∨ nameId = 2)
    (hi : nameIdAt data nameOffset i = nameId)
    (hfits : offsetAt data nameOffset i + lengthAt data nameOffset i ≤ data.length)
    (htext : textAt data nameOffset i ≠ []) : offered data nameOffset i =
      some (nameId, ⟨scoreAt data nameOffset i, textAt data nameOffset i⟩) := by
  rw [offered, if_neg (by omega), if_neg (by omega), if_neg htext, hi]

lemma isBest_of_kept {nameId : ℕ} (hid : nameId = 1 ∨ nameId = 2) (hwf : WellFormed data nameOffset)
    (h : Kept data nameOffset (countOf data nameOffset) best) :
    (best.get? nameId = none → NoText data nameOffset nameId) ∧
      ∀ b, best.get? nameId = some b → IsBest data nameOffset nameId b.text := by
  refine ⟨fun hnone i hi hi' => ?_, fun b hb => ?_⟩
  · by_contra htext
    exact h.absent nameId hnone i hi _ (offered_of_text hid hi' (hwf.texts i hi) htext)
  · obtain ⟨⟨i, hi, hib⟩, hmax⟩ := h.present nameId b hb
    obtain ⟨hnameId, htext, hne, hscore⟩ := offered_eq_some hib
    refine ⟨i, hi, hnameId, htext, hne, fun j hj hj' hjtext => ?_⟩
    rw [hscore]
    exact hmax j hj _ (offered_of_text hid hj' (hwf.texts j hj) hjtext)

/-- What the names of a well-formed table are. -/
def Names.AreBest (data : Bytes) (nameOffset : ℕ) (names : Names) : Prop :=
  IsBest data nameOffset 1 names.family ∧ (IsBest data nameOffset 2 names.style ∨
    NoText data nameOffset 2 ∧ names.style = text "Regular")

lemma readTable_ok (data : Bytes) (nameOffset : ℕ) : ∃ r, readTable data nameOffset = .ok r ∧
    (∀ names, r = some names → names.family ≠ []) ∧
    (WellFormed data nameOffset → (r = none → NoText data nameOffset 1) ∧
      ∀ names, r = some names → names.AreBest data nameOffset) := by
  by_cases hheader : nameOffset + 6 > data.length
  · refine ⟨none, if_pos hheader, (by simp), fun hwf => ?_⟩
    exact absurd hwf.header (by omega)
  · obtain ⟨m, best, hread, hkept, hall⟩ := readRecords_ok (countOf data nameOffset) 0 _
      (kept_empty data nameOffset)
    have hm : WellFormed data nameOffset → m = countOf data nameOffset := fun hwf =>
      (hall fun j hj => hwf.records j (by omega)).trans (Nat.zero_add _)
    have hbest : WellFormed data nameOffset → ∀ nameId, nameId = 1 ∨ nameId = 2 →
        (best.get? nameId = none → NoText data nameOffset nameId) ∧
          ∀ b, best.get? nameId = some b → IsBest data nameOffset nameId b.text :=
      fun hwf nameId hid => isBest_of_kept hid hwf (hm hwf ▸ hkept)
    have htable : readTable data nameOffset = .ok ((best.get? 1).bind fun family =>
        if family.text = [] then none
        else some ⟨family.text, ((best.get? 2).map Best.text).getD (text "Regular")⟩) := by
      rw [readTable, if_neg hheader, getUint16_ok (by omega), getUint16_ok (by omega)]
      change (readRecords data nameOffset (stringsAt data nameOffset) (countOf data nameOffset) 0
        OMap.empty >>= _) = _
      rw [hread]
      cases hfamily : best.get? 1 with
      | none => simp only [bind, Except.bind, hfamily]; rfl
      | some family =>
        by_cases hne : family.text = []
        · simp [bind, Except.bind, pure, Except.pure, hfamily, hne]
        · simp [bind, Except.bind, pure, Except.pure, hfamily, hne]
    refine ⟨_, htable, ?_, fun hwf => ⟨?_, ?_⟩⟩
    · intro names hnames
      obtain ⟨family, -, hnames⟩ := Option.bind_eq_some_iff.mp hnames
      obtain ⟨hne, hnames⟩ := Option.ite_none_left_eq_some.mp hnames
      obtain rfl := Option.some.inj hnames
      exact hne
    · intro hnone
      cases hfamily : best.get? 1 with
      | none => exact (hbest hwf 1 (.inl rfl)).1 hfamily
      | some family =>
        obtain ⟨-, -, -, -, hne, -⟩ := (hbest hwf 1 (.inl rfl)).2 family hfamily
        rw [hfamily, Option.bind_some, if_neg hne] at hnone
        cases hnone
    · intro names hnames
      obtain ⟨family, hfamily, hnames⟩ := Option.bind_eq_some_iff.mp hnames
      obtain ⟨-, hnames⟩ := Option.ite_none_left_eq_some.mp hnames
      obtain rfl := Option.some.inj hnames
      refine ⟨(hbest hwf 1 (.inl rfl)).2 family hfamily, ?_⟩
      cases hstyle : best.get? 2 with
      | none => exact .inr ⟨(hbest hwf 2 (.inr rfl)).1 hstyle, rfl⟩
      | some style => exact .inl ((hbest hwf 2 (.inr rfl)).2 style hstyle)

/-- **Any file is read safely, and a well-formed table for its best names.** No read leaves the
file, and there are no names or the family is not empty. In a well-formed table family and style
are texts with the best score of those of their name, if there is one. -/
theorem readFontNames_ok (data : Bytes) : ∃ r, readFontNames data = .ok r ∧
    (∀ names, r = some names → names.family ≠ []) ∧
    ∀ nameOffset, HasNames data nameOffset → WellFormed data nameOffset →
      (r = none → NoText data nameOffset 1) ∧
        ∀ names, r = some names → names.AreBest data nameOffset := by
  by_cases hlength : data.length < 12
  · refine ⟨none, if_pos hlength, (by simp), fun nameOffset h => ?_⟩
    exact absurd h.header (by omega)
  · by_cases htag : u32 data 0 ∈ tags
    · obtain ⟨found, hfound⟩ := findName_ok data (u16 data 4) 0
      have hwanted : ∀ nameOffset, HasNames data nameOffset → found = some (some nameOffset) := by
        intro nameOffset h
        obtain ⟨k, hk, hfits, hname, rfl, hfirst⟩ := h.table
        have hfind := findName_first hfits hname hfirst (u16 data 4) 0 (Nat.zero_le k) (by omega)
        exact Except.ok.inj (hfound.symm.trans hfind)
      have hread : readFontNames data = (findName data (u16 data 4) 0).bind fun found =>
          found.join.elim (.ok none) (readTable data) := by
        rw [readFontNames, if_neg hlength, getUint32_ok (by omega), getUint16_ok (by omega)]
        refine (if_neg (not_not.mpr htag)).trans ?_
        change (findName data (u16 data 4) 0).bind _ = _
        rw [hfound]
        rcases found with _ | _ | nameOffset <;> rfl
      rw [hread, hfound]
      rcases found with _ | _ | nameOffset
      · exact ⟨none, rfl, (by simp), fun nameOffset h => by cases hwanted nameOffset h⟩
      · exact ⟨none, rfl, (by simp), fun nameOffset h => by cases hwanted nameOffset h⟩
      · obtain ⟨r, hr, hne, hbest⟩ := readTable_ok data nameOffset
        refine ⟨r, hr, hne, fun nameOffset' h hwf => ?_⟩
        obtain rfl := Option.some.inj (Option.some.inj (hwanted nameOffset' h))
        exact hbest hwf
    · refine ⟨none, ?_, (by simp), fun nameOffset h => absurd h.tag htag⟩
      rw [readFontNames, if_neg hlength, getUint32_ok (by omega)]
      exact if_pos htag

/-- A file of one table, with a Macintosh record for the family and a Windows one. -/
def twoFamilies : Bytes :=
  [0, 1, 0, 0, 0, 1, 0, 0, 0, 0, 0, 0] ++
    [0x6e, 0x61, 0x6d, 0x65, 0, 0, 0, 0, 0, 0, 0, 28, 0, 0, 0, 33] ++
    [0, 0, 0, 2, 0, 30] ++ [0, 1, 0, 0, 0, 0, 0, 1, 0, 1, 0, 0] ++
    [0, 3, 0, 1, 4, 9, 0, 1, 0, 2, 0, 1] ++ [0x41, 0, 0x42]

theorem readFontNames_ok_twoFamilies :
    readFontNames twoFamilies = .ok (some ⟨[0x42], text "Regular"⟩) ∧
      (⟨[0x42], text "Regular"⟩ : Names).AreBest twoFamilies 28 := by
  have hnames : readFontNames twoFamilies = .ok (some ⟨[0x42], text "Regular"⟩) := by decide
  have htable : HasNames twoFamilies 28 :=
    ⟨by decide, by decide, 0, by decide, by decide, by decide, by decide, by decide⟩
  have hwf : WellFormed twoFamilies 28 := ⟨by decide, by decide, by decide⟩
  obtain ⟨r, hr, -, hbest⟩ := readFontNames_ok twoFamilies
  obtain rfl := Except.ok.inj (hnames.symm.trans hr)
  exact ⟨hnames, (hbest 28 htable hwf).2 _ rfl⟩

end FabPcb.FontNames
