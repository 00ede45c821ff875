import Mathlib.Tactic.Ring
import FabPcb.EnvelopeScan
import FabPcb.WireFormat

/-!
What `requestTypeName` reads of an envelope.

On the bytes of a message the walk comes to each field in turn, whatever its number of bytes: a
varint that is skipped may have any value, one that is a key or a length is below the numbers where
doubles are rounded. On any bytes at all it comes to an end within them.
-/

namespace FabPcb.EnvelopeNames

open EnvelopeScan WireFormat
open TextDecoding (encode decode dropMark decode_encode)

variable {buf rest : List UInt8} {i fuel : ℕ}

/-! ### Any bytes -/

/-- The walk stays within its bytes and comes to an end. -/
def Safe {α : Type} (x : Except ScanError α) : Prop := x ≠ .error .past ∧ x ≠ .error .endless

section Safety

variable {α β : Type}

lemma safe_ok (a : α) : Safe (.ok a) := ⟨by simp, by simp⟩

lemma safe_error {e : ScanError} (hpast : e ≠ .past) (hendless : e ≠ .endless) :
    Safe (.error e : Except ScanError α) :=
  ⟨by simpa using hpast, by simpa using hendless⟩

lemma safe_bind {x : Except ScanError α} {f : α → Except ScanError β} (hx : Safe x)
    (hf : ∀ a, Safe (f a)) : Safe (x >>= f) := by
  cases x with
  | error e => exact safe_error (fun h => hx.1 (congrArg _ h)) fun h => hx.2 (congrArg _ h)
  | ok a => exact hf a

end Safety

lemma varint_cases (r : Number) (s : ℕ) (hfuel : buf.length - i < fuel) :
    (∃ v j, varint buf fuel i r s = .ok (v, j) ∧ i < j) ∨
      varint buf fuel i r s = .error .truncated := by
  induction fuel generalizing i r s with
  | zero => omega
  | succ fuel ih =>
    rw [varint]
    split_ifs with hend
    · exact .inr rfl
    · have hget : buf[i]? = some buf[i] := List.getElem?_eq_getElem (by omega)
      rw [hget]
      dsimp only
      split_ifs with hlast
      · exact .inl ⟨_, _, rfl, Nat.lt_succ_self i⟩
      · refine (ih _ _ (by omega)).imp_left ?_
        rintro ⟨v, j, h, hj⟩
        exact ⟨v, j, h, by omega⟩

lemma readVarint_cases (buf : List UInt8) (i : ℕ) :
    (∃ v j, readVarint buf i = .ok (v, j) ∧ i < j) ∨ readVarint buf i = .error .truncated :=
  varint_cases _ _ (by omega)

lemma scanFrom_safe (out : List Field) (hfuel : buf.length - i < fuel) :
    Safe (scanFrom buf fuel i out) := by
  induction fuel generalizing i out with
  | zero => omega
  | succ fuel ih =>
    have htruncated : Safe (.error .truncated : Except ScanError (List Field)) :=
      safe_error (by simp) (by simp)
    rw [scanFrom]
    split_ifs with hend
    · exact safe_ok _
    · rcases readVarint_cases buf i with ⟨key, j, hkey, hj⟩ | hkey
      · rw [hkey]
        change Safe (if _ then _ else _)
        have hnext : ∀ k, j ≤ k → ∀ out, Safe (scanFrom buf fuel k out) := fun k hk out =>
          ih out (by omega)
        split_ifs
        · rcases readVarint_cases buf j with ⟨v, k, hv, hk⟩ | hv
          · rw [hv]
            exact hnext k (by omega) out
          · rw [hv]
            exact htruncated
        · rcases readVarint_cases buf j with ⟨len, k, hlen, hk⟩ | hlen
          · rw [hlen]
            refine ih _ ?_
            cases len <;> rw [advance] <;> omega
          · rw [hlen]
            exact htruncated
        · exact hnext _ (by omega) _
        · exact hnext _ (by omega) _
        · exact safe_error (by simp) (by simp)
      · rw [hkey]
        exact htruncated

lemma scan_safe (buf : List UInt8) : Safe (scan buf) := scanFrom_safe [] (by omega)

lemma typeUrl_safe (fs : List Field) : Safe (typeUrl fs) := by
  induction fs with
  | nil => exact safe_ok _
  | cons f fs ih =>
    rw [typeUrl]
    split_ifs
    · exact ih
    · refine safe_bind (scan_safe f.bytes) fun fields => ?_
      cases fields.find? (·.field = 1) with
      | none => exact ih
      | some a => exact safe_ok _

lemma readTypeName_safe (request : List UInt8) : Safe (readTypeName request) :=
  safe_bind (scan_safe request) fun fs => safe_bind (typeUrl_safe fs) fun _ => safe_ok _

/-! ### The bytes of a message -/

lemma drop_cons {b : UInt8} {bytes : List UInt8} (h : buf.drop i = b :: bytes) :
    i < buf.length ∧ buf[i]? = some b ∧ buf.drop (i + 1) = bytes := by
  have hlt : i < buf.length := by
    by_contra hge
    rw [List.drop_of_length_le (by omega)] at h
    cases h
  rw [List.drop_eq_getElem_cons hlt] at h
  obtain ⟨hb, hrest⟩ := List.cons.inj h
  exact ⟨hlt, by rw [List.getElem?_eq_getElem hlt, hb], hrest⟩

lemma varint_skip {n : ℕ} {bytes : List UInt8} (h : Varint n bytes) (r : Number) (s : ℕ)
    (hdrop : buf.drop i = bytes ++ rest) (hfuel : buf.length - i < fuel) :
    ∃ v, varint buf fuel i r s = .ok (v, i + bytes.length) := by
  induction h generalizing i r s fuel with
  | @last b hb =>
    obtain ⟨hlt, hget, -⟩ := drop_cons hdrop
    obtain ⟨fuel, rfl⟩ : ∃ k, fuel = k + 1 := ⟨fuel - 1, by omega⟩
    rw [varint, if_neg (by omega), hget]
    dsimp only
    rw [if_pos hb]
    exact ⟨_, rfl⟩
  | @more b n bytes hb _ ih =>
    obtain ⟨hlt, hget, hnext⟩ := drop_cons hdrop
    obtain ⟨fuel, rfl⟩ : ∃ k, fuel = k + 1 := ⟨fuel - 1, by omega⟩
    rw [varint, if_neg (by omega), hget]
    dsimp only
    rw [if_neg (by omega)]
    have hfuel' : buf.length - (i + 1) < fuel := by omega
    obtain ⟨v, hv⟩ := ih (r.add (.shifted (b.toNat % 128) s)) (s + 7) hnext hfuel'
    exact ⟨v, by rw [hv, List.length_cons, Nat.add_assoc, Nat.add_comm 1]⟩

lemma add_shifted {m d s : ℕ} (hs : s < Number.emax) (h : m + d * 2 ^ s < 2 ^ 53) :
    Number.add (.finite m) (.shifted d s) = .finite (m + d * 2 ^ s) := by
  have hle : d * 2 ^ s ≤ m + d * 2 ^ s := Nat.le_add_left _ _
  have hpow : (2 : ℕ) ^ 53 < 2 ^ Number.emax := Nat.pow_lt_pow_right Nat.one_lt_two (by decide)
  have hsmall : d * 2 ^ s < 2 ^ Number.emax := Nat.lt_trans (Nat.lt_of_le_of_lt hle h) hpow
  rw [Number.shifted, if_pos hs, if_pos hsmall, Number.add, Number.round, if_pos h]

/-- The value of a varint where doubles are exact. -/
lemma varint_value {n m s : ℕ} {bytes : List UInt8} (h : Varint n bytes)
    (hvalue : m + n * 2 ^ s < 2 ^ 53) (hs : s + 7 * bytes.length < Number.emax)
    (hdrop : buf.drop i = bytes ++ rest) (hfuel : buf.length - i < fuel) :
    varint buf fuel i (.finite m) s = .ok (.finite (m + n * 2 ^ s), i + bytes.length) := by
  induction h generalizing i m s fuel with
  | @last b hb =>
    obtain ⟨hlt, hget, -⟩ := drop_cons hdrop
    obtain ⟨fuel, rfl⟩ : ∃ k, fuel = k + 1 := ⟨fuel - 1, by omega⟩
    rw [varint, if_neg (by omega), hget]
    dsimp only
    rw [if_pos hb, Nat.mod_eq_of_lt hb, add_shifted (by omega) hvalue]
    rfl
  | @more b n bytes hb _ ih =>
    obtain ⟨hlt, hget, hnext⟩ := drop_cons hdrop
    obtain ⟨fuel, rfl⟩ : ∃ k, fuel = k + 1 := ⟨fuel - 1, by omega⟩
    have hsum : m + (b.toNat % 128 + 128 * n) * 2 ^ s =
        m + b.toNat % 128 * 2 ^ s + n * 2 ^ (s + 7) := by
      ring
    rw [List.length_cons] at hs
    rw [hsum] at hvalue ⊢
    rw [varint, if_neg (by omega), hget]
    dsimp only
    rw [if_neg (by omega), add_shifted (by omega) (by omega),
      ih hvalue (by omega) hnext (by omega), List.length_cons, Nat.add_assoc i 1,
      Nat.add_comm 1]

/-- What the walk keeps of a field. -/
def kept : WireField → Option Field
  | .delimited number bytes => some ⟨number, bytes⟩
  | .varint .. | .fixed64 .. | .fixed32 .. => none

lemma readVarint_value {n : ℕ} {bytes : List UInt8} (h : Varint n bytes) (hvalue : n < 2 ^ 53)
    (hlength : bytes.length ≤ 10) (hdrop : buf.drop i = bytes ++ rest) :
    readVarint buf i = .ok (.finite n, i + bytes.length) := by
  have hs : 0 + 7 * bytes.length < Number.emax := by
    rw [Number.emax]
    omega
  rw [readVarint, varint_value h (by omega) hs hdrop (by omega)]
  rw [Nat.zero_add, Nat.pow_zero, Nat.mul_one]

lemma drop_append {bytes : List UInt8} (hdrop : buf.drop i = bytes ++ rest) :
    buf.drop (i + bytes.length) = rest := by
  rw [← List.drop_drop, hdrop, List.drop_left]

/-- A field is walked over in one turn. -/
lemma scanFrom_field {f : WireField} {field : List UInt8} (h : EncodesField f field)
    (out : List Field) (hdrop : buf.drop i = field ++ rest) :
    scanFrom buf (fuel + 1) i out =
      scanFrom buf fuel (i + field.length) (out ++ (kept f).toList) := by
  obtain ⟨hnumber, hkey, hlength, hpayload⟩ := h
  rename_i key payload
  have hwire : f.wireType < 8 := by cases f <;> simp [WireField.wireType]
  have hlt : ¬ buf.length ≤ i := by
    intro hle
    have hpos := hkey.length_pos
    have hempty := congrArg List.length hdrop
    rw [List.drop_of_length_le hle] at hempty
    simp only [List.length_nil, List.length_append] at hempty
    omega
  rw [List.append_assoc] at hdrop
  have hread := readVarint_value hkey (by omega) hlength hdrop
  have hsmall : (Number.finite (f.number * 8 + f.wireType)).toUint32 =
      f.number * 8 + f.wireType := Nat.mod_eq_of_lt (by omega)
  have hnext := drop_append hdrop
  have hdiv : (f.number * 8 + f.wireType) / 8 = f.number := by omega
  rw [scanFrom, if_neg hlt, hread]
  dsimp only [bind, Except.bind]
  rw [hsmall, hdiv]
  cases hpayload with
  | @varint number value bytes hvalue _ =>
    obtain ⟨v, hv⟩ := varint_skip hvalue (.finite 0) 0 hnext
      (show buf.length - _ < buf.length + 1 by omega)
    rw [readVarint, hv]
    simp [WireField.wireType, kept, Nat.add_assoc]
  | @fixed64 number bytes hbytes => simp [WireField.wireType, kept, hbytes, Nat.add_assoc]
  | @delimited number length bytes hlen hlength' harray =>
    rw [List.append_assoc] at hnext
    have hbytes : subarray buf (i + key.length + length.length) (.finite bytes.length) = bytes := by
      rw [subarray, drop_append hnext, List.take_left]
    rw [readVarint_value hlen harray hlength' hnext]
    simp only [WireField.wireType, WireField.number, kept]
    rw [hbytes, advance]
    simp [Nat.add_assoc]
  | @fixed32 number bytes hbytes => simp [WireField.wireType, kept, hbytes, Nat.add_assoc]

lemma scanFrom_encodes {fs : List WireField} {bytes : List UInt8} (h : Encodes fs bytes)
    (out : List Field) (hdrop : buf.drop i = bytes) (hfuel : fs.length < fuel) :
    scanFrom buf fuel i out = .ok (out ++ fs.filterMap kept) := by
  induction h generalizing i out fuel with
  | nil =>
    obtain ⟨fuel, rfl⟩ : ∃ k, fuel = k + 1 := ⟨fuel - 1, by omega⟩
    rw [scanFrom, if_pos (List.drop_eq_nil_iff.mp hdrop)]
    simp
  | @cons f fs field rest hfield _ ih =>
    obtain ⟨fuel, rfl⟩ : ∃ k, fuel = k + 1 := ⟨fuel - 1, by omega⟩
    rw [List.length_cons] at hfuel
    rw [scanFrom_field hfield out hdrop, ih _ (drop_append hdrop) (by omega)]
    cases hf : kept f <;> simp [hf]

lemma scan_encodes {fs : List WireField} (h : Encodes fs buf) :
    scan buf = .ok (fs.filterMap kept) := by
  rw [scan, scanFrom_encodes h [] rfl (Nat.lt_succ_of_le h.length_le), List.nil_append]

/-! ### The envelope -/

/-- The bytes of an `ApiRequest` with a header and an `Any` at most, and the type URLs of the `Any`
as they are written. -/
inductive IsRequest : List UInt8 → List (List UInt8) → Prop
  | bare {fs : List WireField} {request : List UInt8} (h : Encodes fs request)
    (hheader : (delimited 1 fs).length ≤ 1) (hany : delimited 2 fs = []) : IsRequest request []
  | mk {fs gs : List WireField} {request any : List UInt8} (h : Encodes fs request)
    (hheader : (delimited 1 fs).length ≤ 1) (hany : delimited 2 fs = [any])
    (hgs : Encodes gs any) : IsRequest request (delimited 1 gs)

/-- What stands behind the last occurrence of a character. -/
def AfterLast (c : Char) (cs part : List Char) : Prop :=
  c ∉ part ∧ (part = cs ∨ ∃ before, cs = before ++ c :: part)

/-- The part behind the last slash, and of that the part behind the last full stop. -/
def IsBareName (url name : List Char) : Prop :=
  ∃ part, AfterLast '/' url part ∧ AfterLast '.' part name

/-- The name that is read is that of a type URL, if there is one. -/
def Names (url : Option (List Char)) (name : List Char) : Prop :=
  match url with
  | none => name = []
  | some url => IsBareName url name

/-- As decoders do: of the type URLs that an `Any` has, the last one counts. -/
def ReadsLast (request : List UInt8) : Prop :=
  ∀ urls : List (List Char), IsRequest request (urls.map encode) →
    Names urls.getLast? (requestTypeName request)

/-- What the code does: the first one counts, without a byte order mark. -/
def ReadsFirst (request : List UInt8) : Prop :=
  ∀ urls : List (List Char), IsRequest request (urls.map encode) →
    Names (urls.head?.map dropMark) (requestTypeName request)

lemma lastIndexOf_spec (c : Char) (cs : List Char) : c ∉ cs.drop (lastIndexOf c cs) ∧
    (lastIndexOf c cs = 0 ∨ ∃ before, cs = before ++ c :: cs.drop (lastIndexOf c cs)) := by
  induction cs with
  | nil => exact ⟨List.not_mem_nil, .inl rfl⟩
  | cons x cs ih =>
    obtain ⟨hnot, hbefore⟩ := ih
    rw [lastIndexOf]
    cases hlast : lastIndexOf c cs with
    | zero =>
      rw [hlast] at hnot
      split_ifs with hx
      · exact ⟨hnot, .inr ⟨[], by rw [hx]; rfl⟩⟩
      · exact ⟨fun hmem => (List.mem_cons.mp hmem).elim (fun h => hx h.symm) hnot, .inl rfl⟩
    | succ n =>
      rw [hlast] at hnot hbefore
      obtain ⟨before, hcs⟩ := hbefore.resolve_left (Nat.succ_ne_zero n)
      refine ⟨hnot, .inr ⟨x :: before, ?_⟩⟩
      exact congrArg (x :: ·) hcs

lemma afterLast_drop (c : Char) (cs : List Char) :
    AfterLast c cs (cs.drop (lastIndexOf c cs)) := by
  obtain ⟨hnot, hzero | hbefore⟩ := lastIndexOf_spec c cs
  · exact ⟨hnot, .inl (by rw [hzero, List.drop_zero])⟩
  · exact ⟨hnot, .inr hbefore⟩

lemma isBareName_bareName (url : List Char) : IsBareName url (bareName url) :=
  ⟨_, afterLast_drop '/' url, afterLast_drop '.' _⟩

lemma find_kept (number : ℕ) (fs : List WireField) :
    ((fs.filterMap kept).find? (·.field = number)).map (·.bytes) =
      (delimited number fs).head? := by
  induction fs with
  | nil => rfl
  | cons f fs ih =>
    rw [delimited] at ih ⊢
    cases f with
    | delimited n bytes =>
      by_cases hn : n = number
      · simp [kept, hn]
      · simpa [kept, hn] using ih
    | varint n value => simpa [kept] using ih
    | fixed64 n bytes => simpa [kept] using ih
    | fixed32 n bytes => simpa [kept] using ih

lemma typeUrl_none {fs : List WireField} (h : delimited 2 fs = []) :
    typeUrl (fs.filterMap kept) = .ok none := by
  induction fs with
  | nil => rfl
  | cons f fs ih =>
    rw [delimited] at ih h
    cases f with
    | delimited n bytes =>
      have hn : n ≠ 2 := by
        rintro rfl
        simp at h
      have hrest := ih (by simpa [hn] using h)
      simpa [kept, typeUrl, hn] using hrest
    | varint n value => exact ih (by simpa using h)
    | fixed64 n bytes => exact ih (by simpa using h)
    | fixed32 n bytes => exact ih (by simpa using h)

lemma typeUrl_any {fs gs : List WireField} {any : List UInt8} (h : delimited 2 fs = [any])
    (hgs : Encodes gs any) :
    typeUrl (fs.filterMap kept) = .ok (delimited 1 gs).head? := by
  induction fs with
  | nil => simp [delimited] at h
  | cons f fs ih =>
    rw [delimited] at ih h
    cases f with
    | delimited n bytes =>
      by_cases hn : n = 2
      · subst hn
        simp only [List.filterMap_cons, if_pos, List.cons.injEq] at h
        obtain ⟨rfl, hrest⟩ := h
        have hfind := find_kept 1 gs
        have hnone := typeUrl_none hrest
        simp only [kept, List.filterMap_cons, typeUrl, ne_eq, not_true_eq_false, if_false,
          scan_encodes hgs]
        change ((gs.filterMap kept).find? (·.field = 1)).elim _ _ = _
        cases hurl : (gs.filterMap kept).find? (·.field = 1) with
        | none =>
          rw [hurl] at hfind
          rw [← hfind]
          exact hnone
        | some a =>
          rw [hurl] at hfind
          rw [← hfind]
          rfl
      · have hrest := ih (by simpa [hn] using h)
        simpa [kept, typeUrl, hn] using hrest
    | varint n value => exact ih (by simpa using h)
    | fixed64 n bytes => exact ih (by simpa using h)
    | fixed32 n bytes => exact ih (by simpa using h)

lemma readTypeName_eq {request : List UInt8} {urls : List (List UInt8)}
    (h : IsRequest request urls) : readTypeName request =
      .ok ((urls.head?.map fun bytes => bareName (decode bytes)).getD []) := by
  cases h with
  | bare h _ hany =>
    rw [readTypeName, scan_encodes h]
    change (typeUrl _ >>= _) = _
    rw [typeUrl_none hany]
    rfl
  | mk h _ hany hgs =>
    rw [readTypeName, scan_encodes h]
    change (typeUrl _ >>= _) = _
    rw [typeUrl_any hany hgs]
    rfl

/-- **Reading the name of a message.** Of every encoding of an `ApiRequest` the name is read of the
first type URL in its `Any`, and nothing where there is none; and the walk over any bytes at all,
and over those inside them, comes to an end within them. -/
theorem requestTypeName_reads (request : List UInt8) :
    ReadsFirst request ∧ Safe (scan request) ∧ Safe (readTypeName request) := by
  refine ⟨fun urls h => ?_, scan_safe request, readTypeName_safe request⟩
  rw [requestTypeName, readTypeName_eq h]
  cases urls with
  | nil => rfl
  | cons url urls =>
    simp only [List.map_cons, List.head?_cons, Option.map_some, Option.getD_some, decode_encode]
    exact isBareName_bareName _

/-! ### Given envelopes -/

/-- An unknown field, and an `Any` with its value ahead of its type URL; the keys of the unknown
field and of the `Any` take a byte more than they need. -/
def saved : List UInt8 :=
  [0xB8, 0x00, 0xAC, 0x02, 0x92, 0x00, 0x0A, 0x12, 0x01, 0x07, 0x0A, 0x05] ++
    encode ['a', '/', 'k', '.', 'S']

theorem requestTypeName_reads_saved : IsRequest saved ([['a', '/', 'k', '.', 'S']].map encode) ∧
    IsBareName ['a', '/', 'k', '.', 'S'] (requestTypeName saved) := by
  have hurl : EncodesField (.delimited 1 (encode ['a', '/', 'k', '.', 'S']))
      (0x0A :: 0x05 :: encode ['a', '/', 'k', '.', 'S']) :=
    delimited_bytes (by decide) (by decide) (by decide +kernel) (by decide +kernel)
  have hany : Encodes [.delimited 2 [0x07], .delimited 1 (encode ['a', '/', 'k', '.', 'S'])]
      (0x12 :: 0x01 :: 0x07 :: 0x0A :: 0x05 :: encode ['a', '/', 'k', '.', 'S']) :=
    encodes_cons (delimited_bytes (by decide) (by decide) (by decide) (by decide))
      (encodes_one hurl) rfl
  have hunknown : EncodesField (.varint 7 300) ([0xB8, 0x00] ++ [0xAC, 0x02]) :=
    .mk (by decide) (varint_more (by decide) (varint_byte rfl (by decide)) (by decide)) (by decide)
      (.varint (varint_more (by decide) (varint_byte rfl (by decide)) (by decide)) (by decide))
  have hmessage : EncodesField (.delimited 2 (0x12 :: 0x01 :: 0x07 :: 0x0A :: 0x05 ::
      encode ['a', '/', 'k', '.', 'S'])) ([0x92, 0x00] ++ ([0x0A] ++ (0x12 :: 0x01 :: 0x07 ::
      0x0A :: 0x05 :: encode ['a', '/', 'k', '.', 'S']))) :=
    .mk (by decide) (varint_more (by decide) (varint_byte rfl (by decide)) (by decide)) (by decide)
      (.delimited (varint_byte (by decide +kernel) (by decide +kernel)) (by decide)
        (by decide +kernel))
  have hrequest : IsRequest saved ([['a', '/', 'k', '.', 'S']].map encode) :=
    .mk (encodes_cons hunknown (encodes_one hmessage) rfl) (by decide) rfl hany
  exact ⟨hrequest, (requestTypeName_reads saved).1 _ hrequest⟩

/-- An `Any` with two type URLs. -/
def twice : List UInt8 := [0x12, 0x06, 0x0A, 0x01, 0x61, 0x0A, 0x01, 0x62]

/-- The first one is read, where a decoder takes the last. -/
theorem reads_first_of_twice : ¬ ∀ request, ReadsLast request := by
  intro h
  have hany : Encodes [.delimited 1 [0x61], .delimited 1 [0x62]]
      [0x0A, 0x01, 0x61, 0x0A, 0x01, 0x62] :=
    encodes_cons (delimited_bytes (by decide) (by decide) (by decide) (by decide))
      (encodes_one (delimited_bytes (by decide) (by decide) (by decide) (by decide))) rfl
  have hmessage : EncodesField (.delimited 2 [0x0A, 0x01, 0x61, 0x0A, 0x01, 0x62]) twice :=
    delimited_bytes (by decide) (by decide) (by decide) (by decide)
  have hrequest : IsRequest twice ([['a'], ['b']].map encode) :=
    .mk (encodes_one hmessage) (by decide) rfl hany
  obtain ⟨part, ⟨-, hpart⟩, -, hname⟩ := h twice [['a'], ['b']] hrequest
  have hread : requestTypeName twice = ['a'] := by decide +kernel
  rw [hread] at hname
  have hlast : ∀ {cs : List Char} {c : Char}, (['a'] = cs ∨ ∃ before, cs = before ++ c :: ['a']) →
      'a' ∈ cs := by
    rintro cs c (rfl | ⟨before, rfl⟩)
    · exact List.mem_cons_self
    · simp
  have hmem := hlast hname
  rcases hpart with rfl | ⟨before, hb⟩
  · exact absurd hmem (by decide)
  · have hb' : ['b'] = before ++ '/' :: part := hb
    have hmem' : 'a' ∈ ['b'] := hb'.symm ▸ List.mem_append_right _ (List.mem_cons_of_mem _ hmem)
    exact absurd hmem' (by decide)

end FabPcb.EnvelopeNames
