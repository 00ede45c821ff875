import Mathlib.Data.List.Basic

/-!
`TextDecoder` for UTF-8: bytes that are none become replacement characters, and a byte order mark at
the front is dropped.
-/

namespace FabPcb.TextDecoding

/-- The bytes of a text. -/
def encode (cs : List Char) : List UInt8 := cs.flatMap String.utf8EncodeChar

/-- How many bytes a character takes that begins with a byte, and where the next one lies. -/
def expected (b : ℕ) : ℕ × ℕ × ℕ :=
  if 0xC2 ≤ b ∧ b ≤ 0xDF then (2, 0x80, 0xBF)
  else if b = 0xE0 then (3, 0xA0, 0xBF)
  else if b = 0xED then (3, 0x80, 0x9F)
  else if 0xE1 ≤ b ∧ b ≤ 0xEF then (3, 0x80, 0xBF)
  else if b = 0xF0 then (4, 0x90, 0xBF)
  else if 0xF1 ≤ b ∧ b ≤ 0xF3 then (4, 0x80, 0xBF)
  else if b = 0xF4 then (4, 0x80, 0x8F)
  else (1, 0, 0)

/-- The bytes at the front that one replacement character stands for: the beginning of a character
as far as it goes. -/
def maximalSubpart : List UInt8 → ℕ
  | [] => 0
  | [_] => 1
  | b :: b' :: bytes =>
    let (size, low, high) := expected b.toNat
    if low ≤ b'.toNat ∧ b'.toNat ≤ high ∧ 1 < size then
      2 + ((bytes.take (size - 2)).takeWhile fun b => 0x80 ≤ b.toNat && b.toNat ≤ 0xBF).length
    else 1

/-- Each turn takes a byte at least. -/
def decodeFrom : ℕ → List UInt8 → List Char
  | 0, _ => []
  | _ + 1, [] => []
  | fuel + 1, b :: bytes =>
    match (b :: bytes).toByteArray.utf8DecodeChar? 0 with
    | some c => c :: decodeFrom fuel ((b :: bytes).drop c.utf8Size)
    | none => '\uFFFD' :: decodeFrom fuel ((b :: bytes).drop (maximalSubpart (b :: bytes)))

def dropMark : List Char → List Char
  | '\uFEFF' :: cs => cs
  | cs => cs

/-- `new TextDecoder().decode(bytes)` -/
def decode (bytes : List UInt8) : List Char := dropMark (decodeFrom bytes.length bytes)

lemma encode_cons (c : Char) (cs : List Char) :
    encode (c :: cs) = String.utf8EncodeChar c ++ encode cs := List.flatMap_cons

lemma decodeFrom_encode (cs : List Char) {fuel : ℕ} (hfuel : cs.length ≤ fuel) :
    decodeFrom fuel (encode cs) = cs := by
  induction cs generalizing fuel with
  | nil => cases fuel <;> rfl
  | cons c cs ih =>
    obtain ⟨fuel, rfl⟩ : ∃ n, fuel = n + 1 := ⟨fuel - 1, by simp at hfuel; omega⟩
    have hlen : (String.utf8EncodeChar c).length = c.utf8Size := String.length_utf8EncodeChar c
    have hchar : (encode (c :: cs)).toByteArray.utf8DecodeChar? 0 = some c := by
      rw [encode_cons, List.toByteArray_append]
      exact ByteArray.utf8DecodeChar?_utf8EncodeChar_append
    have hdrop : (encode (c :: cs)).drop c.utf8Size = encode cs := by
      rw [encode_cons, ← hlen, List.drop_left]
    cases hbytes : encode (c :: cs) with
    | nil =>
      have := c.utf8Size_pos
      rw [(List.append_eq_nil_iff.mp hbytes).1] at hlen
      simp at hlen
      omega
    | cons b bytes =>
      rw [hbytes] at hchar hdrop
      rw [decodeFrom, hchar]
      dsimp only
      rw [hdrop, ih (Nat.le_of_succ_le_succ hfuel)]

lemma length_le_encode (cs : List Char) : cs.length ≤ (encode cs).length := by
  induction cs with
  | nil => exact Nat.le_refl _
  | cons c cs ih =>
    have := c.utf8Size_pos
    rw [encode_cons, List.length_append, String.length_utf8EncodeChar, List.length_cons]
    omega

/-- A text is read back, less a byte order mark. -/
theorem decode_encode (cs : List Char) : decode (encode cs) = dropMark cs := by
  rw [decode, decodeFrom_encode cs (length_le_encode cs)]

-- A byte that is none, and a character that is cut off.
example : decode [0x61, 0xFF, 0xE2, 0x82, 0x62] = ['a', '\uFFFD', '\uFFFD', 'b'] := by
  decide +kernel

end FabPcb.TextDecoding
