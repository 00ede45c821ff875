import FabPcb.NngFraming
import Mathlib.Logic.Function.Iterate

/-!
The CRC-32 of some bytes, one byte at a time over a table.

A shift register takes in the bits of the bytes, the lowest of each byte first. It is linear, so
the bits still inside and those that come in may be put together, and eight steps of a register
are a look into the table at its low byte and a shift of the rest.
-/

namespace FabPcb.Crc32

open NngFraming (Bytes)

/-! ### The register -/

/-- The polynomial, its highest coefficient left out and the others in reverse. -/
def polynomial : BitVec 32 := 0xEDB88320#32

/-- A bit comes in. -/
def crcBit (c : BitVec 32) (bit : Bool) : BitVec 32 :=
  (c >>> 1) ^^^ if c.getLsbD 0 ^^ bit then polynomial else 0

/-- The lowest bits of a word, the lowest first. -/
def lowBits : ℕ → BitVec 32 → List Bool
  | 0, _ => []
  | n + 1, v => v.getLsbD 0 :: lowBits n (v >>> 1)

def word (b : UInt8) : BitVec 32 := b.toBitVec.setWidth 32

/-- The CRC-32 of the bits of some bytes. -/
def crcOfBits (bytes : Bytes) : BitVec 32 :=
  ~~~(bytes.flatMap fun b => lowBits 8 (word b)).foldl crcBit (BitVec.allOnes 32)

/-! ### The table -/

/-- One turn of the inner loop over the table. -/
def step (c : BitVec 32) : BitVec 32 :=
  if c &&& 1#32 ≠ 0 then polynomial ^^^ (c >>> 1) else c >>> 1

def crcTable : List (BitVec 32) := (List.range 256).map fun i => step^[8] (BitVec.ofNat 32 i)

def crcByte (c : BitVec 32) (b : UInt8) : BitVec 32 :=
  crcTable.getD ((c ^^^ word b) &&& 0xFF#32).toNat 0 ^^^ (c >>> 8)

/-- The CRC-32 of some bytes, over the table. -/
def crc32 (bytes : Bytes) : ℕ := (bytes.foldl crcByte 0xFFFFFFFF#32 ^^^ 0xFFFFFFFF#32).toNat

variable {c v : BitVec 32} {n : ℕ}

lemma and_one_ne_zero : c &&& 1#32 ≠ 0 ↔ c.getLsbD 0 = true := by
  rw [BitVec.and_one_eq_setWidth_ofBool_getLsbD]
  cases c.getLsbD 0 <;> decide

lemma step_eq (c : BitVec 32) : step c = (c >>> 1) ^^^ if c.getLsbD 0 then polynomial else 0 := by
  simp only [step, and_one_ne_zero]
  split_ifs
  · exact BitVec.xor_comm _ _
  · exact (BitVec.xor_zero).symm

lemma step_xor (c v : BitVec 32) : step (c ^^^ v) = crcBit c (v.getLsbD 0) ^^^ (v >>> 1) := by
  rw [step_eq, crcBit, BitVec.getLsbD_xor, BitVec.ushiftRight_xor_distrib, BitVec.xor_assoc,
    BitVec.xor_assoc, BitVec.xor_comm (v >>> 1)]

lemma foldl_crcBit (n : ℕ) (c v : BitVec 32) (hv : v >>> n = 0) :
    (lowBits n v).foldl crcBit c = step^[n] (c ^^^ v) := by
  induction n generalizing c v with
  | zero =>
    rw [BitVec.ushiftRight_zero] at hv
    simp [lowBits, hv]
  | succ n ih =>
    have hnext : v >>> 1 >>> n = 0 := by rw [← BitVec.shiftRight_add, Nat.add_comm]; exact hv
    rw [lowBits, List.foldl_cons, ih _ _ hnext, Function.iterate_succ_apply, step_xor]

lemma step_xor_step (c v : BitVec 32) : step (c ^^^ v) = step c ^^^ step v := by
  have hparts : ∀ p q : BitVec 32, (c >>> 1 ^^^ v >>> 1) ^^^ (p ^^^ q) =
      (c >>> 1 ^^^ p) ^^^ (v >>> 1 ^^^ q) := fun p q => by ac_rfl
  rw [step_eq, step_eq, step_eq, BitVec.ushiftRight_xor_distrib, ← hparts, BitVec.getLsbD_xor]
  cases c.getLsbD 0 <;> cases v.getLsbD 0 <;> simp

lemma iterate_xor (n : ℕ) (c v : BitVec 32) :
    step^[n] (c ^^^ v) = step^[n] c ^^^ step^[n] v := by
  induction n generalizing c v with
  | zero => rfl
  | succ n ih => simp [Function.iterate_succ_apply, step_xor_step, ih]

lemma iterate_shift (h : ∀ i < n, v.getLsbD i = false) : step^[n] v = v >>> n := by
  induction n generalizing v with
  | zero => rfl
  | succ n ih =>
    have hlow : step v = v >>> 1 := by
      rw [step_eq, h 0 (Nat.zero_lt_succ n)]
      exact BitVec.xor_zero
    rw [Function.iterate_succ_apply, hlow, ih fun i hi => ?_, ← BitVec.shiftRight_add,
      Nat.add_comm]
    rw [BitVec.getLsbD_ushiftRight, Nat.add_comm]
    exact h _ (Nat.succ_lt_succ hi)

lemma low_xor_high (c : BitVec 32) : (c &&& 0xFF#32) ^^^ (c &&& ~~~0xFF#32) = c := by
  refine BitVec.eq_of_getLsbD_eq fun i hi => ?_
  simp only [BitVec.getLsbD_xor, BitVec.getLsbD_and, BitVec.getLsbD_not, hi, decide_true,
    Bool.true_and]
  cases c.getLsbD i <;> cases (0xFF#32).getLsbD i <;> rfl

lemma getLsbD_low (i : ℕ) : (0xFF#32).getLsbD i = decide (i < 8) := by
  rw [BitVec.getLsbD_ofNat, show (0xFF : ℕ) = 2 ^ 8 - 1 from rfl, Nat.testBit_two_pow_sub_one]
  by_cases hi : i < 8
  · simp [hi, show i < 32 by omega]
  · simp [hi]

lemma iterate_eight (c : BitVec 32) : step^[8] c = step^[8] (c &&& 0xFF#32) ^^^ (c >>> 8) := by
  have hhigh : ∀ i < 8, (c &&& ~~~0xFF#32).getLsbD i = false := fun i hi => by
    rw [BitVec.getLsbD_and, BitVec.getLsbD_not, getLsbD_low, decide_eq_true hi]
    simp
  have hdown : (c &&& ~~~0xFF#32) >>> 8 = c >>> 8 := by
    refine BitVec.eq_of_getLsbD_eq fun i hi => ?_
    simp only [BitVec.getLsbD_ushiftRight, BitVec.getLsbD_and, BitVec.getLsbD_not, getLsbD_low]
    by_cases h : 8 + i < 32
    · simp [h]
    · simp [BitVec.getLsbD_of_ge c (8 + i) (by omega)]
  calc step^[8] c = step^[8] ((c &&& 0xFF#32) ^^^ (c &&& ~~~0xFF#32)) := by rw [low_xor_high]
    _ = step^[8] (c &&& 0xFF#32) ^^^ (c >>> 8) := by rw [iterate_xor, iterate_shift hhigh, hdown]

lemma and_low_lt (c : BitVec 32) : (c &&& 0xFF#32).toNat < 256 := by
  exact Nat.lt_of_le_of_lt Nat.and_le_right (by decide)

lemma crcTable_getD (c : BitVec 32) :
    crcTable.getD (c &&& 0xFF#32).toNat 0 = step^[8] (c &&& 0xFF#32) := by
  rw [crcTable, List.getD_eq_getElem?_getD, List.getElem?_map,
    List.getElem?_range (and_low_lt c)]
  simp

lemma word_shift (b : UInt8) : word b >>> 8 = 0 := by
  refine BitVec.eq_of_getLsbD_eq fun i _ => ?_
  rw [BitVec.getLsbD_ushiftRight, word, BitVec.getLsbD_setWidth,
    BitVec.getLsbD_of_ge b.toBitVec (8 + i) (by omega), Bool.and_false]
  exact (BitVec.getLsbD_zero).symm

lemma crcByte_eq (c : BitVec 32) (b : UInt8) :
    crcByte c b = (lowBits 8 (word b)).foldl crcBit c := by
  rw [foldl_crcBit 8 c _ (word_shift b), crcByte, crcTable_getD, iterate_eight (c ^^^ word b),
    BitVec.ushiftRight_xor_distrib, word_shift]
  exact (congrArg _ BitVec.xor_zero).symm

/-- **The table computes the CRC-32.** -/
theorem crc32_eq (bytes : Bytes) : crc32 bytes = (crcOfBits bytes).toNat := by
  have hfold : ∀ c, bytes.foldl crcByte c =
      (bytes.flatMap fun b => lowBits 8 (word b)).foldl crcBit c := by
    induction bytes with
    | nil => exact fun _ => rfl
    | cons b bytes ih =>
      intro c
      rw [List.foldl_cons, List.flatMap_cons, List.foldl_append, ih, crcByte_eq]
  rw [crc32, crcOfBits, hfold, show (0xFFFFFFFF#32 : BitVec 32) = BitVec.allOnes 32 from rfl,
    BitVec.xor_allOnes]

/-- The check value of the polynomial: the digits from 1 to 9. -/
example : crc32 [0x31, 0x32, 0x33, 0x34, 0x35, 0x36, 0x37, 0x38, 0x39] = 0xCBF43926 := by
  decide +kernel

end FabPcb.Crc32
