import Mathlib.Algebra.Ring.Nat
import Mathlib.Data.List.Basic

/-!
The wire format of protocol buffers: varints and the fields of a message.

A number can be written in more bytes than it needs, and the fields of a message can stand in any
order. What a field means is not known here; groups are left out.
-/

namespace FabPcb.WireFormat

/-- The bytes of a varint: seven bits in each, the lowest first, and the eighth bit where more
follow. -/
inductive Varint : ℕ → List UInt8 → Prop
  | last {b : UInt8} (h : b.toNat < 128) : Varint b.toNat [b]
  | more {b : UInt8} {n : ℕ} {bytes : List UInt8} (h : 128 ≤ b.toNat) (hrest : Varint n bytes) :
    Varint (b.toNat % 128 + 128 * n) (b :: bytes)

/-- A field of a message, by its number. -/
inductive WireField
  | varint (number value : ℕ)
  | fixed64 (number : ℕ) (bytes : List UInt8)
  | delimited (number : ℕ) (bytes : List UInt8)
  | fixed32 (number : ℕ) (bytes : List UInt8)

def WireField.number : WireField → ℕ
  | varint number _ | fixed64 number _ | delimited number _ | fixed32 number _ => number

def WireField.wireType : WireField → ℕ
  | varint .. => 0
  | fixed64 .. => 1
  | delimited .. => 2
  | fixed32 .. => 5

/-- What stands behind the key of a field. A length is that of an array. -/
inductive Payload : WireField → List UInt8 → Prop
  | varint {number value : ℕ} {bytes : List UInt8} (h : Varint value bytes)
    (hlength : bytes.length ≤ 10) : Payload (.varint number value) bytes
  | fixed64 {number : ℕ} {bytes : List UInt8} (h : bytes.length = 8) :
    Payload (.fixed64 number bytes) bytes
  | delimited {number : ℕ} {length bytes : List UInt8} (h : Varint bytes.length length)
    (hlength : length.length ≤ 10) (harray : bytes.length < 2 ^ 53) :
    Payload (.delimited number bytes) (length ++ bytes)
  | fixed32 {number : ℕ} {bytes : List UInt8} (h : bytes.length = 4) :
    Payload (.fixed32 number bytes) bytes

/-- The bytes of a field: its key and what stands behind it. -/
inductive EncodesField : WireField → List UInt8 → Prop
  | mk {f : WireField} {key payload : List UInt8} (hnumber : 0 < f.number ∧ f.number < 2 ^ 29)
    (hkey : Varint (f.number * 8 + f.wireType) key) (hlength : key.length ≤ 10)
    (hpayload : Payload f payload) : EncodesField f (key ++ payload)

/-- The bytes of a message. -/
inductive Encodes : List WireField → List UInt8 → Prop
  | nil : Encodes [] []
  | cons {f : WireField} {fs : List WireField} {field rest : List UInt8} (h : EncodesField f field)
    (hrest : Encodes fs rest) : Encodes (f :: fs) (field ++ rest)

/-- The payloads of the length-delimited fields of a number, in order. -/
def delimited (number : ℕ) (fs : List WireField) : List (List UInt8) :=
  fs.filterMap fun
    | .delimited n bytes => if n = number then some bytes else none
    | .varint .. | .fixed64 .. | .fixed32 .. => none

/-! ### Lengths -/

lemma Varint.length_pos {n : ℕ} {bytes : List UInt8} (h : Varint n bytes) : 0 < bytes.length := by
  cases h <;> simp

lemma EncodesField.length_pos {f : WireField} {bytes : List UInt8} (h : EncodesField f bytes) :
    0 < bytes.length := by
  obtain ⟨-, hkey, -, -⟩ := h
  have := hkey.length_pos
  simp only [List.length_append]
  omega

lemma Encodes.length_le {fs : List WireField} {bytes : List UInt8} (h : Encodes fs bytes) :
    fs.length ≤ bytes.length := by
  induction h with
  | nil => exact Nat.le_refl _
  | cons hfield _ ih =>
    have := hfield.length_pos
    simp only [List.length_cons, List.length_append]
    omega

/-! ### Given bytes -/

lemma varint_byte {n : ℕ} {b : UInt8} (h : b.toNat = n) (hn : n < 128) : Varint n [b] := by
  subst h
  exact .last hn

lemma varint_more {n k : ℕ} {b : UInt8} {bytes : List UInt8} (hb : 128 ≤ b.toNat)
    (hrest : Varint k bytes) (h : b.toNat % 128 + 128 * k = n) : Varint n (b :: bytes) := by
  subst h
  exact .more hb hrest

lemma delimited_bytes {number : ℕ} {key length : UInt8} {bytes : List UInt8}
    (hnumber : 0 < number ∧ number < 16) (hkey : key.toNat = number * 8 + 2)
    (hlength : length.toNat = bytes.length) (hbytes : bytes.length < 128) :
    EncodesField (.delimited number bytes) (key :: length :: bytes) := by
  have hpayload : Payload (.delimited number bytes) ([length] ++ bytes) :=
    .delimited (varint_byte hlength hbytes) (by simp) (by omega)
  have hfield : EncodesField (.delimited number bytes) ([key] ++ ([length] ++ bytes)) :=
    .mk ⟨hnumber.1, show number < 2 ^ 29 by omega⟩
      (varint_byte hkey (show number * 8 + 2 < 128 by omega)) (by simp) hpayload
  exact hfield

lemma encodes_one {f : WireField} {field : List UInt8} (h : EncodesField f field) :
    Encodes [f] field := by
  have hone : Encodes [f] (field ++ []) := .cons h .nil
  rwa [List.append_nil] at hone

lemma encodes_cons {f : WireField} {fs : List WireField} {field rest bytes : List UInt8}
    (h : EncodesField f field) (hrest : Encodes fs rest) (hbytes : field ++ rest = bytes) :
    Encodes (f :: fs) bytes :=
  hbytes ▸ .cons h hrest

end FabPcb.WireFormat
