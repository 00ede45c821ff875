import Mathlib.Data.List.Basic
import Mathlib.Algebra.Ring.Nat

/-!
The handshake, bodies and frames of nng's request sockets.

A request body is four bytes of request id, big-endian, then the payload; over `ipc` each side
starts with eight bytes that name its protocol, and a body is framed by a type byte and eight
bytes of its length.
-/

namespace FabPcb.NngFraming

abbrev Bytes := List UInt8

def SP_PROTO_REQ0 : ℕ := 0x30

def SP_PROTO_REP0 : ℕ := 0x31

def NNG_FRAME_TYPE_DATA : UInt8 := 1

/-- Request ids carry the top bit. -/
def REQ_ID_FLAG : ℕ := 0x80000000

/-- `setUint32` and `setBigUint64`: `n` bytes of a number, the highest first. -/
def bigEndian : ℕ → ℕ → Bytes
  | 0, _ => []
  | n + 1, v => UInt8.ofNat (v / 256 ^ n) :: bigEndian n v

/-- `getUint32`: the number its bytes, the highest first, stand for. -/
def ofBigEndian (bytes : Bytes) : ℕ := bytes.foldl (fun v b => v * 256 + b.toNat) 0

def encodeSpHandshake (proto : ℕ) : Bytes :=
  [0x00, 0x53, 0x50, 0x00, UInt8.ofNat (proto / 256), UInt8.ofNat proto, 0x00, 0x00]

def encodeNngFrame (body : Bytes) : Bytes :=
  NNG_FRAME_TYPE_DATA :: (bigEndian 8 body.length ++ body)

def encodeReqBody (id : ℕ) (payload : Bytes) : Bytes := bigEndian 4 id ++ payload

/-- A body too short to hold an id is refused. -/
def splitReqBody (body : Bytes) : Except String (ℕ × Bytes) :=
  if body.length < 4 then
    .error ("REQ0 body too short (" ++ toString body.length ++ " bytes)")
  else .ok (ofBigEndian (body.take 4), body.drop 4)

lemma length_bigEndian (n v : ℕ) : (bigEndian n v).length = n := by
  induction n with
  | zero => rfl
  | succ n ih => simp [bigEndian, ih]

lemma foldl_bigEndian (n v a : ℕ) :
    (bigEndian n v).foldl (fun v b => v * 256 + b.toNat) a = a * 256 ^ n + v % 256 ^ n := by
  induction n generalizing a with
  | zero => simp [bigEndian, Nat.mod_one]
  | succ n ih =>
    rw [bigEndian, List.foldl_cons, ih, UInt8.toNat_ofNat']
    have hpow : 256 ^ (n + 1) = 256 ^ n * 256 := Nat.pow_succ 256 n
    have hmod : v % 256 ^ (n + 1) = v / 256 ^ n % 256 * 256 ^ n + v % 256 ^ n := by
      rw [hpow, Nat.mod_mul, Nat.mul_comm, Nat.add_comm]
    rw [hmod, hpow, Nat.add_mul, Nat.mul_assoc, Nat.mul_comm 256 (256 ^ n), Nat.add_assoc]

lemma ofBigEndian_bigEndian {n v : ℕ} (h : v < 256 ^ n) : ofBigEndian (bigEndian n v) = v := by
  rw [ofBigEndian, foldl_bigEndian, Nat.zero_mul, Nat.zero_add, Nat.mod_eq_of_lt h]

/-- **A body is read back as it was written**, for any id of 32 bits. -/
theorem splitReqBody_encodeReqBody {id : ℕ} (h : id < 2 ^ 32) (payload : Bytes) :
    splitReqBody (encodeReqBody id payload) = .ok (id, payload) := by
  have hlen : (bigEndian 4 id).length = 4 := length_bigEndian 4 id
  have hlong : ¬ (encodeReqBody id payload).length < 4 := by
    simp [encodeReqBody, hlen]
  rw [splitReqBody, if_neg hlong, encodeReqBody, List.take_left' hlen, List.drop_left' hlen,
    ofBigEndian_bigEndian (by omega)]

end FabPcb.NngFraming
