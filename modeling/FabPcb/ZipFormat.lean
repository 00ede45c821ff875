import FabPcb.Crc32
import FabPcb.TextDecoding

/-!
What a ZIP archive says, by the format.

The end record stands at the end, before a comment. It tells where the central directory is, which
describes each file and tells where its local header is; that describes the file once more, and
the bytes of the file follow. Files are stored as they are.
-/

namespace FabPcb.ZipFormat

open NngFraming (Bytes)
open Crc32 (crcOfBits)

/-! ### Numbers -/

/-- A number in so many bytes, the lowest first. -/
def littleEndian : ℕ → ℕ → Bytes
  | 0, _ => []
  | n + 1, v => UInt8.ofNat (v % 256) :: littleEndian n (v / 256)

def ofLittleEndian : Bytes → ℕ
  | [] => 0
  | b :: bytes => b.toNat + 256 * ofLittleEndian bytes

lemma length_littleEndian (n v : ℕ) : (littleEndian n v).length = n := by
  induction n generalizing v with
  | zero => rfl
  | succ n ih => rw [littleEndian, List.length_cons, ih]

lemma ofLittleEndian_littleEndian (n v : ℕ) :
    ofLittleEndian (littleEndian n v) = v % 256 ^ n := by
  induction n generalizing v with
  | zero => simp [littleEndian, ofLittleEndian, Nat.mod_one]
  | succ n ih =>
    have hbyte : (UInt8.ofNat (v % 256)).toNat = v % 256 := by
      exact Nat.mod_eq_of_lt (Nat.mod_lt _ (by decide))
    rw [littleEndian, ofLittleEndian, ih, hbyte, pow_succ', Nat.mod_mul]

lemma ofLittleEndian_lt (bytes : Bytes) : ofLittleEndian bytes < 256 ^ bytes.length := by
  induction bytes with
  | nil => decide
  | cons b bytes ih =>
    have hb : b.toNat < 256 := b.toNat_lt
    rw [ofLittleEndian, List.length_cons]
    omega

/-! ### Reading -/

/-- What is read off some bytes, and the bytes that are left. -/
abbrev Reader := StateT Bytes Option

def raw (n : ℕ) : Reader Bytes := fun bytes =>
  if n ≤ bytes.length then some (bytes.take n, bytes.drop n) else none

def number (n : ℕ) : Reader ℕ := do return ofLittleEndian (← raw n)

def check (p : Prop) [Decidable p] : Reader Unit := if p then pure () else failure

/-- So many of what a reader reads. -/
def several {α : Type} (r : Reader α) : ℕ → Reader (List α)
  | 0 => pure []
  | n + 1 => do
    let x ← r
    let xs ← several r n
    return x :: xs

/-! ### Records -/

/-- What is said of a file twice. -/
structure FileHeader where
  needed : ℕ
  flags : ℕ
  method : ℕ
  time : ℕ
  date : ℕ
  crc : ℕ
  compressed : ℕ
  uncompressed : ℕ
  name : Bytes
  deriving DecidableEq

structure CentralHeader extends FileHeader where
  offset : ℕ

structure EndRecord where
  disk : ℕ
  startDisk : ℕ
  here : ℕ
  total : ℕ
  size : ℕ
  offset : ℕ

def readLocal : Reader FileHeader := do
  check ((← number 4) = 0x04034B50)
  let needed ← number 2
  let flags ← number 2
  let method ← number 2
  let time ← number 2
  let date ← number 2
  let crc ← number 4
  let compressed ← number 4
  let uncompressed ← number 4
  let nameLength ← number 2
  let extraLength ← number 2
  let name ← raw nameLength
  let _ ← raw extraLength
  return ⟨needed, flags, method, time, date, crc, compressed, uncompressed, name⟩

def readCentral : Reader CentralHeader := do
  check ((← number 4) = 0x02014B50)
  let _madeBy ← number 2
  let needed ← number 2
  let flags ← number 2
  let method ← number 2
  let time ← number 2
  let date ← number 2
  let crc ← number 4
  let compressed ← number 4
  let uncompressed ← number 4
  let nameLength ← number 2
  let extraLength ← number 2
  let commentLength ← number 2
  let disk ← number 2
  let _internal ← number 2
  let _external ← number 4
  let offset ← number 4
  let name ← raw nameLength
  let _ ← raw extraLength
  let _ ← raw commentLength
  check (disk = 0)
  return ⟨⟨needed, flags, method, time, date, crc, compressed, uncompressed, name⟩, offset⟩

/-- An end record whose comment goes on to the end. -/
def readEnd : Reader EndRecord := do
  check ((← number 4) = 0x06054B50)
  let disk ← number 2
  let startDisk ← number 2
  let here ← number 2
  let total ← number 2
  let size ← number 4
  let offset ← number 4
  let commentLength ← number 2
  let _ ← raw commentLength
  check ((← get) = [])
  return ⟨disk, startDisk, here, total, size, offset⟩

/-- The last end record, searched for backwards from the length of its comment on. -/
def findEnd (archive : Bytes) : ℕ → ℕ → Option (ℕ × EndRecord)
  | 0, _ => none
  | fuel + 1, comment =>
    let start := archive.length - 22 - comment
    ((readEnd.run' (archive.drop start)).map (Prod.mk start)).or
      (findEnd archive fuel (comment + 1))

/-! ### Files -/

/-- A file of an archive. -/
structure Member where
  name : List Char
  bytes : Bytes
  size : ℕ
  crc : ℕ
  deriving DecidableEq

/-- A text in UTF-8, if the bytes are one. -/
def utf8Text (bytes : Bytes) : Option (List Char) :=
  let text := TextDecoding.decodeFrom bytes.length bytes
  if TextDecoding.encode text = bytes then some text else none

/-- The file that a central header tells of: a stored one, which its local header tells of
alike, and whose bytes have the CRC-32 that they both state. -/
def readMember (archive : Bytes) (h : CentralHeader) : Option Member :=
  StateT.run' (do
    let header ← readLocal
    check (header = h.toFileHeader)
    check (h.flags = 0x0800 ∧ h.method = 0 ∧ h.compressed = h.uncompressed)
    let bytes ← raw h.compressed
    check ((crcOfBits bytes).toNat = h.crc)
    let name ← StateT.lift (utf8Text h.name)
    return ⟨name, bytes, h.uncompressed, h.crc⟩) (archive.drop h.offset)

/-- The files of an archive. The central directory ends where the end record begins, and holds as
many headers as that counts. -/
def unzip (archive : Bytes) : Option (List Member) := do
  let (start, tail) ← findEnd archive 0x10000 0
  guard (tail.disk = 0 ∧ tail.startDisk = 0 ∧ tail.here = tail.total ∧
    tail.offset + tail.size = start)
  let headers ← StateT.run' (do
    let headers ← several readCentral tail.total
    check ((← get) = [])
    return headers) ((archive.take start).drop tail.offset)
  headers.mapM (readMember archive)

end FabPcb.ZipFormat
