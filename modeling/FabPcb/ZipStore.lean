import FabPcb.ZipFormat

/-!
The writer of ZIP archives whose files are stored as they are.

The archive is as long as a first pass over the files has found, and a second pass fills it from
the front.
-/

namespace FabPcb.ZipStore

open NngFraming (Bytes)
open Crc32 (crc32)
open ZipFormat

/-- The largest size that a header without Zip64 can state. -/
def MAX_SIZE : ℕ := 0xFFFFFFFF

/-! ### Names -/

/-- A code unit of UTF-16 that stands for no character by itself. -/
def isSurrogate (u : UInt16) : Bool := 0xD800 ≤ u.toNat && u.toNat ≤ 0xDFFF

def isHigh (u : UInt16) : Bool := 0xD800 ≤ u.toNat && u.toNat ≤ 0xDBFF

def isLow (u : UInt16) : Bool := 0xDC00 ≤ u.toNat && u.toNat ≤ 0xDFFF

def character (u : UInt16) : Char := if isSurrogate u then '\uFFFD' else Char.ofNat u.toNat

/-- The characters of a string; a surrogate that is alone becomes a replacement character. -/
def characters : List UInt16 → List Char
  | [] => []
  | [u] => [character u]
  | u :: v :: units =>
    if isHigh u && isLow v then
      Char.ofNat (0x10000 + (u.toNat - 0xD800) * 0x400 + (v.toNat - 0xDC00)) :: characters units
    else character u :: characters (v :: units)

/-- No slash at the front, and slashes for backslashes. -/
def normalised (path : List UInt16) : List UInt16 :=
  (path.dropWhile (· = 0x2F)).map fun u => if u = 0x5C then 0x2F else u

/-! ### Dates -/

/-- A date in local time; the months are counted from 0. -/
structure Date where
  fullYear : ℤ
  month : ℕ
  date : ℕ
  hours : ℕ
  minutes : ℕ
  seconds : ℕ

def dosDate (d : Date) : ℕ :=
  (max 1980 d.fullYear - 1980).toNat <<< 9 ||| (d.month + 1) <<< 5 ||| d.date

def dosTime (d : Date) : ℕ := d.hours <<< 11 ||| d.minutes <<< 5 ||| d.seconds >>> 1

/-! ### Files -/

structure ZipEntry where
  /-- In code units of UTF-16. -/
  path : List UInt16
  bytes : Bytes
  modified : Option Date

/-- A file with what the headers say of it. -/
structure File where
  name : Bytes
  bytes : Bytes
  crc : ℕ
  date : ℕ
  time : ℕ

def encodedName (e : ZipEntry) : Bytes := TextDecoding.encode (characters (normalised e.path))

def fileOf (now : Date) (e : ZipEntry) : File where
  name := encodedName e
  bytes := e.bytes
  crc := crc32 e.bytes
  date := dosDate (e.modified.getD now)
  time := dosTime (e.modified.getD now)

def toFile (now : Date) (e : ZipEntry) : Except String File :=
  if MAX_SIZE < e.bytes.length then
    throw (String.ofList (characters e.path) ++ " is too large for a non-Zip64 archive")
  else pure (fileOf now e)

/-! ### The archive -/

/-- The bytes of the archive, and where the next ones go. -/
structure Out where
  bytes : Bytes
  pos : ℕ

/-- Bytes put where the next ones go, if there is room. -/
def put (out : Out) (bytes : Bytes) : Except String Out :=
  if out.pos + bytes.length ≤ out.bytes.length then
    pure ⟨out.bytes.take out.pos ++ bytes ++ out.bytes.drop (out.pos + bytes.length),
      out.pos + bytes.length⟩
  else throw "Offset is outside the bounds of the DataView"

def u16 (v : ℕ) : Bytes := littleEndian 2 v

def u32 (v : ℕ) : Bytes := littleEndian 4 v

def localFields (f : File) : List Bytes :=
  [u32 0x04034B50, u16 20, u16 0x0800, u16 0, u16 f.time, u16 f.date, u32 f.crc,
    u32 f.bytes.length, u32 f.bytes.length, u16 f.name.length, u16 0, f.name, f.bytes]

def centralFields (f : File) (offset : ℕ) : List Bytes :=
  [u32 0x02014B50, u16 20, u16 20, u16 0x0800, u16 0, u16 f.time, u16 f.date, u32 f.crc,
    u32 f.bytes.length, u32 f.bytes.length, u16 f.name.length, u16 0, u16 0, u16 0, u16 0,
    u32 (0o100644 <<< 16), u32 offset, f.name]

def endFields (count centralBytes centralAt : ℕ) : List Bytes :=
  [u32 0x06054B50, u16 0, u16 0, u16 count, u16 count, u32 centralBytes, u32 centralAt, u16 0]

def putAll (out : Out) (fields : List Bytes) : Except String Out := fields.foldlM put out

/-- A file behind those put before, and where it begins behind where those do. -/
def putLocal (state : List ℕ × Out) (f : File) : Except String (List ℕ × Out) := do
  let out ← putAll state.2 (localFields f)
  return (state.1 ++ [state.2.pos], out)

def putCentral (offsets : List ℕ) (out : Out) (f : File × ℕ) : Except String Out :=
  putAll out (centralFields f.1 (offsets.getD f.2 0))

def localSize (files : List File) : ℕ :=
  files.foldl (fun n f => n + 30 + f.name.length + f.bytes.length) 0

def centralSize (files : List File) : ℕ := files.foldl (fun n f => n + 46 + f.name.length) 0

/-- The second pass. -/
def fill (files : List File) (size : ℕ) : Except String Bytes := do
  let (offsets, out) ← files.foldlM putLocal ([], ⟨List.replicate size 0, 0⟩)
  let centralAt := out.pos
  let out ← files.zipIdx.foldlM (putCentral offsets) out
  let centralBytes := out.pos - centralAt
  let out ← putAll out (endFields files.length centralBytes centralAt)
  return out.bytes

/-- The archive of some files. -/
def zipStore (now : Date) (entries : List ZipEntry) : Except String Bytes := do
  let files ← entries.mapM (toFile now)
  let size := localSize files + centralSize files + 22
  if MAX_SIZE < size then throw "the archive is too large for a non-Zip64 zip"
  fill files size

end FabPcb.ZipStore
