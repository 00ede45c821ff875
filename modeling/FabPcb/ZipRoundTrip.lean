import FabPcb.RequestRules
import FabPcb.ZipStore
import Mathlib.Algebra.Order.BigOperators.Group.List

/-!
What is written into an archive and what is read off it.

The writer fills the archive exactly, so it is the records one behind the other. Each record is
read back as it was written as long as what it states fits its fields, and no archive at all
holds more files, or longer names, than the fields can state.
-/

namespace FabPcb.ZipRoundTrip

open NngFraming (Bytes)
open Crc32 (crc32 crcOfBits crc32_eq)
open ZipFormat ZipStore

/-! ### Readers -/

section Readers

variable {α β : Type} {r : Reader α} {bytes rest : Bytes} {n v : ℕ}

lemma bind_apply (r : Reader α) (f : α → Reader β) (bytes : Bytes) :
    (r >>= f) bytes = (r bytes).bind fun p => f p.1 p.2 := rfl

lemma reads_bind {f : α → Reader β} {x : α} {mid : Bytes} {out : Option (β × Bytes)}
    (hr : r bytes = some (x, mid)) (hf : f x mid = out) : (r >>= f) bytes = out := by
  rw [bind_apply, hr, Option.bind_some, hf]

lemma pure_apply (x : α) (bytes : Bytes) : (pure x : Reader α) bytes = some (x, bytes) := rfl

lemma get_apply (bytes : Bytes) : (get : Reader Bytes) bytes = some (bytes, bytes) := rfl

lemma raw_append (h : bytes.length = n) : raw n (bytes ++ rest) = some (bytes, rest) := by
  subst h
  simp [raw]

lemma raw_zero (bytes : Bytes) : raw 0 bytes = some ([], bytes) := rfl

lemma number_append (n v : ℕ) (rest : Bytes) :
    number n (littleEndian n v ++ rest) = some (v % 256 ^ n, rest) := by
  rw [number, bind_apply, raw_append (length_littleEndian n v), Option.bind_some, pure_apply,
    ofLittleEndian_littleEndian]

lemma check_pos {p : Prop} [Decidable p] (h : p) (bytes : Bytes) :
    check p bytes = some ((), bytes) := by
  rw [check, if_pos h]
  rfl

/-- Whatever a reader reads is of a kind. -/
def Ensures (r : Reader α) (P : α → Prop) : Prop :=
  ∀ bytes x rest, r bytes = some (x, rest) → P x

lemma Ensures.trivial (r : Reader α) : Ensures r fun _ => True := fun _ _ _ _ => True.intro

lemma Ensures.pure {P : α → Prop} {x : α} (h : P x) : Ensures (pure x) P := by
  intro bytes y rest hy
  rw [pure_apply, Option.some.injEq, Prod.mk.injEq] at hy
  exact hy.1 ▸ h

lemma Ensures.bind {P : α → Prop} {Q : β → Prop} {f : α → Reader β} (hr : Ensures r P)
    (hf : ∀ x, P x → Ensures (f x) Q) : Ensures (r >>= f) Q := fun bytes y rest hy => by
  rw [bind_apply, Option.bind_eq_some_iff] at hy
  obtain ⟨⟨x, mid⟩, hx, hy⟩ := hy
  exact hf x (hr _ _ _ hx) _ _ _ hy

lemma Ensures.skip {Q : β → Prop} {f : α → Reader β} (hf : ∀ x, Ensures (f x) Q) :
    Ensures (r >>= f) Q := (Ensures.trivial r).bind fun x _ => hf x

lemma ensures_raw (n : ℕ) : Ensures (raw n) fun bytes => bytes.length = n := by
  intro bytes x rest h
  rw [raw, Option.ite_none_right_eq_some] at h
  obtain ⟨hn, h⟩ := h
  rw [Option.some.injEq, Prod.mk.injEq] at h
  rw [← h.1, List.length_take, Nat.min_eq_left hn]

lemma ensures_number (n : ℕ) : Ensures (number n) (· < 256 ^ n) :=
  (ensures_raw n).bind fun bytes hbytes => .pure (hbytes ▸ ofLittleEndian_lt bytes)

lemma ensures_several {P : α → Prop} (h : Ensures r P) (n : ℕ) :
    Ensures (several r n) fun xs => xs.length = n ∧ ∀ x ∈ xs, P x := by
  induction n with
  | zero => exact .pure (by simp)
  | succ n ih =>
    refine h.bind fun x hx => ih.bind fun xs hxs => .pure ?_
    simp only [List.length_cons, hxs.1, List.forall_mem_cons, true_and]
    exact ⟨hx, hxs.2⟩

end Readers

/-! ### What fits into the fields -/

lemma ensures_readCentral : Ensures readCentral fun h => h.name.length < 0x10000 := by
  -- the fields before the length of the name
  iterate 11 refine .skip fun _ => ?_
  refine (ensures_number 2).bind fun nameLength hlength => ?_
  iterate 6 refine .skip fun _ => ?_
  refine (ensures_raw nameLength).bind fun name hname => ?_
  iterate 3 refine .skip fun _ => ?_
  exact .pure (hname ▸ hlength)

lemma ensures_readEnd : Ensures readEnd fun tail => tail.total < 0x10000 := by
  -- the signature, the numbers of the disks and the count of this disk
  iterate 5 refine .skip fun _ => ?_
  refine (ensures_number 2).bind fun total htotal => ?_
  iterate 6 refine .skip fun _ => ?_
  exact .pure htotal

lemma run'_eq_some {α : Type} {r : Reader α} {bytes : Bytes} {x : α} (h : r.run' bytes = some x) :
    ∃ rest, r bytes = some (x, rest) := by
  obtain ⟨⟨y, rest⟩, hy, rfl⟩ := Option.map_eq_some_iff.mp h
  exact ⟨rest, hy⟩

lemma findEnd_total {archive : Bytes} {fuel comment start : ℕ} {tail : EndRecord}
    (h : findEnd archive fuel comment = some (start, tail)) : tail.total < 0x10000 := by
  induction fuel generalizing comment with
  | zero => cases h
  | succ fuel ih =>
    rw [findEnd, Option.or_eq_some_iff] at h
    rcases h with h | ⟨-, h⟩
    · obtain ⟨tail', htail, heq⟩ := Option.map_eq_some_iff.mp h
      obtain ⟨rest, hrest⟩ := run'_eq_some htail
      obtain ⟨-, rfl⟩ := Prod.mk.inj heq
      exact ensures_readEnd _ _ _ hrest
    · exact ih h

lemma utf8Text_eq_some {bytes : Bytes} {text : List Char} (h : utf8Text bytes = some text) :
    TextDecoding.encode text = bytes := by
  obtain ⟨henc, htext⟩ := Option.ite_none_right_eq_some.mp h
  rw [← Option.some.inj htext, henc]

lemma utf8Text_encode (text : List Char) : utf8Text (TextDecoding.encode text) = some text := by
  rw [utf8Text, TextDecoding.decodeFrom_encode text (TextDecoding.length_le_encode text)]
  exact if_pos rfl

lemma readMember_name {archive : Bytes} {h : CentralHeader} {m : Member}
    (hm : readMember archive h = some m) : TextDecoding.encode m.name = h.name := by
  obtain ⟨rest, hrest⟩ := run'_eq_some hm
  have hname : Ensures (StateT.lift (utf8Text h.name) : Reader _)
      fun name => TextDecoding.encode name = h.name := fun bytes name rest' hlift => by
    obtain ⟨text, htext, heq⟩ := Option.bind_eq_some_iff.mp hlift
    cases heq
    exact utf8Text_eq_some htext
  have hmember : Ensures (do
      let header ← readLocal
      check (header = h.toFileHeader)
      check (h.flags = 0x0800 ∧ h.method = 0 ∧ h.compressed = h.uncompressed)
      let bytes ← raw h.compressed
      check ((crcOfBits bytes).toNat = h.crc)
      let name ← StateT.lift (utf8Text h.name)
      return (⟨name, bytes, h.uncompressed, h.crc⟩ : Member))
      fun m => TextDecoding.encode m.name = h.name := by
    iterate 5 refine .skip fun _ => ?_
    exact hname.bind fun name hname => .pure hname
  exact hmember _ _ _ hrest

lemma mapM_eq_some {α β : Type} {f : α → Option β} {l : List α} {l' : List β}
    (h : l.mapM f = some l') : l'.length = l.length ∧ ∀ y ∈ l', ∃ x ∈ l, f x = some y := by
  induction l generalizing l' with
  | nil =>
    obtain rfl : [] = l' := Option.some.inj h
    simp
  | cons x l ih =>
    rw [List.mapM_cons] at h
    obtain ⟨y, hy, h⟩ := Option.bind_eq_some_iff.mp h
    obtain ⟨ys, hys, h⟩ := Option.bind_eq_some_iff.mp h
    obtain rfl : y :: ys = l' := Option.some.inj h
    obtain ⟨hlength, hall⟩ := ih hys
    refine ⟨by rw [List.length_cons, List.length_cons, hlength], fun z hz => ?_⟩
    rcases List.mem_cons.mp hz with rfl | hz
    · exact ⟨x, List.mem_cons_self, hy⟩
    · obtain ⟨w, hw, hz⟩ := hall z hz
      exact ⟨w, List.mem_cons_of_mem _ hw, hz⟩

/-- **What any archive can hold.** At most 65535 files, with names of at most 65535 bytes. -/
theorem unzip_fits {archive : Bytes} {members : List Member} (h : unzip archive = some members) :
    members.length < 0x10000 ∧
      ∀ m ∈ members, (TextDecoding.encode m.name).length < 0x10000 := by
  obtain ⟨⟨start, tail⟩, htail, h⟩ := Option.bind_eq_some_iff.mp h
  obtain ⟨-, -, h⟩ := Option.bind_eq_some_iff.mp h
  obtain ⟨headers, hheaders, h⟩ := Option.bind_eq_some_iff.mp h
  obtain ⟨rest, hrest⟩ := run'_eq_some hheaders
  have hread : Ensures (do
      let headers ← several readCentral tail.total
      check ((← get) = [])
      return headers) fun xs => xs.length = tail.total ∧ ∀ x ∈ xs, x.name.length < 0x10000 := by
    refine (ensures_several ensures_readCentral tail.total).bind fun xs hxs => ?_
    iterate 2 refine .skip fun _ => ?_
    exact .pure hxs
  obtain ⟨hcount, hnames⟩ := hread _ _ _ hrest
  obtain ⟨hlength, hmembers⟩ := mapM_eq_some h
  refine ⟨by rw [hlength, hcount]; exact findEnd_total htail, fun m hm => ?_⟩
  obtain ⟨header, hheader, hmember⟩ := hmembers m hm
  rw [readMember_name hmember]
  exact hnames header hheader

/-! ### Records read back -/

/-- The headers can state the name and the size of a file. -/
structure Fits (f : File) : Prop where
  name : f.name.length < 0x10000
  bytes : f.bytes.length ≤ MAX_SIZE
  crc : f.crc = (crcOfBits f.bytes).toNat

/-- What both headers of a file say. -/
def headerOf (f : File) : FileHeader where
  needed := 20
  flags := 0x0800
  method := 0
  time := f.time % 0x10000
  date := f.date % 0x10000
  crc := f.crc
  compressed := f.bytes.length
  uncompressed := f.bytes.length
  name := f.name

variable {f : File} {files : List File} {offset : ℕ} {rest : Bytes}

lemma number_u16 (v : ℕ) (rest : Bytes) : number 2 (u16 v ++ rest) = some (v % 0x10000, rest) :=
  number_append 2 v rest

lemma number_u32 (v : ℕ) (rest : Bytes) :
    number 4 (u32 v ++ rest) = some (v % 0x100000000, rest) := number_append 4 v rest

lemma Fits.mods (h : Fits f) : f.name.length % 0x10000 = f.name.length ∧
    f.bytes.length % 0x100000000 = f.bytes.length ∧ f.crc % 0x100000000 = f.crc := by
  have hcrc : (crcOfBits f.bytes).toNat < 2 ^ 32 := (crcOfBits f.bytes).isLt
  have hbytes := h.bytes
  rw [MAX_SIZE] at hbytes
  exact ⟨Nat.mod_eq_of_lt h.name, Nat.mod_eq_of_lt (by omega),
    Nat.mod_eq_of_lt (by rw [h.crc]; exact hcrc)⟩

lemma readLocal_localFields (h : Fits f) (rest : Bytes) :
    readLocal ((localFields f).flatten ++ rest) = some (headerOf f, f.bytes ++ rest) := by
  obtain ⟨hname, hbytes, hcrc⟩ := h.mods
  simp only [localFields, List.flatten_cons, List.flatten_nil, List.append_assoc, List.nil_append]
  refine reads_bind (number_u32 _ _) (reads_bind (check_pos rfl _) ?_)
  iterate 5 refine reads_bind (number_u16 _ _) ?_
  iterate 3 refine reads_bind (number_u32 _ _) ?_
  iterate 2 refine reads_bind (number_u16 _ _) ?_
  refine reads_bind (raw_append hname.symm) (reads_bind (raw_zero _) ?_)
  rw [hbytes, hcrc]
  rfl

lemma readCentral_centralFields (h : Fits f) (hoffset : offset ≤ MAX_SIZE) (rest : Bytes) :
    readCentral ((centralFields f offset).flatten ++ rest) =
      some (⟨headerOf f, offset⟩, rest) := by
  obtain ⟨hname, hbytes, hcrc⟩ := h.mods
  have hat : offset % 0x100000000 = offset := Nat.mod_eq_of_lt (by rw [MAX_SIZE] at hoffset; omega)
  simp only [centralFields, List.flatten_cons, List.flatten_nil, List.append_assoc, List.nil_append]
  refine reads_bind (number_u32 _ _) (reads_bind (check_pos rfl _) ?_)
  iterate 6 refine reads_bind (number_u16 _ _) ?_
  iterate 3 refine reads_bind (number_u32 _ _) ?_
  iterate 5 refine reads_bind (number_u16 _ _) ?_
  iterate 2 refine reads_bind (number_u32 _ _) ?_
  refine reads_bind (raw_append hname.symm) ?_
  rw [hbytes, hcrc, hat]
  rfl

lemma readEnd_endFields {count size : ℕ} (hcount : count < 0x10000) (hsize : size ≤ MAX_SIZE)
    (hoffset : offset ≤ MAX_SIZE) : readEnd (endFields count size offset).flatten =
      some (⟨0, 0, count, count, size, offset⟩, []) := by
  rw [MAX_SIZE] at hsize hoffset
  have hcount' : count % 0x10000 = count := Nat.mod_eq_of_lt hcount
  have hsize' : size % 0x100000000 = size := Nat.mod_eq_of_lt (by omega)
  have hoffset' : offset % 0x100000000 = offset := Nat.mod_eq_of_lt (by omega)
  simp only [endFields, List.flatten_cons, List.flatten_nil]
  refine reads_bind (number_u32 _ _) (reads_bind (check_pos rfl _) ?_)
  iterate 4 refine reads_bind (number_u16 _ _) ?_
  iterate 2 refine reads_bind (number_u32 _ _) ?_
  refine reads_bind (number_u16 _ _) (reads_bind (raw_zero _) ?_)
  refine reads_bind (get_apply _) (reads_bind (check_pos rfl _) ?_)
  rw [pure_apply, hcount', hsize', hoffset']

/-! ### The archive as it is filled -/

/-- An archive filled so far, with room for more bytes. -/
def filled (done : Bytes) (room : ℕ) : Out := ⟨done ++ List.replicate room 0, done.length⟩

variable {done : Bytes} {room : ℕ}

lemma put_filled (done bytes : Bytes) (room : ℕ) :
    put (filled done (bytes.length + room)) bytes = .ok (filled (done ++ bytes) room) := by
  have hroom : done.length + bytes.length ≤
      (done ++ List.replicate (bytes.length + room) (0 : UInt8)).length := by simp
  have htail : List.replicate (bytes.length + room) (0 : UInt8) =
      List.replicate bytes.length 0 ++ List.replicate room 0 := List.replicate_add _ _ _
  rw [put, filled, if_pos hroom, htail, List.take_left, ← List.append_assoc,
    List.drop_left' (by simp), filled, List.length_append]
  rfl

lemma putAll_filled (fields : List Bytes) (done : Bytes) (room : ℕ) :
    putAll (filled done (fields.flatten.length + room)) fields =
      .ok (filled (done ++ fields.flatten) room) := by
  induction fields generalizing done with
  | nil => simp [putAll, pure, Except.pure]
  | cons bytes fields ih =>
    rw [putAll, List.foldlM_cons, List.flatten_cons, List.length_append, Nat.add_assoc, put_filled]
    change putAll _ fields = _
    rw [ih, List.append_assoc]

/-- The local headers with their files, one behind the other. -/
def locals (files : List File) : Bytes := files.flatMap fun f => (localFields f).flatten

/-- Where files begin that are put from a place on. -/
def offsetsFrom : ℕ → List File → List ℕ
  | _, [] => []
  | n, f :: files => n :: offsetsFrom (n + (localFields f).flatten.length) files

/-- The headers of the central directory, one behind the other. -/
def centrals (files : List (File × ℕ)) : Bytes :=
  files.flatMap fun p => (centralFields p.1 p.2).flatten

lemma locals_cons (f : File) (files : List File) :
    locals (f :: files) = (localFields f).flatten ++ locals files := List.flatMap_cons

lemma centrals_cons (p : File × ℕ) (files : List (File × ℕ)) :
    centrals (p :: files) = (centralFields p.1 p.2).flatten ++ centrals files := List.flatMap_cons

lemma length_offsetsFrom (n : ℕ) (files : List File) :
    (offsetsFrom n files).length = files.length := by
  induction files generalizing n with
  | nil => rfl
  | cons f files ih => rw [offsetsFrom, List.length_cons, List.length_cons, ih]

lemma putLocals_filled (files : List File) (offsets : List ℕ) (done : Bytes) (room : ℕ) :
    files.foldlM putLocal (offsets, filled done ((locals files).length + room)) =
      .ok (offsets ++ offsetsFrom done.length files, filled (done ++ locals files) room) := by
  induction files generalizing offsets done with
  | nil => simp [locals, offsetsFrom, pure, Except.pure]
  | cons f files ih =>
    have hput : putLocal (offsets, filled done ((locals (f :: files)).length + room)) f =
        .ok (offsets ++ [done.length],
          filled (done ++ (localFields f).flatten) ((locals files).length + room)) := by
      rw [putLocal, locals_cons, List.length_append, Nat.add_assoc, putAll_filled]
      rfl
    rw [List.foldlM_cons, hput]
    change files.foldlM putLocal _ = _
    rw [ih, List.length_append, List.append_assoc, List.append_assoc]
    rfl

lemma putCentrals_filled (files : List File) (before offsets : List ℕ)
    (hoffsets : offsets.length = files.length) (done : Bytes) (room : ℕ) :
    (files.zipIdx before.length).foldlM (putCentral (before ++ offsets))
        (filled done ((centrals (files.zip offsets)).length + room)) =
      .ok (filled (done ++ centrals (files.zip offsets)) room) := by
  induction files generalizing before offsets done with
  | nil => simp [centrals, pure, Except.pure]
  | cons f files ih =>
    obtain ⟨offset, offsets, rfl⟩ := List.exists_cons_of_length_eq_add_one hoffsets
    have hget : (before ++ offset :: offsets).getD before.length 0 = offset := by
      simp [List.getD_eq_getElem?_getD]
    rw [List.zipIdx_cons, List.foldlM_cons, putCentral, hget, List.zip_cons_cons, centrals_cons,
      List.length_append, Nat.add_assoc, putAll_filled]
    change (files.zipIdx (before.length + 1)).foldlM _ _ = _
    have hsplit : before ++ offset :: offsets = (before ++ [offset]) ++ offsets := by simp
    have hlength : before.length + 1 = (before ++ [offset]).length := by simp
    rw [hsplit, hlength, ih _ _ (Nat.succ.inj hoffsets), List.append_assoc]

/-! ### Sizes -/

lemma length_localFields (f : File) :
    (localFields f).flatten.length = 30 + f.name.length + f.bytes.length := by
  simp only [localFields, List.flatten_cons, List.flatten_nil, List.length_append, u16, u32,
    length_littleEndian, List.length_nil]
  omega

lemma length_centralFields (f : File) (offset : ℕ) :
    (centralFields f offset).flatten.length = 46 + f.name.length := by
  simp only [centralFields, List.flatten_cons, List.flatten_nil, List.length_append, u16, u32,
    length_littleEndian, List.length_nil]
  omega

lemma length_endFields (count size offset : ℕ) :
    (endFields count size offset).flatten.length = 22 := by
  simp [endFields, List.flatten_cons, List.flatten_nil, List.length_append, u16, u32,
    length_littleEndian]

lemma localSize_eq (files : List File) : localSize files = (locals files).length := by
  have hfold : ∀ n, files.foldl (fun n f => n + 30 + f.name.length + f.bytes.length) n =
      n + (locals files).length := by
    induction files with
    | nil => exact fun _ => rfl
    | cons f files ih =>
      intro n
      rw [List.foldl_cons, ih, locals_cons, List.length_append, length_localFields]
      omega
  rw [localSize, hfold, Nat.zero_add]

lemma centralSize_eq (files : List File) (offsets : List ℕ)
    (hoffsets : offsets.length = files.length) :
    centralSize files = (centrals (files.zip offsets)).length := by
  have hfold : ∀ n, files.foldl (fun n f => n + 46 + f.name.length) n =
      n + (centrals (files.zip offsets)).length := by
    induction files generalizing offsets with
    | nil => exact fun _ => rfl
    | cons f files ih =>
      obtain ⟨offset, offsets, rfl⟩ := List.exists_cons_of_length_eq_add_one hoffsets
      intro n
      rw [List.foldl_cons, ih offsets (Nat.succ.inj hoffsets), List.zip_cons_cons, centrals_cons,
        List.length_append, length_centralFields]
      dsimp only
      omega
  rw [centralSize, hfold, Nat.zero_add]

/-! ### The archive -/

/-- The central directory of some files. -/
def directory (files : List File) : Bytes := centrals (files.zip (offsetsFrom 0 files))

def archiveOf (files : List File) : Bytes :=
  locals files ++ directory files ++
    (endFields files.length (directory files).length (locals files).length).flatten

/-- The size of the archive of some entries. -/
def archiveSize (entries : List ZipEntry) : ℕ :=
  (entries.map fun e => 76 + 2 * (encodedName e).length + e.bytes.length).sum + 22

lemma length_archiveOf (files : List File) :
    (archiveOf files).length = localSize files + centralSize files + 22 := by
  rw [archiveOf, List.length_append, List.length_append, length_endFields, localSize_eq,
    centralSize_eq files _ (length_offsetsFrom 0 files), directory]

variable {now : Date} {entries : List ZipEntry}

lemma archiveSize_eq (now : Date) (entries : List ZipEntry) :
    localSize (entries.map (fileOf now)) + centralSize (entries.map (fileOf now)) + 22 =
      archiveSize entries := by
  have hsizes : ∀ n, (locals (entries.map (fileOf now))).length + (centrals
      ((entries.map (fileOf now)).zip (offsetsFrom n (entries.map (fileOf now))))).length =
      (entries.map fun e => 76 + 2 * (encodedName e).length + e.bytes.length).sum := by
    induction entries with
    | nil => exact fun _ => rfl
    | cons e entries ih =>
      intro n
      rw [List.map_cons, List.map_cons, List.sum_cons, locals_cons, offsetsFrom,
        List.zip_cons_cons, centrals_cons, List.length_append, List.length_append,
        ← ih (n + (localFields (fileOf now e)).flatten.length), length_localFields,
        length_centralFields]
      simp only [fileOf]
      omega
  rw [localSize_eq, centralSize_eq _ _ (length_offsetsFrom 0 _), archiveSize, hsizes]

lemma length_bytes_le {e : ZipEntry} (he : e ∈ entries) : e.bytes.length ≤ archiveSize entries := by
  have hsum := List.single_le_sum (fun n _ => Nat.zero_le n) _
    (List.mem_map_of_mem (f := fun e => 76 + 2 * (encodedName e).length + e.bytes.length) he)
  rw [archiveSize]
  omega

lemma toFile_eq_ok {e : ZipEntry} {file : File} (h : toFile now e = .ok file) :
    file = fileOf now e := by
  by_cases hlarge : MAX_SIZE < e.bytes.length
  · rw [toFile, if_pos hlarge] at h
    cases h
  · rw [toFile, if_neg hlarge] at h
    exact (Except.ok.inj h).symm

lemma mapM_toFile_small (h : ∀ e ∈ entries, e.bytes.length ≤ MAX_SIZE) :
    entries.mapM (toFile now) = .ok (entries.map (fileOf now)) := by
  induction entries with
  | nil => rfl
  | cons e entries ih =>
    obtain ⟨he, hrest⟩ := List.forall_mem_cons.mp h
    have hfile : toFile now e = .ok (fileOf now e) := if_neg (Nat.not_lt.mpr he)
    rw [List.mapM_cons, hfile, ih hrest]
    rfl

lemma mapM_toFile_eq_ok {files : List File} (h : entries.mapM (toFile now) = .ok files) :
    files = entries.map (fileOf now) := by
  induction entries generalizing files with
  | nil => exact (Except.ok.inj h).symm
  | cons e entries ih =>
    rw [List.mapM_cons] at h
    obtain ⟨file, hfile, h⟩ := RequestRules.bind_ok h
    obtain ⟨rest, hrest, h⟩ := RequestRules.bind_ok h
    rw [toFile_eq_ok hfile, ih hrest] at h
    exact (Except.ok.inj h).symm

/-- The records are put one behind the other, with no byte too few or too many. -/
lemma fill_eq (files : List File) :
    fill files (localSize files + centralSize files + 22) = .ok (archiveOf files) := by
  have hstart : (⟨List.replicate (localSize files + centralSize files + 22) 0, 0⟩ : Out) =
      filled [] ((locals files).length + ((directory files).length + 22)) := by
    rw [localSize_eq, centralSize_eq files _ (length_offsetsFrom 0 files)]
    rfl
  have hlocals := putLocals_filled files [] [] ((directory files).length + 22)
  have hcentrals := putCentrals_filled files [] (offsetsFrom 0 files) (length_offsetsFrom 0 files)
    (locals files) 22
  have htail := putAll_filled
    (endFields files.length (directory files).length (locals files).length)
    (locals files ++ directory files) 0
  have hsize : (filled (locals files ++ directory files) 22).pos - (locals files).length =
      (directory files).length := by simp [filled]
  rw [length_endFields] at htail
  rw [fill, hstart, hlocals]
  change (files.zipIdx.foldlM (putCentral (offsetsFrom 0 files))
    (filled (locals files) ((directory files).length + 22)) >>= _) = _
  rw [show files.zipIdx.foldlM (putCentral (offsetsFrom 0 files))
    (filled (locals files) ((directory files).length + 22)) =
      .ok (filled (locals files ++ directory files) 22) from hcentrals]
  change (putAll (filled (locals files ++ directory files) 22) (endFields files.length
    ((filled (locals files ++ directory files) 22).pos - (locals files).length)
      (locals files).length) >>= _) = _
  rw [hsize, htail, archiveOf]
  simp [bind, Except.bind, pure, Except.pure, filled]

/-- **The writer fills the archive**, and refuses just what does not fit into four gigabytes. -/
theorem zipStore_ok_iff {archive : Bytes} : zipStore now entries = .ok archive ↔
    archiveSize entries ≤ MAX_SIZE ∧ archive = archiveOf (entries.map (fileOf now)) := by
  have hrun : (do
      let size := localSize (entries.map (fileOf now)) + centralSize (entries.map (fileOf now)) + 22
      if MAX_SIZE < size then throw "the archive is too large for a non-Zip64 zip"
      fill (entries.map (fileOf now)) size) =
      if MAX_SIZE < archiveSize entries then
        .error "the archive is too large for a non-Zip64 zip"
      else .ok (archiveOf (entries.map (fileOf now))) := by
    dsimp only
    rw [fill_eq, archiveSize_eq]
    by_cases hlarge : MAX_SIZE < archiveSize entries
    · rfl
    · rw [if_neg hlarge, if_neg hlarge]
  constructor
  · intro hok
    obtain ⟨files, hfiles, hok⟩ := RequestRules.bind_ok hok
    obtain rfl := mapM_toFile_eq_ok hfiles
    rw [hrun] at hok
    by_cases hlarge : MAX_SIZE < archiveSize entries
    · rw [if_pos hlarge] at hok
      cases hok
    · rw [if_neg hlarge] at hok
      exact ⟨Nat.not_lt.mp hlarge, (Except.ok.inj hok).symm⟩
  · rintro ⟨hsmall, rfl⟩
    have hfiles : entries.mapM (toFile now) = .ok (entries.map (fileOf now)) :=
      mapM_toFile_small fun e he => (length_bytes_le he).trans hsmall
    rw [zipStore, hfiles]
    exact hrun.trans (if_neg (Nat.not_lt.mpr hsmall))

end FabPcb.ZipRoundTrip
