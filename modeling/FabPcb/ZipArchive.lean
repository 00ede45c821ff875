import FabPcb.ZipRoundTrip

/-!
An archive holds the entries that it was made of.

The end record counts the files in a field of two bytes, and each header the bytes of the name.
The writer looks at the size of the archive alone.
-/

namespace FabPcb.ZipArchive

open NngFraming (Bytes)
open Crc32 (crcOfBits crc32_eq)
open ZipFormat ZipStore ZipRoundTrip

variable {f : File} {files : List File} {offset n : ℕ} {done rest : Bytes}

/-! ### The end record -/

lemma findEnd_archive (before : Bytes) {count size offset : ℕ} (hcount : count < 0x10000)
    (hsize : size ≤ MAX_SIZE) (hoffset : offset ≤ MAX_SIZE) (fuel : ℕ) :
    findEnd (before ++ (endFields count size offset).flatten) (fuel + 1) 0 =
      some (before.length, ⟨0, 0, count, count, size, offset⟩) := by
  have hstart : (before ++ (endFields count size offset).flatten).length - 22 - 0 =
      before.length := by
    rw [List.length_append]
    rfl
  have hread : readEnd.run' ((endFields count size offset).flatten) =
      some ⟨0, 0, count, count, size, offset⟩ :=
    Option.map_eq_some_iff.mpr ⟨_, readEnd_endFields hcount hsize hoffset, rfl⟩
  rw [findEnd, hstart, List.drop_left, hread]
  rfl

/-! ### The central directory -/

lemma several_centrals (pairs : List (File × ℕ)) (h : ∀ p ∈ pairs, Fits p.1 ∧ p.2 ≤ MAX_SIZE) :
    several readCentral pairs.length (centrals pairs) =
      some (pairs.map fun p => ⟨headerOf p.1, p.2⟩, []) := by
  induction pairs with
  | nil => rfl
  | cons p pairs ih =>
    obtain ⟨hp, hrest⟩ := List.forall_mem_cons.mp h
    exact reads_bind (readCentral_centralFields hp.1 hp.2 _) (reads_bind (ih hrest) rfl)

lemma drop_offset (done rest : Bytes) {p : File × ℕ}
    (hp : p ∈ files.zip (offsetsFrom done.length files)) :
    p.2 ≤ done.length + (locals files).length ∧
      ∃ tail, (done ++ locals files ++ rest).drop p.2 = (localFields p.1).flatten ++ tail := by
  induction files generalizing done with
  | nil => cases hp
  | cons f files ih =>
    rw [locals_cons, List.length_append]
    rcases List.mem_cons.mp hp with rfl | hp
    · refine ⟨by omega, locals files ++ rest, ?_⟩
      rw [List.append_assoc, List.drop_left, List.append_assoc]
    · have hnext := ih (done ++ (localFields f).flatten) (by rwa [List.length_append])
      rw [List.length_append] at hnext
      refine ⟨by omega, ?_⟩
      rw [← List.append_assoc]
      exact hnext.2

/-! ### Files -/

/-- The file that is read back of one. -/
def memberOfFile (f : File) : Member :=
  ⟨(utf8Text f.name).getD [], f.bytes, f.bytes.length, f.crc⟩

lemma readMember_drop {archive tail : Bytes} (hfits : Fits f) {name : List Char}
    (hname : f.name = TextDecoding.encode name)
    (h : archive.drop offset = (localFields f).flatten ++ tail) :
    readMember archive ⟨headerOf f, offset⟩ = some (memberOfFile f) := by
  have hbytes : raw f.bytes.length (f.bytes ++ tail) = some (f.bytes, tail) := raw_append rfl
  have htext : (StateT.lift (utf8Text f.name) : Reader _) tail = some (name, tail) := by
    rw [hname, utf8Text_encode]
    rfl
  have hmember : memberOfFile f = ⟨name, f.bytes, f.bytes.length, f.crc⟩ := by
    rw [memberOfFile, hname, utf8Text_encode, Option.getD_some]
  rw [readMember, h, StateT.run', hmember]
  refine congrArg (Option.map Prod.fst) (?_ : _ = some (_, tail))
  have hheader := readLocal_localFields hfits tail
  refine reads_bind hheader (reads_bind (check_pos rfl _) ?_)
  refine reads_bind (check_pos ⟨rfl, rfl, rfl⟩ _) (reads_bind hbytes ?_)
  exact reads_bind (check_pos hfits.crc.symm _) (reads_bind htext rfl)

lemma mapM_map {α β γ : Type} {f : β → Option γ} {g : α → β} {h : α → γ} {l : List α}
    (hall : ∀ x ∈ l, f (g x) = some (h x)) : (l.map g).mapM f = some (l.map h) := by
  induction l with
  | nil => rfl
  | cons x l ih =>
    obtain ⟨hx, hrest⟩ := List.forall_mem_cons.mp hall
    rw [List.map_cons, List.mapM_cons, hx, ih hrest]
    rfl

/-- The files that fit are read back. -/
lemma unzip_archiveOf (hfits : ∀ f ∈ files, Fits f)
    (hnames : ∀ f ∈ files, ∃ name, f.name = TextDecoding.encode name)
    (hcount : files.length < 0x10000) (hsize : (archiveOf files).length ≤ MAX_SIZE) :
    unzip (archiveOf files) = some (files.map memberOfFile) := by
  have hlengths : (locals files).length + (directory files).length ≤ MAX_SIZE := by
    rw [archiveOf, List.length_append, List.length_append] at hsize
    omega
  have hpairs : ∀ p ∈ files.zip (offsetsFrom 0 files), p.1 ∈ files := fun p hp =>
    (List.of_mem_zip hp).1
  have hcentral : several readCentral files.length (directory files) =
      some ((files.zip (offsetsFrom 0 files)).map fun p => ⟨headerOf p.1, p.2⟩, []) := by
    have hlength : (files.zip (offsetsFrom 0 files)).length = files.length := by
      rw [List.length_zip, length_offsetsFrom, Nat.min_self]
    have hread := several_centrals (files.zip (offsetsFrom 0 files)) fun p hp =>
      ⟨hfits _ (hpairs p hp), by
        have hoffset := (drop_offset [] [] hp).1
        rw [List.length_nil] at hoffset
        omega⟩
    rwa [hlength] at hread
  have hmembers : ((files.zip (offsetsFrom 0 files)).map fun p =>
      (⟨headerOf p.1, p.2⟩ : CentralHeader)).mapM (readMember (archiveOf files)) =
      some (files.map memberOfFile) := by
    rw [mapM_map fun p hp => ?_]
    · rw [← List.map_map (f := Prod.fst), List.map_fst_zip (length_offsetsFrom 0 files).ge]
    · obtain ⟨tail, htail⟩ := (drop_offset [] (directory files ++ (endFields files.length
        (directory files).length (locals files).length).flatten) hp).2
      obtain ⟨name, hname⟩ := hnames _ (hpairs p hp)
      rw [← List.append_assoc] at htail
      exact readMember_drop (hfits _ (hpairs p hp)) hname htail
  have htail : findEnd (archiveOf files) 0x10000 0 = some ((locals files ++ directory files).length,
      ⟨0, 0, files.length, files.length, (directory files).length, (locals files).length⟩) :=
    findEnd_archive _ hcount (by omega) (by omega) 0xFFFF
  have hdirectory : ((archiveOf files).take (locals files ++ directory files).length).drop
      (locals files).length = directory files := by
    rw [archiveOf, List.take_left, List.drop_left]
  have hheaders : (do
      let headers ← several readCentral files.length
      check ((← get) = [])
      return headers : Reader _).run' (directory files) =
      some ((files.zip (offsetsFrom 0 files)).map fun p => ⟨headerOf p.1, p.2⟩) := by
    refine congrArg (Option.map Prod.fst) (?_ : _ = some (_, []))
    refine reads_bind hcentral (reads_bind (get_apply _) (reads_bind (check_pos rfl _) rfl))
  have hagree : (0 : ℕ) = 0 ∧ (0 : ℕ) = 0 ∧ files.length = files.length ∧
      (locals files).length + (directory files).length =
        (locals files ++ directory files).length := by simp
  rw [← hdirectory] at hheaders
  refine Option.bind_eq_some_iff.mpr ⟨_, htail, ?_⟩
  refine Option.bind_eq_some_iff.mpr ⟨(), if_pos hagree, ?_⟩
  exact Option.bind_eq_some_iff.mpr ⟨_, hheaders, hmembers⟩

/-! ### Entries -/

/-- What an entry is read back as. -/
def memberOf (e : ZipEntry) : Member where
  name := characters (normalised e.path)
  bytes := e.bytes
  size := e.bytes.length
  crc := (crcOfBits e.bytes).toNat

variable {entries : List ZipEntry} {now : Date}

/-- The count and the lengths of the names fit into their fields. -/
def Countable (entries : List ZipEntry) : Prop :=
  entries.length ≤ 0xFFFF ∧ ∀ e ∈ entries, (encodedName e).length ≤ 0xFFFF

instance : Decidable (Countable entries) := inferInstanceAs (Decidable (_ ∧ _))

lemma memberOfFile_fileOf (now : Date) (e : ZipEntry) :
    memberOfFile (fileOf now e) = memberOf e := by
  simp [memberOfFile, fileOf, encodedName, utf8Text_encode, Option.getD_some, memberOf,
    crc32_eq]

lemma unzip_countable (hcount : Countable entries) (hsize : archiveSize entries ≤ MAX_SIZE) :
    unzip (archiveOf (entries.map (fileOf now))) = some (entries.map memberOf) := by
  have hfits : ∀ f ∈ entries.map (fileOf now), Fits f := fun f hf => by
    obtain ⟨e, he, rfl⟩ := List.mem_map.mp hf
    exact ⟨Nat.lt_succ_of_le (hcount.2 e he), (length_bytes_le he).trans hsize, crc32_eq e.bytes⟩
  have hnames : ∀ f ∈ entries.map (fileOf now), ∃ name, f.name = TextDecoding.encode name :=
    fun f hf => by
      obtain ⟨e, -, rfl⟩ := List.mem_map.mp hf
      exact ⟨_, rfl⟩
  have hlength : (entries.map (fileOf now)).length < 0x10000 := by
    rw [List.length_map]
    exact Nat.lt_succ_of_le hcount.1
  rw [unzip_archiveOf hfits hnames hlength (by rw [length_archiveOf, archiveSize_eq]; exact hsize),
    List.map_map]
  exact congrArg some (List.map_congr_left fun e _ => memberOfFile_fileOf now e)

lemma countable_of_unzip {archive : Bytes} (h : unzip archive = some (entries.map memberOf)) :
    Countable entries := by
  obtain ⟨hlength, hnames⟩ := unzip_fits h
  rw [List.length_map] at hlength
  exact ⟨Nat.le_of_lt_succ hlength, fun e he =>
    Nat.le_of_lt_succ (hnames _ (List.mem_map_of_mem he))⟩

/-- **What the writer makes of some entries.** It throws or gives back an archive that holds
them, each by its name, its bytes, their number and their CRC-32, just when they are too large
together, or are few enough with names that are short enough. -/
theorem zipStore_faithful_iff (now : Date) (entries : List ZipEntry) :
    ((∃ message, zipStore now entries = .error message) ∨
      ∃ archive, zipStore now entries = .ok archive ∧
        unzip archive = some (entries.map memberOf)) ↔
      MAX_SIZE < archiveSize entries ∨ Countable entries := by
  by_cases hsize : archiveSize entries ≤ MAX_SIZE
  · have hok : zipStore now entries = .ok _ := zipStore_ok_iff.mpr ⟨hsize, rfl⟩
    have hfail : ¬∃ message, zipStore now entries = .error message := by
      rintro ⟨message, hmessage⟩
      cases hok.symm.trans hmessage
    rw [or_iff_right hfail, or_iff_right (Nat.not_lt.mpr hsize)]
    constructor
    · rintro ⟨archive, -, hunzip⟩
      exact countable_of_unzip hunzip
    · exact fun hcount => ⟨_, hok, unzip_countable hcount hsize⟩
  · refine iff_of_true (.inl ?_) (.inl (Nat.not_le.mp hsize))
    cases hrun : zipStore now entries with
    | error message => exact ⟨message, rfl⟩
    | ok archive => exact absurd (zipStore_ok_iff.mp hrun).1 hsize

/-- The slash at the front is dropped, and the other one turned. -/
example : (zipStore ⟨2026, 0, 2, 3, 4, 6⟩
    [⟨[0x2F, 0x61, 0x5C, 0x62], [0x7B, 0x7D], none⟩]).toOption.bind unzip =
    some [⟨['a', '/', 'b'], [0x7B, 0x7D], 2, 0xA3A6BF43⟩] := by decide +kernel

/-- An empty file without a name, written at the beginning of the calendar. -/
def nameless : ZipEntry := ⟨[], [], none⟩

def epoch : Date := ⟨1980, 0, 1, 0, 0, 0⟩

lemma archiveSize_nameless (n : ℕ) : archiveSize (List.replicate n nameless) = n * 76 + 22 := by
  rw [archiveSize, List.map_replicate, List.sum_replicate_nat]
  rfl

/-- **A count that does not fit.** Of 65536 empty files the end record counts none, and nothing is
thrown. -/
theorem zipStore_overcounted :
    ∃ archive, zipStore epoch (List.replicate 0x10000 nameless) = .ok archive ∧
      unzip archive ≠ some ((List.replicate 0x10000 nameless).map memberOf) := by
  have hsize : archiveSize (List.replicate 0x10000 nameless) ≤ MAX_SIZE := by
    rw [archiveSize_nameless, MAX_SIZE]
    decide
  refine ⟨_, zipStore_ok_iff.mpr ⟨hsize, rfl⟩, fun hunzip => ?_⟩
  have hcount := (unzip_fits hunzip).1
  rw [List.length_map, List.length_replicate] at hcount
  exact absurd hcount (by decide)

end FabPcb.ZipArchive
