import FabPcb.Document
import FabPcb.Writes
import Mathlib

/-!
The fields table of a schematic: what `KicadSchematicTools` shows of the placements of symbols, and
where the edits of its cells go.

A placement is told by the id of its symbol and its sheet path. The rows that are shown have the
ids only; the paths are kept beside them, under the ids.
-/

namespace FabPcb.FieldEdits

open Document OrderedMap Writes

/-- What the rows of KiCad, of the client and of the table have alike. -/
structure RowData where
  reference : String
  unit : ℕ
  fields : OMap String String
  excludedFromBom : Bool
  excludedFromBoard : Bool
  doNotPopulate : Bool

/-! ### The client -/

/-- A row as KiCad sends it. -/
structure SymbolFieldsRow extends RowData where
  id : Option String
  sheetPath : Option SheetPath

structure FieldsTableRow extends RowData where
  id : String
  sheetPath : Option SheetPath
  sheet : String

def toFieldsRow (r : SymbolFieldsRow) : FieldsTableRow where
  toRowData := r.toRowData
  id := r.id.getD ""
  sheetPath := r.sheetPath
  sheet := (r.sheetPath.map SheetPath.pathHumanReadable).getD ""

structure FieldEdit where
  id : String
  field : String
  value : Option String
  sheetPath : Option SheetPath
  remove : Option Bool

structure SymbolFieldUpdate where
  id : String
  sheetPath : Option SheetPath
  field : String
  value : String
  remove : Bool

/-- The updates of `Schematic.setFields`. -/
def toUpdate (e : FieldEdit) : SymbolFieldUpdate :=
  ⟨e.id, e.sheetPath, e.field, e.value.getD "", e.remove.getD false⟩

structure SetFieldsResult where
  updatedCount : ℕ
  errors : List String

/-! ### The tools -/

def MANDATORY_FIELDS : List String :=
  ["Reference", "Value", "Footprint", "Datasheet", "Description"]

structure FieldsRow extends RowData where
  id : String
  sheet : String

structure FieldsTable where
  rows : List FieldsRow
  columns : List String

structure FieldEditInput where
  id : String
  field : String
  value : String

/-- The paths under the ids of the last table. -/
abbrev SheetPaths := OMap String (Option SheetPath)

/-- In units of UTF-16, by which `sort()` compares. -/
def codeUnits (s : String) : List ℕ :=
  s.toList.flatMap fun c =>
    if c.toNat < 0x10000 then [c.toNat]
    else [0xD800 + (c.toNat - 0x10000) / 0x400, 0xDC00 + (c.toNat - 0x10000) % 0x400]

def toRow (r : FieldsTableRow) : FieldsRow where
  toRowData := r.toRowData
  id := r.id
  sheet := if r.sheet = "" then "/" else r.sheet

def sheetPathsOf (rows : List FieldsTableRow) : SheetPaths :=
  OMap.ofList (rows.map fun r => (r.id, r.sheetPath))

def columnsOf (rows : List FieldsTableRow) : List String :=
  let seen := (OMap.ofList (rows.flatMap fun r => r.fields.keys.map (·, ()))).keys
  MANDATORY_FIELDS ++
    (seen.filter (· ∉ MANDATORY_FIELDS)).mergeSort fun a b => codeUnits a ≤ codeUnits b

/-- The table, and the paths that are kept of it. -/
def fieldsTable (rows : List FieldsTableRow) : SheetPaths × FieldsTable :=
  (sheetPathsOf rows, ⟨rows.map toRow, columnsOf rows⟩)

/-- The edits that are handed to the client, unless there are none. -/
def setFields (paths : SheetPaths) (edits : List FieldEditInput) : Option (List FieldEdit) :=
  if edits.isEmpty then none
  else some (edits.map fun e => ⟨e.id, e.field, some e.value, (paths.get? e.id).join, none⟩)

/-! ### KiCad -/

/-- A placement as a row tells it: the symbol, the sheet and the fields. -/
abbrev Placement := (Option String × Option SheetPath) × OMap String String

def SymbolFieldsRow.placement (r : SymbolFieldsRow) : Placement := ((r.id, r.sheetPath), r.fields)

def applyUpdate (ps : List Placement) (u : SymbolFieldUpdate) : List Placement :=
  ps.map fun p =>
    if p.1 = (some u.id, u.sheetPath) then
      (p.1, if u.remove then p.2.delete u.field else p.2.set u.field u.value)
    else p

/-- What KiCad answers to `GetSymbolFieldsTable`, with or without power symbols, and to
`SetSymbolFields`. -/
structure Kicad (σ : Type*) where
  getSymbolFieldsTable : σ → Bool → List SymbolFieldsRow
  setSymbolFields : σ → List SymbolFieldUpdate → σ × SetFieldsResult

/-- One row for each placement, told by its symbol and its sheet; an update is applied to the
placement that it names. -/
structure Kicad.Documented {σ : Type*} (K : Kicad σ) : Prop where
  named : ∀ s power, ∀ r ∈ K.getSymbolFieldsTable s power, r.id.isSome
  identified : ∀ s power,
    ((K.getSymbolFieldsTable s power).map fun r => (r.id, r.sheetPath)).Nodup
  applied : ∀ s power us, (K.getSymbolFieldsTable (K.setSymbolFields s us).1 power).map
      SymbolFieldsRow.placement =
    us.foldl applyUpdate ((K.getSymbolFieldsTable s power).map SymbolFieldsRow.placement)

/-- A value typed into the cell of a field, in a row of a table of `n` rows. -/
abbrev CellEdit (n : ℕ) := Fin n × String × String

def cell (t : FieldsTable) (i : ℕ) (field : String) : Option String :=
  t.rows[i]?.bind fun r => r.fields.get? field

section Edits

variable {σ : Type*} (K : Kicad σ) (s : σ) (power : Bool)

/-- `Schematic.fieldsTable`, of all fields. -/
def Kicad.rows : List FieldsTableRow := (K.getSymbolFieldsTable s power).map toFieldsRow

variable (edits : List (CellEdit (K.rows s power).length))

/-- The updates that the edits of a table come to, when it was the last one that was read. -/
def Kicad.sent : List SymbolFieldUpdate :=
  let inputs := edits.map fun e => (⟨(toRow ((K.rows s power).get e.1)).id, e.2.1, e.2.2⟩ :
    FieldEditInput)
  ((setFields (fieldsTable (K.rows s power)).1 inputs).getD []).map toUpdate

/-- Without edits nothing is sent. -/
def Kicad.commit : σ :=
  if edits.isEmpty then s else (K.setSymbolFields s (K.sent s power edits)).1

/-- Every edit goes to the placement of the row that it was made in, and the table that is read
afterwards shows the edited cells changed and no others. -/
structure Kicad.Reaches : Prop where
  sent : (K.sent s power edits).map SymbolFieldUpdate.sheetPath =
    edits.map fun e => ((K.rows s power).get e.1).sheetPath
  rows : (fieldsTable (K.rows (K.commit s power edits) power)).2.rows.map FieldsRow.id =
    (fieldsTable (K.rows s power)).2.rows.map FieldsRow.id
  cells : ∀ i field, cell (fieldsTable (K.rows (K.commit s power edits) power)).2 i field =
    (lastWrite (edits.map fun e => ((e.1.val, e.2.1), e.2.2)) (i, field)).or
      (cell (fieldsTable (K.rows s power)).2 i field)

end Edits

/-! ### Paths under ids -/

lemma lastWrite_split_iff {κ ν : Type*} [DecidableEq κ] {ws pre post : List (κ × ν)} {k : κ} {v : ν}
    (hnd : ws.Nodup) (hws : ws = pre ++ (k, v) :: post) :
    lastWrite ws k = some v ↔ ∀ w ∈ post, w.1 ≠ k := by
  subst hws
  have hnot : (k, v) ∉ post := (List.nodup_cons.mp (List.nodup_append.mp hnd).2.1).1
  rw [lastWrite_append, lastWrite_cons, if_pos rfl]
  cases hlast : lastWrite post k with
  | none =>
    refine iff_of_true rfl fun w hw hk => lastWrite_eq_none_iff.mp hlast ?_
    exact hk ▸ List.mem_map_of_mem hw
  | some v' =>
    have hmem := mem_of_lastWrite hlast
    refine iff_of_false (fun h => hnot ?_) fun h => h _ hmem rfl
    rwa [show v' = v by simpa using h] at hmem

/-! ### Fields of placements -/

def fieldOf (ps : List Placement) (i : ℕ) (field : String) : Option String :=
  ps[i]?.bind fun p => p.2.get? field

variable {ps : List Placement} {u : SymbolFieldUpdate}

lemma keys_applyUpdate (ps : List Placement) (u : SymbolFieldUpdate) :
    (applyUpdate ps u).map Prod.fst = ps.map Prod.fst := by
  rw [applyUpdate, List.map_map]
  refine List.map_congr_left fun p _ => ?_
  by_cases hp : p.1 = (some u.id, u.sheetPath) <;> simp [hp]

lemma fieldOf_applyUpdate (h : u.remove = false) (i : ℕ) (field : String) :
    fieldOf (applyUpdate ps u) i field =
      if (ps.map Prod.fst)[i]? = some (some u.id, u.sheetPath) ∧ field = u.field then some u.value
      else fieldOf ps i field := by
  simp only [fieldOf, applyUpdate, List.getElem?_map]
  cases ps[i]? with
  | none => simp
  | some p =>
    by_cases hp : p.1 = (some u.id, u.sheetPath)
    · by_cases hf : field = u.field <;> simp [hp, hf, h]
    · simp [hp]

/-- Updates that each name one place, one after the other. -/
lemma fieldOf_foldl {n : ℕ} (edits : List (CellEdit n)) (toU : CellEdit n → SymbolFieldUpdate)
    (hu : ∀ e ∈ edits, (toU e).field = e.2.1 ∧ (toU e).value = e.2.2 ∧ (toU e).remove = false)
    (ps : List Placement) (hkey : ∀ e ∈ edits, ∀ i : ℕ,
      (ps.map Prod.fst)[i]? = some (some (toU e).id, (toU e).sheetPath) ↔ i = e.1) :
    ((edits.map toU).foldl applyUpdate ps).map Prod.fst = ps.map Prod.fst ∧
      ∀ i field, fieldOf ((edits.map toU).foldl applyUpdate ps) i field =
        (lastWrite (edits.map fun e => ((e.1.val, e.2.1), e.2.2)) (i, field)).or
          (fieldOf ps i field) := by
  induction edits generalizing ps with
  | nil => simp
  | cons e edits ih =>
    obtain ⟨hfield, hvalue, hremove⟩ := hu e List.mem_cons_self
    have hkeys := keys_applyUpdate ps (toU e)
    obtain ⟨ihk, ihf⟩ := ih (fun e' he => hu e' (List.mem_cons_of_mem e he))
      (applyUpdate ps (toU e)) fun e' he i => by
        rw [hkeys]
        exact hkey e' (List.mem_cons_of_mem e he) i
    simp only [List.map_cons, List.foldl_cons]
    refine ⟨ihk.trans hkeys, fun i field => ?_⟩
    rw [ihf, lastWrite_cons, fieldOf_applyUpdate hremove]
    simp only [hkey e List.mem_cons_self, hfield, hvalue, Prod.mk.injEq]
    by_cases hi : i = e.1 ∧ field = e.2.1
    · rw [if_pos hi, if_pos ⟨hi.1.symm, hi.2.symm⟩, Option.or_assoc]
      rfl
    · rw [if_neg hi, if_neg fun h => hi ⟨h.1.symm, h.2.symm⟩, Option.or_none]

/-! ### Rows -/

section Rows

variable {σ : Type*} {K : Kicad σ} {s : σ} {power : Bool}

lemma keys_eq (hK : K.Documented) (s : σ) (power : Bool) :
    ((K.getSymbolFieldsTable s power).map SymbolFieldsRow.placement).map Prod.fst =
      (K.rows s power).map fun r => (some r.id, r.sheetPath) := by
  rw [Kicad.rows, List.map_map, List.map_map]
  refine List.map_congr_left fun r hr => ?_
  obtain ⟨id, hsome⟩ := Option.isSome_iff_exists.mp (hK.named s power r hr)
  simp [toFieldsRow, SymbolFieldsRow.placement, hsome]

lemma nodup_keys (hK : K.Documented) (s : σ) (power : Bool) :
    (((K.getSymbolFieldsTable s power).map SymbolFieldsRow.placement).map Prod.fst).Nodup := by
  rw [List.map_map]
  exact hK.identified s power

lemma nodup_rows (hK : K.Documented) (s : σ) (power : Bool) :
    ((K.rows s power).map fun r => (r.id, r.sheetPath)).Nodup := by
  have hnd := nodup_keys hK s power
  rw [keys_eq hK] at hnd
  refine List.Nodup.of_map (fun k : String × Option SheetPath => (some k.1, k.2)) ?_
  rwa [List.map_map]

lemma path_iff {rows post : List FieldsTableRow} {r : FieldsTableRow}
    (hnd : (rows.map fun r => (r.id, r.sheetPath)).Nodup) (pre : List FieldsTableRow)
    (hrows : rows = pre ++ r :: post) :
    ((sheetPathsOf rows).get? r.id).join = r.sheetPath ↔ ∀ q ∈ post, q.id ≠ r.id := by
  have hsplit : rows.map (fun r => (r.id, r.sheetPath)) = pre.map (fun r => (r.id, r.sheetPath)) ++
      (r.id, r.sheetPath) :: post.map fun r => (r.id, r.sheetPath) := by simp [hrows]
  have hiff := lastWrite_split_iff hnd hsplit
  rw [List.forall_mem_map] at hiff
  rw [← hiff, sheetPathsOf, get?_ofList]
  have hmem : r.id ∈ (rows.map fun r => (r.id, r.sheetPath)).map Prod.fst := by simp [hsplit]
  obtain ⟨p, hp⟩ := Option.isSome_iff_exists.mp (lastWrite_isSome_iff.mpr hmem)
  simp [hp]

lemma sent_eq (K : Kicad σ) (s : σ) (power : Bool) (edits : List (CellEdit _)) :
    K.sent s power edits = edits.map fun e => ⟨((K.rows s power).get e.1).id,
      ((sheetPathsOf (K.rows s power)).get? ((K.rows s power).get e.1).id).join, e.2.1, e.2.2,
        false⟩ := by
  cases edits with
  | nil => rfl
  | cons e edits => simp [Kicad.sent, setFields, fieldsTable, toRow, toUpdate]

lemma cell_eq (K : Kicad σ) (s : σ) (power : Bool) (i : ℕ) (field : String) :
    cell (fieldsTable (K.rows s power)).2 i field =
      fieldOf ((K.getSymbolFieldsTable s power).map SymbolFieldsRow.placement) i field := by
  simp only [cell, fieldsTable, Kicad.rows, fieldOf, List.getElem?_map, List.map_map]
  cases (K.getSymbolFieldsTable s power)[i]? <;> rfl

lemma ids_eq (K : Kicad σ) (s : σ) (power : Bool) :
    (fieldsTable (K.rows s power)).2.rows.map FieldsRow.id =
      (((K.getSymbolFieldsTable s power).map SymbolFieldsRow.placement).map Prod.fst).map
        fun k => k.1.getD "" := by
  simp only [fieldsTable, Kicad.rows, List.map_map]
  rfl

/-- **Edits of the fields table.** They reach the placements of their rows, and the table shows
just them changed, when no later row of the table has the id of a row that is edited. -/
theorem fieldsTable_exact (hK : K.Documented) (s : σ) (power : Bool)
    (edits : List (CellEdit (K.rows s power).length)) :
    K.Reaches s power edits ↔ ∀ e ∈ edits, ∀ r ∈ (K.rows s power).drop (e.1 + 1),
      r.id ≠ ((K.rows s power).get e.1).id := by
  have hpaths : (K.sent s power edits).map SymbolFieldUpdate.sheetPath =
      edits.map (fun e => ((K.rows s power).get e.1).sheetPath) ↔
      ∀ e ∈ edits, ∀ r ∈ (K.rows s power).drop (e.1 + 1),
        r.id ≠ ((K.rows s power).get e.1).id := by
    rw [sent_eq, List.map_map, List.map_inj_left]
    exact forall₂_congr fun e _ =>
      path_iff (nodup_rows hK s power) ((K.rows s power).take e.1) (by simp)
  refine ⟨fun h => hpaths.mp h.sent, fun h => ?_⟩
  have hsent := hpaths.mpr h
  set toU : CellEdit (K.rows s power).length → SymbolFieldUpdate := fun e =>
    ⟨((K.rows s power).get e.1).id, ((K.rows s power).get e.1).sheetPath, e.2.1, e.2.2, false⟩
  have hus : K.sent s power edits = edits.map toU := by
    rw [sent_eq, List.map_map, List.map_inj_left] at hsent
    rw [sent_eq]
    exact List.map_congr_left fun e he => by simp only [toU, ← hsent e he, Function.comp_apply]
  set ps := (K.getSymbolFieldsTable s power).map SymbolFieldsRow.placement
  have hkey : ∀ e ∈ edits, ∀ i : ℕ,
      (ps.map Prod.fst)[i]? = some (some (toU e).id, (toU e).sheetPath) ↔ i = e.1 := by
    intro e _ i
    have hget : (ps.map Prod.fst)[e.1.val]? = some (some (toU e).id, (toU e).sheetPath) := by
      simp [ps, toU, keys_eq hK]
    have hlen : e.1.val < (ps.map Prod.fst).length := (List.getElem?_eq_some_iff.mp hget).1
    rw [← hget, eq_comm, List.getElem?_inj hlen (nodup_keys hK s power), eq_comm]
  obtain ⟨hkeys, hcells⟩ := fieldOf_foldl edits toU (fun _ _ => ⟨rfl, rfl, rfl⟩) ps hkey
  have hafter : (K.getSymbolFieldsTable (K.commit s power edits) power).map
      SymbolFieldsRow.placement = (edits.map toU).foldl applyUpdate ps := by
    unfold Kicad.commit
    cases edits with
    | nil => rfl
    | cons e edits => rw [if_neg (by simp), hK.applied, hus]
  refine ⟨hsent, ?_, fun i field => ?_⟩
  · rw [ids_eq, ids_eq, hafter, hkeys]
  · rw [cell_eq, cell_eq, hafter, hcells]

end Rows

/-! ### A sheet that is placed twice -/

def upper : SheetPath := ⟨["top", "upper"], "/upper/"⟩

def lower : SheetPath := ⟨["top", "lower"], "/lower/"⟩

def placedRow (path : SheetPath) (fields : OMap String String) : SymbolFieldsRow :=
  ⟨⟨"R1", 1, fields, false, false, false⟩, some "r", some path⟩

def updated (path : SheetPath) (fields : OMap String String) (us : List SymbolFieldUpdate) :
    OMap String String :=
  us.foldl (fun fs u =>
    if u.id = "r" ∧ u.sheetPath = some path then
      if u.remove then fs.delete u.field else fs.set u.field u.value
    else fs) fields

/-- One symbol, on a sheet that is placed twice. -/
def placedTwice : Kicad (OMap String String × OMap String String) where
  getSymbolFieldsTable s _ := [placedRow upper s.1, placedRow lower s.2]
  setSymbolFields s us := ((updated upper s.1 us, updated lower s.2 us), ⟨us.length, []⟩)

lemma applyUpdate_placedRow (path : SheetPath) (fields : OMap String String)
    (u : SymbolFieldUpdate) : applyUpdate [(placedRow path fields).placement] u =
      [(placedRow path (updated path fields [u])).placement] := by
  have hkey : ((some "r", some path) = (some u.id, u.sheetPath)) ↔
      (u.id = "r" ∧ u.sheetPath = some path) := by
    simp [eq_comm]
  simp only [applyUpdate, updated, placedRow, SymbolFieldsRow.placement, List.map_cons,
    List.map_nil, List.foldl_cons, List.foldl_nil, hkey]
  split_ifs <;> rfl

lemma placedTwice_documented : placedTwice.Documented where
  named s _ r hr := by
    simp only [placedTwice, placedRow, List.mem_cons, List.not_mem_nil, or_false] at hr
    rcases hr with rfl | rfl <;> rfl
  identified s _ := by
    simp only [placedTwice, placedRow, List.map_cons, List.map_nil]
    decide
  applied s _ us := by
    simp only [placedTwice, List.map_cons, List.map_nil]
    induction us generalizing s with
    | nil => rfl
    | cons u us ih =>
      have happend : ∀ p q : Placement,
          applyUpdate [p, q] u = applyUpdate [p] u ++ applyUpdate [q] u := fun _ _ => rfl
      rw [List.foldl_cons, happend, applyUpdate_placedRow, applyUpdate_placedRow]
      exact ih (updated upper s.1 [u], updated lower s.2 [u])

/-- The row of the second placement is edited. -/
theorem fieldsTable_exact_lower :
    placedTwice.Reaches (OMap.empty, OMap.empty) false [(⟨1, by decide⟩, "Value", "22k")] :=
  (fieldsTable_exact placedTwice_documented _ false [(⟨1, by decide⟩, "Value", "22k")]).mpr
    (List.forall_mem_singleton.mpr (by simp [Kicad.rows, placedTwice]))

/-- The row of the first placement is edited, and the edit goes to the second. -/
theorem setFields_elsewhere :
    ¬∀ K : Kicad (OMap String String × OMap String String), K.Documented →
      ∀ s power edits, K.Reaches s power edits := by
  intro h
  have hsent := (h placedTwice placedTwice_documented (OMap.empty, OMap.empty) false
    [(⟨0, by decide⟩, "Value", "22k")]).sent
  revert hsent
  decide +kernel

end FabPcb.FieldEdits
