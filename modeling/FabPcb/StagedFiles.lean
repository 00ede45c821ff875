import FabPcb.Runs
import FabPcb.Writes

/-!
`KicadSessionService` in wasm mode: the files that have been imported, the modules they are written
to, and the calls of `importProjectFiles()` and `loadWasm()` that wait for the writes.

A module is known by its number; a new one has an empty file system. `place` is where the file
system of a module puts a path. The writes are answered one after the other. What waits for one of
them goes on before the next begins, since it was attached to its promise first.

A teardown can come at any time, and so can the end of a module. What KiCad itself writes is left
out.
-/

namespace FabPcb.StagedFiles

open Writes

structure ProjectFile (B : Type) where
  name : String
  bytes : B

inductive Kind
  /-- An import, and the document it is to return if there is one among the files. -/
  | importing (document : Option String)
  | loading
  deriving DecidableEq

/-- What a call waits for once it has flushed. -/
structure Wait where
  /-- The module there was. -/
  backend : Option ℕ
  /-- How many files were staged. -/
  count : ℕ
  /-- How many writes are to be answered. -/
  target : ℕ
  /-- One of them has failed. -/
  failed : Bool := false
  deriving DecidableEq

/-- Where a call waits: for the package, for the old module to shut down, for the new module, or
for the writes. -/
inductive Stage
  | package | shutdown | create
  | flushing (w : Wait)
  deriving DecidableEq

structure Call where
  kind : Kind
  stage : Stage
  deriving DecidableEq

/-- A write of `flushStaged()` that has not been answered. -/
structure Job (B : Type) where
  backend : ℕ
  /-- The number of files before these. -/
  first : ℕ
  pending : List (String × B)

structure Service (B : Type) where
  staged : List (String × B) := []
  stagedWritten : ℕ := 0
  /-- `instance` -/
  backend : Option ℕ := none
  wasmDead : Bool := false
  /-- How many modules there have been. -/
  modules : ℕ := 0
  /-- The modules that are shut down. -/
  shut : List ℕ := []
  /-- `flushing` -/
  jobs : List (Job B) := []
  answered : ℕ := 0
  /-- The modules that a teardown waits for. -/
  closing : List ℕ := []
  calls : List Call := []
  /-- What has been written to the file systems of the modules. -/
  disk : List ((ℕ × String) × B) := []

variable {B : Type}

namespace Call

/-- The call is not to throw: an import needs a document among its files. -/
def resolves (c : Call) : Bool :=
  match c.kind with
  | .importing none => false
  | _ => true

def wait? (c : Call) : Option Wait :=
  match c.stage with
  | .flushing w => some w
  | _ => none

/-- A write has failed on a module. -/
def fail (m : ℕ) (c : Call) : Call :=
  match c.stage with
  | .flushing w =>
    if w.backend = some m then { c with stage := .flushing { w with failed := true } } else c
  | _ => c

end Call

namespace Job

/-- The number of files up to these. -/
def last (j : Job B) : ℕ := j.first + j.pending.length

/-- Files in the file system of the module of a job. -/
def onDisk (j : Job B) (files : List (String × B)) : List ((ℕ × String) × B) :=
  files.map fun f => ((j.backend, f.1), f.2)

/-- What a failed write has written: some of the files, and perhaps something of the next. -/
def part (j : Job B) (k : ℕ) (torn : Option B) : List (String × B) :=
  j.pending.take k ++ (j.pending[k]?.bind fun f => torn.map fun b => (f.1, b)).toList

end Job

namespace Service

variable (s : Service B)

/-- The module that is neither aborted nor shut down. -/
def live : Option ℕ := s.backend.filter fun m => !s.wasmDead && m ∉ s.shut

/-- What a module is missing is to be written after all else. -/
def queue (m : ℕ) : Service B :=
  { s with
    stagedWritten := s.staged.length
    jobs := s.jobs ++ [⟨m, s.stagedWritten, s.staged.drop s.stagedWritten⟩] }

/-- `flushStaged`, and what is to be waited for. -/
def flushStaged : Service B × Wait :=
  let s' := match s.backend with
    | some m => if s.staged.length = s.stagedWritten then s else s.queue m
    | none => s
  (s', ⟨s.backend, s.staged.length, s'.answered + s'.jobs.length, false⟩)

/-- The call is to go on. -/
def ready (c : Call) : Bool := c.wait?.any fun w => decide (w.target ≤ s.answered)

end Service

/-! ### The calls -/

/-- `name.replace(/^\/+/, '')` -/
def relative (name : String) : String := String.ofList (name.toList.dropWhile (· = '/'))

/-- `dir.replace(/\/$/, '')` -/
def rootOf (dir : String) : String :=
  if dir.toList.getLast? = some '/' then String.ofList dir.toList.dropLast else dir

def endsWith (name suffix : String) : Bool := suffix.toList.isSuffixOf name.toList

def documentOf (names : List String) : Option String :=
  (names.find? (endsWith · ".kicad_pro")) <|> (names.find? (endsWith · ".kicad_pcb")) <|>
    names.find? (endsWith · ".kicad_sch")

inductive Event (B : Type)
  | importProjectFiles (files : List (ProjectFile B)) (dir : String)
  | loadWasm
  | packaged (i : ℕ)
  | shutDown (i : ℕ)
  | created (i : ℕ)
  | notLoaded (i : ℕ)
  | resume (i : ℕ)
  /-- The answer to the write that is under way. -/
  | answer (ok : Bool) (k : ℕ) (torn : Option B)
  | abort
  | exit (m : ℕ)
  | stopKiCad
  | teardown (keepModule : Bool)
  | closed (i : ℕ)

variable (place : String → String) (s : Service B)

def importProjectFiles (files : List (ProjectFile B)) (dir : String) : Service B :=
  let root := rootOf dir
  let staged := files.map fun f => (place (root ++ "/" ++ relative f.name), f.bytes)
  let document := (documentOf (files.map (relative ·.name))).map fun main => root ++ "/" ++ main
  let flushed := Service.flushStaged { s with staged := s.staged ++ staged }
  { flushed.1 with calls := flushed.1.calls ++ [⟨.importing document, .flushing flushed.2⟩] }

/-- A call of `loadWasm()` flushes. -/
def loads (i : ℕ) (c : Call) : Service B :=
  let flushed := s.flushStaged
  { flushed.1 with calls := flushed.1.calls.set i { c with stage := .flushing flushed.2 } }

/-- The answer to a write. -/
def answer (j : Job B) (rest : List (Job B)) (ok : Bool) (k : ℕ) (torn : Option B) : Service B :=
  let s := { s with jobs := rest, answered := s.answered + 1 }
  if ok then { s with disk := s.disk ++ j.onDisk j.pending }
  else
    { s with
      stagedWritten := 0
      disk := s.disk ++ j.onDisk (j.part k torn)
      calls := s.calls.map (·.fail j.backend) }

def step : Event B → Option (Service B)
  | .importProjectFiles files dir => some (importProjectFiles place s files dir)
  | .loadWasm => some { s with calls := s.calls ++ [⟨.loading, .package⟩] }
  | .packaged i => (s.calls[i]?.filter (·.stage = .package)).map fun c =>
      if s.live.isSome then loads s i c
      else if s.backend.isSome then
        { s with
          shut := s.shut ++ s.backend.toList
          calls := s.calls.set i { c with stage := .shutdown } }
      else { s with calls := s.calls.set i { c with stage := .create } }
  | .shutDown i => (s.calls[i]?.filter (·.stage = .shutdown)).map fun c =>
      { s with backend := none, calls := s.calls.set i { c with stage := .create } }
  | .created i => (s.calls[i]?.filter (·.stage = .create)).map fun c =>
      loads { s with
        backend := some s.modules
        modules := s.modules + 1
        wasmDead := false
        stagedWritten := 0 } i c
  | .notLoaded i =>
    (s.calls[i]?.filter fun c => c.stage = .package ∨ c.stage = .create).map fun _ =>
      { s with calls := s.calls.eraseIdx i }
  | .resume i => (s.calls[i]?.filter s.ready).map fun _ => { s with calls := s.calls.eraseIdx i }
  | .answer ok k torn =>
    match s.jobs with
    | j :: rest => if s.calls.any s.ready then none else some (answer s j rest ok k torn)
    | [] => none
  | .abort => some { s with wasmDead := true }
  | .exit m => some { s with shut := s.shut ++ [m] }
  | .stopKiCad =>
    some { s with
      backend := none
      wasmDead := true
      stagedWritten := 0
      shut := s.shut ++ s.backend.toList }
  | .teardown keepModule =>
    if keepModule && s.live.isSome then some s
    else some { s with backend := none, closing := s.closing ++ s.backend.toList }
  | .closed i => s.closing[i]?.map fun m =>
      { s with closing := s.closing.eraseIdx i, shut := s.shut ++ [m], stagedWritten := 0 }

/-! ### What is wanted -/

/-- The file system of a module has, of the first files, the last bytes for each path. -/
def Holds (s : Service B) (m n : ℕ) : Prop :=
  ∀ p b, lastWrite (s.staged.take n) p = some b → lastWrite s.disk (m, p) = some b

lemma holds_iff {s : Service B} {m n : ℕ} : Holds s m n ↔
    ∀ f ∈ s.staged.take n, lastWrite s.disk (m, f.1) = lastWrite (s.staged.take n) f.1 := by
  constructor
  · intro h f hf
    have hsome : (lastWrite (s.staged.take n) f.1).isSome :=
      lastWrite_isSome_iff.mpr (List.mem_map.mpr ⟨f, hf, rfl⟩)
    obtain ⟨b, hb⟩ := Option.isSome_iff_exists.mp hsome
    rw [h f.1 b hb, hb]
  · intro h p b hp
    rw [h (p, b) (mem_of_lastWrite hp), hp]

instance [DecidableEq B] (s : Service B) (m n : ℕ) : Decidable (Holds s m n) :=
  decidable_of_iff _ holds_iff.symm

/-- No write has failed, and the module that is live has all files that were staged. -/
def Reached (s : Service B) (w : Wait) : Prop :=
  w.failed = false ∧ ∀ m ∈ s.live, Holds s m w.count

instance [DecidableEq B] (s : Service B) (w : Wait) : Decidable (Reached s w) :=
  inferInstanceAs (Decidable (w.failed = false ∧ ∀ m ∈ s.live, Holds s m w.count))

end FabPcb.StagedFiles
