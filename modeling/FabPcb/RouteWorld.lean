import FabPcb.RouteJob

/-!
The board that route jobs share with other clients, and what happens to it.

A commit replaces the copper and leaves an entry on the one undo stack; undoing the newest entry puts
back the copper that it found. Requests of a job are served one at a time, in any order with those of
other jobs and with the edits of other clients, and each of them may fail before or after it has been
carried out.
-/

namespace FabPcb.RouteWorld

open Dialogue RouteJob

/-! ### The board -/

structure Entry where
  id : ℕ
  /-- The copper that the commit found. -/
  before : List Item

structure Board where
  items : List Item
  /-- The newest entry first. -/
  undoStack : List Entry
  nextItem : ℕ
  nextEntry : ℕ

inductive Party where
  | client
  | job (n : ℕ)
  deriving DecidableEq

/-- What happens to the undo stack. -/
inductive Event where
  /-- A commit, and the entry that it leaves. -/
  | committed (party : Party) (entry : Option ℕ)
  /-- An undo, and the entry that it takes. -/
  | undone (party : Party) (entry : Option ℕ)
  deriving DecidableEq

/-- The server gives new items their ids. -/
def created (n : ℕ) : List NewItem → List Item
  | [] => []
  | item :: items => ⟨item, n, false⟩ :: created (n + 1) items

def updated (update : List Item) (item : Item) : Item := (update.find? (·.id = item.id)).getD item

def isBlank (change : Change) : Bool :=
  change.delete.isEmpty && change.create.isEmpty && change.update.isEmpty

namespace Board

/-- The copper after a commit. -/
def changed (b : Board) (change : Change) : List Item :=
  (b.items.filter (·.id ∉ change.delete)).map (updated change.update) ++
    created b.nextItem change.create

/-- An entry on the undo stack, and other copper. -/
def push (b : Board) (items : List Item) : Board :=
  { b with
    items
    undoStack := ⟨b.nextEntry, b.items⟩ :: b.undoStack
    nextEntry := b.nextEntry + 1 }

/-- Whether a commit without changes leaves an entry is for the server to say. -/
def leavesEntry (recordsEmpty : Bool) (change : Change) : Bool := recordsEmpty || !isBlank change

def commit (recordsEmpty : Bool) (b : Board) (change : Change) : Board :=
  let b' := if leavesEntry recordsEmpty change then b.push (b.changed change) else b
  { b' with nextItem := b.nextItem + change.create.length }

def undo (b : Board) : Board :=
  match b.undoStack with
  | [] => b
  | entry :: rest => { b with items := entry.before, undoStack := rest }

end Board

/-! ### Service -/

/-- How a request goes. -/
inductive Choice where
  | ok
  | board (isOpen : Bool)
  | input (input : RouteInput)
  /-- A router may have put copper on the board by itself. -/
  | result (result : RouteResult) (imported : Option Change)
  | markers (markers : List Marker)
  | edges (edges : List RouteConnection)
  /-- It fails and was not carried out. -/
  | fail (f : Failure)
  /-- It was carried out, and fails. -/
  | lost (f : Failure) (imported : Option Change)

abbrev Served (q : Request) : Type := Board × Except Failure (Reply q) × List Event

section Serve

variable (recordsEmpty : Bool) (party : Party) (b : Board)

def entryOf (change : Change) : Option ℕ :=
  if Board.leavesEntry recordsEmpty change then some b.nextEntry else none

def serveCommit (change : Change) (r : Except Failure CommitResult) : Served (.commit change) :=
  (b.commit recordsEmpty change, r, [.committed party (entryOf recordsEmpty b change)])

def serveImport (imported : Option Change) (r : Except Failure RouteResult) : Served .route :=
  match imported with
  | none => (b, r, [])
  | some change =>
    (b.commit recordsEmpty change, r, [.committed party (entryOf recordsEmpty b change)])

def serveUndo (r : Except Failure ℕ) : Served .undo :=
  (b.undo, r, [.undone party (b.undoStack.head?.map (·.id))])

/-- What is served for a request, if it can go this way. -/
def serve : (q : Request) → Choice → Option (Served q)
  | _, .fail f => some (b, .error f, [])
  | .currentBoard, .board isOpen => some (b, .ok isOpen, [])
  | .refillZones, .ok => some (b, .ok (), [])
  | .save, .ok => some (b, .ok (), [])
  | .getTracks, .ok => some (b, .ok b.items, [])
  | .extract, .input input => some (b, .ok input, [])
  | .route, .result result imported => some (serveImport recordsEmpty party b imported (.ok result))
  | .route, .lost f imported => some (serveImport recordsEmpty party b imported (.error f))
  | .commit change, .ok =>
    some (serveCommit recordsEmpty party b change (.ok ⟨created b.nextItem change.create⟩))
  | .commit change, .lost f _ => some (serveCommit recordsEmpty party b change (.error f))
  | .runDrc, .markers markers => some (b, .ok markers, [])
  | .ratsnest _, .edges edges => some (b, .ok edges, [])
  | .undo, .ok => some (serveUndo party b (.ok (min 1 b.undoStack.length)))
  | .undo, .lost f _ => some (serveUndo party b (.error f))
  | _, _ => none

end Serve

section Served

variable {recordsEmpty : Bool} {party : Party} {b : Board} {choice : Choice}

lemma serve_commit {change : Change} {served : Served (.commit change)}
    (h : serve recordsEmpty party b (.commit change) choice = some served) :
    (∃ f, choice = .fail f ∧ served.1 = b ∧ served.2.1 = .error f ∧ served.2.2 = []) ∨
      (served.1 = b.commit recordsEmpty change ∧
        served.2.2 = [.committed party (entryOf recordsEmpty b change)] ∧
        (served.2.1 = .ok ⟨created b.nextItem change.create⟩ ∨
          ∃ f imported, choice = .lost f imported ∧ served.2.1 = .error f)) := by
  cases choice with
  | ok =>
    cases h
    exact Or.inr ⟨rfl, rfl, Or.inl rfl⟩
  | lost f imported =>
    cases h
    exact Or.inr ⟨rfl, rfl, Or.inr ⟨f, imported, rfl, rfl⟩⟩
  | fail f =>
    cases h
    exact Or.inl ⟨f, rfl, rfl, rfl, rfl⟩
  | _ => cases h

lemma serve_undo {served : Served .undo} (h : serve recordsEmpty party b .undo choice = some served) :
    (∃ f, choice = .fail f ∧ served.1 = b ∧ served.2.1 = .error f ∧ served.2.2 = []) ∨
      (served.1 = b.undo ∧ served.2.2 = [.undone party (b.undoStack.head?.map (·.id))] ∧
        (served.2.1 = .ok (min 1 b.undoStack.length : ℕ) ∨
          ∃ f imported, choice = .lost f imported ∧ served.2.1 = .error f)) := by
  cases choice with
  | ok =>
    cases h
    exact Or.inr ⟨rfl, rfl, Or.inl rfl⟩
  | lost f imported =>
    cases h
    exact Or.inr ⟨rfl, rfl, Or.inr ⟨f, imported, rfl, rfl⟩⟩
  | fail f =>
    cases h
    exact Or.inl ⟨f, rfl, rfl, rfl, rfl⟩
  | _ => cases h

lemma serve_route {served : Served .route}
    (h : serve recordsEmpty party b .route choice = some served) :
    (served.1 = b ∧ served.2.2 = []) ∨
      ∃ change, served.1 = b.commit recordsEmpty change ∧
        served.2.2 = [.committed party (entryOf recordsEmpty b change)] ∧
        ((∃ result, choice = .result result (some change) ∧ served.2.1 = .ok result) ∨
          ∃ f, choice = .lost f (some change)) := by
  cases choice with
  | result result imported =>
    cases imported with
    | none =>
      cases h
      exact Or.inl ⟨rfl, rfl⟩
    | some change =>
      cases h
      exact Or.inr ⟨change, rfl, rfl, Or.inl ⟨result, rfl, rfl⟩⟩
  | lost f imported =>
    cases imported with
    | none =>
      cases h
      exact Or.inl ⟨rfl, rfl⟩
    | some change =>
      cases h
      exact Or.inr ⟨change, rfl, rfl, Or.inr ⟨f, rfl⟩⟩
  | fail f =>
    cases h
    exact Or.inl ⟨rfl, rfl⟩
  | _ => cases h

/-- A request that is no business of the undo stack. -/
def isPlain : Request → Bool
  | .commit _ => false
  | .route => false
  | .undo => false
  | _ => true

lemma serve_plain {q : Request} (hq : isPlain q = true) {served : Served q}
    (h : serve recordsEmpty party b q choice = some served) :
    served.1 = b ∧ served.2.2 = [] ∧
      (served.2.1.toOption.isSome = true ∨ ∃ f, choice = .fail f) := by
  cases choice with
  | fail f =>
    cases q <;> cases h <;> exact ⟨rfl, rfl, Or.inr ⟨f, rfl⟩⟩
  | _ =>
    cases q <;> first
      | exact absurd hq Bool.false_ne_true
      | (cases h; exact ⟨rfl, rfl, Or.inl rfl⟩)
      | exact absurd h nofun

end Served

/-! ### The world -/

structure Slot where
  prog : Dialog RouteJobInfo
  aborted : Bool

/-- What an observer sees. -/
def Slot.info (slot : Slot) : RouteJobInfo :=
  match slot.prog with
  | .ret info => info
  | .ask info _ _ => info

structure World where
  recordsEmpty : Bool
  board : Board
  jobs : List Slot
  /-- What happened to the undo stack. -/
  log : List Event
  /-- What observers have seen of jobs. -/
  seen : List (ℕ × RouteJobInfo)

inductive Action where
  /-- A job's request is served. -/
  | reply (n : ℕ) (choice : Choice)
  | cancel (n : ℕ)
  | observe (n : ℕ)
  /-- Another client commits, or redoes. -/
  | edit (items : List Item)
  /-- Another client undoes. -/
  | undo

/-- A job whose request has been served. -/
def Slot.next (recordsEmpty : Bool) (b : Board) (n : ℕ) (slot : Slot) (choice : Choice) :
    Option (Board × Slot × List Event) :=
  match slot.prog with
  | .ret _ => none
  | .ask _ q next =>
    (serve recordsEmpty (.job n) b q choice).map fun served =>
      (served.1, { slot with prog := next (served.2.1, slot.aborted) }, served.2.2)

/-- `cancel` -/
def Slot.cancel (slot : Slot) : Slot :=
  if finished slot.info.state then slot else { slot with aborted := true }

namespace World

def step (w : World) : Action → Option World
  | .reply n choice => do
    let slot ← w.jobs[n]?
    let (board, slot, events) ← slot.next w.recordsEmpty w.board n choice
    return { w with board, jobs := w.jobs.set n slot, log := w.log ++ events }
  | .cancel n => do
    let slot ← w.jobs[n]?
    return { w with jobs := w.jobs.set n slot.cancel }
  | .observe n => do
    let slot ← w.jobs[n]?
    return { w with seen := w.seen ++ [(n, slot.info)] }
  | .edit items =>
    some { w with
      board := w.board.push items
      log := w.log ++ [.committed .client (some w.board.nextEntry)] }
  | .undo =>
    some { w with
      board := w.board.undo
      log := w.log ++ [.undone .client (w.board.undoStack.head?.map (·.id))] }

def run : World → List Action → Option World
  | w, [] => some w
  | w, a :: as => (w.step a).bind fun w => run w as

end World

/-- Jobs that have been started, on a board with an undo stack of its own. -/
structure Begins (w : World) : Prop where
  jobs : ∀ slot ∈ w.jobs, slot.aborted = false ∧ ∃ setting request, slot.prog = start setting request
  log : w.log = []
  seen : w.seen = []
  distinct : (w.board.undoStack.map (·.id)).Nodup
  below : ∀ entry ∈ w.board.undoStack, entry.id < w.board.nextEntry

/-- Jobs that have just been started. -/
def World.new (recordsEmpty : Bool) (board : Board) (jobs : List (Setting × RouteJobRequest)) :
    World :=
  ⟨recordsEmpty, board, jobs.map fun job => ⟨start job.1 job.2, false⟩, [], []⟩

lemma begins_new {recordsEmpty : Bool} {board : Board} {jobs : List (Setting × RouteJobRequest)}
    (hdistinct : (board.undoStack.map (·.id)).Nodup)
    (hbelow : ∀ entry ∈ board.undoStack, entry.id < board.nextEntry) :
    Begins (World.new recordsEmpty board jobs) where
  jobs slot hslot := by
    obtain ⟨job, -, rfl⟩ := List.mem_map.mp hslot
    exact ⟨rfl, job.1, job.2, rfl⟩
  log := rfl
  seen := rfl
  distinct := hdistinct
  below := hbelow

/-! ### Steps -/

/-- What a step can be. -/
inductive Move (w : World) : Action → World → Prop where
  | reply {n : ℕ} {slot : Slot} {view : RouteJobInfo} {q : Request}
      {next : Answer q → Dialog RouteJobInfo} {choice : Choice} {served : Served q}
      (hslot : w.jobs[n]? = some slot) (hprog : slot.prog = .ask view q next)
      (hserve : serve w.recordsEmpty (.job n) w.board q choice = some served) :
      Move w (.reply n choice) { w with
        board := served.1
        jobs := w.jobs.set n { slot with prog := next (served.2.1, slot.aborted) }
        log := w.log ++ served.2.2 }
  | cancel {n : ℕ} {slot : Slot} (hslot : w.jobs[n]? = some slot) :
      Move w (.cancel n) { w with jobs := w.jobs.set n slot.cancel }
  | observe {n : ℕ} {slot : Slot} (hslot : w.jobs[n]? = some slot) :
      Move w (.observe n) { w with seen := w.seen ++ [(n, slot.info)] }
  | edit {items : List Item} :
      Move w (.edit items) { w with
        board := w.board.push items
        log := w.log ++ [.committed .client (some w.board.nextEntry)] }
  | undo :
      Move w .undo { w with
        board := w.board.undo
        log := w.log ++ [.undone .client (w.board.undoStack.head?.map (·.id))] }

variable {w w' : World} {a : Action} {as : List Action}

lemma move_of_step (h : w.step a = some w') : Move w a w' := by
  cases a with
  | reply n choice =>
    obtain ⟨slot, hslot, hrest⟩ := Option.bind_eq_some_iff.mp h
    obtain ⟨⟨board, slot', events⟩, hnext, heq⟩ := Option.bind_eq_some_iff.mp hrest
    cases heq
    unfold Slot.next at hnext
    split at hnext
    · cases hnext
    next view q next hprog =>
      obtain ⟨served, hserve, heq⟩ := Option.map_eq_some_iff.mp hnext
      cases heq
      exact .reply hslot hprog hserve
  | cancel n =>
    obtain ⟨slot, hslot, heq⟩ := Option.bind_eq_some_iff.mp h
    cases heq
    exact .cancel hslot
  | observe n =>
    obtain ⟨slot, hslot, heq⟩ := Option.bind_eq_some_iff.mp h
    cases heq
    exact .observe hslot
  | edit items =>
    cases h
    exact .edit
  | undo =>
    cases h
    exact .undo

lemma run_induction {P : World → Prop} (hstep : ∀ w a w', P w → w.step a = some w' → P w') (hw : P w)
    (h : w.run as = some w') : P w' := by
  induction as generalizing w with
  | nil =>
    cases h
    exact hw
  | cons a as ih =>
    obtain ⟨v, hv, hrun⟩ := Option.bind_eq_some_iff.mp h
    exact ih (hstep w a v hw hv) hrun

lemma run_append {bs : List Action} :
    w.run (as ++ bs) = (w.run as).bind fun w => w.run bs := by
  induction as generalizing w with
  | nil => rfl
  | cons a as ih =>
    rw [List.cons_append, World.run, World.run, Option.bind_assoc]
    congr 1
    funext v
    exact ih

lemma prog_cancel (slot : Slot) : slot.cancel.prog = slot.prog := by
  unfold Slot.cancel
  split <;> rfl

/-- What a step is for a job: nothing, or the reply that it waits for. -/
lemma job_step {n : ℕ} {slot : Slot} (h : w.step a = some w') (hslot : w.jobs[n]? = some slot) :
    ∃ slot', w'.jobs[n]? = some slot' ∧
      (slot'.prog = slot.prog ∨
        ∃ (choice : Choice) (view : RouteJobInfo) (q : Request)
          (next : Answer q → Dialog RouteJobInfo) (served : Served q),
          a = .reply n choice ∧ slot.prog = .ask view q next ∧
            serve w.recordsEmpty (.job n) w.board q choice = some served ∧
            slot' = ⟨next (served.2.1, slot.aborted), slot.aborted⟩) := by
  have hlt : n < w.jobs.length := (List.getElem?_eq_some_iff.mp hslot).1
  cases move_of_step h with
  | @reply m slot₁ view q next choice served hslot₁ hprog hserve =>
    by_cases hm : m = n
    · subst hm
      cases hslot₁.symm.trans hslot
      refine ⟨_, List.getElem?_set_self hlt, Or.inr ?_⟩
      exact ⟨choice, view, q, next, served, rfl, hprog, hserve, rfl⟩
    · exact ⟨slot, (List.getElem?_set_ne hm).trans hslot, Or.inl rfl⟩
  | @cancel m slot₁ hslot₁ =>
    by_cases hm : m = n
    · subst hm
      cases hslot₁.symm.trans hslot
      exact ⟨_, List.getElem?_set_self hlt, Or.inl (prog_cancel _)⟩
    · exact ⟨slot, (List.getElem?_set_ne hm).trans hslot, Or.inl rfl⟩
  | observe => exact ⟨slot, hslot, Or.inl rfl⟩
  | edit => exact ⟨slot, hslot, Or.inl rfl⟩
  | undo => exact ⟨slot, hslot, Or.inl rfl⟩

end FabPcb.RouteWorld
