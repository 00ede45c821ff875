import FabPcb.Runs
import FabPcb.OrderedMap

/-!
`KicadDocumentService.ts`: the mirror of the documents a server holds, and what it remembers of
their revisions.

Server, network and service take steps in any order. A request is answered in two steps: the
server serves it, and later its answer arrives or it fails. What is said of a re-read is only
that its answer is the state of the moment it is served, of the items it names or of all of
them, and that an answer does not bring items older than those an earlier one brought.
-/

namespace FabPcb.DocumentMirror

open OrderedMap Runs

/-- The kinds of documents that have revisions. -/
inductive Kind where
  | board | schematic
  deriving DecidableEq

/-- A change of a document: the revision it makes, the items it touches, whether it is one of
our own commits, and whether its event names the items. -/
structure Change (ι : Type*) where
  revision : ℕ
  ids : List ι
  own : Bool
  listed : Bool
  deriving DecidableEq

inductive Event (ι : Type*) where
  | changed (kind : Kind) (c : Change ι)
  | saved (kind : Kind) (revision : ℕ)
  deriving DecidableEq

/-- What stands in the event queue. -/
inductive Job (ι : Type*) where
  | event (e : Event ι)
  | poll
  deriving DecidableEq

/-- A document on the server, its mirror and what is remembered of it. -/
structure Doc (ι : Type*) where
  /-- The server: its revision, all changes, and the revision on disk. -/
  rev : ℕ
  changes : List (Change ι)
  disk : ℕ
  /-- The revision whose version of an item the store holds, and that of the last answer. -/
  held : ι → ℕ
  served : ℕ
  known : Option ℕ
  saved : Option ℕ
  dirty : Bool

/-- Why items are re-read. -/
inductive Why (ι : Type*) where
  /-- For a foreign change that an event announces. -/
  | event (c : Change ι)
  /-- `resyncDocument`. -/
  | document
  /-- A poll that found the revision `r`; the kinds it looks at next. -/
  | poll (r : ℕ) (rest : List Kind)
  /-- An op of our own, whose answer carries its items. -/
  | own

/-- Why the revision is asked for. -/
inductive Ask where
  | commit
  | save
  | poll (rest : List Kind)

/-- The request a process awaits, and the moment it was served at. -/
inductive Pc (ι : Type*) where
  | reading (kind : Kind) (why : Why ι) (target : Option (List ι)) (at? : Option ℕ)
  | asking (kind : Kind) (why : Ask) (at? : Option ℕ)
  /-- `doc.save()`. -/
  | writing (kind : Kind) (done : Bool)

structure State (ι : Type*) where
  docs : Kind → Doc ι
  /-- Events on their way, whether one was lost since the last that came, and whether any was. -/
  wire : List (Event ι)
  gap : Bool
  lost : Bool
  eventsLive : Bool
  /-- The event queue, and the process that works off its last head. -/
  eventQueue : List (Job ι)
  handler : Option ℕ
  busy : ℕ
  polling : Bool
  procs : OMap ℕ (Pc ι)

variable {ι : Type*}

/-- Two documents as they are read and saved after opening. -/
def State.opened (rev : Kind → ℕ) (live : Bool) : State ι where
  docs kind := ⟨rev kind, [], rev kind, fun _ => rev kind, rev kind, some (rev kind),
    some (rev kind), false⟩
  wire := []
  gap := false
  lost := false
  eventsLive := live
  eventQueue := []
  handler := none
  busy := 0
  polling := false
  procs := OMap.empty

/-! ### What is remembered of a document -/

/-- Whether a re-read of `target` brings an item; without a target it is of the document. -/
def covers [DecidableEq ι] (target : Option (List ι)) (id : ι) : Bool := target.all (·.contains id)

namespace Doc

/-- A re-read answered with the state of the revision `m`. -/
def read [DecidableEq ι] (d : Doc ι) (target : Option (List ι)) (m : ℕ) : Doc ι :=
  { d with held := fun id => if covers target id then m else d.held id, served := m }

/-- The end of `onDocumentChanged`. -/
def noteChanged (d : Doc ι) (revision : ℕ) : Doc ι :=
  { d with known := some revision, dirty := d.saved ≠ some revision }

/-- `onDocumentSaved`, and the end of `save`. -/
def noteSaved (d : Doc ι) (revision : ℕ) : Doc ι :=
  { d with known := some revision, saved := some revision, dirty := false }

/-- The end of `afterCommit`, with the revision unless the request failed. -/
def noteCommit (d : Doc ι) (answer : Option ℕ) : Doc ι :=
  let known := answer.or d.known
  { d with known, dirty := known = none ∨ d.saved ≠ known }

/-- The end of a poll that has re-read the document. -/
def notePoll (d : Doc ι) (revision : ℕ) : Doc ι := { d with dirty := d.saved ≠ some revision }

end Doc

namespace State

def modify (s : State ι) (kind : Kind) (f : Doc ι → Doc ι) : State ι :=
  { s with docs := Function.update s.docs kind (f (s.docs kind)) }

@[simp] lemma docs_modify_self (s : State ι) (kind : Kind) (f : Doc ι → Doc ι) :
    (s.modify kind f).docs kind = f (s.docs kind) := by
  simp [State.modify]

@[simp] lemma docs_modify_of_ne (s : State ι) {kind kind' : Kind} (h : kind' ≠ kind)
    (f : Doc ι → Doc ι) : (s.modify kind f).docs kind' = s.docs kind' := by
  simp [State.modify, h]

def goto (s : State ι) (n : ℕ) (pc : Pc ι) : State ι := { s with procs := s.procs.set n pc }

/-- A process ends; if it is the one of the queue, the next job may begin. -/
def leave (s : State ι) (n : ℕ) : State ι :=
  { s with procs := s.procs.delete n, handler := if s.handler = some n then none else s.handler }

/-- `beginActivity()`, and what it returns. -/
def beginActivity (s : State ι) : State ι := { s with busy := s.busy + 1 }
def endActivity (s : State ι) : State ι := { s with busy := s.busy - 1 }

/-! ### The server and the events -/

def change (s : State ι) (kind : Kind) (c : Change ι) : State ι :=
  { s.modify kind fun d => { d with rev := c.revision, changes := d.changes ++ [c] } with
    wire := s.wire ++ [.changed kind c] }

/-- The server writes a document to disk. -/
def write (s : State ι) (kind : Kind) : State ι :=
  { s.modify kind fun d => { d with disk := d.rev } with
    wire := s.wire ++ [.saved kind (s.docs kind).rev] }

/-- An event comes; behind a gap, a poll is queued before it. -/
def deliver (s : State ι) (e : Event ι) (wire : List (Event ι)) : State ι :=
  { s with
    wire, gap := false
    eventQueue := s.eventQueue ++ (if s.gap then [.poll, .event e] else [.event e]) }

/-- `onStateChange`: one check of the revisions once events are connected again. -/
def connect (s : State ι) (live : Bool) : State ι :=
  { s with eventsLive := live, eventQueue := s.eventQueue ++ (if live then [.poll] else []) }

/-! ### The handlers -/

/-- `poll`, from the next kind it looks at. -/
def pollNext (s : State ι) (n : ℕ) : List Kind → State ι
  | [] => { s.leave n with polling := false }
  | kind :: rest => s.goto n (.asking kind (.poll rest) none)

/-- `poll`; skipped while another one, an activity or, unless forced, the events run. -/
def poll (s : State ι) (n : ℕ) (force : Bool) : State ι :=
  if s.polling || 0 < s.busy then s
  else if !force && s.eventsLive then s
  else { s with polling := true }.pollNext n [.board, .schematic]

/-- A job of the queue begins; only a re-read or a poll makes it wait. -/
def begin (s : State ι) (n : ℕ) : Job ι → State ι
  | .poll =>
    let s' := s.poll n true
    { s' with handler := if s'.procs.has n then some n else none }
  | .event (.saved kind revision) => s.modify kind fun d => d.noteSaved revision
  | .event (.changed kind c) =>
    if c.own then s.modify kind fun d => d.noteChanged c.revision
    else
      { s.beginActivity.goto n
          (.reading kind (.event c) (if c.listed then some c.ids else none) none) with
        handler := some n }

/-- What stands behind a re-read, whether it failed or not. -/
def afterRead (s : State ι) (n : ℕ) (kind : Kind) (ok : Bool) : Why ι → State ι
  | .event c => (s.endActivity.modify kind fun d => d.noteChanged c.revision).leave n
  | .document => s.endActivity.goto n (.asking kind .commit none)
  | .poll r rest =>
    if ok then (s.modify kind fun d => d.notePoll r).pollNext n rest
    else { s.leave n with polling := false }
  | .own => s.leave n

/-- What stands behind a revision, or the failure to get it. -/
def afterAsk (s : State ι) (n : ℕ) (kind : Kind) (answer : Option ℕ) : Ask → State ι
  | .commit => (s.modify kind fun d => d.noteCommit answer).leave n
  | .save =>
    match answer with
    | some m => (s.modify kind fun d => d.noteSaved m).endActivity.leave n
    | none => s.endActivity.leave n
  | .poll rest =>
    match answer with
    | none => { s.leave n with polling := false }
    | some m =>
      match (s.docs kind).known with
      | none => (s.modify kind fun d => { d with known := some m }).pollNext n rest
      | some r =>
        if m = r then s.pollNext n rest
        else (s.modify kind fun d => { d with known := some m }).goto n
          (.reading kind (.poll m rest) none none)

/-! ### Requests -/

/-- The server serves the request of a process. -/
def serve (s : State ι) (n : ℕ) : Pc ι → Option (State ι)
  | .reading kind why target none =>
    some (s.goto n (.reading kind why target (some (s.docs kind).rev)))
  | .asking kind why none => some (s.goto n (.asking kind why (some (s.docs kind).rev)))
  | .writing kind false => some ((s.write kind).goto n (.writing kind true))
  | _ => none

/-- The answer to a request comes. -/
def answer [DecidableEq ι] (s : State ι) (n : ℕ) : Pc ι → Option (State ι)
  | .reading kind why target (some m) =>
    if (s.docs kind).served ≤ m then
      some ((s.modify kind fun d => d.read target m).afterRead n kind true why)
    else none
  | .asking kind why (some m) => some (s.afterAsk n kind (some m) why)
  | .writing kind true => some (s.goto n (.asking kind .save none))
  | _ => none

/-- A request fails, served or not. -/
def fail (s : State ι) (n : ℕ) : Pc ι → State ι
  | .reading kind why _ _ => s.afterRead n kind false why
  | .asking kind why _ => s.afterAsk n kind none why
  | .writing _ _ => s.endActivity.leave n

end State

/-! ### Steps -/

inductive Action (ι : Type*) where
  /-- The server: a change, a save of another client. -/
  | change (kind : Kind) (c : Change ι)
  | write (kind : Kind)
  /-- The events. -/
  | deliver
  | lose
  | connect (live : Bool)
  /-- A store has emitted a diff: `onStoreChanged`. -/
  | touch (kind : Kind)
  /-- Activities of other calls. -/
  | activity (begins : Bool)
  /-- The next job of the queue, the poll timer, and calls. -/
  | begin (n : ℕ)
  | poll (n : ℕ)
  | afterCommit (n : ℕ) (kind : Kind)
  | resyncDocument (n : ℕ) (kind : Kind)
  | save (n : ℕ) (kind : Kind)
  | edit (n : ℕ) (kind : Kind) (ids : List ι)
  /-- The request of a process. -/
  | serve (n : ℕ)
  | answer (n : ℕ)
  | fail (n : ℕ)

variable [DecidableEq ι]

def step (s : State ι) : Action ι → Option (State ι)
  | .change kind c => if (s.docs kind).rev < c.revision then some (s.change kind c) else none
  | .write kind => some (s.write kind)
  | .deliver =>
    match s.wire with
    | [] => none
    | e :: wire => some (s.deliver e wire)
  | .lose =>
    match s.wire with
    | [] => none
    | _ :: wire => some { s with wire, gap := true, lost := true }
  | .connect live => some (s.connect live)
  | .touch kind => some (s.modify kind fun d => { d with dirty := true })
  | .activity begins => some (if begins then s.beginActivity else s.endActivity)
  | .begin n =>
    match s.eventQueue, s.handler, s.procs.get? n with
    | job :: eventQueue, none, none => some ({ s with eventQueue }.begin n job)
    | _, _, _ => none
  | .poll n => if s.procs.has n then none else some (s.poll n false)
  | .afterCommit n kind =>
    if s.procs.has n then none else some (s.goto n (.asking kind .commit none))
  | .resyncDocument n kind =>
    if s.procs.has n then none
    else some (s.beginActivity.goto n (.reading kind .document none none))
  | .save n kind =>
    if s.procs.has n then none else some (s.beginActivity.goto n (.writing kind false))
  | .edit n kind ids =>
    if s.procs.has n then none else some (s.goto n (.reading kind .own (some ids) none))
  | .serve n => (s.procs.get? n).bind fun pc => s.serve n pc
  | .answer n => (s.procs.get? n).bind fun pc => s.answer n pc
  | .fail n => (s.procs.get? n).map fun pc => s.fail n pc

/-- Nothing of the service is under way. -/
def State.quiescent (s : State ι) : Bool := s.eventQueue.isEmpty && s.procs.size = 0

end FabPcb.DocumentMirror
