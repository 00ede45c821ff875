import FabPcb.NngFraming
import FabPcb.Runs

/-!
Calls into the KiCad module across a worker: the client on the page, the messages both ways, and
the worker that owns the module.

Messages arrive in their order. The worker handles one at a time, and a request runs in the module
before the next message is read. On the page a reply, a state of the worker, an error event, the
timer of a shutdown and the calls of the page itself come in any order.
-/

namespace FabPcb.WasmWorker

open NngFraming (Bytes)

inductive WasmFsRequest
  | writeFiles (files : List (String × Bytes))
  | readFile (path : String)
  | existsFile (path : String)
  | stat (path : String)
  | listFiles (path : String)
  | mkdir (path : String)
  deriving DecidableEq

/-- What is asked of the module, or of its file system. -/
inductive Body
  | req (bytes : Bytes)
  | fs (op : WasmFsRequest)
  deriving DecidableEq

/-- The error that a call is rejected with; a fatal one tells that the module is gone. -/
structure Failure where
  message : String
  fatal : Bool
  deriving DecidableEq

inductive WorkerState
  | starting
  | running
  | failed
  | exited
  deriving DecidableEq

def WorkerState.text : WorkerState → String
  | .starting => "starting"
  | .running => "running"
  | .failed => "failed"
  | .exited => "exited"

/-- The worker has stopped. -/
def WorkerState.isOver : WorkerState → Bool
  | .failed | .exited => true
  | .starting | .running => false

inductive ToWorker
  | start
  | call (id : ℕ) (body : Body)
  | stop
  deriving DecidableEq

inductive FromWorker (V : Type)
  | state (state : WorkerState) (message : Option String)
  | reply (id : ℕ) (result : Except Failure V)
  /-- An event of the module, or a line for the log. -/
  | notice

/-- How the module answers: with a value, with an exception, or with `abort()`. -/
inductive Answer (V : Type)
  | value (v : V)
  | thrown (message : String)
  | aborted (message : String)

/-- What the module is made to do. -/
inductive Act (V : Type)
  | served (id : ℕ) (body : Body) (answer : Answer V)
  | stopped

/-- A shutdown that waits for the worker, or that goes on. -/
inductive Stopping
  | waiting
  | resolved
  deriving DecidableEq

structure System (V : Type) where
  /-- The client: the state of the worker as it was told, and the calls without an answer. -/
  state : WorkerState := .starting
  closed : Bool := false
  pending : List ℕ := []
  stopping : Option Stopping := none
  /-- The messages under way. -/
  toWorker : List ToWorker := [.start]
  fromWorker : List (FromWorker V) := []
  /-- The worker. -/
  terminated : Bool := false
  loading : Bool := false
  wasm : Bool := false
  stopped : Bool := false
  /-- The calls that were given an id, from 1 on, and those that were answered without one. -/
  posted : List Body := []
  empties : ℕ := 0
  refused : List Failure := []
  /-- How calls were settled, and what the module did. -/
  settled : List (ℕ × Except Failure V) := []
  acts : List (Act V) := []
  /-- How many calls had been let through when the client had first seen the worker stop, or the
  first `terminate()` or `shutdown()` had finished. -/
  ended : Option ℕ := none

namespace System

variable {V : Type} (s : System V)

def isShutDown : Bool := s.closed || s.state.isOver

/-- The calls that were not rejected at once. -/
def taken : ℕ := s.posted.length + s.empties

def finish : System V := { s with ended := s.ended.or (some s.taken) }

/-! ### The client -/

def failAll (f : Failure) : System V :=
  { s with pending := [], settled := s.settled ++ s.pending.map fun id => (id, .error f) }

/-- `notifyState`, as far as a shutdown waits for it. -/
def notifyState (state : WorkerState) : System V :=
  if state.isOver && s.stopping == some .waiting then { s with stopping := some .resolved } else s

/-- A call. `throws` is what `postMessage` throws. -/
def send (body : Body) (throws : Option String) : System V :=
  if s.isShutDown then
    { s with refused := s.refused ++ [⟨"the KiCad wasm worker is not running", false⟩] }
  else
    let id := s.posted.length + 1
    let s := { s with posted := s.posted ++ [body] }
    match throws with
    | none => { s with pending := s.pending ++ [id], toWorker := s.toWorker ++ [.call id body] }
    | some message => { s with settled := s.settled ++ [(id, .error ⟨message, false⟩)] }

/-- `dispatchAsync` and the calls of the file system. To write no files takes no message. -/
def call (body : Body) (throws : Option String) : System V :=
  if body = .fs (.writeFiles []) then { s with empties := s.empties + 1 } else s.send body throws

/-- The `finally` of a shutdown. -/
def finishShutdown : System V :=
  finish (failAll { s with stopping := none, terminated := true }
    ⟨"the KiCad wasm worker has been shut down", false⟩)

/-- `shutdown()`, up to its `await`. -/
def shutdown (throws : Bool) : System V :=
  if s.closed then s.finish
  else
    let s := { s with closed := true }
    if throws then s.finishShutdown
    else
      { s with
        stopping := some (if s.state.isOver then .resolved else .waiting)
        toWorker := s.toWorker ++ [.stop] }

def terminate (reason : String) : System V :=
  if s.closed then s.finish
  else
    let s := { s with closed := true, terminated := true, state := .failed }
    finish (failAll s ⟨reason, true⟩)

/-- `onMessage` of a state. -/
def onState (state : WorkerState) (message : Option String) : System V :=
  let s := { s with state := state }.notifyState state
  if state.isOver then
    finish (s.failAll ⟨message.getD ("the KiCad wasm worker " ++ state.text), state == .failed⟩)
  else s

/-- `onMessage` of a reply. -/
def onReply (id : ℕ) (result : Except Failure V) : System V :=
  if id ∈ s.pending then
    { s with pending := s.pending.erase id, settled := s.settled ++ [(id, result)] }
  else s

def onMessage : FromWorker V → System V
  | .state state message => s.onState state message
  | .reply id result => s.onReply id result
  | .notice => s

/-- `worker.onerror` -/
def fail (message : String) : System V :=
  finish (({ s with state := .failed }.notifyState .failed).failAll ⟨message, false⟩)

/-! ### The worker -/

def post (m : FromWorker V) : System V := { s with fromWorker := s.fromWorker ++ [m] }

def act (a : Act V) : System V := { s with acts := s.acts ++ [a] }

/-- A request is dispatched into the module, if there is one. -/
def dispatch (id : ℕ) (q : Bytes) (answer : Answer V) : System V :=
  if !s.wasm || s.stopped then s.post (.reply id (.error ⟨"the wasm module is not running", false⟩))
  else
    let s := s.act (.served id (.req q) answer)
    match answer with
    | .value v => s.post (.reply id (.ok v))
    | .thrown message => s.post (.reply id (.error ⟨message, false⟩))
    | .aborted message =>
      ({ s.post (.reply id (.error ⟨message, true⟩)) with wasm := false }).post
        (.state .failed (some message))

/-- An operation on the file system of the module, which does not abort. -/
def fsOp (id : ℕ) (op : WasmFsRequest) (answer : Answer V) : Option (System V) :=
  if !s.wasm then
    some (s.post (.reply id (.error ⟨"the wasm module is not running", false⟩)))
  else
    let s := s.act (.served id (.fs op) answer)
    match answer with
    | .value v => some (s.post (.reply id (.ok v)))
    | .thrown message => some (s.post (.reply id (.error ⟨message, false⟩)))
    | .aborted _ => none

/-- `stop()`. The module, if there is one, may throw as it is shut down. -/
def stop (answer : Answer V) : System V :=
  if s.stopped then s
  else
    let s := { s with stopped := true }.act .stopped
    let message := match s.wasm, answer with
      | true, .thrown message | true, .aborted message => some message
      | _, _ => none
    { s.post (message.elim (.state .exited none) fun m => .state .failed (some m)) with
      wasm := false }

/-- The worker handles a message. -/
def handle (answer : Answer V) : ToWorker → Option (System V)
  | .start => some { s.post (.state .starting none) with loading := true }
  | .call id (.req q) => some (s.dispatch id q answer)
  | .call id (.fs op) => s.fsOp id op answer
  | .stop => some (s.stop answer)

/-- The module has been loaded, or loading it has failed. -/
def loaded : Option String → System V
  | none => ({ s with loading := false, wasm := true }).post (.state .running none)
  | some message => ({ s with loading := false }).post (.state .failed (some message))

end System

/-! ### Steps -/

inductive Event (V : Type)
  | call (body : Body) (throws : Option String)
  | shutdown (throws : Bool)
  /-- The timer of a shutdown. -/
  | timeout
  /-- A shutdown goes on behind its `await`. -/
  | resume
  | terminate (reason : String)
  /-- The client handles a message. -/
  | deliver
  | workerError (message : String)
  /-- The worker handles a message. -/
  | handle (answer : Answer V)
  | loaded (failure : Option String)
  | notice

variable {V : Type}

def step (s : System V) : Event V → Option (System V)
  | .call body throws => some (s.call body throws)
  | .shutdown throws => some (s.shutdown throws)
  | .timeout =>
    if s.stopping = some .waiting then some { s with stopping := some .resolved } else none
  | .resume => if s.stopping = some .resolved then some s.finishShutdown else none
  | .terminate reason => some (s.terminate reason)
  | .deliver =>
    match s.fromWorker with
    | [] => none
    | m :: rest => some (System.onMessage { s with fromWorker := rest } m)
  | .workerError message => some (s.fail message)
  | .handle answer =>
    if s.terminated then none
    else
      match s.toWorker with
      | [] => none
      | m :: rest => System.handle { s with toWorker := rest } answer m
  | .loaded failure => if s.loading && !s.terminated then some (s.loaded failure) else none
  | .notice => if s.terminated then none else some (s.post .notice)

end FabPcb.WasmWorker
