import FabPcb.AutorouteEvents
import FabPcb.Runs

/-!
`KicadAutorouteService`: `start()` and `cancel()`, and what they wait for.

Each `start()` that is accepted is a `Call` that stops at its awaits; the fields of the service are
those of all calls. A call is known by the number of the run it created, and so is its abort
controller. A call whose body has returned or thrown goes on in `start()` itself; no timer comes
between, since what is left to run of a program runs before the next timer.

A fetch that has been aborted delivers nothing more. The session of the tab, which is `none` when
there is no bridge, stays the same. What the service has set so far, by which call, and what has
become of its jobs and calls is kept for the statements.
-/

namespace FabPcb.AutorouteService

open AutorouteEvents

/-- What has been thrown: its message, and whether it is a `RouteCancelled`. -/
structure Thrown where
  message : String
  routeCancelled : Bool
  deriving DecidableEq

/-- Where a call waits. -/
inductive Point
  /-- For the reply to the creation of the job. -/
  | posting
  /-- For the stream of the job. -/
  | fetching
  | reading
  | resyncing
  | counting
  /-- In this tab: for the zones, the input, the router, the apply, the board, the airlines and
  the count. -/
  | refilling
  | extracting
  | routing
  | applying
  | resyncingTab
  | measuring
  | countingTab
  /-- For nothing: the body has ended, and `start()` is to go on. -/
  | returned
  | thrown (e : Thrown)
  deriving DecidableEq

structure Call where
  run : ℕ
  point : Point
  /-- The job of `runOnBridge`. -/
  job : Option String := none
  deriving DecidableEq

/-- The timer that waits after a `DELETE`: the run it was for, and the controller it has. -/
structure Timer where
  target : ℕ
  abort : Option ℕ
  deriving DecidableEq

structure Service (R P F : Type) where
  run : Option (AutorouteRun R P F) := none
  abort : Option ℕ := none
  jobId : Option String := none
  seq : ℕ := 0
  calls : List Call := []
  /-- Each `DELETE` that waits for its reply, by the run it is for. -/
  cancels : List ℕ := []
  timers : List Timer := []
  /-- The controllers whose signal is aborted. -/
  aborted : List ℕ := []
  /-- The runs that have been set, and the call that set each. -/
  history : List (ℕ × AutorouteRun R P F) := []
  /-- What became of each call: the run it resolved with, or `none` if it threw. -/
  settled : List (ℕ × Option (AutorouteRun R P F)) := []
  /-- The jobs that the bridge has created, with the run each is for. -/
  created : List (ℕ × String) := []
  /-- The jobs whose stream has said that they ended. -/
  ended : List String := []
  /-- The jobs for which a `DELETE` has been sent. -/
  deleted : List String := []

section Service

variable {R P F : Type}

namespace Service

variable (s : Service R P F)

def running : Bool := s.run.any fun r => !r.state.isFinished

/-- `set`, by a call. -/
def set (owner : ℕ) (r : AutorouteRun R P F) : Service R P F :=
  { s with run := some r, history := s.history ++ [(owner, r)] }

/-- `patch`, and all else that changes the run there is. -/
def patch (owner : ℕ) (f : AutorouteRun R P F → AutorouteRun R P F) : Service R P F :=
  match s.run with
  | some r => s.set owner (f r)
  | none => s

def setState (owner : ℕ) (state : AutorouteState) : Service R P F :=
  s.patch owner fun r => { r with state := state }

def addLog (owner : ℕ) (lines : List String) : Service R P F :=
  s.patch owner fun r => { r with log := appendLog r.log lines }

/-- `feed` -/
def feed (owner : ℕ) (now : ℕ) (evs : List (SseEvent P F)) : Service R P F :=
  evs.foldl (fun s ev => s.patch owner fun r => applyBridgeEvent r ev now) s

def finished : Bool := s.run.any fun r => r.state.isFinished

end Service

/-- What a call waits for. -/
inductive Reply (P F : Type)
  | posted (job : String)
  | opened (ok : Bool)
  /-- A chunk of the stream, and what its parser has left when the stream is given up. -/
  | chunk (evs rest : List (SseEvent P F))
  | closed (rest : List (SseEvent P F))
  | resynced
  | counted (n : Option ℕ)
  | refilled
  | warned (message : String)
  | extracted (line : String)
  | progressed (p : P) (lines : List String)
  /-- Whether there is copper to apply; or why there is nothing, and the router's log. -/
  | routed (result : Except (String × List String) Bool)
  | applied
  | measured
  | summarised (summary : AutorouteSummary F)
  /-- The request, the stream or the board failed. -/
  | rejected (message : String)

section Body

variable (now : ℕ) (s : Service R P F) (c : Call)

/-- The call goes on to another await. -/
def goto (point : Point) : Option (Service R P F × Call) := some (s, { c with point := point })

def fails (message : String) (routeCancelled : Bool := false) : Option (Service R P F × Call) :=
  goto s c (.thrown ⟨message, routeCancelled⟩)

/-- `check()`, before the rest of `runInTab`. -/
def check (rest : Option (Service R P F × Call)) : Option (Service R P F × Call) :=
  if c.run ∈ s.aborted then fails s c "routing cancelled" true else rest

/-- What follows the loop over the stream. -/
def leaveStream : Option (Service R P F × Call) :=
  match s.run with
  | some r =>
    if !r.state.isFinished then
      fails s c (if c.run ∈ s.aborted then "routing cancelled"
        else "the bridge closed the job stream before the job finished")
    else if r.state = .cancelled then fails s c (r.error.getD "cancelled") true
    else if r.state = .failed then fails s c (r.error.getD "routing failed")
    else goto s c .resyncing
  | none => fails s c "the bridge closed the job stream before the job finished"

/-- The event says that the job has ended. -/
def ends (ev : SseEvent P F) : Bool :=
  match ev.data with
  | .ok data =>
    ev.event = "done" || ev.event = "error" || (data.state.map BridgeJobState.isFinished).getD false
  | .error _ => false

/-- Events of the stream of a call. -/
def receive (evs : List (SseEvent P F)) : Service R P F :=
  ({ s with ended := if evs.any ends then s.ended ++ c.job.toList else s.ended }).feed c.run now evs

/-- The body of a call, from one await to the next. -/
def react : Reply P F → Option (Service R P F × Call)
  | .posted job =>
    if c.point = .posting then
      some ({ s with jobId := some job, created := s.created ++ [(c.run, job)] },
        { c with point := .fetching, job := some job })
    else none
  | .opened ok =>
    if c.point = .fetching ∧ c.run ∉ s.aborted then
      if ok then goto s c .reading else fails s c "job stream"
    else none
  | .chunk evs rest =>
    if c.point = .reading ∧ c.run ∉ s.aborted then
      let s := receive now s c evs
      if s.finished then leaveStream (receive now s c rest) c else goto s c .reading
    else none
  | .closed rest =>
    if c.point = .reading ∧ c.run ∉ s.aborted then leaveStream (receive now s c rest) c else none
  | .resynced =>
    if c.point = .resyncing then goto s c .counting
    else if c.point = .resyncingTab then goto s c .measuring
    else none
  | .counted n =>
    if c.point = .counting then
      goto (s.patch c.run fun r =>
        { r with summary := r.summary.map fun f => { f with unroutedAfter := n } }) c .returned
    else none
  | .refilled =>
    if c.point = .refilling then check s c (goto (s.setState c.run .extracting) c .extracting)
    else none
  | .warned message =>
    if c.point = .extracting then goto (s.addLog c.run [message]) c .extracting else none
  | .extracted line =>
    if c.point = .extracting then
      let s := s.addLog c.run [line]
      check s c (goto (s.setState c.run .routing) c .routing)
    else none
  | .progressed p lines =>
    if c.point = .routing then
      goto (s.patch c.run fun r =>
        { r with progress := some p, log := appendLog r.log lines }) c .routing
    else none
  | .routed result =>
    if c.point = .routing then
      check s c (match result with
        | .error (reason, log) => fails (s.patch c.run fun r => { r with log := log }) c reason
        | .ok copper =>
          goto (s.setState c.run .applying) c (if copper then .applying else .measuring))
    else none
  | .applied => if c.point = .applying then goto s c .resyncingTab else none
  | .measured => if c.point = .measuring then goto s c .countingTab else none
  | .summarised summary =>
    if c.point = .countingTab then
      goto (s.patch c.run fun r =>
        { r with
          state := .done
          finishedAt := some now
          summary := some summary
          log := summary.log.getD r.log }) c .returned
    else none
  | .rejected message =>
    if c.point ∈ [.posting, .fetching, .reading, .resyncing, .refilling, .extracting, .routing,
        .applying, .resyncingTab] then fails s c message
    else none

end Body

/-! ### The service -/

inductive Event (R P F : Type)
  | start (request : AutorouteRequest R) (board : Bool) (now : ℕ)
  | reply (run now : ℕ) (r : Reply P F)
  /-- What is left of `start()`. -/
  | settle (run now : ℕ)
  | cancel
  | deleteReply (i : ℕ)
  | timer (i : ℕ)

/-- `start()` up to its first await: where its call waits, and the run at that point. -/
def body (bridge : Bool) (request : AutorouteRequest R) : Point × AutorouteState :=
  if request.router = .jsTab then
    if request.refillZones then (.refilling, .filling) else (.extracting, .extracting)
  else if bridge then (.posting, .starting)
  else
    (.thrown ⟨"routing on the server needs the bridge (this tab talks to KiCad directly)", false⟩,
      .starting)

def start (bridge : Bool) (s : Service R P F) (request : AutorouteRequest R) (now : ℕ) :
    Service R P F :=
  let n := s.seq + 1
  let run : AutorouteRun R P F := { id := n, request, state := .starting, startedAt := now }
  let s := { s.set n run with seq := n, abort := some n }
  let at' := body bridge request
  let s := if at'.2 = .starting then s else s.setState n at'.2
  { s with calls := s.calls ++ [{ run := n, point := at'.1 }] }

/-- The `finally` of `start()`. -/
def leave (s : Service R P F) (c : Call) (result : Option (AutorouteRun R P F)) : Service R P F :=
  { s with
    abort := none
    jobId := none
    calls := s.calls.filter (·.run ≠ c.run)
    settled := s.settled ++ [(c.run, result)] }

/-- The `catch` of `start()`. -/
def caught (s : Service R P F) (c : Call) (now : ℕ) (e : Thrown) (abort : ℕ) : Service R P F :=
  let cancelled := abort ∈ s.aborted ∨ e.routeCancelled
  s.patch c.run fun r =>
    { r with
      state := if cancelled then .cancelled else .failed
      finishedAt := some now
      error := some (if cancelled then
        if e.message = "routing cancelled" then "cancelled" else "cancelled: " ++ e.message
        else e.message) }

def settle (s : Service R P F) (c : Call) (now : ℕ) : Option (Service R P F) :=
  match c.point with
  | .returned => some (leave s c s.run)
  | .thrown e =>
    match s.abort with
    | some abort =>
      let s := caught s c now e abort
      some (leave s c s.run)
    -- There is no controller whose signal could be looked at.
    | none => some (leave s c none)
  | _ => none

def cancel (s : Service R P F) : Service R P F :=
  if s.running then
    match s.jobId with
    | some job =>
      { s with
        cancels := s.cancels ++ (s.run.map (·.id)).toList
        deleted := s.deleted ++ [job] }
    | none => { s with aborted := s.aborted ++ s.abort.toList }
  else s

/-- The timer aborts the run whose controller it has. -/
def fires (s : Service R P F) (t : Timer) : Bool :=
  t.abort.any fun a => decide (a ∉ s.aborted ∧ s.abort = some a)

def Call.ended (c : Call) : Bool :=
  match c.point with
  | .returned | .thrown _ => true
  | _ => false

def step (bridge : Bool) (s : Service R P F) : Event R P F → Option (Service R P F)
  | .start request board now =>
    if s.running || !board then some s else some (start bridge s request now)
  | .reply run now r =>
    (s.calls.find? (·.run = run)).bind fun c =>
      (react now s c r).map fun next =>
        { next.1 with calls := next.1.calls.map fun d => if d.run = run then next.2 else d }
  | .settle run now => (s.calls.find? (·.run = run)).bind fun c => settle s c now
  | .cancel => some (cancel s)
  | .deleteReply i =>
    s.cancels[i]?.map fun target =>
      { s with cancels := s.cancels.eraseIdx i, timers := s.timers ++ [⟨target, s.abort⟩] }
  | .timer i =>
    if s.calls.any Call.ended then none
    else
      s.timers[i]?.map fun t =>
        { s with
          timers := s.timers.eraseIdx i
          aborted := if fires s t then s.aborted ++ t.abort.toList else s.aborted }

end Service

end FabPcb.AutorouteService
