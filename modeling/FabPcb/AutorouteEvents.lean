import Mathlib.Data.List.Basic

/-!
`autoroute-run.ts`: the run of an autorouter as the web app shows it, and how the events of a
bridge job are folded into it.

What a request asks for besides the router, what progress is and the figures of a summary are of
types `R`, `P` and `F`. An event whose text is no JSON has no data.
-/

namespace FabPcb.AutorouteEvents

inductive AutorouterChoice | jsTab | fabRouter | freerouting
  deriving DecidableEq

def AutorouterChoice.name : AutorouterChoice → String
  | .jsTab => "js-tab"
  | .fabRouter => "fab-router"
  | .freerouting => "freerouting"

structure AutorouteRequest (R : Type) where
  router : AutorouterChoice
  options : R
  refillZones : Bool := true
  deriving DecidableEq

inductive AutorouteState
  | starting | filling | saving | extracting | routing | applying | done | failed | cancelled
  deriving DecidableEq

structure AutorouteSummary (F : Type) where
  router : String
  /-- The commit message; empty when nothing was applied. -/
  message : String
  figures : F
  unroutedAfter : Option ℕ := none
  log : Option (List String)
  deriving DecidableEq

structure AutorouteRun (R P F : Type) where
  id : ℕ
  request : AutorouteRequest R
  state : AutorouteState
  startedAt : ℕ
  finishedAt : Option ℕ := none
  progress : Option P := none
  log : List String := []
  summary : Option (AutorouteSummary F) := none
  error : Option String := none
  deriving DecidableEq

/-! ### What the bridge sends -/

inductive BridgeJobState
  | queued | saving | filling | extracting | routing | applying | done | failed | cancelled
  deriving DecidableEq

structure BridgeSummary (F : Type) where
  message : String
  figures : F
  log : Option (List String)

/-- `RouteJobInfo` as the bridge streams it, every field optional. -/
structure BridgeRouteJobInfo (P F : Type) where
  router : Option String := none
  state : Option BridgeJobState := none
  progress : Option P := none
  log : Option (List String) := none
  summary : Option (BridgeSummary F) := none
  error : Option String := none

structure SseEvent (P F : Type) where
  event : String
  /-- The text, for what is no JSON. -/
  data : Except String (BridgeRouteJobInfo P F)

def logTail : ℕ := 60

def appendLog (log lines : List String) : List String :=
  let next := log ++ lines
  next.drop (next.length - logTail)

def bridgeState : BridgeJobState → AutorouteState
  | .queued => .starting
  | .saving => .saving
  | .filling => .filling
  | .extracting => .extracting
  | .routing => .routing
  | .applying => .applying
  | .done => .done
  | .failed => .failed
  | .cancelled => .cancelled

def AutorouteState.isFinished : AutorouteState → Bool
  | .done | .failed | .cancelled => true
  | _ => false

def BridgeJobState.isFinished (s : BridgeJobState) : Bool := (bridgeState s).isFinished

section Fold

variable {R P F : Type}

/-- The summary of a job, under the name of its router. -/
def summaryOf (router : String) (s : BridgeSummary F) : AutorouteSummary F where
  router := router
  message := s.message
  figures := s.figures
  log := s.log

/-- Folds one bridge SSE event into the run. -/
def applyBridgeEvent (run : AutorouteRun R P F) (ev : SseEvent P F) (now : ℕ) :
    AutorouteRun R P F :=
  match ev.data with
  | .error text =>
    { run with log := appendLog run.log ["unreadable event from the bridge: " ++ text.take 120] }
  | .ok data =>
    let state := (data.state.map bridgeState).getD run.state
    let log := data.log.getD run.log
    let progress := data.progress <|> run.progress
    if ev.event = "done" then
      { run with
        state := .done
        finishedAt := some now
        progress := progress
        log := (data.summary.bind (·.log)).getD log
        summary :=
          (data.summary.map (summaryOf ((data.router <|> run.summary.map (·.router)).getD
            run.request.router.name))) <|> run.summary }
    else if ev.event = "error" then
      { run with
        state := if state = .cancelled then .cancelled else .failed
        finishedAt := some now
        error := some (data.error.getD "routing failed")
        log := log }
    else
      let next := { run with state := state, log := log, progress := progress }
      if ev.event = "state" ∧ (data.state.map BridgeJobState.isFinished).getD false then
        { next with
          finishedAt := some now
          summary :=
            (data.summary.map (summaryOf (data.router.getD run.request.router.name))) <|>
              run.summary
          error := data.error.filter (· ≠ "") <|> run.error
          log := (data.summary.bind (·.log)).getD log }
      else next

/-- The run after some events, and each run on the way. -/
def applyEvents (run : AutorouteRun R P F) (now : ℕ) :
    List (SseEvent P F) → List (AutorouteRun R P F)
  | [] => []
  | ev :: evs =>
    applyBridgeEvent run ev now :: applyEvents (applyBridgeEvent run ev now) now evs

lemma applyBridgeEvent_id (run : AutorouteRun R P F) (ev : SseEvent P F) (now : ℕ) :
    (applyBridgeEvent run ev now).id = run.id ∧
      (applyBridgeEvent run ev now).request = run.request := by
  rw [applyBridgeEvent]
  cases ev.data with
  | error text => exact ⟨rfl, rfl⟩
  | ok data =>
    dsimp only
    split_ifs <;> exact ⟨rfl, rfl⟩

end Fold

end FabPcb.AutorouteEvents
