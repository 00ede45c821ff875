import FabPcb.Runs
import Mathlib.Data.List.Basic

/-!
The states of a bridge session, process-backed or worker-backed.

`start` writes the state when its ping is answered and, through `fail`, when it could not spawn
and after the `stop` its failure handler awaits; the exit handler, the worker's crash and a
worker session's `stop` write it too. Between any two awaits anything else can happen: a reply
already received reaches `start` even after the transport was closed, and `stop` may be called
before there is a process to stop.
-/

namespace FabPcb.SessionState

open Runs

inductive SessionBackend | process | wasm
  deriving DecidableEq, Repr

inductive KiCadServerState | starting | running | exited | failed
  deriving DecidableEq, Repr

/-- The await `start` is at. -/
inductive StartPc
  | idle
  | mkdir
  | rm
  | waitForSocket
  | transportReady
  | awaitRunning
  | ping
  | startEvents
  /-- The failure handler, awaiting its own call of `stop`. -/
  | stopping (call : ℕ)
  | resolved
  | rejected
  deriving DecidableEq, Repr

/-- The await a call of `stop` is at; a process session's call remembers whether there was a
process when it began. -/
inductive StopPc
  | stopEvents (proc : Bool)
  | transportClose (proc : Bool)
  | procExited
  | rm
  | workerExited
  | wasmClose
  | resolved
  | rejected
  deriving DecidableEq, Repr

/-- Whose callback `onWorkerState` is. -/
inductive WorkerSlot | none | awaitRunning | stop
  deriving DecidableEq, Repr

structure Session where
  backend : SessionBackend
  /-- The socket path is a `ws://` URL. -/
  websocket : Bool
  state : KiCadServerState
  stopping : Bool
  /-- `readyAt` is set. -/
  ready : Bool
  /-- `proc`, or `worker`, is not null. -/
  held : Bool
  /-- The process or the worker's thread is there. -/
  alive : Bool
  /-- `onExit` has run. -/
  exitSeen : Bool
  onWorkerState : WorkerSlot
  start : StartPc
  /-- The calls of `stop`, in order. -/
  stops : List StopPc
  /-- WebSocket clients and event listeners attached. -/
  attached : ℕ
  lastClientAt : ℕ
  deriving DecidableEq, Repr

namespace Session

/-- The constructors of both classes. -/
def new (backend : SessionBackend) (websocket : Bool) (now : ℕ) : Session where
  backend := backend
  websocket := websocket
  state := .starting
  stopping := false
  ready := false
  held := false
  alive := false
  exitSeen := false
  onWorkerState := .none
  start := .idle
  stops := []
  attached := 0
  lastClientAt := now

def idle (s : Session) : Bool := s.attached = 0

/-- `fail("failed", …)` and the throw after it. -/
def fail (s : Session) : Session := { s with state := .failed, start := .rejected }

/-- `stop()` up to its first await. -/
def stop (s : Session) : Session :=
  match s.backend with
  | .process => { s with stopping := true, stops := s.stops ++ [.stopEvents s.held] }
  | .wasm =>
    if s.held then
      { s with
        stopping := true, held := false, onWorkerState := .stop,
        stops := s.stops ++ [.workerExited] }
    else { s with stopping := true, stops := s.stops ++ [.wasmClose] }

/-- The failure handler of `start` up to its await. -/
def catchStart (s : Session) : Session := { s.stop with start := .stopping s.stops.length }

/-- `Bun.spawn` or `new Worker`, and what follows up to the next await. -/
def spawn (s : Session) (spawns : Bool) : Session :=
  if spawns then
    match s.backend with
    | .process =>
      { s with
        held := true, alive := true,
        start := if s.websocket then .transportReady else .waitForSocket }
    | .wasm =>
      { s with held := true, alive := true, onWorkerState := .awaitRunning, start := .awaitRunning }
  else s.fail

/-- `start()` up to its first await. -/
def begin (s : Session) (spawns : Bool) : Session :=
  if s.backend = .process ∧ s.websocket = false then { s with start := .mkdir }
  else s.spawn spawns

/-- The await of `start` is fulfilled; `spawns` says how a spawn it comes to ends. -/
def startFulfilled (s : Session) (spawns : Bool) : Option Session :=
  match s.start with
  | .mkdir => some { s with start := .rm }
  | .rm => some (s.spawn spawns)
  | .waitForSocket => some { s with start := .transportReady }
  | .transportReady => some { s with start := .ping }
  | .awaitRunning =>
    -- the worker's report reaches `awaitRunning` only while the callback is its own
    if s.onWorkerState = .awaitRunning then some { s with onWorkerState := .none, start := .ping }
    else none
  | .ping =>
    if s.state ≠ .starting then some s.catchStart
    else
      some { s with
        state := .running, ready := true,
        start := match s.backend with
          | .process => .startEvents
          | .wasm => .resolved }
  | .startEvents => some { s with start := .resolved }
  | .stopping call => if s.stops[call]? = some .resolved then some s.fail else none
  | .idle | .resolved | .rejected => none

/-- The await of `start` throws. -/
def startRejected (s : Session) : Option Session :=
  match s.start with
  | .mkdir | .rm => some { s with start := .rejected }
  | .waitForSocket | .transportReady | .ping => some s.catchStart
  -- the deadline clears the callback whosever it is
  | .awaitRunning => some (catchStart { s with onWorkerState := .none })
  -- past its guard, a malformed events URL makes the subscriber's constructor throw
  | .startEvents => if s.state = .running ∧ s.stopping = false then some s.catchStart else none
  | .stopping call =>
    if s.stops[call]? = some .rejected then some { s with start := .rejected } else none
  | .idle | .resolved | .rejected => none

/-- The end of `stop`: the clients and listeners are let go. -/
def stopResolved (s : Session) (call : ℕ) : Session :=
  { s with stops := s.stops.set call .resolved, attached := 0 }

/-- The state a worker session's `stop` leaves. -/
def exitUnlessFailed (s : Session) : Session :=
  if s.state = .running ∨ s.state = .starting then { s with state := .exited } else s

/-- What follows a process session's wait for the process. -/
def stopRm (s : Session) (call : ℕ) : Session :=
  if s.websocket then s.stopResolved call else { s with stops := s.stops.set call .rm }

/-- The await of a call of `stop` is fulfilled. -/
def stopFulfilled (s : Session) (call : ℕ) : Option Session :=
  match s.stops[call]? with
  | some (.stopEvents proc) => some { s with stops := s.stops.set call (.transportClose proc) }
  | some (.transportClose proc) =>
    if proc && s.alive then some { s with stops := s.stops.set call .procExited }
    else some (s.stopRm call)
  | some .procExited =>
    -- `onExit` waits for the same promise and was there first
    if s.alive = false ∧ s.exitSeen then some (s.stopRm call) else none
  | some .rm => some (s.stopResolved call)
  | some .workerExited =>
    some { s with
      onWorkerState := .none, alive := false, stops := s.stops.set call .wasmClose }
  | some .wasmClose =>
    some (s.exitUnlessFailed.stopResolved call)
  | _ => none

/-- The await of a process session's call of `stop` throws. -/
def stopRejected (s : Session) (call : ℕ) : Option Session :=
  match s.stops[call]? with
  | some (.stopEvents _) | some (.transportClose _) | some .rm =>
    some { s with stops := s.stops.set call .rejected }
  | _ => none

/-- The process exits, killed or not, or the worker's thread ends by itself. -/
def die (s : Session) : Option Session := if s.alive then some { s with alive := false } else none

/-- The state the exit handler leaves; `clean` is an exit code of zero. -/
def exitState (s : Session) (clean : Bool) : KiCadServerState :=
  match s.state with
  | .starting => .failed
  | .running => if s.stopping then .exited else if clean then .exited else .failed
  | .exited => .exited
  | .failed => .failed

def onExit (s : Session) (clean : Bool) : Option Session :=
  if s.backend = .process ∧ s.held ∧ s.alive = false ∧ s.exitSeen = false then
    some { s with exitSeen := true, state := s.exitState clean }
  else none

/-- A request to the worker timed out, or the running worker failed. -/
def crash (s : Session) : Option Session :=
  if s.backend = .wasm ∧ s.start ≠ .idle then
    if s.state = .failed ∨ s.stopping then some s
    else some { s with held := false, alive := !s.held && s.alive, state := .failed }
  else none

end Session

/-- What happens in a session that nobody calls. -/
inductive Event
  | startFulfilled (spawns : Bool)
  | startRejected
  | stopFulfilled (call : ℕ)
  | stopRejected (call : ℕ)
  | die
  | onExit (clean : Bool)
  | crash
  /-- A client or a listener comes or goes, leaving `attached` of them. -/
  | touch (attached now : ℕ)
  deriving DecidableEq, Repr

def Session.event (s : Session) : Event → Option Session
  | .startFulfilled spawns => s.startFulfilled spawns
  | .startRejected => s.startRejected
  | .stopFulfilled call => s.stopFulfilled call
  | .stopRejected call => s.stopRejected call
  | .die => s.die
  | .onExit clean => s.onExit clean
  | .crash => s.crash
  | .touch attached now => some { s with attached := attached, lastClientAt := now }

inductive Action
  | start (spawns : Bool)
  | stop
  | event (e : Event)
  deriving DecidableEq, Repr

def step (s : Session) : Action → Option Session
  | .start spawns => if s.start = .idle then some (s.begin spawns) else none
  | .stop => some s.stop
  | .event e => s.event e

/-! ### Moves of the state -/

/-- `starting → running → exited or failed`, or `starting → exited or failed`. -/
def Moves : KiCadServerState → KiCadServerState → Prop
  | .starting, _ => True
  | .running, t => t ≠ .starting
  | .exited, t => t = .exited
  | .failed, t => t = .failed

instance decidableMoves (t t' : KiCadServerState) : Decidable (Moves t t') :=
  match t with
  | .starting => isTrue trivial
  | .running => inferInstanceAs (Decidable (t' ≠ .starting))
  | .exited => inferInstanceAs (Decidable (t' = .exited))
  | .failed => inferInstanceAs (Decidable (t' = .failed))

def KiCadServerState.Ended (t : KiCadServerState) : Prop := t = .exited ∨ t = .failed

/-- What a run does to the state: it moves along its order, an ended one stays, and it becomes
running only before any call of `stop`. -/
structure StatesLawful (s : Session) (as : List Action) (s' : Session) : Prop where
  moves : ∀ x ∈ steps step s as, Moves x.1.state x.2.2.state
  ended : ∀ bs cs t, as = bs ++ cs → run step s bs = some t → t.state.Ended →
    s'.state = t.state
  running : ∀ x ∈ steps step s as, x.1.state ≠ .running → x.2.2.state = .running →
    x.1.stops = []

/-- The steps that write the state without asking whether they may: a ping answered after
`stop` was called, and `fail` in a session that has exited. -/
def unasked (s : Session) : Action → Bool
  | .start spawns => !spawns && s.state = .exited
  | .event (.startFulfilled spawns) =>
    match s.start with
    | .rm => !spawns && s.state = .exited
    | .ping => s.state = .starting && s.stopping
    | .stopping _ => s.state = .exited
    | _ => false
  | _ => false

/-- What holds of a session between its steps. -/
structure Inv (s : Session) : Prop where
  stops : s.stopping = false → s.stops = []
  exited : s.backend = .wasm → s.state = .exited → s.stopping = true

/-- What one step does. -/
structure Lawful (s s' : Session) : Prop where
  inv : Inv s'
  moves : Moves s.state s'.state
  running : s.state ≠ .running → s'.state = .running → s.stopping = false

variable {s s' : Session} {a : Action} {spawns clean : Bool} {call : ℕ}

/-! ### What the parts of a step leave alone -/

lemma stop_cases : s.stop = { s with stopping := true, stops := s.stop.stops } ∨
    s.stop = { s with
      stopping := true, held := false, onWorkerState := .stop, stops := s.stop.stops } := by
  unfold Session.stop
  split
  · exact .inl rfl
  · split
    · exact .inr rfl
    · exact .inl rfl

@[simp] lemma stop_state : s.stop.state = s.state := by
  rcases stop_cases (s := s) with h | h <;> rw [h]

@[simp] lemma stop_start : s.stop.start = s.start := by
  rcases stop_cases (s := s) with h | h <;> rw [h]

@[simp] lemma stop_stopping : s.stop.stopping = true := by
  rcases stop_cases (s := s) with h | h <;> rw [h]

lemma stopRm_eq (s : Session) (call : ℕ) : ∃ n, s.stopRm call = { s with
    stops := s.stops.set call (if s.websocket then .resolved else .rm), attached := n } := by
  unfold Session.stopRm Session.stopResolved
  split
  · exact ⟨_, rfl⟩
  · exact ⟨_, rfl⟩

/-! ### The invariant -/

lemma Moves.refl (t : KiCadServerState) : Moves t t := by
  cases t <;> simp [Moves]

lemma Lawful.of_state_eq (h : s'.state = s.state) (inv : Inv s') : Lawful s s' :=
  ⟨inv, h ▸ Moves.refl _, fun hne hr => absurd (h ▸ hr) hne⟩

lemma inv_new (backend : SessionBackend) (websocket : Bool) (now : ℕ) :
    Inv (.new backend websocket now) where
  stops _ := rfl
  exited _ he := by cases he

lemma inv_of_stopping (hstopping : s.stopping = true) : Inv s where
  stops hf := by rw [hstopping] at hf; cases hf
  exited _ _ := hstopping

lemma lawful_stop : Lawful s s.stop := .of_state_eq stop_state (inv_of_stopping stop_stopping)

lemma inv_catchStart : Inv s.catchStart := inv_of_stopping stop_stopping

lemma lawful_catchStart : Lawful s s.catchStart := .of_state_eq stop_state inv_catchStart

lemma Inv.fail (h : Inv s) : Inv s.fail where
  stops := h.stops
  exited _ hs := by cases hs

lemma lawful_fail (h : Inv s) (hs : s.state ≠ .exited) : Lawful s s.fail where
  inv := h.fail
  moves := by
    cases hstate : s.state with
    | starting => trivial
    | running => exact fun hc => KiCadServerState.noConfusion hc
    | exited => exact absurd hstate hs
    | failed => rfl
  running _ hr := by cases hr

lemma Inv.of_eq (h : Inv s) (hb : s'.backend = s.backend) (hstate : s'.state = s.state)
    (hstopping : s'.stopping = s.stopping) (hstops : s'.stops = s.stops) : Inv s' where
  stops hf := hstops.trans (h.stops (hstopping.symm.trans hf))
  exited hw he := hstopping.trans (h.exited (hb.symm.trans hw) (hstate.symm.trans he))

lemma lawful_of_eq (h : Inv s) (hb : s'.backend = s.backend) (hstate : s'.state = s.state)
    (hstopping : s'.stopping = s.stopping) (hstops : s'.stops = s.stops) : Lawful s s' :=
  .of_state_eq hstate (h.of_eq hb hstate hstopping hstops)

lemma lawful_spawn (h : Inv s) (hs : spawns = false → s.state ≠ .exited) :
    Lawful s (s.spawn spawns) := by
  cases spawns with
  | false => exact lawful_fail h (hs rfl)
  | true =>
    refine lawful_of_eq h ?_ ?_ ?_ ?_ <;> cases hb : s.backend <;> simp [Session.spawn, hb]

lemma lawful_begin (h : Inv s)
    (hs : unasked s (.start spawns) = false) : Lawful s (s.begin spawns) := by
  unfold Session.begin
  split
  · exact lawful_of_eq h rfl rfl rfl rfl
  · refine lawful_spawn h fun hf he => ?_
    simp [unasked, hf, he] at hs

lemma lawful_startFulfilled (h : Inv s)
    (hs : unasked s (.event (.startFulfilled spawns)) = false)
    (hstep : s.startFulfilled spawns = some s') : Lawful s s' := by
  unfold Session.startFulfilled at hstep
  cases hstart : s.start with
  | rm =>
    rw [hstart] at hstep
    cases hstep
    refine lawful_spawn h fun hf he => ?_
    simp [unasked, hstart, hf, he] at hs
  | mkdir | waitForSocket | transportReady | startEvents =>
    rw [hstart] at hstep
    cases hstep
    exact lawful_of_eq h rfl rfl rfl rfl
  | awaitRunning =>
    simp only [hstart] at hstep
    split at hstep
    · cases hstep
      exact lawful_of_eq h rfl rfl rfl rfl
    · cases hstep
  | ping =>
    simp only [hstart] at hstep
    split at hstep
    · cases hstep
      exact lawful_catchStart
    · rename_i hstarting
      have hstate : s.state = .starting := not_not.mp hstarting
      have hstop : s.stopping = false := by
        simpa [unasked, hstart, hstate] using hs
      cases hstep
      refine ⟨⟨h.stops, fun _ he => ?_⟩, ?_, fun _ _ => hstop⟩
      · cases he
      · rw [hstate]; trivial
  | stopping k =>
    simp only [hstart] at hstep
    split at hstep
    · cases hstep
      refine lawful_fail h fun he => ?_
      simp [unasked, hstart, he] at hs
    · cases hstep
  | idle | resolved | rejected =>
    rw [hstart] at hstep
    cases hstep

lemma lawful_startRejected (h : Inv s) (hstep : s.startRejected = some s') : Lawful s s' := by
  unfold Session.startRejected at hstep
  cases hstart : s.start with
  | mkdir | rm =>
    rw [hstart] at hstep
    cases hstep
    exact lawful_of_eq h rfl rfl rfl rfl
  | waitForSocket | transportReady | ping =>
    rw [hstart] at hstep
    cases hstep
    exact lawful_catchStart
  | awaitRunning =>
    rw [hstart] at hstep
    cases hstep
    exact .of_state_eq stop_state inv_catchStart
  | startEvents =>
    simp only [hstart] at hstep
    split at hstep
    · cases hstep
      exact lawful_catchStart
    · cases hstep
  | stopping k =>
    simp only [hstart] at hstep
    split at hstep
    · cases hstep
      exact lawful_of_eq h rfl rfl rfl rfl
    · cases hstep
  | idle | resolved | rejected =>
    rw [hstart] at hstep
    cases hstep

lemma Inv.stopping_of_call (h : Inv s) {pc : StopPc} (hcall : s.stops[call]? = some pc) :
    s.stopping = true := by
  cases hf : s.stopping with
  | true => rfl
  | false =>
    rw [h.stops hf] at hcall
    cases hcall

lemma lawful_stopFulfilled (h : Inv s) (hstep : s.stopFulfilled call = some s') :
    Lawful s s' := by
  unfold Session.stopFulfilled at hstep
  cases hcall : s.stops[call]? with
  | none => rw [hcall] at hstep; cases hstep
  | some pc =>
    have hstopping := h.stopping_of_call hcall
    have hrm : Lawful s (s.stopRm call) := by
      obtain ⟨n, heq⟩ := stopRm_eq s call
      rw [heq]
      exact .of_state_eq rfl (inv_of_stopping hstopping)
    cases pc with
    | stopEvents proc | rm | workerExited =>
      rw [hcall] at hstep
      cases hstep
      exact .of_state_eq rfl (inv_of_stopping hstopping)
    | transportClose proc =>
      simp only [hcall] at hstep
      split at hstep
      · cases hstep
        exact .of_state_eq rfl (inv_of_stopping hstopping)
      · cases hstep
        exact hrm
    | procExited =>
      simp only [hcall] at hstep
      split at hstep
      · cases hstep
        exact hrm
      · cases hstep
    | wasmClose =>
      simp only [hcall, Session.exitUnlessFailed] at hstep
      split at hstep
      · rename_i hrunning
        cases hstep
        refine ⟨inv_of_stopping hstopping, ?_, fun _ hr => ?_⟩
        · rcases hrunning with hr | hr <;> rw [hr]
          · exact fun hc => KiCadServerState.noConfusion hc
          · trivial
        · cases hr
      · cases hstep
        exact .of_state_eq rfl (inv_of_stopping hstopping)
    | resolved | rejected =>
      rw [hcall] at hstep
      cases hstep

lemma lawful_stopRejected (h : Inv s) (hstep : s.stopRejected call = some s') :
    Lawful s s' := by
  unfold Session.stopRejected at hstep
  split at hstep
  · rename_i hcall
    cases hstep
    exact .of_state_eq rfl (inv_of_stopping (h.stopping_of_call hcall))
  · rename_i hcall
    cases hstep
    exact .of_state_eq rfl (inv_of_stopping (h.stopping_of_call hcall))
  · rename_i hcall
    cases hstep
    exact .of_state_eq rfl (inv_of_stopping (h.stopping_of_call hcall))
  · cases hstep

lemma lawful_onExit (h : Inv s) (hstep : s.onExit clean = some s') : Lawful s s' := by
  unfold Session.onExit at hstep
  split at hstep
  · rename_i hproc
    cases hstep
    refine ⟨⟨h.stops, fun hw _ => ?_⟩, ?_, fun hne hr => ?_⟩
    · rw [hproc.1] at hw; cases hw
    · cases hstate : s.state <;> simp only [Session.exitState, hstate, Moves]
      split
      · exact fun hc => KiCadServerState.noConfusion hc
      · split <;> exact fun hc => KiCadServerState.noConfusion hc
    · cases hstate : s.state <;> simp only [Session.exitState, hstate] at hr hne
      · cases hr
      · exact absurd rfl hne
      · cases hr
      · cases hr
  · cases hstep

lemma lawful_crash (h : Inv s) (hstep : s.crash = some s') : Lawful s s' := by
  unfold Session.crash at hstep
  split at hstep
  · rename_i hwasm
    split at hstep
    · cases hstep
      exact lawful_of_eq h rfl rfl rfl rfl
    · rename_i hgo
      rw [not_or] at hgo
      cases hstep
      refine ⟨⟨h.stops, fun _ he => ?_⟩, ?_, fun _ hr => ?_⟩
      · cases he
      · cases hstate : s.state with
        | starting => trivial
        | running => exact fun hc => KiCadServerState.noConfusion hc
        | exited => exact absurd (h.exited hwasm.1 hstate) hgo.2
        | failed => rfl
      · cases hr
  · cases hstep

/-- **A step**: the invariant is kept, the state moves along its order, and it becomes running
only where `stop` was not called. -/
theorem lawful_step (h : Inv s) (hs : unasked s a = false) (hstep : step s a = some s') :
    Lawful s s' := by
  cases a with
  | start spawns =>
    simp only [step] at hstep
    split at hstep
    · cases hstep
      exact lawful_begin h hs
    · cases hstep
  | stop =>
    cases hstep
    exact lawful_stop
  | event e =>
    cases e with
    | startFulfilled spawns => exact lawful_startFulfilled h hs hstep
    | startRejected => exact lawful_startRejected h hstep
    | stopFulfilled call => exact lawful_stopFulfilled h hstep
    | stopRejected call => exact lawful_stopRejected h hstep
    | die =>
      simp only [step, Session.event, Session.die] at hstep
      split at hstep
      · cases hstep
        exact lawful_of_eq h rfl rfl rfl rfl
      · cases hstep
    | onExit clean => exact lawful_onExit h hstep
    | crash => exact lawful_crash h hstep
    | touch attached now =>
      cases hstep
      exact lawful_of_eq h rfl rfl rfl rfl

lemma Moves.ended {t t' : KiCadServerState} (h : Moves t t') (ht : t.Ended) : t' = t := by
  rcases ht with rfl | rfl <;> exact h

/-- **The states of a session**, process or worker, whatever the order of its start, its stops,
exits and crashes: as long as no ping is answered after a call of `stop` and nothing fails that
has exited, the state moves along its order, an ended one stays, and it becomes running only
before any call of `stop`. -/
theorem session_states (backend : SessionBackend) (websocket : Bool) (now : ℕ)
    (as : List Action)
    (hok : Along step (fun s a => unasked s a = false) (.new backend websocket now) as)
    (hrun : run step (.new backend websocket now) as = some s) :
    StatesLawful (.new backend websocket now) as s := by
  have hkeep : ∀ s a s', Inv s → unasked s a = false → step s a = some s' → Inv s' :=
    fun s a s' hi ha hstep => (lawful_step hi ha hstep).inv
  have hnew := inv_new backend websocket now
  refine ⟨fun x hx => ?_, fun bs cs t heq hbs hended => ?_, fun x hx hne hr => ?_⟩
  · obtain ⟨hi, ha, hstep⟩ := steps_along Inv hkeep hnew hok x hx
    exact (lawful_step hi ha hstep).moves
  · subst heq
    obtain ⟨hok₁, hok₂⟩ := along_append hok
    obtain ⟨t', ht', hcs⟩ := run_append_eq_some.mp hrun
    obtain rfl : t' = t := Option.some.inj (ht'.symm.trans hbs)
    have ht := invariant_along Inv hkeep hnew hok₁ hbs
    have hinv := invariant_along (fun u => Inv u ∧ u.state = t'.state)
      (fun u a u' hu ha hstep => by
        have hlaw := lawful_step hu.1 ha hstep
        refine ⟨hlaw.inv, (hlaw.moves.ended ?_).trans hu.2⟩
        rw [hu.2]
        exact hended)
      ⟨ht, rfl⟩ (hok₂ t' hbs) hcs
    exact hinv.2
  · obtain ⟨hi, ha, hstep⟩ := steps_along Inv hkeep hnew hok x hx
    exact hi.stops ((lawful_step hi ha hstep).running hne hr)

/-- A process session that comes up, is stopped and exits. -/
def upAndDown : List Action :=
  [.start true, .event (.startFulfilled true), .event (.startFulfilled true),
    .event (.startFulfilled true), .event (.startFulfilled true), .event (.startFulfilled true),
    .event (.startFulfilled true), .stop, .event (.stopFulfilled 0), .event (.stopFulfilled 0),
    .event .die, .event (.onExit false), .event (.stopFulfilled 0), .event (.stopFulfilled 0)]

theorem session_states_upAndDown : ∃ s, s.state = .exited ∧
    run step (.new .process false 0) upAndDown = some s ∧
    StatesLawful (.new .process false 0) upAndDown s :=
  ⟨_, rfl, rfl, session_states .process false 0 upAndDown (by decide) rfl⟩

/-- The module does not load: the failure handler's `stop` ends the session, `fail` follows. -/
def loadFailure : List Action :=
  [.start true, .event .startRejected, .event (.stopFulfilled 0), .event (.stopFulfilled 0),
    .event (.startFulfilled true)]

/-- `stop` is called and done while the socket directory is being made. -/
def stoppedEarly : List Action :=
  [.start true, .stop, .event (.stopFulfilled 0), .event (.stopFulfilled 0),
    .event (.stopFulfilled 0), .event (.startFulfilled true), .event (.startFulfilled true),
    .event (.startFulfilled true), .event (.startFulfilled true), .event (.startFulfilled true)]

/-- **Two slips**: an exited worker session turns failed, and a stopped process session becomes
running. -/
theorem states_unlawful :
    (∃ s, run step (.new .wasm false 0) loadFailure = some s ∧
      ¬ StatesLawful (.new .wasm false 0) loadFailure s) ∧
    ∃ s, run step (.new .process false 0) stoppedEarly = some s ∧
      ¬ StatesLawful (.new .process false 0) stoppedEarly s :=
  ⟨⟨_, rfl, fun h => absurd h.moves (by decide)⟩,
    ⟨_, rfl, fun h => absurd h.running (by decide)⟩⟩

end FabPcb.SessionState
