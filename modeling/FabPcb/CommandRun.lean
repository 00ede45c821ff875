import FabPcb.Runs
import FabPcb.OrderedMap
import FabPcb.SessionLock

/-!
`CommandServiceImpl` over `KicadCommitBackend`: transactions that commit or drop, `undo()` and
`redo()`, on any stores, in any order of their awaits.

Every stretch between two awaits is a step. KiCad's answers are part of the step that receives
them, and of `apply` only its outcome is kept: what it sends goes to the commit it found.
-/

namespace FabPcb.CommandRun

open OrderedMap Runs SessionLock

/-- A pair of op lists that `undo()` and `redo()` replay. -/
structure HistoryEntry (O : Type*) where
  id : ℕ
  message : String
  storeKey : String
  forward : List O
  inverse : List O
  deriving DecidableEq

/-- What a process is: the `commit()` or `drop()` of a transaction, or an `undo()` or `redo()`
with the entry it popped. -/
inductive Job (O : Type*) where
  | tx (message : String) (forward inverse : List O)
  | undo (entry : HistoryEntry O)
  | redo (entry : HistoryEntry O)

/-- Where a process stands. -/
inductive Pc (O : Type*) where
  /-- In `begin`: behind `await previous`, then behind `BeginCommit`. -/
  | waiting
  | beginning
  | begun
  /-- In `apply`, on the commit that `m` opened. -/
  | applying (m : ℕ)
  | applied (canonical : List O)
  /-- In `end`, with the commit that `m` opened. -/
  | pushing (m : ℕ) (canonical : List O)
  | pushed (canonical : List O)
  | dropping (m : ℕ) (caught : Bool)
  /-- An await has rejected, and `commit()` or `replay()` does not know yet. -/
  | failed
  /-- `replay()` is over, and its entry is not on a stack yet. -/
  | replayed
  | done
  deriving DecidableEq

structure Proc (O : Type*) where
  store : ℕ
  job : Job O
  pc : Pc O

/-- What callers and KiCad see, in order. -/
inductive Event (O : Type*) where
  /-- A `begin()` succeeds, ops are sent to the commit of `m`, `end()` takes it, and KiCad has
  pushed it. -/
  | opened (n : ℕ)
  | sent (n m : ℕ) (ops : List O)
  | ended (n m : ℕ) (commit : Bool)
  | pushed (m : ℕ)
  /-- A `commit()` with ops resolves; any other `commit()` or a `drop()` does; one rejects. -/
  | committed (n : ℕ)
  | closed (n : ℕ)
  | rejected (n : ℕ)
  /-- The entry of a transaction goes on the undo stack. -/
  | entered (n : ℕ)
  /-- An `undo()` or `redo()` is called, pops an entry, resolves or rejects; with the stacks. -/
  | called (n : ℕ) (history : List (HistoryEntry O) × List (HistoryEntry O))
  | popped (n : ℕ) (entry : HistoryEntry O)
  | replayed (n : ℕ)
  | failed (n : ℕ) (history : List (HistoryEntry O) × List (HistoryEntry O))
  deriving DecidableEq

/-- The top of a stack is its last entry. -/
structure State (O : Type*) where
  undoStack : List (HistoryEntry O)
  redoStack : List (HistoryEntry O)
  stores : OMap String ℕ
  replaying : Bool
  nextEntryId : ℕ
  /-- The process whose commit is open on a store. -/
  opened : OMap ℕ ℕ
  /-- Those that hold or wait for the lock of `begin`, the holder first. -/
  chain : List ℕ
  procs : OMap ℕ (Proc O)
  log : List (Event O)

def State.new {O : Type*} : State O :=
  ⟨[], [], OMap.empty, false, 1, OMap.empty, [], OMap.empty, []⟩

/-- `storeKeyOf`, and the limit of the history. -/
structure Config where
  storeKeyOf : ℕ → String
  limit : ℕ

variable {O : Type*}

def Job.isReplay : Job O → Bool
  | .tx _ _ _ => false
  | _ => true

/-- What is applied: the forward ops, or those that take an entry back. -/
def Job.ops : Job O → List O
  | .tx _ forward _ => forward
  | .undo entry => entry.inverse
  | .redo entry => entry.forward

def State.say (s : State O) (e : Event O) : State O := { s with log := s.log ++ [e] }

def State.goto (s : State O) (n : ℕ) (p : Proc O) (pc : Pc O) : State O :=
  { s with procs := s.procs.set n { p with pc := pc } }

def State.history (s : State O) : List (HistoryEntry O) × List (HistoryEntry O) :=
  (s.undoStack, s.redoStack)

/-- `release()` of the commit of `m`: `unlock()` lets the next of the chain go on. -/
def State.release (s : State O) (m : ℕ) : State O := { s with chain := s.chain.erase m }

/-! ### The backend -/

/-- `begin`, up to its first await; `target` says whether the store's document is open. -/
def State.begin (s : State O) (n : ℕ) (p : Proc O) (target : Bool) : State O :=
  if target then { s with chain := s.chain ++ [n] }.goto n p .waiting else s.goto n p .failed

/-- What stands behind `BeginCommit`. -/
def State.beginReply (s : State O) (n : ℕ) (p : Proc O) (ok : Bool) : State O :=
  if ok then ({ s with opened := s.opened.set p.store n }.goto n p .begun).say (.opened n)
  else (s.release n).goto n p .failed

/-- `apply`, up to its requests. -/
def State.apply (s : State O) (n : ℕ) (p : Proc O) : State O :=
  match s.opened.get? p.store with
  | none => s.goto n p .failed
  | some m => (s.goto n p (.applying m)).say (.sent n m p.job.ops)

/-- `end(store, 'commit')`, up to its request. -/
def State.endCommit (s : State O) (n : ℕ) (p : Proc O) (canonical : List O) : State O :=
  match s.opened.get? p.store with
  | none => s.goto n p (.pushed canonical)
  | some m =>
    ({ s with opened := s.opened.delete p.store }.goto n p (.pushing m canonical)).say
      (.ended n m true)

/-- What stands behind the `EndCommit` of a push. -/
def State.pushReply (s : State O) (n : ℕ) (p : Proc O) (m : ℕ) (canonical : List O) (ok : Bool) :
    State O :=
  if ok then ((s.release m).goto n p (.pushed canonical)).say (.pushed m)
  else (s.release m).goto n p .failed

/-- The end of a transaction that does not reach the history. -/
def State.close (s : State O) (n : ℕ) (p : Proc O) (rejects : Bool) : State O :=
  (s.goto n p .done).say (if rejects then .rejected n else .closed n)

/-- `end(store, 'drop')`; `caught` for the one in the `catch`, after which `commit()` rejects. -/
def State.endDrop (s : State O) (n : ℕ) (p : Proc O) (caught : Bool) : State O :=
  match s.opened.get? p.store with
  | none => s.close n p caught
  | some m =>
    ({ s with opened := s.opened.delete p.store }.goto n p (.dropping m caught)).say
      (.ended n m false)

/-! ### The service -/

def State.pushHistory (cfg : Config) (s : State O) (n : ℕ) (entry : HistoryEntry O) : State O :=
  if s.replaying then s
  else
    let undoStack := s.undoStack ++ [entry]
    { s with undoStack := if undoStack.length > cfg.limit then undoStack.tail else undoStack,
             redoStack := [] }.say (.entered n)

/-- `commit()` up to its first await. -/
def State.commit (s : State O) (n : ℕ) (p : Proc O) (target : Bool) : State O :=
  if p.job.ops.isEmpty then s.endDrop n p false else s.begin n p target

/-- `replay` up to its first await. -/
def State.replay (s : State O) (n : ℕ) (entry : HistoryEntry O) (job : Job O) (target : Bool) :
    State O :=
  match s.stores.get? entry.storeKey with
  | none => s.goto n ⟨0, job, .failed⟩ .failed
  | some store => { s with replaying := true }.begin n ⟨store, job, .waiting⟩ target

/-- A call pops its entry. -/
def State.pop (s : State O) (n : ℕ) (entry : HistoryEntry O)
    (undoStack redoStack : List (HistoryEntry O)) : State O :=
  { s with undoStack := undoStack, redoStack := redoStack }.say (.called n s.history)
    |>.say (.popped n entry)

/-- `undo()` up to its first await; with nothing to undo it is over. -/
def State.undo (s : State O) (n : ℕ) (target : Bool) : State O :=
  match s.undoStack.getLast? with
  | none => s
  | some entry =>
    (s.pop n entry s.undoStack.dropLast s.redoStack).replay n entry (.undo entry) target

def State.redo (s : State O) (n : ℕ) (target : Bool) : State O :=
  match s.redoStack.getLast? with
  | none => s
  | some entry =>
    (s.pop n entry s.undoStack s.redoStack.dropLast).replay n entry (.redo entry) target

/-- A rejection comes back: to the `catch` of `commit()`, or through the `finally` of `replay`. -/
def State.raise (s : State O) (n : ℕ) (p : Proc O) : State O :=
  match p.job with
  | .tx _ _ _ => s.endDrop n p true
  | _ => ({ s with replaying := false }.goto n p .done).say (.failed n s.history)

/-- What stands behind a push: `pushHistory` and the end of `commit()`, or the `finally` of
`replay`. -/
def State.finish (cfg : Config) (s : State O) (n : ℕ) (p : Proc O) (canonical : List O) : State O :=
  match p.job with
  | .tx message _ inverse =>
    let entry := ⟨s.nextEntryId, message, cfg.storeKeyOf p.store, canonical, inverse⟩
    (({ s with nextEntryId := s.nextEntryId + 1 }.pushHistory cfg n entry).goto n p .done).say
      (.committed n)
  | _ => { s with replaying := false }.goto n p .replayed

/-- What stands behind `replay`: the entry goes on the other stack. -/
def State.restack (s : State O) (n : ℕ) (p : Proc O) : State O :=
  match p.job with
  | .tx _ _ _ => s
  | .undo entry =>
    ({ s with redoStack := s.redoStack ++ [entry] }.goto n p .done).say (.replayed n)
  | .redo entry =>
    ({ s with undoStack := s.undoStack ++ [entry] }.goto n p .done).say (.replayed n)

/-! ### Steps -/

inductive Action (O : Type*) where
  /-- `begin()` of the service: a transaction is made on a store. -/
  | edit (store : ℕ)
  | commit (n store : ℕ) (message : String) (forward inverse : List O) (target : Bool)
  | drop (n store : ℕ) (message : String) (forward inverse : List O)
  | undo (n : ℕ) (target : Bool)
  | redo (n : ℕ) (target : Bool)
  /-- The lock is free for the head of the chain. -/
  | granted (n : ℕ)
  | beginReply (n : ℕ) (ok : Bool)
  | apply (n : ℕ)
  | applyReply (n : ℕ) (canonical : Option (List O))
  | endCommit (n : ℕ)
  | pushReply (n : ℕ) (ok : Bool)
  | dropReply (n : ℕ) (ok : Bool)
  | raise (n : ℕ)
  | finish (n : ℕ)
  | restack (n : ℕ)

def step (cfg : Config) (s : State O) : Action O → Option (State O)
  | .edit store => some { s with stores := s.stores.set (cfg.storeKeyOf store) store }
  | .commit n store message forward inverse target =>
    if s.procs.has n then none
    else some (s.commit n ⟨store, .tx message forward inverse, .waiting⟩ target)
  | .drop n store message forward inverse =>
    if s.procs.has n then none
    else some (s.endDrop n ⟨store, .tx message forward inverse, .waiting⟩ false)
  | .undo n target => if s.procs.has n then none else some (s.undo n target)
  | .redo n target => if s.procs.has n then none else some (s.redo n target)
  | .granted n =>
    match s.procs.get? n with
    | some ⟨store, job, .waiting⟩ =>
      if s.chain.head? = some n then some (s.goto n ⟨store, job, .waiting⟩ .beginning) else none
    | _ => none
  | .beginReply n ok =>
    match s.procs.get? n with
    | some ⟨store, job, .beginning⟩ => some (s.beginReply n ⟨store, job, .beginning⟩ ok)
    | _ => none
  | .apply n =>
    match s.procs.get? n with
    | some ⟨store, job, .begun⟩ => some (s.apply n ⟨store, job, .begun⟩)
    | _ => none
  | .applyReply n canonical =>
    match s.procs.get? n with
    | some ⟨store, job, .applying m⟩ =>
      some (s.goto n ⟨store, job, .applying m⟩ ((canonical.map .applied).getD .failed))
    | _ => none
  | .endCommit n =>
    match s.procs.get? n with
    | some ⟨store, job, .applied canonical⟩ =>
      some (s.endCommit n ⟨store, job, .applied canonical⟩ canonical)
    | _ => none
  | .pushReply n ok =>
    match s.procs.get? n with
    | some ⟨store, job, .pushing m canonical⟩ =>
      some (s.pushReply n ⟨store, job, .pushing m canonical⟩ m canonical ok)
    | _ => none
  | .dropReply n ok =>
    match s.procs.get? n with
    | some ⟨store, job, .dropping m caught⟩ =>
      some ((s.release m).close n ⟨store, job, .dropping m caught⟩ (caught || !ok))
    | _ => none
  | .raise n =>
    match s.procs.get? n with
    | some ⟨store, job, .failed⟩ => some (s.raise n ⟨store, job, .failed⟩)
    | _ => none
  | .finish n =>
    match s.procs.get? n with
    | some ⟨store, job, .pushed canonical⟩ =>
      some (s.finish cfg n ⟨store, job, .pushed canonical⟩ canonical)
    | _ => none
  | .restack n =>
    match s.procs.get? n with
    | some ⟨store, job, .replayed⟩ => some (s.restack n ⟨store, job, .replayed⟩)
    | _ => none

/-- One board, and the limit of the history as it is by default. -/
def onBoard : Config := ⟨fun _ => "board", 200⟩

/-- A transaction with an op, from its `commit()` to the end of its push. -/
def pushed (n : ℕ) : List (Action ℕ) :=
  [.commit n 0 "Move" [1] [2] true, .granted n, .beginReply n true, .apply n,
    .applyReply n (some [1]), .endCommit n, .pushReply n true]

/-- An `undo()` from its call to the reply to its ops. -/
def undoing (n : ℕ) (reply : Option (List ℕ)) : List (Action ℕ) :=
  [.undo n true, .granted n, .beginReply n true, .apply n, .applyReply n reply]

/-! ### What a step can do -/

variable {cfg : Config} {s s' : State O}

/-- The ways a step goes, with what it finds. -/
inductive Effect (cfg : Config) (s : State O) : Action O → State O → Prop
  | edit (store : ℕ) :
      Effect cfg s (.edit store) { s with stores := s.stores.set (cfg.storeKeyOf store) store }
  | commit {n store message forward inverse} (target : Bool) (hn : s.procs.has n = false) :
      Effect cfg s (.commit n store message forward inverse target)
        (s.commit n ⟨store, .tx message forward inverse, .waiting⟩ target)
  | drop {n store message forward inverse} (hn : s.procs.has n = false) :
      Effect cfg s (.drop n store message forward inverse)
        (s.endDrop n ⟨store, .tx message forward inverse, .waiting⟩ false)
  | undo {n} (target : Bool) (hn : s.procs.has n = false) :
      Effect cfg s (.undo n target) (s.undo n target)
  | redo {n} (target : Bool) (hn : s.procs.has n = false) :
      Effect cfg s (.redo n target) (s.redo n target)
  | granted {n store job} (hn : s.procs.get? n = some ⟨store, job, .waiting⟩)
      (hhead : s.chain.head? = some n) :
      Effect cfg s (.granted n) (s.goto n ⟨store, job, .waiting⟩ .beginning)
  | beginReply {n store job} (ok : Bool)
      (hn : s.procs.get? n = some ⟨store, job, .beginning⟩) :
      Effect cfg s (.beginReply n ok) (s.beginReply n ⟨store, job, .beginning⟩ ok)
  | apply {n store job} (hn : s.procs.get? n = some ⟨store, job, .begun⟩) :
      Effect cfg s (.apply n) (s.apply n ⟨store, job, .begun⟩)
  | applyReply {n store job m} (canonical : Option (List O))
      (hn : s.procs.get? n = some ⟨store, job, .applying m⟩) :
      Effect cfg s (.applyReply n canonical)
        (s.goto n ⟨store, job, .applying m⟩ ((canonical.map .applied).getD .failed))
  | endCommit {n store job canonical}
      (hn : s.procs.get? n = some ⟨store, job, .applied canonical⟩) :
      Effect cfg s (.endCommit n) (s.endCommit n ⟨store, job, .applied canonical⟩ canonical)
  | pushReply {n store job m canonical} (ok : Bool)
      (hn : s.procs.get? n = some ⟨store, job, .pushing m canonical⟩) :
      Effect cfg s (.pushReply n ok)
        (s.pushReply n ⟨store, job, .pushing m canonical⟩ m canonical ok)
  | dropReply {n store job m caught} (ok : Bool)
      (hn : s.procs.get? n = some ⟨store, job, .dropping m caught⟩) :
      Effect cfg s (.dropReply n ok)
        ((s.release m).close n ⟨store, job, .dropping m caught⟩ (caught || !ok))
  | raise {n store job} (hn : s.procs.get? n = some ⟨store, job, .failed⟩) :
      Effect cfg s (.raise n) (s.raise n ⟨store, job, .failed⟩)
  | finish {n store job canonical}
      (hn : s.procs.get? n = some ⟨store, job, .pushed canonical⟩) :
      Effect cfg s (.finish n) (s.finish cfg n ⟨store, job, .pushed canonical⟩ canonical)
  | restack {n store job} (hn : s.procs.get? n = some ⟨store, job, .replayed⟩) :
      Effect cfg s (.restack n) (s.restack n ⟨store, job, .replayed⟩)

@[simp] lemma pushHistory_opened (n : ℕ) (entry : HistoryEntry O) :
    (s.pushHistory cfg n entry).opened = s.opened := by
  unfold State.pushHistory
  split_ifs <;> rfl

@[simp] lemma pushHistory_procs (n : ℕ) (entry : HistoryEntry O) :
    (s.pushHistory cfg n entry).procs = s.procs := by
  unfold State.pushHistory
  split_ifs <;> rfl

lemma step_effect {a : Action O} (h : step cfg s a = some s') : Effect cfg s a s' := by
  cases a with
  | edit store => cases h; exact .edit store
  | commit n store message forward inverse target =>
    simp only [step] at h
    split_ifs at h with hn
    cases h
    exact .commit target (by simpa using hn)
  | drop n store message forward inverse =>
    simp only [step] at h
    split_ifs at h with hn
    cases h
    exact .drop (by simpa using hn)
  | undo n target =>
    simp only [step] at h
    split_ifs at h with hn
    cases h
    exact .undo target (by simpa using hn)
  | redo n target =>
    simp only [step] at h
    split_ifs at h with hn
    cases h
    exact .redo target (by simpa using hn)
  | granted n =>
    simp only [step] at h
    split at h
    case h_1 hn =>
      split_ifs at h with hhead
      cases h
      exact .granted hn hhead
    case h_2 => cases h
  | beginReply n ok =>
    simp only [step] at h
    split at h
    case h_1 hn => cases h; exact .beginReply ok hn
    case h_2 => cases h
  | apply n =>
    simp only [step] at h
    split at h
    case h_1 hn => cases h; exact .apply hn
    case h_2 => cases h
  | applyReply n canonical =>
    simp only [step] at h
    split at h
    case h_1 hn => cases h; exact .applyReply canonical hn
    case h_2 => cases h
  | endCommit n =>
    simp only [step] at h
    split at h
    case h_1 hn => cases h; exact .endCommit hn
    case h_2 => cases h
  | pushReply n ok =>
    simp only [step] at h
    split at h
    case h_1 hn => cases h; exact .pushReply ok hn
    case h_2 => cases h
  | dropReply n ok =>
    simp only [step] at h
    split at h
    case h_1 hn => cases h; exact .dropReply ok hn
    case h_2 => cases h
  | raise n =>
    simp only [step] at h
    split at h
    case h_1 hn => cases h; exact .raise hn
    case h_2 => cases h
  | finish n =>
    simp only [step] at h
    split at h
    case h_1 hn => cases h; exact .finish hn
    case h_2 => cases h
  | restack n =>
    simp only [step] at h
    split at h
    case h_1 hn => cases h; exact .restack hn
    case h_2 => cases h

/-! ### The lock -/

def Pc.stage : Pc O → Stage
  | .waiting => .waiting
  | .beginning => .beginning
  | .begun => .holding
  | .applying _ => .holding
  | .applied _ => .holding
  | .pushing m _ => .ending m
  | .dropping m _ => .ending m
  | _ => .idle

def lockLog (log : List (Event O)) : List SessionLock.Event :=
  log.filterMap fun
    | .opened n => some (.opened n)
    | .ended n m _ => some (.ended n m)
    | _ => none

@[simp] lemma lockLog_append (log log' : List (Event O)) :
    lockLog (log ++ log') = lockLog log ++ lockLog log' := List.filterMap_append ..

/-- Where process `n` stands with the lock. -/
def State.stage (s : State O) (n : ℕ) : Stage := ((s.procs.get? n).map (·.pc.stage)).getD .fresh

/-- The part of a state that the lock is about. -/
def State.lock (s : State O) : Lock ℕ := ⟨s.chain, s.opened.get?, s.stage, lockLog s.log⟩

lemma stage_goto (s : State O) (n : ℕ) (p : Proc O) (pc : Pc O) :
    (s.goto n p pc).stage = Function.update s.stage n pc.stage := by
  funext m
  simp only [State.stage, State.goto, OMap.get?_set, Function.update_apply]
  split_ifs <;> rfl

lemma lock_goto (s : State O) (n : ℕ) (p : Proc O) (pc : Pc O) :
    (s.goto n p pc).lock = s.lock.goto n pc.stage := by
  simp only [State.lock, stage_goto, Lock.goto]
  rfl

lemma lock_say {e : Event O} (h : lockLog [e] = []) (s : State O) : (s.say e).lock = s.lock := by
  simp only [State.lock, State.say, lockLog_append, h, List.append_nil]
  rfl

lemma stage_of_get? {n : ℕ} {p : Proc O} (h : s.procs.get? n = some p) :
    s.lock.stage n = p.pc.stage := by
  simp [State.lock, State.stage, h]

lemma stage_of_fresh {n : ℕ} (h : s.procs.has n = false) : s.lock.stage n = .fresh := by
  rw [OMap.has_eq_false_iff] at h
  simp [State.lock, State.stage, h]

/-- A step leaves the lock as it is, or does one of its moves. -/
def Moves (s s' : State O) : Prop := s'.lock = s.lock ∨ Move s.lock s'.lock

lemma moves_of_eq (h : s'.lock = s.lock) : Moves s s' := Or.inl h

lemma settle_moves {n : ℕ} (hn : (s.lock.stage n).free = true) (p : Proc O) {pc : Pc O}
    (hpc : pc.stage = .idle) : Moves s (s.goto n p pc) := by
  refine Or.inr ?_
  rw [lock_goto, hpc]
  exact .settle n hn

lemma begin_moves {n : ℕ} (hn : s.lock.stage n = .fresh) (p : Proc O) (target : Bool) :
    Moves s (s.begin n p target) := by
  unfold State.begin
  split_ifs
  · refine Or.inr ?_
    rw [lock_goto]
    exact .join n hn
  · exact settle_moves (by rw [hn]; rfl) p rfl

lemma goto_self {l : Lock ℕ} {n : ℕ} {stage : Stage} (h : l.stage n = stage) :
    l.goto n stage = l := by
  rw [Lock.goto, ← h, Function.update_eq_self]

lemma take_moves {n m store : ℕ} (p : Proc O) {pc : Pc O} (commit : Bool)
    (hn : (s.lock.stage n).free = true) (hm : s.opened.get? store = some m)
    (hpc : pc.stage = .ending m) :
    Moves s (({ s with opened := s.opened.delete store }.goto n p pc).say
      (.ended n m commit)) := by
  have hopened : (s.opened.delete store).get? = Function.update s.opened.get? store none := by
    funext k
    simp [OMap.get?_delete, Function.update_apply]
  have hlock : (({ s with opened := s.opened.delete store }.goto n p pc).say
      (.ended n m commit)).lock = { s.lock.goto n (.ending m) with
        opened := Function.update s.lock.opened store none,
        log := s.lock.log ++ [.ended n m] } := by
    have hstage := stage_goto s n p pc
    simp only [State.lock, State.say, lockLog_append, Lock.goto, ← hopened, ← hpc, ← hstage]
    rfl
  refine Or.inr ?_
  rw [hlock]
  exact .take n store m hn hm

lemma endDrop_moves {n : ℕ} (p : Proc O) (caught : Bool) (hn : (s.lock.stage n).free = true) :
    Moves s (s.endDrop n p caught) := by
  unfold State.endDrop
  split
  case h_1 =>
    refine Or.inr ?_
    rw [State.close, lock_say (by cases caught <;> rfl), lock_goto]
    exact .settle n hn
  case h_2 m hm => exact take_moves p false hn hm rfl

lemma endCommit_moves {n : ℕ} (p : Proc O) (canonical : List O)
    (hn : (s.lock.stage n).free = true) : Moves s (s.endCommit n p canonical) := by
  unfold State.endCommit
  split
  case h_1 => exact settle_moves hn p rfl
  case h_2 m hm => exact take_moves p true hn hm rfl

lemma beginReply_moves {n : ℕ} (p : Proc O) (ok : Bool) (hn : s.lock.stage n = .beginning) :
    Moves s (s.beginReply n p ok) := by
  unfold State.beginReply
  split_ifs
  · have hopened : (s.opened.set p.store n).get? =
        Function.update s.opened.get? p.store (some n) := by
      funext k
      simp [OMap.get?_set, Function.update_apply]
    have hlock : (({ s with opened := s.opened.set p.store n }.goto n p .begun).say
        (.opened n)).lock = { s.lock.goto n .holding with
          opened := Function.update s.lock.opened p.store (some n),
          log := s.lock.log ++ [.opened n] } := by
      have hstage := stage_goto s n p .begun
      simp only [State.lock, State.say, lockLog_append, Lock.goto, ← hopened, Pc.stage] at hstage ⊢
      rw [← hstage]
      rfl
    refine Or.inr ?_
    rw [hlock]
    exact .opens n p.store hn
  · refine Or.inr ?_
    rw [lock_goto]
    exact .refuse n hn

lemma release_moves {n m : ℕ} (p : Proc O) {pc : Pc O} (hn : s.lock.stage n = .ending m)
    (hpc : pc.stage = .idle) : Moves s ((s.release m).goto n p pc) := by
  refine Or.inr ?_
  rw [lock_goto, hpc]
  exact .release n m hn

lemma Moves.say (h : Moves s s') {e : Event O} (he : lockLog [e] = []) : Moves s (s'.say e) := by
  unfold Moves
  rwa [lock_say he]

lemma Moves.of_eq {t : State O} (h : Moves t s') (ht : t.lock = s.lock) : Moves s s' := by
  unfold Moves at h ⊢
  rwa [← ht]

lemma replay_moves {n : ℕ} (entry : HistoryEntry O) (job : Job O) (target : Bool)
    (hn : s.lock.stage n = .fresh) : Moves s (s.replay n entry job target) := by
  unfold State.replay
  split
  · exact settle_moves (by rw [hn]; rfl) _ rfl
  · exact (begin_moves (s := { s with replaying := true }) hn _ target).of_eq rfl

lemma lock_pop (s : State O) (n : ℕ) (entry : HistoryEntry O)
    (undoStack redoStack : List (HistoryEntry O)) :
    (s.pop n entry undoStack redoStack).lock = s.lock := by
  rw [State.pop, lock_say rfl, lock_say rfl]
  rfl

lemma pushHistory_lock (cfg : Config) (s : State O) (n : ℕ) (entry : HistoryEntry O) :
    (s.pushHistory cfg n entry).lock = s.lock := by
  unfold State.pushHistory
  split_ifs
  · rfl
  · rw [lock_say rfl]
    rfl

lemma commit_moves {n : ℕ} (p : Proc O) (target : Bool) (hn : s.lock.stage n = .fresh) :
    Moves s (s.commit n p target) := by
  unfold State.commit
  split_ifs
  · exact endDrop_moves p false (by rw [hn]; rfl)
  · exact begin_moves hn p target

lemma raise_moves {n : ℕ} (p : Proc O) (hn : (s.lock.stage n).free = true) :
    Moves s (s.raise n p) := by
  unfold State.raise
  split
  · exact endDrop_moves p true hn
  · exact ((settle_moves (s := { s with replaying := false }) hn p rfl).of_eq rfl).say rfl

lemma finish_moves {n : ℕ} (p : Proc O) (canonical : List O)
    (hn : (s.lock.stage n).free = true) : Moves s (s.finish cfg n p canonical) := by
  unfold State.finish
  split
  · refine Moves.say (.of_eq (settle_moves ?_ p rfl) (pushHistory_lock ..)) rfl
    rw [pushHistory_lock]
    exact hn
  · exact (settle_moves (s := { s with replaying := false }) hn p rfl).of_eq rfl

lemma restack_moves {n : ℕ} (p : Proc O) (hn : (s.lock.stage n).free = true) :
    Moves s (s.restack n p) := by
  unfold State.restack
  split
  · exact moves_of_eq rfl
  · exact (Moves.of_eq (settle_moves hn p rfl) rfl).say rfl
  · exact (Moves.of_eq (settle_moves hn p rfl) rfl).say rfl

/-- **What a step does to the lock.** -/
theorem step_moves {a : Action O} (h : step cfg s a = some s') : Moves s s' := by
  cases step_effect h with
  | edit store => exact moves_of_eq rfl
  | commit target hn => exact commit_moves _ target (stage_of_fresh hn)
  | drop hn => exact endDrop_moves _ false (by rw [stage_of_fresh hn]; rfl)
  | undo target hn =>
    unfold State.undo
    split
    · exact moves_of_eq rfl
    · exact (replay_moves _ _ target (by rw [lock_pop, stage_of_fresh hn])).of_eq (lock_pop ..)
  | redo target hn =>
    unfold State.redo
    split
    · exact moves_of_eq rfl
    · exact (replay_moves _ _ target (by rw [lock_pop, stage_of_fresh hn])).of_eq (lock_pop ..)
  | granted hn hhead =>
    refine Or.inr ?_
    rw [lock_goto]
    exact .grant _ (stage_of_get? hn) hhead
  | beginReply ok hn => exact beginReply_moves _ ok (stage_of_get? hn)
  | apply hn =>
    have hstage := stage_of_get? hn
    unfold State.apply
    split
    · exact settle_moves (by rw [hstage]; rfl) _ rfl
    · refine Moves.say (moves_of_eq ?_) rfl
      rw [lock_goto]
      exact goto_self hstage
  | applyReply canonical hn =>
    have hstage := stage_of_get? hn
    cases canonical with
    | none => exact settle_moves (by rw [hstage]; rfl) _ rfl
    | some canonical =>
      refine moves_of_eq ?_
      rw [lock_goto]
      exact goto_self hstage
  | endCommit hn => exact endCommit_moves _ _ (by rw [stage_of_get? hn]; rfl)
  | pushReply ok hn =>
    unfold State.pushReply
    split_ifs
    · exact (release_moves _ (stage_of_get? hn) rfl).say rfl
    · exact release_moves _ (stage_of_get? hn) rfl
  | dropReply ok hn =>
    refine (release_moves _ (stage_of_get? hn) rfl).say ?_
    split <;> rfl
  | raise hn => exact raise_moves _ (by rw [stage_of_get? hn]; rfl)
  | finish hn => exact finish_moves _ _ (by rw [stage_of_get? hn]; rfl)
  | restack hn => exact restack_moves _ (by rw [stage_of_get? hn]; rfl)

/-- **The lock is sound at every step**, so in every run. -/
theorem sound_step (hs : Sound s.lock) {a : Action O} (h : step cfg s a = some s') :
    Sound s'.lock := by
  rcases step_moves h with hlock | hmove
  · rwa [hlock]
  · exact hs.move hmove

end FabPcb.CommandRun
