import FabPcb.Runs
import FabPcb.CommitOps

/-!
A commit with all that runs on it: calls that queue ops, the flush that sends them, and the
`push()`, `drop()` and `run()` of any callers.

Each `await` is a place where others run, so every stretch between two of them is a step of
its own and the steps come in any order. The log keeps what callers and KiCad see.
-/

namespace FabPcb.CommitRun

open OrderedMap Document Errors CommitOps Runs

variable {P : Type*}

inductive CommitAction where
  | CMA_COMMIT | CMA_DROP
  deriving DecidableEq

/-- What callers and KiCad see of a commit, in order. -/
inductive Event (P : Type*) where
  /-- A call queued its ops, or was rejected. -/
  | accepted (ops : List (Op P))
  | refused
  /-- A `CreateItems`, `UpdateItems` or `DeleteItems` is sent for a batch, or the batch is
  rejected before it is. -/
  | request (batch : List (Op P))
  | unsent (batch : List (Op P))
  /-- A finalizer sends an `EndCommit`. -/
  | endCommit (n : ℕ) (action : CommitAction)
  | ended
  /-- A `push()` resolves, having committed or with the commit ended before. -/
  | pushed (n : ℕ)
  | ignored (n : ℕ)
  | dropped (n : ℕ)
  /-- A `push()` or `run()` rejects. -/
  | raised (n : ℕ) (e : ClientError)

/-- Where `flush` stands: awaiting `instanceUpdates`, awaiting a reply, or over with
`flushing` still set. -/
inductive Flush (P : Type*) where
  | preparing (batch : List (Op P))
  | sent
  | ending

/-- What awaits a `drain()`: `run()` after its callback, `push()`, `drop()` or `failAndRecover`. -/
inductive Next where
  | settle
  | push
  | drop
  | recover (byPush : Bool) (cause : ClientError)

/-- Where a `push()`, `drop()` or `run()` stands. -/
inductive Pc where
  | callback
  | draining (next : Next)
  | drained (next : Next)
  /-- Awaiting an `EndCommit`: that of `push()`, of `drop()` or of `failAndRecover`. -/
  | committing
  | dropping
  | recovering (byPush : Bool) (cause : ClientError)
  /-- Awaiting `GetUndoStack`, then `Undo`; `e` is why the drop failed. -/
  | stack (byPush : Bool) (cause e : ClientError)
  | undoing (byPush : Bool) (cause e : ClientError) (newest : Option String)
  | done

structure State (P : Type*) where
  queue : List (Op P)
  scheduled : Bool
  flushing : Option (Flush P)
  ended : Bool
  finalizing : Bool
  procs : OMap ℕ Pc
  log : List (Event P)

def State.new : State P := ⟨[], false, none, false, false, OMap.empty, []⟩

inductive Action (P : Type*) where
  | call (c : ItemCall P)
  | microtask
  /-- `instanceUpdates` settles, the reply to a request arrives, and the flush is over. -/
  | prepared (ok : Bool)
  | answered
  | settled
  | push (n : ℕ)
  | drop (n : ℕ)
  | run (n : ℕ)
  | callback (n : ℕ) (r : Except ClientError Unit)
  /-- A `drain()` finds nothing left, and what awaits it goes on. -/
  | drained (n : ℕ)
  | resume (n : ℕ)
  | endReply (n : ℕ) (r : Except ClientError Unit)
  | stackReply (n : ℕ) (r : Except ClientError (Option String))
  | undoReply (n : ℕ) (r : Except ClientError ℕ)

/-! ### The flush -/

def State.send (s : State P) (batch : List (Op P)) : State P :=
  { s with flushing := some .sent, log := s.log ++ [.request batch] }

/-- A turn of the loop of `flush`: updates go through `instanceUpdates` first. -/
def State.turn (s : State P) : State P :=
  match takeBatch s.queue with
  | none => { s with flushing := some .ending }
  | some (batch, queue) =>
    let s := { s with queue := queue }
    if batch.head?.map (·.kind) = some .update then { s with flushing := some (.preparing batch) }
    else s.send batch

/-! ### Finalizers -/

def State.goto (s : State P) (n : ℕ) (pc : Pc) : State P := { s with procs := s.procs.set n pc }

def State.say (s : State P) (e : Event P) : State P := { s with log := s.log ++ [e] }

/-- `this.ended = true`. -/
def State.finish (s : State P) : State P := { s with ended := true, log := s.log ++ [.ended] }

/-- The end of `failAndRecover`, and of the `push()` that called it. -/
def State.recovered (s : State P) (n : ℕ) (byPush : Bool) (e : ClientError) : State P :=
  let s := (s.finish.goto n .done).say (.raised n e)
  if byPush then { s with finalizing := false } else s

/-- `push()`, once nothing is left to send. -/
def State.pushDrained (id : String) (s : State P) (n : ℕ) : State P :=
  if s.ended then (s.goto n .done).say (.ignored n)
  else if s.finalizing then
    (s.goto n .done).say (.raised n (.error ("commit " ++ id ++ " is already finalizing")))
  else if id = "" then (s.finish.goto n .done).say (.pushed n)
  else ({ s with finalizing := true }.goto n .committing).say (.endCommit n .CMA_COMMIT)

/-- `drop()`, once nothing is left to send. -/
def State.dropDrained (id : String) (s : State P) (n : ℕ) : State P :=
  if s.ended then (s.goto n .done).say (.dropped n)
  else if id = "" then (s.finish.goto n .done).say (.dropped n)
  else (s.goto n .dropping).say (.endCommit n .CMA_DROP)

/-- What the answers to the requests of a recovery come to; those not asked for do not matter. -/
def recoveryError (id : String) (cause : ClientError) (drop : Except ClientError Unit)
    (newest : Except ClientError (Option String)) (applied : Except ClientError ℕ) : ClientError :=
  failAndRecover id cause ⟨drop, newest, applied⟩

/-- `failAndRecover`, once nothing is left to send. -/
def State.recoverDrained (id : String) (s : State P) (n : ℕ) (byPush : Bool)
    (cause : ClientError) : State P :=
  if id = "" then s.recovered n byPush (recoveryError id cause (.ok ()) (.ok none) (.ok 0))
  else (s.goto n (.recovering byPush cause)).say (.endCommit n .CMA_DROP)

/-- What stands behind `await this.drain()`. -/
def State.resume (id : String) (s : State P) (n : ℕ) : Next → State P
  | .settle => s.goto n (.draining .push)
  | .push => s.pushDrained id n
  | .drop => s.dropDrained id n
  | .recover byPush cause => s.recoverDrained id n byPush cause

/-- What stands behind an `EndCommit`. -/
def State.endReply (id : String) (s : State P) (n : ℕ) (r : Except ClientError Unit) :
    Pc → Option (State P)
  | .committing =>
    match r with
    | .ok () => some (({ s with finalizing := false }.finish.goto n .done).say (.pushed n))
    | .error e => some (s.goto n (.draining (.recover true e)))
  | .dropping => some ((s.finish.goto n .done).say (.dropped n))
  | .recovering byPush cause =>
    match r with
    | .ok () => some (s.recovered n byPush (recoveryError id cause (.ok ()) (.ok none) (.ok 0)))
    | .error e => some (s.goto n (.stack byPush cause e))
  | _ => none

/-- What stands behind `GetUndoStack`. -/
def State.stackReply (id : String) (s : State P) (n : ℕ) (r : Except ClientError (Option String)) :
    Pc → Option (State P)
  | .stack byPush cause e =>
    match r with
    | .ok newest =>
      if newest = some id then some (s.goto n (.undoing byPush cause e newest))
      else some (s.recovered n byPush (recoveryError id cause (.error e) r (.ok 0)))
    | .error _ => some (s.recovered n byPush (recoveryError id cause (.error e) r (.ok 0)))
  | _ => none

/-- What stands behind `Undo`. -/
def State.undoReply (id : String) (s : State P) (n : ℕ) (r : Except ClientError ℕ) :
    Pc → Option (State P)
  | .undoing byPush cause e newest =>
    some (s.recovered n byPush (recoveryError id cause (.error e) (.ok newest) r))
  | _ => none

/-! ### Steps -/

/-- `enqueue`. -/
def State.call (codec : Codec P) (base : ItemScope) (s : State P) (c : ItemCall P) : State P :=
  if s.ended ∨ s.finalizing then s.say .refused
  else { s with queue := s.queue ++ c.ops codec base, scheduled := true,
                log := s.log ++ [.accepted (c.ops codec base)] }

/-- A finalizer starts. -/
def State.start (s : State P) (n : ℕ) (pc : Pc) : Option (State P) :=
  if s.procs.has n then none else some (s.goto n pc)

/-- A commit with an id and a scope; `codec` is that of the messages it carries. -/
structure Config (P : Type*) where
  codec : Codec P
  id : String
  scope : ItemScope

def step (cfg : Config P) (s : State P) : Action P → Option (State P)
  | .call c => some (s.call cfg.codec cfg.scope c)
  | .microtask =>
    if s.scheduled then
      match s.flushing with
      | some _ => some { s with scheduled := false }
      | none => some { s with scheduled := false }.turn
    else none
  | .prepared ok =>
    match s.flushing with
    | some (.preparing batch) =>
      if ok then some (s.send batch) else some (s.say (.unsent batch)).turn
    | _ => none
  | .answered =>
    match s.flushing with
    | some .sent => some s.turn
    | _ => none
  | .settled =>
    match s.flushing with
    | some .ending => some { s with flushing := none }
    | _ => none
  | .push n => s.start n (.draining .push)
  | .drop n => s.start n (.draining .drop)
  | .run n => s.start n .callback
  | .callback n r =>
    match s.procs.get? n with
    | some .callback =>
      match r with
      | .ok () => some (s.goto n (.draining .settle))
      | .error e => some (s.goto n (.draining (.recover false e)))
    | _ => none
  | .drained n =>
    match s.procs.get? n, s.flushing with
    | some (.draining next), none =>
      if s.queue = [] then some (s.goto n (.drained next)) else none
    | _, _ => none
  | .resume n =>
    match s.procs.get? n with
    | some (.drained next) => some (s.resume cfg.id n next)
    | _ => none
  | .endReply n r => (s.procs.get? n).bind (s.endReply cfg.id n r)
  | .stackReply n r => (s.procs.get? n).bind (s.stackReply cfg.id n r)
  | .undoReply n r => (s.procs.get? n).bind (s.undoReply cfg.id n r)

/-- A commit on a board, of items whose messages are opaque. -/
def boardCommit : Config Unit where
  codec :=
    { wrapAny := fun _ => none
      typeUrl := fun _ => "type.googleapis.com/kiapi.board.types.Track"
      setId := fun _ _ => ()
      symbol := fun _ => none
      sameDefinition := fun _ _ => true
      dropDefinition := id }
  id := "c1"
  scope := {}

/-! ### What a step can do -/

/-- The actions of calls and of the flush. -/
def Action.ofItems : Action P → Prop
  | .call _ => True
  | .microtask => True
  | .prepared _ => True
  | .answered => True
  | .settled => True
  | _ => False

/-- What is seen of items. -/
def Event.isItem : Event P → Prop
  | .accepted _ => True
  | .refused => True
  | .request _ => True
  | .unsent _ => True
  | _ => False

/-- A finalizer that has sent its `EndCommit` and is not over. -/
def Pc.sent : Pc → Bool
  | .committing => true
  | .dropping => true
  | .recovering _ _ => true
  | .stack _ _ _ => true
  | .undoing _ _ _ _ => true
  | .draining (.recover byPush _) => byPush
  | .drained (.recover byPush _) => byPush
  | _ => false

/-- A `push()` that has set `finalizing` and is not over. -/
def Pc.holds : Pc → Bool
  | .committing => true
  | .recovering byPush _ => byPush
  | .stack byPush _ _ => byPush
  | .undoing byPush _ _ _ => byPush
  | .draining (.recover byPush _) => byPush
  | .drained (.recover byPush _) => byPush
  | _ => false

/-- A finalizer not started has sent and set nothing. -/
def sentBy (s : State P) (n : ℕ) : Bool := ((s.procs.get? n).map Pc.sent).getD false

def heldBy (s : State P) (n : ℕ) : Bool := ((s.procs.get? n).map Pc.holds).getD false

/-- The finalizer `n` sends an `EndCommit` as it goes on. -/
def sendsEnd (id : String) (s : State P) (n : ℕ) : Bool :=
  id ≠ "" &&
    match s.procs.get? n with
    | some (.drained .push) => !s.ended && !s.finalizing
    | some (.drained .drop) => !s.ended
    | some (.drained (.recover _ _)) => true
    | _ => false

/-- The ways a step goes: items move on; a finalizer moves on and nothing is seen of it, is
over without a request, sends an `EndCommit`, or ends the commit. -/
inductive Effect (cfg : Config P) (s : State P) : Action P → State P → Prop
  | items {a s'} (ha : a.ofItems) (es : List (Event P)) (hes : ∀ e ∈ es, e.isItem)
      (hlog : s'.log = s.log ++ es) (hprocs : s'.procs = s.procs) (hended : s'.ended = s.ended)
      (hfinalizing : s'.finalizing = s.finalizing) : Effect cfg s a s'
  | move {a} (n : ℕ) (pc : Pc) (hdone : s.procs.get? n ≠ some .done) (hpc : pc ≠ .done)
      (hcommitting : pc ≠ .committing) (hsent : pc.sent = sentBy s n)
      (hholds : pc.holds = heldBy s n) : Effect cfg s a (s.goto n pc)
  | ignore (n : ℕ) (hn : s.procs.get? n = some (.drained .push)) (hended : s.ended = true) :
      Effect cfg s (.resume n) ((s.goto n .done).say (.ignored n))
  | quit (n : ℕ) (e : Event P) (he : e = .dropped n ∨ ∃ error, e = .raised n error)
      (hn : ∃ pc, s.procs.get? n = some pc ∧ pc ≠ .done ∧ pc.sent = false) :
      Effect cfg s (.resume n) ((s.goto n .done).say e)
  | commit (n : ℕ) (hn : s.procs.get? n = some (.drained .push)) (hended : s.ended = false)
      (hfinalizing : s.finalizing = false) (hid : cfg.id ≠ "") :
      Effect cfg s (.resume n)
        (({ s with finalizing := true }.goto n .committing).say (.endCommit n .CMA_COMMIT))
  | drop (n : ℕ) (hn : s.procs.get? n = some (.drained .drop)) (hended : s.ended = false)
      (hid : cfg.id ≠ "") :
      Effect cfg s (.resume n) ((s.goto n .dropping).say (.endCommit n .CMA_DROP))
  | recover (n : ℕ) (byPush : Bool) (cause : ClientError)
      (hn : s.procs.get? n = some (.drained (.recover byPush cause))) (hid : cfg.id ≠ "") :
      Effect cfg s (.resume n)
        ((s.goto n (.recovering byPush cause)).say (.endCommit n .CMA_DROP))
  | finish {a} (n : ℕ) (pc : Pc) (e : Event P) (hn : s.procs.get? n = some pc) (hdone : pc ≠ .done)
      (he : (e = .dropped n ∨ ∃ error, e = .raised n error) ∨
        e = .pushed n ∧ (pc = .committing ∨ cfg.id = "" ∧ s.finalizing = false)) :
      Effect cfg s a
        { s with procs := s.procs.set n .done, ended := true,
                 finalizing := if pc.holds then false else s.finalizing,
                 log := s.log ++ [.ended, e] }

variable {cfg : Config P} {s s' : State P}

lemma sentBy_set {n : ℕ} {pc : Pc} (h : s'.procs = s.procs.set n pc) (m : ℕ) :
    sentBy s' m = if m = n then pc.sent else sentBy s m := by
  unfold sentBy
  rw [h, OMap.get?_set]
  split_ifs <;> rfl

lemma heldBy_set {n : ℕ} {pc : Pc} (h : s'.procs = s.procs.set n pc) (m : ℕ) :
    heldBy s' m = if m = n then pc.holds else heldBy s m := by
  unfold heldBy
  rw [h, OMap.get?_set]
  split_ifs <;> rfl

lemma sentBy_of_get? {n : ℕ} {pc : Pc} (hn : s.procs.get? n = some pc) : sentBy s n = pc.sent := by
  simp [sentBy, hn]

lemma heldBy_of_get? {n : ℕ} {pc : Pc} (hn : s.procs.get? n = some pc) :
    heldBy s n = pc.holds := by
  simp [heldBy, hn]

lemma turn_items (s : State P) : ∃ es, (∀ e ∈ es, Event.isItem e) ∧ s.turn.log = s.log ++ es ∧
    s.turn.procs = s.procs ∧ s.turn.ended = s.ended ∧ s.turn.finalizing = s.finalizing := by
  unfold State.turn
  rcases takeBatch s.queue with _ | ⟨batch, rest⟩
  · exact ⟨[], by simp, by simp, rfl, rfl, rfl⟩
  · simp only
    split_ifs
    · exact ⟨[], by simp, by simp, rfl, rfl, rfl⟩
    · refine ⟨[.request batch], fun e he => ?_, rfl, rfl, rfl, rfl⟩
      cases List.mem_singleton.mp he
      trivial

lemma recovered_effect {a : Action P} {n : ℕ} {pc : Pc} {byPush : Bool} {error : ClientError}
    (hn : s.procs.get? n = some pc) (hdone : pc ≠ .done) (hholds : pc.holds = byPush) :
    Effect cfg s a (s.recovered n byPush error) := by
  have h : Effect cfg s a _ :=
    .finish n pc (.raised n error) hn hdone (Or.inl (Or.inr ⟨error, rfl⟩))
  unfold State.recovered
  cases byPush <;> simpa [hholds, State.finish, State.goto, State.say] using h

lemma resume_effect {n : ℕ} {next : Next} (hn : s.procs.get? n = some (.drained next)) :
    Effect cfg s (.resume n) (s.resume cfg.id n next) := by
  cases next with
  | settle =>
    refine .move n _ (by simp [hn]) (by simp) (by simp) ?_ ?_ <;>
      simp [sentBy, heldBy, hn, Pc.sent, Pc.holds]
  | push =>
    simp only [State.resume, State.pushDrained]
    split_ifs with hended hfinalizing hid
    · exact .ignore n hn hended
    · exact .quit n _ (Or.inr ⟨_, rfl⟩) ⟨_, hn, by simp, rfl⟩
    · have hfree : s.finalizing = false := by simpa using hfinalizing
      have h : Effect cfg s (.resume n) _ :=
        .finish n _ (.pushed n) hn (by simp) (Or.inr ⟨rfl, Or.inr ⟨hid, hfree⟩⟩)
      simpa [State.finish, State.goto, State.say, Pc.holds] using h
    · exact .commit n hn (by simpa using hended) (by simpa using hfinalizing) hid
  | drop =>
    simp only [State.resume, State.dropDrained]
    split_ifs with hended hid
    · exact .quit n _ (Or.inl rfl) ⟨_, hn, by simp, rfl⟩
    · have h : Effect cfg s (.resume n) _ :=
        .finish n _ (.dropped n) hn (by simp) (Or.inl (Or.inl rfl))
      simpa [State.finish, State.goto, State.say, Pc.holds] using h
    · exact .drop n hn (by simpa using hended) hid
  | recover byPush cause =>
    simp only [State.resume, State.recoverDrained]
    split_ifs with hid
    · exact recovered_effect hn (by simp) rfl
    · exact .recover n byPush cause hn hid

lemma endReply_effect {a : Action P} {n : ℕ} {pc : Pc} {r : Except ClientError Unit}
    (hn : s.procs.get? n = some pc) (h : s.endReply cfg.id n r pc = some s') :
    Effect cfg s a s' := by
  cases pc with
  | committing =>
    rcases r with e | ⟨⟩
    · cases h
      refine .move n _ (by simp [hn]) (by simp) (by simp) ?_ ?_ <;>
        simp [sentBy, heldBy, hn, Pc.sent, Pc.holds]
    · cases h
      have h : Effect cfg s a _ := .finish n _ (.pushed n) hn (by simp) (Or.inr ⟨rfl, Or.inl rfl⟩)
      simpa [State.finish, State.goto, State.say, Pc.holds] using h
  | dropping =>
    cases h
    have h : Effect cfg s a _ := .finish n _ (.dropped n) hn (by simp) (Or.inl (Or.inl rfl))
    simpa [State.finish, State.goto, State.say, Pc.holds] using h
  | recovering byPush cause =>
    rcases r with e | ⟨⟩
    · cases h
      refine .move n _ (by simp [hn]) (by simp) (by simp) ?_ ?_ <;>
        simp [sentBy, heldBy, hn, Pc.sent, Pc.holds]
    · cases h
      exact recovered_effect hn (by simp) rfl
  | _ => cases h

lemma stackReply_effect {a : Action P} {n : ℕ} {pc : Pc}
    {r : Except ClientError (Option String)} (hn : s.procs.get? n = some pc)
    (h : s.stackReply cfg.id n r pc = some s') : Effect cfg s a s' := by
  cases pc with
  | stack byPush cause e =>
    rcases r with e' | newest
    · cases h
      exact recovered_effect hn (by simp) rfl
    · simp only [State.stackReply] at h
      split_ifs at h
      · cases h
        refine .move n _ (by simp [hn]) (by simp) (by simp) ?_ ?_ <;>
          simp [sentBy, heldBy, hn, Pc.sent, Pc.holds]
      · cases h
        exact recovered_effect hn (by simp) rfl
  | _ => cases h

lemma undoReply_effect {a : Action P} {n : ℕ} {pc : Pc} {r : Except ClientError ℕ}
    (hn : s.procs.get? n = some pc) (h : s.undoReply cfg.id n r pc = some s') :
    Effect cfg s a s' := by
  cases pc with
  | undoing byPush cause e newest =>
    cases h
    exact recovered_effect hn (by simp) rfl
  | _ => cases h

lemma start_effect {a : Action P} {n : ℕ} {pc : Pc} (h : s.start n pc = some s')
    (hpc : pc = .callback ∨ pc = .draining .push ∨ pc = .draining .drop) : Effect cfg s a s' := by
  unfold State.start at h
  split_ifs at h with hn
  cases h
  have hnone : s.procs.get? n = none := OMap.has_eq_false_iff.mp (by simpa using hn)
  rcases hpc with rfl | rfl | rfl <;>
    exact .move n _ (by simp [hnone]) (by simp) (by simp) (by simp [sentBy, hnone, Pc.sent])
      (by simp [heldBy, hnone, Pc.holds])

lemma turn_effect {a : Action P} (ha : a.ofItems) (es : List (Event P))
    (hes : ∀ e ∈ es, e.isItem) (t : State P) (hprocs : t.procs = s.procs)
    (hended : t.ended = s.ended) (hfinalizing : t.finalizing = s.finalizing)
    (hlog : t.log = s.log ++ es) :
    Effect cfg s a t.turn := by
  obtain ⟨es', hes', hlog', hprocs', hended', hfinalizing'⟩ := turn_items t
  refine .items ha (es ++ es') (fun e he => ?_) (by rw [hlog', hlog, List.append_assoc])
    (hprocs'.trans hprocs) (hended'.trans hended) (hfinalizing'.trans hfinalizing)
  exact (List.mem_append.mp he).elim (hes e) (hes' e)

/-- **Every step has one of these effects.** -/
theorem step_effect {a : Action P} (h : step cfg s a = some s') : Effect cfg s a s' := by
  cases a with
  | call c =>
    cases h
    unfold State.call
    split_ifs
    · exact .items trivial [.refused] (by simp [Event.isItem]) rfl rfl rfl rfl
    · exact .items trivial [.accepted _] (by simp [Event.isItem]) rfl rfl rfl rfl
  | microtask =>
    simp only [step] at h
    split_ifs at h
    split at h
    · cases h
      exact .items trivial [] (by simp) (by simp) rfl rfl rfl
    · cases h
      exact turn_effect (by trivial) [] (by simp) _ rfl rfl rfl (by simp)
  | prepared ok =>
    simp only [step] at h
    split at h
    · split_ifs at h
      · cases h
        exact .items trivial [.request _] (by simp [Event.isItem]) rfl rfl rfl rfl
      · cases h
        exact turn_effect (by trivial) [.unsent _] (by simp [Event.isItem]) _ rfl rfl rfl rfl
    · cases h
  | answered =>
    simp only [step] at h
    split at h
    · cases h
      exact turn_effect (by trivial) [] (by simp) _ rfl rfl rfl (by simp)
    · cases h
  | settled =>
    simp only [step] at h
    split at h
    · cases h
      exact .items trivial [] (by simp) (by simp) rfl rfl rfl
    · cases h
  | push n => exact start_effect h (by simp)
  | drop n => exact start_effect h (by simp)
  | run n => exact start_effect h (by simp)
  | callback n r =>
    simp only [step] at h
    split at h
    · rename_i hn
      split at h <;> cases h
      all_goals
        refine .move n _ (by simp [hn]) (by simp) (by simp) ?_ ?_ <;>
          simp [sentBy, heldBy, hn, Pc.sent, Pc.holds]
    · cases h
  | drained n =>
    simp only [step] at h
    split at h
    · rename_i next hn _
      split_ifs at h
      cases h
      refine .move n _ (by simp [hn]) (by simp) (by simp) ?_ ?_ <;>
        cases next <;> simp [sentBy, heldBy, hn, Pc.sent, Pc.holds]
    · cases h
  | resume n =>
    simp only [step] at h
    split at h
    · cases h
      exact resume_effect ‹_›
    · cases h
  | endReply n r =>
    obtain ⟨pc, hn, h⟩ := Option.bind_eq_some_iff.mp h
    exact endReply_effect hn h
  | stackReply n r =>
    obtain ⟨pc, hn, h⟩ := Option.bind_eq_some_iff.mp h
    exact stackReply_effect hn h
  | undoReply n r =>
    obtain ⟨pc, hn, h⟩ := Option.bind_eq_some_iff.mp h
    exact undoReply_effect hn h

end FabPcb.CommitRun
