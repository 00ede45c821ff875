import FabPcb.CommandRun

/-!
What the history records of transactions while `undo()` and `redo()` run.

`pushHistory` drops entries while the service replays, and an entry goes on a stack only when
its replay is over. Where no transaction finishes in the middle of that, each is entered once,
and nothing is left to redo that was undone before it.
-/

namespace FabPcb.CommandHistory

open OrderedMap Runs CommandRun

variable {O : Type*} {cfg : Config} {s s' : State O}

def isOver : Pc O → Bool
  | .done => true
  | _ => false

/-- An `undo()` that has popped its entry and is not over. -/
def isUndoing (p : Proc O) : Bool :=
  match p.job with
  | .undo _ => !isOver p.pc
  | _ => false

/-- A step by which a transaction comes to `pushHistory` while the service replays, or while an
`undo()` is under way. -/
def Overlaps (s : State O) : Action O → Bool
  | .finish n => (s.procs.get? n).any fun p =>
      !p.job.isReplay && (s.replaying || s.procs.values.any isUndoing)
  | _ => false

/-- The transactions that were entered in the history. -/
def enteredBy (log : List (Event O)) : List ℕ :=
  log.filterMap fun
    | .entered n => some n
    | _ => none

/-- No transaction was entered since an entry was popped. -/
def Fresh (log : List (Event O)) (entry : HistoryEntry O) : Prop :=
  ∃ n before after, log = before ++ .popped n entry :: after ∧ enteredBy after = []

/-- **What the history records**: a transaction whose `commit()` resolves with ops is entered
once, and an entry that may be redone was popped after the last that was entered. -/
structure Recorded (s : State O) : Prop where
  entered : ∀ n, .committed n ∈ s.log → (enteredBy s.log).count n = 1
  redo : ∀ entry ∈ s.redoStack, Fresh s.log entry

@[simp] lemma enteredBy_append (log log' : List (Event O)) :
    enteredBy (log ++ log') = enteredBy log ++ enteredBy log' := List.filterMap_append ..

lemma Fresh.append {log log' : List (Event O)} {entry : HistoryEntry O} (h : Fresh log entry)
    (hlog : enteredBy log' = []) : Fresh (log ++ log') entry := by
  obtain ⟨n, before, after, rfl, hafter⟩ := h
  refine ⟨n, before, after ++ log', by simp, ?_⟩
  rw [enteredBy_append, hafter, hlog]
  rfl

/-! ### The history and those who change it -/

structure History (s : State O) : Prop where
  redo : ∀ entry ∈ s.redoStack, Fresh s.log entry
  flight : ∀ n p entry, s.procs.get? n = some p → p.job = .undo entry → isOver p.pc = false →
    Fresh s.log entry
  nodup : (enteredBy s.log).Nodup
  done : ∀ n ∈ enteredBy s.log, ∃ p, s.procs.get? n = some p ∧ isOver p.pc = true
  committed : ∀ n, .committed n ∈ s.log → n ∈ enteredBy s.log

lemma History.congr (h : History s) (hredo : s'.redoStack = s.redoStack)
    (hprocs : s'.procs = s.procs) (hlog : s'.log = s.log) : History s' := by
  constructor
  · rw [hredo, hlog]
    exact h.redo
  · rw [hprocs, hlog]
    exact h.flight
  · rw [hlog]
    exact h.nodup
  · rw [hprocs, hlog]
    exact h.done
  · rw [hlog]
    exact h.committed

/-- An event that tells nothing of transactions that are over. -/
def plain : Event O → Bool
  | .entered _ => false
  | .committed _ => false
  | _ => true

lemma enteredBy_plain {e : Event O} (he : plain e = true) : enteredBy [e] = [] := by
  cases e <;> simp_all [plain, enteredBy]

lemma History.say (h : History s) {e : Event O} (he : plain e = true) : History (s.say e) := by
  have hentered : enteredBy (s.say e).log = enteredBy s.log := by
    rw [State.say, enteredBy_append, enteredBy_plain he, List.append_nil]
  constructor
  · exact fun entry hentry => (h.redo entry hentry).append (enteredBy_plain he)
  · exact fun n p entry hn hjob hpc => (h.flight n p entry hn hjob hpc).append (enteredBy_plain he)
  · rw [hentered]
    exact h.nodup
  · rw [hentered]
    exact h.done
  · intro n hn
    rw [hentered]
    rcases List.mem_append.mp hn with hn | hn
    · exact h.committed n hn
    · rw [← List.mem_singleton.mp hn] at he
      cases he

/-- A process that is not over. -/
def Going (s : State O) (n : ℕ) : Prop := ∀ q, s.procs.get? n = some q → isOver q.pc = false

lemma History.goto (h : History s) {n : ℕ} {p : Proc O} {pc : Pc O} (hn : Going s n)
    (hflight : ∀ entry, p.job = .undo entry → isOver pc = false → Fresh s.log entry) :
    History (s.goto n p pc) := by
  have hget : ∀ m, (s.goto n p pc).procs.get? m =
      if m = n then some { p with pc := pc } else s.procs.get? m := by
    simp [State.goto]
  constructor
  · exact h.redo
  · intro m q entry hq hjob hpc
    rw [hget] at hq
    split_ifs at hq
    · cases hq
      exact hflight entry hjob hpc
    · exact h.flight m q entry hq hjob hpc
  · exact h.nodup
  · intro m hm
    obtain ⟨q, hq, hover⟩ := h.done m hm
    refine ⟨q, ?_, hover⟩
    rw [hget, if_neg, hq]
    rintro rfl
    rw [hn q hq] at hover
    cases hover
  · exact h.committed

lemma History.go (h : History s) {n : ℕ} (hn : Going s n) {p : Proc O}
    (hjob : ∀ entry, p.job ≠ .undo entry) (pc : Pc O) : History (s.goto n p pc) :=
  h.goto hn fun entry hentry => absurd hentry (hjob entry)

lemma going_of_fresh {n : ℕ} (hn : s.procs.has n = false) : Going s n := by
  intro q hq
  rw [OMap.has_eq_false_iff, hq] at hn
  cases hn

lemma going_of_get? {n : ℕ} {p : Proc O} (hn : s.procs.get? n = some p)
    (hpc : isOver p.pc = false) : Going s n := by
  intro q hq
  cases Option.some.inj (hn.symm.trans hq)
  exact hpc

lemma History.next (h : History s) {n : ℕ} {p : Proc O} (hn : s.procs.get? n = some p)
    (hpc : isOver p.pc = false) (pc : Pc O) : History (s.goto n p pc) :=
  h.goto (going_of_get? hn hpc) fun entry hentry _ => h.flight n p entry hn hentry hpc

lemma History.endDrop (h : History s) {n : ℕ} {p : Proc O} (hn : Going s n)
    (hjob : ∀ entry, p.job ≠ .undo entry) (caught : Bool) : History (s.endDrop n p caught) := by
  unfold State.endDrop
  split
  · refine (h.go hn hjob .done).say ?_
    cases caught <;> rfl
  · have hdelete : History { s with opened := s.opened.delete p.store } := h.congr rfl rfl rfl
    exact (hdelete.go hn hjob _).say rfl

lemma History.begin (h : History s) {n : ℕ} {p : Proc O} (hn : Going s n)
    (hflight : ∀ entry, p.job = .undo entry → Fresh s.log entry) (target : Bool) :
    History (s.begin n p target) := by
  unfold State.begin
  split_ifs
  · have hchain : History { s with chain := s.chain ++ [n] } := h.congr rfl rfl rfl
    exact hchain.goto hn fun entry hentry _ => hflight entry hentry
  · exact h.goto hn fun entry hentry _ => hflight entry hentry

lemma History.replay (h : History s) {n : ℕ} (hn : Going s n) (entry : HistoryEntry O)
    {job : Job O} (hflight : ∀ entry, job = .undo entry → Fresh s.log entry) (target : Bool) :
    History (s.replay n entry job target) := by
  unfold State.replay
  split
  · exact h.goto hn fun entry hentry _ => hflight entry hentry
  · have hreplaying : History { s with replaying := true } := h.congr rfl rfl rfl
    exact hreplaying.begin hn hflight target

lemma History.pop (h : History s) (n : ℕ) (entry : HistoryEntry O)
    {undoStack redoStack : List (HistoryEntry O)} (hredo : ∀ e ∈ redoStack, e ∈ s.redoStack) :
    History (s.pop n entry undoStack redoStack) ∧
      Fresh (s.pop n entry undoStack redoStack).log entry := by
  have hstacks : History { s with undoStack := undoStack, redoStack := redoStack } :=
    ⟨fun e he => h.redo e (hredo e he), h.flight, h.nodup, h.done, h.committed⟩
  refine ⟨(hstacks.say rfl).say rfl, n, s.log ++ [.called n s.history], [], ?_, rfl⟩
  simp [State.pop, State.say]

/-- The `finish` of a transaction, with no `undo()` under way. -/
lemma History.finish (h : History s) {n store : ℕ} {message : String} {forward inverse : List O}
    {canonical : List O} (hn : s.procs.get? n = some
      ⟨store, .tx message forward inverse, .pushed canonical⟩)
    (hok : Overlaps s (.finish n) = false) :
    History (s.finish cfg n ⟨store, .tx message forward inverse, .pushed canonical⟩ canonical) := by
  simp only [Overlaps, hn, Option.any_some, Job.isReplay, Bool.not_false, Bool.true_and,
    Bool.or_eq_false_iff] at hok
  obtain ⟨hreplaying, hnobody⟩ := hok
  have hnew : n ∉ enteredBy s.log := by
    intro hmem
    obtain ⟨q, hq, hover⟩ := h.done n hmem
    cases Option.some.inj (hn.symm.trans hq)
    cases hover
  have hget : ∀ m, (s.finish cfg n ⟨store, .tx message forward inverse, .pushed canonical⟩
      canonical).procs.get? m = if m = n then some ⟨store, .tx message forward inverse, .done⟩
        else s.procs.get? m := by
    simp [State.finish, State.say, State.goto]
  have hlog : (s.finish cfg n ⟨store, .tx message forward inverse, .pushed canonical⟩
      canonical).log = s.log ++ [.entered n, .committed n] := by
    simp [State.finish, State.pushHistory, hreplaying, State.say, State.goto]
  have hentered : enteredBy (s.log ++ [.entered n, .committed n]) = enteredBy s.log ++ [n] := by
    simp [enteredBy]
  constructor
  · simp [State.finish, State.pushHistory, hreplaying, State.say, State.goto]
  · intro m q entry hq hjob hpc
    rw [hget] at hq
    split_ifs at hq
    · cases hq
      cases hjob
    · have hmem : q ∈ s.procs.values := OMap.mem_values_iff.mpr ⟨m, hq⟩
      have hidle := List.any_eq_false.mp hnobody q hmem
      simp [isUndoing, hjob, hpc] at hidle
  · rw [hlog, hentered, List.nodup_append]
    refine ⟨h.nodup, List.nodup_singleton n, ?_⟩
    rintro a ha b hb rfl
    exact hnew (List.mem_singleton.mp hb ▸ ha)
  · intro m hm
    rw [hlog, hentered, List.mem_append, List.mem_singleton] at hm
    rw [hget]
    split_ifs with hmn
    · exact ⟨_, rfl, rfl⟩
    · exact h.done m (hm.resolve_right hmn)
  · intro m hm
    rw [hlog, hentered]
    simp only [hlog, List.mem_append, List.mem_cons, List.not_mem_nil, or_false, reduceCtorEq,
      false_or, Event.committed.injEq] at hm
    rcases hm with hm | rfl
    · exact List.mem_append_left _ (h.committed m hm)
    · exact List.mem_append_right _ (List.mem_singleton.mpr rfl)

lemma History.step (h : History s) {a : Action O} (hok : Overlaps s a = false)
    (hstep : step cfg s a = some s') : History s' := by
  cases step_effect hstep with
  | edit store => exact h.congr rfl rfl rfl
  | commit target hn =>
    unfold State.commit
    split_ifs
    · exact h.endDrop (going_of_fresh hn) (by simp) false
    · exact h.begin (going_of_fresh hn) (by simp) target
  | drop hn => exact h.endDrop (going_of_fresh hn) (by simp) false
  | undo target hn =>
    unfold State.undo
    split
    case h_1 => exact h
    case h_2 entry _ =>
      obtain ⟨hpop, hfresh⟩ := h.pop _ entry fun _ he => he
      refine hpop.replay (going_of_fresh hn) entry (fun e he => ?_) target
      cases he
      exact hfresh
  | @redo n target hn =>
    unfold State.redo
    split
    case h_1 => exact h
    case h_2 entry _ =>
      have hpop : History (s.pop n entry s.undoStack s.redoStack.dropLast) :=
        (h.pop n entry fun _ he => List.dropLast_subset _ he).1
      exact hpop.replay (going_of_fresh hn) entry (by simp) target
  | granted hn _ => exact h.next hn rfl _
  | @beginReply n store job ok hn =>
    unfold State.beginReply
    split_ifs
    · have hset : History { s with opened := s.opened.set store n } := h.congr rfl rfl rfl
      exact (hset.next hn rfl _).say rfl
    · have hrelease : History (s.release n) := h.congr rfl rfl rfl
      exact hrelease.next hn rfl _
  | apply hn =>
    unfold State.apply
    split
    · exact h.next hn rfl _
    · exact (h.next hn rfl _).say rfl
  | applyReply canonical hn => exact h.next hn rfl _
  | @endCommit n store job canonical hn =>
    unfold State.endCommit
    split
    · exact h.next hn rfl _
    · have hdelete : History { s with opened := s.opened.delete store } := h.congr rfl rfl rfl
      exact (hdelete.next hn rfl _).say rfl
  | @pushReply n store job m canonical ok hn =>
    have hrelease : History (s.release m) := h.congr rfl rfl rfl
    unfold State.pushReply
    split_ifs
    · exact (hrelease.next hn rfl _).say rfl
    · exact hrelease.next hn rfl _
  | @dropReply n store job m caught ok hn =>
    have hrelease : History (s.release m) := h.congr rfl rfl rfl
    refine (hrelease.next hn rfl _).say ?_
    split <;> rfl
  | @raise n store job hn =>
    have hreplaying : History { s with replaying := false } := h.congr rfl rfl rfl
    cases job with
    | tx message forward inverse => exact h.endDrop (going_of_get? hn rfl) (by simp) true
    | undo entry => exact (hreplaying.next hn rfl _).say rfl
    | redo entry => exact (hreplaying.next hn rfl _).say rfl
  | @finish n store job canonical hn =>
    have hreplaying : History { s with replaying := false } := h.congr rfl rfl rfl
    cases job with
    | tx message forward inverse => exact h.finish hn hok
    | undo entry => exact hreplaying.next hn rfl _
    | redo entry => exact hreplaying.next hn rfl _
  | @restack n store job hn =>
    cases job with
    | tx message forward inverse => exact h
    | undo entry =>
      have hfresh := h.flight n _ entry hn rfl rfl
      have hstack : History { s with redoStack := s.redoStack ++ [entry] } := by
        refine ⟨fun e he => ?_, h.flight, h.nodup, h.done, h.committed⟩
        rcases List.mem_append.mp he with he | he
        · exact h.redo e he
        · exact List.mem_singleton.mp he ▸ hfresh
      exact (hstack.next hn rfl _).say rfl
    | redo entry =>
      have hstack : History { s with undoStack := s.undoStack ++ [entry] } := h.congr rfl rfl rfl
      exact (hstack.next hn rfl _).say rfl

/-- **As long as no transaction finishes during an undo or a replay**, each is recorded once, and
what may be redone was undone after the last of them. -/
theorem recorded (cfg : Config) (as : List (Action O))
    (hok : Along (step cfg) (fun s a => Overlaps s a = false) State.new as)
    (hrun : run (step cfg) State.new as = some s) : Recorded s := by
  have h : History s := by
    refine invariant_along History (fun s a s' hs hok hstep => hs.step hok hstep) ?_ hok hrun
    constructor <;> simp [State.new, enteredBy]
  exact ⟨fun n hn => List.count_eq_one_of_mem h.nodup (h.committed n hn), h.redo⟩

/-- A transaction is undone and redone, and another one follows. -/
def redoneRun : List (Action ℕ) :=
  .edit 0 :: pushed 0 ++ [.finish 0] ++ undoing 1 (some [2]) ++
    [.endCommit 1, .pushReply 1 true, .finish 1, .restack 1] ++ pushed 2 ++ [.finish 2]

theorem recorded_redone :
    ∃ s, run (step onBoard) State.new redoneRun = some s ∧
      (enteredBy s.log = [0, 2] ∧ .replayed 1 ∈ s.log) ∧ Recorded s :=
  ⟨_, rfl, by decide, recorded onBoard redoneRun (by decide) rfl⟩

/-- A transaction is pushed, and finishes once an `undo()` of an earlier one has begun. -/
def lateRun : List (Action ℕ) :=
  .edit 0 :: pushed 0 ++ [.finish 0] ++ pushed 1 ++ [.undo 2 true, .finish 1]

def unrecorded : State ℕ := (run (step onBoard) State.new lateRun).getD State.new

/-- **A transaction that finishes during an undo is not recorded.** -/
theorem commit_unrecorded :
    run (step onBoard) State.new lateRun = some unrecorded ∧
      .committed 1 ∈ unrecorded.log ∧ .entered 1 ∉ unrecorded.log ∧ ¬ Recorded unrecorded :=
  ⟨rfl, by decide, by decide, fun h => absurd (h.entered 1 (by decide)) (by decide)⟩

end FabPcb.CommandHistory
