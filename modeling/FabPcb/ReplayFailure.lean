import FabPcb.CommandRun

/-!
What a failing `undo()` or `redo()` leaves behind.

The entry is popped before the replay, and `replay` has no `catch`: when a request of it fails
the entry is lost, and a commit that was begun is never ended, with the lock held for good.
As long as no replay fails, every commit that is begun has a process that will end it.
-/

namespace FabPcb.ReplayFailure

open OrderedMap Runs SessionLock CommandRun

variable {O : Type*} {cfg : Config} {s s' : State O}

/-- The process `n` is an `undo()` or a `redo()`. -/
def isReplay (s : State O) (n : ℕ) : Bool := (s.procs.get? n).any (·.job.isReplay)

/-- The store of an entry, or its document, is closed. -/
def isClosed (s : State O) (entry : HistoryEntry O) (target : Bool) : Bool :=
  !target || !s.stores.has entry.storeKey

/-- A step by which an `undo()` or `redo()` fails. -/
def Faulty (s : State O) : Action O → Bool
  | .undo _ target => s.undoStack.getLast?.any fun entry => isClosed s entry target
  | .redo _ target => s.redoStack.getLast?.any fun entry => isClosed s entry target
  | .beginReply n ok => isReplay s n && !ok
  | .apply n => (s.procs.get? n).any fun p => p.job.isReplay && !s.opened.has p.store
  | .applyReply n canonical => isReplay s n && canonical.isNone
  | .pushReply n ok => isReplay s n && !ok
  | _ => false

/-- **No trace of failures**: an `undo()` or `redo()` that rejects leaves the stacks as they
were; a commit that was begun is ended once, or its process is on the way to it; and the lock is
nobody's who will not let go of it. -/
structure Released (s : State O) : Prop where
  history : ∀ n before after, .called n before ∈ s.log → .failed n after ∈ s.log → after = before
  once : (endedOf (lockLog s.log)).Nodup
  matched : ∀ n ∈ openedBy (lockLog s.log), n ∈ endedOf (lockLog s.log) ∨
    ∃ p, s.procs.get? n = some p ∧ p.pc ≠ .done
  free : ∀ n, s.chain.head? = some n → ∃ m p, s.procs.get? m = some p ∧ p.pc ≠ .done ∧
    (p.pc = .waiting → m = n)

/-! ### Commits and those who will end them -/

/-- A process that comes to `end()` yet. -/
def inUse : Pc O → Bool
  | .begun => true
  | .applying _ => true
  | .applied _ => true
  | .failed => true
  | _ => false

/-- An open commit is that of a process on its store that comes to `end()` yet. -/
def Live (s : State O) : Prop :=
  ∀ k n, s.opened.get? k = some n →
    ∃ p, s.procs.get? n = some p ∧ p.store = k ∧ inUse p.pc = true

/-- A replay has not failed. -/
def Faultless (s : State O) : Prop :=
  ∀ n p, s.procs.get? n = some p → p.job.isReplay = true → p.pc ≠ .failed

/-- A process with no open commit. -/
def Bare (s : State O) (n : ℕ) : Prop := ∀ k, s.opened.get? k ≠ some n

lemma Live.congr (h : Live s) (hopened : s'.opened = s.opened) (hprocs : s'.procs = s.procs) :
    Live s' := by
  rwa [Live, hopened, hprocs]

lemma Bare.congr {n : ℕ} (h : Bare s n) (hopened : s'.opened = s.opened) : Bare s' n := by
  rwa [Bare, hopened]

lemma Live.goto (h : Live s) {n : ℕ} {p : Proc O} {pc : Pc O}
    (hn : ∀ k, s.opened.get? k = some n → p.store = k ∧ inUse pc = true) :
    Live (s.goto n p pc) := by
  intro k m hm
  by_cases hmn : m = n
  · obtain ⟨hk, hpc⟩ := hn k (hmn ▸ hm)
    exact ⟨{ p with pc := pc }, by simp [State.goto, hmn], hk, hpc⟩
  · obtain ⟨q, hq, hrest⟩ := h k m hm
    exact ⟨q, by simp [State.goto, hmn, hq], hrest⟩

lemma Live.goto_bare (h : Live s) {n : ℕ} (hn : Bare s n) (p : Proc O) (pc : Pc O) :
    Live (s.goto n p pc) :=
  h.goto fun k hk => absurd hk (hn k)

lemma Live.delete (h : Live s) (store : ℕ) :
    Live { s with opened := s.opened.delete store } := by
  intro k n hk
  rw [OMap.get?_delete] at hk
  split_ifs at hk
  exact h k n hk

lemma Live.bare_of_fresh (h : Live s) {n : ℕ} (hn : s.procs.has n = false) : Bare s n := by
  intro k hk
  obtain ⟨p, hp, -⟩ := h k n hk
  rw [OMap.has_eq_false_iff, hp] at hn
  cases hn

lemma Live.bare (h : Live s) {n : ℕ} {p : Proc O} (hn : s.procs.get? n = some p)
    (hpc : inUse p.pc = false) : Bare s n := by
  intro k hk
  obtain ⟨q, hq, -, huse⟩ := h k n hk
  cases Option.some.inj (hn.symm.trans hq)
  rw [hpc] at huse
  cases huse

lemma Live.store (h : Live s) {n k : ℕ} {p : Proc O} (hn : s.procs.get? n = some p)
    (hk : s.opened.get? k = some n) : p.store = k := by
  obtain ⟨q, hq, hstore, -⟩ := h k n hk
  cases Option.some.inj (hn.symm.trans hq)
  exact hstore

lemma Live.bare_of_none (h : Live s) {n : ℕ} {p : Proc O} (hn : s.procs.get? n = some p)
    (hnone : s.opened.get? p.store = none) : Bare s n := by
  intro k hk
  rw [h.store hn hk, hk] at hnone
  cases hnone

lemma Live.bare_of_delete (h : Live s) {n : ℕ} {p : Proc O} (hn : s.procs.get? n = some p) :
    Bare { s with opened := s.opened.delete p.store } n := by
  intro k hk
  rw [OMap.get?_delete] at hk
  split_ifs at hk with hne
  exact hne (h.store hn hk).symm

lemma Live.opens (h : Live s) {n : ℕ} {p : Proc O} (hn : Bare s n) :
    Live ({ s with opened := s.opened.set p.store n }.goto n p .begun) := by
  intro k m hm
  simp only [State.goto, OMap.get?_set] at hm ⊢
  by_cases hk : k = p.store
  · simp only [hk, if_true, Option.some.injEq] at hm
    exact ⟨{ p with pc := .begun }, by simp [hm], hk.symm, rfl⟩
  · rw [if_neg hk] at hm
    obtain ⟨q, hq, hrest⟩ := h k m hm
    refine ⟨q, ?_, hrest⟩
    rw [if_neg, hq]
    rintro rfl
    exact hn k hm

lemma Live.begin (h : Live s) {n : ℕ} (hn : Bare s n) (p : Proc O) (target : Bool) :
    Live (s.begin n p target) := by
  unfold State.begin
  split_ifs
  · exact Live.goto_bare (s := { s with chain := s.chain ++ [n] }) h hn p .waiting
  · exact h.goto_bare hn p .failed

lemma Live.endDrop (h : Live s) {n : ℕ} {p : Proc O} (caught : Bool)
    (hn : s.procs.get? n = some p ∨ Bare s n) : Live (s.endDrop n p caught) := by
  unfold State.endDrop
  split
  case h_1 hnone =>
    exact h.goto_bare (hn.elim (fun hn => h.bare_of_none hn hnone) id) p .done
  case h_2 m hm =>
    refine (h.delete p.store).goto_bare ?_ p _
    rcases hn with hn | hn
    · exact h.bare_of_delete hn
    · intro k hk
      rw [OMap.get?_delete] at hk
      split_ifs at hk
      exact hn k hk

lemma Live.replay (h : Live s) {n : ℕ} (hn : Bare s n) (entry : HistoryEntry O) (job : Job O)
    (target : Bool) : Live (s.replay n entry job target) := by
  unfold State.replay
  split
  · exact h.goto_bare hn _ _
  · exact Live.begin (s := { s with replaying := true }) h hn _ target

lemma Live.step (h : Live s) (hok : Faultless s) {a : Action O} (hstep : step cfg s a = some s') :
    Live s' := by
  cases step_effect hstep with
  | edit store => exact h
  | commit target hn =>
    unfold State.commit
    split_ifs
    · exact h.endDrop false (Or.inr (h.bare_of_fresh hn))
    · exact h.begin (h.bare_of_fresh hn) _ target
  | drop hn => exact h.endDrop false (Or.inr (h.bare_of_fresh hn))
  | undo target hn =>
    unfold State.undo
    split
    · exact h
    · exact Live.replay (s := s.pop _ _ _ _) h (h.bare_of_fresh hn) _ _ target
  | redo target hn =>
    unfold State.redo
    split
    · exact h
    · exact Live.replay (s := s.pop _ _ _ _) h (h.bare_of_fresh hn) _ _ target
  | granted hn _ => exact h.goto_bare (h.bare hn rfl) _ _
  | beginReply ok hn =>
    unfold State.beginReply
    split_ifs
    · exact h.opens (h.bare hn rfl)
    · exact Live.goto_bare (s := s.release _) h (h.bare hn rfl) _ _
  | apply hn =>
    unfold State.apply
    split
    · exact h.goto fun k hk => ⟨h.store hn hk, rfl⟩
    · exact h.goto fun k hk => ⟨h.store hn hk, rfl⟩
  | applyReply canonical hn =>
    refine h.goto fun k hk => ⟨h.store hn hk, ?_⟩
    cases canonical <;> rfl
  | endCommit hn =>
    unfold State.endCommit
    split
    case h_1 hnone => exact h.goto_bare (h.bare_of_none hn hnone) _ _
    case h_2 m hm => exact (h.delete _).goto_bare (h.bare_of_delete hn) _ _
  | pushReply ok hn =>
    unfold State.pushReply
    split_ifs <;> exact Live.goto_bare (s := s.release _) h (h.bare hn rfl) _ _
  | dropReply ok hn => exact Live.goto_bare (s := s.release _) h (h.bare hn rfl) _ _
  | @raise n store job hn =>
    cases job with
    | tx message forward inverse => exact h.endDrop true (Or.inl hn)
    | undo entry => exact absurd rfl (hok n _ hn rfl)
    | redo entry => exact absurd rfl (hok n _ hn rfl)
  | @finish n store job canonical hn =>
    have hbare := h.bare hn rfl
    cases job with
    | tx message forward inverse =>
      have hpush : Live ({ s with nextEntryId := s.nextEntryId + 1 }.pushHistory cfg n
          ⟨s.nextEntryId, message, cfg.storeKeyOf store, canonical, inverse⟩) :=
        h.congr (by simp) (by simp)
      exact hpush.goto_bare (hbare.congr (by simp)) _ _
    | undo entry => exact h.goto_bare hbare _ _
    | redo entry => exact h.goto_bare hbare _ _
  | @restack n store job hn =>
    cases job with
    | tx message forward inverse => exact h
    | undo entry => exact h.goto_bare (h.bare hn rfl) _ _
    | redo entry => exact h.goto_bare (h.bare hn rfl) _ _

/-! ### No replay fails -/

/-- No `undo()` or `redo()` has rejected. -/
def Quiet (s : State O) : Prop := ∀ n history, .failed n history ∉ s.log

/-- No replay has failed, and none is about to. -/
def Healthy (s : State O) : Prop := Faultless s ∧ Quiet s

lemma Quiet.say (h : Quiet s) {e : Event O} (he : ∀ n history, e ≠ .failed n history) :
    Quiet (s.say e) := by
  intro n history hmem
  rcases List.mem_append.mp hmem with hmem | hmem
  · exact h n history hmem
  · exact he n history (List.mem_singleton.mp hmem).symm

lemma Healthy.say (h : Healthy s) {e : Event O} (he : ∀ n history, e ≠ .failed n history) :
    Healthy (s.say e) := ⟨h.1, h.2.say he⟩

lemma Healthy.congr (h : Healthy s) (hprocs : s'.procs = s.procs) (hlog : s'.log = s.log) :
    Healthy s' := by
  rwa [Healthy, Faultless, Quiet, hprocs, hlog]

lemma Healthy.goto (h : Healthy s) {n : ℕ} {p : Proc O} {pc : Pc O}
    (hn : p.job.isReplay = true → pc ≠ .failed) : Healthy (s.goto n p pc) := by
  refine ⟨fun m q hq hreplay => ?_, h.2⟩
  simp only [State.goto, OMap.get?_set] at hq
  split_ifs at hq
  · cases hq
    exact hn hreplay
  · exact h.1 m q hq hreplay

lemma Healthy.endDrop (h : Healthy s) (n : ℕ) (p : Proc O) (caught : Bool) :
    Healthy (s.endDrop n p caught) := by
  unfold State.endDrop
  split
  · refine (h.goto (by simp)).say ?_
    cases caught <;> simp
  · exact ((h.congr rfl rfl).goto (by simp)).say (by simp)

lemma Healthy.begin (h : Healthy s) (n : ℕ) {p : Proc O} {target : Bool}
    (hp : p.job.isReplay = true → target = true) : Healthy (s.begin n p target) := by
  unfold State.begin
  split_ifs with htarget
  · exact (h.congr rfl rfl).goto (by simp)
  · exact h.goto fun hreplay => absurd (hp hreplay) htarget

lemma Healthy.replay (h : Healthy s) (n : ℕ) {entry : HistoryEntry O} (job : Job O)
    {target : Bool} (hopen : isClosed s entry target = false) :
    Healthy (s.replay n entry job target) := by
  simp only [isClosed, Bool.or_eq_false_iff, Bool.not_eq_false'] at hopen
  unfold State.replay
  split
  case h_1 hnone => simp [OMap.has, hnone] at hopen
  case h_2 store _ =>
    have hreplaying : Healthy { s with replaying := true } := h.congr rfl rfl
    exact hreplaying.begin n fun _ => hopen.1

lemma Healthy.pop (h : Healthy s) (n : ℕ) (entry : HistoryEntry O)
    (undoStack redoStack : List (HistoryEntry O)) :
    Healthy (s.pop n entry undoStack redoStack) := by
  have hstacks : Healthy { s with undoStack := undoStack, redoStack := redoStack } :=
    h.congr rfl rfl
  exact (hstacks.say (by simp)).say (by simp)

lemma Healthy.pushHistory (h : Healthy s) (n : ℕ) (entry : HistoryEntry O) :
    Healthy (s.pushHistory cfg n entry) := by
  unfold State.pushHistory
  split_ifs
  · exact h
  · exact (h.congr rfl rfl).say (by simp)

lemma isReplay_of_get? {n : ℕ} {p : Proc O} (hn : s.procs.get? n = some p) :
    isReplay s n = p.job.isReplay := by
  simp [isReplay, hn]

lemma Healthy.step (h : Healthy s) {a : Action O} (hok : Faulty s a = false)
    (hstep : step cfg s a = some s') : Healthy s' := by
  cases step_effect hstep with
  | edit store => exact h.congr rfl rfl
  | commit target hn =>
    unfold State.commit
    split_ifs
    · exact h.endDrop _ _ false
    · exact h.begin _ (by simp [Job.isReplay])
  | drop hn => exact h.endDrop _ _ false
  | undo target hn =>
    unfold State.undo
    split
    case h_1 => exact h
    case h_2 entry hentry =>
      simp only [Faulty, hentry, Option.any_some] at hok
      exact (h.pop ..).replay _ _ hok
  | redo target hn =>
    unfold State.redo
    split
    case h_1 => exact h
    case h_2 entry hentry =>
      simp only [Faulty, hentry, Option.any_some] at hok
      exact (h.pop ..).replay _ _ hok
  | granted hn _ => exact h.goto (by simp)
  | beginReply ok hn =>
    unfold State.beginReply
    split_ifs with hreply
    · exact ((h.congr rfl rfl).goto (by simp)).say (by simp)
    · refine (h.congr rfl rfl).goto fun hreplay => ?_
      simp [Faulty, isReplay_of_get? hn, hreplay, hreply] at hok
  | apply hn =>
    unfold State.apply
    split
    case h_1 hnone =>
      refine h.goto fun hreplay => ?_
      simp [Faulty, hn, hreplay, OMap.has, hnone] at hok
    case h_2 => exact (h.goto (by simp)).say (by simp)
  | applyReply canonical hn =>
    cases canonical with
    | none =>
      refine h.goto fun hreplay => ?_
      simp [Faulty, isReplay_of_get? hn, hreplay] at hok
    | some canonical => exact h.goto (by simp)
  | endCommit hn =>
    unfold State.endCommit
    split
    · exact h.goto (by simp)
    · exact ((h.congr rfl rfl).goto (by simp)).say (by simp)
  | pushReply ok hn =>
    unfold State.pushReply
    split_ifs with hreply
    · exact ((h.congr rfl rfl).goto (by simp)).say (by simp)
    · refine (h.congr rfl rfl).goto fun hreplay => ?_
      simp [Faulty, isReplay_of_get? hn, hreplay, hreply] at hok
  | dropReply ok hn =>
    refine ((h.congr rfl rfl).goto (by simp)).say ?_
    split <;> simp
  | @raise n store job hn =>
    cases job with
    | tx message forward inverse => exact h.endDrop _ _ true
    | undo entry => exact absurd rfl (h.1 n _ hn rfl)
    | redo entry => exact absurd rfl (h.1 n _ hn rfl)
  | @finish n store job canonical hn =>
    cases job with
    | tx message forward inverse =>
      have hnext : Healthy { s with nextEntryId := s.nextEntryId + 1 } := h.congr rfl rfl
      exact ((hnext.pushHistory n _).goto (by simp)).say (by simp)
    | undo entry => exact (h.congr rfl rfl).goto (by simp)
    | redo entry => exact (h.congr rfl rfl).goto (by simp)
  | @restack n store job hn =>
    cases job with
    | tx message forward inverse => exact h
    | undo entry => exact ((h.congr rfl rfl).goto (by simp)).say (by simp)
    | redo entry => exact ((h.congr rfl rfl).goto (by simp)).say (by simp)

/-! ### The law -/

lemma released_of (hlock : Sound s.lock) (hlive : Live s) (hquiet : Quiet s) : Released s := by
  have hopen : ∀ k n, s.opened.get? k = some n →
      ∃ p, s.procs.get? n = some p ∧ p.pc ≠ .done ∧ p.pc ≠ .waiting := by
    intro k n hk
    obtain ⟨p, hp, -, huse⟩ := hlive k n hk
    refine ⟨p, hp, ?_, ?_⟩ <;> rintro h <;> simp [h, inUse] at huse
  have hstage : ∀ n (stage : Stage), stage ≠ .fresh → stage ≠ .idle → s.lock.stage n = stage →
      ∃ p, s.procs.get? n = some p ∧ p.pc.stage = stage ∧ p.pc ≠ .done := by
    intro n stage hfresh hidle hn
    cases hp : s.procs.get? n with
    | none =>
      simp only [State.lock, State.stage, hp] at hn
      exact absurd hn.symm hfresh
    | some p =>
      have hn := (stage_of_get? hp).symm.trans hn
      refine ⟨p, rfl, hn, fun hdone => ?_⟩
      simp only [hdone, Pc.stage] at hn
      exact hidle hn.symm
  constructor
  · intro n before after _ hafter
    exact absurd hafter (hquiet n after)
  · exact hlock.once
  · intro n hn
    obtain ⟨-, hended | ⟨k, hk⟩⟩ := hlock.opened n hn
    · exact Or.inl hended
    · obtain ⟨p, hp, hdone, -⟩ := hopen k n hk
      exact Or.inr ⟨p, hp, hdone⟩
  · intro n hhead
    rcases hlock.place n (List.mem_of_head? hhead) with h | h | ⟨k, h⟩ | ⟨m, h⟩
    · obtain ⟨p, hp, -, hdone⟩ := hstage n _ (by simp) (by simp) h
      exact ⟨n, p, hp, hdone, fun _ => rfl⟩
    · obtain ⟨p, hp, -, hdone⟩ := hstage n _ (by simp) (by simp) h
      exact ⟨n, p, hp, hdone, fun _ => rfl⟩
    · obtain ⟨p, hp, hdone, hwait⟩ := hopen k n h
      exact ⟨n, p, hp, hdone, fun _ => rfl⟩
    · obtain ⟨p, hp, hpc, hdone⟩ := hstage m _ (by simp) (by simp) h
      exact ⟨m, p, hp, hdone, fun hwait => by simp [hwait, Pc.stage] at hpc⟩

/-- **As long as no `undo()` or `redo()` fails**, every commit that is begun, by a transaction or
a replay, failing or not, is ended once and the lock released. -/
theorem released (cfg : Config) (as : List (Action O))
    (hok : Along (step cfg) (fun s a => Faulty s a = false) State.new as)
    (hrun : run (step cfg) State.new as = some s) : Released s := by
  have h : Sound s.lock ∧ Live s ∧ Healthy s := by
    refine invariant_along (fun s => Sound s.lock ∧ Live s ∧ Healthy s)
      (fun s a s' hs hok hstep => ⟨?_, hs.2.1.step hs.2.2.1 hstep, hs.2.2.step hok hstep⟩)
      ⟨sound_new, ?_, ?_, ?_⟩ hok hrun
    · exact sound_step hs.1 hstep
    · simp [Live, State.new]
    · simp [Faultless, State.new]
    · simp [Quiet, State.new]
  exact released_of h.1 h.2.1 h.2.2.2

/-- A transaction, its undo, and a second transaction that KiCad rejects. -/
def undoneRun : List (Action ℕ) :=
  .edit 0 :: pushed 0 ++ [.finish 0] ++ undoing 1 (some [2]) ++
    [.endCommit 1, .pushReply 1 true, .finish 1, .restack 1] ++
    [.commit 2 0 "Turn" [3] [4] true, .granted 2, .beginReply 2 true, .apply 2,
      .applyReply 2 none, .raise 2, .dropReply 2 true]

theorem released_undone :
    ∃ s, run (step onBoard) State.new undoneRun = some s ∧ endedOf (lockLog s.log) = [0, 1, 2] ∧
      Released s :=
  ⟨_, rfl, rfl, released onBoard undoneRun (by decide) rfl⟩

/-- The ops of an undo are rejected. -/
def lostRun : List (Action ℕ) :=
  .edit 0 :: pushed 0 ++ [.finish 0] ++ undoing 1 none ++ [.raise 1]

def lost : State ℕ := (run (step onBoard) State.new lostRun).getD State.new

/-- **A failing undo leaves a trace**: its entry is on no stack any more, and its commit stays
open, with the lock held by a call that is over. -/
theorem undo_lost :
    run (step onBoard) State.new lostRun = some lost ∧ lost.history = ([], []) ∧
      lost.chain = [1] ∧ (∀ p ∈ lost.procs.values, p.pc = .done) ∧ ¬ Released lost := by
  refine ⟨rfl, rfl, rfl, by decide, fun h => ?_⟩
  have hstacks := h.history 1 ([⟨1, "Move", "board", [1], [2]⟩], []) ([], [])
    (by decide) (by decide)
  simp at hstacks

end FabPcb.ReplayFailure
