import FabPcb.CommandRun

/-!
Whose KiCad commit a transaction ends.

`end()` finds the commit to end by the store alone. A transaction that has none, because it is
empty, is dropped before it began, or has failed, ends whatever commit is open on its store.
Where that is never another one's, every commit is ended by the transaction that began it.
-/

namespace FabPcb.CommitOwnership

open OrderedMap Runs SessionLock CommandRun

variable {O : Type*} {cfg : Config} {s s' : State O}

/-- A step that calls `end()` for a transaction without an open commit, while the commit of
another one is open on the store: an empty `commit()`, a `drop()`, or the `catch`. -/
def Steals (s : State O) : Action O → Bool
  | .commit _ store _ forward _ _ => forward.isEmpty && s.opened.has store
  | .drop _ store _ _ _ => s.opened.has store
  | .raise n => (s.procs.get? n).any fun p =>
      !p.job.isReplay && (s.opened.get? p.store).any (· ≠ n)
  | _ => false

/-- **Commits are ended by their own**: what ends a commit is the process that began it, and
once the `commit()` of a transaction with ops resolves, KiCad has pushed its commit and no
`end()` has dropped it. -/
structure OwnEnd (s : State O) : Prop where
  own : ∀ n m commit, .ended n m commit ∈ s.log → n = m
  pushed : ∀ n, .committed n ∈ s.log → .pushed n ∈ s.log ∧ ∀ m, .ended m n false ∉ s.log

/-! ### Processes and their commits -/

/-- A process that uses a commit uses its own, which is open on its store. -/
def Owns (opened : OMap ℕ ℕ) (n : ℕ) (p : Proc O) : Prop :=
  match p.pc with
  | .begun => opened.get? p.store = some n
  | .applying m => m = n ∧ opened.get? p.store = some n
  | .applied _ => opened.get? p.store = some n
  | .pushing m _ => m = n
  | .dropping m _ => m = n
  | _ => True

/-- A process that is dropping a commit or is over. -/
def late : Pc O → Bool
  | .dropping _ _ => true
  | .done => true
  | _ => false

def Owned (s : State O) : Prop :=
  ∀ n p, s.procs.get? n = some p → Owns s.opened n p

/-- What the log tells of processes that are not over. -/
structure Logged (s : State O) : Prop where
  own : ∀ n m commit, .ended n m commit ∈ s.log → n = m
  kept : ∀ n, (∀ p, s.procs.get? n = some p → late p.pc = false) →
    ∀ m, .ended m n false ∉ s.log
  pushed : ∀ n p canonical, s.procs.get? n = some p → p.pc = .pushed canonical →
    .pushed n ∈ s.log
  committed : ∀ n, .committed n ∈ s.log → (∃ p, s.procs.get? n = some p ∧ p.pc = .done) ∧
    .pushed n ∈ s.log ∧ ∀ m, .ended m n false ∉ s.log

lemma get?_goto (s : State O) (n : ℕ) (p : Proc O) (pc : Pc O) (m : ℕ) :
    (s.goto n p pc).procs.get? m = if m = n then some { p with pc := pc } else s.procs.get? m := by
  simp [State.goto]

lemma Owned.goto (h : Owned s) {n : ℕ} {p : Proc O} {pc : Pc O}
    (hown : Owns s.opened n { p with pc := pc }) : Owned (s.goto n p pc) := by
  intro m q hq
  rw [get?_goto] at hq
  split_ifs at hq with hmn
  · cases hq
    rw [hmn]
    exact hown
  · exact h m q hq

lemma Owned.take (h : Owned s) {n : ℕ} {p : Proc O} {pc : Pc O}
    (hopened : s.opened.get? p.store = some n) (hpc : pc.stage = .ending n) :
    Owned ({ s with opened := s.opened.delete p.store }.goto n p pc) := by
  intro m q hq
  rw [get?_goto] at hq
  split_ifs at hq with hmn
  · cases hq
    cases pc <;> simp_all [Owns, Pc.stage]
  · have hq := h m q hq
    have hother : s.opened.get? q.store = some m → (s.opened.delete p.store).get? q.store =
        some m := by
      intro hstore
      rw [OMap.get?_delete, if_neg, hstore]
      intro hpq
      rw [hpq, hopened] at hstore
      exact hmn (Option.some.inj hstore).symm
    unfold Owns at hq ⊢
    cases hpc : q.pc <;> simp only [hpc] at hq ⊢
    all_goals first
      | exact hq
      | exact hother hq
      | exact ⟨hq.1, hother hq.2⟩

lemma Owned.opens (h : Owned s) {n : ℕ} {p : Proc O} (hnone : ∀ k, s.opened.get? k = none) :
    Owned ({ s with opened := s.opened.set p.store n }.goto n p .begun) := by
  intro m q hq
  rw [get?_goto] at hq
  split_ifs at hq with hmn
  · cases hq
    simp [Owns, State.goto, hmn]
  · have hq := h m q hq
    unfold Owns at hq ⊢
    cases hpc : q.pc <;> simp_all

lemma Logged.congr (h : Logged s) (hprocs : s'.procs = s.procs) (hlog : s'.log = s.log) :
    Logged s' := by
  constructor
  · rw [hlog]
    exact h.own
  · rw [hprocs, hlog]
    exact h.kept
  · rw [hprocs, hlog]
    exact h.pushed
  · rw [hprocs, hlog]
    exact h.committed

/-- A process goes on that is not over yet. -/
lemma Logged.goto (h : Logged s) {n : ℕ} {p : Proc O} {pc : Pc O}
    (hold : ∀ q, s.procs.get? n = some q → q.pc ≠ .done ∧ (late q.pc = false ∨ late pc = true))
    (hpushed : ∀ canonical, pc = .pushed canonical → .pushed n ∈ s.log) :
    Logged (s.goto n p pc) := by
  have hget := get?_goto s n p pc
  constructor
  · exact h.own
  · intro m hm k hmem
    refine h.kept m (fun q hq => ?_) k hmem
    by_cases hmn : m = n
    · have hnew := hm { p with pc := pc } (by rw [hget, if_pos hmn])
      rcases (hold q (hmn ▸ hq)).2 with hlate | hlate
      · exact hlate
      · simp [hnew] at hlate
    · exact hm q (by rw [hget, if_neg hmn, hq])
  · intro m q canonical hq hpc
    rw [hget] at hq
    split_ifs at hq with hmn
    · cases hq
      rw [hmn]
      exact hpushed canonical hpc
    · exact h.pushed m q canonical hq hpc
  · intro m hm
    obtain ⟨⟨q, hq, hdone⟩, hrest⟩ := h.committed m hm
    refine ⟨⟨q, ?_, hdone⟩, hrest⟩
    rw [hget, if_neg, hq]
    rintro rfl
    exact (hold q hq).1 hdone

/-- An event that is neither of a session nor the end of a `commit()`. -/
def plain : Event O → Bool
  | .ended _ _ _ => false
  | .committed _ => false
  | _ => true

lemma mem_say_of_plain {e e' : Event O} (he : plain e = true) (he' : plain e' = false) :
    e' ∈ (s.say e).log ↔ e' ∈ s.log := by
  simp only [State.say, List.mem_append, List.mem_singleton, or_iff_left_iff_imp]
  rintro rfl
  rw [he] at he'
  cases he'

lemma Logged.say (h : Logged s) {e : Event O} (he : plain e = true) : Logged (s.say e) := by
  have hended : ∀ n m commit, .ended n m commit ∈ (s.say e).log ↔ .ended n m commit ∈ s.log :=
    fun n m commit => mem_say_of_plain he rfl
  constructor
  · intro n m commit hmem
    exact h.own n m commit ((hended n m commit).mp hmem)
  · intro n hn m hmem
    exact h.kept n hn m ((hended m n false).mp hmem)
  · intro n p canonical hn hpc
    exact List.mem_append_left _ (h.pushed n p canonical hn hpc)
  · intro n hn
    obtain ⟨hdone, hpushed, hkept⟩ := h.committed n ((mem_say_of_plain he rfl).mp hn)
    exact ⟨hdone, List.mem_append_left _ hpushed, fun m hm => hkept m ((hended m n false).mp hm)⟩

/-- A process has taken its own commit. -/
lemma Logged.ended (h : Logged s) {n : ℕ} {p : Proc O} {commit : Bool}
    (hn : s.procs.get? n = some p) (hdone : p.pc ≠ .done)
    (hcommit : commit = true ∨ late p.pc = true) : Logged (s.say (.ended n n commit)) := by
  have hmem : ∀ k m, .ended k m false ∈ (s.say (.ended n n commit)).log →
      .ended k m false ∈ s.log ∨ m = n ∧ commit = false := by
    intro k m hkm
    rcases List.mem_append.mp hkm with hkm | hkm
    · exact Or.inl hkm
    · cases List.mem_singleton.mp hkm
      exact Or.inr ⟨rfl, rfl⟩
  constructor
  · intro k m c hkm
    rcases List.mem_append.mp hkm with hkm | hkm
    · exact h.own k m c hkm
    · cases List.mem_singleton.mp hkm
      rfl
  · intro m hm k hkm
    rcases hmem k m hkm with hkm | ⟨rfl, rfl⟩
    · exact h.kept m hm k hkm
    · have hlate := hcommit.resolve_left (by simp)
      rw [hm p hn] at hlate
      cases hlate
  · intro m q canonical hq hpc
    exact List.mem_append_left _ (h.pushed m q canonical hq hpc)
  · intro m hm
    obtain ⟨⟨q, hq, hqdone⟩, hpushed, hkept⟩ := h.committed m (by simpa [State.say] using hm)
    refine ⟨⟨q, hq, hqdone⟩, List.mem_append_left _ hpushed, fun k hkm => ?_⟩
    rcases hmem k m hkm with hkm | ⟨rfl, -⟩
    · exact hkept k hkm
    · cases Option.some.inj (hn.symm.trans hq)
      exact hdone hqdone

lemma Logged.committed_of (h : Logged s) {n : ℕ} {p : Proc O}
    (hn : s.procs.get? n = some p) (hpc : p.pc = .done) (hpushed : .pushed n ∈ s.log)
    (hkept : ∀ m, .ended m n false ∉ s.log) : Logged (s.say (.committed n)) := by
  have hended : ∀ k m c, .ended k m c ∈ (s.say (.committed n)).log ↔ .ended k m c ∈ s.log := by
    simp [State.say]
  constructor
  · intro k m c hmem
    exact h.own k m c ((hended k m c).mp hmem)
  · intro m hm k hmem
    exact h.kept m hm k ((hended k m false).mp hmem)
  · intro m q canonical hq hqpc
    exact List.mem_append_left _ (h.pushed m q canonical hq hqpc)
  · intro m hm
    rcases List.mem_append.mp hm with hm | hm
    · obtain ⟨hdone, hmp, hmk⟩ := h.committed m hm
      exact ⟨hdone, List.mem_append_left _ hmp, fun k hk => hmk k ((hended k m false).mp hk)⟩
    · cases List.mem_singleton.mp hm
      exact ⟨⟨p, hn, hpc⟩, List.mem_append_left _ hpushed,
        fun k hk => hkept k ((hended k n false).mp hk)⟩

/-! ### Steps -/

/-- Where `end()` finds no commit but its caller's. -/
def Finds (s : State O) (n : ℕ) (p : Proc O) : Prop :=
  ∀ m, s.opened.get? p.store = some m → m = n

lemma Owned.endDrop (h : Owned s) {n : ℕ} {p : Proc O} (hfinds : Finds s n p) (caught : Bool) :
    Owned (s.endDrop n p caught) := by
  unfold State.endDrop
  split
  case h_1 => exact h.goto trivial
  case h_2 m hm =>
    obtain rfl := hfinds m hm
    exact h.take hm rfl

lemma Owned.begin (h : Owned s) (n : ℕ) (p : Proc O) (target : Bool) :
    Owned (s.begin n p target) := by
  unfold State.begin
  split_ifs
  · exact Owned.goto (s := { s with chain := s.chain ++ [n] }) h trivial
  · exact h.goto trivial

lemma Owned.replay (h : Owned s) (n : ℕ) (entry : HistoryEntry O) (job : Job O)
    (target : Bool) : Owned (s.replay n entry job target) := by
  unfold State.replay
  split
  · exact h.goto trivial
  · exact Owned.begin (s := { s with replaying := true }) h n _ target

lemma finds_of_closed {n : ℕ} {p : Proc O} (h : s.opened.has p.store = false) :
    Finds s n p := by
  intro m hm
  rw [OMap.has_eq_false_iff, hm] at h
  cases h

lemma finds_of_raise {n : ℕ} {p : Proc O} (hn : s.procs.get? n = some p)
    (hjob : p.job.isReplay = false) (h : Steals s (.raise n) = false) : Finds s n p := by
  intro m hm
  simpa [Steals, hn, hjob, hm] using h

lemma Owned.step (hlock : Sound s.lock) (h : Owned s) {a : Action O}
    (hok : Steals s a = false) (hstep : step cfg s a = some s') : Owned s' := by
  cases step_effect hstep with
  | edit store => exact h
  | @commit n store message forward inverse target hn =>
    unfold State.commit
    split_ifs with hempty
    · refine h.endDrop (finds_of_closed ?_) false
      simpa [Steals, show forward.isEmpty = true from hempty] using hok
    · exact h.begin n _ target
  | drop hn => exact h.endDrop (finds_of_closed (by simpa [Steals] using hok)) false
  | undo target hn =>
    unfold State.undo
    split
    · exact h
    · exact Owned.replay (s := s.pop _ _ _ _) h _ _ _ target
  | redo target hn =>
    unfold State.redo
    split
    · exact h
    · exact Owned.replay (s := s.pop _ _ _ _) h _ _ _ target
  | granted hn _ => exact h.goto trivial
  | beginReply ok hn =>
    unfold State.beginReply
    split_ifs
    · exact h.opens (hlock.alone (stage_of_get? hn)).1
    · exact Owned.goto (s := s.release _) h trivial
  | @apply n store job hn =>
    have hown : s.opened.get? store = some n := h n _ hn
    unfold State.apply
    simp only [hown]
    exact h.goto ⟨rfl, hown⟩
  | @applyReply n store job m canonical hn =>
    have hown : m = n ∧ s.opened.get? store = some n := h n _ hn
    refine h.goto ?_
    cases canonical with
    | none => trivial
    | some canonical => exact hown.2
  | @endCommit n store job canonical hn =>
    have hown : s.opened.get? store = some n := h n _ hn
    unfold State.endCommit
    simp only [hown]
    exact Owned.take (p := ⟨store, job, .applied canonical⟩) h hown rfl
  | pushReply ok hn =>
    unfold State.pushReply
    split_ifs <;> exact Owned.goto (s := s.release _) h trivial
  | dropReply ok hn => exact Owned.goto (s := s.release _) h trivial
  | @raise n store job hn =>
    cases job with
    | tx message forward inverse => exact h.endDrop (finds_of_raise hn rfl hok) true
    | undo entry => exact h.goto trivial
    | redo entry => exact h.goto trivial
  | @finish n store job canonical hn =>
    cases job with
    | tx message forward inverse =>
      have hpush : Owned ({ s with nextEntryId := s.nextEntryId + 1 }.pushHistory cfg n
          ⟨s.nextEntryId, message, cfg.storeKeyOf store, canonical, inverse⟩) := by
        simpa [Owned] using h
      exact hpush.goto trivial
    | undo entry => exact h.goto trivial
    | redo entry => exact h.goto trivial
  | @restack n store job hn =>
    cases job with
    | tx message forward inverse => exact h
    | undo entry => exact h.goto trivial
    | redo entry => exact h.goto trivial

/-- A process that is neither over nor dropping a commit. -/
def Going (s : State O) (n : ℕ) : Prop :=
  ∀ q, s.procs.get? n = some q → q.pc ≠ .done ∧ late q.pc = false

lemma going_of_fresh {n : ℕ} (hn : s.procs.has n = false) : Going s n := by
  intro q hq
  rw [OMap.has_eq_false_iff, hq] at hn
  cases hn

lemma going_of_get? {n : ℕ} {p : Proc O} (hn : s.procs.get? n = some p)
    (hpc : late p.pc = false) : Going s n := by
  intro q hq
  cases Option.some.inj (hn.symm.trans hq)
  exact ⟨fun hdone => by simp [hdone, late] at hpc, hpc⟩

lemma Logged.go (h : Logged s) {n : ℕ} (hn : Going s n) (p : Proc O) {pc : Pc O}
    (hpc : ∀ canonical, pc ≠ .pushed canonical) : Logged (s.goto n p pc) :=
  h.goto (fun q hq => ⟨(hn q hq).1, Or.inl (hn q hq).2⟩) fun c hc => absurd hc (hpc c)

lemma Logged.endDrop (h : Logged s) {n : ℕ} {p : Proc O} (hn : Going s n)
    (hfinds : Finds s n p) (caught : Bool) : Logged (s.endDrop n p caught) := by
  unfold State.endDrop
  split
  case h_1 =>
    refine (h.go hn p (by simp)).say ?_
    cases caught <;> rfl
  case h_2 m hm =>
    obtain rfl := hfinds m hm
    have hdelete : Logged { s with opened := s.opened.delete p.store } := h.congr rfl rfl
    have hgo : Logged ({ s with opened := s.opened.delete p.store }.goto m p
        (.dropping m caught)) := hdelete.go hn p (by simp)
    refine hgo.ended (p := { p with pc := .dropping m caught }) ?_ (by simp) (Or.inr rfl)
    rw [get?_goto, if_pos rfl]

lemma Logged.begin (h : Logged s) {n : ℕ} (hn : Going s n) (p : Proc O) (target : Bool) :
    Logged (s.begin n p target) := by
  unfold State.begin
  split_ifs
  · have hchain : Logged { s with chain := s.chain ++ [n] } := h.congr rfl rfl
    exact hchain.go hn p (by simp)
  · exact h.go hn p (by simp)

lemma Logged.replay (h : Logged s) {n : ℕ} (hn : Going s n) (entry : HistoryEntry O)
    (job : Job O) (target : Bool) : Logged (s.replay n entry job target) := by
  unfold State.replay
  split
  · exact h.go hn _ (by simp)
  · have hreplaying : Logged { s with replaying := true } := h.congr rfl rfl
    exact hreplaying.begin hn _ target

lemma Logged.pop (h : Logged s) (n : ℕ) (entry : HistoryEntry O)
    (undoStack redoStack : List (HistoryEntry O)) :
    Logged (s.pop n entry undoStack redoStack) := by
  have hstacks : Logged { s with undoStack := undoStack, redoStack := redoStack } :=
    h.congr rfl rfl
  exact (hstacks.say rfl).say rfl

lemma Logged.pushHistory (h : Logged s) (cfg : Config) (n : ℕ) (entry : HistoryEntry O) :
    Logged (s.pushHistory cfg n entry) := by
  unfold State.pushHistory
  split_ifs
  · exact h
  · refine Logged.say ?_ rfl
    exact h.congr rfl rfl

lemma mem_pushHistory (cfg : Config) (s : State O) (n : ℕ) (entry : HistoryEntry O) {e : Event O}
    (he : e ≠ .entered n) : e ∈ (s.pushHistory cfg n entry).log ↔ e ∈ s.log := by
  unfold State.pushHistory
  split_ifs
  · exact Iff.rfl
  · simp [State.say, he]

lemma Logged.finish (h : Logged s) {n : ℕ} {p : Proc O} {canonical : List O}
    (hn : s.procs.get? n = some p) (hpc : p.pc = .pushed canonical) :
    Logged (s.finish cfg n p canonical) := by
  have hgoing : Going s n := going_of_get? hn (by rw [hpc]; rfl)
  unfold State.finish
  split
  · rename_i message forward inverse hjob
    have hnext : Logged { s with nextEntryId := s.nextEntryId + 1 } := h.congr rfl rfl
    obtain ⟨entry, hentry⟩ : ∃ entry : HistoryEntry O,
      entry = ⟨s.nextEntryId, message, cfg.storeKeyOf p.store, canonical, inverse⟩ := ⟨_, rfl⟩
    simp only [← hentry]
    have hpush := hnext.pushHistory cfg n entry
    have hgo : Logged (({ s with nextEntryId := s.nextEntryId + 1 }.pushHistory cfg n
        entry).goto n p .done) := hpush.go (by simpa [Going] using hgoing) p (by simp)
    refine hgo.committed_of (p := { p with pc := .done }) ?_ rfl ?_ fun m hm => ?_
    · rw [get?_goto, if_pos rfl]
    · exact (mem_pushHistory _ _ _ _ (by simp)).mpr (h.pushed n p canonical hn hpc)
    · exact h.kept n (fun q hq => (hgoing q hq).2) m
        ((mem_pushHistory cfg { s with nextEntryId := s.nextEntryId + 1 } n entry (by simp)).mp
          hm)
  · have hreplaying : Logged { s with replaying := false } := h.congr rfl rfl
    exact hreplaying.go hgoing p (by simp)

lemma Logged.step (hown : Owned s) (h : Logged s) {a : Action O}
    (hok : Steals s a = false) (hstep : step cfg s a = some s') : Logged s' := by
  cases step_effect hstep with
  | edit store => exact h.congr rfl rfl
  | @commit n store message forward inverse target hn =>
    unfold State.commit
    split_ifs with hempty
    · refine h.endDrop (going_of_fresh hn) (finds_of_closed ?_) false
      simpa [Steals, show forward.isEmpty = true from hempty] using hok
    · exact h.begin (going_of_fresh hn) _ target
  | drop hn =>
    exact h.endDrop (going_of_fresh hn) (finds_of_closed (by simpa [Steals] using hok)) false
  | undo target hn =>
    unfold State.undo
    split
    · exact h
    · exact (h.pop ..).replay (going_of_fresh hn) _ _ target
  | redo target hn =>
    unfold State.redo
    split
    · exact h
    · exact (h.pop ..).replay (going_of_fresh hn) _ _ target
  | granted hn _ => exact h.go (going_of_get? hn rfl) _ (by simp)
  | @beginReply n store job ok hn =>
    unfold State.beginReply
    split_ifs
    · have hset : Logged { s with opened := s.opened.set store n } := h.congr rfl rfl
      exact (hset.go (going_of_get? hn rfl) _ (by simp)).say rfl
    · have hrelease : Logged (s.release n) := h.congr rfl rfl
      exact hrelease.go (going_of_get? hn rfl) _ (by simp)
  | apply hn =>
    unfold State.apply
    split
    · exact h.go (going_of_get? hn rfl) _ (by simp)
    · exact (h.go (going_of_get? hn rfl) _ (by simp)).say rfl
  | applyReply canonical hn =>
    refine h.go (going_of_get? hn rfl) _ ?_
    cases canonical <;> simp
  | @endCommit n store job canonical hn =>
    have hopened : s.opened.get? store = some n := hown n _ hn
    unfold State.endCommit
    simp only [hopened]
    have hdelete : Logged { s with opened := s.opened.delete store } := h.congr rfl rfl
    have hgo : Logged ({ s with opened := s.opened.delete store }.goto n
        ⟨store, job, .applied canonical⟩ (.pushing n canonical)) :=
      hdelete.go (going_of_get? hn rfl) _ (by simp)
    refine hgo.ended (p := ⟨store, job, .pushing n canonical⟩) ?_ (by simp) (Or.inl rfl)
    rw [get?_goto, if_pos rfl]
  | @pushReply n store job m canonical ok hn =>
    obtain rfl : m = n := hown n _ hn
    have hrelease : Logged (s.release m) := h.congr rfl rfl
    have hgoing : Going s m := going_of_get? hn rfl
    unfold State.pushReply
    split_ifs
    · exact (hrelease.say (e := .pushed m) rfl).goto
        (fun q hq => ⟨(hgoing q hq).1, Or.inl (hgoing q hq).2⟩) fun _ _ => by simp [State.say]
    · exact hrelease.go hgoing _ (by simp)
  | @dropReply n store job m caught ok hn =>
    have hrelease : Logged (s.release m) := h.congr rfl rfl
    refine (hrelease.goto (fun q hq => ?_) (by simp)).say ?_
    · cases Option.some.inj (hn.symm.trans hq)
      exact ⟨by simp, Or.inr rfl⟩
    · split <;> rfl
  | @raise n store job hn =>
    have hgoing : Going s n := going_of_get? hn rfl
    have hreplaying : Logged { s with replaying := false } := h.congr rfl rfl
    cases job with
    | tx message forward inverse =>
      exact h.endDrop hgoing (finds_of_raise hn rfl hok) true
    | undo entry => exact (hreplaying.go hgoing _ (by simp)).say rfl
    | redo entry => exact (hreplaying.go hgoing _ (by simp)).say rfl
  | finish hn => exact h.finish hn rfl
  | @restack n store job hn =>
    have hgoing : Going s n := going_of_get? hn rfl
    cases job with
    | tx message forward inverse => exact h
    | undo entry =>
      have hstack : Logged { s with redoStack := s.redoStack ++ [entry] } := h.congr rfl rfl
      exact (hstack.go hgoing _ (by simp)).say rfl
    | redo entry =>
      have hstack : Logged { s with undoStack := s.undoStack ++ [entry] } := h.congr rfl rfl
      exact (hstack.go hgoing _ (by simp)).say rfl

/-- **As long as nobody steals**, every commit is ended by its own, and a `commit()` that
resolves has had its commit pushed. -/
theorem own_end (cfg : Config) (as : List (Action O))
    (hok : Along (step cfg) (fun s a => Steals s a = false) State.new as)
    (hrun : run (step cfg) State.new as = some s) : OwnEnd s := by
  have h : Sound s.lock ∧ Owned s ∧ Logged s := by
    refine invariant_along (fun s => Sound s.lock ∧ Owned s ∧ Logged s)
      (fun s a s' hs hok hstep => ⟨sound_step hs.1 hstep, hs.2.1.step hs.1 hok hstep,
        hs.2.2.step hs.2.1 hok hstep⟩) ⟨sound_new, ?_, ?_⟩ hok hrun
    · simp [Owned, State.new]
    · constructor <;> simp [State.new]
  exact ⟨h.2.2.own, fun n hn => (h.2.2.committed n hn).2⟩

/-- Two transactions on one board, the second waiting for the first, and an empty one between
their commits. -/
def inTurn : List (Action ℕ) :=
  [.edit 0, .commit 0 0 "Move" [1] [2] true, .granted 0, .beginReply 0 true,
    .commit 1 0 "Turn" [3] [4] true, .apply 0, .applyReply 0 (some [1]), .endCommit 0,
    .commit 2 0 "Nothing" [] [] true, .pushReply 0 true, .granted 1, .finish 0,
    .beginReply 1 true, .apply 1, .applyReply 1 none, .raise 1, .dropReply 1 true]

theorem own_end_in_turn :
    ∃ s, run (step onBoard) State.new inTurn = some s ∧
      (.committed 0 ∈ s.log ∧ .rejected 1 ∈ s.log ∧ .closed 2 ∈ s.log) ∧ OwnEnd s :=
  ⟨_, rfl, by decide, own_end onBoard inTurn (by decide) rfl⟩

/-- An empty transaction is committed while the ops of another one are on their way. -/
def stolenRun : List (Action ℕ) :=
  [.edit 0, .commit 0 0 "Move" [1] [2] true, .granted 0, .beginReply 0 true, .apply 0,
    .commit 1 0 "Nothing" [] [] true, .dropReply 1 true, .applyReply 0 (some [1]), .endCommit 0,
    .finish 0]

def stolen : State ℕ := (run (step onBoard) State.new stolenRun).getD State.new

/-- **An empty commit drops the commit of another transaction**, whose own `commit()` resolves
all the same. -/
theorem commit_stolen :
    run (step onBoard) State.new stolenRun = some stolen ∧
      .committed 0 ∈ stolen.log ∧ .ended 1 0 false ∈ stolen.log ∧ .pushed 0 ∉ stolen.log ∧
      ¬ OwnEnd stolen :=
  ⟨rfl, by decide, by decide, by decide,
    fun h => absurd (h.own 1 0 false (by decide)) (by decide)⟩

end FabPcb.CommitOwnership
