import FabPcb.Alignment

/-!
The microtasks of a commit: `scheduleFlush`, `flush` and the `finally` behind it.

The tasks of a commit run in the order they were queued in, with tasks of others anywhere between
them, so a call may come at any time. The window is one task wide: the flush has found the queue
empty, and the task that clears `flushing` has not run yet.

A call on a commit that has ended or is finalizing is refused and queues nothing.
-/

namespace FabPcb.FlushWakeup

open Document Errors CommitOps CallRows FabPcb.Alignment Runs

variable {P R : Type}

inductive Task (R : Type)
  /-- The microtask of `scheduleFlush`. -/
  | wake
  /-- The flush goes on behind `await this.execute(merged)`. -/
  | resume (r : Except ClientError (List R))
  /-- The `finally`: `flushing` is null again. -/
  | clear

/-- What `flushing` stands for while it is not null. -/
inductive Flushing (P : Type)
  | executing (batch : List (Op P))
  | answered (batch : List (Op P))
  /-- The loop has come to its end. -/
  | finished

structure State (P R : Type) where
  queue : List (Op P) := []
  scheduled : Bool := false
  flushing : Option (Flushing P) := none
  tasks : List (Task R) := []
  /-- The ops queued so far, and the batches that requests were made for. -/
  enqueued : List (Op P) := []
  sent : List (List (Op P)) := []
  settled : List (Op P × Except ClientError (List R)) := []

/-- What the promises of a batch settle with. -/
def outcomes (batch : List (Op P)) :
    Except ClientError (List R) → List (Op P × Except ClientError (List R))
  | .ok results => batch.zip ((splitResults batch results).map .ok)
  | .error e => batch.map fun op => (op, .error e)

namespace State

variable (s : State P R)

def push (ops : List (Op P)) : State P R :=
  { s with queue := s.queue ++ ops, enqueued := s.enqueued ++ ops }

def scheduleFlush : State P R :=
  if s.scheduled then s else { s with scheduled := true, tasks := s.tasks ++ [.wake] }

/-- A turn of the loop of `flush`, up to the `await`. -/
def turn : State P R :=
  match takeBatch s.queue with
  | none => { s with flushing := some .finished, tasks := s.tasks ++ [.clear] }
  | some (batch, queue) =>
    { s with
      queue := queue
      flushing := some (.executing batch)
      sent := s.sent ++ [batch] }

def wake : State P R :=
  let s' := { s with scheduled := false }
  if s.flushing.isSome then s' else s'.turn

def settle (batch : List (Op P)) (r : Except ClientError (List R)) : State P R :=
  { s with settled := s.settled ++ outcomes batch r }

def tick : Option (State P R) :=
  match s.tasks with
  | [] => none
  | .wake :: tasks => some (State.wake { s with tasks := tasks })
  | .resume r :: tasks =>
    match s.flushing with
    | some (.answered batch) => some (State.settle { s with tasks := tasks } batch r).turn
    | _ => none
  | .clear :: tasks => some { s with tasks := tasks, flushing := none }

/-- The promise of `execute` settles. -/
def answer (r : Except ClientError (List R)) : Option (State P R) :=
  match s.flushing with
  | some (.executing batch) =>
    some { s with flushing := some (.answered batch), tasks := s.tasks ++ [.resume r] }
  | _ => none

end State

/-- The ops a call has queued when `toAny` throws for its `i`-th item: that item is a wrapper of
its op already. -/
def leftOver (codec : Codec P) (base : ItemScope) (c : ItemCall P) (i : ℕ) : List (Op P) :=
  let all := callEntries codec base c
  let last := all[i]?.toList.map fun (e : Op P) => { e with anys := [], ids := [] }
  (all.take i ++ last).foldl pushInto []

inductive Event (P R : Type)
  | call (c : ItemCall P)
  | throws (c : ItemCall P) (i : ℕ)
  | answer (r : Except ClientError (List R))
  | tick

def step (codec : Codec P) (base : ItemScope) (s : State P R) : Event P R → Option (State P R)
  | .call c => some (s.push (c.ops codec base)).scheduleFlush
  | .throws c i =>
    if callKind c = .delete ∨ (callEntries codec base c).length ≤ i then none
    else some (s.push (leftOver codec base c i))
  | .answer r => s.answer r
  | .tick => s.tick

/-! ### What is wanted -/

structure Flushed (s : State P R) : Prop where
  /-- With no task pending and no flush running, all is done. -/
  idle : s.tasks = [] → s.flushing = none →
    s.queue = [] ∧ s.settled.map Prod.fst = s.enqueued
  /-- The requests take the ops in their order. -/
  order : s.sent.flatten ++ s.queue = s.enqueued
  shared : ∀ batch ∈ s.sent, ∀ x ∈ batch, ∀ y ∈ batch,
    x.kind = y.kind ∧ target x.scope = target y.scope

/-! ### What must not happen -/

def Task.isWake : Task R → Bool
  | .wake => true
  | .resume _ | .clear => false

def Flushing.isOver : Flushing P → Bool
  | .finished => true
  | .executing _ | .answered _ => false

/-- A wake is pending that will find `flushing` set, but no flush. -/
def Passing (s : State P R) : Prop :=
  s.flushing.any (·.isOver) = true ∧ s.tasks.head?.any (·.isWake) = true

instance (s : State P R) : Decidable (Passing s) := by unfold Passing; infer_instance

/-- Someone will look at the queue. -/
def Watched (s : State P R) : Prop :=
  s.flushing.any (!·.isOver) = true ∨ s.scheduled = true ∧ ¬ Passing s

instance (s : State P R) : Decidable (Watched s) := by unfold Watched; infer_instance

/-- The task at the front takes a batch. -/
def takes (s : State P R) : Bool :=
  match s.tasks.head? with
  | some .wake => s.flushing.isNone
  | some (.resume _) => true
  | some .clear | none => false

/-- The ops that would be taken together are aimed at one target. -/
def OneTarget (queue : List (Op P)) : Prop :=
  ∀ first ∈ queue.head?, ∀ op ∈ queue.takeWhile (·.key = first.key),
    target op.scope = target first.scope

instance (queue : List (Op P)) : Decidable (OneTarget queue) := by
  unfold OneTarget; infer_instance

def Minded (codec : Codec P) (base : ItemScope) (s : State P R) : Event P R → Prop
  | .call c => c.ops codec base ≠ [] → ¬ Passing s
  | .throws _ _ => Watched s
  | .answer _ => True
  | .tick => takes s = true → OneTarget s.queue

instance [DecidableEq P] (codec : Codec P) (base : ItemScope) (s : State P R) (e : Event P R) :
    Decidable (Minded codec base s e) := by
  unfold Minded; cases e <;> infer_instance

/-! ### Keys -/

/-- The key of an op says its kind and its scope. -/
def Keyed (op : Op P) : Prop := op.key = op.kind.name ++ "|" ++ scopeKey op.scope

lemma keyed_pushInto {groups : List (Op P)} {new : Op P} (hgroups : ∀ op ∈ groups, Keyed op)
    (hnew : Keyed new) : ∀ op ∈ pushInto groups new, Keyed op := by
  intro op hop
  rw [pushInto] at hop
  split_ifs at hop
  · obtain ⟨op', hop', rfl⟩ := List.mem_map.mp hop
    split_ifs
    · exact hgroups op' hop'
    · exact hgroups op' hop'
  · rcases List.mem_append.mp hop with hop | hop
    · exact hgroups op hop
    · exact List.mem_singleton.mp hop ▸ hnew

lemma keyed_foldl {entries groups : List (Op P)} (hentries : ∀ op ∈ entries, Keyed op)
    (hgroups : ∀ op ∈ groups, Keyed op) : ∀ op ∈ entries.foldl pushInto groups, Keyed op := by
  induction entries generalizing groups with
  | nil => exact hgroups
  | cons e entries ih =>
    exact ih (fun op hop => hentries op (List.mem_cons_of_mem _ hop))
      (keyed_pushInto hgroups (hentries e List.mem_cons_self))

lemma keyed_entries {codec : Codec P} {base : ItemScope} {c : ItemCall P} {e : Op P}
    (he : e ∈ callEntries codec base c) : Keyed e := by
  cases c <;> obtain ⟨_, -, rfl⟩ := List.mem_map.mp he <;> exact rfl

lemma keyed_ops {codec : Codec P} {base : ItemScope} {c : ItemCall P} :
    ∀ op ∈ c.ops codec base, Keyed op := by
  have hfold := @keyed_foldl P (callEntries codec base c) [] (fun _ => keyed_entries)
    (fun _ h => absurd h List.not_mem_nil)
  cases c <;> exact hfold

lemma keyed_leftOver {codec : Codec P} {base : ItemScope} {c : ItemCall P} {i : ℕ} :
    ∀ op ∈ leftOver codec base c i, Keyed op := by
  refine keyed_foldl (fun op hop => ?_) (fun _ h => absurd h List.not_mem_nil)
  rcases List.mem_append.mp hop with hop | hop
  · exact keyed_entries (List.mem_of_mem_take hop)
  · obtain ⟨e, he, rfl⟩ := List.mem_map.mp hop
    have hkeyed : Keyed e := keyed_entries (List.mem_of_getElem? (Option.mem_toList.mp he))
    exact hkeyed

/-! ### What holds -/

/-- The tasks of the flush itself. -/
def Own : Option (Flushing P) → List (Task R) → Prop
  | none, l | some (.executing _), l => l = []
  | some (.answered _), l => ∃ r, l = [.resume r]
  | some .finished, l => l = [.clear]

/-- The wake that is pending stands ahead of them or behind. -/
def Placed (s : State P R) : Prop :=
  ∃ own, Own s.flushing own ∧ ((s.scheduled = false ∧ s.tasks = own) ∨
    s.scheduled = true ∧ (s.tasks = .wake :: own ∨ s.tasks = own ++ [.wake]))

/-- The ops whose promises wait for a reply. -/
def inFlight : Option (Flushing P) → List (Op P)
  | some (.executing batch) | some (.answered batch) => batch
  | some .finished | none => []

structure Inv (s : State P R) : Prop where
  placed : Placed s
  watched : s.queue ≠ [] → Watched s
  keyed : ∀ op ∈ s.queue, Keyed op
  order : s.sent.flatten ++ s.queue = s.enqueued
  shared : ∀ batch ∈ s.sent, ∀ x ∈ batch, ∀ y ∈ batch,
    x.kind = y.kind ∧ target x.scope = target y.scope
  settled : s.settled.map Prod.fst ++ inFlight s.flushing = s.sent.flatten

variable {codec : Codec P} {base : ItemScope} {s s' : State P R}

/-- Before a turn of the loop: no task is the flush's own, and no op is in flight. -/
structure Ready (s : State P R) : Prop where
  tasks : s.scheduled = false ∧ s.tasks = [] ∨ s.scheduled = true ∧ s.tasks = [.wake]
  keyed : ∀ op ∈ s.queue, Keyed op
  order : s.sent.flatten ++ s.queue = s.enqueued
  shared : ∀ batch ∈ s.sent, ∀ x ∈ batch, ∀ y ∈ batch,
    x.kind = y.kind ∧ target x.scope = target y.scope
  settled : s.settled.map Prod.fst = s.sent.flatten

lemma kind_of_keyed {x y : Op P} (hx : Keyed x) (hy : Keyed y) (h : x.key = y.key) :
    x.kind = y.kind := by
  rw [hx, hy, String.append_assoc, String.append_assoc] at h
  exact kind_of_key (by rwa [String.append_assoc, String.append_assoc])

/-- A turn of the loop takes the batch at the front, or ends the flush with the queue empty. -/
lemma inv_turn (h : Ready s) (hone : OneTarget s.queue) : Inv s.turn := by
  rw [State.turn]
  cases hqueue : s.queue with
  | nil =>
    rw [takeBatch]
    refine ⟨⟨[.clear], rfl, ?_⟩, fun hne => absurd rfl hne, ?_, ?_, h.shared, ?_⟩
    · rcases h.tasks with ⟨hscheduled, htasks⟩ | ⟨hscheduled, htasks⟩
      · exact .inl ⟨hscheduled, by simp [htasks]⟩
      · exact .inr ⟨hscheduled, .inl (by simp [htasks])⟩
    · simp
    · rw [← h.order, hqueue]
    · simpa [inFlight] using h.settled
  | cons first rest =>
    have hbatch : ∀ op ∈ first :: rest.takeWhile (·.key = first.key),
        op ∈ s.queue ∧ op.key = first.key ∧ target op.scope = target first.scope := by
      intro op hop
      have hmem : op ∈ s.queue.takeWhile (·.key = first.key) := by
        rw [hqueue, List.takeWhile_cons_of_pos (by simp)]
        exact hop
      refine ⟨List.takeWhile_subset _ hmem, ?_, hone first (by simp [hqueue]) op hmem⟩
      simpa using List.mem_takeWhile_imp hmem
    rw [takeBatch]
    refine ⟨⟨[], rfl, ?_⟩, fun _ => .inl rfl, ?_, ?_, ?_, ?_⟩
    · rcases h.tasks with ⟨hscheduled, htasks⟩ | ⟨hscheduled, htasks⟩
      · exact .inl ⟨hscheduled, htasks⟩
      · exact .inr ⟨hscheduled, .inl htasks⟩
    · intro op hop
      refine h.keyed op ?_
      rw [hqueue]
      exact List.mem_cons_of_mem _ ((List.dropWhile_suffix _).subset hop)
    · rw [← h.order, hqueue]
      simp [List.takeWhile_append_dropWhile]
    · intro batch hbatch' x hx y hy
      rcases List.mem_append.mp hbatch' with hbatch' | hbatch'
      · exact h.shared batch hbatch' x hx y hy
      · obtain rfl := List.mem_singleton.mp hbatch'
        obtain ⟨hxq, hxkey, hxt⟩ := hbatch x hx
        obtain ⟨hyq, hykey, hyt⟩ := hbatch y hy
        exact ⟨kind_of_keyed (h.keyed x hxq) (h.keyed y hyq) (hxkey.trans hykey.symm),
          hxt.trans hyt.symm⟩
    · simpa [inFlight] using h.settled

lemma settle_fst (batch : List (Op P)) (r : Except ClientError (List R)) :
    (s.settle batch r).settled.map Prod.fst = s.settled.map Prod.fst ++ batch := by
  rw [State.settle, List.map_append]
  congr 1
  cases r with
  | error e =>
    rw [outcomes, List.map_map]
    exact List.map_id _
  | ok results =>
    refine List.map_fst_zip ?_
    rw [List.length_map, splitResults, Flush.length_slices, List.length_map]

lemma inv_tick (h : Inv s) (hone : takes s = true → OneTarget s.queue)
    (hstep : s.tick = some s') : Inv s' := by
  obtain ⟨own, hown, hplaced⟩ := h.placed
  rw [State.tick] at hstep
  rw [takes] at hone
  cases hflushing : s.flushing with
  | none =>
    rw [hflushing] at hown hstep hone
    obtain rfl : own = [] := hown
    have htasks : s.scheduled = true ∧ s.tasks = [.wake] := by
      rcases hplaced with ⟨-, htasks⟩ | ⟨hscheduled, htasks | htasks⟩
      · rw [htasks] at hstep
        exact absurd hstep (by simp)
      · exact ⟨hscheduled, htasks⟩
      · exact ⟨hscheduled, htasks⟩
    rw [htasks.2] at hstep hone
    rw [← Option.some.inj hstep]
    refine inv_turn ⟨.inl ⟨rfl, rfl⟩, h.keyed, h.order, h.shared, ?_⟩ (hone rfl)
    simpa [inFlight, hflushing] using h.settled
  | some f =>
    rw [hflushing] at hown hstep hone
    cases f with
    | executing batch =>
      obtain rfl : own = [] := hown
      have htasks : s.tasks = [.wake] := by
        rcases hplaced with ⟨-, htasks⟩ | ⟨-, htasks | htasks⟩
        · rw [htasks] at hstep
          exact absurd hstep (by simp)
        · exact htasks
        · exact htasks
      rw [htasks] at hstep
      rw [← Option.some.inj hstep, State.wake]
      simp only [Option.isSome_some, if_true]
      exact ⟨⟨[], rfl, .inl ⟨rfl, rfl⟩⟩, fun _ => .inl rfl, h.keyed, h.order, h.shared,
        hflushing ▸ h.settled⟩
    | answered batch =>
      obtain ⟨r, rfl⟩ := hown
      have hsettled : s.settled.map Prod.fst ++ batch = s.sent.flatten := by
        simpa [inFlight, hflushing] using h.settled
      rcases hplaced with ⟨hscheduled, htasks⟩ | ⟨hscheduled, htasks | htasks⟩
      · rw [htasks] at hstep hone
        rw [← Option.some.inj hstep]
        exact inv_turn ⟨.inl ⟨hscheduled, rfl⟩, h.keyed, h.order, h.shared,
          (settle_fst batch r).trans hsettled⟩ (hone rfl)
      · -- The wake finds the flush at work.
        rw [htasks] at hstep
        rw [← Option.some.inj hstep, State.wake]
        simp only [Option.isSome_some, if_true]
        exact ⟨⟨[.resume r], ⟨r, rfl⟩, .inl ⟨rfl, rfl⟩⟩, fun _ => .inl rfl, h.keyed, h.order,
          h.shared, hflushing ▸ h.settled⟩
      · rw [htasks] at hstep hone
        rw [← Option.some.inj hstep]
        exact inv_turn ⟨.inr ⟨hscheduled, rfl⟩, h.keyed, h.order, h.shared,
          (settle_fst batch r).trans hsettled⟩ (hone rfl)
    | finished =>
      obtain rfl : own = [.clear] := hown
      rcases hplaced with ⟨hscheduled, htasks⟩ | ⟨hscheduled, htasks | htasks⟩
      · -- Nobody is to come: the queue is empty.
        have hqueue : s.queue = [] := by
          by_contra hne
          rcases h.watched hne with hbusy | ⟨hwake, -⟩
          · rw [hflushing] at hbusy
            exact Bool.false_ne_true hbusy
          · rw [hscheduled] at hwake
            exact Bool.false_ne_true hwake
        rw [htasks] at hstep
        rw [← Option.some.inj hstep]
        refine ⟨⟨[], rfl, .inl ⟨hscheduled, rfl⟩⟩, fun hne => absurd hqueue hne, h.keyed, h.order,
          h.shared, ?_⟩
        simpa [inFlight, hflushing] using h.settled
      · -- The wake passes by.
        have hqueue : s.queue = [] := by
          by_contra hne
          rcases h.watched hne with hbusy | ⟨-, hnot⟩
          · rw [hflushing] at hbusy
            exact Bool.false_ne_true hbusy
          · exact hnot ⟨by rw [hflushing]; rfl, by rw [htasks]; rfl⟩
        rw [htasks] at hstep
        rw [← Option.some.inj hstep, State.wake]
        simp only [Option.isSome_some, if_true]
        exact ⟨⟨[.clear], rfl, .inl ⟨rfl, rfl⟩⟩, fun hne => absurd hqueue hne, h.keyed, h.order,
          h.shared, hflushing ▸ h.settled⟩
      · rw [htasks] at hstep
        rw [← Option.some.inj hstep]
        refine ⟨⟨[], rfl, .inr ⟨hscheduled, .inl rfl⟩⟩, fun _ => .inr ⟨hscheduled, ?_⟩, h.keyed,
          h.order, h.shared, ?_⟩
        · rintro ⟨hover, -⟩
          exact Bool.false_ne_true hover
        · simpa [inFlight, hflushing] using h.settled

lemma inv_push (h : Inv s) {ops : List (Op P)} (hkeyed : ∀ op ∈ ops, Keyed op)
    (hwatched : ops ≠ [] → Watched s) : Inv (s.push ops) where
  placed := h.placed
  watched hne := by
    by_cases hops : ops = []
    · subst hops
      rw [State.push, List.append_nil] at hne
      exact h.watched hne
    · exact hwatched hops
  keyed op hop := (List.mem_append.mp hop).elim (h.keyed op) (hkeyed op)
  order := by
    rw [State.push]
    rw [← h.order, List.append_assoc]
  shared := h.shared
  settled := h.settled

lemma inv_scheduleFlush (h : Inv s) : Inv s.scheduleFlush := by
  rw [State.scheduleFlush]
  split_ifs with hscheduled
  · exact h
  · obtain ⟨own, hown, hplaced⟩ := h.placed
    have htasks : s.tasks = own := by
      rcases hplaced with ⟨-, htasks⟩ | ⟨hyes, -⟩
      · exact htasks
      · exact absurd hyes hscheduled
    refine ⟨⟨own, hown, .inr ⟨rfl, .inr (by rw [htasks])⟩⟩, fun hne => ?_, h.keyed, h.order,
      h.shared, h.settled⟩
    exact (h.watched hne).imp_right fun hwake => absurd hwake.1 hscheduled

lemma push_scheduleFlush (ops : List (Op P)) :
    (s.push ops).scheduleFlush = s.scheduleFlush.push ops := by
  rw [State.scheduleFlush, State.scheduleFlush]
  split_ifs with h h' h'
  · rfl
  · exact absurd h h'
  · exact absurd h' h
  · rfl

lemma watched_scheduleFlush (h : Inv s) (hnot : ¬ Passing s) : Watched s.scheduleFlush := by
  rw [State.scheduleFlush]
  split_ifs with hscheduled
  · exact .inr ⟨hscheduled, hnot⟩
  · obtain ⟨own, hown, hplaced⟩ := h.placed
    have htasks : s.tasks = own := by
      rcases hplaced with ⟨-, htasks⟩ | ⟨hyes, -⟩
      · exact htasks
      · exact absurd hyes hscheduled
    refine .inr ⟨rfl, ?_⟩
    rintro ⟨hover, hwake⟩
    cases hflushing : s.flushing with
    | none =>
      simp [hflushing] at hover
    | some f =>
      rw [hflushing] at hown hover
      cases f with
      | finished =>
        rw [htasks, show own = [.clear] from hown] at hwake
        exact Bool.false_ne_true hwake
      | executing _ | answered _ => exact Bool.false_ne_true hover

lemma inv_answer (h : Inv s) {r : Except ClientError (List R)} (hstep : s.answer r = some s') :
    Inv s' := by
  obtain ⟨own, hown, hplaced⟩ := h.placed
  rw [State.answer] at hstep
  cases hflushing : s.flushing with
  | none =>
    rw [hflushing] at hstep
    exact absurd hstep (by simp)
  | some f =>
    rw [hflushing] at hown hstep
    cases f with
    | executing batch =>
      obtain rfl : own = [] := hown
      rw [← Option.some.inj hstep]
      have hsettled := h.settled
      rw [hflushing] at hsettled
      refine ⟨⟨[.resume r], ⟨r, rfl⟩, ?_⟩, fun _ => .inl rfl, h.keyed, h.order, h.shared,
        hsettled⟩
      rcases hplaced with ⟨hscheduled, htasks⟩ | ⟨hscheduled, htasks | htasks⟩
      · exact .inl ⟨hscheduled, by simp [htasks]⟩
      · exact .inr ⟨hscheduled, .inl (by simp [htasks])⟩
      · exact .inr ⟨hscheduled, .inl (by simp [htasks])⟩
    | answered batch => exact absurd hstep (by simp)
    | finished => exact absurd hstep (by simp)

lemma inv_step (s : State P R) (e : Event P R) (s' : State P R) (h : Inv s)
    (hok : Minded codec base s e) (hstep : step codec base s e = some s') : Inv s' := by
  cases e with
  | call c =>
    rw [← Option.some.inj hstep, push_scheduleFlush]
    exact inv_push (inv_scheduleFlush h) keyed_ops fun hops =>
      watched_scheduleFlush h (hok hops)
  | throws c i =>
    rw [step] at hstep
    split_ifs at hstep
    rw [← Option.some.inj hstep]
    exact inv_push h keyed_leftOver fun _ => hok
  | answer r => exact inv_answer h hstep
  | tick => exact inv_tick h hok hstep

lemma inv_new : Inv ({} : State P R) where
  placed := ⟨[], rfl, .inl ⟨rfl, rfl⟩⟩
  watched h := absurd rfl h
  keyed _ h := absurd h List.not_mem_nil
  order := rfl
  shared _ h := absurd h List.not_mem_nil
  settled := rfl

lemma flushed_of_inv (h : Inv s) : Flushed s where
  idle htasks hflushing := by
    have hqueue : s.queue = [] := by
      by_contra hne
      rcases h.watched hne with hbusy | ⟨hscheduled, -⟩
      · rw [hflushing] at hbusy
        exact Bool.false_ne_true hbusy
      · obtain ⟨own, -, hplaced⟩ := h.placed
        rw [hscheduled, htasks] at hplaced
        simp at hplaced
    refine ⟨hqueue, ?_⟩
    have hsettled := h.settled
    rw [hflushing, inFlight, List.append_nil] at hsettled
    rw [hsettled, ← h.order, hqueue, List.append_nil]
  order := h.order
  shared := h.shared

/-- **No wakeup is lost**, along every run whose steps are minded: with no task pending and no flush
running the queue is empty and every promise has settled, the ops are sent in the order they were
queued in, and ops that share a request are of one kind and one scope. -/
theorem no_lost_wakeup (codec : Codec P) (base : ItemScope) (events : List (Event P R))
    {s : State P R} (hok : Along (step codec base) (Minded codec base) {} events)
    (hrun : run (step codec base) {} events = some s) : Flushed s :=
  flushed_of_inv (invariant_along Inv inv_step inv_new hok hrun)

/-! ### Runs -/

def deletion (id : String) : Event Unit Unit := .call (.delete [.kiid id] none)

/-- A deletion, one more while its request is answered, and what they wait for. -/
def twoDeletions : List (Event Unit Unit) :=
  [deletion "a", .tick, .answer (.ok [()]), deletion "b", .tick, .tick, .answer (.ok [()]), .tick,
    .tick]

theorem no_lost_wakeup_twoDeletions : ∃ s, run (step plainCodec {}) {} twoDeletions = some s ∧
    Flushed s :=
  ⟨_, rfl, no_lost_wakeup plainCodec {} twoDeletions (by decide +kernel) rfl⟩

/-- A call without items while the answer waits for its turn, and a deletion when the flush has
come to its end. -/
def passedBy : List (Event Unit Unit) :=
  [deletion "a", .tick, .answer (.ok [()]), .call (.create [] [] none), .tick, deletion "b", .tick,
    .tick]

/-- The wake passes the second deletion by: nothing is pending, and it is still queued. -/
theorem wakeup_lost : ¬ ∀ (codec : Codec Unit) (base : ItemScope)
    (events : List (Event Unit Unit)) (s : State Unit Unit),
    run (step codec base) {} events = some s → Flushed s := by
  intro h
  have hqueue := ((h plainCodec {} passedBy _ rfl).idle rfl rfl).1
  exact absurd (congrArg List.length hqueue) (by decide +kernel)

end FabPcb.FlushWakeup
