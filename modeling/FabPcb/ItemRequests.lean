import FabPcb.CommitRun

/-!
The item requests of a commit and its first `EndCommit`.

Ops are conserved: what calls queued was sent, rejected, or is still pending. So nothing is
sent after an `EndCommit` if nothing is pending when it is sent and no call gets past the
flags later.
-/

namespace FabPcb.ItemRequests

open OrderedMap Document Errors CommitOps Runs
open CommitRun

variable {P : Type*} {cfg : Config P} {s s' : State P}

/-! ### Ops of a commit -/

/-- The ops calls queued. -/
def Event.queued : Event P → List (Op P)
  | .accepted ops => ops
  | _ => []

/-- The ops sent, or rejected before they were. -/
def Event.handled : Event P → List (Op P)
  | .request batch => batch
  | .unsent batch => batch
  | _ => []

def Event.isEnd : Event P → Prop
  | .endCommit _ _ => True
  | _ => False

def queued (log : List (Event P)) : List (Op P) := log.flatMap Event.queued

def handled (log : List (Event P)) : List (Op P) := log.flatMap Event.handled

/-- The ops that wait: those a flush prepares, and those in the queue. -/
def pending (s : State P) : List (Op P) :=
  (match s.flushing with
    | some (.preparing batch) => batch
    | _ => []) ++ s.queue

/-- An `EndCommit` was sent. -/
def Over (log : List (Event P)) : Prop := ∃ e ∈ log, Event.isEnd e

@[simp] lemma queued_append (l l' : List (Event P)) : queued (l ++ l') = queued l ++ queued l' :=
  List.flatMap_append

@[simp] lemma handled_append (l l' : List (Event P)) :
    handled (l ++ l') = handled l ++ handled l' :=
  List.flatMap_append

/-- At every `EndCommit` each op queued was sent or rejected, and from then on none is sent
and none queued. -/
def Closed (log : List (Event P)) : Prop :=
  ∀ before n action after, log = before ++ .endCommit n action :: after →
    queued before = handled before ∧ (∀ batch, .request batch ∉ after) ∧ queued after = []

/-! ### What a step does to them -/

/-- A state whose flush prepares no empty batch. -/
def Prepares (s : State P) : Prop := ∀ batch, s.flushing = some (.preparing batch) → batch ≠ []

/-- What a step adds to the log: ops are conserved, only batches with ops are sent, only calls
queue ops, and only the finalizers above send an `EndCommit`. -/
structure Adds (cfg : Config P) (s : State P) (a : Action P) (s' : State P)
    (es : List (Event P)) : Prop where
  log : s'.log = s.log ++ es
  conserved : pending s ++ queued es = handled es ++ pending s'
  batches : ∀ batch, .request batch ∈ es → batch ≠ []
  prepares : Prepares s'
  calls : queued es ≠ [] → ∃ c, a = .call c ∧ c.ops cfg.codec cfg.scope ≠ [] ∧
    s.ended = false ∧ s.finalizing = false
  ends : ∀ e ∈ es, Event.isEnd e → es = [e] ∧ ∃ n, a = .resume n ∧ sendsEnd cfg.id s n = true

lemma takeBatch_eq {queue batch rest : List (Op P)} (h : takeBatch queue = some (batch, rest)) :
    queue = batch ++ rest ∧ batch ≠ [] := by
  cases queue with
  | nil => cases h
  | cons first queue =>
    cases h
    exact ⟨by simp [List.takeWhile_append_dropWhile], by simp⟩

lemma turn_adds (s : State P) : ∃ es, s.turn.log = s.log ++ es ∧
    s.queue = handled es ++ pending s.turn ∧ (∀ batch, .request batch ∈ es → batch ≠ []) ∧
    Prepares s.turn ∧ (∀ e ∈ es, ¬ Event.isEnd e) ∧ queued es = [] := by
  unfold State.turn
  cases hb : takeBatch s.queue with
  | none => exact ⟨[], by simp, rfl, by simp, fun batch h => by simp at h, by simp, rfl⟩
  | some taken =>
    obtain ⟨batch, rest⟩ := taken
    obtain ⟨hq, hne⟩ := takeBatch_eq hb
    simp only
    split_ifs with hk
    · refine ⟨[], by simp, hq, by simp, fun b h => ?_, by simp, rfl⟩
      cases h
      exact hne
    · refine ⟨[.request batch], rfl, ?_, fun b h => ?_, fun b h => ?_, fun e he => ?_, rfl⟩
      · simp [handled, pending, hq, State.send, Event.handled]
      · cases List.mem_singleton.mp h
        exact hne
      · simp [State.send] at h
      · cases List.mem_singleton.mp he
        exact fun h => h

lemma adds_of_turn {a : Action P} (es : List (Event P)) (t : State P)
    (hlog : t.log = s.log ++ es) (hpending : pending s = handled es ++ t.queue)
    (hqueued : queued es = [])
    (hrequests : ∀ batch, .request batch ∉ es) (hends : ∀ e ∈ es, ¬ Event.isEnd e) :
    ∃ es, Adds cfg s a t.turn es := by
  obtain ⟨es', hlog', hqueue, hbatches, hprepares, hends', hqueued'⟩ := turn_adds t
  refine ⟨es ++ es', by rw [hlog', hlog, List.append_assoc], ?_, fun batch hb => ?_, hprepares,
    fun h => absurd ?_ h, fun e he hend => ?_⟩
  · rw [queued_append, hqueued, hqueued', hpending, hqueue]
    simp
  · exact (List.mem_append.mp hb).elim (fun h => absurd h (hrequests batch)) (hbatches batch)
  · rw [queued_append, hqueued, hqueued', List.append_nil]
  · rcases List.mem_append.mp he with h | h
    · exact absurd hend (hends e h)
    · exact absurd hend (hends' e h)

/-- The steps of calls and of the flush. -/
lemma items_adds {a : Action P} (ha : a.ofItems) (hs : Prepares s) (h : step cfg s a = some s') :
    ∃ es, Adds cfg s a s' es := by
  cases a with
  | call c =>
    cases h
    unfold State.call
    split_ifs with hflags
    · refine ⟨[.refused], rfl, ?_, by simp, hs, fun h => absurd rfl h, by simp [Event.isEnd]⟩
      exact List.append_nil _
    · rw [not_or, Bool.not_eq_true, Bool.not_eq_true] at hflags
      refine ⟨[.accepted (c.ops cfg.codec cfg.scope)], rfl, ?_, by simp, hs, fun h => ?_,
        by simp [Event.isEnd]⟩
      · simp [pending, queued, handled, Event.queued, Event.handled]
      · exact ⟨c, rfl, by simpa [queued, Event.queued] using h, hflags⟩
  | microtask =>
    simp only [step] at h
    split_ifs at h
    split at h
    · cases h
      exact ⟨[], by simp, List.append_nil _, by simp, hs, fun h => absurd rfl h, by simp⟩
    · rename_i hf
      cases h
      exact adds_of_turn [] _ (by simp) (by simp [pending, hf, handled]) rfl (by simp)
        (by simp)
  | prepared ok =>
    simp only [step] at h
    split at h
    · rename_i batch hf
      split_ifs at h
      · cases h
        refine ⟨[.request batch], rfl, ?_, fun b hb => ?_, fun b hb => ?_, fun h => absurd rfl h,
          by simp [Event.isEnd]⟩
        · simp [pending, hf, State.send, queued, handled, Event.queued, Event.handled]
        · cases List.mem_singleton.mp hb
          exact hs batch hf
        · cases hb
      · cases h
        exact adds_of_turn [.unsent batch] _ rfl
          (by simp [pending, hf, State.say, handled, Event.handled]) rfl (by simp)
          (by simp [Event.isEnd])
    · cases h
  | answered =>
    simp only [step] at h
    split at h
    · rename_i hf
      cases h
      exact adds_of_turn [] _ (by simp) (by simp [pending, hf, handled]) rfl (by simp)
        (by simp)
    · cases h
  | settled =>
    simp only [step] at h
    split at h
    · rename_i hf
      cases h
      refine ⟨[], by simp, ?_, by simp, fun b hb => (by cases hb), fun h => absurd rfl h,
        by simp⟩
      simp [pending, hf, queued, handled]
    · cases h
  | _ => exact ha.elim

lemma adds_of_frame {a : Action P} (es : List (Event P)) (hs : Prepares s)
    (hqueue : s'.queue = s.queue) (hflushing : s'.flushing = s.flushing)
    (hlog : s'.log = s.log ++ es) (hes : ∀ e ∈ es, ¬ e.isItem)
    (hends : ∀ e ∈ es, Event.isEnd e → es = [e] ∧ ∃ n, a = .resume n ∧ sendsEnd cfg.id s n = true) :
    ∃ es, Adds cfg s a s' es := by
  have hqueued : queued es = [] := by
    refine List.flatMap_eq_nil_iff.mpr fun e he => ?_
    cases e <;> first | rfl | exact absurd trivial (hes _ he)
  have hhandled : handled es = [] := by
    refine List.flatMap_eq_nil_iff.mpr fun e he => ?_
    cases e <;> first | rfl | exact absurd trivial (hes _ he)
  refine ⟨es, hlog, ?_, fun batch hb => absurd trivial (hes _ hb),
    fun batch hb => hs batch (hflushing ▸ hb), fun h => absurd hqueued h, hends⟩
  rw [hqueued, hhandled]
  simp [pending, hqueue, hflushing]

/-- What any step adds to the log. -/
lemma step_adds {a : Action P} (hs : Prepares s) (h : step cfg s a = some s') :
    ∃ es, Adds cfg s a s' es := by
  cases step_effect h with
  | items ha => exact items_adds ha hs h
  | move n pc => exact adds_of_frame [] hs rfl rfl (by simp [State.goto]) (by simp) (by simp)
  | ignore n =>
    exact adds_of_frame [.ignored n] hs rfl rfl rfl (by simp [Event.isItem])
      (by simp [Event.isEnd])
  | quit n e he =>
    refine adds_of_frame [e] hs rfl rfl rfl ?_ ?_ <;>
      rcases he with rfl | ⟨error, rfl⟩ <;> simp [Event.isItem, Event.isEnd]
  | commit n hn hended hfinalizing hid =>
    refine adds_of_frame [.endCommit n .CMA_COMMIT] hs rfl rfl rfl (by simp [Event.isItem])
      fun e he _ => ⟨by rw [List.mem_singleton.mp he], n, rfl, ?_⟩
    simp [sendsEnd, hn, hended, hfinalizing, hid]
  | drop n hn hended hid =>
    refine adds_of_frame [.endCommit n .CMA_DROP] hs rfl rfl rfl (by simp [Event.isItem])
      fun e he _ => ⟨by rw [List.mem_singleton.mp he], n, rfl, ?_⟩
    simp [sendsEnd, hn, hended, hid]
  | recover n byPush cause hn hid =>
    refine adds_of_frame [.endCommit n .CMA_DROP] hs rfl rfl rfl (by simp [Event.isItem])
      fun e he _ => ⟨by rw [List.mem_singleton.mp he], n, rfl, ?_⟩
    simp [sendsEnd, hn, hid]
  | finish n pc e hn hdone he =>
    refine adds_of_frame [.ended, e] hs rfl rfl rfl ?_ ?_ <;>
      rcases he with (rfl | ⟨error, rfl⟩) | ⟨rfl, -⟩ <;> simp [Event.isItem, Event.isEnd]

/-! ### The condition -/

/-- Nothing is pending when an `EndCommit` is sent, and after one no call queues an op. -/
def Safe (cfg : Config P) (s : State P) : Action P → Prop
  | .call c =>
    c.ops cfg.codec cfg.scope ≠ [] → Over s.log → s.ended = true ∨ s.finalizing = true
  | .resume n => sendsEnd cfg.id s n = true → pending s = []
  | _ => True

/-- The invariant: ops are conserved, and over a commit nothing is pending. -/
structure Inv (s : State P) : Prop where
  conserved : queued s.log = handled s.log ++ pending s
  quiet : Over s.log → pending s = []
  closed : Closed s.log
  prepares : Prepares s

lemma inv_new : Inv (State.new : State P) := by
  refine ⟨rfl, fun h => rfl, fun before n action after h => ?_, fun batch h => by cases h⟩
  cases before <;> cases h

/-- Closed logs grow by what is not seen of items, and by an `EndCommit` when all is handled. -/
lemma closed_append {log es : List (Event P)} (h : Closed log)
    (hover : Over log → queued es = [] ∧ ∀ batch, .request batch ∉ es)
    (hends : ∀ e ∈ es, Event.isEnd e → es = [e] ∧ queued log = handled log) :
    Closed (log ++ es) := by
  intro before n action after heq
  rcases List.append_eq_append_iff.mp heq with ⟨rest, hbefore, hes⟩ | ⟨rest, hlog, hafter⟩
  · -- the `EndCommit` is new
    obtain ⟨hsingle, hhandled⟩ := hends (.endCommit n action) (by simp [hes]) trivial
    rw [hsingle] at hes
    obtain ⟨rfl, rfl⟩ : rest = [] ∧ after = [] := by
      cases rest with
      | nil => exact ⟨rfl, by simpa using hes⟩
      | cons e rest => simp at hes
    rw [List.append_nil] at hbefore
    exact ⟨hbefore ▸ hhandled, by simp, rfl⟩
  · cases rest with
    | nil =>
      -- the `EndCommit` is new, at the very start of what is added
      rw [List.nil_append] at hafter
      obtain ⟨hsingle, hhandled⟩ := hends (.endCommit n action) (hafter ▸ by simp) trivial
      rw [hsingle] at hafter
      obtain rfl : after = [] := by simpa using hafter
      rw [List.append_nil] at hlog
      exact ⟨hlog ▸ hhandled, by simp, rfl⟩
    | cons e rest =>
      rw [List.cons_append] at hafter
      obtain ⟨rfl, rfl⟩ := hafter
      obtain ⟨hbefore, hrequests, hqueued⟩ := h before n action rest hlog
      obtain ⟨hes, hes'⟩ := hover ⟨.endCommit n action, by simp [hlog], trivial⟩
      refine ⟨hbefore, fun batch hb => ?_, by rw [queued_append, hqueued, hes, List.append_nil]⟩
      exact (List.mem_append.mp hb).elim (hrequests batch) (hes' batch)

lemma request_notMem {es : List (Event P)} (hhandled : handled es = [])
    (hbatches : ∀ batch, .request batch ∈ es → batch ≠ []) (batch : List (Op P)) :
    .request batch ∉ es := by
  intro hb
  exact hbatches batch hb (List.flatMap_eq_nil_iff.mp hhandled _ hb)

/-- **Step.** -/
lemma inv_step {a : Action P} (h : Inv s) (hsafe : Safe cfg s a) (hstep : step cfg s a = some s') :
    Inv s' := by
  obtain ⟨es, hes⟩ := step_adds h.prepares hstep
  have hover : Over s.log → queued es = [] ∧ handled es = [] ∧ pending s' = [] := by
    intro ho
    have hq : queued es = [] := by
      by_contra hq
      obtain ⟨c, rfl, hc, hended, hfinalizing⟩ := hes.calls hq
      rcases hsafe hc ho with h' | h'
      · simp [hended] at h'
      · simp [hfinalizing] at h'
    have hc := hes.conserved
    rw [h.quiet ho, hq] at hc
    exact ⟨hq, List.append_eq_nil_iff.mp hc.symm⟩
  have hends : ∀ e ∈ es, Event.isEnd e → es = [e] ∧ pending s = [] := by
    intro e he hend
    obtain ⟨hsingle, n, rfl, hsends⟩ := hes.ends e he hend
    exact ⟨hsingle, hsafe hsends⟩
  have hconserved : queued s'.log = handled s'.log ++ pending s' := by
    rw [hes.log, queued_append, handled_append, h.conserved, List.append_assoc, hes.conserved,
      List.append_assoc]
  refine ⟨hconserved, fun ho => ?_, ?_, hes.prepares⟩
  · rw [hes.log] at ho
    obtain ⟨e, he, hend⟩ := ho
    rcases List.mem_append.mp he with he | he
    · exact (hover ⟨e, he, hend⟩).2.2
    · -- an `EndCommit` moves no op
      obtain ⟨hsingle, hp⟩ := hends e he hend
      have hc := hes.conserved
      rw [hsingle, hp] at hc
      cases e <;> first | exact hend.elim | exact hc.symm
  · rw [hes.log]
    refine closed_append h.closed (fun ho => ?_) fun e he hend => ?_
    · obtain ⟨hq, hh, -⟩ := hover ho
      exact ⟨hq, request_notMem hh hes.batches⟩
    · obtain ⟨hsingle, hp⟩ := hends e he hend
      exact ⟨hsingle, by rw [h.conserved, hp, List.append_nil]⟩

/-! ### Runs -/

/-- **No item request after the end.** Along any run whose steps all meet the condition, no
request is sent after an `EndCommit`, and no op is left unsent at one: each was sent or
rejected before, and calls after it are rejected. -/
theorem requests_before_end (cfg : Config P) (actions : List (Action P))
    (hsafe : Along (step cfg) (Safe cfg) State.new actions)
    (hrun : run (step cfg) State.new actions = some s) : Closed s.log :=
  (invariant_along Inv (fun _ _ _ h hok hs => inv_step h hok hs) inv_new hsafe hrun).closed

/-! ### Deleting a track -/

/-- Deleting the track by its KIID. -/
def deleteTrack : ItemCall Unit := .delete [.kiid "t"] none

/-- The call is answered, and then the commit pushed: its request comes before the end. -/
theorem requests_before_end_pushed :
    ∃ s, run (step boardCommit) State.new [.call deleteTrack, .microtask, .push 1, .answered,
        .settled, .drained 1, .resume 1, .endReply 1 (.ok ())] = some s ∧ Closed s.log := by
  refine ⟨_, rfl, requests_before_end boardCommit [.call deleteTrack, .microtask, .push 1,
    .answered, .settled, .drained 1, .resume 1, .endReply 1 (.ok ())] ?_ rfl⟩
  refine along_cons rfl (fun _ h => ?_) (along_cons rfl trivial (along_cons rfl trivial
    (along_cons rfl trivial (along_cons rfl trivial (along_cons rfl trivial
      (along_cons rfl (fun _ => rfl) (along_cons rfl trivial trivial)))))))
  obtain ⟨e, he, -⟩ := h
  cases he

/-- While `drop()` awaits its `EndCommit` no flag is set: a call gets past `enqueue`, and its
request is sent after the drop. -/
theorem request_after_drop :
    ∃ s before batch, run (step boardCommit) State.new [.drop 1, .drained 1, .resume 1,
        .call deleteTrack, .microtask] = some s ∧
      s.log = before ++ [.endCommit 1 .CMA_DROP, .accepted batch, .request batch] ∧
      batch ≠ [] ∧ ¬ Closed s.log := by
  refine ⟨_, [], deleteTrack.ops boardCommit.codec boardCommit.scope, rfl, rfl, by decide,
    fun h => ?_⟩
  obtain ⟨-, hrequests, -⟩ := h [] 1 .CMA_DROP _ rfl
  exact hrequests _ (List.mem_cons_of_mem _ List.mem_cons_self)

end FabPcb.ItemRequests
