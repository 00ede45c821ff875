import Mathlib.Data.List.Nodup
import Mathlib.Logic.Function.Basic
import Mathlib.Logic.Relation

/-!
Sessions opened one at a time, under a lock that is handed on in the order it was asked for.

A process that wants a session joins the chain and opens it once it is the head. An open
session is found by its key alone, so any process may take it to end it; the lock is released
with the session that was taken, whoever took it. The moves below say no more than that, and
what they keep is what may be relied on: one session at a time, each ended once at most.
-/

namespace FabPcb.SessionLock

/-- Where a process stands: not started, in the chain, opening a session, using it, ending the
session of a process, or with nothing to do with sessions. -/
inductive Stage where
  | fresh | waiting | beginning | holding
  | ending (owner : ℕ)
  | idle
  deriving DecidableEq

/-- A process that holds no place in the chain for itself and is not ending a session. -/
def Stage.free : Stage → Bool
  | .fresh => true
  | .holding => true
  | .idle => true
  | _ => false

/-- A process that has not opened its session yet. -/
def Stage.early : Stage → Bool
  | .fresh => true
  | .waiting => true
  | .beginning => true
  | _ => false

inductive Event where
  | opened (n : ℕ)
  | ended (n owner : ℕ)
  deriving DecidableEq

structure Lock (κ : Type*) where
  chain : List ℕ
  opened : κ → Option ℕ
  stage : ℕ → Stage
  log : List Event

variable {κ : Type*}

def Lock.new : Lock κ := ⟨[], fun _ => none, fun _ => .fresh, []⟩

def Lock.goto (l : Lock κ) (n : ℕ) (stage : Stage) : Lock κ :=
  { l with stage := Function.update l.stage n stage }

inductive Move [DecidableEq κ] (l : Lock κ) : Lock κ → Prop
  | join (n : ℕ) (hn : l.stage n = .fresh) :
      Move l { l.goto n .waiting with chain := l.chain ++ [n] }
  | grant (n : ℕ) (hn : l.stage n = .waiting) (hhead : l.chain.head? = some n) :
      Move l (l.goto n .beginning)
  /-- The session cannot be opened, and the lock is released. -/
  | refuse (n : ℕ) (hn : l.stage n = .beginning) :
      Move l { l.goto n .idle with chain := l.chain.erase n }
  | opens (n : ℕ) (k : κ) (hn : l.stage n = .beginning) :
      Move l { l.goto n .holding with opened := Function.update l.opened k (some n),
                                      log := l.log ++ [.opened n] }
  /-- A process takes the session under a key, to end it. -/
  | take (n : ℕ) (k : κ) (m : ℕ) (hn : (l.stage n).free = true)
      (hk : l.opened k = some m) :
      Move l { l.goto n (.ending m) with opened := Function.update l.opened k none,
                                         log := l.log ++ [.ended n m] }
  | release (n m : ℕ) (hn : l.stage n = .ending m) :
      Move l { l.goto n .idle with chain := l.chain.erase m }
  | settle (n : ℕ) (hn : (l.stage n).free = true) : Move l (l.goto n .idle)

/-- The sessions that have been opened, and those that have been ended. -/
def openedBy (log : List Event) : List ℕ :=
  log.filterMap fun
    | .opened n => some n
    | _ => none

def endedOf (log : List Event) : List ℕ :=
  log.filterMap fun
    | .ended _ m => some m
    | _ => none

@[simp] lemma openedBy_append (log log' : List Event) :
    openedBy (log ++ log') = openedBy log ++ openedBy log' := List.filterMap_append ..

@[simp] lemma endedOf_append (log log' : List Event) :
    endedOf (log ++ log') = endedOf log ++ endedOf log' := List.filterMap_append ..

/-- What the moves keep. -/
structure Sound (l : Lock κ) : Prop where
  nodup : l.chain.Nodup
  waiting : ∀ n, l.stage n = .waiting → n ∈ l.chain
  beginning : ∀ n, l.stage n = .beginning → l.chain.head? = some n
  /-- An open session is that of the head of the chain. -/
  head : ∀ k n, l.opened k = some n → l.chain.head? = some n
  late : ∀ k n, l.opened k = some n → (l.stage n).early = false
  ending : ∀ n m, l.stage n = .ending m →
    l.chain.head? = some m ∧ (l.stage m).early = false ∧ ∀ k, l.opened k ≠ some m
  ender : ∀ n n' m, l.stage n = .ending m → l.stage n' = .ending m → n = n'
  key : ∀ k k' n, l.opened k = some n → l.opened k' = some n → k = k'
  /-- A place in the chain has its reason. -/
  place : ∀ n ∈ l.chain, l.stage n = .waiting ∨ l.stage n = .beginning ∨
    (∃ k, l.opened k = some n) ∨ ∃ m, l.stage m = .ending n
  opened : ∀ n ∈ openedBy l.log, (l.stage n).early = false ∧
    (n ∈ endedOf l.log ∨ ∃ k, l.opened k = some n)
  ended : ∀ n ∈ endedOf l.log, (l.stage n).early = false ∧ ∀ k, l.opened k ≠ some n
  once : (endedOf l.log).Nodup

lemma sound_new : Sound (Lock.new : Lock κ) := by
  constructor <;> simp [Lock.new, openedBy, endedOf]

section Goto

variable {l : Lock κ} {n m : ℕ} {stage st : Stage}

lemma stage_goto (l : Lock κ) (n : ℕ) (stage : Stage) (m : ℕ) :
    (l.goto n stage).stage m = if m = n then stage else l.stage m := by
  simp [Lock.goto, Function.update_apply]

lemma stage_of_goto (h : (l.goto n stage).stage m = st) (hne : st ≠ stage) : l.stage m = st := by
  rw [stage_goto] at h
  split_ifs at h
  · exact absurd h.symm hne
  · exact h

lemma stage_goto_of (h : l.stage m = st) (hne : l.stage n ≠ st) :
    (l.goto n stage).stage m = st := by
  rw [stage_goto, if_neg, h]
  rintro rfl
  exact hne h

lemma late_goto (h : (l.stage m).early = false)
    (hn : stage.early = false ∨ (l.stage n).early = true) :
    ((l.goto n stage).stage m).early = false := by
  rw [stage_goto]
  split_ifs with hm
  · rcases hn with hn | hn
    · exact hn
    · rw [hm, hn] at h
      cases h
  · exact h

end Goto

variable {l l' : Lock κ}

/-! ### Places in the chain -/

/-- A process joins the chain: it was nowhere before. -/
lemma Sound.join (hs : Sound l) {n : ℕ} (hn : l.stage n = .fresh) :
    Sound { l.goto n .waiting with chain := l.chain ++ [n] } := by
  have hnew : n ∉ l.chain := by
    intro hmem
    rcases hs.place n hmem with h | h | ⟨k, h⟩ | ⟨m, h⟩
    · simp [hn] at h
    · simp [hn] at h
    · simpa [hn, Stage.early] using hs.late k n h
    · simpa [hn, Stage.early] using (hs.ending m n h).2.1
  have hhead : ∀ m, l.chain.head? = some m → (l.chain ++ [n]).head? = some m := by
    intro m hm
    rw [List.head?_append, hm]
    rfl
  have hlate : ∀ m, (l.stage m).early = false → ((l.goto n .waiting).stage m).early = false :=
    fun m hm => late_goto hm (Or.inr (by rw [hn]; rfl))
  exact {
    nodup := List.nodup_append.mpr ⟨hs.nodup, List.nodup_singleton n, by
      rintro a ha b hb rfl
      exact hnew (List.mem_singleton.mp hb ▸ ha)⟩
    waiting := fun m hm => by
      by_cases h : m = n
      · simp [h]
      · rw [stage_goto, if_neg h] at hm
        exact List.mem_append_left _ (hs.waiting m hm)
    beginning := fun m hm => hhead m (hs.beginning m (stage_of_goto hm (by simp)))
    head := fun k m hk => hhead m (hs.head k m hk)
    late := fun k m hk => hlate m (hs.late k m hk)
    ending := fun m o hm =>
      have h := hs.ending m o (stage_of_goto hm (by simp))
      ⟨hhead o h.1, hlate o h.2.1, h.2.2⟩
    ender := fun m m' o hm hm' =>
      hs.ender m m' o (stage_of_goto hm (by simp)) (stage_of_goto hm' (by simp))
    key := hs.key
    place := fun m hm => by
      rcases List.mem_append.mp hm with hm | hm
      · rcases hs.place m hm with h | h | h | ⟨o, h⟩
        · exact Or.inl (stage_goto_of h (by simp [hn]))
        · exact Or.inr (Or.inl (stage_goto_of h (by simp [hn])))
        · exact Or.inr (Or.inr (Or.inl h))
        · exact Or.inr (Or.inr (Or.inr ⟨o, stage_goto_of h (by simp [hn])⟩))
      · exact Or.inl (by rw [List.mem_singleton.mp hm, stage_goto, if_pos rfl])
    opened := fun m hm => ⟨hlate m (hs.opened m hm).1, (hs.opened m hm).2⟩
    ended := fun m hm => ⟨hlate m (hs.ended m hm).1, (hs.ended m hm).2⟩
    once := hs.once }

lemma Sound.grant (hs : Sound l) {n : ℕ} (hn : l.stage n = .waiting)
    (hhead : l.chain.head? = some n) : Sound (l.goto n .beginning) := by
  have hlate : ∀ m, (l.stage m).early = false → ((l.goto n .beginning).stage m).early = false :=
    fun m hm => late_goto hm (Or.inr (by rw [hn]; rfl))
  exact {
    nodup := hs.nodup
    waiting := fun m hm => hs.waiting m (stage_of_goto hm (by simp))
    beginning := fun m hm => by
      by_cases h : m = n
      · rwa [h]
      · rw [stage_goto, if_neg h] at hm
        exact hs.beginning m hm
    head := hs.head
    late := fun k m hk => hlate m (hs.late k m hk)
    ending := fun m o hm =>
      have h := hs.ending m o (stage_of_goto hm (by simp))
      ⟨h.1, hlate o h.2.1, h.2.2⟩
    ender := fun m m' o hm hm' =>
      hs.ender m m' o (stage_of_goto hm (by simp)) (stage_of_goto hm' (by simp))
    key := hs.key
    place := fun m hm => by
      by_cases hmn : m = n
      · exact Or.inr (Or.inl (by rw [hmn, stage_goto, if_pos rfl]))
      · rcases hs.place m hm with h | h | h | ⟨o, h⟩
        · exact Or.inl (by rw [stage_goto, if_neg hmn, h])
        · exact Or.inr (Or.inl (by rw [stage_goto, if_neg hmn, h]))
        · exact Or.inr (Or.inr (Or.inl h))
        · exact Or.inr (Or.inr (Or.inr ⟨o, stage_goto_of h (by simp [hn])⟩))
    opened := fun m hm => ⟨hlate m (hs.opened m hm).1, (hs.opened m hm).2⟩
    ended := fun m hm => ⟨hlate m (hs.ended m hm).1, (hs.ended m hm).2⟩
    once := hs.once }

lemma Sound.alone (hs : Sound l) {n : ℕ} (hn : l.stage n = .beginning) :
    (∀ k, l.opened k = none) ∧ ∀ m o, l.stage m ≠ .ending o := by
  have hhead := hs.beginning n hn
  refine ⟨fun k => ?_, fun m o hm => ?_⟩
  · by_contra hne
    obtain ⟨m, hm⟩ := Option.ne_none_iff_exists'.mp hne
    have hmn : m = n := Option.some.inj ((hs.head k m hm).symm.trans hhead)
    simpa [hmn, hn, Stage.early] using hs.late k m hm
  · obtain ⟨hend, hlate, -⟩ := hs.ending m o hm
    have hon : o = n := Option.some.inj (hend.symm.trans hhead)
    simp [hon, hn, Stage.early] at hlate

/-- The process that is about to leave the chain, and why. -/
def Leaves (l : Lock κ) (n o : ℕ) : Prop := n = o ∧ l.stage n = .beginning ∨ l.stage n = .ending o

lemma Sound.leaves_head (hs : Sound l) {n o : ℕ} (hn : Leaves l n o) :
    l.chain.head? = some o := by
  rcases hn with ⟨rfl, hn⟩ | hn
  · exact hs.beginning n hn
  · exact (hs.ending n o hn).1

lemma Sound.leaves_none (hs : Sound l) {n o : ℕ} (hn : Leaves l n o) (k : κ) :
    l.opened k = none := by
  rcases hn with ⟨rfl, hn⟩ | hn
  · exact (hs.alone hn).1 k
  · by_contra hne
    obtain ⟨m, hm⟩ := Option.ne_none_iff_exists'.mp hne
    obtain ⟨hhead, -, hopened⟩ := hs.ending n o hn
    have hmo : m = o := Option.some.inj ((hs.head k m hm).symm.trans hhead)
    exact hopened k (hmo ▸ hm)

/-- The head leaves the chain: it waits no more, and has no session any more. -/
lemma Sound.leave (hs : Sound l) {n o : ℕ} (hn : Leaves l n o) :
    Sound { l.goto n .idle with chain := l.chain.erase o } := by
  have hhead := hs.leaves_head hn
  have hnone := hs.leaves_none hn
  have hlate : ∀ m, (l.stage m).early = false → ((l.goto n .idle).stage m).early = false :=
    fun m hm => late_goto hm (Or.inl rfl)
  have hwaiting : l.stage n ≠ .waiting := by
    rcases hn with ⟨-, hn⟩ | hn <;> simp [hn]
  have howner : l.stage o ≠ .waiting := by
    rcases hn with ⟨rfl, -⟩ | hn
    · exact hwaiting
    · intro h
      simpa [h, Stage.early] using (hs.ending n o hn).2.1
  have hnobody : ∀ m p, (l.goto n .idle).stage m ≠ .ending p := by
    intro m p hm
    have hm' := stage_of_goto hm (by simp)
    rcases hn with ⟨-, hn⟩ | hn
    · exact (hs.alone hn).2 m p hm'
    · have hpo : p = o := Option.some.inj ((hs.ending m p hm').1.symm.trans hhead)
      have hmn := hs.ender m n o (hpo ▸ hm') hn
      simp [hmn, stage_goto] at hm
  have hbegin : ∀ m, (l.goto n .idle).stage m ≠ .beginning := by
    intro m hm
    have hm' := stage_of_goto hm (by simp)
    have hmo : m = o := Option.some.inj ((hs.beginning m hm').symm.trans hhead)
    rcases hn with ⟨rfl, -⟩ | hn
    · simp [hmo, stage_goto] at hm
    · simpa [← hmo, hm', Stage.early] using (hs.ending n o hn).2.1
  exact {
    nodup := hs.nodup.erase o
    waiting := fun m hm => by
      have hstage : l.stage m = .waiting := stage_of_goto hm (by simp)
      refine (List.mem_erase_of_ne fun hmo => ?_).mpr (hs.waiting m hstage)
      exact howner (hmo ▸ hstage)
    beginning := fun m hm => absurd hm (hbegin m)
    head := fun k m hk => absurd ((hnone k).symm.trans hk) (by simp)
    late := fun k m hk => hlate m (hs.late k m hk)
    ending := fun m p hm => absurd hm (hnobody m p)
    ender := fun m m' p hm hm' => absurd hm (hnobody m p)
    key := hs.key
    place := fun m hm => by
      obtain ⟨hmo, hm⟩ := hs.nodup.mem_erase_iff.mp hm
      have hnot : l.chain.head? ≠ some m := fun h =>
        hmo (Option.some.inj (h.symm.trans hhead))
      rcases hs.place m hm with h | h | ⟨k, h⟩ | ⟨p, h⟩
      · exact Or.inl (stage_goto_of h hwaiting)
      · exact absurd (hs.beginning m h) hnot
      · exact absurd (hs.head k m h) hnot
      · exact absurd (hs.ending p m h).1 hnot
    opened := fun m hm => ⟨hlate m (hs.opened m hm).1, (hs.opened m hm).2⟩
    ended := fun m hm => ⟨hlate m (hs.ended m hm).1, (hs.ended m hm).2⟩
    once := hs.once }

/-! ### Sessions -/

lemma Sound.settle (hs : Sound l) {n : ℕ} (hn : (l.stage n).free = true) :
    Sound (l.goto n .idle) := by
  have hlate : ∀ m, (l.stage m).early = false → ((l.goto n .idle).stage m).early = false :=
    fun m hm => late_goto hm (Or.inl rfl)
  have hbusy : ∀ st : Stage, st.free = false → l.stage n ≠ st := by
    intro st hst h
    rw [h, hst] at hn
    cases hn
  exact {
    nodup := hs.nodup
    waiting := fun m hm => hs.waiting m (stage_of_goto hm (by simp))
    beginning := fun m hm => hs.beginning m (stage_of_goto hm (by simp))
    head := hs.head
    late := fun k m hk => hlate m (hs.late k m hk)
    ending := fun m o hm =>
      have h := hs.ending m o (stage_of_goto hm (by simp))
      ⟨h.1, hlate o h.2.1, h.2.2⟩
    ender := fun m m' o hm hm' =>
      hs.ender m m' o (stage_of_goto hm (by simp)) (stage_of_goto hm' (by simp))
    key := hs.key
    place := fun m hm => by
      rcases hs.place m hm with h | h | h | ⟨o, h⟩
      · exact Or.inl (stage_goto_of h (hbusy _ rfl))
      · exact Or.inr (Or.inl (stage_goto_of h (hbusy _ rfl)))
      · exact Or.inr (Or.inr (Or.inl h))
      · exact Or.inr (Or.inr (Or.inr ⟨o, stage_goto_of h (hbusy _ rfl)⟩))
    opened := fun m hm => ⟨hlate m (hs.opened m hm).1, (hs.opened m hm).2⟩
    ended := fun m hm => ⟨hlate m (hs.ended m hm).1, (hs.ended m hm).2⟩
    once := hs.once }

variable [DecidableEq κ]

lemma Sound.opens (hs : Sound l) {n : ℕ} (k : κ) (hn : l.stage n = .beginning) :
    Sound { l.goto n .holding with opened := Function.update l.opened k (some n),
                                   log := l.log ++ [.opened n] } := by
  obtain ⟨hnone, hnobody⟩ := hs.alone hn
  have hlate : ∀ m, (l.stage m).early = false → ((l.goto n .holding).stage m).early = false :=
    fun m hm => late_goto hm (Or.inl rfl)
  have hself : ((l.goto n .holding).stage n).early = false := by simp [stage_goto, Stage.early]
  have hget : ∀ k' m, Function.update l.opened k (some n) k' = some m → k' = k ∧ m = n := by
    intro k' m hk'
    rw [Function.update_apply] at hk'
    split_ifs at hk' with h
    · exact ⟨h, (Option.some.inj hk').symm⟩
    · simp [hnone k'] at hk'
  exact {
    nodup := hs.nodup
    waiting := fun m hm => hs.waiting m (stage_of_goto hm (by simp))
    beginning := fun m hm => hs.beginning m (stage_of_goto hm (by simp))
    head := fun k' m hk' => (hget k' m hk').2 ▸ hs.beginning n hn
    late := fun k' m hk' => (hget k' m hk').2 ▸ hself
    ending := fun m o hm => absurd (stage_of_goto hm (by simp)) (hnobody m o)
    ender := fun m m' o hm hm' => absurd (stage_of_goto hm (by simp)) (hnobody m o)
    key := fun k₁ k₂ m h₁ h₂ => (hget k₁ m h₁).1.trans (hget k₂ m h₂).1.symm
    place := fun m hm => by
      by_cases hmn : m = n
      · exact Or.inr (Or.inr (Or.inl ⟨k, by simp [hmn]⟩))
      · rcases hs.place m hm with h | h | ⟨k', h⟩ | ⟨o, h⟩
        · exact Or.inl (by rw [stage_goto, if_neg hmn, h])
        · exact Or.inr (Or.inl (by rw [stage_goto, if_neg hmn, h]))
        · simp [hnone k'] at h
        · exact absurd h (hnobody o m)
    opened := fun m hm => by
      rcases List.mem_append.mp (openedBy_append l.log _ ▸ hm) with hm | hm
      · obtain ⟨hearly, hended | ⟨k', hk'⟩⟩ := hs.opened m hm
        · exact ⟨hlate m hearly, Or.inl (by simp [hended])⟩
        · simp [hnone k'] at hk'
      · rw [List.mem_singleton.mp hm]
        exact ⟨hself, Or.inr ⟨k, by simp⟩⟩
    ended := fun m hm => by
      obtain ⟨hearly, -⟩ := hs.ended m (by simpa [endedOf] using hm)
      refine ⟨hlate m hearly, fun k' hk' => ?_⟩
      simp [(hget k' m hk').2, hn, Stage.early] at hearly
    once := by simpa [endedOf] using hs.once }

lemma Sound.take (hs : Sound l) {n : ℕ} {k : κ} {m : ℕ} (hn : (l.stage n).free = true)
    (hk : l.opened k = some m) :
    Sound { l.goto n (.ending m) with opened := Function.update l.opened k none,
                                      log := l.log ++ [.ended n m] } := by
  have hhead := hs.head k m hk
  have hlate : ∀ p, (l.stage p).early = false → ((l.goto n (.ending m)).stage p).early = false :=
    fun p hp => late_goto hp (Or.inl rfl)
  have honly : ∀ k' p, l.opened k' = some p → k' = k ∧ p = m := by
    intro k' p hp
    have hpm : p = m := Option.some.inj ((hs.head k' p hp).symm.trans hhead)
    exact ⟨hs.key k' k m (hpm ▸ hp) hk, hpm⟩
  have hnone : ∀ k' p, Function.update l.opened k none k' ≠ some p := by
    intro k' p hp
    rw [Function.update_apply] at hp
    split_ifs at hp with h
    exact h (honly k' p hp).1
  have hnobody : ∀ p o, l.stage p ≠ .ending o := by
    intro p o hp
    obtain ⟨hend, -, hopened⟩ := hs.ending p o hp
    exact hopened k (hk.trans (hhead.symm.trans hend))
  have hbusy : ∀ st : Stage, st.free = false → l.stage n ≠ st := by
    intro st hst h
    rw [h, hst] at hn
    cases hn
  have hend : ∀ p o, (l.goto n (.ending m)).stage p = .ending o → p = n ∧ o = m := by
    intro p o hp
    rw [stage_goto] at hp
    split_ifs at hp with h
    · cases hp
      exact ⟨h, rfl⟩
    · exact absurd hp (hnobody p o)
  exact {
    nodup := hs.nodup
    waiting := fun p hp => hs.waiting p (stage_of_goto hp (by simp))
    beginning := fun p hp => hs.beginning p (stage_of_goto hp (by simp))
    head := fun k' p hp => absurd hp (hnone k' p)
    late := fun k' p hp => absurd hp (hnone k' p)
    ending := fun p o hp => by
      rw [(hend p o hp).2]
      exact ⟨hhead, hlate m (hs.late k m hk), fun k' => hnone k' m⟩
    ender := fun p p' o hp hp' => (hend p o hp).1.trans (hend p' o hp').1.symm
    key := fun k₁ k₂ p h₁ h₂ => absurd h₁ (hnone k₁ p)
    place := fun p hp => by
      rcases hs.place p hp with h | h | ⟨k', h⟩ | ⟨o, h⟩
      · exact Or.inl (stage_goto_of h (hbusy _ rfl))
      · exact Or.inr (Or.inl (stage_goto_of h (hbusy _ rfl)))
      · exact Or.inr (Or.inr (Or.inr ⟨n, by rw [stage_goto, if_pos rfl, (honly k' p h).2]⟩))
      · exact absurd h (hnobody o p)
    opened := fun p hp => by
      obtain ⟨hearly, hp⟩ := hs.opened p (by simpa [openedBy] using hp)
      refine ⟨hlate p hearly, Or.inl ?_⟩
      rcases hp with hended | ⟨k', hk'⟩
      · simp [hended]
      · simp [(honly k' p hk').2, endedOf]
    ended := fun p hp => by
      refine ⟨?_, fun k' => hnone k' p⟩
      rcases List.mem_append.mp (endedOf_append l.log _ ▸ hp) with hp | hp
      · exact hlate p (hs.ended p hp).1
      · exact List.mem_singleton.mp hp ▸ hlate m (hs.late k m hk)
    once := by
      rw [endedOf_append]
      refine List.nodup_append.mpr ⟨hs.once, List.nodup_singleton m, ?_⟩
      rintro a ha b hb rfl
      exact (hs.ended a ha).2 k (List.mem_singleton.mp hb ▸ hk) }

/-- **The moves keep it**, whoever ends whose session. -/
theorem Sound.move (hs : Sound l) (h : Move l l') : Sound l' := by
  cases h with
  | join n hn => exact hs.join hn
  | grant n hn hhead => exact hs.grant hn hhead
  | refuse n hn => exact hs.leave (Or.inl ⟨rfl, hn⟩)
  | opens n k hn => exact hs.opens k hn
  | take n k m hn hk => exact hs.take hn hk
  | release n m hn => exact hs.leave (Or.inr hn)
  | settle n hn => exact hs.settle hn

end FabPcb.SessionLock
