import Mathlib.Data.List.Induction
import Mathlib.Order.Bounds.Basic

/-!
The events of KiCad as a client hears them: typed listeners, and gaps in the sequence numbers.

`β` is a frame, `κ` the kind of an event, and `decode` reads a frame.
-/

namespace FabPcb.EventGaps

/-- The sequence number of an event and the case of its oneof. -/
structure Event (κ : Type) where
  sequence : ℕ
  kind : Option κ

structure EventGap where
  expected : ℕ
  received : ℕ

/-- The listeners of one set are called in turn; the key `none` is `*`. -/
inductive Call (κ : Type)
  | error
  | gap (g : EventGap)
  | listeners (key : Option κ) (event : Event κ)

structure KiCadEvents (κ : Type) where
  last : Option ℕ := none
  count : ℕ := 0
  calls : List (Call κ) := []

variable {β κ : Type} (decode : β → Option (Event κ))

def gapBefore (last : Option ℕ) (ev : Event κ) : Option EventGap :=
  last.bind fun last => if ev.sequence > last + 1 then some ⟨last, ev.sequence⟩ else none

def highest (last : Option ℕ) (ev : Event κ) : Option ℕ :=
  match last with
  | none => some ev.sequence
  | some last => if ev.sequence > last then some ev.sequence else some last

def push (s : KiCadEvents κ) (bytes : β) : KiCadEvents κ :=
  match decode bytes with
  | none => { s with calls := s.calls ++ [.error] }
  | some ev =>
    { last := highest s.last ev
      count := s.count + 1
      calls := s.calls ++ ((gapBefore s.last ev).toList.map Call.gap ++
        (ev.kind.toList.map fun kind => Call.listeners (some kind) ev) ++ [.listeners none ev]) }

def received (frames : List β) : KiCadEvents κ := frames.foldl (push decode) {}

/-! ### Gaps -/

def Call.gap? : Call κ → Option EventGap
  | .gap g => some g
  | _ => none

def gaps (s : KiCadEvents κ) : List EventGap := s.calls.filterMap Call.gap?

/-- The first number from `n` on to arrive after another event is above `n`. -/
def Passed (events : List (Event κ)) (n : ℕ) : Prop :=
  ∃ before e after, events = before ++ e :: after ∧ before ≠ [] ∧
    (∀ e' ∈ before, e'.sequence < n) ∧ n < e.sequence

lemma mem_gapBefore {last : Option ℕ} {ev : Event κ} {g : EventGap} :
    g ∈ (gapBefore last ev).toList ↔ ∃ l ∈ last, l + 1 < ev.sequence ∧ g = ⟨l, ev.sequence⟩ := by
  cases last with
  | none => simp [gapBefore]
  | some l =>
    by_cases h : l + 1 < ev.sequence <;> simp [gapBefore, h]

lemma passed_concat (events : List (Event κ)) (e : Event κ) (n : ℕ) :
    Passed (events ++ [e]) n ↔ Passed events n ∨
      events ≠ [] ∧ (∀ e' ∈ events, e'.sequence < n) ∧ n < e.sequence := by
  constructor
  · rintro ⟨before, e', after, heq, hne, hbefore, hn⟩
    induction after using List.reverseRecOn with
    | nil =>
      obtain ⟨rfl, h⟩ := List.append_inj' heq rfl
      cases h
      exact .inr ⟨hne, hbefore, hn⟩
    | append_singleton after last _ =>
      rw [← List.cons_append, ← List.append_assoc] at heq
      obtain ⟨rfl, -⟩ := List.append_inj' heq rfl
      exact .inl ⟨before, e', after, rfl, hne, hbefore, hn⟩
  · rintro (⟨before, e', after, rfl, hne, hbefore, hn⟩ | ⟨hne, hbefore, hn⟩)
    · exact ⟨before, e', after ++ [e], by simp, hne, hbefore, hn⟩
    · exact ⟨events, e, [], rfl, hne, hbefore, hn⟩

section Push

variable {decode} {events : List (Event κ)} {s : KiCadEvents κ} {bytes : β} {ev : Event κ}

lemma gaps_push (hd : decode bytes = some ev) :
    gaps (push decode s bytes) = gaps s ++ (gapBefore s.last ev).toList := by
  cases hk : ev.kind <;> cases hg : gapBefore s.last ev <;>
    simp [push, hd, gaps, Call.gap?, hk, hg]

lemma isGreatest_highest {l : ℕ} (hfresh : s.last = none ↔ events = [])
    (h : ∀ last ∈ s.last, IsGreatest {n | ∃ e ∈ events, e.sequence = n} last)
    (hl : l ∈ highest s.last ev) :
    IsGreatest {n | ∃ e ∈ events ++ [ev], e.sequence = n} l := by
  cases hs : s.last with
  | none =>
    obtain rfl : ev.sequence = l := by simpa [highest, hs] using hl
    simp [hfresh.mp hs]
  | some last =>
    obtain ⟨⟨e, he, hlast⟩, hub⟩ := h last hs
    have hle : ∀ e ∈ events, e.sequence ≤ last := fun e he => hub ⟨e, he, rfl⟩
    simp only [highest, hs, Option.mem_def] at hl
    split at hl
    · next hgt =>
      obtain rfl : ev.sequence = l := by simpa using hl
      refine ⟨⟨ev, by simp, rfl⟩, ?_⟩
      rintro n ⟨e, he, rfl⟩
      rcases List.mem_append.mp he with he | he
      · exact (hle e he).trans hgt.le
      · simp [List.mem_singleton.mp he]
    · next hgt =>
      obtain rfl : last = l := by simpa using hl
      refine ⟨⟨e, List.mem_append_left _ he, hlast⟩, ?_⟩
      rintro n ⟨e, he, rfl⟩
      rcases List.mem_append.mp he with he | he
      · exact hle e he
      · simpa [List.mem_singleton.mp he] using hgt

end Push

/-! ### What the listeners hear -/

variable [DecidableEq κ]

def Call.heard? (key : Option κ) : Call κ → Option (Event κ)
  | .listeners k ev => if k = key then some ev else none
  | _ => none

def heard (s : KiCadEvents κ) (key : Option κ) : List (Event κ) :=
  s.calls.filterMap (Call.heard? key)

/-- What has been called for some events. -/
structure Reported (events : List (Event κ)) (s : KiCadEvents κ) : Prop where
  count : s.count = events.length
  all : heard s none = events
  kinds : ∀ kind, heard s (some kind) = events.filter fun e => e.kind = some kind
  fresh : s.last = none ↔ events = []
  highest : ∀ last ∈ s.last, IsGreatest {n | ∃ e ∈ events, e.sequence = n} last
  disjoint : (gaps s).Pairwise fun g h => g.received ≤ h.expected
  wide : ∀ g ∈ gaps s, g.expected + 1 < g.received
  arrived : ∀ g ∈ gaps s, ∀ n ∈ [g.expected, g.received], ∃ e ∈ events, e.sequence = n
  passed : ∀ n, (∃ g ∈ gaps s, g.expected < n ∧ n < g.received) ↔ Passed events n

section Push

variable {decode} {events : List (Event κ)} {s : KiCadEvents κ} {bytes : β} {ev : Event κ}

lemma heard_push_none (hd : decode bytes = some ev) :
    heard (push decode s bytes) none = heard s none ++ [ev] := by
  cases hk : ev.kind <;> cases hg : gapBefore s.last ev <;>
    simp [push, hd, heard, List.filterMap_cons, Call.heard?, hk, hg]

lemma heard_push_some (hd : decode bytes = some ev) (kind : κ) :
    heard (push decode s bytes) (some kind) =
      heard s (some kind) ++ [ev].filter fun e => e.kind = some kind := by
  cases hk : ev.kind with
  | none => cases hg : gapBefore s.last ev <;> simp [push, hd, heard, Call.heard?, hk, hg]
  | some k =>
    by_cases h : k = kind <;> cases hg : gapBefore s.last ev <;>
      simp [push, hd, heard, List.filterMap_cons, Call.heard?, hk, hg, h]

lemma Reported.mem_gapBefore_iff (h : Reported events s) (n : ℕ) :
    (∃ g ∈ (gapBefore s.last ev).toList, g.expected < n ∧ n < g.received) ↔
      events ≠ [] ∧ (∀ e ∈ events, e.sequence < n) ∧ n < ev.sequence := by
  simp only [mem_gapBefore]
  constructor
  · rintro ⟨_, ⟨l, hl, hlt, rfl⟩, hn, hn'⟩
    obtain ⟨⟨e, he, -⟩, hub⟩ := h.highest l hl
    exact ⟨List.ne_nil_of_mem he, fun e he => (hub ⟨e, he, rfl⟩).trans_lt hn, hn'⟩
  · rintro ⟨hne, hall, hn⟩
    obtain ⟨l, hl⟩ := Option.ne_none_iff_exists'.mp (mt h.fresh.mp hne)
    obtain ⟨e, he, rfl⟩ := (h.highest l hl).1
    exact ⟨_, ⟨_, hl, by have := hall e he; omega, rfl⟩, hall e he, hn⟩

lemma reported_error (h : Reported events s) (hd : decode bytes = none) :
    Reported events (push decode s bytes) := by
  have hgaps : gaps (push decode s bytes) = gaps s := by simp [push, hd, gaps, Call.gap?]
  have hheard (key) : heard (push decode s bytes) key = heard s key := by
    simp [push, hd, heard, Call.heard?]
  have hlast : (push decode s bytes).last = s.last := by simp [push, hd]
  have hcount : (push decode s bytes).count = s.count := by simp [push, hd]
  exact ⟨hcount ▸ h.count, (hheard _).trans h.all, fun k => (hheard _).trans (h.kinds k),
    hlast ▸ h.fresh, hlast ▸ h.highest, hgaps ▸ h.disjoint, hgaps ▸ h.wide, hgaps ▸ h.arrived,
    hgaps ▸ h.passed⟩

lemma reported_push (h : Reported events s) (hd : decode bytes = some ev) :
    Reported (events ++ [ev]) (push decode s bytes) := by
  have hlast : (push decode s bytes).last = highest s.last ev := by simp [push, hd]
  constructor
  · simp [push, hd, h.count]
  · rw [heard_push_none hd, h.all]
  · intro kind
    rw [heard_push_some hd, h.kinds, List.filter_append]
  · rw [hlast, highest.eq_def]
    split <;> simp [ite_eq_iff]
  · intro last hl
    exact isGreatest_highest h.fresh h.highest (hlast ▸ hl)
  · rw [gaps_push hd, List.pairwise_append]
    refine ⟨h.disjoint, ?_, fun g hg g' hg' => ?_⟩
    · cases gapBefore s.last ev <;> simp
    · obtain ⟨l, hl, -, rfl⟩ := mem_gapBefore.mp hg'
      obtain ⟨e, he, heq⟩ := h.arrived g hg g.received (by simp)
      exact (h.highest l hl).2 ⟨e, he, heq⟩
  · rw [gaps_push hd]
    intro g hg
    rcases List.mem_append.mp hg with hg | hg
    · exact h.wide g hg
    · obtain ⟨l, -, hlt, rfl⟩ := mem_gapBefore.mp hg
      exact hlt
  · rw [gaps_push hd]
    intro g hg n hn
    rcases List.mem_append.mp hg with hg | hg
    · obtain ⟨e, he, heq⟩ := h.arrived g hg n hn
      exact ⟨e, List.mem_append_left _ he, heq⟩
    · obtain ⟨l, hl, -, rfl⟩ := mem_gapBefore.mp hg
      obtain rfl | rfl : n = l ∨ n = ev.sequence := by simpa using hn
      · obtain ⟨e, he, heq⟩ := (h.highest _ hl).1
        exact ⟨e, List.mem_append_left _ he, heq⟩
      · exact ⟨ev, by simp, rfl⟩
  · intro n
    rw [gaps_push hd, passed_concat, ← h.passed, ← h.mem_gapBefore_iff]
    simp only [List.mem_append, or_and_right, exists_or]

end Push

/-- The listeners hear each event that decodes once and in order, and a number lies in a gap that
was reported exactly when it was passed over, in one gap then. -/
theorem received_reported (frames : List β) :
    Reported (frames.filterMap decode) (received decode frames) := by
  induction frames using List.reverseRecOn with
  | nil =>
    exact ⟨rfl, rfl, fun _ => rfl, by simp [received], by simp [received], .nil,
      by simp [gaps, received], by simp [gaps, received], fun n => by simp [gaps, received, Passed]⟩
  | append_singleton frames bytes ih =>
    rw [received, List.foldl_append, List.filterMap_append]
    cases hd : decode bytes with
    | some ev => simpa [hd, received] using reported_push ih hd
    | none => simpa [hd, received] using reported_error ih hd

end FabPcb.EventGaps
