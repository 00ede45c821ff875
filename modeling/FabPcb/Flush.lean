import Mathlib.Algebra.Ring.Nat
import Mathlib.Data.List.DropRight
import FabPcb.CommitOps
import FabPcb.Grouping
import FabPcb.Runs

/-!
The queue of a commit and the batches its flush takes off it.

Calls append their ops whenever they come, a turn of the flush takes the ops of one key at
the front. An op ends up in the batch that the ops of its key queued right ahead of it
open, whatever comes later; its results are the slice of the batch's at its place.
-/

namespace FabPcb.Flush

open Items Document CommitOps Grouping Runs

variable {P : Type*}

/-! ### The machine -/

structure Flusher (P : Type*) where
  queue : List (Op P)
  /-- The batches taken so far, one for each request. -/
  sent : List (List (Op P))

def Flusher.new : Flusher P := ⟨[], []⟩

inductive FlushEvent (P : Type*) where
  | call (c : ItemCall P)
  | turn

def Flusher.step (codec : Codec P) (base : ItemScope) (s : Flusher P) :
    FlushEvent P → Option (Flusher P)
  | .call c => some { s with queue := s.queue ++ c.ops codec base }
  | .turn => (takeBatch s.queue).map fun b => { queue := b.2, sent := s.sent ++ [b.1] }

/-- The results of the ops sent, in order, given those of each request. -/
def partsFrom {R : Type*} (answers : ℕ → List R) (j : ℕ) : List (List (Op P)) → List (List R)
  | [] => []
  | b :: bs => splitResults b (answers j) ++ partsFrom answers (j + 1) bs

/-- What the call whose `m` ops follow the first `p` resolves to. -/
def resolved {R : Type*} (sent : List (List (Op P))) (answers : ℕ → List R) (p m : ℕ) : List R :=
  joinParts (((partsFrom answers 0 sent).drop p).take m)

/-- The number of items a batch sends. -/
def rows (b : List (Op P)) : ℕ := (b.flatMap (·.ids)).length

/-! ### Slices -/

lemma rows_eq_sum (b : List (Op P)) : rows b = (b.map (·.ids.length)).sum := by
  simp [rows, List.length_flatMap]

lemma length_slices {R : Type*} (results : List R) (ns : List ℕ) (offset : ℕ) :
    (slices results offset ns).length = ns.length := by
  induction ns generalizing offset with
  | nil => rfl
  | cons n ns ih => simp [slices, ih]

lemma slices_get {R : Type*} (results : List R) (ns₁ : List ℕ) (n : ℕ) (ns₂ : List ℕ)
    (offset : ℕ) :
    (slices results offset (ns₁ ++ n :: ns₂))[ns₁.length]? =
      some ((results.drop (offset + ns₁.sum)).take n) := by
  induction ns₁ generalizing offset with
  | nil => simp [slices]
  | cons n' ns₁ ih =>
    simp [List.cons_append, slices, List.length_cons, List.getElem?_cons_succ, ih,
      List.sum_cons, Nat.add_assoc]

lemma slices_map {R S : Type*} (f : R → S) (results : List R) (ns : List ℕ) (offset : ℕ) :
    slices (results.map f) offset ns = (slices results offset ns).map (List.map f) := by
  induction ns generalizing offset with
  | nil => rfl
  | cons n ns ih => simp [slices, ih]

lemma slices_flatten {R : Type*} (results : List R) (ns : List ℕ) (offset : ℕ) :
    (slices results offset ns).flatten = (results.drop offset).take ns.sum := by
  induction ns generalizing offset with
  | nil => simp [slices]
  | cons n ns ih =>
    rw [slices, List.flatten_cons, ih, List.sum_cons, List.take_add, List.drop_drop]

lemma joinParts_eq_flatten {R : Type*} (parts : List (List R)) :
    joinParts parts = parts.flatten := by
  unfold joinParts
  split
  · simp
  · rfl

/-- The results of an op are the slice of its batch's at its place. -/
lemma partsFrom_get {R : Type*} (answers : ℕ → List R) {bs : List (List (Op P))} {i : ℕ}
    {b₁ b₂ : List (Op P)} {op : Op P} (h : bs[i]? = some (b₁ ++ op :: b₂)) (j : ℕ) :
    (partsFrom answers j bs)[(bs.take i).flatten.length + b₁.length]? =
      some (((answers (j + i)).drop (rows b₁)).take op.ids.length) := by
  induction bs generalizing i j with
  | nil => simp at h
  | cons b bs ih =>
    cases i with
    | zero =>
      obtain rfl : b = b₁ ++ op :: b₂ := by simpa using h
      have hs := slices_get (answers j) (b₁.map (·.ids.length)) op.ids.length
        (b₂.map (·.ids.length)) 0
      have hlt : b₁.length < (splitResults (b₁ ++ op :: b₂) (answers j)).length := by
        simp [splitResults, length_slices]
      simp only [List.take_zero, List.flatten_nil, List.length_nil, Nat.zero_add, Nat.add_zero,
        partsFrom, List.getElem?_append_left hlt]
      simpa [splitResults, rows_eq_sum] using hs
    | succ i =>
      have hi : bs[i]? = some (b₁ ++ op :: b₂) := by simpa using h
      have hlen : (splitResults b (answers j)).length = b.length := by
        simp [splitResults, length_slices]
      have hidx : ((b :: bs).take (i + 1)).flatten.length + b₁.length =
          (splitResults b (answers j)).length + ((bs.take i).flatten.length + b₁.length) := by
        simp [hlen, Nat.add_assoc]
      rw [hidx, partsFrom, List.getElem?_append_right (Nat.le_add_right _ _),
        Nat.add_sub_cancel_left, ih hi]
      congr 4
      omega

lemma partsFrom_map {R S : Type*} (f : R → S) (answers : ℕ → List R) (bs : List (List (Op P)))
    (j : ℕ) :
    partsFrom (fun j => (answers j).map f) j bs = (partsFrom answers j bs).map (List.map f) := by
  induction bs generalizing j with
  | nil => rfl
  | cons b bs ih => simp [partsFrom, ih, splitResults, slices_map]

lemma resolved_map {R S : Type*} (f : R → S) (answers : ℕ → List R) (sent : List (List (Op P)))
    (p m : ℕ) :
    resolved sent (fun j => (answers j).map f) p m = (resolved sent answers p m).map f := by
  simp [resolved, joinParts_eq_flatten, partsFrom_map, List.map_flatten, List.map_take,
    List.map_drop]

lemma partsFrom_congr {R : Type*} {answers answers' : ℕ → List R} {bs : List (List (Op P))}
    {j : ℕ} (h : ∀ i < bs.length, answers (j + i) = answers' (j + i)) :
    partsFrom answers j bs = partsFrom answers' j bs := by
  induction bs generalizing j with
  | nil => rfl
  | cons b bs ih =>
    have h0 : answers j = answers' j := h 0 (by simp)
    have hrest : ∀ i < bs.length, answers (j + 1 + i) = answers' (j + 1 + i) := by
      intro i hi
      have := h (i + 1) (by simpa using hi)
      rwa [Nat.add_comm i 1, ← Nat.add_assoc] at this
    rw [partsFrom, partsFrom, h0, ih hrest]

/-! ### Where an op goes -/

variable {codec : Codec P} {base : ItemScope} {s s' : Flusher P}

lemma sent_prefix {events : List (FlushEvent P)}
    (h : run (Flusher.step codec base) s events = some s') : s.sent <+: s'.sent := by
  refine invariant_run (fun t => s.sent <+: t.sent) ?_ (List.prefix_refl _) h
  intro t e t' ht hstep
  cases e with
  | call c => cases hstep; exact ht
  | turn =>
    obtain ⟨b, -, rfl⟩ := Option.map_eq_some_iff.mp hstep
    exact ht.trans (List.prefix_append _ _)

/-- **Where an op goes**: once it is sent, its batch is what the ops of its key queued right
ahead of it opened. -/
theorem located {L R : List (Op P)} {op : Op P} {S : List (List (Op P))}
    {events : List (FlushEvent P)}
    (h : run (Flusher.step codec base) ⟨L ++ op :: R, S⟩ events = some s')
    (hsent : S.flatten.length + L.length < s'.sent.flatten.length) :
    ∃ j b₂, s'.sent[j]? = some (L.rtakeWhile (fun x => decide (x.key = op.key)) ++ op :: b₂) ∧
      (s'.sent.take j).flatten.length +
        (L.rtakeWhile (fun x => decide (x.key = op.key))).length = S.flatten.length + L.length := by
  induction events generalizing L R S with
  | nil =>
    cases h
    exact absurd hsent (by simp)
  | cons e events ih =>
    obtain ⟨t, ht, hrest⟩ := run_cons_eq_some.mp h
    rcases e with c | _
    · simp only [Flusher.step, Option.some.injEq, List.append_assoc, List.cons_append] at ht
      subst ht
      exact ih hrest hsent
    · rcases L with _ | ⟨a, L⟩
      · -- the op is at the front
        simp only [Flusher.step, List.nil_append, takeBatch, Option.map_some,
          Option.some.injEq] at ht
        subst ht
        obtain ⟨more, hmore⟩ := sent_prefix hrest
        exact ⟨S.length, _, by rw [← hmore]; simp; rfl, by rw [← hmore]; simp⟩
      · simp only [Flusher.step, List.cons_append, takeBatch, Option.map_some,
          Option.some.injEq] at ht
        subst ht
        by_cases hin : (∀ x ∈ L, x.key = a.key) ∧ op.key = a.key
        · -- everything up to the op has its key: it goes with this batch
          have hr : (a :: L).rtakeWhile (fun x => decide (x.key = op.key)) = a :: L := by
            rw [List.rtakeWhile_eq_self_iff]
            intro x hx
            rcases List.mem_cons.mp hx with rfl | hx
            · simp [hin.2]
            · simp [hin.1 x hx, hin.2]
          rw [takeWhile_through (by simpa using hin.1) (by simpa using hin.2)] at hrest
          obtain ⟨more, hmore⟩ := sent_prefix hrest
          rw [hr]
          exact ⟨S.length, _, by rw [← hmore]; simp; rfl, by rw [← hmore]; simp⟩
        · -- the batch ends ahead of the op
          obtain ⟨htake, hdrop⟩ :=
            takeWhile_cut (p := fun x => decide (x.key = a.key)) (r := R) (by simpa using hin)
          rw [htake, hdrop] at hrest
          have hlen : (L.takeWhile fun x => decide (x.key = a.key)).length +
              (L.dropWhile fun x => decide (x.key = a.key)).length = L.length := by
            rw [← List.length_append, List.takeWhile_append_dropWhile]
          rw [rtakeWhile_dropWhile Op.key hin]
          have hsum : (S ++ [a :: L.takeWhile fun x => decide (x.key = a.key)]).flatten.length +
              (L.dropWhile fun x => decide (x.key = a.key)).length =
              S.flatten.length + (a :: L).length := by
            simp only [List.flatten_append, List.flatten_cons, List.flatten_nil, List.append_nil,
              List.length_append, List.length_cons]
            omega
          rw [← hsum] at hsent ⊢
          exact ih hrest hsent

end FabPcb.Flush
