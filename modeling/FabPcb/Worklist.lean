import Mathlib.Data.List.Nodup
import Mathlib.Data.List.Perm.Subperm

/-!
Searching a graph with a stack of what is still to be looked at.

Whatever is found is put on the stack once. With as many rounds as there are points, the search
ends with a set that no edge leaves.
-/

namespace FabPcb.Worklist

variable {α : Type*}

/-- What was found on the way through some points: all of them, each once, each on the stack. -/
structure Visited (bs : List α) (p q : List α × List α) : Prop where
  kept : p.1 ⊆ q.1
  found : bs ⊆ q.1
  nothing_else : ∀ x ∈ q.1, x ∈ p.1 ∨ x ∈ bs
  stacked : ∀ x ∈ q.1, x ∈ p.1 ∨ x ∈ q.2
  waiting : p.2 ⊆ q.2
  from_seen : ∀ x ∈ q.2, x ∈ p.2 ∨ x ∈ q.1
  once : p.1.Nodup → q.1.Nodup
  count : q.1.length + p.2.length = p.1.length + q.2.length

lemma visited_nil (p : List α × List α) : Visited [] p p where
  kept := List.Subset.refl _
  found := List.nil_subset _
  nothing_else := fun _ hx => Or.inl hx
  stacked := fun _ hx => Or.inl hx
  waiting := List.Subset.refl _
  from_seen := fun _ hx => Or.inl hx
  once := id
  count := rfl

lemma Visited.trans {bs cs : List α} {p q r : List α × List α} (h : Visited bs p q)
    (h' : Visited cs q r) : Visited (bs ++ cs) p r where
  kept := List.Subset.trans h.kept h'.kept
  found := List.append_subset.mpr ⟨List.Subset.trans h.found h'.kept, h'.found⟩
  nothing_else := by
    intro x hx
    rcases h'.nothing_else x hx with hx | hx
    · exact (h.nothing_else x hx).imp_right (List.mem_append_left _)
    · exact Or.inr (List.mem_append_right _ hx)
  stacked := by
    intro x hx
    rcases h'.stacked x hx with hx | hx
    · exact (h.stacked x hx).imp_right fun hq => h'.waiting hq
    · exact Or.inr hx
  waiting := List.Subset.trans h.waiting h'.waiting
  from_seen := by
    intro x hx
    rcases h'.from_seen x hx with hx | hx
    · exact (h.from_seen x hx).imp_right fun hq => h'.kept hq
    · exact Or.inr hx
  once := fun hp => h'.once (h.once hp)
  count := by
    have h1 := h.count
    have h2 := h'.count
    omega

variable [DecidableEq α]

/-- `b` is found: what is `seen` grows, and the stack `pending`, its top first. -/
def visit (p : List α × List α) (b : α) : List α × List α :=
  if b ∈ p.1 then p else (p.1 ++ [b], b :: p.2)

/-- The points that are seen in the end, after `n` rounds at most. -/
def explore (next : α → List α) : ℕ → List α → List α → List α
  | 0, seen, _ => seen
  | _ + 1, seen, [] => seen
  | n + 1, seen, a :: pending =>
    let p := (next a).foldl visit (seen, pending)
    explore next n p.1 p.2

lemma visited_visit (p : List α × List α) (b : α) : Visited [b] p (visit p b) := by
  unfold visit
  split
  next hb =>
    refine { visited_nil p with found := ?_, nothing_else := fun x hx => Or.inl hx }
    intro x hx
    exact List.mem_singleton.mp hx ▸ hb
  next hb =>
    constructor
    case kept => exact List.subset_append_left _ _
    case found => exact List.subset_append_right _ _
    case nothing_else => exact fun x hx => List.mem_append.mp hx
    case stacked =>
      intro x hx
      refine (List.mem_append.mp hx).imp_right fun h => ?_
      exact List.mem_singleton.mp h ▸ List.mem_cons_self
    case waiting => exact fun x hx => List.mem_cons_of_mem _ hx
    case from_seen =>
      intro x hx
      rcases List.mem_cons.mp hx with rfl | hx
      · exact Or.inr (List.mem_append_right _ List.mem_cons_self)
      · exact Or.inl hx
    case once =>
      intro hp
      refine List.nodup_append.mpr ⟨hp, List.nodup_singleton b, fun x hx y hy hxy => hb ?_⟩
      rw [← List.mem_singleton.mp hy, ← hxy]
      exact hx
    case count =>
      have hseen : (p.1 ++ [b]).length = p.1.length + 1 := List.length_append
      show (p.1 ++ [b]).length + p.2.length = p.1.length + (p.2.length + 1)
      omega

lemma visited_foldl (bs : List α) (p : List α × List α) : Visited bs p (bs.foldl visit p) := by
  induction bs generalizing p with
  | nil => exact visited_nil p
  | cons b bs ih => exact (visited_visit p b).trans (ih (visit p b))

variable {next : α → List α} {all seen pending : List α}

/-- **The search is closed**: it ends with what it started from and with all that an edge leads to
from there, and with nothing else of what no edge leaves. -/
theorem explore_closed (hnext : ∀ a ∈ all, next a ⊆ all) {n : ℕ} (hseen : seen.Nodup)
    (hall : seen ⊆ all) (hpending : pending ⊆ seen)
    (hdone : ∀ a ∈ seen, a ∈ pending ∨ next a ⊆ seen)
    (hcount : all.length + pending.length ≤ n + seen.length) :
    seen ⊆ explore next n seen pending ∧ explore next n seen pending ⊆ all ∧
      (explore next n seen pending).Nodup ∧
      ∀ a ∈ explore next n seen pending, next a ⊆ explore next n seen pending := by
  induction n generalizing seen pending with
  | zero =>
    have hlen : seen.length ≤ all.length := (List.subperm_of_subset hseen hall).length_le
    have hnone : pending = [] := List.eq_nil_of_length_eq_zero (by omega)
    subst hnone
    exact ⟨List.Subset.refl _, hall, hseen, fun a ha => (hdone a ha).resolve_left List.not_mem_nil⟩
  | succ n ih =>
    cases pending with
    | nil =>
      exact ⟨List.Subset.refl _, hall, hseen,
        fun a ha => (hdone a ha).resolve_left List.not_mem_nil⟩
    | cons b pending =>
      have hv := visited_foldl (next b) (seen, pending)
      generalize hp : (next b).foldl visit (seen, pending) = p at hv
      have hb : b ∈ seen := hpending List.mem_cons_self
      have hrest : pending ⊆ seen := fun x hx => hpending (List.mem_cons_of_mem _ hx)
      have hstep : explore next (n + 1) seen (b :: pending) = explore next n p.1 p.2 := by
        rw [explore, hp]
      have hseen' : p.1 ⊆ all := by
        intro x hx
        rcases hv.nothing_else x hx with hx | hx
        · exact hall hx
        · exact hnext b (hall hb) hx
      have hpending' : p.2 ⊆ p.1 := by
        intro x hx
        exact (hv.from_seen x hx).elim (fun h => hv.kept (hrest h)) id
      have hdone' : ∀ a ∈ p.1, a ∈ p.2 ∨ next a ⊆ p.1 := by
        intro a ha
        rcases hv.stacked a ha with hold | hnew
        · rcases hdone a hold with hwait | hclosed
          · rcases List.mem_cons.mp hwait with rfl | hwait
            · exact Or.inr hv.found
            · exact Or.inl (hv.waiting hwait)
          · exact Or.inr (List.Subset.trans hclosed hv.kept)
        · exact Or.inl hnew
      have hcount' : all.length + p.2.length ≤ n + p.1.length := by
        have h := hv.count
        rw [List.length_cons] at hcount
        dsimp only at h
        omega
      obtain ⟨hsub, hin, hnodup, hclosed⟩ := ih (hv.once hseen) hseen' hpending' hdone' hcount'
      rw [hstep]
      exact ⟨List.Subset.trans hv.kept hsub, hin, hnodup, hclosed⟩

end FabPcb.Worklist
