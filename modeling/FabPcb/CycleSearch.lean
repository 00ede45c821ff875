import Mathlib.Data.List.Nodup
import Mathlib.Data.List.Perm.Subperm

/-!
Cycles in a graph whose points have two neighbours each.

A trail that goes on to the other neighbour can only run into its own first point: any other point
of it has both its neighbours on the trail already. In a finite graph it does so in the end.
-/

namespace FabPcb.CycleSearch

variable {α : Type*}

lemma eq_of_length_two {l : List α} (hl : l.length = 2) {a b c : α} (ha : a ∈ l) (hb : b ∈ l)
    (hc : c ∈ l) : a = b ∨ a = c ∨ b = c := by
  obtain ⟨u, v, rfl⟩ := List.length_eq_two.mp hl
  simp only [List.mem_cons, List.not_mem_nil, or_false] at ha hb hc
  rcases ha with rfl | rfl <;> rcases hb with rfl | rfl <;> rcases hc with rfl | rfl <;> simp

lemma mem_iff_of_length_two {l : List α} (hl : l.length = 2) {a b : α} (ha : a ∈ l) (hb : b ∈ l)
    (hne : a ≠ b) {c : α} : c ∈ l ↔ c = a ∨ c = b := by
  refine ⟨fun hc => ?_, ?_⟩
  · rcases eq_of_length_two hl ha hb hc with h | h | h
    · exact absurd h hne
    · exact .inl h.symm
    · exact .inr h.symm
  · rintro (rfl | rfl)
    · exact ha
    · exact hb

lemma exists_other {l : List α} (hl : l.length = 2) (hnodup : l.Nodup) (b : α) :
    ∃ d ∈ l, d ≠ b := by
  obtain ⟨u, v, rfl⟩ := List.length_eq_two.mp hl
  have huv : u ≠ v := by
    intro h
    rw [h] at hnodup
    exact (List.nodup_cons.mp hnodup).1 List.mem_cons_self
  by_cases hub : u = b
  · exact ⟨v, List.mem_cons_of_mem _ List.mem_cons_self, fun hv => huv (hub.trans hv.symm)⟩
  · exact ⟨u, List.mem_cons_self, hub⟩

/-- The points in `all` have two neighbours each, in `all` again. -/
structure TwoRegular (next : α → List α) (all : List α) : Prop where
  inside : ∀ a ∈ all, next a ⊆ all
  symm : ∀ a b, b ∈ next a → a ∈ next b
  irrefl : ∀ a, a ∉ next a
  nodup : ∀ a, (next a).Nodup
  two : ∀ a ∈ all, (next a).length = 2

/-- Points each next to the one before, none twice; it starts with the last of them. -/
structure Trail (next : α → List α) (ps : List α) : Prop where
  nodup : ps.Nodup
  step : ∀ (i : ℕ) (h : i + 1 < ps.length), ps[i + 1] ∈ next ps[i]

/-- A closed trail. -/
structure Cycle (next : α → List α) (ps : List α) : Prop where
  long : 3 ≤ ps.length
  trail : Trail next ps
  close : ∀ (h : 0 < ps.length), ps[0] ∈ next (getElem ps (ps.length - 1) (by omega))

variable {next : α → List α} {all ps : List α}

lemma Trail.cons (h : Trail next ps) {d : α} (hd : d ∉ ps) (hne : 0 < ps.length)
    (hmem : ps[0] ∈ next d) : Trail next (d :: ps) := by
  refine ⟨List.nodup_cons.mpr ⟨hd, h.nodup⟩, fun i hi => ?_⟩
  cases i with
  | zero => exact hmem
  | succ i => exact h.step i (by rw [List.length_cons] at hi; omega)

/-- **A trail goes on, or it is closed.** -/
lemma extend_or_close (hreg : TwoRegular next all) (h : Trail next ps) (hsub : ps ⊆ all)
    (hlen : 2 ≤ ps.length) : (∃ d, d ∈ all ∧ d ∉ ps ∧ Trail next (d :: ps)) ∨ Cycle next ps := by
  have h0 : 0 < ps.length := by omega
  have hin : ps[0] ∈ all := hsub (List.getElem_mem h0)
  obtain ⟨d, hd, hne⟩ := exists_other (hreg.two _ hin) (hreg.nodup _) ps[1]
  have hback : ps[0] ∈ next d := hreg.symm _ _ hd
  by_cases hmem : d ∈ ps
  · obtain ⟨j, hj, rfl⟩ := List.getElem_of_mem hmem
    have hj0 : j ≠ 0 := by
      rintro rfl
      exact hreg.irrefl _ hd
    have hj1 : j ≠ 1 := by
      rintro rfl
      exact hne rfl
    rcases Nat.lt_or_ge (j + 1) ps.length with hlt | hge
    · -- a point within the trail would have three neighbours
      obtain ⟨k, rfl⟩ : ∃ k, j = k + 1 := ⟨j - 1, by omega⟩
      have hbefore : ps[k] ∈ next ps[k + 1] := hreg.symm _ _ (h.step k hj)
      have hafter : ps[k + 1 + 1] ∈ next ps[k + 1] := h.step (k + 1) hlt
      have hinj := fun (a b : ℕ) (ha : a < ps.length) (hb : b < ps.length) (hab : ps[a] = ps[b]) =>
        (List.Nodup.getElem_inj_iff h.nodup).mp hab
      rcases eq_of_length_two (hreg.two _ (hsub hmem)) hbefore hafter hback with he | he | he
      · exact absurd (hinj _ _ _ _ he) (by omega)
      · exact absurd (hinj _ _ _ _ he) (by omega)
      · exact absurd (hinj _ _ _ _ he) (by omega)
    · obtain rfl : j = ps.length - 1 := by omega
      exact .inr ⟨by omega, h, fun _ => hback⟩
  · exact .inl ⟨d, hreg.inside _ hin hd, hmem, h.cons hmem h0 hback⟩

lemma Trail.subset_cons {d : α} (hsub : ps ⊆ all) (hd : d ∈ all) : d :: ps ⊆ all :=
  List.cons_subset.mpr ⟨hd, hsub⟩

lemma cycle_of_trail (hreg : TwoRegular next all) (n : ℕ) : ∀ ps, Trail next ps → ps ⊆ all →
    2 ≤ ps.length → all.length ≤ n + ps.length → ∃ qs, Cycle next qs ∧ qs ⊆ all ∧ ps ⊆ qs := by
  induction n with
  | zero =>
    intro ps h hsub hlen hroom
    rcases extend_or_close hreg h hsub hlen with ⟨d, hd, hnew, htrail⟩ | hcycle
    · have hle := (List.subperm_of_subset htrail.nodup (Trail.subset_cons hsub hd)).length_le
      rw [List.length_cons] at hle
      omega
    · exact ⟨ps, hcycle, hsub, List.Subset.refl _⟩
  | succ n ih =>
    intro ps h hsub hlen hroom
    rcases extend_or_close hreg h hsub hlen with ⟨d, hd, hnew, htrail⟩ | hcycle
    · obtain ⟨qs, hcycle, hqs, hps⟩ := ih (d :: ps) htrail (Trail.subset_cons hsub hd)
        (by rw [List.length_cons]; omega) (by rw [List.length_cons]; omega)
      exact ⟨qs, hcycle, hqs, fun x hx => hps (List.mem_cons_of_mem _ hx)⟩
    · exact ⟨ps, hcycle, hsub, List.Subset.refl _⟩

/-- **Every point is on a cycle.** -/
theorem exists_cycle (hreg : TwoRegular next all) {first : α} (hfirst : first ∈ all) :
    ∃ qs, Cycle next qs ∧ qs ⊆ all ∧ first ∈ qs := by
  obtain ⟨d, hd, -⟩ := exists_other (hreg.two _ hfirst) (hreg.nodup _) first
  have hne : d ≠ first := by
    rintro rfl
    exact hreg.irrefl _ hd
  have htrail : Trail next [d, first] := by
    refine ⟨?_, fun i hi => ?_⟩
    · simp [hne]
    · obtain rfl : i = 0 := by
        simp only [List.length_cons, List.length_nil] at hi
        omega
      exact hreg.symm _ _ hd
  have hsub : [d, first] ⊆ all := by
    intro x hx
    simp only [List.mem_cons, List.not_mem_nil, or_false] at hx
    rcases hx with rfl | rfl
    · exact hreg.inside _ hfirst hd
    · exact hfirst
  obtain ⟨qs, hcycle, hqs, hps⟩ := cycle_of_trail hreg all.length _ htrail hsub
    (by simp) (by omega)
  exact ⟨qs, hcycle, hqs, hps (List.mem_cons_of_mem _ List.mem_cons_self)⟩

/-- The points of a cycle have their neighbours on it. -/
lemma Cycle.closed (hreg : TwoRegular next all) (h : Cycle next ps) (hsub : ps ⊆ all) :
    ∀ a ∈ ps, next a ⊆ ps := by
  intro a ha
  obtain ⟨i, hi, rfl⟩ := List.getElem_of_mem ha
  have hlong := h.long
  have htwo := hreg.two _ (hsub ha)
  -- the point before and the one behind, around the cycle
  obtain ⟨j, k, hj, hk, hjk, hbefore, hafter⟩ : ∃ j k, ∃ (hj : j < ps.length) (hk : k < ps.length),
      j ≠ k ∧ ps[j] ∈ next ps[i] ∧ ps[k] ∈ next ps[i] := by
    rcases Nat.eq_zero_or_pos i with rfl | hpos
    · exact ⟨ps.length - 1, 1, by omega, by omega, by omega, hreg.symm _ _ (h.close hi),
        h.trail.step 0 (by omega)⟩
    · obtain ⟨m, rfl⟩ : ∃ m, i = m + 1 := ⟨i - 1, by omega⟩
      have hback : ps[m] ∈ next ps[m + 1] := hreg.symm _ _ (h.trail.step m hi)
      rcases Nat.lt_or_ge (m + 2) ps.length with hlt | hge
      · exact ⟨m, m + 2, by omega, hlt, by omega, hback, h.trail.step (m + 1) hlt⟩
      · obtain hlast : m + 1 = ps.length - 1 := by omega
        refine ⟨m, 0, by omega, by omega, by omega, hback, ?_⟩
        have hclose := h.close (by omega)
        simp only [← hlast] at hclose
        exact hclose
  have hne : ps[j] ≠ ps[k] := fun he => hjk ((List.Nodup.getElem_inj_iff h.trail.nodup).mp he)
  intro x hx
  rcases (mem_iff_of_length_two htwo hbefore hafter hne).mp hx with rfl | rfl
  · exact List.getElem_mem _
  · exact List.getElem_mem _

end FabPcb.CycleSearch
