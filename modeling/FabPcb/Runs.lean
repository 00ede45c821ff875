import Mathlib.Data.Option.Basic

/-!
Runs of a partial step function, and runs whose every step meets a condition.

An action that a state does not allow has no step. A condition on steps looks at the state
a step is taken from and the action taken; what is kept by every step that meets it holds
after every run along which it is met.
-/

namespace FabPcb.Runs

variable {σ α : Type*}

/-- The state after some actions, if each of them can be taken. -/
def run (step : σ → α → Option σ) (s : σ) : List α → Option σ
  | [] => some s
  | a :: as => (step s a).bind fun s' => run step s' as

/-- `ok` holds of every step of a run. -/
def Along (step : σ → α → Option σ) (ok : σ → α → Prop) (s : σ) : List α → Prop
  | [] => True
  | a :: as => ok s a ∧ ∀ s' ∈ step s a, Along step ok s' as

instance decidableAlong (step : σ → α → Option σ) (ok : σ → α → Prop)
    [∀ s a, Decidable (ok s a)] (s : σ) (as : List α) : Decidable (Along step ok s as) :=
  match as with
  | [] => isTrue trivial
  | a :: as =>
    have := fun s' => decidableAlong step ok s' as
    inferInstanceAs (Decidable (ok s a ∧ ∀ s' ∈ step s a, Along step ok s' as))

variable {step : σ → α → Option σ} {ok : σ → α → Prop} {s s' : σ}

@[simp] lemma run_nil : run step s [] = some s := rfl

lemma run_cons {a : α} {as : List α} :
    run step s (a :: as) = (step s a).bind fun s' => run step s' as := rfl

lemma run_cons_eq_some {a : α} {as : List α} :
    run step s (a :: as) = some s' ↔ ∃ t, step s a = some t ∧ run step t as = some s' := by
  rw [run_cons, Option.bind_eq_some_iff]

lemma run_append (as bs : List α) :
    run step s (as ++ bs) = (run step s as).bind fun t => run step t bs := by
  induction as generalizing s with
  | nil => rfl
  | cons a as ih =>
    rw [List.cons_append, run_cons, run_cons]
    cases step s a with
    | none => rfl
    | some t => exact ih

lemma run_append_eq_some {as bs : List α} :
    run step s (as ++ bs) = some s' ↔ ∃ t, run step s as = some t ∧ run step t bs = some s' := by
  rw [run_append, Option.bind_eq_some_iff]

lemma along_cons {t : σ} {a : α} {as : List α} (hstep : step s a = some t) (hok : ok s a)
    (hrest : Along step ok t as) : Along step ok s (a :: as) := by
  refine ⟨hok, fun t' ht' => ?_⟩
  rw [hstep] at ht'
  exact Option.some.inj ht' ▸ hrest

/-- **The run rule**: what each step meeting the condition keeps, such a run keeps. -/
theorem invariant_along (Inv : σ → Prop)
    (hstep : ∀ s a s', Inv s → ok s a → step s a = some s' → Inv s')
    {as : List α} (hs : Inv s) (hok : Along step ok s as) (hrun : run step s as = some s') :
    Inv s' := by
  induction as generalizing s with
  | nil => exact Option.some.inj hrun ▸ hs
  | cons a as ih =>
    obtain ⟨t, ht, hrest⟩ := run_cons_eq_some.mp hrun
    exact ih (hstep s a t hs hok.1 ht) (hok.2 t ht) hrest

lemma along_append {as bs : List α} (h : Along step ok s (as ++ bs)) :
    Along step ok s as ∧ ∀ t, run step s as = some t → Along step ok t bs := by
  induction as generalizing s with
  | nil => exact ⟨trivial, fun t ht => Option.some.inj ht ▸ h⟩
  | cons a as ih =>
    refine ⟨⟨h.1, fun t ht => (ih (h.2 t ht)).1⟩, fun u hu => ?_⟩
    obtain ⟨t, ht, hrest⟩ := run_cons_eq_some.mp hu
    exact (ih (h.2 t ht)).2 u hrest

/-- The run rule where every step keeps the invariant. -/
theorem invariant_run (Inv : σ → Prop)
    (hstep : ∀ s a s', Inv s → step s a = some s' → Inv s')
    {as : List α} (hs : Inv s) (hrun : run step s as = some s') : Inv s' := by
  induction as generalizing s with
  | nil => exact Option.some.inj hrun ▸ hs
  | cons a as ih =>
    obtain ⟨t, ht, hrest⟩ := run_cons_eq_some.mp hrun
    exact ih (hstep s a t hs ht) hrest

/-- **Exact conditions on steps**: where a condition on a step says, from a state with the
invariant, just whether `P` holds after it, a run meets the condition at every step when `P`
holds after each of its beginnings. -/
theorem along_iff (Inv P : σ → Prop)
    (hstep : ∀ s a t, Inv s → P s → step s a = some t → (ok s a ↔ P t) ∧ (ok s a → Inv t))
    (hnone : ∀ s a, step s a = none → ok s a) {as : List α} (hs : Inv s) (hP : P s) :
    Along step ok s as ↔ ∀ p, p <+: as → ∀ t, run step s p = some t → P t := by
  induction as generalizing s with
  | nil =>
    refine ⟨fun _ p hp t ht => ?_, fun _ => trivial⟩
    rw [List.prefix_nil.mp hp] at ht
    exact Option.some.inj ht ▸ hP
  | cons a as ih =>
    constructor
    · rintro ⟨hok, hrest⟩ p hp t ht
      cases p with
      | nil => exact Option.some.inj ht ▸ hP
      | cons b p =>
        obtain ⟨rfl, hp'⟩ := List.cons_prefix_cons.mp hp
        obtain ⟨u, hu, hrun⟩ := run_cons_eq_some.mp ht
        obtain ⟨hiff, hinv⟩ := hstep s b u hs hP hu
        exact (ih (hinv hok) (hiff.mp hok)).mp (hrest u hu) p hp' t hrun
    · intro h
      cases hu : step s a with
      | none => exact ⟨hnone s a hu, fun u hu' => by rw [hu] at hu'; cases hu'⟩
      | some u =>
        obtain ⟨hiff, hinv⟩ := hstep s a u hs hP hu
        have hPu : P u := h [a] ⟨as, rfl⟩ u (run_cons_eq_some.mpr ⟨u, hu, rfl⟩)
        have hok : ok s a := hiff.mpr hPu
        refine along_cons hu hok ((ih (hinv hok) hPu).mpr fun p hp t ht => ?_)
        exact h (a :: p) (List.cons_prefix_cons.mpr ⟨rfl, hp⟩) t
          (run_cons_eq_some.mpr ⟨u, hu, ht⟩)

/-! ### The steps of a run -/

/-- The steps of a run: the state each is taken from, its action and the state it leads to. -/
def steps (step : σ → α → Option σ) (s : σ) : List α → List (σ × α × σ)
  | [] => []
  | a :: as =>
    match step s a with
    | none => []
    | some t => (s, a, t) :: steps step t as

/-- **The rule for steps**: each step of a run that meets a condition is taken from a state with
the invariant. -/
theorem steps_along (Inv : σ → Prop)
    (hstep : ∀ s a s', Inv s → ok s a → step s a = some s' → Inv s')
    {as : List α} (hs : Inv s) (hok : Along step ok s as) :
    ∀ x ∈ steps step s as, Inv x.1 ∧ ok x.1 x.2.1 ∧ step x.1 x.2.1 = some x.2.2 := by
  induction as generalizing s with
  | nil => intro x hx; cases hx
  | cons a as ih =>
    intro x hx
    rw [steps] at hx
    cases ht : step s a with
    | none => rw [ht] at hx; cases hx
    | some t =>
      rw [ht] at hx
      rcases List.mem_cons.mp hx with rfl | hmem
      · exact ⟨hs, hok.1, ht⟩
      · exact ih (hstep s a t hs hok.1 ht) (hok.2 t ht) x hmem

end FabPcb.Runs
