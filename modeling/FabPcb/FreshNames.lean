import Mathlib.Data.List.Nodup
import Mathlib.Data.List.Perm.Subperm
import Mathlib.Data.List.Range

/-!
The first free name of a numbered family.

`firstFree` tries one number after the other. Among more names than are taken one is free.
-/

namespace FabPcb.FreshNames

section Free

variable {α : Type} [DecidableEq α]

/-- One try for each unit of fuel, from a number on. -/
def firstFree (name : ℕ → α) (taken : List α) : ℕ → ℕ → ℕ
  | 0, i => i
  | tries + 1, i => if name i ∈ taken then firstFree name taken tries (i + 1) else i

variable {name : ℕ → α}

lemma taken_of_firstFree {taken : List α} {tries i : ℕ}
    (h : name (firstFree name taken tries i) ∈ taken) : ∀ j < tries, name (i + j) ∈ taken := by
  induction tries generalizing i with
  | zero => exact fun j hj => absurd hj (Nat.not_lt_zero j)
  | succ tries ih =>
    rw [firstFree] at h
    split_ifs at h with htaken
    · intro j hj
      cases j with
      | zero => exact htaken
      | succ j =>
        have hnext := ih h j (Nat.lt_of_succ_lt_succ hj)
        rwa [Nat.add_assoc, Nat.add_comm 1 j] at hnext
    · exact absurd h htaken

/-- **There are more names than are taken.** -/
theorem firstFree_notMem (hname : Function.Injective name) (taken : List α) (i : ℕ) :
    name (firstFree name taken (taken.length + 1) i) ∉ taken := by
  intro h
  have htaken := taken_of_firstFree h
  have hnodup : ((List.range (taken.length + 1)).map fun j => name (i + j)).Nodup :=
    List.nodup_range.map fun a b hab => Nat.add_left_cancel (hname hab)
  have hsubset : ((List.range (taken.length + 1)).map fun j => name (i + j)) ⊆ taken := by
    intro s hs
    obtain ⟨j, hj, rfl⟩ := List.mem_map.mp hs
    exact htaken j (List.mem_range.mp hj)
  have hlength := (List.subperm_of_subset hnodup hsubset).length_le
  rw [List.length_map, List.length_range] at hlength
  omega

end Free

/-! ### Numbers behind a text -/

lemma toString_injective : Function.Injective (toString : ℕ → String) := by
  intro i j h
  rw [Nat.toString_eq_ofList_toDigits, Nat.toString_eq_ofList_toDigits, String.ofList_inj] at h
  have hread := congrArg (fun cs => Nat.ofDigitChars 10 cs 0) h
  simp only [Nat.ofDigitChars_toDigits (show 1 < 10 by decide) (show 10 ≤ 10 by decide)] at hread
  exact hread

lemma numbered_injective (stem : String) : Function.Injective fun i : ℕ => stem ++ toString i := by
  intro i j h
  have hlist := congrArg String.toList h
  simp only [String.toList_append] at hlist
  exact toString_injective (String.toList_inj.mp (List.append_cancel_left hlist))

lemma last_unique {α : Type} {sep : α} {a a' d d' : List α} (hd : sep ∉ d) (hd' : sep ∉ d')
    (h : a ++ sep :: d = a' ++ sep :: d') : a = a' ∧ d = d' := by
  rcases List.append_eq_append_iff.mp h with ⟨c, rfl, hc⟩ | ⟨c, rfl, hc⟩
  · cases c with
    | nil =>
      cases hc
      exact ⟨(List.append_nil a).symm, rfl⟩
    | cons e c =>
      cases hc
      exact absurd (List.mem_append_right c List.mem_cons_self) hd
  · cases c with
    | nil =>
      cases hc
      exact ⟨List.append_nil a', rfl⟩
    | cons e c =>
      cases hc
      exact absurd (List.mem_append_right c List.mem_cons_self) hd'

lemma keyed_inj {sep : Char} (hsep : sep.isDigit = false) {stem stem' : String} {i j : ℕ}
    (h : stem ++ String.singleton sep ++ toString i = stem' ++ String.singleton sep ++ toString j) :
    stem = stem' ∧ i = j := by
  have hnotMem : ∀ n : ℕ, sep ∉ (toString n : String).toList := by
    intro n hmem
    rw [Nat.toString_eq_ofList_toDigits, String.toList_ofList] at hmem
    rw [Nat.isDigit_of_mem_toDigits (by decide) (by decide) hmem] at hsep
    cases hsep
  have hlist := congrArg String.toList h
  simp only [String.toList_append, String.toList_singleton, List.append_assoc,
    List.singleton_append] at hlist
  obtain ⟨hstem, hnumber⟩ := last_unique (hnotMem i) (hnotMem j) hlist
  exact ⟨String.toList_inj.mp hstem, toString_injective (String.toList_inj.mp hnumber)⟩

end FabPcb.FreshNames
