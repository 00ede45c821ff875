import Mathlib.Logic.Function.Basic
import Mathlib.Data.List.Basic
import FabPcb.OrderedMap

/-!
Lists of writes to a function: what a sequence of overwrites leaves, read off the last
write to each key.

A store that is changed key by key is a function and a change of it a list of writes, so
running changes one after the other is appending lists, and what a key holds in the end is
its last write, or the value it started with.
-/

namespace FabPcb.Writes

variable {κ ν : Type*} [DecidableEq κ]

/-- Overwriting the keys of `ws`, in order. -/
def writeAll (m : κ → ν) (ws : List (κ × ν)) : κ → ν :=
  ws.foldl (fun m w => Function.update m w.1 w.2) m

/-- The last value `ws` writes to `k`, if it writes to `k`. -/
def lastWrite (ws : List (κ × ν)) (k : κ) : Option ν :=
  (ws.reverse.find? (·.1 = k)).map Prod.snd

@[simp] lemma writeAll_nil (m : κ → ν) : writeAll m [] = m := rfl

@[simp] lemma writeAll_cons (m : κ → ν) (w : κ × ν) (ws : List (κ × ν)) :
    writeAll m (w :: ws) = writeAll (Function.update m w.1 w.2) ws := rfl

lemma writeAll_append (m : κ → ν) (ws vs : List (κ × ν)) :
    writeAll m (ws ++ vs) = writeAll (writeAll m ws) vs := by
  simp [writeAll, List.foldl_append]

@[simp] lemma lastWrite_nil (k : κ) : lastWrite ([] : List (κ × ν)) k = none := rfl

lemma lastWrite_append (ws vs : List (κ × ν)) (k : κ) :
    lastWrite (ws ++ vs) k = (lastWrite vs k).or (lastWrite ws k) := by
  simp only [lastWrite, List.reverse_append, List.find?_append]
  cases vs.reverse.find? (·.1 = k) <;> simp

lemma lastWrite_singleton (a : κ) (v : ν) (k : κ) :
    lastWrite [(a, v)] k = if a = k then some v else none := by
  by_cases h : a = k <;> simp [lastWrite, h]

lemma lastWrite_cons (w : κ × ν) (ws : List (κ × ν)) (k : κ) :
    lastWrite (w :: ws) k = (lastWrite ws k).or (if w.1 = k then some w.2 else none) := by
  rw [← List.singleton_append, lastWrite_append, ← lastWrite_singleton]

/-- **What a sequence of writes leaves**: the last write, or the old value. -/
theorem writeAll_apply (m : κ → ν) (ws : List (κ × ν)) (k : κ) :
    writeAll m ws k = (lastWrite ws k).getD (m k) := by
  induction ws generalizing m with
  | nil => rfl
  | cons w ws ih =>
    rw [writeAll_cons, ih, lastWrite_cons]
    cases lastWrite ws k with
    | some v => simp
    | none =>
      by_cases h : w.1 = k
      · subst h; simp
      · simp [h, Function.update_of_ne (Ne.symm h)]

lemma lastWrite_eq_none_iff {ws : List (κ × ν)} {k : κ} :
    lastWrite ws k = none ↔ k ∉ ws.map Prod.fst := by
  simp only [lastWrite, Option.map_eq_none_iff, List.find?_eq_none, List.mem_reverse,
    decide_eq_true_eq, List.mem_map, not_exists, not_and]

lemma lastWrite_isSome_iff {ws : List (κ × ν)} {k : κ} :
    (lastWrite ws k).isSome ↔ k ∈ ws.map Prod.fst := by
  rw [Option.isSome_iff_ne_none, ne_eq, lastWrite_eq_none_iff, not_not]

lemma writeAll_of_notMem {m : κ → ν} {ws : List (κ × ν)} {k : κ} (h : k ∉ ws.map Prod.fst) :
    writeAll m ws k = m k := by
  rw [writeAll_apply, lastWrite_eq_none_iff.mpr h]; rfl

lemma writeAll_congr_of_mem {m n : κ → ν} {ws : List (κ × ν)} {k : κ}
    (h : k ∈ ws.map Prod.fst) : writeAll m ws k = writeAll n ws k := by
  obtain ⟨v, hv⟩ := Option.isSome_iff_exists.mp (lastWrite_isSome_iff.mpr h)
  simp [writeAll_apply, hv]

lemma writeAll_congr {m : κ → ν} {ws vs : List (κ × ν)}
    (h : ∀ k, (lastWrite ws k).getD (m k) = (lastWrite vs k).getD (m k)) :
    writeAll m ws = writeAll m vs := by
  funext k
  rw [writeAll_apply, writeAll_apply, h]

lemma lastWrite_filter (p : κ → Bool) (ws : List (κ × ν)) (k : κ) :
    lastWrite (ws.filter fun w => p w.1) k = if p k then lastWrite ws k else none := by
  induction ws with
  | nil => simp
  | cons w ws ih =>
    by_cases hp : p w.1 = true
    · rw [List.filter_cons_of_pos (by simpa using hp), lastWrite_cons, lastWrite_cons, ih]
      by_cases hk : w.1 = k
      · subst hk; simp [hp]
      · simp [hk]
    · rw [List.filter_cons_of_neg (by simpa using hp), lastWrite_cons, ih]
      by_cases hk : w.1 = k
      · subst hk; simp [hp]
      · simp [hk]

lemma lastWrite_partition (p : κ → Bool) (ws : List (κ × ν)) (k : κ) :
    lastWrite ((ws.filter fun w => !p w.1) ++ ws.filter fun w => p w.1) k = lastWrite ws k := by
  rw [lastWrite_append, lastWrite_filter, lastWrite_filter (fun k => !p k)]
  cases p k <;> simp

/-- **Writes that change nothing**: every key is left with what it held. -/
theorem writeAll_eq_self_iff {m : κ → ν} {ws : List (κ × ν)} :
    writeAll m ws = m ↔ ∀ k v, lastWrite ws k = some v → v = m k := by
  constructor
  · intro h k v hv
    have := congrFun h k
    simpa [writeAll_apply, hv] using this
  · intro h
    funext k
    rw [writeAll_apply]
    cases hv : lastWrite ws k with
    | none => rfl
    | some v => exact h k v hv

lemma mem_of_lastWrite {ws : List (κ × ν)} {k : κ} {v : ν} (h : lastWrite ws k = some v) :
    (k, v) ∈ ws := by
  obtain ⟨⟨a, b⟩, hab, rfl⟩ := Option.map_eq_some_iff.mp h
  have hk : a = k := by simpa using List.find?_some hab
  exact hk ▸ List.mem_reverse.mp (List.mem_of_find?_eq_some hab)

lemma writeAll_of_agree {m f : κ → ν} {ws : List (κ × ν)} (h : ∀ w ∈ ws, w.2 = f w.1) (k : κ) :
    writeAll m ws k = if k ∈ ws.map Prod.fst then f k else m k := by
  split_ifs with hk
  · obtain ⟨v, hv⟩ := Option.isSome_iff_exists.mp (lastWrite_isSome_iff.mpr hk)
    have hval : v = f k := h _ (mem_of_lastWrite hv)
    rw [writeAll_apply, hv, Option.getD_some, hval]
  · exact writeAll_of_notMem hk

lemma lastWrite_of_mem {ws : List (κ × ν)} (hnd : (ws.map Prod.fst).Nodup) {k : κ} {v : ν}
    (h : (k, v) ∈ ws) : lastWrite ws k = some v := by
  obtain ⟨v', hv'⟩ := Option.isSome_iff_exists.mp
    (lastWrite_isSome_iff.mpr (List.mem_map_of_mem (f := Prod.fst) h))
  have heq := List.inj_on_of_nodup_map hnd (mem_of_lastWrite hv') h rfl
  rw [hv', (Prod.mk.inj heq).2]

lemma writeAll_perm {m : κ → ν} {ws vs : List (κ × ν)} (hperm : ws.Perm vs)
    (hnd : (ws.map Prod.fst).Nodup) : writeAll m ws = writeAll m vs := by
  have hnd' : (vs.map Prod.fst).Nodup := (hperm.map Prod.fst).nodup_iff.mp hnd
  refine writeAll_congr fun k => ?_
  cases hv : lastWrite ws k with
  | some v => rw [lastWrite_of_mem hnd' (hperm.mem_iff.mp (mem_of_lastWrite hv))]
  | none =>
    have hnone : lastWrite vs k = none := by
      rw [lastWrite_eq_none_iff] at hv ⊢
      exact fun h => hv ((hperm.map Prod.fst).mem_iff.mpr h)
    rw [hnone]

/-! ### Maps built from bindings -/

open OrderedMap in
lemma get?_foldl_set (l : List (κ × ν)) (m : OMap κ ν) (k : κ) :
    (l.foldl (fun m e => m.set e.1 e.2) m).get? k = (lastWrite l k).or (m.get? k) := by
  induction l generalizing m with
  | nil => simp
  | cons e l ih =>
    rw [List.foldl_cons, ih, lastWrite_cons]
    by_cases h : e.1 = k
    · subst h; cases lastWrite l e.1 <;> simp
    · cases lastWrite l k <;> simp [h, Ne.symm h]

open OrderedMap in
lemma get?_ofList (l : List (κ × ν)) (k : κ) : (OMap.ofList l).get? k = lastWrite l k := by
  simp [OMap.ofList, get?_foldl_set]

end FabPcb.Writes
