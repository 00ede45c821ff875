import Mathlib.Data.List.Nodup
import Mathlib.Data.List.Perm.Basic

/-!
Maps that remember the order in which their keys were first inserted, and the sets they
give by carrying no value.

Setting a key that is present keeps its position, deleting it forgets the position; the
entries never repeat a key, which is a field of the structure. Everything is said through
`get?`, and the order only through `entries`.
-/

namespace FabPcb.OrderedMap

/-- An insertion-ordered map: its entries in order, no key twice. -/
structure OMap (κ ν : Type*) where
  entries : List (κ × ν)
  nodup : (entries.map Prod.fst).Nodup

/-- An insertion-ordered set. -/
abbrev OSet (κ : Type*) := OMap κ Unit

variable {κ ν : Type*}

@[ext] lemma OMap.ext {m n : OMap κ ν} (h : m.entries = n.entries) : m = n := by
  cases m; cases h; rfl

namespace OMap

def empty : OMap κ ν := ⟨[], List.nodup_nil⟩

def keys (m : OMap κ ν) : List κ := m.entries.map Prod.fst

def values (m : OMap κ ν) : List ν := m.entries.map Prod.snd

def size (m : OMap κ ν) : ℕ := m.entries.length

variable [DecidableEq κ]

def get? (m : OMap κ ν) (k : κ) : Option ν := (m.entries.find? (·.1 = k)).map Prod.snd

def has (m : OMap κ ν) (k : κ) : Bool := (m.get? k).isSome

/-- The entries once `k` is bound to `v`: in place when `k` is there, at the end if not. -/
def setEntries (l : List (κ × ν)) (k : κ) (v : ν) : List (κ × ν) :=
  if k ∈ l.map Prod.fst then l.map fun e => if e.1 = k then (k, v) else e else l ++ [(k, v)]

lemma setEntries_keys (l : List (κ × ν)) (k : κ) (v : ν) :
    (setEntries l k v).map Prod.fst =
      if k ∈ l.map Prod.fst then l.map Prod.fst else l.map Prod.fst ++ [k] := by
  unfold setEntries
  split
  · rw [List.map_map]
    refine List.map_congr_left fun e _ => ?_
    by_cases he : e.1 = k <;> simp [he]
  · simp

def set (m : OMap κ ν) (k : κ) (v : ν) : OMap κ ν where
  entries := setEntries m.entries k v
  nodup := by
    rw [setEntries_keys]
    split
    · exact m.nodup
    · rename_i h
      refine List.nodup_append.mpr ⟨m.nodup, List.nodup_singleton k, ?_⟩
      rintro a ha b hb rfl
      exact h (List.mem_singleton.mp hb ▸ ha)

def delete (m : OMap κ ν) (k : κ) : OMap κ ν where
  entries := m.entries.filter (·.1 ≠ k)
  nodup := m.nodup.sublist (List.filter_sublist.map Prod.fst)

/-- The map a list of bindings builds, the later ones winning. -/
def ofList (l : List (κ × ν)) : OMap κ ν := l.foldl (fun m e => m.set e.1 e.2) empty

/-! ### Looking up -/

lemma get?_eq_some_iff {m : OMap κ ν} {k : κ} {v : ν} :
    m.get? k = some v ↔ (k, v) ∈ m.entries := by
  obtain ⟨l, hl⟩ := m
  simp only [get?]
  induction l with
  | nil => simp
  | cons e l ih =>
    obtain ⟨a, b⟩ := e
    simp only [List.map_cons, List.nodup_cons] at hl
    by_cases ha : a = k
    · subst ha
      have hnot : (a, v) ∉ l := fun h => hl.1 (List.mem_map_of_mem (f := Prod.fst) h)
      simp [hnot, eq_comm]
    · have hne : ¬ (k = a ∧ v = b) := fun h => ha h.1.symm
      simpa [ha, hne] using ih hl.2

lemma mem_keys_iff {m : OMap κ ν} {k : κ} : k ∈ m.keys ↔ ∃ v, m.get? k = some v := by
  simp only [keys, List.mem_map, get?_eq_some_iff]
  constructor
  · rintro ⟨⟨a, b⟩, h, rfl⟩
    exact ⟨b, h⟩
  · rintro ⟨v, h⟩
    exact ⟨(k, v), h, rfl⟩

omit [DecidableEq κ] in
lemma keys_nodup (m : OMap κ ν) : m.keys.Nodup := m.nodup

lemma mem_values_iff {m : OMap κ ν} {v : ν} : v ∈ m.values ↔ ∃ k, m.get? k = some v := by
  simp only [values, List.mem_map, get?_eq_some_iff]
  constructor
  · rintro ⟨⟨a, b⟩, h, rfl⟩
    exact ⟨a, h⟩
  · rintro ⟨k, h⟩
    exact ⟨(k, v), h, rfl⟩

lemma has_iff {m : OMap κ ν} {k : κ} : m.has k = true ↔ ∃ v, m.get? k = some v := by
  simp [has, Option.isSome_iff_exists]

lemma has_iff_ne {m : OMap κ ν} {k : κ} : m.has k = true ↔ m.get? k ≠ none := by
  simp [has, Option.isSome_iff_ne_none]

lemma has_eq_false_iff {m : OMap κ ν} {k : κ} : m.has k = false ↔ m.get? k = none := by
  simp [has]

lemma mem_keys_iff_has {m : OMap κ ν} {k : κ} : k ∈ m.keys ↔ m.has k = true := by
  rw [mem_keys_iff, has_iff]

@[simp] lemma get?_empty (k : κ) : (empty : OMap κ ν).get? k = none := rfl

@[simp] lemma get?_set (m : OMap κ ν) (k k' : κ) (v : ν) :
    (m.set k v).get? k' = if k' = k then some v else m.get? k' := by
  have key : ∀ w, (m.set k v).get? k' = some w ↔
      (if k' = k then some v else m.get? k') = some w := by
    intro w
    rw [get?_eq_some_iff]
    by_cases hk : k' = k
    · subst hk
      simp only [set, setEntries, ↓reduceIte, Option.some.injEq]
      split_ifs with h
      · obtain ⟨⟨a, b⟩, hab, rfl⟩ := List.mem_map.mp h
        simp only [List.mem_map]
        constructor
        · rintro ⟨e, -, he⟩
          by_cases hea : e.1 = a
          · simp only [hea, ↓reduceIte, Prod.mk.injEq, true_and] at he; exact he
          · simp only [hea, ↓reduceIte] at he; exact absurd (congrArg Prod.fst he) hea
        · rintro rfl
          exact ⟨(a, b), hab, by simp⟩
      · have hno : (k', w) ∉ m.entries := fun hm => h (List.mem_map_of_mem (f := Prod.fst) hm)
        simp [hno, eq_comm]
    · simp only [set, setEntries, hk, ↓reduceIte, get?_eq_some_iff]
      split_ifs with h
      · simp only [List.mem_map]
        constructor
        · rintro ⟨e, he, hew⟩
          by_cases hea : e.1 = k
          · simp only [hea, ↓reduceIte, Prod.mk.injEq] at hew; exact absurd hew.1.symm hk
          · simp only [hea, ↓reduceIte] at hew; exact hew ▸ he
        · intro hm
          exact ⟨_, hm, by simp [hk]⟩
      · simp [hk]
  exact Option.ext key

@[simp] lemma get?_delete (m : OMap κ ν) (k k' : κ) :
    (m.delete k).get? k' = if k' = k then none else m.get? k' := by
  have key : ∀ w, (m.delete k).get? k' = some w ↔
      (if k' = k then none else m.get? k') = some w := by
    intro w
    rw [get?_eq_some_iff]
    by_cases hk : k' = k
    · simp [delete, hk]
    · simp [delete, hk, get?_eq_some_iff]
  exact Option.ext key

@[simp] lemma has_set (m : OMap κ ν) (k k' : κ) (v : ν) :
    (m.set k v).has k' = (decide (k' = k) || m.has k') := by
  by_cases h : k' = k <;> simp [has, h]

@[simp] lemma has_delete (m : OMap κ ν) (k k' : κ) :
    (m.delete k).has k' = (!decide (k' = k) && m.has k') := by
  by_cases h : k' = k <;> simp [has, h]

@[simp] lemma has_empty (k : κ) : (empty : OMap κ ν).has k = false := rfl

lemma size_eq_zero_iff {m : OMap κ ν} : m.size = 0 ↔ ∀ k, m.get? k = none := by
  constructor
  · intro h k
    have hnil : m.entries = [] := List.length_eq_zero_iff.mp h
    simp [get?, hnil]
  · intro h
    refine List.length_eq_zero_iff.mpr (List.eq_nil_iff_forall_not_mem.mpr ?_)
    rintro ⟨a, b⟩ hab
    rw [← get?_eq_some_iff, h a] at hab
    cases hab

lemma values_nodup {m : OMap κ ν} {key : ν → κ} (hkey : ∀ k v, m.get? k = some v → key v = k) :
    m.values.Nodup := by
  have : m.values.map key = m.keys := by
    simp only [values, keys, List.map_map]
    refine List.map_congr_left fun e he => ?_
    exact hkey e.1 e.2 (get?_eq_some_iff.mpr he)
  exact List.Nodup.of_map key (this ▸ m.nodup)

end OMap

end FabPcb.OrderedMap
