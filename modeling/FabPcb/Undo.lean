import FabPcb.StoreContent

/-!
`store/undo.ts`: the patch that takes back another one.

`inversePatch` reads the store before the patch is applied. Everything it writes is the
version the store held at that moment, and it writes every id the patch changes, so applied
right after the patch it restores the store. Applied later, it still writes those versions.
-/

namespace FabPcb.Undo

open OrderedMap Writes ItemStore StoreContent

variable {P : Type*}

/-- What `inversePatch` has collected: the ids considered and the patch so far. -/
structure Inverse (P : Type*) where
  seen : OSet String
  patch : StorePatch P

def consider (store : MemoryItemStore P) (willExist : Bool) (acc : Inverse P) (id : String) :
    Inverse P :=
  if acc.seen.has id then acc
  else
    let seen := acc.seen.set id ()
    match store.get id, willExist with
    | some prev, true =>
      { seen, patch := { acc.patch with updated := acc.patch.updated ++ [prev] } }
    | some prev, false => { seen, patch := { acc.patch with added := acc.patch.added ++ [prev] } }
    | none, true => { seen, patch := { acc.patch with removed := acc.patch.removed ++ [id] } }
    | none, false => { seen, patch := acc.patch }

def inversePatch (store : MemoryItemStore P) (patch : StorePatch P) : StorePatch P :=
  let acc := (patch.added.map (·.id)).foldl (consider store true) ⟨OMap.empty, {}⟩
  let acc := (patch.updated.map (·.id)).foldl (consider store true) acc
  let acc := patch.removed.foldl (consider store false) acc
  acc.patch

/-! ### One id considered -/

variable {store : MemoryItemStore P} {acc : Inverse P} {id x : String} {willExist : Bool}

lemma consider_seen :
    (consider store willExist acc id).seen.has x = (acc.seen.has x || decide (x = id)) := by
  unfold consider
  split_ifs with h
  · by_cases hx : x = id
    · subst hx; simp [h]
    · simp [hx]
  · rcases store.get id with _ | prev <;> cases willExist <;> simp [Bool.or_comm]

lemma mem_ids_consider (hk : Keyed (content store)) :
    x ∈ StorePatch.ids (consider store willExist acc id).patch ↔
      x ∈ StorePatch.ids acc.patch ∨
        (x = id ∧ acc.seen.has id = false ∧ (store.get id ≠ none ∨ willExist = true)) := by
  unfold consider
  split_ifs with h
  · simp [h]
  · rcases hg : store.get id with _ | prev
    · cases willExist <;> simp [StorePatch.ids, h, or_comm, or_left_comm]
    · have hid : prev.id = id := hk id prev hg
      cases willExist <;> simp [StorePatch.ids, h, hid, or_comm, or_left_comm]

lemma writes_consider (hk : Keyed (content store))
    (hacc : ∀ w ∈ StorePatch.writes acc.patch, w.2 = content store w.1) :
    ∀ w ∈ StorePatch.writes (consider store willExist acc id).patch, w.2 = content store w.1 := by
  intro w hw
  unfold consider at hw
  split_ifs at hw with h
  · exact hacc w hw
  · -- the one new write, if any, is of the version the store holds
    have hnew : w ∈ StorePatch.writes acc.patch ∨ w = (id, store.get id) := by
      rcases hg : store.get id with _ | prev
      · rw [hg] at hw
        cases willExist <;> simp only [StorePatch.writes, List.map_append, List.mem_append,
          List.map_cons, List.map_nil, List.mem_singleton] at hw ⊢ <;> grind
      · have hid : prev.id = id := hk id prev hg
        rw [hg] at hw
        cases willExist <;> simp only [StorePatch.writes, List.map_append, List.mem_append,
          List.map_cons, List.map_nil, List.mem_singleton, hid] at hw ⊢ <;> grind
    rcases hnew with hold | rfl
    · exact hacc w hold
    · rfl

/-! ### The loops -/

lemma foldl_seen (ids : List String) :
    (ids.foldl (consider store willExist) acc).seen.has x =
      (acc.seen.has x || decide (x ∈ ids)) := by
  induction ids generalizing acc with
  | nil => simp
  | cons id ids ih => rw [List.foldl_cons, ih, consider_seen]; simp [Bool.or_assoc]

lemma foldl_writes (hk : Keyed (content store)) (ids : List String)
    (hacc : ∀ w ∈ StorePatch.writes acc.patch, w.2 = content store w.1) :
    ∀ w ∈ StorePatch.writes (ids.foldl (consider store willExist) acc).patch,
      w.2 = content store w.1 := by
  induction ids generalizing acc with
  | nil => exact hacc
  | cons id ids ih => exact ih (writes_consider hk hacc)

lemma mem_ids_foldl (hk : Keyed (content store)) (ids : List String) :
    x ∈ StorePatch.ids (ids.foldl (consider store willExist) acc).patch ↔
      x ∈ StorePatch.ids acc.patch ∨
        (x ∈ ids ∧ acc.seen.has x = false ∧ (store.get x ≠ none ∨ willExist = true)) := by
  induction ids generalizing acc with
  | nil => simp
  | cons id ids ih =>
    rw [List.foldl_cons, ih, mem_ids_consider hk, consider_seen]
    by_cases hx : x = id
    · subst hx; simp
    · simp [hx]

/-- The ids an inverse writes: those the patch sets, and the present ones it removes. -/
theorem mem_ids_inversePatch (hk : Keyed (content store)) (p : StorePatch P) :
    x ∈ StorePatch.ids (inversePatch store p) ↔
      x ∈ StorePatch.sets p ∨ (x ∈ p.removed ∧ content store x ≠ none) := by
  have hempty : x ∉ StorePatch.ids (⟨OMap.empty, {}⟩ : Inverse P).patch := by
    simp [StorePatch.ids]
  unfold inversePatch
  rw [mem_ids_foldl hk, mem_ids_foldl hk, mem_ids_foldl hk, foldl_seen]
  simp only [hempty, false_or, OMap.has_empty, Bool.false_or, StorePatch.sets, List.map_append,
    List.mem_append, content]
  by_cases ha : x ∈ p.added.map (·.id)
  · simp [ha]
  · by_cases hu : x ∈ p.updated.map (·.id)
    · simp [ha, hu]
    · simp [ha, hu, foldl_seen]

/-- Whatever an inverse writes is the version captured. -/
theorem writes_inversePatch (hk : Keyed (content store)) (p : StorePatch P) :
    ∀ w ∈ StorePatch.writes (inversePatch store p), w.2 = content store w.1 := by
  refine foldl_writes hk _ (foldl_writes hk _ (foldl_writes hk _ ?_))
  intro w hw
  simp [StorePatch.writes] at hw

/-- **What applying an inverse does**, at any later time: the ids it writes go back to the
versions captured, the others keep what they hold. -/
theorem writeAll_inversePatch (hk : Keyed (content store)) (p : StorePatch P) (m : Content P)
    (x : String) :
    writeAll m (StorePatch.writes (inversePatch store p)) x =
      if x ∈ StorePatch.ids (inversePatch store p) then content store x else m x := by
  rw [← writes_keys]
  exact writeAll_of_agree (writes_inversePatch hk p) x

/-- **An inverse takes its patch back** when nothing came between. -/
theorem apply_inversePatch (hk : Keyed (content store)) (p : StorePatch P) :
    content ((store.apply p).1.apply (inversePatch store p)).1 = content store := by
  funext x
  rw [content_apply, writeAll_inversePatch hk]
  split_ifs with h
  · rfl
  · rw [mem_ids_inversePatch hk] at h
    push Not at h
    rw [content_apply, writeAll_of_notMem_sets _ h.1]
    split_ifs with hr
    · exact (h.2 hr).symm
    · rfl

end FabPcb.Undo
