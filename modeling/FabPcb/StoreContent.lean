import FabPcb.ItemStore

/-!
The store read as a function from ids.

Every mutation of the store is a list of writes to that function: the indexes follow, and
nothing else about the store decides what `get` answers. `apply` splits a patch into what
is new and what is known before it mutates; the writes it performs are the patch's own.
-/

namespace FabPcb.StoreContent

open OrderedMap Writes ItemStore

variable {P : Type*}

/-- What a store holds under each id. -/
abbrev Content (P : Type*) := String → Option (StoredItem P)

def content (s : MemoryItemStore P) : Content P := s.get

/-- Every item sits under its own id. -/
def Keyed (m : Content P) : Prop := ∀ id it, m id = some it → it.id = id

/-- The writes a patch stands for: its removals, then its additions and updates. -/
def StorePatch.writes (p : StorePatch P) : List (String × Option (StoredItem P)) :=
  p.removed.map (fun id => (id, none)) ++ (p.added ++ p.updated).map fun it => (it.id, some it)

/-- The ids a patch names. -/
def StorePatch.ids (p : StorePatch P) : List String :=
  p.removed ++ (p.added ++ p.updated).map (·.id)

lemma writes_keys (p : StorePatch P) : (StorePatch.writes p).map Prod.fst = StorePatch.ids p := by
  simp [StorePatch.writes, StorePatch.ids, List.map_map, Function.comp_def]

open MemoryItemStore

/-! ### The loops of `apply` -/

@[simp] lemma unindexId_items (s : MemoryItemStore P) (id : String) :
    (s.unindexId id).items = s.items := by
  unfold unindexId
  split <;> rfl

lemma foldl_unindexId_items (ids : List String) (s : MemoryItemStore P) :
    (ids.foldl unindexId s).items = s.items := by
  induction ids generalizing s with
  | nil => rfl
  | cons id ids ih => rw [List.foldl_cons, ih, unindexId_items]

lemma foldl_unindexId_rev (ids : List String) (s : MemoryItemStore P) :
    (ids.foldl unindexId s).rev = s.rev := by
  induction ids generalizing s with
  | nil => rfl
  | cons id ids ih =>
    rw [List.foldl_cons, ih]
    unfold unindexId
    split <;> rfl

lemma content_deleteId (s : MemoryItemStore P) (id : String) :
    content (s.deleteId id) = Function.update (content s) id none := by
  funext x
  by_cases h : x = id
  · subst h; simp [content, MemoryItemStore.get, deleteId]
  · simp [content, MemoryItemStore.get, deleteId, h]

lemma content_foldl_deleteId (ids : List String) (s : MemoryItemStore P) :
    content (ids.foldl deleteId s) = writeAll (content s) (ids.map fun id => (id, none)) := by
  induction ids generalizing s with
  | nil => rfl
  | cons id ids ih => rw [List.foldl_cons, ih, List.map_cons, writeAll_cons, content_deleteId]

lemma content_put (s : MemoryItemStore P) (it : StoredItem P) :
    content (s.put it) = Function.update (content s) it.id (some it) := by
  funext x
  by_cases h : x = it.id
  · subst h; simp [content, MemoryItemStore.get, put, index]
  · simp [content, MemoryItemStore.get, put, index, h]

lemma content_foldl_put (items : List (StoredItem P)) (s : MemoryItemStore P) :
    content (items.foldl put s) =
      writeAll (content s) (items.map fun it => (it.id, some it)) := by
  induction items generalizing s with
  | nil => rfl
  | cons it items ih => rw [List.foldl_cons, ih, List.map_cons, writeAll_cons, content_put]

lemma content_mutate (s : MemoryItemStore P) (added updated : List (StoredItem P))
    (removed : List String) :
    content (s.mutate added updated removed) =
      writeAll (content s) (StorePatch.writes ⟨added, updated, removed⟩) := by
  have hitems : content (removed.foldl unindexId s) = content s := by
    funext x
    simp [content, MemoryItemStore.get, foldl_unindexId_items]
  rw [mutate, content_foldl_put, content_foldl_deleteId, hitems, StorePatch.writes,
    writeAll_append]

/-! ### What `apply` does to the content -/

/-- Splitting the patch by presence changes no last write to a present id, and the
removals it drops were of absent ids. -/
lemma writes_split (s : MemoryItemStore P) (p : StorePatch P) :
    writeAll (content s) (StorePatch.writes ⟨s.addedBy p, s.updatedBy p, s.removedBy p⟩) =
      writeAll (content s) (StorePatch.writes p) := by
  refine writeAll_congr fun id => ?_
  have hsets : (s.addedBy p ++ s.updatedBy p).map (fun it => (it.id, some it)) =
      (((p.added ++ p.updated).map fun it => (it.id, some it)).filter fun w => !s.items.has w.1) ++
      (((p.added ++ p.updated).map fun it => (it.id, some it)).filter fun w => s.items.has w.1) := by
    simp [addedBy, updatedBy, List.filter_map, Function.comp_def]
  have hrem : (s.removedBy p).map (fun id => (id, (none : Option (StoredItem P)))) =
      (p.removed.map fun id => (id, none)).filter fun w => s.items.has w.1 := by
    simp [removedBy, List.filter_map, Function.comp_def]
  simp only [StorePatch.writes]
  rw [hsets, hrem, lastWrite_append, lastWrite_partition, lastWrite_append, lastWrite_filter]
  cases lastWrite ((p.added ++ p.updated).map fun it => (it.id, some it)) id with
  | some v => simp
  | none =>
    -- only a removal can be left: if the id is absent it writes what is already there
    by_cases hs : s.items.has id = true
    · simp [hs]
    · have hnone : content s id = none := OMap.has_eq_false_iff.mp (by simpa using hs)
      cases hr : lastWrite (p.removed.map fun id => (id, (none : Option (StoredItem P)))) id with
      | none => simp [hs]
      | some v =>
        have hv := mem_of_lastWrite hr
        obtain ⟨_, -, h⟩ := List.mem_map.mp hv
        simp [hs, hnone, ← (Prod.mk.inj h).2]

lemma apply_none_iff {s : MemoryItemStore P} {p : StorePatch P} :
    (s.apply p).2 = none ↔ s.addedBy p = [] ∧ s.updatedBy p = [] ∧ s.removedBy p = [] := by
  simp only [MemoryItemStore.apply]
  split_ifs with h <;> simp_all

lemma apply_fst_of_none {s : MemoryItemStore P} {p : StorePatch P} (h : (s.apply p).2 = none) :
    (s.apply p).1 = s := by
  obtain ⟨ha, hu, hr⟩ := apply_none_iff.mp h
  simp [MemoryItemStore.apply, ha, hu, hr]

lemma apply_of_some {s : MemoryItemStore P} {p : StorePatch P} {d : StoreDiff P}
    (h : (s.apply p).2 = some d) :
    d = ⟨s.addedBy p, s.updatedBy p, s.removedBy p,
        (s.mutate (s.addedBy p) (s.updatedBy p) (s.removedBy p)).rev + 1⟩ ∧
      (s.apply p).1 =
        { s.mutate (s.addedBy p) (s.updatedBy p) (s.removedBy p) with
          rev := (s.mutate (s.addedBy p) (s.updatedBy p) (s.removedBy p)).rev + 1 } := by
  simp only [MemoryItemStore.apply] at h ⊢
  split_ifs at h ⊢ with hc
  exact ⟨(Option.some.inj h).symm, rfl⟩

/-- **The content after `apply`** is the old content with the patch written over it. -/
theorem content_apply (s : MemoryItemStore P) (p : StorePatch P) :
    content (s.apply p).1 = writeAll (content s) (StorePatch.writes p) := by
  cases hd : (s.apply p).2 with
  | none =>
    obtain ⟨ha, hu, hr⟩ := apply_none_iff.mp hd
    rw [apply_fst_of_none hd, ← writes_split, ha, hu, hr]
    rfl
  | some d =>
    obtain ⟨-, hs⟩ := apply_of_some hd
    rw [hs, ← writes_split, ← content_mutate]
    rfl

/-- The ids a patch sets. -/
def StorePatch.sets (p : StorePatch P) : List String := (p.added ++ p.updated).map (·.id)

lemma writeAll_of_mem_sets (m : Content P) {p : StorePatch P} {id : String}
    (h : id ∈ StorePatch.sets p) :
    ∃ it ∈ p.added ++ p.updated, it.id = id ∧ writeAll m (StorePatch.writes p) id = some it := by
  have hmem : id ∈ ((p.added ++ p.updated).map fun it => (it.id, some it)).map Prod.fst := by
    simpa [StorePatch.sets] using h
  obtain ⟨v, hv⟩ := Option.isSome_iff_exists.mp (lastWrite_isSome_iff.mpr hmem)
  obtain ⟨it, hit, he⟩ := List.mem_map.mp (mem_of_lastWrite hv)
  obtain ⟨hid, hv'⟩ := Prod.mk.inj he
  refine ⟨it, hit, hid, ?_⟩
  rw [writeAll_apply, StorePatch.writes, lastWrite_append, hv, ← hv']
  rfl

lemma writeAll_of_notMem_sets (m : Content P) {p : StorePatch P} {id : String}
    (h : id ∉ StorePatch.sets p) :
    writeAll m (StorePatch.writes p) id = if id ∈ p.removed then none else m id := by
  have hnone : lastWrite ((p.added ++ p.updated).map fun it => (it.id, some it)) id = none := by
    rw [lastWrite_eq_none_iff]
    simpa [StorePatch.sets] using h
  rw [writeAll_apply, StorePatch.writes, lastWrite_append, hnone]
  cases hr : lastWrite (p.removed.map fun id => (id, (none : Option (StoredItem P)))) id with
  | none =>
    have hno : id ∉ p.removed := by
      have := lastWrite_eq_none_iff.mp hr
      simpa [List.map_map] using this
    simp [hno]
  | some v =>
    obtain ⟨a, ha, he⟩ := List.mem_map.mp (mem_of_lastWrite hr)
    obtain ⟨rfl, hv⟩ := Prod.mk.inj he
    simp [ha, ← hv]

lemma keyed_writeAll_apply {m : Content P} (hm : Keyed m) (p : StorePatch P) :
    Keyed (writeAll m (StorePatch.writes p)) := by
  intro id it h
  rw [writeAll_apply] at h
  cases hw : lastWrite (StorePatch.writes p) id with
  | none => rw [hw] at h; exact hm id it h
  | some v =>
    rw [hw] at h
    subst h
    rcases List.mem_append.mp (mem_of_lastWrite hw) with hr | hs
    · obtain ⟨_, -, h⟩ := List.mem_map.mp hr
      cases (Prod.mk.inj h).2
    · obtain ⟨it', -, h⟩ := List.mem_map.mp hs
      obtain ⟨hid, hit⟩ := Prod.mk.inj h
      cases Option.some.inj hit
      exact hid

lemma keyed_apply {s : MemoryItemStore P} (h : Keyed (content s)) (p : StorePatch P) :
    Keyed (content (s.apply p).1) := by
  rw [content_apply]
  exact keyed_writeAll_apply h p

lemma keyed_new : Keyed (content (MemoryItemStore.new : MemoryItemStore P)) := by
  intro id it h
  simp [content, MemoryItemStore.get, MemoryItemStore.new] at h

/-! ### What `replaceAll` does to the content -/

/-- What `replaceAll` leaves under an id: nothing if it is not listed, else the last item
listed, unless the one there already has the same message. -/
def replaced [DecidableEq P] (m : Content P) (items : List (StoredItem P)) : Content P :=
  fun id => (lastWrite (items.map fun it => (it.id, it)) id).map fun it =>
    match m id with
    | none => it
    | some prev => if prev.proto = it.proto then prev else it

lemma lastWrite_listed {items : List (StoredItem P)} {id : String} {it : StoredItem P}
    (h : lastWrite (items.map fun it => (it.id, it)) id = some it) : it ∈ items ∧ it.id = id := by
  obtain ⟨it', hmem, he⟩ := List.mem_map.mp (mem_of_lastWrite h)
  obtain ⟨h1, h2⟩ := Prod.mk.inj he
  exact ⟨h2 ▸ hmem, h2 ▸ h1⟩

lemma mem_next_values {items : List (StoredItem P)} {it : StoredItem P} :
    it ∈ (OMap.ofList (items.map fun it => (it.id, it))).values ↔
      lastWrite (items.map fun it => (it.id, it)) it.id = some it := by
  rw [OMap.mem_values_iff]
  simp only [get?_ofList]
  constructor
  · rintro ⟨k, hk⟩
    rwa [(lastWrite_listed hk).2]
  · intro h
    exact ⟨it.id, h⟩

theorem content_replaceAll [DecidableEq P] (s : MemoryItemStore P) (items : List (StoredItem P)) :
    content (s.replaceAll items).1 = replaced (content s) items := by
  funext id
  rw [replaceAll, content_apply]
  by_cases hset : id ∈ StorePatch.sets (s.replacePatch items)
  · obtain ⟨it, hit, rfl, hw⟩ := writeAll_of_mem_sets (content s) hset
    rw [hw]
    simp only [replacePatch, List.mem_append, List.mem_filter, mem_next_values] at hit
    rcases hit with ⟨hlast, hprev⟩ | ⟨hlast, hprev⟩
    · have hnone : content s it.id = none := Option.isNone_iff_eq_none.mp hprev
      simp [replaced, hlast, hnone]
    · cases hg : content s it.id with
      | none => simp [replaced, hlast, hg]
      | some prev =>
        have hne : prev.proto ≠ it.proto := by
          have hg' : s.items.get? it.id = some prev := hg
          simpa [hg'] using hprev
        simp [replaced, hlast, hg, hne]
  · rw [writeAll_of_notMem_sets _ hset]
    cases hlast : lastWrite (items.map fun it => (it.id, it)) id with
    | none =>
      -- not listed: removed if it was there
      have hhas : (OMap.ofList (items.map fun it => (it.id, it))).has id = false := by
        rw [OMap.has_eq_false_iff, get?_ofList, hlast]
      simp only [replaced, hlast, Option.map_none]
      split_ifs with hr
      · rfl
      · have hkeys : id ∉ s.items.keys := by
          intro hk
          exact hr (by simp [replacePatch, hk, hhas])
        rw [OMap.mem_keys_iff_has, OMap.has_iff_ne, not_not] at hkeys
        exact hkeys
    | some it =>
      -- listed but not set: the one there has the same message
      obtain ⟨-, rfl⟩ := lastWrite_listed hlast
      have hno : it.id ∉ (s.replacePatch items).removed := by
        intro hr
        simp only [replacePatch, List.mem_filter, Bool.not_eq_true', OMap.has_eq_false_iff,
          get?_ofList, hlast] at hr
        exact absurd hr.2 (by simp)
      rw [if_neg hno]
      simp only [replaced, hlast, Option.map_some]
      have hnot : ∀ it' ∈ (s.replacePatch items).added ++ (s.replacePatch items).updated,
          it' ≠ it := by
        rintro it' hit' rfl
        exact hset (List.mem_map_of_mem hit')
      have hval := mem_next_values.mpr hlast
      cases hg : content s it.id with
      | none =>
        have hg' : s.items.get? it.id = none := hg
        refine absurd rfl (hnot it (List.mem_append_left _ ?_))
        simp [replacePatch, hval, hg']
      | some prev =>
        have hg' : s.items.get? it.id = some prev := hg
        by_cases hp : prev.proto = it.proto
        · simp [hp]
        · refine absurd rfl (hnot it (List.mem_append_right _ ?_))
          simp [replacePatch, hval, hg', hp]

end FabPcb.StoreContent
