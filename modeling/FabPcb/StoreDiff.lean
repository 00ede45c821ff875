import FabPcb.StoreIndex

/-!
The diffs the store emits against the changes it makes.

`apply` fills the three lists of a diff by membership tests made before it mutates. The
lists say what changed exactly when the patch names no id twice that matters: once among
what it sets, once among the present ids it removes, and none of these in both. A
subscriber that replays the diffs in the order the store mutates mirrors it regardless.
-/

namespace FabPcb.StoreDiff

open OrderedMap Writes ItemStore StoreContent StoreIndex
open MemoryItemStore

variable {P : Type*}

/-- A diff describes the change from `before` to `after`. -/
structure DiffExact (before after : Content P) (d : StoreDiff P) : Prop where
  added : ∀ id, id ∈ d.added.map (·.id) ↔ before id = none ∧ after id ≠ none
  updated : ∀ id ∈ d.updated.map (·.id), before id ≠ none ∧ after id ≠ none
  removed : ∀ id, id ∈ d.removed ↔ before id ≠ none ∧ after id = none
  addedNodup : (d.added.map (·.id)).Nodup
  updatedNodup : (d.updated.map (·.id)).Nodup
  removedNodup : d.removed.Nodup
  addedUpdated : (d.added.map (·.id)).Disjoint (d.updated.map (·.id))
  addedRemoved : (d.added.map (·.id)).Disjoint d.removed
  updatedRemoved : (d.updated.map (·.id)).Disjoint d.removed

/-- A patch repeats nothing: no id is set twice, no present id is removed twice, and no
present id is both removed and set. -/
structure NoOverlap (s : MemoryItemStore P) (p : StorePatch P) : Prop where
  sets : ((p.added ++ p.updated).map (·.id)).Nodup
  removed : (p.removed.filter s.has).Nodup
  disjoint : ∀ id ∈ p.removed, s.has id = true → id ∉ (p.added ++ p.updated).map (·.id)

lemma mem_addedBy_ids {s : MemoryItemStore P} {p : StorePatch P} {id : String} :
    id ∈ (s.addedBy p).map (·.id) ↔ id ∈ StorePatch.sets p ∧ content s id = none := by
  simp only [addedBy, StorePatch.sets, List.mem_map, List.mem_filter, Bool.not_eq_true',
    OMap.has_eq_false_iff]
  constructor
  · rintro ⟨it, ⟨hit, hn⟩, rfl⟩
    exact ⟨⟨it, hit, rfl⟩, hn⟩
  · rintro ⟨⟨it, hit, rfl⟩, hn⟩
    exact ⟨it, ⟨hit, hn⟩, rfl⟩

lemma mem_updatedBy_ids {s : MemoryItemStore P} {p : StorePatch P} {id : String} :
    id ∈ (s.updatedBy p).map (·.id) ↔ id ∈ StorePatch.sets p ∧ content s id ≠ none := by
  simp only [updatedBy, StorePatch.sets, List.mem_map, List.mem_filter, OMap.has_iff_ne]
  constructor
  · rintro ⟨it, ⟨hit, hn⟩, rfl⟩
    exact ⟨⟨it, hit, rfl⟩, hn⟩
  · rintro ⟨⟨it, hit, rfl⟩, hn⟩
    exact ⟨it, ⟨hit, hn⟩, rfl⟩

lemma mem_removedBy {s : MemoryItemStore P} {p : StorePatch P} {id : String} :
    id ∈ s.removedBy p ↔ id ∈ p.removed ∧ content s id ≠ none := by
  simp only [removedBy, List.mem_filter, OMap.has_iff_ne]
  rfl

lemma sets_nodup_iff (s : MemoryItemStore P) (p : StorePatch P) :
    ((p.added ++ p.updated).map (·.id)).Nodup ↔
      ((s.addedBy p).map (·.id)).Nodup ∧ ((s.updatedBy p).map (·.id)).Nodup := by
  have hperm : (s.updatedBy p ++ s.addedBy p).Perm (p.added ++ p.updated) :=
    List.filter_append_perm (fun it : StoredItem P => s.items.has it.id) _
  rw [← (hperm.map (·.id)).nodup_iff, List.map_append, List.nodup_append']
  have hdisj : ((s.updatedBy p).map (·.id)).Disjoint ((s.addedBy p).map (·.id)) := by
    intro id hu ha
    exact (mem_updatedBy_ids.mp hu).2 (mem_addedBy_ids.mp ha).2
  tauto

/-- What an emitted diff of a patch looks like, read off the writes of the patch. -/
lemma diffExact_iff_noOverlap (s : MemoryItemStore P) (p : StorePatch P) (rev : ℕ) :
    DiffExact (content s) (writeAll (content s) (StorePatch.writes p))
      ⟨s.addedBy p, s.updatedBy p, s.removedBy p, rev⟩ ↔ NoOverlap s p := by
  have hset : ∀ id ∈ StorePatch.sets p,
      writeAll (content s) (StorePatch.writes p) id ≠ none := by
    intro id hid
    obtain ⟨it, -, -, h⟩ := writeAll_of_mem_sets (content s) hid
    simp [h]
  constructor
  · intro h
    refine ⟨(sets_nodup_iff s p).mpr ⟨h.addedNodup, h.updatedNodup⟩, h.removedNodup, ?_⟩
    intro id hid hs hsets
    have hmem : id ∈ s.removedBy p := mem_removedBy.mpr ⟨hid, OMap.has_iff_ne.mp hs⟩
    exact hset id hsets ((h.removed id).mp hmem).2
  · rintro ⟨hsets, hrem, hdisj⟩
    obtain ⟨ha, hu⟩ := (sets_nodup_iff s p).mp hsets
    have hout : ∀ id ∈ s.removedBy p, id ∉ StorePatch.sets p := by
      intro id hid
      obtain ⟨hr, hs⟩ := mem_removedBy.mp hid
      exact hdisj id hr (OMap.has_iff_ne.mpr hs)
    refine ⟨fun id => ?_, fun id hid => ?_, fun id => ?_, ha, hu, hrem, ?_, ?_, ?_⟩
    · constructor
      · intro hid
        obtain ⟨hs, hn⟩ := mem_addedBy_ids.mp hid
        exact ⟨hn, hset id hs⟩
      · rintro ⟨hn, hafter⟩
        refine mem_addedBy_ids.mpr ⟨?_, hn⟩
        by_contra hs
        rw [writeAll_of_notMem_sets _ hs, hn] at hafter
        simp at hafter
    · obtain ⟨hs, hn⟩ := mem_updatedBy_ids.mp hid
      exact ⟨hn, hset id hs⟩
    · constructor
      · intro hid
        obtain ⟨hr, hs⟩ := mem_removedBy.mp hid
        refine ⟨hs, ?_⟩
        rw [writeAll_of_notMem_sets _ (hout id hid), if_pos hr]
      · rintro ⟨hs, hafter⟩
        have hnot : id ∉ StorePatch.sets p := fun h => hset id h hafter
        rw [writeAll_of_notMem_sets _ hnot] at hafter
        split_ifs at hafter with hr
        · exact mem_removedBy.mpr ⟨hr, hs⟩
        · exact absurd hafter hs
    · exact fun id h1 h2 => (mem_updatedBy_ids.mp h2).2 (mem_addedBy_ids.mp h1).2
    · exact fun id h1 h2 => (mem_removedBy.mp h2).2 (mem_addedBy_ids.mp h1).2
    · exact fun id h1 h2 => hout id h2 (mem_updatedBy_ids.mp h1).1

/-- **Step**: the diff of a patch, when one is emitted, is exact precisely when the patch
repeats nothing. -/
theorem apply_diff_exact_iff (s : MemoryItemStore P) (p : StorePatch P) :
    (∀ d, (s.apply p).2 = some d → DiffExact (content s) (content (s.apply p).1) d) ↔
      NoOverlap s p := by
  cases hd : (s.apply p).2 with
  | none =>
    -- nothing is set and nothing present removed, so there is nothing to repeat
    obtain ⟨ha, hu, hr⟩ := apply_none_iff.mp hd
    refine ⟨fun _ => ⟨(sets_nodup_iff s p).mpr (by simp [ha, hu]), ?_, ?_⟩, fun _ d h => by cases h⟩
    · exact (show p.removed.filter s.has = [] from hr) ▸ List.nodup_nil
    · intro id hid hs
      have : id ∈ s.removedBy p := mem_removedBy.mpr ⟨hid, OMap.has_iff_ne.mp hs⟩
      rw [hr] at this
      cases this
  | some d =>
    obtain ⟨rfl, -⟩ := apply_of_some hd
    rw [← diffExact_iff_noOverlap s p
      ((s.mutate (s.addedBy p) (s.updatedBy p) (s.removedBy p)).rev + 1), content_apply]
    simp [Option.some.injEq, forall_eq']

/-! ### The mirror -/

/-- A subscriber's map after one diff: delete `removed`, set `added`, set `updated`. -/
def mirror (m : OMap String (StoredItem P)) (d : StoreDiff P) : OMap String (StoredItem P) :=
  let m := d.removed.foldl (fun m id => m.delete id) m
  let m := d.added.foldl (fun m it => m.set it.id it) m
  d.updated.foldl (fun m it => m.set it.id it) m

lemma foldl_deleteId_items (ids : List String) (s : MemoryItemStore P) :
    (ids.foldl deleteId s).items = ids.foldl (fun m id => m.delete id) s.items := by
  induction ids generalizing s with
  | nil => rfl
  | cons id ids ih => exact ih _

lemma put_items (s : MemoryItemStore P) (it : StoredItem P) :
    (s.put it).items = s.items.set it.id it := by
  simp [put, index]

lemma foldl_put_items (items : List (StoredItem P)) (s : MemoryItemStore P) :
    (items.foldl put s).items = items.foldl (fun m it => m.set it.id it) s.items := by
  induction items generalizing s with
  | nil => rfl
  | cons it items ih => rw [List.foldl_cons, ih, put_items, List.foldl_cons]

/-- **Mirror step**: replaying the emitted diff gives the items of the new store, in the
same order. -/
theorem mirror_apply (s : MemoryItemStore P) (p : StorePatch P) :
    (s.apply p).2.toList.foldl mirror s.items = (s.apply p).1.items := by
  cases hd : (s.apply p).2 with
  | none => simp [apply_fst_of_none hd]
  | some d =>
    obtain ⟨rfl, hs⟩ := apply_of_some hd
    rw [hs]
    simp [Option.toList_some, List.foldl_cons, List.foldl_nil, mirror, mutate,
      foldl_put_items, foldl_deleteId_items, foldl_unindexId_items, List.foldl_append]

section Runs

variable [DecidableEq P]

lemma mirror_run (calls : List (Call P)) (s : MemoryItemStore P) :
    (run s calls).2.foldl mirror s.items = (run s calls).1.items := by
  induction calls generalizing s with
  | nil => rfl
  | cons call calls ih =>
    have hstep : (call.step s).2.toList.foldl mirror s.items = (call.step s).1.items := by
      rw [Call.step_eq]
      exact mirror_apply s _
    rw [run, List.foldl_append, hstep, ih]

lemma run_append (calls calls' : List (Call P)) (s : MemoryItemStore P) :
    run s (calls ++ calls') =
      ((run (run s calls).1 calls').1, (run s calls).2 ++ (run (run s calls).1 calls').2) := by
  induction calls generalizing s with
  | nil => rfl
  | cons call calls ih => simp [List.cons_append, run, ih, List.append_assoc]

end Runs

/-! ### `replaceAll` and `clear` repeat nothing -/

/-! ### The diff stream -/

/-- **Fidelity of the diff stream.** After any calls, a patch is described exactly by the
diff it emits, and the subscriber's map still mirrors the store after it, if and only if
the patch repeats nothing; the mirror never fails. -/
theorem diff_fidelity_iff [DecidableEq P] (calls : List (Call P)) (p : StorePatch P) :
    let s := (run MemoryItemStore.new calls).1
    let stream := (run (MemoryItemStore.new : MemoryItemStore P) (calls ++ [.apply p])).2
    ((∀ d, (s.apply p).2 = some d → DiffExact (content s) (content (s.apply p).1) d) ∧
      stream.foldl mirror OMap.empty = (s.apply p).1.items) ↔ NoOverlap s p := by
  intro s stream
  have hmirror : stream.foldl mirror OMap.empty = (s.apply p).1.items := by
    have h := mirror_run (calls ++ [.apply p]) (MemoryItemStore.new : MemoryItemStore P)
    have hs : (run MemoryItemStore.new (calls ++ [.apply p])).1 = (s.apply p).1 := by
      rw [run_append]
      rfl
    rw [hs] at h
    exact h
  rw [and_iff_left hmirror]
  exact apply_diff_exact_iff s p

/-- A patch that removes a present item and sets it again, as a delta does for an item
deleted and created anew: the diff lists as removed an id that is still there. -/
theorem overlap_diff_wrong :
    let a : StoredItem Unit := ⟨"a", "KOT_PCB_TRACE", some "BL_F_Cu", none, none, ()⟩
    let b : StoredItem Unit := ⟨"a", "KOT_PCB_TRACE", some "BL_B_Cu", none, none, ()⟩
    let s := (run MemoryItemStore.new [.apply { added := [a] }]).1
    let p : StorePatch Unit := { updated := [b], removed := ["a"] }
    (s.apply p).2 = some ⟨[], [b], ["a"], 2⟩ ∧ content (s.apply p).1 "a" = some b ∧
    ¬ ∀ d, (s.apply p).2 = some d → DiffExact (content s) (content (s.apply p).1) d := by
  intro a b s p
  have hd : (s.apply p).2 = some ⟨[], [b], ["a"], 2⟩ := by decide
  have hafter : content (s.apply p).1 "a" = some b := by decide
  refine ⟨hd, hafter, fun h => ?_⟩
  have hgone := (((h _ hd).removed "a").mp (by simp)).2
  rw [hafter] at hgone
  cases hgone

end FabPcb.StoreDiff
