import FabPcb.DocumentHistory
import FabPcb.Reads

/-!
What each read of a `DocumentSync` does to its content and revision, over a document history.
-/

namespace FabPcb.ReadContent

open OrderedMap Writes Items ItemStore StoreContent
open Document Sync DocumentHistory Reads

variable {P : Type*}

/-! ### Revisions -/

/-- The revision of a sync, 0 while none is known. -/
def revisionOf (d : DocumentSync P) : ℕ := d.rev.getD 0

lemma revisionOf_setRevision (d : DocumentSync P) (v : Option ℕ) :
    revisionOf (d.setRevision v) = max (revisionOf d) (v.getD 0) := by
  unfold DocumentSync.setRevision revisionOf
  rcases v with _ | r
  · simp
  · by_cases hr : r = 0
    · simp [hr]
    · rcases hd : d.rev with _ | rev
      · simp [hr]
      · by_cases hlt : r > rev
        · simp [hr, hlt]
          omega
        · simp [hr, hlt, hd]
          omega

@[simp] lemma loaded_setRevision (d : DocumentSync P) (v : Option ℕ) :
    (d.setRevision v).loaded = d.loaded := by
  unfold DocumentSync.setRevision
  rcases v with _ | r
  · rfl
  · by_cases hr : r = 0
    · simp [hr]
    · rcases d.rev with _ | rev
      · simp [hr]
      · by_cases hlt : r > rev <;> simp [hr, hlt]

variable [DecidableEq P] {h : History P} {d : DocumentSync P} {m q t : ℕ}

lemma revisionOf_load (d : DocumentSync P) (r : ItemsSince P) :
    revisionOf (d.load r) = max (revisionOf d) r.revision :=
  revisionOf_setRevision { d with store := (d.store.replaceAll (storedItems r.items)).1 }
    (some r.revision)

lemma revisionOf_syncedSince (d : DocumentSync P) (r : ItemsSince P) :
    revisionOf (d.syncedSince r) = max (revisionOf d) r.revision := by
  unfold DocumentSync.syncedSince
  rw [revisionOf_setRevision]
  cases r.full <;> rfl

@[simp] lemma loaded_syncedSince (d : DocumentSync P) (r : ItemsSince P) :
    (d.syncedSince r).loaded = d.loaded := by
  unfold DocumentSync.syncedSince
  rw [loaded_setRevision]
  cases r.full <;> rfl

omit [DecidableEq P] in
lemma revisionOf_syncedIds (wanted gone : List String) (items : List (Item P)) (v : Option ℕ) :
    revisionOf (DocumentSync.syncedIds d wanted gone items v) =
      max (revisionOf d) (v.getD 0) := by
  unfold DocumentSync.syncedIds
  rw [revisionOf_setRevision]
  rfl

omit [DecidableEq P] in
@[simp] lemma loaded_syncedIds (wanted gone : List String) (items : List (Item P))
    (v : Option ℕ) : (DocumentSync.syncedIds d wanted gone items v).loaded = d.loaded := by
  simp [DocumentSync.syncedIds]

/-! ### Answers -/

/-- Exactly the changes after a revision: what differs from any state of the document since. -/
structure IsSince (h : History P) (q m : ℕ) (r : ItemsSince P) : Prop where
  delta : r.full = false
  present : ∀ item ∈ r.items, item ∈ h.items m
  changed : ∀ t ≤ m, q ≤ h.rev t → ∀ item ∈ h.items m, item ∉ h.items t → item ∈ r.items
  deleted : ∀ t ≤ m, q ≤ h.rev t → ∀ id ∈ (h.items t).map (·.id),
    id ∉ (h.items m).map (·.id) → id ∈ r.deletedIds
  gone : ∀ id ∈ r.deletedIds, id ∉ (h.items m).map (·.id)

/-- A full read of a moment, at the reported revision. -/
def FullRead (h : History P) (m : ℕ) (r : ItemsSince P) : Prop :=
  r.revision = h.rev m ∧ IsFull (h.items m) r

/-- A read since a revision: the changes after it, or everything. -/
def SinceRead (h : History P) (q m : ℕ) (r : ItemsSince P) : Prop :=
  r.revision = h.rev m ∧ (IsFull (h.items m) r ∨ IsSince h q m r)

omit [DecidableEq P] in
lemma IsSince.isDelta {r : ItemsSince P} (hr : IsSince h q m r) (ht : t ≤ m) (hq : q ≤ h.rev t) :
    IsDelta (h.items t) (h.items m) r :=
  ⟨hr.delta, hr.present, hr.changed t ht hq, hr.deleted t ht hq, hr.gone⟩

/-! ### Contents -/

lemma content_of_fullRead (hd : FromHistory h d.content) {r : ItemsSince P}
    (hr : FullRead h m r) : (d.load r).content = h.content m := by
  rw [content_load]
  exact replaced_of_isFull hd hr.2

lemma syncedSince_of_covered (hd : FromHistory h d.content) {r : ItemsSince P}
    (hr : SinceRead h q m r) {id : String}
    (hid : ∃ t ≤ m, q ≤ h.rev t ∧ d.content id = h.content t id) :
    (d.syncedSince r).content id = h.content m id := by
  rcases hr.2 with hfull | hsince
  · rw [content_syncedSince_full d hfull.full, replaced_of_isFull hd hfull]
  · obtain ⟨t, ht, hq, he⟩ := hid
    rw [content_syncedSince_delta d hsince.delta, writeAll_apply, he, ← writeAll_apply,
      writeAll_of_isDelta (hsince.isDelta ht hq)]

lemma syncedSince_or (hd : FromHistory h d.content) {r : ItemsSince P} (hr : SinceRead h q m r)
    (id : String) :
    (d.syncedSince r).content id = d.content id ∨
      (d.syncedSince r).content id = h.content m id := by
  rcases hr.2 with hfull | hsince
  · rw [content_syncedSince_full d hfull.full, replaced_of_isFull hd hfull]
    exact Or.inr rfl
  · rw [content_syncedSince_delta d hsince.delta]
    set p : StorePatch P := { updated := storedItems r.items, removed := r.deletedIds } with hp
    by_cases hset : id ∈ StorePatch.sets p
    · obtain ⟨it, hit, rfl, hw⟩ := writeAll_of_mem_sets d.content hset
      obtain ⟨item, hitem, hne, rfl⟩ := mem_storedItems.mp (by simpa [hp] using hit)
      exact Or.inr (hw.trans (content_of_mem (hsince.present item hitem) hne).symm)
    · rw [writeAll_of_notMem_sets _ hset]
      split_ifs with hdel
      · exact Or.inr (content_eq_none_iff.mpr (Or.inr (hsince.gone id hdel))).symm
      · exact Or.inl rfl

/-- The items of a moment under some ids. -/
def FoundAt (h : History P) (m : ℕ) (wanted : List String) (items : List (Item P)) : Prop :=
  (∀ item ∈ items, item ∈ h.items m) ∧ ∀ item ∈ h.items m, item.id ∈ wanted → item ∈ items

omit [DecidableEq P] in
/-- **What `syncIds` does to an id**: one it re-read is brought up to date, one gone is
removed, and any other is left alone, unless the answer listed it. -/
lemma content_syncedIds {wanted : List String} (gone : List String) {items : List (Item P)}
    (hitems : FoundAt h m wanted items) (v : Option ℕ) (id : String) :
    (DocumentSync.syncedIds d wanted gone items v).content id = h.content m id ∧
        (id ∈ wanted ∨ id ∈ items.map (·.id)) ∨
      id ∉ wanted ∧
        ((DocumentSync.syncedIds d wanted gone items v).content id = none ∧ id ∈ gone ∨
        (DocumentSync.syncedIds d wanted gone items v).content id = d.content id ∧ id ∉ gone) := by
  have hc : ∀ p : StorePatch P, p =
      { updated := storedItems items,
        removed := gone ++ wanted.filter fun id =>
          id ∉ (storedItems items).map (·.id) ∧ d.store.has id } →
      (DocumentSync.syncedIds d wanted gone items v).content =
        writeAll d.content (StorePatch.writes p) := by
    rintro p rfl
    unfold DocumentSync.syncedIds
    rw [content_setRevision]
    exact content_apply d.store _
  obtain ⟨p, hp⟩ : ∃ p : StorePatch P, p =
      { updated := storedItems items,
        removed := gone ++ wanted.filter fun id =>
          id ∉ (storedItems items).map (·.id) ∧ d.store.has id } := ⟨_, rfl⟩
  rw [hc p hp]
  by_cases hset : id ∈ StorePatch.sets p
  · obtain ⟨it, hit, rfl, hw⟩ := writeAll_of_mem_sets d.content hset
    obtain ⟨item, hitem, hne, rfl⟩ := mem_storedItems.mp (by simpa [hp] using hit)
    refine Or.inl ⟨hw.trans (content_of_mem (hitems.1 item hitem) hne).symm, Or.inr ?_⟩
    exact List.mem_map_of_mem hitem
  · rw [writeAll_of_notMem_sets _ hset]
    have hnot : id ∉ (storedItems items).map (·.id) := by simpa [hp, StorePatch.sets] using hset
    by_cases hw : id ∈ wanted
    · -- re-read and not found, so not in the document
      refine Or.inl ⟨?_, Or.inl hw⟩
      have hnone : h.content m id = none := by
        rw [content_eq_none_iff]
        by_contra! hno
        obtain ⟨item, hitem, rfl⟩ := List.mem_map.mp hno.2
        refine hnot (List.mem_map.mpr ⟨toStoredItem item, ?_, rfl⟩)
        exact mem_storedItems.mpr ⟨item, hitems.2 item hitem hw, hno.1, rfl⟩
      rw [hnone]
      split_ifs with hr
      · rfl
      · cases hd : d.content id with
        | none => rfl
        | some it =>
          have hhas : d.store.has id = true := OMap.has_iff.mpr ⟨it, hd⟩
          refine absurd ?_ hr
          rw [hp, List.mem_append, List.mem_filter]
          exact Or.inr ⟨hw, decide_eq_true ⟨hnot, hhas⟩⟩
    · refine Or.inr ⟨hw, ?_⟩
      have hr : id ∈ p.removed ↔ id ∈ gone := by
        rw [hp, List.mem_append, List.mem_filter]
        exact ⟨fun h => h.resolve_right fun h' => hw h'.1, Or.inl⟩
      by_cases hg : id ∈ gone
      · exact Or.inl ⟨if_pos (hr.mpr hg), hg⟩
      · exact Or.inr ⟨if_neg (mt hr.mp hg), hg⟩

end FabPcb.ReadContent
