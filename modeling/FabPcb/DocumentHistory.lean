import Mathlib.Order.Monotone.Basic
import FabPcb.Sync

/-!
The document on the server as it moves through its revisions, and what a store holding one
moment of it holds at another.

A moment is a state of the server; edits of any client lie between moments. Reading the
document gives all items of a moment, or what changed between two of them, and merging either
into a store leads from the content of the earlier moment to that of the later.
-/

namespace FabPcb.DocumentHistory

open OrderedMap Writes Items ItemStore StoreContent
open Document Sync

variable {P : Type*}

/-- A document over the moments of a server: no change goes without a new revision, ids are
unique, and a wrapper is determined by the message it wraps. -/
structure History (P : Type*) where
  rev : ℕ → ℕ
  items : ℕ → List (Item P)
  mono : Monotone rev
  same : ∀ m n, rev m = rev n → items m = items n
  unique : ∀ m, ((items m).map (·.id)).Nodup
  wrapped : ∀ m n, ∀ a ∈ items m, ∀ b ∈ items n, a.proto = b.proto → a = b

/-- The content of a store that holds some items, each under its id. -/
def docContent (items : List (Item P)) : Content P :=
  fun id => (storedItems items).find? (·.id = id)

/-- What a store that follows the document holds at a moment. -/
def History.content (h : History P) (m : ℕ) : Content P := docContent (h.items m)

/-! ### The content of a moment -/

@[simp] lemma toStoredItem_id (item : Item P) : (toStoredItem item).id = item.id := rfl

lemma mem_storedItems {items : List (Item P)} {it : StoredItem P} :
    it ∈ storedItems items ↔ ∃ item ∈ items, item.id ≠ "" ∧ toStoredItem item = it := by
  simp [storedItems, and_assoc]

/-- Under unique ids an item is found under its own. -/
lemma docContent_eq_some_iff {items : List (Item P)} (hu : (items.map (·.id)).Nodup) {id : String}
    {it : StoredItem P} :
    docContent items id = some it ↔
      id ≠ "" ∧ ∃ item ∈ items, item.id = id ∧ toStoredItem item = it := by
  constructor
  · intro h
    obtain ⟨item, hitem, hne, rfl⟩ := mem_storedItems.mp (List.mem_of_find?_eq_some h)
    have hfound := List.find?_some h
    have hid : item.id = id := of_decide_eq_true hfound
    exact ⟨hid ▸ hne, item, hitem, hid, rfl⟩
  · rintro ⟨hne, item, hitem, rfl, rfl⟩
    have hmem : toStoredItem item ∈ storedItems items := mem_storedItems.mpr ⟨item, hitem, hne, rfl⟩
    obtain ⟨it, hit⟩ := Option.isSome_iff_exists.mp
      (List.find?_isSome.mpr ⟨_, hmem, decide_eq_true rfl⟩ :
        ((storedItems items).find? (·.id = item.id)).isSome)
    obtain ⟨item', hitem', -, rfl⟩ := mem_storedItems.mp (List.mem_of_find?_eq_some hit)
    have hfound := List.find?_some hit
    have hid : item'.id = item.id := of_decide_eq_true hfound
    rw [docContent, hit, List.inj_on_of_nodup_map hu hitem' hitem hid]

lemma docContent_eq_none_iff {items : List (Item P)} {id : String} :
    docContent items id = none ↔ id = "" ∨ id ∉ items.map (·.id) := by
  unfold docContent
  rw [List.find?_eq_none]
  constructor
  · intro h
    by_contra! hno
    obtain ⟨item, hitem, rfl⟩ := List.mem_map.mp hno.2
    exact h _ (mem_storedItems.mpr ⟨item, hitem, hno.1, rfl⟩) (decide_eq_true rfl)
  · rintro h it hit
    obtain ⟨item, hitem, hne, rfl⟩ := mem_storedItems.mp hit
    have hid : item.id ∈ items.map (·.id) := List.mem_map_of_mem hitem
    intro he
    have he' : item.id = id := of_decide_eq_true he
    rcases h with rfl | h
    · exact hne he'
    · exact h (he' ▸ hid)

variable {h : History P} {m n : ℕ}

lemma content_eq_some_iff {id : String} {it : StoredItem P} :
    h.content m id = some it ↔
      id ≠ "" ∧ ∃ item ∈ h.items m, item.id = id ∧ toStoredItem item = it :=
  docContent_eq_some_iff (h.unique m)

lemma content_eq_none_iff {id : String} :
    h.content m id = none ↔ id = "" ∨ id ∉ (h.items m).map (·.id) :=
  docContent_eq_none_iff

lemma content_of_mem {item : Item P} (hm : item ∈ h.items m) (hne : item.id ≠ "") :
    h.content m item.id = some (toStoredItem item) :=
  content_eq_some_iff.mpr ⟨hne, item, hm, rfl, rfl⟩

lemma content_congr (hrev : h.rev m = h.rev n) : h.content m = h.content n := by
  rw [History.content, h.same m n hrev, ← History.content]

/-! ### Reading the document -/

/-- A read that returns everything there is. -/
structure IsFull (items : List (Item P)) (r : ItemsSince P) : Prop where
  full : r.full = true
  perm : r.items.Perm items
  deleted : r.deletedIds = []

/-- A read that returns what changed from some items to others. -/
structure IsDelta (old new : List (Item P)) (r : ItemsSince P) : Prop where
  delta : r.full = false
  present : ∀ item ∈ r.items, item ∈ new
  changed : ∀ item ∈ new, item ∉ old → item ∈ r.items
  deleted : ∀ id ∈ old.map (·.id), id ∉ new.map (·.id) → id ∈ r.deletedIds
  gone : ∀ id ∈ r.deletedIds, id ∉ new.map (·.id)

/-- A content each item of which the document has had at some moment. -/
def FromHistory (h : History P) (c : Content P) : Prop :=
  ∀ id it, c id = some it → ∃ m, ∃ item ∈ h.items m, toStoredItem item = it

lemma fromHistory_content (h : History P) (m : ℕ) : FromHistory h (h.content m) := by
  intro id it hit
  obtain ⟨-, item, hitem, -, rfl⟩ := content_eq_some_iff.mp hit
  exact ⟨m, item, hitem, rfl⟩

/-- **Replacing by a full read** leaves the items read, whatever of the document was there. -/
theorem replaced_of_isFull [DecidableEq P] {c : Content P} (hc : FromHistory h c)
    {r : ItemsSince P} (hr : IsFull (h.items m) r) :
    replaced c (storedItems r.items) = h.content m := by
  funext id
  unfold replaced
  cases hlast : lastWrite ((storedItems r.items).map fun it => (it.id, it)) id with
  | none =>
    rw [Option.map_none, eq_comm, content_eq_none_iff]
    by_contra! hno
    obtain ⟨item, hitem, rfl⟩ := List.mem_map.mp hno.2
    rw [lastWrite_eq_none_iff] at hlast
    refine hlast ?_
    rw [List.map_map]
    exact List.mem_map.mpr
      ⟨_, mem_storedItems.mpr ⟨item, hr.perm.mem_iff.mpr hitem, hno.1, rfl⟩, rfl⟩
  | some it =>
    obtain ⟨hit, rfl⟩ := lastWrite_listed hlast
    obtain ⟨item, hitem, hne, rfl⟩ := mem_storedItems.mp hit
    have hmem : item ∈ h.items m := hr.perm.mem_iff.mp hitem
    refine Eq.trans (congrArg some ?_) (content_of_mem hmem hne).symm
    cases hprev : c (toStoredItem item).id with
    | none => rfl
    | some prev =>
      -- an item kept for its message is the one read
      obtain ⟨n, item', hitem', rfl⟩ := hc _ _ hprev
      simp only
      split_ifs with hproto
      · rw [h.wrapped n m item' hitem' item hmem hproto]
      · rfl

/-- **Merging a delta** leads from the items before to those after. -/
theorem writeAll_of_isDelta {r : ItemsSince P} (hr : IsDelta (h.items m) (h.items n) r) :
    writeAll (h.content m)
      (StorePatch.writes { updated := storedItems r.items, removed := r.deletedIds }) =
      h.content n := by
  funext id
  set p : StorePatch P := { updated := storedItems r.items, removed := r.deletedIds } with hp
  by_cases hset : id ∈ StorePatch.sets p
  · obtain ⟨it, hit, rfl, hw⟩ := writeAll_of_mem_sets (h.content m) hset
    rw [hw]
    obtain ⟨item, hitem, hne, rfl⟩ := mem_storedItems.mp (by simpa [hp] using hit)
    exact (content_of_mem (hr.present item hitem) hne).symm
  · rw [writeAll_of_notMem_sets _ hset]
    -- an item of the new moment that is not listed is there already
    have hkept : ∀ item ∈ h.items n, item.id = id → id ≠ "" → item ∈ h.items m := by
      rintro item hitem rfl hne
      by_contra hno
      have hin : toStoredItem item ∈ storedItems r.items :=
        mem_storedItems.mpr ⟨item, hr.changed item hitem hno, hne, rfl⟩
      exact hset (by simpa [hp, StorePatch.sets] using ⟨_, hin, rfl⟩)
    split_ifs with hdel
    · exact (content_eq_none_iff.mpr (Or.inr (hr.gone id hdel))).symm
    · by_cases hne : id = ""
      · rw [content_eq_none_iff.mpr (Or.inl hne), content_eq_none_iff.mpr (Or.inl hne)]
      · cases hnew : h.content n id with
        | some it =>
          obtain ⟨-, item, hitem, hid, rfl⟩ := content_eq_some_iff.mp hnew
          exact content_eq_some_iff.mpr ⟨hne, item, hkept item hitem hid hne, hid, rfl⟩
        | none =>
          have hnot := (content_eq_none_iff.mp hnew).resolve_left hne
          refine content_eq_none_iff.mpr (Or.inr fun hold => ?_)
          exact hdel (hr.deleted id hold hnot)

end FabPcb.DocumentHistory
