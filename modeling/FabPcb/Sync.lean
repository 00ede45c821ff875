import FabPcb.Undo
import FabPcb.Document

/-!
`store/document-sync.ts`: following the commits made through the document.

A mutation is applied when its request is sent, and its inverse kept under a key made of
the commit, the kind and the ids of the change. The reply replaces what was applied by
KiCad's items and forgets the inverse; a failure applies it. Each of the three phases is a
list of writes to the content of the store.
-/

namespace FabPcb.Sync

open OrderedMap Writes Items ItemStore StoreContent
open Document Undo

variable {P : Type*}

structure DocumentSync (P : Type*) where
  store : MemoryItemStore P
  loaded : Bool
  rev : Option ℕ
  /-- Inverse patches of optimistic applies. -/
  pending : OMap String (StorePatch P)

/-- `new DocumentSync(source)`. -/
def DocumentSync.new : DocumentSync P := ⟨MemoryItemStore.new, false, none, OMap.empty⟩

/-- Revisions only move forward; none, or that of a server predating them, is ignored. -/
def DocumentSync.setRevision (d : DocumentSync P) (revision : Option ℕ) : DocumentSync P :=
  match revision with
  | none => d
  | some r =>
    if r = 0 then d
    else match d.rev with
      | none => { d with rev := some r }
      | some rev => if r > rev then { d with rev := some r } else d

/-- What `load` does with its answer. -/
def DocumentSync.load [DecidableEq P] (d : DocumentSync P) (r : ItemsSince P) : DocumentSync P :=
  let d := { d with store := (d.store.replaceAll (storedItems r.items)).1 }
  { d.setRevision r.revision with loaded := true }

/-- What `syncSince` does with its answer. -/
def DocumentSync.syncedSince [DecidableEq P] (d : DocumentSync P) (r : ItemsSince P) :
    DocumentSync P :=
  let stored := storedItems r.items
  let d := if r.full then { d with store := (d.store.replaceAll stored).1 }
    else { d with store := (d.store.apply { updated := stored, removed := r.deletedIds }).1 }
  d.setRevision r.revision

def key (c : DocumentChange P) : String :=
  c.commitId ++ "|" ++ c.kind.name ++ "|" ++ ",".intercalate c.ids

def toPatch (c : DocumentChange P) : StorePatch P :=
  match c.kind with
  | .create => { added := storedItems c.items }
  | .update => { updated := storedItems c.items }
  | .delete => { removed := c.ids }

/-- The sync after its store took a patch. -/
def DocumentSync.patched (d : DocumentSync P) (patch : StorePatch P) : DocumentSync P :=
  { d with store := (d.store.apply patch).1 }

def onChange (d : DocumentSync P) (c : DocumentChange P) : DocumentSync P :=
  if !d.loaded then d
  else
    let patch := toPatch c
    match c.phase with
    | .optimistic =>
      let d := { d with pending := d.pending.set (key c) (inversePatch d.store patch) }
      d.patched patch
    | .applied =>
      let d := { d with pending := d.pending.delete (key c) }
      d.patched patch
    | .failed =>
      let inverse := d.pending.get? (key c)
      let d := { d with pending := d.pending.delete (key c) }
      match inverse with
      | some inverse => d.patched inverse
      | none => d

/-- What the store of a sync holds. -/
def DocumentSync.content (d : DocumentSync P) : Content P := StoreContent.content d.store

/-- The writes a change stands for. -/
def changeWrites (c : DocumentChange P) : List (String × Option (StoredItem P)) :=
  StorePatch.writes (toPatch c)

/-- The ids a change writes. -/
def changeIds (c : DocumentChange P) : List String := (changeWrites c).map Prod.fst

lemma changeIds_eq (c : DocumentChange P) : changeIds c = StorePatch.ids (toPatch c) :=
  writes_keys _

/-- Writes of items under their own ids, none of them empty, or of absences. -/
def OwnIds (ws : List (String × Option (StoredItem P))) : Prop :=
  ∀ w ∈ ws, ∀ it, w.2 = some it → it.id = w.1 ∧ w.1 ≠ ""

/-- A sync that follows: its first load is done, every item sits under its own id and
nothing under the empty id, which `load` and `toPatch` filter out. -/
structure Following (d : DocumentSync P) : Prop where
  loaded : d.loaded = true
  keyed : Keyed d.content
  noEmptyId : d.content "" = none
  inverses : ∀ k inverse, d.pending.get? k = some inverse → OwnIds (StorePatch.writes inverse)

@[simp] lemma content_setRevision (d : DocumentSync P) (r : Option ℕ) :
    (d.setRevision r).content = d.content := by
  unfold DocumentSync.setRevision
  cases r with
  | none => rfl
  | some r =>
    simp only
    split_ifs
    · rfl
    · cases d.rev with
      | none => rfl
      | some rev => simp only; split_ifs <;> rfl

@[simp] lemma pending_setRevision (d : DocumentSync P) (r : Option ℕ) :
    (d.setRevision r).pending = d.pending := by
  unfold DocumentSync.setRevision
  cases r with
  | none => rfl
  | some r =>
    simp only
    split_ifs
    · rfl
    · cases d.rev with
      | none => rfl
      | some rev => simp only; split_ifs <;> rfl

lemma content_load [DecidableEq P] (d : DocumentSync P) (r : ItemsSince P) :
    (d.load r).content = replaced d.content (storedItems r.items) := by
  have h := content_setRevision
    { d with store := (d.store.replaceAll (storedItems r.items)).1 } (some r.revision)
  exact h.trans (content_replaceAll d.store _)

lemma content_syncedSince_full [DecidableEq P] (d : DocumentSync P) {r : ItemsSince P}
    (hr : r.full = true) : (d.syncedSince r).content = replaced d.content (storedItems r.items) := by
  simp only [DocumentSync.syncedSince, hr, ↓reduceIte, content_setRevision]
  exact content_replaceAll d.store _

lemma content_syncedSince_delta [DecidableEq P] (d : DocumentSync P) {r : ItemsSince P}
    (hr : r.full = false) :
    (d.syncedSince r).content = writeAll d.content
      (StorePatch.writes { updated := storedItems r.items, removed := r.deletedIds }) := by
  simp only [DocumentSync.syncedSince, hr, Bool.false_eq_true, ↓reduceIte, content_setRevision]
  exact content_apply d.store _

/-! ### The three phases -/

variable {d : DocumentSync P} {c : DocumentChange P}

lemma content_patched (d : DocumentSync P) (p : StorePatch P) :
    (d.patched p).content = writeAll d.content (StorePatch.writes p) :=
  content_apply d.store p

lemma onChange_optimistic (hd : d.loaded = true) (hc : c.phase = .optimistic) :
    (onChange d c).content = writeAll d.content (changeWrites c) ∧
    (onChange d c).pending = d.pending.set (key c) (inversePatch d.store (toPatch c)) := by
  unfold onChange
  simp only [hd, hc, Bool.not_true, Bool.false_eq_true, ↓reduceIte]
  exact ⟨content_patched _ _, rfl⟩

lemma onChange_applied (hd : d.loaded = true) (hc : c.phase = .applied) :
    (onChange d c).content = writeAll d.content (changeWrites c) ∧
    (onChange d c).pending = d.pending.delete (key c) := by
  unfold onChange
  simp only [hd, hc, Bool.not_true, Bool.false_eq_true, ↓reduceIte]
  exact ⟨content_patched _ _, rfl⟩

/-- The writes a failure makes: those of the inverse kept under its key, if one is. -/
def rollbackWrites (d : DocumentSync P) (c : DocumentChange P) :
    List (String × Option (StoredItem P)) :=
  match d.pending.get? (key c) with
  | some inverse => StorePatch.writes inverse
  | none => []

lemma onChange_failed (hd : d.loaded = true) (hc : c.phase = .failed) :
    (onChange d c).content = writeAll d.content (rollbackWrites d c) ∧
    (onChange d c).pending = d.pending.delete (key c) := by
  unfold onChange rollbackWrites
  simp only [hd, hc, Bool.not_true, Bool.false_eq_true, ↓reduceIte]
  cases d.pending.get? (key c) with
  | none => exact ⟨rfl, rfl⟩
  | some inverse => exact ⟨content_patched _ _, rfl⟩

@[simp] lemma onChange_loaded : (onChange d c).loaded = d.loaded := by
  unfold onChange
  split_ifs with h
  · rfl
  · cases c.phase with
    | optimistic => rfl
    | applied => rfl
    | failed => cases d.pending.get? (key c) <;> rfl

/-! ### What changes write -/

lemma storedItems_id {items : List (Item P)} {it : StoredItem P} (h : it ∈ storedItems items) :
    it.id ≠ "" := by
  obtain ⟨item, hmem, rfl⟩ := List.mem_map.mp h
  have hne : item.id ≠ "" := by simpa using (List.mem_filter.mp hmem).2
  exact hne

lemma storedItems_ids (items : List (Item P)) :
    (storedItems items).map (·.id) = (items.map (·.id)).filter (· ≠ "") := by
  simp [storedItems, List.map_map, List.filter_map, Function.comp_def, toStoredItem]

lemma ownIds_changeWrites (c : DocumentChange P) : OwnIds (changeWrites c) := by
  intro w h it hit
  rcases List.mem_append.mp h with h | h
  · obtain ⟨id, -, rfl⟩ := List.mem_map.mp h
    cases hit
  · obtain ⟨it', hmem, rfl⟩ := List.mem_map.mp h
    cases hit
    refine ⟨rfl, ?_⟩
    unfold toPatch at hmem
    cases hk : c.kind <;> simp only [hk, List.nil_append, List.append_nil] at hmem
    · exact storedItems_id hmem
    · exact storedItems_id hmem
    · cases hmem

lemma keyed_writeAll {m : Content P} (hm : Keyed m) (hempty : m "" = none)
    {ws : List (String × Option (StoredItem P))} (hws : OwnIds ws) :
    Keyed (writeAll m ws) ∧ writeAll m ws "" = none := by
  have key : ∀ id it, writeAll m ws id = some it → it.id = id ∧ id ≠ "" := by
    intro id it h
    rw [writeAll_apply] at h
    cases hw : lastWrite ws id with
    | none =>
      rw [hw] at h
      have hmem : m id = some it := h
      refine ⟨hm id it hmem, ?_⟩
      rintro rfl
      rw [hempty] at hmem
      cases hmem
    | some v =>
      rw [hw] at h
      exact hws _ (mem_of_lastWrite hw) it h
  refine ⟨fun id it h => (key id it h).1, ?_⟩
  cases h : writeAll m ws "" with
  | none => rfl
  | some it => exact absurd rfl (key "" it h).2

/-- The first load makes a sync follow. -/
theorem following_load [DecidableEq P] (r : ItemsSince P) :
    Following ((DocumentSync.new : DocumentSync P).load r) := by
  have hc : ∀ id it, ((DocumentSync.new : DocumentSync P).load r).content id = some it →
      it.id = id ∧ id ≠ "" := by
    intro id it h
    rw [content_load] at h
    obtain ⟨it', hlast, he⟩ := Option.map_eq_some_iff.mp h
    obtain ⟨hmem, rfl⟩ := lastWrite_listed hlast
    cases he
    exact ⟨rfl, storedItems_id hmem⟩
  refine ⟨rfl, fun id it h => (hc id it h).1, ?_, fun k inverse hk => ?_⟩
  · cases h : ((DocumentSync.new : DocumentSync P).load r).content "" with
    | none => rfl
    | some it => exact absurd rfl (hc "" it h).2
  · simp [DocumentSync.load, DocumentSync.new] at hk

lemma Following.ownIds_inversePatch (h : Following d) (p : StorePatch P) :
    OwnIds (StorePatch.writes (inversePatch d.store p)) := by
  intro w hw it hit
  have hval : d.content w.1 = some it := (writes_inversePatch h.keyed p w hw).symm.trans hit
  refine ⟨h.keyed _ _ hval, fun hw1 => ?_⟩
  rw [hw1, h.noEmptyId] at hval
  cases hval

lemma Following.ownIds_rollbackWrites (h : Following d) (c : DocumentChange P) :
    OwnIds (rollbackWrites d c) := by
  unfold rollbackWrites
  cases hp : d.pending.get? (key c) with
  | none => exact fun w hw => by cases hw
  | some inverse => exact h.inverses _ _ hp

/-- **A following sync keeps following**, whatever the document emits. -/
theorem Following.onChange (h : Following d) (c : DocumentChange P) : Following (onChange d c) := by
  have hdel : ∀ k inverse, (d.pending.delete (key c)).get? k = some inverse →
      OwnIds (StorePatch.writes inverse) := by
    intro k inverse hk
    rw [OMap.get?_delete] at hk
    split_ifs at hk
    exact h.inverses k inverse hk
  have hloaded : (Sync.onChange d c).loaded = true := onChange_loaded.trans h.loaded
  rcases hphase : c.phase with _ | _ | _
  · obtain ⟨hc, hp⟩ := onChange_optimistic h.loaded hphase
    obtain ⟨h1, h2⟩ := keyed_writeAll h.keyed h.noEmptyId (ownIds_changeWrites c)
    refine ⟨hloaded, hc ▸ h1, hc ▸ h2, fun k inverse hk => ?_⟩
    rw [hp, OMap.get?_set] at hk
    split_ifs at hk
    · cases hk
      exact h.ownIds_inversePatch _
    · exact h.inverses k inverse hk
  · obtain ⟨hc, hp⟩ := onChange_applied h.loaded hphase
    obtain ⟨h1, h2⟩ := keyed_writeAll h.keyed h.noEmptyId (ownIds_changeWrites c)
    exact ⟨hloaded, hc ▸ h1, hc ▸ h2, hp ▸ hdel⟩
  · obtain ⟨hc, hp⟩ := onChange_failed h.loaded hphase
    obtain ⟨h1, h2⟩ := keyed_writeAll h.keyed h.noEmptyId (h.ownIds_rollbackWrites c)
    exact ⟨hloaded, hc ▸ h1, hc ▸ h2, hp ▸ hdel⟩

lemma changeWrites_of_notMem_inverse (h : Following d) (c : DocumentChange P) {x : String}
    (hx : x ∉ StorePatch.ids (inversePatch d.store (toPatch c))) :
    writeAll d.content (changeWrites c) x = d.content x := by
  rw [mem_ids_inversePatch h.keyed] at hx
  push Not at hx
  rw [changeWrites, writeAll_of_notMem_sets _ hx.1]
  split_ifs with hr
  · exact (hx.2 hr).symm
  · rfl

end FabPcb.Sync
