import FabPcb.StoreContent
import Mathlib.Algebra.Order.Ring.Rat

/-!
`services/MemoryItemStore.ts`: the store of the web app.

It is the store of the client in small: items by id, the same three indexes, and a revision
that counts diffs. Its mutations run in batches, and a batch within a batch belongs to the
outer one. Of its content they are the plain writes their names say.
-/

namespace FabPcb.AppItemStore

open OrderedMap Writes StoreContent
open ItemStore (Index StoreDiff add del truthy)

variable {P : Type*}

/-- A box in nm. -/
structure BBox where
  x : ℚ
  y : ℚ
  w : ℚ
  h : ℚ
  deriving DecidableEq

/-- What an item carries next to the fields the stores read: the decoded message and the box. -/
structure Payload (P : Type*) where
  proto : P
  bbox : Option BBox
  deriving DecidableEq

/-- `StoredItem` of the contracts, without the wrapper. -/
abbrev StoredItem (P : Type*) := ItemStore.StoredItem (Payload P)

structure MemoryItemStore (P : Type*) where
  items : OMap String (StoredItem P)
  typeIndex : Index
  layerIndex : Index
  netIndex : Index
  rev : ℕ
  pending : Option (StoreDiff (Payload P))

namespace MemoryItemStore

def new : MemoryItemStore P := ⟨OMap.empty, OMap.empty, OMap.empty, OMap.empty, 0, none⟩

def get (s : MemoryItemStore P) (id : String) : Option (StoredItem P) := s.items.get? id

def index (s : MemoryItemStore P) (item : StoredItem P) : MemoryItemStore P :=
  { s with
    typeIndex := add s.typeIndex item.type item.id
    layerIndex := (truthy item.layer).elim s.layerIndex fun layer => add s.layerIndex layer item.id
    netIndex := (truthy item.net).elim s.netIndex fun net => add s.netIndex net item.id }

def unindex (s : MemoryItemStore P) (item : StoredItem P) : MemoryItemStore P :=
  { s with
    typeIndex := del s.typeIndex item.type item.id
    layerIndex := (truthy item.layer).elim s.layerIndex fun layer => del s.layerIndex layer item.id
    netIndex := (truthy item.net).elim s.netIndex fun net => del s.netIndex net item.id }

/-- Sets an item and notes it in the pending diff. -/
def put (s : MemoryItemStore P) (item : StoredItem P)
    (note : StoreDiff (Payload P) → StoreDiff (Payload P)) : MemoryItemStore P :=
  { { s with items := s.items.set item.id item }.index item with pending := s.pending.map note }

/-- `doInsert` of a present item is `doReplace`, and `doReplace` of an absent one `doInsert`. -/
def doInsert (s : MemoryItemStore P) (item : StoredItem P) : MemoryItemStore P :=
  match s.items.get? item.id with
  | some prev => (s.unindex prev).put item fun d => { d with updated := d.updated ++ [item] }
  | none => s.put item fun d => { d with added := d.added ++ [item] }

def doReplace (s : MemoryItemStore P) (item : StoredItem P) : MemoryItemStore P :=
  match s.items.get? item.id with
  | none => s.doInsert item
  | some prev => (s.unindex prev).put item fun d => { d with updated := d.updated ++ [item] }

def doRemove (s : MemoryItemStore P) (id : String) : MemoryItemStore P :=
  match s.items.get? id with
  | none => s
  | some prev =>
    { s.unindex prev with
      items := s.items.delete id
      pending := s.pending.map fun d => { d with removed := d.removed ++ [id] } }

/-- The end of the outermost batch: the diff goes to the subscribers unless it is empty. -/
def deliver (s : MemoryItemStore P) : MemoryItemStore P × Option (StoreDiff (Payload P)) :=
  match s.pending with
  | none => (s, none)
  | some diff =>
    if diff.added.isEmpty && diff.updated.isEmpty && diff.removed.isEmpty then
      ({ s with pending := none }, none)
    else ({ s with pending := none, rev := diff.revision }, some diff)

def batch (s : MemoryItemStore P) (fn : MemoryItemStore P → MemoryItemStore P) :
    MemoryItemStore P × Option (StoreDiff (Payload P)) :=
  if s.pending.isSome then (fn s, none)
  else (fn { s with pending := some ⟨[], [], [], s.rev + 1⟩ }).deliver

def insert (s : MemoryItemStore P) (item : StoredItem P) :
    MemoryItemStore P × Option (StoreDiff (Payload P)) :=
  s.batch fun s => s.doInsert item

def replace (s : MemoryItemStore P) (item : StoredItem P) :
    MemoryItemStore P × Option (StoreDiff (Payload P)) :=
  s.batch fun s => s.doReplace item

/-- `remove`; the item it also returns is dropped by the mutators of a transaction. -/
def remove (s : MemoryItemStore P) (id : String) :
    MemoryItemStore P × Option (StoreDiff (Payload P)) :=
  s.batch fun s => s.doRemove id

end MemoryItemStore

/-! ### The content -/

def content (s : MemoryItemStore P) : Content (Payload P) := s.get

variable {s : MemoryItemStore P} {item : StoredItem P} {id : String}

lemma content_put (s : MemoryItemStore P) (item : StoredItem P)
    (note : StoreDiff (Payload P) → StoreDiff (Payload P)) :
    content (s.put item note) = Function.update (content s) item.id (some item) := by
  funext x
  by_cases hx : x = item.id
  · subst hx
    simp [content, MemoryItemStore.get, MemoryItemStore.put, MemoryItemStore.index]
  · simp [content, MemoryItemStore.get, MemoryItemStore.put, MemoryItemStore.index, hx]

lemma content_doInsert (s : MemoryItemStore P) (item : StoredItem P) :
    content (s.doInsert item) = Function.update (content s) item.id (some item) := by
  unfold MemoryItemStore.doInsert
  split
  · rw [content_put]
    rfl
  · rw [content_put]

lemma content_doReplace (s : MemoryItemStore P) (item : StoredItem P) :
    content (s.doReplace item) = Function.update (content s) item.id (some item) := by
  unfold MemoryItemStore.doReplace
  split
  · rw [content_doInsert]
  · rw [content_put]
    rfl

lemma content_doRemove (s : MemoryItemStore P) (id : String) :
    content (s.doRemove id) = Function.update (content s) id none := by
  unfold MemoryItemStore.doRemove
  funext x
  split
  case h_1 hnone =>
    by_cases hx : x = id
    · subst hx
      rw [Function.update_self]
      exact hnone
    · rw [Function.update_of_ne hx]
  case h_2 prev hprev =>
    by_cases hx : x = id
    · subst hx
      simp [content, MemoryItemStore.get]
    · simp [content, MemoryItemStore.get, hx]

lemma content_deliver (s : MemoryItemStore P) : content s.deliver.1 = content s := by
  unfold MemoryItemStore.deliver
  split
  · rfl
  · split_ifs <;> rfl

/-- **A batch does to the content what its mutations do**, on its own or within another. -/
lemma content_batch {fn : MemoryItemStore P → MemoryItemStore P}
    {g : Content (Payload P) → Content (Payload P)} (h : ∀ t, content (fn t) = g (content t))
    (s : MemoryItemStore P) : content (s.batch fn).1 = g (content s) := by
  unfold MemoryItemStore.batch
  split_ifs
  · exact h s
  · rw [content_deliver, h]
    rfl

lemma content_insert (s : MemoryItemStore P) (item : StoredItem P) :
    content (s.insert item).1 = Function.update (content s) item.id (some item) :=
  content_batch (g := fun m => Function.update m item.id (some item))
    (fun t => content_doInsert t item) s

lemma content_replace (s : MemoryItemStore P) (item : StoredItem P) :
    content (s.replace item).1 = Function.update (content s) item.id (some item) :=
  content_batch (g := fun m => Function.update m item.id (some item))
    (fun t => content_doReplace t item) s

lemma content_remove (s : MemoryItemStore P) (id : String) :
    content (s.remove id).1 = Function.update (content s) id none :=
  content_batch (g := fun m => Function.update m id none) (fun t => content_doRemove t id) s

end FabPcb.AppItemStore
