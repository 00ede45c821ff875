import FabPcb.OrderedMap
import FabPcb.Writes
import FabPcb.Items

/-!
`store/item-store.ts`: the normalised, indexed item store.

The store holds the items by KIID in insertion order and three indexes from a key to the
set of ids carrying it. A patch is turned into the diff of what it changes, and the
revision counts the diffs. Read as a function from ids, the store only ever sees lists of
writes: a patch deletes what it lists as removed and then sets what it adds and updates.
-/

namespace FabPcb.ItemStore

open OrderedMap Writes Items

variable {P : Type*}

/-- `StoredItem`; the box consumers fill in lazily and the wrapper kept for convenience are
read by no function here. -/
structure StoredItem (P : Type*) where
  id : String
  type : String
  layer : Option String
  net : Option String
  parent : Option String
  proto : P
  deriving DecidableEq

/-- `StorePatch`; a list left out is the empty list. -/
structure StorePatch (P : Type*) where
  added : List (StoredItem P) := []
  updated : List (StoredItem P) := []
  removed : List String := []
  deriving DecidableEq

structure StoreDiff (P : Type*) where
  added : List (StoredItem P)
  updated : List (StoredItem P)
  removed : List String
  revision : ℕ
  deriving DecidableEq

def toStoredItem (item : Item P) : StoredItem P where
  id := item.id
  type := item.type.typeName
  layer := item.layer
  net := item.net
  parent := item.parent
  proto := item.proto

/-- `items.filter((i) => i.id).map(toStoredItem)`. -/
def storedItems (items : List (Item P)) : List (StoredItem P) :=
  (items.filter (·.id ≠ "")).map toStoredItem

/-! ### The indexes -/

abbrev Index := OMap String (OSet String)

def add (idx : Index) (key id : String) : Index :=
  idx.set key (((idx.get? key).getD OMap.empty).set id ())

def del (idx : Index) (key id : String) : Index :=
  match idx.get? key with
  | none => idx
  | some s => if (s.delete id).size = 0 then idx.delete key else idx.set key (s.delete id)

/-- `if (it.layer)`: an optional string counts when it is there and not empty. -/
def truthy (x : Option String) : Option String := x.filter (· ≠ "")

structure MemoryItemStore (P : Type*) where
  items : OMap String (StoredItem P)
  typeIdx : Index
  layerIdx : Index
  netIdx : Index
  rev : ℕ

namespace MemoryItemStore

/-- `new MemoryItemStore(...)`. -/
def new : MemoryItemStore P := ⟨OMap.empty, OMap.empty, OMap.empty, OMap.empty, 0⟩

def size (s : MemoryItemStore P) : ℕ := s.items.size

def get (s : MemoryItemStore P) (id : String) : Option (StoredItem P) := s.items.get? id

def has (s : MemoryItemStore P) (id : String) : Bool := s.items.has id

def all (s : MemoryItemStore P) : List (StoredItem P) := s.items.values

def filterIds (s : MemoryItemStore P) (ids : Option (OSet String)) : List (StoredItem P) :=
  match ids with
  | none => []
  | some ids => ids.keys.filterMap s.get

def byType (s : MemoryItemStore P) (type : String) : List (StoredItem P) :=
  s.filterIds (s.typeIdx.get? type)

def byLayer (s : MemoryItemStore P) (layer : String) : List (StoredItem P) :=
  s.filterIds (s.layerIdx.get? layer)

def byNet (s : MemoryItemStore P) (net : String) : List (StoredItem P) :=
  s.filterIds (s.netIdx.get? net)

def types (s : MemoryItemStore P) : List String := s.typeIdx.keys
def layers (s : MemoryItemStore P) : List String := s.layerIdx.keys
def nets (s : MemoryItemStore P) : List String := s.netIdx.keys

def index (s : MemoryItemStore P) (it : StoredItem P) : MemoryItemStore P :=
  { s with
    typeIdx := add s.typeIdx it.type it.id
    layerIdx := match truthy it.layer with
      | some layer => add s.layerIdx layer it.id
      | none => s.layerIdx
    netIdx := match truthy it.net with
      | some net => add s.netIdx net it.id
      | none => s.netIdx }

def unindex (s : MemoryItemStore P) (it : StoredItem P) : MemoryItemStore P :=
  { s with
    typeIdx := del s.typeIdx it.type it.id
    layerIdx := match truthy it.layer with
      | some layer => del s.layerIdx layer it.id
      | none => s.layerIdx
    netIdx := match truthy it.net with
      | some net => del s.netIdx net it.id
      | none => s.netIdx }

/-! ### Applying a patch -/

/-- `this.unindex(this.items.get(id)!)`. -/
def unindexId (s : MemoryItemStore P) (id : String) : MemoryItemStore P :=
  match s.items.get? id with
  | some it => s.unindex it
  | none => s

def deleteId (s : MemoryItemStore P) (id : String) : MemoryItemStore P :=
  { s with items := s.items.delete id }

/-- One turn of the last loop of `apply`: unindex what is there, set, index. -/
def put (s : MemoryItemStore P) (it : StoredItem P) : MemoryItemStore P :=
  let s := s.unindexId it.id
  let s := { s with items := s.items.set it.id it }
  s.index it

/-- The mutations of `apply`, once the three lists are known. -/
def mutate (s : MemoryItemStore P) (added updated : List (StoredItem P)) (removed : List String) :
    MemoryItemStore P :=
  let s := removed.foldl unindexId s
  let s := removed.foldl deleteId s
  (added ++ updated).foldl put s

/-- The entries of a patch whose id the store does not hold, the `added` of its diff. -/
def addedBy (s : MemoryItemStore P) (patch : StorePatch P) : List (StoredItem P) :=
  (patch.added ++ patch.updated).filter fun it => !s.items.has it.id

/-- The entries of a patch whose id the store holds, the `updated` of its diff. -/
def updatedBy (s : MemoryItemStore P) (patch : StorePatch P) : List (StoredItem P) :=
  (patch.added ++ patch.updated).filter fun it => s.items.has it.id

/-- The removed ids of a patch that the store holds, the `removed` of its diff. -/
def removedBy (s : MemoryItemStore P) (patch : StorePatch P) : List String :=
  patch.removed.filter s.items.has

/-- `apply`: the new store, and the diff it delivers to subscribers. -/
def apply (s : MemoryItemStore P) (patch : StorePatch P) :
    MemoryItemStore P × Option (StoreDiff P) :=
  let added := s.addedBy patch
  let updated := s.updatedBy patch
  let removed := s.removedBy patch
  if added.isEmpty && updated.isEmpty && removed.isEmpty then (s, none)
  else
    let s' := s.mutate added updated removed
    let rev := s'.rev + 1
    ({ s' with rev }, some { added, updated, removed, revision := rev })

/-- The patch `replaceAll` hands to `apply`. -/
def replacePatch [DecidableEq P] (s : MemoryItemStore P) (items : List (StoredItem P)) :
    StorePatch P :=
  let next : OMap String (StoredItem P) := OMap.ofList (items.map fun it => (it.id, it))
  { removed := s.items.keys.filter fun id => !next.has id
    added := next.values.filter fun it => (s.items.get? it.id).isNone
    updated := next.values.filter fun it =>
      match s.items.get? it.id with
      | none => false
      | some prev => prev.proto ≠ it.proto }

def replaceAll [DecidableEq P] (s : MemoryItemStore P) (items : List (StoredItem P)) :
    MemoryItemStore P × Option (StoreDiff P) :=
  s.apply (s.replacePatch items)

def clear (s : MemoryItemStore P) : MemoryItemStore P × Option (StoreDiff P) :=
  s.apply { removed := s.items.keys }

end MemoryItemStore

/-! ### Calls, runs and reachable stores -/

/-- A mutating call. -/
inductive Call (P : Type*) where
  | apply (patch : StorePatch P)
  | replaceAll (items : List (StoredItem P))
  | clear

variable [DecidableEq P]

/-- The patch a call comes down to in a given store. -/
def Call.patch (s : MemoryItemStore P) : Call P → StorePatch P
  | .apply patch => patch
  | .replaceAll items => s.replacePatch items
  | .clear => { removed := s.items.keys }

def Call.step (s : MemoryItemStore P) (call : Call P) : MemoryItemStore P × Option (StoreDiff P) :=
  match call with
  | .apply patch => s.apply patch
  | .replaceAll items => s.replaceAll items
  | .clear => s.clear

lemma Call.step_eq (s : MemoryItemStore P) (call : Call P) :
    call.step s = s.apply (call.patch s) := by
  cases call <;> rfl

/-- The store after some calls, and the diffs it emitted on the way, in order. -/
def run (s : MemoryItemStore P) : List (Call P) → MemoryItemStore P × List (StoreDiff P)
  | [] => (s, [])
  | call :: calls =>
    let r := run (call.step s).1 calls
    (r.1, (call.step s).2.toList ++ r.2)

end FabPcb.ItemStore
