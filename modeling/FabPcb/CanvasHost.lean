import FabPcb.SceneItems
import FabPcb.StoreDiff

/-!
The canvas hosts of boards and schematics, which draw a store and follow its diffs.

A host converts each item of the store to render items, which are owned by the item. On a board, a
footprint leaves the children that the store holds to the items of their own: which these are is
kept in an index, by links that are made from the store at the time of a diff. On a schematic, a
child draws nothing while the store holds its parent.
-/

namespace FabPcb.CanvasHost

open OrderedMap ItemStore RenderScene SceneItems
open MemoryItemStore

variable {δ P : Type} (opts : SceneOptions δ)

/-! ### `BaseCanvasHost` -/

/-- What a host has drawn. Render items are new objects each time. -/
structure Canvas (δ : Type) where
  scene : Scene δ := {}
  objects : ℕ := 0

section Base

variable (toRenderItems : StoredItem P → Option (List RenderItem))

/-- A conversion that throws gives no items. -/
def safeConvert (it : StoredItem P) : List RenderItem := (toRenderItems it).getD []

def convertAll (its : List (String × StoredItem P)) : List (String × List RenderItem) :=
  its.map fun e => (e.1, safeConvert toRenderItems e.2)

/-- Owners are built from their items, after those that are removed are gone. -/
def applyItems (c : Canvas δ) (its : List (String × StoredItem P)) (remove : List String) :
    Canvas δ where
  scene := applyDiff opts c.scene
    { upsert := numberAll c.objects (convertAll toRenderItems its), remove := remove }
  objects := c.objects + countAll (convertAll toRenderItems its)

def loadAll (c : Canvas δ) (store : MemoryItemStore P) : Canvas δ :=
  applyItems opts toRenderItems { c with scene := clear c.scene }
    (store.all.map fun it => (it.id, it)) []

def applyStoreDiff (c : Canvas δ) (diff : StoreDiff P) : Canvas δ :=
  applyItems opts toRenderItems c ((diff.added ++ diff.updated).map fun it => (it.id, it))
    diff.removed

def rebuildItems (c : Canvas δ) (store : MemoryItemStore P) (ids : List String) : Canvas δ :=
  applyItems opts toRenderItems c
    (ids.filterMap fun id => (store.get id).map fun it => (id, it))
    (ids.filter fun id => !store.has id)

end Base

/-! ### `BoardCanvasHost` -/

/-- The adapter converts an item, given which children a footprint leaves to the store, and the
owner of its items if that is not the item. It may throw. -/
abbrev BoardAdapter (P : Type) :=
  StoredItem P → Option (String → Bool) → Option String → Option (List RenderItem)

/-- The children of the footprints in the store, both ways. -/
structure ChildIndex where
  childrenOf : Index := OMap.empty
  parentOf : OMap String String := OMap.empty

namespace ChildIndex

def link (index : ChildIndex) (id parent : String) : ChildIndex where
  childrenOf := add index.childrenOf parent id
  parentOf := index.parentOf.set id parent

def unlink (index : ChildIndex) (id : String) : ChildIndex :=
  match index.parentOf.get? id with
  | none => index
  | some p => { childrenOf := del index.childrenOf p id, parentOf := index.parentOf.delete id }

end ChildIndex

structure BoardCanvasHost (δ : Type) where
  canvas : Canvas δ := {}
  index : ChildIndex := {}

namespace BoardCanvasHost

def CHILD_TYPES : List String :=
  ["KOT_PCB_PAD", "KOT_PCB_SHAPE", "KOT_PCB_TEXT", "KOT_PCB_TEXTBOX", "KOT_PCB_FIELD",
    "KOT_PCB_ZONE", "KOT_PCB_POINT"]

/-- The footprint that an item belongs to. -/
def footprintParent (store : MemoryItemStore P) (it : StoredItem P) : Option String :=
  (truthy it.parent).filter fun p =>
    CHILD_TYPES.contains it.type &&
      (store.get p).any fun parent => parent.type = "KOT_PCB_FOOTPRINT"

/-- A footprint with children in the store leaves them out. -/
def toRenderItems (adapter : BoardAdapter P) (index : ChildIndex) (it : StoredItem P) :
    Option (List RenderItem) :=
  match (index.childrenOf.get? it.id).filter fun own =>
      it.type = "KOT_PCB_FOOTPRINT" && own.size ≠ 0 with
  | some own => adapter it (some own.has) none
  | none => adapter it none (index.parentOf.get? it.id)

def indexItem (store : MemoryItemStore P) (index : ChildIndex) (it : StoredItem P) : ChildIndex :=
  match footprintParent store it with
  | none => index
  | some p => index.link it.id p

def indexChildren (store : MemoryItemStore P) : ChildIndex :=
  store.all.foldl (indexItem store) {}

variable (adapter : BoardAdapter P)

def mount (host : BoardCanvasHost δ) (store : MemoryItemStore P) : BoardCanvasHost δ where
  canvas := loadAll opts (toRenderItems adapter (indexChildren store)) host.canvas store
  index := indexChildren store

/-- A child that goes, and its parent, which is to be rebuilt. -/
def dropChild (acc : OSet String × ChildIndex) (id : String) : OSet String × ChildIndex :=
  ((acc.2.parentOf.get? id).elim acc.1 fun p => acc.1.set p (), acc.2.unlink id)

/-- A child that has another parent than before. -/
def moveChild (store : MemoryItemStore P) (acc : OSet String × ChildIndex) (it : StoredItem P) :
    OSet String × ChildIndex :=
  let prev := acc.2.parentOf.get? it.id
  let next := footprintParent store it
  if prev = next then acc
  else
    let parents := prev.elim acc.1 fun p => acc.1.set p ()
    let index := acc.2.unlink it.id
    match next with
    | none => (parents, index)
    | some p => (parents.set p (), index.link it.id p)

/-- The index after a diff, and the parents whose children have changed. The store has the diff
already. -/
def reindex (store : MemoryItemStore P) (index : ChildIndex) (diff : StoreDiff P) :
    OSet String × ChildIndex :=
  (diff.added ++ diff.updated).foldl (moveChild store)
    (diff.removed.foldl dropChild (OMap.empty, index))

def applyStoreDiff (host : BoardCanvasHost δ) (store : MemoryItemStore P) (diff : StoreDiff P) :
    BoardCanvasHost δ :=
  let moved := reindex store host.index diff
  let convert := toRenderItems adapter moved.2
  let canvas := CanvasHost.applyStoreDiff opts convert host.canvas diff
  let touched := (diff.added ++ diff.updated).map (·.id)
  let rebuild := moved.1.keys.filter fun p => !touched.contains p && store.has p
  { canvas := if rebuild = [] then canvas else rebuildItems opts convert canvas store rebuild
    index := moved.2 }

end BoardCanvasHost

/-! ### `SchematicCanvasHost` -/

abbrev SchematicAdapter (P : Type) := StoredItem P → Option (List RenderItem)

structure SchematicCanvasHost (δ : Type) where
  canvas : Canvas δ := {}

namespace SchematicCanvasHost

def CHILD_TYPES : List String := ["KOT_SCH_PIN", "KOT_SCH_FIELD", "KOT_SCH_SHEET_PIN"]

/-- A child whose parent the store holds is drawn by its parent. -/
def parentDraws (store : MemoryItemStore P) (it : StoredItem P) : Bool :=
  (truthy it.parent).any fun p => CHILD_TYPES.contains it.type && store.has p

def toRenderItems (adapter : SchematicAdapter P) (store : MemoryItemStore P) (it : StoredItem P) :
    Option (List RenderItem) :=
  if parentDraws store it then some [] else adapter it

variable (adapter : SchematicAdapter P)

def mount (host : SchematicCanvasHost δ) (store : MemoryItemStore P) : SchematicCanvasHost δ where
  canvas := loadAll opts (toRenderItems adapter store) host.canvas store

def applyStoreDiff (host : SchematicCanvasHost δ) (store : MemoryItemStore P) (diff : StoreDiff P) :
    SchematicCanvasHost δ where
  canvas := CanvasHost.applyStoreDiff opts (toRenderItems adapter store) host.canvas diff

end SchematicCanvasHost

end FabPcb.CanvasHost
