import FabPcb.AppItemStore

/-!
`CommandService.ts`: the stores transactions drive, and the ops replayed into them.

`mutatorFor` hides whether the store is the app's own, mutated call by call, or that of the
client, which takes a batch as one patch with the removals first. Ops on distinct items are
writes to distinct ids, and then it does not matter in which order a store takes them.
-/

namespace FabPcb.StoreMutator

open OrderedMap Writes StoreContent AppItemStore
open ItemStore (StorePatch)

variable {P : Type*}

/-! ### The two stores -/

/-- `ItemStore`, as far as transactions drive it: the app's store or that of the client. -/
inductive AnyStore (P : Type*) where
  | app (s : AppItemStore.MemoryItemStore P)
  | client (s : ItemStore.MemoryItemStore (Payload P))

namespace AnyStore

def content : AnyStore P → Content (Payload P)
  | .app s => AppItemStore.content s
  | .client s => StoreContent.content s

/-- What `mutatorFor` does with what a batch has collected for the client's store. -/
def flush (s : ItemStore.MemoryItemStore (Payload P)) (p : StorePatch (Payload P)) :
    ItemStore.MemoryItemStore (Payload P) :=
  if p.added.isEmpty && p.updated.isEmpty && p.removed.isEmpty then s else (s.apply p).1

def insert (item : StoredItem P) : AnyStore P → AnyStore P
  | .app s => .app (s.insert item).1
  | .client s => .client (flush s { added := [item] })

def replace (item : StoredItem P) : AnyStore P → AnyStore P
  | .app s => .app (s.replace item).1
  | .client s => .client (flush s { updated := [item] })

def remove (id : String) : AnyStore P → AnyStore P
  | .app s => .app (s.remove id).1
  | .client s => .client (flush s { removed := [id] })

end AnyStore

inductive OpKind where
  | create | update | delete
  deriving DecidableEq

structure ItemOp (P : Type*) where
  kind : OpKind
  item : StoredItem P
  deriving DecidableEq

/-- The write an op stands for. -/
def ItemOp.write (op : ItemOp P) : String × Option (StoredItem P) :=
  (op.item.id, if op.kind = .delete then none else some op.item)

/-- The ids ops name. -/
def ids (ops : List (ItemOp P)) : List String := ops.map (·.item.id)

/-- What `remove` and `replace` leave of an op in the pending patch of a client's store. -/
def collect (p : StorePatch (Payload P)) (op : ItemOp P) : StorePatch (Payload P) :=
  if op.kind = .delete then { p with removed := p.removed ++ [op.item.id] }
  else { p with updated := p.updated ++ [op.item] }

/-- One turn of the loop of `replayInto`, in a batch of the app's store. -/
def replayOp (s : AppItemStore.MemoryItemStore P) (op : ItemOp P) :
    AppItemStore.MemoryItemStore P :=
  if op.kind = .delete then (s.remove op.item.id).1 else (s.replace op.item).1

def AnyStore.replayInto (ops : List (ItemOp P)) : AnyStore P → AnyStore P
  | .app s => .app (s.batch fun s => ops.foldl replayOp s).1
  | .client s => .client (flush s (ops.foldl collect {}))

/-! ### What they do to the content -/

lemma content_flush (s : ItemStore.MemoryItemStore (Payload P)) (p : StorePatch (Payload P)) :
    StoreContent.content (AnyStore.flush s p) =
      writeAll (StoreContent.content s) (StorePatch.writes p) := by
  unfold AnyStore.flush
  split_ifs with h
  · simp only [Bool.and_eq_true, List.isEmpty_iff] at h
    simp [StorePatch.writes, h]
  · rw [content_apply]

lemma content_insert (item : StoredItem P) (s : AnyStore P) :
    (s.insert item).content = Function.update s.content item.id (some item) := by
  cases s with
  | app s => exact AppItemStore.content_insert s item
  | client s => exact content_flush s _

lemma content_replace (item : StoredItem P) (s : AnyStore P) :
    (s.replace item).content = Function.update s.content item.id (some item) := by
  cases s with
  | app s => exact AppItemStore.content_replace s item
  | client s => exact content_flush s _

lemma content_remove (id : String) (s : AnyStore P) :
    (s.remove id).content = Function.update s.content id none := by
  cases s with
  | app s => exact AppItemStore.content_remove s id
  | client s => exact content_flush s _

lemma content_foldl_replayOp (ops : List (ItemOp P)) (s : AppItemStore.MemoryItemStore P) :
    AppItemStore.content (ops.foldl replayOp s) =
      writeAll (AppItemStore.content s) (ops.map ItemOp.write) := by
  induction ops generalizing s with
  | nil => rfl
  | cons op ops ih =>
    rw [List.foldl_cons, ih, List.map_cons, writeAll_cons]
    congr 1
    unfold replayOp ItemOp.write
    split_ifs
    · exact AppItemStore.content_remove s op.item.id
    · exact AppItemStore.content_replace s op.item

lemma writes_foldl_collect (ops : List (ItemOp P)) (p : StorePatch (Payload P)) :
    (StorePatch.writes (ops.foldl collect p)).Perm
      (StorePatch.writes p ++ ops.map ItemOp.write) := by
  induction ops generalizing p with
  | nil => simp
  | cons op ops ih =>
    have hop : (StorePatch.writes (collect p op)).Perm (StorePatch.writes p ++ [op.write]) := by
      unfold collect ItemOp.write
      split_ifs
      · simp only [StorePatch.writes, List.map_append, List.map_cons, List.map_nil,
          List.append_assoc]
        refine List.Perm.append_left _ ?_
        rw [← List.append_assoc (p.added.map _)]
        exact List.perm_append_comm
      · simp [StorePatch.writes]
    have hrest := (ih (collect p op)).trans (hop.append_right _)
    rw [List.append_assoc] at hrest
    exact hrest

lemma write_keys (ops : List (ItemOp P)) : (ops.map ItemOp.write).map Prod.fst = ids ops := by
  simp [ids, ItemOp.write, Function.comp_def]

/-- **Replaying ops**: each is written, whatever the store's precedence among them. -/
lemma content_replayInto {ops : List (ItemOp P)} (hnd : (ids ops).Nodup) (s : AnyStore P) :
    (s.replayInto ops).content = writeAll s.content (ops.map ItemOp.write) := by
  cases s with
  | app s =>
    exact content_batch (g := fun m => writeAll m (ops.map ItemOp.write))
      (content_foldl_replayOp ops) s
  | client s =>
    have hperm := writes_foldl_collect ops ({} : StorePatch (Payload P))
    rw [AnyStore.replayInto, AnyStore.content, content_flush]
    refine writeAll_perm hperm ((hperm.map Prod.fst).nodup_iff.mpr ?_)
    simpa [StorePatch.writes, ids, ItemOp.write, Function.comp_def] using hnd

/-! ### Stores that hold every item under its own id -/

lemma keyed_update {m : Content (Payload P)} (h : Keyed m) (item : StoredItem P) :
    Keyed (Function.update m item.id (some item)) := by
  intro id it hit
  by_cases hid : id = item.id
  · subst hid
    rw [Function.update_self] at hit
    exact (Option.some.inj hit) ▸ rfl
  · rw [Function.update_of_ne hid] at hit
    exact h id it hit

lemma keyed_delete {m : Content (Payload P)} (h : Keyed m) (id : String) :
    Keyed (Function.update m id none) := by
  intro x it hit
  by_cases hx : x = id
  · subst hx
    rw [Function.update_self] at hit
    cases hit
  · rw [Function.update_of_ne hx] at hit
    exact h x it hit

lemma keyed_writeAll {m : Content (Payload P)} (h : Keyed m) (ops : List (ItemOp P)) :
    Keyed (writeAll m (ops.map ItemOp.write)) := by
  induction ops generalizing m with
  | nil => exact h
  | cons op ops ih =>
    refine ih ?_
    unfold ItemOp.write
    split_ifs
    · exact keyed_delete h op.item.id
    · exact keyed_update h op.item

lemma keyed_replayInto {s : AnyStore P} (h : Keyed s.content) (ops : List (ItemOp P)) :
    Keyed (s.replayInto ops).content := by
  cases s with
  | app s =>
    have hcontent := content_batch (g := fun m => writeAll m (ops.map ItemOp.write))
      (content_foldl_replayOp ops) s
    rw [AnyStore.replayInto, AnyStore.content, hcontent]
    exact keyed_writeAll h ops
  | client s =>
    rw [AnyStore.replayInto, AnyStore.content, content_flush]
    exact keyed_writeAll_apply h _

/-- A store under which every item sits under its own id. -/
structure Store (P : Type*) where
  impl : AnyStore P
  keyed : Keyed impl.content

namespace Store

def content (s : Store P) : Content (Payload P) := s.impl.content

def get (s : Store P) (id : String) : Option (StoredItem P) := s.content id

def insert (s : Store P) (item : StoredItem P) : Store P where
  impl := s.impl.insert item
  keyed := by
    rw [content_insert]
    exact keyed_update s.keyed item

def replace (s : Store P) (item : StoredItem P) : Store P where
  impl := s.impl.replace item
  keyed := by
    rw [content_replace]
    exact keyed_update s.keyed item

def remove (s : Store P) (id : String) : Store P where
  impl := s.impl.remove id
  keyed := by
    rw [content_remove]
    exact keyed_delete s.keyed id

def replayInto (s : Store P) (ops : List (ItemOp P)) : Store P where
  impl := s.impl.replayInto ops
  keyed := keyed_replayInto s.keyed ops

end Store

end FabPcb.StoreMutator
