import FabPcb.EditHistory
import FabPcb.StoreIndex
import FabPcb.Undo

/-!
`store/undo.ts`: the linear undo stack over the patches of a store.

The entries up to the cursor are done, those behind it undone. A patch is recorded with the
inverse computed before it is applied, and dropped entries are those the cursor was moved
away from or the oldest one beyond the limit. So the stack is a line of reversible edits of
the content of its store.
-/

namespace FabPcb.PatchHistory

open Writes ItemStore StoreContent StoreIndex Undo
open EditHistory OrderedMap

variable {P : Type*}

structure HistoryEntry (P : Type*) where
  label : String
  forward : StorePatch P
  inverse : StorePatch P
  revision : ℕ

/-- The stack with the store it drives. -/
structure UndoStack (P : Type*) where
  store : MemoryItemStore P
  limit : ℕ
  entries : List (HistoryEntry P)
  cursor : ℕ

namespace UndoStack

def new (store : MemoryItemStore P) (limit : ℕ) : UndoStack P := ⟨store, limit, [], 0⟩

/-- The entries once a new one is pushed at the cursor. -/
def pushed (u : UndoStack P) (entry : HistoryEntry P) : List (HistoryEntry P) :=
  u.entries.take u.cursor ++ [entry]

/-- What `shift` takes off the front of a list beyond the limit. -/
def shifted (u : UndoStack P) (entries : List (HistoryEntry P)) : List (HistoryEntry P) :=
  if u.limit < entries.length then entries.take 1 else []

def kept (u : UndoStack P) (entries : List (HistoryEntry P)) : List (HistoryEntry P) :=
  if u.limit < entries.length then entries.drop 1 else entries

/-- The entry `apply` records, when the patch changes the store. -/
def entry (u : UndoStack P) (label : String) (patch : StorePatch P) : Option (HistoryEntry P) :=
  (u.store.apply patch).2.map fun diff =>
    ⟨label, patch, inversePatch u.store patch, diff.revision⟩

def apply (u : UndoStack P) (label : String) (patch : StorePatch P) :
    UndoStack P × Option (HistoryEntry P) :=
  match u.entry label patch with
  | none => (u, none)
  | some entry =>
    let entries := u.kept (u.pushed entry)
    ({ u with store := (u.store.apply patch).1, entries, cursor := entries.length }, some entry)

def canUndo (u : UndoStack P) : Bool := 0 < u.cursor

def canRedo (u : UndoStack P) : Bool := u.cursor < u.entries.length

def undo (u : UndoStack P) : UndoStack P × Option (HistoryEntry P) :=
  if u.canUndo then
    match u.entries[u.cursor - 1]? with
    | some entry =>
      ({ u with store := (u.store.apply entry.inverse).1, cursor := u.cursor - 1 }, some entry)
    | none => (u, none)
  else (u, none)

def redo (u : UndoStack P) : UndoStack P × Option (HistoryEntry P) :=
  if u.canRedo then
    match u.entries[u.cursor]? with
    | some entry =>
      ({ u with store := (u.store.apply entry.forward).1, cursor := u.cursor + 1 }, some entry)
    | none => (u, none)
  else (u, none)

def history (u : UndoStack P) : List (HistoryEntry P) := u.entries.take u.cursor

def clear (u : UndoStack P) : UndoStack P := { u with entries := [], cursor := 0 }

end UndoStack

/-! ### Calls -/

/-- A call that moves along the stack; `clear` starts a new one. -/
inductive StackCall (P : Type*) where
  | apply (label : String) (patch : StorePatch P)
  | undo
  | redo

def StackCall.step (u : UndoStack P) : StackCall P → UndoStack P
  | .apply label patch => (u.apply label patch).1
  | .undo => u.undo.1
  | .redo => u.redo.1

/-- The entries a call evicts. -/
def StackCall.evicted (u : UndoStack P) : StackCall P → List (HistoryEntry P)
  | .apply label patch => (u.entry label patch).elim [] fun entry => u.shifted (u.pushed entry)
  | .undo => []
  | .redo => []

/-- The stack after some calls, and the entries evicted on the way, in order. -/
def runCalls (u : UndoStack P) : List (StackCall P) → UndoStack P × List (HistoryEntry P)
  | [] => (u, [])
  | call :: calls =>
    let r := runCalls (call.step u) calls
    (r.1, call.evicted u ++ r.2)

/-! ### The content along the stack -/

def forward (e : HistoryEntry P) (m : Content P) : Content P :=
  writeAll m (StorePatch.writes e.forward)

def inverse (e : HistoryEntry P) (m : Content P) : Content P :=
  writeAll m (StorePatch.writes e.inverse)

/-- The line of a stack: what was evicted, what is done and what is undone. -/
def UndoStack.line (u : UndoStack P) (evicted : List (HistoryEntry P)) : Line (HistoryEntry P) :=
  ⟨evicted, u.entries.take u.cursor, u.entries.drop u.cursor⟩

/-- The invariant: the entries are a line of reversible edits of the content. -/
structure Tracks (start : Content P) (u : UndoStack P) (evicted : List (HistoryEntry P)) :
    Prop where
  cursor : u.cursor ≤ u.entries.length
  indexed : Indexed u.store
  sound : Sound forward inverse start (u.line evicted) (content u.store)

variable {u : UndoStack P} {start : Content P} {evicted : List (HistoryEntry P)}

lemma tracks_new {s : MemoryItemStore P} (hs : Indexed s) (limit : ℕ) :
    Tracks (content s) (UndoStack.new s limit) [] :=
  ⟨Nat.le_refl 0, hs, sound_start _⟩

lemma apply_of_entry_none {label : String} {patch : StorePatch P}
    (h : u.entry label patch = none) : u.apply label patch = (u, none) := by
  simp [UndoStack.apply, h]

lemma entry_eq_some {label : String} {patch : StorePatch P} {e : HistoryEntry P}
    (h : u.entry label patch = some e) :
    e.forward = patch ∧ e.inverse = inversePatch u.store patch := by
  obtain ⟨d, -, rfl⟩ := Option.map_eq_some_iff.mp h
  exact ⟨rfl, rfl⟩

lemma shifted_append_kept (u : UndoStack P) (entries : List (HistoryEntry P)) :
    u.shifted entries ++ u.kept entries = entries := by
  unfold UndoStack.shifted UndoStack.kept
  split_ifs
  · exact List.take_append_drop 1 entries
  · exact List.nil_append entries

/-- **Step, apply.** The inverse computed before the patch takes it back. -/
lemma tracks_apply (h : Tracks start u evicted) (label : String) (patch : StorePatch P) :
    Tracks start (u.apply label patch).1
      (evicted ++ (StackCall.apply label patch).evicted u) := by
  cases he : u.entry label patch with
  | none => simpa [apply_of_entry_none he, StackCall.evicted, he] using h
  | some e =>
    obtain ⟨hf, hi⟩ := entry_eq_some he
    have hfwd : forward e (content u.store) = content (u.store.apply patch).1 := by
      rw [content_apply, forward, hf]
    have hback : inverse e (forward e (content u.store)) = content u.store := by
      rw [hfwd, inverse, hi, ← content_apply]
      exact apply_inversePatch h.indexed.keyed patch
    have hmade := sound_make h.sound hback
    have hkept : Sound forward inverse start
        ⟨evicted ++ u.shifted (u.pushed e), u.kept (u.pushed e), []⟩
        (content (u.store.apply patch).1) := by
      refine sound_shift ?_
      rw [shifted_append_kept, ← hfwd]
      exact hmade
    refine ⟨?_, ?_, ?_⟩
    · simp [UndoStack.apply, he]
    · simpa [UndoStack.apply, he] using indexed_apply h.indexed patch
    · simpa [UndoStack.apply, he, UndoStack.line, StackCall.evicted] using hkept

/-- With entries done, the last of them is the one `undo` takes back. -/
lemma undo_eq (h : u.cursor ≤ u.entries.length) (hu : u.canUndo = true) :
    ∃ e, u.undo = ({ u with store := (u.store.apply e.inverse).1, cursor := u.cursor - 1 }, some e) ∧
      u.entries.take u.cursor = u.entries.take (u.cursor - 1) ++ [e] ∧
      u.entries.drop (u.cursor - 1) = e :: u.entries.drop u.cursor := by
  have hpos : 0 < u.cursor := by simpa [UndoStack.canUndo] using hu
  have hlt : u.cursor - 1 < u.entries.length := by omega
  have hsucc : u.cursor - 1 + 1 = u.cursor := by omega
  refine ⟨u.entries[u.cursor - 1], ?_, ?_, ?_⟩
  · simp [UndoStack.undo, hu, List.getElem?_eq_getElem hlt]
  · calc u.entries.take u.cursor = u.entries.take (u.cursor - 1 + 1) := by rw [hsucc]
      _ = u.entries.take (u.cursor - 1) ++ [u.entries[u.cursor - 1]] :=
        (List.take_append_getElem hlt).symm
  · calc u.entries.drop (u.cursor - 1)
        = u.entries[u.cursor - 1] :: u.entries.drop (u.cursor - 1 + 1) :=
          List.drop_eq_getElem_cons hlt
      _ = u.entries[u.cursor - 1] :: u.entries.drop u.cursor := by rw [hsucc]

lemma redo_eq (hr : u.canRedo = true) :
    ∃ e, u.redo = ({ u with store := (u.store.apply e.forward).1, cursor := u.cursor + 1 }, some e) ∧
      u.entries.take (u.cursor + 1) = u.entries.take u.cursor ++ [e] ∧
      u.entries.drop u.cursor = e :: u.entries.drop (u.cursor + 1) := by
  have hlt : u.cursor < u.entries.length := by simpa [UndoStack.canRedo] using hr
  simp [UndoStack.redo, hr, List.getElem?_eq_getElem hlt]

/-- **Step, undo.** -/
lemma tracks_undo (h : Tracks start u evicted) : Tracks start u.undo.1 evicted := by
  cases hu : u.canUndo with
  | false => simpa [UndoStack.undo, hu] using h
  | true =>
    obtain ⟨e, heq, htake, hdrop⟩ := undo_eq h.cursor hu
    have hsound := h.sound
    rw [UndoStack.line, htake] at hsound
    have hback := sound_undo hsound
    rw [heq]
    refine ⟨Nat.le_trans (Nat.sub_le _ _) h.cursor, indexed_apply h.indexed _, ?_⟩
    rw [content_apply, UndoStack.line, hdrop]
    exact hback

/-- **Step, redo.** -/
lemma tracks_redo (h : Tracks start u evicted) : Tracks start u.redo.1 evicted := by
  cases hr : u.canRedo with
  | false => simpa [UndoStack.redo, hr] using h
  | true =>
    obtain ⟨e, heq, htake, hdrop⟩ := redo_eq hr
    have hsound := h.sound
    rw [UndoStack.line, hdrop] at hsound
    have hforth := sound_redo hsound
    have hlt : u.cursor < u.entries.length := by simpa [UndoStack.canRedo] using hr
    rw [heq]
    refine ⟨hlt, indexed_apply h.indexed _, ?_⟩
    rw [content_apply, UndoStack.line, htake]
    exact hforth

lemma tracks_step (h : Tracks start u evicted) (call : StackCall P) :
    Tracks start (call.step u) (evicted ++ call.evicted u) := by
  cases call with
  | apply label patch => exact tracks_apply h label patch
  | undo => simpa [StackCall.evicted, StackCall.step] using tracks_undo h
  | redo => simpa [StackCall.evicted, StackCall.step] using tracks_redo h

/-- **Run.** -/
lemma tracks_run (h : Tracks start u evicted) (calls : List (StackCall P)) :
    Tracks start (runCalls u calls).1 (evicted ++ (runCalls u calls).2) := by
  induction calls generalizing u evicted with
  | nil => simpa [runCalls] using h
  | cons call calls ih =>
    rw [runCalls, ← List.append_assoc]
    exact ih (tracks_step h call)

/-! ### Stores with the same items -/

/-- Two stores that answer alike: the same item under every id, and the same ids and keys in
each of the three indexes. -/
structure SameStore (s t : MemoryItemStore P) : Prop where
  get : ∀ id, s.get id = t.get id
  type : ∀ k id, Holds s.typeIdx k id ↔ Holds t.typeIdx k id
  layer : ∀ k id, Holds s.layerIdx k id ↔ Holds t.layerIdx k id
  net : ∀ k id, Holds s.netIdx k id ↔ Holds t.netIdx k id
  types : ∀ k, k ∈ s.types ↔ k ∈ t.types
  layers : ∀ k, k ∈ s.layers ↔ k ∈ t.layers
  nets : ∀ k, k ∈ s.nets ↔ k ∈ t.nets

lemma exact_same {m : Content P} {idx idx' : Index} {key : StoredItem P → Option String}
    (h : Exact m idx key) (h' : Exact m idx' key) :
    (∀ k id, Holds idx k id ↔ Holds idx' k id) ∧ ∀ k, k ∈ idx.keys ↔ k ∈ idx'.keys := by
  have hholds : ∀ k id, Holds idx k id ↔ Holds idx' k id := fun k id =>
    (h.holds k id).trans (h'.holds k id).symm
  refine ⟨hholds, fun k => ?_⟩
  rw [mem_keys_iff_holds h.noEmpty, mem_keys_iff_holds h'.noEmpty]
  exact exists_congr fun id => hholds k id

lemma sameStore_of_content {s t : MemoryItemStore P} (hs : Indexed s) (ht : Indexed t)
    (h : content s = content t) : SameStore s t := by
  obtain ⟨htype, htypes⟩ := exact_same (h ▸ hs.type) ht.type
  obtain ⟨hlayer, hlayers⟩ := exact_same (h ▸ hs.layer) ht.layer
  obtain ⟨hnet, hnets⟩ := exact_same (h ▸ hs.net) ht.net
  exact ⟨congrFun h, htype, hlayer, hnet, htypes, hlayers, hnets⟩

/-! ### The undo law -/

/-- A step that can be walked back: when it moves along the stack, the opposite one returns
the same entry and leaves the entries, the cursor and the store as they were. -/
def WalksBack (u : UndoStack P) (move back : UndoStack P → UndoStack P × Option (HistoryEntry P)) :
    Prop :=
  match move u with
  | (_, none) => True
  | (v, some e) => (back v).2 = some e ∧ (back v).1.entries = u.entries ∧
      (back v).1.cursor = u.cursor ∧ SameStore (back v).1.store u.store

lemma walksBack_undo (h : Tracks start u evicted) :
    WalksBack u UndoStack.undo UndoStack.redo := by
  cases hu : u.canUndo with
  | false => simp [WalksBack, UndoStack.undo, hu]
  | true =>
    obtain ⟨e, heq, htake, hdrop⟩ := undo_eq h.cursor hu
    have hpos : 0 < u.cursor := by simpa [UndoStack.canUndo] using hu
    have hsucc : u.cursor - 1 + 1 = u.cursor := by omega
    have hundone := tracks_undo h
    rw [heq] at hundone
    have hredo : (u.undo.1).canRedo = true := by
      have hle := h.cursor
      simp only [heq, UndoStack.canRedo, decide_eq_true_eq]
      omega
    obtain ⟨e', heq', -, hdrop'⟩ := redo_eq hredo
    simp only [heq, hdrop, List.cons.injEq] at hdrop' heq'
    obtain ⟨rfl, -⟩ := hdrop'
    have hback := tracks_redo hundone
    simp only [WalksBack, heq, heq', true_and]
    rw [heq'] at hback
    refine ⟨hsucc, sameStore_of_content hback.indexed h.indexed ?_⟩
    have hsound := h.sound
    rw [UndoStack.line, htake] at hsound
    rw [content_apply, content_apply]
    exact fwd_inv_of_sound hsound

lemma walksBack_redo (h : Tracks start u evicted) :
    WalksBack u UndoStack.redo UndoStack.undo := by
  cases hr : u.canRedo with
  | false => simp [WalksBack, UndoStack.redo, hr]
  | true =>
    obtain ⟨e, heq, htake, hdrop⟩ := redo_eq hr
    have hredone := tracks_redo h
    rw [heq] at hredone
    have hundo : (u.redo.1).canUndo = true := by
      simp only [heq, UndoStack.canUndo, decide_eq_true_eq]
      omega
    rw [heq] at hundo
    obtain ⟨e', heq', htake', -⟩ := undo_eq hredone.cursor hundo
    simp only [Nat.add_sub_cancel, htake, List.append_cancel_left_eq, List.cons.injEq]
      at htake' heq'
    obtain ⟨rfl, -⟩ := htake'
    have hback := tracks_undo hredone
    simp only [WalksBack, heq, heq', true_and]
    rw [heq'] at hback
    refine sameStore_of_content hback.indexed h.indexed ?_
    have hsound := h.sound
    rw [UndoStack.line, hdrop] at hsound
    rw [content_apply, content_apply]
    exact inv_fwd_of_sound hsound

lemma content_foldl_forward (es : List (HistoryEntry P)) (s : MemoryItemStore P) :
    content (es.foldl (fun t e => (t.apply e.forward).1) s) = play forward (content s) es := by
  induction es generalizing s with
  | nil => rfl
  | cons e es ih => rw [List.foldl_cons, ih, content_apply, play_cons, forward]

/-- **The undo law.** A patch and the inverse computed before it leave any store as it was.
After any calls on a stack its store holds what the patches evicted and then those of the
history lead to, and undo and redo take each other back. -/
theorem undo_law [DecidableEq P] (calls : List (Call P)) (patch : StorePatch P) (limit : ℕ)
    (stackCalls : List (StackCall P)) :
    let s := (run MemoryItemStore.new calls).1
    let r := runCalls (UndoStack.new s limit) stackCalls
    SameStore ((s.apply patch).1.apply (inversePatch s patch)).1 s ∧
    content r.1.store =
      content ((r.2 ++ r.1.history).foldl (fun t e => (t.apply e.forward).1) s) ∧
    WalksBack r.1 UndoStack.undo UndoStack.redo ∧ WalksBack r.1 UndoStack.redo UndoStack.undo := by
  intro s r
  have hs : Indexed s := indexed_run indexed_new calls
  have hr : Tracks (content s) r.1 r.2 := tracks_run (tracks_new hs limit) stackCalls
  refine ⟨?_, ?_, walksBack_undo hr, walksBack_redo hr⟩
  · exact sameStore_of_content (indexed_apply (indexed_apply hs _) _) hs
      (apply_inversePatch hs.keyed patch)
  · rw [content_foldl_forward]
    exact hr.sound.now

end FabPcb.PatchHistory
