import FabPcb.EditHistory
import FabPcb.StoreTransaction

/-!
`CommandServiceImpl` over `MockCommitBackend`: the two stacks when calls come one after the
other.

A `run()` makes an entry whose ops lead from one content of its store to the next and back, so
what is evicted, done and undone is a line of reversible edits of the contents of all stores.
-/

namespace FabPcb.CommandUndo

open OrderedMap Writes StoreContent AppItemStore
open StoreMutator StoreTransaction EditHistory

variable {P Q : Type*}

structure HistoryEntry (P : Type*) where
  id : ℕ
  message : String
  storeKey : String
  forward : List (ItemOp P)
  inverse : List (ItemOp P)

/-- The service, with the store that is open under each key; the top of a stack is its last
entry. -/
structure Service (P : Type*) where
  limit : ℕ
  undoStack : List (HistoryEntry P)
  redoStack : List (HistoryEntry P)
  /-- The keys of the stores seen. -/
  stores : OSet String
  replaying : Bool
  nextTxId : ℕ
  nextEntryId : ℕ
  world : String → Store P

/-- The body of a `run()`: its edits, and whether it throws in the end. -/
structure Body (P Q : Type*) where
  calls : List (TxCall P Q)
  throws : Bool

/-- `MockCommitBackend`: the ops go straight into the store and are canonical. -/
def mockCommitBackend : Backend P := fun s ops => (s.replayInto ops, some ops)

namespace Service

def new (limit : ℕ) (world : String → Store P) : Service P :=
  ⟨limit, [], [], OMap.empty, false, 1, 1, world⟩

def setStore (svc : Service P) (key : String) (s : Store P) : Service P :=
  { svc with world := Function.update svc.world key s }

/-- The undo stack with an entry pushed, before the limit is looked at. -/
def pushed (svc : Service P) (entry : HistoryEntry P) : List (HistoryEntry P) :=
  svc.undoStack ++ [entry]

/-- What `shift` takes off. -/
def shifted (svc : Service P) (entry : HistoryEntry P) : List (HistoryEntry P) :=
  if (svc.pushed entry).length > svc.limit then (svc.pushed entry).take 1 else []

def pushHistory (svc : Service P) (entry : HistoryEntry P) : Service P :=
  if svc.replaying then svc
  else
    let undoStack := svc.pushed entry
    { svc with
      undoStack := if undoStack.length > svc.limit then undoStack.drop 1 else undoStack
      redoStack := [] }

/-- The transaction of a `run()`: its body, then `drop()` or `commit()`. -/
def transact (msgs : Messages P Q) (svc : Service P) (key message : String) (fn : Body P Q) :
    Except TxError (Store P × Outcome P) :=
  let (s, tx) := edits msgs (svc.world key, Transaction.new svc.nextTxId message) fn.calls
  if fn.throws then (tx.drop s).map fun r => (r.1, .failed)
  else (tx.commit mockCommitBackend s).map fun r => (r.1, r.2.2)

/-- The entry a `run()` makes. -/
def entry (msgs : Messages P Q) (svc : Service P) (key message : String) (fn : Body P Q) :
    Option (HistoryEntry P) :=
  match svc.transact msgs key message fn with
  | .ok (_, .committed forward inverse) =>
    some ⟨svc.nextEntryId, message, key, forward, inverse⟩
  | _ => none

/-- `run`, and whether it resolves. -/
def run (msgs : Messages P Q) (svc : Service P) (key message : String) (fn : Body P Q) :
    Service P × Bool :=
  let svc' := { svc with stores := svc.stores.set key (), nextTxId := svc.nextTxId + 1 }
  match svc.transact msgs key message fn with
  | .error _ => (svc', false)
  | .ok (s, .committed forward inverse) =>
    let entry := ⟨svc.nextEntryId, message, key, forward, inverse⟩
    (({ svc' with nextEntryId := svc.nextEntryId + 1 }.setStore key s).pushHistory entry, true)
  | .ok (s, .closed) => (svc'.setStore key s, true)
  | .ok (s, .failed) => (svc'.setStore key s, false)

/-- `replay`; the flag is down again at its end. -/
def replay (svc : Service P) (entry : HistoryEntry P) (ops : List (ItemOp P)) :
    Except String (Service P) :=
  if svc.stores.has entry.storeKey then
    let s := (mockCommitBackend (svc.world entry.storeKey) ops).1
    .ok { svc.setStore entry.storeKey s with replaying := false }
  else .error s!"undo: store {entry.storeKey} is no longer open"

def undo (svc : Service P) : Service P × Except String (Option (HistoryEntry P)) :=
  match svc.undoStack.getLast? with
  | none => (svc, .ok none)
  | some entry =>
    let popped := { svc with undoStack := svc.undoStack.dropLast }
    match popped.replay entry entry.inverse with
    | .error e => (popped, .error e)
    | .ok svc => ({ svc with redoStack := svc.redoStack ++ [entry] }, .ok (some entry))

def redo (svc : Service P) : Service P × Except String (Option (HistoryEntry P)) :=
  match svc.redoStack.getLast? with
  | none => (svc, .ok none)
  | some entry =>
    let popped := { svc with redoStack := svc.redoStack.dropLast }
    match popped.replay entry entry.forward with
    | .error e => (popped, .error e)
    | .ok svc => ({ svc with undoStack := svc.undoStack ++ [entry] }, .ok (some entry))

end Service

/-! ### Calls -/

inductive Call (P Q : Type*) where
  | run (key message : String) (fn : Body P Q)
  | undo
  | redo

def Call.step (msgs : Messages P Q) (svc : Service P) : Call P Q → Service P
  | .run key message fn => (svc.run msgs key message fn).1
  | .undo => svc.undo.1
  | .redo => svc.redo.1

/-- The entries a call evicts. -/
def Call.evicted (msgs : Messages P Q) (svc : Service P) : Call P Q → List (HistoryEntry P)
  | .run key message fn => (svc.entry msgs key message fn).elim [] svc.shifted
  | .undo => []
  | .redo => []

/-- The service after some calls, and the entries evicted on the way, in order. -/
def runCalls (msgs : Messages P Q) (svc : Service P) :
    List (Call P Q) → Service P × List (HistoryEntry P)
  | [] => (svc, [])
  | call :: calls =>
    let r := runCalls msgs (call.step msgs svc) calls
    (r.1, call.evicted msgs svc ++ r.2)

/-! ### The contents along the stacks -/

/-- The content of the store of each key. -/
abbrev Contents (P : Type*) := String → Content (Payload P)

def contents (svc : Service P) : Contents P := fun key => (svc.world key).content

def replayed (key : String) (ops : List (ItemOp P)) (m : Contents P) : Contents P :=
  Function.update m key (writeAll (m key) (ops.map ItemOp.write))

def forward (e : HistoryEntry P) : Contents P → Contents P := replayed e.storeKey e.forward

def inverse (e : HistoryEntry P) : Contents P → Contents P := replayed e.storeKey e.inverse

/-- What an entry needs to be replayed: its store is known and its ops are on distinct items. -/
structure Replayable (svc : Service P) (e : HistoryEntry P) : Prop where
  known : svc.stores.has e.storeKey = true
  forward : (ids e.forward).Nodup
  inverse : (ids e.inverse).Nodup

/-- The invariant: the entries are a line of reversible edits of the contents. -/
structure Tracks (start : Contents P) (svc : Service P) (evicted : List (HistoryEntry P)) :
    Prop where
  idle : svc.replaying = false
  replayable : ∀ e ∈ svc.undoStack ++ svc.redoStack, Replayable svc e
  sound : Sound forward inverse start ⟨evicted, svc.undoStack, svc.redoStack.reverse⟩
    (contents svc)

variable {msgs : Messages P Q} {svc : Service P} {start : Contents P}
  {evicted : List (HistoryEntry P)} {e : HistoryEntry P}

lemma tracks_new (limit : ℕ) (world : String → Store P) :
    Tracks (contents (Service.new limit world)) (Service.new limit world) [] :=
  ⟨rfl, by simp [Service.new], sound_start _⟩

lemma contents_setStore (svc : Service P) (key : String) (s : Store P) :
    contents (svc.setStore key s) = Function.update (contents svc) key s.content := by
  funext k
  by_cases hk : k = key
  · subst hk
    simp [contents, Service.setStore]
  · simp [contents, Service.setStore, hk]

lemma contents_setStore_self {key : String} {s : Store P}
    (h : s.content = (svc.world key).content) : contents (svc.setStore key s) = contents svc := by
  rw [contents_setStore, h]
  exact Function.update_eq_self key (contents svc)

/-! ### A run -/

/-- How the transaction of a `run()` ends: with the content it began with, or with ops that lead
there and back. -/
inductive Settles (begun : Content (Payload P)) : Store P × Outcome P → Prop where
  | closed {s : Store P} (h : s.content = begun) : Settles begun (s, .closed)
  | failed {s : Store P} (h : s.content = begun) : Settles begun (s, .failed)
  | committed {s : Store P} {forward inverse : List (ItemOp P)} (hforward : (ids forward).Nodup)
      (hinverse : (ids inverse).Nodup)
      (hthere : writeAll begun (forward.map ItemOp.write) = s.content)
      (hback : writeAll s.content (inverse.map ItemOp.write) = begun) :
      Settles begun (s, .committed forward inverse)

lemma settles_commit {begun : Content (Payload P)} {s : Store P} {tx : Transaction P}
    (h : Records begun tx s.content) (hopen : tx.opened = true) :
    ∃ r, (tx.commit mockCommitBackend s).map (fun r => (r.1, r.2.2)) = .ok r ∧
      Settles begun r := by
  simp only [Transaction.commit, Transaction.assertOpen, hopen, if_true]
  split_ifs with hempty
  · have hnil : tx.buildOps.1 = [] := List.isEmpty_iff.mp hempty
    refine ⟨_, rfl, .closed ?_⟩
    funext id
    exact h.eq_of_notMem (by simp [hnil, ids])
  · have hsame : (s.replayInto tx.buildOps.1).content = s.content :=
      (content_replayInto h.nodup_forward s.impl).trans
        (h.writeAll_forward fun id hid => h.eq_of_notMem hid)
    refine ⟨_, rfl, .committed h.nodup_forward h.nodup_inverse ?_ ?_⟩
    · rw [hsame]
      exact h.writeAll_forward fun _ _ => rfl
    · rw [hsame]
      exact h.writeAll_inverse fun _ _ => rfl

lemma settles_transact (msgs : Messages P Q) (svc : Service P) (key message : String)
    (fn : Body P Q) :
    ∃ r, svc.transact msgs key message fn = .ok r ∧ Settles (svc.world key).content r := by
  have hrec := records_edits msgs fn.calls
    (r := (svc.world key, Transaction.new svc.nextTxId message))
    (records_new (svc.world key).keyed _ _)
  have hopen := opened_edits (r := (svc.world key, Transaction.new svc.nextTxId message)) msgs
    fn.calls
  unfold Service.transact
  generalize edits msgs (svc.world key, Transaction.new svc.nextTxId message) fn.calls = r
    at hrec hopen
  obtain ⟨s, tx⟩ := r
  dsimp only at hrec hopen ⊢
  split_ifs
  · have hdrop := content_drop hrec hopen
    cases h : tx.drop s with
    | error e =>
      rw [h] at hdrop
      cases hdrop
    | ok r =>
      rw [h] at hdrop
      exact ⟨_, rfl, .failed (Except.ok.inj hdrop)⟩
  · exact settles_commit hrec hopen

lemma shifted_append (svc : Service P) (e : HistoryEntry P) (h : svc.replaying = false) :
    svc.shifted e ++ (svc.pushHistory e).undoStack = svc.undoStack ++ [e] := by
  simp only [Service.shifted, Service.pushHistory, h, Bool.false_eq_true, if_false]
  split_ifs
  · exact List.take_append_drop 1 (svc.pushed e)
  · exact List.nil_append (svc.pushed e)

lemma contents_pushHistory (svc : Service P) (e : HistoryEntry P) :
    contents (svc.pushHistory e) = contents svc := by
  unfold Service.pushHistory
  split_ifs <;> rfl

lemma redoStack_pushHistory {svc : Service P} (h : svc.replaying = false)
    (e : HistoryEntry P) : (svc.pushHistory e).redoStack = [] := by
  simp [Service.pushHistory, h]

/-- **Step, an entry.** Where an entry is recorded its ops have just been made. -/
lemma tracks_pushHistory (h : Tracks start svc evicted) {svc' : Service P}
    (hidle : svc'.replaying = false) (hundo : svc'.undoStack = svc.undoStack)
    (hstores : ∀ key, svc.stores.has key = true → svc'.stores.has key = true)
    (he : Replayable svc' e) (hcontents : contents svc' = forward e (contents svc))
    (hback : inverse e (forward e (contents svc)) = contents svc) :
    Tracks start (svc'.pushHistory e) (evicted ++ svc'.shifted e) where
  idle := by simp [Service.pushHistory, hidle]
  replayable := by
    intro e' he'
    have hmem : e' ∈ svc.undoStack ++ [e] := by
      rw [← hundo, ← shifted_append svc' e hidle]
      rw [redoStack_pushHistory hidle, List.append_nil] at he'
      exact List.mem_append_right _ he'
    have hstores' : (svc'.pushHistory e).stores = svc'.stores := by
      simp [Service.pushHistory, hidle]
    rcases List.mem_append.mp hmem with hold | hnew
    · obtain ⟨hknown, hf, hi⟩ := h.replayable e' (List.mem_append_left _ hold)
      exact ⟨hstores' ▸ hstores _ hknown, hf, hi⟩
    · rw [List.mem_singleton.mp hnew]
      exact ⟨hstores' ▸ he.known, he.forward, he.inverse⟩
  sound := by
    have hmade := sound_make h.sound hback
    rw [← hundo, ← shifted_append svc' e hidle, ← hcontents] at hmade
    rw [redoStack_pushHistory hidle, contents_pushHistory]
    exact sound_shift hmade

lemma Tracks.of_same (h : Tracks start svc evicted) {svc' : Service P}
    (hidle : svc'.replaying = false) (hundo : svc'.undoStack = svc.undoStack)
    (hredo : svc'.redoStack = svc.redoStack)
    (hstores : ∀ key, svc.stores.has key = true → svc'.stores.has key = true)
    (hcontents : contents svc' = contents svc) : Tracks start svc' evicted where
  idle := hidle
  replayable := by
    rw [hundo, hredo]
    intro e he
    obtain ⟨hknown, hf, hi⟩ := h.replayable e he
    exact ⟨hstores _ hknown, hf, hi⟩
  sound := by
    rw [hundo, hredo, hcontents]
    exact h.sound

lemma has_set_of_has {stores : OSet String} (key : String) :
    ∀ k, stores.has k = true → (stores.set key ()).has k = true := by
  intro k hk
  simp [hk]

/-- **Step, run.** -/
lemma tracks_run (h : Tracks start svc evicted) (msgs : Messages P Q) (key message : String)
    (fn : Body P Q) :
    Tracks start (svc.run msgs key message fn).1
      (evicted ++ (Call.run key message fn).evicted msgs svc) := by
  obtain ⟨r, hr, hsettles⟩ := settles_transact msgs svc key message fn
  simp only [Service.run, Call.evicted, Service.entry, hr]
  cases hsettles with
  | closed hsame =>
    rw [Option.elim_none, List.append_nil]
    exact h.of_same h.idle rfl rfl (has_set_of_has key) (contents_setStore_self hsame)
  | failed hsame =>
    rw [Option.elim_none, List.append_nil]
    exact h.of_same h.idle rfl rfl (has_set_of_has key) (contents_setStore_self hsame)
  | @committed s fwd inv hfwd hinv hthere hback =>
    have hcontents : contents (svc.setStore key s) =
        replayed key fwd (contents svc) := by
      rw [contents_setStore, ← hthere]
      rfl
    refine tracks_pushHistory h h.idle rfl (has_set_of_has key) ⟨?_, hfwd, hinv⟩
      hcontents ?_
    · simp [Service.setStore]
    · funext k
      by_cases hk : k = key
      · subst hk
        simp only [inverse, forward, replayed, Function.update_self]
        rw [← hthere] at hback
        exact hback
      · simp [inverse, forward, replayed, hk]

/-! ### Undo and redo -/

lemma contents_replay {svc' : Service P} {ops : List (ItemOp P)} (hnd : (ids ops).Nodup)
    (h : svc.replay e ops = .ok svc') :
    contents svc' = replayed e.storeKey ops (contents svc) := by
  unfold Service.replay at h
  split_ifs at h
  obtain rfl := Except.ok.inj h
  refine (contents_setStore svc e.storeKey _).trans ?_
  congr 1
  exact content_replayInto hnd _

lemma replay_eq (svc : Service P) (hidle : svc.replaying = false)
    (he : svc.stores.has e.storeKey = true)
    (ops : List (ItemOp P)) :
    ∃ world, svc.replay e ops = .ok { svc with world } := by
  simp [Service.replay, he, Service.setStore, hidle]

lemma undo_snoc (h : Tracks start svc evicted) {es : List (HistoryEntry P)}
    (hstack : svc.undoStack = es ++ [e]) :
    ∃ world, svc.undo =
        ({ svc with undoStack := es, redoStack := svc.redoStack ++ [e], world }, .ok (some e)) ∧
      (fun key => (world key).content) = inverse e (contents svc) := by
  have he := h.replayable e (by simp [hstack])
  obtain ⟨world, hreplay⟩ := replay_eq { svc with undoStack := es } h.idle he.known e.inverse
  refine ⟨world, ?_, contents_replay he.inverse hreplay⟩
  simp [Service.undo, hstack, hreplay]

lemma redo_snoc (h : Tracks start svc evicted) {es : List (HistoryEntry P)}
    (hstack : svc.redoStack = es ++ [e]) :
    ∃ world, svc.redo =
        ({ svc with redoStack := es, undoStack := svc.undoStack ++ [e], world }, .ok (some e)) ∧
      (fun key => (world key).content) = forward e (contents svc) := by
  have he := h.replayable e (by simp [hstack])
  obtain ⟨world, hreplay⟩ := replay_eq { svc with redoStack := es } h.idle he.known e.forward
  refine ⟨world, ?_, contents_replay he.forward hreplay⟩
  simp [Service.redo, hstack, hreplay]

lemma stack_cases (es : List (HistoryEntry P)) : es = [] ∨ ∃ es' e, es = es' ++ [e] := by
  rcases List.eq_nil_or_concat es with h | ⟨es', e, h⟩
  · exact Or.inl h
  · exact Or.inr ⟨es', e, by rw [h, List.concat_eq_append]⟩

/-- **Step, undo.** -/
lemma tracks_undo (h : Tracks start svc evicted) : Tracks start svc.undo.1 evicted := by
  rcases stack_cases svc.undoStack with hnil | ⟨es, e, hstack⟩
  · simpa [Service.undo, hnil] using h
  · obtain ⟨world, hundo, hworld⟩ := undo_snoc h hstack
    have hsound := h.sound
    rw [hstack] at hsound
    rw [hundo]
    refine ⟨h.idle, ?_, ?_⟩
    · intro e' he'
      obtain ⟨hknown, hf, hi⟩ := h.replayable e' (by
        rw [hstack]
        simp only [List.mem_append, List.mem_singleton] at he' ⊢
        tauto)
      exact ⟨hknown, hf, hi⟩
    · have hback := sound_undo hsound
      have hrev : e :: svc.redoStack.reverse = (svc.redoStack ++ [e]).reverse := by simp
      rw [← hworld, hrev] at hback
      exact hback

/-- **Step, redo.** -/
lemma tracks_redo (h : Tracks start svc evicted) : Tracks start svc.redo.1 evicted := by
  rcases stack_cases svc.redoStack with hnil | ⟨es, e, hstack⟩
  · simpa [Service.redo, hnil] using h
  · obtain ⟨world, hredo, hworld⟩ := redo_snoc h hstack
    have hsound := h.sound
    rw [hstack, List.reverse_append] at hsound
    rw [hredo]
    refine ⟨h.idle, ?_, ?_⟩
    · intro e' he'
      obtain ⟨hknown, hf, hi⟩ := h.replayable e' (by
        rw [hstack]
        simp only [List.mem_append, List.mem_singleton] at he' ⊢
        tauto)
      exact ⟨hknown, hf, hi⟩
    · have hforth := sound_redo hsound
      rw [← hworld] at hforth
      exact hforth

lemma tracks_step (h : Tracks start svc evicted) (msgs : Messages P Q) (call : Call P Q) :
    Tracks start (call.step msgs svc) (evicted ++ call.evicted msgs svc) := by
  cases call with
  | run key message fn => exact tracks_run h msgs key message fn
  | undo => simpa [Call.evicted, Call.step] using tracks_undo h
  | redo => simpa [Call.evicted, Call.step] using tracks_redo h

/-- **Run.** -/
lemma tracks_runCalls (h : Tracks start svc evicted) (msgs : Messages P Q)
    (calls : List (Call P Q)) :
    Tracks start (runCalls msgs svc calls).1 (evicted ++ (runCalls msgs svc calls).2) := by
  induction calls generalizing svc evicted with
  | nil => simpa [runCalls] using h
  | cons call calls ih =>
    rw [runCalls, ← List.append_assoc]
    exact ih (tracks_step h msgs call)

/-! ### The undo law -/

/-- A step that can be walked back: when it moves along the stacks, the opposite one returns the
same entry and leaves the stacks and the contents as they were. It never throws, and with
nothing to move to it changes nothing. -/
def WalksBack (svc : Service P)
    (move back : Service P → Service P × Except String (Option (HistoryEntry P))) : Prop :=
  match move svc with
  | (svc', .ok (some e)) => (back svc').2 = .ok (some e) ∧
      (back svc').1.undoStack = svc.undoStack ∧ (back svc').1.redoStack = svc.redoStack ∧
      contents (back svc').1 = contents svc
  | (svc', .ok none) => svc' = svc
  | (_, .error _) => False

lemma walksBack_undo (h : Tracks start svc evicted) : WalksBack svc Service.undo Service.redo := by
  rcases stack_cases svc.undoStack with hnil | ⟨es, e, hstack⟩
  · simp [WalksBack, Service.undo, hnil]
  · obtain ⟨world, hundo, hworld⟩ := undo_snoc h hstack
    have hundone := tracks_undo h
    rw [hundo] at hundone
    obtain ⟨world', hredo, hworld'⟩ := redo_snoc hundone (rfl : _ = svc.redoStack ++ [e])
    have hsound := h.sound
    rw [hstack] at hsound
    simp only [WalksBack, hundo, hredo, true_and]
    refine ⟨hstack.symm, ?_⟩
    calc (fun key => (world' key).content) = forward e (inverse e (contents svc)) := by
          rw [hworld', ← hworld]
          rfl
      _ = contents svc := fwd_inv_of_sound hsound

lemma walksBack_redo (h : Tracks start svc evicted) : WalksBack svc Service.redo Service.undo := by
  rcases stack_cases svc.redoStack with hnil | ⟨es, e, hstack⟩
  · simp [WalksBack, Service.redo, hnil]
  · obtain ⟨world, hredo, hworld⟩ := redo_snoc h hstack
    have hredone := tracks_redo h
    rw [hredo] at hredone
    obtain ⟨world', hundo, hworld'⟩ := undo_snoc hredone (rfl : _ = svc.undoStack ++ [e])
    have hsound := h.sound
    rw [hstack, List.reverse_append] at hsound
    simp only [WalksBack, hredo, hundo, true_and]
    refine ⟨hstack.symm, ?_⟩
    calc (fun key => (world' key).content) = inverse e (forward e (contents svc)) := by
          rw [hworld', ← hworld]
          rfl
      _ = contents svc := inv_fwd_of_sound hsound

/-- **Rollback and the undo law.** After any edits of one transaction, `drop()` restores the
content it began with, and so does a `commit()` that fails on a backend which writes to no item
but those of its ops. After any calls on a service every store holds what the forward ops of
the entries evicted and then of those on the undo stack lead to, and undo and redo take each
other back. -/
theorem rollback_undo_law (msgs : Messages P Q) (s : Store P) (id : ℕ) (message : String)
    (calls : List (TxCall P Q)) (limit : ℕ) (world : String → Store P)
    (serviceCalls : List (Call P Q)) :
    let r := edits msgs (s, Transaction.new id message) calls
    let q := runCalls msgs (Service.new limit world) serviceCalls
    (r.2.drop r.1).map (fun t => t.1.content) = .ok s.content ∧
    (∀ backend : Backend P, Rejects backend r.1 r.2.buildOps.1 →
      (r.2.commit backend r.1).map (fun t => t.1.content) = .ok s.content) ∧
    contents q.1 = (q.2 ++ q.1.undoStack).foldl (fun m e => forward e m)
      (contents (Service.new limit world)) ∧
    WalksBack q.1 Service.undo Service.redo ∧ WalksBack q.1 Service.redo Service.undo := by
  intro r q
  have hrec : Records s.content r.2 r.1.content :=
    records_edits msgs calls (records_new s.keyed id message)
  have hopen : r.2.opened = true := opened_edits msgs calls
  have hq : Tracks (contents (Service.new limit world)) q.1 q.2 :=
    tracks_runCalls (tracks_new limit world) msgs serviceCalls
  refine ⟨content_drop hrec hopen, ?_, hq.sound.now, walksBack_undo hq, walksBack_redo hq⟩
  exact fun backend hrej => content_commit_of_rejects hrec hopen hrej

/-- Messages that are numbers, with patches that are added. -/
def numbers : Messages ℕ ℕ where
  applyPatches p patches := patches.foldl (· + ·) p
  nullish _ := false
  layer _ := .other
  netName _ := none
  position _ := none
  start _ := none
  stop _ := none
  width _ := none
  boardLayer _ := none

/-- An empty store of the client. -/
def emptyStore : Store ℕ := ⟨.client ItemStore.MemoryItemStore.new, keyed_new⟩

/-- A track made and moved, on a backend that is down. -/
theorem rollback_undo_law_rejected :
    let item : StoredItem ℕ := ⟨"t", "KOT_PCB_TRACE", none, none, none, ⟨1, none⟩⟩
    let r := edits numbers (emptyStore, Transaction.new 1 "Route")
      [.create item, .update "t" [2]]
    (r.2.commit (fun s _ => (s, none)) r.1).map (fun t => t.1.content) = .ok emptyStore.content :=
  (rollback_undo_law numbers emptyStore 1 "Route" [.create _, .update "t" [2]] 200
    (fun _ => emptyStore) []).2.1 _ ⟨rfl, fun _ _ => rfl⟩

end FabPcb.CommandUndo
