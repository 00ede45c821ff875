import Mathlib.Data.List.Flatten
import FabPcb.CallRows

/-!
Results of a call against its inputs.

A call is listed input by input, and its results are joined op by op. What matters is which
row of which request each element of the joined array comes from, so the rows are tracked
as the answers of a server that answers every row with its own place. The two orders agree
when inputs of one container are listed together.
-/

namespace FabPcb.Alignment

open Items ItemStore Document CommitOps Grouping Runs
open Flush CallRows

variable {P : Type*}

/-- The inputs of a call, each under its own scope. -/
def inputs (codec : Codec P) (base : ItemScope) : ItemCall P → List (Row P)
  | .create items uuids scope => (assignIds codec uuids items).map fun w =>
      ⟨target (scopeFor base (some w) scope), w.id, some w.proto⟩
  | .update items scope => items.map fun w =>
      ⟨target (scopeFor base (some w) scope), w.id, some w.proto⟩
  | .delete items scope => items.map fun x =>
      ⟨target (scopeFor base x.wrapper scope), x.id, none⟩

/-- The call whose `m` ops follow the first `p` is aligned with its inputs: each has one row
of its own, in a request under its scope, no other row is sent for the call, and element
`i` of what the call resolves to is the result of the row of input `i`. -/
def Aligned (inputs : List (Row P)) (sent : List (List (Op P))) (p m : ℕ) : Prop :=
  rows ((sent.flatten.drop p).take m) = inputs.length ∧
  ∃ place : ℕ → ℕ × ℕ,
    (∀ i < inputs.length, ∀ i' < inputs.length, place i = place i' → i = i') ∧
    (∀ i row, inputs[i]? = some row → rowAt sent (place i) = some row) ∧
    ∀ (R : Type) (answers : ℕ → List R),
      (∀ j b, sent[j]? = some b → (answers j).length = rows b) →
      (resolved sent answers p m).length = inputs.length ∧
      ∀ i < inputs.length,
        (resolved sent answers p m)[i]? = (answers (place i).1)[(place i).2]?

/-! ### Rows as their own answers -/

/-- Every row answered with its place. -/
def tokens (sent : List (List (Op P))) (j : ℕ) : List (ℕ × ℕ) :=
  (List.range (rows (sent[j]?.getD []))).map fun r => (j, r)

lemma tokens_of_get {sent : List (List (Op P))} {j : ℕ} {b : List (Op P)} (h : sent[j]? = some b) :
    tokens sent j = (List.range (rows b)).map fun r => (j, r) := by
  simp [tokens, h]

lemma tokens_get {sent : List (List (Op P))} {r : ℕ × ℕ} {row : Row P}
    (h : rowAt sent r = some row) : (tokens sent r.1)[r.2]? = some r := by
  obtain ⟨b, hb, h⟩ := Option.bind_eq_some_iff.mp h
  obtain ⟨first, -, h⟩ := Option.bind_eq_some_iff.mp h
  obtain ⟨id, hid, -⟩ := Option.map_eq_some_iff.mp h
  have hlt : r.2 < rows b := (List.getElem?_eq_some_iff.mp hid).1
  simp [tokens_of_get hb, hlt]

lemma tokens_slice {sent : List (List (Op P))} {j : ℕ} {b₁ b₂ : List (Op P)} {op : Op P}
    (hj : sent[j]? = some (b₁ ++ op :: b₂)) :
    ((tokens sent j).drop (rows b₁)).take op.ids.length =
      (List.range op.ids.length).map fun o => (j, rows b₁ + o) := by
  have hrows : rows (b₁ ++ op :: b₂) = rows b₁ + (op.ids.length + rows b₂) := by
    simp [rows]
  refine List.ext_getElem? fun i => ?_
  rw [tokens_of_get hj, hrows]
  by_cases hi : i < op.ids.length
  · have hlt : rows b₁ + i < rows b₁ + (op.ids.length + rows b₂) := by omega
    simp [hi]
  · simp [hi]

lemma nodup_partsFrom_tokens {sent : List (List (Op P))} (bs : List (List (Op P))) (j : ℕ)
    (h : ∀ i b, bs[i]? = some b → sent[j + i]? = some b) :
    (partsFrom (tokens sent) j bs).flatten.Nodup ∧
      ∀ r ∈ (partsFrom (tokens sent) j bs).flatten, j ≤ r.1 := by
  induction bs generalizing j with
  | nil => exact ⟨List.nodup_nil, fun r hr => by cases hr⟩
  | cons b bs ih =>
    have hb : sent[j]? = some b := h 0 b rfl
    obtain ⟨hnd, hle⟩ := ih (j + 1) fun i b' hb' => by
      have := h (i + 1) b' (by simpa using hb')
      rwa [Nat.add_comm i 1, ← Nat.add_assoc] at this
    have hflat : (splitResults b (tokens sent j)).flatten = tokens sent j := by
      rw [splitResults, slices_flatten, List.drop_zero, ← rows_eq_sum, List.take_of_length_le]
      simp [tokens_of_get hb]
    rw [partsFrom, List.flatten_append, hflat]
    refine ⟨List.nodup_append'.mpr ⟨?_, hnd, ?_⟩, ?_⟩
    · exact List.nodup_range.map fun a a' he => (Prod.mk.inj he).2
    · intro r hr hr'
      obtain ⟨a, -, rfl⟩ := List.mem_map.mp hr
      have := hle _ hr'
      omega
    · intro r hr
      rcases List.mem_append.mp hr with hr | hr
      · obtain ⟨a, -, rfl⟩ := List.mem_map.mp hr
        exact Nat.le_refl j
      · have := hle r hr
        omega

lemma nodup_resolved_tokens (sent : List (List (Op P))) (p m : ℕ) :
    (resolved sent (tokens sent) p m).Nodup := by
  rw [resolved, joinParts_eq_flatten]
  have hnd := (nodup_partsFrom_tokens sent 0 fun i b hb => by rwa [Nat.zero_add]).1
  exact hnd.sublist (List.Sublist.flatten ((List.take_sublist _ _).trans (List.drop_sublist _ _)))

lemma resolved_eq_lookup {R : Type*} {sent : List (List (Op P))} {answers : ℕ → List R}
    (h : ∀ j b, sent[j]? = some b → (answers j).length = rows b) (p m : ℕ) :
    (resolved sent answers p m).map some =
      (resolved sent (tokens sent) p m).map fun r => (answers r.1)[r.2]? := by
  rw [← resolved_map, ← resolved_map]
  unfold resolved
  congr 3
  refine partsFrom_congr fun j hj => ?_
  rw [Nat.zero_add]
  have hb : sent[j]? = some sent[j] := List.getElem?_eq_getElem hj
  refine List.ext_getElem? fun i => ?_
  rw [tokens_of_get hb]
  by_cases hi : i < rows sent[j]
  · have hlt : i < (answers j).length := by rw [h j _ hb]; exact hi
    simp [hi, hlt]
  · have hge : (answers j).length ≤ i := by rw [h j _ hb]; omega
    simp [hi, hge]

/-! ### The rows of a call -/

variable {codec : Codec P} {base : ItemScope}

/-- What the flush keeps: queued ops are as `enqueue` builds them, batches have one key. -/
structure SoundFlusher (s : Flusher P) : Prop where
  queue : ∀ op ∈ s.queue, Sound op
  sent : ∀ b ∈ s.sent, SoundBatch b

/-- Where the batch is aimed that an op joins when it is queued behind `queue`. -/
def headTarget (queue : List (Op P)) (op : Op P) : Target :=
  target ((queue.rtakeWhile fun x => decide (x.key = op.key)).headD op).scope

/-- The ops of a call with the targets of the batches they go with: only the first can join
a batch that others opened. -/
def aimed (queue ops : List (Op P)) : List (Op P × Target) :=
  ops.zipIdx.map fun e => (e.1, if e.2 = 0 then headTarget queue e.1 else target e.1.scope)

lemma target_located {Q ops : List (Op P)} (hkeys : (ops.map (·.key)).Nodup) {k : ℕ}
    (hk : k < ops.length) :
    target (((Q ++ ops.take k).rtakeWhile fun x => decide (x.key = ops[k].key)).headD
      ops[k]).scope = if k = 0 then headTarget Q ops[k] else target ops[k].scope := by
  rcases k with _ | k
  · simp [headTarget]
  · have hprev : k < ops.length := by omega
    have hne : ¬ (decide (ops[k].key = ops[k + 1].key) = true) := by
      intro he
      have hinj := List.nodup_iff_injective_getElem.mp hkeys
      have := @hinj ⟨k, by simpa using hprev⟩ ⟨k + 1, by simpa using hk⟩ (by simpa using he)
      simp at this
    rw [List.take_add_one, List.getElem?_eq_getElem hprev, Option.toList_some,
      ← List.append_assoc, List.rtakeWhile_concat, if_neg hne]
    simp

lemma map_rowAt_slice {sent : List (List (Op P))} {j : ℕ} {b₁ b₂ : List (Op P)} {op : Op P}
    (hj : sent[j]? = some (b₁ ++ op :: b₂)) (hb : SoundBatch (b₁ ++ op :: b₂)) :
    ((List.range op.ids.length).map fun o => (j, rows b₁ + o)).map (rowAt sent) =
      (opRows (target (b₁.headD op).scope) op).map some := by
  refine List.ext_getElem? fun o => ?_
  rw [List.getElem?_map, List.getElem?_map, List.getElem?_map]
  by_cases ho : o < op.ids.length
  · rw [List.getElem?_range ho, Option.map_some, Option.map_some, rowAt_located hj hb ho,
      List.getElem?_eq_getElem (by simpa using ho)]
    rfl
  · have hr : (List.range op.ids.length)[o]? = none := by simpa using ho
    have hr' : (opRows (target (b₁.headD op).scope) op)[o]? = none := by simpa using ho
    rw [hr, hr']
    rfl

/-- **The rows of a call**: what it resolves to, row by row, is what its ops send. -/
theorem rowAt_resolved {Q ops : List (Op P)} {S : List (List (Op P))}
    {events : List (FlushEvent P)} {s' : Flusher P}
    (h : run (Flusher.step codec base) ⟨Q ++ ops, S⟩ events = some s') (hs' : SoundFlusher s')
    (hkeys : (ops.map (·.key)).Nodup)
    (hsent : S.flatten.length + Q.length + ops.length ≤ s'.sent.flatten.length) :
    (resolved s'.sent (tokens s'.sent) (S.flatten.length + Q.length) ops.length).map
        (rowAt s'.sent) = ((aimed Q ops).flatMap fun x => opRows x.2 x.1).map some := by
  have hparts : (((partsFrom (tokens s'.sent) 0 s'.sent).drop (S.flatten.length + Q.length)).take
      ops.length).map (List.map (rowAt s'.sent)) =
      (aimed Q ops).map fun x => (opRows x.2 x.1).map some := by
    refine List.ext_getElem? fun k => ?_
    rw [List.getElem?_map, List.getElem?_map, List.getElem?_take, aimed, List.getElem?_map,
      List.getElem?_zipIdx]
    split_ifs with hk
    · -- the `k`-th op, located in its batch
      have hop : ops[k]? = some ops[k] := List.getElem?_eq_getElem hk
      have hsplit : Q ++ ops = (Q ++ ops.take k) ++ ops[k] :: ops.drop (k + 1) := by
        rw [List.append_assoc, ← List.drop_eq_getElem_cons hk, List.take_append_drop]
      have hlen : (Q ++ ops.take k).length = Q.length + k := by simp; omega
      rw [hsplit] at h
      obtain ⟨j, b₂, hj, hidx⟩ := located h (by omega)
      have hget := partsFrom_get (tokens s'.sent) hj 0
      rw [hidx, hlen, Nat.zero_add, tokens_slice hj] at hget
      rw [List.getElem?_drop, Nat.add_assoc, hget, hop]
      simp only [Option.map_some, Nat.zero_add, Option.some.injEq]
      rw [map_rowAt_slice hj (hs'.sent _ (List.mem_of_getElem? hj)), target_located hkeys hk]
    · have hnone : ops[k]? = none := by simpa using hk
      simp [hnone]
  rw [resolved, joinParts_eq_flatten, List.map_flatten, hparts, List.map_flatMap]
  rfl

/-! ### The calls of a run -/

def callKind : ItemCall P → OpKind
  | .create .. => .create
  | .update .. => .update
  | .delete .. => .delete

def callScope : ItemCall P → Option ItemScope
  | .create _ _ scope => scope
  | .update _ scope => scope
  | .delete _ scope => scope

/-- The entries a call makes, before they are grouped. -/
def callEntries (codec : Codec P) (base : ItemScope) : ItemCall P → List (Op P)
  | .create items uuids scope => entries .create base (assignIds codec uuids items) scope none
  | .update items scope => entries .update base items scope none
  | .delete items scope => entries .delete base (items.filterMap DeleteInput.wrapper) scope
      (some (items.map DeleteInput.id))

/-- Every listed thing is a wrapper, or every one an id. -/
def Homogeneous : ItemCall P → Prop
  | .create .. => True
  | .update .. => True
  | .delete items _ => (∀ x ∈ items, x.wrapper.isSome) ∨ ∀ x ∈ items, x.wrapper = none

lemma ops_eq (codec : Codec P) (base : ItemScope) (c : ItemCall P) :
    c.ops codec base = (groupsOf Op.key (callEntries codec base c)).map gather := by
  rw [← foldl_pushInto]
  cases c <;> rfl

/-- The sheet all the entries of a call are on. -/
def callSheet (base : ItemScope) (c : ItemCall P) : Option (Option SheetPath) :=
  (base.spread ((callScope c).getD {})).sheetPath

lemma entry_callEntries {c : ItemCall P} {e : Op P} (he : e ∈ callEntries codec base c) :
    Entry (callKind c) (callSheet base c) e := by
  cases c with
  | create items uuids scope => exact entry_entries (fun _ => rfl) he
  | update items scope => exact entry_entries (fun _ => rfl) he
  | delete items scope => exact entry_entries (fun h => absurd rfl h) he

lemma entry_of_group {c : ItemCall P} {g : KeyGroup (Op P)}
    (hg : g ∈ groupsOf Op.key (callEntries codec base c)) :
    ∀ e ∈ g.toList, Entry (callKind c) (callSheet base c) e := fun _ he =>
  entry_callEntries ((groupsOf_perm _).subset (List.mem_flatMap.mpr ⟨g, hg, he⟩))

lemma sound_ops {c : ItemCall P} {op : Op P} (h : op ∈ c.ops codec base) : Sound op := by
  rw [ops_eq] at h
  obtain ⟨g, hg, rfl⟩ := List.mem_map.mp h
  exact sound_gather (entry_of_group hg)

lemma keys_ops_nodup (codec : Codec P) (base : ItemScope) (c : ItemCall P) :
    ((c.ops codec base).map (·.key)).Nodup := by
  rw [ops_eq]
  have hnd := (grouped_groupsOf (callEntries codec base c) : Grouped Op.key _).nodup
  simpa [Function.comp_def] using hnd

lemma soundFlusher_step {s s' : Flusher P} {e : FlushEvent P} (h : SoundFlusher s)
    (hstep : s.step codec base e = some s') : SoundFlusher s' := by
  cases e with
  | call c =>
    cases hstep
    refine ⟨fun op hop => ?_, h.sent⟩
    rcases List.mem_append.mp hop with hop | hop
    · exact h.queue op hop
    · exact sound_ops hop
  | turn =>
    obtain ⟨b, hb, rfl⟩ := Option.map_eq_some_iff.mp hstep
    rcases hq : s.queue with _ | ⟨first, queue⟩
    · rw [hq] at hb
      cases hb
    · rw [hq, takeBatch, Option.some.injEq] at hb
      subst hb
      have hsound : ∀ op ∈ first :: queue, Sound op := hq ▸ h.queue
      refine ⟨fun op hop => ?_, fun b hb => ?_⟩
      · exact hsound op (List.mem_cons_of_mem _ ((List.dropWhile_sublist _).subset hop))
      · rcases List.mem_append.mp hb with hb | hb
        · exact h.sent b hb
        · rw [List.mem_singleton.mp hb]
          have hkey : ∀ x ∈ first :: queue.takeWhile (fun x => decide (x.key = first.key)),
              x.key = first.key := by
            intro x hx
            rcases List.mem_cons.mp hx with rfl | hx
            · rfl
            · simpa using List.mem_takeWhile_imp hx
          refine fun x hx => ⟨hsound x ?_, fun y hy => (hkey x hx).trans (hkey y hy).symm⟩
          rcases List.mem_cons.mp hx with rfl | hx
          · simp
          · exact List.mem_cons_of_mem _ ((List.takeWhile_sublist _).subset hx)

lemma soundFlusher_run {s s' : Flusher P} {events : List (FlushEvent P)} (h : SoundFlusher s)
    (hrun : run (Flusher.step codec base) s events = some s') : SoundFlusher s' :=
  invariant_run SoundFlusher (fun _ _ _ h hs => soundFlusher_step h hs) h hrun

lemma soundFlusher_new : SoundFlusher (Flusher.new : Flusher P) :=
  ⟨fun _ h => (by cases h), fun _ h => (by cases h)⟩

lemma sequence_prefix {s s' : Flusher P} {events : List (FlushEvent P)}
    (hrun : run (Flusher.step codec base) s events = some s') :
    s.sent.flatten ++ s.queue <+: s'.sent.flatten ++ s'.queue := by
  refine invariant_run (fun t => s.sent.flatten ++ s.queue <+: t.sent.flatten ++ t.queue) ?_
    (List.prefix_refl _) hrun
  intro t e t' ht hstep
  cases e with
  | call c =>
    cases hstep
    rw [← List.append_assoc]
    exact ht.trans (List.prefix_append _ _)
  | turn =>
    obtain ⟨b, hb, rfl⟩ := Option.map_eq_some_iff.mp hstep
    rcases hq : t.queue with _ | ⟨first, queue⟩
    · rw [hq] at hb
      cases hb
    · rw [hq, takeBatch, Option.some.injEq] at hb
      subst hb
      simpa [hq] using ht

/-! ### Inputs and entries -/

/-- The row of an entry under its own scope. -/
def ownRow (e : Op P) : Row P := entryRow (target e.scope) e

lemma entries_get (kind : OpKind) (base : ItemScope) (ws : List (Item P))
    (scope : Option ItemScope) (ids : Option (List String)) (i : ℕ) :
    (entries kind base ws scope ids)[i]? = (walked ws ids)[i]?.map fun w =>
      entry kind (scopeFor base w scope) w (idAt ids w i) := by
  simp [entries, List.getElem?_map, List.getElem?_zipIdx, Option.map_map, Function.comp_def]

lemma walked_none (ws : List (Item P)) : walked ws none = ws.map some := by
  unfold walked
  split_ifs with h
  · simp [List.isEmpty_iff.mp h]
  · rfl

lemma walked_homogeneous {items : List (DeleteInput P)} {scope : Option ItemScope}
    (h : Homogeneous (.delete items scope)) :
    walked (items.filterMap DeleteInput.wrapper) (some (items.map DeleteInput.id)) =
      items.map DeleteInput.wrapper := by
  unfold walked
  rcases h with hsome | hnone
  · have hmap : (items.filterMap DeleteInput.wrapper).map some = items.map DeleteInput.wrapper := by
      rw [List.map_filterMap]
      refine List.filterMap_eq_map_iff_forall_eq_some.mpr fun x hx => ?_
      obtain ⟨w, hw⟩ := Option.isSome_iff_exists.mp (hsome x hx)
      simp [hw]
    split_ifs with he
    · have hnil : items = [] := by
        have := congrArg List.length hmap
        rw [List.isEmpty_iff.mp he] at this
        exact List.length_eq_zero_iff.mp (by simpa using this.symm)
      simp [hnil]
    · exact hmap
  · have hnil : items.filterMap DeleteInput.wrapper = [] := List.filterMap_eq_nil_iff.mpr hnone
    rw [hnil]
    simp only [List.isEmpty_nil, ↓reduceIte, Option.getD_some, List.map_map]
    exact List.map_congr_left fun x hx => (hnone x hx).symm

lemma inputs_eq {c : ItemCall P} (h : Homogeneous c) :
    inputs codec base c = (callEntries codec base c).map ownRow := by
  refine List.ext_getElem? fun i => ?_
  cases c with
  | create items uuids scope =>
    simp only [inputs, callEntries, List.getElem?_map, entries_get, walked_none, Option.map_map]
    rfl
  | update items scope =>
    simp only [inputs, callEntries, List.getElem?_map, entries_get, walked_none, Option.map_map]
    rfl
  | delete items scope =>
    simp only [inputs, callEntries, List.getElem?_map, entries_get, walked_homogeneous h,
      Option.map_map]
    rcases hi : items[i]? with _ | x
    · rfl
    · simp [ownRow, entryRow, entry, idAt, List.getD, hi]

lemma length_callEntries_lt (codec : Codec P) (base : ItemScope) {c : ItemCall P}
    (h : ¬ Homogeneous c) :
    (callEntries codec base c).length < (inputs codec base c).length := by
  cases c with
  | create items uuids scope => exact absurd trivial h
  | update items scope => exact absurd trivial h
  | delete items scope =>
    simp only [Homogeneous, not_or] at h
    push Not at h
    obtain ⟨⟨x, hx, hxn⟩, y, hy, hys⟩ := h
    have hne : items.filterMap DeleteInput.wrapper ≠ [] := fun hnil =>
      hys (List.filterMap_eq_nil_iff.mp hnil y hy)
    have hlt : (items.filterMap DeleteInput.wrapper).length < items.length := by
      rw [List.length_filterMap_lt_length_iff_exists]
      exact ⟨x, hx, by simpa using hxn⟩
    simpa [callEntries, entries, walked, inputs, hne] using hlt

lemma rows_ops (codec : Codec P) (base : ItemScope) (c : ItemCall P) :
    rows (c.ops codec base) = (callEntries codec base c).length := by
  rw [ops_eq, rows, List.flatMap_map]
  have hids : ∀ g ∈ groupsOf Op.key (callEntries codec base c),
      (gather g).ids = g.toList.map fun e => e.ids.headD "" := fun g hg =>
    ids_gather (entry_of_group hg)
  have hlen : ((groupsOf Op.key (callEntries codec base c)).flatMap KeyGroup.toList).length =
      (callEntries codec base c).length := (groupsOf_perm _).length_eq
  rw [List.length_flatMap] at hlen ⊢
  rw [← hlen]
  congr 1
  exact List.map_congr_left fun g hg => by rw [hids g hg, List.length_map]

/-! ### The two orders -/

/-- The ops of the call are not taken into a batch aimed elsewhere: what is queued right
ahead of the first with its key is aimed where it is. -/
def JoinsOwn (queue ops : List (Op P)) : Prop :=
  ∀ op ∈ ops.head?, headTarget queue op = target op.scope

/-- The target of the batch the `k`-th group of a call goes with. -/
def groupTarget (queue : List (Op P)) (k : ℕ) (g : KeyGroup (Op P)) : Target :=
  if k = 0 then headTarget queue (gather g) else target g.first.scope

lemma aimed_rows (queue : List (Op P)) (c : ItemCall P) :
    (aimed queue (c.ops codec base)).flatMap (fun x => opRows x.2 x.1) =
      (groupsOf Op.key (callEntries codec base c)).zipIdx.flatMap fun e =>
        e.1.toList.map (entryRow (groupTarget queue e.2 e.1)) := by
  rw [aimed, ops_eq, List.zipIdx_map, List.map_map, List.flatMap_map]
  refine List.flatMap_congr fun e he => ?_
  have hg : e.1 ∈ groupsOf Op.key (callEntries codec base c) := by
    obtain ⟨-, hlt, hget⟩ := List.mem_zipIdx he
    rw [hget]
    exact List.getElem_mem _
  simp only [Function.comp_apply, Prod.map, id_eq, gather_scope]
  exact opRows_gather (entry_of_group hg) _

/-- The key entries with a target have, in a call of a kind. -/
def targetKey (kind : OpKind) (t : Target) : String :=
  kind.name ++ "|" ++ (t.1.getD "" ++ "|" ++ sheetPathKey t.2)

lemma targetKey_target (kind : OpKind) (s : ItemScope) :
    targetKey kind (target s) = kind.name ++ "|" ++ scopeKey s := by
  rw [targetKey, scopeKey_eq]

lemma key_eq_iff_target {c : ItemCall P} {e e' : Op P} (he : e ∈ callEntries codec base c)
    (he' : e' ∈ callEntries codec base c) :
    e.key = e'.key ↔ target e.scope = target e'.scope := by
  have h := entry_callEntries he
  have h' := entry_callEntries he'
  rw [h.key, h'.key]
  constructor
  · intro hk
    refine target_of_scopeKey (h.sheet.trans h'.sheet.symm) ?_
    have hl := congrArg String.toList hk
    simp only [String.toList_append, List.append_cancel_left_eq] at hl
    exact String.toList_injective hl
  · intro ht
    rw [← targetKey_target, ← targetKey_target, ht]

lemma groupTarget_key {queue : List (Op P)} (hq : ∀ op ∈ queue, Sound op) {c : ItemCall P}
    {g : KeyGroup (Op P)} (hg : g ∈ groupsOf Op.key (callEntries codec base c)) (k : ℕ) :
    targetKey (callKind c) (groupTarget queue k g) = g.first.key := by
  have hfirst := entry_of_group hg g.first (first_mem g)
  unfold groupTarget
  split_ifs with hk
  · -- the head of the batch has the key of the group, hence its kind and the scope's key
    unfold headTarget
    rcases hr : queue.rtakeWhile fun x => decide (x.key = (gather g).key) with _ | ⟨x, l⟩
    · rw [hr, List.headD_nil, gather_scope, targetKey_target, hfirst.key]
    · have hmem : x ∈ queue.rtakeWhile fun x => decide (x.key = (gather g).key) := by
        rw [hr]; simp
      have hkey : x.key = g.first.key := by simpa using List.mem_rtakeWhile_imp hmem
      have hx := hq x ((List.rtakeWhile_suffix _ queue).subset hmem)
      have hkind : x.kind = callKind c := by
        rw [hx.key, hfirst.key] at hkey
        exact kind_of_key hkey
      rw [hr, List.headD_cons, targetKey_target, ← hkind, ← hx.key, hkey]
  · rw [targetKey_target, hfirst.key]

lemma flatMap_zipIdx_fst {α β : Type*} (l : List α) (f : α → List β) :
    l.zipIdx.flatMap (fun e => f e.1) = l.flatMap f := by
  rw [← List.flatMap_map Prod.fst f, List.zipIdx_map_fst]

/-- **The two orders agree** exactly when inputs of one target are listed together and the
call joins no batch aimed elsewhere. -/
theorem aimed_rows_eq_iff {queue : List (Op P)} (hq : ∀ op ∈ queue, Sound op) (c : ItemCall P) :
    (aimed queue (c.ops codec base)).flatMap (fun x => opRows x.2 x.1) =
        (callEntries codec base c).map ownRow ↔
      Contiguous ((callEntries codec base c).map fun e => target e.scope) ∧
      JoinsOwn queue (c.ops codec base) := by
  set l := callEntries codec base c with hl
  have hkeys : ∀ x ∈ l, ∀ y ∈ l, x.key = y.key ↔ target x.scope = target y.scope :=
    fun x hx y hy => key_eq_iff_target hx hy
  have hgrouped : Grouped Op.key (groupsOf Op.key l) := grouped_groupsOf l
  have hmem : ∀ g ∈ groupsOf Op.key l, ∀ e ∈ g.toList, e ∈ l := fun g hg e he =>
    (groupsOf_perm l).subset (List.mem_flatMap.mpr ⟨g, hg, he⟩)
  rw [aimed_rows]
  constructor
  · intro h
    -- read off the keys of the targets: the groups one after the other have those of the list
    have hcontiguous : Contiguous (l.map Op.key) := by
      rw [← flatten_groupsOf_keys_iff]
      have hmap := congrArg (List.map fun row : Row P => targetKey (callKind c) row.target) h
      rw [List.map_flatMap, List.map_map] at hmap
      have hright : l.map ((fun row : Row P => targetKey (callKind c) row.target) ∘ ownRow) =
          l.map Op.key := by
        refine List.map_congr_left fun e he => ?_
        simp [Function.comp_apply, ownRow, entryRow, targetKey_target,
          (entry_callEntries he).key]
      rw [hright] at hmap
      rw [← hmap, List.map_flatMap, ← flatMap_zipIdx_fst]
      refine List.flatMap_congr fun e he => ?_
      have hg : e.1 ∈ groupsOf Op.key l := by
        obtain ⟨-, hlt, hget⟩ := List.mem_zipIdx he
        rw [hget]
        exact List.getElem_mem _
      rw [List.map_map]
      refine List.map_congr_left fun x hx => ?_
      simp only [Function.comp_apply, entryRow]
      rw [groupTarget_key hq hg, hgrouped.uniform _ hg x hx]
    refine ⟨hcontiguous.map_congr hkeys, fun op hop => ?_⟩
    rw [ops_eq] at hop
    rcases hgs : groupsOf Op.key l with _ | ⟨g, gs⟩
    · rw [hgs] at hop
      cases hop
    · rw [hgs, List.map_cons, List.head?_cons, Option.mem_def, Option.some.injEq] at hop
      subst hop
      have hflat := flatten_groupsOf_of_contiguous hcontiguous
      rw [hgs] at h hflat
      have hhead := congrArg List.head? h
      rw [← hflat] at hhead
      simp only [List.zipIdx_cons, List.flatMap_cons, KeyGroup.toList, List.map_cons, ownRow,
        List.cons_append, List.head?_cons, Option.some.injEq, entryRow, Row.mk.injEq,
        groupTarget, ↓reduceIte] at hhead
      rw [hhead.1, gather_scope]
  · rintro ⟨htargets, hjoin⟩
    have hcontiguous : Contiguous (l.map Op.key) :=
      htargets.map_congr fun x hx y hy => (hkeys x hx y hy).symm
    conv_rhs => rw [← flatten_groupsOf_of_contiguous hcontiguous, List.map_flatMap,
      ← flatMap_zipIdx_fst]
    refine List.flatMap_congr fun e he => ?_
    obtain ⟨-, hlt, hget⟩ := List.mem_zipIdx he
    have hg : e.1 ∈ groupsOf Op.key l := by
      rw [hget]
      exact List.getElem_mem _
    have hown : groupTarget queue e.2 e.1 = target e.1.first.scope := by
      unfold groupTarget
      split_ifs with hk
      · refine (hjoin (gather e.1) ?_).trans (by rw [gather_scope])
        rw [ops_eq, List.head?_map, hget]
        simp only [hk, Nat.sub_zero]
        rw [List.head?_eq_getElem?, List.getElem?_eq_getElem (by simpa [hk] using hlt)]
        rfl
      · rfl
    refine List.map_congr_left fun x hx => ?_
    have hx' : target x.scope = target e.1.first.scope :=
      (hkeys x (hmem _ hg x hx) _ (hmem _ hg _ (first_mem _))).mp (hgrouped.uniform _ hg x hx)
    rw [hown, ownRow, hx']

/-! ### Alignment -/

/-- A call is aligned when the places it resolves to hold its inputs, in order. -/
theorem aligned_iff_rows {rs : List (Row P)} {sent : List (List (Op P))} {p m : ℕ}
    (hcount : rows ((sent.flatten.drop p).take m) = (resolved sent (tokens sent) p m).length) :
    Aligned rs sent p m ↔
      (resolved sent (tokens sent) p m).map (rowAt sent) = rs.map some := by
  set places := resolved sent (tokens sent) p m with hplaces
  constructor
  · rintro ⟨hn, place, -, hplace, hres⟩
    obtain ⟨-, hget⟩ := hres (ℕ × ℕ) (tokens sent) fun j b hb => by simp [tokens_of_get hb]
    refine List.ext_getElem? fun i => ?_
    rw [List.getElem?_map, List.getElem?_map]
    rcases hi : rs[i]? with _ | row
    · have hge : rs.length ≤ i := List.getElem?_eq_none_iff.mp hi
      have hnone : places[i]? = none := by
        rw [List.getElem?_eq_none_iff, ← hcount, hn]
        exact hge
      rw [hnone]
      rfl
    · have hlt : i < rs.length := (List.getElem?_eq_some_iff.mp hi).1
      have hrow := hplace i row hi
      have hi' : places[i]? = some (place i) := (hget i hlt).trans (tokens_get hrow)
      rw [hi', Option.map_some, Option.map_some, hrow]
  · intro h
    have hn : places.length = rs.length := by simpa using congrArg List.length h
    have hplace : ∀ i < places.length, places[i]? = some (places.getD i (0, 0)) := by
      intro i hi
      rw [List.getD, List.getElem?_eq_getElem hi, Option.getD_some]
    refine ⟨hcount.trans hn, fun i => places.getD i (0, 0), ?_, ?_, ?_⟩
    · intro i hi i' hi' he
      have hinj := List.nodup_iff_injective_getElem.mp (nodup_resolved_tokens sent p m)
      rw [← hn] at hi hi'
      have he' : places[i]? = places[i']? := by
        rw [hplace i hi, hplace i' hi']
        exact congrArg some he
      rw [List.getElem?_eq_getElem hi, List.getElem?_eq_getElem hi', Option.some.injEq] at he'
      have := @hinj ⟨i, hi⟩ ⟨i', hi'⟩ he'
      simpa using this
    · intro i row hrow
      have hlt : i < places.length := hn ▸ (List.getElem?_eq_some_iff.mp hrow).1
      have hi := congrArg (fun l => l[i]?) h
      simp only [List.getElem?_map, hrow, hplace i hlt, Option.map_some] at hi
      exact Option.some.inj hi
    · intro R answers hanswers
      have hlook := resolved_eq_lookup hanswers p m
      have hlen : (resolved sent answers p m).length = places.length := by
        simpa using congrArg List.length hlook
      refine ⟨hlen.trans hn, fun i hi => ?_⟩
      have hlt : i < places.length := hn ▸ hi
      have hi' := congrArg (fun l => l[i]?) hlook
      simp only [List.getElem?_map] at hi'
      rw [hplace i hlt, List.getElem?_eq_getElem (hlen ▸ hlt)] at hi'
      rw [List.getElem?_eq_getElem (hlen ▸ hlt)]
      exact Option.some.inj hi'

/-- **Result alignment.** A call made at any time on a commit, once its ops are sent, has
its results aligned with its inputs if and only if it lists wrappers only or ids only, its
inputs of one container stand together, and it joins no batch aimed elsewhere. -/
theorem aligned_iff (codec : Codec P) (base : ItemScope) (c : ItemCall P)
    (before after : List (FlushEvent P)) {s₁ s₂ : Flusher P}
    (h₁ : run (Flusher.step codec base) Flusher.new before = some s₁)
    (h₂ : run (Flusher.step codec base) s₁ (.call c :: after) = some s₂)
    (hsent : s₁.sent.flatten.length + s₁.queue.length + (c.ops codec base).length ≤
      s₂.sent.flatten.length) :
    Aligned (inputs codec base c) s₂.sent (s₁.sent.flatten.length + s₁.queue.length)
        (c.ops codec base).length ↔
      Homogeneous c ∧ Contiguous ((inputs codec base c).map (·.target)) ∧
      JoinsOwn s₁.queue (c.ops codec base) := by
  obtain ⟨t, ht, hrun⟩ := run_cons_eq_some.mp h₂
  cases ht
  have hs₁ := soundFlusher_run soundFlusher_new h₁
  have hs₂ := soundFlusher_run hs₁ h₂
  have hrows := rowAt_resolved hrun hs₂ (keys_ops_nodup codec base c) hsent
  set p := s₁.sent.flatten.length + s₁.queue.length with hp
  set m := (c.ops codec base).length with hm
  -- the ops of the call, found again in what was sent
  have hops : (s₂.sent.flatten.drop p).take m = c.ops codec base := by
    have hpre := sequence_prefix hrun
    rw [← List.append_assoc] at hpre
    have hpre' : s₁.sent.flatten ++ s₁.queue ++ c.ops codec base <+: s₂.sent.flatten := by
      refine List.prefix_of_prefix_length_le hpre (List.prefix_append _ _) ?_
      simp only [List.length_append]
      omega
    obtain ⟨rest, hrest⟩ := hpre'
    rw [← hrest, List.append_assoc, List.drop_left' (by simp [hp]), List.take_left' rfl]
  have hcount : rows ((s₂.sent.flatten.drop p).take m) = (callEntries codec base c).length := by
    rw [hops, rows_ops]
  have hlen : (resolved s₂.sent (tokens s₂.sent) p m).length =
      (callEntries codec base c).length := by
    have := congrArg List.length hrows
    simp only [List.length_map, List.length_flatMap, length_opRows] at this
    rw [this, ← rows_ops, rows_eq_sum, aimed, List.map_map]
    conv_rhs => rw [← List.zipIdx_map_fst 0 (c.ops codec base), List.map_map]
    rfl
  rw [aligned_iff_rows (hcount.trans hlen.symm), hrows,
    (List.map_injective_iff.mpr (Option.some_injective _)).eq_iff]
  by_cases hhom : Homogeneous c
  · rw [inputs_eq hhom, aimed_rows_eq_iff hs₁.queue c, List.map_map]
    exact (and_iff_right hhom).symm
  · -- a mixed deletion sends fewer rows than it has inputs
    refine iff_of_false (fun h => ?_) fun h => hhom h.1
    have hlt := length_callEntries_lt codec base hhom
    have hl := congrArg List.length h
    have hl' := congrArg List.length hrows
    rw [List.length_map, List.length_map] at hl'
    omega

/-! ### Deleting pads -/

/-- Messages nothing is read of. -/
def plainCodec : Codec Unit where
  wrapAny := fun _ => none
  typeUrl := fun _ => ""
  setId := fun _ _ => ()
  symbol := fun _ => none
  sameDefinition := fun _ _ => true
  dropDefinition := fun _ => ()

def pad (id footprint : String) : Item Unit :=
  ⟨id, true, .KOT_PCB_PAD, none, none, some footprint, ()⟩

/-- Two pads of one footprint, deleted by wrapper. -/
theorem aligned_pads :
    ∃ s, run (Flusher.step plainCodec {}) Flusher.new
        [.call (.delete [.item (pad "p1" "f1"), .item (pad "p2" "f1")] none), .turn] = some s ∧
      Aligned (inputs plainCodec {} (.delete [.item (pad "p1" "f1"), .item (pad "p2" "f1")] none))
        s.sent 0 1 := by
  refine ⟨_, rfl, (aligned_iff plainCodec {}
    (.delete [.item (pad "p1" "f1"), .item (pad "p2" "f1")] none) [] [.turn] rfl rfl
    (by decide)).mpr ⟨Or.inl (by decide), fun a b h => ?_, ?_⟩⟩
  · have hlen : 3 ≤ 2 := h.length_le
    omega
  · unfold JoinsOwn
    decide

/-- A wrapper and an id in one deletion: one row is sent for the two, aimed where the
wrapper is and carrying the id. Pads of two footprints in turn: each is sent, but what the
call resolves to has the third before the second. -/
theorem deletions_misaligned :
    (∃ s, run (Flusher.step plainCodec {}) Flusher.new
        [.call (.delete [.kiid "t", .item (pad "p1" "f1")] none), .turn] = some s ∧
      ¬ Aligned (inputs plainCodec {} (.delete [.kiid "t", .item (pad "p1" "f1")] none))
        s.sent 0 1) ∧
    ∃ s, run (Flusher.step plainCodec {}) Flusher.new
        [.call (.delete [.item (pad "p1" "f1"), .item (pad "p2" "f2"), .item (pad "p3" "f1")] none),
          .turn, .turn] = some s ∧
      ¬ Aligned (inputs plainCodec {}
        (.delete [.item (pad "p1" "f1"), .item (pad "p2" "f2"), .item (pad "p3" "f1")] none))
        s.sent 0 2 := by
  refine ⟨⟨_, rfl, fun h => ?_⟩, ⟨_, rfl, fun h => ?_⟩⟩
  · exact absurd h.1 (by decide)
  · rw [aligned_iff_rows (by decide)] at h
    revert h
    decide

end FabPcb.Alignment
