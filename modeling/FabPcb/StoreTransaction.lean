import FabPcb.StoreMutator

/-!
`CommandService.ts`: one transaction on a store.

The edits go into the store at once. Per item the transaction keeps what the store held before
its first edit and what the last edit left, so the two together say how to come from one
content to the other, whatever happened in between.
-/

namespace FabPcb.StoreTransaction

open OrderedMap Writes StoreContent AppItemStore
open StoreMutator

variable {P Q : Type*}

/-! ### Edits -/

/-- A length as messages carry it. -/
inductive Nm where
  | number (v : ℚ)
  | bigint (v : ℤ)
  deriving DecidableEq

def Nm.num : Nm → ℚ
  | .number v => v
  | .bigint v => v

structure Vec where
  xNm : Nm
  yNm : Nm
  deriving DecidableEq

inductive LayerField where
  | name (layer : String)
  | number (n : ℤ)
  | other

/-- What the edits read off a decoded message of type `P`, and patches of type `Q` do to it. -/
structure Messages (P Q : Type*) where
  applyPatches : P → List Q → P
  /-- `null` and `undefined` have no fields to read. -/
  nullish : P → Bool
  layer : P → LayerField
  /-- `net.name`, when it is a string. -/
  netName : P → Option String
  /-- The fields that are vectors. -/
  position : P → Option Vec
  start : P → Option Vec
  stop : P → Option Vec
  /-- `width?.valueNm`. -/
  width : P → Option Nm
  /-- `BoardLayer[n]`. -/
  boardLayer : ℤ → Option String

def deriveMeta (msgs : Messages P Q) (item : StoredItem P) : StoredItem P :=
  let p := item.proto.proto
  let layer := match msgs.layer p with
    | .name layer => some layer
    | .number n => (msgs.boardLayer n).or item.layer
    | .other => item.layer
  let net := match msgs.netName p with
    | some name => if name = "" then none else some name
    | none => item.net
  { item with layer, net }

def withBbox (item : StoredItem P) (bbox : BBox) : StoredItem P :=
  { item with proto := { item.proto with bbox := some bbox } }

/-- The box of a line from `s` to `e`, half its width around. -/
def lineBox (s e : Vec) (w : ℚ) : BBox :=
  let x₀ := min s.xNm.num e.xNm.num - w / 2
  let y₀ := min s.yNm.num e.yNm.num - w / 2
  ⟨x₀, y₀, |e.xNm.num - s.xNm.num| + w, |e.yNm.num - s.yNm.num| + w⟩

/-- The item with the box of its line, if its message is one. -/
def rebuildBbox (msgs : Messages P Q) (next : StoredItem P) : StoredItem P :=
  let n := next.proto.proto
  match msgs.start n, msgs.stop n with
  | some s, some e =>
    let w := ((msgs.width n).map Nm.num).getD 0
    withBbox next (lineBox s e (if w = 0 then 200000 else w))
  | _, _ => next

/-- `refreshBbox`; a box next to a message without fields is a `TypeError`. -/
def refreshBbox (msgs : Messages P Q) (prev next : StoredItem P) : Option (StoredItem P) :=
  match prev.proto.bbox with
  | none => some next
  | some bbox =>
    if msgs.nullish prev.proto.proto || msgs.nullish next.proto.proto then none
    else
      match msgs.position prev.proto.proto, msgs.position next.proto.proto with
      | some p, some n =>
        if p.xNm ≠ n.xNm ∨ p.yNm ≠ n.yNm then
          some <| withBbox next { bbox with
            x := bbox.x + (n.xNm.num - p.xNm.num)
            y := bbox.y + (n.yNm.num - p.yNm.num) }
        else some (rebuildBbox msgs next)
      | _, _ => some (rebuildBbox msgs next)

/-! ### The transaction -/

/-- What an item was before the transaction, and what its last edit left of it. -/
structure Pending (P : Type*) where
  first : Option (StoredItem P)
  last : Option (StoredItem P)

structure Transaction (P : Type*) where
  id : ℕ
  message : String
  pending : OMap String (Pending P)
  order : List String
  opened : Bool

inductive TxError where
  | error (message : String)
  | typeError
  deriving DecidableEq

/-- `Partial<Pick<StoredItem, 'layer' | 'net' | 'bbox'>>`: a key may be there and undefined. -/
structure Meta where
  layer : Option (Option String) := none
  net : Option (Option String) := none
  bbox : Option (Option BBox) := none

namespace Transaction

def new (id : ℕ) (message : String) : Transaction P := ⟨id, message, OMap.empty, [], true⟩

/-- The snapshot drops the wrapper only, which is not part of an item here. -/
def touch (tx : Transaction P) (id : String) (first : Option (StoredItem P)) : Transaction P :=
  if tx.pending.has id then tx
  else { tx with pending := tx.pending.set id ⟨first, none⟩, order := tx.order ++ [id] }

/-- `this.touch(id, first).last = last`. -/
def record (tx : Transaction P) (id : String) (first last : Option (StoredItem P)) :
    Transaction P :=
  let tx := tx.touch id first
  match tx.pending.get? id with
  | some p => { tx with pending := tx.pending.set id { p with last } }
  | none => tx

/-- `assertOpen()`, and what follows it. -/
def assertOpen {α : Type*} (tx : Transaction P) (rest : Except TxError α) : Except TxError α :=
  if tx.opened then rest
  else .error (.error s!"Transaction #{tx.id} \"{tx.message}\" is already closed")

def update (msgs : Messages P Q) (s : Store P) (tx : Transaction P) (id : String)
    (patches : List Q) : Except TxError (Store P × Transaction P) :=
  tx.assertOpen <|
    match s.get id with
    | none => .error (.error s!"update: no item {id} in store")
    | some prev =>
      let proto := { prev.proto with proto := msgs.applyPatches prev.proto.proto patches }
      match refreshBbox msgs prev (deriveMeta msgs { prev with proto }) with
      | none => .error .typeError
      | some next => .ok (s.replace next, tx.record id (some prev) (some next))

def replace (msgs : Messages P Q) (s : Store P) (tx : Transaction P) (id : String) (proto : P)
    (extra : Meta) : Except TxError (Store P × Transaction P) :=
  tx.assertOpen <|
    match s.get id with
    | none => .error (.error s!"replace: no item {id} in store")
    | some prev =>
      let next := deriveMeta msgs { prev with
        layer := extra.layer.getD prev.layer
        net := extra.net.getD prev.net
        proto := ⟨proto, extra.bbox.getD prev.proto.bbox⟩ }
      .ok (s.replace next, tx.record id (some prev) (some next))

def create (msgs : Messages P Q) (s : Store P) (tx : Transaction P) (item : StoredItem P) :
    Except TxError (Store P × Transaction P) :=
  tx.assertOpen <|
    let last := deriveMeta msgs item
    .ok (s.insert last, tx.record item.id (s.get item.id) (some last))

def delete (s : Store P) (tx : Transaction P) (id : String) :
    Except TxError (Store P × Transaction P) :=
  tx.assertOpen <|
    match s.get id with
    | none => .ok (s, tx)
    | some prev => .ok (s.remove id, tx.record id (some prev) none)

end Transaction

/-- The forward and the inverse op of an item; one made and deleted again has none. -/
def Pending.ops : Pending P → Option (ItemOp P × ItemOp P)
  | ⟨none, none⟩ => none
  | ⟨none, some last⟩ => some (⟨.create, last⟩, ⟨.delete, last⟩)
  | ⟨some first, none⟩ => some (⟨.delete, first⟩, ⟨.create, first⟩)
  | ⟨some first, some last⟩ => some (⟨.update, last⟩, ⟨.update, first⟩)

/-- The pairs of ops, in the order of the first edits. -/
def Transaction.pairs (tx : Transaction P) : List (ItemOp P × ItemOp P) :=
  tx.order.filterMap fun id => (tx.pending.get? id).bind Pending.ops

/-- `buildOps`: the forward ops, and the inverse ones the other way round. -/
def Transaction.buildOps (tx : Transaction P) : List (ItemOp P) × List (ItemOp P) :=
  (tx.pairs.map Prod.fst, (tx.pairs.map Prod.snd).reverse)

/-- `begin`, `apply` and `end` of a backend on the ops of a commit: the store as they leave it,
and the canonical ops unless one of them rejects. -/
abbrev Backend (P : Type*) := Store P → List (ItemOp P) → Store P × Option (List (ItemOp P))

/-- How a `commit()` goes: nothing to do, rolled back, or with an entry for the history. -/
inductive Outcome (P : Type*) where
  | closed
  | failed
  | committed (forward inverse : List (ItemOp P))

namespace Transaction

def commit (backend : Backend P) (s : Store P) (tx : Transaction P) :
    Except TxError (Store P × Transaction P × Outcome P) :=
  tx.assertOpen <|
    let (forward, inverse) := tx.buildOps
    if forward.isEmpty then .ok (s, { tx with opened := false }, .closed)
    else
      match backend s forward with
      | (s, some canonical) => .ok (s, { tx with opened := false }, .committed canonical inverse)
      | (s, none) => .ok (s.replayInto inverse, { tx with opened := false }, .failed)

def drop (s : Store P) (tx : Transaction P) : Except TxError (Store P × Transaction P) :=
  tx.assertOpen <|
    .ok (s.replayInto tx.buildOps.2, { tx with opened := false })

end Transaction

/-! ### Sequences of edits -/

inductive TxCall (P Q : Type*) where
  | update (id : String) (patches : List Q)
  | replace (id : String) (proto : P) (extra : Meta)
  | create (item : StoredItem P)
  | delete (id : String)

def TxCall.run (msgs : Messages P Q) (s : Store P) (tx : Transaction P) :
    TxCall P Q → Except TxError (Store P × Transaction P)
  | .update id patches => tx.update msgs s id patches
  | .replace id proto extra => tx.replace msgs s id proto extra
  | .create item => tx.create msgs s item
  | .delete id => tx.delete s id

/-- What a call leaves: one that throws has changed nothing. -/
def TxCall.step (msgs : Messages P Q) (r : Store P × Transaction P) (call : TxCall P Q) :
    Store P × Transaction P :=
  match call.run msgs r.1 r.2 with
  | .ok r => r
  | .error _ => r

def edits (msgs : Messages P Q) (r : Store P × Transaction P) (calls : List (TxCall P Q)) :
    Store P × Transaction P :=
  calls.foldl (TxCall.step msgs) r

/-! ### What an edit does -/

variable {msgs : Messages P Q} {r : Store P × Transaction P} {begun now : Content (Payload P)}
  {tx : Transaction P} {id : String}

lemma id_rebuildBbox (next : StoredItem P) : (rebuildBbox msgs next).id = next.id := by
  unfold rebuildBbox
  dsimp only
  split <;> rfl

lemma id_refreshBbox {prev next it : StoredItem P} (h : refreshBbox msgs prev next = some it) :
    it.id = next.id := by
  unfold refreshBbox at h
  split at h
  · exact (Option.some.inj h) ▸ rfl
  · split_ifs at h
    split at h
    · split_ifs at h
      · exact (Option.some.inj h) ▸ rfl
      · exact (Option.some.inj h) ▸ id_rebuildBbox next
    · exact (Option.some.inj h) ▸ id_rebuildBbox next

/-- An edit sets or deletes one item, in the store and in the record of the transaction. -/
structure Edit (r r' : Store P × Transaction P) (id : String) (last : Option (StoredItem P)) :
    Prop where
  content : r'.1.content = Function.update r.1.content id last
  tx : r'.2 = r.2.record id (r.1.get id) last
  keyed : ∀ it, last = some it → it.id = id

/-- **What a call can do**: nothing, or one edit. -/
lemma step_cases (msgs : Messages P Q) (r : Store P × Transaction P) (call : TxCall P Q) :
    call.step msgs r = r ∨ ∃ id last, Edit r (call.step msgs r) id last := by
  obtain ⟨s, tx⟩ := r
  unfold TxCall.step
  split
  case h_2 => exact Or.inl rfl
  case h_1 r' hr =>
    cases call with
    | update id patches =>
      simp only [TxCall.run, Transaction.update, Transaction.assertOpen] at hr
      split_ifs at hr
      split at hr
      case h_1 => cases hr
      case h_2 prev hprev =>
        split at hr
        case h_1 => cases hr
        case h_2 next hnext =>
          cases hr
          have hid : next.id = id := (id_refreshBbox hnext).trans (s.keyed id prev hprev)
          refine Or.inr ⟨id, some next, ?_, by rw [hprev], ?_⟩
          · rw [← hid]
            exact content_replace next s.impl
          · exact fun it hit => (Option.some.inj hit) ▸ hid
    | replace id proto extra =>
      simp only [TxCall.run, Transaction.replace, Transaction.assertOpen] at hr
      split_ifs at hr
      split at hr
      case h_1 => cases hr
      case h_2 prev hprev =>
        cases hr
        have hid : prev.id = id := s.keyed id prev hprev
        refine Or.inr ⟨id, _, ?_, by rw [hprev], ?_⟩
        · conv_rhs => rw [← hid]
          exact content_replace _ s.impl
        · exact fun it hit => (Option.some.inj hit) ▸ hid
    | create item =>
      simp only [TxCall.run, Transaction.create, Transaction.assertOpen] at hr
      split_ifs at hr
      cases hr
      exact Or.inr ⟨item.id, _, content_insert _ s.impl, rfl,
        fun it hit => (Option.some.inj hit) ▸ rfl⟩
    | delete id =>
      simp only [TxCall.run, Transaction.delete, Transaction.assertOpen] at hr
      split_ifs at hr
      split at hr
      case h_1 =>
        cases hr
        exact Or.inl rfl
      case h_2 prev hprev =>
        cases hr
        exact Or.inr ⟨id, none, content_remove id s.impl, by rw [hprev], fun it hit => nomatch hit⟩

/-! ### The record of a transaction -/

/-- The invariant: the ids touched each know the item before and now, and the others hold what
they held. -/
structure Records (begun : Content (Payload P)) (tx : Transaction P) (now : Content (Payload P)) :
    Prop where
  nodup : tx.order.Nodup
  order : ∀ id, id ∈ tx.order ↔ tx.pending.has id = true
  touched : ∀ id p, tx.pending.get? id = some p → p = ⟨begun id, now id⟩
  untouched : ∀ id, tx.pending.get? id = none → now id = begun id
  begun : Keyed begun
  now : Keyed now

lemma records_new {m : Content (Payload P)} (h : Keyed m) (id : ℕ) (message : String) :
    Records m (Transaction.new id message) m where
  nodup := List.nodup_nil
  order := by simp [Transaction.new]
  touched := by simp [Transaction.new]
  untouched := fun _ _ => rfl
  begun := h
  now := h

lemma get?_record (tx : Transaction P) (id x : String) (first last : Option (StoredItem P)) :
    (tx.record id first last).pending.get? x =
      if x = id then some ⟨((tx.pending.get? id).map Pending.first).getD first, last⟩
      else tx.pending.get? x := by
  unfold Transaction.record Transaction.touch
  by_cases hx : x = id
  · subst hx
    cases hp : tx.pending.get? x with
    | none => simp [OMap.has, hp]
    | some p => simp [OMap.has, hp]
  · cases hp : tx.pending.get? id with
    | none => simp [OMap.has, hp, hx]
    | some p => simp [OMap.has, hp, hx]

lemma order_record (tx : Transaction P) (id : String) (first last : Option (StoredItem P)) :
    (tx.record id first last).order =
      if tx.pending.has id then tx.order else tx.order ++ [id] := by
  unfold Transaction.record Transaction.touch
  cases hp : tx.pending.get? id with
  | none => simp [OMap.has, hp]
  | some p => simp [OMap.has, hp]

/-- **Step.** An edit is recorded. -/
lemma records_edit (h : Records begun tx now) {last : Option (StoredItem P)}
    (hlast : ∀ it, last = some it → it.id = id) :
    Records begun (tx.record id (now id) last) (Function.update now id last) where
  nodup := by
    rw [order_record]
    split_ifs with hid
    · exact h.nodup
    · refine List.nodup_append.mpr ⟨h.nodup, List.nodup_singleton id, ?_⟩
      rintro a ha b hb rfl
      rw [List.mem_singleton.mp hb] at ha
      exact hid ((h.order id).mp ha)
  order := by
    intro x
    have hhas : (tx.record id (now id) last).pending.has x = true ↔
        x = id ∨ tx.pending.has x = true := by
      rw [OMap.has_iff, OMap.has_iff]
      simp only [get?_record]
      by_cases hx : x = id
      · simp [hx]
      · simp [hx]
    rw [hhas, ← h.order x, order_record]
    split_ifs with hid
    · constructor
      · exact Or.inr
      · rintro (rfl | hx)
        · exact (h.order _).mpr hid
        · exact hx
    · rw [List.mem_append, List.mem_singleton, or_comm]
  touched := by
    intro x p hp
    rw [get?_record] at hp
    by_cases hx : x = id
    · subst hx
      rw [if_pos rfl] at hp
      rw [Function.update_self]
      cases hq : tx.pending.get? x with
      | none =>
        rw [hq] at hp
        rw [← h.untouched x hq]
        exact (Option.some.inj hp).symm
      | some q =>
        rw [hq, h.touched x q hq] at hp
        exact (Option.some.inj hp).symm
    · rw [if_neg hx] at hp
      rw [Function.update_of_ne hx]
      exact h.touched x p hp
  untouched := by
    intro x hx
    rw [get?_record] at hx
    split_ifs at hx with hid
    rw [Function.update_of_ne hid]
    exact h.untouched x hx
  begun := h.begun
  now := by
    intro x it hit
    by_cases hx : x = id
    · subst hx
      rw [Function.update_self] at hit
      exact hlast it hit
    · rw [Function.update_of_ne hx] at hit
      exact h.now x it hit

/-- **Run.** Any edits are recorded. -/
lemma records_edits (msgs : Messages P Q) (calls : List (TxCall P Q))
    (h : Records begun r.2 r.1.content) :
    Records begun (edits msgs r calls).2 (edits msgs r calls).1.content := by
  induction calls generalizing r with
  | nil => exact h
  | cons call calls ih =>
    refine ih ?_
    rcases step_cases msgs r call with hsame | ⟨id, last, hedit⟩
    · rwa [hsame]
    · rw [hedit.tx, hedit.content]
      exact records_edit h hedit.keyed

/-! ### The ops of a record -/

lemma ops_eq_none {p : Pending P} (h : p.ops = none) : p.first = none ∧ p.last = none := by
  obtain ⟨first, last⟩ := p
  cases first <;> cases last <;> simp [Pending.ops] at h ⊢

lemma write_ops {first last : Option (StoredItem P)} {x : ItemOp P × ItemOp P}
    (h : (⟨first, last⟩ : Pending P).ops = some x) (hfirst : ∀ it, first = some it → it.id = id)
    (hlast : ∀ it, last = some it → it.id = id) :
    x.1.write = (id, last) ∧ x.2.write = (id, first) := by
  cases first with
  | none =>
    cases last with
    | none => simp [Pending.ops] at h
    | some last =>
      obtain rfl := Option.some.inj h
      simp [ItemOp.write, hlast]
  | some first =>
    cases last with
    | none =>
      obtain rfl := Option.some.inj h
      simp [ItemOp.write, hfirst]
    | some last =>
      obtain rfl := Option.some.inj h
      simp [ItemOp.write, hfirst, hlast]

lemma mem_pairs {x : ItemOp P × ItemOp P} :
    x ∈ tx.pairs ↔ ∃ id ∈ tx.order, ∃ p, tx.pending.get? id = some p ∧ p.ops = some x := by
  simp [Transaction.pairs, List.mem_filterMap, Option.bind_eq_some_iff]

lemma Records.write_pairs (h : Records begun tx now) {x : ItemOp P × ItemOp P}
    (hx : x ∈ tx.pairs) :
    ∃ id ∈ tx.order, x.1.write = (id, now id) ∧ x.2.write = (id, begun id) := by
  obtain ⟨id, hid, p, hp, hops⟩ := mem_pairs.mp hx
  rw [h.touched id p hp] at hops
  exact ⟨id, hid, write_ops hops (h.begun id) (h.now id)⟩

lemma Records.eq_of_notMem (h : Records begun tx now) (hid : id ∉ ids tx.buildOps.1) :
    now id = begun id := by
  cases hp : tx.pending.get? id with
  | none => exact h.untouched id hp
  | some p =>
    cases hops : p.ops with
    | none =>
      obtain ⟨hfirst, hlast⟩ := ops_eq_none hops
      rw [h.touched id p hp] at hfirst hlast
      exact hlast.trans hfirst.symm
    | some x =>
      have hmem : id ∈ tx.order := (h.order id).mpr (OMap.has_iff.mpr ⟨p, hp⟩)
      have hx : x ∈ tx.pairs := mem_pairs.mpr ⟨id, hmem, p, hp, hops⟩
      rw [h.touched id p hp] at hops
      have hkey : x.1.item.id = id :=
        congrArg Prod.fst (write_ops hops (h.begun id) (h.now id)).1
      refine absurd ?_ hid
      rw [← hkey, Transaction.buildOps, ids, List.map_map]
      exact List.mem_map_of_mem hx

lemma Records.ids_inverse (h : Records begun tx now) :
    ids tx.buildOps.2 = (ids tx.buildOps.1).reverse := by
  simp only [Transaction.buildOps, ids, List.map_reverse, List.map_map]
  congr 1
  refine List.map_congr_left fun x hx => ?_
  obtain ⟨id, -, hfwd, hinv⟩ := h.write_pairs hx
  exact (congrArg Prod.fst hinv).trans (congrArg Prod.fst hfwd).symm

lemma Records.nodup_forward (h : Records begun tx now) : (ids tx.buildOps.1).Nodup := by
  have hids : ids tx.buildOps.1 = tx.order.filterMap fun id =>
      ((tx.pending.get? id).bind Pending.ops).map fun x => x.1.item.id := by
    simp [Transaction.buildOps, ids, Transaction.pairs, List.map_filterMap, Function.comp_def]
  rw [hids]
  refine h.nodup.filterMap fun a a' b hb hb' => ?_
  have hkey : ∀ {a}, b ∈ ((tx.pending.get? a).bind Pending.ops).map (fun x => x.1.item.id) →
      b = a := by
    intro a hb
    obtain ⟨x, hx, rfl⟩ := Option.map_eq_some_iff.mp hb
    obtain ⟨p, hp, hops⟩ := Option.bind_eq_some_iff.mp hx
    rw [h.touched a p hp] at hops
    exact congrArg Prod.fst (write_ops hops (h.begun a) (h.now a)).1
  exact (hkey hb).symm.trans (hkey hb')

lemma Records.nodup_inverse (h : Records begun tx now) : (ids tx.buildOps.2).Nodup := by
  rw [h.ids_inverse]
  exact List.nodup_reverse.mpr h.nodup_forward

/-- **The forward ops lead from the content before to the one now.** -/
lemma Records.writeAll_forward (h : Records begun tx now) {m : Content (Payload P)}
    (hm : ∀ id, id ∉ ids tx.buildOps.1 → m id = begun id) :
    writeAll m (tx.buildOps.1.map ItemOp.write) = now := by
  have hagree : ∀ w ∈ tx.buildOps.1.map ItemOp.write, w.2 = now w.1 := by
    intro w hw
    obtain ⟨op, hop, rfl⟩ := List.mem_map.mp hw
    obtain ⟨x, hx, rfl⟩ := List.mem_map.mp hop
    obtain ⟨id, -, hfwd, -⟩ := h.write_pairs hx
    rw [hfwd]
  funext id
  rw [writeAll_of_agree hagree, write_keys]
  split_ifs with hid
  · rfl
  · exact (hm id hid).trans (h.eq_of_notMem hid).symm

/-- **The inverse ops lead back**, from any content that differs only where they write. -/
lemma Records.writeAll_inverse (h : Records begun tx now) {m : Content (Payload P)}
    (hm : ∀ id, id ∉ ids tx.buildOps.1 → m id = now id) :
    writeAll m (tx.buildOps.2.map ItemOp.write) = begun := by
  have hagree : ∀ w ∈ tx.buildOps.2.map ItemOp.write, w.2 = begun w.1 := by
    intro w hw
    obtain ⟨op, hop, rfl⟩ := List.mem_map.mp hw
    obtain ⟨x, hx, rfl⟩ := List.mem_map.mp (List.mem_reverse.mp hop)
    obtain ⟨id, -, -, hinv⟩ := h.write_pairs hx
    rw [hinv]
  funext id
  rw [writeAll_of_agree hagree, write_keys, h.ids_inverse]
  split_ifs with hid
  · rfl
  · have hforward : id ∉ ids tx.buildOps.1 := fun hmem => hid (List.mem_reverse.mpr hmem)
    exact (hm id hforward).trans (h.eq_of_notMem hforward)

/-! ### Rolling back -/

lemma opened_edits (msgs : Messages P Q) (calls : List (TxCall P Q)) :
    (edits msgs r calls).2.opened = r.2.opened := by
  induction calls generalizing r with
  | nil => rfl
  | cons call calls ih =>
    refine Eq.trans ih ?_
    rcases step_cases msgs r call with hsame | ⟨id, last, hedit⟩
    · rw [hsame]
    · rw [hedit.tx]
      unfold Transaction.record Transaction.touch
      split_ifs <;> dsimp only <;> split <;> rfl

variable {s : Store P} {backend : Backend P}

/-- **`drop()` restores what the record began with.** -/
lemma content_drop (h : Records begun tx s.content) (hopen : tx.opened = true) :
    (tx.drop s).map (fun r => r.1.content) = .ok begun := by
  simp only [Transaction.drop, Transaction.assertOpen, hopen, if_true, Except.map]
  congr 1
  rw [← h.writeAll_inverse fun _ _ => rfl]
  exact content_replayInto h.nodup_inverse s.impl

/-- A backend that rejects ops, having written to no item but those they name. -/
structure Rejects (backend : Backend P) (s : Store P) (ops : List (ItemOp P)) : Prop where
  rejects : (backend s ops).2 = none
  own : ∀ id, id ∉ ids ops → (backend s ops).1.content id = s.content id

/-- **A failed `commit()` restores it too**, whatever the backend did to the items of its ops. -/
lemma content_commit_of_rejects (h : Records begun tx s.content) (hopen : tx.opened = true)
    (hrej : Rejects backend s tx.buildOps.1) :
    (tx.commit backend s).map (fun r => r.1.content) = .ok begun := by
  simp only [Transaction.commit, Transaction.assertOpen, hopen, if_true]
  split_ifs with hempty
  · have hnil : tx.buildOps.1 = [] := List.isEmpty_iff.mp hempty
    simp only [Except.map]
    congr 1
    funext id
    exact h.eq_of_notMem (by simp [hnil, ids])
  · have hfail : backend s tx.buildOps.1 = ((backend s tx.buildOps.1).1, none) :=
      Prod.ext rfl hrej.rejects
    rw [hfail]
    simp only [Except.map]
    congr 1
    rw [← h.writeAll_inverse hrej.own]
    exact content_replayInto h.nodup_inverse _

end FabPcb.StoreTransaction
