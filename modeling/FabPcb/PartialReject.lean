import FabPcb.Execution

/-!
An op whose reply rejects some of its items, in a commit that is not strict.

The op is applied with the items KiCad accepted and nothing is said of the others: what was
sent for them stays, and the inverse stays under the key of the request unless the accepted
ids spell the same key.
-/

namespace FabPcb.PartialReject

open OrderedMap Writes Items ItemStore StoreContent
open Document Errors Undo Sync CommitOps Execution

variable {P : Type*}

/-! ### Ops list the ids of their items -/

/-- The ids of a creation or an update are those of its wrappers. -/
def Listed (op : Op P) : Prop := op.kind ≠ .delete → op.ids = op.wrappers.map (·.id)

/-! ### Following an op -/

/-- The version a rejected item is to have: none if it was to be created, else what it had. -/
def prior (d : DocumentSync P) (op : Op P) (id : String) : Option (StoredItem P) :=
  if op.kind = .create then none else d.content id

/-- The sync has followed an op: what KiCad confirmed is in the store, what it rejected is as
it was before, and no inverse of the op is kept. -/
structure Converged (d d' : DocumentSync P) (commitId : String) (op : Op P) (c : Confirmed P) :
    Prop where
  canonical : ∀ it ∈ c.items, d'.content it.id = some (toStoredItem it)
  deleted : op.kind = .delete → ∀ id ∈ c.ids, d'.content id = none
  rejected : ∀ id ∈ c.rejected, d'.content id = prior d op id
  forgotten : d'.pending.get? (key (op.optimistic commitId)) = none

/-- A reply whose accepted ids spell the ids of the request, whose items have ids and agree
on each, and whose rejected items were last written as they already were. -/
structure Harmless (d : DocumentSync P) (op : Op P) (c : Confirmed P) : Prop where
  spelt : ",".intercalate c.ids = ",".intercalate op.ids
  own : ∀ it ∈ c.items, it.id ≠ "" ∧
    ∀ it' ∈ c.items, it'.id = it.id → toStoredItem it' = toStoredItem it
  kept : ∀ id ∈ c.rejected, id ≠ "" →
    lastWrite (sentWrites op ++ c.writes op) id = some (prior d op id)

variable {codec : Codec P} {d : DocumentSync P} {op : Op P} {answers : Answers P} {c : Confirmed P}

lemma confirmed_cases (hc : confirmed codec op answers = some c) :
    (op.kind = .delete ∧ ∃ rows, c = confirmedDeletions op rows) ∨
    (op.kind ≠ .delete ∧ ∃ status rows, answers.items = .ok (status, rows) ∧
      c = confirmedItems codec op rows) := by
  unfold confirmed at hc
  split_ifs at hc with hk
  · obtain ⟨rows, -, rfl⟩ := Option.map_eq_some_iff.mp hc
    exact Or.inl ⟨hk, rows, rfl⟩
  · rcases hr : requestItems codec op answers with e | anys
    · simp [hr] at hc
    · simp only [hr] at hc
      obtain ⟨rows, hrows, rfl⟩ := Option.map_eq_some_iff.mp hc
      rcases hi : answers.items with e | ⟨status, rows'⟩
      · simp [hi, replyRows] at hrows
      · simp only [hi, replyRows, Option.ite_none_right_eq_some, Option.some.injEq] at hrows
        exact Or.inr ⟨hk, status, rows', rfl, by rw [hrows.2]⟩

lemma rejected_mem (hc : confirmed codec op answers = some c) {id : String}
    (h : id ∈ c.rejected) (hne : id ≠ "") : id ∈ op.ids := by
  obtain ⟨-, rows, rfl⟩ | ⟨-, status, rows, -, rfl⟩ := confirmed_cases hc
  · exact (List.mem_filter.mp h).1
  · obtain ⟨failure, hmem, rfl⟩ := List.mem_map.mp h
    obtain ⟨⟨row, i⟩, -, hf⟩ := List.mem_filterMap.mp hmem
    have hid : failure.id = op.ids.getD i "" := by
      unfold failureAt at hf
      cases hrow : row.accepted with
      | some any => simp [hrow] at hf
      | none =>
        simp only [hrow, Option.some.injEq] at hf
        rw [← hf]
    rw [hid, List.getD_eq_getElem?_getD] at hne ⊢
    cases hi : op.ids[i]? with
    | none => simp [hi] at hne
    | some id => exact List.mem_of_getElem? hi

lemma mem_sentWrites (hl : Listed op) {id : String} (h : id ∈ op.ids) (hne : id ≠ "") :
    id ∈ (sentWrites op).map Prod.fst := by
  have hids := changeIds_eq (op.optimistic "")
  unfold changeIds at hids
  unfold sentWrites
  rw [hids]
  have hitems : op.kind ≠ .delete → id ∈ (storedItems op.wrappers).map (·.id) := by
    intro hk
    rw [storedItems_ids, List.mem_filter]
    exact ⟨hl hk ▸ h, by simpa using hne⟩
  simp only [toPatch, Op.optimistic, Op.change]
  cases hk : op.kind with
  | create => simpa [StorePatch.ids] using hitems (by simp [hk])
  | update => simpa [StorePatch.ids] using hitems (by simp [hk])
  | delete => simpa [StorePatch.ids] using h

lemma writes_delete (hk : op.kind = .delete) :
    c.writes op = c.ids.map fun id => (id, none) := by
  simp [Confirmed.writes, changeWrites, toPatch, Op.change, hk, StorePatch.writes]

lemma writes_items (hk : op.kind ≠ .delete) :
    c.writes op = (storedItems c.items).map fun it => (it.id, some it) := by
  cases hkind : op.kind with
  | create => simp [Confirmed.writes, changeWrites, toPatch, Op.change, hkind, StorePatch.writes]
  | update => simp [Confirmed.writes, changeWrites, toPatch, Op.change, hkind, StorePatch.writes]
  | delete => exact absurd hkind hk

lemma items_delete (hc : confirmed codec op answers = some c) (hk : op.kind = .delete) :
    c.items = [] := by
  obtain ⟨-, rows, rfl⟩ | ⟨hk', -⟩ := confirmed_cases hc
  · rfl
  · exact absurd hk hk'

lemma settleOp_applied {commitId : String} (hc : confirmed codec op answers = some c) :
    settleOp codec commitId false d (op, answers) =
      onChange (onChange d (op.optimistic commitId)) (op.change commitId .applied c.items c.ids) := by
  unfold settleOp
  rw [settled_execute, hc]
  simp [settledBy]

/-- The inverse of an applied op is forgotten when its ids spell those of the request. -/
lemma forgotten_iff {commitId : String} (hd : Following d)
    (hc : confirmed codec op answers = some c) :
    (settleOp codec commitId false d (op, answers)).pending.get? (key (op.optimistic commitId)) =
      none ↔ ",".intercalate c.ids = ",".intercalate op.ids := by
  obtain ⟨-, hsent⟩ := onChange_optimistic hd.loaded (c := op.optimistic commitId) rfl
  obtain ⟨-, happlied⟩ := onChange_applied (hd.onChange (op.optimistic commitId)).loaded
    (c := op.change commitId .applied c.items c.ids) rfl
  rw [settleOp_applied hc, happlied, hsent, OMap.get?_delete]
  have hkey : key (op.optimistic commitId) = key (op.change commitId .applied c.items c.ids) ↔
      ",".intercalate op.ids = ",".intercalate c.ids := by
    constructor
    · intro h
      have hl := congrArg String.toList h
      simp only [key, Op.optimistic, Op.change, String.toList_append,
        List.append_cancel_left_eq] at hl
      exact String.toList_injective hl
    · intro h
      simp [key, Op.optimistic, Op.change, h]
  by_cases h : ",".intercalate op.ids = ",".intercalate c.ids
  · rw [if_pos (hkey.mpr h)]
    exact iff_of_true rfl h.symm
  · rw [if_neg (mt hkey.mp h)]
    exact iff_of_false (by simp) fun h' => h h'.symm

/-- The canonical items are all in the store when they have ids and agree on each. -/
lemma canonical_iff {m : Content P} (hm : writeAll m (c.writes op) "" = none)
    (hk : op.kind ≠ .delete) :
    (∀ it ∈ c.items, writeAll m (c.writes op) it.id = some (toStoredItem it)) ↔
      ∀ it ∈ c.items, it.id ≠ "" ∧
        ∀ it' ∈ c.items, it'.id = it.id → toStoredItem it' = toStoredItem it := by
  constructor
  · intro h it hit
    have hval := h it hit
    refine ⟨fun hid => ?_, fun it' hit' he => ?_⟩
    · rw [hid, hm] at hval
      cases hval
    · have hval' := h it' hit'
      rw [he, hval] at hval'
      exact (Option.some.inj hval').symm
  · intro h it hit
    obtain ⟨hne, hown⟩ := h it hit
    have hstored : toStoredItem it ∈ storedItems c.items :=
      List.mem_map.mpr ⟨it, List.mem_filter.mpr ⟨hit, by simpa using hne⟩, rfl⟩
    have hmem : it.id ∈ (c.writes op).map Prod.fst := by
      rw [writes_items hk, List.map_map]
      exact List.mem_map.mpr ⟨_, hstored, rfl⟩
    obtain ⟨v, hv⟩ := Option.isSome_iff_exists.mp (lastWrite_isSome_iff.mpr hmem)
    have hw := mem_of_lastWrite hv
    rw [writes_items hk] at hw
    obtain ⟨stored, hstored', he⟩ := List.mem_map.mp hw
    obtain ⟨it', hit', rfl⟩ := List.mem_map.mp hstored'
    obtain ⟨hid, rfl⟩ := Prod.mk.inj he
    rw [writeAll_apply, hv, Option.getD_some, hown it' (List.mem_filter.mp hit').1 hid]

/-- **When a partly rejected op converges.** -/
theorem converged_iff {commitId : String} (hd : Following d) (hl : Listed op)
    (hc : confirmed codec op answers = some c) :
    Converged d (settleOp codec commitId false d (op, answers)) commitId op c ↔
      Harmless d op c := by
  have hcontent : (settleOp codec commitId false d (op, answers)).content =
      writeAll d.content (sentWrites op ++ c.writes op) := by
    rw [content_settleOp hd]
    simp [leftWrites, hc]
  have hempty : (settleOp codec commitId false d (op, answers)).content "" = none :=
    (following_settleOp hd (op, answers)).noEmptyId
  -- each field on its own
  have hdeleted : op.kind = .delete → ∀ id ∈ c.ids,
      (settleOp codec commitId false d (op, answers)).content id = none := by
    intro hk id hid
    have hmem : id ∈ (c.writes op).map Prod.fst := by simpa [writes_delete hk] using hid
    obtain ⟨v, hv⟩ := Option.isSome_iff_exists.mp (lastWrite_isSome_iff.mpr hmem)
    have hnone : v = none := by
      have hw := mem_of_lastWrite hv
      rw [writes_delete hk] at hw
      obtain ⟨id', -, he⟩ := List.mem_map.mp hw
      exact (Prod.mk.inj he).2.symm
    rw [hcontent, writeAll_apply, lastWrite_append, hv, hnone]
    rfl
  have hcanonical : (∀ it ∈ c.items,
      (settleOp codec commitId false d (op, answers)).content it.id = some (toStoredItem it)) ↔
      ∀ it ∈ c.items, it.id ≠ "" ∧
        ∀ it' ∈ c.items, it'.id = it.id → toStoredItem it' = toStoredItem it := by
    rw [hcontent, writeAll_append] at hempty ⊢
    by_cases hk : op.kind = .delete
    · simp [items_delete hc hk]
    · exact canonical_iff hempty hk
  have hrejected : (∀ id ∈ c.rejected,
      (settleOp codec commitId false d (op, answers)).content id = prior d op id) ↔
      ∀ id ∈ c.rejected, id ≠ "" →
        lastWrite (sentWrites op ++ c.writes op) id = some (prior d op id) := by
    refine forall₂_congr fun id hid => ?_
    by_cases hne : id = ""
    · subst hne
      rw [hempty]
      refine iff_of_true ?_ fun h => absurd rfl h
      unfold prior
      split_ifs
      · rfl
      · exact hd.noEmptyId.symm
    · have hmem : id ∈ (sentWrites op ++ c.writes op).map Prod.fst := by
        rw [List.map_append, List.mem_append]
        exact Or.inl (mem_sentWrites hl (rejected_mem hc hid hne) hne)
      obtain ⟨v, hv⟩ := Option.isSome_iff_exists.mp (lastWrite_isSome_iff.mpr hmem)
      rw [hcontent, writeAll_apply, hv, Option.some.injEq]
      exact ⟨fun h _ => h, fun h => h hne⟩
  constructor
  · intro h
    exact ⟨(forgotten_iff hd hc).mp h.forgotten, hcanonical.mp h.canonical, hrejected.mp h.rejected⟩
  · intro h
    exact ⟨hcanonical.mpr h.own, hdeleted, hrejected.mpr h.kept, (forgotten_iff hd hc).mpr h.spelt⟩

/-! ### Ids without commas -/

/-- What KiCad uses as an id: not empty, and without the comma the key joins ids with. -/
def Kiid (id : String) : Prop := id ≠ "" ∧ ',' ∉ id.toList

/-! ### Updating two tracks -/

/-- A track whose message is its id and its layer. -/
def track (id layer : String) : Item (String × String) :=
  ⟨id, true, .KOT_PCB_TRACE, some layer, none, none, (id, layer)⟩

def trackCodec : Codec (String × String) where
  wrapAny := fun any => some (track any.1 any.2)
  typeUrl := fun _ => "type.googleapis.com/kiapi.board.types.Track"
  setId := fun any id => (id, any.2)
  symbol := fun _ => none
  sameDefinition := fun _ _ => true
  dropDefinition := id

/-- A board of two tracks on the front layer, loaded at revision 1. -/
def board : DocumentSync (String × String) :=
  DocumentSync.new.load
    { items := [track "t1" "BL_F_Cu", track "t2" "BL_F_Cu"], deletedIds := [], revision := 1,
      full := true }

/-- The update that moves both to the back, and a reply that reports a status of each. -/
def moves (code₁ code₂ : ItemStatusCode) : Op (String × String) × Answers (String × String) :=
  ({ kind := .update, scope := {}, key := "update||"
     wrappers := [track "t1" "BL_B_Cu", track "t2" "BL_B_Cu"]
     anys := [("t1", "BL_B_Cu"), ("t2", "BL_B_Cu")], ids := ["t1", "t2"] },
   { current := .ok []
     items := .ok (.IRS_OK,
       [{ code := some code₁, errorMessage := none, item := some ("t1", "BL_B_Cu") },
        { code := some code₂, errorMessage := none, item := some ("t2", "BL_B_Cu") }])
     deletions := .ok (.IRS_OK, []) })

/-- Both are accepted. -/
theorem converged_accepted :
    Converged board (settleOp trackCodec "" false board (moves .ISC_OK .ISC_OK)) ""
      (moves .ISC_OK .ISC_OK).1
      ⟨[track "t1" "BL_B_Cu", track "t2" "BL_B_Cu"], ["t1", "t2"], []⟩ :=
  (converged_iff (following_load _) (fun _ => rfl) rfl).mpr ⟨rfl, by decide, by decide⟩

/-- The second is rejected: the store keeps it on the back, and its inverse stays pending. -/
theorem rejected_not_converged :
    confirmed trackCodec (moves .ISC_OK .ISC_IMMUTABLE).1 (moves .ISC_OK .ISC_IMMUTABLE).2 =
      some ⟨[track "t1" "BL_B_Cu"], ["t1"], ["t2"]⟩ ∧
    ¬ Converged board (settleOp trackCodec "" false board (moves .ISC_OK .ISC_IMMUTABLE)) ""
      (moves .ISC_OK .ISC_IMMUTABLE).1 ⟨[track "t1" "BL_B_Cu"], ["t1"], ["t2"]⟩ := by
  refine ⟨rfl, fun h => ?_⟩
  have ht := h.rejected "t2" (by decide)
  revert ht
  decide

end FabPcb.PartialReject
