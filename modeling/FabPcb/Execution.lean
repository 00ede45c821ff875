import FabPcb.CommitOps
import FabPcb.Sync

/-!
An op executed under a sync.

The flush of a commit executes one op after the other, so between the optimistic change of
an op and the one it settles with, the commit emits nothing else. A failed op takes its
optimistic change back; an applied one leaves both its changes.
-/

namespace FabPcb.Execution

open OrderedMap Writes Items ItemStore StoreContent
open Document Errors Undo Sync CommitOps

variable {P : Type*}

/-! ### What a reply confirms -/

/-- What KiCad confirms of an op whose request it answers: the items and the ids of the
change it is applied with, and the requested ids it rejects. -/
structure Confirmed (P : Type*) where
  items : List (Item P)
  ids : List String
  rejected : List String

/-- The rows of a reply whose request status is fine. -/
def replyRows {α : Type*} (reply : Except ClientError (ItemRequestStatus × α)) : Option α :=
  match reply with
  | .ok (status, rows) => if status = .IRS_OK ∨ status = .IRS_UNKNOWN then some rows else none
  | .error _ => none

/-- The status a reply to `DeleteItems` gives an id. -/
def deletionStatus (rows : List DeletionRow) (id : String) : ItemDeletionStatus :=
  ((OMap.ofList (rows.map fun r => (r.id.getD "", r.status))).get? id).getD .IDS_UNKNOWN

def confirmedDeletions (op : Op P) (rows : List DeletionRow) : Confirmed P where
  items := []
  ids := op.ids.filter fun id => deletionStatus rows id = .IDS_OK
  rejected := op.ids.filter fun id => deletionStatus rows id ≠ .IDS_OK

def confirmedItems (codec : Codec P) (op : Op P) (rows : List (ItemRow P)) : Confirmed P where
  items := (canonicalRows codec op rows).reduceOption
  ids := (canonicalRows codec op rows).reduceOption.map (·.id)
  rejected := (rows.zipIdx.filterMap fun e => failureAt op e.2 e.1).map (·.id)

/-- What is confirmed of an op, if its request can be sent and is accepted as a whole. -/
def confirmed (codec : Codec P) (op : Op P) (answers : Answers P) : Option (Confirmed P) :=
  if op.kind = .delete then (replyRows answers.deletions).map (confirmedDeletions op)
  else match requestItems codec op answers with
    | .error _ => none
    | .ok _ => (replyRows answers.items).map (confirmedItems codec op)

/-- The change an op settles with: in strict mode one rejected item fails it. -/
def settledBy (commitId : String) (strict : Bool) (op : Op P) :
    Option (Confirmed P) → DocumentChange P
  | none => op.change commitId .failed op.wrappers op.ids
  | some c =>
    if strict ∧ c.rejected ≠ [] then op.change commitId .failed op.wrappers op.ids
    else op.change commitId .applied c.items c.ids

variable {codec : Codec P} {commitId : String} {strict : Bool} {d : DocumentSync P}

lemma checkStatus_eq {α : Type*} (command : String)
    (reply : Except ClientError (ItemRequestStatus × α)) :
    (∃ e, checkStatus command reply = .error e ∧ replyRows reply = none) ∨
      ∃ rows, checkStatus command reply = .ok rows ∧ replyRows reply = some rows := by
  rcases reply with e | ⟨status, rows⟩
  · exact Or.inl ⟨e, rfl, rfl⟩
  · by_cases h : status = .IRS_OK ∨ status = .IRS_UNKNOWN
    · refine Or.inr ⟨rows, ?_, by simp [replyRows, h]⟩
      rcases h with rfl | rfl <;> simp [checkStatus]
    · refine Or.inl ⟨.itemError command [] status, ?_, by simp [replyRows, h]⟩
      rw [not_or] at h
      simp [checkStatus, h]

lemma settled_executeDelete (op : Op P)
    (reply : Except ClientError (ItemRequestStatus × List DeletionRow)) :
    (executeDelete commitId strict op reply).settled =
      settledBy commitId strict op ((replyRows reply).map (confirmedDeletions op)) := by
  unfold executeDelete
  obtain ⟨e, h, hrows⟩ | ⟨rows, h, hrows⟩ := checkStatus_eq "DeleteItems" reply
  · rw [h, hrows]; rfl
  · have hids : ((deleteResults op rows).filter (·.ok)).map (·.id) =
        (confirmedDeletions op rows).ids := by
      rw [deleteResults, List.filter_map, List.map_map]
      exact List.map_id _
    have hfail : (deletionFailures (deleteResults op rows)).isEmpty =
        (confirmedDeletions op rows).rejected.isEmpty := by
      have hlen : (deletionFailures (deleteResults op rows)).length =
          (confirmedDeletions op rows).rejected.length := by
        simp only [deletionFailures, deleteResults, confirmedDeletions, List.length_map,
          List.length_zipIdx, List.filter_map, ne_eq, decide_not]
        rfl
      rw [Bool.eq_iff_iff, List.isEmpty_iff_length_eq_zero, List.isEmpty_iff_length_eq_zero, hlen]
    rw [h, hrows]
    simp only [Option.map_some, settledBy, hfail, hids]
    by_cases hr : (confirmedDeletions op rows).rejected = []
    · simp only [hr, List.isEmpty_nil, Bool.not_true, Bool.false_eq_true, false_and, ↓reduceIte,
        ne_eq, not_true_eq_false, and_false]
      rfl
    · cases strict
      · simp only [Bool.false_eq_true, and_false, false_and, ↓reduceIte]
        rfl
      · simp [hr, Op.fail]

lemma settled_executeItems (op : Op P)
    (reply : Except ClientError (ItemRequestStatus × List (ItemRow P))) :
    (executeItems codec commitId strict op reply).settled =
      settledBy commitId strict op ((replyRows reply).map (confirmedItems codec op)) := by
  simp only [executeItems]
  obtain ⟨e, h, hrows⟩ | ⟨rows, h, hrows⟩ :=
    checkStatus_eq (if op.kind = .create then "CreateItems" else "UpdateItems") reply
  · rw [h, hrows]; rfl
  · rw [h, hrows]
    simp only [Option.map_some, settledBy, confirmedItems, ne_eq, List.map_eq_nil_iff]
    by_cases hr : rows.zipIdx.filterMap (fun e => failureAt op e.2 e.1) = []
    · simp [hr, List.isEmpty_nil, Bool.not_true, Bool.false_eq_true, false_and, ↓reduceIte,
        not_true_eq_false, and_false]
    · cases strict
      · simp [Bool.false_eq_true, and_false, false_and, ↓reduceIte]
      · simp [hr, Op.fail]

/-- **How an op settles**, read off the reply. -/
theorem settled_execute (codec : Codec P) (commitId : String) (strict : Bool) (op : Op P)
    (answers : Answers P) :
    (execute codec commitId strict op answers).settled =
      settledBy commitId strict op (confirmed codec op answers) := by
  unfold execute confirmed
  split_ifs with hk
  · exact settled_executeDelete op answers.deletions
  · rcases requestItems codec op answers with e | anys
    · rfl
    · exact settled_executeItems op answers.items

/-! ### What an executed op leaves -/

/-- The sync after an op was executed: its optimistic change, then the one it settles with. -/
def settleOp (codec : Codec P) (commitId : String) (strict : Bool) (d : DocumentSync P)
    (x : Op P × Answers P) : DocumentSync P :=
  onChange (onChange d (x.1.optimistic commitId)) (execute codec commitId strict x.1 x.2).settled

/-- The items sent, or the ids to delete, as writes. -/
def sentWrites (op : Op P) : List (String × Option (StoredItem P)) :=
  changeWrites (op.optimistic "")

/-- The items confirmed, or the ids deleted, as writes. -/
def Confirmed.writes (c : Confirmed P) (op : Op P) : List (String × Option (StoredItem P)) :=
  changeWrites (op.change "" .applied c.items c.ids)

/-- What an executed op leaves written: nothing if it failed, else what was sent and, over it,
what was confirmed. -/
def leftWrites (codec : Codec P) (strict : Bool) (x : Op P × Answers P) :
    List (String × Option (StoredItem P)) :=
  match confirmed codec x.1 x.2 with
  | none => []
  | some c => if strict ∧ c.rejected ≠ [] then [] else sentWrites x.1 ++ c.writes x.1

lemma key_failed (op : Op P) (commitId : String) :
    key (op.change commitId .failed op.wrappers op.ids) = key (op.optimistic commitId) := rfl

/-- **A failed op leaves no trace** in the content: nothing came between its two changes. -/
lemma content_failed (hd : Following d) (op : Op P) :
    (onChange (onChange d (op.optimistic commitId))
      (op.change commitId .failed op.wrappers op.ids)).content = d.content := by
  obtain ⟨hcontent, hpending⟩ := onChange_optimistic hd.loaded (c := op.optimistic commitId) rfl
  have hd' := hd.onChange (op.optimistic commitId)
  obtain ⟨hfailed, -⟩ := onChange_failed hd'.loaded
    (c := op.change commitId .failed op.wrappers op.ids) rfl
  have hinverse : rollbackWrites (onChange d (op.optimistic commitId))
      (op.change commitId .failed op.wrappers op.ids) =
      StorePatch.writes (inversePatch d.store (toPatch (op.optimistic commitId))) := by
    simp [rollbackWrites, key_failed, hpending]
  rw [hfailed, hinverse, hcontent, changeWrites, DocumentSync.content, ← content_apply,
    ← content_apply]
  exact apply_inversePatch hd.keyed _

lemma content_applied (hd : Following d) (op : Op P) (items : List (Item P)) (ids : List String) :
    (onChange (onChange d (op.optimistic commitId))
      (op.change commitId .applied items ids)).content =
      writeAll d.content (sentWrites op ++ changeWrites (op.change "" .applied items ids)) := by
  obtain ⟨hcontent, -⟩ := onChange_optimistic hd.loaded (c := op.optimistic commitId) rfl
  obtain ⟨happlied, -⟩ := onChange_applied (hd.onChange (op.optimistic commitId)).loaded
    (c := op.change commitId .applied items ids) rfl
  rw [happlied, hcontent, writeAll_append]
  rfl

lemma following_settleOp (hd : Following d) (x : Op P × Answers P) :
    Following (settleOp codec commitId strict d x) :=
  (hd.onChange _).onChange _

/-- **What an executed op does to the content.** -/
theorem content_settleOp (hd : Following d) (x : Op P × Answers P) :
    (settleOp codec commitId strict d x).content =
      writeAll d.content (leftWrites codec strict x) := by
  unfold settleOp leftWrites
  rw [settled_execute]
  cases confirmed codec x.1 x.2 with
  | none => exact content_failed hd x.1
  | some c =>
    simp only [settledBy]
    split_ifs with hf
    · exact content_failed hd x.1
    · exact content_applied hd x.1 c.items c.ids

end FabPcb.Execution
