import FabPcb.Execution

/-!
A commit that ends with `CommitDroppedError`, seen from the store.

`failAndRecover` has KiCad revert the commit and raises the error; it emits nothing, so
the ops applied before stay in the store as they are. The store is back at what it held
before the commit exactly when those ops, taken together, changed nothing.
-/

namespace FabPcb.DroppedCommit

open OrderedMap Writes Items ItemStore StoreContent
open Document Errors Sync CommitOps Execution

variable {P : Type*}

/-- A commit that is recovered: the ops executed one after the other until the error is
raised, with KiCad's answers, and the op sent while the recovery waits, if there is one. -/
structure FailedCommit (P : Type*) where
  id : String
  strict : Bool
  executed : List (Op P × Answers P)
  inFlight : Option (Op P)
  cause : ClientError
  recovery : RecoveryAnswers

/-- The error raised. -/
def FailedCommit.error (c : FailedCommit P) : ClientError := failAndRecover c.id c.cause c.recovery

/-- The sync once the error is raised. -/
def FailedCommit.sync (codec : Codec P) (c : FailedCommit P) (d : DocumentSync P) :
    DocumentSync P :=
  let d := c.executed.foldl (settleOp codec c.id c.strict) d
  match c.inFlight with
  | some op => onChange d (op.optimistic c.id)
  | none => d

/-- What the commit leaves written: what each applied op sent and was confirmed, and what the
op in flight sent. -/
def FailedCommit.writes (codec : Codec P) (c : FailedCommit P) :
    List (String × Option (StoredItem P)) :=
  c.executed.flatMap (leftWrites codec c.strict) ++ (c.inFlight.map sentWrites).getD []

/-! ### The store of a dropped commit -/

variable {codec : Codec P} {d : DocumentSync P}

/-- **Run**: the ops executed leave their writes, one after the other. -/
lemma content_executed (codec : Codec P) (commitId : String) (strict : Bool) (hd : Following d)
    (executed : List (Op P × Answers P)) :
    Following (executed.foldl (settleOp codec commitId strict) d) ∧
    (executed.foldl (settleOp codec commitId strict) d).content =
      writeAll d.content (executed.flatMap (leftWrites codec strict)) := by
  induction executed generalizing d with
  | nil => exact ⟨hd, rfl⟩
  | cons x executed ih =>
    obtain ⟨hfollowing, hcontent⟩ := ih (following_settleOp hd x)
    refine ⟨hfollowing, ?_⟩
    rw [List.foldl_cons, hcontent, content_settleOp hd, List.flatMap_cons, writeAll_append]

lemma content_sync (hd : Following d) (c : FailedCommit P) :
    (c.sync codec d).content = writeAll d.content (c.writes codec) := by
  obtain ⟨hfollowing, hcontent⟩ := content_executed codec c.id c.strict hd c.executed
  unfold FailedCommit.sync FailedCommit.writes
  cases c.inFlight with
  | none =>
    rw [Option.map_none, Option.getD_none, List.append_nil]
    exact hcontent
  | some op =>
    rw [writeAll_append, ← hcontent]
    exact (onChange_optimistic hfollowing.loaded rfl).1

lemma onChange_of_not_loaded (hd : d.loaded = false) (c : DocumentChange P) : onChange d c = d := by
  simp [onChange, hd]

lemma sync_of_not_loaded (hd : d.loaded = false) (c : FailedCommit P) : c.sync codec d = d := by
  have hrun : ∀ executed : List (Op P × Answers P),
      executed.foldl (settleOp codec c.id c.strict) d = d := by
    intro executed
    induction executed with
    | nil => rfl
    | cons x executed ih => rw [List.foldl_cons, settleOp, onChange_of_not_loaded hd,
        onChange_of_not_loaded hd, ih]
  unfold FailedCommit.sync
  rw [hrun]
  cases c.inFlight with
  | none => rfl
  | some op => exact onChange_of_not_loaded hd _

/-- **When a dropped commit leaves the store as it was**: every id the commit wrote was last
written the version it already held. -/
theorem restored_iff (hd : d.loaded = true → Following d) (c : FailedCommit P)
    (_ : c.error.isCommitDropped = true) :
    (c.sync codec d).content = d.content ↔
      (d.loaded = true → ∀ id v, lastWrite (c.writes codec) id = some v → v = d.content id) := by
  cases hl : d.loaded with
  | false => simp [sync_of_not_loaded hl]
  | true =>
    rw [content_sync (hd hl), writeAll_eq_self_iff]
    simp

/-! ### Moving a track in a commit that is dropped -/

/-- A track whose message is its layer. -/
def track (layer : String) : Item String :=
  ⟨"t", true, .KOT_PCB_TRACE, some layer, none, none, layer⟩

def trackCodec : Codec String where
  wrapAny := fun layer => some (track layer)
  typeUrl := fun _ => "type.googleapis.com/kiapi.board.types.Track"
  setId := fun layer _ => layer
  symbol := fun _ => none
  sameDefinition := fun _ _ => true
  dropDefinition := id

/-- A board of one track on the front layer, loaded at revision 1. -/
def board : DocumentSync String :=
  DocumentSync.new.load { items := [track "BL_F_Cu"], deletedIds := [], revision := 1, full := true }

/-- The update that moves the track to the back, and a reply that reports a status of it. -/
def move (code : ItemStatusCode) : Op String × Answers String :=
  ({ kind := .update, scope := {}, key := "update||", wrappers := [track "BL_B_Cu"],
     anys := ["BL_B_Cu"], ids := ["t"] },
   { current := .ok []
     items := .ok (.IRS_OK, [{ code := some code, errorMessage := none, item := some "BL_B_Cu" }])
     deletions := .ok (.IRS_OK, []) })

/-- A commit whose callback throws after one update was answered, and whose drop succeeds. -/
def thrown (code : ItemStatusCode) : FailedCommit String where
  id := "c1"
  strict := true
  executed := [move code]
  inFlight := none
  cause := .error "callback failed"
  recovery := { drop := .ok (), newest := .ok none, applied := .ok 0 }

/-- The update was rejected, so the drop finds the store as it was. -/
theorem restored_rejected : ((thrown .ISC_IMMUTABLE).sync trackCodec board).content = board.content :=
  (restored_iff (fun _ => following_load _) (thrown .ISC_IMMUTABLE) rfl).mpr
    fun _ id v h => by cases h

/-- The update was applied: the commit is dropped and the store keeps the track moved. -/
theorem applied_not_restored :
    (thrown .ISC_OK).error.isCommitDropped = true ∧
    ((thrown .ISC_OK).sync trackCodec board).content ≠ board.content := by
  refine ⟨rfl, fun h => ?_⟩
  have ht := congrFun h "t"
  revert ht
  decide

end FabPcb.DroppedCommit
