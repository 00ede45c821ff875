import FabPcb.ItemStore
import FabPcb.Document
import FabPcb.Errors
import Mathlib.Data.List.ReduceOption

/-!
`model/commit.ts`: from the calls on a commit to the requests it sends.

A call is split into ops by the container each input belongs to, the ops wait in a queue,
and the flush merges consecutive ops with one key into one request. The rows of the reply
become the results, which are sliced back per op and joined per call.
-/

namespace FabPcb.CommitOps

open OrderedMap Items ItemStore Document Errors

variable {P : Type*}

/-! ### Messages -/

/-- What the pipeline reads of a `SchematicSymbol`. -/
structure Symbol (P : Type*) where
  libraryId : String
  definition : Option P
  reference : String

/-- What the pipeline does to messages, encoded or not: wrapping one, assigning an id, and
for placed symbols reading, comparing and dropping the library definition. -/
structure Codec (P : Type*) where
  wrapAny : P → Option (Item P)
  typeUrl : P → String
  setId : P → String → P
  symbol : P → Option (Symbol P)
  sameDefinition : P → P → Bool
  dropDefinition : P → P

/-- `ItemInput`. -/
inductive ItemInput (P : Type*) where
  | item (w : Item P)
  | message (p : P)

def toWrapper (codec : Codec P) : ItemInput P → Except ClientError (Item P)
  | .item w => .ok w
  | .message p =>
    match codec.wrapAny p with
    | some w => .ok w
    | none => .error (.error ("cannot wrap item of type " ++ codec.typeUrl p))

/-! ### Ops and their keys -/

structure Op (P : Type*) where
  kind : OpKind
  scope : ItemScope
  key : String
  wrappers : List (Item P)
  anys : List P
  ids : List String
  deriving DecidableEq

/-- `NEEDS_CONTAINER`: item types addressed through their parent container on a board. -/
def needsContainer : List KiCadObjectType := [.KOT_PCB_PAD, .KOT_PCB_FIELD, .KOT_PCB_TABLECELL]

def scopeKey (scope : ItemScope) : String :=
  scope.container.join.getD "" ++ "|" ++ sheetPathKey scope.sheetPath.join

def scopeFor (base : ItemScope) (item : Option (Item P)) (scope : Option ItemScope) : ItemScope :=
  let s := base.spread (scope.getD {})
  match item with
  | none => s
  | some item =>
    if (truthy s.container.join).isNone ∧ item.type ∈ needsContainer then
      match truthy item.parent with
      | some parent => { s with container := some (some parent) }
      | none => s
    else s

/-- The op one listed input makes: its wrapper, if it has one, and the id sent for it. -/
def entry (kind : OpKind) (s : ItemScope) (w : Option (Item P)) (id : String) : Op P where
  kind := kind
  scope := s
  key := kind.name ++ "|" ++ scopeKey s
  wrappers := w.toList
  anys := if kind = .delete then [] else (w.map (·.proto)).toList
  ids := [id]

/-- An input joins the op opened for its key. -/
def Op.push (op new : Op P) : Op P where
  kind := op.kind
  scope := op.scope
  key := op.key
  wrappers := op.wrappers ++ new.wrappers
  anys := op.anys ++ new.anys
  ids := op.ids ++ new.ids

/-- One turn of the loop of `enqueue` over its `groups`. -/
def pushInto (groups : List (Op P)) (new : Op P) : List (Op P) :=
  if new.key ∈ groups.map (·.key) then
    groups.map fun op => if op.key = new.key then op.push new else op
  else groups ++ [new]

/-- The list `enqueue` walks: the wrappers, or one `undefined` for each id. -/
def walked (wrappers : List (Item P)) (ids : Option (List String)) : List (Option (Item P)) :=
  if wrappers.isEmpty then (ids.getD []).map fun _ => none else wrappers.map some

/-- The id pushed for the `i`-th element walked: `ids ? ids[i]! : w!.id`. -/
def idAt (ids : Option (List String)) (w : Option (Item P)) (i : ℕ) : String :=
  match ids with
  | some ids => ids.getD i ""
  | none => (w.map (·.id)).getD ""

def entries (kind : OpKind) (base : ItemScope) (wrappers : List (Item P))
    (scope : Option ItemScope) (ids : Option (List String)) : List (Op P) :=
  (walked wrappers ids).zipIdx.map fun e => entry kind (scopeFor base e.1 scope) e.1 (idAt ids e.1 e.2)

/-- `enqueue`: the ops a call appends to the queue. -/
def enqueue (kind : OpKind) (base : ItemScope) (wrappers : List (Item P))
    (scope : Option ItemScope) (ids : Option (List String)) : List (Op P) :=
  (entries kind base wrappers scope ids).foldl pushInto []

/-! ### Calls -/

/-- `create`: wrappers without an id that can carry one get a fresh one each. -/
def assignIds (codec : Codec P) : List String → List (Item P) → List (Item P)
  | uuid :: uuids, w :: ws =>
    if w.id = "" ∧ w.hasIdField then
      { w with id := uuid, proto := codec.setId w.proto uuid } :: assignIds codec uuids ws
    else w :: assignIds codec (uuid :: uuids) ws
  | _, ws => ws

/-- What is passed to `delete`: a wrapper or a KIID. -/
inductive DeleteInput (P : Type*) where
  | item (w : Item P)
  | kiid (id : String)

def DeleteInput.wrapper : DeleteInput P → Option (Item P)
  | .item w => some w
  | .kiid _ => none

def DeleteInput.id : DeleteInput P → String
  | .item w => w.id
  | .kiid id => id

/-- A call that got past `toWrapper`, with the fresh ids a `create` draws. -/
inductive ItemCall (P : Type*) where
  | create (items : List (Item P)) (uuids : List String) (scope : Option ItemScope)
  | update (items : List (Item P)) (scope : Option ItemScope)
  | delete (items : List (DeleteInput P)) (scope : Option ItemScope)

/-- The ops a call on a commit with scope `base` appends to the queue. -/
def ItemCall.ops (codec : Codec P) (base : ItemScope) : ItemCall P → List (Op P)
  | .create items uuids scope => enqueue .create base (assignIds codec uuids items) scope none
  | .update items scope => enqueue .update base items scope none
  | .delete items scope =>
    enqueue .delete base (items.filterMap DeleteInput.wrapper) scope
      (some (items.map DeleteInput.id))

/-! ### The flush -/

/-- The op sent for a batch. -/
def merge (first : Op P) (batch : List (Op P)) : Op P :=
  { first with
    wrappers := batch.flatMap (·.wrappers)
    anys := batch.flatMap (·.anys)
    ids := batch.flatMap (·.ids) }

/-- What one turn of the flush takes off the queue: the first op, the ops of its key right
behind it, and what stays. -/
def takeBatch : List (Op P) → Option (List (Op P) × List (Op P))
  | [] => none
  | first :: queue =>
    some (first :: queue.takeWhile (·.key = first.key), queue.dropWhile (·.key = first.key))

/-- `results.slice(offset, offset + n)` for each op of a batch. -/
def slices {R : Type*} (results : List R) (offset : ℕ) : List ℕ → List (List R)
  | [] => []
  | n :: ns => (results.drop offset).take n :: slices results (offset + n) ns

def splitResults {R : Type*} (batch : List (Op P)) (results : List R) : List (List R) :=
  slices results 0 (batch.map (·.ids.length))

/-- What a call resolves to: the result of its one op, or those of its ops flattened. -/
def joinParts {R : Type*} : List (List R) → List R
  | [part] => part
  | parts => parts.flatten

/-! ### Executing an op -/

/-- A row of the reply to `CreateItems` or `UpdateItems`; `code` and `errorMessage` are those
of its status, if it has one. -/
structure ItemRow (P : Type*) where
  code : Option ItemStatusCode
  errorMessage : Option String
  item : Option P

/-- A row of the reply to `DeleteItems`. -/
structure DeletionRow where
  id : Option String
  status : ItemDeletionStatus

/-- What KiCad answers while an op is executed: to the `GetItemsById` before an update of
placed symbols, and to the request itself, of either form. -/
structure Answers (P : Type*) where
  current : Except ClientError (List (Item P))
  items : Except ClientError (ItemRequestStatus × List (ItemRow P))
  deletions : Except ClientError (ItemRequestStatus × List DeletionRow)

structure DeleteResult where
  id : String
  status : ItemDeletionStatus
  ok : Bool
  deriving DecidableEq

inductive OpResult (P : Type*) where
  | item (canonical : Option (Item P))
  | deletion (r : DeleteResult)

/-- What executing an op comes to after its optimistic change: the change it settles with,
what the commit's lists gain, and the results. -/
structure Executed (P : Type*) where
  settled : DocumentChange P
  created : List (Item P) := []
  updated : List (Item P) := []
  deleted : List String := []
  results : Except ClientError (List (OpResult P))

def Op.change (op : Op P) (commitId : String) (phase : Phase) (items : List (Item P))
    (ids : List String) : DocumentChange P where
  kind := op.kind
  phase := phase
  items := items
  ids := ids
  scope := op.scope
  commitId := commitId

/-- `emit("optimistic", op.wrappers, op.ids)`. -/
def Op.optimistic (op : Op P) (commitId : String) : DocumentChange P :=
  op.change commitId .optimistic op.wrappers op.ids

/-- The `catch` of `execute`. -/
def Op.fail (op : Op P) (commitId : String) (e : ClientError) : Executed P where
  settled := op.change commitId .failed op.wrappers op.ids
  results := .error e

def refusal (symbol : Symbol P) (id : String) : String :=
  "cannot update the library definition of placed symbol " ++
    (if symbol.reference = "" then id else symbol.reference) ++
    "; replace the inspected symbol instead. Instance updates support position, rotation, " ++
    "mirror, fields and value."

/-- A definition is sent, and is not the one of the placed symbol. -/
def definitionChanged (codec : Codec P) : Option P → Option P → Bool
  | none, _ => false
  | some _, none => true
  | some d, some d' => !codec.sameDefinition d d'

/-- `instanceUpdates`, for one message: a placed symbol loses its definition on the way, and
may not change it. -/
def instanceUpdate (codec : Codec P) (current : OMap String (Item P)) (any : P) :
    Except ClientError P :=
  match codec.wrapAny any, codec.symbol any with
  | some item, some symbol =>
    match (current.get? item.id).bind fun before => codec.symbol before.proto with
    | none => .ok any
    | some before =>
      if (symbol.libraryId ≠ "" ∧ symbol.libraryId ≠ before.libraryId) ∨
          definitionChanged codec symbol.definition before.definition then
        .error (.error (refusal symbol item.id))
      else .ok (codec.dropDefinition any)
  | _, _ => .ok any

def instanceUpdates (codec : Codec P) (current : Except ClientError (List (Item P)))
    (anys : List P) : Except ClientError (List P) :=
  if anys.all fun any => (codec.wrapAny any).isNone || (codec.symbol any).isNone then .ok anys
  else do
    let items ← current
    anys.mapM (instanceUpdate codec (OMap.ofList (items.map fun item => (item.id, item))))

/-- The status of a row, `ISC_UNKNOWN` when it has none. -/
def ItemRow.status (row : ItemRow P) : ItemStatusCode := row.code.getD .ISC_UNKNOWN

/-- The message of an accepted row. -/
def ItemRow.accepted (row : ItemRow P) : Option P :=
  if row.status = .ISC_OK then row.item else none

/-- The canonical item of the `i`-th row, if it is accepted. -/
def canonicalAt (codec : Codec P) (op : Op P) (i : ℕ) (row : ItemRow P) : Option (Item P) :=
  row.accepted.bind fun any => (codec.wrapAny any).or op.wrappers[i]?

/-- What is reported of the `i`-th row when it is rejected. -/
def failureAt (op : Op P) (i : ℕ) (row : ItemRow P) : Option ItemFailure :=
  match row.accepted with
  | some _ => none
  | none => some
    { id := op.ids.getD i ""
      index := i
      code := row.status.code
      codeName := row.status.name
      message := row.errorMessage.getD "" }

def canonicalRows (codec : Codec P) (op : Op P) (rows : List (ItemRow P)) :
    List (Option (Item P)) :=
  rows.zipIdx.map fun e => canonicalAt codec op e.2 e.1

def deleteResults (op : Op P) (rows : List DeletionRow) : List DeleteResult :=
  let byId : OMap String ItemDeletionStatus :=
    OMap.ofList (rows.map fun r => (r.id.getD "", r.status))
  op.ids.map fun id =>
    let status := (byId.get? id).getD .IDS_UNKNOWN
    { id, status, ok := status = .IDS_OK }

def deletionFailures (results : List DeleteResult) : List ItemFailure :=
  (results.filter fun r => !r.ok).zipIdx.map fun e =>
    { id := e.1.id, index := e.2, code := e.1.status.code, codeName := e.1.status.name,
      message := "" }

/-- The `DeleteItems` half of `execute`. -/
def executeDelete (commitId : String) (strict : Bool) (op : Op P)
    (reply : Except ClientError (ItemRequestStatus × List DeletionRow)) : Executed P :=
  match checkStatus "DeleteItems" reply with
  | .error e => op.fail commitId e
  | .ok rows =>
    let results := deleteResults op rows
    let failures := deletionFailures results
    if !failures.isEmpty ∧ strict then
      op.fail commitId (.itemError "DeleteItems" failures .IRS_OK)
    else
      let deletedIds := (results.filter (·.ok)).map (·.id)
      { settled := op.change commitId .applied [] deletedIds
        deleted := deletedIds
        results := .ok (results.map .deletion) }

/-- The `CreateItems` / `UpdateItems` half of `execute`. -/
def executeItems (codec : Codec P) (commitId : String) (strict : Bool) (op : Op P)
    (reply : Except ClientError (ItemRequestStatus × List (ItemRow P))) : Executed P :=
  let command := if op.kind = .create then "CreateItems" else "UpdateItems"
  match checkStatus command reply with
  | .error e => op.fail commitId e
  | .ok rows =>
    let canonical := canonicalRows codec op rows
    let failures := rows.zipIdx.filterMap fun e => failureAt op e.2 e.1
    if !failures.isEmpty ∧ strict then
      op.fail commitId (.itemError command failures .IRS_OK)
    else
      let ok := canonical.reduceOption
      { settled := op.change commitId .applied ok (ok.map (·.id))
        created := if op.kind = .create then ok else []
        updated := if op.kind = .create then [] else ok
        results := .ok (canonical.map .item) }

/-- The items a request carries: for an update, after `instanceUpdates`. -/
def requestItems (codec : Codec P) (op : Op P) (answers : Answers P) : Except ClientError (List P) :=
  if op.kind = .update then instanceUpdates codec answers.current op.anys else .ok op.anys

/-- `execute`, from its optimistic change on. -/
def execute (codec : Codec P) (commitId : String) (strict : Bool) (op : Op P)
    (answers : Answers P) : Executed P :=
  if op.kind = .delete then executeDelete commitId strict op answers.deletions
  else match requestItems codec op answers with
    | .error e => op.fail commitId e
    | .ok _ => executeItems codec commitId strict op answers.items

/-! ### Recovering a failed commit -/

/-- What KiCad answers while a failed commit is recovered: to `EndCommit(CMA_DROP)`, to
`GetUndoStack`, of which only the commit id of the newest entry is read, and to `Undo`. -/
structure RecoveryAnswers where
  drop : Except ClientError Unit
  newest : Except ClientError (Option String)
  applied : Except ClientError ℕ

/-- `failAndRecover`, once the queue is drained: the error it raises. -/
def failAndRecover (commitId : String) (cause : ClientError) (answers : RecoveryAnswers) :
    ClientError :=
  let unconfirmed := ClientError.commitRecovery commitId cause
  if commitId = "" then
    unconfirmed (.error "one-shot operation has no native transaction to revert")
  else match answers.drop with
    | .ok _ => .commitDropped commitId cause .dropped
    | .error _ =>
      match answers.newest with
      | .error e => unconfirmed e
      | .ok newest =>
        if newest ≠ some commitId then
          unconfirmed (.error ("failed transaction is not the newest native undo entry; " ++
            "refusing to undo other work"))
        else match answers.applied with
          | .error e => unconfirmed e
          | .ok applied =>
            if applied ≠ 1 then
              unconfirmed (.error "native undo did not confirm reverting the failed transaction")
            else .commitDropped commitId cause .undone

end FabPcb.CommitOps
