import Mathlib.Data.List.Basic

/-!
`errors.ts`: what KiCad answered, and the errors the client raises from it.

Status enums are open on the wire, so each has a case for the numbers it does not name.
-/

namespace FabPcb.Errors

inductive ItemRequestStatus where
  | IRS_UNKNOWN | IRS_OK | IRS_DOCUMENT_NOT_FOUND | IRS_FIELD_MASK_INVALID
  | other (n : Int)
  deriving DecidableEq

inductive ItemStatusCode where
  | ISC_UNKNOWN | ISC_OK | ISC_INVALID_TYPE | ISC_EXISTING | ISC_NONEXISTENT | ISC_IMMUTABLE
  | ISC_INVALID_DATA
  | other (n : Int)
  deriving DecidableEq

inductive ItemDeletionStatus where
  | IDS_UNKNOWN | IDS_OK | IDS_NONEXISTENT | IDS_IMMUTABLE
  | other (n : Int)
  deriving DecidableEq

/-- `ItemRequestStatus[status] ?? status`. -/
def ItemRequestStatus.name : ItemRequestStatus → String
  | .IRS_UNKNOWN => "IRS_UNKNOWN"
  | .IRS_OK => "IRS_OK"
  | .IRS_DOCUMENT_NOT_FOUND => "IRS_DOCUMENT_NOT_FOUND"
  | .IRS_FIELD_MASK_INVALID => "IRS_FIELD_MASK_INVALID"
  | .other n => toString n

def ItemStatusCode.name : ItemStatusCode → String
  | .ISC_UNKNOWN => "ISC_UNKNOWN"
  | .ISC_OK => "ISC_OK"
  | .ISC_INVALID_TYPE => "ISC_INVALID_TYPE"
  | .ISC_EXISTING => "ISC_EXISTING"
  | .ISC_NONEXISTENT => "ISC_NONEXISTENT"
  | .ISC_IMMUTABLE => "ISC_IMMUTABLE"
  | .ISC_INVALID_DATA => "ISC_INVALID_DATA"
  | .other n => toString n

def ItemDeletionStatus.name : ItemDeletionStatus → String
  | .IDS_UNKNOWN => "IDS_UNKNOWN"
  | .IDS_OK => "IDS_OK"
  | .IDS_NONEXISTENT => "IDS_NONEXISTENT"
  | .IDS_IMMUTABLE => "IDS_IMMUTABLE"
  | .other n => toString n

/-- The number on the wire. -/
def ItemStatusCode.code : ItemStatusCode → Int
  | .ISC_UNKNOWN => 0
  | .ISC_OK => 1
  | .ISC_INVALID_TYPE => 2
  | .ISC_EXISTING => 3
  | .ISC_NONEXISTENT => 4
  | .ISC_IMMUTABLE => 5
  | .ISC_INVALID_DATA => 7
  | .other n => n

def ItemDeletionStatus.code : ItemDeletionStatus → Int
  | .IDS_UNKNOWN => 0
  | .IDS_OK => 1
  | .IDS_NONEXISTENT => 2
  | .IDS_IMMUTABLE => 3
  | .other n => n

/-- `ItemFailure`: one item KiCad rejected. -/
structure ItemFailure where
  id : String
  index : ℕ
  code : Int
  codeName : String
  message : String
  deriving DecidableEq

/-- How a failed commit was taken back. -/
inductive Recovery where
  | dropped | undone
  deriving DecidableEq

/-- The errors the commit pipeline raises. Those of other layers carry their message. -/
inductive ClientError where
  | error (message : String)
  | itemError (command : String) (failures : List ItemFailure) (requestStatus : ItemRequestStatus)
  | commitDropped (commitId : String) (cause : ClientError) (recovery : Recovery)
  | commitRecovery (commitId : String) (cause recoveryError : ClientError)

def ItemFailure.describe (f : ItemFailure) : String :=
  (if f.id = "" then "#" ++ toString f.index else f.id) ++ " " ++ f.codeName ++
    (if f.message = "" then "" else " (" ++ f.message ++ ")")

def Recovery.name : Recovery → String
  | .dropped => "dropped"
  | .undone => "undone"

/-- `error.message`. -/
def ClientError.message : ClientError → String
  | .error message => message
  | .itemError command failures requestStatus =>
    if failures.isEmpty then command ++ ": request status " ++ requestStatus.name
    else command ++ ": " ++ toString failures.length ++ " item(s) rejected: " ++
      "; ".intercalate ((failures.take 3).map ItemFailure.describe) ++
      (if failures.length > 3 then "; ..." else "")
  | .commitDropped commitId cause recovery =>
    "commit " ++ commitId ++ " " ++ recovery.name ++ ": " ++ cause.message ++
      ". Prior live state restored; pre-existing unsaved work retained."
  | .commitRecovery commitId cause recoveryError =>
    "commit " ++ commitId ++ " failed: " ++ cause.message ++
      ". Rollback could not be confirmed: " ++ recoveryError.message ++
      ". Live document retained; do not save, reload or overwrite it until " ++
      "unsaved work has been preserved."

def ClientError.isCommitDropped : ClientError → Bool
  | .commitDropped .. => true
  | _ => false

/-- `checkStatus`: the rows of a reply whose request as a whole was accepted. -/
def checkStatus {α : Type*} (command : String)
    (reply : Except ClientError (ItemRequestStatus × α)) : Except ClientError α :=
  match reply with
  | .error e => .error e
  | .ok (status, rows) =>
    if status ≠ .IRS_OK ∧ status ≠ .IRS_UNKNOWN then .error (.itemError command [] status)
    else .ok rows

end FabPcb.Errors
