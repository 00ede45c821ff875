import FabPcb.Items

/-!
`model/document.ts`: scopes, the headers item requests carry, and the changes a document
emits so that stores can follow along.
-/

namespace FabPcb.Document

open Items

structure SheetPath where
  path : List String
  pathHumanReadable : String
  deriving DecidableEq

/-- `ItemScope`. A property can be absent, present as `undefined`, or have a value. -/
structure ItemScope where
  container : Option (Option String) := none
  sheetPath : Option (Option SheetPath) := none
  deriving DecidableEq

/-- `{ ...base, ...scope }`. -/
def ItemScope.spread (base scope : ItemScope) : ItemScope where
  container := scope.container.or base.container
  sheetPath := scope.sheetPath.or base.sheetPath

def sheetPathKey (p : Option SheetPath) : String :=
  match p with
  | some p => "/".intercalate p.path
  | none => ""

inductive DocumentType where
  | DOCTYPE_UNKNOWN | DOCTYPE_SCHEMATIC | DOCTYPE_SYMBOL | DOCTYPE_PCB | DOCTYPE_FOOTPRINT
  | DOCTYPE_DRAWING_SHEET | DOCTYPE_PROJECT
  deriving DecidableEq

structure ProjectSpecifier where
  name : String
  path : String
  deriving DecidableEq

inductive DocumentIdentifier where
  | libId (libraryNickname entryName : String)
  | sheetPath (value : SheetPath)
  | boardFilename (value : String)
  | none
  deriving DecidableEq

structure DocumentSpecifier where
  type : DocumentType
  identifier : DocumentIdentifier
  project : Option ProjectSpecifier
  deriving DecidableEq

structure ItemHeader where
  document : DocumentSpecifier
  container : Option String
  deriving DecidableEq

/-- `specifierFor`: the specifier narrowed to the sheet of a scope. -/
def specifierFor (specifier : DocumentSpecifier) (scope : ItemScope) : DocumentSpecifier :=
  match scope.sheetPath.join with
  | none => specifier
  | some p => { specifier with identifier := .sheetPath p }

/-- `header`: an empty container is no container. -/
def header (specifier : DocumentSpecifier) (scope : ItemScope) : ItemHeader where
  document := specifierFor specifier scope
  container := scope.container.join.filter (· ≠ "")

inductive OpKind where
  | create | update | delete
  deriving DecidableEq

def OpKind.name : OpKind → String
  | .create => "create"
  | .update => "update"
  | .delete => "delete"

inductive Phase where
  | optimistic | applied | failed
  deriving DecidableEq

/-- `DocumentChange`. -/
structure DocumentChange (P : Type*) where
  kind : OpKind
  phase : Phase
  items : List (Item P)
  ids : List String
  scope : ItemScope
  commitId : String
  deriving DecidableEq

/-- `ItemsSince`. -/
structure ItemsSince (P : Type*) where
  items : List (Item P)
  deletedIds : List String
  revision : ℕ
  full : Bool
  deriving DecidableEq

end FabPcb.Document
