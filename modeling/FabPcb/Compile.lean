import FabPcb.NetlistChecks

/-!
`compile`: from the source to the board.

The frontend is a parameter: it makes a netlist of the source and does not know of KiCad. What an
embedder runs between the validation and the board, and after it, are the hooks. Millimetres are
rounded by `nm` as in the specification of the outline.
-/

namespace FabPcb.Compile

open Outline BoardJob ApplyNetlist NetlistChecks SExprText

structure CompileSource where
  kind : String
  files : List (String × String)
  entrypoint : String

/-- A placement as a request gives it. -/
inductive PlacementInput where
  /-- No object, or one without a reference. -/
  | noRef
  /-- No finite position. -/
  | noPosition (ref : String)
  | placed (p : ComponentPlacement)

def PlacementInput.ref? : PlacementInput → Option String
  | .noRef => none
  | .noPosition ref => some ref
  | .placed p => some p.ref

def PlacementInput.typed? : PlacementInput → Option ComponentPlacement
  | .placed p => some p
  | _ => none

/-- A board as a request gives it: the specification has the placements that are well typed. -/
structure BoardInput where
  spec : BoardSpec
  placements : List PlacementInput
  typed : placements.filterMap (·.typed?) = spec.placements

structure LibrarySpec where
  kind : String
  nickname : String
  uri : String
  deriving DecidableEq

structure FrontendResult where
  netlist : Option Netlist
  board : Option BoardInput := none
  libraries : List LibrarySpec := []
  diagnostics : List Diagnostic := []

structure Frontend where
  kind : String
  build : CompileSource → Except String FrontendResult

/-! ### `validatePlacements` -/

def placementProblem (index : ℕ) (rest message code : String) : Diagnostic :=
  err ("/board/placements/" ++ toString index ++ rest ++ ": " ++ message) code

/-- `acc` are the index and the references so far. -/
def checkPlacement (refs : List String) (acc : ℕ × List String) (p : PlacementInput) :
    List Diagnostic × (ℕ × List String) :=
  match p.ref? with
  | none =>
    ([placementProblem acc.1 "" "ref must be a string." "bad_placement"], (acc.1 + 1, acc.2))
  | some ref =>
    ((if p.typed?.isNone then
        [placementProblem acc.1 "/position" ("use position: \x7bx, y\x7d in mm; x and y must be " ++
          "finite numbers.") "bad_placement_position"] else []) ++
      (if ref ∈ refs then [] else
        [placementProblem acc.1 "/ref" ("unknown component reference " ++ jsonString ref ++ ".")
          "unknown_placement_reference"]) ++
      (if ref ∈ acc.2 then
        [placementProblem acc.1 "/ref" (jsonString ref ++ " is placed more than once.")
          "duplicate_placement_reference"] else []), (acc.1 + 1, ref :: acc.2))

def validatePlacements (netlist : Netlist) (board : Option BoardInput) : List Diagnostic :=
  (collect (checkPlacement (netlist.components.map (·.ref))) (0, [])
    ((board.map (·.placements)).getD [])).1

/-! ### `compile` -/

structure CompileCounts where
  components : ℕ := 0
  nets : ℕ := 0
  footprintsAdded : ℕ := 0
  footprintsPlaced : ℕ := 0
  viasAdded : ℕ := 0
  holesAdded : ℕ := 0

structure CompileResult where
  ok : Bool
  diagnostics : List Diagnostic
  counts : CompileCounts
  ok_eq : ok = !hasErrors diagnostics

def done (diagnostics : List Diagnostic) (counts : CompileCounts) : CompileResult :=
  ⟨!hasErrors diagnostics, diagnostics, counts, rfl⟩

structure CompileOptions where
  /-- Overrides the frontend's. -/
  board : Option BoardInput := none
  autoplace : Bool := false
  edgeMarginNm : ℤ := 0
  message : String := "Compile: board outline"

abbrev Hook := FrontendResult → Job (List Diagnostic)

structure Hooks where
  beforeApply : Option Hook := none
  afterApply : Option Hook := none

def mismatch (source frontend : String) : Diagnostic :=
  ⟨.error, "frontend", "frontend_mismatch", "Source is " ++ jsonString source ++
    " but the frontend handles " ++ jsonString frontend ++ "."⟩

/-- What throws in the frontend, throws in the compile. -/
def build (frontend : Frontend) (source : CompileSource) : Job FrontendResult := fun s =>
  match frontend.build source with
  | .error m => .error (.thrown m)
  | .ok built => .ok (built, s)

/-- A board that the request has comes before the frontend's. -/
def boardSpec (board : Option BoardInput) (built : FrontendResult) : Option BoardInput :=
  board.or built.board

def applyOptions (opts : CompileOptions) (built : FrontendResult) : ApplyOptions where
  board := (boardSpec opts.board built).map (·.spec)
  autoplace := opts.autoplace
  edgeMarginNm := opts.edgeMarginNm
  message := opts.message

/-- What the frontend and the validation find. -/
def validated (board : Option BoardInput) (built : FrontendResult) (netlist : Netlist) :
    List Diagnostic :=
  built.diagnostics ++ validateNetlist netlist ++ validatePlacements netlist (boardSpec board built)

section Job

variable (nm : ℚ → ℤ) (srv : Server) (hooks : Hooks) (opts : CompileOptions)

def before (built : FrontendResult) : Job (List Diagnostic) :=
  match hooks.beforeApply with
  | none => pure []
  | some hook => hook built

/-- Only what was applied without an error is looked at once more. -/
def after (built : FrontendResult) (diagnostics : List Diagnostic) : Job (List Diagnostic) :=
  match hooks.afterApply with
  | none => pure []
  | some hook =>
    if hasErrors diagnostics then pure []
    else do
      cancelled (srv.aborted "parity")
      hook built

/-- From a validated netlist on. -/
def applyValidated (built : FrontendResult) (diagnostics : List Diagnostic)
    (counts : CompileCounts) : Job CompileResult := do
  cancelled (srv.aborted "schematic")
  let prepared ← before hooks built
  if hasErrors (diagnostics ++ prepared) then return done (diagnostics ++ prepared) counts
  else
    cancelled (srv.aborted "prepared")
    let applied ← applyNetlist nm srv (applyOptions opts built)
    let checked ← after srv hooks built (diagnostics ++ prepared ++ applied.diagnostics)
    return done (diagnostics ++ prepared ++ applied.diagnostics ++ checked)
      { counts with
        footprintsAdded := applied.footprintsAdded
        footprintsPlaced := applied.footprintsPlaced
        viasAdded := applied.viasAdded
        holesAdded := applied.holesAdded }

def compile (source : CompileSource) (frontend : Frontend) : Job CompileResult := do
  cancelled (srv.aborted "frontend")
  if frontend.kind ≠ source.kind then return done [mismatch source.kind frontend.kind] {}
  else
    let built ← build frontend source
    match built.netlist with
    | none => return done built.diagnostics {}
    | some netlist =>
      if hasErrors built.diagnostics then return done built.diagnostics {}
      else
        let diagnostics := validated opts.board built netlist
        let counts : CompileCounts :=
          { components := netlist.components.length, nets := netlist.nets.length }
        if hasErrors diagnostics then return done diagnostics counts
        else applyValidated nm srv hooks opts built diagnostics counts

end Job

/-! ### The job of the bridge -/

inductive Rebuild where
  | preserve
  | clean
  deriving DecidableEq

structure CompileJobRequest where
  source : CompileSource
  board : Option BoardInput := none
  rebuild : Rebuild := .preserve
  autoplace : Bool := true
  save : Bool := true
  message : String := "Compile: board outline"

structure ErcMarker where
  excluded : Bool
  driverConflict : Bool
  items : List String
  description : String

/-- What else the server answers to a job: the problems of the generated schematic, its labels, the
electrical rules check, the design rules and the parity. -/
structure JobServer extends Server where
  schematic : List Diagnostic
  ercErrors : ℕ
  ercMarkers : List ErcMarker
  labels : List String
  constraints : Constraints
  copperEdgeClearance : Option ℤ
  parityCount : ℕ

/-- Later libraries of a kind and nickname replace earlier ones in their place. -/
def uniqueLibraries (libraries : List LibrarySpec) : List LibrarySpec :=
  (OrderedMap.OMap.ofList (libraries.map fun l => (l.kind ++ ":" ++ l.nickname, l))).values

def conflicts (srv : JobServer) : List ErcMarker :=
  srv.ercMarkers.filter fun m => !m.excluded && m.driverConflict

/-- The nets that the generated schematic joins. -/
def netMerges (srv : JobServer) : List String :=
  ((conflicts srv).filter fun m => m.items.length = 2 && m.items.all (· ∈ srv.labels)).map
    (·.description)

def generatedNetMerges (srv : JobServer) : Job (List String) := do
  onlyIf (conflicts srv ≠ []) (ask srv.fails .netMerges) ()
  return netMerges srv

def ercProblems (srv : JobServer) : List Diagnostic :=
  let detail := String.intercalate "; "
    (((srv.ercMarkers.filter (!·.excluded)).take 10).map (·.description))
  if srv.ercErrors = 0 then [] else
    [⟨.error, "schematic", "erc_errors", "Generated schematic has " ++ toString srv.ercErrors ++
      " ERC error(s) after save/reload" ++ if detail = "" then "." else ": " ++ detail⟩]

def mergeProblems (merges : List String) : List Diagnostic :=
  if merges = [] then [] else
    [⟨.error, "schematic", "generated_net_merge", "Generated schematic joins " ++
      toString merges.length ++ " pair(s) of distinct netlist nets: " ++
      String.intercalate "; " (merges.take 10)⟩]

/-- What is wrong with the generated schematic. -/
def schematicProblems (srv : JobServer) : List Diagnostic :=
  srv.schematic ++ ercProblems srv ++ mergeProblems (netMerges srv)

/-- Free vias are no routed copper. -/
def isRouted (t : TrackItem) : Bool := t.via.isNone || t.net ≠ ""

def removeRouted (fails : Fails) : Job Unit := do
  let tracks ← getTracks fails
  let routed := tracks.filter isRouted
  onlyIf (routed ≠ []) (commit fails "Clean rebuild: remove routed copper"
    [.deleteTracks (routed.map (·.id))]) ()

def hasRules (r : BoardRules) : Bool :=
  r.clearanceMm.isSome || r.trackWidthMm.isSome || r.viaDiameterMm.isSome || r.viaDrillMm.isSome

/-- The constraints that the rules give, before those that the board has. -/
def constraintsOf (nm : ℚ → ℤ) (r : BoardRules) (current : Constraints) : Constraints where
  minClearance := (r.clearanceMm.map nm).or current.minClearance
  minTrackWidth := (r.trackWidthMm.map nm).or current.minTrackWidth
  minViaSize := (r.viaDiameterMm.map nm).or current.minViaSize
  minThroughDrill := (r.viaDrillMm.map nm).or current.minThroughDrill

def applyBoardConstraints (nm : ℚ → ℤ) (srv : JobServer) (r : BoardRules) : Job Unit :=
  onlyIf (hasRules r = true) (do
    ask srv.fails .getDesignRules
    ask srv.fails (.setDesignRules (constraintsOf nm r srv.constraints))) ()

def rulesOf (req : CompileJobRequest) (built : FrontendResult) : Option BoardRules :=
  (boardSpec req.board built).bind (·.spec.rules)

def applyRules (nm : ℚ → ℤ) (srv : JobServer) : Option BoardRules → Job Unit
  | none => pure ()
  | some r => onlyIf (hasRules r = true) (applyBoardConstraints nm srv r) ()

section CompileJob

variable (nm : ℚ → ℤ) (srv : JobServer) (libraries : List LibrarySpec) (req : CompileJobRequest)

/-- The schematic first, then the board. -/
def beforeApply : Hook := fun built => do
  let unique := uniqueLibraries (libraries ++ built.libraries)
  onlyIf (unique ≠ []) (ask srv.fails (.registerLibraries (unique.map (·.nickname)))) ()
  ask srv.fails .generateSchematic
  onlyIf (req.save = true) (ask srv.fails .reopenSchematic) ()
  ask srv.fails .runErc
  let merges ← generatedNetMerges srv
  let diagnostics := srv.schematic ++ ercProblems srv ++ mergeProblems merges
  if hasErrors diagnostics then
    ask srv.fails .restoreSchematic
    return diagnostics
  else
    onlyIf (req.rebuild = .clean) (removeRouted srv.fails) ()
    applyRules nm srv (rulesOf req built)
    return diagnostics

def parityConflicts (n : ℕ) : Diagnostic :=
  diag .error ("Updated board has " ++ toString n ++ " schematic parity conflict(s); inspect DRC " ++
    "before routing or release.") "schematic_parity"

def afterApply : Hook := fun _ => do
  ask srv.fails .runDrc
  return if srv.parityCount = 0 then [] else [parityConflicts srv.parityCount]

def edgeClearanceNm : Job ℤ := do
  ask srv.fails .getDesignRules
  return srv.copperEdgeClearance.getD 0

/-- Frontends by their kinds; the later of one kind counts. -/
def frontendFor (frontends : List Frontend) (kind : String) : Option Frontend :=
  frontends.reverse.find? (·.kind = kind)

/-- What a job does up to the result of its compile. -/
def compileJob (frontends : List Frontend) : Job CompileResult := do
  match frontendFor frontends req.source.kind with
  | none => fun _ => .error (.thrown ("unknown frontend \"" ++ req.source.kind ++ "\""))
  | some frontend =>
    cancelled (srv.aborted "started")
    let margin ← onlyIf (req.autoplace = true) (edgeClearanceNm srv) 0
    let opts : CompileOptions :=
      { board := req.board, autoplace := req.autoplace, edgeMarginNm := margin, message := req.message }
    compile nm srv.toServer
      ⟨some (beforeApply nm srv libraries req), some (afterApply srv)⟩ opts req.source frontend

end CompileJob

end FabPcb.Compile
