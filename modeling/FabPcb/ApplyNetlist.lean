import FabPcb.BoardJob

/-!
`applyNetlist`: the netlist onto the board.

The dry run comes first, then the outline, the import, the placing of what it added and the shift of
the outline by the edge margin. `nm` rounds millimetres as in the specification of the outline.
-/

namespace FabPcb.ApplyNetlist

open Outline BoardJob

inductive Severity where
  | error
  | warning
  deriving DecidableEq

structure Diagnostic where
  severity : Severity
  stage : String
  code : String
  message : String

def hasErrors (diagnostics : List Diagnostic) : Bool := diagnostics.any (·.severity = .error)

def diag (severity : Severity) (message code : String) : Diagnostic :=
  ⟨severity, "apply", code, message⟩

/-- What `ImportNetlist` or `SyncSchematicToBoard` answers; the report by its lines. -/
structure ImportReport where
  errorCount : ℕ
  warningCount : ℕ
  report : List String

structure Box where
  x : ℤ
  y : ℤ

structure Pad where
  parent : Option String
  position : Vec2

structure Footprint where
  id : String
  reference : String
  position : Vec2

inductive AutoplaceAnswer where
  | failed (message : String)
  | completed (ok : Bool)
  deriving DecidableEq

/-- The answers a run gets: each is asked for once, or once before and once after the import or the
autoplacement. `aborted` is the signal as it stands when a stage begins. -/
structure Server where
  fails : Fails
  aborted : String → Bool
  dryRun : ImportReport
  imported : ImportReport
  footprintIds : Bool → List String
  footprints : Bool → List Footprint
  pads : Bool → List Pad
  autoplace : AutoplaceAnswer
  edgeBoxes : List Box
  boxes : List Box

structure ApplyOptions where
  board : Option BoardSpec := none
  autoplace : Bool := false
  edgeMarginNm : ℤ := 0
  message : String := "Compile: board outline"

/-! ### The outline -/

structure OutlineOutcome where
  diagnostics : List Diagnostic := []
  /-- Drawn by this call. -/
  drew : Bool := false
  /-- The outline of a blank stays put. -/
  fixed : Bool := false
  viasAdded : ℕ := 0
  holesAdded : ℕ := 0

def partlyOwned : Diagnostic :=
  diag .error ("The compiler owns only part of the existing Edge.Cuts boundary. Repair or remove " ++
    "the incomplete generated contour before rebuilding.") "outline_conflict"

def userOutline : Diagnostic :=
  diag .error ("The requested board outline differs from the existing user-authored Edge.Cuts. " ++
    "Update or remove the KiCad outline, or make the source board dimensions match it.")
    "outline_conflict"

def badOutline (n : ℕ) : Diagnostic :=
  diag .error ("Board outline needs at least 3 points, got " ++ toString n ++ ".") "bad_outline"

def blankNotDrawn (n : ℕ) : Diagnostic :=
  diag .warning ("The board already has an outline, so the blank's " ++ toString n ++
    " vias were not drawn; delete the outline and build again to draw the blank.")
    "blank_not_drawn"

def edgesOf (shapes : List BoardShape) : List BoardShape :=
  shapes.filter (·.layer = .BL_Edge_Cuts)

def boundaryOf (shapes : List BoardShape) : List BoardShape := (edgesOf shapes).filter (·.isSegment)

def generatedBoundary (shapes : List BoardShape) : List BoardShape :=
  (boundaryOf shapes).filter (·.generated)

/-- What `ensureOutline` makes of an outline that is there. -/
inductive Reconciled where
  | kept
  | replaced
  | refused (d : Diagnostic)

def reconcile (shapes : List BoardShape) (points : List Vec2) : Reconciled :=
  let boundary := boundaryOf shapes
  let generated := generatedBoundary shapes
  if generated ≠ [] then
    if outlineMatches generated points then .kept
    else if isSingleClosedContour generated then .replaced
    else .refused partlyOwned
  else if outlineMatches ((outerSegmentContour boundary).getD []) points then .kept
  else .refused userOutline

section Apply

variable (nm : ℚ → ℤ)

/-- A blank's vias are only drawn with the outline. -/
def checkBlank (fails : Fails) (vias : List Via) : Job OutlineOutcome := do
  if vias ≠ [] then
    let tracks ← getTracks fails
    if tracks.any (·.via.isSome) then return {}
    else return { diagnostics := [blankNotDrawn vias.length] }
  else return {}

def ensureOutline (fails : Fails) (spec : Option BoardSpec) (message : String) :
    Job OutlineOutcome := do
  match outlinePoints nm spec with
  | none => return {}
  | some points =>
    if points.length < 3 then return { diagnostics := [badOutline points.length] }
    else
      let blank := prefabItems nm spec
      let shapes ← getShapes fails
      if edgesOf shapes ≠ [] then
        match reconcile shapes points with
        | .refused d => return { diagnostics := [d] }
        | .kept => checkBlank fails blank.1
        | .replaced =>
          commit fails message
            [.deleteShapes ((generatedBoundary shapes).map (·.id)), .create (outlineItems points) []]
          checkBlank fails blank.1
      else
        commit fails message [.create (outlineItems points ++ blank.2) blank.1]
        return { drew := true, fixed := !blank.1.isEmpty || !blank.2.isEmpty,
                 viasAdded := blank.1.length, holesAdded := blank.2.length }

/-! ### The edge margin -/

def topLeft : List Box → Option Vec2
  | [] => none
  | b :: bs => some (bs.foldl (fun v c => ⟨min v.x c.x, min v.y c.y⟩) ⟨b.x, b.y⟩)

def shiftedSegment (d : Vec2) (shape : BoardShape) : Option BoardShape :=
  match shape.geometry with
  | .segment a b =>
    some { shape with geometry := .segment ⟨a.x + d.x, a.y + d.y⟩ ⟨b.x + d.x, b.y + d.y⟩ }
  | _ => none

/-- How far the outline has to move for the boxes to keep the margin from its top left corner. -/
def insetShift (edgeBoxes boxes : List Box) (marginNm : ℤ) : Option Vec2 :=
  match topLeft edgeBoxes, topLeft boxes with
  | some origin, some corner =>
    let d : Vec2 := ⟨min 0 (corner.x - marginNm - origin.x), min 0 (corner.y - marginNm - origin.y)⟩
    if d.x = 0 ∧ d.y = 0 then none else some d
  | _, _ => none

def insetOutline (srv : Server) (ids : List String) (marginNm : ℤ) : Job (Option Vec2) := do
  if ids = [] ∨ marginNm ≤ 0 then return none
  else
    let shapes ← getShapes srv.fails
    if edgesOf shapes = [] then return none
    else
      ask srv.fails (.boundingBoxes ((edgesOf shapes).map (toString ·.id)))
      if srv.edgeBoxes.isEmpty then return none
      else
        ask srv.fails (.boundingBoxes ids)
        match insetShift srv.edgeBoxes srv.boxes marginNm with
        | none => return none
        | some d =>
          let shapes ← getShapes srv.fails
          let moved := (edgesOf shapes).filterMap (shiftedSegment d)
          if moved.length ≠ (edgesOf shapes).length then return none
          else
            commit srv.fails "Compile: edge clearance inset" [.updateShapes moved]
            return some d

/-! ### Reports -/

def isSpace (c : Char) : Bool := c = ' ' || c = '\t' || c = '\r' || c = '\n'

def trim (line : String) : String :=
  String.ofList (((line.toList.dropWhile isSpace).reverse.dropWhile isSpace).reverse)

/-- The importer warns of each free via of a blank. -/
def isFreeViaWarning (line : String) : Bool :=
  trim line = "Via connected to unknown net ()" || trim line = "Via connected to unknown net ()."

def reportDiagnostics (r : ImportReport) : List Diagnostic :=
  let freeVias := (r.report.filter isFreeViaWarning).length
  let detail := trim (String.intercalate "\n" (r.report.filter (!isFreeViaWarning ·)))
  let warnings := r.warningCount - freeVias
  let withDetail := fun (head : String) => if detail = "" then head else head ++ "\n" ++ detail
  if 0 < r.errorCount then
    [diag .error (withDetail ("ImportNetlist reported " ++ toString r.errorCount ++ " error(s)."))
      "import_failed"]
  else if 0 < warnings then
    [diag .warning (withDetail ("ImportNetlist reported " ++ toString warnings ++ " warning(s)."))
      "import_warnings"]
  else []

/-! ### Placing -/

/-- The centre of the pads of a footprint. -/
def padCentre (pads : List Pad) (id : String) : Option (ℚ × ℚ) :=
  match pads.filter (·.parent = some id) with
  | [] => none
  | p :: ps =>
    let n : ℚ := (p :: ps).length
    some ((((p :: ps).map (·.position.x)).sum : ℚ) / n, (((p :: ps).map (·.position.y)).sum : ℚ) / n)

/-- A footprint was placed if it moved and shares its position with no other. -/
def isPlaced (srv : Server) (ids : List String) (id : String) : Bool :=
  let before := padCentre (srv.pads false) id
  let after := padCentre (srv.pads true) id
  before.isSome && after.isSome && before ≠ after &&
    (ids.dedup.filter fun other => padCentre (srv.pads true) other = after).length ≤ 1

def unplacedIds (srv : Server) (ids : List String) : List String :=
  ids.filter fun id => (padCentre (srv.pads false) id).isSome && !isPlaced srv ids id

structure Placing where
  footprintsPlaced : ℕ := 0
  edgeInsetNm : Option Vec2 := none
  diagnostics : List Diagnostic := []

def autoplaceFailed (m : String) : Diagnostic :=
  diag .warning ("Autoplace failed (" ++ m ++
    "); the imported footprints were left where the import put them.") "autoplace_failed"

def autoplaceIncomplete : Diagnostic :=
  diag .warning ("Autoplace did not complete (KiCad reports no board outline or a placement " ++
    "failure).") "autoplace_failed"

def noRoom (unplaced all : ℕ) : Diagnostic :=
  diag .warning (toString unplaced ++ " of " ++ toString all ++ " imported footprints were not " ++
    "placed: the autoplacer found no room for them on this outline and left them stacked on one " ++
    "spot. Enlarge the board or place them.") "autoplace_incomplete"

def onBlank : Diagnostic :=
  diag .warning ("Autoplaced footprints are packed into the outline's corner and may sit on the " ++
    "blank's vias or holes; place them before routing.") "prefab_placement"

def edgeUnchecked : Diagnostic :=
  diag .warning ("Autoplaced footprints may sit closer to the existing board outline than the " ++
    "copper-to-edge clearance; move them before DRC.") "edge_clearance_unchecked"

def autoplaceAdded (srv : Server) (opts : ApplyOptions) (outline : OutlineOutcome)
    (ids : List String) : Job Placing := do
  ask srv.fails .getPads
  modify fun s => { s with issued := s.issued ++ [.autoplace ids] }
  ask srv.fails .getPads
  let placed := (ids.filter (isPlaced srv ids)).length
  let unplaced := unplacedIds srv ids
  match srv.autoplace with
  | .failed m => return { footprintsPlaced := placed, diagnostics := [autoplaceFailed m] }
  | .completed ok =>
    if !ok then return { footprintsPlaced := placed, diagnostics := [autoplaceIncomplete] }
    else if unplaced ≠ [] then
      return { footprintsPlaced := placed, diagnostics := [noRoom unplaced.length ids.length] }
    else if opts.edgeMarginNm = 0 then return { footprintsPlaced := placed }
    else if outline.drew && !outline.fixed then
      let d ← insetOutline srv ids opts.edgeMarginNm
      return { footprintsPlaced := placed, edgeInsetNm := d }
    else if outline.fixed then
      return { footprintsPlaced := placed, diagnostics := [onBlank] }
    else return { footprintsPlaced := placed, diagnostics := [edgeUnchecked] }

/-- The footprints that are not yet where the source puts them. -/
def misplaced (footprints : List Footprint) (placements : List ComponentPlacement) : List String :=
  placements.filterMap fun p =>
    (footprints.reverse.find? (·.reference = p.ref)).bind fun f =>
      if f.position = ⟨nm p.x, nm p.y⟩ then none else some f.reference

def placeFootprints (srv : Server) (placements : List ComponentPlacement) : Job ℕ := do
  ask srv.fails .getFootprints
  let moved := misplaced nm (srv.footprints true) placements
  if moved ≠ [] then
    commit srv.fails "Compile: source placement" [.updateFootprints moved]
    return moved.length
  else return 0

/-! ### `applyNetlist` -/

structure ApplyOutcome where
  diagnostics : List Diagnostic
  report : List String
  addedFootprintIds : List String := []
  footprintsAdded : ℕ := 0
  footprintsPlaced : ℕ := 0
  edgeInsetNm : Option Vec2 := none
  viasAdded : ℕ := 0
  holesAdded : ℕ := 0

def placementsOf (opts : ApplyOptions) : List ComponentPlacement :=
  (opts.board.map (·.placements)).getD []

def addedIds (srv : Server) : List String :=
  (srv.footprintIds true).filter (· ∉ srv.footprintIds false)

/-- The additions that the source does not place. -/
def autoIds (srv : Server) (opts : ApplyOptions) : List String :=
  let placed := ((srv.footprints false).filter fun f =>
    (placementsOf opts).any (·.ref = f.reference)).map (·.id)
  if placementsOf opts ≠ [] then (addedIds srv).filter (· ∉ placed) else addedIds srv

def onlyIf {α : Type} (c : Prop) [Decidable c] (x : Job α) (otherwise : α) : Job α :=
  if c then x else pure otherwise

/-- From the import on. -/
def importAndPlace (srv : Server) (opts : ApplyOptions) (outline : OutlineOutcome) :
    Job ApplyOutcome := do
  cancelled (srv.aborted "importing")
  ask srv.fails .getFootprintIds
  ask srv.fails (.updateBoard false)
  ask srv.fails .getFootprintIds
  onlyIf (placementsOf opts ≠ []) (ask srv.fails .getFootprints) ()
  let ids := autoIds srv opts
  onlyIf ((opts.autoplace ∧ ids ≠ []) ∨ placementsOf opts ≠ [])
    (cancelled (srv.aborted "placing")) ()
  let placing ← onlyIf (opts.autoplace ∧ ids ≠ []) (autoplaceAdded srv opts outline ids) {}
  onlyIf (placementsOf opts ≠ []) (cancelled (srv.aborted "placed")) ()
  let moved ← onlyIf (placementsOf opts ≠ []) (placeFootprints nm srv (placementsOf opts)) 0
  return { diagnostics := outline.diagnostics ++ reportDiagnostics srv.imported ++ placing.diagnostics
           report := srv.imported.report
           addedFootprintIds := addedIds srv
           footprintsAdded := (addedIds srv).length
           footprintsPlaced := placing.footprintsPlaced + moved
           edgeInsetNm := placing.edgeInsetNm
           viasAdded := outline.viasAdded
           holesAdded := outline.holesAdded }

def applyNetlist (srv : Server) (opts : ApplyOptions) : Job ApplyOutcome := do
  cancelled (srv.aborted "checking")
  ask srv.fails (.updateBoard true)
  if 0 < srv.dryRun.errorCount then
    return { diagnostics := reportDiagnostics srv.dryRun, report := srv.dryRun.report }
  else
    cancelled (srv.aborted "outlining")
    let outline ← ensureOutline nm srv.fails opts.board opts.message
    if hasErrors outline.diagnostics then
      return { diagnostics := outline.diagnostics, report := srv.dryRun.report }
    else importAndPlace nm srv opts outline

end Apply

/-! ### Runs -/

section Ok

variable {nm : ℚ → ℤ} {srv : Server} {opts : ApplyOptions} {s t : Session}

lemma onlyIf_ok {α : Type} {c : Prop} [Decidable c] {x : Job α} {a b : α}
    (h : onlyIf c x a s = .ok (b, t)) :
    c ∧ x s = .ok (b, t) ∨ ¬ c ∧ a = b ∧ s = t := by
  unfold onlyIf at h
  split at h
  next hc => exact Or.inl ⟨hc, h⟩
  next hc => exact Or.inr ⟨hc, pure_ok.mp h⟩

lemma hasErrors_report {r : ImportReport} (h : 0 < r.errorCount) :
    hasErrors (reportDiagnostics r) = true := by
  unfold reportDiagnostics
  rw [if_pos h]
  rfl

/-- A run stops at the dry run, or at the outline, or goes on from there. -/
lemma applyNetlist_ok {o : ApplyOutcome} (h : applyNetlist nm srv opts s = .ok (o, t)) :
    (0 < srv.dryRun.errorCount ∧ t = ⟨s.board, s.issued ++ [.updateBoard true]⟩ ∧
        hasErrors o.diagnostics = true) ∨
    srv.dryRun.errorCount = 0 ∧ ∃ outline u,
      ensureOutline nm srv.fails opts.board opts.message
        ⟨s.board, s.issued ++ [.updateBoard true]⟩ = .ok (outline, u) ∧
      (hasErrors outline.diagnostics = true ∧ t = u ∧ o.diagnostics = outline.diagnostics ∨
        hasErrors outline.diagnostics = false ∧
          importAndPlace nm srv opts outline u = .ok (o, t)) := by
  obtain ⟨_, s₁, hcancel, h⟩ := bind_ok.mp h
  obtain ⟨_, rfl⟩ := cancelled_ok.mp hcancel
  obtain ⟨_, s₂, hask, h⟩ := bind_ok.mp h
  obtain ⟨_, rfl⟩ := ask_ok.mp hask
  split at h
  next hdry =>
    obtain ⟨rfl, rfl⟩ := pure_ok.mp h
    exact Or.inl ⟨hdry, rfl, hasErrors_report hdry⟩
  next hdry =>
    obtain ⟨_, s₃, hcancel', h⟩ := bind_ok.mp h
    obtain ⟨_, rfl⟩ := cancelled_ok.mp hcancel'
    obtain ⟨outline, u, houtline, h⟩ := bind_ok.mp h
    refine Or.inr ⟨Nat.eq_zero_of_not_pos hdry, outline, u, houtline, ?_⟩
    split at h
    next herr =>
      obtain ⟨rfl, rfl⟩ := pure_ok.mp h
      exact Or.inl ⟨herr, rfl, rfl⟩
    next hok => exact Or.inr ⟨Bool.not_eq_true _ ▸ hok, h⟩

end Ok

end FabPcb.ApplyNetlist
