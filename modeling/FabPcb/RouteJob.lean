import FabPcb.Dialogue
import FabPcb.OrderedMap
import FabPcb.SpecctraData
import Mathlib.Data.List.Infix

/-!
The route job: `start` of `createRouteJobs`, as a program that asks the board and the router.

Every await is a question, and what an observer can see of the job meanwhile is its `RouteJobInfo`.
A reply comes with the abort signal as it is then. An error ends the job in its failure handler.
-/

namespace FabPcb.RouteJob

open Dialogue OrderedMap
open SpecctraData (Vec2 BoardLayer roundHalfUp)

/-! ### What is routed -/

structure NewTrack where
  net : String
  netCode : ℤ
  start : Vec2
  stop : Vec2
  width : ℚ
  layer : BoardLayer

structure NewVia where
  net : String
  netCode : ℤ
  position : Vec2
  diameter : ℚ
  drill : ℚ
  layers : List BoardLayer

structure ClaimedVia where
  id : ℕ
  net : String
  netCode : ℤ

structure RouteConnection where
  net : String
  start : Vec2
  stop : Vec2

structure RouteInput where
  connections : List RouteConnection

structure RouteResult where
  router : String
  tracks : List NewTrack
  vias : List NewVia
  claimedVias : List ClaimedVia
  unrouted : List RouteConnection
  totalConnections : ℕ
  timedOut : Bool
  log : List String
  /-- The text of the diagnostics. -/
  diagnostics : Option String
  /-- What the board's own importer added: tracks and vias. -/
  applied : Option (ℕ × ℕ)

/-! ### Copper on the board -/

inductive Copper where
  | track (start stop : Vec2) (width : ℚ) (layer : BoardLayer)
  | arc (start mid stop : Vec2) (width : ℚ) (layer : BoardLayer)
  | via (position : Vec2) (diameter drill : ℚ) (layers : List BoardLayer)
  deriving DecidableEq

structure NewItem where
  copper : Copper
  net : String
  netCode : ℤ
  deriving DecidableEq

structure Item extends NewItem where
  id : ℕ
  locked : Bool
  deriving DecidableEq

def Item.isVia (item : Item) : Bool :=
  match item.copper with
  | .via .. => true
  | _ => false

def Item.setNet (item : Item) (net : String) (netCode : ℤ) : Item :=
  { item with net, netCode }

/-- A commit: what it deletes, creates and updates. -/
structure Change where
  message : String
  delete : List ℕ
  create : List NewItem
  update : List Item

structure CommitResult where
  created : List Item

inductive DrcErrorType where
  | danglingTrack
  | danglingVia
  | other
  deriving DecidableEq

structure Marker where
  errorType : DrcErrorType
  items : List ℕ

/-! ### Questions and replies -/

inductive Request where
  | currentBoard
  | refillZones
  | save
  | getTracks
  | extract
  | route
  | commit (change : Change)
  | runDrc
  | ratsnest (nets : List String)
  | undo

structure Failure where
  /-- It is a `RouteCancelled`. -/
  isCancelled : Bool
  message : String

def Reply : Request → Type
  | .currentBoard => Bool
  | .refillZones => Unit
  | .save => Unit
  | .getTracks => List Item
  | .extract => RouteInput
  | .route => RouteResult
  | .commit _ => CommitResult
  | .runDrc => List Marker
  | .ratsnest _ => List RouteConnection
  | .undo => ℕ

/-- A reply or a failure, and the abort signal. -/
abbrev Answer (q : Request) : Type := Except Failure (Reply q) × Bool

/-! ### The job, from outside -/

inductive RouteJobState where
  | queued
  | saving
  | filling
  | extracting
  | routing
  | applying
  | done
  | failed
  | cancelled
  deriving DecidableEq

def finished : RouteJobState → Bool
  | .done => true
  | .failed => true
  | .cancelled => true
  | _ => false

inductive JobError where
  | noTransport
  | freeroutingUnavailable (reason : String)
  | noBoard
  | cancelled
  | nothingRouted (reason : String)
  | notUndone
  | notRelabelled
  | notMapped
  | notConverged
  | notSaved (cause : Failure)
  | request (cause : Failure)

/-- `RouteCancelled.is` -/
def JobError.isCancelled : JobError → Bool
  | .cancelled => true
  | .request cause => cause.isCancelled
  | _ => false

structure RouteJobZoneRefill where
  before : Bool
  after : Bool
  error : Option String

structure RouteJobSummary where
  tracks : ℕ
  vias : ℕ
  claimedVias : ℕ
  routed : ℤ
  routerRouted : ℤ
  removedExistingCopper : List (ℕ × String)
  retainedDanglingCopper : List (ℕ × String)
  total : ℕ
  timedOut : Bool
  message : String
  unrouted : List RouteConnection
  /-- The items that are new or claimed. -/
  geometry : List Item

structure RouteJobInfo where
  state : RouteJobState
  zoneRefill : RouteJobZoneRefill
  summary : Option RouteJobSummary
  error : Option JobError

inductive RouterChoice where
  | js
  | freerouting
  deriving DecidableEq

structure RouteJobRequest where
  router : RouterChoice
  nets : Option (List String)
  message : Option String
  refillZones : Option Bool

/-- What a job finds in its process. -/
structure Setting where
  /-- The session has a transport, or the board is opened otherwise. -/
  transport : Bool
  /-- Why Freerouting is not to be had. -/
  unavailable : Option String

/-! ### Jobs -/

structure Locals where
  info : RouteJobInfo
  aborted : Bool

abbrev Dialog (α : Type) := Prog RouteJobInfo Request Answer α

def Job (α : Type) := Locals → Dialog (Except JobError α × Locals)

namespace Job

variable {α β : Type}

def andThen (f : α → Job β) : Except JobError α × Locals → Dialog (Except JobError β × Locals)
  | (.ok a, l) => f a l
  | (.error e, l) => .ret (.error e, l)

instance : Monad Job where
  pure a l := .ret (.ok a, l)
  bind m f l := (m l).bind (andThen f)

def throw (e : JobError) : Job α := fun l => .ret (.error e, l)

/-- A question whose failure is caught. -/
def attempt (q : Request) : Job (Except Failure (Reply q)) := fun l =>
  .ask l.info q fun r => .ret (.ok r.1, { l with aborted := r.2 })

def ofReply {q : Request} : Except Failure (Reply q) → Job (Reply q)
  | .ok a => pure a
  | .error f => throw (.request f)

def ask (q : Request) : Job (Reply q) := do ofReply (← attempt q)

def modify (f : RouteJobInfo → RouteJobInfo) : Job Unit := fun l =>
  .ret (.ok (), { l with info := f l.info })

def setState (state : RouteJobState) : Job Unit := modify ({ · with state })

def checkCancelled : Job Unit := fun l =>
  if l.aborted then .ret (.error .cancelled, l) else .ret (.ok (), l)

def orThrow : Option JobError → Job Unit
  | none => pure ()
  | some e => throw e

def require (ok : Bool) (e : JobError) : Job Unit := orThrow (if ok then none else some e)

def when (c : Bool) (m : Job Unit) : Job Unit := if c then m else pure ()

end Job

open Job

/-! ### Applying a result -/

def round (v : Vec2) : Vec2 := ⟨roundHalfUp v.x, roundHalfUp v.y⟩

/-- Both ends are at the same place, in whole nanometres. -/
def NewTrack.isEmpty (t : NewTrack) : Bool := round t.start = round t.stop

def trackProto (t : NewTrack) : NewItem :=
  ⟨.track (round t.start) (round t.stop) (roundHalfUp t.width) t.layer, t.net, t.netCode⟩

def viaProto (v : NewVia) : NewItem :=
  ⟨.via (round v.position) (roundHalfUp v.diameter) (roundHalfUp v.drill) v.layers, v.net,
    v.netCode⟩

def itemsFor (result : RouteResult) : List NewItem :=
  (result.tracks.filter (!·.isEmpty)).map trackProto ++ result.vias.map viaProto

def claims (result : RouteResult) : OMap ℕ ClaimedVia :=
  OMap.ofList (result.claimedVias.map fun c => (c.id, c))

def claimedItem (result : RouteResult) (item : Item) : Option Item :=
  if item.isVia then ((claims result).get? item.id).map fun c => item.setNet c.net c.netCode
  else none

def claimedViaItems (result : RouteResult) : Job (List Item) :=
  if result.claimedVias = [] then pure []
  else do
    let items : List Item ← ask .getTracks
    return items.filterMap (claimedItem result)

def applyRouteResult (result : RouteResult) (message : String) (removeCopperIds : List ℕ) :
    Job CommitResult := do
  let claimed ← claimedViaItems result
  ask (.commit ⟨message, removeCopperIds, itemsFor result, claimed⟩)

/-! ### Cleaning up -/

/-- The tracks that are kept, and the created items that are left for the vias. -/
def keptTracks (rejected : ℕ → Bool) : List NewTrack → List Item → List NewTrack × List Item
  | [], created => ([], created)
  | t :: ts, created =>
    if t.isEmpty then keptTracks rejected ts created
    else
      let rest := keptTracks rejected ts created.tail
      if created.head?.any fun item => rejected item.id then rest else (t :: rest.1, rest.2)

def keptVias (rejected : ℕ → Bool) : List NewVia → List Item → List NewVia
  | [], _ => []
  | v :: vs, created =>
    let rest := keptVias rejected vs created.tail
    if created.head?.any fun item => rejected item.id then rest else v :: rest

def withoutRejectedCreatedCopper (result : RouteResult) (created : List Item)
    (rejected : ℕ → Bool) : RouteResult :=
  let tracks := keptTracks rejected result.tracks created
  { result with tracks := tracks.1, vias := keptVias rejected result.vias tracks.2 }

def RouteResult.size (result : RouteResult) : ℕ := result.tracks.length + result.vias.length

def RouteResult.isEmpty (result : RouteResult) : Bool :=
  result.tracks.isEmpty && result.vias.isEmpty && result.claimedVias.isEmpty

def routerName : RouterChoice → String
  | .js => "js"
  | .freerouting => "freerouting"

def autorouteMessage (router : RouterChoice) (routed : ℤ) : String :=
  s!"Autoroute ({routerName router}): {routed} connection" ++ if routed = 1 then "" else "s"

/-- The dangling items that markers name, each once. -/
def danglingIds (markers : List Marker) : List ℕ :=
  let items := (markers.filter (·.errorType ≠ .other)).flatMap (·.items)
  (OMap.ofList (items.map fun id => (id, ()))).keys

/-- What the clean-up of a run knows. -/
structure Scope where
  request : RouteJobRequest
  originalCopper : List Item
  repairNets : List String

namespace Scope

variable (scope : Scope)

def isRepairable (item : Item) : Bool := item.net ≠ "" && item.net ∈ scope.repairNets

def removableExisting : OMap ℕ String :=
  OMap.ofList ((scope.originalCopper.filter fun item => !item.locked && scope.isRepairable item).map
    fun item => (item.id, item.net))

def retained (dangling : List ℕ) : List (ℕ × String) :=
  (scope.originalCopper.filter fun item =>
    item.locked && scope.isRepairable item && item.id ∈ dangling).map fun item => (item.id, item.net)

end Scope

structure Cleanup where
  result : RouteResult
  message : String
  removedExistingCopper : OMap ℕ String
  retainedDanglingCopper : List (ℕ × String)
  applied : Bool

def Cleanup.apply (c : Cleanup) : Job CommitResult :=
  applyRouteResult c.result c.message c.removedExistingCopper.keys

def relabelTo (c : Cleanup) (message : String) : Job Cleanup :=
  if message = c.message then pure c
  else do
    let undone : ℕ ← ask .undo
    require (undone = 1) .notRelabelled
    let _ ← { c with message : Cleanup }.apply
    return { c with message }

/-- The commit's message says what the board's connectivity says, unless the request names one. -/
def relabel (request : RouteJobRequest) (c : Cleanup) : Job Cleanup :=
  if request.message.getD "" ≠ "" then pure c
  else do
    let edges : List RouteConnection ← ask (.ratsnest (request.nets.getD []))
    relabelTo c (autorouteMessage request.router
      (max 0 ((c.result.totalConnections : ℤ) - edges.length)))

/-- What a pass that has been undone leaves for the next. -/
def Cleanup.reject (scope : Scope) (c : Cleanup) (created : List Item) (rejected existing : List ℕ) :
    Cleanup :=
  { c with
    result := withoutRejectedCreatedCopper c.result created (· ∈ rejected)
    removedExistingCopper := existing.foldl
      (fun removed id => removed.set id ((scope.removableExisting.get? id).getD ""))
      c.removedExistingCopper }

inductive Outcome where
  | stop (c : Cleanup)
  | again (c : Cleanup)

def rejectedIds (created : List Item) (dangling : List ℕ) : List ℕ :=
  dangling.filter (· ∈ created.map (·.id))

def existingIds (scope : Scope) (c : Cleanup) (dangling : List ℕ) : List ℕ :=
  dangling.filter fun id => scope.removableExisting.has id && !c.removedExistingCopper.has id

def Cleanup.isSpent (c : Cleanup) : Bool :=
  c.result.isEmpty && decide (c.removedExistingCopper.size = 0)

/-- When the checks of a pass have rejected something. -/
def undoPass (scope : Scope) (c : Cleanup) (created : List Item) (dangling : List ℕ) :
    Job Outcome := do
  let rejected := rejectedIds created dangling
  let existing := existingIds scope c dangling
  let undone : ℕ ← ask .undo
  require (undone = 1) .notUndone
  let c' := c.reject scope created rejected existing
  let removed := c.result.size - c'.result.size
  require (removed ≠ 0 || existing ≠ []) .notMapped
  return if c'.isSpent then .stop c' else .again c'

/-- When they have not. -/
def keepPass (scope : Scope) (c : Cleanup) (dangling : List ℕ) : Job Outcome := do
  let c ← relabel scope.request { c with retainedDanglingCopper := scope.retained dangling }
  return .stop { c with applied := true }

def checkPass (scope : Scope) (c : Cleanup) (created : List Item) : Job Outcome := do
  let markers : List Marker ← ask .runDrc
  let dangling := danglingIds markers
  if rejectedIds created dangling = [] ∧ existingIds scope c dangling = [] then
    keepPass scope c dangling
  else undoPass scope c created dangling

/-- A turn of the clean-up loop, up to its check of the number of turns. -/
def cleanupPass (scope : Scope) (c : Cleanup) : Job Outcome := do
  let committed : CommitResult ← c.apply
  if c.result.router ≠ "fab-router" then return .stop { c with applied := true }
  else checkPass scope c committed.created

/-- The turns that are left. -/
def cleanupLoop (scope : Scope) : ℕ → Cleanup → Job Cleanup
  | 0, c => pure c
  | n + 1, c => cleanupPass scope c >>= fun
    | .stop c => pure c
    | .again c => if n = 0 then throw .notConverged else cleanupLoop scope n c

def maxCleanupPasses (scope : Scope) (result : RouteResult) : ℕ :=
  result.size + scope.removableExisting.size + 1

/-- `alreadyApplied` -/
def RouteResult.alreadyApplied (result : RouteResult) : Bool := result.router = "freerouting-kicad"

/-! ### The run -/

def refillsZones (request : RouteJobRequest) : Bool := request.refillZones.getD true

def unavailable (setting : Setting) (request : RouteJobRequest) : Option JobError :=
  if request.router = .freerouting then setting.unavailable.map .freeroutingUnavailable else none

/-- The first refill. -/
def refillBefore : Job Unit := do
  setState .filling
  let _ ← ask .refillZones
  modify fun info => { info with zoneRefill := { info.zoneRefill with before := true } }
  checkCancelled

/-- What comes before the router: the copper of the board, and the input. -/
def prepare (setting : Setting) (request : RouteJobRequest) : Job (List Item × RouteInput) := do
  require setting.transport .noTransport
  orThrow (unavailable setting request)
  let board : Bool ← ask .currentBoard
  require board .noBoard
  checkCancelled
  when (refillsZones request) refillBefore
  setState .saving
  let _ ← ask .save
  checkCancelled
  setState .extracting
  let originalCopper : List Item ← ask .getTracks
  let input : RouteInput ← ask .extract
  checkCancelled
  return (originalCopper, input)

/-- A line that says why nothing was routed. -/
def isReason (line : String) : Bool :=
  ["solver failed", "precheck", "timed out", "exited with", "no session", "ran out of", "blockedpads",
    "padstack-unknown"].any fun pattern => decide (pattern.toList.IsInfix line.toLower.toList)

def emptyResultReason (r : RouteResult) : Option String :=
  if r.totalConnections = 0 ∨ r.tracks ≠ [] ∨ r.vias ≠ [] ∨ r.unrouted.length < r.totalConnections then
    none
  else
    match r.diagnostics with
    | some text => some text
    | none =>
      let why := r.log.reverse.find? isReason
      if r.timedOut then
        some ("timed out with nothing routed" ++ (why.map fun l => s!" ({l})").getD "")
      else some ((why.map fun l => s!"the router routed nothing: {l}").getD
        "the router returned no tracks or vias")

def routed (result : RouteResult) : ℤ := result.totalConnections - result.unrouted.length

/-- Why a run that routed nothing fails. -/
def nothingRouted (result : RouteResult) : Option JobError :=
  if result.diagnostics.isNone then (emptyResultReason result).map .nothingRouted else none

/-- The router's run. -/
def runRouter : Job RouteResult := do
  setState .routing
  let result : RouteResult ← ask .route
  checkCancelled
  orThrow (nothingRouted result)
  return result

def scopeOf (request : RouteJobRequest) (originalCopper : List Item) (input : RouteInput) : Scope where
  request
  originalCopper
  repairNets := request.nets.getD (input.connections.map (·.net))

/-- Onto the board. -/
def applyResult (scope : Scope) (result : RouteResult) : Job Cleanup := do
  let message := scope.request.message.getD (autorouteMessage scope.request.router (routed result))
  let c : Cleanup := ⟨result, message, OMap.empty, [], false⟩
  setState .applying
  if result.alreadyApplied || result.isEmpty then return c
  else cleanupLoop scope (maxCleanupPasses scope result) c

def refilled (r : Except Failure Unit) (refill : RouteJobZoneRefill) : RouteJobZoneRefill :=
  match r with
  | .ok _ => { refill with after := true }
  | .error f => { refill with error := some f.message }

/-- The second refill, whose failure is not fatal. -/
def refillAfter : Job Unit := do
  setState .filling
  let r : Except Failure Unit ← attempt .refillZones
  modify fun info => { info with zoneRefill := refilled r info.zoneRefill }

def notSaved : Except Failure Unit → Option JobError
  | .ok _ => none
  | .error f => some (.notSaved f)

def persistAppliedRoute : Job Unit := do
  setState .saving
  let r : Except Failure Unit ← attempt .save
  orThrow (notSaved r)

def keepApplied (request : RouteJobRequest) : Job Unit := do
  when (refillsZones request) refillAfter
  persistAppliedRoute

def MAX_UNROUTED : ℕ := 2000

/-- The connections left, and the number routed, as the board says if it says it. -/
def measure (request : RouteJobRequest) (result : RouteResult) :
    Except Failure (List RouteConnection) → List RouteConnection × ℤ
  | .ok edges =>
    let nets := request.nets.getD []
    let edges := edges.filter fun e => nets = [] || e.net ∈ nets
    (edges.take MAX_UNROUTED, max 0 ((result.totalConnections : ℤ) - edges.length))
  | .error _ => (result.unrouted.take MAX_UNROUTED, routed result)

def summaryMessage (c : Cleanup) (applied : Bool) (unrouted : List RouteConnection) : String :=
  let text :=
    match c.result.diagnostics with
    | some text => if !applied || unrouted ≠ [] then text else c.message
    | none => if applied then c.message else ""
  if c.retainedDanglingCopper = [] then text
  else
    let names := c.retainedDanglingCopper.map fun item => s!"{item.2}/{item.1}"
    text ++ s!"; {names.length} locked dangling copper item(s) remain on requested nets; " ++
      "route is not native-clean. Retained: " ++ String.intercalate ", " names ++ "."

def summaryOf (scope : Scope) (c : Cleanup) (routerRouted : ℤ) (applied : Bool)
    (measured : List RouteConnection × ℤ) (items : List Item) : RouteJobSummary where
  tracks := (c.result.applied.map (·.1)).getD c.result.tracks.length
  vias := (c.result.applied.map (·.2)).getD c.result.vias.length
  claimedVias := c.result.claimedVias.length
  routed := measured.2
  routerRouted
  removedExistingCopper := c.removedExistingCopper.entries
  retainedDanglingCopper := c.retainedDanglingCopper
  total := c.result.totalConnections
  timedOut := c.result.timedOut
  message := summaryMessage c applied measured.1
  unrouted := measured.1
  geometry := items.filter fun item =>
    item.id ∉ scope.originalCopper.map (·.id) || item.id ∈ c.result.claimedVias.map (·.id)

/-- The job is done before its summary is made. -/
def finish (scope : Scope) (routerRouted : ℤ) (c : Cleanup) (applied : Bool)
    (measured : List RouteConnection × ℤ) : Job Unit := do
  setState .done
  let items : List Item ← ask .getTracks
  modify fun info =>
    { info with summary := some (summaryOf scope c routerRouted applied measured items) }

/-- After the copper is on the board, or is not. -/
def complete (scope : Scope) (routerRouted : ℤ) (c : Cleanup) : Job Unit := do
  let applied := c.applied || c.result.applied.isSome
  when applied (keepApplied scope.request)
  let edges : Except Failure (List RouteConnection) ←
    attempt (.ratsnest (scope.request.nets.getD []))
  finish scope routerRouted c applied (measure scope.request c.result edges)

def routeJob (setting : Setting) (request : RouteJobRequest) : Job Unit := do
  let prepared ← prepare setting request
  let result ← runRouter
  let scope := scopeOf request prepared.1 prepared.2
  let c ← applyResult scope result
  complete scope (routed result) c

/-- The failure handler. -/
def settle : Except JobError Unit × Locals → RouteJobInfo
  | (.ok _, l) => l.info
  | (.error e, l) =>
    { l.info with
      state := if l.aborted || e.isCancelled then .cancelled else .failed
      error := some e }

def queued : RouteJobInfo := ⟨.queued, ⟨false, false, none⟩, none, none⟩

def start (setting : Setting) (request : RouteJobRequest) : Dialog RouteJobInfo :=
  (routeJob setting request ⟨queued, false⟩).bind fun r => .ret (settle r)

end FabPcb.RouteJob
