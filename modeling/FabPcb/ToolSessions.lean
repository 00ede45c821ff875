import FabPcb.Runs
import FabPcb.SpecctraData
import Mathlib.Algebra.BigOperators.Group.Multiset.Basic

/-!
The sessions of the placement tools: `canvas/tools.ts`.

A handler reads the session, may start a commit, and goes on when the commit has completed; then
it writes the session back, unless another one has taken its place. Inputs are handled in the
meantime. The items that a commit creates are given by the calls of their factories, without the
fresh ids.
-/

namespace FabPcb.ToolSessions

open Runs
open SpecctraData (roundHalfUp)

inductive ToolId
  | route | line | rect | circle | arc | polygon | wire | bus
  deriving DecidableEq

structure Pt where
  x : ℚ
  y : ℚ
  deriving DecidableEq

structure ToolPoint extends Pt where
  layer : Option String
  deriving DecidableEq

structure RouteVia where
  pt : Pt
  fromLayer : String
  toLayer : String
  deriving DecidableEq

structure Params where
  widthNm : Option ℚ
  filled : Bool
  deriving DecidableEq

structure ToolSession where
  id : ToolId
  seq : ℕ
  storeKey : String
  points : List ToolPoint
  params : Params
  vias : List RouteVia
  net : Option String
  deriving DecidableEq

inductive ShapeGeometry
  | segment (a b : Pt)
  | rect (a b : Pt)
  | circle (c : Pt) (r : ℚ)
  | arc (start mid stop : Pt)
  | polygon (pts : List Pt)
  deriving DecidableEq

/-- An item, by the factory that makes it. -/
inductive StoredItem
  | makeBoardShape (g : ShapeGeometry) (layer : String) (widthNm : ℚ) (filled : Bool)
  | makeTrack (a b : Pt) (widthNm : ℚ) (layer : String) (net : Option String)
  | makeVia (pt : Pt) (diameterNm drillNm : ℚ) (layers : List String) (net : Option String)
  | makeSchematicLine (a b : Pt) (type : ToolId)
  deriving DecidableEq

structure NetclassInfo where
  name : String
  trackWidthNm : ℚ
  viaDiameterNm : ℚ
  viaDrillNm : ℚ

structure Rules where
  minTrackWidthNm : ℚ
  minViaDiameterNm : ℚ
  minViaDrillNm : ℚ

structure LayerInfo where
  id : String
  copper : Bool

/-- What the tools read of the settings and of the open documents. -/
structure Services where
  gridNm : ℚ
  netclasses : List NetclassInfo
  rules : Option Rules
  layers : List LayerInfo
  hypot : ℚ → ℚ → ℚ

structure LastClick where
  t : ℤ
  pt : Pt
  deriving DecidableEq

/-- What a handler does when its commit has completed. -/
inductive After
  /-- The line tool goes on from the end of the segment. -/
  | chain (p : ToolPoint)
  /-- `done` of `toolFinish`. -/
  | done (again : Bool)
  deriving DecidableEq

/-- A commit that has not completed, with the session its handler has read. -/
structure Commit where
  session : ToolSession
  message : String
  items : List StoredItem
  after : After
  deriving DecidableEq

structure State where
  session : Option ToolSession
  lastClick : Option LastClick
  /-- The active layer of the document of the session. -/
  layer : Option String
  created : Multiset StoredItem
  pending : List Commit
  deriving DecidableEq

variable (services : Services)

def snap (v grid : ℚ) : ℚ := if grid ≤ 0 then v else roundHalfUp (v / grid) * grid

def snapPt (p : Pt) : Pt := ⟨snap p.x services.gridNm, snap p.y services.gridNm⟩

def State.activeLayer (st : State) : String := st.layer.getD "BL_F_Cu"

/-- The first of two numbers that is there and not zero, else the default. -/
def firstOf (a b : Option ℚ) (fallback : ℚ) : ℚ :=
  ((a.filter (· ≠ 0)).or (b.filter (· ≠ 0))).getD fallback

def netclass : Option NetclassInfo :=
  (services.netclasses.find? (·.name = "Default")).or services.netclasses.head?

structure RoutingDefaults where
  trackWidthNm : ℚ
  viaDiameterNm : ℚ
  viaDrillNm : ℚ

def routingDefaults : RoutingDefaults where
  trackWidthNm := firstOf ((netclass services).map (·.trackWidthNm))
    (services.rules.map (·.minTrackWidthNm)) 200000
  viaDiameterNm := firstOf ((netclass services).map (·.viaDiameterNm))
    (services.rules.map (·.minViaDiameterNm)) 600000
  viaDrillNm := firstOf ((netclass services).map (·.viaDrillNm))
    (services.rules.map (·.minViaDrillNm)) 300000

def copper : List String := (services.layers.filter (·.copper)).map (·.id)

def ToolSession.widthNm (s : ToolSession) : ℚ := s.params.widthNm.getD 150000

/-! ### Sessions -/

def startTool (id : ToolId) (storeKey : String) (params : Params) (seq : ℕ)
    (layer : Option String) : State where
  session := some ⟨id, seq, storeKey, [], params, [], none⟩
  lastClick := none
  layer := layer
  created := 0
  pending := []

def stillActive (st : State) (s : ToolSession) : Bool := st.session.any (·.seq = s.seq)

def cancelTool (st : State) : State := { st with session := none, lastClick := none }

def State.setSession (st : State) (s : ToolSession) : State := { st with session := some s }

def State.createItems (st : State) (s : ToolSession) (message : String)
    (items : List StoredItem) (after : After) : State :=
  { st with pending := st.pending ++ [⟨s, message, items, after⟩] }

/-- The run of a session dropped: its points, its vias and its net. -/
def ToolSession.reset (s : ToolSession) : ToolSession :=
  { s with points := [], vias := [], net := none }

def oneShot : ToolId → Bool
  | .rect | .circle | .arc => true
  | _ => false

/-- The rest of the handler, after a commit. -/
def resume (c : Commit) (st : State) : State :=
  if stillActive st c.session then
    match c.after with
    | .chain p => { st with session := st.session.map fun s => { s with points := [p] } }
    | .done again =>
      if again ∧ ¬ oneShot c.session.id then st.setSession c.session.reset else cancelTool st
  else st

def complete (c : Commit) (st : State) : State :=
  resume c { st with created := st.created + c.items }

/-! ### Finishing -/

/-- The consecutive pairs of points that differ. -/
def legs (pts : List ToolPoint) : List (ToolPoint × ToolPoint) :=
  (pts.zip pts.tail).filter fun l => l.1.toPt ≠ l.2.toPt

def trackItems (s : ToolSession) (layer : String) : List StoredItem :=
  let d := routingDefaults services
  (legs s.points).map (fun l => .makeTrack l.1.toPt l.2.toPt
      (s.params.widthNm.getD d.trackWidthNm) (l.1.layer.getD layer) s.net) ++
    s.vias.map fun v => .makeVia v.pt d.viaDiameterNm d.viaDrillNm [v.fromLayer, v.toLayer] s.net

def lineItems (s : ToolSession) : List StoredItem :=
  (legs s.points).map fun l => .makeSchematicLine l.1.toPt l.2.toPt s.id

def plural (n : ℕ) (noun : String) : String :=
  toString n ++ " " ++ noun ++ if n = 1 then "" else "s"

def routeMessage (s : ToolSession) (n : ℕ) : String :=
  "Route " ++ plural n "item" ++
    match s.net with
    | some net => if net = "" then "" else " on " ++ net
    | none => ""

def toolFinish (st : State) : State :=
  match st.session with
  | none => st
  | some s =>
    let shape (g : ShapeGeometry) (filled : Bool) : List StoredItem :=
      [.makeBoardShape g st.activeLayer s.widthNm filled]
    match s.id, s.points with
    | .route, _ =>
      let items := trackItems services s st.activeLayer
      if items = [] then cancelTool st
      else st.createItems s (routeMessage s items.length) items (.done true)
    | .wire, _ =>
      let items := lineItems s
      if items = [] then cancelTool st
      else st.createItems s ("Draw wire (" ++ plural items.length "segment" ++ ")") items
        (.done true)
    | .bus, _ =>
      let items := lineItems s
      if items = [] then cancelTool st
      else st.createItems s ("Draw bus (" ++ plural items.length "segment" ++ ")") items
        (.done true)
    | .polygon, pts =>
      if pts.length < 3 then cancelTool st
      else st.createItems s "Draw polygon"
        (shape (.polygon (pts.map (·.toPt))) s.params.filled) (.done false)
    | .rect, a :: b :: _ =>
      st.createItems s "Draw rectangle" (shape (.rect a.toPt b.toPt) false) (.done false)
    | .circle, a :: b :: _ =>
      st.createItems s "Draw circle"
        (shape (.circle a.toPt (services.hypot (b.x - a.x) (b.y - a.y))) false) (.done false)
    | .arc, a :: b :: c :: _ =>
      st.createItems s "Draw arc" (shape (.arc a.toPt c.toPt b.toPt) false) (.done false)
    | .rect, _ | .circle, _ | .arc, _ => st
    | .line, _ => cancelTool st

/-! ### Clicks and keys -/

def isDoubleClick (st : State) (p : Pt) (now : ℤ) : Bool :=
  st.lastClick.any fun last => now - last.t < 400 ∧ last.pt = p

/-- The session after a click of the wire or the bus tool: the corner, then the point. -/
def bend (s : ToolSession) (p : Pt) (layer : String) : ToolSession :=
  match s.points.getLast? with
  | none => { s with points := [⟨p, some layer⟩] }
  | some last =>
    let corner : Pt := ⟨p.x, last.y⟩
    { s with points := s.points ++
        (if corner ≠ last.toPt ∧ corner ≠ p then [⟨corner, some layer⟩] else []) ++
        if last.toPt ≠ p then [⟨p, some layer⟩] else [] }

/-- A click that is not the second of a double click. -/
def clickAt (st : State) (s : ToolSession) (p : Pt) (hit : Option String) : State :=
  let here : ToolPoint := ⟨p, some st.activeLayer⟩
  let pushed := st.setSession { s with points := s.points ++ [here] }
  match s.id with
  | .route =>
    match s.points.getLast? with
    | none => st.setSession { s with points := [here], net := s.net.or hit }
    | some last => if last.toPt = p then st else pushed
  | .wire | .bus => st.setSession (bend s p st.activeLayer)
  | .polygon =>
    if 3 ≤ s.points.length ∧ s.points.head?.any (·.toPt = p) then toolFinish services st
    else pushed
  | .line =>
    match s.points.getLast? with
    | none => pushed
    | some a =>
      if a.toPt = p then st
      else st.createItems s "Draw line"
        [.makeBoardShape (.segment a.toPt p) st.activeLayer s.widthNm false] (.chain here)
  | .rect => if s.points = [] then pushed else toolFinish services pushed
  | .circle => if 2 ≤ s.points.length + 1 then toolFinish services pushed else pushed
  | .arc => if 3 ≤ s.points.length + 1 then toolFinish services pushed else pushed

/-- `hit` is the net of what is picked at the point, and `now` the time of the click. -/
def toolClick (st : State) (storeKey : String) (world : Pt) (hit : Option String) (now : ℤ) :
    State :=
  match st.session with
  | none => st
  | some s =>
    if s.storeKey = storeKey then
      let p := snapPt services world
      let clicked := { st with lastClick := some ⟨now, p⟩ }
      if isDoubleClick st p now then toolFinish services clicked
      else clickAt services clicked s p hit
    else st

inductive Key
  | escape | enter | v | other
  deriving DecidableEq

/-- The V key of the route tool: a via at the last point, and the other outer layer. -/
def switchLayer (st : State) (s : ToolSession) : State :=
  match s.points.getLast? with
  | none => st
  | some last =>
    let layer := st.activeLayer
    let other := if (copper services).head? = some layer
      then (copper services).getLast?.getD "BL_B_Cu" else (copper services).head?.getD "BL_F_Cu"
    { st with
      layer := some other
      session := some { s with
        points := s.points.dropLast ++ [{ last with layer := some other }]
        vias := s.vias ++ [⟨last.toPt, layer, other⟩] } }

/-- The tools whose first Escape drops the run. -/
def keepsRun : ToolId → Bool
  | .route | .wire | .bus | .polygon => true
  | _ => false

def toolKey (st : State) (key : Key) : State :=
  match st.session with
  | none => st
  | some s =>
    match key with
    | .escape => if s.points ≠ [] ∧ keepsRun s.id then st.setSession s.reset else cancelTool st
    | .enter => toolFinish services st
    | .v => if s.id = .route then switchLayer services st s else st
    | .other => st

/-! ### Runs -/

inductive Input
  | click (storeKey : String) (world : Pt) (hit : Option String) (now : ℤ)
  | key (key : Key)
  deriving DecidableEq

def handle (st : State) : Input → State
  | .click storeKey world hit now => toolClick services st storeKey world hit now
  | .key key => toolKey services st key

inductive Event
  | input (i : Input)
  /-- A pending commit completes. -/
  | completes (k : ℕ)
  deriving DecidableEq

def step (st : State) : Event → Option State
  | .input i => some (handle services st i)
  | .completes k =>
    st.pending[k]?.map fun c => complete c { st with pending := st.pending.eraseIdx k }

/-- All pending commits complete, in the order in which they were started. -/
def awaited (st : State) : State :=
  st.pending.foldl (fun t c => complete c t) { st with pending := [] }

/-- The run in which the commits of every input complete before the next input. -/
def inTurn (st : State) (is : List Input) : State :=
  is.foldl (fun t i => awaited (handle services t i)) st

def Event.inputs : Event → List Input
  | .input i => [i]
  | .completes _ => []

/-! ### Inputs while a commit is pending -/

def Input.clicks (s : ToolSession) : Input → Bool
  | .click storeKey _ _ _ => s.storeKey = storeKey
  | .key _ => false

def Input.doubleClicks (st : State) : Input → Bool
  | .click _ world _ now => isDoubleClick st (snapPt services world) now
  | .key _ => false

def Input.atFirst (s : ToolSession) : Input → Bool
  | .click _ world _ _ => s.points.head?.any (·.toPt = snapPt services world)
  | .key _ => false

/-- The input ends the run of a polygon. -/
def Input.ends (st : State) (s : ToolSession) (i : Input) : Bool :=
  i = .key .enter ∨ i.clicks s ∧ (i.doubleClicks services st ∨ i.atFirst services s)

/-- The input does not meet the old points of the session. -/
def Harmless (st : State) (s : ToolSession) (i : Input) : Prop :=
  match s.id with
  | .line => i.clicks s → i.doubleClicks services st
  | .rect | .circle | .arc => ¬ i.clicks s ∧ i ≠ .key .enter
  | .polygon => i.ends services st s → s.points.length < 3
  | .wire | .bus => ¬ i.clicks s ∧ i ≠ .key .enter ∧ i ≠ .key .escape
  | .route => ¬ i.clicks s ∧ i ≠ .key .enter ∧ i ≠ .key .escape ∧ i ≠ .key .v

instance (st : State) (s : ToolSession) (i : Input) : Decidable (Harmless services st s i) := by
  unfold Harmless
  cases s.id <;> infer_instance

/-- While a commit is pending, the inputs to the session are harmless. -/
def Careful (st : State) : Event → Prop
  | .input i => st.pending ≠ [] → ∀ s ∈ st.session, Harmless services st s i
  | .completes _ => True

instance (st : State) : DecidablePred (Careful services st) := fun e => by
  cases e <;> unfold Careful <;> infer_instance

/-! ### One pending commit -/

/-- What the handlers of a tool do after a commit. -/
def Fits (id : ToolId) (after : After) : Prop :=
  match id with
  | .line => ∃ p, after = .chain p
  | .route | .wire | .bus => after = .done true
  | .rect | .circle | .arc | .polygon => after = .done false

/-- One commit is pending, of the session if there still is one. -/
structure Waits (c : Commit) (st : State) : Prop where
  pending : st.pending = [c]
  fits : Fits c.session.id c.after
  same : ∀ s ∈ st.session,
    s.seq = c.session.seq ∧ s.id = c.session.id ∧ s.storeKey = c.session.storeKey

def Quiet (st : State) : Prop := st.pending = [] ∨ ∃ c, Waits c st

lemma quiet_createItems {st : State} {s : ToolSession} {message : String}
    {items : List StoredItem} {after : After} (hp : st.pending = []) (hs : st.session = some s)
    (hfits : Fits s.id after) : Quiet (st.createItems s message items after) := by
  refine .inr ⟨⟨s, message, items, after⟩, by simp [State.createItems, hp], hfits, fun t ht => ?_⟩
  obtain rfl : s = t := Option.some.inj (hs.symm.trans ht)
  exact ⟨rfl, rfl, rfl⟩

lemma quiet_cancelTool {st : State} (hp : st.pending = []) : Quiet (cancelTool st) := .inl hp

lemma quiet_setSession {st : State} (s : ToolSession) (hp : st.pending = []) :
    Quiet (st.setSession s) := .inl hp

lemma quiet_ite {p : Prop} [Decidable p] {a b : State} (ha : Quiet a) (hb : Quiet b) :
    Quiet (if p then a else b) := by
  split_ifs
  · exact ha
  · exact hb

lemma quiet_toolFinish {st : State} (hp : st.pending = []) : Quiet (toolFinish services st) := by
  rcases hs : st.session with _ | ⟨id, seq, key, points, params, vias, net⟩
  · simpa [toolFinish, hs] using .inl hp
  · cases id
    case route | wire | bus | polygon =>
      simp only [toolFinish, hs]
      exact quiet_ite (quiet_cancelTool hp) (quiet_createItems hp hs rfl)
    all_goals
      rcases points with _ | ⟨a, _ | ⟨b, _ | ⟨c, points⟩⟩⟩ <;> simp only [toolFinish, hs]
      all_goals first | exact .inl hp | exact quiet_createItems hp hs rfl

lemma quiet_clickAt {st : State} {s : ToolSession} {p : Pt} {hit : Option String}
    (hp : st.pending = []) (hs : st.session = some s) :
    Quiet (clickAt services st s p hit) := by
  obtain ⟨id, seq, key, points, params, vias, net⟩ := s
  cases id
  case route =>
    rcases hlast : points.getLast? with _ | last <;> simp only [clickAt, hlast]
    · exact quiet_setSession _ hp
    · exact quiet_ite (.inl hp) (quiet_setSession _ hp)
  case line =>
    rcases hlast : points.getLast? with _ | last <;> simp only [clickAt, hlast]
    · exact quiet_setSession _ hp
    · exact quiet_ite (.inl hp) (quiet_createItems hp hs ⟨_, rfl⟩)
  case wire | bus => exact quiet_setSession _ hp
  case polygon =>
    exact quiet_ite (quiet_toolFinish services hp) (quiet_setSession _ hp)
  case rect =>
    exact quiet_ite (quiet_setSession _ hp) (quiet_toolFinish services hp)
  case circle | arc =>
    exact quiet_ite (quiet_toolFinish services hp) (quiet_setSession _ hp)

lemma quiet_handle {st : State} (i : Input) (hp : st.pending = []) :
    Quiet (handle services st i) := by
  rcases hs : st.session with _ | s
  · cases i <;> simpa [handle, toolClick, toolKey, hs] using .inl hp
  cases i with
  | click storeKey world hit now =>
    simp only [handle, toolClick, hs]
    exact quiet_ite (quiet_ite (quiet_toolFinish services hp) (quiet_clickAt services hp rfl))
      (.inl hp)
  | key key =>
    simp only [handle, toolKey, hs]
    cases key
    case escape => exact quiet_ite (quiet_setSession _ hp) (quiet_cancelTool hp)
    case enter => exact quiet_toolFinish services hp
    case v =>
      refine quiet_ite (.inl ?_) (.inl hp)
      rcases hlast : s.points.getLast? with _ | last <;> simp [switchLayer, hlast, hp]
    case other => exact .inl hp

/-! ### Completing before the next input -/

variable {services}

lemma awaited_nil {st : State} (hp : st.pending = []) : awaited st = st := by
  obtain ⟨session, lastClick, layer, created, pending⟩ := st
  obtain rfl : pending = [] := hp
  rfl

lemma awaited_one {c : Commit} {st : State} (hp : st.pending = [c]) :
    awaited st = complete c { st with pending := [] } := by
  rw [awaited, hp]
  rfl

lemma resume_eq (c : Commit) (st : State) :
    ∃ session lastClick, resume c st = { st with session := session, lastClick := lastClick } := by
  unfold resume
  by_cases hlive : stillActive st c.session
  · rw [if_pos hlive]
    cases c.after with
    | chain p => exact ⟨_, st.lastClick, rfl⟩
    | done again =>
      by_cases hagain : again ∧ ¬ oneShot c.session.id
      · exact ⟨_, st.lastClick, if_pos hagain⟩
      · exact ⟨_, _, if_neg hagain⟩
  · exact ⟨st.session, st.lastClick, if_neg hlive⟩

lemma complete_pending (c : Commit) (st : State) : (complete c st).pending = st.pending := by
  obtain ⟨session, lastClick, h⟩ := resume_eq c { st with created := st.created + c.items }
  rw [complete, h]

lemma awaited_pending {st : State} (h : Quiet st) : (awaited st).pending = [] := by
  rcases h with hp | ⟨c, hw⟩
  · rw [awaited_nil hp, hp]
  · rw [awaited_one hw.pending, complete_pending]

lemma handle_none {st : State} (hs : st.session = none) (i : Input) :
    handle services st i = st := by
  cases i <;> simp [handle, toolClick, toolKey, hs]

lemma handle_idle {st : State} {s : ToolSession} {i : Input} (hs : st.session = some s)
    (hclick : ¬ i.clicks s) (henter : i ≠ .key .enter) (hesc : i ≠ .key .escape)
    (hv : i = .key .v → s.id ≠ .route) : handle services st i = st := by
  cases i with
  | click storeKey world hit now =>
    have hkey : s.storeKey ≠ storeKey := by simpa [Input.clicks] using hclick
    simp [handle, toolClick, hs, hkey]
  | key key =>
    cases key with
    | escape => exact absurd rfl hesc
    | enter => exact absurd rfl henter
    | v => simp [handle, toolKey, hs, hv rfl]
    | other => simp [handle, toolKey, hs]

lemma Waits.stillActive {c : Commit} {st : State} (hw : Waits c st) {s : ToolSession}
    (hs : st.session = some s) : stillActive st c.session := by
  simp [ToolSessions.stillActive, hs, (hw.same s hs).1]

lemma awaited_left {c : Commit} {st : State} (hp : st.pending = [c]) (hs : st.session = none) :
    awaited st = { st with pending := [], created := st.created + c.items } := by
  simp [awaited_one hp, complete, resume, stillActive, hs]

lemma awaited_done {c : Commit} {st : State} (hw : Waits c st) (hafter : c.after = .done false)
    {s : ToolSession} (hs : st.session = some s) :
    awaited st =
      cancelTool { st with pending := [], created := st.created + c.items } := by
  have hlive := hw.stillActive hs
  rw [stillActive, hs] at hlive
  simp [awaited_one hw.pending, complete, resume, stillActive, hs, hlive, hafter]

lemma waits_cancelTool {c : Commit} {st : State} (hw : Waits c st) : Waits c (cancelTool st) :=
  ⟨hw.pending, hw.fits, fun s hs => by cases hs⟩

lemma awaited_cancelTool {c : Commit} {st : State} (hw : Waits c st) :
    awaited (cancelTool st) = cancelTool (awaited st) := by
  obtain ⟨session, lastClick, h⟩ :=
    resume_eq c { st with pending := [], created := st.created + c.items }
  rw [awaited_left (waits_cancelTool hw).pending rfl, awaited_one hw.pending, complete, h]
  rfl

lemma commutes_cancel {c : Commit} {st : State} {i : Input} (hw : Waits c st)
    (hbefore : handle services st i = cancelTool st)
    (hafter : handle services (awaited st) i = cancelTool (awaited st)) :
    Waits c (handle services st i) ∧
      awaited (handle services st i) = awaited (handle services (awaited st) i) := by
  rw [hbefore, hafter]
  have hpending : (cancelTool (awaited st)).pending = [] := awaited_pending (.inr ⟨c, hw⟩)
  exact ⟨waits_cancelTool hw, by rw [awaited_cancelTool hw, awaited_nil hpending]⟩

lemma commutes_idle {c : Commit} {st : State} {i : Input} (hw : Waits c st)
    (hbefore : handle services st i = st) (hafter : handle services (awaited st) i = awaited st) :
    Waits c (handle services st i) ∧
      awaited (handle services st i) = awaited (handle services (awaited st) i) := by
  rw [hbefore, hafter, awaited_nil (awaited_pending (.inr ⟨c, hw⟩))]
  exact ⟨hw, rfl⟩

/-! ### The line tool -/

lemma toolFinish_line {st : State} {s : ToolSession} (hs : st.session = some s)
    (hid : s.id = .line) : toolFinish services st = cancelTool st := by
  simp [toolFinish, hs, hid]

lemma handle_line {st : State} {s : ToolSession} {i : Input} (hs : st.session = some s)
    (hid : s.id = .line) (hi : i.clicks s → i.doubleClicks services st) :
    handle services st i =
      if i.clicks s ∨ i = .key .enter ∨ i = .key .escape then cancelTool st else st := by
  cases i with
  | click storeKey world hit now =>
    by_cases hkey : s.storeKey = storeKey
    · have hdouble : isDoubleClick st (snapPt services world) now :=
        hi (by simpa [Input.clicks] using hkey)
      simp only [handle, toolClick, hs, if_pos hkey, if_pos hdouble]
      rw [toolFinish_line rfl hid, if_pos (.inl (by simpa [Input.clicks] using hkey))]
      rfl
    · simp [handle, toolClick, hs, hkey, Input.clicks]
  | key key =>
    cases key
    case escape => simp [handle, toolKey, hs, hid, keepsRun, Input.clicks]
    case enter => simp [handle, toolKey, hs, toolFinish_line hs hid, Input.clicks]
    case v => simp [handle, toolKey, hs, hid, Input.clicks]
    case other => simp [handle, toolKey, hs, Input.clicks]

lemma commutes_line {c : Commit} {st : State} {s : ToolSession} {i : Input} (hw : Waits c st)
    (hs : st.session = some s) (hid : s.id = .line)
    (hi : i.clicks s → i.doubleClicks services st) :
    Waits c (handle services st i) ∧
      awaited (handle services st i) = awaited (handle services (awaited st) i) := by
  obtain ⟨p, hp⟩ : ∃ p, c.after = .chain p := by
    have hfits := hw.fits
    rwa [← (hw.same s hs).2.1, hid] at hfits
  have hlive := hw.stillActive hs
  rw [stillActive, hs] at hlive
  -- the session goes on from the end of the segment, and clicks are counted as before
  have hawaited : awaited st = { st with
      session := some { s with points := [p] }
      created := st.created + c.items
      pending := [] } := by
    simp [awaited_one hw.pending, complete, resume, stillActive, hs, hlive, hp]
  have hbefore := handle_line hs hid hi
  have hafter : handle services (awaited st) i =
      if i.clicks s ∨ i = .key .enter ∨ i = .key .escape then cancelTool (awaited st)
      else awaited st := by
    have hses : (awaited st).session = some { s with points := [p] } := by rw [hawaited]
    have hclick : i.clicks { s with points := [p] } = i.clicks s := by cases i <;> rfl
    have hdouble : i.doubleClicks services (awaited st) = i.doubleClicks services st := by
      cases i <;> simp [Input.doubleClicks, isDoubleClick, hawaited]
    rw [handle_line hses hid (by rwa [hdouble]), hclick]
  by_cases h : i.clicks s ∨ i = .key .enter ∨ i = .key .escape
  · rw [if_pos h] at hbefore hafter
    exact commutes_cancel hw hbefore hafter
  · rw [if_neg h] at hbefore hafter
    exact commutes_idle hw hbefore hafter

/-! ### The tools that are left after a commit -/

/-- What an input leaves of a session that its commit is going to end. -/
structure Ending (st st' : State) : Prop where
  pending : st'.pending = st.pending
  created : st'.created = st.created
  layer : st'.layer = st.layer
  session : (st'.session = none ∧ st'.lastClick = none) ∨
    ∃ s ∈ st.session, ∃ s' ∈ st'.session, s'.seq = s.seq ∧ s'.id = s.id ∧ s'.storeKey = s.storeKey

lemma commutes_ending {c : Commit} {st : State} {s : ToolSession} {i : Input} (hw : Waits c st)
    (hs : st.session = some s) (hafter : c.after = .done false)
    (hending : Ending st (handle services st i)) :
    Waits c (handle services st i) ∧
      awaited (handle services st i) = awaited (handle services (awaited st) i) := by
  have hdone := awaited_done hw hafter hs
  have hleft : handle services (awaited st) i = awaited st := handle_none (by rw [hdone]; rfl) i
  rw [hleft, awaited_nil (awaited_pending (.inr ⟨c, hw⟩)), hdone]
  obtain ⟨hp, hc, hl, ⟨hnone, hclick⟩ | ⟨t, ht, s', hs', hsame⟩⟩ := hending
  · refine ⟨⟨hp.trans hw.pending, hw.fits, fun t ht => by rw [hnone] at ht; cases ht⟩, ?_⟩
    rw [awaited_left (hp.trans hw.pending) hnone, cancelTool, hc, hl, hnone, hclick]
  · obtain ⟨hseq, hid, hkey⟩ := hw.same t ht
    have hw' : Waits c (handle services st i) := by
      refine ⟨hp.trans hw.pending, hw.fits, fun u hu => ?_⟩
      obtain rfl : s' = u := Option.some.inj (hs'.symm.trans hu)
      exact ⟨hsame.1.trans hseq, hsame.2.1.trans hid, hsame.2.2.trans hkey⟩
    refine ⟨hw', ?_⟩
    rw [awaited_done hw' hafter hs', cancelTool, cancelTool, hc, hl]

lemma ending_cancelTool (st : State) : Ending st (cancelTool st) := ⟨rfl, rfl, rfl, .inl ⟨rfl, rfl⟩⟩

lemma ending_self {st : State} {s : ToolSession} (hs : st.session = some s) : Ending st st :=
  ⟨rfl, rfl, rfl, .inr ⟨s, hs, s, hs, rfl, rfl, rfl⟩⟩

lemma ending_session {st : State} {s s' : ToolSession} (hs : st.session = some s)
    (hsame : s'.seq = s.seq ∧ s'.id = s.id ∧ s'.storeKey = s.storeKey)
    (lastClick : Option LastClick) :
    Ending st { st with session := some s', lastClick := lastClick } :=
  ⟨rfl, rfl, rfl, .inr ⟨s, hs, s', rfl, hsame⟩⟩

lemma ending_oneShot {st : State} {s : ToolSession} {i : Input} (hs : st.session = some s)
    (hid : oneShot s.id) (hclick : ¬ i.clicks s) (henter : i ≠ .key .enter) :
    Ending st (handle services st i) := by
  have hroute : s.id ≠ .route := by
    rintro h
    rw [h] at hid
    cases hid
  have hkeeps : ¬ keepsRun s.id := by
    cases h : s.id <;> simp_all [oneShot, keepsRun]
  by_cases hesc : i = .key .escape
  · subst hesc
    have hcancel : handle services st (.key .escape) = cancelTool st := by
      simp [handle, toolKey, hs, hkeeps]
    rw [hcancel]
    exact ending_cancelTool st
  · rw [handle_idle hs hclick henter hesc fun _ => hroute]
    exact ending_self hs

lemma toolFinish_polygon {st : State} {s : ToolSession} (hs : st.session = some s)
    (hid : s.id = .polygon) (hlen : s.points.length < 3) :
    toolFinish services st = cancelTool st := by
  simp [toolFinish, hs, hid, hlen]

/-- A polygon that is not finished a second time. -/
lemma ending_polygon {st : State} {s : ToolSession} {i : Input} (hs : st.session = some s)
    (hid : s.id = .polygon) (hi : i.ends services st s → s.points.length < 3) :
    Ending st (handle services st i) := by
  cases i with
  | click storeKey world hit now =>
    by_cases hkey : s.storeKey = storeKey
    swap
    · have hself : handle services st (.click storeKey world hit now) = st := by
        simp [handle, toolClick, hs, hkey]
      rw [hself]
      exact ending_self hs
    simp only [handle, toolClick, hs, if_pos hkey]
    by_cases hdouble : isDoubleClick st (snapPt services world) now
    · rw [if_pos hdouble, toolFinish_polygon rfl hid]
      · exact ending_cancelTool st
      · exact hi (by simp [Input.ends, Input.clicks, Input.doubleClicks, hkey, hdouble])
    · rw [if_neg hdouble]
      by_cases hfirst : 3 ≤ s.points.length ∧
          s.points.head?.any (·.toPt = snapPt services world)
      · have hlt := hi (by simp [Input.ends, Input.clicks, Input.atFirst, hkey, hfirst.2])
        exact absurd hfirst.1 (by omega)
      · simp only [clickAt, hid, if_neg hfirst]
        refine ending_session hs ?_ _
        exact ⟨rfl, hid.symm, rfl⟩
  | key key =>
    simp only [handle, toolKey, hs]
    cases key with
    | escape =>
      by_cases h : s.points ≠ [] ∧ keepsRun s.id
      · rw [if_pos h]
        refine ending_session hs ?_ _
        exact ⟨rfl, rfl, rfl⟩
      · rw [if_neg h]
        exact ending_cancelTool st
    | enter =>
      rw [toolFinish_polygon hs hid (hi (by simp [Input.ends]))]
      exact ending_cancelTool st
    | v =>
      simp only [hid]
      exact ending_self hs
    | other => exact ending_self hs

/-! ### The tools that go on -/

lemma commutes_again {c : Commit} {st : State} {s : ToolSession} {i : Input} (hw : Waits c st)
    (hs : st.session = some s) (hid : s.id = .route ∨ s.id = .wire ∨ s.id = .bus)
    (hclick : ¬ i.clicks s) (henter : i ≠ .key .enter) (hesc : i ≠ .key .escape)
    (hv : i = .key .v → s.id ≠ .route) :
    Waits c (handle services st i) ∧
      awaited (handle services st i) = awaited (handle services (awaited st) i) := by
  obtain ⟨hseq, hids, hkey⟩ := hw.same s hs
  have hagain : c.after = .done true := by
    have hfits := hw.fits
    rw [← hids] at hfits
    rcases hid with h | h | h <;> rwa [h] at hfits
  have hshot : oneShot c.session.id = false := by
    rw [← hids]
    rcases hid with h | h | h <;> rw [h] <;> rfl
  have hlive := hw.stillActive hs
  rw [stillActive, hs] at hlive
  have hses : (awaited st).session = some c.session.reset := by
    simp [awaited_one hw.pending, complete, resume, stillActive, hs, hlive, hagain, hshot,
      State.setSession]
  refine commutes_idle hw (handle_idle hs hclick henter hesc hv)
    (handle_idle hses ?_ henter hesc fun h => ?_)
  · cases i with
    | click => simpa [Input.clicks, ToolSession.reset, ← hkey] using hclick
    | key => simp [Input.clicks]
  · exact fun hroute => hv h (hids.trans hroute)

/-- **A harmless input** while a commit is pending may as well be handled after it. -/
theorem commutes_handle {c : Commit} {st : State} {i : Input} (hw : Waits c st)
    (hi : ∀ s ∈ st.session, Harmless services st s i) :
    Waits c (handle services st i) ∧
      awaited (handle services st i) = awaited (handle services (awaited st) i) := by
  rcases Option.eq_none_or_eq_some st.session with hs | ⟨s, hs⟩
  · refine commutes_idle hw (handle_none hs i) (handle_none ?_ i)
    rw [awaited_left hw.pending hs]
    exact hs
  have hharmless := hi s hs
  have hfits := hw.fits
  rw [← (hw.same s hs).2.1] at hfits
  unfold Harmless at hharmless
  cases hid : s.id <;> simp only [hid] at hharmless hfits
  case line => exact commutes_line hw hs hid hharmless
  case rect | circle | arc =>
    exact commutes_ending hw hs hfits
      (ending_oneShot hs (by rw [hid]; rfl) hharmless.1 hharmless.2)
  case polygon => exact commutes_ending hw hs hfits (ending_polygon hs hid hharmless)
  case wire | bus =>
    exact commutes_again hw hs (by simp [hid]) hharmless.1 hharmless.2.1 hharmless.2.2
      (by simp [hid])
  case route =>
    exact commutes_again hw hs (.inl hid) hharmless.1 hharmless.2.1 hharmless.2.2.1
      fun h => absurd h hharmless.2.2.2

/-! ### Every timing -/

variable (services)

/-- The items of the commits that have not completed. -/
def State.started (st : State) : Multiset StoredItem := (st.pending.map fun c => ↑c.items).sum

lemma awaited_created {st : State} (h : Quiet st) :
    (awaited st).created = st.created + st.started := by
  rcases h with hp | ⟨c, hw⟩
  · simp [awaited_nil hp, State.started, hp]
  · obtain ⟨session, lastClick, h⟩ :=
      resume_eq c { st with pending := [], created := st.created + c.items }
    simp [awaited_one hw.pending, complete, h, State.started, hw.pending]

lemma quiet_step {st st' : State} {e : Event} (hq : Quiet st) (hok : Careful services st e)
    (hstep : step services st e = some st') :
    Quiet st' ∧ awaited st' = inTurn services (awaited st) e.inputs := by
  cases e with
  | input i =>
    obtain rfl := Option.some.inj hstep
    simp only [Event.inputs, inTurn, List.foldl_cons, List.foldl_nil]
    rcases hq with hp | ⟨c, hw⟩
    · exact ⟨quiet_handle services i hp, by rw [awaited_nil hp]⟩
    · have hpending : st.pending ≠ [] := by simp [hw.pending]
      obtain ⟨hw', heq⟩ := commutes_handle hw (hok hpending)
      exact ⟨.inr ⟨c, hw'⟩, heq⟩
  | completes k =>
    simp only [step, Option.map_eq_some_iff] at hstep
    obtain ⟨d, hd, rfl⟩ := hstep
    rcases hq with hp | ⟨c, hw⟩
    · simp [hp] at hd
    · rw [hw.pending] at hd ⊢
      obtain ⟨hk, rfl⟩ := List.getElem?_eq_some_iff.mp hd
      obtain rfl : k = 0 := by simpa using hk
      have hnil : (complete c { st with pending := [] }).pending = [] := complete_pending c _
      exact ⟨.inl hnil, (awaited_nil hnil).trans (awaited_one hw.pending).symm⟩

lemma inTurn_append (st : State) (is js : List Input) :
    inTurn services st (is ++ js) = inTurn services (inTurn services st is) js :=
  List.foldl_append

lemma awaited_run {st st' : State} {es : List Event} (hq : Quiet st)
    (hok : Along (step services) (Careful services) st es)
    (hrun : run (step services) st es = some st') :
    Quiet st' ∧ awaited st' = inTurn services (awaited st) (es.flatMap Event.inputs) := by
  induction es generalizing st with
  | nil =>
    obtain rfl := Option.some.inj hrun
    exact ⟨hq, rfl⟩
  | cons e es ih =>
    obtain ⟨t, hstep, hrest⟩ := run_cons_eq_some.mp hrun
    obtain ⟨hqt, ht⟩ := quiet_step services hq hok.1 hstep
    obtain ⟨hq', h⟩ := ih hqt (hok.2 t hstep) hrest
    rw [List.flatMap_cons, inTurn_append, ← ht]
    exact ⟨hq', h⟩

/-- **Any timing of the commits**: where every input that comes while a commit is pending is
harmless, the items created and those under way are the ones that are created when every commit
completes before the next input, and once nothing is pending the whole state is the same. -/
theorem created_any_timing {id : ToolId} {storeKey : String} {params : Params} {seq : ℕ}
    {layer : Option String} {es : List Event} {st : State}
    (hok : Along (step services) (Careful services) (startTool id storeKey params seq layer) es)
    (hrun : run (step services) (startTool id storeKey params seq layer) es = some st) :
    let turns := inTurn services (startTool id storeKey params seq layer) (es.flatMap Event.inputs)
    st.created + st.started = turns.created ∧ (st.pending = [] → st = turns) := by
  obtain ⟨hq, h⟩ := awaited_run services (.inl rfl) hok hrun
  rw [awaited_nil (rfl : (startTool id storeKey params seq layer).pending = [])] at h
  refine ⟨?_, fun hp => ?_⟩
  · rw [← h, awaited_created hq]
  · rw [← h, awaited_nil hp]

/-! ### Two runs -/

def sample : Services where
  gridNm := 10
  netclasses := [⟨"Default", 0, 600, 300⟩]
  rules := some ⟨200, 0, 0⟩
  layers := [⟨"BL_F_Cu", true⟩, ⟨"BL_B_Cu", true⟩, ⟨"BL_F_SilkS", false⟩]
  hypot := fun x y => max |x| |y|

def sampleStart (id : ToolId) : State := startTool id "board" ⟨none, false⟩ 1 none

def after (id : ToolId) (es : List Event) : State :=
  (run (step sample) (sampleStart id) es).getD (sampleStart id)

lemma run_after {id : ToolId} {es : List Event}
    (h : (run (step sample) (sampleStart id) es).isSome) :
    run (step sample) (sampleStart id) es = some (after id es) := by
  obtain ⟨st, hst⟩ := Option.isSome_iff_exists.mp h
  rw [after, hst, Option.getD_some]

def click (x y : ℚ) (now : ℤ) : Event := .input (.click "board" ⟨x, y⟩ (some "GND") now)

def press (key : Key) : Event := .input (.key key)

/-- A route of two segments with a via, finished by a double click, and the start of another. -/
def twoRoutes : List Event :=
  [click 1 2 0, click 98 2 500, press .v, click 98 101 1000, click 98 101 1200, press .other,
    .completes 0, click 0 0 2000, click 50 0 3000, press .enter, .completes 0]

theorem created_any_timing_twoRoutes :
    (after .route twoRoutes).pending = [] ∧
    (after .route twoRoutes) = inTurn sample (sampleStart .route)
      (twoRoutes.flatMap Event.inputs) := by
  have hpending : (after .route twoRoutes).pending = [] := by decide +kernel
  exact ⟨hpending, (created_any_timing sample (by decide +kernel)
    (run_after (by decide +kernel))).2 hpending⟩

/-- Three clicks of the line tool, the third before the commit of the first segment. -/
def earlyClick : List Event :=
  [click 0 0 0, click 100 0 1000, click 100 100 2000, .completes 0, .completes 0]

/-- The second segment starts where the first one does. -/
theorem earlyClick_joins : run (step sample) (sampleStart .line) earlyClick =
      some (after .line earlyClick) ∧
    (after .line earlyClick).pending = [] ∧
    (after .line earlyClick).created ≠
      (inTurn sample (sampleStart .line) (earlyClick.flatMap Event.inputs)).created := by
  decide +kernel

end FabPcb.ToolSessions
