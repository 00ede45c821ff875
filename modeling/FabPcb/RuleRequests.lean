import FabPcb.RequestRules

/-!
The rules of a route request as `applyRequestRules` writes them: into its input, a net at a time,
with what is left there of a request that is refused. And the rules that Freerouting is given:
`freeroutingRuleInput`.

A number of a request may be infinite or no number at all. The lines for the log are left out.
-/

namespace FabPcb.RuleRequests

open OrderedMap
open RequestRules (refuse fabdeskNet)
open SpecctraData (RouteNet roundHalfUp)

/-! ### The request -/

inductive Number
  | finite (q : ℚ)
  | infinite (negative : Bool)
  | nan
  deriving DecidableEq

namespace Number

def finite? : Number → Option ℚ
  | finite q => some q
  | infinite _ | nan => none

/-- `v / 1e6` -/
def nmToMm : Number → Number
  | finite q => finite (q / 1000000)
  | infinite negative => infinite negative
  | nan => nan

/-- `a !== b` -/
def differs (a b : Number) : Bool := a = nan || b = nan || a ≠ b

/-- `Number.isFinite(v) && v > 0` -/
def isPositive (v : Number) : Bool := v.finite?.any fun q => decide (0 < q)

/-- `!Number.isFinite(v) || v < 0` -/
def isBad (v : Number) : Bool := v.finite?.all fun q => decide (q < 0)

end Number

structure PerNet where
  net : String
  widthMm : Option Number := none
  viaDiameterMm : Option Number := none
  viaDrillMm : Option Number := none

structure DifferentialPair where
  p : String
  n : String
  widthMm : Option Number := none
  gapMm : Option Number := none
  skewToleranceMm : Option Number := none

structure RouteOptions where
  trackWidthMm : Option Number := none
  clearanceMm : Option Number := none
  viaDiameterMm : Option Number := none
  viaDrillMm : Option Number := none
  viaDiameterNm : Option Number := none
  viaDrillNm : Option Number := none
  perNet : List PerNet := []
  differentialPairs : List DifferentialPair := []

/-! ### The input -/

structure RouteNetRules where
  netClass : String
  clearance : ℚ
  trackWidth : ℚ
  viaDiameter : ℚ
  viaDrill : ℚ

structure RouteRules where
  minClearance : ℚ
  minTrackWidth : ℚ
  minViaDiameter : ℚ
  minViaDrill : ℚ
  minViaAnnularWidth : Option ℚ
  default : RouteNetRules
  perNet : OMap String RouteNetRules

structure RouteInput where
  nets : List RouteNet
  rules : RouteRules
  differentialPairs : Option (List DifferentialPair)

def rulesForNet (rules : RouteRules) (net : String) : RouteNetRules :=
  (rules.perNet.get? net).getD rules.default

/-- Nothing is asked for. -/
def isIdle (input : RouteInput) (opts : RouteOptions) : Bool :=
  (input.differentialPairs.getD []).isEmpty && opts.perNet.isEmpty &&
    opts.differentialPairs.isEmpty &&
    [opts.trackWidthMm, opts.clearanceMm, opts.viaDiameterMm, opts.viaDrillMm, opts.viaDiameterNm,
      opts.viaDrillNm].all (·.isNone)

/-- A pair, and whether the request itself names it. -/
structure Pair extends DifferentialPair where
  isExplicit : Bool

def DifferentialPair.has (d : DifferentialPair) (net : String) : Bool := d.p = net || d.n = net

/-- The nets of the request's pairs. -/
def used (opts : RouteOptions) : List String := opts.differentialPairs.flatMap fun d => [d.p, d.n]

/-- The pairs of the board without a net of theirs. -/
def natives (input : RouteInput) (opts : RouteOptions) : List DifferentialPair :=
  (input.differentialPairs.getD []).filter fun d => d.p ∉ used opts && d.n ∉ used opts

def pairsOf (input : RouteInput) (opts : RouteOptions) : List Pair :=
  opts.differentialPairs.map (fun d => ⟨d, true⟩) ++
    (natives input opts).map fun d => ⟨d, false⟩

/-! ### Checks -/

def unknownNets (input : RouteInput) (opts : RouteOptions) : List String :=
  (opts.perNet.map (·.net) ++ (pairsOf input opts).flatMap fun d => [d.p, d.n]).filter
    (· ∉ input.nets.map (·.name))

def conflicts (opts : RouteOptions) (pair : Pair) (net : String) : Bool :=
  match (opts.perNet.find? (·.net = net)).bind (·.widthMm), pair.widthMm with
  | some w, some v => pair.isExplicit && w.differs v
  | _, _ => false

def checkPair (opts : RouteOptions) (members : List String) (pair : Pair) : Except String Unit := do
  refuse (decide (pair.p = pair.n) || decide (pair.p ∈ members) || decide (pair.n ∈ members))
    ("invalid or overlapping pair " ++ pair.p ++ "/" ++ pair.n)
  refuse (conflicts opts pair pair.p) ("conflicting pair width for " ++ pair.p)
  refuse (conflicts opts pair pair.n) ("conflicting pair width for " ++ pair.n)
  refuse ([pair.gapMm, pair.skewToleranceMm].any (·.any (·.isBad)))
    ("invalid pair dimensions " ++ pair.p ++ "/" ++ pair.n)

def checkPairs (opts : RouteOptions) : List String → List Pair → Except String Unit
  | _, [] => .ok ()
  | members, pair :: pairs => do
    checkPair opts members pair
    checkPairs opts (members ++ [pair.p, pair.n]) pairs

/-- The checks that come before the first rule is written. -/
def checkRequest (input : RouteInput) (opts : RouteOptions) : Except String Unit := do
  refuse (unknownNets input opts ≠ [])
    ("unknown routing rule nets: " ++
      String.intercalate ", " (unknownNets input opts).reverse.dedup.reverse)
  refuse (¬ (opts.perNet.map (·.net)).Nodup) "duplicate per-net routing rules"
  checkPairs opts [] (pairsOf input opts)

/-! ### Rules -/

/-- What a request says of a net, in millimetres. -/
structure Dimensions where
  width : Option Number
  diameter : Option Number
  drill : Option Number
  clearance : Option Number

def Dimensions.isEmpty (d : Dimensions) : Bool :=
  d.width.isNone && d.diameter.isNone && d.drill.isNone && d.clearance.isNone

def dimensionsOf (opts : RouteOptions) (pairs : List Pair) (net : String) : Dimensions :=
  let own := opts.perNet.find? (·.net = net)
  let pair := pairs.find? (·.has net)
  { width := (own.bind (·.widthMm)).or
      (if pair.any (·.isExplicit) then (pair.bind (·.widthMm)).or opts.trackWidthMm
        else opts.trackWidthMm.or (pair.bind (·.widthMm)))
    diameter := ((own.bind (·.viaDiameterMm)).or opts.viaDiameterMm).or
      (opts.viaDiameterNm.map Number.nmToMm)
    drill := ((own.bind (·.viaDrillMm)).or opts.viaDrillMm).or
      (opts.viaDrillNm.map Number.nmToMm)
    clearance := opts.clearanceMm }

/-- A requested length, but no less than a minimum. Only what is finite gets here. -/
def effective (requested : Option Number) (minimum base : ℚ) : ℚ :=
  ((requested.bind Number.finite?).map fun mm =>
    max (roundHalfUp (mm * 1000000)) minimum).getD base

def override (rules : RouteRules) (code : ℤ) (d : Dimensions) (base : RouteNetRules) :
    RouteNetRules where
  netClass := fabdeskNet code
  trackWidth := effective d.width rules.minTrackWidth base.trackWidth
  viaDiameter := effective d.diameter rules.minViaDiameter base.viaDiameter
  viaDrill := effective d.drill rules.minViaDrill base.viaDrill
  clearance := effective d.clearance rules.minClearance base.clearance

def checkDimensions (d : Dimensions) (net : String) : Except String Unit := do
  refuse (not ([d.width, d.diameter, d.drill].all (·.all (·.isPositive))))
    ("invalid routing dimensions for " ++ net)
  refuse (d.clearance.any (·.isBad)) "invalid routing clearance"

/-- A net has its turn. -/
def ruleNet (opts : RouteOptions) (pairs : List Pair) (rules : RouteRules) (n : RouteNet) :
    Except String RouteRules := do
  let d := dimensionsOf opts pairs n.name
  checkDimensions d n.name
  if d.isEmpty then return rules
  else
    let r := override rules n.code d (rulesForNet rules n.name)
    refuse (r.viaDiameter ≤ r.viaDrill) ("via drill must be smaller than diameter for " ++ n.name)
    return { rules with perNet := rules.perNet.set n.name r }

/-- The nets in turn, up to the first that is refused: what has been written stays. -/
def ruleNets (opts : RouteOptions) (pairs : List Pair) :
    RouteRules → List RouteNet → RouteRules × Except String Unit
  | rules, [] => (rules, .ok ())
  | rules, n :: ns =>
    match ruleNet opts pairs rules n with
    | .error e => (rules, .error e)
    | .ok rules' => ruleNets opts pairs rules' ns

/-- The input afterwards, and whether the call has thrown. -/
def applyRequestRules (input : RouteInput) (opts : RouteOptions) :
    RouteInput × Except String Unit :=
  if isIdle input opts then (input, .ok ())
  else
    match checkRequest input opts with
    | .error e => (input, .error e)
    | .ok () =>
      let pairs := pairsOf input opts
      let ruled := ruleNets opts pairs input.rules input.nets
      match ruled.2 with
      | .error e => ({ input with rules := ruled.1 }, .error e)
      | .ok () =>
        ({ input with
            rules := ruled.1
            differentialPairs := some (pairs.map (·.toDifferentialPair)) }, .ok ())

/-! ### Freerouting -/

def floor (minimums : RouteRules) (r : RouteNetRules) : RouteNetRules :=
  let viaDrill := max r.viaDrill minimums.minViaDrill
  { r with
    clearance := max r.clearance minimums.minClearance
    trackWidth := max r.trackWidth minimums.minTrackWidth
    viaDrill := viaDrill
    viaDiameter := max (max r.viaDiameter minimums.minViaDiameter)
      (viaDrill + 2 * minimums.minViaAnnularWidth.getD 0) }

/-- The same keys in the same order, each value changed. -/
def mapValues {κ ν : Type} (f : ν → ν) (m : OMap κ ν) : OMap κ ν where
  entries := m.entries.map fun e => (e.1, f e.2)
  nodup := by
    rw [List.map_map]
    exact m.nodup

def freeroutingRuleInput (input : RouteInput) : RouteInput :=
  { input with
    rules := { input.rules with
      default := floor input.rules input.rules.default
      perNet := mapValues (floor input.rules) input.rules.perNet } }

/-! ### What is wanted -/

/-- The first of some sources that gives something. -/
def firstGiven (sources : List (Option Number)) : Option Number := sources.findSome? id

/-- What a request asks for a net: the entry of the net over its pair over what is asked for the
whole run. A width that the board gives a pair of its own comes last. -/
def asked (input : RouteInput) (opts : RouteOptions) (net : String) : Dimensions :=
  let own := opts.perNet.find? (·.net = net)
  let pair := opts.differentialPairs.find? (·.has net)
  let native := (natives input opts).find? (·.has net)
  { width := firstGiven [own.bind (·.widthMm), pair.bind (·.widthMm), opts.trackWidthMm,
      native.bind (·.widthMm)]
    diameter := firstGiven [own.bind (·.viaDiameterMm), opts.viaDiameterMm,
      opts.viaDiameterNm.map Number.nmToMm]
    drill := firstGiven [own.bind (·.viaDrillMm), opts.viaDrillMm,
      opts.viaDrillNm.map Number.nmToMm]
    clearance := opts.clearanceMm }

/-- The request has its way, and nothing else has changed. -/
structure Applied (input : RouteInput) (opts : RouteOptions) (input' : RouteInput) : Prop where
  trackWidth : ∀ n ∈ input.nets, (rulesForNet input'.rules n.name).trackWidth =
    effective (asked input opts n.name).width input.rules.minTrackWidth
      (rulesForNet input.rules n.name).trackWidth
  viaDiameter : ∀ n ∈ input.nets, (rulesForNet input'.rules n.name).viaDiameter =
    effective (asked input opts n.name).diameter input.rules.minViaDiameter
      (rulesForNet input.rules n.name).viaDiameter
  viaDrill : ∀ n ∈ input.nets, (rulesForNet input'.rules n.name).viaDrill =
    effective (asked input opts n.name).drill input.rules.minViaDrill
      (rulesForNet input.rules n.name).viaDrill
  clearance : ∀ n ∈ input.nets, (rulesForNet input'.rules n.name).clearance =
    effective (asked input opts n.name).clearance input.rules.minClearance
      (rulesForNet input.rules n.name).clearance
  drill : ∀ n ∈ input.nets, (asked input opts n.name).isEmpty = false →
    (rulesForNet input'.rules n.name).viaDrill < (rulesForNet input'.rules n.name).viaDiameter
  kept : ∀ net, ((∀ n ∈ input.nets, n.name ≠ net) ∨ (asked input opts net).isEmpty = true) →
    input'.rules.perNet.get? net = input.rules.perNet.get? net
  beside : ∃ perNet pairs, input' =
    { input with rules := { input.rules with perNet }, differentialPairs := pairs }

/-- A rule meets the minima of the board. -/
structure MeetsMinima (minimums : RouteRules) (r : RouteNetRules) : Prop where
  clearance : minimums.minClearance ≤ r.clearance
  trackWidth : minimums.minTrackWidth ≤ r.trackWidth
  viaDiameter : minimums.minViaDiameter ≤ r.viaDiameter
  viaDrill : minimums.minViaDrill ≤ r.viaDrill
  annular : r.viaDrill + 2 * minimums.minViaAnnularWidth.getD 0 ≤ r.viaDiameter

/-- No dimension is lowered. -/
structure Raised (r r' : RouteNetRules) : Prop where
  netClass : r'.netClass = r.netClass
  clearance : r.clearance ≤ r'.clearance
  trackWidth : r.trackWidth ≤ r'.trackWidth
  viaDiameter : r.viaDiameter ≤ r'.viaDiameter
  viaDrill : r.viaDrill ≤ r'.viaDrill

/-- The rules for Freerouting. -/
structure Floored (input : RouteInput) : Prop where
  meets : ∀ net, MeetsMinima input.rules (rulesForNet (freeroutingRuleInput input).rules net)
  default : MeetsMinima input.rules (freeroutingRuleInput input).rules.default
  raised : ∀ net, Raised (rulesForNet input.rules net)
    (rulesForNet (freeroutingRuleInput input).rules net)
  keys : (freeroutingRuleInput input).rules.perNet.keys = input.rules.perNet.keys
  beside : ∃ base perNet, freeroutingRuleInput input =
    { input with rules := { input.rules with default := base, perNet } }
  idempotent : freeroutingRuleInput (freeroutingRuleInput input) = freeroutingRuleInput input

/-- A request that is refused changes nothing; any other has its way. -/
def Correct (input : RouteInput) (opts : RouteOptions) : Prop :=
  ((∃ e, (applyRequestRules input opts).2 = .error e) → (applyRequestRules input opts).1 = input) ∧
    ((applyRequestRules input opts).2 = .ok () →
      Applied input opts (applyRequestRules input opts).1 ∧
      Floored (applyRequestRules input opts).1)

/-- The turn of a net ends with an error. -/
def Refused (opts : RouteOptions) (pairs : List Pair) (rules : RouteRules) (n : RouteNet) : Prop :=
  let d := dimensionsOf opts pairs n.name
  let r := override rules n.code d (rulesForNet rules n.name)
  (∃ v ∈ [d.width, d.diameter, d.drill], v.all (·.isPositive) = false) ∨
    d.clearance.any (·.isBad) = true ∨ d.isEmpty = false ∧ r.viaDiameter ≤ r.viaDrill

/-- Whatever the nets before the first refused one have been given was their rule before. -/
def Untouched (input : RouteInput) (opts : RouteOptions) : Prop :=
  let pairs := pairsOf input opts
  ∀ before n after, input.nets = before ++ n :: after →
    (∀ m ∈ before, ¬ Refused opts pairs input.rules m) → Refused opts pairs input.rules n →
    ∀ net m, (before.filter (·.name = net)).getLast? = some m →
      (dimensionsOf opts pairs net).isEmpty = false →
      input.rules.perNet.get? net = some (override input.rules m.code (dimensionsOf opts pairs net)
        (rulesForNet input.rules net))

end FabPcb.RuleRequests
