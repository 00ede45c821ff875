import FabPcb.DsnWriter

/-!
The rules of a route request: `applyRequestRules`.

A request may give widths and via sizes for the whole run, for nets and for pairs. What it gives for a
net replaces the rule of the net's class, never below the minima of the board, under a class name that
is made from the net's code.
-/

namespace FabPcb.RequestRules

open OrderedMap DsnWriter
open SpecctraData (RouteNet roundHalfUp)

structure PerNet where
  net : String
  widthMm : Option ℚ
  viaDiameterMm : Option ℚ
  viaDrillMm : Option ℚ

/-- The options that are rules. -/
structure RouteOptions where
  trackWidthMm : Option ℚ
  clearanceMm : Option ℚ
  viaDiameterMm : Option ℚ
  viaDrillMm : Option ℚ
  viaDiameterNm : Option ℚ
  viaDrillNm : Option ℚ
  perNet : List PerNet
  differentialPairs : List DifferentialPair

/-- A pair, and whether the request itself names it. -/
structure Pair extends DifferentialPair where
  isExplicit : Bool

def Pair.names (pair : Pair) : List String := [pair.p, pair.n]

def RouteOptions.global (opts : RouteOptions) : List (Option ℚ) :=
  [opts.trackWidthMm, opts.clearanceMm, opts.viaDiameterMm, opts.viaDrillMm, opts.viaDiameterNm,
    opts.viaDrillNm]

/-- Nothing is asked for. -/
def isIdle (input : RouteInput) (opts : RouteOptions) : Bool :=
  input.differentialPairs.isEmpty && opts.perNet.isEmpty && opts.differentialPairs.isEmpty &&
    opts.global.all (·.isNone)

/-- The request's pairs, and those of the board without a net of theirs. -/
def pairsOf (input : RouteInput) (opts : RouteOptions) : List Pair :=
  let used := opts.differentialPairs.flatMap fun d => [d.p, d.n]
  opts.differentialPairs.map (fun d => ⟨d, true⟩) ++
    (input.differentialPairs.filter fun d => d.p ∉ used && d.n ∉ used).map fun d => ⟨d, false⟩

/-! ### Checks -/

def refuse (bad : Bool) (message : String) : Except String Unit :=
  if bad then .error message else .ok ()

def unknownNets (input : RouteInput) (opts : RouteOptions) : List String :=
  (opts.perNet.map (·.net) ++ (pairsOf input opts).flatMap Pair.names).filter
    (· ∉ input.nets.map (·.name))

def conflicts (opts : RouteOptions) (pair : Pair) (net : String) : Bool :=
  match ((opts.perNet.find? (·.net = net)).bind (·.widthMm)), pair.widthMm with
  | some w, some v => pair.isExplicit && decide (w ≠ v)
  | _, _ => false

def checkPair (opts : RouteOptions) (members : List String) (pair : Pair) : Except String Unit := do
  refuse (decide (pair.p = pair.n) || decide (pair.p ∈ members) || decide (pair.n ∈ members))
    ("invalid or overlapping pair " ++ pair.p ++ "/" ++ pair.n)
  for net in pair.names do
    refuse (conflicts opts pair net) ("conflicting pair width for " ++ net)
  refuse ([pair.gapMm, pair.skewToleranceMm].any fun v => v.any fun q => decide (q < 0))
    ("invalid pair dimensions " ++ pair.p ++ "/" ++ pair.n)

def checkPairs (opts : RouteOptions) : List String → List Pair → Except String Unit
  | _, [] => .ok ()
  | members, pair :: pairs => do
    checkPair opts members pair
    checkPairs opts (members ++ pair.names) pairs

/-- The checks that come before the first rule is changed. -/
def checkRequest (input : RouteInput) (opts : RouteOptions) : Except String Unit := do
  refuse (unknownNets input opts ≠ [])
    ("unknown routing rule nets: " ++
      String.intercalate ", " (unknownNets input opts).reverse.dedup.reverse)
  refuse (¬ (opts.perNet.map (·.net)).Nodup) "duplicate per-net routing rules"
  checkPairs opts [] (pairsOf input opts)

/-! ### Rules -/

/-- What a request says of a net, in millimetres. -/
structure Dimensions where
  width : Option ℚ
  diameter : Option ℚ
  drill : Option ℚ
  clearance : Option ℚ

def Dimensions.isEmpty (d : Dimensions) : Bool :=
  d.width.isNone && d.diameter.isNone && d.drill.isNone && d.clearance.isNone

def dimensionsOf (input : RouteInput) (opts : RouteOptions) (net : String) : Dimensions :=
  let own := opts.perNet.find? (·.net = net)
  let pair := (pairsOf input opts).find? fun d => d.p = net || d.n = net
  { width := (own.bind (·.widthMm)).or
      (if pair.any (·.isExplicit) then (pair.bind (·.widthMm)).or opts.trackWidthMm
        else opts.trackWidthMm.or (pair.bind (·.widthMm)))
    diameter := ((own.bind (·.viaDiameterMm)).or opts.viaDiameterMm).or
      (opts.viaDiameterNm.map (· / 1000000))
    drill := ((own.bind (·.viaDrillMm)).or opts.viaDrillMm).or (opts.viaDrillNm.map (· / 1000000))
    clearance := opts.clearanceMm }

/-- A requested length, but no less than a minimum. -/
def effective (requested : Option ℚ) (minimum base : ℚ) : ℚ :=
  (requested.map fun mm => max (roundHalfUp (mm * 1000000)) minimum).getD base

def fabdeskNet (code : ℤ) : String := "fabdesk_net_" ++ toString code

def override (rules : RouteRules) (code : ℤ) (d : Dimensions) (base : NetRules) : NetRules where
  netClass := fabdeskNet code
  trackWidth := effective d.width rules.minTrackWidth base.trackWidth
  viaDiameter := effective d.diameter rules.minViaDiameter base.viaDiameter
  viaDrill := effective d.drill rules.minViaDrill base.viaDrill
  clearance := effective d.clearance rules.minClearance base.clearance

def isPositive (v : Option ℚ) : Bool := v.all fun q => decide (0 < q)

def checkDimensions (d : Dimensions) (net : String) : Except String Unit := do
  refuse (not ([d.width, d.diameter, d.drill].all isPositive)) ("invalid routing dimensions for " ++ net)
  refuse (d.clearance.any fun q => decide (q < 0)) "invalid routing clearance"

/-- The rules per net once a net has had its turn. -/
def ruleNet (input : RouteInput) (opts : RouteOptions) (perNet : OMap String NetRules)
    (net : RouteNet) : Except String (OMap String NetRules) := do
  let d := dimensionsOf input opts net.name
  checkDimensions d net.name
  if d.isEmpty then return perNet
  else
    let r := override input.rules net.code d ((perNet.get? net.name).getD input.rules.default)
    refuse (r.viaDiameter ≤ r.viaDrill) ("via drill must be smaller than diameter for " ++ net.name)
    return perNet.set net.name r

def ruleNets (input : RouteInput) (opts : RouteOptions) :
    OMap String NetRules → List RouteNet → Except String (OMap String NetRules)
  | perNet, [] => .ok perNet
  | perNet, net :: nets => do ruleNets input opts (← ruleNet input opts perNet net) nets

def applyRequestRules (input : RouteInput) (opts : RouteOptions) : Except String RouteInput :=
  if isIdle input opts then .ok input
  else do
    checkRequest input opts
    let perNet ← ruleNets input opts input.rules.perNet input.nets
    return { input with
      rules := { input.rules with perNet }
      differentialPairs := (pairsOf input opts).map (·.toDifferentialPair) }

/-! ### The effective rule -/

/-- The rule of a net: its class's, with what the request says of the net. -/
def effectiveRule (input : RouteInput) (opts : RouteOptions) (net : String) : NetRules :=
  match (input.nets.filter (·.name = net)).getLast? with
  | none => rulesForNet input net
  | some n =>
    if (dimensionsOf input opts net).isEmpty then rulesForNet input net
    else override input.rules n.code (dimensionsOf input opts net) (rulesForNet input net)

variable {input input' : RouteInput} {opts : RouteOptions}

lemma bind_ok {ε α β : Type} {x : Except ε α} {f : α → Except ε β} {b : β}
    (h : x >>= f = .ok b) : ∃ a, x = .ok a ∧ f a = .ok b := by
  cases x with
  | error e => cases h
  | ok a => exact ⟨a, rfl, h⟩

lemma override_override (rules : RouteRules) (code code' : ℤ) (d : Dimensions) (base : NetRules) :
    override rules code' d (override rules code d base) = override rules code' d base := by
  have heffective : ∀ (v : Option ℚ) (minimum base : ℚ),
      effective v minimum (effective v minimum base) = effective v minimum base := by
    intro v minimum base
    cases v <;> rfl
  simp [override, heffective]

lemma ruleNet_get {perNet perNet' : OMap String NetRules} {n : RouteNet}
    (h : ruleNet input opts perNet n = .ok perNet') (net : String) :
    (perNet'.get? net).getD input.rules.default =
      if n.name = net ∧ (dimensionsOf input opts net).isEmpty = false then
        override input.rules n.code (dimensionsOf input opts net)
          ((perNet.get? net).getD input.rules.default)
      else (perNet.get? net).getD input.rules.default := by
  obtain ⟨_, -, h⟩ := bind_ok h
  split at h
  next hempty =>
    cases h
    rw [if_neg]
    rintro ⟨rfl, hnot⟩
    rw [hempty] at hnot
    cases hnot
  next hsome =>
    obtain ⟨_, -, h⟩ := bind_ok h
    cases h
    rw [OMap.get?_set]
    by_cases hnet : n.name = net
    · subst hnet
      rw [if_pos rfl, if_pos ⟨rfl, Bool.eq_false_iff.mpr hsome⟩, Option.getD_some]
    · rw [if_neg (Ne.symm hnet), if_neg fun h => hnet h.1]

/-- What all nets make of a rule: the last of the name counts. -/
lemma ruleNets_get {perNet perNet' : OMap String NetRules} {nets : List RouteNet}
    (h : ruleNets input opts perNet nets = .ok perNet') (net : String) :
    (perNet'.get? net).getD input.rules.default =
      match (nets.filter (·.name = net)).getLast? with
      | none => (perNet.get? net).getD input.rules.default
      | some n =>
        if (dimensionsOf input opts net).isEmpty then (perNet.get? net).getD input.rules.default
        else override input.rules n.code (dimensionsOf input opts net)
          ((perNet.get? net).getD input.rules.default) := by
  induction nets generalizing perNet with
  | nil =>
    cases h
    rfl
  | cons n nets ih =>
    obtain ⟨perNet₁, hfirst, hrest⟩ := bind_ok h
    rw [ih hrest, ruleNet_get hfirst net]
    by_cases hnet : n.name = net
    · rw [List.filter_cons_of_pos (by simpa using hnet)]
      cases hempty : (dimensionsOf input opts net).isEmpty with
      | true =>
        rw [if_neg (by simp)]
        cases (nets.filter (·.name = net)).getLast? <;>
          cases (n :: nets.filter (·.name = net)).getLast? <;> rfl
      | false =>
        rw [if_pos ⟨hnet, rfl⟩]
        cases hlast : (nets.filter (·.name = net)).getLast? with
        | none =>
          rw [List.getLast?_eq_none_iff.mp hlast]
          rfl
        | some m =>
          rw [List.getLast?_cons, hlast]
          exact override_override _ _ _ _ _
    · rw [List.filter_cons_of_neg (by simpa using hnet), if_neg fun h => hnet h.1]

lemma dimensions_idle (h : isIdle input opts = true) (net : String) :
    (dimensionsOf input opts net).isEmpty = true := by
  simp only [isIdle, Bool.and_eq_true, List.isEmpty_iff, RouteOptions.global, List.all_cons,
    List.all_nil, Option.isNone_iff_eq_none] at h
  obtain ⟨⟨⟨hpairs, hper⟩, hown⟩, htrack, hclearance, hdiameter, hdrill, hdiameterNm, hdrillNm, -⟩ := h
  simp [dimensionsOf, Dimensions.isEmpty, pairsOf, hpairs, hper, hown, htrack, hclearance, hdiameter,
    hdrill, hdiameterNm, hdrillNm]

/-- **Request rules.** After an accepted request every net has its effective rule, and nothing else of
the input that a file is written from has changed. -/
theorem rulesForNet_apply (h : applyRequestRules input opts = .ok input') (net : String) :
    rulesForNet input' net = effectiveRule input opts net ∧
      ∃ perNet pairs, input' = { input with
        rules := { input.rules with perNet }, differentialPairs := pairs } := by
  unfold applyRequestRules at h
  split at h
  next hidle =>
    cases h
    refine ⟨?_, input.rules.perNet, input.differentialPairs, rfl⟩
    unfold effectiveRule
    rw [dimensions_idle hidle net]
    cases (input.nets.filter (·.name = net)).getLast? <;> rfl
  · obtain ⟨_, -, h⟩ := bind_ok h
    obtain ⟨perNet, hperNet, h⟩ := bind_ok h
    cases h
    exact ⟨ruleNets_get hperNet net, perNet, _, rfl⟩

end FabPcb.RequestRules
