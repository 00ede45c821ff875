import Mathlib.Data.List.Induction
import FabPcb.RuleRequests

/-!
What is left of a route request that is refused, and what a request that is not refused has done.

The turn of a net writes the rule of its own name only, and what a request says of a net overrides
what it has said before. So the rules that have been written when a net is refused can be read off
the input, net by net.
-/

namespace FabPcb.RequestEffects

open OrderedMap RuleRequests
open RequestRules (refuse bind_ok)
open SpecctraData (RouteNet)

/-! ### Maps -/

section Maps

variable {κ ν : Type} [DecidableEq κ]

lemma keys_prefix_set (m : OMap κ ν) (k : κ) (v : ν) : m.keys <+: (m.set k v).keys := by
  rw [OMap.keys, OMap.keys, OMap.set, OMap.setEntries_keys]
  split_ifs
  · exact List.prefix_rfl
  · exact List.prefix_append _ _

lemma eq_of_keys {m m' : OMap κ ν} (hkeys : m.keys = m'.keys)
    (hget : ∀ k, m.get? k = m'.get? k) : m = m' := by
  have hvalue : ∀ (n : OMap κ ν), n.entries.map (fun e => (e.1, some e.2)) =
      n.keys.map fun k => (k, n.get? k) := by
    intro n
    rw [OMap.keys, List.map_map]
    refine List.map_congr_left fun e he => ?_
    exact congrArg (Prod.mk e.1) (OMap.get?_eq_some_iff.mpr he).symm
  have hsome : Function.Injective fun e : κ × ν => (e.1, some e.2) := by
    rintro ⟨a, b⟩ ⟨c, d⟩ h
    simpa using h
  refine OMap.ext (List.map_injective_iff.mpr hsome ?_)
  rw [hvalue, hvalue, hkeys]
  exact List.map_congr_left fun k _ => congrArg (Prod.mk k) (hget k)

lemma eq_of_prefix {m m' : OMap κ ν} (hkeys : m.keys <+: m'.keys)
    (hget : ∀ k, m'.get? k = m.get? k) : m' = m := by
  obtain ⟨l, hl⟩ := hkeys
  have hnil : l = [] := by
    refine List.eq_nil_iff_forall_not_mem.mpr fun k hk => ?_
    have hmem : k ∈ m'.keys := hl ▸ List.mem_append_right _ hk
    obtain ⟨v, hv⟩ := OMap.mem_keys_iff.mp hmem
    rw [hget k] at hv
    have hnodup := hl ▸ m'.keys_nodup
    exact List.disjoint_of_nodup_append hnodup (OMap.mem_keys_iff.mpr ⟨v, hv⟩) hk
  rw [hnil, List.append_nil] at hl
  exact (eq_of_keys hl fun k => (hget k).symm).symm

@[simp] lemma get?_mapValues (f : ν → ν) (m : OMap κ ν) (k : κ) :
    (mapValues f m).get? k = (m.get? k).map f := by
  rw [mapValues, OMap.get?, OMap.get?, List.find?_map, Option.map_map, Option.map_map]
  rfl

end Maps

/-! ### The turn of a net -/

variable {opts : RouteOptions} {pairs : List Pair} {rules rules' : RouteRules} {n : RouteNet}

/-- What the turn of a net that is not refused writes. -/
def written (opts : RouteOptions) (pairs : List Pair) (rules : RouteRules) (n : RouteNet) :
    RouteRules :=
  if (dimensionsOf opts pairs n.name).isEmpty then rules
  else { rules with
    perNet := rules.perNet.set n.name
      (override rules n.code (dimensionsOf opts pairs n.name) (rulesForNet rules n.name)) }

lemma refuse_eq (bad : Bool) (message : String) :
    (bad = true ∧ refuse bad message = .error message) ∨
      (bad = false ∧ refuse bad message = .ok ()) := by
  cases bad with
  | true => exact .inl ⟨rfl, rfl⟩
  | false => exact .inr ⟨rfl, rfl⟩

lemma checkDimensions_cases (d : Dimensions) (net : String) :
    (((∃ v ∈ [d.width, d.diameter, d.drill], v.all (·.isPositive) = false) ∨
        d.clearance.any (·.isBad) = true) ∧ ∃ e, checkDimensions d net = .error e) ∨
      (¬ ((∃ v ∈ [d.width, d.diameter, d.drill], v.all (·.isPositive) = false) ∨
        d.clearance.any (·.isBad) = true) ∧ checkDimensions d net = .ok ()) := by
  rw [checkDimensions]
  rcases refuse_eq (not ([d.width, d.diameter, d.drill].all (·.all (·.isPositive))))
    ("invalid routing dimensions for " ++ net) with ⟨hbad, hrefuse⟩ | ⟨hgood, hrefuse⟩
  · rw [hrefuse]
    rw [Bool.not_eq_true', List.all_eq_false] at hbad
    obtain ⟨v, hv, hnot⟩ := hbad
    exact .inl ⟨.inl ⟨v, hv, Bool.eq_false_iff.mpr hnot⟩, _, rfl⟩
  · rw [hrefuse]
    rw [Bool.not_eq_false', List.all_eq_true] at hgood
    have hnone : ¬ ∃ v ∈ [d.width, d.diameter, d.drill], v.all (·.isPositive) = false := by
      rintro ⟨v, hv, hnot⟩
      exact absurd (hgood v hv) (Bool.eq_false_iff.mp hnot)
    rcases refuse_eq (d.clearance.any (·.isBad)) "invalid routing clearance" with
      ⟨hbad, hrefuse'⟩ | ⟨hgood', hrefuse'⟩
    · exact .inl ⟨.inr hbad, _, hrefuse'⟩
    · refine .inr ⟨?_, hrefuse'⟩
      rintro (h | h)
      · exact hnone h
      · rw [hgood'] at h
        exact Bool.false_ne_true h

/-- A net is refused, or its rule is written. -/
lemma ruleNet_cases : (Refused opts pairs rules n ∧ ∃ e, ruleNet opts pairs rules n = .error e) ∨
    (¬ Refused opts pairs rules n ∧
      ruleNet opts pairs rules n = .ok (written opts pairs rules n)) := by
  rw [ruleNet]
  dsimp only
  rcases checkDimensions_cases (dimensionsOf opts pairs n.name) n.name with
    ⟨hbad, e, he⟩ | ⟨hgood, hok⟩
  · rw [he]
    exact .inl ⟨hbad.imp_right .inl, e, rfl⟩
  · rw [hok, written]
    cases hempty : (dimensionsOf opts pairs n.name).isEmpty with
    | true =>
      refine .inr ⟨?_, rfl⟩
      rintro (h | h | ⟨h, -⟩)
      · exact hgood (.inl h)
      · exact hgood (.inr h)
      · rw [hempty] at h
        exact Bool.false_ne_true h.symm
    | false =>
      rcases refuse_eq (decide ((override rules n.code (dimensionsOf opts pairs n.name)
          (rulesForNet rules n.name)).viaDiameter ≤ (override rules n.code
          (dimensionsOf opts pairs n.name) (rulesForNet rules n.name)).viaDrill))
        ("via drill must be smaller than diameter for " ++ n.name) with
        ⟨hbad, hrefuse⟩ | ⟨hgood', hrefuse⟩
      · refine .inl ⟨.inr (.inr ⟨hempty, of_decide_eq_true hbad⟩),
          "via drill must be smaller than diameter for " ++ n.name, ?_⟩
        rw [hrefuse]
        rfl
      · refine .inr ⟨?_, ?_⟩
        · rintro (h | h | ⟨-, h⟩)
          · exact hgood (.inl h)
          · exact hgood (.inr h)
          · exact of_decide_eq_false hgood' h
        · rw [hrefuse]
          rfl

lemma effective_effective (v : Option Number) (minimum base : ℚ) :
    effective v minimum (effective v minimum base) = effective v minimum base := by
  rw [effective, effective]
  cases v.bind Number.finite? <;> rfl

lemma rulesForNet_set (k net : String) (r : RouteNetRules) :
    rulesForNet { rules with perNet := rules.perNet.set k r } net =
      if net = k then r else rulesForNet rules net := by
  rw [rulesForNet, OMap.get?_set]
  by_cases h : net = k
  · rw [if_pos h, if_pos h, Option.getD_some]
  · rw [if_neg h, if_neg h]
    rfl

lemma override_written (m : RouteNet) (code : ℤ) (net : String) :
    override (written opts pairs rules m) code (dimensionsOf opts pairs net)
        (rulesForNet (written opts pairs rules m) net) =
      override rules code (dimensionsOf opts pairs net) (rulesForNet rules net) := by
  rw [written]
  split_ifs with hempty
  · rfl
  · rw [rulesForNet_set]
    by_cases hnet : net = m.name
    · subst hnet
      simp [override, effective_effective]
    · rw [if_neg hnet]
      rfl

lemma refused_written (m : RouteNet) :
    Refused opts pairs (written opts pairs rules m) n ↔ Refused opts pairs rules n := by
  simp [Refused, override_written]

/-! ### The nets in turn -/

section Nets

variable {nets : List RouteNet}

/-- The nets up to the first that is refused have had their turn. -/
lemma ruleNets_cases : ((∀ n ∈ nets, ¬ Refused opts pairs rules n) ∧
      ruleNets opts pairs rules nets = (nets.foldl (written opts pairs) rules, .ok ())) ∨
    ∃ before n after e, nets = before ++ n :: after ∧
      (∀ m ∈ before, ¬ Refused opts pairs rules m) ∧ Refused opts pairs rules n ∧
      ruleNets opts pairs rules nets = (before.foldl (written opts pairs) rules, .error e) := by
  induction nets generalizing rules with
  | nil => exact .inl ⟨fun _ h => absurd h List.not_mem_nil, rfl⟩
  | cons n nets ih =>
    rw [ruleNets]
    rcases @ruleNet_cases opts pairs rules n with ⟨hrefused, e, he⟩ | ⟨hnot, hok⟩
    · refine .inr ⟨[], n, nets, e, rfl, fun _ h => absurd h List.not_mem_nil, hrefused, ?_⟩
      rw [he]
      rfl
    · rw [hok]
      rcases @ih (written opts pairs rules n) with ⟨hall, heq⟩ |
        ⟨before, m, after, e, rfl, hbefore, hm, heq⟩
      · refine .inl ⟨fun m hm => ?_, heq⟩
        rcases List.mem_cons.mp hm with rfl | hm
        · exact hnot
        · exact fun h => hall m hm ((refused_written n).mpr h)
      · refine .inr ⟨n :: before, m, after, e, rfl, fun k hk => ?_, (refused_written n).mp hm,
          heq⟩
        rcases List.mem_cons.mp hk with rfl | hk
        · exact hnot
        · exact fun h => hbefore k hk ((refused_written n).mpr h)

lemma foldl_override (code : ℤ) (net : String) :
    override (nets.foldl (written opts pairs) rules) code (dimensionsOf opts pairs net)
        (rulesForNet (nets.foldl (written opts pairs) rules) net) =
      override rules code (dimensionsOf opts pairs net) (rulesForNet rules net) := by
  induction nets generalizing rules with
  | nil => rfl
  | cons n nets ih =>
    rw [List.foldl_cons, ih, override_written]

lemma written_beside : ∃ perNet, written opts pairs rules n = { rules with perNet } := by
  rw [written]
  split_ifs
  · exact ⟨rules.perNet, rfl⟩
  · exact ⟨_, rfl⟩

lemma foldl_beside : ∃ perNet, nets.foldl (written opts pairs) rules = { rules with perNet } := by
  induction nets generalizing rules with
  | nil => exact ⟨rules.perNet, rfl⟩
  | cons n nets ih =>
    obtain ⟨perNet, h⟩ := @written_beside opts pairs rules n
    obtain ⟨perNet', h'⟩ := @ih (written opts pairs rules n)
    rw [List.foldl_cons, h', h]
    exact ⟨perNet', rfl⟩

/-- The last net of a name writes the rule of the name. -/
lemma foldl_get (net : String) :
    (nets.foldl (written opts pairs) rules).perNet.get? net =
      match (nets.filter (·.name = net)).getLast? with
      | none => rules.perNet.get? net
      | some m =>
        if (dimensionsOf opts pairs net).isEmpty then rules.perNet.get? net
        else some (override rules m.code (dimensionsOf opts pairs net) (rulesForNet rules net)) := by
  induction nets using List.reverseRecOn with
  | nil => rfl
  | append_singleton nets n ih =>
    rw [List.foldl_append, List.foldl_cons, List.foldl_nil, List.filter_append, written]
    by_cases hnet : n.name = net
    · subst hnet
      rw [List.filter_cons_of_pos (by simp), List.filter_nil, List.getLast?_append]
      simp only [List.getLast?_singleton, Option.some_or]
      split_ifs with hempty
      · rw [ih]
        cases (nets.filter (·.name = n.name)).getLast? with
        | none => rfl
        | some m => exact if_pos hempty
      · rw [OMap.get?_set, if_pos rfl, foldl_override]
    · rw [List.filter_cons_of_neg (by simpa using hnet), List.filter_nil, List.append_nil, ← ih]
      split_ifs with hempty
      · rfl
      · rw [OMap.get?_set, if_neg (Ne.symm hnet)]

lemma foldl_keys : rules.perNet.keys <+: (nets.foldl (written opts pairs) rules).perNet.keys := by
  induction nets generalizing rules with
  | nil => exact List.prefix_rfl
  | cons n nets ih =>
    refine List.IsPrefix.trans ?_ (@ih (written opts pairs rules n))
    rw [written]
    split_ifs
    · exact List.prefix_rfl
    · exact keys_prefix_set _ _ _

/-- Nothing has changed just when what was written was there before. -/
lemma foldl_eq_iff : nets.foldl (written opts pairs) rules = rules ↔
    ∀ net m, (nets.filter (·.name = net)).getLast? = some m →
      (dimensionsOf opts pairs net).isEmpty = false →
      rules.perNet.get? net = some (override rules m.code (dimensionsOf opts pairs net)
        (rulesForNet rules net)) := by
  constructor
  · intro h net m hm hsome
    have hget := @foldl_get opts pairs rules nets net
    rw [hm, h] at hget
    simpa [hsome] using hget
  · intro h
    obtain ⟨perNet, heq⟩ := @foldl_beside opts pairs rules nets
    have hsame : (nets.foldl (written opts pairs) rules).perNet = rules.perNet := by
      refine eq_of_prefix foldl_keys fun net => ?_
      rw [foldl_get]
      cases hlast : (nets.filter (·.name = net)).getLast? with
      | none => rfl
      | some m =>
        cases hempty : (dimensionsOf opts pairs net).isEmpty with
        | true => rfl
        | false => exact (h net m hlast hempty).symm
    rw [heq] at hsame ⊢
    rw [show perNet = rules.perNet from hsame]

end Nets

/-! ### The sources of a dimension -/

section Sources

variable {input : RouteInput} {net : String}

lemma firstGiven_cons (v : Option Number) (sources : List (Option Number)) :
    firstGiven (v :: sources) = v.or (firstGiven sources) := by
  cases v <;> rfl

lemma firstGiven_nil : firstGiven [] = none := rfl

lemma natives_none {d : DifferentialPair}
    (hd : opts.differentialPairs.find? (·.has net) = some d) :
    (natives input opts).find? (·.has net) = none := by
  have hused : net ∈ used opts := by
    have hhas := List.find?_some hd
    rw [DifferentialPair.has, Bool.or_eq_true, decide_eq_true_eq, decide_eq_true_eq] at hhas
    refine List.mem_flatMap.mpr ⟨d, List.mem_of_find?_eq_some hd, ?_⟩
    rcases hhas with rfl | rfl
    · exact List.mem_cons_self
    · exact List.mem_cons_of_mem _ List.mem_cons_self
  refine List.find?_eq_none.mpr fun x hx hhas => ?_
  rw [natives, List.mem_filter, Bool.and_eq_true, decide_eq_true_eq, decide_eq_true_eq] at hx
  rw [DifferentialPair.has, Bool.or_eq_true, decide_eq_true_eq, decide_eq_true_eq] at hhas
  rcases hhas with rfl | rfl
  · exact hx.2.1 hused
  · exact hx.2.2 hused

lemma dimensionsOf_eq : dimensionsOf opts (pairsOf input opts) net = asked input opts net := by
  have hpair : (pairsOf input opts).find? (·.has net) =
      ((opts.differentialPairs.find? (·.has net)).map fun d => ⟨d, true⟩).or
        (((natives input opts).find? (·.has net)).map fun d => ⟨d, false⟩) := by
    rw [pairsOf, List.find?_append, List.find?_map, List.find?_map]
    rfl
  simp only [dimensionsOf, asked, firstGiven_cons, firstGiven_nil, Option.or_none, Option.or_assoc,
    hpair]
  cases hd : opts.differentialPairs.find? (·.has net) with
  | some d =>
    rw [natives_none hd]
    simp
  | none =>
    cases (natives input opts).find? (·.has net) with
    | some d => simp
    | none => simp

end Sources

/-! ### Requests that are not refused -/

section Accepted

variable {input : RouteInput}

lemma isEmpty_iff {d : Dimensions} : d.isEmpty = true ↔
    d.width = none ∧ d.diameter = none ∧ d.drill = none ∧ d.clearance = none := by
  simp [Dimensions.isEmpty, Bool.and_eq_true, Option.isNone_iff_eq_none, and_assoc]

/-- The rule of a net after all turns: what the request says, over what was there. -/
lemma foldl_rule (hn : n ∈ input.nets) :
    let r := rulesForNet (input.nets.foldl (written opts pairs) rules) n.name
    let d := dimensionsOf opts pairs n.name
    r.trackWidth = effective d.width rules.minTrackWidth (rulesForNet rules n.name).trackWidth ∧
      r.viaDiameter =
        effective d.diameter rules.minViaDiameter (rulesForNet rules n.name).viaDiameter ∧
      r.viaDrill = effective d.drill rules.minViaDrill (rulesForNet rules n.name).viaDrill ∧
      r.clearance =
        effective d.clearance rules.minClearance (rulesForNet rules n.name).clearance := by
  obtain ⟨perNet, heq⟩ := @foldl_beside opts pairs rules input.nets
  have hget := @foldl_get opts pairs rules input.nets n.name
  have hlast : (input.nets.filter (·.name = n.name)).getLast? ≠ none := by
    rw [Ne, List.getLast?_eq_none_iff, List.filter_eq_nil_iff]
    exact fun h => h n hn (by simp)
  obtain ⟨m, hm⟩ := Option.ne_none_iff_exists'.mp hlast
  rw [hm] at hget
  dsimp only at hget ⊢
  cases hempty : (dimensionsOf opts pairs n.name).isEmpty with
  | true =>
    rw [hempty] at hget
    have hrule : rulesForNet (input.nets.foldl (written opts pairs) rules) n.name =
        rulesForNet rules n.name := by
      rw [rulesForNet, hget, heq]
      rfl
    obtain ⟨hwidth, hdiameter, hdrill, hclearance⟩ := isEmpty_iff.mp hempty
    rw [hrule, hwidth, hdiameter, hdrill, hclearance]
    exact ⟨rfl, rfl, rfl, rfl⟩
  | false =>
    rw [hempty] at hget
    rw [rulesForNet, hget]
    exact ⟨rfl, rfl, rfl, rfl⟩

lemma applied_of_nets (hall : ∀ n ∈ input.nets, ¬ Refused opts (pairsOf input opts) input.rules n)
    (ds : Option (List DifferentialPair)) :
    Applied input opts { input with
      rules := input.nets.foldl (written opts (pairsOf input opts)) input.rules
      differentialPairs := ds } := by
  have hrule := fun n hn => @foldl_rule opts (pairsOf input opts) input.rules n input hn
  simp only [dimensionsOf_eq] at hrule
  refine ⟨fun n hn => (hrule n hn).1, fun n hn => (hrule n hn).2.1, fun n hn => (hrule n hn).2.2.1,
    fun n hn => (hrule n hn).2.2.2, fun n hn hsome => ?_, fun net hnet => ?_, ?_⟩
  · have hnot := hall n hn
    rw [Refused, dimensionsOf_eq] at hnot
    have hlt : ¬ (override input.rules n.code (asked input opts n.name)
        (rulesForNet input.rules n.name)).viaDiameter ≤
        (override input.rules n.code (asked input opts n.name)
        (rulesForNet input.rules n.name)).viaDrill :=
      fun hle => hnot (.inr (.inr ⟨hsome, hle⟩))
    rw [(hrule n hn).2.1, (hrule n hn).2.2.1]
    exact not_le.mp hlt
  · have hget := @foldl_get opts (pairsOf input opts) input.rules input.nets net
    rw [dimensionsOf_eq] at hget
    refine hget.trans ?_
    cases hlast : (input.nets.filter (·.name = net)).getLast? with
    | none => rfl
    | some m =>
      have hm := List.mem_filter.mp (List.mem_of_getLast? hlast)
      refine if_pos (hnet.resolve_left fun hnone => ?_)
      exact hnone m hm.1 (of_decide_eq_true hm.2)
  · obtain ⟨perNet, heq⟩ := @foldl_beside opts (pairsOf input opts) input.rules input.nets
    rw [heq]
    exact ⟨perNet, ds, rfl⟩

lemma asked_idle (h : isIdle input opts = true) (net : String) :
    (asked input opts net).isEmpty = true := by
  simp only [isIdle, Bool.and_eq_true, List.isEmpty_iff, List.all_cons, List.all_nil,
    Option.isNone_iff_eq_none] at h
  obtain ⟨⟨⟨hnative, hper⟩, hpairs⟩, htrack, hclearance, hdiameter, hdrill, hdiameterNm,
    hdrillNm, -⟩ := h
  rw [isEmpty_iff]
  simp [asked, natives, hnative, hper, hpairs, htrack, hclearance, hdiameter, hdrill, hdiameterNm,
    hdrillNm, firstGiven]

lemma not_refused_of_empty (h : (dimensionsOf opts pairs n.name).isEmpty = true) :
    ¬ Refused opts pairs rules n := by
  obtain ⟨hwidth, hdiameter, hdrill, hclearance⟩ := isEmpty_iff.mp h
  rw [Refused, hwidth, hdiameter, hdrill, hclearance]
  rintro (⟨v, hv, hbad⟩ | hbad | ⟨hsome, -⟩)
  · obtain rfl : v = none := by simpa using hv
    exact Bool.false_ne_true hbad.symm
  · exact Bool.false_ne_true hbad
  · rw [h] at hsome
    exact Bool.false_ne_true hsome.symm

lemma applied_idle (h : isIdle input opts = true) : Applied input opts input := by
  have hnone := fun net => isEmpty_iff.mp (asked_idle h net)
  refine ⟨fun n _ => ?_, fun n _ => ?_, fun n _ => ?_, fun n _ => ?_, fun n _ hsome => ?_,
    fun _ _ => rfl, input.rules.perNet, input.differentialPairs, rfl⟩
  · rw [(hnone n.name).1]
    rfl
  · rw [(hnone n.name).2.1]
    rfl
  · rw [(hnone n.name).2.2.1]
    rfl
  · rw [(hnone n.name).2.2.2]
    rfl
  · rw [asked_idle h] at hsome
    exact absurd hsome.symm Bool.false_ne_true

end Accepted

/-! ### The rules for Freerouting -/

section Floors

variable {input : RouteInput}

lemma meets_floor (r : RouteNetRules) : MeetsMinima rules (floor rules r) where
  clearance := le_max_right _ _
  trackWidth := le_max_right _ _
  viaDiameter := (le_max_right _ _).trans (le_max_left _ _)
  viaDrill := le_max_right _ _
  annular := le_max_right _ _

lemma raised_floor (r : RouteNetRules) : Raised r (floor rules r) where
  netClass := rfl
  clearance := le_max_left _ _
  trackWidth := le_max_left _ _
  viaDiameter := (le_max_left _ _).trans (le_max_left _ _)
  viaDrill := le_max_left _ _

lemma floor_of_meets {r : RouteNetRules} (h : MeetsMinima rules r) : floor rules r = r := by
  have hdrill : max r.viaDrill rules.minViaDrill = r.viaDrill := max_eq_left h.viaDrill
  rw [floor, hdrill, max_eq_left h.clearance, max_eq_left h.trackWidth, max_eq_left h.viaDiameter,
    max_eq_left h.annular]

lemma rulesForNet_floor (net : String) : rulesForNet (freeroutingRuleInput input).rules net =
    floor input.rules (rulesForNet input.rules net) := by
  rw [rulesForNet, rulesForNet, freeroutingRuleInput]
  rw [get?_mapValues, Option.getD_map]

lemma mapValues_keys {κ ν : Type} (f : ν → ν) (m : OMap κ ν) :
    (mapValues f m).keys = m.keys := by
  rw [OMap.keys, mapValues, List.map_map]
  rfl

lemma floored (input : RouteInput) : Floored input where
  meets net := by
    rw [rulesForNet_floor]
    exact meets_floor _
  default := meets_floor _
  raised net := by
    rw [rulesForNet_floor]
    exact raised_floor _
  keys := mapValues_keys _ _
  beside := ⟨_, _, rfl⟩
  idempotent := by
    have hfloor : ∀ r, floor input.rules (floor input.rules r) = floor input.rules r :=
      fun r => floor_of_meets (meets_floor r)
    have hperNet : mapValues (floor input.rules) (mapValues (floor input.rules)
        input.rules.perNet) = mapValues (floor input.rules) input.rules.perNet :=
      eq_of_keys (mapValues_keys _ _) fun k => by
        rw [get?_mapValues, get?_mapValues, Option.map_map]
        exact congrArg (fun f => (input.rules.perNet.get? k).map f) (funext hfloor)
    have hrules : floor (freeroutingRuleInput input).rules = floor input.rules := rfl
    rw [freeroutingRuleInput, hrules]
    simp [freeroutingRuleInput, hfloor, hperNet]

end Floors

/-! ### Requests in general -/

lemma first_unique {α : Type} {P : α → Prop} {before before' after after' : List α} {a a' : α}
    (h : before ++ a :: after = before' ++ a' :: after') (hbefore : ∀ x ∈ before, ¬ P x)
    (ha : P a) (hbefore' : ∀ x ∈ before', ¬ P x) (ha' : P a') : before = before' := by
  induction before generalizing before' with
  | nil =>
    cases before' with
    | nil => rfl
    | cons b before' =>
      obtain ⟨rfl, -⟩ := List.cons.inj h
      exact absurd ha (hbefore' a List.mem_cons_self)
  | cons b before ih =>
    cases before' with
    | nil =>
      obtain ⟨rfl, -⟩ := List.cons.inj h
      exact absurd ha' (hbefore b List.mem_cons_self)
    | cons b' before' =>
      obtain ⟨rfl, htail⟩ := List.cons.inj h
      rw [ih htail (fun x hx => hbefore x (List.mem_cons_of_mem _ hx))
        fun x hx => hbefore' x (List.mem_cons_of_mem _ hx)]

/-- Two nets, the second with a drill that is too large. -/
def halfway : RouteInput × RouteOptions :=
  ({ nets := [⟨"A", 1⟩, ⟨"B", 2⟩]
     rules := { minClearance := 100000, minTrackWidth := 100000, minViaDiameter := 400000,
                minViaDrill := 200000, minViaAnnularWidth := none,
                default := ⟨"Default", 200000, 250000, 600000, 300000⟩, perNet := OMap.empty }
     differentialPairs := none },
   { perNet := [{ net := "A", widthMm := some (.finite (3 / 10)) },
       { net := "B", viaDrillMm := some (.finite (7 / 10)) }] })

end FabPcb.RequestEffects
