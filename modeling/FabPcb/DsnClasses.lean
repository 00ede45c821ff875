import FabPcb.DsnPins
import FabPcb.RequestRules
import Mathlib.Data.List.Induction

/-!
The classes of a DSN file, and when each net gets its own rule from them.

Nets are put together by the name of their rules' class, and the class has the rules of its first net.
A request makes class names out of net codes, and `Default` is written as `kicad_default`.
-/

namespace FabPcb.DsnClasses

open OrderedMap DsnWriter DsnPins RequestRules
open SpecctraData (Numerals fractions)

variable {input : RouteInput} {opts : DsnOptions} {nums : Numerals}

/-! ### Groups -/

/-- A class has its nets in their order, and the rules of the first. -/
lemma get?_groups (ns : List String) (cls : String) :
    (ns.foldl (addNet input) OMap.empty).get? cls =
      (ns.find? fun n => (rulesForNet input n).netClass = cls).map fun first =>
        ⟨ns.filter fun n => (rulesForNet input n).netClass = cls, rulesForNet input first⟩ := by
  induction ns using List.reverseRecOn with
  | nil => rfl
  | append_singleton ns n ih =>
    rw [List.foldl_append, List.foldl_cons, List.foldl_nil, addNet, List.find?_append,
      List.filter_append, OMap.get?_set]
    by_cases hcls : cls = (rulesForNet input n).netClass
    · subst hcls
      rw [ih]
      cases hfind : ns.find? fun m => (rulesForNet input m).netClass = (rulesForNet input n).netClass with
      | none =>
        have hnone : (ns.filter fun m =>
            (rulesForNet input m).netClass = (rulesForNet input n).netClass) = [] :=
          List.filter_eq_nil_iff.mpr (List.find?_eq_none.mp hfind)
        rw [hnone]
        simp
      | some first => simp
    · rw [if_neg hcls, ih]
      simp [Ne.symm hcls]

/-- What a file says of a net's rules, in its numbers. -/
structure Printed where
  width : ℚ
  clearance : ℚ
  via : Token
  deriving DecidableEq

def printed (input : RouteInput) (opts : DsnOptions) (r : NetRules) : Printed :=
  ⟨um r.trackWidth, um r.clearance, token (viaName input opts (ruleVia r))⟩

def NetClass.printed (c : NetClass) : Printed := ⟨c.width, c.clearance, c.via⟩

/-- A net is in one class of a file, and what the file says under the class's name is its rule. -/
structure HasRule (d : Dsn) (net : Token) (rule : Printed) : Prop where
  one : ∃ c, d.classes.filter (fun c => net ∈ c.nets) = [c]
  own : ∀ c ∈ d.classes, ∀ c' ∈ d.classes, net ∈ c.nets → c'.name = c.name → NetClass.printed c' = rule

/-- The name under which a file has a net's class. -/
def classToken (r : NetRules) : Token := token (className r.netClass)

/-- A net that is written like a routable one has the class of it, and the rule of the first net of
every class that is written like a routable net's is written like that net's. -/
structure Agree (print : NetRules → Printed) (routable : String → Bool) (nets : List String)
    (rule : String → NetRules) : Prop where
  spelling : ∀ m ∈ nets, ∀ n ∈ nets, routable n = true → token m = token n →
    (rule m).netClass = (rule n).netClass
  rules : ∀ m ∈ nets, (nets.find? fun k => (rule k).netClass = (rule m).netClass) = some m →
    ∀ n ∈ nets, routable n = true → classToken (rule m) = classToken (rule n) →
      print (rule m) = print (rule n)

lemma mem_groups {e : String × Group} : e ∈ (byClass input opts).entries ↔
    ∃ first ∈ (pinsByNet input opts).keys,
      ((pinsByNet input opts).keys.find? fun n => (rulesForNet input n).netClass = e.1) =
        some first ∧ (rulesForNet input first).netClass = e.1 ∧
          e.2 = ⟨(pinsByNet input opts).keys.filter fun n => (rulesForNet input n).netClass = e.1,
            rulesForNet input first⟩ := by
  obtain ⟨cls, g⟩ := e
  rw [← OMap.get?_eq_some_iff, byClass, get?_groups, Option.map_eq_some_iff]
  constructor
  · rintro ⟨first, hfind, rfl⟩
    exact ⟨first, List.mem_of_find?_eq_some hfind, hfind, by simpa using List.find?_some hfind, rfl⟩
  · rintro ⟨first, -, hfind, -, hgroup⟩
    exact ⟨first, hfind, hgroup.symm⟩

lemma mem_nets {e : String × Group} (he : e ∈ (byClass input opts).entries) {net : Token} :
    net ∈ (classOf input opts e).nets ↔
      ∃ m ∈ (pinsByNet input opts).keys, token m = net ∧ (rulesForNet input m).netClass = e.1 := by
  obtain ⟨first, -, -, -, hgroup⟩ := mem_groups.mp he
  rw [classOf, hgroup]
  simp only [List.mem_map, List.mem_filter, decide_eq_true_iff]
  tauto

lemma exists_group {net : String} (h : net ∈ (pinsByNet input opts).keys) :
    ∃ e ∈ (byClass input opts).entries, e.1 = (rulesForNet input net).netClass ∧
      token net ∈ (classOf input opts e).nets := by
  obtain ⟨first, hfind⟩ : ∃ first, (pinsByNet input opts).keys.find? (fun n =>
      (rulesForNet input n).netClass = (rulesForNet input net).netClass) = some first :=
    Option.isSome_iff_exists.mp (List.find?_isSome.mpr ⟨net, h, decide_eq_true rfl⟩)
  have hcls : (rulesForNet input first).netClass = (rulesForNet input net).netClass := by
    simpa using List.find?_some hfind
  have hgroup := (mem_groups (e := ((rulesForNet input net).netClass,
    ⟨(pinsByNet input opts).keys.filter fun n =>
      (rulesForNet input n).netClass = (rulesForNet input net).netClass,
      rulesForNet input first⟩))).mpr ⟨first, List.mem_of_find?_eq_some hfind, hfind, hcls, rfl⟩
  exact ⟨_, hgroup, rfl, (mem_nets hgroup).mpr ⟨net, h, rfl, rfl⟩⟩

lemma group_unique {e e' : String × Group} (he : e ∈ (byClass input opts).entries)
    (he' : e' ∈ (byClass input opts).entries) (h : e.1 = e'.1) : e = e' :=
  List.inj_on_of_nodup_map (byClass input opts).nodup he he' h

lemma eq_singleton {α : Type} {xs : List α} (hxs : xs.Nodup) {x : α} (hx : x ∈ xs)
    (h : ∀ y ∈ xs, y = x) : xs = [x] := by
  match xs, hx with
  | [y], hx => rw [List.mem_singleton.mp hx]
  | y :: z :: rest, _ =>
    have hy := h y List.mem_cons_self
    have hz := h z (List.mem_cons_of_mem _ List.mem_cons_self)
    rw [hy, hz] at hxs
    simp at hxs

lemma filter_classes (net : Token) :
    (writeDsn nums input opts).classes.filter (fun c => net ∈ c.nets) =
      ((byClass input opts).entries.filter fun e => net ∈ (classOf input opts e).nets).map
        (classOf input opts) := List.filter_map

lemma printed_classOf (e : String × Group) :
    NetClass.printed (classOf input opts e) = printed input opts e.2.rules := by
  rw [NetClass.printed, classOf, printed]

/-- **Classes.** Every routable net of a file has its rule exactly when the rules agree. -/
lemma hasRule_iff : (∀ net ∈ (pinsByNet input opts).keys, isRoutable opts net = true →
    HasRule (writeDsn nums input opts) (token net) (printed input opts (rulesForNet input net))) ↔
      Agree (printed input opts) (isRoutable opts) (pinsByNet input opts).keys
        (rulesForNet input) := by
  constructor
  · intro h
    refine ⟨fun m hm n hn hroutable heq => ?_, fun m hm hfirst n hn hroutable heq => ?_⟩
    · obtain ⟨e, he, hcls, hlisted⟩ := exists_group hm
      obtain ⟨e', he', hcls', hlisted'⟩ := exists_group hn
      rw [heq] at hlisted
      obtain ⟨c, hc⟩ := (h n hn hroutable).one
      rw [filter_classes] at hc
      have hlength : ((byClass input opts).entries.filter fun e =>
          token n ∈ (classOf input opts e).nets).length = 1 := by
        rw [← List.length_map (classOf input opts), hc]
        rfl
      obtain ⟨x, hx⟩ := List.length_eq_one_iff.mp hlength
      have hin : e ∈ [x] := hx ▸ List.mem_filter.mpr ⟨he, decide_eq_true hlisted⟩
      have hin' : e' ∈ [x] := hx ▸ List.mem_filter.mpr ⟨he', decide_eq_true hlisted'⟩
      rw [← hcls, ← hcls', List.mem_singleton.mp hin, List.mem_singleton.mp hin']
    · obtain ⟨e, he, hcls, -⟩ := exists_group hm
      obtain ⟨e', he', hcls', hlisted'⟩ := exists_group hn
      have hname : (classOf input opts e).name = (classOf input opts e').name := by
        rw [classOf, classOf, hcls, hcls']
        exact heq
      obtain ⟨first, -, hfind, -, hgroup⟩ := mem_groups.mp he
      rw [hcls, hfirst] at hfind
      cases hfind
      rw [← (h n hn hroutable).own _ (List.mem_map_of_mem he') _ (List.mem_map_of_mem he) hlisted'
        hname, printed_classOf, hgroup]
  · rintro ⟨hspelling, hrules⟩ net hnet hroutable
    obtain ⟨e, he, hcls, hlisted⟩ := exists_group hnet
    have hlisting : ∀ e' ∈ (byClass input opts).entries,
        token net ∈ (classOf input opts e').nets → e' = e := by
      intro e' he' hlisted'
      obtain ⟨m, hm, heq, hcls'⟩ := (mem_nets he').mp hlisted'
      exact group_unique he' he (by rw [← hcls', hcls, hspelling m hm net hnet hroutable heq])
    constructor
    · have hone : ((byClass input opts).entries.filter fun e =>
          token net ∈ (classOf input opts e).nets) = [e] := by
        refine eq_singleton ((List.Nodup.of_map _ (byClass input opts).nodup).filter _)
          (List.mem_filter.mpr ⟨he, decide_eq_true hlisted⟩) fun e' he' => ?_
        obtain ⟨hmem, hlisted'⟩ := List.mem_filter.mp he'
        exact hlisting e' hmem (of_decide_eq_true hlisted')
      exact ⟨classOf input opts e, by rw [filter_classes, hone]; rfl⟩
    · intro c hc c' hc' hlisted' hname
      obtain ⟨e₁, he₁, rfl⟩ := List.mem_map.mp hc
      obtain ⟨e', he', rfl⟩ := List.mem_map.mp hc'
      cases hlisting e₁ he₁ hlisted'
      obtain ⟨first, hfirst, hfind, hcls', hgroup⟩ := mem_groups.mp he'
      have htoken : classToken (rulesForNet input first) = classToken (rulesForNet input net) := by
        rw [classToken, classToken, hcls', ← hcls]
        exact hname
      rw [← hrules first hfirst (by rw [hcls']; exact hfind) net hnet hroutable htoken,
        printed_classOf, hgroup]

/-- For an accepted request, every routable net of the file has its effective rule. -/
def RulesSurvive (nums : Numerals) (input : RouteInput) (request : RouteOptions)
    (opts : DsnOptions) : Prop :=
  ∀ input', applyRequestRules input request = .ok input' →
    ∀ net ∈ (pinsByNet input opts).keys, isRoutable opts net = true →
      HasRule (writeDsn nums input' opts) (token net)
        (printed input opts (effectiveRule input request net))

def Accepted (input : RouteInput) (request : RouteOptions) : Prop :=
  ∃ input', applyRequestRules input request = .ok input'

lemma survive_of_accepted {request : RouteOptions} {input' : RouteInput}
    (h : applyRequestRules input request = .ok input') :
    (∀ net ∈ (pinsByNet input opts).keys, isRoutable opts net = true →
      HasRule (writeDsn nums input' opts) (token net)
        (printed input opts (effectiveRule input request net))) ↔
      Agree (printed input opts) (isRoutable opts) (pinsByNet input opts).keys
        (effectiveRule input request) := by
  have hrule : rulesForNet input' = effectiveRule input request :=
    funext fun net => (rulesForNet_apply h net).1
  obtain ⟨perNet, pairs, rfl⟩ := (rulesForNet_apply h "").2
  rw [← hrule]
  exact @hasRule_iff { input with
    rules := { input.rules with perNet }, differentialPairs := pairs } opts nums

def padOn (id net : String) : RoutePad := { samplePad id id net with footprint := id }

/-- A server that gives no codes: every net has the code 0. -/
def uncoded : RouteInput := { thermal with
  nets := [⟨"GND", 0⟩, ⟨"VCC", 0⟩]
  pads := [padOn "a" "GND", padOn "b" "VCC"] }

/-- A width for each of the nets. -/
def widths : RouteOptions where
  trackWidthMm := none
  clearanceMm := none
  viaDiameterMm := none
  viaDrillMm := none
  viaDiameterNm := none
  viaDrillNm := none
  perNet := [⟨"GND", some (3 / 10), none, none⟩, ⟨"VCC", some (5 / 10), none, none⟩]
  differentialPairs := []

end FabPcb.DsnClasses
