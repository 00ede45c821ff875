import FabPcb.DrillClearance
import FabPcb.DsnForms
import FabPcb.Writes
import Mathlib.Tactic.Linarith

/-!
Whether the clearances of drilled items are enough.

The vias that are published are those of the rules, those on the board and those that are asked
for; only the first two are counted for the least ring. What each class and each pair of classes
gets is read from the file, and compared with the rings that there are.
-/

namespace FabPcb.DrillSufficiency

open OrderedMap SExprText SExprForms SExprSpelling DsnWriter
open DsnForms
open DrillClearance
open EmitterRoundTrip (quoting lines)
open SpecctraData (Vec2 Numerals fractions toText times per)

/-! ### What is read from a file -/

section Reading

variable (nums : Numerals) (input : RouteInput)

def isTyped (p : Item × Item) (c : List SExpr) : Bool :=
  (((child c "type").bind (·[1]?)).bind (·.text?)) = some (pairText p)

/-- The clearance that a rule has for a pair of items, in nanometres. -/
def typedClearance (rule : List SExpr) (p : Item × Item) : Option ℚ :=
  (children rule "clearance").findSome? fun f =>
    if isTyped p f then times ((f[1]?).bind fun x => nums.read (toText x)) (some 1000) else none

/-- The rule of a pair of classes. -/
def pairRule (network : List SExpr) (a b : String) : List SExpr :=
  ((children network "class_class").findSome? fun f =>
    if atoms ((child f "classes").getD []) = [a, b] then child f "rule" else none).getD []

/-- The rules of classes and of pairs of classes, with the clearances of their copper. -/
def ruled (network : List SExpr) : List (List SExpr × Option ℚ) :=
  ((children network "class").filterMap fun cls => (child cls "rule").map fun rule =>
      (rule, copperOf nums input (some 1000) rule)) ++
    (later (classNames network)).map fun e =>
      (pairRule network e.1 e.2, pairCopper nums input (some 1000) network e.1 e.2)

end Reading

section Rings

variable (input : RouteInput) (opts : DsnOptions)

/-- The rings that there are: of the plated pads, and of the vias that are published. -/
def rings : Item → List ℚ
  | .pin => (platedPads input).map padRing
  | .via => (viaNames input opts).values.map viaRing
  | _ => []

/-- The clearance of a pair of items in a rule, or that of the copper. -/
def emitted (nums : Numerals) (rule : List SExpr) (c : ℚ) (p : Item × Item) : ℚ :=
  (typedClearance nums rule p).getD c

/-- With the rings, the clearances of a rule are the distances of the holes. -/
def Sufficient (nums : Numerals) (rule : List SExpr) (c : ℚ) : Prop :=
  ∀ p ∈ pairs, c ≤ emitted nums rule c p ∧
    (∀ g ∈ rings input opts p.1 ++ rings input opts p.2, hole input ≤ emitted nums rule c p + g) ∧
    ∀ g ∈ rings input opts p.1, ∀ g' ∈ rings input opts p.2,
      input.rules.holeToHole ≤ emitted nums rule c p + g + g'

/-- The rings that are counted on a drilled side. -/
def counted : Item → List ℚ
  | .pin => if pinRings input = [] then [0] else pinRings input
  | .via => viaRings input
  | _ => []

/-- What makes up for a ring: a ring that counts and is no greater, the clearance of the copper, or
that of two holes. -/
def Covers (c : ℚ) (p : Item × Item) (g : ℚ) : Prop :=
  (∃ r ∈ counted input p.1 ++ counted input p.2, r ≤ g) ∨ hole input ≤ c + g ∨
    (p.1.drilled && p.2.drilled) = false ∧ hole input ≤ g ∨
    ∃ r ∈ counted input p.1, ∃ r' ∈ counted input p.2,
      hole input + r + r' ≤ input.rules.holeToHole + g

/-- What makes up for two rings. -/
def CoversBoth (c : ℚ) (p : Item × Item) (g g' : ℚ) : Prop :=
  (∃ r ∈ counted input p.1, ∃ r' ∈ counted input p.2, r + r' ≤ g + g') ∨
    input.rules.holeToHole ≤ c + g + g' ∨
    ∃ r ∈ counted input p.1 ++ counted input p.2,
      input.rules.holeToHole + r ≤ hole input + g + g'

def Covered (c : ℚ) : Prop :=
  ∀ p ∈ pairs, (∀ g ∈ rings input opts p.1 ++ rings input opts p.2, Covers input c p g) ∧
    ∀ g ∈ rings input opts p.1, ∀ g' ∈ rings input opts p.2, CoversBoth input c p g g'

end Rings

/-! ### The least ring -/

variable {nums : Numerals} {input : RouteInput} {opts : DsnOptions} {c x g g' : ℚ} {l : List ℚ}
  {p : Item × Item}

lemma foldl_min_le_iff : l.foldl min x ≤ g ↔ x ≤ g ∨ ∃ r ∈ l, r ≤ g := by
  induction l generalizing x with
  | nil => simp
  | cons y l ih =>
    rw [List.foldl_cons, ih, min_le_iff, List.exists_mem_cons_iff, or_assoc]

lemma least_le_iff (h : l ≠ []) : least l ≤ g ↔ ∃ r ∈ l, r ≤ g := by
  cases l with
  | nil => exact absurd rfl h
  | cons x l => rw [least, foldl_min_le_iff, List.exists_mem_cons_iff]

lemma counted_ne_nil {i : Item} (h : i.drilled = true) : counted input i ≠ [] := by
  cases i with
  | pin =>
    rw [counted]
    split_ifs with hnil
    · exact List.cons_ne_nil _ _
    · exact hnil
  | via => simp [counted, viaRings, countedVias]
  | wire => cases h
  | smd => cases h
  | area => cases h

lemma ring_eq {i : Item} (h : i.drilled = true) : ring input i = least (counted input i) := by
  cases i with
  | pin =>
    rw [ring, counted]
    split_ifs with hnil
    · rw [hnil]
      rfl
    · rfl
  | via => rfl
  | wire => cases h
  | smd => cases h
  | area => cases h

lemma counted_undrilled {i : Item} (h : i.drilled = false) : counted input i = [] := by
  cases i with
  | pin => cases h
  | via => cases h
  | wire => rfl
  | smd => rfl
  | area => rfl

lemma rings_undrilled {i : Item} (h : i.drilled = false) : rings input opts i = [] := by
  cases i with
  | pin => cases h
  | via => cases h
  | wire => rfl
  | smd => rfl
  | area => rfl

lemma ring_le_iff {i : Item} (h : i.drilled = true) :
    ring input i ≤ g ↔ ∃ r ∈ counted input i, r ≤ g := by
  rw [ring_eq h, least_le_iff (counted_ne_nil h)]

lemma drilled_snd (hp : p ∈ pairs) : p.2.drilled = true := by
  revert p
  decide

lemma leastRing_le_iff (hp : p ∈ pairs) :
    leastRing input p ≤ g ↔ ∃ r ∈ counted input p.1 ++ counted input p.2, r ≤ g := by
  have hsnd := drilled_snd hp
  rw [leastRing, if_pos hsnd]
  cases hfst : p.1.drilled with
  | true =>
    rw [if_pos rfl, least_le_iff (by simp), List.singleton_append, List.exists_mem_cons_iff,
      ring_le_iff hfst]
    simp [exists_eq_left, ring_le_iff hsnd, List.mem_append, or_and_right,
      exists_or]
  | false =>
    rw [if_neg Bool.false_ne_true, counted_undrilled hfst, List.nil_append, least_le_iff (List.cons_ne_nil _ _), List.exists_mem_cons_iff, ring_le_iff hsnd]
    simp

lemma rings_add_le_iff (hp : p ∈ pairs) (hfst : p.1.drilled = true) {t : ℚ} :
    ring input p.1 + ring input p.2 ≤ t ↔
      ∃ r ∈ counted input p.1, ∃ r' ∈ counted input p.2, r + r' ≤ t := by
  have hsnd := drilled_snd hp
  constructor
  · intro h
    obtain ⟨r, hr, hle⟩ := (ring_le_iff hfst).mp (le_refl (ring input p.1))
    obtain ⟨r', hr', hle'⟩ := (ring_le_iff hsnd).mp (le_refl (ring input p.2))
    exact ⟨r, hr, r', hr', by linarith⟩
  · rintro ⟨r, hr, r', hr', hle⟩
    have h := (ring_le_iff hfst).mpr ⟨r, hr, le_refl r⟩
    have h' := (ring_le_iff hsnd).mpr ⟨r', hr', le_refl r'⟩
    linarith

/-! ### What a clearance comes to -/

lemma le_typedValue_iff {t : ℚ} : t ≤ typedValue input c p ↔
    t ≤ c ∨ t ≤ hole input - leastRing input p ∨ t ≤ holesRest input p := by
  rw [typedValue, le_max_iff, le_max_iff, or_assoc]

lemma hole_le_iff (hp : p ∈ pairs) :
    hole input ≤ typedValue input c p + g ↔ Covers input c p g := by
  have hcopper : hole input - g ≤ c ↔ hole input ≤ c + g := sub_le_iff_le_add
  have hleast : hole input - g ≤ hole input - leastRing input p ↔
      ∃ r ∈ counted input p.1 ++ counted input p.2, r ≤ g := by
    rw [← leastRing_le_iff hp, sub_le_sub_iff_left]
  have hrest : hole input - g ≤ holesRest input p ↔
      (p.1.drilled && p.2.drilled) = false ∧ hole input ≤ g ∨
        ∃ r ∈ counted input p.1, ∃ r' ∈ counted input p.2,
          hole input + r + r' ≤ input.rules.holeToHole + g := by
    rw [holesRest, drilled_snd hp, Bool.and_true]
    cases hfst : p.1.drilled with
    | true =>
      have hadd : ring input p.1 + ring input p.2 ≤ input.rules.holeToHole + g - hole input ↔
          ∃ r ∈ counted input p.1, ∃ r' ∈ counted input p.2,
            r + r' ≤ input.rules.holeToHole + g - hole input := rings_add_le_iff hp hfst
      have hshift : ∀ r r' : ℚ, r + r' ≤ input.rules.holeToHole + g - hole input ↔
          hole input + r + r' ≤ input.rules.holeToHole + g :=
        fun r r' => by constructor <;> intro h <;> linarith
      simp only [hshift] at hadd
      rw [if_pos rfl, ← hadd]
      constructor
      · exact fun h => Or.inr (by linarith)
      · rintro (⟨h, -⟩ | h)
        · cases h
        · linarith
    | false =>
      rw [counted_undrilled hfst]
      simp
  rw [← sub_le_iff_le_add, le_typedValue_iff, hcopper, hleast, hrest, Covers, or_left_comm]

lemma holes_le_iff (hp : p ∈ pairs) (hfst : p.1.drilled = true) :
    input.rules.holeToHole ≤ typedValue input c p + g + g' ↔ CoversBoth input c p g g' := by
  have hcopper : input.rules.holeToHole - (g + g') ≤ c ↔ input.rules.holeToHole ≤ c + g + g' := by
    rw [sub_le_iff_le_add, add_assoc]
  have hleast : input.rules.holeToHole - (g + g') ≤ hole input - leastRing input p ↔
      ∃ r ∈ counted input p.1 ++ counted input p.2,
        input.rules.holeToHole + r ≤ hole input + g + g' := by
    have hring : leastRing input p ≤ hole input + g + g' - input.rules.holeToHole ↔
        ∃ r ∈ counted input p.1 ++ counted input p.2,
          r ≤ hole input + g + g' - input.rules.holeToHole := leastRing_le_iff hp
    have hshift : ∀ r : ℚ, r ≤ hole input + g + g' - input.rules.holeToHole ↔
        input.rules.holeToHole + r ≤ hole input + g + g' :=
      fun r => by constructor <;> intro h <;> linarith
    simp only [hshift] at hring
    rw [← hring]
    constructor <;> intro h <;> linarith
  have hrest : input.rules.holeToHole - (g + g') ≤ holesRest input p ↔
      ∃ r ∈ counted input p.1, ∃ r' ∈ counted input p.2, r + r' ≤ g + g' := by
    rw [holesRest, drilled_snd hp, hfst, Bool.and_true, if_pos rfl, ← rings_add_le_iff hp hfst]
    constructor <;> intro h <;> linarith
  rw [add_assoc, ← sub_le_iff_le_add, le_typedValue_iff, hcopper, hleast, hrest, CoversBoth,
    or_rotate, or_rotate]

/-! ### Reading the clearances -/

lemma findSome?_unique {α β : Type} {F : α → Option β} {l : List α} {a : α} (ha : a ∈ l)
    (h : ∀ b ∈ l, b ≠ a → F b = none) : l.findSome? F = F a := by
  induction l with
  | nil => cases ha
  | cons b l ih =>
    rw [List.findSome?_cons]
    by_cases hb : b = a
    · rw [hb]
      cases hF : F a with
      | some y => rfl
      | none =>
        rw [List.findSome?_eq_none_iff]
        intro d hd
        by_cases hda : d = a
        · rw [hda, hF]
        · exact h d (List.mem_cons_of_mem _ hd) hda
    · rw [h b List.mem_cons_self hb]
      exact ih ((List.mem_cons.mp ha).resolve_left (Ne.symm hb)) fun d hd =>
        h d (List.mem_cons_of_mem _ hd)

lemma pairText_inj : ∀ p ∈ pairs, ∀ q ∈ pairs, pairText q = pairText p → q = p := by
  decide

lemma scaled (v : ℚ) : times (per (some v) (some 1000)) (some 1000) = some v := by
  simp [times, per]

lemma exceeds_iff (v c : ℚ) :
    exceeds (nums.read (nums.print (per (some v) (some 1000)))) (per (some c) (some 1000)) = true ↔
      c < v := by
  rw [nums.read_print]
  simp only [per, Option.bind_some, Option.map_some, exceeds, decide_eq_true_eq]
  exact div_lt_div_iff_of_pos_right (by norm_num)

lemma children_rules (c : ℚ) : children (rules nums input (some 1000) (some c)) "clearance" =
    pairs.filterMap fun q =>
      if c < typedValue input c q then
        some [.atom "clearance", .atom (nums.print (per (some (typedValue input c q)) (some 1000))),
          .list [.atom "type", .atom (pairText q)]]
      else none := by
  rw [children, rules, List.filterMap_filterMap]
  refine List.filterMap_congr fun q _ => ?_
  simp only [Option.map_some]
  by_cases h : c < typedValue input c q
  · rw [if_pos ((exceeds_iff _ _).mpr h), if_pos h]
    exact form?_list_cons
  · rw [if_neg (mt (exceeds_iff _ _).mp h), if_neg h]
    rfl

/-- A rule with the clearances has the value of each pair, where it is more than the copper's. -/
lemma typedClearance_rules {head : List SExpr} (hp : p ∈ pairs)
    (hhead : ∀ f ∈ children head "clearance", isTyped p f = false) :
    typedClearance nums (head ++ rules nums input (some 1000) (some c)) p =
      if c < typedValue input c p then some (typedValue input c p) else none := by
  have hnone : ((children head "clearance").findSome? fun f =>
      if isTyped p f then times ((f[1]?).bind fun x => nums.read (toText x)) (some 1000)
      else none) = none := by
    rw [List.findSome?_eq_none_iff]
    intro f hf
    rw [hhead f hf, if_neg Bool.false_ne_true]
  rw [typedClearance, children_append, List.findSome?_append, hnone, children_rules, ← List.head?_filterMap, List.filterMap_filterMap, List.head?_filterMap]
  have hread : ∀ q, isTyped p [.atom "clearance",
      .atom (nums.print (per (some (typedValue input c q)) (some 1000))),
      .list [.atom "type", .atom (pairText q)]] = decide (pairText q = pairText p) := by
    simp [isTyped, child, SExpr.form?, SExpr.headed, SExpr.items?, SExpr.text?]
  rw [findSome?_unique hp fun q hq hne => ?_]
  · by_cases h : c < typedValue input c p
    · rw [if_pos h, if_pos h, Option.bind_some, hread]
      simp [Option.bind_some, toText,
        nums.read_print, scaled]
    · rw [if_neg h, if_neg h]
      rfl
  · by_cases h : c < typedValue input c q
    · rw [if_pos h, Option.bind_some, hread,
        decide_eq_false fun heq => hne (pairText_inj p hp q hq heq), if_neg Bool.false_ne_true]
    · rw [if_neg h]
      rfl

lemma emitted_rules {head : List SExpr} (hp : p ∈ pairs)
    (hhead : ∀ f ∈ children head "clearance", isTyped p f = false) :
    emitted nums (head ++ rules nums input (some 1000) (some c)) c p = typedValue input c p := by
  have hle : c ≤ typedValue input c p := le_typedValue_iff.mpr (Or.inl le_rfl)
  rw [emitted, typedClearance_rules hp hhead]
  by_cases h : c < typedValue input c p
  · rw [if_pos h, Option.getD_some]
  · rw [if_neg h]
    exact le_antisymm hle (not_lt.mp h)

lemma sufficient_rules {head : List SExpr}
    (hhead : ∀ p ∈ pairs, ∀ f ∈ children head "clearance", isTyped p f = false) :
    Sufficient input opts nums (head ++ rules nums input (some 1000) (some c)) c ↔
      Covered input opts c := by
  refine forall₂_congr fun p hp => ?_
  rw [emitted_rules hp (hhead p hp), and_iff_right (le_typedValue_iff.mpr (Or.inl le_rfl))]
  refine and_congr (forall₂_congr fun g _ => hole_le_iff hp) ?_
  cases hfst : p.1.drilled with
  | true => exact forall₂_congr fun g _ => forall₂_congr fun g' _ => holes_le_iff hp hfst
  | false =>
    rw [rings_undrilled hfst]
    exact iff_of_true nofun nofun

/-! ### The classes of a file -/

lemma keepsHead_drillClass : KeepsHead (drillClass nums input (some 1000)) := by
  intro s xs
  rw [drillClass]
  cases child (.atom s :: xs) "rule" with
  | none => exact ⟨xs, rfl⟩
  | some rule => exact keepsHead_editFirst _ _ s xs

lemma children_classPairs (network : List SExpr) :
    children (classPairs nums input (some 1000) network) "class" = [] := by
  rw [children, classPairs, List.filterMap_filterMap, List.filterMap_eq_nil_iff]
  rintro ⟨a, b⟩ -
  simp only
  split_ifs
  · rfl
  · exact form?_ne (by decide) form?_list_cons

lemma classes_drillNetwork (network : List SExpr) :
    children (drillNetwork nums input (some 1000) network) "class" =
      (children network "class").map (drillClass nums input (some 1000)) := by
  simp only [drillNetwork]
  rw [children_append, children_classPairs, List.append_nil, children_editAll keepsHead_drillClass]

def classItems (nums : Numerals) (c : NetClass) : List SExpr :=
  .atom "class" :: name spelled c.name :: (c.nets.map (name spelled) ++
    [form "circuit" [form "use_via" [name spelled c.via]],
      form "rule" [widthForm nums c.width, clearanceOf nums c.clearance]])

def ruleItems (nums : Numerals) (c : NetClass) : List SExpr :=
  [.atom "rule", widthForm nums c.width, clearanceOf nums c.clearance]

lemma child_names {names : List Token} {more : List SExpr} {head : String} :
    child (names.map (name spelled) ++ more) head = child more head := by
  induction names with
  | nil => rfl
  | cons t names ih => exact ih

lemma child_rule (c : NetClass) : child (classItems nums c) "rule" = some (ruleItems nums c) := by
  change child (c.nets.map (name spelled) ++ _) "rule" = _
  rw [child_names]
  rfl

lemma children_network (d : Dsn) :
    children (networkItems nums spelled d) "class" = d.classes.map (classItems nums) ∧
      children (networkItems nums spelled d) "class_class" = [] := by
  have hnets : ∀ head, head ≠ "net" → children (d.nets.map (netForm spelled)) head = [] := by
    intro head hne
    rw [children, List.filterMap_map, List.filterMap_eq_nil_iff]
    exact fun n _ => form?_ne (Ne.symm hne) form?_list_cons
  have hsplit : ∀ head, children (networkItems nums spelled d) head =
      children (d.nets.map (netForm spelled)) head ++
        children (d.classes.map (classForm nums spelled)) head :=
    fun head => children_append
  constructor
  · rw [hsplit, hnets "class" (by decide), children, List.filterMap_map]
    exact congrFun List.filterMap_eq_map d.classes
  · rw [hsplit, hnets "class_class" (by decide), List.nil_append, children, List.filterMap_map,
      List.filterMap_eq_nil_iff]
    exact fun c _ => form?_ne (by decide) form?_list_cons

lemma copperOf_rule {c : NetClass} {more : List SExpr} :
    copperOf nums input (some 1000) (ruleItems nums c ++ more) = some (c.clearance * 1000) := by
  have hclearance : child (ruleItems nums c ++ more) "clearance" =
      some [.atom "clearance", number nums c.clearance] := rfl
  rw [copperOf, hclearance]
  simp [number, toText, nums.read_print, times]

lemma drillClass_class (c : NetClass) : child (drillClass nums input (some 1000)
    (classItems nums c)) "rule" = some (ruleItems nums c ++
      rules nums input (some 1000) (some (c.clearance * 1000))) := by
  have hcopper : copperOf nums input (some 1000) (ruleItems nums c) =
      some (c.clearance * 1000) := by
    exact copperOf_rule
  rw [drillClass, child_rule]
  rw [child_editFirst (keepsHead_append _), child_rule, hcopper]
  rfl

lemma textAt_class (c : NetClass) :
    textAt (drillClass nums input (some 1000) (classItems nums c)) 1 = spelled c.name := by
  rw [drillClass, child_rule]
  rfl

lemma untyped_rule (c : NetClass) (p : Item × Item) :
    ∀ f ∈ children (ruleItems nums c) "clearance", isTyped p f = false := by
  intro f hf
  have hform : children (ruleItems nums c) "clearance" =
      [[.atom "clearance", number nums c.clearance]] := rfl
  rw [hform, List.mem_singleton] at hf
  rw [hf]
  rfl

/-! ### The clearances of copper -/

section Bases

variable (input : RouteInput) (opts : DsnOptions)

/-- The classes and the clearances of their copper, to a tenth of a micrometre. -/
def classBases : List (String × ℚ) :=
  (byClass input opts).entries.map fun e =>
    (spelled (token (className e.1)), um e.2.rules.clearance * 1000)

def baseNames : List String :=
  ("kicad_default" :: (classBases input opts).map (·.1)).reverse.dedup.reverse

def baseOf (cls : String) : ℚ :=
  ((OMap.ofList (classBases input opts)).get? cls).getD input.rules.default.clearance

/-- Of two classes, the greater, and no less than that of the default. -/
def pairBase (e : String × String) : ℚ :=
  max input.rules.default.clearance (max (baseOf input opts e.1) (baseOf input opts e.2))

def bases : List ℚ :=
  (classBases input opts).map (·.2) ++ (later (baseNames input opts)).map (pairBase input opts)

end Bases

lemma classes_eq : (writeDsn nums input opts).classes =
    (byClass input opts).entries.map (classOf input opts) := rfl

/-- The network of the file, with its clearances. -/
def drilledNetwork (nums : Numerals) (input : RouteInput) (opts : DsnOptions) : List SExpr :=
  drillNetwork nums input (some 1000) (networkItems nums spelled (writeDsn nums input opts))

lemma classes_drilled : children (drilledNetwork nums input opts) "class" =
    (byClass input opts).entries.map fun e =>
      drillClass nums input (some 1000) (classItems nums (classOf input opts e)) := by
  rw [drilledNetwork, classes_drillNetwork, (children_network _).1, classes_eq, List.map_map,
    List.map_map]
  rfl

variable (nums) in
lemma classNames_drilled : classNames (drilledNetwork nums input opts) = baseNames input opts := by
  rw [classNames, classes_drilled, baseNames, classBases, List.map_map, List.map_map]
  congr 4
  exact List.map_congr_left fun e _ => textAt_class _

lemma get?_ofList_map {α β : Type} (f : α → β) (l : List (String × α)) (k : String) :
    (OMap.ofList (l.map fun e => (e.1, f e.2))).get? k = ((OMap.ofList l).get? k).map f := by
  rw [Writes.get?_ofList, Writes.get?_ofList, Writes.lastWrite, Writes.lastWrite,
    ← List.map_reverse, List.find?_map, Option.map_map, Option.map_map]
  rfl

lemma classCopper_drilled (cls : String) :
    classCopper nums input (some 1000) (drilledNetwork nums input opts) cls =
      some (baseOf input opts cls) := by
  have hentries : (children (drilledNetwork nums input opts) "class").map (fun c =>
      (textAt c 1, copperOf nums input (some 1000) ((child c "rule").getD []))) =
      (classBases input opts).map fun e => (e.1, some e.2) := by
    rw [classes_drilled, classBases, List.map_map, List.map_map]
    refine List.map_congr_left fun e _ => ?_
    rw [Function.comp_apply, textAt_class, drillClass_class,
      Option.getD_some, copperOf_rule]
    rfl
  rw [classCopper, hentries, baseOf, get?_ofList_map some]
  cases (OMap.ofList (classBases input opts)).get? cls <;> rfl

variable (nums) in
lemma pairCopper_drilled (e : String × String) :
    pairCopper nums input (some 1000) (drilledNetwork nums input opts) e.1 e.2 =
      some (pairBase input opts e) := by
  rw [pairCopper, classCopper_drilled, classCopper_drilled]
  rfl

/-- The items of a pair of classes, if its rule has clearances. -/
def pairItems (mixed : List SExpr) (e : String × String) : Option (List SExpr) :=
  if mixed = [] then none
  else some [.atom "class_class", .list [.atom "classes", .atom e.1, .atom e.2],
    .list (.atom "rule" :: mixed)]

lemma children_pairs : children (drilledNetwork nums input opts) "class_class" =
    (later (baseNames input opts)).filterMap fun e =>
      pairItems (rules nums input (some 1000) (some (pairBase input opts e))) e := by
  have hclasses : children (editAll "class" (drillClass nums input (some 1000))
      (networkItems nums spelled (writeDsn nums input opts))) "class" =
      children (drilledNetwork nums input opts) "class" := by
    rw [drilledNetwork, classes_drillNetwork, children_editAll keepsHead_drillClass]
  have hnames : classNames (editAll "class" (drillClass nums input (some 1000))
      (networkItems nums spelled (writeDsn nums input opts))) = baseNames input opts := by
    rw [← classNames_drilled nums, classNames, hclasses, classNames]
  have hcopper : ∀ e : String × String, pairCopper nums input (some 1000)
      (editAll "class" (drillClass nums input (some 1000))
        (networkItems nums spelled (writeDsn nums input opts))) e.1 e.2 =
      some (pairBase input opts e) := by
    intro e
    rw [← pairCopper_drilled nums e, pairCopper, pairCopper, classCopper, classCopper,
      classCopper, classCopper, hclasses]
  rw [drilledNetwork, drillNetwork, children_append, children_editAll_ne keepsHead_drillClass
    (by decide), (children_network _).2, List.nil_append, children, classPairs,
    List.filterMap_filterMap, hnames]
  refine List.filterMap_congr fun e _ => ?_
  simp only [hcopper e, pairItems]
  split_ifs with hmixed
  · rfl
  · exact form?_list_cons

variable (nums) in
/-- The clearances of a pair, if it has any. -/
lemma pairRule_drilled {e : String × String} (he : e ∈ later (baseNames input opts)) :
    ∃ head, children head "clearance" = [] ∧
      pairRule (drilledNetwork nums input opts) e.1 e.2 =
        head ++ rules nums input (some 1000) (some (pairBase input opts e)) := by
  have hatoms : ∀ (mixed : List SExpr) (a : String × String), ((pairItems mixed a).bind fun f =>
      if atoms ((child f "classes").getD []) = [e.1, e.2] then child f "rule" else none) =
      if mixed = [] then none else if a = e then some (.atom "rule" :: mixed) else none := by
    intro mixed a
    rw [pairItems]
    by_cases hmixed : mixed = []
    · rw [if_pos hmixed, if_pos hmixed, Option.bind_none]
    · have hread : atoms ((child [.atom "class_class",
          .list [.atom "classes", .atom a.1, .atom a.2], .list (.atom "rule" :: mixed)]
          "classes").getD []) = [a.1, a.2] := rfl
      have hpair : [a.1, a.2] = [e.1, e.2] ↔ a = e := by simp [Prod.ext_iff]
      rw [if_neg hmixed, if_neg hmixed, Option.bind_some, hread]
      exact if_congr hpair rfl rfl
  rw [pairRule, children_pairs, ← List.head?_filterMap, List.filterMap_filterMap,
    List.head?_filterMap, findSome?_unique he fun a _ hne => ?_]
  · rw [hatoms]
    by_cases hmixed : rules nums input (some 1000) (some (pairBase input opts e)) = []
    · exact ⟨[], rfl, by rw [if_pos hmixed, hmixed]; rfl⟩
    · exact ⟨[.atom "rule"], rfl, by rw [if_neg hmixed, if_pos rfl]; rfl⟩
  · rw [hatoms, if_neg hne]
    split_ifs <;> rfl

lemma ruled_drilled : ruled nums input (drilledNetwork nums input opts) =
    ((byClass input opts).entries.map fun e =>
      (ruleItems nums (classOf input opts e) ++
        rules nums input (some 1000) (some (um e.2.rules.clearance * 1000)),
        some (um e.2.rules.clearance * 1000))) ++
      (later (baseNames input opts)).map fun e =>
        (pairRule (drilledNetwork nums input opts) e.1 e.2, some (pairBase input opts e)) := by
  rw [ruled, classNames_drilled, classes_drilled, List.filterMap_map]
  congr 1
  · rw [← List.filterMap_eq_map]
    refine List.filterMap_congr fun e _ => ?_
    rw [Function.comp_apply, drillClass_class, Option.map_some, copperOf_rule]
    rfl
  · exact List.map_congr_left fun e _ => by rw [pairCopper_drilled]

/-- What is said of the rules of the file is said of its bases. -/
lemma forall_ruled : (∀ e ∈ ruled nums input (drilledNetwork nums input opts),
      ∃ c, e.2 = some c ∧ Sufficient input opts nums e.1 c) ↔
    ∀ c ∈ bases input opts, Covered input opts c := by
  have hsome : ∀ (rule : List SExpr) (c : ℚ),
      (∃ d, some c = some d ∧ Sufficient input opts nums rule d) ↔
        Sufficient input opts nums rule c := by
    intro rule c
    constructor
    · rintro ⟨d, heq, h⟩
      cases heq
      exact h
    · exact fun h => ⟨c, rfl, h⟩
  rw [ruled_drilled, bases, List.forall_mem_append, List.forall_mem_append, List.forall_mem_map,
    List.forall_mem_map, List.forall_mem_map, classBases, List.forall_mem_map,
    List.forall_mem_map]
  refine and_congr (forall₂_congr fun e _ => ?_) (forall₂_congr fun e he => ?_)
  · rw [hsome]
    exact sufficient_rules fun p _ => untyped_rule _ p
  · rw [hsome]
    obtain ⟨head, hhead, hrule⟩ := pairRule_drilled nums he
    rw [hrule]
    exact sufficient_rules fun p _ f hf => by rw [hhead] at hf; cases hf

/-! ### The file -/

lemma keepsHead_structure : KeepsHead (drillStructure nums input (some 1000)) :=
  fun _ xs => ⟨xs ++ _, rfl⟩

lemma keepsHead_network : KeepsHead (drillNetwork nums input (some 1000)) := fun _ _ => ⟨_, rfl⟩

lemma rule_structure (d : Dsn) :
    ((child (pcbItems nums spelled d) "structure").bind (child · "rule")).isSome = true := by
  have hchild : ∀ (a b : List SExpr), (child b "rule").isSome = true →
      (child (a ++ b) "rule").isSome = true := by
    intro a b h
    rw [child, List.findSome?_append, Option.isSome_or, Bool.or_eq_true]
    exact Or.inr h
  exact hchild (.atom "structure" :: (d.layers.mapIdx (layerForm nums spelled) ++
    [boundaryForm nums d.boundary] ++ d.planes.map (planeForm nums spelled) ++
    d.keepouts.map (keepoutForm nums spelled))) _ rfl

variable (nums input) in
lemma drillPcb_dsn (d : Dsn) : ∃ pcb,
    drillPcb nums input true (pcbItems nums spelled d) = .ok pcb ∧
      child pcb "network" = some (drillNetwork nums input (some 1000)
        (networkItems nums spelled d)) := by
  have hunit : unitScale (unitOf (pcbItems nums spelled d)) = .ok (some 1000) := rfl
  have hnetwork : child (pcbItems nums spelled d) "network" =
      some (networkItems nums spelled d) := rfl
  rw [drillPcb, hunit, Except.bind, if_pos rfl, if_pos (rule_structure d)]
  refine ⟨_, rfl, ?_⟩
  rw [child_editFirst keepsHead_network, child_editFirst_ne (keepsHead_editFirst _ _) (by decide),
    child_editFirst_ne keepsHead_structure (by decide), hnetwork, Option.map_some]

/-- The file is written, and this is so of its network. -/
def InFile (nums : Numerals) (input : RouteInput) (opts : DsnOptions)
    (P : List SExpr → Prop) : Prop :=
  ∃ pcb network,
    drillPcb nums input true (pcbItems nums spelled (writeDsn nums input opts)) = .ok pcb ∧
    drillClearanceDsn nums (dsnText nums (writeDsn nums input opts)) input true =
      .ok (String.ofList (lines quoting [.list pcb] ++ ['\n'])) ∧
    child pcb "network" = some network ∧ P network

lemma inFile_drilled {P : List SExpr → Prop}
    (hholes : hole input ≠ 0 ∨ input.rules.holeToHole ≠ 0)
    (hlegible : Legible nums (writeDsn nums input opts))
    (hP : P (drilledNetwork nums input opts)) : InFile nums input opts P := by
  obtain ⟨pcb, hpcb, hnetwork⟩ := drillPcb_dsn nums input (writeDsn nums input opts)
  have hread : child [SExpr.list (pcbItems nums spelled (writeDsn nums input opts))] "pcb" =
      some (pcbItems nums spelled (writeDsn nums input opts)) := rfl
  refine ⟨pcb, drilledNetwork nums input opts, hpcb, ?_, hnetwork, hP⟩
  rw [drillClearanceDsn, if_neg (by tauto), parse_dsnText hlegible]
  simp only [hread, Option.getD_some, hpcb, Except.map]
  rfl

/-- **Enough for every ring.** In the file that is written, every clearance of a drilled pair is
enough for the rings that there are, and no less than that of the copper, exactly if for the copper
of each class, and of each pair of classes, something makes up for each of the rings. -/
theorem typed_sufficient_iff (nums : Numerals) (input : RouteInput) (opts : DsnOptions)
    (hholes : hole input ≠ 0 ∨ input.rules.holeToHole ≠ 0)
    (hlegible : Legible nums (writeDsn nums input opts)) :
    InFile nums input opts fun network =>
      ((∀ e ∈ ruled nums input network, ∃ c, e.2 = some c ∧ Sufficient input opts nums e.1 c) ↔
        ∀ c ∈ bases input opts, Covered input opts c) :=
  inFile_drilled hholes hlegible forall_ruled

/-! ### A via that is only asked for -/

section Asked

def askedRules : NetRules :=
  { trackWidth := 250000, viaDiameter := 600000, viaDrill := 300000, netClass := "Default",
    clearance := 100000 }

def askedInput : RouteInput where
  boardName := "board"
  outline := []
  bounds := ⟨0, 0, 20000000, 10000000⟩
  copperLayers := [⟨3, "F.Cu", "F.Cu"⟩, ⟨34, "B.Cu", "B.Cu"⟩]
  nets := []
  pads := []
  tracks := [{ net := "GND", layer := 3, width := 250000, start := ⟨0, 0⟩, stop := ⟨1000000, 0⟩ }]
  vias := []
  keepouts := []
  zones := []
  obstacles := []
  rules :=
    { minClearance := 100000, minTrackWidth := 100000, minViaDiameter := 300000,
      minViaDrill := 200000, holeToHole := 250000, holeClearance := some 250000,
      default := askedRules, perNet := OMap.empty }

def asked : DsnOptions where
  extraVias := [(400000, 300000)]

lemma legible_asked : Legible fractions (writeDsn fractions askedInput asked) := by
  rw [Legible]
  decide +kernel

theorem typed_sufficient_asked : InFile fractions askedInput asked fun network =>
    ((∀ e ∈ ruled fractions askedInput network,
      ∃ c, e.2 = some c ∧ Sufficient askedInput asked fractions e.1 c) ↔
        ∀ c ∈ bases askedInput asked, Covered askedInput asked c) :=
  typed_sufficient_iff fractions askedInput asked (Or.inr (by decide)) legible_asked

/-- **A via that is only asked for** has a ring of 0.05 mm. With the 0.1 mm of copper that is less
than the distance of 0.25 mm that a hole is to have. -/
theorem not_typed_sufficient : InFile fractions askedInput asked fun network =>
    ∃ rule, (rule, some 100000) ∈ ruled fractions askedInput network ∧
      50000 ∈ rings askedInput asked .via ∧
      emitted fractions rule 100000 (.wire, .via) + 50000 < hole askedInput ∧
      ¬ Sufficient askedInput asked fractions rule 100000 := by
  have hring : (50000 : ℚ) ∈ rings askedInput asked .via := by decide +kernel
  have hentry : ∃ e ∈ (byClass askedInput asked).entries,
      um e.2.rules.clearance * 1000 = 100000 := by decide +kernel
  have hvalue : typedValue askedInput 100000 (.wire, .via) = 100000 := by decide +kernel
  have hshort : (100000 : ℚ) + 50000 < hole askedInput := by decide +kernel
  obtain ⟨e, he, hclearance⟩ := hentry
  have hemitted : emitted fractions (ruleItems fractions (classOf askedInput asked e) ++
      rules fractions askedInput (some 1000) (some 100000)) 100000 (.wire, .via) =
      typedValue askedInput 100000 (.wire, .via) :=
    emitted_rules (by decide) (untyped_rule (classOf askedInput asked e) _)
  refine inFile_drilled (Or.inr (by decide)) legible_asked
    ⟨ruleItems fractions (classOf askedInput asked e) ++
      rules fractions askedInput (some 1000) (some 100000), ?_, hring, ?_, fun hsufficient => ?_⟩
  · rw [ruled_drilled, List.mem_append, List.mem_map]
    exact Or.inl ⟨e, he, by rw [hclearance]⟩
  · rw [hemitted, hvalue]
    exact hshort
  · have hwire := (hsufficient (.wire, .via) (by decide)).2.1 50000
      (List.mem_append_right _ hring)
    rw [hemitted, hvalue] at hwire
    exact absurd hwire (not_le.mpr hshort)

end Asked

end FabPcb.DrillSufficiency
