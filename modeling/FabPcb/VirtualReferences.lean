import FabPcb.FreshNames
import FabPcb.ApplyNetlist
import FabPcb.KicadNetlist

/-!
Symbol definitions, and `normalizeVirtualReferences`.

A component of the power library has a reference of the class that its symbol declares. The ones
that have not get a new reference; what names them is renamed with them.
-/

namespace FabPcb.VirtualReferences

open OrderedMap ApplyNetlist KicadNetlist FreshNames
open SpecctraData (Vec2)

/-! ### Symbols -/

inductive PinOrientation where
  | unknown
  | right
  | left
  | up
  | down

structure SchematicPin where
  number : String
  position : Vec2
  length : ℚ
  orientation : PinOrientation

/-- A child of a symbol, with its pin if it is one; unit and body style are 0 where it has none. -/
structure SymbolChild where
  unit : ℤ
  bodyStyle : ℤ
  pin : Option SchematicPin

/-- `reference` is the text of the reference field. -/
structure LibSymbol where
  reference : Option String
  unitCount : ℤ
  items : List SymbolChild

abbrev Definitions := OMap String LibSymbol

def libIdOf (source : LibSource) : String := source.lib ++ ":" ++ source.part

/-! ### References -/

/-- `[^0-9?]`. -/
def isClassChar (c : Char) : Bool := !(c.isDigit || c = '?')

/-- What is before the question marks at the end. -/
def withoutMarks (text : List Char) : List Char := (text.reverse.dropWhile (· = '?')).reverse

def referenceClass (reference : String) : String :=
  let stem := reference.toList.takeWhile isClassChar
  if stem = [] then String.ofList (withoutMarks reference.toList) else String.ofList stem

/-- `/^#[^0-9?]+[0-9]+$/`. -/
def isNumbered (reference : String) : Bool :=
  match reference.toList with
  | [] => false
  | c :: rest =>
    c = '#' && !(rest.takeWhile isClassChar).isEmpty && !(rest.dropWhile isClassChar).isEmpty &&
      (rest.dropWhile isClassChar).all Char.isDigit

/-! ### `normalizeVirtualReferences` -/

section Normalize

variable (definitions : Definitions)

/-- The class that the symbol of a component declares, for a component of the power library. -/
def expectedClass (c : NetlistComponent) : Option String :=
  match c.libSource with
  | none => none
  | some source =>
    if source.lib ≠ "power" then none
    else
      let declared := ((definitions.get? (libIdOf source)).bind (·.reference)).getD ""
      let expected := referenceClass declared
      if expected.toList.head? = some '#' then some expected else none

/-- A reference that stays, of a class that is declared. -/
def isValid (expected reference : String) : Bool :=
  referenceClass reference = expected && isNumbered reference

def numbered (expected : String) (index : ℕ) : String := expected ++ toString index

/-- The new reference of a component, if it gets one. -/
def renameOf (used : List String) (c : NetlistComponent) : Option String :=
  match expectedClass definitions c with
  | none => none
  | some expected =>
    if isValid expected c.ref then none
    else some (numbered expected (firstFree (numbered expected) used (used.length + 1) 1))

def normalizedWarning (c : NetlistComponent) (reference : String) : Diagnostic :=
  let libId := (c.libSource.map libIdOf).getD ""
  let expected := (expectedClass definitions c).getD ""
  ⟨.warning, "schematic", "virtual_reference_normalized",
    c.ref ++ " -> " ++ reference ++ ": normalized virtual power reference for " ++ libId ++
      " (declared class " ++ expected ++ ")."⟩

/-- After the components: as they are now, what was renamed, and the diagnostics. -/
structure Normalized where
  components : List NetlistComponent
  renames : OMap String String
  diagnostics : List Diagnostic

def normalizeComponents : List String → OMap String String → List NetlistComponent → Normalized
  | _, renames, [] => ⟨[], renames, []⟩
  | used, renames, c :: rest =>
    match renameOf definitions used c with
    | none =>
      let r := normalizeComponents used renames rest
      { r with components := c :: r.components }
    | some reference =>
      let r := normalizeComponents (used ++ [reference]) (renames.set c.ref reference) rest
      { r with
        components := { c with ref := reference } :: r.components
        diagnostics := normalizedWarning definitions c reference :: r.diagnostics }

/-- `renames.get(ref) ?? ref`. -/
def renamed (renames : OMap String String) (ref : String) : String := (renames.get? ref).getD ref

def renameNode (renames : OMap String String) (n : NetlistNode) : NetlistNode :=
  { n with ref := renamed renames n.ref }

def renameNet (renames : OMap String String) (net : NetlistNet) : NetlistNet :=
  { net with nodes := net.nodes.map (renameNode renames) }

def renameNoConnect (renames : OMap String String) (n : NetlistNoConnect) : NetlistNoConnect :=
  { n with ref := renamed renames n.ref }

/-- The diagnostics, and the netlist afterwards. -/
def normalizeVirtualReferences (netlist : Netlist) : List Diagnostic × Netlist :=
  let r := normalizeComponents definitions (netlist.components.map (·.ref)) OMap.empty
    netlist.components
  (r.diagnostics, { netlist with
    components := r.components
    nets := netlist.nets.map (renameNet r.renames)
    noConnects := netlist.noConnects.map (renameNoConnect r.renames) })

end Normalize

/-! ### Numbered references -/

/-- A class that a virtual reference can be made of: it has a character behind its `#`. -/
def IsVirtualClass (expected : String) : Prop :=
  ∃ rest, rest ≠ [] ∧ expected.toList = '#' :: rest ∧ rest.all isClassChar = true

lemma not_classChar_of_isDigit {c : Char} (h : c.isDigit = true) : isClassChar c = false := by
  rw [isClassChar, h]
  rfl

lemma digits_of_index {index : ℕ} : ∃ c cs, (toString index).toList = c :: cs ∧
    c.isDigit = true ∧ cs.all Char.isDigit = true := by
  have hdigits : (toString index).toList = Nat.toDigits 10 index := by
    rw [Nat.toString_eq_ofList_toDigits, String.toList_ofList]
  obtain ⟨c, cs, hcs⟩ := List.exists_cons_of_ne_nil
    (Nat.toDigits_ne_nil (n := index) (b := 10))
  have hall : ∀ d ∈ c :: cs, d.isDigit = true := fun d hd =>
    SpecctraData.digits_toDigits (hcs ▸ hd)
  exact ⟨c, cs, hdigits.trans hcs, hall c List.mem_cons_self,
    List.all_eq_true.mpr fun d hd => hall d (List.mem_cons_of_mem _ hd)⟩

lemma takeWhile_numbered {stem : List Char} (hstem : stem.all isClassChar = true) (index : ℕ) :
    (stem ++ (toString index).toList).takeWhile isClassChar = stem ∧
      (stem ++ (toString index).toList).dropWhile isClassChar = (toString index).toList := by
  obtain ⟨c, cs, hcs, hdigit, -⟩ := @digits_of_index index
  have hstop := not_classChar_of_isDigit hdigit
  have hall := List.all_eq_true.mp hstem
  rw [List.takeWhile_append_of_pos hall, List.dropWhile_append_of_pos hall, hcs,
    List.takeWhile_cons_of_neg (by simp [hstop]), List.dropWhile_cons_of_neg (by simp [hstop]),
    List.append_nil]
  exact ⟨rfl, rfl⟩

/-- **A numbered reference is valid.** -/
lemma isValid_numbered {expected : String} (h : IsVirtualClass expected) (index : ℕ) :
    isValid expected (numbered expected index) = true := by
  obtain ⟨rest, hne, hlist, hall⟩ := h
  obtain ⟨c, cs, hcs, hdigit, hdigits⟩ := @digits_of_index index
  have hclass : ('#' :: rest).all isClassChar = true := by
    rw [List.all_cons, hall]
    rfl
  have htext : (numbered expected index).toList = '#' :: (rest ++ (toString index).toList) := by
    rw [numbered, String.toList_append, hlist]
    rfl
  have hstem : referenceClass (numbered expected index) = expected := by
    have htake := (takeWhile_numbered hclass index).1
    rw [List.cons_append] at htake
    simp only [referenceClass, htext, htake]
    rw [if_neg (List.cons_ne_nil _ _), ← hlist, String.ofList_toList]
  have hnumbered : isNumbered (numbered expected index) = true := by
    obtain ⟨htake, hdrop⟩ := takeWhile_numbered hall index
    rw [isNumbered, htext]
    simp only [htake, hdrop]
    rw [hcs]
    simp only [List.all_cons, hdigit, hdigits]
    simp [hne]
  rw [isValid, hstem, hnumbered]
  simp

/-- A class that starts with `#` has class characters only. -/
lemma all_of_expected {declared : String} (h : (referenceClass declared).toList.head? = some '#') :
    (referenceClass declared).toList.all isClassChar = true := by
  rw [referenceClass] at h ⊢
  by_cases hstem : declared.toList.takeWhile isClassChar = []
  · -- no class character comes first, and the marks that are left out come last
    rw [if_pos hstem, String.toList_ofList] at h
    have hpre : withoutMarks declared.toList <+: declared.toList := by
      rw [withoutMarks, ← List.reverse_suffix, List.reverse_reverse]
      exact List.dropWhile_suffix _
    obtain ⟨tail, htail⟩ := hpre
    obtain ⟨cs, hcs⟩ : ∃ cs, withoutMarks declared.toList = '#' :: cs := by
      cases hw : withoutMarks declared.toList with
      | nil => rw [hw] at h; exact absurd h.symm (Option.some_ne_none _)
      | cons c cs =>
        rw [hw] at h
        exact ⟨cs, by rw [Option.some.inj h]⟩
    rw [← htail, hcs] at hstem
    exact absurd hstem (List.cons_ne_nil _ _)
  · rw [if_neg hstem, String.toList_ofList]
    exact List.all_takeWhile

section Preserved

variable {definitions : Definitions}

/-- Every class that a symbol declares for virtual references has a character behind its `#`. -/
def ClassesNamed (definitions : Definitions) : Prop :=
  ∀ libId symbol, definitions.get? libId = some symbol →
    referenceClass (symbol.reference.getD "") ≠ "#"

lemma isVirtualClass_of_expected (hnamed : ClassesNamed definitions) {c : NetlistComponent}
    {expected : String} (h : expectedClass definitions c = some expected) :
    IsVirtualClass expected := by
  unfold expectedClass at h
  cases hsource : c.libSource with
  | none =>
    rw [hsource] at h
    exact absurd h.symm (Option.some_ne_none _)
  | some source =>
    rw [hsource] at h
    simp only at h
    split_ifs at h with hpower hstart
    have hexpected := Option.some.inj h
    have hall := all_of_expected hstart
    rw [hexpected] at hstart hall
    cases hlist : expected.toList with
    | nil =>
      rw [hlist] at hstart
      exact absurd hstart.symm (Option.some_ne_none _)
    | cons d rest =>
      rw [hlist] at hstart hall
      have hd : d = '#' := Option.some.inj hstart
      rw [List.all_cons, Bool.and_eq_true] at hall
      refine ⟨rest, fun hrest => ?_, by rw [hlist, hd], hall.2⟩
      have hsharp : expected = "#" := by rw [← String.toList_inj, hlist, hd, hrest]; rfl
      cases hget : definitions.get? (libIdOf source) with
      | none =>
        rw [hget] at hexpected
        rw [← hexpected] at hsharp
        exact absurd hsharp (by decide)
      | some symbol =>
        rw [hget] at hexpected
        exact hnamed _ _ hget (hexpected.trans hsharp)

lemma renameOf_some {used : List String} {c : NetlistComponent} {reference : String}
    (h : renameOf definitions used c = some reference) :
    reference ∉ used ∧ ∃ expected, expectedClass definitions c = some expected ∧
      ∃ index, reference = numbered expected index := by
  unfold renameOf at h
  cases hexpected : expectedClass definitions c with
  | none =>
    rw [hexpected] at h
    exact absurd h.symm (Option.some_ne_none _)
  | some expected =>
    rw [hexpected] at h
    simp only at h
    split_ifs at h
    have hreference := Option.some.inj h
    refine ⟨?_, expected, rfl, _, hreference.symm⟩
    rw [← hreference]
    exact firstFree_notMem (numbered_injective expected) used 1

/-- The references stay of a component that is valid, and of one that is not of a class. -/
def Settled (definitions : Definitions) (c : NetlistComponent) : Prop :=
  ∀ expected, expectedClass definitions c = some expected → isValid expected c.ref = true

lemma renameOf_eq_none_iff {used : List String} {c : NetlistComponent} :
    renameOf definitions used c = none ↔ Settled definitions c := by
  unfold renameOf Settled
  cases expectedClass definitions c with
  | none => exact ⟨fun _ expected h => absurd h.symm (Option.some_ne_none _), fun _ => rfl⟩
  | some expected =>
    simp only
    constructor
    · intro h other hother
      split_ifs at h with hvalid
      exact Option.some.inj hother ▸ hvalid
    · intro h
      rw [if_pos (h expected rfl)]

lemma settled_of_renameOf (hnamed : ClassesNamed definitions) {used : List String}
    {c : NetlistComponent} {reference : String}
    (h : renameOf definitions used c = some reference) :
    Settled definitions { c with ref := reference } := by
  obtain ⟨-, expected, hexpected, index, rfl⟩ := renameOf_some h
  intro other hother
  have hsame : expectedClass definitions { c with ref := numbered expected index } =
      expectedClass definitions c := rfl
  rw [hsame, hexpected] at hother
  obtain rfl := Option.some.inj hother
  exact isValid_numbered (isVirtualClass_of_expected hnamed hexpected) index

/-! ### The components -/

lemma renamed_of_none {renames : OMap String String} {ref : String}
    (h : renames.get? ref = none) : renamed renames ref = ref := by
  rw [renamed, h]
  rfl

/-- What the loop has done at its end with the components from some point on. -/
structure Renamed (definitions : Definitions) (used : List String) (renames : OMap String String)
    (rest : List NetlistComponent) (r : Normalized) : Prop where
  others : ∀ ref, ref ∉ rest.map (·.ref) → r.renames.get? ref = renames.get? ref
  components : r.components = rest.map fun c => { c with ref := renamed r.renames c.ref }
  settled : ∀ c ∈ rest, Settled definitions c → renamed r.renames c.ref = c.ref
  fresh : ∀ c ∈ rest, renamed r.renames c.ref = c.ref ∨ renamed r.renames c.ref ∉ used
  nodup : (r.components.map (·.ref)).Nodup
  done : ∀ c ∈ r.components, Settled definitions c

lemma refs_of_components {rest : List NetlistComponent} {r : Normalized}
    (h : r.components = rest.map fun c => { c with ref := renamed r.renames c.ref }) :
    r.components.map (·.ref) = rest.map fun c => renamed r.renames c.ref := by
  rw [h, List.map_map]
  rfl

/-- A component keeps its reference. -/
lemma renamed_keep {used : List String} {renames : OMap String String} {c : NetlistComponent}
    {rest : List NetlistComponent} {r : Normalized} (hfree : renames.get? c.ref = none)
    (hnot : c.ref ∉ rest.map (·.ref)) (hmem : c.ref ∈ used) (hsettled : Settled definitions c)
    (h : Renamed definitions used renames rest r) :
    Renamed definitions used renames (c :: rest) { r with components := c :: r.components } := by
  have hkeep : renamed r.renames c.ref = c.ref := renamed_of_none ((h.others _ hnot).trans hfree)
  refine ⟨fun ref href => ?_, ?_, fun d hd hs => ?_, fun d hd => ?_, ?_, fun d hd => ?_⟩
  · rw [List.map_cons, List.mem_cons, not_or] at href
    exact h.others ref href.2
  · change c :: r.components = { c with ref := renamed r.renames c.ref } :: _
    rw [hkeep, h.components]
  · rcases List.mem_cons.mp hd with rfl | hd
    · exact hkeep
    · exact h.settled d hd hs
  · rcases List.mem_cons.mp hd with rfl | hd
    · exact .inl hkeep
    · exact h.fresh d hd
  · refine List.nodup_cons.mpr ⟨fun hin => ?_, h.nodup⟩
    rw [refs_of_components h.components] at hin
    obtain ⟨d, hd, href⟩ := List.mem_map.mp hin
    rcases h.fresh d hd with hsame | hnew
    · exact hnot (List.mem_map.mpr ⟨d, hd, hsame.symm.trans href⟩)
    · exact hnew (href ▸ hmem)
  · rcases List.mem_cons.mp hd with rfl | hd
    · exact hsettled
    · exact h.done d hd

/-- A component gets a new reference. -/
lemma renamed_set (hnamed : ClassesNamed definitions) {used : List String}
    {renames : OMap String String} {c : NetlistComponent} {rest : List NetlistComponent}
    {r : Normalized} {reference : String} (hrename : renameOf definitions used c = some reference)
    (hnot : c.ref ∉ rest.map (·.ref)) (hused : ∀ d ∈ rest, d.ref ∈ used)
    (diagnostics : List Diagnostic)
    (h : Renamed definitions (used ++ [reference]) (renames.set c.ref reference) rest r) :
    Renamed definitions used renames (c :: rest)
      ⟨{ c with ref := reference } :: r.components, r.renames, diagnostics⟩ := by
  have hfree := (renameOf_some hrename).1
  have hset : renamed r.renames c.ref = reference := by
    rw [renamed, h.others _ hnot, OMap.get?_set, if_pos rfl]
    rfl
  refine ⟨fun ref href => ?_, ?_, fun d hd hs => ?_, fun d hd => ?_, ?_, fun d hd => ?_⟩
  · rw [List.map_cons, List.mem_cons, not_or] at href
    rw [h.others ref href.2, OMap.get?_set, if_neg href.1]
  · change { c with ref := reference } :: r.components =
      { c with ref := renamed r.renames c.ref } :: _
    rw [hset, h.components]
  · rcases List.mem_cons.mp hd with rfl | hd
    · rw [renameOf_eq_none_iff.mpr hs] at hrename
      exact absurd hrename.symm (Option.some_ne_none _)
    · exact h.settled d hd hs
  · rcases List.mem_cons.mp hd with rfl | hd
    · exact .inr (hset ▸ hfree)
    · exact (h.fresh d hd).imp id fun hnew hmem => hnew (List.mem_append_left _ hmem)
  · refine List.nodup_cons.mpr ⟨fun hin => ?_, h.nodup⟩
    rw [refs_of_components h.components] at hin
    obtain ⟨d, hd, href⟩ := List.mem_map.mp hin
    have href : renamed r.renames d.ref = reference := href
    rcases h.fresh d hd with hsame | hnew
    · exact hfree (href ▸ hsame.symm ▸ hused d hd)
    · exact hnew (href ▸ List.mem_append_right _ List.mem_cons_self)
  · rcases List.mem_cons.mp hd with rfl | hd
    · exact settled_of_renameOf hnamed hrename
    · exact h.done d hd

/-- The loop over the components. -/
lemma renamed_components (hnamed : ClassesNamed definitions) (rest : List NetlistComponent) :
    ∀ used renames, (rest.map (·.ref)).Nodup → (∀ c ∈ rest, c.ref ∈ used) →
      (∀ c ∈ rest, renames.get? c.ref = none) →
      Renamed definitions used renames rest (normalizeComponents definitions used renames rest) := by
  induction rest with
  | nil =>
    intro used renames _ _ _
    exact ⟨fun _ _ => rfl, rfl, fun _ hc => absurd hc List.not_mem_nil,
      fun _ hc => absurd hc List.not_mem_nil, List.nodup_nil, fun _ hc => absurd hc List.not_mem_nil⟩
  | cons c rest ih =>
    intro used renames hnodup hused hfree
    rw [List.map_cons, List.nodup_cons] at hnodup
    have hmem := hused c List.mem_cons_self
    have hrest : ∀ d ∈ rest, d.ref ∈ used := fun d hd => hused d (List.mem_cons_of_mem _ hd)
    rw [normalizeComponents]
    cases hrename : renameOf definitions used c with
    | none =>
      exact renamed_keep (hfree c List.mem_cons_self) hnodup.1 hmem
        (renameOf_eq_none_iff.mp hrename)
        (ih used renames hnodup.2 hrest fun d hd => hfree d (List.mem_cons_of_mem _ hd))
    | some reference =>
      refine renamed_set hnamed hrename hnodup.1 hrest _ (ih _ _ hnodup.2
        (fun d hd => List.mem_append_left _ (hrest d hd)) fun d hd => ?_)
      have hne : d.ref ≠ c.ref := fun heq => hnodup.1 (List.mem_map.mpr ⟨d, hd, heq⟩)
      rw [OMap.get?_set, if_neg hne]
      exact hfree d (List.mem_cons_of_mem _ hd)

lemma normalizeComponents_settled (rest : List NetlistComponent) :
    ∀ used renames, (∀ c ∈ rest, Settled definitions c) →
      normalizeComponents definitions used renames rest = ⟨rest, renames, []⟩ := by
  induction rest with
  | nil => exact fun _ _ _ => rfl
  | cons c rest ih =>
    intro used renames hsettled
    rw [normalizeComponents, renameOf_eq_none_iff.mpr (hsettled c List.mem_cons_self)]
    simp [ih used renames fun d hd => hsettled d (List.mem_cons_of_mem _ hd)]

/-! ### The netlist -/

/-- The reference names the component at a place. -/
def Denotes (netlist : Netlist) (ref : String) (k : ℕ) : Prop :=
  (netlist.components[k]?).map (·.ref) = some ref

instance (netlist : Netlist) (ref : String) (k : ℕ) : Decidable (Denotes netlist ref k) :=
  inferInstanceAs (Decidable (_ = _))

/-- Nodes and no-connects are pins of components of the netlist. -/
structure Known (netlist : Netlist) : Prop where
  nodes : ∀ net ∈ netlist.nets, ∀ n ∈ net.nodes, n.ref ∈ netlist.components.map (·.ref)
  noConnects : ∀ n ∈ netlist.noConnects, n.ref ∈ netlist.components.map (·.ref)

/-- A netlist with other references that says the same. -/
structure Preserves (definitions : Definitions) (before after : Netlist) : Prop where
  design : after.design = before.design
  components : List.Forall₂ (fun c d => d = { c with ref := d.ref })
    before.components after.components
  distinct : (after.components.map (·.ref)).Nodup
  valid : List.Forall₂ (fun c d => Settled definitions c → d.ref = c.ref)
    before.components after.components
  nets : List.Forall₂ (fun net net' => net'.name = net.name ∧ net'.code = net.code ∧
    List.Forall₂ (fun n m => m = { n with ref := m.ref } ∧
      ∀ k, Denotes after m.ref k ↔ Denotes before n.ref k) net.nodes net'.nodes)
    before.nets after.nets
  noConnects : List.Forall₂ (fun n m => m.pin = n.pin ∧
    ∀ k, Denotes after m.ref k ↔ Denotes before n.ref k) before.noConnects after.noConnects
  again : normalizeVirtualReferences definitions after = ([], after)

lemma forall₂_map {α : Type} {R : α → α → Prop} {f : α → α} {as : List α}
    (h : ∀ a ∈ as, R a (f a)) : List.Forall₂ R as (as.map f) := by
  induction as with
  | nil => exact List.Forall₂.nil
  | cons a as ih =>
    exact .cons (h a List.mem_cons_self) (ih fun b hb => h b (List.mem_cons_of_mem _ hb))

/-- A name that keeps components apart names the same ones. -/
lemma denotes_renamed {before after : Netlist} {name : String → String}
    (hcomponents : after.components = before.components.map fun c => { c with ref := name c.ref })
    (hdistinct : (after.components.map (·.ref)).Nodup) {ref : String}
    (href : ref ∈ before.components.map (·.ref)) (k : ℕ) :
    Denotes after (name ref) k ↔ Denotes before ref k := by
  have hrefs : after.components.map (·.ref) = (before.components.map (·.ref)).map name := by
    rw [hcomponents, List.map_map, List.map_map]
    rfl
  rw [hrefs] at hdistinct
  have hinj := List.inj_on_of_nodup_map hdistinct
  have hafter : (after.components[k]?).map (·.ref) =
      ((before.components[k]?).map (·.ref)).map name := by
    rw [hcomponents, List.getElem?_map, Option.map_map, Option.map_map]
    rfl
  unfold Denotes
  rw [hafter]
  cases hk : before.components[k]? with
  | none => simp
  | some c =>
    have hmem : c.ref ∈ before.components.map (·.ref) :=
      List.mem_map.mpr ⟨c, List.mem_of_getElem? hk, rfl⟩
    simp only [Option.map_some, Option.some.injEq]
    exact ⟨fun h => hinj hmem href h, fun h => congrArg name h⟩

/-- **`normalizeVirtualReferences` preserves the design** of a netlist with references of its own,
whose nodes and no-connects are pins of its components. -/
theorem normalize_preserves (hnamed : ClassesNamed definitions) {netlist : Netlist}
    (hdistinct : (netlist.components.map (·.ref)).Nodup) (hknown : Known netlist) :
    Preserves definitions netlist (normalizeVirtualReferences definitions netlist).2 := by
  have h := renamed_components hnamed netlist.components (netlist.components.map (·.ref))
    OMap.empty hdistinct (fun c hc => List.mem_map.mpr ⟨c, hc, rfl⟩)
    fun c _ => OMap.get?_empty c.ref
  set r := normalizeComponents definitions (netlist.components.map (·.ref)) OMap.empty
    netlist.components with hr
  have hafter : (normalizeVirtualReferences definitions netlist).2 = { netlist with
      components := r.components
      nets := netlist.nets.map (renameNet r.renames)
      noConnects := netlist.noConnects.map (renameNoConnect r.renames) } := rfl
  rw [hafter]
  have hdenotes : ∀ ref ∈ netlist.components.map (·.ref), ∀ k,
      Denotes { netlist with
        components := r.components
        nets := netlist.nets.map (renameNet r.renames)
        noConnects := netlist.noConnects.map (renameNoConnect r.renames) }
        (renamed r.renames ref) k ↔ Denotes netlist ref k :=
    fun ref href k => denotes_renamed h.components h.nodup href k
  refine ⟨rfl, ?_, h.nodup, ?_, ?_, ?_, ?_⟩
  · rw [h.components]
    exact forall₂_map fun _ _ => rfl
  · rw [h.components]
    exact forall₂_map fun c hc => h.settled c hc
  · refine forall₂_map fun net hnet => ⟨rfl, rfl, ?_⟩
    exact forall₂_map fun n hn => ⟨rfl, hdenotes n.ref (hknown.nodes net hnet n hn)⟩
  · exact forall₂_map fun n hn => ⟨rfl, hdenotes n.ref (hknown.noConnects n hn)⟩
  · have hnode : renameNode OMap.empty = id := funext fun n => by rfl
    have hnet : renameNet OMap.empty = id := funext fun net => by
      rw [renameNet, hnode, List.map_id]
      rfl
    have hopen : renameNoConnect OMap.empty = id := funext fun n => by
      rfl
    rw [normalizeVirtualReferences]
    simp [normalizeComponents_settled r.components _ _ h.done, hnet, hopen]

end Preserved

/-- A power symbol whose class is `#PWR`. -/
def powerDefinitions : Definitions := OMap.empty.set "power:VCC" ⟨some "#PWR", 1, []⟩

def powerSource : LibSource := ⟨"power", "VCC", none⟩

/-- `U1` is to be renamed; a node names `#PWR1`, which no component is. -/
def dangling : Netlist where
  design := none
  components := [⟨"U1", "VCC", "", some powerSource, [], none⟩]
  nets := [⟨"VCC", none, [⟨"#PWR1", "1", none, none⟩]⟩]

lemma powerDefinitions_named : ClassesNamed powerDefinitions := by
  intro libId symbol hget
  rw [powerDefinitions, OMap.get?_set] at hget
  split_ifs at hget
  · rw [← Option.some.inj hget]
    decide
  · exact absurd hget.symm (Option.some_ne_none symbol)

/-- The node of no component becomes a pin of `U1`. -/
theorem dangling_captured : ClassesNamed powerDefinitions ∧
    (dangling.components.map (·.ref)).Nodup ∧
    ¬ Preserves powerDefinitions dangling
      (normalizeVirtualReferences powerDefinitions dangling).2 := by
  refine ⟨powerDefinitions_named, by decide, fun h => ?_⟩
  have hnets := h.nets
  obtain ⟨hnet, -⟩ := List.forall₂_cons.mp hnets
  obtain ⟨hnode, -⟩ := List.forall₂_cons.mp hnet.2.2
  have hdenotes := (hnode.2 0).mp (by decide +kernel)
  exact absurd hdenotes (by decide)

/-- Two power symbols that are renamed, one of them with a pin on a net. -/
def twoSupplies : Netlist where
  design := none
  components := [⟨"F1", "VCC", "", some powerSource, [], none⟩,
    ⟨"#PWR1", "VCC", "", some powerSource, [], none⟩]
  nets := [⟨"VCC", none, [⟨"F1", "1", none, none⟩]⟩]

theorem twoSupplies_preserved : Preserves powerDefinitions twoSupplies
    (normalizeVirtualReferences powerDefinitions twoSupplies).2 :=
  normalize_preserves powerDefinitions_named (by decide) ⟨by decide, by decide⟩

end FabPcb.VirtualReferences
