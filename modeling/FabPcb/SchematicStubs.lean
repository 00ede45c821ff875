import FabPcb.SchematicLayout
import FabPcb.Writes

/-!
`buildGeneratedSchematic` after the references are normal: symbols at their origins, and a wire with
a label at every pin that is on a net.

What is drawn at a pin stays within the extent of its symbol, provided that no pin is on nets of two
names: an extent knows the last of the names only.
-/

namespace FabPcb.SchematicStubs

open OrderedMap ApplyNetlist KicadNetlist VirtualReferences
open SchematicLayout
open SpecctraData (Vec2)

/-! ### Instances -/

structure Instance where
  component : NetlistComponent
  unit : ℤ

structure PlacedPin where
  position : Vec2
  orientation : PinOrientation

def definitionOf (definitions : Definitions) (c : NetlistComponent) : Option LibSymbol :=
  c.libSource.bind fun source => definitions.get? (libIdOf source)

/-- One instance for each unit of the symbol. -/
def instancesOf (definitions : Definitions) (components : List NetlistComponent) : List Instance :=
  components.flatMap fun c =>
    let count := max 1 (((definitionOf definitions c).map (·.unitCount)).getD 1)
    (List.range count.toNat).map fun index => ⟨c, index + 1⟩

/-- The last net of each pin. -/
def pinNetsOf (nets : List NetlistNet) : OMap String String :=
  OMap.ofList (nets.flatMap fun net => net.nodes.map fun n => (pinKey n.ref n.pin, net.name))

section Draw

variable (definitions : Definitions) (netlist : Netlist)

def extentOf (i : Instance) : Option Extent :=
  (definitionOf definitions i.component).map fun definition =>
    symbolExtent definition i.component.ref (pinNetsOf netlist.nets) i.unit

def instances : List Instance := instancesOf definitions netlist.components

def extents : List (Option Extent) := (instances definitions netlist).map (extentOf definitions netlist)

def positions : List Vec2 := layoutSymbols (extents definitions netlist)

/-! ### Symbols and their pins -/

def shift (origin relative : Vec2) : Vec2 := ⟨origin.x + relative.x, origin.y + relative.y⟩

/-- The pins of a placed symbol that can be on a net. -/
def placedPins (definition : LibSymbol) (origin : Vec2) (reference : String) (unit : ℤ) :
    List (String × PlacedPin) :=
  ((pinsOf definition unit).filter (·.number ≠ "")).map fun pin =>
    (pinKey reference pin.number, ⟨shift origin pin.position, pin.orientation⟩)

/-- The pins of an instance at its origin. -/
def pinsAt (i : Instance) (origin : Vec2) : List (String × PlacedPin) :=
  match definitionOf definitions i.component with
  | none => []
  | some definition => placedPins definition origin i.component.ref i.unit

/-- What is wrong with an instance. -/
def instanceDiagnostics (i : Instance) : List Diagnostic :=
  match i.component.libSource with
  | none => [⟨.error, "schematic", "missing_symbol", i.component.ref ++
      ": libSource is required to draw this component in the generated schematic."⟩]
  | some source =>
    match definitions.get? (libIdOf source) with
    | none => [⟨.error, "schematic", "unknown_symbol", i.component.ref ++ ": symbol " ++
        libIdOf source ++ " could not be loaded; the board compile is unchanged."⟩]
    | some definition =>
      let expected := referenceClass (definition.reference.getD "")
      let actual := referenceClass i.component.ref
      if i.unit = 1 ∧ expected ≠ "" ∧ actual ≠ expected then
        [⟨.error, "schematic", "symbol_reference_mismatch", i.component.ref ++ ": symbol " ++
          libIdOf source ++ " declares reference class " ++ expected ++ ", not " ++ actual ++
          "; if " ++ libIdOf source ++ " is the intended symbol, change the reference to " ++
          expected ++ " followed by a number; otherwise choose a symbol matching the intended " ++
          "electrical function."⟩]
      else []

/-- `pins`: every key with its pins, in the order of the instances. -/
def addPin (pins : OMap String (List PlacedPin)) (pin : String × PlacedPin) :
    OMap String (List PlacedPin) :=
  pins.set pin.1 ((pins.get? pin.1).getD [] ++ [pin.2])

def allPins : List (String × PlacedPin) :=
  ((instances definitions netlist).zip (positions definitions netlist)).flatMap fun i =>
    pinsAt definitions i.1 i.2

def pins : OMap String (List PlacedPin) := (allPins definitions netlist).foldl addPin OMap.empty

/-! ### Stubs -/

structure Segment where
  start : Vec2
  stop : Vec2

structure Label where
  position : Vec2
  text : String
  spinStyle : SpinStyle

/-- A wire at a pin, with the label at its end. -/
structure Stub where
  wire : Segment
  label : Label

def stubAt (name : String) (pin : PlacedPin) : Stub :=
  let stop := along pin.position (outward pin.orientation).1 STUB_LENGTH
  ⟨⟨pin.position, stop⟩, ⟨stop, name, (outward pin.orientation).2⟩⟩

/-- What is drawn for a net, and the nodes that cannot be drawn. -/
def drawNode (pins : OMap String (List PlacedPin)) (name : String) (n : NetlistNode) :
    List Stub × List Diagnostic :=
  match (pins.get? (pinKey n.ref n.pin)).getD [] with
  | [] => ([], [⟨.error, "schematic", "unknown_symbol_pin", n.ref ++ " pin " ++ n.pin ++ " (" ++
      name ++ ") could not be drawn because the symbol or pin is unavailable."⟩])
  | selected => (selected.map (stubAt name), [])

def drawNets : List (List Stub × List Diagnostic) :=
  netlist.nets.flatMap fun net => net.nodes.map (drawNode (pins definitions netlist) net.name)

/-- The symbols' units with their origins, the stubs, and the diagnostics. -/
structure Drawing where
  symbols : List (Instance × Vec2)
  stubs : List Stub
  diagnostics : List Diagnostic

def drawSchematic : Drawing where
  symbols := ((instances definitions netlist).zip (positions definitions netlist)).filter fun i =>
    (definitionOf definitions i.1.component).isSome
  stubs := (drawNets definitions netlist).flatMap (·.1)
  diagnostics := (instances definitions netlist).flatMap (instanceDiagnostics definitions) ++
    (drawNets definitions netlist).flatMap (·.2)

end Draw

/-! ### What is on a stub -/

/-- A point of a segment. -/
def OnSegment (s : Segment) (point : Vec2) : Prop :=
  ∃ t : ℚ, 0 ≤ t ∧ t ≤ 1 ∧ point = ⟨s.start.x + t * (s.stop.x - s.start.x),
    s.start.y + t * (s.stop.y - s.start.y)⟩

/-- Where the text of a label runs to. -/
def spinDirection : SpinStyle → Vec2
  | .left => ⟨-1, 0⟩
  | .right => ⟨1, 0⟩
  | .up => ⟨0, -1⟩
  | .bottom => ⟨0, 1⟩

/-- The line that a label takes. -/
def Label.segment (l : Label) : Segment :=
  ⟨l.position, along l.position (spinDirection l.spinStyle) (labelLength l.text)⟩

/-- No key of a pin is on nets of two names. -/
def OneNet (nets : List NetlistNet) : Prop :=
  ∀ net ∈ nets, ∀ other ∈ nets, ∀ n ∈ net.nodes, ∀ m ∈ other.nodes,
    pinKey n.ref n.pin = pinKey m.ref m.pin → net.name = other.name

/-! ### Within an extent -/

/-- A point within the extent at an origin. -/
structure Within (o : Vec2) (e : Extent) (point : Vec2) : Prop where
  left : o.x - e.left ≤ point.x
  right : point.x ≤ o.x + e.right
  top : o.y - e.top ≤ point.y
  bottom : point.y ≤ o.y + e.bottom

lemma within_reach (o : Vec2) (e : Extent) (point : Vec2) :
    Within o (e.reach point) (shift o point) := by
  have hleft := le_max_right e.left (-point.x)
  have hright := le_max_right e.right point.x
  have htop := le_max_right e.top (-point.y)
  have hbottom := le_max_right e.bottom point.y
  constructor <;> simp only [shift, Extent.reach] <;> linarith

lemma Within.reach {o : Vec2} {e : Extent} {point : Vec2} (h : Within o e point) (other : Vec2) :
    Within o (e.reach other) point := by
  have hleft := le_max_left e.left (-other.x)
  have hright := le_max_left e.right other.x
  have htop := le_max_left e.top (-other.y)
  have hbottom := le_max_left e.bottom other.y
  obtain ⟨h1, h2, h3, h4⟩ := h
  constructor <;> simp only [Extent.reach] <;> linarith

lemma Within.reachPin {o : Vec2} {e : Extent} {point : Vec2} (h : Within o e point)
    (reference : String) (pinNets : OMap String String) (pin : SchematicPin) :
    Within o (reachPin reference pinNets e pin) point := by
  unfold SchematicLayout.reachPin
  cases pinNets.get? (pinKey reference pin.number) with
  | none => exact (h.reach _).reach _
  | some net => exact ((h.reach _).reach _).reach _

lemma Within.foldl {o : Vec2} {point : Vec2} (reference : String) (pinNets : OMap String String)
    (pins : List SchematicPin) : ∀ e, Within o e point →
      Within o (pins.foldl (SchematicLayout.reachPin reference pinNets) e) point := by
  induction pins with
  | nil => exact fun _ h => h
  | cons pin pins ih => exact fun e h => ih _ (h.reachPin reference pinNets pin)

lemma within_foldl {o point : Vec2} {reference : String} {pinNets : OMap String String}
    {pin : SchematicPin} (hadd : ∀ e, Within o (reachPin reference pinNets e pin) point)
    {pins : List SchematicPin} (hpin : pin ∈ pins) (e : Extent) :
    Within o (pins.foldl (reachPin reference pinNets) e) point := by
  obtain ⟨before, after, rfl⟩ := List.append_of_mem hpin
  rw [List.foldl_append]
  exact Within.foldl reference pinNets after _ (hadd _)

section Symbol

variable {definition : LibSymbol} (reference : String) (pinNets : OMap String String) {unit : ℤ}
  {pin : SchematicPin} (hpin : pin ∈ pinsOf definition unit) (o : Vec2)

include hpin

lemma within_position :
    Within o (symbolExtent definition reference pinNets unit) (shift o pin.position) := by
  refine within_foldl (fun e => ?_) hpin minimum
  unfold reachPin
  cases pinNets.get? (pinKey reference pin.number) with
  | none => exact (within_reach _ _ _).reach _
  | some net => exact ((within_reach _ _ _).reach _).reach _

lemma within_label {net : String} (hnet : pinNets.get? (pinKey reference pin.number) = some net) :
    Within o (symbolExtent definition reference pinNets unit)
      (shift o (along pin.position (outward pin.orientation).1
        (STUB_LENGTH + labelLength net))) := by
  refine within_foldl (fun e => ?_) hpin minimum
  unfold reachPin
  rw [hnet]
  exact within_reach _ _ _

end Symbol

lemma between_le {a b c t : ℚ} (ha : a ≤ c) (hb : b ≤ c) (h0 : 0 ≤ t) (h1 : t ≤ 1) :
    a + t * (b - a) ≤ c := by
  have hfirst := mul_le_mul_of_nonneg_left ha (sub_nonneg.mpr h1)
  have hsecond := mul_le_mul_of_nonneg_left hb h0
  linarith

lemma le_between {a b c t : ℚ} (ha : c ≤ a) (hb : c ≤ b) (h0 : 0 ≤ t) (h1 : t ≤ 1) :
    c ≤ a + t * (b - a) := by
  have hfirst := mul_le_mul_of_nonneg_left ha (sub_nonneg.mpr h1)
  have hsecond := mul_le_mul_of_nonneg_left hb h0
  linarith

lemma within_segment {o : Vec2} {e : Extent} {s : Segment} {point : Vec2}
    (hstart : Within o e s.start) (hstop : Within o e s.stop) (h : OnSegment s point) :
    Within o e point := by
  obtain ⟨t, h0, h1, rfl⟩ := h
  exact ⟨le_between hstart.left hstop.left h0 h1, between_le hstart.right hstop.right h0 h1,
    le_between hstart.top hstop.top h0 h1, between_le hstart.bottom hstop.bottom h0 h1⟩

lemma not_within_both {o o' : Vec2} {e e' : Extent} {point : Vec2} (h : Apart gap o e o' e')
    (hfirst : Within o e point) (hsecond : Within o' e' point) : False := by
  have hgap := gap_pos
  obtain ⟨l, r, t, b⟩ := hfirst
  obtain ⟨l', r', t', b'⟩ := hsecond
  rcases h with h | h | h | h <;> linarith

/-! ### Pins of an instance -/

section Whole

variable {definitions : Definitions} {netlist : Netlist}

/-- An instance with its origin. -/
structure At (definitions : Definitions) (netlist : Netlist) (k : ℕ) (i : Instance) (o : Vec2) :
    Prop where
  inst : (instances definitions netlist)[k]? = some i
  origin : (positions definitions netlist)[k]? = some o

lemma At.extent {k : ℕ} {i : Instance} {o : Vec2} (h : At definitions netlist k i o) :
    (extents definitions netlist)[k]? = some (extentOf definitions netlist i) ∧
      o = originAt (extents definitions netlist) k := by
  have hextent : (extents definitions netlist)[k]? = some (extentOf definitions netlist i) := by
    rw [extents, List.getElem?_map, h.inst]
    rfl
  have horigin := h.origin
  rw [positions, layoutSymbols_getElem?, hextent] at horigin
  exact ⟨hextent, (Option.some.inj horigin).symm⟩

lemma pin_of_pinsAt {i : Instance} {o : Vec2} {pin : String × PlacedPin}
    (h : pin ∈ pinsAt definitions i o) : ∃ definition source,
      definitionOf definitions i.component = some definition ∧ source ∈ pinsOf definition i.unit ∧
      pin = (pinKey i.component.ref source.number,
        ⟨shift o source.position, source.orientation⟩) := by
  unfold pinsAt at h
  cases hdefinition : definitionOf definitions i.component with
  | none =>
    rw [hdefinition] at h
    exact absurd h List.not_mem_nil
  | some definition =>
    rw [hdefinition] at h
    obtain ⟨source, hsource, rfl⟩ := List.mem_map.mp h
    exact ⟨definition, source, rfl, (List.mem_filter.mp hsource).1, rfl⟩

lemma pinNets_of_node (hone : OneNet netlist.nets) {net : NetlistNet} (hnet : net ∈ netlist.nets)
    {n : NetlistNode} (hn : n ∈ net.nodes) :
    (pinNetsOf netlist.nets).get? (pinKey n.ref n.pin) = some net.name := by
  rw [pinNetsOf, Writes.get?_ofList]
  cases hlast : Writes.lastWrite (netlist.nets.flatMap fun net =>
      net.nodes.map fun n => (pinKey n.ref n.pin, net.name)) (pinKey n.ref n.pin) with
  | none =>
    rw [Writes.lastWrite_eq_none_iff] at hlast
    refine absurd (List.mem_map.mpr ⟨(pinKey n.ref n.pin, net.name), ?_, rfl⟩) hlast
    exact List.mem_flatMap.mpr ⟨net, hnet, List.mem_map.mpr ⟨n, hn, rfl⟩⟩
  | some name =>
    obtain ⟨other, hother, hm⟩ := List.mem_flatMap.mp (Writes.mem_of_lastWrite hlast)
    obtain ⟨m, hm, heq⟩ := List.mem_map.mp hm
    have hkey : pinKey m.ref m.pin = pinKey n.ref n.pin := congrArg Prod.fst heq
    have hname : other.name = name := congrArg Prod.snd heq
    rw [← hname, hone other hother net hnet m hm n hn hkey]

lemma label_stop (name : String) (pin : PlacedPin) : (stubAt name pin).label.segment.stop =
    along pin.position (outward pin.orientation).1 (STUB_LENGTH + labelLength name) := by
  have hspin : spinDirection (outward pin.orientation).2 = (outward pin.orientation).1 := by
    cases pin.orientation <;> rfl
  change along (along pin.position (outward pin.orientation).1 STUB_LENGTH)
    (spinDirection (outward pin.orientation).2) (labelLength name) = _
  rw [hspin]
  simp [along, mul_add, add_assoc]

lemma labelLength_nonneg (name : String) : 0 ≤ labelLength name :=
  mul_nonneg grid_pos.le (by positivity)

lemma onSegment_along {start direction : Vec2} {near far : ℚ} (h0 : 0 ≤ near) (hle : near ≤ far)
    (hpos : 0 < far) : OnSegment ⟨start, along start direction far⟩ (along start direction near) := by
  refine ⟨near / far, div_nonneg h0 hpos.le, (div_le_one hpos).mpr hle, ?_⟩
  have hratio : near / far * far = near := div_mul_cancel₀ near hpos.ne'
  simp only [along, add_sub_cancel_left, Vec2.mk.injEq]
  constructor
  · rw [mul_comm direction.x far, ← mul_assoc, hratio, mul_comm]
  · rw [mul_comm direction.y far, ← mul_assoc, hratio, mul_comm]

/-- **What is drawn at a pin stays within the extent of its instance.** -/
lemma within_stub (hone : OneNet netlist.nets) {i : Instance} {o : Vec2} {e : Extent}
    (he : extentOf definitions netlist i = some e) {pin : String × PlacedPin}
    (hpin : pin ∈ pinsAt definitions i o) {net : NetlistNet} (hnet : net ∈ netlist.nets)
    {n : NetlistNode} (hn : n ∈ net.nodes) (hkey : pin.1 = pinKey n.ref n.pin) {point : Vec2}
    (hpoint : OnSegment (stubAt net.name pin.2).wire point ∨
      OnSegment (stubAt net.name pin.2).label.segment point) : Within o e point := by
  obtain ⟨definition, source, hdefinition, hsource, rfl⟩ := pin_of_pinsAt hpin
  rw [extentOf, hdefinition, Option.map_some, Option.some.injEq] at he
  subst he
  have hname := pinNets_of_node hone hnet hn
  rw [← hkey] at hname
  have hstart := within_position i.component.ref (pinNetsOf netlist.nets) hsource o
  have hend := within_label i.component.ref (pinNetsOf netlist.nets) hsource o hname
  have hshift : shift o (along source.position (outward source.orientation).1
      (STUB_LENGTH + labelLength net.name)) = along (shift o source.position)
        (outward source.orientation).1 (STUB_LENGTH + labelLength net.name) := by
    simp [shift, along, add_assoc]
  rw [hshift] at hend
  have hlength := labelLength_nonneg net.name
  have hstub : 0 < STUB_LENGTH := mul_pos (by norm_num) grid_pos
  have hfar : STUB_LENGTH ≤ STUB_LENGTH + labelLength net.name := by linarith
  have hmiddle := within_segment hstart hend
    (onSegment_along hstub.le hfar (hstub.trans_le hfar))
  rcases hpoint with hwire | hlabel
  · exact within_segment hstart hmiddle hwire
  · refine within_segment hmiddle ?_ hlabel
    rw [label_stop]
    exact hend

lemma within_pin {i : Instance} {o : Vec2} {e : Extent}
    (he : extentOf definitions netlist i = some e) {pin : String × PlacedPin}
    (hpin : pin ∈ pinsAt definitions i o) : Within o e pin.2.position := by
  obtain ⟨definition, source, hdefinition, hsource, rfl⟩ := pin_of_pinsAt hpin
  rw [extentOf, hdefinition, Option.map_some, Option.some.injEq] at he
  subst he
  exact within_position _ _ hsource o

lemma extent_of_pinsAt (netlist : Netlist) {i : Instance} {o : Vec2} {pin : String × PlacedPin}
    (h : pin ∈ pinsAt definitions i o) : ∃ e, extentOf definitions netlist i = some e := by
  obtain ⟨definition, -, hdefinition, -⟩ := pin_of_pinsAt h
  exact ⟨_, by rw [extentOf, hdefinition, Option.map_some]⟩

/-! ### What is drawn -/

lemma mem_foldl_addPin (entries : List (String × PlacedPin)) (key : String) (pin : PlacedPin) :
    ∀ m : OMap String (List PlacedPin), pin ∈ ((entries.foldl addPin m).get? key).getD [] ↔
      pin ∈ (m.get? key).getD [] ∨ (key, pin) ∈ entries := by
  induction entries with
  | nil =>
    intro m
    exact ⟨Or.inl, fun h => h.resolve_right List.not_mem_nil⟩
  | cons entry entries ih =>
    intro m
    rw [List.foldl_cons, ih, addPin, OMap.get?_set, List.mem_cons]
    by_cases hkey : key = entry.1
    · rw [if_pos hkey, Option.getD_some, List.mem_append, List.mem_singleton, ← hkey]
      have hentry : pin = entry.2 ↔ (key, pin) = entry := by
        rw [hkey]
        exact ⟨fun h => by rw [h], fun h => by rw [← h]⟩
      rw [hentry, or_assoc]
    · have hother : (key, pin) ≠ entry := fun h => hkey (by rw [← h])
      rw [if_neg hkey]
      simp [hother, false_or]

/-- Every stub is at a pin of an instance, for a node of a net. -/
lemma stub_of_drawn {stub : Stub} (h : stub ∈ (drawSchematic definitions netlist).stubs) :
    ∃ k i o pin net n, At definitions netlist k i o ∧ pin ∈ pinsAt definitions i o ∧
      net ∈ netlist.nets ∧ n ∈ net.nodes ∧ pin.1 = pinKey n.ref n.pin ∧
      stub = stubAt net.name pin.2 := by
  obtain ⟨drawn, hdrawn, hstub⟩ := List.mem_flatMap.mp h
  obtain ⟨net, hnet, hnodes⟩ := List.mem_flatMap.mp hdrawn
  obtain ⟨n, hn, rfl⟩ := List.mem_map.mp hnodes
  have hpin : ∃ pin ∈ ((pins definitions netlist).get? (pinKey n.ref n.pin)).getD [],
      stub = stubAt net.name pin := by
    unfold drawNode at hstub
    cases hselected : ((pins definitions netlist).get? (pinKey n.ref n.pin)).getD [] with
    | nil =>
      rw [hselected] at hstub
      exact absurd hstub List.not_mem_nil
    | cons first rest =>
      rw [hselected] at hstub
      obtain ⟨pin, hpin, rfl⟩ := List.mem_map.mp hstub
      exact ⟨pin, hpin, rfl⟩
  obtain ⟨pin, hpin, rfl⟩ := hpin
  rw [pins, mem_foldl_addPin] at hpin
  have hentry := hpin.resolve_left List.not_mem_nil
  obtain ⟨⟨i, o⟩, hzip, hat⟩ := List.mem_flatMap.mp hentry
  obtain ⟨k, hk⟩ := List.mem_iff_getElem?.mp hzip
  rw [List.getElem?_zip_eq_some] at hk
  exact ⟨k, i, o, _, net, n, ⟨hk.1, hk.2⟩, hat, hnet, hn, rfl, rfl⟩

/-! ### The layout -/

/-- A layout that keeps the instances apart, and with them their nets. -/
structure LayoutApart (definitions : Definitions) (netlist : Netlist) : Prop where
  onGrid : ∀ k i o, At definitions netlist k i o → OnGrid o.x ∧ OnGrid o.y
  apart : ∀ k k' i i' o o' e e', k ≠ k' → At definitions netlist k i o →
    At definitions netlist k' i' o' → extentOf definitions netlist i = some e →
    extentOf definitions netlist i' = some e' → Apart gap o e o' e'
  drawn : ∀ stub ∈ (drawSchematic definitions netlist).stubs, ∃ k i o pin net n,
    At definitions netlist k i o ∧ pin ∈ pinsAt definitions i o ∧ net ∈ netlist.nets ∧
      n ∈ net.nodes ∧ pin.1 = pinKey n.ref n.pin ∧ stub = stubAt net.name pin.2
  separate : ∀ k k' i i' o o' pin pin' net n point, k ≠ k' → At definitions netlist k i o →
    At definitions netlist k' i' o' → pin ∈ pinsAt definitions i o →
    pin' ∈ pinsAt definitions i' o' → net ∈ netlist.nets → n ∈ net.nodes →
    pin.1 = pinKey n.ref n.pin →
    (OnSegment (stubAt net.name pin.2).wire point ∨
      OnSegment (stubAt net.name pin.2).label.segment point) →
    point ≠ pin'.2.position ∧ ∀ net' ∈ netlist.nets, ∀ n' ∈ net'.nodes,
      pin'.1 = pinKey n'.ref n'.pin → ¬ OnSegment (stubAt net'.name pin'.2).wire point

lemma apart_at {k k' : ℕ} {i i' : Instance} {o o' : Vec2} {e e' : Extent} (hne : k ≠ k')
    (h : At definitions netlist k i o) (h' : At definitions netlist k' i' o')
    (he : extentOf definitions netlist i = some e) (he' : extentOf definitions netlist i' = some e') :
    Apart gap o e o' e' := by
  obtain ⟨hextent, rfl⟩ := h.extent
  obtain ⟨hextent', rfl⟩ := h'.extent
  rw [he] at hextent
  rw [he'] at hextent'
  exact layout_apart hextent hextent' hne

/-- **The layout keeps the instances of symbols apart**: their extents, and what is drawn at their
pins, where no pin is on nets of two names. -/
theorem layout_separates (definitions : Definitions) {netlist : Netlist}
    (hone : OneNet netlist.nets) : LayoutApart definitions netlist := by
  refine ⟨fun k i o h => ?_, fun k k' i i' o o' e e' hne h h' he he' => apart_at hne h h' he he',
    fun stub hstub => stub_of_drawn hstub, ?_⟩
  · obtain ⟨-, rfl⟩ := h.extent
    exact origin_onGrid k
  · intro k k' i i' o o' pin pin' net n point hne h h' hpin hpin' hnet hn hkey hpoint
    obtain ⟨e, he⟩ := extent_of_pinsAt netlist hpin
    obtain ⟨e', he'⟩ := extent_of_pinsAt netlist hpin'
    have hapart := apart_at hne h h' he he'
    have hwithin := within_stub hone he hpin hnet hn hkey hpoint
    refine ⟨fun heq => ?_, fun net' hnet' n' hn' hkey' hwire => ?_⟩
    · exact not_within_both hapart hwithin (heq ▸ within_pin he' hpin')
    · exact not_within_both hapart hwithin (within_stub hone he' hpin' hnet' hn' hkey' (.inl hwire))

end Whole

/-! ### A pin on two nets -/

/-- A symbol with one pin, whose label runs to the right. -/
def onePin : LibSymbol := ⟨none, 1, [⟨0, 0, some ⟨"1", ⟨0, 0⟩, 0, .left⟩⟩]⟩

def testDefinitions : Definitions := OMap.empty.set "Device:P" onePin

def testComponent (ref : String) : NetlistComponent :=
  ⟨ref, "P", "", some ⟨"Device", "P", none⟩, [], none⟩

/-- A net with its one node. -/
def netAt (name ref : String) : NetlistNet := ⟨name, none, [⟨ref, "1", none, none⟩]⟩

/-- The label of the first net is longer than the one of the second. -/
def crossed : Netlist where
  design := none
  components := [testComponent "U1", testComponent "U2"]
  nets := [netAt "A_LONG_NAME_OF_A_SUPPLY_NET_3V3" "U1", netAt "B" "U1"]

/-- Each pin on a net of its own. -/
def straight : Netlist where
  design := none
  components := [testComponent "U1", testComponent "U2"]
  nets := [netAt "A" "U1", netAt "B" "U2"]

/-- The long label of `U1` runs through the pin of `U2`. -/
theorem crossed_touches : ¬ LayoutApart testDefinitions crossed := by
  intro h
  have hfirst : At testDefinitions crossed 0 ⟨testComponent "U1", 1⟩ ⟨24 * grid, 20 * grid⟩ :=
    ⟨rfl, by decide +kernel⟩
  have hsecond : At testDefinitions crossed 1 ⟨testComponent "U2", 1⟩ ⟨52 * grid, 20 * grid⟩ :=
    ⟨rfl, by decide +kernel⟩
  have hpin : ("U1:1", ⟨⟨24 * grid + 0, 20 * grid + 0⟩, .left⟩) ∈
      pinsAt testDefinitions ⟨testComponent "U1", 1⟩ ⟨24 * grid, 20 * grid⟩ := List.mem_cons_self
  have hpin' : ("U2:1", ⟨⟨52 * grid + 0, 20 * grid + 0⟩, .left⟩) ∈
      pinsAt testDefinitions ⟨testComponent "U2", 1⟩ ⟨52 * grid, 20 * grid⟩ := List.mem_cons_self
  refine (h.separate 0 1 _ _ _ _ _ _ _ _ ⟨52 * grid + 0, 20 * grid + 0⟩ (by decide) hfirst hsecond
    hpin hpin' List.mem_cons_self List.mem_cons_self rfl (.inr ⟨24 / 33, ?_⟩)).1 rfl
  decide +kernel

theorem straight_apart : LayoutApart testDefinitions straight :=
  layout_separates testDefinitions (by unfold OneNet; decide)

end FabPcb.SchematicStubs
