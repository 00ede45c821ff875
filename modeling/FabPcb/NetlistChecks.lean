import FabPcb.ApplyNetlist
import FabPcb.SExprText

/-!
The netlist that a frontend makes of the source, and `validateNetlist`.

What a loop of the source pushes to the diagnostics and the sets it fills on the way are collected by
`collect`; its induction rule gives what an accepted netlist is: names given once, and nodes that are
pins of components, each on one net at most.
-/

namespace FabPcb.NetlistChecks

open OrderedMap ApplyNetlist SExprText

structure NetlistComponent where
  ref : String
  value : String
  footprint : String

structure NetlistNode where
  ref : String
  pin : String

structure NetlistNet where
  name : String
  nodes : List NetlistNode

structure Netlist where
  components : List NetlistComponent
  nets : List NetlistNet
  noConnects : List NetlistNode := []

/-! ### Messages -/

def err (message code : String) : Diagnostic := ⟨.error, "netlist", code, message⟩

def warn (message code : String) : Diagnostic := ⟨.warning, "netlist", code, message⟩

/-! ### `validateNetlist` -/

section Collect

variable {σ α : Type}

/-- A loop that pushes diagnostics and fills a set or a map. -/
def collect (check : σ → α → List Diagnostic × σ) : σ → List α → List Diagnostic × σ
  | acc, [] => ([], acc)
  | acc, a :: as =>
    let r := check acc a
    let rest := collect check r.2 as
    (r.1 ++ rest.1, rest.2)

end Collect

/-- `seen` are the references so far. -/
def checkComponent (seen : List String) (c : NetlistComponent) : List Diagnostic × List String :=
  if c.ref = "" then
    ([err ("Component with value " ++ jsonString c.value ++ " has no reference designator.")
      "missing_ref"], seen)
  else
    ((if c.ref ∈ seen then
        [err ("Duplicate reference designator " ++ c.ref ++ ".") "duplicate_ref"] else []) ++
      (if c.footprint = "" then
        [warn (c.ref ++ " has no footprint; ImportNetlist will not place it on the board.")
          "missing_footprint"] else []), c.ref :: seen)

def pinOf (n : NetlistNode) : String := n.ref ++ ":" ++ n.pin

/-- `pins` are the nets of the pins so far. -/
def checkNode (seen : List String) (net : NetlistNet) (pins : OMap String String)
    (n : NetlistNode) : List Diagnostic × OMap String String :=
  let unknown := if n.ref ∈ seen then [] else
    [err ("Net " ++ net.name ++ " references unknown component " ++ n.ref ++ ".") "unknown_ref"]
  let prior := (pins.get? (pinOf n)).getD ""
  if prior ≠ "" ∧ prior ≠ net.name then
    (unknown ++ [err (n.ref ++ " pin " ++ n.pin ++ " belongs to both " ++ prior ++ " and " ++
      net.name ++ ".") "pin_in_multiple_nets"], pins)
  else (unknown, pins.set (pinOf n) net.name)

/-- KiCad's escape sequences stand in braces. -/
def hasBrace (name : String) : Bool := name.toList.any fun c => c = '\x7b' || c = '\x7d'

def checkName (names : List String) (name : String) : List Diagnostic :=
  if name = "" then [err "Net with no name." "unnamed_net"]
  else if name ∈ names then [err ("Duplicate net name " ++ name ++ ".") "duplicate_net"]
  else if hasBrace name then
    [err ("Net name " ++ name ++ " contains \"\x7b\" or \"\x7d\" (KiCad's escape sequences such as " ++
      "\x7bslash\x7d); after SetNetClasses the fork cannot save a board with such a net. Use the " ++
      "literal character or \"_\".") "net_name_escape"]
  else []

/-- The names and the pins so far. -/
abbrev NetState := List String × OMap String String

def checkNet (seen : List String) (acc : NetState) (net : NetlistNet) :
    List Diagnostic × NetState :=
  let named := if net.name = "" then "(unnamed)" else net.name
  let single := if net.nodes.length < 2 then
    [warn ("Net " ++ named ++ " has " ++ toString net.nodes.length ++
      " node(s); it connects nothing.") "single_node_net"] else []
  let nodes := collect (checkNode seen net) acc.2 net.nodes
  (checkName acc.1 net.name ++ single ++ nodes.1, (net.name :: acc.1, nodes.2))

/-- `marked` are the pins so far that are left open. -/
def checkNoConnect (seen : List String) (pins : OMap String String) (marked : List String)
    (n : NetlistNode) : List Diagnostic × List String :=
  let net := (pins.get? (pinOf n)).getD ""
  ((if n.ref ∈ seen then [] else
      [err ("No-connect references unknown component " ++ n.ref ++ ".") "unknown_no_connect_ref"]) ++
    (if pinOf n ∈ marked then
      [err ("Duplicate no-connect declaration for " ++ n.ref ++ " pin " ++ n.pin ++ ".")
        "duplicate_no_connect"] else []) ++
    (if net ≠ "" then
      [err (n.ref ++ " pin " ++ n.pin ++ " is both on net " ++ net ++ " and marked no-connect.")
        "connected_no_connect"] else []), pinOf n :: marked)

def validateNetlist (netlist : Netlist) : List Diagnostic :=
  let components := collect checkComponent [] netlist.components
  let nets := collect (checkNet components.2) ([], OMap.empty) netlist.nets
  let noConnects := collect (checkNoConnect components.2 nets.2.2) [] netlist.noConnects
  components.1 ++ nets.1 ++ noConnects.1

/-! ### What is accepted -/

@[simp] lemma hasErrors_nil : hasErrors [] = false := rfl

@[simp] lemma hasErrors_append (ds es : List Diagnostic) :
    hasErrors (ds ++ es) = (hasErrors ds || hasErrors es) := List.any_append

@[simp] lemma hasErrors_err (m c : String) (ds : List Diagnostic) :
    hasErrors (err m c :: ds) = true := rfl

section Accepted

variable {σ α : Type} {check : σ → α → List Diagnostic × σ} {Inv : List α → σ → Prop}

lemma collect_run (hstep : ∀ done acc a, Inv done acc → hasErrors (check acc a).1 = false →
    Inv (done ++ [a]) (check acc a).2) (as : List α) : ∀ done acc, Inv done acc →
      hasErrors (collect check acc as).1 = false → Inv (done ++ as) (collect check acc as).2 := by
  induction as with
  | nil =>
    intro done acc hinv _
    rwa [List.append_nil]
  | cons a as ih =>
    intro done acc hinv hok
    rw [collect, hasErrors_append, Bool.or_eq_false_iff] at hok
    have hnext := ih (done ++ [a]) (check acc a).2 (hstep done acc a hinv hok.1) hok.2
    rwa [List.append_assoc] at hnext

lemma collect_accepted {acc : σ} {as : List α} (hinit : Inv [] acc)
    (hstep : ∀ done acc a, Inv done acc → hasErrors (check acc a).1 = false →
      Inv (done ++ [a]) (check acc a).2)
    (h : hasErrors (collect check acc as).1 = false) : Inv as (collect check acc as).2 :=
  collect_run hstep as [] acc hinit h

lemma nodup_map_concat {f : α → String} {as : List α} {a : α} (hnodup : (as.map f).Nodup)
    (hnot : f a ∉ as.map f) : ((as ++ [a]).map f).Nodup := by
  rw [List.map_append, List.nodup_append]
  refine ⟨hnodup, List.nodup_singleton _, fun x hx y hy hxy => ?_⟩
  rw [List.map_singleton, List.mem_singleton] at hy
  exact hnot (hy ▸ hxy ▸ hx)

lemma mem_map_concat {f : α → String} {as : List α} {a : α} {x : String} :
    x ∈ (as ++ [a]).map f ↔ x ∈ as.map f ∨ x = f a := by
  rw [List.map_append, List.mem_append, List.map_singleton, List.mem_singleton]

end Accepted

/-- After the components: `seen` are their references. -/
structure ComponentsSeen (components : List NetlistComponent) (seen : List String) : Prop where
  referenced : ∀ c ∈ components, c.ref ≠ ""
  nodup : (components.map (·.ref)).Nodup
  mem_iff : ∀ ref, ref ∈ seen ↔ ref ∈ components.map (·.ref)

lemma checkComponent_accepted {done : List NetlistComponent} {seen : List String}
    {c : NetlistComponent} (hinv : ComponentsSeen done seen)
    (hok : hasErrors (checkComponent seen c).1 = false) :
    ComponentsSeen (done ++ [c]) (checkComponent seen c).2 := by
  have hne : c.ref ≠ "" := by
    intro hempty
    simp [checkComponent, hempty] at hok
  have hfresh : c.ref ∉ seen := by
    intro hmem
    simp [checkComponent, hne, hmem] at hok
  have hseen : (checkComponent seen c).2 = c.ref :: seen := by simp [checkComponent, hne]
  rw [hseen]
  refine ⟨fun d hd => ?_, ?_, fun ref => ?_⟩
  · rcases List.mem_append.mp hd with hd | hd
    · exact hinv.referenced d hd
    · exact List.mem_singleton.mp hd ▸ hne
  · have hnot : c.ref ∉ done.map (·.ref) := fun hc => hfresh ((hinv.mem_iff c.ref).mpr hc)
    exact nodup_map_concat hinv.nodup hnot
  · rw [List.mem_cons, hinv.mem_iff, mem_map_concat, or_comm]

/-- Within a net: its nodes are pins of components and are on it; pins that were on a net stay. -/
structure NodesOn (seen : List String) (name : String) (before : OMap String String)
    (nodes : List NetlistNode) (pins : OMap String String) : Prop where
  known : ∀ n ∈ nodes, n.ref ∈ seen ∧ pins.get? (pinOf n) = some name
  stay : ∀ pin net, before.get? pin = some net → net ≠ "" → pins.get? pin = some net

lemma checkNode_accepted {seen : List String} {net : NetlistNet} {before pins : OMap String String}
    {nodes : List NetlistNode} {n : NetlistNode} (hinv : NodesOn seen net.name before nodes pins)
    (hok : hasErrors (checkNode seen net pins n).1 = false) :
    NodesOn seen net.name before (nodes ++ [n]) (checkNode seen net pins n).2 := by
  have hknown : n.ref ∈ seen := by
    by_contra hno
    unfold checkNode at hok
    dsimp only at hok
    split at hok
    · simp at hok
    · simp at hok
  have hprior : ¬ ((pins.get? (pinOf n)).getD "" ≠ "" ∧
      (pins.get? (pinOf n)).getD "" ≠ net.name) := by
    intro hc
    unfold checkNode at hok
    rw [if_pos hc, hasErrors_append, hasErrors_err, Bool.or_true] at hok
    exact Bool.noConfusion hok
  have hpins : (checkNode seen net pins n).2 = pins.set (pinOf n) net.name := by
    unfold checkNode
    rw [if_neg hprior]
  rw [hpins]
  refine ⟨fun m hm => ?_, fun pin other hbefore hne => ?_⟩
  · rcases List.mem_append.mp hm with hm | hm
    · obtain ⟨hseen, hon⟩ := hinv.known m hm
      refine ⟨hseen, ?_⟩
      rw [OMap.get?_set]
      split
      · rfl
      · exact hon
    · obtain rfl := List.mem_singleton.mp hm
      exact ⟨hknown, by rw [OMap.get?_set, if_pos rfl]⟩
  · have hon := hinv.stay pin other hbefore hne
    rw [OMap.get?_set]
    split
    next hpin =>
      obtain rfl := hpin
      rw [hon] at hprior
      exact congrArg some (not_not.mp (not_and.mp hprior hne)).symm
    · exact hon

/-- After some nets: they have names of their own, and each pin is on the net that names it. -/
structure NetsOn (seen : List String) (nets : List NetlistNet) (acc : NetState) : Prop where
  named : ∀ net ∈ nets, net.name ≠ "" ∧ hasBrace net.name = false
  nodup : (nets.map (·.name)).Nodup
  mem_iff : ∀ name, name ∈ acc.1 ↔ name ∈ nets.map (·.name)
  known : ∀ net ∈ nets, ∀ n ∈ net.nodes, n.ref ∈ seen ∧ acc.2.get? (pinOf n) = some net.name

lemma checkName_accepted {names : List String} {name : String}
    (hok : hasErrors (checkName names name) = false) :
    name ≠ "" ∧ name ∉ names ∧ hasBrace name = false := by
  unfold checkName at hok
  split at hok
  · simp at hok
  next hne =>
    split at hok
    · simp at hok
    next hfresh =>
      split at hok
      · simp at hok
      next hbrace => exact ⟨hne, hfresh, Bool.not_eq_true _ ▸ hbrace⟩

lemma checkNet_accepted {seen : List String} {nets : List NetlistNet} {acc : NetState}
    {net : NetlistNet} (hinv : NetsOn seen nets acc)
    (hok : hasErrors (checkNet seen acc net).1 = false) :
    NetsOn seen (nets ++ [net]) (checkNet seen acc net).2 := by
  unfold checkNet at hok ⊢
  rw [hasErrors_append, hasErrors_append, Bool.or_eq_false_iff, Bool.or_eq_false_iff] at hok
  obtain ⟨⟨hname, _⟩, hnodes⟩ := hok
  obtain ⟨hne, hfresh, hbrace⟩ := checkName_accepted hname
  have hon : NodesOn seen net.name acc.2 net.nodes
      (collect (checkNode seen net) acc.2 net.nodes).2 :=
    collect_accepted ⟨fun _ hn => absurd hn List.not_mem_nil, fun _ _ h _ => h⟩
      (fun _ _ _ hnodes hnode => checkNode_accepted hnodes hnode) hnodes
  refine ⟨fun other hother => ?_, ?_, fun name => ?_, fun other hother n hn => ?_⟩
  · rcases List.mem_append.mp hother with hother | hother
    · exact hinv.named other hother
    · exact List.mem_singleton.mp hother ▸ ⟨hne, hbrace⟩
  · have hnot : net.name ∉ nets.map (·.name) := fun hc => hfresh ((hinv.mem_iff _).mpr hc)
    exact nodup_map_concat hinv.nodup hnot
  · rw [List.mem_cons, hinv.mem_iff, mem_map_concat, or_comm]
  · rcases List.mem_append.mp hother with hother | hother
    · obtain ⟨hseen, hpin⟩ := hinv.known other hother n hn
      exact ⟨hseen, hon.stay _ _ hpin (hinv.named other hother).1⟩
    · obtain rfl := List.mem_singleton.mp hother
      exact hon.known n hn

/-- After some no-connects: `marked` are their pins. -/
structure LeftOpen (seen : List String) (pins : OMap String String) (noConnects : List NetlistNode)
    (marked : List String) : Prop where
  known : ∀ n ∈ noConnects, n.ref ∈ seen ∧ (pins.get? (pinOf n)).getD "" = ""
  nodup : (noConnects.map pinOf).Nodup
  mem_iff : ∀ pin, pin ∈ marked ↔ pin ∈ noConnects.map pinOf

lemma checkNoConnect_accepted {seen marked : List String} {pins : OMap String String}
    {noConnects : List NetlistNode} {n : NetlistNode} (hinv : LeftOpen seen pins noConnects marked)
    (hok : hasErrors (checkNoConnect seen pins marked n).1 = false) :
    LeftOpen seen pins (noConnects ++ [n]) (checkNoConnect seen pins marked n).2 := by
  unfold checkNoConnect at hok ⊢
  rw [hasErrors_append, hasErrors_append, Bool.or_eq_false_iff, Bool.or_eq_false_iff] at hok
  obtain ⟨⟨hknown, hfresh⟩, hopen⟩ := hok
  have hseen : n.ref ∈ seen := by
    by_contra hno
    simp [hno] at hknown
  have hnew : pinOf n ∉ marked := by
    intro hmem
    simp [hmem] at hfresh
  have hfree : (pins.get? (pinOf n)).getD "" = "" := by
    by_contra hnet
    simp [hnet] at hopen
  refine ⟨fun m hm => ?_, ?_, fun pin => ?_⟩
  · rcases List.mem_append.mp hm with hm | hm
    · exact hinv.known m hm
    · exact List.mem_singleton.mp hm ▸ ⟨hseen, hfree⟩
  · have hnot : pinOf n ∉ noConnects.map pinOf := fun hc => hnew ((hinv.mem_iff _).mpr hc)
    exact nodup_map_concat hinv.nodup hnot
  · rw [List.mem_cons, hinv.mem_iff, mem_map_concat, or_comm]

/-- A netlist that KiCad can import: every name is given once, and every node is a pin of a
component, on one net at most. -/
structure WellFormed (netlist : Netlist) : Prop where
  referenced : ∀ c ∈ netlist.components, c.ref ≠ ""
  references : (netlist.components.map (·.ref)).Nodup
  named : ∀ net ∈ netlist.nets, net.name ≠ "" ∧ hasBrace net.name = false
  names : (netlist.nets.map (·.name)).Nodup
  pins : ∀ net ∈ netlist.nets, ∀ n ∈ net.nodes, n.ref ∈ netlist.components.map (·.ref)
  onOne : ∀ net ∈ netlist.nets, ∀ other ∈ netlist.nets, ∀ n ∈ net.nodes, ∀ m ∈ other.nodes,
    pinOf n = pinOf m → net.name = other.name
  openPins : ∀ n ∈ netlist.noConnects, n.ref ∈ netlist.components.map (·.ref)
  openOnce : (netlist.noConnects.map pinOf).Nodup
  unconnected : ∀ n ∈ netlist.noConnects, ∀ net ∈ netlist.nets, ∀ m ∈ net.nodes, pinOf m ≠ pinOf n

/-- **What `validateNetlist` accepts** is well formed. -/
theorem wellFormed_of_accepted {netlist : Netlist}
    (hok : hasErrors (validateNetlist netlist) = false) : WellFormed netlist := by
  unfold validateNetlist at hok
  rw [hasErrors_append, hasErrors_append, Bool.or_eq_false_iff, Bool.or_eq_false_iff] at hok
  obtain ⟨⟨hcomponents, hnets⟩, hopen⟩ := hok
  have hseen : ComponentsSeen netlist.components
      (collect checkComponent [] netlist.components).2 := collect_accepted
    ⟨fun _ hc => absurd hc List.not_mem_nil, List.nodup_nil, fun _ => Iff.rfl⟩
    (fun _ _ _ hinv hstep => checkComponent_accepted hinv hstep) hcomponents
  have hon : NetsOn (collect checkComponent [] netlist.components).2 netlist.nets
      (collect (checkNet (collect checkComponent [] netlist.components).2)
        ([], OMap.empty) netlist.nets).2 := collect_accepted
    ⟨fun _ hc => absurd hc List.not_mem_nil, List.nodup_nil, fun _ => Iff.rfl,
      fun _ hc => absurd hc List.not_mem_nil⟩
    (fun _ _ _ hinv hstep => checkNet_accepted hinv hstep) hnets
  have hleft : LeftOpen (collect checkComponent [] netlist.components).2
      (collect (checkNet (collect checkComponent [] netlist.components).2)
        ([], OMap.empty) netlist.nets).2.2 netlist.noConnects
      (collect (checkNoConnect _ _) [] netlist.noConnects).2 := collect_accepted
    ⟨fun _ hc => absurd hc List.not_mem_nil, List.nodup_nil, fun _ => Iff.rfl⟩
    (fun _ _ _ hinv hstep => checkNoConnect_accepted hinv hstep) hopen
  refine ⟨hseen.referenced, hseen.nodup, hon.named, hon.nodup, fun net hnet n hn => ?_,
    fun net hnet other hother n hn m hm hpin => ?_, fun n hn => ?_, hleft.nodup,
    fun n hn net hnet m hm hpin => ?_⟩
  · exact (hseen.mem_iff _).mp (hon.known net hnet n hn).1
  · have hfirst := (hon.known net hnet n hn).2
    have hsecond := (hon.known other hother m hm).2
    rw [hpin, hsecond] at hfirst
    exact (Option.some.inj hfirst).symm
  · exact (hseen.mem_iff _).mp (hleft.known n hn).1
  · have hnamed := (hon.known net hnet m hm).2
    have hfree := (hleft.known n hn).2
    rw [← hpin, hnamed] at hfree
    exact (hon.named net hnet).1 hfree

end FabPcb.NetlistChecks
