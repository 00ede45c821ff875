import FabPcb.NetlistChecks

/-!
What `validateNetlist` accepts, in both directions.

The loops follow pins by the text `ref:pin`. What they accept is therefore well formed in the sense
of these texts; a reader of a netlist means pairs, and two pairs can have one text.
-/

namespace FabPcb.NetlistExact

open OrderedMap ApplyNetlist NetlistChecks

/-! ### A loop that finds nothing -/

section Clean

variable {σ α : Type} {check : σ → α → List Diagnostic × σ}

lemma collect_clean_from {as : List α} (Inv : List α → σ → Prop) (hstep : ∀ done a rest acc, as = done ++ a :: rest →
      Inv done acc → hasErrors (check acc a).1 = false ∧ Inv (done ++ [a]) (check acc a).2) :
    ∀ done rest acc, as = done ++ rest → Inv done acc →
      hasErrors (collect check acc rest).1 = false ∧ Inv as (collect check acc rest).2 := by
  intro done rest
  induction rest generalizing done with
  | nil =>
    intro acc has hinv
    rw [List.append_nil] at has
    exact ⟨rfl, has ▸ hinv⟩
  | cons a rest ih =>
    intro acc has hinv
    obtain ⟨hclean, hnext⟩ := hstep done a rest acc has hinv
    have hsplit : as = done ++ [a] ++ rest := by rw [has, List.append_assoc, List.singleton_append]
    obtain ⟨hrest, hend⟩ := ih (done ++ [a]) (check acc a).2 hsplit hnext
    rw [collect, hasErrors_append, hclean, hrest]
    exact ⟨rfl, hend⟩

lemma collect_clean (Inv : List α → σ → Prop) (as : List α) {acc : σ} (hinit : Inv [] acc)
    (hstep : ∀ done a rest acc, as = done ++ a :: rest → Inv done acc →
      hasErrors (check acc a).1 = false ∧ Inv (done ++ [a]) (check acc a).2) :
    hasErrors (collect check acc as).1 = false ∧ Inv as (collect check acc as).2 :=
  collect_clean_from Inv hstep [] as acc rfl hinit

end Clean

lemma notMem_of_nodup {α : Type} {f : α → String} {done rest : List α} {a : α}
    (hnodup : ((done ++ a :: rest).map f).Nodup) : f a ∉ done.map f := by
  rw [List.map_append, List.nodup_append] at hnodup
  exact fun hmem => hnodup.2.2 _ hmem _ List.mem_cons_self rfl

/-! ### The components -/

lemma checkComponent_clean {done : List NetlistComponent} {seen : List String}
    {c : NetlistComponent} (hne : c.ref ≠ "") (hfresh : c.ref ∉ done.map (·.ref))
    (hinv : ComponentsSeen done seen) : hasErrors (checkComponent seen c).1 = false := by
  have hseen : c.ref ∉ seen := fun hmem => hfresh ((hinv.mem_iff _).mp hmem)
  unfold checkComponent
  rw [if_neg hne, if_neg hseen]
  split
  · rfl
  · rfl

lemma components_clean {components : List NetlistComponent}
    (hne : ∀ c ∈ components, c.ref ≠ "") (hnodup : (components.map (·.ref)).Nodup) :
    hasErrors (collect checkComponent [] components).1 = false ∧
      ComponentsSeen components (collect checkComponent [] components).2 := by
  refine collect_clean ComponentsSeen components
    ⟨fun _ hc => absurd hc List.not_mem_nil, List.nodup_nil, fun _ => Iff.rfl⟩
    fun done c rest seen has hinv => ?_
  have hmem : c ∈ components := by rw [has]; exact List.mem_append_right _ List.mem_cons_self
  have hclean := checkComponent_clean (hne c hmem) (notMem_of_nodup (has ▸ hnodup)) hinv
  exact ⟨hclean, checkComponent_accepted hinv hclean⟩

/-! ### The nets -/

/-- Every pin that is known to be on a net is one of its nodes. -/
def Drawn (nets : List NetlistNet) (pins : OMap String String) : Prop :=
  ∀ pin name, pins.get? pin = some name →
    ∃ net ∈ nets, net.name = name ∧ ∃ n ∈ net.nodes, pinOf n = pin

/-- Within a net: as before it, or a pin of the nodes so far. -/
def DrawnOn (before : OMap String String) (name : String) (nodes : List NetlistNode)
    (pins : OMap String String) : Prop :=
  ∀ pin other, pins.get? pin = some other →
    before.get? pin = some other ∨ other = name ∧ ∃ n ∈ nodes, pinOf n = pin

lemma drawnOn_set {before pins : OMap String String} {name : String} {nodes : List NetlistNode}
    {n : NetlistNode} (hinv : DrawnOn before name nodes pins) :
    DrawnOn before name (nodes ++ [n]) (pins.set (pinOf n) name) := by
  intro pin other hpin
  rw [OMap.get?_set] at hpin
  split at hpin
  next heq =>
    have hmem : n ∈ nodes ++ [n] := List.mem_append_right _ List.mem_cons_self
    exact .inr ⟨(Option.some.inj hpin).symm, n, hmem, heq.symm⟩
  · rcases hinv pin other hpin with hbefore | ⟨hname, m, hm, hpin⟩
    · exact .inl hbefore
    · exact .inr ⟨hname, m, List.mem_append_left _ hm, hpin⟩

lemma checkNode_clean {seen : List String} {net : NetlistNet} {before pins : OMap String String}
    {nodes : List NetlistNode} {n : NetlistNode} (hseen : n.ref ∈ seen)
    (hfree : ∀ other, before.get? (pinOf n) = some other → other = net.name)
    (hinv : DrawnOn before net.name nodes pins) :
    hasErrors (checkNode seen net pins n).1 = false ∧
      DrawnOn before net.name (nodes ++ [n]) (checkNode seen net pins n).2 := by
  have hprior : ¬ ((pins.get? (pinOf n)).getD "" ≠ "" ∧
      (pins.get? (pinOf n)).getD "" ≠ net.name) := by
    rintro ⟨hsome, hother⟩
    rcases hget : pins.get? (pinOf n) with _ | other
    · rw [hget] at hsome
      exact hsome rfl
    · rw [hget] at hother
      rcases hinv _ _ hget with hbefore | ⟨hname, _⟩
      · exact hother (hfree other hbefore)
      · exact hother hname
  unfold checkNode
  rw [if_neg hprior, if_pos hseen]
  exact ⟨rfl, drawnOn_set hinv⟩

lemma nodes_clean {seen : List String} {net : NetlistNet} {before : OMap String String}
    (hseen : ∀ n ∈ net.nodes, n.ref ∈ seen)
    (hfree : ∀ n ∈ net.nodes, ∀ other, before.get? (pinOf n) = some other → other = net.name) :
    hasErrors (collect (checkNode seen net) before net.nodes).1 = false ∧
      DrawnOn before net.name net.nodes (collect (checkNode seen net) before net.nodes).2 := by
  refine collect_clean (DrawnOn before net.name) net.nodes (fun pin other hpin => .inl hpin)
    fun done n rest pins has hinv => ?_
  have hmem : n ∈ net.nodes := by rw [has]; exact List.mem_append_right _ List.mem_cons_self
  exact checkNode_clean (hseen n hmem) (hfree n hmem) hinv

lemma checkName_clean {names : List String} {name : String} (hne : name ≠ "")
    (hfresh : name ∉ names) (hbrace : hasBrace name = false) :
    hasErrors (checkName names name) = false := by
  rw [checkName, if_neg hne, if_neg hfresh, hbrace, if_neg Bool.false_ne_true, hasErrors_nil]

/-- After some nets: their names, and where the pins are. -/
structure NetsDrawn (nets : List NetlistNet) (acc : NetState) : Prop where
  mem_iff : ∀ name, name ∈ acc.1 ↔ name ∈ nets.map (·.name)
  drawn : Drawn nets acc.2

lemma checkNet_clean {seen : List String} {done : List NetlistNet} {acc : NetState}
    {net : NetlistNet} (hname : net.name ≠ "" ∧ hasBrace net.name = false)
    (hfresh : net.name ∉ done.map (·.name)) (hseen : ∀ n ∈ net.nodes, n.ref ∈ seen)
    (hone : ∀ other ∈ done, ∀ m ∈ other.nodes, ∀ n ∈ net.nodes, pinOf m = pinOf n →
      other.name = net.name) (hinv : NetsDrawn done acc) :
    hasErrors (checkNet seen acc net).1 = false ∧
      NetsDrawn (done ++ [net]) (checkNet seen acc net).2 := by
  have hnew : net.name ∉ acc.1 := fun hmem => hfresh ((hinv.mem_iff _).mp hmem)
  have hfree : ∀ n ∈ net.nodes, ∀ other, acc.2.get? (pinOf n) = some other →
      other = net.name := by
    intro n hn other hother
    obtain ⟨before, hbefore, rfl, m, hm, hpin⟩ := hinv.drawn _ _ hother
    exact hone before hbefore m hm n hn hpin
  obtain ⟨hnodes, hdrawn⟩ := nodes_clean hseen hfree
  unfold checkNet
  refine ⟨?_, fun name => ?_, fun pin name hpin => ?_⟩
  · rw [hasErrors_append, hasErrors_append, checkName_clean hname.1 hnew hname.2, hnodes]
    split
    · rfl
    · rfl
  · rw [List.mem_cons, hinv.mem_iff, mem_map_concat, or_comm]
  · rcases hdrawn pin name hpin with hbefore | ⟨rfl, n, hn, hpin⟩
    · obtain ⟨other, hother, hon⟩ := hinv.drawn pin name hbefore
      exact ⟨other, List.mem_append_left _ hother, hon⟩
    · exact ⟨net, List.mem_append_right _ List.mem_cons_self, rfl, n, hn, hpin⟩

lemma nets_clean {seen : List String} {nets : List NetlistNet}
    (hnamed : ∀ net ∈ nets, net.name ≠ "" ∧ hasBrace net.name = false)
    (hnames : (nets.map (·.name)).Nodup) (hseen : ∀ net ∈ nets, ∀ n ∈ net.nodes, n.ref ∈ seen)
    (hone : ∀ net ∈ nets, ∀ other ∈ nets, ∀ n ∈ net.nodes, ∀ m ∈ other.nodes,
      pinOf n = pinOf m → net.name = other.name) :
    hasErrors (collect (checkNet seen) ([], OMap.empty) nets).1 = false ∧
      NetsDrawn nets (collect (checkNet seen) ([], OMap.empty) nets).2 := by
  refine collect_clean NetsDrawn nets ⟨fun _ => Iff.rfl, fun pin name hpin => ?_⟩
    fun done net rest acc has hinv => ?_
  · exact absurd hpin (Option.some_ne_none name).symm
  · have hmem : net ∈ nets := by
      rw [has]
      exact List.mem_append_right _ List.mem_cons_self
    have hbefore : ∀ other ∈ done, other ∈ nets := fun other hother => by
      rw [has]
      exact List.mem_append_left _ hother
    exact checkNet_clean (hnamed net hmem) (notMem_of_nodup (has ▸ hnames)) (hseen net hmem)
      (fun other hother m hm n hn hpin =>
        hone other (hbefore other hother) net hmem m hm n hn hpin) hinv

/-! ### The pins that are left open -/

lemma checkNoConnect_clean {seen marked : List String} {pins : OMap String String}
    {done : List NetlistNode} {n : NetlistNode} (hseen : n.ref ∈ seen)
    (hfresh : pinOf n ∉ done.map pinOf) (hopen : pins.get? (pinOf n) = none)
    (hinv : LeftOpen seen pins done marked) :
    hasErrors (checkNoConnect seen pins marked n).1 = false := by
  have hnew : pinOf n ∉ marked := fun hmem => hfresh ((hinv.mem_iff _).mp hmem)
  have hfree : ¬ (pins.get? (pinOf n)).getD "" ≠ "" := fun hne => hne (by rw [hopen]; rfl)
  unfold checkNoConnect
  dsimp only
  rw [if_pos hseen, if_neg hnew, if_neg hfree]
  rfl

lemma noConnects_clean {seen : List String} {pins : OMap String String}
    {noConnects : List NetlistNode} (hseen : ∀ n ∈ noConnects, n.ref ∈ seen)
    (honce : (noConnects.map pinOf).Nodup) (hopen : ∀ n ∈ noConnects, pins.get? (pinOf n) = none) :
    hasErrors (collect (checkNoConnect seen pins) [] noConnects).1 = false := by
  refine (collect_clean (LeftOpen seen pins) noConnects
    ⟨fun _ hc => absurd hc List.not_mem_nil, List.nodup_nil, fun _ => Iff.rfl⟩
    fun done n rest marked has hinv => ?_).1
  have hmem : n ∈ noConnects := by
    rw [has]
    exact List.mem_append_right _ List.mem_cons_self
  have hclean := checkNoConnect_clean (hseen n hmem) (notMem_of_nodup (has ▸ honce)) (hopen n hmem)
    hinv
  exact ⟨hclean, checkNoConnect_accepted hinv hclean⟩

/-- **What is well formed is accepted.** -/
lemma accepted_of_wellFormed {netlist : Netlist} (h : WellFormed netlist) :
    hasErrors (validateNetlist netlist) = false := by
  obtain ⟨hcomponents, hseen⟩ := components_clean h.referenced h.references
  obtain ⟨hnets, hdrawn⟩ := nets_clean h.named h.names
    (fun net hnet n hn => (hseen.mem_iff _).mpr (h.pins net hnet n hn)) h.onOne
  have hfree : ∀ n ∈ netlist.noConnects, OMap.get? (collect (checkNet (collect checkComponent []
      netlist.components).2) ([], OMap.empty) netlist.nets).2.2 (pinOf n) = none := by
    intro n hn
    rw [Option.eq_none_iff_forall_ne_some]
    intro name hname
    obtain ⟨net, hnet, _, m, hm, hpin⟩ := hdrawn.drawn _ _ hname
    exact h.unconnected n hn net hnet m hm hpin
  have hopen := noConnects_clean (fun n hn => (hseen.mem_iff _).mpr (h.openPins n hn)) h.openOnce
    hfree
  unfold validateNetlist
  rw [hasErrors_append, hasErrors_append, hcomponents, hnets, hopen]
  rfl

/-- **The netlists that `validateNetlist` accepts** are the well-formed ones, pins being told apart
by their texts. -/
theorem accepted_iff_wellFormed (netlist : Netlist) :
    hasErrors (validateNetlist netlist) = false ↔ WellFormed netlist :=
  ⟨wellFormed_of_accepted, accepted_of_wellFormed⟩

/-! ### Pins as pairs -/

/-- A pin of a component. -/
def pairOf (n : NetlistNode) : String × String := (n.ref, n.pin)

/-- A netlist that is well formed: as `WellFormed`, with pairs of a reference and a pin. -/
structure PairsWellFormed (netlist : Netlist) : Prop where
  referenced : ∀ c ∈ netlist.components, c.ref ≠ ""
  references : (netlist.components.map (·.ref)).Nodup
  named : ∀ net ∈ netlist.nets, net.name ≠ "" ∧ hasBrace net.name = false
  names : (netlist.nets.map (·.name)).Nodup
  pins : ∀ net ∈ netlist.nets, ∀ n ∈ net.nodes, n.ref ∈ netlist.components.map (·.ref)
  onOne : netlist.nets.Pairwise fun net other =>
    ∀ n ∈ net.nodes, ∀ m ∈ other.nodes, pairOf n ≠ pairOf m
  openPins : ∀ n ∈ netlist.noConnects, n.ref ∈ netlist.components.map (·.ref)
  openOnce : (netlist.noConnects.map pairOf).Nodup
  unconnected : ∀ n ∈ netlist.noConnects, ∀ net ∈ netlist.nets, ∀ m ∈ net.nodes,
    pairOf m ≠ pairOf n

/-- The texts keep apart what has to be kept apart: pins on two nets, pins that are left open, and
the ones from the others. -/
structure TextsApart (netlist : Netlist) : Prop where
  nets : netlist.nets.Pairwise fun net other =>
    ∀ n ∈ net.nodes, ∀ m ∈ other.nodes, pinOf n = pinOf m → pairOf n = pairOf m
  noConnects : netlist.noConnects.Pairwise fun n m => pinOf n = pinOf m → pairOf n = pairOf m
  mixed : ∀ n ∈ netlist.noConnects, ∀ net ∈ netlist.nets, ∀ m ∈ net.nodes,
    pinOf m = pinOf n → pairOf m = pairOf n

lemma pinOf_congr {n m : NetlistNode} (h : pairOf n = pairOf m) : pinOf n = pinOf m := by
  rw [pinOf, pinOf, show n.ref = m.ref from congrArg Prod.fst h,
    show n.pin = m.pin from congrArg Prod.snd h]

lemma pairwise_of_onOne {nets : List NetlistNet} (hnames : (nets.map (·.name)).Nodup)
    (hone : ∀ net ∈ nets, ∀ other ∈ nets, ∀ n ∈ net.nodes, ∀ m ∈ other.nodes,
      pinOf n = pinOf m → net.name = other.name) :
    nets.Pairwise fun net other => ∀ n ∈ net.nodes, ∀ m ∈ other.nodes, pinOf n ≠ pinOf m := by
  have hne : nets.Pairwise fun net other => net.name ≠ other.name := List.pairwise_map.mp hnames
  refine hne.imp_of_mem fun {net other} hnet hother hdiff n hn m hm hpin => ?_
  exact hdiff (hone net hnet other hother n hn m hm hpin)

lemma onOne_of_pairwise {nets : List NetlistNet}
    (hapart : nets.Pairwise fun net other =>
      ∀ n ∈ net.nodes, ∀ m ∈ other.nodes, pinOf n ≠ pinOf m) :
    ∀ net ∈ nets, ∀ other ∈ nets, ∀ n ∈ net.nodes, ∀ m ∈ other.nodes,
      pinOf n = pinOf m → net.name = other.name := by
  intro net hnet other hother n hn m hm hpin
  obtain ⟨i, hi, rfl⟩ := List.getElem_of_mem hnet
  obtain ⟨j, hj, rfl⟩ := List.getElem_of_mem hother
  rw [List.pairwise_iff_getElem] at hapart
  rcases lt_trichotomy i j with hlt | rfl | hlt
  · exact absurd hpin (hapart i j hi hj hlt n hn m hm)
  · rfl
  · exact absurd hpin.symm (hapart j i hj hi hlt m hm n hn)

lemma wellFormed_iff (netlist : Netlist) :
    WellFormed netlist ↔ PairsWellFormed netlist ∧ TextsApart netlist := by
  constructor
  · intro h
    have hapart := pairwise_of_onOne h.names h.onOne
    have hopen : netlist.noConnects.Pairwise fun n m => pinOf n ≠ pinOf m :=
      List.pairwise_map.mp h.openOnce
    refine ⟨⟨h.referenced, h.references, h.named, h.names, h.pins, ?_, h.openPins, ?_, ?_⟩,
      ?_, ?_, ?_⟩
    · exact hapart.imp fun hne n hn m hm heq => hne n hn m hm (pinOf_congr heq)
    · exact List.pairwise_map.mpr (hopen.imp fun hne heq => hne (pinOf_congr heq))
    · exact fun n hn net hnet m hm heq => h.unconnected n hn net hnet m hm (pinOf_congr heq)
    · exact hapart.imp fun hne n hn m hm heq => absurd heq (hne n hn m hm)
    · exact hopen.imp fun hne heq => absurd heq hne
    · exact fun n hn net hnet m hm heq => absurd heq (h.unconnected n hn net hnet m hm)
  · rintro ⟨h, ht⟩
    have hopen : netlist.noConnects.Pairwise fun n m => pairOf n ≠ pairOf m :=
      List.pairwise_map.mp h.openOnce
    refine ⟨h.referenced, h.references, h.named, h.names, h.pins, ?_, h.openPins, ?_, ?_⟩
    · refine onOne_of_pairwise ((h.onOne.and ht.nets).imp fun hboth n hn m hm heq => ?_)
      exact hboth.1 n hn m hm (hboth.2 n hn m hm heq)
    · exact List.pairwise_map.mpr ((hopen.and ht.noConnects).imp
        fun hboth heq => hboth.1 (hboth.2 heq))
    · exact fun n hn net hnet m hm heq =>
        h.unconnected n hn net hnet m hm (ht.mixed n hn net hnet m hm heq)

/-- **`validateNetlist` accepts exactly the well-formed netlists** where a well-formed netlist has
no two pins with one text that it has to keep apart. -/
theorem accepts_exactly_iff (netlist : Netlist) :
    (hasErrors (validateNetlist netlist) = false ↔ PairsWellFormed netlist) ↔
      (PairsWellFormed netlist → TextsApart netlist) := by
  rw [accepted_iff_wellFormed, wellFormed_iff]
  exact ⟨fun h hpairs => (h.mpr hpairs).2, fun h => ⟨And.left, fun hpairs => ⟨hpairs, h hpairs⟩⟩⟩

/-- Pin `B:1` of `A` and pin `1` of `A:B`, on two nets. -/
def colons : Netlist where
  components := [⟨"A", "", "R_0402"⟩, ⟨"A:B", "", "R_0402"⟩]
  nets := [⟨"VCC", [⟨"A", "B:1"⟩]⟩, ⟨"GND", [⟨"A:B", "1"⟩]⟩]

theorem colons_rejected :
    PairsWellFormed colons ∧ hasErrors (validateNetlist colons) = true := by
  refine ⟨⟨?_, ?_, ?_, ?_, ?_, ?_, ?_, ?_, ?_⟩, ?_⟩
  all_goals decide +kernel

end FabPcb.NetlistExact
