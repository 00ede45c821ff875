import FabPcb.DsnPadstacks

/-!
What a DSN file names, and when it has what it names.

The library closes over the padstacks and images that are used, the structure over the layers, and
the network over the nets of planes and wiring.
-/

namespace FabPcb.DsnClosure

open OrderedMap SExprText EmitterRoundTrip DsnWriter DsnPins
open DsnClasses DsnPadstacks
open SpecctraData (BoardLayer Numerals RouteTrack RouteVia fractions)

variable {input : RouteInput} {opts : DsnOptions} {nums : Numerals}

/-! ### The library -/

/-- A padstack is defined once, with a shape on a declared layer. -/
def Defined (d : Dsn) (name : Token) : Prop :=
  ∃ s, d.padstacks.filter (·.name = name) = [s] ∧ ∃ shape ∈ s.shapes, shape.layer ∈ d.layers

/-- The layers that are named. -/
def namedLayers (d : Dsn) : List Token :=
  d.padstacks.flatMap (fun s => s.shapes.map (·.layer)) ++ d.wires.map (·.layer) ++
    d.planes.map (·.layer) ++ d.keepouts.map (·.layer)

structure LibraryClosed (d : Dsn) : Prop where
  vias : ∀ name ∈ d.vias, Defined d name
  classes : ∀ c ∈ d.classes, Defined d c.via
  wiring : ∀ v ∈ d.viaUses, Defined d v.padstack
  pins : ∀ i ∈ d.images, Defined d i.padstack
  placement : ∀ c ∈ d.components, ∃ i, d.images.filter (·.name = c.image) = [i]
  layers : ∀ l ∈ namedLayers d, l ∈ d.layers

/-- The condition: a layer is published, and the last pad of every padstack is on one with a name. -/
structure Drawable (input : RouteInput) (opts : DsnOptions) : Prop where
  published : layerIds input opts ≠ []
  drawn : ∀ p ∈ pads input opts, ∀ q,
    ((pads input opts).filter fun r => stackOf input opts r = stackOf input opts p).getLast? = some q →
      ∃ l ∈ q.layers, l ∈ layerIds input opts ∧ (exportedLayer input l).userName ≠ ""

lemma filter_eq_singleton {α β : Type} [DecidableEq β] {f : α → β} {xs : List α}
    (h : (xs.map f).Nodup) {x : α} (hx : x ∈ xs) : xs.filter (fun y => f y = f x) = [x] := by
  refine eq_singleton ((List.Nodup.of_map f h).filter _) ?_ fun y hy => ?_
  · exact List.mem_filter.mpr ⟨hx, decide_eq_true rfl⟩
  · obtain ⟨hmem, heq⟩ := List.mem_filter.mp hy
    exact List.inj_on_of_nodup_map h hmem hx (of_decide_eq_true heq)

lemma stack_of_key {name : String} (h : name ∈ (padStacks input opts).keys) :
    ∃ p ∈ pads input opts, stackOf input opts p = name := by
  obtain ⟨p, hp⟩ := OMap.mem_keys_iff.mp h
  exact ⟨p, of_padStacks hp⟩

lemma size_of_key {name : String} (h : name ∈ (viaNames input opts).keys) :
    ∃ size ∈ viaSizes input opts, viaName input opts size = name := by
  obtain ⟨size, hsize⟩ := OMap.mem_keys_iff.mp h
  rw [get?_viaNames] at hsize
  exact ⟨size, (List.mem_filter.mp (List.mem_of_getLast? hsize)).1, name_of_lastSize hsize⟩

/-- No two padstacks of a file have one name. -/
lemma nodup_padstacks : ((padstackForms input opts).map (·.name)).Nodup := by
  have hnames : (padstackForms input opts).map (·.name) =
      (padStacks input opts).keys.map token ++ (viaNames input opts).keys.map token := by
    rw [padstackForms, List.map_append, List.map_map, List.map_map, OMap.keys, OMap.keys,
      List.map_map, List.map_map]
    rfl
  rw [hnames]
  refine List.nodup_append.mpr ⟨?_, ?_, ?_⟩
  · refine (padStacks input opts).keys_nodup.map_on fun a ha b hb heq => ?_
    obtain ⟨p, -, rfl⟩ := stack_of_key ha
    obtain ⟨q, -, rfl⟩ := stack_of_key hb
    exact token_inj (no_dquote_stack _ _) (no_dquote_stack _ _) heq
  · refine (viaNames input opts).keys_nodup.map_on fun a ha b hb heq => ?_
    obtain ⟨size, -, rfl⟩ := size_of_key ha
    obtain ⟨size', -, rfl⟩ := size_of_key hb
    exact token_inj (no_dquote_via _ _ _) (no_dquote_via _ _ _) heq
  · rintro a ha b hb rfl
    obtain ⟨x, hx, rfl⟩ := List.mem_map.mp ha
    obtain ⟨y, hy, heq⟩ := List.mem_map.mp hb
    obtain ⟨p, -, rfl⟩ := stack_of_key hx
    obtain ⟨size, -, rfl⟩ := size_of_key hy
    exact stack_ne_via heq.symm

lemma declared {l : BoardLayer} (h : l ∈ layerIds input opts) :
    layerToken input l ∈ (writeDsn nums input opts).layers :=
  List.mem_map.mpr ⟨_, List.mem_map_of_mem h, rfl⟩

lemma defined_of_mem (nums : Numerals) {s : Padstack} (h : s ∈ padstackForms input opts) :
    Defined (writeDsn nums input opts) s.name ↔
      ∃ shape ∈ s.shapes, shape.layer ∈ (writeDsn nums input opts).layers := by
  have hone : (writeDsn nums input opts).padstacks.filter (·.name = s.name) = [s] :=
    filter_eq_singleton nodup_padstacks h
  constructor
  · rintro ⟨t, ht, hshape⟩
    cases hone.symm.trans ht
    exact hshape
  · exact fun hshape => ⟨s, hone, hshape⟩

lemma defined_pad_iff {p q : RoutePad}
    (hq : (padStacks input opts).get? (stackOf input opts p) = some q) :
    Defined (writeDsn nums input opts) (token (stackOf input opts p)) ↔
      ∃ l ∈ q.layers, l ∈ layerIds input opts ∧ (exportedLayer input l).userName ≠ "" := by
  obtain ⟨hs, hname⟩ := padstack_of_pad.mpr ⟨q, hq, rfl⟩
  have hdefined := defined_of_mem nums hs
  rw [hdefined]
  constructor
  · rintro ⟨shape, hshape, -⟩
    obtain ⟨l, hl, hlayer, hne, -⟩ := mem_padShapes.mp hshape
    exact ⟨l, hl, hlayer, hne⟩
  · rintro ⟨l, hl, hlayer, hne⟩
    exact ⟨_, mem_padShapes.mpr ⟨l, hl, hlayer, hne, rfl⟩, declared hlayer⟩

lemma defined_via_iff {size : ℚ × ℚ} (h : size ∈ viaSizes input opts) :
    Defined (writeDsn nums input opts) (token (viaName input opts size)) ↔
      layerIds input opts ≠ [] := by
  obtain ⟨last, hlast⟩ := exists_lastSize h
  obtain ⟨hs, hname⟩ := padstack_of_via.mpr ⟨last, hlast, rfl⟩
  have hdefined := defined_of_mem nums hs
  rw [hname] at hdefined
  rw [hdefined]
  constructor
  · rintro ⟨shape, hshape, -⟩ hnil
    rw [viaPadstack, layers, hnil] at hshape
    cases hshape
  · intro hne
    obtain ⟨l, hl⟩ := List.exists_mem_of_ne_nil _ hne
    exact ⟨_, List.mem_map.mpr ⟨_, List.mem_map_of_mem hl, rfl⟩, declared hl⟩

lemma image_of_entry {e : String × RoutePad} (he : e ∈ (images input opts nums).entries) :
    e.2 ∈ pads input opts ∧ imageOf input opts nums e.2 = e.1 := by
  have hfind := mem_images.mp he
  have himage := List.find?_some hfind
  exact ⟨List.mem_of_find?_eq_some hfind, of_decide_eq_true himage⟩

lemma exists_image (nums : Numerals) {p : RoutePad} (hp : p ∈ pads input opts) :
    ∃ q, (imageOf input opts nums p, q) ∈ (images input opts nums).entries := by
  obtain ⟨q, hq⟩ : ∃ q, (pads input opts).find? (fun q => imageOf input opts nums q =
      imageOf input opts nums p) = some q :=
    Option.isSome_iff_exists.mp (List.find?_isSome.mpr ⟨p, hp, decide_eq_true rfl⟩)
  exact ⟨q, mem_images.mpr hq⟩

lemma nodup_images : ((writeDsn nums input opts).images.map (·.name)).Nodup := by
  have hnames : (writeDsn nums input opts).images.map (·.name) =
      (images input opts nums).keys.map token := by
    rw [OMap.keys, List.map_map]
    exact List.map_map
  rw [hnames]
  refine (images input opts nums).keys_nodup.map_on fun a ha b hb heq => ?_
  obtain ⟨e, he, rfl⟩ := List.mem_map.mp ha
  obtain ⟨e', he', rfl⟩ := List.mem_map.mp hb
  rw [← (image_of_entry he).2, ← (image_of_entry he').2] at heq ⊢
  exact token_inj (no_dquote_image _) (no_dquote_image _) heq

lemma placed {p : RoutePad} (hp : p ∈ pads input opts) :
    ∃ i, (writeDsn nums input opts).images.filter
      (·.name = token (imageOf input opts nums p)) = [i] := by
  obtain ⟨q, hq⟩ := exists_image nums hp
  have hmem : (⟨token (imageOf input opts nums p), token (stackOf input opts q),
      if q.rotation = 0 then none else some (rotationOf q)⟩ : Image) ∈
        (writeDsn nums input opts).images := List.mem_map.mpr ⟨_, hq, rfl⟩
  exact ⟨_, filter_eq_singleton nodup_images hmem⟩

lemma declared_of_lname {l : BoardLayer} {name : String} (h : lname input opts l = some name) :
    token name ∈ (writeDsn nums input opts).layers := by
  obtain ⟨hlayer, rfl, -⟩ := lname_eq_some.mp h
  exact declared hlayer

/-- Every layer that a file names is declared. -/
lemma layers_declared : ∀ l ∈ namedLayers (writeDsn nums input opts),
    l ∈ (writeDsn nums input opts).layers := by
  intro l hl
  simp only [namedLayers, List.mem_append] at hl
  rcases hl with ((hl | hl) | hl) | hl
  · obtain ⟨s, hs, hl⟩ := List.mem_flatMap.mp hl
    obtain ⟨shape, hshape, rfl⟩ := List.mem_map.mp hl
    rcases List.mem_append.mp hs with hs | hs
    · obtain ⟨e, -, rfl⟩ := List.mem_map.mp hs
      obtain ⟨layer, -, hlayer, -, rfl⟩ := mem_padShapes.mp hshape
      exact declared hlayer
    · obtain ⟨e, -, rfl⟩ := List.mem_map.mp hs
      obtain ⟨layer, hlayer, rfl⟩ := List.mem_map.mp hshape
      exact List.mem_map_of_mem hlayer
  · obtain ⟨w, hw, rfl⟩ := List.mem_map.mp hl
    obtain ⟨t, -, ht⟩ := List.mem_filterMap.mp hw
    obtain ⟨name, hname, rfl⟩ := Option.map_eq_some_iff.mp ht
    exact declared_of_lname hname
  · obtain ⟨plane, hplane, rfl⟩ := List.mem_map.mp hl
    obtain ⟨z, -, hplane⟩ := List.mem_flatMap.mp hplane
    obtain ⟨name, hname, rfl⟩ := List.mem_map.mp hplane
    obtain ⟨layer, -, hlname⟩ := List.mem_filterMap.mp hname
    exact declared_of_lname hlname
  · obtain ⟨k, hk, rfl⟩ := List.mem_map.mp hl
    rcases List.mem_append.mp hk with hk | hk
    · obtain ⟨area, -, hk⟩ := List.mem_flatMap.mp hk
      obtain ⟨name, hname, rfl⟩ := List.mem_map.mp hk
      obtain ⟨layer, -, hlname⟩ := List.mem_filterMap.mp hname
      exact declared_of_lname hlname
    · obtain ⟨g, -, hk⟩ := List.mem_flatMap.mp hk
      obtain ⟨name, hname, rfl⟩ := List.mem_map.mp hk
      obtain ⟨layer, -, hlname⟩ := List.mem_filterMap.mp hname
      exact declared_of_lname hlname

/-- A layer whose name is empty. -/
def unnamed : RouteInput := { thermal with copperLayers := [⟨3, "BL_F_Cu", ""⟩] }

/-- Planes and wiring are of declared nets, a declared net is in one class, and the pins are those of
the pads that are to be routed. -/
structure NetworkClosed (input : RouteInput) (opts : DsnOptions) (d : Dsn) : Prop where
  planes : ∀ p ∈ d.planes, ∃ n ∈ d.nets, n.name = p.net
  wires : ∀ w ∈ d.wires, ∀ net, w.net = some net → ∃ n ∈ d.nets, n.name = net
  vias : ∀ v ∈ d.viaUses, ∀ net, v.net = some net → ∃ n ∈ d.nets, n.name = net
  classes : ∀ n ∈ d.nets, ∃ c, d.classes.filter (fun c => n.name ∈ c.nets) = [c]
  pins : (d.nets.flatMap (·.pins)).Perm
    ((routablePads input opts).map fun p => token (pinOf input opts p))

/-- The nets of routable pads and of wiring. -/
def Named (input : RouteInput) (opts : DsnOptions) (net : String) : Prop :=
  (∃ p ∈ routablePads input opts, p.net = net) ∨
    net ≠ "" ∧ ((∃ t ∈ input.tracks, t.net = net) ∨ ∃ v ∈ input.vias, v.net = net)

/-- The condition: the net of a zone that gives a plane is written like a named one, and nets that are
written alike have one class. -/
structure NetsKnown (input : RouteInput) (opts : DsnOptions) : Prop where
  zones : ∀ z ∈ input.zones, z.net ≠ "" →
    (∃ l ∈ z.layers, l ∈ layerIds input opts ∧ (exportedLayer input l).userName ≠ "") →
      ∃ net, Named input opts net ∧ token net = token z.net
  spelled : ∀ m n, Named input opts m → Named input opts n → token m = token n →
    (rulesForNet input m).netClass = (rulesForNet input n).netClass

lemma named_iff {net : String} : Named input opts net ↔ net ∈ (pinsByNet input opts).keys := by
  rw [mem_netKeys, List.mem_append, List.mem_map, List.mem_map, List.mem_map]
  rfl

lemma mem_nets_iff {net : Token} : (∃ n ∈ (writeDsn nums input opts).nets, n.name = net) ↔
    ∃ m, Named input opts m ∧ token m = net := by
  simp only [named_iff]
  constructor
  · rintro ⟨n, hn, rfl⟩
    obtain ⟨e, he, rfl⟩ := List.mem_map.mp hn
    exact ⟨e.1, List.mem_map_of_mem he, rfl⟩
  · rintro ⟨m, hm, rfl⟩
    obtain ⟨e, he, rfl⟩ := List.mem_map.mp hm
    exact ⟨_, List.mem_map_of_mem he, rfl⟩

lemma netToken_eq_some {net : String} {t : Token} (h : netToken net = some t) :
    net ≠ "" ∧ token net = t := by
  unfold netToken at h
  split at h
  · cases h
  next hne => exact ⟨hne, Option.some.inj h⟩

/-- What has one of different keys is found under exactly one of them. -/
lemma perm_flatMap_filter {α κ : Type} [DecidableEq κ] {key : α → κ} {ks : List κ} {xs : List α}
    (hks : ks.Nodup) (h : ∀ x ∈ xs, key x ∈ ks) :
    (ks.flatMap fun k => xs.filter fun x => key x = k).Perm xs := by
  induction ks generalizing xs with
  | nil =>
    rw [List.eq_nil_iff_forall_not_mem.mpr fun x hx => List.not_mem_nil (h x hx)]
    exact List.Perm.refl _
  | cons k ks ih =>
    obtain ⟨hk, hks⟩ := List.nodup_cons.mp hks
    have hother : ∀ k' ∈ ks, xs.filter (fun x => key x = k') =
        (xs.filter fun x => !decide (key x = k)).filter fun x => key x = k' := by
      intro k' hk'
      rw [List.filter_filter]
      refine List.filter_congr fun x _ => ?_
      by_cases hx : key x = k'
      · have hne : key x ≠ k := fun heq => hk (heq ▸ hx ▸ hk')
        simp [hx, hx ▸ hne]
      · simp [hx]
    have hrest : (ks.flatMap fun k' => xs.filter fun x => key x = k').Perm
        (xs.filter fun x => !decide (key x = k)) := by
      rw [List.flatMap_congr hother]
      refine ih hks fun x hx => ?_
      obtain ⟨hmem, hne⟩ := List.mem_filter.mp hx
      rcases List.mem_cons.mp (h x hmem) with heq | hmem
      · simp [heq] at hne
      · exact hmem
    exact (hrest.append_left _).trans (List.filter_append_perm _ _)

lemma perm_pins : ((writeDsn nums input opts).nets.flatMap (·.pins)).Perm
    ((routablePads input opts).map fun p => token (pinOf input opts p)) := by
  have hpins : (writeDsn nums input opts).nets.flatMap (·.pins) =
      ((pinsByNet input opts).keys.flatMap fun net =>
        (routablePads input opts).filter fun p => p.net = net).map
          fun p => token (pinOf input opts p) := by
    change ((pinsByNet input opts).entries.map _).flatMap _ = (List.flatMap _ (List.map _ _)).map _
    rw [List.flatMap_map, List.flatMap_map, List.map_flatMap]
    refine List.flatMap_congr fun e he => ?_
    rw [pins_eq he, List.map_map]
    rfl
  rw [hpins]
  refine (perm_flatMap_filter (pinsByNet input opts).keys_nodup fun p hp => ?_).map _
  exact mem_netKeys.mpr (Or.inl (List.mem_map_of_mem hp))

lemma one_class_iff {net : Token} :
    (∃ c, (writeDsn nums input opts).classes.filter (fun c => net ∈ c.nets) = [c]) ↔
      ∃ e, (byClass input opts).entries.filter (fun e => net ∈ (classOf input opts e).nets) =
        [e] := by
  rw [filter_classes]
  constructor
  · rintro ⟨c, hc⟩
    obtain ⟨e, he, -⟩ := List.map_eq_singleton_iff.mp hc
    exact ⟨e, he⟩
  · rintro ⟨e, he⟩
    exact ⟨_, by rw [he, List.map_singleton]⟩

/-- Nets are in one class each exactly when those that are written alike have the same class. -/
lemma one_class_each_iff : (∀ n ∈ (writeDsn nums input opts).nets,
    ∃ c, (writeDsn nums input opts).classes.filter (fun c => n.name ∈ c.nets) = [c]) ↔
      ∀ m n, Named input opts m → Named input opts n → token m = token n →
        (rulesForNet input m).netClass = (rulesForNet input n).netClass := by
  constructor
  · intro h m n hm hn heq
    obtain ⟨form, hform, hname⟩ : ∃ n ∈ (writeDsn nums input opts).nets, n.name = token m :=
      mem_nets_iff.mpr ⟨m, hm, rfl⟩
    obtain ⟨e, he⟩ := one_class_iff.mp (h form hform)
    rw [hname] at he
    obtain ⟨em, hem, hclass, hlisted⟩ := exists_group (named_iff.mp hm)
    obtain ⟨en, hen, hclass', hlisted'⟩ := exists_group (named_iff.mp hn)
    have hsame : ∀ g ∈ (byClass input opts).entries,
        token m ∈ (classOf input opts g).nets → g = e := by
      intro g hg hnet
      refine List.mem_singleton.mp ?_
      rw [← he]
      exact List.mem_filter.mpr ⟨hg, decide_eq_true hnet⟩
    rw [← hclass, ← hclass', hsame em hem hlisted, hsame en hen (heq ▸ hlisted')]
  · intro h form hform
    obtain ⟨m, hm, hname⟩ := mem_nets_iff.mp ⟨form, hform, rfl⟩
    rw [← hname]
    obtain ⟨e, he, hclass, hlisted⟩ := exists_group (named_iff.mp hm)
    refine one_class_iff.mpr ⟨e, eq_singleton ?_ ?_ fun g hg => ?_⟩
    · exact (List.Nodup.of_map Prod.fst (byClass input opts).nodup).filter _
    · exact List.mem_filter.mpr ⟨he, decide_eq_true hlisted⟩
    · obtain ⟨hmem, hnet⟩ := List.mem_filter.mp hg
      obtain ⟨n, hn, htoken, hgroup⟩ := (mem_nets hmem).mp (of_decide_eq_true hnet)
      refine group_unique hmem he ?_
      rw [← hgroup, hclass, h n m (named_iff.mpr hn) hm htoken]

lemma planes_known_iff : (∀ p ∈ (writeDsn nums input opts).planes,
    ∃ n ∈ (writeDsn nums input opts).nets, n.name = p.net) ↔
      ∀ z ∈ input.zones, z.net ≠ "" →
        (∃ l ∈ z.layers, l ∈ layerIds input opts ∧ (exportedLayer input l).userName ≠ "") →
          ∃ net, Named input opts net ∧ token net = token z.net := by
  constructor
  · rintro h z hz hne ⟨l, hl, hlayer, hname⟩
    refine mem_nets_iff.mp (h ⟨token z.net, layerToken input l, z.polygon.map pt⟩ ?_)
    refine List.mem_flatMap.mpr ⟨z, List.mem_filter.mpr ⟨hz, decide_eq_true hne⟩, ?_⟩
    exact List.mem_map.mpr
      ⟨_, List.mem_filterMap.mpr ⟨l, hl, lname_eq_some.mpr ⟨hlayer, rfl, hname⟩⟩, rfl⟩
  · intro h p hp
    obtain ⟨z, hz, hp⟩ := List.mem_flatMap.mp hp
    obtain ⟨hmem, hne⟩ := List.mem_filter.mp hz
    obtain ⟨name, hname, rfl⟩ := List.mem_map.mp hp
    obtain ⟨l, hl, hlname⟩ := List.mem_filterMap.mp hname
    obtain ⟨hlayer, hexported, hnonempty⟩ := lname_eq_some.mp hlname
    exact mem_nets_iff.mpr
      (h z hmem (of_decide_eq_true hne) ⟨l, hl, hlayer, by rw [hexported]; exact hnonempty⟩)

/-- A zone of a net that is not to be routed and has no wiring. -/
def poured : RouteInput := { thermal with
  zones := [⟨"GND", [3], [⟨0, 0⟩, ⟨1000000, 0⟩, ⟨1000000, 1000000⟩]⟩] }

end FabPcb.DsnClosure
