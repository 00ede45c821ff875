import FabPcb.FootprintZones
import FabPcb.Runs
import FabPcb.SceneContexts

/-!
The cache of contexts over whole runs, seen from what is drawn.

A context that is shared draws every item of its key as a context of its own would, since what is
drawn is relative to the anchor. What a context cannot hold is not shared: it is in the object of
the item for which the context was drawn.
-/

namespace FabPcb.SceneCache

open OrderedMap RenderShapes RenderScene SceneDrawings
open SceneContexts
open FootprintZones (quarterMath)

variable {δ : Type} {opts : SceneOptions δ} {live : List (ItemObject δ)} {scene : Scene δ}
  {meaning : String → List Primitive} {item : RenderItem}

/-! ### The objects of a scene -/

def liveObjects (scene : Scene δ) : List (ItemObject δ) := scene.entries.values.flatMap (·.objs)

section Entries

variable {κ ν : Type} [DecidableEq κ]

lemma entries_perm {l : List (κ × ν)} (hnd : (l.map Prod.fst).Nodup) {e : κ × ν} (he : e ∈ l) :
    l.Perm (e :: l.filter (·.1 ≠ e.1)) := by
  induction l with
  | nil => cases he
  | cons f l ih =>
    rw [List.map_cons, List.nodup_cons] at hnd
    rcases List.mem_cons.mp he with rfl | he
    · have hrest : l.filter (·.1 ≠ e.1) = l := List.filter_eq_self.mpr fun f hf => by
        refine decide_eq_true fun heq => hnd.1 ?_
        rw [← heq]
        exact List.mem_map_of_mem hf
      rw [List.filter_cons_of_neg (by simp), hrest]
    · have hne : f.1 ≠ e.1 := fun heq => hnd.1 (by rw [heq]; exact List.mem_map_of_mem he)
      rw [List.filter_cons_of_pos (by simpa using hne)]
      exact (List.Perm.cons f (ih hnd.2 he)).trans (List.Perm.swap _ _ _)

lemma values_perm {m : OMap κ ν} {k : κ} {v : ν} (h : m.get? k = some v) :
    m.values.Perm (v :: (m.delete k).values) := by
  have hperm := entries_perm m.nodup (OMap.get?_eq_some_iff.mp h)
  exact hperm.map Prod.snd

lemma values_set_new {m : OMap κ ν} {k : κ} (h : m.get? k = none) (v : ν) :
    (m.set k v).values = m.values ++ [v] := by
  have hmem : k ∉ m.entries.map Prod.fst := by
    intro hk
    obtain ⟨w, hw⟩ := OMap.mem_keys_iff.mp hk
    rw [h] at hw
    cases hw
  have hset : (m.set k v).entries = m.entries ++ [(k, v)] := if_neg hmem
  rw [OMap.values, hset, List.map_append]
  rfl

end Entries

lemma entries_destroyObject (scene : Scene δ) (o : ItemObject δ) :
    (destroyObject scene o).entries = scene.entries := by
  have hrelease : (releaseContext scene o.cacheKey).entries = scene.entries := by
    rw [releaseContext]
    cases o.cacheKey.bind fun k => (scene.contextCache.get? k).map fun c => (k, c) with
    | none => rfl
    | some e =>
      simp only
      split_ifs <;> rfl
  rw [destroyObject, foldl_destroyContext]
  exact hrelease

lemma sound_destroyed {objs : List (ItemObject δ)} (h : Sound opts meaning scene (objs ++ live)) :
    Sound opts meaning (objs.foldl destroyObject scene) live ∧
      (objs.foldl destroyObject scene).entries = scene.entries := by
  induction objs generalizing scene with
  | nil => exact ⟨h, rfl⟩
  | cons o objs ih =>
    have hnext : Sound opts meaning (destroyObject scene o) (objs ++ live) :=
      ⟨destroyObject_counted h.counted, destroyObject_painted h.counted h.painted⟩
    obtain ⟨hsound, hentries⟩ := ih hnext
    exact ⟨hsound, hentries.trans (entries_destroyObject scene o)⟩

/-- What is left of a scene when an owner goes. -/
lemma sound_removeOwner (h : Sound opts meaning scene (liveObjects scene)) (owner : String) :
    Sound opts meaning (removeOwner scene owner) (liveObjects (removeOwner scene owner)) ∧
      (removeOwner scene owner).entries = scene.entries.delete owner := by
  rw [removeOwner]
  cases he : scene.entries.get? owner with
  | none =>
    refine ⟨h, OMap.ext ?_⟩
    refine (List.filter_eq_self.mpr fun e hmem => decide_eq_true ?_).symm
    rintro rfl
    rw [OMap.get?_eq_some_iff.mpr hmem] at he
    cases he
  | some e =>
    have hperm : (liveObjects scene).Perm
        (e.objs ++ (scene.entries.delete owner).values.flatMap (·.objs)) :=
      (values_perm he).flatMap_right _
    have hforget : Sound opts meaning { scene with byId := e.items.foldl forget scene.byId }
        (e.objs ++ (scene.entries.delete owner).values.flatMap (·.objs)) :=
      ⟨counted_perm h.counted hperm, painted_perm h.painted hperm⟩
    obtain ⟨hsound, hentries⟩ := sound_destroyed hforget
    simp only [liveObjects, hentries]
    exact ⟨⟨hsound.counted, hsound.painted⟩, trivial⟩

/-! ### Calls -/

inductive Call where
  | apply (diff : SceneDiff)
  | clear

def step (opts : SceneOptions δ) (scene : Scene δ) : Call → Option (Scene δ)
  | .apply diff => some (applyDiff opts scene diff)
  | .clear => some (clear scene)

/-- A context for the key of an item is there. -/
def isHit (scene : Scene δ) (item : RenderItem) : Bool :=
  (keyOf item).any scene.contextCache.has

/-- Of the items that are built, those that find a context for their key. -/
def hits (opts : SceneOptions δ) : Scene δ → List RenderItem → List RenderItem
  | _, [] => []
  | scene, item :: items =>
    let scene := { scene with byId := scene.byId.set item.id item }
    if item.prims = [] then hits opts scene items
    else
      (if isHit scene item then [item] else []) ++ hits opts (build opts scene item).1 items

def hitsOfUpserts (opts : SceneOptions δ) : Scene δ → List (String × List RenderItem) →
    List RenderItem
  | _, [] => []
  | scene, u :: us =>
    hits opts (removeOwner scene u.1) (u.2.map (ownedBy u.1)) ++
      hitsOfUpserts opts (upsertOwner opts scene u) us

def hitsOf (opts : SceneOptions δ) (scene : Scene δ) : Call → List RenderItem
  | .apply diff => hitsOfUpserts opts (diff.remove.foldl removeOwner scene) diff.upsert
  | .clear => []

/-- Each object has what a context cannot hold. -/
def Full (opts : SceneOptions δ) (live : List (ItemObject δ)) : Prop :=
  ∀ o ∈ live, o.children = (drawn opts o.item).children

/-- A scene whose cache nobody sees. -/
structure Good (opts : SceneOptions δ) (meaning : String → List Primitive) (scene : Scene δ) :
    Prop where
  sound : Sound opts meaning scene (liveObjects scene)
  full : Full opts (liveObjects scene)

lemma build_item (scene : Scene δ) (item : RenderItem) : (build opts scene item).2.item = item := by
  rw [build]
  cases keyOf item with
  | none => rfl
  | some k =>
    simp only [buildShared]
    cases scene.contextCache.get? k <;> rfl

lemma build_entries (scene : Scene δ) (item : RenderItem) :
    (build opts scene item).1.entries = scene.entries := by
  rw [build]
  cases keyOf item with
  | none => rfl
  | some k =>
    simp only [buildShared]
    cases scene.contextCache.get? k <;> rfl

/-- **An object is complete** exactly if its item finds no context, or puts nothing into it. -/
lemma build_children_iff : (build opts scene item).2.children = (drawn opts item).children ↔
    (isHit scene item = true → PlacesNothing opts item) := by
  rw [build, isHit]
  cases keyOf item with
  | none => exact iff_of_true rfl fun h => absurd h Bool.false_ne_true
  | some k =>
    simp only [buildShared, Option.any_some, OMap.has]
    cases scene.contextCache.get? k with
    | none => exact iff_of_true rfl fun h => absurd h Bool.false_ne_true
    | some c =>
      rw [← children_nil_iff, eq_comm]
      exact ⟨fun h _ => h, fun h => h rfl⟩

lemma sound_buildItems {items : List RenderItem} (h : Sound opts meaning scene live)
    (hitems : ∀ i ∈ items, Stands meaning i) :
    Sound opts meaning (buildItems opts scene items).1
        ((buildItems opts scene items).2 ++ live) ∧
      (buildItems opts scene items).1.entries = scene.entries := by
  induction items generalizing scene live with
  | nil => exact ⟨h, rfl⟩
  | cons item items ih =>
    obtain ⟨hitem, hitems⟩ := List.forall_mem_cons.mp hitems
    have hnamed : Sound opts meaning { scene with byId := scene.byId.set item.id item } live :=
      ⟨h.counted, h.painted⟩
    rw [buildItems]
    split_ifs
    · exact ih hnamed hitems
    · have hbuilt := sound_build hnamed hitem
      obtain ⟨hsound, hentries⟩ := ih hbuilt hitems
      refine ⟨⟨counted_perm hsound.counted ?_, painted_perm hsound.painted ?_⟩,
        hentries.trans (build_entries _ _)⟩ <;> exact List.perm_middle

lemma full_buildItems {items : List RenderItem}
    (h : ∀ i ∈ hits opts scene items, PlacesNothing opts i) :
    Full opts (buildItems opts scene items).2 := by
  induction items generalizing scene with
  | nil => exact fun o ho => (nomatch ho)
  | cons item items ih =>
    rw [hits] at h
    rw [buildItems]
    split_ifs at h ⊢ with hprims hhit
    · exact ih h
    · rw [List.singleton_append, List.forall_mem_cons] at h
      refine List.forall_mem_cons.mpr ⟨?_, ih h.2⟩
      rw [build_item, build_children_iff.mpr fun _ => h.1]
    · refine List.forall_mem_cons.mpr ⟨?_, ih h⟩
      rw [build_item, build_children_iff.mpr fun hyes => absurd hyes hhit]

lemma good_removeOwner (h : Good opts meaning scene) (owner : String) :
    Good opts meaning (removeOwner scene owner) := by
  obtain ⟨hsound, hentries⟩ := sound_removeOwner h.sound owner
  refine ⟨hsound, fun o ho => h.full o ?_⟩
  rw [liveObjects, hentries] at ho
  obtain ⟨e, he, ho⟩ := List.mem_flatMap.mp ho
  refine List.mem_flatMap.mpr ⟨e, ?_, ho⟩
  obtain ⟨k, hk⟩ := OMap.mem_values_iff.mp he
  rw [OMap.get?_delete] at hk
  split_ifs at hk
  exact OMap.mem_values_iff.mpr ⟨k, hk⟩

lemma good_removeOwners (owners : List String) (h : Good opts meaning scene) :
    Good opts meaning (owners.foldl removeOwner scene) := by
  induction owners generalizing scene with
  | nil => exact h
  | cons owner owners ih => exact ih (good_removeOwner h owner)

lemma good_upsertOwner {u : String × List RenderItem} (h : Good opts meaning scene)
    (hitems : ∀ i ∈ u.2, Stands meaning i)
    (hhits : ∀ i ∈ hits opts (removeOwner scene u.1) (u.2.map (ownedBy u.1)),
      PlacesNothing opts i) : Good opts meaning (upsertOwner opts scene u) := by
  have hremoved := good_removeOwner h u.1
  rw [upsertOwner]
  split_ifs
  · exact hremoved
  · have hstand : ∀ i ∈ u.2.map (ownedBy u.1), Stands meaning i :=
      List.forall_mem_map.mpr fun i hi => hitems i hi
    obtain ⟨hsound, hentries⟩ := sound_buildItems hremoved.sound hstand
    have hnew : (removeOwner scene u.1).entries.get? u.1 = none := by
      rw [(sound_removeOwner h.sound u.1).2, OMap.get?_delete, if_pos rfl]
    have hlive : (((buildItems opts (removeOwner scene u.1)
        (u.2.map (ownedBy u.1))).1.entries.set u.1
          ⟨(buildItems opts (removeOwner scene u.1) (u.2.map (ownedBy u.1))).2,
            u.2.map (ownedBy u.1)⟩).values.flatMap (·.objs)) =
        liveObjects (removeOwner scene u.1) ++
          (buildItems opts (removeOwner scene u.1) (u.2.map (ownedBy u.1))).2 := by
      rw [hentries, values_set_new hnew, List.flatMap_append, List.flatMap_singleton]
      rfl
    refine ⟨⟨?_, ?_⟩, ?_⟩ <;> rw [liveObjects, hlive]
    · exact counted_perm hsound.counted List.perm_append_comm
    · exact painted_perm hsound.painted List.perm_append_comm
    · exact List.forall_mem_append.mpr ⟨hremoved.full, full_buildItems hhits⟩

lemma good_upserts (us : List (String × List RenderItem)) (h : Good opts meaning scene)
    (hitems : ∀ u ∈ us, ∀ i ∈ u.2, Stands meaning i)
    (hhits : ∀ i ∈ hitsOfUpserts opts scene us, PlacesNothing opts i) :
    Good opts meaning (us.foldl (upsertOwner opts) scene) := by
  induction us generalizing scene with
  | nil => exact h
  | cons u us ih =>
    rw [hitsOfUpserts, List.forall_mem_append] at hhits
    obtain ⟨hu, hus⟩ := List.forall_mem_cons.mp hitems
    exact ih (good_upsertOwner h hu hhits.1) hus hhits.2

/-- The items that a call brings. -/
def itemsOf : Call → List RenderItem
  | .apply diff => diff.upsert.flatMap (·.2)
  | .clear => []

/-- **A call keeps the scene good** if what it builds on a context puts nothing into its object. -/
lemma good_step {c : Call} {scene' : Scene δ} (h : Good opts meaning scene)
    (hitems : ∀ i ∈ itemsOf c, Stands meaning i)
    (hhits : ∀ i ∈ hitsOf opts scene c, PlacesNothing opts i)
    (hstep : step opts scene c = some scene') : Good opts meaning scene' := by
  cases c with
  | apply diff =>
    cases hstep
    exact good_upserts _ (good_removeOwners _ h)
      (fun u hu i hi => hitems i (List.mem_flatMap.mpr ⟨u, hu, hi⟩)) hhits
  | clear =>
    cases hstep
    exact good_removeOwners _ h

lemma good_empty : Good opts meaning ({} : Scene δ) := by
  have hlive : liveObjects ({} : Scene δ) = [] := rfl
  have hcache : ∀ k e, ({} : Scene δ).contextCache.get? k ≠ some e := by
    intro k e hk
    cases hk
  refine ⟨⟨?_, ?_⟩, ?_⟩ <;> rw [hlive]
  · exact
      { refs := fun k ctx refs hk => absurd hk (hcache k _)
        shared := fun o ho => absurd ho List.not_mem_nil
        own := fun o ho => absurd ho List.not_mem_nil
        keys := fun k k' ctx refs refs' hk => absurd hk (hcache k _)
        apart := fun k ctx refs hk => absurd hk (hcache k _)
        disjoint := List.nodup_nil
        cached := fun k ctx refs hk => absurd hk (hcache k _)
        owned := fun o ho => absurd ho List.not_mem_nil }
  · exact
      { shown := fun o ho => absurd ho List.not_mem_nil
        kept := fun k ctx refs hk => absurd hk (hcache k _) }
  · exact fun o ho => absurd ho List.not_mem_nil

/-! ### Runs -/

/-- Each live object shows what its item would be drawn as on its own, the count of each cached
context is that of the live objects of its key, and a context that a live object uses is not
destroyed. -/
structure Transparent (opts : SceneOptions δ) (scene : Scene δ) : Prop where
  shows : ∀ o ∈ liveObjects scene,
    instructionsOf scene.contexts o = (drawn opts o.item).instructions ∧
      o.children = (drawn opts o.item).children
  refs : ∀ k ctx refs, scene.contextCache.get? k = some (ctx, refs) →
    refs = carriers (liveObjects scene) k
  alive : ∀ o ∈ liveObjects scene, ∀ ctx, o.graphics = some ctx → Intact scene.contexts ctx

lemma transparent_of_good (h : Good opts meaning scene) : Transparent opts scene where
  shows o ho := ⟨h.sound.painted.shown o ho, h.full o ho⟩
  refs k ctx refs hk := (h.sound.counted.refs k ctx refs hk).1
  alive _ ho _ hg := live_intact h.sound.counted ho hg

/-- Equal keys stand for equal primitives about the anchors. -/
def KeysStand (items : List RenderItem) : Prop :=
  ∀ i ∈ items, ∀ j ∈ items, ∀ k, keyOf i = some k → keyOf j = some k → relative i = relative j

/-- What a key stands for among some items. -/
def meaningOf (items : List RenderItem) (k : String) : List Primitive :=
  ((items.find? fun i => keyOf i = some k).map relative).getD []

lemma stands_meaningOf {items : List RenderItem} (h : KeysStand items) :
    ∀ i ∈ items, Stands (meaningOf items) i := by
  intro i hi k hk
  rw [meaningOf]
  cases hfind : items.find? fun i => keyOf i = some k with
  | none => exact absurd (decide_eq_true hk) (List.find?_eq_none.mp hfind i hi)
  | some j =>
    have hj : keyOf j = some k := by simpa using List.find?_some hfind
    exact h i hi j (List.mem_of_find?_eq_some hfind) k hk hj

/-- What is built on a context puts nothing into its object. -/
def HitsPlaceNothing (opts : SceneOptions δ) (scene : Scene δ) (c : Call) : Prop :=
  ∀ i ∈ hitsOf opts scene c, PlacesNothing opts i

instance (scene : Scene δ) (c : Call) : Decidable (HitsPlaceNothing opts scene c) :=
  inferInstanceAs (Decidable (∀ i ∈ hitsOf opts scene c, PlacesNothing opts i))

lemma good_along {calls : List Call} {scene' : Scene δ} (h : Good opts meaning scene)
    (hitems : ∀ i ∈ calls.flatMap itemsOf, Stands meaning i)
    (hhits : Runs.Along (step opts) (HitsPlaceNothing opts) scene calls)
    (hrun : Runs.run (step opts) scene calls = some scene') : Good opts meaning scene' := by
  induction calls generalizing scene with
  | nil => exact Option.some.inj hrun ▸ h
  | cons c calls ih =>
    rw [List.flatMap_cons, List.forall_mem_append] at hitems
    obtain ⟨next, hnext, hrest⟩ := Runs.run_cons_eq_some.mp hrun
    exact ih (good_step h hitems.1 hhits.1 hnext) hitems.2 (hhits.2 next hnext) hrest

/-- **The cache is not seen.** In a run in which no item that finds a context for its key puts
anything into its object, every scene shows what it would without the cache. -/
theorem transparent_along (opts : SceneOptions δ) (calls : List Call) (scene : Scene δ)
    (hkeys : KeysStand (calls.flatMap itemsOf))
    (hhits : Runs.Along (step opts) (HitsPlaceNothing opts) {} calls)
    (hrun : Runs.run (step opts) {} calls = some scene) : Transparent opts scene :=
  transparent_of_good (good_along good_empty (stands_meaningOf hkeys) hhits hrun)

/-! ### Two of a key -/

section Two

/-- Triangles need no cutting. -/
def plainScene : SceneOptions Unit where
  math := quarterMath
  earcut coords _ := if coords.length = 3 then [1, 2, 0] else []
  meshThreshold := 200
  hasDocument := false
  primitiveBuilder := none

def triangleAt (object : ℕ) (id : String) (x : ℚ) (mesh : Bool) : RenderItem where
  object := object
  id := id
  layer := "BL_F_Cu"
  prims := [.polygon [⟨x, 0⟩, ⟨x + 10, 0⟩, ⟨x, 10⟩] [] true 0 mesh]
  bbox := some (⟨x, 0⟩, ⟨10, 10⟩)
  cacheKey := some "pad"
  anchor := some ⟨x, 0⟩

/-- Pads of two footprints, which are to be meshes or not. -/
def twoPads (mesh : Bool) : Call :=
  .apply { upsert := [("R1", [triangleAt 0 "R1-1" 0 mesh]),
    ("R2", [triangleAt 1 "R2-1" 100 mesh])] }

lemma relative_pads (mesh : Bool) :
    relative (triangleAt 0 "R1-1" 0 mesh) = relative (triangleAt 1 "R2-1" 100 mesh) := by
  have hfirst : anchorOf (triangleAt 0 "R1-1" 0 mesh) = ⟨0, 0⟩ := by
    cases mesh <;> decide +kernel
  have hsecond : anchorOf (triangleAt 1 "R2-1" 100 mesh) = ⟨100, 0⟩ := by
    cases mesh <;> decide +kernel
  rw [relative, relative, hfirst, hsecond]
  simp only [triangleAt, Primitive.shift, shift, List.map_cons, List.map_nil]
  norm_num

lemma keysStand_pads (mesh : Bool) :
    KeysStand [triangleAt 0 "R1-1" 0 mesh, triangleAt 1 "R2-1" 100 mesh] := by
  intro i hi j hj k _ _
  simp only [List.mem_cons, List.not_mem_nil, or_false] at hi hj
  rcases hi with rfl | rfl <;> rcases hj with rfl | rfl
  · rfl
  · exact relative_pads mesh
  · exact (relative_pads mesh).symm
  · rfl

/-- Two pads share a context, and the second outlives the first. -/
theorem transparent_pads : ∃ scene,
    Runs.run (step plainScene) {} [twoPads false, .apply { remove := ["R1"] }] = some scene ∧
      Transparent plainScene scene :=
  ⟨_, rfl, transparent_along plainScene [twoPads false, .apply { remove := ["R1"] }] _
    (keysStand_pads false) (by decide +kernel) rfl⟩

lemma objects_pads : ∀ scene, step plainScene {} (twoPads true) = some scene →
    (liveObjects scene).map (fun o => (o.item.id, o.children.length,
      (drawn plainScene o.item).children.length)) = [("R1-1", 1, 1), ("R2-1", 0, 1)] := by
  intro scene h
  cases h
  decide +kernel

/-- **The second pad is empty.** The mesh is in the object of the first. -/
theorem not_transparent : KeysStand (itemsOf (twoPads true)) ∧
    ∃ scene, Runs.run (step plainScene) {} [twoPads true] = some scene ∧
      (liveObjects scene).map (fun o => (o.item.id, o.children.length,
        (drawn plainScene o.item).children.length)) = [("R1-1", 1, 1), ("R2-1", 0, 1)] ∧
      ¬ Transparent plainScene scene := by
  have hobjects := objects_pads _ rfl
  refine ⟨keysStand_pads true, _, rfl, hobjects, fun h => ?_⟩
  have hlengths : ∀ e ∈ [("R1-1", 1, 1), ("R2-1", 0, 1)], e.2.1 = e.2.2 := by
    rw [← hobjects, List.forall_mem_map]
    exact fun o ho => congrArg List.length (h.shows o ho).2
  exact absurd (hlengths ("R2-1", 0, 1) (by decide)) (by decide)

end Two

end FabPcb.SceneCache
