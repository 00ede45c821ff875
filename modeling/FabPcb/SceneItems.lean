import FabPcb.SceneCache
import FabPcb.Writes

/-!
The items of a scene by their ids, and the owners that have them.

Two owners may have items of one id, and then the one built last is the item of the id. An item
that is removed is forgotten only if it still is the item of its id, as an object. So an owner that
shares no id with what is built after it keeps its items, whatever was built before.
-/

namespace FabPcb.SceneItems

open OrderedMap Writes RenderScene

variable {δ : Type} {opts : SceneOptions δ} {scene : Scene δ}

/-- The items that an owner has. -/
def ownerItems (scene : Scene δ) (owner : String) : List RenderItem :=
  ((scene.entries.get? owner).map (·.items)).getD []

/-- The last item of an id. -/
def lastOf (items : List RenderItem) (id : String) : Option RenderItem :=
  lastWrite (items.map fun i => (i.id, i)) id

/-- An item, whichever object it is. -/
def blank (item : RenderItem) : RenderItem := { item with object := 0 }

/-- The items of a scene, and of each its id, its owner and its primitives. -/
def seen (scene : Scene δ) : List (String × Option String × List Primitive) :=
  scene.byId.values.map fun i => (i.id, i.owner, i.prims)

def SameItems (scene other : Scene δ) : Prop := ∀ v, v ∈ seen scene ↔ v ∈ seen other

/-! ### What a step does to items and ids -/

lemma byId_destroyObject (scene : Scene δ) (o : ItemObject δ) :
    (destroyObject scene o).byId = scene.byId := by
  have hrelease : (releaseContext scene o.cacheKey).byId = scene.byId := by
    rw [releaseContext]
    cases o.cacheKey.bind fun k => (scene.contextCache.get? k).map fun c => (k, c) with
    | none => rfl
    | some e =>
      simp only
      split_ifs <;> rfl
  rw [destroyObject, SceneContexts.foldl_destroyContext]
  exact hrelease

lemma destroyed (objs : List (ItemObject δ)) (scene : Scene δ) :
    (objs.foldl destroyObject scene).byId = scene.byId ∧
      (objs.foldl destroyObject scene).entries = scene.entries := by
  induction objs generalizing scene with
  | nil => exact ⟨rfl, rfl⟩
  | cons o objs ih =>
    obtain ⟨hids, hentries⟩ := ih (destroyObject scene o)
    rw [List.foldl_cons, hids, hentries, byId_destroyObject, SceneCache.entries_destroyObject]
    exact ⟨rfl, rfl⟩

lemma filter_all {α : Type} (o : Option α) : (o.filter fun _ => true) = o := by
  cases o <;> rfl

/-- An id is forgotten with the object that it is the id of. -/
lemma get?_forget (items : List RenderItem) (byId : OMap String RenderItem) (id : String) :
    (items.foldl forget byId).get? id = (byId.get? id).filter fun i =>
      !items.any fun j => decide (j.id = id ∧ i.object = j.object) := by
  induction items generalizing byId with
  | nil => exact (filter_all _).symm
  | cons j items ih =>
    have hone : (forget byId j).get? id =
        (byId.get? id).filter fun i => !decide (j.id = id ∧ i.object = j.object) := by
      rw [forget]
      by_cases hid : j.id = id
      · subst hid
        cases hget : byId.get? j.id with
        | none => simp [hget]
        | some i => by_cases hobj : i.object = j.object <;> simp [hget, hobj, Option.filter_some]
      · have hall : (byId.get? id).filter (fun i => !decide (j.id = id ∧ i.object = j.object)) =
            byId.get? id := by
          simp only [hid, false_and, decide_false, Bool.not_false]
          exact filter_all _
        rw [hall]
        split_ifs
        · rw [OMap.get?_delete, if_neg (Ne.symm hid)]
        · rfl
    rw [List.foldl_cons, ih, hone, Option.filter_filter]
    congr 1
    funext i
    rw [List.any_cons, Bool.not_or]

lemma ownerItems_removeOwner (u owner : String) : ownerItems (removeOwner scene u) owner =
    if owner = u then [] else ownerItems scene owner := by
  rw [ownerItems, removeOwner]
  cases he : scene.entries.get? u with
  | none =>
    split_ifs with h
    · rw [h, he]
      rfl
    · rfl
  | some e =>
    simp only [(destroyed e.objs _).2, OMap.get?_delete]
    split_ifs
    · rfl
    · rfl

lemma get?_removeOwner (u id : String) : (removeOwner scene u).byId.get? id =
    (scene.byId.get? id).filter fun i =>
      !(ownerItems scene u).any fun j => decide (j.id = id ∧ i.object = j.object) := by
  rw [ownerItems, removeOwner]
  cases he : scene.entries.get? u with
  | none => exact (filter_all _).symm
  | some e =>
    simp only [(destroyed e.objs _).1]
    exact get?_forget e.items scene.byId id

lemma built (items : List RenderItem) (scene : Scene δ) :
    (buildItems opts scene items).1.byId = items.foldl (fun m i => m.set i.id i) scene.byId ∧
      (buildItems opts scene items).1.entries = scene.entries := by
  induction items generalizing scene with
  | nil => exact ⟨rfl, rfl⟩
  | cons item items ih =>
    rw [buildItems]
    split_ifs
    · exact ih _
    · have hbuild : ∀ s : Scene δ, (build opts s item).1.byId = s.byId ∧
          (build opts s item).1.entries = s.entries := by
        intro s
        rw [build]
        cases keyOf item with
        | none => exact ⟨rfl, rfl⟩
        | some key =>
          simp only [buildShared]
          cases s.contextCache.get? key <;> exact ⟨rfl, rfl⟩
      obtain ⟨hids, hentries⟩ := ih (build opts
        { scene with byId := scene.byId.set item.id item } item).1
      rw [(hbuild _).1] at hids
      rw [(hbuild _).2] at hentries
      exact ⟨hids, hentries⟩

lemma ownerItems_upsertOwner (u : String × List RenderItem) (owner : String) :
    ownerItems (upsertOwner opts scene u) owner =
      if owner = u.1 then u.2.map (ownedBy u.1) else ownerItems scene owner := by
  rw [upsertOwner]
  simp only
  split_ifs with hnil h h
  · rw [ownerItems_removeOwner, if_pos h, hnil]
    rfl
  · rw [ownerItems_removeOwner, if_neg h]
  · rw [ownerItems, OMap.get?_set, if_pos h]
    rfl
  · rw [ownerItems, (built _ _).2, OMap.get?_set, if_neg h]
    have hremoved : ownerItems (removeOwner scene u.1) owner = ownerItems scene owner := by
      rw [ownerItems_removeOwner, if_neg h]
    exact hremoved

lemma get?_upsertOwner (u : String × List RenderItem) (id : String) :
    (upsertOwner opts scene u).byId.get? id =
      (lastOf (u.2.map (ownedBy u.1)) id).or ((removeOwner scene u.1).byId.get? id) := by
  rw [upsertOwner]
  split_ifs with hnil
  · rw [hnil]
    rfl
  · rw [(built _ _).1, lastOf, ← get?_foldl_set, List.foldl_map (l := u.2.map (ownedBy u.1))]

/-! ### Which items the ids are of -/

lemma lastOf_mem {items : List RenderItem} {id : String} {i : RenderItem}
    (h : lastOf items id = some i) : i ∈ items ∧ i.id = id := by
  obtain ⟨j, hj, he⟩ := List.mem_map.mp (mem_of_lastWrite h)
  obtain ⟨hid, rfl⟩ := Prod.mk.inj he
  exact ⟨hj, hid⟩

lemma lastOf_eq_none_iff {items : List RenderItem} {id : String} :
    lastOf items id = none ↔ ∀ i ∈ items, i.id ≠ id := by
  rw [lastOf, lastWrite_eq_none_iff]
  simp [List.mem_map, Function.comp_apply, not_exists, not_and]

lemma lastOf_map {f : RenderItem → RenderItem} (hf : ∀ i, (f i).id = i.id)
    (items : List RenderItem) (id : String) :
    lastOf (items.map f) id = (lastOf items id).map f := by
  simp [lastOf, lastWrite, List.map_map, ← List.map_reverse, List.find?_map, Option.map_map,
    Function.comp_def, hf]

/-- What an id is of is an item of some owner, the objects of two owners are apart, and the numbers
from `next` on are free. -/
structure Held (scene : Scene δ) (next : ℕ) : Prop where
  held : ∀ id i, scene.byId.get? id = some i → i.id = id ∧ ∃ owner, i ∈ ownerItems scene owner
  apart : ∀ a b, ∀ i ∈ ownerItems scene a, ∀ j ∈ ownerItems scene b, i.object = j.object → a = b
  below : ∀ a, ∀ i ∈ ownerItems scene a, i.object < next

/-- The ids of an owner are of its items, of the last one each. -/
def Shown (scene : Scene δ) (owner : String) : Prop :=
  ∀ i ∈ ownerItems scene owner,
    scene.byId.get? i.id = lastOf (ownerItems scene owner) i.id

variable {next : ℕ}

lemma held_empty : Held ({} : Scene δ) 0 where
  held id i h := by
    cases h
  apart a b i hi := absurd hi List.not_mem_nil
  below a i hi := absurd hi List.not_mem_nil

lemma mem_removeOwner {u owner : String} {i : RenderItem} :
    i ∈ ownerItems (removeOwner scene u) owner ↔ owner ≠ u ∧ i ∈ ownerItems scene owner := by
  rw [ownerItems_removeOwner]
  split_ifs with h
  · exact ⟨fun hi => absurd hi List.not_mem_nil, fun hi => absurd h hi.1⟩
  · exact ⟨fun hi => ⟨h, hi⟩, fun hi => hi.2⟩

lemma held_removeOwner (h : Held scene next) (u : String) : Held (removeOwner scene u) next where
  held id i hi := by
    rw [get?_removeOwner, Option.filter_eq_some_iff] at hi
    obtain ⟨hid, owner, howner⟩ := h.held id i hi.1
    refine ⟨hid, owner, mem_removeOwner.mpr ⟨?_, howner⟩⟩
    -- an item of the removed owner would have been forgotten
    rintro rfl
    have hnot := hi.2
    simp only [Bool.not_eq_true', List.any_eq_false, decide_eq_true_eq] at hnot
    exact hnot i howner ⟨hid, rfl⟩
  apart a b i hi j hj := h.apart a b i (mem_removeOwner.mp hi).2 j (mem_removeOwner.mp hj).2
  below a i hi := h.below a i (mem_removeOwner.mp hi).2

lemma shown_removeOwner (h : Held scene next) {u owner : String} (hne : owner ≠ u)
    (hshown : Shown scene owner) : Shown (removeOwner scene u) owner := by
  have hitems : ownerItems (removeOwner scene u) owner = ownerItems scene owner := by
    rw [ownerItems_removeOwner, if_neg hne]
  intro i hi
  rw [hitems] at hi ⊢
  rw [get?_removeOwner, hshown i hi]
  cases hlast : lastOf (ownerItems scene owner) i.id with
  | none => rfl
  | some j =>
    have hkeep : ((ownerItems scene u).any fun k =>
        decide (k.id = i.id ∧ j.object = k.object)) = false := by
      refine List.any_eq_false.mpr fun k hk hboth => hne ?_
      exact h.apart owner u j (lastOf_mem hlast).1 k hk (of_decide_eq_true hboth).2
    rw [Option.filter_some, hkeep]
    rfl

/-! ### Building -/

/-- The objects of items, in order, from a number on. -/
def numbered : ℕ → List RenderItem → List RenderItem
  | _, [] => []
  | next, item :: items => { item with object := next } :: numbered (next + 1) items

lemma object_numbered {items : List RenderItem} {i : RenderItem} (h : i ∈ numbered next items) :
    next ≤ i.object ∧ i.object < next + items.length := by
  induction items generalizing next with
  | nil => cases h
  | cons item items ih =>
    rw [List.length_cons]
    rcases List.mem_cons.mp h with rfl | h
    · exact ⟨le_rfl, by simp only; omega⟩
    · have hrest := ih h
      omega

lemma blank_numbered (next : ℕ) (items : List RenderItem) :
    (numbered next items).map blank = items.map blank := by
  induction items generalizing next with
  | nil => rfl
  | cons item items ih =>
    rw [numbered, List.map_cons, ih]
    rfl

lemma ids_numbered (next : ℕ) (items : List RenderItem) :
    (numbered next items).map (·.id) = items.map (·.id) := by
  induction items generalizing next with
  | nil => rfl
  | cons item items ih => rw [numbered, List.map_cons, List.map_cons, ih]

section Upsert

variable {owner : String} {items : List RenderItem}

lemma mem_upsertOwner {u : String × List RenderItem} {i : RenderItem} :
    i ∈ ownerItems (upsertOwner opts scene u) owner ↔
      if owner = u.1 then i ∈ u.2.map (ownedBy u.1) else i ∈ ownerItems scene owner := by
  rw [ownerItems_upsertOwner]
  split_ifs <;> rfl

/-- **A build keeps the ids held** if its objects are new. -/
lemma held_upsertOwner (h : Held scene next) (u : String) (items : List RenderItem) :
    Held (upsertOwner opts scene (u, numbered next items)) (next + items.length) where
  held id i hi := by
    rw [get?_upsertOwner] at hi
    cases hlast : lastOf ((numbered next items).map (ownedBy u)) id with
    | some j =>
      rw [hlast] at hi
      cases hi
      exact ⟨(lastOf_mem hlast).2, u, mem_upsertOwner.mpr (by rw [if_pos rfl]; exact
        (lastOf_mem hlast).1)⟩
    | none =>
      rw [hlast] at hi
      obtain ⟨hid, owner, howner⟩ := (held_removeOwner h u).held id i hi
      obtain ⟨hne, hmem⟩ := mem_removeOwner.mp howner
      exact ⟨hid, owner, mem_upsertOwner.mpr (by rw [if_neg hne]; exact hmem)⟩
  apart a b i hi j hj heq := by
    rw [mem_upsertOwner] at hi hj
    have hnew : ∀ k ∈ (numbered next items).map (ownedBy u), next ≤ k.object :=
      List.forall_mem_map.mpr fun k hk => (object_numbered hk).1
    split_ifs at hi hj with ha hb hb
    · rw [ha, hb]
    · exact absurd (h.below b j hj) (by rw [← heq, not_lt]; exact hnew i hi)
    · exact absurd (h.below a i hi) (by rw [heq, not_lt]; exact hnew j hj)
    · exact h.apart a b i hi j hj heq
  below a i hi := by
    rw [mem_upsertOwner] at hi
    split_ifs at hi with ha
    · obtain ⟨k, hk, rfl⟩ := List.mem_map.mp hi
      exact (object_numbered hk).2
    · exact Nat.lt_of_lt_of_le (h.below a i hi) (Nat.le_add_right _ _)

lemma shown_built (u : String × List RenderItem) : Shown (upsertOwner opts scene u) u.1 := by
  intro i hi
  rw [ownerItems_upsertOwner, if_pos rfl] at hi ⊢
  rw [get?_upsertOwner]
  cases hlast : lastOf (u.2.map (ownedBy u.1)) i.id with
  | none => exact absurd rfl (lastOf_eq_none_iff.mp hlast i hi)
  | some j => rfl

lemma shown_upsertOwner (h : Held scene next) {u : String × List RenderItem} (hne : owner ≠ u.1)
    (hshown : Shown scene owner)
    (hids : ∀ i ∈ u.2, ∀ j ∈ ownerItems scene owner, i.id ≠ j.id) :
    Shown (upsertOwner opts scene u) owner := by
  have hkept := shown_removeOwner h hne hshown
  have hitems : ownerItems (upsertOwner opts scene u) owner = ownerItems scene owner := by
    rw [ownerItems_upsertOwner, if_neg hne]
  have hremoved : ownerItems (removeOwner scene u.1) owner = ownerItems scene owner := by
    rw [ownerItems_removeOwner, if_neg hne]
  intro i hi
  rw [hitems] at hi ⊢
  have hnone : lastOf (u.2.map (ownedBy u.1)) i.id = none :=
    lastOf_eq_none_iff.mpr (List.forall_mem_map.mpr fun k hk => hids k hk i hi)
  rw [get?_upsertOwner, hnone]
  have hthis := hkept i (hremoved ▸ hi)
  rwa [hremoved] at hthis

end Upsert

/-! ### Many owners -/

/-- Each owner with its items as objects, from a number on. -/
def numberAll : ℕ → List (String × List RenderItem) → List (String × List RenderItem)
  | _, [] => []
  | next, u :: us => (u.1, numbered next u.2) :: numberAll (next + u.2.length) us

def countAll (us : List (String × List RenderItem)) : ℕ := (us.map (·.2.length)).sum

section Many

variable {us : List (String × List RenderItem)} {owner : String}

lemma held_upserts (h : Held scene next) :
    Held ((numberAll next us).foldl (upsertOwner opts) scene) (next + countAll us) := by
  induction us generalizing scene next with
  | nil => exact h
  | cons u us ih =>
    have hcount : next + countAll (u :: us) = next + u.2.length + countAll us := by
      rw [countAll, List.map_cons, List.sum_cons, ← Nat.add_assoc, countAll]
    rw [hcount]
    exact ih (held_upsertOwner h u.1 u.2)

lemma held_removeOwners (owners : List String) (h : Held scene next) :
    Held (owners.foldl removeOwner scene) next := by
  induction owners generalizing scene with
  | nil => exact h
  | cons owner owners ih => exact ih (held_removeOwner h owner)

lemma ownerItems_removeOwners (owners : List String) (scene : Scene δ) (owner : String) :
    ownerItems (owners.foldl removeOwner scene) owner =
      if owner ∈ owners then [] else ownerItems scene owner := by
  induction owners generalizing scene with
  | nil => rfl
  | cons u owners ih =>
    rw [List.foldl_cons, ih, ownerItems_removeOwner]
    by_cases hu : owner = u <;> by_cases hmem : owner ∈ owners <;> simp [hu, hmem]

lemma shown_removeOwners (owners : List String) (h : Held scene next) (hmem : owner ∉ owners)
    (hshown : Shown scene owner) : Shown (owners.foldl removeOwner scene) owner := by
  induction owners generalizing scene with
  | nil => exact hshown
  | cons u owners ih =>
    rw [List.mem_cons, not_or] at hmem
    exact ih (held_removeOwner h u) hmem.2 (shown_removeOwner h hmem.1 hshown)

/-- The items of an owner are those of its last turn. -/
lemma blank_upserts (scene : Scene δ) (next : ℕ) (us : List (String × List RenderItem))
    (owner : String) :
    (ownerItems ((numberAll next us).foldl (upsertOwner opts) scene) owner).map blank =
      ((lastWrite us owner).map fun items => (items.map (ownedBy owner)).map blank).getD
        ((ownerItems scene owner).map blank) := by
  induction us generalizing scene next with
  | nil => rfl
  | cons u us ih =>
    rw [numberAll, List.foldl_cons, ih, lastWrite_cons, ownerItems_upsertOwner]
    cases hlast : lastWrite us owner with
    | some items => rfl
    | none =>
      rw [Option.none_or]
      by_cases hu : u.1 = owner
      · subst hu
        have hown : ∀ items : List RenderItem, (items.map (ownedBy u.1)).map blank =
            (items.map blank).map (ownedBy u.1) := by
          intro items
          rw [List.map_map, List.map_map]
          rfl
        rw [if_pos rfl, if_pos rfl, Option.map_some, Option.getD_some, Option.map_none,
          Option.getD_none, hown, hown, blank_numbered]
      · rw [if_neg hu, if_neg (Ne.symm hu)]

lemma shown_upserts (h : Held scene next)
    (hids : ∀ u ∈ us, owner ≠ u.1 → ∀ i ∈ u.2, ∀ j ∈ ownerItems
      ((numberAll next us).foldl (upsertOwner opts) scene) owner, i.id ≠ j.id)
    (hwas : owner ∈ us.map Prod.fst ∨ Shown scene owner) :
    Shown ((numberAll next us).foldl (upsertOwner opts) scene) owner := by
  induction us generalizing scene next with
  | nil => exact hwas.resolve_left List.not_mem_nil
  | cons u us ih =>
    refine ih (held_upsertOwner h u.1 u.2) (fun v hv => hids v (List.mem_cons_of_mem _ hv)) ?_
    by_cases hlater : owner ∈ us.map Prod.fst
    · exact Or.inl hlater
    right
    by_cases hu : owner = u.1
    · rw [hu]
      exact shown_built (u.1, numbered next u.2)
    · have hbefore : Shown scene owner := by
        refine hwas.resolve_left fun hmem => ?_
        exact (List.mem_cons.mp hmem).elim hu hlater
      -- no later turn is of the owner, so it has the items that it will have
      have hitems : (ownerItems scene owner).map (·.id) = (ownerItems
          ((numberAll next (u :: us)).foldl (upsertOwner opts) scene) owner).map (·.id) := by
        have hblank : (ownerItems scene owner).map blank = (ownerItems
            ((numberAll next (u :: us)).foldl (upsertOwner opts) scene) owner).map blank := by
          rw [blank_upserts, lastWrite_cons, lastWrite_eq_none_iff.mpr hlater, if_neg (Ne.symm hu)]
          rfl
        have hthis := congrArg (List.map (·.id)) hblank
        rwa [List.map_map, List.map_map] at hthis
      refine shown_upsertOwner h hu hbefore fun i hi j hj heq => ?_
      have hid : i.id ∈ u.2.map (·.id) := by
        rw [← ids_numbered next]
        exact List.mem_map_of_mem hi
      obtain ⟨k, hk, hki⟩ := List.mem_map.mp hid
      have hjd : j.id ∈ (ownerItems scene owner).map (·.id) := List.mem_map_of_mem hj
      rw [hitems] at hjd
      obtain ⟨l, hl, hlj⟩ := List.mem_map.mp hjd
      exact hids u List.mem_cons_self hu k hk l hl (by rw [hki, heq, hlj])

end Many

/-! ### A scene that shows what it is to -/

/-- Each owner has the items that it is to have, and their ids. -/
structure Fits (scene : Scene δ) (next : ℕ) (want : String → List RenderItem) : Prop where
  held : Held scene next
  shown : ∀ owner, Shown scene owner
  items : ∀ owner, (ownerItems scene owner).map blank =
    ((want owner).map (ownedBy owner)).map blank

variable {want want' : String → List RenderItem} {us : List (String × List RenderItem)}
  {removed : List String}

lemma ids_of_blank {items more : List RenderItem} (h : items.map blank = more.map blank)
    {i : RenderItem} (hi : i ∈ items) : ∃ j ∈ more, j.id = i.id := by
  have hmem : blank i ∈ more.map blank := h ▸ List.mem_map_of_mem hi
  obtain ⟨j, hj, he⟩ := List.mem_map.mp hmem
  have hid : (blank j).id = (blank i).id := congrArg (·.id) he
  exact ⟨j, hj, hid⟩

/-- **A diff of the scene**: what it removes goes, and what it builds is shown, if the items that
are built share no id with those that another owner is to have. -/
lemma fits_applyDiff (h : Fits scene next want)
    (hwant : ∀ owner, want' owner =
      (lastWrite us owner).getD (if owner ∈ removed then [] else want owner))
    (hids : ∀ u ∈ us, ∀ owner, owner ≠ u.1 → ∀ i ∈ u.2, ∀ j ∈ want' owner, i.id ≠ j.id) :
    Fits (applyDiff opts scene { upsert := numberAll next us, remove := removed })
      (next + countAll us) want' := by
  have hremoved := held_removeOwners removed h.held
  have hitems : ∀ owner, (ownerItems (applyDiff opts scene
      { upsert := numberAll next us, remove := removed }) owner).map blank =
        ((want' owner).map (ownedBy owner)).map blank := by
    intro owner
    rw [applyDiff, blank_upserts, hwant, ownerItems_removeOwners]
    cases lastWrite us owner with
    | some items => rfl
    | none =>
      split_ifs
      · rfl
      · exact h.items owner
  refine ⟨held_upserts hremoved, fun owner => ?_, hitems⟩
  refine shown_upserts hremoved (fun u hu hne i hi j hj heq => ?_) (Or.inr ?_)
  · obtain ⟨k, hk, hkj⟩ := ids_of_blank (hitems owner) hj
    obtain ⟨l, hl, rfl⟩ := List.mem_map.mp hk
    exact hids u hu owner hne i hi l hl (heq.trans hkj.symm)
  · by_cases hmem : owner ∈ removed
    · intro _ hi
      rw [ownerItems_removeOwners, if_pos hmem] at hi
      cases hi
    · exact shown_removeOwners removed h.held hmem (h.shown owner)

lemma fits_empty : Fits ({} : Scene δ) 0 fun _ => [] :=
  ⟨held_empty, fun _ _ hi => absurd hi List.not_mem_nil, fun _ => rfl⟩

/-- The items of a scene that fits are the last of their ids. -/
lemma mem_seen_iff (h : Fits scene next want) {v : String × Option String × List Primitive} :
    v ∈ seen scene ↔ ∃ owner id, (lastOf (((want owner).map (ownedBy owner)).map blank) id).map
      (fun i => (i.id, i.owner, i.prims)) = some v := by
  have hlast : ∀ owner id, (lastOf (((want owner).map (ownedBy owner)).map blank) id).map
      (fun i => (i.id, i.owner, i.prims)) =
        (lastOf (ownerItems scene owner) id).map fun i => (i.id, i.owner, i.prims) := by
    intro owner id
    rw [← h.items owner, lastOf_map (f := blank) fun _ => rfl, Option.map_map]
    rfl
  rw [seen, List.mem_map]
  constructor
  · rintro ⟨i, hi, rfl⟩
    obtain ⟨id, hid⟩ := OMap.mem_values_iff.mp hi
    obtain ⟨rfl, owner, howner⟩ := h.held.held id i hid
    refine ⟨owner, i.id, ?_⟩
    rw [hlast, ← h.shown owner i howner, hid]
    rfl
  · rintro ⟨owner, id, hv⟩
    rw [hlast] at hv
    obtain ⟨i, hi, rfl⟩ := Option.map_eq_some_iff.mp hv
    obtain ⟨hmem, rfl⟩ := lastOf_mem hi
    exact ⟨i, OMap.mem_values_iff.mpr ⟨i.id, (h.shown owner i hmem).trans hi⟩, rfl⟩

/-- **Two scenes that fit the same have the same items.** -/
theorem same_of_fits {other : Scene δ} {m : ℕ} (h : Fits scene next want)
    (hother : Fits other m want) : SameItems scene other := by
  intro v
  rw [mem_seen_iff h, mem_seen_iff hother]

end FabPcb.SceneItems
