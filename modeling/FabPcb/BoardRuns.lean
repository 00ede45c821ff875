import FabPcb.CanvasRuns

/-!
A board that is drawn by its diffs, and the index of the children of its footprints.

The links that a diff makes and breaks are those of the store after it, if no item that it does not
list has another footprint than before. A footprint whose children change is rebuilt, and the
others leave the same children to the store as before.
-/

namespace FabPcb.BoardRuns

open OrderedMap Writes ItemStore StoreContent StoreIndex
open RenderScene SceneItems CanvasHost CanvasRuns
open MemoryItemStore BoardCanvasHost

variable {δ P : Type} {opts : SceneOptions δ} {adapter : BoardAdapter P}

/-! ### Links -/

/-- The index goes both ways. -/
def Both (index : ChildIndex) : Prop :=
  ∀ p id, Holds index.childrenOf p id ↔ index.parentOf.get? id = some p

/-- The links are those that the store makes. -/
structure Linked (index : ChildIndex) (s : MemoryItemStore P) : Prop where
  both : Both index
  parents : ∀ id, index.parentOf.get? id = (content s id).bind (footprintParent s)

lemma both_empty : Both {} := by
  intro p id
  rw [Holds]
  simp

lemma parentOf_unlink (index : ChildIndex) (id id' : String) :
    (index.unlink id).parentOf.get? id' = if id' = id then none else index.parentOf.get? id' := by
  rw [ChildIndex.unlink]
  cases hp : index.parentOf.get? id with
  | none =>
    split_ifs with h
    · rw [h, hp]
    · rfl
  | some p => exact OMap.get?_delete ..

lemma both_unlink {index : ChildIndex} (h : Both index) (id : String) : Both (index.unlink id) := by
  intro p id'
  rw [parentOf_unlink, ChildIndex.unlink]
  cases hp : index.parentOf.get? id with
  | none =>
    split_ifs with hid
    · rw [hid, h, hp]
      exact ⟨nofun, nofun⟩
    · exact h p id'
  | some q =>
    simp only [holds_del, h p id']
    split_ifs with hid
    · rw [hid, hp]
      simp [eq_comm]
    · simp [hid]

lemma both_link {index : ChildIndex} (h : Both index) {id : String} (p : String)
    (hnone : index.parentOf.get? id = none) : Both (index.link id p) := by
  intro q id'
  rw [ChildIndex.link, holds_add, h q id']
  by_cases hid : id' = id
  · subst hid
    simp [hnone, eq_comm]
  · simp [hid]

/-! ### The children that a diff moves -/

/-- From one index to another: the second goes both ways, and the parents whose children differ are
known. -/
structure Tracked (index : ChildIndex) (acc : OSet String × ChildIndex) : Prop where
  both : Both acc.2
  known : ∀ id p, ¬ (index.parentOf.get? id = some p ↔ acc.2.parentOf.get? id = some p) →
    acc.1.has p = true

variable {store : MemoryItemStore P} {index : ChildIndex} {acc : OSet String × ChildIndex}

lemma parentOf_dropChild (acc : OSet String × ChildIndex) (id id' : String) :
    (dropChild acc id).2.parentOf.get? id' =
      if id' = id then none else acc.2.parentOf.get? id' :=
  parentOf_unlink acc.2 id id'

lemma parentOf_moveChild (acc : OSet String × ChildIndex) (it : StoredItem P) (id : String) :
    (moveChild store acc it).2.parentOf.get? id =
      if id = it.id then footprintParent store it else acc.2.parentOf.get? id := by
  rw [moveChild]
  by_cases hsame : acc.2.parentOf.get? it.id = footprintParent store it
  · split_ifs with hid
    · rw [hid, hsame]
    · rfl
  · rw [if_neg hsame]
    cases footprintParent store it with
    | none => exact parentOf_unlink acc.2 it.id id
    | some p =>
      simp only [ChildIndex.link, OMap.get?_set, parentOf_unlink]
      split_ifs <;> rfl

lemma tracked_change {acc' : OSet String × ChildIndex} (h : Tracked index acc) {id : String}
    {next : Option String} (hboth : Both acc'.2)
    (hparents : ∀ id', acc'.2.parentOf.get? id' = if id' = id then next
      else acc.2.parentOf.get? id')
    (hkept : ∀ p, acc.1.has p = true → acc'.1.has p = true)
    (hknown : ∀ p, ¬ (acc.2.parentOf.get? id = some p ↔ next = some p) → acc'.1.has p = true) :
    Tracked index acc' := by
  refine ⟨hboth, fun id' p hdiff => ?_⟩
  by_cases hbefore : index.parentOf.get? id' = some p ↔ acc.2.parentOf.get? id' = some p
  · rw [hparents] at hdiff
    split_ifs at hdiff with hid
    · subst hid
      exact hknown p fun h => hdiff (hbefore.trans h)
    · exact absurd hbefore hdiff
  · exact hkept p (h.known id' p hbefore)

lemma has_elim (parents : OSet String) (prev : Option String) (p : String) :
    (prev.elim parents fun q => parents.set q ()).has p =
      (decide (prev = some p) || parents.has p) := by
  cases prev with
  | none => simp
  | some q =>
    rw [Option.elim_some, OMap.has_set]
    congr 1
    exact decide_eq_decide.mpr (by rw [Option.some.injEq, eq_comm])

lemma tracked_dropChild (h : Tracked index acc) (id : String) :
    Tracked index (dropChild acc id) := by
  refine tracked_change h (both_unlink h.both id) (parentOf_dropChild acc id) (fun p hp => ?_)
    fun p hdiff => ?_
  · rw [dropChild, has_elim, hp, Bool.or_true]
  · have hp : acc.2.parentOf.get? id = some p := by
      by_contra hne
      exact hdiff (by simp [hne])
    simp [dropChild, hp]

lemma tracked_moveChild (h : Tracked index acc) (it : StoredItem P) :
    Tracked index (moveChild store acc it) := by
  refine tracked_change h ?_ (parentOf_moveChild acc it) (fun p hp => ?_) fun p hdiff => ?_
  · rw [moveChild]
    split_ifs
    · exact h.both
    · have hunlinked : (acc.2.unlink it.id).parentOf.get? it.id = none := by
        rw [parentOf_unlink, if_pos rfl]
      cases footprintParent store it with
      | none => exact both_unlink h.both it.id
      | some p => exact both_link (both_unlink h.both it.id) p hunlinked
  · rw [moveChild]
    split_ifs
    · exact hp
    · cases footprintParent store it with
      | none => rw [has_elim, hp, Bool.or_true]
      | some q => rw [OMap.has_set, has_elim, hp, Bool.or_true, Bool.or_true]
  · rw [moveChild]
    split_ifs with hsame
    · exact absurd (by rw [hsame]) hdiff
    · cases hnext : footprintParent store it with
      | none =>
        have hp : acc.2.parentOf.get? it.id = some p := by
          by_contra hne
          exact hdiff (by simp [hne, hnext])
        simp [hp]
      | some q =>
        by_cases hq : p = q
        · simp [hq]
        · have hp : acc.2.parentOf.get? it.id = some p := by
            by_contra hne
            exact hdiff (by simp [hne, hnext, Ne.symm hq])
          simp [hp]

lemma tracked_drops (ids : List String) (h : Tracked index acc) :
    Tracked index (ids.foldl dropChild acc) := by
  induction ids generalizing acc with
  | nil => exact h
  | cons id ids ih => exact ih (tracked_dropChild h id)

lemma tracked_moves (its : List (StoredItem P)) (h : Tracked index acc) :
    Tracked index (its.foldl (moveChild store) acc) := by
  induction its generalizing acc with
  | nil => exact h
  | cons it its ih => exact ih (tracked_moveChild h it)

lemma parentOf_drops (ids : List String) (acc : OSet String × ChildIndex) (id : String) :
    (ids.foldl dropChild acc).2.parentOf.get? id =
      if id ∈ ids then none else acc.2.parentOf.get? id := by
  induction ids generalizing acc with
  | nil => rfl
  | cons i ids ih =>
    rw [List.foldl_cons, ih, parentOf_dropChild]
    by_cases hid : id = i <;> by_cases hmem : id ∈ ids <;> simp [hid, hmem]

lemma parentOf_moves (its : List (StoredItem P)) (acc : OSet String × ChildIndex) (id : String) :
    (its.foldl (moveChild store) acc).2.parentOf.get? id =
      ((listed its id).map (footprintParent store)).getD (acc.2.parentOf.get? id) := by
  induction its generalizing acc with
  | nil => rfl
  | cons it its ih =>
    rw [List.foldl_cons, ih, parentOf_moveChild, listed_cons]
    cases listed its id with
    | some j => rfl
    | none => by_cases hid : id = it.id <;> simp [hid, Ne.symm]

/-! ### The index of a store -/

lemma indexItem_eq {it : StoredItem P} (parents : OSet String)
    (hnone : index.parentOf.get? it.id = none) :
    indexItem store index it = (moveChild store (parents, index) it).2 := by
  rw [indexItem, moveChild]
  simp only [hnone]
  cases footprintParent store it with
  | none => rfl
  | some p =>
    have hunlink : index.unlink it.id = index := by rw [ChildIndex.unlink, hnone]
    rw [if_neg (by simp), hunlink]

lemma indexItems_eq {its : List (StoredItem P)} (hnd : (its.map (·.id)).Nodup)
    (parents : OSet String) (hnone : ∀ it ∈ its, index.parentOf.get? it.id = none) :
    its.foldl (indexItem store) index = (its.foldl (moveChild store) (parents, index)).2 := by
  induction its generalizing index parents with
  | nil => rfl
  | cons it its ih =>
    rw [List.map_cons, List.nodup_cons] at hnd
    rw [List.foldl_cons, indexItem_eq parents (hnone it List.mem_cons_self)]
    refine ih hnd.2 (moveChild store (parents, index) it).1 fun jt hjt => ?_
    have hne : jt.id ≠ it.id := fun heq => hnd.1 (heq ▸ List.mem_map_of_mem hjt)
    rw [parentOf_moveChild, if_neg hne]
    exact hnone jt (List.mem_cons_of_mem _ hjt)

lemma ids_all {s : MemoryItemStore P} (hk : Keyed (content s)) :
    s.all.map (·.id) = s.items.keys := by
  rw [MemoryItemStore.all, OMap.values, List.map_map]
  exact List.map_congr_left fun e he => hk e.1 e.2 (OMap.get?_eq_some_iff.mpr he)

lemma tracked_start (h : Both index) : Tracked index (OMap.empty, index) :=
  ⟨h, fun _ _ hdiff => absurd Iff.rfl hdiff⟩

/-- **The index that is made on mounting has the links of the store.** -/
lemma linked_indexChildren {s : MemoryItemStore P} (hk : Keyed (content s)) :
    Linked (indexChildren s) s := by
  have hmoves : indexChildren s = (s.all.foldl (moveChild s) (OMap.empty, {})).2 := by
    refine indexItems_eq ?_ OMap.empty fun _ _ => rfl
    rw [ids_all hk]
    exact s.items.keys_nodup
  rw [hmoves]
  refine ⟨(tracked_moves s.all (tracked_start both_empty)).both, fun id => ?_⟩
  rw [parentOf_moves, listed_all hk]
  cases content s id with
  | none => rfl
  | some it => rfl

section Diffs

variable [DecidableEq P]

/-- **A diff keeps the links** if what it does not list has the same parent as before. -/
lemma linked_reindex {s : MemoryItemStore P} {call : Call P} {d : StoreDiff P}
    (hd : (call.step s).2 = some d) (hk : Keyed (content s)) (h : Linked index s)
    (hparents : ∀ it ∈ (call.step s).1.all, it.id ∉ (setBy s call).map (·.id) →
      footprintParent (call.step s).1 it = footprintParent s it) :
    Linked (reindex (call.step s).1 index d).2 (call.step s).1 := by
  have hk' := keyed_step hk call
  refine ⟨(tracked_moves _ (tracked_drops _ (tracked_start h.both))).both, fun id => ?_⟩
  rw [reindex, parentOf_moves, parentOf_drops, lists_of_some hd, h.parents]
  have hcontent := content_step hd id
  cases hl : listed (setBy s call) id with
  | some it =>
    rw [hcontent, hl]
    rfl
  | none =>
    rw [hl] at hcontent
    rw [hcontent]
    split_ifs at hcontent ⊢ with hr
    · rfl
    · cases hget : content s id with
      | none => rfl
      | some it =>
        rw [hget] at hcontent
        have hid := hk' id it hcontent
        refine (hparents it ((mem_all_iff hk').mpr (hid ▸ hcontent)) ?_).symm
        rw [hid]
        exact listed_eq_none_iff.mp hl

end Diffs

/-! ### What the index decides -/

/-- The children of a footprint, if any. -/
def childrenAt (index : ChildIndex) (id : String) : OSet String :=
  (index.childrenOf.get? id).getD OMap.empty

lemma has_childrenAt (h : Both index) (p id : String) :
    (childrenAt index p).has id = true ↔ index.parentOf.get? id = some p := by
  rw [← h p id, childrenAt, Holds]
  cases index.childrenOf.get? p with
  | none => simp
  | some own => simp

lemma toRenderItems_eq (index : ChildIndex) (it : StoredItem P) :
    toRenderItems adapter index it =
      if it.type = "KOT_PCB_FOOTPRINT" ∧ (childrenAt index it.id).size ≠ 0 then
        adapter it (some (childrenAt index it.id).has) none
      else adapter it none (index.parentOf.get? it.id) := by
  rw [toRenderItems, childrenAt]
  cases index.childrenOf.get? it.id with
  | none =>
    rw [if_neg fun h => h.2 rfl]
    rfl
  | some own =>
    rw [Option.getD_some]
    by_cases h : it.type = "KOT_PCB_FOOTPRINT" ∧ own.size ≠ 0
    · rw [if_pos h, Option.filter_some_pos (by simpa using h)]
    · rw [if_neg h, Option.filter_some_neg (by simpa using h)]

lemma toRenderItems_congr {index' : ChildIndex} (h : Both index) (h' : Both index')
    {it : StoredItem P} (hparent : index.parentOf.get? it.id = index'.parentOf.get? it.id)
    (hchildren : ∀ id, index.parentOf.get? id = some it.id ↔
      index'.parentOf.get? id = some it.id) :
    toRenderItems adapter index it = toRenderItems adapter index' it := by
  have hhas : (childrenAt index it.id).has = (childrenAt index' it.id).has := by
    funext id
    rw [Bool.eq_iff_iff, has_childrenAt h, has_childrenAt h', hchildren]
  have hsize : (childrenAt index it.id).size = 0 ↔ (childrenAt index' it.id).size = 0 := by
    rw [OMap.size_eq_zero_iff, OMap.size_eq_zero_iff]
    refine forall_congr' fun id => ?_
    rw [← OMap.has_eq_false_iff, ← OMap.has_eq_false_iff, hhas]
  rw [toRenderItems_eq, toRenderItems_eq, hhas, hparent]
  exact if_congr (and_congr_right fun _ => not_congr hsize) rfl rfl

lemma toRenderItems_linked {index' : ChildIndex} (h : Linked index store)
    (h' : Linked index' store) : toRenderItems adapter index = toRenderItems adapter index' := by
  funext it
  have hsame : ∀ id, index.parentOf.get? id = index'.parentOf.get? id := fun id => by
    rw [h.parents, h'.parents]
  exact toRenderItems_congr h.both h'.both (hsame it.id) fun id => by rw [hsame]

/-! ### Runs -/

/-- What a host that is mounted on a store draws for an item. -/
def items (adapter : BoardAdapter P) (store : MemoryItemStore P) :
    StoredItem P → List RenderItem :=
  safeConvert (toRenderItems adapter (indexChildren store))

/-- A host that has the links of the store and draws what is in it. -/
structure Synced (adapter : BoardAdapter P) (s : MemoryItemStore P × BoardCanvasHost δ) :
    Prop where
  keyed : Keyed (content s.1)
  linked : Linked s.2.index s.1
  apart : Apart (items adapter s.1) s.1.all s.1.all
  fits : Fits s.2.canvas.scene s.2.canvas.objects (wanted (items adapter s.1) (content s.1))

lemma synced_mount {s : MemoryItemStore P} (hk : Keyed (content s))
    (hapart : Apart (items adapter s) s.all s.all) :
    Synced adapter (s, mount opts adapter ({} : BoardCanvasHost δ) s) :=
  ⟨hk, linked_indexChildren hk, hapart, fits_loadAll hk hapart⟩

lemma numberAll_append (next : ℕ) (us vs : List (String × List RenderItem)) :
    numberAll next (us ++ vs) = numberAll next us ++ numberAll (next + countAll us) vs := by
  induction us generalizing next with
  | nil => rfl
  | cons u us ih =>
    rw [List.cons_append, numberAll, ih, numberAll, List.cons_append, countAll, countAll,
      List.map_cons, List.sum_cons, Nat.add_assoc]

lemma applyItems_twice (convert : StoredItem P → Option (List RenderItem)) (c : Canvas δ)
    (its more : List (String × StoredItem P)) (removed : List String) :
    applyItems opts convert (applyItems opts convert c its removed) more [] =
      applyItems opts convert c (its ++ more) removed := by
  rw [applyItems, applyItems, applyItems, convertAll, convertAll, convertAll, List.map_append]
  congr 1
  · rw [numberAll_append, applyDiff, applyDiff, applyDiff, List.foldl_append]
    rfl
  · rw [countAll, countAll, countAll, List.map_append, List.sum_append, Nat.add_assoc]

/-- The parents that a diff does not list, and that are to be rebuilt. -/
def rebuilt (s : MemoryItemStore P) (index : ChildIndex) (d : StoreDiff P) :
    List (StoredItem P) :=
  ((reindex s index d).1.keys.filter fun p =>
    !((d.added ++ d.updated).map (·.id)).contains p && s.has p).filterMap s.get

/-- **A diff is one change of the scene**: the listed items, and then the parents. -/
lemma canvas_applyStoreDiff {s : MemoryItemStore P} (hk : Keyed (content s))
    (host : BoardCanvasHost δ) (d : StoreDiff P) :
    (BoardCanvasHost.applyStoreDiff opts adapter host s d).canvas =
      applyItems opts (toRenderItems adapter (reindex s host.index d).2) host.canvas
        ((d.added ++ d.updated ++ rebuilt s host.index d).map fun it => (it.id, it))
        d.removed := by
  rw [BoardCanvasHost.applyStoreDiff, rebuilt]
  set rebuild := (reindex s host.index d).1.keys.filter fun p =>
    !((d.added ++ d.updated).map (·.id)).contains p && s.has p with hrebuild
  have hhas : ∀ p ∈ rebuild, s.has p = true := fun p hp =>
    (Bool.and_eq_true_iff.mp (List.mem_filter.mp hp).2).2
  have hnone : (rebuild.filter fun id => !s.has id) = [] :=
    List.filter_eq_nil_iff.mpr fun p hp => by simp [hhas p hp]
  have hpairs : (rebuild.filterMap fun id => (s.get id).map fun it => (id, it)) =
      (rebuild.filterMap s.get).map fun it => (it.id, it) := by
    rw [List.map_filterMap]
    refine List.filterMap_congr fun id _ => ?_
    cases hget : s.get id with
    | none => rfl
    | some it => rw [Option.map_some, Option.map_some, hk id it hget]
  have happend : ((d.added ++ d.updated ++ rebuild.filterMap s.get).map fun it => (it.id, it)) =
      ((d.added ++ d.updated).map fun it => (it.id, it)) ++
        (rebuild.filterMap s.get).map fun it => (it.id, it) := List.map_append
  rw [happend, ← applyItems_twice]
  split_ifs with hnil
  · rw [hnil]
    rfl
  · rw [rebuildItems, hnone, hpairs]
    rfl

lemma mem_rebuilt_iff {s : MemoryItemStore P} (hk : Keyed (content s)) {d : StoreDiff P}
    {it : StoredItem P} : it ∈ rebuilt s index d ↔ (reindex s index d).1.has it.id = true ∧
      it.id ∉ (d.added ++ d.updated).map (·.id) ∧ s.get it.id = some it := by
  simp only [rebuilt, List.mem_filterMap, List.mem_filter, Bool.and_eq_true, Bool.not_eq_true',
    List.contains_eq_mem, decide_eq_false_iff_not, OMap.mem_keys_iff_has]
  constructor
  · rintro ⟨p, ⟨hp, hnot, -⟩, hget⟩
    have hid : it.id = p := hk p it hget
    exact ⟨hid ▸ hp, hid ▸ hnot, hid ▸ hget⟩
  · rintro ⟨hp, hnot, hget⟩
    exact ⟨it.id, ⟨hp, hnot, OMap.has_iff.mpr ⟨it, hget⟩⟩, hget⟩

lemma listed_append (its more : List (StoredItem P)) (id : String) :
    listed (its ++ more) id = (listed more id).or (listed its id) := by
  rw [listed, List.map_append, lastWrite_append]
  rfl

variable [DecidableEq P]

/-- An item that a diff does not list belongs to the same footprint as before, and no two items are
drawn under one id. -/
structure Steady (adapter : BoardAdapter P) (s : MemoryItemStore P) (call : Call P) : Prop where
  parents : ∀ it ∈ (call.step s).1.all, it.id ∉ (setBy s call).map (·.id) →
    footprintParent (call.step s).1 it = footprintParent s it
  apart : Apart (items adapter (call.step s).1) (setBy s call ++ (call.step s).1.all)
    (call.step s).1.all

instance (s : MemoryItemStore P) (call : Call P) : Decidable (Steady adapter s call) :=
  decidable_of_iff _ ⟨fun h => ⟨h.1, h.2⟩, fun h => And.intro h.parents h.apart⟩

section Step

variable {s : MemoryItemStore P} {call : Call P} {d : StoreDiff P}

/-- **What is neither listed nor rebuilt is drawn as before**: its parent is the same, and so are
its children. -/
lemma kept_of_not_rebuilt (hd : (call.step s).2 = some d) (hk : Keyed (content s))
    (h : Linked index s) (hok : Steady adapter s call) {it : StoredItem P}
    (hget : content (call.step s).1 it.id = some it) (hset : it.id ∉ (setBy s call).map (·.id))
    (hrebuilt : it ∉ rebuilt (call.step s).1 index d) :
    toRenderItems adapter (reindex (call.step s).1 index d).2 it =
      toRenderItems adapter index it := by
  have hk' := keyed_step hk call
  have hlinked := linked_reindex hd hk h hok.parents
  refine toRenderItems_congr hlinked.both h.both ?_ fun id => ?_
  · have hsame := hok.parents it ((mem_all_iff hk').mpr hget) hset
    have hbefore : content s it.id = some it := by
      have hcontent := content_step hd it.id
      rw [listed_eq_none_iff.mpr hset, Option.none_or, hget] at hcontent
      split_ifs at hcontent
      exact hcontent.symm
    rw [hlinked.parents, h.parents, hget, hbefore]
    exact hsame
  · -- a parent whose children differ is known, and would have been rebuilt
    by_contra hdiff
    have htracked : Tracked index (reindex (call.step s).1 index d) :=
      tracked_moves _ (tracked_drops _ (tracked_start h.both))
    refine hrebuilt ((mem_rebuilt_iff hk').mpr ⟨htracked.known id it.id fun heq =>
      hdiff heq.symm, ?_, hget⟩)
    rwa [lists_of_some hd]

lemma synced_step {s t : MemoryItemStore P × BoardCanvasHost δ} {call : Call P}
    (h : Synced adapter s) (hok : Steady adapter s.1 call)
    (hstep : follow (BoardCanvasHost.applyStoreDiff opts adapter) s call = some t) :
    Synced adapter t := by
  obtain ⟨store, host⟩ := s
  cases hstep
  cases hd : (call.step store).2 with
  | none =>
    rw [step_of_none hd]
    exact h
  | some d =>
    have hk := keyed_step h.keyed call
    have hlinked := linked_reindex hd h.keyed h.linked hok.parents
    have hconvert : items adapter (call.step store).1 =
        safeConvert (toRenderItems adapter (reindex (call.step store).1 host.index d).2) := by
      rw [items, toRenderItems_linked (linked_indexChildren hk) hlinked]
    have hbefore : items adapter store = safeConvert (toRenderItems adapter host.index) := by
      rw [items, toRenderItems_linked (linked_indexChildren h.keyed) h.linked]
    refine ⟨hk, hlinked, fun it hit => hok.apart it (List.mem_append_right _ hit), ?_⟩
    simp only [Option.elim_some]
    have hapart : Apart (items adapter (call.step store).1)
        (setBy store call ++ rebuilt (call.step store).1 host.index d) (call.step store).1.all := by
      refine List.forall_mem_append.mpr ⟨fun it hit => hok.apart it (List.mem_append_left _ hit),
        fun it hit => hok.apart it (List.mem_append_right _ ?_)⟩
      exact (mem_all_iff hk).mpr ((mem_rebuilt_iff hk).mp hit).2.2
    rw [hconvert] at hapart
    rw [canvas_applyStoreDiff hk, lists_of_some hd, hconvert]
    refine fits_applyItems h.fits (fun owner hl => ?_) (fun owner it hl => ?_)
      (fun owner it hl hget => ?_) (fun owner it hget => ?_) hapart
    · rw [listed_append, Option.or_eq_none_iff] at hl
      rw [content_step hd, hl.2]
      rfl
    · rw [listed_append, Option.or_eq_some_iff] at hl
      rcases hl with hl | ⟨-, hl⟩
      · obtain ⟨hmem, rfl⟩ := listed_mem hl
        exact ((mem_rebuilt_iff hk).mp hmem).2.2
      · rw [content_step hd, hl]
        rfl
    · have hid := hk owner it hget
      subst hid
      rw [listed_append, Option.or_eq_none_iff, listed_eq_none_iff, listed_eq_none_iff] at hl
      have hsame := kept_of_not_rebuilt hd h.keyed h.linked hok hget hl.2 fun hmem =>
        hl.1 (List.mem_map_of_mem hmem)
      rw [hbefore, safeConvert, safeConvert, hsame]
    · have hid := hk owner it hget
      exact ⟨(mem_all_iff hk).mpr (hid ▸ hget), hid⟩

end Step

/-- **A board is drawn as if mounted anew** after every run of steady calls. -/
theorem synced_along {start : MemoryItemStore P} {calls : List (Call P)}
    {s : MemoryItemStore P × BoardCanvasHost δ} (hk : Keyed (content start))
    (hapart : Apart (items adapter start) start.all start.all)
    (hok : Runs.Along (follow (BoardCanvasHost.applyStoreDiff opts adapter))
      (fun s call => Steady adapter s.1 call) (start, mount opts adapter {} start) calls)
    (hrun : Runs.run (follow (BoardCanvasHost.applyStoreDiff opts adapter))
      (start, mount opts adapter {} start) calls = some s) :
    SameItems s.2.canvas.scene (mount opts adapter ({} : BoardCanvasHost δ) s.1).canvas.scene := by
  have hs : Synced adapter s := Runs.invariant_along (Synced adapter)
    (fun _ _ _ hinv hok hstep => synced_step hinv hok hstep) (synced_mount hk hapart) hok hrun
  exact same_of_fits hs.fits (synced_mount hs.keyed hs.apart).fits

/-- **Diffs one by one, and a fresh host.** A board and a schematic that follow the calls on a store
show what a host shows that is mounted on the store in the end, if each call is steady. -/
theorem incremental_along (opts : SceneOptions δ) (start calls : List (Call P)) :
    let store := (run (MemoryItemStore.new : MemoryItemStore P) start).1
    (∀ (adapter : BoardAdapter P) (s : MemoryItemStore P × BoardCanvasHost δ),
      Apart (items adapter store) store.all store.all →
      Runs.Along (follow (BoardCanvasHost.applyStoreDiff opts adapter))
        (fun s call => Steady adapter s.1 call) (store, mount opts adapter {} store) calls →
      Runs.run (follow (BoardCanvasHost.applyStoreDiff opts adapter))
        (store, mount opts adapter {} store) calls = some s →
      SameItems s.2.canvas.scene (mount opts adapter {} s.1).canvas.scene) ∧
    ∀ (adapter : SchematicAdapter P) (s : MemoryItemStore P × SchematicCanvasHost δ),
      Apart (Schematic.items adapter store) store.all store.all →
      Runs.Along (follow (SchematicCanvasHost.applyStoreDiff opts adapter))
        (fun s call => Schematic.Steady adapter s.1 call)
        (store, SchematicCanvasHost.mount opts adapter {} store) calls →
      Runs.run (follow (SchematicCanvasHost.applyStoreDiff opts adapter))
        (store, SchematicCanvasHost.mount opts adapter {} store) calls = some s →
      SameItems s.2.canvas.scene
        (SchematicCanvasHost.mount opts adapter {} s.1).canvas.scene := by
  intro store
  have hk : Keyed (content store) := (indexed_run indexed_new start).keyed
  exact ⟨fun adapter s hapart hok hrun => synced_along hk hapart hok hrun,
    fun adapter s hapart hok hrun => Schematic.synced_along hk hapart hok hrun⟩

/-! ### A footprint, a symbol and their children -/

section Runs

open SceneCache (plainScene)

/-- Silk, drawn from the store or from the definition of a footprint. -/
def silk (id owner : String) : RenderItem where
  object := 0
  id := id
  layer := "BL_F_SilkS"
  prims := [.segment ⟨0, 0⟩ ⟨10, 0⟩ 1]
  bbox := some (⟨0, 0⟩, ⟨10, 0⟩)
  owner := some owner

/-- A body has no primitives. -/
def body (id layer : String) : RenderItem where
  object := 0
  id := id
  layer := layer
  prims := []
  bbox := some (⟨0, 0⟩, ⟨10, 10⟩)
  owner := some id

/-- Shapes, and footprints, whose message is the list of the shapes of their definition. -/
def shapesAndFootprints : BoardAdapter (List String) := fun it storeChild owner =>
  if it.type = "KOT_PCB_SHAPE" then some [silk it.id (owner.getD it.id)]
  else if it.type = "KOT_PCB_FOOTPRINT" then
    some ((it.proto.filter fun kiid => !storeChild.any (· kiid)).map (silk · it.id) ++
      [silk (it.id ++ "@anchor") it.id, body it.id "BL_F_Cu"])
  else some []

/-- Symbols, and fields that are not drawn by a symbol. -/
def symbolsAndFields : SchematicAdapter (List String) := fun it =>
  if it.type = "KOT_SCH_FIELD" then some [silk it.id it.id]
  else if it.type = "KOT_SCH_SYMBOL" then some [body it.id "schematic.device"]
  else some []

def shape : StoredItem (List String) :=
  ⟨"line", "KOT_PCB_SHAPE", some "BL_F_SilkS", none, some "R1", []⟩

def footprint (shapes : List String) : StoredItem (List String) :=
  ⟨"R1", "KOT_PCB_FOOTPRINT", some "BL_F_Cu", none, none, shapes⟩

def field : StoredItem (List String) := ⟨"value", "KOT_SCH_FIELD", none, none, some "U1", []⟩

def symbol : StoredItem (List String) := ⟨"U1", "KOT_SCH_SYMBOL", none, none, none, []⟩

/-- A shape that a footprint leaves to the store, and that outlives it; a field that goes to the
sheet when its symbol goes, in one diff. -/
theorem incremental_children :
    (∃ s, Runs.run (follow (BoardCanvasHost.applyStoreDiff plainScene shapesAndFootprints))
        (.new, mount plainScene shapesAndFootprints {} .new)
        [.apply { added := [footprint ["line"]] }, .apply { added := [shape] },
          .apply { removed := ["R1"], updated := [shape] }] = some s ∧
      SameItems s.2.canvas.scene (mount plainScene shapesAndFootprints {} s.1).canvas.scene) ∧
    ∃ s, Runs.run (follow (SchematicCanvasHost.applyStoreDiff plainScene symbolsAndFields))
        (.new, SchematicCanvasHost.mount plainScene symbolsAndFields {} .new)
        [.apply { added := [symbol, field] },
          .apply { removed := ["U1"], updated := [field] }] = some s ∧
      SameItems s.2.canvas.scene
        (SchematicCanvasHost.mount plainScene symbolsAndFields {} s.1).canvas.scene :=
  ⟨⟨_, rfl, (incremental_along plainScene [] [.apply { added := [footprint ["line"]] },
      .apply { added := [shape] }, .apply { removed := ["R1"], updated := [shape] }]).1
      shapesAndFootprints _ (by decide +kernel) (by decide +kernel) rfl⟩,
    ⟨_, rfl, (incremental_along plainScene [] [.apply { added := [symbol, field] },
      .apply { removed := ["U1"], updated := [field] }]).2
      symbolsAndFields _ (by decide +kernel) (by decide +kernel) rfl⟩⟩

/-- The ids of the items, and their owners. -/
def owners (scene : Scene Unit) : List (String × Option String) :=
  (seen scene).map fun v => (v.1, v.2.1)

lemma owners_of_same {scene other : Scene Unit} (h : SameItems scene other)
    {w : String × Option String} (hw : w ∈ owners scene) : w ∈ owners other := by
  obtain ⟨v, hv, rfl⟩ := List.mem_map.mp hw
  exact List.mem_map_of_mem ((h v).mp hv)

/-- **A parent that comes after its child.** The shape is not owned by its footprint, and the field
is drawn beside its symbol. -/
theorem not_incremental :
    (∃ s, Runs.run (follow (BoardCanvasHost.applyStoreDiff plainScene shapesAndFootprints))
        (.new, mount plainScene shapesAndFootprints {} .new)
        [.apply { added := [shape] }, .apply { added := [footprint []] }] = some s ∧
      ¬ SameItems s.2.canvas.scene
        (mount plainScene shapesAndFootprints {} s.1).canvas.scene) ∧
    ∃ s, Runs.run (follow (SchematicCanvasHost.applyStoreDiff plainScene symbolsAndFields))
        (.new, SchematicCanvasHost.mount plainScene symbolsAndFields {} .new)
        [.apply { added := [field] }, .apply { added := [symbol] }] = some s ∧
      ¬ SameItems s.2.canvas.scene
        (SchematicCanvasHost.mount plainScene symbolsAndFields {} s.1).canvas.scene := by
  refine ⟨⟨_, rfl, fun h => ?_⟩, ⟨_, rfl, fun h => ?_⟩⟩
  · have hshape := owners_of_same h (w := ("line", some "line")) (by decide +kernel)
    exact absurd hshape (by decide +kernel)
  · have hfield := owners_of_same h (w := ("value", some "value")) (by decide +kernel)
    exact absurd hfield (by decide +kernel)

end Runs

end FabPcb.BoardRuns
