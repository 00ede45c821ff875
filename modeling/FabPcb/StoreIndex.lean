import FabPcb.StoreContent

/-!
The indexes of the store against its items.

The three indexes are kept by one pair of functions and differ in the key they read off an
item, so an index is treated as a projection of the store that `index` and `unindex` update
through its key. The loops of `apply` break the correspondence on the way, the removal loop
by a known set of ids, and restore it at their end.
-/

namespace FabPcb.StoreIndex

open OrderedMap Writes ItemStore StoreContent MemoryItemStore

variable {P : Type*}

/-- `id` is in the set an index keeps under `k`. -/
def Holds (idx : Index) (k id : String) : Prop := ∃ ids, idx.get? k = some ids ∧ ids.has id = true

def NoEmpty (idx : Index) : Prop := ∀ k ids, idx.get? k = some ids → ids.size ≠ 0

/-! ### One entry -/

lemma holds_add (idx : Index) (k id k' id' : String) :
    Holds (add idx k id) k' id' ↔ Holds idx k' id' ∨ (k' = k ∧ id' = id) := by
  unfold Holds add
  by_cases hk : k' = k
  · subst hk
    cases hs : idx.get? k' with
    | none => simp
    | some s => simp [or_comm]
  · simp [hk]

lemma noEmpty_add {idx : Index} (h : NoEmpty idx) (k id : String) : NoEmpty (add idx k id) := by
  intro k' ids hget
  unfold add at hget
  rw [OMap.get?_set] at hget
  split_ifs at hget with hk
  · cases hget
    intro hz
    have := OMap.size_eq_zero_iff.mp hz id
    simp at this
  · exact h k' ids hget

lemma holds_del (idx : Index) (k id k' id' : String) :
    Holds (del idx k id) k' id' ↔ Holds idx k' id' ∧ ¬ (k' = k ∧ id' = id) := by
  unfold Holds del
  cases hs : idx.get? k with
  | none =>
    by_cases hk : k' = k
    · subst hk; simp [hs]
    · simp [hk]
  | some s =>
    by_cases hk : k' = k
    · subst hk
      by_cases hz : (s.delete id).size = 0
      · -- the set held nothing but `id`
        have hnone := OMap.size_eq_zero_iff.mp hz id'
        by_cases hid : id' = id
        · simp [hz, hs, hid]
        · simp [hid] at hnone
          simp [hz, hs, OMap.has, hnone]
      · simp [hz, hs, and_comm]
    · by_cases hz : (s.delete id).size = 0 <;> simp [hz, hk]

lemma noEmpty_del {idx : Index} (h : NoEmpty idx) (k id : String) : NoEmpty (del idx k id) := by
  intro k' ids hget
  unfold del at hget
  cases hs : idx.get? k with
  | none => rw [hs] at hget; exact h k' ids hget
  | some s =>
    rw [hs] at hget
    simp only at hget
    split_ifs at hget with hz
    · rw [OMap.get?_delete] at hget
      split_ifs at hget with hk
      exact h k' ids hget
    · rw [OMap.get?_set] at hget
      split_ifs at hget with hk
      · cases hget; exact hz
      · exact h k' ids hget

/-! ### One item, through its key -/

def addKey (key : StoredItem P → Option String) (idx : Index) (it : StoredItem P) : Index :=
  match key it with
  | some k => add idx k it.id
  | none => idx

def delKey (key : StoredItem P → Option String) (idx : Index) (it : StoredItem P) : Index :=
  match key it with
  | some k => del idx k it.id
  | none => idx

variable {key : StoredItem P → Option String}

lemma holds_addKey (idx : Index) (it : StoredItem P) (k id : String) :
    Holds (addKey key idx it) k id ↔ Holds idx k id ∨ (key it = some k ∧ id = it.id) := by
  unfold addKey
  cases hk : key it with
  | none => simp
  | some k' => simp [holds_add, eq_comm]

lemma holds_delKey (idx : Index) (it : StoredItem P) (k id : String) :
    Holds (delKey key idx it) k id ↔ Holds idx k id ∧ ¬ (key it = some k ∧ id = it.id) := by
  unfold delKey
  cases hk : key it with
  | none => simp
  | some k' => simp [holds_del, eq_comm]

lemma noEmpty_addKey {idx : Index} (h : NoEmpty idx) (it : StoredItem P) :
    NoEmpty (addKey key idx it) := by
  unfold addKey
  split
  · exact noEmpty_add h _ _
  · exact h

lemma noEmpty_delKey {idx : Index} (h : NoEmpty idx) (it : StoredItem P) :
    NoEmpty (delKey key idx it) := by
  unfold delKey
  split
  · exact noEmpty_del h _ _
  · exact h

/-- A field of the store that `index` and `unindex` keep by `key`. -/
structure IsIndex (proj : MemoryItemStore P → Index) (key : StoredItem P → Option String) :
    Prop where
  index : ∀ s it, proj (s.index it) = addKey key (proj s) it
  unindex : ∀ s it, proj (s.unindex it) = delKey key (proj s) it
  items : ∀ s items, proj { s with items := items } = proj s
  rev : ∀ s rev, proj { s with rev := rev } = proj s
  new : proj new = OMap.empty

def typeKey (it : StoredItem P) : Option String := some it.type
def layerKey (it : StoredItem P) : Option String := truthy it.layer
def netKey (it : StoredItem P) : Option String := truthy it.net

lemma isIndex_type : IsIndex (P := P) typeIdx typeKey :=
  ⟨fun _ _ => rfl, fun _ _ => rfl, fun _ _ => rfl, fun _ _ => rfl, rfl⟩

lemma isIndex_layer : IsIndex (P := P) layerIdx layerKey :=
  ⟨fun _ _ => rfl, fun _ _ => rfl, fun _ _ => rfl, fun _ _ => rfl, rfl⟩

lemma isIndex_net : IsIndex (P := P) netIdx netKey :=
  ⟨fun _ _ => rfl, fun _ _ => rfl, fun _ _ => rfl, fun _ _ => rfl, rfl⟩

/-! ### The loops of `apply` -/

/-- The index holds the items of `m` under their keys, those of `out` left out. -/
structure ExactBut (m : Content P) (idx : Index) (key : StoredItem P → Option String)
    (out : List String) : Prop where
  holds : ∀ k id, Holds idx k id ↔ (∃ it, m id = some it ∧ key it = some k) ∧ id ∉ out
  noEmpty : NoEmpty idx

abbrev Exact (m : Content P) (idx : Index) (key : StoredItem P → Option String) : Prop :=
  ExactBut m idx key []

variable {proj : MemoryItemStore P → Index}

lemma exactBut_unindexId (hp : IsIndex proj key) {s : MemoryItemStore P} {out : List String}
    (hk : Keyed (content s)) (h : ExactBut (content s) (proj s) key out) (id : String) :
    ExactBut (content s) (proj (s.unindexId id)) key (out ++ [id]) := by
  unfold unindexId
  cases hg : s.items.get? id with
  | none =>
    have hno : content s id = none := hg
    refine ⟨fun k x => ?_, h.noEmpty⟩
    rw [h.holds]
    by_cases hx : x = id
    · subst hx; simp [hno]
    · simp [hx]
  | some it =>
    have hid : it.id = id := hk id it hg
    have hit : content s id = some it := hg
    refine ⟨fun k x => ?_, ?_⟩
    · simp only [hp.unindex, holds_delKey, h.holds]
      by_cases hx : x = id
      · subst hx; simp [hit, hid]; exact fun h _ => h
      · simp [hid, hx]
    · simp only [hp.unindex]
      exact noEmpty_delKey h.noEmpty it

lemma exactBut_foldl_unindexId (hp : IsIndex proj key) (ids : List String) {s : MemoryItemStore P}
    {out : List String} (hk : Keyed (content s)) (h : ExactBut (content s) (proj s) key out) :
    ExactBut (content s) (proj (ids.foldl unindexId s)) key (out ++ ids) := by
  induction ids generalizing s out with
  | nil => simpa using h
  | cons id ids ih =>
    have hc : content (s.unindexId id) = content s := by
      funext x; simp [content, MemoryItemStore.get]
    have hstep := exactBut_unindexId hp hk h id
    have := @ih (s.unindexId id) (out ++ [id]) (hc ▸ hk) (hc ▸ hstep)
    rw [hc] at this
    simpa using this

lemma proj_foldl_deleteId (hp : IsIndex proj key) (ids : List String) (s : MemoryItemStore P) :
    proj (ids.foldl deleteId s) = proj s := by
  induction ids generalizing s with
  | nil => rfl
  | cons id ids ih => rw [List.foldl_cons, ih]; exact hp.items s _

/-- Both removal loops together leave an exact index. -/
lemma exact_removals (hp : IsIndex proj key) (ids : List String) {s : MemoryItemStore P}
    (hk : Keyed (content s)) (h : Exact (content s) (proj s) key) :
    Exact (content (ids.foldl deleteId (ids.foldl unindexId s)))
      (proj (ids.foldl deleteId (ids.foldl unindexId s))) key := by
  have hu := exactBut_foldl_unindexId hp ids hk h
  have hc : content (ids.foldl unindexId s) = content s := by
    funext x; simp [content, MemoryItemStore.get, foldl_unindexId_items]
  rw [proj_foldl_deleteId hp, content_foldl_deleteId, hc]
  refine ⟨fun k id => ?_, hu.noEmpty⟩
  rw [hu.holds]
  by_cases hid : id ∈ ids
  · have hdel : writeAll (content s) (ids.map fun id => (id, none)) id = none := by
      have hmem : id ∈ (ids.map fun id => (id, (none : Option (StoredItem P)))).map Prod.fst := by
        simpa [List.map_map] using hid
      obtain ⟨v, hv⟩ := Option.isSome_iff_exists.mp (lastWrite_isSome_iff.mpr hmem)
      obtain ⟨_, -, he⟩ := List.mem_map.mp (mem_of_lastWrite hv)
      rw [writeAll_apply, hv, ← (Prod.mk.inj he).2]
      rfl
    simp [hid, hdel]
  · have hkeep : writeAll (content s) (ids.map fun id => (id, none)) id = content s id :=
      writeAll_of_notMem (by simpa [List.map_map] using hid)
    simp [hid, hkeep]

lemma exact_put (hp : IsIndex proj key) {s : MemoryItemStore P} (hk : Keyed (content s))
    (h : Exact (content s) (proj s) key) (it : StoredItem P) :
    Exact (content (s.put it)) (proj (s.put it)) key := by
  have hu := exactBut_unindexId hp hk h it.id
  have hproj : proj (s.put it) = addKey key (proj (s.unindexId it.id)) it := by
    unfold put
    rw [hp.index, hp.items]
  refine ⟨fun k id => ?_, hproj ▸ noEmpty_addKey hu.noEmpty it⟩
  rw [hproj, holds_addKey, hu.holds, content_put]
  by_cases hid : id = it.id
  · subst hid; simp
  · simp [hid]

lemma keyed_put {s : MemoryItemStore P} (hk : Keyed (content s)) (it : StoredItem P) :
    Keyed (content (s.put it)) := by
  intro id x hx
  rw [content_put] at hx
  by_cases hid : id = it.id
  · subst hid; simp at hx; rw [← hx]
  · rw [Function.update_of_ne hid] at hx; exact hk id x hx

lemma keyed_foldl_deleteId (ids : List String) {s : MemoryItemStore P} (hk : Keyed (content s)) :
    Keyed (content (ids.foldl deleteId s)) := by
  induction ids generalizing s with
  | nil => exact hk
  | cons id ids ih =>
    refine ih fun x it hx => ?_
    rw [content_deleteId] at hx
    by_cases h : x = id
    · subst h; simp at hx
    · rw [Function.update_of_ne h] at hx; exact hk x it hx

lemma exact_foldl_put (hp : IsIndex proj key) (items : List (StoredItem P))
    {s : MemoryItemStore P} (hk : Keyed (content s)) (h : Exact (content s) (proj s) key) :
    Exact (content (items.foldl put s)) (proj (items.foldl put s)) key := by
  induction items generalizing s with
  | nil => exact h
  | cons it items ih => exact ih (keyed_put hk it) (exact_put hp hk h it)

/-- **Step**: `apply` keeps an exact index exact, whatever ids the patch repeats. -/
theorem exact_apply (hp : IsIndex proj key) {s : MemoryItemStore P} (hk : Keyed (content s))
    (h : Exact (content s) (proj s) key) (p : StorePatch P) :
    Exact (content (s.apply p).1) (proj (s.apply p).1) key := by
  cases hd : (s.apply p).2 with
  | none => rwa [apply_fst_of_none hd]
  | some d =>
    obtain ⟨-, hs⟩ := apply_of_some hd
    rw [hs, hp.rev]
    have hc : content (s.removedBy p |>.foldl unindexId s) = content s := by
      funext x; simp [content, MemoryItemStore.get, foldl_unindexId_items]
    exact exact_foldl_put hp _ (keyed_foldl_deleteId _ (hc ▸ hk)) (exact_removals hp _ hk h)

lemma exact_new (hp : IsIndex proj key) :
    Exact (content (MemoryItemStore.new : MemoryItemStore P)) (proj MemoryItemStore.new) key := by
  rw [hp.new]
  refine ⟨fun k id => ?_, fun k ids h => by simp at h⟩
  simp [Holds, content, MemoryItemStore.get, MemoryItemStore.new]

/-! ### What the queries answer -/

/-- An index of a store is exact: the set under a key is the ids of the items carrying the
key, no empty set is kept, the query under a key yields the items carrying it once each,
and the list of keys is the keys in use. -/
structure IndexExact (s : MemoryItemStore P) (idx : Index) (key : StoredItem P → Option String)
    (query : String → List (StoredItem P)) (used : List String) : Prop where
  sets : ∀ k id, (∃ ids, idx.get? k = some ids ∧ ids.has id = true) ↔
    ∃ it, s.get id = some it ∧ key it = some k
  noEmpty : ∀ k ids, idx.get? k = some ids → ids.size ≠ 0
  query : ∀ k, (query k).Perm (s.all.filter fun it => key it = some k)
  usedNodup : used.Nodup
  used : ∀ k, k ∈ used ↔ ∃ it ∈ s.all, key it = some k

lemma all_nodup {s : MemoryItemStore P} (hk : Keyed (content s)) : s.all.Nodup :=
  OMap.values_nodup fun k v h => hk k v h

lemma mem_all_iff {s : MemoryItemStore P} (hk : Keyed (content s)) {it : StoredItem P} :
    it ∈ s.all ↔ s.get it.id = some it := by
  unfold MemoryItemStore.all MemoryItemStore.get
  rw [OMap.mem_values_iff]
  constructor
  · rintro ⟨k, h⟩
    rwa [hk k it h]
  · exact fun h => ⟨it.id, h⟩

lemma filterIds_perm {s : MemoryItemStore P} {idx : Index} (hk : Keyed (content s))
    (h : Exact (content s) idx key) (k : String) :
    (s.filterIds (idx.get? k)).Perm (s.all.filter fun it => key it = some k) := by
  have hmem : ∀ it, it ∈ s.filterIds (idx.get? k) ↔ s.get it.id = some it ∧ key it = some k := by
    intro it
    have hh := h.holds k it.id
    simp only [List.not_mem_nil, not_false_eq_true, and_true, Holds] at hh
    unfold filterIds
    cases hs : idx.get? k with
    | none =>
      rw [hs] at hh
      simp only [List.not_mem_nil, false_iff, not_and]
      intro hg hkey
      obtain ⟨ids, hids, -⟩ := hh.mpr ⟨it, hg, hkey⟩
      cases hids
    | some ids =>
      rw [hs] at hh
      simp only [List.mem_filterMap]
      constructor
      · rintro ⟨id, hid, hg⟩
        have hii : it.id = id := hk id it hg
        subst hii
        obtain ⟨it', hg', hkey⟩ := hh.mp ⟨ids, rfl, OMap.mem_keys_iff_has.mp hid⟩
        rw [show content s it.id = some it from hg] at hg'
        cases hg'
        exact ⟨hg, hkey⟩
      · rintro ⟨hg, hkey⟩
        obtain ⟨ids', hids, hhas⟩ := hh.mpr ⟨it, hg, hkey⟩
        cases hids
        exact ⟨it.id, OMap.mem_keys_iff_has.mpr hhas, hg⟩
  have hnodup : (s.filterIds (idx.get? k)).Nodup := by
    unfold filterIds
    split
    · exact List.nodup_nil
    · rename_i ids _
      refine ids.keys_nodup.filterMap fun a b it ha hb => ?_
      rw [← hk a it ha, ← hk b it hb]
  refine (List.perm_ext_iff_of_nodup hnodup ((all_nodup hk).filter _)).mpr fun it => ?_
  rw [hmem, List.mem_filter, mem_all_iff hk, decide_eq_true_iff]

lemma mem_keys_iff_holds {idx : Index} (h : NoEmpty idx) (k : String) :
    k ∈ idx.keys ↔ ∃ id, Holds idx k id := by
  rw [OMap.mem_keys_iff]
  constructor
  · rintro ⟨ids, hids⟩
    have hne := h k ids hids
    rw [ne_eq, OMap.size_eq_zero_iff, not_forall] at hne
    obtain ⟨id, hid⟩ := hne
    exact ⟨id, ids, hids, OMap.has_iff_ne.mpr hid⟩
  · rintro ⟨id, ids, hids, -⟩
    exact ⟨ids, hids⟩

lemma indexExact_of_exact {s : MemoryItemStore P} {idx : Index} (hk : Keyed (content s))
    (h : Exact (content s) idx key) :
    IndexExact s idx key (fun k => s.filterIds (idx.get? k)) idx.keys := by
  have hsets : ∀ k id, Holds idx k id ↔ ∃ it, s.get id = some it ∧ key it = some k := by
    intro k id
    simpa [content] using h.holds k id
  refine ⟨hsets, h.noEmpty, filterIds_perm hk h, idx.keys_nodup, fun k => ?_⟩
  rw [mem_keys_iff_holds h.noEmpty]
  constructor
  · rintro ⟨id, hid⟩
    obtain ⟨it, hg, hkey⟩ := (hsets k id).mp hid
    have hii : it.id = id := hk id it hg
    subst hii
    exact ⟨it, (mem_all_iff hk).mpr hg, hkey⟩
  · rintro ⟨it, hit, hkey⟩
    exact ⟨it.id, (hsets k it.id).mpr ⟨it, (mem_all_iff hk).mp hit, hkey⟩⟩

/-! ### Every reachable store -/

lemma mutate_rev (s : MemoryItemStore P) (added updated : List (StoredItem P))
    (removed : List String) : (s.mutate added updated removed).rev = s.rev := by
  have hput : ∀ (items : List (StoredItem P)) (s : MemoryItemStore P),
      (items.foldl put s).rev = s.rev := by
    intro items
    induction items with
    | nil => exact fun _ => rfl
    | cons it items ih =>
      intro s
      rw [List.foldl_cons, ih]
      exact foldl_unindexId_rev [it.id] s
  have hdel : ∀ (ids : List String) (s : MemoryItemStore P),
      (ids.foldl deleteId s).rev = s.rev := by
    intro ids
    induction ids with
    | nil => exact fun _ => rfl
    | cons id ids ih => exact fun s => ih _
  rw [mutate, hput, hdel, foldl_unindexId_rev]

lemma apply_rev {s : MemoryItemStore P} {p : StorePatch P} {d : StoreDiff P}
    (h : (s.apply p).2 = some d) : (s.apply p).1.rev = s.rev + 1 ∧ d.revision = s.rev + 1 := by
  obtain ⟨hd, hs⟩ := apply_of_some h
  rw [hs, hd, mutate_rev]
  exact ⟨rfl, rfl⟩

/-- The three indexes of a store are exact. -/
structure Indexed (s : MemoryItemStore P) : Prop where
  keyed : Keyed (content s)
  type : Exact (content s) s.typeIdx typeKey
  layer : Exact (content s) s.layerIdx layerKey
  net : Exact (content s) s.netIdx netKey

lemma indexed_new : Indexed (MemoryItemStore.new : MemoryItemStore P) :=
  ⟨keyed_new, exact_new isIndex_type, exact_new isIndex_layer, exact_new isIndex_net⟩

lemma indexed_apply {s : MemoryItemStore P} (h : Indexed s) (p : StorePatch P) :
    Indexed (s.apply p).1 :=
  ⟨keyed_apply h.keyed p, exact_apply isIndex_type h.keyed h.type p,
    exact_apply isIndex_layer h.keyed h.layer p, exact_apply isIndex_net h.keyed h.net p⟩

variable [DecidableEq P]

lemma indexed_run {s : MemoryItemStore P} (h : Indexed s) (calls : List (Call P)) :
    Indexed (run s calls).1 := by
  induction calls generalizing s with
  | nil => exact h
  | cons call calls ih =>
    refine ih ?_
    rw [Call.step_eq]
    exact indexed_apply h _

/-- **The index invariant.** After any calls, the type, layer and net indexes are exact, an
item without a layer or net, or with an empty one, having no key there; and a further call
raises the revision by one when it emits a diff and changes nothing when it does not. -/
theorem index_invariant (calls : List (Call P)) :
    let s := (run MemoryItemStore.new calls).1
    IndexExact s s.typeIdx typeKey s.byType s.types ∧
    IndexExact s s.layerIdx layerKey s.byLayer s.layers ∧
    IndexExact s s.netIdx netKey s.byNet s.nets ∧
    ∀ call : Call P, match (call.step s).2 with
      | some d => (call.step s).1.rev = s.rev + 1 ∧ d.revision = s.rev + 1
      | none => (call.step s).1 = s := by
  intro s
  have h : Indexed s := indexed_run indexed_new calls
  refine ⟨indexExact_of_exact h.keyed h.type, indexExact_of_exact h.keyed h.layer,
    indexExact_of_exact h.keyed h.net, fun call => ?_⟩
  rw [Call.step_eq]
  split
  · rename_i d hd
    exact apply_rev hd
  · rename_i hd
    exact apply_fst_of_none hd

/-- An item whose layer is the empty string is in no layer set, so `byLayer` misses it
when the layer itself is taken for the key. -/
theorem empty_layer_not_indexed :
    let s := (run (MemoryItemStore.new : MemoryItemStore Unit)
      [.apply { added := [⟨"a", "KOT_PCB_TRACE", some "", none, none, ()⟩] }]).1
    s.byLayer "" = [] ∧ s.all = [⟨"a", "KOT_PCB_TRACE", some "", none, none, ()⟩] ∧
    ¬ IndexExact s s.layerIdx (·.layer) s.byLayer s.layers := by
  refine ⟨by decide, by decide, fun h => ?_⟩
  have hp := h.query ""
  have hl : ([] : List (StoredItem Unit)).length = 1 := hp.length_eq
  simp at hl

end FabPcb.StoreIndex
