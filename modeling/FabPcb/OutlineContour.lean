import FabPcb.Outline
import Mathlib.Data.List.Rotate

/-!
What the tests of an outline say of a closed polygon.

`outlineMatches` compares the sides as unordered pairs, counted. The sides of a polygon are a single
closed contour just when none of its points comes twice.
-/

namespace FabPcb.OutlineContour

open OrderedMap Worklist Outline

/-! ### Counting sides -/

lemma get?_foldl_count (keys : List (Sym2 Vec2)) (m : OMap (Sym2 Vec2) ℕ) (k : Sym2 Vec2) :
    (keys.foldl (fun counts key => counts.set key ((counts.get? key).getD 0 + 1)) m).get? k =
      if k ∈ keys then some ((m.get? k).getD 0 + keys.count k) else m.get? k := by
  induction keys generalizing m with
  | nil => simp
  | cons a keys ih =>
    rw [List.foldl_cons, ih]
    by_cases hak : a = k
    · subst hak
      by_cases hmem : a ∈ keys
      · simp [hmem]
        omega
      · simp [hmem, List.count_eq_zero_of_not_mem hmem]
    · have hka : k ≠ a := Ne.symm hak
      simp [hak, hka]

lemma get?_countKeys (keys : List (Sym2 Vec2)) (k : Sym2 Vec2) :
    (countKeys keys).get? k = if k ∈ keys then some (keys.count k) else none := by
  rw [countKeys, get?_foldl_count]
  simp

lemma mem_keys_countKeys {keys : List (Sym2 Vec2)} {k : Sym2 Vec2} :
    k ∈ (countKeys keys).keys ↔ k ∈ keys := by
  rw [OMap.mem_keys_iff, get?_countKeys]
  split
  next h => exact ⟨fun _ => h, fun _ => ⟨_, rfl⟩⟩
  next h => exact ⟨fun ⟨_, hv⟩ => absurd hv (by simp), fun hk => absurd hk h⟩

/-- **The outline matches** just when the sides are the same, whichever way they run. -/
theorem outlineMatches_iff {edges : List BoardShape} {points : List Vec2} :
    outlineMatches edges points = true ↔
      ((segmentsOf edges).map segmentKey).Perm ((sides points).map segmentKey) := by
  let actual := (segmentsOf edges).map segmentKey
  let expected := (sides points).map segmentKey
  have hsize : ∀ keys : List (Sym2 Vec2), (countKeys keys).size = (countKeys keys).keys.length :=
    fun keys => (List.length_map _).symm
  have hsplit : outlineMatches edges points = true ↔
      (countKeys actual).size = (countKeys expected).size ∧
        ∀ e ∈ (countKeys expected).entries, (countKeys actual).get? e.1 = some e.2 := by
    unfold outlineMatches
    rw [Bool.and_eq_true, List.all_eq_true]
    simp only [decide_eq_true_iff]
    exact Iff.rfl
  rw [hsplit]
  constructor
  · rintro ⟨hlen, hall⟩
    have hcount : ∀ k ∈ expected, k ∈ actual ∧ actual.count k = expected.count k := by
      intro k hk
      have hentry : (k, expected.count k) ∈ (countKeys expected).entries := by
        rw [← OMap.get?_eq_some_iff, get?_countKeys, if_pos hk]
      have hactual := hall _ hentry
      rw [get?_countKeys] at hactual
      split at hactual
      next hmem => exact ⟨hmem, Option.some.inj hactual⟩
      · cases hactual
    have hsub : (countKeys expected).keys ⊆ (countKeys actual).keys := by
      intro k hk
      exact mem_keys_countKeys.mpr (hcount k (mem_keys_countKeys.mp hk)).1
    have hperm : (countKeys expected).keys.Perm (countKeys actual).keys := by
      refine (List.subperm_of_subset (OMap.keys_nodup _) hsub).perm_of_length_le ?_
      rw [← hsize, ← hsize, hlen]
    refine List.perm_iff_count.mpr fun k => ?_
    by_cases hk : k ∈ expected
    · exact (hcount k hk).2
    · have hk' : k ∉ actual := by
        intro hmem
        exact hk (mem_keys_countKeys.mp (hperm.mem_iff.mpr (mem_keys_countKeys.mpr hmem)))
      rw [List.count_eq_zero_of_not_mem hk, List.count_eq_zero_of_not_mem hk']
  · intro hperm
    have hget : ∀ k, (countKeys actual).get? k = (countKeys expected).get? k := by
      intro k
      rw [get?_countKeys, get?_countKeys, hperm.count_eq k]
      simp only [hperm.mem_iff, actual, expected]
    have hkeys : (countKeys actual).keys.Perm (countKeys expected).keys := by
      refine (List.perm_ext_iff_of_nodup (OMap.keys_nodup _) (OMap.keys_nodup _)).mpr fun k => ?_
      rw [OMap.mem_keys_iff, OMap.mem_keys_iff, hget]
    refine ⟨by rw [hsize, hsize, hkeys.length_eq], fun e he => ?_⟩
    rw [hget, OMap.get?_eq_some_iff]
    exact he

/-! ### The sides of a polygon -/

lemma length_sides (points : List Vec2) : (sides points).length = points.length := by
  simp [sides]

lemma getElem_sides {points : List Vec2} {i : ℕ} (h : i < points.length) :
    getElem (sides points) i (by rw [length_sides]; exact h) =
      (points[i], getElem points ((i + 1) % points.length) (Nat.mod_lt _ (by omega))) := by
  simp [sides, List.getElem_rotate]

lemma mem_sides {points : List Vec2} {a b : Vec2} :
    (a, b) ∈ sides points ↔ ∃ (i : ℕ) (h : i < points.length), a = points[i] ∧
      b = getElem points ((i + 1) % points.length) (Nat.mod_lt _ (by omega)) := by
  constructor
  · intro hmem
    obtain ⟨i, hi, hs⟩ := List.mem_iff_getElem.mp hmem
    rw [length_sides] at hi
    rw [getElem_sides hi] at hs
    exact ⟨i, hi, (Prod.mk.inj hs).1.symm, (Prod.mk.inj hs).2.symm⟩
  · rintro ⟨i, hi, rfl, rfl⟩
    rw [← getElem_sides hi]
    exact List.getElem_mem _

lemma sides_map (f : Vec2 → Vec2) (points : List Vec2) :
    sides (points.map f) = (sides points).map fun s => (f s.1, f s.2) := by
  rw [sides, ← List.map_rotate, List.zip_map]
  rfl

/-! ### Neighbours -/

lemma get?_addNeighbor (m : OMap Vec2 (List Vec2)) (p q x : Vec2) :
    ((addNeighbor m p q).get? x).getD [] =
      if p = x then (if q ∈ (m.get? p).getD [] then (m.get? p).getD []
        else (m.get? p).getD [] ++ [q]) else (m.get? x).getD [] := by
  rw [addNeighbor]
  by_cases h : x = p
  · subst h
    simp
  · simp [h, Ne.symm h]

lemma mem_addNeighbor {m : OMap Vec2 (List Vec2)} {p q x y : Vec2} :
    y ∈ ((addNeighbor m p q).get? x).getD [] ↔
      y ∈ (m.get? x).getD [] ∨ x = p ∧ y = q := by
  rw [get?_addNeighbor]
  by_cases hp : p = x
  · subst hp
    rw [if_pos rfl]
    split
    next hq =>
      exact ⟨Or.inl, fun h => h.elim id fun h => h.2 ▸ hq⟩
    · simp
  · rw [if_neg hp]
    exact ⟨Or.inl, fun h => h.resolve_right fun h => hp h.1.symm⟩

lemma nodup_addNeighbor {m : OMap Vec2 (List Vec2)} {p q x : Vec2}
    (h : ∀ x, ((m.get? x).getD []).Nodup) : (((addNeighbor m p q).get? x).getD []).Nodup := by
  rw [get?_addNeighbor]
  split
  · split
    · exact h p
    next hq =>
      refine List.nodup_append.mpr ⟨h p, List.nodup_singleton q, fun a ha b hb hab => hq ?_⟩
      rw [← List.mem_singleton.mp hb, ← hab]
      exact ha
  · exact h x

lemma mem_keys_addNeighbor {m : OMap Vec2 (List Vec2)} {p q x : Vec2} :
    x ∈ (addNeighbor m p q).keys ↔ x ∈ m.keys ∨ x = p := by
  rw [OMap.mem_keys_iff_has, OMap.mem_keys_iff_has, addNeighbor]
  simp [or_comm]

/-- The map of neighbours: its keys are the ends of the segments, and each has the points at the
other ends, once. -/
structure Adjacency (segments : List (Vec2 × Vec2)) (m : OMap Vec2 (List Vec2)) : Prop where
  keys : ∀ x, x ∈ m.keys ↔ ∃ s ∈ segments, x = s.1 ∨ x = s.2
  mem : ∀ x y, y ∈ (m.get? x).getD [] ↔ (x, y) ∈ segments ∨ (y, x) ∈ segments
  nodup : ∀ x, ((m.get? x).getD []).Nodup

lemma adjacency_adjacencyOf (segments : List (Vec2 × Vec2)) :
    Adjacency segments (adjacencyOf segments) := by
  induction segments using List.reverseRecOn with
  | nil =>
    refine ⟨fun x => ?_, fun x y => ?_, fun x => List.nodup_nil⟩
    · simp [adjacencyOf, OMap.keys, OMap.empty]
    · simp [adjacencyOf]
  | append_singleton segments s ih =>
    have hstep : adjacencyOf (segments ++ [s]) = addSegment (adjacencyOf segments) s := by
      simp [adjacencyOf]
    rw [hstep, addSegment]
    refine ⟨fun x => ?_, fun x y => ?_, fun x => ?_⟩
    · rw [mem_keys_addNeighbor, mem_keys_addNeighbor, ih.keys]
      simp [or_assoc, or_and_right, exists_or]
    · rw [mem_addNeighbor, mem_addNeighbor, ih.mem]
      simp only [List.mem_append, List.mem_singleton, Prod.ext_iff]
      tauto
    · exact nodup_addNeighbor fun x => nodup_addNeighbor ih.nodup

/-! ### A polygon as a contour -/

section Polygon

variable {points : List Vec2}

lemma mem_keys_polygon {x : Vec2} : x ∈ (adjacencyOf (sides points)).keys ↔ x ∈ points := by
  rw [(adjacency_adjacencyOf _).keys]
  constructor
  · rintro ⟨⟨a, b⟩, hs, hx⟩
    obtain ⟨i, hi, rfl, rfl⟩ := mem_sides.mp hs
    rcases hx with rfl | rfl <;> exact List.getElem_mem _
  · intro hx
    obtain ⟨i, hi, rfl⟩ := List.mem_iff_getElem.mp hx
    exact ⟨_, mem_sides.mpr ⟨i, hi, rfl, rfl⟩, Or.inl rfl⟩

lemma size_polygon : (adjacencyOf (sides points)).size = points.dedup.length := by
  have hperm : (adjacencyOf (sides points)).keys.Perm points.dedup := by
    refine (List.perm_ext_iff_of_nodup (OMap.keys_nodup _) (List.nodup_dedup _)).mpr fun x => ?_
    rw [mem_keys_polygon, List.mem_dedup]
  rw [← hperm.length_eq]
  exact (List.length_map _).symm

lemma nodup_of_size (h : points.length = (adjacencyOf (sides points)).size) : points.Nodup := by
  rw [size_polygon] at h
  have hsame : points.dedup = points := (List.dedup_sublist points).eq_of_length h.symm
  exact hsame ▸ List.nodup_dedup points

lemma length_eq_two {l : List Vec2} {u v : Vec2} (hl : l.Nodup) (huv : u ≠ v)
    (h : ∀ x, x ∈ l ↔ x = u ∨ x = v) : l.length = 2 := by
  have hpair : [u, v].Nodup := by simp [huv]
  have hperm : l.Perm [u, v] := (List.perm_ext_iff_of_nodup hl hpair).mpr fun x => by simp [h]
  exact hperm.length_eq

lemma succ_mod {i n : ℕ} (h : i < n) :
    i + 1 = n ∧ (i + 1) % n = 0 ∨ i + 1 < n ∧ (i + 1) % n = i + 1 := by
  rcases Nat.lt_or_ge (i + 1) n with hlt | hge
  · exact Or.inr ⟨hlt, Nat.mod_eq_of_lt hlt⟩
  · have heq : i + 1 = n := by omega
    exact Or.inl ⟨heq, by rw [heq, Nat.mod_self]⟩

/-- A point of a polygon that meets no point twice is joined to the next and to the one before. -/
lemma neighbors_polygon (hnodup : points.Nodup) (hlen : 3 ≤ points.length) {i : ℕ}
    (hi : i < points.length) :
    (((adjacencyOf (sides points)).get? points[i]).getD []).length = 2 ∧
      getElem points ((i + 1) % points.length) (Nat.mod_lt _ (by omega)) ∈
        ((adjacencyOf (sides points)).get? points[i]).getD [] := by
  have hadj := adjacency_adjacencyOf (sides points)
  obtain ⟨j, hj, hji⟩ : ∃ j, j < points.length ∧ (j + 1) % points.length = i := by
    by_cases hzero : i = 0
    · refine ⟨points.length - 1, by omega, ?_⟩
      rw [Nat.sub_add_cancel (by omega), Nat.mod_self, hzero]
    · refine ⟨i - 1, by omega, ?_⟩
      rw [Nat.sub_add_cancel (by omega), Nat.mod_eq_of_lt hi]
  have hback : getElem points ((j + 1) % points.length) (Nat.mod_lt _ (by omega)) = points[i] := by
    congr 1
  have hnext : getElem points ((i + 1) % points.length) (Nat.mod_lt _ (by omega)) ∈
      ((adjacencyOf (sides points)).get? points[i]).getD [] :=
    (hadj.mem _ _).mpr (Or.inl (mem_sides.mpr ⟨i, hi, rfl, rfl⟩))
  refine ⟨length_eq_two (u := getElem points ((i + 1) % points.length) (Nat.mod_lt _ (by omega)))
    (v := points[j]) (hadj.nodup _) ?_ fun x => ?_, hnext⟩
  · intro heq
    have hidx : (i + 1) % points.length = j := (List.Nodup.getElem_inj_iff hnodup).mp heq
    have h1 := succ_mod hi
    have h2 := succ_mod hj
    omega
  · rw [hadj.mem]
    constructor
    · rintro (hs | hs)
      · obtain ⟨k, hk, hik, hx⟩ := mem_sides.mp hs
        obtain rfl : i = k := (List.Nodup.getElem_inj_iff hnodup).mp hik
        exact Or.inl hx
      · obtain ⟨k, hk, hx, hik⟩ := mem_sides.mp hs
        have hidx : i = (k + 1) % points.length := (List.Nodup.getElem_inj_iff hnodup).mp hik
        have h1 := succ_mod hk
        have h2 := succ_mod hj
        obtain rfl : k = j := by omega
        exact Or.inr hx
    · rintro (rfl | rfl)
      · exact (hadj.mem _ _).mp hnext
      · exact Or.inr (mem_sides.mpr ⟨j, hj, rfl, hback.symm⟩)

/-- What no side of such a polygon leaves is all of it. -/
lemma subset_of_closed (hnodup : points.Nodup) (hlen : 3 ≤ points.length) {seen : List Vec2}
    {i : ℕ} (hi : i < points.length) (hmem : points[i] ∈ seen)
    (hclosed : ∀ a ∈ seen, ((adjacencyOf (sides points)).get? a).getD [] ⊆ seen) :
    points ⊆ seen := by
  have hround : ∀ k, getElem points ((i + k) % points.length) (Nat.mod_lt _ (by omega)) ∈ seen := by
    intro k
    induction k with
    | zero =>
      have h0 : getElem points ((i + 0) % points.length) (Nat.mod_lt _ (by omega)) = points[i] := by
        congr 1
        exact Nat.mod_eq_of_lt hi
      rw [h0]
      exact hmem
    | succ k ih =>
      have hk := hclosed _ ih (neighbors_polygon hnodup hlen (Nat.mod_lt _ (by omega))).2
      have hstep : ((i + k) % points.length + 1) % points.length = (i + (k + 1)) % points.length := by
        rw [Nat.mod_add_mod]
        rfl
      simp only [hstep] at hk
      exact hk
  intro x hx
  obtain ⟨j, hj, rfl⟩ := List.mem_iff_getElem.mp hx
  have hj' := hround (j + points.length - i)
  have hidx : (i + (j + points.length - i)) % points.length = j := by
    rw [Nat.add_sub_of_le (by omega), Nat.add_mod_right, Nat.mod_eq_of_lt hj]
  simp only [hidx] at hj'
  exact hj'

/-- **A polygon of at least three points is a single closed contour** just when no point comes
twice. -/
theorem isSingleClosedContour_iff {edges : List BoardShape} (hlen : 3 ≤ points.length)
    (hedges : segmentsOf edges = sides points) :
    isSingleClosedContour edges = true ↔ points.Nodup := by
  have hseg : (sides points).length = points.length := length_sides points
  unfold isSingleClosedContour
  rw [hedges]
  dsimp only
  constructor
  · intro h
    split at h
    · cases h
    · split at h
      · cases h
      · split at h
        · cases h
        · rw [Bool.and_eq_true, decide_eq_true_iff, decide_eq_true_iff] at h
          exact nodup_of_size (hseg ▸ h.2)
  · intro hnodup
    have hadj := adjacency_adjacencyOf (sides points)
    have hsize : (adjacencyOf (sides points)).size = points.length := by
      rw [size_polygon, List.dedup_eq_self.mpr hnodup]
    have hproper : (sides points).any (fun s => s.1 = s.2) = false := by
      rw [List.any_eq_false]
      rintro ⟨a, b⟩ hs
      obtain ⟨i, hi, rfl, rfl⟩ := mem_sides.mp hs
      rw [decide_eq_true_iff]
      intro heq
      have hidx : i = (i + 1) % points.length := (List.Nodup.getElem_inj_iff hnodup).mp heq
      have h1 := succ_mod hi
      omega
    have htwo : (adjacencyOf (sides points)).values.any (fun l => l.length ≠ 2) = false := by
      rw [List.any_eq_false]
      intro l hl
      obtain ⟨x, hx⟩ := OMap.mem_values_iff.mp hl
      obtain ⟨i, hi, rfl⟩ := List.mem_iff_getElem.mp
        (mem_keys_polygon.mp (OMap.mem_keys_iff.mpr ⟨l, hx⟩))
      have h2 := (neighbors_polygon hnodup hlen hi).1
      rw [hx] at h2
      simpa using h2
    rw [if_neg (by rw [hproper]; simp), if_neg (by rw [htwo]; simp; omega)]
    cases hkeys : (adjacencyOf (sides points)).keys with
    | nil =>
      have hzero : (adjacencyOf (sides points)).size = 0 := by
        rw [show (adjacencyOf (sides points)).size = (adjacencyOf (sides points)).keys.length from
          (List.length_map _).symm, hkeys]
        rfl
      omega
    | cons first others =>
      have hfirst : first ∈ (adjacencyOf (sides points)).keys := hkeys ▸ List.mem_cons_self
      obtain ⟨i, hi, hpi⟩ := List.mem_iff_getElem.mp (mem_keys_polygon.mp hfirst)
      have hinside : ∀ a ∈ points, ((adjacencyOf (sides points)).get? a).getD [] ⊆ points := by
        intro a _ y hy
        rw [← mem_keys_polygon, hadj.keys]
        rcases (hadj.mem a y).mp hy with hs | hs
        · exact ⟨_, hs, Or.inr rfl⟩
        · exact ⟨_, hs, Or.inl rfl⟩
      have hstart : [first] ⊆ points := by
        intro x hx
        exact List.mem_singleton.mp hx ▸ mem_keys_polygon.mp hfirst
      obtain ⟨hsub, hin, hseen, hclosed⟩ := explore_closed
        (n := (adjacencyOf (sides points)).size) hinside
        (List.nodup_singleton first) hstart (List.Subset.refl _)
        (fun a ha => Or.inl ha) (by rw [hsize])
      have hcover : points ⊆ explore (fun a => ((adjacencyOf (sides points)).get? a).getD [])
          (adjacencyOf (sides points)).size [first] [first] :=
        subset_of_closed hnodup hlen hi (hpi ▸ hsub List.mem_cons_self) hclosed
      have hperm := (List.perm_ext_iff_of_nodup hseen hnodup).mpr
        fun x => ⟨fun hx => hin hx, fun hx => hcover hx⟩
      dsimp only
      rw [hperm.length_eq, hseg, hsize]
      simp

end Polygon

end FabPcb.OutlineContour
