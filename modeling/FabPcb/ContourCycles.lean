import FabPcb.CycleSearch
import FabPcb.OutlineContour

/-!
What `isSingleClosedContour` recognises: segments that are the sides of one polygon without a
double point, in any order and either way round.

A point of such segments has two neighbours. The polygon is the cycle that a trail through them
closes; the search from the first point leaves nothing out just when the cycle does not either.
-/

namespace FabPcb.ContourCycles

open OrderedMap Worklist Outline OutlineContour CycleSearch

/-- The segments are the sides of a polygon that meets no point twice. -/
structure IsLoop (points : List Vec2) (segments : List (Vec2 × Vec2)) : Prop where
  long : 3 ≤ points.length
  nodup : points.Nodup
  joins : (segments.map segmentKey).Perm ((sides points).map segmentKey)

/-! ### Neighbours of a point -/

/-- The points that the segments join a point to, each once. -/
def neighbors (segments : List (Vec2 × Vec2)) (x : Vec2) : List Vec2 :=
  ((adjacencyOf segments).get? x).getD []

section Neighbors

variable {segments : List (Vec2 × Vec2)}

lemma mem_segmentKeys {x y : Vec2} :
    s(x, y) ∈ segments.map segmentKey ↔ (x, y) ∈ segments ∨ (y, x) ∈ segments := by
  rw [List.mem_map]
  constructor
  · rintro ⟨⟨a, b⟩, hs, hkey⟩
    rcases Sym2.eq_iff.mp hkey with ⟨rfl, rfl⟩ | ⟨rfl, rfl⟩
    · exact .inl hs
    · exact .inr hs
  · rintro (hs | hs)
    · exact ⟨(x, y), hs, rfl⟩
    · exact ⟨(y, x), hs, Sym2.eq_swap⟩

lemma mem_neighbors {x y : Vec2} : y ∈ neighbors segments x ↔ s(x, y) ∈ segments.map segmentKey := by
  rw [mem_segmentKeys]
  exact (adjacency_adjacencyOf segments).mem x y

lemma nodup_neighbors (x : Vec2) : (neighbors segments x).Nodup :=
  (adjacency_adjacencyOf segments).nodup x

lemma mem_keys_iff_neighbor {x : Vec2} :
    x ∈ (adjacencyOf segments).keys ↔ ∃ y, y ∈ neighbors segments x := by
  rw [(adjacency_adjacencyOf segments).keys]
  constructor
  · rintro ⟨⟨a, b⟩, hs, rfl | rfl⟩
    · exact ⟨b, mem_neighbors.mpr (mem_segmentKeys.mpr (.inl hs))⟩
    · exact ⟨a, mem_neighbors.mpr (mem_segmentKeys.mpr (.inr hs))⟩
  · rintro ⟨y, hy⟩
    rcases mem_segmentKeys.mp (mem_neighbors.mp hy) with hs | hs
    · exact ⟨_, hs, .inl rfl⟩
    · exact ⟨_, hs, .inr rfl⟩

lemma neighbors_symm {x y : Vec2} (h : y ∈ neighbors segments x) : x ∈ neighbors segments y := by
  rw [mem_neighbors] at h ⊢
  rwa [Sym2.eq_swap]

lemma twoRegular (hproper : ∀ s ∈ segments, s.1 ≠ s.2)
    (htwo : ∀ x ∈ (adjacencyOf segments).keys, (neighbors segments x).length = 2) :
    TwoRegular (neighbors segments) (adjacencyOf segments).keys where
  inside := fun x _ y hy => mem_keys_iff_neighbor.mpr ⟨x, neighbors_symm hy⟩
  symm := fun _ _ h => neighbors_symm h
  irrefl := fun x hx => by
    rcases mem_segmentKeys.mp (mem_neighbors.mp hx) with hs | hs
    · exact hproper _ hs rfl
    · exact hproper _ hs rfl
  nodup := nodup_neighbors
  two := htwo

lemma size_eq (segments : List (Vec2 × Vec2)) :
    (adjacencyOf segments).size = (adjacencyOf segments).keys.length :=
  (List.length_map _).symm

/-- The tests of `isSingleClosedContour`, one by one. -/
lemma isSingleClosedContour_eq (edges : List BoardShape) (hsegments : segmentsOf edges = segments) :
    isSingleClosedContour edges = true ↔ (∀ s ∈ segments, s.1 ≠ s.2) ∧ 3 ≤ segments.length ∧
      (∀ x ∈ (adjacencyOf segments).keys, (neighbors segments x).length = 2) ∧
      segments.length = (adjacencyOf segments).size ∧
      ∃ first others, (adjacencyOf segments).keys = first :: others ∧
        (explore (neighbors segments) (adjacencyOf segments).size [first] [first]).length =
          (adjacencyOf segments).size := by
  have hvalues : ((adjacencyOf segments).values.any fun l => l.length ≠ 2) = false ↔
      ∀ x ∈ (adjacencyOf segments).keys, (neighbors segments x).length = 2 := by
    rw [List.any_eq_false]
    constructor
    · intro h x hx
      obtain ⟨l, hl⟩ := OMap.mem_keys_iff.mp hx
      have hlen := h l (OMap.mem_values_iff.mpr ⟨x, hl⟩)
      rw [neighbors, hl]
      simpa using hlen
    · intro h l hl
      obtain ⟨x, hx⟩ := OMap.mem_values_iff.mp hl
      have hlen := h x (OMap.mem_keys_iff.mpr ⟨l, hx⟩)
      rw [neighbors, hx] at hlen
      simpa using hlen
  have hproper : (segments.any fun s => s.1 = s.2) = false ↔ ∀ s ∈ segments, s.1 ≠ s.2 := by
    simp
  unfold isSingleClosedContour
  rw [hsegments, ← hvalues, ← hproper]
  dsimp only
  constructor
  · intro h
    split_ifs at h with hany hshort
    rw [not_or] at hshort
    refine ⟨Bool.eq_false_iff.mpr hany, by omega, Bool.eq_false_iff.mpr hshort.2, ?_⟩
    cases hkeys : (adjacencyOf segments).keys with
    | nil =>
      rw [hkeys] at h
      exact absurd h Bool.false_ne_true
    | cons first others =>
      rw [hkeys] at h
      rw [Bool.and_eq_true, decide_eq_true_iff, decide_eq_true_iff] at h
      exact ⟨h.2, first, others, rfl, h.1⟩
  · rintro ⟨hany, hlen, htwo, hsize, first, others, hkeys, hexplore⟩
    rw [if_neg (by rw [hany]; exact Bool.false_ne_true),
      if_neg (by rw [htwo]; exact fun h => h.elim (by omega) Bool.false_ne_true), hkeys]
    simp only [Bool.and_eq_true, decide_eq_true_iff]
    exact ⟨hexplore, hsize⟩

end Neighbors

/-! ### The sides of a polygon -/

section Sides

variable {points : List Vec2}

lemma sides_inj (hnodup : points.Nodup) (hlong : 3 ≤ points.length) {s t : Vec2 × Vec2}
    (hs : s ∈ sides points) (ht : t ∈ sides points) (hkey : segmentKey s = segmentKey t) : s = t := by
  obtain ⟨a, b⟩ := s
  obtain ⟨c, d⟩ := t
  obtain ⟨i, hi, rfl, rfl⟩ := mem_sides.mp hs
  obtain ⟨j, hj, rfl, rfl⟩ := mem_sides.mp ht
  have hinj := fun (k l : ℕ) (hk : k < points.length) (hl : l < points.length)
    (heq : points[k] = points[l]) => (List.Nodup.getElem_inj_iff hnodup).mp heq
  rcases Sym2.eq_iff.mp hkey with ⟨h1, -⟩ | ⟨h1, h2⟩
  · obtain rfl := hinj _ _ _ _ h1
    rfl
  · have hij := hinj _ _ _ _ h1
    have hji := hinj _ _ _ _ h2
    have h3 := succ_mod hi
    have h4 := succ_mod hj
    omega

lemma nodup_sides (hnodup : points.Nodup) (hlong : 3 ≤ points.length) :
    ((sides points).map segmentKey).Nodup := by
  have hsides : (sides points).Nodup := by
    have hfst : (sides points).map Prod.fst = points := by
      rw [sides, List.map_fst_zip]
      rw [List.length_rotate]
    refine List.Nodup.of_map Prod.fst ?_
    rw [hfst]
    exact hnodup
  exact hsides.map_on fun s hs t ht hkey => sides_inj hnodup hlong hs ht hkey

lemma sides_proper (hnodup : points.Nodup) (hlong : 3 ≤ points.length) {s : Vec2 × Vec2}
    (hs : s ∈ sides points) : s.1 ≠ s.2 := by
  obtain ⟨a, b⟩ := s
  obtain ⟨i, hi, rfl, rfl⟩ := mem_sides.mp hs
  intro heq
  have hidx : i = (i + 1) % points.length := (List.Nodup.getElem_inj_iff hnodup).mp heq
  have h1 := succ_mod hi
  omega

lemma sides_subset {segments : List (Vec2 × Vec2)} (h : Cycle (neighbors segments) points) :
    (sides points).map segmentKey ⊆ segments.map segmentKey := by
  intro key hkey
  obtain ⟨⟨a, b⟩, hs, rfl⟩ := List.mem_map.mp hkey
  obtain ⟨i, hi, rfl, rfl⟩ := mem_sides.mp hs
  rcases succ_mod hi with ⟨hlast, hmod⟩ | ⟨hlt, hmod⟩
  · have hclose := h.close (by omega)
    have hi' : points.length - 1 = i := by omega
    simp only [hi'] at hclose
    have hmem := mem_neighbors.mp hclose
    simp only [hmod]
    exact hmem
  · have hstep := mem_neighbors.mp (h.trail.step i hlt)
    simp only [hmod]
    exact hstep

end Sides

/-! ### Loops are recognised -/

section Loop

variable {points : List Vec2} {segments : List (Vec2 × Vec2)}

lemma IsLoop.length (h : IsLoop points segments) : segments.length = points.length := by
  have hlen := h.joins.length_eq
  rwa [List.length_map, List.length_map, length_sides] at hlen

lemma IsLoop.neighbors_perm (h : IsLoop points segments) (x : Vec2) :
    (neighbors segments x).Perm (neighbors (sides points) x) := by
  refine (List.perm_ext_iff_of_nodup (nodup_neighbors x) (nodup_neighbors x)).mpr fun y => ?_
  rw [mem_neighbors, mem_neighbors, h.joins.mem_iff]

lemma IsLoop.mem_keys (h : IsLoop points segments) {x : Vec2} :
    x ∈ (adjacencyOf segments).keys ↔ x ∈ points := by
  rw [mem_keys_iff_neighbor, ← mem_keys_polygon, mem_keys_iff_neighbor]
  simp [(h.neighbors_perm x).mem_iff]

lemma IsLoop.size (h : IsLoop points segments) : (adjacencyOf segments).size = points.length := by
  have hperm : (adjacencyOf segments).keys.Perm points :=
    (List.perm_ext_iff_of_nodup (OMap.keys_nodup _) h.nodup).mpr fun x => h.mem_keys
  rw [size_eq, hperm.length_eq]

lemma IsLoop.proper (h : IsLoop points segments) : ∀ s ∈ segments, s.1 ≠ s.2 := by
  intro s hs heq
  have hkey := h.joins.mem_iff.mp (List.mem_map.mpr ⟨s, hs, rfl⟩)
  obtain ⟨t, ht, hst⟩ := List.mem_map.mp hkey
  have hne := sides_proper h.nodup h.long ht
  rcases Sym2.eq_iff.mp hst with ⟨h1, h2⟩ | ⟨h1, h2⟩
  · exact hne (h1.trans (heq.trans h2.symm))
  · exact hne (h1.trans (heq.symm.trans h2.symm))

lemma IsLoop.two (h : IsLoop points segments) {x : Vec2} (hx : x ∈ points) :
    (neighbors segments x).length = 2 := by
  obtain ⟨i, hi, rfl⟩ := List.getElem_of_mem hx
  rw [(h.neighbors_perm _).length_eq]
  exact (neighbors_polygon h.nodup h.long hi).1

lemma IsLoop.explore (h : IsLoop points segments) {first : Vec2} (hfirst : first ∈ points) :
    (explore (neighbors segments) points.length [first] [first]).length = points.length := by
  have hinside : ∀ a ∈ points, neighbors segments a ⊆ points := by
    intro a _ y hy
    exact h.mem_keys.mp (mem_keys_iff_neighbor.mpr ⟨a, neighbors_symm hy⟩)
  have hstart : [first] ⊆ points := fun x hx => List.mem_singleton.mp hx ▸ hfirst
  obtain ⟨hsub, hin, hseen, hclosed⟩ := explore_closed (n := points.length) hinside
    (List.nodup_singleton first) hstart (List.Subset.refl _) (fun a ha => .inl ha) le_rfl
  obtain ⟨i, hi, hpi⟩ := List.getElem_of_mem hfirst
  have hcover := subset_of_closed h.nodup h.long hi (hpi ▸ hsub List.mem_cons_self)
    fun a ha x hx => hclosed a ha ((h.neighbors_perm a).mem_iff.mpr hx)
  exact ((List.perm_ext_iff_of_nodup hseen h.nodup).mpr
    fun x => ⟨fun hx => hin hx, fun hx => hcover hx⟩).length_eq

/-- **A single closed contour is a loop**: the sides of a polygon without a double point. -/
theorem isSingleClosedContour_iff_loop (edges : List BoardShape) :
    isSingleClosedContour edges = true ↔ ∃ points, IsLoop points (segmentsOf edges) := by
  rw [isSingleClosedContour_eq edges rfl]
  constructor
  · rintro ⟨hproper, hlong, htwo, hlength, first, others, hkeys, hexplore⟩
    have hreg := twoRegular hproper htwo
    have hfirst : first ∈ (adjacencyOf (segmentsOf edges)).keys := hkeys ▸ List.mem_cons_self
    obtain ⟨qs, hcycle, hsub, hmem⟩ := exists_cycle hreg hfirst
    have hclosed := hcycle.closed hreg hsub
    have hle : qs.length ≤ (adjacencyOf (segmentsOf edges)).size := by
      rw [size_eq]
      exact (List.subperm_of_subset hcycle.trail.nodup hsub).length_le
    obtain ⟨-, hin, hseen, -⟩ := explore_closed (n := (adjacencyOf (segmentsOf edges)).size) hclosed
      (List.nodup_singleton first) (fun x hx => List.mem_singleton.mp hx ▸ hmem)
      (List.Subset.refl _) (fun a ha => .inl ha) (by simpa using hle)
    have hge := (List.subperm_of_subset hseen hin).length_le
    rw [hexplore, ← hlength] at hge
    refine ⟨qs, hcycle.long, hcycle.trail.nodup, ?_⟩
    have hsubperm := List.subperm_of_subset (nodup_sides hcycle.trail.nodup hcycle.long)
      (sides_subset hcycle)
    refine (hsubperm.perm_of_length_le ?_).symm
    rw [List.length_map, List.length_map, length_sides]
    exact hge
  · rintro ⟨points, h⟩
    refine ⟨h.proper, h.length ▸ h.long, fun x hx => h.two (h.mem_keys.mp hx),
      h.length.trans h.size.symm, ?_⟩
    cases hkeys : (adjacencyOf (segmentsOf edges)).keys with
    | nil =>
      have hsize := h.size
      have hlong := h.long
      rw [size_eq, hkeys, List.length_nil] at hsize
      omega
    | cons first others =>
      have hfirst : first ∈ points := h.mem_keys.mp (hkeys ▸ List.mem_cons_self)
      exact ⟨first, others, rfl, by rw [h.size, h.explore hfirst]⟩

end Loop

end FabPcb.ContourCycles
