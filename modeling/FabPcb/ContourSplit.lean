import FabPcb.ContourAreas

/-!
`outerSegmentContour` splits the edges of a board into loops that have no point in common, and gives
the one with the largest area.

The flood from an edge takes away the edges that hang together with it. What remains does not touch
what was taken.
-/

namespace FabPcb.ContourSplit

open Outline OutlineContour ContourCycles ContourAreas

section Flood

variable (edges : List BoardShape)

/-! ### Edges that touch -/

/-- The ends of the edge with an index. -/
def endsOf (i : ℕ) : List Vec2 := (edges[i]?.map endpointsOf).getD []

/-- The edges have an end in common. -/
def Touch (i k : ℕ) : Prop := ∃ p ∈ endsOf edges i, p ∈ endsOf edges k

/-- The edges at the ends of an edge. -/
def touching (i : ℕ) : List ℕ :=
  (endsOf edges i).flatMap fun p => (List.range edges.length).flatMap fun k =>
    (endsOf edges k).filterMap fun q => if q = p then some k else none

variable {edges}

lemma mem_touching {i k : ℕ} : k ∈ touching edges i ↔ Touch edges i k := by
  simp only [touching, Touch, List.mem_flatMap, List.mem_range, List.mem_filterMap]
  constructor
  · rintro ⟨p, hp, j, -, q, hq, hk⟩
    split_ifs at hk with hqp
    rw [← Option.some.inj hk]
    exact ⟨p, hp, hqp ▸ hq⟩
  · rintro ⟨p, hp, hk⟩
    have hlt : k < edges.length := by
      by_contra hge
      rw [endsOf, List.getElem?_eq_none (not_lt.mp hge)] at hk
      exact List.not_mem_nil hk
    exact ⟨p, hp, k, hlt, p, hk, if_pos rfl⟩

/-! ### Taking edges away -/

/-- One neighbour, if it remains, goes from the edges that remain to those pending. -/
def take (r : List ℕ × List ℕ) (k : ℕ) : List ℕ × List ℕ :=
  if k ∈ r.1 then (r.1.erase k, k :: r.2) else r

/-- What taking some edges does. -/
structure Taken (ks : List ℕ) (p r : List ℕ × List ℕ) : Prop where
  perm : (r.2 ++ r.1).Perm (p.2 ++ p.1)
  sub : r.1.Sublist p.1
  gone : p.1.Nodup → ∀ k ∈ ks, k ∉ r.1

lemma taken_take (p : List ℕ × List ℕ) (k : ℕ) : Taken [k] p (take p k) := by
  unfold take
  by_cases hk : k ∈ p.1
  · rw [if_pos hk]
    refine ⟨?_, List.erase_sublist, fun hnodup j hj => ?_⟩
    · have hback := List.perm_cons_erase hk
      exact (List.perm_middle.symm.trans (hback.symm.append_left p.2))
    · rw [List.mem_singleton.mp hj]
      exact hnodup.not_mem_erase
  · rw [if_neg hk]
    exact ⟨List.Perm.refl _, List.Sublist.refl _, fun _ j hj => List.mem_singleton.mp hj ▸ hk⟩

lemma Taken.trans {ks ls : List ℕ} {p r t : List ℕ × List ℕ} (h : Taken ks p r)
    (h' : Taken ls r t) : Taken (ks ++ ls) p t := by
  refine ⟨h'.perm.trans h.perm, h'.sub.trans h.sub, fun hnodup k hk => ?_⟩
  rcases List.mem_append.mp hk with hk | hk
  · exact fun hmem => h.gone hnodup k hk (h'.sub.subset hmem)
  · exact h'.gone (hnodup.sublist h.sub) k hk

lemma taken_foldl (ks : List ℕ) : ∀ p, Taken ks p (ks.foldl take p) := by
  induction ks with
  | nil => exact fun p => ⟨List.Perm.refl _, List.Sublist.refl _,
      fun _ k hk => absurd hk List.not_mem_nil⟩
  | cons k ks ih => exact fun p => (taken_take p k).trans (ih (take p k))

/-! ### The flood -/

lemma flood_cons (n : ℕ) (remaining : List ℕ) (i : ℕ) (pending indexes : List ℕ) :
    flood edges (n + 1) remaining (i :: pending) indexes =
      flood edges n ((touching edges i).foldl take (remaining, pending)).1
        ((touching edges i).foldl take (remaining, pending)).2 (indexes ++ [i]) := rfl

/-- What the flood leaves does not touch what it takes. -/
structure Flooded (edges : List BoardShape) (remaining pending indexes : List ℕ)
    (r : List ℕ × List ℕ) : Prop where
  perm : (r.1 ++ r.2).Perm (indexes ++ (pending ++ remaining))
  sub : r.2.Sublist remaining
  apart : ∀ i ∈ r.1, ∀ k ∈ r.2, ¬ Touch edges i k

/-- **The flood takes all that hangs together**, in as many rounds as there are edges. -/
lemma flooded (n : ℕ) : ∀ remaining pending indexes, remaining.length + pending.length ≤ n →
    remaining.Nodup → (∀ i ∈ indexes, ∀ k ∈ remaining, ¬ Touch edges i k) →
    Flooded edges remaining pending indexes (flood edges n remaining pending indexes) := by
  induction n with
  | zero =>
    intro remaining pending indexes hlen _ hapart
    have hpending : pending = [] := List.eq_nil_of_length_eq_zero (by omega)
    subst hpending
    exact ⟨List.Perm.refl _, List.Sublist.refl _, hapart⟩
  | succ n ih =>
    intro remaining pending indexes hlen hnodup hapart
    cases pending with
    | nil => exact ⟨List.Perm.refl _, List.Sublist.refl _, hapart⟩
    | cons i pending =>
      rw [flood_cons]
      have htaken := taken_foldl (touching edges i) (remaining, pending)
      generalize (touching edges i).foldl take (remaining, pending) = p at htaken
      have hcount := htaken.perm.length_eq
      simp only [List.length_append, List.length_cons] at hcount hlen
      have hnext := ih p.1 p.2 (indexes ++ [i]) (by omega) (hnodup.sublist htaken.sub) (by
        intro j hj k hk
        rcases List.mem_append.mp hj with hj | hj
        · exact hapart j hj k (htaken.sub.subset hk)
        · rw [List.mem_singleton.mp hj]
          exact fun htouch => htaken.gone hnodup k (mem_touching.mpr htouch) hk)
      refine ⟨hnext.perm.trans ?_, hnext.sub.trans htaken.sub, hnext.apart⟩
      rw [List.append_assoc]
      exact (htaken.perm.cons i).append_left indexes

/-! ### The contours -/

/-- The edges with some indexes. -/
def edgesAt (edges : List BoardShape) (indexes : List ℕ) : List BoardShape :=
  indexes.filterMap fun i => edges[i]?

lemma contours_cons (n : ℕ) (first : ℕ) (remaining : List ℕ) :
    contours edges (n + 1) (first :: remaining) =
      let r := flood edges edges.length remaining [first] []
      if isSingleClosedContour (edgesAt edges r.1) then
        (contours edges n r.2).map (edgesAt edges r.1 :: ·)
      else none := rfl

/-- Groups of indexes that make the contours. -/
structure Groups (edges : List BoardShape) (remaining : List ℕ) (groups : List (List ℕ)) : Prop where
  perm : groups.flatten.Perm remaining
  closed : ∀ g ∈ groups, isSingleClosedContour (edgesAt edges g) = true
  apart : groups.Pairwise fun g g' => ∀ i ∈ g, ∀ k ∈ g', ¬ Touch edges i k

/-- **The contours come from groups of edges** that do not touch each other. -/
lemma groups_of_contours (n : ℕ) : ∀ remaining cs, remaining.length ≤ n → remaining.Nodup →
    (∀ i ∈ remaining, i < edges.length) → contours edges n remaining = some cs →
    ∃ groups, Groups edges remaining groups ∧ cs = groups.map (edgesAt edges) := by
  induction n with
  | zero =>
    intro remaining cs hlen _ _ hcs
    have hnil : remaining = [] := List.eq_nil_of_length_eq_zero (by omega)
    subst hnil
    rw [← Option.some.inj hcs]
    exact ⟨[], ⟨List.Perm.refl _, fun g hg => absurd hg List.not_mem_nil, List.Pairwise.nil⟩, rfl⟩
  | succ n ih =>
    intro remaining cs hlen hnodup hlt hcs
    cases remaining with
    | nil =>
      rw [← Option.some.inj hcs]
      exact ⟨[], ⟨List.Perm.refl _, fun g hg => absurd hg List.not_mem_nil, List.Pairwise.nil⟩, rfl⟩
    | cons first remaining =>
      rw [contours_cons] at hcs
      have hrest := (List.nodup_cons.mp hnodup).2
      have hfuel : (first :: remaining).length ≤ edges.length := by
        have hsub : first :: remaining ⊆ List.range edges.length :=
          fun i hi => List.mem_range.mpr (hlt i hi)
        have hle := (List.subperm_of_subset hnodup hsub).length_le
        rwa [List.length_range] at hle
      rw [List.length_cons] at hfuel hlen
      have hflood := @flooded edges edges.length remaining [first] [] (by simpa using hfuel)
        hrest fun i hi => absurd hi List.not_mem_nil
      generalize flood edges edges.length remaining [first] [] = r at hcs hflood
      simp only at hcs
      split_ifs at hcs with hclosed
      cases hothers : contours edges n r.2 with
      | none =>
        rw [hothers] at hcs
        exact absurd hcs.symm (Option.some_ne_none _)
      | some others =>
        rw [hothers] at hcs
        have hshorter := hflood.sub.length_le
        obtain ⟨groups, hgroups, rfl⟩ := ih r.2 others (by omega) (hrest.sublist hflood.sub)
          (fun i hi => hlt i (List.mem_cons_of_mem _ (hflood.sub.subset hi))) hothers
        refine ⟨r.1 :: groups, ⟨?_, fun g hg => ?_, ?_⟩, (Option.some.inj hcs).symm⟩
        · exact (hgroups.perm.append_left r.1).trans hflood.perm
        · rcases List.mem_cons.mp hg with rfl | hg
          · exact hclosed
          · exact hgroups.closed g hg
        · refine List.pairwise_cons.mpr ⟨fun g hg i hi k hk => ?_, hgroups.apart⟩
          have hmem : k ∈ r.2 := hgroups.perm.subset (List.mem_flatten.mpr ⟨g, hg, hk⟩)
          exact hflood.apart i hi k hmem

lemma edgesAt_range (edges : List BoardShape) :
    edgesAt edges (List.range edges.length) = edges := by
  induction edges with
  | nil => rfl
  | cons e edges ih =>
    have hrest : (List.range edges.length).filterMap (fun i => (e :: edges)[i + 1]?) = edges := ih
    rw [edgesAt, List.length_cons, List.range_succ_eq_map, List.filterMap_cons, List.filterMap_map]
    exact congrArg (e :: ·) hrest

/-- The contours have no end in common. -/
def EndsApart (c c' : List BoardShape) : Prop :=
  ∀ e ∈ c, ∀ e' ∈ c', ∀ p ∈ endpointsOf e, p ∉ endpointsOf e'

lemma endsApart_of_groups {g g' : List ℕ} (h : ∀ i ∈ g, ∀ k ∈ g', ¬ Touch edges i k) :
    EndsApart (edgesAt edges g) (edgesAt edges g') := by
  intro e he e' he' p hp hp'
  obtain ⟨i, hi, hei⟩ := List.mem_filterMap.mp he
  obtain ⟨k, hk, hek⟩ := List.mem_filterMap.mp he'
  refine h i hi k hk ⟨p, ?_, ?_⟩
  · rw [endsOf, hei]
    exact hp
  · rw [endsOf, hek]
    exact hp'

end Flood

/-! ### The largest contour -/

lemma foldl_largest (cs : List (List BoardShape)) : ∀ best,
    (cs.foldl (fun best c => if contourArea best < contourArea c then c else best) best) ∈
      best :: cs ∧ ∀ c ∈ best :: cs, contourArea c ≤ contourArea
        (cs.foldl (fun best c => if contourArea best < contourArea c then c else best) best) := by
  induction cs with
  | nil =>
    intro best
    refine ⟨List.mem_cons_self, fun c hc => ?_⟩
    rw [List.mem_singleton.mp hc]
    exact le_rfl
  | cons d cs ih =>
    intro best
    rw [List.foldl_cons]
    obtain ⟨hmem, hmax⟩ := ih (if contourArea best < contourArea d then d else best)
    have hbest := hmax _ List.mem_cons_self
    refine ⟨?_, fun c hc => ?_⟩
    · rcases List.mem_cons.mp hmem with heq | hmem
      · rw [heq]
        split_ifs
        · exact List.mem_cons_of_mem _ List.mem_cons_self
        · exact List.mem_cons_self
      · exact List.mem_cons_of_mem _ (List.mem_cons_of_mem _ hmem)
    · rcases List.mem_cons.mp hc with rfl | hc
      · refine le_trans ?_ hbest
        split_ifs with hlt
        · exact hlt.le
        · exact le_rfl
      · rcases List.mem_cons.mp hc with rfl | hc
        · refine le_trans ?_ hbest
          split_ifs with hlt
          · exact le_rfl
          · exact not_lt.mp hlt
        · exact hmax c (List.mem_cons_of_mem _ hc)

lemma largest_eq_some {cs : List (List BoardShape)} {c : List BoardShape} (h : largest cs = some c) :
    c ∈ cs ∧ ∀ d ∈ cs, contourArea d ≤ contourArea c := by
  cases cs with
  | nil => exact absurd h.symm (Option.some_ne_none _)
  | cons d cs =>
    rw [← Option.some.inj h]
    exact foldl_largest cs d

lemma length_segmentsOf {edges : List BoardShape} (h : ∀ e ∈ edges, e.isSegment = true) :
    (segmentsOf edges).length = edges.length := by
  induction edges with
  | nil => rfl
  | cons e edges ih =>
    obtain ⟨s, hs⟩ := Option.isSome_iff_exists.mp (h e List.mem_cons_self)
    have hrest := ih fun d hd => h d (List.mem_cons_of_mem _ hd)
    rw [segmentsOf, List.filterMap_cons_some hs, List.length_cons, List.length_cons, ← hrest]
    rfl

/-- The contours that a set of segments falls into, and the one that is given. -/
structure Split (edges contour : List BoardShape) (cs : List (List BoardShape)) : Prop where
  perm : cs.flatten.Perm edges
  loops : ∀ c ∈ cs, ∃ points, IsLoop points (segmentsOf c)
  apart : cs.Pairwise EndsApart
  mem : contour ∈ cs
  largest : ∀ c ∈ cs, ∀ points points', IsLoop points (segmentsOf c) →
    IsLoop points' (segmentsOf contour) → (shoelace points).natAbs ≤ (shoelace points').natAbs

/-- **`outerSegmentContour` splits the segments into loops** that have no point in common, and gives
one of the largest. -/
lemma split_of_outer {edges contour : List BoardShape} (hsegments : ∀ e ∈ edges, e.isSegment = true)
    (h : outerSegmentContour edges = some contour) : ∃ cs, Split edges contour cs := by
  obtain ⟨cs, hcs, hlargest⟩ := Option.bind_eq_some_iff.mp h
  obtain ⟨groups, hgroups, rfl⟩ := groups_of_contours edges.length _ cs
    (by rw [List.length_range]) List.nodup_range (fun i hi => List.mem_range.mp hi) hcs
  obtain ⟨hmem, hmax⟩ := largest_eq_some hlargest
  have hperm : (groups.map (edgesAt edges)).flatten.Perm edges := by
    have hflat : (groups.map (edgesAt edges)).flatten = edgesAt edges groups.flatten := by
      rw [edgesAt, List.filterMap_flatten]
      rfl
    have hall := hgroups.perm.filterMap fun i => edges[i]?
    rw [hflat]
    have hrange := edgesAt_range edges
    rw [edgesAt] at hrange ⊢
    rwa [hrange] at hall
  have hfull : ∀ c ∈ groups.map (edgesAt edges), (segmentsOf c).length = c.length :=
    fun c hc => length_segmentsOf fun e he =>
      hsegments e (hperm.subset (List.mem_flatten.mpr ⟨c, hc, he⟩))
  refine ⟨_, hperm, fun c hc => ?_, ?_, hmem, fun c hc points points' hloop hloop' => ?_⟩
  · obtain ⟨g, hg, rfl⟩ := List.mem_map.mp hc
    exact (isSingleClosedContour_iff_loop _).mp (hgroups.closed g hg)
  · exact List.pairwise_map.mpr (hgroups.apart.imp fun h => endsApart_of_groups h)
  · rw [← contourArea_eq hloop (hfull c hc), ← contourArea_eq hloop' (hfull contour hmem)]
    exact hmax c hc

/-- **The outline's contours are recognised**: a single closed contour is one loop, the outer contour
is a largest of the loops that the segments fall into, and outlines match that have the same sides. -/
theorem contours_recognised {edges : List BoardShape} (hsegments : ∀ e ∈ edges, e.isSegment = true)
    (points : List Vec2) :
    (isSingleClosedContour edges = true ↔ ∃ qs, IsLoop qs (segmentsOf edges)) ∧
      (∀ contour, outerSegmentContour edges = some contour → ∃ cs, Split edges contour cs) ∧
      (outlineMatches edges points = true ↔
        ((segmentsOf edges).map segmentKey).Perm ((sides points).map segmentKey)) :=
  ⟨isSingleClosedContour_iff_loop edges, fun _ h => split_of_outer hsegments h, outlineMatches_iff⟩

/-- A triangle. -/
def triangle : List Vec2 := [⟨0, 0⟩, ⟨4, 0⟩, ⟨0, 3⟩]

theorem triangle_recognised :
    (isSingleClosedContour (outlineItems triangle) = true ↔
        ∃ qs, IsLoop qs (segmentsOf (outlineItems triangle))) ∧
      (∀ contour, outerSegmentContour (outlineItems triangle) = some contour →
        ∃ cs, Split (outlineItems triangle) contour cs) ∧
      (outlineMatches (outlineItems triangle) triangle = true ↔
        ((segmentsOf (outlineItems triangle)).map segmentKey).Perm
          ((sides triangle).map segmentKey)) :=
  contours_recognised (by decide) triangle

end FabPcb.ContourSplit
