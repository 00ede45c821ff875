import Mathlib.Data.List.Zip
import FabPcb.ContourCycles

/-!
`contourArea` is the area within a loop, whichever way the loop's points are listed.

The walk starts at the first end of the first segment. From there it lists the points of the loop in
one of the two directions; the shoelace sum is the same from every point on, and changes its sign
with the direction.
-/

namespace FabPcb.ContourAreas

open Outline OutlineContour CycleSearch ContourCycles

/-! ### The shoelace sum -/

def cross (s : Vec2 × Vec2) : ℤ := s.1.x * s.2.y - s.2.x * s.1.y

/-- Twice the signed area. -/
def shoelace (points : List Vec2) : ℤ := ((sides points).map cross).sum

lemma sides_rotate (points : List Vec2) (k : ℕ) : sides (points.rotate k) = (sides points).rotate k := by
  have hlen : points.length = (points.rotate 1).length := (List.length_rotate _ _).symm
  have hzip := List.zipWith_rotate_distrib Prod.mk points (points.rotate 1) k hlen
  rw [sides, sides, List.zip_eq_zipWith, List.zip_eq_zipWith, hzip, List.rotate_rotate,
    List.rotate_rotate, Nat.add_comm]

/-- Listed the other way round, a polygon has its sides turned round. -/
lemma sides_reverse (points : List Vec2) :
    (sides points.reverse).Perm ((sides points).map Prod.swap) := by
  set n := points.reverse.length - 1 % points.reverse.length with hn
  have hback : (points.rotate 1).reverse = points.reverse.rotate n := by
    rw [List.reverse_rotate, hn, List.length_reverse]
  have hround : (points.reverse.rotate n).rotate 1 = points.reverse := by
    rw [List.rotate_rotate, hn]
    rcases hlen : points.reverse.length with - | - | m
    · rw [List.eq_nil_of_length_eq_zero hlen, List.rotate_nil]
    · obtain ⟨a, ha⟩ := List.length_eq_one_iff.mp hlen
      rw [ha]
      exact List.rotate_singleton a _
    · have hmod : 1 % (m + 1 + 1) = 1 := Nat.mod_eq_of_lt (by omega)
      rw [hmod, show m + 1 + 1 - 1 + 1 = m + 1 + 1 by omega, ← hlen, List.rotate_length]
  have hsides : sides (points.reverse.rotate n) = ((sides points).map Prod.swap).reverse := by
    rw [sides, hround, ← hback, sides, List.zip_swap, List.zip_eq_zipWith, List.zip_eq_zipWith,
      List.reverse_zipWith (List.length_rotate _ _)]
  have hturned : (sides points.reverse).Perm (sides (points.reverse.rotate n)) := by
    rw [sides_rotate]
    exact (List.rotate_perm _ n).symm
  rw [hsides] at hturned
  exact hturned.trans (List.reverse_perm _)

lemma shoelace_rotate (points : List Vec2) (k : ℕ) : shoelace (points.rotate k) = shoelace points := by
  rw [shoelace, sides_rotate]
  exact ((List.rotate_perm _ _).map cross).sum_eq

lemma shoelace_reverse (points : List Vec2) : shoelace points.reverse = - shoelace points := by
  have hswap : ∀ s : Vec2 × Vec2, cross s.swap = - cross s := fun s => by
    simp [cross]
  rw [shoelace, ((sides_reverse points).map cross).sum_eq, shoelace]
  induction sides points with
  | nil => rfl
  | cons s ss ih =>
    simp only [List.map_cons, List.sum_cons, hswap] at ih ⊢
    rw [ih, neg_add]

lemma natAbs_shoelace_isRotated {points qs : List Vec2} (h : points ~r qs) :
    (shoelace points).natAbs = (shoelace qs).natAbs := by
  obtain ⟨k, rfl⟩ := h
  rw [shoelace_rotate]

lemma natAbs_shoelace_reverse (points : List Vec2) :
    (shoelace points.reverse).natAbs = (shoelace points).natAbs := by
  rw [shoelace_reverse, Int.natAbs_neg]

/-! ### Loops, listed in another way -/

section Listed

variable {points qs : List Vec2} {segments : List (Vec2 × Vec2)}

lemma isLoop_isRotated (h : IsLoop points segments) (hr : points ~r qs) : IsLoop qs segments := by
  obtain ⟨k, rfl⟩ := hr
  refine ⟨by rw [List.length_rotate]; exact h.long, List.nodup_rotate.mpr h.nodup, ?_⟩
  rw [sides_rotate]
  exact h.joins.trans ((List.rotate_perm _ _).map segmentKey).symm

lemma isLoop_reverse (h : IsLoop points segments) : IsLoop points.reverse segments := by
  refine ⟨by rw [List.length_reverse]; exact h.long, List.nodup_reverse.mpr h.nodup, ?_⟩
  have hkeys := (sides_reverse points).map segmentKey
  rw [List.map_map] at hkeys
  have hswap : (segmentKey ∘ Prod.swap : Vec2 × Vec2 → Sym2 Vec2) = segmentKey :=
    funext fun s => Sym2.eq_swap
  rw [hswap] at hkeys
  exact h.joins.trans hkeys.symm

/-- The first point of a loop is joined to the second and to the last. -/
lemma neighbors_first {first : Vec2} {rest : List Vec2} (h : IsLoop (first :: rest) segments)
    {next : Vec2} (hnext : next ∈ neighbors segments first) :
    rest.head? = some next ∨ rest.getLast? = some next := by
  have hlong := h.long
  have hinj : ∀ (j : ℕ) (hj : j < (first :: rest).length), first = (first :: rest)[j] → 0 = j :=
    fun j hj heq => h.nodup.getElem_inj_iff.mp (show (first :: rest)[0] = (first :: rest)[j] from heq)
  have hkey := h.joins.mem_iff.mp (mem_neighbors.mp hnext)
  rcases mem_segmentKeys.mp hkey with hs | hs
  · obtain ⟨j, hj, hfirst, hnext⟩ := mem_sides.mp hs
    obtain rfl := hinj j hj hfirst
    left
    rw [hnext, List.head?_eq_getElem?]
    rw [List.length_cons] at hlong
    simp only [List.length_cons, Nat.zero_add, Nat.mod_eq_of_lt (show 1 < rest.length + 1 by omega),
      List.getElem_cons_succ]
    exact List.getElem?_eq_getElem (by omega)
  · obtain ⟨j, hj, hnext, hfirst⟩ := mem_sides.mp hs
    have hzero := hinj _ (Nat.mod_lt _ (by omega)) hfirst
    right
    rcases succ_mod hj with ⟨hlast, -⟩ | ⟨-, hmod⟩
    · rw [List.length_cons] at hlast hlong
      obtain ⟨k, rfl⟩ : ∃ k, j = k + 1 := ⟨j - 1, by omega⟩
      rw [hnext, List.getLast?_eq_getElem?, show rest.length - 1 = k by omega]
      exact List.getElem?_eq_getElem (by omega)
    · omega

/-- A loop listed from one of its points, towards one of the neighbours of that. -/
lemma isLoop_listed (h : IsLoop points segments) {first next : Vec2} (hfirst : first ∈ points)
    (hnext : next ∈ neighbors segments first) : ∃ rest, IsLoop (first :: next :: rest) segments ∧
      (shoelace (first :: next :: rest)).natAbs = (shoelace points).natAbs := by
  obtain ⟨before, after, rfl⟩ := List.append_of_mem hfirst
  have hrotated : before ++ first :: after ~r first :: after ++ before := List.isRotated_append
  have hloop := isLoop_isRotated h hrotated
  have harea := natAbs_shoelace_isRotated hrotated
  rw [List.cons_append] at hloop harea
  rcases neighbors_first hloop hnext with hhead | hlast
  · obtain ⟨rest, hrest⟩ := List.head?_eq_some_iff.mp hhead
    rw [hrest] at hloop harea
    exact ⟨rest, hloop, harea.symm⟩
  · -- towards the last point: the other way round
    obtain ⟨rest, hrest⟩ := List.getLast?_eq_some_iff.mp hlast
    have hturned : (first :: (after ++ before)).reverse ~r first :: (after ++ before).reverse := by
      rw [List.reverse_cons]
      exact List.IsRotated.cons_append_singleton.symm
    have hloop' := isLoop_isRotated (isLoop_reverse hloop) hturned
    have harea' := natAbs_shoelace_isRotated hturned
    rw [natAbs_shoelace_reverse, ← harea] at harea'
    rw [hrest, List.reverse_append] at hloop' harea'
    exact ⟨rest.reverse, hloop', harea'.symm⟩

end Listed

/-! ### The walk -/

section Walk

variable {points : List Vec2} {segments : List (Vec2 × Vec2)}

lemma mem_connected {p x : Vec2} : x ∈ connected segments p ↔ x ∈ neighbors segments p := by
  rw [mem_neighbors, mem_segmentKeys, connected, List.mem_flatMap]
  constructor
  · rintro ⟨⟨a, b⟩, hs, hx⟩
    rcases List.mem_append.mp hx with hx | hx
    · by_cases ha : a = p
      · rw [if_pos ha] at hx
        rw [List.mem_singleton.mp hx, ← ha]
        exact .inl hs
      · rw [if_neg ha] at hx
        exact absurd hx List.not_mem_nil
    · by_cases hb : b = p
      · rw [if_pos hb] at hx
        rw [List.mem_singleton.mp hx, ← hb]
        exact .inr hs
      · rw [if_neg hb] at hx
        exact absurd hx List.not_mem_nil
  · rintro (hs | hs)
    · exact ⟨_, hs, List.mem_append_left _ (by rw [if_pos rfl]; exact List.mem_cons_self)⟩
    · exact ⟨_, hs, List.mem_append_right _ (by rw [if_pos rfl]; exact List.mem_cons_self)⟩

/-- A loop joins no two points twice. -/
lemma nodup_connected (h : IsLoop points segments) (p : Vec2) : (connected segments p).Nodup := by
  have hkeys : segments.Pairwise fun s t => segmentKey s ≠ segmentKey t :=
    List.pairwise_map.mp (h.joins.nodup_iff.mpr (nodup_sides h.nodup h.long))
  have hone : ∀ s : Vec2 × Vec2, ∀ x ∈ (if s.1 = p then [s.2] else []) ++
      (if s.2 = p then [s.1] else []), segmentKey s = s(p, x) := by
    rintro ⟨a, b⟩ x hx
    rcases List.mem_append.mp hx with hx | hx
    · by_cases ha : a = p
      · rw [if_pos ha] at hx
        rw [List.mem_singleton.mp hx, ← ha]
        rfl
      · rw [if_neg ha] at hx
        exact absurd hx List.not_mem_nil
    · by_cases hb : b = p
      · rw [if_pos hb] at hx
        rw [List.mem_singleton.mp hx, ← hb]
        exact Sym2.eq_swap
      · rw [if_neg hb] at hx
        exact absurd hx List.not_mem_nil
  rw [connected, List.nodup_flatMap]
  refine ⟨fun s hs => ?_, hkeys.imp fun {s t} hne => ?_⟩
  · have hproper := h.proper s hs
    by_cases ha : s.1 = p
    · have hb : ¬ s.2 = p := fun hb => hproper (ha.trans hb.symm)
      rw [if_pos ha, if_neg hb]
      exact List.nodup_singleton _
    · split_ifs
      · exact List.nodup_singleton _
      · exact List.nodup_nil
  · intro x hx hx'
    exact hne ((hone s x hx).trans (hone t x hx').symm)

lemma connected_pair (h : IsLoop points segments) {p : Vec2} (hp : p ∈ points) :
    ∃ a b, connected segments p = [a, b] ∧ a ≠ b := by
  have hperm : (connected segments p).Perm (neighbors segments p) :=
    (List.perm_ext_iff_of_nodup (nodup_connected h p) (nodup_neighbors p)).mpr
      fun x => mem_connected
  have htwo := hperm.length_eq.trans (h.two hp)
  obtain ⟨a, b, hab⟩ := List.length_eq_two.mp htwo
  have hnodup := nodup_connected h p
  rw [hab] at hnodup
  refine ⟨a, b, hab, fun heq => ?_⟩
  rw [heq] at hnodup
  exact (List.nodup_cons.mp hnodup).1 List.mem_cons_self

/-- The point that the walk goes on to. -/
def onward (segments : List (Vec2 × Vec2)) (previous : Option Vec2) (current : Vec2) : Option Vec2 :=
  let options := connected segments current
  if options.head? = previous then options[1]? else options.head?

lemma onward_eq (h : IsLoop points segments) {before current after : Vec2}
    (hcurrent : current ∈ points) (hbefore : before ∈ neighbors segments current)
    (hafter : after ∈ neighbors segments current) (hne : before ≠ after) :
    onward segments (some before) current = some after := by
  obtain ⟨a, b, hab, hdiff⟩ := connected_pair h hcurrent
  rw [← mem_connected, hab] at hbefore hafter
  simp only [List.mem_cons, List.not_mem_nil, or_false] at hbefore hafter
  simp only [onward, hab, List.head?_cons, Option.some.injEq]
  rcases hbefore with rfl | rfl
  · rw [if_pos rfl]
    rcases hafter with rfl | rfl
    · exact absurd rfl hne
    · rfl
  · rw [if_neg hdiff]
    rcases hafter with rfl | rfl
    · rfl
    · exact absurd rfl hne

lemma contourPoints_onward (first : Vec2) (n : ℕ) {previous : Option Vec2} {current next : Vec2}
    (ordered : List Vec2) (hnext : onward segments previous current = some next) :
    contourPoints segments first (n + 1) previous current ordered =
      if next = first then some (ordered ++ [current])
      else contourPoints segments first n (some current) next (ordered ++ [current]) := by
  unfold onward at hnext
  simp [contourPoints, hnext]

lemma neighbor_succ (h : IsLoop points segments) {i : ℕ} (hi : i < points.length) :
    getElem points ((i + 1) % points.length) (Nat.mod_lt _ (Nat.zero_lt_of_lt hi)) ∈
      neighbors segments points[i] := by
  rw [(h.neighbors_perm _).mem_iff]
  exact (neighbors_polygon h.nodup h.long hi).2

/-- **The walk lists the loop**, from where it is on. -/
lemma contourPoints_from (h : IsLoop points segments) (hfirst : 0 < points.length) (n : ℕ) :
    ∀ (i : ℕ) (hi : i + 1 < points.length), points.length ≤ n + (i + 1) →
      contourPoints segments points[0] n (some points[i]) points[i + 1] (points.take (i + 1)) =
        some points := by
  induction n with
  | zero => exact fun i hi hn => absurd hn (by omega)
  | succ n ih =>
    intro i hi hn
    have hlong := h.long
    have hback : points[i] ∈ neighbors segments points[i + 1] := by
      have hforward := neighbor_succ h (show i < points.length by omega)
      simp only [Nat.mod_eq_of_lt hi] at hforward
      exact neighbors_symm hforward
    have hforward := neighbor_succ h hi
    have hne : points[i] ≠ getElem points ((i + 1 + 1) % points.length)
        (Nat.mod_lt _ (by omega)) := by
      intro heq
      have hidx := h.nodup.getElem_inj_iff.mp heq
      have hround := succ_mod hi
      omega
    have hnext := onward_eq h (List.getElem_mem hi) hback hforward hne
    have htake : points.take (i + 1) ++ [points[i + 1]] = points.take (i + 2) :=
      List.take_append_getElem hi
    rw [contourPoints_onward _ _ _ hnext, htake]
    rcases succ_mod hi with ⟨hlast, hmod⟩ | ⟨hlt, hmod⟩
    · simp only [hmod, if_true]
      rw [List.take_of_length_le (by omega)]
    · have hother : ¬ points[i + 1 + 1] = points[0] := fun heq =>
        absurd (h.nodup.getElem_inj_iff.mp heq) (by omega)
      simp only [hmod]
      rw [if_neg hother]
      exact ih (i + 1) hlt (by omega)

/-- **The area of a contour** is the one within its loop. -/
theorem contourArea_eq {edges : List BoardShape} (h : IsLoop points (segmentsOf edges))
    (hedges : (segmentsOf edges).length = edges.length) :
    contourArea edges = (shoelace points).natAbs := by
  have hlength := h.length
  have hlong := h.long
  obtain ⟨s, rest, hsegments⟩ : ∃ s rest, segmentsOf edges = s :: rest :=
    List.exists_cons_of_ne_nil fun hnil => by rw [hnil, List.length_nil] at hlength; omega
  have hneighbor : s.2 ∈ neighbors (segmentsOf edges) s.1 :=
    mem_neighbors.mpr (mem_segmentKeys.mpr (.inl (hsegments ▸ List.mem_cons_self)))
  have hfirst : s.1 ∈ points := h.mem_keys.mp (mem_keys_iff_neighbor.mpr ⟨_, hneighbor⟩)
  obtain ⟨a, b, hab, -⟩ := connected_pair h hfirst
  have hnext : onward (segmentsOf edges) none s.1 = some a := by
    simp only [onward, hab, List.head?_cons]
    rfl
  have ha : a ∈ neighbors (segmentsOf edges) s.1 := by
    rw [← mem_connected, hab]
    exact List.mem_cons_self
  obtain ⟨others, hloop, harea⟩ := isLoop_listed h hfirst ha
  have hne : a ≠ s.1 := fun heq =>
    (List.nodup_cons.mp hloop.nodup).1 (heq ▸ List.mem_cons_self)
  have hwalk : contourPoints (segmentsOf edges) s.1 edges.length none s.1 [] =
      some (s.1 :: a :: others) := by
    obtain ⟨n, hn⟩ : ∃ n, edges.length = n + 1 := ⟨edges.length - 1, by omega⟩
    have hloopLength := hloop.length
    rw [hn, contourPoints_onward _ _ _ hnext, if_neg hne]
    exact contourPoints_from hloop (Nat.succ_pos _) n 0 (by simp) (by omega)
  have hordered : (s.1 :: a :: others).length = edges.length := hloop.length.symm.trans hedges
  rw [← harea, contourArea, hsegments]
  rw [hsegments] at hwalk
  simp only [hwalk]
  rw [if_neg (not_not.mpr hordered)]
  rfl

end Walk

end FabPcb.ContourAreas
