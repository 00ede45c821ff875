import FabPcb.OutlineChain
import Mathlib.Data.List.Rotate

/-!
Loops cut into pieces, and where their pieces meet.

A loop is the list of its pieces in order, each from its first point to its last. The joints of a
loop are the pairs of ends that meet. Two pieces next to each other can be glued at their joint:
the loop then has one joint less, and that is how a chain grows.
-/

namespace FabPcb.ChainJoints

open SpecctraData (Vec2)
open OutlineChain

/-- What is between the ends of a piece. -/
def interior (p : List Vec2) : List Vec2 := p.tail.dropLast

/-- A piece in either direction. -/
def unoriented (p : List Vec2) : Sym2 (List Vec2) := s(p, p.reverse)

/-- The ends that meet: of each piece with the one before it, which for the first is the last. -/
def joints (loop : List (List Vec2)) : List (Vec2 × Vec2) :=
  ((loop.getLastD [] :: loop).zip loop).map fun pq => (last pq.1, first pq.2)

/-- The loop the other way round. -/
def backwards (loop : List (List Vec2)) : List (List Vec2) := (loop.map List.reverse).reverse

/-! ### Ends of a piece -/

lemma unoriented_eq_iff {p q : List Vec2} :
    unoriented p = unoriented q ↔ p = q ∨ p = q.reverse := by
  rw [unoriented, unoriented, Sym2.eq_iff]
  constructor
  · rintro (⟨h, -⟩ | ⟨h, -⟩)
    · exact .inl h
    · exact .inr h
  · rintro (rfl | rfl)
    · exact .inl ⟨rfl, rfl⟩
    · exact .inr ⟨rfl, List.reverse_reverse q⟩

lemma unoriented_reverse (p : List Vec2) : unoriented p.reverse = unoriented p :=
  unoriented_eq_iff.mpr (.inr rfl)

lemma first_reverse (p : List Vec2) : first p.reverse = last p := by
  rw [first, last, List.headD_eq_head?_getD, List.head?_reverse, List.getLastD_eq_getLast?]

lemma last_reverse (p : List Vec2) : last p.reverse = first p := by
  rw [← first_reverse, List.reverse_reverse]

lemma first_append {p : List Vec2} (h : p ≠ []) (l : List Vec2) : first (p ++ l) = first p := by
  cases p with
  | nil => exact absurd rfl h
  | cons a p => rfl

lemma last_append {p : List Vec2} (h : p ≠ []) (l : List Vec2) : last (l ++ p) = last p := by
  rw [← first_reverse, List.reverse_append, first_append (by simpa using h), first_reverse]

lemma last_tail {p : List Vec2} (h : 2 ≤ p.length) : last p.tail = last p := by
  cases p with
  | nil => exact absurd h (by simp)
  | cons a p =>
    have hne : p ≠ [] := List.ne_nil_of_length_pos (by simpa [Nat.succ_le_iff] using h)
    exact (last_append hne [a]).symm

lemma eq_ends {p : List Vec2} (h : 2 ≤ p.length) : p = first p :: (interior p ++ [last p]) := by
  cases p with
  | nil => exact absurd h (by simp)
  | cons a p =>
    have hne : p ≠ [] := List.ne_nil_of_length_pos (by simpa [Nat.succ_le_iff] using h)
    have hlast : last (a :: p) = p.getLast hne := by
      rw [← last_tail h, List.tail_cons, last, List.getLastD_eq_getLast?,
        List.getLast?_eq_some_getLast hne, Option.getD_some]
    rw [hlast]
    exact congrArg (a :: ·) (List.dropLast_append_getLast hne).symm

/-! ### Gluing -/

/-- Two pieces that meet, as one. -/
def glue (c p : List Vec2) : List Vec2 := c ++ p.tail

lemma first_glue {c : List Vec2} (hc : c ≠ []) (p : List Vec2) : first (glue c p) = first c :=
  first_append hc _

lemma last_glue (c : List Vec2) {p : List Vec2} (hp : 2 ≤ p.length) :
    last (glue c p) = last p := by
  have hne : p.tail ≠ [] := List.ne_nil_of_length_pos (by rw [List.length_tail]; omega)
  rw [glue, last_append hne, last_tail hp]

/-- The joints between the pieces of a list, without the one that closes it. -/
def links (ps : List (List Vec2)) : List (Vec2 × Vec2) :=
  (ps.zip ps.tail).map fun pq => (last pq.1, first pq.2)

lemma links_cons_cons (p q : List Vec2) (ps : List (List Vec2)) :
    links (p :: q :: ps) = (last p, first q) :: links (q :: ps) := rfl

lemma joints_cons (p : List Vec2) (ps : List (List Vec2)) :
    joints (p :: ps) = (last ((p :: ps).getLastD []), first p) :: links (p :: ps) := rfl

lemma links_congr {p q : List Vec2} (h : last p = last q) (ps : List (List Vec2)) :
    links (p :: ps) = links (q :: ps) := by
  cases ps with
  | nil => rfl
  | cons r ps => rw [links_cons_cons, links_cons_cons, h]

/-- **Gluing spends a joint**, the one glued, and keeps the others. -/
lemma joints_glue {c p : List Vec2} (hc : c ≠ []) (hp : 2 ≤ p.length) (ps : List (List Vec2)) :
    (joints (c :: p :: ps)).Perm ((last c, first p) :: joints (glue c p :: ps)) := by
  have hlast : last ((c :: p :: ps).getLastD []) = last ((glue c p :: ps).getLastD []) := by
    cases ps with
    | nil => exact (last_glue c hp).symm
    | cons q ps => simp
  rw [joints_cons, joints_cons, first_glue hc, links_congr (last_glue c hp),
    hlast]
  exact List.Perm.swap _ _ _

/-! ### Loops read from another piece, or backwards -/

lemma joints_eq_rotate (loop : List (List Vec2)) :
    joints loop =
      List.zipWith (fun p q => (last p, first q)) (loop.rotate (loop.length - 1)) loop := by
  rcases List.eq_nil_or_concat loop with rfl | ⟨ps, p, rfl⟩
  · rfl
  · rw [List.concat_eq_append]
    have hlast : (ps ++ [p]).getLastD [] = p := by simp [List.getLastD_eq_getLast?]
    have hturn : (ps ++ [p]).rotate ((ps ++ [p]).length - 1) = p :: ps := by
      rw [List.length_append, List.length_singleton, Nat.add_sub_cancel,
        List.rotate_append_length_eq, List.singleton_append]
    have hcut : (p :: (ps ++ [p])).zip (ps ++ [p]) = (p :: ps).zip (ps ++ [p]) := by
      have hlength : (p :: ps).length = (ps ++ [p]).length := by simp
      have hzip := @List.zip_append _ _ (p :: ps) [p] (ps ++ [p]) [] hlength
      simpa using hzip
    rw [joints, hlast, hturn, hcut, List.zip_eq_zipWith, List.map_zipWith]

lemma joints_rotate (loop : List (List Vec2)) (n : ℕ) :
    joints (loop.rotate n) = (joints loop).rotate n := by
  rw [joints_eq_rotate, joints_eq_rotate, List.zipWith_rotate_distrib _ _ _ _ (by simp),
    List.length_rotate, List.rotate_rotate, List.rotate_rotate, Nat.add_comm]

lemma joints_perm_of_isRotated {loop loop' : List (List Vec2)} (h : loop ~r loop') :
    (joints loop').Perm (joints loop) := by
  obtain ⟨n, rfl⟩ := h
  rw [joints_rotate]
  exact List.rotate_perm _ _

lemma joints_backwards (loop : List (List Vec2)) :
    (joints (backwards loop)).Perm ((joints loop).map Prod.swap) := by
  rcases Nat.eq_zero_or_pos loop.length with hzero | hpos
  · rw [List.eq_nil_of_length_eq_zero hzero]
    rfl
  · have hturn : (loop.map List.reverse).reverse.rotate (loop.length - 1) =
        ((loop.rotate 1).map List.reverse).reverse := by
      rw [List.rotate_reverse, List.length_map, Nat.mod_eq_of_lt (by omega),
        show loop.length - (loop.length - 1) = 1 by omega, List.map_rotate]
    have hnext : List.zipWith (fun p q => (last p, first q)) loop (loop.rotate 1) =
        joints (loop.rotate 1) := by
      rw [joints_eq_rotate, List.rotate_rotate, List.length_rotate,
        show 1 + (loop.length - 1) = loop.length by omega, List.rotate_length]
    have hends : joints (backwards loop) = ((joints (loop.rotate 1)).map Prod.swap).reverse := by
      rw [joints_eq_rotate, backwards, List.length_reverse, List.length_map, hturn,
        ← List.reverse_zipWith (by simp), List.zipWith_map, ← hnext, List.zipWith_comm]
      simp [first_reverse, last_reverse, Prod.swap_prod_mk]
    rw [hends]
    exact (List.reverse_perm _).trans
      ((joints_perm_of_isRotated ⟨1, rfl⟩).map Prod.swap)

lemma first_mem {loop : List (List Vec2)} {p : List Vec2} (hp : p ∈ loop) :
    ∃ j ∈ joints loop, j.2 = first p := by
  obtain ⟨before, after, rfl⟩ := List.append_of_mem hp
  have hturn : before ++ p :: after ~r p :: after ++ before := List.isRotated_append
  have hhead := joints_cons p (after ++ before)
  exact ⟨_, (joints_perm_of_isRotated hturn).mem_iff.mp (hhead ▸ List.mem_cons_self), rfl⟩

lemma last_mem {loop : List (List Vec2)} {p : List Vec2} (hp : p ∈ loop) :
    ∃ j ∈ joints loop, j.1 = last p := by
  have hback : p.reverse ∈ backwards loop :=
    List.mem_reverse.mpr (List.mem_map_of_mem hp)
  obtain ⟨j, hj, hfirst⟩ := first_mem hback
  obtain ⟨i, hi, rfl⟩ := List.mem_map.mp ((joints_backwards loop).mem_iff.mp hj)
  exact ⟨i, hi, hfirst.trans (first_reverse p)⟩

end FabPcb.ChainJoints
