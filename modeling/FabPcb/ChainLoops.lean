import FabPcb.ChainJoints

/-!
What `chainOutline` recovers: closed outlines, from their pieces in any order and direction.

While a chain grows along its loop, the loop of the chain and of the pieces still to come has the
joints of the loop that are not used yet. The tail of the chain is in the next of them, all other
ends are in others, so exactly one of the pieces left fits, and by one end only.
-/

namespace FabPcb.ChainLoops

open SpecctraData (Vec2)
open OutlineChain ChainJoints

/-! ### What the pieces are pieces of -/

/-- No end at one joint is near an end at the other. -/
def Apart (tolerance : ℚ) (j i : Vec2 × Vec2) : Prop :=
  (¬ near tolerance j.1 i.1 ∧ ¬ near tolerance j.1 i.2) ∧
    ¬ near tolerance j.2 i.1 ∧ ¬ near tolerance j.2 i.2

instance (tolerance : ℚ) (j i : Vec2 × Vec2) : Decidable (Apart tolerance j i) :=
  inferInstanceAs (Decidable ((_ ∧ _) ∧ _ ∧ _))

/-- Loops of three vertices or more, cut into pieces: the ends that meet are near, and no others. -/
structure Cut (tolerance : ℚ) (loops : List (List (List Vec2))) : Prop where
  ends : ∀ loop ∈ loops, ∀ p ∈ loop, 2 ≤ p.length
  vertices : ∀ loop ∈ loops, 3 ≤ (loop.map fun p => p.length - 1).sum
  meet : ∀ loop ∈ loops, ∀ j ∈ joints loop, near tolerance j.1 j.2
  apart : (loops.flatMap joints).Pairwise (Apart tolerance)

/-- The vertices of a loop in their order, given a point for the joint before each piece. -/
def vertices (loop : List (List Vec2)) (reps : List Vec2) : List Vec2 :=
  (reps.zip loop).flatMap fun qp => qp.1 :: interior qp.2

/-- The same loop, read from some piece on in one direction or the other. -/
def Turned (loop turned : List (List Vec2)) : Prop := loop ~r turned ∨ backwards loop ~r turned

/-- The polygon lists the vertices of the loop, read from some piece on in one direction or the
other, with one of its two ends for each joint. -/
def Traces (loop : List (List Vec2)) (poly : List Vec2) : Prop :=
  ∃ turned reps, Turned loop turned ∧
    List.Forall₂ (fun j q => q = j.1 ∨ q = j.2) (joints turned) reps ∧ poly = vertices turned reps

/-! ### The piece that fits -/

section Fits

variable {tolerance : ℚ} {tail : Vec2} {p : List Vec2}

lemma near_comm (a b : Vec2) : near tolerance a b = near tolerance b a := by
  have hx : (a.x - b.x) ^ 2 = (b.x - a.x) ^ 2 := by ring
  have hy : (a.y - b.y) ^ 2 = (b.y - a.y) ^ 2 := by ring
  rw [near, near, hx, hy]

lemma Apart.symm {j i : Vec2 × Vec2} (h : Apart tolerance j i) : Apart tolerance i j := by
  obtain ⟨⟨h1, h2⟩, h3, h4⟩ := h
  refine ⟨⟨?_, ?_⟩, ?_, ?_⟩
  · rwa [near_comm]
  · rwa [near_comm]
  · rwa [near_comm]
  · rwa [near_comm]

/-- Neither end of the piece is near the tail of the chain. -/
def Misfit (tolerance : ℚ) (tail : Vec2) (q : List Vec2) : Prop :=
  ¬ near tolerance tail (first q) ∧ ¬ near tolerance tail (last q)

lemma Misfit.of_unoriented {q cand : List Vec2} (h : Misfit tolerance tail q)
    (hkey : unoriented cand = unoriented q) : Misfit tolerance tail cand := by
  rcases unoriented_eq_iff.mp hkey with rfl | rfl
  · exact h
  · rw [Misfit, first_reverse, last_reverse]
    exact ⟨h.2, h.1⟩

/-- **The inner loop takes the one piece that fits**, wherever it is and whichever way round. -/
lemma takeNext_eq (hfirst : near tolerance tail (first p))
    (hlast : ¬ near tolerance tail (last p)) :
    ∀ (pieces rest : List (List Vec2)),
      (pieces.map unoriented).Perm ((p :: rest).map unoriented) →
      (∀ q ∈ rest, Misfit tolerance tail q) →
      ∃ left, takeNext tolerance tail pieces = some (p.tail, left) ∧
        (left.map unoriented).Perm (rest.map unoriented) := by
  intro pieces
  induction pieces with
  | nil =>
    intro rest hperm
    exact absurd hperm.length_eq (by simp)
  | cons cand pieces ih =>
    intro rest hperm hrest
    rw [List.map_cons] at hperm
    by_cases hkey : unoriented cand = unoriented p
    · have hleft := (hkey ▸ hperm).cons_inv
      rcases unoriented_eq_iff.mp hkey with rfl | rfl
      · exact ⟨pieces, by rw [takeNext, if_pos hfirst], hleft⟩
      · refine ⟨pieces, ?_, hleft⟩
        rw [takeNext, first_reverse, last_reverse, if_neg hlast, if_pos hfirst,
          List.dropLast_reverse, List.reverse_reverse]
    · have hmem : unoriented cand ∈ rest.map unoriented := by
        rcases List.mem_cons.mp (hperm.subset List.mem_cons_self) with h | h
        · exact absurd h hkey
        · exact h
      obtain ⟨q, hq, hqkey⟩ := List.mem_map.mp hmem
      obtain ⟨before, after, rfl⟩ := List.append_of_mem hq
      have hmisfit := (hrest q hq).of_unoriented hqkey.symm
      have hsplit : ((before ++ q :: after).map unoriented).Perm
          (unoriented cand :: (before ++ after).map unoriented) := by
        have hmiddle : (before ++ q :: after).Perm (q :: (before ++ after)) := List.perm_middle
        have := hmiddle.map unoriented
        rwa [List.map_cons, hqkey] at this
      have hothers : (pieces.map unoriented).Perm ((p :: (before ++ after)).map unoriented) :=
        ((hperm.trans (hsplit.cons _)).trans (List.Perm.swap _ _ _)).cons_inv
      have hkept : ∀ r ∈ before ++ after, Misfit tolerance tail r := fun r hr => by
        refine hrest r ?_
        rcases List.mem_append.mp hr with hr | hr
        · exact List.mem_append_left _ hr
        · exact List.mem_append_right _ (List.mem_cons_of_mem _ hr)
      obtain ⟨left, htake, hperm'⟩ := ih _ hothers hkept
      refine ⟨cand :: left, ?_, ?_⟩
      · rw [takeNext, if_neg hmisfit.1, if_neg hmisfit.2, htake, Option.map_some]
      · exact (hperm'.cons _).trans hsplit.symm

end Fits

/-! ### A chain along its loop -/

/-- Between two rounds of the inner loop: `c` is the chain, `ps` the pieces of its loop still to
come, `rest` those of the other loops, whose joints are `others`. -/
structure Growing (tolerance : ℚ) (others : List (Vec2 × Vec2)) (rest : List (List Vec2))
    (c : List Vec2) (ps pieces : List (List Vec2)) : Prop where
  start : 2 ≤ c.length
  ends : ∀ p ∈ ps, 2 ≤ p.length
  vertices : 3 ≤ c.length - 1 + (ps.map fun p => p.length - 1).sum
  meet : ∀ j ∈ joints (c :: ps), near tolerance j.1 j.2
  apart : (joints (c :: ps) ++ others).Pairwise (Apart tolerance)
  elsewhere : ∀ q ∈ rest, (∃ j ∈ others, j.2 = first q) ∧ ∃ j ∈ others, j.1 = last q
  left : (pieces.map unoriented).Perm ((ps ++ rest).map unoriented)

section Growing

variable {tolerance : ℚ} {others : List (Vec2 × Vec2)} {rest : List (List Vec2)}
  {c p : List Vec2} {ps pieces : List (List Vec2)}

lemma Growing.ne_nil (h : Growing tolerance others rest c ps pieces) : c ≠ [] :=
  List.ne_nil_of_length_pos (by have := h.start; omega)

lemma Growing.head (h : Growing tolerance others rest c (p :: ps) pieces) :
    near tolerance (last c) (first p) ∧
      (∀ j ∈ joints (glue c p :: ps) ++ others, Apart tolerance (last c, first p) j) ∧
      (joints (glue c p :: ps) ++ others).Pairwise (Apart tolerance) ∧
      ∀ j ∈ joints (glue c p :: ps), near tolerance j.1 j.2 := by
  have hglue := joints_glue h.ne_nil (h.ends p List.mem_cons_self) ps
  have hpairs := (hglue.append_right others).pairwise h.apart fun hj => hj.symm
  rw [List.cons_append, List.pairwise_cons] at hpairs
  refine ⟨h.meet (last c, first p) (hglue.mem_iff.mpr List.mem_cons_self), hpairs.1, hpairs.2, ?_⟩
  exact fun j hj => h.meet j (hglue.mem_iff.mpr (List.mem_cons_of_mem _ hj))

lemma Growing.not_closes (h : Growing tolerance others rest c (p :: ps) pieces) :
    closes tolerance c = false := by
  have happart := h.head.2.1 (last ((glue c p :: ps).getLastD []), first (glue c p))
    (List.mem_append_left _ (joints_cons _ _ ▸ List.mem_cons_self))
  have hfar := happart.1.2
  rw [first_glue h.ne_nil] at hfar
  rw [closes, Bool.eq_false_iff.mpr hfar, Bool.and_false]

lemma misfit_of_apart {q : List Vec2} {js : List (Vec2 × Vec2)} {j : Vec2 × Vec2}
    (hjs : ∀ i ∈ js, Apart tolerance j i) (hfirst : ∃ i ∈ js, i.2 = first q)
    (hlast : ∃ i ∈ js, i.1 = last q) : Misfit tolerance j.1 q := by
  obtain ⟨i, hi, hi2⟩ := hfirst
  obtain ⟨k, hk, hk1⟩ := hlast
  exact ⟨hi2 ▸ (hjs i hi).1.2, hk1 ▸ (hjs k hk).1.1⟩

/-- **One round.** The next piece of the loop is taken and glued to the chain. -/
lemma Growing.step (h : Growing tolerance others rest c (p :: ps) pieces) :
    ∃ left, takeNext tolerance (last c) pieces = some (p.tail, left) ∧
      Growing tolerance others rest (glue c p) ps left := by
  obtain ⟨hnear, hapart, hpairs, hmeet⟩ := h.head
  have hp := h.ends p List.mem_cons_self
  have hlast : ¬ near tolerance (last c) (last p) := by
    have hglued : glue c p ∈ glue c p :: ps := List.mem_cons_self
    obtain ⟨j, hj, hj1⟩ := last_mem hglued
    rw [last_glue c hp] at hj1
    exact hj1 ▸ (hapart j (List.mem_append_left _ hj)).1.1
  have hmisfit : ∀ q ∈ ps ++ rest, Misfit tolerance (last c) q := by
    intro q hq
    rcases List.mem_append.mp hq with hq | hq
    · have hloop : q ∈ glue c p :: ps := List.mem_cons_of_mem _ hq
      exact misfit_of_apart (j := (last c, first p))
        (fun i hi => hapart i (List.mem_append_left _ hi)) (first_mem hloop) (last_mem hloop)
    · exact misfit_of_apart (j := (last c, first p))
        (fun i hi => hapart i (List.mem_append_right _ hi)) (h.elsewhere q hq).1
        (h.elsewhere q hq).2
  obtain ⟨left, htake, hleft⟩ := takeNext_eq hnear hlast pieces (ps ++ rest) h.left hmisfit
  refine ⟨left, htake, ?_⟩
  have hlength : (glue c p).length = c.length + (p.length - 1) := by
    rw [glue, List.length_append, List.length_tail]
  have hvertices := h.vertices
  rw [List.map_cons, List.sum_cons] at hvertices
  have hstart := h.start
  exact
    { start := by omega
      ends := fun q hq => h.ends q (List.mem_cons_of_mem _ hq)
      vertices := by omega
      meet := hmeet
      apart := hpairs
      elsewhere := h.elsewhere
      left := hleft }

/-- **The chain goes round its loop**, closes there, and leaves the pieces of the other loops. -/
lemma Growing.extend_eq (h : Growing tolerance others rest c ps pieces) :
    ∃ left, extend tolerance c pieces = (ps.foldl glue c, left) ∧
      closes tolerance (ps.foldl glue c) ∧ (left.map unoriented).Perm (rest.map unoriented) := by
  induction ps generalizing c pieces with
  | nil =>
    have hclosed : closes tolerance c := by
      have hnear := h.meet (last c, first c) List.mem_cons_self
      have hlong := h.vertices
      rw [List.map_nil, List.sum_nil] at hlong
      rw [closes, hnear, Bool.and_true, decide_eq_true_eq]
      omega
    exact ⟨pieces, extend_of_closes hclosed, hclosed, h.left⟩
  | cons p ps ih =>
    obtain ⟨left, htake, hnext⟩ := h.step
    obtain ⟨left', hextend, hclosed, hleft⟩ := ih hnext
    refine ⟨left', ?_, hclosed, hleft⟩
    rw [extend_of_takeNext h.not_closes htake]
    exact hextend

end Growing

/-! ### The polygon of a chain -/

/-- The points for the joints that the chain keeps: where it starts, and where each piece ends. -/
def kept (q : Vec2) (ps : List (List Vec2)) : List Vec2 := q :: ps.dropLast.map last

lemma foldl_glue (c : List Vec2) (ps : List (List Vec2)) :
    ps.foldl glue c = c ++ ps.flatMap List.tail := by
  induction ps generalizing c with
  | nil => simp
  | cons p ps ih => rw [List.foldl_cons, ih, glue, List.append_assoc, List.flatMap_cons]

/-- **The chain without its last point** lists the vertices of its loop. -/
lemma dropLast_glued (q : Vec2) (p : List Vec2) (ps : List (List Vec2))
    (hps : ∀ r ∈ ps, 2 ≤ r.length) :
    (q :: (interior p ++ [last p]) ++ ps.flatMap List.tail).dropLast =
      vertices (p :: ps) (kept q (p :: ps)) := by
  induction ps generalizing q p with
  | nil =>
    have hlast : q :: (interior p ++ [last p]) = q :: interior p ++ [last p] := rfl
    rw [List.flatMap_nil, List.append_nil, hlast, List.dropLast_concat]
    simp [kept, vertices]
  | cons r ps ih =>
    have hr := eq_ends (hps r List.mem_cons_self)
    have htail : r.tail = interior r ++ [last r] := congrArg List.tail hr
    have hrest := ih (last p) r fun s hs => hps s (List.mem_cons_of_mem _ hs)
    have hvertices : vertices (p :: r :: ps) (kept q (p :: r :: ps)) =
        q :: interior p ++ vertices (r :: ps) (kept (last p) (r :: ps)) := rfl
    rw [hvertices, ← hrest, List.flatMap_cons, htail]
    rw [← List.dropLast_append_of_ne_nil (by simp)]
    simp

lemma kept_joints (p : List Vec2) (ps : List (List Vec2)) :
    List.Forall₂ (fun j q => q = j.1 ∨ q = j.2) (joints (p :: ps)) (kept (first p) (p :: ps)) := by
  refine .cons (.inr rfl) ?_
  induction ps generalizing p with
  | nil => exact .nil
  | cons r ps ih =>
    exact .cons (.inl rfl) (ih r)

/-! ### All loops -/

section Loops

variable {tolerance : ℚ} {loop : List (List Vec2)} {loops : List (List (List Vec2))}

lemma exists_turned {c p : List Vec2} (hp : p ∈ loop) (hkey : unoriented c = unoriented p) :
    ∃ ps, Turned loop (c :: ps) := by
  rcases unoriented_eq_iff.mp hkey with rfl | rfl
  · obtain ⟨before, after, rfl⟩ := List.append_of_mem hp
    exact ⟨after ++ before, .inl List.isRotated_append⟩
  · have hback : p.reverse ∈ backwards loop := List.mem_reverse.mpr (List.mem_map_of_mem hp)
    obtain ⟨before, after, hsplit⟩ := List.append_of_mem hback
    exact ⟨after ++ before, .inr (hsplit ▸ List.isRotated_append)⟩

lemma Turned.perm {turned : List (List Vec2)} (h : Turned loop turned) :
    turned.Perm loop ∧ (joints turned).Perm (joints loop) ∨
      turned.Perm (loop.map List.reverse) ∧
        (joints turned).Perm ((joints loop).map Prod.swap) := by
  rcases h with h | h
  · exact .inl ⟨h.perm.symm, joints_perm_of_isRotated h⟩
  · exact .inr ⟨h.perm.symm.trans (List.reverse_perm _),
      (joints_perm_of_isRotated h).trans (joints_backwards loop)⟩

lemma Turned.map_perm {β : Type*} {turned : List (List Vec2)} (h : Turned loop turned)
    {f : List Vec2 → β} (hf : ∀ p, f p.reverse = f p) : (turned.map f).Perm (loop.map f) := by
  rcases h.perm with ⟨h, -⟩ | ⟨h, -⟩
  · exact h.map f
  · have hsame : loop.map (f ∘ List.reverse) = loop.map f := List.map_congr_left fun p _ => hf p
    have := h.map f
    rwa [List.map_map, hsame] at this

lemma apart_swap {j i : Vec2 × Vec2} (h : Apart tolerance j i) : Apart tolerance j.swap i :=
  ⟨h.2, h.1⟩

lemma Turned.meet {turned : List (List Vec2)} (h : Turned loop turned)
    (hmeet : ∀ j ∈ joints loop, near tolerance j.1 j.2) :
    ∀ j ∈ joints turned, near tolerance j.1 j.2 := by
  intro j hj
  rcases h.perm with ⟨-, h⟩ | ⟨-, h⟩
  · exact hmeet j (h.mem_iff.mp hj)
  · obtain ⟨i, hi, rfl⟩ := List.mem_map.mp (h.mem_iff.mp hj)
    rw [near_comm]
    exact hmeet i hi

lemma Turned.apart {turned : List (List Vec2)} (h : Turned loop turned)
    {others : List (Vec2 × Vec2)} (hapart : (joints loop ++ others).Pairwise (Apart tolerance)) :
    (joints turned ++ others).Pairwise (Apart tolerance) := by
  rcases h.perm with ⟨-, h⟩ | ⟨-, h⟩
  · exact (h.symm.append_right others).pairwise hapart fun hj => hj.symm
  · refine (h.symm.append_right others).pairwise ?_ fun hj => hj.symm
    obtain ⟨hloop, hothers, hcross⟩ := List.pairwise_append.mp hapart
    refine List.pairwise_append.mpr ⟨List.pairwise_map.mpr ?_, hothers, ?_⟩
    · exact hloop.imp fun hj => apart_swap (apart_swap hj.symm).symm
    · intro j hj i hi
      obtain ⟨k, hk, rfl⟩ := List.mem_map.mp hj
      exact apart_swap (hcross k hk i hi)

lemma Cut.perm {loops' : List (List (List Vec2))} (h : Cut tolerance loops)
    (hperm : loops.Perm loops') : Cut tolerance loops' where
  ends := fun loop hloop => h.ends loop (hperm.mem_iff.mpr hloop)
  vertices := fun loop hloop => h.vertices loop (hperm.mem_iff.mpr hloop)
  meet := fun loop hloop => h.meet loop (hperm.mem_iff.mpr hloop)
  apart := (hperm.flatMap_right joints).pairwise h.apart fun hj => hj.symm

lemma Cut.tail (h : Cut tolerance (loop :: loops)) : Cut tolerance loops where
  ends := fun loop hloop => h.ends loop (List.mem_cons_of_mem _ hloop)
  vertices := fun loop hloop => h.vertices loop (List.mem_cons_of_mem _ hloop)
  meet := fun loop hloop => h.meet loop (List.mem_cons_of_mem _ hloop)
  apart := (List.pairwise_append.mp h.apart).2.1

/-- A chain that has only its first piece is growing along the loop of that piece. -/
lemma Cut.growing (h : Cut tolerance (loop :: loops)) {c : List Vec2} {ps pieces : List (List Vec2)}
    (hturned : Turned loop (c :: ps))
    (hleft : (pieces.map unoriented).Perm ((ps ++ loops.flatten).map unoriented)) :
    Growing tolerance (loops.flatMap joints) loops.flatten c ps pieces := by
  have hends : ∀ p ∈ c :: ps, 2 ≤ p.length := by
    intro p hp
    have hmem : p.length ∈ (c :: ps).map List.length := List.mem_map_of_mem hp
    have hlengths := hturned.map_perm (f := List.length) fun _ => List.length_reverse
    obtain ⟨q, hq, hlength⟩ := List.mem_map.mp (hlengths.mem_iff.mp hmem)
    exact hlength ▸ h.ends loop List.mem_cons_self q hq
  have hsum := (hturned.map_perm (f := fun p => p.length - 1) fun p => by simp).sum_eq
  have hvertices := h.vertices loop List.mem_cons_self
  rw [← hsum] at hvertices
  exact
    { start := hends c List.mem_cons_self
      ends := fun p hp => hends p (List.mem_cons_of_mem _ hp)
      vertices := hvertices
      meet := hturned.meet (h.meet loop List.mem_cons_self)
      apart := hturned.apart h.apart
      elsewhere := fun q hq => by
        obtain ⟨other, hother, hq⟩ := List.mem_flatten.mp hq
        have hjoints : ∀ j ∈ joints other, j ∈ loops.flatMap joints :=
          fun j hj => List.mem_flatMap.mpr ⟨other, hother, hj⟩
        obtain ⟨j, hj, hfirst⟩ := first_mem hq
        obtain ⟨i, hi, hlast⟩ := last_mem hq
        exact ⟨⟨j, hjoints j hj, hfirst⟩, i, hjoints i hi, hlast⟩
      left := hleft }

lemma traces_glued {c : List Vec2} {ps : List (List Vec2)} (hturned : Turned loop (c :: ps))
    (hc : 2 ≤ c.length) (hps : ∀ p ∈ ps, 2 ≤ p.length) :
    Traces loop (ps.foldl glue c).dropLast := by
  refine ⟨c :: ps, kept (first c) (c :: ps), hturned, kept_joints c ps, ?_⟩
  rw [← dropLast_glued _ _ _ hps, ← eq_ends hc, foldl_glue]

/-- **The outer loop** finds the loops, in the order of their first pieces. -/
lemma chainAll_traces (n : ℕ) : ∀ (loops : List (List (List Vec2))) (pieces : List (List Vec2)),
    loops.length = n → Cut tolerance loops →
      (pieces.map unoriented).Perm (loops.flatten.map unoriented) →
      ∃ polys, (chainAll tolerance pieces).Perm polys ∧ List.Forall₂ Traces loops polys := by
  induction n with
  | zero =>
    intro loops pieces hn hcut hperm
    obtain rfl := List.eq_nil_of_length_eq_zero hn
    obtain rfl : pieces = [] := by simpa using hperm
    exact ⟨[], by rw [chainAll], .nil⟩
  | succ n ih =>
    intro loops pieces hn hcut hperm
    cases pieces with
    | nil =>
      -- A loop has three vertices, so it has a piece.
      obtain ⟨loop, others, rfl⟩ := List.exists_cons_of_length_eq_add_one hn
      have hvertices := hcut.vertices loop List.mem_cons_self
      have hempty := (List.nil_perm.mp hperm)
      rw [List.map_eq_nil_iff, List.flatten_cons, List.append_eq_nil_iff] at hempty
      rw [hempty.1] at hvertices
      exact absurd hvertices (by simp)
    | cons c pieces =>
      have hmem : unoriented c ∈ loops.flatten.map unoriented :=
        hperm.subset List.mem_cons_self
      obtain ⟨p, hp, hkey⟩ := List.mem_map.mp hmem
      obtain ⟨loop, hloop, hpiece⟩ := List.mem_flatten.mp hp
      obtain ⟨before, after, rfl⟩ := List.append_of_mem hloop
      have hmiddle : (before ++ loop :: after).Perm (loop :: (before ++ after)) :=
        List.perm_middle
      obtain ⟨ps, hturned⟩ := exists_turned hpiece hkey.symm
      have hcut' := hcut.perm hmiddle
      have hleft : (pieces.map unoriented).Perm
          ((ps ++ (before ++ after).flatten).map unoriented) := by
        have hflat := hperm.trans (hmiddle.flatten.map unoriented)
        rw [List.flatten_cons, List.map_append] at hflat
        have := hflat.trans ((hturned.map_perm unoriented_reverse).symm.append_right _)
        rw [List.map_append]
        exact this.cons_inv
      have hgrowing := hcut'.growing hturned hleft
      obtain ⟨left, hextend, hcloses, hrest⟩ := hgrowing.extend_eq
      have hlength : (before ++ after).length = n := by
        have := hmiddle.length_eq
        rw [List.length_cons] at this
        omega
      obtain ⟨polys, hchain, htraces⟩ := ih (before ++ after) left hlength hcut'.tail hrest
      have htrace := traces_glued hturned hgrowing.start hgrowing.ends
      obtain ⟨polys', hpolys', hperm'⟩ := List.perm_comp_forall₂ hmiddle (.cons htrace htraces)
      refine ⟨polys', ?_, hpolys'⟩
      rw [chainAll]
      simp only [hextend, hcloses, if_true, List.singleton_append]
      exact (hchain.cons _).trans hperm'.symm

end Loops

/-- **Closed outlines are recovered.** Whatever the order of the pieces and the direction of each,
there is one polygon for each loop and it lists the vertices of the loop in cyclic order, with
one of the two ends for each joint. Pieces that are closed themselves pass through. -/
theorem chainOutline_recovers {tolerance : ℚ} {loops : List (List (List Vec2))}
    (hcut : Cut tolerance loops) {pieces : List OutlinePiece}
    (hpieces : ((openPieces pieces).map unoriented).Perm (loops.flatten.map unoriented)) :
    ∃ polys, (chainOutline pieces tolerance).Perm (closedPieces pieces ++ polys) ∧
      List.Forall₂ Traces loops polys := by
  obtain ⟨polys, hperm, htraces⟩ := chainAll_traces loops.length loops _ rfl hcut hpieces
  exact ⟨polys, (List.mergeSort_perm _ _).trans (hperm.append_left _), htraces⟩

/-- A square in two pieces and a triangle in one, with the ends a unit apart. -/
def twoLoops : List (List (List Vec2)) :=
  [[[⟨0, 0⟩, ⟨10, 0⟩, ⟨10, 10⟩], [⟨10, 11⟩, ⟨0, 10⟩, ⟨0, 1⟩]],
    [[⟨20, 20⟩, ⟨30, 20⟩, ⟨20, 30⟩, ⟨20, 20⟩]]]

/-- The second piece of the square comes first, the other way round. -/
def shuffled : List OutlinePiece :=
  [⟨[⟨0, 1⟩, ⟨0, 10⟩, ⟨10, 11⟩], false⟩, ⟨[⟨20, 20⟩, ⟨30, 20⟩, ⟨20, 30⟩, ⟨20, 20⟩], false⟩,
    ⟨[⟨0, 0⟩, ⟨10, 0⟩, ⟨10, 10⟩], false⟩]

theorem twoLoops_recovered :
    ∃ polys, (chainOutline shuffled 1).Perm (closedPieces shuffled ++ polys) ∧
      List.Forall₂ Traces twoLoops polys :=
  chainOutline_recovers
    { ends := by decide +kernel
      vertices := by decide +kernel
      meet := by decide +kernel
      apart := by decide +kernel }
    (by decide +kernel)

end FabPcb.ChainLoops
