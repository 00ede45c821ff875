import Mathlib.Data.List.Nodup
import Mathlib.Data.List.Perm.Basic
import Mathlib.Data.List.Induction
import Mathlib.Data.List.DropRight

/-!
Grouping a list by a key, groups in the order of their first members.

Reading the groups off one after the other gives the list back exactly when its keys are
contiguous, that is when no key comes back after another one. Taking the run of one key off
the front of a list takes a member if everything ahead of it has its key, and else leaves
the run it ends as it is.
-/

namespace FabPcb.Grouping

/-- A non-empty list, as a group grows: the member that opened it and those that joined. -/
structure KeyGroup (α : Type*) where
  first : α
  rest : List α

variable {α κ : Type*}

def KeyGroup.toList (g : KeyGroup α) : List α := g.first :: g.rest

def KeyGroup.push (g : KeyGroup α) (a : α) : KeyGroup α := { g with rest := g.rest ++ [a] }

@[simp] lemma KeyGroup.toList_push (g : KeyGroup α) (a : α) :
    (g.push a).toList = g.toList ++ [a] := rfl

@[simp] lemma KeyGroup.first_push (g : KeyGroup α) (a : α) : (g.push a).first = g.first := rfl

/-- No key comes back after another one. -/
def Contiguous (ks : List κ) : Prop := ∀ a b, [a, b, a].Sublist ks → a = b

lemma Contiguous.sublist {ks ls : List κ} (h : Contiguous ks) (hl : ls.Sublist ks) :
    Contiguous ls := fun a b hab => h a b (hab.trans hl)

lemma Contiguous.map_congr {ι : Type*} {l : List α} {f : α → κ} {g : α → ι}
    (hfg : ∀ x ∈ l, ∀ y ∈ l, f x = f y ↔ g x = g y) (h : Contiguous (l.map f)) :
    Contiguous (l.map g) := by
  intro a b hab
  obtain ⟨l', hl', he⟩ := List.sublist_map_iff.mp hab
  obtain ⟨x, y, z, rfl⟩ : ∃ x y z, l' = [x, y, z] := by
    have hlen := congrArg List.length he
    simp only [List.length_cons, List.length_nil, List.length_map] at hlen
    exact List.length_eq_three.mp hlen.symm
  simp only [List.map_cons, List.map_nil, List.cons.injEq, and_true] at he
  obtain ⟨ha, hb, hz⟩ := he
  have hx := hl'.subset (by simp : x ∈ [x, y, z])
  have hy := hl'.subset (by simp : y ∈ [x, y, z])
  have hxz : f x = f z :=
    (hfg x hx z (hl'.subset (by simp))).mpr (ha.symm.trans hz)
  have hsub := hl'.map f
  simp only [List.map_cons, List.map_nil, ← hxz] at hsub
  rw [ha, hb]
  exact (hfg x hx y hy).mp (h _ _ hsub)

variable [DecidableEq κ] (key : α → κ)

/-- One member joins the group of its key, or opens one. -/
def insertGroup (gs : List (KeyGroup α)) (a : α) : List (KeyGroup α) :=
  if key a ∈ gs.map (key ·.first) then
    gs.map fun g => if key g.first = key a then g.push a else g
  else gs ++ [⟨a, []⟩]

def groupsOf (l : List α) : List (KeyGroup α) := l.foldl (insertGroup key) []

lemma groupsOf_snoc (l : List α) (a : α) :
    groupsOf key (l ++ [a]) = insertGroup key (groupsOf key l) a := by
  simp [groupsOf, List.foldl_append]

/-- Groups are told apart by their keys, and their members carry it. -/
structure Grouped (gs : List (KeyGroup α)) : Prop where
  nodup : (gs.map (key ·.first)).Nodup
  uniform : ∀ g ∈ gs, ∀ a ∈ g.toList, key a = key g.first

variable {key}

lemma insertGroup_of_mem {gs : List (KeyGroup α)} {a : α} (hg : Grouped key gs)
    (ha : key a ∈ gs.map (key ·.first)) :
    ∃ gs₁ g gs₂, gs = gs₁ ++ g :: gs₂ ∧ key g.first = key a ∧
      insertGroup key gs a = gs₁ ++ g.push a :: gs₂ := by
  obtain ⟨g, hmem, hkey⟩ := List.mem_map.mp ha
  obtain ⟨gs₁, gs₂, rfl⟩ := List.append_of_mem hmem
  have hnd := hg.nodup
  rw [List.map_append, List.map_cons, List.nodup_append', List.nodup_cons] at hnd
  obtain ⟨-, ⟨hn2, -⟩, hdisj⟩ := hnd
  have h1 : ∀ g' ∈ gs₁, key g'.first ≠ key a := by
    intro g' hg' he
    exact hdisj (List.mem_map_of_mem hg') (by simp [he, hkey])
  have h2 : ∀ g' ∈ gs₂, key g'.first ≠ key a := by
    intro g' hg' he
    exact hn2 (List.mem_map.mpr ⟨g', hg', by simp [he, hkey]⟩)
  refine ⟨gs₁, g, gs₂, rfl, hkey, ?_⟩
  rw [insertGroup, if_pos ha, List.map_append, List.map_cons, if_pos hkey]
  congr 1
  · conv_rhs => rw [← List.map_id gs₁]
    exact List.map_congr_left fun g' hg' => by simp [h1 g' hg']
  · congr 1
    conv_rhs => rw [← List.map_id gs₂]
    exact List.map_congr_left fun g' hg' => by simp [h2 g' hg']

lemma grouped_insertGroup {gs : List (KeyGroup α)} (hg : Grouped key gs) (a : α) :
    Grouped key (insertGroup key gs a) := by
  by_cases ha : key a ∈ gs.map (key ·.first)
  · obtain ⟨gs₁, g, gs₂, rfl, hkey, he⟩ := insertGroup_of_mem hg ha
    rw [he]
    refine ⟨by simpa using hg.nodup, fun g' hg' b hb => ?_⟩
    rcases List.mem_append.mp hg' with h | h
    · exact hg.uniform g' (by simp [h]) b hb
    · rcases List.mem_cons.mp h with rfl | h
      · rw [KeyGroup.toList_push, List.mem_append, List.mem_singleton] at hb
        rcases hb with hb | rfl
        · exact hg.uniform g (by simp) b hb
        · exact hkey.symm
      · exact hg.uniform g' (by simp [h]) b hb
  · rw [insertGroup, if_neg ha]
    refine ⟨?_, fun g' hg' b hb => ?_⟩
    · rw [List.map_append, List.nodup_append']
      refine ⟨hg.nodup, List.nodup_singleton _, fun k hk hk' => ?_⟩
      rw [List.map_singleton, List.mem_singleton] at hk'
      exact ha (hk' ▸ hk)
    · rcases List.mem_append.mp hg' with h | h
      · exact hg.uniform g' h b hb
      · rw [List.mem_singleton] at h
        subst h
        rw [List.mem_singleton.mp hb]

lemma grouped_groupsOf (l : List α) : Grouped key (groupsOf key l) := by
  induction l using List.reverseRecOn with
  | nil => exact ⟨List.nodup_nil, fun _ h => by cases h⟩
  | append_singleton l a ih => rw [groupsOf_snoc]; exact grouped_insertGroup ih a

lemma groupsOf_perm (l : List α) : ((groupsOf key l).flatMap KeyGroup.toList).Perm l := by
  induction l using List.reverseRecOn with
  | nil => exact List.Perm.nil
  | append_singleton l a ih =>
    rw [groupsOf_snoc]
    by_cases ha : key a ∈ (groupsOf key l).map (key ·.first)
    · obtain ⟨gs₁, g, gs₂, he, -, hi⟩ := insertGroup_of_mem (grouped_groupsOf l) ha
      rw [he] at ih
      rw [hi]
      simp only [List.flatMap_append, List.flatMap_cons, KeyGroup.toList_push] at ih ⊢
      refine List.Perm.trans ?_ (ih.append_right [a])
      rw [List.append_assoc, List.append_assoc, List.append_assoc]
      exact (List.perm_append_comm.append_left _).append_left _
    · rw [insertGroup, if_neg ha]
      simpa [KeyGroup.toList] using ih.append_right [a]

omit [DecidableEq κ] in
/-- Groups one after the other have contiguous keys. -/
lemma contiguous_flatten {gs : List (KeyGroup α)} (hg : Grouped key gs) :
    Contiguous ((gs.flatMap KeyGroup.toList).map key) := by
  induction gs with
  | nil => intro a b h; cases h
  | cons g gs ih =>
    obtain ⟨hnd, hun⟩ := hg
    rw [List.map_cons, List.nodup_cons] at hnd
    have hhead : ∀ k ∈ g.toList.map key, k = key g.first := by
      intro k hk
      obtain ⟨a, ha, rfl⟩ := List.mem_map.mp hk
      exact hun g (by simp) a ha
    have htail : key g.first ∉ (gs.flatMap KeyGroup.toList).map key := by
      intro hk
      obtain ⟨a, ha, he⟩ := List.mem_map.mp hk
      obtain ⟨g', hg', ha'⟩ := List.mem_flatMap.mp ha
      refine hnd.1 (List.mem_map.mpr ⟨g', hg', ?_⟩)
      rw [← hun g' (by simp [hg']) a ha', he]
    intro a b hab
    rw [List.flatMap_cons, List.map_append] at hab
    obtain ⟨l₁, l₂, he, h1, h2⟩ := List.sublist_append_iff.mp hab
    -- where the three keys are cut: if the first is in the head, so is the last
    rcases l₁ with _ | ⟨x, l₁⟩
    · rw [List.nil_append] at he
      exact ih ⟨hnd.2, fun g' hg' => hun g' (by simp [hg'])⟩ a b (he ▸ h2)
    · rw [List.cons_append] at he
      obtain ⟨rfl, htl⟩ := List.cons.inj he
      have hx : a = key g.first := hhead a (h1.subset (by simp))
      rcases l₁ with _ | ⟨y, l₁⟩
      · rw [List.nil_append] at htl
        have hmem : a ∈ l₂ := by simp [← htl]
        exact absurd (h2.subset hmem) (hx ▸ htail)
      · rw [List.cons_append] at htl
        have hb : b = y := (List.cons.inj htl).1
        rw [hx, hhead b (h1.subset (by simp [hb]))]

/-- **Contiguous keys**: the groups read off one after the other are the list. -/
theorem flatten_groupsOf_of_contiguous {l : List α} (h : Contiguous (l.map key)) :
    (groupsOf key l).flatMap KeyGroup.toList = l := by
  induction l using List.reverseRecOn with
  | nil => rfl
  | append_singleton l a ih =>
    have hprev := ih (h.sublist ((List.sublist_append_left l [a]).map key))
    rw [groupsOf_snoc]
    by_cases ha : key a ∈ (groupsOf key l).map (key ·.first)
    · obtain ⟨gs₁, g, gs₂, he, hkey, hi⟩ := insertGroup_of_mem (grouped_groupsOf l) ha
      rw [hi]
      rcases gs₂ with _ | ⟨g', gs₂⟩
      · rw [he] at hprev
        simp only [List.flatMap_append, List.flatMap_cons, List.flatMap_nil, List.append_nil,
          KeyGroup.toList_push] at hprev ⊢
        rw [← List.append_assoc, hprev]
      · -- another group stands between, so the key of `a` comes back after its key
        exfalso
        have hsub : [g.first, g'.first].Sublist l := by
          rw [← hprev, he]
          simp only [List.flatMap_append, List.flatMap_cons, KeyGroup.toList]
          refine List.Sublist.trans ?_ (List.sublist_append_right _ _)
          refine List.Sublist.cons_cons _ (List.Sublist.trans ?_ (List.sublist_append_right _ _))
          exact (List.nil_sublist _).cons_cons _
        have hback : [key a, key g'.first, key a].Sublist ((l ++ [a]).map key) := by
          have := (hsub.append (List.Sublist.refl [a])).map key
          simpa [hkey] using this
        have hnd : ((groupsOf key l).map (key ·.first)).Nodup := (grouped_groupsOf l).nodup
        have hne := h _ _ hback
        rw [he, List.map_append, List.nodup_append', List.map_cons, List.nodup_cons] at hnd
        exact hnd.2.1.1 (by simp [hkey, hne])
    · rw [insertGroup, if_neg ha]
      simp [KeyGroup.toList, hprev]

/-- Grouping moves no key exactly when the keys are contiguous. -/
theorem flatten_groupsOf_keys_iff (l : List α) :
    ((groupsOf key l).flatMap KeyGroup.toList).map key = l.map key ↔ Contiguous (l.map key) := by
  constructor
  · intro h
    rw [← h]
    exact contiguous_flatten (grouped_groupsOf l)
  · intro h
    rw [flatten_groupsOf_of_contiguous h]

/-! ### Runs of one key at the front -/

section Front

variable {p : α → Bool} {l r : List α} {x : α}

lemma takeWhile_through (hl : ∀ y ∈ l, p y = true) (hx : p x = true) :
    (l ++ x :: r).takeWhile p = l ++ x :: r.takeWhile p := by
  have hself : l.takeWhile p = l := List.takeWhile_eq_self_iff.mpr hl
  rw [List.takeWhile_append, hself, if_pos rfl, List.takeWhile_cons_of_pos hx]

lemma takeWhile_cut (h : ¬ ((∀ y ∈ l, p y = true) ∧ p x = true)) :
    (l ++ x :: r).takeWhile p = l.takeWhile p ∧
      (l ++ x :: r).dropWhile p = l.dropWhile p ++ x :: r := by
  rw [List.takeWhile_append, List.dropWhile_append]
  by_cases hall : ∀ y ∈ l, p y = true
  · have hx : p x = false := by simpa using fun hx => h ⟨hall, hx⟩
    have hself : l.takeWhile p = l := List.takeWhile_eq_self_iff.mpr hall
    have hnil : l.dropWhile p = [] := List.dropWhile_eq_nil_iff.mpr hall
    simp [hself, hnil, hx]
  · have hlen : ¬ (l.takeWhile p).length = l.length := by
      intro he
      have hself := (List.takeWhile_prefix p).eq_of_length he
      exact hall (List.takeWhile_eq_self_iff.mp hself)
    have hne : l.dropWhile p ≠ [] := fun hnil => hall (List.dropWhile_eq_nil_iff.mp hnil)
    simp [hlen, hne]

lemma rtakeWhile_append {xs ys : List α}
    (h : (∀ x ∈ xs, p x = false) ∨ ∃ y ∈ ys, p y = false) :
    (xs ++ ys).rtakeWhile p = ys.rtakeWhile p := by
  simp only [List.rtakeWhile, List.reverse_append]
  rw [List.takeWhile_append]
  split_ifs with hlen
  · have hself := (List.takeWhile_prefix p).eq_of_length hlen
    have hall : ∀ y ∈ ys.reverse, p y = true := List.takeWhile_eq_self_iff.mp hself
    rcases h with hx | ⟨y, hy, hpy⟩
    · have hnil : xs.reverse.takeWhile p = [] := by
        rcases hr : xs.reverse with _ | ⟨x, l⟩
        · rfl
        · have hmem : x ∈ xs := List.mem_reverse.mp (by rw [hr]; simp)
          simp [hx x hmem]
      rw [hnil, List.append_nil, hself]
    · rw [hall y (List.mem_reverse.mpr hy)] at hpy
      cases hpy
  · rfl

/-- Taking the run at the front leaves the run at the end, unless they are one. -/
lemma rtakeWhile_dropWhile (key : α → κ) {a : α} {k : κ}
    (h : ¬ ((∀ y ∈ l, key y = key a) ∧ k = key a)) :
    (a :: l).rtakeWhile (fun y => decide (key y = k)) =
      (l.dropWhile fun y => decide (key y = key a)).rtakeWhile (fun y => decide (key y = k)) := by
  set p : α → Bool := fun y => decide (key y = key a) with hp
  have hsplit : a :: l.takeWhile p ++ l.dropWhile p = a :: l := by
    rw [List.cons_append, List.takeWhile_append_dropWhile]
  rw [← hsplit]
  refine rtakeWhile_append ?_
  by_cases hk : k = key a
  · -- what comes first behind the run has another key
    right
    rcases hd : l.dropWhile p with _ | ⟨y, ys⟩
    · refine absurd ⟨fun y hy => ?_, hk⟩ h
      have := List.dropWhile_eq_nil_iff.mp hd y hy
      simpa [hp] using this
    · have hy : p y = false := by
        have := List.head_dropWhile_not p (l := l) (by simp [hd])
        simpa [hd] using this
      have hne : key y ≠ key a := by simpa [hp] using hy
      exact ⟨y, by simp, by simpa [hk] using hne⟩
  · left
    intro y hy
    have hya : key y = key a := by
      rcases List.mem_cons.mp hy with rfl | hy
      · rfl
      · have := List.mem_takeWhile_imp hy
        simpa [hp] using this
    simpa [hya] using fun he => hk he.symm

end Front

end FabPcb.Grouping
