import FabPcb.OrderedMap
import Mathlib.Data.List.Induction
import Mathlib.Data.List.Infix
import Mathlib.Order.Nat

/-!
Trees of files and directories, how they are listed, and ways to write to them.

A path is a list of names from the top, the outermost first. What is not at the top is in a
directory. A listing goes into each directory it comes to, so a directory stands before what
is in it. What is asked of a way to write is little: what it does where it is used as it
should be, and that it never turns a file into a directory or a directory into a file.
-/

namespace FabPcb.MirrorTrees

open OrderedMap

variable {ν δ : Type}

/-- A file, with its time, or a directory. -/
inductive Entry (δ : Type) where
  | file (data : δ) (mtime : ℕ)
  | dir

instance decidableEqDir : (e : Option (Entry δ)) → Decidable (e = some .dir)
  | none => isFalse nofun
  | some (.file ..) => isFalse nofun
  | some .dir => isTrue rfl

structure Tree (ν δ : Type) [DecidableEq ν] where
  map : OMap (List ν) (Entry δ)
  inside : ∀ p e, map.get? p = some e →
    ∃ q n, p = q ++ [n] ∧ (q = [] ∨ map.get? q = some .dir)

namespace Tree

variable [DecidableEq ν]

def empty : Tree ν δ := ⟨.empty, fun _ _ h => (by cases h)⟩

/-- What is at a path. The top is a directory. -/
def get (t : Tree ν δ) (p : List ν) : Option (Entry δ) :=
  if p = [] then some .dir else t.map.get? p

variable {t t' : Tree ν δ} {p q : List ν} {n : ν} {e : Entry δ}

@[simp] lemma get_nil : t.get [] = some .dir := rfl

lemma get_concat : t.get (p ++ [n]) = t.map.get? (p ++ [n]) := if_neg (by simp)

lemma get_parent (h : t.get (p ++ [n]) = some e) : t.get p = some .dir := by
  rw [get_concat] at h
  obtain ⟨q, m, hp, hq⟩ := t.inside _ _ h
  obtain ⟨rfl, -⟩ := List.append_inj' hp rfl
  rcases hq with rfl | hq
  · rfl
  · by_cases hnil : p = []
    · rw [hnil, get_nil]
    · rw [get, if_neg hnil, hq]

lemma get_above (h : t.get p = some e) (hq : q <+: p) (hne : q ≠ p) :
    t.get q = some .dir := by
  induction p using List.reverseRecOn generalizing e with
  | nil => exact absurd (List.prefix_nil.mp hq) hne
  | append_singleton p n ih =>
    have hparent := get_parent h
    rcases List.prefix_concat_iff.mp hq with rfl | hq
    · exact absurd rfl hne
    · by_cases hqp : q = p
      · rw [hqp, hparent]
      · exact ih hparent hq hqp

/-! ### Changes -/

/-- An entry put in a directory: a new one, or a file in the place of a file. -/
def put (t : Tree ν δ) (p : List ν) (n : ν) (e : Entry δ) (hp : t.get p = some .dir)
    (hdir : t.get (p ++ [n]) ≠ some .dir) : Tree ν δ where
  map := t.map.set (p ++ [n]) e
  inside q e' h := by
    have hold : ∀ r, r = [] ∨ t.map.get? r = some .dir →
        r = [] ∨ (t.map.set (p ++ [n]) e).get? r = some .dir := by
      rintro r (hr | hr)
      · exact Or.inl hr
      · refine Or.inr ?_
        rw [OMap.get?_set, if_neg, hr]
        rintro rfl
        exact hdir (get_concat.trans hr)
    by_cases hq : q = p ++ [n]
    · refine ⟨p, n, hq, hold p ?_⟩
      by_cases hnil : p = []
      · exact Or.inl hnil
      · rw [get, if_neg hnil] at hp
        exact Or.inr hp
    · rw [OMap.get?_set, if_neg hq] at h
      obtain ⟨r, m, hrm, hr⟩ := t.inside q e' h
      exact ⟨r, m, hrm, hold r hr⟩

lemma get_put (hp : t.get p = some .dir) (hdir : t.get (p ++ [n]) ≠ some .dir) :
    (t.put p n e hp hdir).get q = if q = p ++ [n] then some e else t.get q := by
  by_cases hq : q = []
  · rw [hq, get_nil, if_neg (by simp), get_nil]
  · rw [get, if_neg hq, put, OMap.get?_set, get, if_neg hq]

/-- What is under a path is taken away, the path with it. -/
def prune (t : Tree ν δ) (p : List ν) : Tree ν δ where
  map := ⟨t.map.entries.filter fun e => ¬ p <+: e.1,
    t.map.nodup.sublist (List.filter_sublist.map Prod.fst)⟩
  inside q e h := by
    simp only [OMap.get?_eq_some_iff, List.mem_filter, decide_eq_true_eq] at h ⊢
    obtain ⟨hmem, hout⟩ := h
    obtain ⟨r, m, rfl, hr⟩ := t.inside q e (OMap.get?_eq_some_iff.mpr hmem)
    refine ⟨r, m, rfl, hr.imp_right fun hr => ⟨OMap.get?_eq_some_iff.mp hr, fun hpr => ?_⟩⟩
    exact hout (hpr.trans (List.prefix_append r [m]))

lemma get_prune (hq : q ≠ []) :
    (t.prune p).get q = if p <+: q then none else t.get q := by
  refine Option.ext fun e => ?_
  rw [get, if_neg hq, OMap.get?_eq_some_iff, get, if_neg hq]
  by_cases hpq : p <+: q
  · simp [prune, hpq]
  · rw [if_neg hpq, OMap.get?_eq_some_iff]
    simp [prune, hpq]

lemma get_prune_leaf (hp : p ≠ []) (hleaf : ∀ n, t.get (p ++ [n]) = none) :
    (t.prune p).get q = if q = p then none else t.get q := by
  by_cases hq : q = []
  · rw [hq, get_nil, if_neg (Ne.symm hp), get_nil]
  · rw [get_prune hq]
    by_cases hqp : q = p
    · rw [if_pos (hqp ▸ List.prefix_rfl), if_pos hqp]
    · rw [if_neg hqp]
      by_cases hpq : p <+: q
      · rw [if_pos hpq]
        obtain ⟨r, rfl⟩ := hpq
        cases r with
        | nil => exact absurd (List.append_nil p) hqp
        | cons n r =>
          cases hget : t.get (p ++ n :: r) with
          | none => rfl
          | some e =>
            have hbelow : ∃ e', t.get (p ++ [n]) = some e' := by
              by_cases hr : r = []
              · exact ⟨e, hr ▸ hget⟩
              · refine ⟨.dir, get_above hget ⟨r, by simp⟩ fun heq => hr ?_⟩
                simpa using heq
            rw [hleaf n] at hbelow
            exact absurd hbelow (by simp)
      · rw [if_neg hpq]

/-! ### Listings -/

/-- The names in a directory. -/
def readdir (t : Tree ν δ) (p : List ν) : List ν :=
  t.map.entries.filterMap fun e => if e.1.dropLast = p then e.1.getLast? else none

/-- What is in a directory and in those under it, so deep. -/
def walk (t : Tree ν δ) : ℕ → List ν → List (List ν × Entry δ)
  | 0, _ => []
  | depth + 1, p =>
    (t.readdir p).flatMap fun n =>
      match t.get (p ++ [n]) with
      | none => []
      | some (.file data mtime) => [(p ++ [n], .file data mtime)]
      | some .dir => (p ++ [n], .dir) :: walk t depth (p ++ [n])

/-- How deep the tree is. -/
def depth (t : Tree ν δ) : ℕ := (t.map.keys.map List.length).foldr max 0

/-- All that is in a tree. -/
def list (t : Tree ν δ) : List (List ν × Entry δ) := t.walk t.depth []

lemma mem_readdir : n ∈ t.readdir p ↔ ∃ e, t.get (p ++ [n]) = some e := by
  rw [readdir, List.mem_filterMap, get_concat]
  constructor
  · rintro ⟨⟨q, e⟩, hmem, h⟩
    by_cases hq : q.dropLast = p
    · rw [if_pos hq] at h
      obtain ⟨r, rfl⟩ := List.getLast?_eq_some_iff.mp h
      rw [List.dropLast_concat] at hq
      exact ⟨e, OMap.get?_eq_some_iff.mpr (hq ▸ hmem)⟩
    · rw [if_neg hq] at h
      cases h
  · rintro ⟨e, h⟩
    refine ⟨(p ++ [n], e), OMap.get?_eq_some_iff.mp h, ?_⟩
    simp

lemma length_le_depth (hp : p ≠ []) (h : t.get p = some e) : p.length ≤ t.depth := by
  rw [get, if_neg hp] at h
  have hmem : p.length ∈ t.map.keys.map List.length :=
    List.mem_map_of_mem (OMap.mem_keys_iff.mpr ⟨e, h⟩)
  rw [depth]
  generalize t.map.keys.map List.length = ls at hmem
  induction ls with
  | nil => cases hmem
  | cons l ls ih =>
    rcases List.mem_cons.mp hmem with rfl | hmem
    · exact le_max_left _ _
    · exact (ih hmem).trans (le_max_right _ _)

lemma walk_get {depth : ℕ} (h : (q, e) ∈ t.walk depth p) :
    t.get q = some e ∧ p <+: q ∧ q ≠ p := by
  induction depth generalizing p with
  | zero => cases h
  | succ depth ih =>
    rw [walk, List.mem_flatMap] at h
    obtain ⟨n, -, h⟩ := h
    have hprefix : p <+: p ++ [n] ∧ p ++ [n] ≠ p := ⟨List.prefix_append _ _, by simp⟩
    cases hget : t.get (p ++ [n]) with
    | none =>
      rw [hget] at h
      cases h
    | some e' =>
      rw [hget] at h
      cases e' with
      | file data mtime =>
        obtain ⟨rfl, rfl⟩ := Prod.mk.inj (List.mem_singleton.mp h)
        exact ⟨hget, hprefix⟩
      | dir =>
        rcases List.mem_cons.mp h with h | h
        · obtain ⟨rfl, rfl⟩ := Prod.mk.inj h
          exact ⟨hget, hprefix⟩
        · obtain ⟨hq, hbelow, -⟩ := ih h
          refine ⟨hq, hprefix.1.trans hbelow, ?_⟩
          rintro rfl
          have hlength := hbelow.length_le
          rw [List.length_append, List.length_singleton] at hlength
          omega

lemma mem_walk {depth : ℕ} {r : List ν} (hr : r ≠ []) (hdepth : r.length ≤ depth)
    (h : t.get (p ++ r) = some e) : (p ++ r, e) ∈ t.walk depth p := by
  induction depth generalizing p r with
  | zero => exact absurd (List.length_eq_zero_iff.mp (Nat.le_zero.mp hdepth)) hr
  | succ depth ih =>
    obtain ⟨n, r, rfl⟩ := List.exists_cons_of_ne_nil hr
    rw [List.append_cons] at h ⊢
    rw [walk, List.mem_flatMap]
    by_cases hnil : r = []
    · subst hnil
      rw [List.append_nil] at h ⊢
      refine ⟨n, mem_readdir.mpr ⟨e, h⟩, ?_⟩
      rw [h]
      cases e with
      | file data mtime => exact List.mem_singleton_self _
      | dir => exact List.mem_cons_self
    · have hdir : t.get (p ++ [n]) = some .dir :=
        get_above h (List.prefix_append _ _) (by simpa using hnil)
      refine ⟨n, mem_readdir.mpr ⟨_, hdir⟩, ?_⟩
      rw [hdir]
      exact List.mem_cons_of_mem _ (ih hnil (by simpa using hdepth) h)

lemma mem_list : (p, e) ∈ t.list ↔ p ≠ [] ∧ t.get p = some e := by
  constructor
  · intro h
    obtain ⟨hget, -, hne⟩ := walk_get h
    exact ⟨hne, hget⟩
  · rintro ⟨hp, h⟩
    exact mem_walk (p := []) hp (length_le_depth hp h) h

lemma mem_paths : p ∈ t.list.map Prod.fst ↔ p ≠ [] ∧ t.get p ≠ none := by
  simp [List.mem_map, Prod.exists, mem_list, exists_and_right, exists_eq_right,
    Option.ne_none_iff_exists', exists_and_left]

/-- Each path of some stands after the one it is in, where that is not one of those before. -/
def Nested (known : List ν → Prop) : List (List ν) → Prop
  | [] => True
  | p :: ps => known p.dropLast ∧ Nested (fun q => known q ∨ q = p) ps

omit [DecidableEq ν] in
lemma Nested.mono {known known' : List ν → Prop} {ps : List (List ν)} (h : Nested known ps)
    (hle : ∀ q, known q → known' q) : Nested known' ps := by
  induction ps generalizing known known' with
  | nil => trivial
  | cons p ps ih => exact ⟨hle _ h.1, ih h.2 fun q => Or.imp_left (hle q)⟩

omit [DecidableEq ν] in
lemma Nested.append {known : List ν → Prop} {ps qs : List (List ν)} (h : Nested known ps)
    (h' : Nested known qs) : Nested known (ps ++ qs) := by
  induction ps generalizing known with
  | nil => exact h'
  | cons p ps ih => exact ⟨h.1, ih h.2 (h'.mono fun _ => Or.inl)⟩

omit [DecidableEq ν] in
lemma nested_flatMap {known : List ν → Prop} (f : ν → List (List ν × Entry δ)) (ns : List ν)
    (h : ∀ n ∈ ns, Nested known ((f n).map Prod.fst)) :
    Nested known ((ns.flatMap f).map Prod.fst) := by
  induction ns with
  | nil => trivial
  | cons n ns ih =>
    rw [List.flatMap_cons, List.map_append]
    exact (h n List.mem_cons_self).append (ih fun m hm => h m (List.mem_cons_of_mem n hm))

lemma nested_walk {known : List ν → Prop} {depth : ℕ} (hp : known p) :
    Nested known ((t.walk depth p).map Prod.fst) := by
  induction depth generalizing known p with
  | zero => trivial
  | succ depth ih =>
    refine nested_flatMap _ _ fun n _ => ?_
    have hparent : known (p ++ [n]).dropLast := by rwa [List.dropLast_concat]
    cases t.get (p ++ [n]) with
    | none => trivial
    | some e =>
      cases e with
      | file data mtime => exact ⟨hparent, trivial⟩
      | dir => exact ⟨hparent, ih (Or.inr rfl)⟩

lemma nested_list : Nested (· = []) (t.list.map Prod.fst) := nested_walk rfl

/-! ### Calls -/

/-- Puts an entry at a path in a directory, where no directory is. -/
def place (t : Tree ν δ) (p : List ν) (e : Entry δ) : Option (Tree ν δ) :=
  p.getLast?.bind fun n =>
    if h : t.get p.dropLast = some .dir ∧ t.get (p.dropLast ++ [n]) ≠ some .dir then
      some (t.put p.dropLast n e h.1 h.2)
    else none

/-- A new directory. What is there is in the way. -/
def mkdir (t : Tree ν δ) (p : List ν) : Option (Tree ν δ) :=
  if t.get p = none then t.place p .dir else none

/-- A new file, or another one in the place of a file. -/
def writeFile (t : Tree ν δ) (p : List ν) (data : δ) (mtime : ℕ) : Option (Tree ν δ) :=
  t.place p (.file data mtime)

def unlink (t : Tree ν δ) (p : List ν) : Option (Tree ν δ) :=
  match t.get p with
  | some (.file ..) => some (t.prune p)
  | _ => none

/-- Takes away a directory that is empty. -/
def rmdir (t : Tree ν δ) (p : List ν) : Option (Tree ν δ) :=
  if p ≠ [] ∧ t.get p = some .dir ∧ t.readdir p = [] then some (t.prune p) else none

/-- Takes away what there is, if anything; a directory only with what is in it. -/
def rm (t : Tree ν δ) (p : List ν) (recursive : Bool) : Option (Tree ν δ) :=
  match t.get p with
  | none => some t
  | some (.file ..) => some (t.prune p)
  | some .dir => if recursive ∧ p ≠ [] then some (t.prune p) else none

/-- The directories of a path from one on, made where none is there and nothing is in the way. -/
def mkdirs (t : Tree ν δ) : List ν → List ν → Tree ν δ
  | _, [] => t
  | p, n :: names => mkdirs ((t.mkdir (p ++ [n])).getD t) (p ++ [n]) names

/-- The same, which fails where a file is in the way. -/
def mkdirsStrict (t : Tree ν δ) : List ν → List ν → Option (Tree ν δ)
  | _, [] => some t
  | p, n :: names =>
    match t.get (p ++ [n]) with
    | none => (t.mkdir (p ++ [n])).bind fun t => mkdirsStrict t (p ++ [n]) names
    | some .dir => mkdirsStrict t (p ++ [n]) names
    | some (.file ..) => none

variable {data : δ} {mtime : ℕ} {names : List ν}

lemma place_concat (hp : t.get p = some .dir) (hdir : t.get (p ++ [n]) ≠ some .dir) :
    t.place (p ++ [n]) e = some (t.put p n e hp hdir) := by
  simp only [place, List.getLast?_concat, Option.bind_some, List.dropLast_concat]
  exact dif_pos ⟨hp, hdir⟩

lemma place_eq_some (h : t.place p e = some t') :
    t.get p ≠ some .dir ∧ ∀ q, t'.get q = if q = p then some e else t.get q := by
  cases p using List.reverseRecOn with
  | nil => cases h
  | append_singleton p n =>
    simp only [place, List.getLast?_concat, Option.bind_some, List.dropLast_concat] at h
    by_cases hfree : t.get p = some .dir ∧ t.get (p ++ [n]) ≠ some .dir
    · rw [dif_pos hfree] at h
      obtain rfl := Option.some.inj h
      exact ⟨hfree.2, fun q => get_put hfree.1 hfree.2⟩
    · rw [dif_neg hfree] at h
      cases h

lemma mkdir_new (hp : t.get p = some .dir) (hnew : t.get (p ++ [n]) = none) :
    ∃ t', t.mkdir (p ++ [n]) = some t' ∧
      ∀ q, t'.get q = if q = p ++ [n] then some .dir else t.get q := by
  have hdir : t.get (p ++ [n]) ≠ some .dir := by simp [hnew]
  exact ⟨_, by rw [mkdir, if_pos hnew, place_concat hp hdir], fun q => get_put hp hdir⟩

lemma mkdir_there (h : t.get p = some e) : t.mkdir p = none := if_neg (by simp [h])

lemma mkdir_keeps (h : t.mkdir p = some t') (hq : t.get q = some e) : t'.get q = some e := by
  rw [mkdir] at h
  by_cases hnew : t.get p = none
  · rw [if_pos hnew] at h
    rw [(place_eq_some h).2, if_neg, hq]
    rintro rfl
    rw [hnew] at hq
    cases hq
  · rw [if_neg hnew] at h
    cases h

lemma mkdirs_keeps (hq : t.get q = some e) : (t.mkdirs p names).get q = some e := by
  induction names generalizing t p with
  | nil => exact hq
  | cons n names ih =>
    refine ih ?_
    cases h : t.mkdir (p ++ [n]) with
    | none => exact hq
    | some t' => exact mkdir_keeps h hq

lemma mkdirs_below (h : t.get (p ++ names) = some .dir) :
    t.mkdirs p names = t ∧ t.mkdirsStrict p names = some t := by
  induction names generalizing p with
  | nil => exact ⟨rfl, rfl⟩
  | cons n names ih =>
    rw [List.append_cons] at h
    have hdir : t.get (p ++ [n]) = some .dir := by
      by_cases hnil : names = []
      · rwa [hnil, List.append_nil] at h
      · exact get_above h (List.prefix_append _ _) (by simpa using hnil)
    obtain ⟨h₁, h₂⟩ := ih h
    refine ⟨?_, ?_⟩
    · rw [mkdirs, mkdir_there hdir]
      exact h₁
    · rw [mkdirsStrict, hdir]
      exact h₂

/-- The last name of a path whose other directories are there. -/
lemma mkdirs_last (hp : t.get (p ++ names) = some .dir) (hnew : t.get (p ++ names ++ [n]) = none) :
    ∃ t', t.mkdirs p (names ++ [n]) = t' ∧ t.mkdirsStrict p (names ++ [n]) = some t' ∧
      ∀ q, t'.get q = if q = p ++ names ++ [n] then some .dir else t.get q := by
  induction names generalizing p with
  | nil =>
    rw [List.append_nil] at hp hnew ⊢
    obtain ⟨t', ht', hget⟩ := mkdir_new hp hnew
    refine ⟨t', ?_, ?_, hget⟩
    · rw [List.nil_append, mkdirs, ht']
      rfl
    · rw [List.nil_append, mkdirsStrict, hnew]
      rw [ht']
      rfl
  | cons m names ih =>
    have hsplit : p ++ m :: names ++ [n] = p ++ [m] ++ names ++ [n] := by simp
    rw [List.append_cons] at hp
    rw [hsplit] at hnew ⊢
    have hdir : t.get (p ++ [m]) = some .dir := by
      by_cases hnil : names = []
      · rwa [hnil, List.append_nil] at hp
      · exact get_above hp (List.prefix_append _ _) (by simpa using hnil)
    obtain ⟨t', h₁, h₂, hget⟩ := ih hp hnew
    refine ⟨t', ?_, ?_, hget⟩
    · rw [List.cons_append, mkdirs, mkdir_there hdir]
      exact h₁
    · rw [List.cons_append, mkdirsStrict, hdir]
      exact h₂

lemma mkdirsStrict_keeps (h : t.mkdirsStrict p names = some t') (hq : t.get q = some e) :
    t'.get q = some e := by
  induction names generalizing t p with
  | nil => exact Option.some.inj h ▸ hq
  | cons n names ih =>
    rw [mkdirsStrict] at h
    cases hget : t.get (p ++ [n]) with
    | none =>
      rw [hget] at h
      obtain ⟨u, hu, hrest⟩ := Option.bind_eq_some_iff.mp h
      exact ih hrest (mkdir_keeps hu hq)
    | some e' =>
      rw [hget] at h
      cases e' with
      | file data mtime => cases h
      | dir => exact ih h hq

end Tree

/-! ### Ways to write -/

section Writing

open MirrorTrees.Tree

variable [DecidableEq ν]

/-- A way to write to trees: directories made with those they are in, files written, and what
was a directory or a file taken away. A call without a result fails, and changes nothing. -/
structure FileWriter (ν δ : Type) [DecidableEq ν] where
  mkdir : Tree ν δ → List ν → Option (Tree ν δ)
  write : Tree ν δ → List ν → δ → ℕ → Option (Tree ν δ)
  remove : Tree ν δ → List ν → Bool → Option (Tree ν δ)
  mkdir_there : ∀ t p, t.get p = some .dir → mkdir t p = some t
  mkdir_new : ∀ t p n, t.get p = some .dir → t.get (p ++ [n]) = none →
    ∃ t', mkdir t (p ++ [n]) = some t' ∧
      ∀ q, t'.get q = if q = p ++ [n] then some .dir else t.get q
  mkdir_keeps : ∀ t p t' q e, mkdir t p = some t' → t.get q = some e → t'.get q = some e
  write_new : ∀ t p n data mtime, t.get p = some .dir → t.get (p ++ [n]) ≠ some .dir →
    ∃ t', write t (p ++ [n]) data mtime = some t' ∧
      ∀ q, t'.get q = if q = p ++ [n] then some (.file data mtime) else t.get q
  write_keeps : ∀ t p data mtime t' q, write t p data mtime = some t' → t.get q ≠ none →
    t'.get q ≠ none ∧ (t'.get q = some .dir ↔ t.get q = some .dir)
  remove_file : ∀ t p data mtime, t.get p = some (.file data mtime) →
    ∃ t', remove t p false = some t' ∧ ∀ q, t'.get q = if q = p then none else t.get q
  remove_dir : ∀ t p, p ≠ [] → t.get p = some .dir → (∀ n, t.get (p ++ [n]) = none) →
    ∃ t', remove t p true = some t' ∧ ∀ q, t'.get q = if q = p then none else t.get q
  remove_keeps : ∀ t p wasDir t' q, remove t p wasDir = some t' → ¬ p <+: q →
    t'.get q = t.get q
  remove_top : ∀ t wasDir, remove t [] wasDir = none

variable {t t' : Tree ν δ} {p q : List ν} {n : ν} {data : δ} {mtime : ℕ}

lemma writeFile_new (hp : t.get p = some .dir) (hdir : t.get (p ++ [n]) ≠ some .dir) :
    ∃ t', t.writeFile (p ++ [n]) data mtime = some t' ∧
      ∀ q, t'.get q = if q = p ++ [n] then some (.file data mtime) else t.get q :=
  ⟨_, place_concat hp hdir, fun _ => get_put hp hdir⟩

lemma writeFile_keeps (h : t.writeFile p data mtime = some t') (hq : t.get q ≠ none) :
    t'.get q ≠ none ∧ (t'.get q = some .dir ↔ t.get q = some .dir) := by
  obtain ⟨hdir, hget⟩ := place_eq_some h
  rw [hget]
  by_cases hqp : q = p
  · rw [if_pos hqp, hqp]
    exact ⟨nofun, iff_of_false nofun hdir⟩
  · rw [if_neg hqp]
    exact ⟨hq, Iff.rfl⟩

lemma ne_nil_of_file (h : t.get p = some (.file data mtime)) : p ≠ [] := by
  rintro rfl
  cases h

lemma file_leaf (h : t.get p = some (.file data mtime)) (n : ν) : t.get (p ++ [n]) = none := by
  cases hget : t.get (p ++ [n]) with
  | none => rfl
  | some e =>
    rw [get_parent hget] at h
    cases h

lemma prune_keeps (hpq : ¬ p <+: q) : (t.prune p).get q = t.get q := by
  by_cases hq : q = []
  · rw [hq, get_nil, get_nil]
  · rw [get_prune hq, if_neg hpq]

/-- The files in memory: `mkdirTree`, `writeFile`, and `rmdir` or `unlink`. -/
def memfs : FileWriter ν δ where
  mkdir t p := some (t.mkdirs [] p)
  write t p data mtime := t.writeFile p data mtime
  remove t p wasDir := if wasDir then t.rmdir p else t.unlink p
  mkdir_there t p h := congrArg some (mkdirs_below (p := []) h).1
  mkdir_new t p n hp hnew := by
    obtain ⟨t', h, -, hget⟩ := mkdirs_last (p := []) hp hnew
    exact ⟨t', congrArg some h, hget⟩
  mkdir_keeps t p t' q e h hq := by
    obtain rfl := Option.some.inj h
    exact mkdirs_keeps hq
  write_new t p n data mtime hp hdir := writeFile_new hp hdir
  write_keeps t p data mtime t' q h hq := writeFile_keeps h hq
  remove_file t p data mtime h := by
    refine ⟨t.prune p, ?_, fun q => get_prune_leaf (ne_nil_of_file h) (file_leaf h)⟩
    rw [if_neg Bool.false_ne_true, unlink, h]
  remove_dir t p hp h hleaf := by
    refine ⟨t.prune p, ?_, fun q => get_prune_leaf hp hleaf⟩
    have hempty : t.readdir p = [] := List.eq_nil_iff_forall_not_mem.mpr fun n hn => by
      obtain ⟨e, he⟩ := mem_readdir.mp hn
      rw [hleaf n] at he
      cases he
    rw [if_pos rfl, rmdir, if_pos ⟨hp, h, hempty⟩]
  remove_keeps t p wasDir t' q h hpq := by
    cases wasDir with
    | true =>
      rw [if_pos rfl, rmdir] at h
      by_cases hdir : p ≠ [] ∧ t.get p = some .dir ∧ t.readdir p = []
      · rw [if_pos hdir] at h
        exact Option.some.inj h ▸ prune_keeps hpq
      · rw [if_neg hdir] at h
        cases h
    | false =>
      rw [if_neg Bool.false_ne_true, unlink] at h
      cases hget : t.get p with
      | none =>
        rw [hget] at h
        cases h
      | some e =>
        rw [hget] at h
        cases e with
        | file data mtime => exact Option.some.inj h ▸ prune_keeps hpq
        | dir => cases h
  remove_top t wasDir := by
    cases wasDir with
    | true =>
      rw [if_pos rfl]
      exact if_neg fun h => h.1 rfl
    | false => rfl

/-- The files of the host: `mkdir` with `recursive`, `writeFile`, and `rm` with `force`. -/
def node : FileWriter ν δ where
  mkdir t p := t.mkdirsStrict [] p
  write t p data mtime := t.writeFile p data mtime
  remove t p wasDir := t.rm p wasDir
  mkdir_there t p h := (mkdirs_below (p := []) h).2
  mkdir_new t p n hp hnew := by
    obtain ⟨t', -, h, hget⟩ := mkdirs_last (p := []) hp hnew
    exact ⟨t', h, hget⟩
  mkdir_keeps t p t' q e h hq := mkdirsStrict_keeps h hq
  write_new t p n data mtime hp hdir := writeFile_new hp hdir
  write_keeps t p data mtime t' q h hq := writeFile_keeps h hq
  remove_file t p data mtime h := by
    refine ⟨t.prune p, ?_, fun q => get_prune_leaf (ne_nil_of_file h) (file_leaf h)⟩
    rw [rm, h]
  remove_dir t p hp h hleaf := by
    refine ⟨t.prune p, ?_, fun q => get_prune_leaf hp hleaf⟩
    rw [rm, h]
    exact if_pos ⟨rfl, hp⟩
  remove_keeps t p wasDir t' q h hpq := by
    rw [rm] at h
    cases hget : t.get p with
    | none =>
      rw [hget] at h
      exact Option.some.inj h ▸ rfl
    | some e =>
      rw [hget] at h
      cases e with
      | file data mtime => exact Option.some.inj h ▸ prune_keeps hpq
      | dir =>
        by_cases hrec : wasDir = true ∧ p ≠ []
        · exact Option.some.inj ((if_pos hrec).symm.trans h) ▸ prune_keeps hpq
        · exact absurd ((if_neg hrec).symm.trans h) nofun
  remove_top t wasDir := if_neg fun h => h.2 rfl

end Writing

end FabPcb.MirrorTrees
