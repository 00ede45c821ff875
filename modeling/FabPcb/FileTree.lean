import Mathlib.Data.List.Infix
import Mathlib.Data.List.Induction

/-!
Trees of files with links, and where paths lead in them.

A path is a list of names from the top, the outermost first. A link is read in the directory that
it is in, and for one path a system follows no more than a number of links.
-/

namespace FabPcb.FileTree

variable {ν : Type}

/-- A part of a link's text. -/
inductive Segment (ν : Type) where
  | here
  | up
  | name (n : ν)
  deriving DecidableEq

inductive Entry (ν : Type) where
  | file
  | dir
  | link (absolute : Bool) (text : List (Segment ν))
  deriving DecidableEq

def Entry.isLink : Entry ν → Bool
  | .link .. => true
  | _ => false

structure Tree (ν : Type) where
  get : List ν → Option (Entry ν)
  top : get [] = some .dir
  parent : ∀ p n e, get (p ++ [n]) = some e → get p = some .dir

namespace Tree

/-- At what is no link. -/
def Solid (t : Tree ν) (p : List ν) : Prop := ∃ e, t.get p = some e ∧ e.isLink = false

section Solid

variable {t : Tree ν} {p q : List ν} {e : Entry ν}

lemma solid_dir (h : t.get p = some .dir) : t.Solid p := ⟨.dir, h, rfl⟩

lemma solid_top : t.Solid [] := solid_dir t.top

lemma solid_dropLast (h : t.Solid p) : t.Solid p.dropLast := by
  cases p using List.reverseRecOn with
  | nil => exact h
  | append_singleton p n =>
    obtain ⟨e, he, -⟩ := h
    rw [List.dropLast_concat]
    exact solid_dir (t.parent p n e he)

lemma dir_above (h : t.get p = some e) (hq : q <+: p) (hne : q ≠ p) : t.get q = some .dir := by
  induction p using List.reverseRecOn generalizing e with
  | nil => exact absurd (List.prefix_nil.mp hq) hne
  | append_singleton p n ih =>
    have hparent := t.parent p n e h
    rcases List.prefix_concat_iff.mp hq with rfl | hq
    · exact absurd rfl hne
    · by_cases hqp : q = p
      · rw [hqp, hparent]
      · exact ih hparent hq hqp

end Solid

variable [DecidableEq ν]

/-! ### Ways -/

/-- A way through the tree. The last name may be a new one when `create` is set, and a link is
followed by what `follow` says. -/
def walkWith (t : Tree ν) (create : Bool)
    (follow : List ν → List (Segment ν) → Option (List ν)) :
    List ν → List (Segment ν) → Option (List ν)
  | p, [] => some p
  | p, s :: rest =>
    if t.get p = some .dir then
      match s with
      | .here => walkWith t create follow p rest
      | .up => walkWith t create follow p.dropLast rest
      | .name n =>
        match t.get (p ++ [n]) with
        | none => if create && rest.isEmpty then some (p ++ [n]) else none
        | some (.link absolute text) => follow (if absolute then [] else p) (text ++ rest)
        | some _ => walkWith t create follow (p ++ [n]) rest
    else none

/-- A way that follows so many links at most. -/
def walk (t : Tree ν) (create : Bool) : ℕ → List ν → List (Segment ν) → Option (List ν)
  | 0 => t.walkWith create fun _ _ => none
  | k + 1 => t.walkWith create (walk t create k)

/-- What is really at a path. -/
def realpath (t : Tree ν) (limit : ℕ) (p : List ν) : Option (List ν) :=
  t.walk false limit [] (p.map .name)

/-- What a path that may be a new file's is a place for. -/
def place (t : Tree ν) (limit : ℕ) (p : List ν) : Option (List ν) :=
  t.walk true limit [] (p.map .name)

def addDir (t : Tree ν) (p : List ν) (n : ν) (h : t.get p = some .dir) : Tree ν where
  get q := if q = p ++ [n] then some .dir else t.get q
  top := by rw [if_neg (by simp), t.top]
  parent q m e he := by
    by_cases hq : q = p ++ [n]
    · rw [if_pos hq]
    · rw [if_neg hq]
      split at he
      next heq => rw [(List.append_inj' heq rfl).1, h]
      · exact t.parent q m e he

/-- A directory that is there, or is new. A link that leads nowhere is in the way. -/
def mkdir (t : Tree ν) (limit : ℕ) (p : List ν) (n : ν) : Option (Tree ν) :=
  match t.realpath limit (p ++ [n]) with
  | some r => if t.get r = some .dir then some t else none
  | none =>
    (t.realpath limit p).bind fun r =>
      if h : t.get r = some .dir ∧ t.get (r ++ [n]) = none then some (t.addDir r n h.1) else none

/-- The directories from `p` on. -/
def mkdirs (t : Tree ν) (limit : ℕ) : List ν → List ν → Option (Tree ν)
  | _, [] => some t
  | p, n :: rest => (t.mkdir limit p n).bind fun t => mkdirs t limit (p ++ [n]) rest

/-- A path with all its directories. -/
def mkdirp (t : Tree ν) (limit : ℕ) (p : List ν) : Option (Tree ν) := t.mkdirs limit [] p

/-! ### Ways without links -/

variable {t : Tree ν} {create : Bool} {limit : ℕ} {p q r : List ν} {n : ν} {e : Entry ν}
  {segs rest : List (Segment ν)} {names : List ν}

lemma walkWith_name {follow : List ν → List (Segment ν) → Option (List ν)}
    (hp : t.get p = some .dir) : t.walkWith create follow p (.name n :: rest) =
      match t.get (p ++ [n]) with
      | none => if create && rest.isEmpty then some (p ++ [n]) else none
      | some (.link absolute text) => follow (if absolute then [] else p) (text ++ rest)
      | some _ => t.walkWith create follow (p ++ [n]) rest := by
  rw [walkWith, if_pos hp]

lemma walkWith_stop {follow : List ν → List (Segment ν) → Option (List ν)} {s : Segment ν}
    (hp : t.get p ≠ some .dir) : t.walkWith create follow p (s :: rest) = none := by
  exact if_neg hp

/-- The links that a way can still follow. -/
def follow (t : Tree ν) (create : Bool) : ℕ → List ν → List (Segment ν) → Option (List ν)
  | 0 => fun _ _ => none
  | k + 1 => t.walk create k

lemma walk_eq (k : ℕ) : t.walk create k = t.walkWith create (t.follow create k) := by
  cases k <;> rfl

lemma walk_dirs (h : ∀ q, q <+: names → t.get (p ++ q) = some .dir) :
    t.walk create limit p (names.map .name ++ segs) = t.walk create limit (p ++ names) segs := by
  induction names generalizing p with
  | nil => rw [List.map_nil, List.nil_append, List.append_nil]
  | cons n names ih =>
    have hp : t.get p = some .dir := by simpa using h [] List.nil_prefix
    have hn : t.get (p ++ [n]) = some .dir := h [n] (List.cons_prefix_cons.mpr ⟨rfl, List.nil_prefix⟩)
    have hrest : ∀ q, q <+: names → t.get (p ++ [n] ++ q) = some .dir := by
      intro q hq
      rw [List.append_assoc]
      exact h (n :: q) (List.cons_prefix_cons.mpr ⟨rfl, hq⟩)
    rw [List.map_cons, List.cons_append, walk_eq, walkWith_name hp, hn, ← walk_eq, ih hrest,
      List.append_assoc]
    rfl

lemma walk_below (h : t.get p = some .dir) :
    t.walk create limit [] (p.map .name ++ segs) = t.walk create limit p segs := by
  refine walk_dirs fun q hq => ?_
  by_cases hne : q = p
  · rw [hne]
    exact h
  · exact dir_above h hq hne

lemma walk_last (h : t.get p = some .dir) (hn : ∀ e, t.get (p ++ [n]) = some e → e.isLink = false) :
    t.walk create limit [] ((p ++ [n]).map .name) =
      if (t.get (p ++ [n])).isSome || create then some (p ++ [n]) else none := by
  rw [List.map_append, walk_below h, List.map_singleton, walk_eq, walkWith_name h]
  cases hget : t.get (p ++ [n]) with
  | none => simp
  | some e =>
    cases e with
    | link absolute text => cases hn _ hget
    | file => rfl
    | dir => rfl

lemma walk_self (h : t.get p = some e) (he : e.isLink = false) :
    t.walk create limit [] (p.map .name) = some p := by
  cases p using List.reverseRecOn with
  | nil => rw [List.map_nil, walk_eq, walkWith]
  | append_singleton p n =>
    rw [walk_last (t.parent p n e h) fun e' he' => by rw [h] at he'; cases he'; exact he, h]
    rfl

/-! ### Where a way ends -/

lemma solid_walkWith {follow : List ν → List (Segment ν) → Option (List ν)}
    (hfollow : ∀ p segs r, t.Solid p → follow p segs = some r → t.Solid r) (hp : t.Solid p)
    (h : t.walkWith false follow p segs = some r) : t.Solid r := by
  induction segs generalizing p with
  | nil =>
    cases h
    exact hp
  | cons s rest ih =>
    by_cases hdir : t.get p = some .dir
    · cases s with
      | here => exact ih hp (by rwa [walkWith, if_pos hdir] at h)
      | up => exact ih (solid_dropLast hp) (by rwa [walkWith, if_pos hdir] at h)
      | name n =>
        rw [walkWith_name hdir] at h
        cases hget : t.get (p ++ [n]) with
        | none =>
          rw [hget] at h
          cases h
        | some e =>
          rw [hget] at h
          cases e with
          | file => exact ih ⟨_, hget, rfl⟩ h
          | dir => exact ih ⟨_, hget, rfl⟩ h
          | link absolute text =>
            refine hfollow _ _ _ ?_ h
            split
            · exact solid_top
            · exact hp
    · rw [walkWith_stop hdir] at h
      cases h

lemma solid_walk (hp : t.Solid p) (h : t.walk false limit p segs = some r) : t.Solid r := by
  induction limit generalizing p segs r with
  | zero => exact solid_walkWith (fun _ _ _ _ h => (Option.some_ne_none _ h.symm).elim) hp h
  | succ k ih => exact solid_walkWith (fun _ _ _ hp h => ih hp h) hp h

lemma solid_realpath (h : t.realpath limit p = some r) : t.Solid r := solid_walk solid_top h

lemma realpath_solid (h : t.Solid p) : t.realpath limit p = some p := by
  obtain ⟨e, he, hlink⟩ := h
  exact walk_self he hlink

lemma place_solid (h : t.Solid p) : t.place limit p = some p := by
  obtain ⟨e, he, hlink⟩ := h
  exact walk_self he hlink

/-- A way that is a first part, and the links that are left for the rest. -/
lemma walkWith_append {follow : List ν → List (Segment ν) → Option (List ν)}
    (follow' : Bool → List ν → List (Segment ν) → Option (List ν))
    (hfollow : ∀ p segs r, follow p segs = some r →
      ∃ k, ∀ create rest, follow' create p (segs ++ rest) = t.walk create k r rest)
    (hself : ∃ k, ∀ create, t.walkWith create (follow' create) = t.walk create k)
    (h : t.walkWith false follow p segs = some r) :
    ∃ k, ∀ create rest, t.walkWith create (follow' create) p (segs ++ rest) =
      t.walk create k r rest := by
  induction segs generalizing p with
  | nil =>
    cases h
    obtain ⟨k, hk⟩ := hself
    exact ⟨k, fun create rest => by rw [hk, List.nil_append]⟩
  | cons s rest ih =>
    by_cases hdir : t.get p = some .dir
    · cases s with
      | here =>
        rw [walkWith, if_pos hdir] at h
        obtain ⟨k, hk⟩ := ih h
        exact ⟨k, fun create more => by rw [List.cons_append, walkWith, if_pos hdir, hk]⟩
      | up =>
        rw [walkWith, if_pos hdir] at h
        obtain ⟨k, hk⟩ := ih h
        exact ⟨k, fun create more => by rw [List.cons_append, walkWith, if_pos hdir, hk]⟩
      | name n =>
        rw [walkWith_name hdir] at h
        cases hget : t.get (p ++ [n]) with
        | none =>
          rw [hget] at h
          cases h
        | some e =>
          rw [hget] at h
          cases e with
          | file =>
            obtain ⟨k, hk⟩ := ih h
            exact ⟨k, fun create more => by rw [List.cons_append, walkWith_name hdir, hget, ← hk]⟩
          | dir =>
            obtain ⟨k, hk⟩ := ih h
            exact ⟨k, fun create more => by rw [List.cons_append, walkWith_name hdir, hget, ← hk]⟩
          | link absolute text =>
            obtain ⟨k, hk⟩ := hfollow _ _ _ h
            refine ⟨k, fun create more => ?_⟩
            rw [List.cons_append, walkWith_name hdir, hget, ← hk, List.append_assoc]
    · rw [walkWith_stop hdir] at h
      cases h

lemma walk_append (h : t.walk false limit p segs = some r) :
    ∃ k, ∀ create rest, t.walk create limit p (segs ++ rest) = t.walk create k r rest := by
  induction limit generalizing p segs r with
  | zero =>
    refine walkWith_append (fun _ _ _ => none) (fun _ _ _ h => ?_) ⟨0, fun _ => rfl⟩ h
    cases h
  | succ k ih =>
    exact walkWith_append (fun create => t.walk create k) (fun _ _ _ h => ih h)
      ⟨k + 1, fun _ => rfl⟩ h

/-- What is there with the rest of the path is there without it. -/
lemma walkWith_first {follow : List ν → List (Segment ν) → Option (List ν)}
    (hfollow : ∀ p segs rest r, follow p (segs ++ rest) = some r → ∃ r', follow p segs = some r')
    (h : t.walkWith false follow p (segs ++ rest) = some r) :
    ∃ r', t.walkWith false follow p segs = some r' := by
  induction segs generalizing p with
  | nil => exact ⟨p, rfl⟩
  | cons s segs ih =>
    rw [List.cons_append] at h
    by_cases hdir : t.get p = some .dir
    · cases s with
      | here =>
        rw [walkWith, if_pos hdir] at h ⊢
        exact ih h
      | up =>
        rw [walkWith, if_pos hdir] at h ⊢
        exact ih h
      | name n =>
        rw [walkWith_name hdir] at h ⊢
        cases hget : t.get (p ++ [n]) with
        | none =>
          rw [hget] at h
          cases h
        | some e =>
          rw [hget] at h
          cases e with
          | file => exact ih h
          | dir => exact ih h
          | link absolute text => exact hfollow _ _ _ _ (by rw [List.append_assoc]; exact h)
    · rw [walkWith_stop hdir] at h
      cases h

lemma walk_first (h : t.walk false limit p (segs ++ rest) = some r) :
    ∃ r', t.walk false limit p segs = some r' := by
  induction limit generalizing p segs rest r with
  | zero => exact walkWith_first (fun _ _ _ _ h => (Option.some_ne_none _ h.symm).elim) h
  | succ k ih => exact walkWith_first (fun _ _ _ _ h => ih h) h

/-- How much of a path can be resolved: what is really there, and the names that follow. -/
def Deepest (t : Tree ν) (limit : ℕ) (p real missing : List ν) : Prop :=
  ∃ probe, p = probe ++ missing ∧ t.realpath limit probe = some real ∧
    ∀ n more, missing = n :: more → t.realpath limit (probe ++ [n]) = none

lemma realpath_first (h : t.realpath limit (p ++ q) = some r) :
    ∃ r', t.realpath limit p = some r' := by
  rw [realpath, List.map_append] at h
  exact walk_first h

lemma realpath_place (h : t.realpath limit p = some r) : t.place limit p = some r := by
  obtain ⟨k, hk⟩ := walk_append h
  have hwalk := hk true []
  rw [List.append_nil, walk_eq k] at hwalk
  exact hwalk

lemma realpath_next (h : t.realpath limit p = some r) (hr : t.get r = some .dir)
    (hn : t.get (r ++ [n]) = some e) (he : e.isLink = false) :
    t.realpath limit (p ++ [n]) = some (r ++ [n]) := by
  obtain ⟨k, hk⟩ := walk_append h
  have hwalk := hk false [.name n]
  rw [walk_eq k, walkWith_name hr, hn] at hwalk
  rw [realpath, List.map_append]
  cases e with
  | link absolute text => cases he
  | file => exact hwalk
  | dir => exact hwalk

lemma deepest_unique {real real' missing missing' : List ν} (h : t.Deepest limit p real missing)
    (h' : t.Deepest limit p real' missing') : real = real' ∧ missing = missing' := by
  obtain ⟨probe, hp, hreal, hstuck⟩ := h
  obtain ⟨probe', hp', hreal', hstuck'⟩ := h'
  have hlonger : ∀ {probe probe' real missing missing' : List ν}, p = probe ++ missing →
      p = probe' ++ missing' → (∀ n more, missing = n :: more → t.realpath limit (probe ++ [n]) = none) →
      t.realpath limit probe' = some real → probe'.length ≤ probe.length := by
    intro probe probe' real missing missing' hp hp' hstuck hreal
    by_contra hlt
    obtain ⟨more, rfl⟩ : probe <+: probe' := List.prefix_of_prefix_length_le
      ⟨missing, hp.symm⟩ ⟨missing', hp'.symm⟩ (by omega)
    cases more with
    | nil => exact hlt (by simp)
    | cons n more =>
      have hmissing : missing = n :: (more ++ missing') := by
        rw [hp, List.append_assoc] at hp'
        exact List.append_cancel_left hp'
      rw [List.append_cons] at hreal
      obtain ⟨r', hr'⟩ := realpath_first hreal
      rw [hstuck n _ hmissing] at hr'
      cases hr'
  have hlength : probe.length = probe'.length :=
    Nat.le_antisymm (hlonger hp' hp hstuck' hreal) (hlonger hp hp' hstuck hreal')
  obtain ⟨rfl, rfl⟩ := List.append_inj (hp.symm.trans hp') hlength
  rw [hreal] at hreal'
  exact ⟨Option.some.inj hreal', rfl⟩

lemma deepest_dir {real missing : List ν} (h : t.Deepest limit p real (n :: missing))
    (hdir : t.get real = some .dir) :
    t.get (real ++ [n]) = none ∨ ∃ e, t.get (real ++ [n]) = some e ∧ e.isLink = true := by
  obtain ⟨probe, -, hreal, hstuck⟩ := h
  cases hget : t.get (real ++ [n]) with
  | none => exact Or.inl rfl
  | some e =>
    cases hlink : e.isLink with
    | true => exact Or.inr ⟨e, rfl, hlink⟩
    | false =>
      have hnext := realpath_next hreal hdir hget hlink
      rw [hstuck n missing rfl] at hnext
      cases hnext

lemma walk_past (h : t.get p = some .file) (hnames : names ≠ []) :
    t.walk create limit [] ((p ++ names).map .name) = none := by
  cases p using List.reverseRecOn with
  | nil =>
    rw [t.top] at h
    cases h
  | append_singleton p m =>
    obtain ⟨n, more, rfl⟩ := List.exists_cons_of_ne_nil hnames
    rw [List.map_append, List.map_append, List.append_assoc, walk_below (t.parent p m _ h),
      List.map_singleton, List.singleton_append, walk_eq, walkWith_name (t.parent p m _ h), h]
    exact walkWith_stop (by rw [h]; exact nofun)

/-! ### New directories -/

lemma mkdirs_append (names' : List ν) : t.mkdirs limit p (names ++ names') =
    (t.mkdirs limit p names).bind fun t => t.mkdirs limit (p ++ names) names' := by
  induction names generalizing t p with
  | nil => rw [List.nil_append, List.append_nil, mkdirs, Option.bind_some]
  | cons n names ih =>
    rw [List.cons_append, mkdirs, mkdirs, Option.bind_assoc]
    congr 1
    funext t'
    rw [ih, List.append_assoc]
    rfl

lemma mkdir_dir (h : t.get (p ++ [n]) = some .dir) : t.mkdir limit p n = some t := by
  rw [mkdir, realpath_solid (solid_dir h)]
  exact if_pos h

lemma mkdirp_dir (h : t.get p = some .dir) : t.mkdirp limit p = some t := by
  unfold mkdirp
  induction p using List.reverseRecOn with
  | nil => rfl
  | append_singleton p n ih =>
    rw [mkdirs_append, ih (t.parent p n _ h), Option.bind_some, List.nil_append, mkdirs, mkdir_dir h]
    rfl

lemma mkdirp_below (h : t.get p = some .dir) :
    t.mkdirp limit (p ++ names) = t.mkdirs limit p names := by
  rw [mkdirp, mkdirs_append]
  change (t.mkdirp limit p).bind _ = _
  rw [mkdirp_dir h]
  rfl

lemma mkdirp_past (h : t.get p = some .file) : t.mkdirp limit (p ++ names) = none := by
  cases p using List.reverseRecOn with
  | nil =>
    rw [t.top] at h
    cases h
  | append_singleton p n =>
    have hmkdir : t.mkdir limit p n = none := by
      rw [mkdir, realpath_solid ⟨_, h, rfl⟩]
      exact if_neg (by rw [h]; exact nofun)
    rw [List.append_assoc, mkdirp_below (t.parent p n _ h), List.singleton_append, mkdirs, hmkdir]
    rfl

lemma get_addDir (h : t.get p = some .dir) :
    (t.addDir p n h).get q = if q = p ++ [n] then some .dir else t.get q := rfl

/-- New directories are made one in the other, and the last is empty. -/
lemma mkdirs_new (hp : t.get p = some .dir)
    (hnew : ∀ n more, names = n :: more → t.get (p ++ [n]) = none) :
    ∃ t', t.mkdirs limit p names = some t' ∧ t'.get (p ++ names) = some .dir ∧
      (names ≠ [] → ∀ m, t'.get (p ++ names ++ [m]) = none) := by
  induction names generalizing t p with
  | nil => exact ⟨t, rfl, by rwa [List.append_nil], fun h => absurd rfl h⟩
  | cons n names ih =>
    have hnone := hnew n names rfl
    have hreal : t.realpath limit (p ++ [n]) = none := by
      rw [realpath, walk_last hp (fun e he => by rw [hnone] at he; cases he), hnone]
      rfl
    have hmkdir : t.mkdir limit p n = some (t.addDir p n hp) := by
      rw [mkdir, hreal, realpath_solid (solid_dir hp)]
      exact dif_pos ⟨hp, hnone⟩
    have hbelow : ∀ m, (t.addDir p n hp).get (p ++ [n] ++ [m]) = none := by
      intro m
      rw [get_addDir, if_neg (by simp)]
      cases hget : t.get (p ++ [n] ++ [m]) with
      | none => rfl
      | some e => rw [t.parent _ m e hget] at hnone; cases hnone
    obtain ⟨t', hmkdirs, hdir, hempty⟩ := ih (t := t.addDir p n hp) (p := p ++ [n])
      (by rw [get_addDir, if_pos rfl]) fun m _ _ => hbelow m
    rw [mkdirs, hmkdir, Option.bind_some, hmkdirs, List.append_cons]
    refine ⟨t', rfl, hdir, fun _ => ?_⟩
    cases names with
    | nil =>
      cases hmkdirs
      rw [List.append_nil]
      exact hbelow
    | cons m names => exact hempty (List.cons_ne_nil _ _)

end Tree

end FabPcb.FileTree
