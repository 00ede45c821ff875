import FabPcb.FileTree

/-!
The files that a bridge serves: `resolveInRoot`, and where reading, writing and making a directory
lead from the path that it returns.

The last name of a path may be a link that leads nowhere yet. Its directory is resolved, it is not.
-/

namespace FabPcb.ServedFiles

open FileTree FileTree.Tree

/-! ### Paths -/

abbrev dots : List Char := ['.', '.']

/-- What a directory can have as a name. -/
def Proper (s : List Char) : Prop := s ≠ [] ∧ s ≠ ['.'] ∧ s ≠ dots ∧ '/' ∉ s

instance : DecidablePred Proper := fun _ => inferInstanceAs (Decidable (_ ∧ _))

abbrev Name : Type := { s : List Char // Proper s }

abbrev Path : Type := List Name

def segment (s : List Char) : Segment Name :=
  if s = dots then .up else if h : Proper s then .name ⟨s, h⟩ else .here

def segments (s : List Char) : List (Segment Name) := (s.splitOn '/').map segment

def isAbsolute (s : List Char) : Bool := s.head? = some '/'

def normalize : Path → List (Segment Name) → Path
  | p, [] => p
  | p, .here :: rest => normalize p rest
  | p, .up :: rest => normalize p.dropLast rest
  | p, .name n :: rest => normalize (p ++ [n]) rest

def resolve (base : Path) (s : List Char) : Path :=
  normalize (if isAbsolute s then [] else base) (segments s)

/-- The number of names that two paths begin with. -/
def shared : Path → Path → ℕ
  | m :: p, n :: q => if m = n then shared p q + 1 else 0
  | _, _ => 0

def relative (p q : Path) : List Char :=
  ['/'].intercalate (List.replicate (p.length - shared p q) dots ++
    (q.drop (shared p q)).map Subtype.val)

def inside (root p : Path) : Bool :=
  decide (p = root) ||
    let rel := relative root p
    decide (rel ≠ []) && !dots.isPrefixOf rel && !isAbsolute rel && decide (dots ∉ rel.splitOn '/')

/-! ### Resolving in a root -/

structure FilesError where
  status : ℕ
  message : String

/-- What the bridge finds of its system. -/
structure System where
  tree : FileTree.Tree Name
  /-- The links that are followed for one path. -/
  limit : ℕ
  cwd : Path

def System.realpath (s : System) (p : Path) : Option Path := s.tree.realpath s.limit p

/-- `realpath` of a path as it is written. -/
def System.realpathOf (s : System) (path : String) : Option Path :=
  s.tree.walk false s.limit (if isAbsolute path.toList then [] else s.cwd) (segments path.toList)

def realRoot (s : System) (root : String) : Path :=
  (s.realpathOf root).getD (resolve s.cwd root.toList)

def shown (requested : Option String) : String := requested.getD "null"

def escapes (requested : Option String) : FilesError :=
  ⟨403, "path escapes the workspace root: " ++ shown requested⟩

def escapesViaSymlink (requested : Option String) : FilesError :=
  ⟨403, "path escapes the workspace root via symlink: " ++ shown requested⟩

def orDot (s : List Char) : List Char := if s = [] then ['.'] else s

/-- The path that a request means. -/
def targetOf (s : System) (root : String) (requested : Option String) : Except FilesError Path :=
  let rootAbs := resolve s.cwd root.toList
  let rootReal := realRoot s root
  let text := (requested.getD "").toList
  if isAbsolute text then
    let r := resolve s.cwd text
    if inside rootAbs r then .ok (resolve rootReal (orDot (relative rootAbs r)))
    else if inside rootReal r then .ok r
    else .error (escapes requested)
  else .ok (resolve rootReal (orDot text))

def rebuild (rootReal : Path) (requested : Option String) (real missing : Path) :
    Except FilesError Path :=
  if inside rootReal (real ++ missing) then .ok (real ++ missing)
  else .error (escapesViaSymlink requested)

/-- The loop, from a path whose last name comes first. -/
def probe (s : System) (rootReal : Path) (requested : Option String) :
    List Name → Path → Except FilesError Path
  | [], missing =>
    match s.realpath [] with
    | some real => rebuild rootReal requested real missing
    | none => .error ⟨400, "cannot resolve " ++ shown requested⟩
  | n :: up, missing =>
    match s.realpath (n :: up).reverse with
    | some real => rebuild rootReal requested real missing
    | none => probe s rootReal requested up (n :: missing)

def resolveInRoot (s : System) (root : String) (requested : Option String) :
    Except FilesError Path := do
  let target ← targetOf s root requested
  if inside (realRoot s root) target then
    probe s (realRoot s root) requested target.reverse []
  else throw (escapes requested)

inductive FilesOp where
  | read
  | write
  | mkdir
  deriving DecidableEq

/-- The file or directory that is really read, written or made. -/
def reached (s : System) : FilesOp → Path → Option Path
  | .read, abs => (s.realpath abs).filter fun r => decide (s.tree.get r = some .file)
  | .write, abs =>
    if (s.realpath abs).any fun r => decide (s.tree.get r = some .dir) then none
    else (s.tree.mkdirp s.limit abs.dropLast).bind fun t => t.place s.limit abs
  | .mkdir, abs => (s.tree.mkdirp s.limit abs).bind fun t => t.realpath s.limit abs

/-- A system with a root directory. -/
structure Workspace extends System where
  root : String
  real : Path
  resolves : toSystem.realpathOf root = some real
  isDir : tree.get real = some .dir

lemma Workspace.realRoot_eq (w : Workspace) : realRoot w.toSystem w.root = w.real := by
  rw [realRoot, w.resolves]
  rfl

/-! ### Inside -/

variable {root p q : Path} {n : Name}

lemma shared_append (p q : Path) : shared p (p ++ q) = p.length := by
  induction p with
  | nil => cases q <;> rfl
  | cons n p ih => rw [List.cons_append, shared, if_pos rfl, ih, List.length_cons]

lemma shared_lt (h : ¬ p <+: q) : shared p q < p.length := by
  induction p generalizing q with
  | nil => exact absurd List.nil_prefix h
  | cons m p ih =>
    cases q with
    | nil => exact Nat.succ_pos _
    | cons n q =>
      rw [shared]
      split
      next heq =>
        exact Nat.succ_lt_succ (ih fun hpq => h (List.cons_prefix_cons.mpr ⟨heq, hpq⟩))
      · exact Nat.succ_pos _

lemma prefix_intercalate (s : List Char) (rest : List (List Char)) :
    s <+: ['/'].intercalate (s :: rest) := by
  cases rest with
  | nil => simp [List.intercalate]
  | cons r rest => simp [List.intercalate]

/-- The name next to the root does not begin with two dots. -/
def Plain (root p : Path) : Prop := ∀ n rest, p = root ++ n :: rest → ¬ dots <+: n.val

lemma relative_below (root q : Path) :
    relative root (root ++ q) = ['/'].intercalate (q.map Subtype.val) := by
  rw [relative, shared_append, Nat.sub_self, List.replicate_zero, List.nil_append,
    List.drop_left]

lemma dots_intercalate {s : List Char} (hs : Proper s) (rest : List (List Char)) :
    dots <+: ['/'].intercalate (s :: rest) ↔ dots <+: s := by
  refine ⟨fun h => ?_, fun h => h.trans (prefix_intercalate s rest)⟩
  obtain ⟨hne, hdot, -, -⟩ := hs
  match s, hne, hdot with
  | [a], _, hdot =>
    obtain ⟨more, hmore⟩ := prefix_intercalate [a] rest
    rw [← hmore] at h
    exact absurd (congrArg (fun c => [c]) (List.cons_prefix_cons.mp h).1.symm) hdot
  | a :: b :: s, _, _ =>
    exact List.prefix_of_prefix_length_le h (prefix_intercalate _ rest) (by simp)

lemma splitOn_names (n : Name) (rest : Path) :
    (['/'].intercalate ((n :: rest).map Subtype.val)).splitOn '/' = (n :: rest).map Subtype.val := by
  refine List.splitOn_intercalate '/' ?_ (by simp)
  intro l hl
  obtain ⟨m, -, rfl⟩ := List.mem_map.mp hl
  exact m.property.2.2.2

/-- Below the root, the first name decides. -/
lemma inside_below (n : Name) (rest : Path) :
    inside root (root ++ n :: rest) = true ↔ ¬ dots <+: n.val := by
  obtain ⟨hne, -, -, hslash⟩ := n.property
  obtain ⟨more, hmore⟩ := prefix_intercalate n.val (rest.map Subtype.val)
  obtain ⟨c, cs, hc⟩ := List.exists_cons_of_ne_nil hne
  have hself : root ++ n :: rest ≠ root := fun h => by simpa using congrArg List.length h
  have hmem : dots ∉ (n :: rest).map Subtype.val := by
    intro h
    obtain ⟨m, -, hm⟩ := List.mem_map.mp h
    exact m.property.2.2.1 hm
  have habsolute : isAbsolute (['/'].intercalate ((n :: rest).map Subtype.val)) = false := by
    rw [List.map_cons, ← hmore, hc, isAbsolute]
    simp only [List.cons_append, List.head?_cons, Option.some.injEq, decide_eq_false_iff_not]
    rintro rfl
    exact hslash (hc ▸ List.mem_cons_self)
  have hnonempty : ['/'].intercalate ((n :: rest).map Subtype.val) ≠ [] := by
    rw [List.map_cons, ← hmore, hc]
    exact List.cons_ne_nil _ _
  rw [inside, relative_below]
  dsimp only
  rw [splitOn_names, habsolute, decide_eq_false hself, decide_eq_true hnonempty,
    decide_eq_true hmem, ← dots_intercalate n.property (rest.map Subtype.val), Bool.false_or,
    Bool.true_and, Bool.not_false, Bool.and_true, Bool.and_true, Bool.not_eq_true',
    ← Bool.not_eq_true, List.isPrefixOf_iff_prefix, List.map_cons]

lemma inside_self : inside root root = true := by
  rw [inside, decide_eq_true rfl]
  rfl

lemma not_inside (h : ¬ root <+: p) : inside root p = false := by
  have hself : p ≠ root := fun heq => h (by rw [heq])
  obtain ⟨k, hk⟩ := Nat.exists_eq_succ_of_ne_zero (Nat.sub_ne_zero_of_lt (shared_lt h))
  have hdots : dots.isPrefixOf (relative root p) = true := by
    rw [List.isPrefixOf_iff_prefix, relative, hk]
    exact prefix_intercalate _ _
  simp [inside, hdots, hself]

lemma inside_iff : inside root p = true ↔ root <+: p ∧ Plain root p := by
  by_cases hroot : root <+: p
  · obtain ⟨rest, rfl⟩ := hroot
    cases rest with
    | nil =>
      rw [List.append_nil]
      refine iff_of_true inside_self ⟨List.prefix_rfl, fun n rest h => ?_⟩
      exact absurd (congrArg List.length h) (by simp)
    | cons n rest =>
      rw [inside_below]
      constructor
      · intro h
        refine ⟨List.prefix_append _ _, fun m more heq => ?_⟩
        cases List.append_cancel_left heq
        exact h
      · exact fun h => h.2 n rest rfl
  · exact iff_of_false (by rw [not_inside hroot]; exact nofun) fun h => hroot h.1

/-! ### The loop -/

variable {s : System} {rootReal real missing target d : Path} {requested : Option String}

/-- The loop stops at the deepest ancestor that can be resolved. -/
lemma probe_deepest (s : System) (rootReal : Path) (requested : Option String) (up : List Name)
    (missing : Path)
    (hstuck : ∀ n more, missing = n :: more → s.realpath (up.reverse ++ [n]) = none) :
    ∃ real rest, s.tree.Deepest s.limit (up.reverse ++ missing) real rest ∧
      probe s rootReal requested up missing = rebuild rootReal requested real rest := by
  induction up generalizing missing with
  | nil =>
    have htop : s.realpath [] = some [] := realpath_solid solid_top
    exact ⟨[], missing, ⟨[], rfl, htop, hstuck⟩, by rw [probe, htop]⟩
  | cons n up ih =>
    cases hreal : s.realpath (n :: up).reverse with
    | some real =>
      exact ⟨real, missing, ⟨(n :: up).reverse, rfl, hreal, hstuck⟩, by rw [probe, hreal]⟩
    | none =>
      obtain ⟨real, rest, hdeepest, hprobe⟩ := ih (n :: missing) fun m more h => by
        cases h
        rw [← List.reverse_cons]
        exact hreal
      refine ⟨real, rest, ?_, by rw [probe, hreal]; exact hprobe⟩
      rw [List.reverse_cons, List.append_assoc]
      exact hdeepest

lemma probe_target (s : System) (rootReal : Path) (requested : Option String) (target : Path) :
    ∃ real rest, s.tree.Deepest s.limit target real rest ∧
      probe s rootReal requested target.reverse [] = rebuild rootReal requested real rest := by
  obtain ⟨real, rest, hdeepest, hprobe⟩ := probe_deepest s rootReal requested target.reverse []
    (fun _ _ h => nomatch h)
  rw [List.reverse_reverse, List.append_nil] at hdeepest
  exact ⟨real, rest, hdeepest, hprobe⟩

/-- What is accepted is a target in the root, whose deepest ancestor really is in the root with the
names that follow. -/
lemma resolveInRoot_ok {w : Workspace} :
    resolveInRoot w.toSystem w.root requested = .ok p ↔
      ∃ target real missing, targetOf w.toSystem w.root requested = .ok target ∧
        inside w.real target = true ∧ w.tree.Deepest w.limit target real missing ∧
          inside w.real (real ++ missing) = true ∧ p = real ++ missing := by
  rw [resolveInRoot, w.realRoot_eq]
  constructor
  · intro h
    cases htarget : targetOf w.toSystem w.root requested with
    | error e =>
      rw [htarget] at h
      cases h
    | ok target =>
      rw [htarget] at h
      change (if inside w.real target = true then _ else _) = _ at h
      split at h
      next hin =>
        obtain ⟨real, missing, hdeepest, hprobe⟩ := probe_target w.toSystem w.real requested target
        rw [hprobe, rebuild] at h
        split at h
        next hin' =>
          cases h
          exact ⟨target, real, missing, rfl, hin, hdeepest, hin', rfl⟩
        · cases h
      · cases h
  · rintro ⟨target, real, missing, htarget, hin, hdeepest, hin', rfl⟩
    obtain ⟨real', missing', hdeepest', hprobe⟩ := probe_target w.toSystem w.real requested target
    obtain ⟨rfl, rfl⟩ := deepest_unique hdeepest hdeepest'
    rw [htarget]
    change (if inside w.real target = true then _ else _) = _
    rw [if_pos hin, hprobe, rebuild, if_pos hin']

/-! ### Where an operation leads -/

variable {op : FilesOp}

/-- From a path without links, nowhere else. -/
lemma reached_solid (h : s.tree.Solid p) (hd : reached s op p = some d) : d = p := by
  have hreal : s.realpath p = some p := realpath_solid h
  obtain ⟨e, he, hlink⟩ := h
  cases op with
  | read =>
    obtain ⟨hr, -⟩ := Option.filter_eq_some_iff.mp hd
    rw [hreal] at hr
    exact (Option.some.inj hr).symm
  | write =>
    rw [reached, hreal] at hd
    split at hd
    · cases hd
    next hnot =>
      obtain ⟨t, ht, hplace⟩ := Option.bind_eq_some_iff.mp hd
      cases p using List.reverseRecOn with
      | nil => exact absurd (decide_eq_true s.tree.top) hnot
      | append_singleton p n =>
        rw [List.dropLast_concat, mkdirp_dir (s.tree.parent p n e he)] at ht
        cases ht
        rw [place_solid ⟨e, he, hlink⟩] at hplace
        exact (Option.some.inj hplace).symm
  | mkdir =>
    obtain ⟨t, ht, hmade⟩ := Option.bind_eq_some_iff.mp hd
    cases e with
    | link absolute text => cases hlink
    | file =>
      have hpast : s.tree.mkdirp s.limit (p ++ []) = none := mkdirp_past he
      rw [List.append_nil, ht] at hpast
      cases hpast
    | dir =>
      rw [mkdirp_dir he] at ht
      cases ht
      rw [realpath_solid ⟨_, he, rfl⟩] at hmade
      exact (Option.some.inj hmade).symm

lemma reached_past {n : Name} (h : s.tree.get real = some .file) :
    reached s op (real ++ n :: missing) = none := by
  have hreal : s.realpath (real ++ n :: missing) = none := walk_past h (List.cons_ne_nil _ _)
  cases op with
  | read => rw [reached, hreal]; rfl
  | write =>
    rw [reached, hreal, List.dropLast_append_of_ne_nil (List.cons_ne_nil _ _), mkdirp_past h]
    rfl
  | mkdir => rw [reached, mkdirp_past h]; rfl

/-- A new name is made where it stands. -/
lemma reached_new {n : Name} (h : s.tree.get real = some .dir)
    (hn : s.tree.get (real ++ [n]) = none)
    (hd : reached s op (real ++ n :: missing) = some d) : d = real ++ n :: missing := by
  have hreal : s.realpath (real ++ n :: missing) = none := by
    rw [System.realpath, realpath, List.map_append, walk_below h, List.map_cons, walk_eq,
      walkWith_name h, hn]
    rfl
  cases op with
  | read =>
    rw [reached, hreal] at hd
    cases hd
  | write =>
    obtain ⟨up, m, hlast⟩ : ∃ up m, n :: missing = up ++ [m] :=
      ⟨_, _, (List.dropLast_append_getLast (List.cons_ne_nil n missing)).symm⟩
    rw [reached, hreal, hlast, ← List.append_assoc, List.dropLast_concat, mkdirp_below h] at hd
    obtain ⟨t, ht, hplace⟩ := Option.bind_eq_some_iff.mp hd
    have hnew : ∀ k more, up = k :: more → s.tree.get (real ++ [k]) = none := by
      rintro k more rfl
      cases hlast
      exact hn
    obtain ⟨t', ht', hdir, hempty⟩ : ∃ t', s.tree.mkdirs s.limit real up = some t' ∧ _ :=
      mkdirs_new h hnew
    cases ht.symm.trans ht'
    have hnone : t.get (real ++ up ++ [m]) = none := by
      cases up with
      | nil =>
        cases hlast
        cases ht
        rwa [List.append_nil]
      | cons k up => exact hempty (List.cons_ne_nil _ _) m
    rw [place, walk_last hdir (fun e he => by rw [hnone] at he; cases he), hnone] at hplace
    rw [hlast, ← List.append_assoc]
    exact (Option.some.inj hplace).symm
  | mkdir =>
    rw [reached, mkdirp_below h] at hd
    obtain ⟨t, ht, hmade⟩ := Option.bind_eq_some_iff.mp hd
    obtain ⟨t', ht', hdir, -⟩ : ∃ t', s.tree.mkdirs s.limit real (n :: missing) = some t' ∧ _ :=
      mkdirs_new h (fun m more hm => by cases hm; exact hn)
    cases ht.symm.trans ht'
    rw [realpath_solid ⟨_, hdir, rfl⟩] at hmade
    exact (Option.some.inj hmade).symm

/-! ### Containment -/

/-- What is reached from an accepted path lies in the root. -/
def Contained (w : Workspace) (requested : Option String) : Prop :=
  ∀ p, resolveInRoot w.toSystem w.root requested = .ok p →
    ∀ op d, reached w.toSystem op p = some d → w.real <+: d

/-- No ancestor of a path leads out of the root. -/
def Stays (w : Workspace) (target : Path) : Prop :=
  ∀ q, w.real <+: q → q <+: target → ∀ d, w.tree.place w.limit q = some d → w.real <+: d

/-- The place of a relative path, normalised. -/
def normalized (w : Workspace) (text : String) : Path := resolve w.real (orDot text.toList)

/-- A relative path that stays in the root. -/
def Belongs (w : Workspace) (text : String) : Prop :=
  isAbsolute text.toList = false ∧ w.real <+: normalized w text ∧ Stays w (normalized w text)

/-- It is accepted if it belongs. -/
def Welcome (w : Workspace) (requested : Option String) : Prop :=
  Belongs w (requested.getD "") → ∃ p, resolveInRoot w.toSystem w.root requested = .ok p

/-- When the first name that cannot be resolved is a link, it does not lead out of the root from the
directory that it really is in. -/
def Tight (w : Workspace) (requested : Option String) : Prop :=
  ∀ target real n missing e, targetOf w.toSystem w.root requested = .ok target →
    inside w.real target = true → w.tree.Deepest w.limit target real (n :: missing) →
      w.tree.get real = some .dir → w.tree.get (real ++ [n]) = some e → e.isLink = true →
        inside w.real (real ++ n :: missing) = true →
          ∀ op d, reached w.toSystem op (real ++ n :: missing) = some d → w.real <+: d

/-- No name next to the root begins with two dots, as it is written and as it really is. -/
def Undotted (w : Workspace) (requested : Option String) : Prop :=
  let target := normalized w (requested.getD "")
  Belongs w (requested.getD "") → Plain w.real target ∧
    ∀ real missing, w.tree.Deepest w.limit target real missing → Plain w.real (real ++ missing)

variable {w : Workspace}

lemma targetOf_relative (h : isAbsolute (requested.getD "").toList = false) :
    targetOf w.toSystem w.root requested = .ok (normalized w (requested.getD "")) := by
  rw [targetOf, w.realRoot_eq]
  rw [h]
  rfl

lemma contained_iff : Contained w requested ↔ Tight w requested := by
  constructor
  · intro h target real n missing e htarget hin hdeepest hdir he hlink hin'
    exact h _ (resolveInRoot_ok.mpr ⟨target, real, _, htarget, hin, hdeepest, hin', rfl⟩)
  · intro h p hp op d hd
    obtain ⟨target, real, missing, htarget, hin, hdeepest, hin', rfl⟩ := resolveInRoot_ok.mp hp
    have hbefore : w.real <+: real ++ missing := (inside_iff.mp hin').1
    have hsolid : w.tree.Solid real := by
      obtain ⟨probe, -, hreal, -⟩ := hdeepest
      exact solid_realpath hreal
    cases missing with
    | nil =>
      rw [List.append_nil] at hd hbefore
      rw [reached_solid hsolid hd]
      exact hbefore
    | cons n missing =>
      obtain ⟨e, he, hlink⟩ := hsolid
      cases e with
      | link absolute text => cases hlink
      | file =>
        rw [reached_past he] at hd
        cases hd
      | dir =>
        rcases deepest_dir hdeepest he with hnew | ⟨e, hget, hlink⟩
        · rw [reached_new he hnew hd]
          exact hbefore
        · exact h target real n missing e htarget hin hdeepest he hget hlink hin' op d hd

/-- The deepest ancestor of what is in the root is not above it. -/
lemma real_below (hbefore : w.real <+: target) (hstays : Stays w target)
    (hdeepest : w.tree.Deepest w.limit target real missing) : w.real <+: real ++ missing := by
  obtain ⟨probe, rfl, hreal, hstuck⟩ := hdeepest
  have hroot : w.tree.realpath w.limit w.real = some w.real := realpath_solid (solid_dir w.isDir)
  have hbelow : w.real <+: probe := by
    rcases List.prefix_or_prefix_of_prefix hbefore (List.prefix_append probe missing) with h | h
    · exact h
    · obtain ⟨more, hmore⟩ := h
      cases more with
      | nil => rw [← hmore, List.append_nil]
      | cons n more =>
        obtain ⟨rest, hrest⟩ := hbefore
        have hmissing : missing = n :: (more ++ rest) := by
          rw [← hmore, List.append_assoc] at hrest
          exact (List.append_cancel_left hrest).symm
        rw [← hmore, List.append_cons] at hroot
        obtain ⟨r, hr⟩ := realpath_first hroot
        rw [hstuck n _ hmissing] at hr
        cases hr
  exact (hstays probe hbelow (List.prefix_append _ _) real (realpath_place hreal)).trans
    (List.prefix_append _ _)

lemma welcome_iff : Welcome w requested ↔ Undotted w requested := by
  constructor
  · intro h hbelongs
    obtain ⟨p, hp⟩ := h hbelongs
    obtain ⟨target, real, missing, htarget, hin, hdeepest, hin', -⟩ := resolveInRoot_ok.mp hp
    rw [targetOf_relative hbelongs.1] at htarget
    cases htarget
    refine ⟨(inside_iff.mp hin).2, fun real' missing' hdeepest' => ?_⟩
    obtain ⟨rfl, rfl⟩ := deepest_unique hdeepest hdeepest'
    exact (inside_iff.mp hin').2
  · intro h hbelongs
    obtain ⟨hplain, hdeep⟩ := h hbelongs
    obtain ⟨habsolute, hbefore, hstays⟩ := hbelongs
    obtain ⟨real, missing, hdeepest, -⟩ := probe_target w.toSystem w.real requested
      (normalized w (requested.getD ""))
    refine ⟨_, resolveInRoot_ok.mpr ⟨_, real, missing, targetOf_relative habsolute,
      inside_iff.mpr ⟨hbefore, hplain⟩, hdeepest, ?_, rfl⟩⟩
    exact inside_iff.mpr ⟨real_below hbefore hstays hdeepest, hdeep real missing hdeepest⟩

/-- **Containment.** What is accepted leads nowhere outside and what belongs to the root is accepted,
exactly when no link that cannot be resolved leads out and no name next to the root begins with two
dots. -/
theorem containment_iff (w : Workspace) (requested : Option String) :
    Contained w requested ∧ Welcome w requested ↔ Tight w requested ∧ Undotted w requested :=
  and_congr contained_iff welcome_iff

/-! ### A link to a new file outside -/

def srv : Name := ⟨['s', 'r', 'v'], by decide⟩

def etc : Name := ⟨['e', 't', 'c'], by decide⟩

def new : Name := ⟨['n', 'e', 'w'], by decide⟩

def hidden : Name := ⟨['.', '.', 'n'], by decide⟩

/-- `/srv/new` is a link to `/etc/new`, which is not there. -/
def linked : FileTree.Tree Name where
  get p :=
    if p = [] ∨ p = [srv] ∨ p = [etc] then some .dir
    else if p = [srv, new] then some (.link true [.name etc, .name new])
    else none
  top := rfl
  parent p n e h := by
    match p with
    | [] => rfl
    | [m] =>
      rw [if_neg (by simp)] at h
      split at h
      next heq => cases heq; rfl
      · cases h
    | m :: m' :: p =>
      rw [if_neg (by simp), if_neg (by simp)] at h
      cases h

def served : Workspace where
  tree := linked
  limit := 40
  cwd := []
  root := "/srv"
  real := [srv]
  resolves := by rfl
  isDir := rfl

/-- Writing `new` makes `/etc/new`, and `..n` is not accepted. -/
theorem not_containment :
    ¬ Contained served (some "new") ∧ ¬ Welcome served (some "..n") := by
  constructor
  · intro h
    have hout := h [srv, new] (by rfl) .write [etc, new] (by rfl)
    exact absurd hout (by decide)
  · intro h
    have hbelongs : Belongs served "..n" := by
      refine ⟨by rfl, ⟨[hidden], by rfl⟩, fun q hq hq' d hd => ?_⟩
      obtain ⟨more, rfl⟩ := hq
      have hmore : more <+: [hidden] := (List.cons_prefix_cons.mp hq').2
      match more with
      | [] =>
        cases hd
        exact ⟨[], rfl⟩
      | [m] =>
        cases (List.cons_prefix_cons.mp hmore).1
        cases hd
        exact ⟨[hidden], rfl⟩
      | m :: m' :: more => exact absurd hmore.length_le (by simp)
    obtain ⟨p, hp⟩ := h hbelongs
    have hrejected : (resolveInRoot served.toSystem served.root (some "..n")).isOk = false := by rfl
    rw [hp] at hrejected
    cases hrejected

end FabPcb.ServedFiles
