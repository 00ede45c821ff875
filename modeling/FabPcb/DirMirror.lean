import FabPcb.MirrorTrees
import FabPcb.Runs
import Mathlib.Data.List.Sort

/-!
The mirror of a directory of the host in the memory of the module, over runs.

Of every entry, on either side, the mirror remembers its signature when the sides were last
brought together: the size and the time of a file, or a constant for a directory. A side is
brought to the other by what has a new signature there, and by what is no more there.
-/

namespace FabPcb.DirMirror

open MirrorTrees OrderedMap Runs

abbrev Path := List String
abbrev Data := List UInt8
abbrev Files := Tree String Data

/-- A signature: `DIR`, or a size and an `mtime`. -/
inductive Signature where
  | dir
  | file (size mtime : ℕ)
  deriving DecidableEq

def signature : Entry Data → Signature
  | .file data mtime => .file data.length mtime
  | .dir => .dir

abbrev Snapshot := OMap Path Signature

/-- What `hostFiles` and `memfsFiles` find, in the order of the walk. -/
def files (t : Files) : List (Path × Signature) := t.list.map fun x => (x.1, signature x.2)

/-- The order of a removal. -/
def Deeper (a b : Path) : Prop := b.length ≤ a.length

instance (a b : Path) : Decidable (Deeper a b) := inferInstanceAs (Decidable (_ ≤ _))

instance : Std.Total Deeper := ⟨fun a b => Nat.le_total b.length a.length⟩

instance : IsTrans Path Deeper := ⟨fun _ _ _ hab hbc => Nat.le_trans hbc hab⟩

/-- Entries that were in `known` and are not in `now`, children before their parents. -/
def deepestFirst (known : Snapshot) (now : List (Path × Signature)) : List Path :=
  (known.keys.filter fun rel => rel ∉ now.map Prod.fst).insertionSort Deeper

/-- One direction at work: the tree written to, what is remembered of the side that is read and
of the side written to, and the counts. -/
structure Sync where
  target : Files
  read : Snapshot
  wrote : Snapshot
  written : ℕ
  removed : ℕ

variable (W : FileWriter String Data) (mtime : Path → ℕ) (source : Files)

/-- One entry of the side that is read, new or changed; false when a call throws. -/
def copyEntry (rel : Path) (sig : Signature) (s : Sync) : Sync × Bool :=
  match sig with
  | .dir =>
    match W.mkdir s.target rel with
    | none => (s, false)
    | some t =>
      ({ s with
        target := t, read := s.read.set rel .dir, wrote := s.wrote.set rel .dir,
        written := s.written + 1 }, true)
  | .file size time =>
    match source.get rel with
    | some (.file data _) =>
      match W.mkdir s.target rel.dropLast with
      | none => (s, false)
      | some t =>
        match W.write t rel data (mtime rel) with
        | none => ({ s with target := t }, false)
        | some t' =>
          ({ s with
            target := t', read := s.read.set rel (.file size time),
            wrote := s.wrote.set rel ((t'.get rel).elim (.file size time) signature),
            written := s.written + 1 }, true)
    | _ => (s, false)

/-- The entries with a new signature, until a call throws. -/
def copy : List (Path × Signature) → Sync → Sync × Bool
  | [], s => (s, true)
  | (rel, sig) :: rest, s =>
    if s.read.get? rel = some sig then copy rest s
    else
      match copyEntry W mtime source rel sig s with
      | (s', true) => copy rest s'
      | (s', false) => (s', false)

/-- The entries that are gone. A call that throws is passed over. -/
def removeAll : List Path → Sync → Sync
  | [], s => s
  | rel :: rest, s =>
    let wasDir := decide (s.read.get? rel = some .dir)
    let s' := { s with read := s.read.delete rel, wrote := s.wrote.delete rel }
    removeAll rest <|
      match W.remove s.target rel wasDir with
      | some t => { s' with target := t, removed := s.removed + 1 }
      | none => s'

/-- One direction: what has a new signature is written, and what is gone is removed. -/
def mirror (s : Sync) : Sync × Bool :=
  match copy W mtime source (files source) s with
  | (s', true) => (removeAll W (deepestFirst s'.read (files source)) s', true)
  | (s', false) => (s', false)

/-- Which side has been changed since the two were brought together. -/
inductive Phase where
  | together
  | hostChanged
  | memChanged
  deriving DecidableEq

/-- The two sides, and the signatures that a `DirMirror` has of them. -/
structure State where
  disk : Files
  memfs : Files
  host : Snapshot
  mem : Snapshot
  phase : Phase

/-- Host → MEMFS, with the times that the files written get; no counts when it throws. -/
def pushToMemfs (s : State) : State × Option (ℕ × ℕ) :=
  let (s', done) := mirror memfs mtime s.disk ⟨s.memfs, s.host, s.mem, 0, 0⟩
  (⟨s.disk, s'.target, s'.read, s'.wrote, .together⟩,
    if done then some (s'.written, s'.removed) else none)

/-- MEMFS → host. -/
def pullToHost (s : State) : State × Option (ℕ × ℕ) :=
  let (s', done) := mirror node mtime s.memfs ⟨s.disk, s.mem, s.host, 0, 0⟩
  (⟨s'.target, s.memfs, s'.wrote, s'.read, .together⟩,
    if done then some (s'.written, s'.removed) else none)

/-- Records both sides as they are. -/
def prime (disk memfs : Files) : State :=
  ⟨disk, memfs, .ofList (files disk), .ofList (files memfs), .together⟩

/-! ### Runs -/

/-- What a file holds, or that there is a directory. -/
def content : Entry Data → Option Data
  | .file data _ => some data
  | .dir => none

/-- The two trees are equal, but for the times of their files. -/
def Same (t u : Files) : Prop := ∀ p, (t.get p).map content = (u.get p).map content

/-- What there is under a signature, where `dataOf` says what a file with it holds. -/
def shown (dataOf : Path → Signature → Data) (p : Path) : Signature → Option Data
  | .dir => none
  | .file size mtime => some (dataOf p (.file size mtime))

variable (dataOf : Path → Signature → Data)

/-- Every file holds what its signature says. -/
def consistent (t : Files) : Bool :=
  t.list.all fun x => content x.2 = shown dataOf x.1 (signature x.2)

inductive Action where
  | changeHost (t : Files)
  | push (mtime : Path → ℕ)
  | changeMem (t : Files)
  | pull (mtime : Path → ℕ)

variable (hostData memData : Path → Signature → Data)

/-- A side is changed in any way while the other is as it was, and read when it may have been
changed. The signatures of a side are injective: the files that there ever are at a path with
one signature hold the same. -/
def step (s : State) : Action → Option State
  | .changeHost t =>
    if s.phase ≠ .memChanged ∧ consistent hostData t then
      some { s with disk := t, phase := .hostChanged }
    else none
  | .push mtime =>
    let s' := (pushToMemfs mtime s).1
    if s.phase ≠ .memChanged ∧ consistent memData s'.memfs then some s' else none
  | .changeMem t =>
    if s.phase ≠ .hostChanged ∧ consistent memData t then
      some { s with memfs := t, phase := .memChanged }
    else none
  | .pull mtime =>
    let s' := (pullToHost mtime s).1
    if s.phase ≠ .hostChanged ∧ consistent hostData s'.disk then some s' else none

/-- No path is a file in one tree and a directory in the other. -/
def SameKinds (t u : Files) : Prop :=
  ∀ p, t.get p ≠ none → u.get p ≠ none → (t.get p = some .dir ↔ u.get p = some .dir)

/-- A push or a pull finds no path that has become a directory or a file since the sides were
brought together. -/
def KeepsKinds (s : State) (a : Action) : Prop :=
  (step hostData memData s a).isSome →
    match a with
    | .push _ | .pull _ => SameKinds s.disk s.memfs
    | _ => True

/-- Two equal trees to begin with, as after the first mount. -/
structure Mounted where
  disk : Files
  memfs : Files
  same : Same disk memfs
  hostFits : consistent hostData disk = true
  memFits : consistent memData memfs = true

/-! ### What is remembered -/

/-- A snapshot has the signatures of a tree. -/
structure Exact (known : Snapshot) (t : Files) : Prop where
  top : known.get? [] = none
  get : ∀ p, p ≠ [] → known.get? p = (t.get p).map signature

/-- A tree has what a snapshot of the other side stands for. -/
structure Describes (dataOf : Path → Signature → Data) (known : Snapshot) (t : Files) : Prop where
  top : known.get? [] = none
  get : ∀ p, p ≠ [] → (t.get p).map content = (known.get? p).map (shown dataOf p)

variable {W : FileWriter String Data} {T : Path → ℕ} {source t u : Files} {s s' : Sync}
  {dataOf : Path → Signature → Data} {known : Snapshot} {p q rel : Path} {n : String}
  {e : Entry Data} {sig : Signature}

lemma mem_files : (p, sig) ∈ files t ↔ p ≠ [] ∧ (t.get p).map signature = some sig := by
  rw [files, List.mem_map]
  constructor
  · rintro ⟨⟨q, e⟩, hmem, heq⟩
    obtain ⟨rfl, rfl⟩ := Prod.mk.inj heq
    obtain ⟨hp, hget⟩ := Tree.mem_list.mp hmem
    exact ⟨hp, by rw [hget]; rfl⟩
  · rintro ⟨hp, h⟩
    obtain ⟨e, hget, rfl⟩ := Option.map_eq_some_iff.mp h
    exact ⟨(p, e), Tree.mem_list.mpr ⟨hp, hget⟩, rfl⟩

lemma files_paths : (files t).map Prod.fst = t.list.map Prod.fst := by
  rw [files, List.map_map]
  rfl

lemma mem_files_paths : p ∈ (files t).map Prod.fst ↔ p ≠ [] ∧ t.get p ≠ none := by
  rw [files_paths, Tree.mem_paths]

lemma consistent_get (h : consistent dataOf t = true) (hp : p ≠ []) (hget : t.get p = some e) :
    content e = shown dataOf p (signature e) := by
  have := List.all_eq_true.mp h (p, e) (Tree.mem_list.mpr ⟨hp, hget⟩)
  simpa using this

lemma Exact.describes (h : Exact known t) (hfit : consistent dataOf t = true)
    (hsame : Same t u) : Describes dataOf known u := by
  refine ⟨h.top, fun p hp => ?_⟩
  rw [← hsame p, h.get p hp]
  cases hget : t.get p with
  | none => rfl
  | some e => exact congrArg some (consistent_get hfit hp hget)

lemma content_eq_none : content e = none ↔ e = .dir := by
  cases e with
  | file data mtime => exact iff_of_false nofun nofun
  | dir => exact iff_of_true rfl rfl

lemma map_content_eq_dir {o : Option (Entry Data)} :
    o.map content = some none ↔ o = some .dir := by
  cases o with
  | none => exact iff_of_false nofun nofun
  | some e => simp [content_eq_none]

lemma map_content_eq_none {o : Option (Entry Data)} : o.map content = none ↔ o = none :=
  Option.map_eq_none_iff

lemma Describes.dir_iff (h : Describes dataOf known t) (hp : p ≠ []) :
    known.get? p = some .dir ↔ t.get p = some .dir := by
  rw [← map_content_eq_dir, h.get p hp]
  cases known.get? p with
  | none => exact iff_of_false nofun nofun
  | some sig =>
    cases sig with
    | dir => exact iff_of_true rfl rfl
    | file size mtime => exact iff_of_false nofun nofun

lemma Describes.ne_none_iff (h : Describes dataOf known t) (hp : p ≠ []) :
    known.get? p ≠ none ↔ t.get p ≠ none := by
  rw [ne_eq, ne_eq, ← map_content_eq_none (o := t.get p), h.get p hp, Option.map_eq_none_iff]

lemma Same.symm (h : Same t u) : Same u t := fun p => (h p).symm

lemma SameKinds.symm (h : SameKinds t u) : SameKinds u t := fun p ht hu => (h p hu ht).symm

/-! ### What is written -/

/-- How far the entries are copied: those that are known of are as on the side that is read, and
the others as before. -/
structure Copied (source : Files) (s₀ s : Sync) (done : Path → Prop) : Prop where
  same : ∀ p, done p → p ≠ [] → (s.target.get p).map content = (source.get p).map content ∧
    s.read.get? p = (source.get p).map signature ∧
    s.wrote.get? p = (s.target.get p).map signature
  rest : ∀ p, ¬ done p → s.target.get p = s₀.target.get p ∧
    s.read.get? p = s₀.read.get? p ∧ s.wrote.get? p = s₀.wrote.get? p
  top : s.read.get? [] = s₀.read.get? [] ∧ s.wrote.get? [] = s₀.wrote.get? []

lemma copied_refl : Copied source s s (· = []) :=
  ⟨fun _ hp hne => absurd hp hne, fun _ _ => ⟨rfl, rfl, rfl⟩, rfl, rfl⟩

/-- An entry in a directory is copied, where the kinds agree. -/
lemma copyEntry_new (hsource : source.get (p ++ [n]) = some e)
    (hparent : s.target.get p = some .dir)
    (hkind : s.target.get (p ++ [n]) ≠ none →
      (e = .dir ↔ s.target.get (p ++ [n]) = some .dir)) :
    ∃ s', copyEntry W T source (p ++ [n]) (signature e) s = (s', true) ∧
      (s'.target.get (p ++ [n])).map content = some (content e) ∧
      s'.wrote.get? (p ++ [n]) = (s'.target.get (p ++ [n])).map signature ∧
      (∀ q, q ≠ p ++ [n] → s'.target.get q = s.target.get q ∧
        s'.wrote.get? q = s.wrote.get? q) ∧
      ∀ q, s'.read.get? q = if q = p ++ [n] then some (signature e) else s.read.get? q := by
  cases e with
  | dir =>
    obtain ⟨t, ht, hget⟩ : ∃ t, W.mkdir s.target (p ++ [n]) = some t ∧
        ∀ q, t.get q = if q = p ++ [n] then some .dir else s.target.get q := by
      cases hold : s.target.get (p ++ [n]) with
      | none => exact W.mkdir_new _ _ _ hparent hold
      | some e =>
        have hdir : s.target.get (p ++ [n]) = some .dir :=
          (hkind (by rw [hold]; exact nofun)).mp rfl
        refine ⟨s.target, W.mkdir_there _ _ hdir, fun q => ?_⟩
        by_cases hq : q = p ++ [n]
        · rw [if_pos hq, hq, hdir]
        · rw [if_neg hq]
    refine ⟨_, by simp only [copyEntry, signature, ht]; rfl, ?_, ?_, fun q hq => ⟨?_, ?_⟩,
      fun q => ?_⟩
    · rw [hget, if_pos rfl]
      rfl
    · rw [hget, if_pos rfl, OMap.get?_set, if_pos rfl]
      rfl
    · rw [hget, if_neg hq]
    · rw [OMap.get?_set, if_neg hq]
    · rw [OMap.get?_set]
      rfl
  | file data time =>
    have hdir : s.target.get (p ++ [n]) ≠ some .dir := fun h =>
      nomatch (hkind (by rw [h]; exact nofun)).mpr h
    obtain ⟨t, ht, hget⟩ := W.write_new s.target p n data (T (p ++ [n])) hparent hdir
    refine ⟨_, by simp only [copyEntry, signature, hsource, List.dropLast_concat,
      W.mkdir_there _ _ hparent, ht]; rfl, ?_, ?_, fun q hq => ⟨?_, ?_⟩, fun q => ?_⟩
    · rw [hget, if_pos rfl]
      rfl
    · rw [hget, if_pos rfl, OMap.get?_set, if_pos rfl]
      rfl
    · rw [hget, if_neg hq]
    · rw [OMap.get?_set, if_neg hq]
    · rw [OMap.get?_set]
      rfl

/-- The first entry of a listing that is not done, as the listing has it. -/
structure Listed (source : Files) (done : Path → Prop) (l : List (Path × Signature)) : Prop where
  nested : Tree.Nested done (l.map Prod.fst)
  found : ∀ x ∈ l, x.1 ≠ [] ∧ (source.get x.1).map signature = some x.2

lemma listed_files : Listed source (· = []) (files source) :=
  ⟨files_paths ▸ Tree.nested_list, fun _ hx => mem_files.mp hx⟩

/-- One more entry is copied. -/
lemma Copied.snoc {s₀ : Sync} {done : Path → Prop} (h : Copied source s₀ s done)
    (hrel : rel ≠ []) (hsource : source.get rel = some e)
    (hsame : (s'.target.get rel).map content = some (content e))
    (hwrote : s'.wrote.get? rel = (s'.target.get rel).map signature)
    (hothers : ∀ q, q ≠ rel → s'.target.get q = s.target.get q ∧ s'.wrote.get? q = s.wrote.get? q)
    (hread : ∀ q, s'.read.get? q = if q = rel then some (signature e) else s.read.get? q) :
    Copied source s₀ s' fun q => done q ∨ q = rel := by
  refine ⟨fun q hq hne => ?_, fun q hq => ?_, ?_⟩
  · by_cases heq : q = rel
    · subst heq
      rw [hsource, hread, if_pos rfl]
      exact ⟨hsame, rfl, hwrote⟩
    · obtain ⟨h₁, h₂⟩ := hothers q heq
      rw [hread, if_neg heq, h₁, h₂]
      exact h.same q (hq.resolve_right heq) hne
  · have heq : q ≠ rel := fun h' => hq (Or.inr h')
    obtain ⟨h₁, h₂⟩ := hothers q heq
    rw [hread, if_neg heq, h₁, h₂]
    exact h.rest q fun h' => hq (Or.inl h')
  · rw [hread, if_neg (Ne.symm hrel), (hothers [] (Ne.symm hrel)).2]
    exact h.top

/-- An entry whose signature is remembered is as it was, on both sides. -/
lemma Copied.skip {s₀ : Sync} {done : Path → Prop} (h : Copied source s₀ s done)
    (hfit : consistent dataOf source = true) (hread : Describes dataOf s₀.read s₀.target)
    (hwrote : Exact s₀.wrote s₀.target) (hrel : rel ≠ []) (hsource : source.get rel = some e)
    (hsig : s.read.get? rel = some (signature e)) :
    Copied source s₀ s fun q => done q ∨ q = rel := by
  by_cases hdone : done rel
  · refine ⟨fun q hq => h.same q (hq.elim id fun heq => heq ▸ hdone), fun q hq => ?_, h.top⟩
    exact h.rest q fun h' => hq (Or.inl h')
  · obtain ⟨h₁, h₂, h₃⟩ := h.rest rel hdone
    have hsame : (s.target.get rel).map content = some (content e) := by
      rw [h₁, hread.get rel hrel, ← h₂, hsig, consistent_get hfit hrel hsource]
      rfl
    have hwrote' : s.wrote.get? rel = (s.target.get rel).map signature := by
      rw [h₃, h₁, hwrote.get rel hrel]
    refine h.snoc hrel hsource hsame hwrote' (fun q _ => ⟨rfl, rfl⟩) fun q => ?_
    by_cases hq : q = rel
    · rw [if_pos hq, hq, hsig]
    · rw [if_neg hq]

/-- **What is read is copied**, where the kinds agree. -/
theorem copied_copy {s₀ : Sync} (hfit : consistent dataOf source = true)
    (hread : Describes dataOf s₀.read s₀.target) (hwrote : Exact s₀.wrote s₀.target)
    (hkinds : SameKinds source s₀.target) {done : Path → Prop} {l : List (Path × Signature)}
    (h : Copied source s₀ s done) (hnil : done []) (hl : Listed source done l) :
    ∃ s', copy W T source l s = (s', true) ∧
      Copied source s₀ s' fun q => done q ∨ q ∈ l.map Prod.fst := by
  induction l generalizing s done with
  | nil =>
    refine ⟨s, rfl, fun q hq => h.same q (hq.resolve_right List.not_mem_nil), fun q hq => ?_, h.top⟩
    exact h.rest q fun h' => hq (Or.inl h')
  | cons x l ih =>
    obtain ⟨rel, sig⟩ := x
    obtain ⟨⟨hparent, hnested⟩, hfound⟩ := hl
    obtain ⟨hrel, hsig⟩ := hfound _ List.mem_cons_self
    obtain ⟨e, hsource, rfl⟩ := Option.map_eq_some_iff.mp hsig
    have hrest : Listed source (fun q => done q ∨ q = rel) l :=
      ⟨hnested, fun x hx => hfound x (List.mem_cons_of_mem _ hx)⟩
    have hjoin : ∀ s', (Copied source s₀ s' fun q => (done q ∨ q = rel) ∨ q ∈ l.map Prod.fst) →
        Copied source s₀ s' fun q => done q ∨ q ∈ ((rel, signature e) :: l).map Prod.fst := by
      intro s' h'
      simpa only [List.map_cons, List.mem_cons, or_assoc] using h'
    rw [copy]
    by_cases hknown : s.read.get? rel = some (signature e)
    · rw [if_pos hknown]
      obtain ⟨s', hs', hcopied⟩ :=
        ih (h.skip hfit hread hwrote hrel hsource hknown) (Or.inl hnil) hrest
      exact ⟨s', hs', hjoin s' hcopied⟩
    · rw [if_neg hknown]
      obtain ⟨p, n, rfl⟩ : ∃ p n, rel = p ++ [n] :=
        ⟨_, _, (List.dropLast_concat_getLast hrel).symm⟩
      rw [List.dropLast_concat] at hparent
      have hdir : s.target.get p = some .dir := by
        by_cases hp : p = []
        · rw [hp, Tree.get_nil]
        · rw [← map_content_eq_dir, (h.same p hparent hp).1, Tree.get_parent hsource]
          rfl
      have hkind : s.target.get (p ++ [n]) ≠ none →
          (e = .dir ↔ s.target.get (p ++ [n]) = some .dir) := by
        intro hthere
        by_cases hdone : done (p ++ [n])
        · rw [← map_content_eq_dir, (h.same _ hdone hrel).1, hsource, map_content_eq_dir,
            Option.some.injEq]
        · rw [(h.rest _ hdone).1] at hthere ⊢
          rw [← hkinds _ (by rw [hsource]; exact nofun) hthere, hsource, Option.some.injEq]
      obtain ⟨s₁, hs₁, h₁, h₂, h₃, h₄⟩ :=
        copyEntry_new (W := W) (T := T) hsource hdir hkind
      rw [hs₁]
      obtain ⟨s', hs', hcopied⟩ := ih (h.snoc hrel hsource h₁ h₂ h₃ h₄) (Or.inl hnil) hrest
      exact ⟨s', hs', hjoin s' hcopied⟩

/-! ### What is removed -/

/-- How far the entries that are gone are removed: those left are there on the side written to
and not on the one read, and all others are as on the side that is read. -/
structure Cleared (source : Files) (l : List Path) (s : Sync) : Prop where
  left : ∀ p ∈ l, p ≠ [] ∧ source.get p = none ∧ s.target.get p ≠ none ∧
    (s.read.get? p = some .dir ↔ s.target.get p = some .dir)
  same : ∀ p, p ∉ l → p ≠ [] → (s.target.get p).map content = (source.get p).map content ∧
    s.read.get? p = (source.get p).map signature ∧
    s.wrote.get? p = (s.target.get p).map signature
  top : s.read.get? [] = none ∧ s.wrote.get? [] = none

lemma Copied.cleared {s₀ : Sync}
    (h : Copied source s₀ s fun q => q = [] ∨ q ∈ (files source).map Prod.fst)
    (hread : Describes dataOf s₀.read s₀.target) (hwrote : Exact s₀.wrote s₀.target) :
    Cleared source (deepestFirst s.read (files source)) s := by
  have hmem : ∀ p, p ∈ deepestFirst s.read (files source) ↔
      s.read.get? p ≠ none ∧ p ∉ (files source).map Prod.fst := by
    intro p
    rw [deepestFirst, List.mem_insertionSort, List.mem_filter, OMap.mem_keys_iff,
      decide_eq_true_eq, Option.ne_none_iff_exists']
  have htop : s.read.get? [] = none ∧ s.wrote.get? [] = none := by
    rw [h.top.1, h.top.2]
    exact ⟨hread.top, hwrote.top⟩
  have hsource : ∀ p, p ≠ [] → p ∉ (files source).map Prod.fst → source.get p = none :=
    fun p hp hno => by_contra fun hne => hno (mem_files_paths.mpr ⟨hp, hne⟩)
  refine ⟨fun p hp => ?_, fun p hp hne => ?_, htop⟩
  · obtain ⟨hthere, hno⟩ := (hmem p).mp hp
    have hne : p ≠ [] := fun h' => hthere (h' ▸ htop.1)
    obtain ⟨h₁, h₂, -⟩ := h.rest p (not_or.mpr ⟨hne, hno⟩)
    rw [h₂] at hthere
    rw [h₁, h₂]
    exact ⟨hne, hsource p hne hno, (hread.ne_none_iff hne).mp hthere, hread.dir_iff hne⟩
  · by_cases hlisted : p ∈ (files source).map Prod.fst
    · exact h.same p (Or.inr hlisted) hne
    · obtain ⟨h₁, h₂, h₃⟩ := h.rest p (not_or.mpr ⟨hne, hlisted⟩)
      have hgone : s.read.get? p = none := by_contra fun h' => hp ((hmem p).mpr ⟨h', hlisted⟩)
      have htarget : s.target.get p = none := by
        rw [h₁]
        exact by_contra fun h' => (hread.ne_none_iff hne).mpr h' (h₂ ▸ hgone)
      rw [hsource p hne hlisted, hgone, h₃, hwrote.get p hne, ← h₁, htarget]
      exact ⟨rfl, rfl, rfl⟩

/-- **What is gone is removed**, from the deepest up. -/
theorem cleared_removeAll {l : List Path} (h : Cleared source l s) (hnodup : l.Nodup)
    (hsorted : l.Pairwise Deeper) :
    Cleared source [] (removeAll W l s) := by
  induction l generalizing s with
  | nil => exact h
  | cons rel l ih =>
    obtain ⟨hrel, hnone, hthere, hkind⟩ := h.left rel List.mem_cons_self
    obtain ⟨hnot, hnodup⟩ := List.nodup_cons.mp hnodup
    obtain ⟨hdeepest, hsorted⟩ := List.pairwise_cons.mp hsorted
    obtain ⟨t, ht, hget⟩ : ∃ t,
        W.remove s.target rel (decide (s.read.get? rel = some .dir)) = some t ∧
          ∀ q, t.get q = if q = rel then none else s.target.get q := by
      cases hold : s.target.get rel with
      | none => exact absurd hold hthere
      | some e =>
        cases e with
        | file data time =>
          have hfile : ¬ s.read.get? rel = some .dir := fun h' => by
            rw [hkind, hold] at h'
            cases h'
          rw [decide_eq_false hfile]
          exact W.remove_file _ _ _ _ hold
        | dir =>
          rw [decide_eq_true (hkind.mpr hold)]
          refine W.remove_dir _ _ hrel hold fun n => by_contra fun hchild => ?_
          have hne : rel ++ [n] ≠ [] := by simp
          by_cases hl : rel ++ [n] ∈ l
          · have hle : (rel ++ [n]).length ≤ rel.length := hdeepest _ hl
            rw [List.length_append, List.length_singleton] at hle
            omega
          · have hself : rel ++ [n] ∉ rel :: l := by simpa using hl
            have hsame := (h.same _ hself hne).1
            have hsource : source.get (rel ++ [n]) ≠ none := fun h' => by
              rw [h', Option.map_none, map_content_eq_none] at hsame
              exact hchild hsame
            obtain ⟨e, he⟩ := Option.ne_none_iff_exists'.mp hsource
            rw [Tree.get_parent he] at hnone
            cases hnone
    rw [removeAll, ht]
    refine ih ⟨fun p hp => ?_, fun p hp hne => ?_, ?_⟩ hnodup hsorted
    · have hother : p ≠ rel := fun h' => hnot (h' ▸ hp)
      obtain ⟨h₁, h₂, h₃, h₄⟩ := h.left p (List.mem_cons_of_mem _ hp)
      simp only [hget, if_neg hother, OMap.get?_delete]
      exact ⟨h₁, h₂, h₃, h₄⟩
    · by_cases hself : p = rel
      · subst hself
        rw [hget, if_pos rfl, OMap.get?_delete, if_pos rfl, OMap.get?_delete, if_pos rfl, hnone]
        exact ⟨rfl, rfl, rfl⟩
      · simp only [hget, if_neg hself, OMap.get?_delete]
        exact h.same p (by simp [hself, hp]) hne
    · rw [OMap.get?_delete, if_neg (Ne.symm hrel), OMap.get?_delete, if_neg (Ne.symm hrel)]
      exact h.top

/-- **One direction**: the side written to becomes like the side read, and both are remembered,
where the kinds agree. -/
theorem mirror_same (hfit : consistent dataOf source = true)
    (hread : Describes dataOf s.read s.target) (hwrote : Exact s.wrote s.target)
    (hkinds : SameKinds source s.target) :
    ∃ s', mirror W T source s = (s', true) ∧ Same s'.target source ∧
      Exact s'.read source ∧ Exact s'.wrote s'.target := by
  obtain ⟨s₁, hs₁, hcopied⟩ := copied_copy (W := W) (T := T) hfit hread hwrote hkinds
    copied_refl rfl listed_files
  have hcleared := hcopied.cleared hread hwrote
  have hdone := cleared_removeAll (W := W) hcleared
    ((List.perm_insertionSort _ _).nodup_iff.mpr (s₁.read.keys_nodup.filter _))
    (List.pairwise_insertionSort _ _)
  refine ⟨_, by rw [mirror, hs₁], fun p => ?_, ?_, ?_⟩
  · by_cases hp : p = []
    · rw [hp, Tree.get_nil, Tree.get_nil]
    · exact (hdone.same p List.not_mem_nil hp).1
  · exact ⟨hdone.top.1, fun p hp => (hdone.same p List.not_mem_nil hp).2.1⟩
  · exact ⟨hdone.top.2, fun p hp => (hdone.same p List.not_mem_nil hp).2.2⟩

/-! ### What stays -/

/-- What is at a path stays there, a file or a directory as it was. -/
def Stays (p : Path) (t u : Files) : Prop :=
  t.get p ≠ none → u.get p ≠ none ∧ (u.get p = some .dir ↔ t.get p = some .dir)

lemma Stays.refl : Stays p t t := fun h => ⟨h, Iff.rfl⟩

lemma Stays.trans {v : Files} (h : Stays p t u) (h' : Stays p u v) : Stays p t v := fun ht =>
  ⟨(h' (h ht).1).1, (h' (h ht).1).2.trans (h ht).2⟩

lemma stays_mkdir (h : W.mkdir t rel = some u) : Stays p t u := by
  intro ht
  obtain ⟨e, he⟩ := Option.ne_none_iff_exists'.mp ht
  rw [W.mkdir_keeps _ _ _ _ _ h he, he]
  exact ⟨nofun, Iff.rfl⟩

variable (W T source s p) in
lemma stays_copyEntry (rel : Path) (sig : Signature) :
    Stays p s.target (copyEntry W T source rel sig s).1.target := by
  cases sig with
  | dir =>
    rw [copyEntry]
    cases h : W.mkdir s.target rel with
    | none => exact Stays.refl
    | some t => exact stays_mkdir h
  | file size time =>
    rw [copyEntry]
    cases source.get rel with
    | none => exact Stays.refl
    | some e =>
      cases e with
      | dir => exact Stays.refl
      | file data _ =>
        cases h : W.mkdir s.target rel.dropLast with
        | none => exact Stays.refl
        | some t =>
          cases h' : W.write t rel data (T rel) with
          | none =>
            simp only [h']
            exact stays_mkdir h
          | some t' =>
            simp only [h']
            exact (stays_mkdir h).trans fun ht => W.write_keeps _ _ _ _ _ _ h' ht

variable (W T source s p) in
lemma stays_copy (l : List (Path × Signature)) :
    Stays p s.target (copy W T source l s).1.target := by
  induction l generalizing s with
  | nil => exact Stays.refl
  | cons x l ih =>
    obtain ⟨rel, sig⟩ := x
    rw [copy]
    by_cases hknown : s.read.get? rel = some sig
    · rw [if_pos hknown]
      exact ih s
    · rw [if_neg hknown]
      have hentry := stays_copyEntry W T source s p rel sig
      cases h : copyEntry W T source rel sig s with
      | mk s' done =>
        rw [h] at hentry
        cases done with
        | true => exact hentry.trans (ih s')
        | false => exact hentry

lemma stays_removeAll {l : List Path} (hp : source.get p ≠ none)
    (hl : ∀ rel ∈ l, rel ≠ [] → source.get rel = none) :
    Stays p s.target (removeAll W l s).target := by
  induction l generalizing s with
  | nil => exact Stays.refl
  | cons rel l ih =>
    have hrest := fun r hr => hl r (List.mem_cons_of_mem rel hr)
    rw [removeAll]
    cases h : W.remove s.target rel (decide (s.read.get? rel = some .dir)) with
    | none =>
      exact ih (s := { s with read := s.read.delete rel, wrote := s.wrote.delete rel }) hrest
    | some t =>
      have hrel : rel ≠ [] := by
        rintro rfl
        rw [W.remove_top] at h
        cases h
      have hout : ¬ rel <+: p := by
        intro hpre
        obtain ⟨e, he⟩ := Option.ne_none_iff_exists'.mp hp
        have hnone := hl rel List.mem_cons_self hrel
        by_cases heq : rel = p
        · exact hp (heq ▸ hnone)
        · rw [Tree.get_above he hpre heq] at hnone
          cases hnone
      have hkeep : Stays p s.target t := fun ht => by
        rw [W.remove_keeps _ _ _ _ _ h hout]
        exact ⟨ht, Iff.rfl⟩
      exact hkeep.trans (ih (s := ⟨t, s.read.delete rel, s.wrote.delete rel, s.written,
        s.removed + 1⟩) hrest)

lemma stays_mirror (hp : source.get p ≠ none) :
    Stays p s.target (mirror W T source s).1.target := by
  have hcopy := stays_copy W T source s p (files source)
  rw [mirror]
  cases h : copy W T source (files source) s with
  | mk s' done =>
    rw [h] at hcopy
    cases done with
    | false => exact hcopy
    | true =>
      refine hcopy.trans (stays_removeAll hp fun rel hrel hne => ?_)
      rw [deepestFirst, List.mem_insertionSort, List.mem_filter, decide_eq_true_eq]
        at hrel
      exact by_contra fun h' => hrel.2 (mem_files_paths.mpr ⟨hne, h'⟩)

/-- **No direction changes a kind**: the sides can only be brought together where they agree. -/
theorem kinds_of_mirror (h : Same (mirror W T source s).1.target source) :
    SameKinds source s.target := by
  intro p hp ht
  rw [← (stays_mirror (W := W) (T := T) hp ht).2, ← map_content_eq_dir (o := source.get p),
    ← h p, map_content_eq_dir]

/-! ### Runs of a mirror -/

variable {hostData memData : Path → Signature → Data} {w w' : State} {a : Action}

/-- What is known of the two sides between any steps. -/
structure Inv (hostData memData : Path → Signature → Data) (w : State) : Prop where
  hostFits : consistent hostData w.disk = true
  memFits : consistent memData w.memfs = true
  host : w.phase ≠ .hostChanged → Exact w.host w.disk
  mem : w.phase ≠ .memChanged → Exact w.mem w.memfs
  hostOf : w.phase ≠ .memChanged → Describes hostData w.host w.memfs
  memOf : w.phase ≠ .hostChanged → Describes memData w.mem w.disk

/-- The sides are equal when they have been brought together. -/
def Together (w : State) : Prop := w.phase = .together → Same w.disk w.memfs

lemma inv_together (hhost : consistent hostData w.disk = true)
    (hmem : consistent memData w.memfs = true) (h : Exact w.host w.disk)
    (h' : Exact w.mem w.memfs) (hsame : Same w.disk w.memfs) : Inv hostData memData w :=
  ⟨hhost, hmem, fun _ => h, fun _ => h', fun _ => h.describes hhost hsame,
    fun _ => h'.describes hmem hsame.symm⟩

lemma push_spec (hw : Inv hostData memData w) (hphase : w.phase ≠ .memChanged)
    (hfits : consistent memData (pushToMemfs T w).1.memfs = true) :
    (SameKinds w.disk w.memfs ↔ Together (pushToMemfs T w).1) ∧
      (SameKinds w.disk w.memfs → Inv hostData memData (pushToMemfs T w).1) := by
  have hsame : SameKinds w.disk w.memfs → Same (pushToMemfs T w).1.disk
      (pushToMemfs T w).1.memfs ∧ Inv hostData memData (pushToMemfs T w).1 := by
    intro hkinds
    obtain ⟨s', hs', hsame, hread, hwrote⟩ := mirror_same (W := memfs) (T := T)
      (s := ⟨w.memfs, w.host, w.mem, 0, 0⟩) hw.hostFits (hw.hostOf hphase) (hw.mem hphase) hkinds
    rw [pushToMemfs, hs'] at hfits ⊢
    exact ⟨hsame.symm, inv_together hw.hostFits hfits hread hwrote hsame.symm⟩
  refine ⟨⟨fun h _ => (hsame h).1, fun h => ?_⟩, fun h => (hsame h).2⟩
  exact kinds_of_mirror (W := memfs) (T := T) (s := ⟨w.memfs, w.host, w.mem, 0, 0⟩)
    (h rfl).symm

lemma pull_spec (hw : Inv hostData memData w) (hphase : w.phase ≠ .hostChanged)
    (hfits : consistent hostData (pullToHost T w).1.disk = true) :
    (SameKinds w.disk w.memfs ↔ Together (pullToHost T w).1) ∧
      (SameKinds w.disk w.memfs → Inv hostData memData (pullToHost T w).1) := by
  have hsame : SameKinds w.disk w.memfs → Same (pullToHost T w).1.disk
      (pullToHost T w).1.memfs ∧ Inv hostData memData (pullToHost T w).1 := by
    intro hkinds
    obtain ⟨s', hs', hsame, hread, hwrote⟩ := mirror_same (W := node) (T := T)
      (s := ⟨w.disk, w.mem, w.host, 0, 0⟩) hw.memFits (hw.memOf hphase) (hw.host hphase)
      hkinds.symm
    rw [pullToHost, hs'] at hfits ⊢
    exact ⟨hsame, inv_together hfits hw.memFits hwrote hread hsame⟩
  refine ⟨⟨fun h _ => (hsame h).1, fun h => SameKinds.symm ?_⟩, fun h => (hsame h).2⟩
  exact kinds_of_mirror (W := node) (T := T) (s := ⟨w.disk, w.mem, w.host, 0, 0⟩) (h rfl)

/-- What a step does: it changes a side, where the other is as it was, or brings one to the
other. -/
lemma step_spec (hw : Inv hostData memData w)
    (h : step hostData memData w a = some w') :
    (KeepsKinds hostData memData w a ↔ Together w') ∧
      (KeepsKinds hostData memData w a → Inv hostData memData w') := by
  have hsome : (step hostData memData w a).isSome = true := by rw [h]; rfl
  cases a with
  | changeHost t =>
    rw [step] at h
    by_cases hguard : w.phase ≠ .memChanged ∧ consistent hostData t = true
    · rw [if_pos hguard] at h
      obtain rfl := Option.some.inj h
      obtain ⟨hphase, hfits⟩ := hguard
      exact ⟨iff_of_true (fun _ => trivial) nofun, fun _ => ⟨hfits, hw.memFits,
        fun h' => absurd rfl h', fun _ => hw.mem hphase, fun _ => hw.hostOf hphase,
        fun h' => absurd rfl h'⟩⟩
    · rw [if_neg hguard] at h
      cases h
  | changeMem t =>
    rw [step] at h
    by_cases hguard : w.phase ≠ .hostChanged ∧ consistent memData t = true
    · rw [if_pos hguard] at h
      obtain rfl := Option.some.inj h
      obtain ⟨hphase, hfits⟩ := hguard
      exact ⟨iff_of_true (fun _ => trivial) nofun, fun _ => ⟨hw.hostFits, hfits,
        fun _ => hw.host hphase, fun h' => absurd rfl h', fun h' => absurd rfl h',
        fun _ => hw.memOf hphase⟩⟩
    · rw [if_neg hguard] at h
      cases h
  | push mtime =>
    rw [KeepsKinds, imp_iff_right hsome]
    rw [step] at h
    by_cases hguard : w.phase ≠ .memChanged ∧
        consistent memData (pushToMemfs mtime w).1.memfs = true
    · rw [if_pos hguard] at h
      obtain rfl := Option.some.inj h
      exact push_spec hw hguard.1 hguard.2
    · rw [if_neg hguard] at h
      cases h
  | pull mtime =>
    rw [KeepsKinds, imp_iff_right hsome]
    rw [step] at h
    by_cases hguard : w.phase ≠ .hostChanged ∧
        consistent hostData (pullToHost mtime w).1.disk = true
    · rw [if_pos hguard] at h
      obtain rfl := Option.some.inj h
      exact pull_spec hw hguard.1 hguard.2
    · rw [if_neg hguard] at h
      cases h

lemma get?_ofList (f : Path → Signature) (l : List (Path × Signature))
    (hf : ∀ x ∈ l, x.2 = f x.1) :
    (OMap.ofList l).get? p = if p ∈ l.map Prod.fst then some (f p) else none := by
  induction l using List.reverseRecOn with
  | nil => rfl
  | append_singleton l x ih =>
    have hlast : (OMap.ofList (l ++ [x])).get? p =
        if p = x.1 then some x.2 else (OMap.ofList l).get? p := by
      rw [OMap.ofList, List.foldl_append, List.foldl_cons, List.foldl_nil, OMap.get?_set]
      rfl
    rw [hlast, ih fun y hy => hf y (List.mem_append_left _ hy)]
    by_cases hp : p = x.1
    · rw [if_pos hp, if_pos (by simp [hp]), hf x (by simp), hp]
    · rw [if_neg hp, List.map_append, List.map_singleton]
      simp only [List.mem_append, List.mem_singleton, hp, or_false]

lemma exact_files (t : Files) : Exact (.ofList (files t)) t := by
  have hf : ∀ x ∈ files t, x.2 = ((t.get x.1).map signature).getD .dir := by
    rintro ⟨p, sig⟩ hx
    rw [(mem_files.mp hx).2, Option.getD_some]
  refine ⟨?_, fun p hp => ?_⟩
  · rw [get?_ofList (fun p => ((t.get p).map signature).getD .dir) _ hf]
    exact if_neg fun h => (mem_files_paths.mp h).1 rfl
  · rw [get?_ofList (fun p => ((t.get p).map signature).getD .dir) _ hf]
    cases hget : t.get p with
    | none => exact if_neg fun h => (mem_files_paths.mp h).2 hget
    | some e =>
      rw [if_pos (mem_files_paths.mpr ⟨hp, by rw [hget]; exact nofun⟩)]
      rfl

/-- A tree with one file. -/
def sampleFiles : Files := (Tree.writeFile .empty ["board.kicad_pcb"] [0] 0).getD .empty

/-- A directory of the same name. -/
def sampleDirs : Files := (Tree.mkdir .empty ["board.kicad_pcb"]).getD .empty

def sampleMounted : Mounted (fun _ _ => [0]) (fun _ _ => [0]) where
  disk := sampleFiles
  memfs := sampleFiles
  same _ := rfl
  hostFits := by decide
  memFits := by decide

end FabPcb.DirMirror
