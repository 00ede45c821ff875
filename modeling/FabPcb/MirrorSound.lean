import FabPcb.DocumentMirror

/-!
What a known revision says about the store.

`known[kind]` is written by handlers that re-read items and by handlers that do not, before a
re-read and after one that failed. As long as no handler passes over a foreign change that the
store has not got, every foreign change up to the known revision is in the store, or a poll is
about to bring it.
-/

namespace FabPcb.MirrorSound

open OrderedMap Runs DocumentMirror

variable {ι : Type*}

/-! ### The invariant -/

/-- The store holds the items of a change as the change left them, or newer. -/
def Holds (d : Doc ι) (c : Change ι) : Prop := ∀ id ∈ c.ids, c.revision ≤ d.held id

/-- A change that counts as known. -/
def Counts (d : Doc ι) (c : Change ι) : Prop :=
  c ∈ d.changes ∧ c.own = false ∧ ∃ r, d.known = some r ∧ c.revision ≤ r

/-- What is remembered of a document lies in its past. -/
structure DocOk (d : Doc ι) : Prop where
  known : ∃ r, d.known = some r ∧ r ≤ d.rev
  changes : ∀ c ∈ d.changes, c.revision ≤ d.rev
  held : ∀ id, d.held id ≤ d.served

/-- An event announces what has happened. -/
def Past (docs : Kind → Doc ι) : Event ι → Prop
  | .changed kind c => c.revision ≤ (docs kind).rev
  | .saved kind r => r ≤ (docs kind).rev

def Announced (s : State ι) (e : Event ι) : Prop := e ∈ s.wire ∨ .event e ∈ s.eventQueue

/-- A request is served after what it is made for. -/
def Fits (docs : Kind → Doc ι) : Pc ι → Prop
  | .reading kind (.event c) _ at? =>
    c.revision ≤ (docs kind).rev ∧ ∀ m, at? = some m → c.revision ≤ m
  | .reading kind (.poll r _) target at? =>
    target = none ∧ r ≤ (docs kind).rev ∧ ∀ m, at? = some m → r ≤ m
  | .reading _ _ _ _ => True
  | .asking kind _ at? => ∀ m, at? = some m → m ≤ (docs kind).rev
  | .writing _ _ => True

/-- A poll under way will bring a change. -/
def Owes (pc : Pc ι) (kind : Kind) (c : Change ι) : Prop :=
  match pc with
  | .reading kind' (.poll r _) _ _ => kind' = kind ∧ c.revision ≤ r
  | _ => False

/-- **Every foreign change that counts as known is in the store, or a poll will bring it.** -/
structure Mirrored (s : State ι) : Prop where
  docs : ∀ kind, DocOk (s.docs kind)
  past : ∀ e, Announced s e → Past s.docs e
  procs : ∀ n pc, s.procs.get? n = some pc → Fits s.docs pc
  seen : ∀ kind c, Counts (s.docs kind) c →
    Holds (s.docs kind) c ∨ ∃ n pc, s.procs.get? n = some pc ∧ Owes pc kind c

variable {s s' : State ι} {d : Doc ι} {kind : Kind} {c : Change ι} {target : Option (List ι)}

/-! ### Steps of a document -/

lemma unserved {p : ℕ → Prop} : ∀ m, (none : Option ℕ) = some m → p m := by
  intro m hm
  cases hm

lemma Past.mono {docs docs' : Kind → Doc ι} (h : ∀ kind, (docs kind).rev ≤ (docs' kind).rev)
    {e : Event ι} (he : Past docs e) : Past docs' e := by
  cases e with
  | changed kind c => exact Nat.le_trans he (h kind)
  | saved kind r => exact Nat.le_trans he (h kind)

lemma Fits.mono {docs docs' : Kind → Doc ι} (h : ∀ kind, (docs kind).rev ≤ (docs' kind).rev)
    {pc : Pc ι} (hpc : Fits docs pc) : Fits docs' pc := by
  cases pc with
  | reading kind why target at? =>
    cases why with
    | event c => exact ⟨Nat.le_trans hpc.1 (h kind), hpc.2⟩
    | document => trivial
    | poll r rest => exact ⟨hpc.1, Nat.le_trans hpc.2.1 (h kind), hpc.2.2⟩
    | own => trivial
  | asking kind why at? => exact fun m hm => Nat.le_trans (hpc m hm) (h kind)
  | writing kind done => trivial

lemma Mirrored.congr (h : Mirrored s) (hdocs : s'.docs = s.docs) (hprocs : s'.procs = s.procs)
    (hann : ∀ e, Announced s' e → Announced s e) : Mirrored s' where
  docs := by
    rw [hdocs]
    exact h.docs
  past := fun e he => hdocs ▸ h.past e (hann e he)
  procs := by
    rw [hdocs, hprocs]
    exact h.procs
  seen := by
    rw [hdocs, hprocs]
    exact h.seen

/-- **A document changes**, and what counts as known of it is in the store or owed. -/
lemma Mirrored.modify (h : Mirrored s) {f : Doc ι → Doc ι} (hok : DocOk (f (s.docs kind)))
    (hrev : (s.docs kind).rev ≤ (f (s.docs kind)).rev)
    (hseen : ∀ c, Counts (f (s.docs kind)) c → Holds (f (s.docs kind)) c ∨
      ∃ n pc, s.procs.get? n = some pc ∧ Owes pc kind c) :
    Mirrored (s.modify kind f) := by
  have hmono : ∀ k, (s.docs k).rev ≤ ((s.modify kind f).docs k).rev := by
    intro k
    by_cases hk : k = kind
    · subst hk
      rwa [State.docs_modify_self]
    · exact Nat.le_of_eq (by rw [State.docs_modify_of_ne s hk])
  refine ⟨fun k => ?_, fun e he => (h.past e he).mono hmono,
    fun n pc hpc => (h.procs n pc hpc).mono hmono, fun k c hc => ?_⟩
  · by_cases hk : k = kind
    · subst hk
      rwa [State.docs_modify_self]
    · rw [State.docs_modify_of_ne s hk]
      exact h.docs k
  · by_cases hk : k = kind
    · subst hk
      rw [State.docs_modify_self] at hc ⊢
      exact hseen c hc
    · rw [State.docs_modify_of_ne s hk] at hc ⊢
      exact h.seen k c hc

lemma Mirrored.modify_same (h : Mirrored s) {f : Doc ι → Doc ι}
    (hrev : (f (s.docs kind)).rev = (s.docs kind).rev)
    (hchanges : (f (s.docs kind)).changes = (s.docs kind).changes)
    (hheld : (f (s.docs kind)).held = (s.docs kind).held)
    (hserved : (f (s.docs kind)).served = (s.docs kind).served)
    (hknown : (f (s.docs kind)).known = (s.docs kind).known) :
    Mirrored (s.modify kind f) := by
  have hok := h.docs kind
  refine h.modify ⟨?_, ?_, ?_⟩ (Nat.le_of_eq hrev.symm) fun c hc => ?_
  · rw [hknown, hrev]
    exact hok.known
  · rw [hchanges, hrev]
    exact hok.changes
  · rw [hheld, hserved]
    exact hok.held
  · rw [Holds, hheld]
    rw [Counts, hchanges, hknown] at hc
    exact h.seen kind c hc

/-! ### Steps of a process -/

/-- Nothing that counts as known waits for a process only. -/
def Released (s : State ι) (n : ℕ) : Prop :=
  ∀ kind c pc, s.procs.get? n = some pc → Owes pc kind c → Counts (s.docs kind) c →
    Holds (s.docs kind) c

lemma released_of_get? {n : ℕ} {pc : Pc ι} (h : s.procs.get? n = some pc)
    (hpc : ∀ kind c, ¬ Owes pc kind c) : Released s n := by
  intro kind c pc' hpc' howes
  obtain rfl := Option.some.inj (h.symm.trans hpc')
  exact absurd howes (hpc kind c)

lemma released_of_fresh {n : ℕ} (h : s.procs.get? n = none) : Released s n := by
  intro kind c pc hpc
  rw [h] at hpc
  cases hpc

/-- **A process goes on**, owing what it did unless it is in the store. -/
lemma Mirrored.move (h : Mirrored s) {n : ℕ} {pc : Pc ι} (hfits : Fits s.docs pc)
    (howes : ∀ kind c pc', s.procs.get? n = some pc' → Owes pc' kind c →
      Counts (s.docs kind) c → Holds (s.docs kind) c ∨ Owes pc kind c) :
    Mirrored (s.goto n pc) where
  docs := h.docs
  past := h.past
  procs := by
    intro m pc' hpc'
    simp only [State.goto, OMap.get?_set] at hpc'
    split_ifs at hpc'
    · exact Option.some.inj hpc' ▸ hfits
    · exact h.procs m pc' hpc'
  seen := by
    intro kind c hc
    rcases h.seen kind c hc with hholds | ⟨m, pc', hpc', hold⟩
    · exact Or.inl hholds
    · by_cases hm : m = n
      · subst hm
        rcases howes kind c pc' hpc' hold hc with hholds | hnew
        · exact Or.inl hholds
        · exact Or.inr ⟨m, pc, by simp [State.goto], hnew⟩
      · exact Or.inr ⟨m, pc', by simpa [State.goto, hm] using hpc', hold⟩

lemma Mirrored.goto (h : Mirrored s) {n : ℕ} {pc : Pc ι} (hfits : Fits s.docs pc)
    (hrel : Released s n) : Mirrored (s.goto n pc) :=
  h.move hfits fun kind c pc' hpc' hold hc => Or.inl (hrel kind c pc' hpc' hold hc)

lemma released_of_has {n : ℕ} (h : ¬ s.procs.has n = true) : Released s n :=
  released_of_fresh (OMap.has_eq_false_iff.mp (by simpa using h))

lemma Mirrored.leave (h : Mirrored s) {n : ℕ} (hrel : Released s n) : Mirrored (s.leave n) where
  docs := h.docs
  past := h.past
  procs := by
    intro m pc hpc
    simp only [State.leave, OMap.get?_delete] at hpc
    split_ifs at hpc
    exact h.procs m pc hpc
  seen := by
    intro kind c hc
    rcases h.seen kind c hc with hholds | ⟨m, pc, hpc, howes⟩
    · exact Or.inl hholds
    · by_cases hm : m = n
      · subst hm
        exact Or.inl (hrel kind c pc hpc howes hc)
      · exact Or.inr ⟨m, pc, by simpa [State.leave, hm] using hpc, howes⟩

/-- **A poll finds a revision** and sets out to bring what it stands for. -/
lemma Mirrored.found (h : Mirrored s) {n m : ℕ} {rest : List Kind} (hrel : Released s n)
    (hm : m ≤ (s.docs kind).rev) :
    Mirrored ((s.modify kind fun d => { d with known := some m }).goto n
      (.reading kind (.poll m rest) none none)) := by
  have hrev : ∀ k, ((s.modify kind fun d => { d with known := some m }).docs k).rev =
      (s.docs k).rev := by
    intro k
    by_cases hk : k = kind
    · subst hk
      rw [State.docs_modify_self]
    · rw [State.docs_modify_of_ne s hk]
  have hmono : ∀ k, (s.docs k).rev ≤
      ((s.modify kind fun d => { d with known := some m }).docs k).rev :=
    fun k => Nat.le_of_eq (hrev k).symm
  refine ⟨fun k => ?_, fun e he => (h.past e he).mono hmono, fun q pc hpc => ?_,
    fun k c hc => ?_⟩
  · change DocOk ((s.modify kind fun d => { d with known := some m }).docs k)
    by_cases hk : k = kind
    · subst hk
      rw [State.docs_modify_self]
      exact ⟨⟨m, rfl, hm⟩, (h.docs k).changes, (h.docs k).held⟩
    · rw [State.docs_modify_of_ne s hk]
      exact h.docs k
  · simp only [State.goto, OMap.get?_set] at hpc
    split_ifs at hpc
    · obtain rfl := Option.some.inj hpc
      exact ⟨rfl, (hrev kind).symm ▸ hm, unserved⟩
    · exact (h.procs q pc hpc).mono hmono
  · have hnew : ((s.modify kind fun d => { d with known := some m }).goto n
        (.reading kind (.poll m rest) none none)).procs.get? n =
        some (.reading kind (.poll m rest) none none) := by
      simp [State.goto]
    change Counts ((s.modify kind fun d => { d with known := some m }).docs k) c at hc
    change Holds ((s.modify kind fun d => { d with known := some m }).docs k) c ∨ _
    by_cases hk : k = kind
    · subst hk
      rw [State.docs_modify_self] at hc
      obtain ⟨-, -, r, hr, hle⟩ := hc
      obtain rfl := Option.some.inj hr
      exact Or.inr ⟨n, _, hnew, rfl, hle⟩
    · rw [State.docs_modify_of_ne s hk] at hc ⊢
      rcases h.seen k c hc with hholds | ⟨q, pc, hpc, howes⟩
      · exact Or.inl hholds
      · by_cases hq : q = n
        · subst hq
          exact Or.inl (hrel k c pc hpc howes hc)
        · exact Or.inr ⟨q, pc, by simpa [State.goto, State.modify, hq] using hpc, howes⟩

/-! ### Passing over changes -/

variable [DecidableEq ι]

/-- A change touches an item whose version in the store is older, and a re-read of `target`
does not bring it. -/
def misses (d : Doc ι) (target : Option (List ι)) (c : Change ι) : Bool :=
  c.ids.any fun id => d.held id < c.revision && !covers target id

/-- A foreign change after the known revision and up to `r` would be passed over. -/
def passes (d : Doc ι) (target : Option (List ι)) (r : ℕ) : Bool :=
  d.changes.any fun c =>
    !c.own && d.known.all (· < c.revision) && c.revision ≤ r && misses d target c

/-- A foreign change that counts as known and that a poll was to bring is missing. -/
def owes (d : Doc ι) (r : ℕ) : Bool :=
  d.changes.any fun c =>
    !c.own && d.known.any (c.revision ≤ ·) && c.revision ≤ r && misses d (some []) c

/-- The steps that pass over a foreign change. -/
def passesOver (s : State ι) : Action ι → Bool
  | .begin _ =>
    match s.eventQueue.head? with
    | some (.event (.saved kind r)) => passes (s.docs kind) (some []) r
    | some (.event (.changed kind c)) => c.own && passes (s.docs kind) (some []) c.revision
    | _ => false
  | .answer n =>
    match s.procs.get? n with
    | some (.reading kind (.event c) target _) => passes (s.docs kind) target c.revision
    | some (.asking kind .commit (some m)) => passes (s.docs kind) (some []) m
    | some (.asking kind .save (some m)) => passes (s.docs kind) (some []) m
    | _ => false
  | .fail n =>
    match s.procs.get? n with
    | some (.reading kind (.event c) _ _) => passes (s.docs kind) (some []) c.revision
    | some (.reading kind (.poll r _) _ _) => owes (s.docs kind) r
    | _ => false
  | _ => false

lemma misses_eq_false_iff : misses d target c = false ↔
    ∀ id ∈ c.ids, c.revision ≤ d.held id ∨ covers target id = true := by
  simp only [misses, List.any_eq_false, Bool.and_eq_true, decide_eq_true_eq, not_and,
    Bool.not_eq_true, Bool.not_eq_false']
  refine forall₂_congr fun id _ => ⟨fun h => ?_, fun h hlt => ?_⟩
  · rcases Nat.lt_or_ge (d.held id) c.revision with hlt | hge
    · exact Or.inr (h hlt)
    · exact Or.inl hge
  · rcases h with hge | hcovers
    · omega
    · exact hcovers

lemma holds_iff : Holds d c ↔ misses d (some []) c = false := by
  rw [misses_eq_false_iff]
  simp [Holds, covers]

lemma not_misses_of_passes {r : ℕ} (h : passes d target r = false) (hc : c ∈ d.changes)
    (hown : c.own = false) (hknown : ∀ k, d.known = some k → k < c.revision)
    (hr : c.revision ≤ r) : misses d target c = false := by
  have hall : d.known.all (· < c.revision) = true := by
    cases hk : d.known with
    | none => rfl
    | some k => simpa using hknown k hk
  have hc' := List.any_eq_false.mp h c hc
  simpa [hown, hall, hr] using hc'

/-! ### Revisions and items -/

/-- **A revision is taken over** that passes over nothing. -/
lemma Mirrored.note (h : Mirrored s) {f : Doc ι → Doc ι} {r : ℕ}
    (hrev : (f (s.docs kind)).rev = (s.docs kind).rev)
    (hchanges : (f (s.docs kind)).changes = (s.docs kind).changes)
    (hheld : (f (s.docs kind)).held = (s.docs kind).held)
    (hserved : (f (s.docs kind)).served = (s.docs kind).served)
    (hknown : (f (s.docs kind)).known = some r) (hr : r ≤ (s.docs kind).rev)
    (hpass : passes (s.docs kind) (some []) r = false) : Mirrored (s.modify kind f) := by
  have hok := h.docs kind
  refine h.modify ⟨⟨r, hknown, hrev ▸ hr⟩, ?_, ?_⟩ (Nat.le_of_eq hrev.symm) fun c hc => ?_
  · rw [hchanges, hrev]
    exact hok.changes
  · rw [hheld, hserved]
    exact hok.held
  · obtain ⟨hmem, hown, r', hr', hle⟩ := hc
    rw [hchanges] at hmem
    obtain rfl := Option.some.inj (hknown.symm.trans hr')
    rw [Holds, hheld]
    -- known before, or among what the new revision would pass over
    obtain ⟨k, hk, -⟩ := hok.known
    rcases Nat.lt_or_ge k c.revision with hlt | hge
    · refine Or.inl (holds_iff.mpr (not_misses_of_passes hpass hmem hown ?_ hle))
      intro k' hk'
      obtain rfl := Option.some.inj (hk.symm.trans hk')
      exact hlt
    · exact h.seen kind c ⟨hmem, hown, k, hk, hge⟩

lemma held_read (hok : DocOk d) {m : ℕ} (hm : d.served ≤ m) (id : ι) :
    d.held id ≤ (d.read target m).held id := by
  simp only [Doc.read]
  split_ifs
  · exact Nat.le_trans (hok.held id) hm
  · exact Nat.le_refl _

/-- **Items are re-read.** -/
lemma Mirrored.read (h : Mirrored s) {m : ℕ} (hm : (s.docs kind).served ≤ m) :
    Mirrored (s.modify kind fun d => d.read target m) := by
  have hok := h.docs kind
  refine h.modify ⟨hok.known, hok.changes, fun id => ?_⟩ (Nat.le_refl _) fun c hc => ?_
  · simp only [Doc.read]
    split_ifs
    · exact Nat.le_refl m
    · exact Nat.le_trans (hok.held id) hm
  · rcases h.seen kind c hc with hholds | howes
    · exact Or.inl fun id hid => Nat.le_trans (hholds id hid) (held_read hok hm id)
    · exact Or.inr howes

/-! ### Handlers -/

omit [DecidableEq ι] in
lemma Mirrored.of_eq (h : Mirrored s) (hdocs : s'.docs = s.docs) (hprocs : s'.procs = s.procs)
    (hwire : s'.wire = s.wire) (hqueue : s'.eventQueue = s.eventQueue) : Mirrored s' := by
  refine h.congr hdocs hprocs fun e he => ?_
  unfold Announced at he ⊢
  rwa [hwire, hqueue] at he

omit [DecidableEq ι] in
lemma Mirrored.beginActivity (h : Mirrored s) : Mirrored s.beginActivity :=
  h.of_eq rfl rfl rfl rfl

omit [DecidableEq ι] in
lemma Mirrored.endActivity (h : Mirrored s) : Mirrored s.endActivity := h.of_eq rfl rfl rfl rfl

omit [DecidableEq ι] in
lemma Mirrored.pollNext (h : Mirrored s) {n : ℕ} (hrel : Released s n) (kinds : List Kind) :
    Mirrored (s.pollNext n kinds) := by
  cases kinds with
  | nil => exact (h.leave hrel).of_eq rfl rfl rfl rfl
  | cons kind rest => exact h.goto unserved hrel

omit [DecidableEq ι] in
lemma Mirrored.poll (h : Mirrored s) {n : ℕ} (hn : s.procs.get? n = none) (force : Bool) :
    Mirrored (s.poll n force) := by
  unfold State.poll
  split_ifs
  · exact h
  · exact h
  · have hpolling : Mirrored { s with polling := true } := h.of_eq rfl rfl rfl rfl
    exact hpolling.pollNext (released_of_fresh hn) _

lemma passes_read {m r : ℕ} (hok : DocOk d) (hm : d.served ≤ m) (hr : r ≤ m)
    (h : passes d target r = false) : passes (d.read target m) (some []) r = false := by
  refine List.any_eq_false.mpr fun c hc => ?_
  have hc' := List.any_eq_false.mp h c hc
  simp only [Bool.and_eq_true, not_and, Bool.not_eq_true, Bool.not_eq_true',
    decide_eq_true_eq] at hc' ⊢
  intro hpass
  have hmiss := hc' hpass
  rw [← holds_iff]
  intro id hid
  rcases misses_eq_false_iff.mp hmiss id hid with hheld | hcovers
  · exact Nat.le_trans hheld (held_read hok hm id)
  · simp only [Doc.read, hcovers, if_true]
    exact Nat.le_trans hpass.2 hr

omit [DecidableEq ι] in
lemma Mirrored.announce (h : Mirrored s) {e : Event ι} (he : Past s.docs e) :
    Mirrored { s with wire := s.wire ++ [e] } where
  docs := h.docs
  procs := h.procs
  seen := h.seen
  past := by
    rintro e' (hwire | hqueue)
    · rcases List.mem_append.mp hwire with hold | hnew
      · exact h.past e' (Or.inl hold)
      · rwa [List.mem_singleton.mp hnew]
    · exact h.past e' (Or.inr hqueue)

omit [DecidableEq ι] in
lemma Mirrored.change (h : Mirrored s) (hc : (s.docs kind).rev < c.revision) :
    Mirrored (s.change kind c) := by
  have hok := h.docs kind
  obtain ⟨k, hk, hle⟩ := hok.known
  have hmod : Mirrored (s.modify kind fun d =>
      { d with rev := c.revision, changes := d.changes ++ [c] }) := by
    refine h.modify ⟨⟨k, hk, ?_⟩, fun c' hc' => ?_, hok.held⟩ (Nat.le_of_lt hc) fun c' hc' => ?_
    · dsimp only
      omega
    · rcases List.mem_append.mp hc' with hold | hnew
      · have := hok.changes c' hold
        dsimp only
        omega
      · exact Nat.le_of_eq (congrArg Change.revision (List.mem_singleton.mp hnew))
    · obtain ⟨hmem, hown, r, hr, hle'⟩ := hc'
      rcases List.mem_append.mp hmem with hold | hnew
      · exact h.seen kind c' ⟨hold, hown, r, hr, hle'⟩
      · rw [List.mem_singleton.mp hnew] at hle'
        obtain rfl := Option.some.inj (hk.symm.trans hr)
        omega
  refine hmod.announce ?_
  simp [Past]

omit [DecidableEq ι] in
lemma Mirrored.write (h : Mirrored s) (kind : Kind) : Mirrored (s.write kind) := by
  have hmod : Mirrored (s.modify kind fun d => { d with disk := d.rev }) :=
    h.modify_same rfl rfl rfl rfl rfl
  refine hmod.announce ?_
  simp [Past]

/-- **Step, a job of the queue.** -/
lemma mirrored_begin (h : Mirrored s) {n : ℕ} {job : Job ι} {eventQueue : List (Job ι)}
    (hqueue : s.eventQueue = job :: eventQueue) (hn : s.procs.get? n = none)
    (hok : passesOver s (.begin n) = false) : Mirrored ({ s with eventQueue }.begin n job) := by
  have hrest : Mirrored { s with eventQueue } := by
    refine h.congr rfl rfl fun e he => he.imp_right fun hmem => ?_
    rw [hqueue]
    exact List.mem_cons_of_mem _ hmem
  simp only [passesOver, hqueue, List.head?_cons] at hok
  cases job with
  | poll => exact (hrest.poll hn true).of_eq rfl rfl rfl rfl
  | event e =>
    have hpast : Past s.docs e := h.past e (Or.inr (by simp [hqueue]))
    cases e with
    | saved kind r =>
      exact hrest.note (f := fun d => d.noteSaved r) rfl rfl rfl rfl rfl hpast hok
    | changed kind c =>
      simp only [State.begin]
      by_cases hown : c.own = true
      · rw [if_pos hown]
        refine hrest.note (f := fun d => d.noteChanged c.revision) rfl rfl rfl rfl rfl hpast ?_
        simpa [hown] using hok
      · rw [if_neg hown]
        have hfits : Fits s.docs
            (.reading kind (.event c) (if c.listed then some c.ids else none) none) :=
          ⟨hpast, unserved⟩
        exact (hrest.beginActivity.goto hfits (released_of_fresh hn)).of_eq rfl rfl rfl rfl

omit [DecidableEq ι] in
/-- **Step, a request is served.** -/
lemma mirrored_serve (h : Mirrored s) {n : ℕ} {pc : Pc ι} (hpc : s.procs.get? n = some pc)
    (hserve : s.serve n pc = some s') : Mirrored s' := by
  have hfits := h.procs n pc hpc
  have howes : ∀ {pc' : Pc ι}, (∀ kind c, Owes pc kind c → Owes pc' kind c) →
      ∀ kind c pc'', s.procs.get? n = some pc'' → Owes pc'' kind c → Counts (s.docs kind) c →
        Holds (s.docs kind) c ∨ Owes pc' kind c := by
    intro pc' hsame kind c pc'' hpc'' hold _
    obtain rfl := Option.some.inj (hpc.symm.trans hpc'')
    exact Or.inr (hsame kind c hold)
  unfold State.serve at hserve
  split at hserve
  case h_1 kind why target =>
    cases hserve
    refine h.move ?_ (howes fun kind' c hold => ?_)
    · cases why with
      | event c => exact ⟨hfits.1, fun m hm => Option.some.inj hm ▸ hfits.1⟩
      | document => trivial
      | poll r rest => exact ⟨hfits.1, hfits.2.1, fun m hm => Option.some.inj hm ▸ hfits.2.1⟩
      | own => trivial
    · cases why <;> exact hold
  case h_2 kind why =>
    cases hserve
    exact h.move (fun m hm => Option.some.inj hm ▸ Nat.le_refl _)
      (howes fun kind' c hold => hold.elim)
  case h_3 kind =>
    cases hserve
    exact (h.write kind).goto trivial (released_of_get? hpc fun _ _ hno => hno)
  case h_4 => cases hserve

/-- **Step, an answer comes.** -/
lemma mirrored_answer (h : Mirrored s) {n : ℕ} {pc : Pc ι} (hpc : s.procs.get? n = some pc)
    (hok : passesOver s (.answer n) = false) (hanswer : s.answer n pc = some s') :
    Mirrored s' := by
  have hfits := h.procs n pc hpc
  simp only [passesOver, hpc] at hok
  unfold State.answer at hanswer
  split at hanswer
  case h_1 kind why target m =>
    split_ifs at hanswer with hm
    cases hanswer
    have hread : Mirrored (s.modify kind fun d => d.read target m) := h.read hm
    cases why with
    | event c =>
      refine (hread.endActivity.note (f := fun d => d.noteChanged c.revision) (r := c.revision)
        rfl rfl rfl rfl rfl ?_ ?_).leave (released_of_get? hpc fun _ _ hno => hno)
      · simpa [State.endActivity, Doc.read] using hfits.1
      · simpa [State.endActivity] using
          passes_read (h.docs kind) hm (hfits.2 m rfl) hok
    | document =>
      exact hread.endActivity.goto unserved (released_of_get? hpc fun _ _ hno => hno)
    | poll r rest =>
      obtain ⟨rfl, -, hr⟩ := hfits
      have hnoted : Mirrored ((s.modify kind fun d => d.read none m).modify kind
          fun d => d.notePoll r) := hread.modify_same rfl rfl rfl rfl rfl
      -- the re-read of the whole document brings all that the poll owes
      refine hnoted.pollNext ?_ rest
      intro kind' c pc' hpc' howes _
      obtain rfl := Option.some.inj (hpc.symm.trans hpc')
      obtain ⟨rfl, hc⟩ := howes
      intro id _
      simpa [Doc.notePoll, Doc.read, covers] using Nat.le_trans hc (hr m rfl)
    | own => exact hread.leave (released_of_get? hpc fun _ _ hno => hno)
  case h_2 kind why m =>
    cases hanswer
    have hm : m ≤ (s.docs kind).rev := hfits m rfl
    have hrel : Released s n := released_of_get? hpc fun _ _ hno => hno
    cases why with
    | commit =>
      exact (h.note (f := fun d => d.noteCommit (some m)) rfl rfl rfl rfl rfl hm hok).leave
        (released_of_get? hpc fun _ _ hno => hno)
    | save =>
      have hsaved := h.note (f := fun d => d.noteSaved m) rfl rfl rfl rfl rfl hm hok
      exact hsaved.endActivity.leave (released_of_get? hpc fun _ _ hno => hno)
    | poll rest =>
      obtain ⟨k, hk, -⟩ := (h.docs kind).known
      simp only [State.afterAsk, hk]
      split_ifs
      · exact h.pollNext hrel rest
      · exact h.found hrel hm
  case h_3 kind =>
    cases hanswer
    exact h.goto unserved (released_of_get? hpc fun _ _ hno => hno)
  case h_4 => cases hanswer

/-- **Step, a request fails.** -/
lemma mirrored_fail (h : Mirrored s) {n : ℕ} {pc : Pc ι} (hpc : s.procs.get? n = some pc)
    (hok : passesOver s (.fail n) = false) : Mirrored (s.fail n pc) := by
  have hfits := h.procs n pc hpc
  simp only [passesOver, hpc] at hok
  cases pc with
  | reading kind why target at? =>
    cases why with
    | event c =>
      exact (h.endActivity.note (f := fun d => d.noteChanged c.revision) rfl rfl rfl rfl rfl hfits.1
        hok).leave (released_of_get? hpc fun _ _ hno => hno)
    | document =>
      exact h.endActivity.goto unserved (released_of_get? hpc fun _ _ hno => hno)
    | poll r rest =>
      refine (h.leave ?_).of_eq rfl rfl rfl rfl
      rintro kind' c pc' hpc' howes ⟨hmem, hown, k, hk, hle⟩
      obtain rfl := Option.some.inj (hpc.symm.trans hpc')
      obtain ⟨rfl, hc⟩ := howes
      have hmiss := List.any_eq_false.mp hok c hmem
      exact holds_iff.mpr (by simpa [hown, hk, hle, hc] using hmiss)
    | own => exact h.leave (released_of_get? hpc fun _ _ hno => hno)
  | asking kind why at? =>
    have hrel : Released s n := released_of_get? hpc fun _ _ hno => hno
    cases why with
    | commit =>
      exact (h.modify_same (f := fun d => d.noteCommit none) rfl rfl rfl rfl rfl).leave
        (released_of_get? hpc fun _ _ hno => hno)
    | save => exact h.endActivity.leave (released_of_get? hpc fun _ _ hno => hno)
    | poll rest => exact (h.leave hrel).of_eq rfl rfl rfl rfl
  | writing kind done =>
    exact h.endActivity.leave (released_of_get? hpc fun _ _ hno => hno)

/-- **Step.** What passes over no foreign change keeps the mirror. -/
lemma mirrored_step {a : Action ι} (h : Mirrored s) (hok : passesOver s a = false)
    (hstep : step s a = some s') : Mirrored s' := by
  cases a with
  | change kind c =>
    simp only [step] at hstep
    split_ifs at hstep with hc
    cases hstep
    exact h.change hc
  | write kind =>
    cases hstep
    exact h.write kind
  | deliver =>
    simp only [step] at hstep
    split at hstep
    · cases hstep
    · rename_i e wire hwire
      cases hstep
      refine h.congr rfl rfl ?_
      rintro e' (hmem | hmem)
      · exact Or.inl (hwire ▸ List.mem_cons_of_mem _ hmem)
      · rcases List.mem_append.mp hmem with hold | hnew
        · exact Or.inr hold
        · refine Or.inl ?_
          split_ifs at hnew <;> simp_all
  | lose =>
    simp only [step] at hstep
    split at hstep
    · cases hstep
    · rename_i e wire hwire
      cases hstep
      refine h.congr rfl rfl fun e' he' => he'.imp_left fun hmem => ?_
      rw [hwire]
      exact List.mem_cons_of_mem _ hmem
  | connect live =>
    cases hstep
    refine h.congr rfl rfl fun e' he' => he'.imp_right fun hmem => ?_
    cases live <;> simpa [State.connect] using hmem
  | touch kind =>
    cases hstep
    exact h.modify_same rfl rfl rfl rfl rfl
  | activity begins =>
    cases hstep
    cases begins <;> exact h.of_eq rfl rfl rfl rfl
  | begin n =>
    simp only [step] at hstep
    split at hstep
    · rename_i job eventQueue hqueue hhandler hn
      cases hstep
      exact mirrored_begin h hqueue hn hok
    · cases hstep
  | poll n =>
    simp only [step] at hstep
    split_ifs at hstep with hn
    cases hstep
    exact h.poll (OMap.has_eq_false_iff.mp (by simpa using hn)) false
  | afterCommit n kind =>
    simp only [step] at hstep
    split_ifs at hstep with hn
    cases hstep
    exact h.goto unserved (released_of_has hn)
  | resyncDocument n kind =>
    simp only [step] at hstep
    split_ifs at hstep with hn
    cases hstep
    exact h.beginActivity.goto trivial (released_of_has hn)
  | save n kind =>
    simp only [step] at hstep
    split_ifs at hstep with hn
    cases hstep
    exact h.beginActivity.goto trivial (released_of_has hn)
  | edit n kind ids =>
    simp only [step] at hstep
    split_ifs at hstep with hn
    cases hstep
    exact h.goto trivial (released_of_has hn)
  | serve n =>
    obtain ⟨pc, hpc, hserve⟩ := Option.bind_eq_some_iff.mp hstep
    exact mirrored_serve h hpc hserve
  | answer n =>
    obtain ⟨pc, hpc, hanswer⟩ := Option.bind_eq_some_iff.mp hstep
    exact mirrored_answer h hpc hok hanswer
  | fail n =>
    obtain ⟨pc, hpc, rfl⟩ := Option.map_eq_some_iff.mp hstep
    exact mirrored_fail h hpc hok

/-! ### Mirror soundness -/

omit [DecidableEq ι] in
lemma mirrored_opened (rev : Kind → ℕ) (live : Bool) :
    Mirrored (State.opened rev live : State ι) where
  docs := by
    intro kind
    refine ⟨⟨rev kind, rfl, Nat.le_refl _⟩, fun c hno => ?_, fun _ => Nat.le_refl _⟩
    cases hno
  past := by
    rintro e (hno | hno) <;> cases hno
  procs := by
    intro n pc hno
    cases hno
  seen := by
    rintro kind c ⟨hno, -⟩
    cases hno

omit [DecidableEq ι] in
lemma get?_of_quiescent (h : s.quiescent = true) (n : ℕ) : s.procs.get? n = none := by
  simp only [State.quiescent, Bool.and_eq_true, decide_eq_true_eq] at h
  exact OMap.size_eq_zero_iff.mp h.2 n

/-- A track widened by another client, and the event of it taken up. -/
def widened : List (Action String) :=
  [.change .board ⟨1, ["t"], false, true⟩, .deliver, .begin 0]

/-- The re-read of the track succeeds, and the board is saved. -/
def widenedSaved : List (Action String) :=
  widened ++ [.serve 0, .answer 0, .save 1 .board, .serve 1, .answer 1, .serve 1, .answer 1,
    .deliver, .begin 2]

end FabPcb.MirrorSound
