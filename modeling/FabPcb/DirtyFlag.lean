import FabPcb.DocumentMirror
import Mathlib.Data.List.Pairwise

/-!
What the dirty flag says about the disk.

The flag is cleared when a revision equals the one remembered as saved, and when a save is
heard of. Events come in the order of the changes and saves they announce, so clearing it on an
event is sound: whatever was changed after the save has its event still to come. A revision
asked for in a request of its own can be older than events already handled, and the one asked
for after a save can be newer than what was written.
-/

namespace FabPcb.DirtyFlag

open OrderedMap Runs DocumentMirror

variable {ι : Type*}

/-! ### Events still to be handled -/

/-- The event a process handles. -/
def eventOf : Pc ι → Option (Event ι)
  | .reading kind (.event c) _ _ => some (.changed kind c)
  | _ => none

def Job.event? : Job ι → Option (Event ι)
  | .event e => some e
  | .poll => none

def handling (s : State ι) : Option (Event ι) :=
  s.handler.bind fun n => (s.procs.get? n).bind eventOf

/-- The events not handled to their end, oldest first. -/
def stream (s : State ι) : List (Event ι) :=
  (handling s).toList ++ s.eventQueue.filterMap Job.event? ++ s.wire

section

variable [DecidableEq ι]

/-- A change after the revision on disk whose event is not still to be handled. -/
def unsaved (s : State ι) (kind : Kind) : Bool :=
  (s.docs kind).changes.any fun c =>
    (s.docs kind).disk < c.revision && !(stream s).contains (.changed kind c)

/-- The steps that clear the flag over such a change, or take a revision for saved that is not
on disk. -/
def hides (s : State ι) : Action ι → Bool
  | .answer n =>
    match s.procs.get? n with
    | some (.asking kind .commit (some m)) => (s.docs kind).saved = some m && unsaved s kind
    | some (.asking kind .save (some m)) => (s.docs kind).disk < m || unsaved s kind
    | some (.reading kind (.poll r _) _ _) => (s.docs kind).saved = some r && unsaved s kind
    | _ => false
  | .fail n =>
    match s.procs.get? n with
    | some (.asking kind .commit _) => (s.docs kind).saved = (s.docs kind).known && unsaved s kind
    | _ => false
  | _ => false

end

/-! ### The invariant -/

/-- The events to come announce, in order, the changes after those in `done`, and saves of what
was written. -/
def Follows (kind : Kind) (changes : List (Change ι)) (disk : ℕ) :
    List (Change ι) → List (Event ι) → Prop
  | done, [] => done = changes
  | done, .changed kind' c :: es =>
    Follows kind changes disk (if kind' = kind then done ++ [c] else done) es
  | done, .saved kind' r :: es =>
    (kind' = kind → r ≤ disk ∧ ∀ c ∈ done, c.revision ≤ r) ∧ Follows kind changes disk done es

/-- The changes of `done` have been told, and the flag is clear only when they are on disk. -/
structure Told (d : Doc ι) (kind : Kind) (done : List (Change ι)) (es : List (Event ι)) :
    Prop where
  follows : Follows kind d.changes d.disk done es
  clean : d.dirty = false → ∀ c ∈ done, c.revision ≤ d.disk
  saved : ∀ r, d.saved = some r → r ≤ d.disk

structure DocOk (d : Doc ι) : Prop where
  sorted : d.changes.Pairwise fun c c' => c.revision < c'.revision
  changes : ∀ c ∈ d.changes, c.revision ≤ d.rev
  disk : d.disk ≤ d.rev

/-- **The invariant**, as long as no event was lost. -/
structure Tells (s : State ι) : Prop where
  handler : ∀ n pc e, s.procs.get? n = some pc → eventOf pc = some e → s.handler = some n
  docs : ∀ kind, DocOk (s.docs kind)
  told : s.lost = false → ∀ kind, ∃ done, Told (s.docs kind) kind done (stream s)

variable {s s' : State ι} {d : Doc ι} {kind kind' : Kind} {c : Change ι} {disk disk' : ℕ}
  {changes done : List (Change ι)} {es : List (Event ι)}

/-! ### Following -/

lemma Follows.prefix (h : Follows kind changes disk done es) : ∃ rest, changes = done ++ rest := by
  induction es generalizing done with
  | nil => exact ⟨[], by rw [List.append_nil]; exact h.symm⟩
  | cons e es ih =>
    cases e with
    | changed kind' c =>
      obtain ⟨rest, hrest⟩ := ih h
      split_ifs at hrest
      · exact ⟨c :: rest, by rw [hrest, List.append_assoc]; rfl⟩
      · exact ⟨rest, hrest⟩
    | saved kind' r => exact ih h.2

lemma Follows.lt_of_mem (h : Follows kind changes disk done es)
    (hsorted : changes.Pairwise fun c c' => c.revision < c'.revision)
    (hc : .changed kind c ∈ es) : ∀ c' ∈ done, c'.revision < c.revision := by
  induction es generalizing done with
  | nil => cases hc
  | cons e es ih =>
    cases e with
    | changed kind' c₁ =>
      rcases List.mem_cons.mp hc with heq | hmem
      · obtain ⟨rfl, rfl⟩ := Event.changed.inj heq
        rw [Follows, if_pos rfl] at h
        obtain ⟨rest, rfl⟩ := h.prefix
        intro c' hc'
        have hpair := (List.pairwise_append.mp hsorted).1
        exact (List.pairwise_append.mp hpair).2.2 c' hc' c (List.mem_singleton_self c)
      · intro c' hc'
        refine ih h hmem c' ?_
        split_ifs
        · exact List.mem_append_left _ hc'
        · exact hc'
    | saved kind' r =>
      rcases List.mem_cons.mp hc with heq | hmem
      · cases heq
      · exact ih h.2 hmem

lemma Follows.mono (h : Follows kind changes disk done es) (hdisk : disk ≤ disk') :
    Follows kind changes disk' done es := by
  induction es generalizing done with
  | nil => exact h
  | cons e es ih =>
    cases e with
    | changed kind' c => exact ih h
    | saved kind' r =>
      exact ⟨fun hk => ⟨Nat.le_trans (h.1 hk).1 hdisk, (h.1 hk).2⟩, ih h.2⟩

lemma Follows.change (h : Follows kind changes disk done es) (c : Change ι) :
    Follows kind (changes ++ [c]) disk done (es ++ [.changed kind c]) := by
  induction es generalizing done with
  | nil =>
    rw [List.nil_append, Follows, if_pos rfl]
    exact congrArg (· ++ [c]) h
  | cons e es ih =>
    cases e with
    | changed kind' c' => exact ih h
    | saved kind' r => exact ⟨h.1, ih h.2⟩

lemma Follows.other (h : Follows kind changes disk done es) (hk : kind' ≠ kind) (c : Change ι) :
    Follows kind changes disk done (es ++ [.changed kind' c]) := by
  induction es generalizing done with
  | nil =>
    rw [List.nil_append, Follows, if_neg hk]
    exact h
  | cons e es ih =>
    cases e with
    | changed kind'' c' => exact ih h
    | saved kind'' r => exact ⟨h.1, ih h.2⟩

lemma Follows.save (h : Follows kind changes disk done es) {r : ℕ}
    (hr : kind' = kind → r ≤ disk ∧ ∀ c ∈ changes, c.revision ≤ r) :
    Follows kind changes disk done (es ++ [.saved kind' r]) := by
  induction es generalizing done with
  | nil => exact ⟨fun hk => ⟨(hr hk).1, by rw [h]; exact (hr hk).2⟩, h⟩
  | cons e es ih =>
    cases e with
    | changed kind'' c' => exact ih h
    | saved kind'' r' => exact ⟨h.1, ih h.2⟩

/-! ### Documents and the events handled -/

/-- **A change is handled.** The flag is clear only if its revision is the one saved. -/
lemma Told.changed (h : Told d kind done (.changed kind c :: es)) (hd : DocOk d) :
    Told (d.noteChanged c.revision) kind (done ++ [c]) es where
  follows := by
    have hfollows := h.follows
    rwa [Follows, if_pos rfl] at hfollows
  clean := by
    intro hclean c' hc'
    have hsaved : d.saved = some c.revision := by simpa [Doc.noteChanged] using hclean
    have hdisk : c.revision ≤ d.disk := h.saved _ hsaved
    rcases List.mem_append.mp hc' with hold | hnew
    · have hlt := h.follows.lt_of_mem hd.sorted List.mem_cons_self c' hold
      simp only [Doc.noteChanged]
      omega
    · rw [List.mem_singleton.mp hnew]
      exact hdisk
  saved := h.saved

/-- **A save is handled.** What was told before it is on disk. -/
lemma Told.save {r : ℕ} (h : Told d kind done (.saved kind r :: es)) :
    Told (d.noteSaved r) kind done es where
  follows := h.follows.2
  clean := fun _ c hc => Nat.le_trans ((h.follows.1 rfl).2 c hc) (h.follows.1 rfl).1
  saved := fun r' hr' => by
    obtain rfl := Option.some.inj hr'
    exact (h.follows.1 rfl).1

lemma Told.other {e : Event ι} (h : Told d kind done (e :: es))
    (he : ∀ c, e ≠ .changed kind c) : Told d kind done es where
  follows := by
    have hfollows := h.follows
    cases e with
    | changed kind' c =>
      have hne : kind' ≠ kind := by
        rintro rfl
        exact he c rfl
      rwa [Follows, if_neg hne] at hfollows
    | saved kind' r => exact hfollows.2
  clean := h.clean
  saved := h.saved

def kindOf : Event ι → Kind
  | .changed kind _ => kind
  | .saved kind _ => kind

/-- What the end of a handler does to the document of its event. -/
def note : Event ι → Doc ι → Doc ι
  | .changed _ c, d => d.noteChanged c.revision
  | .saved _ r, d => d.noteSaved r

lemma docOk_note (h : DocOk d) (e : Event ι) : DocOk (note e d) := by
  cases e <;> exact ⟨h.sorted, h.changes, h.disk⟩

/-! ### Steps of the stream -/

lemma stream_congr (hhandling : handling s' = handling s) (hqueue : s'.eventQueue = s.eventQueue)
    (hwire : s'.wire = s.wire) : stream s' = stream s := by
  simp [stream, hhandling, hqueue, hwire]

lemma Tells.congr (h : Tells s) (hdocs : s'.docs = s.docs) (hlost : s'.lost = s.lost)
    (hstream : stream s' = stream s)
    (hhandler : ∀ n pc e, s'.procs.get? n = some pc → eventOf pc = some e →
      s'.handler = some n) : Tells s' where
  handler := hhandler
  docs := by
    rw [hdocs]
    exact h.docs
  told := by
    rw [hdocs, hlost, hstream]
    exact h.told

/-- **The next event is handled.** -/
lemma Tells.consume (h : Tells s) {e : Event ι} (hstream : stream s = e :: stream s')
    (hdocs : s'.docs = (s.modify (kindOf e) (note e)).docs) (hlost : s'.lost = s.lost)
    (hhandler : ∀ n pc e, s'.procs.get? n = some pc → eventOf pc = some e →
      s'.handler = some n) : Tells s' where
  handler := hhandler
  docs := by
    intro k
    rw [hdocs]
    by_cases hk : k = kindOf e
    · subst hk
      rw [State.docs_modify_self]
      exact docOk_note (h.docs _) e
    · rw [State.docs_modify_of_ne s hk]
      exact h.docs k
  told := by
    intro hl k
    rw [hlost] at hl
    obtain ⟨done, htold⟩ := h.told hl k
    rw [hstream] at htold
    rw [hdocs]
    by_cases hk : k = kindOf e
    · subst hk
      rw [State.docs_modify_self]
      cases e with
      | changed kind c => exact ⟨done ++ [c], htold.changed (h.docs kind)⟩
      | saved kind r => exact ⟨done, htold.save⟩
    · rw [State.docs_modify_of_ne s hk]
      refine ⟨done, htold.other fun c hc => hk ?_⟩
      rw [hc]
      rfl

/-- **The flag is set**, to clear only over what is on disk. -/
lemma Tells.modify (h : Tells s) {f : Doc ι → Doc ι}
    (hrev : (f (s.docs kind)).rev = (s.docs kind).rev)
    (hchanges : (f (s.docs kind)).changes = (s.docs kind).changes)
    (hdisk : (f (s.docs kind)).disk = (s.docs kind).disk)
    (htold : ∀ done, Told (s.docs kind) kind done (stream s) →
      ((f (s.docs kind)).dirty = false → ∀ c ∈ done, c.revision ≤ (s.docs kind).disk) ∧
      ∀ r, (f (s.docs kind)).saved = some r → r ≤ (s.docs kind).disk) :
    Tells (s.modify kind f) where
  handler := h.handler
  docs := by
    intro k
    by_cases hk : k = kind
    · subst hk
      have hok := h.docs k
      rw [State.docs_modify_self]
      exact ⟨hchanges ▸ hok.sorted, by rw [hchanges, hrev]; exact hok.changes,
        by rw [hdisk, hrev]; exact hok.disk⟩
    · rw [State.docs_modify_of_ne s hk]
      exact h.docs k
  told := by
    intro hl k
    obtain ⟨done, ht⟩ := h.told hl k
    refine ⟨done, ?_⟩
    by_cases hk : k = kind
    · subst hk
      obtain ⟨hclean, hsaved⟩ := htold done ht
      rw [State.docs_modify_self]
      refine ⟨?_, ?_, ?_⟩
      · rw [hchanges, hdisk]
        exact ht.follows
      · rw [hdisk]
        exact hclean
      · rw [hdisk]
        exact hsaved
    · rw [State.docs_modify_of_ne s hk]
      exact ht

lemma Tells.goto (h : Tells s) {n : ℕ} {pc : Pc ι}
    (hpc : (s.procs.get? n).bind eventOf = eventOf pc) : Tells (s.goto n pc) := by
  have hget : ∀ m, ((s.goto n pc).procs.get? m).bind eventOf =
      (s.procs.get? m).bind eventOf := by
    intro m
    simp only [State.goto, OMap.get?_set]
    split_ifs with hm
    · subst hm
      exact hpc.symm
    · rfl
  refine h.congr rfl rfl (stream_congr ?_ rfl rfl) fun m pc' e hm he => ?_
  · change s.handler.bind _ = s.handler.bind _
    congr 1
    funext m
    exact hget m
  · have hold := hget m
    rw [hm, Option.bind_some, he] at hold
    obtain ⟨q, hq, hqe⟩ := Option.bind_eq_some_iff.mp hold.symm
    exact h.handler m q e hq hqe

lemma Tells.leave (h : Tells s) {n : ℕ} (hn : (s.procs.get? n).bind eventOf = none) :
    Tells (s.leave n) := by
  refine h.congr rfl rfl (stream_congr ?_ rfl rfl) fun m pc e hm he => ?_
  · simp only [handling, State.leave]
    by_cases hh : s.handler = some n
    · rw [if_pos hh, hh]
      exact hn.symm
    · cases hm : s.handler with
      | none => rfl
      | some m =>
        have hne : m ≠ n := fun hmn => hh (hmn ▸ hm)
        simp [hne]
  · simp only [State.leave, OMap.get?_delete] at hm
    split_ifs at hm with hmn
    have hhandler := h.handler m pc e hm he
    have hne : s.handler ≠ some n := by
      rw [hhandler]
      exact fun heq => hmn (Option.some.inj heq)
    simp only [State.leave, if_neg hne]
    exact hhandler

/-- **The server announces something.** -/
lemma Tells.announce (h : Tells s) {e : Event ι} {f : Doc ι → Doc ι}
    (hok : DocOk (f (s.docs kind)))
    (htold : ∀ done es, Told (s.docs kind) kind done es →
      Told (f (s.docs kind)) kind done (es ++ [e]))
    (hother : ∀ k, k ≠ kind → ∀ done es, Told (s.docs k) k done es →
      Told (s.docs k) k done (es ++ [e])) :
    Tells { s.modify kind f with wire := s.wire ++ [e] } where
  handler := h.handler
  docs := by
    intro k
    by_cases hk : k = kind
    · subst hk
      rwa [State.docs_modify_self]
    · rw [State.docs_modify_of_ne s hk]
      exact h.docs k
  told := by
    intro hl k
    have hstream : stream { s.modify kind f with wire := s.wire ++ [e] } = stream s ++ [e] := by
      simp [stream, handling, State.modify]
    rw [hstream]
    obtain ⟨done, ht⟩ := h.told hl k
    refine ⟨done, ?_⟩
    by_cases hk : k = kind
    · subst hk
      rw [State.docs_modify_self]
      exact htold done _ ht
    · rw [State.docs_modify_of_ne s hk]
      exact hother k hk done _ ht

lemma Tells.change (h : Tells s) (hc : (s.docs kind).rev < c.revision) :
    Tells (s.change kind c) := by
  have hok := h.docs kind
  refine h.announce ⟨?_, ?_, ?_⟩ (fun done es ht => ?_) fun k hk done es ht => ?_
  · refine List.pairwise_append.mpr ⟨hok.sorted, List.pairwise_singleton _ _, ?_⟩
    intro c' hc' c'' hc''
    have hle := hok.changes c' hc'
    rw [List.mem_singleton.mp hc'']
    omega
  · intro c' hc'
    rcases List.mem_append.mp hc' with hold | hnew
    · have hle := hok.changes c' hold
      dsimp only
      omega
    · exact Nat.le_of_eq (congrArg Change.revision (List.mem_singleton.mp hnew))
  · have hle := hok.disk
    dsimp only
    omega
  · exact ⟨ht.follows.change c, ht.clean, ht.saved⟩
  · exact ⟨ht.follows.other (Ne.symm hk) c, ht.clean, ht.saved⟩

lemma Tells.write (h : Tells s) (kind : Kind) : Tells (s.write kind) := by
  have hok := h.docs kind
  refine h.announce (f := fun d => { d with disk := d.rev })
    ⟨hok.sorted, hok.changes, Nat.le_refl _⟩ (fun done es ht => ⟨?_, ?_, ?_⟩)
    fun k hk done es ht => ⟨?_, ht.clean, ht.saved⟩
  · exact (ht.follows.mono hok.disk).save fun _ => ⟨Nat.le_refl _, hok.changes⟩
  · exact fun hclean c hc => Nat.le_trans (ht.clean hclean c hc) hok.disk
  · exact fun r hr => Nat.le_trans (ht.saved r hr) hok.disk
  · exact ht.follows.save fun hk' => absurd hk'.symm hk

lemma Tells.pollNext (h : Tells s) {n : ℕ} (hn : (s.procs.get? n).bind eventOf = none)
    (kinds : List Kind) : Tells (s.pollNext n kinds) := by
  cases kinds with
  | nil => exact (h.leave hn).congr rfl rfl rfl (h.leave hn).handler
  | cons kind rest => exact h.goto hn

lemma Tells.poll (h : Tells s) {n : ℕ} (hn : s.procs.get? n = none) (force : Bool) :
    Tells (s.poll n force) := by
  have hfresh : (s.procs.get? n).bind eventOf = none := by rw [hn]; rfl
  unfold State.poll
  split_ifs
  · exact h
  · exact h
  · have hpolling : Tells { s with polling := true } := h.congr rfl rfl rfl h.handler
    exact hpolling.pollNext hfresh _

lemma Tells.idle (h : Tells s) (hhandler : s.handler = none) {n : ℕ} {pc : Pc ι} {e : Event ι}
    (hpc : s.procs.get? n = some pc) : eventOf pc ≠ some e := by
  intro he
  rw [h.handler n pc e hpc he] at hhandler
  cases hhandler

lemma stream_of_idle (hhandler : s.handler = none) :
    stream s = s.eventQueue.filterMap Job.event? ++ s.wire := by
  simp [stream, handling, hhandler]

/-- **Step, a job of the queue.** -/
lemma tells_begin (h : Tells s) {n : ℕ} {job : Job ι} {eventQueue : List (Job ι)}
    (hqueue : s.eventQueue = job :: eventQueue) (hhandler : s.handler = none)
    (hn : s.procs.get? n = none) : Tells ({ s with eventQueue }.begin n job) := by
  have hidle := stream_of_idle hhandler
  rw [hqueue] at hidle
  cases job with
  | poll =>
    have hrest : Tells { s with eventQueue } := by
      refine h.congr rfl rfl ?_ h.handler
      rw [hidle]
      exact stream_of_idle hhandler
    have hpoll := hrest.poll hn true
    have hpollIdle : ({ s with eventQueue }.poll n true).handler = none := by
      unfold State.poll
      split_ifs <;> exact hhandler
    refine hpoll.congr rfl rfl (stream_congr ?_ rfl rfl) fun m pc e hm he => ?_
    · -- the process of the poll handles no event
      simp only [handling, State.begin, hpollIdle, Option.bind_none]
      split_ifs
      · rw [Option.bind_some]
        cases hget : ({ s with eventQueue }.poll n true).procs.get? n with
        | none => rfl
        | some pc =>
          cases he : eventOf pc with
          | none => simpa using he
          | some e => exact absurd he (hpoll.idle hpollIdle hget)
      · rfl
    · exact absurd he (hpoll.idle hpollIdle hm)
  | event e =>
    have hevents : stream s = e :: (eventQueue.filterMap Job.event? ++ s.wire) := hidle
    have htail : stream { s with eventQueue } = eventQueue.filterMap Job.event? ++ s.wire :=
      stream_of_idle hhandler
    cases e with
    | saved kind r =>
      refine h.consume (e := .saved kind r) ?_ rfl rfl h.handler
      rw [hevents]
      exact congrArg _ htail.symm
    | changed kind c =>
      simp only [State.begin]
      by_cases hown : c.own = true
      · rw [if_pos hown]
        refine h.consume (e := .changed kind c) ?_ rfl rfl h.handler
        rw [hevents]
        exact congrArg _ htail.symm
      · rw [if_neg hown]
        generalize (if c.listed then some c.ids else none) = target
        refine h.congr rfl rfl ?_ fun m pc e' hm he' => ?_
        · rw [hevents]
          simp [stream, handling, State.goto, State.beginActivity, eventOf]
        · simp only [State.goto, State.beginActivity, OMap.get?_set] at hm
          split_ifs at hm with hmn
          · rw [hmn]
          · exact absurd he' (h.idle hhandler hm)

/-! ### Requests -/

lemma eventOf_of_get? {n : ℕ} {pc : Pc ι} (hpc : s.procs.get? n = some pc) :
    (s.procs.get? n).bind eventOf = eventOf pc := by
  rw [hpc]
  rfl

/-- **Step, a request is served.** -/
lemma tells_serve (h : Tells s) {n : ℕ} {pc : Pc ι} (hpc : s.procs.get? n = some pc)
    (hserve : s.serve n pc = some s') : Tells s' := by
  have hevent := eventOf_of_get? hpc
  unfold State.serve at hserve
  split at hserve
  case h_1 kind why target =>
    cases hserve
    exact h.goto (hevent.trans (by cases why <;> rfl))
  case h_2 kind why =>
    cases hserve
    exact h.goto hevent
  case h_3 kind =>
    cases hserve
    exact (h.write kind).goto hevent
  case h_4 => cases hserve

lemma tells_settle (h : Tells s) {n : ℕ} {target : Option (List ι)} {at? : Option ℕ}
    (hpc : s.procs.get? n = some (.reading kind (.event c) target at?)) :
    Tells ((s.endActivity.modify kind fun d => d.noteChanged c.revision).leave n) := by
  have hhandler : s.handler = some n := h.handler n _ _ hpc rfl
  refine h.consume (e := .changed kind c) ?_ rfl rfl fun m pc e hm he => ?_
  · simp [stream, handling, hhandler, hpc, eventOf, State.leave, State.modify,
      State.endActivity]
  · simp only [State.leave, State.modify, State.endActivity, OMap.get?_delete] at hm
    split_ifs at hm with hmn
    have hm' := h.handler m pc e hm he
    exact absurd (Option.some.inj (hm'.symm.trans hhandler)) hmn

lemma Tells.endActivity (h : Tells s) : Tells s.endActivity := h.congr rfl rfl rfl h.handler

lemma Tells.beginActivity (h : Tells s) : Tells s.beginActivity := h.congr rfl rfl rfl h.handler

lemma Tells.read [DecidableEq ι] (h : Tells s) (target : Option (List ι)) (m : ℕ) :
    Tells (s.modify kind fun d => d.read target m) :=
  h.modify rfl rfl rfl fun _ ht => ⟨ht.clean, ht.saved⟩

variable [DecidableEq ι]

lemma clean_of_unsaved (h : Tells s) (hu : unsaved s kind = false)
    (ht : Told (s.docs kind) kind done (stream s)) :
    ∀ c ∈ done, c.revision ≤ (s.docs kind).disk := by
  intro c hc
  rcases Nat.lt_or_ge (s.docs kind).disk c.revision with hlt | hge
  · obtain ⟨rest, hrest⟩ := ht.follows.prefix
    have hmem : c ∈ (s.docs kind).changes := by
      rw [hrest]
      exact List.mem_append_left _ hc
    have hstream := List.any_eq_false.mp hu c hmem
    simp only [hlt, decide_true, Bool.true_and, Bool.not_eq_true, Bool.not_eq_false',
      List.contains_iff_mem] at hstream
    have := ht.follows.lt_of_mem (h.docs kind).sorted hstream c hc
    omega
  · exact hge

/-- **A revision is compared with the one saved.** -/
lemma Tells.compare (h : Tells s) {f : Doc ι → Doc ι}
    (hrev : (f (s.docs kind)).rev = (s.docs kind).rev)
    (hchanges : (f (s.docs kind)).changes = (s.docs kind).changes)
    (hdisk : (f (s.docs kind)).disk = (s.docs kind).disk)
    (hsaved : (f (s.docs kind)).saved = (s.docs kind).saved)
    (hclean : (f (s.docs kind)).dirty = false → unsaved s kind = false) :
    Tells (s.modify kind f) := by
  refine h.modify hrev hchanges hdisk fun done ht => ⟨fun hf => ?_, ?_⟩
  · exact clean_of_unsaved h (hclean hf) ht
  · rw [hsaved]
    exact ht.saved

/-- **Step, an answer comes.** -/
lemma tells_answer (h : Tells s) {n : ℕ} {pc : Pc ι} (hpc : s.procs.get? n = some pc)
    (hok : hides s (.answer n) = false) (hanswer : s.answer n pc = some s') : Tells s' := by
  have hevent := eventOf_of_get? hpc
  simp only [hides, hpc] at hok
  unfold State.answer at hanswer
  split at hanswer
  case h_1 kind why target m =>
    split_ifs at hanswer
    cases hanswer
    have hread : Tells (s.modify kind fun d => d.read target m) := h.read target m
    cases why with
    | event c => exact tells_settle hread hpc
    | document => exact hread.endActivity.goto hevent
    | poll r rest =>
      refine Tells.pollNext (hread.compare (f := fun d => d.notePoll r) rfl rfl rfl rfl ?_)
        hevent rest
      intro hclean
      have hsaved : (s.docs kind).saved = some r := by
        simpa [Doc.notePoll, Doc.read] using hclean
      have hu : unsaved s kind = false := by simpa [hsaved] using hok
      simpa [unsaved, stream, handling, State.modify, Doc.read] using hu
    | own => exact hread.leave hevent
  case h_2 kind why m =>
    cases hanswer
    cases why with
    | commit =>
      refine Tells.leave (h.compare (f := fun d => d.noteCommit (some m)) rfl rfl rfl rfl ?_)
        hevent
      intro hclean
      have hsaved : (s.docs kind).saved = some m := by
        simpa [Doc.noteCommit] using hclean
      simpa [hsaved] using hok
    | save =>
      simp only [Bool.or_eq_false_iff, decide_eq_false_iff_not, Nat.not_lt] at hok
      refine Tells.leave (Tells.endActivity ?_) hevent
      refine h.modify (f := fun d => d.noteSaved m) rfl rfl rfl fun done ht =>
        ⟨fun _ => clean_of_unsaved h hok.2 ht, fun r hr => ?_⟩
      exact Option.some.inj hr ▸ hok.1
    | poll rest =>
      simp only [State.afterAsk]
      split
      · exact Tells.pollNext (h.modify rfl rfl rfl fun _ ht => ⟨ht.clean, ht.saved⟩) hevent rest
      · split_ifs
        · exact h.pollNext hevent rest
        · exact Tells.goto (h.modify rfl rfl rfl fun _ ht => ⟨ht.clean, ht.saved⟩) hevent
  case h_3 kind =>
    cases hanswer
    exact h.goto hevent
  case h_4 => cases hanswer

/-- **Step, a request fails.** -/
lemma tells_fail (h : Tells s) {n : ℕ} {pc : Pc ι} (hpc : s.procs.get? n = some pc)
    (hok : hides s (.fail n) = false) : Tells (s.fail n pc) := by
  have hevent := eventOf_of_get? hpc
  simp only [hides, hpc] at hok
  cases pc with
  | reading kind why target at? =>
    cases why with
    | event c => exact tells_settle h hpc
    | document => exact h.endActivity.goto hevent
    | poll r rest => exact (h.leave hevent).congr rfl rfl rfl (h.leave hevent).handler
    | own => exact h.leave hevent
  | asking kind why at? =>
    cases why with
    | commit =>
      refine Tells.leave (h.compare (f := fun d => d.noteCommit none) rfl rfl rfl rfl ?_) hevent
      intro hclean
      have hnot := of_decide_eq_false hclean
      have hsaved : (s.docs kind).saved = (s.docs kind).known :=
        Decidable.byContradiction fun hne => hnot (Or.inr hne)
      simpa [hsaved] using hok
    | save => exact h.endActivity.leave hevent
    | poll rest => exact (h.leave hevent).congr rfl rfl rfl (h.leave hevent).handler
  | writing kind done => exact h.endActivity.leave hevent

/-- **Step.** What hides no change keeps the flag right. -/
lemma tells_step {a : Action ι} (h : Tells s) (hok : hides s a = false)
    (hstep : step s a = some s') : Tells s' := by
  have hfresh : ∀ {n : ℕ} {pc : Pc ι}, ¬ s.procs.has n = true → eventOf pc = none →
      (s.procs.get? n).bind eventOf = eventOf pc := by
    intro n pc hn hpc
    rw [OMap.has_eq_false_iff.mp (by simpa using hn), hpc]
    rfl
  cases a with
  | change kind c =>
    simp only [step] at hstep
    split_ifs at hstep with hc
    cases hstep
    exact h.change hc
  | write kind =>
    cases hstep
    exact h.write kind
  | deliver =>
    simp only [step] at hstep
    split at hstep
    · cases hstep
    · rename_i e wire hwire
      cases hstep
      refine h.congr rfl rfl ?_ h.handler
      simp only [stream, handling, State.deliver, hwire, List.filterMap_append,
        List.append_assoc]
      split_ifs <;> rfl
  | lose =>
    simp only [step] at hstep
    split at hstep
    · cases hstep
    · cases hstep
      refine ⟨h.handler, h.docs, fun hlost => ?_⟩
      cases hlost
  | connect live =>
    cases hstep
    refine h.congr rfl rfl ?_ h.handler
    cases live <;> simp [stream, handling, State.connect, Job.event?]
  | touch kind =>
    cases hstep
    refine h.modify rfl rfl rfl fun _ ht => ⟨fun hno => ?_, ht.saved⟩
    cases hno
  | activity begins =>
    cases hstep
    cases begins
    · exact h.endActivity
    · exact h.beginActivity
  | begin n =>
    simp only [step] at hstep
    split at hstep
    · rename_i job eventQueue hqueue hhandler hn
      cases hstep
      exact tells_begin h hqueue hhandler hn
    · cases hstep
  | poll n =>
    simp only [step] at hstep
    split_ifs at hstep with hn
    cases hstep
    exact h.poll (OMap.has_eq_false_iff.mp (by simpa using hn)) false
  | afterCommit n kind =>
    simp only [step] at hstep
    split_ifs at hstep with hn
    cases hstep
    exact h.goto (hfresh hn rfl)
  | resyncDocument n kind =>
    simp only [step] at hstep
    split_ifs at hstep with hn
    cases hstep
    exact h.beginActivity.goto (hfresh hn rfl)
  | save n kind =>
    simp only [step] at hstep
    split_ifs at hstep with hn
    cases hstep
    exact h.beginActivity.goto (hfresh hn rfl)
  | edit n kind ids =>
    simp only [step] at hstep
    split_ifs at hstep with hn
    cases hstep
    exact h.goto (hfresh hn rfl)
  | serve n =>
    obtain ⟨pc, hpc, hserve⟩ := Option.bind_eq_some_iff.mp hstep
    exact tells_serve h hpc hserve
  | answer n =>
    obtain ⟨pc, hpc, hanswer⟩ := Option.bind_eq_some_iff.mp hstep
    exact tells_answer h hpc hok hanswer
  | fail n =>
    obtain ⟨pc, hpc, rfl⟩ := Option.map_eq_some_iff.mp hstep
    exact tells_fail h hpc hok

/-! ### Nothing unsaved is hidden -/

omit [DecidableEq ι] in
lemma tells_opened (rev : Kind → ℕ) (live : Bool) : Tells (State.opened rev live : State ι) where
  handler := by
    intro n pc e hno
    cases hno
  docs := by
    intro kind
    refine ⟨List.Pairwise.nil, fun c hno => ?_, Nat.le_refl _⟩
    cases hno
  told := by
    intro _ kind
    refine ⟨[], rfl, fun _ c hno => ?_, fun r hr => ?_⟩
    · cases hno
    · exact Nat.le_of_eq (Option.some.inj hr).symm

omit [DecidableEq ι] in
lemma Told.all (h : Told d kind done []) : done = d.changes := h.follows

omit [DecidableEq ι] in
lemma stream_of_quiescent (hquiet : s.quiescent = true) (hwire : s.wire = []) :
    stream s = [] := by
  simp only [State.quiescent, Bool.and_eq_true, List.isEmpty_iff, decide_eq_true_eq] at hquiet
  have hprocs := OMap.size_eq_zero_iff.mp hquiet.2
  cases hh : s.handler with
  | none => simp [stream, handling, hh, hquiet.1, hwire]
  | some n => simp [stream, handling, hh, hprocs n, hquiet.1, hwire]

/-- A board is saved, and what is asked for next is its revision. -/
def saving : List (Action String) := [.save 0 .board, .serve 0, .answer 0]

/-- Another client's change comes between the save and the request for the revision. -/
def changedBetween : List (Action String) :=
  saving ++ [.deliver, .begin 1, .change .board ⟨1, ["t"], false, true⟩, .serve 0, .answer 0,
    .deliver, .begin 1, .serve 1, .touch .board, .answer 1]

end FabPcb.DirtyFlag
