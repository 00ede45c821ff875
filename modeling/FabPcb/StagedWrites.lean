import FabPcb.StagedFiles

/-!
Staged files reach the module, as long as no write fails that a call waits for and no call goes on
with another module than it found.

The files of a module are written from the first one on, or on from where an earlier write of it
ends. `lead` follows the writes that are still to be answered; the counter of the service never
runs ahead of where they lead to.
-/

namespace FabPcb.StagedWrites

open Runs Writes StagedFiles

variable {B : Type}

/-! ### What must not happen -/

def Minded (s : Service B) : Event B → Prop
  -- A write fails only where no call that is to resolve waits for it.
  | .answer false _ _ => ∀ j ∈ s.jobs.head?, ∀ c ∈ s.calls, c.resolves = true →
      ∀ w ∈ c.wait?, w.backend ≠ some j.backend
  -- The module that is live is the one that the call found.
  | .resume i => ∀ c ∈ s.calls[i]?, c.resolves = true → ∀ w ∈ c.wait?, ∀ m ∈ s.live,
      w.backend = some m ∨ w.count = 0
  | _ => True

instance (s : Service B) : ∀ e : Event B, Decidable (Minded s e)
  | .answer false _ _ => inferInstanceAs (Decidable (∀ j ∈ s.jobs.head?, ∀ c ∈ s.calls,
      c.resolves = true → ∀ w ∈ c.wait?, w.backend ≠ some j.backend))
  | .resume i => inferInstanceAs (Decidable (∀ c ∈ s.calls[i]?, c.resolves = true →
      ∀ w ∈ c.wait?, ∀ m ∈ s.live, w.backend = some m ∨ w.count = 0))
  | .answer true _ _ | .importProjectFiles _ _ | .loadWasm | .packaged _ | .shutDown _
  | .created _ | .notLoaded _ | .abort | .exit _ | .stopKiCad | .teardown _ | .closed _ =>
    isTrue trivial

/-! ### Where the writes lead to -/

/-- How many files a module will have of which it has the first `n` now. -/
def lead (m : ℕ) : ℕ → List (Job B) → ℕ
  | n, [] => n
  | n, j :: js =>
    if j.backend = m then lead m (if j.first ≤ n then j.last else 0) js else lead m n js

lemma lead_append (m : ℕ) (as bs : List (Job B)) :
    ∀ n, lead m n (as ++ bs) = lead m (lead m n as) bs := by
  induction as with
  | nil => exact fun n => rfl
  | cons j as ih =>
    intro n
    rw [List.cons_append, lead, lead]
    split_ifs
    · exact ih _
    · exact ih _
    · exact ih _

lemma lead_le {m k : ℕ} (js : List (Job B)) : ∀ {n}, n ≤ k → (∀ j ∈ js, j.last ≤ k) →
    lead m n js ≤ k := by
  induction js with
  | nil => exact fun hn _ => hn
  | cons j js ih =>
    intro n hn hjs
    obtain ⟨hj, hrest⟩ := List.forall_mem_cons.mp hjs
    rw [lead]
    split_ifs
    · exact ih hj hrest
    · exact ih (Nat.zero_le k) hrest
    · exact ih hn hrest

/-! ### The file system -/

lemma lastWrite_onDisk (j : Job B) (files : List (String × B)) (m : ℕ) (p : String) :
    lastWrite (j.onDisk files) (m, p) = if j.backend = m then lastWrite files p else none := by
  induction files with
  | nil => simp [Job.onDisk]
  | cons f files ih =>
    rw [show j.onDisk (f :: files) = ((j.backend, f.1), f.2) :: j.onDisk files from rfl,
      lastWrite_cons, ih, lastWrite_cons]
    by_cases hm : j.backend = m
    · simp [hm]
    · simp [hm]

lemma holds_zero (s : Service B) (m : ℕ) : Holds s m 0 := fun p b h => by simp at h

lemma holds_other {s s' : Service B} {m n : ℕ} {j : Job B} {files : List (String × B)}
    (h : Holds s m n) (hm : j.backend ≠ m) (hstaged : s'.staged = s.staged)
    (hdisk : s'.disk = s.disk ++ j.onDisk files) : Holds s' m n := by
  intro p b hp
  rw [hstaged] at hp
  rw [hdisk, lastWrite_append, lastWrite_onDisk, if_neg hm]
  exact h p b hp

lemma take_split {β : Type} (l : List β) {i k : ℕ} (h : i ≤ k) :
    l.take k = l.take i ++ (l.take k).drop i :=
  calc l.take k = (l.take k).take i ++ (l.take k).drop i := (List.take_append_drop i _).symm
    _ = l.take i ++ (l.take k).drop i := by rw [List.take_take, Nat.min_eq_left h]

lemma lastWrite_between {l : List (String × B)} {i n k : ℕ} {p : String} 
    (hnk : n ≤ k) (h : lastWrite ((l.take k).drop i) p = none) :
    lastWrite ((l.take n).drop i) p = none := by
  have hsub : (l.take n).drop i ⊆ (l.take k).drop i :=
    ((List.take_prefix_take_left hnk).sublist.drop i).subset
  rw [lastWrite_eq_none_iff] at h ⊢
  exact fun hmem => h (List.map_subset Prod.fst hsub hmem)

lemma holds_write {s s' : Service B} {n : ℕ} {j : Job B} (h : Holds s j.backend n)
    (hfirst : j.first ≤ n) (hlast : n ≤ j.last)
    (hpending : j.pending = (s.staged.take j.last).drop j.first)
    (hstaged : s'.staged = s.staged) (hdisk : s'.disk = s.disk ++ j.onDisk j.pending) :
    Holds s' j.backend j.last := by
  intro p b hp
  rw [hstaged, take_split s.staged (Nat.le_trans hfirst hlast), lastWrite_append, ← hpending] at hp
  rw [hdisk, lastWrite_append, lastWrite_onDisk, if_pos rfl]
  cases hfiles : lastWrite j.pending p with
  | some b' =>
    rw [hfiles] at hp
    exact hp
  | none =>
    rw [hfiles] at hp
    -- None of the files that are there already is later than the last one at that path.
    have hbetween := lastWrite_between hlast (hpending ▸ hfiles)
    refine h p b ?_
    rw [take_split s.staged hfirst, lastWrite_append, hbetween]
    exact hp

/-! ### The invariant -/

/-- A module has the first files, and no write that is to come stops before them. -/
structure Fine (s : Service B) (m n : ℕ) : Prop where
  holds : Holds s m n
  le : n ≤ s.staged.length
  ahead : ∀ j ∈ s.jobs, n ≤ j.last

/-- What a call waits for leads to the files it has counted. -/
def Awaits (s : Service B) (w : Wait) : Prop :=
  w.failed = false → ∀ m, w.backend = some m → s.backend = some m →
    ∃ n, Fine s m n ∧ lead m n (s.jobs.take (w.target - s.answered)) = w.count

structure Sane (s : Service B) (c : Call) (w : Wait) : Prop where
  backend : ∀ m, w.backend = some m → m < s.modules
  answered : s.answered ≤ w.target
  target : w.target ≤ s.answered + s.jobs.length
  failed : w.failed = true → c.resolves = false
  awaits : Awaits s w

structure Inv (s : Service B) : Prop where
  backend : ∀ m, s.backend = some m → m < s.modules
  backends : ∀ j ∈ s.jobs, j.backend < s.modules
  disk : ∀ x ∈ s.disk, x.1.1 < s.modules
  pending : ∀ j ∈ s.jobs, j.pending = (s.staged.take j.last).drop j.first
  last : ∀ j ∈ s.jobs, j.last ≤ s.staged.length
  ordered : s.jobs.Pairwise fun i j => i.last ≤ j.last
  written : s.stagedWritten ≤ s.staged.length
  cover : ∀ m, s.backend = some m → ∃ n, Fine s m n ∧ s.stagedWritten ≤ lead m n s.jobs
  calls : ∀ c ∈ s.calls, ∀ w ∈ c.wait?, Sane s c w

variable {s t : Service B}

lemma fine_zero (s : Service B) (m : ℕ) : Fine s m 0 where
  holds := holds_zero s m
  le := Nat.zero_le _
  ahead := fun _ _ => Nat.zero_le _

/-- The writes stay as they are, and the module may be let go of. -/
lemma Inv.rest (h : Inv s) (hstaged : t.staged = s.staged) (hjobs : t.jobs = s.jobs)
    (hanswered : t.answered = s.answered) (hdisk : t.disk = s.disk)
    (hmodules : t.modules = s.modules) (hbackend : ∀ m, t.backend = some m → s.backend = some m)
    (hwritten : t.stagedWritten = s.stagedWritten ∨ t.stagedWritten = 0)
    (hcalls : ∀ c ∈ t.calls, ∀ w ∈ c.wait?, ∃ d ∈ s.calls, w ∈ d.wait? ∧
      d.resolves = c.resolves) : Inv t := by
  have hle : t.stagedWritten ≤ s.stagedWritten := by
    rcases hwritten with hw | hw
    · exact Nat.le_of_eq hw
    · exact hw ▸ Nat.zero_le _
  have hfine : ∀ {m n}, Fine s m n → Fine t m n := fun hf =>
    { holds := by
        rw [Holds, hstaged, hdisk]
        exact hf.holds
      le := hstaged ▸ hf.le
      ahead := hjobs ▸ hf.ahead }
  exact
    { backend := fun m hm => hmodules ▸ h.backend m (hbackend m hm)
      backends := by
        rw [hjobs, hmodules]
        exact h.backends
      disk := by
        rw [hdisk, hmodules]
        exact h.disk
      pending := by
        rw [hjobs, hstaged]
        exact h.pending
      last := by
        rw [hjobs, hstaged]
        exact h.last
      ordered := hjobs ▸ h.ordered
      written := hstaged ▸ Nat.le_trans hle h.written
      cover := fun m hm => by
        obtain ⟨n, hn, hlead⟩ := h.cover m (hbackend m hm)
        exact ⟨n, hfine hn, hjobs ▸ Nat.le_trans hle hlead⟩
      calls := fun c hc w hw => by
        obtain ⟨d, hd, hdw, hresolves⟩ := hcalls c hc w hw
        have hsane := h.calls d hd w hdw
        exact
          { backend := hmodules ▸ hsane.backend
            answered := hanswered ▸ hsane.answered
            target := by
              rw [hanswered, hjobs]
              exact hsane.target
            failed := hresolves ▸ hsane.failed
            awaits := fun hfailed m hm hbm => by
              obtain ⟨n, hn, hlead⟩ := hsane.awaits hfailed m hm (hbackend m hbm)
              refine ⟨n, hfine hn, ?_⟩
              rw [hanswered, hjobs]
              exact hlead } }

/-! ### Staging and flushing -/

/-- More files are staged. -/
lemma Inv.stage (h : Inv s) (files : List (String × B)) :
    Inv { s with staged := s.staged ++ files } := by
  have htake : ∀ {n}, n ≤ s.staged.length → (s.staged ++ files).take n = s.staged.take n :=
    fun hn => List.take_append_of_le_length hn
  have hlen : s.staged.length ≤ (s.staged ++ files).length := by
    rw [List.length_append]
    omega
  have hfine : ∀ {m n}, Fine s m n → Fine { s with staged := s.staged ++ files } m n := fun hf =>
    { holds := by
        intro p b hp
        rw [htake hf.le] at hp
        exact hf.holds p b hp
      le := Nat.le_trans hf.le hlen
      ahead := hf.ahead }
  exact
    { backend := h.backend
      backends := h.backends
      disk := h.disk
      pending := fun j hj => by
        rw [htake (h.last j hj)]
        exact h.pending j hj
      last := fun j hj => Nat.le_trans (h.last j hj) hlen
      ordered := h.ordered
      written := Nat.le_trans h.written hlen
      cover := fun m hm => by
        obtain ⟨n, hn, hlead⟩ := h.cover m hm
        exact ⟨n, hfine hn, hlead⟩
      calls := fun c hc w hw =>
        have hsane := h.calls c hc w hw
        { backend := hsane.backend
          answered := hsane.answered
          target := hsane.target
          failed := hsane.failed
          awaits := fun hfailed m hm hbm => by
            obtain ⟨n, hn, hlead⟩ := hsane.awaits hfailed m hm hbm
            exact ⟨n, hfine hn, hlead⟩ } }

lemma mem_queue {m : ℕ} {j : Job B} (h : s.stagedWritten ≤ s.staged.length)
    (hj : j ∈ (s.queue m).jobs) : j ∈ s.jobs ∨ j.backend = m ∧ j.last = s.staged.length ∧
      j.pending = s.staged.drop j.first := by
  rcases List.mem_append.mp hj with hj | hj
  · exact .inl hj
  · obtain rfl := List.mem_singleton.mp hj
    refine .inr ⟨rfl, ?_, rfl⟩
    rw [Job.last, List.length_drop]
    exact Nat.add_sub_cancel' h

lemma Inv.queue (h : Inv s) {m : ℕ} (hm : s.backend = some m) : Inv (s.queue m) := by
  have hmem := fun {j} => mem_queue (m := m) (j := j) h.written
  have hfine : ∀ {k n}, Fine s k n → Fine (s.queue m) k n := fun hf =>
    { holds := hf.holds
      le := hf.le
      ahead := fun j hj => by
        rcases hmem hj with hold | ⟨-, hlast, -⟩
        · exact hf.ahead j hold
        · exact hlast ▸ hf.le }
  exact
    { backend := h.backend
      backends := fun j hj => by
        rcases hmem hj with hold | ⟨rfl, -, -⟩
        · exact h.backends j hold
        · exact h.backend _ hm
      disk := h.disk
      pending := fun j hj => by
        rcases hmem hj with hold | ⟨-, hlast, hpending⟩
        · exact h.pending j hold
        · rw [hlast, hpending]
          exact (congrArg (List.drop j.first) List.take_length).symm
      last := fun j hj => by
        rcases hmem hj with hold | ⟨-, hlast, -⟩
        · exact h.last j hold
        · exact Nat.le_of_eq hlast
      ordered := by
        refine List.pairwise_append.mpr
          ⟨h.ordered, List.pairwise_singleton _ _, fun i hi j hj => ?_⟩
        have hlast : j.last = s.staged.length := by
          rw [List.mem_singleton.mp hj, Job.last, List.length_drop]
          exact Nat.add_sub_cancel' h.written
        exact hlast ▸ h.last i hi
      written := Nat.le_refl _
      cover := fun k hk => by
        obtain ⟨n, hn, hlead⟩ := h.cover k hk
        obtain rfl : m = k := Option.some.inj (hm.symm.trans hk)
        refine ⟨n, hfine hn, ?_⟩
        rw [Service.queue, lead_append, lead, if_pos rfl, if_pos hlead, Job.last,
          List.length_drop]
        exact Nat.le_of_eq (Nat.add_sub_cancel' h.written).symm
      calls := fun c hc w hw =>
        have hsane := h.calls c hc w hw
        { backend := hsane.backend
          answered := hsane.answered
          target := by
            have hle := hsane.target
            rw [Service.queue, List.length_append]
            exact Nat.le_trans hle (Nat.add_le_add_left (Nat.le_add_right _ _) _)
          failed := hsane.failed
          awaits := fun hfailed k hk hbk => by
            obtain ⟨n, hn, hlead⟩ := hsane.awaits hfailed k hk hbk
            refine ⟨n, hfine hn, ?_⟩
            have hle := hsane.target
            rw [Service.queue, List.take_append_of_le_length (Nat.sub_le_iff_le_add'.mpr hle)]
            exact hlead } }

lemma Inv.sane (h : Inv s) (hall : s.backend = none ∨ s.staged.length = s.stagedWritten)
    (c : Call) :
    Sane s c ⟨s.backend, s.staged.length, s.answered + s.jobs.length, false⟩ where
  backend := h.backend
  answered := Nat.le_add_right _ _
  target := Nat.le_refl _
  failed := fun hf => absurd hf Bool.false_ne_true
  awaits := by
    intro _ m _ hm
    obtain ⟨n, hn, hlead⟩ := h.cover m hm
    have hwritten : s.staged.length = s.stagedWritten := by
      rcases hall with hnone | hall
      · rw [hnone] at hm
        exact absurd hm (by simp)
      · exact hall
    refine ⟨n, hn, ?_⟩
    dsimp only
    rw [Nat.add_sub_cancel_left, List.take_length]
    have hle := lead_le (m := m) s.jobs hn.le h.last
    omega

lemma flushStaged_spec (h : Inv s) :
    Inv s.flushStaged.1 ∧ s.flushStaged.1.calls = s.calls ∧
      ∀ c, Sane s.flushStaged.1 c s.flushStaged.2 := by
  rw [Service.flushStaged]
  cases hm : s.backend with
  | none => exact ⟨h, rfl, fun c => by simpa only [hm] using h.sane (.inl hm) c⟩
  | some m =>
    split_ifs with hall
    · exact ⟨h, rfl, fun c => by simpa only [hm] using h.sane (.inr hall) c⟩
    · refine ⟨h.queue hm, rfl, fun c => ?_⟩
      have hsane := (h.queue hm).sane (.inr rfl) c
      rw [show (s.queue m).backend = some m from hm] at hsane
      exact hsane

/-- A call flushes. -/
lemma Inv.flush (h : Inv s) {calls : List Call} (hcalls : ∀ c ∈ calls, ∀ w ∈ c.wait?,
      w = s.flushStaged.2 ∨ c ∈ s.calls) :
    Inv { s.flushStaged.1 with calls := calls } := by
  obtain ⟨hi, hsame, hsane⟩ := flushStaged_spec h
  exact
    { backend := hi.backend
      backends := hi.backends
      disk := hi.disk
      pending := hi.pending
      last := hi.last
      ordered := hi.ordered
      written := hi.written
      cover := fun m hm => by
        obtain ⟨n, hn, hlead⟩ := hi.cover m hm
        exact ⟨n, ⟨hn.holds, hn.le, hn.ahead⟩, hlead⟩
      calls := fun c hc w hw => by
        have hs : Sane s.flushStaged.1 c w := by
          rcases hcalls c hc w hw with rfl | hold
          · exact hsane c
          · exact hi.calls c (hsame ▸ hold) w hw
        exact
          { backend := hs.backend
            answered := hs.answered
            target := hs.target
            failed := hs.failed
            awaits := fun hfailed m hm hbm => by
              obtain ⟨n, hn, hlead⟩ := hs.awaits hfailed m hm hbm
              exact ⟨n, ⟨hn.holds, hn.le, hn.ahead⟩, hlead⟩ } }

/-! ### The answer to a write -/

/-- How many files a module has after a write, if it has succeeded. -/
def next (m n : ℕ) (j : Job B) : ℕ :=
  if j.backend = m then (if j.first ≤ n then j.last else 0) else n

lemma lead_cons (m n : ℕ) (j : Job B) (js : List (Job B)) :
    lead m n (j :: js) = lead m (next m n j) js := by
  rw [lead, next]
  split_ifs <;> rfl

section Answer

variable {j : Job B} {rest : List (Job B)} {files : List (String × B)}

lemma Inv.head (h : Inv s) (hj : s.jobs = j :: rest) :
    j.backend < s.modules ∧ j.pending = (s.staged.take j.last).drop j.first ∧
      j.last ≤ s.staged.length ∧ ∀ i ∈ rest, j.last ≤ i.last := by
  have hmem : j ∈ s.jobs := hj ▸ List.mem_cons_self
  have hordered := h.ordered
  rw [hj] at hordered
  exact ⟨h.backends j hmem, h.pending j hmem, h.last j hmem, (List.pairwise_cons.mp hordered).1⟩

lemma Inv.fine_next (h : Inv s) (hj : s.jobs = j :: rest) {m n : ℕ} (hf : Fine s m n)
    (hfiles : j.backend = m → files = j.pending) (hstaged : t.staged = s.staged)
    (hjobs : t.jobs = rest) (hdisk : t.disk = s.disk ++ j.onDisk files) :
    Fine t m (next m n j) := by
  obtain ⟨-, hpending, hlast, hrest⟩ := h.head hj
  rw [next]
  split_ifs with hm hfirst
  · obtain rfl := hfiles hm
    subst hm
    have hahead := hf.ahead j (hj ▸ List.mem_cons_self)
    exact
      { holds := holds_write hf.holds hfirst hahead hpending hstaged hdisk
        le := hstaged ▸ hlast
        ahead := hjobs ▸ hrest }
  · exact fine_zero t m
  · exact
      { holds := holds_other hf.holds hm hstaged hdisk
        le := hstaged ▸ hf.le
        ahead := fun i hi => hf.ahead i (hj ▸ List.mem_cons_of_mem _ (hjobs ▸ hi)) }

lemma Inv.awaits_next (h : Inv s) (hj : s.jobs = j :: rest) {c : Call} {w : Wait}
    (hs : Sane s c w) (hlt : s.answered < w.target)
    (hfiles : w.failed = false → w.backend = some j.backend → files = j.pending)
    (hstaged : t.staged = s.staged) (hjobs : t.jobs = rest) (hbackend : t.backend = s.backend)
    (hanswered : t.answered = s.answered + 1) (hdisk : t.disk = s.disk ++ j.onDisk files) :
    Awaits t w := by
  intro hfailed m hm hbm
  obtain ⟨n, hn, hlead⟩ := hs.awaits hfailed m hm (hbackend ▸ hbm)
  refine ⟨next m n j, h.fine_next hj hn (fun hjm => hfiles hfailed (hjm ▸ hm)) hstaged hjobs hdisk,
    ?_⟩
  have hone : w.target - s.answered = w.target - (s.answered + 1) + 1 := by omega
  rw [hj, hone, List.take_succ_cons, lead_cons] at hlead
  rw [hjobs, hanswered]
  exact hlead

/-- A write has been answered. -/
lemma Inv.answer (h : Inv s) (hj : s.jobs = j :: rest)
    (hready : ∀ c ∈ s.calls, ∀ w ∈ c.wait?, s.answered < w.target)
    (hstaged : t.staged = s.staged) (hjobs : t.jobs = rest) (hbackend : t.backend = s.backend)
    (hmodules : t.modules = s.modules) (hanswered : t.answered = s.answered + 1)
    (hdisk : t.disk = s.disk ++ j.onDisk files)
    (hwritten : files = j.pending ∧ t.stagedWritten = s.stagedWritten ∨ t.stagedWritten = 0)
    (hcalls : ∀ d ∈ t.calls, ∀ v ∈ d.wait?, ∃ c ∈ s.calls, ∃ w ∈ c.wait?,
      v = { w with failed := v.failed } ∧ (v.failed = true → d.resolves = false) ∧
        (v.failed = false → w.failed = false ∧
          (w.backend = some j.backend → files = j.pending))) : Inv t := by
  obtain ⟨hmod, hpending, hlast, hrest⟩ := h.head hj
  have hold : ∀ i ∈ t.jobs, i ∈ s.jobs := fun i hi => hj ▸ List.mem_cons_of_mem _ (hjobs ▸ hi)
  have hordered := h.ordered
  rw [hj] at hordered
  exact
    { backend := fun m hm => hmodules ▸ h.backend m (hbackend ▸ hm)
      backends := fun i hi => hmodules ▸ h.backends i (hold i hi)
      disk := fun x hx => by
        rw [hdisk] at hx
        rw [hmodules]
        rcases List.mem_append.mp hx with hx | hx
        · exact h.disk x hx
        · obtain ⟨f, -, rfl⟩ := List.mem_map.mp hx
          exact hmod
      pending := fun i hi => hstaged ▸ h.pending i (hold i hi)
      last := fun i hi => hstaged ▸ h.last i (hold i hi)
      ordered := hjobs ▸ (List.pairwise_cons.mp hordered).2
      written := by
        rw [hstaged]
        rcases hwritten with ⟨-, hw⟩ | hw
        · exact hw ▸ h.written
        · exact hw ▸ Nat.zero_le _
      cover := fun m hm => by
        rcases hwritten with ⟨hall, hw⟩ | hw
        · obtain ⟨n, hn, hlead⟩ := h.cover m (hbackend ▸ hm)
          refine ⟨next m n j, h.fine_next hj hn (fun _ => hall) hstaged hjobs hdisk, ?_⟩
          rw [hj, lead_cons] at hlead
          rw [hjobs, hw]
          exact hlead
        · exact ⟨0, fine_zero t m, Nat.le_trans (Nat.le_of_eq hw) (Nat.zero_le _)⟩
      calls := fun d hd v hv => by
        obtain ⟨c, hc, w, hw, hv', hresolves, hfine⟩ := hcalls d hd v hv
        have hs := h.calls c hc w hw
        have hlt := hready c hc w hw
        have hb : v.backend = w.backend := by rw [hv']
        have ht : v.target = w.target := by rw [hv']
        have hn : v.count = w.count := by rw [hv']
        exact
          { backend := by
              rw [hb, hmodules]
              exact hs.backend
            answered := by
              rw [ht, hanswered]
              exact hlt
            target := by
              have hle := hs.target
              rw [hj, List.length_cons] at hle
              rw [hjobs]
              omega
            failed := hresolves
            awaits := fun hfailed => by
              obtain ⟨hwf, hfiles⟩ := hfine hfailed
              have ha := h.awaits_next hj hs hlt (fun _ => hfiles) hstaged hjobs hbackend hanswered
                hdisk hwf
              rw [hb, ht, hn]
              exact ha } }

end Answer

/-! ### Steps -/

variable {place : String → String}

/-- A call waits for what it has waited for, or for nothing yet. -/
def Old (s : Service B) (c : Call) : Prop := c ∈ s.calls ∨ c.wait? = none

lemma mem_set {c d : Call} {i : ℕ} (hd : d.wait? = none) (hc : c ∈ s.calls.set i d) : Old s c := by
  rcases List.mem_or_eq_of_mem_set hc with hc | rfl
  · exact .inl hc
  · exact .inr hd

lemma Inv.keep (h : Inv s) (hstaged : t.staged = s.staged) (hjobs : t.jobs = s.jobs)
    (hanswered : t.answered = s.answered) (hdisk : t.disk = s.disk)
    (hmodules : t.modules = s.modules) (hbackend : ∀ m, t.backend = some m → s.backend = some m)
    (hwritten : t.stagedWritten = s.stagedWritten ∨ t.stagedWritten = 0)
    (hcalls : ∀ c ∈ t.calls, Old s c) : Inv t :=
  h.rest hstaged hjobs hanswered hdisk hmodules hbackend hwritten fun c hc w hw => by
    rcases hcalls c hc with hold | hnone
    · exact ⟨c, hold, hw, rfl⟩
    · rw [hnone] at hw
      exact absurd hw (by simp)

lemma Inv.loads (h : Inv s) (i : ℕ) (c : Call) : Inv (loads s i c) := by
  refine h.flush fun d hd w hw => ?_
  obtain ⟨-, hsame, -⟩ := flushStaged_spec h
  rw [hsame] at hd
  rcases List.mem_or_eq_of_mem_set hd with hd | rfl
  · exact .inr hd
  · exact .inl (Option.some.inj hw).symm

lemma Inv.import (h : Inv s) (files : List (ProjectFile B)) (dir : String) :
    Inv (importProjectFiles place s files dir) := by
  refine (h.stage _).flush fun d hd w hw => ?_
  obtain ⟨-, hsame, -⟩ := flushStaged_spec (h.stage _)
  rw [hsame] at hd
  rcases List.mem_append.mp hd with hd | hd
  · exact .inr hd
  · rw [List.mem_singleton.mp hd] at hw
    exact .inl (Option.some.inj hw).symm

lemma Inv.create (h : Inv s) : Inv { s with
    backend := some s.modules
    modules := s.modules + 1
    wasmDead := false
    stagedWritten := 0 } where
  backend := fun m hm => Option.some.inj hm ▸ Nat.lt_succ_self _
  backends := fun j hj => Nat.lt_succ_of_lt (h.backends j hj)
  disk := fun x hx => Nat.lt_succ_of_lt (h.disk x hx)
  pending := h.pending
  last := h.last
  ordered := h.ordered
  written := Nat.zero_le _
  cover := fun m _ => ⟨0, fine_zero _ m, Nat.zero_le _⟩
  calls := fun c hc w hw =>
    have hs := h.calls c hc w hw
    { backend := fun m hm => Nat.lt_succ_of_lt (hs.backend m hm)
      answered := hs.answered
      target := hs.target
      failed := hs.failed
      awaits := fun _ m hm hbm => by
        have hlt := hs.backend m hm
        rw [← Option.some.inj hbm] at hlt
        exact absurd hlt (Nat.lt_irrefl _) }

lemma lt_of_not_ready (h : s.calls.any s.ready = false) :
    ∀ c ∈ s.calls, ∀ w ∈ c.wait?, s.answered < w.target := by
  intro c hc w hw
  have hnot := List.any_eq_false.mp h c hc
  rw [Service.ready, show c.wait? = some w from hw, Option.any_some, decide_eq_true_eq] at hnot
  exact Nat.lt_of_not_le hnot

lemma fail_wait? {m : ℕ} {c : Call} {v : Wait} (hv : v ∈ (c.fail m).wait?) :
    ∃ w ∈ c.wait?, v = { w with failed := v.failed } ∧ (c.fail m).resolves = c.resolves ∧
      ((w.backend = some m ∧ v.failed = true) ∨ (w.backend ≠ some m ∧ v.failed = w.failed)) := by
  rw [Call.fail] at hv ⊢
  cases hstage : c.stage with
  | flushing w =>
    have hw : w ∈ c.wait? := by
      rw [Call.wait?, hstage]
      rfl
    rw [hstage] at hv
    dsimp only at hv ⊢
    split_ifs at hv ⊢ with hm
    · obtain rfl := Option.some.inj hv
      exact ⟨w, hw, rfl, rfl, .inl ⟨hm, rfl⟩⟩
    · obtain rfl := Option.some.inj (Eq.trans (Eq.symm hw) hv)
      exact ⟨w, hw, rfl, rfl, .inr ⟨hm, rfl⟩⟩
  | package | shutdown | create =>
    rw [hstage] at hv
    rw [Call.wait?, hstage] at hv
    exact absurd hv (by simp)

/-- **One step** keeps the invariant. -/
theorem inv_step (s : Service B) (e : Event B) (t : Service B) (h : Inv s) (hok : Minded s e)
    (hstep : step place s e = some t) : Inv t := by
  have hid : ∀ c ∈ s.calls, Old s c := fun c hc => .inl hc
  have herase : ∀ i, ∀ c ∈ s.calls.eraseIdx i, Old s c := fun i c hc =>
    .inl (List.mem_of_mem_eraseIdx hc)
  cases e with
  | importProjectFiles files dir =>
    obtain rfl := Option.some.inj hstep
    exact h.import files dir
  | loadWasm =>
    obtain rfl := Option.some.inj hstep
    refine h.keep rfl rfl rfl rfl rfl (fun _ => id) (.inl rfl) fun c hc => ?_
    rcases List.mem_append.mp hc with hc | hc
    · exact .inl hc
    · rw [List.mem_singleton.mp hc]
      exact .inr rfl
  | packaged i =>
    obtain ⟨c, -, rfl⟩ := Option.map_eq_some_iff.mp hstep
    split_ifs
    · exact h.loads i c
    · exact h.keep rfl rfl rfl rfl rfl (fun _ => id) (.inl rfl) fun d hd => mem_set rfl hd
    · exact h.keep rfl rfl rfl rfl rfl (fun _ => id) (.inl rfl) fun d hd => mem_set rfl hd
  | shutDown i =>
    obtain ⟨c, -, rfl⟩ := Option.map_eq_some_iff.mp hstep
    exact h.keep rfl rfl rfl rfl rfl (fun m hm => absurd hm (by simp)) (.inl rfl) fun d hd =>
      mem_set rfl hd
  | created i =>
    obtain ⟨c, -, rfl⟩ := Option.map_eq_some_iff.mp hstep
    exact h.create.loads i c
  | notLoaded i =>
    obtain ⟨c, -, rfl⟩ := Option.map_eq_some_iff.mp hstep
    exact h.keep rfl rfl rfl rfl rfl (fun _ => id) (.inl rfl) (herase i)
  | resume i =>
    obtain ⟨c, -, rfl⟩ := Option.map_eq_some_iff.mp hstep
    exact h.keep rfl rfl rfl rfl rfl (fun _ => id) (.inl rfl) (herase i)
  | answer ok k torn =>
    rw [step] at hstep
    cases hj : s.jobs with
    | nil =>
      rw [hj] at hstep
      exact absurd hstep (by simp)
    | cons j rest =>
      rw [hj] at hstep
      split_ifs at hstep with hready
      obtain rfl := Option.some.inj hstep
      have hlt := lt_of_not_ready (Bool.eq_false_iff.mpr hready)
      cases ok with
      | true =>
        exact h.answer hj hlt rfl rfl rfl rfl rfl rfl (.inl ⟨rfl, rfl⟩) fun c hc w hw =>
          ⟨c, hc, w, hw, rfl, (h.calls c hc w hw).failed, fun hfailed => ⟨hfailed, fun _ => rfl⟩⟩
      | false =>
        refine h.answer hj hlt rfl rfl rfl rfl rfl rfl (.inr rfl) fun d hd v hv => ?_
        obtain ⟨c, hc, rfl⟩ := List.mem_map.mp hd
        obtain ⟨w, hw, hv', hresolves, hcase⟩ := fail_wait? hv
        refine ⟨c, hc, w, hw, hv', ?_, ?_⟩
        · intro hfailed
          rw [hresolves]
          rcases hcase with ⟨hm, -⟩ | ⟨-, hsame⟩
          · -- The call is not to resolve, since its write has failed.
            cases hr : c.resolves with
            | false => rfl
            | true => exact absurd hm (hok j (by simp [hj]) c hc hr w hw)
          · exact (h.calls c hc w hw).failed (hsame ▸ hfailed)
        · intro hfailed
          rcases hcase with ⟨-, htrue⟩ | ⟨hne, hsame⟩
          · rw [htrue] at hfailed
            exact absurd hfailed (by simp)
          · exact ⟨hsame ▸ hfailed, fun hm => absurd hm hne⟩
  | abort =>
    obtain rfl := Option.some.inj hstep
    exact h.keep rfl rfl rfl rfl rfl (fun _ => id) (.inl rfl) hid
  | exit m =>
    obtain rfl := Option.some.inj hstep
    exact h.keep rfl rfl rfl rfl rfl (fun _ => id) (.inl rfl) hid
  | stopKiCad =>
    obtain rfl := Option.some.inj hstep
    exact h.keep rfl rfl rfl rfl rfl (fun m hm => absurd hm (by simp)) (.inr rfl) hid
  | teardown keepModule =>
    rw [step] at hstep
    split_ifs at hstep
    · exact Option.some.inj hstep ▸ h
    · obtain rfl := Option.some.inj hstep
      exact h.keep rfl rfl rfl rfl rfl (fun m hm => absurd hm (by simp)) (.inl rfl) hid
  | closed i =>
    obtain ⟨m, -, rfl⟩ := Option.map_eq_some_iff.mp hstep
    exact h.keep rfl rfl rfl rfl rfl (fun _ => id) (.inr rfl) hid

/-! ### Every run -/

lemma inv_new : Inv ({} : Service B) where
  backend := fun m hm => absurd hm (by simp)
  backends := fun j hj => absurd hj (by simp)
  disk := fun x hx => absurd hx (by simp)
  pending := fun j hj => absurd hj (by simp)
  last := fun j hj => absurd hj (by simp)
  ordered := List.Pairwise.nil
  written := Nat.le_refl _
  cover := fun m hm => absurd hm (by simp)
  calls := fun c hc => absurd hc (by simp)

/-- A call goes on when the last write it waits for has been answered. -/
lemma Inv.reached (h : Inv s) {i : ℕ} (hok : Minded s (.resume i))
    (hstep : step place s (.resume i) = some t) {c : Call} (hc : s.calls[i]? = some c)
    (hresolves : c.resolves = true) {w : Wait} (hw : w ∈ c.wait?) : Reached s w := by
  have hs := h.calls c (List.mem_of_getElem? hc) w hw
  have hfailed : w.failed = false := by
    cases hf : w.failed with
    | false => rfl
    | true => exact absurd (hs.failed hf) (by simp [hresolves])
  refine ⟨hfailed, fun m hm => ?_⟩
  have hlive : s.backend = some m := (Option.filter_eq_some_iff.mp hm).1
  rcases hok c hc hresolves w hw m hm with hback | hcount
  · obtain ⟨n, hn, hlead⟩ := hs.awaits hfailed m hback hlive
    obtain ⟨d, hd, -⟩ := Option.map_eq_some_iff.mp hstep
    obtain ⟨hd, hready⟩ := Option.filter_eq_some_iff.mp hd
    obtain rfl := Option.some.inj (hc.symm.trans hd)
    rw [Service.ready, show c.wait? = some w from hw, Option.any_some, decide_eq_true_eq] at hready
    rw [Nat.sub_eq_zero_of_le hready] at hlead
    exact hlead ▸ hn.holds
  · rw [hcount]
    exact holds_zero s m

/-- **Staged files reach the module**: whenever a call of `importProjectFiles()` or `loadWasm()`
resolves, no write it has waited for has failed, and the live module has the files that were
staged. -/
theorem staged_reach (place : String → String) {events : List (Event B)}
    (hok : Along (step place) Minded {} events) :
    ∀ x ∈ steps (step place) ({} : Service B) events, ∀ i, x.2.1 = .resume i →
      ∀ c ∈ x.1.calls[i]?, c.resolves = true → ∀ w ∈ c.wait?, Reached x.1 w := by
  intro x hx i hi c hc hresolves w hw
  obtain ⟨hinv, hminded, hstep⟩ := steps_along Inv inv_step inv_new hok x hx
  rw [hi] at hminded hstep
  exact hinv.reached hminded hstep hc hresolves hw

/-! ### Imports that go well, and imports that do not -/

def demo : ProjectFile String where
  name := "demo.kicad_pro"
  bytes := "{}"

/-- A module is loaded, a file is imported, the module is stopped and another one is loaded. -/
def importedAgain : List (Event String) :=
  [.loadWasm, .packaged 0, .created 0, .resume 0, .importProjectFiles [demo] "/project",
    .answer true 0 none, .resume 0, .stopKiCad, .teardown false, .loadWasm, .packaged 0, .created 0,
    .answer true 0 none, .resume 0]

theorem importedAgain_reached :
    (steps (step id) ({} : Service String) importedAgain).length = 14 ∧
      ∀ x ∈ steps (step id) ({} : Service String) importedAgain, ∀ i, x.2.1 = .resume i →
        ∀ c ∈ x.1.calls[i]?, c.resolves = true → ∀ w ∈ c.wait?, Reached x.1 w :=
  ⟨by decide +kernel, staged_reach id (by decide +kernel)⟩

/-- The write of an import fails. -/
def importFails : List (Event String) :=
  [.loadWasm, .packaged 0, .created 0, .resume 0, .importProjectFiles [demo] "/project",
    .answer false 0 none]

/-- The module is there when the import goes on, but was not when it flushed. -/
def loadedMeanwhile : List (Event String) :=
  [.loadWasm, .packaged 0, .importProjectFiles [demo] "/project", .created 0]

/-- **Otherwise they may not**: an import resolves after its write has failed, and one resolves
beside a module that has been loaded since and is still empty. -/
theorem staged_missing :
    (∃ s ∈ run (step id) ({} : Service String) importFails, (step id s (.resume 0)).isSome ∧
      ∃ c ∈ s.calls[0]?, c.resolves = true ∧ ∃ w ∈ c.wait?, w.failed = true ∧
        ∃ m ∈ s.live, ¬ Holds s m w.count) ∧
    ∃ s ∈ run (step id) ({} : Service String) loadedMeanwhile, (step id s (.resume 1)).isSome ∧
      ∃ c ∈ s.calls[1]?, c.resolves = true ∧ ∃ w ∈ c.wait?, ¬ Reached s w := by
  decide +kernel

end FabPcb.StagedWrites
