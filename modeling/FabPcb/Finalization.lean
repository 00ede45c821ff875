import FabPcb.CommitRun

/-!
What the finalizers of a commit do to each other.

`finalizing` keeps a second `push()` out while the first awaits its `EndCommit`, and `ended`
keeps everything out after it. Neither is set while a drop is awaited, so what holds of a
`push()` and a drop holds of runs where one is over before the other sends.
-/

namespace FabPcb.Finalization

open OrderedMap Errors Runs CommitRun

variable {P : Type*} {cfg : Config P} {s s' : State P}

/-! ### Logs -/

def Event.commits : Event P → Bool
  | .endCommit _ .CMA_COMMIT => true
  | _ => false

def Event.drops : Event P → Bool
  | .endCommit _ .CMA_DROP => true
  | _ => false

def Event.ends : Event P → Bool
  | .ended => true
  | _ => false

/-- Nothing that `q` tells of comes after something that `p` tells of. -/
def NoneAfter (p q : Event P → Bool) (log : List (Event P)) : Prop :=
  log.Pairwise fun e e' => p e = true → q e' = false

lemma noneAfter_append {p q : Event P → Bool} {log es : List (Event P)} (h : NoneAfter p q log)
    (hes : ∀ e ∈ es, q e = false) : NoneAfter p q (log ++ es) := by
  refine List.pairwise_append.mpr ⟨h, ?_, fun e _ e' he' _ => hes e' he'⟩
  exact List.pairwise_of_forall_mem_list fun e _ e' he' _ => hes e' he'

lemma noneAfter_snoc {p q : Event P → Bool} {log : List (Event P)} {e : Event P}
    (h : NoneAfter p q log) (hlog : ∀ e' ∈ log, p e' = false) : NoneAfter p q (log ++ [e]) := by
  refine List.pairwise_append.mpr ⟨h, List.pairwise_singleton _ _, fun e' he' _ _ hp => ?_⟩
  rw [hlog e' he'] at hp
  cases hp

/-! ### The flags -/

/-- One `push()` at a time holds `finalizing`, and once a `CMA_COMMIT` is sent a flag stays. -/
structure Flags (s : State P) : Prop where
  holds : ∀ n, heldBy s n = true → s.finalizing = true
  unique : ∀ n m, heldBy s n = true → heldBy s m = true → n = m
  ended : .ended ∈ s.log → s.ended = true
  committed : ∀ e ∈ s.log, Event.commits e = true → s.ended = true ∨ s.finalizing = true
  once : s.log.countP Event.commits ≤ 1
  order : NoneAfter Event.ends Event.commits s.log

lemma flags_new : Flags (State.new : State P) := by
  refine ⟨fun n h => ?_, fun n m h => ?_, fun h => ?_, fun e h => ?_, Nat.zero_le _,
    List.Pairwise.nil⟩ <;> cases h

/-- The flags through a step that sends no `CMA_COMMIT`. -/
lemma flags_append (es : List (Event P)) (h : Flags s) (hlog : s'.log = s.log ++ es)
    (hes : ∀ e ∈ es, Event.commits e = false) (hheld : ∀ n, heldBy s' n = true → heldBy s n = true)
    (hended : s.ended = true ∨ .ended ∈ es → s'.ended = true)
    (hfinalizing : s.finalizing = true → s'.finalizing = true ∨
      s'.ended = true ∧ ∀ n, heldBy s' n = false) : Flags s' := by
  refine ⟨fun n hn => ?_, fun n m hn hm => h.unique n m (hheld n hn) (hheld m hm), fun he => ?_,
    fun e he hc => ?_, ?_, ?_⟩
  · rcases hfinalizing (h.holds n (hheld n hn)) with hf | ⟨-, hnone⟩
    · exact hf
    · rw [hnone n] at hn
      cases hn
  · rw [hlog, List.mem_append] at he
    exact hended (he.imp h.ended id)
  · rw [hlog, List.mem_append] at he
    rcases he with he | he
    · rcases h.committed e he hc with hend | hf
      · exact Or.inl (hended (Or.inl hend))
      · exact (hfinalizing hf).elim Or.inr fun hf' => Or.inl hf'.1
    · rw [hes e he] at hc
      cases hc
  · have hzero : es.countP Event.commits = 0 :=
      List.countP_eq_zero.mpr fun e he => by simp [hes e he]
    rw [hlog, List.countP_append, hzero]
    exact h.once
  · rw [hlog]
    exact noneAfter_append h.order hes

lemma heldBy_mono {n : ℕ} {pc : Pc} (hprocs : s'.procs = s.procs.set n pc)
    (hpc : pc.holds = true → heldBy s n = true) (m : ℕ) (hm : heldBy s' m = true) :
    heldBy s m = true := by
  rw [heldBy_set hprocs] at hm
  split_ifs at hm with hmn
  · exact hmn ▸ hpc hm
  · exact hm

lemma commits_finish {n : ℕ} {e : Event P} {q : Prop}
    (he : (e = .dropped n ∨ ∃ error, e = .raised n error) ∨ e = .pushed n ∧ q) :
    ∀ e' ∈ [.ended, e], Event.commits e' = false := by
  rcases he with (rfl | ⟨error, rfl⟩) | ⟨rfl, -⟩ <;> simp [Event.commits]

lemma heldBy_finish {n : ℕ} {pc : Pc} (h : Flags s) (hn : s.procs.get? n = some pc)
    (hprocs : s'.procs = s.procs.set n .done) (hpc : pc.holds = true) (m : ℕ) :
    heldBy s' m = false := by
  by_contra hm
  rw [heldBy_set hprocs] at hm
  split_ifs at hm with hmn
  · exact hm rfl
  · exact hmn (h.unique m n (by simpa using hm) ((heldBy_of_get? hn).trans hpc))

/-- **Step.** A `CMA_COMMIT` is sent with neither flag set, so it is the first, and sets one. -/
lemma flags_step {a : Action P} (h : Flags s) (hstep : step cfg s a = some s') : Flags s' := by
  cases step_effect hstep with
  | items ha es hes hlog hprocs hended hfinalizing =>
    refine flags_append es h hlog (fun e he => ?_) (fun n hn => ?_) ?_ (fun hf => ?_)
    · have hitem := hes e he
      cases e <;> first | rfl | exact hitem.elim
    · simpa [heldBy, hprocs] using hn
    · rintro (he | he)
      · exact hended.trans he
      · exact (hes _ he).elim
    · exact Or.inl (hfinalizing.trans hf)
  | move n pc hdone hpc hcommitting hsent hholds =>
    exact flags_append [] h (by simp [State.goto]) (by simp)
      (heldBy_mono rfl fun hpc => hholds ▸ hpc) (by simp [State.goto]) Or.inl
  | ignore n hn hended =>
    exact flags_append [.ignored n] h rfl (by simp [Event.commits])
      (heldBy_mono rfl fun hpc => by cases hpc) (by simp [State.goto, State.say]) Or.inl
  | quit n e he hn =>
    refine flags_append [e] h rfl ?_ (heldBy_mono rfl fun hpc => by cases hpc) ?_ Or.inl
    · rcases he with rfl | ⟨error, rfl⟩ <;> simp [Event.commits]
    · rcases he with rfl | ⟨error, rfl⟩ <;> simp [State.goto, State.say]
  | commit n hn hended hfinalizing hid =>
    have hnone : ∀ e ∈ s.log, Event.commits e = false := by
      intro e he
      by_contra hc
      have hflag := h.committed e he (by simpa using hc)
      simp [hended, hfinalizing] at hflag
    have hheld : ∀ m, m ≠ n → heldBy (s.goto n .committing) m = false := by
      intro m hmn
      rw [heldBy_set rfl, if_neg hmn]
      by_contra hm
      have hflag := h.holds m (by simpa using hm)
      simp [hfinalizing] at hflag
    have honly : ∀ m, heldBy (s.goto n .committing) m = true → m = n := by
      intro m hm
      by_contra hmn
      rw [hheld m hmn] at hm
      cases hm
    refine ⟨fun m _ => rfl, fun m m' hm hm' => (honly m hm).trans (honly m' hm').symm,
      fun he => ?_, fun e _ _ => Or.inr rfl, ?_, ?_⟩
    · exact h.ended (by simpa [State.goto, State.say] using he)
    · have hzero : s.log.countP Event.commits = 0 :=
        List.countP_eq_zero.mpr fun e he => by simp [hnone e he]
      simp [State.goto, State.say, List.countP_append, hzero, Event.commits]
    · refine noneAfter_snoc h.order fun e he => ?_
      cases e <;> first | rfl | simp [h.ended he] at hended
  | drop n hn hended hid =>
    exact flags_append [.endCommit n .CMA_DROP] h rfl (by simp [Event.commits])
      (heldBy_mono rfl fun hpc => by cases hpc) (by simp [State.goto, State.say]) Or.inl
  | recover n byPush cause hn hid =>
    exact flags_append [.endCommit n .CMA_DROP] h rfl (by simp [Event.commits])
      (heldBy_mono rfl fun hpc => (heldBy_of_get? hn).trans hpc) (by simp [State.goto, State.say])
      Or.inl
  | finish n pc e hn hdone he =>
    refine flags_append [.ended, e] h rfl (commits_finish he)
      (heldBy_mono rfl fun hpc => by cases hpc) (fun _ => rfl) fun hf => ?_
    cases hpc : pc.holds with
    | true => exact Or.inr ⟨rfl, heldBy_finish h hn rfl hpc⟩
    | false => exact Or.inl (by simpa using hf)

/-! ### Who sent what -/

/-- A finalizer sends its `EndCommit`s before it is over, an ignored `push()` sends none, and a
commit without an id sees none at all. -/
structure Sends (cfg : Config P) (s : State P) : Prop where
  sent : ∀ n action, .endCommit n action ∈ s.log →
    sentBy s n = true ∨ s.procs.get? n = some .done
  ignored : ∀ n, .ignored n ∈ s.log →
    s.procs.get? n = some .done ∧ ∀ action, .endCommit n action ∉ s.log
  oneShot : cfg.id = "" → ∀ n action, .endCommit n action ∉ s.log

lemma sends_new : Sends cfg (State.new : State P) := by
  refine ⟨fun n action h => ?_, fun n h => ?_, fun _ n action h => ?_⟩ <;> cases h

/-- A finalizer that is not over goes on, and what is seen of it is its own. -/
lemma sends_append {n : ℕ} {pc : Pc} (es : List (Event P)) (h : Sends cfg s)
    (hdone : s.procs.get? n ≠ some .done) (hprocs : s'.procs = s.procs.set n pc)
    (hlog : s'.log = s.log ++ es)
    (hsent : sentBy s n = true ∨ (∃ action, .endCommit n action ∈ es) →
      pc.sent = true ∨ pc = .done)
    (hends : ∀ m action, .endCommit m action ∈ es → m = n ∧ cfg.id ≠ "")
    (hignored : ∀ m, .ignored m ∈ es →
      m = n ∧ pc = .done ∧ sentBy s n = false ∧ ∀ action, .endCommit n action ∉ es) :
    Sends cfg s' := by
  have hget : ∀ m, s'.procs.get? m = if m = n then some pc else s.procs.get? m := by
    intro m
    rw [hprocs, OMap.get?_set]
  refine ⟨fun m action he => ?_, fun m he => ?_, fun hid m action he => ?_⟩
  · rw [hlog, List.mem_append] at he
    by_cases hmn : m = n
    · subst hmn
      have hpc : pc.sent = true ∨ pc = .done := by
        refine hsent (he.elim (fun he => Or.inl ?_) fun he => Or.inr ⟨action, he⟩)
        exact (h.sent m action he).resolve_right hdone
      rw [sentBy_set hprocs, if_pos rfl, hget, if_pos rfl]
      exact hpc.imp_right (congrArg some)
    · have hm := h.sent m action (he.resolve_right fun he => hmn (hends m action he).1)
      rwa [sentBy_set hprocs, if_neg hmn, hget, if_neg hmn]
  · rw [hlog, List.mem_append] at he
    rcases he with he | he
    · obtain ⟨hm, hnone⟩ := h.ignored m he
      have hmn : m ≠ n := fun hmn => hdone (hmn ▸ hm)
      refine ⟨by rwa [hget, if_neg hmn], fun action hin => ?_⟩
      rw [hlog, List.mem_append] at hin
      exact hin.elim (hnone action) fun hin => hmn (hends m action hin).1
    · obtain ⟨rfl, hpc, hunsent, hnone⟩ := hignored m he
      refine ⟨by rw [hget, if_pos rfl, hpc], fun action hin => ?_⟩
      rw [hlog, List.mem_append] at hin
      refine hin.elim (fun hin => ?_) (hnone action)
      rcases h.sent m action hin with hs | hd
      · rw [hunsent] at hs
        cases hs
      · exact hdone hd
  · rw [hlog, List.mem_append] at he
    exact he.elim (h.oneShot hid m action) fun he => (hends m action he).2 hid

/-- **Step.** -/
lemma sends_step {a : Action P} (h : Sends cfg s) (hstep : step cfg s a = some s') :
    Sends cfg s' := by
  cases step_effect hstep with
  | items ha es hes hlog hprocs hended hfinalizing =>
    have hin : ∀ e, ¬ e.isItem → e ∈ s'.log → e ∈ s.log := by
      intro e he hmem
      rw [hlog, List.mem_append] at hmem
      exact hmem.resolve_right fun hmem => he (hes e hmem)
    refine ⟨fun n action he => ?_, fun n he => ?_, fun hid n action he => ?_⟩
    · simpa only [sentBy, hprocs] using h.sent n action (hin _ id he)
    · obtain ⟨hn, hnone⟩ := h.ignored n (hin _ id he)
      exact ⟨hprocs ▸ hn, fun action hend => hnone action (hin _ id hend)⟩
    · exact h.oneShot hid n action (hin _ id he)
  | move n pc hdone hpc hcommitting hsent hholds =>
    refine sends_append [] h hdone rfl (by simp [State.goto]) ?_ (by simp) (by simp)
    rintro (hs | ⟨action, he⟩)
    · exact Or.inl (hsent.trans hs)
    · cases he
  | ignore n hn hended =>
    refine sends_append [.ignored n] h (by simp [hn]) rfl rfl (fun _ => Or.inr rfl)
      (by simp) fun m hm => ?_
    simp only [List.mem_singleton, Event.ignored.injEq] at hm
    exact ⟨hm, rfl, sentBy_of_get? hn, by simp⟩
  | quit n e he hn =>
    obtain ⟨pc, hpc, hdone, hunsent⟩ := hn
    refine sends_append [e] h (by simpa [hpc] using hdone) rfl rfl (fun _ => Or.inr rfl)
      ?_ ?_ <;> rcases he with rfl | ⟨error, rfl⟩ <;> simp
  | commit n hn hended hfinalizing hid =>
    refine sends_append [.endCommit n .CMA_COMMIT] h (by simp [hn]) rfl rfl
      (fun _ => Or.inl rfl) (fun m action hm => ?_) (by simp)
    simp only [List.mem_singleton, Event.endCommit.injEq] at hm
    exact ⟨hm.1, hid⟩
  | drop n hn hended hid =>
    refine sends_append [.endCommit n .CMA_DROP] h (by simp [hn]) rfl rfl
      (fun _ => Or.inl rfl) (fun m action hm => ?_) (by simp)
    simp only [List.mem_singleton, Event.endCommit.injEq] at hm
    exact ⟨hm.1, hid⟩
  | recover n byPush cause hn hid =>
    refine sends_append [.endCommit n .CMA_DROP] h (by simp [hn]) rfl rfl
      (fun _ => Or.inl rfl) (fun m action hm => ?_) (by simp)
    simp only [List.mem_singleton, Event.endCommit.injEq] at hm
    exact ⟨hm.1, hid⟩
  | finish n pc e hn hdone he =>
    refine sends_append [.ended, e] h (by simpa [hn] using hdone) rfl rfl
      (fun _ => Or.inr rfl) ?_ ?_ <;>
      rcases he with (rfl | ⟨error, rfl⟩) | ⟨rfl, -⟩ <;> simp

/-! ### A push and a drop -/

/-- A finalizer sends its `EndCommit` apart from the others: a `push()` with no drop awaited,
a drop with no `CMA_COMMIT` awaited, and the drop of a failed callback with no `push()` done. -/
def Apart (cfg : Config P) (s : State P) : Action P → Prop
  | .resume n => sendsEnd cfg.id s n = true →
    match s.procs.get? n with
    | some (.drained .push) => ∀ m, sentBy s m = false
    | some (.drained .drop) => ∀ m, s.procs.get? m ≠ some .committing
    | some (.drained (.recover false _)) =>
      (∀ m, s.procs.get? m ≠ some .committing) ∧ ∀ m, .pushed m ∉ s.log
    | _ => True
  | _ => True

/-- A drop sent is awaited or has ended the commit, and none is sent while a `CMA_COMMIT` is
awaited or after a `push()`. -/
structure Clear (s : State P) : Prop where
  dropped : ∀ e ∈ s.log, Event.drops e = true → s.ended = true ∨ ∃ n, sentBy s n = true
  committing : ∀ n, s.procs.get? n = some .committing → ∀ e ∈ s.log, Event.drops e = false
  pushed : ∀ n, .pushed n ∈ s.log → (∀ e ∈ s.log, Event.drops e = false) ∧ s.ended = true ∧
    ∀ m, heldBy s m = false
  order : NoneAfter Event.drops Event.commits s.log

lemma committing_of_set {n : ℕ} {pc : Pc} (hprocs : s'.procs = s.procs.set n pc)
    (hpc : pc ≠ .committing) (m : ℕ) (hm : s'.procs.get? m = some .committing) :
    s.procs.get? m = some .committing := by
  rw [hprocs, OMap.get?_set] at hm
  split_ifs at hm
  · exact absurd (Option.some.inj hm) hpc
  · exact hm

lemma clear_new : Clear (State.new : State P) := by
  refine ⟨fun e h => ?_, fun n h => ?_, fun n h => ?_, List.Pairwise.nil⟩ <;> cases h

/-- A step that sends no `EndCommit` and resolves no `push()`. -/
lemma clear_append (es : List (Event P)) (h : Clear s) (hlog : s'.log = s.log ++ es)
    (hes : ∀ e ∈ es, Event.drops e = false ∧ Event.commits e = false ∧ ∀ n, e ≠ .pushed n)
    (hended : s.ended = true → s'.ended = true)
    (hsent : ∀ n, sentBy s n = true → s'.ended = true ∨ sentBy s' n = true)
    (hheld : ∀ n, heldBy s' n = true → heldBy s n = true)
    (hcommitting : ∀ n, s'.procs.get? n = some .committing → s.procs.get? n = some .committing) :
    Clear s' := by
  have hdrops : (∀ e ∈ s.log, Event.drops e = false) → ∀ e ∈ s'.log, Event.drops e = false := by
    intro hs e he
    rw [hlog, List.mem_append] at he
    exact he.elim (hs e) fun he => (hes e he).1
  refine ⟨fun e he hd => ?_, fun n hn => hdrops (h.committing n (hcommitting n hn)),
    fun n hn => ?_, ?_⟩
  · rw [hlog, List.mem_append] at he
    rcases he with he | he
    · rcases h.dropped e he hd with hend | ⟨n, hn⟩
      · exact Or.inl (hended hend)
      · exact (hsent n hn).imp_right fun hn => ⟨n, hn⟩
    · rw [(hes e he).1] at hd
      cases hd
  · rw [hlog, List.mem_append] at hn
    obtain ⟨hlast, hend, hnone⟩ := h.pushed n (hn.resolve_right fun hn => (hes _ hn).2.2 n rfl)
    refine ⟨hdrops hlast, hended hend, fun m => ?_⟩
    by_contra hm
    have hm' := hheld m (by simpa using hm)
    rw [hnone m] at hm'
    cases hm'
  · rw [hlog]
    exact noneAfter_append h.order fun e he => (hes e he).2.1

lemma clear_drop {n : ℕ} {pc : Pc} (h : Clear s) (hprocs : s'.procs = s.procs.set n pc)
    (hlog : s'.log = s.log ++ [.endCommit n .CMA_DROP]) (hpc : pc.sent = true)
    (hcommitting : pc ≠ .committing) (hnone : ∀ m, s.procs.get? m ≠ some .committing)
    (hpushed : ∀ m, .pushed m ∉ s.log) : Clear s' := by
  refine ⟨fun e _ _ => Or.inr ⟨n, ?_⟩, fun m hm => ?_, fun m hm => ?_, ?_⟩
  · rw [sentBy_set hprocs, if_pos rfl, hpc]
  · exact absurd (committing_of_set hprocs hcommitting m hm) (hnone m)
  · rw [hlog, List.mem_append] at hm
    exact absurd (hm.resolve_right (by simp)) (hpushed m)
  · rw [hlog]
    exact noneAfter_append h.order (by simp [Event.commits])

lemma pushed_notMem (h : Clear s) (hs : s.ended = false ∨ ∃ m, heldBy s m = true) (n : ℕ) :
    .pushed n ∉ s.log := by
  intro hn
  obtain ⟨-, hended, hnone⟩ := h.pushed n hn
  rcases hs with hs | ⟨m, hm⟩
  · rw [hs] at hended
    cases hended
  · rw [hnone m] at hm
    cases hm

/-- **Step.** -/
lemma clear_step {a : Action P} (h : Clear s) (hflags : Flags s) (hsends : Sends cfg s)
    (hapart : Apart cfg s a) (hstep : step cfg s a = some s') : Clear s' := by
  cases step_effect hstep with
  | items ha es hes hlog hprocs hended hfinalizing =>
    refine clear_append es h hlog (fun e he => ?_) (fun hs => hended.trans hs)
      (fun n hn => Or.inr ?_) (fun n hn => ?_) (fun n hn => hprocs ▸ hn)
    · have hitem := hes e he
      cases e <;> first | exact hitem.elim | exact ⟨rfl, rfl, fun n => by simp⟩
    · simpa only [sentBy, hprocs] using hn
    · simpa only [heldBy, hprocs] using hn
  | move n pc hdone hpc hcommitting hsent hholds =>
    refine clear_append [] h (by simp [State.goto]) (by simp) id (fun m hm => Or.inr ?_)
      (heldBy_mono rfl fun hpc => hholds ▸ hpc) (committing_of_set rfl hcommitting)
    rw [sentBy_set rfl]
    split_ifs with hmn
    · rw [hsent, ← hmn, hm]
    · exact hm
  | ignore n hn hended =>
    exact clear_append [.ignored n] h rfl (by simp [Event.drops, Event.commits]) id
      (fun m hm => Or.inl hended) (heldBy_mono rfl fun hpc => by cases hpc)
      (committing_of_set rfl (by simp))
  | quit n e he hn =>
    obtain ⟨pc, hpc, hdone, hunsent⟩ := hn
    refine clear_append [e] h rfl ?_ id (fun m hm => Or.inr ?_)
      (heldBy_mono rfl fun hpc => by cases hpc) (committing_of_set rfl (by simp))
    · rcases he with rfl | ⟨error, rfl⟩ <;> simp [Event.drops, Event.commits]
    · rw [sentBy_set rfl]
      split_ifs with hmn
      · rw [hmn, sentBy_of_get? hpc, hunsent] at hm
        cases hm
      · exact hm
  | commit n hn hended hfinalizing hid =>
    have hfree : ∀ m, sentBy s m = false := by
      simpa [Apart, sendsEnd, hn, hended, hfinalizing, hid] using hapart
    have hnone : ∀ e ∈ s.log, Event.drops e = false := by
      intro e he
      by_contra hd
      rcases h.dropped e he (by simpa using hd) with hend | ⟨m, hm⟩
      · rw [hended] at hend
        cases hend
      · rw [hfree m] at hm
        cases hm
    have hnone' : ∀ e ∈ s.log ++ [.endCommit n .CMA_COMMIT], Event.drops e = false := by
      intro e he
      rcases List.mem_append.mp he with he | he
      · exact hnone e he
      · rw [List.mem_singleton.mp he]
        rfl
    refine ⟨fun e he hd => ?_, fun m _ => hnone', fun m hm => ?_, noneAfter_snoc h.order hnone⟩
    · rw [hnone' e he] at hd
      cases hd
    · exact absurd (by simpa [State.goto, State.say] using hm) (pushed_notMem h (Or.inl hended) m)
  | drop n hn hended hid =>
    have hnone : ∀ m, s.procs.get? m ≠ some .committing := by
      simpa [Apart, sendsEnd, hn, hended, hid] using hapart
    exact clear_drop h rfl rfl rfl (by simp) hnone (pushed_notMem h (Or.inl hended))
  | recover n byPush cause hn hid =>
    cases byPush with
    | false =>
      obtain ⟨hnone, hpushed⟩ : (∀ m, s.procs.get? m ≠ some .committing) ∧
          ∀ m, .pushed m ∉ s.log := by
        simpa [Apart, sendsEnd, hn, hid] using hapart
      exact clear_drop h rfl rfl rfl (by simp) hnone hpushed
    | true =>
      -- the `push()` whose commit failed is the only one that holds `finalizing`
      have hheld : heldBy s n = true := heldBy_of_get? hn
      refine clear_drop h rfl rfl rfl (by simp) (fun m hm => ?_)
        (pushed_notMem h (Or.inr ⟨n, hheld⟩))
      have hmn := hflags.unique m n (heldBy_of_get? hm) hheld
      rw [hmn, hn] at hm
      cases hm
  | finish n pc e hn hdone he =>
    rcases he with he | ⟨rfl, hpush⟩
    · refine clear_append [.ended, e] h rfl ?_ (fun _ => rfl) (fun m hm => Or.inl rfl)
        (heldBy_mono rfl fun hpc => by cases hpc) (committing_of_set rfl (by simp))
      rcases he with rfl | ⟨error, rfl⟩ <;> simp [Event.drops, Event.commits]
    · -- a `push()` resolves: its `CMA_COMMIT` went through, or the commit has no id
      have hnone : ∀ e ∈ s.log ++ [.ended, .pushed n], Event.drops e = false := by
        intro e he
        rcases List.mem_append.mp he with he | he
        · rcases hpush with rfl | ⟨hid, -⟩
          · exact h.committing n hn e he
          · have hsent := hsends.oneShot hid
            cases e <;> first | rfl | exact absurd he (hsent _ _)
        · rcases List.mem_cons.mp he with rfl | he
          · rfl
          · rw [List.mem_singleton.mp he]
            rfl
      refine ⟨fun e he hd => ?_, fun m _ => hnone, fun m _ => ⟨hnone, rfl, fun m' => ?_⟩,
        noneAfter_append h.order (by simp [Event.commits])⟩
      · rw [hnone e he] at hd
        cases hd
      · rcases hpush with rfl | ⟨-, hfree⟩
        · exact heldBy_finish hflags hn rfl rfl m'
        · by_contra hm
          have hheld : heldBy s m' = true :=
            heldBy_mono (show _ = s.procs.set n .done from rfl) (fun hpc => by cases hpc) m'
              (by simpa using hm)
          rw [hflags.holds m' hheld] at hfree
          cases hfree

/-! ### Runs -/

/-- The invariant of runs whose finalizers are apart. -/
structure Inv (cfg : Config P) (s : State P) : Prop where
  flags : Flags s
  sends : Sends cfg s
  clear : Clear s

end FabPcb.Finalization
