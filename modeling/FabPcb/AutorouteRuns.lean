import FabPcb.AutorouteService

/-!
What holds of the autoroute service as long as what is listed in `Minded` does not go wrong, and
that the replies a call gets keep it.

A call can do harm to the run of another once a run counts as finished before its call does. With
`Minded`, no call waits along with another. `Books` is what is written down and never changes;
`Busy` is what the fields of the service are while its one call waits.
-/

namespace FabPcb.AutorouteRuns

open Runs AutorouteEvents AutorouteService

variable {R P F : Type}

/-! ### What must not happen -/

/-- A finished run keeps its state through the events. -/
def Keeps (now : ℕ) : AutorouteRun R P F → List (SseEvent P F) → Prop
  | _, [] => True
  | r, ev :: evs =>
    (r.state.isFinished = true → (applyBridgeEvent r ev now).state = r.state) ∧
      Keeps now (applyBridgeEvent r ev now) evs

instance decidableKeeps (now : ℕ) : ∀ (r : AutorouteRun R P F) (evs : List (SseEvent P F)),
    Decidable (Keeps now r evs)
  | _, [] => isTrue trivial
  | r, ev :: evs =>
    have := decidableKeeps now (applyBridgeEvent r ev now) evs
    inferInstanceAs (Decidable ((r.state.isFinished = true →
      (applyBridgeEvent r ev now).state = r.state) ∧ Keeps now (applyBridgeEvent r ev now) evs))

/-- The run after some events. -/
def folded (now : ℕ) (r : AutorouteRun R P F) (evs : List (SseEvent P F)) : AutorouteRun R P F :=
  evs.foldl (fun r ev => applyBridgeEvent r ev now) r

/-- What a call is told does no harm. -/
def ReplyMinded (now : ℕ) (s : Service R P F) (c : Call) : Reply P F → Prop
  -- The run has not been cancelled before its job was known.
  | .posted _ => c.run ∉ s.aborted
  -- Nothing in the stream goes back on the end of the run.
  | .chunk evs rest => ∀ r ∈ s.run,
      Keeps now r evs ∧ ((folded now r evs).state.isFinished = true →
        Keeps now (folded now r evs) rest)
  | .closed rest => ∀ r ∈ s.run, Keeps now r rest
  -- The board can be read again after a run that is done.
  | .rejected _ => c.point ≠ .resyncing
  | _ => True

instance (now : ℕ) (s : Service R P F) (c : Call) :
    ∀ reply : Reply P F, Decidable (ReplyMinded now s c reply)
  | .posted _ => inferInstanceAs (Decidable (c.run ∉ s.aborted))
  | .chunk evs rest => inferInstanceAs (Decidable (∀ r ∈ s.run,
      Keeps now r evs ∧ ((folded now r evs).state.isFinished = true →
        Keeps now (folded now r evs) rest)))
  | .closed rest => inferInstanceAs (Decidable (∀ r ∈ s.run, Keeps now r rest))
  | .rejected _ => inferInstanceAs (Decidable (c.point ≠ .resyncing))
  | .opened _ | .resynced | .counted _ | .refilled | .warned _ | .extracted _ | .progressed _ _
  | .routed _ | .applied | .measured | .summarised _ => isTrue trivial

/-- The jobs of the run have ended, or a `DELETE` has been sent for each. -/
def Over (s : Service R P F) (k : ℕ) : Prop :=
  ∀ j, (k, j) ∈ s.created → j ∈ s.ended ∨ j ∈ s.deleted

instance (s : Service R P F) (k : ℕ) : Decidable (Over s k) :=
  decidable_of_iff (∀ x ∈ s.created, x.1 = k → x.2 ∈ s.ended ∨ x.2 ∈ s.deleted)
    ⟨fun h _ hj => h _ hj rfl, fun h x hx hk => h x.2 (hk ▸ hx)⟩

def Minded (s : Service R P F) : Event R P F → Prop
  -- No run starts before the call of the last one has ended.
  | .start _ board _ => s.running = false → board = true → s.calls = []
  | .reply k now r => ∀ c ∈ s.calls, c.run = k → ReplyMinded now s c r
  -- The timer after a `DELETE` aborts the run that this was for, or one with no job left.
  | .timer i => ∀ t ∈ s.timers[i]?, fires s t = true →
      t.abort = some t.target ∨ ∀ a ∈ t.abort, Over s a
  | _ => True

instance (s : Service R P F) : ∀ e : Event R P F, Decidable (Minded s e)
  | .start _ board _ =>
    inferInstanceAs (Decidable (s.running = false → board = true → s.calls = []))
  | .reply k now r =>
    inferInstanceAs (Decidable (∀ c ∈ s.calls, c.run = k → ReplyMinded now s c r))
  | .timer i => inferInstanceAs (Decidable (∀ t ∈ s.timers[i]?, fires s t = true →
      t.abort = some t.target ∨ ∀ a ∈ t.abort, Over s a))
  | .settle _ _ | .cancel | .deleteReply _ => isTrue trivial

/-! ### What holds -/

def bridged (r : AutorouteRun R P F) : Prop := r.request.router ≠ .jsTab

instance (r : AutorouteRun R P F) : Decidable (bridged r) :=
  inferInstanceAs (Decidable (r.request.router ≠ .jsTab))

/-- A finished run keeps its state. -/
def Lasting (x y : ℕ × AutorouteRun R P F) : Prop :=
  x.2.id = y.2.id → x.2.state.isFinished = true → y.2.state = x.2.state

instance (x y : ℕ × AutorouteRun R P F) : Decidable (Lasting x y) :=
  inferInstanceAs (Decidable (x.2.id = y.2.id → x.2.state.isFinished = true →
    y.2.state = x.2.state))

structure Books (s : Service R P F) : Prop where
  owners : ∀ x ∈ s.history, x.2.id = x.1 ∧ x.1 ≤ s.seq
  lasting : s.history.Pairwise Lasting
  latest : ∀ r ∈ s.run, (r.id, r) ∈ s.history ∧ ∀ x ∈ s.history, Lasting x (r.id, r)
  jobs : ∀ x ∈ s.created, x.1 ≤ s.seq
  jobsOver : ∀ x ∈ s.history, x.2.state = .cancelled → bridged x.2 → Over s x.2.id
  told : ∀ k ∈ s.cancels ++ s.timers.map (·.target), ∀ j, (k, j) ∈ s.created → j ∈ s.deleted
  known : ∀ k ∈ s.cancels ++ s.timers.map (·.target), k ∈ s.created.map Prod.fst
  settled : ∀ x ∈ s.settled, ∃ r, x.2 = some r ∧ r.id = x.1 ∧ r.state.isFinished = true
  calls : ∀ k, 1 ≤ k → k ≤ s.seq → k ∈ s.calls.map (·.run) ∨ k ∈ s.settled.map Prod.fst

/-- Where the call waits says what its run is. -/
def Fits (s : Service R P F) (c : Call) (r : AutorouteRun R P F) : Prop :=
  match c.point with
  | .posting => c.job = none ∧ r.state.isFinished = false
  | .resyncing | .counting | .returned => r.state = .done
  | .thrown e =>
    (r.state.isFinished = true →
      r.state = if c.run ∈ s.aborted ∨ e.routeCancelled = true then .cancelled else .failed) ∧
    (e.routeCancelled = true → bridged r → Over s c.run)
  | _ => r.state.isFinished = false

/-- The fields of the service are those of a call. -/
structure Own (s : Service R P F) (c : Call) (r : AutorouteRun R P F) : Prop where
  run : s.run = some r
  id : r.id = c.run
  abort : s.abort = some c.run
  jobId : s.jobId = c.job
  job : ∀ j, (c.run, j) ∈ s.created ↔ c.job = some j
  aborted : c.run ∈ s.aborted → Over s c.run

structure Busy (s : Service R P F) (c : Call) (r : AutorouteRun R P F) : Prop
    extends Own s c r where
  calls : s.calls = [c]
  fits : Fits s c r

structure Idle (s : Service R P F) : Prop where
  calls : s.calls = []
  run : ∀ r ∈ s.run, r.state.isFinished = true
  abort : s.abort = none
  jobId : s.jobId = none

def Inv (s : Service R P F) : Prop := Books s ∧ (Idle s ∨ ∃ c r, Busy s c r)

/-! ### Setting the run -/

section Setting

variable {s : Service R P F} {c : Call} {r : AutorouteRun R P F}

lemma patch_eq (hrun : s.run = some r) (k : ℕ) (f : AutorouteRun R P F → AutorouteRun R P F) :
    s.patch k f = s.set k (f r) := by
  rw [Service.patch, hrun]

lemma patch_calls (s : Service R P F) (k : ℕ) (f : AutorouteRun R P F → AutorouteRun R P F) :
    (s.patch k f).calls = s.calls := by
  rw [Service.patch]
  cases s.run <;> rfl

lemma patch_seq (s : Service R P F) (k : ℕ) (f : AutorouteRun R P F → AutorouteRun R P F) :
    (s.patch k f).seq = s.seq := by
  rw [Service.patch]
  cases s.run <;> rfl

/-- A run is set to what it is to become. -/
lemma Books.set (h : Books s) (hrun : s.run = some r) {r' : AutorouteRun R P F}
    (hid : r'.id = r.id) (hlasting : r.state.isFinished = true → r'.state = r.state)
    (hover : r'.state = .cancelled → bridged r' → Over s r'.id) : Books (s.set r.id r') := by
  have hlatest := h.latest r (by simp [hrun])
  have hold : ∀ x ∈ s.history, Lasting x (r.id, r') := by
    intro x hx hxid hfin
    have hstate := hlatest.2 x hx (hxid.trans hid) hfin
    have hr : r.state.isFinished = true := by
      rw [show r.state = x.2.state from hstate]
      exact hfin
    exact (hlasting hr).trans hstate
  exact
    { owners := by
        intro x hx
        rcases List.mem_append.mp hx with hx | hx
        · exact h.owners x hx
        · rw [List.mem_singleton.mp hx]
          exact ⟨hid, (h.owners _ hlatest.1).2⟩
      lasting := List.pairwise_append.mpr ⟨h.lasting, List.pairwise_singleton _ _,
        fun x hx y hy => (List.mem_singleton.mp hy) ▸ hold x hx⟩
      latest := by
        intro r'' hr''
        obtain rfl : r' = r'' := Option.some.inj hr''
        rw [hid]
        refine ⟨List.mem_append_right _ (List.mem_singleton_self _), fun x hx => ?_⟩
        rcases List.mem_append.mp hx with hx | hx
        · exact hold x hx
        · rw [List.mem_singleton.mp hx]
          exact fun _ _ => rfl
      jobs := h.jobs
      jobsOver := by
        intro x hx
        rcases List.mem_append.mp hx with hx | hx
        · exact h.jobsOver x hx
        · rw [List.mem_singleton.mp hx]
          exact hover
      told := h.told
      known := h.known
      settled := h.settled
      calls := h.calls }

lemma Own.set (h : Own s c r) {r' : AutorouteRun R P F} (hid : r'.id = r.id) :
    Own (s.set c.run r') c r' where
  run := rfl
  id := hid.trans h.id
  abort := h.abort
  jobId := h.jobId
  job := h.job
  aborted := h.aborted

lemma Books.patch (h : Books s) (ho : Own s c r) {f : AutorouteRun R P F → AutorouteRun R P F}
    (hid : (f r).id = r.id) (hlasting : r.state.isFinished = true → (f r).state = r.state)
    (hover : (f r).state = .cancelled → bridged (f r) → Over s c.run) :
    Books (s.patch c.run f) ∧ Own (s.patch c.run f) c (f r) := by
  rw [patch_eq ho.run]
  refine ⟨?_, ho.set hid⟩
  rw [← ho.id]
  refine h.set ho.run hid hlasting fun hstate hbridged => ?_
  rw [hid, ho.id]
  exact hover hstate hbridged

lemma ne_cancelled {state : AutorouteState} (h : state.isFinished = false) :
    state ≠ .cancelled := by
  rintro rfl
  exact absurd h (by decide)

/-- A run of a number that none has had is set. -/
lemma Books.first (h : Books s) {n : ℕ} (hn : n = s.seq + 1) {r : AutorouteRun R P F}
    (hid : r.id = n) (hfin : r.state.isFinished = false) {abort : Option ℕ}
    {calls : List Call} (hcalls : n ∈ calls.map (·.run)) (hidle : s.calls = []) :
    Books { s.set n r with seq := n, abort := abort, calls := calls } := by
  have hfresh : ∀ x ∈ s.history, Lasting x (n, r) := by
    intro x hx hxid
    have hle := h.owners x hx
    exact absurd (hxid.trans hid) (by omega)
  have hnot : r.state ≠ .cancelled := ne_cancelled hfin
  exact
    { owners := by
        intro x hx
        change x.2.id = x.1 ∧ x.1 ≤ n
        rcases List.mem_append.mp hx with hx | hx
        · have hle := h.owners x hx
          exact ⟨hle.1, by omega⟩
        · rw [List.mem_singleton.mp hx]
          exact ⟨hid, Nat.le_refl n⟩
      lasting := List.pairwise_append.mpr ⟨h.lasting, List.pairwise_singleton _ _,
        fun x hx y hy => (List.mem_singleton.mp hy) ▸ hfresh x hx⟩
      latest := by
        intro r' hr'
        obtain rfl : r = r' := Option.some.inj hr'
        rw [hid]
        refine ⟨List.mem_append_right _ (List.mem_singleton_self _), fun x hx => ?_⟩
        rcases List.mem_append.mp hx with hx | hx
        · exact hfresh x hx
        · rw [List.mem_singleton.mp hx]
          exact fun _ _ => rfl
      jobs := by
        intro x hx
        have hle := h.jobs x hx
        change x.1 ≤ n
        omega
      jobsOver := by
        intro x hx hstate
        rcases List.mem_append.mp hx with hx | hx
        · exact h.jobsOver x hx hstate
        · rw [List.mem_singleton.mp hx] at hstate
          exact absurd hstate hnot
      told := h.told
      known := h.known
      settled := h.settled
      calls := by
        intro k hk hseq
        change k ≤ n at hseq
        rcases Nat.lt_or_ge k n with hlt | hge
        · have hold := h.calls k hk (by omega)
          rw [hidle] at hold
          exact .inr (hold.resolve_left (by simp))
        · obtain rfl : k = n := by omega
          exact .inl hcalls }

lemma Books.withCalls (h : Books s) {calls : List Call} (hcalls : ∀ k, 1 ≤ k → k ≤ s.seq →
      k ∈ calls.map (·.run) ∨ k ∈ s.settled.map Prod.fst) : Books { s with calls := calls } where
  owners := h.owners
  lasting := h.lasting
  latest := h.latest
  jobs := h.jobs
  jobsOver := h.jobsOver
  told := h.told
  known := h.known
  settled := h.settled
  calls := hcalls

lemma Books.withAborted (h : Books s) (aborted : List ℕ) : Books { s with aborted := aborted } where
  owners := h.owners
  lasting := h.lasting
  latest := h.latest
  jobs := h.jobs
  jobsOver := h.jobsOver
  told := h.told
  known := h.known
  settled := h.settled
  calls := h.calls

lemma Fits.congr {s' : Service R P F} (hfits : Fits s c r) (habort : c.ended = true →
    (c.run ∈ s'.aborted ↔ c.run ∈ s.aborted) ∨ r.state.isFinished = false)
    (hover : Over s c.run → Over s' c.run) : Fits s' c r := by
  rw [Fits] at hfits ⊢
  rw [Call.ended] at habort
  cases hpoint : c.point with
  | thrown e =>
    rw [hpoint] at hfits habort
    refine ⟨fun hfin => ?_, fun hroute hbridged => hover (hfits.2 hroute hbridged)⟩
    rcases habort rfl with hsame | hnot
    · rw [hfits.1 hfin]
      simp [hsame]
    · rw [hnot] at hfin
      exact absurd hfin Bool.false_ne_true
  | posting | fetching | reading | resyncing | counting | refilling | extracting | routing
  | applying | resyncingTab | measuring | countingTab | returned =>
    rw [hpoint] at hfits
    exact hfits

lemma Busy.running (h : Busy s c r) : s.running = !r.state.isFinished := by
  rw [Service.running, h.run, Option.any_some]

end Setting

/-! ### Replies -/

section Replies

variable {s : Service R P F} {c : Call} {r : AutorouteRun R P F} {next : Service R P F × Call}

/-- After a reply, the service is still that of the call. -/
structure Good (s : Service R P F) (c : Call) (next : Service R P F × Call) : Prop where
  calls : next.1.calls = s.calls
  seq : next.1.seq = s.seq
  run : next.2.run = c.run
  job : ∀ j, c.job = some j → next.2.job = some j
  books : Books next.1
  own : ∃ r, Own next.1 next.2 r ∧ Fits next.1 next.2 r

lemma good_goto {s' : Service R P F} (hcalls : s'.calls = s.calls) (hseq : s'.seq = s.seq)
    (hb : Books s') (ho : Own s' c r) (point : Point) (hf : Fits s' { c with point := point } r)
    (h : goto s' c point = some next) : Good s c next := by
  obtain rfl := Option.some.inj h
  exact
    { calls := hcalls
      seq := hseq
      run := rfl
      job := fun _ => id
      books := hb
      own := ⟨r, ⟨ho.run, ho.id, ho.abort, ho.jobId, ho.job, ho.aborted⟩, hf⟩ }

lemma good_thrown {s' : Service R P F} (hcalls : s'.calls = s.calls) (hseq : s'.seq = s.seq)
    (hb : Books s') (ho : Own s' c r) {message : String} {routeCancelled : Bool}
    (hstate : r.state.isFinished = true → r.state =
      if c.run ∈ s'.aborted ∨ routeCancelled = true then .cancelled else .failed)
    (hover : routeCancelled = true → bridged r → Over s' c.run)
    (h : fails s' c message routeCancelled = some next) : Good s c next :=
  good_goto hcalls hseq hb ho (.thrown ⟨message, routeCancelled⟩) ⟨hstate, hover⟩ h

lemma good_fails {s' : Service R P F} (hcalls : s'.calls = s.calls) (hseq : s'.seq = s.seq)
    (hb : Books s') (ho : Own s' c r) (hfin : r.state.isFinished = false) {message : String}
    {routeCancelled : Bool} (hover : routeCancelled = true → Over s' c.run)
    (h : fails s' c message routeCancelled = some next) : Good s c next :=
  good_thrown hcalls hseq hb ho (fun hr => absurd hr (by simp [hfin])) (fun hc _ => hover hc) h

lemma good_check {s' : Service R P F} (hcalls : s'.calls = s.calls) (hseq : s'.seq = s.seq)
    (hb : Books s') (ho : Own s' c r) (hfin : r.state.isFinished = false)
    {rest : Option (Service R P F × Call)} (hrest : rest = some next → Good s c next)
    (h : check s' c rest = some next) : Good s c next := by
  rw [check] at h
  split_ifs at h with habort
  · exact good_fails hcalls hseq hb ho hfin (fun _ => ho.aborted habort) h
  · exact hrest h

/-! ### The stream of a job -/

lemma isFinished_ends {now : ℕ} {ev : SseEvent P F} (hr : r.state.isFinished = false)
    (h : (applyBridgeEvent r ev now).state.isFinished = true) : ends ev = true := by
  rw [applyBridgeEvent] at h
  rw [ends]
  cases hdata : ev.data with
  | error text =>
    rw [hdata] at h
    exact absurd h (by simp [hr])
  | ok data =>
    rw [hdata] at h
    dsimp only at h
    by_cases hdone : ev.event = "done"
    · simp [hdone]
    by_cases herror : ev.event = "error"
    · simp [herror]
    have hstate : ((data.state.map bridgeState).getD r.state).isFinished = true := by
      split_ifs at h
      · exact h
      · exact h
    cases hs : data.state with
    | none => exact absurd hstate (by simp [hs, hr])
    | some state =>
      rw [hs] at hstate
      simp only [hs, Option.map_some, Option.getD_some, Bool.or_eq_true]
      exact .inr hstate

/-- Feeding events, one of which ends the job if any does. -/
lemma feed_own {now : ℕ} (evs : List (SseEvent P F)) : ∀ {s : Service R P F}
    {r : AutorouteRun R P F}, Books s → Own s c r → Keeps now r evs →
      ((∃ ev ∈ evs, ends ev = true) → ∀ j ∈ c.job, j ∈ s.ended) →
      Books (s.feed c.run now evs) ∧ Own (s.feed c.run now evs) c (folded now r evs) ∧
        (s.feed c.run now evs).calls = s.calls ∧ (s.feed c.run now evs).seq = s.seq ∧
        (s.feed c.run now evs).ended = s.ended ∧ (s.feed c.run now evs).deleted = s.deleted ∧
        (s.feed c.run now evs).created = s.created ∧
        (s.feed c.run now evs).aborted = s.aborted := by
  induction evs with
  | nil => intro s r hb ho _ _; exact ⟨hb, ho, rfl, rfl, rfl, rfl, rfl, rfl⟩
  | cons ev evs ih =>
    intro s r hb ho hkeeps hends
    obtain ⟨hid, hrequest⟩ := applyBridgeEvent_id r ev now
    have hover : (applyBridgeEvent r ev now).state = .cancelled →
        bridged (applyBridgeEvent r ev now) → Over s c.run := by
      intro hstate hbridged
      cases hfin : r.state.isFinished with
      | true =>
        have hr : r.state = .cancelled := (hkeeps.1 hfin).symm.trans hstate
        have hlatest := (hb.latest r (by simp [ho.run])).1
        rw [bridged, hrequest] at hbridged
        exact ho.id ▸ hb.jobsOver _ hlatest hr hbridged
      | false =>
        have hev : ends ev = true := isFinished_ends hfin (by rw [hstate]; rfl)
        intro j hj
        exact .inl (hends ⟨ev, List.mem_cons_self, hev⟩ j ((ho.job j).mp hj))
    have hstep := hb.patch (f := fun r => applyBridgeEvent r ev now) ho hid hkeeps.1 hover
    have hsame : ∀ {β : Type} (g : Service R P F → β), (∀ k r', g (s.set k r') = g s) →
        g (s.patch c.run fun r => applyBridgeEvent r ev now) = g s := by
      intro β g hg
      rw [patch_eq ho.run]
      exact hg _ _
    have hended := hsame (·.ended) fun _ _ => rfl
    obtain ⟨hb', ho', hcalls, hseq, hended', hdeleted, hcreated, haborted⟩ :=
      ih hstep.1 hstep.2 hkeeps.2 (by
        rw [hended]
        rintro ⟨ev', hev', hend⟩
        exact hends ⟨ev', List.mem_cons_of_mem _ hev', hend⟩)
    exact ⟨hb', ho', hcalls.trans (hsame (·.calls) fun _ _ => rfl),
      hseq.trans (hsame (·.seq) fun _ _ => rfl), hended'.trans hended,
      hdeleted.trans (hsame (·.deleted) fun _ _ => rfl),
      hcreated.trans (hsame (·.created) fun _ _ => rfl),
      haborted.trans (hsame (·.aborted) fun _ _ => rfl)⟩

lemma Books.ended (h : Books s) (js : List String) : Books { s with ended := s.ended ++ js } where
  owners := h.owners
  lasting := h.lasting
  latest := h.latest
  jobs := h.jobs
  jobsOver := fun x hx hstate hbridged j hj =>
    (h.jobsOver x hx hstate hbridged j hj).imp (List.mem_append_left _) id
  told := h.told
  known := h.known
  settled := h.settled
  calls := h.calls

lemma receive_own {now : ℕ} {evs : List (SseEvent P F)} (hb : Books s) (ho : Own s c r)
    (hkeeps : Keeps now r evs) :
    Books (receive now s c evs) ∧ Own (receive now s c evs) c (folded now r evs) ∧
      (receive now s c evs).calls = s.calls ∧ (receive now s c evs).seq = s.seq ∧
      (receive now s c evs).aborted = s.aborted := by
  have ho' : Own { s with ended := s.ended ++ c.job.toList } c r :=
    ⟨ho.run, ho.id, ho.abort, ho.jobId, ho.job, fun habort j hj =>
      (ho.aborted habort j hj).imp (List.mem_append_left _) id⟩
  rw [receive]
  by_cases hends : evs.any ends = true
  · obtain ⟨hb', ho'', hcalls, hseq, -, -, -, haborted⟩ :=
      feed_own evs (hb.ended c.job.toList) ho' hkeeps (by
        intro _ j hj
        exact List.mem_append_right _ (by simpa using hj))
    rw [if_pos hends]
    exact ⟨hb', ho'', hcalls, hseq, haborted⟩
  · obtain ⟨hb', ho'', hcalls, hseq, -, -, -, haborted⟩ :=
      feed_own evs hb ho hkeeps (by
        rintro ⟨ev, hev, hend⟩
        exact absurd (List.any_eq_true.mpr ⟨ev, hev, hend⟩) hends)
    rw [if_neg hends]
    exact ⟨hb', ho'', hcalls, hseq, haborted⟩

/-- What follows the loop over the stream. -/
lemma good_leaveStream {s' : Service R P F} (hcalls : s'.calls = s.calls) (hseq : s'.seq = s.seq)
    (hb : Books s') (ho : Own s' c r) (habort : c.run ∉ s'.aborted)
    (h : leaveStream s' c = some next) : Good s c next := by
  rw [leaveStream, ho.run] at h
  dsimp only at h
  cases hfin : r.state.isFinished with
  | false =>
    rw [hfin] at h
    exact good_fails hcalls hseq hb ho hfin (fun hc => absurd hc Bool.false_ne_true) h
  | true =>
    rw [hfin] at h
    by_cases hcancelled : r.state = .cancelled
    · rw [if_pos hcancelled] at h
      refine good_thrown hcalls hseq hb ho (fun _ => ?_) (fun _ hbridged => ?_) h
      · rw [hcancelled, if_pos (.inr rfl)]
      · have hlatest := (hb.latest r (by simp [ho.run])).1
        exact ho.id ▸ hb.jobsOver _ hlatest hcancelled hbridged
    · rw [if_neg hcancelled] at h
      by_cases hfailed : r.state = .failed
      · rw [if_pos hfailed] at h
        refine good_thrown hcalls hseq hb ho (fun _ => ?_) (fun hc => ?_) h
        · rw [hfailed, if_neg (by simp [habort])]
        · exact absurd hc Bool.false_ne_true
      · rw [if_neg hfailed] at h
        refine good_goto hcalls hseq hb ho .resyncing ?_ h
        show r.state = .done
        cases hstate : r.state with
        | done => rfl
        | failed => exact absurd hstate hfailed
        | cancelled => exact absurd hstate hcancelled
        | starting | filling | saving | extracting | routing | applying =>
          rw [hstate] at hfin
          exact absurd hfin Bool.false_ne_true

lemma good_patch (hb : Books s) (ho : Own s c r) (hfin : r.state.isFinished = false)
    {f : AutorouteRun R P F → AutorouteRun R P F} (hid : (f r).id = r.id)
    (hstate : (f r).state ≠ .cancelled) :
    Books (s.patch c.run f) ∧ Own (s.patch c.run f) c (f r) :=
  hb.patch ho hid (fun h => absurd h (by simp [hfin])) fun h => absurd h hstate

/-- The job is created. -/
lemma good_posted (hb : Books s) (ho : Own s c r) (hjob : c.job = none)
    (hfin : r.state.isFinished = false) (habort : c.run ∉ s.aborted) (job : String) :
    Good s c ({ s with jobId := some job, created := s.created ++ [(c.run, job)] },
      { c with point := .fetching, job := some job }) := by
  have hnone : ∀ j, (c.run, j) ∉ s.created := fun j hj => by
    rw [ho.job, hjob] at hj
    exact absurd hj (by simp)
  have hlatest := hb.latest r (by simp [ho.run])
  have hmem : ∀ {k : ℕ} {j : String}, k ≠ c.run → (k, j) ∈ s.created ++ [(c.run, job)] →
      (k, j) ∈ s.created := by
    intro k j hk hj
    rcases List.mem_append.mp hj with hj | hj
    · exact hj
    · exact absurd (congrArg Prod.fst (List.mem_singleton.mp hj)) hk
  have hother : ∀ k ∈ s.cancels ++ s.timers.map (·.target), k ≠ c.run := by
    rintro k hk rfl
    obtain ⟨⟨k, j⟩, hj, rfl⟩ := List.mem_map.mp (hb.known _ hk)
    exact hnone j hj
  exact
    { calls := rfl
      seq := rfl
      run := rfl
      job := fun j hj => absurd hj (by simp [hjob])
      books :=
        { owners := hb.owners
          lasting := hb.lasting
          latest := hb.latest
          jobs := by
            intro x hx
            rcases List.mem_append.mp hx with hx | hx
            · exact hb.jobs x hx
            · rw [List.mem_singleton.mp hx]
              exact ho.id ▸ (hb.owners _ hlatest.1).2
          jobsOver := by
            intro x hx hstate hbridged j hj
            refine hb.jobsOver x hx hstate hbridged j (hmem ?_ hj)
            -- The run of the call is not finished, so it has never been.
            intro hid
            have hlast : r.state = x.2.state :=
              hlatest.2 x hx (hid.trans ho.id.symm) (by rw [hstate]; rfl)
            rw [hlast, hstate] at hfin
            exact absurd hfin (by decide)
          told := fun k hk j hj => hb.told k hk j (hmem (hother k hk) hj)
          known := fun k hk => by
            rw [List.map_append]
            exact List.mem_append_left _ (hb.known k hk)
          settled := hb.settled
          calls := hb.calls }
      own := by
        refine ⟨r, ⟨ho.run, ho.id, ho.abort, rfl, fun j => ?_, fun h => absurd h habort⟩, hfin⟩
        constructor
        · intro hj
          rcases List.mem_append.mp hj with hj | hj
          · exact absurd hj (hnone j)
          · rw [← (Prod.mk.inj (List.mem_singleton.mp hj)).2]
        · intro hj
          rw [← Option.some.inj hj]
          exact List.mem_append_right _ (List.mem_singleton_self _) }

/-- **One reply.** -/
lemma good_react {now : ℕ} (hb : Books s) (ho : Own s c r) (hfits : Fits s c r)
    {reply : Reply P F} (hok : ReplyMinded now s c reply) (h : react now s c reply = some next) :
    Good s c next := by
  have hnot : false = true → Over s c.run := fun hc => absurd hc Bool.false_ne_true
  cases reply with
  | posted job =>
    rw [react] at h
    split_ifs at h with hpoint
    rw [Fits, hpoint] at hfits
    obtain rfl := Option.some.inj h
    exact good_posted hb ho hfits.1 hfits.2 hok job
  | opened ok =>
    rw [react] at h
    split_ifs at h with hpoint hopen
    · rw [Fits, hpoint.1] at hfits
      exact good_goto rfl rfl hb ho .reading hfits h
    · rw [Fits, hpoint.1] at hfits
      exact good_fails rfl rfl hb ho hfits hnot h
  | chunk evs rest =>
    rw [react] at h
    split_ifs at h with hpoint
    obtain ⟨hkeeps, hrest⟩ := hok r (by simp [ho.run])
    obtain ⟨hb₁, ho₁, hcalls₁, hseq₁, haborted₁⟩ := receive_own hb ho hkeeps
    have hfinished : (receive now s c evs).finished = (folded now r evs).state.isFinished := by
      rw [Service.finished, ho₁.run, Option.any_some]
    dsimp only at h
    rw [hfinished] at h
    split_ifs at h with hfin
    · obtain ⟨hb₂, ho₂, hcalls₂, hseq₂, haborted₂⟩ := receive_own hb₁ ho₁ (hrest hfin)
      refine good_leaveStream (hcalls₂.trans hcalls₁) (hseq₂.trans hseq₁) hb₂ ho₂ ?_ h
      rw [haborted₂, haborted₁]
      exact hpoint.2
    · exact good_goto hcalls₁ hseq₁ hb₁ ho₁ .reading (Bool.eq_false_iff.mpr hfin) h
  | closed rest =>
    rw [react] at h
    split_ifs at h with hpoint
    obtain ⟨hb₁, ho₁, hcalls₁, hseq₁, haborted₁⟩ := receive_own hb ho (hok r (by simp [ho.run]))
    exact good_leaveStream hcalls₁ hseq₁ hb₁ ho₁ (haborted₁ ▸ hpoint.2) h
  | resynced =>
    rw [react] at h
    split_ifs at h with hbridge htab
    · rw [Fits, hbridge] at hfits
      exact good_goto rfl rfl hb ho .counting hfits h
    · rw [Fits, htab] at hfits
      exact good_goto rfl rfl hb ho .measuring hfits h
  | counted n =>
    rw [react] at h
    split_ifs at h with hpoint
    rw [Fits, hpoint] at hfits
    let counted (f : AutorouteSummary F) : AutorouteSummary F := { f with unroutedAfter := n }
    let f (r : AutorouteRun R P F) : AutorouteRun R P F :=
      { r with summary := r.summary.map counted }
    have hnever : (f r).state ≠ .cancelled := by
      rw [hfits]
      decide
    obtain ⟨hb₁, ho₁⟩ := hb.patch (f := f) ho rfl (fun _ => rfl) fun hc => absurd hc hnever
    exact good_goto (patch_calls _ _ _) (patch_seq _ _ _) hb₁ ho₁ .returned hfits h
  | refilled =>
    rw [react] at h
    split_ifs at h with hpoint
    rw [Fits, hpoint] at hfits
    refine good_check rfl rfl hb ho hfits (fun h => ?_) h
    obtain ⟨hb₁, ho₁⟩ := good_patch (f := fun r => { r with state := .extracting }) hb ho hfits rfl
      fun h => absurd h (by decide : AutorouteState.extracting ≠ .cancelled)
    exact good_goto (patch_calls _ _ _) (patch_seq _ _ _) hb₁ ho₁ .extracting rfl h
  | warned message =>
    rw [react] at h
    split_ifs at h with hpoint
    rw [Fits, hpoint] at hfits
    obtain ⟨hb₁, ho₁⟩ := good_patch (f := fun r => { r with log := appendLog r.log [message] })
      hb ho hfits rfl (ne_cancelled hfits)
    exact good_goto (patch_calls _ _ _) (patch_seq _ _ _) hb₁ ho₁ .extracting hfits h
  | extracted line =>
    rw [react] at h
    split_ifs at h with hpoint
    rw [Fits, hpoint] at hfits
    obtain ⟨hb₁, ho₁⟩ := good_patch (f := fun r => { r with log := appendLog r.log [line] })
      hb ho hfits rfl (ne_cancelled hfits)
    refine good_check (patch_calls _ _ _) (patch_seq _ _ _) hb₁ ho₁ hfits (fun h => ?_) h
    obtain ⟨hb₂, ho₂⟩ := good_patch (f := fun r => { r with state := .routing }) hb₁ ho₁ hfits rfl
      fun h => absurd h (by decide : AutorouteState.routing ≠ .cancelled)
    exact good_goto ((patch_calls _ _ _).trans (patch_calls _ _ _))
      ((patch_seq _ _ _).trans (patch_seq _ _ _)) hb₂ ho₂ .routing rfl h
  | progressed p lines =>
    rw [react] at h
    split_ifs at h with hpoint
    rw [Fits, hpoint] at hfits
    obtain ⟨hb₁, ho₁⟩ := good_patch
      (f := fun r => { r with progress := some p, log := appendLog r.log lines })
      hb ho hfits rfl (ne_cancelled hfits)
    exact good_goto (patch_calls _ _ _) (patch_seq _ _ _) hb₁ ho₁ .routing hfits h
  | routed result =>
    simp only [react] at h
    split_ifs at h with hpoint
    rw [Fits, hpoint] at hfits
    refine good_check rfl rfl hb ho hfits (fun h => ?_) h
    cases result with
    | error e =>
      obtain ⟨hb₁, ho₁⟩ := good_patch (f := fun r => { r with log := e.2 }) hb ho hfits rfl
        (ne_cancelled hfits)
      exact good_fails (patch_calls _ _ _) (patch_seq _ _ _) hb₁ ho₁ hfits
        (fun hc => absurd hc Bool.false_ne_true) h
    | ok copper =>
      obtain ⟨hb₁, ho₁⟩ := good_patch (f := fun r => { r with state := .applying }) hb ho hfits rfl
        fun h => absurd h (by decide : AutorouteState.applying ≠ .cancelled)
      cases copper with
      | true => exact good_goto (patch_calls _ _ _) (patch_seq _ _ _) hb₁ ho₁ .applying rfl h
      | false => exact good_goto (patch_calls _ _ _) (patch_seq _ _ _) hb₁ ho₁ .measuring rfl h
  | applied =>
    rw [react] at h
    split_ifs at h with hpoint
    rw [Fits, hpoint] at hfits
    exact good_goto rfl rfl hb ho .resyncingTab hfits h
  | measured =>
    rw [react] at h
    split_ifs at h with hpoint
    rw [Fits, hpoint] at hfits
    exact good_goto rfl rfl hb ho .countingTab hfits h
  | summarised summary =>
    rw [react] at h
    split_ifs at h with hpoint
    rw [Fits, hpoint] at hfits
    obtain ⟨hb₁, ho₁⟩ := good_patch (f := fun r => { r with
        state := .done
        finishedAt := some now
        summary := some summary
        log := summary.log.getD r.log }) hb ho hfits rfl
      fun h => absurd h (by decide : AutorouteState.done ≠ .cancelled)
    exact good_goto (patch_calls _ _ _) (patch_seq _ _ _) hb₁ ho₁ .returned rfl h
  | rejected message =>
    rw [react] at h
    split_ifs at h with hpoint
    have hfin : r.state.isFinished = false := by
      have hresync : c.point ≠ .resyncing := hok
      rw [Fits] at hfits
      cases hp : c.point <;> rw [hp] at hfits hpoint hresync <;> first
        | exact hfits
        | exact hfits.2
        | exact absurd rfl hresync
        | exact absurd hpoint (by simp)
    exact good_fails rfl rfl hb ho hfin hnot h

end Replies

end FabPcb.AutorouteRuns
