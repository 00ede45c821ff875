import FabPcb.AutorouteRuns

/-!
Autoroute runs are isolated and can be cancelled along every run of the service whose steps are
`Minded`.

A step is the start of a call, a reply to one, its end, a `cancel()`, the reply to a `DELETE` or
the timer after it. Each keeps the invariant, and from the invariant comes what the runs are
promised. Without the conditions each part of it fails.
-/

namespace FabPcb.AutorouteIsolation

open Runs AutorouteEvents AutorouteService AutorouteRuns

/-! ### Steps -/

variable {R P F : Type}

section Steps

variable {bridge : Bool} {s t : Service R P F} {c : Call} {r : AutorouteRun R P F}

lemma inv_reply (h : Busy s c r) (hb : Books s) {now : ℕ} {reply : Reply P F}
    (hok : ReplyMinded now s c reply) {next : Service R P F × Call}
    (hreact : react now s c reply = some next) :
    Inv { next.1 with calls := next.1.calls.map fun d => if d.run = c.run then next.2 else d } := by
  have hgood := good_react hb h.toOwn h.fits hok hreact
  obtain ⟨r', ho, hfits⟩ := hgood.own
  have hcalls : (next.1.calls.map fun d => if d.run = c.run then next.2 else d) = [next.2] := by
    rw [hgood.calls, h.calls, List.map_singleton, if_pos rfl]
  rw [hcalls]
  refine ⟨hgood.books.withCalls fun k hk hseq => ?_, .inr ⟨next.2, r', ?_⟩⟩
  · have hold := hgood.books.calls k hk hseq
    rw [hgood.calls, h.calls] at hold
    rw [List.map_singleton, hgood.run]
    exact hold
  · exact
      { run := ho.run
        id := ho.id
        abort := ho.abort
        jobId := ho.jobId
        job := ho.job
        aborted := ho.aborted
        calls := rfl
        fits := hfits }

/-- A call ends with its run finished. -/
lemma inv_leave (hb : Books s) (ho : Own s c r) (hcalls : s.calls = [c])
    (hfin : r.state.isFinished = true) : Inv (leave s c s.run) := by
  have hnone : s.calls.filter (·.run ≠ c.run) = [] := by
    rw [hcalls]
    simp
  refine ⟨?_, .inl ?_⟩
  · exact
      { owners := hb.owners
        lasting := hb.lasting
        latest := hb.latest
        jobs := hb.jobs
        jobsOver := hb.jobsOver
        told := hb.told
        known := hb.known
        settled := by
          intro x hx
          rcases List.mem_append.mp hx with hx | hx
          · exact hb.settled x hx
          · rw [List.mem_singleton.mp hx]
            exact ⟨r, ho.run, ho.id, hfin⟩
        calls := by
          intro k hk hseq
          right
          change k ∈ (s.settled ++ [(c.run, s.run)]).map Prod.fst
          rw [List.map_append, List.mem_append]
          have hold := hb.calls k hk hseq
          rw [hcalls] at hold
          rcases hold with hold | hold
          · exact .inr hold
          · exact .inl hold }
  · exact
      { calls := hnone
        run := fun r' hr' => by
          obtain rfl : r = r' := Option.some.inj (ho.run.symm.trans hr')
          exact hfin
        abort := rfl
        jobId := rfl }

lemma inv_settle (h : Busy s c r) (hb : Books s) {now : ℕ}
    (hstep : settle s c now = some t) : Inv t := by
  rw [settle] at hstep
  have hfits := h.fits
  rw [Fits] at hfits
  cases hpoint : c.point with
  | returned =>
    rw [hpoint] at hstep hfits
    obtain rfl := Option.some.inj hstep
    exact inv_leave hb h.toOwn h.calls (by rw [show r.state = .done from hfits]; rfl)
  | thrown e =>
    rw [hpoint] at hstep hfits
    rw [h.abort] at hstep
    obtain rfl := Option.some.inj hstep
    obtain ⟨hstate, hover⟩ := hfits
    obtain ⟨hb', ho'⟩ := hb.patch (f := fun r =>
        { r with
          state := if c.run ∈ s.aborted ∨ e.routeCancelled then .cancelled else .failed
          finishedAt := some now
          error := some (if c.run ∈ s.aborted ∨ e.routeCancelled then
            if e.message = "routing cancelled" then "cancelled" else "cancelled: " ++ e.message
            else e.message) }) h.toOwn rfl (fun hfin => (hstate hfin).symm) (by
      intro hcancelled hbridged
      dsimp only at hcancelled
      split_ifs at hcancelled with hwhy
      rcases hwhy with habort | hroute
      · exact h.aborted habort
      · exact hover hroute hbridged)
    refine inv_leave hb' ho' ((patch_calls _ _ _).trans h.calls) ?_
    dsimp only
    split_ifs
    · rfl
    · rfl
  | posting | fetching | reading | resyncing | counting | refilling | extracting | routing
  | applying | resyncingTab | measuring | countingTab =>
    rw [hpoint] at hstep
    exact absurd hstep (by simp)

/-- A `DELETE` is sent for the job of the run. -/
lemma inv_delete (hb : Books s) (h : Busy s c r) (hfin : r.state.isFinished = false) {job : String}
    (hjob : s.jobId = some job) :
    Inv { s with
      cancels := s.cancels ++ (s.run.map (·.id)).toList
      deleted := s.deleted ++ [job] } := by
  have hcjob : c.job = some job := h.jobId.symm.trans hjob
  have hgrows : ∀ {k : ℕ}, Over s k → ∀ j, (k, j) ∈ s.created →
      j ∈ s.ended ∨ j ∈ s.deleted ++ [job] := fun hover j hj =>
    (hover j hj).imp id (List.mem_append_left _)
  have htargets : ∀ {k : ℕ}, k ∈ s.cancels ++ (s.run.map (·.id)).toList ++
      s.timers.map (·.target) → k ∈ s.cancels ++ s.timers.map (·.target) ∨ k = c.run := by
    intro k hk
    rw [h.run, Option.map_some, Option.toList_some, h.id] at hk
    simp only [List.mem_append, List.mem_singleton] at hk ⊢
    tauto
  refine ⟨?_, .inr ⟨c, r, ⟨h.run, h.id, h.abort, h.jobId, h.job, fun habort =>
    hgrows (h.aborted habort)⟩, h.calls, h.fits.congr (fun _ => .inr hfin) fun hover =>
      hgrows hover⟩⟩
  exact
    { owners := hb.owners
      lasting := hb.lasting
      latest := hb.latest
      jobs := hb.jobs
      jobsOver := fun x hx hstate hbridged => hgrows (hb.jobsOver x hx hstate hbridged)
      told := by
        intro k hk j hj
        rcases htargets hk with hk | rfl
        · exact List.mem_append_left _ (hb.told k hk j hj)
        · have hsome : some job = some j := hcjob.symm.trans ((h.job j).mp hj)
          rw [Option.some.inj hsome]
          exact List.mem_append_right _ (List.mem_singleton_self _)
      known := by
        intro k hk
        rcases htargets hk with hk | rfl
        · exact hb.known k hk
        · exact List.mem_map.mpr ⟨_, (h.job job).mpr hcjob, rfl⟩
      settled := hb.settled
      calls := hb.calls }

lemma inv_abort (hb : Books s) (h : Busy s c r) (hfin : r.state.isFinished = false)
    (hjob : s.jobId = none) : Inv { s with aborted := s.aborted ++ s.abort.toList } := by
  have hnone : ∀ j, (c.run, j) ∉ s.created := fun j hj => by
    have hsome := (h.job j).mp hj
    rw [← h.jobId, hjob] at hsome
    exact absurd hsome (by simp)
  exact ⟨hb.withAborted _, .inr ⟨c, r, ⟨h.run, h.id, h.abort, h.jobId, h.job, fun _ j hj =>
    absurd hj (hnone j)⟩, h.calls, h.fits.congr (fun _ => .inr hfin) id⟩⟩

lemma cancel_delete (hrunning : s.running = true) {job : String} (hjob : s.jobId = some job) :
    AutorouteService.cancel s =
      { s with
        cancels := s.cancels ++ (s.run.map (·.id)).toList
        deleted := s.deleted ++ [job] } := by
  rw [AutorouteService.cancel, if_pos hrunning]
  simp [hjob]

lemma cancel_abort (hrunning : s.running = true) (hjob : s.jobId = none) :
    AutorouteService.cancel s = { s with aborted := s.aborted ++ s.abort.toList } := by
  rw [AutorouteService.cancel, if_pos hrunning]
  simp [hjob]

lemma inv_cancel (hb : Books s) (hinv : Idle s ∨ ∃ c r, Busy s c r) :
    Inv (AutorouteService.cancel s) := by
  cases hrunning : s.running with
  | false =>
    rw [AutorouteService.cancel, hrunning]
    exact ⟨hb, hinv⟩
  | true =>
    rcases hinv with hidle | ⟨c, r, hbusy⟩
    · rw [Service.running, Option.any_eq_true] at hrunning
      obtain ⟨r, hr, hnot⟩ := hrunning
      rw [hidle.run r (by simp [hr])] at hnot
      exact absurd hnot Bool.false_ne_true
    · have hfin : r.state.isFinished = false := by
        rw [hbusy.running, Bool.not_eq_true'] at hrunning
        exact hrunning
      cases hjob : s.jobId with
      | some job =>
        rw [cancel_delete (by rw [hbusy.running, hfin]; rfl) hjob]
        exact inv_delete hb hbusy hfin hjob
      | none =>
        rw [cancel_abort (by rw [hbusy.running, hfin]; rfl) hjob]
        exact inv_abort hb hbusy hfin hjob

/-- The reply to a `DELETE`, after which the timer is set. -/
lemma inv_deleteReply (hb : Books s) (hinv : Idle s ∨ ∃ c r, Busy s c r) {i k : ℕ}
    (hi : s.cancels[i]? = some k) :
    Inv { s with cancels := s.cancels.eraseIdx i, timers := s.timers ++ [⟨k, s.abort⟩] } := by
  have htargets : ∀ l ∈
      s.cancels.eraseIdx i ++ (s.timers ++ [(⟨k, s.abort⟩ : Timer)]).map (·.target),
      l ∈ s.cancels ++ s.timers.map (·.target) := by
    intro l hl
    rw [List.map_append, ← List.append_assoc, List.mem_append, List.mem_append] at hl
    rcases hl with (hl | hl) | hl
    · exact List.mem_append_left _ (List.mem_of_mem_eraseIdx hl)
    · exact List.mem_append_right _ hl
    · rw [List.map_singleton, List.mem_singleton] at hl
      exact List.mem_append_left _ (hl ▸ List.mem_of_getElem? hi)
  refine ⟨?_, ?_⟩
  · exact
      { owners := hb.owners
        lasting := hb.lasting
        latest := hb.latest
        jobs := hb.jobs
        jobsOver := hb.jobsOver
        told := fun l hl => hb.told l (htargets l hl)
        known := fun l hl => hb.known l (htargets l hl)
        settled := hb.settled
        calls := hb.calls }
  · rcases hinv with hidle | ⟨c, r, hbusy⟩
    · exact .inl ⟨hidle.calls, hidle.run, hidle.abort, hidle.jobId⟩
    · exact .inr ⟨c, r, ⟨hbusy.run, hbusy.id, hbusy.abort, hbusy.jobId, hbusy.job, hbusy.aborted⟩,
        hbusy.calls, hbusy.fits⟩

/-- A timer comes only where no call has ended. -/
lemma inv_timer (hb : Books s) (hinv : Idle s ∨ ∃ c r, Busy s c r)
    (hnone : s.calls.any Call.ended = false) {i : ℕ} {timer : Timer}
    (hi : s.timers[i]? = some timer) (hok : fires s timer = true →
      timer.abort = some timer.target ∨ ∀ a ∈ timer.abort, Over s a) :
    Inv { s with
      timers := s.timers.eraseIdx i
      aborted := if fires s timer then s.aborted ++ timer.abort.toList else s.aborted } := by
  have htargets : ∀ l ∈ s.cancels ++ (s.timers.eraseIdx i).map (·.target),
      l ∈ s.cancels ++ s.timers.map (·.target) := by
    intro l hl
    rcases List.mem_append.mp hl with hl | hl
    · exact List.mem_append_left _ hl
    · obtain ⟨u, hu, rfl⟩ := List.mem_map.mp hl
      exact List.mem_append_right _ (List.mem_map.mpr ⟨u, List.mem_of_mem_eraseIdx hu, rfl⟩)
  refine ⟨?_, ?_⟩
  · exact
      { owners := hb.owners
        lasting := hb.lasting
        latest := hb.latest
        jobs := hb.jobs
        jobsOver := hb.jobsOver
        told := fun l hl => hb.told l (htargets l hl)
        known := fun l hl => hb.known l (htargets l hl)
        settled := hb.settled
        calls := hb.calls }
  · rcases hinv with hidle | ⟨c, r, hbusy⟩
    · exact .inl ⟨hidle.calls, hidle.run, hidle.abort, hidle.jobId⟩
    · have hended : c.ended = false := by
        rw [hbusy.calls, List.any_cons, List.any_nil, Bool.or_false] at hnone
        exact hnone
      refine .inr ⟨c, r, ⟨hbusy.run, hbusy.id, hbusy.abort, hbusy.jobId, hbusy.job, ?_⟩,
        hbusy.calls, hbusy.fits.congr (fun h => absurd h (by simp [hended])) id⟩
      intro habort
      split_ifs at habort with hfires
      · rcases List.mem_append.mp habort with habort | habort
        · exact hbusy.aborted habort
        · have hmine : timer.abort = some c.run := by simpa using habort
          rcases hok hfires with htarget | hover
          · have hrun : timer.target = c.run := Option.some.inj (htarget.symm.trans hmine)
            have htold : timer.target ∈ s.cancels ++ s.timers.map (·.target) :=
              List.mem_append_right _
                (List.mem_map.mpr ⟨timer, List.mem_of_getElem? hi, rfl⟩)
            exact fun j hj => .inr (hb.told _ (hrun ▸ htold) j hj)
          · exact hover c.run (by simp [hmine])
      · exact hbusy.aborted habort

/-! ### A new run -/

lemma start_eq (bridge : Bool) (hcalls : s.calls = []) (request : AutorouteRequest R) (now : ℕ) :
    let n := s.seq + 1
    let run : AutorouteRun R P F := { id := n, request, state := .starting, startedAt := now }
    let c : Call := { run := n, point := (body bridge request).1 }
    let s' := { s.set n run with seq := n, abort := some n, calls := [c] }
    AutorouteService.start bridge s request now =
      if (body bridge request).2 = .starting then s'
      else s'.setState n (body bridge request).2 := by
  rw [AutorouteService.start]
  split_ifs with hbody
  · simp [Service.set, hcalls, List.nil_append]
  · simp [Service.setState, Service.patch, Service.set, hcalls, List.nil_append]

lemma body_fits (bridge : Bool) (request : AutorouteRequest R) (n : ℕ) (r : AutorouteRun R P F)
    (hr : r.state = (body bridge request).2) :
    r.state.isFinished = false ∧
      Fits s { run := n, point := (body bridge request).1 } r := by
  rw [Fits, hr, body]
  split_ifs
  · exact ⟨rfl, rfl⟩
  · exact ⟨rfl, rfl⟩
  · exact ⟨rfl, rfl, rfl⟩
  · exact ⟨rfl, fun h => absurd h Bool.false_ne_true, fun h => absurd h Bool.false_ne_true⟩

lemma inv_start (hb : Books s) (hidle : Idle s) (request : AutorouteRequest R) (now : ℕ) :
    Inv (AutorouteService.start bridge s request now) := by
  have heq := start_eq bridge hidle.calls request now
  rw [heq]
  have hnone : ∀ j, (s.seq + 1, j) ∉ s.created := fun j hj => by
    have hle := hb.jobs _ hj
    exact absurd hle (by simp)
  let run : AutorouteRun R P F :=
    { id := s.seq + 1, request, state := .starting, startedAt := now }
  let c : Call := { run := s.seq + 1, point := (body bridge request).1 }
  have hb' : Books { s.set c.run run with seq := c.run, abort := some c.run, calls := [c] } :=
    hb.first rfl rfl rfl (List.mem_singleton_self c.run) hidle.calls
  have ho' : Own { s.set c.run run with seq := c.run, abort := some c.run, calls := [c] } c run :=
    { run := rfl
      id := rfl
      abort := rfl
      jobId := hidle.jobId
      job := fun j => ⟨fun hj => absurd hj (hnone j), fun hj => absurd hj (by simp [c])⟩
      aborted := fun _ j hj => absurd hj (hnone j) }
  split_ifs with hbody
  · exact ⟨hb', .inr ⟨c, run, ho', rfl, (body_fits bridge request _ run hbody.symm).2⟩⟩
  · let later : AutorouteRun R P F := { run with state := (body bridge request).2 }
    obtain ⟨hfin, hfits⟩ := body_fits (s := Service.setState
      { s.set c.run run with seq := c.run, abort := some c.run, calls := [c] } c.run
      (body bridge request).2) bridge request c.run later rfl
    obtain ⟨hb'', ho''⟩ := good_patch (f := fun r => { r with state := (body bridge request).2 })
      hb' ho' rfl rfl (ne_cancelled hfin)
    exact ⟨hb'', .inr ⟨c, later, ho'', patch_calls _ _ _, hfits⟩⟩

/-- **One step** keeps the invariant. -/
theorem inv_step (s : Service R P F) (e : Event R P F) (t : Service R P F) (h : Inv s)
    (hok : Minded s e) (hstep : step bridge s e = some t) : Inv t := by
  obtain ⟨hb, hinv⟩ := h
  -- A call in flight is the one whose run is shown.
  have hbusy : ∀ {k : ℕ} {c : Call}, s.calls.find? (·.run = k) = some c →
      c.run = k ∧ ∃ r, Busy s c r := by
    intro k c hc
    refine ⟨by simpa using List.find?_some hc, ?_⟩
    rcases hinv with hidle | ⟨d, r, hd⟩
    · rw [hidle.calls] at hc
      exact absurd hc (by simp)
    · have hmem := List.mem_of_find?_eq_some hc
      rw [hd.calls, List.mem_singleton] at hmem
      exact ⟨r, hmem ▸ hd⟩
  cases e with
  | start request board now =>
    rw [step] at hstep
    split_ifs at hstep with hno
    · obtain rfl := Option.some.inj hstep
      exact ⟨hb, hinv⟩
    · rw [Bool.or_eq_true, not_or, Bool.not_eq_true, Bool.not_eq_true, Bool.not_eq_false'] at hno
      have hcalls : s.calls = [] := hok hno.1 hno.2
      obtain rfl := Option.some.inj hstep
      rcases hinv with hidle | ⟨c, r, hc⟩
      · exact inv_start hb hidle request now
      · rw [hc.calls] at hcalls
        exact absurd hcalls (by simp)
  | reply k now reply =>
    rw [step, Option.bind_eq_some_iff] at hstep
    obtain ⟨c, hc, hstep⟩ := hstep
    obtain ⟨rfl, r, hd⟩ := hbusy hc
    obtain ⟨next, hreact, rfl⟩ := Option.map_eq_some_iff.mp hstep
    exact inv_reply hd hb (hok c (List.mem_of_find?_eq_some hc) rfl) hreact
  | settle k now =>
    rw [step, Option.bind_eq_some_iff] at hstep
    obtain ⟨c, hc, hstep⟩ := hstep
    obtain ⟨rfl, r, hd⟩ := hbusy hc
    exact inv_settle hd hb hstep
  | cancel =>
    obtain rfl := Option.some.inj hstep
    exact inv_cancel hb hinv
  | deleteReply i =>
    obtain ⟨k, hk, rfl⟩ := Option.map_eq_some_iff.mp hstep
    exact inv_deleteReply hb hinv hk
  | timer i =>
    rw [step] at hstep
    split_ifs at hstep with hended
    obtain ⟨timer, htimer, rfl⟩ := Option.map_eq_some_iff.mp hstep
    exact inv_timer hb hinv (Bool.eq_false_iff.mpr hended) htimer (hok timer htimer)

end Steps

/-! ### The outcome -/

section Outcome

variable {bridge : Bool} {s t : Service R P F}

/-- What has been set, and what has become of the calls. -/
structure Isolated (s : Service R P F) : Prop where
  /-- Each call has resolved with the run it created, which has finished. -/
  settled : ∀ x ∈ s.settled, ∃ r, x.2 = some r ∧ r.id = x.1 ∧ r.state.isFinished = true
  /-- Each call has set its own run only. -/
  owners : ∀ x ∈ s.history, x.2.id = x.1
  /-- A finished run has kept its state. -/
  lasting : s.history.Pairwise Lasting
  /-- The jobs of a cancelled bridge run have ended or have been deleted. -/
  jobsOver : ∀ x ∈ s.history, x.2.state = .cancelled → bridged x.2 → Over s x.2.id

/-- A step lets go of a controller or of a job only as the end of the call it belongs to. -/
structure Kept (s : Service R P F) (e : Event R P F) (t : Service R P F) : Prop where
  abort : ∀ a, s.abort = some a → t.abort = some a ∨ ∃ now, e = .settle a now
  jobId : ∀ j, s.jobId = some j →
    t.jobId = some j ∨ ∃ k now, e = .settle k now ∧ (k, j) ∈ s.created

lemma isolated_of_inv (h : Inv s) : Isolated s where
  settled := h.1.settled
  owners := fun x hx => (h.1.owners x hx).1
  lasting := h.1.lasting
  jobsOver := h.1.jobsOver

lemma kept_of_eq {e : Event R P F} (habort : t.abort = s.abort) (hjob : t.jobId = s.jobId) :
    Kept s e t where
  abort := fun _ ha => .inl (habort.trans ha)
  jobId := fun _ hj => .inl (hjob.trans hj)

lemma idle_kept (h : Idle s) (e : Event R P F) : Kept s e t where
  abort := fun a ha => absurd (h.abort.symm.trans ha) (by simp)
  jobId := fun j hj => absurd (h.jobId.symm.trans hj) (by simp)

lemma step_kept {e : Event R P F} (h : Inv s) (hok : Minded s e)
    (hstep : step bridge s e = some t) : Kept s e t := by
  obtain ⟨hb, hidle | ⟨c, r, hc⟩⟩ := h
  · exact idle_kept hidle e
  cases e with
  | start request board now =>
    rw [step] at hstep
    split_ifs at hstep with hno
    · exact Option.some.inj hstep ▸ kept_of_eq rfl rfl
    · rw [Bool.or_eq_true, not_or, Bool.not_eq_true, Bool.not_eq_true, Bool.not_eq_false'] at hno
      have hcalls : s.calls = [] := hok hno.1 hno.2
      rw [hc.calls] at hcalls
      exact absurd hcalls (by simp)
  | reply k now reply =>
    rw [step, hc.calls, Option.bind_eq_some_iff] at hstep
    obtain ⟨d, hd, hstep⟩ := hstep
    obtain rfl := List.mem_singleton.mp (List.mem_of_find?_eq_some hd)
    have hk : d.run = k := by simpa using List.find?_some hd
    obtain ⟨next, hreact, rfl⟩ := Option.map_eq_some_iff.mp hstep
    have hgood := good_react hb hc.toOwn hc.fits
      (hok d (by rw [hc.calls]; exact List.mem_singleton_self d) hk) hreact
    obtain ⟨r', ho, -⟩ := hgood.own
    refine ⟨fun a ha => .inl ?_, fun j hj => .inl ?_⟩
    · exact ho.abort.trans (hgood.run ▸ hc.abort.symm.trans ha)
    · exact ho.jobId.trans (hgood.job j (hc.jobId.symm.trans hj))
  | settle k now =>
    rw [step, hc.calls, Option.bind_eq_some_iff] at hstep
    obtain ⟨d, hd, hstep⟩ := hstep
    obtain rfl := List.mem_singleton.mp (List.mem_of_find?_eq_some hd)
    obtain rfl : d.run = k := by simpa using List.find?_some hd
    refine ⟨fun a ha => .inr ⟨now, ?_⟩, fun j hj => .inr ⟨d.run, now, rfl, ?_⟩⟩
    · rw [Option.some.inj (hc.abort.symm.trans ha)]
    · exact (hc.job j).mpr (hc.jobId.symm.trans hj)
  | cancel =>
    obtain rfl := Option.some.inj hstep
    rw [AutorouteService.cancel]
    split_ifs
    · cases hjob : s.jobId with
      | some job => exact kept_of_eq rfl hjob.symm
      | none => exact kept_of_eq rfl hjob.symm
    · exact kept_of_eq rfl rfl
  | deleteReply i =>
    obtain ⟨k, hk, rfl⟩ := Option.map_eq_some_iff.mp hstep
    exact kept_of_eq rfl rfl
  | timer i =>
    rw [step] at hstep
    split_ifs at hstep
    obtain ⟨timer, htimer, rfl⟩ := Option.map_eq_some_iff.mp hstep
    exact kept_of_eq rfl rfl

/-! ### Every call can come to its end -/

/-- The call of a run can still be settled, by replies to what it waits for. -/
def Settles (bridge : Bool) (s : Service R P F) (k : ℕ) : Prop :=
  ∃ events t, Along (step bridge) Minded s events ∧ run (step bridge) s events = some t ∧
    k ∈ t.settled.map Prod.fst

lemma settles_step {e : Event R P F} {k : ℕ} (hok : Minded s e)
    (hstep : step bridge s e = some t) (h : Settles bridge t k) : Settles bridge s k := by
  obtain ⟨events, u, halong, hrun, hk⟩ := h
  exact ⟨e :: events, u, along_cons hstep hok halong, run_cons_eq_some.mpr ⟨t, hstep, hrun⟩, hk⟩

variable {c : Call}

lemma find_call (hcalls : s.calls = [c]) : s.calls.find? (·.run = c.run) = some c := by
  rw [hcalls, List.find?_cons_of_pos (by simp)]

lemma settles_ended (hcalls : s.calls = [c]) (hended : c.ended = true) :
    Settles bridge s c.run := by
  have hstep : ∃ t, settle s c 0 = some t ∧ c.run ∈ t.settled.map Prod.fst := by
    have hmem : ∀ (s : Service R P F) result,
        c.run ∈ (leave s c result).settled.map Prod.fst := fun s result =>
      List.mem_map.mpr ⟨_, List.mem_append_right _ (List.mem_singleton_self _), rfl⟩
    rw [Call.ended] at hended
    rw [settle]
    cases hpoint : c.point with
    | returned => exact ⟨_, rfl, hmem _ _⟩
    | thrown e =>
      cases s.abort with
      | some abort => exact ⟨_, rfl, hmem _ _⟩
      | none => exact ⟨_, rfl, hmem _ _⟩
    | posting | fetching | reading | resyncing | counting | refilling | extracting | routing
    | applying | resyncingTab | measuring | countingTab =>
      rw [hpoint] at hended
      exact absurd hended Bool.false_ne_true
  obtain ⟨t, ht, hk⟩ := hstep
  refine ⟨[.settle c.run 0], t, along_cons (t := t) ?_ trivial trivial,
    run_cons_eq_some.mpr ⟨t, ?_, rfl⟩, hk⟩
  all_goals rw [step, find_call hcalls, Option.bind_some, ht]

lemma settles_reply (hcalls : s.calls = [c]) (reply : Reply P F) (c' : Call) {s' : Service R P F}
    (hreact : react 0 s c reply = some (s', c')) (hcalls' : s'.calls = s.calls)
    (hok : ReplyMinded 0 s c reply)
    (hnext : ∀ t : Service R P F, t.calls = [c'] → Settles bridge t c.run) :
    Settles bridge s c.run := by
  have hstep : step bridge s (.reply c.run 0 reply) =
      some { s' with calls := s'.calls.map fun d => if d.run = c.run then c' else d } := by
    rw [step, find_call hcalls, Option.bind_some, hreact]
    rfl
  refine settles_step ?_ hstep (hnext _ ?_)
  · intro d hd _
    rw [hcalls, List.mem_singleton] at hd
    exact hd ▸ hok
  · rw [hcalls', hcalls, List.map_singleton, if_pos rfl]

lemma settles_rejected (hcalls : s.calls = [c]) (hpoint : c.point ∈ [.posting, .fetching, .reading,
      .resyncing, .refilling, .extracting, .routing, .applying, .resyncingTab])
    (hresync : c.point ≠ .resyncing) : Settles bridge s c.run := by
  refine settles_reply hcalls (.rejected "") { c with point := .thrown ⟨"", false⟩ }
    ?_ rfl hresync fun t ht => ?_
  · rw [react, if_pos hpoint]
    rfl
  · exact settles_ended (c := { c with point := .thrown ⟨"", false⟩ }) ht rfl

lemma settles_counting (hcalls : s.calls = [c]) (hpoint : c.point = .counting) :
    Settles bridge s c.run := by
  refine settles_reply hcalls (.counted none) { c with point := .returned }
    (by rw [react, if_pos hpoint]; rfl) (patch_calls _ _ _) trivial fun t ht => ?_
  exact settles_ended (c := { c with point := .returned }) ht rfl

lemma settles_countingTab (summary : AutorouteSummary F) (hcalls : s.calls = [c])
    (hpoint : c.point = .countingTab) : Settles bridge s c.run := by
  refine settles_reply hcalls (.summarised summary) { c with point := .returned }
   
    (by rw [react, if_pos hpoint]; rfl) (patch_calls _ _ _) trivial fun t ht => ?_
  exact settles_ended (c := { c with point := .returned }) ht rfl

lemma settles_call [Inhabited F] (hcalls : s.calls = [c]) : Settles bridge s c.run := by
  cases hpoint : c.point with
  | posting | fetching | reading | refilling | extracting | routing | applying | resyncingTab =>
    exact settles_rejected hcalls (by simp [hpoint]) (by simp [hpoint])
  | resyncing =>
    refine settles_reply hcalls .resynced { c with point := .counting }
      (by rw [react, if_pos hpoint]; rfl) rfl trivial fun t ht => ?_
    exact settles_counting (c := { c with point := .counting }) ht rfl
  | counting => exact settles_counting hcalls hpoint
  | measuring =>
    refine settles_reply hcalls .measured { c with point := .countingTab }
      (by rw [react, if_pos hpoint]; rfl) rfl trivial fun t ht => ?_
    exact settles_countingTab (c := { c with point := .countingTab })
      ⟨"js", "", default, none, none⟩ ht rfl
  | countingTab => exact settles_countingTab ⟨"js", "", default, none, none⟩ hcalls hpoint
  | returned | thrown e => exact settles_ended hcalls (by rw [Call.ended, hpoint])

lemma settles_of_inv [Inhabited F] (h : Inv s) {k : ℕ} (hk : k ∈ s.calls.map (·.run)) :
    Settles bridge s k := by
  obtain ⟨-, hidle | ⟨c, r, hc⟩⟩ := h
  · rw [hidle.calls] at hk
    exact absurd hk (by simp)
  · rw [hc.calls, List.map_singleton, List.mem_singleton] at hk
    exact hk ▸ settles_call hc.calls

end Outcome

/-! ### Every run of the service -/

section Runs

variable {R P F : Type}

lemma inv_new : Inv ({} : Service R P F) := by
  refine ⟨?_, .inl ⟨rfl, fun r hr => absurd hr (by simp), rfl, rfl⟩⟩
  exact
    { owners := fun x hx => absurd hx (by simp)
      lasting := List.Pairwise.nil
      latest := fun r hr => absurd hr (by simp)
      jobs := fun x hx => absurd hx (by simp)
      jobsOver := fun x hx => absurd hx (by simp)
      told := fun k hk => absurd hk (by simp)
      known := fun k hk => absurd hk (by simp)
      settled := fun x hx => absurd hx (by simp)
      calls := fun k hk hseq => by
        change k ≤ 0 at hseq
        omega }

/-- **Autoroute runs are isolated and can be cancelled**, whatever happens in whatever order, as
long as each step is minded. -/
theorem runs_isolated [Inhabited F] (bridge : Bool) {events : List (Event R P F)}
    {s : Service R P F} (hok : Along (step bridge) Minded {} events)
    (hrun : run (step bridge) {} events = some s) :
    Isolated s ∧
      (∀ x ∈ steps (step bridge) {} events, Kept x.1 x.2.1 x.2.2) ∧
      ∀ k, 1 ≤ k → k ≤ s.seq → k ∈ s.settled.map Prod.fst ∨
        k ∈ s.calls.map (·.run) ∧ Settles bridge s k := by
  have hinv := invariant_along Inv inv_step inv_new hok hrun
  refine ⟨isolated_of_inv hinv, fun x hx => ?_, fun k hk hseq => ?_⟩
  · obtain ⟨hx, hminded, hstep⟩ := steps_along Inv inv_step inv_new hok x hx
    exact step_kept hx hminded hstep
  · rcases hinv.1.calls k hk hseq with hcall | hsettled
    · exact .inr ⟨hcall, settles_of_inv hinv hcall⟩
    · exact .inl hsettled

/-! ### Runs of two calls -/

abbrev UnitEvent := Event Unit Unit Unit

/-- The bridge has done the job. -/
def jobDone : SseEvent Unit Unit where
  event := "done"
  data := .ok {}

def onBridge : AutorouteRequest Unit where
  router := .fabRouter
  options := ()

/-- A first run, up to where its job is done. -/
def firstDone : List UnitEvent :=
  [.start onBridge true 0, .reply 1 1 (.posted "j1"), .reply 1 2 (.opened true),
    .reply 1 3 (.chunk [jobDone] [])]

/-- Then it ends, and a second one is cancelled once its job is known. -/
def oneAfterTheOther : List UnitEvent :=
  firstDone ++ [.reply 1 4 .resynced, .reply 1 5 (.counted (some 3)), .settle 1 6,
    .start onBridge true 7, .reply 2 8 (.posted "j2"), .cancel, .deleteReply 0, .timer 0,
    .reply 2 9 (.rejected "aborted"), .settle 2 10]

theorem oneAfterTheOther_isolated :
    ∃ s, run (step true) ({} : Service Unit Unit Unit) oneAfterTheOther = some s ∧
      s.settled.map Prod.fst = [1, 2] ∧ Isolated s := by
  have hok : Along (step true) Minded ({} : Service Unit Unit Unit) oneAfterTheOther := by
    decide +kernel
  have hsome : (run (step true) ({} : Service Unit Unit Unit) oneAfterTheOther).map
      (·.settled.map Prod.fst) = some [1, 2] := by decide +kernel
  obtain ⟨s, hs, hsettled⟩ := Option.map_eq_some_iff.mp hsome
  exact ⟨s, hs, hsettled, (runs_isolated true hok hs).1⟩

/-- The second one starts before the call of the first has ended. -/
def oneIntoTheOther : List UnitEvent :=
  firstDone ++ [.start onBridge true 4, .reply 1 5 .resynced, .reply 1 6 (.counted none),
    .settle 1 7]

/-- The board cannot be read again. -/
def doneThenFailed : List UnitEvent := firstDone ++ [.reply 1 4 (.rejected "no reply"), .settle 1 5]

/-- A run is cancelled before its job is known. -/
def cancelledEarly : List UnitEvent :=
  [.start onBridge true 0, .cancel, .reply 1 1 (.posted "j1"), .reply 1 2 (.rejected "aborted"),
    .settle 1 3]

/-- **Otherwise no part of it holds**: a call resolves with the run of another, a run that is done
fails, and the job of a cancelled run goes on. -/
theorem runs_not_isolated :
    (∃ s ∈ run (step true) ({} : Service Unit Unit Unit) oneIntoTheOther, s.abort = none ∧
      ∃ x ∈ s.settled, ∃ r ∈ x.2, r.id ≠ x.1 ∧ r.state.isFinished = false) ∧
    (∃ s ∈ run (step true) ({} : Service Unit Unit Unit) doneThenFailed,
      ¬ s.history.Pairwise Lasting) ∧
    ∃ s ∈ run (step true) ({} : Service Unit Unit Unit) cancelledEarly,
      ∃ x ∈ s.history, x.2.state = .cancelled ∧ bridged x.2 ∧ ¬ Over s x.2.id := by
  decide +kernel

end Runs

end FabPcb.AutorouteIsolation
