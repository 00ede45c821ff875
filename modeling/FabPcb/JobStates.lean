import FabPcb.JobRules

/-!
The states of a route job.

The job says that it is done before it has asked for the board's copper and made its summary. Up to
there its state is not a final one, and what it does after that is all that can take the state back.
-/

namespace FabPcb.JobStates

open Dialogue OrderedMap RouteJob RouteJob.Job RouteWorld
open JobRules

/-! ### A dialogue -/

/-- What has become of a job that says it is done. -/
inductive Past where
  | unsettled
  | summed
  | failed
  deriving DecidableEq

/-- While it says so, a job asks for the copper of the board. -/
def states : Contract RouteJobInfo Request Answer Past where
  permits s view q := s = .unsettled ∧ (finished view.state = true →
    view.state = .done ∧ view.summary = none ∧ q = .getTracks)
  replies _ view _ r s' := s' =
    if view.state = .done then if r.1.toOption.isSome then .summed else .failed else .unsettled

/-- The end of a job. -/
structure Settled (info : RouteJobInfo) (s : Past) : Prop where
  final : finished info.state = true
  summed : s = .summed → info.state = .done
  other : s ≠ .summed → info.state ≠ .done
  summary : info.state = .done → info.summary.isSome = true

/-- No final state has been shown. -/
structure Open (l : Locals) (s : Past) : Prop where
  state : finished l.info.state = false
  summary : l.info.summary = none
  past : s = .unsettled

lemma asks_open (q : Request) : Asks states Open q := by
  rintro l s ⟨hopen, hnone, rfl⟩
  refine ⟨⟨rfl, fun h => ?_⟩, fun r aborted s' hr => ⟨hopen, hnone, ?_⟩⟩
  · rw [hopen] at h
    cases h
  · have hstate : l.info.state ≠ .done := fun h => by
      rw [h] at hopen
      cases hopen
    rw [hr, if_neg hstate]

lemma stable_open : Stable Open := by
  rintro l s info ⟨hopen, hnone, hpast⟩ hstate hsummary
  refine ⟨?_, hsummary.trans hnone, hpast⟩
  rcases hstate with h | h
  · exact h
  · rw [h]
    exact hopen

lemma settle_error (e : JobError) (l : Locals) :
    (settle (.error e, l)).state = .cancelled ∨ (settle (.error e, l)).state = .failed := by
  unfold settle
  dsimp only
  split
  · exact Or.inl rfl
  · exact Or.inr rfl

lemma settled_of_error {l : Locals} {s : Past} (e : JobError) (hs : s ≠ .summed) :
    Settled (settle (.error e, l)) s := by
  have hnot : (settle (.error e, l)).state ≠ .done := by
    rcases settle_error e l with h | h <;> rw [h] <;> exact nofun
  refine ⟨?_, fun h => absurd h hs, fun _ => hnot, fun h => absurd h hnot⟩
  rcases settle_error e l with h | h <;> rw [h] <;> rfl

/-- What every dialogue of a job comes to. -/
def Ending (r : Except JobError Unit) (l : Locals) (s : Past) : Prop := Settled (settle (r, l)) s

lemma meets_finish (scope : Scope) (routerRouted : ℤ) (c : Cleanup) (applied : Bool)
    (measured : List RouteConnection × ℤ) {l : Locals} {s : Past} (h : Open l s) :
    Meets states Ending (finish scope routerRouted c applied measured) l s := by
  obtain ⟨-, hnone, rfl⟩ := h
  refine meets_bind.mpr (meets_bind.mpr (meets_ask.mpr ⟨⟨rfl, fun _ => ⟨rfl, hnone, rfl⟩⟩, ?_, ?_⟩))
  · rintro items aborted s' hr
    have hs : s' = .summed := hr
    subst hs
    exact ⟨rfl, fun _ => rfl, fun h => absurd rfl h, fun _ => rfl⟩
  · rintro f aborted s' hr
    have hs : s' = .failed := hr
    exact settled_of_error _ (by rw [hs]; exact nofun)

lemma ending_of_open {l : Locals} {s : Past} (e : JobError) (h : Open l s) :
    Ending (.error e) l s := settled_of_error e (by rw [h.past]; exact nofun)

lemma meets_complete (scope : Scope) (routerRouted : ℤ) (c : Cleanup) {l : Locals} {s : Past}
    (h : Open l s) : Meets states Ending (complete scope routerRouted c) l s := by
  have hkeep := keeps_keepApplied stable_open (asks_open _) (asks_open _) scope.request
  refine meets_after (keeps_when hkeep) h (fun e l s => ending_of_open e) fun _ l s h => ?_
  refine meets_after (keeps_attempt (asks_open _)) h (fun e l s => ending_of_open e) ?_
  exact fun edges l s h => meets_finish scope routerRouted c _ _ h

lemma meets_routeJob (setting : Setting) (request : RouteJobRequest) {l : Locals} {s : Past}
    (h : Open l s) : Meets states Ending (routeJob setting request) l s := by
  have hprepare := keeps_prepare (C := states) stable_open (fun q _ => asks_open q) setting request
  refine meets_after hprepare h (fun e l s => ending_of_open e) fun prepared l s h => ?_
  refine meets_after (keeps_runRouter stable_open (asks_open _)) h (fun e l s => ending_of_open e) ?_
  intro result l s h
  refine meets_after (keeps_applyResult stable_open asks_open _ _) h
    (fun e l s => ending_of_open e) ?_
  exact fun c l s h => meets_complete _ _ c h

/-- A job, in every dialogue. -/
theorem safe_start (setting : Setting) (request : RouteJobRequest) :
    Safe states Settled (start setting request) .unsettled := by
  have hjob := meets_routeJob setting request (l := ⟨queued, false⟩) (s := .unsettled) ⟨rfl, rfl, rfl⟩
  exact safe_bind.mpr (Safe.mono hjob fun r s h => h)

/-! ### Worlds of jobs -/

/-- A job that is where a dialogue can have got it. -/
def Sound (prog : Dialog RouteJobInfo) : Prop := ∃ s, Safe states Settled prog s

/-- The job says that it is done, and is not. -/
def isUnsummed (slot : Slot) : Bool :=
  match slot.prog with
  | .ret _ => false
  | .ask view _ _ => view.state = .done

/-- Nothing fails after a job has said that it is done, and nobody looks until it is. -/
def Calm (w : World) : Action → Prop
  | .reply n choice => ∀ slot, w.jobs[n]? = some slot → slot.info.state = .done →
    ∀ f, choice ≠ .fail f
  | .observe n => ∀ slot, w.jobs[n]? = some slot → isUnsummed slot = false
  | _ => True

variable {w w' : World} {n : ℕ} {slot slot' : Slot}

lemma sound_ask {view : RouteJobInfo} {q : Request} {next : Answer q → Dialog RouteJobInfo}
    (h : Sound (.ask view q next)) :
    (finished view.state = true → view.state = .done ∧ view.summary = none ∧ q = .getTracks) ∧
      ∀ r, Safe states Settled (next r)
        (if view.state = .done then if r.1.toOption.isSome then .summed else .failed
          else .unsettled) := by
  obtain ⟨s, ⟨hs, hview⟩, hnext⟩ := h
  exact ⟨hview, fun r => hnext r _ rfl⟩

lemma state_of_past {prog : Dialog RouteJobInfo} {s : Past} (h : Safe states Settled prog s)
    (hs : s ≠ .unsettled) : ∃ info, prog = .ret info ∧ Settled info s := by
  cases prog with
  | ret info => exact ⟨info, rfl, h⟩
  | ask view q next => exact absurd h.1.1 hs

lemma sound_next {view : RouteJobInfo} {q : Request} {next : Answer q → Dialog RouteJobInfo}
    (h : Sound (.ask view q next)) (r : Answer q) : Sound (next r) := ⟨_, (sound_ask h).2 r⟩

lemma serve_getTracks {recordsEmpty : Bool} {party : Party} {b : Board} {choice : Choice}
    {served : Served .getTracks} (h : serve recordsEmpty party b .getTracks choice = some served) :
    served.2.1.toOption.isSome = true ∨ ∃ f, choice = .fail f := by
  cases choice with
  | fail f => exact Or.inr ⟨f, rfl⟩
  | ok =>
    cases h
    exact Or.inl rfl
  | _ => cases h

/-- A final state after a reply is the one before, exactly if the reply is no failure. -/
lemma reply_state {view : RouteJobInfo} {q : Request} {next : Answer q → Dialog RouteJobInfo}
    {recordsEmpty aborted : Bool} {party : Party} {b : Board} {choice : Choice} {served : Served q}
    (h : Sound (.ask view q next)) (hdone : finished view.state = true)
    (hserve : serve recordsEmpty party b q choice = some served) :
    (Slot.mk (next (served.2.1, aborted)) aborted).info.state = view.state ↔
      ∀ f, choice ≠ .fail f := by
  obtain ⟨hview, hnext⟩ := sound_ask h
  obtain ⟨hstate, -, rfl⟩ := hview hdone
  have hafter := hnext (served.2.1, aborted)
  rw [if_pos hstate] at hafter
  rw [hstate]
  rcases serve_getTracks hserve with hok | ⟨f, rfl⟩
  · rw [if_pos hok] at hafter
    obtain ⟨info, hprog, hsettled⟩ := state_of_past hafter nofun
    rw [hprog]
    refine ⟨fun _ f hf => ?_, fun _ => hsettled.summed rfl⟩
    subst hf
    cases hserve
    cases hok
  · cases hserve
    obtain ⟨info, hprog, hsettled⟩ := state_of_past hafter nofun
    rw [hprog]
    exact ⟨fun hsame => absurd hsame (hsettled.other nofun), fun hnot => absurd rfl (hnot f)⟩

/-- Every job of a world is where a dialogue can have got it. -/
def AllSound (w : World) : Prop := ∀ slot ∈ w.jobs, Sound slot.prog

lemma sound_begins (h : Begins w) : AllSound w := by
  intro slot hslot
  obtain ⟨-, setting, request, hprog⟩ := h.jobs slot hslot
  rw [hprog]
  exact ⟨_, safe_start setting request⟩

lemma sound_step (h : AllSound w) {a : Action} (hstep : w.step a = some w') : AllSound w' := by
  cases move_of_step hstep with
  | reply hslot hprog hserve =>
    intro slot' hslot'
    rcases List.mem_or_eq_of_mem_set hslot' with hold | rfl
    · exact h slot' hold
    · have hsound := h _ (List.mem_of_getElem? hslot)
      rw [hprog] at hsound
      exact sound_next hsound _
  | cancel hslot =>
    intro slot' hslot'
    rcases List.mem_or_eq_of_mem_set hslot' with hold | rfl
    · exact h slot' hold
    · rw [prog_cancel]
      exact h _ (List.mem_of_getElem? hslot)
  | observe => exact h
  | edit => exact h
  | undo => exact h

lemma calm_step (h : AllSound w) {a : Action} (hcalm : Calm w a) (hstep : w.step a = some w')
    (hslot : w.jobs[n]? = some slot) (hdone : finished slot.info.state = true) :
    ∃ slot', w'.jobs[n]? = some slot' ∧ slot'.info.state = slot.info.state := by
  obtain ⟨slot', hslot', hprog | ⟨choice, view, q, next, served, rfl, hprog, hserve, rfl⟩⟩ :=
    job_step hstep hslot
  · exact ⟨slot', hslot', by rw [Slot.info, Slot.info, hprog]⟩
  · refine ⟨_, hslot', ?_⟩
    have hsound := h slot (List.mem_of_getElem? hslot)
    have hinfo : slot.info = view := by rw [Slot.info, hprog]
    rw [hprog] at hsound
    rw [hinfo] at hdone ⊢
    have hstate := ((sound_ask hsound).1 hdone).1
    exact (reply_state hsound hdone hserve).mpr (hcalm slot hslot (by rw [hinfo, hstate]))

lemma calm_seen (h : AllSound w) {a : Action} (hcalm : Calm w a) (hstep : w.step a = some w')
    (hseen : ∀ x ∈ w.seen, x.2.state = .done → x.2.summary.isSome = true) :
    ∀ x ∈ w'.seen, x.2.state = .done → x.2.summary.isSome = true := by
  cases move_of_step hstep with
  | @observe n slot hslot =>
    intro x hx
    rcases List.mem_append.mp hx with hold | hnew
    · exact hseen x hold
    · cases List.mem_singleton.mp hnew
      obtain ⟨s, hsafe⟩ := h slot (List.mem_of_getElem? hslot)
      have hquiet := hcalm slot hslot
      intro hdone
      unfold isUnsummed at hquiet
      unfold Slot.info at hdone ⊢
      cases hprog : slot.prog with
      | ret info =>
        rw [hprog] at hsafe hdone
        exact hsafe.summary hdone
      | ask view q next =>
        rw [hprog] at hdone hquiet
        exact absurd hdone (of_decide_eq_false hquiet)
  | reply => exact hseen
  | cancel => exact hseen
  | edit => exact hseen
  | undo => exact hseen

/-! ### Runs -/

def CalmRun : World → List Action → Prop
  | _, [] => True
  | w, a :: as => Calm w a ∧ ∀ w', w.step a = some w' → CalmRun w' as

/-- No final state of a job at the beginning is another later on. -/
def Lasting (w : World) (as : List Action) : Prop :=
  ∀ (n : ℕ) (slot : Slot), w.jobs[n]? = some slot → finished slot.info.state = true →
    ∀ pre post w' (slot' : Slot), as = pre ++ post → w.run pre = some w' → w'.jobs[n]? = some slot' →
      slot'.info.state = slot.info.state

/-- No final state of a job at any time is another later on. -/
def NeverTakenBack (w : World) (as : List Action) : Prop :=
  ∀ pre post w', as = pre ++ post → w.run pre = some w' → Lasting w' post

/-- Whoever saw a job that was done saw its summary. -/
def SeenWhole (w : World) : Prop := ∀ x ∈ w.seen, x.2.state = .done → x.2.summary.isSome = true

variable {as : List Action}

lemma calmRun_append {pre post : List Action} (h : CalmRun w (pre ++ post))
    (hrun : w.run pre = some w') : CalmRun w' post := by
  induction pre generalizing w with
  | nil =>
    cases hrun
    exact h
  | cons a pre ih =>
    obtain ⟨v, hv, hrest⟩ := Option.bind_eq_some_iff.mp hrun
    exact ih (h.2 v hv) hrest

lemma sound_run (h : AllSound w) (hrun : w.run as = some w') : AllSound w' :=
  run_induction (P := AllSound) (fun _ _ _ hw hstep => sound_step hw hstep) h hrun

lemma lasting_of_calm (h : AllSound w) (hcalm : CalmRun w as) : Lasting w as := by
  intro n slot hslot hdone pre post w' slot' heq hrun hslot'
  subst heq
  induction pre generalizing w slot with
  | nil =>
    cases hrun
    cases hslot.symm.trans hslot'
    rfl
  | cons a pre ih =>
    obtain ⟨v, hv, hrest⟩ := Option.bind_eq_some_iff.mp hrun
    obtain ⟨hfirst, hcalm⟩ := hcalm
    obtain ⟨slot₁, hslot₁, hstate⟩ := calm_step h hfirst hv hslot hdone
    rw [← hstate] at hdone ⊢
    exact ih (sound_step h hv) slot₁ hslot₁ hdone hrest (hcalm v hv)

lemma seen_of_calm (h : AllSound w) (hcalm : CalmRun w as) (hrun : w.run as = some w')
    (hseen : SeenWhole w) : SeenWhole w' := by
  induction as generalizing w with
  | nil =>
    cases hrun
    exact hseen
  | cons a as ih =>
    obtain ⟨v, hv, hrest⟩ := Option.bind_eq_some_iff.mp hrun
    exact ih (sound_step h hv) (hcalm.2 v hv) hrest (calm_seen h hcalm.1 hv hseen)

lemma seen_grows (hrun : w.run as = some w') : ∀ x ∈ w.seen, x ∈ w'.seen := by
  refine run_induction (P := fun v => ∀ x ∈ w.seen, x ∈ v.seen) ?_ (fun x hx => hx) hrun
  intro v a v' hv hstep x hx
  cases move_of_step hstep with
  | observe => exact List.mem_append_left _ (hv x hx)
  | reply => exact hv x hx
  | cancel => exact hv x hx
  | edit => exact hv x hx
  | undo => exact hv x hx

lemma summary_of_unsummed (h : Sound slot.prog) (hdone : isUnsummed slot = true) :
    slot.info.state = .done ∧ slot.info.summary = none := by
  unfold isUnsummed at hdone
  unfold Slot.info
  cases hprog : slot.prog with
  | ret info =>
    rw [hprog] at hdone
    cases hdone
  | ask view q next =>
    rw [hprog] at h hdone
    have hstate := of_decide_eq_true hdone
    exact ⟨hstate, ((sound_ask h).1 (by rw [hstate]; rfl)).2.1⟩

/-- Where nothing is taken back and nothing half done is seen, a step is calm. -/
lemma calm_of_settled (h : AllSound w) {a : Action} (hstep : w.step a = some w')
    (hlasting : Lasting w [a]) (hseen : SeenWhole w') : Calm w a := by
  have hrun : w.run [a] = some w' := by
    rw [World.run, hstep]
    rfl
  cases move_of_step hstep with
  | @reply n slot view q next choice served hslot hprog hserve =>
    intro slot' hslot' hdone
    cases hslot.symm.trans hslot'
    have hsound := h slot (List.mem_of_getElem? hslot)
    have hinfo : slot.info = view := by rw [Slot.info, hprog]
    rw [hprog] at hsound
    rw [hinfo] at hdone
    have hfinal : finished view.state = true := by rw [hdone]; rfl
    have hlt : n < w.jobs.length := (List.getElem?_eq_some_iff.mp hslot).1
    have hsame := hlasting n slot hslot (by rw [hinfo, hfinal]) _ [] _ _ (List.append_nil _).symm hrun
      (List.getElem?_set_self hlt)
    rw [hinfo] at hsame
    exact (reply_state hsound hfinal hserve).mp hsame
  | @observe n slot hslot =>
    intro slot' hslot'
    cases hslot.symm.trans hslot'
    by_contra hunsummed
    rw [Bool.not_eq_false] at hunsummed
    obtain ⟨hdone, hnone⟩ := summary_of_unsummed (h slot (List.mem_of_getElem? hslot)) hunsummed
    have hwhole := hseen (n, slot.info) (List.mem_append_right _ (List.mem_singleton.mpr rfl)) hdone
    rw [hnone] at hwhole
    cases hwhole
  | cancel => trivial
  | edit => trivial
  | undo => trivial

lemma calm_of_run (h : AllSound w) (hrun : w.run as = some w') (hlast : NeverTakenBack w as)
    (hseen : SeenWhole w') : CalmRun w as := by
  induction as generalizing w with
  | nil => trivial
  | cons a as ih =>
    obtain ⟨v, hv, hrest⟩ := Option.bind_eq_some_iff.mp hrun
    have hbefore : SeenWhole v := fun x hx => hseen x (seen_grows hrest x hx)
    have hfirst : Lasting w [a] := by
      intro n slot hslot hdone pre post u slot' heq hrun' hslot'
      refine hlast [] (a :: as) w rfl rfl n slot hslot hdone pre (post ++ as) u slot' ?_ hrun' hslot'
      rw [← List.append_assoc, ← heq, List.singleton_append]
    refine ⟨calm_of_settled h hv hfirst hbefore, fun v' hv' => ?_⟩
    cases hv.symm.trans hv'
    refine ih (sound_step h hv) hrest fun pre post u heq hu => hlast (a :: pre) post u ?_ ?_
    · rw [heq, List.cons_append]
    · rw [World.run, hv]
      exact hu

/-- **States of a job.** In a run of jobs, cancel requests and observers, no final state is ever
taken back and whoever saw a job that was done saw its summary, exactly if no request fails that a
job makes after saying that it is done, and nobody looks at it while it waits for the reply. -/
theorem states_settled_iff (hbegins : Begins w) (hrun : w.run as = some w') :
    (NeverTakenBack w as ∧ SeenWhole w') ↔ CalmRun w as := by
  have hsound := sound_begins hbegins
  constructor
  · rintro ⟨hlast, hseen⟩
    exact calm_of_run hsound hrun hlast hseen
  · intro hcalm
    refine ⟨fun pre post u heq hu => ?_, seen_of_calm hsound hcalm hrun ?_⟩
    · subst heq
      exact lasting_of_calm (sound_run hsound hu) (calmRun_append hcalm hu)
    · intro x hx
      rw [hbegins.seen] at hx
      cases hx

/-! ### A job with nothing to route -/

def emptyBoard : Board := ⟨[], [], 0, 0⟩

def nothing : RouteResult := ⟨"fab-router", [], [], [], [], 0, false, [], none, none⟩

def idle : World := World.new true emptyBoard [(⟨true, none⟩, ⟨.js, none, none, some false⟩)]

/-- Up to the request that the job makes when it says that it is done. -/
def untilDone : List Action :=
  [.reply 0 (.board true), .reply 0 .ok, .reply 0 .ok, .reply 0 (.input ⟨[]⟩),
    .reply 0 (.result nothing none), .reply 0 (.edges [])]

lemma begins_idle : Begins idle := begins_new List.nodup_nil fun _ h => (nomatch h)

theorem states_settled_idle :
    ∃ w', idle.run (untilDone ++ [.reply 0 .ok, .observe 0]) = some w' ∧
      ((NeverTakenBack idle (untilDone ++ [.reply 0 .ok, .observe 0]) ∧ SeenWhole w') ↔
        CalmRun idle (untilDone ++ [.reply 0 .ok, .observe 0])) :=
  ⟨_, rfl, states_settled_iff begins_idle rfl⟩

/-- The last request fails, and the state goes from done to failed; or somebody looks while it is
pending. -/
theorem not_states_settled :
    (∃ w as w', Begins w ∧ w.run as = some w' ∧ ¬ NeverTakenBack w as) ∧
      ∃ w as w', Begins w ∧ w.run as = some w' ∧ ¬ SeenWhole w' := by
  have hdone : ∃ w, idle.run untilDone = some w ∧ ∃ slot, w.jobs[0]? = some slot ∧
      slot.info.state = .done ∧ slot.info.summary = none ∧
        ∃ w', w.run [.reply 0 (.fail ⟨false, "timeout"⟩)] = some w' ∧
          ∃ slot', w'.jobs[0]? = some slot' ∧ slot'.info.state = .failed :=
    ⟨_, rfl, _, rfl, rfl, rfl, _, rfl, _, rfl, rfl⟩
  obtain ⟨w, hrun, slot, hslot, hstate, hnone, w', hfail, slot', hslot', hfailed⟩ := hdone
  refine ⟨⟨idle, untilDone ++ [.reply 0 (.fail ⟨false, "timeout"⟩)], w', begins_idle, ?_, ?_⟩,
    ⟨idle, untilDone ++ [.observe 0], { w with seen := w.seen ++ [(0, slot.info)] }, begins_idle,
      ?_, ?_⟩⟩
  · rw [run_append, hrun]
    exact hfail
  · intro h
    have hsame := h untilDone _ w rfl hrun 0 slot hslot (by rw [hstate]; rfl) _ [] w' slot'
      (List.append_nil _).symm hfail hslot'
    rw [hfailed, hstate] at hsame
    cases hsame
  · rw [run_append, hrun]
    simp [World.step, World.run, hslot]
  · intro h
    have hwhole := h (0, slot.info) (List.mem_append_right _ (List.mem_singleton.mpr rfl)) hstate
    rw [hnone] at hwhole
    cases hwhole

end FabPcb.JobStates
