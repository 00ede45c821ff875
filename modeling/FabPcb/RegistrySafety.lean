import FabPcb.SessionRegistry

/-!
What the session registry keeps: entries, created sessions and destroyed ones.

An entry goes by a `destroy` of it or with the failure of the call that installed it, a `create`
that resolves has its session registered or destroyed while running, and a session whose
`destroy` has resolved is gone for good. What a session may do once it is being stopped carries
the last two: it stays stopped, it does not become ready, and a call of `stop` past its wait
has left nothing alive.
-/

namespace FabPcb.RegistrySafety

open OrderedMap Runs SessionRegistry
open SessionState hiding Action step Inv

/-! ### One session -/

/-- What a call of `stop` at some place says of the process or the worker. -/
def Sealed (s : Session) : StopPc → Prop
  | .stopEvents proc | .transportClose proc => s.alive = true → proc = true
  | .procExited | .workerExited | .rejected => True
  | .rm | .wasmClose | .resolved => s.alive = false

/-- The places of `start` after its ping was answered. -/
def answered : StartPc → Bool
  | .startEvents | .resolved => true
  | _ => false

/-- Where `start` has ended. -/
def ended : StartPc → Bool
  | .resolved | .rejected => true
  | _ => false

/-- What stays of a session being stopped. -/
structure Stays (s s' : Session) : Prop where
  stopping : s'.stopping = true
  ready : s.ready = false → s'.ready = false
  calls : ∀ (call : ℕ) pc, s.stops[call]? = some pc → Sealed s pc →
    ∃ pc', s'.stops[call]? = some pc' ∧ Sealed s' pc' ∧ (pc = .resolved → pc' = .resolved)

/-- What stays of any session. -/
structure Grows (s s' : Session) : Prop where
  start : ended s.start = true → s'.start = s.start
  up : (answered s.start = true → s.ready = true) → answered s'.start = true →
    s'.ready = true
  stays : s.stopping = true → Stays s s'

/-- A session being stopped that is spawned after all, or becomes running. -/
def revives (s : Session) : Event → Bool
  | .startFulfilled spawns =>
    s.stopping &&
      match s.start with
      | .rm => spawns
      | .ping => s.state = .starting
      | _ => false
  | _ => false

variable {s s' : Session} {e : Event} {call : ℕ} {pc : StopPc}

lemma Sealed.mono (h : Sealed s pc) (hmono : s'.alive = true → s.alive = true) :
    Sealed s' pc := by
  cases pc with
  | stopEvents proc | transportClose proc => exact fun ha => h (hmono ha)
  | procExited | workerExited | rejected => trivial
  | rm | wasmClose | resolved =>
    refine Bool.eq_false_iff.mpr fun ha => ?_
    have hgone : s.alive = false := h
    rw [hmono ha] at hgone
    cases hgone

lemma stays_of_stops_eq (hstopping : s'.stopping = true)
    (hready : s.ready = false → s'.ready = false) (hstops : s'.stops = s.stops)
    (hmono : s'.alive = true → s.alive = true) : Stays s s' where
  stopping := hstopping
  ready := hready
  calls call pc hcall hsealed :=
    ⟨pc, (congrArg (·[call]?) hstops).trans hcall, hsealed.mono hmono, id⟩

lemma stays_of_stops_append (hstopping : s'.stopping = true)
    (hready : s.ready = false → s'.ready = false) {new : StopPc}
    (hstops : s'.stops = s.stops ++ [new]) (hmono : s'.alive = true → s.alive = true) :
    Stays s s' where
  stopping := hstopping
  ready := hready
  calls call pc hcall hsealed := by
    refine ⟨pc, ?_, hsealed.mono hmono, id⟩
    rw [hstops, List.getElem?_append_left (List.getElem?_eq_some_iff.mp hcall).1]
    exact hcall

lemma stays_of_stops_set (hstopping : s'.stopping = true)
    (hready : s.ready = false → s'.ready = false) {pc pc' : StopPc}
    (hcall : s.stops[call]? = some pc) (hstops : s'.stops = s.stops.set call pc')
    (hmono : s'.alive = true → s.alive = true) (hpc : Sealed s pc → Sealed s' pc')
    (hne : pc ≠ .resolved) : Stays s s' where
  stopping := hstopping
  ready := hready
  calls n p hn hsealed := by
    by_cases hnc : n = call
    · subst hnc
      obtain rfl : pc = p := Option.some.inj (hcall.symm.trans hn)
      refine ⟨pc', ?_, hpc hsealed, fun hc => absurd hc hne⟩
      rw [hstops, List.getElem?_set_self (List.getElem?_eq_some_iff.mp hn).1]
    · refine ⟨p, ?_, hsealed.mono hmono, id⟩
      rw [hstops, List.getElem?_set_ne (Ne.symm hnc)]
      exact hn

lemma Grows.of_start_eq (hstart : s'.start = s.start) (hready : s'.ready = s.ready)
    (hstays : s.stopping = true → Stays s s') : Grows s s' :=
  ⟨fun _ => hstart, fun hu hup => hready.trans (hu (hstart ▸ hup)), hstays⟩

lemma Grows.of_start_ne (hstart : ended s.start = false) (hno : answered s'.start = false)
    (hstays : s.stopping = true → Stays s s') : Grows s s' :=
  ⟨fun he => absurd he (by rw [hstart]; exact Bool.false_ne_true),
    fun _ hu => absurd hu (by rw [hno]; exact Bool.false_ne_true), hstays⟩

/-- The place at which a call of `stop` begins. -/
def firstStop (s : Session) : StopPc :=
  match s.backend with
  | .process => .stopEvents s.held
  | .wasm => if s.held then .workerExited else .wasmClose

lemma stop_stops : s.stop.stops = s.stops ++ [firstStop s] := by
  cases hb : s.backend with
  | process => simp [Session.stop, firstStop, hb]
  | wasm => cases hh : s.held <;> simp [Session.stop, firstStop, hb, hh]

@[simp] lemma stop_alive : s.stop.alive = s.alive := by
  rcases stop_cases (s := s) with h | h <;> rw [h]

@[simp] lemma stop_ready : s.stop.ready = s.ready := by
  rcases stop_cases (s := s) with h | h <;> rw [h]

lemma stays_stop : Stays s s.stop :=
  stays_of_stops_append stop_stopping (fun h => stop_ready.trans h) stop_stops
    (fun h => stop_alive.symm.trans h)

lemma grows_stop : Grows s s.stop :=
  .of_start_eq stop_start stop_ready fun _ => stays_stop

lemma grows_catchStart {t : Session} (hstart : ended s.start = false) (hready : t.ready = s.ready)
    (halive : t.alive = s.alive) (hstops : t.stops = s.stops) : Grows s t.catchStart := by
  have hcalls : t.catchStart.stops = s.stops ++ [firstStop t] := by
    rw [← hstops]
    exact stop_stops
  refine .of_start_ne hstart rfl fun _ => ?_
  refine stays_of_stops_append stop_stopping (fun h => ?_) hcalls fun h => ?_
  · exact stop_ready.trans (hready.trans h)
  · rw [← halive]
    exact stop_alive.symm.trans h

lemma grows_fail (hstart : ended s.start = false) : Grows s s.fail :=
  .of_start_ne hstart rfl fun hs => stays_of_stops_eq hs id rfl id

lemma grows_goto {t : StartPc} (hstart : ended s.start = false) (hno : answered t = false) :
    Grows s { s with start := t } :=
  .of_start_ne hstart hno fun hs => stays_of_stops_eq hs id rfl id

lemma grows_spawn {spawns : Bool} (hstart : ended s.start = false)
    (hs : (s.stopping && spawns) = false) : Grows s (s.spawn spawns) := by
  cases spawns with
  | false => exact grows_fail hstart
  | true =>
    rw [Bool.and_true] at hs
    refine .of_start_ne hstart ?_ fun ht => ?_
    · unfold Session.spawn
      cases s.backend with
      | process =>
        simp only [↓reduceIte]
        split <;> rfl
      | wasm => rfl
    · rw [hs] at ht; cases ht

lemma grows_startFulfilled {spawns : Bool} (hs : revives s (.startFulfilled spawns) = false)
    (hstep : s.startFulfilled spawns = some s') : Grows s s' := by
  unfold Session.startFulfilled at hstep
  cases hstart : s.start with
  | mkdir | waitForSocket | transportReady =>
    rw [hstart] at hstep
    cases hstep
    refine grows_goto ?_ rfl
    rw [hstart]; rfl
  | rm =>
    rw [hstart] at hstep
    cases hstep
    refine grows_spawn ?_ (by simpa [revives, hstart] using hs)
    rw [hstart]; rfl
  | awaitRunning =>
    simp only [hstart] at hstep
    split at hstep
    · cases hstep
      refine .of_start_ne ?_ rfl fun ht => stays_of_stops_eq ht id rfl id
      rw [hstart]; rfl
    · cases hstep
  | ping =>
    simp only [hstart] at hstep
    split at hstep
    · cases hstep
      refine grows_catchStart ?_ rfl rfl rfl
      rw [hstart]; rfl
    · rename_i hstarting
      cases hstep
      refine ⟨fun he => ?_, fun _ _ => rfl, fun ht => ?_⟩
      · rw [hstart] at he; cases he
      · have hstate : s.state = .starting := not_not.mp hstarting
        simp [revives, hstart, ht, hstate] at hs
  | startEvents =>
    rw [hstart] at hstep
    cases hstep
    refine ⟨fun he => ?_, fun hu _ => hu (by rw [hstart]; rfl),
      fun ht => stays_of_stops_eq ht id rfl id⟩
    rw [hstart] at he
    cases he
  | stopping k =>
    simp only [hstart] at hstep
    split at hstep
    · cases hstep
      refine grows_fail ?_
      rw [hstart]; rfl
    · cases hstep
  | idle | resolved | rejected =>
    rw [hstart] at hstep
    cases hstep

lemma grows_startRejected (hstep : s.startRejected = some s') : Grows s s' := by
  unfold Session.startRejected at hstep
  have hne : ended s.start = false := by
    cases hstart : s.start with
    | resolved | rejected =>
      rw [hstart] at hstep
      cases hstep
    | _ => rfl
  cases hstart : s.start with
  | mkdir | rm =>
    rw [hstart] at hstep
    cases hstep
    exact grows_goto hne rfl
  | waitForSocket | transportReady | ping =>
    rw [hstart] at hstep
    cases hstep
    exact grows_catchStart hne rfl rfl rfl
  | awaitRunning =>
    rw [hstart] at hstep
    cases hstep
    exact grows_catchStart hne rfl rfl rfl
  | startEvents =>
    simp only [hstart] at hstep
    split at hstep
    · cases hstep
      exact grows_catchStart hne rfl rfl rfl
    · cases hstep
  | stopping k =>
    simp only [hstart] at hstep
    split at hstep
    · cases hstep
      exact grows_goto hne rfl
    · cases hstep
  | idle | resolved | rejected =>
    rw [hstart] at hstep
    cases hstep

lemma stays_stopRm (hstopping : s.stopping = true) (hcall : s.stops[call]? = some pc)
    (hne : pc ≠ .resolved) (hgone : Sealed s pc → s.alive = false) : Stays s (s.stopRm call) := by
  obtain ⟨n, heq⟩ := stopRm_eq s call
  rw [heq]
  refine stays_of_stops_set hstopping id hcall rfl id (fun hp => ?_) hne
  split <;> exact hgone hp

lemma grows_stopFulfilled (hstep : s.stopFulfilled call = some s') : Grows s s' := by
  unfold Session.stopFulfilled at hstep
  cases hcall : s.stops[call]? with
  | none => rw [hcall] at hstep; cases hstep
  | some pc =>
    have hrm : pc ≠ .resolved → (Sealed s pc → s.alive = false) → Grows s (s.stopRm call) := by
      intro hne hgone
      obtain ⟨n, heq⟩ := stopRm_eq s call
      refine .of_start_eq (by rw [heq]) (by rw [heq]) fun ht => ?_
      exact stays_stopRm ht hcall hne hgone
    cases pc with
    | stopEvents proc =>
      rw [hcall] at hstep
      cases hstep
      exact .of_start_eq rfl rfl fun ht =>
        stays_of_stops_set ht id hcall rfl id id fun hc => StopPc.noConfusion hc
    | transportClose proc =>
      simp only [hcall] at hstep
      split at hstep
      · cases hstep
        exact .of_start_eq rfl rfl fun ht =>
          stays_of_stops_set ht id hcall rfl id (fun _ => trivial) fun hc => StopPc.noConfusion hc
      · rename_i hdead
        cases hstep
        refine hrm (fun hc => StopPc.noConfusion hc) fun hp => Bool.eq_false_iff.mpr fun ha => ?_
        exact hdead (by rw [hp ha, ha]; rfl)
    | procExited =>
      simp only [hcall] at hstep
      split at hstep
      · rename_i hexit
        cases hstep
        exact hrm (fun hc => StopPc.noConfusion hc) fun _ => hexit.1
      · cases hstep
    | rm =>
      rw [hcall] at hstep
      cases hstep
      exact .of_start_eq rfl rfl fun ht =>
        stays_of_stops_set ht id hcall rfl id id fun hc => StopPc.noConfusion hc
    | workerExited =>
      rw [hcall] at hstep
      cases hstep
      refine .of_start_eq rfl rfl fun ht =>
        stays_of_stops_set ht id hcall rfl (fun ha => ?_) (fun _ => rfl) fun hc =>
          StopPc.noConfusion hc
      cases ha
    | wasmClose =>
      simp only [hcall, Session.exitUnlessFailed] at hstep
      split at hstep
      · cases hstep
        exact .of_start_eq rfl rfl fun ht =>
          stays_of_stops_set ht id hcall rfl id id fun hc => StopPc.noConfusion hc
      · cases hstep
        exact .of_start_eq rfl rfl fun ht =>
          stays_of_stops_set ht id hcall rfl id id fun hc => StopPc.noConfusion hc
    | resolved | rejected =>
      rw [hcall] at hstep
      cases hstep

lemma grows_stopRejected (hstep : s.stopRejected call = some s') : Grows s s' := by
  have hset : ∀ pc, s.stops[call]? = some pc → pc ≠ .resolved →
      Grows s { s with stops := s.stops.set call .rejected } := fun pc hcall hne =>
    .of_start_eq rfl rfl fun ht => stays_of_stops_set ht id hcall rfl id (fun _ => trivial) hne
  unfold Session.stopRejected at hstep
  split at hstep
  · rename_i hcall
    cases hstep
    exact hset _ hcall fun hc => StopPc.noConfusion hc
  · rename_i hcall
    cases hstep
    exact hset _ hcall fun hc => StopPc.noConfusion hc
  · rename_i hcall
    cases hstep
    exact hset _ hcall fun hc => StopPc.noConfusion hc
  · cases hstep

/-- **A step of a session** that revives nothing. -/
lemma grows_event (hs : revives s e = false) (hstep : s.event e = some s') : Grows s s' := by
  cases e with
  | startFulfilled spawns => exact grows_startFulfilled hs hstep
  | startRejected => exact grows_startRejected hstep
  | stopFulfilled call => exact grows_stopFulfilled hstep
  | stopRejected call => exact grows_stopRejected hstep
  | die =>
    simp only [Session.event, Session.die] at hstep
    split at hstep
    · cases hstep
      exact .of_start_eq rfl rfl fun ht => stays_of_stops_eq ht id rfl fun ha => by cases ha
    · cases hstep
  | onExit clean =>
    simp only [Session.event, Session.onExit] at hstep
    split at hstep
    · cases hstep
      exact .of_start_eq rfl rfl fun ht => stays_of_stops_eq ht id rfl id
    · cases hstep
  | crash =>
    simp only [Session.event, Session.crash] at hstep
    split at hstep
    · split at hstep
      · cases hstep
        exact .of_start_eq rfl rfl fun ht => stays_of_stops_eq ht id rfl id
      · cases hstep
        refine .of_start_eq rfl rfl fun ht => stays_of_stops_eq ht id rfl fun ha => ?_
        exact ((Bool.and_eq_true _ _).mp ha).2
    · cases hstep
  | touch attached now =>
    cases hstep
    exact .of_start_eq rfl rfl fun ht => stays_of_stops_eq ht id rfl id

lemma Grows.refl (s : Session) : Grows s s :=
  .of_start_eq rfl rfl fun ht => stays_of_stops_eq ht id rfl id

/-! ### The registry -/

/-- Where the session a call of `create` started is: registered, failed, or destroyed, after it
was running or for good. -/
def Kept (m : SessionManager) (id : String) (k : ℕ) (s : Session) : Prop :=
  m.sessions.get? id = some k ∨ s.start = .rejected ∨
    ∃ c ∈ m.destroys, c.id = id ∧ c.session = k ∧
      (c.ready = true ∨ s.stopping = true ∧ s.ready = false)

/-- The session of a call of `destroy` is being stopped, or was. -/
structure Stopped (c : DestroyCall) (s : Session) : Prop where
  stopping : s.stopping = true
  call : ∃ pc, s.stops[c.call]? = some pc ∧ Sealed s pc ∧ (c.pc = .resolved → pc = .resolved)

/-- The session a call of `create` has started. -/
def started : CreatePc → Option ℕ
  | .starting k | .resolved k => some k
  | _ => none

/-- **The invariant** of the registry. -/
structure Inv (m : SessionManager) : Prop where
  entries : ∀ id k, m.sessions.get? id = some k → ∃ s, m.built[k]? = some s
  ready : ∀ s ∈ m.built, answered s.start = true → s.ready = true
  creates : ∀ c ∈ m.creates, ∀ k, started c.pc = some k →
    ∃ s, m.built[k]? = some s ∧ Kept m c.id k s.toSession ∧
      (c.pc = .resolved k → s.start = .resolved)
  destroys : ∀ c ∈ m.destroys, ∃ s, m.built[c.session]? = some s ∧ Stopped c s.toSession

/-- A session that runs and whose stop another call has in hand. -/
def stoppedElsewhere (m : SessionManager) (id : String) : Bool :=
  ((m.sessions.get? id).bind (m.built[·]?)).any fun s => s.alive && !s.held

/-- The same for the sessions `destroyAll` goes through. -/
def anyStoppedElsewhere : SessionManager → List String → Bool
  | _, [] => false
  | m, id :: ids => stoppedElsewhere m id || anyStoppedElsewhere (m.destroy id) ids

/-- The steps that lose or keep what they should not: two calls of `create` for one id, a
session revived while it is being stopped, and a second stop that waits for nothing. -/
def mislays (m : SessionManager) : Action → Bool
  | .createFulfilled j _ _ =>
    match m.creates[j]? with
    | some ⟨id, .checked _ _⟩ => m.sessions.has id
    | _ => false
  | .createRejected j =>
    match m.creates[j]? with
    | some ⟨id, .starting k⟩ => (m.sessions.get? id).any (· ≠ k)
    | _ => false
  | .destroy id => stoppedElsewhere m id
  | .destroyAll => anyStoppedElsewhere m m.sessions.keys
  | .reapStep j =>
    match m.reaps[j]? with
    | some ⟨_, k :: _, _, none⟩ => (m.built[k]?).any fun s => stoppedElsewhere m s.id
    | _ => false
  | .session k e => (m.built[k]?).any fun s => revives s.toSession e
  | _ => false

variable {m m' : SessionManager} {id : String} {k j limit now : ℕ} {x : SessionLike}
  {a : Action} {c : DestroyCall} {backend : SessionBackend} {websocket spawns : Bool}

lemma Kept.grow (h : Kept m id k s) (hg : Grows s s')
    (hentry : m.sessions.get? id = some k → Kept m' id k s')
    (hdestroys : ∀ c ∈ m.destroys, c ∈ m'.destroys) : Kept m' id k s' := by
  rcases h with hin | hrejected | ⟨c, hc, hid, hk, hready⟩
  · exact hentry hin
  · exact .inr (.inl ((hg.start (by rw [hrejected]; rfl)).trans hrejected))
  · refine .inr (.inr ⟨c, hdestroys c hc, hid, hk, hready.imp_right fun hs => ?_⟩)
    have hstays := hg.stays hs.1
    exact ⟨hstays.stopping, hstays.ready hs.2⟩

lemma Stopped.grow (h : Stopped c s) (hg : Grows s s') : Stopped c s' := by
  obtain ⟨pc, hpc, hsealed, hres⟩ := h.call
  have hstays := hg.stays h.stopping
  obtain ⟨pc', hpc', hsealed', hres'⟩ := hstays.calls c.call pc hpc hsealed
  exact ⟨hstays.stopping, pc', hpc', hsealed', fun hc => hres' (hres hc)⟩

lemma built_set (hk : m.built[k]? = some x) (hg : Grows x.toSession s') {i : ℕ}
    {u : SessionLike} (hi : m.built[i]? = some u) :
    ∃ u', (m.built.set k { x with toSession := s' })[i]? = some u' ∧
      Grows u.toSession u'.toSession := by
  by_cases hik : i = k
  · subst hik
    obtain rfl : x = u := Option.some.inj (hk.symm.trans hi)
    exact ⟨_, List.getElem?_set_self (List.getElem?_eq_some_iff.mp hk).1, hg⟩
  · exact ⟨u, (List.getElem?_set_ne (Ne.symm hik)).trans hi, .refl _⟩

lemma ready_set (h : Inv m) (hk : m.built[k]? = some x) (hg : Grows x.toSession s') :
    ∀ u ∈ m.built.set k { x with toSession := s' },
      answered u.start = true → u.ready = true := by
  intro u hu
  rcases List.mem_or_eq_of_mem_set hu with hmem | rfl
  · exact h.ready u hmem
  · exact hg.up (h.ready x (List.mem_of_getElem? hk))

lemma Inv.setSession (h : Inv m) (hk : m.built[k]? = some x) (hg : Grows x.toSession s') :
    Inv { m with built := m.built.set k { x with toSession := s' } } where
  entries id i hid := by
    obtain ⟨u, hu⟩ := h.entries id i hid
    obtain ⟨u', hu', -⟩ := built_set hk hg hu
    exact ⟨u', hu'⟩
  ready := ready_set h hk hg
  creates c hc i hpc := by
    obtain ⟨u, hu, hkept, hres⟩ := h.creates c hc i hpc
    obtain ⟨u', hu', hgu⟩ := built_set hk hg hu
    refine ⟨u', hu', hkept.grow hgu .inl fun _ hc => hc, fun hc => ?_⟩
    have hstart := hres hc
    exact (hgu.start (by rw [hstart]; rfl)).trans hstart
  destroys c hc := by
    obtain ⟨u, hu, hstopped⟩ := h.destroys c hc
    obtain ⟨u', hu', hgu⟩ := built_set hk hg hu
    exact ⟨u', hu', hstopped.grow hgu⟩

/-! ### Steps of the registry -/

lemma Inv.setCreates (h : Inv m) {creates : List CreateCall}
    (hnew : ∀ c ∈ creates, c ∈ m.creates ∨ started c.pc = none) :
    Inv { m with creates := creates } where
  entries := h.entries
  ready := h.ready
  creates c hc k hpc := by
    rcases hnew c hc with hmem | hno
    · exact h.creates c hmem k hpc
    · rw [hno] at hpc
      cases hpc
  destroys := h.destroys

lemma answered_begin :
    answered (s.begin spawns).start = true → (s.begin spawns).ready = true := by
  intro hup
  exfalso
  revert hup
  unfold Session.begin Session.spawn
  split
  · exact Bool.false_ne_true
  · cases spawns with
    | false => exact Bool.false_ne_true
    | true =>
      cases s.backend with
      | process =>
        simp only [↓reduceIte]
        split <;> exact Bool.false_ne_true
      | wasm => exact Bool.false_ne_true

/-- A session is built and installed under a free id by the call `c` of `create`. -/
lemma Inv.install (h : Inv m) (hfree : m.sessions.get? id = none) {creates : List CreateCall}
    (hnew : ∀ c ∈ creates, c ∈ m.creates ∨ c.id = id ∧ c.pc = .starting m.built.length) :
    Inv { m.install id backend websocket spawns now with creates := creates } where
  entries i n hin := by
    simp only [SessionManager.install, OMap.get?_set] at hin ⊢
    split at hin
    · cases hin
      exact ⟨_, by rw [List.getElem?_append_right (Nat.le_refl _), Nat.sub_self]; rfl⟩
    · obtain ⟨u, hu⟩ := h.entries i n hin
      exact ⟨u, (List.getElem?_append_left (List.getElem?_eq_some_iff.mp hu).1).trans hu⟩
  ready u hu := by
    rcases List.mem_append.mp hu with hmem | hlast
    · exact h.ready u hmem
    · rw [List.mem_singleton.mp hlast]
      exact answered_begin
  creates c hc n hpc := by
    rcases hnew c hc with hmem | ⟨rfl, hstarting⟩
    · obtain ⟨u, hu, hkept, hres⟩ := h.creates c hmem n hpc
      refine ⟨u, (List.getElem?_append_left (List.getElem?_eq_some_iff.mp hu).1).trans hu, ?_, hres⟩
      refine hkept.grow (.refl _) (fun hin => .inl ?_) fun _ hd => hd
      rw [SessionManager.install, OMap.get?_set, if_neg ?_]
      · exact hin
      · rintro rfl
        rw [hfree] at hin
        cases hin
    · rw [hstarting] at hpc ⊢
      cases hpc
      refine ⟨_, by
        rw [SessionManager.install, List.getElem?_append_right (Nat.le_refl _), Nat.sub_self]
        rfl, .inl ?_, fun hc => ?_⟩
      · rw [SessionManager.install, OMap.get?_set, if_pos rfl]
      · cases hc
  destroys c hc := by
    obtain ⟨u, hu, hstopped⟩ := h.destroys c hc
    exact ⟨u, (List.getElem?_append_left (List.getElem?_eq_some_iff.mp hu).1).trans hu, hstopped⟩

lemma admits_free {opts : CreateSessionOptions} (h : m.admits opts = some backend) :
    m.sessions.get? opts.id = none := by
  unfold SessionManager.admits at h
  split at h
  · cases h
  · split at h
    · cases h
    · rename_i hhas
      exact OMap.has_eq_false_iff.mp (Bool.eq_false_iff.mpr hhas)

lemma inv_create (h : Inv m) (opts : CreateSessionOptions) : Inv (m.create opts spawns now) := by
  have hlast : ∀ c' : CreateCall, ∀ c ∈ m.creates ++ [c'], c ∈ m.creates ∨ c = c' := by
    intro c' c hc
    rcases List.mem_append.mp hc with hmem | hl
    · exact .inl hmem
    · exact .inr (List.mem_singleton.mp hl)
  unfold SessionManager.create
  cases hadmits : m.admits opts with
  | none =>
    refine h.setCreates fun c hc => (hlast _ c hc).imp_right ?_
    rintro rfl
    rfl
  | some backend =>
    by_cases hawaits : opts.awaits = true
    · simp only [if_pos hawaits]
      refine h.setCreates fun c hc => (hlast _ c hc).imp_right ?_
      rintro rfl
      rfl
    · simp only [if_neg hawaits]
      refine h.install (admits_free hadmits) fun c hc => (hlast _ c hc).imp_right ?_
      rintro rfl
      exact ⟨rfl, rfl⟩

lemma inv_createFulfilled (h : Inv m) (hs : mislays m (.createFulfilled j spawns now) = false)
    (hstep : m.createFulfilled j spawns now = some m') : Inv m' := by
  unfold SessionManager.createFulfilled at hstep
  split at hstep
  · rename_i id backend websocket hj
    have hfree : m.sessions.get? id = none := by
      refine OMap.has_eq_false_iff.mp ?_
      simpa [mislays, hj] using hs
    cases hstep
    refine h.install hfree fun c hc => (List.mem_or_eq_of_mem_set hc).imp_right ?_
    rintro rfl
    exact ⟨rfl, rfl⟩
  · rename_i id k hj
    split at hstep
    · rename_i hresolved
      cases hstep
      refine ⟨h.entries, h.ready, fun c hc n hpc => ?_, h.destroys⟩
      rcases List.mem_or_eq_of_mem_set hc with hmem | rfl
      · exact h.creates c hmem n hpc
      · cases hpc
        obtain ⟨u, hu, hkept, -⟩ := h.creates _ (List.mem_of_getElem? hj) k rfl
        refine ⟨u, hu, hkept, fun _ => ?_⟩
        rw [hu] at hresolved
        exact of_decide_eq_true hresolved
    · cases hstep
  · cases hstep

lemma inv_createRejected (h : Inv m) (hs : mislays m (.createRejected j) = false)
    (hstep : m.createRejected j = some m') : Inv m' := by
  unfold SessionManager.createRejected at hstep
  split at hstep
  · cases hstep
    refine h.setCreates fun c hc => (List.mem_or_eq_of_mem_set hc).imp_right ?_
    rintro rfl
    rfl
  · rename_i id k hj
    split at hstep
    · rename_i hrejected
      cases hstep
      have hown : ∀ n, m.sessions.get? id = some n → n = k := by
        intro n hn
        simpa [mislays, hj, hn] using hs
      refine ⟨fun i n hin => ?_, h.ready, fun c hc n hpc => ?_, h.destroys⟩
      · rw [OMap.get?_delete] at hin
        split at hin
        · cases hin
        · exact h.entries i n hin
      · rcases List.mem_or_eq_of_mem_set hc with hmem | rfl
        · obtain ⟨u, hu, hkept, hres⟩ := h.creates c hmem n hpc
          refine ⟨u, hu, hkept.grow (.refl _) (fun hin => ?_) fun _ hd => hd, hres⟩
          by_cases hid : c.id = id
          · -- the entry is that of the session whose start failed
            obtain rfl : n = k := hown n (hid ▸ hin)
            rw [hu] at hrejected
            exact .inr (.inl (of_decide_eq_true hrejected))
          · refine .inl ?_
            rw [OMap.get?_delete, if_neg hid]
            exact hin
        · cases hpc
    · cases hstep
  · cases hstep

lemma destroy_cases (h : Inv m) (id : String) :
    m.sessions.get? id = none ∧ m.destroy id = m ∨
    ∃ k x, m.sessions.get? id = some k ∧ m.built[k]? = some x ∧
      m.destroy id = { m with
        sessions := m.sessions.delete id
        built := m.built.set k { x with toSession := x.stop }
        destroys := m.destroys ++ [⟨id, k, x.stops.length, x.ready, .stopping⟩] } := by
  cases hid : m.sessions.get? id with
  | none => exact .inl ⟨rfl, by simp [SessionManager.destroy, hid]⟩
  | some k =>
    obtain ⟨x, hx⟩ := h.entries id k hid
    exact .inr ⟨k, x, rfl, hx, by simp [SessionManager.destroy, hid, hx]⟩

lemma sealed_firstStop (h : (s.alive && !s.held) = false) : Sealed s.stop (firstStop s) := by
  have hheld : s.alive = true → s.held = true := by
    intro ha
    simpa [ha] using h
  unfold firstStop
  split
  · exact fun ha => hheld (stop_alive.symm.trans ha)
  · split
    · trivial
    · rename_i hno
      refine stop_alive.trans (Bool.eq_false_iff.mpr fun ha => hno (hheld ha))

lemma inv_destroy (h : Inv m) (hs : stoppedElsewhere m id = false) : Inv (m.destroy id) := by
  rcases destroy_cases h id with ⟨-, heq⟩ | ⟨k, x, hid, hx, heq⟩
  · rw [heq]; exact h
  have hset := h.setSession hx (grows_stop (s := x.toSession))
  have hfirst : (x.alive && !x.held) = false := by
    simpa [stoppedElsewhere, hid, hx] using hs
  rw [heq]
  refine ⟨fun i n hin => ?_, hset.ready, fun c hc n hpc => ?_, fun c hc => ?_⟩
  · rw [OMap.get?_delete] at hin
    split at hin
    · cases hin
    · exact hset.entries i n hin
  · obtain ⟨u, hu, hkept, hres⟩ := hset.creates c hc n hpc
    refine ⟨u, hu, hkept.grow (.refl _) (fun hin => ?_) fun d hd => List.mem_append_left _ hd,
      hres⟩
    by_cases hcid : c.id = id
    · -- the session is the one destroyed: running, or never to be
      obtain rfl : n = k := Option.some.inj (hin.symm.trans ((congrArg _ hcid).trans hid))
      have hux : u = { x with toSession := x.stop } :=
        Option.some.inj (hu.symm.trans
          (List.getElem?_set_self (List.getElem?_eq_some_iff.mp hx).1))
      refine .inr (.inr
        ⟨_, List.mem_append_right _ (List.mem_singleton_self _), hcid.symm, rfl, ?_⟩)
      rw [hux]
      cases hr : x.ready with
      | true => exact .inl rfl
      | false => exact .inr ⟨stop_stopping, stop_ready.trans hr⟩
    · refine .inl ?_
      rw [OMap.get?_delete, if_neg hcid]
      exact hin
  · rcases List.mem_append.mp hc with hmem | hlast
    · exact hset.destroys c hmem
    · rw [List.mem_singleton.mp hlast]
      refine ⟨_, List.getElem?_set_self (List.getElem?_eq_some_iff.mp hx).1, stop_stopping,
        firstStop x.toSession, ?_, sealed_firstStop hfirst, fun hc => ?_⟩
      · rw [stop_stops, List.getElem?_append_right (Nat.le_refl _), Nat.sub_self]
        rfl
      · cases hc

lemma inv_destroyAll {ids : List String} (h : Inv m) (hs : anyStoppedElsewhere m ids = false) :
    Inv (ids.foldl SessionManager.destroy m) := by
  induction ids generalizing m with
  | nil => exact h
  | cons id ids ih =>
    obtain ⟨hid, hids⟩ := Bool.or_eq_false_iff.mp hs
    exact ih (inv_destroy h hid) hids

/-- A call of `destroy` ends, as the call of `stop` it awaits did. -/
lemma Inv.setDestroy (h : Inv m) {d : ℕ} {pc : DestroyPc} (hd : m.destroys[d]? = some c)
    (hpc : pc = .resolved → ∀ x, m.built[c.session]? = some x →
      x.stops[c.call]? = some .resolved) :
    Inv { m with destroys := m.destroys.set d { c with pc := pc } } where
  entries := h.entries
  ready := h.ready
  creates b hb k hk := by
    obtain ⟨u, hu, hkept, hres⟩ := h.creates b hb k hk
    refine ⟨u, hu, ?_, hres⟩
    rcases hkept with hin | hrejected | ⟨e, he, hid, hsession, hready⟩
    · exact .inl hin
    · exact .inr (.inl hrejected)
    · obtain ⟨i, hi⟩ := List.mem_iff_getElem?.mp he
      by_cases hid' : i = d
      · subst hid'
        obtain rfl : c = e := Option.some.inj (hd.symm.trans hi)
        refine .inr (.inr ⟨{ c with pc := pc }, ?_, hid, hsession, hready⟩)
        exact List.mem_iff_getElem?.mpr
          ⟨i, List.getElem?_set_self (List.getElem?_eq_some_iff.mp hi).1⟩
      · refine .inr (.inr ⟨e, ?_, hid, hsession, hready⟩)
        exact List.mem_iff_getElem?.mpr ⟨i, (List.getElem?_set_ne (Ne.symm hid')).trans hi⟩
  destroys b hb := by
    rcases List.mem_or_eq_of_mem_set hb with hmem | rfl
    · exact h.destroys b hmem
    · obtain ⟨u, hu, hstopped⟩ := h.destroys c (List.mem_of_getElem? hd)
      obtain ⟨p, hp, hsealed, -⟩ := hstopped.call
      refine ⟨u, hu, hstopped.stopping, p, hp, hsealed, fun hres => ?_⟩
      exact Option.some.inj (hp.symm.trans (hpc hres u hu))

lemma inv_destroySettled (h : Inv m) {d : ℕ} (hstep : m.destroySettled d = some m') :
    Inv m' := by
  unfold SessionManager.destroySettled at hstep
  cases hd : m.destroys[d]? with
  | none => simp only [hd] at hstep; cases hstep
  | some c =>
    simp only [hd] at hstep
    split at hstep
    · split at hstep
      · rename_i hres
        cases hstep
        refine h.setDestroy hd fun _ x hx => ?_
        rw [hx] at hres
        exact hres
      · cases hstep
        exact h.setDestroy hd fun hc => DestroyPc.noConfusion hc
      · cases hstep
    · cases hstep

lemma Inv.setReaps (h : Inv m) (reaps : List ReapCall) : Inv { m with reaps := reaps } :=
  ⟨h.entries, h.ready, h.creates, h.destroys⟩

/-- A round passes a session over, notes how its `destroy` ended, or begins one. -/
lemma reapStep_cases (hstep : m.reapStep limit j = some m') :
    (∃ reaps, m' = { m with reaps := reaps }) ∨
    ∃ reaps id, m' = { m.destroy id with reaps := reaps } ∧
      (mislays m (.reapStep j) = false → stoppedElsewhere m id = false) := by
  unfold SessionManager.reapStep at hstep
  cases hj : m.reaps[j]? with
  | none => simp only [hj] at hstep; cases hstep
  | some c =>
    obtain ⟨now, ks, reaped, waiting⟩ := c
    simp only [hj] at hstep
    cases waiting with
    | none =>
      cases ks with
      | nil => cases hstep
      | cons k rest =>
        simp only [SessionManager.reapNext] at hstep
        cases hx : m.built[k]? with
        | none => simp only [hx] at hstep; cases hstep
        | some x =>
          simp only [hx] at hstep
          split at hstep
          · cases hstep
            exact .inl ⟨_, rfl⟩
          · split at hstep
            · cases hstep
              exact .inr ⟨_, x.id, rfl, fun hs => by simpa [mislays, hj, hx] using hs⟩
            · cases hstep
              exact .inl ⟨_, rfl⟩
    | some w =>
      simp only at hstep
      split at hstep
      · cases hstep
        exact .inl ⟨_, rfl⟩
      · cases hstep
        exact .inl ⟨_, rfl⟩
      · cases hstep

lemma inv_reapStep (h : Inv m) (hs : mislays m (.reapStep j) = false)
    (hstep : m.reapStep limit j = some m') : Inv m' := by
  rcases reapStep_cases hstep with ⟨reaps, rfl⟩ | ⟨reaps, id, rfl, hother⟩
  · exact h.setReaps reaps
  · exact (inv_destroy h (hother hs)).setReaps reaps

lemma inv_session (h : Inv m) {e : Event} (hs : mislays m (.session k e) = false)
    (hstep : m.session k e = some m') : Inv m' := by
  unfold SessionManager.session at hstep
  cases hk : m.built[k]? with
  | none => simp only [hk] at hstep; cases hstep
  | some x =>
    simp only [hk] at hstep
    obtain ⟨t, ht, rfl⟩ := Option.map_eq_some_iff.mp hstep
    refine h.setSession hk (grows_event ?_ ht)
    simpa [mislays, hk] using hs

/-- **A step** that mislays nothing keeps the invariant. -/
theorem inv_step (h : Inv m) (hs : mislays m a = false) (hstep : step limit m a = some m') :
    Inv m' := by
  cases a with
  | create opts spawns now =>
    cases hstep
    exact inv_create h opts
  | createFulfilled j spawns now => exact inv_createFulfilled h hs hstep
  | createRejected j => exact inv_createRejected h hs hstep
  | destroy id =>
    cases hstep
    exact inv_destroy h hs
  | destroySettled d => exact inv_destroySettled h hstep
  | destroyAll =>
    cases hstep
    exact inv_destroyAll h hs
  | reapIdle now =>
    simp only [step] at hstep
    split at hstep
    · cases hstep
    · cases hstep
      exact h.setReaps _
  | reapStep j => exact inv_reapStep h hs hstep
  | session k e => exact inv_session h hs hstep

/-! ### Entries removed -/

/-- In the step a `destroy` of the entry began. -/
def DestroyedIn (m m' : SessionManager) (id : String) (k : ℕ) : Prop :=
  ∃ (d : ℕ) (c : DestroyCall),
    m.destroys.length ≤ d ∧ m'.destroys[d]? = some c ∧ c.id = id ∧ c.session = k

/-- In the step the `create` that installed the entry failed. -/
def FailedIn (m m' : SessionManager) (id : String) (k : ℕ) : Prop :=
  ∃ j : ℕ, m.creates[j]? = some ⟨id, .starting k⟩ ∧ m'.creates[j]? = some ⟨id, .rejected⟩

lemma set_get?_of_free {i : String} {n : ℕ} (hfree : m.sessions.get? i = none)
    (hin : m.sessions.get? id = some k) : (m.sessions.set i n).get? id = some k := by
  rw [OMap.get?_set, if_neg ?_]
  · exact hin
  · rintro rfl
    rw [hfree] at hin
    cases hin

lemma destroy_destroys (h : Inv m) (id : String) : m.destroys <+: (m.destroy id).destroys := by
  rcases destroy_cases h id with ⟨-, heq⟩ | ⟨k, x, -, -, heq⟩
  · exact ⟨[], by rw [heq, List.append_nil]⟩
  · rw [heq]
    exact List.prefix_append _ _

lemma destroyAll_destroys {ids : List String} (h : Inv m)
    (hs : anyStoppedElsewhere m ids = false) :
    m.destroys <+: (ids.foldl SessionManager.destroy m).destroys := by
  induction ids generalizing m with
  | nil => exact List.prefix_refl _
  | cons id ids ih =>
    obtain ⟨hid, hids⟩ := Bool.or_eq_false_iff.mp hs
    exact (destroy_destroys h id).trans (ih (inv_destroy h hid) hids)

lemma destroy_removes (h : Inv m) {i : String} (hin : m.sessions.get? id = some k)
    (hout : (m.destroy i).sessions.get? id ≠ some k) : DestroyedIn m (m.destroy i) id k := by
  rcases destroy_cases h i with ⟨-, heq⟩ | ⟨n, x, hi, hx, heq⟩
  · rw [heq] at hout
    exact absurd hin hout
  · rw [heq] at hout ⊢
    rw [OMap.get?_delete] at hout
    by_cases hid : id = i
    · subst hid
      obtain rfl : n = k := Option.some.inj (hi.symm.trans hin)
      refine ⟨m.destroys.length, ⟨id, n, x.stops.length, x.ready, .stopping⟩, Nat.le_refl _, ?_,
        rfl, rfl⟩
      rw [List.getElem?_append_right (Nat.le_refl _), Nat.sub_self]
      rfl
    · rw [if_neg hid] at hout
      exact absurd hin hout

lemma destroyAll_removes {ids : List String} (h : Inv m)
    (hs : anyStoppedElsewhere m ids = false) (hin : m.sessions.get? id = some k)
    (hout : (ids.foldl SessionManager.destroy m).sessions.get? id ≠ some k) :
    DestroyedIn m (ids.foldl SessionManager.destroy m) id k := by
  induction ids generalizing m with
  | nil => exact absurd hin hout
  | cons i ids ih =>
    obtain ⟨hi, hids⟩ := Bool.or_eq_false_iff.mp hs
    have hnext := inv_destroy h hi
    by_cases hmid : (m.destroy i).sessions.get? id = some k
    · obtain ⟨d, c, hd, hrest⟩ := ih hnext hids hmid hout
      exact ⟨d, c, Nat.le_trans (destroy_destroys h i).length_le hd, hrest⟩
    · obtain ⟨d, c, hd, hc, hrest⟩ := destroy_removes h hin hmid
      obtain ⟨more, hmore⟩ := destroyAll_destroys hnext hids
      refine ⟨d, c, hd, ?_, hrest⟩
      rw [List.foldl_cons, ← hmore,
        List.getElem?_append_left (List.getElem?_eq_some_iff.mp hc).1]
      exact hc

lemma create_keeps (opts : CreateSessionOptions) (hin : m.sessions.get? id = some k) :
    (m.create opts spawns now).sessions.get? id = some k := by
  unfold SessionManager.create
  cases hadmits : m.admits opts with
  | none => exact hin
  | some backend =>
    simp only
    split
    · exact hin
    · exact set_get?_of_free (admits_free hadmits) hin

lemma createFulfilled_keeps (hs : mislays m (.createFulfilled j spawns now) = false)
    (hstep : m.createFulfilled j spawns now = some m') (hin : m.sessions.get? id = some k) :
    m'.sessions.get? id = some k := by
  unfold SessionManager.createFulfilled at hstep
  split at hstep
  · rename_i i backend websocket hj
    have hfree : m.sessions.get? i = none := by
      refine OMap.has_eq_false_iff.mp ?_
      simpa [mislays, hj] using hs
    cases hstep
    exact set_get?_of_free hfree hin
  · split at hstep
    · cases hstep
      exact hin
    · cases hstep
  · cases hstep

lemma createRejected_removes (hs : mislays m (.createRejected j) = false)
    (hstep : m.createRejected j = some m') (hin : m.sessions.get? id = some k)
    (hout : m'.sessions.get? id ≠ some k) : FailedIn m m' id k := by
  unfold SessionManager.createRejected at hstep
  split at hstep
  · cases hstep
    exact absurd hin hout
  · rename_i i n hj
    split at hstep
    · cases hstep
      by_cases hid : id = i
      · subst hid
        obtain rfl : k = n := by simpa [mislays, hj, hin] using hs
        exact ⟨j, hj, List.getElem?_set_self (List.getElem?_eq_some_iff.mp hj).1⟩
      · rw [OMap.get?_delete, if_neg hid] at hout
        exact absurd hin hout
    · cases hstep
  · cases hstep

lemma destroySettled_keeps {d : ℕ} (hstep : m.destroySettled d = some m') :
    m'.sessions = m.sessions := by
  unfold SessionManager.destroySettled at hstep
  split at hstep
  · split at hstep
    · split at hstep
      · cases hstep; rfl
      · cases hstep; rfl
      · cases hstep
    · cases hstep
  · cases hstep

lemma reapStep_removes (h : Inv m) (hstep : m.reapStep limit j = some m')
    (hin : m.sessions.get? id = some k) (hout : m'.sessions.get? id ≠ some k) :
    DestroyedIn m m' id k := by
  rcases reapStep_cases hstep with ⟨reaps, rfl⟩ | ⟨reaps, i, rfl, -⟩
  · exact absurd hin hout
  · exact destroy_removes h hin hout

lemma session_keeps {e : Event} (hstep : m.session k e = some m') :
    m'.sessions = m.sessions ∧ m'.creates = m.creates ∧ m'.destroys = m.destroys := by
  unfold SessionManager.session at hstep
  split at hstep
  · cases hstep
  · obtain ⟨t, -, rfl⟩ := Option.map_eq_some_iff.mp hstep
    exact ⟨rfl, rfl, rfl⟩

/-- **Entries** go by a `destroy` of them or with the failure of the call that installed them. -/
theorem step_removes (h : Inv m) (hs : mislays m a = false) (hstep : step limit m a = some m')
    (hin : m.sessions.get? id = some k) (hout : m'.sessions.get? id ≠ some k) :
    DestroyedIn m m' id k ∨ FailedIn m m' id k := by
  cases a with
  | create opts spawns now =>
    cases hstep
    exact absurd (create_keeps opts hin) hout
  | createFulfilled j spawns now => exact absurd (createFulfilled_keeps hs hstep hin) hout
  | createRejected j => exact .inr (createRejected_removes hs hstep hin hout)
  | destroy i =>
    cases hstep
    exact .inl (destroy_removes h hin hout)
  | destroySettled d =>
    rw [destroySettled_keeps hstep] at hout
    exact absurd hin hout
  | destroyAll =>
    cases hstep
    exact .inl (destroyAll_removes h hs hin hout)
  | reapIdle now =>
    simp only [step] at hstep
    split at hstep
    · cases hstep
    · cases hstep
      exact absurd hin hout
  | reapStep j => exact .inl (reapStep_removes h hstep hin hout)
  | session n e =>
    rw [(session_keeps hstep).1] at hout
    exact absurd hin hout

/-! ### Runs of the registry -/

/-- A call of `destroy` that has resolved stays as it is. -/
lemma resolved_stays (h : Inv m) (hs : mislays m a = false) (hstep : step limit m a = some m')
    (hc : c ∈ m.destroys) (hpc : c.pc = .resolved) : c ∈ m'.destroys := by
  cases a with
  | create opts spawns now =>
    cases hstep
    unfold SessionManager.create
    split
    · exact hc
    · split <;> exact hc
  | createFulfilled j spawns now =>
    simp only [step, SessionManager.createFulfilled] at hstep
    split at hstep
    · cases hstep
      exact hc
    · split at hstep
      · cases hstep
        exact hc
      · cases hstep
    · cases hstep
  | createRejected j =>
    simp only [step, SessionManager.createRejected] at hstep
    split at hstep
    · cases hstep
      exact hc
    · split at hstep
      · cases hstep
        exact hc
      · cases hstep
    · cases hstep
  | destroy id =>
    cases hstep
    exact (destroy_destroys h id).subset hc
  | destroySettled d =>
    obtain ⟨i, hi⟩ := List.mem_iff_getElem?.mp hc
    have hset : ∀ c₀ b, m.destroys[d]? = some c₀ → c₀.pc = .stopping → c ∈ m.destroys.set d b := by
      intro c₀ b hd hstopping
      refine List.mem_iff_getElem?.mpr ⟨i, (List.getElem?_set_ne ?_).trans hi⟩
      rintro rfl
      obtain rfl : c = c₀ := Option.some.inj (hi.symm.trans hd)
      rw [hpc] at hstopping
      cases hstopping
    simp only [step, SessionManager.destroySettled] at hstep
    split at hstep
    · rename_i c₀ hd
      split at hstep
      · rename_i hstopping
        split at hstep
        · cases hstep
          exact hset c₀ _ hd hstopping
        · cases hstep
          exact hset c₀ _ hd hstopping
        · cases hstep
      · cases hstep
    · cases hstep
  | destroyAll =>
    cases hstep
    exact (destroyAll_destroys h hs).subset hc
  | reapIdle now =>
    simp only [step] at hstep
    split at hstep
    · cases hstep
    · cases hstep
      exact hc
  | reapStep j =>
    rcases reapStep_cases hstep with ⟨reaps, rfl⟩ | ⟨reaps, id, rfl, -⟩
    · exact hc
    · exact (destroy_destroys h id).subset hc
  | session k e =>
    rw [(session_keeps hstep).2.2]
    exact hc

lemma inv_init : Inv .init where
  entries id k hid := by cases hid
  ready x hx := by cases hx
  creates c hc := by cases hc
  destroys c hc := by cases hc

lemma Inv.gone (h : Inv m) (hc : c ∈ m.destroys) (hpc : c.pc = .resolved) :
    ∃ s, m.built[c.session]? = some s ∧ s.alive = false := by
  obtain ⟨s, hs, hstopped⟩ := h.destroys c hc
  obtain ⟨pc, -, hsealed, hres⟩ := hstopped.call
  rw [hres hpc] at hsealed
  exact ⟨s, hs, hsealed⟩

lemma Inv.created (h : Inv m) {b : CreateCall} (hb : b ∈ m.creates) (hpc : b.pc = .resolved k) :
    m.sessions.get? b.id = some k ∨
      ∃ c ∈ m.destroys, c.id = b.id ∧ c.session = k ∧ c.ready = true := by
  obtain ⟨s, hs, hkept, hres⟩ := h.creates b hb k (by rw [hpc]; rfl)
  have hstart := hres hpc
  have hready := h.ready s (List.mem_of_getElem? hs) (by rw [hstart]; rfl)
  rcases hkept with hin | hrejected | ⟨c, hc, hid, hk, hc'⟩
  · exact .inl hin
  · rw [hstart] at hrejected
    cases hrejected
  · rcases hc' with hr | ⟨-, hr⟩
    · exact .inr ⟨c, hc, hid, hk, hr⟩
    · rw [hready] at hr
      cases hr

/-- What a run does to the registry: an entry goes by a `destroy` of it or with the `create`
that installed it, a created session is registered unless it was destroyed while running, and
a destroyed session stays gone. -/
structure RegistryLawful (limit : ℕ) (as : List Action) (m' : SessionManager) : Prop where
  entries : ∀ y ∈ steps (step limit) .init as, ∀ id k, y.1.sessions.get? id = some k →
    y.2.2.sessions.get? id ≠ some k → DestroyedIn y.1 y.2.2 id k ∨ FailedIn y.1 y.2.2 id k
  created : ∀ b ∈ m'.creates, ∀ k, b.pc = .resolved k →
    m'.sessions.get? b.id = some k ∨
      ∃ c ∈ m'.destroys, c.id = b.id ∧ c.session = k ∧ c.ready = true
  destroyed : ∀ bs cs t, as = bs ++ cs → run (step limit) .init bs = some t →
    ∀ c ∈ t.destroys, c.pc = .resolved → ∃ s, m'.built[c.session]? = some s ∧ s.alive = false

/-- **The registry of sessions**, whatever the order of creates, destroys, reaping, start
failures and exits, as long as no two calls of `create` meet at one id, no session is revived
while it is being stopped and no worker is left to another call of `stop`. -/
theorem registry_lawful (as : List Action)
    (hok : Along (step limit) (fun m a => mislays m a = false) .init as)
    (hrun : run (step limit) .init as = some m') : RegistryLawful limit as m' := by
  have hkeep : ∀ m a m', Inv m → mislays m a = false → step limit m a = some m' → Inv m' :=
    fun m a m' hi ha hstep => inv_step hi ha hstep
  have hinv := invariant_along Inv hkeep inv_init hok hrun
  refine ⟨fun y hy id k hin hout => ?_, fun b hb k hpc => hinv.created hb hpc,
    fun bs cs t heq hbs c hc hpc => ?_⟩
  · obtain ⟨hi, ha, hstep⟩ := steps_along Inv hkeep inv_init hok y hy
    exact step_removes hi ha hstep hin hout
  · subst heq
    obtain ⟨hok₁, hok₂⟩ := along_append hok
    obtain ⟨t', ht', hcs⟩ := run_append_eq_some.mp hrun
    obtain rfl : t' = t := Option.some.inj (ht'.symm.trans hbs)
    have hend := invariant_along (fun n => Inv n ∧ c ∈ n.destroys)
      (fun n a n' hn ha hstep =>
        ⟨inv_step hn.1 ha hstep, resolved_stays hn.1 ha hstep hn.2 hpc⟩)
      ⟨invariant_along Inv hkeep inv_init hok₁ hbs, hc⟩ (hok₂ t' hbs) hcs
    exact hend.1.gone hend.2 hpc

/-- A process session under a path of its own, made without waiting for anything. -/
def bare : CreateSessionOptions := ⟨"a", some .process, false, false⟩

/-- A session comes up, is destroyed, exits, and its id is used again. -/
def usedAgain : List Action :=
  [.create bare true 0, .session 0 (.startFulfilled true), .session 0 (.startFulfilled true),
    .session 0 (.startFulfilled true), .session 0 (.startFulfilled true),
    .session 0 (.startFulfilled true), .session 0 (.startFulfilled true),
    .createFulfilled 0 true 0, .destroy "a", .session 0 (.stopFulfilled 0),
    .session 0 (.stopFulfilled 0), .session 0 .die, .session 0 (.onExit false),
    .session 0 (.stopFulfilled 0), .session 0 (.stopFulfilled 0), .destroySettled 0,
    .create bare true 0]

theorem registry_lawful_usedAgain : ∃ m, m.sessions.get? "a" = some 1 ∧
    run (step 0) .init usedAgain = some m ∧ RegistryLawful 0 usedAgain m :=
  ⟨_, rfl, rfl, registry_lawful usedAgain (by decide) rfl⟩

/-- A session destroyed while its socket directory is being made is spawned all the same. -/
def revived : List Action :=
  [.create bare true 0, .destroy "a", .session 0 (.stopFulfilled 0),
    .session 0 (.stopFulfilled 0), .session 0 (.stopFulfilled 0), .destroySettled 0,
    .session 0 (.startFulfilled true), .session 0 (.startFulfilled true),
    .session 0 (.startFulfilled true), .session 0 (.startFulfilled true),
    .session 0 (.startFulfilled true), .session 0 (.startFulfilled true),
    .createFulfilled 0 true 0]

/-- The id is taken again while the first `create` of it is still to fail. -/
def takenAgain : List Action :=
  [.create bare true 0, .destroy "a", .create bare true 0, .session 0 (.startFulfilled true),
    .session 0 (.startFulfilled false), .createRejected 0]

/-- **Slips of the registry**: a destroyed session runs and its `create` resolves with it, and
a failed `create` takes out the entry of another. -/
theorem registry_unlawful :
    (∃ m, run (step 0) .init revived = some m ∧ ¬ RegistryLawful 0 revived m) ∧
    ∃ m, run (step 0) .init takenAgain = some m ∧ ¬ RegistryLawful 0 takenAgain m := by
  refine ⟨⟨_, rfl, fun h => ?_⟩, ⟨_, rfl, fun h => ?_⟩⟩
  · rcases h.created ⟨"a", .resolved 0⟩ (by decide) 0 rfl with hin | ⟨c, hc, -, -, hready⟩
    · cases hin
    · rw [List.mem_singleton.mp hc] at hready
      cases hready
  · have hlast := h.entries _ (List.mem_of_getElem? (i := 5) rfl) "a" 1 rfl (by decide)
    rcases hlast with ⟨d, c, hd, hc, -, hk⟩ | ⟨j, hj, hj'⟩
    · cases d with
      | zero => cases hd
      | succ d => cases hc
    · cases j with
      | zero => cases hj
      | succ j =>
        cases j with
        | zero => cases hj'
        | succ j => cases hj

end FabPcb.RegistrySafety
