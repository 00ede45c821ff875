import FabPcb.JobUndo

/-!
What a failed route job leaves on the board.

Until the tentative commit the copper is the original one, and the undo of that commit puts it back.
What fails in between leaves the tentative copper where it is; so does the last request of a job that
has kept its copper, and a router that has put copper on the board by itself.
-/

namespace FabPcb.JobFailure

open Dialogue RouteJob RouteJob.Job RouteWorld JobRules

/-! ### The commit that stands -/

/-- A job's last entry in the log, if it is a commit: the undo entry that it has left. -/
def standingStep (n : ℕ) (standing : Option (Option ℕ)) : Event → Option (Option ℕ)
  | .committed party entry => if party = .job n then some entry else standing
  | .undone party _ => if party = .job n then none else standing

def standing (n : ℕ) (log : List Event) : Option (Option ℕ) := log.foldl (standingStep n) none

structure Stage where
  board : Board
  standing : Option (Option ℕ)

/-- How a request may go for a job that leaves nothing behind when it fails. -/
def Mild (standing : Option (Option ℕ)) (view : RouteJobInfo) (aborted : Bool) :
    Request → Choice → Prop
  | .runDrc, choice => ∀ f, choice ≠ .fail f
  | .undo, choice => (∀ f, choice ≠ .fail f) ∧ ∃ entry, standing = some (some entry)
  | .ratsnest _, choice => view.state = .applying → standing ≠ none → ∀ f, choice ≠ .fail f
  | .getTracks, choice => view.state = .done → standing ≠ none → ∀ f, choice ≠ .fail f
  | .commit _, choice => ∀ f imported, choice ≠ .lost f imported
  | .route, .lost _ imported => imported = none
  | .route, .result result imported => imported ≠ none →
    result.alreadyApplied = true ∧ nothingRouted result = none ∧ aborted = false
  | _, _ => True

section Contract

variable (recordsEmpty : Bool) (n : ℕ)

/-- A dialogue with a board that nobody else edits. -/
def alone : Contract RouteJobInfo Request Answer Stage where
  permits _ view _ := finished view.state = true → view.state = .done
  replies s view q r s' := ∃ choice events,
    serve recordsEmpty (.job n) s.board q choice = some (s'.board, r.1, events) ∧
      s'.standing = events.foldl (standingStep n) s.standing ∧ Mild s.standing view r.2 q choice

end Contract

variable {recordsEmpty : Bool} {n : ℕ} {orig : List Item} {l : Locals} {s s' : Stage}

/-- The copper is the original one. -/
structure Original (orig : List Item) (l : Locals) (s : Stage) : Prop where
  items : s.board.items = orig
  state : finished l.info.state = false

/-- The copper is the original one, unless a commit stands. -/
structure Kept (orig : List Item) (l : Locals) (s : Stage) : Prop where
  items : s.standing = none → s.board.items = orig
  state : finished l.info.state = false

/-- A commit stands, on the original copper. -/
structure Tentative (orig : List Item) (l : Locals) (s : Stage) : Prop where
  stands : ∃ entry, s.standing = some entry
  before : ∀ entry, s.standing = some (some entry) →
    ∃ top rest, s.board.undoStack = top :: rest ∧ top.before = orig
  state : l.info.state = .applying

lemma Original.kept (h : Original orig l s) : Kept orig l s := ⟨fun _ => h.items, h.state⟩

lemma Tentative.kept (h : Tentative orig l s) : Kept orig l s := by
  obtain ⟨entry, hentry⟩ := h.stands
  refine ⟨fun hnone => ?_, by rw [h.state]; rfl⟩
  rw [hentry] at hnone
  cases hnone

lemma permits_of_open {q : Request} (h : finished l.info.state = false) :
    (alone recordsEmpty n).permits s l.info q := fun hfinal => by
  rw [h] at hfinal
  cases hfinal

lemma plain_reply {q : Request} (hq : isPlain q = true) {r : Answer q}
    {view : RouteJobInfo} (h : (alone recordsEmpty n).replies s view q r s') :
    s' = s ∧ ∃ choice, Mild s.standing view r.2 q choice ∧
      (r.1.toOption.isSome = true ∨ ∃ f, choice = .fail f) := by
  obtain ⟨choice, events, hserve, hstanding, hmild⟩ := h
  obtain ⟨hboard, hevents, hreply⟩ := serve_plain hq hserve
  refine ⟨?_, choice, hmild, hreply⟩
  cases s
  cases hboard
  dsimp only at hevents hstanding
  rw [hevents] at hstanding
  cases hstanding
  rfl

/-! ### Before the commit -/

lemma stable_original : Stable (Original orig) := by
  rintro l s info ⟨hitems, hopen⟩ hstate -
  refine ⟨hitems, ?_⟩
  rcases hstate with h | h
  · exact h
  · rw [h]
    exact hopen

lemma asks_original {q : Request} (hq : isPlain q = true) :
    Asks (alone recordsEmpty n) (Original orig) q := by
  rintro l s ⟨hitems, hopen⟩
  refine ⟨permits_of_open hopen, fun r aborted s' hr => ?_⟩
  obtain ⟨rfl, -⟩ := plain_reply hq hr
  exact ⟨hitems, hopen⟩

lemma asks_kept {q : Request} (hq : isPlain q = true) :
    Asks (alone recordsEmpty n) (Kept orig) q := by
  rintro l s ⟨hitems, hopen⟩
  refine ⟨permits_of_open hopen, fun r aborted s' hr => ?_⟩
  obtain ⟨rfl, -⟩ := plain_reply hq hr
  exact ⟨hitems, hopen⟩

/-- The router leaves the board alone, or has a result that is not to be applied. -/
lemma meets_route (h : Original orig l s) :
    Meets (alone recordsEmpty n) (fun r l s => match r with
      | .ok result => Original orig l s ∨ (result.alreadyApplied = true ∧
          nothingRouted result = none ∧ l.aborted = false ∧ Kept orig l s)
      | .error _ => Original orig l s) (ask .route) l s := by
  obtain ⟨hitems, hopen⟩ := h
  refine (meets_ask (q := .route)).mpr ⟨permits_of_open hopen, ?_, ?_⟩
  · rintro result aborted s' ⟨choice, events, hserve, hstanding, hmild⟩
    obtain ⟨hboard, -⟩ | ⟨change, -, hevents, ⟨res, rfl, hresult⟩ | ⟨f, rfl⟩⟩ := serve_route hserve
    · exact Or.inl ⟨(congrArg Board.items hboard).trans hitems, hopen⟩
    · cases hresult
      obtain ⟨happlied, hrouted, haborted⟩ := hmild nofun
      refine Or.inr ⟨happlied, hrouted, haborted, fun hnone => ?_, hopen⟩
      have hlast : events = [.committed (.job n) (entryOf recordsEmpty s.board change)] := hevents
      rw [hstanding, hlast] at hnone
      simp [standingStep] at hnone
    · cases (hmild : some change = none)
  · rintro f aborted s' ⟨choice, events, hserve, hstanding, hmild⟩
    obtain ⟨hboard, -⟩ | ⟨change, -, -, ⟨res, -, hresult⟩ | ⟨f', rfl⟩⟩ := serve_route hserve
    · exact ⟨(congrArg Board.items hboard).trans hitems, hopen⟩
    · cases hresult
    · cases (hmild : some change = none)

lemma meets_checked (result : RouteResult) (h : Original orig l s ∨ (result.alreadyApplied = true ∧
    nothingRouted result = none ∧ l.aborted = false ∧ Kept orig l s)) :
    Meets (alone recordsEmpty n) (fun r l s => match r with
      | .ok result => Original orig l s ∨ (result.alreadyApplied = true ∧ Kept orig l s)
      | .error _ => Original orig l s)
      (checkCancelled >>= fun _ => orThrow (nothingRouted result) >>= fun _ => pure result) l s := by
  rcases h with h | ⟨happlied, hrouted, haborted, h⟩
  · refine meets_after keeps_checkCancelled h (fun _ _ _ h => h) fun _ l s h => ?_
    exact meets_after keeps_orThrow h (fun _ _ _ h => h) fun _ l s h => Or.inl h
  · refine meets_bind.mpr (meets_checkCancelled.mpr ?_)
    rw [if_neg (by rw [haborted]; decide), hrouted]
    exact Or.inr ⟨happlied, h⟩

lemma meets_runRouter (h : Original orig l s) :
    Meets (alone recordsEmpty n) (fun r l s => match r with
      | .ok result => Original orig l s ∨ (result.alreadyApplied = true ∧ Kept orig l s)
      | .error _ => Original orig l s) runRouter l s := by
  have hset : Keeps (alone recordsEmpty n) (Original orig) (setState .routing) :=
    keeps_setState stable_original rfl
  refine meets_after hset h (fun _ _ _ h => h) fun _ l s h => ?_
  refine meets_bind.mpr ((meets_route h).mono fun r l s h => ?_)
  cases r with
  | error e => exact h
  | ok result => exact meets_checked result h

/-! ### Passes -/

/-- What is left when a part of the clean-up fails. -/
def Restored {α : Type} (orig : List Item) (post : α → Locals → Stage → Prop) :
    Except JobError α → Locals → Stage → Prop
  | .ok a, l, s => post a l s
  | .error _, l, s => Original orig l s

/-- The copper is the original one, while the job applies. -/
structure Applying (orig : List Item) (l : Locals) (s : Stage) : Prop where
  items : s.board.items = orig
  state : l.info.state = .applying

lemma Applying.original (h : Applying orig l s) : Original orig l s :=
  ⟨h.items, by rw [h.state]; rfl⟩

lemma asks_applying {q : Request} (hq : isPlain q = true) :
    Asks (alone recordsEmpty n) (Applying orig) q := by
  rintro l s ⟨hitems, hstate⟩
  refine ⟨permits_of_open (by rw [hstate]; rfl), fun r aborted s' hr => ?_⟩
  obtain ⟨rfl, -⟩ := plain_reply hq hr
  exact ⟨hitems, hstate⟩

lemma meets_commit (change : Change) (h : Applying orig l s) :
    Meets (alone recordsEmpty n) (Restored orig fun _ => Tentative orig) (ask (.commit change)) l s := by
  obtain ⟨hitems, hstate⟩ := h
  have hopen : finished l.info.state = false := by rw [hstate]; rfl
  refine (meets_ask (q := .commit change)).mpr ⟨permits_of_open hopen, ?_, ?_⟩
  · rintro committed aborted s' ⟨choice, events, hserve, hstanding, hmild⟩
    obtain ⟨f, -, -, hreply, -⟩ | ⟨hboard, hevents, -⟩ := serve_commit hserve
    · cases hreply
    have hboard : s'.board = s.board.commit recordsEmpty change := hboard
    have hevents : events = [.committed (.job n) (entryOf recordsEmpty s.board change)] := hevents
    have hstands : s'.standing = some (entryOf recordsEmpty s.board change) := by
      rw [hstanding, hevents]
      simp [standingStep]
    refine ⟨⟨_, hstands⟩, fun entry hentry => ?_, hstate⟩
    rw [hstands, entryOf] at hentry
    rw [hboard, Board.commit]
    cases hleaves : Board.leavesEntry recordsEmpty change with
    | true => exact ⟨_, _, rfl, hitems⟩
    | false =>
      rw [hleaves] at hentry
      cases hentry
  · rintro f aborted s' ⟨choice, events, hserve, hstanding, hmild⟩
    obtain ⟨f', -, hboard, -⟩ | ⟨-, -, hreply | ⟨f', imported, hlost, -⟩⟩ := serve_commit hserve
    · exact ⟨(congrArg Board.items hboard).trans hitems, hopen⟩
    · cases hreply
    · exact absurd hlost (hmild f' imported)

lemma meets_apply (c : Cleanup) (h : Applying orig l s) :
    Meets (alone recordsEmpty n) (Restored orig fun _ => Tentative orig) c.apply l s :=
  meets_after (keeps_claimedViaItems (asks_applying rfl) _) h (fun _ _ _ h => h.original)
    fun _ _ _ h => meets_commit _ h

/-- An undo puts the original copper back. -/
lemma meets_undo (h : Tentative orig l s) :
    Meets (alone recordsEmpty n) (Restored orig fun _ => Applying orig) (ask .undo) l s := by
  obtain ⟨-, hbefore, hstate⟩ := h
  have hopen : finished l.info.state = false := by rw [hstate]; rfl
  have hundone : ∀ {s' : Stage}, (∃ entry, s.standing = some (some entry)) →
      s'.board = s.board.undo → s'.board.items = orig := by
    rintro s' ⟨entry, hentry⟩ hboard
    obtain ⟨top, rest, hstack, htop⟩ := hbefore entry hentry
    rw [hboard, Board.undo, hstack]
    exact htop
  refine (meets_ask (q := .undo)).mpr ⟨permits_of_open hopen, ?_, ?_⟩
  · rintro undone aborted s' ⟨choice, events, hserve, -, hfail, hentry⟩
    obtain ⟨f, hchoice, -⟩ | ⟨hboard, -⟩ := serve_undo hserve
    · exact absurd hchoice (hfail f)
    · exact ⟨hundone hentry hboard, hstate⟩
  · rintro f aborted s' ⟨choice, events, hserve, -, hfail, hentry⟩
    obtain ⟨f', hchoice, -⟩ | ⟨hboard, -⟩ := serve_undo hserve
    · exact absurd hchoice (hfail f')
    · exact ⟨hundone hentry hboard, hopen⟩

lemma meets_sure {q : Request} (hq : isPlain q = true) (h : Tentative orig l s)
    (hsure : ∀ aborted choice, Mild s.standing l.info aborted q choice → ∀ f, choice ≠ .fail f) :
    Meets (alone recordsEmpty n) (Restored orig fun _ => Tentative orig) (ask q) l s := by
  have hstate := h.state
  refine meets_ask.mpr ⟨permits_of_open (by rw [hstate]; rfl), ?_, ?_⟩
  · intro a aborted s' hr
    obtain ⟨rfl, -⟩ := plain_reply hq hr
    exact ⟨h.stands, h.before, hstate⟩
  · intro f aborted s' hr
    obtain ⟨-, choice, hmild, hok | ⟨f', hfail⟩⟩ := plain_reply hq hr
    · cases hok
    · exact absurd hfail (hsure aborted choice hmild f')

lemma meets_restored_bind {α β : Type} {m : Job α} {f : α → Job β}
    {post : α → Locals → Stage → Prop} {post' : β → Locals → Stage → Prop}
    (hm : Meets (alone recordsEmpty n) (Restored orig post) m l s)
    (hf : ∀ a l s, post a l s → Meets (alone recordsEmpty n) (Restored orig post') (f a) l s) :
    Meets (alone recordsEmpty n) (Restored orig post') (m >>= f) l s := by
  rw [meets_bind]
  refine hm.mono fun r l s h => ?_
  cases r with
  | ok a => exact hf a l s h
  | error e => exact h

lemma meets_require {ok : Bool} {e : JobError} (h : Applying orig l s) :
    Meets (alone recordsEmpty n) (Restored orig fun _ => Applying orig) (require ok e) l s := by
  cases ok with
  | true => exact h
  | false => exact h.original

lemma meets_relabelTo (c : Cleanup) (message : String) (h : Tentative orig l s) :
    Meets (alone recordsEmpty n) (Restored orig fun _ => Kept orig) (relabelTo c message) l s := by
  unfold relabelTo
  split
  · exact h.kept
  · refine meets_restored_bind (meets_undo h) fun undone l s h => ?_
    refine meets_restored_bind (meets_require h) fun _ l s h => ?_
    exact meets_restored_bind (meets_apply _ h) fun _ l s h => h.kept

lemma meets_relabel (request : RouteJobRequest) (c : Cleanup) (h : Tentative orig l s) :
    Meets (alone recordsEmpty n) (Restored orig fun _ => Kept orig) (relabel request c) l s := by
  unfold relabel
  split
  · exact h.kept
  · have hask : Meets (alone recordsEmpty n) (Restored orig fun _ => Tentative orig)
        (ask (.ratsnest (request.nets.getD []))) l s := by
      refine meets_sure rfl h fun aborted choice hmild => ?_
      obtain ⟨entry, hentry⟩ := h.stands
      exact hmild h.state (by rw [hentry]; exact nofun)
    exact meets_restored_bind hask fun edges l s h => meets_relabelTo c _ h

/-- How a pass leaves the board. -/
def Passed (orig : List Item) : Outcome → Locals → Stage → Prop
  | .stop _ => Kept orig
  | .again _ => Applying orig

lemma meets_undoPass (scope : Scope) (c : Cleanup) (created : List Item) (dangling : List ℕ)
    (h : Tentative orig l s) :
    Meets (alone recordsEmpty n) (Restored orig (Passed orig)) (undoPass scope c created dangling)
      l s := by
  refine meets_restored_bind (meets_undo h) fun undone l s h => ?_
  refine meets_restored_bind (meets_require h) fun _ l s h => ?_
  refine meets_restored_bind (meets_require h) fun _ l s h => ?_
  split
  · exact h.original.kept
  · exact h

lemma meets_checkPass (scope : Scope) (c : Cleanup) (created : List Item) (h : Tentative orig l s) :
    Meets (alone recordsEmpty n) (Restored orig (Passed orig)) (checkPass scope c created) l s := by
  have hask : Meets (alone recordsEmpty n) (Restored orig fun _ => Tentative orig)
      (ask .runDrc) l s := meets_sure rfl h fun aborted choice hmild => hmild
  refine meets_restored_bind hask fun markers l s h => ?_
  dsimp only
  split
  · exact meets_restored_bind (meets_relabel _ _ h) fun _ l s h => h
  · exact meets_undoPass scope c created _ h

lemma meets_cleanupPass (scope : Scope) (c : Cleanup) (h : Applying orig l s) :
    Meets (alone recordsEmpty n) (Restored orig (Passed orig)) (cleanupPass scope c) l s := by
  refine meets_restored_bind (meets_apply c h) fun committed l s h => ?_
  split
  · exact h.kept
  · exact meets_checkPass scope c _ h

lemma meets_cleanupLoop (scope : Scope) (k : ℕ) (c : Cleanup) (h : Applying orig l s) :
    Meets (alone recordsEmpty n) (Restored orig fun _ => Kept orig) (cleanupLoop scope k c) l s := by
  induction k generalizing c l s with
  | zero => exact h.original.kept
  | succ k ih =>
    refine meets_restored_bind (meets_cleanupPass scope c h) fun out l s h => ?_
    cases out with
    | stop c => exact h
    | again c =>
      dsimp only
      split
      · exact h.original
      · exact ih c h

lemma meets_applyResult (scope : Scope) (result : RouteResult)
    (h : Original orig l s ∨ (result.alreadyApplied = true ∧ Kept orig l s)) :
    Meets (alone recordsEmpty n) (Restored orig fun _ => Kept orig) (applyResult scope result) l s := by
  refine meets_setState.mpr ?_
  rcases h with ⟨hitems, -⟩ | ⟨happlied, h⟩
  · split
    · exact ⟨fun _ => hitems, rfl⟩
    · exact meets_cleanupLoop scope _ _ ⟨hitems, rfl⟩
  · rw [happlied]
    exact ⟨h.items, rfl⟩

/-! ### The end of a job -/

/-- A job that failed for another reason than the last save leaves the original copper. -/
def Ended (orig : List Item) (r : Except JobError Unit) (l : Locals) (s : Stage) : Prop :=
  (settle (r, l)).state = .failed ∨ (settle (r, l)).state = .cancelled →
    (∀ f, (settle (r, l)).error ≠ some (.notSaved f)) → s.board.items = orig

lemma ended_of_items {r : Except JobError Unit} (h : s.board.items = orig) : Ended orig r l s :=
  fun _ _ => h

lemma ended_of_notSaved {f : Failure} : Ended orig (.error (.notSaved f)) l s :=
  fun _ h => absurd rfl (h f)

lemma ended_of_done (h : l.info.state = .done) : Ended orig (.ok ()) l s := by
  have hstate : (settle (.ok (), l)).state = .done := h
  rintro (hend | hend) <;> rw [hstate] at hend <;> cases hend

lemma meets_refillAfter (h : Kept orig l s) :
    Meets (alone recordsEmpty n) (fun r l s => r = .ok () ∧ Kept orig l s) refillAfter l s := by
  refine meets_setState.mpr (meets_bind.mpr ?_)
  have hset : Kept orig { l with info := { l.info with state := .filling } } s := ⟨h.items, rfl⟩
  have hask : Asks (alone recordsEmpty n) (Kept orig) .refillZones := asks_kept rfl
  obtain ⟨hpermits, hreplies⟩ := hask _ _ hset
  exact meets_attempt.mpr ⟨hpermits, fun r aborted s' hr => ⟨rfl, (hreplies r aborted s' hr).items, rfl⟩⟩

lemma meets_persist (h : Kept orig l s) :
    Meets (alone recordsEmpty n) (fun r l s => match r with
      | .ok _ => Kept orig l s
      | .error e => ∃ f, e = .notSaved f) persistAppliedRoute l s := by
  refine meets_setState.mpr (meets_bind.mpr ?_)
  have hset : Kept orig { l with info := { l.info with state := .saving } } s := ⟨h.items, rfl⟩
  have hask : Asks (alone recordsEmpty n) (Kept orig) .save := asks_kept rfl
  obtain ⟨hpermits, hreplies⟩ := hask _ _ hset
  refine meets_attempt.mpr ⟨hpermits, fun r aborted s' hr => ?_⟩
  cases r with
  | ok a => exact hreplies (.ok a) aborted s' hr
  | error f => exact ⟨f, rfl⟩

lemma meets_keepApplied (request : RouteJobRequest) (h : Kept orig l s) :
    Meets (alone recordsEmpty n) (fun r l s => match r with
      | .ok _ => Kept orig l s
      | .error e => ∃ f, e = .notSaved f) (keepApplied request) l s := by
  have hrefill : Meets (alone recordsEmpty n) (fun r l s => r = .ok () ∧ Kept orig l s)
      (when (refillsZones request) refillAfter) l s := by
    unfold when
    split
    · exact meets_refillAfter h
    · exact ⟨rfl, h⟩
  refine meets_bind.mpr (hrefill.mono fun r l s ⟨hr, h⟩ => ?_)
  subst hr
  exact meets_persist h

lemma meets_finish (scope : Scope) (routerRouted : ℤ) (c : Cleanup) (applied : Bool)
    (measured : List RouteConnection × ℤ) (h : Kept orig l s) :
    Meets (alone recordsEmpty n) (Ended orig) (finish scope routerRouted c applied measured) l s := by
  refine meets_setState.mpr (meets_bind.mpr ((meets_ask (q := .getTracks)).mpr ⟨fun _ => rfl, ?_, ?_⟩))
  · exact fun items aborted s' _ => ended_of_done rfl
  · intro f aborted s' hr
    obtain ⟨rfl, choice, hmild, hok | ⟨f', hfail⟩⟩ := plain_reply rfl hr
    · cases hok
    · refine ended_of_items (h.items ?_)
      by_contra hstands
      exact hmild rfl hstands f' hfail

lemma meets_complete (scope : Scope) (routerRouted : ℤ) (c : Cleanup) (h : Kept orig l s) :
    Meets (alone recordsEmpty n) (Ended orig) (complete scope routerRouted c) l s := by
  have hkeep : Meets (alone recordsEmpty n) (fun r l s => match r with
      | .ok _ => Kept orig l s
      | .error e => ∃ f, e = .notSaved f)
      (when (c.applied || c.result.applied.isSome) (keepApplied scope.request)) l s := by
    unfold when
    split
    · exact meets_keepApplied _ h
    · exact h
  refine meets_bind.mpr (hkeep.mono fun r l s h => ?_)
  cases r with
  | error e =>
    obtain ⟨f, rfl⟩ := h
    exact ended_of_notSaved
  | ok _ =>
    have hask : Asks (alone recordsEmpty n) (Kept orig) (.ratsnest (scope.request.nets.getD [])) :=
      asks_kept rfl
    obtain ⟨hpermits, hreplies⟩ := hask l s h
    refine meets_bind.mpr (meets_attempt.mpr ⟨hpermits, fun r aborted s' hr => ?_⟩)
    exact meets_finish scope routerRouted c _ _ (hreplies r aborted s' hr)

/-- A job that nobody disturbs and that goes mildly leaves the original copper when it fails. -/
theorem safe_start (setting : Setting) (request : RouteJobRequest) (h : s.board.items = orig) :
    Safe (alone recordsEmpty n) (fun info s => info.state = .failed ∨ info.state = .cancelled →
      (∀ f, info.error ≠ some (.notSaved f)) → s.board.items = orig) (start setting request) s := by
  have hjob : Meets (alone recordsEmpty n) (Ended orig) (routeJob setting request)
      ⟨queued, false⟩ s := ?_
  · exact safe_bind.mpr (Safe.mono hjob fun r s h => h)
  have hstart : Original orig ⟨queued, false⟩ s := ⟨h, rfl⟩
  have hprepare : Keeps (alone recordsEmpty n) (Original orig) (prepare setting request) :=
    keeps_prepare stable_original (fun q hq => asks_original hq) setting request
  refine meets_after hprepare hstart (fun e l s h => ended_of_items h.items) fun prepared l s h => ?_
  refine meets_bind.mpr ((meets_runRouter h).mono fun r l s h => ?_)
  cases r with
  | error e => exact ended_of_items h.items
  | ok result =>
    refine meets_bind.mpr ((meets_applyResult _ result h).mono fun r l s h => ?_)
    cases r with
    | error e => exact ended_of_items h.items
    | ok c => exact meets_complete _ _ c h

/-! ### Runs -/

/-- A step of a run in which nobody but the job edits the board, and its requests go mildly. -/
def MildStep (n : ℕ) (w : World) : Action → Prop
  | .reply m choice => m = n ∧ ∀ (slot : Slot) (view : RouteJobInfo) (q : Request)
      (next : Answer q → Dialog RouteJobInfo), w.jobs[n]? = some slot →
        slot.prog = .ask view q next → Mild (standing n w.log) view slot.aborted q choice
  | .cancel _ => True
  | .observe _ => True
  | .edit _ => False
  | .undo => False

def MildRun (n : ℕ) : World → List Action → Prop
  | _, [] => True
  | w, a :: as => MildStep n w a ∧ ∀ w', w.step a = some w' → MildRun n w' as

/-- A job that failed leaves the original copper, as seen from here on. -/
def Atomic (orig : List Item) (n : ℕ) (w : World) : Prop :=
  ∃ slot : Slot, w.jobs[n]? = some slot ∧
    Safe (alone w.recordsEmpty n) (fun info s => info.state = .failed ∨ info.state = .cancelled →
      (∀ f, info.error ≠ some (.notSaved f)) → s.board.items = orig) slot.prog
      ⟨w.board, standing n w.log⟩

variable {w w' : World} {as : List Action}

lemma atomic_step {a : Action} (h : Atomic orig n w) (hmild : MildStep n w a)
    (hstep : w.step a = some w') : Atomic orig n w' := by
  obtain ⟨slot, hslot, hsafe⟩ := h
  have hlt : n < w.jobs.length := (List.getElem?_eq_some_iff.mp hslot).1
  cases move_of_step hstep with
  | @reply m slot₁ view q next choice served hslot₁ hprog hserve =>
    obtain ⟨rfl, hchoice⟩ := hmild
    cases hslot.symm.trans hslot₁
    refine ⟨_, List.getElem?_set_self hlt, ?_⟩
    rw [hprog] at hsafe
    refine hsafe.next ⟨choice, served.2.2, hserve, ?_, hchoice slot view q next hslot hprog⟩
    change (w.log ++ served.2.2).foldl _ none = _
    rw [List.foldl_append]
    rfl
  | @cancel m slot₁ hslot₁ =>
    by_cases hm : m = n
    · subst hm
      cases hslot.symm.trans hslot₁
      exact ⟨_, List.getElem?_set_self hlt, by rw [prog_cancel]; exact hsafe⟩
    · exact ⟨slot, (List.getElem?_set_ne hm).trans hslot, hsafe⟩
  | observe => exact ⟨slot, hslot, hsafe⟩
  | edit => cases hmild
  | undo => cases hmild

lemma atomic_run (h : Atomic orig n w) (hmild : MildRun n w as) (hrun : w.run as = some w') :
    Atomic orig n w' := by
  induction as generalizing w with
  | nil =>
    cases hrun
    exact h
  | cons a as ih =>
    obtain ⟨v, hv, hrest⟩ := Option.bind_eq_some_iff.mp hrun
    exact ih (atomic_step h hmild.1 hv) (hmild.2 v hv) hrest

/-- **Failure of jobs.** In every run in which nobody else edits the board and the job's requests go
mildly, a job that ends failed or cancelled, for another reason than the last save, leaves the
copper that it found. -/
theorem failure_restores {slot slot' : Slot} (hbegins : Begins w) (hslot : w.jobs[n]? = some slot)
    (hmild : MildRun n w as) (hrun : w.run as = some w') (hslot' : w'.jobs[n]? = some slot')
    (hend : slot'.info.state = .failed ∨ slot'.info.state = .cancelled)
    (hsave : ∀ f, slot'.info.error ≠ some (.notSaved f)) : w'.board.items = w.board.items := by
  obtain ⟨-, setting, request, hprog⟩ := hbegins.jobs slot (List.mem_of_getElem? hslot)
  have hstart : Atomic w.board.items n w := by
    refine ⟨slot, hslot, ?_⟩
    rw [hprog]
    exact safe_start setting request rfl
  obtain ⟨slot₁, hslot₁, hsafe⟩ := atomic_run hstart hmild hrun
  cases hslot₁.symm.trans hslot'
  unfold Slot.info at hend hsave
  cases hlast : slot'.prog with
  | ret info =>
    rw [hlast] at hsafe hend hsave
    exact hsafe hend hsave
  | ask view q next =>
    rw [hlast] at hsafe hend
    have hopen : finished view.state = true → view.state = .done := hsafe.1
    rcases hend with h | h <;> rw [h] at hopen <;> cases hopen rfl

/-! ### Failures of one job -/

def timeout : Failure := ⟨false, "timeout"⟩

/-- Up to the router's run, which fails. -/
def untilRouted : List Action :=
  [.reply 0 (.board true), .reply 0 .ok, .reply 0 .ok, .reply 0 (.input ⟨[]⟩), .reply 0 (.fail timeout)]

lemma mild_cons {a : Action} (hstep : MildStep n w a) (hw : w.step a = some w')
    (h : MildRun n w' as) : MildRun n w (a :: as) :=
  ⟨hstep, fun v hv => by cases hw.symm.trans hv; exact h⟩

lemma mild_untilRouted : MildRun 0 JobUndo.routing untilRouted := by
  iterate 5
    refine mild_cons ⟨rfl, ?_⟩ rfl ?_
    · rintro slot view q next hslot hprog
      cases hslot
      cases hprog
      first
        | exact trivial
        | exact fun hdone => by cases hdone
  exact trivial

theorem failure_restores_routing :
    ∃ w' slot', JobUndo.routing.run untilRouted = some w' ∧ w'.jobs[0]? = some slot' ∧
      slot'.info.state = .failed ∧ w'.board.items = JobUndo.routing.board.items :=
  ⟨_, _, rfl, rfl, rfl, failure_restores JobUndo.begins_routing rfl mild_untilRouted rfl rfl
    (Or.inl rfl) nofun⟩

/-- A request has failed. -/
def isRequest : Option JobError → Bool
  | some (.request _) => true
  | _ => false

/-- Native checks that fail leave the tentative copper on the board. -/
theorem not_failure_restores :
    ∃ w as w' slot', Begins w ∧ (∀ a ∈ as, ∃ choice, a = .reply 0 choice) ∧ w.run as = some w' ∧
      w'.jobs[0]? = some slot' ∧ slot'.info.state = .failed ∧
      (∀ f, slot'.info.error ≠ some (.notSaved f)) ∧ w'.board.items ≠ w.board.items := by
  have hrun : ((JobUndo.routing.run
      [.reply 0 (.board true), .reply 0 .ok, .reply 0 .ok, .reply 0 (.input ⟨[]⟩),
        .reply 0 (.result JobUndo.routedVia none), .reply 0 .ok, .reply 0 (.fail timeout)]).bind
      fun w => (w.jobs[0]?).map fun slot => (slot.info.state, isRequest slot.info.error, w.board.items.isEmpty)) = some (.failed, true, false) := by decide +kernel
  obtain ⟨w', hw', hslot⟩ := Option.bind_eq_some_iff.mp hrun
  obtain ⟨slot', hslot', heq⟩ := Option.map_eq_some_iff.mp hslot
  rw [Prod.mk.injEq, Prod.mk.injEq] at heq
  obtain ⟨hstate, herror, hitems⟩ := heq
  refine ⟨JobUndo.routing, _, w', slot', JobUndo.begins_routing, ?_, hw', hslot', hstate, ?_, ?_⟩
  · simp
  · intro f hf
    rw [hf] at herror
    cases herror
  · intro hnil
    rw [hnil] at hitems
    cases hitems

end FabPcb.JobFailure
