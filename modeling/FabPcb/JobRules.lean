import FabPcb.RouteWorld

/-!
Rules for jobs: what a job meets, part by part, and what holds of the jobs of a world.
-/

namespace FabPcb.JobRules

open Dialogue RouteJob RouteJob.Job RouteWorld

variable {σ α β : Type} {C : Contract RouteJobInfo Request Answer σ}

/-- A job's outcome, in every dialogue from here. -/
def Meets (C : Contract RouteJobInfo Request Answer σ)
    (post : Except JobError α → Locals → σ → Prop) (m : Job α) (l : Locals) (s : σ) : Prop :=
  Safe C (fun r s => post r.1 r.2 s) (m l) s

/-- What is to be met after a first part. -/
def Then (C : Contract RouteJobInfo Request Answer σ)
    (post : Except JobError β → Locals → σ → Prop) (f : α → Job β) :
    Except JobError α → Locals → σ → Prop
  | .ok a, l, s => Meets C post (f a) l s
  | .error e, l, s => post (.error e) l s

variable {post : Except JobError α → Locals → σ → Prop} {l : Locals} {s : σ}

lemma meets_bind {post : Except JobError β → Locals → σ → Prop} {m : Job α} {f : α → Job β} :
    Meets C post (m >>= f) l s ↔ Meets C (Then C post f) m l s := by
  have hsplit : Meets C post (m >>= f) l s ↔
      Safe C (fun r s => Safe C (fun r s => post r.1 r.2 s) (andThen f r) s) (m l) s := safe_bind
  rw [hsplit]
  have hpoint : ∀ r s, Safe C (fun r s => post r.1 r.2 s) (andThen f r) s ↔
      Then C post f r.1 r.2 s := by
    rintro ⟨_ | a, l⟩ s <;> exact Iff.rfl
  exact ⟨fun h => h.mono fun r s => (hpoint r s).mp, fun h => h.mono fun r s => (hpoint r s).mpr⟩

lemma meets_attempt {q : Request} {post : Except JobError (Except Failure (Reply q)) → Locals → σ → Prop} :
    Meets C post (attempt q) l s ↔ C.permits s l.info q ∧
      ∀ r aborted s', C.replies s l.info q (r, aborted) s' →
        post (.ok r) { l with aborted } s' := by
  refine and_congr Iff.rfl ⟨fun h r aborted => h (r, aborted), fun h r => h r.1 r.2⟩

lemma meets_ask {q : Request} {post : Except JobError (Reply q) → Locals → σ → Prop} :
    Meets C post (ask q) l s ↔ C.permits s l.info q ∧
      (∀ a aborted s', C.replies s l.info q (.ok a, aborted) s' →
        post (.ok a) { l with aborted } s') ∧
      ∀ f aborted s', C.replies s l.info q (.error f, aborted) s' →
        post (.error (.request f)) { l with aborted } s' := by
  rw [ask, meets_bind, meets_attempt]
  refine and_congr Iff.rfl ⟨fun h => ⟨fun a => h (.ok a), fun f => h (.error f)⟩, ?_⟩
  rintro ⟨hok, herror⟩ (f | a)
  · exact herror f
  · exact hok a

lemma meets_setState {state : RouteJobState} {f : Unit → Job α} :
    Meets C post (setState state >>= f) l s ↔
      Meets C post (f ()) { l with info := { l.info with state } } s := Iff.rfl

lemma meets_checkCancelled {post : Except JobError Unit → Locals → σ → Prop} :
    Meets C post checkCancelled l s ↔
      if l.aborted = true then post (.error .cancelled) l s else post (.ok ()) l s := by
  unfold Meets checkCancelled
  split <;> exact Iff.rfl

lemma Meets.mono {post' : Except JobError α → Locals → σ → Prop} {m : Job α}
    (h : Meets C post m l s) (hpost : ∀ r l s, post r l s → post' r l s) : Meets C post' m l s :=
  Safe.mono h fun r s => hpost r.1 r.2 s

/-! ### What every part of a job keeps -/

def Keeps (C : Contract RouteJobInfo Request Answer σ) (I : Locals → σ → Prop) (m : Job α) : Prop :=
  ∀ l s, I l s → Meets C (fun _ => I) m l s

section Keeps

variable {I : Locals → σ → Prop}

lemma keeps_pure {a : α} : Keeps C I (pure a : Job α) := fun _ _ h => h

lemma keeps_throw {e : JobError} : Keeps C I (throw e : Job α) := fun _ _ h => h

lemma keeps_bind {m : Job α} {f : α → Job β} (hm : Keeps C I m) (hf : ∀ a, Keeps C I (f a)) :
    Keeps C I (m >>= f) := by
  intro l s h
  rw [meets_bind]
  refine (hm l s h).mono fun r l s h => ?_
  cases r with
  | ok a => exact hf a l s h
  | error e => exact h

lemma keeps_ite {p : Prop} [Decidable p] {m m' : Job α} (h : Keeps C I m) (h' : Keeps C I m') :
    Keeps C I (if p then m else m') := by
  split
  · exact h
  · exact h'

/-- A question keeps what its replies keep. -/
def Asks (C : Contract RouteJobInfo Request Answer σ) (I : Locals → σ → Prop) (q : Request) : Prop :=
  ∀ l s, I l s → C.permits s l.info q ∧
    ∀ r aborted s', C.replies s l.info q (r, aborted) s' → I { l with aborted } s'

lemma keeps_attempt {q : Request} (h : Asks C I q) : Keeps C I (attempt q) :=
  fun l s hl => meets_attempt.mpr (h l s hl)

lemma keeps_ask {q : Request} (h : Asks C I q) : Keeps C I (ask q) := by
  intro l s hl
  obtain ⟨hpermits, hreplies⟩ := h l s hl
  exact meets_ask.mpr ⟨hpermits, fun a => hreplies (.ok a), fun f => hreplies (.error f)⟩

lemma keeps_modify {f : RouteJobInfo → RouteJobInfo}
    (h : ∀ l s, I l s → I { l with info := f l.info } s) : Keeps C I (modify f) := h

lemma keeps_checkCancelled : Keeps C I checkCancelled := by
  intro l s h
  rw [meets_checkCancelled]
  split <;> exact h

lemma keeps_orThrow {e : Option JobError} : Keeps C I (orThrow e) := by
  cases e with
  | none => exact keeps_pure
  | some e => exact keeps_throw

lemma keeps_require {ok : Bool} {e : JobError} : Keeps C I (require ok e) := keeps_orThrow

lemma keeps_when {c : Bool} {m : Job Unit} (h : Keeps C I m) : Keeps C I (when c m) :=
  keeps_ite h keeps_pure

lemma meets_after {post : Except JobError β → Locals → σ → Prop} {m : Job α} {f : α → Job β}
    {l : Locals} {s : σ} (hm : Keeps C I m) (h : I l s)
    (herror : ∀ e l s, I l s → post (.error e) l s) (hf : ∀ a l s, I l s → Meets C post (f a) l s) :
    Meets C post (m >>= f) l s := by
  rw [meets_bind]
  refine (hm l s h).mono fun r l s h => ?_
  cases r with
  | ok a => exact hf a l s h
  | error e => exact herror e l s h

/-! ### The parts of the route job -/

/-- Only a final state and a summary make a difference. -/
def Stable (I : Locals → σ → Prop) : Prop :=
  ∀ l s info, I l s → finished info.state = false ∨ info.state = l.info.state →
    info.summary = l.info.summary → I { l with info } s

lemma keeps_setState (hI : Stable I) {state : RouteJobState} (h : finished state = false) :
    Keeps C I (setState state) :=
  keeps_modify fun l s hl => hI l s _ hl (Or.inl h) rfl

lemma keeps_note (hI : Stable I) {f : RouteJobInfo → RouteJobInfo}
    (h : ∀ info, (f info).state = info.state ∧ (f info).summary = info.summary) :
    Keeps C I (modify f) :=
  keeps_modify fun l s hl => hI l s _ hl (Or.inr (h l.info).1) (h l.info).2

lemma keeps_refillBefore (hI : Stable I) (hask : Asks C I .refillZones) :
    Keeps C I refillBefore := by
  refine keeps_bind (keeps_setState hI rfl) fun _ => keeps_bind (keeps_ask hask) fun _ => ?_
  exact keeps_bind (keeps_note hI fun _ => ⟨rfl, rfl⟩) fun _ => keeps_checkCancelled

lemma keeps_prepare (hI : Stable I) (hasks : ∀ q, isPlain q = true → Asks C I q)
    (setting : Setting) (request : RouteJobRequest) : Keeps C I (prepare setting request) := by
  refine keeps_bind keeps_require fun _ => keeps_bind keeps_orThrow fun _ => ?_
  refine keeps_bind (keeps_ask (hasks _ rfl)) fun _ => keeps_bind keeps_require fun _ => ?_
  refine keeps_bind keeps_checkCancelled fun _ => ?_
  refine keeps_bind (keeps_when (keeps_refillBefore hI (hasks _ rfl))) fun _ => ?_
  refine keeps_bind (keeps_setState hI rfl) fun _ => ?_
  refine keeps_bind (keeps_ask (hasks _ rfl)) fun _ => keeps_bind keeps_checkCancelled fun _ => ?_
  refine keeps_bind (keeps_setState hI rfl) fun _ => ?_
  refine keeps_bind (keeps_ask (hasks _ rfl)) fun _ => keeps_bind (keeps_ask (hasks _ rfl)) fun _ => ?_
  exact keeps_bind keeps_checkCancelled fun _ => keeps_pure

lemma keeps_runRouter (hI : Stable I) (hask : Asks C I .route) : Keeps C I runRouter := by
  refine keeps_bind (keeps_setState hI rfl) fun _ => keeps_bind (keeps_ask hask) fun _ => ?_
  exact keeps_bind keeps_checkCancelled fun _ => keeps_bind keeps_orThrow fun _ => keeps_pure

lemma keeps_refillAfter (hI : Stable I) (hask : Asks C I .refillZones) : Keeps C I refillAfter :=
  keeps_bind (keeps_setState hI rfl) fun _ =>
    keeps_bind (keeps_attempt hask) fun _ => keeps_note hI fun _ => ⟨rfl, rfl⟩

lemma keeps_persist (hI : Stable I) (hask : Asks C I .save) : Keeps C I persistAppliedRoute :=
  keeps_bind (keeps_setState hI rfl) fun _ => keeps_bind (keeps_attempt hask) fun _ => keeps_orThrow

lemma keeps_keepApplied (hI : Stable I) (hrefill : Asks C I .refillZones) (hsave : Asks C I .save)
    (request : RouteJobRequest) : Keeps C I (keepApplied request) :=
  keeps_bind (keeps_when (keeps_refillAfter hI hrefill)) fun _ => keeps_persist hI hsave

lemma keeps_claimedViaItems (hask : Asks C I .getTracks) (result : RouteResult) :
    Keeps C I (claimedViaItems result) :=
  keeps_ite keeps_pure (keeps_bind (keeps_ask hask) fun _ => keeps_pure)

lemma keeps_apply (hget : Asks C I .getTracks) (hcommit : ∀ change, Asks C I (.commit change))
    (c : Cleanup) : Keeps C I c.apply :=
  keeps_bind (keeps_claimedViaItems hget _) fun _ => keeps_ask (hcommit _)

/-- The whole clean-up, for what every reply keeps. -/
lemma keeps_cleanupLoop (hasks : ∀ q, Asks C I q) (scope : Scope) (n : ℕ) (c : Cleanup) :
    Keeps C I (cleanupLoop scope n c) := by
  have happly : ∀ c : Cleanup, Keeps C I c.apply := keeps_apply (hasks _) fun _ => hasks _
  have hrelabel : ∀ c message, Keeps C I (relabelTo c message) := fun c message =>
    keeps_ite keeps_pure (keeps_bind (keeps_ask (hasks _)) fun _ =>
      keeps_bind keeps_require fun _ => keeps_bind (happly _) fun _ => keeps_pure)
  have hkeep : ∀ c dangling, Keeps C I (keepPass scope c dangling) := fun c dangling =>
    keeps_bind (keeps_ite keeps_pure (keeps_bind (keeps_ask (hasks _)) fun _ => hrelabel _ _))
      fun _ => keeps_pure
  have hundo : ∀ c created dangling, Keeps C I (undoPass scope c created dangling) :=
    fun c created dangling =>
      keeps_bind (keeps_ask (hasks _)) fun _ => keeps_bind keeps_require fun _ =>
        keeps_bind keeps_require fun _ => keeps_pure
  have hpass : ∀ c, Keeps C I (cleanupPass scope c) := fun c =>
    keeps_bind (happly c) fun _ => keeps_ite keeps_pure
      (keeps_bind (keeps_ask (hasks _)) fun _ => keeps_ite (hkeep _ _) (hundo _ _ _))
  induction n generalizing c with
  | zero => exact keeps_pure
  | succ n ih =>
    refine keeps_bind (hpass c) fun out => ?_
    cases out with
    | stop c => exact keeps_pure
    | again c => exact keeps_ite keeps_throw (ih c)

lemma keeps_applyResult (hI : Stable I) (hasks : ∀ q, Asks C I q) (scope : Scope)
    (result : RouteResult) : Keeps C I (applyResult scope result) :=
  keeps_bind (keeps_setState hI rfl) fun _ => keeps_ite keeps_pure (keeps_cleanupLoop hasks _ _ _)

end Keeps

end FabPcb.JobRules
