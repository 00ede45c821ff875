import FabPcb.JobRules

/-!
Whose work a route job undoes.

The clean-up takes back a tentative commit by undoing the newest entry of the undo stack, whoever has
left it. It does so only after a commit of its own that it has not taken back, so what is undone is
that commit exactly if it has left an entry and everything that others have put on top of it is gone.
-/

namespace FabPcb.JobUndo

open Dialogue RouteJob RouteJob.Job RouteWorld JobRules

/-! ### The stack, from what happened to it -/

def Event.party : Event → Party
  | .committed party _ => party
  | .undone party _ => party

def stackStep (stack : List ℕ) : Event → List ℕ
  | .committed _ (some id) => id :: stack
  | .committed _ none => stack
  | .undone _ _ => stack.tail

/-- The entries on the stack, the newest first. -/
def stackAfter (stack : List ℕ) (log : List Event) : List ℕ := log.foldl stackStep stack

def aboveStep : Option ℕ → Event → Option ℕ
  | none, _ => none
  | some d, .committed _ (some _) => some (d + 1)
  | some d, .committed _ none => some d
  | some 0, .undone _ _ => none
  | some (d + 1), .undone _ _ => some d

/-- How many entries lie above one that was the newest; none is what is left of it once it is
undone. -/
def above (since : List Event) : Option ℕ := since.foldl aboveStep (some 0)

/-- The entries that commits have left. -/
def entryOf? : Event → Option ℕ
  | .committed _ entry => entry
  | .undone _ _ => none

def entries (log : List Event) : List ℕ := log.filterMap entryOf?

variable {stack base front : List ℕ} {log since : List Event} {id d : ℕ} {e : Event}

lemma mem_stackStep (h : id ∈ stackStep stack e) : id ∈ stack ∨ entryOf? e = some id := by
  cases e with
  | committed party entry =>
    cases entry with
    | none => exact Or.inl h
    | some id' =>
      rcases List.mem_cons.mp h with rfl | h
      · exact Or.inr rfl
      · exact Or.inl h
  | undone party entry => exact Or.inl (List.mem_of_mem_tail h)

lemma mem_stackAfter (h : id ∈ stackAfter stack log) : id ∈ stack ∨ id ∈ entries log := by
  induction log generalizing stack with
  | nil => exact Or.inl h
  | cons e log ih =>
    rcases ih h with h | h
    · rcases mem_stackStep h with h | h
      · exact Or.inl h
      · exact Or.inr (List.mem_filterMap.mpr ⟨e, List.mem_cons_self, h⟩)
    · obtain ⟨e', he', hid⟩ := List.mem_filterMap.mp h
      exact Or.inr (List.mem_filterMap.mpr ⟨e', List.mem_cons_of_mem e he', hid⟩)

/-- Where an entry is that was the newest. -/
lemma stackAfter_above (hfresh : id ∉ entries since) (hbase : id ∉ base) :
    match above since with
    | some d => ∃ front, front.length = d ∧ id ∉ front ∧
        stackAfter (id :: base) since = front ++ id :: base
    | none => id ∉ stackAfter (id :: base) since := by
  induction since using List.reverseRecOn with
  | nil => exact ⟨[], rfl, List.not_mem_nil, rfl⟩
  | append_singleton since e ih =>
    have hsplit : entries (since ++ [e]) = entries since ++ entries [e] := List.filterMap_append
    rw [hsplit, List.mem_append, not_or] at hfresh
    have hnew : entryOf? e ≠ some id := fun h =>
      hfresh.2 (List.mem_filterMap.mpr ⟨e, List.mem_cons_self, h⟩)
    have ih := ih hfresh.1
    have habove : above (since ++ [e]) = aboveStep (above since) e := by
      rw [above, List.foldl_append]
      rfl
    have hstack : stackAfter (id :: base) (since ++ [e]) =
        stackStep (stackAfter (id :: base) since) e := by
      rw [stackAfter, List.foldl_append]
      rfl
    rw [habove, hstack]
    cases hd : above since with
    | none =>
      rw [hd] at ih
      exact fun h => (mem_stackStep h).elim ih hnew
    | some d =>
      rw [hd] at ih
      obtain ⟨front, hlength, hnot, heq⟩ := ih
      rw [heq]
      cases e with
      | committed party entry =>
        cases entry with
        | none => exact ⟨front, hlength, hnot, rfl⟩
        | some id' =>
          refine ⟨id' :: front, by rw [List.length_cons, hlength], ?_, rfl⟩
          rw [List.mem_cons, not_or]
          exact ⟨fun h => hnew (by rw [h]; rfl), hnot⟩
      | undone party entry =>
        cases front with
        | nil =>
          subst hlength
          exact hbase
        | cons x front =>
          subst hlength
          exact ⟨front, rfl, fun h => hnot (List.mem_cons_of_mem x h), rfl⟩

lemma head_stackAfter_iff (hfresh : id ∉ entries since) (hbase : id ∉ base) :
    (stackAfter (id :: base) since).head? = some id ↔ above since = some 0 := by
  have hwhere := stackAfter_above hfresh hbase
  cases habove : above since with
  | none =>
    rw [habove] at hwhere
    exact ⟨fun h => absurd (List.mem_of_mem_head? h) hwhere, nofun⟩
  | some d =>
    rw [habove] at hwhere
    obtain ⟨front, rfl, hnot, heq⟩ := hwhere
    rw [heq]
    cases front with
    | nil => exact ⟨fun _ => rfl, fun _ => rfl⟩
    | cons x front =>
      refine ⟨fun h => ?_, nofun⟩
      cases h
      exact absurd List.mem_cons_self hnot

/-! ### When a job undoes -/

/-- A dialogue that remembers whether the job's last entry is a commit of its own. -/
def tentative : Contract RouteJobInfo Request Answer Bool where
  permits s _ q := q = .undo → s = true
  replies s _ q r s' := (isPlain q = true → s' = s) ∧
    ((∃ change, q = .commit change) → r.1.toOption.isSome = true → s' = true)

/-- Any outcome. -/
def Anyhow {α : Type} (_ : Except JobError α) (_ : Locals) (_ : Bool) : Prop := True

lemma asks_anyhow {q : Request} (hq : q ≠ .undo) : Asks tentative (fun _ _ => True) q :=
  fun _ _ _ => ⟨fun h => absurd h hq, fun _ _ _ _ => trivial⟩

lemma stable_anyhow : Stable fun (_ : Locals) (_ : Bool) => True := fun _ _ _ _ _ _ => trivial

variable {l : Locals} {s : Bool}

lemma meets_of_keeps {α : Type} {m : Job α} (h : Keeps tentative (fun _ _ => True) m) :
    Meets tentative Anyhow m l s := h l s trivial

lemma meets_apply (c : Cleanup) :
    Meets tentative (fun r _ s => r.toOption.isSome = true → s = true) c.apply l s := by
  have hclaims := keeps_claimedViaItems (C := tentative) (asks_anyhow (q := .getTracks) nofun) c.result
  refine meets_after hclaims trivial (fun _ _ _ _ => nofun) fun claimed l s _ => ?_
  refine (meets_ask (q := .commit _)).mpr ⟨?_, ?_, ?_⟩
  · exact nofun
  · exact fun a aborted s' hr _ => hr.2 ⟨_, rfl⟩ rfl
  · exact fun f aborted s' hr => nofun

lemma meets_anyhow_bind {α β : Type} {m : Job α} {f : α → Job β}
    {post : Except JobError α → Locals → Bool → Prop} (hm : Meets tentative post m l s)
    (hf : ∀ a l s, post (.ok a) l s → Meets tentative Anyhow (f a) l s) :
    Meets tentative Anyhow (m >>= f) l s := by
  rw [meets_bind]
  refine hm.mono fun r l s h => ?_
  cases r with
  | ok a => exact hf a l s h
  | error e => trivial

lemma meets_plain {q : Request} (hq : isPlain q = true) :
    Meets tentative (fun _ _ s' => s' = s) (ask q) l s := by
  refine meets_ask.mpr ⟨fun h => ?_, fun _ _ _ hr => hr.1 hq, fun _ _ _ hr => hr.1 hq⟩
  rw [h] at hq
  cases hq

lemma meets_undo (h : s = true) : Meets tentative Anyhow (ask .undo) l s :=
  meets_ask.mpr ⟨fun _ => h, fun _ _ _ _ => trivial, fun _ _ _ _ => trivial⟩

lemma meets_relabelTo (c : Cleanup) (message : String) (h : s = true) :
    Meets tentative Anyhow (relabelTo c message) l s := by
  unfold relabelTo
  split
  · exact trivial
  · refine meets_anyhow_bind (meets_undo h) fun undone l s _ => ?_
    refine meets_anyhow_bind (meets_of_keeps keeps_require) fun _ l s _ => ?_
    exact meets_anyhow_bind (meets_apply _) fun _ l s _ => trivial

lemma meets_relabel (request : RouteJobRequest) (c : Cleanup) (h : s = true) :
    Meets tentative Anyhow (relabel request c) l s := by
  unfold relabel
  split
  · exact trivial
  · have hask := meets_plain (q := .ratsnest (request.nets.getD [])) (l := l) (s := s) rfl
    refine meets_anyhow_bind hask fun edges l s' hs => ?_
    exact meets_relabelTo c _ (hs.trans h)

lemma meets_checkPass (scope : Scope) (c : Cleanup) (created : List Item) (h : s = true) :
    Meets tentative Anyhow (checkPass scope c created) l s := by
  have hask := meets_plain (q := .runDrc) (l := l) (s := s) rfl
  refine meets_anyhow_bind hask fun markers l s' hs => ?_
  rw [h] at hs
  dsimp only
  split
  · exact meets_anyhow_bind (meets_relabel _ _ hs) fun _ l s _ => trivial
  · refine meets_anyhow_bind (meets_undo hs) fun undone l s _ => ?_
    refine meets_anyhow_bind (meets_of_keeps keeps_require) fun _ l s _ => ?_
    exact meets_anyhow_bind (meets_of_keeps keeps_require) fun _ l s _ => trivial

lemma meets_cleanupPass (scope : Scope) (c : Cleanup) :
    Meets tentative Anyhow (cleanupPass scope c) l s := by
  refine meets_anyhow_bind (meets_apply c) fun committed l s h => ?_
  split
  · exact trivial
  · exact meets_checkPass scope c _ (h rfl)

lemma meets_cleanupLoop (scope : Scope) (n : ℕ) (c : Cleanup) :
    Meets tentative Anyhow (cleanupLoop scope n c) l s := by
  induction n generalizing c l s with
  | zero => exact trivial
  | succ n ih =>
    refine meets_anyhow_bind (meets_cleanupPass scope c) fun out l s _ => ?_
    cases out with
    | stop c => exact trivial
    | again c =>
      dsimp only
      split
      · exact trivial
      · exact ih c

lemma meets_applyResult (scope : Scope) (result : RouteResult) :
    Meets tentative Anyhow (applyResult scope result) l s := by
  have hset : Keeps tentative (fun _ _ => True) (setState .applying) :=
    keeps_setState stable_anyhow rfl
  refine meets_anyhow_bind (meets_of_keeps hset) fun _ l s _ => ?_
  split
  · exact trivial
  · exact meets_cleanupLoop _ _ _

lemma ne_undo_of_plain {q : Request} (h : isPlain q = true) : q ≠ .undo := by
  rintro rfl
  cases h

/-- A job undoes only what it has committed last. -/
theorem safe_start (setting : Setting) (request : RouteJobRequest) (s : Bool) :
    Safe tentative (fun _ _ => True) (start setting request) s := by
  have hjob : Meets tentative Anyhow (routeJob setting request) ⟨queued, false⟩ s := ?_
  · exact safe_bind.mpr (Safe.mono hjob fun r s _ => trivial)
  have hasks : ∀ q, isPlain q = true → Asks tentative (fun _ _ => True) q :=
    fun q hq => asks_anyhow (ne_undo_of_plain hq)
  refine meets_anyhow_bind (meets_of_keeps (keeps_prepare stable_anyhow hasks _ _)) ?_
  intro prepared l s _
  refine meets_anyhow_bind (meets_of_keeps (keeps_runRouter stable_anyhow (asks_anyhow nofun))) ?_
  intro result l s _
  refine meets_anyhow_bind (meets_applyResult _ result) fun c l s _ => meets_of_keeps ?_
  have hkeep := keeps_keepApplied (C := tentative) stable_anyhow (hasks .refillZones rfl)
    (hasks .save rfl) request
  refine keeps_bind (keeps_when hkeep) fun _ => ?_
  refine keeps_bind (keeps_attempt (asks_anyhow nofun)) fun edges => ?_
  refine keeps_bind (fun _ _ _ => trivial) fun _ => ?_
  exact keeps_bind (keeps_ask (hasks .getTracks rfl)) fun _ => fun _ _ _ => trivial

/-! ### The ledger of a world -/

def Board.ids (b : Board) : List ℕ := b.undoStack.map (·.id)

/-- What an event makes of a board. -/
structure Follows (b b' : Board) (e : Event) : Prop where
  ids : Board.ids b' = stackStep (Board.ids b) e
  grows : b.nextEntry ≤ b'.nextEntry
  new : ∀ id, entryOf? e = some id → id = b.nextEntry ∧ id < b'.nextEntry
  taken : ∀ party entry, e = .undone party entry → entry = (Board.ids b).head?

variable {b b' : Board} {party : Party} {recordsEmpty : Bool}

lemma follows_commit (change : Change) :
    Follows b (b.commit recordsEmpty change) (.committed party (entryOf recordsEmpty b change)) := by
  unfold Board.commit entryOf
  cases Board.leavesEntry recordsEmpty change with
  | true =>
    refine ⟨rfl, Nat.le_succ _, fun id hid => ?_, nofun⟩
    cases hid
    exact ⟨rfl, Nat.lt_succ_self _⟩
  | false => exact ⟨rfl, Nat.le_refl _, nofun, nofun⟩

lemma follows_undo : Follows b b.undo (.undone party (b.undoStack.head?.map (·.id))) := by
  unfold Board.undo
  cases hstack : b.undoStack with
  | nil =>
    refine ⟨by simp [Board.ids, hstack, stackStep], Nat.le_refl _, nofun, ?_⟩
    rintro _ _ ⟨⟩
    rw [Board.ids, hstack]
    rfl
  | cons entry rest =>
    refine ⟨by simp [Board.ids, hstack, stackStep], Nat.le_refl _, nofun, ?_⟩
    rintro _ _ ⟨⟩
    rw [Board.ids, hstack]
    rfl

lemma follows_edit (items : List Item) :
    Follows b (b.push items) (.committed party (some b.nextEntry)) := by
  refine ⟨rfl, Nat.le_succ _, fun id hid => ?_, nofun⟩
  cases hid
  exact ⟨rfl, Nat.lt_succ_self _⟩

/-- What serving a request does to the undo stack. -/
inductive Booked (b : Board) (party : Party) (q : Request) : Served q → Prop where
  | quiet {served : Served q} (hboard : served.1 = b) (hevents : served.2.2 = [])
      (hcommit : (∃ change, q = .commit change) → served.2.1.toOption = none) :
      Booked b party q served
  | event {served : Served q} {e : Event} (hfollows : Follows b served.1 e)
      (hevents : served.2.2 = [e]) (hparty : Event.party e = party) (hplain : isPlain q = false)
      (hcommit : (∃ change, q = .commit change) → ∃ entry, e = .committed party entry)
      (hundo : ∀ entry, e = .undone party entry → q = .undo) : Booked b party q served

lemma booked_serve {q : Request} {choice : Choice} {served : Served q}
    (h : serve recordsEmpty party b q choice = some served) : Booked b party q served := by
  cases hq : isPlain q with
  | true =>
    obtain ⟨hboard, hevents, -⟩ := serve_plain hq h
    refine .quiet hboard hevents ?_
    rintro ⟨change, rfl⟩
    cases hq
  | false =>
    cases q with
    | commit change =>
      rcases serve_commit h with ⟨f, -, hboard, hreply, hevents⟩ | ⟨hboard, hevents, -⟩
      · exact .quiet hboard hevents fun _ => by rw [hreply]; rfl
      · exact .event (hboard ▸ follows_commit change) hevents rfl rfl (fun _ => ⟨_, rfl⟩) nofun
    | undo =>
      rcases serve_undo h with ⟨f, -, hboard, -, hevents⟩ | ⟨hboard, hevents, -⟩
      · exact .quiet hboard hevents fun ⟨_, heq⟩ => by cases heq
      · exact .event (hboard ▸ follows_undo) hevents rfl rfl (fun ⟨_, heq⟩ => by cases heq)
          fun _ _ => rfl
    | route =>
      rcases serve_route h with ⟨hboard, hevents⟩ | ⟨change, hboard, hevents, -⟩
      · exact .quiet hboard hevents fun ⟨_, heq⟩ => by cases heq
      · exact .event (hboard ▸ follows_commit change) hevents rfl rfl
          (fun ⟨_, heq⟩ => by cases heq) nofun
    | _ => cases hq

/-- The last entry of a job in the log is a commit. -/
def commitsLast (n : ℕ) (log : List Event) : Bool :=
  log.foldl (fun last e => if Event.party e = .job n then (match e with
    | .committed .. => true
    | .undone .. => false) else last) false

structure Ledger (stack : List ℕ) (w : World) : Prop where
  ids : Board.ids w.board = stackAfter stack w.log
  fresh : (entries w.log).Nodup
  apart : ∀ id ∈ entries w.log, id ∉ stack
  below : ∀ id, id ∈ stack ∨ id ∈ entries w.log → id < w.board.nextEntry
  taken : ∀ pre party entry post, w.log = pre ++ .undone party entry :: post →
    entry = (stackAfter stack pre).head?
  own : ∀ n pre entry post, w.log = pre ++ .undone (.job n) entry :: post → commitsLast n pre = true

lemma commitsLast_snoc {n : ℕ} {log : List Event} {e : Event} :
    commitsLast n (log ++ [e]) = if Event.party e = .job n then (match e with
      | .committed .. => true
      | .undone .. => false) else commitsLast n log := by
  rw [commitsLast, List.foldl_append]
  rfl

lemma snoc_eq_cases {log pre post : List Event} {e x : Event} (h : log ++ [e] = pre ++ x :: post) :
    (log = pre ∧ e = x) ∨ ∃ post', log = pre ++ x :: post' := by
  rcases List.eq_nil_or_concat post with rfl | ⟨post', y, rfl⟩
  · obtain ⟨hlog, he⟩ := List.append_inj' h rfl
    exact Or.inl ⟨hlog, (List.cons.inj he).1⟩
  · refine Or.inr ⟨post', ?_⟩
    rw [List.concat_eq_append, ← List.cons_append, ← List.append_assoc] at h
    exact (List.append_inj' h rfl).1

/-- An event is entered. -/
lemma ledger_event {w w' : World} (h : Ledger stack w) (hlog : w'.log = w.log ++ [e])
    (hfollows : Follows w.board w'.board e)
    (hown : ∀ n entry, e = .undone (.job n) entry → commitsLast n w.log = true) : Ledger stack w' := by
  have hsplit : entries w'.log = entries w.log ++ (entryOf? e).toList := by
    rw [hlog]
    cases he : entryOf? e <;> simp [entries, he]
  have hnew : ∀ id ∈ (entryOf? e).toList, id = w.board.nextEntry ∧ id < w'.board.nextEntry :=
    fun id hid => hfollows.new id (Option.mem_toList.mp hid)
  constructor
  · rw [hfollows.ids, h.ids, hlog, stackAfter, stackAfter, List.foldl_append]
    rfl
  · rw [hsplit]
    refine List.nodup_append.mpr ⟨h.fresh, ?_, fun id hid id' hid' heq => ?_⟩
    · cases entryOf? e with
      | none => exact List.nodup_nil
      | some id => exact List.nodup_singleton id
    · have hlt := h.below id (Or.inr hid)
      have hat := (hnew id' hid').1
      omega
  · intro id hid hstack
    rw [hsplit] at hid
    rcases List.mem_append.mp hid with hold | hid
    · exact h.apart id hold hstack
    · have hlt := h.below id (Or.inl hstack)
      have hat := (hnew id hid).1
      omega
  · intro id hid
    rw [hsplit, List.mem_append, ← or_assoc] at hid
    rcases hid with hold | hid
    · exact Nat.lt_of_lt_of_le (h.below id hold) hfollows.grows
    · exact (hnew id hid).2
  · intro pre party entry post heq
    rw [hlog] at heq
    rcases snoc_eq_cases heq with ⟨rfl, he⟩ | ⟨post', heq⟩
    · rw [← h.ids]
      exact hfollows.taken party entry he
    · exact h.taken pre party entry post' heq
  · intro n pre entry post heq
    rw [hlog] at heq
    rcases snoc_eq_cases heq with ⟨rfl, he⟩ | ⟨post', heq⟩
    · exact hown n entry he
    · exact h.own n pre entry post' heq

/-- Every job undoes only what it has committed last. -/
def Careful (w : World) : Prop := ∀ (n : ℕ) (slot : Slot), w.jobs[n]? = some slot →
  Safe tentative (fun _ _ => True) slot.prog (commitsLast n w.log)

lemma getElem?_set_cases {jobs : List Slot} {n m : ℕ} {x slot : Slot}
    (h : (jobs.set n x)[m]? = some slot) : (m = n ∧ slot = x) ∨ (m ≠ n ∧ jobs[m]? = some slot) := by
  by_cases hm : n = m
  · subst hm
    refine Or.inl ⟨rfl, ?_⟩
    have hlt : n < jobs.length := by
      have hlt := (List.getElem?_eq_some_iff.mp h).1
      rwa [List.length_set] at hlt
    rw [List.getElem?_set_self hlt] at h
    exact (Option.some.inj h).symm
  · rw [List.getElem?_set_ne hm] at h
    exact Or.inr ⟨fun heq => hm heq.symm, h⟩

lemma ledger_congr {w w' : World} (h : Ledger stack w) (hboard : w'.board = w.board)
    (hlog : w'.log = w.log) : Ledger stack w' := by
  constructor
  · rw [hboard, hlog]
    exact h.ids
  · rw [hlog]
    exact h.fresh
  · rw [hlog]
    exact h.apart
  · rw [hboard, hlog]
    exact h.below
  · rw [hlog]
    exact h.taken
  · rw [hlog]
    exact h.own

lemma careful_other {w : World} (hjobs : Careful w) {m : ℕ} {slot : Slot}
    (hslot : w.jobs[m]? = some slot) (hparty : Event.party e ≠ .job m) :
    Safe tentative (fun _ _ => True) slot.prog (commitsLast m (w.log ++ [e])) := by
  rw [commitsLast_snoc, if_neg hparty]
  exact hjobs m slot hslot

/-- A step enters at most one event, and no job undoes but what it has committed last. -/
lemma ledger_step {w w' : World} {a : Action} (h : Ledger stack w) (hjobs : Careful w)
    (hstep : w.step a = some w') : Ledger stack w' ∧ Careful w' := by
  cases move_of_step hstep with
  | @reply n slot view q next choice served hslot hprog hserve =>
    have hsafe := hjobs n slot hslot
    rw [hprog] at hsafe
    obtain ⟨hpermits, hnext⟩ := hsafe
    cases booked_serve hserve with
    | quiet hboard hevents hcommit =>
      have hlog : w.log ++ served.2.2 = w.log := by rw [hevents, List.append_nil]
      refine ⟨ledger_congr h hboard hlog, fun m slot' hslot' => ?_⟩
      rw [hlog]
      rcases getElem?_set_cases hslot' with ⟨rfl, rfl⟩ | ⟨-, hold⟩
      · refine hnext _ _ ⟨fun _ => rfl, fun hq hok => ?_⟩
        rw [hcommit hq] at hok
        cases hok
      · exact hjobs m slot' hold
    | @event e hfollows hevents hparty hplain hcommit hundo =>
      refine ⟨ledger_event h (congrArg (w.log ++ ·) hevents) hfollows ?_, fun m slot' hslot' => ?_⟩
      · rintro m entry rfl
        cases hparty
        exact hpermits (hundo entry rfl)
      · rw [hevents]
        rcases getElem?_set_cases hslot' with ⟨rfl, rfl⟩ | ⟨hm, hold⟩
        · refine hnext _ _ ⟨fun hp => ?_, fun hq _ => ?_⟩
          · rw [hplain] at hp
            cases hp
          · obtain ⟨entry, rfl⟩ := hcommit hq
            exact commitsLast_snoc.trans (if_pos rfl)
        · have hne : Event.party e ≠ .job m := by
            rw [hparty]
            exact fun heq => hm (Party.job.inj heq).symm
          exact careful_other hjobs hold hne
  | @cancel n slot hslot =>
    refine ⟨ledger_congr h rfl rfl, fun m slot' hslot' => ?_⟩
    rcases getElem?_set_cases hslot' with ⟨rfl, rfl⟩ | ⟨-, hold⟩
    · rw [prog_cancel]
      exact hjobs m slot hslot
    · exact hjobs m slot' hold
  | observe => exact ⟨ledger_congr h rfl rfl, hjobs⟩
  | edit =>
    refine ⟨ledger_event h rfl (follows_edit _) nofun, fun m slot' hslot' => ?_⟩
    exact careful_other hjobs hslot' nofun
  | undo =>
    refine ⟨ledger_event h rfl follows_undo nofun, fun m slot' hslot' => ?_⟩
    exact careful_other hjobs hslot' nofun

/-! ### Whose work is undone -/

def isCommitOf (n : ℕ) : Event → Bool
  | .committed party _ => party = .job n
  | .undone .. => false

/-- What others do. -/
def others (n : ℕ) (log : List Event) : List Event := log.filter fun e => Event.party e ≠ .job n

/-- The entry is the one that the job's most recent commit has left. -/
def RevertsOwn (n : ℕ) (log : List Event) (entry : Option ℕ) : Prop :=
  ∃ before id since, log = before ++ .committed (.job n) (some id) :: since ∧
    (∀ e ∈ since, isCommitOf n e = false) ∧ entry = some id

/-- The job's most recent commit has left an entry, and what others have put on top of it since is
gone. -/
def Undisturbed (n : ℕ) (log : List Event) : Prop :=
  ∃ before id since, log = before ++ .committed (.job n) (some id) :: since ∧
    (∀ e ∈ since, isCommitOf n e = false) ∧ above (others n since) = some 0

/-- Since the commit that a job is to undo, it has done nothing. -/
lemma others_eq {n : ℕ} {before since : List Event} {x : Option ℕ}
    (hlast : commitsLast n (before ++ .committed (.job n) x :: since) = true)
    (hsince : ∀ e ∈ since, isCommitOf n e = false) : others n since = since := by
  induction since using List.reverseRecOn with
  | nil => rfl
  | append_singleton since e ih =>
    rw [← List.cons_append, ← List.append_assoc, commitsLast_snoc] at hlast
    have he := hsince e (List.mem_append_right _ (List.mem_singleton.mpr rfl))
    have hparty : Event.party e ≠ .job n := by
      intro hparty
      rw [if_pos hparty] at hlast
      cases e with
      | undone party entry => cases hlast
      | committed party entry =>
        have hcommit : isCommitOf n (.committed party entry) = true := decide_eq_true hparty
        rw [he] at hcommit
        cases hcommit
    rw [if_neg hparty] at hlast
    rw [others, List.filter_append, List.filter_cons_of_pos (by simpa using hparty)]
    exact congrArg (· ++ [e]) (ih hlast fun e he => hsince e (List.mem_append_left _ he))

lemma fresh_entry {w : World} {before since post : List Event} {party : Party} (h : Ledger stack w)
    (hlog : w.log = before ++ .committed party (some id) :: (since ++ post)) :
    id ∉ entries since ∧ id ∉ stackAfter stack before := by
  have hsplit : entries w.log = entries before ++ id :: (entries since ++ entries post) := by
    rw [hlog, entries, List.filterMap_append]
    exact congrArg (fun more => entries before ++ id :: more) List.filterMap_append
  have hfresh := h.fresh
  rw [hsplit] at hfresh
  have hid : id ∈ entries w.log := by
    rw [hsplit]
    exact List.mem_append_right _ List.mem_cons_self
  obtain ⟨-, hafter, hbefore⟩ := List.nodup_append.mp hfresh
  refine ⟨fun hin => ?_, fun hin => ?_⟩
  · exact (List.nodup_cons.mp hafter).1 (List.mem_append_left _ hin)
  · rcases mem_stackAfter hin with hold | hold
    · exact h.apart id hid hold
    · exact hbefore id hold id List.mem_cons_self rfl

lemma undone_iff {w : World} {n : ℕ} {before since post : List Event} {entry : Option ℕ}
    (h : Ledger stack w) (hlog : w.log =
      (before ++ .committed (.job n) (some id) :: since) ++ .undone (.job n) entry :: post)
    (hsince : ∀ e ∈ since, isCommitOf n e = false) :
    entry = some id ↔ above (others n since) = some 0 := by
  rw [others_eq (h.own n _ entry post hlog) hsince, h.taken _ _ entry post hlog]
  have hlog' : w.log =
      before ++ .committed (.job n) (some id) :: (since ++ .undone (.job n) entry :: post) := by
    rw [hlog, List.append_assoc, List.cons_append]
  obtain ⟨hnew, hbase⟩ := fresh_entry h hlog'
  have hstack : stackAfter stack (before ++ .committed (.job n) (some id) :: since) =
      stackAfter (id :: stackAfter stack before) since := by
    rw [stackAfter, List.foldl_append]
    rfl
  rw [hstack]
  exact head_stackAfter_iff hnew hbase

variable {w w' : World} {as : List Action}

lemma ledger_begins (hbegins : Begins w) : Ledger (Board.ids w.board) w ∧ Careful w := by
  have hlog := hbegins.log
  refine ⟨⟨?_, ?_, ?_, ?_, ?_, ?_⟩, fun n slot hslot => ?_⟩
  · rw [hlog]
    rfl
  · rw [hlog]
    exact List.nodup_nil
  · rw [hlog]
    exact nofun
  · rw [hlog]
    rintro id (hid | hid)
    · obtain ⟨entry, hentry, rfl⟩ := List.mem_map.mp hid
      exact hbegins.below entry hentry
    · cases hid
  · intro pre party entry post heq
    rw [hlog] at heq
    exact absurd heq.symm (by simp)
  · intro n pre entry post heq
    rw [hlog] at heq
    exact absurd heq.symm (by simp)
  · obtain ⟨-, setting, request, hprog⟩ := hbegins.jobs slot (List.mem_of_getElem? hslot)
    rw [hprog]
    exact safe_start setting request _

/-- **Undo safety of jobs.** In a run of jobs, other clients and cancel requests, every undo that is
carried out for a job reverts its own most recent commit, exactly if at each of them that commit has
left an entry on the undo stack and everything that others have left there since is gone again. -/
theorem undo_reverts_iff (hbegins : Begins w) (hrun : w.run as = some w') :
    (∀ n pre entry post, w'.log = pre ++ .undone (.job n) entry :: post → RevertsOwn n pre entry) ↔
      ∀ n pre entry post, w'.log = pre ++ .undone (.job n) entry :: post → Undisturbed n pre := by
  have hledger : Ledger (Board.ids w.board) w' ∧ Careful w' :=
    run_induction (P := fun v => Ledger (Board.ids w.board) v ∧ Careful v)
      (fun _ _ _ hv hstep => ledger_step hv.1 hv.2 hstep) (ledger_begins hbegins) hrun
  constructor
  · intro h n pre entry post hlog
    obtain ⟨before, id, since, rfl, hsince, hentry⟩ := h n pre entry post hlog
    exact ⟨before, id, since, rfl, hsince, (undone_iff hledger.1 hlog hsince).mp hentry⟩
  · intro h n pre entry post hlog
    obtain ⟨before, id, since, rfl, hsince, habove⟩ := h n pre entry post hlog
    exact ⟨before, id, since, rfl, hsince, (undone_iff hledger.1 hlog hsince).mpr habove⟩

/-! ### A job and another client -/

def newVia : NewVia := ⟨"GND", 1, ⟨0, 0⟩, 600, 300, [0, 2]⟩

def routedVia : RouteResult := ⟨"fab-router", [], [newVia], [], [], 1, false, [], none, none⟩

def bareBoard : Board := ⟨[], [], 0, 0⟩

def routing : World := World.new true bareBoard [(⟨true, none⟩, ⟨.js, none, none, some false⟩)]

/-- Up to the checks of the first pass, which find the new via dangling. -/
def untilChecked : List Action :=
  [.reply 0 (.board true), .reply 0 .ok, .reply 0 .ok, .reply 0 (.input ⟨[]⟩),
    .reply 0 (.result routedVia none), .reply 0 .ok, .reply 0 (.markers [⟨.danglingVia, [0]⟩])]

lemma begins_routing : Begins routing := begins_new List.nodup_nil fun _ h => (nomatch h)

theorem undo_reverts_routing :
    ∃ w', routing.run (untilChecked ++ [.reply 0 .ok]) = some w' ∧
      ((∀ n pre entry post, w'.log = pre ++ .undone (.job n) entry :: post →
          RevertsOwn n pre entry) ↔
        ∀ n pre entry post, w'.log = pre ++ .undone (.job n) entry :: post → Undisturbed n pre) := by
  obtain ⟨w', hrun⟩ := Option.isSome_iff_exists.mp
    (show (routing.run (untilChecked ++ [.reply 0 .ok])).isSome = true by decide +kernel)
  exact ⟨w', hrun, undo_reverts_iff begins_routing hrun⟩

/-- Another client commits before the job's undo, which takes that commit back. -/
theorem not_undo_reverts :
    ∃ w as w', Begins w ∧ w.run as = some w' ∧
      ¬ ∀ n pre entry post, w'.log = pre ++ .undone (.job n) entry :: post →
        RevertsOwn n pre entry := by
  have hlog : (routing.run (untilChecked ++ [.edit [], .reply 0 .ok])).map (·.log) =
      some ([.committed (.job 0) (some 0), .committed .client (some 1)] ++
        .undone (.job 0) (some 1) :: []) := by decide +kernel
  obtain ⟨w', hrun, hlog⟩ := Option.map_eq_some_iff.mp hlog
  refine ⟨routing, _, w', begins_routing, hrun, fun h => ?_⟩
  obtain ⟨before, id, since, heq, -, hid⟩ := h 0 _ _ _ hlog
  cases hid
  have hmem : Event.committed (.job 0) (some 1) ∈
      [Event.committed (.job 0) (some 0), .committed .client (some 1)] := by
    rw [heq]
    exact List.mem_append_right _ List.mem_cons_self
  exact absurd hmem (by decide)

end FabPcb.JobUndo
