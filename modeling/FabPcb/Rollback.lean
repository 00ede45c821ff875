import FabPcb.Sync
import FabPcb.Runs

/-!
Optimistic changes of several ops, settled in any order.

Every op emits an optimistic change and later an applied or a failed one. The store should
end up with the content it was loaded with and the canonical changes over it, in the order
they were applied. It does as long as an op only fails while the inverse kept for it is its
own and still holds the settled versions, and an op is only applied when its canonical
change overwrites what its optimistic one wrote.
-/

namespace FabPcb.Rollback

open OrderedMap Writes Items ItemStore StoreContent
open Document Undo Sync Runs

variable {P : Type*}

/-! ### Ops and their events -/

/-- An op between its two events. `inverse` is what was captured when it started, `started`
where its later history begins, `others` the ids the ops then in flight had written. -/
structure InFlight (P : Type*) where
  op : DocumentChange P
  inverse : StorePatch P
  started : ℕ
  others : List String

/-- The ids an op in flight has changed. -/
def InFlight.touched (r : InFlight P) : List String := StorePatch.ids r.inverse

structure State (P : Type*) where
  sync : DocumentSync P
  inflight : OMap ℕ (InFlight P)
  /-- Every change emitted so far. -/
  history : List (DocumentChange P)

def State.start (d : DocumentSync P) : State P := ⟨d, OMap.empty, []⟩

/-- An event of the op with the given number. -/
inductive Event (P : Type*) where
  | optimistic (n : ℕ) (c : DocumentChange P)
  | applied (n : ℕ) (items : List (Item P)) (ids : List String)
  | failed (n : ℕ)

/-- What an op starting with `c` is remembered by. -/
def State.entry (s : State P) (c : DocumentChange P) : InFlight P where
  op := c
  inverse := inversePatch s.sync.store (toPatch c)
  started := s.history.length + 1
  others := s.inflight.values.flatMap InFlight.touched

def State.begin (s : State P) (n : ℕ) (c : DocumentChange P) : State P where
  sync := onChange s.sync c
  inflight := s.inflight.set n (s.entry c)
  history := s.history ++ [c]

def State.settle (s : State P) (n : ℕ) (c : DocumentChange P) : State P where
  sync := onChange s.sync c
  inflight := s.inflight.delete n
  history := s.history ++ [c]

def appliedChange (r : InFlight P) (items : List (Item P)) (ids : List String) :
    DocumentChange P :=
  { r.op with phase := .applied, items, ids }

def failedChange (r : InFlight P) : DocumentChange P := { r.op with phase := .failed }

def step (s : State P) : Event P → Option (State P)
  | .optimistic n c =>
    if s.inflight.has n then none else some (s.begin n { c with phase := .optimistic })
  | .applied n items ids =>
    (s.inflight.get? n).map fun r => s.settle n (appliedChange r items ids)
  | .failed n => (s.inflight.get? n).map fun r => s.settle n (failedChange r)

/-- The canonical changes of a history, as writes. -/
def appliedWrites (history : List (DocumentChange P)) : List (String × Option (StoredItem P)) :=
  (history.filter fun c => c.phase = .applied).flatMap changeWrites

/-- The content with the canonical changes so far, and no other. -/
def State.settled (base : Content P) (s : State P) : Content P :=
  writeAll base (appliedWrites s.history)

/-! ### The condition on a step -/

/-- What was emitted since an op started. -/
def State.since (s : State P) (r : InFlight P) : List (DocumentChange P) :=
  s.history.drop r.started

/-- No event since used the key of the op, so the inverse kept is its own. -/
def Intact (s : State P) (r : InFlight P) : Prop := ∀ c ∈ s.since r, key c ≠ key r.op

/-- The version of `x` the op captured is the settled one: no op in flight had written it
then, and no canonical change has since. -/
def Exclusive (s : State P) (r : InFlight P) (x : String) : Prop :=
  x ∉ r.others ∧ ∀ c ∈ s.since r, c.phase = .applied → x ∉ changeIds c

/-- Another op in flight has written `x`. -/
def OtherTouches (s : State P) (n : ℕ) (x : String) : Prop :=
  ∃ e ∈ s.inflight.entries, e.1 ≠ n ∧ x ∈ e.2.touched

/-- The steps that leave no trace of failed ops: on every id it settles last, a failing op
restores the settled version, and an applied op overwrites its optimistic one. -/
def Safe (s : State P) : Event P → Prop
  | .optimistic _ _ => True
  | .applied n items ids => ∀ r ∈ s.inflight.get? n, ∀ x ∈ r.touched,
      x ∈ changeIds (appliedChange r items ids) ∨ OtherTouches s n x
  | .failed n => ∀ r, s.inflight.get? n = some r →
      ∀ x ∈ r.touched ++ (rollbackWrites s.sync (failedChange r)).map Prod.fst,
        (Intact s r ∧ Exclusive s r x) ∨ OtherTouches s n x

instance (s : State P) (r : InFlight P) : Decidable (Intact s r) :=
  inferInstanceAs (Decidable (∀ c ∈ s.since r, key c ≠ key r.op))

instance (s : State P) (r : InFlight P) (x : String) : Decidable (Exclusive s r x) :=
  inferInstanceAs (Decidable (x ∉ r.others ∧
    ∀ c ∈ s.since r, c.phase = .applied → x ∉ changeIds c))

instance (s : State P) (n : ℕ) (x : String) : Decidable (OtherTouches s n x) :=
  inferInstanceAs (Decidable (∃ e ∈ s.inflight.entries, e.1 ≠ n ∧ x ∈ e.2.touched))

instance (s : State P) (e : Event P) : Decidable (Safe s e) :=
  match e with
  | .optimistic _ _ => isTrue trivial
  | .applied n items ids => inferInstanceAs (Decidable (∀ r ∈ s.inflight.get? n,
      ∀ x ∈ r.touched, x ∈ changeIds (appliedChange r items ids) ∨ OtherTouches s n x))
  | .failed n => inferInstanceAs (Decidable (∀ r ∈ s.inflight.get? n,
      ∀ x ∈ r.touched ++ (rollbackWrites s.sync (failedChange r)).map Prod.fst,
        (Intact s r ∧ Exclusive s r x) ∨ OtherTouches s n x))

/-! ### What each step keeps -/

/-- Ids no op in flight has written hold the settled version; the inverse of an op is there
while its key is not used again, and restores the settled version of what is exclusive. -/
structure Inv (base : Content P) (s : State P) : Prop where
  following : Following s.sync
  started : ∀ n r, s.inflight.get? n = some r → r.started ≤ s.history.length
  untouched : ∀ x, (∀ n r, s.inflight.get? n = some r → x ∉ r.touched) →
    s.sync.content x = s.settled base x
  kept : ∀ n r, s.inflight.get? n = some r → Intact s r →
    s.sync.pending.get? (key r.op) = some r.inverse
  restores : ∀ n r, s.inflight.get? n = some r → ∀ x ∈ r.touched, Exclusive s r x →
    ∀ m : Content P, writeAll m (StorePatch.writes r.inverse) x = s.settled base x

variable {base : Content P} {s s' : State P} {n : ℕ} {c : DocumentChange P}

lemma appliedWrites_snoc_applied (history : List (DocumentChange P)) (hc : c.phase = .applied) :
    appliedWrites (history ++ [c]) = appliedWrites history ++ changeWrites c := by
  simp [appliedWrites, List.filter_append, hc]

lemma appliedWrites_snoc_other (history : List (DocumentChange P)) (hc : c.phase ≠ .applied) :
    appliedWrites (history ++ [c]) = appliedWrites history := by
  simp [appliedWrites, List.filter_append, hc]

lemma since_snoc {r : InFlight P} {history : List (DocumentChange P)}
    (h : r.started ≤ history.length) :
    (history ++ [c]).drop r.started = history.drop r.started ++ [c] := by
  rw [List.drop_append_of_le_length h]

lemma intact_snoc {sync : DocumentSync P} {inflight : OMap ℕ (InFlight P)} {r : InFlight P}
    (h : r.started ≤ s.history.length) :
    Intact ⟨sync, inflight, s.history ++ [c]⟩ r ↔ Intact s r ∧ key c ≠ key r.op := by
  simp only [Intact, State.since, since_snoc h, List.mem_append, List.mem_singleton]
  constructor
  · intro hi
    exact ⟨fun c' hc' => hi c' (Or.inl hc'), hi c (Or.inr rfl)⟩
  · rintro ⟨hi, hk⟩ c' (hc' | rfl)
    · exact hi c' hc'
    · exact hk

lemma exclusive_snoc {sync : DocumentSync P} {inflight : OMap ℕ (InFlight P)} {r : InFlight P}
    {x : String} (h : r.started ≤ s.history.length) :
    Exclusive ⟨sync, inflight, s.history ++ [c]⟩ r x ↔
      Exclusive s r x ∧ (c.phase = .applied → x ∉ changeIds c) := by
  simp only [Exclusive, State.since, since_snoc h, List.mem_append, List.mem_singleton]
  constructor
  · rintro ⟨ho, hs⟩
    exact ⟨⟨ho, fun c' hc' => hs c' (Or.inl hc')⟩, hs c (Or.inr rfl)⟩
  · rintro ⟨⟨ho, hs⟩, hc⟩
    refine ⟨ho, ?_⟩
    rintro c' (hc' | rfl)
    · exact hs c' hc'
    · exact hc

/-- **Step, optimistic.** The new op is the only one to change what it writes. -/
lemma inv_begin (h : Inv base s) (hn : s.inflight.get? n = none) (hc : c.phase = .optimistic) :
    Inv base (s.begin n c) := by
  obtain ⟨hcontent, hpending⟩ := onChange_optimistic h.following.loaded hc
  have hne : c.phase ≠ .applied := by simp [hc]
  have hsettled : (s.begin n c).settled base = s.settled base := by
    simp [State.settled, State.begin, appliedWrites_snoc_other s.history hne]
  have hget : ∀ m r, (s.begin n c).inflight.get? m = some r → m ≠ n →
      s.inflight.get? m = some r := by
    intro m r hr hm
    simpa [State.begin, hm] using hr
  have hold : ∀ m r, s.inflight.get? m = some r → m ≠ n := by
    rintro m r hr rfl
    rw [hn] at hr
    cases hr
  have hothers : ∀ x ∉ s.inflight.values.flatMap InFlight.touched,
      ∀ m r, s.inflight.get? m = some r → x ∉ r.touched := by
    intro x hx m r hr ht
    exact hx (List.mem_flatMap.mpr ⟨r, OMap.mem_values_iff.mpr ⟨m, hr⟩, ht⟩)
  refine ⟨h.following.onChange c, ?_, ?_, ?_, ?_⟩
  · intro m r hr
    by_cases hm : m = n
    · subst hm
      simp only [State.begin, OMap.get?_set, ↓reduceIte, Option.some.injEq] at hr
      subst hr
      simp [State.begin, State.entry]
    · have := h.started m r (hget m r hr hm)
      simp only [State.begin, List.length_append, List.length_singleton]
      omega
  · intro x hx
    have hnew : x ∉ (s.entry c).touched := hx n _ (by simp [State.begin])
    have hprev : ∀ m r, s.inflight.get? m = some r → x ∉ r.touched := fun m r hr =>
      hx m r (by simpa [State.begin, hold m r hr] using hr)
    rw [hsettled, ← h.untouched x hprev]
    exact (congrFun hcontent x).trans (changeWrites_of_notMem_inverse h.following c hnew)
  · intro m r hr hi
    by_cases hm : m = n
    · subst hm
      simp only [State.begin, OMap.get?_set, ↓reduceIte, Option.some.injEq] at hr
      subst hr
      simp [State.begin, State.entry, hpending]
    · have hr' := hget m r hr hm
      obtain ⟨hi', hk⟩ := (intact_snoc (h.started m r hr')).mp hi
      simp only [State.begin, hpending, OMap.get?_set, Ne.symm hk, ↓reduceIte]
      exact h.kept m r hr' hi'
  · intro m r hr x hx hex m'
    rw [hsettled]
    by_cases hm : m = n
    · subst hm
      simp only [State.begin, OMap.get?_set, ↓reduceIte, Option.some.injEq] at hr
      subst hr
      -- the captured version was settled: nobody in flight had written it
      refine (writeAll_inversePatch h.following.keyed (toPatch c) m' x).trans ?_
      rw [if_pos (show x ∈ StorePatch.ids (inversePatch s.sync.store (toPatch c)) from hx)]
      exact h.untouched x (hothers x hex.1)
    · have hr' := hget m r hr hm
      exact h.restores m r hr' x hx ((exclusive_snoc (h.started m r hr')).mp hex).1 m'

/-- What remains of the invariant when an op settles: the other ops in flight keep their
inverses, and what these restore, if the settled content changes where `c` is canonical. -/
lemma inv_settle (h : Inv base s) (hphase : c.phase ≠ .optimistic)
    (hsame : ∀ x, (c.phase = .applied → x ∉ changeIds c) →
      (s.settle n c).settled base x = s.settled base x)
    (huntouched : ∀ x, (∀ m r, (s.settle n c).inflight.get? m = some r → x ∉ r.touched) →
      (s.settle n c).sync.content x = (s.settle n c).settled base x) :
    Inv base (s.settle n c) := by
  have hpending : (onChange s.sync c).pending = s.sync.pending.delete (key c) := by
    rcases hp : c.phase with _ | _ | _
    · exact absurd hp hphase
    · exact (onChange_applied h.following.loaded hp).2
    · exact (onChange_failed h.following.loaded hp).2
  have hget : ∀ m r, (s.settle n c).inflight.get? m = some r → s.inflight.get? m = some r := by
    intro m r hr
    simp only [State.settle, OMap.get?_delete] at hr
    split_ifs at hr
    exact hr
  refine ⟨h.following.onChange c, ?_, huntouched, ?_, ?_⟩
  · intro m r hr
    have := h.started m r (hget m r hr)
    simp only [State.settle, List.length_append, List.length_singleton]
    omega
  · intro m r hr hi
    have hr' := hget m r hr
    obtain ⟨hi', hk⟩ := (intact_snoc (h.started m r hr')).mp hi
    simp only [State.settle, hpending, OMap.get?_delete, Ne.symm hk, ↓reduceIte]
    exact h.kept m r hr' hi'
  · intro m r hr x hx hex m'
    have hr' := hget m r hr
    obtain ⟨hex', hc⟩ := (exclusive_snoc (h.started m r hr')).mp hex
    rw [hsame x hc]
    exact h.restores m r hr' x hx hex' m'

lemma settled_of_untouched (h : Inv base s) {r : InFlight P} (hr : s.inflight.get? n = some r)
    {x : String} (hx : x ∉ r.touched)
    (hrest : ∀ m r', (s.inflight.delete n).get? m = some r' → x ∉ r'.touched) :
    s.sync.content x = s.settled base x := by
  refine h.untouched x fun m r' hr' => ?_
  by_cases hm : m = n
  · subst hm
    rw [hr] at hr'
    cases hr'
    exact hx
  · exact hrest m r' (by simpa [hm] using hr')

/-- **Step, applied.** -/
lemma inv_applied (h : Inv base s) {r : InFlight P} (hr : s.inflight.get? n = some r)
    {items : List (Item P)} {ids : List String}
    (hsafe : ∀ x ∈ r.touched, x ∈ changeIds (appliedChange r items ids) ∨ OtherTouches s n x) :
    Inv base (s.settle n (appliedChange r items ids)) := by
  set c := appliedChange r items ids with hcdef
  have hc : c.phase = .applied := rfl
  obtain ⟨hcontent, -⟩ := onChange_applied h.following.loaded hc
  have hsettled : (s.settle n c).settled base = writeAll (s.settled base) (changeWrites c) := by
    simp [State.settled, State.settle, appliedWrites_snoc_applied s.history hc,
      writeAll_append]
  refine inv_settle h (by simp [hc]) ?_ ?_
  · intro x hx
    rw [hsettled, writeAll_of_notMem (hx hc)]
  · intro x hrest
    rw [hsettled]
    refine (congrFun hcontent x).trans ?_
    by_cases hx : x ∈ changeIds c
    · exact writeAll_congr_of_mem hx
    · rw [writeAll_of_notMem hx, writeAll_of_notMem hx]
      refine settled_of_untouched h hr (fun ht => ?_) hrest
      rcases hsafe x ht with hmem | ⟨⟨m, r'⟩, hr', hm, ht'⟩
      · exact hx hmem
      · exact hrest m r' (by simpa [State.settle, hm] using OMap.get?_eq_some_iff.mpr hr') ht'

/-- **Step, failed.** -/
lemma inv_failed (h : Inv base s) {r : InFlight P} (hr : s.inflight.get? n = some r)
    (hsafe : ∀ x ∈ r.touched ++ (rollbackWrites s.sync (failedChange r)).map Prod.fst,
      (Intact s r ∧ Exclusive s r x) ∨ OtherTouches s n x) :
    Inv base (s.settle n (failedChange r)) := by
  set c := failedChange r with hcdef
  have hc : c.phase = .failed := rfl
  obtain ⟨hcontent, -⟩ := onChange_failed h.following.loaded hc
  have hsettled : (s.settle n c).settled base = s.settled base := by
    simp [State.settled, State.settle, appliedWrites_snoc_other s.history (c := c) (by simp [hc])]
  refine inv_settle h (by simp [hc]) (fun x _ => by rw [hsettled]) fun x hrest => ?_
  rw [hsettled]
  refine (congrFun hcontent x).trans ?_
  by_cases hx : x ∈ r.touched ++ (rollbackWrites s.sync c).map Prod.fst
  · rcases hsafe x hx with ⟨hi, hex⟩ | ⟨⟨m, r'⟩, hr', hm, ht'⟩
    · -- the inverse is the op's own, and restores the settled version
      have hown : rollbackWrites s.sync c = StorePatch.writes r.inverse := by
        have hk : s.sync.pending.get? (key c) = some r.inverse := h.kept n r hr hi
        simp [rollbackWrites, hk]
      have ht : x ∈ r.touched := by
        rw [hown, writes_keys] at hx
        rcases List.mem_append.mp hx with ht | ht
        · exact ht
        · exact ht
      rw [hown]
      exact h.restores n r hr x ht hex _
    · have hr'' := OMap.get?_eq_some_iff.mpr hr'
      exact absurd ht' (hrest m r' (by simpa [State.settle, hm] using hr''))
  · rw [List.mem_append, not_or] at hx
    rw [writeAll_of_notMem hx.2]
    exact settled_of_untouched h hr hx.1 hrest

/-- **Step**: every step that meets the condition keeps the invariant. -/
theorem inv_step (h : Inv base s) {e : Event P} (hsafe : Safe s e) (hstep : step s e = some s') :
    Inv base s' := by
  cases e with
  | optimistic n c =>
    simp only [step, Option.ite_none_left_eq_some, Option.some.injEq] at hstep
    obtain ⟨hn, rfl⟩ := hstep
    exact inv_begin h (OMap.has_eq_false_iff.mp (by simpa using hn)) rfl
  | applied n items ids =>
    obtain ⟨r, hr, rfl⟩ := Option.map_eq_some_iff.mp hstep
    exact inv_applied h hr (hsafe r hr)
  | failed n =>
    obtain ⟨r, hr, rfl⟩ := Option.map_eq_some_iff.mp hstep
    exact inv_failed h hr (hsafe r hr)

lemma inv_start {d : DocumentSync P} (hd : Following d) : Inv d.content (State.start d) := by
  refine ⟨hd, ?_, fun x _ => rfl, ?_, ?_⟩ <;> intro m r hr <;> simp [State.start] at hr

/-! ### Runs -/

/-- **Rollback under interleaving.** Along any run whose steps all meet the condition, once
every op has settled the store holds the loaded content with the canonical changes over it,
in the order they were applied. -/
theorem settled_content {d : DocumentSync P} (hd : Following d) (events : List (Event P))
    (hsafe : Along step Safe (State.start d) events)
    (hrun : run step (State.start d) events = some s) (hdone : s.inflight.size = 0) :
    s.sync.content = writeAll d.content (appliedWrites s.history) := by
  have hinv : Inv d.content s :=
    invariant_along (Inv d.content) (fun _ _ _ h hok hs => inv_step h hok hs) (inv_start hd)
      hsafe hrun
  funext x
  refine hinv.untouched x fun m r hr => ?_
  rw [OMap.size_eq_zero_iff.mp hdone m] at hr
  cases hr

/-! ### Two updates of one track -/

/-- A track on the given layer, its message being the layer. -/
def track (layer : String) : Item String :=
  ⟨"t", true, .KOT_PCB_TRACE, some layer, none, none, layer⟩

/-- A board of one track on the front layer, loaded at revision 1. -/
def loadedTrack : DocumentSync String :=
  DocumentSync.new.load { items := [track "BL_F_Cu"], deletedIds := [], revision := 1, full := true }

/-- A one-shot update moving the track to a layer. -/
def moveTo (layer : String) : DocumentChange String where
  kind := .update
  phase := .optimistic
  items := [track layer]
  ids := ["t"]
  scope := {}
  commitId := ""

/-- An applied update and, after it, a failed one: the canonical track stays. -/
theorem settled_content_track :
    ∃ s, run step (State.start loadedTrack) [.optimistic 1 (moveTo "BL_B_Cu"),
        .applied 1 [track "BL_B_Cu"] ["t"], .optimistic 2 (moveTo "BL_In1_Cu"), .failed 2] = some s ∧
      s.sync.content = writeAll loadedTrack.content (appliedWrites s.history) := by
  refine ⟨_, rfl, settled_content (following_load _) [.optimistic 1 (moveTo "BL_B_Cu"),
    .applied 1 [track "BL_B_Cu"] ["t"], .optimistic 2 (moveTo "BL_In1_Cu"), .failed 2] ?_ rfl ?_⟩
  · decide
  · decide

/-- Two updates of one track in flight, both failing in the order they were sent: the second
inverse holds the optimistic version of the first, and restores it. -/
theorem stale_inverse_restored :
    ∃ s, run step (State.start loadedTrack) [.optimistic 1 (moveTo "BL_B_Cu"),
        .optimistic 2 (moveTo "BL_In1_Cu"), .failed 1, .failed 2] = some s ∧
      s.inflight.size = 0 ∧ appliedWrites s.history = [] ∧
      s.sync.content ≠ writeAll loadedTrack.content (appliedWrites s.history) := by
  refine ⟨_, rfl, by decide, by decide, fun h => ?_⟩
  have ht := congrFun h "t"
  revert ht
  decide

end FabPcb.Rollback
