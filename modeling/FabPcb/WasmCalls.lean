import FabPcb.WasmWorker
import Mathlib.Data.List.Range
import Mathlib.Data.List.Perm.Basic

/-!
What a run of calls into the worker keeps.

The calls that were given an id are pending or settled, each once. The ids that the module has
served and those still under way to it go up. A module that has aborted is not loaded again, and
nothing is posted behind the message that stops the worker.
-/

namespace FabPcb.WasmCalls

open WasmWorker WasmWorker.System Runs

variable {V : Type}

def servedId? : Act V → Option ℕ
  | .served id _ _ => some id
  | .stopped => none

def callId? : ToWorker → Option ℕ
  | .call id _ => some id
  | .start | .stop => none

def isAbort : Act V → Bool
  | .served _ _ (.aborted _) => true
  | _ => false

/-- Nothing is to be served behind it. -/
def ends : Act V → Bool
  | .served _ _ (.aborted _) | .stopped => true
  | _ => false

/-! ### What is wanted -/

/-- What is wanted of any run: a call is settled once, and with a value only if it is the one
that the module gave for its request; requests are served in the order of their ids, and none once
the module has aborted or was stopped. -/
structure Sound (s : System V) : Prop where
  once : (s.settled.map Prod.fst).Nodup
  own : ∀ id v, (id, .ok v) ∈ s.settled →
    ∃ body, s.posted[id - 1]? = some body ∧ .served id body (.value v) ∈ s.acts
  ordered : (s.acts.filterMap servedId?).Pairwise (· < ·)
  requests : ∀ id body a, .served id body a ∈ s.acts → s.posted[id - 1]? = some body
  halted : s.acts.Pairwise fun a b => ends a = true → servedId? b = none

/-- What is wanted once the client has seen the worker stop, or `terminate()` or `shutdown()` has
finished: no call is pending, and none was let through since. -/
def Over (s : System V) : Prop :=
  ∀ k, s.ended = some k → s.pending = [] ∧ s.taken = k ∧
    ∀ id, 1 ≤ id → id ≤ s.posted.length → id ∈ s.settled.map Prod.fst

/-! ### The condition -/

/-- A message that the worker starts or runs. -/
def revives : FromWorker V → Bool
  | .state state _ => !state.isOver
  | .reply _ _ | .notice => false

/-- No call of `shutdown()` or `terminate()` while another shutdown leaves calls pending, no
message that the worker starts or runs once the client has seen it stop and has not been shut
down, and no writing of no files behind the end. -/
def Minded (s : System V) : Event V → Prop
  | .shutdown _ | .terminate _ => s.closed = true → s.pending = []
  | .deliver => s.fromWorker.head?.any revives = true → s.closed = true ∨ s.state.isOver = false
  | .call body _ => body = .fs (.writeFiles []) → s.ended = none
  | .timeout | .resume | .workerError _ | .handle _ | .loaded _ | .notice => True

instance (s : System V) : (e : Event V) → Decidable (Minded s e)
  | .shutdown _ | .terminate _ => inferInstanceAs (Decidable (_ → s.pending = []))
  | .deliver => inferInstanceAs (Decidable (_ → _ ∨ _))
  | .call _ _ => inferInstanceAs (Decidable (_ → s.ended = none))
  | .timeout | .resume | .workerError _ | .handle _ | .loaded _ | .notice =>
    inferInstanceAs (Decidable True)

/-! ### The invariant -/

/-- The calls with an id are pending or settled, each once, and those settled with a value have
been served with it. -/
structure Books (s : System V) : Prop where
  books : (s.settled.map Prod.fst ++ s.pending).Perm (List.range' 1 s.posted.length)
  values : ∀ id v, (id, .ok v) ∈ s.settled → ∃ body, .served id body (.value v) ∈ s.acts
  replies : ∀ id v, .reply id (.ok v) ∈ s.fromWorker → ∃ body, .served id body (.value v) ∈ s.acts

/-- The requests under way to the module, and those that it has served. -/
structure Queue (s : System V) : Prop where
  ordered : (s.acts.filterMap servedId? ++ s.toWorker.filterMap callId?).Pairwise (· < ·)
  queued : ∀ id body, .call id body ∈ s.toWorker → 1 ≤ id ∧ s.posted[id - 1]? = some body
  served : ∀ id body a, .served id body a ∈ s.acts → 1 ≤ id ∧ s.posted[id - 1]? = some body

/-- When the module is there, and when it will not be any more. -/
structure Life (s : System V) : Prop where
  startFirst : .start ∉ s.toWorker.tail
  fresh : .start ∈ s.toWorker ∨ s.loading = true → s.wasm = false
  loading : .start ∈ s.toWorker → s.loading = false
  gone : (∃ a ∈ s.acts, isAbort a = true) →
    s.wasm = false ∧ s.loading = false ∧ .start ∉ s.toWorker
  stopLast : ∀ l l', s.toWorker = l ++ .stop :: l' → l' = []
  stopClosed : .stop ∈ s.toWorker ∨ s.stopped = true → s.closed = true
  stopEmpty : s.stopped = true → s.toWorker = []
  stopped : .stopped ∈ s.acts → s.stopped = true
  halted : s.acts.Pairwise fun a b => ends a = true → servedId? b = none

structure Inv (s : System V) : Prop where
  books : Books s
  queue : Queue s
  life : Life s

variable {s t : System V} {e : Event V} {id : ℕ} {f : Failure}

/-! ### Settling -/

lemma books_failAll (h : Books s) (f : Failure) : Books (s.failAll f) where
  books := by
    simp only [failAll, List.map_append, List.map_map, List.append_nil]
    have hids : (s.pending.map (Prod.fst ∘ fun id => (id, (.error f : Except Failure V)))) =
        s.pending := List.map_id' _
    rw [hids]
    exact h.books
  values id v hv := by
    rcases List.mem_append.mp hv with hv | hv
    · exact h.values id v hv
    · obtain ⟨id', -, heq⟩ := List.mem_map.mp hv
      cases heq
  replies := h.replies

lemma books_onReply {result : Except Failure V} (h : Books s)
    (hresult : ∀ v, result = .ok v → ∃ body, .served id body (.value v) ∈ s.acts) :
    Books (s.onReply id result) := by
  rw [onReply]
  by_cases hid : id ∈ s.pending
  · rw [if_pos hid]
    refine ⟨?_, fun id' v hv => ?_, h.replies⟩
    · simp only [List.map_append, List.map_cons, List.map_nil, List.append_assoc,
        List.singleton_append]
      exact ((List.perm_cons_erase hid).symm.append_left _).trans h.books
    · rcases List.mem_append.mp hv with hv | hv
      · exact h.values id' v hv
      · obtain ⟨rfl, rfl⟩ := Prod.mk.inj (List.mem_singleton.mp hv)
        exact hresult v rfl
  · rw [if_neg hid]
    exact h

lemma mem_range'_of_books (h : Books s) (hid : 1 ≤ id) (hle : id ≤ s.posted.length) :
    id ∈ s.settled.map Prod.fst ∨ id ∈ s.pending := by
  rw [← List.mem_append, h.books.mem_iff, List.mem_range'_1]
  omega

lemma books_post (h : Books s) {body : Body} (hposted : t.posted = s.posted ++ [body])
    (hperm : (t.settled.map Prod.fst ++ t.pending).Perm
      (s.settled.map Prod.fst ++ s.pending ++ [s.posted.length + 1]))
    (hvalues : ∀ id v, (id, .ok v) ∈ t.settled → (id, .ok v) ∈ s.settled)
    (hacts : t.acts = s.acts) (hfrom : t.fromWorker = s.fromWorker) : Books t where
  books := by
    have hrange : List.range' 1 t.posted.length =
        List.range' 1 s.posted.length ++ [s.posted.length + 1] := by
      rw [hposted, List.length_append, List.length_singleton, List.range'_concat, Nat.one_mul,
        Nat.add_comm 1]
    rw [hrange]
    exact hperm.trans (h.books.append_right _)
  values id v hv := by rw [hacts]; exact h.values id v (hvalues id v hv)
  replies := by rw [hfrom, hacts]; exact h.replies

/-! ### What leaves the worker alone -/

/-- The worker, the messages to it and what the module did are as they were. -/
structure SameWorker (s t : System V) : Prop where
  toWorker : t.toWorker = s.toWorker
  acts : t.acts = s.acts
  loading : t.loading = s.loading
  wasm : t.wasm = s.wasm
  stopped : t.stopped = s.stopped
  closed : s.closed = true → t.closed = true

lemma Queue.same (h : Queue s) (hs : SameWorker s t) (hposted : t.posted = s.posted) :
    Queue t where
  ordered := by rw [hs.acts, hs.toWorker]; exact h.ordered
  queued := by rw [hs.toWorker, hposted]; exact h.queued
  served := by rw [hs.acts, hposted]; exact h.served

lemma Life.same (h : Life s) (hs : SameWorker s t) : Life t where
  startFirst := by rw [hs.toWorker]; exact h.startFirst
  fresh := by rw [hs.toWorker, hs.loading, hs.wasm]; exact h.fresh
  loading := by rw [hs.toWorker, hs.loading]; exact h.loading
  gone := by rw [hs.acts, hs.wasm, hs.loading, hs.toWorker]; exact h.gone
  stopLast := by rw [hs.toWorker]; exact h.stopLast
  stopClosed := by
    rw [hs.toWorker, hs.stopped]
    exact fun hstop => hs.closed (h.stopClosed hstop)
  stopEmpty := by rw [hs.stopped, hs.toWorker]; exact h.stopEmpty
  stopped := by rw [hs.acts, hs.stopped]; exact h.stopped
  halted := by rw [hs.acts]; exact h.halted

lemma same_finish (s : System V) : SameWorker s s.finish := ⟨rfl, rfl, rfl, rfl, rfl, id⟩

lemma same_failAll (s : System V) (f : Failure) : SameWorker s (s.failAll f) :=
  ⟨rfl, rfl, rfl, rfl, rfl, id⟩

lemma same_notifyState (s : System V) (state : WorkerState) :
    SameWorker s (s.notifyState state) := by
  rw [notifyState]
  split_ifs <;> exact ⟨rfl, rfl, rfl, rfl, rfl, id⟩

lemma same_onReply (s : System V) (id : ℕ) (result : Except Failure V) :
    SameWorker s (s.onReply id result) := by
  rw [onReply]
  split_ifs <;> exact ⟨rfl, rfl, rfl, rfl, rfl, fun h => h⟩

lemma Inv.keep (h : Inv s) (hs : SameWorker s t) (hposted : t.posted = s.posted)
    (hsettled : t.settled = s.settled) (hpending : t.pending = s.pending)
    (hfrom : t.fromWorker = s.fromWorker) : Inv t := by
  refine ⟨⟨?_, ?_, ?_⟩, h.queue.same hs hposted, h.life.same hs⟩
  · rw [hsettled, hpending, hposted]
    exact h.books.books
  · rw [hsettled, hs.acts]
    exact h.books.values
  · rw [hfrom, hs.acts]
    exact h.books.replies

lemma inv_finish (h : Inv s) : Inv s.finish := h.keep (same_finish s) rfl rfl rfl rfl

lemma inv_failAll (h : Inv s) (f : Failure) : Inv (s.failAll f) :=
  ⟨books_failAll h.books f, h.queue.same (same_failAll s f) rfl, h.life.same (same_failAll s f)⟩

lemma inv_notifyState (h : Inv s) (state : WorkerState) : Inv (s.notifyState state) := by
  have hsame := same_notifyState s state
  rw [notifyState] at hsame ⊢
  split_ifs at hsame ⊢
  · exact h.keep hsame rfl rfl rfl rfl
  · exact h

/-! ### The client -/

/-- A message is posted by a client that has not been closed. -/
lemma life_post (h : Life s) (hclosed : s.closed = false) {m : ToWorker} (hm : m ≠ .start)
    (hto : t.toWorker = s.toWorker ++ [m]) (hacts : t.acts = s.acts)
    (hloading : t.loading = s.loading) (hwasm : t.wasm = s.wasm) (hstopped : t.stopped = s.stopped)
    (hstop : m = .stop → t.closed = true) : Life t := by
  have hnot : .stop ∉ s.toWorker ∧ s.stopped = false := by
    refine ⟨fun hmem => ?_, Bool.eq_false_iff.mpr fun hs => ?_⟩
    · exact absurd (h.stopClosed (.inl hmem)) (by simp [hclosed])
    · exact absurd (h.stopClosed (.inr hs)) (by simp [hclosed])
  have hstart : .start ∈ t.toWorker ↔ .start ∈ s.toWorker := by
    simp [hto, Ne.symm hm]
  refine ⟨?_, ?_, ?_, ?_, fun l l' hl => ?_, ?_, ?_, ?_, ?_⟩
  · rw [hto]
    cases hs : s.toWorker with
    | nil => simp
    | cons x rest =>
      have hfirst := h.startFirst
      rw [hs, List.tail_cons] at hfirst
      simp [hfirst, Ne.symm hm]
  · rw [hstart, hloading, hwasm]
    exact h.fresh
  · rw [hstart, hloading]
    exact h.loading
  · rw [hacts, hwasm, hloading, hstart]
    exact h.gone
  · -- a stop in the queue can only be the new message
    rw [hto] at hl
    rcases List.append_eq_append_iff.mp hl with ⟨m', rfl, htail⟩ | ⟨m', hs, htail⟩
    · rcases List.cons_eq_append_iff.mp htail with ⟨rfl, hx⟩ | ⟨m'', rfl, hx⟩
      · exact (List.cons.inj hx).2
      · exact absurd hx (by simp)
    · rcases List.cons_eq_append_iff.mp htail with ⟨rfl, hx⟩ | ⟨m'', rfl, hx⟩
      · exact ((List.cons.inj hx).2).symm
      · exact absurd (hs ▸ by simp) hnot.1
  · rw [hto, hstopped]
    rintro (hmem | hs)
    · rcases List.mem_append.mp hmem with hmem | hmem
      · exact absurd hmem hnot.1
      · exact hstop (List.mem_singleton.mp hmem).symm
    · exact absurd hs (by simp [hnot.2])
  · rw [hstopped, hnot.2]
    simp
  · rw [hacts, hstopped]
    exact h.stopped
  · rw [hacts]
    exact h.halted

lemma id_le_of_mem (h : Queue s)
    (hid : id ∈ s.acts.filterMap servedId? ++ s.toWorker.filterMap callId?) :
    id ≤ s.posted.length := by
  have hle : ∀ body : Body, 1 ≤ id ∧ s.posted[id - 1]? = some body → id ≤ s.posted.length :=
    fun body hbody => by
      have hlt := (List.getElem?_eq_some_iff.mp hbody.2).1
      omega
  rcases List.mem_append.mp hid with hid | hid
  · obtain ⟨a, ha, heq⟩ := List.mem_filterMap.mp hid
    cases a with
    | served id' body answer =>
      obtain rfl := Option.some.inj heq
      exact hle body (h.served _ _ _ ha)
    | stopped => cases heq
  · obtain ⟨m, hm, heq⟩ := List.mem_filterMap.mp hid
    cases m with
    | call id' body =>
      obtain rfl := Option.some.inj heq
      exact hle body (h.queued _ _ hm)
    | start => cases heq
    | stop => cases heq

lemma getElem?_posted (body : Body) {id : ℕ} {body' : Body} (h : s.posted[id - 1]? = some body') :
    (s.posted ++ [body])[id - 1]? = some body' := by
  rw [List.getElem?_append_left (List.getElem?_eq_some_iff.mp h).1, h]

lemma inv_send (h : Inv s) (body : Body) (throws : Option String) : Inv (s.send body throws) := by
  rw [send]
  by_cases hshut : s.isShutDown = true
  · rw [if_pos hshut]
    exact h.keep ⟨rfl, rfl, rfl, rfl, rfl, id⟩ rfl rfl rfl rfl
  · rw [if_neg hshut]
    have hclosed : s.closed = false := by
      rw [isShutDown, Bool.or_eq_true, not_or, Bool.not_eq_true] at hshut
      exact hshut.1
    have hserved : ∀ id b a, .served id b a ∈ s.acts →
        1 ≤ id ∧ (s.posted ++ [body])[id - 1]? = some b := fun id b a ha =>
      (h.queue.served id b a ha).imp_right (getElem?_posted body)
    have hqueued : ∀ id b, .call id b ∈ s.toWorker →
        1 ≤ id ∧ (s.posted ++ [body])[id - 1]? = some b := fun id b hb =>
      (h.queue.queued id b hb).imp_right (getElem?_posted body)
    cases throws with
    | some message =>
      refine ⟨books_post h.books rfl ?_ (fun id v hv => ?_) rfl rfl,
        ⟨h.queue.ordered, hqueued, hserved⟩, h.life.same ⟨rfl, rfl, rfl, rfl, rfl, id⟩⟩
      · simp only [List.map_append, List.map_cons, List.map_nil, List.append_assoc]
        exact List.perm_append_comm.append_left _
      · rcases List.mem_append.mp hv with hv | hv
        · exact hv
        · cases List.mem_singleton.mp hv
    | none =>
      refine ⟨books_post h.books rfl (by rw [List.append_assoc]) (fun _ _ => id) rfl rfl,
        ⟨?_, fun id b hb => ?_, hserved⟩,
        life_post h.life hclosed (m := .call (s.posted.length + 1) body) (by simp) rfl rfl rfl rfl
          rfl (by simp)⟩
      · -- the new id is beyond those given before
        rw [List.filterMap_append, ← List.append_assoc, List.pairwise_append]
        refine ⟨h.queue.ordered, by simp [callId?], fun x hx y hy => ?_⟩
        have hy' : y = s.posted.length + 1 := by simpa [callId?] using hy
        rw [hy']
        exact Nat.lt_succ_of_le (id_le_of_mem h.queue hx)
      · rcases List.mem_append.mp hb with hb | hb
        · exact hqueued id b hb
        · cases List.mem_singleton.mp hb
          simp

lemma inv_call (h : Inv s) (body : Body) (throws : Option String) : Inv (s.call body throws) := by
  rw [call]
  split_ifs
  · exact h.keep ⟨rfl, rfl, rfl, rfl, rfl, id⟩ rfl rfl rfl rfl
  · exact inv_send h body throws

lemma inv_finishShutdown (h : Inv s) : Inv s.finishShutdown := by
  have hstart : Inv { s with stopping := none, terminated := true } :=
    h.keep ⟨rfl, rfl, rfl, rfl, rfl, id⟩ rfl rfl rfl rfl
  exact inv_finish (inv_failAll hstart _)

lemma inv_shutdown (h : Inv s) (throws : Bool) : Inv (s.shutdown throws) := by
  rw [shutdown]
  cases hclosed : s.closed with
  | true => exact inv_finish h
  | false =>
    cases throws with
    | true =>
      have hstart : Inv { s with closed := true } :=
        h.keep ⟨rfl, rfl, rfl, rfl, rfl, fun _ => rfl⟩ rfl rfl rfl rfl
      exact inv_finishShutdown hstart
    | false =>
      have hordered : (s.acts.filterMap servedId? ++
          (s.toWorker ++ [ToWorker.stop]).filterMap callId?).Pairwise (· < ·) := by
        have hnone : [ToWorker.stop].filterMap callId? = [] := rfl
        rw [List.filterMap_append, hnone, List.append_nil]
        exact h.queue.ordered
      exact ⟨⟨h.books.books, h.books.values, h.books.replies⟩,
        ⟨hordered, fun id body hb => h.queue.queued id body
          ((List.mem_append.mp hb).resolve_right (by simp)), h.queue.served⟩,
        life_post h.life hclosed (m := .stop) (by simp) rfl rfl rfl rfl rfl fun _ => rfl⟩

lemma inv_terminate (h : Inv s) (reason : String) : Inv (s.terminate reason) := by
  rw [terminate]
  split_ifs
  · exact inv_finish h
  · have hstart : Inv { s with closed := true, terminated := true, state := .failed } :=
      h.keep ⟨rfl, rfl, rfl, rfl, rfl, fun _ => rfl⟩ rfl rfl rfl rfl
    exact inv_finish (inv_failAll hstart _)

lemma inv_onState (h : Inv s) (state : WorkerState) (message : Option String) :
    Inv (s.onState state message) := by
  have hstart : Inv { s with state := state } :=
    h.keep ⟨rfl, rfl, rfl, rfl, rfl, id⟩ rfl rfl rfl rfl
  have hnotify := inv_notifyState hstart state
  rw [onState]
  split_ifs
  · exact inv_finish (inv_failAll hnotify _)
  · exact hnotify

lemma inv_fail (h : Inv s) (message : String) : Inv (s.fail message) := by
  have hstart : Inv { s with state := .failed } :=
    h.keep ⟨rfl, rfl, rfl, rfl, rfl, id⟩ rfl rfl rfl rfl
  exact inv_finish (inv_failAll (inv_notifyState hstart .failed) _)

lemma posted_onReply (s : System V) (id : ℕ) (result : Except Failure V) :
    (s.onReply id result).posted = s.posted := by
  rw [onReply]
  split_ifs <;> rfl

lemma inv_deliver {m : FromWorker V} {rest : List (FromWorker V)} (h : Inv s)
    (hm : s.fromWorker = m :: rest) : Inv (onMessage { s with fromWorker := rest } m) := by
  have hsub : ∀ m' ∈ rest, m' ∈ s.fromWorker := fun m' hm' => by
    rw [hm]
    exact List.mem_cons_of_mem _ hm'
  have hstart : Inv { s with fromWorker := rest } :=
    ⟨⟨h.books.books, h.books.values, fun id v hv => h.books.replies id v (hsub _ hv)⟩,
      h.queue.same ⟨rfl, rfl, rfl, rfl, rfl, id⟩ rfl, h.life.same ⟨rfl, rfl, rfl, rfl, rfl, id⟩⟩
  cases m with
  | state state message => exact inv_onState hstart state message
  | reply id result =>
    refine ⟨books_onReply hstart.books fun v hv => ?_,
      hstart.queue.same (same_onReply _ id result) (posted_onReply _ id result),
      hstart.life.same (same_onReply _ id result)⟩
    exact h.books.replies id v (by rw [hm, hv]; exact List.mem_cons_self)
  | notice => exact hstart

/-! ### The worker -/

lemma books_worker (h : Books s) (hsettled : t.settled = s.settled)
    (hpending : t.pending = s.pending) (hposted : t.posted = s.posted)
    (hacts : ∀ a ∈ s.acts, a ∈ t.acts)
    (hreplies : ∀ id v, .reply id (.ok v) ∈ t.fromWorker →
      .reply id (.ok v) ∈ s.fromWorker ∨ ∃ body, .served id body (.value v) ∈ t.acts) :
    Books t where
  books := by rw [hsettled, hpending, hposted]; exact h.books
  values id v hv := by
    rw [hsettled] at hv
    exact (h.values id v hv).imp fun body => hacts _
  replies id v hv := by
    rcases hreplies id v hv with hv | hv
    · exact (h.replies id v hv).imp fun body => hacts _
    · exact hv

variable {m : ToWorker} {rest : List ToWorker} {a : Act V}

lemma start_notMem_rest (h : Life s) (hm : s.toWorker = m :: rest) : .start ∉ rest := by
  have hfirst := h.startFirst
  rwa [hm] at hfirst

lemma not_stopped (h : Life s) (hm : s.toWorker = m :: rest) : s.stopped = false :=
  Bool.eq_false_iff.mpr fun hs => by
    rw [h.stopEmpty hs] at hm
    cases hm

/-- A message is read. -/
lemma inv_read (h : Inv s) (hm : s.toWorker = m :: rest) : Inv { s with toWorker := rest } := by
  have hsub : ∀ m' ∈ rest, m' ∈ s.toWorker := fun m' hm' => by
    rw [hm]
    exact List.mem_cons_of_mem _ hm'
  have hstart := start_notMem_rest h.life hm
  refine ⟨⟨h.books.books, h.books.values, h.books.replies⟩, ⟨?_, fun id body hb =>
    h.queue.queued id body (hsub _ hb), h.queue.served⟩, ?_⟩
  · refine h.queue.ordered.sublist (List.Sublist.append_left ?_ _)
    rw [hm]
    exact (List.sublist_cons_self m rest).filterMap _
  · exact
      { startFirst := fun hmem => hstart (List.mem_of_mem_tail hmem)
        fresh := fun hfresh => h.life.fresh (.inr (hfresh.resolve_left hstart))
        loading := fun hmem => absurd hmem hstart
        gone := fun habort => ⟨(h.life.gone habort).1, (h.life.gone habort).2.1, hstart⟩
        stopLast := fun l l' hl =>
          h.life.stopLast (m :: l) l' (hm.trans (congrArg (List.cons m) hl))
        stopClosed := fun hstop => h.life.stopClosed (hstop.imp_left (hsub _))
        stopEmpty := fun hs => absurd hs (by simp [not_stopped h.life hm])
        stopped := h.life.stopped
        halted := h.life.halted }

/-- A request runs in the module. -/
lemma life_served {body : Body} {answer : Answer V} (h : Life s)
    (hm : s.toWorker = .call id body :: rest) (hwasm : s.wasm = true)
    (hto : t.toWorker = rest) (hacts : t.acts = s.acts ++ [.served id body answer])
    (hloading : t.loading = s.loading) (hstopped : t.stopped = s.stopped)
    (hclosed : t.closed = s.closed)
    (habort : isAbort (.served id body answer) = true → t.wasm = false) : Life t := by
  have hstart := start_notMem_rest h hm
  have hnot := not_stopped h hm
  have hidle : s.loading = false := by
    rw [← Bool.not_eq_true]
    exact fun hl => absurd (h.fresh (.inr hl)) (by simp [hwasm])
  have hnone : ∀ a ∈ s.acts, ends a = false := fun a ha => by
    cases a with
    | stopped => exact absurd (h.stopped ha) (by simp [hnot])
    | served id' body' answer' =>
      cases answer' with
      | aborted message =>
        exact absurd (h.gone ⟨_, ha, rfl⟩).1 (by simp [hwasm])
      | value v => rfl
      | thrown message => rfl
  refine ⟨?_, ?_, ?_, fun ⟨a, ha, hisAbort⟩ => ?_, fun l l' hl => ?_, ?_, ?_, fun hs => ?_, ?_⟩
  · rw [hto]
    exact fun hmem => hstart (List.mem_of_mem_tail hmem)
  · rw [hto, hloading, hidle]
    simp [hstart]
  · rw [hto]
    exact fun hmem => absurd hmem hstart
  · rw [hacts] at ha
    rcases List.mem_append.mp ha with ha | ha
    · exact absurd (h.gone ⟨a, ha, hisAbort⟩).1 (by simp [hwasm])
    · rw [List.mem_singleton.mp ha] at hisAbort
      rw [hto, hloading]
      exact ⟨habort hisAbort, hidle, hstart⟩
  · rw [hto] at hl
    exact h.stopLast (.call id body :: l) l' (by rw [hm, hl]; rfl)
  · rw [hto, hstopped, hclosed]
    exact fun hstop => h.stopClosed (hstop.imp_left fun hmem => by
      rw [hm]
      exact List.mem_cons_of_mem _ hmem)
  · rw [hstopped, hnot]
    simp
  · rw [hacts] at hs
    rw [hstopped]
    exact h.stopped ((List.mem_append.mp hs).resolve_right (by simp))
  · rw [hacts, List.pairwise_append]
    refine ⟨h.halted, by simp, fun x hx y _ hends => ?_⟩
    rw [hnone x hx] at hends
    cases hends

lemma queue_served {body : Body} {answer : Answer V} (h : Queue s)
    (hm : s.toWorker = .call id body :: rest) (hto : t.toWorker = rest)
    (hacts : t.acts = s.acts ++ [.served id body answer]) (hposted : t.posted = s.posted) :
    Queue t where
  ordered := by
    have hordered := h.ordered
    rw [hm] at hordered
    rw [hacts, hto, List.filterMap_append, List.append_assoc]
    exact hordered
  queued id' body' hb := by
    rw [hposted]
    exact h.queued id' body' (by rw [hm, ← hto]; exact List.mem_cons_of_mem _ hb)
  served id' body' answer' ha := by
    rw [hposted]
    rw [hacts] at ha
    rcases List.mem_append.mp ha with ha | ha
    · exact h.served id' body' answer' ha
    · cases List.mem_singleton.mp ha
      exact h.queued id body (by rw [hm]; exact List.mem_cons_self)

lemma inv_post (h : Inv s) {m : FromWorker V} (hm : ∀ id v, m ≠ .reply id (.ok v)) :
    Inv (s.post m) := by
  refine ⟨books_worker h.books rfl rfl rfl (fun _ => id) fun id v hv => .inl ?_,
    h.queue.same ⟨rfl, rfl, rfl, rfl, rfl, id⟩ rfl, h.life.same ⟨rfl, rfl, rfl, rfl, rfl, id⟩⟩
  exact (List.mem_append.mp hv).resolve_right fun hv => hm id v (List.mem_singleton.mp hv).symm

lemma inv_served {body : Body} {answer : Answer V} (h : Inv s)
    (hm : s.toWorker = .call id body :: rest) (hwasm : s.wasm = true) (hto : t.toWorker = rest)
    (hacts : t.acts = s.acts ++ [.served id body answer]) (hposted : t.posted = s.posted)
    (hloading : t.loading = s.loading) (hstopped : t.stopped = s.stopped)
    (hclosed : t.closed = s.closed) (hsettled : t.settled = s.settled)
    (hpending : t.pending = s.pending)
    (habort : isAbort (.served id body answer) = true → t.wasm = false)
    (hreplies : ∀ id' v, .reply id' (.ok v) ∈ t.fromWorker →
      .reply id' (.ok v) ∈ s.fromWorker ∨ id' = id ∧ answer = .value v) : Inv t := by
  refine ⟨books_worker h.books hsettled hpending hposted (fun a ha => ?_) fun id' v hv => ?_,
    queue_served h.queue hm hto hacts hposted,
    life_served h.life hm hwasm hto hacts hloading hstopped hclosed habort⟩
  · rw [hacts]
    exact List.mem_append_left _ ha
  · refine (hreplies id' v hv).imp_right fun hown => ⟨body, ?_⟩
    rw [hacts, hown.1, ← hown.2]
    exact List.mem_append_right _ List.mem_cons_self

lemma inv_dispatch {q : FabPcb.NngFraming.Bytes} (h : Inv s)
    (hm : s.toWorker = .call id (.req q) :: rest) (answer : Answer V) :
    Inv (({ s with toWorker := rest } : System V).dispatch id q answer) := by
  rw [dispatch]
  split_ifs with hgone
  · exact inv_post (inv_read h hm) (by simp)
  · have hwasm : s.wasm = true := by
      simp only [Bool.or_eq_true, not_or, Bool.not_eq_true, Bool.not_eq_false'] at hgone
      exact hgone.1
    cases answer with
    | value v =>
      refine inv_served h hm hwasm rfl rfl rfl rfl rfl rfl rfl rfl (by simp [isAbort])
        fun id' v' hv => ?_
      rcases List.mem_append.mp hv with hv | hv
      · exact .inl hv
      · cases List.mem_singleton.mp hv
        exact .inr ⟨rfl, rfl⟩
    | thrown message =>
      refine inv_served h hm hwasm rfl rfl rfl rfl rfl rfl rfl rfl (by simp [isAbort])
        fun id' v' hv => .inl ?_
      exact (List.mem_append.mp hv).resolve_right (by simp)
    | aborted message =>
      refine inv_served h hm hwasm rfl rfl rfl rfl rfl rfl rfl rfl (fun _ => rfl)
        fun id' v' hv => .inl ?_
      have hv' := (List.mem_append.mp hv).resolve_right (by simp)
      exact (List.mem_append.mp hv').resolve_right (by simp)

lemma inv_fsOp {op : WasmFsRequest} (h : Inv s) (hm : s.toWorker = .call id (.fs op) :: rest)
    {answer : Answer V} (ht : ({ s with toWorker := rest } : System V).fsOp id op answer = some t) :
    Inv t := by
  rw [fsOp] at ht
  split_ifs at ht with hgone
  · obtain rfl := Option.some.inj ht
    exact inv_post (inv_read h hm) (by simp)
  · have hwasm : s.wasm = true := by simpa using hgone
    cases answer with
    | value v =>
      obtain rfl := Option.some.inj ht
      refine inv_served h hm hwasm rfl rfl rfl rfl rfl rfl rfl rfl (by simp [isAbort])
        fun id' v' hv => ?_
      rcases List.mem_append.mp hv with hv | hv
      · exact .inl hv
      · cases List.mem_singleton.mp hv
        exact .inr ⟨rfl, rfl⟩
    | thrown message =>
      obtain rfl := Option.some.inj ht
      refine inv_served h hm hwasm rfl rfl rfl rfl rfl rfl rfl rfl (by simp [isAbort])
        fun id' v' hv => .inl ?_
      exact (List.mem_append.mp hv).resolve_right (by simp)
    | aborted message => cases ht

/-- The worker is stopped. It has read the last message. -/
lemma inv_stopped (h : Inv s) (hm : s.toWorker = [.stop]) {m : FromWorker V}
    (hreply : ∀ id v, m ≠ .reply id (.ok v)) :
    Inv { s with
      toWorker := []
      stopped := true
      wasm := false
      acts := s.acts ++ [.stopped]
      fromWorker := s.fromWorker ++ [m] } := by
  have hclosed : s.closed = true := h.life.stopClosed (.inl (by rw [hm]; exact List.mem_cons_self))
  refine ⟨books_worker h.books rfl rfl rfl (fun a ha => List.mem_append_left _ ha)
    fun id v hv => .inl ?_, ⟨?_, by simp, fun id body answer ha => ?_⟩, ?_⟩
  · refine (List.mem_append.mp hv).resolve_right fun hv => ?_
    exact hreply id v (List.mem_singleton.mp hv).symm
  · have hordered := h.queue.ordered
    have hnone : [(.stopped : Act V)].filterMap servedId? = [] := rfl
    rw [List.filterMap_append, hnone, List.append_nil, List.filterMap_nil, List.append_nil]
    exact hordered.sublist (List.sublist_append_left _ _)
  · exact h.queue.served id body answer ((List.mem_append.mp ha).resolve_right (by simp))
  · refine
      { startFirst := by simp
        fresh := fun _ => rfl
        loading := by simp
        gone := fun habort => ⟨rfl, ?_, by simp⟩
        stopLast := by simp
        stopClosed := fun _ => hclosed
        stopEmpty := fun _ => rfl
        stopped := fun _ => rfl
        halted := ?_ }
    · obtain ⟨a, ha, hisAbort⟩ := habort
      rcases List.mem_append.mp ha with ha | ha
      · exact (h.life.gone ⟨a, ha, hisAbort⟩).2.1
      · rw [List.mem_singleton.mp ha] at hisAbort
        cases hisAbort
    · rw [List.pairwise_append]
      refine ⟨h.life.halted, by simp, fun x _ y hy _ => ?_⟩
      rw [List.mem_singleton.mp hy]
      rfl

lemma inv_stop (h : Inv s) (hm : s.toWorker = .stop :: rest) (answer : Answer V) :
    Inv (({ s with toWorker := rest } : System V).stop answer) := by
  obtain rfl : rest = [] := h.life.stopLast [] rest hm
  rw [stop, if_neg (by simp [not_stopped h.life hm])]
  exact inv_stopped h hm fun id v => by
    split <;> simp

lemma inv_start (h : Inv s) (hm : s.toWorker = .start :: rest) :
    Inv { ({ s with toWorker := rest } : System V).post (.state .starting none) with
      loading := true } := by
  have hstart : .start ∈ s.toWorker := by rw [hm]; exact List.mem_cons_self
  have hpost : Inv (({ s with toWorker := rest } : System V).post (.state .starting none)) :=
    inv_post (inv_read h hm) (by simp)
  have hnot := start_notMem_rest h.life hm
  exact ⟨⟨hpost.books.books, hpost.books.values, hpost.books.replies⟩,
    ⟨hpost.queue.ordered, hpost.queue.queued, hpost.queue.served⟩,
    { hpost.life with
      fresh := fun _ => h.life.fresh (.inl hstart)
      loading := fun hmem => absurd hmem hnot
      gone := fun habort => absurd hstart (h.life.gone habort).2.2 }⟩

lemma inv_loaded (h : Inv s) (hloading : s.loading = true) (failure : Option String) :
    Inv (s.loaded failure) := by
  have hstart : .start ∉ s.toWorker := fun hmem => by
    rw [h.life.loading hmem] at hloading
    cases hloading
  have hfresh (wasm : Bool) : Inv { s with loading := false, wasm := wasm } :=
    ⟨⟨h.books.books, h.books.values, h.books.replies⟩,
      ⟨h.queue.ordered, h.queue.queued, h.queue.served⟩,
      { h.life with
        fresh := fun hf => absurd hf (by simp [hstart])
        loading := fun _ => rfl
        gone := fun habort => by
          have hidle := (h.life.gone habort).2.1
          rw [hloading] at hidle
          cases hidle }⟩
  cases failure with
  | none => exact inv_post (hfresh true) (by simp)
  | some message => exact inv_post (hfresh s.wasm) (by simp)

lemma inv_handle {answer : Answer V} (h : Inv s) (hm : s.toWorker = m :: rest)
    (ht : ({ s with toWorker := rest } : System V).handle answer m = some t) : Inv t := by
  cases m with
  | start =>
    obtain rfl := Option.some.inj ht
    exact inv_start h hm
  | call id body =>
    cases body with
    | req q =>
      obtain rfl := Option.some.inj ht
      exact inv_dispatch h hm answer
    | fs op => exact inv_fsOp h hm ht
  | stop =>
    obtain rfl := Option.some.inj ht
    exact inv_stop h hm answer

lemma inv_step (h : Inv s) (ht : step s e = some t) : Inv t := by
  cases e with
  | call body throws =>
    obtain rfl := Option.some.inj ht
    exact inv_call h body throws
  | shutdown throws =>
    obtain rfl := Option.some.inj ht
    exact inv_shutdown h throws
  | timeout =>
    obtain ⟨-, ht⟩ := Option.ite_none_right_eq_some.mp ht
    obtain rfl := Option.some.inj ht
    exact h.keep ⟨rfl, rfl, rfl, rfl, rfl, id⟩ rfl rfl rfl rfl
  | resume =>
    obtain ⟨-, ht⟩ := Option.ite_none_right_eq_some.mp ht
    obtain rfl := Option.some.inj ht
    exact inv_finishShutdown h
  | terminate reason =>
    obtain rfl := Option.some.inj ht
    exact inv_terminate h reason
  | deliver =>
    rw [step] at ht
    cases hm : s.fromWorker with
    | nil => rw [hm] at ht; cases ht
    | cons m rest =>
      rw [hm] at ht
      obtain rfl := Option.some.inj ht
      exact inv_deliver h hm
  | workerError message =>
    obtain rfl := Option.some.inj ht
    exact inv_fail h message
  | handle answer =>
    obtain ⟨-, ht⟩ := Option.ite_none_left_eq_some.mp ht
    cases hm : s.toWorker with
    | nil => rw [hm] at ht; cases ht
    | cons m rest =>
      rw [hm] at ht
      exact inv_handle h hm ht
  | loaded failure =>
    obtain ⟨hloading, ht⟩ := Option.ite_none_right_eq_some.mp ht
    obtain rfl := Option.some.inj ht
    rw [Bool.and_eq_true] at hloading
    exact inv_loaded h hloading.1 failure
  | notice =>
    obtain ⟨-, ht⟩ := Option.ite_none_left_eq_some.mp ht
    obtain rfl := Option.some.inj ht
    exact inv_post h (by simp)

/-- The client as it is made: the worker is told to start. -/
def fresh : System V := {}

lemma inv_fresh : Inv (fresh : System V) where
  books :=
    { books := by simp [fresh]
      values := by simp [fresh]
      replies := by simp [fresh] }
  queue :=
    { ordered := List.Pairwise.nil
      queued := by simp [fresh]
      served := by simp [fresh] }
  life :=
    { startFirst := by simp [fresh]
      fresh := fun _ => rfl
      loading := fun _ => rfl
      gone := by simp [fresh]
      stopLast := fun l l' hl => by
        cases l with
        | nil => cases hl
        | cons x l => simp [fresh] at hl
      stopClosed := by simp [fresh]
      stopEmpty := by simp [fresh]
      stopped := by simp [fresh]
      halted := by simp [fresh] }

lemma sound_of_inv (h : Inv s) : Sound s where
  once := by
    have hnodup := h.books.books.nodup_iff.mpr List.nodup_range'
    exact (List.nodup_append.mp hnodup).1
  own id v hv := by
    obtain ⟨body, hserved⟩ := h.books.values id v hv
    exact ⟨body, (h.queue.served id body _ hserved).2, hserved⟩
  ordered := h.queue.ordered.sublist (List.sublist_append_left _ _)
  requests id body a ha := (h.queue.served id body a ha).2
  halted := h.life.halted

/-! ### The end -/

/-- Once the end is seen the client takes no calls, and none is pending. -/
structure Ending (s : System V) : Prop where
  isOver : ∀ k, s.ended = some k → s.isShutDown = true ∧ s.pending = [] ∧ s.taken = k
  stopping : s.stopping.isSome = true → s.closed = true

lemma ending_finish (h : Ending s) (hshut : t.isShutDown = true) (hpending : t.pending = [])
    (htaken : t.taken = s.taken) (hended : t.ended = s.ended)
    (hstopping : t.stopping.isSome = true → t.closed = true) : Ending t.finish where
  isOver k hk := by
    refine ⟨hshut, hpending, ?_⟩
    change t.taken = k
    change t.ended.or (some t.taken) = some k at hk
    cases hs : s.ended with
    | none =>
      rw [hended, hs] at hk
      exact Option.some.inj hk
    | some k' =>
      rw [hended, hs] at hk
      rw [htaken, (h.isOver k' hs).2.2, Option.some.inj hk]
  stopping := hstopping

lemma Ending.same (h : Ending s) (hended : t.ended = s.ended)
    (hshut : s.isShutDown = true → t.isShutDown = true) (hpending : s.pending = [] → t.pending = [])
    (htaken : t.taken = s.taken) (hstopping : t.stopping.isSome = true → t.closed = true) :
    Ending t where
  isOver k hk := by
    obtain ⟨hs, hp, hk'⟩ := h.isOver k (hended ▸ hk)
    exact ⟨hshut hs, hpending hp, htaken.trans hk'⟩
  stopping := hstopping

lemma ending_of_none (hended : t.ended = none)
    (hstopping : t.stopping.isSome = true → t.closed = true) : Ending t where
  isOver k hk := by
    rw [hended] at hk
    cases hk
  stopping := hstopping

lemma ended_eq_none (h : Ending s) (hshut : s.isShutDown = false) : s.ended = none := by
  cases hs : s.ended with
  | none => rfl
  | some k =>
    rw [(h.isOver k hs).1] at hshut
    cases hshut

lemma ending_call (h : Ending s) {body : Body} {throws : Option String}
    (hminded : body = .fs (.writeFiles []) → s.ended = none) : Ending (s.call body throws) := by
  rw [call]
  by_cases hbody : body = .fs (.writeFiles [])
  · rw [if_pos hbody]
    exact ending_of_none (hminded hbody) h.stopping
  · rw [if_neg hbody, send]
    by_cases hshut : s.isShutDown = true
    · rw [if_pos hshut]
      exact h.same rfl id id rfl h.stopping
    · rw [if_neg hshut]
      have hnone := ended_eq_none h (Bool.not_eq_true _ ▸ hshut)
      cases throws with
      | none => exact ending_of_none hnone h.stopping
      | some message => exact ending_of_none hnone h.stopping

lemma isShutDown_of_closed (h : s.closed = true) : s.isShutDown = true := by
  rw [isShutDown, h, Bool.true_or]

lemma isShutDown_of_isOver (h : s.state.isOver = true) : s.isShutDown = true := by
  rw [isShutDown, h, Bool.or_true]

lemma ending_finishShutdown (h : Ending s) (hclosed : t.closed = true)
    (htaken : t.taken = s.taken) (hended : t.ended = s.ended) : Ending t.finishShutdown :=
  ending_finish h (isShutDown_of_closed hclosed) rfl htaken hended fun _ => hclosed

lemma ending_shutdown (h : Ending s) {throws : Bool}
    (hminded : s.closed = true → s.pending = []) : Ending (s.shutdown throws) := by
  rw [shutdown]
  by_cases hclosed : s.closed = true
  · rw [if_pos hclosed]
    exact ending_finish h (isShutDown_of_closed hclosed) (hminded hclosed) rfl rfl h.stopping
  · rw [if_neg hclosed]
    cases throws with
    | true => exact ending_finishShutdown h rfl rfl rfl
    | false => exact h.same rfl (fun _ => rfl) id rfl fun _ => rfl

lemma ending_terminate (h : Ending s) {reason : String}
    (hminded : s.closed = true → s.pending = []) : Ending (s.terminate reason) := by
  rw [terminate]
  by_cases hclosed : s.closed = true
  · rw [if_pos hclosed]
    exact ending_finish h (isShutDown_of_closed hclosed) (hminded hclosed) rfl rfl h.stopping
  · rw [if_neg hclosed]
    exact ending_finish h rfl rfl rfl rfl fun _ => rfl

lemma notifyState_eq (s : System V) (state : WorkerState) : ∃ stopping,
    s.notifyState state = { s with stopping := stopping } ∧
      (stopping.isSome = true → s.stopping.isSome = true) := by
  rw [notifyState]
  split_ifs with h
  · rw [Bool.and_eq_true, beq_iff_eq] at h
    exact ⟨_, rfl, fun _ => by rw [h.2]; rfl⟩
  · exact ⟨s.stopping, rfl, id⟩

lemma ending_onState (h : Ending s) {state : WorkerState} {message : Option String}
    (hminded : state.isOver = false → s.closed = true ∨ s.state.isOver = false) :
    Ending (s.onState state message) := by
  obtain ⟨stopping, heq, hstopping⟩ := notifyState_eq { s with state := state } state
  have hclosed : stopping.isSome = true → s.closed = true := fun hs => h.stopping (hstopping hs)
  rw [onState, heq]
  cases hover : state.isOver with
  | true => exact ending_finish h (isShutDown_of_isOver hover) rfl rfl rfl hclosed
  | false =>
    rcases hminded hover with hs | hs
    · exact h.same rfl (fun _ => isShutDown_of_closed hs) id rfl hclosed
    · by_cases hc : s.closed = true
      · exact h.same rfl (fun _ => isShutDown_of_closed hc) id rfl hclosed
      · have hshut : s.isShutDown = false := by rw [isShutDown, hs]; simpa using hc
        have hnone := ended_eq_none h hshut
        exact ending_of_none hnone hclosed

lemma ending_onReply (h : Ending s) (id : ℕ) (result : Except Failure V) :
    Ending (s.onReply id result) := by
  rw [onReply]
  split_ifs with hid
  · refine h.same rfl (fun hs => hs) (fun hp => ?_) rfl h.stopping
    rw [hp] at hid
    cases hid
  · exact h

lemma ending_fail (h : Ending s) (message : String) : Ending (s.fail message) := by
  obtain ⟨stopping, heq, hstopping⟩ := notifyState_eq { s with state := .failed } .failed
  rw [fail, heq]
  exact ending_finish h (isShutDown_of_isOver rfl) rfl rfl rfl fun hs => h.stopping (hstopping hs)

/-- The client is as it was. -/
structure SameClient (s t : System V) : Prop where
  state : t.state = s.state
  closed : t.closed = s.closed
  pending : t.pending = s.pending
  stopping : t.stopping = s.stopping
  posted : t.posted = s.posted
  empties : t.empties = s.empties
  ended : t.ended = s.ended

lemma Ending.sameClient (h : Ending s) (hs : SameClient s t) : Ending t := by
  refine h.same hs.ended (fun hshut => ?_) (fun hp => hs.pending.trans hp) ?_ ?_
  · rw [isShutDown, hs.closed, hs.state]
    exact hshut
  · rw [taken, hs.posted, hs.empties]
    rfl
  · rw [hs.stopping, hs.closed]
    exact h.stopping

lemma sameClient_dispatch (s : System V) (id : ℕ) (q : FabPcb.NngFraming.Bytes)
    (answer : Answer V) : SameClient s (s.dispatch id q answer) := by
  rw [dispatch]
  split_ifs
  · exact ⟨rfl, rfl, rfl, rfl, rfl, rfl, rfl⟩
  · cases answer <;> exact ⟨rfl, rfl, rfl, rfl, rfl, rfl, rfl⟩

lemma sameClient_fsOp {op : WasmFsRequest} {answer : Answer V}
    (ht : s.fsOp id op answer = some t) : SameClient s t := by
  rw [fsOp] at ht
  split_ifs at ht
  · obtain rfl := Option.some.inj ht
    exact ⟨rfl, rfl, rfl, rfl, rfl, rfl, rfl⟩
  · cases answer with
    | value v =>
      obtain rfl := Option.some.inj ht
      exact ⟨rfl, rfl, rfl, rfl, rfl, rfl, rfl⟩
    | thrown message =>
      obtain rfl := Option.some.inj ht
      exact ⟨rfl, rfl, rfl, rfl, rfl, rfl, rfl⟩
    | aborted message => cases ht

lemma sameClient_stop (s : System V) (answer : Answer V) : SameClient s (s.stop answer) := by
  rw [stop]
  split_ifs <;> exact ⟨rfl, rfl, rfl, rfl, rfl, rfl, rfl⟩

lemma sameClient_handle {answer : Answer V} (ht : s.handle answer m = some t) :
    SameClient s t := by
  cases m with
  | start =>
    obtain rfl := Option.some.inj ht
    exact ⟨rfl, rfl, rfl, rfl, rfl, rfl, rfl⟩
  | call id body =>
    cases body with
    | req q =>
      obtain rfl := Option.some.inj ht
      exact sameClient_dispatch s id q answer
    | fs op => exact sameClient_fsOp ht
  | stop =>
    obtain rfl := Option.some.inj ht
    exact sameClient_stop s answer

lemma sameClient_loaded (s : System V) (failure : Option String) :
    SameClient s (s.loaded failure) := by
  cases failure <;> exact ⟨rfl, rfl, rfl, rfl, rfl, rfl, rfl⟩

lemma ending_deliver {m : FromWorker V} {rest : List (FromWorker V)} (h : Ending s)
    (hminded : revives m = true → s.closed = true ∨ s.state.isOver = false) :
    Ending (onMessage { s with fromWorker := rest } m) := by
  have hread : Ending { s with fromWorker := rest } := h.same rfl id id rfl h.stopping
  cases m with
  | state state message =>
    refine ending_onState hread fun hover => hminded ?_
    rw [revives, hover]
    rfl
  | reply id result => exact ending_onReply hread id result
  | notice => exact hread

lemma ending_step (h : Ending s) (he : Minded s e) (ht : step s e = some t) : Ending t := by
  cases e with
  | call body throws =>
    obtain rfl := Option.some.inj ht
    exact ending_call h he
  | shutdown throws =>
    obtain rfl := Option.some.inj ht
    exact ending_shutdown h he
  | timeout =>
    obtain ⟨hwaiting, ht⟩ := Option.ite_none_right_eq_some.mp ht
    obtain rfl := Option.some.inj ht
    exact h.same rfl id id rfl fun _ => h.stopping (by rw [hwaiting]; rfl)
  | resume =>
    obtain ⟨hresolved, ht⟩ := Option.ite_none_right_eq_some.mp ht
    obtain rfl := Option.some.inj ht
    exact ending_finishShutdown h (h.stopping (by rw [hresolved]; rfl)) rfl rfl
  | terminate reason =>
    obtain rfl := Option.some.inj ht
    exact ending_terminate h he
  | deliver =>
    rw [step] at ht
    cases hm : s.fromWorker with
    | nil => rw [hm] at ht; cases ht
    | cons m rest =>
      rw [hm] at ht
      obtain rfl := Option.some.inj ht
      refine ending_deliver h fun hrevives => he ?_
      rw [hm]
      exact hrevives
  | workerError message =>
    obtain rfl := Option.some.inj ht
    exact ending_fail h message
  | handle answer =>
    obtain ⟨-, ht⟩ := Option.ite_none_left_eq_some.mp ht
    cases hm : s.toWorker with
    | nil => rw [hm] at ht; cases ht
    | cons m rest =>
      rw [hm] at ht
      have hread : Ending { s with toWorker := rest } := h.same rfl id id rfl h.stopping
      exact hread.sameClient (sameClient_handle ht)
  | loaded failure =>
    obtain ⟨-, ht⟩ := Option.ite_none_right_eq_some.mp ht
    obtain rfl := Option.some.inj ht
    exact h.sameClient (sameClient_loaded s failure)
  | notice =>
    obtain ⟨-, ht⟩ := Option.ite_none_left_eq_some.mp ht
    obtain rfl := Option.some.inj ht
    exact h.sameClient ⟨rfl, rfl, rfl, rfl, rfl, rfl, rfl⟩

lemma ending_fresh : Ending (fresh : System V) where
  isOver k hk := by cases hk
  stopping h := by cases h

lemma over_of_ending (h : Ending s) (hinv : Inv s) : Over s := by
  intro k hk
  obtain ⟨-, hpending, htaken⟩ := h.isOver k hk
  refine ⟨hpending, htaken, fun id hid hle => ?_⟩
  refine (mem_range'_of_books hinv.books hid hle).resolve_right fun hmem => ?_
  rw [hpending] at hmem
  cases hmem

/-- **Calls across the worker.** In any run a call is settled once, and with a value only if the
module gave it for its request; requests are served in their order, and none once the module has
aborted or was stopped. If moreover no shutdown or termination comes while another shutdown leaves
calls pending, the client is not told that the worker runs once it has seen it stop, and no empty
write comes behind the end, then no call is left pending at the end and none is taken later. -/
theorem calls_settle {events : List (Event V)} (hminded : Along step Minded fresh events)
    (hrun : run step fresh events = some s) : Sound s ∧ Over s := by
  have hinv : Inv s := invariant_run Inv (fun _ _ _ h ht => inv_step h ht) inv_fresh hrun
  have hending : Ending s :=
    invariant_along Ending (fun _ _ _ h he ht => ending_step h he ht) ending_fresh hminded hrun
  exact ⟨sound_of_inv hinv, over_of_ending hending hinv⟩

/-! ### Runs -/

/-- The system behind a run, over a module that answers with numbers. -/
def systemAfter (events : List (Event ℕ)) : System ℕ := (run step fresh events).getD fresh

lemma run_systemAfter {events : List (Event ℕ)} (h : (run step fresh events).isSome = true) :
    run step fresh events = some (systemAfter events) := by
  obtain ⟨s, hs⟩ := Option.isSome_iff_exists.mp h
  rw [systemAfter, hs, Option.getD_some]

/-- The worker has been started and the client told that it runs. -/
def started : List (Event ℕ) := [.handle (.value 0), .loaded none, .deliver, .deliver]

/-- A request and a write are answered, and a shutdown comes while a read is on its way. -/
def shutDown : List (Event ℕ) :=
  started ++ [.call (.req [1]) none, .call (.fs (.writeFiles [("/a", [2])])) none,
    .handle (.value 7), .handle (.value 8), .deliver, .deliver, .call (.fs (.readFile "/a")) none,
    .shutdown false, .handle (.value 9), .handle (.value 0), .deliver, .deliver, .resume,
    .call (.req [3]) none]

theorem calls_settle_shutDown : Sound (systemAfter shutDown) ∧ Over (systemAfter shutDown) :=
  calls_settle (by decide +kernel) (run_systemAfter (by decide +kernel))

/-- A request is on its way as `shutdown()` is called, and `terminate()` behind it. -/
def terminatedTwice : List (Event ℕ) :=
  started ++ [.call (.req [1]) none, .shutdown false, .terminate "stop"]

/-- **A hard stop leaves a call pending.** `terminate()` returns at once behind a shutdown that
still waits for the worker, and the request goes unanswered. -/
theorem terminated_pending :
    run step fresh terminatedTwice = some (systemAfter terminatedTwice) ∧
      (systemAfter terminatedTwice).pending = [1] ∧ ¬Over (systemAfter terminatedTwice) := by
  refine ⟨run_systemAfter (by decide +kernel), by decide +kernel, fun h => ?_⟩
  have hended : (systemAfter terminatedTwice).ended = some 1 := by decide +kernel
  have hpending : (systemAfter terminatedTwice).pending ≠ [] := by decide +kernel
  exact hpending (h 1 hended).1

/-- The message that the worker runs, sent before its error event, lets calls through again. -/
example :
    let events : List (Event ℕ) := [.handle (.value 0), .loaded none, .workerError "uncaught",
      .deliver, .deliver, .call (.req [1]) none]
    (systemAfter events).ended = some 0 ∧ (systemAfter events).pending = [1] := by decide +kernel

end FabPcb.WasmCalls
