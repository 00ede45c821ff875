import FabPcb.NngTransport
import FabPcb.Runs

/-!
`StdioTransport`: requests to a child process over pipes.

Nothing on the wire says which request an answer is for: the host answers in the order of the
requests, and an answer is known by its position. Calls are numbered as `send()` is called. An
answer counts as given once the transport has read it.
-/

namespace FabPcb.StdioTransport

open NngFraming Runs
open NngTransport (TransportError TransportState showMs)

structure Options where
  command : String
  defaultTimeoutMs : Option ℕ := some 30000

structure Pending where
  number : ℕ
  payload : Bytes
  timeoutMs : Option ℕ
  timer : Bool

/-- What callers and the host see. -/
inductive Event where
  /-- A request is written to the host. -/
  | sent (n : ℕ) (payload : Bytes)
  | answered (n : ℕ) (reply : Bytes)
  | resolved (n : ℕ) (reply : Bytes)
  | timedOut (n : ℕ) (err : TransportError)
  | rejected (n : ℕ) (err : TransportError)

structure Transport where
  state : TransportState
  queue : List Pending
  inFlight : Option Pending
  orphanReplies : ℕ
  closedByUser : Bool
  lastError : Option TransportError
  /-- The frames of stdout are still read. -/
  reading : Bool
  exited : Bool
  calls : ℕ
  /-- What the host was sent and has not answered, the oldest first. -/
  unanswered : List ℕ
  log : List Event

/-- The host is spawned as the transport is made, or `failure` is thrown. -/
def new (opts : Options) (failure : Option String) : Transport :=
  let t : Transport := ⟨.connecting, [], none, 0, false, none, false, false, 0, [], []⟩
  match failure with
  | none => { t with state := .opened, reading := true }
  | some m =>
    let err := ⟨.connect, "spawning " ++ opts.command ++ " failed: " ++ m⟩
    { t with state := .closed, lastError := some err, exited := true }

def Transport.record (t : Transport) (es : List Event) : Transport := { t with log := t.log ++ es }

/-- The request in flight is rejected, then all that wait. -/
def failAll (t : Transport) (err : TransportError) : Transport :=
  { t with inFlight := none, queue := [] }.record
    ((t.inFlight.toList ++ t.queue).map fun (p : Pending) => .rejected p.number err)

/-- The head of the queue goes to the host; `failure` is what the write throws. -/
def pump (opts : Options) (t : Transport) (failure : Option String) : Transport :=
  if t.state ≠ .opened ∨ t.inFlight.isSome then t
  else
    match t.queue with
    | [] => t
    | p :: rest =>
      let p := { p with timer := p.timeoutMs.any (0 < ·) }
      match failure with
      | none =>
        { t with queue := rest, inFlight := some p,
                 unanswered := t.unanswered ++ [p.number] }.record [.sent p.number p.payload]
      | some m =>
        let err := ⟨.closed, "writing to " ++ opts.command ++ " failed: " ++ m⟩
        let t := { t with queue := rest, lastError := some err }.record [.rejected p.number err]
        { failAll t err with state := .closed }

def send (opts : Options) (t : Transport) (payload : Bytes) (timeoutMs : Option (Option ℕ))
    (failure : Option String) : Transport :=
  if t.state = .closed then
    let err := t.lastError.getD ⟨.closed, opts.command ++ " is closed"⟩
    { t with calls := t.calls + 1 }.record [.rejected t.calls err]
  else
    let p := ⟨t.calls, payload, timeoutMs.getD opts.defaultTimeoutMs, false⟩
    pump opts { t with calls := t.calls + 1, queue := t.queue ++ [p] } failure

/-- The first part of `close`; the transport is closed at once if there is no process to end. -/
def close (opts : Options) (t : Transport) : Transport :=
  if t.closedByUser then t
  else
    let t := failAll { t with closedByUser := true } ⟨.closed, opts.command ++ " closed"⟩
    if t.exited then { t with state := .closed } else t

/-- An answer is read. Those that timed-out requests left behind come first. -/
def onReply (opts : Options) (t : Transport) (frame : Bytes) (failure : Option String) :
    Transport :=
  if 0 < t.orphanReplies then { t with orphanReplies := t.orphanReplies - 1 }
  else
    match t.inFlight with
    | none => t
    | some p =>
      pump opts ({ t with inFlight := none }.record [.resolved p.number frame]) failure

def timeoutError (opts : Options) (p : Pending) : TransportError :=
  ⟨.timeout, "request to " ++ opts.command ++ " timed out after " ++ showMs p.timeoutMs ++ " ms"⟩

def onRequestTimeout (opts : Options) (t : Transport) (p : Pending) (failure : Option String) :
    Transport :=
  pump opts ({ t with inFlight := none, orphanReplies := t.orphanReplies + 1 }.record
    [.timedOut p.number (timeoutError opts p)]) failure

/-- The parser refuses what it reads; nothing is read any more. -/
def onProtocolError (opts : Options) (t : Transport) (err : TransportError) : Transport :=
  close opts (failAll { t with lastError := some err, reading := false } err)

/-- The process ends, and `close` goes on if it awaits that; `tail` is the end of what it wrote to stderr. -/
def onExit (opts : Options) (t : Transport) (code : Option ℤ) (tail : String) : Transport :=
  let t := { t with exited := true }
  if t.closedByUser then { t with state := .closed }
  else
    let shown := match code with | none => "null" | some c => toString c
    let err := ⟨.closed, opts.command ++ " exited with code " ++ shown ++
      if tail = "" then "" else ": " ++ tail⟩
    { failAll { t with lastError := some err } err with state := .closed }

/-! ### Steps -/

inductive Action where
  | send (payload : Bytes) (timeoutMs : Option (Option ℕ)) (failure : Option String)
  /-- The host answers the oldest request that it has not answered. -/
  | reply (frame : Bytes) (failure : Option String)
  /-- The timer of the request in flight. -/
  | timeout (failure : Option String)
  | protocolError (err : TransportError)
  | exit (code : Option ℤ) (tail : String)
  | close

def step (opts : Options) (t : Transport) : Action → Option Transport
  | .send payload timeoutMs failure => some (send opts t payload timeoutMs failure)
  | .reply frame failure =>
    match t.unanswered with
    | [] => none
    | n :: rest =>
      if t.reading then
        some (onReply opts ({ t with unanswered := rest }.record [.answered n frame]) frame failure)
      else none
  | .timeout failure =>
    match t.inFlight with
    | none => none
    | some p => if p.timer then some (onRequestTimeout opts t p failure) else none
  | .protocolError err => if t.reading then some (onProtocolError opts t err) else none
  | .exit code tail => if t.exited then none else some (onExit opts t code tail)
  | .close => some (close opts t)

/-! ### The log -/

def sentNumbers (log : List Event) : List ℕ :=
  log.filterMap fun
    | .sent n _ => some n
    | _ => none

def answeredNumbers (log : List Event) : List ℕ :=
  log.filterMap fun
    | .answered n _ => some n
    | _ => none

def timedOutNumbers (log : List Event) : List ℕ :=
  log.filterMap fun
    | .timedOut n _ => some n
    | _ => none

/-- The timed-out requests that the host has not answered. -/
def timedOutUnanswered (log : List Event) : List ℕ :=
  (timedOutNumbers log).filter (· ∉ answeredNumbers log)

/-- **What callers may rely on**: a call that resolves does with the answer to its own request,
each request is answered once and in order, answers to timed-out requests go to no one, and
`orphanReplies` counts the timed-out requests without an answer. -/
structure Law (t : Transport) : Prop where
  own_answer : ∀ n r, .resolved n r ∈ t.log → .answered n r ∈ t.log
  answered_in_order : answeredNumbers t.log <+: sentNumbers t.log
  answered_once : (sentNumbers t.log).Nodup
  discarded : ∀ n ∈ timedOutNumbers t.log, ∀ r, .resolved n r ∉ t.log
  orphans : t.orphanReplies = (timedOutUnanswered t.log).length

section Log

variable {log : List Event} {n : ℕ}

@[simp] lemma sentNumbers_append (log log' : List Event) :
    sentNumbers (log ++ log') = sentNumbers log ++ sentNumbers log' :=
  List.filterMap_append ..

@[simp] lemma answeredNumbers_append (log log' : List Event) :
    answeredNumbers (log ++ log') = answeredNumbers log ++ answeredNumbers log' :=
  List.filterMap_append ..

@[simp] lemma timedOutNumbers_append (log log' : List Event) :
    timedOutNumbers (log ++ log') = timedOutNumbers log ++ timedOutNumbers log' :=
  List.filterMap_append ..

lemma mem_answeredNumbers {r : Bytes} (h : .answered n r ∈ log) : n ∈ answeredNumbers log :=
  List.mem_filterMap.mpr ⟨_, h, rfl⟩

/-- Events that are neither of the host nor of a timer. -/
def Quiet (es : List Event) : Prop :=
  sentNumbers es = [] ∧ answeredNumbers es = [] ∧ timedOutNumbers es = []

lemma quiet_rejected (ps : List Pending) (err : TransportError) :
    Quiet (ps.map fun p => .rejected p.number err) := by
  induction ps with
  | nil => exact ⟨rfl, rfl, rfl⟩
  | cons p ps ih => exact ih

lemma timedOutUnanswered_quiet {es : List Event} (h : Quiet es) :
    timedOutUnanswered (log ++ es) = timedOutUnanswered log := by
  rw [timedOutUnanswered, timedOutNumbers_append, answeredNumbers_append, h.2.1, h.2.2,
    List.append_nil, List.append_nil]
  rfl

end Log

/-! ### Where requests stand -/

/-- No more requests go out. -/
def Transport.shut (t : Transport) : Prop := t.closedByUser = true ∨ t.state = .closed

/-- As long as answers are read, what the host has to answer is what timed out, in order, then
the request in flight; a request that was given up as the transport closed may stand there. -/
structure Inv (t : Transport) : Prop where
  answered : answeredNumbers t.log ++ t.unanswered = sentNumbers t.log
  order : (sentNumbers t.log ++ t.queue.map (·.number)).Pairwise (· < ·)
  numbered : ∀ n ∈ sentNumbers t.log ++ t.queue.map (·.number), n < t.calls
  timed_sent : timedOutNumbers t.log ⊆ sentNumbers t.log
  timed_once : (timedOutNumbers t.log).Nodup
  orphans : t.orphanReplies = (timedOutUnanswered t.log).length
  flight : ∀ p, t.inFlight = some p → p.number ∈ t.unanswered ∧ p.number ∉ timedOutNumbers t.log
  resolved : ∀ n r, .resolved n r ∈ t.log → .answered n r ∈ t.log ∧ n ∉ timedOutNumbers t.log
  line : t.reading = true → ∃ lost, t.unanswered = timedOutUnanswered t.log ++ lost ∧
    (∀ p, t.inFlight = some p → lost = [p.number]) ∧
    (t.inFlight = none → lost = [] ∨ t.shut)
  idle : t.reading = true → t.shut → t.inFlight = none ∧ t.queue = []

variable {opts : Options} {t t' : Transport}

lemma Inv.sent_nodup (h : Inv t) : (sentNumbers t.log).Nodup :=
  (List.pairwise_append.mp h.order).1.imp Nat.ne_of_lt

lemma Inv.law (h : Inv t) : Law t where
  own_answer := fun n r hr => (h.resolved n r hr).1
  answered_in_order := ⟨_, h.answered⟩
  answered_once := h.sent_nodup
  discarded := fun n hn r hr => (h.resolved n r hr).2 hn
  orphans := h.orphans

/-- Calls that wait are rejected, and the one in flight is given up where no more go out. -/
lemma inv_give_up {l : List Event} (h : Inv t) (hes : Quiet l)
    (hresolved : ∀ n r, .resolved n r ∉ l) (hlog : t'.log = t.log ++ l)
    (hunanswered : t'.unanswered = t.unanswered) (horphans : t'.orphanReplies = t.orphanReplies)
    (hcalls : t.calls ≤ t'.calls) (hreading : t'.reading = true → t.reading = true)
    (hflight : t'.inFlight = t.inFlight ∨ t'.inFlight = none ∧ (t'.reading = true → t'.shut))
    (hqueue : List.Sublist (t'.queue.map (·.number)) (t.queue.map (·.number)))
    (hshut : t'.reading = true → (t.shut → t'.shut) ∧
      (t'.shut → t'.inFlight = none ∧ t'.queue = [])) : Inv t' := by
  have hsent : sentNumbers t'.log = sentNumbers t.log := by
    rw [hlog, sentNumbers_append, hes.1, List.append_nil]
  have hanswered : answeredNumbers t'.log = answeredNumbers t.log := by
    rw [hlog, answeredNumbers_append, hes.2.1, List.append_nil]
  have htimed : timedOutNumbers t'.log = timedOutNumbers t.log := by
    rw [hlog, timedOutNumbers_append, hes.2.2, List.append_nil]
  have hwaiting : timedOutUnanswered t'.log = timedOutUnanswered t.log := by
    rw [hlog, timedOutUnanswered_quiet hes]
  have hsub : List.Sublist (sentNumbers t'.log ++ t'.queue.map (·.number))
      (sentNumbers t.log ++ t.queue.map (·.number)) := by
    rw [hsent]
    exact List.Sublist.append_left hqueue _
  constructor
  case answered => rw [hanswered, hunanswered, hsent, h.answered]
  case order => exact h.order.sublist hsub
  case numbered => exact fun n hn => Nat.lt_of_lt_of_le (h.numbered n (hsub.subset hn)) hcalls
  case timed_sent => rw [htimed, hsent]; exact h.timed_sent
  case timed_once => rw [htimed]; exact h.timed_once
  case orphans => rw [horphans, hwaiting, h.orphans]
  case flight =>
    intro p hp
    rw [hunanswered, htimed]
    rcases hflight with hsame | ⟨hnone, _⟩
    · exact h.flight p (hsame ▸ hp)
    · rw [hnone] at hp
      cases hp
  case resolved =>
    intro n r hr
    rw [hlog] at hr
    obtain ⟨ha, ht⟩ := h.resolved n r ((List.mem_append.mp hr).resolve_right (hresolved n r))
    rw [htimed, hlog]
    exact ⟨List.mem_append_left _ ha, ht⟩
  case line =>
    intro hr
    obtain ⟨lost, hline, hsome, hnone⟩ := h.line (hreading hr)
    refine ⟨lost, by rw [hunanswered, hwaiting, hline], fun p hp => ?_, fun hn => ?_⟩
    · rcases hflight with hsame | ⟨hn, _⟩
      · exact hsome p (hsame ▸ hp)
      · rw [hn] at hp
        cases hp
    · rcases hflight with hsame | ⟨_, hs⟩
      · exact (hnone (hsame ▸ hn)).imp_right (hshut hr).1
      · exact Or.inr (hs hr)
  case idle => exact fun hr hs => (hshut hr).2 hs

lemma inv_new (failure : Option String) : Inv (new opts failure) := by
  cases failure with
  | none =>
    refine ⟨rfl, List.Pairwise.nil, fun n hn => ?_, fun n hn => hn, List.nodup_nil, rfl,
      fun p hp => ?_, fun n r hr => ?_, fun _ => ⟨[], rfl, fun p hp => ?_, fun _ => Or.inl rfl⟩,
      fun _ _ => ⟨rfl, rfl⟩⟩
    · cases hn
    · cases hp
    · cases hr
    · cases hp
  | some m =>
    refine ⟨rfl, List.Pairwise.nil, fun n hn => ?_, fun n hn => hn, List.nodup_nil, rfl,
      fun p hp => ?_, fun n r hr => ?_, fun hr => ?_, fun _ _ => ⟨rfl, rfl⟩⟩
    · cases hn
    · cases hp
    · cases hr
    · cases hr

/-- A request goes out only while the transport is open, and then nothing is owed to a request
that was given up. -/
lemma inv_dispatched {p q : Pending} {rest : List Pending} (h : Inv t)
    (hfree : t.inFlight = none) (hqueue : t.queue = p :: rest) (hq : q.number = p.number) :
    Inv ({ t with queue := rest, inFlight := some q,
                  unanswered := t.unanswered ++ [q.number] }.record [.sent q.number q.payload]) := by
  have hnew : p.number ∉ sentNumbers t.log := by
    intro hmem
    have hlt := (List.pairwise_append.mp h.order).2.2 p.number hmem p.number
      (by rw [hqueue]; exact List.mem_cons_self)
    exact Nat.lt_irrefl _ hlt
  have hmoved : sentNumbers t.log ++ [q.number] ++ rest.map (·.number) =
      sentNumbers t.log ++ t.queue.map (·.number) := by
    rw [hqueue, hq, List.append_assoc]
    rfl
  have hopen : t.reading = true → ¬ t.shut := by
    intro hr hs
    have hnil := (h.idle hr hs).2
    rw [hqueue] at hnil
    cases hnil
  have hsame : timedOutUnanswered (t.log ++ [.sent q.number q.payload]) =
      timedOutUnanswered t.log := by
    simp [timedOutUnanswered, timedOutNumbers, answeredNumbers]
  constructor
  case answered =>
    simp only [Transport.record, answeredNumbers_append, sentNumbers_append]
    rw [← h.answered]
    simp [answeredNumbers, sentNumbers]
  case order =>
    have hord := h.order
    rw [← hmoved] at hord
    exact (sentNumbers_append ..).symm ▸ hord
  case numbered =>
    have hnum := h.numbered
    rw [← hmoved] at hnum
    exact (sentNumbers_append ..).symm ▸ hnum
  case timed_sent =>
    intro n hn
    simp only [Transport.record, timedOutNumbers_append, sentNumbers_append] at hn ⊢
    exact List.mem_append_left _ (h.timed_sent (by simpa [timedOutNumbers] using hn))
  case timed_once =>
    simp only [Transport.record, timedOutNumbers_append]
    simpa [timedOutNumbers] using h.timed_once
  case orphans => exact h.orphans.trans (congrArg List.length hsame.symm)
  case flight =>
    intro r hr
    cases hr
    refine ⟨List.mem_append_right _ List.mem_cons_self, fun hmem => hnew ?_⟩
    simp only [Transport.record, timedOutNumbers_append] at hmem
    rw [← hq]
    exact h.timed_sent (by simpa [timedOutNumbers] using hmem)
  case resolved =>
    intro n r hr
    have hold : Event.resolved n r ∈ t.log := by simpa [Transport.record] using hr
    obtain ⟨ha, ht⟩ := h.resolved n r hold
    refine ⟨List.mem_append_left _ ha, ?_⟩
    simp only [Transport.record, timedOutNumbers_append]
    simpa [timedOutNumbers] using ht
  case line =>
    intro hr
    obtain ⟨lost, hline, _, hnone⟩ := h.line hr
    have hlost : lost = [] := (hnone hfree).resolve_right (hopen hr)
    refine ⟨[q.number], ?_, fun r hr' => ?_, fun hn => ?_⟩
    · simp only [Transport.record]
      rw [hsame, hline, hlost, List.append_nil]
    · cases hr'
      rfl
    · cases hn
  case idle => exact fun hr hs => absurd hs (hopen hr)

lemma inv_pump {failure : Option String} (h : Inv t) : Inv (pump opts t failure) := by
  unfold pump
  split
  · exact h
  next hready =>
    have hfree : t.inFlight = none := by simpa using (not_or.mp hready).2
    cases hqueue : t.queue with
    | nil => exact h
    | cons p rest =>
      cases failure with
      | none => exact inv_dispatched h hfree hqueue rfl
      | some m =>
        let err : TransportError := ⟨.closed, "writing to " ++ opts.command ++ " failed: " ++ m⟩
        refine inv_give_up (l := ([p] ++ (t.inFlight.toList ++ rest)).map
          fun q => .rejected q.number err) h (quiet_rejected _ err) (fun n r hr => ?_) ?_ rfl rfl
          le_rfl id (Or.inl hfree.symm) ?_ (fun _ => ⟨fun _ => Or.inr rfl, fun _ => ⟨rfl, rfl⟩⟩)
        · obtain ⟨q, _, hq⟩ := List.mem_map.mp hr
          cases hq
        · simp [failAll, Transport.record, err]
        · exact List.nil_sublist _

lemma inv_send {payload : Bytes} {timeoutMs : Option (Option ℕ)} {failure : Option String}
    (h : Inv t) (hopen : ¬ (t.closedByUser = true ∧ t.reading = true)) :
    Inv (send opts t payload timeoutMs failure) := by
  unfold send
  split
  next hclosed =>
    exact inv_give_up (l := [.rejected t.calls _]) h ⟨rfl, rfl, rfl⟩ (by simp) rfl rfl rfl
      (Nat.le_succ _) id (Or.inl rfl) (List.Sublist.refl _) (fun hr => ⟨id, h.idle hr⟩)
  next hclosed =>
    refine inv_pump ?_
    have hlast : ∀ n ∈ sentNumbers t.log ++ t.queue.map (·.number), n < t.calls := h.numbered
    constructor
    case answered => exact h.answered
    case order =>
      simp only [List.map_append, List.map_cons, List.map_nil]
      rw [← List.append_assoc]
      refine List.pairwise_append.mpr ⟨h.order, List.pairwise_singleton .., fun n hn m hm => ?_⟩
      rw [List.mem_singleton.mp hm]
      exact hlast n hn
    case numbered =>
      intro n hn
      simp only [List.map_append, List.map_cons, List.map_nil] at hn
      rw [← List.append_assoc] at hn
      rcases List.mem_append.mp hn with hold | hnew
      · exact Nat.lt_succ_of_lt (hlast n hold)
      · rw [List.mem_singleton.mp hnew]
        exact Nat.lt_succ_self _
    case timed_sent => exact h.timed_sent
    case timed_once => exact h.timed_once
    case orphans => exact h.orphans
    case flight => exact h.flight
    case resolved => exact h.resolved
    case line => exact h.line
    case idle =>
      intro hr hs
      rcases hs with hs | hs
      · exact absurd ⟨hs, hr⟩ hopen
      · exact absurd hs hclosed

/-- The host answers; `es` is what the caller sees of it. -/
lemma inv_heard {n : ℕ} {r : Bytes} {rest : List ℕ} {l : List Event} (h : Inv t)
    (hnext : t.unanswered = n :: rest) (hunanswered : t'.unanswered = rest)
    (hlog : t'.log = t.log ++ .answered n r :: l)
    (hes : l = [] ∨ l = [.resolved n r] ∧ n ∉ timedOutNumbers t.log)
    (hqueue : t'.queue = t.queue) (hcalls : t'.calls = t.calls)
    (hreading : t'.reading = t.reading) (hshut : t'.shut ↔ t.shut)
    (hflight : t'.inFlight = none ∨
      t'.inFlight = t.inFlight ∧ ∀ p, t.inFlight = some p → p.number ≠ n)
    (horphans : t'.orphanReplies = ((timedOutUnanswered t.log).filter (· ≠ n)).length)
    (hline : t.reading = true → ∃ lost, rest = (timedOutUnanswered t.log).filter (· ≠ n) ++ lost ∧
      (∀ p, t'.inFlight = some p → lost = [p.number]) ∧
      (t'.inFlight = none → lost = [] ∨ t.shut)) : Inv t' := by
  have hquiet : sentNumbers l = [] ∧ answeredNumbers l = [] ∧ timedOutNumbers l = [] := by
    rcases hes with rfl | ⟨rfl, _⟩ <;> exact ⟨rfl, rfl, rfl⟩
  have hsent : sentNumbers t'.log = sentNumbers t.log := by
    rw [hlog, sentNumbers_append]
    exact (congrArg _ hquiet.1).trans (List.append_nil _)
  have hanswered : answeredNumbers t'.log = answeredNumbers t.log ++ [n] := by
    rw [hlog, answeredNumbers_append]
    exact congrArg (fun l => answeredNumbers t.log ++ n :: l) hquiet.2.1
  have htimed : timedOutNumbers t'.log = timedOutNumbers t.log := by
    rw [hlog, timedOutNumbers_append]
    exact (congrArg _ hquiet.2.2).trans (List.append_nil _)
  have hwaiting : timedOutUnanswered t'.log = (timedOutUnanswered t.log).filter (· ≠ n) := by
    rw [timedOutUnanswered, hanswered, htimed, timedOutUnanswered]
    simp [and_comm]
  constructor
  case answered =>
    rw [hanswered, hunanswered, hsent, ← h.answered, hnext, List.append_assoc]
    rfl
  case order => rw [hsent, hqueue]; exact h.order
  case numbered => rw [hsent, hqueue, hcalls]; exact h.numbered
  case timed_sent => rw [htimed, hsent]; exact h.timed_sent
  case timed_once => rw [htimed]; exact h.timed_once
  case orphans => rw [horphans, hwaiting]
  case flight =>
    intro p hp
    rcases hflight with hnone | ⟨hsame, hother⟩
    · rw [hnone] at hp
      cases hp
    · rw [hsame] at hp
      obtain ⟨hmem, hnot⟩ := h.flight p hp
      rw [hnext] at hmem
      rw [hunanswered, htimed]
      exact ⟨(List.mem_cons.mp hmem).resolve_left (hother p hp), hnot⟩
  case resolved =>
    intro m b hm
    rw [hlog, htimed] at *
    rcases List.mem_append.mp hm with hold | hnew
    · obtain ⟨ha, ht⟩ := h.resolved m b hold
      exact ⟨List.mem_append_left _ ha, ht⟩
    · rcases hes with rfl | ⟨rfl, hn⟩
      · simp at hnew
      · obtain ⟨rfl, rfl⟩ : m = n ∧ b = r := by simpa using hnew
        exact ⟨List.mem_append_right _ List.mem_cons_self, hn⟩
  case line =>
    intro hr
    rw [hunanswered, hwaiting, hshut]
    exact hline (hreading ▸ hr)
  case idle =>
    intro hr hs
    obtain ⟨hnone, hnil⟩ := h.idle (hreading ▸ hr) (hshut.mp hs)
    refine ⟨?_, hqueue.trans hnil⟩
    rcases hflight with h0 | ⟨hsame, _⟩
    · exact h0
    · exact hsame.trans hnone

lemma inv_reply {n : ℕ} {r : Bytes} {rest : List ℕ} {failure : Option String} (h : Inv t)
    (hnext : t.unanswered = n :: rest) (hreading : t.reading = true) :
    Inv (onReply opts ({ t with unanswered := rest }.record [.answered n r]) r failure) := by
  obtain ⟨lost, hline, hsome, hnone⟩ := h.line hreading
  have hdistinct : (n :: rest).Nodup := by
    have hall := h.sent_nodup
    rw [← h.answered, hnext] at hall
    exact hall.of_append_right
  have hfirst := hnext.symm.trans hline
  unfold onReply
  split
  next hpos =>
    -- the answer to the first of the timed-out requests
    have hlen : 0 < (timedOutUnanswered t.log).length := h.orphans ▸ hpos
    obtain ⟨m, later, hlater⟩ := List.exists_cons_of_length_pos hlen
    rw [hlater] at hfirst
    obtain ⟨rfl, hrest⟩ := List.cons.inj hfirst
    have hrest : rest = later ++ lost := hrest
    have hne : ∀ k ∈ later ++ lost, k ≠ n := by
      intro k hk heq
      exact (List.nodup_cons.mp hdistinct).1 (hrest ▸ heq ▸ hk)
    have hfilter : (timedOutUnanswered t.log).filter (· ≠ n) = later := by
      rw [hlater, List.filter_cons_of_neg (by simp)]
      exact List.filter_eq_self.mpr fun k hk => by simpa using hne k (List.mem_append_left _ hk)
    refine inv_heard (l := []) h hnext rfl rfl (Or.inl rfl) rfl rfl rfl Iff.rfl
      (Or.inr ⟨rfl, fun p hp => ?_⟩) ?_ (fun _ => ⟨lost, ?_, hsome, hnone⟩)
    · have hlost := hsome p hp
      exact hne p.number (List.mem_append_right _ (hlost ▸ List.mem_cons_self))
    · rw [hfilter]
      have horphans := h.orphans
      rw [hlater] at horphans
      exact Nat.sub_eq_of_eq_add horphans
    · rw [hfilter, hrest]
  next hzero =>
    have hnil : timedOutUnanswered t.log = [] :=
      List.eq_nil_of_length_eq_zero (h.orphans.symm.trans (Nat.eq_zero_of_not_pos hzero))
    rw [hnil] at hfirst
    cases hflight : t.inFlight with
    | none =>
      -- the answer to a request given up as the transport closed
      refine inv_heard (l := []) h hnext rfl rfl (Or.inl rfl) rfl rfl rfl Iff.rfl (Or.inl rfl)
        ?_ (fun _ => ⟨rest, ?_, fun p hp => ?_, fun _ => ?_⟩)
      · exact h.orphans.trans (by rw [hnil]; rfl)
      · rw [hnil]; rfl
      · cases hp
      · refine Or.inr ((hnone hflight).resolve_left fun hlost => ?_)
        rw [hlost] at hfirst
        cases hfirst
    | some p =>
      rw [hsome p hflight] at hfirst
      obtain ⟨rfl, hrest⟩ := List.cons.inj hfirst
      refine inv_pump (inv_heard (l := [.resolved p.number r]) h hnext rfl ?_
        (Or.inr ⟨rfl, (h.flight p hflight).2⟩) rfl rfl rfl Iff.rfl (Or.inl rfl) ?_
        (fun _ => ⟨[], ?_, fun q hq => ?_, fun _ => Or.inl rfl⟩))
      · exact List.append_assoc ..
      · exact h.orphans.trans (by rw [hnil]; rfl)
      · rw [hnil, hrest]; rfl
      · cases hq

lemma inv_timeout {p : Pending} {failure : Option String} (h : Inv t)
    (hflight : t.inFlight = some p) : Inv (onRequestTimeout opts t p failure) := by
  obtain ⟨hmem, hnot⟩ := h.flight p hflight
  have hunheard : p.number ∉ answeredNumbers t.log := by
    have hall := h.sent_nodup
    rw [← h.answered] at hall
    exact fun ha => (List.nodup_append.mp hall).2.2 p.number ha p.number hmem rfl
  have hsent : p.number ∈ sentNumbers t.log := h.answered ▸ List.mem_append_right _ hmem
  let left := { t with inFlight := none, orphanReplies := t.orphanReplies + 1 }.record
    [.timedOut p.number (timeoutError opts p)]
  have htimed : timedOutNumbers left.log = timedOutNumbers t.log ++ [p.number] :=
    timedOutNumbers_append ..
  have hanswered : answeredNumbers left.log = answeredNumbers t.log :=
    (answeredNumbers_append ..).trans (List.append_nil _)
  have hsame : sentNumbers left.log = sentNumbers t.log :=
    (sentNumbers_append ..).trans (List.append_nil _)
  have hwaiting : timedOutUnanswered left.log = timedOutUnanswered t.log ++ [p.number] := by
    rw [timedOutUnanswered, htimed, hanswered, timedOutUnanswered]
    simp [hunheard]
  refine inv_pump (show Inv left from ?_)
  constructor
  case answered => exact (congrArg (· ++ t.unanswered) hanswered).trans (h.answered.trans hsame.symm)
  case order => exact hsame.symm ▸ h.order
  case numbered => exact hsame.symm ▸ h.numbered
  case timed_sent =>
    intro n hn
    rw [htimed] at hn
    rw [hsame]
    rcases List.mem_append.mp hn with hold | hnew
    · exact h.timed_sent hold
    · exact List.mem_singleton.mp hnew ▸ hsent
  case timed_once =>
    rw [htimed]
    refine List.nodup_append.mpr ⟨h.timed_once, List.nodup_singleton _, fun a ha b hb hab => hnot ?_⟩
    rw [← List.mem_singleton.mp hb, ← hab]
    exact ha
  case orphans =>
    rw [hwaiting, List.length_append]
    exact congrArg (· + 1) h.orphans
  case flight => intro q hq; cases hq
  case resolved =>
    intro n r hr
    have hold : Event.resolved n r ∈ t.log := by simpa [left, Transport.record] using hr
    obtain ⟨ha, ht⟩ := h.resolved n r hold
    refine ⟨List.mem_append_left _ ha, fun hmem => ?_⟩
    rw [htimed] at hmem
    rcases List.mem_append.mp hmem with htold | hnew
    · exact ht htold
    · exact hunheard (List.mem_singleton.mp hnew ▸ mem_answeredNumbers ha)
  case line =>
    intro hr
    obtain ⟨lost, hline, hsome, _⟩ := h.line hr
    refine ⟨[], ?_, fun q hq => ?_, fun _ => Or.inl rfl⟩
    · rw [hwaiting, List.append_nil]
      exact hline.trans (congrArg _ (hsome p hflight))
    · cases hq
  case idle => exact fun hr hs => ⟨rfl, (h.idle hr hs).2⟩

lemma inv_failAll {e : TransportError} (h : Inv t)
    (hlog : t'.log = (failAll t e).log) (hflight : t'.inFlight = none) (hqueue : t'.queue = [])
    (hunanswered : t'.unanswered = t.unanswered) (horphans : t'.orphanReplies = t.orphanReplies)
    (hcalls : t'.calls = t.calls) (hreading : t'.reading = true → t.reading = true)
    (hshut : t'.shut) : Inv t' := by
  refine inv_give_up h (quiet_rejected _ e) (fun n r hr => ?_) hlog hunanswered horphans
    hcalls.ge hreading (Or.inr ⟨hflight, fun _ => hshut⟩) ?_
    (fun _ => ⟨fun _ => hshut, fun _ => ⟨hflight, hqueue⟩⟩)
  · obtain ⟨q, _, hq⟩ := List.mem_map.mp hr
    cases hq
  · rw [hqueue]
    exact List.nil_sublist _

lemma inv_close (h : Inv t) : Inv (close opts t) := by
  unfold close
  split
  · exact h
  · let err : TransportError := ⟨.closed, opts.command ++ " closed"⟩
    have hfailed : Inv (failAll { t with closedByUser := true } err) :=
      inv_failAll h rfl rfl rfl rfl rfl rfl id (Or.inl rfl)
    dsimp only
    split
    · exact inv_failAll (e := err) h rfl rfl rfl rfl rfl rfl id (Or.inl rfl)
    · exact hfailed

lemma inv_exit {code : Option ℤ} {tail : String} (h : Inv t) : Inv (onExit opts t code tail) := by
  unfold onExit
  dsimp only
  split
  next hclosed =>
    refine inv_give_up (l := []) h ⟨rfl, rfl, rfl⟩ (fun n r hr => ?_) (List.append_nil _).symm rfl
      rfl le_rfl id (Or.inl rfl) (List.Sublist.refl _) (fun hr => ⟨fun _ => Or.inr rfl, fun _ => ?_⟩)
    · cases hr
    · exact h.idle hr (Or.inl hclosed)
  · exact inv_failAll h rfl rfl rfl rfl rfl rfl id (Or.inr rfl)

lemma inv_protocolError {err : TransportError} (h : Inv t) : Inv (onProtocolError opts t err) := by
  refine inv_close (inv_give_up h (quiet_rejected _ err) (fun n r hr => ?_) rfl rfl rfl le_rfl
    (fun hr => ?_) (Or.inr ⟨rfl, fun hr => ?_⟩) (List.nil_sublist _) (fun hr => ?_))
  · obtain ⟨q, _, hq⟩ := List.mem_map.mp hr
    cases hq
  · cases hr
  · cases hr
  · cases hr

/-! ### Runs -/

/-- No call is made once `close` was called and before the process has ended. -/
def untilClosed (t : Transport) : Action → Prop
  | .send .. => ¬ (t.closedByUser = true ∧ t.reading = true)
  | _ => True

/-- **The step lemma.** -/
lemma inv_step (t : Transport) (a : Action) (t' : Transport) (h : Inv t) (hok : untilClosed t a)
    (hstep : step opts t a = some t') : Inv t' := by
  cases a with
  | send payload timeoutMs failure => exact Option.some.inj hstep ▸ inv_send h hok
  | reply frame failure =>
    simp only [step] at hstep
    split at hstep
    · cases hstep
    next n rest hnext =>
      split at hstep
      next hreading => exact Option.some.inj hstep ▸ inv_reply h hnext hreading
      · cases hstep
  | timeout failure =>
    simp only [step] at hstep
    split at hstep
    · cases hstep
    next p hflight =>
      split at hstep
      · exact Option.some.inj hstep ▸ inv_timeout h hflight
      · cases hstep
  | protocolError err =>
    simp only [step] at hstep
    split at hstep
    · exact Option.some.inj hstep ▸ inv_protocolError h
    · cases hstep
  | exit code tail =>
    simp only [step] at hstep
    split at hstep
    · cases hstep
    · exact Option.some.inj hstep ▸ inv_exit h
  | close => exact Option.some.inj hstep ▸ inv_close h

/-- The transport closes on its own account only where it no longer reads. -/
def Unclosed (t : Transport) : Prop := t.closedByUser = true → t.reading = false

@[simp] lemma pump_closedByUser {failure : Option String} :
    (pump opts t failure).closedByUser = t.closedByUser := by
  unfold pump
  split
  · rfl
  · split
    · rfl
    · cases failure <;> rfl

@[simp] lemma pump_reading {failure : Option String} :
    (pump opts t failure).reading = t.reading := by
  unfold pump
  split
  · rfl
  · split
    · rfl
    · cases failure <;> rfl

lemma unclosed_congr (h : Unclosed t) (hclosed : t'.closedByUser = t.closedByUser)
    (hreading : t'.reading = t.reading) : Unclosed t' := by
  intro hc
  rw [hreading]
  exact h (hclosed ▸ hc)

lemma unclosed_step (a : Action) (ha : a ≠ .close) (h : Unclosed t)
    (hstep : step opts t a = some t') : Unclosed t' := by
  cases a with
  | send payload timeoutMs failure =>
    obtain rfl := Option.some.inj hstep
    unfold send
    split
    · exact h
    · exact unclosed_congr h pump_closedByUser pump_reading
  | reply frame failure =>
    simp only [step] at hstep
    split at hstep
    · cases hstep
    · split at hstep
      · obtain rfl := Option.some.inj hstep
        unfold onReply
        split
        · exact h
        · split
          · exact h
          · exact unclosed_congr h pump_closedByUser pump_reading
      · cases hstep
  | timeout failure =>
    simp only [step] at hstep
    split at hstep
    · cases hstep
    · split at hstep
      · obtain rfl := Option.some.inj hstep
        exact unclosed_congr h pump_closedByUser pump_reading
      · cases hstep
  | protocolError err =>
    simp only [step] at hstep
    split at hstep
    · obtain rfl := Option.some.inj hstep
      intro _
      unfold onProtocolError close
      split
      · rfl
      · dsimp only
        split <;> rfl
    · cases hstep
  | exit code tail =>
    simp only [step] at hstep
    split at hstep
    · cases hstep
    · obtain rfl := Option.some.inj hstep
      unfold onExit
      dsimp only
      split <;> exact h
  | close => exact absurd rfl ha

lemma untilClosed_of_unclosed (a : Action) (h : Unclosed t) : untilClosed t a := by
  cases a with
  | send payload timeoutMs failure =>
    rintro ⟨hclosed, hreading⟩
    rw [h hclosed] at hreading
    cases hreading
  | _ => trivial

lemma along_untilClosed {as : List Action} (hopen : ∀ a ∈ as, a ≠ .close) (h : Unclosed t) :
    Along (step opts) untilClosed t as := by
  induction as generalizing t with
  | nil => trivial
  | cons a as ih =>
    refine ⟨untilClosed_of_unclosed a h, fun t' ht' => ?_⟩
    have hrest : ∀ b ∈ as, b ≠ .close := fun b hb => hopen b (List.mem_cons_of_mem _ hb)
    exact ih hrest (unclosed_step a (hopen a List.mem_cons_self) h ht')

/-- **Answers by position**: the law holds as long as no call is made while the transport closes. -/
theorem law_along {failure : Option String} {as : List Action}
    (hok : Along (step opts) untilClosed (new opts failure) as)
    (hrun : run (step opts) (new opts failure) as = some t) : Law t :=
  (invariant_along Inv inv_step (inv_new failure) hok hrun).law

/-- **Positional matching**, over every interleaving of calls, timeouts and answers, of failing
writes, refused frames and the end of the process. -/
theorem positional (opts : Options) (failure : Option String) (as : List Action) (t : Transport)
    (hopen : ∀ a ∈ as, a ≠ .close) (hrun : run (step opts) (new opts failure) as = some t) :
    Law t := by
  have hnew : Unclosed (new opts failure) := by
    intro hclosed
    cases failure <;> cases hclosed
  exact law_along (along_untilClosed hopen hnew) hrun

/-- Of three requests the first times out; its answer is dropped, the others get theirs. -/
def lateAnswer : List Action :=
  [.send [1] (some (some 5)) none, .send [2] none none, .send [3] none none, .timeout none,
    .reply [10] none, .reply [20] none, .reply [30] none]

theorem positional_lateAnswer :
    ∃ t, run (step ⟨"kicad-api-host-native", some 30000⟩) (new ⟨"kicad-api-host-native", some 30000⟩
        none) lateAnswer = some t ∧
      t.log.filterMap (fun | .resolved n r => some (n, r) | _ => none) = [(1, [20]), (2, [30])] ∧
      timedOutNumbers t.log = [0] ∧ Law t :=
  ⟨_, rfl, by decide, by decide, positional _ none lateAnswer _ (by simp [lateAnswer]) rfl⟩

end FabPcb.StdioTransport
