import FabPcb.NngTransport
import FabPcb.Runs
import Mathlib.Data.List.TakeWhile

/-!
`WasmTransport`: requests to a module in the same process.

Calls are numbered as `send()` is called. Requests are dispatched from a microtask; an instance
in process answers before the call returns, and one on another thread answers later. Microtasks
run in the order they are queued, and none runs under a call into the module in process.
-/

namespace FabPcb.WasmTransport

open NngFraming Runs
open NngTransport (TransportError showMs)

structure Options where
  defaultTimeoutMs : Option ℕ := some 30000
  ownsInstance : Bool := true
  /-- The instance is on another thread. -/
  dispatchAsync : Bool := false

structure Pending where
  number : ℕ
  payload : Bytes
  timeoutMs : Option ℕ
  timer : Bool
  cancelled : Bool
  deriving DecidableEq

/-- An event of the module, with the calls that it was emitted under. -/
structure ModuleEvent where
  bytes : Bytes
  during : List ℕ
  deriving DecidableEq

/-- What a dispatch throws. -/
inductive Thrown where
  | transport (e : TransportError)
  /-- A `WebAssembly.RuntimeError`, or a `KiCadWasmAbort` from another thread. -/
  | runtimeAbort (message : String)
  | other (message : String)

/-- What the module, callers and subscribers see. -/
inductive Event where
  | dispatched (n : ℕ) (payload : Bytes)
  | resolved (n : ℕ) (reply : Bytes)
  | rejected (n : ℕ) (err : TransportError)
  | delivered (e : ModuleEvent)
  | shutdown
  deriving DecidableEq

inductive Microtask where
  | pump | flush
  deriving DecidableEq

structure Transport where
  closed : Bool
  lastError : Option TransportError
  calls : ℕ
  queue : List Pending
  pumping : Bool
  dispatching : Bool
  eventBuffer : List ModuleEvent
  microtasks : List Microtask
  /-- What the module has and has not answered. -/
  underWay : List Pending
  log : List Event

def new : Transport := ⟨false, none, 0, [], false, false, [], [], [], []⟩

/-! ### The dispatch loop -/

def schedule (t : Transport) : Transport :=
  if t.pumping then t else { t with pumping := true, microtasks := t.microtasks ++ [.pump] }

def send (opts : Options) (t : Transport) (payload : Bytes) (timeoutMs : Option (Option ℕ)) :
    Transport :=
  if t.closed then
    let err := t.lastError.getD ⟨.closed, "wasm transport is closed"⟩
    { t with calls := t.calls + 1, log := t.log ++ [.rejected t.calls err] }
  else
    let timeoutMs := timeoutMs.getD opts.defaultTimeoutMs
    let p := ⟨t.calls, payload, timeoutMs, timeoutMs.any (0 < ·), false⟩
    schedule { t with calls := t.calls + 1, queue := t.queue ++ [p] }

def timeoutError (p : Pending) : TransportError :=
  ⟨.timeout, "request timed out after " ++ showMs p.timeoutMs ++
    " ms waiting for the wasm module"⟩

/-- The timer of a request that waits. -/
def onTimeout (t : Transport) (p : Pending) : Transport :=
  { t with queue := t.queue.map fun q => if q = p then { q with cancelled := true } else q,
           log := t.log ++ [.rejected p.number (timeoutError p)] }

/-- A request is handed to the module. -/
def dispatch (t : Transport) (p : Pending) : Transport :=
  { t with dispatching := true, underWay := t.underWay ++ [p],
           log := t.log ++ [.dispatched p.number p.payload] }

/-- Requests that timed out while they waited are passed over. -/
def pump (t : Transport) : Transport :=
  if t.closed then t
  else
    match t.queue.dropWhile (·.cancelled) with
    | [] => { t with queue := [] }
    | p :: rest => dispatch { t with queue := rest } { p with timer := false, cancelled := true }

def failAll (t : Transport) (err : TransportError) : Transport :=
  { t with queue := [],
           log := t.log ++ (t.queue.filter (!·.cancelled)).map fun p => .rejected p.number err }

def close (opts : Options) (t : Transport) : Transport :=
  if t.closed then t
  else
    let err := ⟨.closed, "wasm transport closed"⟩
    let t := failAll { t with lastError := some err } err
    { t with eventBuffer := [], closed := true,
             log := if opts.ownsInstance then t.log ++ [.shutdown] else t.log }

def afterDispatch (t : Transport) : Transport :=
  { t with microtasks := t.microtasks ++ [.flush] }

def isRuntimeAbort : Thrown → Bool
  | .runtimeAbort _ => true
  | _ => false

def dispatchError : Thrown → TransportError
  | .transport e => e
  | .runtimeAbort m => ⟨.protocol, "wasm dispatch failed: " ++ m⟩
  | .other m => ⟨.protocol, "wasm dispatch failed: " ++ m⟩

def failDispatch (opts : Options) (t : Transport) (p : Pending) (e : Thrown) : Transport :=
  let t := { t with log := t.log ++ [.rejected p.number (dispatchError e)] }
  if isRuntimeAbort e then close opts t else afterDispatch t

/-- The rest of `pump` and `pumpAsync`, once the module has answered. -/
def complete (opts : Options) (t : Transport) (p : Pending) (result : Except Thrown Bytes) :
    Transport :=
  let t := { t with dispatching := false, underWay := t.underWay.erase p }
  match result with
  | .ok reply => afterDispatch { t with log := t.log ++ [.resolved p.number reply] }
  | .error e => failDispatch opts t p e

/-! ### Events -/

def emit (t : Transport) (e : ModuleEvent) : Transport :=
  { t with log := t.log ++ [.delivered e] }

/-- Nothing is subscribed to the module once the transport is closed. -/
def onModuleEvent (t : Transport) (bytes : Bytes) : Transport :=
  let e := ⟨bytes, t.underWay.map (·.number)⟩
  if t.closed then t
  else if t.dispatching then { t with eventBuffer := t.eventBuffer ++ [e] }
  else emit t e

def flushEvents (t : Transport) : Transport :=
  t.eventBuffer.foldl emit { t with eventBuffer := [] }

def onFlush (t : Transport) : Transport :=
  let t := flushEvents t
  if t.queue ≠ [] then schedule t else t

/-! ### Steps -/

inductive Action where
  | send (payload : Bytes) (timeoutMs : Option (Option ℕ))
  | close
  | timeout (n : ℕ)
  /-- The first microtask runs. -/
  | microtask
  /-- The module answers call `n`. -/
  | complete (n : ℕ) (result : Except Thrown Bytes)
  | moduleEvent (bytes : Bytes)

/-- A call into the module in process has not returned. -/
def inModule (opts : Options) (t : Transport) : Bool :=
  !opts.dispatchAsync && !t.underWay.isEmpty

def step (opts : Options) (t : Transport) : Action → Option Transport
  | .send payload timeoutMs => some (send opts t payload timeoutMs)
  | .close => some (close opts t)
  | .timeout n =>
    if inModule opts t then none
    else
      match t.queue.find? fun p => p.number = n && p.timer && !p.cancelled with
      | none => none
      | some p => some (onTimeout t p)
  | .microtask =>
    if inModule opts t then none
    else
      match t.microtasks with
      | [] => none
      | .pump :: rest => some (pump { t with microtasks := rest, pumping := false })
      | .flush :: rest => some (onFlush { t with microtasks := rest })
  | .complete n result =>
    match t.underWay.find? (·.number = n) with
    | none => none
    | some p => some (complete opts t p result)
  | .moduleEvent bytes => some (onModuleEvent t bytes)

/-! ### The log -/

def dispatchedNumbers (log : List Event) : List ℕ :=
  log.filterMap fun
    | .dispatched n _ => some n
    | _ => none

def settledNumbers (log : List Event) : List ℕ :=
  log.filterMap fun
    | .resolved n _ => some n
    | .rejected n _ => some n
    | _ => none

/-- An event is delivered after all calls that it was emitted under have settled. -/
def AfterReplies (log : List Event) : Prop :=
  ∀ k e, log[k]? = some (.delivered e) → ∀ n ∈ e.during, n ∈ settledNumbers (log.take k)

section Log

variable {log es : List Event}

@[simp] lemma dispatchedNumbers_append (log log' : List Event) :
    dispatchedNumbers (log ++ log') = dispatchedNumbers log ++ dispatchedNumbers log' :=
  List.filterMap_append ..

@[simp] lemma settledNumbers_append (log log' : List Event) :
    settledNumbers (log ++ log') = settledNumbers log ++ settledNumbers log' :=
  List.filterMap_append ..

lemma afterReplies_append (h : AfterReplies log)
    (hes : ∀ e, .delivered e ∈ es → ∀ n ∈ e.during, n ∈ settledNumbers log) :
    AfterReplies (log ++ es) := by
  intro k e hk n hn
  rcases Nat.lt_or_ge k log.length with hlt | hge
  · rw [List.getElem?_append_left hlt] at hk
    rw [List.take_append_of_le_length (Nat.le_of_lt hlt)]
    exact h k e hk n hn
  · rw [List.getElem?_append_right hge] at hk
    rw [List.take_append, List.take_of_length_le hge, settledNumbers_append]
    exact List.mem_append_left _ (hes e (List.mem_of_getElem? hk) n hn)

lemma afterReplies_append_of_quiet (h : AfterReplies log) (hes : ∀ e, .delivered e ∉ es) :
    AfterReplies (log ++ es) :=
  afterReplies_append h fun e he => absurd he (hes e)

end Log

/-! ### The law -/

/-- **What callers and subscribers may rely on**: one dispatch at a time, in the order of the
calls, and no event before the reply to the call that it was emitted under. -/
structure Ordered (t : Transport) : Prop where
  one_under_way : t.underWay.length ≤ 1
  unsettled_under_way : ∀ n ∈ dispatchedNumbers t.log, n ∉ settledNumbers t.log →
    n ∈ t.underWay.map (·.number)
  send_order : (dispatchedNumbers t.log).Pairwise (· < ·)
  after_replies : AfterReplies t.log

/-- Where requests and events stand. -/
structure Inv (t : Transport) : Prop where
  one : t.underWay.length ≤ 1
  dispatching : t.dispatching = !t.underWay.isEmpty
  answered : ∀ n ∈ dispatchedNumbers t.log, n ∈ settledNumbers t.log ∨
    n ∈ t.underWay.map (·.number)
  order : (dispatchedNumbers t.log ++ t.queue.map (·.number)).Pairwise (· < ·)
  numbered : ∀ n ∈ dispatchedNumbers t.log ++ t.queue.map (·.number), n < t.calls
  buffered : ∀ e ∈ t.eventBuffer, ∀ n ∈ e.during, n ∈ settledNumbers t.log ∨
    n ∈ t.underWay.map (·.number)
  delivered : AfterReplies t.log

lemma Inv.ordered {t : Transport} (h : Inv t) : Ordered t where
  one_under_way := h.one
  unsettled_under_way := fun n hn hsettled => (h.answered n hn).resolve_left hsettled
  send_order := (List.pairwise_append.mp h.order).1
  after_replies := h.delivered

/-- The pump finds nothing to dispatch while a dispatch is under way, and no event of a dispatch
under way is flushed. -/
def inTurn (t : Transport) : Action → Bool
  | .microtask =>
    match t.microtasks with
    | [] => true
    | .pump :: _ => t.underWay.isEmpty || t.closed || t.queue.all (·.cancelled)
    | .flush :: _ =>
      t.eventBuffer.all fun e => e.during.all fun n => t.underWay.all (·.number ≠ n)
  | _ => true

variable {opts : Options} {t t' : Transport}

lemma inv_new : Inv new where
  one := Nat.zero_le 1
  dispatching := rfl
  answered := fun _ h => by cases h
  order := List.Pairwise.nil
  numbered := fun _ h => by cases h
  buffered := fun _ h => by cases h
  delivered := fun k e hk => by cases hk

/-- What neither dispatches nor delivers, and leaves the module and its events alone. -/
lemma inv_quiet {l : List Event} (hi : Inv t) (hlog : t'.log = t.log ++ l)
    (hes : dispatchedNumbers l = []) (hquiet : ∀ e, .delivered e ∉ l)
    (hunder : t'.underWay = t.underWay) (hdispatching : t'.dispatching = t.dispatching)
    (hqueue : t'.queue.map (·.number) = t.queue.map (·.number) ∨ t'.queue = [])
    (hcalls : t.calls ≤ t'.calls) (hbuffer : t'.eventBuffer ⊆ t.eventBuffer) : Inv t' := by
  have hdispatched : dispatchedNumbers t'.log = dispatchedNumbers t.log := by
    rw [hlog, dispatchedNumbers_append, hes, List.append_nil]
  have hsettled : settledNumbers t.log ⊆ settledNumbers t'.log := by
    rw [hlog, settledNumbers_append]
    exact List.subset_append_left ..
  have hsub : List.Sublist (dispatchedNumbers t'.log ++ t'.queue.map (·.number))
      (dispatchedNumbers t.log ++ t.queue.map (·.number)) := by
    rw [hdispatched]
    refine List.Sublist.append_left ?_ _
    rcases hqueue with h | h
    · rw [h]
    · rw [h]
      exact List.nil_sublist _
  exact {
    one := hunder ▸ hi.one
    dispatching := by rw [hdispatching, hunder, hi.dispatching]
    answered := fun n hn => by
      rw [hdispatched] at hn
      rw [hunder]
      exact (hi.answered n hn).imp_left (@hsettled n)
    order := hi.order.sublist hsub
    numbered := fun n hn => Nat.lt_of_lt_of_le (hi.numbered n (hsub.subset hn)) hcalls
    buffered := fun e he n hn => by
      rw [hunder]
      exact (hi.buffered e (hbuffer he) n hn).imp_left (@hsettled n)
    delivered := hlog ▸ afterReplies_append_of_quiet hi.delivered hquiet }

lemma inv_of_eq (hi : Inv t) (hlog : t'.log = t.log) (hunder : t'.underWay = t.underWay)
    (hdispatching : t'.dispatching = t.dispatching) (hqueue : t'.queue = t.queue)
    (hcalls : t'.calls = t.calls) (hbuffer : t'.eventBuffer = t.eventBuffer) : Inv t' :=
  inv_quiet (l := []) hi (by rw [hlog, List.append_nil]) rfl (fun _ he => by cases he) hunder
    hdispatching (Or.inl (by rw [hqueue])) (Nat.le_of_eq hcalls.symm)
    (by rw [hbuffer]; exact List.Subset.refl _)

lemma inv_schedule (hi : Inv t) : Inv (schedule t) := by
  unfold schedule
  split_ifs
  · exact hi
  · exact inv_of_eq hi rfl rfl rfl rfl rfl rfl

lemma inv_send (hi : Inv t) (payload : Bytes) (timeoutMs : Option (Option ℕ)) :
    Inv (send opts t payload timeoutMs) := by
  unfold send
  split_ifs
  · exact inv_quiet hi rfl rfl (fun _ he => by simp at he) rfl rfl (Or.inl rfl) (Nat.le_succ _)
      (List.Subset.refl _)
  · refine inv_schedule ?_
    have hmem : ∀ n ∈ dispatchedNumbers t.log ++ (t.queue.map (·.number) ++ [t.calls]),
        n ∈ dispatchedNumbers t.log ++ t.queue.map (·.number) ∨ n = t.calls := by
      intro n hn
      rw [← List.append_assoc, List.mem_append, List.mem_singleton] at hn
      exact hn
    refine ⟨hi.one, hi.dispatching, hi.answered, ?_, fun n hn => ?_, hi.buffered, hi.delivered⟩
    · rw [List.map_append, ← List.append_assoc]
      refine List.pairwise_append.mpr ⟨hi.order, List.pairwise_singleton _ _, fun n hn m hm => ?_⟩
      rw [List.mem_singleton.mp hm]
      exact hi.numbered n hn
    · rw [List.map_append] at hn
      rcases hmem n hn with h | h
      · exact Nat.lt_succ_of_lt (hi.numbered n h)
      · exact h ▸ Nat.lt_succ_self _

lemma inv_failAll (hi : Inv t) (err : TransportError) : Inv (failAll t err) := by
  refine inv_quiet hi rfl ?_ (fun e he => ?_) rfl rfl (Or.inr rfl) (Nat.le_refl _)
    (List.Subset.refl _)
  · rw [dispatchedNumbers, List.filterMap_eq_nil_iff]
    intro e he
    obtain ⟨p, _, rfl⟩ := List.mem_map.mp he
    rfl
  · obtain ⟨p, _, hp⟩ := List.mem_map.mp he
    cases hp

lemma inv_close (hi : Inv t) : Inv (close opts t) := by
  unfold close
  split_ifs with hclosed hshutdown
  · exact hi
  · have hfail := inv_failAll hi ⟨.closed, "wasm transport closed"⟩
    exact inv_quiet hfail rfl rfl (fun _ he => by simp at he) rfl rfl (Or.inl rfl)
      (Nat.le_refl _) (List.nil_subset _)
  · have hfail := inv_failAll hi ⟨.closed, "wasm transport closed"⟩
    exact inv_quiet (l := []) hfail (List.append_nil _).symm rfl (fun _ he => by cases he) rfl
      rfl (Or.inl rfl) (Nat.le_refl _) (List.nil_subset _)

lemma inv_timeout (hi : Inv t) (p : Pending) : Inv (onTimeout t p) := by
  refine inv_quiet hi rfl rfl (fun _ he => by simp at he) rfl rfl (Or.inl ?_) (Nat.le_refl _)
    (List.Subset.refl _)
  simp only [onTimeout, List.map_map]
  refine List.map_congr_left fun q _ => ?_
  simp only [Function.comp_apply]
  split_ifs <;> rfl

/-- Nothing is under way as a request is dispatched. -/
lemma inv_dispatch {p : Pending} {rest : List Pending} (hi : Inv t) (hidle : t.underWay = [])
    (hqueue : List.Sublist (p.number :: rest.map (·.number)) (t.queue.map (·.number))) :
    Inv (dispatch { t with queue := rest } { p with timer := false, cancelled := true }) := by
  have hsub : List.Sublist ((dispatchedNumbers t.log ++ [p.number]) ++ rest.map (·.number))
      (dispatchedNumbers t.log ++ t.queue.map (·.number)) := by
    rw [List.append_assoc]
    exact List.Sublist.append_left hqueue _
  have hsettled : ∀ n, n ∈ settledNumbers t.log ∨ n ∈ t.underWay.map (·.number) →
      n ∈ settledNumbers (t.log ++ [.dispatched p.number p.payload]) := by
    intro n hn
    rw [hidle] at hn
    rw [settledNumbers_append]
    exact List.mem_append_left _ (hn.resolve_right (by simp))
  have hdispatched : dispatchedNumbers (t.log ++ [.dispatched p.number p.payload]) =
      dispatchedNumbers t.log ++ [p.number] := dispatchedNumbers_append _ _
  refine ⟨?_, ?_, fun n hn => ?_, ?_, fun n hn => ?_, fun e he n hn => ?_, ?_⟩
  · simp [dispatch, hidle]
  · simp [dispatch]
  · rw [dispatch, hdispatched] at hn
    rcases List.mem_append.mp hn with h | h
    · exact Or.inl (hsettled n (hi.answered n h))
    · right
      simpa [dispatch] using Or.inr (List.mem_singleton.mp h)
  · rw [dispatch, hdispatched]
    exact hi.order.sublist hsub
  · rw [dispatch, hdispatched] at hn
    exact hi.numbered n (hsub.subset hn)
  · exact Or.inl (hsettled n (hi.buffered e he n hn))
  · exact afterReplies_append_of_quiet hi.delivered fun e he => by simp at he

lemma inv_pump (hi : Inv t)
    (hok : t.underWay.isEmpty || t.closed || t.queue.all (·.cancelled)) : Inv (pump t) := by
  unfold pump
  split_ifs with hclosed
  · exact hi
  · split
    case h_1 =>
      exact inv_quiet (l := []) hi (List.append_nil _).symm rfl (fun _ he => by cases he) rfl
        rfl (Or.inr rfl) (Nat.le_refl _) (List.Subset.refl _)
    case h_2 p rest hdrop =>
      have hlive : t.queue.all (·.cancelled) = false := by
        by_contra hall
        rw [Bool.not_eq_false, List.all_eq_true] at hall
        rw [List.dropWhile_eq_nil_iff.mpr hall] at hdrop
        cases hdrop
      have hidle : t.underWay = [] := by
        simpa [hclosed, hlive] using hok
      refine inv_dispatch hi hidle ?_
      rw [← List.map_cons, ← hdrop]
      exact (List.dropWhile_sublist _).map _

/-- The one call under way settles. -/
lemma inv_settle {p : Pending} {x : Event} (hi : Inv t) (hone : t.underWay = [p])
    (hx : settledNumbers [x] = [p.number]) (hdispatched : dispatchedNumbers [x] = [])
    (hquiet : ∀ e, x ≠ .delivered e) :
    Inv { t with dispatching := false, underWay := [], log := t.log ++ [x] } := by
  have hsettled : ∀ n, n ∈ settledNumbers t.log ∨ n ∈ t.underWay.map (·.number) →
      n ∈ settledNumbers (t.log ++ [x]) := by
    intro n hn
    rw [hone] at hn
    rw [settledNumbers_append, hx]
    exact List.mem_append.mpr hn
  have hlog : dispatchedNumbers (t.log ++ [x]) = dispatchedNumbers t.log := by
    rw [dispatchedNumbers_append, hdispatched, List.append_nil]
  refine ⟨Nat.zero_le 1, rfl, fun n hn => ?_, ?_, fun n hn => ?_, fun e he n hn => ?_, ?_⟩
  · rw [hlog] at hn
    exact Or.inl (hsettled n (hi.answered n hn))
  · rw [hlog]
    exact hi.order
  · rw [hlog] at hn
    exact hi.numbered n hn
  · exact Or.inl (hsettled n (hi.buffered e he n hn))
  · exact afterReplies_append_of_quiet hi.delivered fun e he =>
      hquiet e (List.mem_singleton.mp he).symm

lemma inv_complete {p : Pending} (hi : Inv t) (hp : p ∈ t.underWay)
    (result : Except Thrown Bytes) : Inv (complete opts t p result) := by
  have hone : t.underWay = [p] := by
    obtain ⟨q, hq⟩ := List.length_eq_one_iff.mp
      (Nat.le_antisymm hi.one (List.length_pos_of_mem hp))
    rw [hq] at hp ⊢
    rw [List.mem_singleton.mp hp]
  have herase : t.underWay.erase p = [] := by rw [hone, List.erase_cons_head]
  unfold complete
  rw [herase]
  cases result with
  | ok reply =>
    have hsettle := inv_settle (x := .resolved p.number reply) hi hone rfl rfl
      fun e he => by cases he
    exact inv_of_eq hsettle rfl rfl rfl rfl rfl rfl
  | error e =>
    have hsettle := inv_settle (x := .rejected p.number (dispatchError e)) hi hone rfl rfl
      fun e he => by cases he
    simp only [failDispatch]
    split_ifs
    · exact inv_close hsettle
    · exact inv_of_eq hsettle rfl rfl rfl rfl rfl rfl

/-- Events go out whose calls have settled. -/
lemma inv_deliver {l buffer : List ModuleEvent} (hi : Inv t)
    (hes : ∀ e ∈ l, ∀ n ∈ e.during, n ∈ settledNumbers t.log) (hbuffer : buffer ⊆ t.eventBuffer) :
    Inv { t with eventBuffer := buffer, log := t.log ++ l.map .delivered } := by
  have hdispatched : dispatchedNumbers (l.map .delivered) = [] := by
    rw [dispatchedNumbers, List.filterMap_eq_nil_iff]
    intro x hx
    obtain ⟨e, _, rfl⟩ := List.mem_map.mp hx
    rfl
  have hsettled : settledNumbers (l.map .delivered) = [] := by
    rw [settledNumbers, List.filterMap_eq_nil_iff]
    intro x hx
    obtain ⟨e, _, rfl⟩ := List.mem_map.mp hx
    rfl
  have hlog : dispatchedNumbers (t.log ++ l.map .delivered) = dispatchedNumbers t.log ∧
      settledNumbers (t.log ++ l.map .delivered) = settledNumbers t.log := by
    rw [dispatchedNumbers_append, settledNumbers_append, hdispatched, hsettled]
    simp [List.append_nil, and_self]
  refine ⟨hi.one, hi.dispatching, ?_, ?_, ?_, fun e he => ?_, ?_⟩
  · rw [hlog.1, hlog.2]
    exact hi.answered
  · rw [hlog.1]
    exact hi.order
  · rw [hlog.1]
    exact hi.numbered
  · rw [hlog.2]
    exact hi.buffered e (hbuffer he)
  · refine afterReplies_append hi.delivered fun e he => ?_
    obtain ⟨e', he', h⟩ := List.mem_map.mp he
    cases h
    exact hes _ he'

lemma inv_moduleEvent (hi : Inv t) (bytes : Bytes) : Inv (onModuleEvent t bytes) := by
  unfold onModuleEvent
  split_ifs with hclosed hdispatching
  · exact hi
  · refine ⟨hi.one, hi.dispatching, hi.answered, hi.order, hi.numbered, fun e he n hn => ?_,
      hi.delivered⟩
    rcases List.mem_append.mp he with h | h
    · exact hi.buffered e h n hn
    · obtain rfl := List.mem_singleton.mp h
      exact Or.inr hn
  · have hidle : t.underWay = [] := by
      have h := hi.dispatching
      simpa [hdispatching] using h
    refine inv_deliver (l := [⟨bytes, t.underWay.map (·.number)⟩]) hi (fun e he n hn => ?_)
      (List.Subset.refl _)
    obtain rfl := List.mem_singleton.mp he
    rw [hidle] at hn
    cases hn

lemma flushEvents_eq (t : Transport) :
    flushEvents t = { t with eventBuffer := [], log := t.log ++ t.eventBuffer.map .delivered } := by
  have hfold : ∀ (es : List ModuleEvent) (t : Transport),
      es.foldl emit t = { t with log := t.log ++ es.map .delivered } := by
    intro es
    induction es with
    | nil => simp
    | cons e es ih => simp [ih, emit]
  exact hfold _ _

lemma inv_flush (hi : Inv t)
    (hok : t.eventBuffer.all fun e => e.during.all fun n => t.underWay.all (·.number ≠ n)) :
    Inv (onFlush t) := by
  have hsettled : ∀ e ∈ t.eventBuffer, ∀ n ∈ e.during, n ∈ settledNumbers t.log := by
    intro e he n hn
    refine (hi.buffered e he n hn).resolve_right fun hunder => ?_
    obtain ⟨p, hp, hpn⟩ := List.mem_map.mp hunder
    have hduring := List.all_eq_true.mp (List.all_eq_true.mp hok e he) n hn
    exact of_decide_eq_true (List.all_eq_true.mp hduring p hp) hpn
  have hflush : Inv (flushEvents t) := by
    rw [flushEvents_eq]
    exact inv_deliver hi hsettled (List.nil_subset _)
  unfold onFlush
  simp only
  split_ifs
  · exact inv_schedule hflush
  · exact hflush

/-- **A step keeps the order**, if it is taken in turn. -/
theorem inv_step {a : Action} (hi : Inv t) (hok : inTurn t a) (h : step opts t a = some t') :
    Inv t' := by
  cases a with
  | send payload timeoutMs => cases h; exact inv_send hi payload timeoutMs
  | close => cases h; exact inv_close hi
  | timeout n =>
    simp only [step] at h
    split_ifs at h
    split at h
    · cases h
    · cases h
      exact inv_timeout hi _
  | microtask =>
    simp only [step] at h
    split_ifs at h
    cases htasks : t.microtasks with
    | nil => rw [htasks] at h; cases h
    | cons task rest =>
      rw [htasks] at h
      simp only [inTurn, htasks] at hok
      have hrest : Inv { t with microtasks := rest } := inv_of_eq hi rfl rfl rfl rfl rfl rfl
      cases task with
      | pump =>
        cases h
        exact inv_pump (inv_of_eq hi rfl rfl rfl rfl rfl rfl) hok
      | flush => cases h; exact inv_flush hrest hok
  | complete n result =>
    simp only [step] at h
    split at h
    · cases h
    case h_2 p hp =>
      cases h
      exact inv_complete hi (List.mem_of_find?_eq_some hp) result
  | moduleEvent bytes => cases h; exact inv_moduleEvent hi bytes

/-- **Requests and events in order**, in a run whose steps are taken in turn. -/
theorem ordered_of_inTurn {as : List Action}
    (hok : Along (step opts) (fun t a => inTurn t a) new as)
    (hrun : run (step opts) new as = some t) : Ordered t :=
  (invariant_along Inv (fun _ _ _ hs hok h => inv_step hs hok h) inv_new hok hrun).ordered

def worker : Options where
  dispatchAsync := true

/-- A request with an event, a timeout in the queue, and the events flushed. -/
def takingTurns : List Action :=
  [.send [1] none, .microtask, .moduleEvent [9], .complete 0 (.ok [2]), .send [3] none,
    .timeout 1, .microtask, .microtask]

/-- The order on a run with a request, an event and a timeout. -/
theorem ordered_takingTurns : ∃ t, run (step worker) new takingTurns = some t ∧ Ordered t := by
  have hrun : (run (step worker) new takingTurns).isSome = true := by decide
  obtain ⟨t, ht⟩ := Option.isSome_iff_exists.mp hrun
  exact ⟨t, ht, ordered_of_inTurn (by decide) ht⟩

/-! ### A module on another thread -/

/-- A second request is sent while the first is under way. -/
def reentering : List Action := [.send [1] none, .microtask, .send [2] none, .microtask]

/-- The pump runs between the answer to a request and the flush after it. -/
def flushingEarly : List Action :=
  [.send [1] none, .microtask, .send [2] none, .complete 0 (.ok [7]), .microtask,
    .moduleEvent [9], .microtask]

/-- **Two dispatches at once, and an event before its reply.** -/
theorem unordered :
    (¬ ∀ (opts : Options) (as : List Action) (t : Transport),
      run (step opts) new as = some t → t.underWay.length ≤ 1) ∧
    ¬ ∀ (opts : Options) (as : List Action) (t : Transport),
      run (step opts) new as = some t → AfterReplies t.log := by
  constructor
  · intro h
    have htwo : (run (step worker) new reentering).map (·.underWay.length) = some 2 := by decide
    obtain ⟨t, ht, hlen⟩ := Option.map_eq_some_iff.mp htwo
    have hone := h worker reentering t ht
    rw [hlen] at hone
    cases hone with
    | step hle => cases hle
  · intro h
    have hlog : (run (step worker) new flushingEarly).map (·.log) =
        some [.dispatched 0 [1], .resolved 0 [7], .dispatched 1 [2], .delivered ⟨[9], [1]⟩] := by
      decide
    obtain ⟨t, ht, hlog⟩ := Option.map_eq_some_iff.mp hlog
    have hafter := h worker flushingEarly t ht
    rw [hlog] at hafter
    have hmem := hafter 3 ⟨[9], [1]⟩ rfl 1 (List.mem_singleton.mpr rfl)
    revert hmem
    decide

/-! ### A module in process -/

lemma inTurn_of_sync {a : Action} (hsync : opts.dispatchAsync = false)
    (h : step opts t a = some t') : inTurn t a := by
  cases a with
  | microtask =>
    simp only [step, inModule, hsync, Bool.not_false, Bool.true_and] at h
    split_ifs at h with hidle
    have hnone : t.underWay = [] := by simpa using hidle
    simp only [inTurn]
    split
    · rfl
    · rw [hnone]
      rfl
    · simp [hnone]
  | _ => rfl

/-- **A module in process is always called in turn.** -/
theorem ordered_of_sync {as : List Action} (hsync : opts.dispatchAsync = false)
    (hrun : run (step opts) new as = some t) : Ordered t :=
  (invariant_run Inv (fun _ _ _ hs h => inv_step hs (inTurn_of_sync hsync h) h) inv_new
    hrun).ordered

/-- The order on a run in process. -/
theorem ordered_of_sync_takingTurns :
    ∃ t, run (step {}) new takingTurns = some t ∧ Ordered t := by
  have hrun : (run (step {}) new takingTurns).isSome = true := by decide
  obtain ⟨t, ht⟩ := Option.isSome_iff_exists.mp hrun
  exact ⟨t, ht, ordered_of_sync rfl ht⟩

end FabPcb.WasmTransport
