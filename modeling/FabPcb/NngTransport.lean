import FabPcb.Correlation
import FabPcb.NngFraming
import Mathlib.Data.List.Nodup
import Mathlib.Logic.Function.Iterate

/-!
What `NngIpcTransport` and `NngWsTransport` share: the requests that wait, the one in flight,
the ids, and what follows a lost connection.

Calls are numbered as `send()` is called, and the log keeps what callers, the socket and the
server see of them. Timers and delays are not timed: any armed timer may fire.
-/

namespace FabPcb.NngTransport

open Correlation NngFraming

inductive TransportState where
  | connecting | opened | closed
  deriving DecidableEq

inductive TransportErrorCode where
  | timeout | closed | protocol | connect
  deriving DecidableEq

structure TransportError where
  code : TransportErrorCode
  message : String
  deriving DecidableEq

/-- What was thrown: a `TransportError`, or anything else, as its message. -/
inductive Cause where
  | transport (e : TransportError)
  | other (message : String)

structure ReconnectOptions where
  /-- `none` for `Infinity`. -/
  maxAttempts : Option ℕ := none

inductive OnTimeout where
  | keep | reconnect
  deriving DecidableEq

/-- Times in milliseconds, `none` for `Infinity`. The address is a socket path or a URL. -/
structure Options where
  address : String
  connectTimeoutMs : ℕ := 5000
  defaultTimeoutMs : Option ℕ := some 30000
  reconnect : Option ReconnectOptions := none
  onTimeout : OnTimeout := .keep
  maxFrameBytes : ℕ := 256 * 1024 * 1024

structure Pending where
  number : ℕ
  id : ℕ
  payload : Bytes
  timeoutMs : Option ℕ
  timer : Bool

/-- A connection is `closed` once it is not the current one. -/
structure Connection where
  key : ℕ
  sock : Bool

abbrev Event := Correlation.Event Bytes Bytes TransportError

structure Transport where
  state : TransportState
  conn : Option Connection
  queue : List Pending
  inFlight : Option Pending
  nextId : ℕ
  /-- In the order they were added. -/
  staleIds : List ℕ
  closedByUser : Bool
  everOpened : Bool
  attempt : ℕ
  reconnectTimer : Bool
  lastError : Option TransportError
  dials : ℕ
  calls : ℕ
  log : List Event

/-- A transport that has not dialed yet. -/
def Transport.init : Transport :=
  ⟨.connecting, none, [], none, 1, [], false, false, 0, false, none, 0, 0, []⟩

/-- Callbacks of any other connection do nothing. -/
def Transport.isCurrent (t : Transport) (c : ℕ) : Bool := t.conn.any (·.key = c)

/-! ### Ids -/

/-- `((nextId & 0x7fffffff) | REQ_ID_FLAG) >>> 0`. -/
def requestId (next : ℕ) : ℕ := REQ_ID_FLAG + next % 2 ^ 31

def succId (next : ℕ) : ℕ := next % 0x7fffffff + 1

/-- The loop of `allocId`, which takes a turn more than there are stale ids at most. -/
def allocLoop (staleIds : List ℕ) : ℕ → ℕ → ℕ × ℕ
  | 0, next => (requestId next, succId next)
  | fuel + 1, next =>
    if requestId next ∈ staleIds then allocLoop staleIds fuel (succId next)
    else (requestId next, succId next)

/-- `allocId`: the id, and `nextId` after it. -/
def allocId (staleIds : List ℕ) (next : ℕ) : ℕ × ℕ := allocLoop staleIds staleIds.length next

/-- `staleIds.add`, which forgets the oldest when there are many. -/
def addStale (staleIds : List ℕ) (id : ℕ) : List ℕ :=
  let staleIds := if id ∈ staleIds then staleIds else staleIds ++ [id]
  if staleIds.length > 1024 then staleIds.drop 512 else staleIds

/-! ### Settling -/

/-- The request in flight is rejected, if there is one. -/
def Transport.rejectInFlight (t : Transport) (err : TransportError) : Transport :=
  match t.inFlight with
  | none => t
  | some p => { t with inFlight := none, log := t.log ++ [.rejected p.number err] }

def Transport.failAll (t : Transport) (err : TransportError) : Transport :=
  let t := t.rejectInFlight err
  { t with queue := [],
           log := t.log ++ (t.queue.map (·.number)).map fun n => .rejected n err }

def Transport.setState (t : Transport) (state : TransportState) : Transport :=
  { t with state := state }

/-- `attempt < maxAttempts`. -/
def Transport.mayRetry (opts : Options) (t : Transport) : Bool :=
  match opts.reconnect with
  | none => false
  | some r => r.maxAttempts.all fun m => t.attempt < m

/-- Decide between reconnecting and closing for good. -/
def Transport.afterDisconnect (opts : Options) (t : Transport) (err : TransportError) :
    Transport :=
  if t.closedByUser then t
  else if t.mayRetry opts then
    { t.setState .connecting with attempt := t.attempt + 1, reconnectTimer := true }
  else (t.failAll err).setState .closed

/-- A call, accepted or not; `refusal` is what it rejects with when there was no error yet. -/
def Transport.enqueue (opts : Options) (t : Transport) (refusal : TransportError)
    (payload : Bytes) (timeoutMs : Option (Option ℕ)) : Transport :=
  if t.closedByUser ∨ t.state = .closed then
    { t with calls := t.calls + 1,
             log := t.log ++ [.rejected t.calls (t.lastError.getD refusal)] }
  else
    let p := ⟨t.calls, 0, payload, timeoutMs.getD opts.defaultTimeoutMs, false⟩
    { t with calls := t.calls + 1, queue := t.queue ++ [p], log := t.log ++ [.queued t.calls] }

/-! ### The request in flight -/

/-- The head of the queue goes out; `encode` is what the socket is given of it. -/
def Transport.issue (t : Transport) (p : Pending) (rest : List Pending)
    (encode : ℕ → Bytes → Bytes) : Transport :=
  let (id, next) := allocId t.staleIds t.nextId
  { t with queue := rest, nextId := next,
           inFlight := some { p with id := id, timer := p.timeoutMs.any (0 < ·) },
           log := t.log ++ [.sent p.number id (encode id p.payload)] }

/-- A frame with an id: the reply to the request in flight, or one that is dropped. -/
def Transport.receive (t : Transport) (pump : Transport → Transport) (id : ℕ)
    (payload : Bytes) : Transport :=
  match t.inFlight with
  | some p =>
    if p.id = id then
      pump { t with inFlight := none, log := t.log ++ [.resolved p.number payload] }
    else { t with staleIds := t.staleIds.erase id }
  | none => { t with staleIds := t.staleIds.erase id }

/-- `toString(16)`. -/
def hex (n : ℕ) : String := String.ofList (Nat.toDigits 16 n)

def showMs : Option ℕ → String
  | none => "Infinity"
  | some ms => toString ms

def timeoutError (p : Pending) : TransportError :=
  ⟨.timeout, "request 0x" ++ hex p.id ++ " timed out after " ++ showMs p.timeoutMs ++ " ms"⟩

/-- The request in flight has timed out: its id is stale. -/
def Transport.expire (t : Transport) (p : Pending) : Transport :=
  { t with inFlight := none, staleIds := addStale t.staleIds p.id,
           log := t.log ++ [.rejected p.number (timeoutError p)] }

/-! ### The server -/

/-- The server answers a request that it was sent and has not answered. -/
def Transport.answer (t : Transport) (n : ℕ) (reply : Bytes) : Option Transport :=
  match (requests t.log).find? (·.1 = n) with
  | none => none
  | some (_, id) =>
    if n ∈ servedNumbers t.log then none
    else some { t with log := t.log ++ [.served n id reply] }

/-- A frame that may arrive: one that is malformed, or a reply of the server. -/
def arrives (log : List Event) (frame : Bytes) : Bool :=
  match splitReqBody frame with
  | .error _ => true
  | .ok (id, payload) => log.any fun
    | .served _ i r => i = id && r = payload
    | _ => false

lemma served_of_arrives {log : List Event} {frame : Bytes} {id : ℕ} {payload : Bytes}
    (h : arrives log frame = true) (hframe : splitReqBody frame = .ok (id, payload)) :
    ∃ n, .served n id payload ∈ log := by
  rw [arrives, hframe] at h
  obtain ⟨e, he, hmatch⟩ := List.any_eq_true.mp h
  cases e with
  | served n i r =>
    obtain ⟨rfl, rfl⟩ : i = id ∧ r = payload := by simpa using hmatch
    exact ⟨n, he⟩
  | _ => simp at hmatch

/-! ### The loop of `allocId` -/

lemma iterate_succId {next : ℕ} (hnext : 1 ≤ next) (h : next ≤ 0x7fffffff) (k : ℕ) :
    succId^[k] next = (next - 1 + k) % 0x7fffffff + 1 := by
  induction k with
  | zero =>
    rw [Function.iterate_zero, id]
    omega
  | succ k ih =>
    rw [Function.iterate_succ_apply', succId]
    omega

lemma stale_of_allocLoop {staleIds : List ℕ} {fuel next : ℕ}
    (h : (allocLoop staleIds fuel next).1 ∈ staleIds) :
    ∀ k ≤ fuel, requestId (succId^[k] next) ∈ staleIds := by
  induction fuel generalizing next with
  | zero =>
    intro k hk
    obtain rfl : k = 0 := by omega
    exact h
  | succ fuel ih =>
    rw [allocLoop] at h
    split_ifs at h with hmem
    · intro k hk
      cases k with
      | zero => exact hmem
      | succ k => exact ih h k (by omega)
    · exact absurd h hmem

lemma allocId_of_not_stale {staleIds : List ℕ} {next : ℕ} (h : next < 0x7fffffff)
    (hstale : REQ_ID_FLAG + next ∉ staleIds) :
    allocId staleIds next = (REQ_ID_FLAG + next, next + 1) := by
  have hid : requestId next = REQ_ID_FLAG + next := by
    rw [requestId, Nat.mod_eq_of_lt (by omega)]
  have hsucc : succId next = next + 1 := by rw [succId, Nat.mod_eq_of_lt h]
  rw [allocId]
  cases staleIds.length with
  | zero => rw [allocLoop, hid, hsucc]
  | succ fuel => rw [allocLoop, hid, if_neg hstale, hsucc]

/-! ### The calls of a transport -/

def Transport.ledger (t : Transport) : Ledger Bytes Bytes TransportError where
  calls := t.calls
  queue := t.queue.map (·.number)
  slot := t.inFlight.map fun p => (p.number, p.id)
  nextId := t.nextId
  staleIds := t.staleIds
  shut := t.closedByUser || t.state = .closed
  log := t.log

/-- Between two states, only what may happen to calls has happened to them. -/
def Goes (t t' : Transport) : Prop := Moves REQ_ID_FLAG 0x7fffffff t.ledger t'.ledger

section Goes

variable {t u v : Transport}

@[refl] lemma Goes.refl (t : Transport) : Goes t t := Relation.ReflTransGen.refl

@[trans] lemma Goes.trans (h : Goes t u) (h' : Goes u v) : Goes t v :=
  Relation.ReflTransGen.trans h h'

lemma Goes.single (h : Move REQ_ID_FLAG 0x7fffffff t.ledger u.ledger) : Goes t u :=
  Relation.ReflTransGen.single h

lemma Goes.of_eq (h : u.ledger = t.ledger) : Goes t u := by rw [Goes, h]

lemma Goes.after (h' : Goes u v) (h : u.ledger = t.ledger) : Goes t v := (Goes.of_eq h).trans h'

lemma Goes.arrives (h : Goes t u) {frame : Bytes}
    (hframe : arrives t.log frame = true) : arrives u.log frame = true := by
  obtain ⟨es, hes⟩ := log_prefix_of_moves h
  have hlog : u.log = t.log ++ es := hes.symm
  unfold NngTransport.arrives at hframe ⊢
  cases hsplit : splitReqBody frame with
  | error _ => rfl
  | ok r =>
    rw [hsplit] at hframe
    simp [hlog, List.any_append, hframe, Bool.true_or]

end Goes

variable {t : Transport}

lemma rejectInFlight_goes (t : Transport) (err : TransportError) :
    Goes t (t.rejectInFlight err) := by
  unfold Transport.rejectInFlight
  split
  case h_1 => exact .refl _
  case h_2 p hp => exact .single (.reject p.number p.id err (by simp [Transport.ledger, hp]))

lemma inFlight_rejectInFlight (t : Transport) (err : TransportError) :
    (t.rejectInFlight err).inFlight = none := by
  unfold Transport.rejectInFlight
  split
  case h_1 h => exact h
  case h_2 => rfl

lemma failAll_goes (t : Transport) (err : TransportError) : Goes t (t.failAll err) := by
  refine (rejectInFlight_goes t err).trans (.single (.clear err ?_))
  simp [Transport.ledger, inFlight_rejectInFlight]

lemma failAll_empty (t : Transport) (err : TransportError) :
    (t.failAll err).ledger.slot = none ∧ (t.failAll err).ledger.queue = [] := by
  simp [Transport.failAll, Transport.ledger, inFlight_rejectInFlight]

lemma setState_goes (t : Transport) (state : TransportState)
    (h : state ≠ .closed ∨ t.ledger.slot = none ∧ t.ledger.queue = []) :
    Goes t (t.setState state) := by
  refine .single (.mark (t.closedByUser || state = .closed) fun hshut => ?_)
  rcases h with h | h
  · simp only [h, decide_false, Bool.or_false] at hshut
    exact Or.inl (by simp [Transport.ledger, hshut])
  · exact Or.inr h

lemma afterDisconnect_goes (opts : Options) (t : Transport) (err : TransportError) :
    Goes t (t.afterDisconnect opts err) := by
  unfold Transport.afterDisconnect
  split_ifs
  · exact .refl _
  · exact setState_goes t .connecting (Or.inl (by simp))
  · exact (failAll_goes t err).trans (setState_goes _ .closed (Or.inr (failAll_empty t err)))

lemma enqueue_goes (opts : Options) (t : Transport) (refusal : TransportError) (payload : Bytes)
    (timeoutMs : Option (Option ℕ)) : Goes t (t.enqueue opts refusal payload timeoutMs) := by
  unfold Transport.enqueue
  split_ifs with h
  · exact .single (.refuse _)
  · refine .single ?_
    have hshut : t.ledger.shut = false := by
      simpa [Transport.ledger] using h
    simpa [Transport.ledger] using Move.enqueue hshut

lemma issue_goes {p : Pending} {rest : List Pending} (hslot : t.inFlight = none)
    (hqueue : t.queue = p :: rest) (encode : ℕ → Bytes → Bytes) :
    Goes t (t.issue p rest encode) := by
  refine .single (.send p.number (rest.map (·.number)) _ _ _ ?_ ?_ fun hnext hstale => ?_)
  · simp [Transport.ledger, hslot]
  · simp [Transport.ledger, hqueue]
  · have h := allocId_of_not_stale hnext hstale
    exact ⟨congrArg Prod.fst h, congrArg Prod.snd h⟩

lemma addStale_subset (staleIds : List ℕ) (id : ℕ) : addStale staleIds id ⊆ id :: staleIds := by
  intro i hi
  have hadded : i ∈ if id ∈ staleIds then staleIds else staleIds ++ [id] := by
    simp only [addStale] at hi
    generalize (if id ∈ staleIds then staleIds else staleIds ++ [id]) = added at hi ⊢
    split at hi
    · exact List.mem_of_mem_drop hi
    · exact hi
  split_ifs at hadded
  · exact List.mem_cons_of_mem _ hadded
  · rcases List.mem_append.mp hadded with h | h
    · exact List.mem_cons_of_mem _ h
    · exact List.mem_cons.mpr (Or.inl (List.mem_singleton.mp h))

lemma expire_goes {p : Pending} (h : t.inFlight = some p) : Goes t (t.expire p) :=
  .single (.timeout p.number p.id _ _ (by simp [Transport.ledger, h]) (addStale_subset _ _))

lemma receive_goes {pump : Transport → Transport} (hpump : ∀ t, Goes t (pump t)) {n id : ℕ}
    {payload : Bytes} (hserved : .served n id payload ∈ t.log) :
    Goes t (t.receive pump id payload) := by
  have hforget : Goes t { t with staleIds := t.staleIds.erase id } :=
    .single (.forget _ List.erase_subset)
  unfold Transport.receive
  split
  case h_2 => exact hforget
  case h_1 p hp =>
    split_ifs with hid
    · have hresolve : Goes t
          { t with inFlight := none, log := t.log ++ [.resolved p.number payload] } :=
        .single (.resolve p.number n p.id payload (by simp [Transport.ledger, hp])
          (hid ▸ hserved))
      exact hresolve.trans (hpump _)
    · exact hforget

lemma answer_goes {t' : Transport} {n : ℕ} {reply : Bytes} (h : t.answer n reply = some t') :
    Goes t t' := by
  unfold Transport.answer at h
  split at h
  case h_1 => cases h
  case h_2 m id hfind =>
    split_ifs at h with hserved
    cases h
    obtain rfl : m = n := by simpa using List.find?_some hfind
    exact .single (.serve m id reply (List.mem_of_find?_eq_some hfind) hserved)

/-! ### The law -/

/-- **What callers may rely on**: no call settles twice; all calls are settled once the transport
is closed; a call resolves with the reply of the server to that call; requests go out in the
order they were queued, one at a time. -/
structure Law (t : Transport) : Prop where
  settled_once : (settledNumbers t.log).Nodup
  closed_settled : t.state = .closed → ∀ n < t.calls, n ∈ settledNumbers t.log
  own_reply : ∀ n r, .resolved n r ∈ t.log → ∃ id, .served n id r ∈ t.log
  in_order : List.Sublist (sentNumbers t.log) (queuedNumbers t.log)
  queue_order : (queuedNumbers t.log).Pairwise (· < ·)
  one_in_flight : ∀ n ∈ sentNumbers t.log, ∀ m ∈ sentNumbers t.log,
    n ∉ settledNumbers t.log → m ∉ settledNumbers t.log → n = m

lemma law_of_goes (h : Goes .init t) (hids : (sentIds t.log).length < 0x7fffffff) : Law t := by
  have hs : Sound t.ledger := sound_new.moves h
  have hf : Fresh REQ_ID_FLAG t.ledger := fresh_new.moves sound_new h hids
  exact {
    settled_once := hs.settled_once
    closed_settled := fun hclosed n hn => hs.all_settled (by simp [Transport.ledger, hclosed]) hn
    own_reply := hf.own
    in_order := hs.in_order
    queue_order := hs.increasing
    one_in_flight := fun n hn m hm hn' hm' => hs.one_in_flight hn hn' hm hm' }

end FabPcb.NngTransport
