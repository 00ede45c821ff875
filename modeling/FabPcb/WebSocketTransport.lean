import FabPcb.OrderedMap
import FabPcb.WsBridgeProtocol

/-!
`WebSocketTransport`: requests to the bridge, any number of them in flight.

A call is known by a number that its caller has no part in. A function gives the transport
after it and what it hands to the socket.
-/

namespace FabPcb.WebSocketTransport

open NngFraming OrderedMap WsBridgeProtocol
open NngTransport (TransportError TransportErrorCode TransportState showMs)
open SessionState (KiCadServerState)

structure Pending where
  number : ℕ
  timeoutMs : Option ℕ
  timer : Bool

/-- A `send()` that awaits `ready()`. -/
structure Waiting where
  number : ℕ
  request : Bytes
  timeoutMs : Option ℕ

/-- What callers and listeners see. -/
inductive Event where
  | resolved (n : ℕ) (reply : Bytes)
  | rejected (n : ℕ) (err : TransportError)
  | event (bytes : Bytes)

structure Client where
  url : String
  defaultTimeoutMs : Option ℕ
  state : TransportState
  waiting : List Waiting
  pending : OMap ℕ Pending
  nextId : ℕ
  lastError : Option TransportError
  closedByUser : Bool
  socketOpen : Bool
  sessionId : Option String
  kicadToken : Option String
  serverState : Option KiCadServerState
  eventsState : BridgeEventsState
  log : List Event

def Client.new (url : String) (defaultTimeoutMs : Option ℕ) : Client :=
  ⟨url, defaultTimeoutMs, .connecting, [], .empty, 1, none, false, false, none, none, none,
    .disconnected, []⟩

def Client.closedError (c : Client) : TransportError :=
  c.lastError.getD ⟨.closed, "transport to " ++ c.url ++ " is closed"⟩

def Client.record (c : Client) (es : List Event) : Client := { c with log := c.log ++ es }

/-! ### Ids -/

/-- The counter wraps before the reserved id. -/
def succId (next : ℕ) : ℕ := if next ≥ WS_MAX_REQUEST_ID then 1 else next + 1

/-- Some turns of the loop of `allocId`. -/
def allocLoop (pending : OMap ℕ Pending) : ℕ → ℕ → Option (ℕ × ℕ)
  | 0, _ => none
  | fuel + 1, next =>
    if pending.has next then allocLoop pending fuel (succId next) else some (next, succId next)

/-- `allocId`: the id, and `nextId` after it. A loop that goes on past one turn for every id
pending goes on for good. -/
def allocId (pending : OMap ℕ Pending) (next : ℕ) : Option (ℕ × ℕ) :=
  allocLoop pending (pending.size + 1) next

/-! ### Sending -/

/-- The rest of `send` on an open transport; `failure` is what `ws.send` throws. -/
def transmit (c : Client) (w : Waiting) (failure : Option String) :
    Option (Client × Option Bytes) :=
  match allocId c.pending c.nextId with
  | none => none
  | some (id, next) =>
    let p := ⟨w.number, w.timeoutMs, w.timeoutMs.any (0 < ·)⟩
    let c := { c with nextId := next, pending := c.pending.set id p }
    match failure with
    | none => some (c, some (encodeWsFrame id w.request))
    | some m =>
      let err := ⟨.closed, "send on " ++ c.url ++ " failed: " ++ m⟩
      some ({ c with pending := c.pending.delete id }.record [.rejected w.number err], none)

def send (c : Client) (n : ℕ) (request : Bytes) (timeoutMs : Option (Option ℕ))
    (failure : Option String) : Option (Client × Option Bytes) :=
  let w := ⟨n, request, timeoutMs.getD c.defaultTimeoutMs⟩
  match c.state with
  | .connecting => some ({ c with waiting := c.waiting ++ [w] }, none)
  | .opened => transmit c w failure
  | .closed => some (c.record [.rejected n c.closedError], none)

/-- `send` goes on after `ready()`. -/
def resume (c : Client) (n : ℕ) (failure : Option String) : Option (Client × Option Bytes) :=
  match c.waiting.find? (·.number = n) with
  | none => none
  | some w =>
    let c' := { c with waiting := c.waiting.filter (·.number ≠ n) }
    match c.state with
    | .connecting => none
    | .opened => transmit c' w failure
    | .closed => some (c'.record [.rejected n c.closedError], none)

/-- The timer of call `n`, under its id. -/
def onTimeout (c : Client) (n : ℕ) : Option Client :=
  match c.pending.entries.find? fun e => e.2.number = n && e.2.timer with
  | none => none
  | some (id, p) =>
    let err := ⟨.timeout, "request " ++ toString id ++ " timed out after " ++
      showMs p.timeoutMs ++ " ms"⟩
    some ({ c with pending := c.pending.delete id }.record [.rejected n err])

/-! ### Closing -/

/-- `ready()` rejects for what still awaits it. -/
def finish (c : Client) : Client :=
  let err := c.closedError
  let rejections := c.pending.values.map fun (p : Pending) => Event.rejected p.number err
  let c := { c with pending := .empty, eventsState := .disconnected,
                    log := c.log ++ rejections }
  if c.state = .connecting then
    { c with state := .closed, waiting := [],
             log := c.log ++ c.waiting.map fun (w : Waiting) => Event.rejected w.number err }
  else { c with state := .closed }

def close (c : Client) : Client :=
  if c.closedByUser then c
  else
    finish { c with closedByUser := true,
                    lastError := some ⟨.closed, "transport to " ++ c.url ++ " closed"⟩ }

def onConnectTimeout (c : Client) (connectTimeoutMs : ℕ) : Client :=
  if c.state = .connecting then
    let err := ⟨.connect, "connect to " ++ c.url ++ " timed out after " ++
      toString connectTimeoutMs ++ " ms"⟩
    finish { c with lastError := some err }
  else c

/-- What a connection that is not open yet, or one that was, fails with. -/
def Client.lossCode (c : Client) : TransportErrorCode :=
  if c.state = .connecting then .connect else .closed

def onError (c : Client) (message : Option String) : Client :=
  { c with lastError := some ⟨c.lossCode, c.url ++ ": " ++ message.getD "WebSocket error"⟩ }

def onClose (c : Client) (code : Option ℕ) (reason : Option String) : Client :=
  let detail :=
    match code with
    | none => ""
    | some n => " (code " ++ toString n ++ (reason.map (": " ++ ·)).getD "" ++ ")"
  let err := ⟨c.lossCode, "WebSocket " ++ c.url ++ " closed" ++ detail⟩
  finish (if c.lastError.isNone ∨ c.state = .opened then { c with lastError := some err } else c)

/-! ### Messages -/

def mapErrorCode : BridgeErrorCode → TransportErrorCode
  | .transport code => code
  | _ => .protocol

/-- A reply is for the call pending under its id. -/
def onReply (c : Client) (id : ℕ) (payload : Bytes) : Client :=
  match c.pending.get? id with
  | none => c
  | some p =>
    { c with pending := c.pending.delete id }.record [.resolved p.number payload]

def onBridgeError (c : Client) (id : Option ℕ) (code : BridgeErrorCode) (message : String) :
    Client :=
  match id with
  | none => c
  | some id =>
    match c.pending.get? id with
    | none => c
    | some p =>
      let err := ⟨mapErrorCode code, "bridge: " ++ message⟩
      { c with pending := c.pending.delete id }.record [.rejected p.number err]

def onControlMessage (c : Client) : Control → Client × Option Control
  | .hello sessionId kicadToken serverState eventsState =>
    let c := { c with sessionId := some sessionId, kicadToken := kicadToken,
                      serverState := some serverState,
                      eventsState := eventsState.getD .disconnected }
    (if c.state = .connecting ∧ c.socketOpen then { c with state := .opened } else c, none)
  | .serverState _ state kicadToken =>
    ({ c with serverState := some state, kicadToken := kicadToken.getD c.kicadToken }, none)
  | .events _ state => ({ c with eventsState := state }, none)
  | .error id code message => (onBridgeError c id code message, none)
  | .ping t => (c, some (.pong t))
  | .pong _ => (c, none)

def onMessage (c : Client) : Message → Client × Option Control
  | .text (.error _) => (c, none)
  | .text (.ok m) => onControlMessage c m
  | .binary bytes =>
    match decodeWsFrame bytes with
    | .error _ => (c, none)
    | .ok (id, payload) =>
      if isEventFrame id then (c.record [.event payload], none) else (onReply c id payload, none)

/-! ### The loop of `allocId` -/

section Alloc

variable {pending : OMap ℕ Pending} {fuel next id next' : ℕ}

/-- The counter stays where requests may take their ids. -/
def InRange (id : ℕ) : Prop := 1 ≤ id ∧ id ≤ WS_MAX_REQUEST_ID

lemma inRange_one : InRange 1 := ⟨Nat.le_refl 1, by decide⟩

lemma inRange_succId (h : InRange next) : InRange (succId next) := by
  unfold InRange succId at *
  split_ifs <;> omega

lemma InRange.ne_reserved (h : InRange id) : id ≠ WS_EVENT_FRAME_ID := by
  unfold InRange WS_MAX_REQUEST_ID WS_EVENT_FRAME_ID at *
  omega

lemma InRange.lt (h : InRange id) : id < 2 ^ 32 := by
  unfold InRange WS_MAX_REQUEST_ID WS_EVENT_FRAME_ID at h
  omega

lemma allocLoop_spec (hnext : InRange next) (h : allocLoop pending fuel next = some (id, next')) :
    pending.has id = false ∧ InRange id ∧ InRange next' := by
  induction fuel generalizing next with
  | zero => cases h
  | succ fuel ih =>
    rw [allocLoop] at h
    split_ifs at h with hhas
    · exact ih (inRange_succId hnext) h
    · cases h
      exact ⟨Bool.not_eq_true _ ▸ hhas, hnext, inRange_succId hnext⟩

/-- **An id is neither pending nor reserved**, however often the counter has wrapped. -/
theorem allocId_spec (hnext : InRange next) (h : allocId pending next = some (id, next')) :
    pending.has id = false ∧ InRange id ∧ InRange next' :=
  allocLoop_spec hnext h

lemma iterate_succId (hnext : InRange next) (k : ℕ) :
    succId^[k] next = (next - 1 + k) % WS_MAX_REQUEST_ID + 1 := by
  unfold InRange at hnext
  induction k with
  | zero =>
    rw [Function.iterate_zero, id, Nat.mod_eq_of_lt (by omega)]
    omega
  | succ k ih =>
    rw [Function.iterate_succ_apply', succId]
    unfold WS_MAX_REQUEST_ID WS_EVENT_FRAME_ID at *
    split_ifs <;> omega

lemma pending_of_allocLoop (h : allocLoop pending fuel next = none) :
    ∀ k < fuel, succId^[k] next ∈ pending.keys := by
  induction fuel generalizing next with
  | zero => omega
  | succ fuel ih =>
    rw [allocLoop] at h
    split_ifs at h with hhas
    intro k hk
    cases k with
    | zero => exact OMap.mem_keys_iff_has.mpr hhas
    | succ k => exact ih h k (by omega)

/-- **The loop of `allocId` ends**, unless every id is pending. -/
theorem allocId_isSome (hnext : InRange next) (hsize : pending.size < WS_MAX_REQUEST_ID) :
    (allocId pending next).isSome = true := by
  by_contra hnone
  have hpending := pending_of_allocLoop (Option.not_isSome_iff_eq_none.mp hnone)
  have hinj : ∀ i ∈ List.range (pending.size + 1), ∀ j ∈ List.range (pending.size + 1),
      succId^[i] next = succId^[j] next → i = j := by
    intro i hi j hj hij
    rw [List.mem_range] at hi hj
    rw [iterate_succId hnext, iterate_succId hnext] at hij
    unfold WS_MAX_REQUEST_ID WS_EVENT_FRAME_ID at *
    omega
  have hnodup : ((List.range (pending.size + 1)).map fun k => succId^[k] next).Nodup :=
    List.Nodup.map_on hinj List.nodup_range
  have hsub : ((List.range (pending.size + 1)).map fun k => succId^[k] next) ⊆ pending.keys := by
    intro id hid
    obtain ⟨k, hk, rfl⟩ := List.mem_map.mp hid
    exact hpending k (List.mem_range.mp hk)
  have hle := (List.subperm_of_subset hnodup hsub).length_le
  rw [List.length_map, List.length_range, OMap.keys, List.length_map] at hle
  exact absurd hle (Nat.not_succ_le_self _)

lemma allocId_of_not_has (h : pending.has next = false) :
    allocId pending next = some (next, succId next) := by
  rw [allocId, allocLoop, h]
  rfl

end Alloc

/-! ### What a transport keeps -/

/-- Nothing new waits or is pending, and a call that resolves is one of those `told`. -/
structure Keeps (c c' : Client) (told : ℕ → Bytes → Prop) : Prop where
  waiting : c'.waiting ⊆ c.waiting
  range : InRange c.nextId → InRange c'.nextId
  pending : ∀ id p, c'.pending.get? id = some p → c.pending.get? id = some p
  resolved : ∀ n r, .resolved n r ∈ c'.log → .resolved n r ∈ c.log ∨ told n r

section Keeps

variable {c c' c'' : Client} {R : ℕ → Bytes → Prop}

lemma keeps_of_eq (hwaiting : c'.waiting = c.waiting) (hnext : c'.nextId = c.nextId)
    (hpending : c'.pending = c.pending) (hlog : c'.log = c.log) : Keeps c c' R where
  waiting := by rw [hwaiting]; exact List.Subset.refl _
  range := fun h => hnext ▸ h
  pending := fun id p h => hpending ▸ h
  resolved := fun n r h => Or.inl (hlog ▸ h)

lemma Keeps.after (h : Keeps c' c'' R) (hwaiting : c'.waiting = c.waiting)
    (hnext : c'.nextId = c.nextId) (hpending : c'.pending = c.pending) (hlog : c'.log = c.log) :
    Keeps c c'' R where
  waiting := hwaiting ▸ h.waiting
  range := fun hr => h.range (hnext ▸ hr)
  pending := fun id p hp => hpending ▸ h.pending id p hp
  resolved := fun n r hr => hlog ▸ h.resolved n r hr

lemma keeps_reject (c : Client) (id n : ℕ) (err : TransportError) :
    Keeps c ({ c with pending := c.pending.delete id }.record [.rejected n err]) R where
  waiting := List.Subset.refl _
  range := fun h => h
  pending := fun id' p h => by
    simp only [Client.record, OMap.get?_delete] at h
    split_ifs at h
    exact h
  resolved := fun n' r h => Or.inl (by simpa [Client.record] using h)

lemma onTimeout_keeps {n : ℕ} (h : onTimeout c n = some c') : Keeps c c' R := by
  unfold onTimeout at h
  split at h
  · cases h
  · cases h
    exact keeps_reject _ _ _ _

lemma finish_keeps (c : Client) : Keeps c (finish c) R := by
  unfold finish
  simp only
  split_ifs
  · exact ⟨List.nil_subset _, fun h => h, fun id p h => by simp at h,
      fun n r h => Or.inl (by simpa using h)⟩
  · exact ⟨List.Subset.refl _, fun h => h, fun id p h => by simp at h,
      fun n r h => Or.inl (by simpa using h)⟩

lemma close_keeps (c : Client) : Keeps c (close c) R := by
  unfold close
  split_ifs
  · exact keeps_of_eq rfl rfl rfl rfl
  · exact (finish_keeps _).after rfl rfl rfl rfl

lemma onConnectTimeout_keeps (c : Client) (ms : ℕ) : Keeps c (onConnectTimeout c ms) R := by
  unfold onConnectTimeout
  split_ifs
  · exact (finish_keeps _).after rfl rfl rfl rfl
  · exact keeps_of_eq rfl rfl rfl rfl

lemma onClose_keeps (c : Client) (code : Option ℕ) (reason : Option String) :
    Keeps c (onClose c code reason) R := by
  unfold onClose
  split_ifs
  · exact (finish_keeps _).after rfl rfl rfl rfl
  · exact finish_keeps c

lemma onControlMessage_keeps (c : Client) (m : Control) :
    Keeps c (onControlMessage c m).1 R := by
  cases m with
  | hello sessionId kicadToken serverState eventsState =>
    simp only [onControlMessage]
    split_ifs <;> exact keeps_of_eq rfl rfl rfl rfl
  | error id code message =>
    simp only [onControlMessage, onBridgeError]
    split
    · exact keeps_of_eq rfl rfl rfl rfl
    · split
      · exact keeps_of_eq rfl rfl rfl rfl
      · exact keeps_reject _ _ _ _
  | serverState sessionId state kicadToken => exact keeps_of_eq rfl rfl rfl rfl
  | events sessionId state => exact keeps_of_eq rfl rfl rfl rfl
  | ping t => exact keeps_of_eq rfl rfl rfl rfl
  | pong t => exact keeps_of_eq rfl rfl rfl rfl

/-- A frame that resolves a call: it carries the id that the call is pending under. -/
def Resolves (c : Client) (m : Message) (n : ℕ) (r : Bytes) : Prop :=
  ∃ bytes id p, m = .binary bytes ∧ decodeWsFrame bytes = .ok (id, r) ∧
    isEventFrame id = false ∧ c.pending.get? id = some p ∧ p.number = n

/-- **A message resolves a call only under the id that it is pending under.** -/
theorem onMessage_keeps (c : Client) (m : Message) :
    Keeps c (onMessage c m).1 (Resolves c m) := by
  unfold onMessage
  split
  · exact keeps_of_eq rfl rfl rfl rfl
  · exact onControlMessage_keeps c _
  case h_3 bytes =>
    split
    · exact keeps_of_eq rfl rfl rfl rfl
    case h_2 id payload hdecode =>
      split_ifs with hevent
      · exact ⟨List.Subset.refl _, fun h => h, fun _ _ h => h,
          fun n r h => Or.inl (by simpa [Client.record] using h)⟩
      · simp only [onReply]
        split
        · exact keeps_of_eq rfl rfl rfl rfl
        case h_2 p hp =>
          refine ⟨List.Subset.refl _, fun h => h, fun id' p' h => ?_, fun n r h => ?_⟩
          · simp only [Client.record, OMap.get?_delete] at h
            split_ifs at h
            exact h
          · simp only [Client.record, List.mem_append, List.mem_singleton,
              Event.resolved.injEq] at h
            refine h.imp_right fun hsame => ?_
            obtain ⟨hn, hr⟩ := hsame
            exact ⟨bytes, id, p, rfl, hr ▸ hdecode, Bool.not_eq_true _ ▸ hevent, hp, hn.symm⟩

/-- What `transmit` does: the call is rejected, or it is pending under a new id and its frame
goes out. -/
lemma transmit_cases {w : Waiting} {failure : Option String} {out : Option Bytes}
    (hrange : InRange c.nextId) (h : transmit c w failure = some (c', out)) :
    (out = none ∧ Keeps c c' R) ∨
    ∃ id p, failure = none ∧ out = some (encodeWsFrame id w.request) ∧
      (allocId c.pending c.nextId).map Prod.fst = some id ∧ c.pending.get? id = none ∧
      InRange id ∧ InRange c'.nextId ∧ c'.waiting = c.waiting ∧ p.number = w.number ∧
      c'.pending = c.pending.set id p ∧ c'.log = c.log := by
  unfold transmit at h
  split at h
  · cases h
  case h_2 id next halloc =>
    obtain ⟨hhas, hid, hnext⟩ := allocId_spec hrange halloc
    have hget : c.pending.get? id = none := OMap.has_eq_false_iff.mp hhas
    cases failure with
    | none =>
      cases h
      exact Or.inr ⟨id, _, rfl, rfl, by rw [halloc]; rfl, hget, hid, hnext, rfl, rfl, rfl, rfl⟩
    | some m =>
      cases h
      refine Or.inl ⟨rfl, List.Subset.refl _, fun _ => hnext, fun id' p h => ?_,
        fun n r h => Or.inl (by simpa [Client.record] using h)⟩
      simp only [Client.record, OMap.get?_delete, OMap.get?_set] at h
      split_ifs at h
      exact h

end Keeps

end FabPcb.WebSocketTransport
