import FabPcb.NngIpc

/-!
`NngWsTransport`: requests over a web socket, a frame for each body, and the law that it and
`NngIpcTransport` keep.

The socket comes with the dial, but making it may throw, and so may each `send` on it; a step
that may send carries what is thrown.
-/

namespace FabPcb.NngWs

open Correlation NngFraming NngTransport Runs

def SP_WS_SUBPROTOCOL_REP0 : String := "rep.sp.nanomsg.org"

/-- Single exit point for "this connection is gone". -/
def onDisconnected (opts : Options) (t : Transport) (conn : Option ℕ) (err : TransportError) :
    Transport :=
  let t := if conn.any t.isCurrent then { t with conn := none } else t
  ({ t with lastError := some err }.rejectInFlight err).afterDisconnect opts err

/-- A dial that fails before there is a connection has none. -/
def onConnectFailure (opts : Options) (t : Transport) (conn : Option ℕ) (cause : Cause) :
    Transport :=
  if conn.all t.isCurrent then
    match cause with
    | .transport e => onDisconnected opts t conn e
    | .other m =>
      onDisconnected opts t conn ⟨.connect, "connect to " ++ opts.address ++ " failed: " ++ m⟩
  else t

/-- `created` is what `createWebSocket` throws. -/
def dial (opts : Options) (t : Transport) (created : Option Cause) : Transport :=
  if t.closedByUser then t
  else
    let t := t.setState .connecting
    match created with
    | some cause => onConnectFailure opts t none cause
    | none => { t with conn := some ⟨t.dials, true⟩, dials := t.dials + 1 }

/-- `fault` is what `ws.send` throws. -/
def pump (opts : Options) (fault : Option String) (t : Transport) : Transport :=
  if t.state ≠ .opened ∨ t.inFlight.isSome then t
  else
    match t.queue, t.conn with
    | p :: rest, some conn =>
      let t := t.issue p rest encodeReqBody
      match fault with
      | none => t
      | some m =>
        onDisconnected opts t (some conn.key)
          ⟨.closed, "send on " ++ opts.address ++ " failed: " ++ m⟩
    | _, _ => t

def send (opts : Options) (t : Transport) (payload : Bytes) (timeoutMs : Option (Option ℕ))
    (fault : Option String) : Transport :=
  pump opts fault (t.enqueue opts
    ⟨.closed, "transport to " ++ opts.address ++ " is closed"⟩ payload timeoutMs)

def close (opts : Options) (t : Transport) : Transport :=
  if t.closedByUser then t
  else
    let err := ⟨.closed, "transport to " ++ opts.address ++ " closed"⟩
    let t := { t with closedByUser := true, reconnectTimer := false, lastError := some err }
    let t := t.failAll err
    { t with conn := none }.setState .closed

/-- The timer of a dial. -/
def onConnectTimeout (opts : Options) (t : Transport) (c : ℕ) : Transport :=
  if t.isCurrent c ∧ t.state ≠ .opened then
    onConnectFailure opts t (some c) (.transport ⟨.connect, "connect to " ++ opts.address ++
      " timed out after " ++ toString opts.connectTimeoutMs ++ " ms"⟩)
  else t

/-- The `open` event. A runtime may not expose the subprotocol the server selected. -/
def onOpen (opts : Options) (t : Transport) (c : ℕ) (negotiated : Option String)
    (fault : Option String) : Transport :=
  if t.isCurrent c then
    if negotiated.all fun p => p = "" || p = SP_WS_SUBPROTOCOL_REP0 then
      pump opts fault ({ t with everOpened := true, attempt := 0 }.setState .opened)
    else
      onDisconnected opts t (some c) ⟨.protocol, opts.address ++ " negotiated subprotocol '" ++
        negotiated.getD "" ++ "', expected '" ++ SP_WS_SUBPROTOCOL_REP0 ++ "'"⟩
  else t

/-- The `error` event; a `close` follows. -/
def onError (opts : Options) (t : Transport) (c : ℕ) (message : Option String) : Transport :=
  if t.isCurrent c then
    { t with lastError := some ⟨if t.state = .opened then .closed else .connect,
        opts.address ++ ": " ++ message.getD "WebSocket error"⟩ }
  else t

/-- The `close` event. -/
def onClose (opts : Options) (t : Transport) (c : ℕ) (code : ℕ) (reason : String) : Transport :=
  if t.isCurrent c then
    let detail :=
      if code = 0 then ""
      else " (code " ++ toString code ++ (if reason = "" then "" else ": " ++ reason) ++ ")"
    onDisconnected opts t (some c)
      (if t.everOpened then
        ⟨.closed, "WebSocket " ++ opts.address ++ " closed by peer" ++ detail⟩
      else ⟨.connect, "WebSocket " ++ opts.address ++ " closed before it opened" ++ detail⟩)
  else t

/-- What a frame carries: text, something `toBytes` does not read, or bytes. -/
inductive Data where
  | text
  | unreadable
  | binary (frame : Bytes)

def onFrame (opts : Options) (t : Transport) (c : ℕ) (data : Data) (fault : Option String) :
    Transport :=
  if t.isCurrent c then
    match data with
    | .text => t
    | .unreadable => t
    | .binary frame =>
      if frame.length > opts.maxFrameBytes then
        onDisconnected opts t (some c) ⟨.protocol, "reply frame of " ++ toString frame.length ++
          " bytes exceeds limit " ++ toString opts.maxFrameBytes⟩
      else
        match splitReqBody frame with
        | .error _ => t
        | .ok (id, payload) => t.receive (pump opts fault) id payload
  else t

/-- The timer of call `n`. -/
def onRequestTimeout (opts : Options) (t : Transport) (n : ℕ) (fault : Option String) :
    Transport :=
  match t.inFlight with
  | none => t
  | some p =>
    if p.number = n then
      let t := t.expire p
      match opts.onTimeout with
      | .keep => pump opts fault t
      | .reconnect =>
        match t.conn with
        | none => t
        | some conn =>
          onDisconnected opts t (some conn.key)
            ⟨.closed, "WebSocket " ++ opts.address ++ " dropped after request timeout"⟩
    else t

/-! ### Steps -/

inductive Action where
  | send (payload : Bytes) (timeoutMs : Option (Option ℕ)) (fault : Option String)
  | close
  | opened (c : ℕ) (negotiated : Option String) (fault : Option String)
  | connectTimeout (c : ℕ)
  | error (c : ℕ) (message : Option String)
  | closed (c : ℕ) (code : ℕ) (reason : String)
  | message (c : ℕ) (data : Data) (fault : Option String)
  | timeout (n : ℕ) (fault : Option String)
  | redial (created : Option Cause)
  | answer (n : ℕ) (reply : Bytes)

/-- A transport dials as it is made. -/
def new (opts : Options) (created : Option Cause) : Transport := dial opts .init created

/-- A frame of bytes is malformed or a reply of the server. -/
def Data.arrives (log : List Event) : Data → Bool
  | .binary frame => NngTransport.arrives log frame
  | _ => true

def step (opts : Options) (t : Transport) : Action → Option Transport
  | .send payload timeoutMs fault => some (send opts t payload timeoutMs fault)
  | .close => some (close opts t)
  | .opened c negotiated fault => some (onOpen opts t c negotiated fault)
  | .connectTimeout c => some (onConnectTimeout opts t c)
  | .error c message => some (onError opts t c message)
  | .closed c code reason => some (onClose opts t c code reason)
  | .message c data fault =>
    if data.arrives t.log then some (onFrame opts t c data fault) else none
  | .timeout n fault =>
    if t.inFlight.all fun p => p.number ≠ n || p.timer then
      some (onRequestTimeout opts t n fault)
    else none
  | .redial created =>
    if t.reconnectTimer then some (dial opts { t with reconnectTimer := false } created)
    else none
  | .answer n reply => t.answer n reply

/-! ### What happens to calls -/

variable {opts : Options} {t t' : Transport}

lemma onDisconnected_goes (opts : Options) (t : Transport) (conn : Option ℕ)
    (err : TransportError) : Goes t (onDisconnected opts t conn err) := by
  refine .after ((rejectInFlight_goes _ err).trans (afterDisconnect_goes opts _ err)) ?_
  split_ifs <;> rfl

lemma onConnectFailure_goes (opts : Options) (t : Transport) (conn : Option ℕ) (cause : Cause) :
    Goes t (onConnectFailure opts t conn cause) := by
  unfold onConnectFailure
  split_ifs
  · cases cause with
    | transport e => exact onDisconnected_goes opts t conn e
    | other m => exact onDisconnected_goes opts t conn _
  · exact .refl _

lemma dial_goes (opts : Options) (t : Transport) (created : Option Cause) :
    Goes t (dial opts t created) := by
  unfold dial
  split_ifs
  · exact .refl _
  · have h := setState_goes t .connecting (Or.inl (by simp))
    cases created with
    | none => exact h.trans (.of_eq rfl)
    | some cause => exact h.trans (onConnectFailure_goes opts _ none cause)

lemma pump_goes (opts : Options) (fault : Option String) (t : Transport) :
    Goes t (pump opts fault t) := by
  unfold pump
  split_ifs with h
  · exact .refl _
  · split
    case h_1 p rest conn hqueue hconn =>
      have hissue := issue_goes (by simpa using (not_or.mp h).2) hqueue encodeReqBody
      cases fault with
      | none => exact hissue
      | some m => exact hissue.trans (onDisconnected_goes opts _ _ _)
    case h_2 => exact .refl _

lemma close_goes (opts : Options) (t : Transport) : Goes t (close opts t) := by
  unfold close
  split_ifs
  · exact .refl _
  · have h := (failAll_goes t ⟨.closed, "transport to " ++ opts.address ++ " closed"⟩).trans
      (setState_goes _ .closed (Or.inr (failAll_empty t _)))
    refine h.trans (.of_eq ?_)
    simp only [Transport.failAll, Transport.rejectInFlight, Transport.setState]
    cases h : t.inFlight <;> simp [Transport.ledger, h]

lemma onOpen_goes (opts : Options) (t : Transport) (c : ℕ) (negotiated fault : Option String) :
    Goes t (onOpen opts t c negotiated fault) := by
  unfold onOpen
  split_ifs
  · exact (setState_goes t .opened (Or.inl (by simp))).trans (.after (pump_goes opts fault _) rfl)
  · exact onDisconnected_goes opts t _ _
  · exact .refl _

lemma onFrame_goes {c : ℕ} {data : Data} (h : data.arrives t.log = true)
    (fault : Option String) : Goes t (onFrame opts t c data fault) := by
  unfold onFrame
  split_ifs
  · cases data with
    | text => exact .refl _
    | unreadable => exact .refl _
    | binary frame =>
      simp only
      split_ifs
      · exact onDisconnected_goes opts t _ _
      · split
        case h_1 => exact .refl _
        case h_2 id payload hframe =>
          obtain ⟨n, hn⟩ := served_of_arrives h hframe
          exact receive_goes (pump_goes opts fault) hn
  · exact .refl _

lemma onRequestTimeout_goes (opts : Options) (t : Transport) (n : ℕ) (fault : Option String) :
    Goes t (onRequestTimeout opts t n fault) := by
  unfold onRequestTimeout
  split
  case h_1 => exact .refl _
  case h_2 p hp =>
    split_ifs
    · refine (expire_goes hp).trans ?_
      cases opts.onTimeout with
      | keep => exact pump_goes opts fault _
      | reconnect =>
        simp only
        split
        · exact .refl _
        · exact onDisconnected_goes opts _ _ _
    · exact .refl _

/-- **A step does to calls only what may happen to them.** -/
theorem step_goes {a : Action} (h : step opts t a = some t') : Goes t t' := by
  cases a with
  | send payload timeoutMs fault =>
    cases h
    exact (enqueue_goes opts t _ payload timeoutMs).trans (pump_goes opts fault _)
  | close => cases h; exact close_goes opts t
  | opened c negotiated fault => cases h; exact onOpen_goes opts t c negotiated fault
  | connectTimeout c =>
    cases h
    unfold onConnectTimeout
    split_ifs
    · exact onConnectFailure_goes opts t _ _
    · exact .refl _
  | error c message =>
    cases h
    refine .of_eq ?_
    unfold onError
    split_ifs <;> rfl
  | closed c code reason =>
    cases h
    unfold onClose
    split
    · exact onDisconnected_goes opts t _ _
    · exact .refl _
  | message c data fault =>
    simp only [step] at h
    split_ifs at h with hdata
    cases h
    exact onFrame_goes hdata fault
  | timeout n fault =>
    simp only [step] at h
    split_ifs at h
    cases h
    exact onRequestTimeout_goes opts t n fault
  | redial created =>
    simp only [step] at h
    split_ifs at h
    cases h
    exact .after (dial_goes opts _ created) rfl
  | answer n reply => exact answer_goes h

lemma run_goes {created : Option Cause} {as : List Action}
    (h : run (step opts) (new opts created) as = some t) : Goes .init t :=
  invariant_run (fun t => Goes .init t) (fun _ _ _ hs hstep => hs.trans (step_goes hstep))
    (dial_goes opts _ created) h

/-! ### The law of both transports -/

/-- **Correlation**: in every run with fewer than `2^31 - 1` requests, whatever comes of the
connections, both transports keep the law. -/
theorem correlation (opts : Options) :
    (∀ as t, run (NngIpc.step opts) NngIpc.new as = some t →
      (sentIds t.log).length < 2 ^ 31 - 1 → Law t) ∧
    ∀ created as t, run (step opts) (new opts created) as = some t →
      (sentIds t.log).length < 2 ^ 31 - 1 → Law t :=
  ⟨fun _ _ hrun hids => law_of_goes (NngIpc.run_goes hrun) hids,
    fun _ _ _ hrun hids => law_of_goes (run_goes hrun) hids⟩

/-- A transport on `a`. -/
def onA : Options := { address := "a" }

/-- A request times out, and the late reply to it comes with the reply to the next one. -/
def lateIpc : List NngIpc.Action :=
  [.connected 0, .data 0 (.ok (true, [])), .send [1] none, .send [2] none, .timeout 0,
    .answer 0 [7], .answer 1 [8],
    .data 0 (.ok (true, [encodeReqBody (REQ_ID_FLAG + 1) [7]])),
    .data 0 (.ok (true, [encodeReqBody (REQ_ID_FLAG + 2) [8]]))]

/-- The same over a web socket, with a third request whose `ws.send` throws. -/
def lateWs : List Action :=
  [.opened 0 none none, .send [1] none none, .send [2] none none, .timeout 0 none,
    .answer 0 [7], .answer 1 [8],
    .message 0 (.binary (encodeReqBody (REQ_ID_FLAG + 1) [7])) none,
    .message 0 (.binary (encodeReqBody (REQ_ID_FLAG + 2) [8])) none,
    .send [3] none (some "closing")]

def endIpc : Transport := (run (NngIpc.step onA) NngIpc.new lateIpc).getD .init

def endWs : Transport := (run (step onA) (new onA none) lateWs).getD .init

/-- The second call resolves with its own reply, and the law holds. -/
theorem correlation_late :
    settledNumbers endIpc.log = [0, 1] ∧ Law endIpc ∧
      settledNumbers endWs.log = [0, 1, 2] ∧ endWs.state = .closed ∧ Law endWs :=
  ⟨rfl, (correlation onA).1 lateIpc endIpc rfl (by decide), rfl, rfl,
    (correlation onA).2 none lateWs endWs rfl (by decide)⟩

end FabPcb.NngWs
