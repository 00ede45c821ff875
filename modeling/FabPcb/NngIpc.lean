import FabPcb.NngTransport
import FabPcb.Runs

/-!
`NngIpcTransport`: requests over a unix socket.

A step is a call, or one callback of the socket or of a timer. What the frame parser makes of
a chunk is what the step carries: an error, or the bodies it completes with whether the
handshake is done.
-/

namespace FabPcb.NngIpc

open Correlation NngFraming NngTransport Runs

/-- The `ipc://` prefix is accepted and stripped. -/
def path (opts : Options) : String :=
  if opts.address.startsWith "ipc://" then (opts.address.drop 6).toString else opts.address

def dial (t : Transport) : Transport :=
  if t.closedByUser then t
  else { t.setState .connecting with conn := some ⟨t.dials, false⟩, dials := t.dials + 1 }

/-- `Bun.connect` resolves. A connection that is not the current one by then is ended. -/
def connected (t : Transport) (c : ℕ) : Transport :=
  if t.isCurrent c then { t with conn := some ⟨c, true⟩ } else t

def pump (t : Transport) : Transport :=
  if t.state ≠ .opened ∨ t.inFlight.isSome then t
  else
    match t.queue, t.conn with
    | p :: rest, some conn =>
      if conn.sock then
        t.issue p rest fun id payload => encodeNngFrame (encodeReqBody id payload)
      else t
    | _, _ => t

def send (opts : Options) (t : Transport) (payload : Bytes) (timeoutMs : Option (Option ℕ)) :
    Transport :=
  pump (t.enqueue opts ⟨.closed, "transport to " ++ path opts ++ " is closed"⟩ payload timeoutMs)

def close (opts : Options) (t : Transport) : Transport :=
  if t.closedByUser then t
  else
    let t := { t with closedByUser := true, reconnectTimer := false }
    let t := t.failAll ⟨.closed, "transport to " ++ path opts ++ " closed"⟩
    { t with conn := none }.setState .closed

def onConnectFailure (opts : Options) (t : Transport) (c : ℕ) (cause : Cause) : Transport :=
  if t.isCurrent c then
    let err :=
      match cause with
      | .transport e => e
      | .other m => ⟨.connect, "connect to " ++ path opts ++ " failed: " ++ m⟩
    { t with conn := none, lastError := some err }.afterDisconnect opts err
  else t

/-- The timer of a dial. -/
def onConnectTimeout (opts : Options) (t : Transport) (c : ℕ) : Transport :=
  if t.isCurrent c ∧ t.state ≠ .opened then
    onConnectFailure opts t c
      (.transport ⟨.connect, "connect to " ++ path opts ++ " timed out"⟩)
  else t

def onSocketClosed (opts : Options) (t : Transport) (c : ℕ) (cause : Option String) :
    Transport :=
  if t.isCurrent c then
    let err : TransportError :=
      if t.everOpened then
        ⟨.closed, "socket " ++ path opts ++ " closed by peer" ++ (cause.map (": " ++ ·)).getD ""⟩
      else ⟨.connect, "socket " ++ path opts ++ " closed during handshake"⟩
    ({ t with conn := none, lastError := some err }.rejectInFlight err).afterDisconnect opts err
  else t

def onMessage (t : Transport) (body : Bytes) : Transport :=
  match splitReqBody body with
  | .error _ => t
  | .ok (id, payload) => t.receive pump id payload

/-- What the parser made of a chunk. -/
abbrev Chunk := Except TransportError (Bool × List Bytes)

def onData (opts : Options) (t : Transport) (c : ℕ) (chunk : Chunk) : Transport :=
  if t.isCurrent c then
    match chunk with
    | .error err =>
      ({ t with conn := none, lastError := some err }.rejectInFlight err).afterDisconnect opts err
    | .ok (handshaken, bodies) =>
      let t :=
        if t.state = .connecting ∧ handshaken then
          pump ({ t with everOpened := true, attempt := 0 }.setState .opened)
        else t
      bodies.foldl onMessage t
  else t

/-- The timer of call `n`. -/
def onRequestTimeout (opts : Options) (t : Transport) (n : ℕ) : Transport :=
  match t.inFlight with
  | none => t
  | some p =>
    if p.number = n then
      let t := t.expire p
      match opts.onTimeout with
      | .keep => pump t
      | .reconnect =>
        let err := ⟨.closed, "socket " ++ path opts ++ " dropped after request timeout"⟩
        let dropped := { t with conn := none, lastError := some err }
        if t.conn.isSome then dropped.afterDisconnect opts err else dropped
    else t

/-! ### Steps -/

inductive Action where
  | send (payload : Bytes) (timeoutMs : Option (Option ℕ))
  | close
  | connected (c : ℕ)
  | connectFailed (c : ℕ) (cause : Cause)
  | connectTimeout (c : ℕ)
  | socketClosed (c : ℕ) (cause : Option String)
  | data (c : ℕ) (chunk : Chunk)
  | timeout (n : ℕ)
  | redial
  | answer (n : ℕ) (reply : Bytes)

/-- A transport dials as it is made. -/
def new : Transport := dial .init

def step (opts : Options) (t : Transport) : Action → Option Transport
  | .send payload timeoutMs => some (send opts t payload timeoutMs)
  | .close => some (close opts t)
  | .connected c => some (connected t c)
  | .connectFailed c cause => some (onConnectFailure opts t c cause)
  | .connectTimeout c => some (onConnectTimeout opts t c)
  | .socketClosed c cause => some (onSocketClosed opts t c cause)
  | .data c chunk =>
    match chunk with
    | .error _ => some (onData opts t c chunk)
    | .ok (_, bodies) => if bodies.all (arrives t.log) then some (onData opts t c chunk) else none
  | .timeout n =>
    if t.inFlight.all fun p => p.number ≠ n || p.timer then some (onRequestTimeout opts t n)
    else none
  | .redial => if t.reconnectTimer then some (dial { t with reconnectTimer := false }) else none
  | .answer n reply => t.answer n reply

/-! ### What happens to calls -/

variable {opts : Options} {t t' : Transport}

lemma pump_goes (t : Transport) : Goes t (pump t) := by
  unfold pump
  split_ifs with h
  · exact .refl _
  · split
    case h_1 p rest conn hqueue hconn =>
      split_ifs
      · exact issue_goes (by simpa using (not_or.mp h).2) hqueue _
      · exact .refl _
    case h_2 => exact .refl _

lemma dial_goes (t : Transport) : Goes t (dial t) := by
  unfold dial
  split_ifs
  · exact .refl _
  · exact setState_goes t .connecting (Or.inl (by simp))

lemma send_goes (opts : Options) (t : Transport) (payload : Bytes)
    (timeoutMs : Option (Option ℕ)) : Goes t (send opts t payload timeoutMs) :=
  (enqueue_goes opts t _ payload timeoutMs).trans (pump_goes _)

lemma close_goes (opts : Options) (t : Transport) : Goes t (close opts t) := by
  unfold close
  split_ifs
  · exact .refl _
  · have h := (failAll_goes t ⟨.closed, "transport to " ++ path opts ++ " closed"⟩).trans
      (setState_goes _ .closed (Or.inr (failAll_empty t _)))
    refine h.trans (Goes.of_eq ?_)
    simp only [Transport.failAll, Transport.rejectInFlight, Transport.setState]
    cases h : t.inFlight <;> simp [Transport.ledger, h]

lemma lost_goes (opts : Options) (t : Transport) (err : TransportError) :
    Goes t (({ t with conn := none, lastError := some err }.rejectInFlight err).afterDisconnect
      opts err) := by
  have h : Goes t { t with conn := none, lastError := some err } := Goes.of_eq rfl
  exact (h.trans (rejectInFlight_goes _ err)).trans (afterDisconnect_goes opts _ err)

lemma onConnectFailure_goes (opts : Options) (t : Transport) (c : ℕ) (cause : Cause) :
    Goes t (onConnectFailure opts t c cause) := by
  unfold onConnectFailure
  split_ifs
  · exact .after (afterDisconnect_goes opts _ _) rfl
  · exact .refl _

lemma onSocketClosed_goes (opts : Options) (t : Transport) (c : ℕ) (cause : Option String) :
    Goes t (onSocketClosed opts t c cause) := by
  unfold onSocketClosed
  split
  · exact lost_goes opts t _
  · exact .refl _

lemma onMessage_goes {body : Bytes} (h : arrives t.log body = true) :
    Goes t (onMessage t body) := by
  unfold onMessage
  split
  case h_1 => exact .refl _
  case h_2 id payload hbody =>
    obtain ⟨n, hn⟩ := served_of_arrives h hbody
    exact receive_goes pump_goes hn

lemma onMessages_goes {bodies : List Bytes} (h : ∀ body ∈ bodies, arrives t.log body = true) :
    Goes t (bodies.foldl onMessage t) := by
  induction bodies generalizing t with
  | nil => exact .refl _
  | cons body bodies ih =>
    have hbody := onMessage_goes (h body List.mem_cons_self)
    exact hbody.trans (ih fun b hb => hbody.arrives (h b (List.mem_cons_of_mem _ hb)))

lemma onData_goes {c : ℕ} {chunk : Chunk}
    (h : ∀ handshaken bodies, chunk = .ok (handshaken, bodies) →
      ∀ body ∈ bodies, arrives t.log body = true) : Goes t (onData opts t c chunk) := by
  unfold onData
  split_ifs
  · match chunk with
    | .error err => exact lost_goes opts t err
    | .ok (handshaken, bodies) =>
      have hopened : Goes t (if t.state = .connecting ∧ handshaken then
          pump ({ t with everOpened := true, attempt := 0 }.setState .opened) else t) := by
        split_ifs
        · exact (setState_goes t .opened (Or.inl (by simp))).trans
            (.after (pump_goes _) rfl)
        · exact .refl _
      exact hopened.trans (onMessages_goes fun body hbody =>
        hopened.arrives (h _ _ rfl body hbody))
  · exact .refl _

lemma onRequestTimeout_goes (opts : Options) (t : Transport) (n : ℕ) :
    Goes t (onRequestTimeout opts t n) := by
  unfold onRequestTimeout
  split
  case h_1 => exact .refl _
  case h_2 p hp =>
    split_ifs
    · refine (expire_goes hp).trans ?_
      cases opts.onTimeout with
      | keep => exact pump_goes _
      | reconnect =>
        simp only
        split_ifs
        · exact .after (afterDisconnect_goes opts _ _) rfl
        · exact Goes.of_eq rfl
    · exact .refl _

/-- **A step does to calls only what may happen to them.** -/
theorem step_goes {a : Action} (h : step opts t a = some t') : Goes t t' := by
  cases a with
  | send payload timeoutMs => cases h; exact send_goes opts t payload timeoutMs
  | close => cases h; exact close_goes opts t
  | connected c =>
    cases h
    refine Goes.of_eq ?_
    unfold connected
    split_ifs <;> rfl
  | connectFailed c cause => cases h; exact onConnectFailure_goes opts t c cause
  | connectTimeout c =>
    cases h
    unfold onConnectTimeout
    split_ifs
    · exact onConnectFailure_goes opts t c _
    · exact .refl _
  | socketClosed c cause => cases h; exact onSocketClosed_goes opts t c cause
  | data c chunk =>
    cases chunk with
    | error err => cases h; exact onData_goes (by simp)
    | ok r =>
      simp only [step] at h
      split_ifs at h with hbodies
      cases h
      refine onData_goes fun handshaken bodies hok body hbody => ?_
      cases hok
      exact List.all_eq_true.mp hbodies body hbody
  | timeout n =>
    simp only [step] at h
    split_ifs at h
    cases h
    exact onRequestTimeout_goes opts t n
  | redial =>
    simp only [step] at h
    split_ifs at h
    cases h
    exact .after (dial_goes _) rfl
  | answer n reply => exact answer_goes h

lemma run_goes {as : List Action} (h : run (step opts) new as = some t) : Goes .init t :=
  invariant_run (fun t => Goes .init t) (fun _ _ _ hs hstep => hs.trans (step_goes hstep))
    (dial_goes _) h

end FabPcb.NngIpc
