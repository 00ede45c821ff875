import FabPcb.Runs
import FabPcb.WebSocketTransport

/-!
The bridge and its WebSocket clients.

Sockets are keyed in the order they connect; at the other end of one is a `WebSocketTransport`
or any other client. Each direction of a socket is first in, first out. Requests are numbered,
which no party sees: a number says which request an answer is about. What KiCad answers is up
to the transport of the session, and comes in any order.
-/

namespace FabPcb.WsBridge

open NngFraming Runs WsBridgeProtocol
open NngTransport (TransportError TransportErrorCode Cause)
open SessionState (KiCadServerState)
open WebSocketTransport (Client)

/-- A message on its way to the bridge. -/
structure Frame where
  ws : ℕ
  number : ℕ
  message : Message

/-- A message on its way to a client, with the request that it answers. -/
structure Answer where
  ws : ℕ
  message : Message
  about : Option ℕ

/-- A request that the transport of the session has and has not answered. -/
structure Call where
  number : ℕ
  ws : ℕ
  id : ℕ
  request : Bytes

inductive Event where
  /-- A client gives a message to its socket. -/
  | sent (ws n : ℕ) (message : Message)
  | answered (n : ℕ) (result : Except Cause Bytes)
  /-- The bridge gives a message to a socket. -/
  | written (ws : ℕ) (message : Message) (about : Option ℕ)
  /-- The socket of a request is not open as its answer comes. -/
  | dropped (n : ℕ)

structure Bridge where
  sessionId : String
  kicadToken : Option String
  state : KiCadServerState
  error : Option String
  /-- There is a transport to KiCad, and it is open. -/
  transportOpen : Bool
  eventsState : BridgeEventsState
  /-- `session.clients`. -/
  clients : List ℕ
  /-- `ws.readyState === 1`. -/
  live : ℕ → Bool
  calls : List Call
  toServer : List Frame
  toClient : List Answer
  transports : ℕ → Option Client
  sockets : ℕ
  messages : ℕ
  log : List Event

def new (sessionId : String) : Bridge :=
  ⟨sessionId, none, .starting, none, false, .disconnected, [], fun _ => false, [], [], [],
    fun _ => none, 0, 0, []⟩

/-! ### The server -/

/-- `ws.send`; a socket that is not open takes nothing. -/
def write (b : Bridge) (k : ℕ) (m : Message) (about : Option ℕ) : Bridge :=
  if b.live k then
    { b with toClient := b.toClient ++ [⟨k, m, about⟩], log := b.log ++ [.written k m about] }
  else b

def sendControl (b : Bridge) (k : ℕ) (m : Control) (about : Option ℕ) : Bridge :=
  write b k (.text (.ok m)) about

def showState : KiCadServerState → String
  | .starting => "starting"
  | .running => "running"
  | .exited => "exited"
  | .failed => "failed"

/-- A request while KiCad is not running. -/
def closedMessage (b : Bridge) : String :=
  "KiCad server is " ++ showState b.state ++ (b.error.map (": " ++ ·)).getD ""

/-- The `open` handler. -/
def onOpen (b : Bridge) (k : ℕ) : Bridge :=
  let b := { b with clients := b.clients ++ [k] }
  sendControl b k (.hello b.sessionId b.kicadToken b.state (some b.eventsState)) none

/-- The `message` handler. -/
def onMessage (b : Bridge) (f : Frame) : Bridge :=
  match f.message with
  | .text (.error e) => sendControl b f.ws (.error none .badRequest e.message) none
  | .text (.ok (.ping t)) => sendControl b f.ws (.pong t) none
  | .text (.ok _) => b
  | .binary bytes =>
    match decodeWsFrame bytes with
    | .error e => sendControl b f.ws (.error none .badRequest e.message) none
    | .ok (id, payload) =>
      if b.state ≠ .running ∨ !b.transportOpen then
        sendControl b f.ws (.error (some id) (.transport .closed) (closedMessage b))
          (some f.number)
      else { b with calls := b.calls ++ [⟨f.number, f.ws, id, payload⟩] }

def errorCode : Cause → BridgeErrorCode
  | .transport e => .transport e.code
  | .other _ => .internal

def causeMessage : Cause → String
  | .transport e => e.message
  | .other m => m

/-- What the client of a request is told. -/
def answerFrame (id : ℕ) : Except Cause Bytes → Message
  | .ok reply => .binary (encodeWsFrame id reply)
  | .error e => .text (.ok (.error (some id) (errorCode e) (causeMessage e)))

/-- The promise of a call settles. -/
def onSettled (b : Bridge) (call : Call) (result : Except Cause Bytes) : Bridge :=
  let b := { b with calls := b.calls.eraseP (·.number = call.number),
                    log := b.log ++ [Event.answered call.number result] }
  if b.live call.ws then write b call.ws (answerFrame call.id result) (some call.number)
  else { b with log := b.log ++ [Event.dropped call.number] }

/-- A message to all clients of the session. -/
def toAll (b : Bridge) (m : Message) : Bridge :=
  b.clients.foldl (fun b k => write b k m none) b

def relayEvent (b : Bridge) (event : Bytes) : Bridge := toAll b (.binary (encodeEventFrame event))

/-- The `close` handler. -/
def onClose (b : Bridge) (k : ℕ) : Bridge :=
  { b with live := Function.update b.live k false, clients := b.clients.filter (· ≠ k) }

/-! ### The clients -/

def setClient (b : Bridge) (k : ℕ) (c : Client) : Bridge :=
  { b with transports := Function.update b.transports k (some c) }

/-- A client gives a message to its socket. -/
def post (b : Bridge) (k n : ℕ) (m : Message) : Bridge :=
  { b with toServer := b.toServer ++ [⟨k, n, m⟩], log := b.log ++ [.sent k n m] }

/-- A message with a number of its own. -/
def postNew (b : Bridge) (k : ℕ) (m : Message) : Bridge :=
  post { b with messages := b.messages + 1 } k b.messages m

/-- A client after `send` or the rest of it, with the frame that it gives to the socket. -/
def afterSend (b : Bridge) (k n : ℕ) : Client × Option Bytes → Bridge
  | (c, none) => setClient b k c
  | (c, some frame) => post (setClient b k c) k n (.binary frame)

def deliver (b : Bridge) (a : Answer) : Bridge :=
  match b.transports a.ws with
  | none => b
  | some c =>
    let (c, pong) := WebSocketTransport.onMessage c a.message
    match pong with
    | none => setClient b a.ws c
    | some m => postNew (setClient b a.ws c) a.ws (.text (.ok m))

/-! ### Steps -/

inductive Action where
  /-- A client connects: a `WebSocketTransport`, with its URL and default timeout, or another. -/
  | connect (client : Option (String × Option ℕ))
  | disconnect (k : ℕ)
  /-- The first message of socket `k` reaches the bridge. -/
  | arrive (k : ℕ)
  | settle (n : ℕ) (result : Except Cause Bytes)
  | event (bytes : Bytes)
  /-- The session changes, and may tell all clients. -/
  | session (state : KiCadServerState) (error kicadToken : Option String) (transportOpen : Bool)
      (eventsState : BridgeEventsState) (tell : Bool)
  /-- Any client but a `WebSocketTransport` sends any message. -/
  | post (k : ℕ) (m : Message)
  /-- The first message for the client of socket `k` reaches it. -/
  | deliver (k : ℕ)
  | socketOpen (k : ℕ)
  | send (k : ℕ) (request : Bytes) (timeoutMs : Option (Option ℕ)) (failure : Option String)
  | resume (k n : ℕ) (failure : Option String)
  | timeout (k n : ℕ)
  | keepalive (k : ℕ) (t : Option ℕ)
  | close (k : ℕ)
  | connectTimeout (k ms : ℕ)
  | socketError (k : ℕ) (message : Option String)
  | socketClosed (k : ℕ) (code : Option ℕ) (reason : Option String)

/-- A client uses ids below the reserved one. -/
def unreserved : Message → Bool
  | .text _ => true
  | .binary bytes =>
    match decodeWsFrame bytes with
    | .error _ => true
    | .ok (id, _) => id ≠ WS_EVENT_FRAME_ID

def tellState (b : Bridge) : Bridge :=
  toAll (toAll b (.text (.ok (.serverState b.sessionId b.state (some b.kicadToken)))))
    (.text (.ok (.events b.sessionId b.eventsState)))

def step (b : Bridge) : Action → Option Bridge
  | .connect client =>
    some (onOpen { b with
      sockets := b.sockets + 1, live := Function.update b.live b.sockets true,
      transports := Function.update b.transports b.sockets
        (client.map fun c => Client.new c.1 c.2) } b.sockets)
  | .disconnect k => some (onClose b k)
  | .arrive k =>
    match b.toServer.find? (·.ws = k) with
    | none => none
    | some f =>
      if b.live k then
        some (onMessage { b with toServer := b.toServer.eraseP (·.ws = k) } f)
      else none
  | .settle n result =>
    match b.calls.find? (·.number = n) with
    | none => none
    | some call => some (onSettled b call result)
  | .event bytes => some (relayEvent b bytes)
  | .session state error kicadToken transportOpen eventsState tell =>
    let b := { b with state := state, error := error, kicadToken := kicadToken,
                      transportOpen := transportOpen, eventsState := eventsState }
    some (if tell then tellState b else b)
  | .post k m =>
    if k < b.sockets ∧ (b.transports k).isNone ∧ unreserved m then some (postNew b k m) else none
  | .deliver k =>
    match b.toClient.find? (·.ws = k) with
    | none => none
    | some a => some (deliver { b with toClient := b.toClient.eraseP (·.ws = k) } a)
  | .socketOpen k => (b.transports k).map fun c => setClient b k { c with socketOpen := true }
  | .send k request timeoutMs failure =>
    (b.transports k).bind fun c =>
      (WebSocketTransport.send c b.messages request timeoutMs failure).map
        (afterSend { b with messages := b.messages + 1 } k b.messages)
  | .resume k n failure =>
    (b.transports k).bind fun c =>
      (WebSocketTransport.resume c n failure).map (afterSend b k n)
  | .timeout k n =>
    (b.transports k).bind fun c => (WebSocketTransport.onTimeout c n).map (setClient b k)
  | .keepalive k t =>
    (b.transports k).bind fun c =>
      if c.state = .opened then some (postNew b k (.text (.ok (.ping t)))) else none
  | .close k => (b.transports k).map fun c => setClient b k (WebSocketTransport.close c)
  | .connectTimeout k ms =>
    (b.transports k).map fun c => setClient b k (WebSocketTransport.onConnectTimeout c ms)
  | .socketError k message =>
    (b.transports k).map fun c => setClient b k (WebSocketTransport.onError c message)
  | .socketClosed k code reason =>
    (b.transports k).map fun c => setClient b k (WebSocketTransport.onClose c code reason)

end FabPcb.WsBridge
