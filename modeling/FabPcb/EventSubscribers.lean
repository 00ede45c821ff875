import FabPcb.FrameRoundTrip
import FabPcb.Runs
import Mathlib.Logic.Function.Basic

/-!
`NngIpcSubscriber` and `NngWsSubscriber`: events of the server, over a socket that is dialed again
when it is lost.

Dials are numbered. Callbacks know the dial they belong to, by the parser or the generation that
was made for it, and those of any other than the current one do nothing. Delays are not timed: a
timer that is armed may fire.
-/

namespace FabPcb.EventSubscribers

open NngFraming FrameParsers Runs
open FrameRoundTrip (take_fst bytes_append handshake_append buffered_eq)
open NngTransport (TransportState TransportError Cause)

def SP_PROTO_PUB0 : ℕ := 0x20

def SP_PROTO_SUB0 : ℕ := 0x21

def SP_WS_SUBPROTOCOL_PUB0 : String := "pub.sp.nanomsg.org"

structure ReconnectOptions where
  initialDelayMs : ℕ := 100
  maxDelayMs : ℕ := 5000
  /-- `none` for `Infinity`. -/
  maxAttempts : Option ℕ := none

/-- The address is a socket path or a URL. -/
structure Options where
  address : String
  connectTimeoutMs : ℕ := 5000
  reconnect : Option ReconnectOptions := none
  maxFrameBytes : ℕ := DEFAULT_MAX_FRAME_BYTES

/-- What listeners, the log and the socket see. -/
inductive Event where
  | state (state : TransportState) (error : Option TransportError)
  | message (c : ℕ) (body : Bytes)
  | logged (text : String)
  | written (c : ℕ) (bytes : Bytes)

/-- How far a dial has come. Its connection is live until it is ended. -/
inductive Phase where
  | unmade | dialing | live | ended | refused
  deriving DecidableEq

/-- `ρ` is the parser of a dial. -/
structure Subscriber (ρ : Type) where
  state : TransportState
  closedByUser : Bool
  lastError : Option TransportError
  attempt : ℕ
  /-- The delay of the dial that is to come. -/
  timer : Option ℕ
  /-- The dial whose callbacks count. -/
  current : Option (ℕ × ρ)
  sock : Option ℕ
  dials : ℕ
  phase : ℕ → Phase
  /-- The dials whose connect timers run. -/
  armed : ℕ → Bool
  events : List Event

namespace Subscriber

variable {ρ : Type}

/-- A subscriber that has not dialed yet. -/
def init : Subscriber ρ :=
  ⟨.connecting, false, none, 0, none, none, none, 0, fun _ => .unmade, fun _ => false, []⟩

def key (s : Subscriber ρ) : Option ℕ := s.current.map Prod.fst

/-- Listeners are told of a state when it changes. -/
def setState (s : Subscriber ρ) (state : TransportState) (error : Option TransportError) :
    Subscriber ρ :=
  { s with
    state := state
    events := if s.state = state then s.events else s.events ++ [.state state error] }

def setPhase (s : Subscriber ρ) (c : ℕ) (phase : Phase) : Subscriber ρ :=
  { s with phase := Function.update s.phase c phase }

def arm (s : Subscriber ρ) (c : ℕ) (armed : Bool) : Subscriber ρ :=
  { s with armed := Function.update s.armed c armed }

def emit (s : Subscriber ρ) (events : List Event) : Subscriber ρ :=
  { s with events := s.events ++ events }

/-- The socket is ended, if there is one. -/
def drop (s : Subscriber ρ) : Subscriber ρ :=
  { s with
    sock := none
    current := none
    phase := match s.sock with
      | none => s.phase
      | some c => Function.update s.phase c .ended }

def close (s : Subscriber ρ) : Subscriber ρ :=
  if s.closedByUser then s
  else ({ s with closedByUser := true, timer := none }.drop).setState .closed none

/-- The delay before the next dial, if there is one. -/
def redialDelay (opts : Options) (attempt : ℕ) : Option ℕ :=
  opts.reconnect.bind fun r =>
    if r.maxAttempts.all (attempt < ·) then some (min r.maxDelayMs (r.initialDelayMs * 2 ^ attempt))
    else none

/-- What follows a loss: another dial, or the end. -/
def retry (opts : Options) (err : TransportError) (s : Subscriber ρ) : Subscriber ρ :=
  if s.closedByUser then s
  else
    match redialDelay opts s.attempt with
    | some delay =>
      { s.setState .connecting (some err) with attempt := s.attempt + 1, timer := some delay }
    | none => s.setState .closed (some err)

def fail (opts : Options) (c : ℕ) (err : TransportError) (s : Subscriber ρ) : Subscriber ρ :=
  if s.key = some c then
    ({ s with lastError := some err }.emit [.logged err.message]).drop.retry opts err
  else s

/-- A dial begins: its parser counts from now on. -/
def begin (s : Subscriber ρ) (parser : ρ) (phase : Phase) : Subscriber ρ :=
  { (s.setState .connecting none).setPhase s.dials phase with
    current := some (s.dials, parser), dials := s.dials + 1 }

end Subscriber

/-! ### `NngIpcSubscriber` -/

namespace NngIpcSubscriber

abbrev Sub := Subscriber NngFrameParser

def parserOptions (opts : Options) : NngFrameParserOptions where
  expectPeerProto := some SP_PROTO_PUB0
  maxFrameBytes := opts.maxFrameBytes

def dial (s : Sub) : Sub :=
  if s.closedByUser then s else (s.begin .new .dialing).arm s.dials true

/-- `Bun.connect` has a socket. -/
def onConnected (s : Sub) (c : ℕ) : Sub :=
  if s.key ≠ some c ∨ s.closedByUser then (s.arm c false).setPhase c .ended
  else { s.setPhase c .live with sock := some c }

/-- `Bun.connect` throws. -/
def onConnectFailed (opts : Options) (s : Sub) (c : ℕ) (cause : Cause) : Sub :=
  let s := (s.arm c false).setPhase c .refused
  match cause with
  | .transport e => s.fail opts c e
  | .other m => s.fail opts c ⟨.connect, "connect to " ++ opts.address ++ " failed: " ++ m⟩

def onConnectTimeout (opts : Options) (s : Sub) (c : ℕ) : Sub :=
  let s := s.arm c false
  if s.key = some c ∧ s.state ≠ .opened then
    s.fail opts c ⟨.connect, "connect to " ++ opts.address ++ " timed out"⟩
  else s

def onData (opts : Options) (s : Sub) (c : ℕ) (chunk : Bytes) : Sub :=
  match s.current with
  | none => s
  | some (c', parser) =>
    if c' ≠ c then s
    else
      match parser.push (parserOptions opts) chunk with
      | .error e => s.fail opts c e
      | .ok (parser', bodies) =>
        let s := { s with current := some (c, parser') }
        let s :=
          if s.state = .connecting ∧ parser'.handshake.isSome then
            ({ s with attempt := 0 }.arm c false).setState .opened none
          else s
        s.emit (bodies.map (.message c))

/-- What a socket tells of its end. -/
inductive Loss where
  | close
  | error (text : String)
  | connectError (text : String)
  | «end»

def Loss.toError (opts : Options) : Loss → TransportError
  | .close => ⟨.closed, "events socket " ++ opts.address ++ " closed by peer"⟩
  | .error e => ⟨.closed, "events socket " ++ opts.address ++ " error: " ++ e⟩
  | .connectError e => ⟨.connect, "connect to " ++ opts.address ++ " failed: " ++ e⟩
  | .end => ⟨.closed, "events socket " ++ opts.address ++ " ended"⟩

inductive Action where
  | close
  | connected (c : ℕ)
  | connectFailed (c : ℕ) (cause : Cause)
  | connectTimeout (c : ℕ)
  | opened (c : ℕ)
  | data (c : ℕ) (chunk : Bytes)
  | lost (c : ℕ) (loss : Loss)
  | redial

/-- A dial returns once, a timer fires only when it is armed, and a socket may tell anything at any
time from its dial on. -/
def step (opts : Options) (s : Sub) : Action → Option Sub
  | .close => some s.close
  | .connected c => if s.phase c = .dialing then some (onConnected s c) else none
  | .connectFailed c cause =>
    if s.phase c = .dialing then some (onConnectFailed opts s c cause) else none
  | .connectTimeout c => if s.armed c then some (onConnectTimeout opts s c) else none
  | .opened c =>
    if c < s.dials then some (s.emit [.written c (encodeSpHandshake SP_PROTO_SUB0)]) else none
  | .data c chunk => if c < s.dials then some (onData opts s c chunk) else none
  | .lost c loss => if c < s.dials then some (s.fail opts c (loss.toError opts)) else none
  | .redial => if s.timer.isSome then some (dial { s with timer := none }) else none

/-- A subscriber dials as it is made. -/
def new : Sub := dial .init

end NngIpcSubscriber

/-! ### `NngWsSubscriber` -/

namespace NngWsSubscriber

abbrev Sub := Subscriber Unit

/-- `thrown` is what `createWebSocket` throws. -/
def dial (opts : Options) (thrown : Option String) (s : Sub) : Sub :=
  if s.closedByUser then s
  else
    match thrown with
    | some m =>
      (s.begin () .refused).fail opts s.dials
        ⟨.connect, "connect to " ++ opts.address ++ " failed: " ++ m⟩
    | none => { (s.begin () .live).arm s.dials true with sock := some s.dials }

def onConnectTimeout (opts : Options) (s : Sub) (c : ℕ) : Sub :=
  let s := s.arm c false
  if s.key = some c ∧ s.state ≠ .opened then
    s.fail opts c ⟨.connect, "connect to " ++ opts.address ++ " timed out after " ++
      toString opts.connectTimeoutMs ++ " ms"⟩
  else s

/-- A runtime may not expose the subprotocol the server selected. -/
def onOpen (opts : Options) (s : Sub) (c : ℕ) (negotiated : Option String) : Sub :=
  if s.key ≠ some c then s
  else
    let s := s.arm c false
    if negotiated.all fun p => p = "" || p = SP_WS_SUBPROTOCOL_PUB0 then
      { s with attempt := 0 }.setState .opened none
    else
      s.fail opts c ⟨.protocol, opts.address ++ " negotiated subprotocol '" ++
        negotiated.getD "" ++ "', expected '" ++ SP_WS_SUBPROTOCOL_PUB0 ++ "'"⟩

/-- What a frame carries: text, something of a type that `toBytes` does not read, or bytes. -/
inductive Data where
  | text
  | unreadable (type : String)
  | binary (body : Bytes)

def onMessage (opts : Options) (s : Sub) (c : ℕ) (data : Data) : Sub :=
  if s.key ≠ some c then s
  else
    match data with
    | .text => s.emit [.logged ("dropping unexpected text frame on " ++ opts.address)]
    | .unreadable type => s.emit [.logged ("dropping unreadable event frame: " ++
        "expected a binary WebSocket frame, got " ++ type)]
    | .binary body =>
      if body.length > opts.maxFrameBytes then
        s.fail opts c ⟨.protocol, "event frame of " ++ toString body.length ++
          " bytes exceeds limit " ++ toString opts.maxFrameBytes⟩
      else s.emit [.message c body]

/-- A `close` follows. -/
def onError (opts : Options) (s : Sub) (c : ℕ) (message : Option String) : Sub :=
  if s.key ≠ some c then s
  else s.emit [.logged (opts.address ++ ": " ++ message.getD "WebSocket error")]

def onClose (opts : Options) (s : Sub) (c : ℕ) (code : ℕ) (reason : String) : Sub :=
  if s.key ≠ some c then s
  else
    let s := s.arm c false
    let detail :=
      if code = 0 then ""
      else " (code " ++ toString code ++ (if reason = "" then "" else ": " ++ reason) ++ ")"
    s.fail opts c
      (if s.state = .opened then
        ⟨.closed, "events socket " ++ opts.address ++ " closed by peer" ++ detail⟩
      else ⟨.connect, "events socket " ++ opts.address ++ " closed before it opened" ++ detail⟩)

inductive Action where
  | close
  | connectTimeout (c : ℕ)
  | opened (c : ℕ) (negotiated : Option String)
  | message (c : ℕ) (data : Data)
  | error (c : ℕ) (message : Option String)
  | closed (c : ℕ) (code : ℕ) (reason : String)
  | redial (thrown : Option String)

def step (opts : Options) (s : Sub) : Action → Option Sub
  | .close => some s.close
  | .connectTimeout c => if s.armed c then some (onConnectTimeout opts s c) else none
  | .opened c negotiated => if c < s.dials then some (onOpen opts s c negotiated) else none
  | .message c data => if c < s.dials then some (onMessage opts s c data) else none
  | .error c message => if c < s.dials then some (onError opts s c message) else none
  | .closed c code reason => if c < s.dials then some (onClose opts s c code reason) else none
  | .redial thrown =>
    if s.timer.isSome then some (dial opts thrown { s with timer := none }) else none

def new (opts : Options) (thrown : Option String) : Sub := dial opts thrown .init

end NngWsSubscriber

/-! ### What is kept -/

/-- Only the current connection is not ended. -/
structure Tidy {ρ : Type} (s : Subscriber ρ) : Prop where
  sock : ∀ c, s.sock = some c → s.key = some c
  live : ∀ c, s.phase c = .live ↔ s.sock = some c
  fresh : ∀ c, s.dials ≤ c ↔ s.phase c = .unmade
  made : ∀ c, s.key = some c → c < s.dials
  byUser : s.closedByUser → s.state = .closed ∧ s.key = none

/-- While it connects, a subscriber waits for a dial whose timeout is armed or for the next dial;
once closed it waits for nothing. -/
structure Sound {ρ : Type} (s : Subscriber ρ) : Prop extends Tidy s where
  current : ∀ c, s.key = some c → s.phase c = .dialing ∨ s.phase c = .live
  connecting : s.state = .connecting → (∃ c, s.key = some c ∧ s.armed c) ∨ s.timer.isSome
  opened : s.state = .opened → s.key.isSome
  closed : s.state = .closed → s.key = none ∧ s.timer = none
  redial : s.timer.isSome → s.key = none ∧ s.state = .connecting

open Subscriber

variable {ρ : Type} {s : Subscriber ρ} {c : ℕ}

/-- The bodies that listeners get from a connection. -/
def Subscriber.messages (s : Subscriber ρ) (c : ℕ) : List Bytes :=
  s.events.filterMap fun e =>
    match e with
    | .message c' body => if c' = c then some body else none
    | _ => none

def Subscriber.changes (s : Subscriber ρ) : List (TransportState × Option TransportError) :=
  s.events.filterMap fun e =>
    match e with
    | .state state error => some (state, error)
    | _ => none

lemma messages_setState (s : Subscriber ρ) (state : TransportState)
    (error : Option TransportError) : (s.setState state error).messages = s.messages := by
  unfold messages setState
  split_ifs <;> simp

lemma messages_fail (opts : Options) (c : ℕ) (err : TransportError) (s : Subscriber ρ) :
    (s.fail opts c err).messages = s.messages := by
  have hdrop : (({ s with lastError := some err }.emit [.logged err.message]).drop).messages =
      s.messages := by
    funext c
    simp [messages, emit, drop]
  unfold fail retry
  split_ifs with hkey huser
  · exact hdrop
  · rw [← hdrop]
    cases redialDelay opts _ with
    | none => exact messages_setState ..
    | some delay => exact messages_setState ..
  · rfl

/-- **A loss**: nothing is current, and what follows is waited for, unless this was the end. -/
structure Lost (s s' : Subscriber ρ) : Prop where
  current : s'.current = none
  sock : s'.sock = none
  dials : s'.dials = s.dials
  phase : s'.phase = s.drop.phase
  closedByUser : s'.closedByUser = s.closedByUser
  next : s'.state = .connecting ∧ s'.timer.isSome ∨ s'.state = .closed ∧ s'.timer = none

lemma fail_lost (opts : Options) (err : TransportError) (hkey : s.key = some c)
    (huser : s.closedByUser = false) (htimer : s.timer = none) :
    Lost s (s.fail opts c err) := by
  unfold fail retry
  split_ifs with hclosed
  · rw [show s.closedByUser = true from hclosed] at huser
    cases huser
  · cases redialDelay opts _ with
    | none => exact ⟨rfl, rfl, rfl, rfl, rfl, .inr ⟨rfl, htimer⟩⟩
    | some delay => exact ⟨rfl, rfl, rfl, rfl, rfl, .inl ⟨rfl, rfl⟩⟩

lemma phase_drop (h : Tidy s) (c : ℕ) :
    s.drop.phase c = if s.phase c = .live then .ended else s.phase c := by
  unfold drop
  cases hsock : s.sock with
  | none =>
    have hlive : s.phase c ≠ .live := fun hlive => by
      rw [(h.live c).mp hlive] at hsock
      cases hsock
    rw [if_neg hlive]
  | some d =>
    simp [h.live, hsock, Option.some.injEq, Function.update_apply, eq_comm]

lemma Lost.sound {s' : Subscriber ρ} (h : Tidy s) (huser : s.closedByUser = false)
    (hlost : Lost s s') : Sound s' := by
  have hkey : s'.key = none := by rw [key, hlost.current, Option.map_none]
  have hphase : ∀ c, s'.phase c = if s.phase c = .live then .ended else s.phase c := fun c => by
    rw [hlost.phase, phase_drop h]
  refine ⟨⟨?_, ?_, ?_, ?_, ?_⟩, ?_, ?_, ?_, ?_, ?_⟩
  · simp [hlost.sock]
  · intro c
    rw [hphase, hlost.sock]
    split_ifs <;> simp_all
  · intro c
    rw [hphase, hlost.dials, h.fresh]
    split_ifs <;> simp_all
  · simp [hkey]
  · simp [hlost.closedByUser, huser]
  · simp [hkey]
  · rcases hlost.next with ⟨-, ht⟩ | ⟨hs, -⟩
    · exact fun _ => .inr ht
    · simp [hs]
  · rcases hlost.next with ⟨hs, -⟩ | ⟨hs, -⟩ <;> simp [hs]
  · rcases hlost.next with ⟨hs, -⟩ | ⟨-, ht⟩
    · simp [hs]
    · exact fun _ => ⟨hkey, ht⟩
  · rcases hlost.next with ⟨hs, -⟩ | ⟨-, ht⟩
    · exact fun _ => ⟨hkey, hs⟩
    · simp [ht]

lemma sound_of_eq {s' : Subscriber ρ} (h : Sound s) (hstate : s'.state = s.state)
    (huser : s'.closedByUser = s.closedByUser) (htimer : s'.timer = s.timer)
    (hkey : s'.key = s.key) (hsock : s'.sock = s.sock) (hdials : s'.dials = s.dials)
    (hphase : s'.phase = s.phase) (harmed : s'.armed = s.armed) : Sound s' where
  sock := by rw [hsock, hkey]; exact h.sock
  live := by rw [hphase, hsock]; exact h.live
  fresh := by rw [hdials, hphase]; exact h.fresh
  made := by rw [hkey, hdials]; exact h.made
  byUser := by rw [huser, hstate, hkey]; exact h.byUser
  current := by rw [hkey, hphase]; exact h.current
  connecting := by rw [hstate, hkey, harmed, htimer]; exact h.connecting
  opened := by rw [hstate, hkey]; exact h.opened
  closed := by rw [hstate, hkey, htimer]; exact h.closed
  redial := by rw [htimer, hkey, hstate]; exact h.redial

lemma sound_emit (h : Sound s) (events : List Event) : Sound (s.emit events) :=
  sound_of_eq h rfl rfl rfl rfl rfl rfl rfl rfl

lemma sound_reading {parser : ρ} (h : Sound s) (hkey : s.key = some c) :
    Sound { s with current := some (c, parser) } :=
  sound_of_eq h rfl rfl rfl hkey.symm rfl rfl rfl rfl

lemma Sound.open_of_key (h : Sound s) (hkey : s.key = some c) :
    s.closedByUser = false ∧ s.timer = none := by
  constructor
  · refine Bool.eq_false_iff.mpr fun huser => ?_
    rw [(h.byUser huser).2] at hkey
    cases hkey
  · refine Option.not_isSome_iff_eq_none.mp fun htimer => ?_
    rw [(h.redial htimer).1] at hkey
    cases hkey

lemma sound_disarm (h : Sound s) (hc : s.key = some c → s.state ≠ .connecting) :
    Sound (s.arm c false) where
  toTidy := ⟨h.sock, h.live, h.fresh, h.made, h.byUser⟩
  current := h.current
  connecting hstate := by
    rcases h.connecting hstate with ⟨d, hd, harmed⟩ | ht
    · have hne : d ≠ c := fun heq => hc (heq ▸ hd) hstate
      exact .inl ⟨d, hd, by simp [arm, hne, harmed]⟩
    · exact .inr ht
  opened := h.opened
  closed := h.closed
  redial := h.redial

lemma sound_open (h : Sound s) (hkey : s.key = some c) :
    Sound (({ s with attempt := 0 }.arm c false).setState .opened none) where
  toTidy := ⟨h.sock, h.live, h.fresh, h.made, fun huser => absurd
    ((h.open_of_key hkey).1.symm.trans huser) Bool.false_ne_true⟩
  current := h.current
  connecting hstate := by cases hstate
  opened _ := Option.isSome_iff_exists.mpr ⟨c, hkey⟩
  closed hstate := by cases hstate
  redial ht := by
    have hnone : s.timer.isSome := ht
    rw [(h.open_of_key hkey).2] at hnone
    cases hnone

lemma sound_fail (opts : Options) (err : TransportError) (h : Sound s) :
    Sound (s.fail opts c err) := by
  by_cases hkey : s.key = some c
  · obtain ⟨huser, htimer⟩ := h.open_of_key hkey
    exact (fail_lost opts err hkey huser htimer).sound h.toTidy huser
  · rwa [fail, if_neg hkey]

lemma sound_disarm_fail (opts : Options) (err : TransportError) (h : Sound s) :
    Sound ((s.arm c false).fail opts c err) := by
  by_cases hkey : s.key = some c
  · obtain ⟨huser, htimer⟩ := h.open_of_key hkey
    have htidy : Tidy (s.arm c false) := ⟨h.sock, h.live, h.fresh, h.made, h.byUser⟩
    have hlost : Lost (s.arm c false) _ := fail_lost opts err hkey huser htimer
    exact hlost.sound htidy huser
  · exact sound_fail opts err (sound_disarm h fun heq => absurd heq hkey)

lemma sound_close (h : Sound s) : Sound s.close := by
  unfold close
  split_ifs with huser
  · exact h
  · have hphase : ∀ c, s.drop.phase c = if s.phase c = .live then .ended else s.phase c :=
      phase_drop h.toTidy
    refine ⟨⟨nofun, fun c => ?_, fun c => ?_, nofun, fun _ => ⟨rfl, rfl⟩⟩, nofun, nofun, nofun,
      fun _ => ⟨rfl, rfl⟩, nofun⟩
    · show s.drop.phase c = .live ↔ _
      rw [hphase]
      split_ifs <;> simp_all [setState, drop]
    · show s.dials ≤ c ↔ s.drop.phase c = .unmade
      rw [hphase, h.fresh]
      split_ifs <;> simp_all

/-- A dial that returns when it is not current leaves no connection. -/
lemma sound_settle (h : Sound s) (hc : s.phase c = .dialing) (hkey : s.key ≠ some c)
    {phase : Phase} (hphase : phase = .ended ∨ phase = .refused) :
    Sound ((s.arm c false).setPhase c phase) := by
  have hd := sound_disarm h fun heq => absurd heq hkey
  refine ⟨⟨hd.sock, fun d => ?_, fun d => ?_, hd.made, hd.byUser⟩, fun d hkeyd => ?_, hd.connecting,
    hd.opened, hd.closed, hd.redial⟩
  · show Function.update s.phase c phase d = .live ↔ s.sock = some d
    rcases eq_or_ne d c with rfl | hne
    · rw [← h.live, hc]
      rcases hphase with rfl | rfl <;> simp
    · rw [Function.update_of_ne hne, h.live]
  · show s.dials ≤ d ↔ Function.update s.phase c phase d = .unmade
    rcases eq_or_ne d c with rfl | hne
    · rw [h.fresh, hc]
      rcases hphase with rfl | rfl <;> simp
    · rw [Function.update_of_ne hne, h.fresh]
  · have hne : d ≠ c := fun heq => hkey (heq ▸ hkeyd)
    show Function.update s.phase c phase d = .dialing ∨ Function.update s.phase c phase d = .live
    rw [Function.update_of_ne hne]
    exact h.current d hkeyd

/-- Nothing is current and nothing is waited for: a dial is due. -/
structure Due (s : Subscriber ρ) : Prop extends Tidy s where
  state : s.state = .connecting
  key : s.key = none
  timer : s.timer = none

lemma due_init : Due (Subscriber.init : Subscriber ρ) :=
  ⟨⟨nofun, fun c => by simp [Subscriber.init], fun c => by simp [Subscriber.init], nofun, nofun⟩,
    rfl, rfl, rfl⟩

lemma due_redial (h : Sound s) (ht : s.timer.isSome) : Due { s with timer := none } :=
  ⟨⟨h.sock, h.live, h.fresh, h.made, h.byUser⟩, (h.redial ht).2, (h.redial ht).1, rfl⟩

lemma Due.byUser_eq (h : Due s) : s.closedByUser = false := by
  refine Bool.eq_false_iff.mpr fun huser => ?_
  have hstate := (h.byUser huser).1
  rw [h.state] at hstate
  cases hstate

lemma Due.sock_eq (h : Due s) : s.sock = none := by
  cases hsock : s.sock with
  | none => rfl
  | some c =>
    have hkey := h.sock c hsock
    rw [h.key] at hkey
    cases hkey

/-- A dial begins, with a connection or without. -/
lemma Due.begin (h : Due s) (parser : ρ) {phase : Phase} {sock : Option ℕ}
    (hphase : phase ≠ .unmade) (hsock : sock = if phase = .live then some s.dials else none) :
    Tidy { s.begin parser phase with sock := sock } := by
  have hupd : ∀ c, (s.begin parser phase).phase c = if c = s.dials then phase else s.phase c :=
    fun c => Function.update_apply ..
  have hnone : ∀ c, s.phase c ≠ .live := fun c hlive => by
    have hs := (h.live c).mp hlive
    rw [h.sock_eq] at hs
    cases hs
  refine ⟨fun c hc => ?_, fun c => ?_, fun c => ?_, fun c hc => ?_, fun huser => ?_⟩
  · rw [show sock = some c from hc] at hsock
    split_ifs at hsock
    rw [hsock]
    rfl
  · rw [hupd]
    split_ifs <;> simp_all [eq_comm]
  · show s.dials + 1 ≤ c ↔ (s.begin parser phase).phase c = .unmade
    rw [hupd]
    have hfresh := h.fresh c
    split_ifs with heq
    · simp [heq, hphase]
    · rw [← hfresh]
      omega
  · obtain rfl : s.dials = c := Option.some.inj hc
    exact Nat.lt_succ_self _
  · exact absurd (h.byUser_eq.symm.trans huser) Bool.false_ne_true

lemma Due.dialed (h : Due s) (parser : ρ) {phase : Phase} {sock : Option ℕ}
    (hphase : phase = .dialing ∨ phase = .live)
    (hsock : sock = if phase = .live then some s.dials else none) :
    Sound { (s.begin parser phase).arm s.dials true with sock := sock } := by
  have hmade : phase ≠ .unmade := by rcases hphase with rfl | rfl <;> decide
  have htidy := h.begin parser hmade hsock
  refine ⟨⟨htidy.sock, htidy.live, htidy.fresh, htidy.made, htidy.byUser⟩, fun c hc => ?_,
    fun _ => .inl ⟨s.dials, rfl, Function.update_self ..⟩, nofun, nofun, fun ht => ?_⟩
  · obtain rfl : s.dials = c := Option.some.inj hc
    show Function.update s.phase s.dials phase s.dials = .dialing ∨
      Function.update s.phase s.dials phase s.dials = .live
    rwa [Function.update_self]
  · have hnone : s.timer.isSome := ht
    rw [h.timer] at hnone
    cases hnone

/-! ### What is delivered -/

variable {α γ : Type} {push : ρ → γ → Except TransportError (ρ × List Bytes)} {parser : ρ}

/-- A parser reads what comes on a connection, a piece after another. -/
def hear (push : ρ → γ → Except TransportError (ρ × List Bytes)) (parser : ρ) (pieces : List γ) :
    Except TransportError (ρ × List Bytes) :=
  pieces.foldlM (fun r piece => (push r.1 piece).map fun q => (q.1, r.2 ++ q.2)) (parser, [])

lemma hear_snoc (pieces : List γ) (piece : γ) : hear push parser (pieces ++ [piece]) =
    (hear push parser pieces).bind fun r => (push r.1 piece).map fun q => (q.1, r.2 ++ q.2) := by
  rw [hear, List.foldlM_append]
  congr 1
  funext r
  rw [List.foldlM_cons]
  cases push r.1 piece <;> rfl

/-- What a step does for listeners: it leaves the messages, dials, or has a piece read, unless the
piece is not for the current dial or cannot be read. -/
inductive Hears (push : ρ → γ → Except TransportError (ρ × List Bytes)) (parser : ρ)
    (s s' : Subscriber ρ) : Option (ℕ × γ) → Prop where
  | quiet (messages : s'.messages = s.messages) (dials : s'.dials = s.dials)
      (current : s'.current = s.current ∨ s'.current = none) : Hears push parser s s' none
  | dialed (messages : s'.messages = s.messages) (dials : s'.dials = s.dials + 1)
      (current : s'.current = some (s.dials, parser) ∨ s'.current = none) :
      Hears push parser s s' none
  | unread {c : ℕ} {piece : γ} (made : c < s.dials) (messages : s'.messages = s.messages)
      (dials : s'.dials = s.dials)
      (current : s'.current = none ∨ s'.current = s.current ∧ s.key ≠ some c) :
      Hears push parser s s' (some (c, piece))
  | read {c : ℕ} {piece : γ} {p q : ρ} {bodies : List Bytes} (made : c < s.dials)
      (current : s.current = some (c, p)) (hpush : push p piece = .ok (q, bodies))
      (messages : s'.messages = Function.update s.messages c (s.messages c ++ bodies))
      (dials : s'.dials = s.dials) (current' : s'.current = some (c, q)) :
      Hears push parser s s' (some (c, piece))

/-- What a connection delivers is what its parser reads of the first pieces that came; of all of
them, as long as it is the current one. -/
structure Delivered (push : ρ → γ → Except TransportError (ρ × List Bytes)) (parser : ρ)
    (pieces : ℕ → List γ) (s : Subscriber ρ) : Prop where
  read : ∀ c, ∃ heard q, heard <+: pieces c ∧ hear push parser heard = .ok (q, s.messages c) ∧
    ∀ p, s.current = some (c, p) → p = q ∧ heard = pieces c
  fresh : ∀ c, s.dials ≤ c → pieces c = []

/-- A piece more for a connection. -/
def addPiece (pieces : ℕ → List γ) : Option (ℕ × γ) → ℕ → List γ
  | none => pieces
  | some (c, piece) => Function.update pieces c (pieces c ++ [piece])

lemma Delivered.step {pieces : ℕ → List γ} {s' : Subscriber ρ} {o : Option (ℕ × γ)}
    (h : Delivered push parser pieces s) (hs : Hears push parser s s' o) :
    Delivered push parser (addPiece pieces o) s' := by
  cases hs with
  | quiet hm hd hc =>
    refine ⟨fun c => ?_, fun c hle => h.fresh c (hd ▸ hle)⟩
    obtain ⟨heard, q, hsub, hread, hall⟩ := h.read c
    refine ⟨heard, q, hsub, hm ▸ hread, fun p hp => ?_⟩
    rcases hc with hc | hc
    · exact hall p (hc ▸ hp)
    · rw [hc] at hp
      cases hp
  | dialed hm hd hc =>
    refine ⟨fun c => ?_, fun c hle => h.fresh c (by omega)⟩
    obtain ⟨heard, q, hsub, hread, hall⟩ := h.read c
    refine ⟨heard, q, hsub, hm ▸ hread, fun p hp => ?_⟩
    rcases hc with hc | hc
    · rw [hc] at hp
      obtain ⟨rfl, rfl⟩ := hp
      have hnil := h.fresh _ le_rfl
      rw [hnil, List.prefix_nil] at hsub
      rw [hsub] at hread
      simp only [hear, List.foldlM_nil, pure, Except.pure, Except.ok.injEq, Prod.mk.injEq] at hread
      exact ⟨hread.1, hsub.trans hnil.symm⟩
    · rw [hc] at hp
      cases hp
  | @unread c piece hmade hm hd hc =>
    refine ⟨fun d => ?_, fun d hle => ?_⟩
    · obtain ⟨heard, q, hsub, hread, hall⟩ := h.read d
      have hext : pieces d <+: addPiece pieces (some (c, piece)) d := by
        rcases eq_or_ne d c with rfl | hne
        · simp [addPiece]
        · simp [addPiece, hne]
      refine ⟨heard, q, hsub.trans hext, hm ▸ hread, fun p hp => ?_⟩
      rcases hc with hc | ⟨hc, hkey⟩
      · rw [hc] at hp
        cases hp
      · have hne : d ≠ c := fun heq => hkey (by rw [key, ← hc, hp, heq]; rfl)
        rw [addPiece, Function.update_of_ne hne]
        exact hall p (hc ▸ hp)
    · have hne : d ≠ c := by omega
      rw [addPiece, Function.update_of_ne hne]
      exact h.fresh d (hd ▸ hle)
  | @read c piece p q bodies hmade hcur hpush hm hd hc =>
    refine ⟨fun d => ?_, fun d hle => ?_⟩
    · obtain ⟨heard, r, hsub, hread, hall⟩ := h.read d
      rcases eq_or_ne d c with rfl | hne
      · obtain ⟨rfl, rfl⟩ := hall p hcur
        refine ⟨pieces d ++ [piece], q, by simp [addPiece], ?_, fun p' hp' => ?_⟩
        · rw [hm]
          rw [hear_snoc, hread]
          simp [Except.bind, hpush, Except.map]
        · rw [hc, Option.some.injEq, Prod.mk.injEq] at hp'
          exact ⟨hp'.2.symm, by simp [addPiece]⟩
      · rw [hm, Function.update_of_ne hne, addPiece, Function.update_of_ne hne]
        refine ⟨heard, r, hsub, hread, fun p' hp' => ?_⟩
        rw [hc, Option.some.injEq, Prod.mk.injEq] at hp'
        exact absurd hp'.1.symm hne
    · have hne : d ≠ c := by omega
      rw [addPiece, Function.update_of_ne hne]
      exact h.fresh d (hd ▸ hle)

/-- What comes on each connection in a run. -/
def piecesOf (piece : α → Option (ℕ × γ)) (as : List α) (c : ℕ) : List γ :=
  as.filterMap fun a => (piece a).bind fun r => if r.1 = c then some r.2 else none

lemma piecesOf_snoc (piece : α → Option (ℕ × γ)) (as : List α) (a : α) :
    piecesOf piece (as ++ [a]) = addPiece (piecesOf piece as) (piece a) := by
  funext c
  cases hpiece : piece a with
  | none => simp [addPiece, hpiece, piecesOf]
  | some r =>
    obtain ⟨d, x⟩ := r
    rcases eq_or_ne c d with rfl | hne
    · simp [addPiece, hpiece, piecesOf]
    · simp [addPiece, hpiece, piecesOf, hne, Ne.symm hne]

/-- **Runs of a subscriber.** -/
lemma run_kept {step : Subscriber ρ → α → Option (Subscriber ρ)} {piece : α → Option (ℕ × γ)}
    (hstep : ∀ s a s', Sound s → step s a = some s' → Sound s' ∧ Hears push parser s s' (piece a))
    {s₀ : Subscriber ρ} (hs : Sound s₀) (hd : Delivered push parser (fun _ => []) s₀)
    {as : List α} (hrun : run step s₀ as = some s) :
    Sound s ∧ Delivered push parser (piecesOf piece as) s := by
  induction as using List.reverseRecOn generalizing s with
  | nil =>
    obtain rfl := Option.some.inj hrun
    exact ⟨hs, hd⟩
  | append_singleton as a ih =>
    obtain ⟨t, ht, hlast⟩ := run_append_eq_some.mp hrun
    obtain ⟨u, hu, hnil⟩ := run_cons_eq_some.mp hlast
    obtain rfl := Option.some.inj hnil
    obtain ⟨hst, hdt⟩ := ih ht
    obtain ⟨hsu, hears⟩ := hstep t a u hst hu
    rw [piecesOf_snoc]
    exact ⟨hsu, hdt.step hears⟩

/-! ### Steps -/

@[simp] lemma messages_logged (s : Subscriber ρ) (text : String) :
    (s.emit [.logged text]).messages = s.messages := by
  funext c
  simp [messages, emit]

lemma messages_bodies (s : Subscriber ρ) (c : ℕ) (bodies : List Bytes) :
    (s.emit (bodies.map (.message c))).messages =
      Function.update s.messages c (s.messages c ++ bodies) := by
  funext d
  rcases eq_or_ne d c with rfl | hne
  · simp [messages, emit, List.filterMap_map]
  · simp [messages, emit, List.filterMap_map, hne, Ne.symm hne]

lemma fail_dials (opts : Options) (err : TransportError) (s : Subscriber ρ) :
    (s.fail opts c err).dials = s.dials := by
  unfold fail retry
  split_ifs
  · rfl
  · cases redialDelay opts _ <;> rfl
  · rfl

lemma fail_current (opts : Options) (err : TransportError) (s : Subscriber ρ) :
    (s.fail opts c err).current = if s.key = some c then none else s.current := by
  unfold fail retry
  split_ifs
  · rfl
  · cases redialDelay opts _ <;> rfl
  · rfl

lemma fail_stale {opts : Options} {err : TransportError} (hkey : s.key ≠ some c) :
    s.fail opts c err = s := if_neg hkey

lemma hears_fail (opts : Options) (err : TransportError) {s' : Subscriber ρ}
    (hm : s'.messages = s.messages) (hd : s'.dials = s.dials) (hc : s'.current = s.current) :
    Hears push parser s (s'.fail opts c err) none := by
  refine .quiet ((messages_fail ..).trans hm) ((fail_dials ..).trans hd) ?_
  rw [fail_current, hc]
  split_ifs <;> simp

lemma hears_close (s : Subscriber ρ) : Hears push parser s s.close none := by
  unfold close
  split_ifs
  · exact .quiet rfl rfl (.inl rfl)
  · refine .quiet ?_ rfl (.inr rfl)
    rw [messages_setState]
    rfl

lemma hears_timer {s' : Subscriber ρ} (h : Hears push parser { s with timer := none } s' none) :
    Hears push parser s s' none := by
  cases h with
  | quiet hm hd hc => exact .quiet hm hd hc
  | dialed hm hd hc => exact .dialed hm hd hc

lemma of_guard {σ : Type} {p : Prop} [Decidable p] {x y : σ}
    (h : (if p then some x else none) = some y) : p ∧ x = y := by
  simpa using h

namespace NngIpcSubscriber

variable {opts : Options} {s s' : Sub} {a : Action}

def Action.piece : Action → Option (ℕ × Bytes)
  | .data c chunk => some (c, chunk)
  | _ => none

/-- Chunks are read by the parser. -/
abbrev read (opts : Options) := NngFrameParser.push (parserOptions opts)

lemma dial_kept (opts : Options) (h : Due s) : Sound (dial s) ∧ Hears (read opts) .new s (dial s) none := by
  unfold dial
  rw [if_neg (by simp [h.byUser_eq])]
  refine ⟨h.dialed .new (.inl rfl) h.sock_eq, .dialed ?_ rfl (.inl rfl)⟩
  exact messages_setState ..

lemma onConnected_kept (h : Sound s) {c : ℕ} (hc : s.phase c = .dialing) :
    Sound (onConnected s c) ∧ Hears (read opts) .new s (onConnected s c) none := by
  unfold onConnected
  split_ifs with hstale
  · have hkey : s.key ≠ some c := fun hkey => by
      rcases hstale with hne | huser
      · exact hne hkey
      · rw [(h.open_of_key hkey).1] at huser
        cases huser
    exact ⟨sound_settle h hc hkey (.inl rfl), .quiet rfl rfl (.inl rfl)⟩
  · have hkey : s.key = some c := by
      by_contra hne
      exact hstale (.inl hne)
    refine ⟨⟨⟨fun d hd => ?_, fun d => ?_, fun d => ?_, h.made, h.byUser⟩, fun d hd => ?_,
      h.connecting, h.opened, h.closed, h.redial⟩, .quiet rfl rfl (.inl rfl)⟩
    · obtain rfl : c = d := Option.some.inj hd
      exact hkey
    · show Function.update s.phase c .live d = .live ↔ some c = some d
      rcases eq_or_ne d c with rfl | hne
      · simp
      · have hother : s.phase d ≠ .live := fun hlive => by
          have hd := h.sock d ((h.live d).mp hlive)
          exact hne (Option.some.inj (hd.symm.trans hkey))
        simp [hne, hother, Ne.symm hne]
    · show s.dials ≤ d ↔ Function.update s.phase c .live d = .unmade
      rcases eq_or_ne d c with rfl | hne
      · simp [h.made d hkey]
      · rw [Function.update_of_ne hne, h.fresh]
    · obtain rfl : c = d := Option.some.inj (hkey.symm.trans hd)
      exact .inr (Function.update_self ..)

lemma onConnectFailed_kept (h : Sound s) {c : ℕ} (hc : s.phase c = .dialing) (cause : Cause) :
    Sound (onConnectFailed opts s c cause) ∧
      Hears (read opts) .new s (onConnectFailed opts s c cause) none := by
  have hfail : ∀ err, Sound (((s.arm c false).setPhase c .refused).fail opts c err) := by
    intro err
    by_cases hkey : s.key = some c
    · obtain ⟨huser, htimer⟩ := h.open_of_key hkey
      have htidy : Tidy ((s.arm c false).setPhase c .refused) := by
        refine ⟨h.sock, fun d => ?_, fun d => ?_, h.made, h.byUser⟩
        · show Function.update s.phase c .refused d = .live ↔ s.sock = some d
          rcases eq_or_ne d c with rfl | hne
          · simp [← h.live, hc]
          · rw [Function.update_of_ne hne, h.live]
        · show s.dials ≤ d ↔ Function.update s.phase c .refused d = .unmade
          rcases eq_or_ne d c with rfl | hne
          · simp [h.fresh, hc]
          · rw [Function.update_of_ne hne, h.fresh]
      have hlost : Lost ((s.arm c false).setPhase c .refused) _ :=
        fail_lost opts err hkey huser htimer
      exact hlost.sound htidy huser
    · exact sound_fail opts err (sound_settle h hc hkey (.inr rfl))
  cases cause with
  | transport e => exact ⟨hfail e, hears_fail opts e rfl rfl rfl⟩
  | other m => exact ⟨hfail _, hears_fail opts _ rfl rfl rfl⟩

lemma onConnectTimeout_kept (h : Sound s) (c : ℕ) : Sound (onConnectTimeout opts s c) ∧
    Hears (read opts) .new s (onConnectTimeout opts s c) none := by
  unfold onConnectTimeout
  dsimp only
  split_ifs with hfail
  · exact ⟨sound_disarm_fail opts _ h, hears_fail opts _ rfl rfl rfl⟩
  · refine ⟨sound_disarm h fun hkey hstate => hfail ⟨hkey, ?_⟩, .quiet rfl rfl (.inl rfl)⟩
    rw [show (s.arm c false).state = s.state from rfl, hstate]
    decide

lemma onData_kept (h : Sound s) {c : ℕ} (hc : c < s.dials) (chunk : Bytes) :
    Sound (onData opts s c chunk) ∧
      Hears (read opts) .new s (onData opts s c chunk) (some (c, chunk)) := by
  unfold onData
  cases hcur : s.current with
  | none => exact ⟨h, .unread hc rfl rfl (.inl hcur)⟩
  | some r =>
    obtain ⟨c', p⟩ := r
    dsimp only
    split_ifs with hne
    · exact ⟨h, .unread hc rfl rfl (.inr ⟨rfl, by simpa [key, hcur] using hne⟩)⟩
    · rw [not_not] at hne
      subst hne
      have hkey : s.key = some c' := by rw [key, hcur]; rfl
      cases hpush : p.push (parserOptions opts) chunk with
      | error e =>
        refine ⟨sound_fail opts e h, .unread hc (messages_fail ..) (fail_dials ..) (.inl ?_)⟩
        rw [fail_current, if_pos hkey]
      | ok r =>
        obtain ⟨q, bodies⟩ := r
        have hp : Sound { s with current := some (c', q) } := sound_reading h hkey
        dsimp only
        split_ifs with hopen
        · refine ⟨sound_emit (sound_open hp rfl) _, .read hc hcur hpush ?_ rfl rfl⟩
          rw [messages_bodies, messages_setState]
          rfl
        · refine ⟨sound_emit hp _, .read hc hcur hpush ?_ rfl rfl⟩
          rw [messages_bodies]
          rfl

/-- **A step of `NngIpcSubscriber`.** -/
lemma step_kept (h : Sound s) (hstep : step opts s a = some s') :
    Sound s' ∧ Hears (read opts) .new s s' a.piece := by
  cases a with
  | close =>
    obtain rfl := Option.some.inj hstep
    exact ⟨sound_close h, hears_close s⟩
  | connected c =>
    obtain ⟨hc, rfl⟩ := of_guard hstep
    exact onConnected_kept h hc
  | connectFailed c cause =>
    obtain ⟨hc, rfl⟩ := of_guard hstep
    exact onConnectFailed_kept h hc cause
  | connectTimeout c =>
    obtain ⟨-, rfl⟩ := of_guard hstep
    exact onConnectTimeout_kept h c
  | opened c =>
    obtain ⟨-, rfl⟩ := of_guard hstep
    refine ⟨sound_emit h _, .quiet ?_ rfl (.inl rfl)⟩
    funext d
    simp [messages, emit]
  | data c chunk =>
    obtain ⟨hc, rfl⟩ := of_guard hstep
    exact onData_kept h hc chunk
  | lost c loss =>
    obtain ⟨-, rfl⟩ := of_guard hstep
    exact ⟨sound_fail opts _ h, hears_fail opts _ rfl rfl rfl⟩
  | redial =>
    obtain ⟨ht, rfl⟩ := of_guard hstep
    obtain ⟨hsound, hears⟩ := dial_kept opts (due_redial h ht)
    exact ⟨hsound, hears_timer hears⟩

end NngIpcSubscriber

namespace NngWsSubscriber

variable {opts : Options} {s s' : Sub} {a : Action}

def Action.piece : Action → Option (ℕ × Data)
  | .message c data => some (c, data)
  | _ => none

/-- Frames that are not read are left out, and one that is too long ends the connection. -/
def read (opts : Options) (_ : Unit) : Data → Except TransportError (Unit × List Bytes)
  | .text => .ok ((), [])
  | .unreadable _ => .ok ((), [])
  | .binary body =>
    if body.length > opts.maxFrameBytes then
      .error ⟨.protocol, "event frame of " ++ toString body.length ++ " bytes exceeds limit " ++
        toString opts.maxFrameBytes⟩
    else .ok ((), [body])

lemma dial_kept (opts : Options) (thrown : Option String) (h : Due s) :
    Sound (dial opts thrown s) ∧ Hears (read opts) () s (dial opts thrown s) none := by
  unfold dial
  rw [if_neg (by simp [h.byUser_eq])]
  cases thrown with
  | none =>
    refine ⟨h.dialed () (.inr rfl) rfl, .dialed ?_ rfl (.inl rfl)⟩
    exact messages_setState ..
  | some m =>
    have htidy : Tidy (s.begin () .refused) :=
      h.begin () (by decide) (show s.sock = _ from h.sock_eq)
    have hlost : Lost (s.begin () .refused) _ := fail_lost opts
      ⟨.connect, "connect to " ++ opts.address ++ " failed: " ++ m⟩ rfl h.byUser_eq h.timer
    refine ⟨hlost.sound htidy h.byUser_eq, .dialed ?_ hlost.dials (.inr hlost.current)⟩
    exact (messages_fail ..).trans (messages_setState ..)

lemma onConnectTimeout_kept (h : Sound s) (c : ℕ) : Sound (onConnectTimeout opts s c) ∧
    Hears (read opts) () s (onConnectTimeout opts s c) none := by
  unfold onConnectTimeout
  dsimp only
  split_ifs with hfail
  · exact ⟨sound_disarm_fail opts _ h, hears_fail opts _ rfl rfl rfl⟩
  · refine ⟨sound_disarm h fun hkey hstate => hfail ⟨hkey, ?_⟩, .quiet rfl rfl (.inl rfl)⟩
    rw [show (s.arm c false).state = s.state from rfl, hstate]
    decide

lemma onOpen_kept (h : Sound s) (c : ℕ) (negotiated : Option String) :
    Sound (onOpen opts s c negotiated) ∧
      Hears (read opts) () s (onOpen opts s c negotiated) none := by
  unfold onOpen
  split_ifs with hkey
  · exact ⟨h, .quiet rfl rfl (.inl rfl)⟩
  · refine ⟨sound_open h (not_not.mp hkey), .quiet ?_ rfl (.inl rfl)⟩
    exact messages_setState ..
  · exact ⟨sound_disarm_fail opts _ h, hears_fail opts _ rfl rfl rfl⟩

lemma onMessage_kept (h : Sound s) {c : ℕ} (hc : c < s.dials) (data : Data) :
    Sound (onMessage opts s c data) ∧
      Hears (read opts) () s (onMessage opts s c data) (some (c, data)) := by
  unfold onMessage
  split_ifs with hkey
  · exact ⟨h, .unread hc rfl rfl (.inr ⟨rfl, hkey⟩)⟩
  · rw [not_not] at hkey
    have hcur : s.current = some (c, ()) := by
      obtain ⟨⟨d, u⟩, hcur, rfl⟩ := Option.map_eq_some_iff.mp hkey
      exact hcur
    have hnothing : ∀ text, Function.update s.messages c (s.messages c ++ []) =
        (s.emit [.logged text]).messages := fun text => by simp
    cases data with
    | text => exact ⟨sound_emit h _, .read hc hcur rfl (hnothing _).symm rfl hcur⟩
    | unreadable type => exact ⟨sound_emit h _, .read hc hcur rfl (hnothing _).symm rfl hcur⟩
    | binary body =>
      dsimp only
      split_ifs with hlong
      · refine ⟨sound_fail opts _ h, .unread hc (messages_fail ..) (fail_dials ..) (.inl ?_)⟩
        rw [fail_current, if_pos hkey]
      · refine ⟨sound_emit h _, .read hc hcur (if_neg hlong) ?_ rfl hcur⟩
        exact messages_bodies s c [body]

lemma onError_kept (h : Sound s) (c : ℕ) (message : Option String) :
    Sound (onError opts s c message) ∧ Hears (read opts) () s (onError opts s c message) none := by
  unfold onError
  split_ifs
  · exact ⟨h, .quiet rfl rfl (.inl rfl)⟩
  · exact ⟨sound_emit h _, .quiet (messages_logged ..) rfl (.inl rfl)⟩

lemma onClose_kept (h : Sound s) (c code : ℕ) (reason : String) :
    Sound (onClose opts s c code reason) ∧
      Hears (read opts) () s (onClose opts s c code reason) none := by
  unfold onClose
  by_cases hkey : s.key ≠ some c
  · rw [if_pos hkey]
    exact ⟨h, .quiet rfl rfl (.inl rfl)⟩
  · rw [if_neg hkey]
    exact ⟨sound_disarm_fail opts _ h, hears_fail opts _ rfl rfl rfl⟩

/-- **A step of `NngWsSubscriber`.** -/
lemma step_kept (h : Sound s) (hstep : step opts s a = some s') :
    Sound s' ∧ Hears (read opts) () s s' a.piece := by
  cases a with
  | close =>
    obtain rfl := Option.some.inj hstep
    exact ⟨sound_close h, hears_close s⟩
  | connectTimeout c =>
    obtain ⟨-, rfl⟩ := of_guard hstep
    exact onConnectTimeout_kept h c
  | opened c negotiated =>
    obtain ⟨-, rfl⟩ := of_guard hstep
    exact onOpen_kept h c negotiated
  | message c data =>
    obtain ⟨hc, rfl⟩ := of_guard hstep
    exact onMessage_kept h hc data
  | error c message =>
    obtain ⟨-, rfl⟩ := of_guard hstep
    exact onError_kept h c message
  | closed c code reason =>
    obtain ⟨-, rfl⟩ := of_guard hstep
    exact onClose_kept h c code reason
  | redial thrown =>
    obtain ⟨ht, rfl⟩ := of_guard hstep
    obtain ⟨hsound, hears⟩ := dial_kept opts thrown (due_redial h ht)
    exact ⟨hsound, hears_timer hears⟩

end NngWsSubscriber

/-! ### The end -/

/-- Listeners see nothing. -/
structure Still (s s' : Subscriber ρ) : Prop where
  state : s'.state = s.state
  changes : s'.changes = s.changes
  messages : s'.messages = s.messages

lemma Still.rfl : Still s s := ⟨Eq.refl _, Eq.refl _, Eq.refl _⟩

lemma still_fail {s' : Subscriber ρ} {opts : Options} {err : TransportError} (hkey : s.key = none)
    (h : Still s s') (hcur : s'.current = s.current) : Still s (s'.fail opts c err) := by
  have hne : s'.key ≠ some c := fun heq => by
    rw [key, hcur] at heq
    rw [key, heq] at hkey
    cases hkey
  rwa [fail_stale hne]

lemma still_close (hclosed : s.state = .closed) : Still s s.close := by
  unfold close
  split_ifs
  · exact .rfl
  · have hevents : (({ s with closedByUser := true, timer := none }.drop).setState .closed
        none).events = s.events := if_pos hclosed
    exact ⟨hclosed.symm, by rw [changes, hevents, changes],
      by funext d; rw [messages, hevents, messages]⟩

/-- **Closed for good.** -/
lemma NngIpcSubscriber.step_closed {opts : Options} {s s' : NngIpcSubscriber.Sub}
    {a : NngIpcSubscriber.Action} (h : Sound s) (hclosed : s.state = .closed)
    (hstep : NngIpcSubscriber.step opts s a = some s') : Still s s' := by
  obtain ⟨hkey, htimer⟩ := h.closed hclosed
  have hcur : s.current = none := Option.map_eq_none_iff.mp hkey
  cases a with
  | close =>
    obtain rfl := Option.some.inj hstep
    exact still_close hclosed
  | connected c =>
    obtain ⟨-, rfl⟩ := of_guard hstep
    rw [NngIpcSubscriber.onConnected, if_pos (.inl (by simp [hkey]))]
    exact ⟨rfl, rfl, rfl⟩
  | connectFailed c cause =>
    obtain ⟨-, rfl⟩ := of_guard hstep
    cases cause with
    | transport e => exact still_fail hkey ⟨rfl, rfl, rfl⟩ rfl
    | other m => exact still_fail hkey ⟨rfl, rfl, rfl⟩ rfl
  | connectTimeout c =>
    obtain ⟨-, rfl⟩ := of_guard hstep
    have hstale : ¬((s.arm c false).key = some c ∧ (s.arm c false).state ≠ .opened) := fun hc => by
      rw [show (s.arm c false).key = none from hkey] at hc
      cases hc.1
    rw [NngIpcSubscriber.onConnectTimeout, if_neg hstale]
    exact ⟨rfl, rfl, rfl⟩
  | opened c =>
    obtain ⟨-, rfl⟩ := of_guard hstep
    exact ⟨rfl, by simp [changes, emit], by funext d; simp [messages, emit]⟩
  | data c chunk =>
    obtain ⟨-, rfl⟩ := of_guard hstep
    simp only [NngIpcSubscriber.onData, hcur]
    exact .rfl
  | lost c loss =>
    obtain ⟨-, rfl⟩ := of_guard hstep
    exact still_fail hkey .rfl rfl
  | redial =>
    obtain ⟨ht, -⟩ := of_guard hstep
    rw [htimer] at ht
    cases ht

lemma NngWsSubscriber.step_closed {opts : Options} {s s' : NngWsSubscriber.Sub}
    {a : NngWsSubscriber.Action} (h : Sound s) (hclosed : s.state = .closed)
    (hstep : NngWsSubscriber.step opts s a = some s') : Still s s' := by
  obtain ⟨hkey, htimer⟩ := h.closed hclosed
  have hstale : ∀ c, s.key ≠ some c := fun c => by simp [hkey]
  cases a with
  | close =>
    obtain rfl := Option.some.inj hstep
    exact still_close hclosed
  | connectTimeout c =>
    obtain ⟨-, rfl⟩ := of_guard hstep
    have hne : ¬((s.arm c false).key = some c ∧ (s.arm c false).state ≠ .opened) := fun hc =>
      hstale c hc.1
    rw [NngWsSubscriber.onConnectTimeout, if_neg hne]
    exact ⟨rfl, rfl, rfl⟩
  | opened c negotiated =>
    obtain ⟨-, rfl⟩ := of_guard hstep
    rw [NngWsSubscriber.onOpen, if_pos (hstale c)]
    exact .rfl
  | message c data =>
    obtain ⟨-, rfl⟩ := of_guard hstep
    have hsame : NngWsSubscriber.onMessage opts s c data = s := if_pos (hstale c)
    exact hsame.symm ▸ .rfl
  | error c message =>
    obtain ⟨-, rfl⟩ := of_guard hstep
    rw [NngWsSubscriber.onError, if_pos (hstale c)]
    exact .rfl
  | closed c code reason =>
    obtain ⟨-, rfl⟩ := of_guard hstep
    rw [NngWsSubscriber.onClose, if_pos (hstale c)]
    exact .rfl
  | redial thrown =>
    obtain ⟨ht, -⟩ := of_guard hstep
    rw [htimer] at ht
    cases ht

/-! ### The handshake -/

/-- The parser has the handshake once eight bytes of the stream are one. -/
structure Handshaken (opts : NngFrameParserOptions) (chunks : List Bytes) (p : NngFrameParser) :
    Prop where
  missing : p.handshake = none → p.bytes = chunks.flatten
  found : p.handshake.isSome → ∃ hs, NngFrameParser.checkHandshake opts
    (chunks.flatten.take SP_HANDSHAKE_LENGTH) = .ok hs ∧ SP_HANDSHAKE_LENGTH ≤ chunks.flatten.length

section Handshake

variable {opts : NngFrameParserOptions} {p q : NngFrameParser}

lemma nextBody_handshake {body : Bytes}
    (h : NngFrameParser.nextBody opts p = .ok (some (q, body))) : q.handshake = p.handshake := by
  unfold NngFrameParser.nextBody at h
  split_ifs at h
  · cases h
  · cases hlen : NngFrameParser.bodyLength opts (p.peek NNG_FRAME_HEADER_LENGTH) with
    | error e =>
      rw [hlen] at h
      cases h
    | ok len =>
      rw [hlen] at h
      dsimp only at h
      split_ifs at h
      · cases h
      · cases h
        rfl

lemma takeAll_handshake {n : ℕ} {bodies : List Bytes}
    (h : StreamDecoder.takeAll (NngFrameParser.nextBody opts) n p = .ok (q, bodies)) :
    q.handshake = p.handshake := by
  induction n generalizing p bodies with
  | zero =>
    cases h
    rfl
  | succ n ih =>
    unfold StreamDecoder.takeAll at h
    cases hnext : NngFrameParser.nextBody opts p with
    | error e =>
      rw [hnext] at h
      cases h
    | ok o =>
      rw [hnext] at h
      cases o with
      | none =>
        cases h
        rfl
      | some r =>
        obtain ⟨p', body⟩ := r
        dsimp only at h
        cases hrest : StreamDecoder.takeAll (NngFrameParser.nextBody opts) n p' with
        | error e =>
          rw [hrest] at h
          cases h
        | ok r =>
          rw [hrest] at h
          cases h
          exact (ih hrest).trans (nextBody_handshake hnext)

lemma push_handshaken {chunks bodies : List Bytes} {chunk : Bytes} (h : Handshaken opts chunks p)
    (hpush : p.push opts chunk = .ok (q, bodies)) :
    Handshaken opts (chunks ++ [chunk]) q ∧
      (p.handshake.isSome ∨ bodies ≠ [] → q.handshake.isSome) := by
  have hflat : (chunks ++ [chunk]).flatten = chunks.flatten ++ chunk := by simp
  unfold NngFrameParser.push at hpush
  dsimp only at hpush
  cases hs : p.handshake with
  | none =>
    have hbytes : (p.append chunk).bytes = (chunks ++ [chunk]).flatten := by
      rw [bytes_append, h.missing hs, hflat]
    rw [show (p.append chunk).handshake = none from (handshake_append p chunk).trans hs] at hpush
    split_ifs at hpush with hshort
    · cases hpush
      refine ⟨⟨fun _ => hbytes, fun hsome => ?_⟩, fun hor => ?_⟩
      · rw [handshake_append, hs] at hsome
        cases hsome
      · simp at hor
    · rw [take_fst, hbytes] at hpush
      cases hcheck : NngFrameParser.checkHandshake opts
          ((chunks ++ [chunk]).flatten.take SP_HANDSHAKE_LENGTH) with
      | error e =>
        rw [hcheck] at hpush
        cases hpush
      | ok shake =>
        rw [hcheck] at hpush
        have hsome : q.handshake = some shake := takeAll_handshake hpush
        rw [buffered_eq, hbytes] at hshort
        refine ⟨⟨fun hnone => ?_, fun _ => ⟨shake, hcheck, by omega⟩⟩, fun _ => by rw [hsome]; rfl⟩
        rw [hsome] at hnone
        cases hnone
  | some shake =>
    rw [show (p.append chunk).handshake = some shake from (handshake_append p chunk).trans hs]
      at hpush
    have hsome : q.handshake = some shake :=
      (takeAll_handshake hpush).trans ((handshake_append p chunk).trans hs)
    obtain ⟨hs', hcheck, hlen⟩ := h.found (by rw [hs]; rfl)
    refine ⟨⟨fun hnone => ?_, fun _ => ⟨hs', ?_, ?_⟩⟩, fun _ => by rw [hsome]; rfl⟩
    · rw [hsome] at hnone
      cases hnone
    · rwa [hflat, List.take_append_of_le_length hlen]
    · rw [hflat, List.length_append]
      omega

/-- Bodies come after the handshake. -/
lemma hear_handshaken {chunks bodies : List Bytes}
    (h : hear (NngFrameParser.push opts) .new chunks = .ok (q, bodies)) :
    Handshaken opts chunks q ∧ (bodies ≠ [] → q.handshake.isSome) := by
  induction chunks using List.reverseRecOn generalizing q bodies with
  | nil =>
    cases h
    exact ⟨⟨fun _ => rfl, nofun⟩, fun hne => absurd rfl hne⟩
  | append_singleton chunks chunk ih =>
    rw [hear_snoc] at h
    cases hread : hear (NngFrameParser.push opts) .new chunks with
    | error e =>
      rw [hread] at h
      cases h
    | ok r =>
      rw [hread] at h
      cases hpush : r.1.push opts chunk with
      | error e =>
        simp only [Except.bind, hpush, Except.map] at h
        cases h
      | ok x =>
        simp only [Except.bind, hpush, Except.map] at h
        cases h
        obtain ⟨hp, hout⟩ := ih hread
        obtain ⟨hq, hx⟩ := push_handshaken hp hpush
        refine ⟨hq, fun hne => hx ?_⟩
        by_cases hnil : r.2 = []
        · exact .inr fun hx => hne (by rw [hnil, hx]; rfl)
        · exact .inl (hout hnil)

end Handshake

/-! ### Both subscribers -/

/-- **What a subscriber keeps**: it waits for something while it connects, a dial that was given
up is never current again and leaves no connection, messages are those of the current dial, and
after the end listeners hear nothing. -/
structure Lawful (step : Subscriber ρ → α → Option (Subscriber ρ)) (s : Subscriber ρ) : Prop where
  sound : Sound s
  givenUp : ∀ c < s.dials, s.key ≠ some c →
    (s.phase c = .ended ∨ s.phase c = .refused ∨ s.phase c = .dialing) ∧
      ∀ as s', run step s as = some s' → s'.key ≠ some c ∧ s'.phase c ≠ .live
  fromCurrent : ∀ a s' c, step s a = some s' → s'.messages c ≠ s.messages c → s.key = some c
  terminal : s.state = .closed → ∀ as s', run step s as = some s' → Still s s'

lemma Hears.key {s' : Subscriber ρ} {o : Option (ℕ × γ)} (h : Hears push parser s s' o)
    (hkey : s'.key = some c) : s.key = some c ∨ s.dials ≤ c := by
  cases h with
  | quiet hm hd hc =>
    rcases hc with hc | hc
    · exact .inl (by rwa [Subscriber.key, hc] at hkey)
    · rw [Subscriber.key, hc] at hkey
      cases hkey
  | dialed hm hd hc =>
    rcases hc with hc | hc
    · rw [Subscriber.key, hc] at hkey
      exact .inr (Option.some.inj hkey).le
    · rw [Subscriber.key, hc] at hkey
      cases hkey
  | unread hmade hm hd hc =>
    rcases hc with hc | ⟨hc, -⟩
    · rw [Subscriber.key, hc] at hkey
      cases hkey
    · exact .inl (by rwa [Subscriber.key, hc] at hkey)
  | read hmade hcur hpush hm hd hc =>
    rw [Subscriber.key, hc] at hkey
    exact .inl (by rw [Subscriber.key, hcur]; exact hkey)

lemma Hears.dials_le {s' : Subscriber ρ} {o : Option (ℕ × γ)} (h : Hears push parser s s' o) :
    s.dials ≤ s'.dials := by
  cases h <;> omega

lemma Hears.fromCurrent {s' : Subscriber ρ} {o : Option (ℕ × γ)} (h : Hears push parser s s' o)
    (hne : s'.messages c ≠ s.messages c) : s.key = some c := by
  cases h with
  | quiet hm _ _ => exact absurd (congrFun hm c) hne
  | dialed hm _ _ => exact absurd (congrFun hm c) hne
  | unread _ hm _ _ => exact absurd (congrFun hm c) hne
  | @read d _ _ _ _ _ hcur _ hm _ _ =>
    have heq : c = d := by
      by_contra hcd
      exact hne (by rw [hm, Function.update_of_ne hcd])
    rw [Subscriber.key, hcur, heq]
    rfl

lemma Sound.lawful {step : Subscriber ρ → α → Option (Subscriber ρ)} {piece : α → Option (ℕ × γ)}
    (hstep : ∀ s a s', Sound s → step s a = some s' → Sound s' ∧ Hears push parser s s' (piece a))
    (hclosed : ∀ s a s', Sound s → s.state = .closed → step s a = some s' → Still s s')
    (h : Sound s) : Lawful step s := by
  refine ⟨h, fun c hc hkey => ⟨?_, fun as s' hrun => ?_⟩, fun a s' c ha hne => ?_, ?_⟩
  · have hmade : s.phase c ≠ .unmade := fun hphase => by
      have := (h.fresh c).mpr hphase
      omega
    have hlive : s.phase c ≠ .live := fun hlive => hkey (h.sock c ((h.live c).mp hlive))
    cases hphase : s.phase c <;> simp_all
  · have hinv : Sound s' ∧ c < s'.dials ∧ s'.key ≠ some c := by
      refine invariant_run (fun s => Sound s ∧ c < s.dials ∧ s.key ≠ some c) ?_ ⟨h, hc, hkey⟩ hrun
      rintro t a t' ⟨ht, hct, hkt⟩ ha
      obtain ⟨ht', hears⟩ := hstep t a t' ht ha
      refine ⟨ht', Nat.lt_of_lt_of_le hct hears.dials_le, fun hk => ?_⟩
      rcases hears.key hk with hk | hk
      · exact hkt hk
      · omega
    exact ⟨hinv.2.2, fun hlive => hinv.2.2 (hinv.1.sock c ((hinv.1.live c).mp hlive))⟩
  · exact (hstep s a s' h ha).2.fromCurrent hne
  · intro hstate as s' hrun
    have hinv : Sound s' ∧ Still s s' := by
      refine invariant_run (fun t => Sound t ∧ Still s t) ?_ ⟨h, .rfl⟩ hrun
      rintro t a t' ⟨ht, hst⟩ ha
      have hstill := hclosed t a t' ht (hst.state.trans hstate) ha
      exact ⟨(hstep t a t' ht ha).1, hstill.state.trans hst.state,
        hstill.changes.trans hst.changes, hstill.messages.trans hst.messages⟩
    exact hinv.2

lemma Due.delivered {s₀ s' : Subscriber ρ} (h₀ : s₀ = .init) (h : Hears push parser s₀ s' none) :
    Delivered push parser (fun _ => []) s' := by
  subst h₀
  have hnone : Delivered push parser (fun _ => []) (Subscriber.init : Subscriber ρ) :=
    ⟨fun c => ⟨[], parser, List.prefix_rfl, rfl, nofun⟩, fun _ _ => rfl⟩
  exact hnone.step h

/-- **Subscribers do not die silently.** Whatever dials, sockets, timers and callers of `close` do,
in whatever order, each subscriber keeps its law; what a connection delivers is what its parser
makes of the first chunks or frames that came on it, of all of them while it is current; over a
socket there is a handshake in front of them; and a dial that returns when it is given up has its
socket ended. -/
theorem subscribers_lawful :
    (∀ opts as s, run (NngIpcSubscriber.step opts) NngIpcSubscriber.new as = some s →
      Lawful (NngIpcSubscriber.step opts) s ∧
      Delivered (NngIpcSubscriber.read opts) .new (piecesOf NngIpcSubscriber.Action.piece as) s ∧
      (∀ c, s.messages c ≠ [] → ∃ hs, NngFrameParser.checkHandshake
        (NngIpcSubscriber.parserOptions opts)
        ((piecesOf NngIpcSubscriber.Action.piece as c).flatten.take SP_HANDSHAKE_LENGTH) =
          .ok hs) ∧
      ∀ c s', s.key ≠ some c → NngIpcSubscriber.step opts s (.connected c) = some s' →
        s'.phase c = .ended) ∧
    ∀ opts thrown as s, run (NngWsSubscriber.step opts) (NngWsSubscriber.new opts thrown) as =
        some s →
      Lawful (NngWsSubscriber.step opts) s ∧
      Delivered (NngWsSubscriber.read opts) () (piecesOf NngWsSubscriber.Action.piece as) s := by
  refine ⟨fun opts as s hrun => ?_, fun opts thrown as s hrun => ?_⟩
  · have hstep : ∀ s a s', Sound s → NngIpcSubscriber.step opts s a = some s' → Sound s' ∧
        Hears (NngIpcSubscriber.read opts) .new s s' a.piece :=
      fun s a s' => NngIpcSubscriber.step_kept
    obtain ⟨hnew, hears⟩ := NngIpcSubscriber.dial_kept opts due_init
    obtain ⟨hs, hd⟩ := run_kept hstep hnew (Due.delivered rfl hears) hrun
    have hlawful := hs.lawful hstep fun s a s' => NngIpcSubscriber.step_closed
    refine ⟨hlawful, hd, fun c hne => ?_, fun c s' hkey hc => ?_⟩
    · obtain ⟨heard, q, ⟨rest, hrest⟩, hread, -⟩ := hd.read c
      obtain ⟨hshake, hsome⟩ := hear_handshaken hread
      obtain ⟨hs', hcheck, hlen⟩ := hshake.found (hsome hne)
      refine ⟨hs', ?_⟩
      rwa [← hrest, List.flatten_append, List.take_append_of_le_length hlen]
    · obtain ⟨-, rfl⟩ := of_guard hc
      rw [NngIpcSubscriber.onConnected, if_pos (.inl hkey)]
      exact Function.update_self ..
  · have hstep : ∀ s a s', Sound s → NngWsSubscriber.step opts s a = some s' → Sound s' ∧
        Hears (NngWsSubscriber.read opts) () s s' a.piece :=
      fun s a s' => NngWsSubscriber.step_kept
    obtain ⟨hnew, hears⟩ := NngWsSubscriber.dial_kept opts thrown due_init
    obtain ⟨hs, hd⟩ := run_kept hstep hnew (Due.delivered rfl hears) hrun
    exact ⟨hs.lawful hstep fun s a s' => NngWsSubscriber.step_closed, hd⟩

def lostSocket : List NngIpcSubscriber.Action :=
  [.opened 0, .connected 0, .data 0 (encodeSpHandshake SP_PROTO_PUB0),
    .data 0 [1, 0, 0, 0, 0, 0, 0, 0, 1, 7], .lost 0 .end]

/-- A subscriber that loses its socket after an event waits to dial again. -/
theorem subscribers_lawful_redial :
    ∃ s, run (NngIpcSubscriber.step { address := "/events", reconnect := some {} })
        NngIpcSubscriber.new lostSocket = some s ∧
      s.messages 0 = [[7]] ∧ s.state = .connecting ∧ s.timer = some 100 ∧
      Lawful (NngIpcSubscriber.step { address := "/events", reconnect := some {} }) s :=
  ⟨_, rfl, rfl, rfl, rfl, (subscribers_lawful.1 _ lostSocket _ rfl).1⟩

end FabPcb.EventSubscribers
