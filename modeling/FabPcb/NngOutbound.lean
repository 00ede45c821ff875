import FabPcb.NngIpc

/-!
What `NngIpcTransport` writes to its sockets.

A write accepts any number of bytes from the front of what it is given. What it leaves of a
frame waits in the backlog of the connection until the socket drains; the handshake, which
`open` writes, is not looked after. The frames a step of the transport sends are the requests
its log gains.
-/

namespace FabPcb.NngOutbound

open NngFraming NngTransport Runs
open NngIpc hiding Action step new run_goes step_goes

/-- The sending side of a connection: what its socket has accepted, and what waits. -/
structure Wire where
  opened : Bool
  accepted : Bytes
  writeBacklog : Option Bytes

def Wire.fresh : Wire := ⟨false, [], none⟩

/-- `sock.write(bytes)`, of which the socket accepts `n` bytes; `-1` on a dead socket. -/
def Wire.write (w : Wire) (bytes : Bytes) (n : ℤ) : Wire :=
  { w with accepted := w.accepted ++ bytes.take n.toNat }

def writeAll (w : Wire) (bytes : Bytes) (n : ℤ) : Wire :=
  let w := w.write bytes n
  if n < bytes.length then { w with writeBacklog := some (bytes.drop (max n 0).toNat) } else w

/-- The `open` handler. -/
def onOpen (w : Wire) (n : ℤ) : Wire :=
  { w with opened := true }.write (encodeSpHandshake SP_PROTO_REQ0) n

/-- Frames written one after the other, with what the socket accepts of each. -/
def writeFrames (w : Wire) : List Bytes → List ℤ → Option Wire
  | [], [] => some w
  | frame :: frames, n :: ns =>
    if n ≤ frame.length then writeFrames (writeAll w frame n) frames ns else none
  | _, _ => none

/-- The frames of the requests sent. -/
def sentFrames (log : List Event) : List Bytes :=
  log.filterMap fun
    | .sent _ _ frame => some frame
    | _ => none

/-- A transport with its sockets, and the frames dispatched so far, each with its connection. -/
structure Outbound where
  transport : Transport
  wires : ℕ → Wire
  dispatched : List (ℕ × Bytes)

def new : Outbound := ⟨NngIpc.new, fun _ => .fresh, []⟩

/-- The frames dispatched on a connection, in order. -/
def Outbound.framesOn (o : Outbound) (c : ℕ) : List Bytes :=
  (o.dispatched.filter (·.1 = c)).map Prod.snd

def onDrain (o : Outbound) (c : ℕ) (n : ℤ) : Option Outbound :=
  if o.transport.conn.any fun conn => conn.key = c && conn.sock then
    match (o.wires c).writeBacklog with
    | none => some o
    | some backlog =>
      if n ≤ backlog.length then
        let w := { o.wires c with writeBacklog := none }
        some { o with wires := Function.update o.wires c (writeAll w backlog n) }
      else none
  else some o

/-! ### Steps -/

inductive Action where
  | opened (c : ℕ) (n : ℤ)
  | drain (c : ℕ) (n : ℤ)
  | transport (a : NngIpc.Action) (ns : List ℤ)

/-- `open` comes before any other callback of a connection, and before `Bun.connect` resolves. -/
def Outbound.allows (o : Outbound) : NngIpc.Action → Bool
  | .connected c => (o.wires c).opened
  | .data c _ => (o.wires c).opened
  | _ => true

/-- The frames sent between two states of a transport. -/
def framesBetween (t t' : Transport) : List Bytes :=
  (sentFrames t'.log).drop (sentFrames t.log).length

def step (opts : Options) (o : Outbound) : Action → Option Outbound
  | .opened c n =>
    if c < o.transport.dials ∧ (o.wires c).opened = false ∧
        n ≤ (encodeSpHandshake SP_PROTO_REQ0).length then
      some { o with wires := Function.update o.wires c (onOpen (o.wires c) n) }
    else none
  | .drain c n => if (o.wires c).opened then onDrain o c n else none
  | .transport a ns =>
    if o.allows a then
      (NngIpc.step opts o.transport a).bind fun t =>
        match o.transport.conn with
        | none => some { o with transport := t }
        | some conn =>
          let frames := framesBetween o.transport t
          (writeFrames (o.wires conn.key) frames ns).map fun w =>
            { transport := t, wires := Function.update o.wires conn.key w,
              dispatched := o.dispatched ++ frames.map fun frame => (conn.key, frame) }
    else none

/-! ### What a step of the transport sends -/

section Sends

variable {opts : Options} {t u v t' : Transport}

@[simp] lemma sentFrames_append (log log' : List Event) :
    sentFrames (log ++ log') = sentFrames log ++ sentFrames log' :=
  List.filterMap_append ..

@[simp] lemma sentFrames_rejected (ns : List ℕ) (err : TransportError) :
    sentFrames (ns.map fun n => .rejected n err) = [] := by
  induction ns with
  | nil => rfl
  | cons n ns ih => exact ih

/-- Nothing is sent, and the connection stays. -/
structure Quiet (t t' : Transport) : Prop where
  frames : sentFrames t'.log = sentFrames t.log
  conn : t'.conn = t.conn

/-- The connection stays, and has its socket where anything is sent. -/
structure Sends (t t' : Transport) : Prop where
  conn : t'.conn = t.conn
  frames : ∃ fs, sentFrames t'.log = sentFrames t.log ++ fs ∧
    (fs ≠ [] → ∃ c, t.conn = some ⟨c, true⟩)

lemma Quiet.trans (h : Quiet t u) (h' : Quiet u v) : Quiet t v :=
  ⟨h'.frames.trans h.frames, h'.conn.trans h.conn⟩

lemma Quiet.sends (h : Quiet t u) : Sends t u :=
  ⟨h.conn, [], by rw [h.frames, List.append_nil], fun hne => absurd rfl hne⟩

lemma Sends.trans (h : Sends t u) (h' : Sends u v) : Sends t v := by
  obtain ⟨fs, hfs, hsock⟩ := h.frames
  obtain ⟨fs', hfs', hsock'⟩ := h'.frames
  refine ⟨h'.conn.trans h.conn, fs ++ fs', by rw [hfs', hfs, List.append_assoc], fun hne => ?_⟩
  by_cases hnil : fs = []
  · subst hnil
    rw [← h.conn]
    exact hsock' hne
  · exact hsock hnil

lemma rejectInFlight_quiet (t : Transport) (err : TransportError) :
    Quiet t (t.rejectInFlight err) := by
  unfold Transport.rejectInFlight
  split
  · exact ⟨rfl, rfl⟩
  · exact ⟨by simp [sentFrames], rfl⟩

lemma failAll_quiet (t : Transport) (err : TransportError) : Quiet t (t.failAll err) := by
  refine (rejectInFlight_quiet t err).trans ⟨?_, rfl⟩
  simp only [Transport.failAll, sentFrames_append, sentFrames_rejected, List.append_nil]

lemma afterDisconnect_quiet (opts : Options) (t : Transport) (err : TransportError) :
    Quiet t (t.afterDisconnect opts err) := by
  unfold Transport.afterDisconnect
  split_ifs
  · exact ⟨rfl, rfl⟩
  · exact ⟨rfl, rfl⟩
  · exact (failAll_quiet t err).trans ⟨rfl, rfl⟩

lemma enqueue_quiet (opts : Options) (t : Transport) (refusal : TransportError)
    (payload : Bytes) (timeoutMs : Option (Option ℕ)) :
    Quiet t (t.enqueue opts refusal payload timeoutMs) := by
  unfold Transport.enqueue
  split_ifs
  · exact ⟨by simp [sentFrames], rfl⟩
  · exact ⟨by simp [sentFrames], rfl⟩

lemma pump_sends (t : Transport) : Sends t (pump t) := by
  unfold pump
  split_ifs
  · exact Quiet.sends ⟨rfl, rfl⟩
  · split
    case h_1 p rest conn hqueue hconn =>
      split_ifs with hsock
      · refine ⟨rfl, _, sentFrames_append _ _, fun _ => ⟨conn.key, ?_⟩⟩
        rw [hconn, ← hsock]
      · exact Quiet.sends ⟨rfl, rfl⟩
    case h_2 => exact Quiet.sends ⟨rfl, rfl⟩

lemma onMessage_sends (t : Transport) (body : Bytes) : Sends t (onMessage t body) := by
  unfold onMessage
  split
  case h_1 => exact Quiet.sends ⟨rfl, rfl⟩
  case h_2 id payload hbody =>
    unfold Transport.receive
    split
    case h_1 p hp =>
      split_ifs
      · have hresolve : Quiet t
            { t with inFlight := none, log := t.log ++ [.resolved p.number payload] } :=
          ⟨by simp [sentFrames], rfl⟩
        exact hresolve.sends.trans (pump_sends _)
      · exact Quiet.sends ⟨rfl, rfl⟩
    case h_2 => exact Quiet.sends ⟨rfl, rfl⟩

lemma onMessages_sends (t : Transport) (bodies : List Bytes) :
    Sends t (bodies.foldl onMessage t) := by
  induction bodies generalizing t with
  | nil => exact Quiet.sends ⟨rfl, rfl⟩
  | cons body bodies ih => exact (onMessage_sends t body).trans (ih _)

/-- What a step does to the connection: it stays, and has its socket where anything is sent; or
nothing is sent, and there is no socket after; or its socket is there now. -/
inductive Wires (a : NngIpc.Action) (t t' : Transport) : Prop
  | stays (h : Sends t t')
  | lost (hframes : sentFrames t'.log = sentFrames t.log) (hsock : ∀ c, t'.conn ≠ some ⟨c, true⟩)
  | gained (c : ℕ) (ha : a = .connected c) (hframes : sentFrames t'.log = sentFrames t.log)
      (hconn : t'.conn = some ⟨c, true⟩)

lemma Wires.of_quiet {a : NngIpc.Action} (hlog : u.log = t.log) (hconn : u.conn = none)
    (h : Quiet u t') : Wires a t t' := by
  refine .lost (h.frames.trans (by rw [hlog])) fun c hc => ?_
  rw [h.conn, hconn] at hc
  cases hc

lemma onConnectFailure_wires {a : NngIpc.Action} (c : ℕ) (cause : Cause) :
    Wires a t (onConnectFailure opts t c cause) := by
  unfold onConnectFailure
  split_ifs
  · exact .of_quiet (u := { t with conn := none, lastError := _ }) rfl rfl
      (afterDisconnect_quiet _ _ _)
  · exact .stays (Quiet.sends ⟨rfl, rfl⟩)

lemma lost_wires {a : NngIpc.Action} (err : TransportError) :
    Wires a t (({ t with conn := none, lastError := some err }.rejectInFlight err).afterDisconnect
      opts err) :=
  .of_quiet (u := { t with conn := none, lastError := some err }) rfl rfl
    ((rejectInFlight_quiet _ err).trans (afterDisconnect_quiet _ _ _))

lemma onData_wires {a : NngIpc.Action} (c : ℕ) (chunk : Chunk) :
    Wires a t (onData opts t c chunk) := by
  unfold onData
  split_ifs
  · match chunk with
    | .error err => exact lost_wires err
    | .ok (handshaken, bodies) =>
      refine .stays (Sends.trans (u := ite _ _ _) ?_ (onMessages_sends _ bodies))
      split_ifs
      · have hopen : Quiet t ({ t with everOpened := true, attempt := 0 }.setState .opened) :=
          ⟨rfl, rfl⟩
        exact hopen.sends.trans (pump_sends _)
      · exact Quiet.sends ⟨rfl, rfl⟩
  · exact .stays (Quiet.sends ⟨rfl, rfl⟩)

lemma onRequestTimeout_wires {a : NngIpc.Action} (n : ℕ) :
    Wires a t (onRequestTimeout opts t n) := by
  unfold onRequestTimeout
  split
  · exact .stays (Quiet.sends ⟨rfl, rfl⟩)
  case h_2 p hp =>
    split_ifs
    · have hexpire : Quiet t (t.expire p) := ⟨by simp [Transport.expire, sentFrames], rfl⟩
      cases opts.onTimeout with
      | keep => exact .stays (hexpire.sends.trans (pump_sends _))
      | reconnect =>
        simp only
        split_ifs
        · refine .lost ((afterDisconnect_quiet _ _ _).frames.trans hexpire.frames) fun c hc => ?_
          rw [(afterDisconnect_quiet _ _ _).conn] at hc
          cases hc
        · exact .lost hexpire.frames fun c hc => by cases hc
    · exact .stays (Quiet.sends ⟨rfl, rfl⟩)

/-- **What a step sends goes out on one connection**, which has its socket and stays. -/
theorem step_wires {a : NngIpc.Action} (h : NngIpc.step opts t a = some t') : Wires a t t' := by
  cases a with
  | send payload timeoutMs =>
    cases h
    exact .stays ((enqueue_quiet ..).sends.trans (pump_sends _))
  | close =>
    cases h
    unfold close
    split_ifs
    · exact .stays (Quiet.sends ⟨rfl, rfl⟩)
    · exact .lost (failAll_quiet _ _).frames fun c hc => by cases hc
  | connected c =>
    cases h
    unfold connected
    split_ifs
    · exact .gained c rfl rfl rfl
    · exact .stays (Quiet.sends ⟨rfl, rfl⟩)
  | connectFailed c cause => cases h; exact onConnectFailure_wires c cause
  | connectTimeout c =>
    cases h
    unfold onConnectTimeout
    split_ifs
    · exact onConnectFailure_wires c _
    · exact .stays (Quiet.sends ⟨rfl, rfl⟩)
  | socketClosed c cause =>
    cases h
    unfold onSocketClosed
    split
    · exact lost_wires _
    · exact .stays (Quiet.sends ⟨rfl, rfl⟩)
  | data c chunk =>
    have hdata : t' = onData opts t c chunk := by
      simp only [NngIpc.step] at h
      split at h
      · exact (Option.some.inj h).symm
      · split_ifs at h
        exact (Option.some.inj h).symm
    exact hdata ▸ onData_wires c chunk
  | timeout n =>
    simp only [NngIpc.step] at h
    split_ifs at h
    cases h
    exact onRequestTimeout_wires n
  | redial =>
    simp only [NngIpc.step] at h
    split_ifs at h
    cases h
    unfold dial
    split_ifs
    · exact .stays (Quiet.sends ⟨rfl, rfl⟩)
    · exact .lost rfl fun c hc => by cases hc
  | answer n reply =>
    simp only [NngIpc.step, Transport.answer] at h
    split at h
    · cases h
    · split_ifs at h
      cases h
      exact .stays (Quiet.sends ⟨by simp [sentFrames], rfl⟩)

end Sends

/-! ### The stream of a connection -/

/-- What a socket has accepted, then what waits for it. -/
def Wire.stream (w : Wire) : Bytes := w.accepted ++ w.writeBacklog.getD []

section Stream

variable {w w' : Wire} {bytes : Bytes} {n : ℤ}

lemma toNat_max (n : ℤ) : (max n 0).toNat = n.toNat := by omega

lemma opened_writeAll (w : Wire) (bytes : Bytes) (n : ℤ) :
    (writeAll w bytes n).opened = w.opened := by
  unfold writeAll
  split_ifs <;> rfl

lemma stream_writeAll (h : w.writeBacklog = none) (hn : n ≤ bytes.length) :
    (writeAll w bytes n).stream = w.stream ++ bytes := by
  have hsplit : bytes.take n.toNat ++ bytes.drop n.toNat = bytes := List.take_append_drop ..
  unfold writeAll
  split_ifs with hlt
  · simp [Wire.stream, Wire.write, h, Option.getD_some, Option.getD_none, toNat_max,
      List.append_nil, List.append_assoc, hsplit]
  · have hall : bytes.take n.toNat = bytes := List.take_of_length_le (by omega)
    simp [Wire.stream, Wire.write, h, Option.getD_none, List.append_nil, hall]

lemma stream_drain {backlog : Bytes} (h : w.writeBacklog = some backlog)
    (hn : n ≤ backlog.length) :
    (writeAll { w with writeBacklog := none } backlog n).stream = w.stream := by
  rw [stream_writeAll rfl hn, Wire.stream, Wire.stream, h, Option.getD_none, Option.getD_some,
    List.append_nil]

/-- Each of some frames is written when nothing waits. -/
def clear (w : Wire) : List Bytes → List ℤ → Bool
  | frame :: frames, n :: ns => w.writeBacklog.isNone && clear (writeAll w frame n) frames ns
  | _, _ => true

lemma stream_writeFrames {frames : List Bytes} {ns : List ℤ} (hclear : clear w frames ns)
    (h : writeFrames w frames ns = some w') :
    w'.stream = w.stream ++ frames.flatten ∧ w'.opened = w.opened := by
  induction frames generalizing w ns with
  | nil =>
    cases ns with
    | nil => cases h; exact ⟨(List.append_nil _).symm, rfl⟩
    | cons n ns => cases h
  | cons frame frames ih =>
    cases ns with
    | nil => cases h
    | cons n ns =>
      simp only [clear, Bool.and_eq_true, Option.isNone_iff_eq_none] at hclear
      rw [writeFrames] at h
      split_ifs at h with hn
      obtain ⟨hstream, hopened⟩ := ih hclear.2 h
      rw [hstream, stream_writeAll hclear.1 hn, hopened, opened_writeAll, List.append_assoc]
      exact ⟨rfl, rfl⟩

end Stream

/-! ### Runs -/

/-- The handshake is accepted whole, and no frame is dispatched while the rest of an earlier one
waits. -/
def unhindered (opts : Options) (o : Outbound) : Action → Bool
  | .opened _ n => n = (encodeSpHandshake SP_PROTO_REQ0).length
  | .drain _ _ => true
  | .transport a ns =>
    match NngIpc.step opts o.transport a, o.transport.conn with
    | some t, some conn => clear (o.wires conn.key) (framesBetween o.transport t) ns
    | _, _ => true

/-- What a connection should carry. -/
def Outbound.due (o : Outbound) (c : ℕ) : Bytes :=
  encodeSpHandshake SP_PROTO_REQ0 ++ (o.framesOn c).flatten

structure Inv (o : Outbound) : Prop where
  frames : o.dispatched.map Prod.snd = sentFrames o.transport.log
  stream : ∀ c, (o.wires c).opened = true → (o.wires c).stream = o.due c
  idle : ∀ c, (o.wires c).opened = false → (o.wires c).stream = [] ∧ o.framesOn c = []
  sock : ∀ c, o.transport.conn = some ⟨c, true⟩ → (o.wires c).opened = true

variable {opts : Options} {o o' : Outbound}

lemma inv_new : Inv new :=
  ⟨rfl, fun _ h => (by cases h), fun _ _ => ⟨rfl, rfl⟩, fun _ h => (by cases h)⟩

lemma framesBetween_of_append {t t' : Transport} {fs : List Bytes}
    (h : sentFrames t'.log = sentFrames t.log ++ fs) : framesBetween t t' = fs := by
  rw [framesBetween, h, List.drop_left]

lemma inv_opened {c : ℕ} {n : ℤ} (hi : Inv o) (hok : unhindered opts o (.opened c n))
    (h : step opts o (.opened c n) = some o') : Inv o' := by
  simp only [step] at h
  split_ifs at h with hopen
  cases h
  have hn : n = (encodeSpHandshake SP_PROTO_REQ0).length := of_decide_eq_true hok
  obtain ⟨hstream, hframes⟩ := hi.idle c hopen.2.1
  have hwire : (onOpen (o.wires c) n).stream = o.due c := by
    have hparts := List.append_eq_nil_iff.mp hstream
    have hbacklog : ({ o.wires c with opened := true }.write
        (encodeSpHandshake SP_PROTO_REQ0) n).writeBacklog.getD [] = [] := hparts.2
    rw [onOpen, Wire.stream, hbacklog, Outbound.due, hframes, hn]
    simp [Wire.write, hparts.1]
  refine ⟨hi.frames, fun d hd => ?_, fun d hd => ?_, fun d hd => ?_⟩
  · by_cases hdc : d = c
    · subst hdc
      simp only [Function.update_self]
      exact hwire
    · simp only [Function.update_of_ne hdc] at hd ⊢
      exact hi.stream d hd
  · by_cases hdc : d = c
    · subst hdc
      simp [onOpen, Wire.write] at hd
    · simp only [Function.update_of_ne hdc] at hd ⊢
      exact hi.idle d hd
  · by_cases hdc : d = c
    · subst hdc
      simp [onOpen, Wire.write]
    · simp only [Function.update_of_ne hdc]
      exact hi.sock d hd

lemma inv_of_stream {c : ℕ} {w : Wire} (hi : Inv o) (hstream : w.stream = (o.wires c).stream)
    (hopened : w.opened = (o.wires c).opened) :
    Inv { o with wires := Function.update o.wires c w } := by
  have hsame : ∀ d, (Function.update o.wires c w d).stream = (o.wires d).stream ∧
      (Function.update o.wires c w d).opened = (o.wires d).opened := by
    intro d
    by_cases hdc : d = c
    · subst hdc
      simp [hstream, hopened]
    · simp [Function.update_of_ne hdc]
  refine ⟨hi.frames, fun d hd => ?_, fun d hd => ?_, fun d hd => ?_⟩
  · exact (hsame d).1.trans (hi.stream d ((hsame d).2.symm.trans hd))
  · rw [(hsame d).1]
    exact hi.idle d ((hsame d).2.symm.trans hd)
  · exact (hsame d).2.trans (hi.sock d hd)

lemma inv_drain {c : ℕ} {n : ℤ} (hi : Inv o) (h : step opts o (.drain c n) = some o') :
    Inv o' := by
  simp only [step] at h
  unfold onDrain at h
  split_ifs at h
  · split at h
    case h_1 => cases h; exact hi
    case h_2 backlog hbacklog =>
      split_ifs at h with hn
      cases h
      exact inv_of_stream hi (stream_drain hbacklog hn) (opened_writeAll _ _ _)
  · cases h
    exact hi

lemma due_append (t : Transport) (wires : ℕ → Wire) (dispatched : List (ℕ × Bytes))
    (k c : ℕ) (frames : List Bytes) :
    Outbound.due ⟨t, wires, dispatched ++ frames.map fun frame => (k, frame)⟩ c =
      Outbound.due ⟨t, wires, dispatched⟩ c ++ if k = c then frames.flatten else [] := by
  have hmap : (((frames.map fun frame => (k, frame)).filter (·.1 = c)).map Prod.snd).flatten =
      if k = c then frames.flatten else [] := by
    by_cases hkc : k = c
    · simp [List.filter_map, Function.comp_def, hkc]
    · simp [List.filter_map, Function.comp_def, hkc]
  simp only [Outbound.due, Outbound.framesOn]
  rw [List.filter_append, List.map_append, List.flatten_append, hmap, List.append_assoc]

lemma inv_quiet {t : Transport} (hi : Inv o)
    (hframes : sentFrames t.log = sentFrames o.transport.log)
    (hsock : ∀ c, t.conn = some ⟨c, true⟩ → (o.wires c).opened = true) :
    Inv { o with transport := t } :=
  ⟨hi.frames.trans hframes.symm, hi.stream, hi.idle, hsock⟩

lemma framesOn_nil_of_idle {k c : ℕ} {frames : List Bytes}
    (hidle : o.framesOn c = []) (hframes : k = c → frames = []) (t : Transport)
    (wires : ℕ → Wire) :
    Outbound.framesOn ⟨t, wires, o.dispatched ++ frames.map fun frame => (k, frame)⟩ c = [] := by
  by_cases hkc : k = c
  · rw [hframes hkc, List.map_nil, List.append_nil]
    exact hidle
  · simp only [Outbound.framesOn] at hidle ⊢
    rw [List.filter_append, List.map_append, hidle]
    simp [List.filter_map, Function.comp_def, hkc]

/-- A step of the transport that sends some frames, which its wire takes. -/
lemma inv_sends {t : Transport} {k : ℕ} {w : Wire} {frames : List Bytes} (hi : Inv o)
    (hsends : sentFrames t.log = sentFrames o.transport.log ++ frames)
    (hsock : frames ≠ [] → (o.wires k).opened = true)
    (hw : w.stream = (o.wires k).stream ++ frames.flatten)
    (hopened : w.opened = (o.wires k).opened)
    (hstays : ∀ c, t.conn = some ⟨c, true⟩ → (o.wires c).opened = true) :
    Inv ⟨t, Function.update o.wires k w,
      o.dispatched ++ frames.map fun frame => (k, frame)⟩ := by
  have hopened_all : ∀ c, (Function.update o.wires k w c).opened = (o.wires c).opened := by
    intro c
    by_cases hck : c = k
    · subst hck
      rw [Function.update_self, hopened]
    · rw [Function.update_of_ne hck]
  have hstream_all : ∀ c, (Function.update o.wires k w c).stream =
      (o.wires c).stream ++ if k = c then frames.flatten else [] := by
    intro c
    by_cases hck : c = k
    · subst hck
      rw [Function.update_self, if_pos rfl, hw]
    · rw [Function.update_of_ne hck, if_neg (Ne.symm hck), List.append_nil]
  refine ⟨?_, fun c hc => ?_, fun c hc => ?_, fun c hc => ?_⟩
  · rw [hsends, ← hi.frames]
    simp [Function.comp_def]
  · rw [hopened_all] at hc
    rw [hstream_all, due_append, hi.stream c hc]
    rfl
  · rw [hopened_all] at hc
    have hnil : k = c → frames = [] := by
      intro hkc
      by_contra hne
      rw [hkc, hc] at hsock
      cases hsock hne
    obtain ⟨hstream, hframes⟩ := hi.idle c hc
    refine ⟨?_, framesOn_nil_of_idle hframes hnil _ _⟩
    rw [hstream_all, hstream]
    by_cases hkc : k = c
    · rw [if_pos hkc, hnil hkc]
      rfl
    · rw [if_neg hkc]
      rfl
  · rw [hopened_all]
    exact hstays c hc

lemma inv_transport {a : NngIpc.Action} {ns : List ℤ} (hi : Inv o)
    (hok : unhindered opts o (.transport a ns)) (h : step opts o (.transport a ns) = some o') :
    Inv o' := by
  simp only [step] at h
  split_ifs at h with hallows
  obtain ⟨t, ht, h⟩ := Option.bind_eq_some_iff.mp h
  obtain ⟨fs, hfs, hsock, hstays⟩ : ∃ fs, sentFrames t.log = sentFrames o.transport.log ++ fs ∧
      (fs ≠ [] → ∃ c, o.transport.conn = some ⟨c, true⟩) ∧
      ∀ c, t.conn = some ⟨c, true⟩ → (o.wires c).opened = true := by
    cases step_wires ht with
    | stays hsends =>
      obtain ⟨fs, hfs, hsock⟩ := hsends.frames
      exact ⟨fs, hfs, hsock, fun c hc => hi.sock c (hsends.conn ▸ hc)⟩
    | lost hframes hsock =>
      exact ⟨[], by rw [hframes, List.append_nil], fun hne => absurd rfl hne,
        fun c hc => absurd hc (hsock c)⟩
    | gained c ha hframes hconn =>
      refine ⟨[], by rw [hframes, List.append_nil], fun hne => absurd rfl hne, fun d hd => ?_⟩
      rw [hconn] at hd
      cases hd
      subst ha
      exact hallows
  cases hconn : o.transport.conn with
  | none =>
    rw [hconn] at h hsock
    cases h
    have hnil : fs = [] := by
      by_contra hne
      obtain ⟨c, hc⟩ := hsock hne
      cases hc
    exact inv_quiet hi (by rw [hfs, hnil, List.append_nil]) hstays
  | some conn =>
    rw [hconn] at h hsock
    obtain ⟨w, hw, h⟩ := Option.map_eq_some_iff.mp h
    subst h
    simp only [unhindered, ht, hconn] at hok
    rw [framesBetween_of_append hfs] at hw hok ⊢
    obtain ⟨hstream, hopened⟩ := stream_writeFrames hok hw
    refine inv_sends hi hfs (fun hne => ?_) hstream hopened hstays
    obtain ⟨c, hc⟩ := hsock hne
    cases hc
    exact hi.sock c hconn

/-- **A step keeps the streams whole**, if the handshake is accepted whole and no frame is
dispatched over a backlog. -/
theorem inv_step {a : Action} (hi : Inv o) (hok : unhindered opts o a)
    (h : step opts o a = some o') : Inv o' := by
  cases a with
  | opened c n => exact inv_opened hi hok h
  | drain c n => exact inv_drain hi h
  | transport a ns => exact inv_transport hi hok h

/-- **The outbound stream**: in a run where the handshake is accepted whole and no request is
dispatched over a backlog, what a socket has accepted is a prefix of the handshake and the
frames dispatched on it, what is missing waits in the backlog, and the frames dispatched are
those of the requests sent. -/
theorem accepted_prefix {as : List Action}
    (hok : Along (step opts) (fun o a => unhindered opts o a) new as)
    (hrun : run (step opts) new as = some o) :
    o.dispatched.map Prod.snd = sentFrames o.transport.log ∧
      ∀ c, (o.wires c).accepted <+: o.due c ∧
        ((o.wires c).opened = true →
          (o.wires c).accepted ++ (o.wires c).writeBacklog.getD [] = o.due c) := by
  have hi : Inv o :=
    invariant_along Inv (fun _ _ _ hs hok h => inv_step hs hok h) inv_new hok hrun
  refine ⟨hi.frames, fun c => ⟨?_, hi.stream c⟩⟩
  cases hc : (o.wires c).opened with
  | true => exact ⟨_, hi.stream c hc⟩
  | false =>
    have haccepted := (List.append_eq_nil_iff.mp (hi.idle c hc).1).1
    rw [haccepted]
    exact List.nil_prefix

/-- The writes of two requests, the first cut after five bytes and drained. -/
def drained : List Action :=
  [.opened 0 8, .transport (.connected 0) [], .transport (.data 0 (.ok (true, []))) [],
    .transport (.send [7] none) [5], .transport (.send [9] none) [], .drain 0 9,
    .transport (.timeout 0) [14]]

def defaults : Options where
  address := "kicad.sock"

lemma along_drained :
    Along (step defaults) (fun o a => unhindered defaults o a) new drained := by
  decide +kernel

/-- The prefix law on a run with a cut frame, a drain and a timeout. -/
theorem accepted_prefix_drained : ∃ o, run (step defaults) new drained = some o ∧
    (o.dispatched.map Prod.snd = sentFrames o.transport.log ∧
      ∀ c, (o.wires c).accepted <+: o.due c ∧
        ((o.wires c).opened = true →
          (o.wires c).accepted ++ (o.wires c).writeBacklog.getD [] = o.due c)) := by
  have hrun : (run (step defaults) new drained).isSome = true := by decide +kernel
  obtain ⟨o, ho⟩ := Option.isSome_iff_exists.mp hrun
  exact ⟨o, ho, accepted_prefix along_drained ho⟩

/-! ### A timeout over a backlog -/

/-- A request is cut after five bytes and times out; the next one goes out whole. -/
def overtaking : List Action :=
  [.opened 0 8, .transport (.connected 0) [], .transport (.data 0 (.ok (true, []))) [],
    .transport (.send [7] none) [5], .transport (.send [9] none) [],
    .transport (.timeout 0) [14]]

/-- **A frame overtakes the rest of the one before.** -/
theorem accepted_not_prefix :
    ¬ ∀ (opts : Options) (as : List Action) (o : Outbound), run (step opts) new as = some o →
      ∀ c, (o.wires c).accepted <+: o.due c := by
  intro h
  have hbroken : (run (step defaults) new overtaking).map
      (fun o => decide ((o.wires 0).accepted <+: o.due 0)) = some false := by decide +kernel
  obtain ⟨o, ho, hfalse⟩ := Option.map_eq_some_iff.mp hbroken
  exact of_decide_eq_false hfalse (h defaults overtaking o ho 0)

end FabPcb.NngOutbound
