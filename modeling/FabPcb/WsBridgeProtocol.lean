import FabPcb.NngTransport
import FabPcb.SessionState

/-!
Framing between `WebSocketTransport` and the bridge.

A binary frame is four bytes of correlation id, big-endian, then the payload; events go under a
reserved id. A text frame is one control message, or whatever `parseControl` says of it.
-/

namespace FabPcb.WsBridgeProtocol

open NngFraming
open NngTransport (TransportError TransportErrorCode)
open SessionState (KiCadServerState)

/-- Reserved for relayed events; never used for a request. -/
def WS_EVENT_FRAME_ID : ℕ := 0xffffffff

/-- The largest id a client may allocate for a request. -/
def WS_MAX_REQUEST_ID : ℕ := WS_EVENT_FRAME_ID - 1

def encodeWsFrame (id : ℕ) (payload : Bytes) : Bytes := bigEndian 4 id ++ payload

def decodeWsFrame (bytes : Bytes) : Except TransportError (ℕ × Bytes) :=
  if bytes.length < 4 then
    .error ⟨.protocol, "WebSocket frame too short (" ++ toString bytes.length ++ " bytes)"⟩
  else .ok (ofBigEndian (bytes.take 4), bytes.drop 4)

def encodeEventFrame (event : Bytes) : Bytes := encodeWsFrame WS_EVENT_FRAME_ID event

def isEventFrame (id : ℕ) : Bool := id = WS_EVENT_FRAME_ID

inductive BridgeEventsState where
  | connected | disconnected
  deriving DecidableEq

inductive BridgeErrorCode where
  | transport (code : TransportErrorCode)
  | badRequest | noSession | internal
  deriving DecidableEq

/-- The keys that an optional field of a message may lack are `none`; `kicadToken` may also be
there and null. -/
inductive Control where
  | hello (sessionId : String) (kicadToken : Option String) (serverState : KiCadServerState)
      (eventsState : Option BridgeEventsState)
  | error (id : Option ℕ) (code : BridgeErrorCode) (message : String)
  | serverState (sessionId : String) (state : KiCadServerState)
      (kicadToken : Option (Option String))
  | events (sessionId : String) (state : BridgeEventsState)
  | ping (t : Option ℕ)
  | pong (t : Option ℕ)
  deriving DecidableEq

/-- A message of a WebSocket. A text that `parseControl` refuses is what it throws. -/
inductive Message where
  | text (control : Except TransportError Control)
  | binary (bytes : Bytes)

/-- **A frame is read back as it was written**, for any id of 32 bits. -/
theorem decodeWsFrame_encodeWsFrame {id : ℕ} (h : id < 2 ^ 32) (payload : Bytes) :
    decodeWsFrame (encodeWsFrame id payload) = .ok (id, payload) := by
  have hlen : (bigEndian 4 id).length = 4 := length_bigEndian 4 id
  have hlong : ¬ (encodeWsFrame id payload).length < 4 := by
    simp [encodeWsFrame, hlen]
  rw [decodeWsFrame, if_neg hlong, encodeWsFrame, List.take_left' hlen, List.drop_left' hlen,
    ofBigEndian_bigEndian (by omega)]

lemma foldl_lt (bytes : Bytes) (a : ℕ) :
    bytes.foldl (fun v b => v * 256 + b.toNat) a < (a + 1) * 256 ^ bytes.length := by
  induction bytes generalizing a with
  | nil => simp
  | cons b bytes ih =>
    have hb : b.toNat < 256 := b.toNat_lt
    have hle : a * 256 + b.toNat + 1 ≤ (a + 1) * 256 := by omega
    have hpow : (a + 1) * 256 ^ (bytes.length + 1) = (a + 1) * 256 * 256 ^ bytes.length := by
      rw [Nat.pow_succ, Nat.mul_comm (256 ^ _), Nat.mul_assoc]
    rw [List.length_cons, hpow]
    exact Nat.lt_of_lt_of_le (ih _) (Nat.mul_le_mul_right _ hle)

lemma ofBigEndian_lt (bytes : Bytes) : ofBigEndian bytes < 256 ^ bytes.length := by
  have h := foldl_lt bytes 0
  rwa [Nat.one_mul] at h

lemma lt_of_decodeWsFrame {bytes payload : Bytes} {id : ℕ}
    (h : decodeWsFrame bytes = .ok (id, payload)) : id < 2 ^ 32 := by
  unfold decodeWsFrame at h
  split_ifs at h with hlen
  cases h
  have hlt := ofBigEndian_lt (bytes.take 4)
  rw [List.length_take_of_le (by omega)] at hlt
  simpa using hlt

end FabPcb.WsBridgeProtocol
