import FabPcb.NngTransport
import FabPcb.StreamDecoder

/-!
`NngFrameParser` and `StdioFrameParser`: frames from the chunks of a socket or of a pipe.

Over a socket the peer's handshake comes first and a frame has a type byte and eight bytes of
length in front; over a pipe a frame has four bytes of length. The parser of the socket keeps the
chunks as they came, that of the pipe one buffer. What `push` throws leaves a parser of no use.
-/

namespace FabPcb.FrameParsers

open NngFraming StreamDecoder
open NngTransport (TransportError hex)

def SP_HANDSHAKE_LENGTH : ℕ := 8

def NNG_FRAME_HEADER_LENGTH : ℕ := 9

def STDIO_FRAME_HEADER_LENGTH : ℕ := 4

def DEFAULT_MAX_FRAME_BYTES : ℕ := 256 * 1024 * 1024

/-- `new Uint8Array(n)`, filled: the runtime throws beyond the 4 GiB that a typed array may
have. -/
def newUint8Array (bytes : Bytes) : Option Bytes :=
  if bytes.length ≤ 2 ^ 32 then some bytes else none

def encodeStdioFrame (payload : Bytes) : Option Bytes :=
  newUint8Array (bigEndian STDIO_FRAME_HEADER_LENGTH payload.length ++ payload)

structure SpHandshake where
  proto : ℕ
  deriving DecidableEq

def hexBytes (bytes : Bytes) : String :=
  String.join (bytes.map fun b => if b < 16 then "0" ++ hex b.toNat else hex b.toNat)

def decodeSpHandshake (bytes : Bytes) : Except TransportError SpHandshake :=
  if bytes.length < SP_HANDSHAKE_LENGTH then
    .error ⟨.protocol, "SP handshake too short (" ++ toString bytes.length ++ " bytes)"⟩
  else if bytes.take 4 ≠ [0x00, 0x53, 0x50, 0x00] then
    .error ⟨.protocol, "bad SP handshake magic: " ++ hexBytes (bytes.take 8)⟩
  else if (bytes.drop 6).take 2 ≠ [0x00, 0x00] then
    .error ⟨.protocol, "bad SP handshake trailer: " ++ hexBytes (bytes.take 8)⟩
  else .ok ⟨ofBigEndian ((bytes.drop 4).take 2)⟩

/-! ### `NngFrameParser` -/

structure NngFrameParserOptions where
  expectPeerProto : Option ℕ := none
  maxFrameBytes : ℕ := DEFAULT_MAX_FRAME_BYTES

/-- No chunk is empty, and `buffered` counts their bytes. -/
structure NngFrameParser where
  chunks : List Bytes
  buffered : ℕ
  handshake : Option SpHandshake
  nonempty : [] ∉ chunks
  counted : buffered = chunks.flatten.length

namespace NngFrameParser

def new : NngFrameParser := ⟨[], 0, none, List.not_mem_nil, rfl⟩

/-- The bytes that are kept. -/
def bytes (p : NngFrameParser) : Bytes := p.chunks.flatten

def append (p : NngFrameParser) (chunk : Bytes) : NngFrameParser :=
  if h : chunk = [] then p
  else
    { p with
      chunks := p.chunks ++ [chunk]
      buffered := p.buffered + chunk.length
      nonempty := by simp [p.nonempty, Ne.symm h]
      counted := by simp [p.counted] }

/-- The first `n` bytes, copied from chunk after chunk. -/
def peekChunks : ℕ → List Bytes → Bytes
  | 0, _ => []
  | _ + 1, [] => []
  | n + 1, c :: cs =>
    let take := min c.length (n + 1)
    c.take take ++ peekChunks (n + 1 - take) cs

def peek (p : NngFrameParser) (n : ℕ) : Bytes := peekChunks n p.chunks

/-- The first `n` bytes and the chunks without them. A chunk that is used up goes, the last one is
cut. -/
def takeChunks : ℕ → List Bytes → Bytes × List Bytes
  | 0, cs => ([], cs)
  | _ + 1, [] => ([], [])
  | n + 1, c :: cs =>
    let take := min c.length (n + 1)
    if take = c.length then
      let r := takeChunks (n + 1 - take) cs
      (c ++ r.1, r.2)
    else (c.take take, c.drop take :: cs)

lemma peekChunks_eq (n : ℕ) (cs : List Bytes) : peekChunks n cs = cs.flatten.take n := by
  induction cs generalizing n with
  | nil => cases n <;> simp [peekChunks]
  | cons c cs ih =>
    cases n with
    | zero => rfl
    | succ n =>
      rw [peekChunks, ih, List.flatten_cons, List.take_append]
      rcases Nat.le_total c.length (n + 1) with hle | hge
      · rw [Nat.min_eq_left hle, List.take_of_length_le hle, List.take_length]
      · rw [Nat.min_eq_right hge, Nat.sub_self, Nat.sub_eq_zero_of_le hge]

lemma takeChunks_fst (n : ℕ) (cs : List Bytes) : (takeChunks n cs).1 = cs.flatten.take n := by
  induction cs generalizing n with
  | nil => cases n <;> simp [takeChunks]
  | cons c cs ih =>
    cases n with
    | zero => rfl
    | succ n =>
      rw [takeChunks, List.flatten_cons, List.take_append]
      rcases Nat.le_total c.length (n + 1) with hle | hge
      · simp [Nat.min_eq_left hle, ih, List.take_of_length_le hle]
      · rw [Nat.min_eq_right hge, Nat.sub_eq_zero_of_le hge]
        split
        next hall => simp [takeChunks, List.take_of_length_le hall.ge]
        · simp

lemma takeChunks_snd (n : ℕ) (cs : List Bytes) :
    (takeChunks n cs).2.flatten = cs.flatten.drop n := by
  induction cs generalizing n with
  | nil => cases n <;> simp [takeChunks]
  | cons c cs ih =>
    cases n with
    | zero => rfl
    | succ n =>
      rw [takeChunks, List.flatten_cons, List.drop_append]
      rcases Nat.le_total c.length (n + 1) with hle | hge
      · simp [Nat.min_eq_left hle, ih, List.drop_of_length_le hle]
      · rw [Nat.min_eq_right hge, Nat.sub_eq_zero_of_le hge]
        split
        next hall => simp [takeChunks, List.drop_of_length_le hall.ge]
        · simp

lemma takeChunks_nonempty (n : ℕ) {cs : List Bytes} (h : [] ∉ cs) : [] ∉ (takeChunks n cs).2 := by
  induction cs generalizing n with
  | nil => cases n <;> simp [takeChunks]
  | cons c cs ih =>
    cases n with
    | zero => exact h
    | succ n =>
      have hrest : [] ∉ cs := fun hmem => h (List.mem_cons_of_mem _ hmem)
      rw [takeChunks]
      split
      · exact ih _ hrest
      next hpart =>
        intro hmem
        rcases List.mem_cons.mp hmem with hnil | hmem
        · have hlen := congrArg List.length hnil
          rw [List.length_nil, List.length_drop] at hlen
          omega
        · exact hrest hmem

def take (p : NngFrameParser) (n : ℕ) : Bytes × NngFrameParser :=
  ((takeChunks n p.chunks).1,
    { p with
      chunks := (takeChunks n p.chunks).2
      buffered := p.buffered - n
      nonempty := takeChunks_nonempty n p.nonempty
      counted := by rw [takeChunks_snd, List.length_drop, p.counted] })

/-- What the header says of the body. -/
def bodyLength (opts : NngFrameParserOptions) (header : Bytes) : Except TransportError ℕ :=
  if header.headD 0 ≠ NNG_FRAME_TYPE_DATA then
    .error ⟨.protocol, "unexpected nng IPC frame type 0x" ++ hex (header.headD 0).toNat⟩
  else
    let len64 := ofBigEndian ((header.drop 1).take 8)
    if opts.maxFrameBytes < len64 then
      .error ⟨.protocol, "nng frame of " ++ toString len64 ++ " bytes exceeds limit " ++
        toString opts.maxFrameBytes⟩
    else .ok len64

/-- One round of the loop of `push`. -/
def nextBody (opts : NngFrameParserOptions) (p : NngFrameParser) :
    Except TransportError (Option (NngFrameParser × Bytes)) :=
  if p.buffered < NNG_FRAME_HEADER_LENGTH then .ok none
  else
    match bodyLength opts (p.peek NNG_FRAME_HEADER_LENGTH) with
    | .error e => .error e
    | .ok len =>
      if p.buffered < NNG_FRAME_HEADER_LENGTH + len then .ok none
      else
        let r := (p.take NNG_FRAME_HEADER_LENGTH).2.take len
        .ok (some (r.2, r.1))

def checkHandshake (opts : NngFrameParserOptions) (bytes : Bytes) :
    Except TransportError SpHandshake :=
  match decodeSpHandshake bytes with
  | .error e => .error e
  | .ok hs =>
    match opts.expectPeerProto with
    | none => .ok hs
    | some proto =>
      if hs.proto ≠ proto then
        .error ⟨.protocol, "peer speaks SP protocol 0x" ++ hex hs.proto ++ ", expected 0x" ++
          hex proto⟩
      else .ok hs

def push (opts : NngFrameParserOptions) (p : NngFrameParser) (chunk : Bytes) :
    Except TransportError (NngFrameParser × List Bytes) :=
  let p := p.append chunk
  match p.handshake with
  | none =>
    if p.buffered < SP_HANDSHAKE_LENGTH then .ok (p, [])
    else
      let r := p.take SP_HANDSHAKE_LENGTH
      match checkHandshake opts r.1 with
      | .error e => .error e
      | .ok hs => takeAll (nextBody opts) (p.buffered + 1) { r.2 with handshake := some hs }
  | some _ => takeAll (nextBody opts) (p.buffered + 1) p

end NngFrameParser

/-! ### `StdioFrameParser` -/

structure StdioFrameParser where
  buf : Bytes

namespace StdioFrameParser

def new : StdioFrameParser := ⟨[]⟩

def frameLength (maxFrameBytes : ℕ) (header : Bytes) : Except TransportError ℕ :=
  let len := ofBigEndian header
  if maxFrameBytes < len then
    .error ⟨.protocol, "frame of " ++ toString len ++ " bytes exceeds the " ++
      toString maxFrameBytes ++ " byte limit"⟩
  else .ok len

/-- One round of the loop of `push`. -/
def nextFrame (maxFrameBytes : ℕ) (p : StdioFrameParser) :
    Except TransportError (Option (StdioFrameParser × Bytes)) :=
  if p.buf.length < STDIO_FRAME_HEADER_LENGTH then .ok none
  else
    match frameLength maxFrameBytes (p.buf.take STDIO_FRAME_HEADER_LENGTH) with
    | .error e => .error e
    | .ok len =>
      if p.buf.length < STDIO_FRAME_HEADER_LENGTH + len then .ok none
      else
        .ok (some (⟨p.buf.drop (STDIO_FRAME_HEADER_LENGTH + len)⟩,
          (p.buf.drop STDIO_FRAME_HEADER_LENGTH).take len))

def push (maxFrameBytes : ℕ) (p : StdioFrameParser) (chunk : Bytes) :
    Except TransportError (StdioFrameParser × List Bytes) :=
  let p : StdioFrameParser := if p.buf = [] then ⟨chunk⟩ else ⟨p.buf ++ chunk⟩
  takeAll (nextFrame maxFrameBytes) (p.buf.length + 1) p

end StdioFrameParser

end FabPcb.FrameParsers
