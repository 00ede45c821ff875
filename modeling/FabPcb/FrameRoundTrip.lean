import FabPcb.FrameParsers

/-!
What was framed is read back, however the stream is cut into chunks.

Each parser does over what it holds what a decoder of frames does over the bytes alone; the
handshake of the socket is a first item that yields no body.
-/

namespace FabPcb.FrameRoundTrip

open NngFraming StreamDecoder FrameParsers
open NngTransport (TransportError)

/-! ### The parser of the pipe -/

section Stdio

variable {maxFrameBytes : ℕ}

def stdioDecoder (maxFrameBytes : ℕ) : Decoder Unit UInt8 Bytes TransportError :=
  framed STDIO_FRAME_HEADER_LENGTH (StdioFrameParser.frameLength maxFrameBytes)

def stdioView (p : StdioFrameParser) : Unit × Bytes := ((), p.buf)

lemma steady_stdio : Steady (stdioDecoder maxFrameBytes) := steady_framed (by decide)

lemma nextFrame_of_none {p : StdioFrameParser}
    (h : frame STDIO_FRAME_HEADER_LENGTH (StdioFrameParser.frameLength maxFrameBytes) p.buf =
      .ok none) : StdioFrameParser.nextFrame maxFrameBytes p = .ok none := by
  unfold frame at h
  unfold StdioFrameParser.nextFrame
  split at h
  next hshort => rw [if_pos hshort]
  next hlong =>
    rw [if_neg hlong]
    cases hlen : StdioFrameParser.frameLength maxFrameBytes
        (p.buf.take STDIO_FRAME_HEADER_LENGTH) with
    | error e =>
      rw [hlen] at h
      cases h
    | ok len =>
      rw [hlen] at h
      dsimp only at h ⊢
      split at h
      next hpart => rw [if_pos hpart]
      · cases h

lemma nextFrame_of_some {p : StdioFrameParser} {f r : Bytes}
    (h : frame STDIO_FRAME_HEADER_LENGTH (StdioFrameParser.frameLength maxFrameBytes) p.buf =
      .ok (some (f, r))) :
    StdioFrameParser.nextFrame maxFrameBytes p = .ok (some (⟨r⟩, f)) := by
  obtain ⟨len, hsize, hlen, rfl, rfl⟩ := frame_eq_some h
  rw [StdioFrameParser.nextFrame, if_neg (by omega), hsize]
  dsimp only
  rw [if_neg (by omega)]

lemma stdio_push (p : StdioFrameParser) (chunk : Bytes) (a : Unit) (x : List Bytes) (r : Bytes)
    (h : Reads (stdioDecoder maxFrameBytes) (stdioView p).1 ((stdioView p).2 ++ chunk) a x r) :
    ∃ q, StdioFrameParser.push maxFrameBytes p chunk = .ok (q, x) ∧ stdioView q = (a, r) := by
  have hbuf : (if p.buf = [] then (⟨chunk⟩ : StdioFrameParser) else ⟨p.buf ++ chunk⟩) =
      ⟨p.buf ++ chunk⟩ := by
    split
    next hnil => rw [hnil, List.nil_append]
    · rfl
  obtain ⟨q, hq, hview, _⟩ := takeAll_of_reads steady_stdio
    (f := StdioFrameParser.nextFrame maxFrameBytes) stdioView (fun _ => True)
    (fun p _ hp => nextFrame_of_none (frame_of_framed_none hp))
    (fun p b x r _ hp => by
      obtain ⟨f, hf, rfl, rfl⟩ := frame_of_framed_some hp
      exact ⟨⟨r⟩, f, nextFrame_of_some hf, rfl, rfl, trivial⟩)
    (p := ⟨p.buf ++ chunk⟩) trivial (Nat.lt_succ_self _) h
  refine ⟨q, ?_, hview⟩
  rw [StdioFrameParser.push, hbuf]
  exact hq

end Stdio

/-! ### The parser of the socket -/

section Nng

variable {opts : NngFrameParserOptions} {p : NngFrameParser}

def nngDecoder (opts : NngFrameParserOptions) :
    Decoder (Option SpHandshake) UInt8 Bytes TransportError
  | none, s =>
    if s.length < SP_HANDSHAKE_LENGTH then .ok none
    else
      match NngFrameParser.checkHandshake opts (s.take SP_HANDSHAKE_LENGTH) with
      | .error e => .error e
      | .ok hs => .ok (some (some hs, [], s.drop SP_HANDSHAKE_LENGTH))
  | some hs, s => framed NNG_FRAME_HEADER_LENGTH (NngFrameParser.bodyLength opts) (some hs) s

def nngView (p : NngFrameParser) : Option SpHandshake × Bytes := (p.handshake, p.bytes)

lemma steady_body : Steady (framed (σ := Option SpHandshake) NNG_FRAME_HEADER_LENGTH
    (NngFrameParser.bodyLength opts)) := steady_framed (by decide)

lemma nngDecoder_none {s : Bytes} (h : SP_HANDSHAKE_LENGTH ≤ s.length) :
    nngDecoder opts none s =
      match NngFrameParser.checkHandshake opts (s.take SP_HANDSHAKE_LENGTH) with
      | .error e => .error e
      | .ok hs => .ok (some (some hs, [], s.drop SP_HANDSHAKE_LENGTH)) :=
  if_neg (by omega)

lemma steady_nng : Steady (nngDecoder opts) where
  shorter := by
    intro a s b x r h
    cases a with
    | some hs => exact steady_body.shorter _ s b x r h
    | none =>
      by_cases hlen : s.length < SP_HANDSHAKE_LENGTH
      · rw [nngDecoder, if_pos hlen] at h
        cases h
      · rw [nngDecoder_none (by omega)] at h
        split at h
        · cases h
        · cases h
          rw [List.length_drop]
          have hpos : 0 < SP_HANDSHAKE_LENGTH := by decide
          omega
  taken := by
    intro a s b x r t h
    cases a with
    | some hs => exact steady_body.taken _ s b x r t h
    | none =>
      by_cases hlen : s.length < SP_HANDSHAKE_LENGTH
      · rw [nngDecoder, if_pos hlen] at h
        cases h
      · have hall : (s ++ t).length = s.length + t.length := List.length_append
        rw [nngDecoder_none (by omega)] at h ⊢
        rw [List.take_append_of_le_length (by omega), List.drop_append_of_le_length (by omega)]
        split at h
        · cases h
        · cases h
          rfl
  refused := by
    intro a s e t h
    cases a with
    | some hs => exact steady_body.refused _ s e t h
    | none =>
      by_cases hlen : s.length < SP_HANDSHAKE_LENGTH
      · rw [nngDecoder, if_pos hlen] at h
        cases h
      · have hall : (s ++ t).length = s.length + t.length := List.length_append
        rw [nngDecoder_none (by omega)] at h ⊢
        rw [List.take_append_of_le_length (by omega)]
        split at h
        · exact h
        · cases h

lemma peek_eq (p : NngFrameParser) (n : ℕ) : p.peek n = p.bytes.take n :=
  NngFrameParser.peekChunks_eq n p.chunks

lemma take_fst (p : NngFrameParser) (n : ℕ) : (p.take n).1 = p.bytes.take n :=
  NngFrameParser.takeChunks_fst n p.chunks

lemma bytes_take (p : NngFrameParser) (n : ℕ) : (p.take n).2.bytes = p.bytes.drop n :=
  NngFrameParser.takeChunks_snd n p.chunks

lemma bytes_append (p : NngFrameParser) (chunk : Bytes) :
    (p.append chunk).bytes = p.bytes ++ chunk := by
  unfold NngFrameParser.append
  split
  next hnil => rw [hnil, List.append_nil]
  · simp [NngFrameParser.bytes]

lemma handshake_append (p : NngFrameParser) (chunk : Bytes) :
    (p.append chunk).handshake = p.handshake := by
  unfold NngFrameParser.append
  split <;> rfl

lemma buffered_eq (p : NngFrameParser) : p.buffered = p.bytes.length := p.counted

lemma nextBody_of_none
    (h : frame NNG_FRAME_HEADER_LENGTH (NngFrameParser.bodyLength opts) p.bytes = .ok none) :
    NngFrameParser.nextBody opts p = .ok none := by
  unfold frame at h
  unfold NngFrameParser.nextBody
  rw [buffered_eq, peek_eq]
  split at h
  next hshort => rw [if_pos hshort]
  next hlong =>
    rw [if_neg hlong]
    cases hlen : NngFrameParser.bodyLength opts (p.bytes.take NNG_FRAME_HEADER_LENGTH) with
    | error e =>
      rw [hlen] at h
      cases h
    | ok len =>
      rw [hlen] at h
      dsimp only at h ⊢
      split at h
      next hpart => rw [if_pos hpart]
      · cases h

lemma nextBody_of_some {f r : Bytes}
    (h : frame NNG_FRAME_HEADER_LENGTH (NngFrameParser.bodyLength opts) p.bytes =
      .ok (some (f, r))) :
    ∃ q, NngFrameParser.nextBody opts p = .ok (some (q, f)) ∧ q.bytes = r ∧
      q.handshake = p.handshake := by
  obtain ⟨len, hsize, hlen, rfl, rfl⟩ := frame_eq_some h
  refine ⟨((p.take NNG_FRAME_HEADER_LENGTH).2.take len).2, ?_, ?_, rfl⟩
  · have hbuffered := buffered_eq p
    rw [NngFrameParser.nextBody, if_neg (by omega), peek_eq, hsize]
    dsimp only
    rw [if_neg (by omega), take_fst, bytes_take]
  · rw [bytes_take, bytes_take, List.drop_drop]

/-- The loop of `push`, once the handshake is there. -/
lemma nng_loop {hs : SpHandshake} {n : ℕ} {a : Option SpHandshake} {x : List Bytes} {r : Bytes}
    (hhs : p.handshake = some hs) (hn : p.bytes.length < n)
    (h : Reads (nngDecoder opts) (nngView p).1 (nngView p).2 a x r) :
    ∃ q, takeAll (NngFrameParser.nextBody opts) n p = .ok (q, x) ∧ nngView q = (a, r) := by
  have hwaits : ∀ p : NngFrameParser, (∃ hs, p.handshake = some hs) →
      nngDecoder opts (nngView p).1 (nngView p).2 = .ok none →
      NngFrameParser.nextBody opts p = .ok none := by
    rintro p ⟨hs, hhs⟩ h
    simp only [nngView, hhs] at h
    exact nextBody_of_none (frame_of_framed_none h)
  have htakes : ∀ (p : NngFrameParser) b x r, (∃ hs, p.handshake = some hs) →
      nngDecoder opts (nngView p).1 (nngView p).2 = .ok (some (b, x, r)) →
      ∃ q f, NngFrameParser.nextBody opts p = .ok (some (q, f)) ∧ x = [f] ∧ nngView q = (b, r) ∧
        ∃ hs, q.handshake = some hs := by
    rintro p b x r ⟨hs, hhs⟩ h
    simp only [nngView, hhs] at h
    obtain ⟨f, hf, rfl, rfl⟩ := frame_of_framed_some h
    obtain ⟨q, hq, hbytes, hsame⟩ := nextBody_of_some hf
    exact ⟨q, f, hq, rfl, by rw [nngView, hbytes, hsame, hhs], hs, hsame.trans hhs⟩
  obtain ⟨q, hq, hview, _⟩ := takeAll_of_reads steady_nng nngView _ hwaits htakes ⟨hs, hhs⟩ hn h
  exact ⟨q, hq, hview⟩

/-- `push` reads the chunk behind what the parser holds. -/
lemma nng_push (p : NngFrameParser) (chunk : Bytes) (a : Option SpHandshake) (x : List Bytes)
    (r : Bytes) (h : Reads (nngDecoder opts) (nngView p).1 ((nngView p).2 ++ chunk) a x r) :
    ∃ q, NngFrameParser.push opts p chunk = .ok (q, x) ∧ nngView q = (a, r) := by
  have hbytes := bytes_append p chunk
  have hview : nngView (p.append chunk) = (p.handshake, p.bytes ++ chunk) := by
    rw [nngView, handshake_append, hbytes]
  have hcount := buffered_eq (p.append chunk)
  rw [NngFrameParser.push, handshake_append]
  dsimp only [nngView] at h
  cases hhs : p.handshake with
  | some hs =>
    refine nng_loop (show _ = some hs by rw [handshake_append, hhs]) (by omega) ?_
    rw [hview]
    exact h
  | none =>
    rw [hhs] at h
    dsimp only
    cases h with
    | waits h =>
      have hshort : (p.bytes ++ chunk).length < SP_HANDSHAKE_LENGTH := by
        by_contra hlong
        rw [nngDecoder_none (by omega)] at h
        split at h <;> cases h
      rw [if_pos (by rw [hcount, hbytes]; exact hshort)]
      exact ⟨_, rfl, by rw [hview, hhs]⟩
    | takes h hrest =>
      have hlong : ¬ (p.bytes ++ chunk).length < SP_HANDSHAKE_LENGTH := by
        intro hshort
        rw [nngDecoder, if_pos hshort] at h
        cases h
      rw [if_neg (by rw [hcount, hbytes]; exact hlong), take_fst, hbytes]
      rw [nngDecoder_none (by omega)] at h
      cases hcheck : NngFrameParser.checkHandshake opts
          ((p.bytes ++ chunk).take SP_HANDSHAKE_LENGTH) with
      | error e =>
        rw [hcheck] at h
        cases h
      | ok hs =>
        rw [hcheck] at h
        cases h
        have hleft : ((p.append chunk).take SP_HANDSHAKE_LENGTH).2.bytes =
            (p.bytes ++ chunk).drop SP_HANDSHAKE_LENGTH := by
          rw [bytes_take, hbytes]
        have hlen : ((p.append chunk).take SP_HANDSHAKE_LENGTH).2.bytes.length <
            (p.append chunk).buffered + 1 := by
          rw [hleft, List.length_drop, hcount, hbytes]
          omega
        rw [← hleft] at hrest
        exact nng_loop rfl hlen hrest

end Nng

/-! ### Encoding and reading back -/

/-- What `encode` makes of each body. -/
def encoded (encode : Bytes → Option Bytes) (bodies frames : List Bytes) : Prop :=
  List.Forall₂ (fun body f => encode body = some f) bodies frames

lemma encoded.within {encode : Bytes → Option Bytes} {R : Bytes → Bytes → Prop} {max : ℕ}
    {bodies frames : List Bytes} (h : encoded encode bodies frames)
    (hR : ∀ body f, encode body = some f → body.length ≤ max → R body f)
    (hmax : ∀ body ∈ bodies, body.length ≤ max) : List.Forall₂ R bodies frames := by
  induction h with
  | nil => exact .nil
  | cons hf _ ih =>
    exact .cons (hR _ _ hf (hmax _ List.mem_cons_self))
      (ih fun body hbody => hmax body (List.mem_cons_of_mem _ hbody))

/-- `encodeNngFrame`, which allocates what it returns. -/
def newNngFrame (body : Bytes) : Option Bytes := newUint8Array (encodeNngFrame body)

lemma newUint8Array_eq_some {b f : Bytes} (h : newUint8Array b = some f) :
    f = b ∧ b.length ≤ 2 ^ 32 := by
  unfold newUint8Array at h
  split at h
  next hlen => exact ⟨(Option.some.inj h).symm, hlen⟩
  · cases h

lemma nng_frame {opts : NngFrameParserOptions} {body f : Bytes} (hf : newNngFrame body = some f)
    (hmax : body.length ≤ opts.maxFrameBytes) :
    ∃ head, f = head ++ body ∧ head.length = NNG_FRAME_HEADER_LENGTH ∧
      NngFrameParser.bodyLength opts head = .ok body.length := by
  obtain ⟨rfl, hlen⟩ := newUint8Array_eq_some hf
  refine ⟨NNG_FRAME_TYPE_DATA :: bigEndian 8 body.length, rfl, ?_, ?_⟩
  · rfl
  · have hsmall : body.length < 256 ^ 8 := by
      have hle : body.length ≤ (encodeNngFrame body).length := by
        simp [encodeNngFrame]
        omega
      omega
    have hlength : ofBigEndian ((bigEndian 8 body.length).take 8) = body.length := by
      rw [List.take_of_length_le (length_bigEndian ..).le, ofBigEndian_bigEndian hsmall]
    unfold NngFrameParser.bodyLength
    rw [if_neg (fun h => h rfl), List.drop_one, List.tail_cons, hlength]
    exact if_neg (by omega)

lemma stdio_frame {maxFrameBytes : ℕ} {body f : Bytes} (hf : encodeStdioFrame body = some f)
    (hmax : body.length ≤ maxFrameBytes) :
    ∃ head, f = head ++ body ∧ head.length = STDIO_FRAME_HEADER_LENGTH ∧
      StdioFrameParser.frameLength maxFrameBytes head = .ok body.length := by
  obtain ⟨rfl, hlen⟩ := newUint8Array_eq_some hf
  refine ⟨bigEndian STDIO_FRAME_HEADER_LENGTH body.length, rfl, length_bigEndian .., ?_⟩
  rw [List.length_append, length_bigEndian] at hlen
  have hsmall : body.length < 256 ^ STDIO_FRAME_HEADER_LENGTH := by
    have h4 : STDIO_FRAME_HEADER_LENGTH = 4 := rfl
    rw [h4] at hlen ⊢
    omega
  unfold StdioFrameParser.frameLength
  rw [ofBigEndian_bigEndian hsmall]
  exact if_neg (by omega)

lemma decodeSpHandshake_encode (proto : ℕ) :
    decodeSpHandshake (encodeSpHandshake proto) = .ok ⟨proto % 65536⟩ := by
  have hlow : (UInt8.ofNat proto).toNat = proto % 256 := UInt8.toNat_ofNat'
  have hhigh : (UInt8.ofNat (proto / 256)).toNat = proto / 256 % 256 := UInt8.toNat_ofNat'
  have hsum : proto / 256 % 256 * 256 + proto % 256 = proto % 65536 := by omega
  simp [decodeSpHandshake, encodeSpHandshake, SP_HANDSHAKE_LENGTH, ofBigEndian, hlow, hhigh, hsum]

/-- What a parser makes of a stream of frames behind `head`, however it is cut into chunks: of the
whole stream the bodies, of a part the bodies that are complete in it, and the rest is kept. -/
structure Reassembles (parse : List Bytes → Except TransportError (List Bytes × Bytes))
    (head : Bytes) (bodies frames : List Bytes) : Prop where
  whole : ∀ chunks, chunks.flatten = head ++ frames.flatten → parse chunks = .ok (bodies, [])
  head_cut : ∀ chunks, chunks.flatten <+: head → chunks.flatten.length < head.length →
    parse chunks = .ok ([], chunks.flatten)
  frames_cut : ∀ chunks, head <+: chunks.flatten → chunks.flatten <+: head ++ frames.flatten →
    ∃ k tail, chunks.flatten = head ++ (frames.take k).flatten ++ tail ∧
      Unfinished (frames.drop k) tail ∧ parse chunks = .ok (bodies.take k, tail)

section Parse

variable {σ : Type} {next : Decoder σ UInt8 Bytes TransportError} {start a : σ} {n : ℕ}
  {size : Bytes → Except TransportError ℕ}
  {parse : List Bytes → Except TransportError (List Bytes × Bytes)} {head : Bytes}
  {bodies frames : List Bytes}

lemma framed_unfinished {tail : Bytes} (hn : 0 < n)
    (hframes : List.Forall₂ (fun body f => ∃ h, f = h ++ body ∧ h.length = n ∧
      size h = .ok body.length) bodies frames) (htail : Unfinished frames tail) :
    framed n size a tail = .ok none := by
  cases hframes with
  | nil =>
    obtain rfl : tail = [] := htail
    exact framed_of_none (frame_short hn)
  | cons h _ =>
    obtain ⟨hd, rfl, hlen, hsize⟩ := h
    obtain ⟨hpart, hshort⟩ := htail
    exact framed_of_none (frame_unfinished hlen hsize hpart hshort)

/-- A parser that reads as a decoder does reassembles what the decoder was encoded for. -/
lemma reassembles_of_reads (hn : 0 < n)
    (hparse : ∀ chunks b x r, Reads next start chunks.flatten b x r → parse chunks = .ok (x, r))
    (hhead : ∀ s b x r, Reads next a s b x r → Reads next start (head ++ s) b x r)
    (hcut : ∀ s, s <+: head → s.length < head.length → next start s = .ok none)
    (hnext : ∀ s, next a s = framed n size a s)
    (hframes : List.Forall₂ (fun body f => ∃ h, f = h ++ body ∧ h.length = n ∧
      size h = .ok body.length) bodies frames) :
    Reassembles parse head bodies frames := by
  have hread : ∀ {bodies frames : List Bytes} {tail : Bytes},
      List.Forall₂ (fun body f => ∃ h, f = h ++ body ∧ h.length = n ∧
        size h = .ok body.length) bodies frames → framed n size a tail = .ok none →
      Reads next start (head ++ (frames.flatten ++ tail)) a bodies tail := by
    intro bodies frames tail hall htail
    refine hhead _ _ _ _ (reads_frames (hall.imp fun body f hf t => ?_) ((hnext _).trans htail))
    obtain ⟨hd, rfl, hlen, hsize⟩ := hf
    exact (hnext _).trans (framed_of_some (frame_encoded hlen hsize))
  constructor
  case whole =>
    intro chunks hchunks
    refine hparse _ a _ _ ?_
    have hall := hread hframes (framed_of_none (s := []) (frame_short hn))
    rwa [List.append_nil, ← hchunks] at hall
  case head_cut =>
    intro chunks hpart hshort
    exact hparse _ start _ _ (.waits (hcut _ hpart hshort))
  case frames_cut =>
    intro chunks hpart hchunks
    obtain ⟨s, hs⟩ := hpart
    rw [← hs] at hchunks ⊢
    obtain ⟨k, tail, rfl, htail⟩ :=
      exists_unfinished frames ((List.prefix_append_right_inj head).mp hchunks)
    refine ⟨k, tail, (List.append_assoc ..).symm, htail, hparse _ a _ _ ?_⟩
    have hdone := framed_unfinished (a := a) hn (List.forall₂_drop k hframes) htail
    rw [← hs]
    exact hread (List.forall₂_take k hframes) hdone

end Parse

/-- Over the socket: the bodies that `push` returns and the bytes it keeps. -/
def parseNng (opts : NngFrameParserOptions) (chunks : List Bytes) :
    Except TransportError (List Bytes × Bytes) :=
  (feed (NngFrameParser.push opts) NngFrameParser.new chunks).map fun (p, x) => (x, p.bytes)

/-- Over the pipe. -/
def parseStdio (maxFrameBytes : ℕ) (chunks : List Bytes) :
    Except TransportError (List Bytes × Bytes) :=
  (feed (StdioFrameParser.push maxFrameBytes) StdioFrameParser.new chunks).map
    fun (p, x) => (x, p.buf)

lemma parseNng_of_reads {opts : NngFrameParserOptions} {chunks : List Bytes}
    {a : Option SpHandshake} {x : List Bytes} {r : Bytes}
    (h : Reads (nngDecoder opts) none chunks.flatten a x r) :
    parseNng opts chunks = .ok (x, r) := by
  obtain ⟨q, hq, hview⟩ := feed_of_reads steady_nng nngView nng_push
    (p := NngFrameParser.new) rfl h
  rw [parseNng, hq]
  exact congrArg (fun v => Except.ok (x, v.2)) hview

lemma parseStdio_of_reads {maxFrameBytes : ℕ} {chunks : List Bytes} {a : Unit} {x : List Bytes}
    {r : Bytes} (h : Reads (stdioDecoder maxFrameBytes) () chunks.flatten a x r) :
    parseStdio maxFrameBytes chunks = .ok (x, r) := by
  obtain ⟨q, hq, hview⟩ := feed_of_reads steady_stdio stdioView stdio_push
    (p := StdioFrameParser.new) rfl h
  rw [parseStdio, hq]
  exact congrArg (fun v => Except.ok (x, v.2)) hview

lemma nng_reassembles {opts : NngFrameParserOptions} {proto : ℕ} {bodies frames : List Bytes}
    (hproto : ∀ expected, opts.expectPeerProto = some expected → expected = proto % 65536)
    (hmax : ∀ body ∈ bodies, body.length ≤ opts.maxFrameBytes)
    (hframes : encoded newNngFrame bodies frames) :
    Reassembles (parseNng opts) (encodeSpHandshake proto) bodies frames := by
  have hcheck : NngFrameParser.checkHandshake opts (encodeSpHandshake proto) =
      .ok ⟨proto % 65536⟩ := by
    rw [NngFrameParser.checkHandshake, decodeSpHandshake_encode]
    dsimp only
    split
    · rfl
    next expected hexpected =>
      rw [if_neg (not_not.mpr (hproto expected hexpected).symm)]
  have hall := hframes.within (fun body f => nng_frame) hmax
  refine reassembles_of_reads (a := some ⟨proto % 65536⟩) (by decide)
    (fun _ _ _ _ h => parseNng_of_reads h) (fun s b x r h => ?_) (fun s hpart hshort => ?_)
    (fun _ => rfl) hall
  · have hfirst : nngDecoder opts none (encodeSpHandshake proto ++ s) =
        .ok (some (some ⟨proto % 65536⟩, [], s)) := by
      have hlen : (encodeSpHandshake proto).length = SP_HANDSHAKE_LENGTH := rfl
      have hlong : SP_HANDSHAKE_LENGTH ≤ (encodeSpHandshake proto ++ s).length := by
        rw [List.length_append]
        omega
      rw [nngDecoder_none hlong, List.take_left' hlen, List.drop_left' hlen, hcheck]
    exact .takes hfirst h
  · exact if_pos hshort

lemma stdio_reassembles {maxFrameBytes : ℕ} {bodies frames : List Bytes}
    (hmax : ∀ body ∈ bodies, body.length ≤ maxFrameBytes)
    (hframes : encoded encodeStdioFrame bodies frames) :
    Reassembles (parseStdio maxFrameBytes) [] bodies frames := by
  have hall := hframes.within (fun body f => stdio_frame) hmax
  refine reassembles_of_reads (a := ()) (by decide) (fun _ _ _ _ h => parseStdio_of_reads h)
    (fun s b x r h => h) (fun s _ hshort => ?_) (fun _ => rfl) hall
  exact absurd hshort (Nat.not_lt_zero _)

/-- **Framing round trip**, over the socket and over the pipe: under any chunking of the stream, or
of a part of it, the bodies come out in order and the unfinished tail is kept. -/
theorem framing_roundtrip (bodies frames : List Bytes) :
    (∀ (opts : NngFrameParserOptions) (proto : ℕ),
      (∀ expected, opts.expectPeerProto = some expected → expected = proto % 65536) →
      (∀ body ∈ bodies, body.length ≤ opts.maxFrameBytes) →
      encoded newNngFrame bodies frames →
      Reassembles (parseNng opts) (encodeSpHandshake proto) bodies frames) ∧
    ∀ maxFrameBytes, (∀ body ∈ bodies, body.length ≤ maxFrameBytes) →
      encoded encodeStdioFrame bodies frames →
      Reassembles (parseStdio maxFrameBytes) [] bodies frames :=
  ⟨fun _ _ hproto hmax hframes => nng_reassembles hproto hmax hframes,
    fun _ hmax hframes => stdio_reassembles hmax hframes⟩

/-- A frame of each kind, read from chunks that cut the handshake and the lengths. -/
theorem framing_roundtrip_cut :
    parseNng { expectPeerProto := some SP_PROTO_REP0 } [[0x00, 0x53, 0x50], [], [0x00, 0x00, 0x31,
      0x00, 0x00, 0x01, 0, 0, 0], [0, 0, 0, 0, 2, 10], [20, 1]] = .ok ([[10, 20]], [1]) ∧
    parseNng { expectPeerProto := some SP_PROTO_REP0 } [[0x00, 0x53, 0x50], [], [0x00, 0x00, 0x31,
      0x00, 0x00, 0x01, 0, 0, 0], [0, 0, 0, 0, 2, 10], [20]] = .ok ([[10, 20]], []) ∧
    parseStdio 2 [[0, 0], [0, 2, 10], [], [20]] = .ok ([[10, 20]], []) :=
  ⟨by decide +kernel,
    ((framing_roundtrip [[10, 20]] [encodeNngFrame [10, 20]]).1
      { expectPeerProto := some SP_PROTO_REP0 } SP_PROTO_REP0 (by decide) (by decide) (.cons rfl .nil)).whole _ rfl,
    ((framing_roundtrip [[10, 20]] [[0, 0, 0, 2, 10, 20]]).2 2 (by decide) (.cons rfl .nil)).whole _
      rfl⟩

end FabPcb.FrameRoundTrip
