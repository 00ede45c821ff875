import Mathlib.Data.List.Forall2

/-!
Decoders of a stream that comes in chunks.

A decoder takes items off the front of what is buffered, one at a time, and waits where the front
is not complete. What it takes off some bytes it takes off any longer stream too, so the items do
not depend on how the stream is cut.
-/

namespace FabPcb.StreamDecoder

variable {σ α β ε P : Type*}

/-- What is taken off the front of a stream: the state after it, its items and the rest. -/
abbrev Decoder (σ α β ε : Type*) := σ → List α → Except ε (Option (σ × List β × List α))

/-- A decoder reads a stream up to where it waits. -/
inductive Reads (next : Decoder σ α β ε) : σ → List α → σ → List β → List α → Prop where
  | waits {a : σ} {s : List α} (h : next a s = .ok none) : Reads next a s a [] s
  | takes {a b c : σ} {s r q : List α} {x y : List β} (h : next a s = .ok (some (b, x, r)))
      (hrest : Reads next b r c y q) : Reads next a s c (x ++ y) q

/-- What comes later does not change what was taken or refused. -/
structure Steady (next : Decoder σ α β ε) : Prop where
  shorter : ∀ a s b x r, next a s = .ok (some (b, x, r)) → r.length < s.length
  taken : ∀ a s b x r t, next a s = .ok (some (b, x, r)) →
    next a (s ++ t) = .ok (some (b, x, r ++ t))
  refused : ∀ a s e t, next a s = .error e → next a (s ++ t) = .error e

variable {next : Decoder σ α β ε} {a b c : σ} {s t r : List α} {x : List β}

lemma Reads.waiting (h : Reads next a s c x r) : next c r = .ok none := by
  induction h with
  | waits h => exact h
  | takes _ _ ih => exact ih

/-- **A stream is read a part at a time.** -/
lemma Reads.split (hnext : Steady next) (h : Reads next a (s ++ t) c x r) :
    ∃ b y z q, Reads next a s b y q ∧ Reads next b (q ++ t) c z r ∧ x = y ++ z := by
  generalize hu : s ++ t = u at h
  induction h generalizing s with
  | @waits a u h =>
    subst hu
    have hwaits : next a s = .ok none := by
      cases hs : next a s with
      | error e =>
        rw [hnext.refused a s e t hs] at h
        cases h
      | ok o =>
        cases o with
        | none => rfl
        | some i =>
          rw [hnext.taken a s _ _ _ t hs] at h
          cases h
    exact ⟨a, [], [], s, .waits hwaits, .waits h, rfl⟩
  | @takes a b c u r q x y h hrest ih =>
    subst hu
    cases hs : next a s with
    | error e =>
      rw [hnext.refused a s e t hs] at h
      cases h
    | ok o =>
      cases o with
      | none => exact ⟨a, [], x ++ y, s, .waits hs, .takes h hrest, rfl⟩
      | some i =>
        obtain ⟨b', x', r'⟩ := i
        have hsame := (hnext.taken a s b' x' r' t hs).symm.trans h
        simp only [Except.ok.injEq, Option.some.injEq, Prod.mk.injEq] at hsame
        obtain ⟨rfl, rfl, hr⟩ := hsame
        obtain ⟨d, y', z, q', hfirst, hsecond, rfl⟩ := ih hr
        exact ⟨d, x' ++ y', z, q', .takes hs hfirst, hsecond, (List.append_assoc ..).symm⟩

/-! ### Loops -/

/-- Items are taken, `n` at most, until there is none. -/
def takeAll (step : P → Except ε (Option (P × β))) : ℕ → P → Except ε (P × List β)
  | 0, p => .ok (p, [])
  | n + 1, p =>
    match step p with
    | .error e => .error e
    | .ok none => .ok (p, [])
    | .ok (some (p', i)) => (takeAll step n p').map fun (q, is) => (q, i :: is)

/-- A loop over `p` does what a decoder does over the stream that `p` holds. -/
lemma takeAll_of_reads (hnext : Steady next) {f : P → Except ε (Option (P × β))}
    (view : P → σ × List α) (good : P → Prop)
    (hwaits : ∀ p, good p → next (view p).1 (view p).2 = .ok none → f p = .ok none)
    (htakes : ∀ p b x r, good p → next (view p).1 (view p).2 = .ok (some (b, x, r)) →
      ∃ p' i, f p = .ok (some (p', i)) ∧ x = [i] ∧ view p' = (b, r) ∧ good p')
    {p : P} {n : ℕ} (hp : good p) (hn : (view p).2.length < n)
    (h : Reads next (view p).1 (view p).2 c x r) :
    ∃ q, takeAll f n p = .ok (q, x) ∧ view q = (c, r) ∧ good q := by
  generalize ha : (view p).1 = a at h
  generalize hs : (view p).2 = s at h
  induction h generalizing p n with
  | waits h =>
    subst ha hs
    cases n with
    | zero => omega
    | succ n =>
      refine ⟨p, ?_, rfl, hp⟩
      rw [takeAll, hwaits p hp h]
  | @takes a b c s r q x y h hrest ih =>
    subst ha hs
    cases n with
    | zero => omega
    | succ n =>
      obtain ⟨p', i, hstep, rfl, hview, hgood⟩ := htakes p _ _ _ hp h
      have hshort := hnext.shorter _ _ _ _ _ h
      have hlen : (view p').2.length < n := by
        rw [hview]
        show r.length < n
        omega
      obtain ⟨q, hq, hview', hgood'⟩ := ih hgood hlen (by rw [hview]) (by rw [hview])
      refine ⟨q, ?_, hview', hgood'⟩
      rw [takeAll, hstep]
      exact congrArg (Except.map _) hq

/-! ### Chunks -/

/-- A parser is given the chunks of a stream one after another. -/
def feed (push : P → List α → Except ε (P × List β)) : P → List (List α) → Except ε (P × List β)
  | p, [] => .ok (p, [])
  | p, c :: cs =>
    match push p c with
    | .error e => .error e
    | .ok (p', x) => (feed push p' cs).map fun (q, y) => (q, x ++ y)

/-- **The items do not depend on the chunks**: a parser that reads each chunk behind what it holds
reads, over any chunks, what the decoder reads of the whole stream. -/
theorem feed_of_reads (hnext : Steady next) {push : P → List α → Except ε (P × List β)}
    (view : P → σ × List α)
    (hpush : ∀ p t c x r, Reads next (view p).1 ((view p).2 ++ t) c x r →
      ∃ q, push p t = .ok (q, x) ∧ view q = (c, r))
    {p : P} {chunks : List (List α)} (hp : next (view p).1 (view p).2 = .ok none)
    (h : Reads next (view p).1 ((view p).2 ++ chunks.flatten) c x r) :
    ∃ q, feed push p chunks = .ok (q, x) ∧ view q = (c, r) := by
  induction chunks generalizing p x with
  | nil =>
    rw [List.flatten_nil, List.append_nil] at h
    cases h with
    | waits _ => exact ⟨p, rfl, rfl⟩
    | takes h' _ =>
      rw [hp] at h'
      cases h'
  | cons t ts ih =>
    rw [List.flatten_cons, ← List.append_assoc] at h
    obtain ⟨b, y, z, q, hfirst, hsecond, rfl⟩ := h.split hnext
    obtain ⟨p', hp', hview⟩ := hpush p t b y q hfirst
    have hwaiting : next (view p').1 (view p').2 = .ok none := by
      rw [hview]
      exact hfirst.waiting
    obtain ⟨p'', hp'', hview''⟩ := ih hwaiting (by rw [hview]; exact hsecond)
    refine ⟨p'', ?_, hview''⟩
    simp only [feed, hp', hp'']
    rfl

/-! ### Frames with their length in front -/

/-- A frame: `n` items from which `size` reads the length, then as many items as that. -/
def frame (n : ℕ) (size : List α → Except ε ℕ) (s : List α) :
    Except ε (Option (List α × List α)) :=
  if s.length < n then .ok none
  else
    match size (s.take n) with
    | .error e => .error e
    | .ok len =>
      if s.length < n + len then .ok none
      else .ok (some ((s.drop n).take len, s.drop (n + len)))

variable {n : ℕ} {size : List α → Except ε ℕ} {f : List α} {e : ε}

lemma frame_short (h : s.length < n) : frame n size s = .ok none := if_pos h

lemma frame_eq {len : ℕ} (h : n ≤ s.length) (hsize : size (s.take n) = .ok len) :
    frame n size s = if s.length < n + len then .ok none
      else .ok (some ((s.drop n).take len, s.drop (n + len))) := by
  rw [frame, if_neg (by omega), hsize]

lemma frame_eq_some (h : frame n size s = .ok (some (f, r))) :
    ∃ len, size (s.take n) = .ok len ∧ n + len ≤ s.length ∧ f = (s.drop n).take len ∧
      r = s.drop (n + len) := by
  unfold frame at h
  split at h
  · cases h
  · cases hsize : size (s.take n) with
    | error e =>
      rw [hsize] at h
      cases h
    | ok len =>
      rw [hsize] at h
      dsimp only at h
      split at h
      · cases h
      next hlong =>
        simp only [Except.ok.injEq, Option.some.injEq, Prod.mk.injEq] at h
        exact ⟨len, rfl, by omega, h.1.symm, h.2.symm⟩

lemma frame_eq_error (h : frame n size s = .error e) :
    n ≤ s.length ∧ size (s.take n) = .error e := by
  unfold frame at h
  split at h
  · cases h
  next hlong =>
    cases hsize : size (s.take n) with
    | error e' =>
      rw [hsize] at h
      obtain rfl := Except.error.inj h
      exact ⟨by omega, rfl⟩
    | ok len =>
      rw [hsize] at h
      dsimp only at h
      split at h <;> cases h

lemma frame_append (h : frame n size s = .ok (some (f, r))) (t : List α) :
    frame n size (s ++ t) = .ok (some (f, r ++ t)) := by
  obtain ⟨len, hsize, hlen, rfl, rfl⟩ := frame_eq_some h
  have hhead : (s ++ t).take n = s.take n := List.take_append_of_le_length (by omega)
  have hall : (s ++ t).length = s.length + t.length := List.length_append
  rw [frame_eq (by omega) (hhead ▸ hsize), if_neg (by omega),
    List.drop_append_of_le_length (by omega), List.drop_append_of_le_length (by omega),
    List.take_append_of_le_length (by rw [List.length_drop]; omega)]

lemma frame_append_error (h : frame n size s = .error e) (t : List α) :
    frame n size (s ++ t) = .error e := by
  obtain ⟨hlen, hsize⟩ := frame_eq_error h
  have hhead : (s ++ t).take n = s.take n := List.take_append_of_le_length hlen
  have hall : (s ++ t).length = s.length + t.length := List.length_append
  rw [frame, if_neg (by omega), hhead, hsize]

lemma frame_shorter (hn : 0 < n) (h : frame n size s = .ok (some (f, r))) :
    r.length < s.length := by
  obtain ⟨len, _, hlen, _, rfl⟩ := frame_eq_some h
  rw [List.length_drop]
  omega

lemma frame_encoded {head body : List α} (hhead : head.length = n)
    (hsize : size head = .ok body.length) :
    frame n size (head ++ body ++ t) = .ok (some (body, t)) := by
  have htake : (head ++ body ++ t).take n = head := by
    rw [List.append_assoc, List.take_left' hhead]
  have hlen : (head ++ body ++ t).length = n + body.length + t.length := by
    rw [List.length_append, List.length_append, hhead]
  rw [frame_eq (by omega) (by rw [htake, hsize]), if_neg (by omega), List.append_assoc,
    List.drop_left' hhead, List.take_left' rfl, ← List.append_assoc,
    List.drop_left' (by rw [List.length_append, hhead])]

lemma frame_unfinished {head body : List α} (hhead : head.length = n)
    (hsize : size head = .ok body.length) (h : s <+: head ++ body)
    (hshort : s.length < (head ++ body).length) : frame n size s = .ok none := by
  by_cases hn : s.length < n
  · exact frame_short hn
  · have htake : s.take n = head := by
      obtain ⟨u, hu⟩ := h
      have hcut : (s ++ u).take n = s.take n := List.take_append_of_le_length (by omega)
      rw [← hcut, hu, List.take_left' hhead]
    rw [List.length_append, hhead] at hshort
    rw [frame_eq (by omega) (htake ▸ hsize), if_pos hshort]

/-- A decoder whose items are frames. -/
def framed (n : ℕ) (size : List α → Except ε ℕ) : Decoder σ α (List α) ε := fun a s =>
  match frame n size s with
  | .error e => .error e
  | .ok none => .ok none
  | .ok (some (f, r)) => .ok (some (a, [f], r))

lemma framed_of_none (h : frame n size s = .ok none) : framed n size a s = .ok none := by
  rw [framed, h]

lemma framed_of_some (h : frame n size s = .ok (some (f, r))) :
    framed n size a s = .ok (some (a, [f], r)) := by
  rw [framed, h]

lemma framed_of_error (h : frame n size s = .error e) : framed n size a s = .error e := by
  rw [framed, h]

lemma frame_of_framed_none (h : framed n size a s = .ok none) : frame n size s = .ok none := by
  cases hs : frame n size s with
  | error e =>
    rw [framed_of_error hs] at h
    cases h
  | ok o =>
    cases o with
    | none => rfl
    | some i =>
      rw [framed_of_some hs] at h
      cases h

lemma frame_of_framed_some {y : List (List α)} (h : framed n size a s = .ok (some (b, y, r))) :
    ∃ f, frame n size s = .ok (some (f, r)) ∧ b = a ∧ y = [f] := by
  cases hs : frame n size s with
  | error e =>
    rw [framed_of_error hs] at h
    cases h
  | ok o =>
    cases o with
    | none =>
      rw [framed_of_none hs] at h
      cases h
    | some i =>
      rw [framed_of_some hs] at h
      cases h
      exact ⟨i.1, rfl, rfl, rfl⟩

lemma frame_of_framed_error (h : framed n size a s = .error e) : frame n size s = .error e := by
  cases hs : frame n size s with
  | error e' =>
    rw [framed_of_error hs] at h
    exact congrArg _ (Except.error.inj h)
  | ok o =>
    cases o with
    | none =>
      rw [framed_of_none hs] at h
      cases h
    | some i =>
      rw [framed_of_some hs] at h
      cases h

/-- **Frames are a steady decoder.** -/
theorem steady_framed (hn : 0 < n) : Steady (framed (σ := σ) n size) where
  shorter := by
    intro a s b x r h
    obtain ⟨f, hf, _⟩ := frame_of_framed_some h
    exact frame_shorter hn hf
  taken := by
    intro a s b x r t h
    obtain ⟨f, hf, rfl, rfl⟩ := frame_of_framed_some h
    exact framed_of_some (frame_append hf t)
  refused := by
    intro a s e t h
    exact framed_of_error (frame_append_error (frame_of_framed_error h) t)

/-- What is left of the last frames: a part of the first that is not complete. -/
def Unfinished (frames : List (List α)) (tail : List α) : Prop :=
  match frames with
  | [] => tail = []
  | f :: _ => tail <+: f ∧ tail.length < f.length

lemma exists_unfinished (frames : List (List α)) (h : s <+: frames.flatten) :
    ∃ k tail, s = (frames.take k).flatten ++ tail ∧ Unfinished (frames.drop k) tail := by
  induction frames generalizing s with
  | nil => exact ⟨0, [], List.eq_nil_of_prefix_nil h, rfl⟩
  | cons f frames ih =>
    by_cases hlong : f.length ≤ s.length
    · obtain ⟨s', rfl⟩ := List.prefix_of_prefix_length_le (List.prefix_append f _) h hlong
      obtain ⟨k, tail, rfl, htail⟩ := ih ((List.prefix_append_right_inj f).mp h)
      exact ⟨k + 1, tail, by simp, htail⟩
    · have hpart : s <+: f :=
        List.prefix_of_prefix_length_le h (List.prefix_append f _) (by omega)
      exact ⟨0, s, rfl, hpart, by omega⟩

/-- **Frames are read back**, up to a tail that is not complete. -/
lemma reads_frames {frames : List (List α)} {bodies : List β}
    (hframes : List.Forall₂ (fun i f => ∀ t, next a (f ++ t) = .ok (some (a, [i], t))) bodies
      frames) {tail : List α} (htail : next a tail = .ok none) :
    Reads next a (frames.flatten ++ tail) a bodies tail := by
  induction hframes with
  | nil => exact .waits htail
  | @cons i f bodies frames h _ ih =>
    rw [List.flatten_cons, List.append_assoc]
    exact .takes (h _) ih

end FabPcb.StreamDecoder
