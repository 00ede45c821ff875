import FabPcb.WsBridge

/-!
Which answer reaches which request.

The bridge answers the client that asked, under the id it used, whatever the ids of others are,
and its events go under the reserved id only: this holds of every run. What a
`WebSocketTransport` does with an answer goes by the id alone, so its calls get their own
replies as long as no id is given out while something is still on its way under it.
-/

namespace FabPcb.BridgeCorrelation

open NngFraming OrderedMap Runs WsBridgeProtocol WsBridge
open NngTransport (TransportError Cause)
open WebSocketTransport (Client Waiting InRange allocId Keeps Resolves)

/-! ### The log -/

def sentNumbers (log : List Event) : List ℕ :=
  log.filterMap fun
    | .sent _ n _ => some n
    | _ => none

/-- The requests whose answer the bridge has disposed of. -/
def finishedNumbers (log : List Event) : List ℕ :=
  log.filterMap fun
    | .written _ _ about => about
    | .dropped n => some n
    | _ => none

lemma mem_sentNumbers {log : List Event} {k n : ℕ} {m : Message} (h : .sent k n m ∈ log) :
    n ∈ sentNumbers log :=
  List.mem_filterMap.mpr ⟨_, h, rfl⟩

/-! ### What the bridge promises -/

/-- The message is the answer to request `n` of socket `k`, under the id of the request: what
the transport made of it, or that KiCad is not running. -/
def AnswersRequest (log : List Event) (k n : ℕ) (m : Message) : Prop :=
  ∃ bytes id request, .sent k n (.binary bytes) ∈ log ∧
    decodeWsFrame bytes = .ok (id, request) ∧
    ((∃ result, .answered n result ∈ log ∧ m = answerFrame id result) ∨
      ∃ message, m = .text (.ok (.error (some id) (.transport .closed) message)))

/-- A message that answers no request: an event, or a control message that names none. -/
def AnswersNone (m : Message) : Prop :=
  (∃ event, m = .binary (encodeEventFrame event)) ∨
    ∃ c, m = .text (.ok c) ∧ ∀ id code message, c ≠ .error (some id) code message

/-- **What the bridge does with requests**: an answer goes to the socket of its request and
under its id, once, and any other frame is an event under the reserved id. -/
structure Law (log : List Event) : Prop where
  to_sender : ∀ k m n, .written k m (some n) ∈ log → AnswersRequest log k n m
  others : ∀ k m, .written k m none ∈ log → AnswersNone m
  once : (finishedNumbers log).Nodup
  settled : ∀ n result, .answered n result ∈ log → n ∈ finishedNumbers log
  reserved : ∀ k bytes n, .written k (.binary bytes) (some n) ∈ log →
    ∃ id reply, decodeWsFrame bytes = .ok (id, reply) ∧ isEventFrame id = false

lemma AnswersRequest.mono {log es : List Event} {k n : ℕ} {m : Message}
    (h : AnswersRequest log k n m) : AnswersRequest (log ++ es) k n m := by
  obtain ⟨bytes, id, request, hsent, hdecode, hanswer⟩ := h
  refine ⟨bytes, id, request, List.mem_append_left _ hsent, hdecode, ?_⟩
  exact hanswer.imp_left fun ⟨result, hresult, hm⟩ => ⟨result, List.mem_append_left _ hresult, hm⟩

/-! ### Where requests stand -/

/-- The requests that the bridge has yet to hear of, has, and is done with. -/
def numbers (b : Bridge) : List ℕ :=
  b.toServer.map (·.number) ++ b.calls.map (·.number) ++ finishedNumbers b.log

structure Sound (b : Bridge) : Prop where
  frames : ∀ f ∈ b.toServer, .sent f.ws f.number f.message ∈ b.log
  calls : ∀ c ∈ b.calls, ∃ bytes, .sent c.ws c.number (.binary bytes) ∈ b.log ∧
    decodeWsFrame bytes = .ok (c.id, c.request)
  answers : ∀ a ∈ b.toClient, .written a.ws a.message a.about ∈ b.log
  to_sender : ∀ k m n, .written k m (some n) ∈ b.log → AnswersRequest b.log k n m
  others : ∀ k m, .written k m none ∈ b.log → AnswersNone m
  unreserved : ∀ k n m, .sent k n m ∈ b.log → unreserved m = true
  settled : ∀ n result, .answered n result ∈ b.log → n ∈ finishedNumbers b.log
  distinct : (numbers b).Nodup
  numbered : ∀ n ∈ numbers b, n ∈ sentNumbers b.log
  counted : ∀ n ∈ sentNumbers b.log, n < b.messages
  waiting : ∀ k c, b.transports k = some c → ∀ w ∈ c.waiting,
    w.number < b.messages ∧ w.number ∉ sentNumbers b.log
  apart : ∀ k k' c c', b.transports k = some c → b.transports k' = some c' → k ≠ k' →
    ∀ w ∈ c.waiting, ∀ w' ∈ c'.waiting, w.number ≠ w'.number
  range : ∀ k c, b.transports k = some c → InRange c.nextId

lemma Sound.reserved {b : Bridge} (h : Sound b) {k n : ℕ} {bytes : Bytes}
    (hw : .written k (.binary bytes) (some n) ∈ b.log) :
    ∃ id reply, decodeWsFrame bytes = .ok (id, reply) ∧ isEventFrame id = false ∧
      .answered n (.ok reply) ∈ b.log := by
  obtain ⟨request, id, payload, hsent, hdecode, hanswer⟩ := h.to_sender k _ n hw
  have hid : isEventFrame id = false := by
    have hun := h.unreserved k n _ hsent
    simp only [WsBridge.unreserved, hdecode] at hun
    simpa [isEventFrame] using hun
  rcases hanswer with ⟨result, hresult, hm⟩ | ⟨message, hm⟩
  · cases result with
    | ok reply =>
      cases hm
      exact ⟨id, reply, decodeWsFrame_encodeWsFrame (lt_of_decodeWsFrame hdecode) reply, hid,
        hresult⟩
    | error e => cases hm
  · cases hm

lemma Sound.law {b : Bridge} (h : Sound b) : Law b.log where
  to_sender := h.to_sender
  others := h.others
  once := (List.nodup_append.mp h.distinct).2.1
  settled := h.settled
  reserved := fun k bytes n hw => by
    obtain ⟨id, reply, hdecode, hid, _⟩ := h.reserved hw
    exact ⟨id, reply, hdecode, hid⟩

lemma sound_new (sessionId : String) : Sound (new sessionId) where
  frames := fun _ h => by cases h
  calls := fun _ h => by cases h
  answers := fun _ h => by cases h
  to_sender := fun _ _ _ h => by cases h
  others := fun _ _ h => by cases h
  unreserved := fun _ _ _ h => by cases h
  settled := fun _ _ h => by cases h
  distinct := List.nodup_nil
  numbered := fun _ h => by cases h
  counted := fun _ h => by cases h
  waiting := fun _ _ h => by cases h
  apart := fun _ _ _ _ h => by cases h
  range := fun _ _ h => by cases h

/-! ### What keeps them sound -/

section Sound

variable {b b' : Bridge} {c : Client} {k n : ℕ} {m : Message}

lemma perm_eraseP {α : Type*} {p : α → Bool} {l : List α} {a : α} (h : l.find? p = some a) :
    (a :: l.eraseP p).Perm l := by
  induction l with
  | nil => cases h
  | cons x l ih =>
    cases hx : p x with
    | true =>
      rw [List.find?_cons_of_pos hx] at h
      cases h
      rw [List.eraseP_cons_of_pos hx]
    | false =>
      rw [List.find?_cons_of_neg (by simp [hx])] at h
      rw [List.eraseP_cons_of_neg (by simp [hx])]
      exact (List.Perm.swap x a _).trans ((ih h).cons x)

/-- Messages may be taken off the network and calls off the transport, and what the law does not
look at may change. -/
lemma Sound.shrink (h : Sound b) (hlog : b'.log = b.log)
    (hserver : List.Sublist b'.toServer b.toServer) (hcalls : List.Sublist b'.calls b.calls)
    (hclient : b'.toClient ⊆ b.toClient) (hmessages : b'.messages = b.messages)
    (htransports : b'.transports = b.transports) : Sound b' := by
  have hsub : List.Sublist (numbers b') (numbers b) := by
    rw [numbers, hlog]
    exact ((hserver.map _).append (hcalls.map _)).append_right _
  obtain ⟨hframes, hcalls', hanswers, hsender, hothers, hunreserved, hsettled, hdistinct,
    hnumbered, hcounted, hwaiting, hapart, hrange⟩ := h
  constructor
  case distinct => exact hdistinct.sublist hsub
  case numbered => exact fun n hn => hlog ▸ hnumbered n (hsub.subset hn)
  case frames => exact fun f hf => hlog ▸ hframes f (hserver.subset hf)
  case calls => exact fun c hc => hlog ▸ hcalls' c (hcalls.subset hc)
  case answers => exact fun a ha => hlog ▸ hanswers a (hclient ha)
  all_goals
    try rw [hlog]
    try rw [hmessages]
    try rw [htransports]
    assumption

/-- A message is written: an answer to a request that is not done with, or one to none. -/
lemma sound_write (h : Sound b) {about : Option ℕ} (hnone : about = none → AnswersNone m)
    (hsome : ∀ n, about = some n →
      AnswersRequest b.log k n m ∧ n ∉ numbers b ∧ n ∈ sentNumbers b.log) :
    Sound (write b k m about) := by
  unfold write
  split_ifs
  swap
  · exact h
  have hsent : sentNumbers (b.log ++ [.written k m about]) = sentNumbers b.log := by
    simp [sentNumbers]
  have hfinished : finishedNumbers (b.log ++ [.written k m about]) =
      finishedNumbers b.log ++ about.toList := by
    cases about <;> simp [finishedNumbers]
  have hmem : ∀ k' m' about', .written k' m' about' ∈ b.log ++ [.written k m about] →
      .written k' m' about' ∈ b.log ∨ k' = k ∧ m' = m ∧ about' = about := by
    simp
  have hnumbers : ∀ {S : List ℕ}, (∀ n, about = some n → n ∉ S) → S.Nodup →
      (S ++ about.toList).Nodup := by
    intro S hn hS
    cases about with
    | none => simpa using hS
    | some n =>
      refine List.nodup_append.mpr ⟨hS, List.nodup_singleton n, ?_⟩
      rintro x hx y hy rfl
      exact hn n rfl (List.mem_singleton.mp hy ▸ hx)
  constructor
  case frames => exact fun f hf => List.mem_append_left _ (h.frames f hf)
  case calls =>
    intro c hc
    obtain ⟨bytes, hsent, hdecode⟩ := h.calls c hc
    exact ⟨bytes, List.mem_append_left _ hsent, hdecode⟩
  case answers =>
    intro a ha
    rcases List.mem_append.mp ha with ha | ha
    · exact List.mem_append_left _ (h.answers a ha)
    · rw [List.mem_singleton.mp ha]
      exact List.mem_append_right _ (List.mem_singleton.mpr rfl)
  case to_sender =>
    intro k' m' n hw
    rcases hmem _ _ _ hw with hw | ⟨rfl, rfl, habout⟩
    · exact (h.to_sender k' m' n hw).mono
    · exact (hsome n habout.symm).1.mono
  case others =>
    intro k' m' hw
    rcases hmem _ _ _ hw with hw | ⟨rfl, rfl, habout⟩
    · exact h.others k' m' hw
    · exact hnone habout.symm
  case unreserved => exact fun k' n m' hs => h.unreserved k' n m' (by simpa using hs)
  case settled =>
    intro n result ha
    rw [hfinished]
    exact List.mem_append_left _ (h.settled n result (by simpa using ha))
  case distinct =>
    rw [numbers, hfinished, ← List.append_assoc]
    exact hnumbers (fun n hn => (hsome n hn).2.1) h.distinct
  case numbered =>
    intro n hn
    rw [numbers, hfinished, ← List.append_assoc, List.mem_append] at hn
    rw [hsent]
    rcases hn with hn | hn
    · exact h.numbered n hn
    · exact (hsome n (by simpa using hn)).2.2
  case counted => exact fun n hn => h.counted n (hsent ▸ hn)
  case waiting => exact fun k' c hc w hw => hsent.symm ▸ h.waiting k' c hc w hw
  case apart => exact h.apart
  case range => exact h.range

lemma transports_setClient (b : Bridge) (k : ℕ) (c : Client) (k' : ℕ) :
    (setClient b k c).transports k' = if k' = k then some c else b.transports k' :=
  Function.update_apply ..

lemma transports_self (b : Bridge) (k : ℕ) (c : Client) :
    (setClient b k c).transports k = some c :=
  Function.update_self ..

/-- A client changes, and keeps its numbers to itself. -/
lemma sound_setClient (h : Sound b)
    (hwaiting : ∀ w ∈ c.waiting, w.number < b.messages ∧ w.number ∉ sentNumbers b.log)
    (hapart : ∀ k' c', b.transports k' = some c' → k' ≠ k → ∀ w ∈ c.waiting, ∀ w' ∈ c'.waiting,
      w.number ≠ w'.number)
    (hrange : InRange c.nextId) : Sound (setClient b k c) := by
  have hget : ∀ k' c', (setClient b k c).transports k' = some c' →
      (k' = k ∧ c' = c) ∨ (k' ≠ k ∧ b.transports k' = some c') := by
    intro k' c' h'
    rw [transports_setClient] at h'
    split_ifs at h' with hk
    · exact Or.inl ⟨hk, (Option.some.inj h').symm⟩
    · exact Or.inr ⟨hk, h'⟩
  refine ⟨h.frames, h.calls, h.answers, h.to_sender, h.others, h.unreserved, h.settled,
    h.distinct, h.numbered, h.counted, fun k' c' h' => ?_, fun k₁ k₂ c₁ c₂ h₁ h₂ hne => ?_,
    fun k' c' h' => ?_⟩
  · rcases hget k' c' h' with ⟨rfl, rfl⟩ | ⟨_, h'⟩
    · exact hwaiting
    · exact h.waiting k' c' h'
  · rcases hget k₁ c₁ h₁ with ⟨rfl, rfl⟩ | ⟨hk₁, hc₁⟩
    · rcases hget k₂ c₂ h₂ with ⟨rfl, _⟩ | ⟨hk₂, hc₂⟩
      · exact absurd rfl hne
      · exact hapart k₂ c₂ hc₂ hk₂
    · rcases hget k₂ c₂ h₂ with ⟨rfl, rfl⟩ | ⟨_, hc₂⟩
      · exact fun w hw w' hw' heq => hapart k₁ c₁ hc₁ hk₁ w' hw' w hw heq.symm
      · exact h.apart k₁ k₂ c₁ c₂ hc₁ hc₂ hne
  · rcases hget k' c' h' with ⟨rfl, rfl⟩ | ⟨_, h'⟩
    · exact hrange
    · exact h.range k' c' h'

lemma sound_update {c' : Client} (h : Sound b) (hc : b.transports k = some c)
    (hwaiting : c'.waiting ⊆ c.waiting) (hrange : InRange c'.nextId) :
    Sound (setClient b k c') :=
  sound_setClient h (fun w hw => h.waiting k c hc w (hwaiting hw))
    (fun k' c'' hc'' hne w hw => h.apart k k' c c'' hc hc'' (Ne.symm hne) w (hwaiting hw)) hrange

/-- A client writes, under a number that no call waits with. -/
lemma sound_post (h : Sound b) (hn : n < b.messages) (hfresh : n ∉ sentNumbers b.log)
    (hwaiting : ∀ k c, b.transports k = some c → ∀ w ∈ c.waiting, w.number ≠ n)
    (hm : unreserved m = true) : Sound (post b k n m) := by
  have hsent : sentNumbers (b.log ++ [.sent k n m]) = sentNumbers b.log ++ [n] := by
    simp [sentNumbers]
  have hfinished : finishedNumbers (b.log ++ [.sent k n m]) = finishedNumbers b.log := by
    simp [finishedNumbers]
  have hnumbers : (numbers (post b k n m)).Perm (n :: numbers b) := by
    simp only [numbers, post, hfinished, List.map_append, List.map_cons, List.map_nil,
      List.append_assoc, List.cons_append, List.nil_append]
    exact List.perm_middle
  constructor
  case frames =>
    intro f hf
    rcases List.mem_append.mp hf with hf | hf
    · exact List.mem_append_left _ (h.frames f hf)
    · rw [List.mem_singleton.mp hf]
      exact List.mem_append_right _ (List.mem_singleton.mpr rfl)
  case calls =>
    intro c hc
    obtain ⟨bytes, hsent, hdecode⟩ := h.calls c hc
    exact ⟨bytes, List.mem_append_left _ hsent, hdecode⟩
  case answers => exact fun a ha => List.mem_append_left _ (h.answers a ha)
  case to_sender => exact fun k' m' n' hw => (h.to_sender k' m' n' (by simpa [post] using hw)).mono
  case others => exact fun k' m' hw => h.others k' m' (by simpa [post] using hw)
  case unreserved =>
    intro k' n' m' hs
    rcases List.mem_append.mp hs with hs | hs
    · exact h.unreserved k' n' m' hs
    · cases List.mem_singleton.mp hs
      exact hm
  case settled =>
    intro n' result ha
    simp only [post, hfinished]
    exact h.settled n' result (by simpa [post] using ha)
  case distinct =>
    rw [hnumbers.nodup_iff, List.nodup_cons]
    exact ⟨fun hmem => hfresh (h.numbered n hmem), h.distinct⟩
  case numbered =>
    intro n' hn'
    simp only [post, hsent]
    rcases List.mem_cons.mp (hnumbers.subset hn') with rfl | hmem
    · exact List.mem_append_right _ (List.mem_singleton.mpr rfl)
    · exact List.mem_append_left _ (h.numbered n' hmem)
  case counted =>
    intro n' hn'
    simp only [post, hsent] at hn'
    rcases List.mem_append.mp hn' with hmem | hmem
    · exact h.counted n' hmem
    · rw [List.mem_singleton.mp hmem]
      exact hn
  case waiting =>
    intro k' c hc w hw
    refine ⟨(h.waiting k' c hc w hw).1, ?_⟩
    simp only [post, hsent, List.mem_append, List.mem_singleton, not_or]
    exact ⟨(h.waiting k' c hc w hw).2, hwaiting k' c hc w hw⟩
  case apart => exact h.apart
  case range => exact h.range

lemma sound_count (h : Sound b) : Sound { b with messages := b.messages + 1 } := by
  obtain ⟨hframes, hcalls, hanswers, hsender, hothers, hunreserved, hsettled, hdistinct,
    hnumbered, hcounted, hwaiting, hapart, hrange⟩ := h
  exact ⟨hframes, hcalls, hanswers, hsender, hothers, hunreserved, hsettled, hdistinct,
    hnumbered, fun n hn => Nat.lt_succ_of_lt (hcounted n hn),
    fun k c hc w hw => ⟨Nat.lt_succ_of_lt (hwaiting k c hc w hw).1, (hwaiting k c hc w hw).2⟩,
    hapart, hrange⟩

lemma sound_postNew (h : Sound b) (hm : unreserved m = true) : Sound (postNew b k m) :=
  sound_post (sound_count h) (Nat.lt_succ_self _)
    (fun hmem => Nat.lt_irrefl _ (h.counted _ hmem))
    (fun k' c hc w hw => Nat.ne_of_lt (h.waiting k' c hc w hw).1) hm

lemma sound_sendControl (h : Sound b) {m : Control}
    (hm : ∀ id code s, m ≠ .error (some id) code s) : Sound (sendControl b k m none) :=
  sound_write h (fun _ => Or.inr ⟨m, rfl, hm⟩) fun _ hn => by cases hn

lemma sound_onOpen (h : Sound b) : Sound (onOpen b k) := by
  have hclients : Sound { b with clients := b.clients ++ [k] } :=
    h.shrink rfl (List.Sublist.refl _) (List.Sublist.refl _) (List.Subset.refl _) rfl rfl
  exact sound_sendControl hclients fun _ _ _ he => by cases he

lemma sound_toAll (h : Sound b) (hm : AnswersNone m) : Sound (toAll b m) := by
  have hfold : ∀ (ks : List ℕ) (b : Bridge), Sound b →
      Sound (ks.foldl (fun b k => write b k m none) b) := by
    intro ks
    induction ks with
    | nil => exact fun _ h => h
    | cons k ks ih => exact fun b h => ih _ (sound_write h (fun _ => hm) fun _ hn => by cases hn)
  exact hfold _ b h

/-- A client connects. -/
lemma sound_connect (h : Sound b) (k : ℕ) (client : Option (String × Option ℕ)) :
    Sound { b with
      transports := Function.update b.transports k (client.map fun c => Client.new c.1 c.2) } := by
  have hget : ∀ k' c,
      Function.update b.transports k (client.map fun c => Client.new c.1 c.2) k' = some c →
      (c.waiting = [] ∧ InRange c.nextId) ∨ b.transports k' = some c := by
    intro k' c hc
    rw [Function.update_apply] at hc
    split_ifs at hc
    · obtain ⟨d, _, rfl⟩ := Option.map_eq_some_iff.mp hc
      exact Or.inl ⟨rfl, WebSocketTransport.inRange_one⟩
    · exact Or.inr hc
  refine ⟨h.frames, h.calls, h.answers, h.to_sender, h.others, h.unreserved, h.settled,
    h.distinct, h.numbered, h.counted, fun k' c hc w hw => ?_,
    fun k₁ k₂ c₁ c₂ hc₁ hc₂ hne w hw w' hw' => ?_, fun k' c hc => ?_⟩
  · rcases hget k' c hc with ⟨hnil, _⟩ | hc
    · rw [hnil] at hw
      cases hw
    · exact h.waiting k' c hc w hw
  · rcases hget k₁ c₁ hc₁ with ⟨hnil, _⟩ | hc₁
    · rw [hnil] at hw
      cases hw
    · rcases hget k₂ c₂ hc₂ with ⟨hnil, _⟩ | hc₂
      · rw [hnil] at hw'
        cases hw'
      · exact h.apart k₁ k₂ c₁ c₂ hc₁ hc₂ hne w hw w' hw'
  · rcases hget k' c hc with ⟨_, hrange⟩ | hc
    · exact hrange
    · exact h.range k' c hc

/-- The first message of a socket reaches the bridge. -/
lemma sound_arrive {f : Frame} (h : Sound b) (hf : b.toServer.find? (·.ws = k) = some f) :
    Sound (onMessage { b with toServer := b.toServer.eraseP (·.ws = k) } f) := by
  have hperm := perm_eraseP hf
  have hrest : Sound { b with toServer := b.toServer.eraseP (·.ws = k) } :=
    h.shrink rfl List.eraseP_sublist (List.Sublist.refl _) (List.Subset.refl _) rfl rfl
  have hmem : f ∈ b.toServer := hperm.subset List.mem_cons_self
  have hnumbers : (f.number :: numbers { b with toServer := b.toServer.eraseP (·.ws = k) }).Perm
      (numbers b) := by
    have hmap := hperm.map (·.number)
    exact (hmap.append_right _).append_right _
  have hnodup := hnumbers.nodup_iff.mpr h.distinct
  have hsent : f.number ∈ sentNumbers b.log := mem_sentNumbers (h.frames f hmem)
  unfold onMessage
  split
  case h_1 => exact sound_sendControl hrest fun _ _ _ he => by cases he
  case h_2 => exact sound_sendControl hrest fun _ _ _ he => by cases he
  case h_3 => exact hrest
  case h_4 bytes hm =>
    have hbytes : .sent f.ws f.number (.binary bytes) ∈ b.log := hm ▸ h.frames f hmem
    split
    case h_1 => exact sound_sendControl hrest fun _ _ _ he => by cases he
    case h_2 id payload hdecode =>
      split_ifs
      · refine sound_write hrest (fun hnone => by cases hnone) fun n hn => ?_
        cases hn
        exact ⟨⟨bytes, id, payload, hbytes, hdecode, Or.inr ⟨_, rfl⟩⟩,
          (List.nodup_cons.mp hnodup).1, hsent⟩
      · have hcall : (numbers { b with
            toServer := b.toServer.eraseP (·.ws = k),
            calls := b.calls ++ [⟨f.number, f.ws, id, payload⟩] }).Perm (numbers b) := by
          refine List.Perm.trans ?_ hnumbers
          simp only [numbers, List.map_append, List.map_cons, List.map_nil, List.append_assoc,
            List.cons_append, List.nil_append]
          exact (List.perm_middle.append_left _).trans List.perm_middle
        obtain ⟨hframes, hcalls, hanswers, hsender, hothers, hunreserved, hsettled, hdistinct,
          hnumbered, hcounted, hwaiting, hapart, hrange⟩ := hrest
        refine ⟨hframes, fun c hc => ?_, hanswers, hsender, hothers, hunreserved, hsettled, ?_,
          fun n hn => h.numbered n (hcall.subset hn), hcounted, hwaiting, hapart, hrange⟩
        · rcases List.mem_append.mp hc with hc | hc
          · exact hcalls c hc
          · rw [List.mem_singleton.mp hc]
            exact ⟨bytes, hbytes, hdecode⟩
        · exact hcall.nodup_iff.mpr h.distinct

/-- A request is answered: the answer is written, or its socket is not open. -/
lemma sound_dispose (h : Sound b) {i : ℕ} {bytes request : Bytes} {result : Except Cause Bytes}
    {x : Event} {answers : List Answer} (hn : n ∉ numbers b)
    (hbytes : .sent k n (.binary bytes) ∈ b.log) (hdecode : decodeWsFrame bytes = .ok (i, request))
    (hx : (x = .written k (answerFrame i result) (some n) ∧
        answers = b.toClient ++ [⟨k, answerFrame i result, some n⟩]) ∨
      (x = .dropped n ∧ answers = b.toClient)) :
    Sound { b with toClient := answers, log := b.log ++ [.answered n result] ++ [x] } := by
  have hsent : sentNumbers (b.log ++ [.answered n result] ++ [x]) = sentNumbers b.log := by
    rcases hx with ⟨rfl, _⟩ | ⟨rfl, _⟩ <;> simp [sentNumbers]
  have hfinished : finishedNumbers (b.log ++ [.answered n result] ++ [x]) =
      finishedNumbers b.log ++ [n] := by
    rcases hx with ⟨rfl, _⟩ | ⟨rfl, _⟩ <;> simp [finishedNumbers]
  have hold : ∀ {e : Event}, e ∈ b.log → e ∈ b.log ++ [.answered n result] ++ [x] :=
    fun he => List.mem_append_left _ (List.mem_append_left _ he)
  have hnumbers : (numbers { b with
      toClient := answers, log := b.log ++ [.answered n result] ++ [x] }).Perm
      (n :: numbers b) := by
    simp only [numbers, hfinished, ← List.append_assoc]
    exact List.perm_append_singleton _ _
  constructor
  case frames => exact fun f hf => hold (h.frames f hf)
  case calls =>
    intro c hc
    obtain ⟨bytes, hsent, hdecode⟩ := h.calls c hc
    exact ⟨bytes, hold hsent, hdecode⟩
  case answers =>
    intro a ha
    rcases hx with ⟨rfl, rfl⟩ | ⟨rfl, rfl⟩
    · rcases List.mem_append.mp ha with ha | ha
      · exact hold (h.answers a ha)
      · rw [List.mem_singleton.mp ha]
        exact List.mem_append_right _ (List.mem_singleton.mpr rfl)
    · exact hold (h.answers a ha)
  case to_sender =>
    intro k' m' n' hw
    rw [List.append_assoc]
    simp only [List.append_assoc, List.mem_append, List.cons_append, List.nil_append,
      List.mem_cons, List.not_mem_nil, or_false, reduceCtorEq, false_or] at hw
    rcases hw with hw | hw
    · exact (h.to_sender k' m' n' hw).mono
    · rcases hx with ⟨rfl, _⟩ | ⟨rfl, _⟩
      · cases hw
        refine ⟨bytes, i, request, List.mem_append_left _ hbytes, hdecode,
          Or.inl ⟨result, ?_, rfl⟩⟩
        exact List.mem_append_right _ List.mem_cons_self
      · cases hw
  case others =>
    intro k' m' hw
    refine h.others k' m' ?_
    rcases hx with ⟨rfl, _⟩ | ⟨rfl, _⟩ <;> simpa using hw
  case unreserved =>
    intro k' n' m' hs
    refine h.unreserved k' n' m' ?_
    rcases hx with ⟨rfl, _⟩ | ⟨rfl, _⟩ <;> simpa using hs
  case settled =>
    intro n' result' ha
    rw [hfinished]
    have hcases : .answered n' result' ∈ b.log ∨ n' = n := by
      rcases hx with ⟨rfl, _⟩ | ⟨rfl, _⟩
      · simp only [List.append_assoc, List.mem_append, List.cons_append, List.nil_append,
          List.mem_cons, List.not_mem_nil, or_false, reduceCtorEq, Event.answered.injEq] at ha
        exact ha.imp_right (·.1)
      · simp only [List.append_assoc, List.mem_append, List.cons_append, List.nil_append,
          List.mem_cons, List.not_mem_nil, or_false, reduceCtorEq, Event.answered.injEq] at ha
        exact ha.imp_right (·.1)
    rcases hcases with hmem | rfl
    · exact List.mem_append_left _ (h.settled n' result' hmem)
    · exact List.mem_append_right _ (List.mem_singleton.mpr rfl)
  case distinct =>
    rw [hnumbers.nodup_iff, List.nodup_cons]
    exact ⟨hn, h.distinct⟩
  case numbered =>
    intro n' hn'
    rw [hsent]
    rcases List.mem_cons.mp (hnumbers.subset hn') with rfl | hmem
    · exact mem_sentNumbers hbytes
    · exact h.numbered n' hmem
  case counted => exact fun n' hn' => h.counted n' (hsent ▸ hn')
  case waiting => exact fun k' c hc w hw => hsent.symm ▸ h.waiting k' c hc w hw
  case apart => exact h.apart
  case range => exact h.range

/-- What the transport of the session settles. -/
lemma sound_settled {call : Call} {result : Except Cause Bytes} (h : Sound b)
    (hcall : b.calls.find? (·.number = n) = some call) : Sound (onSettled b call result) := by
  obtain rfl : call.number = n := by simpa using List.find?_some hcall
  have hperm := perm_eraseP hcall
  have hmem : call ∈ b.calls := hperm.subset List.mem_cons_self
  have hrest : Sound { b with calls := b.calls.eraseP (·.number = call.number) } :=
    h.shrink rfl (List.Sublist.refl _) List.eraseP_sublist (List.Subset.refl _) rfl rfl
  have hnumbers : (call.number ::
      numbers { b with calls := b.calls.eraseP (·.number = call.number) }).Perm (numbers b) := by
    have hmap := (hperm.map (·.number)).append_left (b.toServer.map (·.number))
    exact (List.perm_middle.symm.append_right _).trans (hmap.append_right _)
  have hfresh := (List.nodup_cons.mp (hnumbers.nodup_iff.mpr h.distinct)).1
  obtain ⟨bytes, hbytes, hdecode⟩ := h.calls call hmem
  unfold onSettled write
  simp only
  split_ifs with hlive
  · exact sound_dispose hrest hfresh hbytes hdecode (Or.inl ⟨rfl, rfl⟩)
  · exact sound_dispose (i := call.id) hrest hfresh hbytes hdecode (Or.inr ⟨rfl, rfl⟩)

lemma sound_keeps {c' : Client} {told : ℕ → Bytes → Prop} (h : Sound b)
    (hc : b.transports k = some c) (hkeeps : Keeps c c' told) : Sound (setClient b k c') :=
  sound_update h hc hkeeps.waiting (hkeeps.range (h.range k c hc))

lemma unreserved_encode {id : ℕ} (hid : InRange id) (request : Bytes) :
    unreserved (.binary (encodeWsFrame id request)) = true := by
  simp only [unreserved, decodeWsFrame_encodeWsFrame hid.lt]
  exact decide_eq_true hid.ne_reserved

/-- A client transmits a request under a number that no call waits with any more. -/
lemma sound_transmit {c₀ : Client} {w : Waiting} {failure : Option String}
    {r : Client × Option Bytes} (h : Sound b) (hc : b.transports k = some c)
    (ht : WebSocketTransport.transmit c₀ w failure = some r)
    (hsub : c₀.waiting ⊆ c.waiting) (hnext : c₀.nextId = c.nextId) (hn : n < b.messages)
    (hfresh : n ∉ sentNumbers b.log) (hself : ∀ w' ∈ c₀.waiting, w'.number ≠ n)
    (hothers : ∀ k' c', b.transports k' = some c' → k' ≠ k → ∀ w' ∈ c'.waiting, w'.number ≠ n) :
    Sound (afterSend b k n r) := by
  obtain ⟨c', out⟩ := r
  have hrange : InRange c₀.nextId := hnext ▸ h.range k c hc
  rcases WebSocketTransport.transmit_cases (R := fun _ _ => False) hrange ht with
    ⟨rfl, hkeeps⟩ | ⟨id, p, _, rfl, _, _, hid, hnext', hwaiting, _, _, _⟩
  · exact sound_update h hc (List.Subset.trans hkeeps.waiting hsub) (hkeeps.range hrange)
  · have hset : Sound (setClient b k c') := by
      refine sound_update h hc ?_ hnext'
      rw [hwaiting]
      exact hsub
    refine sound_post hset hn hfresh (fun k' c'' hc'' w' hw' => ?_) (unreserved_encode hid _)
    rw [transports_setClient] at hc''
    split_ifs at hc'' with hk
    · cases hc''
      exact hself w' (hwaiting ▸ hw')
    · exact hothers k' c'' hc'' hk w' hw'

lemma sound_send {request : Bytes} {timeoutMs : Option (Option ℕ)} {failure : Option String}
    {r : Client × Option Bytes} (h : Sound b) (hc : b.transports k = some c)
    (hr : WebSocketTransport.send c b.messages request timeoutMs failure = some r) :
    Sound (afterSend { b with messages := b.messages + 1 } k b.messages r) := by
  have hcount := sound_count h
  have hfresh : b.messages ∉ sentNumbers b.log := fun hmem => Nat.lt_irrefl _ (h.counted _ hmem)
  have hother : ∀ k' c', b.transports k' = some c' → ∀ w ∈ c'.waiting, w.number ≠ b.messages :=
    fun k' c' hc' w hw => Nat.ne_of_lt (h.waiting k' c' hc' w hw).1
  unfold WebSocketTransport.send at hr
  split at hr
  · cases hr
    refine sound_setClient hcount (fun w hw => ?_) (fun k' c' hc' hne w hw w' hw' => ?_)
      (h.range k c hc)
    · rcases List.mem_append.mp hw with hw | hw
      · exact hcount.waiting k c hc w hw
      · rw [List.mem_singleton.mp hw]
        exact ⟨Nat.lt_succ_self _, hfresh⟩
    · rcases List.mem_append.mp hw with hw | hw
      · exact h.apart k k' c c' hc hc' (Ne.symm hne) w hw w' hw'
      · rw [List.mem_singleton.mp hw]
        exact Ne.symm (hother k' c' hc' w' hw')
  · exact sound_transmit hcount hc hr (List.Subset.refl _) rfl (Nat.lt_succ_self _) hfresh
      (hother k c hc) fun k' c' hc' _ => hother k' c' hc'
  · cases hr
    exact sound_update hcount hc (List.Subset.refl _) (h.range k c hc)

lemma sound_resume {failure : Option String} {r : Client × Option Bytes} (h : Sound b)
    (hc : b.transports k = some c) (hr : WebSocketTransport.resume c n failure = some r) :
    Sound (afterSend b k n r) := by
  unfold WebSocketTransport.resume at hr
  split at hr
  · cases hr
  case h_2 w hw =>
    obtain rfl : w.number = n := by simpa using List.find?_some hw
    have hmem := List.mem_of_find?_eq_some hw
    obtain ⟨hn, hfresh⟩ := h.waiting k c hc w hmem
    have hsub : c.waiting.filter (·.number ≠ w.number) ⊆ c.waiting :=
      List.filter_subset_self _
    split at hr
    · cases hr
    · refine sound_transmit h hc hr hsub rfl hn hfresh (fun w' hw' => ?_)
        fun k' c' hc' hne w' hw' => h.apart k' k c' c hc' hc hne w' hw' w hmem
      simpa using (List.mem_filter.mp hw').2
    · cases hr
      exact sound_update h hc hsub (h.range k c hc)

lemma sound_deliver {a : Answer} (h : Sound b) : Sound (deliver b a) := by
  unfold deliver
  split
  · exact h
  case h_2 c hc =>
    simp only
    have hset := sound_keeps h hc (WebSocketTransport.onMessage_keeps c a.message)
    split
    · exact hset
    · exact sound_postNew hset rfl

/-- **A step keeps requests where they stand.** -/
theorem sound_step {a : Action} (h : Sound b) (hstep : step b a = some b') : Sound b' := by
  have hclient : ∀ {k : ℕ} {f : Client → Client}, (∀ c, Keeps c (f c) fun _ _ => False) →
      (b.transports k).map (fun c => setClient b k (f c)) = some b' → Sound b' := by
    intro k f hf hs
    obtain ⟨c, hc, rfl⟩ := Option.map_eq_some_iff.mp hs
    exact sound_keeps h hc (hf c)
  have hshrink : ∀ {b₁ : Bridge}, b₁.log = b.log → b₁.toServer = b.toServer →
      b₁.calls = b.calls → b₁.toClient = b.toClient → b₁.messages = b.messages →
      b₁.transports = b.transports → Sound b₁ := by
    intro b₁ hlog hserver hcalls hclient hmessages htransports
    exact h.shrink hlog (hserver ▸ List.Sublist.refl _) (hcalls ▸ List.Sublist.refl _)
      (hclient ▸ List.Subset.refl _) hmessages htransports
  cases a with
  | connect client =>
    cases hstep
    exact sound_onOpen (Sound.shrink (sound_connect h b.sockets client) rfl
      (List.Sublist.refl _) (List.Sublist.refl _) (List.Subset.refl _) rfl rfl)
  | disconnect k => cases hstep; exact hshrink rfl rfl rfl rfl rfl rfl
  | arrive k =>
    simp only [step] at hstep
    split at hstep
    · cases hstep
    case h_2 f hf =>
      split_ifs at hstep
      cases hstep
      exact sound_arrive h hf
  | settle n result =>
    simp only [step] at hstep
    split at hstep
    · cases hstep
    case h_2 call hcall =>
      cases hstep
      exact sound_settled h hcall
  | event bytes => cases hstep; exact sound_toAll h (Or.inl ⟨bytes, rfl⟩)
  | session state error kicadToken transportOpen eventsState tell =>
    simp only [step, Option.some.injEq] at hstep
    subst hstep
    split_ifs
    · refine sound_toAll (sound_toAll (hshrink rfl rfl rfl rfl rfl rfl) ?_) ?_
      · exact Or.inr ⟨_, rfl, fun _ _ _ he => by cases he⟩
      · exact Or.inr ⟨_, rfl, fun _ _ _ he => by cases he⟩
    · exact hshrink rfl rfl rfl rfl rfl rfl
  | post k m =>
    simp only [step] at hstep
    split_ifs at hstep with hpost
    cases hstep
    exact sound_postNew h hpost.2.2
  | deliver k =>
    simp only [step] at hstep
    split at hstep
    · cases hstep
    · cases hstep
      exact sound_deliver (h.shrink rfl (List.Sublist.refl _) (List.Sublist.refl _)
        List.eraseP_subset rfl rfl)
  | socketOpen k =>
    exact hclient (f := fun c => { c with socketOpen := true })
      (fun c => WebSocketTransport.keeps_of_eq rfl rfl rfl rfl) hstep
  | send k request timeoutMs failure =>
    obtain ⟨c, hc, hs⟩ := Option.bind_eq_some_iff.mp hstep
    obtain ⟨r, hr, rfl⟩ := Option.map_eq_some_iff.mp hs
    exact sound_send h hc hr
  | resume k n failure =>
    obtain ⟨c, hc, hs⟩ := Option.bind_eq_some_iff.mp hstep
    obtain ⟨r, hr, rfl⟩ := Option.map_eq_some_iff.mp hs
    exact sound_resume h hc hr
  | timeout k n =>
    obtain ⟨c, hc, hs⟩ := Option.bind_eq_some_iff.mp hstep
    obtain ⟨c', hc', rfl⟩ := Option.map_eq_some_iff.mp hs
    exact sound_keeps h hc (WebSocketTransport.onTimeout_keeps (R := fun _ _ => False) hc')
  | keepalive k t =>
    obtain ⟨c, hc, hs⟩ := Option.bind_eq_some_iff.mp hstep
    split_ifs at hs
    cases hs
    exact sound_postNew h rfl
  | close k => exact hclient WebSocketTransport.close_keeps hstep
  | connectTimeout k ms =>
    exact hclient (fun c => WebSocketTransport.onConnectTimeout_keeps c ms) hstep
  | socketError k message =>
    exact hclient (f := fun c => WebSocketTransport.onError c message)
      (fun c => WebSocketTransport.keeps_of_eq rfl rfl rfl rfl) hstep
  | socketClosed k code reason =>
    exact hclient (fun c => WebSocketTransport.onClose_keeps c code reason) hstep

/-- **What the bridge promises holds of every run**, with any clients on any ids; and a client with
fewer calls pending than there are ids is given one that is neither pending nor reserved. -/
theorem law_of_run {sessionId : String} {as : List Action}
    (hrun : run step (new sessionId) as = some b) :
    Law b.log ∧ ∀ k c, b.transports k = some c → c.pending.size < WS_MAX_REQUEST_ID →
      ∃ id next, allocId c.pending c.nextId = some (id, next) ∧ id ≠ WS_EVENT_FRAME_ID ∧
        c.pending.has id = false := by
  have hs := invariant_run Sound (fun _ _ _ hs h => sound_step hs h) (sound_new sessionId) hrun
  refine ⟨hs.law, fun k c hc hsize => ?_⟩
  have hrange := hs.range k c hc
  obtain ⟨r, hr⟩ := Option.isSome_iff_exists.mp (WebSocketTransport.allocId_isSome hrange hsize)
  obtain ⟨hhas, hid, -⟩ := WebSocketTransport.allocId_spec hrange hr
  exact ⟨r.1, r.2, hr, hid.ne_reserved, hhas⟩

/-- A request that is answered while KiCad runs. -/
def answered : List Action :=
  [.session .running none none true .connected false, .connect (some ("", none)), .socketOpen 0,
    .deliver 0, .send 0 [5] none none, .arrive 0, .settle 0 (.ok [6])]

theorem law_of_run_answered : ∃ b, run step (new "s") answered = some b ∧ Law b.log := by
  have hrun : (run step (new "s") answered).isSome = true := by decide
  obtain ⟨b, hb⟩ := Option.isSome_iff_exists.mp hrun
  exact ⟨b, hb, (law_of_run hb).1⟩

end Sound

end FabPcb.BridgeCorrelation
