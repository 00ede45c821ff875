import FabPcb.BridgeCorrelation

/-!
Whether the calls of a `WebSocketTransport` get their own replies.

The transport knows a reply by its id alone, and forgets the id of a call that times out. The
counter comes round to it, and a call under the same id takes the late reply. As long as no id
is given out while something is on its way under it, what is on its way under the id of a call
is about that call.
-/

namespace FabPcb.BridgeReplies

open NngFraming OrderedMap Runs WsBridgeProtocol WsBridge
open BridgeCorrelation
open NngTransport (Cause)
open WebSocketTransport (Client InRange allocId Keeps Resolves)

/-- The id that a message to the bridge is under. -/
def requestId : Message → Option ℕ
  | .text _ => none
  | .binary bytes =>
    match decodeWsFrame bytes with
    | .error _ => none
    | .ok (id, _) => some id

/-- The id that an answer is under. -/
def answerId : Message → Option ℕ
  | .text (.ok (.error id _ _)) => id
  | .text _ => none
  | .binary bytes =>
    match decodeWsFrame bytes with
    | .error _ => none
    | .ok (id, _) => some id

/-- What is on its way for the client of socket `k`, to the bridge, in it or back: the ids, with
the numbers of the requests. -/
def outstanding (b : Bridge) (k : ℕ) : List (ℕ × ℕ) :=
  ((b.toServer.filter (·.ws = k)).filterMap fun f =>
    (requestId f.message).map fun id => (id, f.number)) ++
  (b.calls.filter (·.ws = k)).map (fun c => (c.id, c.number)) ++
  (b.toClient.filter (·.ws = k)).filterMap fun a =>
    a.about.bind fun n => (answerId a.message).map fun id => (id, n)

/-- A request that goes out is given an id that nothing is on its way under. -/
def fresh (b : Bridge) : Action → Bool
  | .send k _ _ none => unused k
  | .resume k _ none => unused k
  | _ => true
where
  unused (k : ℕ) : Bool :=
    match b.transports k with
    | none => true
    | some c =>
      c.state ≠ .opened ||
        (allocId c.pending c.nextId).all fun r => r.1 ∉ (outstanding b k).map Prod.fst

/-- What is on its way under the id of a call is about the call, and the calls that resolved
did with the replies to their requests. -/
structure Own (b : Bridge) : Prop where
  pending : ∀ k c, b.transports k = some c → ∀ id p, c.pending.get? id = some p →
    ∀ n, (id, n) ∈ outstanding b k → n = p.number
  resolved : ∀ k c, b.transports k = some c → ∀ n r, .resolved n r ∈ c.log →
    .answered n (.ok r) ∈ b.log ∧ ∃ m, .sent k n m ∈ b.log

variable {b b' : Bridge} {c : Client} {k n id : ℕ}

lemma mem_outstanding : (id, n) ∈ outstanding b k ↔
    (∃ f ∈ b.toServer, f.ws = k ∧ requestId f.message = some id ∧ f.number = n) ∨
    (∃ c ∈ b.calls, c.ws = k ∧ c.id = id ∧ c.number = n) ∨
    ∃ a ∈ b.toClient, a.ws = k ∧ a.about = some n ∧ answerId a.message = some id := by
  simp only [outstanding, List.mem_append, List.mem_filterMap, List.mem_map, List.mem_filter,
    decide_eq_true_eq, Option.map_eq_some_iff, Option.bind_eq_some_iff, Prod.mk.injEq]
  constructor
  · rintro ((⟨f, ⟨hf, hk⟩, _, hid, rfl, rfl⟩ | ⟨c, ⟨hc, hk⟩, rfl, rfl⟩) |
      ⟨a, ⟨ha, hk⟩, _, habout, _, hid, rfl, rfl⟩)
    · exact Or.inl ⟨f, hf, hk, hid, rfl⟩
    · exact Or.inr (Or.inl ⟨c, hc, hk, rfl, rfl⟩)
    · exact Or.inr (Or.inr ⟨a, ha, hk, habout, hid⟩)
  · rintro (⟨f, hf, hk, hid, rfl⟩ | ⟨c, hc, hk, rfl, rfl⟩ | ⟨a, ha, hk, habout, hid⟩)
    · exact Or.inl (Or.inl ⟨f, ⟨hf, hk⟩, id, hid, rfl, rfl⟩)
    · exact Or.inl (Or.inr ⟨c, ⟨hc, hk⟩, rfl, rfl⟩)
    · exact Or.inr ⟨a, ⟨ha, hk⟩, n, habout, id, hid, rfl, rfl⟩

lemma own_new (sessionId : String) : Own (new sessionId) :=
  ⟨fun _ _ h => (by cases h), fun _ _ h => (by cases h)⟩

/-- A client has no new calls pending and none that resolved. -/
structure Loses (c c' : Client) : Prop where
  pending : ∀ id p, c'.pending.get? id = some p → c.pending.get? id = some p
  resolved : ∀ n r, .resolved n r ∈ c'.log → .resolved n r ∈ c.log

lemma loses_of_eq {c' : Client} (hpending : c'.pending = c.pending) (hlog : c'.log = c.log) :
    Loses c c' :=
  ⟨fun _ _ h => hpending ▸ h, fun _ _ h => hlog ▸ h⟩

lemma loses_of_keeps {c' : Client} (h : Keeps c c' fun _ _ => False) : Loses c c' :=
  ⟨h.pending, fun n r hr => (h.resolved n r hr).resolve_right id⟩

lemma Own.of_loses (h : Own b)
    (hway : ∀ k c, b'.transports k = some c → ∀ id n, (id, n) ∈ outstanding b' k →
      (id, n) ∈ outstanding b k)
    (hclients : ∀ k c', b'.transports k = some c' →
      (∃ c, b.transports k = some c ∧ Loses c c') ∨
        (c'.pending = .empty ∧ c'.log = []))
    (hlog : b.log ⊆ b'.log) : Own b' where
  pending := fun k c' hc' id p hp n hn => by
    rcases hclients k c' hc' with ⟨c, hc, hloses⟩ | ⟨hempty, _⟩
    · exact h.pending k c hc id p (hloses.pending id p hp) n (hway k c' hc' id n hn)
    · rw [hempty] at hp
      simp at hp
  resolved := fun k c' hc' n r hr => by
    rcases hclients k c' hc' with ⟨c, hc, hloses⟩ | ⟨_, hnil⟩
    · obtain ⟨ha, m, hm⟩ := h.resolved k c hc n r (hloses.resolved n r hr)
      exact ⟨hlog ha, m, hlog hm⟩
    · rw [hnil] at hr
      cases hr

lemma Own.of_eq (h : Own b)
    (hway : ∀ k c, b.transports k = some c → ∀ id n, (id, n) ∈ outstanding b' k →
      (id, n) ∈ outstanding b k)
    (htransports : b'.transports = b.transports) (hlog : b.log ⊆ b'.log) : Own b' := by
  refine h.of_loses (fun k c hc => hway k c (htransports ▸ hc)) (fun k c hc => Or.inl ⟨c, ?_, ?_⟩)
    hlog
  · rw [← htransports, hc]
  · exact loses_of_eq rfl rfl

lemma Own.shrink (h : Own b) (hserver : b'.toServer ⊆ b.toServer) (hcalls : b'.calls ⊆ b.calls)
    (hclient : b'.toClient ⊆ b.toClient) (htransports : b'.transports = b.transports)
    (hlog : b.log ⊆ b'.log) : Own b' := by
  refine h.of_eq (fun k c _ id n hn => ?_) htransports hlog
  rw [mem_outstanding] at hn ⊢
  exact hn.imp (fun ⟨f, hf, hrest⟩ => ⟨f, hserver hf, hrest⟩)
    (Or.imp (fun ⟨c, hc, hrest⟩ => ⟨c, hcalls hc, hrest⟩)
      fun ⟨a, ha, hrest⟩ => ⟨a, hclient ha, hrest⟩)

/-- An answer goes on its way, as other things are taken off: it is about a request that was. -/
lemma Own.write {b₁ : Bridge} (h : Own b) {m : Message} {about : Option ℕ}
    (hserver : b₁.toServer ⊆ b.toServer) (hcalls : b₁.calls ⊆ b.calls)
    (hclient : b₁.toClient ⊆ b.toClient) (htransports : b₁.transports = b.transports)
    (hlog : b.log ⊆ b₁.log)
    (hm : ∀ id n, about = some n → answerId m = some id → (id, n) ∈ outstanding b k) :
    Own (write b₁ k m about) := by
  have hrest := h.shrink hserver hcalls hclient htransports hlog
  unfold WsBridge.write
  split_ifs
  · refine h.of_eq (fun k' c hc id n hn => ?_) htransports
      (List.Subset.trans hlog (List.subset_append_left ..))
    rw [mem_outstanding] at hn
    rcases hn with ⟨f, hf, hn⟩ | ⟨c, hc, hn⟩ | ⟨a, ha, hk, habout, hid⟩
    · exact mem_outstanding.mpr (Or.inl ⟨f, hserver hf, hn⟩)
    · exact mem_outstanding.mpr (Or.inr (Or.inl ⟨c, hcalls hc, hn⟩))
    · rcases List.mem_append.mp ha with ha | ha
      · exact mem_outstanding.mpr (Or.inr (Or.inr ⟨a, hclient ha, hk, habout, hid⟩))
      · obtain rfl := List.mem_singleton.mp ha
        cases hk
        exact hm id n habout hid
  · exact hrest

lemma Own.write_none (h : Own b) (m : Message) : Own (WsBridge.write b k m none) :=
  h.write (List.Subset.refl _) (List.Subset.refl _) (List.Subset.refl _) rfl
    (List.Subset.refl _) fun _ _ hn => by cases hn

lemma Own.toAll (h : Own b) (m : Message) : Own (toAll b m) := by
  have hfold : ∀ (ks : List ℕ) (b : Bridge), Own b →
      Own (ks.foldl (fun b k => WsBridge.write b k m none) b) := by
    intro ks
    induction ks with
    | nil => exact fun _ h => h
    | cons k ks ih => exact fun b h => ih _ (h.write_none m)
  exact hfold _ b h

lemma Own.tellState (h : Own b) : Own (tellState b) := (h.toAll _).toAll _

lemma own_connect (h : Own b) (k : ℕ) (client : Option (String × Option ℕ)) :
    Own { b with
      transports := Function.update b.transports k (client.map fun c => Client.new c.1 c.2) } := by
  have hget : ∀ k' c,
      Function.update b.transports k (client.map fun c => Client.new c.1 c.2) k' = some c →
      b.transports k' = some c ∨ (c.pending = .empty ∧ c.log = []) := by
    intro k' c hc
    rw [Function.update_apply] at hc
    split_ifs at hc
    · obtain ⟨d, _, rfl⟩ := Option.map_eq_some_iff.mp hc
      exact Or.inr ⟨rfl, rfl⟩
    · exact Or.inl hc
  constructor
  · intro k' c hc id p hp
    rcases hget k' c hc with hc | ⟨hempty, _⟩
    · exact h.pending k' c hc id p hp
    · rw [hempty] at hp
      simp at hp
  · intro k' c hc n r hr
    rcases hget k' c hc with hc | ⟨_, hnil⟩
    · exact h.resolved k' c hc n r hr
    · rw [hnil] at hr
      cases hr

lemma own_onOpen (h : Own b) : Own (onOpen b k) := by
  have hclients : Own { b with clients := b.clients ++ [k] } :=
    h.shrink (List.Subset.refl _) (List.Subset.refl _) (List.Subset.refl _) rfl
      (List.Subset.refl _)
  exact hclients.write_none _

/-- The bridge takes a message: a request is in the bridge now, or its refusal is on its way. -/
lemma own_arrive {f : Frame} (h : Own b) (hf : b.toServer.find? (·.ws = k) = some f) :
    Own (onMessage { b with toServer := b.toServer.eraseP (·.ws = k) } f) := by
  have hmem := List.mem_of_find?_eq_some hf
  have hrest : Own { b with toServer := b.toServer.eraseP (·.ws = k) } :=
    h.shrink List.eraseP_subset (List.Subset.refl _) (List.Subset.refl _) rfl (List.Subset.refl _)
  unfold onMessage
  split
  case h_1 => exact hrest.write_none _
  case h_2 => exact hrest.write_none _
  case h_3 => exact hrest
  case h_4 bytes hm =>
    split
    case h_1 => exact hrest.write_none _
    case h_2 id payload hdecode =>
      have hway : (id, f.number) ∈ outstanding b f.ws :=
        mem_outstanding.mpr (Or.inl ⟨f, hmem, rfl, by rw [hm, requestId, hdecode], rfl⟩)
      split_ifs
      · refine h.write List.eraseP_subset (List.Subset.refl _) (List.Subset.refl _) rfl
          (List.Subset.refl _) fun id' n hn hid => ?_
        cases hn
        cases hid
        exact hway
      · refine h.of_eq (fun k' c hc id' n hn => ?_) rfl (List.Subset.refl _)
        rw [mem_outstanding] at hn
        rcases hn with ⟨g, hg, hn⟩ | ⟨call, hcall, hk, hid, hn⟩ | hn
        · exact mem_outstanding.mpr (Or.inl ⟨g, List.eraseP_subset hg, hn⟩)
        · rcases List.mem_append.mp hcall with hcall | hcall
          · exact mem_outstanding.mpr (Or.inr (Or.inl ⟨call, hcall, hk, hid, hn⟩))
          · obtain rfl := List.mem_singleton.mp hcall
            cases hk
            cases hid
            cases hn
            exact hway
        · exact mem_outstanding.mpr (Or.inr (Or.inr hn))

lemma own_settled {call : Call} {result : Except Cause Bytes} (hs : Sound b) (h : Own b)
    (hcall : b.calls.find? (·.number = n) = some call) : Own (onSettled b call result) := by
  have hmem := List.mem_of_find?_eq_some hcall
  obtain ⟨bytes, _, hdecode⟩ := hs.calls call hmem
  have hid : answerId (answerFrame call.id result) = some call.id := by
    cases result with
    | ok reply =>
      simp [answerFrame, answerId,
        decodeWsFrame_encodeWsFrame (lt_of_decodeWsFrame hdecode) reply]
    | error e => rfl
  unfold onSettled
  simp only
  split_ifs
  · refine h.write (List.Subset.refl _) List.eraseP_subset (List.Subset.refl _) rfl
      (List.subset_append_left ..) fun id n hn hid' => ?_
    cases hn
    rw [hid] at hid'
    cases hid'
    exact mem_outstanding.mpr (Or.inr (Or.inl ⟨call, hmem, rfl, rfl, rfl⟩))
  · refine h.shrink (List.Subset.refl _) List.eraseP_subset (List.Subset.refl _) rfl ?_
    simp only [List.append_assoc]
    exact List.subset_append_left ..

lemma outstanding_post {m : Message} {k' n' : ℕ} (hn : (id, n) ∈ outstanding (post b k n' m) k') :
    (id, n) ∈ outstanding b k' ∨ k' = k ∧ n = n' ∧ requestId m = some id := by
  rw [mem_outstanding] at hn
  rcases hn with ⟨f, hf, hk, hid, hn⟩ | hn
  · rcases List.mem_append.mp hf with hf | hf
    · exact Or.inl (mem_outstanding.mpr (Or.inl ⟨f, hf, hk, hid, hn⟩))
    · obtain rfl := List.mem_singleton.mp hf
      exact Or.inr ⟨hk.symm, hn.symm, hid⟩
  · exact Or.inl (mem_outstanding.mpr (Or.inr hn))

lemma own_postNew {m : Message} (h : Own b)
    (hm : b.transports k = none ∨ requestId m = none) : Own (postNew b k m) := by
  have hcount : Own { b with messages := b.messages + 1 } :=
    h.shrink (List.Subset.refl _) (List.Subset.refl _) (List.Subset.refl _) rfl
      (List.Subset.refl _)
  refine hcount.of_eq (fun k' c hc id n hn => ?_) rfl (List.subset_append_left ..)
  refine (outstanding_post hn).resolve_right ?_
  rintro ⟨rfl, _, hid⟩
  rcases hm with hm | hm
  · rw [show b.transports k' = some c from hc] at hm
    cases hm
  · rw [hm] at hid
    cases hid

lemma own_setClient {c' : Client} (h : Own b) (hc : b.transports k = some c)
    (hloses : Loses c c') : Own (setClient b k c') := by
  refine h.of_loses (fun _ _ _ _ _ hn => hn) (fun k' d hd => ?_) (List.Subset.refl _)
  rw [transports_setClient] at hd
  split_ifs at hd with hk
  · cases hd
    exact Or.inl ⟨c, hk ▸ hc, hloses⟩
  · exact Or.inl ⟨d, hd, loses_of_eq rfl rfl⟩

/-- **A call that a message resolves is the one that the message is about.** -/
lemma resolves_own {a : Answer} {reply : Bytes} (hs : Sound b) (h : Own b) (ha : a ∈ b.toClient)
    (hc : b.transports a.ws = some c) (hr : Resolves c a.message n reply) :
    .answered n (.ok reply) ∈ b.log ∧ ∃ m, .sent a.ws n m ∈ b.log := by
  obtain ⟨bytes, id, p, hm, hdecode, hevent, hp, rfl⟩ := hr
  have hwritten := hs.answers a ha
  rw [hm] at hwritten
  cases habout : a.about with
  | none =>
    rw [habout] at hwritten
    rcases hs.others _ _ hwritten with ⟨event, he⟩ | ⟨m, he, _⟩
    · cases he
      have hreserved := decodeWsFrame_encodeWsFrame (by decide : WS_EVENT_FRAME_ID < 2 ^ 32) event
      rw [encodeEventFrame, hreserved] at hdecode
      cases hdecode
      cases hevent
    · cases he
  | some n =>
    rw [habout] at hwritten
    obtain ⟨id', reply', hdecode', _, hanswered⟩ := hs.reserved hwritten
    rw [hdecode] at hdecode'
    cases hdecode'
    have hway : (id, n) ∈ outstanding b a.ws :=
      mem_outstanding.mpr (Or.inr (Or.inr ⟨a, ha, rfl, habout, by rw [hm, answerId, hdecode]⟩))
    have hn := h.pending a.ws c hc id p hp n hway
    obtain ⟨_, _, _, hsent, _⟩ := hs.to_sender _ _ _ hwritten
    exact hn ▸ ⟨hanswered, _, hsent⟩

lemma own_deliver {a : Answer} (hs : Sound b) (h : Own b)
    (ha : b.toClient.find? (·.ws = k) = some a) :
    Own (deliver { b with toClient := b.toClient.eraseP (·.ws = k) } a) := by
  have hmem := List.mem_of_find?_eq_some ha
  have hrest : Own { b with toClient := b.toClient.eraseP (·.ws = k) } :=
    h.shrink (List.Subset.refl _) (List.Subset.refl _) List.eraseP_subset rfl (List.Subset.refl _)
  unfold deliver
  split
  · exact hrest
  case h_2 c hc =>
    have hkeeps := WebSocketTransport.onMessage_keeps c a.message
    have hset : Own (setClient { b with toClient := b.toClient.eraseP (·.ws = k) } a.ws
        (WebSocketTransport.onMessage c a.message).1) := by
      constructor
      · intro k' d hd id p hp n hn
        rw [transports_setClient] at hd
        split_ifs at hd with hk
        · cases hd
          cases hk
          exact hrest.pending a.ws c hc id p (hkeeps.pending id p hp) n hn
        · exact hrest.pending k' d hd id p hp n hn
      · intro k' d hd n r hr
        rw [transports_setClient] at hd
        split_ifs at hd with hk
        · cases hd
          cases hk
          rcases hkeeps.resolved n r hr with hr | hr
          · exact hrest.resolved a.ws c hc n r hr
          · have hown := resolves_own hs h hmem hc hr
            exact hown
        · exact hrest.resolved k' d hd n r hr
    simp only
    split
    · exact hset
    · exact own_postNew hset (Or.inr rfl)

lemma requestId_encode (hid : InRange id) (request : Bytes) :
    requestId (.binary (encodeWsFrame id request)) = some id := by
  rw [requestId, decodeWsFrame_encodeWsFrame hid.lt]

/-- A call transmits a request under an id that nothing is on its way under. -/
lemma own_transmit {c₀ : Client} {w : WebSocketTransport.Waiting} {failure : Option String}
    {r : Client × Option Bytes} (h : Own b) (hc : b.transports k = some c)
    (hrange : InRange c.nextId)
    (ht : WebSocketTransport.transmit c₀ w failure = some r) (hw : w.number = n)
    (hpending : c₀.pending = c.pending) (hnext : c₀.nextId = c.nextId) (hlog : c₀.log = c.log)
    (hfresh : failure = none →
      (allocId c.pending c.nextId).all fun r => r.1 ∉ (outstanding b k).map Prod.fst) :
    Own (afterSend b k n r) := by
  obtain ⟨c', out⟩ := r
  rcases WebSocketTransport.transmit_cases (R := fun _ _ => False) (hnext ▸ hrange) ht with
    ⟨rfl, hkeeps⟩ | ⟨id, p, hsent, rfl, halloc, _, hid, _, _, hp, hset, hlog'⟩
  · refine own_setClient h hc ⟨fun id p hp => ?_, fun n r hr => ?_⟩
    · rw [← hpending]
      exact hkeeps.pending id p hp
    · rw [← hlog]
      exact (hkeeps.resolved n r hr).resolve_right id
  · have hunused : id ∉ (outstanding b k).map Prod.fst := by
      obtain ⟨⟨id', next⟩, hr, hr'⟩ := Option.map_eq_some_iff.mp halloc
      cases hr'
      have hall := hfresh hsent
      rw [← hpending, ← hnext, hr] at hall
      simpa using hall
    constructor
    · intro k' d hd id' q hq n' hn'
      simp only [afterSend, post, transports_setClient] at hd
      rcases outstanding_post hn' with hway | ⟨rfl, rfl, hid'⟩
      · split_ifs at hd with hk
        · cases hd
          cases hk
          rw [hset, OMap.get?_set, hpending] at hq
          split_ifs at hq with hsame
          · exact absurd (List.mem_map.mpr ⟨_, hway, rfl⟩) (hsame ▸ hunused)
          · exact h.pending _ c hc id' q hq n' hway
        · exact h.pending k' d hd id' q hq n' hway
      · rw [if_pos rfl] at hd
        cases hd
        rw [requestId_encode hid] at hid'
        cases hid'
        rw [hset, OMap.get?_set, if_pos rfl] at hq
        cases hq
        rw [hp, hw]
    · intro k' d hd n' r hr
      simp only [afterSend, post, transports_setClient] at hd
      have hold : ∀ {d}, b.transports k' = some d → .resolved n' r ∈ d.log →
          .answered n' (.ok r) ∈ (afterSend b k n (c', some (encodeWsFrame id w.request))).log ∧
          ∃ m, .sent k' n' m ∈ (afterSend b k n (c', some (encodeWsFrame id w.request))).log := by
        intro d hd hr
        obtain ⟨ha, m, hm⟩ := h.resolved k' d hd n' r hr
        exact ⟨List.mem_append_left _ ha, m, List.mem_append_left _ hm⟩
      split_ifs at hd with hk
      · cases hd
        exact hold (hk ▸ hc) (hlog ▸ hlog' ▸ hr)
      · exact hold hd hr

lemma own_send {request : Bytes} {timeoutMs : Option (Option ℕ)} {failure : Option String}
    {r : Client × Option Bytes} (hs : Sound b) (h : Own b) (hc : b.transports k = some c)
    (hr : WebSocketTransport.send c b.messages request timeoutMs failure = some r)
    (hok : fresh b (.send k request timeoutMs failure)) :
    Own (afterSend { b with messages := b.messages + 1 } k b.messages r) := by
  have hcount : Own { b with messages := b.messages + 1 } :=
    h.shrink (List.Subset.refl _) (List.Subset.refl _) (List.Subset.refl _) rfl
      (List.Subset.refl _)
  unfold WebSocketTransport.send at hr
  split at hr
  case h_1 => cases hr; exact own_setClient hcount hc (loses_of_eq rfl rfl)
  case h_2 hopened =>
    refine own_transmit hcount hc (hs.range k c hc) hr rfl rfl rfl rfl fun hnone => ?_
    subst hnone
    have hfree : (allocId c.pending c.nextId).all
        fun r => r.1 ∉ (outstanding b k).map Prod.fst := by
      simpa only [fresh, fresh.unused, hc, hopened, ne_eq, not_true_eq_false, decide_false,
        Bool.false_or] using hok
    exact hfree
  case h_3 =>
    cases hr
    exact own_setClient hcount hc ⟨fun _ _ hp => hp, fun n r hr => by
      simpa [Client.record] using hr⟩

lemma own_resume {failure : Option String} {r : Client × Option Bytes} (hs : Sound b) (h : Own b)
    (hc : b.transports k = some c) (hr : WebSocketTransport.resume c n failure = some r)
    (hok : fresh b (.resume k n failure)) : Own (afterSend b k n r) := by
  unfold WebSocketTransport.resume at hr
  split at hr
  · cases hr
  case h_2 w hw =>
    have hn : w.number = n := by simpa using List.find?_some hw
    split at hr
    case h_1 => cases hr
    case h_2 hopened =>
      refine own_transmit h hc (hs.range k c hc) hr hn rfl rfl rfl fun hnone => ?_
      subst hnone
      simpa only [fresh, fresh.unused, hc, hopened, ne_eq, not_true_eq_false, decide_false,
        Bool.false_or] using hok
    case h_3 =>
      cases hr
      exact own_setClient h hc ⟨fun _ _ hp => hp, fun n r hr => by
        simpa [Client.record] using hr⟩

/-- **A step keeps what is on its way apart**, if no id is given out that something is on its
way under. -/
theorem own_step {a : Action} (hs : Sound b) (h : Own b) (hok : fresh b a)
    (hstep : step b a = some b') : Own b' := by
  have hclient : ∀ {k : ℕ} {f : Client → Client}, (∀ c, Keeps c (f c) fun _ _ => False) →
      (b.transports k).map (fun c => setClient b k (f c)) = some b' → Own b' := by
    intro k f hf hmap
    obtain ⟨c, hc, rfl⟩ := Option.map_eq_some_iff.mp hmap
    exact own_setClient h hc (loses_of_keeps (hf c))
  have hshrink : ∀ {b₁ : Bridge}, b₁.log = b.log → b₁.toServer = b.toServer →
      b₁.calls = b.calls → b₁.toClient = b.toClient → b₁.transports = b.transports → Own b₁ := by
    intro b₁ hlog hserver hcalls hclient htransports
    exact h.shrink (hserver ▸ List.Subset.refl _) (hcalls ▸ List.Subset.refl _)
      (hclient ▸ List.Subset.refl _) htransports (hlog ▸ List.Subset.refl _)
  cases a with
  | connect client =>
    cases hstep
    exact own_onOpen (Own.shrink (own_connect h b.sockets client) (List.Subset.refl _)
      (List.Subset.refl _) (List.Subset.refl _) rfl (List.Subset.refl _))
  | disconnect k => cases hstep; exact hshrink rfl rfl rfl rfl rfl
  | arrive k =>
    simp only [step] at hstep
    split at hstep
    · cases hstep
    case h_2 f hf =>
      split_ifs at hstep
      cases hstep
      exact own_arrive h hf
  | settle n result =>
    simp only [step] at hstep
    split at hstep
    · cases hstep
    case h_2 call hcall =>
      cases hstep
      exact own_settled hs h hcall
  | event bytes => cases hstep; exact h.toAll _
  | session state error kicadToken transportOpen eventsState tell =>
    simp only [step, Option.some.injEq] at hstep
    subst hstep
    split_ifs
    · exact Own.tellState (hshrink rfl rfl rfl rfl rfl)
    · exact hshrink rfl rfl rfl rfl rfl
  | post k m =>
    simp only [step] at hstep
    split_ifs at hstep with hpost
    cases hstep
    exact own_postNew h (Or.inl (Option.isNone_iff_eq_none.mp hpost.2.1))
  | deliver k =>
    simp only [step] at hstep
    split at hstep
    · cases hstep
    case h_2 a ha =>
      cases hstep
      exact own_deliver hs h ha
  | socketOpen k =>
    exact hclient (f := fun c => { c with socketOpen := true })
      (fun c => WebSocketTransport.keeps_of_eq rfl rfl rfl rfl) hstep
  | send k request timeoutMs failure =>
    obtain ⟨c, hc, hmap⟩ := Option.bind_eq_some_iff.mp hstep
    obtain ⟨r, hr, rfl⟩ := Option.map_eq_some_iff.mp hmap
    exact own_send hs h hc hr hok
  | resume k n failure =>
    obtain ⟨c, hc, hmap⟩ := Option.bind_eq_some_iff.mp hstep
    obtain ⟨r, hr, rfl⟩ := Option.map_eq_some_iff.mp hmap
    exact own_resume hs h hc hr hok
  | timeout k n =>
    obtain ⟨c, hc, hmap⟩ := Option.bind_eq_some_iff.mp hstep
    obtain ⟨c', hc', rfl⟩ := Option.map_eq_some_iff.mp hmap
    exact own_setClient h hc (loses_of_keeps (WebSocketTransport.onTimeout_keeps hc'))
  | keepalive k t =>
    obtain ⟨c, hc, hif⟩ := Option.bind_eq_some_iff.mp hstep
    split_ifs at hif
    cases hif
    exact own_postNew h (Or.inr rfl)
  | close k => exact hclient WebSocketTransport.close_keeps hstep
  | connectTimeout k ms =>
    exact hclient (fun c => WebSocketTransport.onConnectTimeout_keeps c ms) hstep
  | socketError k message =>
    exact hclient (f := fun c => WebSocketTransport.onError c message)
      (fun c => WebSocketTransport.keeps_of_eq rfl rfl rfl rfl) hstep
  | socketClosed k code reason =>
    exact hclient (fun c => WebSocketTransport.onClose_keeps c code reason) hstep

/-! ### Runs -/

/-- **What the calls of clients may rely on**: an id is neither pending nor reserved as it is
given out, and a call resolves with the reply to its own request. -/
structure ClientLaw (b : Bridge) : Prop where
  ids : ∀ k c, b.transports k = some c → ∀ id next, allocId c.pending c.nextId = some (id, next) →
    id ≠ WS_EVENT_FRAME_ID ∧ c.pending.has id = false
  own_reply : ∀ k c, b.transports k = some c → ∀ n r, .resolved n r ∈ c.log →
    .answered n (.ok r) ∈ b.log ∧ ∃ m, .sent k n m ∈ b.log

/-- **Correlation from end to end**: what the bridge promises holds of every run, and a
`WebSocketTransport` matches replies rightly in every run where it gives out no id that
something is still on its way under. -/
theorem bridge_correlation {sessionId : String} {as : List Action}
    (hok : Along step (fun b a => fresh b a) (new sessionId) as)
    (hrun : run step (new sessionId) as = some b) : Law b.log ∧ ClientLaw b := by
  have hinv : Sound b ∧ Own b :=
    invariant_along (fun b => Sound b ∧ Own b)
      (fun _ _ _ hs hok h => ⟨sound_step hs.1 h, own_step hs.1 hs.2 hok h⟩)
      ⟨sound_new sessionId, own_new sessionId⟩ hok hrun
  refine ⟨hinv.1.law, fun k c hc id next halloc => ?_, hinv.2.resolved⟩
  obtain ⟨hhas, hid, _⟩ := WebSocketTransport.allocId_spec (hinv.1.range k c hc) halloc
  exact ⟨hid.ne_reserved, hhas⟩

/-- A `WebSocketTransport` and another client ask under the same id; the answers come in the
other order, the second call times out. -/
def colliding : List Action :=
  [.connect (some ("ws://bridge", some 60000)), .connect none, .socketOpen 0, .deliver 0,
    .session .running none none true .connected true, .deliver 0, .deliver 0,
    .send 0 [7] none none, .post 1 (.binary (encodeWsFrame 1 [8])), .arrive 1, .arrive 0,
    .event [5], .settle 1 (.ok [80]), .settle 0 (.ok [70]), .deliver 0, .deliver 0,
    .send 0 [9] none none, .timeout 0 2]

/-- The correlation on a run with colliding ids. -/
theorem bridge_correlation_colliding : ∃ b, run step (new "s") colliding = some b ∧
    (Law b.log ∧ ClientLaw b) := by
  have hrun : (run step (new "s") colliding).isSome = true := by decide +kernel
  obtain ⟨b, hb⟩ := Option.isSome_iff_exists.mp hrun
  exact ⟨b, hb, bridge_correlation (by decide +kernel) hb⟩

/-! ### The counter comes round -/

/-- After `i` calls that timed out, the first of them still to reach the bridge. -/
structure Round (i : ℕ) (b : Bridge) : Prop where
  client : ∃ c, b.transports 0 = some c ∧ c.state = .opened ∧ c.pending = .empty ∧
    c.nextId = i % WS_MAX_REQUEST_ID + 1
  first : 0 < i → ∃ rest, b.toServer = ⟨0, 0, .binary (encodeWsFrame 1 [7])⟩ :: rest
  idle : (i = 0 → b.toServer = []) ∧ b.calls = [] ∧ b.toClient = []
  running : b.live 0 = true ∧ b.state = .running ∧ b.transportOpen = true
  messages : b.messages = i
  unanswered : ∀ n result, .answered n result ∉ b.log

/-- A call that times out. -/
def lostCall (i : ℕ) : List Action := [.send 0 [7] (some (some 1000)) none, .timeout 0 i]

lemma succId_mod (i : ℕ) : WebSocketTransport.succId (i % WS_MAX_REQUEST_ID + 1) =
    (i + 1) % WS_MAX_REQUEST_ID + 1 := by
  unfold WebSocketTransport.succId WS_MAX_REQUEST_ID WS_EVENT_FRAME_ID
  split_ifs <;> omega

lemma delete_set_empty {κ ν : Type*} [DecidableEq κ] (key : κ) (v : ν) :
    (OMap.empty.set key v).delete key = .empty :=
  OMap.ext (by simp [OMap.delete, OMap.empty, OMap.set, OMap.setEntries])

/-- The transport once a call is pending, and nothing else. -/
def calling (c : Client) (i : ℕ) : Client :=
  { c with nextId := WebSocketTransport.succId c.nextId,
           pending := OMap.empty.set c.nextId ⟨i, some 1000, true⟩ }

lemma send_calling {c : Client} {i : ℕ} (hopened : c.state = .opened)
    (hpending : c.pending = .empty) (request : Bytes) : WebSocketTransport.send c i request (some (some 1000)) none =
      some (calling c i, some (encodeWsFrame c.nextId request)) := by
  have halloc : allocId .empty c.nextId = some (c.nextId, WebSocketTransport.succId c.nextId) :=
    WebSocketTransport.allocId_of_not_has rfl
  simp only [WebSocketTransport.send, hopened, WebSocketTransport.transmit, hpending, halloc,
    calling]
  rfl

def lostError (c : Client) : NngTransport.TransportError :=
  ⟨.timeout, "request " ++ toString c.nextId ++ " timed out after " ++
    NngTransport.showMs (some 1000) ++ " ms"⟩

lemma onTimeout_calling (c : Client) (i : ℕ) :
    WebSocketTransport.onTimeout (calling c i) i =
      some ({ calling c i with pending := .empty }.record [.rejected i (lostError c)]) := by
  have hfind : (calling c i).pending.entries.find? (fun e => e.2.number = i && e.2.timer) =
      some (c.nextId, ⟨i, some 1000, true⟩) := by
    simp [calling, OMap.set, OMap.setEntries, OMap.empty]
  have hdelete : (calling c i).pending.delete c.nextId = .empty := delete_set_empty _ _
  simp [WebSocketTransport.onTimeout, hfind, hdelete, lostError]

lemma round_lostCall {i : ℕ} (h : Round i b) :
    ∃ b', run step b (lostCall i) = some b' ∧ Round (i + 1) b' := by
  obtain ⟨c, hc, hopened, hpending, hnext⟩ := h.client
  obtain ⟨hidle, hcalls, hclient⟩ := h.idle
  have hsend : step b (.send 0 [7] (some (some 1000)) none) =
      some (post (setClient { b with messages := i + 1 } 0 (calling c i)) 0 i
        (.binary (encodeWsFrame c.nextId [7]))) := by
    simp [step, hc, Option.bind_some, h.messages, send_calling hopened hpending,
      Option.map_some, afterSend]
  have hlost : step (post (setClient { b with messages := i + 1 } 0 (calling c i)) 0 i
        (.binary (encodeWsFrame c.nextId [7]))) (.timeout 0 i) =
      some (setClient (post (setClient { b with messages := i + 1 } 0 (calling c i)) 0 i
        (.binary (encodeWsFrame c.nextId [7]))) 0
        ({ calling c i with pending := .empty }.record [.rejected i (lostError c)])) := by
    simp [step, post, transports_setClient, Option.bind_some,
      onTimeout_calling, Option.map_some]
  refine ⟨_, run_cons_eq_some.mpr ⟨_, hsend, run_cons_eq_some.mpr ⟨_, hlost, rfl⟩⟩, ?_⟩
  constructor
  case client =>
    refine ⟨_, transports_self _ 0 _, hopened, rfl, ?_⟩
    exact (congrArg _ hnext).trans (succId_mod i)
  case first =>
    intro _
    by_cases hi : i = 0
    · subst hi
      simp [post, setClient, hidle rfl, hnext]
    · obtain ⟨rest, hrest⟩ := h.first (Nat.pos_of_ne_zero hi)
      exact ⟨_, (congrArg (· ++ _) hrest).trans (List.cons_append ..)⟩
  case idle => exact ⟨fun h0 => absurd h0 (Nat.succ_ne_zero i), hcalls, hclient⟩
  case running => exact h.running
  case messages => rfl
  case unanswered =>
    intro n result hmem
    refine h.unanswered n result ?_
    simpa [post, setClient] using hmem

lemma rounds (i : ℕ) : ∃ as b, run step (new "s") as = some b ∧ Round i b := by
  induction i with
  | zero =>
    refine ⟨[.connect (some ("ws://bridge", none)), .socketOpen 0, .deliver 0,
      .session .running none none true .connected false], _, rfl, ?_⟩
    constructor
    case client => exact ⟨_, rfl, rfl, rfl, rfl⟩
    case first => exact fun h => absurd h (Nat.lt_irrefl 0)
    case idle => exact ⟨fun _ => rfl, rfl, rfl⟩
    case running => exact ⟨rfl, rfl, rfl⟩
    case messages => rfl
    case unanswered => exact fun n result h => by cases h with | tail _ h => cases h
  | succ i ih =>
    obtain ⟨as, b, hrun, h⟩ := ih
    obtain ⟨b', hrun', h'⟩ := round_lostCall h
    exact ⟨as ++ lostCall i, b', run_append_eq_some.mpr ⟨b, hrun, hrun'⟩, h'⟩

lemma decode_one (payload : Bytes) : decodeWsFrame (encodeWsFrame 1 payload) = .ok (1, payload) :=
  decodeWsFrame_encodeWsFrame (by decide) payload

lemma arrive_first {rest : List Frame} (hlive : b.live 0 = true) (hstate : b.state = .running)
    (hopen : b.transportOpen = true)
    (hfirst : b.toServer = ⟨0, 0, .binary (encodeWsFrame 1 [7])⟩ :: rest) :
    step b (.arrive 0) =
      some { b with toServer := rest, calls := b.calls ++ [⟨0, 0, 1, [7]⟩] } := by
  simp [step, hfirst, hlive, onMessage, decode_one, hstate, hopen]

lemma settle_first (hlive : b.live 0 = true) (hcalls : b.calls = [⟨0, 0, 1, [7]⟩])
    (hclient : b.toClient = []) :
    ∃ about, step b (.settle 0 (.ok [42])) = some { b with
      calls := [], toClient := [⟨0, .binary (encodeWsFrame 1 [42]), about⟩],
      log := b.log ++ [.answered 0 (.ok [42])] ++
        [.written 0 (.binary (encodeWsFrame 1 [42])) about] } := by
  simp [step, hcalls, onSettled, hlive, write, hclient, answerFrame]

/-- The answer resolves what is pending under the id. -/
lemma deliver_first {about : Option ℕ} {i : ℕ} (hone : c.nextId = 1)
    (hc : b.transports 0 = some (calling c i))
    (hclient : b.toClient = [⟨0, .binary (encodeWsFrame 1 [42]), about⟩]) :
    ∃ b' c', step b (.deliver 0) = some b' ∧ b'.log = b.log ∧ b'.transports 0 = some c' ∧
      .resolved i [42] ∈ c'.log := by
  have hget : (calling c i).pending.get? 1 = some ⟨i, some 1000, true⟩ := by
    simp [calling, hone]
  have hmessage : WebSocketTransport.onMessage (calling c i) (.binary (encodeWsFrame 1 [42])) =
      ({ calling c i with pending := (calling c i).pending.delete 1 }.record
        [.resolved i [42]], none) := by
    have hreply : isEventFrame 1 = false := by decide
    simp only [WebSocketTransport.onMessage, decode_one, hreply, WebSocketTransport.onReply, hget]
    rfl
  have hdeliver : step b (.deliver 0) = some (setClient { b with toClient := [] } 0
      ({ calling c i with pending := (calling c i).pending.delete 1 }.record
        [.resolved i [42]])) := by
    simp [step, hclient, deliver, hc, hmessage]
  exact ⟨_, _, hdeliver, rfl, transports_self _ 0 _,
    List.mem_append_right _ (List.mem_singleton.mpr rfl)⟩

/-- A call goes out under the id of the first, which the bridge answers now. -/
lemma lateReply (h : Round WS_MAX_REQUEST_ID b) : ∃ as b' c, run step b as = some b' ∧
    b'.transports 0 = some c ∧ .resolved WS_MAX_REQUEST_ID [42] ∈ c.log ∧
    .answered WS_MAX_REQUEST_ID (.ok [42]) ∉ b'.log := by
  obtain ⟨c, hc, hopened, hpending, hnext⟩ := h.client
  obtain ⟨rest, hfirst⟩ := h.first (by decide)
  obtain ⟨_, hcalls, hclient⟩ := h.idle
  obtain ⟨hlive, hstate, hopen⟩ := h.running
  have hone : c.nextId = 1 := by rw [hnext, Nat.mod_self]
  have hsend : step b (.send 0 [9] (some (some 1000)) none) = some (post (setClient
      { b with messages := WS_MAX_REQUEST_ID + 1 } 0 (calling c WS_MAX_REQUEST_ID)) 0
      WS_MAX_REQUEST_ID (.binary (encodeWsFrame c.nextId [9]))) := by
    simp [step, hc, Option.bind_some, h.messages, send_calling hopened hpending,
      Option.map_some, afterSend]
  obtain ⟨b₁, hb₁⟩ : ∃ b₁, b₁ = post (setClient { b with messages := WS_MAX_REQUEST_ID + 1 } 0
      (calling c WS_MAX_REQUEST_ID)) 0 WS_MAX_REQUEST_ID (.binary (encodeWsFrame c.nextId [9])) :=
    ⟨_, rfl⟩
  rw [← hb₁] at hsend
  have hc₁ : b₁.transports 0 = some (calling c WS_MAX_REQUEST_ID) := by
    rw [hb₁]
    exact transports_self b 0 _
  have hfirst₁ : ∃ rest, b₁.toServer = ⟨0, 0, .binary (encodeWsFrame 1 [7])⟩ :: rest := by
    rw [hb₁]
    exact ⟨_, (congrArg (· ++ _) hfirst).trans (List.cons_append ..)⟩
  obtain ⟨rest₁, hfirst₁⟩ := hfirst₁
  have harrive := arrive_first (b := b₁) (hb₁ ▸ hlive) (hb₁ ▸ hstate) (hb₁ ▸ hopen) hfirst₁
  have hcalls₁ : b₁.calls = [] := hb₁ ▸ hcalls
  have hclient₁ : b₁.toClient = [] := hb₁ ▸ hclient
  rw [hcalls₁] at harrive
  obtain ⟨about, hsettle⟩ := settle_first
    (b := { b₁ with toServer := rest₁, calls := [⟨0, 0, 1, [7]⟩] }) (hb₁ ▸ hlive) rfl hclient₁
  obtain ⟨b₄, c₄, hdeliver, hlog, hc₄, hresolved⟩ := deliver_first (b := { b₁ with
    toServer := rest₁, calls := [], toClient := [⟨0, .binary (encodeWsFrame 1 [42]), about⟩],
    log := b₁.log ++ [.answered 0 (.ok [42])] ++
      [.written 0 (.binary (encodeWsFrame 1 [42])) about] }) hone hc₁ rfl
  refine ⟨[.send 0 [9] (some (some 1000)) none, .arrive 0, .settle 0 (.ok [42]), .deliver 0],
    b₄, c₄, run_cons_eq_some.mpr ⟨_, hsend, run_cons_eq_some.mpr ⟨_, harrive,
      run_cons_eq_some.mpr ⟨_, hsettle, run_cons_eq_some.mpr ⟨_, hdeliver, rfl⟩⟩⟩⟩, hc₄,
    hresolved, fun hmem => ?_⟩
  have hunanswered := h.unanswered WS_MAX_REQUEST_ID (.ok [42])
  have hne : WS_MAX_REQUEST_ID ≠ 0 := by decide
  rw [hlog, hb₁] at hmem
  simp [post, setClient, hunanswered, hne] at hmem

/-- **A late reply resolves a call that came under its id.** -/
theorem not_own_reply :
    ¬ ∀ (sessionId : String) (as : List Action) (b : Bridge),
      run step (new sessionId) as = some b → ClientLaw b := by
  intro h
  obtain ⟨as, b, hrun, hround⟩ := rounds WS_MAX_REQUEST_ID
  obtain ⟨as', b', c, hrun', hc, hresolved, hanswered⟩ := lateReply hround
  have hlaw := h "s" (as ++ as') b' (run_append_eq_some.mpr ⟨b, hrun, hrun'⟩)
  exact hanswered (hlaw.own_reply 0 c hc _ _ hresolved).1

end FabPcb.BridgeReplies
