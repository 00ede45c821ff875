import Mathlib.Data.List.Nodup
import Mathlib.Data.List.Perm.Basic
import Mathlib.Data.List.Range
import Mathlib.Logic.Relation

/-!
A client that keeps one request in flight and tells replies apart by ids.

Calls are numbered as they are made. An accepted call waits in a queue, then in a slot, under
an id that a counter gives; it leaves by being settled. The moves below are all that may
happen to calls, and the law of the client follows from them: whatever a client adds to them
(connections, timers, errors) has no part in it.
-/

namespace FabPcb.Correlation

/-- What callers, the wire and the server see, in order: `β` is what is sent, `ρ` a reply and
`ε` an error. -/
inductive Event (β ρ ε : Type*) where
  | queued (n : ℕ)
  | sent (n id : ℕ) (request : β)
  | served (n id : ℕ) (reply : ρ)
  | resolved (n : ℕ) (reply : ρ)
  | rejected (n : ℕ) (error : ε)

variable {β ρ ε : Type*}

/-! ### The log -/

def queuedNumbers (log : List (Event β ρ ε)) : List ℕ :=
  log.filterMap fun
    | .queued n => some n
    | _ => none

/-- The requests sent, with their ids. -/
def requests (log : List (Event β ρ ε)) : List (ℕ × ℕ) :=
  log.filterMap fun
    | .sent n id _ => some (n, id)
    | _ => none

def sentNumbers (log : List (Event β ρ ε)) : List ℕ := (requests log).map Prod.fst

def sentIds (log : List (Event β ρ ε)) : List ℕ := (requests log).map Prod.snd

def settledNumbers (log : List (Event β ρ ε)) : List ℕ :=
  log.filterMap fun
    | .resolved n _ => some n
    | .rejected n _ => some n
    | _ => none

/-- The calls the server has answered. -/
def servedNumbers (log : List (Event β ρ ε)) : List ℕ :=
  log.filterMap fun
    | .served n _ _ => some n
    | _ => none

section Append

variable (log : List (Event β ρ ε)) (n id : ℕ) (b : β) (r : ρ) (e : ε)

@[simp] lemma queuedNumbers_append (log' : List (Event β ρ ε)) :
    queuedNumbers (log ++ log') = queuedNumbers log ++ queuedNumbers log' :=
  List.filterMap_append ..

@[simp] lemma requests_append (log' : List (Event β ρ ε)) :
    requests (log ++ log') = requests log ++ requests log' :=
  List.filterMap_append ..

@[simp] lemma sentNumbers_append (log' : List (Event β ρ ε)) :
    sentNumbers (log ++ log') = sentNumbers log ++ sentNumbers log' := by
  simp [sentNumbers]

@[simp] lemma sentIds_append (log' : List (Event β ρ ε)) :
    sentIds (log ++ log') = sentIds log ++ sentIds log' := by
  simp [sentIds]

@[simp] lemma settledNumbers_append (log' : List (Event β ρ ε)) :
    settledNumbers (log ++ log') = settledNumbers log ++ settledNumbers log' :=
  List.filterMap_append ..

end Append

/-! ### The client -/

/-- Where calls stand. `shut` says that no more are accepted. -/
structure Ledger (β ρ ε : Type*) where
  calls : ℕ
  queue : List ℕ
  slot : Option (ℕ × ℕ)
  nextId : ℕ
  staleIds : List ℕ
  shut : Bool
  log : List (Event β ρ ε)

def Ledger.new : Ledger β ρ ε := ⟨0, [], none, 1, [], false, []⟩

/-- The calls that are accepted and not settled. -/
def Ledger.waiting (l : Ledger β ρ ε) : List ℕ := (l.slot.map Prod.fst).toList ++ l.queue

/-- What may happen to calls. Ids are `base` and a counter, until `bound` of them are gone. -/
inductive Move (base bound : ℕ) (l : Ledger β ρ ε) : Ledger β ρ ε → Prop
  | enqueue (hshut : l.shut = false) :
      Move base bound l { l with calls := l.calls + 1, queue := l.queue ++ [l.calls],
                                 log := l.log ++ [.queued l.calls] }
  | refuse (e : ε) :
      Move base bound l { l with calls := l.calls + 1, log := l.log ++ [.rejected l.calls e] }
  | send (n : ℕ) (rest : List ℕ) (id next : ℕ) (b : β) (hslot : l.slot = none)
      (hqueue : l.queue = n :: rest)
      (hid : l.nextId < bound → base + l.nextId ∉ l.staleIds →
        id = base + l.nextId ∧ next = l.nextId + 1) :
      Move base bound l { l with queue := rest, slot := some (n, id), nextId := next,
                                 log := l.log ++ [.sent n id b] }
  /-- The server answers a request it was sent, and none twice. -/
  | serve (n id : ℕ) (r : ρ) (hsent : (n, id) ∈ requests l.log)
      (hserved : n ∉ servedNumbers l.log) :
      Move base bound l { l with log := l.log ++ [.served n id r] }
  /-- A reply arrives under the id of the request in flight. -/
  | resolve (n m id : ℕ) (r : ρ) (hslot : l.slot = some (n, id))
      (hserved : .served m id r ∈ l.log) :
      Move base bound l { l with slot := none, log := l.log ++ [.resolved n r] }
  | reject (n id : ℕ) (e : ε) (hslot : l.slot = some (n, id)) :
      Move base bound l { l with slot := none, log := l.log ++ [.rejected n e] }
  | timeout (n id : ℕ) (e : ε) (stale : List ℕ) (hslot : l.slot = some (n, id))
      (hstale : stale ⊆ id :: l.staleIds) :
      Move base bound l { l with slot := none, staleIds := stale,
                                 log := l.log ++ [.rejected n e] }
  | forget (stale : List ℕ) (hstale : stale ⊆ l.staleIds) :
      Move base bound l { l with staleIds := stale }
  /-- All that waits in the queue is rejected. -/
  | clear (e : ε) (hslot : l.slot = none) :
      Move base bound l { l with queue := [],
                                 log := l.log ++ l.queue.map fun n => .rejected n e }
  | mark (shut : Bool) (hshut : shut = true → l.shut = true ∨ l.slot = none ∧ l.queue = []) :
      Move base bound l { l with shut := shut }

/-- Any number of moves. -/
abbrev Moves (base bound : ℕ) : Ledger β ρ ε → Ledger β ρ ε → Prop :=
  Relation.ReflTransGen (Move base bound)

/-! ### What moves keep -/

/-- Every call made is waiting or settled, and once only; what is sent and what is queued stand
in the order of the calls; what is sent is settled or in the slot. -/
structure Sound (l : Ledger β ρ ε) : Prop where
  calls : (settledNumbers l.log ++ l.waiting).Perm (List.range l.calls)
  order : List.Sublist (sentNumbers l.log ++ l.queue) (queuedNumbers l.log)
  increasing : (queuedNumbers l.log).Pairwise (· < ·)
  below : ∀ n ∈ queuedNumbers l.log, n < l.calls
  slot : ∀ p ∈ l.slot, p ∈ requests l.log
  sent : ∀ n ∈ sentNumbers l.log, n ∈ settledNumbers l.log ∨ ∃ id, l.slot = some (n, id)
  served : ∀ n id r, .served n id r ∈ l.log → (n, id) ∈ requests l.log
  shut : l.shut = true → l.slot = none ∧ l.queue = []

lemma sound_new : Sound (Ledger.new : Ledger β ρ ε) := by
  constructor <;> simp [Ledger.new, Ledger.waiting, settledNumbers, sentNumbers, requests,
    queuedNumbers]

variable {base bound : ℕ} {l l' : Ledger β ρ ε}

lemma waiting_of_slot {n id : ℕ} (h : l.slot = some (n, id)) : l.waiting = n :: l.queue := by
  simp [Ledger.waiting, h]

lemma waiting_of_none (h : l.slot = none) : l.waiting = l.queue := by
  simp [Ledger.waiting, h]

lemma settledNumbers_rejected (ns : List ℕ) (e : ε) :
    settledNumbers (ns.map fun n => (.rejected n e : Event β ρ ε)) = ns := by
  induction ns with
  | nil => rfl
  | cons n ns ih => exact congrArg (n :: ·) ih

lemma sent_rejected (ns : List ℕ) (e : ε) :
    requests (ns.map fun n => (.rejected n e : Event β ρ ε)) = [] ∧
      queuedNumbers (ns.map fun n => (.rejected n e : Event β ρ ε)) = [] := by
  simp [requests, queuedNumbers]

/-- A call that leaves the slot is settled. -/
lemma Sound.settle (hs : Sound l) {n id : ℕ} (hslot : l.slot = some (n, id)) {es : Event β ρ ε}
    (hes : settledNumbers [es] = [n]) (hsent : requests [es] = [])
    (hqueued : queuedNumbers [es] = []) (hserved : ∀ m i r, es ≠ .served m i r) (stale : List ℕ) :
    Sound { l with slot := none, staleIds := stale, log := l.log ++ [es] } where
  calls := by
    have h := hs.calls
    rw [waiting_of_slot hslot] at h
    simpa [Ledger.waiting, hes] using h
  order := by simpa [sentNumbers, hsent, hqueued] using hs.order
  increasing := by simpa [hqueued] using hs.increasing
  below := by simpa [hqueued] using hs.below
  slot := by simp
  sent m hm := by
    have hm : m ∈ sentNumbers l.log := by simpa [sentNumbers, hsent] using hm
    rcases hs.sent m hm with h | ⟨i, hi⟩
    · simp [h]
    · have : m = n := congrArg Prod.fst (Option.some.inj (hi.symm.trans hslot))
      simp [hes, this]
  served m i r hm := by
    rcases List.mem_append.mp hm with h | h
    · simpa using Or.inl (hs.served m i r h)
    · exact absurd (List.mem_singleton.mp h).symm (hserved m i r)
  shut h := ⟨rfl, (hs.shut h).2⟩

lemma Sound.enqueue (hs : Sound l) (hshut : l.shut = false) :
    Sound { l with calls := l.calls + 1, queue := l.queue ++ [l.calls],
                   log := l.log ++ [.queued l.calls] } where
  calls := by
    have h := hs.calls.append_right [l.calls]
    simpa [Ledger.waiting, settledNumbers, List.range_succ] using h
  order := by
    have h := hs.order.append (List.Sublist.refl [l.calls])
    simpa [sentNumbers, requests, queuedNumbers] using h
  increasing := by
    rw [queuedNumbers_append, List.pairwise_append]
    refine ⟨hs.increasing, List.pairwise_singleton .., fun a ha b hb => ?_⟩
    exact List.mem_singleton.mp hb ▸ hs.below a ha
  below n hn := by
    rcases List.mem_append.mp (queuedNumbers_append l.log _ ▸ hn) with h | h
    · exact Nat.lt_succ_of_lt (hs.below n h)
    · exact List.mem_singleton.mp h ▸ Nat.lt_succ_self _
  slot p hp := by simpa using Or.inl (hs.slot p hp)
  sent n hn := by
    have hn : n ∈ sentNumbers l.log := by simpa [sentNumbers, requests] using hn
    simpa [settledNumbers] using hs.sent n hn
  served n id r hr := by simpa using Or.inl (hs.served n id r (by simpa using hr))
  shut h := by simp [hshut] at h

lemma Sound.refuse (hs : Sound l) (e : ε) :
    Sound { l with calls := l.calls + 1, log := l.log ++ [.rejected l.calls e] } where
  calls := by
    have h := hs.calls.append_right [l.calls]
    rw [List.append_assoc] at h
    have hswap : (l.waiting ++ [l.calls]).Perm ([l.calls] ++ l.waiting) := List.perm_append_comm
    have hlast := (hswap.append_left (settledNumbers l.log)).symm.trans h
    simpa [Ledger.waiting, settledNumbers, List.range_succ] using hlast
  order := by simpa [sentNumbers, requests, queuedNumbers] using hs.order
  increasing := by simpa [queuedNumbers] using hs.increasing
  below n hn := Nat.lt_succ_of_lt (hs.below n (by simpa [queuedNumbers] using hn))
  slot p hp := by simpa using Or.inl (hs.slot p hp)
  sent n hn := by
    rcases hs.sent n (by simpa [sentNumbers, requests] using hn) with h | h
    · exact Or.inl (by simp [h])
    · exact Or.inr h
  served n id r hr := by simpa using Or.inl (hs.served n id r (by simpa using hr))
  shut := hs.shut

lemma Sound.send (hs : Sound l) {n : ℕ} {rest : List ℕ} (id next : ℕ) (b : β)
    (hslot : l.slot = none) (hqueue : l.queue = n :: rest) :
    Sound { l with queue := rest, slot := some (n, id), nextId := next,
                   log := l.log ++ [.sent n id b] } where
  calls := by
    have h := hs.calls
    rw [waiting_of_none hslot, hqueue] at h
    simpa [Ledger.waiting, settledNumbers] using h
  order := by
    have h := hs.order
    rw [hqueue] at h
    simpa [sentNumbers, requests, queuedNumbers] using h
  increasing := by simpa [queuedNumbers] using hs.increasing
  below m hm := hs.below m (by simpa [queuedNumbers] using hm)
  slot p hp := by
    cases Option.mem_some.mp hp
    simp [requests]
  sent m hm := by
    rcases List.mem_append.mp (sentNumbers_append l.log _ ▸ hm) with h | h
    · rcases hs.sent m h with h | ⟨i, hi⟩
      · exact Or.inl (by simp [h])
      · exact absurd (hslot.symm.trans hi) (by simp)
    · exact Or.inr ⟨id, by rw [List.mem_singleton.mp h]⟩
  served m i r hr := by simpa using Or.inl (hs.served m i r (by simpa using hr))
  shut h := absurd (hs.shut h).2 (by simp [hqueue])

lemma Sound.serve (hs : Sound l) {n id : ℕ} (r : ρ) (hsent : (n, id) ∈ requests l.log) :
    Sound { l with log := l.log ++ [.served n id r] } where
  calls := by simpa [Ledger.waiting, settledNumbers] using hs.calls
  order := by simpa [sentNumbers, requests, queuedNumbers] using hs.order
  increasing := by simpa [queuedNumbers] using hs.increasing
  below m hm := hs.below m (by simpa [queuedNumbers] using hm)
  slot p hp := by simpa using Or.inl (hs.slot p hp)
  sent m hm := by
    simpa [settledNumbers] using hs.sent m (by simpa [sentNumbers, requests] using hm)
  served m i t ht := by
    rcases List.mem_append.mp ht with h | h
    · simpa using Or.inl (hs.served m i t h)
    · cases List.mem_singleton.mp h
      simpa using Or.inl hsent
  shut := hs.shut

lemma Sound.clear (hs : Sound l) (e : ε) (hslot : l.slot = none) :
    Sound { l with queue := [], log := l.log ++ l.queue.map fun n => .rejected n e } where
  calls := by
    have h := hs.calls
    simpa [Ledger.waiting, hslot, settledNumbers_rejected] using h
  order := by
    have h := (List.sublist_append_left _ _).trans hs.order
    simpa [sentNumbers, sent_rejected] using h
  increasing := by simpa [sent_rejected] using hs.increasing
  below m hm := hs.below m (by simpa [sent_rejected] using hm)
  slot p hp := by simpa [sent_rejected] using hs.slot p hp
  sent m hm := by
    rcases hs.sent m (by simpa [sentNumbers, sent_rejected] using hm) with h | h
    · exact Or.inl (by simp [h])
    · exact Or.inr h
  served m i r hr := by simpa [sent_rejected] using hs.served m i r (by simpa using hr)
  shut _ := ⟨hslot, rfl⟩

lemma Sound.move (hs : Sound l) (h : Move base bound l l') : Sound l' := by
  cases h with
  | enqueue hshut => exact hs.enqueue hshut
  | refuse e => exact hs.refuse e
  | send n rest id next b hslot hqueue _ => exact hs.send id next b hslot hqueue
  | serve n id r hsent _ => exact hs.serve r hsent
  | resolve n m id r hslot _ => exact hs.settle hslot rfl rfl rfl (by simp) l.staleIds
  | reject n id e hslot => exact hs.settle hslot rfl rfl rfl (by simp) l.staleIds
  | timeout n id e stale hslot _ => exact hs.settle hslot rfl rfl rfl (by simp) stale
  | forget stale _ => exact ⟨hs.calls, hs.order, hs.increasing, hs.below, hs.slot, hs.sent,
      hs.served, hs.shut⟩
  | clear e hslot => exact hs.clear e hslot
  | mark shut hshut => exact ⟨hs.calls, hs.order, hs.increasing, hs.below, hs.slot, hs.sent,
      hs.served, fun h => (hshut h).elim hs.shut id⟩

lemma Sound.moves (hs : Sound l) (h : Moves base bound l l') : Sound l' := by
  induction h with
  | refl => exact hs
  | tail _ hmove ih => exact ih.move hmove

/-! ### Ids -/

/-- As long as ids last they count up, none is given twice, and a reply is that to its own
request. -/
structure Fresh (base : ℕ) (l : Ledger β ρ ε) : Prop where
  ids : sentIds l.log = List.range' (base + 1) (sentIds l.log).length
  next : l.nextId = (sentIds l.log).length + 1
  stale : l.staleIds ⊆ sentIds l.log
  own : ∀ n r, .resolved n r ∈ l.log → ∃ id, .served n id r ∈ l.log

lemma fresh_new : Fresh base (Ledger.new : Ledger β ρ ε) := by
  constructor <;> simp [Ledger.new, sentIds, requests]

lemma Fresh.eq_of_id (h : Fresh base l) {n m id : ℕ} (hn : (n, id) ∈ requests l.log)
    (hm : (m, id) ∈ requests l.log) : n = m := by
  have hnodup : ((requests l.log).map Prod.snd).Nodup := by
    have : (sentIds l.log).Nodup := h.ids ▸ List.nodup_range'
    exact this
  have := List.inj_on_of_nodup_map hnodup hn hm rfl
  exact congrArg Prod.fst this

lemma Fresh.not_stale (h : Fresh base l) : base + l.nextId ∉ l.staleIds := by
  intro hmem
  have hids := h.stale hmem
  rw [h.ids, List.mem_range'_1, h.next] at hids
  omega

lemma Fresh.quiet (h : Fresh base l) (hnext : l'.nextId = l.nextId)
    (hstale : l'.staleIds ⊆ l.staleIds) {es : List (Event β ρ ε)} (hlog : l'.log = l.log ++ es)
    (hes : requests es = []) (hres : ∀ n r, .resolved n r ∉ es) : Fresh base l' := by
  have hids : sentIds l'.log = sentIds l.log := by simp [hlog, sentIds, hes]
  refine ⟨by rw [hids]; exact h.ids, by rw [hids, hnext]; exact h.next,
    fun i hi => hids ▸ h.stale (hstale hi), fun n r hr => ?_⟩
  rw [hlog] at hr ⊢
  rcases List.mem_append.mp hr with hr | hr
  · obtain ⟨id, hid⟩ := h.own n r hr
    exact ⟨id, List.mem_append_left _ hid⟩
  · exact absurd hr (hres n r)

lemma Fresh.move (hs : Sound l) (h : Fresh base l) (hmove : Move base bound l l')
    (hbound : (sentIds l'.log).length < bound) : Fresh base l' := by
  cases hmove with
  | enqueue => exact h.quiet rfl (List.Subset.refl _) rfl rfl (by simp)
  | refuse e => exact h.quiet rfl (List.Subset.refl _) rfl rfl (by simp)
  | serve n id r => exact h.quiet rfl (List.Subset.refl _) rfl rfl (by simp)
  | reject n id e => exact h.quiet rfl (List.Subset.refl _) rfl rfl (by simp)
  | forget stale hstale => exact h.quiet rfl hstale (List.append_nil _).symm rfl (by simp)
  | clear e => exact h.quiet rfl (List.Subset.refl _) rfl (sent_rejected _ e).1 (by simp)
  | mark => exact h.quiet rfl (List.Subset.refl _) (List.append_nil _).symm rfl (by simp)
  | send n rest id next b hslot hqueue hid =>
    have hlen : (sentIds (l.log ++ [.sent n id b])).length = (sentIds l.log).length + 1 := by
      simp [sentIds, requests]
    have hnext := h.next
    obtain ⟨rfl, rfl⟩ := hid (by simp only [hlen] at hbound; omega) h.not_stale
    refine ⟨?_, ?_, ?_, ?_⟩
    · simp only [hlen]
      rw [List.range'_concat, ← h.ids, hnext]
      simp [sentIds, requests]
      omega
    · exact (congrArg (· + 1) hnext).trans (congrArg (· + 1) hlen.symm)
    · intro i hi
      simp [h.stale hi]
    · intro m r hr
      obtain ⟨i, hi⟩ := h.own m r (by simpa using hr)
      exact ⟨i, by simp [hi]⟩
  | resolve n m id r hslot hserved =>
    have hids : sentIds (l.log ++ [.resolved n r]) = sentIds l.log := by simp [sentIds, requests]
    refine ⟨by rw [hids]; exact h.ids, by rw [hids]; exact h.next, by rw [hids]; exact h.stale,
      ?_⟩
    intro k t hk
    rcases List.mem_append.mp hk with hk | hk
    · obtain ⟨i, hi⟩ := h.own k t hk
      exact ⟨i, List.mem_append_left _ hi⟩
    · cases List.mem_singleton.mp hk
      have : m = n := h.eq_of_id (hs.served m id r hserved) (hs.slot _ hslot)
      exact ⟨id, List.mem_append_left _ (this ▸ hserved)⟩
  | timeout n id e stale hslot hstale =>
    have hids : sentIds (l.log ++ [.rejected n e]) = sentIds l.log := by simp [sentIds, requests]
    refine ⟨by rw [hids]; exact h.ids, by rw [hids]; exact h.next, ?_, ?_⟩
    · rw [hids]
      intro i hi
      rcases List.mem_cons.mp (hstale hi) with rfl | hi
      · exact List.mem_map_of_mem (hs.slot _ hslot)
      · exact h.stale hi
    · intro m r hr
      obtain ⟨i, hi⟩ := h.own m r (by simpa using hr)
      exact ⟨i, by simp [hi]⟩

lemma Move.log_prefix (h : Move base bound l l') : l.log <+: l'.log := by
  cases h with
  | forget => exact List.prefix_refl _
  | mark => exact List.prefix_refl _
  | _ => exact List.prefix_append ..

lemma log_prefix_of_moves (h : Moves base bound l l') : l.log <+: l'.log := by
  induction h with
  | refl => exact List.prefix_refl _
  | tail _ hmove ih => exact ih.trans hmove.log_prefix

lemma ids_mono_move (h : Move base bound l l') :
    (sentIds l.log).length ≤ (sentIds l'.log).length := by
  obtain ⟨es, hes⟩ := h.log_prefix
  rw [← hes, sentIds_append, List.length_append]
  exact Nat.le_add_right ..

lemma Fresh.moves (hs : Sound l) (h : Fresh base l) (hmoves : Moves base bound l l')
    (hbound : (sentIds l'.log).length < bound) : Fresh base l' := by
  induction hmoves with
  | refl => exact h
  | tail hmoves hmove ih =>
    exact Fresh.move (hs.moves hmoves) (ih (Nat.lt_of_le_of_lt (ids_mono_move hmove) hbound))
      hmove hbound

/-! ### The law -/

/-- **Nothing settles twice**, and what is settled was called. -/
theorem Sound.settled_once (hs : Sound l) : (settledNumbers l.log).Nodup :=
  (List.nodup_append.mp (hs.calls.nodup_iff.mpr List.nodup_range)).1

/-- **All calls of a shut client are settled.** -/
theorem Sound.all_settled (hs : Sound l) (hshut : l.shut = true) {n : ℕ} (hn : n < l.calls) :
    n ∈ settledNumbers l.log := by
  have h := hs.calls
  obtain ⟨hslot, hqueue⟩ := hs.shut hshut
  rw [waiting_of_none hslot, hqueue, List.append_nil] at h
  exact h.mem_iff.mpr (List.mem_range.mpr hn)

/-- **One request is in flight at most.** -/
theorem Sound.one_in_flight (hs : Sound l) {n m : ℕ} (hn : n ∈ sentNumbers l.log)
    (hn' : n ∉ settledNumbers l.log) (hm : m ∈ sentNumbers l.log)
    (hm' : m ∉ settledNumbers l.log) : n = m := by
  obtain ⟨i, hi⟩ := (hs.sent n hn).resolve_left hn'
  obtain ⟨j, hj⟩ := (hs.sent m hm).resolve_left hm'
  exact congrArg Prod.fst (Option.some.inj (hi.symm.trans hj))

/-- **Requests go out in the order of the queue.** -/
theorem Sound.in_order (hs : Sound l) :
    List.Sublist (sentNumbers l.log) (queuedNumbers l.log) :=
  (List.sublist_append_left _ _).trans hs.order

end FabPcb.Correlation
