import Mathlib.Order.MinMax
import FabPcb.ReadContent

/-!
The revision of a sync against what its store holds.

A store reflects a revision when every id in it is as the document had it at that revision or
later. Reads in flight may repair an id before they are over: a load whatever the store
holds, a read since a revision if the store reflects that one. The invariant is that the
store reflects its revision or such a read is in flight. Events move the revision past what
the reads brought; the condition on steps says when nothing is lost by it.
-/

namespace FabPcb.Revision

open OrderedMap Items ItemStore StoreContent Document
open Sync DocumentHistory Reads ReadContent Runs

variable {P : Type*}

/-- The revision of the store. -/
def revision (s : State P) : ℕ := revisionOf s.sync

/-! ### What is assumed of the server -/

/-- The answers are those of the moment they are given at, and an event has the revision of a
moment that has come. -/
def Honest (h : History P) (s : State P) : Action P → Prop
  | .syncIds _ ids => ∀ e, ids.revision = some e → ∃ t ≤ s.now, h.rev t = e
  | .answered n m r =>
    (∀ asked v, s.calls.get? n = some ⟨.loading asked, v⟩ → FullRead h m r) ∧
    ∀ q asked v, s.calls.get? n = some ⟨.since q asked, v⟩ → SinceRead h q m r
  | .found n m items =>
    ∀ wanted gone asked v, s.calls.get? n = some ⟨.byId wanted gone asked, v⟩ →
      FoundAt h m wanted items
  | _ => True

/-! ### When a step loses nothing -/

/-- A load or a read since a revision. -/
def Pc.isRead : Pc → Prop
  | .loading _ => True
  | .since _ _ => True
  | _ => False

/-- The document did not change an id between two revisions. -/
def Unchanged (h : History P) (id : String) (r e : ℕ) : Prop :=
  ∀ t t', r ≤ h.rev t → h.rev t ≤ e → r ≤ h.rev t' → h.rev t' ≤ e →
    h.content t id = h.content t' id

/-- What moving the revision to that of an event takes: a read is in flight, or the document
changed no id but those brought up to date. -/
def Fetched (h : History P) (s : State P) (brought : List String) (v : Option ℕ) : Prop :=
  (∃ n call, s.calls.get? n = some call ∧ Pc.isRead call.pc) ∨
    ∀ id, id ∉ brought → Unchanged h id (revision s) (v.getD 0)

/-- What removing the ids an event deletes takes: they are not in the document at the revision
the store has then. -/
def Absent (h : History P) (s : State P) (gone : List String) (v : Option ℕ) : Prop :=
  ∀ id ∈ gone, ∃ t, h.rev t = max (revision s) (v.getD 0) ∧ h.content t id = none

/-- An event that has only ids to remove. -/
def removesOnly (source : Source) (s : State P) (ids : ChangedIds) : Prop :=
  s.sync.loaded = true ∧ source.byId = true ∧
    ids.created.length + ids.updated.length + ids.deleted.length ≠ 0 ∧
    (wanted s.sync.store ids).keys = []

/-- The condition on a step: no answer is behind the revision of the store, no `syncSince`
starts ahead of it, and an event moves it no further than the ids brought up to date reach. -/
def Safe (h : History P) (source : Source) (s : State P) : Action P → Prop
  | .syncSince _ since => s.loading = none → s.sync.loaded = true →
      ∀ q, since = some q → q ≤ revision s
  | .syncIds _ ids => removesOnly source s ids →
      Fetched h s ids.gone ids.revision ∧ Absent h s ids.gone ids.revision
  | .answered _ m _ => revision s ≤ h.rev m
  | .found n m _ => revision s ≤ h.rev m ∧
      ∀ wanted gone asked v, s.calls.get? n = some ⟨.byId wanted gone asked, v⟩ →
        Fetched h s (wanted ++ gone) v ∧ Absent h s gone v
  | .resume n => ∀ call, s.calls.get? n = some call → Fetched h s [] call.revision
  | _ => True

/-! ### The invariant -/

/-- The latest revision anything in the store is of. -/
def top (h : History P) (s : State P) : ℕ := max (revision s) (h.rev s.seen)

/-- An id is as the document had it at a revision or later. -/
def Covered (h : History P) (s : State P) (q : ℕ) (id : String) : Prop :=
  ∃ t, q ≤ h.rev t ∧ h.rev t ≤ top h s ∧ s.sync.content id = h.content t id

/-- The store reflects its revision. -/
def Reflects (h : History P) (s : State P) : Prop :=
  s.sync.loaded = true → ∀ id, Covered h s (revision s) id

/-- A read that will leave the store as the document is. -/
def Repairs (h : History P) (s : State P) : Pc → Prop
  | .loading _ => True
  | .since q _ => ∀ id, Covered h s q id
  | _ => False

/-- The store reflects its revision, or a read in flight will make it so. -/
def Sound (h : History P) (s : State P) : Prop :=
  Reflects h s ∨ ∃ n call, s.calls.get? n = some call ∧ Repairs h s call.pc

/-- What holds of a call in flight. -/
def CallOk (h : History P) (s : State P) (call : Call) : Prop :=
  (∀ e, call.revision = some e → ∃ t ≤ s.now, h.rev t = e) ∧
  match call.pc with
  | .checking => s.sync.loaded = true
  | .loading _ => True
  | .since q _ => s.sync.loaded = true ∧ q ≤ revision s
  | .byId _ _ asked => s.sync.loaded = true ∧ ∀ e, call.revision = some e → e ≤ h.rev asked
  | .awaiting t => s.loading = some t ∨ s.sync.loaded = true
  | .resumed => s.sync.loaded = true

structure Inv (h : History P) (s : State P) : Prop where
  seen : s.seen ≤ s.now
  reached : revision s ≤ h.rev s.now
  loaded : s.sync.rev ≠ none → s.sync.loaded = true
  ofHistory : FromHistory h s.sync.content
  calls : ∀ n call, s.calls.get? n = some call → CallOk h s call
  sound : Sound h s

variable {h : History P} {source : Source} {s s' : State P}

lemma Covered.mono {q q' : ℕ} {id : String} (hq : q' ≤ q) (hc : Covered h s q id) :
    Covered h s q' id := by
  obtain ⟨t, ht, hrest⟩ := hc
  exact ⟨t, le_trans hq ht, hrest⟩

lemma Repairs.isRead {pc : Pc} (hr : Repairs h s pc) : Pc.isRead pc := by
  cases pc <;> trivial

lemma exists_repairs (hinv : Inv h s)
    (hread : ∃ n call, s.calls.get? n = some call ∧ Pc.isRead call.pc) :
    ∃ n call, s.calls.get? n = some call ∧ Repairs h s call.pc := by
  rcases hinv.sound with hr | hgood
  · obtain ⟨n, ⟨pc, v⟩, hn, hpc⟩ := hread
    refine ⟨n, ⟨pc, v⟩, hn, ?_⟩
    have hok := (hinv.calls n _ hn).2
    cases pc with
    | loading asked => trivial
    | since q asked => exact fun id => (hr hok.1 id).mono hok.2
    | checking => exact hpc.elim
    | byId wanted gone asked => exact hpc.elim
    | awaiting t => exact hpc.elim
    | resumed => exact hpc.elim
  · exact hgood

lemma CallOk.mono {call : Call} (hok : CallOk h s call) (hnow : s.now ≤ s'.now)
    (hloaded : s.sync.loaded = true → s'.sync.loaded = true) (hrev : revision s ≤ revision s')
    (hloading : s'.loading = s.loading ∨ s.loading = none ∨ s'.sync.loaded = true) :
    CallOk h s' call := by
  obtain ⟨hevent, hpc⟩ := hok
  refine ⟨fun e he => ?_, ?_⟩
  · obtain ⟨t, ht, hte⟩ := hevent e he
    exact ⟨t, le_trans ht hnow, hte⟩
  · rcases call with ⟨pc, v⟩
    cases pc with
    | checking => exact hloaded hpc
    | loading asked => trivial
    | since q asked => exact ⟨hloaded hpc.1, le_trans hpc.2 hrev⟩
    | byId wanted gone asked => exact ⟨hloaded hpc.1, hpc.2⟩
    | awaiting t =>
      rcases hloading with hsame | hnone | hl
      · exact hpc.imp (fun ht => hsame.trans ht) hloaded
      · refine Or.inr (hloaded (hpc.resolve_left fun ht => ?_))
        rw [hnone] at ht
        cases ht
      · exact Or.inr hl
    | resumed => exact hloaded hpc

/-! ### Calls that start -/

/-- **Step**: a call starts, or stands somewhere else without touching the sync. -/
lemma inv_call (hinv : Inv h s) (n : ℕ) (call : Call) (l : Option ℕ)
    (hl : l = s.loading ∨ s.loading = none)
    (hn : ∀ c, s.calls.get? n = some c → ¬ Pc.isRead c.pc)
    (hok : CallOk h { s with loading := l, calls := s.calls.set n call } call) :
    Inv h { s with loading := l, calls := s.calls.set n call } := by
  refine ⟨hinv.seen, hinv.reached, hinv.loaded, hinv.ofHistory, fun k c hk => ?_, ?_⟩
  · have hk' : (s.calls.set n call).get? k = some c := hk
    rw [OMap.get?_set] at hk'
    split_ifs at hk' with he
    · cases hk'
      exact hok
    · exact (hinv.calls k c hk').mono le_rfl id le_rfl (hl.imp id Or.inl)
  · rcases hinv.sound with hr | ⟨k, c, hk, hrep⟩
    · exact Or.inl hr
    · refine Or.inr ⟨k, c, ?_, hrep⟩
      have hne : k ≠ n := by
        rintro rfl
        exact hn c hk hrep.isRead
      rw [OMap.get?_set, if_neg hne]
      exact hk

variable {n : ℕ} {v : Option ℕ}

lemma inv_load (hinv : Inv h s) (hn : ∀ c, s.calls.get? n = some c → ¬ Pc.isRead c.pc)
    (hv : ∀ e, v = some e → ∃ t ≤ s.now, h.rev t = e) : Inv h (s.load n v) := by
  unfold State.load
  cases hl : s.loading with
  | some t =>
    exact inv_call hinv n ⟨.awaiting t, v⟩ (some t) (Or.inl hl.symm) hn ⟨hv, Or.inl rfl⟩
  | none => exact inv_call hinv n ⟨.loading s.now, v⟩ (some n) (Or.inr hl) hn ⟨hv, trivial⟩

lemma inv_syncSince (hinv : Inv h s) (hn : ∀ c, s.calls.get? n = some c → ¬ Pc.isRead c.pc)
    (hv : ∀ e, v = some e → ∃ t ≤ s.now, h.rev t = e) {since : Option ℕ}
    (hsince : s.loading = none → s.sync.loaded = true → ∀ q, since = some q → q ≤ revision s) :
    Inv h (s.syncSince n since v) := by
  unfold State.syncSince
  cases hl : s.loading with
  | some t =>
    exact inv_call hinv n ⟨.awaiting t, v⟩ (some t) (Or.inl hl.symm) hn ⟨hv, Or.inl rfl⟩
  | none =>
    cases hloaded : s.sync.loaded with
    | false => exact inv_load hinv hn hv
    | true =>
      cases since with
      | none => exact inv_load hinv hn hv
      | some q =>
        exact inv_call hinv n ⟨.since q s.now, v⟩ none (Or.inl hl.symm) hn
          ⟨hv, hloaded, hsince hl hloaded q rfl⟩

lemma inv_refresh (hinv : Inv h s) (hn : ∀ c, s.calls.get? n = some c → ¬ Pc.isRead c.pc)
    (hv : ∀ e, v = some e → ∃ t ≤ s.now, h.rev t = e) : Inv h (s.refresh n v) := by
  unfold State.refresh
  split_ifs with hready
  · exact inv_call hinv n ⟨.checking, v⟩ s.loading (Or.inl rfl) hn ⟨hv, hready.1⟩
  · exact inv_load hinv hn hv

/-! ### Events that move the revision -/

/-- **Step**: the revision moves to that of an event, ids are brought up to date to it, and
no read in flight is touched. -/
lemma sound_event (hinv : Inv h s) {brought : List String}
    (hcalls : ∀ k c, s.calls.get? k = some c → Pc.isRead c.pc → s'.calls.get? k = some c)
    (hrev : revision s' = max (revision s) (v.getD 0))
    (hv : ∀ e, v = some e → ∃ t ≤ s.now, h.rev t = e) (htop : top h s ≤ top h s')
    (hloaded : s'.sync.loaded = s.sync.loaded)
    (hmove : ∀ id, (∃ t, revision s' ≤ h.rev t ∧ h.rev t ≤ top h s' ∧
        s'.sync.content id = h.content t id) ∨
      s'.sync.content id = s.sync.content id ∧ id ∉ brought)
    (hfetched : Fetched h s brought v) : Sound h s' := by
  have hkeep : ∀ q id, q ≤ revision s → Covered h s q id → Covered h s' q id := by
    intro q id hq hc
    rcases hmove id with ⟨t, ht, hrest⟩ | ⟨hsame, -⟩
    · exact ⟨t, by omega, hrest⟩
    · obtain ⟨t, ht, htt, he⟩ := hc
      exact ⟨t, ht, le_trans htt htop, hsame.trans he⟩
  have hgood : (∃ k c, s.calls.get? k = some c ∧ Repairs h s c.pc) → Sound h s' := by
    rintro ⟨k, ⟨pc, w⟩, hk, hrep⟩
    refine Or.inr ⟨k, ⟨pc, w⟩, hcalls k _ hk hrep.isRead, ?_⟩
    have hok := (hinv.calls k _ hk).2
    cases pc with
    | loading asked => trivial
    | since q asked => exact fun id => hkeep q id hok.2 (hrep id)
    | checking => exact hrep.elim
    | byId wanted gone asked => exact hrep.elim
    | awaiting t => exact hrep.elim
    | resumed => exact hrep.elim
  rcases hfetched with hread | hsame
  · exact hgood (exists_repairs hinv hread)
  · rcases hinv.sound with hr | hrep
    · refine Or.inl fun hl id => ?_
      rcases hmove id with hbrought | ⟨hcontent, hid⟩
      · exact hbrought
      · obtain ⟨t, ht, htt, he⟩ := hr (hloaded ▸ hl) id
        by_cases hle : revision s' ≤ h.rev t
        · exact ⟨t, hle, le_trans htt htop, hcontent.trans he⟩
        · -- the event is ahead of the version held, which did not change up to it
          have hlt : h.rev t < v.getD 0 := by omega
          obtain ⟨e, rfl⟩ : ∃ e, v = some e := by
            cases v with
            | none => exact absurd hlt (by simp)
            | some e => exact ⟨e, rfl⟩
          obtain ⟨τ, -, hτ⟩ := hv e rfl
          rw [Option.getD_some] at hlt hrev
          have hun := hsame id hid t τ ht hlt.le (by omega) hτ.le
          refine ⟨τ, by omega, ?_, hcontent.trans (he.trans hun)⟩
          exact le_trans (by omega) (le_max_left _ _)
    · exact hgood hrep

/-! ### The steps -/

variable {m : ℕ}

lemma top_le_of_answer (hans : ∃ asked, s.answerable asked m) (hm : revision s ≤ h.rev m) :
    top h s ≤ h.rev m := by
  obtain ⟨asked, -, hseen, -⟩ := hans
  exact max_le hm (h.mono hseen)

lemma exists_le {t : ℕ} (ht : h.rev t ≤ h.rev m) :
    ∃ t' ≤ m, h.rev t' = h.rev t ∧ h.content t' = h.content t := by
  rcases le_total t m with hle | hle
  · exact ⟨t, hle, rfl, rfl⟩
  · have hrev : h.rev m = h.rev t := le_antisymm (h.mono hle) ht
    exact ⟨m, le_rfl, hrev, content_congr hrev⟩

/-- **Step, edit.** -/
lemma inv_edit (hinv : Inv h s) : Inv h { s with now := s.now + 1 } := by
  refine ⟨Nat.le_succ_of_le hinv.seen, le_trans hinv.reached (h.mono (Nat.le_succ _)),
    hinv.loaded, hinv.ofHistory, fun k c hk => ?_, ?_⟩
  · exact (hinv.calls k c hk).mono (Nat.le_succ _) id le_rfl (Or.inl rfl)
  · rcases hinv.sound with hr | ⟨k, c, hk, hrep⟩
    · exact Or.inl hr
    · exact Or.inr ⟨k, c, hk, hrep⟩

/-- **Step, an event**: `sound_event` and all the rest of the invariant. -/
lemma inv_event (hinv : Inv h s) (hl : s.sync.loaded = true) {brought : List String}
    (hsame : s'.now = s.now ∧ s'.loading = s.loading ∧ s'.sync.loaded = s.sync.loaded)
    (hseen : s.seen ≤ s'.seen ∧ s'.seen ≤ s.now)
    (hcalls : ∀ k c, s.calls.get? k = some c → Pc.isRead c.pc → s'.calls.get? k = some c)
    (hcalls' : ∀ k c, s'.calls.get? k = some c → s.calls.get? k = some c)
    (hrev : revision s' = max (revision s) (v.getD 0))
    (hv : ∀ e, v = some e → ∃ t ≤ s.now, h.rev t = e)
    (hmove : ∀ id, (∃ t, revision s' ≤ h.rev t ∧ h.rev t ≤ top h s' ∧
        s'.sync.content id = h.content t id) ∨
      s'.sync.content id = s.sync.content id ∧ id ∉ brought)
    (hfetched : Fetched h s brought v) : Inv h s' := by
  obtain ⟨hnow, hloading, hloaded⟩ := hsame
  refine ⟨hnow ▸ hseen.2, ?_, fun _ => hloaded.trans hl, fun id it hit => ?_, fun k c hk => ?_, ?_⟩
  · rw [hrev, hnow]
    refine max_le hinv.reached ?_
    cases v with
    | none => exact Nat.zero_le _
    | some e =>
      obtain ⟨t, ht, rfl⟩ := hv e rfl
      exact h.mono ht
  · rcases hmove id with ⟨t, -, -, he⟩ | ⟨he, -⟩
    · exact fromHistory_content h t id it (he ▸ hit)
    · exact hinv.ofHistory id it (he ▸ hit)
  · exact (hinv.calls k c (hcalls' k c hk)).mono hnow.ge (fun _ => hloaded.trans hl)
      (hrev ▸ le_max_left _ _) (Or.inl hloading)
  · refine sound_event hinv hcalls hrev hv (max_le_max ?_ (h.mono hseen.1)) hloaded hmove hfetched
    exact hrev ▸ le_max_left _ _

lemma calls_delete {n : ℕ} {pc : Pc} (hn : s.calls.get? n = some ⟨pc, v⟩) (hpc : ¬ Pc.isRead pc) :
    (∀ k c, s.calls.get? k = some c → Pc.isRead c.pc → (s.calls.delete n).get? k = some c) ∧
    ∀ k c, (s.calls.delete n).get? k = some c → s.calls.get? k = some c := by
  refine ⟨fun k c hk hread => ?_, fun k c hk => ?_⟩
  · rw [OMap.get?_delete, if_neg]
    · exact hk
    · rintro rfl
      rw [hn] at hk
      cases hk
      exact hpc hread
  · rw [OMap.get?_delete] at hk
    split_ifs at hk
    exact hk

/-- **Step, the end of a call.** -/
lemma inv_finish (hinv : Inv h s) {n : ℕ} {pc : Pc} (hn : s.calls.get? n = some ⟨pc, v⟩)
    (hpc : ¬ Pc.isRead pc) (hl : s.sync.loaded = true) (hf : Fetched h s [] v) :
    Inv h (s.finish n v) := by
  have hcontent : (s.finish n v).sync.content = s.sync.content := content_setRevision s.sync v
  obtain ⟨hcalls, hcalls'⟩ := calls_delete hn hpc
  refine inv_event hinv hl ⟨rfl, rfl, loaded_setRevision s.sync v⟩ ⟨le_rfl, hinv.seen⟩ hcalls
    hcalls' (revisionOf_setRevision s.sync v) (hinv.calls n _ hn).1 (fun id => Or.inr ?_) hf
  exact ⟨congrFun hcontent id, List.not_mem_nil⟩

lemma gone_moved {gone : List String} (habsent : Absent h s gone v) {id : String} (hid : id ∈ gone)
    (hrev : revision s' = max (revision s) (v.getD 0)) (hnone : s'.sync.content id = none) :
    ∃ t, revision s' ≤ h.rev t ∧ h.rev t ≤ top h s' ∧ s'.sync.content id = h.content t id := by
  obtain ⟨t, ht, hdoc⟩ := habsent id hid
  exact ⟨t, by omega, (by omega : h.rev t ≤ revision s').trans (le_max_left _ _),
    hnone.trans hdoc.symm⟩

/-- **Step, an event with only ids to remove.** -/
lemma inv_removesOnly (hinv : Inv h s) {gone : List String} (hl : s.sync.loaded = true)
    (hv : ∀ e, v = some e → ∃ t ≤ s.now, h.rev t = e) (hf : Fetched h s gone v)
    (habsent : Absent h s gone v) :
    Inv h { s with sync := DocumentSync.syncedIds s.sync [] gone [] v } := by
  have hrev := revisionOf_syncedIds (d := s.sync) [] gone [] v
  refine inv_event hinv hl ⟨rfl, rfl, loaded_syncedIds [] gone [] v⟩ ⟨le_rfl, hinv.seen⟩
    (fun _ _ hk _ => hk) (fun _ _ hk => hk) hrev hv (fun id => ?_) hf
  have hnothing : FoundAt h 0 [] [] := by simp [FoundAt]
  rcases content_syncedIds (d := s.sync) gone hnothing v id with
    ⟨-, hmem⟩ | ⟨-, ⟨hnone, hid⟩ | hkept⟩
  · simp at hmem
  · exact Or.inl (gone_moved habsent hid hrev hnone)
  · exact Or.inr hkept

/-- **Step, the items of an event are re-read.** -/
lemma inv_found (hinv : Inv h s) {n asked : ℕ} {wanted gone : List String}
    (hn : s.calls.get? n = some ⟨.byId wanted gone asked, v⟩) (hans : s.answerable asked m)
    {items : List (Item P)} (hitems : FoundAt h m wanted items) (hm : revision s ≤ h.rev m)
    (hf : Fetched h s (wanted ++ gone) v) (habsent : Absent h s gone v) :
    Inv h { s with sync := DocumentSync.syncedIds s.sync wanted gone items v, seen := m,
                   calls := s.calls.delete n } := by
  obtain ⟨hv, hl, hasked⟩ := hinv.calls n _ hn
  obtain ⟨hcalls, hcalls'⟩ := calls_delete hn (fun hread => hread)
  have hrev := revisionOf_syncedIds (d := s.sync) wanted gone items v
  refine inv_event hinv hl ⟨rfl, rfl, loaded_syncedIds wanted gone items v⟩ hans.2 hcalls hcalls'
    hrev hv (fun id => ?_) hf
  -- the answer is no older than the event, which came before it was asked
  have hevent : max (revision s) (v.getD 0) ≤ h.rev m := by
    refine max_le hm ?_
    cases v with
    | none => exact Nat.zero_le _
    | some e => exact (hasked e rfl).trans (h.mono hans.1)
  rcases content_syncedIds (d := s.sync) gone hitems v id with
    ⟨hup, -⟩ | ⟨hw, ⟨hnone, hid⟩ | ⟨hkept, hid⟩⟩
  · exact Or.inl ⟨m, hrev.trans_le hevent, le_max_right _ _, hup⟩
  · exact Or.inl (gone_moved habsent hid hrev hnone)
  · exact Or.inr ⟨hkept, by simp [hw, hid]⟩

/-- **Step, a load is answered.** -/
lemma inv_loaded [DecidableEq P] (hinv : Inv h s) {n asked : ℕ}
    (hn : s.calls.get? n = some ⟨.loading asked, v⟩) (hans : s.answerable asked m)
    {r : ItemsSince P} (hr : FullRead h m r) (hm : revision s ≤ h.rev m) :
    Inv h { s with sync := s.sync.load r, loading := none, seen := m,
                   calls := s.calls.set n ⟨.resumed, v⟩ } := by
  have hrev : revisionOf (s.sync.load r) = h.rev m := by
    rw [revisionOf_load, hr.1]
    exact max_eq_right hm
  have hcontent : (s.sync.load r).content = h.content m :=
    content_of_fullRead hinv.ofHistory hr
  refine ⟨hans.2.2, ?_, fun _ => rfl, hcontent ▸ fromHistory_content h m, ?_, Or.inl ?_⟩
  · exact hrev.le.trans (h.mono hans.2.2)
  · intro k c hk
    have hk' : (s.calls.set n ⟨.resumed, v⟩).get? k = some c := hk
    rw [OMap.get?_set] at hk'
    split_ifs at hk'
    · cases hk'
      exact ⟨(hinv.calls n _ hn).1, rfl⟩
    · exact (hinv.calls k c hk').mono le_rfl (fun _ => rfl) (hm.trans hrev.ge) (Or.inr (Or.inr rfl))
  · exact fun _ id => ⟨m, hrev.le, le_max_right _ _, congrFun hcontent id⟩

/-- **Step, a read since a revision is answered.** -/
lemma inv_since [DecidableEq P] (hinv : Inv h s) {n q asked : ℕ}
    (hn : s.calls.get? n = some ⟨.since q asked, v⟩) (hans : s.answerable asked m)
    {r : ItemsSince P} (hr : SinceRead h q m r) (hm : revision s ≤ h.rev m) :
    Inv h { s with sync := s.sync.syncedSince r, seen := m,
                   calls := s.calls.set n ⟨.resumed, v⟩ } := by
  set s' : State P :=
    { s with sync := s.sync.syncedSince r, seen := m,
             calls := s.calls.set n ⟨.resumed, v⟩ } with hs'
  obtain ⟨hv, hl, hq⟩ := hinv.calls n _ hn
  have hrev : revision s' = h.rev m := by
    refine (revisionOf_syncedSince s.sync r).trans ?_
    rw [hr.1]
    exact max_eq_right hm
  have hloaded : s'.sync.loaded = true := (loaded_syncedSince s.sync r).trans hl
  have htop : h.rev m ≤ top h s' := le_max_right _ _
  have hor : ∀ id, s'.sync.content id = s.sync.content id ∨ s'.sync.content id = h.content m id :=
    fun id => syncedSince_or hinv.ofHistory hr id
  refine ⟨hans.2.2, ?_, fun _ => hloaded, fun id it hit => ?_, fun k c hk => ?_, ?_⟩
  · exact hrev.le.trans (h.mono hans.2.2)
  · rcases hor id with he | he
    · exact hinv.ofHistory id it (he ▸ hit)
    · exact fromHistory_content h m id it (he ▸ hit)
  · have hk' : (s.calls.set n ⟨.resumed, v⟩).get? k = some c := hk
    rw [OMap.get?_set] at hk'
    split_ifs at hk'
    · cases hk'
      exact ⟨hv, hloaded⟩
    · exact (hinv.calls k c hk').mono le_rfl (fun _ => hloaded) (hm.trans hrev.ge) (Or.inl rfl)
  · -- this read leaves the document, or another that repairs the store goes on to
    obtain ⟨k, ⟨pc, w⟩, hk, hrep⟩ := exists_repairs hinv ⟨n, _, hn, trivial⟩
    by_cases hkn : k = n
    · subst hkn
      rw [hn] at hk
      cases hk
      refine Or.inl fun _ id => ⟨m, hrev.le, htop, syncedSince_of_covered hinv.ofHistory hr ?_⟩
      obtain ⟨t, ht, htt, he⟩ := hrep id
      obtain ⟨t', ht', hrev', hsame⟩ := exists_le (htt.trans (top_le_of_answer ⟨asked, hans⟩ hm))
      exact ⟨t', ht', hrev' ▸ ht, he.trans (congrFun hsame id).symm⟩
    · refine Or.inr ⟨k, ⟨pc, w⟩, ?_, ?_⟩
      · rw [OMap.get?_set, if_neg hkn]
        exact hk
      · have hok := (hinv.calls k _ hk).2
        cases pc with
        | loading _ => trivial
        | since q' _ =>
          intro id
          rcases hor id with he | he
          · obtain ⟨t, ht, htt, hdoc⟩ := hrep id
            have htm := htt.trans (top_le_of_answer ⟨asked, hans⟩ hm)
            exact ⟨t, ht, htm.trans htop, he.trans hdoc⟩
          · exact ⟨m, hok.2.trans hm, htop, he⟩
        | checking => exact hrep.elim
        | byId _ _ _ => exact hrep.elim
        | awaiting _ => exact hrep.elim
        | resumed => exact hrep.elim

/-- **Step, an event arrives.** -/
lemma inv_syncIds (hinv : Inv h s) {n : ℕ} (hn : ∀ c, s.calls.get? n = some c → ¬ Pc.isRead c.pc)
    {ids : ChangedIds} (hv : ∀ e, ids.revision = some e → ∃ t ≤ s.now, h.rev t = e)
    (hsafe : removesOnly source s ids →
      Fetched h s ids.gone ids.revision ∧ Absent h s ids.gone ids.revision) :
    Inv h (s.syncIds source n ids) := by
  unfold State.syncIds
  simp only
  split_ifs with hrefresh hnone
  · exact inv_refresh hinv hn hv
  all_goals
    rw [not_or, not_or, Bool.not_eq_true, Bool.not_eq_false', Bool.not_eq_true,
      Bool.not_eq_false'] at hrefresh
    obtain ⟨hl, hbyId, hcount⟩ := hrefresh
  · obtain ⟨hf, habsent⟩ := hsafe ⟨hl, hbyId, hcount, hnone⟩
    exact inv_removesOnly hinv hl hv hf habsent
  · refine inv_call hinv n ⟨.byId (wanted s.sync.store ids).keys ids.gone s.now, ids.revision⟩
      s.loading (Or.inl rfl) hn ⟨hv, hl, fun e he => ?_⟩
    obtain ⟨t, ht, rfl⟩ := hv e he
    exact h.mono ht

/-- **Step**: every step keeps the invariant. -/
theorem inv_step [DecidableEq P] (hinv : Inv h s) {a : Action P} (hhonest : Honest h s a)
    (hsafe : Safe h source s a) (hstep : step source s a = some s') : Inv h s' := by
  have hfresh : ∀ n, s.calls.has n = false → ∀ c, s.calls.get? n = some c → ¬ Pc.isRead c.pc := by
    intro n hn c hc
    rw [OMap.has_eq_false_iff.mp hn] at hc
    cases hc
  cases a with
  | edit =>
    cases hstep
    exact inv_edit hinv
  | load n =>
    simp only [step, Option.ite_none_left_eq_some, Option.some.injEq, Bool.not_eq_true] at hstep
    obtain ⟨hn, rfl⟩ := hstep
    exact inv_load hinv (hfresh n hn) (by simp)
  | refresh n =>
    simp only [step, Option.ite_none_left_eq_some, Option.some.injEq, Bool.not_eq_true] at hstep
    obtain ⟨hn, rfl⟩ := hstep
    exact inv_refresh hinv (hfresh n hn) (by simp)
  | syncSince n since =>
    simp only [step, Option.ite_none_left_eq_some, Option.some.injEq, Bool.not_eq_true] at hstep
    obtain ⟨hn, rfl⟩ := hstep
    refine inv_syncSince hinv (hfresh n hn) (by simp) fun hloading hl q hq => ?_
    cases since with
    | none =>
      have hq' : s.sync.rev = some q := hq
      exact (by simp [revision, revisionOf, hq'] : q = revision s).le
    | some q' =>
      cases hq
      exact hsafe hloading hl q rfl
  | syncIds n ids =>
    simp only [step, Option.ite_none_left_eq_some, Option.some.injEq, Bool.not_eq_true] at hstep
    obtain ⟨hn, rfl⟩ := hstep
    exact inv_syncIds hinv (hfresh n hn) hhonest hsafe
  | checked n =>
    obtain ⟨v, hn, rfl⟩ := step_checked hstep
    have hnot : ∀ c, s.calls.get? n = some c → ¬ Pc.isRead c.pc := by
      intro c hc
      rw [hn] at hc
      cases hc
      exact fun hread => hread
    have hv := (hinv.calls n _ hn).1
    split_ifs
    · refine inv_syncSince hinv hnot hv fun _ _ q hq => ?_
      exact (by simp [revision, revisionOf, hq] : q = revision s).le
    · exact inv_load hinv hnot hv
  | answered n m r =>
    obtain ⟨asked, v, hn, hans, rfl⟩ | ⟨q, asked, v, hn, hans, rfl⟩ := step_answered hstep
    · exact inv_loaded hinv hn hans (hhonest.1 asked v hn) hsafe
    · exact inv_since hinv hn hans (hhonest.2 q asked v hn) hsafe
  | found n m items =>
    obtain ⟨wanted, gone, asked, v, hn, hans, rfl⟩ := step_found hstep
    obtain ⟨hf, habsent⟩ := hsafe.2 wanted gone asked v hn
    exact inv_found hinv hn hans (hhonest wanted gone asked v hn) hsafe.1 hf habsent
  | resume n =>
    obtain ⟨pc, v, hn, hpc, rfl⟩ := step_resume hstep
    have hok := (hinv.calls n _ hn).2
    obtain rfl | ⟨t, rfl, hload⟩ := hpc
    · exact inv_finish hinv hn (fun hread => hread) hok (hsafe _ hn)
    · exact inv_finish hinv hn (fun hread => hread) (hok.resolve_left hload) (hsafe _ hn)

lemma inv_new : Inv h (State.new : State P) := by
  refine ⟨le_rfl, Nat.zero_le _, fun hr => absurd rfl hr, fun id it hit => ?_, fun k c hk => ?_,
    Or.inl fun hl => ?_⟩
  · cases hit
  · cases hk
  · cases hl

/-! ### Runs -/

lemma reflects_of_quiet (hinv : Inv h s) (hquiet : s.calls.size = 0) {r : ℕ}
    (hr : s.sync.rev = some r) (id : String) :
    ∃ t ≤ s.now, r ≤ h.rev t ∧ s.sync.content id = h.content t id := by
  have hsound : Reflects h s := by
    refine hinv.sound.resolve_right ?_
    rintro ⟨k, c, hk, -⟩
    rw [OMap.size_eq_zero_iff.mp hquiet k] at hk
    cases hk
  have hrev : revision s = r := by simp [revision, revisionOf, hr]
  obtain ⟨t, ht, htt, he⟩ := hsound (hinv.loaded (by simp [hr])) id
  have hnow : h.rev t ≤ h.rev s.now :=
    htt.trans (max_le hinv.reached (h.mono hinv.seen))
  obtain ⟨t', ht', hrev', hsame⟩ := exists_le hnow
  exact ⟨t', ht', by omega, he.trans (congrFun hsame id).symm⟩

/-- **The revision is sound.** Along any run whose steps all meet the condition, whenever no
call is in flight the store holds every change of the document up to its revision, and a
later `syncSince` makes it equal to the document. -/
theorem revision_sound [DecidableEq P] (h : History P) (source : Source) (actions : List (Action P))
    (hok : Along (step source) (fun s a => Honest h s a ∧ Safe h source s a) State.new actions)
    (hrun : run (step source) State.new actions = some s) (hquiet : s.calls.size = 0) {r : ℕ}
    (hr : s.sync.rev = some r) :
    (∀ id, ∃ t ≤ s.now, r ≤ h.rev t ∧ s.sync.content id = h.content t id) ∧
    ∀ m x, s.now ≤ m → SinceRead h r m x → (s.sync.syncedSince x).content = h.content m := by
  have hinv : Inv h s := invariant_along (Inv h)
    (fun _ _ _ hinv hok hstep => inv_step hinv hok.1 hok.2 hstep) inv_new hok hrun
  refine ⟨reflects_of_quiet hinv hquiet hr, fun m x hm hx => funext fun id => ?_⟩
  obtain ⟨t, ht, hrt, he⟩ := reflects_of_quiet hinv hquiet hr id
  exact syncedSince_of_covered hinv.ofHistory hx ⟨t, ht.trans hm, hrt, he⟩

/-! ### A track widened by another client -/

/-- A track whose message is its width. -/
def track (width : ℕ) : Item ℕ := ⟨"t1", true, .KOT_PCB_TRACE, none, none, none, width⟩

def widenedRev (m : ℕ) : ℕ := if m = 0 then 1 else 2

def widenedItems (m : ℕ) : List (Item ℕ) := if m = 0 then [track 10] else [track 25]

lemma widenedRev_mono : Monotone widenedRev := by
  intro m n hmn
  unfold widenedRev
  split_ifs <;> omega

lemma widenedItems_same (m n : ℕ) (h : widenedRev m = widenedRev n) :
    widenedItems m = widenedItems n := by
  unfold widenedRev at h
  unfold widenedItems
  split_ifs at h ⊢ <;> first | rfl | omega

lemma widenedItems_unique (m : ℕ) : ((widenedItems m).map (·.id)).Nodup := by
  unfold widenedItems
  split_ifs <;> decide

lemma eq_track_of_mem {m : ℕ} {c : Item ℕ} (hc : c ∈ widenedItems m) : c = track c.proto := by
  unfold widenedItems at hc
  split_ifs at hc <;> (cases List.mem_singleton.mp hc; rfl)

lemma widenedItems_wrapped (m n : ℕ) : ∀ a ∈ widenedItems m, ∀ b ∈ widenedItems n,
    a.proto = b.proto → a = b := by
  intro a ha b hb he
  rw [eq_track_of_mem ha, eq_track_of_mem hb, he]

/-- The document at revision 1, and at revision 2 once the track was widened. -/
def widened : History ℕ where
  rev := widenedRev
  items := widenedItems
  mono := widenedRev_mono
  same := widenedItems_same
  unique := widenedItems_unique
  wrapped := widenedItems_wrapped

def full : Source := ⟨true, true⟩

/-- The full read of the first moment, and what a read since revision 2 answers at the next. -/
def read₁ : ItemsSince ℕ := { items := [track 10], deletedIds := [], revision := 1, full := true }

def read₂ : ItemsSince ℕ := { items := [], deletedIds := [], revision := 2, full := false }

def named (updated : List String) : ChangedIds := ⟨[], updated, [], some 2⟩

lemma fullRead₁ : FullRead widened 0 read₁ := ⟨rfl, rfl, List.Perm.refl _, rfl⟩

/-- A load, and an event that names the track, re-read. -/
def renamed : List (Action ℕ) :=
  [.load 1, .answered 1 0 read₁, .resume 1, .edit, .syncIds 2 (named ["t1"]),
   .found 2 1 [track 25]]

lemma renamed_along : Along (step full) (fun s a => Honest widened s a ∧ Safe widened full s a)
    State.new renamed := by
  -- no id but that of the track is in the document at all
  have hother : ∀ id, id ≠ "t1" → ∀ t, widened.content t id = none := by
    intro id hid t
    refine content_eq_none_iff.mpr (Or.inr fun hmem => ?_)
    obtain ⟨item, hitem, rfl⟩ := List.mem_map.mp hmem
    exact hid (congrArg Item.id (eq_track_of_mem hitem))
  refine along_cons rfl ⟨trivial, trivial⟩ ?_
  refine along_cons rfl ⟨⟨fun _ _ _ => fullRead₁, fun q asked v hc => ?_⟩, ?_⟩ ?_
  · have hc' : some (⟨.loading 0, none⟩ : Call) = some ⟨.since q asked, v⟩ := hc
    cases hc'
  · exact Nat.zero_le _
  refine along_cons rfl ⟨trivial, fun call hc => Or.inr fun id _ t t' h1 h2 => ?_⟩ ?_
  · have hc' : some (⟨.resumed, none⟩ : Call) = some call := hc
    cases hc'
    have h1' : 1 ≤ widened.rev t := h1
    have h2' : widened.rev t ≤ 0 := h2
    omega
  refine along_cons rfl ⟨trivial, trivial⟩ ?_
  refine along_cons rfl ⟨fun e he => ?_, fun hremoves => ?_⟩ ?_
  · cases he
    exact ⟨1, le_rfl, rfl⟩
  · exact absurd hremoves.2.2.2 (by decide)
  refine along_cons rfl
    ⟨fun wanted gone asked v hc => ?_, ?_, fun wanted gone asked v hc => ?_⟩ trivial
  all_goals try
    have hc' : some (⟨.byId ["t1"] [] 1, some 2⟩ : Call) = some ⟨.byId wanted gone asked, v⟩ := hc
    cases hc'
  · exact ⟨by decide, by decide⟩
  · decide
  · refine ⟨Or.inr fun id hid t t' _ _ _ _ => ?_, fun id hid => by cases hid⟩
    have hne : id ≠ "t1" := by simpa using hid
    rw [hother id hne, hother id hne]

/-- The store holds the widened track at revision 2. -/
theorem revision_sound_renamed :
    ∃ s, run (step full) State.new renamed = some s ∧
      (∀ id, ∃ t ≤ s.now, 2 ≤ widened.rev t ∧ s.sync.content id = widened.content t id) ∧
      ∀ m x, s.now ≤ m → SinceRead widened 2 m x →
        (s.sync.syncedSince x).content = widened.content m :=
  ⟨_, rfl, revision_sound widened full renamed renamed_along rfl (by decide) rfl⟩

/-- An event without ids during a load that was answered before it: the call for the event
awaits that load and then sets the revision of the event. -/
def overtaken : List (Action ℕ) :=
  [.load 1, .edit, .syncIds 2 (named []), .answered 1 0 read₁, .resume 1, .resume 2]

/-- The store is left at revision 2 with the track of revision 1, and a `syncSince` then brings
nothing. -/
theorem event_during_load_lost :
    Along (step full) (Honest widened) State.new overtaken ∧
    ∃ s, run (step full) State.new overtaken = some s ∧ s.calls.size = 0 ∧
      s.sync.rev = some 2 ∧
      ¬ (∀ id, ∃ t ≤ s.now, 2 ≤ widened.rev t ∧ s.sync.content id = widened.content t id) ∧
      SinceRead widened 2 1 read₂ ∧ (s.sync.syncedSince read₂).content ≠ widened.content 1 := by
  refine ⟨?_, _, rfl, by decide, by decide, fun hall => ?_, ⟨rfl, Or.inr ?_⟩, fun heq => ?_⟩
  · refine along_cons rfl trivial (along_cons rfl trivial (along_cons rfl (fun e he => ?_) ?_))
    · cases he
      exact ⟨1, le_rfl, rfl⟩
    · refine along_cons rfl ⟨fun _ _ _ => fullRead₁, fun q asked v hc => ?_⟩
        (along_cons rfl trivial (along_cons rfl trivial trivial))
      have hc' : some (⟨.loading 0, none⟩ : Call) = some ⟨.since q asked, v⟩ := hc
      cases hc'
  · obtain ⟨t, -, ht, he⟩ := hall "t1"
    have hne : t ≠ 0 := by
      rintro rfl
      exact absurd ht (by decide)
    have hcontent : widened.content t = widened.content 1 :=
      content_congr (show widenedRev t = widenedRev 1 by simp [widenedRev, hne])
    rw [hcontent] at he
    revert he
    decide
  · refine ⟨rfl, fun item hitem => (List.not_mem_nil hitem).elim,
      fun t ht hrev item hitem hno => ?_, ?_, fun id hid => (List.not_mem_nil hid).elim⟩
    · have ht1 : t = 1 := by
        rcases t with _ | t
        · exact absurd hrev (by decide)
        · omega
      exact absurd (ht1 ▸ hitem) hno
    · intro t ht hrev id hid hno
      have ht1 : t = 1 := by
        rcases t with _ | t
        · exact absurd hrev (by decide)
        · omega
      exact absurd (ht1 ▸ hid) hno
  · have ht := congrFun heq "t1"
    revert ht
    decide

end FabPcb.Revision
