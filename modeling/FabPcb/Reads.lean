import FabPcb.Runs
import FabPcb.Sync

/-!
`load`, `refresh`, `syncSince` and `syncIds` of a `DocumentSync`, as calls in flight.

At most one load is in flight; every read asked meanwhile awaits it. A refresh first awaits
the capability check, reads await their answer, and a call is over once what stands behind
its last `await` has run. Calls, answers and edits of the document come in any order.
-/

namespace FabPcb.Reads

open OrderedMap Items ItemStore Document Sync Runs

variable {P : Type*}

/-! ### What a `DocumentChanged` event names -/

/-- `ChangedIds`; a list left out is the empty list. -/
structure ChangedIds where
  created : List String
  updated : List String
  deleted : List String
  revision : Option ℕ

/-- An id listed as deleted and as created or updated is an update. -/
def ChangedIds.gone (ids : ChangedIds) : List String :=
  ids.deleted.filter fun id => id ∉ ids.created ++ ids.updated

/-- `wanted`: the ids created or updated, the children the store holds for them, in the order
of the store, and none of those gone. -/
def wanted (store : MemoryItemStore P) (ids : ChangedIds) : OSet String :=
  let named : OSet String := OMap.ofList ((ids.created ++ ids.updated).map fun id => (id, ()))
  let family := store.all.foldl (fun wanted it =>
    match truthy it.parent with
    | some parent => if wanted.has parent then wanted.set it.id () else wanted
    | none => wanted) named
  ids.gone.foldl OMap.delete family

/-- What `syncIds` does with the items it re-read. -/
def DocumentSync.syncedIds (d : DocumentSync P) (wanted gone : List String) (items : List (Item P))
    (revision : Option ℕ) : DocumentSync P :=
  let stored := storedItems items
  let found := stored.map (·.id)
  let removed := gone ++ wanted.filter fun id => id ∉ found ∧ d.store.has id
  { d with store := (d.store.apply { updated := stored, removed }).1 }.setRevision revision

/-! ### Calls in flight -/

/-- What the source can do: `getItemsById`, and the answer of `supportsIncrementalSync`. -/
structure Source where
  byId : Bool
  incremental : Bool

/-- Where a call stands. Requests remember the moment they were sent at. -/
inductive Pc where
  | checking
  | loading (asked : ℕ)
  | since (revision asked : ℕ)
  | byId (wanted gone : List String) (asked : ℕ)
  | awaiting (load : ℕ)
  | resumed
  deriving DecidableEq

/-- A call; an event without ids sets its revision once its refresh is done. -/
structure Call where
  pc : Pc
  revision : Option ℕ
  deriving DecidableEq

/-- The sync and its calls in flight; `now` is the moment of the server and `seen` that of the
last answer. -/
structure State (P : Type*) where
  sync : DocumentSync P
  loading : Option ℕ
  calls : OMap ℕ Call
  now : ℕ
  seen : ℕ

def State.new : State P := ⟨DocumentSync.new, none, OMap.empty, 0, 0⟩

/-- `load`. -/
def State.load (s : State P) (n : ℕ) (revision : Option ℕ) : State P :=
  match s.loading with
  | some t => { s with calls := s.calls.set n ⟨.awaiting t, revision⟩ }
  | none => { s with loading := some n, calls := s.calls.set n ⟨.loading s.now, revision⟩ }

/-- `syncSince(since)`. -/
def State.syncSince (s : State P) (n : ℕ) (since revision : Option ℕ) : State P :=
  match s.loading with
  | some t => { s with calls := s.calls.set n ⟨.awaiting t, revision⟩ }
  | none =>
    match s.sync.loaded, since with
    | true, some since => { s with calls := s.calls.set n ⟨.since since s.now, revision⟩ }
    | _, _ => s.load n revision

/-- `refresh`, up to its first `await`. -/
def State.refresh (s : State P) (n : ℕ) (revision : Option ℕ) : State P :=
  if s.sync.loaded ∧ s.sync.rev.isSome then { s with calls := s.calls.set n ⟨.checking, revision⟩ }
  else s.load n revision

/-- `syncIds`, up to its first `await`; one that has only ids to remove is done at once. -/
def State.syncIds (source : Source) (s : State P) (n : ℕ) (ids : ChangedIds) : State P :=
  if !s.sync.loaded ∨ !source.byId ∨
      ids.created.length + ids.updated.length + ids.deleted.length = 0 then
    s.refresh n ids.revision
  else
    let wanted := (wanted s.sync.store ids).keys
    if wanted = [] then
      { s with sync := DocumentSync.syncedIds s.sync [] ids.gone [] ids.revision }
    else { s with calls := s.calls.set n ⟨.byId wanted ids.gone s.now, ids.revision⟩ }

inductive Action (P : Type*) where
  | edit
  | load (n : ℕ)
  | refresh (n : ℕ)
  | syncSince (n : ℕ) (revision : Option ℕ)
  | syncIds (n : ℕ) (ids : ChangedIds)
  /-- The capability check of a refresh resolves. -/
  | checked (n : ℕ)
  /-- A load or a `syncSince` is answered from the state of a moment. -/
  | answered (n m : ℕ) (r : ItemsSince P)
  /-- So is a `getItemsById`. -/
  | found (n m : ℕ) (items : List (Item P))
  /-- What stands behind the last `await` of a call runs. -/
  | resume (n : ℕ)

/-- Requests are answered in order, and none before it is sent. -/
def State.answerable (s : State P) (asked m : ℕ) : Prop := asked ≤ m ∧ s.seen ≤ m ∧ m ≤ s.now

instance (s : State P) (asked m : ℕ) : Decidable (s.answerable asked m) :=
  inferInstanceAs (Decidable (_ ∧ _))

/-- The end of a call. -/
def State.finish (s : State P) (n : ℕ) (revision : Option ℕ) : State P :=
  { s with sync := s.sync.setRevision revision, calls := s.calls.delete n }

def step [DecidableEq P] (source : Source) (s : State P) : Action P → Option (State P)
  | .edit => some { s with now := s.now + 1 }
  | .load n => if s.calls.has n then none else some (s.load n none)
  | .refresh n => if s.calls.has n then none else some (s.refresh n none)
  | .syncSince n revision =>
    if s.calls.has n then none else some (s.syncSince n (revision.or s.sync.rev) none)
  | .syncIds n ids => if s.calls.has n then none else some (s.syncIds source n ids)
  | .checked n =>
    match s.calls.get? n with
    | some ⟨.checking, revision⟩ =>
      some (if source.incremental then s.syncSince n s.sync.rev revision else s.load n revision)
    | _ => none
  | .answered n m r =>
    match s.calls.get? n with
    | some ⟨.loading asked, revision⟩ =>
      if s.answerable asked m then
        some { s with sync := s.sync.load r, loading := none, seen := m,
                      calls := s.calls.set n ⟨.resumed, revision⟩ }
      else none
    | some ⟨.since _ asked, revision⟩ =>
      if s.answerable asked m then
        some { s with sync := s.sync.syncedSince r, seen := m,
                      calls := s.calls.set n ⟨.resumed, revision⟩ }
      else none
    | _ => none
  | .found n m items =>
    match s.calls.get? n with
    | some ⟨.byId wanted gone asked, revision⟩ =>
      if s.answerable asked m then
        some { s with sync := DocumentSync.syncedIds s.sync wanted gone items revision, seen := m,
                      calls := s.calls.delete n }
      else none
    | _ => none
  | .resume n =>
    match s.calls.get? n with
    | some ⟨.resumed, revision⟩ => some (s.finish n revision)
    | some ⟨.awaiting t, revision⟩ =>
      if s.loading = some t then none else some (s.finish n revision)
    | _ => none

/-! ### What the steps of a call in flight are -/

variable [DecidableEq P] {source : Source} {s s' : State P} {n m : ℕ}

lemma step_checked (h : step source s (.checked n) = some s') :
    ∃ revision, s.calls.get? n = some ⟨.checking, revision⟩ ∧
      s' = if source.incremental then s.syncSince n s.sync.rev revision else s.load n revision := by
  simp only [step] at h
  split at h
  · exact ⟨_, ‹_›, (Option.some.inj h).symm⟩
  · cases h

lemma step_answered {r : ItemsSince P} (h : step source s (.answered n m r) = some s') :
    (∃ asked revision, s.calls.get? n = some ⟨.loading asked, revision⟩ ∧ s.answerable asked m ∧
      s' = { s with sync := s.sync.load r, loading := none, seen := m,
                    calls := s.calls.set n ⟨.resumed, revision⟩ }) ∨
    ∃ q asked revision, s.calls.get? n = some ⟨.since q asked, revision⟩ ∧ s.answerable asked m ∧
      s' = { s with sync := s.sync.syncedSince r, seen := m,
                    calls := s.calls.set n ⟨.resumed, revision⟩ } := by
  simp only [step] at h
  split at h
  · split_ifs at h with hans
    exact Or.inl ⟨_, _, ‹_›, hans, (Option.some.inj h).symm⟩
  · split_ifs at h with hans
    exact Or.inr ⟨_, _, _, ‹_›, hans, (Option.some.inj h).symm⟩
  · cases h

lemma step_found {items : List (Item P)} (h : step source s (.found n m items) = some s') :
    ∃ wanted gone asked revision, s.calls.get? n = some ⟨.byId wanted gone asked, revision⟩ ∧
      s.answerable asked m ∧
      s' = { s with sync := DocumentSync.syncedIds s.sync wanted gone items revision, seen := m,
                    calls := s.calls.delete n } := by
  simp only [step] at h
  split at h
  · split_ifs at h with hans
    exact ⟨_, _, _, _, ‹_›, hans, (Option.some.inj h).symm⟩
  · cases h

lemma step_resume (h : step source s (.resume n) = some s') :
    ∃ pc revision, s.calls.get? n = some ⟨pc, revision⟩ ∧
      (pc = .resumed ∨ ∃ t, pc = .awaiting t ∧ s.loading ≠ some t) ∧ s' = s.finish n revision := by
  simp only [step] at h
  split at h
  · exact ⟨_, _, ‹_›, Or.inl rfl, (Option.some.inj h).symm⟩
  · split_ifs at h with hload
    exact ⟨_, _, ‹_›, Or.inr ⟨_, rfl, hload⟩, (Option.some.inj h).symm⟩
  · cases h

end FabPcb.Reads
