import FabPcb.JobRules

/-!
The clean-up of a route job ends.

With a server that answers every request, creates the items of a commit in their order and undoes the
commit that it has just made, a turn that is not the last one takes at least one item off the result,
or marks one more existing item. What the turns still have to lose is less than their number.
-/

namespace FabPcb.CleanupConvergence

open Dialogue OrderedMap RouteJob RouteJob.Job RouteWorld
open JobRules

/-! ### What is kept of a result -/

variable {rejected : ℕ → Bool} {tracks : List NewTrack} {vias : List NewVia} {items : List Item}

/-- The tracks that are created, with their items. -/
def createdTracks (tracks : List NewTrack) (items : List Item) : List (NewTrack × Item) :=
  (tracks.filter (!·.isEmpty)).zip items

lemma keptTracks_eq (h : (tracks.filter (!·.isEmpty)).length ≤ items.length) :
    keptTracks rejected tracks items =
      (((createdTracks tracks items).filter fun p => !rejected p.2.id).map (·.1),
        items.drop (tracks.filter (!·.isEmpty)).length) := by
  induction tracks generalizing items with
  | nil => rfl
  | cons t ts ih =>
    rw [keptTracks]
    cases ht : t.isEmpty with
    | true =>
      rw [List.filter_cons_of_neg (by simp [ht])] at h
      rw [if_pos rfl, ih h, createdTracks, createdTracks, List.filter_cons_of_neg (by simp [ht])]
    | false =>
      rw [List.filter_cons_of_pos (by simp [ht])] at h
      cases items with
      | nil => cases h
      | cons item items =>
        have hfirst : createdTracks (t :: ts) (item :: items) = (t, item) :: createdTracks ts items := by
          rw [createdTracks, List.filter_cons_of_pos (by simp [ht]), List.zip_cons_cons]
          rfl
        rw [if_neg (by decide), List.tail_cons, ih (Nat.le_of_succ_le_succ h), hfirst,
          List.filter_cons_of_pos (a := t) (by simp [ht])]
        cases hr : rejected item.id with
        | true =>
          rw [List.filter_cons_of_neg (by simp [hr])]
          simp [hr]
        | false =>
          rw [List.filter_cons_of_pos (a := (t, item)) (by simp [hr])]
          simp [hr]

lemma keptVias_eq (h : vias.length ≤ items.length) :
    keptVias rejected vias items =
      ((vias.zip items).filter fun p => !rejected p.2.id).map (·.1) := by
  induction vias generalizing items with
  | nil => rfl
  | cons v vs ih =>
    cases items with
    | nil => cases h
    | cons item items =>
      rw [keptVias, List.tail_cons, ih (Nat.le_of_succ_le_succ h), List.zip_cons_cons]
      cases hr : rejected item.id with
      | true =>
        rw [List.filter_cons_of_neg (by simp [hr])]
        simp [hr]
      | false =>
        rw [List.filter_cons_of_pos (by simp [hr])]
        simp [hr]

lemma length_kept {α : Type} {xs : List α} (h : xs.length ≤ items.length) :
    (((xs.zip items).filter fun p => !rejected p.2.id).map (·.1)).length =
      ((items.take xs.length).filter fun item => !rejected item.id).length := by
  induction xs generalizing items with
  | nil => rfl
  | cons x xs ih =>
    cases items with
    | nil => cases h
    | cons item items =>
      have hrest := ih (Nat.le_of_succ_le_succ h)
      rw [List.length_map] at hrest ⊢
      rw [List.zip_cons_cons, List.length_cons, List.take_succ_cons]
      cases hr : rejected item.id with
      | true =>
        rw [List.filter_cons_of_neg (by simp [hr]), List.filter_cons_of_neg (by simp [hr]), hrest]
      | false =>
        rw [List.filter_cons_of_pos (by simp [hr]), List.filter_cons_of_pos (by simp [hr]),
          List.length_cons, List.length_cons, hrest]

lemma length_filter_lt {α : Type} {p q : α → Bool} {xs : List α} (hle : ∀ x ∈ xs, q x = true → p x = true)
    {x : α} (hx : x ∈ xs) (hp : p x = true) (hq : q x = false) :
    (xs.filter q).length < (xs.filter p).length := by
  have hsub : xs.filter q = (xs.filter p).filter q := by
    rw [List.filter_filter]
    refine List.filter_congr fun y hy => ?_
    cases hqy : q y with
    | true => rw [hle y hy hqy, Bool.and_self]
    | false => rw [Bool.false_and]
  rw [hsub, List.length_filter_lt_length_iff_exists]
  exact ⟨x, List.mem_filter.mpr ⟨hx, hp⟩, by simp [hq]⟩

/-! ### A server that does as it is asked -/

/-- A board with what a turn has learnt: the items that the commit created, and those that the checks
have found dangling. -/
structure Turn where
  board : Board
  created : List Item
  dangling : List ℕ

def Succeeds : Choice → Prop
  | .fail _ => False
  | .lost _ _ => False
  | _ => True

def learnt (s : Turn) (board : Board) : (q : Request) → Except Failure (Reply q) → Turn
  | .commit _, .ok committed => ⟨board, CommitResult.created committed, s.dangling⟩
  | .runDrc, .ok markers => ⟨board, s.created, danglingIds markers⟩
  | _, _ => ⟨board, s.created, s.dangling⟩

/-- Every request succeeds, every commit leaves an entry, and nobody else is there. -/
def cooperative (party : Party) : Contract RouteJobInfo Request Answer Turn where
  permits _ _ _ := True
  replies s _ q r s' := ∃ choice board events,
    serve true party s.board q choice = some (board, r.1, events) ∧ Succeeds choice ∧
      s' = learnt s board q r.1

variable {party : Party} {l : Locals} {s s' : Turn}

lemma claimedItem_nil {result : RouteResult} (h : result.claimedVias = []) (xs : List Item) :
    xs.filterMap (claimedItem result) = [] := by
  refine List.filterMap_eq_nil_iff.mpr fun item _ => ?_
  unfold claimedItem claims
  rw [h]
  split <;> rfl

/-- It does not fail. -/
def Surely {α : Type} (P : α → Turn → Prop) : Except JobError α → Locals → Turn → Prop :=
  fun r _ s => ∃ a, r = .ok a ∧ P a s

section Surely

variable {α β : Type} {P : α → Turn → Prop} {R : β → Turn → Prop}

lemma surely_pure {a : α} (h : P a s) : Meets (cooperative party) (Surely P) (pure a) l s :=
  ⟨a, rfl, h⟩

lemma surely_bind {m : Job α} {f : α → Job β} (hm : Meets (cooperative party) (Surely P) m l s)
    (hf : ∀ a l s, P a s → Meets (cooperative party) (Surely R) (f a) l s) :
    Meets (cooperative party) (Surely R) (m >>= f) l s := by
  refine meets_bind.mpr (hm.mono ?_)
  rintro r l s ⟨a, rfl, h⟩
  exact hf a l s h

lemma surely_ask {q : Request} {P : Reply q → Turn → Prop}
    (h : ∀ choice served, Succeeds choice → serve true party s.board q choice = some served →
      ∃ a, served.2.1 = .ok a ∧ P a (learnt s served.1 q (.ok a))) :
    Meets (cooperative party) (Surely P) (ask q) l s := by
  refine meets_ask.mpr ⟨trivial, ?_, ?_⟩
  · rintro a aborted s' ⟨choice, board, events, hserve, hok, rfl⟩
    obtain ⟨a', heq, hP⟩ := h choice _ hok hserve
    cases heq
    exact ⟨a, rfl, hP⟩
  · rintro f aborted s' ⟨choice, board, events, hserve, hok, -⟩
    obtain ⟨a', heq, -⟩ := h choice _ hok hserve
    cases heq

end Surely

lemma surely_plain {q : Request} (hq : isPlain q = true) :
    Meets (cooperative party) (Surely fun a s' => s' = learnt s s.board q (.ok a)) (ask q) l s := by
  refine surely_ask fun choice served hok hserve => ?_
  obtain ⟨hboard, -, hreply | ⟨f, rfl⟩⟩ := serve_plain hq hserve
  · cases hr : served.2.1 with
    | ok a => exact ⟨a, rfl, by rw [hboard]⟩
    | error f =>
      rw [hr] at hreply
      cases hreply
  · cases hok

lemma surely_getTracks :
    Meets (cooperative party) (Surely fun items s' => items = s.board.items ∧ s' = s)
      (ask .getTracks) l s := by
  refine surely_ask (q := .getTracks) fun choice served hok hserve => ?_
  cases choice with
  | ok =>
    cases hserve
    exact ⟨_, rfl, rfl, rfl⟩
  | fail f => cases hok
  | _ => cases hserve

lemma surely_claimed (result : RouteResult) :
    Meets (cooperative party)
      (Surely fun claimed s' => claimed = s.board.items.filterMap (claimedItem result) ∧ s' = s)
      (claimedViaItems result) l s := by
  unfold claimedViaItems
  split
  next h => exact surely_pure ⟨(claimedItem_nil h _).symm, rfl⟩
  · refine surely_bind surely_getTracks ?_
    rintro items l s' ⟨rfl, rfl⟩
    exact surely_pure ⟨rfl, rfl⟩

/-- The change that applies a result. -/
def changeOf (c : Cleanup) (items : List Item) : Change :=
  ⟨c.message, c.removedExistingCopper.keys, itemsFor c.result,
    items.filterMap (claimedItem c.result)⟩

lemma surely_commit (change : Change) :
    Meets (cooperative party) (Surely fun committed s' =>
      CommitResult.created committed = created s.board.nextItem change.create ∧
        s' = ⟨s.board.commit true change, CommitResult.created committed, s.dangling⟩)
      (ask (.commit change)) l s := by
  refine surely_ask (q := .commit change) fun choice served hok hserve => ?_
  obtain ⟨f, rfl, -⟩ | ⟨hboard, -, hreply | ⟨f, imported, rfl, -⟩⟩ := serve_commit hserve
  · cases hok
  · exact ⟨_, hreply, rfl, by rw [hboard]; rfl⟩
  · cases hok

lemma surely_apply (c : Cleanup) :
    Meets (cooperative party) (Surely fun committed s' =>
      CommitResult.created committed = created s.board.nextItem (itemsFor c.result) ∧
        s' = ⟨s.board.commit true (changeOf c s.board.items), CommitResult.created committed,
          s.dangling⟩) c.apply l s := by
  refine surely_bind (surely_claimed c.result) ?_
  rintro claimed l s' ⟨rfl, rfl⟩
  exact surely_commit (changeOf c s'.board.items)

lemma surely_undo :
    Meets (cooperative party) (Surely fun undone s' => undone = min 1 s.board.undoStack.length ∧
      s' = ⟨s.board.undo, s.created, s.dangling⟩) (ask .undo) l s := by
  refine surely_ask (q := .undo) fun choice served hok hserve => ?_
  obtain ⟨f, rfl, -⟩ | ⟨hboard, -, hreply | ⟨f, imported, rfl, -⟩⟩ := serve_undo hserve
  · cases hok
  · exact ⟨_, hreply, rfl, by rw [hboard]; rfl⟩
  · cases hok

lemma surely_require {ok : Bool} {e : JobError} (h : ok = true) :
    Meets (cooperative party) (Surely fun _ s' => s' = s) (require ok e) l s := by
  rw [h]
  exact surely_pure rfl

lemma surely_revert {α : Type} {P : α → Turn → Prop} {b : Board} {change : Change} {e : JobError}
    {m : Job α} (hs : s.board = b.commit true change)
    (h : ∀ l s', s'.board.items = b.items → s'.created = s.created → s'.dangling = s.dangling →
      Meets (cooperative party) (Surely P) m l s') :
    Meets (cooperative party) (Surely P)
      (ask .undo >>= fun undone : ℕ => require (decide (undone = 1)) e >>= fun _ => m) l s := by
  refine surely_bind surely_undo ?_
  rintro undone l s' ⟨rfl, rfl⟩
  have hone : min 1 s.board.undoStack.length = 1 := by
    rw [hs]
    exact Nat.min_eq_left (Nat.le_add_left 1 _)
  refine surely_bind (surely_require (decide_eq_true hone)) ?_
  rintro _ l s' rfl
  exact h l _ (by rw [hs]; rfl) rfl rfl

/-! ### Turns -/

/-- The board's copper once a result has been applied: without the marked items, with the claimed vias
on their nets, and with the items of the result. -/
def appliedTo (orig : List Item) (c : Cleanup) (n : ℕ) : List Item :=
  (orig.filter (·.id ∉ c.removedExistingCopper.keys)).map
    (updated (orig.filterMap (claimedItem c.result))) ++ created n (itemsFor c.result)

/-- What a turn that is undone makes of a clean-up. -/
structure Advances (scope : Scope) (c c' : Cleanup) (s : Turn) : Prop where
  /-- There is an item for each track that is not empty and each via, in their order. -/
  created : s.created.map (·.toNewItem) = itemsFor c.result
  result : c'.result = { c.result with tracks := c'.result.tracks, vias := c'.result.vias }
  /-- The tracks whose items were not reported, without the empty ones. -/
  tracks : c'.result.tracks =
    ((createdTracks c.result.tracks s.created).filter fun p => p.2.id ∉ s.dangling).map (·.1)
  vias : c'.result.vias = ((c.result.vias.zip
    (s.created.drop (c.result.tracks.filter (!·.isEmpty)).length)).filter
      fun p => p.2.id ∉ s.dangling).map (·.1)
  /-- The existing items that were reported and can be removed are marked. -/
  marked : ∀ id, c'.removedExistingCopper.has id = true ↔ c.removedExistingCopper.has id = true ∨
    (id ∈ s.dangling ∧ scope.removableExisting.has id = true)
  progress : (∃ item ∈ s.created, item.id ∈ s.dangling) ∨
    ∃ id ∈ s.dangling, scope.removableExisting.has id = true ∧
      c.removedExistingCopper.has id = false
  applied : c'.applied = c.applied

/-- The existing items that are not marked yet. -/
def pending (scope : Scope) (c : Cleanup) : List ℕ :=
  scope.removableExisting.keys.filter fun id => !c.removedExistingCopper.has id

/-- What the turns still have to lose. -/
def left (scope : Scope) (c : Cleanup) : ℕ := c.result.size + (pending scope c).length

variable {scope : Scope} {c c' : Cleanup} {created : List Item} {dangling : List ℕ}

lemma itemsFor_length (result : RouteResult) :
    (itemsFor result).length =
      (result.tracks.filter (!·.isEmpty)).length + result.vias.length := by
  rw [itemsFor, List.length_append, List.length_map, List.length_map]

lemma mem_rejectedIds {id : ℕ} (h : id ∈ created.map (·.id)) :
    id ∈ rejectedIds created dangling ↔ id ∈ dangling := by
  rw [rejectedIds, List.mem_filter]
  exact and_iff_left (by simpa using h)

lemma mem_existingIds {id : ℕ} : id ∈ existingIds scope c dangling ↔
    id ∈ dangling ∧ scope.removableExisting.has id = true ∧
      c.removedExistingCopper.has id = false := by
  rw [existingIds, List.mem_filter, Bool.and_eq_true, Bool.not_eq_true']

lemma has_foldl_set {ids : List ℕ} {removed : OMap ℕ String} {text : ℕ → String} {id : ℕ} :
    (ids.foldl (fun removed id => removed.set id (text id)) removed).has id = true ↔
      removed.has id = true ∨ id ∈ ids := by
  induction ids generalizing removed with
  | nil => simp
  | cons x xs ih =>
    rw [List.foldl_cons, ih, OMap.has_set, List.mem_cons, Bool.or_eq_true, decide_eq_true_iff]
    tauto

/-- What the reading of a result by its created items gives. -/
lemma without_eq {result : RouteResult} (h : created.map (·.toNewItem) = itemsFor result) :
    withoutRejectedCreatedCopper result created (· ∈ rejectedIds created dangling) =
      { result with
        tracks := ((createdTracks result.tracks created).filter fun p => p.2.id ∉ dangling).map (·.1)
        vias := ((result.vias.zip
          (created.drop (result.tracks.filter (!·.isEmpty)).length)).filter
            fun p => p.2.id ∉ dangling).map (·.1) } := by
  have hlength : created.length =
      (result.tracks.filter (!·.isEmpty)).length + result.vias.length := by
    rw [← itemsFor_length, ← h, List.length_map]
  have hsame : ∀ {α : Type} {ps : List (α × Item)}, (∀ p ∈ ps, p.2 ∈ created) →
      (ps.filter fun p => !decide (p.2.id ∈ rejectedIds created dangling)) =
        ps.filter fun p => decide (p.2.id ∉ dangling) := by
    intro α ps hps
    refine List.filter_congr fun p hp => ?_
    rw [decide_not]
    exact congrArg _ (decide_eq_decide.mpr (mem_rejectedIds (List.mem_map_of_mem (hps p hp))))
  have htracks := @keptTracks_eq (· ∈ rejectedIds created dangling) result.tracks created (by omega)
  have hvias := @keptVias_eq (· ∈ rejectedIds created dangling) result.vias
    (created.drop (result.tracks.filter (!·.isEmpty)).length) (by rw [List.length_drop]; omega)
  have hfirst := hsame fun p (hp : p ∈ createdTracks result.tracks created) =>
    (List.of_mem_zip hp).2
  have hsecond := hsame fun p (hp : p ∈ result.vias.zip
    (created.drop (result.tracks.filter (!·.isEmpty)).length)) =>
      List.mem_of_mem_drop (List.of_mem_zip hp).2
  rw [withoutRejectedCreatedCopper, htracks, hvias, hfirst, hsecond]

/-- What is left of a result is as much as there is created copper that was not reported. -/
lemma size_without {result : RouteResult} (h : created.map (·.toNewItem) = itemsFor result) :
    (withoutRejectedCreatedCopper result created (· ∈ rejectedIds created dangling)).size =
      (created.filter fun item => decide (item.id ∉ dangling)).length := by
  have hlength : created.length =
      (result.tracks.filter (!·.isEmpty)).length + result.vias.length := by
    rw [← itemsFor_length, ← h, List.length_map]
  have hnot : ∀ id, decide (id ∉ dangling) = !decide (id ∈ dangling) := fun id => decide_not
  have htracks := @length_kept (· ∈ dangling) created _ (result.tracks.filter (!·.isEmpty))
    (by omega)
  have hvias := @length_kept (· ∈ dangling)
    (created.drop (result.tracks.filter (!·.isEmpty)).length) _ result.vias
    (by rw [List.length_drop]; omega)
  rw [List.take_of_length_le (by rw [List.length_drop]; omega)] at hvias
  rw [without_eq h]
  simp only [RouteResult.size, createdTracks, hnot]
  rw [htracks, hvias, ← List.length_append, ← List.filter_append, List.take_append_drop]

lemma size_without_le {result : RouteResult} (h : created.map (·.toNewItem) = itemsFor result) :
    created.length ≤ result.size := by
  rw [← List.length_map (f := (·.toNewItem)), h, itemsFor_length]
  exact Nat.add_le_add_right (List.length_filter_le _ _) _

/-- **Turn.** A turn that is undone has something to undo it for, and leaves less. -/
lemma reject_advances (h : created.map (·.toNewItem) = itemsFor c.result)
    (hsome : ¬ (rejectedIds created dangling = [] ∧ existingIds scope c dangling = [])) :
    let c' := c.reject scope created (rejectedIds created dangling) (existingIds scope c dangling)
    (∀ board, Advances scope c c' ⟨board, created, dangling⟩) ∧ left scope c' < left scope c ∧
      (c.result.size - c'.result.size ≠ 0 ∨ existingIds scope c dangling ≠ []) := by
  intro c'
  have hresult : c'.result =
      withoutRejectedCreatedCopper c.result created (· ∈ rejectedIds created dangling) := rfl
  have hmarked : ∀ id, c'.removedExistingCopper.has id = true ↔
      c.removedExistingCopper.has id = true ∨ id ∈ existingIds scope c dangling :=
    fun id => has_foldl_set
  have hsize : c'.result.size ≤ created.length := by
    rw [hresult, size_without h]
    exact List.length_filter_le _ _
  have hle := size_without_le h
  have hpending : ∀ id, (!c'.removedExistingCopper.has id) = true →
      (!c.removedExistingCopper.has id) = true := by
    intro id hid
    rw [Bool.not_eq_true'] at hid ⊢
    refine Bool.eq_false_iff.mpr fun hmark => Bool.eq_false_iff.mp hid ?_
    exact (hmarked id).mpr (Or.inl hmark)
  have hpendingLe : (pending scope c').length ≤ (pending scope c).length :=
    (List.monotone_filter_right _ hpending).length_le
  have hprogress : (∃ item ∈ created, item.id ∈ dangling) ∨
      ∃ id ∈ dangling, scope.removableExisting.has id = true ∧
        c.removedExistingCopper.has id = false := by
    by_cases hrejected : rejectedIds created dangling = []
    · obtain ⟨id, hid⟩ := List.exists_mem_of_ne_nil _ fun hnil => hsome ⟨hrejected, hnil⟩
      exact Or.inr ⟨id, mem_existingIds.mp hid⟩
    · obtain ⟨id, hid⟩ := List.exists_mem_of_ne_nil _ hrejected
      obtain ⟨hdangling, hcreated⟩ := List.mem_filter.mp hid
      obtain ⟨item, hitem, rfl⟩ := List.mem_map.mp (of_decide_eq_true hcreated)
      exact Or.inl ⟨item, hitem, hdangling⟩
  refine ⟨?_, ?_⟩
  · refine fun board => ⟨h, ?_, ?_, ?_, ?_, hprogress, rfl⟩
    · rw [hresult, without_eq h]
    · rw [hresult, without_eq h]
    · rw [hresult, without_eq h]
    · intro id
      rw [hmarked, mem_existingIds]
      cases c.removedExistingCopper.has id <;> simp
  · rcases hprogress with ⟨item, hitem, hid⟩ | ⟨id, hid, hremovable, hnot⟩
    · have hlt : c'.result.size < created.length := by
        rw [hresult, size_without h, List.length_filter_lt_length_iff_exists]
        exact ⟨item, hitem, by simpa using hid⟩
      exact ⟨by unfold left; omega, Or.inl (by omega)⟩
    · have hmem : id ∈ existingIds scope c dangling := mem_existingIds.mpr ⟨hid, hremovable, hnot⟩
      have hlt : (pending scope c').length < (pending scope c).length := by
        refine length_filter_lt (fun id _ => hpending id) (OMap.mem_keys_iff_has.mpr hremovable) (by simp [hnot]) ?_
        rw [(hmarked id).mpr (Or.inr hmem)]
        rfl
      exact ⟨by unfold left; omega, Or.inr (List.ne_nil_of_mem hmem)⟩

/-- How a clean-up stands on a board that held `orig` before it. -/
def Stands (orig : List Item) (c : Cleanup) (s : Turn) : Prop :=
  if c.applied then ∃ n, s.board.items = appliedTo orig c n else s.board.items = orig

lemma surely_relabelTo {b : Board} (hs : s.board = b.commit true (changeOf c b.items))
    (message : String) :
    Meets (cooperative party)
      (Surely fun c' s' => Stands b.items { c' with applied := true } s') (relabelTo c message)
      l s := by
  unfold relabelTo
  split
  · exact surely_pure ⟨b.nextItem, by rw [hs]; rfl⟩
  refine surely_revert hs fun l s' hitems _ _ => ?_
  refine surely_bind (surely_apply _) ?_
  rintro committed l s'' ⟨-, rfl⟩
  exact surely_pure ⟨s'.board.nextItem, by rw [← hitems]; rfl⟩

lemma surely_relabel {b : Board} (hs : s.board = b.commit true (changeOf c b.items))
    (request : RouteJobRequest) :
    Meets (cooperative party)
      (Surely fun c' s' => Stands b.items { c' with applied := true } s') (relabel request c) l s := by
  unfold relabel
  split
  · exact surely_pure ⟨b.nextItem, by rw [hs]; rfl⟩
  refine surely_bind (surely_plain (q := .ratsnest _) rfl) ?_
  rintro edges l s' rfl
  exact surely_relabelTo hs _

/-- How a turn ends. -/
def Ends (scope : Scope) (c : Cleanup) (orig : List Item) : Outcome → Turn → Prop
  | .stop c', s => c.applied = false → Stands orig c' s
  | .again c', s => s.board.items = orig ∧ Advances scope c c' s ∧ left scope c' < left scope c

lemma created_toNewItem (n : ℕ) (xs : List NewItem) :
    (RouteWorld.created n xs).map (·.toNewItem) = xs := by
  induction xs generalizing n with
  | nil => rfl
  | cons x xs ih => rw [RouteWorld.created, List.map_cons, ih]

lemma surely_undoPass {b : Board} (hs : s.board = b.commit true (changeOf c b.items))
    (hs' : s.created = created) (hs'' : s.dangling = dangling)
    (hcreated : created.map (·.toNewItem) = itemsFor c.result)
    (hsome : ¬ (rejectedIds created dangling = [] ∧ existingIds scope c dangling = [])) :
    Meets (cooperative party) (Surely (Ends scope c b.items)) (undoPass scope c created dangling)
      l s := by
  obtain ⟨hadvances, hlt, hmapped⟩ := reject_advances hcreated hsome
  refine surely_revert hs fun l s' hitems hsame hsame' => ?_
  refine surely_bind (surely_require ?_) ?_
  · rw [Bool.or_eq_true, decide_eq_true_iff, decide_eq_true_iff]
    exact hmapped
  rintro _ l s'' rfl
  refine surely_pure ?_
  split
  · refine fun hc => (?_ : Stands b.items _ s'')
    unfold Stands
    rw [if_neg (by simp [Cleanup.reject, hc])]
    exact hitems
  · obtain ⟨board, _, _⟩ := s''
    cases hsame.trans hs'
    cases hsame'.trans hs''
    exact ⟨hitems, hadvances board, hlt⟩

lemma surely_checkPass {b : Board} (hs : s.board = b.commit true (changeOf c b.items))
    (hs' : s.created = created) (hcreated : created.map (·.toNewItem) = itemsFor c.result) :
    Meets (cooperative party) (Surely (Ends scope c b.items)) (checkPass scope c created) l s := by
  refine surely_bind (surely_plain (q := .runDrc) rfl) ?_
  rintro markers l s' rfl
  dsimp only
  split
  · have hkept : (learnt s s.board .runDrc (.ok markers)).board = b.commit true (changeOf
        { c with retainedDanglingCopper := scope.retained (danglingIds markers) } b.items) := hs
    refine surely_bind (surely_relabel hkept _) ?_
    rintro c' l s' hstands
    exact surely_pure fun _ => hstands
  next hsome => exact surely_undoPass hs hs' rfl hcreated hsome

lemma surely_cleanupPass (scope : Scope) (c : Cleanup) :
    Meets (cooperative party) (Surely (Ends scope c s.board.items)) (cleanupPass scope c) l s := by
  refine surely_bind (surely_apply c) ?_
  rintro committed l s' ⟨hcreated, rfl⟩
  split
  · exact surely_pure fun _ => ⟨s.board.nextItem, rfl⟩
  · exact surely_checkPass rfl rfl (by rw [hcreated, created_toNewItem])

lemma surely_cleanupLoop {n : ℕ} (hc : c.applied = false) (hn : left scope c < n) :
    Meets (cooperative party) (Surely (Stands s.board.items)) (cleanupLoop scope n c) l s := by
  induction n generalizing c l s with
  | zero => cases hn
  | succ n ih =>
    refine surely_bind (surely_cleanupPass scope c) ?_
    rintro (c' | c') l s' hends
    · exact surely_pure (hends hc)
    · obtain ⟨hitems, hadvances, hlt⟩ := hends
      dsimp only
      rw [if_neg (by omega), ← hitems]
      exact ih (hadvances.applied.trans hc) (by omega)

/-- **Convergence.** The clean-up never fails, and the board then holds its original copper without
the marked items and with the final result, or its original copper. -/
theorem cleanup_converges (party : Party) (scope : Scope) (result : RouteResult) (message : String)
    (l : Locals) (s : Turn) :
    Meets (cooperative party) (Surely (Stands s.board.items))
        (cleanupLoop scope (maxCleanupPasses scope result)
          ⟨result, message, OMap.empty, [], false⟩) l s ∧
      ∀ c : Cleanup,
        Meets (cooperative party)
          (Surely fun out s' => ∀ c', out = .again c' →
            s'.board.items = s.board.items ∧ Advances scope c c' s') (cleanupPass scope c) l s := by
  constructor
  · refine surely_cleanupLoop rfl ?_
    have hpending : (pending scope ⟨result, message, OMap.empty, [], false⟩).length ≤
        scope.removableExisting.keys.length := List.length_filter_le _ _
    have hsize : scope.removableExisting.keys.length = scope.removableExisting.size :=
      List.length_map _
    change result.size + _ < result.size + _ + 1
    omega
  · intro c
    refine (surely_cleanupPass scope c).mono ?_
    rintro r l s' ⟨out, rfl, hends⟩
    refine ⟨out, rfl, ?_⟩
    rintro c' rfl
    exact ⟨hends.1, hends.2.1⟩

/-! ### An empty track goes with the first turn -/

def pointTrack : NewTrack := ⟨"GND", 1, ⟨0, 0⟩, ⟨0, 0⟩, 200, 0⟩

def stitch (x : ℚ) : NewVia := ⟨"GND", 1, ⟨x, 0⟩, 600, 300, [0, 31]⟩

def stitched : Cleanup where
  result :=
    { router := "fab-router"
      tracks := [pointTrack]
      vias := [stitch 0, stitch 1000]
      claimedVias := []
      unrouted := []
      totalConnections := 1
      timedOut := false
      log := []
      diagnostics := none
      applied := none }
  message := ""
  removedExistingCopper := OMap.empty
  retainedDanglingCopper := []
  applied := false

def stitching : Scope := ⟨⟨.js, none, none, none⟩, [], ["GND"]⟩

def pair : List Item := [⟨viaProto (stitch 0), 0, false⟩, ⟨viaProto (stitch 1000), 1, false⟩]

/-- Only the first via is reported, and the track that no item was created for is removed. -/
theorem pass_removes_more :
    ¬ Meets (cooperative .client)
      (Surely fun out s => ∀ c', out = .again c' →
        (∀ t ∈ stitched.result.tracks, t ∉ c'.result.tracks →
          ∃ p ∈ createdTracks stitched.result.tracks s.created, p.1 = t ∧ p.2.id ∈ s.dangling) ∨
        ∃ id, c'.removedExistingCopper.has id = true ∧
          stitched.removedExistingCopper.has id = false)
      (cleanupPass stitching stitched) ⟨queued, false⟩ ⟨⟨[], [], 0, 0⟩, [], []⟩ := by
  intro h
  have hempty : pointTrack.isEmpty = true := decide_eq_true rfl
  have hfilter : stitched.result.tracks.filter (!·.isEmpty) = [] :=
    List.filter_cons_of_neg (by rw [hempty]; decide)
  have hitems : itemsFor stitched.result = [viaProto (stitch 0), viaProto (stitch 1000)] := by
    rw [itemsFor, hfilter]
    rfl
  have hpair : created 0 (changeOf stitched []).create = pair := by
    change created 0 (itemsFor stitched.result) = pair
    rw [hitems]
    rfl
  have hresult : withoutRejectedCreatedCopper stitched.result pair (· ∈ rejectedIds pair [0]) =
      { stitched.result with tracks := [], vias := [stitch 1000] } := by
    have hpairs : pair.map (·.toNewItem) = itemsFor stitched.result := hitems.symm
    rw [without_eq hpairs, createdTracks, hfilter]
    rfl
  have hreject : stitched.reject stitching pair (rejectedIds pair [0])
      (existingIds stitching stitched [0]) =
        { stitched with result :=
          { stitched.result with tracks := [], vias := [stitch 1000] } } := by
    rw [Cleanup.reject, hresult]
    rfl
  have hcommitted := (meets_ask (q := .commit (changeOf stitched []))).mp (meets_bind.mp h)
  have hpass := hcommitted.2.1 _ false _ ⟨.ok, _, _, rfl, trivial, rfl⟩
  have hchecked := (meets_ask (q := .runDrc)).mp (meets_bind.mp hpass)
  have hfound := hchecked.2.1 [⟨.danglingVia, [0]⟩] false _ ⟨.markers _, _, _, rfl, trivial, rfl⟩
  have hdangling : danglingIds [⟨.danglingVia, [0]⟩] = [0] := rfl
  simp only [Then, hpair, hdangling] at hfound
  rw [if_neg (by decide), undoPass] at hfound
  dsimp only at hfound
  rw [hreject] at hfound
  have hundone := (meets_ask (q := .undo)).mp (meets_bind.mp hfound)
  obtain ⟨out, heq, hout⟩ := hundone.2.1 _ false _ ⟨.ok, _, _, rfl, trivial, rfl⟩
  cases heq
  obtain hgone | ⟨id, hid, -⟩ := hout _ rfl
  · obtain ⟨p, hp, -⟩ := hgone pointTrack (List.mem_singleton_self _) (List.not_mem_nil)
    rw [createdTracks, hfilter] at hp
    cases hp
  · cases hid

end FabPcb.CleanupConvergence
