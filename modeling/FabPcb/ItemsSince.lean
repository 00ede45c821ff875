import Mathlib.Algebra.Ring.Nat
import Mathlib.Data.List.Perm.Subperm
import FabPcb.CommitOps
import FabPcb.DocumentHistory

/-!
`Document.getItemsSince`: what changed in the document after a revision.

KiCad answers `GetItems.since_revision` with the changes or, when its log does not reach that
far, with every item, and does not say which. The client asks for the item counts first and
takes an answer without deletions that lists as many items as there are for a full one.
-/

namespace FabPcb.ItemsSince

open OrderedMap Writes Items ItemStore StoreContent
open Document Errors Sync CommitOps DocumentHistory

variable {P : Type*}

/-! ### Requests and answers -/

structure GetItemCountsResponse where
  counts : List (KiCadObjectType × ℕ)
  revision : ℕ

structure ItemCounts where
  counts : OMap KiCadObjectType ℕ
  total : ℕ
  revision : ℕ

/-- `itemCounts`: a type listed twice counts twice. -/
def itemCounts (res : GetItemCountsResponse) : ItemCounts where
  counts := res.counts.foldl (fun counts c => counts.set c.1 ((counts.get? c.1).getD 0 + c.2))
    OMap.empty
  total := res.counts.foldl (fun total c => total + c.2) 0
  revision := res.revision

/-- `GetItemsResponse`, past its status. -/
structure GetItemsResponse (P : Type*) where
  items : List P
  total : ℕ
  revision : ℕ
  deletedIds : List String

def wrapAll (codec : Codec P) (anys : List P) : List (Item P) := anys.filterMap codec.wrapAny

/-- What KiCad answers to the two requests of an attempt. -/
structure Attempt (P : Type*) where
  counts : Except ClientError GetItemCountsResponse
  items : Except ClientError (ItemRequestStatus × GetItemsResponse P)

/-- One turn of the loop of `getItemsSince`: none if the document moved between its two
requests. -/
def attempt (codec : Codec P) (types : List KiCadObjectType) (revision : ℕ) (a : Attempt P) :
    Except ClientError (Option (ItemsSince P)) :=
  match a.counts with
  | .error e => .error e
  | .ok counts =>
    let counts := itemCounts counts
    match checkStatus "GetItems" a.items with
    | .error e => .error e
    | .ok res =>
      if res.revision ≠ counts.revision then .ok none
      else if res.revision ≤ revision then
        .ok (some { items := [], deletedIds := [], revision := res.revision, full := false })
      else
        let expected := types.foldl (fun n t => n + (counts.counts.get? t).getD 0) 0
        let isFull : Bool := res.deletedIds.length = 0 ∧ res.total ≥ expected
        .ok (some
          { items := wrapAll codec res.items
            deletedIds := res.deletedIds
            revision := res.revision
            full := isFull })

/-- What KiCad answers to `getItemsSince`: to each attempt, and to the full read. -/
structure SinceAnswers (P : Type*) where
  first : Attempt P
  second : Attempt P
  full : Except ClientError (ItemRequestStatus × GetItemsResponse P)

/-- `full()`. -/
def fullRead (codec : Codec P)
    (answer : Except ClientError (ItemRequestStatus × GetItemsResponse P)) :
    Except ClientError (ItemsSince P) :=
  match checkStatus "GetItems" answer with
  | .error e => .error e
  | .ok res =>
    .ok { items := wrapAll codec res.items, deletedIds := [], revision := res.revision, full := true }

def getItemsSince (codec : Codec P) (types : List KiCadObjectType) (revision : Option ℕ)
    (a : SinceAnswers P) : Except ClientError (ItemsSince P) :=
  match revision with
  | none => fullRead codec a.full
  | some revision =>
    match attempt codec types revision a.first with
    | .error e => .error e
    | .ok (some r) => .ok r
    | .ok none =>
      match attempt codec types revision a.second with
      | .error e => .error e
      | .ok (some r) => .ok r
      | .ok none => fullRead codec a.full

/-! ### Counting by type -/

lemma get?_itemCounts (counts : List (KiCadObjectType × ℕ)) (m : OMap KiCadObjectType ℕ)
    (t : KiCadObjectType) :
    ((counts.foldl (fun m c => m.set c.1 ((m.get? c.1).getD 0 + c.2)) m).get? t).getD 0 =
      (m.get? t).getD 0 + ((counts.filter (·.1 = t)).map Prod.snd).sum := by
  induction counts generalizing m with
  | nil => simp
  | cons c counts ih =>
    rw [List.foldl_cons, ih]
    by_cases hc : c.1 = t
    · subst hc
      simp [Nat.add_assoc]
    · simp [hc, Ne.symm hc]

/-- The sum over the types is over each item once. -/
lemma sum_countP (typeOf : P → KiCadObjectType) (doc : List P) {types : List KiCadObjectType}
    (hnodup : types.Nodup) :
    (types.map fun t => doc.countP (typeOf · = t)).sum =
      (doc.filter (typeOf · ∈ types)).length := by
  induction types with
  | nil => simp
  | cons t types ih =>
    obtain ⟨hnot, hrest⟩ := List.nodup_cons.mp hnodup
    rw [List.map_cons, List.sum_cons, ih hrest]
    clear ih hnodup hrest
    induction doc with
    | nil => simp
    | cons any doc ih =>
      by_cases h : typeOf any = t
      · simp only [List.countP_cons, List.filter_cons, h, List.mem_cons, true_or, decide_true,
          ↓reduceIte, List.length_cons, hnot, decide_false, Bool.false_eq_true] at ih ⊢
        omega
      · by_cases h' : typeOf any ∈ types
        · simp only [List.countP_cons, List.filter_cons, h, List.mem_cons, false_or, decide_false,
            Bool.false_eq_true, ↓reduceIte, h', decide_true, List.length_cons] at ih ⊢
          omega
        · simp only [List.countP_cons, List.filter_cons, h, List.mem_cons, false_or, decide_false,
            Bool.false_eq_true, ↓reduceIte, h'] at ih ⊢
          omega

lemma expected_eq (types : List KiCadObjectType) (counts : GetItemCountsResponse) :
    types.foldl (fun n t => n + ((itemCounts counts).counts.get? t).getD 0) 0 =
      (types.map fun t => ((counts.counts.filter (·.1 = t)).map Prod.snd).sum).sum := by
  have hfold : ∀ n, types.foldl (fun n t => n + ((itemCounts counts).counts.get? t).getD 0) n =
      n + (types.map fun t => ((itemCounts counts).counts.get? t).getD 0).sum := by
    intro n
    induction types generalizing n with
    | nil => rfl
    | cons t types ih => rw [List.foldl_cons, ih, List.map_cons, List.sum_cons, Nat.add_assoc]
  rw [hfold, Nat.zero_add]
  congr 1
  refine List.map_congr_left fun t _ => ?_
  rw [itemCounts, get?_itemCounts]
  simp

/-! ### The server -/

/-- The document as the server holds it, over its moments. -/
structure Server (codec : Codec P) where
  rev : ℕ → ℕ
  doc : ℕ → List P
  typeOf : P → KiCadObjectType
  mono : Monotone rev
  same : ∀ m n, rev m = rev n → doc m = doc n
  unique : ∀ m, ((wrapAll codec (doc m)).map (·.id)).Nodup
  wrapped : ∀ any item, codec.wrapAny any = some item → item.proto = any

variable {codec : Codec P} {s : Server codec} {types : List KiCadObjectType} {r k m : ℕ}

/-- The messages of the requested types. -/
def Server.matching (s : Server codec) (types : List KiCadObjectType) (m : ℕ) : List P :=
  (s.doc m).filter (s.typeOf · ∈ types)

lemma mem_wrapAll {anys : List P} {item : Item P} :
    item ∈ wrapAll codec anys ↔ ∃ any ∈ anys, codec.wrapAny any = some item :=
  List.mem_filterMap

/-- The items of the requested types, as the client sees the document. -/
def Server.history (s : Server codec) (types : List KiCadObjectType) : History P where
  rev := s.rev
  items := fun m => wrapAll codec (s.matching types m)
  mono := s.mono
  same := fun m n h => by rw [Server.matching, s.same m n h, ← Server.matching]
  unique := fun m =>
    (s.unique m).sublist ((List.filter_sublist.filterMap codec.wrapAny).map (·.id))
  wrapped := by
    intro m n a ha b hb he
    obtain ⟨any, -, hany⟩ := mem_wrapAll.mp ha
    obtain ⟨any', -, hany'⟩ := mem_wrapAll.mp hb
    rw [s.wrapped any a hany, s.wrapped any' b hany'] at he
    subst he
    exact Option.some.inj (hany.symm.trans hany')

/-- Counts taken at a moment: each requested type is counted. -/
structure CountsAt (s : Server codec) (types : List KiCadObjectType) (m : ℕ)
    (counts : GetItemCountsResponse) : Prop where
  counted : ∀ t ∈ types, ((counts.counts.filter (·.1 = t)).map Prod.snd).sum =
    (s.doc m).countP (s.typeOf · = t)
  revision : counts.revision = s.rev m

/-- An answer with every item of a moment. -/
structure FullAt (s : Server codec) (types : List KiCadObjectType) (m : ℕ)
    (res : GetItemsResponse P) : Prop where
  perm : res.items.Perm (s.matching types m)
  deleted : res.deletedIds = []
  total : res.total = res.items.length
  revision : res.revision = s.rev m

/-- An answer with the exact changes from one moment to another. -/
structure DeltaAt (s : Server codec) (types : List KiCadObjectType) (k m : ℕ)
    (res : GetItemsResponse P) : Prop where
  present : res.items.Subperm (s.matching types m)
  changed : ∀ any ∈ s.matching types m, any ∉ s.matching types k → any ∈ res.items
  deleted : ∀ id ∈ ((s.history types).items k).map (·.id),
    id ∉ ((s.history types).items m).map (·.id) → id ∈ res.deletedIds
  gone : ∀ id ∈ res.deletedIds, id ∉ ((s.history types).items m).map (·.id)
  total : res.total = res.items.length
  revision : res.revision = s.rev m

/-- The moment a revision stands for: none of a later revision up to it exists. -/
structure AsOf (s : Server codec) (r k : ℕ) : Prop where
  le : s.rev k ≤ r
  last : ∀ m, s.rev m ≤ r → s.rev m ≤ s.rev k

/-- Both requests of an attempt are answered, each from the state the server is in by then. -/
structure Answered (s : Server codec) (types : List KiCadObjectType) (k : ℕ) (a : Attempt P) :
    Prop where
  counts : ∃ m counts, a.counts = .ok counts ∧ CountsAt s types m counts
  items : ∃ m res, a.items = .ok (.IRS_OK, res) ∧ k ≤ m ∧
    (FullAt s types m res ∨ DeltaAt s types k m res)

/-- So is the full read, if it comes to it. -/
structure Honest (s : Server codec) (types : List KiCadObjectType) (k : ℕ) (a : SinceAnswers P) :
    Prop where
  first : Answered s types k a.first
  second : Answered s types k a.second
  full : ∃ m res, a.full = .ok (.IRS_OK, res) ∧ k ≤ m ∧ FullAt s types m res

/-! ### Full answers and deltas -/

/-- The answer to a read, seen by the client: all items of a moment, or the changes since. -/
def Answers (h : History P) (k m : ℕ) (r : ItemsSince P) : Prop :=
  k ≤ m ∧ r.revision = h.rev m ∧ (IsFull (h.items m) r ∨ IsDelta (h.items k) (h.items m) r)

lemma isFull_of_perm (res : GetItemsResponse P) (hperm : res.items.Perm (s.matching types m))
    {r : ItemsSince P} (hitems : r.items = wrapAll codec res.items) (hdel : r.deletedIds = [])
    (hfull : r.full = true) : IsFull ((s.history types).items m) r :=
  ⟨hfull, hitems ▸ hperm.filterMap codec.wrapAny, hdel⟩

lemma isDelta_of_deltaAt {res : GetItemsResponse P} (hres : DeltaAt s types k m res)
    {r : ItemsSince P} (hitems : r.items = wrapAll codec res.items)
    (hdel : r.deletedIds = res.deletedIds) (hfull : r.full = false) :
    IsDelta ((s.history types).items k) ((s.history types).items m) r where
  delta := hfull
  present := by
    intro item hitem
    rw [hitems] at hitem
    obtain ⟨any, hany, hwrap⟩ := mem_wrapAll.mp hitem
    exact mem_wrapAll.mpr ⟨any, hres.present.subset hany, hwrap⟩
  changed := by
    intro item hitem hold
    obtain ⟨any, hany, hwrap⟩ := mem_wrapAll.mp hitem
    have hnew : any ∉ s.matching types k := fun h => hold (mem_wrapAll.mpr ⟨any, h, hwrap⟩)
    rw [hitems]
    exact mem_wrapAll.mpr ⟨any, hres.changed any hany hnew, hwrap⟩
  deleted := fun id hid hno => hdel ▸ hres.deleted id hid hno
  gone := fun id hid => hres.gone id (hdel ▸ hid)

lemma isDelta_nil (h : History P) (hrev : h.rev k = h.rev m) {r : ItemsSince P}
    (hitems : r.items = []) (hdel : r.deletedIds = []) (hfull : r.full = false) :
    IsDelta (h.items k) (h.items m) r := by
  rw [h.same k m hrev]
  refine ⟨hfull, by simp [hitems], fun item hin hno => absurd hin hno, ?_, by simp [hdel]⟩
  exact fun id hin hno => absurd hin hno

lemma expected_of_countsAt (hnodup : types.Nodup) {n : ℕ} {counts : GetItemCountsResponse}
    (hcounts : CountsAt s types n counts) (hrev : s.rev n = s.rev m) :
    types.foldl (fun n t => n + ((itemCounts counts).counts.get? t).getD 0) 0 =
      (s.matching types m).length := by
  rw [expected_eq, Server.matching, ← sum_countP s.typeOf (s.doc m) hnodup]
  congr 1
  refine List.map_congr_left fun t ht => ?_
  rw [hcounts.counted t ht, s.same n m hrev]

/-- **An attempt classifies its answer**, unless the document moved. -/
theorem attempt_spec (hnodup : types.Nodup) (hk : AsOf s r k) {a : Attempt P}
    (ha : Answered s types k a) :
    ∃ o, attempt codec types r a = .ok o ∧
      ∀ x, o = some x → ∃ m, Answers (s.history types) k m x := by
  obtain ⟨n, counts, hac, hcounts⟩ := ha.counts
  obtain ⟨m, res, hai, hkm, hres⟩ := ha.items
  have hrev : res.revision = s.rev m := by
    rcases hres with hres | hres <;> exact hres.revision
  have htotal : res.total = res.items.length := by
    rcases hres with hres | hres <;> exact hres.total
  have hcrev : (itemCounts counts).revision = s.rev n := hcounts.revision
  unfold attempt
  simp only [hac, hai, checkStatus, ne_eq, not_true_eq_false, false_and, ↓reduceIte]
  split_ifs with hstill hold
  · refine ⟨_, rfl, fun x hx => ⟨m, hkm, ?_⟩⟩
    obtain rfl := Option.some.inj hx
    refine ⟨hrev, Or.inr (isDelta_nil _ ?_ rfl rfl rfl)⟩
    exact le_antisymm (s.mono hkm) (hk.last m (hrev ▸ hold))
  · have hsame : s.rev n = s.rev m := by
      rw [← hcrev, ← hrev]
      exact hstill.symm
    rw [expected_of_countsAt hnodup hcounts hsame, htotal]
    refine ⟨_, rfl, fun x hx => ⟨m, hkm, ?_⟩⟩
    obtain rfl := Option.some.inj hx
    refine ⟨hrev, ?_⟩
    by_cases hfull : res.deletedIds.length = 0 ∧ res.items.length ≥ (s.matching types m).length
    · refine Or.inl (isFull_of_perm res ?_ rfl (List.length_eq_zero_iff.mp hfull.1)
        (decide_eq_true hfull))
      rcases hres with hres | hres
      · exact hres.perm
      · exact hres.present.perm_of_length_le hfull.2
    · refine Or.inr ?_
      rcases hres with hres | hres
      · exact absurd ⟨by simp [hres.deleted], hres.perm.length_eq.ge⟩ hfull
      · exact isDelta_of_deltaAt hres rfl rfl (decide_eq_false hfull)
  · exact ⟨none, rfl, by simp⟩

lemma fullRead_spec {answer : Except ClientError (ItemRequestStatus × GetItemsResponse P)}
    {res : GetItemsResponse P} (ha : answer = .ok (.IRS_OK, res)) (hkm : k ≤ m)
    (hres : FullAt s types m res) :
    ∃ x, fullRead codec answer = .ok x ∧ Answers (s.history types) k m x := by
  subst ha
  exact ⟨_, rfl, hkm, hres.revision, Or.inl (isFull_of_perm res hres.perm rfl rfl rfl)⟩

/-- `getItemsSince` returns a full set or a delta, and says which. -/
theorem getItemsSince_spec (hnodup : types.Nodup) (hk : AsOf s r k) {a : SinceAnswers P}
    (ha : Honest s types k a) :
    ∃ x m, getItemsSince codec types (some r) a = .ok x ∧ Answers (s.history types) k m x := by
  obtain ⟨o, ho, hspec⟩ := attempt_spec hnodup hk ha.first
  obtain ⟨o', ho', hspec'⟩ := attempt_spec hnodup hk ha.second
  obtain ⟨m, res, hfull, hkm, hres⟩ := ha.full
  unfold getItemsSince
  simp only [ho]
  cases o with
  | some x =>
    obtain ⟨m, hm⟩ := hspec x rfl
    exact ⟨x, m, rfl, hm⟩
  | none =>
    simp only [ho']
    cases o' with
    | some x =>
      obtain ⟨m, hm⟩ := hspec' x rfl
      exact ⟨x, m, rfl, hm⟩
    | none =>
      obtain ⟨x, hx, hm⟩ := fullRead_spec hfull hkm hres
      exact ⟨x, m, hx, hm⟩

lemma content_of_answers [DecidableEq P] {h : History P} {d : DocumentSync P}
    (hd : d.content = h.content k) {x : ItemsSince P} (hx : Answers h k m x) :
    (d.syncedSince x).content = h.content m := by
  obtain ⟨-, -, hx | hx⟩ := hx
  · rw [content_syncedSince_full d hx.full, hd]
    exact replaced_of_isFull (fromHistory_content h k) hx
  · rw [content_syncedSince_delta d hx.delta, hd]
    exact writeAll_of_isDelta hx

/-- **An incremental read equals a full read**: `getItemsSince` of a revision says rightly
whether its answer is full, and a store that held the document at that revision holds it at
the answered one after merging the answer. -/
theorem syncSince_follows [DecidableEq P] (kind : DocumentKind) (hk : AsOf s r k)
    {a : SinceAnswers P} (ha : Honest s kind.itemTypes k a) :
    ∃ x m, getItemsSince codec kind.itemTypes (some r) a = .ok x ∧
      Answers (s.history kind.itemTypes) k m x ∧
      ∀ d : DocumentSync P, d.content = (s.history kind.itemTypes).content k →
        (d.syncedSince x).content = (s.history kind.itemTypes).content m := by
  obtain ⟨x, m, hx, hm⟩ := getItemsSince_spec (itemTypes_nodup kind) hk ha
  exact ⟨x, m, hx, hm, fun d hd => content_of_answers hd hm⟩

/-! ### A board of two tracks -/

/-- A track whose message is its id and its width. -/
def track (any : String × ℕ) : Item (String × ℕ) :=
  ⟨any.1, true, .KOT_PCB_TRACE, none, none, none, any⟩

def trackCodec : Codec (String × ℕ) where
  wrapAny := fun any => some (track any)
  typeUrl := fun _ => "type.googleapis.com/kiapi.board.types.Track"
  setId := fun any id => (id, any.2)
  symbol := fun _ => none
  sameDefinition := fun _ _ => true
  dropDefinition := id

/-- Between two reads one track is widened and the other deleted. -/
def trackServer : Server trackCodec where
  rev := fun m => if m = 0 then 1 else 2
  doc := fun m => if m = 0 then [("t1", 10), ("t2", 10)] else [("t1", 25)]
  typeOf := fun _ => .KOT_PCB_TRACE
  mono := by intro m n hmn; simp only; split_ifs <;> omega
  same := by intro m n h; by_cases hm : m = 0 <;> by_cases hn : n = 0 <;> simp_all
  unique := by intro m; split_ifs <;> decide
  wrapped := by rintro any item h; cases h; rfl

/-- The first attempt is answered with the changes, so the others are not made. -/
def trackAnswers : SinceAnswers (String × ℕ) where
  first := ⟨.ok ⟨[(.KOT_PCB_TRACE, 1)], 2⟩, .ok (.IRS_OK, ⟨[("t1", 25)], 1, 2, ["t2"]⟩)⟩
  second := ⟨.ok ⟨[(.KOT_PCB_TRACE, 1)], 2⟩, .ok (.IRS_OK, ⟨[("t1", 25)], 1, 2, ["t2"]⟩)⟩
  full := .ok (.IRS_OK, ⟨[("t1", 25)], 1, 2, []⟩)

lemma trackAnswers_honest : Honest trackServer boardItemTypes 0 trackAnswers := by
  have hattempt : Answered trackServer boardItemTypes 0 trackAnswers.first :=
    { counts := ⟨1, _, rfl, by decide, rfl⟩
      items := ⟨1, _, rfl, Nat.zero_le 1, Or.inr
        { present := List.Subperm.refl _
          changed := by decide
          deleted := by decide
          gone := by decide
          total := rfl
          revision := rfl }⟩ }
  exact ⟨hattempt, hattempt, 1, _, rfl, Nat.zero_le 1, List.Perm.refl _, rfl, rfl, rfl⟩

theorem syncSince_follows_tracks :
    ∃ x m, getItemsSince trackCodec boardItemTypes (some 1) trackAnswers = .ok x ∧
      Answers (trackServer.history boardItemTypes) 0 m x ∧
      ∀ d : DocumentSync (String × ℕ),
        d.content = (trackServer.history boardItemTypes).content 0 →
        (d.syncedSince x).content = (trackServer.history boardItemTypes).content m := by
  have hk : AsOf trackServer 1 0 := by
    refine ⟨le_refl 1, fun m hm => ?_⟩
    exact hm
  exact syncSince_follows .board hk trackAnswers_honest

end FabPcb.ItemsSince
