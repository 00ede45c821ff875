import FabPcb.Runs
import Mathlib.Data.List.Dedup

/-!
The polygons that KiCad gives for pads: `PadPolygonCache`, as the canvas of a board uses it.

A request goes through the copper layers, one question to the server for each, and asks for the
pads that are not known there. What is changed in the store is forgotten by its own id, so pads
of a footprint are not forgotten with it; and a pad that a reply leaves out keeps its polygon.

The server answers in order, with what it has then. Its polygons may change before the store
tells that an item has; `unreported` are the pads of which it has not told yet.
-/

namespace FabPcb.PadPolygons

open Runs

/-- An item of the store, by what the cache sees of it. -/
inductive Item
  | pad (id : String)
  | footprint (id : String) (pads : List String)
  | other (id : String)

def Item.id : Item → String
  | .pad id | .footprint id _ | .other id => id

/-- The pads of an item. -/
def Item.pads : Item → List String
  | .pad id => [id]
  | .footprint _ pads => pads
  | .other _ => []

/-- A request that waits for the reply for a layer, with the layers after it. -/
structure Call where
  ids : List String
  layer : String
  want : List String
  rest : List String

variable {P : Type}

structure Canvas (P : Type) where
  store : List Item := []
  /-- What the server has. -/
  shape : String → String → Option P := fun _ _ => none
  unreported : List String := []
  polys : String → String → Option P := fun _ _ => none
  known : String → String → Bool := fun _ _ => false
  /-- Questions that are not answered, and answers that have not arrived. -/
  asked : List Call := []
  replies : List (Call × (String → Option P)) := []

section Cache

variable (isLayer : String → Bool) (copperLayers : List String)

/-- The pads that are not known on a layer. -/
def wanted (s : Canvas P) (ids : List String) (layer : String) : List String :=
  ids.filter fun id => !s.known id layer

/-- The layers of a request, from one of them on. -/
def ask (ids : List String) : List String → Canvas P → Canvas P
  | [], s => s
  | layer :: rest, s =>
    if isLayer layer then
      if wanted s ids layer = [] then ask ids rest s
      else
        { s with
          known := fun id l =>
            s.known id l || (decide (l = layer) && decide (id ∈ wanted s ids layer))
          asked := s.asked ++ [⟨ids, layer, wanted s ids layer, rest⟩] }
    else ask ids rest s

def request (items : List Item) (s : Canvas P) : Canvas P :=
  ask isLayer (items.flatMap Item.pads).dedup copperLayers s

/-- The keys of the cache are texts, `pad/layer`. -/
def startsWith (ids : List String) (pad layer : String) : Bool :=
  ids.any fun id => (id ++ "/").toList.isPrefixOf (pad ++ "/" ++ layer).toList

def invalidate (ids : List String) (s : Canvas P) : Canvas P :=
  { s with known := fun pad layer => s.known pad layer && !startsWith ids pad layer }

/-- The polygons of a reply. A pad that it leaves out keeps what it has. -/
def put (call : Call) (res : String → Option P) (polys : String → String → Option P)
    (pad layer : String) : Option P :=
  if layer = call.layer ∧ pad ∈ call.want then (res pad).or (polys pad layer) else polys pad layer

inductive Event (P : Type)
  /-- A canvas is mounted and asks for the whole store. -/
  | mount
  /-- The server has other polygons for some pads on some layers. -/
  | change (edits : List (String × String × Option P))
  /-- The store tells what was added or updated. -/
  | diff (changed : List Item)
  | answer
  | deliver
  | fail

def edited (edits : List (String × String × Option P)) (shape : String → String → Option P)
    (pad layer : String) : Option P :=
  ((edits.find? fun e => e.1 = pad ∧ e.2.1 = layer).map (·.2.2)).getD (shape pad layer)

def updated (changed store : List Item) : List Item :=
  changed ++ store.filter fun item => item.id ∉ changed.map Item.id

def step (s : Canvas P) : Event P → Option (Canvas P)
  | .mount => some (request isLayer copperLayers s.store s)
  | .change edits =>
    some { s with
      shape := edited edits s.shape, unreported := edits.map (·.1) ++ s.unreported }
  | .diff changed =>
    some (request isLayer copperLayers changed
      (invalidate (changed.map Item.id)
        { s with
          store := updated changed s.store
          unreported := s.unreported.filter (· ∉ changed.flatMap Item.pads) }))
  | .answer =>
    match s.asked with
    | [] => none
    | call :: asked =>
      some { s with
        asked, replies := s.replies ++ [(call, fun pad => s.shape pad call.layer)] }
  | .deliver =>
    match s.replies with
    | [] => none
    | (call, res) :: replies =>
      some (ask isLayer call.ids call.rest { s with replies, polys := put call res s.polys })
  | .fail =>
    match s.replies, s.asked with
    | [], call :: asked =>
      some (ask isLayer call.ids call.rest
        { s with
          asked
          known := fun pad layer => s.known pad layer &&
            !(decide (layer = call.layer) && decide (pad ∈ call.want)) })
    | _, _ => none

end Cache

/-! ### What a run comes to -/

/-- What a reply brings for a pad on a layer. -/
def carried (r : Call × (String → Option P)) (pad layer : String) : Option P :=
  if layer = r.1.layer ∧ pad ∈ r.1.want then r.2 pad else none

/-- The polygon when the replies under way have arrived. -/
def land (s : Canvas P) (pad layer : String) : Option P :=
  s.replies.foldl (fun v r => (carried r pad layer).or v) (s.polys pad layer)

/-- A question for the pad is not answered. -/
def Awaited (s : Canvas P) (pad layer : String) : Prop :=
  ∃ call ∈ s.asked, call.layer = layer ∧ pad ∈ call.want

/-- A request will come to the layer. -/
def Queued (s : Canvas P) (pad layer : String) : Prop :=
  ∃ call ∈ s.asked ++ s.replies.map Prod.fst, pad ∈ call.ids ∧ layer ∈ call.rest

/-- There is no polygon of the pad, and none under way. -/
def Bare (s : Canvas P) (pad layer : String) : Prop :=
  s.polys pad layer = none ∧ ∀ r ∈ s.replies, carried r pad layer = none

def Present (s : Canvas P) (pad : String) : Prop := ∃ item ∈ s.store, pad ∈ item.pads

/-- The polygon of a pad will be the server's. -/
def Served (s : Canvas P) (pad layer : String) : Prop :=
  Awaited s pad layer ∨ land s pad layer = s.shape pad layer ∨
    (s.known pad layer = false ∧ Queued s pad layer)

/-- Nothing is under way, and the store has told everything. -/
structure Quiet (s : Canvas P) : Prop where
  asked : s.asked = []
  replies : s.replies = []
  unreported : s.unreported = []

section Decide

variable [DecidableEq P] (s : Canvas P) (pad layer : String)

instance : Decidable (Awaited s pad layer) :=
  inferInstanceAs (Decidable (∃ call ∈ s.asked, call.layer = layer ∧ pad ∈ call.want))

instance : Decidable (Bare s pad layer) :=
  inferInstanceAs (Decidable (s.polys pad layer = none ∧
    ∀ r ∈ s.replies, carried r pad layer = none))

instance : Decidable (Present s pad) :=
  inferInstanceAs (Decidable (∃ item ∈ s.store, pad ∈ item.pads))

end Decide

section Runs

variable (isLayer : String → Bool) (copperLayers : List String)

/-- No request fails, and where a pad is changed, on each copper layer: it has no polygon, nor one
under way, if the server has none for it; and if it is known, it is forgotten by the ids of the
changed items, or is still to be answered for, or what will be there is what the server has. -/
def Refreshes (s : Canvas P) : Event P → Prop
  | .diff changed =>
    ∀ pad ∈ changed.flatMap Item.pads, ∀ layer ∈ copperLayers, isLayer layer = true →
      (s.shape pad layer = none → Bare s pad layer) ∧
        (s.known pad layer = true → startsWith (changed.map Item.id) pad layer = true ∨
          Awaited s pad layer ∨ land s pad layer = s.shape pad layer)
  | .fail => False
  | _ => True

instance [DecidableEq P] (s : Canvas P) (e : Event P) :
    Decidable (Refreshes isLayer copperLayers s e) :=
  match e with
  | .diff changed =>
    inferInstanceAs (Decidable (∀ pad ∈ changed.flatMap Item.pads, ∀ layer ∈ copperLayers,
      isLayer layer = true → (s.shape pad layer = none → Bare s pad layer) ∧
        (s.known pad layer = true → startsWith (changed.map Item.id) pad layer = true ∨
          Awaited s pad layer ∨ land s pad layer = s.shape pad layer)))
  | .fail => isFalse id
  | .mount | .change _ | .answer | .deliver => isTrue trivial

/-- Of the pads that are on the board, and of which the store has told what they are now. -/
def Inv (s : Canvas P) : Prop :=
  ∀ pad, Present s pad → pad ∉ s.unreported → ∀ layer ∈ copperLayers, isLayer layer = true →
    (s.shape pad layer = none → Bare s pad layer) ∧ Served s pad layer

/-! ### A request -/

section Ask

variable {isLayer} {ids layers : List String} {s : Canvas P} {pad layer : String}

lemma ask_frame (ids layers : List String) (s : Canvas P) :
    ∃ known calls, ask isLayer ids layers s = { s with known, asked := s.asked ++ calls } := by
  induction layers with
  | nil => exact ⟨s.known, [], by rw [List.append_nil]; rfl⟩
  | cons l layers ih =>
    simp only [ask]
    split_ifs
    · exact ih
    · exact ⟨_, _, rfl⟩
    · exact ih

lemma known_ask (h : (ask isLayer ids layers s).known pad layer = true) :
    s.known pad layer = true ∨ Awaited (ask isLayer ids layers s) pad layer := by
  induction layers with
  | nil => exact .inl h
  | cons l layers ih =>
    rw [ask] at h ⊢
    split_ifs at h ⊢ with hlayer hwant
    · exact ih h
    · rw [Bool.or_eq_true, Bool.and_eq_true, decide_eq_true_eq, decide_eq_true_eq] at h
      rcases h with h | ⟨rfl, hmem⟩
      · exact .inl h
      · exact .inr ⟨_, List.mem_append_right _ (List.mem_singleton_self _), rfl, hmem⟩
    · exact ih h

/-- A pad that is not known is asked for, or will be. -/
lemma asks (hpad : pad ∈ ids) (hlayer : layer ∈ layers) (his : isLayer layer = true)
    (hknown : s.known pad layer = false) :
    Awaited (ask isLayer ids layers s) pad layer ∨
      ((ask isLayer ids layers s).known pad layer = false ∧
        Queued (ask isLayer ids layers s) pad layer) := by
  induction layers with
  | nil => exact absurd hlayer List.not_mem_nil
  | cons l layers ih =>
    have hwanted : pad ∈ wanted s ids layer :=
      List.mem_filter.mpr ⟨hpad, by rw [hknown]; rfl⟩
    rw [ask]
    split_ifs with hl hwant
    · refine ih ((List.mem_cons.mp hlayer).resolve_left ?_)
      rintro rfl
      rw [hwant] at hwanted
      exact absurd hwanted List.not_mem_nil
    · by_cases heq : layer = l
      · subst heq
        exact .inl ⟨_, List.mem_append_right _ (List.mem_singleton_self _), rfl, hwanted⟩
      · refine .inr ⟨?_, _, List.mem_append_left _ (List.mem_append_right _
          (List.mem_singleton_self _)), hpad, (List.mem_cons.mp hlayer).resolve_left heq⟩
        simp [hknown, heq]
    · refine ih ((List.mem_cons.mp hlayer).resolve_left ?_)
      rintro rfl
      exact hl his

/-- **A request serves** what was served, and what it goes through and is not known. -/
lemma served_ask (h : Served s pad layer ∨
      (s.known pad layer = false ∧ pad ∈ ids ∧ layer ∈ layers ∧ isLayer layer = true)) :
    Served (ask isLayer ids layers s) pad layer := by
  obtain ⟨known, calls, hask⟩ := @ask_frame P isLayer ids layers s
  rcases h with (⟨call, hcall, hwant⟩ | hland | ⟨hknown, call, hcall, hqueued⟩) |
    ⟨hknown, hpad, hlayer, his⟩
  · refine .inl ⟨call, ?_, hwant⟩
    rw [hask]
    exact List.mem_append_left _ hcall
  · refine .inr (.inl ?_)
    rw [hask]
    exact hland
  · by_cases hnow : (ask isLayer ids layers s).known pad layer = true
    · exact .inl ((known_ask hnow).resolve_left (by rw [hknown]; exact Bool.false_ne_true))
    · refine .inr (.inr ⟨Bool.eq_false_iff.mpr hnow, call, ?_, hqueued⟩)
      rw [hask]
      rcases List.mem_append.mp hcall with hcall | hcall
      · exact List.mem_append_left _ (List.mem_append_left _ hcall)
      · exact List.mem_append_right _ hcall
  · rcases asks hpad hlayer his hknown with h | h
    · exact .inl h
    · exact .inr (.inr h)

lemma bare_ask : Bare (ask isLayer ids layers s) pad layer ↔ Bare s pad layer := by
  obtain ⟨known, calls, hask⟩ := @ask_frame P isLayer ids layers s
  rw [hask]
  rfl

end Ask

/-! ### Steps -/

section Steps

variable {isLayer copperLayers} {s s' : Canvas P}

lemma inv_ask {ids layers : List String}
    (h : ∀ pad, Present s pad → pad ∉ s.unreported → ∀ layer ∈ copperLayers,
      isLayer layer = true → (s.shape pad layer = none → Bare s pad layer) ∧
        (Served s pad layer ∨
          (s.known pad layer = false ∧ pad ∈ ids ∧ layer ∈ layers ∧ isLayer layer = true))) :
    Inv isLayer copperLayers (ask isLayer ids layers s) := by
  obtain ⟨known, calls, hask⟩ := @ask_frame P isLayer ids layers s
  intro pad hpresent hreported layer hlayer his
  have hbefore : Present s pad ∧ pad ∉ s.unreported ∧
      (ask isLayer ids layers s).shape = s.shape := by
    rw [hask] at hpresent hreported ⊢
    exact ⟨hpresent, hreported, rfl⟩
  obtain ⟨hbare, hserved⟩ := h pad hbefore.1 hbefore.2.1 layer hlayer his
  rw [hbefore.2.2]
  exact ⟨fun hnone => bare_ask.mpr (hbare hnone), served_ask hserved⟩

lemma inv_change (hinv : Inv isLayer copperLayers s) (edits : List (String × String × Option P)) :
    Inv isLayer copperLayers { s with
      shape := edited edits s.shape, unreported := edits.map (·.1) ++ s.unreported } := by
  intro pad hpresent hreported layer hlayer his
  rw [List.mem_append, not_or] at hreported
  have hshape : edited edits s.shape pad layer = s.shape pad layer := by
    have hfind : (edits.find? fun e => e.1 = pad ∧ e.2.1 = layer) = none := by
      rw [List.find?_eq_none]
      intro e he hmatch
      rw [decide_eq_true_eq] at hmatch
      exact hreported.1 (List.mem_map.mpr ⟨e, he, hmatch.1⟩)
    rw [edited, hfind]
    rfl
  have h := hinv pad hpresent hreported.2 layer hlayer his
  rw [Served, ← hshape] at h
  exact h

lemma land_of_bare {pad layer : String} (h : Bare s pad layer) : land s pad layer = none := by
  have hfold : ∀ rs : List (Call × (String → Option P)), (∀ r ∈ rs, carried r pad layer = none) →
      rs.foldl (fun v r => (carried r pad layer).or v) (none : Option P) = none := by
    intro rs
    induction rs with
    | nil => exact fun _ => rfl
    | cons r rs ih =>
      intro hrs
      rw [List.foldl_cons, hrs r List.mem_cons_self]
      exact ih fun r' hr' => hrs r' (List.mem_cons_of_mem _ hr')
  rw [land, h.1]
  exact hfold s.replies h.2

lemma inv_answer (hinv : Inv isLayer copperLayers s) {call : Call} {asked : List Call}
    (hasked : s.asked = call :: asked) :
    Inv isLayer copperLayers { s with
      asked, replies := s.replies ++ [(call, fun pad => s.shape pad call.layer)] } := by
  intro pad hpresent hreported layer hlayer his
  obtain ⟨hbare, hserved⟩ := hinv pad hpresent hreported layer hlayer his
  have hcarried : ∀ v : Option P, (s.shape pad layer = none → v = none) →
      v = s.shape pad layer ∨ (layer = call.layer ∧ pad ∈ call.want) →
      (carried (call, fun pad => s.shape pad call.layer) pad layer).or v = s.shape pad layer := by
    intro v hnone hv
    rw [carried]
    split_ifs with hwant
    · obtain ⟨rfl, -⟩ := hwant
      show (s.shape pad call.layer).or v = _
      rcases hshape : s.shape pad call.layer with _ | p
      · rw [hnone hshape]; rfl
      · rfl
    · exact hv.resolve_right hwant
  have hlast : ∀ (rs : List (Call × (String → Option P))) r v,
      (rs ++ [r]).foldl (fun v r => (carried r pad layer).or v) v =
        (carried r pad layer).or (rs.foldl (fun v r => (carried r pad layer).or v) v) := by
    intro rs r v
    rw [List.foldl_append, List.foldl_cons, List.foldl_nil]
  have hland : (s.shape pad layer = none → land s pad layer = none) :=
    fun hnone => land_of_bare (hbare hnone)
  refine ⟨fun hnone => ⟨(hbare hnone).1, fun r hr => ?_⟩, ?_⟩
  · rcases List.mem_append.mp hr with hr | hr
    · exact (hbare hnone).2 r hr
    · rw [List.mem_singleton.mp hr, carried]
      split_ifs with hwant
      · obtain ⟨rfl, -⟩ := hwant
        exact hnone
      · rfl
  · rcases hserved with ⟨c, hc, hwant⟩ | hserved | ⟨hknown, c, hc, hqueued⟩
    · rw [hasked] at hc
      rcases List.mem_cons.mp hc with rfl | hc
      · refine .inr (.inl ?_)
        rw [land]
        rw [hlast]
        exact hcarried _ hland (.inr ⟨hwant.1.symm, hwant.2⟩)
      · exact .inl ⟨c, hc, hwant⟩
    · refine .inr (.inl ?_)
      rw [land]
      rw [hlast]
      exact hcarried _ hland (.inl hserved)
    · refine .inr (.inr ⟨hknown, c, ?_, hqueued⟩)
      rw [hasked] at hc
      simp only [List.map_append, List.map_cons, List.map_nil, List.mem_append, List.mem_cons,
        List.not_mem_nil, or_false] at hc ⊢
      tauto

lemma land_deliver {r : Call × (String → Option P)} {replies : List (Call × (String → Option P))}
    (h : s.replies = r :: replies) (pad layer : String) :
    land { s with replies, polys := put r.1 r.2 s.polys } pad layer = land s pad layer := by
  have hput : put r.1 r.2 s.polys pad layer = (carried r pad layer).or (s.polys pad layer) := by
    rw [put, carried]
    split_ifs
    · rfl
    · rfl
  rw [land, land, h, List.foldl_cons]
  show replies.foldl _ (put r.1 r.2 s.polys pad layer) = _
  rw [hput]

lemma inv_deliver (hinv : Inv isLayer copperLayers s) {r : Call × (String → Option P)}
    {replies : List (Call × (String → Option P))} (hreplies : s.replies = r :: replies) :
    Inv isLayer copperLayers
      (ask isLayer r.1.ids r.1.rest { s with replies, polys := put r.1 r.2 s.polys }) := by
  refine inv_ask fun pad hpresent hreported layer hlayer his => ?_
  obtain ⟨hbare, hserved⟩ := hinv pad hpresent hreported layer hlayer his
  refine ⟨fun hnone => ⟨?_, fun r' hr' => ?_⟩, ?_⟩
  · have hcarried := (hbare hnone).2 r (hreplies ▸ List.mem_cons_self)
    show put r.1 r.2 s.polys pad layer = none
    rw [carried] at hcarried
    rw [put, (hbare hnone).1]
    split_ifs at hcarried ⊢ with hwant
    · rw [hcarried]
      rfl
    · rfl
  · exact (hbare hnone).2 r' (hreplies ▸ List.mem_cons_of_mem _ hr')
  · rcases hserved with hawaited | hland | ⟨hknown, call, hcall, hqueued⟩
    · exact .inl (.inl hawaited)
    · exact .inl (.inr (.inl ((land_deliver hreplies pad layer).trans hland)))
    · rw [hreplies, List.map_cons, List.mem_append, List.mem_cons] at hcall
      rcases hcall with hcall | rfl | hcall
      · exact .inl (.inr (.inr ⟨hknown, call, List.mem_append_left _ hcall, hqueued⟩))
      · exact .inr ⟨hknown, hqueued.1, hqueued.2, his⟩
      · exact .inl (.inr (.inr ⟨hknown, call, List.mem_append_right _ hcall, hqueued⟩))

lemma mem_pads {items : List Item} {pad : String} :
    pad ∈ (items.flatMap Item.pads).dedup ↔ pad ∈ items.flatMap Item.pads := List.mem_dedup

lemma inv_mount (hinv : Inv isLayer copperLayers s) :
    Inv isLayer copperLayers (request isLayer copperLayers s.store s) :=
  inv_ask fun pad hpresent hreported layer hlayer his =>
    have h := hinv pad hpresent hreported layer hlayer his
    ⟨h.1, .inl h.2⟩

lemma inv_diff (hinv : Inv isLayer copperLayers s) {changed : List Item}
    (hok : Refreshes isLayer copperLayers s (.diff changed)) :
    Inv isLayer copperLayers (request isLayer copperLayers changed
      (invalidate (changed.map Item.id)
        { s with
          store := updated changed s.store
          unreported := s.unreported.filter (· ∉ changed.flatMap Item.pads) })) := by
  refine inv_ask fun pad hpresent hreported layer hlayer his => ?_
  by_cases hpad : pad ∈ changed.flatMap Item.pads
  · obtain ⟨hbare, hknown⟩ := hok pad hpad layer hlayer his
    refine ⟨hbare, ?_⟩
    by_cases hstill : s.known pad layer = true ∧ startsWith (changed.map Item.id) pad layer = false
    · rcases hknown hstill.1 with h | h | h
      · rw [hstill.2] at h
        exact absurd h Bool.false_ne_true
      · exact .inl (.inl h)
      · exact .inl (.inr (.inl h))
    · refine .inr ⟨?_, mem_pads.mpr hpad, hlayer, his⟩
      show (s.known pad layer && !startsWith (changed.map Item.id) pad layer) = false
      simp only [not_and, Bool.not_eq_false] at hstill
      cases hk : s.known pad layer
      · rfl
      · rw [hstill hk]
        rfl
  · have hbefore : Present s pad := by
      obtain ⟨item, hitem, hmem⟩ := hpresent
      rcases List.mem_append.mp hitem with hitem | hitem
      · exact absurd (List.mem_flatMap.mpr ⟨item, hitem, hmem⟩) hpad
      · exact ⟨item, List.mem_of_mem_filter hitem, hmem⟩
    have hreported' : pad ∉ s.unreported := fun hmem =>
      hreported (List.mem_filter.mpr ⟨hmem, decide_eq_true hpad⟩)
    obtain ⟨hbare, hserved⟩ := hinv pad hbefore hreported' layer hlayer his
    refine ⟨hbare, .inl ?_⟩
    rcases hserved with h | h | ⟨hknown, hqueued⟩
    · exact .inl h
    · exact .inr (.inl h)
    · refine .inr (.inr ⟨?_, hqueued⟩)
      show (s.known pad layer && _) = false
      rw [hknown]
      rfl

/-- **One step.** -/
lemma inv_step (hinv : Inv isLayer copperLayers s) {e : Event P}
    (hok : Refreshes isLayer copperLayers s e) (hstep : step isLayer copperLayers s e = some s') :
    Inv isLayer copperLayers s' := by
  cases e with
  | mount => exact Option.some.inj hstep ▸ inv_mount hinv
  | change edits => exact Option.some.inj hstep ▸ inv_change hinv edits
  | diff changed => exact Option.some.inj hstep ▸ inv_diff hinv hok
  | answer =>
    rcases hasked : s.asked with _ | ⟨call, asked⟩
    · simp [step, hasked] at hstep
    · simp only [step, hasked, Option.some.injEq] at hstep
      exact hstep ▸ inv_answer hinv hasked
  | deliver =>
    rcases hreplies : s.replies with _ | ⟨r, replies⟩
    · simp [step, hreplies] at hstep
    · simp only [step, hreplies, Option.some.injEq] at hstep
      exact hstep ▸ inv_deliver hinv hreplies
  | fail => exact absurd hok id

end Steps

/-- **The polygons converge.** In a run whose diffs all refresh what they change, every pad has
on every copper layer the polygon that the server has, or none if it has none, whenever nothing
is under way. -/
theorem polygons_converge {es : List (Event P)} {s : Canvas P}
    (hok : Along (step isLayer copperLayers) (Refreshes isLayer copperLayers) {} es)
    (hrun : run (step isLayer copperLayers) {} es = some s) (hquiet : Quiet s) :
    ∀ pad, Present s pad → ∀ layer ∈ copperLayers, isLayer layer = true →
      s.polys pad layer = s.shape pad layer := by
  have hinit : Inv isLayer copperLayers ({} : Canvas P) := by
    rintro pad ⟨item, hitem, -⟩
    exact absurd hitem List.not_mem_nil
  have hinv : Inv isLayer copperLayers s :=
    invariant_along _ (fun _ _ _ h hok hstep => inv_step h hok hstep) hinit hok hrun
  intro pad hpresent layer hlayer his
  have hreported : pad ∉ s.unreported := by rw [hquiet.unreported]; exact List.not_mem_nil
  rcases (hinv pad hpresent hreported layer hlayer his).2 with
    ⟨call, hcall, -⟩ | hland | ⟨-, call, hcall, -⟩
  · rw [hquiet.asked] at hcall
    exact absurd hcall List.not_mem_nil
  · rw [land, hquiet.replies] at hland
    exact hland
  · rw [hquiet.asked, hquiet.replies] at hcall
    exact absurd hcall List.not_mem_nil

/-! ### Two runs -/

/-- The layers of a board that has two. -/
def twoLayers : List String := ["BL_F_Cu", "BL_B_Cu"]

/-- A pad is added, and then it has another polygon on one layer. -/
def padRun : List (Event ℕ) :=
  [.change [("p1", "BL_F_Cu", some 1), ("p1", "BL_B_Cu", some 2)], .diff [.pad "p1"],
    .answer, .deliver, .change [("p1", "BL_F_Cu", some 3)], .diff [.pad "p1"], .answer, .deliver,
    .answer, .deliver, .answer, .deliver]

/-- The same of a footprint with one pad. -/
def footprintRun : List (Event ℕ) :=
  [.change [("p1", "BL_F_Cu", some 1)], .diff [.footprint "f1" ["p1"]], .answer, .deliver,
    .answer, .deliver, .change [("p1", "BL_F_Cu", some 2)], .diff [.footprint "f1" ["p1"]]]

def after (es : List (Event ℕ)) : Canvas ℕ :=
  (run (step (fun _ => true) twoLayers) {} es).getD {}

lemma run_after {es : List (Event ℕ)} (h : (run (step (fun _ => true) twoLayers) {} es).isSome) :
    run (step (fun _ => true) twoLayers) {} es = some (after es) := by
  obtain ⟨s, hs⟩ := Option.isSome_iff_exists.mp h
  rw [after, hs, Option.getD_some]

theorem polygons_converge_pad : (after padRun).polys "p1" "BL_F_Cu" =
    (after padRun).shape "p1" "BL_F_Cu" :=
  polygons_converge (fun _ => true) twoLayers (by decide +kernel) (run_after (by decide +kernel))
    ⟨by decide +kernel, by decide +kernel, by decide +kernel⟩ "p1" (by decide +kernel) "BL_F_Cu"
    (by decide) rfl

/-- The pad of a footprint keeps its old polygon, and nothing is under way. -/
theorem footprint_stale :
    run (step (fun _ => true) twoLayers) {} footprintRun = some (after footprintRun) ∧
      Quiet (after footprintRun) ∧ Present (after footprintRun) "p1" ∧
      (after footprintRun).polys "p1" "BL_F_Cu" ≠ (after footprintRun).shape "p1" "BL_F_Cu" :=
  ⟨run_after (by decide +kernel), ⟨by decide +kernel, by decide +kernel, by decide +kernel⟩,
    by decide +kernel, by decide +kernel⟩

end Runs

end FabPcb.PadPolygons
