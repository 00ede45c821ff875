import FabPcb.Outline

/-!
A compile's dealings with the server: the requests it issues, the board they are about, and what
the server answers.

The graphics and the tracks of the board are kept as the server keeps them. What else the server
answers is open: each question that a run asks has its answer in a `Server`, and any request may
fail.
-/

namespace FabPcb.BoardJob

open Outline

/-! ### The board -/

structure TrackItem where
  id : ℕ
  via : Option Via
  net : String

/-- The server gives every graphic an id of its own. -/
structure Board where
  shapes : List BoardShape
  tracks : List TrackItem
  nextId : ℕ
  distinct : (shapes.map (·.id)).Nodup
  below : ∀ shape ∈ shapes, shape.id < nextId

inductive Change where
  | deleteShapes (ids : List ℕ)
  | deleteTracks (ids : List ℕ)
  | create (shapes : List BoardShape) (vias : List Via)
  | updateShapes (shapes : List BoardShape)
  | updateFootprints (refs : List String)

/-- The ids that created graphics get. -/
def numbered (n : ℕ) : List BoardShape → List BoardShape
  | [] => []
  | shape :: shapes => { shape with id := n } :: numbered (n + 1) shapes

lemma id_numbered (n : ℕ) (shapes : List BoardShape) :
    (numbered n shapes).map (·.id) = List.range' n shapes.length := by
  induction shapes generalizing n with
  | nil => rfl
  | cons shape shapes ih => simp [numbered, ih, List.range'_succ]

lemma mem_numbered {n : ℕ} {shapes : List BoardShape} {shape : BoardShape}
    (h : shape ∈ numbered n shapes) : n ≤ shape.id ∧ shape.id < n + shapes.length := by
  have hid : shape.id ∈ (numbered n shapes).map (·.id) := List.mem_map_of_mem h
  rw [id_numbered, List.mem_range'_1] at hid
  exact hid

def Board.create (b : Board) (shapes : List BoardShape) (vias : List Via) : Board where
  shapes := b.shapes ++ numbered b.nextId shapes
  tracks := b.tracks ++ vias.mapIdx fun i v => ⟨b.nextId + shapes.length + i, some v, ""⟩
  nextId := b.nextId + shapes.length + vias.length
  distinct := by
    rw [List.map_append, id_numbered]
    refine List.nodup_append.mpr ⟨b.distinct, List.nodup_range' .., ?_⟩
    intro a ha c hc hac
    obtain ⟨shape, hshape, rfl⟩ := List.mem_map.mp ha
    have hlt := b.below shape hshape
    have hge := List.mem_range'_1.mp hc
    omega
  below := by
    intro shape hshape
    rcases List.mem_append.mp hshape with hold | hnew
    · have hlt := b.below shape hold
      omega
    · have hlt := (mem_numbered hnew).2
      omega

def Board.deleteShapes (b : Board) (ids : List ℕ) : Board :=
  { b with
    shapes := b.shapes.filter (·.id ∉ ids)
    distinct := b.distinct.sublist (List.filter_sublist.map _)
    below := fun shape hshape => b.below shape (List.mem_of_mem_filter hshape) }

/-- The graphics of the same id are replaced. -/
def replaced (moved : List BoardShape) (shape : BoardShape) : BoardShape :=
  (moved.find? (·.id = shape.id)).getD shape

lemma id_replaced (moved : List BoardShape) (shape : BoardShape) :
    (replaced moved shape).id = shape.id := by
  unfold replaced
  cases h : moved.find? (·.id = shape.id) with
  | none => rfl
  | some m =>
    have hm := List.find?_some h
    exact of_decide_eq_true hm

def Board.updateShapes (b : Board) (moved : List BoardShape) : Board :=
  { b with
    shapes := b.shapes.map (replaced moved)
    distinct := by
      have hids : (b.shapes.map (replaced moved)).map (·.id) = b.shapes.map (·.id) := by
        rw [List.map_map]
        exact List.map_congr_left fun shape _ => id_replaced moved shape
      exact hids ▸ b.distinct
    below := by
      intro shape hshape
      obtain ⟨old, hold, rfl⟩ := List.mem_map.mp hshape
      rw [id_replaced]
      exact b.below old hold }

def Board.apply (b : Board) : Change → Board
  | .deleteShapes ids => b.deleteShapes ids
  | .deleteTracks ids => { b with tracks := b.tracks.filter (·.id ∉ ids) }
  | .create shapes vias => b.create shapes vias
  | .updateShapes shapes => b.updateShapes shapes
  | .updateFootprints _ => b

/-! ### Requests and answers -/

/-- The minimum constraints that rules name, in nanometres. -/
structure Constraints where
  minClearance : Option ℤ
  minTrackWidth : Option ℤ
  minViaSize : Option ℤ
  minThroughDrill : Option ℤ

inductive Request where
  | registerLibraries (nicknames : List String)
  | generateSchematic
  | reopenSchematic
  | runErc
  | netMerges
  | restoreSchematic
  | getTracks
  | getShapes
  | getFootprints
  | getFootprintIds
  | getPads
  | boundingBoxes (ids : List String)
  | getDesignRules
  | setDesignRules (constraints : Constraints)
  | commit (message : String) (changes : List Change)
  | updateBoard (dryRun : Bool)
  | autoplace (ids : List String)
  | runDrc

/-- The requests that change the board. -/
def Request.changesBoard : Request → Bool
  | .setDesignRules _ | .commit _ _ | .autoplace _ => true
  | .updateBoard dryRun => !dryRun
  | _ => false

inductive Failure where
  | cancelled
  | thrown (message : String)

structure Session where
  board : Board
  issued : List Request

/-- A part of a compile: it may throw, and it leaves requests and a board. -/
abbrev Job := StateT Session (Except Failure)

/-- Any request may fail, depending on all that came before. -/
abbrev Fails := List Request → Request → Option String

def ask (fails : Fails) (r : Request) : Job Unit := fun s =>
  match fails s.issued r with
  | some m => .error (.thrown m)
  | none => .ok ((), { s with issued := s.issued ++ [r] })

def getShapes (fails : Fails) : Job (List BoardShape) := do
  ask fails .getShapes
  return (← get).board.shapes

def getTracks (fails : Fails) : Job (List TrackItem) := do
  ask fails .getTracks
  return (← get).board.tracks

def commit (fails : Fails) (message : String) (changes : List Change) : Job Unit := do
  ask fails (.commit message changes)
  modify fun s => { s with board := changes.foldl Board.apply s.board }

/-- `signal.aborted` is looked at between the stages. -/
def cancelled (aborted : Bool) : Job Unit := fun s =>
  if aborted then .error .cancelled else .ok ((), s)

section Ok

variable {α β : Type} {x : Job α} {f : α → Job β} {s t : Session} {fails : Fails}

lemma bind_ok {b : β} : (x >>= f) s = .ok (b, t) ↔ ∃ a u, x s = .ok (a, u) ∧ f a u = .ok (b, t) := by
  show (Except.bind (x s) fun p => f p.1 p.2) = .ok (b, t) ↔ _
  cases hx : x s with
  | error e => simp [Except.bind]
  | ok p =>
    obtain ⟨a, u⟩ := p
    simp [Except.bind]

lemma pure_ok {a b : α} : (pure a : Job α) s = .ok (b, t) ↔ a = b ∧ s = t := by
  show Except.ok (a, s) = .ok (b, t) ↔ _
  simp

lemma ask_ok {r : Request} {u : Unit} : ask fails r s = .ok (u, t) ↔
    fails s.issued r = none ∧ { s with issued := s.issued ++ [r] } = t := by
  unfold ask
  cases fails s.issued r <;> simp

lemma cancelled_ok {aborted : Bool} {u : Unit} : cancelled aborted s = .ok (u, t) ↔
    aborted = false ∧ s = t := by
  unfold cancelled
  cases aborted <;> simp

lemma getShapes_ok {shapes : List BoardShape} (h : getShapes fails s = .ok (shapes, t)) :
    shapes = s.board.shapes ∧ t = { s with issued := s.issued ++ [.getShapes] } := by
  obtain ⟨_, u, hask, h⟩ := bind_ok.mp h
  obtain ⟨_, rfl⟩ := ask_ok.mp hask
  cases h
  exact ⟨rfl, rfl⟩

lemma getTracks_ok {tracks : List TrackItem} (h : getTracks fails s = .ok (tracks, t)) :
    tracks = s.board.tracks ∧ t = { s with issued := s.issued ++ [.getTracks] } := by
  obtain ⟨_, u, hask, h⟩ := bind_ok.mp h
  obtain ⟨_, rfl⟩ := ask_ok.mp hask
  cases h
  exact ⟨rfl, rfl⟩

lemma commit_ok {message : String} {changes : List Change} {u : Unit}
    (h : commit fails message changes s = .ok (u, t)) :
    t = ⟨changes.foldl Board.apply s.board, s.issued ++ [.commit message changes]⟩ := by
  obtain ⟨_, v, hask, h⟩ := bind_ok.mp h
  obtain ⟨_, rfl⟩ := ask_ok.mp hask
  cases h
  rfl

lemma run_some {γ : Type} {g : α × Session → γ} {c : γ} (h : (x s).toOption.map g = some c) :
    ∃ a t, x s = .ok (a, t) ∧ g (a, t) = c := by
  obtain ⟨⟨a, t⟩, hp, rfl⟩ := Option.map_eq_some_iff.mp h
  cases hx : x s with
  | error e =>
    rw [hx] at hp
    cases hp
  | ok p =>
    rw [hx] at hp
    cases hp
    exact ⟨a, t, rfl, rfl⟩

lemma pair_some {γ : Type} {y : Job β} {g : (α × β) × Session → γ} {c : γ}
    (h : ((do let a ← x; let b ← y; return (a, b) : Job (α × β)) s).toOption.map g = some c) :
    ∃ a t b u, x s = .ok (a, t) ∧ y t = .ok (b, u) ∧ g ((a, b), u) = c := by
  obtain ⟨p, u, hok, hg⟩ := run_some h
  obtain ⟨a, t, hfirst, hrest⟩ := bind_ok.mp hok
  obtain ⟨b, v, hsecond, hpair⟩ := bind_ok.mp hrest
  obtain ⟨rfl, rfl⟩ := pure_ok.mp hpair
  exact ⟨a, t, b, v, hfirst, hsecond, hg⟩

end Ok

end FabPcb.BoardJob
