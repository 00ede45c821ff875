import FabPcb.OrderedMap
import FabPcb.Runs

/-!
The cache of the shapes that KiCad draws the texts of a store with.

A text is asked for when its hash is not that of the last reply for it. Texts wait in a queue while
a batch is under way: first the texts whose place depends on their extents are measured, one
request each, then the shapes are asked for, so many texts at a time.
-/

namespace FabPcb.TextShapes

open OrderedMap

/-- A text of an item: one to be drawn, one laid out in a box, or one whose place its extents
decide. -/
inductive Content (T B Box : Type)
  | text (text : T)
  | textbox (textbox : B)
  | measured (measure : T) (place : Box → T)

structure TextRef (T B Box : Type) where
  key : String
  hash : Option String
  content : Content T B Box

/-- What stands for the hashes of texts and boxes, and KiCad. -/
structure Service (T B Box G : Type) where
  textHash : Option T → String
  boxHash : B → String
  textExtents : T → Box
  textAsShapes : T → List G
  boxAsShapes : B → List G

variable {T B Box G : Type}

def isReady (r : TextRef T B Box) : Bool :=
  match r.content with
  | .text _ | .textbox _ => true
  | .measured _ _ => false

def hashText (K : Service T B Box G) (r : TextRef T B Box) : String :=
  (r.hash.filter (· ≠ "")).getD
    (match r.content with
    | .text t => K.textHash (some t)
    | .textbox b => K.boxHash b
    | .measured _ _ => K.textHash none)

/-- A text with its extents known. -/
def resolved (r : TextRef T B Box) (box : Box) : TextRef T B Box :=
  match r.content with
  | .measured _ place => { r with content := .text (place box) }
  | .text _ | .textbox _ => r

/-- How many texts a request for shapes takes. -/
def TEXT_BATCH : ℕ := 200

/-- A batch under way. -/
inductive Flight (T B Box : Type)
  /-- The extents of a text are asked for; the texts before it have theirs. -/
  | measuring (before : List (TextRef T B Box)) (ref : TextRef T B Box)
      (after : List (TextRef T B Box)) (initial : Bool)
  /-- The shapes of some texts are asked for, and those of others are still to be. -/
  | shaping (slice rest : List (TextRef T B Box)) (done : List String) (initial : Bool)
  /-- All is done but for the `finally`. -/
  | finished

/-- The cache, with the texts of its store and what is drawn of them. -/
structure TextShapeCache (T B Box G : Type) where
  texts : OMap String (TextRef T B Box) := OMap.empty
  shapes : OMap String (List G) := OMap.empty
  hashes : OMap String String := OMap.empty
  inflight : Option (Flight T B Box) := none
  queued : OMap String (TextRef T B Box) := OMap.empty
  kicad : Bool := false
  /-- The calls of `onReady`, and the shapes that the texts had when they were last reported. -/
  ready : List (List String × Bool) := []
  drawn : OMap String (List G) := OMap.empty

namespace TextShapeCache

/-- A text is drawn anew with the shapes that it has now. -/
def draw (shapes : OMap String (List G)) (drawn : OMap String (List G)) (key : String) :
    OMap String (List G) :=
  ((shapes.get? key).map (drawn.set key)).getD drawn

def onReady (s : TextShapeCache T B Box G) (done : List String) (initial : Bool) :
    TextShapeCache T B Box G :=
  { s with
    ready := s.ready ++ [(done, initial)]
    drawn := done.foldl (draw s.shapes) s.drawn }

/-- The next request for shapes, or the end of the batch. -/
def askShapes (s : TextShapeCache T B Box G) (texts : List (TextRef T B Box)) (done : List String)
    (initial : Bool) : TextShapeCache T B Box G :=
  if texts.isEmpty then
    let s := if done.isEmpty then s else s.onReady done initial
    { s with inflight := some .finished }
  else
    { s with
      inflight := some (.shaping (texts.take TEXT_BATCH) (texts.drop TEXT_BATCH) done initial) }

/-- The first text that is still to be measured. -/
def splitMeasured : List (TextRef T B Box) →
    Option (List (TextRef T B Box) × TextRef T B Box × List (TextRef T B Box))
  | [] => none
  | r :: refs =>
    if isReady r then (splitMeasured refs).map fun p => (r :: p.1, p.2) else some ([], r, refs)

/-- The next request for extents, or the shapes of what is ready. -/
def askExtents (s : TextShapeCache T B Box G) (before after : List (TextRef T B Box))
    (initial : Bool) : TextShapeCache T B Box G :=
  match splitMeasured after with
  | some (pre, r, post) =>
    { s with inflight := some (.measuring (before ++ pre) r post initial) }
  | none => s.askShapes ((before ++ after).filter isReady) [] initial

def flush (s : TextShapeCache T B Box G) (initial : Bool) : TextShapeCache T B Box G :=
  if s.inflight.isSome || s.queued.entries.isEmpty || !s.kicad then s
  else askExtents { s with queued := OMap.empty } [] s.queued.values initial

/-- A text is as it is now, and is queued if its hash is unknown or changed. -/
def enqueue (K : Service T B Box G) (s : TextShapeCache T B Box G) (r : TextRef T B Box) :
    TextShapeCache T B Box G :=
  { s with
    texts := s.texts.set r.key r
    queued := if s.hashes.get? r.key = some (hashText K r) then s.queued
      else s.queued.set r.key r }

def request (K : Service T B Box G) (s : TextShapeCache T B Box G) (refs : List (TextRef T B Box))
    (initial : Bool) : TextShapeCache T B Box G :=
  (refs.foldl (enqueue K) s).flush initial

/-- The shapes of a text arrive. -/
def land (K : Service T B Box G) (s : TextShapeCache T B Box G)
    (p : TextRef T B Box × List G) : TextShapeCache T B Box G :=
  { s with
    shapes := s.shapes.set p.1.key p.2
    hashes := s.hashes.set p.1.key (hashText K p.1) }

/-- Extents arrive, or the request for them fails. -/
def extents (s : TextShapeCache T B Box G) (answer : Option Box) :
    Option (TextShapeCache T B Box G) :=
  match s.inflight with
  | some (.measuring before r after initial) =>
    match answer with
    | some box => some (s.askExtents (before ++ [resolved r box]) after initial)
    | none => some (s.askShapes ((before ++ r :: after).filter isReady) [] initial)
  | _ => none

/-- Shapes arrive, each or none for its text, or the request for them fails. -/
def shaped (K : Service T B Box G) (s : TextShapeCache T B Box G)
    (answer : Option (List (Option (List G)))) : Option (TextShapeCache T B Box G) :=
  match s.inflight with
  | some (.shaping slice rest done initial) =>
    match answer with
    | some shapes =>
      let arrived := slice.zip (shapes.map fun x => x.getD [])
      some ((arrived.foldl (land K) s).askShapes rest (done ++ arrived.map fun p => p.1.key)
        initial)
    | none => some (s.askShapes rest done initial)
  | _ => none

/-- The `finally` behind a batch. -/
def settle (s : TextShapeCache T B Box G) : Option (TextShapeCache T B Box G) :=
  match s.inflight with
  | some .finished => some (flush { s with inflight := none } false)
  | _ => none

end TextShapeCache

inductive Event (T B Box G : Type)
  /-- Items of the store change, and all their texts, as they are now, are requested. -/
  | request (refs : List (TextRef T B Box)) (initial : Bool)
  | removed (keys : List String)
  | connection (up : Bool)
  | extents (answer : Option Box)
  | shaped (answer : Option (List (Option (List G))))
  | settle

def step (K : Service T B Box G) (s : TextShapeCache T B Box G) :
    Event T B Box G → Option (TextShapeCache T B Box G)
  | .request refs initial => some (s.request K refs initial)
  | .removed keys => some { s with texts := keys.foldl OMap.delete s.texts }
  | .connection up => some { s with kicad := up }
  | .extents answer => s.extents answer
  | .shaped answer => s.shaped K answer
  | .settle => s.settle

/-! ### What is wanted -/

/-- The shapes of a text. -/
def shapesOf (K : Service T B Box G) (r : TextRef T B Box) : List G :=
  match r.content with
  | .text t => K.textAsShapes t
  | .textbox b => K.boxAsShapes b
  | .measured m place => K.textAsShapes (place (K.textExtents m))

/-- No request is in flight or queued. -/
def Quiet (s : TextShapeCache T B Box G) : Prop :=
  s.inflight.isNone = true ∧ s.queued.entries.isEmpty = true

instance (s : TextShapeCache T B Box G) : Decidable (Quiet s) := inferInstanceAs (Decidable (_ ∧ _))

/-- Every text of the store has the shapes of its content, and is drawn with them. -/
def Converged (K : Service T B Box G) (s : TextShapeCache T B Box G) : Prop :=
  ∀ k r, s.texts.get? k = some r →
    s.shapes.get? k = some (shapesOf K r) ∧ s.drawn.get? k = some (shapesOf K r)

end FabPcb.TextShapes
