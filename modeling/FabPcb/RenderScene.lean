import FabPcb.OrderedMap
import FabPcb.RenderShapes

/-!
The scene of a canvas: what is drawn for each item, and the contexts that items share.

An item is drawn about its anchor. Lines and fills go into a graphics context, and what a context
cannot hold is put into the object of the item. Items of one cache key share a context, which is
counted and destroyed with the last of them. Layers, colours and places are left out.
-/

namespace FabPcb.RenderScene

open OrderedMap RenderShapes
open SpecctraData (Vec2 roundHalfUp)
open FootprintItems (JsMath)

/-! ### Primitives -/

inductive HAlign where
  | left
  | center
  | right

inductive VAlign where
  | top
  | center
  | bottom

structure TextGlyphs where
  text : String
  pos : Vec2
  size : Vec2
  thickness : ℚ
  angle : ℚ
  halign : HAlign
  valign : VAlign
  mirrored : Bool
  bold : Bool
  italic : Bool
  outline : List Vec2

inductive Primitive where
  | segment (a b : Vec2) (width : ℚ)
  | arc (start mid stop : Vec2) (width : ℚ)
  | circle (c : Vec2) (r width : ℚ) (fill : Bool)
  | polygon (outline : List Vec2) (holes : List (List Vec2)) (fill : Bool) (width : ℚ)
    (mesh : Bool)
  | bezier (p0 p1 p2 p3 : Vec2) (width : ℚ)
  | textShapes (polys : List (List Vec2))
  | image (c : Vec2) (w h : ℚ) (dataUrl : String)
  | textGlyphs (glyphs : TextGlyphs)

def Primitive.shift (v : Vec2) : Primitive → Primitive
  | .segment a b width => .segment (RenderShapes.shift v a) (RenderShapes.shift v b) width
  | .arc start mid stop width =>
    .arc (RenderShapes.shift v start) (RenderShapes.shift v mid) (RenderShapes.shift v stop) width
  | .circle c r width fill => .circle (RenderShapes.shift v c) r width fill
  | .polygon outline holes fill width mesh =>
    .polygon (outline.map (RenderShapes.shift v)) (holes.map (List.map (RenderShapes.shift v)))
      fill width mesh
  | .bezier p0 p1 p2 p3 width =>
    .bezier (RenderShapes.shift v p0) (RenderShapes.shift v p1) (RenderShapes.shift v p2)
      (RenderShapes.shift v p3) width
  | .textShapes polys => .textShapes (polys.map (List.map (RenderShapes.shift v)))
  | .image c w h dataUrl => .image (RenderShapes.shift v c) w h dataUrl
  | .textGlyphs g => .textGlyphs
    { g with pos := RenderShapes.shift v g.pos, outline := g.outline.map (RenderShapes.shift v) }

/-! ### `buildGraphics` -/

inductive Instruction where
  | poly (points : List Vec2) (closed : Bool)
  | fill
  | stroke
  | cut

/-- What a context cannot hold; `δ` is what a builder adds. -/
inductive HostChild (δ : Type) where
  | mesh (coords : List Vec2) (holes : List ℕ) (indices : List ℕ)
  | sprite (position : Vec2) (w h : ℚ) (dataUrl : String)
  | built (object : δ)

/-- A builder claims a primitive or does not, and adds objects, which are relative to the anchor. -/
structure PrimitiveBuilder (δ : Type) where
  run : Primitive → Vec2 → Bool × List δ
  relative : ∀ p a v, run (p.shift v) (shift v a) = run p a

structure SceneOptions (δ : Type) where
  math : JsMath
  /-- The triangles of an outline with holes, which start at the numbers that are given. -/
  earcut : List Vec2 → List ℕ → List ℕ
  meshThreshold : ℕ
  hasDocument : Bool
  primitiveBuilder : Option (PrimitiveBuilder δ)

/-- What has been drawn so far. -/
structure Drawing (δ : Type) where
  instructions : List Instruction := []
  pendingFill : ℕ := 0
  used : Bool := false
  children : List (HostChild δ) := []

section Drawing

variable {δ : Type} (opts : SceneOptions δ) (anchor : Vec2)

def flat (pts : List Vec2) : List Vec2 := pts.map fun p => ⟨p.x - anchor.x, p.y - anchor.y⟩

def addFill (d : Drawing δ) (poly : List Vec2) : Drawing δ :=
  if poly.length < 3 then d
  else { d with instructions := d.instructions ++ [.poly (flat anchor poly) true],
                pendingFill := d.pendingFill + 1 }

def flushFill (d : Drawing δ) : Drawing δ :=
  if d.pendingFill = 0 then d
  else { d with instructions := d.instructions ++ [.fill], pendingFill := 0, used := true }

/-- Fills that are pending come first. -/
def emit (d : Drawing δ) (instructions : List Instruction) : Drawing δ :=
  { flushFill d with
    instructions := (flushFill d).instructions ++ instructions
    used := true }

def hairline (d : Drawing δ) (pts : List Vec2) (closed : Bool) : Drawing δ :=
  if pts.length < 2 then d else emit d [.poly (flat anchor pts) closed, .stroke]

/-- Each side of an outline, of an open one all but the last. -/
def sides (pts : List Vec2) (closed : Bool) : List (Vec2 × Vec2) :=
  pts.zip (pts.tail ++ if closed then pts.head?.toList else [])

def wideOutline (d : Drawing δ) (pts : List Vec2) (width : ℚ) (closed : Bool) : Drawing δ :=
  (sides pts closed).foldl (fun d s => addFill anchor d (stadiumPolygon opts.math s.1 s.2 width)) d

def drawPath (d : Drawing δ) (pts : List Vec2) (width : ℚ) : Drawing δ :=
  if 0 < width then addFill anchor d (offsetPathPolygon opts.math pts width)
  else hairline anchor d pts false

def holeStarts (count : ℕ) : List (List Vec2) → List ℕ
  | [] => []
  | h :: hs => count :: holeStarts (count + h.length) hs

def buildMesh (outline : List Vec2) (holes : List (List Vec2)) : Option (HostChild δ) :=
  let rings := holes.filter fun h => 3 ≤ h.length
  let coords := flat anchor (outline ++ rings.flatten)
  let indices := opts.earcut coords (holeStarts outline.length rings)
  if indices = [] then none else some (.mesh coords (holeStarts outline.length rings) indices)

/-- Fills of many corners are meshes. -/
def isBig (outline : List Vec2) (holes : List (List Vec2)) (mesh : Bool) : Bool :=
  mesh || decide (opts.meshThreshold ≤ outline.length + (holes.map List.length).sum)

def drawFill (d : Drawing δ) (outline : List Vec2) (holes : List (List Vec2)) (mesh : Bool) :
    Drawing δ :=
  if isBig opts outline holes mesh then
    { d with children := d.children ++ (buildMesh opts anchor outline holes).toList }
  else
    emit d ([.poly (flat anchor outline) true, .fill] ++
      (holes.filter fun h => 3 ≤ h.length).flatMap fun h => [.poly (flat anchor h) true, .cut])

def drawOutline (d : Drawing δ) (outline : List Vec2) (holes : List (List Vec2)) (width : ℚ) :
    Drawing δ :=
  let closed := decide (3 ≤ outline.length)
  if 0 < width then
    holes.foldl (fun d h => wideOutline opts anchor d h width true)
      (wideOutline opts anchor d outline width closed)
  else
    holes.foldl (fun d h => hairline anchor d h true) (hairline anchor d outline closed)

def drawCircle (d : Drawing δ) (c : Vec2) (r width : ℚ) (fill : Bool) : Drawing δ :=
  let n := circleSegments opts.math (r + width / 2)
  let outer := circleToPolygon opts.math c (r + if fill then 0 else width / 2) n
  if fill then
    let d := addFill anchor d outer
    if 0 < width then addFill anchor d (circleToPolygon opts.math c (r + width / 2) n) else d
  else if 0 < width then
    let inner := r - width / 2
    emit d ([.poly (flat anchor outer) true, .fill] ++
      if 0 < inner then
        [.poly (flat anchor (circleToPolygon opts.math c inner (circleSegments opts.math inner)))
          true, .cut]
      else [])
  else hairline anchor d outer true

def drawImage (d : Drawing δ) (c : Vec2) (w h : ℚ) (dataUrl : String) : Drawing δ :=
  if opts.hasDocument then
    { d with children := d.children ++ [.sprite ⟨c.x - anchor.x, c.y - anchor.y⟩ w h dataUrl] }
  else
    hairline anchor d [⟨c.x - w / 2, c.y - h / 2⟩, ⟨c.x + w / 2, c.y - h / 2⟩,
      ⟨c.x + w / 2, c.y + h / 2⟩, ⟨c.x - w / 2, c.y + h / 2⟩] true

def drawPrimitive (d : Drawing δ) : Primitive → Drawing δ
  | .segment a b width =>
    if 0 < width then addFill anchor d (stadiumPolygon opts.math a b width)
    else hairline anchor d [a, b] false
  | .arc start mid stop width =>
    drawPath opts anchor d (arcToPolylineFixed opts.math start mid stop) width
  | .circle c r width fill => drawCircle opts anchor d c r width fill
  | .polygon outline holes fill width mesh =>
    if outline.length < 2 then d
    else
      let d := if fill && decide (3 ≤ outline.length) then drawFill opts anchor d outline holes mesh
        else d
      if !fill || decide (0 < width) then drawOutline opts anchor d outline holes width else d
  | .bezier p0 p1 p2 p3 width => drawPath opts anchor d (bezierToPolyline p0 p1 p2 p3 24) width
  | .textShapes polys =>
    polys.foldl (fun d poly =>
      if 3 ≤ poly.length then addFill anchor d poly
      else if poly.length = 2 then hairline anchor d poly false else d) d
  | .image c w h dataUrl => drawImage opts anchor d c w h dataUrl
  | .textGlyphs _ => d

/-- What a builder claims is not drawn otherwise. -/
def claimed (p : Primitive) : Bool × List δ :=
  (opts.primitiveBuilder.map fun b => b.run p anchor).getD (false, [])

def drawOne (d : Drawing δ) (p : Primitive) : Drawing δ :=
  let c := claimed opts anchor p
  let d := { d with children := d.children ++ c.2.map .built }
  if c.1 then d else drawPrimitive opts anchor d p

def buildGraphics (prims : List Primitive) : Drawing δ :=
  flushFill (prims.foldl (drawOne opts anchor) {})

end Drawing

/-! ### `Scene` -/

/-- A render item, with what it is as an object. Its box may have no extent. -/
structure RenderItem where
  object : ℕ
  id : String
  layer : String
  prims : List Primitive
  bbox : Option (Vec2 × Vec2)
  owner : Option String := none
  cacheKey : Option String := none
  anchor : Option Vec2 := none

/-- The corner of a box and its size: not empty, if the size is not negative. -/
def boxIsEmpty (b : Option (Vec2 × Vec2)) : Bool :=
  b.all fun b => !(decide (0 ≤ b.2.x) && decide (0 ≤ b.2.y))

def boxCenter (b : Vec2 × Vec2) : Vec2 := ⟨b.1.x + b.2.x / 2, b.1.y + b.2.y / 2⟩

/-- In whole numbers. -/
def anchorOf (item : RenderItem) : Vec2 :=
  let a := item.anchor.getD
    (if boxIsEmpty item.bbox then ⟨0, 0⟩ else (item.bbox.map boxCenter).getD ⟨0, 0⟩)
  ⟨roundHalfUp a.x, roundHalfUp a.y⟩

/-- The key under which an item shares its context. -/
def keyOf (item : RenderItem) : Option String := item.cacheKey.filter (· ≠ "")

structure Context where
  instructions : List Instruction := []
  destroyed : Bool := false

structure ItemObject (δ : Type) where
  item : RenderItem
  /-- The context that its graphics draws. -/
  graphics : Option ℕ := none
  children : List (HostChild δ) := []
  cacheKey : Option String := none
  /-- Contexts that are destroyed with it. -/
  disposables : List ℕ := []

structure Entry (δ : Type) where
  objs : List (ItemObject δ)
  items : List RenderItem

/-- The cache has a context for a key, and how many refer to it. -/
structure Scene (δ : Type) where
  entries : OMap String (Entry δ) := OMap.empty
  byId : OMap String RenderItem := OMap.empty
  contextCache : OMap String (ℕ × ℤ) := OMap.empty
  contexts : List Context := []

structure SceneDiff where
  upsert : List (String × List RenderItem) := []
  remove : List String := []

section Scene

variable {δ : Type} (opts : SceneOptions δ)

def destroyContext (scene : Scene δ) (ctx : ℕ) : Scene δ :=
  { scene with contexts := scene.contexts.modify ctx fun c => { c with destroyed := true } }

def releaseContext (scene : Scene δ) (key : Option String) : Scene δ :=
  match key.bind fun k => (scene.contextCache.get? k).map fun c => (k, c) with
  | none => scene
  | some (k, ctx, refs) =>
    if refs - 1 ≤ 0 then
      destroyContext { scene with contextCache := scene.contextCache.delete k } ctx
    else { scene with contextCache := scene.contextCache.set k (ctx, refs - 1) }

/-- An id is forgotten if it is still that of the item. -/
def forget (byId : OMap String RenderItem) (item : RenderItem) : OMap String RenderItem :=
  if (byId.get? item.id).any fun i => i.object = item.object then byId.delete item.id else byId

def destroyObject (scene : Scene δ) (o : ItemObject δ) : Scene δ :=
  o.disposables.foldl destroyContext (releaseContext scene o.cacheKey)

def removeOwner (scene : Scene δ) (owner : String) : Scene δ :=
  match scene.entries.get? owner with
  | none => scene
  | some e =>
    let forgotten := { scene with byId := e.items.foldl forget scene.byId }
    let released := e.objs.foldl destroyObject forgotten
    { released with entries := released.entries.delete owner }

/-- A context of its own, for an item that shares none. -/
def buildOwn (scene : Scene δ) (item : RenderItem) : Scene δ × ItemObject δ :=
  let d := buildGraphics opts (anchorOf item) item.prims
  ({ scene with contexts := scene.contexts ++ [⟨d.instructions, !d.used⟩] },
    { item := item, children := d.children,
      graphics := if d.used then some scene.contexts.length else none,
      disposables := if d.used then [scene.contexts.length] else [] })

/-- The first item of a key draws the context, and gets what a context cannot hold. -/
def buildShared (scene : Scene δ) (item : RenderItem) (key : String) : Scene δ × ItemObject δ :=
  match scene.contextCache.get? key with
  | some (ctx, refs) =>
    ({ scene with contextCache := scene.contextCache.set key (ctx, refs + 1) },
      { item := item, graphics := some ctx, cacheKey := some key })
  | none =>
    let d := buildGraphics opts (anchorOf item) item.prims
    ({ scene with contexts := scene.contexts ++ [⟨d.instructions, false⟩],
                  contextCache := scene.contextCache.set key (scene.contexts.length, 1) },
      { item := item, children := d.children, graphics := some scene.contexts.length,
        cacheKey := some key })

def build (scene : Scene δ) (item : RenderItem) : Scene δ × ItemObject δ :=
  match keyOf item with
  | none => buildOwn opts scene item
  | some key => buildShared opts scene item key

/-- An item without an owner gets one. -/
def ownedBy (owner : String) (item : RenderItem) : RenderItem :=
  { item with owner := some (item.owner.getD owner) }

/-- The items of an owner. One without primitives has no object. -/
def buildItems : Scene δ → List RenderItem → Scene δ × List (ItemObject δ)
  | scene, [] => (scene, [])
  | scene, item :: items =>
    let scene := { scene with byId := scene.byId.set item.id item }
    if item.prims = [] then buildItems scene items
    else
      let built := build opts scene item
      let rest := buildItems built.1 items
      (rest.1, built.2 :: rest.2)

def upsertOwner (scene : Scene δ) (u : String × List RenderItem) : Scene δ :=
  let scene := removeOwner scene u.1
  if u.2 = [] then scene
  else
    let items := u.2.map (ownedBy u.1)
    let built := buildItems opts scene items
    { built.1 with entries := built.1.entries.set u.1 ⟨built.2, items⟩ }

def applyDiff (scene : Scene δ) (diff : SceneDiff) : Scene δ :=
  diff.upsert.foldl (upsertOwner opts) (diff.remove.foldl removeOwner scene)

def clear (scene : Scene δ) : Scene δ := scene.entries.keys.foldl removeOwner scene

end Scene

end FabPcb.RenderScene
