import FabPcb.BoxUnions
import FabPcb.Writes
import Mathlib.Algebra.Order.Ring.Rat
import Mathlib.Algebra.Order.Floor.Defs
import Mathlib.Data.Rat.Floor
import Mathlib.Tactic.Linarith
import Mathlib.Tactic.Ring

/-!
`alignCommands`: the eight commands that align or distribute the selected items.

A command makes one move for each selected item and then carries the moves out one by one, each
for the item as it was selected and for the children that it has by then. So what becomes of an
item is decided by its own row and that of its parent. Coordinates are exact.
-/

namespace FabPcb.AlignItems

open OrderedMap Writes

structure Vec2 where
  x : ℚ
  y : ℚ
  deriving DecidableEq

structure Box where
  x : ℚ
  y : ℚ
  w : ℚ
  h : ℚ
  deriving DecidableEq

/-- Where an item is: its box, and of its message the places that `itemAnchor` reads. -/
structure Place where
  bbox : Option Box
  position : Option Vec2
  start : Option Vec2
  stop : Option Vec2
  center : Option Vec2
  text : Option Vec2
  deriving DecidableEq

structure Item where
  id : String
  type : String
  parent : Option String
  place : Place
  deriving DecidableEq

def Vec2.shift (d : ℚ × ℚ) (v : Vec2) : Vec2 := ⟨v.x + d.1, v.y + d.2⟩

def Box.shift (d : ℚ × ℚ) (b : Box) : Box := { b with x := b.x + d.1, y := b.y + d.2 }

/-- `translateItem`, of what is kept of an item. -/
def Place.shift (d : ℚ × ℚ) (p : Place) : Place where
  bbox := p.bbox.map (Box.shift d)
  position := p.position.map (Vec2.shift d)
  start := p.start.map (Vec2.shift d)
  stop := p.stop.map (Vec2.shift d)
  center := p.center.map (Vec2.shift d)
  text := p.text.map (Vec2.shift d)

def itemAnchor (p : Place) : Option Vec2 :=
  (p.bbox.map fun b => ⟨b.x + b.w / 2, b.y + b.h / 2⟩).or <|
    p.position.or <|
    (p.start.bind fun a => p.stop.map fun b => (⟨(a.x + b.x) / 2, (a.y + b.y) / 2⟩ : Vec2)).or <|
    p.center.or p.text

def box (p : Place) : Option Box := p.bbox.or ((itemAnchor p).map fun a => ⟨a.x, a.y, 0, 0⟩)

/-! ### The store -/

structure Store where
  items : OMap String Item
  keyed : ∀ k it, items.get? k = some it → it.id = k

def Store.get? (s : Store) (id : String) : Option Item := s.items.get? id

def childrenOf (s : Store) (parentId : String) : List Item :=
  s.items.values.filter (·.parent = some parentId)

/-- `tx.replace`, of an item that is there. -/
def Store.replace (s : Store) (id : String) (place : Place) : Store :=
  match h : s.items.get? id with
  | none => s
  | some prev =>
    { items := s.items.set id { prev with place := place }
      keyed := fun k it hk => by
        rw [OMap.get?_set] at hk
        split_ifs at hk with hkid
        · rw [← Option.some.inj hk, hkid]
          exact s.keyed id prev h
        · exact s.keyed k it hk }

/-! ### Moves -/

inductive Axis
  | x | y

def Axis.delta : Axis → ℚ → ℚ × ℚ
  | .x, d => (d, 0)
  | .y, d => (0, d)

def Axis.centre : Axis → Box → ℚ
  | .x, b => b.x + b.w / 2
  | .y, b => b.y + b.h / 2

/-- A selected item with its box. -/
abbrev Row := Item × Box

/-- `reduce` without an initial value. -/
def reduceAll (f : ℚ → ℚ → ℚ) : List ℚ → ℚ
  | [] => 0
  | v :: vs => vs.foldl f v

def edge (pick : Box → ℚ) (reduce : ℚ → ℚ → ℚ) (axis : Axis) (rows : List Row) :
    List (String × ℚ × ℚ) :=
  let target := reduceAll reduce (rows.map fun r => pick r.2)
  rows.map fun r => (r.1.id, axis.delta (target - pick r.2))

def distribute (axis : Axis) (rows : List Row) : List (String × ℚ × ℚ) :=
  let sorted := rows.mergeSort fun a b => axis.centre a.2 ≤ axis.centre b.2
  let centres := sorted.map fun r => axis.centre r.2
  let first := centres.headD 0
  let step := (centres.getLastD 0 - first) / max 1 (sorted.length - 1 : ℚ)
  sorted.zipIdx.map fun r =>
    (r.1.1.id, axis.delta (first + r.2 * step - axis.centre r.1.2))

inductive Command
  | alignLeft | alignRight | alignTop | alignBottom | alignCenterX | alignCenterY
  | distributeH | distributeV

def half (a b : ℚ) : ℚ := (a + b) / 2

def Command.moves : Command → List Row → List (String × ℚ × ℚ)
  | .alignLeft => edge (·.x) min .x
  | .alignRight => edge (fun b => b.x + b.w) max .x
  | .alignTop => edge (·.y) min .y
  | .alignBottom => edge (fun b => b.y + b.h) max .y
  | .alignCenterX => edge Axis.x.centre half .x
  | .alignCenterY => edge Axis.y.centre half .y
  | .distributeH => distribute .x
  | .distributeV => distribute .y

/-- The grid rounding, of symbols only. -/
def gridded (grid : ℚ) (type : String) (d : ℚ) : ℚ :=
  if type = "KOT_SCH_SYMBOL" then ⌊d / grid + 1 / 2⌋ * grid else d

/-- One row of the transaction: the item as it was selected, and its children. -/
def moveRow (toGrid : String → ℚ → ℚ) (moves : OMap String (ℚ × ℚ)) (s : Store) (r : Row) : Store :=
  match moves.get? r.1.id with
  | none => s
  | some m =>
    if m.1 = 0 ∧ m.2 = 0 then s
    else
      let d := (toGrid r.1.type m.1, toGrid r.1.type m.2)
      (r.1 :: childrenOf s r.1.id).foldl (fun s t => s.replace t.id (t.place.shift d)) s

def rowsOf (items : List Item) : List Row := items.filterMap fun it => (box it.place).map (it, ·)

def run (toGrid : String → ℚ → ℚ) (cmd : Command) (s : Store) (items : List Item) : Store :=
  if items.length < 2 then s
  else (rowsOf items).foldl (moveRow toGrid (OMap.ofList (cmd.moves (rowsOf items)))) s

/-! ### What a command is for, and when it does it -/

/-- No grid. -/
def exact (_ : String) (d : ℚ) : ℚ := d

def boxIn (s : Store) (id : String) : Option Box := (s.get? id).bind fun it => box it.place

/-- The edges or centres of all boxes are one. -/
def Coincide (pick : Box → ℚ) (s : Store) (rows : List Row) : Prop :=
  ∃ t, ∀ r ∈ rows, (boxIn s r.1.id).map pick = some t

/-- The rows are listed by their centres. -/
def Listed (axis : Axis) (rows l : List Row) : Prop :=
  l.Perm rows ∧ l.Pairwise fun a b => axis.centre a.2 < axis.centre b.2

/-- From the first item on the centres have equal distances, and the ends stand where they did. -/
def Spaced (axis : Axis) (s : Store) (rows : List Row) : Prop :=
  ∀ l, Listed axis rows l →
    (∃ c d : ℚ, ∀ (k : ℕ) r, l[k]? = some r → (boxIn s r.1.id).map axis.centre = some (c + k * d)) ∧
    ∀ r, l.head? = some r ∨ l.getLast? = some r → s.get? r.1.id = some r.1

def Command.Arranged : Command → Store → List Row → Prop
  | .alignLeft => Coincide (·.x)
  | .alignRight => Coincide fun b => b.x + b.w
  | .alignTop => Coincide (·.y)
  | .alignBottom => Coincide fun b => b.y + b.h
  | .alignCenterX => Coincide Axis.x.centre
  | .alignCenterY => Coincide Axis.y.centre
  | .distributeH => Spaced .x
  | .distributeV => Spaced .y

/-- The same in every order of selection, and arranged. -/
structure Command.Keeps (cmd : Command) (s : Store) (items : List Item) : Prop where
  order : ∀ items', items'.Perm items → ∀ id,
    (run exact cmd s items').get? id = (run exact cmd s items).get? id
  arranged : cmd.Arranged (run exact cmd s items) (rowsOf items)

/-- A selected item is a child of another one. -/
structure Overlap (rows : List Row) (p c : Row) : Prop where
  parent : p ∈ rows
  child : c ∈ rows
  ne : p.1.id ≠ c.1.id
  isChild : c.1.parent = some p.1.id

/-- A parent of a selected item is at the far end already. -/
def ParentsAt (before : Row → Row → Prop) (rows : List Row) : Prop :=
  ∀ p c, Overlap rows p c → ∀ r ∈ rows, before p r

/-- The centres are one, or there are two of which none is a child of the other. -/
def Centred (axis : Axis) (rows : List Row) : Prop :=
  (∀ r ∈ rows, ∀ r' ∈ rows, axis.centre r.2 = axis.centre r'.2) ∨
    rows.length = 2 ∧ ∀ p c, ¬Overlap rows p c

/-- A parent of a selected item has its share of the way from the first to the last already. -/
def ParentsSpaced (axis : Axis) (rows : List Row) : Prop :=
  ∀ p c, Overlap rows p c → ∀ l first last (k : ℕ), Listed axis rows l → l.head? = some first →
    l.getLast? = some last → l[k]? = some p →
    (rows.length - 1) * (axis.centre p.2 - axis.centre first.2) =
      k * (axis.centre last.2 - axis.centre first.2)

def Command.Safe : Command → List Row → Prop
  | .alignLeft => ParentsAt fun p r => p.2.x ≤ r.2.x
  | .alignRight => ParentsAt fun p r => r.2.x + r.2.w ≤ p.2.x + p.2.w
  | .alignTop => ParentsAt fun p r => p.2.y ≤ r.2.y
  | .alignBottom => ParentsAt fun p r => r.2.y + r.2.h ≤ p.2.y + p.2.h
  | .alignCenterX => Centred .x
  | .alignCenterY => Centred .y
  | .distributeH => ParentsSpaced .x
  | .distributeV => ParentsSpaced .y

/-- For a distribution the centres differ. -/
def Command.Distinct : Command → List Row → Prop
  | .distributeH, rows => (rows.map fun r => Axis.x.centre r.2).Nodup
  | .distributeV, rows => (rows.map fun r => Axis.y.centre r.2).Nodup
  | _, _ => True

/-! ### What one row does to an item -/

def effect (m : ℚ × ℚ) (r : Row) (it : Item) : Item :=
  if m = 0 then it
  else if it.parent = some r.1.id then { it with place := it.place.shift m }
  else if it.id = r.1.id then { it with place := r.1.place.shift m }
  else it

variable {s : Store} {d m : ℚ × ℚ} {r : Row} {it : Item} {id : String}

lemma get?_replace (s : Store) (k : String) (place : Place) (id : String) :
    (s.replace k place).get? id =
      (s.get? id).map fun it => if id = k then { it with place := place } else it := by
  unfold Store.replace Store.get?
  split
  · rename_i h
    by_cases hid : id = k
    · subst hid
      simp [h]
    · simp [hid]
  · rename_i prev h
    by_cases hid : id = k
    · subst hid
      simp [h]
    · simp [hid]

lemma get?_foldl_replace (d : ℚ × ℚ) (ts : List Item) (s : Store) (id : String) :
    (ts.foldl (fun s t => s.replace t.id (t.place.shift d)) s).get? id =
      (s.get? id).map fun it =>
        { it with
          place := (lastWrite (ts.map fun t => (t.id, t.place.shift d)) id).getD it.place } := by
  induction ts generalizing s with
  | nil => simp
  | cons t ts ih =>
    rw [List.foldl_cons, ih, get?_replace, Option.map_map, List.map_cons, lastWrite_cons]
    congr 1
    funext it
    by_cases h : id = t.id
    · subst h
      cases lastWrite (ts.map fun t => (t.id, t.place.shift d)) t.id <;> simp
    · have hne : t.id ≠ id := Ne.symm h
      cases lastWrite (ts.map fun t => (t.id, t.place.shift d)) id <;> simp [h, hne]

lemma lastWrite_children (hit : s.get? id = some it) (p : String) :
    lastWrite ((childrenOf s p).map fun t => (t.id, t.place.shift d)) id =
      if it.parent = some p then some (it.place.shift d) else none := by
  have hval : ∀ t, t ∈ s.items.values ↔ s.get? t.id = some t := by
    intro t
    rw [OMap.mem_values_iff]
    exact ⟨fun ⟨k, hk⟩ => by rwa [s.keyed k t hk], fun h => ⟨t.id, h⟩⟩
  have hid : it.id = id := s.keyed id it hit
  subst hid
  split_ifs with hp
  · refine lastWrite_of_mem ?_ (List.mem_map.mpr ⟨it, ?_, rfl⟩)
    · have hnd : (s.items.values.map Item.id).Nodup := by
        have hkeys : s.items.values.map Item.id = s.items.keys := by
          rw [OMap.values, List.map_map]
          exact List.map_congr_left fun e he => s.keyed e.1 e.2 (OMap.get?_eq_some_iff.mpr he)
        exact hkeys ▸ s.items.keys_nodup
      rw [List.map_map]
      exact hnd.sublist (List.filter_sublist.map _)
    · exact List.mem_filter.mpr ⟨(hval it).mpr hit, by simpa using hp⟩
  · refine lastWrite_eq_none_iff.mpr fun hmem => hp ?_
    simp only [List.map_map, List.mem_map, Function.comp_apply] at hmem
    obtain ⟨t, ht, htid⟩ := hmem
    obtain ⟨ht, htp⟩ := List.mem_filter.mp ht
    have heq : t = it := Option.some.inj (((hval t).mp ht).symm.trans (htid ▸ hit))
    simpa [heq] using htp

lemma get?_moveRow {moves : OMap String (ℚ × ℚ)} (hm : moves.get? r.1.id = some m) (s : Store)
    (id : String) : (moveRow exact moves s r).get? id = (s.get? id).map (effect m r) := by
  have hzero : (m.1 = 0 ∧ m.2 = 0) ↔ m = 0 := by rw [Prod.ext_iff]; rfl
  unfold moveRow effect
  rw [hm]
  simp only [hzero, exact, Prod.mk.eta]
  split_ifs
  · simp
  · rw [get?_foldl_replace, List.map_cons]
    cases hit : s.get? id with
    | none => rfl
    | some it =>
      have hid : it.id = id := s.keyed id it hit
      rw [lastWrite_cons, lastWrite_children hit]
      by_cases hp : it.parent = some r.1.id
      · simp [hp]
      · by_cases hr : it.id = r.1.id
        · simp [hp, hr, ← hid]
        · simp [hp, hr, ← hid, Ne.symm hr]

/-- **Row by row**: what becomes of an item, from its own row and that of its parent. -/
lemma get?_rows {moves : OMap String (ℚ × ℚ)} {mv : Row → ℚ × ℚ} {l : List Row}
    (hmv : ∀ r ∈ l, moves.get? r.1.id = some (mv r)) (s : Store) (id : String) :
    (l.foldl (moveRow exact moves) s).get? id =
      (s.get? id).map fun it => l.foldl (fun it r => effect (mv r) r it) it := by
  induction l generalizing s with
  | nil => simp
  | cons r l ih =>
    rw [List.foldl_cons, ih fun r' hr' => hmv r' (List.mem_cons_of_mem r hr'),
      get?_moveRow (hmv r List.mem_cons_self), Option.map_map]
    rfl

/-! ### What a list of rows does to an item -/

def Item.shift (d : ℚ × ℚ) (it : Item) : Item := { it with place := it.place.shift d }

lemma shift_zero (it : Item) : it.shift 0 = it := by
  have hv : Vec2.shift 0 = id := by funext v; simp [Vec2.shift]
  have hb : Box.shift 0 = id := by funext b; simp [Box.shift]
  simp [Item.shift, Place.shift, hv, hb]

/-- What becomes of an item. -/
def fate (mv : Row → ℚ × ℚ) (l : List Row) (it : Item) : Item :=
  l.foldl (fun it r => effect (mv r) r it) it

/-- A row that does nothing to an item. -/
def Idle (mv : Row → ℚ × ℚ) (it : Item) (r : Row) : Prop :=
  mv r = 0 ∨ (it.parent ≠ some r.1.id ∧ it.id ≠ r.1.id)

@[simp] lemma effect_id (m : ℚ × ℚ) (r : Row) (it : Item) : (effect m r it).id = it.id := by
  unfold effect
  split_ifs <;> rfl

@[simp] lemma effect_parent (m : ℚ × ℚ) (r : Row) (it : Item) :
    (effect m r it).parent = it.parent := by
  unfold effect
  split_ifs <;> rfl

variable {mv : Row → ℚ × ℚ} {l : List Row} {p c : Row}

lemma effect_idle (h : Idle mv it r) : effect (mv r) r it = it := by
  unfold effect
  rcases h with h | ⟨hparent, hid⟩
  · rw [if_pos h]
  · rw [if_neg hparent, if_neg hid, ite_self]

lemma effect_parentRow {it : Item} {r : Row} (h : it.parent = some r.1.id) :
    effect (mv r) r it = it.shift (mv r) := by
  unfold effect
  split_ifs with hm
  · rw [hm, shift_zero]
  · rfl

lemma effect_own (r : Row) : effect (mv r) r r.1 = r.1.shift (mv r) := by
  unfold effect
  split_ifs with hm hp
  · rw [hm, shift_zero]
  · rfl
  · rfl
  · contradiction

lemma fate_idle (h : ∀ r ∈ l, Idle mv it r) : fate mv l it = it := by
  induction l with
  | nil => rfl
  | cons r l ih =>
    rw [fate, List.foldl_cons, effect_idle (h r List.mem_cons_self)]
    exact ih fun r' hr' => h r' (List.mem_cons_of_mem r hr')

/-- Only one row of a list does something to an item. -/
lemma fate_one (hnd : (l.map fun r => r.1.id).Nodup) (hr : r ∈ l)
    (h : ∀ r' ∈ l, r'.1.id ≠ r.1.id → Idle mv it r') : fate mv l it = effect (mv r) r it := by
  obtain ⟨pre, post, rfl⟩ := List.append_of_mem hr
  have hpre : ∀ r' ∈ pre, r'.1.id ≠ r.1.id := by
    simp only [List.map_append, List.map_cons, List.nodup_append, List.mem_map] at hnd
    exact fun r' hr' => hnd.2.2 _ ⟨r', hr', rfl⟩ _ List.mem_cons_self
  have hpost : ∀ r' ∈ post, r'.1.id ≠ r.1.id := by
    simp only [List.map_append, List.map_cons, List.nodup_append, List.nodup_cons] at hnd
    exact fun r' hr' heq => hnd.2.1.1 (List.mem_map.mpr ⟨r', hr', heq⟩)
  have hbefore : fate mv pre it = it := fate_idle fun r' hr' =>
    h r' (List.mem_append_left _ hr') (hpre r' hr')
  have hafter : fate mv post (effect (mv r) r it) = effect (mv r) r it := by
    refine fate_idle fun r' hr' => ?_
    simpa [Idle] using
      h r' (List.mem_append_right _ (List.mem_cons_of_mem r hr')) (hpost r' hr')
  unfold fate at *
  rw [List.foldl_append, hbefore, List.foldl_cons, hafter]

/-- The selected items, each as it is stored and with its box. -/
structure Selected (s : Store) (l : List Row) : Prop where
  stored : ∀ r ∈ l, s.get? r.1.id = some r.1
  nodup : (l.map fun r => r.1.id).Nodup
  boxed : ∀ r ∈ l, box r.1.place = some r.2

lemma Selected.perm (h : Selected s l) {l' : List Row} (hl : l'.Perm l) : Selected s l' where
  stored r hr := h.stored r (hl.subset hr)
  nodup := (hl.map _).nodup_iff.mpr h.nodup
  boxed r hr := h.boxed r (hl.subset hr)

lemma Selected.eq (h : Selected s l) (hp : p ∈ l) (hc : c ∈ l) (hid : p.1.id = c.1.id) : p = c :=
  List.inj_on_of_nodup_map h.nodup hp hc hid

/-- **Settled items.** Where no parent of a selected item has to move, an item moves once, in
every order: as its own row says, if it has one. -/
lemma settled (h : Selected s l) (hsafe : ∀ p c, Overlap l p c → mv p = 0)
    (hit : s.get? id = some it) :
    ∃ v, (∀ l', l'.Perm l → fate mv l' it = it.shift v) ∧ ∀ r ∈ l, r.1.id = id → v = mv r := by
  have hid : it.id = id := s.keyed id it hit
  by_cases hown : ∃ c ∈ l, c.1.id = id
  · obtain ⟨c, hc, hcid⟩ := hown
    obtain rfl : c.1 = it := Option.some.inj ((h.stored c hc).symm.trans (hcid ▸ hit))
    refine ⟨mv c, fun l' hl => ?_, fun r hr hrid => ?_⟩
    · rw [← effect_own]
      refine fate_one (h.perm hl).nodup (hl.mem_iff.mpr hc) fun r hr hne => ?_
      by_cases hp : c.1.parent = some r.1.id
      · exact .inl (hsafe r c ⟨hl.mem_iff.mp hr, hc, hne, hp⟩)
      · exact .inr ⟨hp, Ne.symm hne⟩
    · rw [h.eq hr hc (hrid.trans hcid.symm)]
  · by_cases hparent : ∃ p ∈ l, it.parent = some p.1.id
    · obtain ⟨p, hp, hpid⟩ := hparent
      refine ⟨mv p, fun l' hl => ?_, fun r hr hrid => absurd ⟨r, hr, hrid⟩ hown⟩
      rw [← effect_parentRow hpid]
      refine fate_one (h.perm hl).nodup (hl.mem_iff.mpr hp) fun r hr hne => .inr ⟨?_, ?_⟩
      · exact fun heq => hne (Option.some.inj (heq.symm.trans hpid))
      · exact fun heq => hown ⟨r, hl.mem_iff.mp hr, heq.symm.trans hid⟩
    · refine ⟨0, fun l' hl => ?_, fun r hr hrid => absurd ⟨r, hr, hrid⟩ hown⟩
      rw [shift_zero]
      refine fate_idle fun r hr => .inr ⟨fun heq => hparent ⟨r, hl.mem_iff.mp hr, heq⟩, ?_⟩
      exact fun heq => hown ⟨r, hl.mem_iff.mp hr, heq.symm.trans hid⟩

lemma fate_eq (mv : Row → ℚ × ℚ) (l : List Row) (it : Item) :
    fate mv l it = { it with place := (fate mv l it).place } := by
  induction l generalizing it with
  | nil => rfl
  | cons r l ih =>
    rw [fate, List.foldl_cons]
    refine (ih _).trans ?_
    unfold effect
    split_ifs <;> rfl

/-- Of the rows, the last that moves puts its item where it says. -/
lemma exists_settled (h : Selected s l) (mv : Row → ℚ × ℚ) (hl : l ≠ []) :
    ∃ r ∈ l, fate mv l r.1 = r.1.shift (mv r) := by
  induction l using List.reverseRecOn with
  | nil => exact absurd rfl hl
  | append_singleton l r ih =>
    have hfate : ∀ it, fate mv (l ++ [r]) it = effect (mv r) r (fate mv l it) := fun it => by
      simp [fate, List.foldl_append]
    have hr : r ∈ l ++ [r] := by simp
    by_cases hzero : mv r = 0
    · have hid : ∀ it, fate mv (l ++ [r]) it = fate mv l it := fun it => by
        rw [hfate, effect_idle (.inl hzero)]
      by_cases hnil : l = []
      · subst hnil
        exact ⟨r, hr, by rw [hid, hzero, shift_zero]; rfl⟩
      · have hsub : Selected s l := ⟨fun q hq => h.stored q (by simp [hq]),
          h.nodup.sublist ((List.sublist_append_left l [r]).map _),
          fun q hq => h.boxed q (by simp [hq])⟩
        obtain ⟨q, hq, hqf⟩ := ih hsub hnil
        exact ⟨q, by simp [hq], by rw [hid, hqf]⟩
    · refine ⟨r, hr, ?_⟩
      rw [hfate]
      by_cases hself : r.1.parent = some r.1.id
      · have hidle : fate mv l r.1 = r.1 := fate_idle fun q hq => by
          have hne : r.1.id ≠ q.1.id := fun heq => by
            have hnd := h.nodup
            rw [List.map_append, List.nodup_append] at hnd
            exact hnd.2.2 _ (List.mem_map_of_mem hq) _ (by simp) heq.symm
          exact .inr ⟨fun hp => hne (Option.some.inj (hself.symm.trans hp)), hne⟩
        rw [hidle, effect_own]
      · rw [fate_eq, effect, if_neg hzero, if_neg hself, if_pos rfl]
        rfl

/-- Selected before its parent, an item moves twice. -/
lemma moved_twice (h : Selected s l) (ho : Overlap l p c) (mv : Row → ℚ × ℚ) :
    ∃ l', l'.Perm l ∧ fate mv l' c.1 = (c.1.shift (mv c)).shift (mv p) := by
  have hne : c ≠ p := fun heq => ho.ne (by rw [heq])
  have hc' : c ∈ l.erase p := (List.mem_erase_of_ne hne).mpr ho.child
  have hl : (c :: p :: (l.erase p).erase c).Perm l :=
    (List.Perm.swap p c _).trans
      (((List.perm_cons_erase hc').symm.cons p).trans (List.perm_cons_erase ho.parent).symm)
  have hnd := (h.perm hl).nodup
  simp only [List.map_cons, List.nodup_cons, List.mem_cons, not_or, List.mem_map] at hnd
  refine ⟨_, hl, ?_⟩
  have hfate : fate mv (c :: p :: (l.erase p).erase c) c.1 =
      fate mv ((l.erase p).erase c) (effect (mv p) p (effect (mv c) c c.1)) := rfl
  have hp : (c.1.shift (mv c)).parent = some p.1.id := ho.isChild
  rw [hfate, effect_own, effect_parentRow hp]
  refine fate_idle fun q hq => .inr ⟨fun heq => hnd.2.1 ⟨q, hq, ?_⟩, fun heq => hnd.1.2 ⟨q, hq, ?_⟩⟩
  · exact Option.some.inj (heq.symm.trans ho.isChild)
  · exact heq.symm

/-! ### Coordinates -/

lemma box_shift (d : ℚ × ℚ) (p : Place) : box (p.shift d) = (box p).map (Box.shift d) := by
  obtain ⟨bbox, position, start, stop, center, text⟩ := p
  cases bbox with
  | some b => rfl
  | none =>
    cases position with
    | some v => rfl
    | none =>
      have hmid : ∀ a b e : ℚ, (a + e + (b + e)) / 2 = (a + b) / 2 + e := fun a b e => by ring
      cases start <;> cases stop <;> cases center <;>
        simp [box, itemAnchor, Place.shift, Box.shift, Vec2.shift, hmid] <;> cases text <;> rfl

/-- A coordinate of a box that a move along an axis changes by as much. -/
structure Follows (axis : Axis) (pick : Box → ℚ) : Prop where
  shift : ∀ b d, pick (b.shift (axis.delta d)) = pick b + d

variable {axis : Axis} {pick : Box → ℚ} {δ : Row → ℚ}

lemma Follows.coord (hf : Follows axis pick) {b : Box} (hb : box it.place = some b) (d : ℚ) :
    (box (it.shift (axis.delta d)).place).map pick = some (pick b + d) := by
  rw [Item.shift, box_shift, hb, Option.map_some, Option.map_some, hf.shift]

lemma parents_stay (h : Selected s l) (hf : Follows axis pick)
    (horder : ∀ l', l'.Perm l → ∀ r ∈ l,
      fate (fun r => axis.delta (δ r)) l' r.1 = fate (fun r => axis.delta (δ r)) l r.1)
    (hcoord : ∀ r ∈ l,
      (box (fate (fun r => axis.delta (δ r)) l r.1).place).map pick = some (pick r.2 + δ r))
    (ho : Overlap l p c) : δ p = 0 := by
  obtain ⟨l', hl, hfate⟩ := moved_twice h ho fun r => axis.delta (δ r)
  have hb : box (c.1.shift (axis.delta (δ c))).place = some (c.2.shift (axis.delta (δ c))) := by
    rw [Item.shift, box_shift, h.boxed c ho.child, Option.map_some]
  have hc := hcoord c ho.child
  rw [← horder l' hl c ho.child, hfate, hf.coord hb, hf.shift] at hc
  linarith [Option.some.inj hc]

/-- What a transaction comes to. -/
def outcome (moves : List Row → List (String × ℚ × ℚ)) (s : Store) (l : List Row) : Store :=
  l.foldl (moveRow exact (OMap.ofList (moves l))) s

variable {moves : List Row → List (String × ℚ × ℚ)}

lemma get?_outcome (hmv : ∀ r ∈ l, lastWrite (moves l) r.1.id = some (mv r)) (s : Store)
    (id : String) : (outcome moves s l).get? id = (s.get? id).map (fate mv l) :=
  get?_rows (fun r hr => by rw [get?_ofList, hmv r hr]) s id

lemma boxIn_outcome (h : Selected s l) (hr : r ∈ l) {l' : List Row}
    (hmv : ∀ r ∈ l', lastWrite (moves l') r.1.id = some (mv r)) :
    boxIn (outcome moves s l') r.1.id = box (fate mv l' r.1).place := by
  rw [boxIn, get?_outcome hmv, h.stored r hr]
  rfl

/-! ### Alignment -/

variable {reduce : ℚ → ℚ → ℚ}

/-- What the rows are aligned to. -/
def target (pick : Box → ℚ) (reduce : ℚ → ℚ → ℚ) (l : List Row) : ℚ :=
  reduceAll reduce (l.map fun r => pick r.2)

lemma lastWrite_edge (h : Selected s l) : ∀ r ∈ l, lastWrite (edge pick reduce axis l) r.1.id =
    some (axis.delta (target pick reduce l - pick r.2)) := fun r hr =>
  lastWrite_of_mem (by simpa [edge, Function.comp_def] using h.nodup)
    (List.mem_map.mpr ⟨r, hr, rfl⟩)

/-- **An align command.** It does what it is for when its target is that of every order, and each
parent of a selected item is at the target already. -/
lemma edge_exact (h : Selected s l) (hne : l ≠ []) (hf : Follows axis pick) :
    ((∀ l', l'.Perm l → ∀ id, (outcome (edge pick reduce axis) s l').get? id =
        (outcome (edge pick reduce axis) s l).get? id) ∧
      Coincide pick (outcome (edge pick reduce axis) s l) l) ↔
    (∀ l', l'.Perm l → target pick reduce l' = target pick reduce l) ∧
      ∀ p c, Overlap l p c → pick p.2 = target pick reduce l := by
  set δ : List Row → Row → ℚ := fun l' r => target pick reduce l' - pick r.2
  have hmv : ∀ {l'}, l'.Perm l → ∀ r ∈ l', lastWrite (edge pick reduce axis l') r.1.id =
      some (axis.delta (δ l' r)) := fun hl => lastWrite_edge (h.perm hl)
  constructor
  · rintro ⟨horder, t, ht⟩
    have hbox : ∀ l', l'.Perm l → ∀ r ∈ l,
        (box (fate (fun r => axis.delta (δ l' r)) l' r.1).place).map pick = some t := by
      intro l' hl r hr
      rw [← boxIn_outcome h hr (hmv hl), ← ht r hr, boxIn, boxIn, horder l' hl]
    have htarget : ∀ l', l'.Perm l → target pick reduce l' = t := by
      intro l' hl
      have hne' : l' ≠ [] := fun hnil => hne (by simpa [hnil] using hl.symm)
      obtain ⟨r, hr, hfate⟩ := exists_settled (h.perm hl) (fun r => axis.delta (δ l' r)) hne'
      have hr' := hl.mem_iff.mp hr
      have hcoord := hbox l' hl r hr'
      rw [hfate, hf.coord (h.boxed r hr')] at hcoord
      linarith [Option.some.inj hcoord, show δ l' r = target pick reduce l' - pick r.2 from rfl]
    have hl := htarget l (.refl l)
    refine ⟨fun l' hl' => (htarget l' hl').trans hl.symm, fun p c ho => ?_⟩
    have hδ : ∀ l', l'.Perm l → δ l' = δ l := fun l' hl' => by
      simp [δ, htarget l' hl', hl]
    have hstay : δ l p = 0 := parents_stay h hf (fun l' hl' r hr => ?_) (fun r hr => ?_) ho
    · linarith [show δ l p = target pick reduce l - pick p.2 from rfl]
    · have hout := horder l' hl' r.1.id
      rw [get?_outcome (hmv hl'), get?_outcome (hmv (.refl l)), h.stored r hr, hδ l' hl'] at hout
      exact Option.some.inj hout
    · rw [hbox l (.refl l) r hr, ← hl]
      simp [δ]
  · rintro ⟨htarget, hparent⟩
    have hδ : ∀ l', l'.Perm l → δ l' = δ l := fun l' hl' => by simp [δ, htarget l' hl']
    have hsafe : ∀ p c, Overlap l p c → axis.delta (δ l p) = 0 := fun p c ho => by
      simp only [δ, hparent p c ho, sub_self]
      cases axis <;> rfl
    refine ⟨fun l' hl' id => ?_, target pick reduce l, fun r hr => ?_⟩
    · rw [get?_outcome (hmv hl'), get?_outcome (hmv (.refl l)), hδ l' hl']
      cases hit : s.get? id with
      | none => rfl
      | some it =>
        obtain ⟨v, hv, -⟩ := settled h hsafe hit
        rw [Option.map_some, Option.map_some, hv l' hl', hv l (.refl l)]
    · obtain ⟨v, hv, hown⟩ := settled h hsafe (h.stored r hr)
      rw [boxIn_outcome h hr (hmv (.refl l)), hv l (.refl l), hown r hr rfl,
        hf.coord (h.boxed r hr)]
      simp [δ]

lemma least_target (pick : Box → ℚ) (hne : l ≠ []) :
    IsLeast ((fun r : Row => pick r.2) '' {r | r ∈ l}) (target pick min l) := by
  cases l with
  | nil => exact absurd rfl hne
  | cons r l => exact BoxUnions.isLeast_foldl_min (fun r : Row => pick r.2) r l

lemma greatest_target (pick : Box → ℚ) (hne : l ≠ []) :
    IsGreatest ((fun r : Row => pick r.2) '' {r | r ∈ l}) (target pick max l) := by
  cases l with
  | nil => exact absurd rfl hne
  | cons r l => exact BoxUnions.isGreatest_foldl_max (fun r : Row => pick r.2) r l

lemma min_safe_iff (pick : Box → ℚ) (hne : l ≠ []) :
    ((∀ l', l'.Perm l → target pick min l' = target pick min l) ∧
      ∀ p c, Overlap l p c → pick p.2 = target pick min l) ↔
    ParentsAt (fun p r => pick p.2 ≤ pick r.2) l := by
  have hleast := least_target pick hne
  have hperm : ∀ l', l'.Perm l → target pick min l' = target pick min l := fun l' hl => by
    have hset : {r | r ∈ l'} = {r | r ∈ l} := Set.ext fun r => hl.mem_iff
    exact (hset ▸ least_target pick fun hnil => hne (by simpa [hnil] using hl.symm)).unique hleast
  refine ⟨fun h p c ho r hr => (h.2 p c ho).le.trans (hleast.2 ⟨r, hr, rfl⟩), fun h => ⟨hperm, ?_⟩⟩
  intro p c ho
  obtain ⟨r, hr, hrt⟩ := hleast.1
  exact le_antisymm (hrt ▸ h p c ho r hr) (hleast.2 ⟨p, ho.parent, rfl⟩)

lemma max_safe_iff (pick : Box → ℚ) (hne : l ≠ []) :
    ((∀ l', l'.Perm l → target pick max l' = target pick max l) ∧
      ∀ p c, Overlap l p c → pick p.2 = target pick max l) ↔
    ParentsAt (fun p r => pick r.2 ≤ pick p.2) l := by
  have hgreatest := greatest_target pick hne
  have hperm : ∀ l', l'.Perm l → target pick max l' = target pick max l := fun l' hl => by
    have hset : {r | r ∈ l'} = {r | r ∈ l} := Set.ext fun r => hl.mem_iff
    exact (hset ▸ greatest_target pick fun hnil => hne (by simpa [hnil] using hl.symm)).unique
      hgreatest
  refine ⟨fun h p c ho r hr => (hgreatest.2 ⟨r, hr, rfl⟩).trans (h.2 p c ho).ge,
    fun h => ⟨hperm, ?_⟩⟩
  intro p c ho
  obtain ⟨r, hr, hrt⟩ := hgreatest.1
  exact le_antisymm (hgreatest.2 ⟨p, ho.parent, rfl⟩) (hrt ▸ h p c ho r hr)

lemma foldl_half_sub (vs : List ℚ) (a b : ℚ) :
    vs.foldl half a - vs.foldl half b = (a - b) / 2 ^ vs.length := by
  induction vs generalizing a b with
  | nil => simp
  | cons v vs ih =>
    rw [List.foldl_cons, List.foldl_cons, ih, List.length_cons, half, half]
    ring

lemma foldl_half_const {vs : List ℚ} {v : ℚ} (h : ∀ u ∈ vs, u = v) : vs.foldl half v = v := by
  induction vs with
  | nil => rfl
  | cons u vs ih =>
    have hu : half v u = v := by
      rw [h u List.mem_cons_self, half]
      ring
    rw [List.foldl_cons, hu]
    exact ih fun w hw => h w (List.mem_cons_of_mem u hw)

lemma target_const {v : ℚ} (hne : l ≠ []) (h : ∀ r ∈ l, pick r.2 = v) :
    target pick half l = v := by
  cases l with
  | nil => exact absurd rfl hne
  | cons r l =>
    have hr := h r List.mem_cons_self
    have hl : ∀ u ∈ l.map fun r => pick r.2, u = v :=
      List.forall_mem_map.mpr fun q hq => h q (List.mem_cons_of_mem r hq)
    rw [target, List.map_cons, reduceAll, hr, foldl_half_const hl]

/-- Among three or more, the one that comes last weighs more than the one that comes first. -/
lemma eq_of_swap {a b : Row} {others : List Row} (hne : others ≠ [])
    (h : target pick half (a :: (others ++ [b])) = target pick half (b :: (others ++ [a]))) :
    pick a.2 = pick b.2 := by
  have hsub := foldl_half_sub (others.map fun r => pick r.2) (pick a.2) (pick b.2)
  simp only [target, reduceAll, List.map_cons, List.map_append, List.map_nil, List.foldl_append,
    List.foldl_cons, List.foldl_nil, half] at h hsub
  have hpow : (2 : ℚ) ≤ 2 ^ (others.map fun r => pick r.2).length := by
    have hlen : 1 ≤ (others.map fun r => pick r.2).length := by
      rw [List.length_map]
      exact List.length_pos_iff.mpr hne
    calc (2 : ℚ) = 2 ^ 1 := by norm_num
      _ ≤ _ := pow_le_pow_right₀ (by norm_num) hlen
  have hdiff : (others.map fun r => pick r.2).foldl half (pick a.2) -
      (others.map fun r => pick r.2).foldl half (pick b.2) = pick a.2 - pick b.2 := by linarith
  rw [hdiff, eq_div_iff (by linarith)] at hsub
  have hprod : (pick a.2 - pick b.2) * (2 ^ (others.map fun r => pick r.2).length - 1) = 0 := by
    rw [mul_sub, mul_one, hsub, sub_self]
  rcases mul_eq_zero.mp hprod with h0 | h0 <;> linarith

lemma centred_iff (axis : Axis) (h : Selected s l) (h2 : 2 ≤ l.length) :
    ((∀ l', l'.Perm l → target axis.centre half l' = target axis.centre half l) ∧
      ∀ p c, Overlap l p c → axis.centre p.2 = target axis.centre half l) ↔ Centred axis l := by
  constructor
  · rintro ⟨hperm, hparent⟩
    rcases Nat.lt_or_eq_of_le h2 with h3 | h2
    · refine .inl fun a ha b hb => ?_
      by_cases hab : a = b
      · rw [hab]
      · have hb' : b ∈ l.erase a := (List.mem_erase_of_ne (Ne.symm hab)).mpr hb
        set others := (l.erase a).erase b
        have hl : (a :: b :: others).Perm l :=
          ((List.perm_cons_erase hb').symm.cons a).trans (List.perm_cons_erase ha).symm
        have hne : others ≠ [] := fun hnil => by
          have hlen := hl.length_eq
          simp [hnil] at hlen
          omega
        have h₁ : (a :: (others ++ [b])).Perm l :=
          (List.Perm.cons a (List.perm_append_singleton b others)).trans hl
        have h₂ : (b :: (others ++ [a])).Perm l :=
          ((List.Perm.cons b (List.perm_append_singleton a others)).trans
            (List.Perm.swap a b others)).trans hl
        exact eq_of_swap hne ((hperm _ h₁).trans (hperm _ h₂).symm)
    · by_cases hover : ∃ p c, Overlap l p c
      · -- The parent is at the middle of the two, so they are one.
        obtain ⟨p, c, ho⟩ := hover
        have hne : c ≠ p := fun heq => ho.ne (by rw [heq])
        have hc' : c ∈ l.erase p := (List.mem_erase_of_ne hne).mpr ho.child
        have hl : (p :: c :: (l.erase p).erase c).Perm l :=
          ((List.perm_cons_erase hc').symm.cons p).trans (List.perm_cons_erase ho.parent).symm
        have hnil : (l.erase p).erase c = [] := List.length_eq_zero_iff.mp (by
          have hlen := hl.length_eq
          simp only [List.length_cons] at hlen
          omega)
        rw [hnil] at hl
        have hmid := (hparent p c ho).trans (hperm _ hl).symm
        simp only [target, List.map_cons, List.map_nil, reduceAll, List.foldl_cons,
          List.foldl_nil, half] at hmid
        have hone : ∀ r ∈ l, axis.centre r.2 = axis.centre p.2 := fun r hr => by
          have hmem := hl.mem_iff.mpr hr
          simp only [List.mem_cons, List.not_mem_nil, or_false] at hmem
          rcases hmem with rfl | rfl <;> linarith
        exact .inl fun r hr r' hr' => (hone r hr).trans (hone r' hr').symm
      · exact .inr ⟨h2.symm, fun p c ho => hover ⟨p, c, ho⟩⟩
  · rintro (hall | ⟨htwo, hnone⟩)
    · obtain ⟨q, hq⟩ := List.exists_mem_of_length_pos (Nat.lt_of_lt_of_le Nat.zero_lt_two h2)
      have hconst : ∀ l', l'.Perm l → target axis.centre half l' = axis.centre q.2 :=
        fun l' hl => target_const (fun hnil => by simp [hnil] at hl; simp [hl] at hq)
          fun r hr => hall r (hl.mem_iff.mp hr) q hq
      refine ⟨fun l' hl => (hconst l' hl).trans (hconst l (.refl l)).symm, fun p c ho => ?_⟩
      rw [hconst l (.refl l)]
      exact hall p ho.parent q hq
    · refine ⟨fun l' hl => ?_, fun p c ho => absurd ho (hnone p c)⟩
      obtain ⟨a, b, rfl⟩ := List.length_eq_two.mp htwo
      obtain ⟨a', b', rfl⟩ := List.length_eq_two.mp (hl.length_eq.trans htwo)
      have hsum := (hl.map fun r => axis.centre r.2).sum_eq
      simp only [List.map_cons, List.map_nil, List.sum_cons, List.sum_nil] at hsum
      simp only [target, List.map_cons, List.map_nil, reduceAll, List.foldl_cons,
        List.foldl_nil, half]
      linarith

/-! ### Distribution -/

def sorted (axis : Axis) (l : List Row) : List Row :=
  l.mergeSort fun a b => axis.centre a.2 ≤ axis.centre b.2

lemma Listed.unique {l₁ l₂ : List Row} (h₁ : Listed axis l l₁) (h₂ : Listed axis l l₂) :
    l₁ = l₂ := by
  refine List.Perm.eq_of_pairwise ?_ h₁.2 h₂.2 (h₁.1.trans h₂.1.symm)
  exact fun a b _ _ hab hba => absurd hba (lt_asymm hab)

lemma listed_sorted (hnd : (l.map fun r => axis.centre r.2).Nodup) :
    Listed axis l (sorted axis l) := by
  have hperm : (sorted axis l).Perm l := List.mergeSort_perm _ _
  refine ⟨hperm, ?_⟩
  have hle : (l.mergeSort fun a b : Row => decide (axis.centre a.2 ≤ axis.centre b.2)).Pairwise
      fun a b => decide (axis.centre a.2 ≤ axis.centre b.2) = true :=
    List.pairwise_mergeSort (fun a b c hab hbc => by simp at *; exact hab.trans hbc)
      (fun a b => by simpa using le_total _ _) l
  have hne : (sorted axis l).Pairwise fun a b => axis.centre a.2 ≠ axis.centre b.2 :=
    List.pairwise_map.mp ((hperm.map _).nodup_iff.mpr hnd)
  exact hle.imp₂ (fun _ _ h₁ h₂ => lt_of_le_of_ne (of_decide_eq_true h₁) h₂) hne

/-- The centre of the `k`th of the rows, in the order of their centres. -/
def share (axis : Axis) (l : List Row) (k : ℕ) : ℚ :=
  let centres := l.map fun r => axis.centre r.2
  centres.headD 0 + k * ((centres.getLastD 0 - centres.headD 0) / max 1 (l.length - 1 : ℚ))

lemma lastWrite_distribute (h : Selected s l) {k : ℕ} (hk : (sorted axis l)[k]? = some r) :
    lastWrite (distribute axis l) r.1.id =
      some (axis.delta (share axis (sorted axis l) k - axis.centre r.2)) := by
  refine lastWrite_of_mem ?_ (List.mem_map.mpr ⟨(r, k), ?_, rfl⟩)
  · have hkeys : (distribute axis l).map Prod.fst = (sorted axis l).map fun r => r.1.id := by
      rw [distribute]
      exact List.ext_getElem? fun i => by
        simp only [List.getElem?_map, List.getElem?_zipIdx, sorted]
        cases (l.mergeSort _)[i]? <;> rfl
    rw [hkeys]
    exact (h.perm (List.mergeSort_perm _ _)).nodup
  · exact List.mk_mem_zipIdx_iff_getElem?.mpr hk

lemma share_eq {L : List Row} {first last : Row} (h2 : 2 ≤ L.length) (hf : L.head? = some first)
    (hl : L.getLast? = some last) (k : ℕ) : share axis L k =
      axis.centre first.2 + k * ((axis.centre last.2 - axis.centre first.2) / (L.length - 1)) := by
  have hmax : max 1 (L.length - 1 : ℚ) = L.length - 1 := by
    refine max_eq_right ?_
    have : (2 : ℚ) ≤ L.length := by exact_mod_cast h2
    linarith
  simp [share, hmax, List.headD_eq_head?_getD, List.getLastD_eq_getLast?, hf, hl]

@[simp] lemma delta_zero (axis : Axis) : axis.delta 0 = 0 := by
  cases axis <;> rfl

lemma Listed.idxOf_eq {L : List Row} (hL : Listed axis l L) {k : ℕ} (hk : L[k]? = some r) :
    L.idxOf r = k := by
  have hnd : L.Nodup := hL.2.imp fun hlt heq => hlt.ne (by rw [heq])
  obtain ⟨hlt, rfl⟩ := List.getElem?_eq_some_iff.mp hk
  exact hnd.idxOf_getElem k hlt

lemma on_line_iff {n a b v : ℚ} (hn : 0 < n) (k : ℚ) :
    a + k * ((b - a) / n) - v = 0 ↔ n * (v - a) = k * (b - a) := by
  have hcancel : n * (k * ((b - a) / n)) = k * (b - a) := by field_simp
  constructor
  · intro h
    linarith [congrArg (n * ·) h]
  · intro h
    have hscaled : n * (a + k * ((b - a) / n) - v) = 0 := by linarith
    exact (mul_eq_zero.mp hscaled).resolve_left hn.ne'

/-- How far a row has to go. -/
def offset (axis : Axis) (L : List Row) (r : Row) : ℚ :=
  share axis L (L.idxOf r) - axis.centre r.2

lemma lastWrite_offset {L l' : List Row} (h : Selected s l) (hL : Listed axis l L)
    (hl : l'.Perm l) : ∀ r ∈ l', lastWrite (distribute axis l') r.1.id =
      some (axis.delta (offset axis L r)) := by
  intro r hr
  have hnd : (l'.map fun r => axis.centre r.2).Nodup := by
    have hmap : (L.map fun r => axis.centre r.2).Nodup :=
      List.pairwise_map.mpr (hL.2.imp fun hlt => hlt.ne)
    exact ((hL.1.trans hl.symm).map _).nodup_iff.mp hmap
  have hsame : sorted axis l' = L :=
    Listed.unique ⟨(List.mergeSort_perm _ _).trans hl, (listed_sorted hnd).2⟩ hL
  have hmem : r ∈ sorted axis l' := (List.mergeSort_perm _ _).mem_iff.mpr hr
  rw [hsame] at hmem
  have hk : L[L.idxOf r]? = some r := by
    rw [List.getElem?_eq_getElem (List.idxOf_lt_length_of_mem hmem), List.getElem_idxOf]
  rw [lastWrite_distribute (h.perm hl) (hsame ▸ hk), hsame, offset]

/-- The first and the last of the rows, and the distance between them. -/
structure Ends (axis : Axis) (l L : List Row) (first last : Row) : Prop where
  two : 2 ≤ L.length
  listed : Listed axis l L
  first : L.head? = some first
  last : L.getLast? = some last

lemma exists_ends (h2 : 2 ≤ l.length) (hnd : (l.map fun r => axis.centre r.2).Nodup) :
    ∃ L first last, Ends axis l L first last := by
  have hL := listed_sorted hnd
  have htwo : 2 ≤ (sorted axis l).length := hL.1.length_eq ▸ h2
  have hne : sorted axis l ≠ [] := fun hnil => by simp [hnil] at htwo
  exact ⟨_, _, _, htwo, hL, List.head?_eq_some_head hne, List.getLast?_eq_some_getLast hne⟩

variable {L : List Row} {first last : Row}

lemma Ends.offset_eq (he : Ends axis l L first last) {k : ℕ} (hk : L[k]? = some r) :
    offset axis L r = axis.centre first.2 +
      k * ((axis.centre last.2 - axis.centre first.2) / (L.length - 1)) - axis.centre r.2 := by
  rw [offset, he.listed.idxOf_eq hk, share_eq he.two he.first he.last]

lemma Ends.gaps_pos (he : Ends axis l L first last) : (0 : ℚ) < L.length - 1 := by
  have h2 : (2 : ℚ) ≤ L.length := by exact_mod_cast he.two
  linarith

lemma Ends.getElem?_zero (he : Ends axis l L first last) : L[0]? = some first :=
  List.head?_eq_getElem? ▸ he.first

lemma Ends.getElem?_last (he : Ends axis l L first last) : L[L.length - 1]? = some last :=
  List.getLast?_eq_getElem? ▸ he.last

lemma Ends.offset_end (he : Ends axis l L first last)
    (hr : L.head? = some r ∨ L.getLast? = some r) : offset axis L r = 0 := by
  have hpos := he.gaps_pos
  have hpred : ((L.length - 1 : ℕ) : ℚ) = L.length - 1 := by
    rw [Nat.cast_sub (by have := he.two; omega), Nat.cast_one]
  rcases hr with hr | hr
  · obtain rfl : first = r := Option.some.inj (he.first.symm.trans hr)
    rw [he.offset_eq he.getElem?_zero]
    simp
  · obtain rfl : last = r := Option.some.inj (he.last.symm.trans hr)
    rw [he.offset_eq he.getElem?_last, hpred, on_line_iff hpos]

lemma Ends.parentsSpaced_iff (he : Ends axis l L first last) :
    ParentsSpaced axis l ↔ ∀ p c, Overlap l p c → offset axis L p = 0 := by
  have hlen : (l.length : ℚ) = L.length := by rw [he.listed.1.length_eq]
  constructor
  · intro h p c ho
    obtain ⟨k, hk⟩ := List.mem_iff_getElem?.mp (he.listed.1.mem_iff.mpr ho.parent)
    rw [he.offset_eq hk, on_line_iff he.gaps_pos, ← hlen]
    exact h p c ho L first last k he.listed he.first he.last hk
  · intro h p c ho L' first' last' k hL' hfirst hlast hk
    obtain rfl := hL'.unique he.listed
    obtain rfl : first = first' := Option.some.inj (he.first.symm.trans hfirst)
    obtain rfl : last = last' := Option.some.inj (he.last.symm.trans hlast)
    rw [hlen, ← on_line_iff he.gaps_pos, ← he.offset_eq hk]
    exact h p c ho

/-- Equal distances between unmoved ends put each row at its share of the way. -/
lemma Ends.coord (he : Ends axis l L first last) (h : Selected s l) {s' : Store}
    (hspaced : Spaced axis s' l) (hr : r ∈ l) :
    (boxIn s' r.1.id).map axis.centre = some (axis.centre r.2 + offset axis L r) := by
  obtain ⟨⟨a, d, hline⟩, hends⟩ := hspaced L he.listed
  have hend : ∀ q, L.head? = some q ∨ L.getLast? = some q →
      (boxIn s' q.1.id).map axis.centre = some (axis.centre q.2) := fun q hq => by
    have hmem : q ∈ l := he.listed.1.mem_iff.mp (by
      rcases hq with hq | hq
      · exact List.mem_of_head? hq
      · exact List.mem_of_getLast? hq)
    rw [boxIn, hends q hq, Option.bind_some, h.boxed q hmem, Option.map_some]
  have hfirst : axis.centre first.2 = a := by
    have hk := hline 0 first he.getElem?_zero
    rw [hend first (.inl he.first)] at hk
    simpa using hk
  have hlast : axis.centre last.2 = a + (L.length - 1) * d := by
    have hk := hline _ last he.getElem?_last
    rw [hend last (.inr he.last), Nat.cast_sub (by have := he.two; omega)] at hk
    exact Option.some.inj hk
  have hstep : (axis.centre last.2 - axis.centre first.2) / (L.length - 1) = d := by
    rw [div_eq_iff he.gaps_pos.ne']
    linarith
  obtain ⟨k, hk⟩ := List.mem_iff_getElem?.mp (he.listed.1.mem_iff.mpr hr)
  rw [hline k r hk, he.offset_eq hk, hstep, hfirst, Option.some.injEq]
  ring

/-- **A distribute command.** It does what it is for when each parent of a selected item stands
already where its share of the way puts it. -/
lemma distribute_exact (h : Selected s l) (h2 : 2 ≤ l.length) (hf : Follows axis axis.centre)
    (hnd : (l.map fun r => axis.centre r.2).Nodup) :
    ((∀ l', l'.Perm l → ∀ id, (outcome (distribute axis) s l').get? id =
        (outcome (distribute axis) s l).get? id) ∧ Spaced axis (outcome (distribute axis) s l) l) ↔
      ParentsSpaced axis l := by
  obtain ⟨L, first, last, he⟩ := exists_ends h2 hnd
  have hmv : ∀ l', l'.Perm l → ∀ r ∈ l', lastWrite (distribute axis l') r.1.id =
      some (axis.delta (offset axis L r)) := fun l' hl => lastWrite_offset h he.listed hl
  have hself := hmv l (.refl l)
  rw [he.parentsSpaced_iff]
  constructor
  · rintro ⟨horder, hspaced⟩ p c ho
    refine parents_stay h hf (fun l' hl r hr => ?_) (fun r hr => ?_) ho
    · have hout := horder l' hl r.1.id
      rw [get?_outcome (hmv l' hl), get?_outcome hself, h.stored r hr] at hout
      exact Option.some.inj hout
    · rw [← boxIn_outcome h hr hself]
      exact he.coord h hspaced hr
  · intro hsafe
    have hstay : ∀ p c, Overlap l p c → axis.delta (offset axis L p) = 0 := fun p c ho => by
      rw [hsafe p c ho, delta_zero]
    refine ⟨fun l' hl id => ?_, fun L' hL' => ?_⟩
    · rw [get?_outcome (hmv l' hl), get?_outcome hself]
      cases hit : s.get? id with
      | none => rfl
      | some it =>
        obtain ⟨v, hv, -⟩ := settled h hstay hit
        rw [Option.map_some, Option.map_some, hv l' hl, hv l (.refl l)]
    · obtain rfl := hL'.unique he.listed
      have hfate : ∀ r ∈ l, fate (fun r => axis.delta (offset axis L' r)) l r.1 =
          r.1.shift (axis.delta (offset axis L' r)) := fun r hr => by
        obtain ⟨v, hv, hown⟩ := settled h hstay (h.stored r hr)
        rw [hv l (.refl l), hown r hr rfl]
      set d := (axis.centre last.2 - axis.centre first.2) / (L'.length - 1) with hd
      refine ⟨⟨axis.centre first.2, d, fun k r hk => ?_⟩, fun r hr => ?_⟩
      · have hr : r ∈ l := he.listed.1.mem_iff.mp (List.mem_of_getElem? hk)
        rw [boxIn_outcome h hr hself, hfate r hr, hf.coord (h.boxed r hr), he.offset_eq hk,
          Option.some.injEq, hd]
        ring
      · have hmem : r ∈ l := he.listed.1.mem_iff.mp (by
          rcases hr with hr | hr
          · exact List.mem_of_head? hr
          · exact List.mem_of_getLast? hr)
        rw [get?_outcome hself, h.stored r hmem, Option.map_some, hfate r hmem,
          he.offset_end hr, delta_zero, shift_zero]

/-! ### The commands -/

variable {items : List Item}

lemma rowsOf_map (h : ∀ r ∈ l, box r.1.place = some r.2) : rowsOf (l.map Prod.fst) = l := by
  induction l with
  | nil => rfl
  | cons r l ih =>
    rw [List.map_cons, rowsOf, List.filterMap_cons_some (by rw [h r List.mem_cons_self]; rfl)]
    exact congrArg (r :: ·) (ih fun q hq => h q (List.mem_cons_of_mem r hq))

lemma map_rowsOf (h : ∀ it ∈ items, (box it.place).isSome) :
    (rowsOf items).map Prod.fst = items := by
  induction items with
  | nil => rfl
  | cons it items ih =>
    obtain ⟨b, hb⟩ := Option.isSome_iff_exists.mp (h it List.mem_cons_self)
    rw [rowsOf, List.filterMap_cons_some (by rw [hb]; rfl)]
    exact congrArg (it :: ·) (ih fun q hq => h q (List.mem_cons_of_mem it hq))

lemma mem_rowsOf (hr : r ∈ rowsOf items) : r.1 ∈ items ∧ box r.1.place = some r.2 := by
  obtain ⟨it, hit, hmap⟩ := List.mem_filterMap.mp hr
  obtain ⟨b, hb, rfl⟩ := Option.map_eq_some_iff.mp hmap
  exact ⟨hit, hb⟩

lemma selected_rowsOf (hstored : ∀ it ∈ items, s.get? it.id = some it)
    (hnd : (items.map Item.id).Nodup) (hboxed : ∀ it ∈ items, (box it.place).isSome) :
    Selected s (rowsOf items) where
  stored r hr := hstored r.1 (mem_rowsOf hr).1
  nodup := by
    rw [← map_rowsOf hboxed, List.map_map] at hnd
    exact hnd
  boxed r hr := (mem_rowsOf hr).2

lemma run_eq (cmd : Command) (s : Store) (h2 : 2 ≤ items.length) :
    run exact cmd s items = outcome cmd.moves s (rowsOf items) := by
  rw [run, if_neg (by omega), outcome]

lemma order_iff {cmd : Command} (h2 : 2 ≤ items.length)
    (hboxed : ∀ it ∈ items, (box it.place).isSome) :
    (∀ items', items'.Perm items → ∀ id,
      (run exact cmd s items').get? id = (run exact cmd s items).get? id) ↔
    ∀ l', l'.Perm (rowsOf items) → ∀ id, (outcome cmd.moves s l').get? id =
      (outcome cmd.moves s (rowsOf items)).get? id := by
  constructor
  · intro h l' hl id
    have hitems : (l'.map Prod.fst).Perm items := by
      simpa only [map_rowsOf hboxed] using hl.map Prod.fst
    have hrows : rowsOf (l'.map Prod.fst) = l' :=
      rowsOf_map fun r hr => (mem_rowsOf (hl.subset hr)).2
    have hsame := h _ hitems id
    rwa [run_eq cmd s (hitems.length_eq ▸ h2), run_eq cmd s h2, hrows] at hsame
  · intro h items' hitems id
    rw [run_eq cmd s (hitems.length_eq ▸ h2), run_eq cmd s h2]
    exact h _ (hitems.filterMap _) id

@[simp] lemma follows_left : Follows .x (·.x) := ⟨fun _ _ => rfl⟩

@[simp] lemma follows_top : Follows .y (·.y) := ⟨fun _ _ => rfl⟩

@[simp] lemma follows_right : Follows .x fun b => b.x + b.w :=
  ⟨fun b d => by simp only [Box.shift, Axis.delta]; ring⟩

@[simp] lemma follows_bottom : Follows .y fun b => b.y + b.h :=
  ⟨fun b d => by simp only [Box.shift, Axis.delta]; ring⟩

@[simp] lemma follows_centre (axis : Axis) : Follows axis axis.centre :=
  ⟨fun b d => by cases axis <;> simp only [Box.shift, Axis.delta, Axis.centre] <;> ring⟩

/-- **Aligned and distributed in every order.** Of stored items with boxes, two or more, a command
leaves each at the same place in every order of selection and brings them where it is for, exactly
when a selected parent of another selected item has nowhere to go; and centres, that are halved
one after another, when they are one or there are two. -/
theorem alignCommands_exact (cmd : Command) (s : Store) (items : List Item)
    (hstored : ∀ it ∈ items, s.get? it.id = some it) (hnd : (items.map Item.id).Nodup)
    (hboxed : ∀ it ∈ items, (box it.place).isSome) (h2 : 2 ≤ items.length)
    (hdist : cmd.Distinct (rowsOf items)) :
    cmd.Keeps s items ↔ cmd.Safe (rowsOf items) := by
  have hsel := selected_rowsOf hstored hnd hboxed
  have hlen : (rowsOf items).length = items.length := by
    rw [← congrArg List.length (map_rowsOf hboxed), List.length_map]
  have hrows : 2 ≤ (rowsOf items).length := hlen ▸ h2
  have hne : rowsOf items ≠ [] := fun hnil => by simp [hnil] at hrows
  have hkeeps : cmd.Keeps s items ↔ (∀ l', l'.Perm (rowsOf items) → ∀ id,
      (outcome cmd.moves s l').get? id = (outcome cmd.moves s (rowsOf items)).get? id) ∧
        cmd.Arranged (outcome cmd.moves s (rowsOf items)) (rowsOf items) := by
    rw [← order_iff h2 hboxed, ← run_eq cmd s h2]
    exact ⟨fun h => ⟨h.order, h.arranged⟩, fun h => ⟨h.1, h.2⟩⟩
  rw [hkeeps]
  cases cmd with
  | alignLeft => exact (edge_exact hsel hne follows_left).trans (min_safe_iff _ hne)
  | alignRight => exact (edge_exact hsel hne follows_right).trans (max_safe_iff _ hne)
  | alignTop => exact (edge_exact hsel hne follows_top).trans (min_safe_iff _ hne)
  | alignBottom => exact (edge_exact hsel hne follows_bottom).trans (max_safe_iff _ hne)
  | alignCenterX =>
    exact (edge_exact hsel hne (follows_centre .x)).trans (centred_iff .x hsel hrows)
  | alignCenterY =>
    exact (edge_exact hsel hne (follows_centre .y)).trans (centred_iff .y hsel hrows)
  | distributeH => exact distribute_exact hsel hrows (follows_centre .x) hdist
  | distributeV => exact distribute_exact hsel hrows (follows_centre .y) hdist

def itemAt (id : String) (parent : Option String) (x : ℚ) : Item :=
  ⟨id, "", parent, ⟨some ⟨x, 0, 2, 2⟩, none, none, none, none, none⟩⟩

def storeOf (items : List Item) : Store where
  items := OMap.ofList (items.map fun it => (it.id, it))
  keyed k it h := by
    rw [get?_ofList] at h
    obtain ⟨t, -, ht⟩ := List.mem_map.mp (mem_of_lastWrite h)
    rw [Prod.mk.injEq] at ht
    rw [← ht.2, ht.1]

/-- A symbol and a field of it, aligned to the right edge of the symbol. -/
theorem alignCommands_exact_part :
    Command.alignRight.Keeps (storeOf [itemAt "r" none 4, itemAt "v" (some "r") 0])
      [itemAt "r" none 4, itemAt "v" (some "r") 0] := by
  refine (alignCommands_exact .alignRight _ _ ?_ ?_ ?_ ?_ trivial).mpr ?_
  · decide +kernel
  · decide
  · decide +kernel
  · decide
  · rintro p c ⟨hp, hc, -, hparent⟩ r hr
    have hrows : rowsOf [itemAt "r" none 4, itemAt "v" (some "r") 0] =
        [(itemAt "r" none 4, ⟨4, 0, 2, 2⟩), (itemAt "v" (some "r") 0, ⟨0, 0, 2, 2⟩)] := rfl
    rw [hrows, List.mem_pair] at hp hc hr
    rcases hp with rfl | rfl
    · rcases hr with rfl | rfl <;> norm_num
    · rcases hc with rfl | rfl <;> simp [itemAt] at hparent

/-- Three items whose centres are 1, 1 and 5 come to 3 or to 2. -/
theorem alignCommands_order :
    ¬ ∀ (cmd : Command) (s : Store) (items : List Item),
      (∀ it ∈ items, s.get? it.id = some it) → (items.map Item.id).Nodup →
      (∀ it ∈ items, (box it.place).isSome) → 2 ≤ items.length →
      cmd.Distinct (rowsOf items) → cmd.Keeps s items := by
  intro h
  have hkeeps := h .alignCenterX (storeOf [itemAt "a" none 0, itemAt "b" none 0, itemAt "c" none 4])
    [itemAt "a" none 0, itemAt "b" none 0, itemAt "c" none 4]
    (by decide +kernel) (by decide) (by decide +kernel) (by decide) trivial
  have hsame := hkeeps.order [itemAt "c" none 4, itemAt "a" none 0, itemAt "b" none 0]
    (by decide) "a"
  revert hsame
  decide +kernel

end FabPcb.AlignItems
