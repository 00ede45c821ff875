import FabPcb.ClonePaste

/-!
The walk of a copy against the walk of a move.

What a value must be for one of the walks to leave it alone (`Rests`, `Stays`), for the walk of a
copy not to fail (`Safe`), and for the two to come to the same (`Agrees`).
-/

namespace FabPcb.ChildWalk

open SpecctraData (Vec2 roundHalfUp)
open WebGeometry ClonePaste

/-! ### Values as trees -/

lemma sizeOf_item {t : Js} {items : List Js} (h : t ∈ items) :
    sizeOf t < sizeOf (Js.arr items) := by
  have := List.sizeOf_lt_of_mem h
  rw [Js.arr.sizeOf_spec]
  omega

lemma sizeOf_field {e : String × Js} {fields : List (String × Js)} (h : e ∈ fields) :
    sizeOf e.2 < sizeOf (Js.obj fields) := by
  have hmem := List.sizeOf_lt_of_mem h
  obtain ⟨k, t⟩ := e
  rw [Prod.mk.sizeOf_spec] at hmem
  rw [Js.obj.sizeOf_spec]
  change sizeOf t < _
  omega

/-- The induction over the parts of a value. -/
lemma parts_induction {P : Js → Prop} (harr : ∀ items, (∀ t ∈ items, P t) → P (.arr items))
    (hobj : ∀ fields : List (String × Js), (∀ e ∈ fields, P e.2) → P (.obj fields))
    (hleaf : ∀ t, (∀ items, t ≠ .arr items) → (∀ fields, t ≠ .obj fields) → P t) (t : Js) :
    P t := by
  induction hn : sizeOf t using Nat.strong_induction_on generalizing t with
  | _ n ih =>
    cases t with
    | arr items => exact harr items fun t ht => ih _ (hn ▸ sizeOf_item ht) t rfl
    | obj fields => exact hobj fields fun e he => ih _ (hn ▸ sizeOf_field he) e.2 rfl
    | undefined => exact hleaf _ (fun _ => Js.noConfusion) fun _ => Js.noConfusion
    | bool b => exact hleaf _ (fun _ => Js.noConfusion) fun _ => Js.noConfusion
    | num v => exact hleaf _ (fun _ => Js.noConfusion) fun _ => Js.noConfusion
    | big v => exact hleaf _ (fun _ => Js.noConfusion) fun _ => Js.noConfusion
    | str s => exact hleaf _ (fun _ => Js.noConfusion) fun _ => Js.noConfusion
    | bytes data => exact hleaf _ (fun _ => Js.noConfusion) fun _ => Js.noConfusion
    | any typeUrl message => exact hleaf _ (fun _ => Js.noConfusion) fun _ => Js.noConfusion

lemma keyed_arr {items : List Js} : Keyed (.arr items) ↔ ∀ t ∈ items, Keyed t := by
  rw [Keyed]
  induction items with
  | nil => simp [KeyedItems]
  | cons t items ih => rw [KeyedItems, ih, List.forall_mem_cons]

lemma keyed_obj {fields : List (String × Js)} :
    Keyed (.obj fields) ↔ (fields.map Prod.fst).Nodup ∧ ∀ e ∈ fields, Keyed e.2 := by
  have hfields : KeyedFields fields ↔ ∀ e ∈ fields, Keyed e.2 := by
    induction fields with
    | nil => simp [KeyedFields]
    | cons e fields ih => rw [KeyedFields, ih, List.forall_mem_cons, KeyedField]
  rw [Keyed, hfields]

lemma look_cons_self (e : String × Js) (fields : List (String × Js)) :
    look e.1 (e :: fields) = e.2 := by
  rw [look, List.lookup_cons, beq_self_eq_true]
  rfl

lemma look_cons_ne {key : String} {e : String × Js} (h : key ≠ e.1) (fields : List (String × Js)) :
    look key (e :: fields) = look key fields := by
  rw [look, List.lookup_cons, beq_false_of_ne h]
  rfl

lemma look_of_mem {fields : List (String × Js)} (h : (fields.map Prod.fst).Nodup) {e : String × Js}
    (he : e ∈ fields) : look e.1 fields = e.2 := by
  induction fields with
  | nil => exact absurd he List.not_mem_nil
  | cons d fields ih =>
    rw [List.map_cons, List.nodup_cons] at h
    rcases List.mem_cons.mp he with rfl | he
    · exact look_cons_self e fields
    · have hne : e.1 ≠ d.1 := fun heq => h.1 (heq ▸ List.mem_map_of_mem he)
      rw [look_cons_ne hne]
      exact ih h.2 he

lemma look_of_notMem {key : String} {fields : List (String × Js)}
    (h : key ∉ fields.map Prod.fst) : look key fields = .undefined := by
  induction fields with
  | nil => rfl
  | cons e fields ih =>
    rw [List.map_cons, List.mem_cons, not_or] at h
    rw [look_cons_ne h.1]
    exact ih h.2

lemma mem_keys_of_look {key : String} {fields : List (String × Js)}
    (h : look key fields ≠ .undefined) : key ∈ fields.map Prod.fst :=
  of_not_not fun hkey => h (look_of_notMem hkey)

lemma look_map (g : String → Js → Js) {key : String} {fields : List (String × Js)}
    (h : key ∈ fields.map Prod.fst) :
    look key (fields.map fun e => (e.1, g e.1 e.2)) = g key (look key fields) := by
  induction fields with
  | nil => exact absurd h List.not_mem_nil
  | cons e fields ih =>
    rw [List.map_cons] at h ⊢
    by_cases hkey : key = e.1
    · subst hkey
      rw [look_cons_self, look_cons_self (e.1, g e.1 e.2)]
    · rw [look_cons_ne hkey, look_cons_ne (e := (e.1, g e.1 e.2)) hkey]
      exact ih ((List.mem_cons.mp h).resolve_left hkey)

/-! ### The judgements -/

def IsBig : Js → Prop
  | .big _ => True
  | _ => False

/-- A number that rounding leaves. -/
def WholeNumber : Js → Prop
  | .num v => roundHalfUp v = v
  | _ => True

/-- Both coordinates are of the type of the messages. -/
def BigVec (fields : List (String × Js)) : Prop :=
  IsBig (look "xNm" fields) ∧ IsBig (look "yNm" fields)

section Judgements

variable (number : Js → Option ℚ) (dx dy : ℤ)

/-- The move is none, and does not round either. -/
def Still (fields : List (String × Js)) : Prop :=
  (dx = 0 ∧ WholeNumber (look "xNm" fields)) ∧ dy = 0 ∧ WholeNumber (look "yNm" fields)

/-- The walk of a copy does not fail. -/
def Safe : String → Js → Prop
  | key, .arr items => ∀ t ∈ items, Safe key t
  | key, .obj fields =>
    if isPositional key fields then (toNumber number (look "yNm" fields)).isSome = true
    else ∀ e ∈ fields, e.1 ∉ keptKeys → Safe e.1 e.2
  | _, _ => True
termination_by _ t => t
decreasing_by
  · exact sizeOf_item ‹_›
  · exact sizeOf_field ‹_›

/-- The walk of a copy leaves the value alone. -/
def Rests : String → Js → Prop
  | key, .arr items => ∀ t ∈ items, Rests key t
  | key, .obj fields =>
    if isPositional key fields then BigVec fields ∧ dx = 0 ∧ dy = 0
    else ∀ e ∈ fields, e.1 ∉ keptKeys → Rests e.1 e.2
  | _, .any _ _ => False
  | _, .bytes _ => False
  | _, _ => True
termination_by _ t => t
decreasing_by
  · exact sizeOf_item ‹_›
  · exact sizeOf_field ‹_›

/-- The walk of a move leaves the value alone. -/
def Stays : String → Js → Prop
  | key, .arr items => ∀ t ∈ items, Stays key t
  | key, .obj fields =>
    if isVec fields then key ∈ nonPositional ∨ Still dx dy fields
    else ∀ e ∈ fields, e.1 ≠ "definition" → Stays e.1 e.2
  | _, _ => True
termination_by _ t => t
decreasing_by
  · exact sizeOf_item ‹_›
  · exact sizeOf_field ‹_›

/-- The two walks come to the same. -/
def Agrees : String → Js → Prop
  | key, .arr items => ∀ t ∈ items, Agrees key t
  | key, .obj fields =>
    if isPositional key fields then BigVec fields
    else if isVec fields then
      (key ∈ nonPositional ∨ Still dx dy fields) ∧
        ∀ e ∈ fields, e.1 ∉ keptKeys → Rests dx dy e.1 e.2
    else
      ∀ e ∈ fields,
        if e.1 ∈ keptKeys then Stays dx dy e.1 e.2
        else if e.1 = "definition" then Rests dx dy e.1 e.2
        else Agrees e.1 e.2
  | _, .any _ _ => False
  | _, .bytes _ => False
  | _, _ => True
termination_by _ t => t
decreasing_by
  · exact sizeOf_item ‹_›
  · exact sizeOf_field ‹_›

end Judgements

/-! ### Parts first -/

section Parts

variable {packed : Js → List UInt8} {number : Js → Option ℚ} {dx dy : ℤ} {key : String}

lemma walkChildItems_iff {g : Js → Js} {items : List Js} :
    walkChildItems packed number dx dy key items = some (items.map g) ↔
      ∀ t ∈ items, walkChild packed number dx dy key t = some (g t) := by
  induction items with
  | nil => simp [walkChildItems]
  | cons t items ih =>
    rw [walkChildItems, List.forall_mem_cons, ← ih, List.map_cons, Option.bind_eq_some_iff]
    constructor
    · rintro ⟨t', ht', hrest⟩
      obtain ⟨rest, hrest, heq⟩ := Option.map_eq_some_iff.mp hrest
      rw [List.cons.injEq] at heq
      exact ⟨heq.1 ▸ ht', heq.2 ▸ hrest⟩
    · rintro ⟨ht, hrest⟩
      exact ⟨g t, ht, by rw [hrest, Option.map_some]⟩

lemma walkChildFields_iff {g : String × Js → Js} {fields : List (String × Js)} :
    walkChildFields packed number dx dy fields = some (fields.map fun e => (e.1, g e)) ↔
      ∀ e ∈ fields, walkChildField packed number dx dy e = some (e.1, g e) := by
  induction fields with
  | nil => simp [walkChildFields]
  | cons e fields ih =>
    rw [walkChildFields, List.forall_mem_cons, ← ih, List.map_cons, Option.bind_eq_some_iff]
    constructor
    · rintro ⟨e', he', hrest⟩
      obtain ⟨rest, hrest, heq⟩ := Option.map_eq_some_iff.mp hrest
      rw [List.cons.injEq] at heq
      exact ⟨heq.1 ▸ he', heq.2 ▸ hrest⟩
    · rintro ⟨he, hrest⟩
      exact ⟨(e.1, g e), he, by rw [hrest, Option.map_some]⟩

lemma walkChildField_iff {e : String × Js} {t : Js} :
    walkChildField packed number dx dy e = some (e.1, t) ↔
      if e.1 ∈ keptKeys then e.2 = t else walkChild packed number dx dy e.1 e.2 = some t := by
  obtain ⟨k, v⟩ := e
  rw [walkChildField]
  split_ifs with hkept
  · simp
  · simp [Option.map_eq_some_iff]

lemma walkChild_arr {items items' : List Js} :
    walkChild packed number dx dy key (.arr items) = some (.arr items') ↔
      walkChildItems packed number dx dy key items = some items' := by
  rw [walkChild]
  simp

lemma walkChild_obj {fields fields' : List (String × Js)} (h : isPositional key fields = false) :
    walkChild packed number dx dy key (.obj fields) = some (.obj fields') ↔
      walkChildFields packed number dx dy fields = some fields' := by
  rw [walkChild, if_neg (by simp [h])]
  simp

lemma walkChild_vec {fields fields' : List (String × Js)} (h : isPositional key fields = true) :
    walkChild packed number dx dy key (.obj fields) = some (.obj fields') ↔
      shiftVec number dx dy fields = some fields' := by
  rw [walkChild, if_pos h]
  simp

end Parts

/-! ### Places -/

section Places

variable {number : Js → Option ℚ} {dx dy : ℤ} {key : String} {fields : List (String × Js)}

lemma look_setKey_self (key : String) (value : Js) (fields : List (String × Js)) :
    look key (setKey key value fields) = value := by
  rw [setKey]
  split_ifs with hkey
  · rw [look_map (fun k t => if k = key then value else t) hkey, if_pos rfl]
  · induction fields with
    | nil => exact look_cons_self (key, value) []
    | cons e fields ih =>
      rw [List.map_cons, List.mem_cons, not_or] at hkey
      rw [List.cons_append, look_cons_ne hkey.1]
      exact ih hkey.2

lemma look_setKey_ne {other : String} (hne : other ≠ key) (value : Js)
    (fields : List (String × Js)) : look other (setKey key value fields) = look other fields := by
  rw [setKey]
  split_ifs with hkey
  · by_cases hother : other ∈ fields.map Prod.fst
    · rw [look_map (fun k t => if k = key then value else t) hother, if_neg hne]
    · rw [look_of_notMem hother, look_of_notMem]
      simpa using hother
  · induction fields with
    | nil => exact look_cons_ne (e := (key, value)) hne []
    | cons e fields ih =>
      rw [List.map_cons, List.mem_cons, not_or] at hkey
      rw [List.cons_append]
      by_cases hother : other = e.1
      · subst hother
        rw [look_cons_self, look_cons_self]
      · rw [look_cons_ne hother, look_cons_ne hother]
        exact ih hkey.2

lemma look_shiftVec {fields' : List (String × Js)}
    (h : shiftVec number dx dy fields = some fields') :
    look "xNm" fields' = .big ⌊num (look "xNm" fields) + (dx : ℚ) + 1 / 2⌋ ∧
      ∃ y, toNumber number (look "yNm" fields) = some y ∧
        look "yNm" fields' = .big ⌊y + (dy : ℚ) + 1 / 2⌋ := by
  obtain ⟨y, hy, rfl⟩ := Option.map_eq_some_iff.mp h
  refine ⟨?_, y, hy, look_setKey_self _ _ _⟩
  rw [look_setKey_ne (by decide), look_setKey_self]

lemma isBig_iff {t : Js} : IsBig t ↔ ∃ v, t = .big v := by
  cases t <;> simp [IsBig]

lemma BigVec.isVec (h : BigVec fields) : isVec fields = true := by
  obtain ⟨x, hx⟩ := isBig_iff.mp h.1
  obtain ⟨y, hy⟩ := isBig_iff.mp h.2
  rw [WebGeometry.isVec, hx, hy]
  rfl

/-- The move of a place. -/
def shift (dx dy : ℤ) (v : Vec2) : Vec2 := ⟨v.x + dx, v.y + dy⟩

/-- What a move makes of a field of a place. -/
def moved (dx dy : ℤ) (fields : List (String × Js)) (e : String × Js) : Js :=
  if e.1 = "xNm" then like e.2 (num (look "xNm" fields) + dx)
  else if e.1 = "yNm" then like e.2 (num (look "yNm" fields) + dy)
  else e.2

lemma setVec_shift (fields : List (String × Js)) :
    setVec (shift dx dy) fields = fields.map fun e => (e.1, moved dx dy fields e) := rfl

lemma setKey_of_mem {value : Js} (h : key ∈ fields.map Prod.fst) :
    setKey key value fields = fields.map fun e => (e.1, if e.1 = key then value else e.2) :=
  if_pos h

/-- A place of the messages is shifted by a copy as by a move. -/
lemma shiftVec_of_bigVec (hkeyed : (fields.map Prod.fst).Nodup) (h : BigVec fields) :
    shiftVec number dx dy fields = some (setVec (shift dx dy) fields) := by
  obtain ⟨x, hx⟩ := isBig_iff.mp h.1
  obtain ⟨y, hy⟩ := isBig_iff.mp h.2
  have hxmem : "xNm" ∈ fields.map Prod.fst := mem_keys_of_look (by rw [hx]; simp)
  have hymem : "yNm" ∈ fields.map Prod.fst := mem_keys_of_look (by rw [hy]; simp)
  rw [shiftVec, setVec_shift, hy, toNumber, Option.map_some, setKey_of_mem hxmem,
    setKey_of_mem (by simpa using hymem), List.map_map]
  refine congrArg some (List.map_congr_left fun e he => ?_)
  have hvalue := look_of_mem hkeyed he
  rw [Function.comp_apply, moved]
  by_cases hex : e.1 = "xNm"
  · have hey : e.1 ≠ "yNm" := by rw [hex]; decide
    rw [hex] at hvalue
    simp only [if_pos hex, if_neg hey, ← hvalue]
    rw [hx]
    rfl
  · by_cases hey : e.1 = "yNm"
    · rw [hey] at hvalue
      simp only [if_neg hex, if_pos hey, ← hvalue]
      rw [hy]
      rfl
    · simp [if_neg hex, if_neg hey]

lemma roundHalfUp_add (v : ℚ) (d : ℤ) : roundHalfUp (v + d) = roundHalfUp v + d := by
  rw [roundHalfUp, roundHalfUp, add_right_comm, Int.floor_add_intCast, Int.cast_add]

/-- A coordinate is left as it is. -/
lemma like_eq_self_iff {t : Js} (h : isNm t = true) (d : ℤ) :
    like t (num t + d) = t ↔ d = 0 ∧ WholeNumber t := by
  cases t with
  | big z =>
    have hfloor : ⌊(z : ℚ) + d + 1 / 2⌋ = z + d := by
      rw [← Int.cast_add, Int.floor_intCast_add]
      norm_num
    have hlike : like (.big z) (num (.big z) + d) = .big (z + d) := congrArg Js.big hfloor
    rw [hlike, Js.big.injEq]
    exact ⟨fun h => ⟨by omega, trivial⟩, fun h => by omega⟩
  | num v =>
    have hround := roundHalfUp_add v d
    simp only [like, num, WholeNumber, Js.num.injEq]
    constructor
    · intro hv
      have hwhole : roundHalfUp v = v := by
        rw [← hv]
        exact FootprintItems.roundHalfUp_intCast _
      rw [hround, hwhole] at hv
      exact ⟨by exact_mod_cast add_eq_left.mp hv, hwhole⟩
    · rintro ⟨rfl, hwhole⟩
      rw [hround, hwhole, Int.cast_zero, add_zero]
  | undefined => exact absurd h (by decide)
  | bool b => exact absurd h Bool.false_ne_true
  | str s => exact absurd h Bool.false_ne_true
  | bytes data => exact absurd h Bool.false_ne_true
  | any typeUrl message => exact absurd h Bool.false_ne_true
  | arr items => exact absurd h Bool.false_ne_true
  | obj fields => exact absurd h Bool.false_ne_true

lemma isVec_iff : isVec fields = true ↔
    isNm (look "xNm" fields) = true ∧ isNm (look "yNm" fields) = true := by
  rw [isVec, Bool.and_eq_true]

lemma mem_keys_of_isNm (h : isNm (look key fields) = true) : key ∈ fields.map Prod.fst := by
  refine mem_keys_of_look fun hundefined => ?_
  rw [hundefined] at h
  exact absurd h (by decide)

lemma look_moved (hmem : key ∈ fields.map Prod.fst) :
    look key (setVec (shift dx dy) fields) = moved dx dy fields (key, look key fields) := by
  exact look_map (fun k t => moved dx dy fields (k, t)) hmem

lemma moved_eq_self (hkeyed : (fields.map Prod.fst).Nodup) (hvec : isVec fields = true)
    (hstill : Still dx dy fields) {e : String × Js} (he : e ∈ fields) :
    moved dx dy fields e = e.2 := by
  obtain ⟨hx, hy⟩ := isVec_iff.mp hvec
  have hvalue := look_of_mem hkeyed he
  rw [moved]
  split_ifs with hex hey
  · rw [hex] at hvalue
    rw [← hvalue]
    exact (like_eq_self_iff hx dx).mpr hstill.1
  · rw [hey] at hvalue
    rw [← hvalue]
    exact (like_eq_self_iff hy dy).mpr hstill.2
  · rfl

lemma still_of_moved (hvec : isVec fields = true)
    (hx : moved dx dy fields ("xNm", look "xNm" fields) = look "xNm" fields)
    (hy : moved dx dy fields ("yNm", look "yNm" fields) = look "yNm" fields) :
    Still dx dy fields := by
  obtain ⟨hxNm, hyNm⟩ := isVec_iff.mp hvec
  exact ⟨(like_eq_self_iff hxNm dx).mp hx, (like_eq_self_iff hyNm dy).mp hy⟩

lemma setVec_eq_self_iff (hkeyed : (fields.map Prod.fst).Nodup) (hvec : isVec fields = true) :
    setVec (shift dx dy) fields = fields ↔ Still dx dy fields := by
  obtain ⟨hx, hy⟩ := isVec_iff.mp hvec
  constructor
  · intro heq
    have hx' := @look_moved dx dy _ _ (mem_keys_of_isNm hx)
    have hy' := @look_moved dx dy _ _ (mem_keys_of_isNm hy)
    rw [heq] at hx' hy'
    exact still_of_moved hvec hx'.symm hy'.symm
  · intro hstill
    rw [setVec_shift, List.map_congr_left fun e he => by rw [moved_eq_self hkeyed hvec hstill he],
      List.map_id'']
    exact fun _ => rfl

lemma shiftVec_eq_self_iff (hkeyed : (fields.map Prod.fst).Nodup) :
    shiftVec number dx dy fields = some fields ↔ BigVec fields ∧ dx = 0 ∧ dy = 0 := by
  constructor
  · intro h
    obtain ⟨hx, y, -, hy⟩ := look_shiftVec h
    have hbig : BigVec fields := ⟨isBig_iff.mpr ⟨_, hx⟩, isBig_iff.mpr ⟨_, hy⟩⟩
    rw [shiftVec_of_bigVec hkeyed hbig, Option.some.injEq,
      setVec_eq_self_iff hkeyed hbig.isVec] at h
    exact ⟨hbig, h.1.1, h.2.1⟩
  · rintro ⟨hbig, rfl, rfl⟩
    rw [shiftVec_of_bigVec hkeyed hbig, Option.some.injEq, setVec_eq_self_iff hkeyed hbig.isVec]
    obtain ⟨x, hx⟩ := isBig_iff.mp hbig.1
    obtain ⟨y, hy⟩ := isBig_iff.mp hbig.2
    rw [Still, hx, hy]
    exact ⟨⟨rfl, trivial⟩, rfl, trivial⟩

end Places

/-! ### What the judgements say -/

section Judged

variable {packed : Js → List UInt8} {number : Js → Option ℚ} {dx dy : ℤ}

lemma notMem_nonPositional {key : String} {fields : List (String × Js)}
    (h : isPositional key fields = true) : key ∉ nonPositional := by
  have hkey : ∀ k ∈ positional, k ∉ nonPositional := by decide
  rw [isPositional, Bool.and_eq_true, decide_eq_true_eq] at h
  exact hkey key h.1

lemma walk_leaf {fn : Vec2 → Vec2} {t : Js} (key : String) (harr : ∀ items, t ≠ .arr items)
    (hobj : ∀ fields, t ≠ .obj fields) : walk fn key t = t := by
  cases t with
  | arr items => exact absurd rfl (harr items)
  | obj fields => exact absurd rfl (hobj fields)
  | undefined => rfl
  | bool b => rfl
  | num v => rfl
  | big v => rfl
  | str s => rfl
  | bytes data => rfl
  | any typeUrl message => rfl

lemma walkChild_leaf {t : Js} (key : String) (harr : ∀ items, t ≠ .arr items)
    (hobj : ∀ fields, t ≠ .obj fields) :
    walkChild packed number dx dy key t = some t ↔ Rests dx dy key t := by
  cases t with
  | arr items => exact absurd rfl (harr items)
  | obj fields => exact absurd rfl (hobj fields)
  | undefined => simp [walkChild, Rests]
  | bool b => simp [walkChild, Rests]
  | num v => simp [walkChild, Rests]
  | big v => simp [walkChild, Rests]
  | str s => simp [walkChild, Rests]
  | bytes data => simp [walkChild, Rests, bytesObject]
  | any typeUrl message => simp [walkChild, Rests]

/-- **What a copy leaves alone.** -/
theorem rests_iff {t : Js} (hkeyed : Keyed t) (key : String) :
    walkChild packed number dx dy key t = some t ↔ Rests dx dy key t := by
  induction t using parts_induction generalizing key with
  | harr items ih =>
    have hitems := keyed_arr.mp hkeyed
    have hparts : walkChildItems packed number dx dy key items = some items ↔
        ∀ t ∈ items, walkChild packed number dx dy key t = some t := by
      simpa using walkChildItems_iff (g := id)
    rw [walkChild_arr, hparts, Rests]
    exact forall₂_congr fun t ht => ih t ht (hitems t ht) key
  | hobj fields ih =>
    obtain ⟨hnodup, hfields⟩ := keyed_obj.mp hkeyed
    rw [Rests]
    by_cases hpos : isPositional key fields = true
    · rw [if_pos hpos, walkChild_vec hpos, shiftVec_eq_self_iff hnodup]
    · have hparts : walkChildFields packed number dx dy fields = some fields ↔
          ∀ e ∈ fields, walkChildField packed number dx dy e = some (e.1, e.2) := by
        simpa using walkChildFields_iff (g := Prod.snd)
      rw [if_neg hpos, walkChild_obj (Bool.eq_false_iff.mpr hpos), hparts]
      refine forall₂_congr fun e he => ?_
      rw [walkChildField_iff]
      split_ifs with hkept
      · exact iff_of_true rfl fun h => absurd hkept h
      · rw [ih e he (hfields e he) e.1]
        exact ⟨fun h _ => h, fun h => h hkept⟩
  | hleaf t harr hobj => exact walkChild_leaf key harr hobj

lemma map_eq_self_iff {α : Type*} {f : α → α} {l : List α} : l.map f = l ↔ ∀ a ∈ l, f a = a := by
  have h : l.map f = l.map id ↔ ∀ a ∈ l, f a = id a := List.map_inj_left
  rwa [List.map_id] at h

/-- **What a move leaves alone.** -/
theorem stays_iff {t : Js} (hkeyed : Keyed t) (key : String) :
    walk (shift dx dy) key t = t ↔ Stays dx dy key t := by
  induction t using parts_induction generalizing key with
  | harr items ih =>
    have hitems := keyed_arr.mp hkeyed
    rw [walk_arr, Js.arr.injEq, Stays, map_eq_self_iff]
    exact forall₂_congr fun t ht => ih t ht (hitems t ht) key
  | hobj fields ih =>
    obtain ⟨hnodup, hfields⟩ := keyed_obj.mp hkeyed
    rw [Stays]
    by_cases hvec : isVec fields = true
    · rw [if_pos hvec]
      by_cases hsize : key ∈ nonPositional
      · exact iff_of_true (walk_size hvec hsize) (.inl hsize)
      · rw [walk_vec hvec hsize, Js.obj.injEq, setVec_eq_self_iff hnodup hvec, or_iff_right hsize]
    · rw [if_neg hvec, walk_obj (Bool.eq_false_iff.mpr hvec), Js.obj.injEq, map_eq_self_iff]
      refine forall₂_congr fun e he => ?_
      rw [Prod.ext_iff, and_iff_right rfl]
      split_ifs with hdef
      · exact iff_of_true rfl fun h => absurd hdef h
      · rw [ih e he (hfields e he) e.1]
        exact ⟨fun h _ => h, fun h => h hdef⟩
  | hleaf t harr hobj =>
    refine iff_of_true (walk_leaf key harr hobj) ?_
    cases t with
    | arr items => exact absurd rfl (harr items)
    | obj fields => exact absurd rfl (hobj fields)
    | undefined => simp [Stays]
    | bool b => simp [Stays]
    | num v => simp [Stays]
    | big v => simp [Stays]
    | str s => simp [Stays]
    | bytes data => simp [Stays]
    | any typeUrl message => simp [Stays]

/-- What a move makes of a field of an object: a place is moved, the parts of others are. -/
def walked (dx dy : ℤ) (key : String) (fields : List (String × Js)) (e : String × Js) : Js :=
  if isVec fields then if key ∈ nonPositional then e.2 else moved dx dy fields e
  else if e.1 = "definition" then e.2 else walk (shift dx dy) e.1 e.2

lemma walk_fields (key : String) (fields : List (String × Js)) :
    walk (shift dx dy) key (.obj fields) =
      .obj (fields.map fun e => (e.1, walked dx dy key fields e)) := by
  simp only [walked]
  by_cases hvec : isVec fields = true
  · by_cases hsize : key ∈ nonPositional
    · simp [walk_size hvec hsize, hvec, hsize]
    · simp [walk_vec hvec hsize, hvec, hsize, setVec_shift]
  · simp [walk_obj (Bool.eq_false_iff.mpr hvec), hvec]

lemma walkChildItems_isSome {key : String} {items : List Js} :
    (walkChildItems packed number dx dy key items).isSome ↔
      ∀ t ∈ items, (walkChild packed number dx dy key t).isSome := by
  induction items with
  | nil => simp [walkChildItems]
  | cons t items ih =>
    rw [walkChildItems, List.forall_mem_cons, ← ih, Option.isSome_bind, Option.any_eq_true]
    simp [Option.isSome_iff_exists]

lemma walkChildFields_isSome {fields : List (String × Js)} :
    (walkChildFields packed number dx dy fields).isSome ↔
      ∀ e ∈ fields, (walkChildField packed number dx dy e).isSome := by
  induction fields with
  | nil => simp [walkChildFields]
  | cons e fields ih =>
    rw [walkChildFields, List.forall_mem_cons, ← ih, Option.isSome_bind, Option.any_eq_true]
    simp [Option.isSome_iff_exists]

lemma walkChildField_isSome {e : String × Js} :
    (walkChildField packed number dx dy e).isSome ↔
      (e.1 ∉ keptKeys → (walkChild packed number dx dy e.1 e.2).isSome) := by
  rw [walkChildField]
  split_ifs with hkept
  · exact iff_of_true rfl fun h => absurd hkept h
  · rw [Option.isSome_map]
    exact ⟨fun h _ => h, fun h => h hkept⟩

/-- **When a copy does not fail.** -/
theorem safe_iff (key : String) (t : Js) :
    (walkChild packed number dx dy key t).isSome ↔ Safe number key t := by
  induction t using parts_induction generalizing key with
  | harr items ih =>
    rw [walkChild, Option.isSome_map, walkChildItems_isSome, Safe]
    exact forall₂_congr fun t ht => ih t ht key
  | hobj fields ih =>
    rw [walkChild, Safe]
    split_ifs with hpos
    · rw [Option.isSome_map, shiftVec, Option.isSome_map]
    · rw [Option.isSome_map, walkChildFields_isSome]
      refine forall₂_congr fun e he => ?_
      rw [walkChildField_isSome]
      exact imp_congr_right fun _ => ih e he e.1
  | hleaf t harr hobj =>
    cases t with
    | arr items => exact absurd rfl (harr items)
    | obj fields => exact absurd rfl (hobj fields)
    | undefined => simp [walkChild, Safe]
    | bool b => simp [walkChild, Safe]
    | num v => simp [walkChild, Safe]
    | big v => simp [walkChild, Safe]
    | str s => simp [walkChild, Safe]
    | bytes data => simp [walkChild, Safe]
    | any typeUrl message => simp [walkChild, Safe]

/-! ### Where the walks agree -/

lemma mem_of_look {key : String} {fields : List (String × Js)} (h : key ∈ fields.map Prod.fst) :
    (key, look key fields) ∈ fields := by
  induction fields with
  | nil => exact absurd h List.not_mem_nil
  | cons e fields ih =>
    by_cases hkey : key = e.1
    · subst hkey
      rw [look_cons_self]
      exact List.mem_cons_self
    · rw [look_cons_ne hkey]
      exact List.mem_cons_of_mem _ (ih ((List.mem_cons.mp h).resolve_left hkey))

lemma isBig_of_like {t : Js} {v : ℚ} (h : IsBig (like t v)) : IsBig t := by
  cases t with
  | big z => trivial
  | undefined => exact h
  | bool b => exact h
  | num v => exact h
  | str s => exact h
  | bytes data => exact h
  | any typeUrl message => exact h
  | arr items => exact h
  | obj fields => exact h

lemma isNm_of_walk {fn : Vec2 → Vec2} {key : String} {t : Js} (h : IsBig (walk fn key t)) :
    isNm t = true := by
  cases t with
  | big z => rfl
  | num v => rfl
  | undefined => exact absurd h id
  | bool b => exact absurd h id
  | str s => exact absurd h id
  | bytes data => exact absurd h id
  | any typeUrl message => exact absurd h id
  | arr items =>
    exact absurd h id
  | obj fields =>
    rw [walk] at h
    split_ifs at h
    · exact absurd h id
    · exact absurd h id
    · exact absurd h id

/-- Where a copy shifts an object, a move does the same when the object is a place of a message. -/
lemma agrees_vec {key : String} {fields : List (String × Js)} (hkeyed : (fields.map Prod.fst).Nodup)
    (hpos : isPositional key fields = true) :
    shiftVec number dx dy fields = some (fields.map fun e => (e.1, walked dx dy key fields e)) ↔
      BigVec fields := by
  have hkey := notMem_nonPositional hpos
  constructor
  · intro h
    obtain ⟨hx, y, -, hy⟩ := look_shiftVec h
    have hxNm : isNm (look "xNm" fields) = true := (Bool.and_eq_true _ _ ▸ hpos).2
    have hymem : "yNm" ∈ fields.map Prod.fst := by
      by_contra hmem
      rw [look_of_notMem (by simpa using hmem)] at hy
      exact absurd hy (by simp)
    rw [look_map (fun k t => walked dx dy key fields (k, t)) (mem_keys_of_isNm hxNm)] at hx
    rw [look_map (fun k t => walked dx dy key fields (k, t)) hymem] at hy
    by_cases hvec : isVec fields = true
    · rw [walked, if_pos hvec, if_neg hkey] at hx
      rw [walked, if_pos hvec, if_neg hkey] at hy
      exact ⟨isBig_of_like (isBig_iff.mpr ⟨_, hx⟩), isBig_of_like (isBig_iff.mpr ⟨_, hy⟩)⟩
    · rw [walked, if_neg hvec] at hy
      exact absurd (isVec_iff.mpr ⟨hxNm, isNm_of_walk (isBig_iff.mpr ⟨_, hy⟩)⟩) hvec
  · intro h
    rw [shiftVec_of_bigVec hkeyed h, setVec_shift]
    simp [walked, if_pos h.isVec, if_neg hkey]

/-- A place that a copy does not shift is left by both. -/
lemma agrees_place {key : String} {fields : List (String × Js)} (hkeyed : Keyed (.obj fields))
    (hvec : isVec fields = true) :
    (∀ e ∈ fields, walkChildField packed number dx dy e = some (e.1, walked dx dy key fields e)) ↔
      (key ∈ nonPositional ∨ Still dx dy fields) ∧
        ∀ e ∈ fields, e.1 ∉ keptKeys → Rests dx dy e.1 e.2 := by
  obtain ⟨hnodup, hfields⟩ := keyed_obj.mp hkeyed
  have hleft : ∀ e ∈ fields, walked dx dy key fields e = e.2 →
      (walkChildField packed number dx dy e = some (e.1, walked dx dy key fields e) ↔
        (e.1 ∉ keptKeys → Rests dx dy e.1 e.2)) := by
    intro e he heq
    rw [walkChildField_iff, heq]
    split_ifs with hkept
    · exact iff_of_true rfl fun h => absurd hkept h
    · rw [rests_iff (hfields e he)]
      exact ⟨fun h _ => h, fun h => h hkept⟩
  by_cases hsize : key ∈ nonPositional
  · have heq : ∀ e ∈ fields, walked dx dy key fields e = e.2 := fun e _ => by
      rw [walked, if_pos hvec, if_pos hsize]
    rw [and_iff_right (.inl hsize)]
    exact forall₂_congr fun e he => hleft e he (heq e he)
  · rw [or_iff_right hsize]
    have hmoved : ∀ e, walked dx dy key fields e = moved dx dy fields e := fun e => by
      rw [walked, if_pos hvec, if_neg hsize]
    constructor
    · intro h
      obtain ⟨hx, hy⟩ := isVec_iff.mp hvec
      -- A copy leaves the numbers of the place, so a move does.
      have hnumber : ∀ k, k ∉ keptKeys → isNm (look k fields) = true →
          moved dx dy fields (k, look k fields) = look k fields := by
        intro k hkept hnm
        have hfield := h _ (mem_of_look (mem_keys_of_isNm hnm))
        rw [walkChildField_iff, if_neg hkept, hmoved] at hfield
        have hself : walkChild packed number dx dy k (look k fields) = some (look k fields) := by
          generalize look k fields = t at hnm
          cases t with
          | num v => rfl
          | big v => rfl
          | undefined => exact absurd hnm (by decide)
          | bool b => rfl
          | str s => rfl
          | bytes data => exact absurd hnm Bool.false_ne_true
          | any typeUrl message => exact absurd hnm Bool.false_ne_true
          | arr items => exact absurd hnm Bool.false_ne_true
          | obj fields => exact absurd hnm Bool.false_ne_true
        exact (Option.some.inj (hself.symm.trans hfield)).symm
      have hstill := still_of_moved hvec (hnumber "xNm" (by decide) hx)
        (hnumber "yNm" (by decide) hy)
      refine ⟨hstill, fun e he => (hleft e he ?_).mp (h e he)⟩
      rw [hmoved, moved_eq_self hnodup hvec hstill he]
    · rintro ⟨hstill, hrests⟩ e he
      refine (hleft e he ?_).mpr (hrests e he)
      rw [hmoved, moved_eq_self hnodup hvec hstill he]

/-- **Where the two walks come to the same.** -/
theorem agrees_iff {t : Js} (hkeyed : Keyed t) (key : String) :
    walkChild packed number dx dy key t = some (walk (shift dx dy) key t) ↔
      Agrees dx dy key t := by
  induction t using parts_induction generalizing key with
  | harr items ih =>
    have hitems := keyed_arr.mp hkeyed
    rw [walk_arr, walkChild_arr, walkChildItems_iff, Agrees]
    exact forall₂_congr fun t ht => ih t ht (hitems t ht) key
  | hobj fields ih =>
    obtain ⟨hnodup, hfields⟩ := keyed_obj.mp hkeyed
    rw [walk_fields, Agrees]
    by_cases hpos : isPositional key fields = true
    · rw [if_pos hpos, walkChild_vec hpos, agrees_vec hnodup hpos]
    · rw [if_neg hpos, walkChild_obj (Bool.eq_false_iff.mpr hpos), walkChildFields_iff]
      by_cases hvec : isVec fields = true
      · rw [if_pos hvec, agrees_place hkeyed hvec]
      · rw [if_neg hvec]
        refine forall₂_congr fun e he => ?_
        rw [walkChildField_iff, walked, if_neg hvec]
        have hkeyedField := hfields e he
        by_cases hkept : e.1 ∈ keptKeys
        · have hdef : e.1 ≠ "definition" := fun h => absurd (h ▸ hkept) (by decide)
          rw [if_pos hkept, if_pos hkept, if_neg hdef, ← stays_iff hkeyedField, eq_comm]
        · rw [if_neg hkept, if_neg hkept]
          by_cases hdef : e.1 = "definition"
          · rw [if_pos hdef, if_pos hdef, rests_iff hkeyedField]
          · rw [if_neg hdef, if_neg hdef, ih e he hkeyedField]
  | hleaf t harr hobj =>
    rw [walk_leaf key harr hobj, walkChild_leaf key harr hobj]
    cases t with
    | arr items => exact absurd rfl (harr items)
    | obj fields => exact absurd rfl (hobj fields)
    | undefined => simp [Rests, Agrees]
    | bool b => simp [Rests, Agrees]
    | num v => simp [Rests, Agrees]
    | big v => simp [Rests, Agrees]
    | str s => simp [Rests, Agrees]
    | bytes data => simp [Rests, Agrees]
    | any typeUrl message => simp [Rests, Agrees]

end Judged

end FabPcb.ChildWalk
