import FabPcb.FreshNames
import FabPcb.OrderedMap
import FabPcb.Runs
import Mathlib.Data.List.Forall2
import Mathlib.Data.List.Sigma

/-!
`lib/patch.ts`: patches of plain values at a path, and what the inverse of one restores.

A patch changes one level for each key of its path. What is equal up to the order of keys stays so
under one patch, so a list of patches is undone when each of them is.
-/

namespace FabPcb.StructuralPatch

open OrderedMap Runs

/-- A value without `undefined` in it. A leaf is a number, a boolean or another primitive that has
no properties; strings have their units. -/
inductive Plain (α : Type)
  | null
  | leaf (a : α)
  | str (units : List UInt16)
  | arr (elems : List (Plain α))
  | obj (fields : List (String × Plain α))

/-- An own property of an object, or a slot of an array. -/
inductive Key
  | index (n : ℕ)
  | name (s : String)
  deriving DecidableEq

def Key.text : Key → String
  | .index n => toString n
  | .name s => s

/-- `value` is `none` for `undefined`, which deletes. -/
structure Patch (α : Type) where
  path : List Key
  value : Option (Plain α)

variable {α : Type}

def fieldAt (fields : List (String × Plain α)) (k : String) : Option (Plain α) :=
  (fields.find? (·.1 = k)).map Prod.snd

/-- `cur[key]`, of an object or an array. -/
def Plain.get? : Plain α → Key → Option (Plain α)
  | .arr elems, .index n => elems[n]?
  | .obj fields, k => fieldAt fields k.text
  | _, _ => none

def getPath (obj : Option (Plain α)) (path : List Key) : Option (Plain α) :=
  path.foldl (fun cur key => cur.bind (·.get? key)) obj

/-- What `setPath` copies: an empty container where there is nothing, and what an object literal
takes over of anything else. -/
def baseOf (obj : Option (Plain α)) (head : Key) : Plain α :=
  match obj, head with
  | some (.arr elems), _ => .arr elems
  | some (.obj fields), _ => .obj fields
  | some (.str units), _ => .obj (units.zipIdx.map fun u => (toString u.2, .str [u.1]))
  | some (.leaf _), _ => .obj []
  | _, .index _ => .arr []
  | _, .name _ => .obj []

/-- A property or a slot is set; `n` is no more than the length, and keys of arrays are indices. -/
def Plain.put : Plain α → Key → Plain α → Plain α
  | .arr elems, .index n, v => .arr (elems.take n ++ v :: elems.drop (n + 1))
  | .obj fields, k, v => .obj (OMap.setEntries fields k.text v)
  | o, _, _ => o

/-- `splice` of one slot, or `delete`. -/
def Plain.remove : Plain α → Key → Plain α
  | .arr elems, .index n => .arr (elems.take n ++ elems.drop (n + 1))
  | .obj fields, k => .obj (fields.filter (·.1 ≠ k.text))
  | o, _ => o

/-- `setPath` for a head and the rest of a path. -/
def setIn (value : Option (Plain α)) : List Key → Option (Plain α) → Key → Plain α
  | [], obj, head => value.elim ((baseOf obj head).remove head) ((baseOf obj head).put head)
  | next :: rest, obj, head =>
    (baseOf obj head).put head (setIn value rest ((baseOf obj head).get? head) next)

def setPath (obj : Option (Plain α)) (path : List Key) (value : Option (Plain α)) :
    Option (Plain α) :=
  match path with
  | [] => value
  | head :: rest => some (setIn value rest obj head)

def applyPatch (obj : Option (Plain α)) (patch : Patch α) : Option (Plain α) :=
  setPath obj patch.path patch.value

def applyPatches (obj : Option (Plain α)) (patches : List (Patch α)) : Option (Plain α) :=
  patches.foldl applyPatch obj

def inversePatch (before : Option (Plain α)) (patch : Patch α) : Patch α :=
  ⟨patch.path, getPath before patch.path⟩

/-- The inverses of patches applied in turn, each taken before its patch, the last one first. -/
def inverses (before : Option (Plain α)) : List (Patch α) → List (Patch α)
  | [] => []
  | p :: patches => inverses (applyPatch before p) patches ++ [inversePatch before p]

section Equal

variable [DecidableEq α]

mutual

def Plain.equal : Plain α → Plain α → Bool
  | .null, .null => true
  | .leaf a, .leaf b => a = b
  | .str a, .str b => a = b
  | .arr as, .arr bs => elemsEqual as bs
  | .obj as, .obj bs => as.length = bs.length && fieldsEqual as bs
  | _, _ => false

def elemsEqual : List (Plain α) → List (Plain α) → Bool
  | [], [] => true
  | a :: as, b :: bs => a.equal b && elemsEqual as bs
  | _, _ => false

/-- Each field of the first object is in the second. -/
def fieldsEqual : List (String × Plain α) → List (String × Plain α) → Bool
  | [], _ => true
  | e :: as, bs => fieldEqual e bs && fieldsEqual as bs

def fieldEqual : String × Plain α → List (String × Plain α) → Bool
  | (k, a), bs => (fieldAt bs k).any fun b => a.equal b

end

def deepEqual : Option (Plain α) → Option (Plain α) → Bool
  | none, none => true
  | some a, some b => a.equal b
  | _, _ => false

end Equal

/-! ### The domain and the condition -/

/-- No object repeats a key. -/
inductive Plain.Ok : Plain α → Prop
  | null : Ok .null
  | leaf (a : α) : Ok (.leaf a)
  | str (units : List UInt16) : Ok (.str units)
  | arr {elems : List (Plain α)} (h : ∀ e ∈ elems, Ok e) : Ok (.arr elems)
  | obj {fields : List (String × Plain α)} (hnd : (fields.map Prod.fst).Nodup)
    (h : ∀ e ∈ fields, Ok e.2) : Ok (.obj fields)

/-- A key of an array is an index of at most its length. -/
def Plain.Fits (o : Plain α) (k : Key) : Prop :=
  match o, k with
  | .arr elems, .index n => n ≤ elems.length
  | .arr _, .name _ => False
  | _, _ => True

/-- A path whose array indices are at most the length, also in the containers that it makes. -/
def Fits : Option (Plain α) → List Key → Prop
  | _, [] => True
  | x, k :: path => (baseOf x k).Fits k ∧ Fits ((baseOf x k).get? k) path

def Plain.isContainer : Plain α → Bool
  | .arr _ | .obj _ => true
  | _ => false

/-- The slot is none before the last one. -/
def Plain.Last (o : Plain α) (k : Key) : Prop :=
  match o, k with
  | .arr elems, .index n => elems.length ≤ n + 1
  | _, _ => True

/-- Each container that the path goes through is there, and no slot of an array is deleted that has
others after it. -/
def Undoable (value : Option (Plain α)) : Option (Plain α) → List Key → Prop
  | _, [] => True
  | none, _ :: _ => False
  | some o, k :: path =>
    o.isContainer = true ∧ (path = [] → value = none → o.Last k) ∧ Undoable value (o.get? k) path

/-! ### Equal values -/

variable {a b c : Plain α} {as bs cs : List (Plain α)} {fs gs hs : List (String × Plain α)}
  {k : Key}

lemma fieldAt_eq_some_iff (hnd : (fs.map Prod.fst).Nodup) {s : String} :
    fieldAt fs s = some a ↔ (s, a) ∈ fs :=
  OMap.get?_eq_some_iff (m := ⟨fs, hnd⟩)

lemma mem_of_fieldAt {s : String} (h : fieldAt fs s = some a) : (s, a) ∈ fs := by
  obtain ⟨e, he, rfl⟩ := Option.map_eq_some_iff.mp h
  have hs : e.1 = s := by simpa using List.find?_some he
  exact hs ▸ List.mem_of_find?_eq_some he

section Equal

variable [DecidableEq α]

@[simp] lemma deepEqual_some : deepEqual (some a) (some b) = a.equal b := rfl

lemma deepEqual_some_iff {o : Option (Plain α)} :
    deepEqual (some a) o = true ↔ ∃ b, o = some b ∧ a.equal b = true := by
  cases o <;> simp [deepEqual]

lemma elemsEqual_iff :
    elemsEqual as bs = true ↔ List.Forall₂ (fun a b => a.equal b = true) as bs := by
  induction as generalizing bs with
  | nil => cases bs <;> simp [elemsEqual]
  | cons a as ih => cases bs <;> simp [elemsEqual, ih]

lemma arr_equal_iff : (Plain.arr as).equal (.arr bs) = true ↔
    List.Forall₂ (fun a b => a.equal b = true) as bs := by
  rw [← elemsEqual_iff]
  simp [Plain.equal]

lemma fieldsEqual_iff :
    fieldsEqual fs gs = true ↔ ∀ e ∈ fs, deepEqual (some e.2) (fieldAt gs e.1) = true := by
  induction fs with
  | nil => simp [fieldsEqual]
  | cons e fs ih =>
    have hone : fieldEqual e gs = deepEqual (some e.2) (fieldAt gs e.1) := by
      obtain ⟨s, a⟩ := e
      cases h : fieldAt gs s <;> simp [fieldEqual, deepEqual, h]
    simp [fieldsEqual, ih, hone]

lemma obj_equal_iff : (Plain.obj fs).equal (.obj gs) = true ↔
    fs.length = gs.length ∧ ∀ e ∈ fs, deepEqual (some e.2) (fieldAt gs e.1) = true := by
  simp [Plain.equal, fieldsEqual_iff]

/-- Objects are equal when they have equal fields under each name. -/
lemma obj_equal_iff_fieldAt (hf : (fs.map Prod.fst).Nodup) (hg : (gs.map Prod.fst).Nodup) :
    (Plain.obj fs).equal (.obj gs) = true ↔
      ∀ s, deepEqual (fieldAt fs s) (fieldAt gs s) = true := by
  have hkeys : ∀ {l : List (String × Plain α)} {s}, s ∈ l.map Prod.fst ↔ fieldAt l s ≠ none := by
    simp [fieldAt]
  rw [obj_equal_iff]
  constructor
  · rintro ⟨hlen, h⟩ s
    have hsub : fs.map Prod.fst ⊆ gs.map Prod.fst := by
      intro k hk
      obtain ⟨e, he, rfl⟩ := List.mem_map.mp hk
      obtain ⟨b, hb, -⟩ := deepEqual_some_iff.mp (h e he)
      exact hkeys.mpr (by simp [hb])
    have hperm : (fs.map Prod.fst).Perm (gs.map Prod.fst) :=
      (List.subperm_of_subset hf hsub).perm_of_length_le (by simp [hlen])
    cases hs : fieldAt fs s with
    | some a => exact h (s, a) (mem_of_fieldAt hs)
    | none =>
      have hnone : s ∉ gs.map Prod.fst := fun hmem => hkeys.mp (hperm.mem_iff.mpr hmem) hs
      rw [not_not.mp fun hne => hnone (hkeys.mpr hne)]
      rfl
  · intro h
    have hperm : (fs.map Prod.fst).Perm (gs.map Prod.fst) := by
      refine (List.perm_ext_iff_of_nodup hf hg).mpr fun s => ?_
      have hs := h s
      cases hfs : fieldAt fs s <;> cases hgs : fieldAt gs s <;> simp_all [deepEqual]
    refine ⟨by simpa using hperm.length_eq, fun e he => ?_⟩
    rw [← (fieldAt_eq_some_iff hf).mpr he]
    exact h e.1

lemma equal_refl (h : a.Ok) : a.equal a = true := by
  induction h with
  | null => simp [Plain.equal]
  | leaf a => simp [Plain.equal]
  | str units => simp [Plain.equal]
  | arr _ ih => exact arr_equal_iff.mpr (List.forall₂_same.mpr ih)
  | obj hnd _ ih =>
    refine obj_equal_iff.mpr ⟨rfl, fun e he => ?_⟩
    rw [(fieldAt_eq_some_iff hnd).mpr he]
    exact ih e he

lemma equal_trans (h : a.Ok) (hab : a.equal b = true) (hbc : b.equal c = true) :
    a.equal c = true := by
  induction h generalizing b c with
  | null => cases b <;> simp_all [Plain.equal]
  | leaf a => cases b <;> cases c <;> simp_all [Plain.equal]
  | str units => cases b <;> cases c <;> simp_all [Plain.equal]
  | @arr as _ ih =>
    cases b with
    | arr bs =>
      cases c with
      | arr cs =>
        have h₁ := arr_equal_iff.mp hab
        have h₂ := arr_equal_iff.mp hbc
        refine arr_equal_iff.mpr (List.forall₂_iff_get.mpr ?_)
        rw [List.forall₂_iff_get] at h₁ h₂
        refine ⟨h₁.1.trans h₂.1, fun i hi hi' => ?_⟩
        exact ih _ (List.get_mem ..) (h₁.2 i hi (h₁.1 ▸ hi)) (h₂.2 i (h₁.1 ▸ hi) hi')
      | _ => simp [Plain.equal] at hbc
    | _ => simp [Plain.equal] at hab
  | @obj fs hnd _ ih =>
    cases b with
    | obj gs =>
      cases c with
      | obj hs =>
        obtain ⟨hlen, h₁⟩ := obj_equal_iff.mp hab
        obtain ⟨hlen', h₂⟩ := obj_equal_iff.mp hbc
        refine obj_equal_iff.mpr ⟨hlen.trans hlen', fun e he => ?_⟩
        obtain ⟨b, hb, heb⟩ := deepEqual_some_iff.mp (h₁ e he)
        obtain ⟨c, hc, hbc'⟩ := deepEqual_some_iff.mp (h₂ (e.1, b) (mem_of_fieldAt hb))
        exact deepEqual_some_iff.mpr ⟨c, hc, ih e he heb hbc'⟩
      | _ => simp [Plain.equal] at hbc
    | _ => simp [Plain.equal] at hab

lemma isContainer_eq (h : a.equal b = true) : a.isContainer = b.isContainer := by
  cases a <;> cases b <;> simp_all [Plain.equal, Plain.isContainer]

end Equal

/-! ### One level -/

/-- A container with a key that fits. -/
inductive Level : Plain α → Key → Prop
  | arr (pre : List (Plain α)) : Level (.arr pre) (.index pre.length)
  | slot (pre : List (Plain α)) (e : Plain α) (post : List (Plain α)) :
    Level (.arr (pre ++ e :: post)) (.index pre.length)
  | obj (fields : List (String × Plain α)) (k : Key) : Level (.obj fields) k

lemma level (hc : a.isContainer = true) (hf : a.Fits k) : Level a k := by
  cases a with
  | arr elems =>
    cases k with
    | index n =>
      rcases Nat.lt_or_eq_of_le hf with hlt | rfl
      · obtain ⟨pre, e, post, rfl, rfl⟩ :
            ∃ pre e post, elems = pre ++ e :: post ∧ n = pre.length :=
          ⟨elems.take n, elems.get ⟨n, hlt⟩, elems.drop (n + 1), by simp, by simp; omega⟩
        exact .slot ..
      · exact .arr elems
    | name _ => exact hf.elim
  | obj fields => exact .obj fields k
  | _ => simp [Plain.isContainer] at hc

lemma isContainer_put : (a.put k c).isContainer = a.isContainer := by
  cases a <;> cases k <;> rfl

lemma isContainer_remove : (a.remove k).isContainer = a.isContainer := by
  cases a <;> cases k <;> rfl

lemma isContainer_baseOf (x : Option (Plain α)) (k : Key) : (baseOf x k).isContainer = true := by
  unfold baseOf
  split <;> rfl

lemma baseOf_some (h : a.isContainer = true) : baseOf (some a) k = a := by
  cases a <;> first | rfl | simp [Plain.isContainer] at h

lemma isContainer_setIn (v : Option (Plain α)) (path : List Key) (x : Option (Plain α)) :
    (setIn v path x k).isContainer = true := by
  cases path with
  | nil => cases v <;> simp [setIn, isContainer_put, isContainer_remove, isContainer_baseOf]
  | cons next rest => simp [setIn, isContainer_put, isContainer_baseOf]

lemma fieldAt_setEntries (hnd : (fs.map Prod.fst).Nodup) (s s' : String) (v : Plain α) :
    fieldAt (OMap.setEntries fs s v) s' = if s' = s then some v else fieldAt fs s' :=
  OMap.get?_set ⟨fs, hnd⟩ s s' v

lemma get?_put (ha : a.Ok) (h : Level a k) : (a.put k c).get? k = some c := by
  cases h with
  | obj fields k =>
    cases ha with
    | obj hnd _ => simp [Plain.put, Plain.get?, fieldAt_setEntries hnd]
  | _ => simp [Plain.put, Plain.get?]

lemma notMem_of_none (hnone : (Plain.obj fs).get? k = none) : k.text ∉ fs.map Prod.fst := by
  intro hk
  obtain ⟨e, he, hek⟩ := List.mem_map.mp hk
  simp only [Plain.get?, fieldAt, Option.map_eq_none_iff, List.find?_eq_none] at hnone
  exact hnone e he (by simp [hek])

lemma put_put (h : Level a k) : (a.put k b).put k c = a.put k c := by
  cases h with
  | arr pre => simp [Plain.put]
  | slot pre e post => simp [Plain.put]
  | obj fields k =>
    have hkeys := OMap.setEntries_keys fields k.text b
    have hmem : k.text ∈ (OMap.setEntries fields k.text b).map Prod.fst := by
      rw [hkeys]
      split_ifs with hk <;> simp [hk]
    simp only [Plain.put, Plain.obj.injEq]
    rw [OMap.setEntries, if_pos hmem]
    unfold OMap.setEntries
    split_ifs with hk
    · rw [List.map_map]
      refine List.map_congr_left fun e _ => ?_
      by_cases he : e.1 = k.text <;> simp [he]
    · have hsame : fields.map (fun e => if e.1 = k.text then (k.text, c) else e) = fields :=
        (List.map_congr_left fun e he =>
          if_neg fun h => hk (List.mem_map.mpr ⟨e, he, h⟩)).trans (List.map_id fields)
      simp [hsame]

lemma remove_of_none (h : Level a k) (hnone : a.get? k = none) : a.remove k = a := by
  cases h with
  | arr pre => simp [Plain.remove]
  | slot pre e post => simp [Plain.get?] at hnone
  | obj fields k =>
    have hk := notMem_of_none hnone
    simp only [Plain.remove, Plain.obj.injEq, List.filter_eq_self, decide_eq_true_eq]
    exact fun e he h => hk (List.mem_map.mpr ⟨e, he, h⟩)

lemma remove_put (h : Level a k) (hnone : a.get? k = none) : (a.put k b).remove k = a := by
  cases h with
  | arr pre => simp [Plain.put, Plain.remove]
  | slot pre e post => simp [Plain.get?] at hnone
  | obj fields k =>
    have hrest : (Plain.obj fields).remove k = .obj fields := remove_of_none (.obj fields k) hnone
    simp only [Plain.remove, Plain.obj.injEq] at hrest
    simp only [Plain.put, Plain.remove, OMap.setEntries, if_neg (notMem_of_none hnone),
      List.filter_append, hrest]
    simp

lemma Last.of_none (h : Level a k) (hnone : a.get? k = none) : a.Last k := by
  cases h with
  | arr pre => exact Nat.le_succ _
  | slot pre e post => simp [Plain.get?] at hnone
  | obj fields k => trivial

lemma nodup_setEntries (hnd : (fs.map Prod.fst).Nodup) (s : String) (v : Plain α) :
    ((OMap.setEntries fs s v).map Prod.fst).Nodup :=
  ((⟨fs, hnd⟩ : OMap String (Plain α)).set s v).nodup

lemma Plain.Ok.get? (ha : a.Ok) (hget : a.get? k = some b) : b.Ok := by
  cases ha with
  | arr h =>
    cases k with
    | index n => exact h b (List.mem_of_getElem? hget)
    | name _ => simp [Plain.get?] at hget
  | obj _ h => exact h (k.text, b) (mem_of_fieldAt hget)
  | _ => simp [Plain.get?] at hget

@[simp] lemma undoable_nil (v x : Option (Plain α)) : Undoable v x [] := by
  cases x <;> trivial

variable [DecidableEq α]

/-- Putting a value leaves what is equal just when the value is equal to the old one. -/
lemma put_equal_iff (ha : a.Ok) (h : Level a k) :
    (a.put k c).equal a = true ↔ deepEqual (some c) (a.get? k) = true := by
  cases h with
  | arr pre =>
    have hlen : ¬(Plain.arr (pre ++ [c])).equal (.arr pre) = true := fun heq => by
      simpa using (arr_equal_iff.mp heq).length_eq
    simpa [Plain.put, Plain.get?, deepEqual, List.drop_of_length_le] using hlen
  | slot pre e post =>
    cases ha with
    | arr hok =>
      have hpre : elemsEqual pre pre = true :=
        elemsEqual_iff.mpr (List.forall₂_same.mpr fun d hd => equal_refl (hok d (by simp [hd])))
      have hpost : elemsEqual post post = true :=
        elemsEqual_iff.mpr (List.forall₂_same.mpr fun d hd => equal_refl (hok d (by simp [hd])))
      have key : elemsEqual (pre ++ c :: post) (pre ++ e :: post) = c.equal e := by
        induction pre with
        | nil => simp [elemsEqual, hpost]
        | cons d pre ih => simp_all [elemsEqual]
      simp [Plain.put, Plain.get?, Plain.equal, key]
  | obj fields k =>
    cases ha with
    | obj hnd hok =>
      simp only [Plain.put, Plain.get?,
        obj_equal_iff_fieldAt (nodup_setEntries hnd k.text c) hnd, fieldAt_setEntries hnd]
      constructor
      · intro hall
        simpa using hall k.text
      · intro hone s
        by_cases hs : s = k.text
        · subst hs
          simpa using hone
        · rw [if_neg hs]
          cases hget : fieldAt fields s with
          | none => rfl
          | some d => exact equal_refl (hok (s, d) (mem_of_fieldAt hget))

omit [DecidableEq α] in
lemma nodup_filter (hnd : (fs.map Prod.fst).Nodup) (s : String) :
    ((fs.filter (·.1 ≠ s)).map Prod.fst).Nodup :=
  hnd.sublist (List.filter_sublist.map Prod.fst)

omit [DecidableEq α] in
lemma fieldAt_filter (hnd : (fs.map Prod.fst).Nodup) (s s' : String) :
    fieldAt (fs.filter (·.1 ≠ s)) s' = if s' = s then none else fieldAt fs s' :=
  OMap.get?_delete ⟨fs, hnd⟩ s s'

/-- A slot that is deleted is put back when it was the last one. -/
lemma put_remove_iff (ha : a.Ok) (h : Level a k) (hget : a.get? k = some b) :
    ((a.remove k).put k b).equal a = true ↔ a.Last k := by
  cases h with
  | arr pre => simp [Plain.get?] at hget
  | slot pre e post =>
    obtain rfl : e = b := by simpa [Plain.get?] using hget
    constructor
    · intro heq
      have hlen := (arr_equal_iff.mp heq).length_eq
      simp at hlen
      simp only [Plain.Last, List.length_append, List.length_cons]
      omega
    · intro hlast
      have hpost : post = [] := List.length_eq_zero_iff.mp (by
        simp only [Plain.Last, List.length_append, List.length_cons] at hlast
        omega)
      subst hpost
      simpa [Plain.remove, Plain.put, List.drop_of_length_le] using equal_refl ha
  | obj fields k =>
    refine iff_of_true ?_ trivial
    cases ha with
    | obj hnd hok =>
      have hnd' := nodup_filter hnd k.text
      refine (obj_equal_iff_fieldAt (nodup_setEntries hnd' k.text b) hnd).mpr fun s => ?_
      rw [fieldAt_setEntries hnd', fieldAt_filter hnd]
      by_cases hs : s = k.text
      · subst hs
        rw [if_pos rfl, show fieldAt fields k.text = some b from hget]
        exact equal_refl (hok (k.text, b) (mem_of_fieldAt hget))
      · rw [if_neg hs, if_neg hs]
        cases hfs : fieldAt fields s with
        | none => rfl
        | some d => exact equal_refl (hok (s, d) (mem_of_fieldAt hfs))

lemma undo_last (v : Option (Plain α)) (ha : a.Ok) (hc : a.isContainer = true) (h : Level a k) :
    (setIn (a.get? k) [] (some (setIn v [] (some a) k)) k).equal a = true ↔
      (v = none → a.Last k) := by
  have hput : ∀ d, baseOf (some (a.put k d)) k = a.put k d := fun d =>
    baseOf_some (isContainer_put.trans hc)
  have hremove : baseOf (some (a.remove k)) k = a.remove k :=
    baseOf_some (isContainer_remove.trans hc)
  cases hget : a.get? k with
  | none =>
    have hself := remove_of_none h hget
    cases v with
    | none => simp [setIn, baseOf_some hc, hself, equal_refl ha, Last.of_none h hget]
    | some d => simp [setIn, baseOf_some hc, hput, remove_put h hget, equal_refl ha]
  | some d =>
    cases v with
    | none => simp [setIn, baseOf_some hc, hremove, put_remove_iff ha h hget]
    | some e =>
      simp [setIn, baseOf_some hc, hput, put_put h, put_equal_iff ha h, hget,
        equal_refl (ha.get? hget)]

lemma undo_missing {v x : Option (Plain α)} {path : List Key} (hc : c.isContainer = true)
    (hx : ∀ o, x = some o → o.isContainer = false) :
    deepEqual (some c) x = true ↔ Undoable v x (k :: path) := by
  refine iff_of_false (fun h => ?_) fun h => ?_
  · obtain ⟨o, rfl, ho⟩ := deepEqual_some_iff.mp h
    simp [← isContainer_eq ho, hc] at hx
  · cases x with
    | none => exact h
    | some o => exact absurd h.1 (by simp [hx o rfl])

/-- **Undoing one patch**, along its path. -/
lemma undo_iff (v : Option (Plain α)) (path : List Key) (x : Option (Plain α)) (head : Key)
    (hx : ∀ o, x = some o → o.Ok) (hfit : Fits x (head :: path)) :
    deepEqual (some (setIn (getPath x (head :: path)) path (some (setIn v path x head)) head)) x =
      true ↔ Undoable v x (head :: path) := by
  by_cases hc : ∃ o, x = some o ∧ o.isContainer = true
  case neg => exact undo_missing (isContainer_setIn _ _ _) fun o ho => by simp_all
  obtain ⟨o, rfl, hc⟩ := hc
  have ho : o.Ok := hx o rfl
  obtain ⟨hfit, hrest⟩ := hfit
  rw [baseOf_some hc] at hfit hrest
  have hlevel : Level o head := level hc hfit
  cases path with
  | nil =>
    rw [deepEqual_some, show getPath (some o) [head] = o.get? head from rfl,
      undo_last v ho hc hlevel]
    simp [Undoable, hc]
  | cons next rest =>
    have ih := undo_iff v rest (o.get? head) next (fun d hd => ho.get? hd) hrest
    have hput : baseOf (some (o.put head (setIn v rest (o.get? head) next))) head = _ :=
      baseOf_some (isContainer_put.trans hc)
    have hget : getPath (some o) (head :: next :: rest) = getPath (o.get? head) (next :: rest) :=
      rfl
    rw [deepEqual_some, hget, setIn, setIn, baseOf_some hc, hput, get?_put ho hlevel,
      put_put hlevel, put_equal_iff ho hlevel, ih]
    simp [Undoable, hc]

/-! ### Patches of equal values -/

/-- Two equal values, one level down. -/
inductive Alike : Plain α → Plain α → Prop
  | arr (p q : List (Plain α)) (h : List.Forall₂ (fun a b => a.equal b = true) p q) :
    Alike (.arr p) (.arr q)
  | obj (p q : List (String × Plain α)) (hp : (p.map Prod.fst).Nodup)
    (hq : (q.map Prod.fst).Nodup) (h : ∀ s, deepEqual (fieldAt p s) (fieldAt q s) = true) :
    Alike (.obj p) (.obj q)
  | other (a : Plain α) (h : a.isContainer = false) (ha : a.equal a = true) : Alike a a

lemma alike (ha : a.Ok) (hb : b.Ok) (h : a.equal b = true) : Alike a b := by
  cases hc : a.isContainer with
  | false =>
    have hab : a = b := by
      cases a <;> cases b <;> simp_all [Plain.equal, Plain.isContainer]
    subst hab
    exact .other a hc h
  | true =>
    cases ha with
    | arr _ =>
      cases b with
      | arr _ => exact .arr _ _ (arr_equal_iff.mp h)
      | _ => simp [Plain.equal] at h
    | obj hf _ =>
      cases hb with
      | obj hg _ => exact .obj _ _ hf hg ((obj_equal_iff_fieldAt hf hg).mp h)
      | _ => simp [Plain.equal] at h
    | _ => cases hc

lemma get?_congr (h : Alike a b) (k : Key) : deepEqual (a.get? k) (b.get? k) = true := by
  cases h with
  | arr as bs h =>
    cases k with
    | name _ => rfl
    | index n =>
      obtain ⟨hlen, hall⟩ := List.forall₂_iff_get.mp h
      simp only [Plain.get?]
      by_cases hn : n < as.length
      · rw [List.getElem?_eq_getElem hn, List.getElem?_eq_getElem (hlen ▸ hn)]
        exact hall n hn (hlen ▸ hn)
      · rw [List.getElem?_eq_none (not_lt.mp hn), List.getElem?_eq_none (hlen ▸ not_lt.mp hn)]
        rfl
  | obj _ _ _ _ h => exact h k.text
  | other _ hc _ => cases a <;> first | rfl | simp [Plain.isContainer] at hc

lemma put_congr {d : Plain α} (h : Alike a b) (hcd : c.equal d = true) (k : Key) :
    (a.put k c).equal (b.put k d) = true := by
  cases h with
  | arr _ _ h =>
    cases k with
    | name _ => exact arr_equal_iff.mpr h
    | index n =>
      exact arr_equal_iff.mpr
        (List.rel_append (List.forall₂_take n h) (.cons hcd (List.forall₂_drop (n + 1) h)))
  | obj _ _ hf hg h =>
    refine (obj_equal_iff_fieldAt (nodup_setEntries hf _ _) (nodup_setEntries hg _ _)).mpr
      fun s => ?_
    rw [fieldAt_setEntries hf, fieldAt_setEntries hg]
    split_ifs
    · exact hcd
    · exact h s
  | other _ hc ha => cases a <;> first | exact ha | simp [Plain.isContainer] at hc

lemma remove_congr (h : Alike a b) (k : Key) : (a.remove k).equal (b.remove k) = true := by
  cases h with
  | arr _ _ h =>
    cases k with
    | name _ => exact arr_equal_iff.mpr h
    | index n =>
      exact arr_equal_iff.mpr
        (List.rel_append (List.forall₂_take n h) (List.forall₂_drop (n + 1) h))
  | obj _ _ hf hg h =>
    refine (obj_equal_iff_fieldAt (nodup_filter hf _) (nodup_filter hg _)).mpr fun s => ?_
    rw [fieldAt_filter hf, fieldAt_filter hg]
    split_ifs
    · rfl
    · exact h s
  | other _ hc ha => cases a <;> first | exact ha | simp [Plain.isContainer] at hc

/-! ### Lists of patches -/

def OkOf (x : Option (Plain α)) : Prop := ∀ o, x = some o → o.Ok

omit [DecidableEq α] in
lemma ok_setEntries (hnd : (fs.map Prod.fst).Nodup) (h : ∀ e ∈ fs, e.2.Ok) (s : String)
    (hc : c.Ok) : (Plain.obj (OMap.setEntries fs s c)).Ok := by
  refine .obj (nodup_setEntries hnd s c) fun e he => ?_
  have hget := (fieldAt_eq_some_iff (nodup_setEntries hnd s c)).mpr he
  rw [fieldAt_setEntries hnd] at hget
  split_ifs at hget with hs
  · exact Option.some.inj hget ▸ hc
  · exact h _ (mem_of_fieldAt hget)

omit [DecidableEq α] in
lemma ok_put (ha : a.Ok) (hc : c.Ok) (k : Key) : (a.put k c).Ok := by
  cases ha with
  | arr h =>
    cases k with
    | name _ => exact .arr h
    | index n =>
      refine .arr fun e he => ?_
      rcases List.mem_append.mp he with he | he
      · exact h e (List.mem_of_mem_take he)
      · rcases List.mem_cons.mp he with rfl | he
        · exact hc
        · exact h e (List.mem_of_mem_drop he)
  | obj hnd h => exact ok_setEntries hnd h _ hc
  | _ => constructor

omit [DecidableEq α] in
lemma ok_remove (ha : a.Ok) (k : Key) : (a.remove k).Ok := by
  cases ha with
  | arr h =>
    cases k with
    | name _ => exact .arr h
    | index n =>
      refine .arr fun e he => h e ?_
      rcases List.mem_append.mp he with he | he
      · exact List.mem_of_mem_take he
      · exact List.mem_of_mem_drop he
  | obj hnd h => exact .obj (nodup_filter hnd _) fun e he => h e (List.mem_of_mem_filter he)
  | _ => constructor

omit [DecidableEq α] in
lemma ok_baseOf {x : Option (Plain α)} (hx : OkOf x) (k : Key) : (baseOf x k).Ok := by
  unfold baseOf
  split
  · exact hx _ rfl
  · exact hx _ rfl
  · refine .obj ?_ fun e he => ?_
    · have hnd := fun units : List UInt16 =>
        (List.nodup_zipIdx_map_snd units).map FreshNames.toString_injective
      simp only [List.map_map] at hnd ⊢
      exact hnd _
    · obtain ⟨u, -, rfl⟩ := List.mem_map.mp he
      exact .str _
  · exact .obj (by simp) (by simp)
  · exact .arr (by simp)
  · exact .obj (by simp) (by simp)

omit [DecidableEq α] in
lemma ok_setIn {v x : Option (Plain α)} (hv : OkOf v) (hx : OkOf x) (path : List Key) :
    (setIn v path x k).Ok := by
  induction path generalizing x k with
  | nil =>
    cases v with
    | none => exact ok_remove (ok_baseOf hx k) k
    | some d => exact ok_put (ok_baseOf hx k) (hv d rfl) k
  | cons next rest ih =>
    exact ok_put (ok_baseOf hx k) (ih fun d hd => (ok_baseOf hx k).get? hd) k

omit [DecidableEq α] in
lemma ok_getPath {x : Option (Plain α)} (hx : OkOf x) (path : List Key) :
    OkOf (getPath x path) := by
  induction path generalizing x with
  | nil => exact hx
  | cons k path ih =>
    refine ih fun d hd => ?_
    obtain ⟨o, ho, hget⟩ := Option.bind_eq_some_iff.mp hd
    exact (hx o ho).get? hget

omit [DecidableEq α] in
lemma ok_applyPatch {x : Option (Plain α)} {p : Patch α} (hx : OkOf x) (hp : OkOf p.value) :
    OkOf (applyPatch x p) := by
  obtain ⟨path, v⟩ := p
  cases path with
  | nil => exact hp
  | cons k path => rintro o ⟨⟩; exact ok_setIn hp hx path

lemma deepEqual_refl {x : Option (Plain α)} (hx : OkOf x) : deepEqual x x = true := by
  cases x with
  | none => rfl
  | some o => exact equal_refl (hx o rfl)

lemma deepEqual_trans {x y z : Option (Plain α)} (hx : OkOf x) (hxy : deepEqual x y = true)
    (hyz : deepEqual y z = true) : deepEqual x z = true := by
  cases x with
  | none => cases y <;> simp_all [deepEqual]
  | some a =>
    obtain ⟨b, rfl, hab⟩ := deepEqual_some_iff.mp hxy
    obtain ⟨c, rfl, hbc⟩ := deepEqual_some_iff.mp hyz
    exact equal_trans (hx a rfl) hab hbc

lemma baseOf_congr {x y : Option (Plain α)} (hx : OkOf x) (hy : OkOf y)
    (h : deepEqual x y = true) (k : Key) : Alike (baseOf x k) (baseOf y k) := by
  refine alike (ok_baseOf hx k) (ok_baseOf hy k) ?_
  cases x with
  | none =>
    cases y with
    | none => exact equal_refl (ok_baseOf hx k)
    | some b => cases h
  | some a =>
    obtain ⟨b, rfl, hab⟩ := deepEqual_some_iff.mp h
    cases hal : alike (hx a rfl) (hy b rfl) hab with
    | arr _ _ _ => exact hab
    | obj _ _ _ _ _ => exact hab
    | other _ _ _ => exact equal_refl (ok_baseOf hx k)

lemma setIn_congr {v x y : Option (Plain α)} (hv : OkOf v) (hx : OkOf x) (hy : OkOf y)
    (h : deepEqual x y = true) (path : List Key) (k : Key) :
    (setIn v path x k).equal (setIn v path y k) = true := by
  have hbase := baseOf_congr hx hy h k
  induction path generalizing x y k with
  | nil =>
    cases v with
    | none => exact remove_congr hbase k
    | some d => exact put_congr hbase (equal_refl (hv d rfl)) k
  | cons next rest ih =>
    have hx' : OkOf ((baseOf x k).get? k) := fun d hd => (ok_baseOf hx k).get? hd
    have hy' : OkOf ((baseOf y k).get? k) := fun d hd => (ok_baseOf hy k).get? hd
    have hget := get?_congr hbase k
    exact put_congr hbase (ih hx' hy' hget next (baseOf_congr hx' hy' hget next)) k

lemma undo_patch {x : Option (Plain α)} {p : Patch α} (hx : OkOf x) (hfit : Fits x p.path) :
    deepEqual (applyPatch (applyPatch x p) (inversePatch x p)) x = true ↔
      Undoable p.value x p.path := by
  obtain ⟨path, v⟩ := p
  cases path with
  | nil => simpa [applyPatch, inversePatch, setPath, getPath] using deepEqual_refl hx
  | cons k path => exact undo_iff v path x k hx hfit

/-- What a list of patches that are undone one by one leaves, undone. -/
lemma undo_patches {patches : List (Patch α)} {x : Option (Plain α)} (hx : OkOf x)
    (hok : ∀ p ∈ patches, OkOf p.value)
    (h : Along (fun x p => some (applyPatch x p))
      (fun x p => Fits x p.path ∧ Undoable p.value x p.path) x patches) :
    OkOf (applyPatches (applyPatches x patches) (inverses x patches)) ∧
      deepEqual (applyPatches (applyPatches x patches) (inverses x patches)) x = true := by
  induction patches generalizing x with
  | nil => exact ⟨hx, deepEqual_refl hx⟩
  | cons p patches ih =>
    obtain ⟨⟨hfit, hundo⟩, hrest⟩ := h
    have hx₁ : OkOf (applyPatch x p) := ok_applyPatch hx (hok p List.mem_cons_self)
    obtain ⟨hy, heq⟩ := ih hx₁ (fun q hq => hok q (List.mem_cons_of_mem p hq)) (hrest _ rfl)
    have hinv : OkOf (inversePatch x p).value := ok_getPath hx p.path
    have hback := (undo_patch hx hfit).mpr hundo
    simp only [applyPatches, inverses, List.foldl_cons, List.foldl_append, List.foldl_nil] at *
    refine ⟨ok_applyPatch hy hinv, deepEqual_trans (ok_applyPatch hy hinv) ?_ hback⟩
    obtain ⟨path, v⟩ := p
    cases path with
    | nil => exact deepEqual_refl hx
    | cons k path => exact setIn_congr hinv hy hx₁ heq path k

/-- **The undo law of patches.** The inverse of a patch restores a value just when each container
on its path was there and no slot of an array is deleted that has others after it; patches of
which each is so, applied in turn, are undone by their inverses in the reverse order. -/
theorem inversePatch_exact :
    (∀ (x : Option (Plain α)) (p : Patch α), OkOf x → Fits x p.path →
      (deepEqual (applyPatch (applyPatch x p) (inversePatch x p)) x = true ↔
        Undoable p.value x p.path)) ∧
    ∀ (x : Option (Plain α)) (patches : List (Patch α)), OkOf x →
      (∀ p ∈ patches, OkOf p.value) →
      Along (fun x p => some (applyPatch x p))
        (fun x p => Fits x p.path ∧ Undoable p.value x p.path) x patches →
      deepEqual (applyPatches (applyPatches x patches) (inverses x patches)) x = true :=
  ⟨fun _ _ hx hfit => undo_patch hx hfit, fun _ _ hx hok h => (undo_patches hx hok h).2⟩

/-- `[1]`, of which the slot is set. -/
theorem inversePatch_exact_slot :
    let x : Option (Plain ℕ) := some (.arr [.leaf 1])
    let p : Patch ℕ := ⟨[.index 0], some (.leaf 2)⟩
    deepEqual (applyPatch (applyPatch x p) (inversePatch x p)) x = true ∧
      deepEqual (applyPatches (applyPatches x [p]) (inverses x [p])) x = true := by
  intro x p
  have hx : OkOf x := fun o ho => Option.some.inj ho ▸ .arr (by simpa using .leaf 1)
  have hp : OkOf p.value := fun o ho => Option.some.inj ho ▸ .leaf 2
  have hfit : Fits x p.path := ⟨Nat.zero_le 1, trivial⟩
  have hundo : Undoable p.value x p.path := ⟨rfl, by simp [p], trivial⟩
  exact ⟨(inversePatch_exact.1 x p hx hfit).mpr hundo,
    inversePatch_exact.2 x [p] hx (by simpa using hp) ⟨⟨hfit, hundo⟩, fun _ _ => trivial⟩⟩

/-- `{}` with `a.b` set to one: the inverse leaves `{ a: {} }`. -/
theorem inversePatch_leaves_container :
    ¬∀ (x : Option (Plain ℕ)) (p : Patch ℕ), OkOf x → OkOf p.value → Fits x p.path →
      deepEqual (applyPatch (applyPatch x p) (inversePatch x p)) x = true := by
  intro h
  have hx : OkOf (some (.obj [] : Plain ℕ)) := by
    rintro o ⟨⟩
    exact .obj (by simp) (by simp)
  have hv : OkOf (some (.leaf 1 : Plain ℕ)) := by
    rintro o ⟨⟩
    exact .leaf 1
  have hbad := h (some (.obj [])) ⟨[.name "a", .name "b"], some (.leaf 1)⟩ hx hv
    (by simp [Fits, baseOf, Plain.Fits, Plain.get?, fieldAt])
  revert hbad
  decide +kernel

end FabPcb.StructuralPatch
