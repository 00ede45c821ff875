import FabPcb.ChildWalk
import FabPcb.FreshNames

/-!
When a paste makes faithful copies.

The proto of a copy is that of the translated item when the two walks agree on it. The parent of
a copy is the copy of the parent when the parent has been copied by then: the id map is still
being filled. New ids are taken to be distinct, and distinct from those in use.
-/

namespace FabPcb.PasteCopies

open SpecctraData (Vec2)
open OrderedMap WebGeometry ClonePaste ChildWalk

/-! ### What a copy is to be -/

/-- The fields, but for some. -/
def without (keys : List String) (fields : List (String × Js)) : List (String × Js) :=
  fields.filter (·.1 ∉ keys)

/-- What an item has of its own. -/
def ownKeys : List String := ["id", "parent"]

/-- The id of the copy of an item. -/
def copyId (items : List Item) (clones : List Clone) (id : String) : Option String :=
  ((items.zip clones).find? (·.1.id = id)).map (·.2.id)

/-- The copies of the items are what the translated items are, under ids of their own. -/
structure Faithful (taken : List String) (dx dy : ℤ) (items : List Item) (clones : List Clone) :
    Prop where
  nodup : (clones.map (·.id)).Nodup
  fresh : ∀ clone ∈ clones, clone.id ∉ taken
  copies : List.Forall₂
    (fun item clone => clone.parent = item.parent.bind (copyId items clones) ∧
      without ownKeys clone.proto =
        without ownKeys (entries (translateItem item.stored dx dy).proto)) items clones

/-! ### When it is -/

section Conditions

variable (number : Js → Option ℚ) (dx dy : ℤ)

/-- The items of a definition: the walks agree on each that is not packed. -/
def ItemsAgree : Js → Prop
  | .arr items => ∀ t ∈ items, Agrees dx dy "items" t
  | t => Rests dx dy "items" t

/-- The definition of a footprint: its items are moved, and nothing else is. -/
def DefinitionAgrees : Js → Prop
  | .obj fields => ∀ e ∈ fields, e.1 ∉ keptKeys →
      if e.1 = "items" then ItemsAgree dx dy e.2 else Rests dx dy e.1 e.2
  | t => Rests dx dy "definition" t

/-- An item that both walks move in the same way. -/
structure Copied (item : Item) : Prop where
  own : ∀ e ∈ item.proto, e.1 ∈ ownKeys → Safe number e.1 e.2
  agrees : if item.type = "KOT_PCB_FOOTPRINT" then
      Agrees dx dy "" (.obj (without ("definition" :: ownKeys) item.proto)) ∧
        ∀ e ∈ item.proto, e.1 = "definition" → DefinitionAgrees dx dy e.2
    else Agrees dx dy "" (.obj (without ownKeys item.proto))

end Conditions

/-- No item comes before its parent. -/
def ParentsFirst (items : List Item) : Prop :=
  items.Pairwise fun item later => item.parent ≠ some later.id

/-! ### Fields but for some -/

section Without

variable {keys : List String} {fields : List (String × Js)}

lemma without_map (g : String × Js → Js) :
    without keys (fields.map fun e => (e.1, g e)) =
      (without keys fields).map fun e => (e.1, g e) := by
  rw [without, List.filter_map]
  rfl

lemma without_setKey {key : String} (hkey : key ∈ keys) (value : Js) :
    without keys (setKey key value fields) = without keys fields := by
  rw [setKey]
  split_ifs with hmem
  · rw [without_map fun e => if e.1 = key then value else e.2]
    refine (List.map_congr_left fun e he => ?_).trans (List.map_id _)
    have hne : e.1 ≠ key := by
      rintro rfl
      exact absurd hkey (by simpa using (List.mem_filter.mp he).2)
    rw [if_neg hne, id]
  · simp [without, hkey]

lemma without_setId (id : String) : without ownKeys (setId id fields) = without ownKeys fields := by
  rw [setId]
  split_ifs
  · exact without_setKey (by decide) _
  · exact without_setKey (by decide) _

lemma without_setParent (parent : Option String) :
    without ownKeys (setParent parent fields) = without ownKeys fields := by
  rw [setParent]
  cases parent.filter (· ≠ "") with
  | some parent => exact without_setKey (by decide) _
  | none =>
    simp only [without, List.filter_filter]
    refine List.filter_congr fun e _ => ?_
    by_cases hparent : e.1 = "parent" <;> simp [hparent, ownKeys]

lemma look_without {key : String} (hkey : key ∉ keys) :
    look key (without keys fields) = look key fields := by
  induction fields with
  | nil => rfl
  | cons e fields ih =>
    by_cases heq : key = e.1
    · subst heq
      rw [without, List.filter_cons_of_pos (by simpa using hkey), look_cons_self, look_cons_self]
    · rw [look_cons_ne heq, ← ih]
      by_cases hdrop : e.1 ∈ keys
      · rw [without, List.filter_cons_of_neg (by simpa using hdrop)]
        rfl
      · rw [without, List.filter_cons_of_pos (by simpa using hdrop), look_cons_ne heq]
        rfl

lemma keyed_without (h : Keyed (.obj fields)) : Keyed (.obj (without keys fields)) := by
  obtain ⟨hnodup, hfields⟩ := keyed_obj.mp h
  refine keyed_obj.mpr ⟨(List.filter_sublist.map _).nodup hnodup, fun e he => ?_⟩
  exact hfields e (List.mem_of_mem_filter he)

variable {packed : Js → List UInt8} {number : Js → Option ℚ} {dx dy : ℤ}

lemma walkChildField_fst {e e' : String × Js}
    (h : walkChildField packed number dx dy e = some e') : e'.1 = e.1 := by
  rw [walkChildField] at h
  split_ifs at h
  · exact congrArg Prod.fst (Option.some.inj h).symm
  · obtain ⟨t', -, rfl⟩ := Option.map_eq_some_iff.mp h
    rfl

/-- The walk of a copy goes field by field. -/
lemma walkChildFields_without {fields' : List (String × Js)}
    (h : walkChildFields packed number dx dy fields = some fields') :
    walkChildFields packed number dx dy (without keys fields) = some (without keys fields') := by
  induction fields generalizing fields' with
  | nil =>
    rw [walkChildFields, Option.some.injEq] at h
    rw [← h]
    rfl
  | cons e fields ih =>
    obtain ⟨e', he', hmap⟩ := Option.bind_eq_some_iff.mp h
    obtain ⟨rest, hrest, rfl⟩ := Option.map_eq_some_iff.mp hmap
    have hfst := walkChildField_fst he'
    have htail := ih hrest
    by_cases hdrop : e.1 ∈ keys
    · rw [without, without, List.filter_cons_of_neg (by simpa using hdrop),
        List.filter_cons_of_neg (by simpa [hfst] using hdrop)]
      exact htail
    · rw [without, without, List.filter_cons_of_pos (by simpa using hdrop),
        List.filter_cons_of_pos (by simpa [hfst] using hdrop), walkChildFields, he']
      change Option.map _ (walkChildFields packed number dx dy (without keys fields)) = _
      rw [htail]
      rfl

end Without

/-! ### The proto of a copy -/

section Protos

variable {packed : Js → List UInt8} {number : Js → Option ℚ} {dx dy : ℤ}

lemma walk_key {fn : Vec2 → Vec2} {key key' : String} (h : key ∉ nonPositional)
    (h' : key' ∉ nonPositional) (t : Js) : walk fn key t = walk fn key' t := by
  induction t using parts_induction with
  | harr items ih =>
    rw [walk_arr, walk_arr, List.map_congr_left ih]
  | hobj fields ih =>
    by_cases hvec : isVec fields = true
    · rw [walk_vec hvec h, walk_vec hvec h']
    · rw [walk_obj (Bool.eq_false_iff.mpr hvec), walk_obj (Bool.eq_false_iff.mpr hvec)]
  | hleaf t harr hobj => rw [walk_leaf key harr hobj, walk_leaf key' harr hobj]

lemma editItem_iff {t : Js} (hkeyed : Keyed t) :
    walkChild packed number dx dy "items" t = some (editItem (walk (shift dx dy) "") t) ↔
      Agrees dx dy "items" t := by
  have hagrees := @agrees_iff packed number dx dy t hkeyed "items"
  have hkey : walk (shift dx dy) "items" t = walk (shift dx dy) "" t :=
    walk_key (by decide) (by decide) t
  rw [hkey] at hagrees
  cases t with
  | arr items => exact hagrees
  | obj fields => exact hagrees
  | any typeUrl message => cases message <;> simp [editItem, walkChild, Agrees]
  | undefined => exact hagrees
  | bool b => exact hagrees
  | num v => exact hagrees
  | big v => exact hagrees
  | str s => exact hagrees
  | bytes data => exact hagrees

/-- What a move does to the items of a definition. -/
def editItems (dx dy : ℤ) : Js → Js
  | .arr items => .arr (items.map (editItem (walk (shift dx dy) "")))
  | t => t

lemma editItems_iff {t : Js} (hkeyed : Keyed t) :
    walkChild packed number dx dy "items" t = some (editItems dx dy t) ↔ ItemsAgree dx dy t := by
  have hrests := @rests_iff packed number dx dy t hkeyed "items"
  cases t with
  | arr items =>
    have hitems := keyed_arr.mp hkeyed
    rw [editItems, walkChild_arr, walkChildItems_iff]
    exact forall₂_congr fun t ht => editItem_iff (hitems t ht)
  | obj fields => exact hrests
  | any typeUrl message => exact hrests
  | undefined => exact hrests
  | bool b => exact hrests
  | num v => exact hrests
  | big v => exact hrests
  | str s => exact hrests
  | bytes data => exact hrests

/-- The definition of a footprint, copied as it is moved. -/
lemma definition_iff {t : Js} (hkeyed : Keyed t) :
    walkChild packed number dx dy "definition" t = some (modifyAt (editItems dx dy) ["items"] t) ↔
      DefinitionAgrees dx dy t := by
  have hrests := @rests_iff packed number dx dy t hkeyed "definition"
  cases t with
  | obj fields =>
    have hfields := (keyed_obj.mp hkeyed).2
    rw [modifyAt, walkChild_obj rfl, walkChildFields_iff]
    refine forall₂_congr fun e he => ?_
    rw [walkChildField_iff]
    by_cases hkept : e.1 ∈ keptKeys
    · have hitems : e.1 ≠ "items" := fun h => absurd (h ▸ hkept) (by decide)
      rw [if_pos hkept, if_neg hitems]
      exact iff_of_true rfl fun h => absurd hkept h
    · rw [if_neg hkept, imp_iff_right hkept]
      by_cases hitems : e.1 = "items"
      · rw [hitems]
        exact editItems_iff (hfields e he)
      · rw [if_neg hitems, if_neg hitems]
        exact rests_iff (hfields e he) e.1
  | arr items => exact hrests
  | any typeUrl message => exact hrests
  | undefined => exact hrests
  | bool b => exact hrests
  | num v => exact hrests
  | big v => exact hrests
  | str s => exact hrests
  | bytes data => exact hrests

/-- What the translated item has in a field. -/
def translated (dx dy : ℤ) (item : Item) (e : String × Js) : Js :=
  if item.type = "KOT_PCB_FOOTPRINT" ∧ e.1 = "definition" then
    modifyAt (editItems dx dy) ["items"] e.2
  else walked dx dy "" item.proto e

lemma walked_definition {fields : List (String × Js)} {e : String × Js} (h : e.1 = "definition") :
    walked dx dy "" fields e = e.2 := by
  have hx : e.1 ≠ "xNm" := by rw [h]; decide
  have hy : e.1 ≠ "yNm" := by rw [h]; decide
  rw [walked, moved, if_neg hx, if_neg hy, if_pos h, ite_self, ite_self]

lemma translateItem_proto (item : Item) : (translateItem item.stored dx dy).proto =
    .obj (item.proto.map fun e => (e.1, translated dx dy item e)) := by
  have hproto : (translateItem item.stored dx dy).proto =
      if item.type = "KOT_PCB_FOOTPRINT" then
        mapDefinitionItems (walk (shift dx dy) "") (walk (shift dx dy) "" (.obj item.proto))
      else walk (shift dx dy) "" (.obj item.proto) := rfl
  rw [hproto, walk_fields]
  split_ifs with hfootprint
  · have hedit : mapDefinitionItems (walk (shift dx dy) "") = modifyAt (editItems dx dy)
        ["definition", "items"] := by
      congr 1
    rw [hedit, modifyAt, List.map_map]
    refine congrArg Js.obj (List.map_congr_left fun e _ => ?_)
    by_cases hdef : e.1 = "definition"
    · have htop : translated dx dy item e = modifyAt (editItems dx dy) ["items"] e.2 :=
        if_pos ⟨hfootprint, hdef⟩
      rw [Function.comp_apply, htop, walked_definition hdef, if_pos hdef]
    · have htop : translated dx dy item e = walked dx dy "" item.proto e :=
        if_neg fun h => hdef h.2
      rw [Function.comp_apply, htop, if_neg hdef]
  · refine congrArg Js.obj (List.map_congr_left fun e _ => ?_)
    rw [translated, if_neg fun h => hfootprint h.1]

lemma agrees_without {keys : List String} {fields : List (String × Js)}
    (hkeyed : Keyed (.obj fields)) (hx : "xNm" ∉ keys) (hy : "yNm" ∉ keys) :
    Agrees dx dy "" (.obj (without keys fields)) ↔ ∀ e ∈ without keys fields,
      walkChildField packed number dx dy e = some (e.1, walked dx dy "" fields e) := by
  have hsame : ∀ e, walked dx dy "" (without keys fields) e = walked dx dy "" fields e := fun e => by
    rw [walked, walked, moved, moved, isVec, isVec, look_without hx, look_without hy]
  rw [← @agrees_iff packed number dx dy _ (keyed_without hkeyed), walk_fields,
    walkChild_obj rfl, walkChildFields_iff]
  simp [hsame]

lemma mem_without {keys : List String} {fields : List (String × Js)} {e : String × Js} :
    e ∈ without keys fields ↔ e ∈ fields ∧ e.1 ∉ keys := by
  rw [without, List.mem_filter, decide_eq_true_eq]

/-- The fields that are not the item's own are copied as they are moved. -/
lemma fields_iff (item : Item) :
    (∀ e ∈ without ownKeys item.proto,
        walkChildField packed number dx dy e = some (e.1, translated dx dy item e)) ↔
      if item.type = "KOT_PCB_FOOTPRINT" then
        Agrees dx dy "" (.obj (without ("definition" :: ownKeys) item.proto)) ∧
          ∀ e ∈ item.proto, e.1 = "definition" → DefinitionAgrees dx dy e.2
      else Agrees dx dy "" (.obj (without ownKeys item.proto)) := by
  have hfields := (keyed_obj.mp item.keyed).2
  split_ifs with hfootprint
  · rw [@agrees_without packed number dx dy _ _ item.keyed (by decide) (by decide)]
    have hdefinition : ∀ e ∈ item.proto, e.1 = "definition" →
        (walkChildField packed number dx dy e = some (e.1, translated dx dy item e) ↔
          DefinitionAgrees dx dy e.2) := by
      intro e he hdef
      rw [translated, if_pos ⟨hfootprint, hdef⟩, walkChildField_iff, hdef]
      exact definition_iff (hfields e he)
    have hother : ∀ e : String × Js, e.1 ≠ "definition" →
        translated dx dy item e = walked dx dy "" item.proto e := fun e hdef =>
      if_neg fun h => hdef h.2
    constructor
    · intro h
      refine ⟨fun e he => ?_, fun e he hdef => (hdefinition e he hdef).mp (h e ?_)⟩
      · obtain ⟨hmem, hkeys⟩ := mem_without.mp he
        rw [List.mem_cons, not_or] at hkeys
        rw [← hother e hkeys.1]
        exact h e (mem_without.mpr ⟨hmem, hkeys.2⟩)
      · exact mem_without.mpr ⟨he, by rw [hdef]; decide⟩
    · rintro ⟨hagrees, hdefs⟩ e he
      obtain ⟨hmem, hkeys⟩ := mem_without.mp he
      by_cases hdef : e.1 = "definition"
      · exact (hdefinition e hmem hdef).mpr (hdefs e hmem hdef)
      · rw [hother e hdef]
        refine hagrees e (mem_without.mpr ⟨hmem, ?_⟩)
        rw [List.mem_cons, not_or]
        exact ⟨hdef, hkeys⟩
  · rw [@agrees_without packed number dx dy _ _ item.keyed (by decide) (by decide)]
    refine forall₂_congr fun e _ => ?_
    rw [translated, if_neg fun h => hfootprint h.1]

/-- **The proto of a copy** is that of the translated item, but for its own id and parent, when
the walks agree on the item. -/
theorem copied_iff (item : Item) :
    (∃ fields, walkChildFields packed number dx dy item.proto = some fields ∧
      without ownKeys fields =
        without ownKeys (entries (translateItem item.stored dx dy).proto)) ↔
      Copied number dx dy item := by
  have hkept : ∀ e : String × Js, e.1 ∈ ownKeys → e.1 ∉ keptKeys := fun e he =>
    (by decide : ∀ k ∈ ownKeys, k ∉ keptKeys) e.1 he
  have hsafe : ∀ e : String × Js, e.1 ∈ ownKeys →
      ((walkChildField packed number dx dy e).isSome ↔ Safe number e.1 e.2) := fun e he => by
    rw [walkChildField_isSome, imp_iff_right (hkept e he), safe_iff]
  have hproto := @translateItem_proto dx dy item
  rw [hproto, entries, without_map]
  constructor
  · rintro ⟨fields, hwalk, hsame⟩
    have hall := walkChildFields_isSome.mp (Option.isSome_iff_exists.mpr ⟨fields, hwalk⟩)
    have hrest := @walkChildFields_without ownKeys _ _ _ _ _ _ hwalk
    rw [hsame, walkChildFields_iff] at hrest
    exact ⟨fun e he hown => (hsafe e hown).mp (hall e he), (fields_iff item).mp hrest⟩
  · rintro ⟨hown, hagrees⟩
    have hrest := (@fields_iff packed number dx dy item).mpr hagrees
    have hall : ∀ e ∈ item.proto, (walkChildField packed number dx dy e).isSome := by
      intro e he
      by_cases hkey : e.1 ∈ ownKeys
      · exact (hsafe e hkey).mpr (hown e he hkey)
      · rw [hrest e (mem_without.mpr ⟨he, hkey⟩)]
        rfl
    obtain ⟨fields, hwalk⟩ := Option.isSome_iff_exists.mp (walkChildFields_isSome.mpr hall)
    refine ⟨fields, hwalk, ?_⟩
    have hsame := @walkChildFields_without ownKeys _ _ _ _ _ _ hwalk
    rw [walkChildFields_iff.mpr hrest] at hsame
    exact (Option.some.inj hsame).symm

end Protos

/-! ### Ids -/

section Ids

variable {kiids : ℕ → String}

/-- The ids of the copies of the items done, which come in the order of the items. -/
def mapped (kiids : ℕ → String) (done : List Item) (id : String) : Option String :=
  if id ∈ done.map (·.id) then some (kiids ((done.map (·.id)).idxOf id)) else none

/-- What the id map and the counter are when some items are done. -/
structure Mapped (kiids : ℕ → String) (done : List Item) (ids : Ids) : Prop where
  used : ids.used = done.length
  get : ∀ id, ids.idMap.get? id = mapped kiids done id

lemma mapped_append {done items : List Item} {id : String} (h : id ∈ done.map (·.id)) :
    mapped kiids (done ++ items) id = mapped kiids done id := by
  rw [mapped, mapped, if_pos h, List.map_append, if_pos (List.mem_append_left _ h),
    List.idxOf_append_of_mem h]

lemma mapped_ne_none {done : List Item} {id : String} :
    mapped kiids done id ≠ none ↔ id ∈ done.map (·.id) := by
  rw [mapped]
  split_ifs with h <;> simp [h]

lemma Mapped.get_eq {done : List Item} {ids : Ids} (h : Mapped kiids done ids) {item : Item}
    (hnew : item.id ∉ done.map (·.id)) :
    (ids.get kiids item.id).1 = kiids done.length ∧
      Mapped kiids (done ++ [item]) (ids.get kiids item.id).2 := by
  have hnone : ids.idMap.get? item.id = none := by rw [h.get, mapped, if_neg hnew]
  have hget : ids.get kiids item.id =
      (kiids done.length, ⟨ids.idMap.set item.id (kiids done.length), done.length + 1⟩) := by
    rw [Ids.get, hnone, h.used]
  rw [hget]
  refine ⟨rfl, ⟨by simp, fun id => ?_⟩⟩
  rw [OMap.get?_set]
  split_ifs with hid
  · subst hid
    rw [mapped, List.map_append, List.idxOf_append_of_notMem hnew]
    simp
  · rw [h.get]
    by_cases hmem : id ∈ done.map (·.id)
    · rw [mapped_append hmem]
    · rw [mapped, mapped, if_neg hmem, if_neg (by simpa [hid] using hmem)]

/-- The parent of a copy is the copy of the parent, when no item to come is the parent. -/
lemma parent_iff {done items : List Item} {item : Item}
    (hdistinct : ((done ++ item :: items).map (·.id)).Nodup) :
    (item.parent.filter (· ≠ "")).bind (mapped kiids (done ++ [item])) =
        item.parent.bind (mapped kiids (done ++ item :: items)) ↔
      (∀ later ∈ items, item.parent ≠ some later.id) ∧
        (item.parent = some "" → "" ∉ (done ++ item :: items).map (·.id)) := by
  have hsplit : done ++ item :: items = (done ++ [item]) ++ items := by simp
  cases hparent : item.parent with
  | none => simp
  | some p =>
    have hnone : mapped kiids (done ++ item :: items) p = none ↔
        p ∉ (done ++ item :: items).map (·.id) := by
      rw [← not_iff_not, not_not]
      exact mapped_ne_none
    have hlater : (∀ later ∈ items, some p ≠ some later.id) ↔ p ∉ items.map (·.id) := by
      simp [eq_comm]
    rw [hlater, Option.bind_some]
    by_cases hempty : p = ""
    · subst hempty
      have hnotMem : "" ∉ (done ++ item :: items).map (·.id) → "" ∉ items.map (·.id) := by
        intro h hmem
        exact h (by rw [hsplit, List.map_append]; exact List.mem_append_right _ hmem)
      rw [imp_iff_right rfl, and_iff_right_of_imp hnotMem, ← hnone]
      exact eq_comm
    · have hfilter : (some p).filter (· ≠ "") = some p := by simp [hempty]
      have hcond : some p = some "" → "" ∉ (done ++ item :: items).map (·.id) := fun h =>
        absurd (Option.some.inj h) hempty
      rw [hfilter, Option.bind_some, and_iff_left hcond]
      by_cases hdone : p ∈ (done ++ [item]).map (·.id)
      · rw [hsplit, List.map_append, List.nodup_append'] at hdistinct
        rw [hsplit, mapped_append hdone]
        exact iff_of_true rfl fun hmem => hdistinct.2.2 hdone hmem
      · have hleft : mapped kiids (done ++ [item]) p = none := by rw [mapped, if_neg hdone]
        rw [hleft, eq_comm, hnone, hsplit, List.map_append, List.mem_append, not_or]
        exact and_iff_right hdone

end Ids

/-! ### All items -/

section Run

variable {packed : Js → List UInt8} {number : Js → Option ℚ} {kiids : ℕ → String} {dx dy : ℤ}

/-- What the copy of an item is to be, by the ids of all of them. -/
def Matches (kiids : ℕ → String) (dx dy : ℤ) (all : List Item) (item : Item) (clone : Clone) :
    Prop :=
  clone.parent = item.parent.bind (mapped kiids all) ∧
    without ownKeys clone.proto = without ownKeys (entries (translateItem item.stored dx dy).proto)

lemma translateChild_eq (item : Item) :
    translateChild packed number dx dy (.obj item.proto) =
      (walkChildFields packed number dx dy item.proto).map .obj := by
  have htop : isPositional "" item.proto = false := rfl
  rw [translateChild, walkChild, htop, if_neg Bool.false_ne_true]

/-- One item, when those before it are done. -/
lemma Mapped.clone {done : List Item} {ids : Ids} (h : Mapped kiids done ids) {item : Item}
    (hnew : item.id ∉ done.map (·.id)) {r : Clone × Ids} :
    cloneForPaste packed number kiids dx dy item ids = some r ↔
      Mapped kiids (done ++ [item]) r.2 ∧ r.2 = (ids.get kiids item.id).2 ∧
        ∃ fields, walkChildFields packed number dx dy item.proto = some fields ∧
          r.1 =
            { id := kiids done.length
              parent := (item.parent.filter (· ≠ "")).bind (mapped kiids (done ++ [item]))
              type := item.type
              proto := setParent
                ((item.parent.filter (· ≠ "")).bind (mapped kiids (done ++ [item])))
                (setId (kiids done.length) fields)
              bbox := item.bbox.map fun b => { b with x := b.x + dx, y := b.y + dy } } := by
  obtain ⟨hid, hmapped⟩ := h.get_eq hnew
  have hget : (ids.get kiids item.id).2.idMap.get? = mapped kiids (done ++ [item]) :=
    funext hmapped.get
  rw [cloneForPaste, translateChild_eq, Option.map_map, Option.map_eq_some_iff]
  constructor
  · rintro ⟨fields, hwalk, rfl⟩
    refine ⟨hmapped, rfl, fields, hwalk, ?_⟩
    simp [Function.comp_apply, entries, hid, hget]
  · rintro ⟨-, hids, fields, hwalk, hclone⟩
    refine ⟨fields, hwalk, Prod.ext ?_ hids.symm⟩
    rw [hclone]
    simp [Function.comp_apply, entries, hid, hget]

/-- **The run over the list**: each item, when those before it are done. -/
lemma clones_iff {all : List Item} (hdistinct : (all.map (·.id)).Nodup) (items : List Item) :
    ∀ (done : List Item) (ids : Ids), all = done ++ items → Mapped kiids done ids →
      ((∃ clones, cloneAll packed number kiids dx dy items ids = some clones ∧
          List.Forall₂ (Matches kiids dx dy all) items clones) ↔
        ParentsFirst items ∧ ∀ item ∈ items,
          (item.parent = some "" → "" ∉ all.map (·.id)) ∧ Copied number dx dy item) := by
  induction items with
  | nil =>
    intro done ids _ _
    refine iff_of_true ⟨[], rfl, .nil⟩ ⟨.nil, fun item h => absurd h List.not_mem_nil⟩
  | cons item items ih =>
    intro done ids hall hids
    have hnew : item.id ∉ done.map (·.id) := by
      rw [hall, List.map_append, List.nodup_append'] at hdistinct
      exact fun hmem => hdistinct.2.2 hmem List.mem_cons_self
    have hparent := @parent_iff kiids done items item (hall ▸ hdistinct)
    have hrest : all = (done ++ [item]) ++ items := by rw [hall]; simp
    constructor
    · rintro ⟨clones, hclones, hmatches⟩
      obtain ⟨r, hr, htail⟩ := Option.bind_eq_some_iff.mp hclones
      obtain ⟨rest, hrun, rfl⟩ := Option.map_eq_some_iff.mp htail
      obtain ⟨hmapped, -, fields, hwalk, hclone⟩ := (hids.clone hnew).mp hr
      obtain ⟨hmatch, hmatches⟩ := List.forall₂_cons.mp hmatches
      have hothers : ParentsFirst items ∧ ∀ item ∈ items,
          (item.parent = some "" → "" ∉ all.map (·.id)) ∧ Copied number dx dy item :=
        (ih _ _ hrest hmapped).mp ⟨rest, hrun, hmatches⟩
      have hfirst := hmatch.1
      rw [hclone, hall] at hfirst
      obtain ⟨hlater, hempty⟩ := hparent.mp hfirst
      have hproto := hmatch.2
      rw [hclone] at hproto
      simp only [without_setParent, without_setId] at hproto
      have hcopied := (copied_iff item).mp ⟨fields, hwalk, hproto⟩
      refine ⟨List.pairwise_cons.mpr ⟨hlater, hothers.1⟩, List.forall_mem_cons.mpr ⟨?_, hothers.2⟩⟩
      exact ⟨hall ▸ hempty, hcopied⟩
    · rintro ⟨hfirst, hitems⟩
      obtain ⟨hlater, hfirst⟩ := List.pairwise_cons.mp hfirst
      obtain ⟨⟨hempty, hcopied⟩, hitems⟩ := List.forall_mem_cons.mp hitems
      obtain ⟨fields, hwalk, hproto⟩ := (@copied_iff packed number dx dy item).mpr hcopied
      have hmapped := (hids.get_eq hnew).2
      obtain ⟨clone, hclone⟩ : ∃ clone, cloneForPaste packed number kiids dx dy item ids =
          some (clone, (ids.get kiids item.id).2) :=
        ⟨_, (hids.clone hnew).mpr ⟨hmapped, rfl, fields, hwalk, rfl⟩⟩
      obtain ⟨-, -, fields', hwalk', heq⟩ := (hids.clone hnew).mp hclone
      obtain rfl := Option.some.inj (hwalk.symm.trans hwalk')
      change clone = _ at heq
      obtain ⟨rest, hrun, hmatches⟩ := (ih _ _ hrest hmapped).mpr ⟨hfirst, hitems⟩
      refine ⟨clone :: rest, ?_, .cons ⟨?_, ?_⟩ hmatches⟩
      · rw [cloneAll, hclone, Option.bind_some, hrun, Option.map_some]
      · rw [heq, hall]
        exact hparent.mpr ⟨hlater, hall ▸ hempty⟩
      · rw [heq]
        simp only [without_setParent, without_setId]
        exact hproto

/-- Every item that is pasted has one copy, under the next id. -/
lemma cloneAll_ids (items : List Item) : ∀ (done : List Item) (ids : Ids) (clones : List Clone),
    ((done ++ items).map (·.id)).Nodup → Mapped kiids done ids →
      cloneAll packed number kiids dx dy items ids = some clones →
      clones.map (·.id) = (List.range' done.length items.length).map kiids := by
  induction items with
  | nil =>
    intro done ids clones _ _ h
    rw [cloneAll, Option.some.injEq] at h
    rw [← h]
    rfl
  | cons item items ih =>
    intro done ids clones hdistinct hids h
    have hnew : item.id ∉ done.map (·.id) := by
      rw [List.map_append, List.nodup_append'] at hdistinct
      exact fun hmem => hdistinct.2.2 hmem List.mem_cons_self
    obtain ⟨r, hr, htail⟩ := Option.bind_eq_some_iff.mp h
    obtain ⟨rest, hrun, rfl⟩ := Option.map_eq_some_iff.mp htail
    obtain ⟨hmapped, -, fields, -, hclone⟩ := (hids.clone hnew).mp hr
    have hrest : (((done ++ [item]) ++ items).map (·.id)).Nodup := by simpa using hdistinct
    have hnames := ih _ _ rest hrest hmapped hrun
    rw [List.length_append, List.length_singleton] at hnames
    rw [List.length_cons, List.range'_succ, List.map_cons, List.map_cons, hnames, hclone]

lemma copyId_eq (items : List Item) : ∀ (clones : List Clone) (k : ℕ) (id : String),
    clones.map (·.id) = (List.range' k items.length).map kiids →
      copyId items clones id =
        if id ∈ items.map (·.id) then some (kiids (k + (items.map (·.id)).idxOf id)) else none := by
  induction items with
  | nil => intro clones k id _; rfl
  | cons item items ih =>
    intro clones k id h
    cases clones with
    | nil => exact absurd h (by simp)
    | cons clone clones =>
      rw [List.length_cons, List.range'_succ, List.map_cons, List.map_cons, List.cons.injEq] at h
      rw [copyId, List.zip_cons_cons, List.find?_cons, List.map_cons]
      by_cases hid : item.id = id
      · subst hid
        simp [h.1]
      · have hrest := ih clones (k + 1) id h.2
        rw [copyId] at hrest
        have hne : id ≠ item.id := Ne.symm hid
        simp only [hid, decide_false, hrest, List.mem_cons, hne, false_or]
        rw [List.idxOf_cons_ne _ hid, Nat.add_right_comm, Nat.add_assoc]

lemma mapped_eq_copyId {items : List Item} {clones : List Clone}
    (h : clones.map (·.id) = (List.range' 0 items.length).map kiids) :
    mapped kiids items = copyId items clones := by
  funext id
  rw [mapped, copyId_eq items clones 0 id h, Nat.zero_add]

end Run

/-- **When a paste is faithful.** Distinct items have faithful copies if and only if none comes
before its parent, and the walk of a copy agrees with that of a move on each. -/
theorem paste_faithful_iff (packed : Js → List UInt8) (number : Js → Option ℚ) {kiids : ℕ → String}
    {taken : List String} (hkiids : Function.Injective kiids) (hfresh : ∀ n, kiids n ∉ taken)
    (dx dy : ℤ) {items : List Item} (hdistinct : (items.map (·.id)).Nodup) :
    (∃ clones, paste packed number kiids dx dy items = some clones ∧
        Faithful taken dx dy items clones) ↔
      ParentsFirst items ∧ ∀ item ∈ items,
        (item.parent = some "" → "" ∉ items.map (·.id)) ∧ Copied number dx dy item := by
  have hempty : Mapped kiids [] ⟨OMap.empty, 0⟩ := ⟨rfl, fun _ => rfl⟩
  have hrun := @clones_iff packed number kiids dx dy items hdistinct items [] _ rfl hempty
  rw [← hrun]
  refine exists_congr fun clones => and_congr_right fun hpaste => ?_
  have hids := cloneAll_ids items [] _ clones hdistinct hempty hpaste
  constructor
  · rintro ⟨-, -, hcopies⟩
    rwa [← mapped_eq_copyId hids] at hcopies
  · intro hcopies
    refine ⟨?_, fun clone hclone => ?_, ?_⟩
    · rw [hids]
      exact List.Nodup.map hkiids List.nodup_range'
    · have hmem : clone.id ∈ (List.range' 0 items.length).map kiids :=
        hids ▸ List.mem_map_of_mem hclone
      obtain ⟨n, -, hn⟩ := List.mem_map.mp hmem
      rw [← hn]
      exact hfresh n
    · rw [← mapped_eq_copyId hids]
      exact hcopies

/-- A place of a message. -/
def place (x y : ℤ) : Js := .obj [("xNm", .big x), ("yNm", .big y)]

/-- A group, which has no coordinates. -/
def group : Item where
  id := "group"
  parent := none
  type := "KOT_PCB_GROUP"
  proto := [("id", .obj [("value", .str "group")]), ("name", .str "")]
  bbox := none
  keyed := by simp [Keyed, KeyedFields, KeyedField]

/-- A track of the group. -/
def track : Item where
  id := "track"
  parent := some "group"
  type := "KOT_PCB_TRACE"
  proto := [("id", .obj [("value", .str "track")]), ("start", place 0 0), ("end", place 5 0),
    ("parent", .obj [("value", .str "group")])]
  bbox := none
  keyed := by simp [Keyed, KeyedFields, KeyedField, place]

/-- A Bézier curve, which has two points besides its ends. -/
def bezier : Item where
  id := "bezier"
  parent := none
  type := "KOT_PCB_SHAPE"
  proto := [("id", .obj [("value", .str "bezier")]),
    ("shape", .obj [("geometry", .obj [("case", .str "bezier"),
      ("value", .obj [("start", place 0 0), ("control1", place 1 2), ("control2", place 3 2),
        ("end", place 4 0)])])])]
  bbox := none
  keyed := by simp [Keyed, KeyedFields, KeyedField, place]

def kiid (n : ℕ) : String := "kiid-" ++ toString n

lemma kiid_notMem (n : ℕ) : kiid n ∉ ["group", "track", "bezier"] := by
  have hlist : (kiid n).toList = 'k' :: ("iid-".toList ++ (toString n).toList) := by
    rw [kiid, String.toList_append]
    rfl
  simp only [List.mem_cons, List.not_mem_nil, or_false, ← String.toList_inj, hlist]
  rintro (h | h | h)
  · exact absurd (List.cons.inj h).1 (by decide)
  · exact absurd (List.cons.inj h).1 (by decide)
  · exact absurd (List.cons.inj h).1 (by decide)

lemma agrees_place_at {key : String} (hkey : key ∈ positional) (dx dy x y : ℤ) :
    Agrees dx dy key (place x y) := by
  have hpos : isPositional key [("xNm", .big x), ("yNm", .big y)] = true := by
    rw [isPositional, decide_eq_true hkey]
    rfl
  rw [place, Agrees, if_pos hpos]
  exact ⟨trivial, trivial⟩

lemma agrees_parts {key : String} {fields : List (String × Js)} {dx dy : ℤ}
    (hkey : isPositional key fields = false) (hvec : isVec fields = false)
    (h : ∀ e ∈ fields, e.1 ∉ keptKeys ∧ e.1 ≠ "definition" ∧ Agrees dx dy e.1 e.2) :
    Agrees dx dy key (.obj fields) := by
  rw [Agrees, hkey, hvec]
  intro e he
  rw [if_neg (h e he).1, if_neg (h e he).2.1]
  exact (h e he).2.2

theorem paste_track : ∃ clones, paste (fun _ => []) (fun _ => none) kiid 10 20 [group, track] =
      some clones ∧ Faithful ["group", "track", "bezier"] 10 20 [group, track] clones := by
  refine (paste_faithful_iff _ _ (FreshNames.numbered_injective "kiid-") kiid_notMem 10 20
    (by decide)).mpr ⟨by simp [ParentsFirst, group, track], ?_⟩
  have hkiid : ∀ (key id : String), Safe (fun _ => none) key (.obj [("value", .str id)]) := by
    intro key id
    have hplain : isPositional key [("value", .str id)] = false := Bool.and_false _
    simp [Safe, hplain]
  have hgroup : Agrees 10 20 "" (.obj (without ownKeys group.proto)) :=
    agrees_parts rfl rfl (by simp [without, group, ownKeys, keptKeys, Agrees])
  have htrack : Agrees 10 20 "" (.obj (without ownKeys track.proto)) := by
    refine agrees_parts rfl rfl ?_
    have hparts : without ownKeys track.proto = [("start", place 0 0), ("end", place 5 0)] := rfl
    rw [hparts, List.forall_mem_cons, List.forall_mem_singleton]
    exact ⟨⟨by decide, by decide, agrees_place_at (by decide) _ _ _ _⟩,
      by decide, by decide, agrees_place_at (by decide) _ _ _ _⟩
  rw [List.forall_mem_cons, List.forall_mem_singleton]
  refine ⟨⟨by decide, ?_, hgroup⟩, by decide, ?_, htrack⟩
  · simp [group, ownKeys, hkiid]
  · simp [track, ownKeys, hkiid]

/-- The control points of a curve stay where they were. -/
theorem bezier_bent : ¬ ∃ clones, paste (fun _ => []) (fun _ => none) kiid 10 20 [bezier] =
      some clones ∧ Faithful ["bezier"] 10 20 [bezier] clones := by
  rintro ⟨clones, hpaste, hfaithful⟩
  cases hpaste
  have hproto := (List.forall₂_cons.mp hfaithful.copies).1.2
  let path := ["shape", "geometry", "value", "control1", "xNm"]
  have hpoint := congrArg
    (fun fields => num (path.foldl (fun t key => look key (entries t)) (.obj fields))) hproto
  exact absurd hpoint (by decide +kernel)

end FabPcb.PasteCopies
