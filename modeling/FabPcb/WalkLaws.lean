import FabPcb.ChildWalk
import FabPcb.FootprintMovers

/-!
A walk over a value and a change along a path that goes by no coordinate come to the same in any
order.
-/

namespace FabPcb.WalkLaws

open FootprintItems WebGeometry ClonePaste ChildWalk
open SpecctraData (Vec2)

variable {key : String} {f : Vec2 → Vec2} {fields : List (String × Js)}

/-- The fields of an object that is no place, walked. -/
def walkField' (f : Vec2 → Vec2) (k : String) (t : Js) : Js :=
  if k = "definition" then t else walk f k t

lemma walk_obj' (h : isVec fields = false) :
    walk f key (.obj fields) = .obj (fields.map fun e => (e.1, walkField' f e.1 e.2)) := walk_obj h

/-! ### Walks and paths -/

section Paths

variable {path : List String} {e : Js → Js}

/-- The path goes by no coordinate. -/
def Clear (path : List String) : Prop := ∀ k ∈ path, k ≠ "xNm" ∧ k ≠ "yNm"

instance (path : List String) : Decidable (Clear path) :=
  inferInstanceAs (Decidable (∀ k ∈ path, k ≠ "xNm" ∧ k ≠ "yNm"))

/-- The change of one field of an object. -/
def changed (e : Js → Js) (k : String) (path : List String) (l : String) (t : Js) : Js :=
  if l = k then modifyAt e path t else t

lemma modifyAt_changed (e : Js → Js) (k : String) (path : List String)
    (fields : List (String × Js)) : modifyAt e (k :: path) (.obj fields) =
      .obj (fields.map fun x => (x.1, changed e k path x.1 x.2)) := rfl

lemma look_changed {k l : String} (h : l ≠ k) (fields : List (String × Js)) :
    look l (fields.map fun x => (x.1, changed e k path x.1 x.2)) = look l fields := by
  by_cases hl : l ∈ fields.map Prod.fst
  · rw [look_map (changed e k path) hl, changed, if_neg h]
  · rw [look_of_notMem hl, look_of_notMem]
    simpa using hl

lemma isVec_changed {k : String} (h : k ≠ "xNm" ∧ k ≠ "yNm") (fields : List (String × Js)) :
    isVec (fields.map fun x => (x.1, changed e k path x.1 x.2)) = isVec fields := by
  rw [isVec, isVec, look_changed h.1.symm, look_changed h.2.symm]

lemma setVec_changed {k : String} (h : k ≠ "xNm" ∧ k ≠ "yNm") (fields : List (String × Js)) :
    setVec f (fields.map fun x => (x.1, changed e k path x.1 x.2)) =
      (setVec f fields).map fun x => (x.1, changed e k path x.1 x.2) := by
  rw [setVec, setVec, look_changed h.1.symm, look_changed h.2.symm, List.map_map, List.map_map]
  refine List.map_congr_left fun x _ => ?_
  simp only [Function.comp_apply, changed]
  by_cases hk : x.1 = k
  · simp [hk, h.1, h.2]
  · rw [if_neg hk, if_neg hk]

/-- A change of a field that is no coordinate, and a walk, come to the same in any order when
they do in the field. -/
lemma modifyAt_walk_field {k : String} (hk : k ≠ "xNm" ∧ k ≠ "yNm") (f : Vec2 → Vec2)
    (h : ∀ t, modifyAt e path (walkField' f k t) = walkField' f k (modifyAt e path t))
    (key : String) (t : Js) :
    modifyAt e (k :: path) (walk f key t) = walk f key (modifyAt e (k :: path) t) := by
  cases t with
  | obj fields =>
    rw [modifyAt_changed]
    by_cases hvec : isVec fields = true
    · have hvec' : isVec (fields.map fun x => (x.1, changed e k path x.1 x.2)) = true :=
        (isVec_changed hk fields).trans hvec
      by_cases hkey : key ∈ nonPositional
      · rw [walk_size hvec hkey, walk_size hvec' hkey, modifyAt_changed]
      · rw [walk_vec hvec hkey, walk_vec hvec' hkey, setVec_changed hk, modifyAt_changed]
    · rw [Bool.not_eq_true] at hvec
      rw [walk_obj' hvec, walk_obj' ((isVec_changed hk fields).trans hvec), modifyAt_changed,
        List.map_map, List.map_map]
      congr 1
      refine List.map_congr_left fun x _ => ?_
      simp only [Function.comp_apply, changed]
      by_cases hx : x.1 = k
      · rw [if_pos hx, if_pos hx, hx, h]
      · rw [if_neg hx, if_neg hx]
  | arr items => rw [modifyAt, modifyAt] <;> simp
  | _ => rfl

end Paths

end FabPcb.WalkLaws
