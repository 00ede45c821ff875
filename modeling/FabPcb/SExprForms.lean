import FabPcb.SExprText

/-!
Edits of forms in place.

A form is found by its head. What is edited is the first form of a name, or each; the forms of
other names, and everything else, are left as they are.
-/

namespace FabPcb.SExprForms

open SExprText

/-- The first form of a name is edited. -/
def editFirst (name : String) (f : List SExpr → List SExpr) : List SExpr → List SExpr
  | [] => []
  | x :: xs =>
    match x.form? name with
    | some items => .list (f items) :: xs
    | none => x :: editFirst name f xs

lemma editFirst_cons (name : String) (f : List SExpr → List SExpr) (x : SExpr) (xs : List SExpr) :
    editFirst name f (x :: xs) = match x.form? name with
      | some items => .list (f items) :: xs
      | none => x :: editFirst name f xs := rfl

/-- Each form of a name is edited. -/
def editAll (name : String) (f : List SExpr → List SExpr) (list : List SExpr) : List SExpr :=
  list.map fun x => ((x.form? name).map fun items => .list (f items)).getD x

/-- An edit that leaves the head of a form. -/
def KeepsHead (f : List SExpr → List SExpr) : Prop :=
  ∀ s xs, ∃ ys, f (.atom s :: xs) = .atom s :: ys

variable {name other : String} {f : List SExpr → List SExpr} {x : SExpr}
  {list items more : List SExpr}

lemma keepsHead_append (more : List SExpr) : KeepsHead (· ++ more) :=
  fun _ xs => ⟨xs ++ more, rfl⟩

lemma keepsHead_editFirst (name : String) (f : List SExpr → List SExpr) :
    KeepsHead (editFirst name f) := fun _ xs => ⟨editFirst name f xs, rfl⟩

lemma form?_eq_some_iff :
    x.form? name = some items ↔ ∃ xs, items = .atom name :: xs ∧ x = .list items := by
  cases x with
  | atom s => exact iff_of_false (by simp [SExpr.form?, SExpr.headed]) (by simp)
  | list ys =>
    cases ys with
    | nil => exact iff_of_false (by simp [SExpr.form?, SExpr.headed]) (by grind)
    | cons y ys =>
      cases y with
      | list zs => exact iff_of_false (by simp [SExpr.form?, SExpr.headed]) (by grind)
      | atom s =>
        by_cases h : s = name
        · simp [SExpr.form?, SExpr.headed, SExpr.items?, h]
          grind
        · simp [SExpr.form?, SExpr.headed, h]
          grind

lemma form?_list_cons {xs : List SExpr} :
    (SExpr.list (.atom name :: xs)).form? name = some (.atom name :: xs) :=
  form?_eq_some_iff.mpr ⟨xs, rfl, rfl⟩

lemma form?_edited (hf : KeepsHead f) (h : x.form? name = some items) :
    (SExpr.list (f items)).form? name = some (f items) := by
  obtain ⟨xs, rfl, rfl⟩ := form?_eq_some_iff.mp h
  obtain ⟨ys, hys⟩ := hf name xs
  rw [hys]
  exact form?_list_cons

lemma form?_ne (hne : name ≠ other) (h : x.form? name = some items) : x.form? other = none := by
  obtain ⟨xs, rfl, rfl⟩ := form?_eq_some_iff.mp h
  rw [Option.eq_none_iff_forall_not_mem]
  intro ys hys
  obtain ⟨ws, rfl, hlist⟩ := form?_eq_some_iff.mp hys
  cases hlist
  exact hne rfl

/-! ### The first form -/

lemma child_editFirst (hf : KeepsHead f) :
    child (editFirst name f list) name = (child list name).map f := by
  rw [child, child]
  induction list with
  | nil => rfl
  | cons x xs ih =>
    rw [editFirst_cons]
    cases h : x.form? name with
    | some items =>
      rw [List.findSome?_cons, List.findSome?_cons, form?_edited hf h, h]
      rfl
    | none =>
      rw [List.findSome?_cons, List.findSome?_cons, h]
      exact ih

lemma child_editFirst_ne (hf : KeepsHead f) (hne : name ≠ other) :
    child (editFirst name f list) other = child list other := by
  rw [child, child]
  induction list with
  | nil => rfl
  | cons x xs ih =>
    rw [editFirst_cons]
    cases h : x.form? name with
    | some items =>
      rw [List.findSome?_cons, List.findSome?_cons, form?_ne hne (form?_edited hf h),
        form?_ne hne h]
    | none =>
      rw [List.findSome?_cons, List.findSome?_cons, ih]

/-! ### All forms -/

lemma children_editAll (hf : KeepsHead f) :
    children (editAll name f list) name = (children list name).map f := by
  rw [children, children, editAll, List.filterMap_map, List.map_filterMap]
  refine List.filterMap_congr fun x _ => ?_
  rw [Function.comp_apply]
  cases h : x.form? name with
  | some items => exact form?_edited hf h
  | none => exact h

lemma children_editAll_ne (hf : KeepsHead f) (hne : name ≠ other) :
    children (editAll name f list) other = children list other := by
  rw [children, editAll, List.filterMap_map]
  refine List.filterMap_congr fun x _ => ?_
  rw [Function.comp_apply]
  cases h : x.form? name with
  | some items =>
    rw [form?_ne hne h]
    exact form?_ne hne (form?_edited hf h)
  | none => rfl

/-! ### More forms at the end -/

lemma children_append : children (list ++ more) name = children list name ++ children more name :=
  List.filterMap_append

end FabPcb.SExprForms
