import FabPcb.Flush

/-!
The ops of a call and the rows they send.

An op is a group of entries, one for each listed input. Wherever it lands, its entries are
consecutive rows of one request, aimed where the first op of the batch is.
-/

namespace FabPcb.CallRows

open Items ItemStore Document CommitOps Grouping Runs
open Flush

variable {P : Type*}

/-! ### Where items are sent -/

/-- Where a request is aimed; an empty container is none. -/
abbrev Target := Option String × Option SheetPath

def target (s : ItemScope) : Target := (s.container.join.filter (· ≠ ""), s.sheetPath.join)

/-- An item as it is listed, or as a request sends it. Deletions send no message. -/
structure Row (P : Type*) where
  target : Target
  id : String
  any : Option P
  deriving DecidableEq

/-- The `r.2`-th item of the `r.1`-th request. -/
def rowAt (sent : List (List (Op P))) (r : ℕ × ℕ) : Option (Row P) :=
  sent[r.1]?.bind fun b => b.head?.bind fun first =>
    let op := merge first b
    op.ids[r.2]?.map fun id => ⟨target op.scope, id, op.anys[r.2]?⟩

/-! ### Keys and targets -/

lemma scopeKey_eq (s : ItemScope) :
    scopeKey s = (target s).1.getD "" ++ "|" ++ sheetPathKey (target s).2 := by
  unfold scopeKey target
  rcases s.container.join with _ | c
  · rfl
  · by_cases hc : c = "" <;> simp [Option.filter, hc]

lemma kind_of_key {k k' : OpKind} {x y : String} (h : k.name ++ "|" ++ x = k'.name ++ "|" ++ y) :
    k = k' := by
  have hl : (k.name.toList ++ ("|".toList ++ x.toList)).take 1 =
      (k'.name.toList ++ ("|".toList ++ y.toList)).take 1 := by
    have := congrArg (fun s => s.toList.take 1) h
    simpa only [String.toList_append, List.append_assoc] using this
  have hname : ∀ k : OpKind, 1 ≤ k.name.toList.length := by intro k; cases k <;> decide
  rw [List.take_append_of_le_length (hname k), List.take_append_of_le_length (hname k')] at hl
  revert hl
  cases k <;> cases k' <;> decide

lemma target_of_scopeKey {s s' : ItemScope} (hp : s.sheetPath = s'.sheetPath)
    (h : scopeKey s = scopeKey s') : target s = target s' := by
  have hpath : (target s).2 = (target s').2 := by simp [target, hp]
  rw [scopeKey_eq, scopeKey_eq, hpath] at h
  have hc : (target s).1.getD "" = (target s').1.getD "" := by
    have hl := congrArg String.toList h
    simp only [String.toList_append, List.append_cancel_right_eq] at hl
    exact String.toList_injective hl
  have hne : ∀ s : ItemScope, (target s).1 = if (target s).1.getD "" = "" then none
      else some ((target s).1.getD "") := by
    intro s
    unfold target
    rcases s.container.join with _ | c
    · rfl
    · by_cases hc : c = "" <;> simp [Option.filter, hc]
  refine Prod.ext ?_ hpath
  rw [hne s, hne s', hc]

lemma scopeFor_sheetPath (base : ItemScope) (w : Option (Item P)) (scope : Option ItemScope) :
    (scopeFor base w scope).sheetPath = (base.spread (scope.getD {})).sheetPath := by
  unfold scopeFor
  rcases w with _ | w
  · rfl
  · simp only
    split_ifs
    · rcases truthy w.parent with _ | parent <;> rfl
    · rfl

/-! ### The ops of a call -/

/-- An op as `enqueue` builds it. -/
structure Sound (op : Op P) : Prop where
  key : op.key = op.kind.name ++ "|" ++ scopeKey op.scope
  deletes : op.kind = .delete → op.anys = []
  sends : op.kind ≠ .delete → op.anys.length = op.ids.length

/-- The op a group of entries grows to. -/
def gather (g : KeyGroup (Op P)) : Op P := g.rest.foldl Op.push g.first

lemma foldl_push_fields (l : List (Op P)) (op : Op P) :
    (l.foldl Op.push op).kind = op.kind ∧ (l.foldl Op.push op).scope = op.scope ∧
    (l.foldl Op.push op).key = op.key ∧
    (l.foldl Op.push op).ids = op.ids ++ l.flatMap (·.ids) ∧
    (l.foldl Op.push op).anys = op.anys ++ l.flatMap (·.anys) := by
  induction l generalizing op with
  | nil => simp
  | cons e l ih =>
    obtain ⟨h1, h2, h3, h4, h5⟩ := ih (op.push e)
    simp only [List.foldl_cons, h1, h2, h3, h4, h5]
    simp [Op.push]

@[simp] lemma gather_kind (g : KeyGroup (Op P)) : (gather g).kind = g.first.kind :=
  (foldl_push_fields g.rest g.first).1

@[simp] lemma gather_scope (g : KeyGroup (Op P)) : (gather g).scope = g.first.scope :=
  (foldl_push_fields g.rest g.first).2.1

@[simp] lemma gather_key (g : KeyGroup (Op P)) : (gather g).key = g.first.key :=
  (foldl_push_fields g.rest g.first).2.2.1

lemma gather_ids (g : KeyGroup (Op P)) : (gather g).ids = g.toList.flatMap (·.ids) :=
  (foldl_push_fields g.rest g.first).2.2.2.1

lemma gather_anys (g : KeyGroup (Op P)) : (gather g).anys = g.toList.flatMap (·.anys) :=
  (foldl_push_fields g.rest g.first).2.2.2.2

lemma gather_push (g : KeyGroup (Op P)) (e : Op P) : gather (g.push e) = (gather g).push e := by
  simp [gather, KeyGroup.push, List.foldl_append]

lemma pushInto_gather (gs : List (KeyGroup (Op P))) (e : Op P) :
    pushInto (gs.map gather) e = (insertGroup Op.key gs e).map gather := by
  have hkeys : (gs.map gather).map (·.key) = gs.map (Op.key ·.first) := by
    simp [Function.comp_def]
  unfold pushInto insertGroup
  rw [hkeys]
  split_ifs with h
  · simp only [List.map_map]
    refine List.map_congr_left fun g _ => ?_
    by_cases hk : g.first.key = e.key <;> simp [hk, gather_push]
  · simp [gather]

lemma foldl_pushInto (l : List (Op P)) : l.foldl pushInto [] = (groupsOf Op.key l).map gather := by
  induction l using List.reverseRecOn with
  | nil => rfl
  | append_singleton l e ih =>
    rw [List.foldl_append, ih, groupsOf_snoc]
    exact pushInto_gather _ e

/-- A call's entries: one id each, of the kind of the call, all on one sheet. -/
structure Entry (k : OpKind) (p : Option (Option SheetPath)) (e : Op P) : Prop where
  kind : e.kind = k
  sheet : e.scope.sheetPath = p
  key : e.key = k.name ++ "|" ++ scopeKey e.scope
  one : e.ids = [e.ids.headD ""]
  deletes : k = .delete → e.anys = []
  sends : k ≠ .delete → ∃ any, e.anys = [any]

lemma entry_entries {kind : OpKind} {base : ItemScope} {ws : List (Item P)}
    {scope : Option ItemScope} {ids : Option (List String)} (hids : kind ≠ .delete → ids = none)
    {e : Op P} (he : e ∈ entries kind base ws scope ids) :
    Entry kind (base.spread (scope.getD {})).sheetPath e := by
  obtain ⟨⟨w, i⟩, hmem, rfl⟩ := List.mem_map.mp he
  have hw : w ∈ walked ws ids := by
    obtain ⟨-, hlt, hget⟩ := List.mem_zipIdx hmem
    rw [hget]
    exact List.getElem_mem _
  refine ⟨rfl, scopeFor_sheetPath base w scope, rfl, rfl, fun hk => by simp [entry, hk], ?_⟩
  intro hk
  rw [hids hk] at hw
  have hsome : ∃ w', w = some w' := by
    unfold walked at hw
    split_ifs at hw
    · simp at hw
    · obtain ⟨w', -, rfl⟩ := List.mem_map.mp hw
      exact ⟨w', rfl⟩
  obtain ⟨w', rfl⟩ := hsome
  exact ⟨w'.proto, by simp [entry, hk]⟩

lemma flatMap_single {α β : Type*} {l : List α} {f : α → List β} {h : α → β}
    (hf : ∀ a ∈ l, f a = [h a]) : l.flatMap f = l.map h := by
  induction l with
  | nil => rfl
  | cons a l ih =>
    rw [List.flatMap_cons, hf a (by simp), ih fun b hb => hf b (by simp [hb])]
    rfl

section Gathered

variable {kind : OpKind} {sheet : Option (Option SheetPath)} {g : KeyGroup (Op P)}

lemma first_mem (g : KeyGroup (Op P)) : g.first ∈ g.toList := by simp [KeyGroup.toList]

lemma ids_gather (hg : ∀ e ∈ g.toList, Entry kind sheet e) :
    (gather g).ids = g.toList.map fun e => e.ids.headD "" := by
  rw [gather_ids]
  exact flatMap_single fun e he => (hg e he).one

lemma anys_gather_delete (hk : kind = .delete) (hg : ∀ e ∈ g.toList, Entry kind sheet e) :
    (gather g).anys = [] := by
  rw [gather_anys, List.flatMap_eq_nil_iff]
  exact fun e he => (hg e he).deletes hk

lemma anys_gather_get (hg : ∀ e ∈ g.toList, Entry kind sheet e) (i : ℕ) :
    (gather g).anys[i]? = g.toList[i]?.bind fun e => e.anys.head? := by
  by_cases hk : kind = .delete
  · rw [anys_gather_delete hk hg]
    rcases hi : g.toList[i]? with _ | e
    · rfl
    · simp [(hg e (List.mem_of_getElem? hi)).deletes hk]
  · have hone : ∀ e ∈ g.toList, e.anys.map some = [e.anys.head?] := by
      intro e he
      obtain ⟨p, hp⟩ := (hg e he).sends hk
      simp [hp]
    have hmap : (gather g).anys.map some = g.toList.map fun e => e.anys.head? := by
      rw [gather_anys, List.map_flatMap]
      exact flatMap_single hone
    have hget := congrArg (fun l => l[i]?) hmap
    simp only [List.getElem?_map] at hget
    rcases hl : g.toList[i]? with _ | e
    · rw [hl] at hget
      simpa using hget
    · rw [hl] at hget
      rcases ha : (gather g).anys[i]? with _ | any
      · rw [ha] at hget
        cases hget
      · rw [ha] at hget
        simpa using hget

lemma sound_gather (hg : ∀ e ∈ g.toList, Entry kind sheet e) : Sound (gather g) := by
  have hfirst := hg g.first (first_mem g)
  refine ⟨by rw [gather_key, gather_kind, gather_scope, hfirst.key, hfirst.kind], ?_, ?_⟩
  · intro hk
    rw [gather_kind, hfirst.kind] at hk
    exact anys_gather_delete hk hg
  · intro hk
    rw [gather_kind, hfirst.kind] at hk
    rw [ids_gather hg, gather_anys, List.length_flatMap]
    have hone : ∀ e ∈ g.toList, e.anys.length = 1 := by
      intro e he
      obtain ⟨p, hp⟩ := (hg e he).sends hk
      simp [hp]
    rw [List.map_congr_left hone]
    simp

end Gathered

/-! ### Rows of an op -/

/-- The rows of an op sent to a target. -/
def opRows (t : Target) (op : Op P) : List (Row P) :=
  op.ids.zipIdx.map fun e => ⟨t, e.1, op.anys[e.2]?⟩

/-- The row an entry makes. -/
def entryRow (t : Target) (e : Op P) : Row P := ⟨t, e.ids.headD "", e.anys.head?⟩

@[simp] lemma length_opRows (t : Target) (op : Op P) : (opRows t op).length = op.ids.length := by
  simp [opRows]

lemma opRows_get (t : Target) (op : Op P) (i : ℕ) :
    (opRows t op)[i]? = op.ids[i]?.map fun id => ⟨t, id, op.anys[i]?⟩ := by
  simp [opRows, List.getElem?_map, List.getElem?_zipIdx, Option.map_map, Function.comp_def]

lemma opRows_gather {kind : OpKind} {sheet : Option (Option SheetPath)} {g : KeyGroup (Op P)}
    (hg : ∀ e ∈ g.toList, Entry kind sheet e) (t : Target) :
    opRows t (gather g) = g.toList.map (entryRow t) := by
  refine List.ext_getElem? fun i => ?_
  rw [opRows_get, ids_gather hg, anys_gather_get hg, List.getElem?_map, List.getElem?_map]
  rcases g.toList[i]? with _ | e
  · rfl
  · rfl

/-- Ops that can stand in one batch. -/
def SoundBatch (b : List (Op P)) : Prop := ∀ x ∈ b, Sound x ∧ ∀ y ∈ b, x.key = y.key

/-- The rows of an op in its batch follow those of the ops ahead of it, and are aimed where
the first op of the batch is. -/
lemma rowAt_located {sent : List (List (Op P))} {j : ℕ} {b₁ b₂ : List (Op P)} {op : Op P}
    (hj : sent[j]? = some (b₁ ++ op :: b₂)) (hb : SoundBatch (b₁ ++ op :: b₂)) {o : ℕ}
    (ho : o < op.ids.length) :
    rowAt sent (j, rows b₁ + o) = (opRows (target (b₁.headD op).scope) op)[o]? := by
  have hop : Sound op := (hb op (by simp)).1
  have hkind : ∀ x ∈ b₁ ++ op :: b₂, Sound x ∧ x.kind = op.kind := by
    intro x hx
    obtain ⟨hs, hkey⟩ := hb x hx
    have := hkey op (by simp)
    rw [hs.key, hop.key] at this
    exact ⟨hs, kind_of_key this⟩
  have hhead : (b₁ ++ op :: b₂).head? = some (b₁.headD op) := by cases b₁ <;> rfl
  have hids : ((b₁ ++ op :: b₂).flatMap (·.ids))[rows b₁ + o]? = op.ids[o]? := by
    rw [rows, List.flatMap_append, List.flatMap_cons,
      List.getElem?_append_right (Nat.le_add_right _ _), Nat.add_sub_cancel_left,
      List.getElem?_append_left ho]
  have hanys : ((b₁ ++ op :: b₂).flatMap (·.anys))[rows b₁ + o]? = op.anys[o]? := by
    by_cases hk : op.kind = .delete
    · have hnil : (b₁ ++ op :: b₂).flatMap (·.anys) = [] := by
        rw [List.flatMap_eq_nil_iff]
        exact fun x hx => (hkind x hx).1.deletes ((hkind x hx).2.trans hk)
      rw [hnil, hop.deletes hk]
      rfl
    · have hlen : (b₁.flatMap (·.anys)).length = rows b₁ := by
        rw [rows, List.length_flatMap, List.length_flatMap]
        congr 1
        refine List.map_congr_left fun x hx => ?_
        have hx' := hkind x (by simp [hx])
        exact hx'.1.sends (fun hd => hk (hx'.2.symm.trans hd))
      have hoa : o < op.anys.length := by rw [hop.sends hk]; exact ho
      rw [List.flatMap_append, List.flatMap_cons,
        List.getElem?_append_right (hlen ▸ Nat.le_add_right _ _), hlen, Nat.add_sub_cancel_left,
        List.getElem?_append_left hoa]
  rw [opRows_get]
  simp only [rowAt, hj, Option.bind_some, hhead, merge, hids, hanys]

end FabPcb.CallRows
