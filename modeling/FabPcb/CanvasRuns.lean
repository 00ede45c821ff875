import FabPcb.CanvasHost
import FabPcb.StoreIndex

/-!
A host that follows the diffs of a store, and a host that is mounted on the store as it is.

They draw the same if a diff that makes another parent of a child lists the child, and if no two
items of the store are drawn by render items of one id. The links of a board are then those of the
store, and what a diff does not list is drawn as before.
-/

namespace FabPcb.CanvasRuns

open OrderedMap Writes ItemStore StoreContent StoreIndex
open RenderScene SceneItems CanvasHost
open MemoryItemStore

variable {δ P : Type} {opts : SceneOptions δ}

/-! ### What a store is drawn as -/

/-- The render items of each item of a store. -/
def wanted (convert : StoredItem P → List RenderItem) (m : Content P) (owner : String) :
    List RenderItem :=
  ((m owner).map convert).getD []

/-- No render item of the first items has the id of one of another item of the others. -/
def Apart (convert : StoredItem P → List RenderItem) (its all : List (StoredItem P)) : Prop :=
  ∀ it ∈ its, ∀ jt ∈ all, it.id ≠ jt.id → ∀ i ∈ convert it, ∀ j ∈ convert jt, i.id ≠ j.id

instance (convert : StoredItem P → List RenderItem) (its all : List (StoredItem P)) :
    Decidable (Apart convert its all) :=
  inferInstanceAs (Decidable (∀ it ∈ its, ∀ jt ∈ all, it.id ≠ jt.id →
    ∀ i ∈ convert it, ∀ j ∈ convert jt, i.id ≠ j.id))

lemma lastWrite_map {κ ν μ : Type} [DecidableEq κ] (f : ν → μ) (ws : List (κ × ν)) (k : κ) :
    lastWrite (ws.map fun e => (e.1, f e.2)) k = (lastWrite ws k).map f := by
  induction ws with
  | nil => rfl
  | cons w ws ih =>
    rw [List.map_cons, lastWrite_cons, lastWrite_cons, ih]
    cases lastWrite ws k with
    | some v => rfl
    | none => by_cases h : w.1 = k <;> simp [h]

/-- What is listed under an id, the last. -/
def listed (its : List (StoredItem P)) (id : String) : Option (StoredItem P) :=
  lastWrite (its.map fun it => (it.id, it)) id

lemma listed_cons (it : StoredItem P) (its : List (StoredItem P)) (id : String) :
    listed (it :: its) id = (listed its id).or (if it.id = id then some it else none) :=
  lastWrite_cons ..

lemma listed_mem {its : List (StoredItem P)} {id : String} {it : StoredItem P}
    (h : listed its id = some it) : it ∈ its ∧ it.id = id := by
  obtain ⟨j, hj, he⟩ := List.mem_map.mp (mem_of_lastWrite h)
  obtain ⟨hid, rfl⟩ := Prod.mk.inj he
  exact ⟨hj, hid⟩

lemma listed_eq_none_iff {its : List (StoredItem P)} {id : String} :
    listed its id = none ↔ id ∉ its.map (·.id) := by
  rw [listed, lastWrite_eq_none_iff, List.map_map]
  rfl

/-- **What a diff makes of a store**: what it lists, and what it does not remove. -/
lemma content_of_diff {s : MemoryItemStore P} {p : StorePatch P} {d : StoreDiff P}
    (h : (s.apply p).2 = some d) (id : String) : content (s.apply p).1 id =
      (listed (d.added ++ d.updated) id).or (if id ∈ d.removed then none else content s id) := by
  obtain ⟨rfl, -⟩ := apply_of_some h
  rw [content_apply, ← writes_split]
  cases hl : listed (s.addedBy p ++ s.updatedBy p) id with
  | none =>
    rw [Option.none_or, writeAll_of_notMem_sets]
    exact listed_eq_none_iff.mp hl
  | some it =>
    have hlast : lastWrite ((s.addedBy p ++ s.updatedBy p).map fun it => (it.id, some it)) id =
        some (some it) := by
      have hmap := lastWrite_map some ((s.addedBy p ++ s.updatedBy p).map fun it => (it.id, it)) id
      rw [List.map_map] at hmap
      exact hmap.trans (congrArg (Option.map some) hl)
    rw [writeAll_apply, StorePatch.writes, lastWrite_append, hlast]
    rfl

lemma listed_all {s : MemoryItemStore P} (hk : Keyed (content s)) (id : String) :
    listed s.all id = content s id := by
  have hkeys : (s.all.map fun it => (it.id, it)) = s.items.entries := by
    rw [MemoryItemStore.all, OMap.values, List.map_map]
    conv_rhs => rw [← List.map_id s.items.entries]
    refine List.map_congr_left fun e he => ?_
    have hid : e.2.id = e.1 := hk e.1 e.2 (OMap.get?_eq_some_iff.mpr he)
    rw [Function.comp_apply, hid]
    rfl
  rw [listed, hkeys]
  cases hg : content s id with
  | some it => exact lastWrite_of_mem s.items.nodup (OMap.get?_eq_some_iff.mp hg)
  | none =>
    rw [lastWrite_eq_none_iff]
    intro hmem
    obtain ⟨it, hit⟩ := OMap.mem_keys_iff.mp hmem
    rw [content, MemoryItemStore.get, hit] at hg
    cases hg

/-! ### A canvas that draws a store -/

section Base

variable {toRenderItems : StoredItem P → Option (List RenderItem)}
  {before : StoredItem P → List RenderItem} {m m' : Content P} {c : Canvas δ}
  {its all : List (StoredItem P)} {removed : List String}

/-- Items are drawn anew, and the others as before. -/
lemma fits_applyItems (h : Fits c.scene c.objects (wanted before m))
    (hm : ∀ owner, listed its owner = none → m' owner = if owner ∈ removed then none else m owner)
    (hlisted : ∀ owner it, listed its owner = some it → m' owner = some it)
    (hkept : ∀ owner it, listed its owner = none → m' owner = some it →
      safeConvert toRenderItems it = before it)
    (hall : ∀ owner it, m' owner = some it → it ∈ all ∧ it.id = owner)
    (hapart : Apart (safeConvert toRenderItems) its all) :
    Fits (applyItems opts toRenderItems c (its.map fun it => (it.id, it)) removed).scene
      (applyItems opts toRenderItems c (its.map fun it => (it.id, it)) removed).objects
      (wanted (safeConvert toRenderItems) m') := by
  refine fits_applyDiff h (fun owner => ?_) ?_
  · have hlast : lastWrite (convertAll toRenderItems (its.map fun it => (it.id, it))) owner =
        (listed its owner).map (safeConvert toRenderItems) := lastWrite_map _ _ _
    rw [hlast]
    cases hl : listed its owner with
    | some it =>
      rw [wanted, hlisted owner it hl]
      rfl
    | none =>
      have hthis := hm owner hl
      rw [Option.map_none, Option.getD_none, wanted, wanted]
      split_ifs at hthis ⊢ with hr
      · rw [hthis]
        rfl
      · cases hget : m' owner with
        | none =>
          rw [← hthis, hget]
          rfl
        | some it =>
          rw [← hthis, hget, Option.map_some, Option.map_some, hkept owner it hl hget]
  · intro u hu owner hne i hi j hj
    obtain ⟨e, he, rfl⟩ := List.mem_map.mp hu
    obtain ⟨it, hit, rfl⟩ := List.mem_map.mp he
    rw [wanted] at hj
    cases hget : m' owner with
    | none =>
      rw [hget] at hj
      cases hj
    | some jt =>
      rw [hget] at hj
      obtain ⟨hjt, rfl⟩ := hall owner jt hget
      exact hapart it hit jt hjt (Ne.symm hne) i hi j hj

lemma fits_loadAll {s : MemoryItemStore P} (hk : Keyed (content s))
    (hapart : Apart (safeConvert toRenderItems) s.all s.all) :
    Fits (loadAll opts toRenderItems ({} : Canvas δ) s).scene
      (loadAll opts toRenderItems ({} : Canvas δ) s).objects
      (wanted (safeConvert toRenderItems) (content s)) := by
  have hempty : Fits ({} : Scene δ) 0 (wanted (safeConvert toRenderItems) fun _ => none) :=
    fits_empty
  refine fits_applyItems (c := { scene := clear {} }) (m := fun _ => none) hempty
    (fun owner hl => ?_) (fun owner it hl => ?_) (fun owner it _ _ => rfl)
    (fun owner it hget => ?_) hapart
  · rw [← listed_all hk, hl]
    rfl
  · rw [← listed_all hk, hl]
  · have hid := hk owner it hget
    exact ⟨(mem_all_iff hk).mpr (hid ▸ hget), hid⟩

end Base

/-! ### Diffs of a store -/

section Diffs

variable [DecidableEq P]

/-- What the diff of a call lists. -/
def setBy (s : MemoryItemStore P) (call : Call P) : List (StoredItem P) :=
  s.addedBy (call.patch s) ++ s.updatedBy (call.patch s)

lemma step_of_none {s : MemoryItemStore P} {call : Call P} (h : (call.step s).2 = none) :
    (call.step s).1 = s := by
  rw [Call.step_eq] at h ⊢
  exact apply_fst_of_none h

lemma lists_of_some {s : MemoryItemStore P} {call : Call P} {d : StoreDiff P}
    (h : (call.step s).2 = some d) : d.added ++ d.updated = setBy s call := by
  rw [Call.step_eq] at h
  obtain ⟨rfl, -⟩ := apply_of_some h
  rfl

lemma keyed_step {s : MemoryItemStore P} (hk : Keyed (content s)) (call : Call P) :
    Keyed (content (call.step s).1) := by
  rw [Call.step_eq]
  exact keyed_apply hk _

lemma content_step {s : MemoryItemStore P} {call : Call P} {d : StoreDiff P}
    (h : (call.step s).2 = some d) (id : String) : content (call.step s).1 id =
      (listed (setBy s call) id).or (if id ∈ d.removed then none else content s id) := by
  rw [← lists_of_some h]
  rw [Call.step_eq] at h ⊢
  exact content_of_diff h id

/-- The run of a store and of something that follows its diffs. -/
def follow {η : Type} (apply : η → MemoryItemStore P → StoreDiff P → η)
    (s : MemoryItemStore P × η) (call : Call P) : Option (MemoryItemStore P × η) :=
  let r := call.step s.1
  some (r.1, r.2.elim s.2 (apply s.2 r.1))

end Diffs

/-! ### Schematics -/

namespace Schematic

open SchematicCanvasHost

variable {adapter : SchematicAdapter P}

/-- What a host draws for an item. -/
def items (adapter : SchematicAdapter P) (store : MemoryItemStore P) :
    StoredItem P → List RenderItem :=
  safeConvert (toRenderItems adapter store)

/-- A host that draws what is in the store. -/
structure Synced (adapter : SchematicAdapter P) (s : MemoryItemStore P × SchematicCanvasHost δ) :
    Prop where
  keyed : Keyed (content s.1)
  apart : Apart (items adapter s.1) s.1.all s.1.all
  fits : Fits s.2.canvas.scene s.2.canvas.objects (wanted (items adapter s.1) (content s.1))

lemma synced_mount {s : MemoryItemStore P} (hk : Keyed (content s))
    (hapart : Apart (items adapter s) s.all s.all) :
    Synced adapter (s, mount opts adapter ({} : SchematicCanvasHost δ) s) :=
  ⟨hk, hapart, fits_loadAll hk hapart⟩

variable [DecidableEq P]

/-- A child that a diff does not list is drawn by its parent as before, and no two items are drawn
under one id. -/
structure Steady (adapter : SchematicAdapter P) (s : MemoryItemStore P) (call : Call P) :
    Prop where
  parents : ∀ it ∈ (call.step s).1.all, it.id ∉ (setBy s call).map (·.id) →
    parentDraws (call.step s).1 it = parentDraws s it
  apart : Apart (items adapter (call.step s).1) (setBy s call ++ (call.step s).1.all)
    (call.step s).1.all

instance (s : MemoryItemStore P) (call : Call P) : Decidable (Steady adapter s call) :=
  decidable_of_iff _ ⟨fun h => ⟨h.1, h.2⟩, fun h => And.intro h.parents h.apart⟩

lemma synced_step {s t : MemoryItemStore P × SchematicCanvasHost δ} {call : Call P}
    (h : Synced adapter s) (hok : Steady adapter s.1 call)
    (hstep : follow (SchematicCanvasHost.applyStoreDiff opts adapter) s call = some t) :
    Synced adapter t := by
  obtain ⟨store, host⟩ := s
  cases hstep
  cases hd : (call.step store).2 with
  | none =>
    rw [step_of_none hd]
    exact h
  | some d =>
    have hk := keyed_step h.keyed call
    have hall : ∀ it ∈ (call.step store).1.all, it ∈ setBy store call ++ (call.step store).1.all :=
      fun it hit => List.mem_append_right _ hit
    refine ⟨hk, fun it hit => hok.apart it (hall it hit), ?_⟩
    simp only [Option.elim_some, SchematicCanvasHost.applyStoreDiff, CanvasHost.applyStoreDiff,
      lists_of_some hd]
    refine fits_applyItems h.fits (fun owner hl => ?_) (fun owner it hl => ?_)
      (fun owner it hl hget => ?_) (fun owner it hget => ?_)
      (fun it hit => hok.apart it (List.mem_append_left _ hit))
    · rw [content_step hd, hl]
      rfl
    · rw [content_step hd, hl]
      rfl
    · have hid := hk owner it hget
      have hsame : parentDraws (call.step store).1 it = parentDraws store it := by
        refine hok.parents it ((mem_all_iff hk).mpr (hid ▸ hget)) ?_
        rw [hid]
        exact listed_eq_none_iff.mp hl
      rw [items, safeConvert, safeConvert, toRenderItems, toRenderItems, hsame]
    · have hid := hk owner it hget
      exact ⟨(mem_all_iff hk).mpr (hid ▸ hget), hid⟩

/-- **A schematic is drawn as if mounted anew** after every run of steady calls. -/
theorem synced_along {start : MemoryItemStore P} {calls : List (Call P)}
    {s : MemoryItemStore P × SchematicCanvasHost δ} (hk : Keyed (content start))
    (hapart : Apart (items adapter start) start.all start.all)
    (hok : Runs.Along (follow (SchematicCanvasHost.applyStoreDiff opts adapter))
      (fun s call => Steady adapter s.1 call) (start, mount opts adapter {} start) calls)
    (hrun : Runs.run (follow (SchematicCanvasHost.applyStoreDiff opts adapter))
      (start, mount opts adapter {} start) calls = some s) :
    SameItems s.2.canvas.scene
      (mount opts adapter ({} : SchematicCanvasHost δ) s.1).canvas.scene := by
  have hs : Synced adapter s := Runs.invariant_along (Synced adapter)
    (fun _ _ _ hinv hok hstep => synced_step hinv hok hstep) (synced_mount hk hapart) hok hrun
  exact same_of_fits hs.fits (synced_mount hs.keyed hs.apart).fits

end Schematic

end FabPcb.CanvasRuns
