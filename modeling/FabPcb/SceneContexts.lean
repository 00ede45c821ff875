import FabPcb.SceneDrawings

/-!
The contexts of a scene, and who uses them.

Every context has one owner, an object or the cache, which counts the objects of each key. An object
that is built or destroyed keeps it so, and keeps the pictures of the others.
-/

namespace FabPcb.SceneContexts

open OrderedMap RenderShapes RenderScene SceneDrawings
open SpecctraData (Vec2)

variable {δ : Type} {opts : SceneOptions δ}

/-! ### The invariant -/

/-- How many objects have a key. -/
def carriers (live : List (ItemObject δ)) (k : String) : ℕ :=
  live.countP fun o => o.cacheKey = some k

/-- A context that is there, and is not destroyed. -/
def Intact (contexts : List Context) (ctx : ℕ) : Prop :=
  ∃ c, contexts[ctx]? = some c ∧ c.destroyed = false

/-- The cache counts the objects of each key, and every context has one owner: the cache, or an
object. -/
structure Counted (cache : OMap String (ℕ × ℤ)) (contexts : List Context)
    (live : List (ItemObject δ)) : Prop where
  refs : ∀ k ctx refs, cache.get? k = some (ctx, refs) → refs = carriers live k ∧ 0 < refs
  shared : ∀ o ∈ live, ∀ k, o.cacheKey = some k →
    o.disposables = [] ∧ ∃ ctx refs, cache.get? k = some (ctx, refs) ∧ o.graphics = some ctx
  own : ∀ o ∈ live, o.cacheKey = none → o.disposables = o.graphics.toList
  keys : ∀ k k' ctx refs refs', cache.get? k = some (ctx, refs) →
    cache.get? k' = some (ctx, refs') → k = k'
  apart : ∀ k ctx refs, cache.get? k = some (ctx, refs) → ∀ o ∈ live, ctx ∉ o.disposables
  disjoint : (live.flatMap (·.disposables)).Nodup
  cached : ∀ k ctx refs, cache.get? k = some (ctx, refs) → Intact contexts ctx
  owned : ∀ o ∈ live, ∀ ctx ∈ o.disposables, Intact contexts ctx

/-- What an object shows of its context. -/
def instructionsOf (contexts : List Context) (o : ItemObject δ) : List Instruction :=
  ((o.graphics.bind (contexts[·]?)).map (·.instructions)).getD []

/-- Every object shows what its item would be drawn as, and a cached context what its key stands
for. -/
structure Painted (opts : SceneOptions δ) (meaning : String → List Primitive)
    (cache : OMap String (ℕ × ℤ)) (contexts : List Context) (live : List (ItemObject δ)) :
    Prop where
  shown : ∀ o ∈ live, instructionsOf contexts o = (drawn opts o.item).instructions
  kept : ∀ k ctx refs, cache.get? k = some (ctx, refs) → ∃ c, contexts[ctx]? = some c ∧
    c.instructions = (buildGraphics opts ⟨0, 0⟩ (meaning k)).instructions

variable {cache : OMap String (ℕ × ℤ)} {contexts : List Context} {live live' : List (ItemObject δ)}
  {o : ItemObject δ} {k : String} {ctx : ℕ} {meaning : String → List Primitive} {scene : Scene δ}

lemma counted_perm (h : Counted cache contexts live) (hp : live.Perm live') :
    Counted cache contexts live' where
  refs k ctx refs hk := by
    rw [carriers, ← hp.countP_eq]
    exact h.refs k ctx refs hk
  shared o ho := h.shared o (hp.mem_iff.mpr ho)
  own o ho := h.own o (hp.mem_iff.mpr ho)
  keys := h.keys
  apart k ctx refs hk o ho := h.apart k ctx refs hk o (hp.mem_iff.mpr ho)
  disjoint := (hp.flatMap_right _).nodup_iff.mp h.disjoint
  cached := h.cached
  owned o ho := h.owned o (hp.mem_iff.mpr ho)

lemma painted_perm (h : Painted opts meaning cache contexts live) (hp : live.Perm live') :
    Painted opts meaning cache contexts live' where
  shown o ho := h.shown o (hp.mem_iff.mpr ho)
  kept := h.kept

/-! ### Removing an object -/

lemma carriers_cons (o : ItemObject δ) (live : List (ItemObject δ)) (k : String) :
    carriers (o :: live) k = carriers live k + if o.cacheKey = some k then 1 else 0 := by
  rw [carriers, List.countP_cons, carriers]
  simp

/-- The contexts, with one destroyed. -/
abbrev destroyAt (contexts : List Context) (ctx : ℕ) : List Context :=
  contexts.modify ctx fun c => { c with destroyed := true }

lemma getElem?_destroyAt (g : ℕ) : (destroyAt contexts ctx)[g]? =
    (contexts[g]?).map fun c => if ctx = g then { c with destroyed := true } else c :=
  List.getElem?_modify ..

lemma instructionsOf_destroy :
    instructionsOf (destroyAt contexts ctx) o = instructionsOf contexts o := by
  rw [instructionsOf, instructionsOf]
  cases o.graphics with
  | none => rfl
  | some g =>
    rw [Option.bind_some, getElem?_destroyAt, Option.map_map]
    congr 2
    funext c
    by_cases h : ctx = g <;> simp [h]

lemma intact_destroy {other : ℕ} (h : Intact contexts other) (hne : other ≠ ctx) :
    Intact (destroyAt contexts ctx) other := by
  obtain ⟨c, hc, hd⟩ := h
  refine ⟨c, ?_, hd⟩
  rw [getElem?_destroyAt, hc, Option.map_some, if_neg (Ne.symm hne)]

lemma kept_destroy {instructions : List Instruction} {other : ℕ}
    (h : ∃ c, contexts[other]? = some c ∧ c.instructions = instructions) :
    ∃ c, (destroyAt contexts ctx)[other]? = some c ∧ c.instructions = instructions := by
  obtain ⟨c, hc, hi⟩ := h
  rw [getElem?_destroyAt, hc]
  by_cases heq : ctx = other <;> simp [heq, hi]

lemma painted_destroy (h : Painted opts meaning cache contexts live) :
    Painted opts meaning cache (destroyAt contexts ctx) live where
  shown o ho := by rw [instructionsOf_destroy, h.shown o ho]
  kept k c refs hk := kept_destroy (h.kept k c refs hk)

/-- An object that shares no context goes, and its own context with it. -/
lemma counted_own (h : Counted cache contexts (o :: live)) (ho : o.cacheKey = none) :
    Counted cache (o.disposables.foldl destroyAt contexts) live := by
  have hdisposables := h.own o List.mem_cons_self ho
  have hdisjoint := h.disjoint
  rw [List.flatMap_cons, List.nodup_append] at hdisjoint
  have hrest : Counted cache contexts live :=
    { refs := fun k ctx refs hk => by
        have hcount := h.refs k ctx refs hk
        rw [carriers_cons, ho] at hcount
        exact hcount
      shared := fun p hp => h.shared p (List.mem_cons_of_mem _ hp)
      own := fun p hp => h.own p (List.mem_cons_of_mem _ hp)
      keys := h.keys
      apart := fun k ctx refs hk p hp => h.apart k ctx refs hk p (List.mem_cons_of_mem _ hp)
      disjoint := hdisjoint.2.1
      cached := h.cached
      owned := fun p hp => h.owned p (List.mem_cons_of_mem _ hp) }
  rw [hdisposables]
  cases hgraphics : o.graphics with
  | none => exact hrest
  | some g =>
    rw [hgraphics] at hdisposables
    refine { hrest with cached := fun k ctx refs hk => ?_, owned := fun p hp ctx hctx => ?_ }
    · refine intact_destroy (h.cached k ctx refs hk) ?_
      rintro rfl
      refine h.apart k ctx refs hk o List.mem_cons_self ?_
      rw [hdisposables]
      exact List.mem_singleton_self ctx
    · refine intact_destroy (hrest.owned p hp ctx hctx) ?_
      rintro rfl
      refine hdisjoint.2.2 ctx ?_ ctx (List.mem_flatMap.mpr ⟨p, hp, hctx⟩) rfl
      rw [hdisposables]
      exact List.mem_singleton_self ctx

/-- The last object of a key goes, and the context with it. -/
lemma counted_last {refs : ℤ} (h : Counted cache contexts (o :: live)) (ho : o.cacheKey = some k)
    (hk : cache.get? k = some (ctx, refs)) (hlast : refs - 1 ≤ 0) :
    Counted (cache.delete k) (destroyAt contexts ctx) live := by
  have hcount : (carriers live k : ℤ) = 0 := by
    have hrefs := (h.refs k ctx refs hk).1
    rw [carriers_cons, if_pos ho] at hrefs
    omega
  have hnone : ∀ p ∈ live, p.cacheKey ≠ some k := by
    rw [Nat.cast_eq_zero, carriers, List.countP_eq_zero] at hcount
    exact fun p hp heq => hcount p hp (decide_eq_true heq)
  have hother : ∀ k' e, (cache.delete k).get? k' = some e → k' ≠ k ∧ cache.get? k' = some e := by
    intro k' e hk'
    rw [OMap.get?_delete] at hk'
    split_ifs at hk' with hne
    exact ⟨hne, hk'⟩
  have hdisjoint := h.disjoint
  rw [List.flatMap_cons, List.nodup_append] at hdisjoint
  refine
    { refs := fun k' ctx' refs' hk' => ?_
      shared := fun p hp k' hp' => ?_
      own := fun p hp => h.own p (List.mem_cons_of_mem _ hp)
      keys := fun a b c r r' ha hb => h.keys a b c r r' (hother a _ ha).2 (hother b _ hb).2
      apart := fun k' ctx' refs' hk' p hp =>
        h.apart k' ctx' refs' (hother k' _ hk').2 p (List.mem_cons_of_mem _ hp)
      disjoint := hdisjoint.2.1
      cached := fun k' ctx' refs' hk' => ?_
      owned := fun p hp ctx' hctx' => ?_ }
  · obtain ⟨hne, hk''⟩ := hother k' _ hk'
    have hrefs := h.refs k' ctx' refs' hk''
    rw [carriers_cons, ho, if_neg (by simpa using Ne.symm hne)] at hrefs
    exact hrefs
  · have hne : k' ≠ k := by
      rintro rfl
      exact hnone p hp hp'
    rw [OMap.get?_delete, if_neg hne]
    exact h.shared p (List.mem_cons_of_mem _ hp) k' hp'
  · obtain ⟨hne, hk''⟩ := hother k' _ hk'
    refine intact_destroy (h.cached k' ctx' refs' hk'') ?_
    rintro rfl
    exact hne (h.keys k' k ctx' refs' refs hk'' hk)
  · refine intact_destroy (h.owned p (List.mem_cons_of_mem _ hp) ctx' hctx') ?_
    rintro rfl
    exact h.apart k ctx' refs hk p (List.mem_cons_of_mem _ hp) hctx'

/-- An object of a key that others have too. -/
lemma counted_one_less {refs : ℤ} (h : Counted cache contexts (o :: live))
    (ho : o.cacheKey = some k) (hk : cache.get? k = some (ctx, refs)) (hmore : ¬ refs - 1 ≤ 0) :
    Counted (cache.set k (ctx, refs - 1)) contexts live := by
  have hcount : refs - 1 = carriers live k := by
    have hrefs := (h.refs k ctx refs hk).1
    rw [carriers_cons, if_pos ho] at hrefs
    omega
  have hsame : ∀ k' ctx' refs', (cache.set k (ctx, refs - 1)).get? k' = some (ctx', refs') →
      ∃ refs'', cache.get? k' = some (ctx', refs'') := by
    intro k' ctx' refs' hk'
    rw [OMap.get?_set] at hk'
    split_ifs at hk' with heq
    · cases hk'
      exact ⟨refs, heq ▸ hk⟩
    · exact ⟨refs', hk'⟩
  have hdisjoint := h.disjoint
  rw [List.flatMap_cons, List.nodup_append] at hdisjoint
  refine
    { refs := fun k' ctx' refs' hk' => ?_
      shared := fun p hp k' hp' => ?_
      own := fun p hp => h.own p (List.mem_cons_of_mem _ hp)
      keys := fun a b c r r' ha hb => ?_
      apart := fun k' ctx' refs' hk' p hp => ?_
      disjoint := hdisjoint.2.1
      cached := fun k' ctx' refs' hk' => ?_
      owned := fun p hp => h.owned p (List.mem_cons_of_mem _ hp) }
  · rw [OMap.get?_set] at hk'
    split_ifs at hk' with heq
    · cases hk'
      rw [heq]
      exact ⟨hcount, by omega⟩
    · have hrefs := h.refs k' ctx' refs' hk'
      rw [carriers_cons, ho, if_neg (by simpa using Ne.symm heq)] at hrefs
      exact hrefs
  · obtain ⟨hnil, ctx', refs', hk', hg⟩ := h.shared p (List.mem_cons_of_mem _ hp) k' hp'
    refine ⟨hnil, ctx', ?_⟩
    rw [OMap.get?_set]
    by_cases heq : k' = k
    · rw [heq, hk] at hk'
      cases hk'
      exact ⟨refs - 1, if_pos heq, hg⟩
    · exact ⟨refs', by rw [if_neg heq, hk'], hg⟩
  · obtain ⟨_, ha'⟩ := hsame a c r ha
    obtain ⟨_, hb'⟩ := hsame b c r' hb
    exact h.keys a b c _ _ ha' hb'
  · obtain ⟨_, hk''⟩ := hsame k' ctx' refs' hk'
    exact h.apart k' ctx' _ hk'' p (List.mem_cons_of_mem _ hp)
  · obtain ⟨_, hk''⟩ := hsame k' ctx' refs' hk'
    exact h.cached k' ctx' _ hk''

lemma foldl_destroyContext (cs : List ℕ) (scene : Scene δ) :
    cs.foldl destroyContext scene =
      { scene with contexts := cs.foldl destroyAt scene.contexts } := by
  induction cs generalizing scene with
  | nil => rfl
  | cons c cs ih =>
    rw [List.foldl_cons, ih]
    rfl

/-- The steps of a removal: the object has no key, or is the last of its key, or is not. -/
lemma destroyObject_cases (h : Counted scene.contextCache scene.contexts (o :: live)) :
    (o.cacheKey = none ∧ destroyObject scene o =
      { scene with contexts := o.disposables.foldl destroyAt scene.contexts }) ∨
    ∃ k ctx refs, o.cacheKey = some k ∧ scene.contextCache.get? k = some (ctx, refs) ∧
      (refs - 1 ≤ 0 ∧ destroyObject scene o =
        { scene with contextCache := scene.contextCache.delete k,
                     contexts := destroyAt scene.contexts ctx } ∨
        ¬ refs - 1 ≤ 0 ∧ destroyObject scene o =
          { scene with contextCache := scene.contextCache.set k (ctx, refs - 1) }) := by
  cases hkey : o.cacheKey with
  | none =>
    refine Or.inl ⟨rfl, ?_⟩
    rw [destroyObject, hkey, foldl_destroyContext]
    rfl
  | some k =>
    obtain ⟨hnil, ctx, refs, hk, -⟩ := h.shared o List.mem_cons_self k hkey
    refine Or.inr ⟨k, ctx, refs, rfl, hk, ?_⟩
    have hrelease : destroyObject scene o = if refs - 1 ≤ 0 then
        destroyContext { scene with contextCache := scene.contextCache.delete k } ctx
        else { scene with contextCache := scene.contextCache.set k (ctx, refs - 1) } := by
      rw [destroyObject, hnil, List.foldl_nil, releaseContext, hkey, Option.bind_some, hk,
        Option.map_some]
    rw [hrelease]
    by_cases hlast : refs - 1 ≤ 0
    · exact Or.inl ⟨hlast, if_pos hlast⟩
    · exact Or.inr ⟨hlast, if_neg hlast⟩

lemma destroyObject_counted (h : Counted scene.contextCache scene.contexts (o :: live)) :
    Counted (destroyObject scene o).contextCache (destroyObject scene o).contexts live := by
  obtain ⟨hnone, heq⟩ | ⟨k, ctx, refs, hkey, hk, ⟨hlast, heq⟩ | ⟨hmore, heq⟩⟩ :=
    destroyObject_cases h <;> rw [heq]
  · exact counted_own h hnone
  · exact counted_last h hkey hk hlast
  · exact counted_one_less h hkey hk hmore

lemma destroyObject_painted (h : Counted scene.contextCache scene.contexts (o :: live))
    (hp : Painted opts meaning scene.contextCache scene.contexts (o :: live)) :
    Painted opts meaning (destroyObject scene o).contextCache (destroyObject scene o).contexts
      live := by
  have hrest : Painted opts meaning scene.contextCache scene.contexts live :=
    ⟨fun p hmem => hp.shown p (List.mem_cons_of_mem _ hmem), hp.kept⟩
  obtain ⟨-, heq⟩ | ⟨k, ctx, refs, hkey, hk, ⟨-, heq⟩ | ⟨-, heq⟩⟩ :=
    destroyObject_cases h <;> rw [heq]
  · generalize o.disposables = cs
    generalize scene.contexts = contexts at hrest
    induction cs generalizing contexts with
    | nil => exact hrest
    | cons c cs ih => exact ih _ (painted_destroy hrest)
  · refine painted_destroy ⟨hrest.shown, fun k' ctx' refs' hk' => ?_⟩
    rw [OMap.get?_delete] at hk'
    split_ifs at hk' with hne
    exact hrest.kept k' ctx' refs' hk'
  · refine ⟨hrest.shown, fun k' ctx' refs' hk' => ?_⟩
    rw [OMap.get?_set] at hk'
    split_ifs at hk' with heq'
    · cases hk'
      exact heq' ▸ hrest.kept k ctx refs hk
    · exact hrest.kept k' ctx' refs' hk'
/-! ### Building an object -/

/-- **No object uses a context that is destroyed.** -/
lemma live_intact (h : Counted cache contexts live) (ho : o ∈ live) (hg : o.graphics = some ctx) :
    Intact contexts ctx := by
  cases hkey : o.cacheKey with
  | none =>
    refine h.owned o ho ctx ?_
    rw [h.own o ho hkey, hg]
    exact List.mem_singleton_self ctx
  | some k =>
    obtain ⟨-, ctx', refs, hk, hg'⟩ := h.shared o ho k hkey
    rw [hg] at hg'
    cases hg'
    exact h.cached k ctx refs hk

lemma lt_of_intact (h : Intact contexts ctx) : ctx < contexts.length := by
  obtain ⟨c, hc, -⟩ := h
  exact (List.getElem?_eq_some_iff.mp hc).1

lemma getElem?_append_intact {more : List Context} {c : Context} (h : contexts[ctx]? = some c) :
    (contexts ++ more)[ctx]? = some c := by
  rw [List.getElem?_append_left (List.getElem?_eq_some_iff.mp h).1, h]

lemma intact_append {more : List Context} (h : Intact contexts ctx) :
    Intact (contexts ++ more) ctx := by
  obtain ⟨c, hc, hd⟩ := h
  exact ⟨c, getElem?_append_intact hc, hd⟩

lemma instructionsOf_append {more : List Context} (h : Counted cache contexts live)
    (ho : o ∈ live) : instructionsOf (contexts ++ more) o = instructionsOf contexts o := by
  rw [instructionsOf, instructionsOf]
  cases hg : o.graphics with
  | none => rfl
  | some g =>
    obtain ⟨c, hc, -⟩ := live_intact h ho hg
    rw [Option.bind_some, Option.bind_some, getElem?_append_intact hc, hc]

/-- The counts and the pictures of a scene. -/
structure Sound (opts : SceneOptions δ) (meaning : String → List Primitive) (scene : Scene δ)
    (live : List (ItemObject δ)) : Prop where
  counted : Counted scene.contextCache scene.contexts live
  painted : Painted opts meaning scene.contextCache scene.contexts live

/-- The key of an item stands for its primitives about the anchor. -/
def Stands (meaning : String → List Primitive) (item : RenderItem) : Prop :=
  ∀ k, keyOf item = some k → relative item = meaning k

variable {item : RenderItem}

lemma counted_more (h : Counted cache contexts live) (c : Context) :
    Counted cache (contexts ++ [c]) live :=
  { h with
    cached := fun k ctx refs hk => intact_append (h.cached k ctx refs hk)
    owned := fun p hp ctx hctx => intact_append (h.owned p hp ctx hctx) }

lemma painted_more (hc : Counted cache contexts live)
    (h : Painted opts meaning cache contexts live) (c : Context) :
    Painted opts meaning cache (contexts ++ [c]) live where
  shown p hp := by rw [instructionsOf_append hc hp, h.shown p hp]
  kept k ctx refs hk := by
    obtain ⟨d, hd, hi⟩ := h.kept k ctx refs hk
    exact ⟨d, getElem?_append_intact hd, hi⟩

lemma last_append (c : Context) : (contexts ++ [c])[contexts.length]? = some c := by
  rw [List.getElem?_append_right (le_refl _), Nat.sub_self]
  rfl

/-- One more object that shares no context. -/
lemma counted_cons_own (h : Counted cache contexts live) (hkey : o.cacheKey = none)
    (hown : o.disposables = o.graphics.toList)
    (hfresh : ∀ ctx ∈ o.disposables, Intact contexts ctx ∧
      (∀ k refs, cache.get? k ≠ some (ctx, refs)) ∧ ∀ p ∈ live, ctx ∉ p.disposables) :
    Counted cache contexts (o :: live) where
  refs k ctx refs hk := by
    rw [carriers_cons, hkey]
    exact h.refs k ctx refs hk
  shared p hp k hk := by
    rcases List.mem_cons.mp hp with rfl | hp
    · rw [hkey] at hk
      cases hk
    · exact h.shared p hp k hk
  own p hp hk := by
    rcases List.mem_cons.mp hp with rfl | hp
    · exact hown
    · exact h.own p hp hk
  keys := h.keys
  apart k ctx refs hk p hp := by
    rcases List.mem_cons.mp hp with rfl | hp
    · exact fun hctx => (hfresh ctx hctx).2.1 k refs hk
    · exact h.apart k ctx refs hk p hp
  disjoint := by
    rw [List.flatMap_cons, List.nodup_append]
    refine ⟨?_, h.disjoint, ?_⟩
    · rw [hown]
      cases o.graphics with
      | none => exact List.nodup_nil
      | some g => exact List.nodup_singleton g
    · rintro a ha b hb rfl
      obtain ⟨p, hp, hctx⟩ := List.mem_flatMap.mp hb
      exact (hfresh a ha).2.2 p hp hctx
  cached := h.cached
  owned p hp ctx hctx := by
    rcases List.mem_cons.mp hp with rfl | hp
    · exact (hfresh ctx hctx).1
    · exact h.owned p hp ctx hctx

/-- One more object of a key, with the context of the key, or with one that is new. -/
lemma counted_cons_shared (h : Counted cache contexts live) (hkey : o.cacheKey = some k)
    (hg : o.graphics = some ctx) (hnil : o.disposables = []) (hintact : Intact contexts ctx)
    (hmine : ∀ k' refs, cache.get? k' = some (ctx, refs) → k' = k)
    (hsame : ∀ ctx' refs, cache.get? k = some (ctx', refs) → ctx' = ctx)
    (hfree : ∀ p ∈ live, ctx ∉ p.disposables) :
    Counted (cache.set k (ctx, carriers live k + 1)) contexts (o :: live) where
  refs k' ctx' refs' hk' := by
    rw [OMap.get?_set] at hk'
    rw [carriers_cons, hkey]
    split_ifs at hk' with heq
    · cases hk'
      rw [if_pos (by rw [heq]), heq]
      exact ⟨rfl, by omega⟩
    · rw [if_neg (by simpa using Ne.symm heq)]
      exact h.refs k' ctx' refs' hk'
  shared p hp k' hk' := by
    rw [OMap.get?_set]
    rcases List.mem_cons.mp hp with rfl | hp
    · rw [hkey] at hk'
      cases hk'
      exact ⟨hnil, ctx, _, if_pos rfl, hg⟩
    · obtain ⟨hnone, ctx', refs, hcache, hg'⟩ := h.shared p hp k' hk'
      by_cases heq : k' = k
      · rw [heq] at hcache
        rw [hsame ctx' refs hcache] at hg'
        exact ⟨hnone, ctx, _, if_pos heq, hg'⟩
      · exact ⟨hnone, ctx', refs, by rw [if_neg heq, hcache], hg'⟩
  own p hp hk' := by
    rcases List.mem_cons.mp hp with rfl | hp
    · rw [hkey] at hk'
      cases hk'
    · exact h.own p hp hk'
  keys a b c r r' ha hb := by
    rw [OMap.get?_set] at ha hb
    split_ifs at ha hb with hak hbk hbk
    · rw [hak, hbk]
    · cases ha
      rw [hak, hmine b r' hb]
    · cases hb
      rw [hbk, hmine a r ha]
    · exact h.keys a b c r r' ha hb
  apart k' ctx' refs' hk' p hp := by
    rcases List.mem_cons.mp hp with rfl | hp
    · rw [hnil]
      exact List.not_mem_nil
    · rw [OMap.get?_set] at hk'
      split_ifs at hk'
      · cases hk'
        exact hfree p hp
      · exact h.apart k' ctx' refs' hk' p hp
  disjoint := by
    rw [List.flatMap_cons, hnil]
    exact h.disjoint
  cached k' ctx' refs' hk' := by
    rw [OMap.get?_set] at hk'
    split_ifs at hk'
    · cases hk'
      exact hintact
    · exact h.cached k' ctx' refs' hk'
  owned p hp ctx' hctx' := by
    rcases List.mem_cons.mp hp with rfl | hp
    · rw [hnil] at hctx'
      cases hctx'
    · exact h.owned p hp ctx' hctx'

lemma next_fresh (h : Counted cache contexts live) :
    (∀ k refs, cache.get? k ≠ some (contexts.length, refs)) ∧
      ∀ p ∈ live, contexts.length ∉ p.disposables := by
  constructor
  · intro k refs hk
    exact absurd (lt_of_intact (h.cached k _ refs hk)) (lt_irrefl _)
  · intro p hp hctx
    exact absurd (lt_of_intact (h.owned p hp _ hctx)) (lt_irrefl _)

lemma sound_own (h : Sound opts meaning scene live) (item : RenderItem) :
    Sound opts meaning (buildOwn opts scene item).1 ((buildOwn opts scene item).2 :: live) := by
  generalize hc : (⟨(drawn opts item).instructions, !(drawn opts item).used⟩ : Context) = c
  have hscene : (buildOwn opts scene item).1 =
      { scene with contexts := scene.contexts ++ [c] } := by
    rw [← hc]
    rfl
  have hlast : (scene.contexts ++ [c])[scene.contexts.length]? = some c := last_append c
  have hobject : (buildOwn opts scene item).2.cacheKey = none ∧
      (buildOwn opts scene item).2.item = item := ⟨rfl, rfl⟩
  have hgraphics : (buildOwn opts scene item).2.graphics =
        (if (drawn opts item).used then some scene.contexts.length else none) ∧
      (buildOwn opts scene item).2.disposables =
        if (drawn opts item).used then [scene.contexts.length] else [] := ⟨rfl, rfl⟩
  rw [hscene]
  obtain ⟨hkey, hitem⟩ := hobject
  obtain ⟨hg, hd⟩ := hgraphics
  refine ⟨counted_cons_own (counted_more h.counted c) hkey ?_ fun ctx hctx => ?_, ?_,
    (painted_more h.counted h.painted c).kept⟩
  · rw [hg, hd]
    split_ifs <;> rfl
  · rw [hd] at hctx
    split_ifs at hctx with hused
    · rw [List.mem_singleton.mp hctx]
      refine ⟨⟨c, hlast, ?_⟩, next_fresh h.counted⟩
      rw [← hc, hused]
      rfl
    · cases hctx
  · intro p hp
    rcases List.mem_cons.mp hp with rfl | hp
    · rw [instructionsOf, hg]
      split_ifs with hused
      · rw [Option.bind_some, hlast, ← hc]
        rfl
      · exact (instructions_of_unused (Bool.eq_false_iff.mpr hused)).symm
    · exact (painted_more h.counted h.painted c).shown p hp

/-- An item of a key for which there is a context. -/
lemma sound_hit {refs : ℤ} (h : Sound opts meaning scene live) (hitem : Stands meaning item)
    (hkey : keyOf item = some k) (hk : scene.contextCache.get? k = some (ctx, refs)) :
    Sound opts meaning (buildShared opts scene item k).1
      ((buildShared opts scene item k).2 :: live) := by
  have hbuilt : buildShared opts scene item k =
      ({ scene with contextCache := scene.contextCache.set k (ctx, refs + 1) },
        { item := item, graphics := some ctx, cacheKey := some k }) := by
    rw [buildShared, hk]
  rw [hbuilt]
  have hrefs := (h.counted.refs k ctx refs hk).1
  refine ⟨?_, fun p hp => ?_, fun k' ctx' refs' hk' => ?_⟩
  · rw [hrefs]
    refine counted_cons_shared h.counted rfl rfl rfl (h.counted.cached k ctx refs hk)
      (fun k' refs' hk' => h.counted.keys k' k ctx refs' refs hk' hk) (fun ctx' refs' hk' => ?_)
      (h.counted.apart k ctx refs hk)
    rw [hk] at hk'
    cases hk'
    rfl
  · rcases List.mem_cons.mp hp with rfl | hp
    · obtain ⟨c, hc, hi⟩ := h.painted.kept k ctx refs hk
      rw [instructionsOf, Option.bind_some, hc, Option.map_some, Option.getD_some, hi,
        ← hitem k hkey, drawn, buildGraphics_relative]
    · exact h.painted.shown p hp
  · simp only [OMap.get?_set] at hk'
    split_ifs at hk' with heq
    · cases hk'
      exact heq ▸ h.painted.kept k ctx refs hk
    · exact h.painted.kept k' ctx' refs' hk'

/-- The first item of a key. -/
lemma sound_miss (h : Sound opts meaning scene live) (hitem : Stands meaning item)
    (hkey : keyOf item = some k) (hk : scene.contextCache.get? k = none) :
    Sound opts meaning (buildShared opts scene item k).1
      ((buildShared opts scene item k).2 :: live) := by
  generalize hc : (⟨(drawn opts item).instructions, false⟩ : Context) = c
  have hbuilt : buildShared opts scene item k =
      ({ scene with contexts := scene.contexts ++ [c],
                    contextCache := scene.contextCache.set k (scene.contexts.length, 1) },
        { item := item, children := (drawn opts item).children,
          graphics := some scene.contexts.length, cacheKey := some k }) := by
    rw [buildShared, hk, ← hc]
    rfl
  have hlast : (scene.contexts ++ [c])[scene.contexts.length]? = some c := last_append c
  have hcarriers : carriers live k = 0 := by
    rw [carriers, List.countP_eq_zero]
    intro p hp hkey'
    obtain ⟨-, ctx, refs, hcache, -⟩ := h.counted.shared p hp k (of_decide_eq_true hkey')
    rw [hk] at hcache
    cases hcache
  obtain ⟨hnew, hfree⟩ := next_fresh h.counted
  rw [hbuilt]
  refine ⟨?_, fun p hp => ?_, fun k' ctx' refs' hk' => ?_⟩
  · have hone : ((scene.contexts.length, 1) : ℕ × ℤ) =
        (scene.contexts.length, (carriers live k : ℤ) + 1) := by
      rw [hcarriers]
      rfl
    rw [hone]
    exact counted_cons_shared (counted_more h.counted c) rfl rfl rfl
      ⟨c, hlast, by rw [← hc]⟩ (fun k' refs hk' => absurd hk' (hnew k' refs))
      (fun ctx' refs hk' => by rw [hk] at hk'; cases hk') hfree
  · rcases List.mem_cons.mp hp with rfl | hp
    · rw [instructionsOf, Option.bind_some, hlast, ← hc]
      rfl
    · exact (painted_more h.counted h.painted c).shown p hp
  · simp only [OMap.get?_set] at hk'
    split_ifs at hk' with heq
    · cases hk'
      refine ⟨c, hlast, ?_⟩
      rw [heq, ← hc, ← hitem k hkey, drawn, buildGraphics_relative]
    · exact (painted_more h.counted h.painted c).kept k' ctx' refs' hk'

lemma sound_build (h : Sound opts meaning scene live) (hitem : Stands meaning item) :
    Sound opts meaning (build opts scene item).1 ((build opts scene item).2 :: live) := by
  rw [build]
  cases hkey : keyOf item with
  | none => exact sound_own h item
  | some k =>
    cases hk : scene.contextCache.get? k with
    | none => exact sound_miss h hitem hkey hk
    | some c => exact sound_hit h hitem hkey hk

end FabPcb.SceneContexts
