import FabPcb.TextShapes

/-!
When the cache of text shapes converges.

What a text will have in the end is what is queued for it, or else what is under way, or else what
it has. A request keeps that right of every text that it queues; of a text that it does not queue,
since its hash is that of the last reply, it need not be right.
-/

namespace FabPcb.TextConvergence

open OrderedMap TextShapes TextShapes.TextShapeCache Runs

variable {T B Box G : Type} {K : Service T B Box G}

/-! ### What is to come -/

/-- The last text with a key. -/
def lastOf (refs : List (TextRef T B Box)) (k : String) : Option (TextRef T B Box) :=
  refs.reverse.find? fun r => r.key = k

/-- The texts of a batch whose shapes have not arrived. -/
def waiting : Flight T B Box → List (TextRef T B Box)
  | .measuring before r after _ => before ++ r :: after
  | .shaping slice rest _ _ => slice ++ rest
  | .finished => []

/-- The texts of a batch whose shapes have arrived and are to be reported. -/
def arrived : Flight T B Box → List String
  | .shaping _ _ done _ => done
  | .measuring _ _ _ _ | .finished => []

/-- What is queued of a text, or else under way. -/
def coming (s : TextShapeCache T B Box G) (k : String) : Option (TextRef T B Box) :=
  (s.queued.get? k).or (s.inflight.bind fun f => lastOf (waiting f) k)

/-- The shapes that a text will have. -/
def destined (K : Service T B Box G) (s : TextShapeCache T B Box G) (k : String) :
    Option (List G) :=
  ((coming s k).map (shapesOf K)).or (s.shapes.get? k)

/-! ### The condition -/

/-- A text that is not queued will have the shapes of its content. -/
def Asked (K : Service T B Box G) (s : TextShapeCache T B Box G) (r : TextRef T B Box) : Prop :=
  s.hashes.get? r.key = some (hashText K r) → destined K s r.key = some (shapesOf K r)

def AllAsked (K : Service T B Box G) (s : TextShapeCache T B Box G) :
    List (TextRef T B Box) → Prop
  | [] => True
  | r :: refs => Asked K s r ∧ AllAsked K (enqueue K s r) refs

/-- KiCad answers with the extents of a text. -/
def Measured (K : Service T B Box G) (answer : Option Box) : Option (Flight T B Box) → Prop
  | some (.measuring _ r _ _) =>
    answer.map (fun box => shapesOf K (resolved r box)) = some (shapesOf K r)
  | _ => True

/-- KiCad answers with the shapes of some texts. -/
def Drawn (K : Service T B Box G) (answer : Option (List (Option (List G)))) :
    Option (Flight T B Box) → Prop
  | some (.shaping slice _ _ _) =>
    (answer.map fun shapes => shapes.map fun x => x.getD []) = some (slice.map (shapesOf K))
  | _ => True

/-- No request fails. -/
def Answered (K : Service T B Box G) (s : TextShapeCache T B Box G) : Event T B Box G → Prop
  | .extents answer => Measured K answer s.inflight
  | .shaped answer => Drawn K answer s.inflight
  | .request _ _ | .removed _ | .connection _ | .settle => True

/-- No request fails, and each text that is requested and has the hash of the last reply for it
will have its shapes. -/
def Minded (K : Service T B Box G) (s : TextShapeCache T B Box G) : Event T B Box G → Prop
  | .request refs _ => AllAsked K s refs
  | e => Answered K s e

section Decidable

variable [DecidableEq G] {s : TextShapeCache T B Box G}

instance (r : TextRef T B Box) : Decidable (Asked K s r) := inferInstanceAs (Decidable (_ → _))

instance decidableAllAsked (s : TextShapeCache T B Box G) :
    (refs : List (TextRef T B Box)) → Decidable (AllAsked K s refs)
  | [] => inferInstanceAs (Decidable True)
  | r :: refs =>
    have := decidableAllAsked (enqueue K s r) refs
    inferInstanceAs (Decidable (Asked K s r ∧ AllAsked K (enqueue K s r) refs))

instance (answer : Option Box) : (f : Option (Flight T B Box)) → Decidable (Measured K answer f)
  | some (.measuring _ _ _ _) => inferInstanceAs (Decidable (_ = _))
  | some (.shaping _ _ _ _) | some .finished | none => inferInstanceAs (Decidable True)

instance (answer : Option (List (Option (List G)))) :
    (f : Option (Flight T B Box)) → Decidable (Drawn K answer f)
  | some (.shaping _ _ _ _) => inferInstanceAs (Decidable (_ = _))
  | some (.measuring _ _ _ _) | some .finished | none => inferInstanceAs (Decidable True)

instance : (e : Event T B Box G) → Decidable (Answered K s e)
  | .extents _ => inferInstanceAs (Decidable (Measured _ _ _))
  | .shaped _ => inferInstanceAs (Decidable (Drawn _ _ _))
  | .request _ _ | .removed _ | .connection _ | .settle => inferInstanceAs (Decidable True)

instance : (e : Event T B Box G) → Decidable (Minded K s e)
  | .request _ _ => inferInstanceAs (Decidable (AllAsked _ _ _))
  | .extents _ => inferInstanceAs (Decidable (Measured _ _ _))
  | .shaped _ => inferInstanceAs (Decidable (Drawn _ _ _))
  | .removed _ | .connection _ | .settle => inferInstanceAs (Decidable True)

end Decidable

/-! ### The last text with a key -/

variable {r r' : TextRef T B Box} {refs before after : List (TextRef T B Box)} {k : String}

lemma lastOf_append (refs refs' : List (TextRef T B Box)) (k : String) :
    lastOf (refs ++ refs') k = (lastOf refs' k).or (lastOf refs k) := by
  rw [lastOf, List.reverse_append, List.find?_append]
  rfl

lemma lastOf_singleton (r : TextRef T B Box) (k : String) :
    lastOf [r] k = if r.key = k then some r else none := by
  by_cases h : r.key = k <;> simp [lastOf, h]

lemma lastOf_cons (r : TextRef T B Box) (refs : List (TextRef T B Box)) (k : String) :
    lastOf (r :: refs) k = (lastOf refs k).or (if r.key = k then some r else none) := by
  rw [← List.singleton_append, lastOf_append, lastOf_singleton]

lemma mem_of_lastOf (h : lastOf refs k = some r) : r ∈ refs ∧ r.key = k := by
  have hkey := List.find?_some h
  exact ⟨List.mem_reverse.mp (List.mem_of_find?_eq_some h), by simpa using hkey⟩

lemma exists_lastOf (h : r ∈ refs) : ∃ r', lastOf refs r.key = some r' := by
  rw [← Option.isSome_iff_exists, lastOf, List.find?_isSome]
  exact ⟨r, List.mem_reverse.mpr h, by simp⟩

lemma lastOf_values {m : OMap String (TextRef T B Box)}
    (hm : ∀ k r, m.get? k = some r → r.key = k) (k : String) : lastOf m.values k = m.get? k := by
  have hget : ∀ r, lastOf m.values k = some r → m.get? k = some r := fun r h => by
    obtain ⟨hmem, rfl⟩ := mem_of_lastOf h
    obtain ⟨k', hk'⟩ := OMap.mem_values_iff.mp hmem
    rwa [hm k' r hk']
  refine Option.ext fun r => ⟨hget r, fun h => ?_⟩
  obtain rfl := hm k r h
  obtain ⟨r', hr'⟩ := exists_lastOf (OMap.mem_values_iff.mpr ⟨_, h⟩)
  rw [hr', ← h, hget r' hr']

lemma lastOf_replace (hkey : r'.key = r.key) (hshapes : shapesOf K r' = shapesOf K r) (k : String) :
    (lastOf (before ++ r' :: after) k).map (shapesOf K) =
      (lastOf (before ++ r :: after) k).map (shapesOf K) := by
  rw [lastOf_append, lastOf_append before, lastOf_cons, lastOf_cons r, hkey]
  by_cases h : r.key = k
  · cases lastOf after k <;> simp [h, hshapes]
  · simp [h]

lemma resolved_key (r : TextRef T B Box) (box : Box) : (resolved r box).key = r.key := by
  obtain ⟨key, hash, content⟩ := r
  cases content <;> rfl

lemma isReady_resolved (r : TextRef T B Box) (box : Box) : isReady (resolved r box) = true := by
  obtain ⟨key, hash, content⟩ := r
  cases content <;> rfl

lemma splitMeasured_some {l pre post : List (TextRef T B Box)}
    (h : splitMeasured l = some (pre, r, post)) :
    l = pre ++ r :: post ∧ ∀ x ∈ pre, isReady x = true := by
  induction l generalizing pre with
  | nil => cases h
  | cons x l ih =>
    rw [splitMeasured] at h
    by_cases hx : isReady x = true
    · rw [if_pos hx] at h
      obtain ⟨⟨pre', p⟩, hp, heq⟩ := Option.map_eq_some_iff.mp h
      obtain ⟨rfl, rfl⟩ := Prod.mk.inj heq
      obtain ⟨hl, hpre⟩ := ih hp
      exact ⟨by rw [hl]; rfl, List.forall_mem_cons.mpr ⟨hx, hpre⟩⟩
    · rw [if_neg hx] at h
      obtain ⟨rfl, heq⟩ := Prod.mk.inj (Option.some.inj h)
      obtain ⟨rfl, rfl⟩ := Prod.mk.inj heq
      exact ⟨rfl, by simp⟩

lemma splitMeasured_none {l : List (TextRef T B Box)} (h : splitMeasured l = none) :
    ∀ x ∈ l, isReady x = true := by
  induction l with
  | nil => simp
  | cons x l ih =>
    rw [splitMeasured] at h
    by_cases hx : isReady x = true
    · rw [if_pos hx, Option.map_eq_none_iff] at h
      exact List.forall_mem_cons.mpr ⟨hx, ih h⟩
    · rw [if_neg hx] at h
      cases h

/-! ### The invariant -/

/-- The cache while some texts wait for their shapes and others have theirs and are to be
reported. -/
structure Pending (K : Service T B Box G) (s : TextShapeCache T B Box G)
    (refs : List (TextRef T B Box)) (done : List String) : Prop where
  keyed : ∀ k r, s.queued.get? k = some r → r.key = k
  /-- Every text will have the shapes of its content. -/
  current : ∀ k r, s.texts.get? k = some r →
    ((((s.queued.get? k).or (lastOf refs k)).map (shapesOf K)).or (s.shapes.get? k)) =
      some (shapesOf K r)
  landed : ∀ k ∈ done, (s.shapes.get? k).isSome = true
  drawn : ∀ k, k ∉ done → s.drawn.get? k = s.shapes.get? k

def waitingOf (s : TextShapeCache T B Box G) : List (TextRef T B Box) :=
  s.inflight.toList.flatMap waiting

def arrivedOf (s : TextShapeCache T B Box G) : List String := s.inflight.toList.flatMap arrived

/-- The texts of a batch that have been measured. -/
def measuredOf : Option (Flight T B Box) → List (TextRef T B Box)
  | some (.measuring before _ _ _) => before
  | _ => []

structure Inv (K : Service T B Box G) (s : TextShapeCache T B Box G) : Prop where
  pending : Pending K s (waitingOf s) (arrivedOf s)
  ready : ∀ x ∈ measuredOf s.inflight, isReady x = true

variable {s : TextShapeCache T B Box G} {done : List String} {initial : Bool}

lemma pending_congr {refs' : List (TextRef T B Box)} (h : Pending K s refs done)
    (hrefs : ∀ k, (lastOf refs' k).map (shapesOf K) = (lastOf refs k).map (shapesOf K)) :
    Pending K s refs' done :=
  { h with
    current := fun k r hr => by
      rw [← h.current k r hr]
      cases hq : s.queued.get? k with
      | some q => rfl
      | none => rw [Option.none_or, Option.none_or, hrefs] }

lemma get?_draw (shapes drawn : OMap String (List G)) (key k : String) :
    (draw shapes drawn key).get? k =
      if k = key ∧ (shapes.get? key).isSome then shapes.get? k else drawn.get? k := by
  rw [draw]
  cases h : shapes.get? key with
  | none => simp
  | some v =>
    by_cases hk : k = key
    · simp [hk, h]
    · simp [hk]

lemma get?_foldl_draw (shapes drawn : OMap String (List G)) (done : List String) (k : String) :
    (done.foldl (draw shapes) drawn).get? k =
      if k ∈ done ∧ (shapes.get? k).isSome then shapes.get? k else drawn.get? k := by
  induction done generalizing drawn with
  | nil => simp
  | cons key done ih =>
    rw [List.foldl_cons, ih, get?_draw]
    by_cases hk : k = key
    · subst hk
      by_cases hsome : (shapes.get? k).isSome = true <;> simp [hsome]
    · simp [hk]

lemma pending_onReady (h : Pending K s refs done) (initial : Bool) :
    Pending K (s.onReady done initial) refs [] :=
  { keyed := h.keyed
    current := h.current
    landed := by simp
    drawn := fun k _ => by
      change (done.foldl (draw s.shapes) s.drawn).get? k = s.shapes.get? k
      rw [get?_foldl_draw]
      by_cases hk : k ∈ done
      · simp [hk, h.landed k hk]
      · simp [hk, h.drawn k hk] }

lemma inv_askShapes (h : Pending K s refs done) (initial : Bool) :
    Inv K (s.askShapes refs done initial) := by
  rw [askShapes]
  by_cases hrefs : refs = []
  · subst hrefs
    have hready : Pending K (if done.isEmpty then s else s.onReady done initial) [] [] := by
      by_cases hdone : done = []
      · subst hdone
        exact h
      · rw [if_neg (by simpa using hdone)]
        exact pending_onReady h initial
    exact ⟨⟨hready.keyed, hready.current, hready.landed, hready.drawn⟩, by simp [measuredOf]⟩
  · rw [if_neg (by simpa using hrefs)]
    have hsplit : refs.take TEXT_BATCH ++ refs.drop TEXT_BATCH = refs := List.take_append_drop _ _
    refine ⟨⟨h.keyed, fun k r hr => ?_, ?_, ?_⟩, by simp [measuredOf]⟩
    · simp only [waitingOf, Option.toList, List.flatMap_singleton, waiting, hsplit]
      exact h.current k r hr
    · simpa [arrivedOf, arrived] using h.landed
    · simpa [arrivedOf, arrived] using h.drawn

lemma inv_askExtents (h : Pending K s (before ++ after) [])
    (hready : ∀ x ∈ before, isReady x = true) (initial : Bool) :
    Inv K (s.askExtents before after initial) := by
  rw [askExtents]
  cases hsplit : splitMeasured after with
  | none =>
    have hall : (before ++ after).filter isReady = before ++ after :=
      List.filter_eq_self.mpr fun x hx => (List.mem_append.mp hx).elim (hready x)
        (splitMeasured_none hsplit x)
    rw [hall]
    exact inv_askShapes h initial
  | some p =>
    obtain ⟨pre, r, post⟩ := p
    obtain ⟨rfl, hpre⟩ := splitMeasured_some hsplit
    have hwaiting : before ++ (pre ++ r :: post) = before ++ pre ++ r :: post := by simp
    rw [hwaiting] at h
    refine ⟨⟨h.keyed, fun k r hr => ?_, by simp [arrivedOf, arrived], by
      simpa [arrivedOf, arrived] using h.drawn⟩, fun x hx => ?_⟩
    · simp only [waitingOf, Option.toList, List.flatMap_singleton, waiting]
      exact h.current k r hr
    · exact (List.mem_append.mp hx).elim (hready x) (hpre x)

lemma destined_eq (K : Service T B Box G) (s : TextShapeCache T B Box G) (k : String) :
    destined K s k = (((s.queued.get? k).or (lastOf (waitingOf s) k)).map (shapesOf K)).or
      (s.shapes.get? k) := by
  rw [destined, coming, waitingOf]
  cases s.inflight with
  | none => rfl
  | some f => simp

/-! ### The steps -/

lemma inv_flush (h : Inv K s) (initial : Bool) : Inv K (s.flush initial) := by
  rw [flush]
  by_cases hidle : (s.inflight.isSome || s.queued.entries.isEmpty || !s.kicad) = true
  · rw [if_pos hidle]
    exact h
  · rw [if_neg hidle]
    have hnone : s.inflight = none := by
      simp only [Bool.or_eq_true, not_or, Bool.not_eq_true, Option.isSome_eq_false_iff,
        Option.isNone_iff_eq_none] at hidle
      exact hidle.1.1
    have hpending : Pending K s [] [] := by simpa [waitingOf, arrivedOf, hnone] using h.pending
    -- the queue becomes the batch
    have hbatch : Pending K { s with queued := OMap.empty } ([] ++ s.queued.values) [] :=
      { keyed := fun k r hr => by cases hr
        current := fun k r hr => by
          rw [List.nil_append, lastOf_values hpending.keyed]
          simpa [lastOf] using hpending.current k r hr
        landed := hpending.landed
        drawn := hpending.drawn }
    exact inv_askExtents hbatch (by simp) initial

/-- A text is queued, or will have its shapes without. -/
lemma inv_enqueue (h : Inv K s) (hr : Asked K s r) : Inv K (enqueue K s r) := by
  refine ⟨⟨fun k q hq => ?_, fun k q hq => ?_, h.pending.landed, h.pending.drawn⟩, h.ready⟩
  · by_cases hhash : s.hashes.get? r.key = some (hashText K r)
    · rw [enqueue, if_pos hhash] at hq
      exact h.pending.keyed k q hq
    · rw [enqueue, if_neg hhash, OMap.get?_set] at hq
      by_cases hk : k = r.key
      · rw [if_pos hk] at hq
        rw [← Option.some.inj hq, hk]
      · rw [if_neg hk] at hq
        exact h.pending.keyed k q hq
  · change (s.texts.set r.key r).get? k = some q at hq
    change ((((enqueue K s r).queued.get? k).or (lastOf (waitingOf s) k)).map (shapesOf K)).or
      (s.shapes.get? k) = _
    rw [OMap.get?_set] at hq
    by_cases hhash : s.hashes.get? r.key = some (hashText K r)
    · rw [enqueue, if_pos hhash]
      by_cases hk : k = r.key
      · rw [if_pos hk] at hq
        rw [← Option.some.inj hq, hk, ← hr hhash, destined_eq]
      · rw [if_neg hk] at hq
        exact h.pending.current k q hq
    · rw [enqueue, if_neg hhash, OMap.get?_set]
      by_cases hk : k = r.key
      · rw [if_pos hk] at hq ⊢
        rw [Option.some.inj hq]
        rfl
      · rw [if_neg hk] at hq ⊢
        exact h.pending.current k q hq

lemma inv_enqueueAll {refs : List (TextRef T B Box)} (h : Inv K s) (hrefs : AllAsked K s refs) :
    Inv K (refs.foldl (enqueue K) s) := by
  induction refs generalizing s with
  | nil => exact h
  | cons r refs ih => exact ih (inv_enqueue h hrefs.1) hrefs.2

lemma get?_foldl_delete {ν : Type} (m : OMap String ν) (keys : List String) {k : String} {v : ν}
    (h : (keys.foldl OMap.delete m).get? k = some v) : m.get? k = some v := by
  induction keys generalizing m with
  | nil => exact h
  | cons key keys ih =>
    have hnext := ih (m.delete key) h
    rw [OMap.get?_delete] at hnext
    by_cases hk : k = key
    · rw [if_pos hk] at hnext
      cases hnext
    · rwa [if_neg hk] at hnext

lemma inv_removed (h : Inv K s) (keys : List String) :
    Inv K { s with texts := keys.foldl OMap.delete s.texts } :=
  { ready := h.ready
    pending :=
      { h.pending with
        current := fun k r hr => h.pending.current k r (get?_foldl_delete _ _ hr) } }

lemma inv_extents {answer : Option Box} {t : TextShapeCache T B Box G} (h : Inv K s)
    (hanswer : Measured K answer s.inflight) (ht : s.extents answer = some t) : Inv K t := by
  rw [extents] at ht
  cases hf : s.inflight with
  | none => rw [hf] at ht; cases ht
  | some f =>
    rw [hf] at ht hanswer
    cases f with
    | measuring before r after initial =>
      cases answer with
      | none => cases hanswer
      | some box =>
        obtain rfl := Option.some.inj ht
        have hpending : Pending K s (before ++ r :: after) [] := by
          simpa [waitingOf, arrivedOf, hf, waiting, arrived] using h.pending
        have hready : ∀ x ∈ before, isReady x = true := by
          simpa [measuredOf, hf] using h.ready
        refine inv_askExtents (pending_congr hpending fun k => ?_) (fun x hx => ?_) initial
        · rw [List.append_assoc]
          exact lastOf_replace (resolved_key r box) (Option.some.inj hanswer) k
        · rcases List.mem_append.mp hx with hx | hx
          · exact hready x hx
          · rw [List.mem_singleton.mp hx]
            exact isReady_resolved r box
    | shaping slice rest done initial => cases ht
    | finished => cases ht

/-- The shapes of a text arrive. -/
lemma pending_land (h : Pending K s (r :: refs) done) :
    Pending K (land K s (r, shapesOf K r)) refs (done ++ [r.key]) where
  keyed := h.keyed
  current k q hq := by
    have hcurrent := h.current k q hq
    change (((s.queued.get? k).or (lastOf refs k)).map (shapesOf K)).or
      ((s.shapes.set r.key (shapesOf K r)).get? k) = _
    rw [lastOf_cons] at hcurrent
    cases hqueued : s.queued.get? k with
    | some q' => simpa [hqueued] using hcurrent
    | none =>
      cases hlast : lastOf refs k with
      | some q' => simpa [hqueued, hlast] using hcurrent
      | none =>
        rw [hqueued, hlast] at hcurrent
        by_cases hk : k = r.key
        · simpa [hk] using hcurrent
        · simpa [hk, Ne.symm hk] using hcurrent
  landed k hk := by
    change ((s.shapes.set r.key (shapesOf K r)).get? k).isSome = true
    rw [OMap.get?_set]
    by_cases hr : k = r.key
    · rw [if_pos hr]
      rfl
    · rw [if_neg hr]
      exact h.landed k ((List.mem_append.mp hk).resolve_right (by simpa using hr))
  drawn k hk := by
    rw [List.mem_append, List.mem_singleton, not_or] at hk
    change s.drawn.get? k = (s.shapes.set r.key (shapesOf K r)).get? k
    rw [OMap.get?_set, if_neg hk.2]
    exact h.drawn k hk.1

lemma pending_slice {slice rest : List (TextRef T B Box)} (h : Pending K s (slice ++ rest) done) :
    Pending K ((slice.map fun r => (r, shapesOf K r)).foldl (land K) s) rest
      (done ++ slice.map fun r => r.key) := by
  induction slice generalizing s done with
  | nil => simpa using h
  | cons r slice ih =>
    have hnext := ih (pending_land h)
    rwa [List.append_assoc] at hnext

lemma inv_shaped {answer : Option (List (Option (List G)))} {t : TextShapeCache T B Box G}
    (h : Inv K s) (hanswer : Drawn K answer s.inflight) (ht : s.shaped K answer = some t) :
    Inv K t := by
  rw [shaped] at ht
  cases hf : s.inflight with
  | none => rw [hf] at ht; cases ht
  | some f =>
    rw [hf] at ht hanswer
    cases f with
    | shaping slice rest done initial =>
      cases answer with
      | none => cases hanswer
      | some shapes =>
        obtain rfl := Option.some.inj ht
        have hpending : Pending K s (slice ++ rest) done := by
          simpa [waitingOf, arrivedOf, hf, waiting, arrived] using h.pending
        have hzip : slice.zip (shapes.map fun x => x.getD []) =
            slice.map fun r => (r, shapesOf K r) := by
          have hshapes : (shapes.map fun x => x.getD []) = slice.map (shapesOf K) :=
            Option.some.inj hanswer
          rw [hshapes, ← List.map_prod_left_eq_zip]
        have hslice := pending_slice hpending
        rw [hzip, List.map_map]
        exact inv_askShapes hslice initial
    | measuring before r after initial => cases ht
    | finished => cases ht

lemma inv_settle {t : TextShapeCache T B Box G} (h : Inv K s) (ht : s.settle = some t) :
    Inv K t := by
  rw [settle] at ht
  cases hf : s.inflight with
  | none => rw [hf] at ht; cases ht
  | some f =>
    rw [hf] at ht
    cases f with
    | finished =>
      obtain rfl := Option.some.inj ht
      have hpending : Pending K s [] [] := by
        simpa [waitingOf, arrivedOf, hf, waiting, arrived] using h.pending
      have hidle : Inv K { s with inflight := none } :=
        ⟨⟨hpending.keyed, hpending.current, hpending.landed, hpending.drawn⟩,
          fun x hx => by cases hx⟩
      exact inv_flush hidle false
    | measuring before r after initial => cases ht
    | shaping slice rest done initial => cases ht

lemma inv_step {e : Event T B Box G} {t : TextShapeCache T B Box G} (h : Inv K s)
    (he : Minded K s e) (ht : step K s e = some t) : Inv K t := by
  cases e with
  | request refs initial =>
    obtain rfl := Option.some.inj ht
    exact inv_flush (inv_enqueueAll h he) initial
  | removed keys =>
    obtain rfl := Option.some.inj ht
    exact inv_removed h keys
  | connection up =>
    obtain rfl := Option.some.inj ht
    exact ⟨⟨h.pending.keyed, h.pending.current, h.pending.landed, h.pending.drawn⟩, h.ready⟩
  | extents answer => exact inv_extents h he ht
  | shaped answer => exact inv_shaped h he ht
  | settle => exact inv_settle h ht

/-- The cache as it is made, of a store whose texts it has not been told of. -/
def fresh : TextShapeCache T B Box G := {}

lemma inv_fresh : Inv K (fresh : TextShapeCache T B Box G) where
  pending :=
    { keyed := fun k r hr => by cases hr
      current := fun k r hr => by cases hr
      landed := fun k hk => by cases hk
      drawn := fun k _ => rfl }
  ready := fun x hx => by cases hx

lemma converged_of_inv (h : Inv K s) (hquiet : Quiet s) : Converged K s := by
  intro k r hr
  have hnone : s.inflight = none := Option.isNone_iff_eq_none.mp hquiet.1
  have hpending : Pending K s [] [] := by simpa [waitingOf, arrivedOf, hnone] using h.pending
  have hqueued : s.queued.get? k = none := by
    rw [OMap.get?, List.isEmpty_iff.mp hquiet.2]
    rfl
  have hshapes : s.shapes.get? k = some (shapesOf K r) := by
    simpa [hqueued, lastOf] using hpending.current k r hr
  exact ⟨hshapes, (hpending.drawn k (by simp)).trans hshapes⟩

/-- **The cache converges**, if no request fails and no text is left out of the queue that would
not have its shapes. Whenever no request is in flight or queued, every text has the shapes of its
content, and it is those that were last reported. -/
theorem converges (K : Service T B Box G) {events : List (Event T B Box G)}
    {s : TextShapeCache T B Box G} (hminded : Along (step K) (Minded K) fresh events)
    (hrun : run (step K) fresh events = some s) (hquiet : Quiet s) : Converged K s :=
  converged_of_inv
    (invariant_along (Inv K) (fun _ _ _ h he ht => inv_step h he ht) inv_fresh hminded hrun) hquiet

/-! ### Runs -/

/-- A service that draws a text as itself. -/
def plain : Service String String ℕ String where
  textHash t := t.getD ""
  boxHash b := "box|" ++ b
  textExtents := String.length
  textAsShapes t := [t]
  boxAsShapes b := [b]

def label (text : String) : TextRef String String ℕ := ⟨"label", none, .text text⟩

/-- A label that is changed while its first shapes are on their way. -/
def changedOnce : List (Event String String ℕ String) :=
  [.connection true, .request [label "A"] true, .request [label "B"] false,
    .shaped (some [some ["A"]]), .settle, .shaped (some [some ["B"]]), .settle]

/-- The cache behind some events. -/
def cacheAfter (events : List (Event String String ℕ String)) :
    TextShapeCache String String ℕ String :=
  (run (step plain) fresh events).getD fresh

lemma run_cacheAfter {events : List (Event String String ℕ String)}
    (h : (run (step plain) fresh events).isSome = true) :
    run (step plain) fresh events = some (cacheAfter events) := by
  obtain ⟨s, hs⟩ := Option.isSome_iff_exists.mp h
  rw [cacheAfter, hs, Option.getD_some]

theorem converges_changedOnce : Converged plain (cacheAfter changedOnce) :=
  converges plain (by decide +kernel) (run_cacheAfter (by decide +kernel)) (by decide +kernel)

/-- A label that is changed, and changed back while the shapes of the change are on their way. -/
def changedBack : List (Event String String ℕ String) :=
  [.connection true, .request [label "A"] true, .shaped (some [some ["A"]]), .settle,
    .request [label "B"] false, .request [label "A"] false, .shaped (some [some ["B"]]), .settle]

/-- **A change taken back is lost.** Its hash is that of the last reply for the text, so it is not
queued, and the reply for the change before it arrives last. -/
theorem changedBack_stale :
    run (step plain) fresh changedBack = some (cacheAfter changedBack) ∧
      Along (step plain) (Answered plain) fresh changedBack ∧ Quiet (cacheAfter changedBack) ∧
      ¬Converged plain (cacheAfter changedBack) := by
  refine ⟨run_cacheAfter (by decide +kernel), by decide +kernel, by decide +kernel, fun h => ?_⟩
  have htext : ((cacheAfter changedBack).texts.get? "label").map (shapesOf plain) = some ["A"] := by
    decide +kernel
  obtain ⟨r, hr, hshapes⟩ := Option.map_eq_some_iff.mp htext
  have hconverged := (h "label" r hr).1
  rw [hshapes] at hconverged
  exact absurd hconverged (by decide)

end FabPcb.TextConvergence
