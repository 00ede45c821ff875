import FabPcb.DsnClasses
import Mathlib.Data.List.Dedup
import Mathlib.Data.List.Induction

/-!
The padstacks of a DSN file, and when they are those of its pads and vias.

Padstacks are found by names that have sizes in whole micrometres and one letter for the layers. The
last pad of a name and the last size of a via's name are what the library has.
-/

namespace FabPcb.DsnPadstacks

open OrderedMap SExprText EmitterRoundTrip DsnWriter DsnPins
open DsnClasses (mem_groups)
open SpecctraData (BoardLayer Numerals RouteVia fractions digits_toDigits)

variable {input : RouteInput} {opts : DsnOptions} {nums : Numerals}

/-! ### Names -/

lemma token_inj {s t : String} (hs : dquote ∉ s.toList) (ht : dquote ∉ t.toList)
    (h : token s = token t) : s = t := by
  have hmap : ∀ {s : List Char}, dquote ∉ s → s.map apostrophe = s := fun {s} hs =>
    (List.map_congr_left fun c hc => if_neg fun heq : c = dquote => hs (heq ▸ hc)).trans
      (List.map_id s)
  rw [token_eq_iff, hmap hs, hmap ht] at h
  exact String.toList_inj.mp h

lemma int_chars {z : ℤ} {c : Char} (h : c ∈ (toString z).toList) : c.isDigit = true ∨ c = '-' := by
  cases z with
  | ofNat n =>
    have hnat : toString (Int.ofNat n) = toString n := rfl
    rw [hnat, Nat.toString_eq_ofList_toDigits, String.toList_ofList] at h
    exact Or.inl (digits_toDigits h)
  | negSucc n =>
    have hneg : toString (Int.negSucc n) = "-" ++ toString (n + 1) := rfl
    rw [hneg, String.toList_append, Nat.toString_eq_ofList_toDigits] at h
    rcases List.mem_append.mp h with h | h
    · exact Or.inr (List.mem_singleton.mp h)
    · rw [String.toList_ofList] at h
      exact Or.inl (digits_toDigits h)

/-- A character between the underscores of a padstack's name. -/
def isSize (c : Char) : Bool := c.isDigit || c = '-' || c = 'x' || c = ':'

lemma whole_chars {q : ℚ} {c : Char} (h : c ∈ (whole q).toList) : isSize c = true := by
  rcases int_chars h with h | rfl
  · rw [isSize, h]
    rfl
  · rfl

lemma isSize_ne {c : Char} (h : isSize c = true) : c ≠ '_' ∧ c ≠ dquote := by
  constructor <;> rintro rfl <;> exact absurd h (by decide)

/-- What the name of a pad's padstack begins with. -/
def stem (shape : PadShape) (side : Side) : String :=
  let kind := match shape with
    | .circle => "Round"
    | .oval => "Oval"
    | .roundrect => "RoundRect"
    | .chamferedrect => "ChamferedRect"
    | _ => "Rect"
  kind ++ "[" ++ side.letter ++ "]Pad"

def sizes (p : RoutePad) : String :=
  if p.shape = .circle then whole p.size.x else whole p.size.x ++ "x" ++ whole p.size.y

lemma padstackName_eq (p : RoutePad) (side : Side) :
    (padstackName p side).toList =
      (stem p.shape side).toList ++ '_' :: ((sizes p).toList ++ '_' :: ['u', 'm']) := by
  unfold padstackName stem sizes
  cases p.shape <;> simp [String.toList_append]

lemma stem_chars (shape : PadShape) (side : Side) :
    '_' ∉ (stem shape side).toList ∧ dquote ∉ (stem shape side).toList := by
  cases shape <;> cases side <;> decide

lemma sizes_chars {p : RoutePad} {c : Char} (h : c ∈ (sizes p).toList) : isSize c = true := by
  unfold sizes at h
  split at h
  · exact whole_chars h
  · rw [String.toList_append, String.toList_append] at h
    rcases List.mem_append.mp h with h | h
    · rcases List.mem_append.mp h with h | h
      · exact whole_chars h
      · rw [List.mem_singleton.mp h]
        rfl
    · exact whole_chars h

lemma first_unique {a a' d d' : List Char} (ha : '_' ∉ a) (ha' : '_' ∉ a')
    (h : a ++ '_' :: d = a' ++ '_' :: d') : a = a' ∧ d = d' := by
  rcases List.append_eq_append_iff.mp h with ⟨c, rfl, hc⟩ | ⟨c, rfl, hc⟩
  · cases c with
    | nil =>
      cases hc
      exact ⟨(List.append_nil a).symm, rfl⟩
    | cons e c =>
      cases hc
      exact absurd (List.mem_append_right a List.mem_cons_self) ha'
  · cases c with
    | nil =>
      cases hc
      exact ⟨List.append_nil a', rfl⟩
    | cons e c =>
      cases hc
      exact absurd (List.mem_append_right a' List.mem_cons_self) ha

lemma no_dquote_stack (p : RoutePad) (side : Side) : dquote ∉ (padstackName p side).toList := by
  rw [padstackName_eq]
  intro h
  rcases List.mem_append.mp h with h | h
  · exact (stem_chars _ _).2 h
  · rcases List.mem_cons.mp h with h | h
    · exact absurd h (by decide)
    · rcases List.mem_append.mp h with h | h
      · exact (isSize_ne (sizes_chars h)).2 rfl
      · exact absurd h (by decide)

lemma no_dquote_via (d drill : ℚ) (n : ℕ) : dquote ∉ (viaPadstackName d drill n).toList := by
  intro h
  simp only [viaPadstackName, String.toList_append, List.mem_append] at h
  rcases h with (((((h | h) | h) | h) | h) | h) | h
  · exact absurd h (by decide)
  · rcases int_chars h with h | h
    · exact absurd h (by decide)
    · exact absurd h (by decide)
  · exact absurd h (by decide)
  · exact (isSize_ne (whole_chars h)).2 rfl
  · exact absurd h (by decide)
  · exact (isSize_ne (whole_chars h)).2 rfl
  · exact absurd h (by decide)

lemma no_dquote_image (p : RoutePad) : dquote ∉ (imageOf input opts nums p).toList := by
  rw [imageOf, String.toList_append]
  intro h
  rcases List.mem_append.mp h with h | h
  · exact no_dquote_stack _ _ h
  · split at h
    · cases h
    · rw [String.toList_append] at h
      rcases List.mem_append.mp h with h | h
      · exact absurd h (by decide)
      · have hplain := nums.plain_print (some (rotationOf p))
        rw [isPlain, Bool.and_eq_true, List.all_eq_true] at hplain
        exact absurd (hplain.2 _ h) (by decide)

lemma stack_of_image {p q : RoutePad} (h : imageOf input opts nums p = imageOf input opts nums q) :
    stackOf input opts p = stackOf input opts q := by
  have hlist := congrArg String.toList h
  rw [imageOf, imageOf, String.toList_append, String.toList_append, stackOf, stackOf,
    padstackName_eq, padstackName_eq, List.append_assoc, List.append_assoc, List.cons_append,
    List.cons_append, List.append_assoc, List.append_assoc] at hlist
  obtain ⟨hstem, hrest⟩ := first_unique (stem_chars _ _).1 (stem_chars _ _).1 hlist
  obtain ⟨hsizes, -⟩ := first_unique (fun h => (isSize_ne (sizes_chars h)).1 rfl)
    (fun h => (isSize_ne (sizes_chars h)).1 rfl) hrest
  refine String.toList_inj.mp ?_
  rw [stackOf, stackOf, padstackName_eq, padstackName_eq, hstem, hsizes]

lemma stack_ne_via {p : RoutePad} {size : ℚ × ℚ} :
    token (stackOf input opts p) ≠ token (viaName input opts size) := by
  intro h
  have heq : stackOf input opts p = viaName input opts size :=
    token_inj (no_dquote_stack _ _) (no_dquote_via _ _ _) h
  have hpad : (stackOf input opts p).toList.head? =
      (stem p.shape (padSide input opts p)).toList.head? := by
    rw [stackOf, padstackName_eq]
    cases p.shape <;> cases padSide input opts p <;> rfl
  have hvia : (viaName input opts size).toList.head? = some 'V' := by
    simp only [viaName, viaPadstackName, String.toList_append, List.append_assoc]
    rfl
  rw [heq, hvia] at hpad
  revert hpad
  cases p.shape <;> cases padSide input opts p <;> decide

/-! ### The last of a name -/

section OfList

variable {κ ν : Type} [DecidableEq κ]

lemma get?_ofList_eq (es : List (κ × ν)) (k : κ) :
    (OMap.ofList es).get? k = ((es.filter (·.1 = k)).getLast?).map Prod.snd := by
  induction es using List.reverseRecOn with
  | nil => rfl
  | append_singleton es e ih =>
    rw [OMap.ofList, List.foldl_append, List.foldl_cons, List.foldl_nil, OMap.get?_set,
      List.filter_append]
    by_cases h : k = e.1
    · rw [if_pos h, List.filter_cons_of_pos (by simp [h]), List.filter_nil,
        List.getLast?_concat]
      rfl
    · rw [if_neg h, List.filter_cons_of_neg (by simp [Ne.symm h]), List.filter_nil,
        List.append_nil]
      exact ih

end OfList

/-! ### Layers -/

/-- The name of a layer, as it is written. -/
def layerToken (input : RouteInput) (l : BoardLayer) : Token :=
  token (exportedLayer input l).userName

lemma exportedLayer_id (l : BoardLayer) : (exportedLayer input l).id = l := by
  unfold exportedLayer
  cases hfind : input.copperLayers.find? (·.id = l) with
  | none => rfl
  | some found =>
    have hid := List.find?_some hfind
    exact of_decide_eq_true hid

lemma nodup_layerIds : (layerIds input opts).Nodup := by
  exact ((List.perm_insertionSort _ _).nodup_iff).mpr (List.nodup_dedup _)

/-- A layer of the file is found under its name, and no other is. -/
lemma layerName_eq (l : BoardLayer) : (layerName input opts).get? l =
    if l ∈ layerIds input opts then some (exportedLayer input l).userName else none := by
  have hkeys : ((layers input opts).map fun l => (l.id, l.userName)).map Prod.fst =
      layerIds input opts := by
    rw [layers, List.map_map, List.map_map]
    exact (List.map_congr_left fun l _ => exportedLayer_id l).trans (List.map_id _)
  split
  next h =>
    have hmem : (l, (exportedLayer input l).userName) ∈
        (layers input opts).map fun l => (l.id, l.userName) := by
      refine List.mem_map.mpr ⟨exportedLayer input l, List.mem_map_of_mem h, ?_⟩
      rw [exportedLayer_id]
    exact get?_ofList (by rw [hkeys]; exact nodup_layerIds) hmem
  next h =>
    have hnone : ((layers input opts).map fun l => (l.id, l.userName)).filter (·.1 = l) = [] := by
      refine List.filter_eq_nil_iff.mpr fun e he hl => h ?_
      rw [← hkeys, ← of_decide_eq_true hl]
      exact List.mem_map_of_mem he
    rw [layerName, get?_ofList_eq, hnone]
    rfl

lemma lname_eq_some {l : BoardLayer} {name : String} : lname input opts l = some name ↔
    l ∈ layerIds input opts ∧ (exportedLayer input l).userName = name ∧ name ≠ "" := by
  rw [lname, layerName_eq]
  split
  next h => simp [h]
  next h => simp [h]

/-! ### What a padstack stands for -/

/-- The shapes of a padstack are on the layers of the file that copper is on. -/
structure Copper (input : RouteInput) (opts : DsnOptions) (geometry : Geometry)
    (on : List BoardLayer) (s : Padstack) : Prop where
  geometry : ∀ shape ∈ s.shapes, shape.geometry = geometry
  layers : ∀ l ∈ layerIds input opts,
    (∃ shape ∈ s.shapes, shape.layer = layerToken input l) ↔ l ∈ on

/-- The padstack of the pin of an image. -/
def Resolves (d : Dsn) (image : Token) (s : Padstack) : Prop :=
  ∃ i ∈ d.images, i.name = image ∧ s ∈ d.padstacks ∧ s.name = i.padstack

/-- Every reference is to a padstack, and that has the copper of what refers to it: of a pad, of a via
of the board, or of a class's via, which goes through every layer. -/
structure Faithful (nums : Numerals) (input : RouteInput) (opts : DsnOptions) : Prop where
  padsFound : ∀ p ∈ pads input opts,
    ∃ s, Resolves (writeDsn nums input opts) (token (imageOf input opts nums p)) s
  pads : ∀ p ∈ pads input opts, ∀ s,
    Resolves (writeDsn nums input opts) (token (imageOf input opts nums p)) s →
      Copper input opts (padGeometry p) p.layers s
  viasFound : ∀ v ∈ input.vias, ∃ s ∈ (writeDsn nums input opts).padstacks,
    s.name = (viaUseOf input opts v).padstack
  vias : ∀ v ∈ input.vias, ∀ s ∈ (writeDsn nums input opts).padstacks,
    s.name = (viaUseOf input opts v).padstack →
      Copper input opts (.circle (um v.diameter)) v.layers s
  classesFound : ∀ e ∈ (byClass input opts).entries, ∃ s ∈ (writeDsn nums input opts).padstacks,
    s.name = (classOf input opts e).via
  classes : ∀ e ∈ (byClass input opts).entries, ∀ s ∈ (writeDsn nums input opts).padstacks,
    s.name = (classOf input opts e).via →
      Copper input opts (.circle (um e.2.rules.viaDiameter)) (layerIds input opts) s

/-- The last size of a name. -/
def lastSize (input : RouteInput) (opts : DsnOptions) (name : String) : Option (ℚ × ℚ) :=
  ((viaSizes input opts).filter fun size => viaName input opts size = name).getLast?

/-- The last size of a name is as large, if the file has a layer. -/
def Sized (input : RouteInput) (opts : DsnOptions) (size : ℚ × ℚ) : Prop :=
  layerIds input opts ≠ [] → ∀ last, lastSize input opts (viaName input opts size) = some last →
    um last.1 = um size.1

/-- The condition: the layers that pads are on have names that tell them apart, pads of one name are
alike, and vias go through every layer and are as large as the last of their name. -/
structure ToldApart (input : RouteInput) (opts : DsnOptions) : Prop where
  named : ∀ p ∈ pads input opts, ∀ l ∈ layerIds input opts, l ∈ p.layers →
    (exportedLayer input l).userName ≠ ""
  spelled : ∀ p ∈ pads input opts, ∀ l ∈ layerIds input opts, ∀ l' ∈ layerIds input opts,
    layerToken input l = layerToken input l' → l ∈ p.layers → l' ∈ p.layers
  alike : ∀ p ∈ pads input opts, ∀ q ∈ pads input opts, stackOf input opts p = stackOf input opts q →
    padGeometry p = padGeometry q ∧ ∀ l ∈ layerIds input opts, l ∈ p.layers ↔ l ∈ q.layers
  through : ∀ v ∈ input.vias, ∀ l ∈ layerIds input opts, l ∈ v.layers
  vias : ∀ v ∈ input.vias, Sized input opts (v.diameter, v.drill)
  classes : ∀ e ∈ (byClass input opts).entries, Sized input opts (ruleVia e.2.rules)

/-! ### Pads -/

lemma get?_images (ps : List RoutePad) (m : OMap String RoutePad) (name : String) :
    (ps.foldl (fun m p => if m.has (imageOf input opts nums p) then m
      else m.set (imageOf input opts nums p) p) m).get? name =
        (m.get? name).or (ps.find? fun p => imageOf input opts nums p = name) := by
  induction ps generalizing m with
  | nil => rw [List.foldl_nil, List.find?_nil, Option.or_none]
  | cons p ps ih =>
    rw [List.foldl_cons, ih]
    by_cases hname : imageOf input opts nums p = name
    · rw [List.find?_cons_of_pos (by simpa using hname)]
      split
      next h =>
        obtain ⟨q, hq⟩ := OMap.has_iff.mp h
        rw [← hname, hq]
        rfl
      next h =>
        have hnone := OMap.has_eq_false_iff.mp (Bool.eq_false_iff.mpr h)
        rw [OMap.get?_set, if_pos hname.symm, ← hname, hnone]
        rfl
    · rw [List.find?_cons_of_neg (by simpa using hname)]
      split
      · rfl
      · rw [OMap.get?_set, if_neg (Ne.symm hname)]

lemma mem_images {e : String × RoutePad} : e ∈ (images input opts nums).entries ↔
    (pads input opts).find? (fun p => imageOf input opts nums p = e.1) = some e.2 := by
  rw [← OMap.get?_eq_some_iff, images, get?_images, OMap.get?_empty, Option.none_or]

lemma get?_padStacks (name : String) : (padStacks input opts).get? name =
    ((pads input opts).filter fun p => stackOf input opts p = name).getLast? := by
  rw [padStacks, get?_ofList_eq, List.filter_map, List.getLast?_map, Option.map_map]
  exact Option.map_id'

lemma of_padStacks {name : String} {q : RoutePad} (h : (padStacks input opts).get? name = some q) :
    q ∈ pads input opts ∧ stackOf input opts q = name := by
  rw [get?_padStacks] at h
  obtain ⟨hq, hname⟩ := List.mem_filter.mp (List.mem_of_getLast? h)
  exact ⟨hq, of_decide_eq_true hname⟩

lemma exists_last {p : RoutePad} (hp : p ∈ pads input opts) :
    ∃ q, (padStacks input opts).get? (stackOf input opts p) = some q := by
  rw [get?_padStacks]
  refine Option.ne_none_iff_exists'.mp fun hnone => ?_
  exact List.filter_eq_nil_iff.mp (List.getLast?_eq_none_iff.mp hnone) p hp (decide_eq_true rfl)

lemma get?_viaNames (name : String) :
    (viaNames input opts).get? name = lastSize input opts name := by
  rw [viaNames, get?_ofList_eq, List.filter_map, List.getLast?_map, Option.map_map]
  exact Option.map_id'

lemma name_of_lastSize {name : String} {size : ℚ × ℚ} (h : lastSize input opts name = some size) :
    viaName input opts size = name :=
  of_decide_eq_true (List.mem_filter.mp (List.mem_of_getLast? h)).2

lemma padstack_of_pad {p : RoutePad} {s : Padstack} :
    s ∈ padstackForms input opts ∧ s.name = token (stackOf input opts p) ↔
      ∃ q, (padStacks input opts).get? (stackOf input opts p) = some q ∧
        s = ⟨token (stackOf input opts p), padShapes input opts q⟩ := by
  constructor
  · rintro ⟨hs, hname⟩
    rcases List.mem_append.mp hs with hs | hs
    · obtain ⟨e, he, rfl⟩ := List.mem_map.mp hs
      have hget := OMap.get?_eq_some_iff.mpr he
      obtain ⟨-, hstack⟩ := of_padStacks hget
      have hkey : e.1 = stackOf input opts p := by
        rw [← hstack] at hname ⊢
        exact token_inj (no_dquote_stack _ _) (no_dquote_stack _ _) hname
      exact ⟨e.2, by rw [← hkey, hget], by rw [← hkey]⟩
    · obtain ⟨e, he, rfl⟩ := List.mem_map.mp hs
      have hget := OMap.get?_eq_some_iff.mpr he
      rw [get?_viaNames] at hget
      have hsize : e.1 = viaName input opts e.2 := (name_of_lastSize hget).symm
      change token e.1 = _ at hname
      rw [hsize] at hname
      exact absurd hname.symm stack_ne_via
  · rintro ⟨q, hq, rfl⟩
    exact ⟨List.mem_append_left _ (List.mem_map.mpr ⟨_, OMap.get?_eq_some_iff.mp hq, rfl⟩), rfl⟩

lemma mem_padShapes {q : RoutePad} {shape : Shape} : shape ∈ padShapes input opts q ↔
    ∃ l ∈ q.layers, l ∈ layerIds input opts ∧ (exportedLayer input l).userName ≠ "" ∧
      shape = ⟨layerToken input l, padGeometry q⟩ := by
  simp only [padShapes, List.mem_map, List.mem_filterMap, lname_eq_some]
  constructor
  · rintro ⟨name, ⟨l, hl, hlayer, rfl, hne⟩, rfl⟩
    exact ⟨l, hl, hlayer, hne, rfl⟩
  · rintro ⟨l, hl, hlayer, hne, rfl⟩
    exact ⟨_, ⟨l, hl, hlayer, rfl, hne⟩, rfl⟩

lemma exists_layer {p : RoutePad} (hp : p ∈ pads input opts) :
    ∃ l ∈ layerIds input opts, l ∈ p.layers := by
  rw [pads, List.mem_filter, Bool.and_eq_true, Bool.and_eq_true, List.any_eq_true] at hp
  obtain ⟨-, ⟨⟨l, hl, hhas⟩, -⟩, -⟩ := hp
  rw [OMap.has_iff_ne, layerName_eq] at hhas
  refine ⟨l, ?_, hl⟩
  by_contra h
  exact hhas (if_neg h)

lemma named_of_token {l l' : BoardLayer} (h : layerToken input l = layerToken input l')
    (hne : (exportedLayer input l).userName ≠ "") : (exportedLayer input l').userName ≠ "" := by
  intro hempty
  rw [layerToken, layerToken, hempty, token_eq_iff] at h
  exact hne (String.toList_inj.mp (List.map_eq_nil_iff.mp h))

/-- The padstack of every pad is drawn like the pad. -/
def PadsDrawn (input : RouteInput) (opts : DsnOptions) : Prop :=
  ∀ p ∈ pads input opts, ∀ q, (padStacks input opts).get? (stackOf input opts p) = some q →
    Copper input opts (padGeometry p) p.layers
      ⟨token (stackOf input opts p), padShapes input opts q⟩

lemma PadsDrawn.named (h : PadsDrawn input opts) {p : RoutePad} (hp : p ∈ pads input opts)
    {l : BoardLayer} (hlayer : l ∈ layerIds input opts) (hl : l ∈ p.layers) :
    (exportedLayer input l).userName ≠ "" := by
  obtain ⟨q, hq⟩ := exists_last hp
  obtain ⟨shape, hshape, htoken⟩ := ((h p hp q hq).layers l hlayer).mpr hl
  obtain ⟨l', -, -, hne, rfl⟩ := mem_padShapes.mp hshape
  exact named_of_token htoken hne

lemma PadsDrawn.spelled (h : PadsDrawn input opts) {p : RoutePad} (hp : p ∈ pads input opts)
    {l l' : BoardLayer} (hlayer : l ∈ layerIds input opts) (hlayer' : l' ∈ layerIds input opts)
    (htoken : layerToken input l = layerToken input l') (hl : l ∈ p.layers) : l' ∈ p.layers := by
  obtain ⟨q, hq⟩ := exists_last hp
  have hdrawn := (h p hp q hq).layers
  obtain ⟨shape, hshape, heq⟩ := (hdrawn l hlayer).mpr hl
  exact (hdrawn l' hlayer').mp ⟨shape, hshape, heq.trans htoken⟩

lemma PadsDrawn.like_last (h : PadsDrawn input opts) {p q : RoutePad} (hp : p ∈ pads input opts)
    (hq : (padStacks input opts).get? (stackOf input opts p) = some q) :
    padGeometry q = padGeometry p ∧ ∀ l ∈ layerIds input opts, l ∈ p.layers ↔ l ∈ q.layers := by
  obtain ⟨hpad, hstack⟩ := of_padStacks hq
  have hdrawn := h p hp q hq
  have hself := h q hpad q (by rw [hstack, hq])
  constructor
  · obtain ⟨l, hlayer, hl⟩ := exists_layer hp
    obtain ⟨shape, hshape, -⟩ := (hdrawn.layers l hlayer).mpr hl
    exact (hself.geometry shape hshape).symm.trans (hdrawn.geometry shape hshape)
  · exact fun l hlayer => (hdrawn.layers l hlayer).symm.trans (hself.layers l hlayer)

lemma PadsDrawn.alike (h : PadsDrawn input opts) {p q : RoutePad} (hp : p ∈ pads input opts)
    (hq : q ∈ pads input opts) (hstack : stackOf input opts p = stackOf input opts q) :
    padGeometry p = padGeometry q ∧ ∀ l ∈ layerIds input opts, l ∈ p.layers ↔ l ∈ q.layers := by
  obtain ⟨r, hr⟩ := exists_last hp
  obtain ⟨hgeometry, hlayers⟩ := h.like_last hp hr
  obtain ⟨hgeometry', hlayers'⟩ := h.like_last hq (by rw [← hstack, hr])
  exact ⟨hgeometry.symm.trans hgeometry',
    fun l hlayer => (hlayers l hlayer).trans (hlayers' l hlayer).symm⟩

lemma ToldApart.padsDrawn (h : ToldApart input opts) : PadsDrawn input opts := by
  intro p hp q hq
  obtain ⟨hpad, hstack⟩ := of_padStacks hq
  obtain ⟨hgeometry, hlayers⟩ := h.alike p hp q hpad hstack.symm
  refine ⟨fun shape hshape => ?_, fun l hlayer => ⟨?_, fun hl => ?_⟩⟩
  · obtain ⟨l, -, -, -, rfl⟩ := mem_padShapes.mp hshape
    exact hgeometry.symm
  · rintro ⟨shape, hshape, htoken⟩
    obtain ⟨l', hl', hlayer', -, rfl⟩ := mem_padShapes.mp hshape
    exact h.spelled p hp l' hlayer' l hlayer htoken ((hlayers l' hlayer').mpr hl')
  · exact ⟨_, mem_padShapes.mpr ⟨l, (hlayers l hlayer).mp hl, hlayer, h.named p hp l hlayer hl, rfl⟩,
      rfl⟩

/-- The padstack of an image is that of each of its pads. -/
lemma resolves_iff {p : RoutePad} (hp : p ∈ pads input opts) {s : Padstack} :
    Resolves (writeDsn nums input opts) (token (imageOf input opts nums p)) s ↔
      s ∈ padstackForms input opts ∧ s.name = token (stackOf input opts p) := by
  constructor
  · rintro ⟨i, hi, hname, hs, heq⟩
    obtain ⟨e, he, rfl⟩ := List.mem_map.mp hi
    have hfind := mem_images.mp he
    have himage : imageOf input opts nums e.2 = e.1 := by
      have hfound := List.find?_some hfind
      exact of_decide_eq_true hfound
    have hsame : imageOf input opts nums e.2 = imageOf input opts nums p := by
      rw [← himage] at hname
      exact token_inj (no_dquote_image _) (no_dquote_image _) hname
    rw [← stack_of_image hsame]
    exact ⟨hs, heq⟩
  · rintro ⟨hs, hname⟩
    obtain ⟨q, hq⟩ : ∃ q, (pads input opts).find? (fun q => imageOf input opts nums q =
        imageOf input opts nums p) = some q :=
      Option.isSome_iff_exists.mp (List.find?_isSome.mpr ⟨p, hp, decide_eq_true rfl⟩)
    have hsame : imageOf input opts nums q = imageOf input opts nums p := by
      have hfound := List.find?_some hq
      exact of_decide_eq_true hfound
    have hentry : (imageOf input opts nums p, q) ∈ (images input opts nums).entries :=
      mem_images.mpr hq
    refine ⟨_, List.mem_map_of_mem hentry, rfl, hs, ?_⟩
    rw [hname, ← stack_of_image hsame]

lemma Faithful.padsDrawn (h : Faithful nums input opts) : PadsDrawn input opts := by
  intro p hp q hq
  refine h.pads p hp _ ((resolves_iff hp).mpr ?_)
  exact padstack_of_pad.mpr ⟨q, hq, rfl⟩

/-! ### Vias -/

/-- The padstack of a via's size. -/
def viaPadstack (input : RouteInput) (opts : DsnOptions) (name : String) (size : ℚ × ℚ) :
    Padstack :=
  ⟨token name, (layers input opts).map fun l => ⟨token l.userName, .circle (um size.1)⟩⟩

lemma padstack_of_via {size : ℚ × ℚ} {s : Padstack} :
    s ∈ padstackForms input opts ∧ s.name = token (viaName input opts size) ↔
      ∃ last, lastSize input opts (viaName input opts size) = some last ∧
        s = viaPadstack input opts (viaName input opts size) last := by
  constructor
  · rintro ⟨hs, hname⟩
    rcases List.mem_append.mp hs with hs | hs
    · obtain ⟨e, he, rfl⟩ := List.mem_map.mp hs
      have hstack := (of_padStacks (OMap.get?_eq_some_iff.mpr he)).2
      rw [← hstack] at hname
      exact absurd hname stack_ne_via
    · obtain ⟨e, he, rfl⟩ := List.mem_map.mp hs
      have hget := OMap.get?_eq_some_iff.mpr he
      rw [get?_viaNames] at hget
      have hsize := name_of_lastSize hget
      change token e.1 = _ at hname
      have hkey : e.1 = viaName input opts size := by
        rw [← hsize] at hname ⊢
        exact token_inj (no_dquote_via _ _ _) (no_dquote_via _ _ _) hname
      refine ⟨e.2, by rw [← hkey, hget], ?_⟩
      rw [← hkey]
      rfl
  · rintro ⟨last, hlast, rfl⟩
    rw [← get?_viaNames] at hlast
    exact ⟨List.mem_append_right _
      (List.mem_map.mpr ⟨_, OMap.get?_eq_some_iff.mp hlast, rfl⟩), rfl⟩

lemma exists_lastSize {size : ℚ × ℚ} (h : size ∈ viaSizes input opts) :
    ∃ last, lastSize input opts (viaName input opts size) = some last := by
  refine Option.ne_none_iff_exists'.mp fun hnone => ?_
  exact List.filter_eq_nil_iff.mp (List.getLast?_eq_none_iff.mp hnone) size h (decide_eq_true rfl)

/-- A via's padstack is on every layer. -/
lemma copper_via {name : String} {size : ℚ × ℚ} {d : ℚ} {on : List BoardLayer} :
    Copper input opts (.circle d) on (viaPadstack input opts name size) ↔
      (layerIds input opts ≠ [] → um size.1 = d) ∧ ∀ l ∈ layerIds input opts, l ∈ on := by
  have hmem : ∀ l ∈ layerIds input opts,
      (⟨layerToken input l, .circle (um size.1)⟩ : Shape) ∈
        (viaPadstack input opts name size).shapes :=
    fun l hl => List.mem_map.mpr ⟨_, List.mem_map_of_mem hl, rfl⟩
  constructor
  · intro h
    refine ⟨fun hne => ?_, fun l hl => (h.layers l hl).mp ⟨_, hmem l hl, rfl⟩⟩
    obtain ⟨l, hl⟩ := List.exists_mem_of_ne_nil _ hne
    exact Geometry.circle.inj (h.geometry _ (hmem l hl))
  · rintro ⟨hsize, hon⟩
    refine ⟨fun shape hshape => ?_, fun l hl => ⟨fun _ => hon l hl, fun _ => ⟨_, hmem l hl, rfl⟩⟩⟩
    obtain ⟨layer, hlayer, rfl⟩ := List.mem_map.mp hshape
    obtain ⟨l, hl, rfl⟩ := List.mem_map.mp hlayer
    exact congrArg Geometry.circle (hsize (List.ne_nil_of_mem hl))

/-- What a name for a size refers to has the size's copper exactly when the last size of the name is
as large and the copper is on every layer. -/
lemma viaDrawn_iff {size : ℚ × ℚ} (h : size ∈ viaSizes input opts) {on : List BoardLayer} :
    (∀ s ∈ padstackForms input opts, s.name = token (viaName input opts size) →
      Copper input opts (.circle (um size.1)) on s) ↔
        Sized input opts size ∧ ∀ l ∈ layerIds input opts, l ∈ on := by
  constructor
  · intro hdrawn
    have hcopper : ∀ last, lastSize input opts (viaName input opts size) = some last →
        (layerIds input opts ≠ [] → um last.1 = um size.1) ∧ ∀ l ∈ layerIds input opts, l ∈ on := by
      intro last hlast
      obtain ⟨hs, hname⟩ := padstack_of_via.mpr ⟨last, hlast, rfl⟩
      exact copper_via.mp (hdrawn _ hs hname)
    obtain ⟨last, hlast⟩ := exists_lastSize h
    exact ⟨fun hne last hlast => (hcopper last hlast).1 hne, (hcopper last hlast).2⟩
  · rintro ⟨hsized, hon⟩ s hs hname
    obtain ⟨last, hlast, rfl⟩ := padstack_of_via.mp ⟨hs, hname⟩
    exact copper_via.mpr ⟨fun hne => hsized hne last hlast, hon⟩

lemma exists_padstack {size : ℚ × ℚ} (h : size ∈ viaSizes input opts) :
    ∃ s ∈ padstackForms input opts, s.name = token (viaName input opts size) := by
  obtain ⟨last, hlast⟩ := exists_lastSize h
  obtain ⟨hs, hname⟩ := padstack_of_via.mpr ⟨last, hlast, rfl⟩
  exact ⟨_, hs, hname⟩

lemma size_of_via {v : RouteVia} (h : v ∈ input.vias) :
    (v.diameter, v.drill) ∈ viaSizes input opts := by
  refine List.mem_cons_of_mem _ (List.mem_append_left _ (List.mem_append_right _ ?_))
  exact List.mem_map_of_mem h

lemma viaUseOf_padstack (v : RouteVia) :
    (viaUseOf input opts v).padstack = token (viaName input opts (v.diameter, v.drill)) := by
  rw [viaUseOf]

lemma classOf_via (e : String × Group) :
    (classOf input opts e).via = token (viaName input opts (ruleVia e.2.rules)) := by
  rw [classOf]

lemma size_of_class {e : String × Group} (h : e ∈ (byClass input opts).entries) :
    ruleVia e.2.rules ∈ viaSizes input opts := by
  obtain ⟨first, -, -, -, hgroup⟩ := mem_groups.mp h
  rw [hgroup]
  unfold rulesForNet
  cases hrule : input.rules.perNet.get? first with
  | none => exact List.mem_cons_self
  | some r =>
    refine List.mem_cons_of_mem _ (List.mem_append_left _ (List.mem_append_left _ ?_))
    exact List.mem_map_of_mem (OMap.mem_values_iff.mpr ⟨first, hrule⟩)

def smaller : RoutePad := samplePad "a" "1" "GND"

def larger : RoutePad := { samplePad "b" "2" "GND" with size := ⟨600400, 600400⟩ }

def nearlyEqual : RouteInput := { thermal with pads := [smaller, larger] }

end FabPcb.DsnPadstacks
