import FabPcb.DsnWriter
import FabPcb.FreshNames

/-!
The pins of a DSN file, and when each stands for one pad.

A pad is a component of its own, under its footprint's reference and its number. A name that has been
seen gets the number of times, and the longer name may be another pad's own.
-/

namespace FabPcb.DsnPins

open OrderedMap SExprText EmitterRoundTrip DsnWriter
open SpecctraData (Vec2 Numerals fractions readDigits readDigits_toDigits digits_toDigits)

/-! ### Tokens -/

/-- A character that makes the writer quote. -/
def isSpecial (c : Char) : Bool := !isBare c || c = '\'' || c = ';'

lemma needsQuotes_map (s : List Char) : needsQuotes s = (s.map apostrophe).any isSpecial := by
  rw [List.any_map]
  refine congrArg s.any (funext fun c => ?_)
  unfold apostrophe
  simp only [Function.comp]
  split
  next h =>
    subst h
    rfl
  · rfl

lemma dquote_mem {s : List Char} (h : dquote ∈ s) : needsQuotes s = true :=
  List.any_eq_true.mpr ⟨dquote, h, rfl⟩

lemma map_apostrophe {s : List Char} (h : needsQuotes s = false) : s.map apostrophe = s := by
  refine (List.map_congr_left fun c hc => ?_).trans (List.map_id s)
  refine if_neg fun heq => ?_
  subst heq
  rw [dquote_mem hc] at h
  cases h

/-- Two names are written alike when they differ in quotation marks and apostrophes only. -/
lemma quote_eq_iff {s t : List Char} : quote s = quote t ↔ s.map apostrophe = t.map apostrophe := by
  have hempty : ∀ {s : List Char}, quote [] = quote s → s = [] := by
    intro s h
    cases s with
    | nil => rfl
    | cons c s =>
      rw [quote, quote, if_pos rfl, if_neg (List.cons_ne_nil c s)] at h
      split at h
      · have hlength := congrArg List.length h
        simp at hlength
      next hbare =>
        rw [← h] at hbare
        exact absurd (dquote_mem List.mem_cons_self) hbare
  by_cases hs : s = []
  · subst hs
    refine ⟨fun h => by rw [hempty h], fun h => ?_⟩
    rw [List.map_eq_nil_iff.mp h.symm]
  by_cases ht : t = []
  · subst ht
    refine ⟨fun h => absurd (hempty h.symm) hs, fun h => ?_⟩
    exact absurd (List.map_eq_nil_iff.mp h) hs
  rw [quote, quote, if_neg hs, if_neg ht]
  cases hqs : needsQuotes s with
  | true =>
    cases hqt : needsQuotes t with
    | true => simp
    | false =>
      refine iff_of_false (fun h => ?_) (fun h => ?_)
      · have hmem : dquote ∈ t := by
          rw [if_pos rfl, if_neg (by decide)] at h
          rw [← h]
          exact List.mem_cons_self
        rw [dquote_mem hmem] at hqt
        cases hqt
      · rw [needsQuotes_map, h, ← needsQuotes_map, hqt] at hqs
        cases hqs
  | false =>
    cases hqt : needsQuotes t with
    | true =>
      refine iff_of_false (fun h => ?_) (fun h => ?_)
      · have hmem : dquote ∈ s := by
          rw [if_neg (by decide)] at h
          rw [h]
          exact List.mem_cons_self
        rw [dquote_mem hmem] at hqs
        cases hqs
      · rw [needsQuotes_map, ← h, ← needsQuotes_map, hqs] at hqt
        cases hqt
    | false => rw [map_apostrophe hqs, map_apostrophe hqt]; simp

lemma token_eq_iff {s t : String} :
    token s = token t ↔ s.toList.map apostrophe = t.toList.map apostrophe := quote_eq_iff

lemma token_append {s t u : String} : token (s ++ u) = token (t ++ u) ↔ token s = token t := by
  rw [token_eq_iff, token_eq_iff, String.toList_append, String.toList_append, List.map_append,
    List.map_append, List.append_left_inj]

/-! ### Numbered names -/

/-- What a number of times adds to a name. -/
def suffix (k : ℕ) : List Char := if k = 0 then [] else '_' :: Nat.toDigits 10 k

lemma numbered_toList (b : String) (k : ℕ) : (numbered b k).toList = b.toList ++ suffix k := by
  unfold numbered suffix
  split
  · rw [List.append_nil]
  · rw [String.toList_append, String.toList_append, List.append_assoc,
      Nat.toString_eq_ofList_toDigits, String.toList_ofList, String.toList_ofList]
    rfl

lemma digit_plain {c : Char} (h : c.isDigit = true) : apostrophe c = c ∧ c ≠ '_' := by
  refine ⟨if_neg fun heq => ?_, fun heq => ?_⟩
  · subst heq
    exact absurd h (by decide)
  · subst heq
    exact absurd h (by decide)

lemma suffix_plain (k : ℕ) : (suffix k).map apostrophe = suffix k := by
  unfold suffix
  split
  · rfl
  · refine congrArg₂ List.cons rfl ?_
    exact (List.map_congr_left fun c hc => (digit_plain (digits_toDigits hc)).1).trans (List.map_id _)

lemma digits_inj {k k' : ℕ} (h : Nat.toDigits 10 k = Nat.toDigits 10 k') : k = k' := by
  have hread := congrArg readDigits h
  rw [readDigits_toDigits, readDigits_toDigits] at hread
  exact Option.some.inj hread

lemma token_numbered {b b' : String} {k k' : ℕ} (hk : k = 0 ↔ k' = 0) :
    token (numbered b k) = token (numbered b' k') ↔ token b = token b' ∧ k = k' := by
  have hdigits : ∀ k, '_' ∉ Nat.toDigits 10 k := fun k h => (digit_plain (digits_toDigits h)).2 rfl
  rw [token_eq_iff, token_eq_iff, numbered_toList, numbered_toList, List.map_append,
    List.map_append, suffix_plain, suffix_plain]
  constructor
  · intro h
    by_cases hzero : k = 0
    · have hzero' := hk.mp hzero
      subst hzero hzero'
      exact ⟨List.append_cancel_right h, rfl⟩
    · rw [suffix, suffix, if_neg hzero, if_neg (fun h => hzero (hk.mpr h))] at h
      obtain ⟨hb, hd⟩ := FreshNames.last_unique (hdigits k) (hdigits k') h
      exact ⟨hb, digits_inj hd⟩
  · rintro ⟨h, rfl⟩
    rw [h]

/-! ### Counting -/

/-- Names with the number of times that they have been seen. -/
def counted (seen : String → ℕ) : List String → List (String × ℕ)
  | [] => []
  | b :: bs => (b, seen b) :: counted (Function.update seen b (seen b + 1)) bs

lemma mem_counted {seen : String → ℕ} {bs : List String} {b : String} {k : ℕ} :
    (b, k) ∈ counted seen bs ↔ seen b ≤ k ∧ k < seen b + bs.count b := by
  induction bs generalizing seen with
  | nil => simp [counted]
  | cons a bs ih =>
    rw [counted, List.mem_cons, ih, Prod.mk.injEq]
    by_cases hab : b = a
    · subst hab
      rw [Function.update_self, List.count_cons_self]
      simp only [true_and]
      omega
    · rw [List.count_cons_of_ne (Ne.symm hab)]
      simp [hab, false_and, false_or]

lemma nodup_counted (seen : String → ℕ) (bs : List String) : (counted seen bs).Nodup := by
  induction bs generalizing seen with
  | nil => exact List.nodup_nil
  | cons b bs ih =>
    refine List.nodup_cons.mpr ⟨fun h => ?_, ih _⟩
    have hseen := (mem_counted.mp h).1
    rw [Function.update_self] at hseen
    omega

lemma compNames_snd (seen : OMap String ℕ) (ps : List RoutePad) :
    (compNames seen ps).map Prod.snd =
      (counted (fun b => (seen.get? b).getD 0) (ps.map compName)).map fun e => numbered e.1 e.2 := by
  induction ps generalizing seen with
  | nil => rfl
  | cons p ps ih =>
    have hseen : (fun b => ((seen.set (compName p) ((seen.get? (compName p)).getD 0 + 1)).get?
        b).getD 0) = Function.update (fun b => (seen.get? b).getD 0) (compName p)
          ((seen.get? (compName p)).getD 0 + 1) := by
      funext b
      rw [OMap.get?_set, Function.update_apply]
      split <;> rfl
    rw [compNames, List.map_cons, ih, hseen]
    rfl

lemma compNames_fst (seen : OMap String ℕ) (ps : List RoutePad) :
    (compNames seen ps).map Prod.fst = ps.map (·.id) := by
  induction ps generalizing seen with
  | nil => rfl
  | cons p ps ih => rw [compNames, List.map_cons, ih, List.map_cons]

section OfList

variable {κ ν : Type} [DecidableEq κ]

lemma get?_foldl_set {es : List (κ × ν)} {m : OMap κ ν} {k : κ} (h : k ∉ es.map Prod.fst) :
    (es.foldl (fun m e => m.set e.1 e.2) m).get? k = m.get? k := by
  induction es generalizing m with
  | nil => rfl
  | cons e es ih =>
    rw [List.map_cons, List.mem_cons, not_or] at h
    rw [List.foldl_cons, ih h.2, OMap.get?_set, if_neg h.1]

lemma get?_ofList {es : List (κ × ν)} (h : (es.map Prod.fst).Nodup) {e : κ × ν} (he : e ∈ es) :
    (OMap.ofList es).get? e.1 = some e.2 := by
  obtain ⟨before, after, rfl⟩ := List.append_of_mem he
  rw [List.map_append] at h
  have hafter : e.1 ∉ after.map Prod.fst := (List.nodup_cons.mp (List.nodup_append.mp h).2.1).1
  rw [OMap.ofList, List.foldl_append, List.foldl_cons, get?_foldl_set hafter, OMap.get?_set,
    if_pos rfl]

end OfList

variable {input : RouteInput} {opts : DsnOptions} {nums : Numerals}

lemma componentNames_eq (h : ((pads input opts).map (·.id)).Nodup) :
    (pads input opts).map (componentName input opts) =
      (counted (fun _ => 0) ((pads input opts).map compName)).map fun e => numbered e.1 e.2 := by
  have hkeys : ((compNames OMap.empty (pads input opts)).map Prod.fst).Nodup := by
    rwa [compNames_fst]
  have hfound : (compNames OMap.empty (pads input opts)).map
      (fun e => ((compOf input opts).get? e.1).getD "") =
        (compNames OMap.empty (pads input opts)).map Prod.snd :=
    List.map_congr_left fun e he => by rw [compOf, get?_ofList hkeys he, Option.getD_some]
  have hids : (pads input opts).map (componentName input opts) =
      ((pads input opts).map (·.id)).map fun id => ((compOf input opts).get? id).getD "" := by
    rw [List.map_map]
    rfl
  rw [hids, ← compNames_fst OMap.empty, List.map_map]
  exact hfound.trans (compNames_snd _ _)

/-! ### Pins and nets -/

/-- The condition: ids are different, names that are written alike are the same name, and none is
written like another with a number that it gets. -/
structure Distinguished (input : RouteInput) (opts : DsnOptions) : Prop where
  ids : ((pads input opts).map (·.id)).Nodup
  spelling : ∀ p ∈ pads input opts, ∀ q ∈ pads input opts,
    token (compName p) = token (compName q) → compName p = compName q
  numbers : ∀ p ∈ pads input opts, ∀ q ∈ pads input opts, ∀ k, 0 < k →
    k < ((pads input opts).map compName).count (compName q) →
      token (compName p) ≠ token (numbered (compName q) k)

def PinsDiffer (input : RouteInput) (opts : DsnOptions) : Prop :=
  ((pads input opts).map fun p => token (pinOf input opts p)).Nodup

lemma counted_inj_iff {bs : List String} :
    (∀ e ∈ counted (fun _ => 0) bs, ∀ e' ∈ counted (fun _ => 0) bs,
      token (numbered e.1 e.2) = token (numbered e'.1 e'.2) → e = e') ↔
      (∀ b ∈ bs, ∀ b' ∈ bs, token b = token b' → b = b') ∧
        ∀ b ∈ bs, ∀ b' ∈ bs, ∀ k, 0 < k → k < bs.count b' → token b ≠ token (numbered b' k) := by
  have hmem : ∀ {b : String} {k : ℕ}, (b, k) ∈ counted (fun _ => 0) bs ↔ k < bs.count b := by
    intro b k
    rw [mem_counted]
    simp
  have hzero : ∀ {b : String}, b ∈ bs → (b, 0) ∈ counted (fun _ => 0) bs := fun hb =>
    hmem.mpr (List.count_pos_iff.mpr hb)
  constructor
  · intro h
    refine ⟨fun b hb b' hb' heq => ?_, fun b hb b' hb' k hk hlt heq => ?_⟩
    · exact congrArg Prod.fst (h _ (hzero hb) _ (hzero hb') heq)
    · have hsame := h _ (hzero hb) _ (hmem.mpr hlt) heq
      exact hk.ne (congrArg Prod.snd hsame)
  · rintro ⟨hspelling, hnumbers⟩ ⟨b, k⟩ he ⟨b', k'⟩ he' heq
    have hlt := hmem.mp he
    have hlt' := hmem.mp he'
    have hb : b ∈ bs := List.count_pos_iff.mp (Nat.zero_lt_of_lt hlt)
    have hb' : b' ∈ bs := List.count_pos_iff.mp (Nat.zero_lt_of_lt hlt')
    by_cases hk : k = 0
    · by_cases hk' : k' = 0
      · subst hk hk'
        rw [hspelling b hb b' hb' heq]
      · subst hk
        exact absurd heq (hnumbers b hb b' hb' k' (Nat.pos_of_ne_zero hk') hlt')
    · by_cases hk' : k' = 0
      · subst hk'
        exact absurd heq.symm (hnumbers b' hb' b hb k (Nat.pos_of_ne_zero hk) hlt)
      · obtain ⟨htoken, rfl⟩ := (token_numbered (iff_of_false hk hk')).mp heq
        rw [hspelling b hb b' hb' htoken]

/-- **Pins.** No two pads have the same pin exactly when their names are told apart. -/
lemma pinsDiffer_iff : PinsDiffer input opts ↔ Distinguished input opts := by
  have hpins : PinsDiffer input opts ↔
      ((pads input opts).map fun p => token (componentName input opts p)).Nodup := by
    change List.Pairwise (· ≠ ·) _ ↔ List.Pairwise (· ≠ ·) _
    rw [List.pairwise_map, List.pairwise_map]
    refine List.Pairwise.iff fun p q => not_congr ?_
    exact token_append
  have hids : PinsDiffer input opts → ((pads input opts).map (·.id)).Nodup := by
    intro h
    refine List.Nodup.of_map (fun id => token (((compOf input opts).get? id).getD "" ++ "-1")) ?_
    rw [List.map_map]
    exact h
  have hnames : ((pads input opts).map (·.id)).Nodup → (PinsDiffer input opts ↔
      (∀ b ∈ (pads input opts).map compName, ∀ b' ∈ (pads input opts).map compName,
        token b = token b' → b = b') ∧
        ∀ b ∈ (pads input opts).map compName, ∀ b' ∈ (pads input opts).map compName, ∀ k, 0 < k →
          k < ((pads input opts).map compName).count b' → token b ≠ token (numbered b' k)) := by
    intro h
    have htokens : ((pads input opts).map fun p => token (componentName input opts p)) =
        (counted (fun _ => 0) ((pads input opts).map compName)).map
          fun e => token (numbered e.1 e.2) := by
      have heq := congrArg (List.map token) (componentNames_eq h)
      rw [List.map_map, List.map_map] at heq
      exact heq
    rw [hpins, htokens, List.nodup_map_iff_inj_on (nodup_counted _ _), counted_inj_iff]
  constructor
  · intro h
    obtain ⟨hspelling, hnumbers⟩ := (hnames (hids h)).mp h
    exact ⟨hids h, fun p hp q hq => hspelling _ (List.mem_map_of_mem hp) _ (List.mem_map_of_mem hq),
      fun p hp q hq => hnumbers _ (List.mem_map_of_mem hp) _ (List.mem_map_of_mem hq)⟩
  · rintro ⟨hids, hspelling, hnumbers⟩
    refine (hnames hids).mpr ⟨?_, ?_⟩
    · intro b hb b' hb'
      obtain ⟨p, hp, rfl⟩ := List.mem_map.mp hb
      obtain ⟨q, hq, rfl⟩ := List.mem_map.mp hb'
      exact hspelling p hp q hq
    · intro b hb b' hb'
      obtain ⟨p, hp, rfl⟩ := List.mem_map.mp hb
      obtain ⟨q, hq, rfl⟩ := List.mem_map.mp hb'
      exact hnumbers p hp q hq

lemma getD_addPins (es : List (String × String)) (m : OMap String (List String)) (net : String) :
    ((es.foldl addPin m).get? net).getD [] =
      (m.get? net).getD [] ++ (es.filter (·.1 = net)).map Prod.snd := by
  induction es generalizing m with
  | nil => simp
  | cons e es ih =>
    rw [List.foldl_cons, ih, addPin, OMap.get?_set]
    by_cases h : net = e.1
    · rw [if_pos h, List.filter_cons_of_pos (by simp [h]), Option.getD_some, h, List.append_assoc]
      rfl
    · rw [if_neg h, List.filter_cons_of_neg (by simp [Ne.symm h])]

lemma has_addPins (es : List (String × String)) (m : OMap String (List String)) (net : String) :
    (es.foldl addPin m).has net = true ↔ m.has net = true ∨ net ∈ es.map Prod.fst := by
  induction es generalizing m with
  | nil => simp
  | cons e es ih =>
    rw [List.foldl_cons, ih, addPin, OMap.has_set, Bool.or_eq_true, decide_eq_true_iff,
      List.map_cons, List.mem_cons]
    tauto

lemma getD_addNames (ns : List String) (m : OMap String (List String)) (net : String) :
    ((ns.foldl addName m).get? net).getD [] = (m.get? net).getD [] := by
  induction ns generalizing m with
  | nil => rfl
  | cons n ns ih =>
    rw [List.foldl_cons, ih, addName]
    split
    next h =>
      rw [OMap.get?_set]
      by_cases hnet : net = n
      · rw [Bool.and_eq_true, Bool.not_eq_true', OMap.has_eq_false_iff] at h
        rw [if_pos hnet, hnet, h.2]
        rfl
      · rw [if_neg hnet]
    · rfl

lemma has_addNames (ns : List String) (m : OMap String (List String)) (net : String) :
    (ns.foldl addName m).has net = true ↔ m.has net = true ∨ (net ≠ "" ∧ net ∈ ns) := by
  induction ns generalizing m with
  | nil => simp
  | cons n ns ih =>
    rw [List.foldl_cons, ih, addName, List.mem_cons]
    split
    next h =>
      rw [Bool.and_eq_true, decide_eq_true_iff] at h
      rw [OMap.has_set, Bool.or_eq_true, decide_eq_true_iff]
      constructor
      · rintro ((rfl | hm) | hns)
        · exact Or.inr ⟨h.1, Or.inl rfl⟩
        · exact Or.inl hm
        · exact Or.inr ⟨hns.1, Or.inr hns.2⟩
      · rintro (hm | ⟨hne, rfl | hns⟩)
        · exact Or.inl (Or.inr hm)
        · exact Or.inl (Or.inl rfl)
        · exact Or.inr ⟨hne, hns⟩
    next h =>
      rw [Bool.and_eq_true, decide_eq_true_iff, Bool.not_eq_true', not_and, Bool.not_eq_false] at h
      constructor
      · rintro (hm | hns)
        · exact Or.inl hm
        · exact Or.inr ⟨hns.1, Or.inr hns.2⟩
      · rintro (hm | ⟨hne, rfl | hns⟩)
        · exact Or.inl hm
        · exact Or.inl (h hne)
        · exact Or.inr ⟨hne, hns⟩

lemma pins_eq {e : String × List String} (he : e ∈ (pinsByNet input opts).entries) :
    e.2 = ((routablePads input opts).filter (·.net = e.1)).map (pinOf input opts) := by
  have hget : (pinsByNet input opts).get? e.1 = some e.2 := OMap.get?_eq_some_iff.mpr he
  have hpins := getD_addNames (input.tracks.map (·.net) ++ input.vias.map (·.net))
    (((routablePads input opts).map fun p => (p.net, pinOf input opts p)).foldl addPin OMap.empty) e.1
  rw [getD_addPins, List.filter_map, List.map_map] at hpins
  change ((pinsByNet input opts).get? e.1).getD [] = _ at hpins
  rw [hget] at hpins
  exact hpins

lemma mem_netKeys {net : String} : net ∈ (pinsByNet input opts).keys ↔
    net ∈ (routablePads input opts).map (·.net) ∨
      (net ≠ "" ∧ net ∈ input.tracks.map (·.net) ++ input.vias.map (·.net)) := by
  rw [OMap.mem_keys_iff_has, pinsByNet, has_addNames, has_addPins, List.map_map]
  simp only [OMap.has_empty, Bool.false_eq_true, false_or]
  rfl

lemma mem_routablePads {p : RoutePad} : p ∈ routablePads input opts ↔
    p ∈ pads input opts ∧ p.net ≠ "" ∧ isRoutable opts p.net = true := by
  rw [routablePads, List.mem_filter, Bool.and_eq_true, decide_eq_true_iff]

lemma netKey_ne {net : String} (h : net ∈ (pinsByNet input opts).keys) : net ≠ "" := by
  rcases mem_netKeys.mp h with h | h
  · obtain ⟨p, hp, rfl⟩ := List.mem_map.mp h
    exact (mem_routablePads.mp hp).2.1
  · exact h.1

/-- A net's pins are those of the pads that carry the net and are to be routed. -/
def Denotes (input : RouteInput) (opts : DsnOptions) (net : String) (n : Net) : Prop :=
  ∀ p ∈ pads input opts,
    token (pinOf input opts p) ∈ n.pins ↔ p.net = net ∧ isRoutable opts p.net = true

/-- Every pad has a pin of its own, every net has the pins of its pads, and no pin is in two nets. -/
structure PinIdentity (nums : Numerals) (input : RouteInput) (opts : DsnOptions) : Prop where
  differ : PinsDiffer input opts
  named : ∀ p ∈ routablePads input opts, p.net ∈ (pinsByNet input opts).keys
  denote : List.Forall₂ (Denotes input opts) (pinsByNet input opts).keys
    (writeDsn nums input opts).nets
  apart : (writeDsn nums input opts).nets.Pairwise fun n n' => n.pins.Disjoint n'.pins

lemma pad_of_pin {e : String × List String} (he : e ∈ (pinsByNet input opts).entries) {pin : Token}
    (h : pin ∈ e.2.map token) : ∃ p ∈ pads input opts, p.net = e.1 ∧ isRoutable opts p.net = true ∧
      token (pinOf input opts p) = pin := by
  rw [pins_eq he, List.map_map] at h
  obtain ⟨p, hp, rfl⟩ := List.mem_map.mp h
  obtain ⟨hroutable, hnet⟩ := List.mem_filter.mp hp
  obtain ⟨hpad, -, hyes⟩ := mem_routablePads.mp hroutable
  exact ⟨p, hpad, of_decide_eq_true hnet, hyes, rfl⟩

lemma pad_unique (h : PinsDiffer input opts) {p q : RoutePad} (hp : p ∈ pads input opts)
    (hq : q ∈ pads input opts)
    (heq : token (pinOf input opts p) = token (pinOf input opts q)) : p = q :=
  List.inj_on_of_nodup_map h hp hq heq

lemma denotes_entry (h : PinsDiffer input opts) {e : String × List String}
    (he : e ∈ (pinsByNet input opts).entries) :
    Denotes input opts e.1 ⟨token e.1, e.2.map token⟩ := by
  intro p hp
  constructor
  · intro hpin
    obtain ⟨q, hq, hnet, hroutable, heq⟩ := pad_of_pin he hpin
    cases pad_unique h hq hp heq
    exact ⟨hnet, hroutable⟩
  · rintro ⟨hnet, hroutable⟩
    have hne : p.net ≠ "" := by
      rw [hnet]
      exact netKey_ne (List.mem_map_of_mem he)
    refine List.mem_map_of_mem ?_
    rw [pins_eq he]
    refine List.mem_map_of_mem (List.mem_filter.mpr ⟨?_, decide_eq_true hnet⟩)
    exact mem_routablePads.mpr ⟨hp, hne, hroutable⟩

def samplePad (id number net : String) : RoutePad where
  id := id
  footprint := "U1"
  number := number
  net := net
  position := ⟨0, 0⟩
  size := ⟨600000, 600000⟩
  shape := .circle
  rotation := 0
  layers := [3]
  bounds := none

def sampleRules : NetRules := ⟨⟨200000, 600000, 300000⟩, "Default", 200000⟩

/-- The second pad `1` becomes `U1_1_1`, which is the name of the pad `1_1`. -/
def thermal : RouteInput where
  boardName := "board"
  outline := []
  bounds := ⟨0, 0, 0, 0⟩
  copperLayers := [⟨3, "BL_F_Cu", "F.Cu"⟩]
  nets := [⟨"GND", 1⟩, ⟨"VCC", 2⟩]
  pads := [samplePad "a" "1" "GND", samplePad "b" "1" "GND", samplePad "c" "1_1" "VCC"]
  tracks := []
  vias := []
  keepouts := []
  zones := []
  obstacles := []
  rules := ⟨0, 0, 0, 0, 0, none, sampleRules, OMap.empty⟩

end FabPcb.DsnPins
