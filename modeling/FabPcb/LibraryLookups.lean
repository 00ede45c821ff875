import FabPcb.Runs
import Mathlib.Logic.Function.Basic
import Mathlib.Order.Basic

/-!
Lookups in the libraries of a project: `KicadLibraryService`.

A lookup that is not served from a cache reads through an auxiliary session, which the first
lookup opens. A `close()` clears the caches and closes the session that there is; an opening and
the reads that are under way go on, and write the session and the caches when they come to it.

Sessions and reads are numbered. `born` is how many calls of `close()` there were when a session
was asked for, and what is cached has the session that it was read through beside it. At most one
session is asked for at a time: it is that of `opening`.
-/

namespace FabPcb.LibraryLookups

open Runs
open Function (update)

/-- What is looked up. The values of the first two are cached, of the others the promises. -/
inductive Target
  | footprint (libId : String)
  | symbol (libId : String)
  | tables (kind : String)
  | entries (kind nickname : String)
  deriving DecidableEq

/-- The promise is cached, and not the value. -/
def Target.promised : Target → Bool
  | .footprint _ | .symbol _ => false
  | .tables _ | .entries _ _ => true

inductive Phase
  | unasked
  | asked
  | failed
  /-- Open, closing and closed at the server. -/
  | up
  | closing
  | closed
  deriving DecidableEq

variable {V : Type}

structure Session where
  id : ℕ
  born : ℕ
  deriving DecidableEq

/-- A value, and the session that it was read through. -/
structure Entry (V : Type) where
  value : V
  session : Session

/-- A read. `since` is how many calls of `close()` there were when it began, and `result` is what
came of it: `some none` is a failure. -/
structure Read (V : Type) where
  target : Target
  session : Session
  since : ℕ
  result : Option (Option V) := none

/-- A preview that waits for what it is made of. -/
inductive Source (V : Type)
  | cached (entry : Entry V)
  | read (r : ℕ)

structure Library (V : Type) where
  closes : ℕ := 0
  /-- The last call was `close()`. -/
  last : Bool := false
  aux : Option Session := none
  opening : Option Session := none
  sessions : ℕ := 0
  phase : ℕ → Phase := fun _ => .unasked
  reads : ℕ := 0
  read : ℕ → Option (Read V) := fun _ => none
  /-- `footprints` and `symbols`. -/
  values : Target → Option (Entry V) := fun _ => none
  /-- `tableCache` and `entryCache`. -/
  promises : Target → Option ℕ := fun _ => none
  previews : Target → Option (Entry V) := fun _ => none
  waiting : List (Target × Source V) := []
  /-- What was served from a cache: the calls of `close()` by then, and the session of the value,
  or the read whose promise it was. -/
  served : List (ℕ × Session) := []
  shared : List (ℕ × ℕ) := []

/-- The session that there is, or is being opened, or is now asked for. -/
def kicad (s : Library V) : Session × Library V :=
  match s.aux, s.opening with
  | some x, _ => (x, s)
  | none, some x => (x, s)
  | none, none =>
    (⟨s.sessions, s.closes⟩,
      { s with
        opening := some ⟨s.sessions, s.closes⟩
        sessions := s.sessions + 1
        phase := update s.phase s.sessions .asked })

/-- A read begins. -/
def begin (t : Target) (s : Library V) : ℕ × Library V :=
  let k := kicad s
  (k.2.reads,
    { k.2 with
      reads := k.2.reads + 1
      read := update k.2.read k.2.reads (some ⟨t, k.1, k.2.closes, none⟩) })

/-- `footprint`, `symbol`, `tables` and `entries`. -/
def lookup (t : Target) (s : Library V) : Library V :=
  if t.promised then
    match s.promises t with
    | some r => { s with shared := s.shared ++ [(s.closes, r)] }
    | none =>
      let (r, s) := begin t s
      { s with promises := update s.promises t (some r) }
  else
    match s.values t with
    | some e => { s with served := s.served ++ [(s.closes, e.session)] }
    | none => (begin t s).2

/-- A preview, of a footprint or of a symbol. -/
def preview (t : Target) (s : Library V) : Library V :=
  match s.previews t, s.values t with
  | some e, _ => { s with served := s.served ++ [(s.closes, e.session)] }
  | none, some e =>
    { s with
      served := s.served ++ [(s.closes, e.session)]
      waiting := s.waiting ++ [(t, .cached e)] }
  | none, none =>
    let (r, s) := begin t s
    { s with waiting := s.waiting ++ [(t, .read r)] }

def close (s : Library V) : Library V :=
  { s with
    closes := s.closes + 1
    last := true
    aux := none
    phase := s.aux.elim s.phase fun x => update s.phase x.id .closing
    values := fun _ => none
    promises := fun _ => none
    previews := fun _ => none }

inductive Event (V : Type)
  | kicad
  | lookup (t : Target)
  | preview (t : Target)
  | close
  /-- The session comes up, or does not; and then `opening` is cleared. -/
  | opened
  | openFailed
  | cleared
  | closed (n : ℕ)
  | readOk (r : ℕ) (value : V)
  | readFail (r : ℕ)
  /-- A preview goes on with what it is made of. -/
  | previewed (i : ℕ)

/-- What a source comes to: `some none` is a failure. -/
def Source.result (s : Library V) : Source V → Option (Option (Entry V))
  | .cached e => some (some e)
  | .read r => (s.read r).bind fun x => x.result.map fun v => v.map fun v => ⟨v, x.session⟩

/-- A read is over. -/
def settle (s : Library V) (r : ℕ) (x : Read V) (result : Option V) : Library V :=
  { s with
    read := update s.read r (some { x with result := some result })
    values := match result with
      | some v =>
        if x.target.promised then s.values
        else update s.values x.target (some ⟨v, x.session⟩)
      | none => s.values
    promises := match result with
      | some _ => s.promises
      | none => if x.target.promised then update s.promises x.target none else s.promises }

def step (s : Library V) : Event V → Option (Library V)
  | .kicad => some { (kicad s).2 with last := false }
  | .lookup t => some { lookup t s with last := false }
  | .preview t => if t.promised then none else some { preview t s with last := false }
  | .close => some (close s)
  | .opened =>
    match s.opening with
    | some x =>
      if s.phase x.id = .asked then
        some { s with aux := some x, phase := update s.phase x.id .up }
      else none
    | none => none
  | .openFailed =>
    match s.opening with
    | some x =>
      if s.phase x.id = .asked then some { s with phase := update s.phase x.id .failed } else none
    | none => none
  | .cleared =>
    match s.opening with
    | some x => if s.phase x.id = .asked then none else some { s with opening := none }
    | none => none
  | .closed n =>
    if s.phase n = .closing then some { s with phase := update s.phase n .closed } else none
  | .readOk r v =>
    match s.read r with
    | some x =>
      if x.result.isNone ∧ s.phase x.session.id ≠ .asked ∧ s.phase x.session.id ≠ .failed then
        some (settle s r x (some v))
      else none
    | none => none
  | .readFail r =>
    match s.read r with
    | some x =>
      if x.result.isNone ∧ s.phase x.session.id ≠ .asked then some (settle s r x none) else none
    | none => none
  | .previewed i =>
    match s.waiting[i]? with
    | some (t, source) =>
      match source.result s with
      | some (some e) =>
        some { s with waiting := s.waiting.eraseIdx i, previews := update s.previews t (some e) }
      | some none => some { s with waiting := s.waiting.eraseIdx i }
      | none => none
    | none => none

/-! ### What is wanted -/

/-- Nothing is under way. -/
structure Settled (s : Library V) : Prop where
  sessions : ∀ n, s.phase n ≠ .asked ∧ s.phase n ≠ .closing
  opening : s.opening = none
  reads : ∀ r x, s.read r = some x → x.result ≠ none
  waiting : s.waiting = []

/-- No session outlives a close, and what is served is of a session asked for since the last. -/
structure Sound (s : Library V) : Prop where
  closed : Settled s → s.last = true → ∀ n, s.phase n ≠ .up
  served : ∀ p ∈ s.served, p.1 ≤ p.2.born
  shared : ∀ p ∈ s.shared, ∀ x v, s.read p.2 = some x → x.result = some (some v) →
    p.1 ≤ x.session.born

/-- No session comes up when the last call was `close()`, and no read through a session that was
asked for before a `close()` fills a cache: of values, a `close()` before it is done; of promises,
before it began. -/
def Careful (s : Library V) : Event V → Prop
  | .opened => s.last = false
  | .readOk r _ =>
    ∀ x ∈ s.read r,
      if x.target.promised then x.since ≤ x.session.born else x.session.born = s.closes
  | .previewed i =>
    ∀ w ∈ s.waiting[i]?, ∀ o ∈ w.2.result s, ∀ e ∈ o, e.session.born = s.closes
  | _ => True

instance (s : Library V) (e : Event V) : Decidable (Careful s e) :=
  match e with
  | .opened => inferInstanceAs (Decidable (s.last = false))
  | .readOk r _ =>
    inferInstanceAs (Decidable (∀ x ∈ s.read r,
      if x.target.promised then x.since ≤ x.session.born else x.session.born = s.closes))
  | .previewed i =>
    inferInstanceAs (Decidable
      (∀ w ∈ s.waiting[i]?, ∀ o ∈ w.2.result s, ∀ e ∈ o, e.session.born = s.closes))
  | .kicad | .lookup _ | .preview _ | .close | .openFailed | .cleared | .closed _ | .readFail _ =>
    isTrue trivial

/-! ### Sessions -/

/-- Of the sessions: at most one is being asked for, and one that is up is the one that is used. -/
structure Sessions (s : Library V) : Prop where
  up : ∀ n, s.phase n = .up → ∃ x, s.aux = some x ∧ x.id = n
  asked : ∀ n, s.phase n = .asked → s.aux = none ∧ ∃ x, s.opening = some x ∧ x.id = n
  afterClose : s.last = true → s.aux = none

section Sessions

variable {s s' : Library V}

lemma kicad_aux {x : Session} (h : s.aux = some x) : kicad s = (x, s) := by
  simp [kicad, h]

lemma kicad_opening {x : Session} (h : s.aux = none) (hopening : s.opening = some x) :
    kicad s = (x, s) := by
  simp [kicad, h, hopening]

lemma kicad_new (h : s.aux = none) (hopening : s.opening = none) :
    kicad s = (⟨s.sessions, s.closes⟩,
      { s with
        opening := some ⟨s.sessions, s.closes⟩
        sessions := s.sessions + 1
        phase := update s.phase s.sessions .asked }) := by
  simp [kicad, h, hopening]

lemma kicad_frame (s : Library V) : ∃ opening sessions phase,
    (kicad s).2 = { s with opening, sessions, phase } := by
  rcases Option.eq_none_or_eq_some s.aux with haux | ⟨x, haux⟩
  · rcases Option.eq_none_or_eq_some s.opening with hopening | ⟨x, hopening⟩
    · exact ⟨_, _, _, congrArg Prod.snd (kicad_new haux hopening)⟩
    · exact ⟨s.opening, s.sessions, s.phase, congrArg Prod.snd (kicad_opening haux hopening)⟩
  · exact ⟨s.opening, s.sessions, s.phase, congrArg Prod.snd (kicad_aux haux)⟩

lemma sessions_quiet (h : Sessions s) : Sessions { s with last := false } :=
  ⟨h.up, h.asked, fun hfalse => absurd hfalse Bool.false_ne_true⟩

lemma sessions_kicad (h : Sessions s) : Sessions { (kicad s).2 with last := false } := by
  rcases haux : s.aux with _ | x
  · rcases hopening : s.opening with _ | x
    · rw [kicad_new haux hopening]
      refine ⟨fun n hn => ?_, fun n hn => ?_, fun _ => haux⟩
      · by_cases heq : n = s.sessions
        · rw [heq] at hn
          exact absurd ((Function.update_self _ _ _).symm.trans hn) (by decide)
        · exact h.up n ((Function.update_of_ne heq _ _).symm.trans hn)
      · by_cases heq : n = s.sessions
        · exact ⟨haux, _, rfl, heq.symm⟩
        · obtain ⟨-, x, hx, -⟩ := h.asked n ((Function.update_of_ne heq _ _).symm.trans hn)
          rw [hopening] at hx
          exact absurd hx (by simp)
    · rw [kicad_opening haux hopening]
      exact sessions_quiet h
  · rw [kicad_aux haux]
    exact sessions_quiet h

lemma sessions_close (h : Sessions s) : Sessions (close s) := by
  refine ⟨fun n hn => ?_, fun n hn => ?_, fun _ => rfl⟩
  · rcases haux : s.aux with _ | x
    · simp only [close, haux, Option.elim] at hn
      obtain ⟨x, hx, -⟩ := h.up n hn
      rw [haux] at hx
      exact absurd hx (by simp)
    · simp only [close, haux, Option.elim] at hn
      by_cases heq : n = x.id
      · rw [heq, Function.update_self] at hn
        exact absurd hn (by decide)
      · rw [Function.update_of_ne heq] at hn
        obtain ⟨y, hy, hid⟩ := h.up n hn
        rw [haux, Option.some.injEq] at hy
        exact absurd (hy ▸ hid.symm) heq
  · have hbefore : s.phase n = .asked := by
      rcases haux : s.aux with _ | x
      · simpa only [close, haux, Option.elim] using hn
      · simp only [close, haux, Option.elim] at hn
        by_cases heq : n = x.id
        · rw [heq, Function.update_self] at hn
          exact absurd hn (by decide)
        · rwa [Function.update_of_ne heq] at hn
    exact ⟨rfl, (h.asked n hbefore).2⟩

lemma sessions_update (h : Sessions s) {n : ℕ} {phase : Phase} (hup : phase ≠ .up)
    (hasked : phase ≠ .asked) : Sessions { s with phase := update s.phase n phase } := by
  have hother : ∀ m, update s.phase n phase m = .up ∨ update s.phase n phase m = .asked →
      m ≠ n ∧ update s.phase n phase m = s.phase m := by
    intro m hm
    have hne : m ≠ n := by
      rintro rfl
      rw [Function.update_self] at hm
      exact hm.elim hup hasked
    exact ⟨hne, Function.update_of_ne hne _ _⟩
  refine ⟨fun m hm => ?_, fun m hm => ?_, h.afterClose⟩
  · exact h.up m ((hother m (.inl hm)).2.symm.trans hm)
  · exact h.asked m ((hother m (.inr hm)).2.symm.trans hm)

lemma sessions_opened (h : Sessions s) (hlast : s.last = false) {x : Session}
    (hopening : s.opening = some x) (hasked : s.phase x.id = .asked) :
    Sessions { s with aux := some x, phase := update s.phase x.id .up } := by
  have hnone := (h.asked _ hasked).1
  refine ⟨fun n hn => ?_, fun n hn => ?_, fun hl => ?_⟩
  · by_cases heq : n = x.id
    · exact ⟨x, rfl, heq.symm⟩
    · obtain ⟨y, hy, -⟩ := h.up n ((Function.update_of_ne heq _ _).symm.trans hn)
      rw [hnone] at hy
      exact absurd hy (by simp)
  · by_cases heq : n = x.id
    · rw [heq] at hn
      exact absurd ((Function.update_self _ _ _).symm.trans hn) (by decide)
    · obtain ⟨-, y, hy, hid⟩ := h.asked n ((Function.update_of_ne heq _ _).symm.trans hn)
      rw [hopening, Option.some.injEq] at hy
      exact absurd (hy ▸ hid.symm) heq
  · rw [hlast] at hl
    exact absurd hl Bool.false_ne_true

lemma sessions_cleared (h : Sessions s) {x : Session} (hopening : s.opening = some x)
    (hasked : s.phase x.id ≠ .asked) : Sessions { s with opening := none } := by
  refine ⟨h.up, fun n hn => ?_, h.afterClose⟩
  obtain ⟨-, y, hy, hid⟩ := h.asked n hn
  rw [hopening, Option.some.injEq] at hy
  rw [← hid, ← hy] at hn
  exact absurd hn hasked

lemma sessions_congr (h : Sessions s) (hphase : s'.phase = s.phase) (haux : s'.aux = s.aux)
    (hopening : s'.opening = s.opening) (hlast : s'.last = s.last) : Sessions s' := by
  refine ⟨?_, ?_, ?_⟩
  · rw [hphase, haux]
    exact h.up
  · rw [hphase, haux, hopening]
    exact h.asked
  · rw [hlast, haux]
    exact h.afterClose

lemma sessions_begin (h : Sessions s) (t : Target) :
    Sessions { (begin t s).2 with last := false } :=
  sessions_congr (sessions_kicad h) rfl rfl rfl rfl

lemma sessions_lookup (h : Sessions s) (t : Target) :
    Sessions { lookup t s with last := false } := by
  rw [lookup]
  split_ifs
  · rcases s.promises t with _ | r
    · exact sessions_congr (sessions_begin h t) rfl rfl rfl rfl
    · exact sessions_congr (sessions_quiet h) rfl rfl rfl rfl
  · rcases s.values t with _ | e
    · exact sessions_begin h t
    · exact sessions_congr (sessions_quiet h) rfl rfl rfl rfl

lemma sessions_preview (h : Sessions s) (t : Target) :
    Sessions { preview t s with last := false } := by
  rw [preview]
  rcases s.previews t with _ | e
  · rcases s.values t with _ | e
    · exact sessions_congr (sessions_begin h t) rfl rfl rfl rfl
    · exact sessions_congr (sessions_quiet h) rfl rfl rfl rfl
  · exact sessions_congr (sessions_quiet h) rfl rfl rfl rfl

end Sessions

/-! ### Caches -/

/-- Of the caches: what is in them is of the time since the last `close()`, and what was served
was so when it was. -/
structure Caches (s : Library V) : Prop where
  values : ∀ t e, s.values t = some e → e.session.born = s.closes
  previews : ∀ t e, s.previews t = some e → e.session.born = s.closes
  promises : ∀ t r, s.promises t = some r →
    ∃ x, s.read r = some x ∧ x.since = s.closes ∧ x.target.promised = true
  bounded : ∀ r, s.reads ≤ r → s.read r = none
  served : ∀ p ∈ s.served, p.1 ≤ p.2.born
  shared : ∀ p ∈ s.shared,
    ∃ x, s.read p.2 = some x ∧ p.1 ≤ x.since ∧ x.target.promised = true
  results : ∀ r x v, s.read r = some x → x.result = some (some v) → x.target.promised = true →
    x.since ≤ x.session.born

section Caches

variable {s : Library V}

lemma caches_last (h : Caches s) (last : Bool) : Caches { s with last } :=
  ⟨h.values, h.previews, h.promises, h.bounded, h.served, h.shared, h.results⟩

lemma caches_kicad (h : Caches s) : Caches (kicad s).2 := by
  obtain ⟨opening, sessions, phase, heq⟩ := kicad_frame s
  rw [heq]
  exact ⟨h.values, h.previews, h.promises, h.bounded, h.served, h.shared, h.results⟩

lemma begin_frame (t : Target) (s : Library V) : ∃ opening sessions phase x,
    begin t s = (s.reads, { s with
      opening, sessions, phase, reads := s.reads + 1,
      read := update s.read s.reads (some ⟨t, x, s.closes, none⟩) }) := by
  obtain ⟨opening, sessions, phase, heq⟩ := kicad_frame s
  exact ⟨opening, sessions, phase, (kicad s).1, by simp [begin, heq]⟩

lemma read_of_bounded (h : Caches s) {r : ℕ} {x y : Read V} (hread : s.read r = some x) :
    update s.read s.reads (some y) r = some x := by
  rw [Function.update_of_ne, hread]
  rintro rfl
  rw [h.bounded _ (Nat.le_refl _)] at hread
  exact absurd hread (by simp)

lemma caches_begin (h : Caches s) (t : Target) : Caches (begin t s).2 := by
  obtain ⟨opening, sessions, phase, x, heq⟩ := begin_frame t s
  rw [heq]
  refine ⟨h.values, h.previews, fun t r hr => ?_, fun r hr => ?_, h.served, fun p hp => ?_,
    fun r y v hr hv hpromised => ?_⟩
  · obtain ⟨y, hy, hsince⟩ := h.promises t r hr
    exact ⟨y, read_of_bounded h hy, hsince⟩
  · have hne : r ≠ s.reads := by
      rintro rfl
      exact absurd hr (Nat.not_succ_le_self _)
    exact (Function.update_of_ne hne _ _).trans (h.bounded r (Nat.le_trans (Nat.le_succ _) hr))
  · obtain ⟨y, hy, hsince⟩ := h.shared p hp
    exact ⟨y, read_of_bounded h hy, hsince⟩
  · by_cases hne : r = s.reads
    · rw [hne] at hr
      have heq := (Function.update_self _ _ _).symm.trans hr
      rw [Option.some.injEq] at heq
      rw [← heq] at hv
      exact absurd hv (by simp)
    · exact h.results r y v ((Function.update_of_ne hne _ _).symm.trans hr) hv hpromised

lemma caches_serve (h : Caches s) {e : Entry V} (he : e.session.born = s.closes) :
    Caches { s with served := s.served ++ [(s.closes, e.session)] } := by
  refine ⟨h.values, h.previews, h.promises, h.bounded, fun p hp => ?_, h.shared, h.results⟩
  rcases List.mem_append.mp hp with hp | hp
  · exact h.served p hp
  · rw [List.mem_singleton.mp hp]
    exact Nat.le_of_eq he.symm

lemma caches_waiting (h : Caches s) (waiting : List (Target × Source V)) :
    Caches { s with waiting } :=
  ⟨h.values, h.previews, h.promises, h.bounded, h.served, h.shared, h.results⟩

lemma caches_lookup (h : Caches s) (t : Target) : Caches (lookup t s) := by
  rw [lookup]
  split_ifs with hpromised
  · rcases hr : s.promises t with _ | r
    · obtain ⟨opening, sessions, phase, x, heq⟩ := begin_frame t s
      have hbegin := caches_begin h t
      rw [heq] at hbegin
      rw [heq]
      refine ⟨hbegin.values, hbegin.previews, fun t' r hr' => ?_, hbegin.bounded, hbegin.served,
        hbegin.shared, hbegin.results⟩
      by_cases ht : t' = t
      · rw [ht] at hr'
        have hread := (Function.update_self _ _ _).symm.trans hr'
        rw [Option.some.injEq] at hread
        refine ⟨⟨t, x, s.closes, none⟩, ?_, rfl, hpromised⟩
        rw [← hread]
        exact Function.update_self _ _ _
      · exact hbegin.promises t' r ((Function.update_of_ne ht _ _).symm.trans hr')
    · refine ⟨h.values, h.previews, h.promises, h.bounded, h.served, fun p hp => ?_, h.results⟩
      rcases List.mem_append.mp hp with hp | hp
      · exact h.shared p hp
      · obtain ⟨x, hx, hsince, htarget⟩ := h.promises t r hr
        rw [List.mem_singleton.mp hp]
        exact ⟨x, hx, Nat.le_of_eq hsince.symm, htarget⟩
  · rcases he : s.values t with _ | e
    · exact caches_begin h t
    · exact caches_serve h (h.values t e he)

lemma caches_preview (h : Caches s) (t : Target) : Caches (preview t s) := by
  rw [preview]
  rcases hp : s.previews t with _ | e
  · rcases he : s.values t with _ | e
    · exact caches_waiting (caches_begin h t) _
    · exact caches_waiting (caches_serve h (h.values t e he)) _
  · exact caches_serve h (h.previews t e hp)

lemma caches_close (h : Caches s) : Caches (close s) :=
  ⟨fun _ _ he => absurd he (by simp [close]), fun _ _ he => absurd he (by simp [close]),
    fun _ _ hr => absurd hr (by simp [close]), h.bounded, h.served, h.shared, h.results⟩

lemma read_settled {r : ℕ} {x : Read V} (hread : s.read r = some x) (result : Option (Option V))
    {P : Read V → Prop} (hP : ∀ y : Read V, P y → P { y with result }) {r' : ℕ}
    (h : ∃ y, s.read r' = some y ∧ P y) :
    ∃ y, update s.read r (some { x with result }) r' = some y ∧ P y := by
  obtain ⟨y, hy, hPy⟩ := h
  by_cases hr : r' = r
  · rw [hr, hread, Option.some.injEq] at hy
    rw [hr]
    exact ⟨_, Function.update_self _ _ _, hP x (hy ▸ hPy)⟩
  · exact ⟨y, (Function.update_of_ne hr _ _).trans hy, hPy⟩

lemma caches_readOk (h : Caches s) {r : ℕ} {x : Read V} (hread : s.read r = some x) (v : V)
    (hok : if x.target.promised then x.since ≤ x.session.born else x.session.born = s.closes) :
    Caches (settle s r x (some v)) := by
  refine ⟨fun t e he => ?_, h.previews,
    fun t r' hr' => read_settled hread _ (fun _ hy => hy) (h.promises t r' hr'),
    fun r' hr' => ?_, h.served, fun p hp => read_settled hread _ (fun _ hy => hy) (h.shared p hp),
    fun r' y w hr' hw hpromised => ?_⟩
  · change (if x.target.promised then s.values
      else update s.values x.target (some ⟨v, x.session⟩)) t = some e at he
    split_ifs at he hok
    · exact h.values t e he
    · by_cases ht : t = x.target
      · rw [ht, Function.update_self, Option.some.injEq] at he
        rw [← he]
        exact hok
      · rw [Function.update_of_ne ht] at he
        exact h.values t e he
  · have hne : r' ≠ r := by
      rintro rfl
      rw [h.bounded r' hr'] at hread
      exact absurd hread (by simp)
    exact (Function.update_of_ne hne _ _).trans (h.bounded r' hr')
  · by_cases hr : r' = r
    · rw [hr] at hr'
      have heq := (Function.update_self _ _ _).symm.trans hr'
      rw [Option.some.injEq] at heq
      subst heq
      rwa [if_pos hpromised] at hok
    · exact h.results r' y w ((Function.update_of_ne hr _ _).symm.trans hr') hw hpromised

lemma caches_readFail (h : Caches s) {r : ℕ} {x : Read V} (hread : s.read r = some x) :
    Caches (settle s r x none) := by
  refine ⟨h.values, h.previews, fun t r' hr' => read_settled hread _ (fun _ hy => hy)
      (h.promises t r' ?_),
    fun r' hr' => ?_, h.served, fun p hp => read_settled hread _ (fun _ hy => hy) (h.shared p hp),
    fun r' y w hr' hw hpromised => ?_⟩
  · change (if x.target.promised then update s.promises x.target none else s.promises) t =
      some r' at hr'
    split_ifs at hr'
    · by_cases ht : t = x.target
      · rw [ht] at hr'
        exact absurd hr' (by simp)
      · rwa [Function.update_of_ne ht] at hr'
    · exact hr'
  · have hne : r' ≠ r := by
      rintro rfl
      rw [h.bounded r' hr'] at hread
      exact absurd hread (by simp)
    exact (Function.update_of_ne hne _ _).trans (h.bounded r' hr')
  · by_cases hr : r' = r
    · rw [hr] at hr'
      have heq := (Function.update_self _ _ _).symm.trans hr'
      rw [Option.some.injEq] at heq
      rw [← heq] at hw
      exact absurd hw (by simp)
    · exact h.results r' y w ((Function.update_of_ne hr _ _).symm.trans hr') hw hpromised

lemma caches_previewed (h : Caches s) (t : Target) {e : Entry V} (he : e.session.born = s.closes)
    (waiting : List (Target × Source V)) :
    Caches { s with waiting, previews := update s.previews t (some e) } := by
  refine ⟨h.values, fun t' e' he' => ?_, h.promises, h.bounded, h.served, h.shared, h.results⟩
  by_cases ht : t' = t
  · rw [ht] at he'
    have heq := (Function.update_self _ _ _).symm.trans he'
    rw [Option.some.injEq] at heq
    rw [← heq]
    exact he
  · exact h.previews t' e' ((Function.update_of_ne ht _ _).symm.trans he')

end Caches

/-! ### Runs -/

section Runs

variable {s s' : Library V}

structure Inv (s : Library V) : Prop where
  sessions : Sessions s
  caches : Caches s

lemma caches_phase (h : Caches s) (phase : ℕ → Phase) : Caches { s with phase } :=
  ⟨h.values, h.previews, h.promises, h.bounded, h.served, h.shared, h.results⟩

/-- **One step.** -/
lemma inv_step (h : Inv s) {e : Event V} (hok : Careful s e) (hstep : step s e = some s') :
    Inv s' := by
  obtain ⟨hsessions, hcaches⟩ := h
  cases e with
  | kicad =>
    cases hstep
    exact ⟨sessions_kicad hsessions, caches_last (caches_kicad hcaches) _⟩
  | lookup t =>
    cases hstep
    exact ⟨sessions_lookup hsessions t, caches_last (caches_lookup hcaches t) _⟩
  | preview t =>
    rw [step] at hstep
    split_ifs at hstep
    cases hstep
    exact ⟨sessions_preview hsessions t, caches_last (caches_preview hcaches t) _⟩
  | close =>
    cases hstep
    exact ⟨sessions_close hsessions, caches_close hcaches⟩
  | opened =>
    rcases hopening : s.opening with _ | x
    · simp [step, hopening] at hstep
    · simp only [step, hopening] at hstep
      split_ifs at hstep with hasked
      cases hstep
      exact ⟨sessions_congr (sessions_opened hsessions hok hopening hasked) rfl rfl
          hopening.symm rfl,
        ⟨hcaches.values, hcaches.previews, hcaches.promises, hcaches.bounded, hcaches.served,
          hcaches.shared, hcaches.results⟩⟩
  | openFailed =>
    rcases hopening : s.opening with _ | x
    · simp [step, hopening] at hstep
    · simp only [step, hopening] at hstep
      split_ifs at hstep with hasked
      cases hstep
      have hfailed : Sessions { s with phase := update s.phase x.id .failed } :=
        sessions_update hsessions (by decide) (by decide)
      exact ⟨sessions_congr hfailed rfl rfl hopening.symm rfl,
        ⟨hcaches.values, hcaches.previews, hcaches.promises, hcaches.bounded, hcaches.served,
          hcaches.shared, hcaches.results⟩⟩
  | cleared =>
    rcases hopening : s.opening with _ | x
    · simp [step, hopening] at hstep
    · simp only [step, hopening] at hstep
      split_ifs at hstep with hasked
      cases hstep
      exact ⟨sessions_cleared hsessions hopening hasked,
        ⟨hcaches.values, hcaches.previews, hcaches.promises, hcaches.bounded, hcaches.served,
          hcaches.shared, hcaches.results⟩⟩
  | closed n =>
    rw [step] at hstep
    split_ifs at hstep
    cases hstep
    exact ⟨sessions_update hsessions (by decide) (by decide), caches_phase hcaches _⟩
  | readOk r v =>
    rcases hread : s.read r with _ | x
    · simp [step, hread] at hstep
    · simp only [step, hread] at hstep
      split_ifs at hstep
      cases hstep
      exact ⟨sessions_congr hsessions rfl rfl rfl rfl,
        caches_readOk hcaches hread v (hok x hread)⟩
  | readFail r =>
    rcases hread : s.read r with _ | x
    · simp [step, hread] at hstep
    · simp only [step, hread] at hstep
      split_ifs at hstep
      cases hstep
      exact ⟨sessions_congr hsessions rfl rfl rfl rfl, caches_readFail hcaches hread⟩
  | previewed i =>
    rcases hwaiting : s.waiting[i]? with _ | ⟨t, source⟩
    · simp [step, hwaiting] at hstep
    · rcases hresult : source.result s with _ | _ | e
      · simp [step, hwaiting, hresult] at hstep
      · simp only [step, hwaiting, hresult, Option.some.injEq] at hstep
        rw [← hstep]
        exact ⟨sessions_congr hsessions rfl rfl rfl rfl, caches_waiting hcaches _⟩
      · simp only [step, hwaiting, hresult, Option.some.injEq] at hstep
        rw [← hstep]
        exact ⟨sessions_congr hsessions rfl rfl rfl rfl,
          caches_previewed hcaches t (hok _ hwaiting _ hresult e rfl) _⟩

lemma inv_init : Inv ({} : Library V) where
  sessions :=
    ⟨fun _ h => absurd h (by simp), fun _ h => absurd h (by simp), fun _ => rfl⟩
  caches :=
    ⟨fun _ _ h => absurd h (by simp), fun _ _ h => absurd h (by simp),
      fun _ _ h => absurd h (by simp), fun _ _ => rfl, fun _ h => absurd h List.not_mem_nil,
      fun _ h => absurd h List.not_mem_nil, fun _ _ _ h => absurd h (by simp)⟩

lemma sound_of_inv (h : Inv s) : Sound s where
  closed _ hlast n hup := by
    obtain ⟨x, hx, -⟩ := h.sessions.up n hup
    rw [h.sessions.afterClose hlast] at hx
    exact absurd hx (by simp)
  served := h.caches.served
  shared p hp x v hread hresult := by
    obtain ⟨y, hy, hsince, hpromised⟩ := h.caches.shared p hp
    rw [hread, Option.some.injEq] at hy
    subst hy
    exact Nat.le_trans hsince (h.caches.results p.2 x v hread hresult hpromised)

/-- **Lookups do not leak** along runs in which nothing comes up or fills a cache after it is
too late. -/
theorem lookups_sound {es : List (Event V)} (hok : Along step Careful ({} : Library V) es)
    (hrun : run step {} es = some s) : Sound s :=
  sound_of_inv (invariant_along Inv (fun _ _ _ h hok hstep => inv_step h hok hstep) inv_init hok
    hrun)

def after (es : List (Event ℕ)) : Library ℕ := (run step {} es).getD {}

lemma run_after {es : List (Event ℕ)} (h : (run step ({} : Library ℕ) es).isSome) :
    run step {} es = some (after es) := by
  obtain ⟨s, hs⟩ := Option.isSome_iff_exists.mp h
  rw [after, hs, Option.getD_some]

/-- A footprint is read, served from the cache and shown; the project is closed and another one
is opened. -/
def twoProjects : List (Event ℕ) :=
  [.lookup (.footprint "R:R_0402"), .opened, .cleared, .readOk 0 1,
    .preview (.footprint "R:R_0402"), .previewed 0, .lookup (.tables "footprint"), .readOk 1 2, .lookup (.tables "footprint"), .close,
    .closed 0, .lookup (.footprint "R:R_0402"), .opened, .cleared, .readOk 2 3, .close, .closed 1]

theorem lookups_sound_twoProjects : Sound (after twoProjects) :=
  lookups_sound (by decide +kernel) (run_after (by decide +kernel))

/-- A project is closed while its library session is coming up. -/
def earlyClose : List (Event ℕ) := [.kicad, .close, .opened, .cleared]

/-- The session stays open when all is settled. -/
theorem session_leaks : run step {} earlyClose = some (after earlyClose) ∧
    Settled (after earlyClose) ∧ (after earlyClose).last = true ∧
    (after earlyClose).phase 0 = .up ∧ ¬ Sound (after earlyClose) := by
  have hphase : (after earlyClose).phase = update (update (fun _ => .unasked) 0 .asked) 0 .up := rfl
  have hsettled : Settled (after earlyClose) := by
    refine ⟨fun n => ?_, rfl, fun r x hx => absurd hx ?_, rfl⟩
    · rw [hphase]
      by_cases hn : n = 0
      · subst hn
        decide
      · rw [Function.update_of_ne hn, Function.update_of_ne hn]
        decide
    · have hread : (after earlyClose).read r = none := rfl
      rw [hread]
      simp
  exact ⟨run_after (by decide +kernel), hsettled, rfl, rfl, fun h => h.closed hsettled rfl 0 rfl⟩

end Runs

end FabPcb.LibraryLookups
