import FabPcb.Runs
import Mathlib.Logic.Function.Basic
import Mathlib.Order.Nat

/-!
The restarts of KiCad that a `KiCadClient` tells its listeners of.

Every reply carries the token of the KiCad instance that sent it, and KiCad refuses a request
with the token of another instance. The client sends the token it knows with each request and
takes on the one of a reply. Calls run side by side: requests are answered, and replies come
in, in any order, and KiCad may be restarted at any time. An instance is known by its number.
-/

namespace FabPcb.ServerRestart

open Runs

inductive ApiStatusCode where
  | unknown
  | ok
  | timeout
  | badRequest
  | notReady
  | unhandled
  | tokenMismatch
  | busy
  | unimplemented
  deriving DecidableEq

structure ServerRestartInfo where
  previousToken : String
  newToken : String
  command : String
  deriving DecidableEq

/-- An `ApiResponse`, without its message. -/
structure ApiResponse where
  status : ApiStatusCode
  errorMessage : String
  kicadToken : String
  deriving DecidableEq

/-- What a call does with a reply. -/
inductive Outcome where
  | returns
  | throws (status : ApiStatusCode) (errorMessage command : String)
  | retries
  deriving DecidableEq

/-- What `callRaw` does with a reply: the token it leaves, what it tells the listeners, and how
it goes on. `again` says whether the call may be tried once more. -/
def receive (command : String) (again : Bool) (token : Option String) (res : ApiResponse) :
    Option String × List ServerRestartInfo × Outcome :=
  let replyToken := res.kicadToken
  if res.status = .tokenMismatch then
    let previous := token.getD ""
    (if replyToken = "" then none else some replyToken, [⟨previous, replyToken, command⟩],
      .throws res.status res.errorMessage command)
  else if res.status = .ok then
    if replyToken ≠ "" ∧ some replyToken ≠ token then
      (some replyToken,
        match token with
        | none => []
        | some previous => [⟨previous, replyToken, command⟩],
        .returns)
    else (token, [], .returns)
  else if (res.status = .busy ∨ res.status = .notReady) ∧ again = true then
    (token, [], .retries)
  else (token, [], .throws res.status res.errorMessage command)

/-! ### Calls and instances -/

/-- The tokens of the instances of KiCad. -/
structure Instances where
  token : ℕ → String
  injective : Function.Injective token
  nonempty : ∀ k, token k ≠ ""

/-- Where a call is: about to send its request, waiting for the reply to one with a token, or
given the reply of an instance. -/
inductive Phase where
  | ready
  | sent (kicadToken : String)
  | replied (sender : ℕ) (res : ApiResponse)
  deriving DecidableEq

/-- A call of `callRaw` that has not ended. Its `retry` is off, or on with `maxAttempts`, where
`none` stands for `Infinity`. -/
structure Call where
  command : String
  retry : Option (Option ℕ)
  attempts : ℕ
  phase : Phase
  deriving DecidableEq

/-- A client and the KiCad it talks to. `heard` are the instances whose word about their token
was taken, by a reply with `AS_OK` or `AS_TOKEN_MISMATCH`, in the order of the replies. -/
structure State where
  token : Option String
  restarts : List ServerRestartInfo
  calls : List Call
  current : ℕ
  heard : List ℕ
  deriving DecidableEq

/-- A call is named by its place among those that have not ended. `inTime` says whether the
deadline of the retries leaves time for one more. -/
inductive Action where
  | callRaw (command : String) (retry : Option (Option ℕ))
  | send (call : ℕ)
  | answer (call : ℕ) (status : ApiStatusCode) (errorMessage : String)
  | fail (call : ℕ)
  | receive (call : ℕ) (inTime : Bool)
  | restart

variable (I : Instances)

/-- The reply of the running instance. It refuses a token that is not its own; what it says to
any other request is open. -/
def answer (s : State) (kicadToken : String) (status : ApiStatusCode) (errorMessage : String) :
    Option ApiResponse :=
  if kicadToken ≠ "" ∧ kicadToken ≠ I.token s.current then
    some ⟨.tokenMismatch, errorMessage, I.token s.current⟩
  else if status = .tokenMismatch then none
  else some ⟨status, errorMessage, I.token s.current⟩

/-- A reply whose token the client looks at. -/
def heeded (res : ApiResponse) : Bool := res.status = .ok || res.status = .tokenMismatch

/-- Whether a call has an attempt left. -/
def Call.again (c : Call) (inTime : Bool) : Bool :=
  match c.retry with
  | none => false
  | some none => inTime
  | some (some maxAttempts) => inTime && decide (c.attempts < maxAttempts)

def State.receive (s : State) (call : ℕ) (c : Call) (sender : ℕ) (res : ApiResponse)
    (inTime : Bool) : State :=
  let (token, told, outcome) := ServerRestart.receive c.command (c.again inTime) s.token res
  { s with
    token := token
    restarts := s.restarts ++ told
    heard := if heeded res then s.heard ++ [sender] else s.heard
    calls := if outcome = .retries then s.calls.set call { c with phase := .ready }
      else s.calls.eraseIdx call }

def step (s : State) : Action → Option State
  | .callRaw command retry => some { s with calls := s.calls ++ [⟨command, retry, 0, .ready⟩] }
  | .send call =>
    match s.calls[call]? with
    | some ⟨command, retry, attempts, .ready⟩ =>
      some { s with
        calls := s.calls.set call ⟨command, retry, attempts + 1, .sent (s.token.getD "")⟩ }
    | _ => none
  | .answer call status errorMessage =>
    match s.calls[call]? with
    | some ⟨command, retry, attempts, .sent kicadToken⟩ =>
      (answer I s kicadToken status errorMessage).map fun res =>
        { s with
          calls := s.calls.set call ⟨command, retry, attempts, .replied s.current res⟩ }
    | _ => none
  | .fail call =>
    match s.calls[call]? with
    | some ⟨_, _, _, .sent _⟩ => some { s with calls := s.calls.eraseIdx call }
    | _ => none
  | .receive call inTime =>
    match s.calls[call]? with
    | some ⟨command, retry, attempts, .replied sender res⟩ =>
      some (s.receive call ⟨command, retry, attempts, .replied sender res⟩ sender res inTime)
    | _ => none
  | .restart => some { s with current := s.current + 1 }

/-- A new client, with the token of the instance given as `opts.kicadToken`, if any. -/
def start (known : Option ℕ) (current : ℕ) : State :=
  ⟨known.map I.token, [], [], current, []⟩

/-! ### The changes of instance -/

/-- The newest of the instances heard from, one known at the start among them. -/
def newest (known : Option ℕ) : List ℕ → Option ℕ
  | [] => known
  | i :: is => newest (some (known.elim i (max i))) is

/-- The changes of instance that can be told from the instances heard from: each from the
newest one so far to one started after it. -/
def changes (known : Option ℕ) : List ℕ → List (ℕ × ℕ)
  | [] => []
  | i :: is =>
    (known.elim [] fun k => if k < i then [(k, i)] else []) ++
      changes (some (known.elim i (max i))) is

/-- Each notification has two different tokens, and each change of instance is notified once,
in order, and nothing else is. -/
structure Notified (known : Option ℕ) (s : State) : Prop where
  differ : ∀ x ∈ s.restarts, x.previousToken ≠ x.newToken
  once : s.restarts.map (fun x => (x.previousToken, x.newToken)) =
    (changes known s.heard).map fun c => (I.token c.1, I.token c.2)

/-- A mismatch reply comes from an instance newer than those heard from, and a good reply from
none older. -/
def Timely (known : Option ℕ) (s : State) : Action → Prop
  | .receive call _ =>
    ∀ c ∈ s.calls[call]?, ∀ sender res, c.phase = .replied sender res →
      ∀ k ∈ newest known s.heard,
        (res.status = .tokenMismatch → k < sender) ∧ (res.status = .ok → k ≤ sender)
  | _ => True

variable {I : Instances} {known : Option ℕ} {s t : State} {i k : ℕ} {is : List ℕ}

lemma newest_snoc (is : List ℕ) (i : ℕ) (known : Option ℕ) :
    newest known (is ++ [i]) = some ((newest known is).elim i (max i)) := by
  induction is generalizing known with
  | nil => rfl
  | cons j is ih => exact ih _

lemma changes_snoc (is : List ℕ) (i : ℕ) (known : Option ℕ) :
    changes known (is ++ [i]) =
      changes known is ++ (newest known is).elim [] fun k => if k < i then [(k, i)] else [] := by
  induction is generalizing known with
  | nil => simp [changes, newest]
  | cons j is ih => simp [List.cons_append, changes, newest, ih, List.append_assoc]

lemma lt_of_mem_changes {c : ℕ × ℕ} (h : c ∈ changes known is) : c.1 < c.2 := by
  induction is generalizing known with
  | nil => cases h
  | cons j is ih =>
    rcases List.mem_append.mp h with h | h
    · cases known with
      | none => cases h
      | some k =>
        by_cases hlt : k < j
        · rw [Option.elim_some, if_pos hlt, List.mem_singleton] at h
          exact h ▸ hlt
        · rw [Option.elim_some, if_neg hlt] at h
          cases h
    · exact ih h

lemma notified_iff : Notified I known s ↔
    s.restarts.map (fun x => (x.previousToken, x.newToken)) =
      (changes known s.heard).map fun c => (I.token c.1, I.token c.2) := by
  refine ⟨Notified.once, fun h => ⟨fun x hx heq => ?_, h⟩⟩
  have hmem : (x.previousToken, x.newToken) ∈
      (changes known s.heard).map fun c => (I.token c.1, I.token c.2) :=
    h ▸ List.mem_map_of_mem hx
  obtain ⟨c, hc, htokens⟩ := List.mem_map.mp hmem
  have hsame : I.token c.1 = I.token c.2 := by
    rw [Prod.mk.injEq] at htokens
    rw [htokens.1, htokens.2, heq]
  exact absurd (I.injective hsame) (Nat.ne_of_lt (lt_of_mem_changes hc))

/-! ### What a step keeps -/

/-- What is known of a call: a request with a token was sent, and a mismatch was answered, only
once an instance was known; a reply has the token of the instance that sent it. -/
def Phase.Sound (I : Instances) (newest : Option ℕ) : Phase → Prop
  | .ready => True
  | .sent kicadToken => kicadToken ≠ "" → newest ≠ none
  | .replied sender res =>
    res.kicadToken = I.token sender ∧ (res.status = .tokenMismatch → newest ≠ none)

/-- The client knows the token of the newest instance heard from. -/
structure Inv (I : Instances) (known : Option ℕ) (s : State) : Prop where
  token : s.token = (newest known s.heard).map I.token
  calls : ∀ c ∈ s.calls, c.phase.Sound I (newest known s.heard)

lemma inv_start (current : ℕ) : Inv I known (start I known current) :=
  ⟨rfl, fun _ hc => (by cases hc)⟩

lemma notified_start (current : ℕ) : Notified I known (start I known current) :=
  notified_iff.mpr rfl

variable {res : ApiResponse} {command : String} {again : Bool} {token : Option String}

variable (command again token) in
lemma receive_unheeded (h : heeded res = false) :
    (receive command again token res).1 = token ∧
      (receive command again token res).2.1 = [] := by
  have hok : res.status ≠ .ok := fun h' => by simp [heeded, h'] at h
  have hmismatch : res.status ≠ .tokenMismatch := fun h' => by simp [heeded, h'] at h
  simp only [receive, if_neg hmismatch, if_neg hok]
  by_cases hretry : (res.status = .busy ∨ res.status = .notReady) ∧ again = true
  · rw [if_pos hretry]
    exact ⟨rfl, rfl⟩
  · rw [if_neg hretry]
    exact ⟨rfl, rfl⟩

lemma receive_token (h : heeded res = true) (htoken : res.kicadToken = I.token i) :
    (receive command again token res).1 = some (I.token i) := by
  have hne : res.kicadToken ≠ "" := htoken ▸ I.nonempty i
  by_cases hmismatch : res.status = .tokenMismatch
  · simp [receive, if_pos hmismatch, htoken, if_neg (I.nonempty i)]
  · have hok : res.status = .ok := by simpa [heeded, hmismatch] using h
    simp only [receive, if_neg hmismatch, if_pos hok]
    by_cases hsame : some res.kicadToken = token
    · rw [if_neg fun h' => h'.2 hsame, ← hsame, htoken]
    · rw [if_pos ⟨hne, hsame⟩, htoken]

lemma told_none (h : res.status ≠ .tokenMismatch) :
    (receive command again none res).2.1 = [] := by
  simp only [receive, if_neg h]
  by_cases hok : res.status = .ok
  · rw [if_pos hok]
    by_cases hne : res.kicadToken = ""
    · rw [if_neg fun h' => h'.1 hne]
    · rw [if_pos ⟨hne, Option.some_ne_none _⟩]
  · rw [if_neg hok]
    by_cases hretry : (res.status = .busy ∨ res.status = .notReady) ∧ again = true
    · rw [if_pos hretry]
    · rw [if_neg hretry]

lemma told_some (h : heeded res = true) (htoken : res.kicadToken = I.token i) :
    (receive command again (some (I.token k)) res).2.1 =
      if res.status = .tokenMismatch ∨ i ≠ k then [⟨I.token k, I.token i, command⟩] else [] := by
  have hne : res.kicadToken ≠ "" := htoken ▸ I.nonempty i
  by_cases hmismatch : res.status = .tokenMismatch
  · simp [receive, if_pos hmismatch, if_pos (Or.inl hmismatch), htoken,
      Option.getD_some]
  · have hok : res.status = .ok := by simpa [heeded, hmismatch] using h
    simp only [receive, if_neg hmismatch, if_pos hok]
    by_cases hik : i = k
    · subst hik
      rw [if_neg fun h' => h'.2 (congrArg some htoken),
        if_neg fun h' => h'.elim hmismatch fun h'' => h'' rfl]
    · have hdiffer : some res.kicadToken ≠ some (I.token k) := fun h' =>
        hik (I.injective (htoken ▸ Option.some.inj h'))
      rw [if_pos ⟨hne, hdiffer⟩, if_pos (Or.inr hik), htoken]

/-- What is told is the change there is just when the reply is timely. -/
lemma told_iff (h : heeded res = true) (htoken : res.kicadToken = I.token i)
    (n : Option ℕ) (hn : res.status = .tokenMismatch → n ≠ none) :
    ((receive command again (n.map I.token) res).2.1.map
        (fun x => (x.previousToken, x.newToken)) =
      (n.elim [] fun k => if k < i then [(k, i)] else []).map
        fun c => (I.token c.1, I.token c.2)) ↔
      ∀ k ∈ n, (res.status = .tokenMismatch → k < i) ∧ (res.status = .ok → k ≤ i) := by
  cases n with
  | none =>
    have hok : res.status ≠ .tokenMismatch := fun h' => hn h' rfl
    rw [Option.map_none, told_none hok]
    exact ⟨fun _ k hk => (by cases hk), fun _ => rfl⟩
  | some k =>
    rw [Option.map_some, told_some h htoken]
    by_cases hmismatch : res.status = .tokenMismatch
    · by_cases hlt : k < i <;> simp [hmismatch, hlt]
    · have hok : res.status = .ok := by simpa [heeded, hmismatch] using h
      rcases Nat.lt_trichotomy k i with hlt | heq | hgt
      · simp [hok, hlt, hlt.ne', hlt.le]
      · simp [hok, heq]
      · simp [hok, hgt.ne, hgt.not_gt, hgt]

lemma Phase.Sound.mono {n n' : Option ℕ} {p : Phase} (h : p.Sound I n)
    (hn : n ≠ none → n' ≠ none) : p.Sound I n' := by
  cases p with
  | ready => trivial
  | sent kicadToken => exact fun ht => hn (h ht)
  | replied sender res => exact ⟨h.1, fun hs => hn (h.2 hs)⟩

/-- What a step that takes no reply does. -/
structure Quiet (s t : State) : Prop where
  token : t.token = s.token
  restarts : t.restarts = s.restarts
  heard : t.heard = s.heard

lemma quiet_inv (hs : Inv I known s) (h : Quiet s t)
    (hcalls : ∀ c ∈ t.calls, c ∈ s.calls ∨ c.phase.Sound I (newest known s.heard)) :
    Inv I known t := by
  refine ⟨by rw [h.token, h.heard, hs.token], fun c hc => ?_⟩
  rw [h.heard]
  exact (hcalls c hc).elim (hs.calls c) id

lemma quiet_notified (h : Quiet s t) : Notified I known t ↔ Notified I known s := by
  rw [notified_iff, notified_iff, h.restarts, h.heard]

/-- A reply taken, from a state where the client knows the newest instance. -/
lemma receive_step (hs : Inv I known s) (hn : Notified I known s) {n : ℕ} {c : Call}
    {inTime : Bool} (hc : c ∈ s.calls) (hphase : c.phase = .replied i res) :
    ((∀ k ∈ newest known s.heard,
        (res.status = .tokenMismatch → k < i) ∧ (res.status = .ok → k ≤ i)) ↔
      Notified I known (s.receive n c i res inTime)) ∧
    ((∀ k ∈ newest known s.heard,
        (res.status = .tokenMismatch → k < i) ∧ (res.status = .ok → k ≤ i)) →
      Inv I known (s.receive n c i res inTime)) := by
  have hsound := hs.calls c hc
  rw [hphase] at hsound
  obtain ⟨htoken, hmismatch⟩ := hsound
  have hcalls : ∀ n', (newest known s.heard ≠ none → n' ≠ none) →
      ∀ c' ∈ (s.receive n c i res inTime).calls, c'.phase.Sound I n' := by
    intro n' hn' c' hc'
    simp only [State.receive] at hc'
    by_cases hretry :
        (receive c.command (c.again inTime) s.token res).2.2 = .retries
    · rw [if_pos hretry] at hc'
      rcases List.mem_or_eq_of_mem_set hc' with hc' | rfl
      · exact (hs.calls c' hc').mono hn'
      · trivial
    · rw [if_neg hretry] at hc'
      exact (hs.calls c' (List.mem_of_mem_eraseIdx hc')).mono hn'
  cases hheed : heeded res with
  | false =>
    obtain ⟨hsame, hquiet⟩ := receive_unheeded c.command (c.again inTime) s.token hheed
    have hq : Quiet s (s.receive n c i res inTime) :=
      ⟨hsame, by simp [State.receive, hquiet, List.append_nil],
        by simp only [State.receive, hheed]; rfl⟩
    have htimely : ∀ k ∈ newest known s.heard,
        (res.status = .tokenMismatch → k < i) ∧ (res.status = .ok → k ≤ i) := fun k _ =>
      ⟨fun h => by simp [heeded, h] at hheed, fun h => by simp [heeded, h] at hheed⟩
    refine ⟨iff_of_true htimely ((quiet_notified hq).mpr hn), fun _ => ?_⟩
    exact quiet_inv hs hq fun c' hc' => Or.inr (hcalls _ id c' hc')
  | true =>
    have hheard : (s.receive n c i res inTime).heard = s.heard ++ [i] := by
      simp [State.receive, hheed]
    have hrestarts : (s.receive n c i res inTime).restarts = s.restarts ++
        (receive c.command (c.again inTime) ((newest known s.heard).map I.token) res).2.1 := by
      rw [← hs.token]
      rfl
    constructor
    · rw [notified_iff, hheard, hrestarts, changes_snoc, List.map_append, List.map_append,
        hn.once, List.append_cancel_left_eq]
      exact (told_iff hheed htoken _ hmismatch).symm
    · intro htimely
      have hnewest : newest known (s.heard ++ [i]) = some i := by
        rw [newest_snoc]
        cases hk : newest known s.heard with
        | none => rfl
        | some k =>
          obtain ⟨h₁, h₂⟩ := htimely k hk
          have hle : k ≤ i := by
            by_cases hok : res.status = .ok
            · exact h₂ hok
            · exact (h₁ (by simpa [heeded, hok] using hheed)).le
          rw [Option.elim_some, max_eq_left hle]
      refine ⟨?_, fun c' hc' => ?_⟩
      · rw [hheard, hnewest]
        exact receive_token hheed htoken
      · rw [hheard, hnewest]
        exact hcalls _ (fun _ => Option.some_ne_none i) c' hc'

lemma answer_sound {kicadToken errorMessage : String} {status : ApiStatusCode}
    (h : answer I s kicadToken status errorMessage = some res) :
    res.kicadToken = I.token s.current ∧ (res.status = .tokenMismatch → kicadToken ≠ "") := by
  rw [answer] at h
  by_cases hother : kicadToken ≠ "" ∧ kicadToken ≠ I.token s.current
  · rw [if_pos hother] at h
    exact Option.some.inj h ▸ ⟨rfl, fun _ => hother.1⟩
  · rw [if_neg hother] at h
    by_cases hmismatch : status = .tokenMismatch
    · rw [if_pos hmismatch] at h
      cases h
    · rw [if_neg hmismatch] at h
      exact Option.some.inj h ▸ ⟨rfl, fun h' => absurd h' hmismatch⟩

/-- What an action does: it takes a reply, or it is quiet and each call it leaves is an old one
or sound. -/
lemma step_cases (hs : Inv I known s) {a : Action} (h : step I s a = some t) :
    (Timely known s a ∧ Quiet s t ∧
      ∀ c ∈ t.calls, c ∈ s.calls ∨ c.phase.Sound I (newest known s.heard)) ∨
    ∃ call inTime c sender res, a = .receive call inTime ∧ s.calls[call]? = some c ∧
      c.phase = .replied sender res ∧ t = s.receive call c sender res inTime := by
  cases a with
  | callRaw command retry =>
    obtain rfl := Option.some.inj h
    refine Or.inl ⟨trivial, ⟨rfl, rfl, rfl⟩, fun c hc => ?_⟩
    rcases List.mem_append.mp hc with hc | hc
    · exact Or.inl hc
    · rw [List.mem_singleton] at hc
      exact Or.inr (hc ▸ trivial)
  | send call =>
    cases hc : s.calls[call]? with
    | none => simp [step, hc, reduceCtorEq] at h
    | some c =>
      obtain ⟨command, retry, attempts, phase⟩ := c
      cases phase with
      | ready =>
        simp only [step, hc, Option.some.injEq] at h
        subst h
        refine Or.inl ⟨trivial, ⟨rfl, rfl, rfl⟩, fun c hc => ?_⟩
        rcases List.mem_or_eq_of_mem_set hc with hc | rfl
        · exact Or.inl hc
        · refine Or.inr fun hne hnone => hne ?_
          rw [hs.token, hnone]
          rfl
      | sent kicadToken => simp [step, hc, reduceCtorEq] at h
      | replied sender res => simp [step, hc, reduceCtorEq] at h
  | answer call status errorMessage =>
    cases hc : s.calls[call]? with
    | none => simp [step, hc, reduceCtorEq] at h
    | some c =>
      obtain ⟨command, retry, attempts, phase⟩ := c
      cases phase with
      | ready => simp [step, hc, reduceCtorEq] at h
      | sent kicadToken =>
        simp only [step, hc, Option.map_eq_some_iff] at h
        obtain ⟨res, hres, rfl⟩ := h
        obtain ⟨htoken, hsent⟩ := answer_sound hres
        have hsound := hs.calls _ (List.mem_of_getElem? hc)
        refine Or.inl ⟨trivial, ⟨rfl, rfl, rfl⟩, fun c hc => ?_⟩
        rcases List.mem_or_eq_of_mem_set hc with hc | rfl
        · exact Or.inl hc
        · exact Or.inr ⟨htoken, fun h' => hsound (hsent h')⟩
      | replied sender res => simp [step, hc, reduceCtorEq] at h
  | fail call =>
    cases hc : s.calls[call]? with
    | none => simp [step, hc, reduceCtorEq] at h
    | some c =>
      obtain ⟨command, retry, attempts, phase⟩ := c
      cases phase with
      | ready => simp [step, hc, reduceCtorEq] at h
      | sent kicadToken =>
        simp only [step, hc, Option.some.injEq] at h
        subst h
        exact Or.inl ⟨trivial, ⟨rfl, rfl, rfl⟩,
          fun c hc => Or.inl (List.mem_of_mem_eraseIdx hc)⟩
      | replied sender res => simp [step, hc, reduceCtorEq] at h
  | receive call inTime =>
    cases hc : s.calls[call]? with
    | none => simp [step, hc, reduceCtorEq] at h
    | some c =>
      obtain ⟨command, retry, attempts, phase⟩ := c
      cases phase with
      | ready => simp [step, hc, reduceCtorEq] at h
      | sent kicadToken => simp [step, hc, reduceCtorEq] at h
      | replied sender res =>
        simp only [step, hc, Option.some.injEq] at h
        exact Or.inr ⟨call, inTime, _, sender, res, rfl, hc, rfl, h.symm⟩
  | restart =>
    obtain rfl := Option.some.inj h
    exact Or.inl ⟨trivial, ⟨rfl, rfl, rfl⟩, fun c hc => Or.inl hc⟩

lemma timely_of_none {a : Action} (h : step I s a = none) : Timely known s a := by
  cases a with
  | receive call inTime =>
    intro c hc sender res hphase
    obtain ⟨command, retry, attempts, phase⟩ := c
    obtain rfl : phase = .replied sender res := hphase
    simp [step, Option.mem_def.mp hc, reduceCtorEq] at h
  | callRaw command retry => trivial
  | send call => trivial
  | answer call status errorMessage => trivial
  | fail call => trivial
  | restart => trivial

lemma timely_receive {call : ℕ} {c : Call} {inTime : Bool} (hc : s.calls[call]? = some c)
    (hphase : c.phase = .replied i res) :
    Timely known s (.receive call inTime) ↔ ∀ k ∈ newest known s.heard,
      (res.status = .tokenMismatch → k < i) ∧ (res.status = .ok → k ≤ i) := by
  refine ⟨fun h => h c hc i res hphase, fun h c' hc' i' res' hphase' => ?_⟩
  obtain rfl : c = c' := Option.some.inj (hc.symm.trans hc')
  rw [hphase] at hphase'
  obtain ⟨rfl, rfl⟩ := hphase'
  exact h

/-- **Restart notification.** However calls of a client run side by side with restarts of
KiCad, it notifies of each change of instance it hears of once, and of nothing else, with a
previous token that differs from the new one, at each state of a run just when the replies it
takes are timely: no mismatch comes from an instance it has heard from or an older one, and no
good reply from an instance older than one it has heard from. -/
theorem restart_notification (I : Instances) (known : Option ℕ) (current : ℕ)
    (as : List Action) :
    Along (step I) (Timely known) (start I known current) as ↔
      ∀ p, p <+: as → ∀ s, run (step I) (start I known current) p = some s →
        Notified I known s := by
  refine along_iff (Inv I known) (Notified I known) (fun s a t hs hn h => ?_)
    (fun s a => timely_of_none) (inv_start current) (notified_start current)
  rcases step_cases hs h with
    ⟨htimely, hquiet, hcalls⟩ | ⟨call, inTime, c, i, res, rfl, hc, hp, rfl⟩
  · exact ⟨iff_of_true htimely ((quiet_notified hquiet).mpr hn),
      fun _ => quiet_inv hs hquiet hcalls⟩
  · rw [timely_receive hc hp]
    exact receive_step hs hn (List.mem_of_getElem? hc) hp

/-- Instances with the tokens `x`, `xx`, `xxx` and so on. -/
def sampleInstances : Instances where
  token k := String.ofList (List.replicate (k + 1) 'x')
  injective k l h := by
    have hlen := congrArg List.length (String.ofList_injective h)
    simp only [List.length_replicate] at hlen
    omega
  nonempty k h := by
    have hlen := congrArg String.toList h
    simp [List.replicate_succ] at hlen

/-- Two calls are under way when KiCad is restarted, and both are refused: the second is told
as a restart of the new instance into itself. -/
theorem restart_told_twice :
    ∃ s, run (step sampleInstances) (start sampleInstances (some 0) 0)
        [.callRaw "GetVersion" (some none), .callRaw "GetNets" (some none), .send 0, .send 1,
          .restart, .answer 0 .ok "", .answer 1 .ok "", .receive 0 true, .receive 0 true] =
        some s ∧
      s.restarts = [⟨"x", "xx", "GetVersion"⟩, ⟨"xx", "xx", "GetNets"⟩] ∧
      ¬ Notified sampleInstances (some 0) s := by
  refine ⟨_, rfl, by decide, fun h => ?_⟩
  exact h.differ ⟨"xx", "xx", "GetNets"⟩ (by decide) rfl

end FabPcb.ServerRestart
