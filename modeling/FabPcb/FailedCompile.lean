import FabPcb.Compile
import FabPcb.OutlineRebuild

/-!
A compile that fails before the import.

Between the validation and the dry run the job's hook removes the routed copper of a clean rebuild and
sets the board's constraints. A compile that fails after that, in the dry run or at the outline, has
changed the board.
-/

namespace FabPcb.FailedCompile

open Outline BoardJob ApplyNetlist OutlineRebuild
open NetlistChecks Compile

/-! ### Jobs only issue further requests -/

def Grows {α : Type} (x : Job α) : Prop := ∀ s a t, x s = .ok (a, t) → s.issued <+: t.issued

section Grows

variable {α β : Type} {x : Job α} {f : α → Job β} {fails : Fails}

lemma grows_pure (a : α) : Grows (pure a : Job α) := by
  intro s b t h
  obtain ⟨_, rfl⟩ := pure_ok.mp h
  exact List.prefix_rfl

lemma grows_bind (hx : Grows x) (hf : ∀ a, Grows (f a)) : Grows (x >>= f) := by
  intro s b t h
  obtain ⟨a, u, hfirst, hrest⟩ := bind_ok.mp h
  exact (hx s a u hfirst).trans (hf a u b t hrest)

lemma grows_ask (r : Request) : Grows (ask fails r) := by
  intro s a t h
  obtain ⟨_, rfl⟩ := ask_ok.mp h
  exact List.prefix_append ..

lemma grows_cancelled (aborted : Bool) : Grows (cancelled aborted) := by
  intro s a t h
  obtain ⟨_, rfl⟩ := cancelled_ok.mp h
  exact List.prefix_rfl

lemma grows_onlyIf {c : Prop} [Decidable c] (hx : Grows x) (a : α) : Grows (onlyIf c x a) := by
  intro s b t h
  rcases onlyIf_ok h with ⟨_, hrun⟩ | ⟨_, _, rfl⟩
  · exact hx s b t hrun
  · exact List.prefix_rfl

lemma grows_ite {c : Prop} [Decidable c] {y : Job α} (hx : Grows x) (hy : Grows y) :
    Grows (if c then x else y) := by
  split
  · exact hx
  · exact hy

lemma grows_getShapes : Grows (getShapes fails) := by
  intro s a t h
  obtain ⟨_, rfl⟩ := getShapes_ok h
  exact List.prefix_append ..

lemma grows_commit (message : String) (changes : List Change) :
    Grows (commit fails message changes) := by
  intro s a t h
  obtain rfl := commit_ok h
  exact List.prefix_append ..

variable {nm : ℚ → ℤ} {srv : Server} {opts : ApplyOptions}

lemma grows_insetOutline (ids : List String) (marginNm : ℤ) :
    Grows (insetOutline srv ids marginNm) := by
  refine grows_ite (grows_pure _) (grows_bind grows_getShapes fun shapes => ?_)
  refine grows_ite (grows_pure _) (grows_bind (grows_ask _) fun _ => ?_)
  refine grows_ite (grows_pure _) (grows_bind (grows_ask _) fun _ => ?_)
  split
  · exact grows_pure _
  · refine grows_bind grows_getShapes fun shapes' => ?_
    exact grows_ite (grows_pure _) (grows_bind (grows_commit _ _) fun _ => grows_pure _)

lemma grows_autoplace (ids : List String) :
    Grows (modify fun s => { s with issued := s.issued ++ [.autoplace ids] }) := by
  intro s a t h
  cases h
  exact List.prefix_append ..

lemma grows_autoplaceAdded (outline : OutlineOutcome) (ids : List String) :
    Grows (autoplaceAdded srv opts outline ids) := by
  refine grows_bind (grows_ask _) fun _ => grows_bind (grows_autoplace ids) fun _ =>
    grows_bind (grows_ask _) fun _ => ?_
  split
  · exact grows_pure _
  · refine grows_ite (grows_pure _) (grows_ite (grows_pure _) (grows_ite (grows_pure _) ?_))
    refine grows_ite ?_ (grows_ite (grows_pure _) (grows_pure _))
    exact grows_bind (grows_insetOutline _ _) fun _ => grows_pure _

lemma grows_placeFootprints (placements : List ComponentPlacement) :
    Grows (placeFootprints nm srv placements) := by
  refine grows_bind (grows_ask _) fun _ => ?_
  exact grows_ite (grows_bind (grows_commit _ _) fun _ => grows_pure _) (grows_pure _)

lemma importAndPlace_issues {outline : OutlineOutcome} {s t : Session} {o : ApplyOutcome}
    (h : importAndPlace nm srv opts outline s = .ok (o, t)) :
    Request.updateBoard false ∈ t.issued := by
  obtain ⟨_, s₁, hcancel, h⟩ := bind_ok.mp h
  obtain ⟨_, s₂, hids, h⟩ := bind_ok.mp h
  obtain ⟨_, s₃, himport, h⟩ := bind_ok.mp h
  obtain ⟨_, rfl⟩ := ask_ok.mp himport
  have hgrows := (grows_bind (grows_ask _) fun _ =>
    grows_bind (grows_onlyIf (grows_ask _) _) fun _ =>
    grows_bind (grows_onlyIf (grows_cancelled _) _) fun _ =>
    grows_bind (grows_onlyIf (grows_autoplaceAdded _ _) _) fun _ =>
    grows_bind (grows_onlyIf (grows_cancelled _) _) fun _ =>
    grows_bind (grows_onlyIf (grows_placeFootprints _) _) fun _ => grows_pure _) _ _ _ h
  exact hgrows.subset (List.mem_append_right _ List.mem_cons_self)

end Grows

/-! ### Short of the import -/

/-- Among the requests is one that changes the board. -/
def ChangesBoard (issued : List Request) : Prop := ∃ r ∈ issued, r.changesBoard = true

/-- From `s` to `t` nothing was imported, and the board was changed if `touched`. -/
structure Prepared (touched : Prop) (s t : Session) : Prop where
  shapes : t.board.shapes = s.board.shapes
  board : ¬ touched → t.board = s.board
  issued : ∃ rs, t.issued = s.issued ++ rs ∧ Request.updateBoard false ∉ rs ∧
    (ChangesBoard rs ↔ touched)

section Prepared

variable {p q : Prop} {s t u : Session} {fails : Fails}

lemma Prepared.refl (s : Session) : Prepared False s s :=
  ⟨rfl, fun _ => rfl, [], (List.append_nil _).symm, List.not_mem_nil,
    fun ⟨_, hr, _⟩ => absurd hr List.not_mem_nil, False.elim⟩

lemma Prepared.trans (h : Prepared p s t) (h' : Prepared q t u) : Prepared (p ∨ q) s u := by
  obtain ⟨rs, hrs, hno, hchanges⟩ := h.issued
  obtain ⟨rs', hrs', hno', hchanges'⟩ := h'.issued
  refine ⟨h'.shapes.trans h.shapes, fun hnot => ?_, rs ++ rs', ?_, ?_, ?_⟩
  · obtain ⟨hp, hq⟩ := not_or.mp hnot
    exact (h'.board hq).trans (h.board hp)
  · rw [hrs', hrs, List.append_assoc]
  · exact fun hmem => (List.mem_append.mp hmem).elim hno hno'
  · rw [← hchanges, ← hchanges']
    simp [ChangesBoard, List.mem_append, or_and_right, exists_or]

lemma Prepared.congr (h : Prepared p s t) (hpq : p ↔ q) : Prepared q s t := propext hpq ▸ h

lemma Prepared.after (h' : Prepared q t u) (h : Prepared False s t) : Prepared q s u :=
  (h.trans h').congr (iff_of_eq (false_or q))

lemma prepared_issued {r : Request} (hr : r.changesBoard = false) (s : Session) :
    Prepared False s { s with issued := s.issued ++ [r] } := by
  refine ⟨rfl, fun _ => rfl, [r], rfl, fun hmem => ?_, fun ⟨r', hr', hchanges⟩ => ?_, False.elim⟩
  · rw [← List.mem_singleton.mp hmem] at hr
    exact Bool.noConfusion hr
  · rw [List.mem_singleton.mp hr', hr] at hchanges
    exact Bool.noConfusion hchanges

lemma prepared_ask {r : Request} {a : Unit} (hr : r.changesBoard = false)
    (h : ask fails r s = .ok (a, t)) : Prepared False s t := by
  obtain ⟨_, rfl⟩ := ask_ok.mp h
  exact prepared_issued hr s

lemma prepared_change {r : Request} {b : Board} (hr : r.changesBoard = true)
    (hno : r ≠ .updateBoard false) (hshapes : b.shapes = s.board.shapes) :
    Prepared True s ⟨b, s.issued ++ [r]⟩ := by
  refine ⟨hshapes, fun hnot => absurd trivial hnot, [r], rfl, fun hmem => ?_, fun _ => trivial,
    fun _ => ⟨r, List.mem_cons_self, hr⟩⟩
  exact hno (List.mem_singleton.mp hmem).symm

lemma prepared_onlyIf {α : Type} {c : Prop} [Decidable c] {x : Job α} {a b : α}
    (hx : x s = .ok (b, t) → Prepared p s t) (h : onlyIf c x a s = .ok (b, t)) :
    Prepared (c ∧ p) s t := by
  rcases onlyIf_ok h with ⟨hc, hrun⟩ | ⟨hc, _, rfl⟩
  · exact (hx hrun).congr ⟨fun hp => ⟨hc, hp⟩, fun hp => hp.2⟩
  · exact (Prepared.refl _).congr ⟨False.elim, fun hp => hc hp.1⟩

lemma prepared_askIf {c : Prop} [Decidable c] {r : Request} {a b : Unit}
    (hr : r.changesBoard = false) (h : onlyIf c (ask fails r) a s = .ok (b, t)) :
    Prepared False s t :=
  (prepared_onlyIf (prepared_ask hr) h).congr (iff_of_eq (and_false c))

lemma Prepared.issued_iff {b : Board} (h : Prepared p ⟨b, []⟩ t) :
    Request.updateBoard false ∉ t.issued ∧ (ChangesBoard t.issued ↔ p) := by
  obtain ⟨rs, hrs, hno, hchanges⟩ := h.issued
  rw [hrs]
  exact ⟨hno, hchanges⟩

end Prepared

/-! ### The hook -/

section Hook

variable {nm : ℚ → ℤ} {srv : JobServer} {libraries : List LibrarySpec} {req : CompileJobRequest}
  {built : FrontendResult} {s t : Session}

/-- There is routed copper on the board of a clean rebuild. -/
def ClearsCopper (req : CompileJobRequest) (b : Board) : Prop :=
  req.rebuild = .clean ∧ ∃ x ∈ b.tracks, isRouted x = true

/-- The board has rules. -/
def SetsConstraints (req : CompileJobRequest) (built : FrontendResult) : Prop :=
  ∃ r, rulesOf req built = some r ∧ hasRules r = true

lemma removeRouted_prepared {fails : Fails} {a : Unit} (h : removeRouted fails s = .ok (a, t)) :
    Prepared (∃ x ∈ s.board.tracks, isRouted x = true) s t := by
  obtain ⟨tracks, u, htracks, h⟩ := bind_ok.mp h
  obtain ⟨rfl, rfl⟩ := getTracks_ok htracks
  refine Prepared.after ?_ (prepared_issued (r := .getTracks) rfl s)
  have hany : s.board.tracks.filter isRouted ≠ [] ↔ ∃ x ∈ s.board.tracks, isRouted x = true := by
    simp [ne_eq, List.filter_eq_nil_iff, not_forall]
  refine (prepared_onlyIf (p := True) (fun hcommit => ?_) h).congr
    ((iff_of_eq (and_true _)).trans hany)
  obtain rfl := commit_ok hcommit
  exact prepared_change rfl (fun hc => by cases hc) rfl

lemma applyBoardConstraints_prepared {r : BoardRules} {a : Unit}
    (h : applyBoardConstraints nm srv r s = .ok (a, t)) : Prepared (hasRules r = true) s t := by
  refine (prepared_onlyIf (p := True) (fun hrun => ?_) h).congr (iff_of_eq (and_true _))
  obtain ⟨_, u, hread, hset⟩ := bind_ok.mp hrun
  refine Prepared.after ?_ (prepared_ask rfl hread)
  obtain ⟨_, rfl⟩ := ask_ok.mp hset
  exact prepared_change rfl (fun hc => by cases hc) rfl

lemma applyRules_prepared {rules : Option BoardRules} {a : Unit}
    (h : applyRules nm srv rules s = .ok (a, t)) :
    Prepared (∃ r, rules = some r ∧ hasRules r = true) s t := by
  cases rules with
  | none =>
    obtain ⟨_, rfl⟩ := pure_ok.mp h
    exact (Prepared.refl _).congr ⟨False.elim, fun ⟨r, hr, _⟩ => by cases hr⟩
  | some r =>
    refine (prepared_onlyIf applyBoardConstraints_prepared h).congr ?_
    simp

/-- **The hook** changes the board if the schematic is in order. -/
lemma beforeApply_ok {ds : List Diagnostic}
    (h : beforeApply nm srv libraries req built s = .ok (ds, t)) :
    ds = schematicProblems srv ∧ Prepared (hasErrors (schematicProblems srv) = false ∧
      (ClearsCopper req s.board ∨ SetsConstraints req built)) s t := by
  obtain ⟨_, s₁, hregister, h⟩ := bind_ok.mp h
  have h₁ := prepared_askIf rfl hregister
  obtain ⟨_, s₂, hgenerate, h⟩ := bind_ok.mp h
  have h₂ := (prepared_ask rfl hgenerate).after h₁
  obtain ⟨_, s₃, hreopen, h⟩ := bind_ok.mp h
  have h₃ := (prepared_askIf rfl hreopen).after h₂
  obtain ⟨_, s₄, herc, h⟩ := bind_ok.mp h
  have h₄ := (prepared_ask rfl herc).after h₃
  obtain ⟨merges, s₅, hmerges, h⟩ := bind_ok.mp h
  obtain ⟨_, s₆, hlabels, hpure⟩ := bind_ok.mp hmerges
  obtain ⟨rfl, rfl⟩ := pure_ok.mp hpure
  have h₆ := (prepared_askIf rfl hlabels).after h₄
  have hboard : s₆.board = s.board := h₆.board not_false
  change (if hasErrors (schematicProblems srv) = true then _ else _ : Job _) _ = _ at h
  split at h
  next hbad =>
    obtain ⟨_, s₇, hrestore, h⟩ := bind_ok.mp h
    obtain ⟨rfl, rfl⟩ := pure_ok.mp h
    refine ⟨rfl, ((prepared_ask rfl hrestore).after h₆).congr ⟨False.elim, fun hc => ?_⟩⟩
    rw [hbad] at hc
    exact Bool.noConfusion hc.1
  next hgood =>
    obtain ⟨_, s₇, hclean, h⟩ := bind_ok.mp h
    obtain ⟨_, s₈, hrules, h⟩ := bind_ok.mp h
    obtain ⟨rfl, rfl⟩ := pure_ok.mp h
    have h₇ := prepared_onlyIf removeRouted_prepared hclean
    refine ⟨rfl, ((h₇.trans (applyRules_prepared hrules)).after h₆).congr ?_⟩
    rw [hboard]
    exact ⟨fun hor => ⟨Bool.not_eq_true _ ▸ hgood, hor⟩, fun hc => hc.2⟩

end Hook

/-! ### The dry run and the outline -/

section Refused

variable {nm : ℚ → ℤ} {srv : Server} {opts : ApplyOptions} {s t : Session}

/-- The outline has too few points, or the board has another that is not to be replaced. -/
def OutlineRefused (nm : ℚ → ℤ) (spec : Option BoardSpec) (shapes : List BoardShape) : Prop :=
  ∃ points, outlinePoints nm spec = some points ∧
    (points.length < 3 ∨ edgesOf shapes ≠ [] ∧ ∃ d, reconcile shapes points = .refused d)

/-- The dry run or the outline stops the compile. -/
def Refused (nm : ℚ → ℤ) (srv : Server) (spec : Option BoardSpec) (b : Board) : Prop :=
  0 < srv.dryRun.errorCount ∨ OutlineRefused nm spec b.shapes

lemma ensureOutline_errors {fails : Fails} {spec : Option BoardSpec} {message : String}
    {o : OutlineOutcome} (h : ensureOutline nm fails spec message s = .ok (o, t)) :
    (OutlineRefused nm spec s.board.shapes ∧ hasErrors o.diagnostics = true ∧
        Prepared False s t) ∨
      (¬ OutlineRefused nm spec s.board.shapes ∧ hasErrors o.diagnostics = false) := by
  cases hpoints : outlinePoints nm spec with
  | none =>
    have hnot : ¬ OutlineRefused nm spec s.board.shapes := by
      rintro ⟨points, hsome, _⟩
      rw [hpoints] at hsome
      cases hsome
    rw [ensureOutline, hpoints] at h
    obtain ⟨rfl, _⟩ := pure_ok.mp h
    exact Or.inr ⟨hnot, rfl⟩
  | some points =>
    have hrefused : OutlineRefused nm spec s.board.shapes ↔ points.length < 3 ∨
        edgesOf s.board.shapes ≠ [] ∧ ∃ d, reconcile s.board.shapes points = .refused d := by
      simp [OutlineRefused, hpoints, Option.some.injEq, exists_eq_left']
    rw [hrefused]
    by_cases hlen : points.length < 3
    · rw [ensureOutline, hpoints] at h
      dsimp only at h
      rw [if_pos hlen] at h
      obtain ⟨rfl, rfl⟩ := pure_ok.mp h
      exact Or.inl ⟨Or.inl hlen, rfl, Prepared.refl _⟩
    by_cases hnone : edgesOf s.board.shapes = []
    · obtain ⟨_, rfl⟩ := ensureOutline_draws hpoints (not_lt.mp hlen) hnone h
      exact Or.inr ⟨not_or.mpr ⟨hlen, fun hc => hc.1 hnone⟩, rfl⟩
    have hreconciled := ensureOutline_reconciles hpoints (not_lt.mp hlen) hnone h
    cases hrec : reconcile s.board.shapes points with
    | refused d =>
      rw [hrec] at hreconciled
      obtain ⟨_, rfl⟩ := hreconciled
      refine Or.inl ⟨Or.inr ⟨hnone, d, rfl⟩, by simp [hasErrors, reconcile_refused hrec], ?_⟩
      rw [ensureOutline, hpoints] at h
      dsimp only at h
      rw [if_neg hlen] at h
      obtain ⟨shapes, u, hshapes, h⟩ := bind_ok.mp h
      obtain ⟨rfl, rfl⟩ := getShapes_ok hshapes
      rw [if_pos hnone, hrec] at h
      obtain ⟨_, rfl⟩ := pure_ok.mp h
      exact prepared_issued (r := .getShapes) rfl s
    | kept =>
      rw [hrec] at hreconciled
      refine Or.inr ⟨not_or.mpr ⟨hlen, ?_⟩, hreconciled.2.2.2⟩
      rintro ⟨-, d, hd⟩
      cases hd
    | replaced =>
      rw [hrec] at hreconciled
      refine Or.inr ⟨not_or.mpr ⟨hlen, ?_⟩, hreconciled.2.2.2⟩
      rintro ⟨-, d, hd⟩
      cases hd

/-- A run is refused and does nothing, or gets to the import. -/
lemma applyNetlist_refused {o : ApplyOutcome} (h : applyNetlist nm srv opts s = .ok (o, t)) :
    (Refused nm srv opts.board s.board ∧ hasErrors o.diagnostics = true ∧ Prepared False s t) ∨
      (¬ Refused nm srv opts.board s.board ∧ Request.updateBoard false ∈ t.issued) := by
  have hdry : Prepared False s ⟨s.board, s.issued ++ [.updateBoard true]⟩ :=
    prepared_issued (r := .updateBoard true) rfl s
  rcases applyNetlist_ok h with ⟨hcount, rfl, herr⟩ | ⟨hcount, outline, u, houtline, hrest⟩
  · exact Or.inl ⟨Or.inl hcount, herr, hdry⟩
  have hzero : ¬ 0 < srv.dryRun.errorCount := by omega
  rcases ensureOutline_errors houtline with ⟨hrefused, herr, hquiet⟩ | ⟨hnot, hno⟩
  · rcases hrest with ⟨_, rfl, hsame⟩ | ⟨hno, _⟩
    · exact Or.inl ⟨Or.inr hrefused, hsame ▸ herr, hquiet.after hdry⟩
    · rw [herr] at hno
      cases hno
  · rcases hrest with ⟨herr, _, _⟩ | ⟨_, himport⟩
    · rw [hno] at herr
      cases herr
    · exact Or.inr ⟨not_or.mpr ⟨hzero, hnot⟩, importAndPlace_issues himport⟩

end Refused

/-! ### `compile` -/

section Compile

variable {nm : ℚ → ℤ} {srv : JobServer} {libraries : List LibrarySpec} {req : CompileJobRequest}
  {frontends : List Frontend} {opts : CompileOptions} {built : FrontendResult} {s t : Session}
  {ds : List Diagnostic} {counts : CompileCounts} {res : CompileResult}

/-- The requests of a compile that fails before the import leave the board as it was. -/
def Untouched (res : CompileResult) (issued : List Request) : Prop :=
  hasErrors res.diagnostics = true → Request.updateBoard false ∉ issued → ¬ ChangesBoard issued

def Touches (req : CompileJobRequest) (built : FrontendResult) (b : Board) : Prop :=
  ClearsCopper req b ∨ SetsConstraints req built

/-- From a validated netlist on. -/
lemma applyValidated_ok (hds : hasErrors ds = false) (hboard : opts.board = req.board)
    (h : applyValidated nm srv.toServer
      ⟨some (beforeApply nm srv libraries req), some (afterApply srv)⟩ opts built ds counts s =
        .ok (res, t)) :
    let spec := (boardSpec req.board built).map (·.spec)
    let good := hasErrors (schematicProblems srv) = false
    (good → Refused nm srv.toServer spec s.board → hasErrors res.diagnostics = true ∧
        Prepared (Touches req built s.board) s t) ∧
      (good → ¬ Refused nm srv.toServer spec s.board → Request.updateBoard false ∈ t.issued) ∧
      (¬ good → Prepared False s t) := by
  intro spec good
  obtain ⟨_, s₁, hcancel, h⟩ := bind_ok.mp h
  obtain ⟨_, rfl⟩ := cancelled_ok.mp hcancel
  obtain ⟨prepared, s₂, hhook, h⟩ := bind_ok.mp h
  obtain ⟨rfl, hprepared⟩ := beforeApply_ok hhook
  rw [hasErrors_append, hds] at h
  split at h
  next hbad =>
    obtain ⟨rfl, rfl⟩ := pure_ok.mp h
    have hnot : ¬ good := fun hgood => Bool.noConfusion (hbad.symm.trans hgood)
    exact ⟨fun hgood => absurd hgood hnot, fun hgood => absurd hgood hnot,
      fun _ => hprepared.congr ⟨fun hc => hnot hc.1, False.elim⟩⟩
  next hok =>
    have hgood : good := Bool.eq_false_iff.mpr hok
    have htouched : Prepared (Touches req built s.board) s s₂ :=
      hprepared.congr ⟨fun hc => hc.2, fun hc => ⟨hgood, hc⟩⟩
    obtain ⟨_, s₃, hcancel, h⟩ := bind_ok.mp h
    obtain ⟨_, rfl⟩ := cancelled_ok.mp hcancel
    obtain ⟨applied, s₄, happlied, h⟩ := bind_ok.mp h
    obtain ⟨checked, s₅, hchecked, h⟩ := bind_ok.mp h
    obtain ⟨rfl, rfl⟩ := pure_ok.mp h
    have hsame : Refused nm srv.toServer (applyOptions opts built).board s₂.board ↔
        Refused nm srv.toServer spec s.board := by
      rw [applyOptions, hboard, Refused, htouched.shapes]
      rfl
    refine ⟨fun _ hrefused => ?_, fun _ hnot => ?_, fun hno => absurd hgood hno⟩
    · rcases applyNetlist_refused happlied with ⟨_, herr, hquiet⟩ | ⟨hnot, _⟩
      · -- with an error the parity is not asked for
        have hstop : hasErrors (ds ++ schematicProblems srv ++ applied.diagnostics) = true := by
          rw [hasErrors_append, herr, Bool.or_true]
        have hskip : (pure [] : Job (List Diagnostic)) s₄ = .ok (checked, s₅) := by
          unfold after at hchecked
          dsimp only at hchecked
          rwa [if_pos hstop] at hchecked
        obtain ⟨rfl, rfl⟩ := pure_ok.mp hskip
        refine ⟨?_, (htouched.trans hquiet).congr (iff_of_eq (or_false _))⟩
        change hasErrors (ds ++ schematicProblems srv ++ applied.diagnostics ++ []) = true
        rw [List.append_nil, hstop]
      · exact absurd (hsame.mpr hrefused) hnot
    · rcases applyNetlist_refused happlied with ⟨hrefused, _, _⟩ | ⟨_, himport⟩
      · exact absurd (hsame.mp hrefused) hnot
      · refine (?_ : s₄.issued <+: s₅.issued).subset himport
        exact grows_ite (grows_pure _) (grows_bind (grows_cancelled _) fun _ =>
          grows_bind (grows_ask _) fun _ => grows_pure _) _ _ _ hchecked

/-- **What goes wrong**: the source and the schematic are in order, the hook changes the board, and
then the dry run or the outline stops the compile. -/
def Spoils (nm : ℚ → ℤ) (srv : JobServer) (req : CompileJobRequest) (frontends : List Frontend)
    (b : Board) : Prop :=
  ∃ frontend built netlist, frontendFor frontends req.source.kind = some frontend ∧
    frontend.build req.source = .ok built ∧ built.netlist = some netlist ∧
    hasErrors (validated req.board built netlist) = false ∧
    hasErrors (schematicProblems srv) = false ∧ Touches req built b ∧
    Refused nm srv.toServer ((boardSpec req.board built).map (·.spec)) b

lemma frontendFor_kind {kind : String} {frontend : Frontend}
    (h : frontendFor frontends kind = some frontend) : frontend.kind = kind := by
  have hkind := List.find?_some h
  exact of_decide_eq_true hkind

lemma untouched_of_prepared {b : Board} (h : Prepared False ⟨b, []⟩ t) :
    Untouched res t.issued := fun _ _ hchanges => h.issued_iff.2.mp hchanges

/-- **A failed compile leaves the board as it was** unless the hook has changed it by then. -/
theorem untouched_iff {b : Board}
    (h : compileJob nm srv libraries req frontends ⟨b, []⟩ = .ok (res, t)) :
    Untouched res t.issued ↔ ¬ Spoils nm srv req frontends b := by
  unfold compileJob at h
  cases hfrontend : frontendFor frontends req.source.kind with
  | none =>
    rw [hfrontend] at h
    cases h
  | some frontend =>
    rw [hfrontend] at h
    obtain ⟨_, s₁, hcancel, h⟩ := bind_ok.mp h
    obtain ⟨_, rfl⟩ := cancelled_ok.mp hcancel
    obtain ⟨margin, s₂, hmargin, h⟩ := bind_ok.mp h
    have h₂ : Prepared False ⟨b, []⟩ s₂ := by
      refine (prepared_onlyIf (p := False) (fun hread => ?_) hmargin).congr (iff_of_eq (and_false _))
      obtain ⟨_, u, hask, hpure⟩ := bind_ok.mp hread
      obtain ⟨_, rfl⟩ := pure_ok.mp hpure
      exact prepared_ask rfl hask
    obtain ⟨_, s₃, hcancel, h⟩ := bind_ok.mp h
    obtain ⟨_, rfl⟩ := cancelled_ok.mp hcancel
    rw [if_neg (not_not.mpr (frontendFor_kind hfrontend))] at h
    obtain ⟨built, s₄, hbuilt, h⟩ := bind_ok.mp h
    obtain ⟨hbuild, rfl⟩ : frontend.build req.source = .ok built ∧ s₂ = s₄ := by
      unfold build at hbuilt
      split at hbuilt
      · cases hbuilt
      next hbuild =>
        cases hbuilt
        exact ⟨hbuild, rfl⟩
    -- what spoils a compile of this source
    have hspoils : Spoils nm srv req frontends b ↔ ∃ netlist, built.netlist = some netlist ∧
        hasErrors (validated req.board built netlist) = false ∧
        hasErrors (schematicProblems srv) = false ∧ Touches req built b ∧
        Refused nm srv.toServer ((boardSpec req.board built).map (·.spec)) b := by
      simp [Spoils, hfrontend, Option.some.injEq, exists_eq_left', hbuild, Except.ok.injEq,
        exists_and_left]
    rw [hspoils]
    cases hnetlist : built.netlist with
    | none =>
      rw [hnetlist] at h
      obtain ⟨_, rfl⟩ := pure_ok.mp h
      refine ⟨fun _ ⟨netlist, hsome, _⟩ => ?_, fun _ => untouched_of_prepared h₂⟩
      cases hsome
    | some netlist =>
      rw [hnetlist] at h
      dsimp only at h
      simp only [Option.some.injEq, exists_eq_left']
      split at h
      next hbad =>
        obtain ⟨_, rfl⟩ := pure_ok.mp h
        refine ⟨fun _ ⟨hvalid, _⟩ => ?_, fun _ => untouched_of_prepared h₂⟩
        rw [validated, hasErrors_append, hasErrors_append, hbad] at hvalid
        cases hvalid
      · split at h
        next hinvalid =>
          obtain ⟨_, rfl⟩ := pure_ok.mp h
          refine ⟨fun _ ⟨hvalid, _⟩ => ?_, fun _ => untouched_of_prepared h₂⟩
          exact Bool.noConfusion (hinvalid.symm.trans hvalid)
        next hvalid =>
          have hvalid' := Bool.eq_false_iff.mpr hvalid
          obtain ⟨hrefused, himported, hrejected⟩ := applyValidated_ok hvalid' rfl h
          rw [h₂.board not_false] at hrefused himported
          by_cases hgood : hasErrors (schematicProblems srv) = false
          · by_cases hr : Refused nm srv.toServer ((boardSpec req.board built).map (·.spec)) b
            · obtain ⟨herr, htouched⟩ := hrefused hgood hr
              obtain ⟨hno, hchanges⟩ := (htouched.after h₂).issued_iff
              refine ⟨fun hkept hc => hkept herr hno (hchanges.mpr hc.2.2.1), fun hnot _ _ hc => ?_⟩
              exact hnot ⟨hvalid', hgood, hchanges.mp hc, hr⟩
            · exact ⟨fun _ hc => hr hc.2.2.2, fun _ _ hno => absurd (himported hgood hr) hno⟩
          · have hquiet := (hrejected hgood).after h₂
            exact ⟨fun _ hc => hgood hc.2.1, fun _ => untouched_of_prepared hquiet⟩

end Compile

/-! ### A clean rebuild that the dry run stops -/

/-- The library has no footprint for the only component. -/
def noFootprint : JobServer where
  fails := answered
  aborted := fun _ => false
  dryRun := ⟨1, 0, ["Cannot add R1 (footprint 'R_0402' not found)."]⟩
  imported := ⟨0, 0, []⟩
  footprintIds := fun _ => []
  footprints := fun _ => []
  pads := fun _ => []
  autoplace := .completed true
  edgeBoxes := []
  boxes := []
  schematic := []
  ercErrors := 0
  ercMarkers := []
  labels := []
  constraints := ⟨none, none, none, none⟩
  copperEdgeClearance := none
  parityCount := 0

def oneResistor : Frontend where
  kind := "netlist"
  build := fun _ => .ok { netlist := some ⟨[⟨"R1", "10k", "R_0402"⟩], [], []⟩ }

def cleanRebuild : CompileJobRequest where
  source := ⟨"netlist", [], ""⟩
  rebuild := .clean

/-- A board with one track. -/
def routedBoard : Board where
  shapes := []
  tracks := [⟨0, none, "GND"⟩]
  nextId := 1
  distinct := List.nodup_nil
  below := fun _ h => absurd h List.not_mem_nil

def rebuilds : Except Failure (CompileResult × Session) :=
  compileJob roundMm noFootprint [] cleanRebuild [oneResistor] ⟨routedBoard, []⟩

theorem untouched_rebuild : ∃ res t,
    compileJob roundMm noFootprint [] cleanRebuild [oneResistor] ⟨routedBoard, []⟩ = .ok (res, t) ∧
    (Untouched res t.issued ↔ ¬ Spoils roundMm noFootprint cleanRebuild [oneResistor] routedBoard) := by
  have hrun : rebuilds.toOption.map (fun r => hasErrors r.1.diagnostics) = some true := by
    decide +kernel
  obtain ⟨res, t, h, _⟩ := run_some hrun
  exact ⟨res, t, h, untouched_iff h⟩

/-- The track is gone. -/
theorem not_untouched :
    ¬ ∀ (nm : ℚ → ℤ) (srv : JobServer) (libraries : List LibrarySpec) (req : CompileJobRequest)
      (frontends : List Frontend) (b : Board) (res : CompileResult) (t : Session),
      compileJob nm srv libraries req frontends ⟨b, []⟩ = .ok (res, t) →
      Untouched res t.issued := by
  intro h
  have hrun : rebuilds.toOption.map (fun r => (hasErrors r.1.diagnostics,
      r.2.issued.all (fun q => match q with | .updateBoard dryRun => dryRun | _ => true),
      r.2.issued.any (·.changesBoard))) = some (true, true, true) := by decide +kernel
  obtain ⟨res, t, hok, hshown⟩ := run_some hrun
  simp only [Prod.mk.injEq, List.all_eq_true, List.any_eq_true] at hshown
  obtain ⟨herr, hdry, hchanges⟩ := hshown
  have hno : Request.updateBoard false ∉ t.issued := fun hmem => Bool.noConfusion (hdry _ hmem)
  exact h _ _ _ _ _ _ res t hok herr hno hchanges

end FabPcb.FailedCompile
