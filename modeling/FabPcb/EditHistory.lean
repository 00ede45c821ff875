import Mathlib.Data.List.Basic

/-!
Edits that can be taken back, on a line of which the past is done and the future undone.

An edit is known by what it does forward and backward. Taking the last one back is sound as
long as every edit, where it was made, is undone by its own inverse; that is kept when an
edit is made and the future dropped, when the oldest is forgotten, and when the line is
walked either way.
-/

namespace FabPcb.EditHistory

variable {σ ε : Type*}

/-- The forward edits, one after the other. -/
def play (fwd : ε → σ → σ) (s : σ) (es : List ε) : σ := es.foldl (fun s e => fwd e s) s

/-- Every edit is undone by its inverse where it was made. -/
def Reversible (fwd inv : ε → σ → σ) (s : σ) : List ε → Prop
  | [] => True
  | e :: es => inv e (fwd e s) = s ∧ Reversible fwd inv (fwd e s) es

/-- A line of edits: those forgotten, those done and those undone, the next one first. -/
structure Line (ε : Type*) where
  forgotten : List ε
  past : List ε
  future : List ε

/-- The state is the one the edits done lead to, and all edits can be walked both ways. -/
structure Sound (fwd inv : ε → σ → σ) (start : σ) (l : Line ε) (now : σ) : Prop where
  now : now = play fwd start (l.forgotten ++ l.past)
  reversible : Reversible fwd inv start (l.forgotten ++ l.past ++ l.future)

variable {fwd inv : ε → σ → σ} {start now s : σ} {forgotten past future : List ε} {e : ε}

@[simp] lemma play_nil : play fwd s [] = s := rfl

@[simp] lemma play_cons (es : List ε) : play fwd s (e :: es) = play fwd (fwd e s) es := rfl

lemma play_append (es es' : List ε) :
    play fwd s (es ++ es') = play fwd (play fwd s es) es' := by
  simp [play, List.foldl_append]

lemma reversible_append (es es' : List ε) :
    Reversible fwd inv s (es ++ es') ↔
      Reversible fwd inv s es ∧ Reversible fwd inv (play fwd s es) es' := by
  induction es generalizing s with
  | nil => simp [Reversible]
  | cons e es ih => simp [List.cons_append, Reversible, ih, play_cons, and_assoc]

lemma inv_play_snoc {es : List ε} (h : Reversible fwd inv s (es ++ [e])) :
    inv e (play fwd s (es ++ [e])) = play fwd s es := by
  rw [reversible_append] at h
  rw [play_append]
  exact h.2.1

lemma sound_start (start : σ) : Sound fwd inv start ⟨[], [], []⟩ start := ⟨rfl, trivial⟩

/-- **An edit is made**, and what was undone before it is dropped. -/
lemma sound_make (h : Sound fwd inv start ⟨forgotten, past, future⟩ now)
    (hinv : inv e (fwd e now) = now) :
    Sound fwd inv start ⟨forgotten, past ++ [e], []⟩ (fwd e now) := by
  have hpast := ((reversible_append _ _).mp h.reversible).1
  refine ⟨?_, ?_⟩
  · calc fwd e now = fwd e (play fwd start (forgotten ++ past)) := by rw [← h.now]
      _ = play fwd start (forgotten ++ past ++ [e]) := by rw [play_append (forgotten ++ past)]; rfl
      _ = play fwd start (forgotten ++ (past ++ [e])) := by rw [List.append_assoc]
  · rw [List.append_nil, ← List.append_assoc, reversible_append]
    exact ⟨hpast, by rw [← h.now]; exact hinv, trivial⟩

/-- **The oldest edit is forgotten.** -/
lemma sound_forget (h : Sound fwd inv start ⟨forgotten, e :: past, future⟩ now) :
    Sound fwd inv start ⟨forgotten ++ [e], past, future⟩ now := by
  refine ⟨?_, ?_⟩
  · simpa using h.now
  · simpa using h.reversible

lemma sound_shift {oldest : List ε} (h : Sound fwd inv start ⟨forgotten, oldest ++ past, []⟩ now) :
    Sound fwd inv start ⟨forgotten ++ oldest, past, []⟩ now := by
  induction oldest generalizing forgotten with
  | nil => simpa using h
  | cons e oldest ih => simpa using ih (sound_forget h)

/-- **The last edit is undone.** -/
lemma sound_undo (h : Sound fwd inv start ⟨forgotten, past ++ [e], future⟩ now) :
    Sound fwd inv start ⟨forgotten, past, e :: future⟩ (inv e now) := by
  have hdone : Reversible fwd inv start (forgotten ++ past ++ [e]) := by
    have := ((reversible_append _ _).mp h.reversible).1
    rwa [← List.append_assoc] at this
  refine ⟨?_, by simpa using h.reversible⟩
  rw [h.now, ← List.append_assoc]
  exact inv_play_snoc hdone

/-- **The next edit is done again.** -/
lemma sound_redo (h : Sound fwd inv start ⟨forgotten, past, e :: future⟩ now) :
    Sound fwd inv start ⟨forgotten, past ++ [e], future⟩ (fwd e now) := by
  refine ⟨?_, by simpa using h.reversible⟩
  rw [h.now, ← List.append_assoc, play_append (forgotten ++ past)]
  rfl

lemma fwd_inv_of_sound (h : Sound fwd inv start ⟨forgotten, past ++ [e], future⟩ now) :
    fwd e (inv e now) = now := by
  rw [(sound_redo (sound_undo h)).now, h.now]

lemma inv_fwd_of_sound (h : Sound fwd inv start ⟨forgotten, past, e :: future⟩ now) :
    inv e (fwd e now) = now := by
  rw [(sound_undo (sound_redo h)).now, h.now]

end FabPcb.EditHistory
