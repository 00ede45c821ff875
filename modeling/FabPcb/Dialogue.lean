import Mathlib.Logic.Relation

/-!
Programs that ask their surroundings, and what holds along their dialogues.

A program shows a view of itself while it waits for a reply. What the surroundings may reply, and
what they remember of the dialogue, is a `Contract`; a program is `Safe` when every question is a
permitted one and every way the dialogue can go ends well.
-/

namespace FabPcb.Dialogue

inductive Prog (V Q : Type) (A : Q → Type) (α : Type) where
  | ret (a : α)
  | ask (view : V) (q : Q) (next : A q → Prog V Q A α)

namespace Prog

variable {V Q : Type} {A : Q → Type} {α β γ : Type}

def bind : Prog V Q A α → (α → Prog V Q A β) → Prog V Q A β
  | ret a, f => f a
  | ask view q next, f => ask view q fun r => bind (next r) f

end Prog

/-- What the surroundings remember is of type `σ`. -/
structure Contract (V Q : Type) (A : Q → Type) (σ : Type) where
  /-- The question may be asked. -/
  permits : σ → V → (q : Q) → Prop
  /-- The reply may be given, and what is remembered then. -/
  replies : σ → V → (q : Q) → A q → σ → Prop

variable {V Q : Type} {A : Q → Type} {α β σ : Type} {C : Contract V Q A σ}

def Safe (C : Contract V Q A σ) (post : α → σ → Prop) : Prog V Q A α → σ → Prop
  | .ret a, s => post a s
  | .ask view q next, s =>
    C.permits s view q ∧ ∀ r s', C.replies s view q r s' → Safe C post (next r) s'

/-! ### Rules -/

lemma safe_bind {post : β → σ → Prop} {p : Prog V Q A α} {f : α → Prog V Q A β} {s : σ} :
    Safe C post (p.bind f) s ↔ Safe C (fun a s => Safe C post (f a) s) p s := by
  induction p generalizing s with
  | ret a => exact Iff.rfl
  | ask view q next ih => simp [Prog.bind, Safe, ih]

lemma Safe.mono {post post' : α → σ → Prop} {p : Prog V Q A α} {s : σ} (h : Safe C post p s)
    (hpost : ∀ a s, post a s → post' a s) : Safe C post' p s := by
  induction p generalizing s with
  | ret a => exact hpost a s h
  | ask view q next ih =>
    obtain ⟨hpermits, hnext⟩ := h
    exact ⟨hpermits, fun r s' hr => ih r (hnext r s' hr)⟩

lemma Safe.next {post : α → σ → Prop} {view : V} {q : Q} {next : A q → Prog V Q A α} {s s' : σ}
    {r : A q} (h : Safe C post (.ask view q next) s) (hr : C.replies s view q r s') :
    Safe C post (next r) s' := h.2 r s' hr

/-! ### Dialogues -/

/-- One reply. -/
inductive Step (C : Contract V Q A σ) : Prog V Q A α × σ → Prog V Q A α × σ → Prop where
  | reply {s s' : σ} {view : V} {q : Q} {next : A q → Prog V Q A α} {r : A q}
      (h : C.replies s view q r s') : Step C (.ask view q next, s) (next r, s')

end FabPcb.Dialogue
