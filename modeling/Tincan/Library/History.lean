import Tincan.Library.Runs

namespace Tincan.Library.History

open Tincan.Library.Runs

variable {σ ε : Type*}

/-- A run with a step that opened something which no step after it has closed. -/
inductive Since (step opens closes : σ → ε → σ → Prop) : σ → List ε → σ → Prop
  | opened {s t u : σ} {es : List ε} {e : ε} : Run step s es t → step t e u → opens t e u →
      Since step opens closes s (es ++ [e]) u
  | kept {s t u : σ} {es : List ε} {e : ε} : Since step opens closes s es t → step t e u →
      ¬closes t e u → Since step opens closes s (es ++ [e]) u

section

variable {step opens closes : σ → ε → σ → Prop} {s t : σ} {es : List ε}

theorem Since.run (h : Since step opens closes s es t) : Run step s es t := by
  induction h with
  | opened h hst _ => exact h.snoc hst
  | kept _ hst _ ih => exact ih.snoc hst

/-- What each step makes true when it opens, and otherwise leaves true unless it
closes, holds just when it was opened and has not been closed since. -/
theorem since_iff {P Q : σ → Prop} (hinv : ∀ s e t, Q s → step s e t → Q t)
    (hstep : ∀ s e t, Q s → step s e t → (P t ↔ opens s e t ∨ P s ∧ ¬closes s e t)) (hQ : Q s)
    (hP : ¬P s) (h : Run step s es t) : P t ↔ Since step opens closes s es t := by
  constructor
  · intro ht
    induction h with
    | nil => exact absurd ht hP
    | snoc h hst ih =>
      obtain ho | ⟨hp, hc⟩ := (hstep _ _ _ (run_invariant hinv h hQ) hst).mp ht
      · exact .opened h hst ho
      · exact .kept (ih hp) hst hc
  · intro hsince
    clear h hP
    induction hsince with
    | opened h hst ho => exact (hstep _ _ _ (run_invariant hinv h hQ) hst).mpr (.inl ho)
    | kept h hst hc ih =>
      exact (hstep _ _ _ (run_invariant hinv h.run hQ) hst).mpr (.inr ⟨ih, hc⟩)

end

end Tincan.Library.History
