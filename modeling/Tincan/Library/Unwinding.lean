import Tincan.Library.Runs

namespace Tincan.Library.Unwinding

open Tincan.Library.Runs

variable {σ ε : Type*}

/-- A run, with those of its labels that concern an observer. Whether a label
does may depend on the state in which it is taken. -/
inductive Seen (step : σ → ε → σ → Prop) (concerns : σ → ε → Bool) : σ → List ε → σ → Prop
  | nil (s : σ) : Seen step concerns s [] s
  | seen {s t u : σ} {es : List ε} {e : ε} : Seen step concerns s es t → step t e u →
      concerns t e = true → Seen step concerns s (es ++ [e]) u
  | unseen {s t u : σ} {es : List ε} {e : ε} : Seen step concerns s es t → step t e u →
      concerns t e = false → Seen step concerns s es u

section

variable {step : σ → ε → σ → Prop} {concerns : σ → ε → Bool} {s t s' t' : σ} {es : List ε} {e : ε}

theorem seen_concat (h : Seen step concerns s (es ++ [e]) t) :
    ∃ u v, Seen step concerns s es u ∧ step u e v ∧ concerns u e = true ∧ Seen step concerns v [] t := by
  generalize hfs : es ++ [e] = fs at h
  induction h with
  | nil => simp at hfs
  | seen h hst hc _ =>
    obtain ⟨rfl, he⟩ := List.append_inj' hfs rfl
    cases he
    exact ⟨_, _, h, hst, hc, .nil _⟩
  | unseen _ hst hc ih =>
    obtain ⟨u, v, hu, hv, hcu, hrest⟩ := ih hfs
    exact ⟨u, v, hu, hv, hcu, hrest.unseen hst hc⟩

variable {R : σ → σ → Prop}

theorem alike_of_nil (hright : ∀ s t e t', R s t → step t e t' → concerns t e = false → R s t')
    (h : Seen step concerns t [] t') (hR : R s t) : R s t' := by
  generalize hfs : ([] : List ε) = fs at h
  induction h with
  | nil => exact hR
  | seen => simp at hfs
  | unseen _ hst hc ih => exact hright _ _ _ _ (ih hfs) hst hc

/-- The unwinding rule: when steps that are not seen keep two states alike, and
so does a seen step that both take, then runs in which the same is seen do. -/
theorem alike_of_seen (hleft : ∀ s t e s', R s t → step s e s' → concerns s e = false → R s' t)
    (hright : ∀ s t e t', R s t → step t e t' → concerns t e = false → R s t')
    (hboth : ∀ s t e s' t', R s t → step s e s' → concerns s e = true → step t e t' →
      concerns t e = true → R s' t')
    (h : Seen step concerns s es s') (h' : Seen step concerns t es t') (hR : R s t) : R s' t' := by
  induction h generalizing t' with
  | nil => exact alike_of_nil hright h' hR
  | seen _ hst hc ih =>
    obtain ⟨u, v, hu, hv, hcu, hrest⟩ := seen_concat h'
    exact alike_of_nil hright hrest (hboth _ _ _ _ _ (ih hu) hst hc hv hcu)
  | unseen _ hst hc ih => exact hleft _ _ _ _ (ih h') hst hc

end

end Tincan.Library.Unwinding
