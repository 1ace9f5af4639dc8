import Mathlib.Data.List.Basic
import Mathlib.Logic.Basic

namespace Tincan.Library.Runs

variable {σ τ ε δ : Type*}

/-- A finite run of a labelled step relation, with the labels in the order
in which they were taken. -/
inductive Run (step : σ → ε → σ → Prop) : σ → List ε → σ → Prop
  | nil (s : σ) : Run step s [] s
  | snoc {s t u : σ} {es : List ε} {e : ε} :
      Run step s es t → step t e u → Run step s (es ++ [e]) u

def Reachable (step : σ → ε → σ → Prop) (init : σ → Prop) (t : σ) : Prop :=
  ∃ s es, init s ∧ Run step s es t

theorem run_single {step : σ → ε → σ → Prop} {s t : σ} {e : ε} (h : step s e t) :
    Run step s [e] t := Run.snoc (Run.nil s) h

theorem run_append {step : σ → ε → σ → Prop} {s t u : σ} {es fs : List ε}
    (h : Run step s es t) (h' : Run step t fs u) : Run step s (es ++ fs) u := by
  induction h' with
  | nil => simpa using h
  | snoc _ hs ih =>
    rw [← List.append_assoc]
    exact Run.snoc ih hs

theorem run_cons {step : σ → ε → σ → Prop} {s t u : σ} {e : ε} {es : List ε}
    (h : step s e t) (h' : Run step t es u) : Run step s (e :: es) u :=
  run_append (run_single h) h'

/-- The induction rule: what every step preserves, every run preserves. -/
theorem run_invariant {step : σ → ε → σ → Prop} {P : σ → Prop}
    (hstep : ∀ s e t, P s → step s e t → P t) {s t : σ} {es : List ε}
    (h : Run step s es t) (hs : P s) : P t := by
  induction h with
  | nil => exact hs
  | snoc _ hst ih => exact hstep _ _ _ ih hst

theorem reachable_invariant {step : σ → ε → σ → Prop} {init P : σ → Prop}
    (hinit : ∀ s, init s → P s) (hstep : ∀ s e t, P s → step s e t → P t)
    {t : σ} (h : Reachable step init t) : P t := by
  obtain ⟨s, es, hs, hr⟩ := h
  exact run_invariant hstep hr (hinit s hs)

theorem reachable_init {step : σ → ε → σ → Prop} {init : σ → Prop} {s : σ} (h : init s) :
    Reachable step init s := ⟨s, [], h, Run.nil s⟩

theorem reachable_step {step : σ → ε → σ → Prop} {init : σ → Prop} {s t : σ} {e : ε}
    (h : Reachable step init s) (hst : step s e t) : Reachable step init t := by
  obtain ⟨s₀, es, hs, hr⟩ := h
  exact ⟨s₀, es ++ [e], hs, Run.snoc hr hst⟩

/-- The step relation of an executable step function; `none` is a step that
cannot be taken. -/
def Steps (f : σ → ε → Option σ) (s : σ) (e : ε) (t : σ) : Prop := f s e = some t

def replay (f : σ → ε → Option σ) (s : σ) (es : List ε) : Option σ := es.foldlM f s

theorem run_of_replay {f : σ → ε → Option σ} {s t : σ} {es : List ε}
    (h : replay f s es = some t) : Run (Steps f) s es t := by
  induction es generalizing s with
  | nil =>
    simp only [replay, List.foldlM_nil, Option.pure_def, Option.some.injEq] at h
    subst h
    exact Run.nil s
  | cons e es ih =>
    simp only [replay, List.foldlM_cons, Option.bind_eq_bind, Option.bind_eq_some_iff] at h
    obtain ⟨u, hu, ht⟩ := h
    exact run_cons hu (ih ht)

/-- Steps that also meet a side condition on the state they are taken in. -/
def Guarded (guard : σ → ε → Prop) (step : σ → ε → σ → Prop) (s : σ) (e : ε) (t : σ) : Prop :=
  guard s e ∧ step s e t

theorem run_mono {step step' : σ → ε → σ → Prop} (hle : ∀ s e t, step s e t → step' s e t)
    {s t : σ} {es : List ε} (h : Run step s es t) : Run step' s es t := by
  induction h with
  | nil => exact Run.nil _
  | snoc _ hs ih => exact Run.snoc ih (hle _ _ _ hs)

theorem run_guarded {guard : σ → ε → Prop} {step : σ → ε → σ → Prop} {s t : σ} {es : List ε}
    (hg : ∀ e ∈ es, ∀ u, guard u e) (h : Run step s es t) : Run (Guarded guard step) s es t := by
  induction h with
  | nil => exact Run.nil _
  | snoc _ hs ih =>
    exact Run.snoc (ih (fun e he => hg e (by simp [he]))) ⟨hg _ (by simp) _, hs⟩

theorem reachable_of_guarded {guard : σ → ε → Prop} {step : σ → ε → σ → Prop} {init : σ → Prop}
    {t : σ} (h : Reachable (Guarded guard step) init t) : Reachable step init t := by
  obtain ⟨s, es, hs, hr⟩ := h
  exact ⟨s, es, hs, run_mono (fun _ _ _ h => h.2) hr⟩

/-- Every step of one system is matched by a run of another through the
abstraction `f`, so reachable states are mapped to reachable states. -/
theorem reachable_simulation {step : σ → ε → σ → Prop} {step' : τ → δ → τ → Prop}
    {init : σ → Prop} {init' : τ → Prop} (f : σ → τ) (hinit : ∀ s, init s → init' (f s))
    (hstep : ∀ s e t, step s e t → ∃ ds, Run step' (f s) ds (f t))
    {t : σ} (h : Reachable step init t) : Reachable step' init' (f t) := by
  obtain ⟨s, es, hs, hr⟩ := h
  have hf : ∃ ds, Run step' (f s) ds (f t) := by
    induction hr with
    | nil => exact ⟨[], Run.nil _⟩
    | snoc _ hst ih =>
      obtain ⟨ds, hd⟩ := ih
      obtain ⟨ds', hd'⟩ := hstep _ _ _ hst
      exact ⟨ds ++ ds', run_append hd hd'⟩
  obtain ⟨ds, hd⟩ := hf
  exact ⟨f s, ds, hinit s hs, hd⟩

/-- The simulation rule: what relates two systems with their pasts, and is kept
when each step of one is matched by a run of the other, holds after every run. -/
theorem run_simulation {step : σ → ε → σ → Prop} {step' : τ → δ → τ → Prop}
    {R : List ε → σ → List δ → τ → Prop}
    (hstep : ∀ es s ds t e s', R es s ds t → step s e s' →
      ∃ ds' t', Run step' t ds' t' ∧ R (es ++ [e]) s' (ds ++ ds') t')
    {s s' : σ} {es : List ε} (h : Run step s es s') {t : τ} (hR : R [] s [] t) :
    ∃ ds t', Run step' t ds t' ∧ R es s' ds t' := by
  induction h with
  | nil => exact ⟨[], t, Run.nil t, hR⟩
  | snoc _ hst ih =>
    obtain ⟨ds, t₁, hd, hu⟩ := ih
    obtain ⟨ds', t₂, hd', hv⟩ := hstep _ _ _ _ _ _ hu hst
    exact ⟨ds ++ ds', t₂, run_append hd hd', hv⟩

/-- Two systems side by side, one of them moving at a time. -/
inductive Interleaved (step : σ → ε → σ → Prop) (step' : τ → δ → τ → Prop) :
    σ × τ → ε ⊕ δ → σ × τ → Prop
  | left {s s' : σ} {e : ε} (t : τ) : step s e s' → Interleaved step step' (s, t) (.inl e) (s', t)
  | right {t t' : τ} {d : δ} (s : σ) : step' t d t' → Interleaved step step' (s, t) (.inr d) (s, t')

theorem reachable_interleaved {step : σ → ε → σ → Prop} {step' : τ → δ → τ → Prop}
    {init : σ → Prop} {init' : τ → Prop} {p : σ × τ}
    (h : Reachable (Interleaved step step') (fun p => init p.1 ∧ init' p.2) p) :
    Reachable step init p.1 ∧ Reachable step' init' p.2 := by
  refine reachable_invariant (P := fun p => Reachable step init p.1 ∧ Reachable step' init' p.2)
    ?_ ?_ h
  · intro s hs
    exact ⟨reachable_init hs.1, reachable_init hs.2⟩
  · rintro s e t ⟨hl, hr⟩ hst
    cases hst with
    | left _ hs => exact ⟨reachable_step hl hs, hr⟩
    | right _ hs => exact ⟨hl, reachable_step hr hs⟩

theorem interleaved_of_reachable {step : σ → ε → σ → Prop} {step' : τ → δ → τ → Prop}
    {init : σ → Prop} {init' : τ → Prop} {s : σ} {t : τ} (hs : Reachable step init s)
    (ht : Reachable step' init' t) :
    Reachable (Interleaved step step') (fun p => init p.1 ∧ init' p.2) (s, t) := by
  obtain ⟨t₀, ds, ht₀, hr⟩ := ht
  have hleft : Reachable (Interleaved step step') (fun p => init p.1 ∧ init' p.2) (s, t₀) := by
    refine reachable_invariant (P := fun s => Reachable (Interleaved step step')
      (fun p => init p.1 ∧ init' p.2) (s, t₀)) ?_ ?_ hs
    · intro s₀ hs₀
      exact reachable_init ⟨hs₀, ht₀⟩
    · intro s₁ e s₂ h hst
      exact reachable_step h (.left t₀ hst)
  exact run_invariant (P := fun t => Reachable (Interleaved step step')
    (fun p => init p.1 ∧ init' p.2) (s, t)) (fun _ _ _ h hst => reachable_step h (.right s hst)) hr hleft

end Tincan.Library.Runs
