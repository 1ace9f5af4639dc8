import Tincan.Library.Runs
import Mathlib.Logic.Function.Basic

namespace Tincan.Library.AtomicObject

open Tincan.Library.Runs

variable {ι κ ρ σ : Type*}

/-- How far a caller is with its call. -/
inductive Phase (κ ρ : Type*)
  | idle
  | pending (call : κ)
  | answered (answer : ρ)

inductive Mark (κ ρ : Type*)
  | call (call : κ)
  | effect (call : κ) (answer : ρ)
  | answer (answer : ρ)

structure State (ι κ ρ σ : Type*) where
  object : σ
  phase : ι → Phase κ ρ

def start (object : σ) : State ι κ ρ σ := ⟨object, fun _ => .idle⟩

/-- The calls in the order in which they happened to the object. -/
def effects (tr : List (ι × Mark κ ρ)) : List (κ × ρ) :=
  tr.filterMap fun
    | (_, .effect c r) => some (c, r)
    | _ => none

variable [DecidableEq ι]

def State.enter (s : State ι κ ρ σ) (i : ι) (p : Phase κ ρ) : State ι κ ρ σ :=
  { s with phase := Function.update s.phase i p }

/-- An object that serves many callers, each call at one moment between the
caller's call and its answer. `apply` is the object without any concurrency. -/
inductive Step (apply : κ → σ → Option (ρ × σ)) (s : State ι κ ρ σ) :
    ι × Mark κ ρ → State ι κ ρ σ → Prop
  | call {i : ι} (c : κ) (h : s.phase i = .idle) : Step apply s (i, .call c) (s.enter i (.pending c))
  | effect {i : ι} {c : κ} {r : ρ} {object : σ} (h : s.phase i = .pending c)
      (ha : apply c s.object = some (r, object)) :
      Step apply s (i, .effect c r) { s.enter i (.answered r) with object := object }
  | answer {i : ι} {r : ρ} (h : s.phase i = .answered r) :
      Step apply s (i, .answer r) (s.enter i .idle)

theorem run_effects {apply : κ → σ → Option (ρ × σ)} {P : List (κ × ρ) → σ → Prop}
    (happly : ∀ es c r o o', P es o → apply c o = some (r, o') → P (es ++ [(c, r)]) o')
    {s t : State ι κ ρ σ} {tr : List (ι × Mark κ ρ)} (h : Run (Step apply) s tr t)
    (hs : P [] s.object) :
    P (effects tr) t.object := by
  induction h with
  | nil => exact hs
  | snoc _ hst ih =>
    unfold effects at ih ⊢
    rw [List.filterMap_append]
    cases hst with
    | call c h => simpa [State.enter] using ih
    | effect h ha => exact happly _ _ _ _ _ ih ha
    | answer h => simpa [State.enter] using ih

end Tincan.Library.AtomicObject
