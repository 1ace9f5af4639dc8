import Tincan.Library.Runs
import Mathlib.Data.Finset.Card

namespace Tincan.Library.SignalledQueue

open Tincan.Library.Runs

variable {ι α : Type*}

/-- A shared list of items together with a separate count of wake-up signals.
A producer pushes first and signals later; `posting` holds the producers that
are between the two. The single consumer takes a signal before it pops. -/
structure State (ι α : Type*) where
  items : List α
  signals : Nat
  posting : Finset ι
  awake : Bool
  pushed : List α
  popped : List α

inductive Action (ι α : Type*)
  | push (i : ι) (a : α)
  | signal (i : ι)
  | wake
  | pop

def empty : State ι α := ⟨[], 0, ∅, false, [], []⟩

/-- Signals the consumer has still to act on, the one in its hands included. -/
def State.owed (s : State ι α) : Nat := s.signals + if s.awake then 1 else 0

structure Balanced (s : State ι α) : Prop where
  count : s.items.length = s.owed + s.posting.card
  order : s.popped ++ s.items = s.pushed

theorem balanced_empty : Balanced (empty : State ι α) := ⟨rfl, rfl⟩

theorem Balanced.items_ne_nil {s : State ι α} (h : Balanced s) (ha : s.awake = true) :
    s.items ≠ [] := by
  intro hi
  have hc := h.count
  simp only [State.owed, ha, hi, List.length_nil, ↓reduceIte] at hc
  omega

theorem Balanced.owed_le {s : State ι α} (h : Balanced s) : s.owed ≤ s.items.length := by
  have hc := h.count
  omega

theorem Balanced.owed_eq {s : State ι α} (h : Balanced s) (hp : s.posting = ∅) :
    s.owed = s.items.length := by
  have hc := h.count
  simp only [hp, Finset.card_empty, Nat.add_zero] at hc
  exact hc.symm

variable [DecidableEq ι]

def step (s : State ι α) : Action ι α → Option (State ι α)
  | .push i a =>
    if i ∈ s.posting then none
    else some { s with items := s.items ++ [a], posting := insert i s.posting, pushed := s.pushed ++ [a] }
  | .signal i =>
    if i ∈ s.posting then some { s with signals := s.signals + 1, posting := s.posting.erase i } else none
  | .wake =>
    if s.awake = true ∨ s.signals = 0 then none
    else some { s with signals := s.signals - 1, awake := true }
  | .pop =>
    match s.awake, s.items with
    | true, a :: rest => some { s with items := rest, awake := false, popped := s.popped ++ [a] }
    | _, _ => none

theorem balanced_step {s t : State ι α} {e : Action ι α} (h : Balanced s)
    (hst : step s e = some t) : Balanced t := by
  have hc := h.count
  have ho := h.order
  unfold State.owed at hc
  cases e with
  | push i a =>
    simp only [step, Option.ite_none_left_eq_some, Option.some.injEq] at hst
    obtain ⟨hi, rfl⟩ := hst
    constructor
    · simp only [State.owed, List.length_append, List.length_singleton,
        Finset.card_insert_of_notMem hi]
      omega
    · simp only [← ho, List.append_assoc]
  | signal i =>
    simp only [step, Option.ite_none_right_eq_some, Option.some.injEq] at hst
    obtain ⟨hi, rfl⟩ := hst
    have hcard := Finset.card_erase_add_one hi
    constructor
    · simp only [State.owed]
      omega
    · exact ho
  | wake =>
    simp only [step, Option.ite_none_left_eq_some, Option.some.injEq, not_or] at hst
    obtain ⟨⟨ha, hz⟩, rfl⟩ := hst
    constructor
    · simp only [State.owed, ha, Bool.false_eq_true, ↓reduceIte] at hc ⊢
      omega
    · exact ho
  | pop =>
    simp only [step] at hst
    split at hst
    · next a rest ha hi =>
      simp only [Option.some.injEq] at hst
      subst hst
      rw [ha, hi] at hc
      rw [hi] at ho
      constructor
      · simp only [State.owed, List.length_cons, ↓reduceIte, Bool.false_eq_true] at hc ⊢
        omega
      · simpa using ho
    · cases hst

theorem balanced_of_reachable {s : State ι α}
    (h : Reachable (Steps step) (fun s => s = empty) s) : Balanced s := by
  refine reachable_invariant ?_ ?_ h
  · rintro _ rfl
    exact balanced_empty
  · intro s e t hb hst
    exact balanced_step hb hst

end Tincan.Library.SignalledQueue
