import Tincan.Library.Runs
import Mathlib.Data.Finset.Card
import Mathlib.Logic.Function.Basic

namespace Tincan.Library.Monitor

/-- A mutex with a condition variable; `waiting` are the threads asleep on it. -/
structure State (ι : Type*) where
  owner : Option ι
  waiting : Finset ι

def free {ι : Type*} : State ι := ⟨none, ∅⟩

section

variable {ι : Type*} [DecidableEq ι]

def State.lock (m : State ι) (i : ι) : Option (State ι) :=
  if m.owner = none ∧ i ∉ m.waiting then some { m with owner := some i } else none

def State.unlock (m : State ι) (i : ι) : Option (State ι) :=
  if m.owner = some i then some { m with owner := none } else none

def State.wait (m : State ι) (i : ι) : Option (State ι) :=
  if m.owner = some i then some ⟨none, insert i m.waiting⟩ else none

def State.wake (m : State ι) (woken : Finset ι) : State ι :=
  { m with waiting := m.waiting \ woken }

/-- At least one of the threads asleep, if there is one, is woken. -/
def State.signal (m : State ι) (woken : Finset ι) : Option (State ι) :=
  if woken ⊆ m.waiting ∧ (m.waiting.Nonempty → woken.Nonempty) then some (m.wake woken) else none

end

section

variable {ι γ : Type*} {inside parked : γ → Prop} {m m' : State ι} {point : ι → γ} {i j : ι} {c : γ}

/-- Threads at known points of their programs: the owner is the one thread
between a lock and an unlock, and who is asleep is at a wait. -/
structure Guards (inside parked : γ → Prop) (m : State ι) (point : ι → γ) : Prop where
  owner : ∀ i, m.owner = some i ↔ inside (point i)
  parked : ∀ i ∈ m.waiting, parked (point i)

theorem Guards.exclusive (h : Guards inside parked m point) (hi : inside (point i))
    (hj : inside (point j)) : i = j := by
  have hm := (h.owner i).mpr hi
  rw [(h.owner j).mpr hj, Option.some.injEq] at hm
  exact hm.symm

theorem Guards.awake (h : Guards inside parked m point) (hp : ¬ parked (point i)) :
    i ∉ m.waiting := fun hi => hp (h.parked i hi)

variable [DecidableEq ι]

theorem Guards.keep (h : Guards inside parked m point) (hi : i ∉ m.waiting)
    (hc : inside c ↔ inside (point i)) : Guards inside parked m (Function.update point i c) := by
  constructor
  · intro j
    obtain rfl | hj := eq_or_ne j i
    · rw [Function.update_self, hc]
      exact h.owner j
    · rw [Function.update_of_ne hj]
      exact h.owner j
  · intro j hj
    rw [Function.update_of_ne (ne_of_mem_of_not_mem hj hi)]
    exact h.parked j hj

theorem Guards.lock (h : Guards inside parked m point) (hm : m.lock i = some m') (hc : inside c) :
    Guards inside parked m' (Function.update point i c) := by
  simp only [State.lock, Option.ite_none_right_eq_some, Option.some.injEq] at hm
  obtain ⟨⟨ho, hi⟩, rfl⟩ := hm
  constructor
  · intro j
    obtain rfl | hj := eq_or_ne j i
    · simp [hc]
    · have hn : ¬ inside (point j) := fun hp => by
        have hs := (h.owner j).mpr hp
        rw [ho] at hs
        cases hs
      simp [hj, hj.symm, hn]
  · intro j hj
    rw [Function.update_of_ne (ne_of_mem_of_not_mem hj hi)]
    exact h.parked j hj

theorem Guards.unlock (h : Guards inside parked m point) (hm : m.unlock i = some m')
    (hi : i ∉ m.waiting) (hc : ¬ inside c) : Guards inside parked m' (Function.update point i c) := by
  simp only [State.unlock, Option.ite_none_right_eq_some, Option.some.injEq] at hm
  obtain ⟨ho, rfl⟩ := hm
  constructor
  · intro j
    obtain rfl | hj := eq_or_ne j i
    · simp [hc]
    · have hn : ¬ inside (point j) := fun hp => hj (h.exclusive hp ((h.owner i).mp ho))
      simp [hj, hn]
  · intro j hj
    rw [Function.update_of_ne (ne_of_mem_of_not_mem hj hi)]
    exact h.parked j hj

theorem Guards.wait (h : Guards inside parked m point) (hm : m.wait i = some m')
    (hc : ¬ inside c) (hp : parked c) : Guards inside parked m' (Function.update point i c) := by
  simp only [State.wait, Option.ite_none_right_eq_some, Option.some.injEq] at hm
  obtain ⟨ho, rfl⟩ := hm
  constructor
  · intro j
    obtain rfl | hj := eq_or_ne j i
    · simp [hc]
    · have hn : ¬ inside (point j) := fun hp => hj (h.exclusive hp ((h.owner i).mp ho))
      simp [hj, hn]
  · intro j hj
    obtain rfl | hne := eq_or_ne j i
    · rwa [Function.update_self]
    · rw [Function.update_of_ne hne]
      exact h.parked j ((Finset.mem_insert.mp hj).resolve_left hne)

theorem Guards.wake (h : Guards inside parked m point) (woken : Finset ι) :
    Guards inside parked (m.wake woken) point :=
  ⟨h.owner, fun j hj => h.parked j (Finset.mem_sdiff.mp hj).1⟩

end

section

variable {ι : Type*} {waiting waiting' : Finset ι} {ready ready' : ι → Prop} {n n' : Nat} {i j : ι}

/-- While someone is asleep, each of the `n` items has a thread of its own that
is awake and will take it, or wake another thread for it. -/
def Covered (waiting : Finset ι) (ready : ι → Prop) (n : Nat) : Prop :=
  waiting.Nonempty → ∃ threads : Finset ι, (∀ i ∈ threads, ready i) ∧ n ≤ threads.card

theorem covered_zero (waiting : Finset ι) (ready : ι → Prop) : Covered waiting ready 0 :=
  fun _ => ⟨∅, by simp, Nat.zero_le _⟩

/-- No wake-up is lost: someone asleep and no thread on its way means no item. -/
theorem Covered.eq_zero (h : Covered waiting ready n) (hw : waiting.Nonempty)
    (hr : ∀ i, ¬ ready i) : n = 0 := by
  obtain ⟨threads, ht, hn⟩ := h hw
  rw [Finset.eq_empty_of_forall_notMem fun i hi => hr i (ht i hi), Finset.card_empty] at hn
  exact Nat.le_zero.mp hn

theorem Covered.mono (h : Covered waiting ready n) (hw : waiting' ⊆ waiting)
    (hr : ∀ i, ready i → ready' i) : Covered waiting' ready' n := by
  intro hne
  obtain ⟨threads, ht, hn⟩ := h (hne.mono hw)
  exact ⟨threads, fun i hi => hr i (ht i hi), hn⟩

variable [DecidableEq ι]

theorem Covered.add (h : Covered waiting ready n) (hi : ¬ ready i) (hi' : ready' i)
    (hr : ∀ j, ready j → ready' j) : Covered waiting ready' (n + 1) := by
  intro hne
  obtain ⟨threads, ht, hn⟩ := h hne
  refine ⟨insert i threads, ?_, ?_⟩
  · intro j hj
    obtain rfl | hj := Finset.mem_insert.mp hj
    · exact hi'
    · exact hr j (ht j hj)
  · rw [Finset.card_insert_of_notMem fun hm => hi (ht i hm)]
    omega

theorem Covered.take (h : Covered waiting ready (n + 1)) (hr : ∀ j, j ≠ i → ready j → ready' j) :
    Covered waiting ready' n := by
  intro hne
  obtain ⟨threads, ht, hn⟩ := h hne
  refine ⟨threads.erase i, ?_, ?_⟩
  · intro j hj
    exact hr j (Finset.ne_of_mem_erase hj) (ht j (Finset.mem_of_mem_erase hj))
  · have hcard := Finset.pred_card_le_card_erase (s := threads) (a := i)
    omega

theorem Covered.handOver (h : Covered waiting ready n) (hj : ¬ ready j) (hj' : ready' j)
    (hr : ∀ k, k ≠ i → ready k → ready' k) : Covered waiting ready' n := by
  intro hne
  obtain ⟨threads, ht, hn⟩ := h hne
  refine ⟨insert j (threads.erase i), ?_, ?_⟩
  · intro k hk
    obtain rfl | hk := Finset.mem_insert.mp hk
    · exact hj'
    · exact hr k (Finset.ne_of_mem_erase hk) (ht k (Finset.mem_of_mem_erase hk))
  · have hcard := Finset.pred_card_le_card_erase (s := threads) (a := i)
    rw [Finset.card_insert_of_notMem fun hm => hj (ht j (Finset.mem_of_mem_erase hm))]
    omega

end

end Tincan.Library.Monitor
