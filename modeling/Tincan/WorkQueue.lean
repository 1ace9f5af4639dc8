import Tincan.Library.AtomicObject
import Tincan.Library.Monitor
import Tincan.PacketPath
import Mathlib.Algebra.Group.Action.Defs
import Mathlib.Algebra.Order.BigOperators.Ring.Finset
import Mathlib.Tactic.Ring

namespace Tincan.WorkQueue

open Tincan.Library Tincan.Library.Runs Tincan.Library.AtomicObject Tincan.Library.Monitor
open Tincan.PacketPath

inductive Call (α : Type)
  | add (item : α)
  | remove
  | size

inductive Answer (α : Type)
  | added
  | removed (item : α)
  | sized (size : Int)

def size {α : Type} (q : WQueue α) : Int := (q.length : Int).bmod (2 ^ 32)

/-- The queue with one caller at a time; `none` is a caller that waits. -/
def serve {α : Type} : Call α → WQueue α → Option (Answer α × WQueue α)
  | .add item, q => some (.added, q.add item)
  | .remove, q => q.remove.map fun (item, rest) => (.removed item, rest)
  | .size, q => some (.sized (size q), q)

/-- The statement of `add`, `remove` or `size` that a thread is to do next. A
thread in `pthread_cond_wait` is at `removeWait`, asleep or not. -/
inductive Point (α : Type)
  | outside
  | addLock (item : α)
  | addPush (item : α)
  | addSignal
  | addUnlock
  | removeLock
  | removeTest
  | removeWait
  | removePop
  | removeUnlock (item : α)
  | sizeLock
  | sizeRead
  | sizeUnlock (size : Int)

/-- The threads that share a `wqueue`. `trace` is when they call, when the
queue is changed or read for them, and when they return. -/
structure State (ι α : Type) where
  queue : WQueue α
  monitor : Monitor.State ι
  point : ι → Point α
  trace : List (ι × Mark (Call α) (Answer α))

inductive Action (ι α : Type)
  | call (i : ι) (call : Call α)
  | run (i : ι) (woken : Finset ι)
  | wake (woken : Finset ι)

def empty {ι α : Type} : State ι α := ⟨[], Monitor.free, fun _ => .outside, []⟩

def Call.entry {α : Type} : Call α → Point α
  | .add item => .addLock item
  | .remove => .removeLock
  | .size => .sizeLock

section

variable {ι α : Type} [DecidableEq ι]

def State.goto (s : State ι α) (i : ι) (m : Monitor.State ι) (p : Point α) : State ι α :=
  { s with monitor := m, point := Function.update s.point i p }

def State.mark (s : State ι α) (i : ι) (mark : Mark (Call α) (Answer α)) : State ι α :=
  { s with trace := s.trace ++ [(i, mark)] }

/-- One statement of thread `i`; `none` is a statement that has to wait, and
`front` of an empty list. `woken` is whom a signal wakes. -/
def run (s : State ι α) (i : ι) (woken : Finset ι) : Option (State ι α) :=
  match s.point i with
  | .outside => none
  | .addLock item => (s.monitor.lock i).map fun m => s.goto i m (.addPush item)
  | .addPush item =>
    some { (s.goto i s.monitor .addSignal).mark i (.effect (.add item) .added) with
      queue := s.queue.add item }
  | .addSignal => (s.monitor.signal woken).map fun m => s.goto i m .addUnlock
  | .addUnlock => (s.monitor.unlock i).map fun m => (s.goto i m .outside).mark i (.answer .added)
  | .removeLock => (s.monitor.lock i).map fun m => s.goto i m .removeTest
  | .removeTest =>
    if s.queue.length = 0 then (s.monitor.wait i).map fun m => s.goto i m .removeWait
    else some (s.goto i s.monitor .removePop)
  | .removeWait => (s.monitor.lock i).map fun m => s.goto i m .removeTest
  | .removePop =>
    match s.queue with
    | [] => none
    | item :: queue =>
      some { (s.goto i s.monitor (.removeUnlock item)).mark i (.effect .remove (.removed item)) with
        queue := queue }
  | .removeUnlock item =>
    (s.monitor.unlock i).map fun m => (s.goto i m .outside).mark i (.answer (.removed item))
  | .sizeLock => (s.monitor.lock i).map fun m => s.goto i m .sizeRead
  | .sizeRead =>
    some ((s.goto i s.monitor (.sizeUnlock (size s.queue))).mark i
      (.effect .size (.sized (size s.queue))))
  | .sizeUnlock size =>
    (s.monitor.unlock i).map fun m => (s.goto i m .outside).mark i (.answer (.sized size))

def step (s : State ι α) : Action ι α → Option (State ι α)
  | .call i c =>
    match s.point i with
    | .outside => some ((s.goto i s.monitor c.entry).mark i (.call c))
    | _ => none
  | .run i woken => run s i woken
  | .wake woken => some { s with monitor := s.monitor.wake woken }

def Point.locked : Point α → Option (Point α)
  | .addLock item => some (.addPush item)
  | .removeLock => some .removeTest
  | .removeWait => some .removeTest
  | .sizeLock => some .sizeRead
  | _ => none

def Point.returns : Point α → Option (Answer α)
  | .addUnlock => some .added
  | .removeUnlock item => some (.removed item)
  | .sizeUnlock size => some (.sized size)
  | _ => none

inductive Ran (s : State ι α) (i : ι) (woken : Finset ι) : State ι α → Prop
  | lock {p : Point α} {m : Monitor.State ι} (hp : (s.point i).locked = some p)
      (hm : s.monitor.lock i = some m) : Ran s i woken (s.goto i m p)
  | unlock {r : Answer α} {m : Monitor.State ι} (hp : (s.point i).returns = some r)
      (hm : s.monitor.unlock i = some m) : Ran s i woken ((s.goto i m .outside).mark i (.answer r))
  | push {item : α} (hp : s.point i = .addPush item) :
      Ran s i woken { (s.goto i s.monitor .addSignal).mark i (.effect (.add item) .added) with
        queue := s.queue.add item }
  | signal {m : Monitor.State ι} (hp : s.point i = .addSignal)
      (hm : s.monitor.signal woken = some m) : Ran s i woken (s.goto i m .addUnlock)
  | sleep {m : Monitor.State ι} (hp : s.point i = .removeTest) (hq : s.queue.length = 0)
      (hm : s.monitor.wait i = some m) : Ran s i woken (s.goto i m .removeWait)
  | found (hp : s.point i = .removeTest) (hq : s.queue.length ≠ 0) :
      Ran s i woken (s.goto i s.monitor .removePop)
  | pop {item : α} {queue : WQueue α} (hp : s.point i = .removePop) (hq : s.queue = item :: queue) :
      Ran s i woken { (s.goto i s.monitor (.removeUnlock item)).mark i
        (.effect .remove (.removed item)) with queue := queue }
  | read (hp : s.point i = .sizeRead) :
      Ran s i woken ((s.goto i s.monitor (.sizeUnlock (size s.queue))).mark i
        (.effect .size (.sized (size s.queue))))

theorem run_cases {s t : State ι α} {i : ι} {woken : Finset ι} (h : run s i woken = some t) :
    Ran s i woken t := by
  unfold run at h
  split at h
  case h_1 => cases h
  case h_2 hp | h_6 hp | h_8 hp | h_11 hp =>
    rw [Option.map_eq_some_iff] at h
    obtain ⟨m, hm, rfl⟩ := h
    exact .lock (by rw [hp]; rfl) hm
  case h_3 hp =>
    cases h
    exact .push hp
  case h_4 hp =>
    rw [Option.map_eq_some_iff] at h
    obtain ⟨m, hm, rfl⟩ := h
    exact .signal hp hm
  case h_5 hp | h_10 hp | h_13 hp =>
    rw [Option.map_eq_some_iff] at h
    obtain ⟨m, hm, rfl⟩ := h
    exact .unlock (by rw [hp]; rfl) hm
  case h_7 hp =>
    split at h
    · next hq =>
      rw [Option.map_eq_some_iff] at h
      obtain ⟨m, hm, rfl⟩ := h
      exact .sleep hp hq hm
    · next hq =>
      cases h
      exact .found hp hq
  case h_9 hp =>
    split at h
    · cases h
    · next hq =>
      cases h
      exact .pop hp hq
  case h_12 hp =>
    cases h
    exact .read hp

def Point.inside : Point α → Prop
  | .outside | .addLock _ | .removeLock | .removeWait | .sizeLock => False
  | _ => True

def Point.parked : Point α → Prop
  | .removeWait => True
  | _ => False

def Point.fetching : Point α → Prop
  | .addSignal | .removeLock | .removeTest | .removeWait | .removePop => True
  | _ => False

def Point.phase : Point α → Phase (Call α) (Answer α)
  | .outside => .idle
  | .addLock item | .addPush item => .pending (.add item)
  | .addSignal | .addUnlock => .answered .added
  | .removeLock | .removeTest | .removeWait | .removePop => .pending .remove
  | .removeUnlock item => .answered (.removed item)
  | .sizeLock | .sizeRead => .pending .size
  | .sizeUnlock size => .answered (.sized size)

def Ready (s : State ι α) (i : ι) : Prop := (s.point i).fetching ∧ i ∉ s.monitor.waiting

structure Sound (s : State ι α) : Prop where
  guards : Guards Point.inside Point.parked s.monitor s.point
  popping : ∀ i, s.point i = .removePop → s.queue ≠ []
  covered : Covered s.monitor.waiting (Ready s) s.queue.length

omit [DecidableEq ι] in
theorem sound_empty : Sound (empty : State ι α) := by
  refine ⟨⟨?_, ?_⟩, ?_, ?_⟩
  · intro i
    simp [empty, Monitor.free, Point.inside]
  · intro i hi
    simp [empty, Monitor.free] at hi
  · intro i hi
    cases hi
  · exact covered_zero _ _

theorem Point.inside_of_returns {p : Point α} {r : Answer α} (h : p.returns = some r) :
    p.inside ∧ ¬ p.parked ∧ ¬ p.fetching ∧ p ≠ .removePop ∧ p.phase = .answered r := by
  cases p <;> simp_all [Point.returns, Point.inside, Point.parked, Point.fetching, Point.phase]

theorem Point.inside_of_locked {p q : Point α} (h : p.locked = some q) :
    ¬ p.inside ∧ q.inside ∧ (p.fetching → q.fetching) ∧ q ≠ .removePop ∧ q.phase = p.phase := by
  cases p <;> simp_all [Point.locked, Point.inside, Point.fetching, Point.phase] <;>
    subst h <;> simp

theorem Point.fetching_of_parked {p : Point α} (h : p.parked) : p.fetching := by
  cases p <;> simp_all [Point.parked, Point.fetching]

theorem lock_waiting {m m' : Monitor.State ι} {i : ι} (h : m.lock i = some m') :
    m'.waiting = m.waiting := by
  simp only [Monitor.State.lock, Option.ite_none_right_eq_some, Option.some.injEq] at h
  rw [← h.2]

theorem unlock_waiting {m m' : Monitor.State ι} {i : ι} (h : m.unlock i = some m') :
    m'.waiting = m.waiting := by
  simp only [Monitor.State.unlock, Option.ite_none_right_eq_some, Option.some.injEq] at h
  rw [← h.2]

theorem Ready.goto {s : State ι α} {i j : ι} {m : Monitor.State ι} {p : Point α}
    (h : Ready s j) (hw : m.waiting ⊆ s.monitor.waiting)
    (hp : j = i → p.fetching) : Ready (s.goto i m p) j := by
  refine ⟨?_, fun hi => h.2 (hw hi)⟩
  simp only [State.goto]
  obtain rfl | hj := eq_or_ne j i
  · rw [Function.update_self]
    exact hp rfl
  · rw [Function.update_of_ne hj]
    exact h.1

theorem popping_goto {point : ι → Point α} {i : ι} {p : Point α} {queue : WQueue α}
    (hp : p = .removePop → queue ≠ [])
    (h : ∀ j, j ≠ i → point j = .removePop → queue ≠ []) (j : ι)
    (hj : Function.update point i p j = .removePop) : queue ≠ [] := by
  obtain rfl | hne := eq_or_ne j i
  · rw [Function.update_self] at hj
    exact hp hj
  · rw [Function.update_of_ne hne] at hj
    exact h j hne hj

theorem sound_run {s t : State ι α} {i : ι} {woken : Finset ι} (h : Sound s)
    (ht : Ran s i woken t) : Sound t := by
  have hpop := fun j (_ : j ≠ i) => h.popping j
  cases ht with
  | @lock p m hp hm =>
    have hw := lock_waiting hm
    obtain ⟨-, hin, hf, hne, -⟩ := Point.inside_of_locked hp
    refine ⟨h.guards.lock hm hin, popping_goto (fun he => absurd he hne) hpop, ?_⟩
    refine h.covered.mono hw.subset fun j hj => hj.goto hw.subset ?_
    rintro rfl
    exact hf hj.1
  | @unlock r m hp hm =>
    have hw := unlock_waiting hm
    obtain ⟨-, hpark, hf, -, -⟩ := Point.inside_of_returns hp
    refine ⟨h.guards.unlock hm (h.guards.awake hpark) not_false, popping_goto (fun he => ?_) hpop, ?_⟩
    · cases he
    · refine h.covered.mono hw.subset fun j hj => hj.goto hw.subset ?_
      rintro rfl
      exact absurd hj.1 hf
  | @push item hp =>
    have hi : i ∉ s.monitor.waiting := h.guards.awake (by rw [hp]; exact not_false)
    have hq : s.queue.add item ≠ [] := by simp [WQueue.add]
    refine ⟨h.guards.keep hi (by rw [hp]; exact Iff.rfl), popping_goto (fun _ => hq) (fun _ _ _ => hq), ?_⟩
    -- the new item is covered by the thread that is about to signal for it
    have hc : Covered s.monitor.waiting (Ready (s.goto i s.monitor .addSignal)) (s.queue.length + 1) := by
      refine h.covered.add (i := i) ?_ ⟨?_, hi⟩ fun j hj => hj.goto subset_rfl fun _ => trivial
      · rw [Ready, hp]
        exact fun hr => hr.1
      · simp only [State.goto, Function.update_self]
        trivial
    have hlen : (s.queue.add item).length = s.queue.length + 1 := List.length_append
    rw [← hlen] at hc
    exact hc
  | @signal m hp hm =>
    have hi : i ∉ s.monitor.waiting := h.guards.awake (by rw [hp]; exact not_false)
    simp only [Monitor.State.signal, Option.ite_none_right_eq_some, Option.some.injEq] at hm
    obtain ⟨⟨hsub, hne⟩, rfl⟩ := hm
    refine ⟨(h.guards.wake woken).keep ?_ ?_, popping_goto (fun he => ?_) hpop, ?_⟩
    · exact fun hw => hi (Finset.mem_sdiff.mp hw).1
    · rw [hp]
      exact Iff.rfl
    · cases he
    · intro hw
      have hwait : s.monitor.waiting.Nonempty := hw.mono Finset.sdiff_subset
      obtain ⟨j, hj⟩ := hne hwait
      have hjr : Ready (s.goto i (s.monitor.wake woken) .addUnlock) j := by
        refine ⟨?_, fun hm => (Finset.mem_sdiff.mp hm).2 hj⟩
        have hji : j ≠ i := ne_of_mem_of_not_mem (hsub hj) hi
        simp only [State.goto, Function.update_of_ne hji]
        exact Point.fetching_of_parked (h.guards.parked j (hsub hj))
      exact h.covered.handOver (fun hr => hr.2 (hsub hj)) hjr
        (fun k hk hr => hr.goto Finset.sdiff_subset fun hki => absurd hki hk) hwait
  | @sleep m hp hq hm =>
    refine ⟨h.guards.wait hm not_false trivial, popping_goto (fun he => ?_) hpop, ?_⟩
    · cases he
    · have hc := covered_zero m.waiting (Ready (s.goto i m .removeWait))
      rwa [← hq] at hc
  | found hp hq =>
    have hi : i ∉ s.monitor.waiting := h.guards.awake (by rw [hp]; exact not_false)
    have hne : s.queue ≠ [] := fun hn => hq (by rw [hn]; rfl)
    refine ⟨h.guards.keep hi (by rw [hp]; exact Iff.rfl), popping_goto (fun _ => hne) hpop, ?_⟩
    exact h.covered.mono subset_rfl fun j hj => hj.goto subset_rfl fun _ => trivial
  | @pop item queue hp hq =>
    have hi : i ∉ s.monitor.waiting := h.guards.awake (by rw [hp]; exact not_false)
    refine ⟨h.guards.keep hi (by rw [hp]; exact Iff.rfl), popping_goto (fun he => ?_) ?_, ?_⟩
    · cases he
    · intro j hj hpj
      have hin : ∀ p : Point α, p = .removePop → p.inside := by
        rintro p rfl
        trivial
      exact absurd (h.guards.exclusive (hin _ hpj) (hin _ hp)) hj
    · have hc := h.covered
      rw [hq, List.length_cons] at hc
      exact hc.take fun j hj hr => hr.goto subset_rfl fun he => absurd he hj
  | read hp =>
    have hi : i ∉ s.monitor.waiting := h.guards.awake (by rw [hp]; exact not_false)
    refine ⟨h.guards.keep hi (by rw [hp]; exact Iff.rfl), popping_goto (fun he => ?_) hpop, ?_⟩
    · cases he
    · refine h.covered.mono subset_rfl fun j hj => hj.goto subset_rfl ?_
      rintro rfl
      have hf := hj.1
      rw [hp] at hf
      exact hf.elim

theorem sound_step {s t : State ι α} {e : Action ι α} (h : Sound s) (hst : step s e = some t) :
    Sound t := by
  cases e with
  | call i c =>
    simp only [step] at hst
    split at hst
    · next hp =>
      cases hst
      have hi : i ∉ s.monitor.waiting := h.guards.awake (by rw [hp]; exact not_false)
      refine ⟨h.guards.keep hi ?_, popping_goto (fun he => ?_) fun j _ => h.popping j, ?_⟩
      · rw [hp]
        cases c <;> exact Iff.rfl
      · cases c <;> cases he
      · refine h.covered.mono subset_rfl fun j hj => hj.goto subset_rfl ?_
        rintro rfl
        have hf := hj.1
        rw [hp] at hf
        exact hf.elim
    · cases hst
  | run i woken => exact sound_run h (run_cases hst)
  | wake woken =>
    cases hst
    refine ⟨h.guards.wake woken, h.popping, ?_⟩
    exact h.covered.mono Finset.sdiff_subset fun j hj =>
      ⟨hj.1, fun hw => hj.2 (Finset.mem_sdiff.mp hw).1⟩

def Reached (s : State ι α) : Prop := Reachable (Steps step) (fun s => s = empty) s

theorem sound_of_reachable {s : State ι α} (h : Reached s) : Sound s := by
  refine reachable_invariant ?_ ?_ h
  · rintro _ rfl
    exact sound_empty
  · exact fun _ _ _ hs hst => sound_step hs hst

/-- A `wqueue` seen as one object whose calls happen at once. -/
def view (s : State ι α) : AtomicObject.State ι (Call α) (Answer α) (WQueue α) :=
  ⟨s.queue, fun i => (s.point i).phase⟩

theorem view_goto (s : State ι α) (i : ι) (m : Monitor.State ι) (p : Point α) :
    view (s.goto i m p) = (view s).enter i p.phase := by
  refine congrArg (AtomicObject.State.mk s.queue) (funext fun j => ?_)
  obtain rfl | hj := eq_or_ne j i
  · simp [State.goto, view]
  · simp [State.goto, view, hj]

theorem view_effect (s : State ι α) (i : ι) (m : Monitor.State ι) (p : Point α)
    (mark : Mark (Call α) (Answer α)) (queue : WQueue α) :
    view { (s.goto i m p).mark i mark with queue := queue } =
      { (view s).enter i p.phase with object := queue } := by
  rw [← view_goto s i m p]
  rfl

theorem view_goto_of_eq {s : State ι α} {i : ι} {p : Point α} (m : Monitor.State ι)
    (h : p.phase = (s.point i).phase) : view (s.goto i m p) = view s := by
  rw [view_goto, h]
  exact congrArg (AtomicObject.State.mk s.queue) (Function.update_eq_self i _)

/-- The moments of a call are those of the object; every other statement of the
three functions is none of its callers' business. -/
theorem view_step {s t : State ι α} {e : Action ι α} (hst : step s e = some t) :
    ∃ tr, t.trace = s.trace ++ tr ∧ Run (AtomicObject.Step serve) (view s) tr (view t) := by
  cases e with
  | call i c =>
    simp only [step] at hst
    split at hst
    · next hp =>
      cases hst
      refine ⟨_, rfl, run_single ?_⟩
      have hv : view ((s.goto i s.monitor c.entry).mark i (.call c)) = (view s).enter i (.pending c) := by
        refine (view_goto s i s.monitor c.entry).trans ?_
        cases c <;> rfl
      rw [hv]
      exact .call c (by simp [view, hp, Point.phase])
    · cases hst
  | run i woken =>
    cases run_cases hst with
    | @lock p m hp hm =>
      refine ⟨[], by simp [State.goto], ?_⟩
      rw [view_goto_of_eq m (Point.inside_of_locked hp).2.2.2.2]
      exact Run.nil _
    | @unlock r m hp hm =>
      refine ⟨_, rfl, run_single ?_⟩
      have hv : view ((s.goto i m .outside).mark i (.answer r)) = (view s).enter i .idle :=
        view_goto s i m .outside
      rw [hv]
      exact .answer (Point.inside_of_returns hp).2.2.2.2
    | @push item hp =>
      refine ⟨_, rfl, run_single ?_⟩
      rw [view_effect]
      exact .effect (by simp [view, hp, Point.phase]) rfl
    | @signal m hp hm =>
      refine ⟨[], by simp [State.goto], ?_⟩
      rw [view_goto_of_eq m (by rw [hp]; rfl)]
      exact Run.nil _
    | @sleep m hp hq hm =>
      refine ⟨[], by simp [State.goto], ?_⟩
      rw [view_goto_of_eq m (by rw [hp]; rfl)]
      exact Run.nil _
    | found hp hq =>
      refine ⟨[], by simp [State.goto], ?_⟩
      rw [view_goto_of_eq s.monitor (by rw [hp]; rfl)]
      exact Run.nil _
    | @pop item queue hp hq =>
      refine ⟨_, rfl, run_single ?_⟩
      rw [view_effect]
      exact .effect (by simp [view, hp, Point.phase]) (by simp [serve, view, hq, WQueue.remove])
    | read hp =>
      refine ⟨_, rfl, run_single ?_⟩
      have hv := view_effect s i s.monitor (.sizeUnlock (size s.queue))
        (.effect .size (.sized (size s.queue))) s.queue
      exact hv ▸ .effect (by simp [view, hp, Point.phase]) rfl
  | wake woken =>
    cases hst
    exact ⟨[], by simp, Run.nil _⟩

theorem linearizable {s : State ι α} (h : Reached s) :
    Run (AtomicObject.Step serve) (AtomicObject.start []) s.trace (view s) := by
  refine reachable_invariant (P := fun s : State ι α =>
    Run (AtomicObject.Step serve) (AtomicObject.start []) s.trace (view s)) ?_ ?_ h
  · rintro _ rfl
    exact Run.nil _
  · intro s e t hs hst
    obtain ⟨tr, ht, hr⟩ := view_step hst
    rw [ht]
    exact run_append hs hr

def given (es : List (Call α × Answer α)) : List α :=
  es.filterMap fun
    | (.add item, _) => some item
    | _ => none

def taken (es : List (Call α × Answer α)) : List α :=
  es.filterMap fun
    | (_, .removed item) => some item
    | _ => none

omit [DecidableEq ι] in
theorem serve_fifo {es : List (Call α × Answer α)} {c : Call α} {r : Answer α} {q q' : WQueue α}
    (h : taken es ++ q = given es) (hs : serve c q = some (r, q')) :
    taken (es ++ [(c, r)]) ++ q' = given (es ++ [(c, r)]) := by
  unfold taken given at h ⊢
  rw [List.filterMap_append, List.filterMap_append, ← h]
  cases c with
  | add item =>
    cases hs
    simp [WQueue.add]
  | remove =>
    simp only [serve, Option.map_eq_some_iff] at hs
    obtain ⟨⟨item, rest⟩, hrest, he⟩ := hs
    cases he
    rw [WQueue.remove_eq_some hrest]
    simp
  | size =>
    cases hs
    simp

/-- However the threads interleave inside `add`, `remove` and `size`, the queue
is one whose calls happen at once: what they take is what they gave, in its
order. Only one thread is between a lock and its unlock, and none that goes on
to `front` finds the list empty. -/
theorem calls_are_atomic {s : State ι α} (h : Reached s) :
    Run (AtomicObject.Step serve) (AtomicObject.start []) s.trace (view s) ∧
      taken (effects s.trace) ++ s.queue = given (effects s.trace) ∧
      (∀ i j, (s.point i).inside → (s.point j).inside → i = j) ∧
      ∀ i, s.point i = .removePop → s.queue ≠ [] := by
  have hs := sound_of_reachable h
  have hl := linearizable h
  refine ⟨hl, ?_, fun i j hi hj => hs.guards.exclusive hi hj, hs.popping⟩
  have hf := run_effects (P := fun es (q : WQueue α) => taken es ++ q = given es) ?_ hl rfl
  · exact hf
  · intro es c r q q' hq ha
    exact serve_fifo hq ha

def handOverCalls : List (Action (Fin 2) Nat) := [.call 0 .remove, .run 0 ∅, .run 0 ∅, .call 1 (.add 7)]

def handOverRun : List (Fin 2 × Finset (Fin 2)) :=
  [(1, ∅), (1, ∅), (1, {0}), (1, ∅), (0, ∅), (0, ∅), (0, ∅), (0, ∅)]

theorem calls_are_atomic_handOver :
    ∃ s, replay step empty (handOverCalls ++ handOverRun.map fun e => .run e.1 e.2) = some s ∧
      Run (AtomicObject.Step serve) (AtomicObject.start []) s.trace (view s) ∧
      taken (effects s.trace) ++ s.queue = given (effects s.trace) ∧
      (∀ i j, (s.point i).inside → (s.point j).inside → i = j) ∧
      ∀ i, s.point i = .removePop → s.queue ≠ [] :=
  ⟨_, rfl, calls_are_atomic
    ⟨empty, handOverCalls ++ handOverRun.map fun e => .run e.1 e.2, rfl, run_of_replay rfl⟩⟩

/-- How many statements a thread has before it at most, until it returns or sleeps. -/
def Point.cost : Point α → Nat
  | .outside => 0
  | .addUnlock | .removeUnlock _ | .sizeUnlock _ => 1
  | .addSignal | .removePop | .sizeRead => 2
  | .addPush _ | .removeTest | .sizeLock => 3
  | .addLock _ | .removeLock | .removeWait => 4

def Point.signals : Point α → Nat
  | .addLock _ | .addPush _ | .addSignal => 1
  | _ => 0

section

variable [Fintype ι]

/-- A signal to come may wake every other thread, which then tests again. -/
def load (s : State ι α) (i : ι) : Nat :=
  (if i ∈ s.monitor.waiting then 0 else (s.point i).cost) + (s.point i).signals * (4 * Fintype.card ι)

def work (s : State ι α) : Nat := ∑ i, load s i

omit [DecidableEq ι] [Fintype ι] in
theorem Point.cost_le (p : Point α) : p.cost ≤ 4 := by
  cases p <;> simp [Point.cost]

omit [DecidableEq ι] [Fintype ι] in
theorem Point.cost_locked {p q : Point α} (h : p.locked = some q) :
    q.cost < p.cost ∧ q.signals ≤ p.signals := by
  cases p <;> simp only [Point.locked, reduceCtorEq, Option.some.injEq] at h <;> subst h <;>
    simp [Point.cost, Point.signals]

theorem work_le (s : State ι α) : work s ≤ 4 * Fintype.card ι * (Fintype.card ι + 1) := by
  have hload : ∀ i ∈ Finset.univ, load s i ≤ 4 * (Fintype.card ι + 1) := by
    intro i _
    have hc : (if i ∈ s.monitor.waiting then 0 else (s.point i).cost) ≤ 4 := by
      split
      · omega
      · exact Point.cost_le _
    have hsig : (s.point i).signals * (4 * Fintype.card ι) ≤ 1 * (4 * Fintype.card ι) := by
      refine Nat.mul_le_mul_right _ ?_
      cases s.point i <;> simp [Point.signals]
    unfold load
    omega
  have hsum := Finset.sum_le_card_nsmul Finset.univ (load s) _ hload
  rw [Finset.card_univ, smul_eq_mul] at hsum
  calc work s ≤ Fintype.card ι * (4 * (Fintype.card ι + 1)) := hsum
    _ = 4 * Fintype.card ι * (Fintype.card ι + 1) := by ring

theorem work_lt {s t : State ι α} {i : ι} {p : Point α} (hp : t.point = Function.update s.point i p)
    (hw : ∀ j, j ≠ i → (j ∈ t.monitor.waiting ↔ j ∈ s.monitor.waiting)) (hi : i ∉ s.monitor.waiting)
    (hc : i ∈ t.monitor.waiting ∧ 0 < (s.point i).cost ∨ p.cost < (s.point i).cost)
    (hs : p.signals ≤ (s.point i).signals) : work t < work s := by
  have hown : load t i < load s i := by
    have hsig := Nat.mul_le_mul_right (4 * Fintype.card ι) hs
    unfold load
    rw [hp, Function.update_self, if_neg hi]
    obtain ⟨ht, hpos⟩ | hlt := hc
    · rw [if_pos ht]
      omega
    · split <;> omega
  refine Finset.sum_lt_sum (fun j _ => ?_) ⟨i, Finset.mem_univ i, hown⟩
  obtain rfl | hj := eq_or_ne j i
  · exact hown.le
  · unfold load
    rw [hp, Function.update_of_ne hj]
    simp only [hw j hj, le_refl]

theorem work_signal {s : State ι α} {i : ι} {woken : Finset ι} (hp : s.point i = .addSignal)
    (hi : i ∉ s.monitor.waiting) : work (s.goto i (s.monitor.wake woken) .addUnlock) < work s := by
  have hown : load (s.goto i (s.monitor.wake woken) .addUnlock) i + (4 * Fintype.card ι + 1) = load s i := by
    have hi' : i ∉ (s.monitor.wake woken).waiting := fun hm => hi (Finset.mem_sdiff.mp hm).1
    simp only [load, State.goto, Function.update_self, if_neg hi, if_neg hi', hp, Point.cost, Point.signals]
    omega
  have hothers : ∀ j ∈ Finset.univ.erase i,
      load (s.goto i (s.monitor.wake woken) .addUnlock) j ≤ load s j + 4 := by
    intro j hj
    have hc := Point.cost_le (s.point j)
    simp only [load, State.goto, Function.update_of_ne (Finset.ne_of_mem_erase hj), Monitor.State.wake,
      Finset.mem_sdiff]
    split <;> split <;> omega
  have hsum := Finset.sum_le_sum hothers
  rw [Finset.sum_add_distrib, Finset.sum_const, smul_eq_mul] at hsum
  have hcard : (Finset.univ.erase i).card ≤ Fintype.card ι := Finset.card_le_univ _
  have ht := Finset.add_sum_erase Finset.univ (load (s.goto i (s.monitor.wake woken) .addUnlock))
    (Finset.mem_univ i)
  have hs := Finset.add_sum_erase Finset.univ (load s) (Finset.mem_univ i)
  unfold work
  omega

theorem work_ran {s t : State ι α} {i : ι} {woken : Finset ι} (h : Sound s) (ht : Ran s i woken t) :
    work t < work s := by
  cases ht with
  | @lock p m hp hm =>
    have hw := lock_waiting hm
    have hi : i ∉ s.monitor.waiting := by
      simp only [Monitor.State.lock, Option.ite_none_right_eq_some] at hm
      exact hm.1.2
    exact work_lt rfl (fun j _ => by rw [← hw]; rfl) hi (.inr (Point.cost_locked hp).1)
      (Point.cost_locked hp).2
  | @unlock r m hp hm =>
    have hw := unlock_waiting hm
    have hi := h.guards.awake (Point.inside_of_returns hp).2.1
    refine work_lt rfl (fun j _ => by rw [← hw]; rfl) hi (.inr ?_) (Nat.zero_le _)
    revert hp
    cases s.point i <;> simp [Point.returns, Point.cost]
  | push hp =>
    have hi : i ∉ s.monitor.waiting := h.guards.awake (by rw [hp]; exact not_false)
    exact work_lt rfl (fun _ _ => Iff.rfl) hi (.inr (by simp [hp, Point.cost])) (by simp [hp, Point.signals])
  | signal hp hm =>
    have hi : i ∉ s.monitor.waiting := h.guards.awake (by rw [hp]; exact not_false)
    simp only [Monitor.State.signal, Option.ite_none_right_eq_some, Option.some.injEq] at hm
    obtain ⟨-, rfl⟩ := hm
    exact work_signal hp hi
  | sleep hp hq hm =>
    have hi : i ∉ s.monitor.waiting := h.guards.awake (by rw [hp]; exact not_false)
    simp only [Monitor.State.wait, Option.ite_none_right_eq_some, Option.some.injEq] at hm
    obtain ⟨-, rfl⟩ := hm
    refine work_lt rfl (fun j hj => ?_) hi (.inl ⟨?_, by simp [hp, Point.cost]⟩) (Nat.zero_le _)
    · simp [State.goto, hj]
    · simp [State.goto]
  | found hp hq =>
    have hi : i ∉ s.monitor.waiting := h.guards.awake (by rw [hp]; exact not_false)
    exact work_lt rfl (fun _ _ => Iff.rfl) hi (.inr (by simp [hp, Point.cost])) (Nat.zero_le _)
  | pop hp hq =>
    have hi : i ∉ s.monitor.waiting := h.guards.awake (by rw [hp]; exact not_false)
    exact work_lt rfl (fun _ _ => Iff.rfl) hi (.inr (by simp [hp, Point.cost])) (Nat.zero_le _)
  | read hp =>
    have hi : i ∉ s.monitor.waiting := h.guards.awake (by rw [hp]; exact not_false)
    exact work_lt rfl (fun _ _ => Iff.rfl) hi (.inr (by simp [hp, Point.cost])) (Nat.zero_le _)

end

/-- The statements of the threads that are inside a call, with nobody calling
anew and nobody woken without a signal. -/
def Runs : State ι α → ι × Finset ι → State ι α → Prop := Steps fun s e => run s e.1 e.2

def Asleep (s : State ι α) (i : ι) : Prop := s.point i = .removeWait ∧ i ∈ s.monitor.waiting

theorem run_of_inside {s : State ι α} {i : ι} (h : Sound s) (hi : (s.point i).inside) :
    run s i s.monitor.waiting ≠ none := by
  have ho := (h.guards.owner i).mpr hi
  have hunlock : s.monitor.unlock i = some { s.monitor with owner := none } := if_pos ho
  have hsignal : s.monitor.signal s.monitor.waiting = some (s.monitor.wake s.monitor.waiting) :=
    if_pos ⟨subset_rfl, id⟩
  have hwait : s.monitor.wait i = some ⟨none, insert i s.monitor.waiting⟩ := if_pos ho
  unfold run
  split
  case h_1 hp | h_2 hp | h_6 hp | h_8 hp | h_11 hp =>
    rw [hp] at hi
    exact hi.elim
  case h_7 =>
    rw [hwait]
    split <;> simp
  case h_9 hp =>
    split
    · next hq => exact absurd hq (h.popping i hp)
    · simp
  all_goals simp [hunlock, hsignal]

theorem run_of_free {s : State ι α} {i : ι} (ho : s.monitor.owner = none) (hi : ¬ (s.point i).inside)
    (hout : s.point i ≠ .outside) (hw : i ∉ s.monitor.waiting) : run s i ∅ ≠ none := by
  have hlock : s.monitor.lock i = some { s.monitor with owner := some i } := if_pos ⟨ho, hw⟩
  unfold run
  split
  case h_1 hp => exact absurd hp hout
  case h_2 | h_6 | h_8 | h_11 => simp [hlock]
  all_goals next hp => exact absurd (by rw [hp]; trivial) hi

/-- A state in which no thread can go on is one where everybody has returned or
sleeps for an item, and then there is none. -/
theorem settled_of_stuck {s : State ι α} (h : Sound s) (hr : ∀ i woken, run s i woken = none) :
    (∀ i, s.point i = .outside ∨ Asleep s i) ∧ ((∃ i, Asleep s i) → s.queue = []) := by
  have hout : ∀ i, ¬ (s.point i).inside := fun i hi => run_of_inside h hi (hr i _)
  have ho : s.monitor.owner = none := by
    cases ho : s.monitor.owner with
    | none => rfl
    | some i => exact absurd ((h.guards.owner i).mp ho) (hout i)
  have hall : ∀ i, s.point i = .outside ∨ Asleep s i := by
    intro i
    obtain hp | hp := Classical.em (s.point i = .outside)
    · exact .inl hp
    · obtain hw | hw := Classical.em (i ∈ s.monitor.waiting)
      · have hpark := h.guards.parked i hw
        refine .inr ⟨?_, hw⟩
        revert hpark
        cases s.point i <;> simp [Point.parked]
      · exact absurd (hr i ∅) (run_of_free ho (hout i) hp hw)
  refine ⟨hall, ?_⟩
  rintro ⟨i, -, hi⟩
  refine List.length_eq_zero_iff.mp (h.covered.eq_zero ⟨i, hi⟩ ?_)
  rintro j ⟨hf, hw⟩
  obtain hp | hp := hall j
  · rw [hp] at hf
    exact hf
  · exact hw hp.2

theorem work_run [Fintype ι] {s t : State ι α} {es : List (ι × Finset ι)} (h : Sound s)
    (hr : Run Runs s es t) : Sound t ∧ es.length + work t ≤ work s := by
  induction hr with
  | nil => exact ⟨h, by simp⟩
  | snoc _ hst ih =>
    obtain ⟨hs, hw⟩ := ih
    have hran := run_cases hst
    have hlt := work_ran hs hran
    refine ⟨sound_run hs hran, ?_⟩
    rw [List.length_append, List.length_singleton]
    omega

/-- The calls under way come to an end: in any order the threads take a bounded
number of statements, and they stop only when each has returned or sleeps in
`remove`, the latter for want of items: no signal is lost. -/
theorem calls_settle [Fintype ι] {s t : State ι α} {es : List (ι × Finset ι)} (h : Reached s)
    (hr : Run Runs s es t) :
    es.length ≤ 4 * Fintype.card ι * (Fintype.card ι + 1) ∧
      ((∃ e u, Runs t e u) ∨
        (∀ i, t.point i = .outside ∨ Asleep t i) ∧ ((∃ i, Asleep t i) → t.queue = [])) := by
  obtain ⟨ht, hw⟩ := work_run (sound_of_reachable h) hr
  have hle := work_le s
  refine ⟨by omega, ?_⟩
  obtain hgo | hgo := Classical.em (∃ e u, Runs t e u)
  · exact .inl hgo
  · refine .inr (settled_of_stuck ht fun i woken => ?_)
    cases hu : run t i woken with
    | none => rfl
    | some u => exact absurd ⟨(i, woken), u, hu⟩ hgo

theorem calls_settle_handOver :
    ∃ s t : State (Fin 2) Nat, replay step empty handOverCalls = some s ∧
      replay (fun s e => run s e.1 e.2) s handOverRun = some t ∧ handOverRun.length ≤ 4 * 2 * (2 + 1) ∧
      ((∃ e u, Runs t e u) ∨
        (∀ i, t.point i = .outside ∨ Asleep t i) ∧ ((∃ i, Asleep t i) → t.queue = [])) :=
  ⟨_, _, rfl, rfl, calls_settle ⟨empty, handOverCalls, rfl, run_of_replay rfl⟩ (run_of_replay rfl)⟩

end

end Tincan.WorkQueue
