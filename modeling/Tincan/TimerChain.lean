import Tincan.Signalling

namespace Tincan.TimerChain

open Tincan.Library Tincan.Library.Text Tincan.Library.Runs Tincan.Xmpp
open Tincan.XmppNetwork Tincan.ControllerAccess Tincan.Process Tincan.Signalling
open Tincan.Routes (uidA uidB)

/-- One call of the timer handler: when it ran, whether the connection was
open then, and whether presence was sent again. -/
structure Firing where
  time : Int
  isOpen : Bool
  resent : Bool

/-- A process with a clock. `due` are the times of the pending messages, `fired`
are the calls of the handler so far, and `reconnected` says whether one of them
has made a new connection. -/
structure Timed where
  state : Process.State
  now : Int
  due : List Int
  fired : List Firing
  reconnected : Bool

def Timed.network (s : Timed) : Network := s.state.controller.network

def Timed.start (s : Process.State) (now : Int) : Timed := ⟨s, now, [now + kInterval], [], false⟩

inductive TimedEvent
  | elapse (duration : Int)
  | fire (anyChildError : Bool)
  | other (e : Event)

/-- The messages that are still pending: a new connection clears the handler's
messages and posts one of its own. -/
def Timed.pending (s : Timed) (t : Process.State) (due : List Int) : List Int :=
  if t.controller.network.pumps = s.network.pumps then due else [s.now + kInterval]

def Timed.firing (s : Timed) (anyChildError : Bool) : Firing where
  time := s.now
  isOpen := s.network.xmppState == .stateOpen && !anyChildError
  resent := !(s.network.onMessage anyChildError).2.isEmpty

/-- The handler takes the message that is due and posts the next one when it ends. -/
def Timed.fire (s : Timed) (t : Process.State) (anyChildError : Bool) : Timed where
  state := t
  now := s.now
  due := s.pending t (s.due.erase s.now) ++ [s.now + kInterval]
  fired := s.fired ++ [s.firing anyChildError]
  reconnected := s.reconnected || s.network.reconnects anyChildError

/-- Time does not pass a message that is due. -/
inductive Step (libs : Libs) : Timed → TimedEvent → Timed → Prop
  | elapse {s : Timed} {duration : Int} (hpos : 0 ≤ duration)
      (hdue : ∀ x ∈ s.due, s.now + duration ≤ x) :
      Step libs s (.elapse duration) { s with now := s.now + duration }
  | fire {s : Timed} {t : Process.State} {anyChildError : Bool} (hdue : s.now ∈ s.due)
      (h : step libs s.state (.timer anyChildError) = some t) :
      Step libs s (.fire anyChildError) (s.fire t anyChildError)
  | other {s : Timed} {t : Process.State} {e : Event} (he : ∀ anyChildError, e ≠ .timer anyChildError)
      (h : step libs s.state e = some t) :
      Step libs s (.other e) { s with state := t, due := s.pending t s.due }

def presenceTicks : Nat := (kPresenceInterval * 1000 / kInterval).toNat

/-- The handler runs once every `kInterval`, and sends presence every
`presenceTicks` runs if the connection is open. -/
structure OnSchedule (start : Int) (fired : List Firing) : Prop where
  time : ∀ (k : Nat) f, fired[k]? = some f → f.time = start + (k + 1) * kInterval
  resent : ∀ (k : Nat) f, fired[k]? = some f → (f.resent = true ↔ f.isOpen = true ∧ presenceTicks ∣ k)

/-- While the connection stays open, presence is sent once in `kPresenceInterval` seconds. -/
def PresenceRegular (fired : List Firing) : Prop :=
  ∀ k : Nat, (∀ j < presenceTicks, ∃ f, fired[k + j]? = some f ∧ f.isOpen = true) →
    ∃! j, j < presenceTicks ∧ ∃ f, fired[k + j]? = some f ∧ f.resent = true

/-- One message is pending, the one that comes next on the schedule, and the
clock has not passed it. -/
structure OneChain (start : Int) (s : Timed) : Prop where
  pending : s.network.timers = 1
  due : s.due = [start + (s.fired.length + 1) * kInterval]
  since : start + s.fired.length * kInterval ≤ s.now
  notPassed : s.now ≤ start + (s.fired.length + 1) * kInterval
  schedule : OnSchedule start s.fired
  presence : PresenceRegular s.fired

section

variable {n n' : Network} {anyChildError : Bool}

theorem onMessage_reconnects (h : n.reconnects anyChildError = true) :
    (n.onMessage anyChildError).1.timers = 2 ∧ (n.onMessage anyChildError).1.pumps = n.pumps + 1 := by
  obtain ⟨n', sent, ht, heq⟩ := onMessage_tick n anyChildError
  rw [heq]
  cases ht with
  | idle hr | disconnect hr | presence hr => exact absurd h (ne_of_eq_of_ne hr Bool.false_ne_true)
  | retry | reopen => exact ⟨rfl, rfl⟩

theorem onMessage_goesOn (h : n.reconnects anyChildError = false) :
    (n.onMessage anyChildError).1.timers = n.timers - 1 + 1 ∧
      (n.onMessage anyChildError).1.pumps = n.pumps ∧
      (n.onMessage anyChildError).1.onMsgCounter = n.onMsgCounter + kInterval.tdiv 1000 ∧
      (!(n.onMessage anyChildError).2.isEmpty) = n.presenceDue anyChildError := by
  obtain ⟨n', sent, ht, heq⟩ := onMessage_tick n anyChildError
  rw [heq]
  cases ht with
  | idle hr hp | disconnect hr hp | presence hr hp => exact ⟨rfl, rfl, rfl, hp.symm⟩
  | retry hr | reopen hr => exact absurd (hr.symm.trans h) Bool.true_eq_false_eq_False

/-- Nothing but the timer touches the timer while there is a pump. -/
structure Untouched (n n' : Network) : Prop where
  pump : n'.pump.isSome
  pumps : n'.pumps = n.pumps
  timers : n'.timers = n.timers
  onMsgCounter : n'.onMsgCounter = n.onMsgCounter

theorem untouched_step {libs : Libs} {e : Event} {taken : List Stanza} (hpump : n.pump.isSome)
    (hst : NetworkStep libs n e n' taken) (he : ∀ anyChildError, e ≠ .timer anyChildError) :
    Untouched n n' := by
  cases hst with
  | same => exact ⟨hpump, rfl, rfl, rfl⟩
  | login env d user pass pcid host port =>
    rw [login_of_pump hpump]
    exact ⟨hpump, rfl, rfl, rfl⟩
  | stateChange jid state => cases state <;> exact ⟨rfl, rfl, rfl, rfl⟩
  | timer anyChildError => exact absurd rfl (he anyChildError)
  | stanza stanza =>
    unfold Network.handleStanza
    split <;> exact ⟨hpump, rfl, rfl, rfl⟩
  | processStart hp =>
    obtain ⟨rfl, _⟩ | ⟨_, _, _, _, _, rfl⟩ := processStart_cases hp <;> exact ⟨hpump, rfl, rfl, rfl⟩

theorem timer_step {libs : Libs} {s t : Process.State}
    (h : step libs s (.timer anyChildError) = some t) :
    s.controller.network.timers ≠ 0 ∧
      t.controller.network = (s.controller.network.onMessage anyChildError).1 := by
  unfold step at h
  split at h
  · cases h
  · dsimp only at h
    split at h
    · cases h
    · next htimers =>
      cases h
      exact ⟨htimers, rfl⟩

theorem loggedIn_cases {libs : Libs} {pcid : Bytes} (h : LoggedIn libs pcid n) :
    n.pump.isSome ∧ n.timers = 1 ∧ n.onMsgCounter = 0 := by
  obtain ⟨before, user, pass, host, port, hl⟩ := h
  unfold Network.login at hl
  split at hl
  · cases hl
  · cases hl
    exact ⟨rfl, rfl, rfl⟩

end

theorem presenceRegular_of_onSchedule {start : Int} {fired : List Firing}
    (h : OnSchedule start fired) : PresenceRegular fired := by
  intro k hopen
  have hticks : presenceTicks = 8 := rfl
  rw [hticks] at hopen ⊢
  have hresent : ∀ j < 8, (∃ f, fired[k + j]? = some f ∧ f.resent = true) ↔ 8 ∣ k + j := by
    intro j hj
    obtain ⟨f, hf, hfo⟩ := hopen j hj
    have hr := h.resent (k + j) f hf
    rw [hticks] at hr
    simp only [hf, Option.some.injEq, exists_eq_left', hr, hfo, true_and]
  refine ⟨(8 - k % 8) % 8, ⟨by omega, (hresent _ (by omega)).mpr (by omega)⟩, ?_⟩
  rintro j ⟨hj, hr⟩
  have hdvd := (hresent j hj).mp hr
  omega

/-- What holds along every run: the pending messages are counted right, and
without a new connection all is on schedule. -/
structure Chain (start : Int) (s : Timed) : Prop where
  pump : s.network.pump.isSome
  length : s.due.length = s.network.timers
  timers : s.network.timers = if s.reconnected then 2 else 1
  counter : s.reconnected = false → s.network.onMsgCounter = s.fired.length * 15
  chain : s.reconnected = false → OneChain start s

section

variable {libs : Libs} {s t : Timed} {start : Int}

theorem chain_start {pcid : Bytes} {s : Process.State} (h : LoggedIn libs pcid s.controller.network)
    (now : Int) : Chain now (Timed.start s now) := by
  obtain ⟨hpump, htimers, hcounter⟩ := loggedIn_cases h
  have hschedule : OnSchedule now [] := ⟨by simp, by simp⟩
  refine ⟨hpump, htimers.symm, htimers, fun _ => hcounter, fun _ => ?_⟩
  refine ⟨htimers, ?_, ?_, ?_, hschedule, presenceRegular_of_onSchedule hschedule⟩
  · simp [Timed.start]
  · simp [Timed.start]
  · simp [Timed.start, kInterval]

theorem onSchedule_append {fired : List Firing} {f : Firing} (h : OnSchedule start fired)
    (htime : f.time = start + (fired.length + 1) * kInterval)
    (hresent : f.resent = true ↔ f.isOpen = true ∧ presenceTicks ∣ fired.length) :
    OnSchedule start (fired ++ [f]) := by
  have hcases : ∀ k g, (fired ++ [f])[k]? = some g → fired[k]? = some g ∨ k = fired.length ∧ g = f := by
    intro k g hg
    rw [List.getElem?_append] at hg
    split at hg
    · exact .inl hg
    · rw [List.getElem?_singleton] at hg
      split at hg
      · exact .inr ⟨by omega, (Option.some.inj hg).symm⟩
      · cases hg
  constructor
  · intro k g hg
    obtain hg | ⟨rfl, rfl⟩ := hcases k g hg
    · exact h.time k g hg
    · exact htime
  · intro k g hg
    obtain hg | ⟨rfl, rfl⟩ := hcases k g hg
    · exact h.resent k g hg
    · exact hresent

theorem presenceDue_iff {n : Network} {anyChildError : Bool} {k : Nat} (hpump : n.pump.isSome)
    (hcounter : n.onMsgCounter = k * 15) :
    n.presenceDue anyChildError = true ↔
      (n.xmppState == .stateOpen && !anyChildError) = true ∧ presenceTicks ∣ k := by
  have hticks : presenceTicks = 8 := rfl
  have hmod : n.onMsgCounter.tmod kPresenceInterval = 0 ↔ 8 ∣ k := by
    rw [hcounter, kPresenceInterval, ← Int.dvd_iff_tmod_eq_zero]
    omega
  rw [hticks, ← hmod]
  simp [Network.presenceDue, hpump]

theorem network_fire {p : Process.State} {anyChildError : Bool}
    (hp : step libs s.state (.timer anyChildError) = some p) :
    (s.fire p anyChildError).network = (s.network.onMessage anyChildError).1 := (timer_step hp).2

theorem oneChain_fire {p : Process.State} {anyChildError : Bool} (h : OneChain start s)
    (hnow : s.now = start + (s.fired.length + 1) * kInterval)
    (hpending : (s.fire p anyChildError).network.timers = 1)
    (hdue : (s.fire p anyChildError).due = s.due.erase s.now ++ [s.now + kInterval])
    (hresent : (s.firing anyChildError).resent = true ↔
      (s.firing anyChildError).isOpen = true ∧ presenceTicks ∣ s.fired.length) :
    OneChain start (s.fire p anyChildError) := by
  have hschedule : OnSchedule start (s.fire p anyChildError).fired :=
    onSchedule_append h.schedule hnow hresent
  have hlength : (s.fire p anyChildError).fired.length = s.fired.length + 1 := by simp [Timed.fire]
  have hnext : s.now + kInterval = start + ((s.fire p anyChildError).fired.length + 1) * kInterval := by
    rw [hlength, hnow]
    simp only [kInterval]
    push_cast
    omega
  refine ⟨hpending, ?_, ?_, ?_, hschedule, presenceRegular_of_onSchedule hschedule⟩
  · rw [hdue, h.due, ← hnow, List.erase_cons_head, List.nil_append, hnext]
  · rw [hlength, Nat.cast_succ]
    exact hnow.ge
  · rw [← hnext]
    exact le_add_of_nonneg_right (by decide)

theorem chain_reconnects {p : Process.State} {anyChildError : Bool} (h : Chain start s)
    (hp : step libs s.state (.timer anyChildError) = some p)
    (hr : s.network.reconnects anyChildError = true) : Chain start (s.fire p anyChildError) := by
  obtain ⟨htimers, hpumps⟩ := onMessage_reconnects hr
  have hnet := network_fire hp
  have hre : (s.fire p anyChildError).reconnected = true := by simp [Timed.fire, hr]
  have hnew : p.controller.network.pumps ≠ s.network.pumps := by
    change (s.fire p anyChildError).network.pumps ≠ s.network.pumps
    rw [hnet, hpumps]
    exact Nat.succ_ne_self _
  refine ⟨?_, ?_, ?_, fun hf => ?_, fun hf => ?_⟩
  · rw [hnet]
    exact (onMessage_kept s.network anyChildError).pump h.pump
  · rw [hnet, htimers, Timed.fire, Timed.pending, if_neg hnew]
    rfl
  · rw [hnet, htimers, hre, if_pos rfl]
  · exact absurd (hre.symm.trans hf) Bool.true_eq_false_eq_False
  · exact absurd (hre.symm.trans hf) Bool.true_eq_false_eq_False

theorem chain_goesOn {p : Process.State} {anyChildError : Bool} (h : Chain start s)
    (hdue : s.now ∈ s.due) (hp : step libs s.state (.timer anyChildError) = some p)
    (hr : s.network.reconnects anyChildError = false) : Chain start (s.fire p anyChildError) := by
  obtain ⟨htimers, hpumps, hcounter, hsent⟩ := onMessage_goesOn hr
  have hnet := network_fire hp
  have hre : (s.fire p anyChildError).reconnected = s.reconnected := by simp [Timed.fire, hr]
  have hpos : 0 < s.network.timers := by
    rw [h.timers]
    split <;> decide
  have htick : (s.fire p anyChildError).network.timers = s.network.timers := by
    rw [hnet, htimers]
    omega
  have hsame : (s.fire p anyChildError).due = s.due.erase s.now ++ [s.now + kInterval] := by
    rw [Timed.fire, Timed.pending, if_pos]
    change (s.fire p anyChildError).network.pumps = s.network.pumps
    rw [hnet, hpumps]
  refine ⟨?_, ?_, ?_, fun hf => ?_, fun hf => ?_⟩
  · rw [hnet]
    exact (onMessage_kept s.network anyChildError).pump h.pump
  · rw [hsame, htick, List.length_append, List.length_erase_of_mem hdue, h.length, List.length_singleton]
    omega
  · rw [htick, hre, h.timers]
  · have hseconds : kInterval.tdiv 1000 = 15 := rfl
    have hlength : (s.fire p anyChildError).fired.length = s.fired.length + 1 := by simp [Timed.fire]
    rw [hnet, hcounter, h.counter (hre ▸ hf), hlength, hseconds]
    push_cast
    omega
  · have hc := h.chain (hre ▸ hf)
    rw [hc.due] at hdue
    have hiff : s.network.presenceDue anyChildError = true ↔ _ :=
      presenceDue_iff h.pump (h.counter (hre ▸ hf))
    rw [← hsent] at hiff
    exact oneChain_fire hc (List.mem_singleton.mp hdue) (htick.trans hc.pending) hsame hiff

theorem chain_step {e : TimedEvent} (h : Chain start s) (hst : Step libs s e t) : Chain start t := by
  cases hst with
  | elapse hpos hdue =>
    refine ⟨h.pump, h.length, h.timers, h.counter, fun hr => ?_⟩
    have hc := h.chain hr
    refine ⟨hc.pending, hc.due, ?_, ?_, hc.schedule, hc.presence⟩
    · exact hc.since.trans (le_add_of_nonneg_right hpos)
    · exact hdue _ (by rw [hc.due]; exact List.mem_singleton_self _)
  | @fire _ anyChildError hdue hp =>
    cases hr : s.network.reconnects anyChildError with
    | true => exact chain_reconnects h hp hr
    | false => exact chain_goesOn h hdue hp hr
  | @other t e he hp =>
    obtain ⟨taken, _, hnet⟩ := networkStep_of_step hp
    have hu : Untouched s.network t.controller.network := untouched_step h.pump hnet he
    have hsame : s.pending t s.due = s.due := by rw [Timed.pending, if_pos hu.pumps]
    rw [hsame]
    refine ⟨hu.pump, h.length.trans hu.timers.symm, hu.timers.trans h.timers, fun hr => ?_, fun hr => ?_⟩
    · exact hu.onMsgCounter.trans (h.counter hr)
    · have hc := h.chain hr
      exact ⟨hu.timers.trans hc.pending, hc.due, hc.since, hc.notPassed, hc.schedule, hc.presence⟩

end

/-- Exactly one message is pending as long as the handler itself has made no
new connection, and two are from then on. -/
theorem one_chain_iff (libs : Libs) (pcid : Bytes) (s₀ : Process.State) (now : Int)
    (hlogin : LoggedIn libs pcid s₀.controller.network) (es : List TimedEvent) (s : Timed)
    (hrun : Run (Step libs) (Timed.start s₀ now) es s) :
    (OneChain now s ↔ s.reconnected = false) ∧
      s.network.timers = if s.reconnected then 2 else 1 := by
  have h : Chain now s :=
    run_invariant (P := Chain now) (fun _ _ _ hs hst => chain_step hs hst) hrun (chain_start hlogin now)
  refine ⟨⟨fun hc => ?_, h.chain⟩, h.timers⟩
  have htimers := h.timers
  rw [hc.pending] at htimers
  cases hr : s.reconnected with
  | false => rfl
  | true =>
    rw [hr, if_pos rfl] at htimers
    exact absurd htimers (by decide)

theorem run_between {libs : Libs} {s t : Process.State} {e : Event} (now : Int)
    (h : step libs s e = some t) (he : ∀ anyChildError, e ≠ .timer anyChildError)
    (hpumps : t.controller.network.pumps = s.controller.network.pumps) :
    Run (Step libs) (Timed.start s now) [.other e] (Timed.start t now) := by
  have hst : Step libs (Timed.start s now) (.other e) { Timed.start s now with
      state := t, due := (Timed.start s now).pending t (Timed.start s now).due } := .other he h
  have hdue : (Timed.start s now).pending t (Timed.start s now).due = [now + kInterval] := if_pos hpumps
  rw [hdue] at hst
  exact run_single hst

theorem run_first_firing {libs : Libs} {s t : Process.State} {anyChildError : Bool} (now : Int)
    (h : step libs s (.timer anyChildError) = some t) :
    Run (Step libs) (Timed.start s now) [.elapse kInterval, .fire anyChildError]
      (Timed.fire ⟨s, now + kInterval, [now + kInterval], [], false⟩ t anyChildError) := by
  have helapse : Step libs (Timed.start s now) (.elapse kInterval)
      ⟨s, now + kInterval, [now + kInterval], [], false⟩ := .elapse (by decide) (by simp [Timed.start])
  exact run_cons helapse (run_single (.fire (by simp) h))

theorem online_run : ∃ s₀ s₁ t, replay (step pairLibs) startState (loginEvents uidA jidA) = some s₀ ∧
    LoggedIn pairLibs uidA s₀.controller.network ∧
    step pairLibs s₀ (.stateChange jidA .stateOpen) = some s₁ ∧
    s₁.controller.network.pumps = s₀.controller.network.pumps ∧
    step pairLibs s₁ (.timer false) = some t ∧ s₁.controller.network.reconnects false = false :=
  ⟨_, _, _, rfl, ⟨startState.controller.network, jidA.bare, bytes "p", bytes "x", 5222, rfl⟩,
    rfl, rfl, rfl, rfl⟩

theorem one_chain_iff_online : ∃ s : Timed, s.fired.length = 1 ∧ OneChain 0 s := by
  obtain ⟨s₀, s₁, t, _, hlogin, hopen, hpumps, htimer, hr⟩ := online_run
  have hrun := run_append (run_between 0 hopen (by simp) hpumps) (run_first_firing 0 htimer)
  exact ⟨_, rfl, (one_chain_iff pairLibs uidA s₀ 0 hlogin _ _ hrun).1.mpr hr⟩

theorem closed_run : ∃ s₀ s₁ s₂ t, replay (step pairLibs) startState (loginEvents uidA jidA) = some s₀ ∧
    LoggedIn pairLibs uidA s₀.controller.network ∧
    step pairLibs s₀ (.stateChange jidA .stateOpen) = some s₁ ∧
    s₁.controller.network.pumps = s₀.controller.network.pumps ∧
    step pairLibs s₁ (.stateChange jidA .stateClosed) = some s₂ ∧
    s₂.controller.network.pumps = s₁.controller.network.pumps ∧
    step pairLibs s₂ (.timer false) = some t ∧ t.controller.network.timers = 2 :=
  ⟨_, _, _, _, rfl, ⟨startState.controller.network, jidA.bare, bytes "p", bytes "x", 5222, rfl⟩,
    rfl, rfl, rfl, rfl, rfl, rfl⟩

/-- The connection that the handler makes posts a message, and so does the handler. -/
theorem reconnection_posts_twice : ∃ s₀ es s,
    Reachable (Steps (step pairLibs)) Initial s₀ ∧ LoggedIn pairLibs uidA s₀.controller.network ∧
      Run (Step pairLibs) (Timed.start s₀ 0) es s ∧ s.network.timers = 2 := by
  obtain ⟨s₀, s₁, s₂, t, hs₀, hlogin, hopen, hpumps, hclosed, hpumps', htimer, htwo⟩ := closed_run
  have hrun := run_append (run_between 0 hopen (by simp) hpumps)
    (run_append (run_between 0 hclosed (by simp) hpumps') (run_first_firing 0 htimer))
  exact ⟨s₀, _, _, ⟨startState, _, startState_initial, run_of_replay hs₀⟩, hlogin, hrun, htwo⟩

end Tincan.TimerChain
