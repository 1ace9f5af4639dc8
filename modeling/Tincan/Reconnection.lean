import Tincan.Process

namespace Tincan.Reconnection

open Tincan.Library Tincan.Library.Text Tincan.Library.Runs Tincan.Xmpp
open Tincan.XmppNetwork Tincan.ControllerAccess Tincan.Process

/-- The order in which an engine reports its states. -/
def order : List EngineState := [.stateStart, .stateOpening, .stateOpen, .stateClosed]

/-- A process, and what the engine of the current pump has reported so far. -/
structure Node where
  state : Process.State
  reports : List EngineState

def Node.network (s : Node) : Network := s.state.controller.network

def noted (reports : List EngineState) : Event → List EngineState
  | .stateChange _ state => reports ++ [state]
  | _ => reports

def Step (libs : Libs) (s : Node) (e : Event) (t : Node) : Prop :=
  step libs s.state e = some t.state ∧
    t.reports = if t.network.pumps = s.network.pumps then noted s.reports e else []

def InOrder (s : Node) (e : Event) : Prop := (noted s.reports e).Sublist order

structure Empty (n : Network) : Prop where
  presenceOut : n.presenceOut = none
  tincanTask : n.tincanTask = none
  pingTask : n.pingTask = none

structure Current (n : Network) (pump : XmppPump) : Prop where
  presenceOut : n.presenceOut = some pump.number
  tincanTask : n.tincanTask.map TinCanTask.pump = some pump.number
  pingTask : n.pingTask = some pump.number

/-- What the three tasks and the state have to do with the reports. -/
structure Tracked (reports : List EngineState) (n : Network) : Prop where
  ordered : reports.Sublist order
  none : n.pump = none → reports = []
  state : ∀ pump, n.pump = some pump → n.xmppState = reports.getLastD .stateNone
  empty : .stateOpen ∉ reports → Empty n
  current : ∀ pump, n.pump = some pump → n.xmppState = .stateOpen → Current n pump

theorem not_mem_of_reports {reports : List EngineState} {state : EngineState}
    (h : (reports ++ [state]).Sublist order) : state ∉ reports := by
  intro hm
  have hnodup : (reports ++ [state]).Nodup := h.nodup (by decide)
  exact (List.nodup_append.mp hnodup).2.2 state hm state (by simp) rfl

theorem reports_nil {reports : List EngineState} (h : reports.Sublist order)
    (hlast : reports.getLastD .stateNone = .stateNone) : reports = [] := by
  cases reports using List.reverseRecOn with
  | nil => rfl
  | append_singleton reports state =>
    rw [List.getLastD_concat] at hlast
    have hm : state ∈ order := h.subset (by simp)
    rw [hlast] at hm
    exact absurd hm (by decide)

section

variable {reports : List EngineState} {n : Network}

theorem tracked_connect {n : Network} (h : Empty n) : Tracked [] n.connect := by
  refine ⟨List.nil_sublist _, fun _ => rfl, fun _ _ => rfl, fun _ => ⟨h.presenceOut, h.tincanTask,
    h.pingTask⟩, ?_⟩
  intro _ _ hopen
  cases hopen

theorem Tracked.congr {n' : Network} (h : Tracked reports n)
    (hpump : n'.pump.map XmppPump.number = n.pump.map XmppPump.number)
    (hstate : n'.xmppState = n.xmppState) (hpresence : n'.presenceOut = n.presenceOut)
    (htask : n'.tincanTask.map TinCanTask.pump = n.tincanTask.map TinCanTask.pump)
    (hping : n'.pingTask = n.pingTask) : Tracked reports n' := by
  have hsome : ∀ pump, n'.pump = some pump → ∃ old, n.pump = some old ∧ old.number = pump.number := by
    intro pump hp
    rw [hp, Option.map_some, eq_comm, Option.map_eq_some_iff] at hpump
    exact hpump
  refine ⟨h.ordered, ?_, ?_, ?_, ?_⟩
  · intro hnone
    rw [hnone, Option.map_none, eq_comm, Option.map_eq_none_iff] at hpump
    exact h.none hpump
  · intro pump hp
    obtain ⟨old, hold, _⟩ := hsome pump hp
    rw [hstate, h.state old hold]
  · intro hopen
    have he := h.empty hopen
    refine ⟨hpresence.trans he.presenceOut, ?_, hping.trans he.pingTask⟩
    rw [he.tincanTask, Option.map_none, Option.map_eq_none_iff] at htask
    exact htask
  · intro pump hp hopen
    obtain ⟨old, hold, hnumber⟩ := hsome pump hp
    have hc := h.current old hold (hstate ▸ hopen)
    exact ⟨hnumber ▸ hpresence.trans hc.presenceOut, hnumber ▸ htask.trans hc.tincanTask,
      hnumber ▸ hping.trans hc.pingTask⟩

theorem tracked_stateChange (X : Xmpp.Api) {pump : XmppPump} {state : EngineState}
    (h : Tracked reports n) (jid : Jid)
    (ho : (reports ++ [state]).Sublist order) :
    Tracked (reports ++ [state])
      ({ n with pump := some { pump with jid := jid } }.onStateChange X state).1 := by
  have hempty : .stateOpen ∉ reports ++ [state] → Empty n := fun hm => h.empty (by
    intro hr
    exact hm (by simp [hr]))
  cases state with
  | stateOpen =>
    refine ⟨ho, fun hnone => (nomatch hnone), ?_, fun hm => absurd (by simp) hm, ?_⟩
    · intro _ _
      rw [List.getLastD_concat]
      rfl
    · rintro pump' hp' _
      cases hp'
      exact ⟨rfl, rfl, rfl⟩
  | stateNone | stateStart | stateOpening | stateClosed =>
    refine ⟨ho, fun hnone => (nomatch hnone), ?_, ?_, ?_⟩
    · intro _ _
      rw [List.getLastD_concat]
      rfl
    · intro hm
      exact ⟨(hempty hm).presenceOut, (hempty hm).tincanTask, (hempty hm).pingTask⟩
    · rintro _ _ hopen
      cases hopen

def Carried (reports : List EngineState) (n n' : Network) : Prop :=
  (n'.pumps = n.pumps ∧ Tracked reports n') ∨ (n'.pumps ≠ n.pumps ∧ Tracked [] n')

theorem carried_connect {n' : Network} (hn : n'.pumps = n.pumps) (h : Empty n') :
    Carried reports n n'.connect := by
  refine .inr ⟨?_, tracked_connect h⟩
  rw [← hn]
  exact Nat.succ_ne_self _

theorem Carried.posted {n' : Network} (h : Carried reports n n') : Carried reports n n'.posted := by
  obtain ⟨hn, ht⟩ | ⟨hn, ht⟩ := h
  · exact .inl ⟨hn, ht.congr rfl rfl rfl rfl rfl⟩
  · exact .inr ⟨hn, ht.congr rfl rfl rfl rfl rfl⟩

/-- The timer makes a new pump only before the first report of the old one,
when nothing is there to release, or after its last, when it releases all. -/
theorem carried_timer (h : Tracked reports n) (anyChildError : Bool) :
    Carried reports n (n.onMessage anyChildError).1 := by
  obtain ⟨n', sent, ht, heq⟩ := onMessage_tick n anyChildError
  rw [heq]
  refine Carried.posted ?_
  cases ht with
  | idle => exact .inl ⟨rfl, h.congr rfl rfl rfl rfl rfl⟩
  | disconnect =>
    refine .inl ⟨rfl, h.congr ?_ rfl rfl rfl rfl⟩
    simp [Network.doDisconnect, Function.comp_def]
  | retry hr hs =>
    obtain ⟨pump, hp⟩ := Option.isSome_iff_exists.mp (Bool.and_eq_true_iff.mp hr).1
    have hnil : reports = [] := reports_nil h.ordered ((h.state pump hp).symm.trans hs)
    have he : Empty n := h.empty (by simp [hnil])
    exact carried_connect rfl ⟨he.presenceOut, he.tincanTask, he.pingTask⟩
  | reopen => exact carried_connect rfl ⟨rfl, rfl, rfl⟩
  | presence hr hp hpump =>
    have hopen : n.xmppState = .stateOpen := by
      simp only [Network.presenceDue, Bool.and_eq_true, beq_iff_eq] at hp
      exact hp.1.1.2
    have hc := h.current _ hpump hopen
    exact .inl ⟨rfl, h.congr rfl rfl hc.presenceOut.symm rfl rfl⟩

theorem carried_login (L : Libjingle.Api) (X : Xmpp.Api) (h : Tracked reports n)
    (user pass pcid host : Bytes) (port : Int) :
    Carried reports n (n.login L X user pass pcid host port).1 := by
  unfold Network.login
  split
  · exact .inl ⟨rfl, h⟩
  · next hr =>
    have hnone : n.pump = none := by
      simp only [Network.refuses, Bool.or_eq_true, not_or] at hr
      simpa using hr.1.1.1.1
    have he : Empty n := h.empty (by simp [h.none hnone])
    exact carried_connect rfl ⟨he.presenceOut, he.tincanTask, he.pingTask⟩

theorem carried_step {libs : Libs} {n' : Network} {e : Event} {taken : List Stanza}
    (h : Tracked reports n) (hst : NetworkStep libs n e n' taken)
    (he : ∀ jid state, e ≠ .stateChange jid state) : Carried reports n n' := by
  cases hst with
  | same => exact .inl ⟨rfl, h⟩
  | login env d user pass pcid host port => exact carried_login _ _ h user pass pcid host port
  | stateChange jid state => exact absurd rfl (he jid state)
  | timer anyChildError => exact carried_timer h anyChildError
  | stanza stanza =>
    unfold Network.handleStanza
    split
    · refine .inl ⟨rfl, h.congr rfl rfl rfl ?_ rfl⟩
      simp [Function.comp_def]
    · exact .inl ⟨rfl, h⟩
  | processStart hp =>
    obtain ⟨rfl, _⟩ | ⟨number, stanza, stanzas, _, ht, rfl⟩ := processStart_cases hp
    · exact .inl ⟨rfl, h⟩
    · refine .inl ⟨rfl, h.congr rfl rfl rfl ?_ rfl⟩
      rw [ht]
      rfl

end

theorem stateChange_step {libs : Libs} {s t : Process.State} {jid : Jid} {state : EngineState}
    (h : step libs s (.stateChange jid state) = some t) :
    ∃ pump, s.controller.network.pump = some pump ∧ t.controller.network =
      ({ s.controller.network with pump := some { pump with jid := jid } }.onStateChange
        libs.xmpp state).1 := by
  simp only [step, Option.ite_none_left_eq_some, Option.map_eq_some_iff] at h
  obtain ⟨_, pump, hp, rfl⟩ := h
  exact ⟨pump, hp, rfl⟩

theorem pumps_onStateChange (X : Xmpp.Api) (n : Network) (state : EngineState) :
    (n.onStateChange X state).1.pumps = n.pumps := by
  unfold Network.onStateChange Network.onSignOn
  cases state with
  | stateOpen =>
    dsimp only
    split <;> rfl
  | _ => rfl

theorem tracked_step {libs : Libs} {s t : Node} {e : Event} (h : Tracked s.reports s.network)
    (hst : Guarded InOrder (Step libs) s e t) : Tracked t.reports t.network := by
  obtain ⟨ho, hst, hr⟩ := hst
  rw [hr]
  cases e with
  | stateChange jid state =>
    obtain ⟨pump, hp, hn⟩ := stateChange_step hst
    change t.network = _ at hn
    have hpumps : t.network.pumps = s.network.pumps := by
      rw [hn, pumps_onStateChange]
      rfl
    rw [if_pos hpumps, hn]
    exact tracked_stateChange libs.xmpp h jid ho
  | _ =>
    obtain ⟨taken, _, hnet⟩ := networkStep_of_step hst
    obtain ⟨hn, ht⟩ | ⟨hn, ht⟩ := carried_step h hnet (by simp)
    · exact (if_pos hn).symm ▸ ht
    · exact (if_neg hn).symm ▸ ht

def Initial (s : Node) : Prop := Process.Initial s.state ∧ s.reports = []

theorem tracked_of_reachable {libs : Libs} {s : Node}
    (h : Reachable (Guarded InOrder (Step libs)) Initial s) : Tracked s.reports s.network := by
  refine reachable_invariant (P := fun s => Tracked s.reports s.network) ?_ ?_ h
  · rintro ⟨state, reports⟩ ⟨⟨tiebreaker, kTapName, ip4, mac, logging, xmppState, onMsgCounter, rfl⟩, rfl⟩
    refine ⟨List.nil_sublist _, fun _ => rfl, ?_, fun _ => ⟨rfl, rfl, rfl⟩, ?_⟩
    · intro _ hp
      cases hp
    · intro _ hp
      cases hp
  · intro s e t hs hst
    exact tracked_step hs hst

theorem unset_step {libs : Libs} {n n' : Network} {e : Event} {taken : List Stanza}
    (h : n.pump = none → n.xmppState ≠ .stateOpen) (hst : NetworkStep libs n e n' taken)
    (hnone : n'.pump = none) : n'.xmppState ≠ .stateOpen := by
  cases hst with
  | same => exact h hnone
  | login env d user pass pcid host port =>
    unfold Network.login at hnone ⊢
    split at hnone
    · next hr =>
      rw [if_pos hr]
      exact h hnone
    · cases hnone
  | stateChange jid state => cases state <;> cases hnone
  | timer anyChildError =>
    have hk := onMessage_kept n anyChildError
    intro hopen
    cases hp : n.pump with
    | none => exact h hp (hk.client hopen).1
    | some pump =>
      have hsome := hk.pump (by rw [hp]; rfl)
      rw [hnone] at hsome
      cases hsome
  | stanza stanza =>
    unfold Network.handleStanza at hnone ⊢
    split at hnone
    · next hq =>
      rw [if_pos hq]
      exact h hnone
    · next hq =>
      rw [if_neg hq]
      exact h hnone
  | processStart hp =>
    obtain ⟨rfl, _⟩ | ⟨_, _, _, _, _, rfl⟩ := processStart_cases hp <;> exact h hnone

def NoneReplaced (libs : Libs) (s : Node) : Prop :=
  ∀ jid t, Guarded InOrder (Step libs) s (.stateChange jid .stateOpen) t → Empty s.network

def TasksCurrent (s : Node) : Prop :=
  s.network.xmppState = .stateOpen → ∃ pump, s.network.pump = some pump ∧ Current s.network pump

theorem noneReplaced_of_tracked {libs : Libs} {s : Node} (h : Tracked s.reports s.network) :
    NoneReplaced libs s := by
  rintro jid t ⟨ho, _⟩
  exact h.empty (not_mem_of_reports ho)

/-- No task outlives its pump: none is replaced, and `SendToPeer` uses those of
the current pump. The state says so itself unless it happens to look open
before the first login. -/
theorem no_stale_task (libs : Libs) :
    (∀ s₀, Initial s₀ →
      ((∀ es s, Run (Guarded InOrder (Step libs)) s₀ es s → NoneReplaced libs s ∧ TasksCurrent s) ↔
        s₀.network.xmppState ≠ .stateOpen)) ∧
    ∀ s, Reachable (Guarded InOrder (Step libs)) Initial s → NoneReplaced libs s ∧
      ∀ task, s.network.xmppState = .stateOpen → s.network.tincanTask = some task →
        ∃ pump, s.network.pump = some pump ∧ task.pump = pump.number := by
  have htracked : ∀ s, Reachable (Guarded InOrder (Step libs)) Initial s →
      Tracked s.reports s.network := fun s hs => tracked_of_reachable hs
  constructor
  · intro s₀ h₀
    constructor
    · intro h hopen
      obtain ⟨pump, hp, _⟩ := (h [] s₀ (Run.nil s₀)).2 hopen
      obtain ⟨state, reports⟩ := s₀
      obtain ⟨⟨tiebreaker, kTapName, ip4, mac, logging, xmppState, onMsgCounter, rfl⟩, rfl⟩ := h₀
      cases hp
    · intro hne es s hrun
      have ht := htracked s ⟨s₀, es, h₀, hrun⟩
      refine ⟨noneReplaced_of_tracked ht, ?_⟩
      intro hopen
      have hset : s.network.pump = none → s.network.xmppState ≠ .stateOpen := by
        refine run_invariant (P := fun s : Node =>
          s.network.pump = none → s.network.xmppState ≠ .stateOpen) ?_ hrun (fun _ => hne)
        rintro u e v hu ⟨_, hst, _⟩
        obtain ⟨taken, _, hnet⟩ := networkStep_of_step hst
        exact unset_step hu hnet
      cases hp : s.network.pump with
      | none => exact absurd hopen (hset hp)
      | some pump => exact ⟨pump, rfl, ht.current pump hp hopen⟩
  · intro s hs
    have ht := htracked s hs
    refine ⟨noneReplaced_of_tracked ht, ?_⟩
    intro task hopen htask
    cases hp : s.network.pump with
    | none =>
      have he : Empty s.network := ht.empty (by simp [ht.none hp])
      rw [he.tincanTask] at htask
      cases htask
    | some pump =>
      have hc := (ht.current pump hp hopen).tincanTask
      rw [htask] at hc
      exact ⟨pump, rfl, Option.some.inj hc⟩

def openedState : Process.State :=
  Process.State.new 0 (bytes "ipop") ConnectionManager.kIpv4 [0, 1, 2, 3, 4, 5] .warning .stateOpen 0

theorem unset_state_looks_open : Initial ⟨openedState, []⟩ ∧
    (Node.mk openedState []).network.xmppState = .stateOpen ∧ ¬ TasksCurrent ⟨openedState, []⟩ := by
  refine ⟨⟨⟨_, _, _, _, _, _, _, rfl⟩, rfl⟩, rfl, ?_⟩
  intro h
  obtain ⟨pump, hp, _⟩ := h rfl
  cases hp

end Tincan.Reconnection
