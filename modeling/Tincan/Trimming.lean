import Tincan.Library.History
import Tincan.LinkStatus
import Tincan.Requests

namespace Tincan.Trimming

open Tincan.Library Tincan.Library.Text Tincan.Library.Runs Tincan.Library.History Tincan.Libjingle
open Tincan.ConnectionManager Tincan.ControllerAccess Tincan.LinkChanges Tincan.LinkHeap
open Tincan.LinkStatus Tincan.Requests

/-- A port of the channel of a transport. `connects` counts how often
`HandleConnectionSignal` was connected to its signal for new connections. -/
structure Port where
  transport : Ptr
  type : Bytes
  connects : Nat

structure Connection where
  port : Ptr
  pruned : Bool

/-- The process with the ports of its channels, and all connections that were
created so far, in this order. -/
structure State where
  process : Process.State
  ports : PartialMap Ptr Port
  connections : List Connection

def bindPorts (transport : Ptr) (ports : PartialMap Ptr Port) : PartialMap Ptr Port := fun q =>
  (ports q).map fun port =>
    if port.transport = transport then { port with connects := port.connects + 1 } else port

def portsOnRWChangeState (m : Manager) (t : Ptr) (ports : PartialMap Ptr Port) : PartialMap Ptr Port :=
  match m.transports t with
  | none => ports
  | some tr =>
    if tr.readable ∧ tr.writable then
      match m.uidMap (knownAs m t) with
      | some (some p) => bindPorts p.transport ports
      | _ => ports
    else ports

def portsOn (m : Manager) (ports : PartialMap Ptr Port) : Process.Event → PartialMap Ptr Port
  | .rwChangeState _ t => portsOnRWChangeState m t ports
  | _ => ports

def owned (m : Manager) (ports : PartialMap Ptr Port) : PartialMap Ptr Port := fun q =>
  (ports q).filter fun port => (m.transports port.transport).isSome

/-- `relayPortType` is the type that libjingle gives to the ports of a relay. -/
def handleConnectionSignal (relayPortType : Bytes) (m : Manager) (port : Port) (connection : Connection) :
    Connection :=
  if m.trimEnabled ∧ port.type = relayPortType then { connection with pruned := true } else connection

/-- The signal of a port calls the slot once for each time it was connected. -/
def signalConnectionCreated (relayPortType : Bytes) (m : Manager) (port : Port) (connection : Connection) :
    Connection :=
  (handleConnectionSignal relayPortType m port)^[port.connects] connection

inductive Event
  | process (e : Process.Event)
  | portReady (q t : Ptr) (type : Bytes)
  | portDestroyed (q : Ptr)
  | connectionCreated (q : Ptr)

def step (relayPortType : Bytes) (libs : Libs) (s : State) : Event → Option State
  | .process e => (Process.step libs s.process e).map fun process =>
    { s with
      process := process
      ports := owned process.controller.manager (portsOn s.process.controller.manager s.ports e) }
  | .portReady q t type =>
    if s.process.crashed ∨ (s.ports q).isSome ∨ (s.process.controller.manager.transports t).isNone then none
    else some { s with ports := s.ports.insert q ⟨t, type, 0⟩ }
  | .portDestroyed q => if s.process.crashed then none else some { s with ports := s.ports.erase q }
  | .connectionCreated q =>
    if s.process.crashed then none
    else (s.ports q).map fun port => { s with connections := s.connections ++
      [signalConnectionCreated relayPortType s.process.controller.manager port ⟨q, false⟩] }

structure Initial (s : State) : Prop where
  process : Process.Initial s.process
  ports : s.ports = PartialMap.empty
  connections : s.connections = []

def NewObjects (libs : Libs) (s : State) : Event → Prop
  | .process e => LinkChanges.NewObjects libs s.process e
  | _ => True

abbrev Moves (relayPortType : Bytes) (libs : Libs) : State → Event → State → Prop :=
  Guarded (NewObjects libs) (Steps (step relayPortType libs))

def turned (libs : Libs) (trim : Bool) (s : State) (e : Event) (_ : State) : Prop :=
  ∃ e', e = .process e' ∧ trimAsked libs s.process.controller e' = some trim

/-- The signal sender is handed the report that the link of a port is online. -/
def toldOnline (q : Ptr) (s : State) (e : Event) (t : State) : Prop :=
  ∃ env port, s.ports q = some port ∧ e = .process (.rwChangeState env port.transport) ∧
    ∃ uid, ⟨kLocalControllerId, uid, bytes "online", kConStat⟩ ∈ told s.process t.process

def gone (q : Ptr) (_ : State) (_ : Event) (t : State) : Prop := t.ports q = none

def Heard (ports : PartialMap Ptr Port) (q : Ptr) : Prop := ∃ port, ports q = some port ∧ 0 < port.connects

section

variable {relayPortType : Bytes} {m : Manager} {port : Port} {connection : Connection}

theorem pruned_iterate (n : Nat) :
    ((handleConnectionSignal relayPortType m port)^[n] connection).pruned = true ↔
      connection.pruned = true ∨ 0 < n ∧ m.trimEnabled = true ∧ port.type = relayPortType := by
  induction n with
  | zero => simp
  | succ n ih =>
    rw [Function.iterate_succ_apply', handleConnectionSignal]
    split_ifs with htrim
    · simp [htrim]
    · rw [ih]
      simp [htrim]

theorem port_iterate (n : Nat) :
    ((handleConnectionSignal relayPortType m port)^[n] connection).port = connection.port := by
  induction n with
  | zero => rfl
  | succ n ih =>
    rw [Function.iterate_succ_apply', handleConnectionSignal]
    split_ifs
    · exact ih
    · exact ih

end

section

variable {relayPortType : Bytes} {libs : Libs} {s t : State} {e : Event} {q : Ptr}

theorem heard_bindPorts (ports : PartialMap Ptr Port) (x : Ptr) :
    Heard (bindPorts x ports) q ↔ (∃ port, ports q = some port ∧ port.transport = x) ∨ Heard ports q := by
  unfold Heard bindPorts
  constructor
  · rintro ⟨port', hq, hpos⟩
    obtain ⟨port, hport, rfl⟩ := Option.map_eq_some_iff.mp hq
    by_cases hx : port.transport = x
    · exact .inl ⟨port, hport, hx⟩
    · rw [if_neg hx] at hpos
      exact .inr ⟨port, hport, hpos⟩
  · intro h
    obtain ⟨port, hport, hx⟩ : ∃ port, ports q = some port ∧ (port.transport = x ∨ 0 < port.connects) := by
      obtain ⟨port, hport, hx⟩ | ⟨port, hport, hpos⟩ := h
      · exact ⟨port, hport, .inl hx⟩
      · exact ⟨port, hport, .inr hpos⟩
    rw [hport]
    refine ⟨_, rfl, ?_⟩
    dsimp only
    split_ifs with hne
    · exact Nat.succ_pos _
    · exact hx.resolve_left hne

theorem transport_bindPorts (ports : PartialMap Ptr Port) (x : Ptr) :
    (bindPorts x ports q).map Port.transport = (ports q).map Port.transport := by
  rw [bindPorts, Option.map_map]
  congr 1
  funext port
  rw [Function.comp_apply]
  split_ifs <;> rfl

theorem transport_portsOn (m : Manager) (ports : PartialMap Ptr Port) (e : Process.Event) :
    (portsOn m ports e q).map Port.transport = (ports q).map Port.transport := by
  cases e with
  | rwChangeState env x =>
    rw [portsOn, portsOnRWChangeState]
    cases m.transports x with
    | none => rfl
    | some tr =>
      dsimp only
      split_ifs
      · cases m.uidMap (knownAs m x) with
        | none => rfl
        | some p =>
          cases p with
          | none => rfl
          | some p => exact transport_bindPorts ports p.transport
      · rfl
  | _ => rfl

theorem heard_owned (m : Manager) (ports : PartialMap Ptr Port) :
    Heard (owned m ports) q ↔ Heard ports q ∧ owned m ports q ≠ none := by
  unfold Heard owned
  constructor
  · rintro ⟨port, hq, hpos⟩
    exact ⟨⟨port, (Option.filter_eq_some_iff.mp hq).1, hpos⟩, by simp [hq]⟩
  · rintro ⟨⟨port, hq, hpos⟩, hlive⟩
    obtain ⟨port', hport⟩ := Option.ne_none_iff_exists'.mp hlive
    have hsame := (Option.filter_eq_some_iff.mp hport).1
    rw [hq] at hsame
    cases hsame
    exact ⟨port, hport, hpos⟩

theorem onRWChangeState_of_dead {m : Manager} {x : Ptr} (h : m.transports x = none) :
    (onRWChangeState m x).sent = [] := by
  simp only [onRWChangeState, h]

theorem found_of_live {m : Manager} {x : Ptr} {tr : Transport} (h : Tidy m) (htr : m.transports x = some tr) :
    (onRWChangeState m x).fault = false := by
  obtain ⟨u, p, hp, rfl⟩ := h.used x tr htr
  have ht := h.known u p hp
  simp only [onRWChangeState, PartialMap.index_of_mem [] ht, htr, PartialMap.index_of_mem none hp]
  split_ifs <;> rfl

theorem heard_report {m : Manager} (h : Tidy m) (ports : PartialMap Ptr Port) (x : Ptr) :
    Heard (portsOnRWChangeState m x ports) q ↔
      (∃ port, ports q = some port ∧ port.transport = x) ∧
        (∃ uid, ⟨kLocalControllerId, uid, bytes "online", kConStat⟩ ∈ (onRWChangeState m x).sent) ∨
      Heard ports q := by
  cases htr : m.transports x with
  | none =>
    rw [onRWChangeState_of_dead htr, portsOnRWChangeState, htr]
    simp
  | some tr =>
    obtain ⟨u, p, tr', hp, rfl, htr', _, hsent⟩ := onRWChangeState_of_live h (found_of_live h htr)
    rw [htr] at htr'
    cases htr'
    have hknown : m.uidMap (knownAs m p.transport) = some (some p) := by
      rw [knownAs, PartialMap.index_of_mem [] (h.known u p hp)]
      exact hp
    have hstatus := status_online tr.readable tr.writable tr.wasWritable
    have htold : (∃ uid, ⟨kLocalControllerId, uid, bytes "online", kConStat⟩ ∈
        (onRWChangeState m p.transport).sent) ↔ (tr.readable && tr.writable) = true := by
      rw [hsent]
      simp only [List.mem_singleton, PeerMessage.mk.injEq]
      constructor
      · rintro ⟨uid, _, _, hdata, _⟩
        exact hstatus.mp hdata.symm
      · intro hon
        exact ⟨u, trivial, rfl, (hstatus.mpr hon).symm, trivial⟩
    rw [htold]
    simp only [portsOnRWChangeState, htr, hknown]
    split_ifs with hon
    · rw [heard_bindPorts]
      simp [hon]
    · simp [hon]

theorem transports_report (m : Manager) (x : Ptr) : (onRWChangeState m x).manager.transports = m.transports := by
  obtain hm | ⟨hm, _⟩ := onRWChangeState_cases m x <;> rw [hm]

theorem step_process {e : Process.Event} (h : step relayPortType libs s (.process e) = some t) :
    Process.step libs s.process e = some t.process ∧
      t.ports = owned t.process.controller.manager (portsOn s.process.controller.manager s.ports e) ∧
      t.connections = s.connections := by
  obtain ⟨process, hp, rfl⟩ := Option.map_eq_some_iff.mp h
  exact ⟨hp, rfl, rfl⟩

theorem heard_rwChangeState {env : Env} {x : Ptr} (h : Tidy s.process.controller.manager)
    (hst : step relayPortType libs s (.process (.rwChangeState env x)) = some t) :
    Heard t.ports q ↔ toldOnline q s (.process (.rwChangeState env x)) t ∨
      Heard s.ports q ∧ ¬gone q s (.process (.rwChangeState env x)) t := by
  obtain ⟨hp, hports, _⟩ := step_process hst
  obtain ⟨htold, hm⟩ := told_rwChangeState hp
  have hopens : toldOnline q s (.process (.rwChangeState env x)) t ↔
      (∃ port, s.ports q = some port ∧ port.transport = x) ∧
        ∃ uid, ⟨kLocalControllerId, uid, bytes "online", kConStat⟩ ∈
          (onRWChangeState s.process.controller.manager x).sent := by
    rw [← htold]
    constructor
    · rintro ⟨env', port, hport, he, uid, hmem⟩
      cases he
      exact ⟨⟨port, hport, rfl⟩, uid, hmem⟩
    · rintro ⟨⟨port, hport, rfl⟩, uid, hmem⟩
      exact ⟨env, port, hport, rfl, uid, hmem⟩
  rw [hopens, gone, hports, heard_owned, portsOn, heard_report h]
  constructor
  · rintro ⟨hopen | hheard, hlive⟩
    · exact .inl hopen
    · exact .inr ⟨hheard, hlive⟩
  · rintro (hopen | ⟨hheard, hlive⟩)
    · refine ⟨.inl hopen, ?_⟩
      -- Only a live transport is reported, and the report leaves it alive.
      obtain ⟨⟨port, hport, rfl⟩, uid, hmem⟩ := hopen
      have hlive : s.process.controller.manager.transports port.transport ≠ none := by
        intro hnone
        rw [onRWChangeState_of_dead hnone] at hmem
        cases hmem
      have hsame := transport_portsOn (q := q) s.process.controller.manager s.ports
        (.rwChangeState env port.transport)
      rw [hport] at hsame
      obtain ⟨port', hport', ht⟩ := Option.map_eq_some_iff.mp hsame
      rw [portsOn] at hport'
      rw [owned, hport', hm, transports_report]
      simp [Option.filter, ht, hlive, Option.isSome_iff_ne_none]
    · exact ⟨.inr hheard, hlive⟩

theorem heard_congr {ports ports' : PartialMap Ptr Port} (h : ports' q = ports q) :
    Heard ports' q ↔ Heard ports q ∧ ports' q ≠ none := by
  unfold Heard
  rw [h]
  constructor
  · rintro ⟨port, hq, hpos⟩
    exact ⟨⟨port, hq, hpos⟩, by simp [hq]⟩
  · rintro ⟨hheard, _⟩
    exact hheard

theorem heard_port (hport : ∀ e', e ≠ .process e') (hst : step relayPortType libs s e = some t) :
    Heard t.ports q ↔ Heard s.ports q ∧ t.ports q ≠ none := by
  cases e with
  | process e => exact absurd rfl (hport e)
  | portReady q' x type =>
    simp only [step, Option.ite_none_left_eq_some, Option.some.injEq, not_or] at hst
    obtain ⟨⟨_, hfree, _⟩, rfl⟩ := hst
    by_cases hq : q = q'
    · subst hq
      have hnone : s.ports q = none := by simpa using hfree
      simp [Heard, hnone]
    · exact heard_congr (PartialMap.insert_of_ne _ _ hq)
  | portDestroyed q' =>
    simp only [step, Option.ite_none_left_eq_some, Option.some.injEq] at hst
    obtain ⟨_, rfl⟩ := hst
    by_cases hq : q = q'
    · subst hq
      simp [Heard]
    · exact heard_congr (PartialMap.erase_of_ne _ hq)
  | connectionCreated q' =>
    simp only [step, Option.ite_none_left_eq_some, Option.map_eq_some_iff] at hst
    obtain ⟨_, port, _, rfl⟩ := hst
    exact heard_congr rfl

theorem heard_step (h : s.process.crashed = false → Tidy s.process.controller.manager)
    (hst : step relayPortType libs s e = some t) :
    Heard t.ports q ↔ toldOnline q s e t ∨ Heard s.ports q ∧ ¬gone q s e t := by
  cases e with
  | process e =>
    obtain ⟨hp, hports, _⟩ := step_process hst
    by_cases hrw : ∃ env x, e = .rwChangeState env x
    · obtain ⟨env, x, rfl⟩ := hrw
      exact heard_rwChangeState (h (Process.running_of_step hp)) hst
    · have hquiet : ¬toldOnline q s (.process e) t := by
        rintro ⟨env, port, _, he, _⟩
        exact hrw ⟨env, port.transport, Event.process.inj he⟩
      have hsame : portsOn s.process.controller.manager s.ports e = s.ports := by
        cases e with
        | rwChangeState env x => exact absurd ⟨env, x, rfl⟩ hrw
        | _ => rfl
      rw [gone, hports, hsame, heard_owned]
      simp [hquiet]
  | _ =>
    rw [heard_port (by simp) hst]
    simp [toldOnline, gone]

theorem process_port (hport : ∀ e', e ≠ .process e') (hst : step relayPortType libs s e = some t) :
    t.process = s.process := by
  cases e with
  | process e => exact absurd rfl (hport e)
  | portReady | portDestroyed =>
    simp only [step, Option.ite_none_left_eq_some, Option.some.injEq] at hst
    obtain ⟨_, rfl⟩ := hst
    rfl
  | connectionCreated =>
    simp only [step, Option.ite_none_left_eq_some, Option.map_eq_some_iff] at hst
    obtain ⟨_, port, _, rfl⟩ := hst
    rfl

theorem trimEnabled_iff (hst : step relayPortType libs s e = some t) :
    t.process.controller.manager.trimEnabled = true ↔ turned libs true s e t ∨
      s.process.controller.manager.trimEnabled = true ∧ ¬turned libs false s e t := by
  cases e with
  | process e =>
    rw [(settings_step (step_process hst).1).trimEnabled]
    unfold turned
    cases hasked : trimAsked libs s.process.controller e with
    | none => simp [hasked]
    | some trim => cases trim <;> simp [hasked]
  | _ =>
    rw [process_port (by simp) hst]
    simp [turned]

def Sound (s : State) : Prop := s.process.crashed = false → Tidy s.process.controller.manager

theorem sound_step (h : Sound s) (hst : Moves relayPortType libs s e t) : Sound t := by
  obtain ⟨hnew, hst⟩ := hst
  cases e with
  | process e =>
    have hp := (step_process hst).1
    intro hrun
    exact tidy_step (h (Process.running_of_step hp)) ⟨hnew, hp⟩ hrun
  | _ =>
    rw [Sound, process_port (by simp) hst]
    exact h

theorem connections_step (hst : step relayPortType libs s e = some t) : s.connections <+: t.connections := by
  cases e with
  | process e => rw [(step_process hst).2.2]
  | portReady q' x type =>
    simp only [step, Option.ite_none_left_eq_some, Option.some.injEq] at hst
    obtain ⟨_, rfl⟩ := hst
    exact List.prefix_rfl
  | portDestroyed q' =>
    simp only [step, Option.ite_none_left_eq_some, Option.some.injEq] at hst
    obtain ⟨_, rfl⟩ := hst
    exact List.prefix_rfl
  | connectionCreated q' =>
    simp only [step, Option.ite_none_left_eq_some, Option.map_eq_some_iff] at hst
    obtain ⟨_, port, _, rfl⟩ := hst
    exact List.prefix_append _ _

theorem connections_run {es : List Event} (h : Run (Moves relayPortType libs) s es t) :
    s.connections <+: t.connections :=
  run_invariant (P := fun t => s.connections <+: t.connections)
    (fun _ _ _ hpre hst => hpre.trans (connections_step hst.2)) h List.prefix_rfl

/-- Trimming is exact. A connection is pruned just when it was created on a port
of a relay, the last request about it had turned trimming on, and the link had been
reported as online when its channel already had this port. What is not pruned when
it is created never is. -/
theorem trimmed_iff {u v : State} {es fs : List Event} (hs : Initial s)
    (h : Run (Moves relayPortType libs) s es t) (hst : Moves relayPortType libs t (.connectionCreated q) u)
    (h' : Run (Moves relayPortType libs) u fs v) :
    ∃ port connection, t.ports q = some port ∧ v.connections[t.connections.length]? = some connection ∧
      connection.port = q ∧ (connection.pruned = true ↔ port.type = relayPortType ∧
        Since (Moves relayPortType libs) (turned libs true) (turned libs false) s es t ∧
        Since (Moves relayPortType libs) (toldOnline q) (gone q) s es t) := by
  have hsound : Sound s := fun _ => tidy_initial hs.process
  have htrim : t.process.controller.manager.trimEnabled = true ↔
      Since (Moves relayPortType libs) (turned libs true) (turned libs false) s es t := by
    refine since_iff (Q := Sound) (P := fun s => s.process.controller.manager.trimEnabled = true)
      (fun _ _ _ => sound_step) (fun _ _ _ _ hst => trimEnabled_iff hst.2) hsound ?_ h
    obtain ⟨_, _, _, _, _, _, _, hs⟩ := hs.process
    rw [hs]
    exact Bool.false_ne_true
  have hheard : Heard t.ports q ↔ Since (Moves relayPortType libs) (toldOnline q) (gone q) s es t := by
    refine since_iff (Q := Sound) (P := fun s => Heard s.ports q)
      (fun _ _ _ => sound_step) (fun _ _ _ hsound hst => heard_step hsound hst.2) hsound ?_ h
    rw [hs.ports]
    rintro ⟨port, hport, _⟩
    cases hport
  have hafter := hst.2
  simp only [Steps, step, Option.ite_none_left_eq_some, Option.map_eq_some_iff] at hafter
  obtain ⟨_, port, hport, rfl⟩ := hafter
  obtain ⟨later, hlater⟩ := connections_run h'
  have hlisted : v.connections[t.connections.length]? = some
      (signalConnectionCreated relayPortType t.process.controller.manager port ⟨q, false⟩) := by
    rw [← hlater, List.append_assoc]
    simp
  refine ⟨port, _, hport, hlisted, port_iterate port.connects, ?_⟩
  rw [← htrim, ← hheard, signalConnectionCreated, pruned_iterate]
  have hconnects : Heard t.ports q ↔ 0 < port.connects := by
    simp [Heard, hport]
  rw [hconnects]
  simp only [Bool.false_eq_true, false_or]
  tauto

end

def policyText : Bytes := bytes "\x7b\"m\":\"set_trimpolicy\",\"trim_enabled\":true\x7d"

def policyValue : Json.Value :=
  .object [(bytes "m", .string (bytes "set_trimpolicy")), (bytes "trim_enabled", .boolean true)]

def policyDatagram : Datagram := Process.datagramOf (Utils.kIpopVer :: Utils.kTincanControl :: policyText)

def policyLibs : Libs :=
  Process.sampleLibs [(Process.linkText [49], Process.linkValue 1), (policyText, policyValue)]

def portlessState : State := ⟨Process.startState, PartialMap.empty, []⟩

/-- A link with a relay comes up while trimming is on, and the relay is asked for
another connection. -/
theorem trimmed_iff_relay : ∃ es t, Since (Moves (bytes "relay") policyLibs) (turned policyLibs true)
      (turned policyLibs false) portlessState es t ∧
    Since (Moves (bytes "relay") policyLibs) (toldOnline 7) (gone 7) portlessState es t := by
  obtain ⟨t₁, t₂, t₃, t₄, t₅, u, h₁, h₂, h₃, h₄, h₅, hu, htransport, hchannel, hempty, hpruned⟩ :
      ∃ t₁ t₂ t₃ t₄ t₅ u,
      step (bytes "relay") policyLibs portlessState (.process (.datagram Process.sampleEnv policyDatagram)) =
        some t₁ ∧
      step (bytes "relay") policyLibs t₁ (.process (.datagram Process.sampleEnv (Process.linkDatagram 49))) =
        some t₂ ∧
      step (bytes "relay") policyLibs t₂ (.portReady 7 1 (bytes "relay")) = some t₃ ∧
      step (bytes "relay") policyLibs t₃ (.process (.linkStatus 1 true true true true)) = some t₄ ∧
      step (bytes "relay") policyLibs t₄ (.process (.rwChangeState Process.sampleEnv 1)) = some t₅ ∧
      step (bytes "relay") policyLibs t₅ (.connectionCreated 7) = some u ∧
      t₁.process.controller.manager.transports 1 = none ∧
      t₁.process.controller.manager.channels 2 = none ∧ t₅.connections = [] ∧
      u.connections = [⟨7, true⟩] :=
    ⟨_, _, _, _, _, _, rfl, rfl, rfl, rfl, rfl, rfl, rfl, rfl, rfl, rfl⟩
  have hnew₁ : NewObjects policyLibs portlessState (.process (.datagram Process.sampleEnv policyDatagram)) :=
    fun _ _ _ => ⟨by decide, rfl, rfl⟩
  have hnew₂ : NewObjects policyLibs t₁ (.process (.datagram Process.sampleEnv (Process.linkDatagram 49))) :=
    fun _ _ _ => ⟨by decide, htransport, hchannel⟩
  have hnew₃ : NewObjects policyLibs t₂ (.portReady 7 1 (bytes "relay")) := trivial
  have hnew₄ : NewObjects policyLibs t₃ (.process (.linkStatus 1 true true true true)) := trivial
  have hnew₅ : NewObjects policyLibs t₄ (.process (.rwChangeState Process.sampleEnv 1)) := trivial
  have hrun : Run (Moves (bytes "relay") policyLibs) portlessState _ t₅ :=
    (((((Run.nil _).snoc ⟨hnew₁, h₁⟩).snoc ⟨hnew₂, h₂⟩).snoc ⟨hnew₃, h₃⟩).snoc ⟨hnew₄, h₄⟩).snoc
      ⟨hnew₅, h₅⟩
  have hinit : Initial portlessState := ⟨Process.startState_initial, rfl, rfl⟩
  obtain ⟨port, connection, _, hlisted, _, hiff⟩ := trimmed_iff hinit hrun ⟨trivial, hu⟩ (.nil u)
  rw [hempty, hpruned] at hlisted
  cases hlisted
  exact ⟨_, t₅, (hiff.mp rfl).2⟩

end Tincan.Trimming
