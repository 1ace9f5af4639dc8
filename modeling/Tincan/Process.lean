import Tincan.ControllerAccess
import Tincan.LinkThreads

namespace Tincan.Process

open Tincan.Library Tincan.Library.Text Tincan.Library.Runs Tincan.Libjingle Tincan.Utils
open Tincan.ConnectionManager Tincan.PacketPath Tincan.XmppNetwork Tincan.ControllerAccess

inductive Service
  | controller
  | xmpp
  deriving DecidableEq

def addService (services : PartialMap Int (Option Service)) (overlayId : Int) (service : Service) :
    PartialMap Int (Option Service) :=
  services.insert overlayId (some service)

def mainServices : PartialMap Int (Option Service) :=
  addService (addService PartialMap.empty 0 .controller) 1 .xmpp

/-- The running process. `calls` are the messages given to the signal sender so
far, each with the service that was found for it, `accepted` are the stanzas
taken as coming from other nodes, and `sent` is everything that has left the
process. A process that has crashed takes no more steps. -/
structure State where
  controller : Controller
  services : PartialMap Int (Option Service)
  calls : List (PeerMessage × Option Service)
  accepted : List Xmpp.Stanza
  sent : List Effect
  crashed : Bool

/-- The process as `main` has it when the threads start. The rest is what the
surroundings decide, or what a constructor leaves unset. -/
def State.new (tiebreaker : Fin (2 ^ 64)) (kTapName ip4 mac : Bytes) (logging : LoggingSeverity)
    (xmppState : Xmpp.EngineState) (onMsgCounter : Int) : State where
  controller :=
    { manager := { Manager.new tiebreaker kTapName .socket6 with tincanIp4 := ip4 }
      network := Network.new xmppState onMsgCounter
      opts := ⟨0, 0, mac⟩
      remoteAddr := ⟨[], .unspec, 0⟩
      rpcCalls := initMap
      logging := logging
      recvQueue := []
      sendQueue := []
      pending := 0 }
  services := mainServices
  calls := []
  accepted := []
  sent := []
  crashed := false

def Initial (s : State) : Prop :=
  ∃ tiebreaker kTapName ip4 mac logging xmppState onMsgCounter,
    s = State.new tiebreaker kTapName ip4 mac logging xmppState onMsgCounter

/-- `PeerSignalSender::SendToPeer`. -/
def signal (libs : Libs) (env : Env) (s : State) (msg : PeerMessage) : State :=
  let (service, services) := s.services.index msg.overlayId none
  let s := { s with services := services, calls := s.calls ++ [(msg, service)] }
  match service with
  | none => { s with crashed := true }
  | some .controller =>
    { s with sent := s.sent ++ sendToPeer libs env s.controller msg.uid msg.data msg.type }
  | some .xmpp =>
    { s with sent := s.sent ++
        (s.controller.network.sendToPeer libs.xmpp msg.uid msg.data msg.type).map .stanza }

def absorb (libs : Libs) (env : Env) (s : State) (o : ConnectionManager.Outcome) : State :=
  let s := { s with controller := { s.controller with manager := o.manager } }
  let s := o.sent.foldl (signal libs env) s
  { s with crashed := s.crashed || o.fault }

inductive Event
  | datagram (env : Env) (d : Datagram)
  | candidatesReady (t : Ptr) (candidates : List Candidate)
  | candidatesAllocationDone (env : Env) (t : Ptr)
  | rwChangeState (env : Env) (t : Ptr)
  | linkStatus (t : Ptr) (readable writable wasWritable hasChannel : Bool)
  | stateChange (jid : Xmpp.Jid) (state : Xmpp.EngineState)
  | timer (anyChildError : Bool)
  | stanza (stanza : Xmpp.Stanza)
  | processStart (env : Env)
  | queueSignal (memory : Nat → Byte)
  | readPacket (channel : Ptr) (data : Bytes)
  | tapSend (data : Bytes)
  | tapRecv (len : Nat)

def State.withNetwork (s : State) (n : Network) (sent : List Xmpp.Output) : State :=
  { s with controller := { s.controller with network := n }, sent := s.sent ++ sent.map .stanza }

def handleQueueSignal (libs : Libs) (memory : Nat → Byte) (s : Controller) :
    Option (Controller × List PacketPath.Output) := do
  let (packet, queue) ← s.sendQueue.remove
  let (m, out) ← PacketPath.handlePacket libs.jingle memory s.manager packet
  some ({ s with manager := m, sendQueue := queue, pending := s.pending - 1 }, out)

/-- What the tap thread gets, nothing if the packet does not fit. -/
def doPacketRecv (s : Controller) (len : Nat) : Option (Controller × Option Bytes) :=
  s.recvQueue.remove.map (fun (packet, queue) =>
    ({ s with recvQueue := queue }, if packet.length > len then none else some packet))

theorem handleQueueSignal_eq_some {libs : Libs} {memory : Nat → Byte} {c c' : Controller}
    {out : List PacketPath.Output} (h : handleQueueSignal libs memory c = some (c', out)) :
    ∃ packet queue, c.sendQueue = packet :: queue ∧
      c' = { c with sendQueue := queue, pending := c.pending - 1 } := by
  simp only [handleQueueSignal, Option.bind_eq_bind, Option.bind_eq_some_iff, Option.some.injEq,
    Prod.mk.injEq] at h
  obtain ⟨⟨packet, queue⟩, hremove, ⟨m, sent⟩, hh, rfl, _⟩ := h
  refine ⟨packet, queue, WQueue.remove_eq_some hremove, ?_⟩
  rw [PacketPath.handlePacket_manager _ _ hh]

theorem doPacketRecv_eq_some {c c' : Controller} {len : Nat} {written : Option Bytes}
    (h : doPacketRecv c len = some (c', written)) :
    ∃ packet queue, c.recvQueue = packet :: queue ∧ c' = { c with recvQueue := queue } ∧
      written = if packet.length > len then none else some packet := by
  simp only [doPacketRecv, Option.map_eq_some_iff, Prod.mk.injEq] at h
  obtain ⟨⟨packet, queue⟩, hremove, rfl, rfl⟩ := h
  exact ⟨packet, queue, WQueue.remove_eq_some hremove, rfl, rfl⟩

/-- One event of any thread. `none` is an event that cannot happen now. -/
def step (libs : Libs) (s : State) (e : Event) : Option State :=
  if s.crashed then none
  else match e with
  | .datagram env d =>
    match handlePacket libs env s.controller d with
    | none => some { s with crashed := true }
    | some o => some { s with controller := o.state, sent := s.sent ++ o.output }
  | .candidatesReady t candidates =>
    let o := onCandidatesReady libs.jingle s.controller.manager t candidates
    some { s with controller := { s.controller with manager := o.manager }, crashed := o.fault }
  | .candidatesAllocationDone env t =>
    some (absorb libs env s (onCandidatesAllocationDone s.controller.manager t))
  | .rwChangeState env t => some (absorb libs env s (onRWChangeState s.controller.manager t))
  | .linkStatus t readable writable wasWritable hasChannel =>
    (s.controller.manager.transports t).map (fun tr => { s with controller := { s.controller with
      manager := LinkThreads.setStatus s.controller.manager t tr readable writable wasWritable
        hasChannel } })
  | .stateChange jid state =>
    s.controller.network.pump.map (fun pump =>
      let n := { s.controller.network with pump := some { pump with jid := jid } }
      let (n, sent) := n.onStateChange libs.xmpp state
      s.withNetwork n sent)
  | .timer anyChildError =>
    if s.controller.network.timers = 0 then none
    else
      let (n, sent) := s.controller.network.onMessage anyChildError
      some (s.withNetwork n sent)
  | .stanza stanza => some (s.withNetwork (s.controller.network.handleStanza libs.xmpp stanza) [])
  | .processStart env =>
    match s.controller.network.processStart libs.xmpp env.fresh.now with
    | none => some { s with crashed := true }
    | some (n, call) =>
      let taken := (s.controller.network.nextAccepted libs.xmpp).toList
      let msgs := call.elim [] (fun (uid, data, type) => handlePeer uid data type)
      some (msgs.foldl (signal libs env) { s.withNetwork n [] with accepted := s.accepted ++ taken })
  | .queueSignal memory =>
    if s.controller.pending = 0 then none
    else (handleQueueSignal libs memory s.controller).map (fun (c, out) =>
      { s with controller := c, sent := s.sent ++ out.map .packet })
  | .readPacket channel data =>
    match onReadPacket libs.jingle s.controller.manager channel data with
    | none => some { s with crashed := true }
    | some (m, packet) => some { s with controller := { s.controller with
        manager := m
        recvQueue := packet.elim s.controller.recvQueue s.controller.recvQueue.add } }
  | .tapSend data => some { s with controller := doPacketSend s.controller data }
  | .tapRecv len => (doPacketRecv s.controller len).map (fun (c, _) => { s with controller := c })

/-- What an event can do to the controller, with the stanzas that are taken as
coming from other nodes and the messages for the signal sender. -/
inductive ControllerStep (libs : Libs) (c : Controller) :
    Event → Controller → List Xmpp.Stanza → List PeerMessage → Prop
  | same (e : Event) : ControllerStep libs c e c [] []
  | datagram {env : Env} {d : Datagram} {o : ControllerAccess.Outcome}
      (h : handlePacket libs env c d = some o) : ControllerStep libs c (.datagram env d) o.state [] []
  | candidatesReady (t : Ptr) (candidates : List Candidate) :
      ControllerStep libs c (.candidatesReady t candidates)
        { c with manager := (onCandidatesReady libs.jingle c.manager t candidates).manager } [] []
  | candidatesAllocationDone (env : Env) (t : Ptr) :
      ControllerStep libs c (.candidatesAllocationDone env t)
        { c with manager := (onCandidatesAllocationDone c.manager t).manager } []
        (onCandidatesAllocationDone c.manager t).sent
  | rwChangeState (env : Env) (t : Ptr) :
      ControllerStep libs c (.rwChangeState env t)
        { c with manager := (onRWChangeState c.manager t).manager } [] (onRWChangeState c.manager t).sent
  | linkStatus {t : Ptr} {tr : Transport} (readable writable wasWritable hasChannel : Bool)
      (h : c.manager.transports t = some tr) :
      ControllerStep libs c (.linkStatus t readable writable wasWritable hasChannel)
        { c with
          manager := LinkThreads.setStatus c.manager t tr readable writable wasWritable hasChannel } [] []
  | stateChange {pump : XmppPump} (jid : Xmpp.Jid) (state : Xmpp.EngineState)
      (h : c.network.pump = some pump) :
      ControllerStep libs c (.stateChange jid state)
        { c with network := ({ c.network with
          pump := some { pump with jid := jid } }.onStateChange libs.xmpp state).1 } [] []
  | timer (anyChildError : Bool) :
      ControllerStep libs c (.timer anyChildError)
        { c with network := (c.network.onMessage anyChildError).1 } [] []
  | stanza (stanza : Xmpp.Stanza) :
      ControllerStep libs c (.stanza stanza)
        { c with network := c.network.handleStanza libs.xmpp stanza } [] []
  | processStart {env : Env} {n : Network} {call : Option (Bytes × Bytes × Bytes)}
      (h : c.network.processStart libs.xmpp env.fresh.now = some (n, call)) :
      ControllerStep libs c (.processStart env) { c with network := n }
        (c.network.nextAccepted libs.xmpp).toList
        (call.elim [] (fun (uid, data, type) => handlePeer uid data type))
  | queueSignal {memory : Nat → Byte} {c' : Controller} {out : List PacketPath.Output}
      (h : handleQueueSignal libs memory c = some (c', out)) :
      ControllerStep libs c (.queueSignal memory) c' [] []
  | readPacket {channel : Ptr} {data : Bytes} {m : Manager} {packet : Option Bytes}
      (h : onReadPacket libs.jingle c.manager channel data = some (m, packet)) :
      ControllerStep libs c (.readPacket channel data)
        { c with manager := m, recvQueue := packet.elim c.recvQueue c.recvQueue.add } [] []
  | tapSend (data : Bytes) : ControllerStep libs c (.tapSend data) (doPacketSend c data) [] []
  | tapRecv {len : Nat} {c' : Controller} {packet : Option Bytes}
      (h : doPacketRecv c len = some (c', packet)) : ControllerStep libs c (.tapRecv len) c' [] []

def conclude (libs : Libs) (env : Env) (s : State) (c : Controller) (taken : List Xmpp.Stanza)
    (sent : List Effect) (msgs : List PeerMessage) (fault : Bool) : State :=
  let s := { s with controller := c, accepted := s.accepted ++ taken, sent := s.sent ++ sent }
  let s := msgs.foldl (signal libs env) s
  { s with crashed := s.crashed || fault }

section

variable {libs : Libs} {env : Env} {s t : State}

theorem step_cases {e : Event} (h : step libs s e = some t) :
    ∃ env c taken sent msgs fault, ControllerStep libs s.controller e c taken msgs ∧
      t = conclude libs env s c taken sent msgs fault := by
  have hquiet : ∀ c sent, { s with controller := c, sent := s.sent ++ sent } =
      conclude libs default s c [] sent [] false := by
    intro c sent
    simp [conclude]
  have hfault : ∀ e, ∃ env c taken sent msgs fault, ControllerStep libs s.controller e c taken msgs ∧
      { s with crashed := true } = conclude libs env s c taken sent msgs fault := by
    intro e
    exact ⟨default, s.controller, [], [], [], true, .same e, by simp [conclude]⟩
  have hreplace : ∀ c, { s with controller := c } = conclude libs default s c [] [] [] false := by
    intro c
    simp [conclude]
  have habsorb : ∀ env o, absorb libs env s o =
      conclude libs env s { s.controller with manager := o.manager } [] [] o.sent o.fault := by
    intro env o
    simp [absorb, conclude]
  unfold step at h
  split at h
  · cases h
  · next hcrashed =>
    cases e with
    | datagram env d =>
      dsimp only at h
      split at h
      · cases h
        exact hfault _
      · next o ho =>
        cases h
        exact ⟨_, _, _, _, _, _, .datagram ho, hquiet _ _⟩
    | candidatesReady x candidates =>
      cases h
      refine ⟨default, _, _, [], _, (onCandidatesReady libs.jingle s.controller.manager x
        candidates).fault, .candidatesReady x candidates, ?_⟩
      simp [conclude, hcrashed]
    | candidatesAllocationDone env x =>
      cases h
      exact ⟨_, _, _, _, _, _, .candidatesAllocationDone env x, habsorb _ _⟩
    | rwChangeState env x =>
      cases h
      exact ⟨_, _, _, _, _, _, .rwChangeState env x, habsorb _ _⟩
    | linkStatus x readable writable wasWritable hasChannel =>
      rw [Option.map_eq_some_iff] at h
      obtain ⟨tr, htr, rfl⟩ := h
      exact ⟨_, _, _, _, _, _, .linkStatus readable writable wasWritable hasChannel htr, hreplace _⟩
    | stateChange jid state =>
      rw [Option.map_eq_some_iff] at h
      obtain ⟨pump, hpump, rfl⟩ := h
      exact ⟨_, _, _, _, _, _, .stateChange jid state hpump, hquiet _ _⟩
    | timer anyChildError =>
      dsimp only at h
      split at h
      · cases h
      · cases h
        exact ⟨_, _, _, _, _, _, .timer anyChildError, hquiet _ _⟩
    | stanza stanza =>
      cases h
      exact ⟨_, _, _, _, _, _, .stanza stanza, hquiet _ _⟩
    | processStart env =>
      dsimp only at h
      split at h
      · cases h
        exact hfault _
      · next n call hn =>
        cases h
        refine ⟨env, _, _, [], _, false, .processStart hn, ?_⟩
        simp [conclude, State.withNetwork]
    | queueSignal memory =>
      dsimp only at h
      split at h
      · cases h
      · rw [Option.map_eq_some_iff] at h
        obtain ⟨⟨c, out⟩, hq, rfl⟩ := h
        exact ⟨_, _, _, _, _, _, .queueSignal hq, hquiet _ _⟩
    | readPacket channel data =>
      dsimp only at h
      split at h
      · cases h
        exact hfault _
      · next m packet hm =>
        cases h
        exact ⟨_, _, _, _, _, _, .readPacket hm, hreplace _⟩
    | tapSend data =>
      cases h
      exact ⟨_, _, _, _, _, _, .tapSend data, hreplace _⟩
    | tapRecv len =>
      rw [Option.map_eq_some_iff] at h
      obtain ⟨⟨c, packet⟩, hr, rfl⟩ := h
      exact ⟨_, _, _, _, _, _, .tapRecv hr, hreplace _⟩

theorem running_of_step {e : Event} (h : step libs s e = some t) : s.crashed = false := by
  unfold step at h
  split at h
  · cases h
  · next hc => simpa using hc

theorem datagram_step {env : Env} {d : Datagram} (h : step libs s (.datagram env d) = some t) :
    (∃ o, handlePacket libs env s.controller d = some o ∧ t.controller = o.state) ∨
      handlePacket libs env s.controller d = none ∧ t.controller = s.controller := by
  simp only [step, running_of_step h, Bool.false_eq_true, ↓reduceIte] at h
  split at h
  · next hnone =>
    cases h
    exact .inr ⟨hnone, rfl⟩
  · next o ho =>
    cases h
    exact .inl ⟨o, ho, rfl⟩

theorem signal_frame (libs : Libs) (env : Env) (s : State) (msg : PeerMessage) :
    (signal libs env s msg).controller = s.controller ∧
      (signal libs env s msg).accepted = s.accepted := by
  unfold signal
  dsimp only
  split <;> exact ⟨rfl, rfl⟩

theorem signals_frame (libs : Libs) (env : Env) (s : State) (msgs : List PeerMessage) :
    (msgs.foldl (signal libs env) s).controller = s.controller ∧
      (msgs.foldl (signal libs env) s).accepted = s.accepted := by
  induction msgs generalizing s with
  | nil => exact ⟨rfl, rfl⟩
  | cons msg msgs ih =>
    obtain ⟨hc, ha⟩ := signal_frame libs env s msg
    obtain ⟨hcs, has⟩ := ih (signal libs env s msg)
    exact ⟨hcs.trans hc, has.trans ha⟩

theorem controllerStep_of_step {e : Event} (h : step libs s e = some t) :
    ∃ taken msgs, ControllerStep libs s.controller e t.controller taken msgs := by
  obtain ⟨env, c, taken, sent, msgs, fault, hc, rfl⟩ := step_cases h
  rw [conclude, (signals_frame libs env _ msgs).1]
  exact ⟨taken, msgs, hc⟩

theorem services_signals {overlayId : Int} {service : Service} (msgs : List PeerMessage)
    (h : s.services overlayId = some (some service)) :
    (msgs.foldl (signal libs env) s).services overlayId = some (some service) := by
  induction msgs generalizing s with
  | nil => exact h
  | cons msg msgs ih =>
    have hmsg : (signal libs env s msg).services overlayId = some (some service) := by
      unfold signal
      dsimp only
      split <;> exact PartialMap.index_snd_eq_some none h
    exact ih hmsg

theorem services_step {e : Event} {overlayId : Int} {service : Service} (hst : step libs s e = some t)
    (h : s.services overlayId = some (some service)) :
    t.services overlayId = some (some service) := by
  obtain ⟨env, c, taken, sent, msgs, fault, _, rfl⟩ := step_cases hst
  exact services_signals msgs h

end

inductive NetworkStep (libs : Libs) (n : Network) : Event → Network → List Xmpp.Stanza → Prop
  | same (e : Event) : NetworkStep libs n e n []
  | login (env : Env) (d : Datagram) (user pass pcid host : Bytes) (port : Int) :
      NetworkStep libs n (.datagram env d)
        (n.login libs.jingle libs.xmpp user pass pcid host port).1 []
  | stateChange {pump : XmppPump} (jid : Xmpp.Jid) (state : Xmpp.EngineState) (h : n.pump = some pump) :
      NetworkStep libs n (.stateChange jid state)
        ({ n with pump := some { pump with jid := jid } }.onStateChange libs.xmpp state).1 []
  | timer (anyChildError : Bool) :
      NetworkStep libs n (.timer anyChildError) (n.onMessage anyChildError).1 []
  | stanza (stanza : Xmpp.Stanza) :
      NetworkStep libs n (.stanza stanza) (n.handleStanza libs.xmpp stanza) []
  | processStart {env : Env} {n' : Network} {call : Option (Bytes × Bytes × Bytes)}
      (h : n.processStart libs.xmpp env.fresh.now = some (n', call)) :
      NetworkStep libs n (.processStart env) n' (n.nextAccepted libs.xmpp).toList

theorem ControllerStep.network {libs : Libs} {c c' : Controller} {e : Event}
    {taken : List Xmpp.Stanza} {msgs : List PeerMessage}
    (h : ControllerStep libs c e c' taken msgs) : NetworkStep libs c.network e c'.network taken := by
  cases h with
  | datagram h =>
    have hu := update_handlePacket h
    generalize ControllerAccess.Outcome.state _ = c' at hu
    cases hu with
    | login user pass host port => exact .login _ _ user pass _ host port
    | _ => exact .same _
  | stateChange jid state h => exact .stateChange jid state h
  | timer anyChildError => exact .timer anyChildError
  | stanza stanza => exact .stanza stanza
  | processStart h => exact .processStart h
  | queueSignal h =>
    obtain ⟨_, _, _, rfl⟩ := handleQueueSignal_eq_some h
    exact .same _
  | tapRecv h =>
    obtain ⟨_, _, _, rfl, _⟩ := doPacketRecv_eq_some h
    exact .same _
  | _ => exact .same _

theorem networkStep_of_step {libs : Libs} {s t : State} {e : Event} (h : step libs s e = some t) :
    ∃ taken, t.accepted = s.accepted ++ taken ∧
      NetworkStep libs s.controller.network e t.controller.network taken := by
  obtain ⟨env, c, taken, sent, msgs, fault, hc, rfl⟩ := step_cases h
  refine ⟨taken, ?_, ?_⟩
  · exact (signals_frame libs env _ msgs).2
  · rw [conclude, (signals_frame libs env _ msgs).1]
    exact hc.network

theorem NetworkStep.waiting {libs : Libs} {n n' : Network} {e : Event} {taken : List Xmpp.Stanza}
    {P : Xmpp.Stanza → Prop} (h : NetworkStep libs n e n' taken)
    (hqueued : ∀ stanza, e = .stanza stanza → queues libs.xmpp stanza = true → P stanza)
    (hn : ∀ task, n.tincanTask = some task → ∀ stanza ∈ task.stanzas, P stanza) :
    ∀ task, n'.tincanTask = some task → ∀ stanza ∈ task.stanzas, P stanza := by
  cases h with
  | same e => exact hn
  | login env d user pass pcid host port =>
    unfold Network.login
    split
    · exact hn
    · exact hn
  | stateChange jid state hp =>
    cases state with
    | stateOpen =>
      intro task htask st hst
      cases htask
      cases hst
    | _ => exact hn
  | timer anyChildError =>
    intro task htask
    obtain ht | ht := (onMessage_kept n anyChildError).task
    · exact hn task (ht ▸ htask)
    · rw [ht] at htask
      cases htask
  | stanza stanza =>
    unfold Network.handleStanza
    split
    · next hq =>
      intro task htask st hst
      obtain ⟨old, hold, rfl⟩ := Option.map_eq_some_iff.mp htask
      obtain hst | hst := List.mem_append.mp hst
      · exact hn old hold st hst
      · rw [List.mem_singleton.mp hst]
        exact hqueued stanza rfl hq
    · exact hn
  | processStart hp =>
    obtain ⟨rfl, _⟩ | ⟨number, stanza, stanzas, presenceTime, ht, rfl⟩ := processStart_cases hp
    · exact hn
    · intro task htask st hst
      cases htask
      exact hn _ ht st (List.mem_cons_of_mem stanza hst)

def readerOf (table : List (Bytes × Json.Value)) (message : Bytes) : Bool × Json.Value :=
  match table.lookup message with
  | some root => (true, root)
  | none => (false, .null)

def sampleLibs (table : List (Bytes × Json.Value)) : Libs where
  jingle := Libjingle.Api.plain
  xmpp := Xmpp.Api.plain
  json := Json.Api.over (readerOf table) (fun _ => [])

def sampleEnv : Env := ⟨fun _ => 0, ⟨1, 2, 0⟩, fun _ => []⟩

def datagramOf (data : Bytes) : Datagram where
  buffer i := data.getD i 0
  len := min data.length 65535
  addr := ⟨[], .v4 2130706433, 5801⟩
  len_lt := by omega
  family := by decide

def linkText (overlayId : Bytes) : Bytes :=
  bytes "\x7b\"m\":\"create_link\",\"uid\":\"b\",\"overlay_id\":" ++ overlayId ++ [125]

def linkValue (overlayId : Int) : Json.Value :=
  .object [(bytes "m", .string (bytes "create_link")), (bytes "uid", .string (bytes "b")),
    (bytes "overlay_id", .int overlayId)]

def linkDatagram (overlayId : Byte) : Datagram :=
  datagramOf (kIpopVer :: kTincanControl :: linkText [overlayId])

def startState : State := State.new 0 (bytes "ipop") kIpv4 [0, 1, 2, 3, 4, 5] .warning .stateNone 0

theorem startState_initial : Initial startState := ⟨_, _, _, _, _, _, _, rfl⟩

end Tincan.Process
