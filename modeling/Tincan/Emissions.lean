import Tincan.Endpoints

namespace Tincan.Emissions

open Tincan.Library Tincan.Library.Text Tincan.Library.Runs Tincan.Libjingle Tincan.Utils
open Tincan.ConnectionManager Tincan.PacketPath Tincan.ControllerAccess Tincan.Process Tincan.Endpoints

def Tells (addr : SocketAddress) (x : Effect) : Prop :=
  ∃ via pv, socketFamily via = addr.family ∧
    x = .packet (.sendTo via (kIpopVer :: kTincanControl :: pv) addr)

/-- An outgoing stanza: presence, or a request that carries both texts. -/
def Whole : Xmpp.Output → Prop
  | .iq type _ query => type = Xmpp.strGet ∧ ∃ data text, query = ⟨some data, some text⟩
  | .presence _ => True

/-- All that one event can make the process send. -/
inductive Emits (libs : Libs) (s : State) : Event → Effect → Prop
  | reply {env : Env} {d : Datagram} {x : Effect} (h : Tells d.addr x) : Emits libs s (.datagram env d) x
  | notice {e : Event} {x : Effect} (h : Tells s.controller.remoteAddr x) : Emits libs s e x
  | stanza (e : Event) {x : Xmpp.Output} (h : Whole x) : Emits libs s e (.stanza x)
  | tap (env : Env) (d : Datagram) (call : TapCall) : Emits libs s (.datagram env d) (.tap call)
  | handled {memory : Nat → Byte} {packet : Bytes} {queue : WQueue Bytes} {o : PacketPath.Output}
      (hq : s.controller.sendQueue = packet :: queue) (hl : kHeaderSize ≤ packet.length)
      (ho : SendPath.Carries libs.jingle s.controller.manager packet o) :
      Emits libs s (.queueSignal memory) (.packet o)

structure SameTables (m m' : Manager) : Prop where
  tincanId : m'.tincanId = m.tincanId
  tincanIp4 : m'.tincanIp4 = m.tincanIp4
  tincanIp6 : m'.tincanIp6 = m.tincanIp6
  ipMap : m'.ipMap = m.ipMap

/-- What a request makes of the controller and what it sends: it is answered, or
carried out in silence, or passed on to the tap. -/
inductive Handled (libs : Libs) (env : Env) (c : Controller) (addr : SocketAddress) :
    Controller → List Effect → Prop
  | answered {output : List Effect} (h : ∀ x ∈ output, Tells addr x ∨ ∃ y, Whole y ∧ x = .stanza y) :
      Handled libs env c addr c output
  | silent {c' : Controller} (ht : SameTables c.manager c'.manager) (hq : c'.sendQueue = c.sendQueue) :
      Handled libs env c addr c' []
  | setup (r : SetupRequest) : Handled libs env c addr
      { c with manager := (setup libs.jingle env.memory c.manager r).1 }
      ((setup libs.jingle env.memory c.manager r).2.map .tap)
  | addIPMapping (uid ip4 ip6 : Bytes) : Handled libs env c addr
      { c with manager := (addIPMapping libs.jingle env.memory c.manager uid ip4 ip6).1 }
      ((addIPMapping libs.jingle env.memory c.manager uid ip4 ip6).2.2.map .tap)

inductive Answers (addr : SocketAddress) : Effect → Prop
  | reply {x : Effect} (h : Tells addr x) : Answers addr x
  | stanza {x : Xmpp.Output} (h : Whole x) : Answers addr (.stanza x)
  | tap (call : TapCall) : Answers addr (.tap call)

/-- The packets for sending that an event brings in, from the tap or the controller of the node. -/
def fedBy : Event → List Bytes
  | .tapSend data => [data]
  | .datagram _ d => if d.buffer 1 = kICCControl ∨ d.buffer 1 = kICCPacket then d.payload.toList else []
  | _ => []

def Heard (es : List Event) (addr : SocketAddress) : Prop := ∃ env d, Event.datagram env d ∈ es ∧ d.addr = addr

def Asked (libs : Libs) (s : State) (es : List Event) (addr : SocketAddress) : Prop :=
  ∃ es₁ e es₂ r sender ip port, es = es₁ ++ e :: es₂ ∧ Run (Steps (step libs)) s es₁ r ∧
    asks libs r.controller e = some (sender, ip, port) ∧
    addr = endpoint libs r.controller.remoteAddr sender ip port

/-- A datagram that the controller has reason to expect: a control message
through the socket of its address, to somebody who has sent a datagram or to an
endpoint that was asked for, or a whole packet to such an endpoint. Until one is
asked for, packets go to the address that the constructor left. -/
def Expected (libs : Libs) (s : State) (es : List Event) (via : UdpSocket) (datagram : Bytes)
    (addr : SocketAddress) : Prop :=
  (∃ pv, datagram = kIpopVer :: kTincanControl :: pv ∧ socketFamily via = addr.family ∧
    (Heard es addr ∨ Asked libs s es addr)) ∨
  ∃ type packet, datagram = kIpopVer :: type :: packet ∧ kHeaderSize ≤ packet.length ∧
    via = .socket6 ∧ (addr = s.controller.remoteAddr ∨ Asked libs s es addr)

section

variable {libs : Libs} {env : Env} {s t : State} {c : Controller}

theorem tells_of_sendTo {pv : Bytes} {addr : SocketAddress} {x : Effect} (h : x ∈ sendTo env pv addr) :
    Tells addr x := by
  unfold sendTo at h
  rw [frame_eq] at h
  split at h
  · next hf => exact ⟨.socket, pv, hf.symm, List.mem_singleton.mp h⟩
  · next hf => exact ⟨.socket6, pv, hf.symm, List.mem_singleton.mp h⟩
  · cases h

theorem tells_family {addr : SocketAddress} {x : Effect} (h : Tells addr x) : addr.family ≠ .unspec := by
  obtain ⟨via, _, hf, _⟩ := h
  cases via <;> rw [← hf] <;> decide

theorem whole_sendToPeer {X : Xmpp.Api} {n : XmppNetwork.Network} {uid data type : Bytes} {x : Xmpp.Output}
    (h : x ∈ n.sendToPeer X uid data type) : Whole x := by
  unfold XmppNetwork.Network.sendToPeer XmppNetwork.taskSendToPeer at h
  split at h
  · split at h
    · cases h
    · rw [List.mem_singleton.mp h]
      exact ⟨rfl, data, type, rfl⟩
  · cases h

theorem SameTables.refl (m : Manager) : SameTables m m := ⟨rfl, rfl, rfl, rfl⟩

theorem SameTables.trans {m m' m'' : Manager} (h : SameTables m m') (h' : SameTables m' m'') :
    SameTables m m'' :=
  ⟨h'.tincanId.trans h.tincanId, h'.tincanIp4.trans h.tincanIp4, h'.tincanIp6.trans h.tincanIp6,
    h'.ipMap.trans h.ipMap⟩

theorem sameTables_createTransport (L : Api) (m : Manager) (r : CreateRequest) (f : Fresh) :
    SameTables m (createTransport L m r f).1 := by
  obtain ⟨_, hm⟩ | ⟨_, tr, hm⟩ := LinkChanges.createTransport_cases L m r f <;> rw [hm] <;>
    exact ⟨rfl, rfl, rfl, rfl⟩

theorem sameTables_giveCandidates {m m' : Manager} {uid cas : Bytes}
    (h : giveCandidates libs m uid cas = some m') : SameTables m m' := by
  obtain rfl | ⟨p, tr, candidates, _, _, _, rfl⟩ := LinkChanges.giveCandidates_cases h
  · exact .refl m'
  · exact ⟨rfl, rfl, rfl, rfl⟩

theorem sameTables_destroyTransport {m m' : Manager} {uid : Bytes} {done : Bool} {log : List Log}
    (h : destroyTransport m uid = some (m', done, log)) : SameTables m m' := by
  obtain ⟨_, rfl⟩ | ⟨p, _, rfl⟩ := LinkChanges.destroyTransport_cases h
  · exact .refl m'
  · exact ⟨rfl, rfl, rfl, rfl⟩

theorem handled_dispatch {root : Json.Value} {method : Bytes} {addr : SocketAddress} {call : RpcCall}
    {o : ControllerAccess.Outcome} (h : dispatch libs env c root method addr call = some o) :
    Handled libs env c addr o.state o.output := by
  cases call with
  | getState =>
    simp only [dispatch, getStateCall, sendState, Option.bind_eq_bind, Option.bind_eq_some_iff,
      Option.some.injEq, Option.map_eq_some_iff] at h
    obtain ⟨_, _, _, _, _, ⟨peers, _, rfl⟩, rfl⟩ := h
    refine .answered fun x hx => ?_
    obtain hx | hx := List.mem_append.mp hx
    · exact .inl (tells_of_sendTo hx)
    · obtain ⟨peer, _, hx⟩ := List.mem_flatMap.mp hx
      exact .inl (tells_of_sendTo hx)
  | echoRequest =>
    simp only [dispatch, echoRequest, Option.bind_eq_bind, Option.bind_eq_some_iff,
      Option.some.injEq] at h
    obtain ⟨_, _, rfl⟩ := h
    exact .answered fun x hx => .inl (tells_of_sendTo hx)
  | unknown =>
    simp only [dispatch, relay, Option.bind_eq_bind, Option.bind_eq_some_iff, Option.some.injEq] at h
    obtain ⟨_, _, _, _, _, _, rfl⟩ := h
    refine .answered fun x hx => ?_
    obtain ⟨y, hy, rfl⟩ := List.mem_map.mp hx
    exact .inr ⟨y, whole_sendToPeer hy, rfl⟩
  | setLocalIp =>
    simp only [dispatch, setLocalIp, Option.bind_eq_bind, Option.bind_eq_some_iff,
      Option.some.injEq] at h
    obtain ⟨_, _, _, _, _, _, _, _, _, _, _, _, _, _, rfl⟩ := h
    exact .setup _
  | setRemoteIp =>
    simp only [dispatch, setRemoteIp, Option.bind_eq_bind, Option.bind_eq_some_iff,
      Option.some.injEq] at h
    obtain ⟨_, _, _, _, _, _, rfl⟩ := h
    exact .addIPMapping _ _ _
  | createLink =>
    simp only [dispatch, createLink, Option.bind_eq_bind, Option.bind_eq_some_iff,
      Option.some.injEq] at h
    obtain ⟨_, _, _, hm, rfl⟩ := h
    exact .silent ((sameTables_createTransport _ _ _ _).trans (sameTables_giveCandidates hm)) rfl
  | trimLink =>
    simp only [dispatch, trimLink, Option.bind_eq_bind, Option.bind_eq_some_iff,
      Option.some.injEq] at h
    obtain ⟨_, _, _, hd, rfl⟩ := h
    exact .silent (sameTables_destroyTransport hd) rfl
  | registerSvc =>
    simp only [dispatch, registerSvc, Option.bind_eq_bind, Option.bind_eq_some_iff,
      Option.some.injEq] at h
    obtain ⟨_, _, _, _, _, _, _, _, rfl⟩ := h
    exact .silent (.refl _) rfl
  | setCbEndpoint =>
    simp only [dispatch, setCbEndpoint, Option.bind_eq_bind, Option.bind_eq_some_iff,
      Option.some.injEq] at h
    obtain ⟨_, _, _, _, rfl⟩ := h
    exact .silent ⟨rfl, rfl, rfl, rfl⟩ rfl
  | setLogging | setTranslation | setSwitchmode | setTrimpolicy =>
    simp only [dispatch, setLogging, setTranslation, setSwitchmode, setTrimpolicy,
      Option.bind_eq_bind, Option.bind_eq_some_iff, Option.some.injEq] at h
    obtain ⟨_, _, rfl⟩ := h
    exact .silent ⟨rfl, rfl, rfl, rfl⟩ rfl
  | echoReply =>
    cases h
    exact .silent (.refl _) rfl
  | setNetworkIgnoreList =>
    simp only [dispatch, setNetworkIgnoreList, Option.bind_eq_bind, Option.bind_eq_some_iff] at h
    obtain ⟨_, _, h⟩ := h
    split at h
    · simp only [Option.bind_eq_some_iff, Option.some.injEq] at h
      obtain ⟨_, _, rfl⟩ := h
      exact .silent ⟨rfl, rfl, rfl, rfl⟩ rfl
    · cases h
      exact .silent (.refl _) rfl

theorem handlePacket_cases {d : Datagram} {o : ControllerAccess.Outcome}
    (h : ControllerAccess.handlePacket libs env c d = some o) :
    (∃ packet, o.state = sendToTap c packet ∧ o.output = [] ∧ fedBy (.datagram env d) = []) ∨
    (∃ packet, o.state = doPacketSend c packet ∧ o.output = [] ∧ fedBy (.datagram env d) = [packet]) ∨
    ∃ rpcCalls output more, Handled libs env { c with rpcCalls := rpcCalls } d.addr o.state output ∧
      o.output = output ++ more ∧ (∀ x ∈ more, Tells d.addr x) ∧ fedBy (.datagram env d) = [] := by
  unfold ControllerAccess.handlePacket at h
  dsimp only at h
  split at h
  · next htap =>
    rw [Option.map_eq_some_iff] at h
    obtain ⟨packet, _, rfl⟩ := h
    have hicc : ¬ (d.buffer 1 = kICCControl ∨ d.buffer 1 = kICCPacket) := by
      rw [htap]
      decide
    exact .inl ⟨packet, rfl, rfl, if_neg hicc⟩
  · split at h
    · next hicc =>
      rw [Option.map_eq_some_iff] at h
      obtain ⟨packet, hp, rfl⟩ := h
      exact .inr (.inl ⟨packet, rfl, rfl, by simp [fedBy, hicc, hp]⟩)
    · next hicc =>
      rw [Option.map_eq_some_iff] at h
      obtain ⟨o, ho, rfl⟩ := h
      simp only [handleRequest, Option.bind_eq_bind, Option.bind_eq_some_iff] at ho
      obtain ⟨message, _, method, _, o', hd, ho⟩ := ho
      have hhandled := handled_dispatch hd
      have hfed : fedBy (.datagram env d) = [] := if_neg hicc
      split at ho
      · cases ho
        exact .inr (.inr ⟨_, _, [], hhandled, by simp, by simp, hfed⟩)
      · cases ho
        exact .inr (.inr ⟨_, _, _, hhandled, rfl, fun x hx => tells_of_sendTo hx, hfed⟩)

theorem answers_handled {addr : SocketAddress} {c' : Controller} {output : List Effect}
    (h : Handled libs env c addr c' output) : ∀ x ∈ output, Answers addr x := by
  intro x hx
  cases h with
  | answered h =>
    obtain h | ⟨y, hy, rfl⟩ := h x hx
    · exact .reply h
    · exact .stanza hy
  | silent => cases hx
  | setup | addIPMapping =>
    obtain ⟨call, _, rfl⟩ := List.mem_map.mp hx
    exact .tap call

theorem answers_handlePacket {d : Datagram} {o : ControllerAccess.Outcome}
    (h : ControllerAccess.handlePacket libs env c d = some o) : ∀ x ∈ o.output, Answers d.addr x := by
  obtain ⟨_, _, ho, _⟩ | ⟨_, _, ho, _⟩ | ⟨_, output, more, hh, ho, hmore, _⟩ := handlePacket_cases h
  · simp [ho]
  · simp [ho]
  · intro x hx
    rw [ho] at hx
    obtain hx | hx := List.mem_append.mp hx
    · exact answers_handled hh x hx
    · exact .reply (hmore x hx)

theorem sent_signal (libs : Libs) (env : Env) (s : State) (msg : PeerMessage) :
    ∃ new, (signal libs env s msg).sent = s.sent ++ new ∧
    ∀ x ∈ new, Tells s.controller.remoteAddr x ∨ ∃ y, Whole y ∧ x = .stanza y := by
  unfold signal
  dsimp only
  split
  · exact ⟨[], by simp, by simp⟩
  · exact ⟨_, rfl, fun x hx => .inl (tells_of_sendTo hx)⟩
  · refine ⟨_, rfl, fun x hx => ?_⟩
    obtain ⟨y, hy, rfl⟩ := List.mem_map.mp hx
    exact .inr ⟨y, whole_sendToPeer hy, rfl⟩

theorem sent_signals (libs : Libs) (env : Env) (s : State) (msgs : List PeerMessage) :
    ∃ new, (msgs.foldl (signal libs env) s).sent = s.sent ++ new ∧
      ∀ x ∈ new, Tells s.controller.remoteAddr x ∨ ∃ y, Whole y ∧ x = .stanza y := by
  induction msgs generalizing s with
  | nil => exact ⟨[], by simp, by simp⟩
  | cons msg msgs ih =>
    obtain ⟨new, hnew, he⟩ := sent_signal libs env s msg
    obtain ⟨new', hnew', he'⟩ := ih (signal libs env s msg)
    rw [(signal_frame libs env s msg).1] at he'
    refine ⟨new ++ new', by rw [List.foldl_cons, hnew', hnew, List.append_assoc], fun x hx => ?_⟩
    obtain hx | hx := List.mem_append.mp hx
    · exact he x hx
    · exact he' x hx

theorem emits_notified {e : Event} {x : Effect}
    (h : Tells s.controller.remoteAddr x ∨ ∃ y, Whole y ∧ x = .stanza y) : Emits libs s e x := by
  obtain h | ⟨y, hy, rfl⟩ := h
  · exact .notice h
  · exact .stanza e hy

theorem emits_signals (e : Event) (msgs : List PeerMessage) (hsent : t.sent = s.sent)
    (hremote : t.controller.remoteAddr = s.controller.remoteAddr) :
    ∃ new, (msgs.foldl (signal libs env) t).sent = s.sent ++ new ∧ ∀ x ∈ new, Emits libs s e x := by
  obtain ⟨new, hnew, he⟩ := sent_signals libs env t msgs
  rw [hsent] at hnew
  rw [hremote] at he
  exact ⟨new, hnew, fun x hx => emits_notified (he x hx)⟩

theorem emits_absorb (e : Event) (o : ConnectionManager.Outcome) :
    ∃ new, (absorb libs env s o).sent = s.sent ++ new ∧ ∀ x ∈ new, Emits libs s e x :=
  emits_signals e o.sent rfl rfl

theorem emits_withNetwork (e : Event) (n : XmppNetwork.Network) {sent : List Xmpp.Output}
    (h : ∀ y ∈ sent, Whole y) :
    ∃ new, (s.withNetwork n sent).sent = s.sent ++ new ∧ ∀ x ∈ new, Emits libs s e x := by
  refine ⟨sent.map .stanza, rfl, fun x hx => ?_⟩
  obtain ⟨y, hy, rfl⟩ := List.mem_map.mp hx
  exact .stanza e (h y hy)

theorem whole_onStateChange {X : Xmpp.Api} {n : XmppNetwork.Network} {state : Xmpp.EngineState} :
    ∀ y ∈ (n.onStateChange X state).2, Whole y := by
  unfold XmppNetwork.Network.onStateChange XmppNetwork.Network.onSignOn
  dsimp only
  split
  · split <;> simp [Whole]
  · simp

theorem whole_onMessage {n : XmppNetwork.Network} {anyChildError : Bool} :
    ∀ y ∈ (n.onMessage anyChildError).2, Whole y := by
  obtain ⟨n', sent, ht, heq⟩ := XmppNetwork.onMessage_tick n anyChildError
  rw [heq]
  cases ht <;> simp [Whole]

theorem sent_queueSignal {memory : Nat → Byte} (h : step libs s (.queueSignal memory) = some t) :
    ∃ packet queue out, s.controller.sendQueue = packet :: queue ∧ t.controller.sendQueue = queue ∧
      t.sent = s.sent ++ out ∧ (out = [] ∨ ∃ o, out = [.packet o] ∧ kHeaderSize ≤ packet.length ∧
        SendPath.Carries libs.jingle s.controller.manager packet o) := by
  simp only [step, running_of_step h, Bool.false_eq_true, ↓reduceIte, Option.ite_none_left_eq_some,
    Option.map_eq_some_iff] at h
  obtain ⟨_, ⟨c, out⟩, hh, rfl⟩ := h
  simp only [handleQueueSignal, Option.bind_eq_bind, Option.bind_eq_some_iff, Option.some.injEq,
    Prod.mk.injEq] at hh
  obtain ⟨⟨packet, queue⟩, hremove, ⟨m, out⟩, hh, rfl, rfl⟩ := hh
  refine ⟨packet, queue, _, WQueue.remove_eq_some hremove, rfl, rfl, ?_⟩
  obtain hl | hl := Nat.lt_or_ge packet.length kHeaderSize
  · rw [PacketPath.handlePacket_short _ _ hl] at hh
    cases hh
    exact .inl rfl
  · obtain ⟨o, hout, hcarries⟩ := SendPath.handlePacket_once hl hh
    change out = [o] at hout
    rw [hout]
    exact .inr ⟨o, rfl, hl, hcarries⟩

theorem emits_of_step {e : Event} (h : step libs s e = some t) :
    ∃ new, t.sent = s.sent ++ new ∧ ∀ x ∈ new, Emits libs s e x := by
  have hrun := running_of_step h
  have hquiet : t.sent = s.sent → ∃ new, t.sent = s.sent ++ new ∧ ∀ x ∈ new, Emits libs s e x :=
    fun hs => ⟨[], by rw [hs, List.append_nil], by simp⟩
  cases e with
  | queueSignal memory =>
    obtain ⟨packet, queue, out, hq, _, hsent, rfl | ⟨o, rfl, hl, ho⟩⟩ := sent_queueSignal h
    · exact ⟨[], hsent, by simp⟩
    · refine ⟨[.packet o], hsent, fun x hx => ?_⟩
      rw [List.mem_singleton.mp hx]
      exact .handled hq hl ho
  | datagram env d =>
    simp only [step, hrun, Bool.false_eq_true, ↓reduceIte] at h
    split at h
    · cases h
      exact hquiet rfl
    · next o ho =>
      cases h
      refine ⟨o.output, rfl, fun x hx => ?_⟩
      cases answers_handlePacket ho x hx with
      | reply h => exact .reply h
      | stanza hy => exact .stanza _ hy
      | tap call => exact .tap env d call
  | candidatesAllocationDone env x =>
    simp only [step, hrun, Bool.false_eq_true, ↓reduceIte, Option.some.injEq] at h
    subst h
    exact emits_absorb _ _
  | rwChangeState env x =>
    simp only [step, hrun, Bool.false_eq_true, ↓reduceIte, Option.some.injEq] at h
    subst h
    exact emits_absorb _ _
  | processStart env =>
    simp only [step, hrun, Bool.false_eq_true, ↓reduceIte] at h
    split at h
    · cases h
      exact hquiet rfl
    · next n call _ =>
      cases h
      exact emits_signals _ _ (List.append_nil _) rfl
  | stateChange jid state =>
    simp only [step, hrun, Bool.false_eq_true, ↓reduceIte, Option.map_eq_some_iff] at h
    obtain ⟨pump, _, rfl⟩ := h
    exact emits_withNetwork _ _ whole_onStateChange
  | timer anyChildError =>
    simp only [step, hrun, Bool.false_eq_true, ↓reduceIte, Option.ite_none_left_eq_some,
      Option.some.injEq] at h
    obtain ⟨_, rfl⟩ := h
    exact emits_withNetwork _ _ whole_onMessage
  | stanza stanza =>
    simp only [step, hrun, Bool.false_eq_true, ↓reduceIte, Option.some.injEq] at h
    subst h
    exact emits_withNetwork _ _ (by simp)
  | candidatesReady x candidates =>
    simp only [step, hrun, Bool.false_eq_true, ↓reduceIte, Option.some.injEq] at h
    subst h
    exact hquiet rfl
  | linkStatus x a b c d =>
    simp only [step, hrun, Bool.false_eq_true, ↓reduceIte, Option.map_eq_some_iff] at h
    obtain ⟨tr, _, rfl⟩ := h
    exact hquiet rfl
  | readPacket channel data =>
    simp only [step, hrun, Bool.false_eq_true, ↓reduceIte] at h
    split at h <;> cases h <;> exact hquiet rfl
  | tapSend data =>
    simp only [step, hrun, Bool.false_eq_true, ↓reduceIte, Option.some.injEq] at h
    subst h
    exact hquiet rfl
  | tapRecv len =>
    simp only [step, hrun, Bool.false_eq_true, ↓reduceIte, Option.map_eq_some_iff] at h
    obtain ⟨⟨c, packet⟩, _, rfl⟩ := h
    exact hquiet rfl

theorem Heard.mono {es : List Event} {addr : SocketAddress} (e : Event) (h : Heard es addr) :
    Heard (es ++ [e]) addr := by
  obtain ⟨env, d, hd, ha⟩ := h
  exact ⟨env, d, List.mem_append_left _ hd, ha⟩

theorem Asked.mono {es : List Event} {addr : SocketAddress} (e : Event) (h : Asked libs s es addr) :
    Asked libs s (es ++ [e]) addr := by
  obtain ⟨es₁, e₁, es₂, r, sender, ip, port, rfl, hr, hask, ha⟩ := h
  exact ⟨es₁, e₁, es₂ ++ [e], r, sender, ip, port, by simp, hr, hask, ha⟩

theorem Expected.mono {es : List Event} {via : UdpSocket} {datagram : Bytes} {addr : SocketAddress}
    (e : Event) (h : Expected libs s es via datagram addr) :
    Expected libs s (es ++ [e]) via datagram addr := by
  obtain ⟨pv, hd, hf, ha⟩ | ⟨type, packet, hd, hl, hv, ha⟩ := h
  · exact .inl ⟨pv, hd, hf, ha.imp (Heard.mono e) (Asked.mono e)⟩
  · exact .inr ⟨type, packet, hd, hl, hv, ha.imp_right (Asked.mono e)⟩

theorem remoteAddr_of_run {es : List Event} (h : Run (Steps (step libs)) s es t) :
    t.controller.remoteAddr = s.controller.remoteAddr ∨ Asked libs s es t.controller.remoteAddr := by
  induction h with
  | nil => exact .inl rfl
  | @snoc u v es e hr hst ih =>
    cases hask : asks libs u.controller e with
    | none =>
      rw [(unasked_step hask hst).remoteAddr]
      exact ih.imp_right (Asked.mono e)
    | some request =>
      obtain ⟨sender, ip, port⟩ := request
      exact .inr ⟨es, e, [], u, sender, ip, port, rfl, hr, hask, (asked_step hask hst).remoteAddr⟩

theorem expected_of_emits {es : List Event} {e : Event} {via : UdpSocket} {datagram : Bytes}
    {addr : SocketAddress} (hs : Initial s) (hr : Run (Steps (step libs)) s es t)
    (h : Emits libs t e (.packet (.sendTo via datagram addr))) :
    Expected libs s (es ++ [e]) via datagram addr := by
  have hremote := (remoteAddr_of_run hr).imp_right (Asked.mono e)
  cases h with
  | @reply env d _ h =>
    obtain ⟨via, pv, hf, hx⟩ := h
    cases hx
    exact .inl ⟨pv, rfl, hf, .inl ⟨env, d, by simp, rfl⟩⟩
  | notice h =>
    have hfamily := tells_family h
    obtain ⟨via, pv, hf, hx⟩ := h
    cases hx
    refine .inl ⟨pv, rfl, hf, .inr (hremote.resolve_left fun he => hfamily ?_)⟩
    obtain ⟨_, _, _, _, _, _, _, rfl⟩ := hs
    rw [he]
    rfl
  | @handled memory packet queue _ hq hl ho =>
    have hm : Mirrored t.controller := mirrored_of_reachable ⟨s, es, hs, hr⟩
    obtain ⟨_, _, _, _, _, _, _, hx⟩ | ⟨type, hx⟩ := ho
    · cases hx
    · cases hx
      exact .inr ⟨type, packet, rfl, hl, hm.socket, hm.addr ▸ hremote⟩

/-- Nothing is sent to third parties: in every run, each datagram that has left
the process is a control message or a whole packet for somebody who asked. -/
theorem datagrams_are_expected (libs : Libs) {es : List Event} (hs : Initial s)
    (hr : Run (Steps (step libs)) s es t) :
    ∀ via datagram addr, Effect.packet (.sendTo via datagram addr) ∈ t.sent →
      Expected libs s es via datagram addr := by
  intro via datagram addr
  induction hr with
  | nil =>
    intro hx
    obtain ⟨_, _, _, _, _, _, _, rfl⟩ := hs
    cases hx
  | snoc hr hst ih =>
    intro hx
    obtain ⟨new, hnew, he⟩ := emits_of_step hst
    rw [hnew] at hx
    obtain hx | hx := List.mem_append.mp hx
    · exact (ih hx).mono _
    · exact expected_of_emits hs hr (he _ hx)

def forwardingEvents : List Event :=
  [.datagram sampleEnv (fromSix (endpointDatagram (bytes "::"))), .tapSend (List.replicate 42 0),
    .queueSignal fun _ => 0]

theorem datagrams_are_expected_forwarding : ∃ t, replay (step endpointLibs) startState forwardingEvents = some t ∧
    t.sent.length = 1 ∧ ∀ via datagram addr, Effect.packet (.sendTo via datagram addr) ∈ t.sent →
      Expected endpointLibs startState forwardingEvents via datagram addr := by
  have hrun : ∃ t, replay (step endpointLibs) startState forwardingEvents = some t ∧ t.sent.length = 1 :=
    ⟨_, rfl, rfl⟩
  obtain ⟨t, ht, hsent⟩ := hrun
  exact ⟨t, ht, hsent, datagrams_are_expected endpointLibs startState_initial (run_of_replay ht)⟩

end

end Tincan.Emissions
