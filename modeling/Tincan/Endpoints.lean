import Tincan.LinkChanges
import Tincan.SendPath

namespace Tincan.Endpoints

open Tincan.Library Tincan.Library.Text Tincan.Library.Runs Tincan.Libjingle Tincan.Utils
open Tincan.ConnectionManager Tincan.PacketPath Tincan.ControllerAccess Tincan.Process

def endpointFields (libs : Libs) (root : Json.Value) : Option (Bytes × Int) := do
  let ip ← libs.json.string root (bytes "ip")
  let port ← libs.json.int root (bytes "port")
  some (ip, port)

def endpointRequest (libs : Libs) (c : Controller) (d : Datagram) : Option (Bytes × Int) := do
  let (_, call, root) ← requestOf libs c d
  if call = .setCbEndpoint then endpointFields libs root else none

def asks (libs : Libs) (c : Controller) : Event → Option (SocketAddress × Bytes × Int)
  | .datagram _ d => (endpointRequest libs c d).map (fun (ip, port) => (d.addr, ip, port))
  | _ => none

def socketFamily : UdpSocket → AddressFamily
  | .socket => .inet
  | .socket6 => .inet6

def textFamily (L : Api) (ip : Bytes) : AddressFamily := (L.setIP ⟨[], .unspec, 0⟩ ip).family

def askedFamily (L : Api) (sender : SocketAddress) (ip : Bytes) : AddressFamily :=
  if ip = bytes "::" then sender.family else textFamily L ip

def Forwards (libs : Libs) (c : Controller) (via : UdpSocket) (addr : SocketAddress) : Prop :=
  ∃ memory data m out datagram,
    PacketPath.handlePacket libs.jingle memory c.manager data = some (m, out) ∧
      Output.sendTo via datagram addr ∈ out

/-- A forwarded datagram goes the way of the notifications. -/
structure Matched (libs : Libs) (c : Controller) (via : UdpSocket) (addr : SocketAddress) : Prop where
  destination : addr = c.remoteAddr
  family : socketFamily via = addr.family
  notified : ∀ env uid data type, ∃ note,
    sendToPeer libs env c uid data type = [.packet (.sendTo via note addr)]

/-- The two copies of the endpoint agree, and the socket is the one that the
constructor chose. -/
structure Mirrored (c : Controller) : Prop where
  socket : c.manager.forwardSocket = .socket6
  addr : c.manager.forwardAddr = c.remoteAddr

structure Redirected (addr : SocketAddress) (c c' : Controller) : Prop where
  remoteAddr : c'.remoteAddr = addr
  socket : c'.manager.forwardSocket = c.manager.forwardSocket
  addr : c'.manager.forwardAddr = addr

structure Kept (c c' : Controller) : Prop where
  remoteAddr : c'.remoteAddr = c.remoteAddr
  socket : c'.manager.forwardSocket = c.manager.forwardSocket
  addr : c'.manager.forwardAddr = c.manager.forwardAddr

def Unasked (libs : Libs) (s : State) (e : Event) : Prop := asks libs s.controller e = none

def AsksSix (libs : Libs) (s : State) (e : Event) : Prop :=
  ∀ sender ip port, asks libs s.controller e = some (sender, ip, port) →
    askedFamily libs.jingle sender ip = .inet6

section

variable {libs : Libs} {c c' : Controller}

theorem Kept.refl (c : Controller) : Kept c c := ⟨rfl, rfl, rfl⟩

theorem Kept.trans {c'' : Controller} (h : Kept c c') (h' : Kept c' c'') : Kept c c'' :=
  ⟨h'.remoteAddr.trans h.remoteAddr, h'.socket.trans h.socket, h'.addr.trans h.addr⟩

theorem Mirrored.keep (h : Mirrored c) (hk : Kept c c') : Mirrored c' :=
  ⟨hk.socket.trans h.socket, (hk.addr.trans h.addr).trans hk.remoteAddr.symm⟩

theorem forwards_eq {via : UdpSocket} {addr : SocketAddress} (h : Forwards libs c via addr) :
    via = c.manager.forwardSocket ∧ addr = c.manager.forwardAddr := by
  obtain ⟨memory, data, m, out, datagram, hh, hmem⟩ := h
  obtain hl | hl := Nat.lt_or_ge data.length kHeaderSize
  · rw [handlePacket_short _ _ hl] at hh
    cases hh
    cases hmem
  · obtain ⟨o, hout, hcarries⟩ := SendPath.handlePacket_once hl hh
    change out = [o] at hout
    rw [hout, List.mem_singleton] at hmem
    subst hmem
    obtain ⟨_, _, _, _, _, _, _, ho⟩ | ⟨type, ho⟩ := hcarries
    · cases ho
    · cases ho
      exact ⟨rfl, rfl⟩

theorem forwards_of_noRoute (data : Bytes) (h : kHeaderSize ≤ data.length)
    (hr : c.manager.shortUidMap (destKey libs.jingle data) = none) :
    Forwards libs c c.manager.forwardSocket c.manager.forwardAddr :=
  ⟨fun _ => 0, data, _, _, _, handlePacket_noRoute _ _ h hr, List.mem_singleton_self _⟩

theorem matched_iff (hc : Mirrored c) {via : UdpSocket} {addr : SocketAddress}
    (h : Forwards libs c via addr) :
    addr = c.remoteAddr ∧ (Matched libs c via addr ↔ c.remoteAddr.family = .inet6) := by
  obtain ⟨hvia, haddr⟩ := forwards_eq h
  rw [hc.socket] at hvia
  rw [hc.addr] at haddr
  subst hvia haddr
  refine ⟨rfl, ?_⟩
  constructor
  · intro hm
    exact hm.family.symm
  · intro hfamily
    refine ⟨rfl, hfamily.symm, ?_⟩
    intro env uid data type
    simp only [sendToPeer, sendTo, hfamily]
    exact ⟨_, rfl⟩

theorem family_endpoint (hjingle : libs.jingle.SetsFields) (a sender : SocketAddress) (ip : Bytes)
    (port : Int) : (endpoint libs a sender ip port).family = askedFamily libs.jingle sender ip := by
  obtain ⟨⟨readIp, hip⟩, readPort, hport⟩ := hjingle
  unfold endpoint askedFamily textFamily
  split
  · rfl
  · rw [hport, hip, hip]
    rfl

theorem kept_setup (env : Env) (c : Controller) (r : SetupRequest) :
    Kept c { c with manager := (setup libs.jingle env.memory c.manager r).1 } := by
  unfold setup
  split <;> exact ⟨rfl, rfl, rfl⟩

theorem kept_addIPMapping (env : Env) (c : Controller) (uid ip4 ip6 : Bytes) :
    Kept c { c with manager := (addIPMapping libs.jingle env.memory c.manager uid ip4 ip6).1 } := by
  unfold addIPMapping
  split <;> exact ⟨rfl, rfl, rfl⟩

theorem kept_createTransport (L : Api) (c : Controller) (r : CreateRequest)
    (f : ConnectionManager.Fresh) : Kept c { c with manager := (createTransport L c.manager r f).1 } := by
  obtain ⟨_, hm⟩ | ⟨_, tr, hm⟩ := LinkChanges.createTransport_cases L c.manager r f
  · rw [hm]
    exact .refl c
  · rw [hm]
    exact ⟨rfl, rfl, rfl⟩

theorem kept_giveCandidates {m : Manager} {uid cas : Bytes}
    (h : giveCandidates libs c.manager uid cas = some m) : Kept c { c with manager := m } := by
  obtain rfl | ⟨p, tr, candidates, _, _, _, rfl⟩ := LinkChanges.giveCandidates_cases h
  · exact .refl c
  · exact ⟨rfl, rfl, rfl⟩

theorem kept_trim {m : Manager} {uid : Bytes} {done : Bool} {log : List ConnectionManager.Log}
    (h : destroyTransport c.manager uid = some (m, done, log)) : Kept c { c with manager := m } := by
  obtain ⟨_, rfl⟩ | ⟨p, _, rfl⟩ := LinkChanges.destroyTransport_cases h <;> exact ⟨rfl, rfl, rfl⟩

theorem asked_dispatch {env : Env} {root : Json.Value} {method ip : Bytes} {port : Int}
    (sender : SocketAddress) (h : endpointFields libs root = some (ip, port)) :
    (dispatch libs env c root method sender .setCbEndpoint).map Outcome.state = some { c with
      remoteAddr := endpoint libs c.remoteAddr sender ip port
      manager := { c.manager with forwardAddr := endpoint libs c.remoteAddr sender ip port } } := by
  simp only [endpointFields, Option.bind_eq_bind, Option.bind_eq_some_iff, Option.some.injEq,
    Prod.mk.injEq] at h
  obtain ⟨ip, hip, port, hport, rfl, rfl⟩ := h
  simp only [dispatch, setCbEndpoint, hip, hport, Option.bind_eq_bind, Option.bind_some, Option.map_some]

theorem unasked_dispatch {env : Env} {root : Json.Value} {method : Bytes} (sender : SocketAddress)
    (h : endpointFields libs root = none) :
    dispatch libs env c root method sender .setCbEndpoint = none := by
  unfold endpointFields at h
  simp only [dispatch, setCbEndpoint]
  cases hip : libs.json.string root (bytes "ip") with
  | none => rfl
  | some ip =>
    cases hport : libs.json.int root (bytes "port") with
    | none => rfl
    | some port => simp [hip, hport] at h

theorem kept_dispatch {env : Env} {root : Json.Value} {method : Bytes} {sender : SocketAddress}
    {call : RpcCall} {o : ControllerAccess.Outcome}
    (h : dispatch libs env c root method sender call = some o) (hcall : call ≠ .setCbEndpoint) :
    Kept c o.state := by
  cases call with
  | setCbEndpoint => exact absurd rfl hcall
  | createLink =>
    simp only [dispatch, createLink, Option.bind_eq_bind, Option.bind_eq_some_iff,
      Option.some.injEq] at h
    obtain ⟨⟨r, cas⟩, _, m, hm, rfl⟩ := h
    exact (kept_createTransport libs.jingle c r env.fresh).trans
      (kept_giveCandidates (c := { c with manager := (createTransport libs.jingle c.manager r
        env.fresh).1 }) hm)
  | trimLink =>
    simp only [dispatch, trimLink, Option.bind_eq_bind, Option.bind_eq_some_iff,
      Option.some.injEq] at h
    obtain ⟨uid, _, ⟨m, done, log⟩, hd, rfl⟩ := h
    exact kept_trim hd
  | setLocalIp =>
    simp only [dispatch, setLocalIp, Option.bind_eq_bind, Option.bind_eq_some_iff,
      Option.some.injEq] at h
    obtain ⟨_, _, _, _, _, _, _, _, _, _, _, _, _, _, rfl⟩ := h
    exact kept_setup env c _
  | setRemoteIp =>
    simp only [dispatch, setRemoteIp, Option.bind_eq_bind, Option.bind_eq_some_iff,
      Option.some.injEq] at h
    obtain ⟨uid, _, ip4, _, ip6, _, rfl⟩ := h
    exact kept_addIPMapping env c uid ip4 ip6
  | registerSvc =>
    simp only [dispatch, registerSvc, Option.bind_eq_bind, Option.bind_eq_some_iff,
      Option.some.injEq] at h
    obtain ⟨_, _, _, _, _, _, _, _, rfl⟩ := h
    exact ⟨rfl, rfl, rfl⟩
  | getState | unknown =>
    simp only [dispatch, getStateCall, relay, Option.bind_eq_bind, Option.bind_eq_some_iff,
      Option.some.injEq] at h
    obtain ⟨_, _, _, _, _, _, rfl⟩ := h
    exact .refl c
  | setLogging | setTranslation | setSwitchmode | setTrimpolicy | echoRequest =>
    simp only [dispatch, setLogging, setTranslation, setSwitchmode, setTrimpolicy, echoRequest,
      Option.bind_eq_bind, Option.bind_eq_some_iff, Option.some.injEq] at h
    obtain ⟨_, _, rfl⟩ := h
    exact ⟨rfl, rfl, rfl⟩
  | echoReply =>
    cases h
    exact .refl c
  | setNetworkIgnoreList =>
    simp only [dispatch, setNetworkIgnoreList, Option.bind_eq_bind, Option.bind_eq_some_iff] at h
    obtain ⟨_, _, h⟩ := h
    split at h
    · simp only [Option.bind_eq_some_iff, Option.some.injEq] at h
      obtain ⟨_, _, rfl⟩ := h
      exact ⟨rfl, rfl, rfl⟩
    · cases h
      exact .refl c

theorem asked_handlePacket {d : Datagram} {ip : Bytes} {port : Int} (env : Env)
    (h : endpointRequest libs c d = some (ip, port)) :
    ∃ o, handlePacket libs env c d = some o ∧
      Redirected (endpoint libs c.remoteAddr d.addr ip port) c o.state := by
  simp only [endpointRequest, Option.bind_eq_bind, Option.bind_eq_some_iff] at h
  obtain ⟨⟨method, call, root⟩, hreq, h⟩ := h
  split at h
  · next hcall =>
    subst hcall
    have hstate := handlePacket_request env hreq
    rw [asked_dispatch d.addr h, Option.map_eq_some_iff] at hstate
    obtain ⟨o, ho, hstate⟩ := hstate
    refine ⟨o, ho, ?_⟩
    rw [hstate]
    exact ⟨rfl, rfl, rfl⟩
  · cases h

theorem unasked_handlePacket {env : Env} {d : Datagram} {o : ControllerAccess.Outcome}
    (h : endpointRequest libs c d = none) (ho : handlePacket libs env c d = some o) :
    Kept c o.state := by
  cases hreq : requestOf libs c d with
  | none =>
    obtain ⟨packet, hs | hs⟩ := handlePacket_packet hreq ho <;> rw [hs] <;> exact ⟨rfl, rfl, rfl⟩
  | some request =>
    obtain ⟨method, call, root⟩ := request
    have hstate := handlePacket_request env hreq
    rw [ho, Option.map_some, eq_comm, Option.map_eq_some_iff] at hstate
    obtain ⟨o', hd, hstate⟩ := hstate
    rw [← hstate]
    by_cases hcall : call = .setCbEndpoint
    · subst hcall
      simp only [endpointRequest, hreq, Option.bind_eq_bind, Option.bind_some, ↓reduceIte] at h
      rw [unasked_dispatch d.addr h] at hd
      cases hd
    · obtain ⟨haddr, hsocket, hforward⟩ := kept_dispatch hd hcall
      exact ⟨haddr, hsocket, hforward⟩

theorem kept_controller {e : Event} {taken : List Xmpp.Stanza} {msgs : List PeerMessage}
    (h : ControllerStep libs c e c' taken msgs) (he : ∀ env d, e ≠ .datagram env d) : Kept c c' := by
  cases h with
  | datagram h => exact absurd rfl (he _ _)
  | candidatesReady t candidates =>
    obtain ⟨_, hm⟩ | ⟨_, _, _, hm⟩ := LinkChanges.onCandidatesReady_cases libs.jingle c.manager t
      candidates <;> rw [hm] <;> exact ⟨rfl, rfl, rfl⟩
  | candidatesAllocationDone env t =>
    rw [LinkChanges.onCandidatesAllocationDone_manager]
    exact ⟨rfl, rfl, rfl⟩
  | rwChangeState env t =>
    obtain hm | ⟨hm, _⟩ := LinkChanges.onRWChangeState_cases c.manager t <;> rw [hm] <;>
      exact ⟨rfl, rfl, rfl⟩
  | queueSignal h =>
    obtain ⟨_, _, _, rfl⟩ := handleQueueSignal_eq_some h
    exact ⟨rfl, rfl, rfl⟩
  | readPacket h =>
    have hm := PacketPath.onReadPacket_manager _ h
    subst hm
    exact ⟨rfl, rfl, rfl⟩
  | tapRecv h =>
    obtain ⟨_, _, _, rfl, _⟩ := doPacketRecv_eq_some h
    exact ⟨rfl, rfl, rfl⟩
  | same | linkStatus | stateChange | timer | stanza | processStart | tapSend => exact ⟨rfl, rfl, rfl⟩

end

section

variable {libs : Libs} {s t : State} {e : Event} {es : List Event} {sender : SocketAddress} {ip : Bytes}
  {port : Int}

theorem asked_step (hask : asks libs s.controller e = some (sender, ip, port))
    (hst : step libs s e = some t) :
    Redirected (endpoint libs s.controller.remoteAddr sender ip port) s.controller t.controller := by
  cases e with
  | datagram env d =>
    simp only [asks, Option.map_eq_some_iff, Prod.mk.injEq] at hask
    obtain ⟨⟨ip, port⟩, hreq, rfl, rfl, rfl⟩ := hask
    obtain ⟨o, ho, hredirected⟩ := asked_handlePacket env hreq
    obtain ⟨o', ho', hc⟩ | ⟨hnone, _⟩ := datagram_step hst
    · obtain rfl := Option.some.inj (ho.symm.trans ho')
      rw [hc]
      exact hredirected
    · rw [ho] at hnone
      cases hnone
  | _ => cases hask

theorem unasked_step (hask : asks libs s.controller e = none) (hst : step libs s e = some t) :
    Kept s.controller t.controller := by
  have hquiet : (∀ env d, e ≠ .datagram env d) → Kept s.controller t.controller := by
    intro he
    obtain ⟨taken, msgs, hc⟩ := controllerStep_of_step hst
    exact kept_controller hc he
  cases e with
  | datagram env d =>
    rw [asks, Option.map_eq_none_iff] at hask
    obtain ⟨o, ho, hc⟩ | ⟨_, hc⟩ := datagram_step hst <;> rw [hc]
    · exact unasked_handlePacket hask ho
    · exact .refl _
  | _ => exact hquiet (by simp)

theorem mirrored_step (h : Mirrored s.controller) (hst : step libs s e = some t) :
    Mirrored t.controller := by
  cases hask : asks libs s.controller e with
  | none => exact h.keep (unasked_step hask hst)
  | some request =>
    obtain ⟨sender, ip, port⟩ := request
    obtain ⟨hremote, hsocket, haddr⟩ := asked_step hask hst
    exact ⟨hsocket.trans h.socket, haddr.trans hremote.symm⟩

theorem mirrored_of_reachable (h : Reachable (Steps (step libs)) Initial s) : Mirrored s.controller := by
  refine reachable_invariant (P := fun s => Mirrored s.controller) ?_ ?_ h
  · rintro s ⟨_, _, _, _, _, _, _, rfl⟩
    exact ⟨rfl, rfl⟩
  · intro s e t hs hst
    exact mirrored_step hs hst

theorem mirrored_run {guard : State → Event → Prop} (h : Mirrored s.controller)
    (hrun : Run (Guarded guard (Steps (step libs))) s es t) : Mirrored t.controller :=
  run_invariant (P := fun s => Mirrored s.controller) (fun _ _ _ hs hst => mirrored_step hs hst.2) hrun h

theorem asked_family (hjingle : libs.jingle.SetsFields)
    (hask : asks libs s.controller e = some (sender, ip, port)) (hst : step libs s e = some t) :
    t.controller.remoteAddr.family = askedFamily libs.jingle sender ip := by
  rw [(asked_step hask hst).remoteAddr, family_endpoint hjingle]

theorem unasked_run (hrun : Run (Guarded (Unasked libs) (Steps (step libs))) s es t) :
    t.controller.remoteAddr = s.controller.remoteAddr := by
  refine run_invariant (P := fun u => u.controller.remoteAddr = s.controller.remoteAddr) ?_ hrun rfl
  rintro u e v hu ⟨hask, hst⟩
  exact (unasked_step hask hst).remoteAddr.trans hu

theorem six_run (hjingle : libs.jingle.SetsFields) (hs : s.controller.remoteAddr.family = .inet6)
    (hrun : Run (Guarded (AsksSix libs) (Steps (step libs))) s es t) :
    t.controller.remoteAddr.family = .inet6 := by
  refine run_invariant (P := fun u => u.controller.remoteAddr.family = .inet6) ?_ hrun hs
  rintro u e v hu ⟨hsix, hst⟩
  cases hask : asks libs u.controller e with
  | none =>
    rw [(unasked_step hask hst).remoteAddr]
    exact hu
  | some request =>
    obtain ⟨sender, ip, port⟩ := request
    exact (asked_family hjingle hask hst).trans (hsix sender ip port hask)

end

/-- After any history of requests a forwarded datagram has the address of the
notifications, and it goes through a socket of the right family exactly when
the last request was for an IPv6 address. -/
theorem endpoint_matched_iff (libs : Libs) (hjingle : libs.jingle.SetsFields) (s₀ s₁ : State) (e : Event)
    (sender : SocketAddress) (ip : Bytes) (port : Int)
    (hs₀ : Reachable (Steps (step libs)) Initial s₀)
    (hask : asks libs s₀.controller e = some (sender, ip, port)) (hst : step libs s₀ e = some s₁) :
    (∀ es s, Run (Guarded (Unasked libs) (Steps (step libs))) s₁ es s → ∀ via addr,
      Forwards libs s.controller via addr → addr = s.controller.remoteAddr ∧
        (Matched libs s.controller via addr ↔ askedFamily libs.jingle sender ip = .inet6)) ∧
    (askedFamily libs.jingle sender ip = .inet6 → ∀ es s,
      Run (Guarded (AsksSix libs) (Steps (step libs))) s₁ es s → ∀ via addr,
        Forwards libs s.controller via addr → Matched libs s.controller via addr) := by
  have hmirrored := mirrored_of_reachable (reachable_step hs₀ hst)
  have hfamily := asked_family hjingle hask hst
  constructor
  · intro es s hrun via addr hforwards
    obtain ⟨hsame, hiff⟩ := matched_iff (mirrored_run hmirrored hrun) hforwards
    rw [unasked_run hrun, hfamily] at hiff
    exact ⟨hsame, hiff⟩
  · intro hsix es s hrun via addr hforwards
    obtain ⟨_, hiff⟩ := matched_iff (mirrored_run hmirrored hrun) hforwards
    exact hiff.mpr (six_run hjingle (hfamily.trans hsix) hrun)

def endpointText (ip : Bytes) : Bytes :=
  bytes "\x7b\"m\":\"set_cb_endpoint\",\"port\":5801,\"ip\":\"" ++ ip ++ [34, 125]

def endpointValue (ip : Bytes) : Json.Value :=
  .object [(bytes "m", .string (bytes "set_cb_endpoint")), (bytes "port", .int 5801),
    (bytes "ip", .string ip)]

def localText : Bytes := bytes "127.0.0.1"

def endpointLibs : Libs := sampleLibs
  [(endpointText localText, endpointValue localText),
    (endpointText (bytes "::"), endpointValue (bytes "::"))]

def endpointDatagram (ip : Bytes) : Datagram :=
  datagramOf (kIpopVer :: kTincanControl :: endpointText ip)

def fromSix (d : Datagram) : Datagram := { d with addr := ⟨[], .v6 1, 5801⟩, family := by decide }

theorem endpoint_matched_iff_six : ∃ s₁,
    step endpointLibs startState (.datagram sampleEnv (fromSix (endpointDatagram (bytes "::")))) =
      some s₁ ∧
    Forwards endpointLibs s₁.controller .socket6 ⟨[], .v6 1, 5801⟩ ∧
    ∀ es s, Run (Guarded (AsksSix endpointLibs) (Steps (step endpointLibs))) s₁ es s → ∀ via addr,
      Forwards endpointLibs s.controller via addr → Matched endpointLibs s.controller via addr := by
  refine ⟨_, rfl, forwards_of_noRoute (List.replicate 40 0) (by decide) rfl, ?_⟩
  exact (endpoint_matched_iff endpointLibs plain_setsFields startState _
    (.datagram sampleEnv (fromSix (endpointDatagram (bytes "::")))) ⟨[], .v6 1, 5801⟩ (bytes "::") 5801
    (reachable_init startState_initial) rfl rfl).2 rfl

def localEndpoint : SocketAddress := ⟨localText, .v4 2130706433, 5801⟩

/-- A controller that asks for an IPv4 address is sent notifications by one socket
and packets by the other. -/
theorem forwarded_by_wrong_socket : ∃ s note,
    step endpointLibs startState (.datagram sampleEnv (endpointDatagram localText)) = some s ∧
    Reachable (Steps (step endpointLibs)) Initial s ∧
    Forwards endpointLibs s.controller .socket6 localEndpoint ∧ localEndpoint.family = .inet ∧
    sendToPeer endpointLibs sampleEnv s.controller [] [] [] =
      [.packet (.sendTo .socket note localEndpoint)] ∧
    ¬Matched endpointLibs s.controller .socket6 localEndpoint := by
  obtain ⟨s, note, hs, hforwards, hnote⟩ : ∃ s note,
      step endpointLibs startState (.datagram sampleEnv (endpointDatagram localText)) = some s ∧
      Forwards endpointLibs s.controller .socket6 localEndpoint ∧
      sendToPeer endpointLibs sampleEnv s.controller [] [] [] =
        [.packet (.sendTo .socket note localEndpoint)] :=
    ⟨_, _, rfl, forwards_of_noRoute (List.replicate 40 0) (by decide) rfl, rfl⟩
  refine ⟨s, note, hs, reachable_step (reachable_init startState_initial) hs, hforwards, rfl, hnote, ?_⟩
  intro h
  exact absurd h.family (by decide)

end Tincan.Endpoints
