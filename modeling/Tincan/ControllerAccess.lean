import Tincan.PacketPath
import Tincan.StateReport
import Tincan.XmppNetwork

namespace Tincan.ControllerAccess

open Tincan.Library Tincan.Library.Text Tincan.Libjingle Tincan.Utils
open Tincan.ConnectionManager Tincan.PacketPath Tincan.StateReport Tincan.XmppNetwork Tincan.Json

def kDefaultXmppPort : Int := 5222

/-- The values of the dispatch table, zero first. -/
inductive RpcCall
  | unknown
  | registerSvc
  | createLink
  | setLocalIp
  | setRemoteIp
  | trimLink
  | setCbEndpoint
  | getState
  | setLogging
  | setTranslation
  | setSwitchmode
  | setTrimpolicy
  | echoRequest
  | echoReply
  | setNetworkIgnoreList
  deriving DecidableEq

def initMap : PartialMap Bytes RpcCall :=
  [(bytes "register_svc", RpcCall.registerSvc), (bytes "create_link", .createLink),
    (bytes "set_local_ip", .setLocalIp), (bytes "set_remote_ip", .setRemoteIp),
    (bytes "trim_link", .trimLink), (bytes "set_cb_endpoint", .setCbEndpoint),
    (bytes "get_state", .getState), (bytes "set_logging", .setLogging),
    (bytes "set_translation", .setTranslation), (bytes "set_switchmode", .setSwitchmode),
    (bytes "set_trimpolicy", .setTrimpolicy), (bytes "echo_request", .echoRequest),
    (bytes "echo_reply", .echoReply),
    (bytes "set_network_ignore_list", .setNetworkIgnoreList)].foldl
      (fun m (method, call) => m.insert method call) PartialMap.empty

inductive LoggingSeverity
  | sensitive
  | verbose
  | info
  | warning
  | error
  | noLogging
  deriving DecidableEq

structure ThreadOpts where
  translate : Int
  switchmode : Int
  mac : Bytes

/-- Everything a control request can change: the members of the controller
access, the objects it refers to, and the queues shared with the tap threads. -/
structure Controller where
  manager : Manager
  network : Network
  opts : ThreadOpts
  remoteAddr : SocketAddress
  rpcCalls : PartialMap Bytes RpcCall
  logging : LoggingSeverity
  recvQueue : WQueue Bytes
  sendQueue : WQueue Bytes
  pending : Nat

inductive Effect
  | packet (o : PacketPath.Output)
  | stanza (s : Xmpp.Output)
  | tap (call : TapCall)
  deriving DecidableEq

inductive LogLine
  | versionMismatch (controller : Byte)
  | unknownMessageType
  | improperIgnoreList
  | shortUidMap (line : ConnectionManager.Log)
  deriving DecidableEq

structure Outcome where
  state : Controller
  output : List Effect
  log : List LogLine

/-- A datagram as its handler sees it: a pointer into the receive buffer, the
length received, and the sender. A length has 16 bits on the wire, and the
address of a sender has the family of a socket. -/
structure Datagram where
  buffer : Nat → Byte
  len : Nat
  addr : SocketAddress
  len_lt : len < 2 ^ 16
  family : addr.family ≠ .unspec

def Datagram.received (d : Datagram) : Bytes := (List.range d.len).map d.buffer

/-- What the surroundings contribute to one call: leftovers in new buffers,
new objects with the clock, and the statistics of the channels. -/
structure Env where
  memory : Nat → Byte
  fresh : Fresh
  stats : Ptr → List ConnectionInfo
  deriving Inhabited

/-- The libraries: sockets and transports, XMPP, and values. -/
structure Libs where
  jingle : Libjingle.Api
  xmpp : Xmpp.Api
  json : Json.Api

def sendTo (env : Env) (pv : Bytes) (addr : SocketAddress) : List Effect :=
  match addr.family with
  | .inet => [.packet (.sendTo .socket (frame env.memory (some kTincanControl) pv) addr)]
  | .inet6 => [.packet (.sendTo .socket6 (frame env.memory (some kTincanControl) pv) addr)]
  | .unspec => []

def peerMessage (uid data type : Bytes) : Value :=
  .object [(bytes "uid", .string uid), (bytes "data", .string data), (bytes "type", .string type)]

def sendToPeer (libs : Libs) (env : Env) (s : Controller) (uid data type : Bytes) : List Effect :=
  sendTo env (libs.json.toStyledString (peerMessage uid data type)) s.remoteAddr

def friends (n : Network) : List (Bytes × Fin (2 ^ 32)) :=
  (inOrder n.presenceTime.keys).filterMap (fun uid => (n.presenceTime.lookup uid).map (fun t => (uid, t)))

def localState (s : Controller) : Value :=
  .object [(bytes "_uid", .string s.manager.tincanId), (bytes "_ip4", .string s.manager.tincanIp4),
    (bytes "_ip6", .string s.manager.tincanIp6), (bytes "_fpr", .string s.manager.fingerprint),
    (bytes "type", .string (bytes "local_state")),
    (bytes "_mac", .string ([58].intercalate (s.opts.mac.map Numerals.hexByte)))]

def sendState (libs : Libs) (env : Env) (s : Controller) (uid : Bytes) (getStats : Bool)
    (addr : SocketAddress) : Option (List Effect) :=
  let asked := if uid ≠ [] then [(uid, env.fresh.now)] else friends s.network
  (getState env.stats env.fresh.now s.manager asked getStats).map (fun peers =>
    sendTo env (libs.json.toStyledString (localState s)) addr ++
      peers.flatMap (fun peer => sendTo env
        (libs.json.toStyledString (.object (set peer (bytes "type") (.string (bytes "peer_state"))))) addr))

/-- A copy of what follows the header. The length wraps, and a buffer of half
the address space or more cannot be had. -/
def Datagram.payload (d : Datagram) : Option Bytes :=
  let len := (d.len + 2 ^ 64 - kTincanHeaderSize) % 2 ^ 64
  if len < 2 ^ 63 then some ((List.range len).map (fun i => d.buffer (i + kTincanHeaderSize))) else none

/-- The text handed to the reader. It is cut from the buffer read as a
terminated string, which fails when that string is shorter than the header. -/
def Datagram.message (d : Datagram) : Option Bytes :=
  let text := cutAt 0 ((List.range (d.len + 2)).map d.buffer)
  if text.length < 2 then none else some (text.drop 2)

def doPacketSend (s : Controller) (packet : Bytes) : Controller :=
  { s with sendQueue := s.sendQueue.add packet, pending := s.pending + 1 }

def sendToTap (s : Controller) (packet : Bytes) : Controller :=
  { s with recvQueue := s.recvQueue.add packet }

section

variable (libs : Libs) (env : Env) (s : Controller) (root : Value)

def requestedPort : Option Int :=
  (libs.json.isMember root (bytes "port")).bind (fun hasPort =>
    if hasPort then libs.json.int root (bytes "port") else some kDefaultXmppPort)

def registerSvc : Option Outcome := do
  let user ← libs.json.string root (bytes "username")
  let pass ← libs.json.string root (bytes "password")
  let host ← libs.json.string root (bytes "host")
  let port ← requestedPort libs root
  let (network, _) := s.network.login libs.jingle libs.xmpp user pass s.manager.tincanId host port
  some ⟨{ s with network := network }, [], []⟩

def createLinkRequest : Option (CreateRequest × Bytes) := do
  let overlayId ← libs.json.int root (bytes "overlay_id")
  let uid ← libs.json.string root (bytes "uid")
  let fpr ← libs.json.string root (bytes "fpr")
  let stun ← libs.json.string root (bytes "stun")
  let turn ← libs.json.string root (bytes "turn")
  let turnUser ← libs.json.string root (bytes "turn_user")
  let turnPass ← libs.json.string root (bytes "turn_pass")
  let cas ← libs.json.string root (bytes "cas")
  let sec ← libs.json.bool root (bytes "sec")
  some (⟨uid, fpr, overlayId, stun, turn, turnUser, turnPass, sec⟩, cas)

def giveCandidates (m : Manager) (uid cas : Bytes) : Option Manager :=
  if cas.isEmpty then some m else (createConnections libs.jingle m uid cas).map Prod.fst

def createLink : Option Outcome := do
  let (r, cas) ← createLinkRequest libs root
  let (m, _, log) := createTransport libs.jingle s.manager r env.fresh
  let m ← giveCandidates libs m r.uid cas
  some ⟨{ s with manager := m }, [], log.map .shortUidMap⟩

def setLocalIp : Option Outcome := do
  let uid ← libs.json.string root (bytes "uid")
  let ip4 ← libs.json.string root (bytes "ip4")
  let ip6 ← libs.json.string root (bytes "ip6")
  let ip4Mask ← libs.json.int root (bytes "ip4_mask")
  let ip6Mask ← libs.json.int root (bytes "ip6_mask")
  let subnetMask ← libs.json.int root (bytes "subnet_mask")
  let switchmode ← libs.json.int root (bytes "switchmode")
  let (m, calls) := setup libs.jingle env.memory s.manager
    ⟨uid, ip4, ip4Mask, ip6, ip6Mask, subnetMask, switchmode⟩
  some ⟨{ s with manager := m }, calls.map .tap, []⟩

def setRemoteIp : Option Outcome := do
  let uid ← libs.json.string root (bytes "uid")
  let ip4 ← libs.json.string root (bytes "ip4")
  let ip6 ← libs.json.string root (bytes "ip6")
  let (m, _, calls) := addIPMapping libs.jingle env.memory s.manager uid ip4 ip6
  some ⟨{ s with manager := m }, calls.map .tap, []⟩

def trimLink : Option Outcome := do
  let uid ← libs.json.string root (bytes "uid")
  let (m, _, log) ← destroyTransport s.manager uid
  some ⟨{ s with manager := m }, [], log.map .shortUidMap⟩

def endpoint (remoteAddr addr : SocketAddress) (ip : Bytes) (port : Int) : SocketAddress :=
  if ip = bytes "::" then addr else libs.jingle.setPort (libs.jingle.setIP remoteAddr ip) port

def setCbEndpoint (addr : SocketAddress) : Option Outcome := do
  let ip ← libs.json.string root (bytes "ip")
  let port ← libs.json.int root (bytes "port")
  let remoteAddr := endpoint libs s.remoteAddr addr ip port
  some ⟨{ s with remoteAddr := remoteAddr, manager := { s.manager with forwardAddr := remoteAddr } },
    [], []⟩

def getStateCall (addr : SocketAddress) : Option Outcome := do
  let uid ← libs.json.string root (bytes "uid")
  let getStats ← libs.json.bool root (bytes "stats")
  let output ← sendState libs env s uid getStats addr
  some ⟨s, output, []⟩

def severity (logging : Int) : Option LoggingSeverity :=
  if logging = 0 then some .noLogging
  else if logging = 1 then some .error
  else if logging = 2 then some .info
  else if logging = 3 then some .sensitive
  else none

def setLogging : Option Outcome := do
  let logging ← libs.json.int root (bytes "logging")
  some ⟨{ s with logging := (severity logging).getD s.logging }, [], []⟩

def setTranslation : Option Outcome := do
  let translate ← libs.json.int root (bytes "translate")
  some ⟨{ s with opts := { s.opts with translate := translate } }, [], []⟩

def setSwitchmode : Option Outcome := do
  let switchmode ← libs.json.int root (bytes "switchmode")
  some ⟨{ s with opts := { s.opts with switchmode := switchmode } }, [], []⟩

def setTrimpolicy : Option Outcome := do
  let trim ← libs.json.bool root (bytes "trim_enabled")
  some ⟨{ s with manager := { s.manager with trimEnabled := trim } }, [], []⟩

def echoRequest (addr : SocketAddress) : Option Outcome := do
  let msg ← libs.json.string root (bytes "msg")
  let req := libs.json.toStyledString (.object
    [(bytes "type", .string (bytes "echo_request")), (bytes "msg", .string msg)])
  some ⟨s, sendTo env req addr, []⟩

def setNetworkIgnoreList : Option Outcome := do
  let list ← libs.json.index root (bytes "network_ignore_list")
  if libs.json.isArray list then
    let ignoreList ← (List.range (libs.json.size list)).mapM (fun i =>
      (libs.json.item list i).bind libs.json.asString)
    some ⟨{ s with manager := { s.manager with networkIgnoreList := ignoreList } }, [], []⟩
  else some ⟨s, [], [.improperIgnoreList]⟩

def relay (method : Bytes) : Option Outcome := do
  let _ ← libs.json.int root (bytes "overlay_id")
  let uid ← libs.json.string root (bytes "uid")
  let data ← libs.json.string root (bytes "data")
  some ⟨s, (s.network.sendToPeer libs.xmpp uid data method).map .stanza, []⟩

def dispatch (method : Bytes) (addr : SocketAddress) : RpcCall → Option Outcome
  | .registerSvc => registerSvc libs s root
  | .createLink => createLink libs env s root
  | .setLocalIp => setLocalIp libs env s root
  | .setRemoteIp => setRemoteIp libs env s root
  | .trimLink => trimLink libs s root
  | .setCbEndpoint => setCbEndpoint libs s root addr
  | .getState => getStateCall libs env s root addr
  | .setLogging => setLogging libs s root
  | .setTranslation => setTranslation libs s root
  | .setSwitchmode => setSwitchmode libs s root
  | .setTrimpolicy => setTrimpolicy libs s root
  | .echoRequest => echoRequest libs env s root addr
  | .echoReply => some ⟨s, [], []⟩
  | .setNetworkIgnoreList => setNetworkIgnoreList libs s root
  | .unknown => relay libs s root method

end

def parsingFailed : Bytes := bytes "\x7b\"error\":\"json parsing failed\"\x7d"

def handleRequest (libs : Libs) (env : Env) (s : Controller) (d : Datagram) : Option Outcome := do
  let message ← d.message
  let (accepted, root) := libs.json.parse message
  let result := if accepted then [] else parsingFailed
  let method ← libs.json.string root (bytes "m")
  let (call, rpcCalls) := s.rpcCalls.index method .unknown
  let o ← dispatch libs env { s with rpcCalls := rpcCalls } root method d.addr call
  if result = [] then some o
  else some { o with output := o.output ++ sendTo env result d.addr }

/-- `none` is the end of the process: an exception that nothing catches, or
the use of a null pointer. -/
def handlePacket (libs : Libs) (env : Env) (s : Controller) (d : Datagram) : Option Outcome :=
  let version := if d.buffer 0 ≠ kIpopVer then [LogLine.versionMismatch (d.buffer 0)] else []
  if d.buffer 1 = kTincanPacket then
    d.payload.map (fun packet => ⟨sendToTap s packet, [], version⟩)
  else if d.buffer 1 = kICCControl ∨ d.buffer 1 = kICCPacket then
    d.payload.map (fun packet => ⟨doPacketSend s packet, [], version⟩)
  else
    let type := if d.buffer 1 ≠ kTincanControl then [LogLine.unknownMessageType] else []
    (handleRequest libs env s d).map (fun o => { o with log := version ++ type ++ o.log })

/-- The request in a datagram: its method, the call that is found for it, and the value. -/
def requestOf (libs : Libs) (s : Controller) (d : Datagram) : Option (Bytes × RpcCall × Value) :=
  if d.buffer 1 = kTincanPacket ∨ d.buffer 1 = kICCControl ∨ d.buffer 1 = kICCPacket then none
  else do
    let message ← d.message
    let root := (libs.json.parse message).2
    let method ← libs.json.string root (bytes "m")
    some (method, (s.rpcCalls.index method .unknown).1, root)

def linkOffer (libs : Libs) (s : Controller) (d : Datagram) : Option (CreateRequest × Bytes) := do
  let (_, call, root) ← requestOf libs s d
  if call = .createLink then createLinkRequest libs root else none

def linkRequest (libs : Libs) (s : Controller) (d : Datagram) : Option CreateRequest :=
  (linkOffer libs s d).map Prod.fst

/-- Everything that a datagram can do to the state. -/
inductive Update (libs : Libs) (env : Env) (s : Controller) (d : Datagram) : Controller → Prop
  | same : Update libs env s d s
  | toTap (packet : Bytes) : Update libs env s d (sendToTap s packet)
  | toSend (packet : Bytes) : Update libs env s d (doPacketSend s packet)
  | login (user pass host : Bytes) (port : Int) : Update libs env s d { s with
      network := (s.network.login libs.jingle libs.xmpp user pass s.manager.tincanId host port).1 }
  | link {r : CreateRequest} {cas : Bytes} {m : Manager} : linkRequest libs s d = some r →
      giveCandidates libs (createTransport libs.jingle s.manager r env.fresh).1 r.uid cas = some m →
      Update libs env s d { s with manager := m }
  | setup (r : SetupRequest) : Update libs env s d
      { s with manager := (setup libs.jingle env.memory s.manager r).1 }
  | addIPMapping (uid ip4 ip6 : Bytes) : Update libs env s d
      { s with manager := (addIPMapping libs.jingle env.memory s.manager uid ip4 ip6).1 }
  | trim {uid : Bytes} {m : Manager} {done : Bool} {log : List ConnectionManager.Log} :
      destroyTransport s.manager uid = some (m, done, log) → Update libs env s d { s with manager := m }
  | endpoint (addr : SocketAddress) : Update libs env s d
      { s with remoteAddr := addr, manager := { s.manager with forwardAddr := addr } }
  | logging (level : LoggingSeverity) : Update libs env s d { s with logging := level }
  | opts (opts : ThreadOpts) : Update libs env s d { s with opts := opts }
  | trimPolicy (trim : Bool) : Update libs env s d
      { s with manager := { s.manager with trimEnabled := trim } }
  | ignoreList (names : List Bytes) : Update libs env s d
      { s with manager := { s.manager with networkIgnoreList := names } }
  | method {name : Bytes} (h : s.rpcCalls name = none) : Update libs env s d
      { s with rpcCalls := s.rpcCalls.insert name .unknown }

section

variable {libs : Libs} {env : Env} {s : Controller} {d : Datagram} {root : Json.Value}
  {method : Bytes} {addr : SocketAddress} {o : Outcome}

theorem update_dispatch {call : RpcCall} (h : dispatch libs env s root method addr call = some o)
    (hlink : call = .createLink → ∀ r cas, createLinkRequest libs root = some (r, cas) →
      linkRequest libs s d = some r) :
    Update libs env s d o.state ∧ o.state.recvQueue = s.recvQueue := by
  cases call with
  | createLink =>
    simp only [dispatch, createLink, Option.bind_eq_bind, Option.bind_eq_some_iff,
      Option.some.injEq] at h
    obtain ⟨⟨r, cas⟩, hreq, m, hm, rfl⟩ := h
    exact ⟨.link (hlink rfl r cas hreq) hm, rfl⟩
  | trimLink =>
    simp only [dispatch, trimLink, Option.bind_eq_bind, Option.bind_eq_some_iff,
      Option.some.injEq] at h
    obtain ⟨uid, _, ⟨m, done, log⟩, hd, rfl⟩ := h
    exact ⟨.trim hd, rfl⟩
  | registerSvc =>
    simp only [dispatch, registerSvc, Option.bind_eq_bind, Option.bind_eq_some_iff,
      Option.some.injEq] at h
    obtain ⟨_, _, _, _, _, _, _, _, rfl⟩ := h
    exact ⟨.login _ _ _ _, rfl⟩
  | setLocalIp =>
    simp only [dispatch, setLocalIp, Option.bind_eq_bind, Option.bind_eq_some_iff,
      Option.some.injEq] at h
    obtain ⟨_, _, _, _, _, _, _, _, _, _, _, _, _, _, rfl⟩ := h
    exact ⟨.setup _, rfl⟩
  | setRemoteIp =>
    simp only [dispatch, setRemoteIp, Option.bind_eq_bind, Option.bind_eq_some_iff,
      Option.some.injEq] at h
    obtain ⟨_, _, _, _, _, _, rfl⟩ := h
    exact ⟨.addIPMapping _ _ _, rfl⟩
  | setCbEndpoint =>
    simp only [dispatch, setCbEndpoint, Option.bind_eq_bind, Option.bind_eq_some_iff,
      Option.some.injEq] at h
    obtain ⟨_, _, _, _, rfl⟩ := h
    exact ⟨.endpoint _, rfl⟩
  | getState =>
    simp only [dispatch, getStateCall, Option.bind_eq_bind, Option.bind_eq_some_iff,
      Option.some.injEq] at h
    obtain ⟨_, _, _, _, _, _, rfl⟩ := h
    exact ⟨.same, rfl⟩
  | setLogging =>
    simp only [dispatch, setLogging, Option.bind_eq_bind, Option.bind_eq_some_iff,
      Option.some.injEq] at h
    obtain ⟨_, _, rfl⟩ := h
    exact ⟨.logging _, rfl⟩
  | setTranslation | setSwitchmode =>
    simp only [dispatch, setTranslation, setSwitchmode, Option.bind_eq_bind, Option.bind_eq_some_iff,
      Option.some.injEq] at h
    obtain ⟨_, _, rfl⟩ := h
    exact ⟨.opts _, rfl⟩
  | setTrimpolicy =>
    simp only [dispatch, setTrimpolicy, Option.bind_eq_bind, Option.bind_eq_some_iff,
      Option.some.injEq] at h
    obtain ⟨_, _, rfl⟩ := h
    exact ⟨.trimPolicy _, rfl⟩
  | echoRequest =>
    simp only [dispatch, echoRequest, Option.bind_eq_bind, Option.bind_eq_some_iff,
      Option.some.injEq] at h
    obtain ⟨_, _, rfl⟩ := h
    exact ⟨.same, rfl⟩
  | echoReply =>
    cases h
    exact ⟨.same, rfl⟩
  | setNetworkIgnoreList =>
    simp only [dispatch, setNetworkIgnoreList, Option.bind_eq_bind, Option.bind_eq_some_iff] at h
    obtain ⟨_, _, h⟩ := h
    split at h
    · simp only [Option.bind_eq_some_iff, Option.some.injEq] at h
      obtain ⟨_, _, rfl⟩ := h
      exact ⟨.ignoreList _, rfl⟩
    · cases h
      exact ⟨.same, rfl⟩
  | unknown =>
    simp only [dispatch, relay, Option.bind_eq_bind, Option.bind_eq_some_iff, Option.some.injEq] at h
    obtain ⟨_, _, _, _, _, _, rfl⟩ := h
    exact ⟨.same, rfl⟩

/-- Apart from the answer to a message that cannot be parsed, handling a request
is the dispatch. -/
theorem handlePacket_request {call : RpcCall} (env : Env)
    (h : requestOf libs s d = some (method, call, root)) :
    (handlePacket libs env s d).map Outcome.state =
      (dispatch libs env { s with rpcCalls := (s.rpcCalls.index method .unknown).2 } root method d.addr
        call).map Outcome.state := by
  unfold requestOf at h
  split at h
  · cases h
  next hbranch =>
  simp only [Option.bind_eq_bind, Option.bind_eq_some_iff, Option.some.injEq, Prod.mk.injEq] at h
  obtain ⟨message, hmessage, method, hmethod, rfl, rfl, rfl⟩ := h
  unfold handlePacket handleRequest
  rw [if_neg (fun hb => hbranch (.inl hb)), if_neg (fun hb => hbranch (.inr hb))]
  rw [Option.map_map, hmessage, Option.bind_eq_bind, Option.bind_some]
  generalize libs.json.parse message = parsed at *
  obtain ⟨accepted, root⟩ := parsed
  simp only [hmethod, Option.bind_eq_bind, Option.bind_some]
  cases dispatch libs env { s with rpcCalls := (s.rpcCalls.index method .unknown).2 } root method d.addr
      (s.rpcCalls.index method .unknown).1 with
  | none => rfl
  | some o =>
    rw [Option.bind_some]
    cases accepted <;> rfl

theorem handlePacket_packet (h : requestOf libs s d = none) (ho : handlePacket libs env s d = some o) :
    ∃ packet, o.state = sendToTap s packet ∨ o.state = doPacketSend s packet := by
  unfold handlePacket at ho
  dsimp only at ho
  split at ho
  · rw [Option.map_eq_some_iff] at ho
    obtain ⟨packet, _, rfl⟩ := ho
    exact ⟨packet, .inl rfl⟩
  next htincan =>
  split at ho
  · rw [Option.map_eq_some_iff] at ho
    obtain ⟨packet, _, rfl⟩ := ho
    exact ⟨packet, .inr rfl⟩
  next hicc =>
  simp only [Option.map_eq_some_iff, handleRequest, Option.bind_eq_bind, Option.bind_eq_some_iff] at ho
  obtain ⟨_, ⟨message, hmessage, method, hmethod, _⟩, _⟩ := ho
  rw [requestOf, if_neg (not_or.mpr ⟨htincan, hicc⟩)] at h
  simp [hmessage, hmethod] at h

theorem linkRequest_of_request {r : CreateRequest} {cas : Bytes}
    (h : requestOf libs s d = some (method, .createLink, root))
    (hr : createLinkRequest libs root = some (r, cas)) : linkRequest libs s d = some r := by
  simp [linkRequest, linkOffer, h, hr]

theorem update_handleRequest (h : handleRequest libs env s d = some o)
    (hbranch : ¬(d.buffer 1 = kTincanPacket ∨ d.buffer 1 = kICCControl ∨ d.buffer 1 = kICCPacket)) :
    Update libs env s d o.state ∧ o.state.recvQueue = s.recvQueue := by
  simp only [handleRequest, Option.bind_eq_bind, Option.bind_eq_some_iff] at h
  obtain ⟨message, hmsg, method, hmethod, o', hd, ho⟩ := h
  have hstate : o.state = o'.state := by
    split at ho <;> cases ho <;> rfl
  rw [hstate]
  cases hcall : s.rpcCalls method with
  | some call =>
    rw [PartialMap.index_of_mem RpcCall.unknown hcall] at hd
    refine update_dispatch hd ?_
    intro hcreate r cas hreq
    have hindex := PartialMap.index_of_mem RpcCall.unknown hcall
    have hrequest : requestOf libs s d = some (method, .createLink, (libs.json.parse message).2) := by
      rw [requestOf, if_neg hbranch]
      simp [hmsg, hmethod, hindex, hcreate]
    exact linkRequest_of_request hrequest hreq
  | none =>
    have hindex : s.rpcCalls.index method RpcCall.unknown =
        (.unknown, s.rpcCalls.insert method .unknown) := by
      simp [PartialMap.index, hcall]
    rw [hindex] at hd
    simp only [dispatch, relay, Option.bind_eq_bind, Option.bind_eq_some_iff, Option.some.injEq] at hd
    obtain ⟨_, _, _, _, _, _, rfl⟩ := hd
    exact ⟨.method hcall, rfl⟩

theorem update_handlePacket (h : handlePacket libs env s d = some o) : Update libs env s d o.state := by
  unfold handlePacket at h
  dsimp only at h
  split at h
  · rw [Option.map_eq_some_iff] at h
    obtain ⟨packet, _, rfl⟩ := h
    exact .toTap packet
  · next htincan =>
    split at h
    · rw [Option.map_eq_some_iff] at h
      obtain ⟨packet, _, rfl⟩ := h
      exact .toSend packet
    · next hicc =>
      rw [Option.map_eq_some_iff] at h
      obtain ⟨o', ho, rfl⟩ := h
      change Update libs env s d o'.state
      refine (update_handleRequest ho ?_).1
      rintro (hb | hb)
      · exact htincan hb
      · exact hicc hb

end

end Tincan.ControllerAccess
