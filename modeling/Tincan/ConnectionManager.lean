import Tincan.Library.PartialMap
import Tincan.Library.Tokens
import Tincan.Libjingle
import Tincan.Utils
import Mathlib.Data.Finset.Sort

namespace Tincan.ConnectionManager

open Tincan.Library Tincan.Library.Text Tincan.Library.Tokens Tincan.Library.Numerals
open Tincan.Libjingle Tincan.Utils

def kIpv4 : Bytes := bytes "172.31.0.100"
def kIpv6 : Bytes := bytes "fd50:0dbc:41f2:4a3c:0000:0000:0000:0000"
def kFprNull : Bytes := bytes "00:00:00:00:00:00:00:00:00:00:00:00:00:00:00:00:00:00:00:00"
def kContentName : Bytes := bytes "ipop-tincan"
def kIceUfrag : Bytes := bytes "ufrag"
def kIcePwd : Bytes := bytes "pwd"
def kFlags : Nat := 0
def kLocalControllerId : Int := 0
def kNullPeerId : Bytes := bytes "00000000000000000000"
def kCandidateDelim : Byte := 58
def kConStat : Bytes := bytes "con_stat"
def kConResp : Bytes := bytes "con_resp"

def inOrder (s : Finset Bytes) : List Bytes := s.sort

@[simp] theorem mem_inOrder {s : Finset Bytes} {w : Bytes} : w ∈ inOrder s ↔ w ∈ s := by
  simp [inOrder]

theorem nodup_inOrder (s : Finset Bytes) : (inOrder s).Nodup := Finset.sort_nodup s _

/-- The two sockets on the local port, one for each address family. -/
inductive UdpSocket
  | socket
  | socket6
  deriving DecidableEq

structure PeerState where
  overlayId : Int
  lastTime : Fin (2 ^ 32)
  uid : Bytes
  fingerprint : Bytes
  connectionSecurity : Bytes
  transport : Ptr
  portAllocator : PortAllocator
  remoteFingerprint : Option SSLFingerprint
  localDescription : Option TransportDescription
  remoteDescription : Option TransportDescription
  candidates : List Candidate
  candidateList : Finset Bytes

structure PeerIPs where
  ip4 : Bytes
  ip6 : Bytes
  deriving DecidableEq

/-- The members of the connection manager. An entry of `uidMap` is a counted
pointer, `none` when it is null. `transports` and `channels` are the live
objects of the heap, a channel with the transport that owns it. -/
structure Manager where
  uidMap : PartialMap Bytes (Option PeerState)
  shortUidMap : PartialMap Bytes Ptr
  transportMap : PartialMap Ptr Bytes
  ipMap : PartialMap Bytes PeerIPs
  tincanId : Bytes
  identity : Option SSLIdentity
  localFingerprint : Option SSLFingerprint
  fingerprint : Bytes
  tiebreaker : Fin (2 ^ 64)
  tincanIp4 : Bytes
  tincanIp6 : Bytes
  tapName : Bytes
  forwardSocket : UdpSocket
  forwardAddr : SocketAddress
  trimEnabled : Bool
  networkIgnoreList : List Bytes
  transports : PartialMap Ptr Transport
  channels : PartialMap Ptr Ptr

/-- The manager as `main` has it when the threads start. -/
def Manager.new (tiebreaker : Fin (2 ^ 64)) (kTapName : Bytes) (forwardSocket : UdpSocket) : Manager where
  uidMap := PartialMap.empty
  shortUidMap := PartialMap.empty
  transportMap := PartialMap.empty
  ipMap := PartialMap.empty
  tincanId := []
  identity := none
  localFingerprint := none
  fingerprint := kFprNull
  tiebreaker := tiebreaker
  tincanIp4 := kIpv4
  tincanIp6 := kIpv6
  tapName := kTapName
  forwardSocket := forwardSocket
  forwardAddr := ⟨[], .unspec, 0⟩
  trimEnabled := false
  networkIgnoreList := []
  transports := PartialMap.empty
  channels := PartialMap.empty

/-- Calls into the tap library. Their results are only looked at by an
assertion that release builds leave out. -/
inductive TapCall
  | setIpv4Addr (ip : Bytes) (mask : Int)
  | setIpv6Addr (ip : Bytes) (mask : Int)
  | setMtu
  | setBaseFlags
  | setUp
  | unsetNoarpFlags
  | peerlistSetLocal (uid ip4 ip6 : Bytes)
  | setSubnetMask (ip4Mask subnetMask : Int)
  | overrideBaseIpv4Addr (ip4 : Bytes)
  | peerlistAddByUid (uid : Bytes)
  | peerlistAdd (uid ip4 ip6 : Bytes)
  deriving DecidableEq

structure SetupRequest where
  uid : Bytes
  ip4 : Bytes
  ip4Mask : Int
  ip6 : Bytes
  ip6Mask : Int
  subnetMask : Int
  switchmode : Int

def setup (L : Api) (memory : Nat → Byte) (m : Manager) (r : SetupRequest) : Manager × List TapCall :=
  if m.tincanId ≠ [] ∨ r.uid.length ≠ kIdSize then (m, [])
  else
    let identity := L.generateIdentity r.uid
    let localFingerprint := L.createFingerprint identity
    let fingerprint := match localFingerprint with
      | some f => L.getRfc4572Fingerprint f
      | none => m.fingerprint
    let uidStr := (L.hexDecode (newBuffer memory kIdBytesLen) r.uid).2
    let calls := [.setIpv4Addr r.ip4 r.ip4Mask, .setIpv6Addr r.ip6 r.ip6Mask, .setMtu, .setBaseFlags,
        .setUp] ++ (if r.switchmode ≠ 0 then [.unsetNoarpFlags] else []) ++
      [.peerlistSetLocal uidStr r.ip4 r.ip6, .setSubnetMask r.ip4Mask r.subnetMask]
    ({ m with
        tincanId := r.uid
        identity := identity
        localFingerprint := localFingerprint
        fingerprint := fingerprint
        tincanIp4 := r.ip4
        tincanIp6 := r.ip6 }, calls)

structure PeerMessage where
  overlayId : Int
  uid : Bytes
  data : Bytes
  type : Bytes
  deriving DecidableEq

/-- What an event handler leaves behind. With `fault` it went on to use a null
pointer after the recorded sends. -/
structure Outcome where
  manager : Manager
  sent : List PeerMessage
  fault : Bool

def onRWChangeState (m : Manager) (t : Ptr) : Outcome :=
  let (uid, transportMap) := m.transportMap.index t []
  let m := { m with transportMap := transportMap }
  match m.transports t with
  | none => ⟨m, [], true⟩
  | some tr =>
    let status := if tr.readable ∧ tr.writable then bytes "online"
      else if tr.wasWritable then bytes "offline" else bytes "unknown"
    let sent := [⟨kLocalControllerId, uid, status, kConStat⟩]
    if status = bytes "online" then
      let (peer, uidMap) := m.uidMap.index uid none
      ⟨{ m with uidMap := uidMap }, sent, peer.isNone⟩
    else ⟨m, sent, false⟩

def encodeCandidate (L : Api) (c : Candidate) : Bytes :=
  [kCandidateDelim].intercalate
    [c.id, decimalInt c.component, c.protocol, L.ipToString c.address.ip, decimal c.address.port,
      decimal c.priority, c.username, c.password, c.type, cutAt 32 c.networkName,
      decimal c.generation, c.foundation]

def onCandidatesReady (L : Api) (m : Manager) (t : Ptr) (candidates : List Candidate) : Outcome :=
  let (uid, transportMap) := m.transportMap.index t []
  let (peer, uidMap) := m.uidMap.index uid none
  let m := { m with transportMap := transportMap, uidMap := uidMap }
  match peer with
  | none => ⟨m, [], true⟩
  | some p =>
    let candidateList := candidates.foldl (fun l c =>
      if c.networkName = m.tapName then l else insert (encodeCandidate L c) l) p.candidateList
    ⟨{ m with uidMap := m.uidMap.insert uid (some { p with candidateList := candidateList }) }, [], false⟩

def onCandidatesAllocationDone (m : Manager) (t : Ptr) : Outcome :=
  let (uid, transportMap) := m.transportMap.index t []
  let (peer, uidMap) := m.uidMap.index uid none
  let m := { m with transportMap := transportMap, uidMap := uidMap }
  match peer with
  | none => ⟨m, [], true⟩
  | some p =>
    let data := (inOrder p.candidateList).foldl (fun data c => data ++ [32] ++ c) m.fingerprint
    match m.transportMap t with
    | some uid => ⟨m, [⟨p.overlayId, uid, data, kConResp⟩], false⟩
    | none => ⟨m, [], false⟩

def setRelay (L : Api) (p : PeerState) (turnServer username password : Bytes) : PeerState × Bool :=
  if turnServer = [] ∨ username = [] then (p, false)
  else
    let relay : RelayServerConfig := ⟨L.fromString turnServer, .udp, username, password⟩
    ({ p with portAllocator := { p.portAllocator with relays := p.portAllocator.relays ++ [relay] } }, true)

def setupTransport (L : Api) (m : Manager) (p : PeerState) (tr : Transport) : PeerState × Transport :=
  let remoteFingerprint := L.createFromRfc4572 p.fingerprint
  let connRoleLocal : ConnectionRole := if compare p.uid m.tincanId = .gt then .active else .actpass
  let localDescription : TransportDescription :=
    ⟨L.nsJingleIceUdp, [], kIceUfrag, kIcePwd, .full, connRoleLocal, m.localFingerprint, p.candidates⟩
  let remoteDescription : TransportDescription :=
    ⟨L.nsJingleIceUdp, [], kIceUfrag, kIcePwd, .full, .none, remoteFingerprint, p.candidates⟩
  let p := { p with
    remoteFingerprint := remoteFingerprint
    localDescription := some localDescription
    remoteDescription := some remoteDescription }
  let tr := { tr with iceTiebreaker := some m.tiebreaker }
  if compare p.uid m.tincanId = .lt then
    (p, { tr with
      iceRole := some .controlling
      localDescription := some (localDescription, .offer)
      remoteDescription := some (remoteDescription, .answer) })
  else
    (p, { tr with
      iceRole := some .controlled
      remoteDescription := some (remoteDescription, .offer)
      localDescription := some (localDescription, .answer) })

structure CreateRequest where
  uid : Bytes
  fingerprint : Bytes
  overlayId : Int
  stunServer : Bytes
  turnServer : Bytes
  turnUser : Bytes
  turnPass : Bytes
  secEnabled : Bool

/-- Objects the allocator hands out during a call, and the clock. -/
structure Fresh where
  transport : Ptr
  channel : Ptr
  now : Fin (2 ^ 32)
  deriving Inhabited

inductive Log
  | alreadyExists (subUid : Bytes)
  | cannotFind (subUid : Bytes)
  deriving DecidableEq

def insertTransportMapW (m : Manager) (subUid : Bytes) (transport : Ptr) : Manager × List Log :=
  let log := if (m.shortUidMap subUid).isSome then [.alreadyExists subUid] else []
  ({ m with shortUidMap := m.shortUidMap.insert subUid transport }, log)

def deleteTransportMapW (m : Manager) (subUid : Bytes) : Manager × List Log :=
  if (m.shortUidMap subUid).isNone then (m, [.cannotFind subUid])
  else ({ m with shortUidMap := m.shortUidMap.erase subUid }, [])

/-- The key of the fast lookup. -/
def shortUid (uid : Bytes) : Bytes := substr uid 0 (kShortLen * 2)

def CreateRequest.refused (r : CreateRequest) (m : Manager) : Bool :=
  (m.uidMap r.uid).isSome || m.tincanId == r.uid

def CreateRequest.secure (r : CreateRequest) (m : Manager) : Bool :=
  r.secEnabled && m.localFingerprint.isSome && r.fingerprint != kFprNull

def newPeer (L : Api) (m : Manager) (r : CreateRequest) (f : Fresh) : PeerState :=
  let p : PeerState :=
    { overlayId := r.overlayId
      lastTime := f.now
      uid := r.uid
      fingerprint := r.fingerprint
      connectionSecurity := if r.secure m then bytes "dtls" else bytes "none"
      transport := f.transport
      portAllocator := ⟨L.fromString r.stunServer, kFlags, []⟩
      remoteFingerprint := none
      localDescription := none
      remoteDescription := none
      candidates := []
      candidateList := ∅ }
  (setRelay L p r.turnServer r.turnUser r.turnPass).1

def newTransport (m : Manager) (r : CreateRequest) (f : Fresh) : Transport where
  kind := if r.secure m then .dtls m.identity else .p2p
  contentName := kContentName
  channel := some f.channel
  readable := false
  writable := false
  wasWritable := false
  iceTiebreaker := none
  iceRole := none
  localDescription := none
  remoteDescription := none
  connecting := false
  remoteCandidates := []

/-- The part of `CreateTransport` before the link is entered into the maps. -/
def buildTransport (L : Api) (m : Manager) (r : CreateRequest) (f : Fresh) : Manager × PeerState :=
  let (p, tr) := setupTransport L m (newPeer L m r f) (newTransport m r f)
  ({ m with
      transports := m.transports.insert f.transport { tr with connecting := true }
      channels := m.channels.insert f.channel f.transport }, p)

def createTransport (L : Api) (m : Manager) (r : CreateRequest) (f : Fresh) : Manager × Bool × List Log :=
  if r.refused m then (m, false, [])
  else
    let (m, p) := buildTransport L m r f
    let m := { m with uidMap := m.uidMap.insert r.uid (some p) }
    let m := { m with transportMap := m.transportMap.insert p.transport r.uid }
    let (m, log) := insertTransportMapW m (shortUid r.uid) p.transport
    (m, true, log)

def addIPMapping (L : Api) (memory : Nat → Byte) (m : Manager) (uid ip4 ip6 : Bytes) :
    Manager × Bool × List TapCall :=
  if ip4 = [] ∨ ip6 = [] ∨ uid.length ≠ kIdSize ∨ (m.ipMap uid).isSome then (m, false, [])
  else
    let uidStr := (L.hexDecode (newBuffer memory kIdBytesLen) uid).2
    let calls := [.overrideBaseIpv4Addr ip4,
      if ip4 = bytes "127.0.0.1" then .peerlistAddByUid uidStr else .peerlistAdd uidStr ip4 ip6]
    ({ m with ipMap := m.ipMap.insert uid ⟨ip4, ip6⟩ }, true, calls)

def toUInt32 (i : Int) : Fin (2 ^ 32) := Fin.ofNat (2 ^ 32) (i % 2 ^ 32).toNat

/-- A token with fewer than twelve fields is skipped; fields past the twelfth
are ignored. -/
def decodeCandidate (L : Api) (token : Bytes) : Option Candidate :=
  match L.split token kCandidateDelim with
  | id :: component :: protocol :: ip :: port :: priority :: username :: password :: type ::
      networkName :: generation :: foundation :: _ =>
    some ⟨id, atoi component, protocol, L.socketAddress ip (atoi port), toUInt32 (atoi priority),
      username, password, type, networkName, toUInt32 (atoi generation), foundation⟩
  | _ => none

/-- The loop of `CreateConnections`. The stream is only tested after the body,
so the last round of it may work on an empty word. -/
def readCandidates (L : Api) (iss : IStream) (candidates : List Candidate) : List Candidate :=
  let candidates := candidates ++ (decodeCandidate L iss.readWord.1).toList
  if _h : iss.readWord.2.fail = true then candidates
  else readCandidates L iss.readWord.2 candidates
termination_by iss.rest.length
decreasing_by exact readWord_shrinks (by simpa using _h)

/-- `none` is the use of a null pointer. -/
def createConnections (L : Api) (m : Manager) (uid candidatesString : Bytes) : Option (Manager × Bool) :=
  match m.uidMap uid with
  | none => some (m, false)
  | some none => none
  | some (some p) =>
    if p.candidates ≠ [] then some (m, false)
    else
      let candidates := readCandidates L (IStream.ofBytes candidatesString) p.candidates
      match m.transports p.transport with
      | none => none
      | some tr =>
        let tr := { tr with remoteCandidates := tr.remoteCandidates ++ candidates }
        some ({ m with
          uidMap := m.uidMap.insert uid (some { p with candidates := candidates })
          transports := m.transports.insert p.transport tr }, true)

/-- The destructor of a peer state: its transport goes, and with it the
channels the transport owns. -/
def releasePeer (m : Manager) (p : PeerState) : Manager :=
  { m with
    transports := m.transports.erase p.transport
    channels := fun c => (m.channels c).filter (fun t => t != p.transport) }

def destroyTransport (m : Manager) (uid : Bytes) : Option (Manager × Bool × List Log) :=
  match m.uidMap uid with
  | none => some (m, false, [])
  | some none => none
  | some (some p) =>
    let (m, log) := deleteTransportMapW m (shortUid uid)
    let m := { m with transportMap := m.transportMap.erase p.transport }
    let m := { m with uidMap := m.uidMap.erase uid }
    some (releasePeer m p, true, log)

theorem onCandidatesAllocationDone_eq {m : Manager} {t : Ptr} {uid : Bytes} {p : PeerState}
    (ht : m.transportMap t = some uid) (hp : m.uidMap uid = some (some p)) :
    onCandidatesAllocationDone m t = ⟨m, [⟨p.overlayId, uid,
      (inOrder p.candidateList).foldl (fun data c => data ++ [32] ++ c) m.fingerprint, kConResp⟩], false⟩ := by
  simp only [onCandidatesAllocationDone, PartialMap.index_of_mem [] ht,
    PartialMap.index_of_mem none hp, ht]

def handlePeer (uid data type : Bytes) : List PeerMessage := [⟨kLocalControllerId, uid, data, type⟩]

end Tincan.ConnectionManager
