import Tincan.Library.PartialMap
import Tincan.Libjingle
import Tincan.Utils
import Tincan.Xmpp
import Mathlib.Data.Finmap

namespace Tincan.XmppNetwork

open Tincan.Library Tincan.Library.Text Tincan.Libjingle Tincan.Utils Tincan.Xmpp

def kInterval : Int := 15000
def kPresenceInterval : Int := 120
def kXmppPrefix : Bytes := bytes "tincan"

def sizeofXmppPrefix : Nat := kXmppPrefix.length + 1

/-- Arithmetic on sizes wraps. -/
def getKey (uid : Bytes) : Bytes :=
  let idx := (find uid 47 + sizeofXmppPrefix) % 2 ^ 64
  if (idx + kIdSize) % 2 ^ 64 ≤ uid.length then substr uid idx kIdSize else uid

structure XmppClientSettings where
  user : Bytes
  host : Bytes
  resource : Bytes
  useTls : Bool
  pass : Bytes
  server : SocketAddress

/-- A pump with its client. `jid` is what the server bound, and
`disconnecting` is set once `DoDisconnect` was called. -/
structure XmppPump where
  number : Nat
  jid : Jid
  disconnecting : Bool

structure TinCanTask where
  pump : Nat
  stanzas : List Stanza

/-- The members of the network. A task is named by the pump it was made for,
and pumps are numbered in the order they are made. `timers` counts the
messages for this handler on the main thread, and `gUidMap` is the global map
of the file. -/
structure Network where
  xcs : XmppClientSettings
  status : PresenceStatus
  pump : Option XmppPump
  xmppSocket : Option Nat
  presenceOut : Option Nat
  pingTask : Option Nat
  tincanTask : Option TinCanTask
  presenceTime : Finmap (fun _ : Bytes => Fin (2 ^ 32))
  xmppState : EngineState
  onMsgCounter : Int
  uid : Bytes
  timers : Nat
  gUidMap : PartialMap Bytes Bytes
  pumps : Nat

def noJid : Jid := ⟨[], [], []⟩

/-- The network before any login. The constructor leaves the state and the
counter unset. -/
def Network.new (xmppState : EngineState) (onMsgCounter : Int) : Network where
  xcs := ⟨[], [], [], false, [], ⟨[], .unspec, 0⟩⟩
  status := ⟨noJid, false, .none, 0⟩
  pump := none
  xmppSocket := none
  presenceOut := none
  pingTask := none
  tincanTask := none
  presenceTime := ∅
  xmppState := xmppState
  onMsgCounter := onMsgCounter
  uid := []
  timers := 0
  gUidMap := PartialMap.empty
  pumps := 0

def Network.connect (n : Network) : Network :=
  { n with
    xmppSocket := some n.pumps
    pump := some ⟨n.pumps, noJid, false⟩
    pumps := n.pumps + 1
    xmppState := .stateNone
    timers := 1
    onMsgCounter := 0 }

def Network.refuses (n : Network) (username password pcid host : Bytes) : Bool :=
  n.pump.isSome || username.isEmpty || password.isEmpty || pcid.isEmpty || host.isEmpty

def Network.login (L : Libjingle.Api) (X : Xmpp.Api) (n : Network) (username password pcid host : Bytes)
    (port : Int) : Network × Bool :=
  if n.refuses username password pcid host then (n, false)
  else
    let jid := X.jid username
    let xcs : XmppClientSettings :=
      ⟨jid.node, jid.domain, kXmppPrefix ++ pcid, true, password, L.socketAddress host port⟩
    ({ n with xcs := xcs }.connect, true)

def Network.onSignOn (X : Xmpp.Api) (n : Network) : Network × List Xmpp.Output :=
  match n.pump with
  | none => (n, [])
  | some pump =>
    let status : PresenceStatus := ⟨pump.jid, true, .online, 0⟩
    ({ n with
        uid := X.str pump.jid
        status := status
        presenceOut := some pump.number
        tincanTask := some ⟨pump.number, []⟩
        pingTask := some pump.number }, [.presence status])

def Network.onStateChange (X : Xmpp.Api) (n : Network) (state : EngineState) :
    Network × List Xmpp.Output :=
  let n := { n with xmppState := state }
  match state with
  | .stateOpen => n.onSignOn X
  | _ => (n, [])

def Network.doDisconnect (n : Network) : Network :=
  { n with pump := n.pump.map (fun pump => { pump with disconnecting := true }) }

/-- The timer handler. The message that is handled is no longer pending. -/
def Network.onMessage (n : Network) (anyChildError : Bool) : Network × List Xmpp.Output :=
  let n := { n with timers := n.timers - 1 }
  let (n, sent) : Network × List Xmpp.Output := match n.pump with
    | none => (n, [])
    | some pump =>
      if n.xmppState = .stateStart ∨ n.xmppState = .stateOpening then (n.doDisconnect, [])
      else if anyChildError = true ∧ n.xmppState ≠ .stateClosed then (n.doDisconnect, [])
      else if n.xmppState = .stateNone then ({ n with xmppSocket := none }.connect, [])
      else if n.xmppState = .stateClosed then
        ({ n with
            xmppSocket := none
            presenceOut := none
            tincanTask := none
            pingTask := none }.connect, [])
      else if n.xmppState = .stateOpen ∧ n.onMsgCounter.tmod kPresenceInterval = 0 then
        ({ n with presenceOut := some pump.number }, [.presence n.status])
      else (n, [])
  ({ n with timers := n.timers + 1, onMsgCounter := n.onMsgCounter + kInterval.tdiv 1000 }, sent)

def taskSendToPeer (X : Xmpp.Api) (gUidMap : PartialMap Bytes Bytes) (uid data type : Bytes) :
    List Xmpp.Output :=
  match gUidMap uid with
  | none => []
  | some text => [.iq strGet (X.jid text) ⟨some data, some type⟩]

def Network.sendToPeer (X : Xmpp.Api) (n : Network) (uid data type : Bytes) : List Xmpp.Output :=
  if n.xmppState = .stateOpen ∧ n.tincanTask.isSome then taskSendToPeer X n.gUidMap uid data type
  else []

def queues (X : Xmpp.Api) (stanza : Stanza) : Bool :=
  X.matchRequestIq stanza strGet || stanza.name == .presence

def Network.handleStanza (X : Xmpp.Api) (n : Network) (stanza : Stanza) : Network :=
  if queues X stanza then
    { n with tincanTask := n.tincanTask.map (fun task =>
        { task with stanzas := task.stanzas ++ [stanza] }) }
  else n

/-- Whether `ProcessStart` takes the stanza as coming from another node. -/
def accepts (X : Xmpp.Api) (me : Jid) (stanza : Stanza) : Bool :=
  compareAt (X.jid stanza.sender).resource 0 (sizeofXmppPrefix - 1) kXmppPrefix == .eq &&
    X.jid stanza.sender != me

inductive PeerCall
  | doHandlePeer (uid data type : Bytes)
  | setTime (uid : Bytes)
  deriving DecidableEq

/-- The work of `ProcessStart` on one stanza. `none` is the use of a missing
type element. -/
def processStanza (X : Xmpp.Api) (me : Jid) (gUidMap : PartialMap Bytes Bytes) (stanza : Stanza) :
    Option (PartialMap Bytes Bytes × Option PeerCall) :=
  if accepts X me stanza then
    let uidKey := getKey stanza.sender
    let gUidMap := gUidMap.insert uidKey stanza.sender
    match stanza.query with
    | none => some (gUidMap, some (.setTime uidKey))
    | some ⟨none, _⟩ => some (gUidMap, some (.doHandlePeer uidKey [] []))
    | some ⟨some data, some type⟩ => some (gUidMap, some (.doHandlePeer uidKey data type))
    | some ⟨some _, none⟩ => none
  else some (gUidMap, none)

def Network.me (n : Network) : Jid := n.pump.elim noJid XmppPump.jid

def Network.nextAccepted (X : Xmpp.Api) (n : Network) : Option Stanza :=
  match n.tincanTask with
  | some ⟨_, stanza :: _⟩ =>
    if accepts X n.me stanza then some stanza else none
  | _ => none

def Network.processStart (X : Xmpp.Api) (n : Network) (now : Fin (2 ^ 32)) :
    Option (Network × Option (Bytes × Bytes × Bytes)) :=
  match n.tincanTask with
  | none => some (n, none)
  | some ⟨_, []⟩ => some (n, none)
  | some ⟨number, stanza :: stanzas⟩ =>
    let n := { n with tincanTask := some ⟨number, stanzas⟩ }
    (processStanza X n.me n.gUidMap stanza).map (fun (gUidMap, call) =>
      let n := { n with gUidMap := gUidMap }
      match call with
      | none => (n, none)
      | some (.doHandlePeer uid data type) => (n, some (uid, data, type))
      | some (.setTime uid) => ({ n with presenceTime := n.presenceTime.insert uid now }, none))

def record (gUidMap : PartialMap Bytes Bytes) (stanza : Stanza) : PartialMap Bytes Bytes :=
  gUidMap.insert (getKey stanza.sender) stanza.sender

def Network.reconnects (n : Network) (anyChildError : Bool) : Bool :=
  n.pump.isSome && (n.xmppState == .stateClosed || (n.xmppState == .stateNone && !anyChildError))

def Network.presenceDue (n : Network) (anyChildError : Bool) : Bool :=
  n.pump.isSome && n.xmppState == .stateOpen && !anyChildError &&
    n.onMsgCounter.tmod kPresenceInterval == 0

def Network.posted (n : Network) : Network :=
  { n with timers := n.timers + 1, onMsgCounter := n.onMsgCounter + kInterval.tdiv 1000 }

inductive Tick (n : Network) (anyChildError : Bool) : Network → List Xmpp.Output → Prop
  | idle (hr : n.reconnects anyChildError = false) (hp : n.presenceDue anyChildError = false) :
      Tick n anyChildError n []
  | disconnect (hr : n.reconnects anyChildError = false) (hp : n.presenceDue anyChildError = false) :
      Tick n anyChildError n.doDisconnect []
  | retry (hr : n.reconnects anyChildError = true) (hs : n.xmppState = .stateNone) :
      Tick n anyChildError { n with xmppSocket := none }.connect []
  | reopen (hr : n.reconnects anyChildError = true) (hs : n.xmppState = .stateClosed) :
      Tick n anyChildError { n with
        xmppSocket := none
        presenceOut := none
        tincanTask := none
        pingTask := none }.connect []
  | presence {pump : XmppPump} (hr : n.reconnects anyChildError = false)
      (hp : n.presenceDue anyChildError = true) (hpump : n.pump = some pump) :
      Tick n anyChildError { n with presenceOut := some pump.number } [.presence n.status]

theorem onMessage_tick (n : Network) (anyChildError : Bool) :
    ∃ n' sent, Tick { n with timers := n.timers - 1 } anyChildError n' sent ∧
      n.onMessage anyChildError = (n'.posted, sent) := by
  obtain ⟨xcs, status, pump, xmppSocket, presenceOut, pingTask, tincanTask, presenceTime, xmppState,
    onMsgCounter, uid, timers, gUidMap, pumps⟩ := n
  unfold Network.onMessage
  cases pump with
  | none => exact ⟨_, _, .idle rfl rfl, rfl⟩
  | some pump =>
    dsimp only
    split_ifs with hstart herror hnone hclosed hpresence
    · refine ⟨_, _, .disconnect ?_ ?_, rfl⟩ <;>
        obtain rfl | rfl := hstart <;> rfl
    · obtain ⟨rfl, hne⟩ := herror
      refine ⟨_, _, .disconnect ?_ ?_, rfl⟩
      · simp [Network.reconnects, hne]
      · simp [Network.presenceDue]
    · subst hnone
      have herror : anyChildError = false := by simpa using herror
      exact ⟨_, _, .retry (by simp [Network.reconnects, herror]) rfl, rfl⟩
    · subst hclosed
      exact ⟨_, _, .reopen rfl rfl, rfl⟩
    · obtain ⟨rfl, hcounter⟩ := hpresence
      have herror : anyChildError = false := by simpa using herror
      exact ⟨_, _, .presence rfl (by simp [Network.presenceDue, herror, hcounter]) rfl, rfl⟩
    · refine ⟨_, _, .idle ?_ ?_, rfl⟩
      · simp [Network.reconnects, hnone, hclosed]
      · simp only [Network.presenceDue, Bool.and_eq_false_iff, beq_eq_false_iff_ne, ne_eq]
        by_cases hopen : xmppState = .stateOpen
        · exact .inr (fun hcounter => hpresence ⟨hopen, hcounter⟩)
        · exact .inl (.inl (.inr hopen))

/-- What the timer leaves alone: the map, the settings, and the client for as
long as the engine is open. -/
structure Kept (n n' : Network) : Prop where
  gUidMap : n'.gUidMap = n.gUidMap
  xcs : n'.xcs = n.xcs
  task : n'.tincanTask = n.tincanTask ∨ n'.tincanTask = none
  pump : n.pump.isSome → n'.pump.isSome
  client : n'.xmppState = .stateOpen → n.xmppState = .stateOpen ∧ n'.me = n.me

theorem onMessage_kept (n : Network) (anyChildError : Bool) : Kept n (n.onMessage anyChildError).1 := by
  obtain ⟨n', sent, ht, heq⟩ := onMessage_tick n anyChildError
  rw [heq]
  cases ht with
  | idle | presence => exact ⟨rfl, rfl, .inl rfl, id, fun h => ⟨h, rfl⟩⟩
  | disconnect =>
    refine ⟨rfl, rfl, .inl rfl, ?_, ?_⟩
    · intro hp
      simpa [Network.posted, Network.doDisconnect] using hp
    · intro h
      refine ⟨h, ?_⟩
      unfold Network.me Network.posted Network.doDisconnect
      cases n.pump <;> rfl
  -- A new connection is made, so the engine is not open.
  | retry => exact ⟨rfl, rfl, .inl rfl, fun _ => rfl, fun h => nomatch h⟩
  | reopen => exact ⟨rfl, rfl, .inr rfl, fun _ => rfl, fun h => nomatch h⟩

theorem login_of_pump {L : Libjingle.Api} {X : Xmpp.Api} {n : Network} (h : n.pump.isSome)
    (user pass pcid host : Bytes) (port : Int) : n.login L X user pass pcid host port = (n, false) := by
  simp [Network.login, Network.refuses, h]

theorem processStart_cases {X : Xmpp.Api} {n n' : Network} {now : Fin (2 ^ 32)}
    {call : Option (Bytes × Bytes × Bytes)} (h : n.processStart X now = some (n', call)) :
    (n' = n ∧ n.nextAccepted X = none) ∨ ∃ number stanza stanzas presenceTime,
      n.tincanTask = some ⟨number, stanza :: stanzas⟩ ∧ n' = { n with
        tincanTask := some ⟨number, stanzas⟩
        gUidMap := (n.nextAccepted X).toList.foldl record n.gUidMap
        presenceTime := presenceTime } := by
  unfold Network.processStart at h
  split at h
  · next ht =>
    cases h
    exact .inl ⟨rfl, by simp [Network.nextAccepted, ht]⟩
  · next number ht =>
    cases h
    exact .inl ⟨rfl, by simp [Network.nextAccepted, ht]⟩
  · next number stanza stanzas ht =>
    simp only [Option.map_eq_some_iff, Prod.exists] at h
    obtain ⟨gUidMap, peerCall, hp, h⟩ := h
    have hmap : gUidMap = (n.nextAccepted X).toList.foldl record n.gUidMap := by
      have hme : Network.me { n with tincanTask := some ⟨number, stanzas⟩ } = n.me := rfl
      rw [hme] at hp
      unfold processStanza at hp
      by_cases ha : accepts X n.me stanza = true
      · have hnext : n.nextAccepted X = some stanza := by simp [Network.nextAccepted, ht, ha]
        rw [hnext]
        rw [if_pos ha] at hp
        split at hp <;> cases hp <;> rfl
      · have hnext : n.nextAccepted X = none := by simp [Network.nextAccepted, ht, ha]
        rw [hnext]
        rw [if_neg ha] at hp
        cases hp
        rfl
    rw [hmap] at h
    split at h <;> cases h <;> exact .inr ⟨number, stanza, stanzas, _, ht, rfl⟩

end Tincan.XmppNetwork
