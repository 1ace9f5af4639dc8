import Tincan.Library.Runs
import Tincan.PacketPath

namespace Tincan.LinkThreads

open Tincan.Library Tincan.Library.Text Tincan.Library.Runs
open Tincan.Libjingle Tincan.Utils Tincan.ConnectionManager Tincan.PacketPath

/-- Where the link set-up thread is inside `CreateTransport` or
`DestroyTransport`. A peer state that is named here is held by a local
counted pointer of the call. -/
inductive Call
  | idle
  | createBuilt (p : PeerState)
  | createKeyed (p : PeerState)
  | createMapped (p : PeerState)
  | createRouted (p : PeerState)
  | destroyFound (uid : Bytes)
  | destroyUnrouted (uid : Bytes)
  | destroyUnmapped (uid : Bytes) (p : PeerState)
  | destroyErased (p : PeerState)

def Call.held : Call → Option PeerState
  | .createBuilt p | .createKeyed p | .createMapped p | .createRouted p => some p
  | .destroyUnmapped _ p | .destroyErased p => some p
  | .idle | .destroyFound _ | .destroyUnrouted _ => none

def Call.subject : Call → Option Bytes
  | .idle => none
  | .createBuilt p | .createKeyed p | .createMapped p | .createRouted p => some p.uid
  | .destroyFound uid | .destroyUnrouted uid | .destroyUnmapped uid _ => some uid
  | .destroyErased p => some p.uid

def Call.unrouted : Call → Option Bytes
  | .createKeyed p | .createMapped p => some p.uid
  | .destroyUnrouted uid | .destroyUnmapped uid _ => some uid
  | _ => none

/-- The manager with its two threads, what the packet handling thread has
passed on so far, and the error lines of the fast lookup table. -/
structure Threads where
  manager : Manager
  call : Call
  recvQueue : WQueue Bytes
  sent : List Output
  log : List Log

inductive Event
  | create (r : CreateRequest) (f : Fresh)
  | destroy (uid : Bytes)
  | advance
  | setup (memory : Nat → Byte) (r : SetupRequest)
  | setForwardAddr (addr : SocketAddress)
  | linkStatus (t : Ptr) (readable writable wasWritable hasChannel : Bool)
  | handlePacket (memory : Nat → Byte) (data : Bytes)
  | onReadPacket (channel : Ptr) (data : Bytes)

/-- The allocator never hands out null or the address of a live object. The
address of an object that is gone may come back. -/
structure Available (m : Manager) (f : Fresh) : Prop where
  transport_ne : f.transport ≠ null
  transport_free : m.transports f.transport = none
  channel_free : m.channels f.channel = none

def setStatus (m : Manager) (t : Ptr) (tr : Transport)
    (readable writable wasWritable hasChannel : Bool) : Manager :=
  { m with transports := m.transports.insert t { tr with
      readable := readable
      writable := writable
      wasWritable := wasWritable
      channel := if hasChannel then tr.channel else none } }

/-- One sub-step of either thread, or a change of state inside a transport.
The two lookup-table updates run on the packet handling thread while the link
set-up thread waits, so each is one step. -/
inductive Step (L : Api) (s : Threads) : Event → Threads → Prop
  | refuse {r : CreateRequest} {f : Fresh} : s.call = .idle → r.refused s.manager = true →
      Step L s (.create r f) s
  | build {r : CreateRequest} {f : Fresh} : s.call = .idle → r.refused s.manager = false →
      Available s.manager f →
      Step L s (.create r f) { s with
        manager := (buildTransport L s.manager r f).1
        call := .createBuilt (buildTransport L s.manager r f).2 }
  | key {p : PeerState} : s.call = .createBuilt p →
      Step L s .advance { s with
        manager := { s.manager with uidMap := s.manager.uidMap.insert p.uid (some p) }
        call := .createKeyed p }
  | map {p : PeerState} : s.call = .createKeyed p →
      Step L s .advance { s with
        manager := { s.manager with transportMap := s.manager.transportMap.insert p.transport p.uid }
        call := .createMapped p }
  | insertRoute {p : PeerState} : s.call = .createMapped p →
      Step L s .advance { s with
        manager := (insertTransportMapW s.manager (shortUid p.uid) p.transport).1
        call := .createRouted p
        log := s.log ++ (insertTransportMapW s.manager (shortUid p.uid) p.transport).2 }
  | created {p : PeerState} : s.call = .createRouted p → Step L s .advance { s with call := .idle }
  | unknown {uid : Bytes} : s.call = .idle → s.manager.uidMap uid = none → Step L s (.destroy uid) s
  | find {uid : Bytes} : s.call = .idle → s.manager.uidMap uid ≠ none →
      Step L s (.destroy uid) { s with call := .destroyFound uid }
  | deleteRoute {uid : Bytes} : s.call = .destroyFound uid →
      Step L s .advance { s with
        manager := (deleteTransportMapW s.manager (shortUid uid)).1
        call := .destroyUnrouted uid
        log := s.log ++ (deleteTransportMapW s.manager (shortUid uid)).2 }
  | unmap {uid : Bytes} {p : PeerState} : s.call = .destroyUnrouted uid →
      s.manager.uidMap uid = some (some p) →
      Step L s .advance { s with
        manager := { s.manager with transportMap := s.manager.transportMap.erase p.transport }
        call := .destroyUnmapped uid p }
  | erase {uid : Bytes} {p : PeerState} : s.call = .destroyUnmapped uid p →
      Step L s .advance { s with
        manager := { s.manager with uidMap := s.manager.uidMap.erase uid }
        call := .destroyErased p }
  | release {p : PeerState} : s.call = .destroyErased p →
      Step L s .advance { s with manager := releasePeer s.manager p, call := .idle }
  | setup {memory : Nat → Byte} {r : SetupRequest} : s.call = .idle →
      Step L s (.setup memory r) { s with manager := (setup L memory s.manager r).1 }
  | setForwardAddr (addr : SocketAddress) :
      Step L s (.setForwardAddr addr) { s with manager := { s.manager with forwardAddr := addr } }
  | linkStatus {t : Ptr} {tr : Transport} (readable writable wasWritable hasChannel : Bool) :
      s.manager.transports t = some tr →
      Step L s (.linkStatus t readable writable wasWritable hasChannel) { s with
        manager := setStatus s.manager t tr readable writable wasWritable hasChannel }
  | handlePacket {memory : Nat → Byte} {data : Bytes} {m : Manager} {out : List Output} :
      handlePacket L memory s.manager data = some (m, out) →
      Step L s (.handlePacket memory data) { s with manager := m, sent := s.sent ++ out }
  | onReadPacket {channel : Ptr} {data : Bytes} {m : Manager} {packet : Option Bytes} :
      onReadPacket L s.manager channel data = some (m, packet) →
      Step L s (.onReadPacket channel data) { s with
        manager := m
        recvQueue := packet.elim s.recvQueue s.recvQueue.add }

/-- No link yet, no call in progress. The rest of the manager is arbitrary. -/
structure Initial (s : Threads) : Prop where
  uidMap : s.manager.uidMap = PartialMap.empty
  shortUidMap : s.manager.shortUidMap = PartialMap.empty
  transportMap : s.manager.transportMap = PartialMap.empty
  transports : s.manager.transports = PartialMap.empty
  channels : s.manager.channels = PartialMap.empty
  call : s.call = .idle
  recvQueue : s.recvQueue = []
  sent : s.sent = []
  log : s.log = []

def Threads.Holds (s : Threads) (p : PeerState) : Prop :=
  (∃ u, s.manager.uidMap u = some (some p)) ∨ s.call.held = some p

/-- A live peer state that is in no map: not yet entered or already removed. -/
structure Detached (m : Manager) (p : PeerState) : Prop where
  unkeyed : m.uidMap p.uid = none
  live : ∃ tr, m.transports p.transport = some tr
  apart : ∀ u q, m.uidMap u = some (some q) → q.transport ≠ p.transport

def CallOk (m : Manager) : Call → Prop
  | .idle => True
  | .createBuilt p | .destroyErased p => Detached m p
  | .createKeyed p | .createMapped p | .createRouted p => m.uidMap p.uid = some (some p)
  | .destroyFound uid => ∃ p, m.uidMap uid = some (some p)
  | .destroyUnrouted uid =>
    (∃ p, m.uidMap uid = some (some p)) ∧ m.shortUidMap (shortUid uid) = none
  | .destroyUnmapped uid p => m.uidMap uid = some (some p) ∧ m.shortUidMap (shortUid uid) = none

/-- The invariant that keeps routes from dangling. A route always belongs to
some link of the full table with that key, though perhaps not to each of them. -/
structure Linked (m : Manager) : Prop where
  null_dead : m.transports null = none
  owned : ∀ u q, m.uidMap u = some q →
    ∃ p tr, q = some p ∧ p.uid = u ∧ m.transports p.transport = some tr
  apart : ∀ u v p q, m.uidMap u = some (some p) → m.uidMap v = some (some q) →
    p.transport = q.transport → u = v
  routes : ∀ key t, m.shortUidMap key = some t →
    ∃ u p, m.uidMap u = some (some p) ∧ p.transport = t ∧ shortUid u = key

structure Sound (s : Threads) : Prop where
  linked : Linked s.manager
  callOk : CallOk s.manager s.call

theorem sound_initial {s : Threads} (h : Initial s) : Sound s := by
  constructor
  · constructor <;> simp [h.uidMap, h.shortUidMap, h.transports, PartialMap.empty]
  · rw [h.call]
    trivial

structure Frame (m m' : Manager) : Prop where
  uidMap : m'.uidMap = m.uidMap
  shortUidMap : m'.shortUidMap = m.shortUidMap
  live : ∀ t tr, m.transports t = some tr → ∃ tr', m'.transports t = some tr'
  null_dead : m.transports null = none → m'.transports null = none

theorem Linked.frame {m m' : Manager} (h : Linked m) (hf : Frame m m') : Linked m' := by
  constructor
  · exact hf.null_dead h.null_dead
  · intro u q hq
    rw [hf.uidMap] at hq
    obtain ⟨p, tr, hp, hu, ht⟩ := h.owned u q hq
    obtain ⟨tr', ht'⟩ := hf.live _ _ ht
    exact ⟨p, tr', hp, hu, ht'⟩
  · rw [hf.uidMap]
    exact h.apart
  · rw [hf.uidMap, hf.shortUidMap]
    exact h.routes

theorem Detached.frame {m m' : Manager} {p : PeerState} (h : Detached m p) (hf : Frame m m') :
    Detached m' p := by
  obtain ⟨tr, ht⟩ := h.live
  refine ⟨by rw [hf.uidMap]; exact h.unkeyed, hf.live _ _ ht, ?_⟩
  rw [hf.uidMap]
  exact h.apart

theorem CallOk.frame {m m' : Manager} {c : Call} (h : CallOk m c) (hf : Frame m m') : CallOk m' c := by
  cases c with
  | idle => trivial
  | createBuilt p | destroyErased p => exact Detached.frame h hf
  | createKeyed p | createMapped p | createRouted p | destroyFound uid =>
    simpa only [CallOk, hf.uidMap] using h
  | destroyUnrouted uid | destroyUnmapped uid p =>
    simpa only [CallOk, hf.uidMap, hf.shortUidMap] using h

theorem Sound.frame {s t : Threads} (h : Sound s) (hc : t.call = s.call)
    (hf : Frame s.manager t.manager) : Sound t :=
  ⟨h.linked.frame hf, hc ▸ h.callOk.frame hf⟩

theorem newPeer_eq (L : Api) (m : Manager) (r : CreateRequest) (f : Fresh) :
    ∃ allocator, newPeer L m r f = ⟨r.overlayId, f.now, r.uid, r.fingerprint,
      if r.secure m then bytes "dtls" else bytes "none", f.transport, allocator, none, none, none, [], ∅⟩ := by
  unfold newPeer setRelay
  dsimp only
  split <;> exact ⟨_, rfl⟩

theorem setupTransport_eq (L : Api) (m : Manager) (p : PeerState) (tr : Transport) :
    (∃ remote localD remoteD, (setupTransport L m p tr).1 = { p with
      remoteFingerprint := remote, localDescription := localD, remoteDescription := remoteD }) ∧
    ∃ ice role localD remoteD, (setupTransport L m p tr).2 = { tr with
      iceTiebreaker := ice, iceRole := role, localDescription := localD, remoteDescription := remoteD } := by
  unfold setupTransport
  dsimp only
  split <;> exact ⟨⟨_, _, _, rfl⟩, _, _, _, _, rfl⟩

theorem buildTransport_peer (L : Api) (m : Manager) (r : CreateRequest) (f : Fresh) :
    ∃ allocator remote localD remoteD, (buildTransport L m r f).2 = ⟨r.overlayId, f.now, r.uid,
      r.fingerprint, if r.secure m then bytes "dtls" else bytes "none", f.transport, allocator, remote,
      localD, remoteD, [], ∅⟩ := by
  obtain ⟨allocator, hnew⟩ := newPeer_eq L m r f
  obtain ⟨⟨remote, localD, remoteD, hsetup⟩, _⟩ :=
    setupTransport_eq L m (newPeer L m r f) (newTransport m r f)
  refine ⟨allocator, remote, localD, remoteD, hsetup.trans ?_⟩
  rw [hnew]

theorem buildTransport_fields (L : Api) (m : Manager) (r : CreateRequest) (f : Fresh) :
    (buildTransport L m r f).2.uid = r.uid ∧ (buildTransport L m r f).2.transport = f.transport := by
  obtain ⟨_, _, _, _, hp⟩ := buildTransport_peer L m r f
  rw [hp]
  exact ⟨rfl, rfl⟩

theorem buildTransport_manager (L : Api) (m : Manager) (r : CreateRequest) (f : Fresh) :
    ∃ tr, (tr.channel = some f.channel ∧ tr.remoteCandidates = []) ∧ (buildTransport L m r f).1 = { m with
      transports := m.transports.insert f.transport tr
      channels := m.channels.insert f.channel f.transport } := by
  obtain ⟨_, _, _, _, _, htr⟩ := setupTransport_eq L m (newPeer L m r f) (newTransport m r f)
  refine ⟨{ (setupTransport L m (newPeer L m r f) (newTransport m r f)).2 with connecting := true }, ?_, rfl⟩
  rw [htr]
  exact ⟨rfl, rfl⟩

theorem frame_build {m : Manager} {r : CreateRequest} {f : Fresh} (L : Api) (hf : Available m f) :
    Frame m (buildTransport L m r f).1 := by
  obtain ⟨tr, _, hm⟩ := buildTransport_manager L m r f
  rw [hm]
  constructor
  · rfl
  · rfl
  · intro t tr' ht
    have hne : t ≠ f.transport := by
      rintro rfl
      rw [hf.transport_free] at ht
      cases ht
    exact ⟨tr', by simpa [hne] using ht⟩
  · intro hn
    simpa [hf.transport_ne.symm] using hn

theorem detached_build {m : Manager} {r : CreateRequest} {f : Fresh} (L : Api) (h : Linked m)
    (hr : r.refused m = false) (hf : Available m f) :
    Detached (buildTransport L m r f).1 (buildTransport L m r f).2 := by
  obtain ⟨hu, ht⟩ := buildTransport_fields L m r f
  obtain ⟨tr, _, hm⟩ := buildTransport_manager L m r f
  constructor
  · rw [hu, hm]
    simp only [CreateRequest.refused, Bool.or_eq_false_iff] at hr
    simpa using hr.1
  · rw [ht, hm]
    exact ⟨tr, by simp⟩
  · intro u q hq
    rw [hm] at hq
    obtain ⟨p, tr', hp, _, hl⟩ := h.owned u (some q) hq
    cases hp
    rw [ht]
    intro he
    rw [he, hf.transport_free] at hl
    cases hl

theorem linked_key {m : Manager} {p : PeerState} (h : Linked m) (hp : Detached m p) :
    Linked { m with uidMap := m.uidMap.insert p.uid (some p) } := by
  constructor
  · exact h.null_dead
  · intro u q hq
    obtain ⟨rfl, rfl⟩ | ⟨_, hq'⟩ := PartialMap.insert_eq_some.mp hq
    · obtain ⟨tr, ht⟩ := hp.live
      exact ⟨p, tr, rfl, rfl, ht⟩
    · exact h.owned u q hq'
  · intro u v a b ha hb hab
    obtain ⟨hu, ha'⟩ | ⟨hu, ha'⟩ := PartialMap.insert_eq_some.mp ha <;>
      obtain ⟨hv, hb'⟩ | ⟨hv, hb'⟩ := PartialMap.insert_eq_some.mp hb
    · rw [hu, hv]
    · cases ha'
      exact absurd hab.symm (hp.apart v b hb')
    · cases hb'
      exact absurd hab (hp.apart u a ha')
    · exact h.apart u v a b ha' hb' hab
  · intro key t hk
    obtain ⟨u, q, hq, ht, hs⟩ := h.routes key t hk
    have hu : u ≠ p.uid := by
      rintro rfl
      rw [hp.unkeyed] at hq
      cases hq
    exact ⟨u, q, PartialMap.insert_eq_some.mpr (.inr ⟨hu, hq⟩), ht, hs⟩

theorem linked_insertRoute {m : Manager} {p : PeerState} (h : Linked m)
    (hp : m.uidMap p.uid = some (some p)) :
    Linked (insertTransportMapW m (shortUid p.uid) p.transport).1 := by
  refine ⟨h.null_dead, h.owned, h.apart, ?_⟩
  intro key t hk
  obtain ⟨rfl, rfl⟩ | ⟨_, hk'⟩ := PartialMap.insert_eq_some.mp hk
  · exact ⟨p.uid, p, hp, rfl, rfl⟩
  · exact h.routes key t hk'

theorem deleteTransportMapW_manager (m : Manager) (subUid : Bytes) :
    (deleteTransportMapW m subUid).1 = { m with shortUidMap := m.shortUidMap.erase subUid } := by
  unfold deleteTransportMapW
  split
  · next hn => rw [PartialMap.erase_of_none (Option.isNone_iff_eq_none.mp hn)]
  · rfl

theorem linked_deleteRoute {m : Manager} (h : Linked m) (key : Bytes) :
    Linked (deleteTransportMapW m key).1 := by
  rw [deleteTransportMapW_manager]
  refine ⟨h.null_dead, h.owned, h.apart, ?_⟩
  intro k t hk
  exact h.routes k t (PartialMap.erase_eq_some.mp hk).2

theorem linked_erase {m : Manager} {uid : Bytes} (h : Linked m)
    (hs : m.shortUidMap (shortUid uid) = none) :
    Linked { m with uidMap := m.uidMap.erase uid } := by
  constructor
  · exact h.null_dead
  · intro u q hq
    exact h.owned u q (PartialMap.erase_eq_some.mp hq).2
  · intro u v p q hp hq hpq
    exact h.apart u v p q (PartialMap.erase_eq_some.mp hp).2 (PartialMap.erase_eq_some.mp hq).2 hpq
  · intro key t hk
    obtain ⟨u, p, hp, ht, hkey⟩ := h.routes key t hk
    have hu : u ≠ uid := by
      rintro rfl
      rw [hkey] at hs
      exact absurd (hs.symm.trans hk) (by simp)
    exact ⟨u, p, PartialMap.erase_eq_some.mpr ⟨hu, hp⟩, ht, hkey⟩

theorem detached_erase {m : Manager} {uid : Bytes} {p : PeerState} (h : Linked m)
    (hp : m.uidMap uid = some (some p)) :
    Detached { m with uidMap := m.uidMap.erase uid } p := by
  obtain ⟨p', tr, hpp, hu, ht⟩ := h.owned uid (some p) hp
  cases hpp
  subst hu
  refine ⟨by simp, ⟨tr, ht⟩, ?_⟩
  intro u q hq hqp
  obtain ⟨hne, hq'⟩ := PartialMap.erase_eq_some.mp hq
  exact hne (h.apart u p.uid q p hq' hp hqp)

theorem linked_release {m : Manager} {p : PeerState} (h : Linked m) (hp : Detached m p) :
    Linked (releasePeer m p) := by
  constructor
  · have hn := h.null_dead
    by_cases ht : null = p.transport
    · simp [releasePeer, ← ht]
    · simpa [releasePeer, ht] using hn
  · intro u q hq
    obtain ⟨p', tr, hpp, hu, ht⟩ := h.owned u q hq
    subst hpp
    exact ⟨p', tr, rfl, hu, by simpa [releasePeer, hp.apart u p' hq] using ht⟩
  · exact h.apart
  · exact h.routes

theorem Frame.of_eq {m m' : Manager} (hu : m'.uidMap = m.uidMap)
    (hs : m'.shortUidMap = m.shortUidMap) (ht : m'.transports = m.transports) : Frame m m' :=
  ⟨hu, hs, fun t tr h => ⟨tr, by rw [ht]; exact h⟩, fun h => by rw [ht]; exact h⟩

theorem frame_setup (L : Api) (memory : Nat → Byte) (m : Manager) (r : SetupRequest) :
    Frame m (setup L memory m r).1 := by
  unfold setup
  split <;> exact Frame.of_eq rfl rfl rfl

theorem setup_transports (L : Api) (memory : Nat → Byte) (m : Manager) (r : SetupRequest) :
    (setup L memory m r).1.transports = m.transports := by
  unfold setup
  split <;> rfl

theorem frame_setStatus {m : Manager} {t : Ptr} {tr : Transport} (ht : m.transports t = some tr)
    (a b c d : Bool) : Frame m (setStatus m t tr a b c d) := by
  refine ⟨rfl, rfl, ?_, ?_⟩
  · intro t' tr' h
    by_cases he : t' = t
    · subst he
      exact ⟨_, PartialMap.insert_self _ _ _⟩
    · exact ⟨tr', by simpa [setStatus, he] using h⟩
  · intro hn
    have he : null ≠ t := by
      rintro rfl
      rw [hn] at ht
      cases ht
    simpa [setStatus, he] using hn

theorem sound_step {L : Api} {s t : Threads} {e : Event} (h : Sound s) (hst : Step L s e t) :
    Sound t := by
  have hcall := h.callOk
  cases hst with
  | refuse hc hr => exact h
  | build hc hr hf => exact ⟨h.linked.frame (frame_build L hf), detached_build L h.linked hr hf⟩
  | key hc =>
    rw [hc] at hcall
    exact ⟨linked_key h.linked hcall, PartialMap.insert_self _ _ _⟩
  | map hc =>
    rw [hc] at hcall
    exact ⟨h.linked.frame (Frame.of_eq rfl rfl rfl), hcall⟩
  | insertRoute hc =>
    rw [hc] at hcall
    exact ⟨linked_insertRoute h.linked hcall, hcall⟩
  | created hc => exact ⟨h.linked, trivial⟩
  | unknown hc hn => exact h
  | find hc hn =>
    obtain ⟨q, hq⟩ := Option.ne_none_iff_exists'.mp hn
    obtain ⟨p, _, hp, _⟩ := h.linked.owned _ q hq
    exact ⟨h.linked, p, hp ▸ hq⟩
  | deleteRoute hc =>
    rw [hc] at hcall
    refine ⟨linked_deleteRoute h.linked _, ?_, ?_⟩
    · simp only [deleteTransportMapW_manager]
      exact hcall
    · simp [deleteTransportMapW_manager]
  | unmap hc hp =>
    rw [hc] at hcall
    exact ⟨h.linked.frame (Frame.of_eq rfl rfl rfl), hp, hcall.2⟩
  | erase hc =>
    rw [hc] at hcall
    exact ⟨linked_erase h.linked hcall.2, detached_erase h.linked hcall.1⟩
  | release hc =>
    rw [hc] at hcall
    exact ⟨linked_release h.linked hcall, trivial⟩
  | setup hc => exact h.frame rfl (frame_setup L _ _ _)
  | setForwardAddr addr => exact h.frame rfl (Frame.of_eq rfl rfl rfl)
  | linkStatus a b c d ht => exact h.frame rfl (frame_setStatus ht a b c d)
  | handlePacket hh => exact h.frame rfl (handlePacket_manager L _ hh ▸ Frame.of_eq rfl rfl rfl)
  | onReadPacket hh => exact h.frame rfl (onReadPacket_manager L hh ▸ Frame.of_eq rfl rfl rfl)

theorem sound_of_reachable {L : Api} {s : Threads} (h : Reachable (Step L) Initial s) : Sound s := by
  refine reachable_invariant ?_ ?_ h
  · intro s hs
    exact sound_initial hs
  · intro s e t hs hst
    exact sound_step hs hst

theorem Linked.routesLive {m : Manager} (h : Linked m) : RoutesLive m := by
  intro key t hk
  obtain ⟨u, p, hp, ht, _⟩ := h.routes key t hk
  obtain ⟨p', tr, hpp, _, htr⟩ := h.owned u (some p) hp
  cases hpp
  exact ⟨tr, ht ▸ htr⟩

theorem createTransport_eq {L : Api} {m : Manager} {r : CreateRequest} {f : Fresh}
    (hr : r.refused m = false) :
    createTransport L m r f =
      let p := (buildTransport L m r f).2
      let m := { (buildTransport L m r f).1 with uidMap := m.uidMap.insert p.uid (some p) }
      let m := { m with transportMap := m.transportMap.insert p.transport p.uid }
      ((insertTransportMapW m (shortUid p.uid) p.transport).1, true,
        (insertTransportMapW m (shortUid p.uid) p.transport).2) := by
  obtain ⟨_, _, hm⟩ := buildTransport_manager L m r f
  simp only [createTransport, hr, Bool.false_eq_true, ↓reduceIte, (buildTransport_fields L m r f).1, hm]

/-- A call that is not disturbed has the effect of the whole function. The
guard may restrict which requests are made. -/
theorem run_createTransport {L : Api} {guard : Threads → Event → Prop} {s : Threads}
    {r : CreateRequest} {f : Fresh} (hc : s.call = .idle)
    (hf : r.refused s.manager = false → Available s.manager f)
    (hg : guard s (.create r f)) (hadv : ∀ s, guard s .advance) :
    ∃ es, Run (Guarded guard (Step L)) s es ⟨(createTransport L s.manager r f).1, .idle,
      s.recvQueue, s.sent, s.log ++ (createTransport L s.manager r f).2.2⟩ := by
  cases hr : r.refused s.manager with
  | true =>
    have he : createTransport L s.manager r f = (s.manager, false, []) := by
      simp [createTransport, hr]
    have h₁ : Run (Guarded guard (Step L)) s [.create r f] s := run_single ⟨hg, Step.refuse hc hr⟩
    rw [he, List.append_nil, ← hc]
    exact ⟨_, h₁⟩
  | false =>
    have h₁ : Run (Guarded guard (Step L)) s [.create r f] _ :=
      run_single ⟨hg, Step.build hc hr (hf hr)⟩
    have h₂ := Run.snoc h₁ ⟨hadv _, Step.key rfl⟩
    have h₃ := Run.snoc h₂ ⟨hadv _, Step.map rfl⟩
    have h₄ := Run.snoc h₃ ⟨hadv _, Step.insertRoute rfl⟩
    have h₅ := Run.snoc h₄ ⟨hadv _, Step.created rfl⟩
    rw [createTransport_eq hr]
    exact ⟨_, h₅⟩

theorem run_destroyTransport {L : Api} {guard : Threads → Event → Prop} {s : Threads} {uid : Bytes}
    {m : Manager} {done : Bool} {log : List Log} (hc : s.call = .idle)
    (hd : destroyTransport s.manager uid = some (m, done, log))
    (hg : guard s (.destroy uid)) (hadv : ∀ s, guard s .advance) :
    ∃ es, Run (Guarded guard (Step L)) s es ⟨m, .idle, s.recvQueue, s.sent, s.log ++ log⟩ := by
  cases hu : s.manager.uidMap uid with
  | none =>
    simp only [destroyTransport, hu, Option.some.injEq, Prod.mk.injEq] at hd
    obtain ⟨rfl, _, rfl⟩ := hd
    have h₁ : Run (Guarded guard (Step L)) s [.destroy uid] s :=
      run_single ⟨hg, Step.unknown hc hu⟩
    rw [List.append_nil, ← hc]
    exact ⟨_, h₁⟩
  | some q =>
    cases q with
    | none => simp [destroyTransport, hu] at hd
    | some p =>
      simp only [destroyTransport, hu, Option.some.injEq, Prod.mk.injEq] at hd
      obtain ⟨rfl, _, rfl⟩ := hd
      have hne : s.manager.uidMap uid ≠ none := by simp [hu]
      have hu' : (deleteTransportMapW s.manager (shortUid uid)).1.uidMap uid = some (some p) := by
        rw [deleteTransportMapW_manager]
        exact hu
      have h₁ : Run (Guarded guard (Step L)) s [.destroy uid] _ :=
        run_single ⟨hg, Step.find hc hne⟩
      have h₂ := Run.snoc h₁ ⟨hadv _, Step.deleteRoute rfl⟩
      have h₃ := Run.snoc h₂ ⟨hadv _, Step.unmap rfl hu'⟩
      have h₄ := Run.snoc h₃ ⟨hadv _, Step.erase rfl⟩
      have h₅ := Run.snoc h₄ ⟨hadv _, Step.release rfl⟩
      exact ⟨_, h₅⟩

end Tincan.LinkThreads
