import Tincan.LinkHeap
import Tincan.Routes

namespace Tincan.LinkAtomicity

open Tincan.Library Tincan.Library.Text Tincan.Library.Runs Tincan.Libjingle Tincan.Utils
open Tincan.ConnectionManager Tincan.PacketPath Tincan.LinkThreads

/-- The manager with the packets it has passed on, for an observer to whom each
call is one step. -/
structure Whole where
  manager : Manager
  recvQueue : WQueue Bytes
  sent : List Output

inductive AtomicStep (L : Api) (s : Whole) : Event → Whole → Prop
  | create {r : CreateRequest} {f : Fresh} (hf : r.refused s.manager = false → Available s.manager f) :
      AtomicStep L s (.create r f) { s with manager := (createTransport L s.manager r f).1 }
  | destroy {uid : Bytes} {m : Manager} {done : Bool} {log : List Log}
      (hd : destroyTransport s.manager uid = some (m, done, log)) :
      AtomicStep L s (.destroy uid) { s with manager := m }
  | setup (memory : Nat → Byte) (r : SetupRequest) :
      AtomicStep L s (.setup memory r) { s with manager := (setup L memory s.manager r).1 }
  | setForwardAddr (addr : SocketAddress) :
      AtomicStep L s (.setForwardAddr addr) { s with manager := { s.manager with forwardAddr := addr } }
  | linkStatus {t : Ptr} {tr : Transport} (readable writable wasWritable hasChannel : Bool)
      (ht : s.manager.transports t = some tr) :
      AtomicStep L s (.linkStatus t readable writable wasWritable hasChannel) { s with
        manager := setStatus s.manager t tr readable writable wasWritable hasChannel }
  | handlePacket {memory : Nat → Byte} {data : Bytes} {m : Manager} {out : List Output}
      (hh : handlePacket L memory s.manager data = some (m, out)) :
      AtomicStep L s (.handlePacket memory data) { s with manager := m, sent := s.sent ++ out }
  | onReadPacket {channel : Ptr} {data : Bytes} {m : Manager} {packet : Option Bytes}
      (hh : onReadPacket L s.manager channel data = some (m, packet)) :
      AtomicStep L s (.onReadPacket channel data) { s with
        manager := m
        recvQueue := packet.elim s.recvQueue s.recvQueue.add }

def outside : Event → Bool
  | .create _ _ | .destroy _ | .advance | .linkStatus _ _ _ _ _ => false
  | _ => true

def isCall : Event → Bool
  | .create _ _ | .destroy _ => true
  | _ => false

def isStatusOf (t : Ptr) : Event → Bool
  | .linkStatus t' _ _ _ _ => t' == t
  | _ => false

def builtTransport (L : Api) (m : Manager) (r : CreateRequest) (f : Fresh) : Transport :=
  { (setupTransport L m (newPeer L m r f) (newTransport m r f)).2 with connecting := true }

/-- A transport `tr₀` at the address `t` after changes of its state. -/
inductive Aged (t : Ptr) (tr₀ : Transport) : List Event → Transport → Prop
  | new : Aged t tr₀ [] tr₀
  | status {es : List Event} {tr : Transport} (h : Aged t tr₀ es tr)
      (readable writable wasWritable hasChannel : Bool) :
      Aged t tr₀ (es ++ [.linkStatus t readable writable wasWritable hasChannel]) { tr with
        readable := readable
        writable := writable
        wasWritable := wasWritable
        channel := if hasChannel then tr.channel else none }

/-- A call of `CreateTransport` that has made its objects. -/
structure Pending (L : Api) (m : Manager) (r : CreateRequest) (f : Fresh) (es : List Event)
    (tr : Transport) (p : PeerState) : Prop where
  refused : r.refused m = false
  available : Available m f
  peer : p = (buildTransport L m r f).2
  aged : Aged f.transport (builtTransport L m r f) es tr

def withObjects (m : Manager) (f : Fresh) (tr : Transport)
    (uidMap : PartialMap Bytes (Option PeerState)) (transportMap : PartialMap Ptr Bytes) : Manager :=
  { m with
    uidMap := uidMap
    transportMap := transportMap
    transports := m.transports.insert f.transport tr
    channels := m.channels.insert f.channel f.transport }

/-- The manager in the middle of a call, and the manager as the packet handling
thread can tell: a link is there from when it has a route until the route is
gone. The list is what has happened already and is not seen there yet. -/
inductive Settles (L : Api) : Manager → Call → List Event → Manager → Prop
  | idle (m : Manager) : Settles L m .idle [] m
  | built {m : Manager} {r : CreateRequest} {f : Fresh} {es : List Event} {tr : Transport}
      {p : PeerState} (h : Pending L m r f es tr p) :
      Settles L (withObjects m f tr m.uidMap m.transportMap) (.createBuilt p) (.create r f :: es) m
  | keyed {m : Manager} {r : CreateRequest} {f : Fresh} {es : List Event} {tr : Transport}
      {p : PeerState} (h : Pending L m r f es tr p) :
      Settles L (withObjects m f tr (m.uidMap.insert p.uid (some p)) m.transportMap) (.createKeyed p)
        (.create r f :: es) m
  | mapped {m : Manager} {r : CreateRequest} {f : Fresh} {es : List Event} {tr : Transport}
      {p : PeerState} (h : Pending L m r f es tr p) :
      Settles L (withObjects m f tr (m.uidMap.insert p.uid (some p))
        (m.transportMap.insert p.transport p.uid)) (.createMapped p) (.create r f :: es) m
  | routed (m : Manager) (p : PeerState) : Settles L m (.createRouted p) [] m
  | found (m : Manager) (uid : Bytes) : Settles L m (.destroyFound uid) [.destroy uid] m
  | unrouted {m : Manager} {uid : Bytes} {p : PeerState} (hp : m.uidMap uid = some (some p)) :
      Settles L m (.destroyUnrouted uid) [] (releasePeer { m with
        uidMap := m.uidMap.erase uid
        transportMap := m.transportMap.erase p.transport } p)
  | unmapped (m : Manager) (uid : Bytes) (p : PeerState) :
      Settles L m (.destroyUnmapped uid p) [] (releasePeer { m with uidMap := m.uidMap.erase uid } p)
  | erased (m : Manager) (p : PeerState) : Settles L m (.destroyErased p) [] (releasePeer m p)

/-- All that the packet handling thread looks at. -/
structure SamePath (m m' : Manager) : Prop where
  shortUidMap : m'.shortUidMap = m.shortUidMap
  forwardSocket : m'.forwardSocket = m.forwardSocket
  forwardAddr : m'.forwardAddr = m.forwardAddr
  transports : ∀ key t, m.shortUidMap key = some t → m'.transports t = m.transports t

section

variable {L : Api} {m m' : Manager} {c : Call} {r : CreateRequest} {f : Fresh} {es : List Event}
  {tr : Transport} {p : PeerState}

theorem handlePacket_same {memory : Nat → Byte} {data : Bytes} {out : List Output} (h : SamePath m m')
    (hh : handlePacket L memory m data = some (m, out)) :
    handlePacket L memory m' data = some (m', out) := by
  obtain hl | hl := Nat.lt_or_ge data.length kHeaderSize
  · rw [handlePacket_short L memory hl] at hh ⊢
    cases hh
    rfl
  have hforward : ∀ type, forward memory m' type data = forward memory m type data := by
    intro type
    rw [forward, h.forwardSocket, h.forwardAddr, forward]
  cases hr : m.shortUidMap (destKey L data) with
  | none =>
    rw [handlePacket_noRoute L memory hl hr] at hh
    rw [handlePacket_noRoute L memory hl (by rw [h.shortUidMap, hr]), hforward]
    cases hh
    rfl
  | some t =>
    cases ht : m.transports t with
    | none =>
      rw [handlePacket_dangling L memory hl hr ht] at hh
      cases hh
    | some tr =>
      rw [handlePacket_route L memory hl hr ht] at hh
      rw [handlePacket_route L memory hl (by rw [h.shortUidMap, hr]) ((h.transports _ _ hr).trans ht)]
      cases hh
      rw [routed, hforward, routed]

theorem onReadPacket_same {channel : Ptr} {data : Bytes} {packet : Option Bytes} (h : SamePath m m')
    (hh : onReadPacket L m channel data = some (m, packet)) :
    onReadPacket L m' channel data = some (m', packet) := by
  obtain hl | hl := Nat.lt_or_ge data.length kHeaderSize
  · rw [onReadPacket_short L channel hl] at hh ⊢
    cases hh
    rfl
  cases hr : m.shortUidMap (sourceKey L data) with
  | none =>
    rw [onReadPacket_noRoute L channel hl hr] at hh
    rw [onReadPacket_noRoute L channel hl (by rw [h.shortUidMap, hr])]
    cases hh
    rfl
  | some t =>
    cases ht : m.transports t with
    | none =>
      have hindex := PartialMap.index_of_mem null hr
      simp [onReadPacket, Nat.not_lt.mpr hl, hr, hindex, ht] at hh
    | some tr =>
      rw [onReadPacket_route L channel hl hr ht] at hh
      rw [onReadPacket_route L channel hl (by rw [h.shortUidMap, hr]) ((h.transports _ _ hr).trans ht)]
      cases hh
      rfl

theorem ne_of_free {t : Ptr} (h : Linked m) (hfree : m.transports t = none) {key : Bytes} {t' : Ptr}
    (hk : m.shortUidMap key = some t') : t' ≠ t := by
  obtain ⟨tr, ht⟩ := h.routesLive key t' hk
  rintro rfl
  rw [hfree] at ht
  cases ht

theorem samePath_withObjects (h : Linked m) (hf : Available m f)
    (uidMap : PartialMap Bytes (Option PeerState)) (transportMap : PartialMap Ptr Bytes) :
    SamePath (withObjects m f tr uidMap transportMap) m := by
  refine ⟨rfl, rfl, rfl, fun key t hk => ?_⟩
  exact (PartialMap.insert_of_ne _ _ (ne_of_free h hf.transport_free hk)).symm

theorem samePath_release (h : Linked (releasePeer m p)) : SamePath m (releasePeer m p) := by
  refine ⟨rfl, rfl, rfl, fun key t hk => ?_⟩
  have hne : t ≠ p.transport := ne_of_free h (PartialMap.erase_self _ _) hk
  exact PartialMap.erase_of_ne _ hne

theorem samePath_of_settles (h : Settles L m c es m') (hl : Linked m') : SamePath m m' := by
  cases h with
  | idle | routed | found => exact ⟨rfl, rfl, rfl, fun _ _ _ => rfl⟩
  | built h | keyed h | mapped h => exact samePath_withObjects hl h.available _ _
  | unrouted | unmapped | erased =>
    have hs := samePath_release hl
    exact ⟨hs.shortUidMap, hs.forwardSocket, hs.forwardAddr, hs.transports⟩

theorem pending_setForwardAddr (h : Pending L m r f es tr p) (addr : SocketAddress) :
    Pending L { m with forwardAddr := addr } r f es tr p :=
  ⟨h.refused, ⟨h.available.transport_ne, h.available.transport_free, h.available.channel_free⟩, h.peer, h.aged⟩

theorem settles_setForwardAddr (h : Settles L m c es m') (addr : SocketAddress) :
    Settles L { m with forwardAddr := addr } c es { m' with forwardAddr := addr } := by
  cases h with
  | idle => exact .idle _
  | built h => exact .built (pending_setForwardAddr h addr)
  | keyed h => exact .keyed (pending_setForwardAddr h addr)
  | mapped h => exact .mapped (pending_setForwardAddr h addr)
  | routed => exact .routed _ _
  | found => exact .found _ _
  | unrouted hp => exact .unrouted hp
  | unmapped => exact .unmapped _ _ _
  | erased => exact .erased _ _

section

variable {t : Ptr} {tr' : Transport} (readable writable wasWritable hasChannel : Bool)

theorem pending_setStatus (h : Pending L m r f es tr p) (hne : t ≠ f.transport) :
    Pending L (setStatus m t tr' readable writable wasWritable hasChannel) r f es tr p := by
  refine ⟨h.refused, ⟨h.available.transport_ne, ?_, h.available.channel_free⟩, h.peer, h.aged⟩
  exact (PartialMap.insert_of_ne _ _ hne.symm).trans h.available.transport_free

theorem aged_other {t₀ : Ptr} {tr₀ : Transport} (h : Aged t₀ tr₀ es tr) (hne : t ≠ t₀) :
    es.filter (isStatusOf t) = [] := by
  induction h with
  | new => rfl
  | status h a b c d ih =>
    rw [List.filter_append, ih]
    simp [isStatusOf, hne.symm]

theorem setStatus_withObjects {uidMap : PartialMap Bytes (Option PeerState)}
    {transportMap : PartialMap Ptr Bytes} (h : Pending L m r f es tr p)
    (ht : (withObjects m f tr uidMap transportMap).transports t = some tr') :
    (m.transports t = some tr' ∧ (Event.create r f :: es).filter (isStatusOf t) = [] ∧
      Pending L (setStatus m t tr' readable writable wasWritable hasChannel) r f es tr p ∧
      setStatus (withObjects m f tr uidMap transportMap) t tr' readable writable wasWritable hasChannel =
        withObjects (setStatus m t tr' readable writable wasWritable hasChannel) f tr uidMap transportMap) ∨
    ∃ aged, Pending L m r f (es ++ [.linkStatus t readable writable wasWritable hasChannel]) aged p ∧
      setStatus (withObjects m f tr uidMap transportMap) t tr' readable writable wasWritable hasChannel =
        withObjects m f aged uidMap transportMap := by
  by_cases hne : t = f.transport
  · subst hne
    have he : tr = tr' := Option.some.inj ((PartialMap.insert_self _ _ _).symm.trans ht)
    refine .inr ⟨_, ⟨h.refused, h.available, h.peer, he ▸ h.aged.status _ _ _ _⟩, ?_⟩
    simp only [setStatus, withObjects, PartialMap.insert_insert]
  · refine .inl ⟨(PartialMap.insert_of_ne _ _ hne).symm.trans ht, ?_,
      pending_setStatus readable writable wasWritable hasChannel h hne, ?_⟩
    · simp [isStatusOf, aged_other h.aged hne]
    · simp only [setStatus, withObjects, PartialMap.insert_comm _ hne]

theorem releasePeer_setStatus (ht : m.transports t = some tr') :
    ((releasePeer m p).transports t = some tr' ∧
      releasePeer (setStatus m t tr' readable writable wasWritable hasChannel) p =
        setStatus (releasePeer m p) t tr' readable writable wasWritable hasChannel) ∨
    releasePeer (setStatus m t tr' readable writable wasWritable hasChannel) p = releasePeer m p := by
  by_cases hne : t = p.transport
  · right
    simp only [releasePeer, setStatus, hne, PartialMap.erase_insert_self]
  · left
    refine ⟨(PartialMap.erase_of_ne _ hne).trans ht, ?_⟩
    simp only [releasePeer, setStatus, PartialMap.erase_insert_of_ne _ hne]

theorem settles_setStatus (h : Settles L m c es m') (ht : m.transports t = some tr') :
    (m'.transports t = some tr' ∧ es.filter (isStatusOf t) = [] ∧
      Settles L (setStatus m t tr' readable writable wasWritable hasChannel) c es
        (setStatus m' t tr' readable writable wasWritable hasChannel)) ∨
    Settles L (setStatus m t tr' readable writable wasWritable hasChannel) c es m' ∨
    Settles L (setStatus m t tr' readable writable wasWritable hasChannel) c
      (es ++ [.linkStatus t readable writable wasWritable hasChannel]) m' := by
  cases h with
  | idle => exact .inl ⟨ht, rfl, .idle _⟩
  | routed => exact .inl ⟨ht, rfl, .routed _ _⟩
  | found => exact .inl ⟨ht, rfl, .found _ _⟩
  | built h =>
    obtain ⟨ht', hnone, hp, he⟩ | ⟨aged, hp, he⟩ :=
      setStatus_withObjects readable writable wasWritable hasChannel h ht
    · exact .inl ⟨ht', hnone, he ▸ .built hp⟩
    · exact .inr (.inr (he ▸ .built hp))
  | keyed h =>
    obtain ⟨ht', hnone, hp, he⟩ | ⟨aged, hp, he⟩ :=
      setStatus_withObjects readable writable wasWritable hasChannel h ht
    · exact .inl ⟨ht', hnone, he ▸ .keyed hp⟩
    · exact .inr (.inr (he ▸ .keyed hp))
  | mapped h =>
    obtain ⟨ht', hnone, hp, he⟩ | ⟨aged, hp, he⟩ :=
      setStatus_withObjects readable writable wasWritable hasChannel h ht
    · exact .inl ⟨ht', hnone, he ▸ .mapped hp⟩
    · exact .inr (.inr (he ▸ .mapped hp))
  | @unrouted _ uid p hp =>
    obtain ⟨ht', he⟩ | he := releasePeer_setStatus (m := { m with
      uidMap := m.uidMap.erase uid
      transportMap := m.transportMap.erase p.transport }) (p := p)
      readable writable wasWritable hasChannel ht
    · exact .inl ⟨ht', rfl, he ▸ .unrouted hp⟩
    · exact .inr (.inl (he ▸ .unrouted hp))
  | unmapped _ uid p =>
    obtain ⟨ht', he⟩ | he := releasePeer_setStatus (m := { m with uidMap := m.uidMap.erase uid }) (p := p)
      readable writable wasWritable hasChannel ht
    · exact .inl ⟨ht', rfl, he ▸ .unmapped _ _ _⟩
    · exact .inr (.inl (he ▸ .unmapped _ _ _))
  | erased _ p =>
    obtain ⟨ht', he⟩ | he := releasePeer_setStatus (p := p) readable writable wasWritable hasChannel ht
    · exact .inl ⟨ht', rfl, he ▸ .erased _ _⟩
    · exact .inr (.inl (he ▸ .erased _ _))

end

theorem settles_outside (h : Settles L m c es m') : es.filter outside = [] := by
  have haged : ∀ {t tr₀ es tr}, Aged t tr₀ es tr → es.filter outside = [] := by
    intro t tr₀ es tr ha
    induction ha with
    | new => rfl
    | status ha a b c d ih => rw [List.filter_append, ih]; rfl
  cases h with
  | built h | keyed h | mapped h =>
    rw [List.filter_cons_of_neg (by simp [outside])]
    exact haged h.aged
  | _ => rfl

end

/-- The events `ds`, with what is to be seen later, are the events `es` with the
calls and the changes of state moved and some of the latter left out. -/
structure Kept (es ds later : List Event) : Prop where
  outside : (ds ++ later).filter outside = es.filter outside
  calls : (ds ++ later).filter isCall = es.filter isCall
  statuses : ∀ t, ((ds ++ later).filter (isStatusOf t)).Sublist (es.filter (isStatusOf t))

section

variable {es ds later : List Event}

theorem filter_now {keep : Event → Bool} {e : Event} (h : keep e = true → later.filter keep = []) :
    (ds ++ [e] ++ later).filter keep = (ds ++ later).filter keep ++ [e].filter keep := by
  simp only [List.filter_append]
  cases he : keep e with
  | false => simp [he]
  | true => simp [h he]

theorem Kept.now (h : Kept es ds later) (e : Event) (ho : later.filter LinkAtomicity.outside = [])
    (hc : isCall e = true → later.filter isCall = [])
    (hs : ∀ t, isStatusOf t e = true → later.filter (isStatusOf t) = []) :
    Kept (es ++ [e]) (ds ++ [e]) later := by
  refine ⟨?_, ?_, fun t => ?_⟩
  · rw [filter_now fun _ => ho, h.outside, List.filter_append]
  · rw [filter_now hc, h.calls, List.filter_append]
  · rw [filter_now (hs t), List.filter_append es]
    exact (h.statuses t).append_right _

theorem Kept.put_off (h : Kept es ds later) (e : Event) : Kept (es ++ [e]) ds (later ++ [e]) := by
  refine ⟨?_, ?_, fun t => ?_⟩
  · rw [← List.append_assoc, List.filter_append, h.outside, List.filter_append]
  · rw [← List.append_assoc, List.filter_append, h.calls, List.filter_append]
  · rw [← List.append_assoc, List.filter_append (ds ++ later), List.filter_append es]
    exact (h.statuses t).append_right _

theorem Kept.drop (h : Kept es ds later) {e : Event} (ho : LinkAtomicity.outside e = false)
    (hc : isCall e = false) : Kept (es ++ [e]) ds later := by
  refine ⟨?_, ?_, fun t => ?_⟩
  · simp [h.outside, ho, List.filter_append]
  · simp [h.calls, hc]
  · rw [List.filter_append es]
    exact (h.statuses t).trans (List.sublist_append_left _ _)

theorem Kept.catch_up (h : Kept es ds later) : Kept es (ds ++ later) [] := by
  constructor
  · rw [List.append_nil, h.outside]
  · rw [List.append_nil, h.calls]
  · rw [List.append_nil]
    exact h.statuses

end

/-- How the two threads and the system of whole calls go along with each other. -/
structure Matches (L : Api) (es : List Event) (s : Threads) (ds : List Event) (w : Whole) : Prop where
  sound : Sound s
  linked : Linked w.manager
  recvQueue : w.recvQueue = s.recvQueue
  sent : w.sent = s.sent
  settles : ∃ later, Settles L s.manager s.call later w.manager ∧ Kept es ds later

section

variable {L : Api}

theorem linked_atomicStep {w w' : Whole} {e : Event} (h : Linked w.manager) (hst : AtomicStep L w e w') :
    Linked w'.manager := by
  cases hst with
  | create hf => exact LinkHeap.linked_create h hf
  | destroy hd => exact LinkHeap.linked_destroy h hd
  | setup memory r => exact h.frame (frame_setup L memory _ r)
  | setForwardAddr addr => exact h.frame (Frame.of_eq rfl rfl rfl)
  | linkStatus a b c d ht => exact h.frame (frame_setStatus ht a b c d)
  | handlePacket hh => exact h.frame (handlePacket_manager L _ hh ▸ Frame.of_eq rfl rfl rfl)
  | onReadPacket hh => exact h.frame (onReadPacket_manager L hh ▸ Frame.of_eq rfl rfl rfl)

theorem linked_atomicRun {w w' : Whole} {es : List Event} (h : Linked w.manager)
    (hr : Run (AtomicStep L) w es w') : Linked w'.manager :=
  run_invariant (P := fun w : Whole => Linked w.manager) (fun _ _ _ hw hst => linked_atomicStep hw hst) hr h

theorem run_aged {w : Whole} {t : Ptr} {tr₀ tr : Transport} {es : List Event} (h : Aged t tr₀ es tr)
    (ht : w.manager.transports t = some tr₀) :
    Run (AtomicStep L) w es { w with
      manager := { w.manager with transports := w.manager.transports.insert t tr } } := by
  induction h with
  | new =>
    rw [PartialMap.insert_of_mem ht]
    exact Run.nil w
  | @status _ tr _ a b c d ih =>
    have hstep := AtomicStep.linkStatus (L := L) (s := { w with
      manager := { w.manager with transports := w.manager.transports.insert t tr } })
      a b c d (PartialMap.insert_self _ _ _)
    rw [setStatus, PartialMap.insert_insert] at hstep
    exact Run.snoc ih hstep

theorem createTransport_withObjects {m : Manager} {r : CreateRequest} {f : Fresh}
    (hr : r.refused m = false) :
    (createTransport L m r f).1 =
      let p := (buildTransport L m r f).2
      (insertTransportMapW (withObjects m f (builtTransport L m r f) (m.uidMap.insert p.uid (some p))
        (m.transportMap.insert p.transport p.uid)) (shortUid p.uid) p.transport).1 := by
  rw [createTransport_eq hr]
  rfl

theorem run_pending {w : Whole} {r : CreateRequest} {f : Fresh} {es : List Event} {tr : Transport}
    {p : PeerState} (h : Pending L w.manager r f es tr p) :
    Run (AtomicStep L) w (.create r f :: es) { w with
      manager := (insertTransportMapW (withObjects w.manager f tr (w.manager.uidMap.insert p.uid (some p))
        (w.manager.transportMap.insert p.transport p.uid)) (shortUid p.uid) p.transport).1 } := by
  have hcreate : AtomicStep L w (.create r f) _ := .create fun _ => h.available
  rw [createTransport_withObjects h.refused, ← h.peer] at hcreate
  have haged := run_aged (L := L) h.aged (w := { w with
    manager := (insertTransportMapW (withObjects w.manager f (builtTransport L w.manager r f)
      (w.manager.uidMap.insert p.uid (some p)) (w.manager.transportMap.insert p.transport p.uid))
      (shortUid p.uid) p.transport).1 }) (PartialMap.insert_self _ _ _)
  refine run_cons hcreate ?_
  simpa only [insertTransportMapW, withObjects, PartialMap.insert_insert] using haged

variable {es ds later : List Event} {s s' : Threads} {w w' : Whole} {e : Event}

theorem Matches.stutter (h : Matches L es s ds w) (hst : Step L s e s')
    (hq : s'.recvQueue = s.recvQueue) (ho : s'.sent = s.sent)
    (hs : Settles L s'.manager s'.call later w.manager) (hk : Kept (es ++ [e]) ds later) :
    ∃ ds' w', Run (AtomicStep L) w ds' w' ∧ Matches L (es ++ [e]) s' (ds ++ ds') w' := by
  refine ⟨[], w, Run.nil w, sound_step h.sound hst, h.linked, h.recvQueue.trans hq.symm,
    h.sent.trans ho.symm, later, hs, ?_⟩
  rwa [List.append_nil]

theorem Matches.together (h : Matches L es s ds w) (hst : Step L s e s') (hst' : AtomicStep L w e w')
    (hq : w'.recvQueue = s'.recvQueue) (ho : w'.sent = s'.sent)
    (hs : Settles L s'.manager s'.call later w'.manager) (hk : Kept (es ++ [e]) (ds ++ [e]) later) :
    ∃ ds' w', Run (AtomicStep L) w ds' w' ∧ Matches L (es ++ [e]) s' (ds ++ ds') w' :=
  ⟨[e], w', run_single hst', sound_step h.sound hst, linked_atomicStep h.linked hst', hq, ho, later, hs, hk⟩

/-- All that was put off is to be seen now, at the end of the run. -/
theorem Matches.catch_up (h : Matches L es s ds w) (hst : Step L s .advance s')
    (hr : Run (AtomicStep L) w later w') (hq : w'.recvQueue = s'.recvQueue) (ho : w'.sent = s'.sent)
    (hs : Settles L s'.manager s'.call [] w'.manager) (hk : Kept es ds later) :
    ∃ ds' w', Run (AtomicStep L) w ds' w' ∧ Matches L (es ++ [.advance]) s' (ds ++ ds') w' :=
  ⟨later, w', hr, sound_step h.sound hst, linked_atomicRun h.linked hr, hq, ho, [], hs,
    (hk.drop rfl rfl).catch_up⟩

theorem destroyTransport_route {m : Manager} {uid : Bytes} {p : PeerState} (hp : m.uidMap uid = some (some p)) :
    ∃ log, destroyTransport m uid = some (releasePeer { (deleteTransportMapW m (shortUid uid)).1 with
      uidMap := (deleteTransportMapW m (shortUid uid)).1.uidMap.erase uid
      transportMap := (deleteTransportMapW m (shortUid uid)).1.transportMap.erase p.transport } p, true, log) := by
  simp only [destroyTransport, hp]
  exact ⟨_, rfl⟩

theorem matches_step (h : Matches L es s ds w) (hst : Step L s e s') :
    ∃ ds' w', Run (AtomicStep L) w ds' w' ∧ Matches L (es ++ [e]) s' (ds ++ ds') w' := by
  obtain ⟨m, c, recvQueue, sent, log⟩ := s
  obtain ⟨m', recvQueue', sent'⟩ := w
  have hok := h.sound.callOk
  have hq := h.recvQueue
  have hout := h.sent
  obtain ⟨later, hs, hk⟩ := h.settles
  have hsame := samePath_of_settles hs h.linked
  have ho := settles_outside hs
  dsimp only at hok hq hout hs hsame
  cases hst with
  | @refuse r f hc hr =>
    cases hc
    cases hs with
    | idle =>
      have he : (createTransport L m r f).1 = m := by simp [createTransport, hr]
      have hcreate : AtomicStep L ⟨m, recvQueue', sent'⟩ (.create r f) _ :=
        .create fun hr' => absurd (hr.symm.trans hr') (by simp)
      rw [he] at hcreate
      exact h.together (.refuse rfl hr) hcreate hq hout (.idle m)
        (hk.now _ rfl (fun _ => rfl) fun _ _ => rfl)
  | build hc hr hf =>
    cases hc
    cases hs with
    | idle => exact h.stutter (.build rfl hr hf) rfl rfl (.built ⟨hr, hf, rfl, .new⟩) (hk.put_off _)
  | key hc =>
    cases hc
    cases hs with
    | built hp => exact h.stutter (.key rfl) rfl rfl (.keyed hp) (hk.drop rfl rfl)
  | map hc =>
    cases hc
    cases hs with
    | keyed hp => exact h.stutter (.map rfl) rfl rfl (.mapped hp) (hk.drop rfl rfl)
  | insertRoute hc =>
    cases hc
    cases hs with
    | mapped hp =>
      exact h.catch_up (.insertRoute rfl) (run_pending hp) hq hout (.routed _ _) hk
  | created hc =>
    cases hc
    cases hs with
    | routed => exact h.stutter (.created rfl) rfl rfl (.idle _) (hk.drop rfl rfl)
  | @unknown uid hc hn =>
    cases hc
    cases hs with
    | idle =>
      have hn' : m.uidMap uid = none := hn
      have hd : destroyTransport m uid = some (m, false, []) := by simp only [destroyTransport, hn']
      exact h.together (.unknown rfl hn) (.destroy hd) hq hout (.idle m)
        (hk.now _ rfl (fun _ => rfl) fun _ _ => rfl)
  | find hc hn =>
    cases hc
    cases hs with
    | idle => exact h.stutter (.find rfl hn) rfl rfl (.found _ _) (hk.put_off _)
  | deleteRoute hc =>
    cases hc
    cases hs with
    | found =>
      obtain ⟨p, hp⟩ := hok
      obtain ⟨_, hd⟩ := destroyTransport_route hp
      refine h.catch_up (.deleteRoute rfl) (run_single (.destroy hd)) hq hout (.unrouted ?_) hk
      rw [deleteTransportMapW_manager]
      exact hp
  | unmap hc hp =>
    cases hc
    cases hs with
    | unrouted hp' =>
      cases hp.symm.trans hp'
      exact h.stutter (.unmap rfl hp) rfl rfl (.unmapped _ _ _) (hk.drop rfl rfl)
  | erase hc =>
    cases hc
    cases hs with
    | unmapped => exact h.stutter (.erase rfl) rfl rfl (.erased _ _) (hk.drop rfl rfl)
  | release hc =>
    cases hc
    cases hs with
    | erased => exact h.stutter (.release rfl) rfl rfl (.idle _) (hk.drop rfl rfl)
  | @setup memory r hc =>
    cases hc
    cases hs with
    | idle =>
      exact h.together (.setup rfl) (.setup memory r) hq hout (.idle _)
        (hk.now _ rfl (fun _ => rfl) fun _ _ => rfl)
  | setForwardAddr addr =>
    exact h.together (.setForwardAddr addr) (.setForwardAddr addr) hq hout (settles_setForwardAddr hs addr)
      (hk.now _ ho (fun hc => by cases hc) fun _ hc => by cases hc)
  | @linkStatus t tr a b c d ht =>
    obtain ⟨ht', hnone, hs'⟩ | hs' | hs' := settles_setStatus a b c d hs ht
    · refine h.together (.linkStatus a b c d ht) (.linkStatus a b c d ht') hq hout hs'
        (hk.now _ ho (fun hc => by cases hc) fun t' hc => ?_)
      rwa [← eq_of_beq hc]
    · exact h.stutter (.linkStatus a b c d ht) rfl rfl hs' (hk.drop rfl rfl)
    · exact h.stutter (.linkStatus a b c d ht) rfl rfl hs' (hk.put_off _)
  | handlePacket hh =>
    have hm := handlePacket_manager L _ hh
    subst hm
    refine h.together (.handlePacket hh) (.handlePacket (handlePacket_same hsame hh)) hq ?_ hs
      (hk.now _ ho (fun hc => by cases hc) fun _ hc => by cases hc)
    rw [hout]
  | onReadPacket hh =>
    have hm := onReadPacket_manager L hh
    subst hm
    refine h.together (.onReadPacket hh) (.onReadPacket (onReadPacket_same hsame hh)) ?_ hout hs
      (hk.now _ ho (fun hc => by cases hc) fun _ hc => by cases hc)
    rw [hq]

theorem matches_start (hs : Sound s) (hc : s.call = .idle) :
    Matches L [] s [] ⟨s.manager, s.recvQueue, s.sent⟩ :=
  ⟨hs, hs.linked, rfl, rfl, [], hc ▸ .idle _, ⟨rfl, rfl, fun _ => List.Sublist.refl _⟩⟩

/-- However the sub-steps of the two threads mix, the packets are handled as if
each link was made and torn down in one step: the same packets, calls and other
events in the same order, with the changes of state of each link kept in order. -/
theorem link_calls_are_atomic (h : Reachable (Step L) Initial s) (hc : s.call = .idle)
    (hr : Run (Step L) s es s') :
    ∃ ds w, Run (AtomicStep L) ⟨s.manager, s.recvQueue, s.sent⟩ ds w ∧
      w.recvQueue = s'.recvQueue ∧ w.sent = s'.sent ∧ ds.filter outside = es.filter outside ∧
      ds.filter isCall <+: es.filter isCall ∧
      (∀ t, (ds.filter (isStatusOf t)).Sublist (es.filter (isStatusOf t))) ∧
      (s'.call = .idle → w.manager = s'.manager ∧ ds.filter isCall = es.filter isCall) := by
  obtain ⟨ds, w, hw, hm⟩ := run_simulation (R := Matches L)
    (fun _ _ _ _ _ _ hm hst => matches_step hm hst) hr (matches_start (sound_of_reachable h) hc)
  obtain ⟨later, hs, hk⟩ := hm.settles
  refine ⟨ds, w, hw, hm.recvQueue, hm.sent, ?_, ?_, fun t => ?_, fun hidle => ?_⟩
  · rw [← hk.outside, List.filter_append, settles_outside hs, List.append_nil]
  · rw [← hk.calls, List.filter_append]
    exact List.prefix_append _ _
  · refine List.Sublist.trans ?_ (hk.statuses t)
    rw [List.filter_append]
    exact List.sublist_append_left _ _
  · rw [hidle] at hs
    generalize hm' : s'.manager = m' at hs ⊢
    cases hs with
    | idle => exact ⟨rfl, by rw [← hk.calls, List.append_nil]⟩

theorem run_mixed : ∃ es s', Run (Step Api.plain) Routes.start es s' ∧ s'.call = .idle ∧ s'.sent.length = 1 := by
  have hpacket : ∀ m : Manager, m.shortUidMap = PartialMap.empty →
      handlePacket Api.plain (fun _ => 0) m (List.replicate 50 98) =
        some (m, [forward (fun _ => 0) m (routelessType (List.replicate 50 98)) (List.replicate 50 98)]) :=
    fun m hm => handlePacket_noRoute Api.plain _ (by decide) (by rw [hm]; rfl)
  have h₁ : Run (Step Api.plain) Routes.start
      [.create (Routes.sampleRequest Routes.uidB) ⟨1, 2, 0⟩] _ :=
    run_single (.build rfl rfl ⟨by decide, rfl, rfl⟩)
  have h₂ := Run.snoc h₁ (.key rfl)
  have h₃ := Run.snoc h₂ (.handlePacket (hpacket _ rfl))
  have h₄ := Run.snoc h₃ (.map rfl)
  have h₅ := Run.snoc h₄ (.insertRoute rfl)
  exact ⟨_, _, Run.snoc h₅ (.created rfl), rfl, rfl⟩

theorem link_calls_are_atomic_mixed : ∃ es s' ds w, Run (Step Api.plain) Routes.start es s' ∧
    s'.sent.length = 1 ∧
    Run (AtomicStep Api.plain) ⟨Routes.start.manager, [], []⟩ ds w ∧ w.sent = s'.sent ∧
    w.manager = s'.manager ∧ ds.filter isCall = es.filter isCall := by
  obtain ⟨es, s', hr, hidle, hsent⟩ := run_mixed
  obtain ⟨ds, w, hw, _, hout, _, _, _, hend⟩ :=
    link_calls_are_atomic (reachable_init Routes.start_initial) rfl hr
  exact ⟨es, s', ds, w, hr, hsent, hw, hout, hend hidle⟩

end

end Tincan.LinkAtomicity
