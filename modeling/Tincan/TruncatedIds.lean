import Tincan.FastLookup

namespace Tincan.TruncatedIds

open Tincan.Library Tincan.Library.Text Tincan.Library.Runs
open Tincan.Libjingle Tincan.Utils Tincan.ConnectionManager Tincan.PacketPath
open Tincan.LinkThreads Tincan.Routes Tincan.FastLookup

/-- A channel that a transport shows was made for it, and still is its own. -/
def ChannelsOwned (m : Manager) : Prop :=
  ∀ t tr channel, m.transports t = some tr → tr.channel = some channel → m.channels channel = some t

theorem ChannelsOwned.congr {m m' : Manager} (h : ChannelsOwned m) (ht : m'.transports = m.transports)
    (hc : m'.channels = m.channels) : ChannelsOwned m' := by
  unfold ChannelsOwned
  rw [ht, hc]
  exact h

theorem channelsOwned_build {L : Api} {m : Manager} {r : CreateRequest} {f : ConnectionManager.Fresh}
    (h : ChannelsOwned m) (hf : Available m f) : ChannelsOwned (buildTransport L m r f).1 := by
  obtain ⟨new, hnew, hm⟩ := buildTransport_manager L m r f
  rw [hm]
  intro t tr channel ht hc
  obtain ⟨rfl, rfl⟩ | ⟨_, ht'⟩ := PartialMap.insert_eq_some.mp ht
  · rw [hnew.1] at hc
    cases hc
    exact PartialMap.insert_self _ _ _
  · have howned := h t tr channel ht' hc
    refine PartialMap.insert_eq_some.mpr (.inr ⟨?_, howned⟩)
    rintro rfl
    rw [hf.channel_free] at howned
    cases howned

theorem channelsOwned_setStatus {m : Manager} {t : Ptr} {tr : Transport} (h : ChannelsOwned m)
    (ht : m.transports t = some tr) (a b c d : Bool) : ChannelsOwned (setStatus m t tr a b c d) := by
  intro t' tr' channel ht' hc
  obtain ⟨rfl, rfl⟩ | ⟨_, hold⟩ := PartialMap.insert_eq_some.mp ht'
  · cases d with
    | true => exact h t' tr channel ht hc
    | false => cases hc
  · exact h t' tr' channel hold hc

theorem channelsOwned_release {m : Manager} (h : ChannelsOwned m) (p : PeerState) :
    ChannelsOwned (releasePeer m p) := by
  intro t tr channel ht hc
  obtain ⟨hne, ht'⟩ := PartialMap.erase_eq_some.mp ht
  have howned := h t tr channel ht' hc
  simp [releasePeer, howned, hne]

theorem channelsOwned_step {L : Api} {s t : Threads} {e : Event} (h : ChannelsOwned s.manager)
    (hst : Step L s e t) : ChannelsOwned t.manager := by
  cases hst with
  | build hc hr hf => exact channelsOwned_build h hf
  | linkStatus a b c d ht => exact channelsOwned_setStatus h ht a b c d
  | release hc => exact channelsOwned_release h _
  | deleteRoute hc =>
    simp only [deleteTransportMapW_manager]
    exact h.congr rfl rfl
  | @setup memory r hc =>
    unfold setup
    split <;> exact h.congr rfl rfl
  | handlePacket hh =>
    rw [handlePacket_manager L _ hh]
    exact h
  | onReadPacket hh =>
    rw [onReadPacket_manager L hh]
    exact h
  | _ => exact h.congr rfl rfl

theorem channelsOwned_of_reachable {L : Api} {s : Threads} (h : Reachable (Step L) Initial s) :
    ChannelsOwned s.manager := by
  refine reachable_invariant (P := fun s => ChannelsOwned s.manager) ?_ ?_ h
  · intro s hs t tr channel ht
    simp [hs.transports, PartialMap.empty] at ht
  · intro s e t hs hst
    exact channelsOwned_step hs hst

/-- A route that ends at a transport in use is the route of the link that uses it. -/
theorem entry_of_route {s : Threads} (h : Sound s) {p : PeerState} (hp : s.Holds p) {key : Bytes}
    (hk : s.manager.shortUidMap key = some p.transport) :
    s.manager.uidMap p.uid = some (some p) ∧ shortUid p.uid = key := by
  obtain ⟨v, q, hv, ht, hs⟩ := h.linked.routes key _ hk
  have hentry : s.manager.uidMap p.uid = some (some p) := by
    obtain ⟨u, hu⟩ | hcall := hp
    · obtain ⟨p', _, hpp, hpu, _⟩ := h.linked.owned u (some p) hu
      cases hpp
      rw [hpu]
      exact hu
    · have hok := h.callOk
      cases hc : s.call with
      | createBuilt q' | destroyErased q' =>
        rw [hc] at hcall hok
        cases hcall
        exact absurd ht (Detached.apart hok v q hv)
      | createKeyed q' | createMapped q' | createRouted q' =>
        rw [hc] at hcall hok
        cases hcall
        exact hok
      | destroyUnmapped uid q' =>
        rw [hc] at hcall hok
        cases hcall
        obtain ⟨p', _, hpp, hpu, _⟩ := h.linked.owned uid (some p) hok.1
        cases hpp
        rw [hpu]
        exact hok.1
      | idle | destroyFound uid | destroyUnrouted uid =>
        rw [hc] at hcall
        cases hcall
  have hvu := h.linked.apart v p.uid q p hv hentry ht
  exact ⟨hentry, hvu ▸ hs⟩

theorem accepted_route {L : Api} {m m' : Manager} (hlive : RoutesLive m) (hown : ChannelsOwned m)
    {channel t : Ptr} (hch : m.channels channel = some t) {data packet : Bytes}
    (ha : onReadPacket L m channel data = some (m', some packet)) :
    packet = data ∧ m.shortUidMap (sourceKey L data) = some t := by
  obtain hlen | hlen := Nat.lt_or_ge data.length kHeaderSize
  · rw [onReadPacket_short L channel hlen] at ha
    cases ha
  · cases hr : m.shortUidMap (sourceKey L data) with
    | none =>
      rw [onReadPacket_noRoute L channel hlen hr] at ha
      cases ha
    | some t' =>
      obtain ⟨tr, ht⟩ := hlive _ t' hr
      rw [onReadPacket_route L channel hlen hr ht] at ha
      split at ha
      · next hc =>
        have howner := hown t' tr channel ht hc
        rw [hch] at howner
        cases howner
        cases ha
        exact ⟨rfl, rfl⟩
      · cases ha

def hexUids : Set Bytes := { u | u.length = kIdSize ∧ ∀ b ∈ u, Numerals.isHexDigit b = true }

/-- The check authenticates eight bytes of the source id and nothing else: they
are those of the id that the channel's own link was made for. -/
theorem accepted_source_matches (L : Api) (hex : L.HexEncodes) {s : Threads}
    (h : Reachable (Guarded (Within hexUids) (Step L)) Initial s) {p : PeerState} (hp : s.Holds p)
    (channel : Ptr) (hch : s.manager.channels channel = some p.transport) {m : Manager}
    {data packet : Bytes} (ha : onReadPacket L s.manager channel data = some (m, some packet)) :
    packet = data ∧
      (∃ id, id.length = kIdBytesLen ∧ L.hexEncode id = p.uid ∧
        (sourceId data).take kShortLen = id.take kShortLen) ∧
      ∀ v, L.hexEncode (sourceId data) = v → shortUid v = shortUid p.uid := by
  have hsound := sound_of_reachable (reachable_of_guarded h)
  have hkeys : KeysIn hexUids s := keysIn_of_reachable h
  obtain ⟨hdata, hroute⟩ := accepted_route hsound.linked.routesLive
    (channelsOwned_of_reachable (reachable_of_guarded h)) hch ha
  obtain ⟨hentry, hkey⟩ := entry_of_route hsound hp hroute
  have hshort : shortUid (L.hexEncode (sourceId data)) = shortUid p.uid := by
    rw [hkey, sourceKey, hexEncode_short hex]
    rfl
  refine ⟨hdata, ?_, ?_⟩
  · obtain ⟨hlen, hchars⟩ := hkeys.keys p.uid (by rw [hentry]; simp)
    have hlen' : p.uid.length = 2 * kIdBytesLen := hlen
    obtain ⟨id, hid, htext⟩ := Numerals.exists_hex hchars hlen'
    refine ⟨id, hid, (hex id).trans htext, Numerals.hex_injective ?_⟩
    rw [← htext, hex] at hshort
    rwa [shortUid, shortUid, substr_zero, substr_zero, Nat.mul_comm, Numerals.take_hex,
      Numerals.take_hex] at hshort
  · rintro v rfl
    exact hshort

def halfForged : Bytes := List.replicate 8 187 ++ List.replicate 12 170 ++ List.replicate 20 0

def uidB' : Bytes := List.replicate 16 98 ++ List.replicate 24 97

theorem uidB_hex : uidB ∈ hexUids := by
  refine ⟨rfl, ?_⟩
  intro b hb
  rw [List.eq_of_mem_replicate hb]
  rfl

theorem uidB'_hex : uidB' ∈ hexUids := by
  refine ⟨rfl, ?_⟩
  intro b hb
  obtain hb | hb := List.mem_append.mp hb <;> rw [List.eq_of_mem_replicate hb] <;> rfl

def rivals : Threads := created (created start uidB' ⟨1, 2, 0⟩) uidB ⟨3, 4, 0⟩

theorem rivals_reachable : Reachable (Guarded (Within hexUids) (Step Api.plain)) Initial rivals := by
  have h₁ : Reachable (Guarded (Within hexUids) (Step Api.plain)) Initial
      (created start uidB' ⟨1, 2, 0⟩) :=
    reachable_created (reachable_init start_initial) rfl ⟨by decide, rfl, rfl⟩ uidB'_hex
      (fun _ => trivial)
  exact reachable_created h₁ rfl ⟨by decide, rfl, rfl⟩ uidB_hex (fun _ => trivial)

theorem accepted_source_matches_rivals :
    (∃ id, id.length = kIdBytesLen ∧ Api.plain.hexEncode id = uidB ∧
      (sourceId halfForged).take kShortLen = id.take kShortLen) ∧
    ∀ v, Api.plain.hexEncode (sourceId halfForged) = v → shortUid v = shortUid uidB :=
  (accepted_source_matches Api.plain plain_hexEncodes rivals_reachable (.inl ⟨uidB, rfl⟩) 4 rfl rfl).2

/-- The peer `uidB` has a packet accepted under the id of another linked peer. -/
theorem forged_source_accepted :
    Reachable (Guarded (Within hexUids) (Step Api.plain)) Initial rivals ∧
      (∃ p, rivals.manager.uidMap uidB = some (some p) ∧ rivals.manager.channels 4 = some p.transport) ∧
      onReadPacket Api.plain rivals.manager 4 halfForged = some (rivals.manager, some halfForged) ∧
      Api.plain.hexEncode (sourceId halfForged) ≠ uidB ∧
      Api.plain.hexEncode (sourceId halfForged) = uidB' ∧ (rivals.manager.uidMap uidB').isSome :=
  ⟨rivals_reachable, ⟨_, rfl, rfl⟩, rfl, by decide, rfl, rfl⟩

/-- The destination of a packet that no peer is meant to get. -/
def NullDest (data : Bytes) : Prop :=
  kHeaderSize ≤ data.length ∧ destId data = List.replicate kIdBytesLen 0

def Forwarded (L : Api) (m : Manager) (data : Bytes) : Prop :=
  ∀ memory, ∃ type, handlePacket L memory m data = some (m, [forward memory m type data])

def Captured (m : Manager) : Prop :=
  ∃ t tr channel, m.shortUidMap (shortUid nullUid) = some t ∧ m.transports t = some tr ∧
    tr.writable = true ∧ tr.channel = some channel

theorem destKey_null {L : Api} (hex : L.HexEncodes) {data : Bytes} (h : NullDest data) :
    destKey L data = shortUid nullUid := by
  have hshort : destKey L data = shortUid (L.hexEncode (destId data)) := hexEncode_short hex _ _
  rw [hshort, h.2, hex]
  rfl

theorem routed_forward_iff {m : Manager} {tr : Transport} {data : Bytes} :
    (∀ memory, ∃ type, routed memory m tr data = forward memory m type data) ↔
      ¬ (tr.writable = true ∧ ∃ channel, tr.channel = some channel) := by
  unfold routed
  cases tr.writable with
  | false => exact iff_of_true (fun _ => ⟨_, rfl⟩) (by simp)
  | true =>
    cases tr.channel with
    | none => exact iff_of_true (fun _ => ⟨_, rfl⟩) (by simp)
    | some channel =>
      refine iff_of_false ?_ (by simp)
      intro h
      obtain ⟨type, ht⟩ := h (fun _ => 0)
      cases ht

theorem forwarded_iff_not_captured {L : Api} (hex : L.HexEncodes) {m : Manager} (hlive : RoutesLive m)
    {data : Bytes} (h : NullDest data) : Forwarded L m data ↔ ¬ Captured m := by
  have hkey := destKey_null hex h
  cases hr : m.shortUidMap (shortUid nullUid) with
  | none =>
    have hf : Forwarded L m data := fun memory =>
      ⟨_, handlePacket_noRoute L memory h.1 (hkey ▸ hr)⟩
    have hc : ¬ Captured m := by
      rintro ⟨t, _, _, ht, _⟩
      rw [hr] at ht
      cases ht
    exact iff_of_true hf hc
  | some t =>
    obtain ⟨tr, ht⟩ := hlive _ t hr
    have hrouted := fun memory => handlePacket_route L memory h.1 (hkey ▸ hr) ht
    have hcap : Captured m ↔ tr.writable = true ∧ ∃ channel, tr.channel = some channel := by
      constructor
      · rintro ⟨t', tr', channel, hr', ht', hw, hc⟩
        rw [hr] at hr'
        cases hr'
        rw [ht] at ht'
        cases ht'
        exact ⟨hw, channel, hc⟩
      · rintro ⟨hw, channel, hc⟩
        exact ⟨t, tr, channel, hr, ht, hw, hc⟩
    have hout : Forwarded L m data ↔
        ∀ memory, ∃ type, routed memory m tr data = forward memory m type data := by
      unfold Forwarded
      simp only [hrouted, Option.some.injEq, Prod.mk.injEq, List.cons.injEq, true_and, and_true]
    rw [hout, hcap, routed_forward_iff]

/-- No link is made for a uid that begins like the null id. -/
def NoNullUid (s : Threads) : Event → Prop
  | .create r _ => r.refused s.manager = false → shortUid r.uid ≠ shortUid nullUid
  | _ => True

theorem not_captured_of_reachable {L : Api} {s : Threads}
    (h : Reachable (Guarded NoNullUid (Step L)) Initial s) : ¬ Captured s.manager := by
  have hkeys : KeysIn { u | shortUid u ≠ shortUid nullUid } s := by
    refine reachable_invariant ?_ ?_ h
    · intro s hs
      exact keysIn_initial hs
    · rintro s e t hk ⟨hg, hst⟩
      refine keysIn_step hk ?_ hst
      rintro r f rfl hr
      exact hg hr
  rintro ⟨t, _, _, ht, _⟩
  obtain ⟨u, p, hu, _, hshort⟩ :=
    (sound_of_reachable (reachable_of_guarded h)).linked.routes _ t ht
  exact hkeys.keys u (by rw [hu]; simp) hshort

/-- Packets for nobody go to the controller as long as no link is made for a
uid that begins with sixteen zeros; in a single state, unless such a link is
there and writable. -/
theorem null_dest_forwarded (L : Api) (hex : L.HexEncodes) {data : Bytes} (h : NullDest data) :
    (∀ s, Reachable (Guarded NoNullUid (Step L)) Initial s → Forwarded L s.manager data) ∧
    ∀ s, Reachable (Step L) Initial s → (Forwarded L s.manager data ↔ ¬ Captured s.manager) := by
  constructor
  · intro s hs
    have hlive := (sound_of_reachable (reachable_of_guarded hs)).linked.routesLive
    exact (forwarded_iff_not_captured hex hlive h).mpr (not_captured_of_reachable hs)
  · intro s hs
    exact forwarded_iff_not_captured hex (sound_of_reachable hs).linked.routesLive h

def packetToNobody : Bytes := List.replicate 40 0

theorem packetToNobody_null : NullDest packetToNobody := ⟨by decide, rfl⟩

def zeroUid : Bytes := List.replicate 16 48 ++ List.replicate 24 97

def capturing : Threads :=
  let s := created start zeroUid ⟨1, 2, 0⟩
  { s with manager := (s.manager.transports 1).elim s.manager (fun tr =>
      setStatus s.manager 1 tr true true true true) }

theorem capturing_reachable : Reachable (Step Api.plain) Initial capturing := by
  have h₁ : Reachable (Guarded (fun _ _ => True) (Step Api.plain)) Initial
      (created start zeroUid ⟨1, 2, 0⟩) :=
    reachable_created (reachable_init start_initial) rfl ⟨by decide, rfl, rfl⟩ trivial
      (fun _ => trivial)
  exact reachable_step (reachable_of_guarded h₁) (Step.linkStatus true true true true rfl)

theorem null_dest_forwarded_capturing :
    Forwarded Api.plain start.manager packetToNobody ∧
      (Forwarded Api.plain capturing.manager packetToNobody ↔ ¬ Captured capturing.manager) := by
  have h := null_dest_forwarded Api.plain plain_hexEncodes packetToNobody_null
  exact ⟨h.1 start (reachable_init start_initial), h.2 capturing capturing_reachable⟩

theorem null_dest_sent_to_peer :
    Reachable (Step Api.plain) Initial capturing ∧ NullDest packetToNobody ∧
      ∀ memory, handlePacket Api.plain memory capturing.manager packetToNobody =
        some (capturing.manager, [.sendPacket 2 packetToNobody]) :=
  ⟨capturing_reachable, packetToNobody_null, fun _ => rfl⟩

end Tincan.TruncatedIds
