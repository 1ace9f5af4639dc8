import Tincan.Routes

namespace Tincan.FastLookup

open Tincan.Library Tincan.Library.Text Tincan.Library.Runs
open Tincan.Libjingle Tincan.Utils Tincan.ConnectionManager Tincan.PacketPath
open Tincan.LinkThreads Tincan.Routes

def sourceId (data : Bytes) : Bytes := substr data 0 kIdBytesLen

def destId (data : Bytes) : Bytes := substr data kIdBytesLen kIdBytesLen

def nullUid : Bytes := List.replicate kIdSize 48

/-- The lookup that the fast table stands for: by the full uid, in the full table. -/
def fullLookup (m : Manager) (uid : Bytes) : Option Ptr :=
  (m.uidMap uid).bind (fun q => q.map PeerState.transport)

/-- What happens to an outgoing packet if links are looked up by full uid. -/
def handlePacketByUid (L : Api) (memory : Nat → Byte) (m : Manager) (data : Bytes) :
    Option (Manager × List Output) :=
  match fullLookup m (L.hexEncode (destId data)) with
  | none => some (m, [forward memory m (routelessType data) data])
  | some t => (m.transports t).map (fun tr => (m, [routed memory m tr data]))

/-- The requests of a run only name uids of `U`. -/
def Within (U : Set Bytes) (_ : Threads) : Event → Prop
  | .create r _ => r.uid ∈ U
  | .destroy uid => uid ∈ U
  | _ => True

def BuiltIn (U : Set Bytes) : Call → Prop
  | .createBuilt p => p.uid ∈ U
  | _ => True

structure KeysIn (U : Set Bytes) (s : Threads) : Prop where
  keys : ∀ u, s.manager.uidMap u ≠ none → u ∈ U
  built : BuiltIn U s.call

theorem keysIn_initial {U : Set Bytes} {s : Threads} (h : Initial s) : KeysIn U s := by
  constructor
  · simp [h.uidMap, PartialMap.empty]
  · rw [h.call]
    trivial

theorem created_within {U : Set Bytes} {s : Threads} {e : Event} (hg : Within U s e) :
    ∀ r f, e = .create r f → r.refused s.manager = false → r.uid ∈ U := by
  rintro r f rfl _
  exact hg

theorem keysIn_step {L : Api} {U : Set Bytes} {s t : Threads} {e : Event} (h : KeysIn U s)
    (hg : ∀ r f, e = .create r f → r.refused s.manager = false → r.uid ∈ U)
    (hst : Step L s e t) : KeysIn U t := by
  cases hst with
  | refuse hc hr => exact h
  | @build r f hc hr hf =>
    obtain ⟨tr, _, hm⟩ := buildTransport_manager L s.manager r f
    constructor
    · rw [hm]
      exact h.keys
    · change (buildTransport L s.manager r f).2.uid ∈ U
      rw [(buildTransport_fields L s.manager r f).1]
      exact hg r f rfl hr
  | @key p hc =>
    refine ⟨?_, trivial⟩
    intro u hu
    by_cases he : u = p.uid
    · have hb := h.built
      rw [hc] at hb
      exact he ▸ hb
    · exact h.keys u (by simpa [he] using hu)
  | deleteRoute hc =>
    refine ⟨?_, trivial⟩
    simp only [deleteTransportMapW_manager]
    exact h.keys
  | erase hc => exact ⟨fun u hu => h.keys u (PartialMap.of_erase_ne_none hu), trivial⟩
  | @setup memory r hc =>
    refine ⟨?_, h.built⟩
    rw [(frame_setup L memory s.manager r).uidMap]
    exact h.keys
  | handlePacket hh =>
    rw [handlePacket_manager L _ hh]
    exact ⟨h.keys, h.built⟩
  | onReadPacket hh =>
    rw [onReadPacket_manager L hh]
    exact ⟨h.keys, h.built⟩
  | setForwardAddr | linkStatus | unknown => exact ⟨h.keys, h.built⟩
  | map hc | insertRoute hc | created hc | find hc hn | unmap hc hp | release hc =>
    exact ⟨h.keys, trivial⟩

theorem keysIn_of_reachable {L : Api} {U : Set Bytes} {s : Threads}
    (h : Reachable (Guarded (Within U) (Step L)) Initial s) : KeysIn U s := by
  refine reachable_invariant ?_ ?_ h
  · intro s hs
    exact keysIn_initial hs
  · intro s e t hk hst
    exact keysIn_step hk (created_within hst.1) hst.2

theorem noClash_of_within {U : Set Bytes} (hU : Set.InjOn shortUid U) {s : Threads} {e : Event}
    (h : KeysIn U s) (hg : Within U s e) : NoClash s e := by
  cases e with
  | create r f =>
    intro u hu he
    exact hU (h.keys u hu) hg he
  | _ => trivial

theorem reachable_noClash {L : Api} {U : Set Bytes} (hU : Set.InjOn shortUid U) {s : Threads}
    (h : Reachable (Guarded (Within U) (Step L)) Initial s) :
    KeysIn U s ∧ Reachable (Guarded NoClash (Step L)) Initial s := by
  refine reachable_invariant (P := fun s => KeysIn U s ∧
    Reachable (Guarded NoClash (Step L)) Initial s) ?_ ?_ h
  · intro s hs
    exact ⟨keysIn_initial hs, reachable_init hs⟩
  · rintro s e t ⟨hk, hr⟩ hst
    exact ⟨keysIn_step hk (created_within hst.1) hst.2,
      reachable_step hr ⟨noClash_of_within hU hk hst.1, hst.2⟩⟩

theorem hexEncode_short {L : Api} (hex : L.HexEncodes) (data : Bytes) (pos : Nat) :
    L.hexEncode (substr data pos kShortLen) = shortUid (L.hexEncode (substr data pos kIdBytesLen)) := by
  rw [hex, hex, shortUid, substr_zero, Nat.mul_comm, Numerals.take_hex]
  simp only [substr, List.take_take, kShortLen, kIdBytesLen]
  rfl

/-- Outside calls the two tables agree on every uid of `U` and on the null id. -/
theorem short_eq_full {s : Threads} {U : Set Bytes} (hU : Set.InjOn shortUid (insert nullUid U))
    (hx : Exact s) (hk : KeysIn U s) (hc : s.call = .idle) {uid : Bytes}
    (hu : uid ∈ insert nullUid U) :
    s.manager.shortUidMap (shortUid uid) = fullLookup s.manager uid := by
  cases hq : s.manager.uidMap uid with
  | some q =>
    obtain ⟨p, _, hp, _⟩ := hx.sound.linked.owned uid q hq
    subst hp
    rw [hx.routed uid p hq (by rw [hc]; simp [Call.unrouted])]
    simp [fullLookup, hq]
  | none =>
    cases ht : s.manager.shortUidMap (shortUid uid) with
    | none => simp [fullLookup, hq]
    | some t =>
      obtain ⟨v, p, hv, _, hs⟩ := hx.sound.linked.routes _ t ht
      have hvU : v ∈ U := hk.keys v (by rw [hv]; simp)
      have he : v = uid := hU (Set.mem_insert_of_mem _ hvU) hu hs
      rw [he, hq] at hv
      cases hv

theorem handlePacket_eq_byUid {L : Api} {s : Threads} (hx : Exact s) {data : Bytes}
    (hlen : kHeaderSize ≤ data.length)
    (hdest : s.manager.shortUidMap (destKey L data) = fullLookup s.manager (L.hexEncode (destId data)))
    (memory : Nat → Byte) :
    handlePacket L memory s.manager data = handlePacketByUid L memory s.manager data := by
  unfold handlePacketByUid
  cases hf : fullLookup s.manager (L.hexEncode (destId data)) with
  | none => exact handlePacket_noRoute L memory hlen (hdest.trans hf)
  | some t =>
    obtain ⟨tr, ht⟩ := hx.sound.linked.routesLive _ t (hdest.trans hf)
    rw [handlePacket_route L memory hlen (hdest.trans hf) ht]
    simp [ht]

theorem onReadPacket_accepts_iff {L : Api} {s : Threads} (hx : Exact s) {data : Bytes}
    (hlen : kHeaderSize ≤ data.length)
    (hsource : s.manager.shortUidMap (sourceKey L data) =
      fullLookup s.manager (L.hexEncode (sourceId data))) (channel : Ptr) :
    onReadPacket L s.manager channel data = some (s.manager, some data) ↔
      ∃ p tr, s.manager.uidMap (L.hexEncode (sourceId data)) = some (some p) ∧
        s.manager.transports p.transport = some tr ∧ tr.channel = some channel := by
  cases hq : s.manager.uidMap (L.hexEncode (sourceId data)) with
  | none =>
    have hf : s.manager.shortUidMap (sourceKey L data) = none := by simp [hsource, fullLookup, hq]
    rw [onReadPacket_noRoute L channel hlen hf]
    simp
  | some q =>
    obtain ⟨p, tr, hp, _, ht⟩ := hx.sound.linked.owned _ q hq
    subst hp
    have hf : s.manager.shortUidMap (sourceKey L data) = some p.transport := by
      simp [hsource, fullLookup, hq]
    rw [onReadPacket_route L channel hlen hf ht]
    simp [ht]

/-- The 8-byte lookup refines the lookup by full uid. -/
theorem fast_lookup_refines (L : Api) (hex : L.HexEncodes) {U : Set Bytes}
    (hU : Set.InjOn shortUid (insert nullUid U)) {s : Threads}
    (h : Reachable (Guarded (Within U) (Step L)) Initial s) (hc : s.call = .idle) {data : Bytes}
    (hlen : kHeaderSize ≤ data.length) (hsrc : L.hexEncode (sourceId data) ∈ insert nullUid U)
    (hdst : L.hexEncode (destId data) ∈ insert nullUid U) :
    s.manager.shortUidMap (destKey L data) = fullLookup s.manager (L.hexEncode (destId data)) ∧
    (∀ memory, handlePacket L memory s.manager data = handlePacketByUid L memory s.manager data) ∧
    (∀ channel, onReadPacket L s.manager channel data = some (s.manager, some data) ↔
      ∃ p tr, s.manager.uidMap (L.hexEncode (sourceId data)) = some (some p) ∧
        s.manager.transports p.transport = some tr ∧ tr.channel = some channel) ∧
    (∀ channel, (onReadPacket L s.manager channel data).isSome) := by
  obtain ⟨hk, hr⟩ := reachable_noClash (hU.mono (Set.subset_insert _ _)) h
  have hx := exact_of_reachable hr
  have hdest : s.manager.shortUidMap (destKey L data) =
      fullLookup s.manager (L.hexEncode (destId data)) := by
    rw [destKey, hexEncode_short hex]
    exact short_eq_full hU hx hk hc hdst
  have hsource : s.manager.shortUidMap (sourceKey L data) =
      fullLookup s.manager (L.hexEncode (sourceId data)) := by
    rw [sourceKey, hexEncode_short hex]
    exact short_eq_full hU hx hk hc hsrc
  refine ⟨hdest, handlePacket_eq_byUid hx hlen hdest, onReadPacket_accepts_iff hx hlen hsource, ?_⟩
  intro channel
  obtain ⟨packet, hp⟩ := onReadPacket_defined L hx.sound.linked.routesLive channel data
  rw [hp]
  rfl

def packetToB : Bytes := List.replicate 20 0 ++ List.replicate 20 187

theorem fast_lookup_refines_one :
    let s := created start uidB ⟨1, 2, 0⟩
    s.manager.shortUidMap (destKey Api.plain packetToB) =
      fullLookup s.manager (Api.plain.hexEncode (destId packetToB)) ∧
    (∀ memory, handlePacket Api.plain memory s.manager packetToB =
      handlePacketByUid Api.plain memory s.manager packetToB) ∧
    (∀ channel, onReadPacket Api.plain s.manager channel packetToB = some (s.manager, some packetToB) ↔
      ∃ p tr, s.manager.uidMap (Api.plain.hexEncode (sourceId packetToB)) = some (some p) ∧
        s.manager.transports p.transport = some tr ∧ tr.channel = some channel) ∧
    (∀ channel, (onReadPacket Api.plain s.manager channel packetToB).isSome) := by
  have hs : Reachable (Guarded (Within {uidB}) (Step Api.plain)) Initial
      (created start uidB ⟨1, 2, 0⟩) :=
    reachable_created (reachable_init start_initial) rfl ⟨by decide, rfl, rfl⟩ rfl (fun _ => trivial)
  have hU : Set.InjOn shortUid (insert nullUid {uidB}) := by
    rw [Set.injOn_insert (by decide)]
    exact ⟨Set.injOn_singleton _ _, by rw [Set.image_singleton]; decide⟩
  exact fast_lookup_refines Api.plain plain_hexEncodes hU hs rfl (by decide) (.inl (by decide))
    (.inr (by decide))

end Tincan.FastLookup
