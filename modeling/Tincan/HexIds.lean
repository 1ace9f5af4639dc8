import Tincan.FastLookup
import Tincan.Registration

namespace Tincan.HexIds

open Tincan.Library Tincan.Library.Text Tincan.Library.Runs Tincan.Library.Numerals
open Tincan.Libjingle Tincan.Utils Tincan.ConnectionManager Tincan.PacketPath
open Tincan.LinkThreads Tincan.Routes Tincan.FastLookup

/-- The text is written in the digits of `hex_encode`, which are lowercase. -/
def Lowercase (s : Bytes) : Prop := ∀ b ∈ s, isHexDigit b = true

section

variable {L : Api} {s t : Threads} {e : Event} {es : List Event} {uid d : Bytes}

theorem step_withLog (log : List Log) (h : Step L s e t) :
    ∃ log', Step L { s with log := log } e { t with log := log' } := by
  cases h with
  | refuse hc hr => exact ⟨_, .refuse hc hr⟩
  | build hc hr hf => exact ⟨_, .build (s := { s with log := log }) hc hr hf⟩
  | key hc => exact ⟨_, .key (s := { s with log := log }) hc⟩
  | map hc => exact ⟨_, .map (s := { s with log := log }) hc⟩
  | insertRoute hc => exact ⟨_, .insertRoute (s := { s with log := log }) hc⟩
  | created hc => exact ⟨_, .created (s := { s with log := log }) hc⟩
  | unknown hc hn => exact ⟨_, .unknown hc hn⟩
  | find hc hn => exact ⟨_, .find (s := { s with log := log }) hc hn⟩
  | deleteRoute hc => exact ⟨_, .deleteRoute (s := { s with log := log }) hc⟩
  | unmap hc hp => exact ⟨_, .unmap (s := { s with log := log }) hc hp⟩
  | erase hc => exact ⟨_, .erase (s := { s with log := log }) hc⟩
  | release hc => exact ⟨_, .release (s := { s with log := log }) hc⟩
  | setup hc => exact ⟨_, .setup (s := { s with log := log }) hc⟩
  | setForwardAddr addr => exact ⟨_, .setForwardAddr (s := { s with log := log }) addr⟩
  | linkStatus a b c d ht => exact ⟨_, .linkStatus (s := { s with log := log }) a b c d ht⟩
  | handlePacket hh => exact ⟨_, .handlePacket (s := { s with log := log }) hh⟩
  | onReadPacket hh => exact ⟨_, .onReadPacket (s := { s with log := log }) hh⟩

theorem run_withLog (guard : Event → Prop) (log : List Log)
    (h : Run (Guarded (fun _ => guard) (Step L)) s es t) :
    ∃ log', Run (Guarded (fun _ => guard) (Step L)) { s with log := log } es { t with log := log' } := by
  induction h with
  | nil => exact ⟨log, .nil _⟩
  | snoc _ hst ih =>
    obtain ⟨log₁, hrun⟩ := ih
    obtain ⟨log₂, hstep⟩ := step_withLog log₁ hst.2
    exact ⟨log₂, .snoc hrun ⟨hst.1, hstep⟩⟩

theorem exact_of_noLinks (hs : Sound s) (hidle : s.call = .idle)
    (hnone : ∀ u, s.manager.uidMap u = none) (hlog : s.log = []) : Exact s := by
  refine ⟨hs, ?_, ?_, ?_, hlog⟩
  · intro u v hu
    exact absurd (hnone u) hu
  · rw [hidle]
    trivial
  · intro u p hp
    rw [hnone u] at hp
    cases hp

theorem exact_of_run {U : Set Bytes} (hU : Set.InjOn shortUid U) (hs : Sound s) (hidle : s.call = .idle)
    (hnone : ∀ u, s.manager.uidMap u = none) (hrun : Run (Guarded (Within U) (Step L)) s es t) :
    ∃ log, Exact { t with log := log } ∧ KeysIn U { t with log := log } := by
  obtain ⟨log, hrun'⟩ := run_withLog (fun e => Within U s e) [] hrun
  refine ⟨log, run_invariant (P := fun s => Exact s ∧ KeysIn U s) ?_ hrun' ⟨?_, ?_⟩⟩
  · rintro s e t ⟨hx, hk⟩ ⟨hg, hst⟩
    exact ⟨exact_step hx ⟨noClash_of_within hU hk hg, hst⟩, keysIn_step hk (created_within hg) hst⟩
  · exact exact_of_noLinks ⟨hs.linked, hs.callOk⟩ hidle hnone rfl
  · refine ⟨fun u hu => absurd (hnone u) hu, ?_⟩
    change BuiltIn U s.call
    rw [hidle]
    trivial

theorem only_route {p : PeerState} {key : Bytes} {x : Ptr} (hx : Exact s) (hk : KeysIn {uid} s)
    (hp : s.manager.uidMap uid = some (some p)) (hroute : s.manager.shortUidMap key = some x) :
    key = shortUid uid ∧ x = p.transport := by
  obtain ⟨u, q, hq, rfl, rfl⟩ := hx.sound.linked.routes key x hroute
  have hu : u = uid := Set.mem_singleton_iff.mp (hk.keys u (by simp [hq]))
  subst hu
  rw [hp] at hq
  cases hq
  exact ⟨rfl, rfl⟩

theorem route_iff {p : PeerState} (hx : Exact s) (hk : KeysIn {uid} s) (hidle : s.call = .idle)
    (hp : s.manager.uidMap uid = some (some p)) (key : Bytes) :
    s.manager.shortUidMap key = some p.transport ↔ key = shortUid uid := by
  constructor
  · intro hroute
    exact (only_route hx hk hp hroute).1
  · rintro rfl
    exact hx.routed uid p hp (by rw [hidle]; simp [Call.unrouted])

theorem accepted_iff_route {p : PeerState} {tr : Transport} {data : Bytes} {channel : Ptr} (hx : Exact s)
    (hk : KeysIn {uid} s) (hp : s.manager.uidMap uid = some (some p))
    (htr : s.manager.transports p.transport = some tr) (hlen : kHeaderSize ≤ data.length)
    (hchannel : tr.channel = some channel) :
    onReadPacket L s.manager channel data = some (s.manager, some data) ↔
      s.manager.shortUidMap (sourceKey L data) = some p.transport := by
  constructor
  · intro hread
    cases hroute : s.manager.shortUidMap (sourceKey L data) with
    | none =>
      rw [onReadPacket_noRoute L channel hlen hroute] at hread
      simp at hread
    | some x => rw [(only_route hx hk hp hroute).2]
  · intro hroute
    rw [onReadPacket_route L channel hlen hroute htr, if_pos hchannel]

theorem key_eq_iff (hex : L.HexEncodes) (hd : unhex uid = some d) {data : Bytes} {pos : Nat}
    (hsub : substr data pos kIdBytesLen = d) :
    L.hexEncode (substr data pos kShortLen) = shortUid uid ↔ Lowercase (shortUid uid) := by
  rw [hexEncode_short hex, hsub, hex]
  have hkey : shortUid (Numerals.hex d) = Numerals.hex (d.take kShortLen) := by
    rw [shortUid, substr_zero, Nat.mul_comm, take_hex]
  have huid : shortUid uid = uid.take (2 * kShortLen) := by
    rw [shortUid, substr_zero, Nat.mul_comm]
  rw [hkey, huid]
  exact hex_take_eq_iff hd kShortLen

theorem addIPMapping_registers (hdec : L.HexDecodes) (hd : unhex uid = some d) {memory : Nat → Byte}
    {m m' : Manager} {ip4 ip6 : Bytes} {calls : List TapCall}
    (h : addIPMapping L memory m uid ip4 ip6 = (m', true, calls)) :
    (.peerlistAdd d ip4 ip6 ∈ calls ∨ .peerlistAddByUid d ∈ calls) ∧
      m' = { m with ipMap := m.ipMap.insert uid ⟨ip4, ip6⟩ } := by
  unfold addIPMapping at h
  split at h
  · cases h
  · next hr =>
    simp only [not_or, not_not] at hr
    rw [(Registration.hexDecode_uid memory hdec hr.2.2.1 hd).2] at h
    cases h
    refine ⟨?_, rfl⟩
    split <;> simp

end

def uidCapital : Bytes := List.replicate 40 65

def packetToCapital : Bytes := List.replicate 20 0 ++ List.replicate 20 170

def packetFromCapital : Bytes := List.replicate 20 170 ++ List.replicate 20 0

end Tincan.HexIds
