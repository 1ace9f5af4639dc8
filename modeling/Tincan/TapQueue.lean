import Tincan.DatagramBounds
import Tincan.Process

namespace Tincan.TapQueue

open Tincan.Library Tincan.Library.Text Tincan.Library.Runs Tincan.Libjingle Tincan.Utils
open Tincan.ConnectionManager Tincan.PacketPath Tincan.ControllerAccess Tincan.Process
open Tincan.DatagramBounds

def returned : Option Bytes → Int
  | none => -1
  | some packet => (packet.length : Int).bmod (2 ^ 32)

/-- A packet for the tap has its header, and is not too long to be counted. -/
def Sized (packet : Bytes) : Prop := kHeaderSize ≤ packet.length ∧ packet.length < 2 ^ 31

/-- Packets from the controller have the header behind that of the datagram, and
no packet from a link is too long to be counted. -/
def FullHeaders (_ : State) : Event → Prop
  | .datagram _ d => kTincanHeaderSize ≤ d.len ∧
      (d.buffer 1 = kTincanPacket → kTincanHeaderSize + kHeaderSize ≤ d.len)
  | .readPacket _ data => data.length < 2 ^ 31
  | _ => True

inductive QueueStep (q : WQueue Bytes) : Event → WQueue Bytes → Prop
  | same (e : Event) : QueueStep q e q
  | sendToTap {env : Env} {d : Datagram} {packet : Bytes} (hd : d.buffer 1 = kTincanPacket)
      (hp : d.payload = some packet) : QueueStep q (.datagram env d) (q.add packet)
  | readPacket {channel : Ptr} {data : Bytes} (h : kHeaderSize ≤ data.length) :
      QueueStep q (.readPacket channel data) (q.add data)
  | tapRecv {len : Nat} {packet : Bytes} {queue : WQueue Bytes} (h : q = packet :: queue) :
      QueueStep q (.tapRecv len) queue

/-- A `DoPacketRecv` call takes the oldest packet: all of it or, if it does not fit, nothing of it. -/
structure Takes (c c' : Controller) (len : Nat) (written : Option Bytes) (packet : Bytes) : Prop where
  oldest : c.recvQueue = packet :: c'.recvQueue
  rest : c' = { c with recvQueue := c'.recvQueue }
  written : written = if packet.length ≤ len then some packet else none

section

variable {libs : Libs} {s t : State} {e : Event}

theorem onReadPacket_taken {L : Api} {m m' : Manager} {channel : Ptr} {data packet : Bytes}
    (h : onReadPacket L m channel data = some (m', some packet)) :
    packet = data ∧ kHeaderSize ≤ data.length := by
  obtain hl | hl := Nat.lt_or_ge data.length kHeaderSize
  · rw [onReadPacket_short L channel hl] at h
    cases h
  · refine ⟨?_, hl⟩
    unfold onReadPacket at h
    rw [if_neg (by omega)] at h
    dsimp only at h
    split at h
    · cases h
    · split at h
      · cases h
      · simp only [Option.some.injEq, Prod.mk.injEq, Option.ite_none_right_eq_some] at h
        exact h.2.2.symm

theorem takes_of_recv {c c' : Controller} {len : Nat} {written : Option Bytes}
    (h : doPacketRecv c len = some (c', written)) : ∃ packet, Takes c c' len written packet := by
  obtain ⟨packet, queue, hqueue, rfl, rfl⟩ := doPacketRecv_eq_some h
  refine ⟨packet, hqueue, rfl, ?_⟩
  by_cases hfit : packet.length ≤ len
  · rw [if_neg (by omega), if_pos hfit]
  · rw [if_pos (by omega), if_neg hfit]

theorem queueStep_of_datagram {env : Env} {c : Controller} {d : Datagram} {o : ControllerAccess.Outcome}
    (h : ControllerAccess.handlePacket libs env c d = some o) :
    QueueStep c.recvQueue (.datagram env d) o.state.recvQueue := by
  unfold ControllerAccess.handlePacket at h
  dsimp only at h
  split at h
  · next htap =>
    rw [Option.map_eq_some_iff] at h
    obtain ⟨packet, hp, rfl⟩ := h
    exact .sendToTap htap hp
  · next htap =>
    split at h
    · rw [Option.map_eq_some_iff] at h
      obtain ⟨packet, _, rfl⟩ := h
      exact .same _
    · next hicc =>
      rw [Option.map_eq_some_iff] at h
      obtain ⟨o', ho, rfl⟩ := h
      have hqueue := (update_handleRequest ho (by tauto)).2
      rw [← hqueue]
      exact .same _

theorem queueStep_of_controller {c c' : Controller} {taken : List Xmpp.Stanza} {msgs : List PeerMessage}
    (h : ControllerStep libs c e c' taken msgs) : QueueStep c.recvQueue e c'.recvQueue := by
  cases h with
  | datagram h => exact queueStep_of_datagram h
  | @readPacket channel data m packet h =>
    cases packet with
    | none => exact .same _
    | some packet =>
      obtain ⟨rfl, hlen⟩ := onReadPacket_taken h
      exact .readPacket hlen
  | tapRecv h =>
    obtain ⟨packet, ht⟩ := takes_of_recv h
    exact .tapRecv ht.oldest
  | queueSignal h =>
    obtain ⟨_, _, _, rfl⟩ := handleQueueSignal_eq_some h
    exact .same _
  | _ => exact .same _

theorem queueStep_of_step (h : step libs s e = some t) :
    QueueStep s.controller.recvQueue e t.controller.recvQueue := by
  obtain ⟨taken, msgs, hc⟩ := controllerStep_of_step h
  exact queueStep_of_controller hc

theorem length_of_payload {d : Datagram} {packet : Bytes} (h : kTincanHeaderSize ≤ d.len)
    (hp : d.payload = some packet) : packet.length = d.len - kTincanHeaderSize := by
  rw [payload_of_header h] at hp
  cases hp
  rw [List.length_drop, length_received]

theorem sized_step (hs : ∀ packet ∈ s.controller.recvQueue, Sized packet) (hg : FullHeaders s e)
    (hst : step libs s e = some t) : ∀ packet ∈ t.controller.recvQueue, Sized packet := by
  have hq := queueStep_of_step hst
  generalize s.controller.recvQueue = q at hs hq
  generalize t.controller.recvQueue = q' at hq
  cases hq with
  | same e => exact hs
  | @sendToTap env d packet hd hp =>
    obtain ⟨hlen, hfull⟩ := hg
    intro packet' hmem
    obtain hmem | hmem := List.mem_append.mp hmem
    · exact hs packet' hmem
    · rw [List.mem_singleton.mp hmem]
      have hlength := length_of_payload hlen hp
      have hlt := d.len_lt
      have hheader := hfull hd
      exact ⟨by omega, by omega⟩
  | readPacket h =>
    intro packet' hmem
    obtain hmem | hmem := List.mem_append.mp hmem
    · exact hs packet' hmem
    · rw [List.mem_singleton.mp hmem]
      exact ⟨h, hg⟩
  | tapRecv h =>
    intro packet' hmem
    exact hs packet' (h ▸ List.mem_cons_of_mem _ hmem)

theorem sized_of_reachable (h : Reachable (Guarded FullHeaders (Steps (step libs))) Initial s) :
    ∀ packet ∈ s.controller.recvQueue, Sized packet := by
  refine reachable_invariant (P := fun s => ∀ packet ∈ s.controller.recvQueue, Sized packet) ?_ ?_ h
  · rintro s ⟨_, _, _, _, _, _, _, rfl⟩ packet hmem
    cases hmem
  · rintro s e t hs ⟨hg, hst⟩
    exact sized_step hs hg hst

theorem bmod_eq_self_iff (n : Nat) : (n : Int).bmod (2 ^ 32) = n ↔ n < 2 ^ 31 := by
  rw [Int.bmod_def]
  omega

theorem returned_eq_length_iff (packet : Bytes) :
    returned (some packet) = packet.length ↔ packet.length < 2 ^ 31 := bmod_eq_self_iff packet.length

theorem recv_of_sized (hs : ∀ packet ∈ s.controller.recvQueue, Sized packet) {len : Nat}
    {c : Controller} {written : Option Bytes} (h : doPacketRecv s.controller len = some (c, written)) :
    ∃ packet, Takes s.controller c len written packet ∧ kHeaderSize ≤ packet.length ∧
      returned written = if packet.length ≤ len then (packet.length : Int) else -1 := by
  obtain ⟨packet, ht⟩ := takes_of_recv h
  have hsized : Sized packet := hs packet (by rw [ht.oldest]; exact List.mem_cons_self)
  refine ⟨packet, ht, hsized.1, ?_⟩
  rw [ht.written]
  split
  · exact (returned_eq_length_iff packet).mpr hsized.2
  · rfl

theorem short_queued (env : Env) {d : Datagram} (hrun : s.crashed = false)
    (hd : d.buffer 1 = kTincanPacket) (hlen : kTincanHeaderSize ≤ d.len)
    (hshort : d.len < kTincanHeaderSize + kHeaderSize) :
    ∃ t, step libs s (.datagram env d) = some t ∧
      ∃ packet ∈ t.controller.recvQueue, packet.length < kHeaderSize := by
  have hp := payload_of_header hlen
  have hlength := length_of_payload hlen hp
  have hhandle : ControllerAccess.handlePacket libs env s.controller d =
      some ⟨sendToTap s.controller (d.received.drop kTincanHeaderSize), [], versionLog d⟩ := by
    rw [handlePacket_branch, branch, if_pos hd, hp]
    rfl
  refine ⟨_, by simp only [step, hrun, hhandle]; rfl, _, List.mem_append_right _ List.mem_cons_self, ?_⟩
  omega

end

/-- In a run with full headers every packet for the tap has its header, and
each `DoPacketRecv` call takes the oldest: all of it with its length or, if it
does not fit, nothing. A datagram of a packet that is too short breaks this. -/
theorem tap_gets_full_headers (libs : Libs) :
    (∀ s, Reachable (Guarded FullHeaders (Steps (step libs))) Initial s →
      (∀ packet ∈ s.controller.recvQueue, kHeaderSize ≤ packet.length) ∧
      ∀ len c written, doPacketRecv s.controller len = some (c, written) →
        ∃ packet, Takes s.controller c len written packet ∧ kHeaderSize ≤ packet.length ∧
          returned written = if packet.length ≤ len then (packet.length : Int) else -1) ∧
    (∀ s env d, s.crashed = false → d.buffer 1 = kTincanPacket → kTincanHeaderSize ≤ d.len →
      d.len < kTincanHeaderSize + kHeaderSize → ∃ t, step libs s (.datagram env d) = some t ∧
        ∃ packet ∈ t.controller.recvQueue, packet.length < kHeaderSize) ∧
    ∀ packet, returned (some packet) = packet.length ↔ packet.length < 2 ^ 31 := by
  refine ⟨?_, fun s env d hrun hd hlen hshort => short_queued env hrun hd hlen hshort,
    returned_eq_length_iff⟩
  intro s hs
  have hsized := sized_of_reachable hs
  exact ⟨fun packet hmem => (hsized packet hmem).1, fun len c written h => recv_of_sized hsized h⟩

def fullDatagram : Datagram := datagramOf (kIpopVer :: kTincanPacket :: List.replicate 40 7)

def shortDatagram : Datagram := datagramOf [kIpopVer, kTincanPacket, 7]

theorem tap_gets_full_headers_one : ∃ (s : State) (c : Controller),
    s.controller.recvQueue = [List.replicate 40 7] ∧
    doPacketRecv s.controller 1500 = some (c, some (List.replicate 40 7)) ∧
    returned (some (List.replicate 40 7)) = 40 := by
  have hstep : ∃ s, step (sampleLibs []) startState (.datagram sampleEnv fullDatagram) = some s ∧
      s.controller.recvQueue = [List.replicate 40 7] := ⟨_, rfl, rfl⟩
  obtain ⟨s, hs, hqueue⟩ := hstep
  have hfull : FullHeaders startState (.datagram sampleEnv fullDatagram) := ⟨by decide, fun _ => by decide⟩
  have hreach : Reachable (Guarded FullHeaders (Steps (step (sampleLibs [])))) Initial s :=
    ⟨startState, _, startState_initial, run_single ⟨hfull, hs⟩⟩
  have hrecv : doPacketRecv s.controller 1500 =
      some ({ s.controller with recvQueue := [] }, some (List.replicate 40 7)) := by
    rw [doPacketRecv, hqueue]
    rfl
  obtain ⟨packet, ht, _, hreturned⟩ := ((tap_gets_full_headers (sampleLibs [])).1 s hreach).2 _ _ _ hrecv
  have hpacket : packet = List.replicate 40 7 := by
    have holdest := ht.oldest
    rw [hqueue] at holdest
    cases holdest
    rfl
  subst hpacket
  exact ⟨s, _, hqueue, hrecv, hreturned⟩

theorem short_packet_for_tap : ∃ (s : State) (c : Controller),
    step (sampleLibs []) startState (.datagram sampleEnv shortDatagram) = some s ∧
    kTincanHeaderSize ≤ shortDatagram.len ∧ s.controller.recvQueue = [[7]] ∧
    doPacketRecv s.controller 1500 = some (c, some [7]) ∧ returned (some [7]) = 1 ∧
    ¬∀ packet ∈ s.controller.recvQueue, kHeaderSize ≤ packet.length := by
  have hstep : ∃ s, step (sampleLibs []) startState (.datagram sampleEnv shortDatagram) = some s ∧
      s.controller.recvQueue = [[7]] := ⟨_, rfl, rfl⟩
  obtain ⟨s, hs, hqueue⟩ := hstep
  refine ⟨s, { s.controller with recvQueue := [] }, hs, by decide, hqueue, ?_, rfl, ?_⟩
  · rw [doPacketRecv, hqueue]
    rfl
  · intro h
    exact absurd (h [7] (hqueue ▸ List.mem_cons_self)) (by decide)

end Tincan.TapQueue
