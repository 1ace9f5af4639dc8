import Tincan.Library.SignalledQueue
import Tincan.Routes

namespace Tincan.SendPath

open Tincan.Library Tincan.Library.Text Tincan.Library.Runs
open Tincan.Libjingle Tincan.Utils Tincan.ConnectionManager Tincan.PacketPath

/-- A packet that `HandleQueueSignal_w` took from the queue, with the manager
it was handled under and what came out. -/
structure Handled where
  packet : Bytes
  manager : Manager
  output : List Output

/-- The send queue and the messages posted for it. `posting` are the callers
of `DoPacketSend` that have added their packet but not yet posted, and
`dispatched` is set while a message is taken and its packet is not. -/
structure Sender (ι : Type*) where
  threads : LinkThreads.Threads
  sendQueue : WQueue Bytes
  pending : Nat
  posting : Finset ι
  dispatched : Bool
  added : List Bytes
  handled : List Handled

inductive Event (ι : Type*)
  | add (i : ι) (packet : Bytes)
  | post (i : ι)
  | dispatch
  | handle (memory : Nat → Byte)
  | link (e : LinkThreads.Event)

variable {ι : Type*} [DecidableEq ι]

inductive Step (L : Api) (s : Sender ι) : Event ι → Sender ι → Prop
  | add {i : ι} (packet : Bytes) : i ∉ s.posting →
      Step L s (.add i packet) { s with
        sendQueue := s.sendQueue.add packet
        posting := insert i s.posting
        added := s.added ++ [packet] }
  | post {i : ι} : i ∈ s.posting →
      Step L s (.post i) { s with pending := s.pending + 1, posting := s.posting.erase i }
  | dispatch : s.dispatched = false → s.pending ≠ 0 →
      Step L s .dispatch { s with pending := s.pending - 1, dispatched := true }
  | handle {memory : Nat → Byte} {packet : Bytes} {queue : WQueue Bytes} {m : Manager}
      {out : List Output} : s.dispatched = true → s.sendQueue.remove = some (packet, queue) →
      handlePacket L memory s.threads.manager packet = some (m, out) →
      Step L s (.handle memory) { s with
        threads := { s.threads with manager := m, sent := s.threads.sent ++ out }
        sendQueue := queue
        dispatched := false
        handled := s.handled ++ [⟨packet, s.threads.manager, out⟩] }
  | link {e : LinkThreads.Event} {t : LinkThreads.Threads} : LinkThreads.Step L s.threads e t →
      (∀ memory data, e ≠ .handlePacket memory data) → Step L s (.link e) { s with threads := t }

structure Initial (s : Sender ι) : Prop where
  threads : LinkThreads.Initial s.threads
  sendQueue : s.sendQueue = []
  pending : s.pending = 0
  posting : s.posting = ∅
  dispatched : s.dispatched = false
  added : s.added = []
  handled : s.handled = []

def Sender.queue (s : Sender ι) : SignalledQueue.State ι Bytes :=
  ⟨s.sendQueue, s.pending, s.posting, s.dispatched, s.added, s.handled.map Handled.packet⟩

theorem queue_step {L : Api} {s t : Sender ι} {e : Event ι} (hst : Step L s e t) :
    ∃ ds, Run (Steps SignalledQueue.step) s.queue ds t.queue := by
  cases hst with
  | @add i packet hi =>
    refine ⟨[.push i packet], run_single ?_⟩
    simp [Steps, SignalledQueue.step, Sender.queue, hi, WQueue.add]
  | @post i hi =>
    refine ⟨[.signal i], run_single ?_⟩
    simp [Steps, SignalledQueue.step, Sender.queue, hi]
  | dispatch hd hp =>
    refine ⟨[.wake], run_single ?_⟩
    simp [Steps, SignalledQueue.step, Sender.queue, hd, hp]
  | handle hd hr hh =>
    refine ⟨[.pop], run_single ?_⟩
    simp [Steps, SignalledQueue.step, Sender.queue, hd, WQueue.remove_eq_some hr]
  | link hs hne => exact ⟨[], Run.nil _⟩

theorem balanced_of_reachable {L : Api} {s : Sender ι} (h : Reachable (Step L) Initial s) :
    SignalledQueue.Balanced s.queue := by
  refine SignalledQueue.balanced_of_reachable (reachable_simulation Sender.queue ?_ ?_ h)
  · intro s hs
    simp [Sender.queue, SignalledQueue.empty, hs.sendQueue, hs.pending, hs.posting, hs.dispatched,
      hs.added, hs.handled]
  · intro s e t hst
    exact queue_step hst

theorem threads_of_reachable {L : Api} {s : Sender ι} (h : Reachable (Step L) Initial s) :
    Reachable (LinkThreads.Step L) LinkThreads.Initial s.threads := by
  refine reachable_simulation Sender.threads ?_ ?_ h
  · intro s hs
    exact hs.threads
  · intro s e t hst
    cases hst with
    | add | post | dispatch => exact ⟨[], Run.nil _⟩
    | handle hd hr hh => exact ⟨_, run_single (.handlePacket hh)⟩
    | link hs hne => exact ⟨_, run_single hs⟩

/-- The one output a packet may have: itself on the channel of its link, or
itself in a datagram to the controller. -/
def Carries (L : Api) (m : Manager) (packet : Bytes) (o : Output) : Prop :=
  (∃ t tr channel, m.shortUidMap (destKey L packet) = some t ∧ m.transports t = some tr ∧
    tr.writable = true ∧ tr.channel = some channel ∧ o = .sendPacket channel packet) ∨
  ∃ type, o = .sendTo m.forwardSocket (kIpopVer :: type :: packet) m.forwardAddr

def Handled.Once (L : Api) (r : Handled) : Prop :=
  ∃ o, r.output = [o] ∧ Carries L r.manager r.packet o

theorem forward_carries (L : Api) (memory : Nat → Byte) (m : Manager) (type : Option Byte)
    (packet : Bytes) : Carries L m packet (forward memory m type packet) :=
  .inr ⟨_, by rw [forward, frame_eq]⟩

theorem handlePacket_once {L : Api} {memory : Nat → Byte} {m m' : Manager} {packet : Bytes}
    {out : List Output} (hlen : kHeaderSize ≤ packet.length)
    (h : handlePacket L memory m packet = some (m', out)) : Handled.Once L ⟨packet, m, out⟩ := by
  cases hr : m.shortUidMap (destKey L packet) with
  | none =>
    rw [handlePacket_noRoute L memory hlen hr] at h
    cases h
    exact ⟨_, rfl, forward_carries L memory m _ packet⟩
  | some t =>
    cases ht : m.transports t with
    | none =>
      rw [handlePacket_dangling L memory hlen hr ht] at h
      cases h
    | some tr =>
      rw [handlePacket_route L memory hlen hr ht] at h
      cases h
      refine ⟨_, rfl, ?_⟩
      unfold routed
      split
      · next channel hw hc => exact .inl ⟨t, tr, channel, hr, ht, hw, hc, rfl⟩
      · exact forward_carries L memory m _ packet

theorem handled_once {L : Api} {s : Sender ι} (h : Reachable (Step L) Initial s) :
    ∀ r ∈ s.handled, kHeaderSize ≤ r.packet.length → r.Once L := by
  refine reachable_invariant (P := fun s => ∀ r ∈ s.handled, kHeaderSize ≤ r.packet.length →
    r.Once L) ?_ ?_ h
  · intro s hs
    simp [hs.handled]
  · intro s e t hs hst
    cases hst with
    | handle hd hr hh =>
      intro r hmem hlen
      obtain hold | hnew := List.mem_append.mp hmem
      · exact hs r hold hlen
      · rw [List.mem_singleton] at hnew
        subst hnew
        exact handlePacket_once hlen hh
    | add | post | dispatch | link => exact hs

/-- A message whose handler runs is always answered: the queue has a packet
for it and the packet path does not fault. -/
theorem handle_enabled {L : Api} {s : Sender ι} (h : Reachable (Step L) Initial s)
    (hd : s.dispatched = true) (memory : Nat → Byte) : ∃ t, Step L s (.handle memory) t := by
  have hne := (balanced_of_reachable h).items_ne_nil hd
  obtain ⟨packet, queue, hq⟩ := List.exists_cons_of_ne_nil hne
  have hremove : s.sendQueue.remove = some (packet, queue) := by
    change s.sendQueue = packet :: queue at hq
    rw [hq]
    rfl
  have hlive := (LinkThreads.sound_of_reachable (threads_of_reachable h)).linked.routesLive
  obtain ⟨out, hout⟩ := handlePacket_defined L memory hlive packet
  exact ⟨_, .handle hd hremove hout⟩

/-- Outgoing packets are not waited for, lost, duplicated or reordered, and
each of full size leaves the process exactly once. -/
theorem outgoing_packets_leave_once (L : Api) {s : Sender ι} (h : Reachable (Step L) Initial s) :
    (s.pending ≤ s.sendQueue.length ∧
      (s.dispatched = true → s.sendQueue ≠ [] ∧ ∀ memory, ∃ t, Step L s (.handle memory) t) ∧
      (s.posting = ∅ → s.pending + (if s.dispatched then 1 else 0) = s.sendQueue.length)) ∧
    s.handled.map Handled.packet ++ s.sendQueue = s.added ∧
    ∀ r ∈ s.handled, kHeaderSize ≤ r.packet.length → r.Once L := by
  have hb := balanced_of_reachable h
  refine ⟨⟨?_, fun hd => ⟨hb.items_ne_nil hd, handle_enabled h hd⟩, hb.owed_eq⟩, hb.order,
    handled_once h⟩
  exact le_trans (Nat.le_add_right _ _) hb.owed_le

def overlapped : Sender Bool :=
  let packet := List.replicate 40 0
  let output := [forward (fun _ => 0) Routes.start.manager (routelessType packet) packet]
  { threads := { Routes.start with sent := output }
    sendQueue := [List.replicate 50 1]
    pending := 0
    posting := {true}
    dispatched := false
    added := [packet, List.replicate 50 1]
    handled := [⟨packet, Routes.start.manager, output⟩] }

theorem overlapped_reachable : Reachable (Step Api.plain) Initial overlapped := by
  have h₀ : Reachable (Step Api.plain) Initial
      (⟨Routes.start, [], 0, ∅, false, [], []⟩ : Sender Bool) :=
    reachable_init ⟨Routes.start_initial, rfl, rfl, rfl, rfl, rfl, rfl⟩
  have h₁ := reachable_step h₀ (.add (i := true) (List.replicate 40 0) (by decide))
  have h₂ := reachable_step h₁ (.add (i := false) (List.replicate 50 1) (by decide))
  have h₃ := reachable_step h₂ (.post (i := false) (by decide))
  have h₄ := reachable_step h₃ (.dispatch rfl (by decide))
  exact reachable_step h₄ (.handle rfl rfl (handlePacket_noRoute Api.plain (fun _ => 0) (by decide) rfl))

theorem outgoing_packets_leave_once_overlapped :
    (overlapped.pending ≤ overlapped.sendQueue.length ∧
      (overlapped.dispatched = true → overlapped.sendQueue ≠ [] ∧
        ∀ memory, ∃ t, Step Api.plain overlapped (.handle memory) t) ∧
      (overlapped.posting = ∅ →
        overlapped.pending + (if overlapped.dispatched then 1 else 0) = overlapped.sendQueue.length)) ∧
    overlapped.handled.map Handled.packet ++ overlapped.sendQueue = overlapped.added ∧
    ∀ r ∈ overlapped.handled, kHeaderSize ≤ r.packet.length → r.Once Api.plain :=
  outgoing_packets_leave_once Api.plain overlapped_reachable

end Tincan.SendPath
