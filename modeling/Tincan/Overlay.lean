import Tincan.Emissions
import Tincan.TapQueue
import Mathlib.Logic.Function.Basic

namespace Tincan.Overlay

open Tincan.Library Tincan.Library.Text Tincan.Library.Runs Tincan.Libjingle Tincan.Utils
open Tincan.ConnectionManager Tincan.PacketPath Tincan.ControllerAccess Tincan.Process Tincan.Emissions

/-- The packets that a node has put on its links or forwarded so far. A
controller takes a datagram of another type than control for a packet. -/
def carried (sent : List Effect) : List Bytes :=
  sent.filterMap fun
    | .packet (.sendPacket _ packet) => some packet
    | .packet (.sendTo _ datagram _) =>
      if datagram[kTincanMsgTypeOffset]? = some kTincanControl then none
      else some (datagram.drop kTincanHeaderSize)
    | _ => none

/-- Nodes with their processes, and what each has been given for sending so far. -/
structure Nodes (ι : Type*) where
  process : ι → State
  fed : ι → List Bytes

section

variable {ι : Type*}

/-- The links and the controllers bring packets that some node has carried, and
no others. They may lose, repeat, reorder and misdeliver them. -/
def Delivers (s : Nodes ι) : Event → Prop
  | .readPacket _ data => ∃ j, data ∈ carried (s.process j).sent
  | .datagram _ d => d.buffer 1 = kTincanPacket → ∀ packet, d.payload = some packet →
      ∃ j, packet ∈ carried (s.process j).sent
  | _ => True

structure Initial (s : Nodes ι) : Prop where
  process : ∀ i, Process.Initial (s.process i)
  fed : ∀ i, s.fed i = []

inductive Step [DecidableEq ι] (libs : ι → Libs) (s : Nodes ι) : ι × Event → Nodes ι → Prop
  | mk {i : ι} {e : Event} {t : State} (hd : Delivers s e) (hst : step (libs i) (s.process i) e = some t) :
      Step libs s (i, e)
        ⟨Function.update s.process i t, Function.update s.fed i (s.fed i ++ fedBy e)⟩

end

section

variable {libs : Libs} {env : Env} {s t : State} {c : Controller}

theorem sendQueue_handlePacket {d : Datagram} {o : ControllerAccess.Outcome}
    (h : ControllerAccess.handlePacket libs env c d = some o) :
    o.state.sendQueue = c.sendQueue ++ fedBy (.datagram env d) := by
  obtain ⟨_, ho, _, hfed⟩ | ⟨_, ho, _, hfed⟩ | ⟨_, _, _, hh, _, _, hfed⟩ := handlePacket_cases h
  · simp [ho, hfed, sendToTap]
  · simp [ho, hfed, doPacketSend, WQueue.add]
  · rw [hfed, List.append_nil]
    generalize o.state = c' at hh
    cases hh with
    | silent _ hq => exact hq
    | answered | setup | addIPMapping => rfl

theorem sendQueue_of_step {e : Event} (h : step libs s e = some t) (he : ∀ memory, e ≠ .queueSignal memory) :
    t.controller.sendQueue = s.controller.sendQueue ∨
      t.controller.sendQueue = s.controller.sendQueue ++ fedBy e := by
  obtain ⟨taken, msgs, hc⟩ := controllerStep_of_step h
  generalize t.controller = c at hc
  cases hc with
  | datagram hd => exact .inr (sendQueue_handlePacket hd)
  | queueSignal hq => exact absurd rfl (he _)
  | tapSend data => exact .inr rfl
  | tapRecv hr =>
    obtain ⟨_, _, _, hc, _⟩ := doPacketRecv_eq_some hr
    rw [hc]
    exact .inl rfl
  | _ => exact .inl rfl

theorem carried_tells {addr : SocketAddress} {x : Effect} (h : Tells addr x) : carried [x] = [] := by
  obtain ⟨via, pv, _, rfl⟩ := h
  rfl

theorem carried_nil {sent : List Effect} (h : ∀ x ∈ sent, carried [x] = []) : carried sent = [] := by
  unfold carried at h ⊢
  rw [List.filterMap_eq_nil_iff]
  intro x hx
  have hnil := h x hx
  rw [List.filterMap_eq_nil_iff] at hnil
  exact hnil x (List.mem_singleton_self x)

theorem carried_append (a b : List Effect) : carried (a ++ b) = carried a ++ carried b :=
  List.filterMap_append

theorem carried_handled {L : Api} {m : Manager} {packet : Bytes} {o : PacketPath.Output}
    (h : SendPath.Carries L m packet o) : (carried [.packet o]).Sublist [packet] := by
  obtain ⟨_, _, _, _, _, _, _, rfl⟩ | ⟨type, rfl⟩ := h
  · exact List.Sublist.refl _
  · by_cases ht : type = kTincanControl <;>
      simp [carried, kTincanMsgTypeOffset, kTincanHeaderSize, ht]

theorem carried_step {e : Event} {fed : List Bytes} (hst : step libs s e = some t)
    (h : (carried s.sent ++ s.controller.sendQueue).Sublist fed) :
    (carried t.sent ++ t.controller.sendQueue).Sublist (fed ++ fedBy e) := by
  by_cases he : ∀ memory, e ≠ .queueSignal memory
  · obtain ⟨new, hnew, hemits⟩ := emits_of_step hst
    have hnil : carried new = [] := by
      refine carried_nil fun x hx => ?_
      cases hemits x hx with
      | reply h | notice h => exact carried_tells h
      | stanza => rfl
      | tap _ _ call => rfl
      | handled => exact absurd rfl (he _)
    rw [hnew, carried_append, hnil, List.append_nil]
    obtain hq | hq := sendQueue_of_step hst he <;> rw [hq]
    · exact h.trans (List.sublist_append_left _ _)
    · rw [← List.append_assoc]
      exact h.append (List.Sublist.refl _)
  · simp only [ne_eq, not_forall, not_not] at he
    obtain ⟨memory, rfl⟩ := he
    obtain ⟨packet, queue, out, hq, hqueue, hsent, hout⟩ := sent_queueSignal hst
    have hcarried : (carried out).Sublist [packet] := by
      obtain rfl | ⟨o, rfl, _, ho⟩ := hout
      · exact List.nil_sublist _
      · exact carried_handled ho
    rw [hsent, hqueue, carried_append, List.append_assoc]
    rw [hq] at h
    refine List.Sublist.trans ?_ (h.trans (List.sublist_append_left _ _))
    exact (List.Sublist.refl _).append (hcarried.append (List.Sublist.refl queue))

theorem recvQueue_of_step {e : Event} {packet : Bytes} (hst : step libs s e = some t)
    (h : packet ∈ t.controller.recvQueue) : packet ∈ s.controller.recvQueue ∨
      (∃ channel, e = .readPacket channel packet) ∨
      ∃ env d, e = .datagram env d ∧ d.buffer 1 = kTincanPacket ∧ d.payload = some packet := by
  have hq := TapQueue.queueStep_of_step hst
  generalize s.controller.recvQueue = q at hq ⊢
  generalize t.controller.recvQueue = q' at hq h
  cases hq with
  | same e => exact .inl h
  | sendToTap hd hp =>
    obtain h | h := List.mem_append.mp h
    · exact .inl h
    · rw [List.mem_singleton.mp h]
      exact .inr (.inr ⟨_, _, rfl, hd, hp⟩)
  | readPacket hl =>
    obtain h | h := List.mem_append.mp h
    · exact .inl h
    · rw [List.mem_singleton.mp h]
      exact .inr (.inl ⟨_, rfl⟩)
  | tapRecv hq =>
    rw [hq]
    exact .inl (List.mem_cons_of_mem _ h)

end

section

variable {ι : Type*} [DecidableEq ι] {libs : ι → Libs}

structure Sound (s : Nodes ι) : Prop where
  sent : ∀ i, (carried (s.process i).sent ++ (s.process i).controller.sendQueue).Sublist (s.fed i)
  received : ∀ i, ∀ packet ∈ (s.process i).controller.recvQueue, ∃ j, packet ∈ s.fed j

omit [DecidableEq ι] in
theorem Sound.carried {s : Nodes ι} (h : Sound s) {j : ι} {packet : Bytes}
    (hp : packet ∈ carried (s.process j).sent) : packet ∈ s.fed j :=
  (h.sent j).subset (List.mem_append_left _ hp)

omit [DecidableEq ι] in
theorem sound_initial {s : Nodes ι} (h : Initial s) : Sound s := by
  constructor
  · intro i
    obtain ⟨_, _, _, _, _, _, _, hi⟩ := h.process i
    rw [hi, h.fed i]
    exact List.Sublist.refl _
  · intro i packet hp
    obtain ⟨_, _, _, _, _, _, _, hi⟩ := h.process i
    rw [hi] at hp
    cases hp

theorem sound_step {s t : Nodes ι} {e : ι × Event} (h : Sound s) (hst : Step libs s e t) : Sound t := by
  cases hst with
  | @mk i e u hd hst =>
    have hfed : ∀ j packet, packet ∈ s.fed j →
        packet ∈ Function.update s.fed i (s.fed i ++ fedBy e) j := by
      intro j packet hp
      obtain rfl | hj := eq_or_ne j i
      · rw [Function.update_self]
        exact List.mem_append_left _ hp
      · rwa [Function.update_of_ne hj]
    constructor
    · intro j
      dsimp only
      obtain rfl | hj := eq_or_ne j i
      · rw [Function.update_self, Function.update_self]
        exact carried_step hst (h.sent j)
      · rw [Function.update_of_ne hj, Function.update_of_ne hj]
        exact h.sent j
    · intro j packet hp
      dsimp only at hp ⊢
      suffices hold : ∃ k, packet ∈ s.fed k by
        obtain ⟨k, hk⟩ := hold
        exact ⟨k, hfed k packet hk⟩
      obtain rfl | hj := eq_or_ne j i
      · rw [Function.update_self] at hp
        obtain hp | ⟨channel, rfl⟩ | ⟨env, d, rfl, htype, hp⟩ := recvQueue_of_step hst hp
        · exact h.received j packet hp
        · obtain ⟨k, hk⟩ := hd
          exact ⟨k, h.carried hk⟩
        · obtain ⟨k, hk⟩ := hd htype packet hp
          exact ⟨k, h.carried hk⟩
      · rw [Function.update_of_ne hj] at hp
        exact h.received j packet hp

theorem reachable_move {s : Nodes ι} {i : ι} {e : Event} {t : State} (h : Reachable (Step libs) Initial s)
    (hst : step (libs i) (s.process i) e = some t) (hd : Delivers s e) :
    Reachable (Step libs) Initial
      ⟨Function.update s.process i t, Function.update s.fed i (s.fed i ++ fedBy e)⟩ :=
  reachable_step h (.mk hd hst)

/-- Whatever the nodes, their links and their controllers do in which order,
packets cross the network unaltered: what a node sends it was given to send, in
that order and each packet at most once, so none passes on what others sent; and
each packet that waits for a tap is, byte for byte, one that a node was given. -/
theorem packets_cross_unaltered {s : Nodes ι} (h : Reachable (Step libs) Initial s) :
    (∀ i, (carried (s.process i).sent ++ (s.process i).controller.sendQueue).Sublist (s.fed i)) ∧
      ∀ i, ∀ packet ∈ (s.process i).controller.recvQueue, ∃ j, packet ∈ s.fed j := by
  have hs : Sound s := by
    refine reachable_invariant ?_ ?_ h
    · exact fun s hs => sound_initial hs
    · exact fun s e t hs hst => sound_step hs hst
  exact ⟨hs.sent, hs.received⟩

end

def crossing : Datagram := datagramOf (kIpopVer :: kTincanPacket :: List.replicate 42 0)

theorem packets_cross_unaltered_forwarded : ∃ s : Nodes Bool,
    (s.process false).controller.recvQueue = [List.replicate 42 0] ∧
      (∀ i, (carried (s.process i).sent ++ (s.process i).controller.sendQueue).Sublist (s.fed i)) ∧
      ∀ i, ∀ packet ∈ (s.process i).controller.recvQueue, ∃ j, packet ∈ s.fed j := by
  obtain ⟨t₁, t₂, t₃, u, h₁, h₂, h₃, hcarried, hu, hrecv⟩ : ∃ t₁ t₂ t₃ u,
      step Endpoints.endpointLibs startState (.datagram sampleEnv
        (Endpoints.fromSix (Endpoints.endpointDatagram (bytes "::")))) = some t₁ ∧
      step Endpoints.endpointLibs t₁ (.tapSend (List.replicate 42 0)) = some t₂ ∧
      step Endpoints.endpointLibs t₂ (.queueSignal fun _ => 0) = some t₃ ∧
      carried t₃.sent = [List.replicate 42 0] ∧
      step Endpoints.endpointLibs startState (.datagram sampleEnv crossing) = some u ∧
      u.controller.recvQueue = [List.replicate 42 0] :=
    ⟨_, _, _, _, rfl, rfl, rfl, rfl, rfl, rfl⟩
  have h₀ : Reachable (Step fun _ : Bool => Endpoints.endpointLibs) Initial ⟨fun _ => startState, fun _ => []⟩ :=
    reachable_init ⟨fun _ => startState_initial, fun _ => rfl⟩
  have hs₁ := reachable_move (i := true) h₀ h₁ (fun h => absurd h (by decide))
  have hs₂ := reachable_move (i := true) hs₁ h₂ trivial
  have hs₃ := reachable_move (i := true) hs₂ h₃ trivial
  have hs₄ := reachable_move (i := false) hs₃ hu fun _ packet hp => ⟨true, by
    have hpayload : crossing.payload = some (List.replicate 42 0) := by decide
    cases hpayload.symm.trans hp
    exact List.mem_of_mem_head? (congrArg List.head? hcarried)⟩
  exact ⟨_, hrecv, packets_cross_unaltered hs₄⟩

end Tincan.Overlay
