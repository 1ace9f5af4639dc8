import Tincan.ControllerAccess
import Tincan.Routes

namespace Tincan.ForwardedFrames

open Tincan.Library Tincan.Library.Text Tincan.Libjingle Tincan.Utils
open Tincan.ConnectionManager Tincan.PacketPath Tincan.ControllerAccess

/-- Long enough for a frame whose destination starts with the five bytes that
mark traffic between controllers. -/
def HasIccPrefix (p : Bytes) : Prop := p.length > kHeaderSize + 6 ∧ isIcc p = true

def lastMacByte (p : Bytes) : Option Byte := p[kHeaderSize + kICCMacOffset]?

def HasIccMac (p : Bytes) : Prop :=
  lastMacByte p = some kICCControl ∨ lastMacByte p = some kICCPacket

instance (p : Bytes) : Decidable (HasIccPrefix p) := inferInstanceAs (Decidable (_ ∧ _))

instance (p : Bytes) : Decidable (HasIccMac p) := inferInstanceAs (Decidable (_ ∨ _))

/-- The type byte that a packet calls for by itself, whatever the links. -/
def properType (p : Bytes) : Byte :=
  if HasIccPrefix p then
    if lastMacByte p = some kICCControl then kICCControl
    else if lastMacByte p = some kICCPacket then kICCPacket
    else kTincanPacket
  else kTincanPacket

def delivered (s : Controller) (p : Bytes) : Controller :=
  if properType p = kTincanPacket then sendToTap s p else doPacketSend s p

def Forwards (L : Libjingle.Api) (m : Manager) (p : Bytes) : Prop :=
  ∃ memory m' via datagram addr, PacketPath.handlePacket L memory m p = some (m', [.sendTo via datagram addr])

def Framed (L : Libjingle.Api) (m : Manager) (p : Bytes) : Prop :=
  ∀ memory, PacketPath.handlePacket L memory m p =
    some (m, [.sendTo m.forwardSocket (kIpopVer :: properType p :: p) m.forwardAddr])

/-- Every datagram that is forwarded for the packet delivers exactly the
packet at the controller access, and does nothing else there. -/
def Decoded (L : Libjingle.Api) (m : Manager) (p : Bytes) : Prop :=
  ∀ memory m' via datagram addr,
    PacketPath.handlePacket L memory m p = some (m', [.sendTo via datagram addr]) →
    ∀ libs env s (d : Datagram), d.received = datagram →
      ControllerAccess.handlePacket libs env s d = some ⟨delivered s p, [], []⟩

/-- The type byte is right exactly when the branch without a route is the one
that sees the packets between controllers. -/
def ProperBranch (L : Libjingle.Api) (m : Manager) (p : Bytes) : Prop :=
  HasIccPrefix p → (m.shortUidMap (destKey L p) = none ↔ HasIccMac p)

theorem routelessType_cases (p : Bytes) :
    routelessType p = if HasIccPrefix p then
        if lastMacByte p = some kICCPacket then some kICCPacket
        else if lastMacByte p = some kICCControl then some kICCControl
        else none
      else some kTincanPacket := rfl

theorem routelessType_eq {p : Bytes} (h : HasIccPrefix p → HasIccMac p) :
    routelessType p = some (properType p) := by
  unfold properType
  rw [routelessType_cases]
  by_cases hp : HasIccPrefix p
  · rw [if_pos hp, if_pos hp]
    obtain hm | hm := h hp <;> rw [hm] <;> decide
  · rw [if_neg hp, if_neg hp]

theorem routelessType_stray {p : Bytes} (hp : HasIccPrefix p) (hm : ¬HasIccMac p) :
    routelessType p = none := by
  rw [routelessType_cases, if_pos hp, if_neg (fun h => hm (.inr h)), if_neg (fun h => hm (.inl h))]

theorem properType_tincan {p : Bytes} : properType p = kTincanPacket ↔ (HasIccPrefix p → ¬HasIccMac p) := by
  unfold properType HasIccMac
  by_cases hp : HasIccPrefix p
  · by_cases hc : lastMacByte p = some kICCControl
    · simp only [hp, hc, ↓reduceIte, true_or, not_true, imp_false]
      decide
    · by_cases hd : lastMacByte p = some kICCPacket
      · simp only [hp, hd, ↓reduceIte, or_true, not_true, imp_false]
        decide
      · simp [hp, hc, hd]
  · simp [hp]

theorem properType_icc {p : Bytes} (h : properType p ≠ kTincanPacket) :
    properType p = kICCControl ∨ properType p = kICCPacket := by
  unfold properType at h ⊢
  split at h
  · next hp =>
    rw [if_pos hp]
    split at h
    · next hc => exact .inl (if_pos hc)
    · next hc =>
      rw [if_neg hc]
      split at h
      · next hd => exact .inr (if_pos hd)
      · exact absurd rfl h
  · exact absurd rfl h

theorem received_cons {d : Datagram} {a b : Byte} {p : Bytes} (h : d.received = a :: b :: p) :
    d.buffer 0 = a ∧ d.buffer 1 = b ∧ d.payload = some p := by
  have hlen : d.len = p.length + 2 := by
    have hl := congrArg List.length h
    simpa [Datagram.received] using hl
  rw [Datagram.received, hlen, List.range_succ_eq_map, List.map_cons, List.map_map,
    List.range_succ_eq_map, List.map_cons, List.map_map, List.cons.injEq, List.cons.injEq] at h
  obtain ⟨ha, hb, hp⟩ := h
  refine ⟨ha, hb, ?_⟩
  have hlt := d.len_lt
  have hsub : (d.len + 2 ^ 64 - kTincanHeaderSize) % 2 ^ 64 = p.length := by
    simp only [kTincanHeaderSize]
    omega
  have hsmall : p.length < 2 ^ 63 := by omega
  unfold Datagram.payload
  dsimp only
  rw [hsub, if_pos hsmall]
  exact congrArg some hp

theorem decode_frame (libs : Libs) (env : Env) (s : Controller) {d : Datagram} {p : Bytes}
    (h : d.received = kIpopVer :: properType p :: p) :
    ControllerAccess.handlePacket libs env s d = some ⟨delivered s p, [], []⟩ := by
  obtain ⟨hversion, htype, hpayload⟩ := received_cons h
  unfold ControllerAccess.handlePacket delivered
  rw [hversion, htype, hpayload]
  by_cases ht : properType p = kTincanPacket
  · simp [ht]
  · simp [ht, properType_icc ht]

theorem framed_of_properBranch {L : Libjingle.Api} {m : Manager} {p : Bytes}
    (hlen : kHeaderSize ≤ p.length) (hf : Forwards L m p) (h : ProperBranch L m p) :
    Framed L m p := by
  intro memory
  cases hr : m.shortUidMap (destKey L p) with
  | none =>
    have htype := routelessType_eq (fun hp => (h hp).mp hr)
    rw [handlePacket_noRoute L memory hlen hr, forward, frame_eq, htype]
    rfl
  | some t =>
    have htype : properType p = kTincanPacket :=
      properType_tincan.mpr (fun hp hm => by simp [(h hp).mpr hm] at hr)
    obtain ⟨memory', m', via, datagram, addr, hout⟩ := hf
    cases ht : m.transports t with
    | none =>
      rw [handlePacket_dangling L memory' hlen hr ht] at hout
      cases hout
    | some tr =>
      rw [handlePacket_route L memory' hlen hr ht] at hout
      rw [handlePacket_route L memory hlen hr ht]
      unfold routed at hout ⊢
      split at hout
      · cases hout
      · rw [forward, frame_eq, htype]
        rfl

theorem properBranch_of_framed {L : Libjingle.Api} {m : Manager} {p : Bytes}
    (hlen : kHeaderSize ≤ p.length) (h : Framed L m p) : ProperBranch L m p := by
  intro hp
  cases hr : m.shortUidMap (destKey L p) with
  | none =>
    refine ⟨fun _ => ?_, fun _ => rfl⟩
    by_contra hm
    -- Two buffers with different leftovers cannot both give the same datagram.
    have h₀ := h (fun _ => 0)
    have h₁ := h (fun _ => 1)
    rw [handlePacket_noRoute L _ hlen hr, forward, frame_eq, routelessType_stray hp hm] at h₀ h₁
    have heq := h₀.trans h₁.symm
    simp at heq
  | some t =>
    refine ⟨fun hn => by simp at hn, fun hm => ?_⟩
    have htype : properType p ≠ kTincanPacket := fun ht => properType_tincan.mp ht hp hm
    have h₀ := h (fun _ => 0)
    cases ht : m.transports t with
    | none =>
      rw [handlePacket_dangling L _ hlen hr ht] at h₀
      cases h₀
    | some tr =>
      rw [handlePacket_route L _ hlen hr ht] at h₀
      unfold routed at h₀
      split at h₀
      · cases h₀
      · rw [forward, frame_eq] at h₀
        simp only [Option.getD_some, Option.some.injEq, Prod.mk.injEq, true_and, List.cons.injEq,
          Output.sendTo.injEq, and_true] at h₀
        exact absurd h₀.symm htype

/-- A forwarded packet is framed with a type byte of its own and comes back
out of the controller access exactly if the branch that forwards it is the one
for its kind. -/
theorem forwarded_iff_properBranch (L : Libjingle.Api) (m : Manager) {p : Bytes}
    (hlen : kHeaderSize ≤ p.length) (hf : Forwards L m p) :
    (Framed L m p ∧ Decoded L m p) ↔ ProperBranch L m p := by
  constructor
  · intro h
    exact properBranch_of_framed hlen h.1
  · intro h
    have hframed := framed_of_properBranch hlen hf h
    refine ⟨hframed, ?_⟩
    intro memory m' via datagram addr hout libs env s d hd
    rw [hframed memory] at hout
    cases hout
    exact decode_frame libs env s hd

def strayPacket : Bytes := List.replicate 40 0 ++ [0, 105, 112, 111, 112, 5, 0]

theorem forwards_strayPacket : Forwards Api.plain Routes.start.manager strayPacket :=
  ⟨fun _ => 0, _, _, _, _, handlePacket_noRoute Api.plain _ (by decide) rfl⟩

theorem forwarded_iff_properBranch_stray :
    (Framed Api.plain Routes.start.manager strayPacket ∧
      Decoded Api.plain Routes.start.manager strayPacket) ↔
      ProperBranch Api.plain Routes.start.manager strayPacket :=
  forwarded_iff_properBranch Api.plain Routes.start.manager (by decide) forwards_strayPacket

/-- The second byte of its datagram is whatever the allocator left there, so
the controller access may take it for anything. -/
theorem stray_type_unwritten :
    kHeaderSize ≤ strayPacket.length ∧ Forwards Api.plain Routes.start.manager strayPacket ∧
    (∀ memory, PacketPath.handlePacket Api.plain memory Routes.start.manager strayPacket =
      some (Routes.start.manager, [.sendTo Routes.start.manager.forwardSocket
        (kIpopVer :: memory 1 :: strayPacket) Routes.start.manager.forwardAddr])) ∧
    ¬(Framed Api.plain Routes.start.manager strayPacket ∧
      Decoded Api.plain Routes.start.manager strayPacket) := by
  have hp : HasIccPrefix strayPacket := by decide
  have hm : ¬HasIccMac strayPacket := by decide
  refine ⟨by decide, forwards_strayPacket, ?_, ?_⟩
  · intro memory
    rw [handlePacket_noRoute Api.plain memory (by decide) rfl, forward, frame_eq,
      routelessType_stray hp hm]
    rfl
  · intro h
    exact hm ((properBranch_of_framed (by decide) h.1 hp).mp rfl)

end Tincan.ForwardedFrames
