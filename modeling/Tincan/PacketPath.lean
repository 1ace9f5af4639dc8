import Tincan.ConnectionManager

namespace Tincan.PacketPath

open Tincan.Library Tincan.Library.Text Tincan.Libjingle Tincan.Utils Tincan.ConnectionManager

/-- The queues shared with the tap threads; each operation holds the mutex. -/
abbrev WQueue (α : Type) := List α

def WQueue.add {α : Type} (q : WQueue α) (item : α) : WQueue α := q ++ [item]

/-- `none` is a caller that waits on the condition variable. -/
def WQueue.remove {α : Type} : WQueue α → Option (α × WQueue α)
  | [] => none
  | item :: q => some (item, q)

theorem WQueue.remove_eq_some {α : Type} {q rest : WQueue α} {item : α}
    (h : q.remove = some (item, rest)) : q = item :: rest := by
  cases q with
  | nil => cases h
  | cons x q =>
    simp only [WQueue.remove, Option.some.injEq, Prod.mk.injEq] at h
    rw [h.1, h.2]

inductive Output
  | sendPacket (channel : Ptr) (data : Bytes)
  | sendTo (via : UdpSocket) (datagram : Bytes) (addr : SocketAddress)
  deriving DecidableEq

def isIcc (buf : Bytes) : Bool :=
  let offset := kIdBytesLen * 2
  buf[offset]? == some 0x00 && buf[offset + 1]? == some 0x69 && buf[offset + 2]? == some 0x70 &&
    buf[offset + 3]? == some 0x6f && buf[offset + 4]? == some 0x70

/-- The type byte of a packet without a route; `none` leaves it unwritten. -/
def routelessType (data : Bytes) : Option Byte :=
  if data.length > kHeaderSize + 6 ∧ isIcc data then
    if data[kHeaderSize + kICCMacOffset]? = some kICCPacket then some kICCPacket
    else if data[kHeaderSize + kICCMacOffset]? = some kICCControl then some kICCControl
    else none
  else some kTincanPacket

def sourceKey (L : Api) (data : Bytes) : Bytes := L.hexEncode (substr data 0 kShortLen)

def destKey (L : Api) (data : Bytes) : Bytes := L.hexEncode (substr data kIdBytesLen kShortLen)

def forward (memory : Nat → Byte) (m : Manager) (type : Option Byte) (data : Bytes) : Output :=
  .sendTo m.forwardSocket (frame memory type data) m.forwardAddr

/-- `none` is the use of a null or dangling transport. `memory` is what the
allocator left in the new datagram buffer. -/
def handlePacket (L : Api) (memory : Nat → Byte) (m : Manager) (data : Bytes) :
    Option (Manager × List Output) :=
  if data.length < kHeaderSize then some (m, [])
  else
    let dest := destKey L data
    if compareAt dest 0 3 kNullPeerId = .eq ∨ (m.shortUidMap dest).isNone then
      some (m, [forward memory m (routelessType data) data])
    else
      let (t, shortUidMap) := m.shortUidMap.index dest null
      let m := { m with shortUidMap := shortUidMap }
      match m.transports t with
      | none => none
      | some tr =>
        if tr.writable then
          match tr.channel with
          | some channel => some (m, [.sendPacket channel data])
          | none => some (m, [forward memory m (some kTincanPacket) data])
        else some (m, [forward memory m (some kTincanPacket) data])

/-- The packet is returned when it goes to the receive queue. -/
def onReadPacket (L : Api) (m : Manager) (channel : Ptr) (data : Bytes) :
    Option (Manager × Option Bytes) :=
  if data.length < kHeaderSize then some (m, none)
  else
    let source := sourceKey L data
    if (m.shortUidMap source).isNone then some (m, none)
    else
      let (t, shortUidMap) := m.shortUidMap.index source null
      let m := { m with shortUidMap := shortUidMap }
      match m.transports t with
      | none => none
      | some tr => some (m, if tr.channel = some channel then some data else none)

/-- Three characters never compare equal to the twenty of the null id. -/
theorem null_test_fails (dest : Bytes) : compareAt dest 0 3 kNullPeerId ≠ .eq :=
  compareAt_ne_eq (by decide)

section

variable (L : Api) (memory : Nat → Byte) {m : Manager} {data : Bytes}

theorem handlePacket_short (h : data.length < kHeaderSize) :
    handlePacket L memory m data = some (m, []) := by
  simp [handlePacket, h]

theorem handlePacket_noRoute (h : kHeaderSize ≤ data.length) (hr : m.shortUidMap (destKey L data) = none) :
    handlePacket L memory m data = some (m, [forward memory m (routelessType data) data]) := by
  simp [handlePacket, Nat.not_lt.mpr h, hr]

def routed (m : Manager) (tr : Transport) (data : Bytes) : Output :=
  match tr.writable, tr.channel with
  | true, some channel => .sendPacket channel data
  | _, _ => forward memory m (some kTincanPacket) data

theorem handlePacket_route {t : Ptr} {tr : Transport} (h : kHeaderSize ≤ data.length)
    (hr : m.shortUidMap (destKey L data) = some t) (ht : m.transports t = some tr) :
    handlePacket L memory m data = some (m, [routed memory m tr data]) := by
  have hindex := PartialMap.index_of_mem null hr
  simp only [handlePacket, Nat.not_lt.mpr h, ↓reduceIte, null_test_fails, hr, Option.isNone_some,
    Bool.false_eq_true, or_self, hindex, ht]
  unfold routed
  cases tr.writable <;> cases tr.channel <;> rfl

theorem handlePacket_dangling {t : Ptr} (h : kHeaderSize ≤ data.length)
    (hr : m.shortUidMap (destKey L data) = some t) (ht : m.transports t = none) :
    handlePacket L memory m data = none := by
  have hindex := PartialMap.index_of_mem null hr
  simp [handlePacket, Nat.not_lt.mpr h, null_test_fails, hr, hindex, ht]

theorem onReadPacket_short (channel : Ptr) (h : data.length < kHeaderSize) :
    onReadPacket L m channel data = some (m, none) := by
  simp [onReadPacket, h]

theorem onReadPacket_noRoute (channel : Ptr) (h : kHeaderSize ≤ data.length)
    (hr : m.shortUidMap (sourceKey L data) = none) :
    onReadPacket L m channel data = some (m, none) := by
  simp [onReadPacket, Nat.not_lt.mpr h, hr]

theorem onReadPacket_route (channel : Ptr) {t : Ptr} {tr : Transport} (h : kHeaderSize ≤ data.length)
    (hr : m.shortUidMap (sourceKey L data) = some t) (ht : m.transports t = some tr) :
    onReadPacket L m channel data = some (m, if tr.channel = some channel then some data else none) := by
  have hindex := PartialMap.index_of_mem null hr
  simp [onReadPacket, Nat.not_lt.mpr h, hr, hindex, ht]

/-- The subscripts of the packet path always hit, so they insert nothing. -/
theorem handlePacket_manager {m' : Manager} {out : List Output}
    (h : handlePacket L memory m data = some (m', out)) : m' = m := by
  obtain hl | hl := Nat.lt_or_ge data.length kHeaderSize
  · rw [handlePacket_short L memory hl] at h
    cases h
    rfl
  · cases hr : m.shortUidMap (destKey L data) with
    | none =>
      rw [handlePacket_noRoute L memory hl hr] at h
      cases h
      rfl
    | some t =>
      cases ht : m.transports t with
      | none =>
        rw [handlePacket_dangling L memory hl hr ht] at h
        cases h
      | some tr =>
        rw [handlePacket_route L memory hl hr ht] at h
        cases h
        rfl

theorem onReadPacket_manager {m' : Manager} {channel : Ptr} {packet : Option Bytes}
    (h : onReadPacket L m channel data = some (m', packet)) : m' = m := by
  obtain hl | hl := Nat.lt_or_ge data.length kHeaderSize
  · rw [onReadPacket_short L channel hl] at h
    cases h
    rfl
  · cases hr : m.shortUidMap (sourceKey L data) with
    | none =>
      rw [onReadPacket_noRoute L channel hl hr] at h
      cases h
      rfl
    | some t =>
      cases ht : m.transports t with
      | none =>
        have hindex := PartialMap.index_of_mem null hr
        simp [onReadPacket, Nat.not_lt.mpr hl, hr, hindex, ht] at h
      | some tr =>
        rw [onReadPacket_route L channel hl hr ht] at h
        cases h
        rfl

/-- Every pointer in the fast lookup table refers to a live transport. -/
def RoutesLive (m : Manager) : Prop :=
  ∀ key t, m.shortUidMap key = some t → ∃ tr, m.transports t = some tr

theorem handlePacket_defined (hm : RoutesLive m) (data : Bytes) :
    ∃ out, handlePacket L memory m data = some (m, out) := by
  obtain hl | hl := Nat.lt_or_ge data.length kHeaderSize
  · exact ⟨_, handlePacket_short L memory hl⟩
  · cases hr : m.shortUidMap (destKey L data) with
    | none => exact ⟨_, handlePacket_noRoute L memory hl hr⟩
    | some t =>
      obtain ⟨tr, ht⟩ := hm _ t hr
      exact ⟨_, handlePacket_route L memory hl hr ht⟩

theorem onReadPacket_defined (hm : RoutesLive m) (channel : Ptr) (data : Bytes) :
    ∃ packet, onReadPacket L m channel data = some (m, packet) := by
  obtain hl | hl := Nat.lt_or_ge data.length kHeaderSize
  · exact ⟨_, onReadPacket_short L channel hl⟩
  · cases hr : m.shortUidMap (sourceKey L data) with
    | none => exact ⟨_, onReadPacket_noRoute L channel hl hr⟩
    | some t =>
      obtain ⟨tr, ht⟩ := hm _ t hr
      exact ⟨_, onReadPacket_route L channel hl hr ht⟩

end

end Tincan.PacketPath
