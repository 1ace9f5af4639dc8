import Tincan.Library.Text

namespace Tincan.Utils

open Tincan.Library.Text

def kIpopVer : Byte := 3

def kTincanControl : Byte := 1
def kTincanPacket : Byte := 2
def kICCControl : Byte := 3
def kICCPacket : Byte := 4

def kTincanVerOffset : Nat := 0
def kTincanMsgTypeOffset : Nat := 1

def kTincanHeaderSize : Nat := 2
def kICCMacOffset : Nat := 5

def kHeaderSize : Nat := 40

/-- Characters of a full uid, the hex text of a 160-bit hash. -/
def kIdSize : Nat := 40

def kIdBytesLen : Nat := 20

/-- The lookup tables of the data plane only look at this many bytes of an id. -/
def kShortLen : Nat := 8

/-- A freshly allocated buffer holds whatever `memory` left there. -/
def newBuffer (memory : Nat → Byte) (n : Nat) : Bytes := (List.range n).map memory

def copyAt (buf : Bytes) (off : Nat) (data : Bytes) : Bytes :=
  buf.take off ++ data ++ buf.drop (off + data.length)

/-- A datagram as every sender builds it: version byte, type byte, payload.
Without a type the second byte is never written. -/
def frame (memory : Nat → Byte) (type : Option Byte) (data : Bytes) : Bytes :=
  let msg := newBuffer memory (data.length + kTincanHeaderSize)
  let msg := msg.set kTincanVerOffset kIpopVer
  let msg := match type with
    | some t => msg.set kTincanMsgTypeOffset t
    | none => msg
  copyAt msg kTincanHeaderSize data

theorem newBuffer_header (memory : Nat → Byte) (n : Nat) :
    newBuffer memory (n + kTincanHeaderSize) =
      memory 0 :: memory 1 :: newBuffer (fun i => memory (i + 2)) n := by
  simp [newBuffer, kTincanHeaderSize, List.range_succ_eq_map, Function.comp_def]

theorem length_newBuffer (memory : Nat → Byte) (n : Nat) : (newBuffer memory n).length = n := by
  simp [newBuffer]

theorem frame_eq (memory : Nat → Byte) (type : Option Byte) (data : Bytes) :
    frame memory type data = kIpopVer :: type.getD (memory 1) :: data := by
  have hl := length_newBuffer (fun i => memory (i + 2)) data.length
  unfold frame
  rw [newBuffer_header]
  cases type with
  | some t =>
    simp only [copyAt, kTincanVerOffset, kTincanMsgTypeOffset, kTincanHeaderSize, List.set_cons_zero,
      List.set_cons_succ, Nat.add_comm 2, List.drop_succ_cons, List.take_succ_cons, List.take_zero]
    rw [List.drop_eq_nil_of_le (by omega)]
    simp
  | none =>
    simp only [copyAt, kTincanVerOffset, kTincanHeaderSize, List.set_cons_zero, Nat.add_comm 2,
      List.drop_succ_cons, List.take_succ_cons, List.take_zero]
    rw [List.drop_eq_nil_of_le (by omega)]
    simp

end Tincan.Utils
