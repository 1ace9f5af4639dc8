import Tincan.ForwardedFrames
import Tincan.Process

namespace Tincan.DatagramBounds

open Tincan.Library Tincan.Library.Text Tincan.Libjingle Tincan.Utils
open Tincan.ConnectionManager Tincan.ControllerAccess Tincan.ForwardedFrames

/-- Where `HandlePacket` goes once it has looked at the header. -/
inductive Branch
  | toTap
  | toSend
  | toReader (known : Bool)
  deriving DecidableEq

def versionLog (d : Datagram) : List LogLine :=
  if d.buffer 0 ≠ kIpopVer then [.versionMismatch (d.buffer 0)] else []

def branch (d : Datagram) : Branch :=
  if d.buffer 1 = kTincanPacket then .toTap
  else if d.buffer 1 = kICCControl ∨ d.buffer 1 = kICCPacket then .toSend
  else .toReader (d.buffer 1 == kTincanControl)

/-- What the reader makes of a text: whether it accepts it, and the method that
the switch is on. -/
def verdict (J : Json.Api) (text : Bytes) : Bool × Option Bytes :=
  ((J.parse text).1, J.string (J.parse text).2 (bytes "m"))

/-- The whole way through the function. In front of the reader, the text may not
even be had. -/
def taken (J : Json.Api) (d : Datagram) : Branch × Option (Bool × Option Bytes) :=
  match branch d with
  | .toReader known => (.toReader known, d.message.map (verdict J))
  | b => (b, none)

def follow (libs : Libs) (env : Env) (s : Controller) (d : Datagram) :
    Branch × Option (Bool × Option Bytes) → Option ControllerAccess.Outcome
  | (.toTap, _) => d.payload.map (fun packet => ⟨sendToTap s packet, [], versionLog d⟩)
  | (.toSend, _) => d.payload.map (fun packet => ⟨doPacketSend s packet, [], versionLog d⟩)
  | (.toReader known, found) => do
    let (accepted, method) ← found
    let method ← method
    let message ← d.message
    let (call, rpcCalls) := s.rpcCalls.index method .unknown
    let o ← dispatch libs env { s with rpcCalls := rpcCalls } (libs.json.parse message).2 method d.addr call
    some { o with
      output := if accepted then o.output else o.output ++ sendTo env parsingFailed d.addr
      log := versionLog d ++ (if known then [] else [.unknownMessageType]) ++ o.log }

def handedLen (d : Datagram) : Nat := (d.len + 2 ^ 64 - kTincanHeaderSize) % 2 ^ 64

theorem payload_handedLen (d : Datagram) : d.payload =
    if handedLen d < 2 ^ 63 then
      some ((List.range (handedLen d)).map (fun i => d.buffer (i + kTincanHeaderSize)))
    else none := rfl

theorem handlePacket_branch (libs : Libs) (env : Env) (s : Controller) (d : Datagram) :
    ControllerAccess.handlePacket libs env s d = match branch d with
      | .toTap => d.payload.map (fun packet => ⟨sendToTap s packet, [], versionLog d⟩)
      | .toSend => d.payload.map (fun packet => ⟨doPacketSend s packet, [], versionLog d⟩)
      | .toReader known => (handleRequest libs env s d).map (fun o => { o with
          log := versionLog d ++ (if known then [] else [.unknownMessageType]) ++ o.log }) := by
  unfold ControllerAccess.handlePacket branch
  by_cases htap : d.buffer 1 = kTincanPacket
  · rw [if_pos htap, if_pos htap]
    rfl
  · by_cases hicc : d.buffer 1 = kICCControl ∨ d.buffer 1 = kICCPacket
    · rw [if_neg htap, if_neg htap, if_pos hicc, if_pos hicc]
      rfl
    · rw [if_neg htap, if_neg htap, if_neg hicc, if_neg hicc]
      by_cases ht : d.buffer 1 = kTincanControl <;> simp [versionLog, ht]

theorem handlePacket_follow (libs : Libs) (env : Env) (s : Controller) (d : Datagram) :
    ControllerAccess.handlePacket libs env s d = follow libs env s d (taken libs.json d) := by
  rw [handlePacket_branch]
  unfold taken
  cases branch d with
  | toTap => rfl
  | toSend => rfl
  | toReader known =>
    have hresult : parsingFailed ≠ [] := by decide
    cases hm : d.message with
    | none => simp [follow, handleRequest, hm]
    | some message =>
      cases hmethod : libs.json.string (libs.json.parse message).2 (bytes "m") with
      | none => simp [follow, handleRequest, hm, hmethod, verdict]
      | some method =>
        cases hd : dispatch libs env { s with rpcCalls := (s.rpcCalls.index method .unknown).2 }
            (libs.json.parse message).2 method d.addr (s.rpcCalls.index method .unknown).1 with
        | none => simp [follow, handleRequest, hm, hmethod, verdict, hd]
        | some o =>
          by_cases ha : (libs.json.parse message).1 = true <;>
            simp [follow, handleRequest, hm, hmethod, verdict, hd, ha, hresult]

theorem length_received (d : Datagram) : d.received.length = d.len := by simp [Datagram.received]

theorem received_header {d : Datagram} (h : kTincanHeaderSize ≤ d.len) :
    d.received = d.buffer 0 :: d.buffer 1 :: d.received.drop kTincanHeaderSize := by
  obtain ⟨n, hn⟩ := Nat.exists_eq_add_of_le' h
  rw [Datagram.received, hn, kTincanHeaderSize, List.range_succ_eq_map, List.map_cons, List.map_map,
    List.range_succ_eq_map, List.map_cons, List.map_map]
  rfl

theorem payload_of_header {d : Datagram} (h : kTincanHeaderSize ≤ d.len) :
    d.payload = some (d.received.drop kTincanHeaderSize) := (received_cons (received_header h)).2.2

theorem handedLen_of_header {d : Datagram} (h : kTincanHeaderSize ≤ d.len) :
    handedLen d = d.len - kTincanHeaderSize := by
  have hlt := d.len_lt
  unfold handedLen
  simp only [kTincanHeaderSize] at h ⊢
  omega

def IsPacket (d : Datagram) : Prop :=
  d.buffer 1 = kTincanPacket ∨ d.buffer 1 = kICCControl ∨ d.buffer 1 = kICCPacket

instance (d : Datagram) : Decidable (IsPacket d) := inferInstanceAs (Decidable (_ ∨ _))

/-- One or two bytes behind the text make no difference to the reader. -/
def Ended (J : Json.Api) (text : Bytes) : Prop :=
  ∀ tail : Bytes, tail.length ≤ 2 → 0 ∉ tail → verdict J (text ++ tail) = verdict J text

/-- What is handed on is the payload that was received. -/
structure SizesRight (libs : Libs) (d : Datagram) : Prop where
  len : branch d = .toTap ∨ branch d = .toSend →
    handedLen d = (d.received.drop kTincanHeaderSize).length
  toTap : branch d = .toTap → ∀ env s, ControllerAccess.handlePacket libs env s d =
    some ⟨sendToTap s (d.received.drop kTincanHeaderSize), [], versionLog d⟩
  toSend : branch d = .toSend → ∀ env s, ControllerAccess.handlePacket libs env s d =
    some ⟨doPacketSend s (d.received.drop kTincanHeaderSize), [], versionLog d⟩

/-- The bytes that were received settle the way through the function. -/
def Settled (J : Json.Api) (d : Datagram) : Prop :=
  ∀ d' : Datagram, d'.received = d.received → versionLog d' = versionLog d ∧ taken J d' = taken J d

theorem isPacket_iff (d : Datagram) : IsPacket d ↔ branch d = .toTap ∨ branch d = .toSend := by
  unfold IsPacket branch
  split_ifs with htap hicc
  · simp [htap]
  · simp [hicc]
  · simp [htap, hicc]

theorem branch_taken (J : Json.Api) (d : Datagram) : (taken J d).1 = branch d := by
  unfold taken
  split
  · next h => exact h.symm
  · rfl

theorem taken_of_packet (J : Json.Api) {d : Datagram} (h : IsPacket d) : taken J d = (branch d, none) := by
  unfold taken
  obtain h | h := (isPacket_iff d).mp h <;> rw [h]

theorem taken_of_reader (J : Json.Api) {d : Datagram} (h : ¬IsPacket d) :
    taken J d = (branch d, d.message.map (verdict J)) := by
  rw [isPacket_iff] at h
  unfold taken
  cases hb : branch d with
  | toTap => exact absurd (.inl hb) h
  | toSend => exact absurd (.inr hb) h
  | toReader known => rfl

theorem header_eq {d d' : Datagram} (h : kTincanHeaderSize ≤ d.len) (hd : d'.received = d.received) :
    d'.buffer 0 = d.buffer 0 ∧ d'.buffer 1 = d.buffer 1 := by
  have hlen : d'.len = d.len := by rw [← length_received, hd, length_received]
  have hheader := received_header (hlen ▸ h : kTincanHeaderSize ≤ d'.len)
  rw [hd, received_header h] at hheader
  simp only [List.cons.injEq] at hheader
  exact ⟨hheader.1.symm, hheader.2.1.symm⟩

def withStale (d : Datagram) (b : Byte) : Datagram :=
  { d with buffer := fun i => if i = 1 then b else d.buffer i }

theorem received_withStale {d : Datagram} (h : d.len < kTincanHeaderSize) (b : Byte) :
    (withStale d b).received = d.received := by
  refine List.map_congr_left ?_
  intro i hi
  have hi' : i ≠ 1 := by
    have hlt := List.mem_range.mp hi
    simp only [withStale, kTincanHeaderSize] at hlt h
    omega
  simp [withStale, hi']

theorem not_settled (J : Json.Api) {d : Datagram} (h : d.len < kTincanHeaderSize) : ¬ Settled J d := by
  intro hs
  have htap := congrArg Prod.fst (hs _ (received_withStale h kTincanPacket)).2
  have hcontrol := congrArg Prod.fst (hs _ (received_withStale h kTincanControl)).2
  rw [branch_taken, branch_taken] at htap hcontrol
  have hne : branch (withStale d kTincanPacket) ≠ branch (withStale d kTincanControl) := by
    simp only [branch, withStale, ↓reduceIte]
    decide
  exact hne (htap.trans hcontrol.symm)

theorem sizesRight_of_header (libs : Libs) {d : Datagram} (h : kTincanHeaderSize ≤ d.len) :
    SizesRight libs d := by
  have hp := payload_of_header h
  refine ⟨?_, ?_, ?_⟩
  · intro _
    rw [handedLen_of_header h, List.length_drop, length_received]
  · intro hb env s
    rw [handlePacket_branch, hb, hp]
    rfl
  · intro hb env s
    rw [handlePacket_branch, hb, hp]
    rfl

theorem message_eq (d : Datagram) : d.message =
    let text := cutAt 0 (d.received ++ [d.buffer d.len, d.buffer (d.len + 1)])
    if text.length < kTincanHeaderSize then none else some (text.drop kTincanHeaderSize) := by
  have hwindow : (List.range (d.len + 2)).map d.buffer =
      d.received ++ [d.buffer d.len, d.buffer (d.len + 1)] := by
    simp [Datagram.received, List.range_succ]
  rw [Datagram.message, hwindow]
  rfl

theorem message_of_null {d : Datagram} (h : 0 ∈ d.received) : d.message =
    if (cutAt 0 d.received).length < kTincanHeaderSize then none
    else some ((cutAt 0 d.received).drop kTincanHeaderSize) := by
  rw [message_eq, cutAt_append_of_mem _ h]

theorem message_of_no_null {d : Datagram} (hlen : kTincanHeaderSize ≤ d.len) (h : 0 ∉ d.received) :
    d.message = some (d.received.drop kTincanHeaderSize ++
      cutAt 0 [d.buffer d.len, d.buffer (d.len + 1)]) := by
  have hreceived := length_received d
  have hge : ¬ (d.received ++ cutAt 0 [d.buffer d.len, d.buffer (d.len + 1)]).length <
      kTincanHeaderSize := by
    rw [List.length_append]
    omega
  rw [message_eq, cutAt_append _ h]
  simp only [hge, ↓reduceIte, List.drop_append_of_le_length (hreceived ▸ hlen)]

def followedBy (d : Datagram) (tail : Bytes) : Datagram :=
  { d with buffer := fun i => if i < d.len then d.buffer i else tail.getD (i - d.len) 0 }

theorem received_followedBy (d : Datagram) (tail : Bytes) : (followedBy d tail).received = d.received := by
  refine List.map_congr_left ?_
  intro i hi
  exact if_pos (List.mem_range.mp hi)

theorem message_followedBy {d : Datagram} {tail : Bytes} (hlen : kTincanHeaderSize ≤ d.len)
    (h : 0 ∉ d.received) (htail : tail.length ≤ 2) (hnull : 0 ∉ tail) :
    (followedBy d tail).message = some (d.received.drop kTincanHeaderSize ++ tail) := by
  have hreceived := received_followedBy d tail
  have hcut : cutAt 0 [tail.getD 0 0, tail.getD 1 0] = tail := by
    match tail, htail, hnull with
    | [], _, _ => rfl
    | [a], _, hnull =>
      have ha : a ≠ 0 := fun he => hnull (List.mem_singleton.mpr he.symm)
      simp [cutAt, ha]
    | [a, b], _, hnull =>
      simp only [List.mem_cons, List.not_mem_nil, or_false, not_or] at hnull
      simp [cutAt, Ne.symm hnull.1, Ne.symm hnull.2]
  rw [message_of_no_null (d := followedBy d tail) hlen (hreceived ▸ h), hreceived]
  simp only [followedBy, lt_irrefl, ↓reduceIte, Nat.sub_self, Nat.not_lt.mpr (Nat.le_succ _),
    Nat.add_sub_cancel_left]
  rw [hcut]

theorem handlePacket_stale (libs : Libs) (env : Env) (s : Controller) {d d' : Datagram}
    (hlen : kTincanHeaderSize ≤ d.len) (h : IsPacket d ∨ 0 ∈ d.received)
    (hd : d'.received = d.received) (haddr : d'.addr = d.addr) :
    ControllerAccess.handlePacket libs env s d' = ControllerAccess.handlePacket libs env s d := by
  obtain ⟨hversion, htype⟩ := header_eq hlen hd
  have hlen' : kTincanHeaderSize ≤ d'.len := by rwa [← length_received, hd, length_received]
  have hpayload : d'.payload = d.payload := by
    rw [payload_of_header hlen', payload_of_header hlen, hd]
  unfold ControllerAccess.handlePacket
  rw [hversion, htype, hpayload]
  obtain htap | hicc | hicc | hnull := or_assoc.mp h |>.imp_right or_assoc.mp
  · simp only [htap, ↓reduceIte]
  · simp [hicc]
  · simp [hicc]
  · have hmessage : d'.message = d.message := by
      rw [message_of_null (hd ▸ hnull), message_of_null hnull, hd]
    simp only [handleRequest, hmessage, haddr]

theorem settled_iff (J : Json.Api) {d : Datagram} (hlen : kTincanHeaderSize ≤ d.len) :
    Settled J d ↔ IsPacket d ∨ 0 ∈ d.received ∨ Ended J (d.received.drop kTincanHeaderSize) := by
  have hsame : ∀ d', d'.received = d.received → versionLog d' = versionLog d ∧
      branch d' = branch d ∧ (IsPacket d' ↔ IsPacket d) := by
    intro d' hd
    obtain ⟨hversion, htype⟩ := header_eq hlen hd
    unfold versionLog branch IsPacket
    rw [hversion, htype]
    exact ⟨rfl, rfl, Iff.rfl⟩
  by_cases hp : IsPacket d
  · refine iff_of_true (fun d' hd => ?_) (.inl hp)
    obtain ⟨hlog, hbranch, hpacket⟩ := hsame d' hd
    rw [taken_of_packet J hp, taken_of_packet J (hpacket.mpr hp), hbranch]
    exact ⟨hlog, rfl⟩
  have hsettled : Settled J d ↔ ∀ d' : Datagram, d'.received = d.received →
      d'.message.map (verdict J) = d.message.map (verdict J) := by
    refine forall₂_congr (fun d' hd => ?_)
    obtain ⟨hlog, hbranch, hpacket⟩ := hsame d' hd
    rw [taken_of_reader J hp, taken_of_reader J (mt hpacket.mp hp), hbranch, hlog]
    simp
  rw [hsettled]
  by_cases hnull : 0 ∈ d.received
  · refine iff_of_true (fun d' hd => ?_) (.inr (.inl hnull))
    rw [message_of_null (hd ▸ hnull), message_of_null hnull, hd]
  simp only [hp, hnull, false_or]
  constructor
  · -- Every tail can be what an earlier datagram has left behind this one.
    intro hs tail htail htailNull
    have hwith := hs _ (received_followedBy d tail)
    have hwithout := hs _ (received_followedBy d [])
    rw [message_followedBy hlen hnull htail htailNull] at hwith
    rw [message_followedBy hlen hnull (Nat.zero_le _) List.not_mem_nil, List.append_nil] at hwithout
    exact Option.some.inj (hwith.trans hwithout.symm)
  · intro hended d' hd
    have hreads : ∀ c : Datagram, c.received = d.received →
        c.message.map (verdict J) = some (verdict J (d.received.drop kTincanHeaderSize)) := by
      intro c hc
      have hclen : kTincanHeaderSize ≤ c.len := by rwa [← length_received, hc, length_received]
      rw [message_of_no_null hclen (hc ▸ hnull), hc, Option.map_some]
      refine congrArg some (hended _ ((List.takeWhile_prefix _).length_le) ?_)
      intro hmem
      have hne := List.mem_takeWhile_imp hmem
      simp at hne
    rw [hreads d' hd, hreads d rfl]

theorem settled_for_all_iff (d : Datagram) :
    (∀ J, Settled J d) ↔ kTincanHeaderSize ≤ d.len ∧ (IsPacket d ∨ 0 ∈ d.received) := by
  constructor
  · intro h
    -- This reader takes the payload that was received, and nothing else.
    have hpicky := h (Json.Api.over
      (fun text => (text = d.received.drop kTincanHeaderSize, .null)) (fun _ => []))
    have hlen : kTincanHeaderSize ≤ d.len := by
      by_contra hlt
      exact not_settled _ (Nat.lt_of_not_le hlt) hpicky
    refine ⟨hlen, ?_⟩
    obtain hp | hnull | hended := (settled_iff _ hlen).mp hpicky
    · exact .inl hp
    · exact .inr hnull
    · have hlonger := congrArg Prod.fst (hended [1] (by decide) (by decide))
      simp [verdict, Json.Api.over] at hlonger
  · rintro ⟨hlen, h⟩ J
    exact (settled_iff J hlen).mpr (h.imp_right .inl)

def localhost : SocketAddress := ⟨[], .v4 2130706433, 5801⟩

def headless (stale : Byte) : Datagram where
  buffer i := if i = 0 then kIpopVer else stale
  len := 1
  addr := localhost
  len_lt := by decide
  family := by decide

def finishedValue : Json.Value := .object [(bytes "m", .string (bytes "trim_link"))]

/-- A reader that stops at a string without an end, with the member still null. -/
def unfinishedReader (text : Bytes) : Bool × Json.Value :=
  if text = bytes "\x7b\"m\":\"trim_link\"\x7d" then (true, finishedValue)
  else (false, .object [(bytes "m", .null)])

def unfinishedLibs : Libs := { Process.sampleLibs [] with json := Json.Api.over unfinishedReader (fun _ => []) }

def unfinished (stale : Bytes) : Datagram where
  buffer i := (kIpopVer :: kTincanControl :: bytes "\x7b\"m\":\"trim_link" ++ stale).getD i 0
  len := 17
  addr := localhost
  len_lt := by decide
  family := by decide

theorem message_iff_terminated {d : Datagram} (h : kTincanHeaderSize ≤ d.len) :
    d.message = some (d.received.drop kTincanHeaderSize) ↔ 0 ∉ d.received ∧ d.buffer d.len = 0 := by
  have hlen := length_received d
  by_cases hnul : 0 ∈ d.received
  · have hlt := length_cutAt_lt hnul
    rw [message_of_null hnul]
    refine iff_of_false ?_ (fun hc => hc.1 hnul)
    split
    · simp
    · next hge =>
      intro he
      have hdrop := congrArg List.length (Option.some.inj he)
      rw [List.length_drop, List.length_drop] at hdrop
      omega
  · rw [message_of_no_null h hnul]
    simp only [Option.some.injEq, List.append_right_eq_self, hnul, not_false_eq_true, true_and]
    by_cases hb : d.buffer d.len = 0 <;> simp [cutAt, hb]

theorem message_none_iff {d : Datagram} (h : kTincanHeaderSize ≤ d.len) :
    d.message = none ↔ d.buffer 0 = 0 ∨ d.buffer 1 = 0 := by
  have hheader := received_header h
  rw [message_eq, hheader]
  by_cases h₀ : d.buffer 0 = 0
  · simp [cutAt, h₀, kTincanHeaderSize]
  · by_cases h₁ : d.buffer 1 = 0
    · simp [cutAt, h₀, h₁, kTincanHeaderSize]
    · have hcut : cutAt 0 (d.buffer 0 :: d.buffer 1 :: d.received.drop kTincanHeaderSize ++
            [d.buffer d.len, d.buffer (d.len + 1)]) =
          d.buffer 0 :: d.buffer 1 :: cutAt 0 (d.received.drop kTincanHeaderSize ++
            [d.buffer d.len, d.buffer (d.len + 1)]) := by
        simp [cutAt, h₀, h₁]
      rw [hcut]
      simp [h₀, h₁, kTincanHeaderSize]

/-- When a control text is recovered: in general, for a text that was framed
by the sender, and when the attempt ends in an exception instead. -/
theorem message_recovered_iff (d : Datagram) :
    (∀ memory m, d.received = frame memory (some kTincanControl) m →
      (d.message = some m ↔ 0 ∉ m ∧ d.buffer d.len = 0)) ∧
    (kTincanHeaderSize ≤ d.len →
      (d.message = some (d.received.drop kTincanHeaderSize) ↔ 0 ∉ d.received ∧ d.buffer d.len = 0) ∧
      (d.message = none ↔ d.buffer 0 = 0 ∨ d.buffer 1 = 0)) := by
  constructor
  · intro memory m hm
    rw [frame_eq] at hm
    have hlen : kTincanHeaderSize ≤ d.len := by
      rw [← length_received, hm]
      simp [kTincanHeaderSize]
    have hiff := message_iff_terminated hlen
    rw [hm] at hiff
    have hver : kIpopVer ≠ 0 := by decide
    have htype : kTincanControl ≠ 0 := by decide
    simpa [kTincanHeaderSize, hver.symm, htype.symm] using hiff
  · intro h
    exact ⟨message_iff_terminated h, message_none_iff h⟩

theorem control_len_lt {m : Bytes} (h : m.length < 1000) : m.length + kTincanHeaderSize < 2 ^ 16 := by
  simp only [kTincanHeaderSize]
  omega

def control (m : Bytes) (stale : Byte) (h : m.length < 1000) : Datagram where
  buffer i := (frame (fun _ => 0) (some kTincanControl) m).getD i stale
  len := m.length + kTincanHeaderSize
  addr := localhost
  len_lt := control_len_lt h
  family := by decide

def emptyObject : Bytes := bytes "\x7b\x7d"

theorem message_recovered_iff_object :
    (control emptyObject 0 (by decide)).message = some emptyObject ↔
      0 ∉ emptyObject ∧ (control emptyObject 0 (by decide)).buffer 4 = 0 :=
  (message_recovered_iff (control emptyObject 0 (by decide))).1 (fun _ => 0) emptyObject (by decide)

/-- Two bytes of an earlier datagram are appended to a text, a NUL cuts the
rest off, and a NUL for a type byte is an exception. -/
theorem message_not_recovered :
    ((control emptyObject 65 (by decide)).received = frame (fun _ => 0) (some kTincanControl) emptyObject ∧
      (control emptyObject 65 (by decide)).message = some (emptyObject ++ [65, 65])) ∧
    ((control [34, 0, 34] 0 (by decide)).received = frame (fun _ => 0) (some kTincanControl) [34, 0, 34] ∧
      (control [34, 0, 34] 0 (by decide)).message = some [34]) ∧
    (branch (withStale (control emptyObject 0 (by decide)) 0) = .toReader false ∧
      (withStale (control emptyObject 0 (by decide)) 0).message = none) := by
  decide

end Tincan.DatagramBounds
