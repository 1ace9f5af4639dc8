import Tincan.ConnectionManager

namespace Tincan.Registration

open Tincan.Library Tincan.Library.Text Tincan.Library.Numerals Tincan.Libjingle Tincan.Utils
open Tincan.ConnectionManager

/-- How the tap library answers the calls of one request. A call that it answers
with a failure has no effect. -/
abbrev Answers := TapCall → Bool

def setupCalls (r : SetupRequest) (id : Bytes) : List TapCall :=
  [.setIpv4Addr r.ip4 r.ip4Mask, .setIpv6Addr r.ip6 r.ip6Mask, .setMtu, .setBaseFlags, .setUp] ++
    (if r.switchmode ≠ 0 then [.unsetNoarpFlags] else []) ++
    [.peerlistSetLocal id r.ip4 r.ip6, .setSubnetMask r.ip4Mask r.subnetMask]

def mappingCalls (ip4 ip6 id : Bytes) : List TapCall := [.overrideBaseIpv4Addr ip4, .peerlistAdd id ip4 ip6]

def Unrecorded (m m' : Manager) : Prop := m'.tincanId = m.tincanId ∧ m'.ipMap = m.ipMap

/-- Everything takes effect, with the bytes that the uid denotes, and then the
uid is recorded, or nothing is recorded. -/
def AllOrNothing (m m' : Manager) (uid : Bytes) (calls : List TapCall) (ok : Answers)
    (expected : Bytes → List TapCall) (recorded : Manager → Prop) : Prop :=
  (∃ id, unhex uid = some id ∧ id.length = kIdBytesLen ∧ calls.filter ok = expected id ∧ recorded m') ∨
    Unrecorded m m'

def SetupAllOrNothing (L : Api) (memory : Nat → Byte) (m : Manager) (r : SetupRequest) (ok : Answers) : Prop :=
  AllOrNothing m (setup L memory m r).1 r.uid (setup L memory m r).2 ok (setupCalls r)
    (fun m' => m'.tincanId = r.uid)

def MappingAllOrNothing (L : Api) (memory : Nat → Byte) (m : Manager) (uid ip4 ip6 : Bytes) (ok : Answers) :
    Prop :=
  AllOrNothing m (addIPMapping L memory m uid ip4 ip6).1 uid (addIPMapping L memory m uid ip4 ip6).2.2 ok
    (mappingCalls ip4 ip6) (fun m' => m'.ipMap uid = some ⟨ip4, ip6⟩)

def setupRefused (m : Manager) (r : SetupRequest) : Prop := m.tincanId ≠ [] ∨ r.uid.length ≠ kIdSize

def mappingRefused (m : Manager) (uid ip4 ip6 : Bytes) : Prop :=
  ip4 = [] ∨ ip6 = [] ∨ uid.length ≠ kIdSize ∨ (m.ipMap uid).isSome

def Succeeds (uid : Bytes) (ok : Answers) (expected : Bytes → List TapCall) : Prop :=
  ∃ id, unhex uid = some id ∧ ∀ call ∈ expected id, ok call = true

section

variable {L : Api} (memory : Nat → Byte) {m : Manager} {uid ip4 ip6 : Bytes}

theorem hexDecode_uid (hdec : L.HexDecodes) {id : Bytes} (huid : uid.length = kIdSize)
    (hid : unhex uid = some id) :
    id.length = kIdBytesLen ∧ (L.hexDecode (newBuffer memory kIdBytesLen) uid).2 = id := by
  have hlength := length_of_unhex hid
  have hbuffer : (newBuffer memory kIdBytesLen).length = kIdBytesLen := by simp [newBuffer]
  have hid : id.length = kIdBytesLen := by
    rw [huid] at hlength
    simp only [kIdSize, kIdBytesLen] at hlength ⊢
    omega
  refine ⟨hid, ?_⟩
  rw [hdec _ _ _ ‹_› (by omega), List.drop_eq_nil_of_le (by omega), List.append_nil]

/-- When the request is carried out, what was asked for is recorded, so it is
all up to the uid and the answers. -/
theorem allOrNothing_iff {m' : Manager} {calls : List TapCall} {ok : Answers}
    {expected : Bytes → List TapCall} {recorded : Manager → Prop} (hrecorded : recorded m')
    (hchanged : ¬Unrecorded m m')
    (hcalls : ∀ id, unhex uid = some id → id.length = kIdBytesLen ∧ calls = expected id) :
    AllOrNothing m m' uid calls ok expected recorded ↔ Succeeds uid ok expected := by
  constructor
  · rintro (⟨id, hid, _, hfilter, _⟩ | hsame)
    · rw [(hcalls id hid).2, List.filter_eq_self] at hfilter
      exact ⟨id, hid, hfilter⟩
    · exact absurd hsame hchanged
  · rintro ⟨id, hid, hok⟩
    obtain ⟨hlength, heq⟩ := hcalls id hid
    refine .inl ⟨id, hid, hlength, ?_, hrecorded⟩
    rw [heq, List.filter_eq_self]
    exact hok

theorem setup_of_refused {r : SetupRequest} (h : setupRefused m r) : setup L memory m r = (m, []) := by
  unfold setupRefused at h
  rw [setup, if_pos h]

theorem setup_of_accepted {r : SetupRequest} (h : ¬setupRefused m r) :
    (setup L memory m r).1.tincanId = r.uid ∧
      (setup L memory m r).2 = setupCalls r (L.hexDecode (newBuffer memory kIdBytesLen) r.uid).2 := by
  unfold setupRefused at h
  rw [setup, if_neg h]
  exact ⟨rfl, rfl⟩

theorem addIPMapping_of_refused (h : mappingRefused m uid ip4 ip6) :
    addIPMapping L memory m uid ip4 ip6 = (m, false, []) := by
  unfold mappingRefused at h
  rw [addIPMapping, if_pos h]

theorem addIPMapping_of_accepted (h : ¬mappingRefused m uid ip4 ip6) :
    (addIPMapping L memory m uid ip4 ip6).1.ipMap = m.ipMap.insert uid ⟨ip4, ip6⟩ ∧
      (addIPMapping L memory m uid ip4 ip6).2.2 =
        let id := (L.hexDecode (newBuffer memory kIdBytesLen) uid).2
        if ip4 = bytes "127.0.0.1" then [.overrideBaseIpv4Addr ip4, .peerlistAddByUid id]
        else mappingCalls ip4 ip6 id := by
  unfold mappingRefused at h
  rw [addIPMapping, if_neg h]
  refine ⟨rfl, ?_⟩
  dsimp only
  split <;> rfl

theorem setupAllOrNothing_iff (hdec : L.HexDecodes) (r : SetupRequest) (ok : Answers) :
    SetupAllOrNothing L memory m r ok ↔ setupRefused m r ∨ Succeeds r.uid ok (setupCalls r) := by
  by_cases hr : setupRefused m r
  · refine iff_of_true (.inr ?_) (.inl hr)
    rw [setup_of_refused memory hr]
    exact ⟨rfl, rfl⟩
  · rw [or_iff_right hr]
    have hguard : m.tincanId = [] ∧ r.uid.length = kIdSize := by simpa [setupRefused] using hr
    obtain ⟨hrecorded, hcalls⟩ := setup_of_accepted (L := L) memory hr
    refine allOrNothing_iff hrecorded ?_ ?_
    · rintro ⟨hid, _⟩
      have hempty : r.uid = [] := hrecorded.symm.trans (hid.trans hguard.1)
      simp [hempty, kIdSize] at hguard
    · intro id hid
      obtain ⟨hlength, hbytes⟩ := hexDecode_uid memory hdec hguard.2 hid
      exact ⟨hlength, by rw [hcalls, hbytes]⟩

theorem mappingAllOrNothing_iff (hdec : L.HexDecodes) (ok : Answers) :
    MappingAllOrNothing L memory m uid ip4 ip6 ok ↔ mappingRefused m uid ip4 ip6 ∨
      ip4 ≠ bytes "127.0.0.1" ∧ Succeeds uid ok (mappingCalls ip4 ip6) := by
  by_cases hr : mappingRefused m uid ip4 ip6
  · refine iff_of_true (.inr ?_) (.inl hr)
    rw [addIPMapping_of_refused memory hr]
    exact ⟨rfl, rfl⟩
  · rw [or_iff_right hr]
    have hguard : uid.length = kIdSize ∧ m.ipMap uid = none := by
      simp only [mappingRefused, not_or, not_not, Option.not_isSome_iff_eq_none] at hr
      exact hr.2.2
    obtain ⟨hmap, hcalls⟩ := addIPMapping_of_accepted (L := L) memory hr
    have hrecorded : (addIPMapping L memory m uid ip4 ip6).1.ipMap uid = some ⟨ip4, ip6⟩ := by
      rw [hmap, PartialMap.insert_self]
    have hchanged : ¬Unrecorded m (addIPMapping L memory m uid ip4 ip6).1 := by
      rintro ⟨_, hsame⟩
      rw [hsame, hguard.2] at hrecorded
      cases hrecorded
    by_cases hlocal : ip4 = bytes "127.0.0.1"
    · refine iff_of_false ?_ (fun h => h.1 hlocal)
      rintro (⟨id, _, _, hfilter, _⟩ | hsame)
      · have hmem : TapCall.peerlistAdd id ip4 ip6 ∈ mappingCalls ip4 ip6 id := by simp [mappingCalls]
        rw [← hfilter, hcalls] at hmem
        simp [hlocal] at hmem
      · exact hchanged hsame
    · rw [and_iff_right hlocal]
      refine allOrNothing_iff hrecorded hchanged ?_
      intro id hid
      obtain ⟨hlength, hbytes⟩ := hexDecode_uid memory hdec hguard.1 hid
      refine ⟨hlength, ?_⟩
      rw [hcalls, hbytes]
      simp only [hlocal, ↓reduceIte]

theorem addIPMapping_local (hdec : L.HexDecodes) {id : Bytes} (hid : unhex uid = some id)
    (hr : ¬mappingRefused m uid (bytes "127.0.0.1") ip6) :
    (addIPMapping L memory m uid (bytes "127.0.0.1") ip6).2.2 =
      [.overrideBaseIpv4Addr (bytes "127.0.0.1"), .peerlistAddByUid id] := by
  have huid : uid.length = kIdSize := by
    simp only [mappingRefused, not_or, not_not] at hr
    exact hr.2.2.1
  rw [(addIPMapping_of_accepted memory hr).2, (hexDecode_uid memory hdec huid hid).2]
  exact if_pos rfl

theorem setup_refused_after {r : SetupRequest} (h : ¬setupRefused m r) (r' : SetupRequest) :
    setupRefused (setup L memory m r).1 r' := by
  have hlength : r.uid.length = kIdSize := by simpa [setupRefused] using (not_or.mp h).2
  refine .inl ?_
  rw [(setup_of_accepted memory h).1]
  intro hempty
  simp [hempty, kIdSize] at hlength

theorem mapping_refused_after (h : ¬mappingRefused m uid ip4 ip6) (ip4' ip6' : Bytes) :
    mappingRefused (addIPMapping L memory m uid ip4 ip6).1 uid ip4' ip6' := by
  refine .inr (.inr (.inr ?_))
  rw [(addIPMapping_of_accepted memory h).1, PartialMap.insert_self]
  rfl

end

/-- A registration is all or nothing just if it is refused or everything goes
well: the uid is hexadecimal, all calls succeed and, for a peer, they are made
with its addresses, which one address prevents. Otherwise what was not registered
is recorded, and a later request for it is refused. -/
theorem all_or_nothing_iff {L : Api} (hdec : L.HexDecodes) (memory : Nat → Byte) (m : Manager) (ok : Answers) :
    (∀ r, (SetupAllOrNothing L memory m r ok ↔ setupRefused m r ∨ Succeeds r.uid ok (setupCalls r)) ∧
      (¬setupRefused m r → ∀ r', setupRefused (setup L memory m r).1 r')) ∧
    (∀ uid ip4 ip6, (MappingAllOrNothing L memory m uid ip4 ip6 ok ↔ mappingRefused m uid ip4 ip6 ∨
        ip4 ≠ bytes "127.0.0.1" ∧ Succeeds uid ok (mappingCalls ip4 ip6)) ∧
      (¬mappingRefused m uid ip4 ip6 → ∀ ip4' ip6',
        mappingRefused (addIPMapping L memory m uid ip4 ip6).1 uid ip4' ip6')) ∧
    ∀ uid id ip6, unhex uid = some id → ¬mappingRefused m uid (bytes "127.0.0.1") ip6 →
      (addIPMapping L memory m uid (bytes "127.0.0.1") ip6).2.2 =
        [.overrideBaseIpv4Addr (bytes "127.0.0.1"), .peerlistAddByUid id] :=
  ⟨fun r => ⟨setupAllOrNothing_iff memory hdec r ok, setup_refused_after memory⟩,
    fun _ _ _ => ⟨mappingAllOrNothing_iff memory hdec ok, mapping_refused_after memory⟩,
    fun _ _ _ hid hr => addIPMapping_local memory hdec hid hr⟩

def digitsRequest : SetupRequest := ⟨List.replicate 40 97, kIpv4, 24, kIpv6, 64, 24, 0⟩

def dashesRequest : SetupRequest := { digitsRequest with uid := List.replicate 40 45 }

def blank : Manager := Manager.new 0 (bytes "ipop") .socket

theorem all_or_nothing_iff_digits :
    SetupAllOrNothing Api.plain (fun _ => 0) blank digitsRequest (fun _ => true) :=
  ((all_or_nothing_iff plain_hexDecodes (fun _ => 0) blank (fun _ => true)).1 digitsRequest).1.mpr
    (.inr ⟨List.replicate 20 170, rfl, fun _ _ => rfl⟩)

/-- A uid that is no hexadecimal text is recorded, and one whose addresses the
tap refuses. -/
theorem failed_setup_recorded :
    ¬SetupAllOrNothing Api.plain (fun _ => 0) blank dashesRequest (fun _ => true) ∧
    (setup Api.plain (fun _ => 0) blank dashesRequest).1.tincanId = dashesRequest.uid ∧
    ¬SetupAllOrNothing Api.plain (fun _ => 0) blank digitsRequest (fun call => call != .setUp) ∧
    (setup Api.plain (fun _ => 0) (setup Api.plain (fun _ => 0) blank dashesRequest).1 digitsRequest).2 = [] ∧
    ¬MappingAllOrNothing Api.plain (fun _ => 0) blank dashesRequest.uid kIpv4 kIpv6 (fun _ => true) := by
  have hdashes : ∀ ok expected, ¬Succeeds dashesRequest.uid ok expected := by
    rintro ok expected ⟨id, hid, _⟩
    cases hid
  refine ⟨?_, rfl, ?_, rfl, ?_⟩
  · rw [setupAllOrNothing_iff _ plain_hexDecodes]
    rintro (hr | hs)
    · simp [setupRefused, blank, Manager.new, dashesRequest, kIdSize] at hr
    · exact hdashes _ _ hs
  · rw [setupAllOrNothing_iff _ plain_hexDecodes]
    rintro (hr | ⟨id, _, hok⟩)
    · simp [setupRefused, blank, Manager.new, digitsRequest, kIdSize] at hr
    · exact absurd (hok .setUp (by simp [setupCalls])) (by decide)
  · rw [mappingAllOrNothing_iff _ plain_hexDecodes]
    rintro (hr | ⟨_, hs⟩)
    · simp [mappingRefused, blank, Manager.new, dashesRequest, kIdSize] at hr
      obtain h | h := hr
      · exact absurd h (by decide)
      · exact absurd h (by decide)
    · exact hdashes _ _ hs

end Tincan.Registration
