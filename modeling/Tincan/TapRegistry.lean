import Tincan.Emissions
import Tincan.Registration
import Mathlib.Data.List.Nodup

namespace Tincan.TapRegistry

open Tincan.Library Tincan.Library.Text Tincan.Library.Numerals Tincan.Library.Runs
open Tincan.Libjingle Tincan.Utils Tincan.ConnectionManager Tincan.ControllerAccess
open Tincan.Registration Tincan.Process Tincan.Emissions

/-- One registration with the tap library: of the node itself, or of a peer.
The bytes are those that the uid was decoded to. -/
inductive Entry
  | self (r : SetupRequest) (id : Bytes)
  | peer (uid : Bytes) (ips : PeerIPs) (id : Bytes)

namespace Entry

def uid : Entry → Bytes
  | self r _ => r.uid
  | peer uid _ _ => uid

def id : Entry → Bytes
  | self _ id => id
  | peer _ _ id => id

def calls : Entry → List TapCall
  | self r id => setupCalls r id
  | peer _ ips id =>
    if ips.ip4 = bytes "127.0.0.1" then [.overrideBaseIpv4Addr ips.ip4, .peerlistAddByUid id]
    else mappingCalls ips.ip4 ips.ip6 id

end Entry

def owns (entries : List Entry) : List SetupRequest :=
  entries.filterMap fun
    | .self r _ => some r
    | .peer _ _ _ => none

def mappings (entries : List Entry) : List (Bytes × PeerIPs) :=
  entries.filterMap fun
    | .self _ _ => none
    | .peer uid ips _ => some (uid, ips)

def tapCalls (sent : List Effect) : List TapCall :=
  sent.filterMap fun
    | .tap call => some call
    | _ => none

/-- The tables of the manager hold the registrations, the own one and one for
each peer, and each was made with the bytes that the uid denotes. -/
structure Recorded (m : Manager) (entries : List Entry) : Prop where
  own : (m.tincanId = [] ∧ owns entries = []) ∨
    ∃ r, owns entries = [r] ∧ r.uid = m.tincanId ∧ r.ip4 = m.tincanIp4 ∧ r.ip6 = m.tincanIp6
  peers : ∀ uid ips, (uid, ips) ∈ mappings entries ↔ m.ipMap uid = some ips
  once : ((mappings entries).map Prod.fst).Nodup
  valid : ∀ entry ∈ entries, entry.uid.length = kIdSize ∧
    ∀ id, unhex entry.uid = some id → entry.id = id

section

variable {libs : Libs} {env : Env} {m m' : Manager} {c c' : Controller} {entries : List Entry}

theorem tapCalls_append (a b : List Effect) : tapCalls (a ++ b) = tapCalls a ++ tapCalls b :=
  List.filterMap_append

theorem tapCalls_map (calls : List TapCall) : tapCalls (calls.map .tap) = calls := by
  simp [tapCalls, List.filterMap_map]

theorem tapCalls_nil {sent : List Effect} (h : ∀ x ∈ sent, ∀ call, x ≠ .tap call) : tapCalls sent = [] := by
  rw [tapCalls, List.filterMap_eq_nil_iff]
  intro x hx
  cases x with
  | tap call => exact absurd rfl (h _ hx call)
  | _ => rfl

theorem owns_self (entries : List Entry) (r : SetupRequest) (id : Bytes) :
    owns (entries ++ [.self r id]) = owns entries ++ [r] := List.filterMap_append

theorem owns_peer (entries : List Entry) (uid : Bytes) (ips : PeerIPs) (id : Bytes) :
    owns (entries ++ [.peer uid ips id]) = owns entries :=
  List.filterMap_append.trans (List.append_nil _)

theorem mappings_self (entries : List Entry) (r : SetupRequest) (id : Bytes) :
    mappings (entries ++ [.self r id]) = mappings entries :=
  List.filterMap_append.trans (List.append_nil _)

theorem mappings_peer (entries : List Entry) (uid : Bytes) (ips : PeerIPs) (id : Bytes) :
    mappings (entries ++ [.peer uid ips id]) = mappings entries ++ [(uid, ips)] := List.filterMap_append

theorem Recorded.congr (h : Recorded m entries) (ht : SameTables m m') : Recorded m' entries := by
  constructor
  · rw [ht.tincanId, ht.tincanIp4, ht.tincanIp6]
    exact h.own
  · rw [ht.ipMap]
    exact h.peers
  · exact h.once
  · exact h.valid

theorem Recorded.valid_append {entry : Entry} (h : Recorded m entries) (hl : entry.uid.length = kIdSize)
    (hid : ∀ id, unhex entry.uid = some id → entry.id = id) :
    ∀ entry' ∈ entries ++ [entry], entry'.uid.length = kIdSize ∧
      ∀ id, unhex entry'.uid = some id → entry'.id = id := by
  intro entry' he
  obtain he | he := List.mem_append.mp he
  · exact h.valid entry' he
  · rw [List.mem_singleton.mp he]
    exact ⟨hl, hid⟩

theorem Recorded.owns_nil (h : Recorded m entries) (hm : m.tincanId = []) : owns entries = [] := by
  obtain ⟨_, hown⟩ | ⟨r, hown, huid, _⟩ := h.own
  · exact hown
  · have hmem : r ∈ owns entries := by simp [hown]
    obtain ⟨entry, he, hr⟩ := List.mem_filterMap.mp hmem
    have hl := (h.valid entry he).1
    cases entry with
    | self r' id =>
      cases hr
      rw [Entry.uid, huid, hm] at hl
      cases hl
    | peer uid ips id => cases hr

theorem recorded_setup (hdec : libs.jingle.HexDecodes) (h : Recorded m entries) (r : SetupRequest) :
    ∃ new, (setup libs.jingle env.memory m r).2 = new.flatMap Entry.calls ∧
      Recorded (setup libs.jingle env.memory m r).1 (entries ++ new) := by
  by_cases hr : setupRefused m r
  · rw [setup_of_refused env.memory hr]
    exact ⟨[], rfl, by rwa [List.append_nil]⟩
  obtain ⟨hnone, hlength⟩ : m.tincanId = [] ∧ r.uid.length = kIdSize := by
    simpa [setupRefused] using hr
  obtain ⟨_, hcalls⟩ := setup_of_accepted (L := libs.jingle) env.memory hr
  refine ⟨[.self r (libs.jingle.hexDecode (newBuffer env.memory kIdBytesLen) r.uid).2], ?_, ?_⟩
  · rw [hcalls]
    simp [Entry.calls]
  unfold setupRefused at hr
  rw [setup, if_neg hr]
  constructor
  · refine .inr ⟨r, ?_, rfl, rfl, rfl⟩
    rw [owns_self, h.owns_nil hnone, List.nil_append]
  · rw [mappings_self]
    exact h.peers
  · rw [mappings_self]
    exact h.once
  · exact h.valid_append hlength fun id hid => (hexDecode_uid env.memory hdec hlength hid).2

theorem recorded_addIPMapping (hdec : libs.jingle.HexDecodes) (h : Recorded m entries) (uid ip4 ip6 : Bytes) :
    ∃ new, (addIPMapping libs.jingle env.memory m uid ip4 ip6).2.2 = new.flatMap Entry.calls ∧
      Recorded (addIPMapping libs.jingle env.memory m uid ip4 ip6).1 (entries ++ new) := by
  by_cases hr : mappingRefused m uid ip4 ip6
  · rw [addIPMapping_of_refused env.memory hr]
    exact ⟨[], rfl, by rwa [List.append_nil]⟩
  obtain ⟨_, hcalls⟩ := addIPMapping_of_accepted (L := libs.jingle) env.memory hr
  obtain ⟨hlength, hnone⟩ : uid.length = kIdSize ∧ m.ipMap uid = none := by
    simp only [mappingRefused, not_or, not_not, Option.not_isSome_iff_eq_none] at hr
    exact hr.2.2
  refine ⟨[.peer uid ⟨ip4, ip6⟩ (libs.jingle.hexDecode (newBuffer env.memory kIdBytesLen) uid).2], ?_, ?_⟩
  · rw [hcalls]
    simp [Entry.calls]
  unfold mappingRefused at hr
  rw [addIPMapping, if_neg hr]
  constructor
  · rw [owns_peer]
    exact h.own
  · intro uid' ips
    dsimp only
    rw [mappings_peer, List.mem_append, List.mem_singleton, Prod.mk.injEq, h.peers,
      PartialMap.insert_eq_some]
    constructor
    · rintro (hold | ⟨rfl, rfl⟩)
      · refine .inr ⟨?_, hold⟩
        rintro rfl
        rw [hnone] at hold
        cases hold
      · exact .inl ⟨rfl, rfl⟩
    · rintro (⟨rfl, rfl⟩ | ⟨_, hold⟩)
      · exact .inr ⟨rfl, rfl⟩
      · exact .inl hold
  · rw [mappings_peer, List.map_append, List.map_singleton]
    refine h.once.append (List.nodup_singleton _) ?_
    intro key hkey huid
    obtain ⟨⟨key', ips⟩, hmem, rfl⟩ := List.mem_map.mp hkey
    have hkey : key' = uid := List.mem_singleton.mp huid
    rw [h.peers, hkey, hnone] at hmem
    cases hmem
  · exact h.valid_append hlength fun id hid => (hexDecode_uid env.memory hdec hlength hid).2

theorem recorded_handled {addr : SocketAddress} {output : List Effect} (hdec : libs.jingle.HexDecodes)
    (h : Recorded c.manager entries) (hh : Handled libs env c addr c' output) :
    ∃ new, tapCalls output = new.flatMap Entry.calls ∧ Recorded c'.manager (entries ++ new) := by
  cases hh with
  | answered hx =>
    refine ⟨[], tapCalls_nil fun x hmem call => ?_, by rwa [List.append_nil]⟩
    obtain ⟨_, _, _, rfl⟩ | ⟨_, _, rfl⟩ := hx x hmem <;> simp
  | silent ht => exact ⟨[], rfl, by rw [List.append_nil]; exact h.congr ht⟩
  | setup r =>
    rw [tapCalls_map]
    exact recorded_setup hdec h r
  | addIPMapping uid ip4 ip6 =>
    rw [tapCalls_map]
    exact recorded_addIPMapping hdec h uid ip4 ip6

theorem recorded_handlePacket {d : Datagram} {o : ControllerAccess.Outcome} (hdec : libs.jingle.HexDecodes)
    (h : Recorded c.manager entries) (ho : ControllerAccess.handlePacket libs env c d = some o) :
    ∃ new, tapCalls o.output = new.flatMap Entry.calls ∧ Recorded o.state.manager (entries ++ new) := by
  obtain ⟨_, hstate, hout, _⟩ | ⟨_, hstate, hout, _⟩ | ⟨rpcCalls, output, more, hh, hout, hmore, _⟩ :=
    handlePacket_cases ho
  · rw [hstate, hout]
    exact ⟨[], rfl, by rwa [List.append_nil]⟩
  · rw [hstate, hout]
    exact ⟨[], rfl, by rwa [List.append_nil]⟩
  · have hc : Recorded ({ c with rpcCalls := rpcCalls } : Controller).manager entries := h
    obtain ⟨new, hcalls, hrec⟩ := recorded_handled hdec hc hh
    refine ⟨new, ?_, hrec⟩
    have hnil : tapCalls more = [] := by
      refine tapCalls_nil fun x hx call => ?_
      obtain ⟨_, _, _, rfl⟩ := hmore x hx
      simp
    rw [hout, tapCalls_append, hnil, List.append_nil, hcalls]

theorem sameTables_of_step {e : Event} {s t : State} (hst : step libs s e = some t)
    (he : ∀ env d, e ≠ .datagram env d) : SameTables s.controller.manager t.controller.manager := by
  obtain ⟨taken, msgs, hc⟩ := controllerStep_of_step hst
  generalize t.controller = c' at hc
  cases hc with
  | datagram => exact absurd rfl (he _ _)
  | candidatesReady x candidates =>
    obtain ⟨_, hm⟩ | ⟨_, _, _, hm⟩ :=
      LinkChanges.onCandidatesReady_cases libs.jingle s.controller.manager x candidates <;>
      rw [hm] <;> exact ⟨rfl, rfl, rfl, rfl⟩
  | candidatesAllocationDone env x =>
    rw [LinkChanges.onCandidatesAllocationDone_manager]
    exact ⟨rfl, rfl, rfl, rfl⟩
  | rwChangeState env x =>
    obtain hm | ⟨hm, _⟩ := LinkChanges.onRWChangeState_cases s.controller.manager x <;>
      rw [hm] <;> exact ⟨rfl, rfl, rfl, rfl⟩
  | linkStatus => exact ⟨rfl, rfl, rfl, rfl⟩
  | queueSignal hq =>
    obtain ⟨_, _, _, rfl⟩ := handleQueueSignal_eq_some hq
    exact .refl _
  | readPacket hr =>
    rw [PacketPath.onReadPacket_manager _ hr]
    exact .refl _
  | tapRecv hr =>
    obtain ⟨_, _, _, rfl, _⟩ := doPacketRecv_eq_some hr
    exact .refl _
  | same | stateChange | timer | stanza | processStart | tapSend => exact .refl _

theorem recorded_step {e : Event} {s t : State} (hdec : libs.jingle.HexDecodes)
    (h : Recorded s.controller.manager entries) (hst : step libs s e = some t) :
    ∃ new, tapCalls t.sent = tapCalls s.sent ++ new.flatMap Entry.calls ∧
      Recorded t.controller.manager (entries ++ new) := by
  by_cases he : ∀ env d, e ≠ .datagram env d
  · obtain ⟨new, hnew, hemits⟩ := emits_of_step hst
    have hnil : tapCalls new = [] := by
      refine tapCalls_nil fun x hx call => ?_
      cases hemits x hx with
      | reply | tap => exact absurd rfl (he _ _)
      | notice h =>
        obtain ⟨_, _, _, rfl⟩ := h
        simp
      | stanza | handled => simp
    refine ⟨[], ?_, ?_⟩
    · rw [hnew, tapCalls_append, hnil]
      rfl
    · rw [List.append_nil]
      exact h.congr (sameTables_of_step hst he)
  · simp only [ne_eq, not_forall, not_not] at he
    obtain ⟨env, d, rfl⟩ := he
    simp only [step, running_of_step hst, Bool.false_eq_true, ↓reduceIte] at hst
    split at hst
    · cases hst
      exact ⟨[], by simp, by rwa [List.append_nil]⟩
    · next o ho =>
      cases hst
      obtain ⟨new, hcalls, hrec⟩ := recorded_handlePacket hdec h ho
      exact ⟨new, by rw [tapCalls_append, hcalls], hrec⟩

theorem recorded_initial {s : State} (h : Initial s) :
    tapCalls s.sent = [] ∧ Recorded s.controller.manager [] := by
  obtain ⟨_, _, _, _, _, _, _, rfl⟩ := h
  refine ⟨rfl, .inl ⟨rfl, rfl⟩, ?_, List.nodup_nil, by simp⟩
  intro uid ips
  refine iff_of_false List.not_mem_nil fun hips => ?_
  cases hips

/-- In every run the calls into the tap library are, one after the other and
never mixed, whole registrations: at most one of the node itself, which set its
identifier and addresses, and for each entry of the table of mappings one, with
its addresses. Nothing is registered twice or left out, and nothing is taken
back, whatever becomes of the links. -/
theorem tap_holds_the_tables (hdec : libs.jingle.HexDecodes) {s : State}
    (h : Reachable (Steps (step libs)) Initial s) :
    ∃ entries, tapCalls s.sent = entries.flatMap Entry.calls ∧ Recorded s.controller.manager entries := by
  refine reachable_invariant (P := fun s => ∃ entries,
    tapCalls s.sent = entries.flatMap Entry.calls ∧ Recorded s.controller.manager entries) ?_ ?_ h
  · intro s hs
    obtain ⟨hnil, hrec⟩ := recorded_initial hs
    exact ⟨[], hnil, hrec⟩
  · rintro s e t ⟨entries, hcalls, hrec⟩ hst
    obtain ⟨new, hnew, hrec⟩ := recorded_step hdec hrec hst
    exact ⟨entries ++ new, by rw [hnew, hcalls, List.flatMap_append], hrec⟩

end

def mappingText : Bytes := bytes "\x7b\"m\":\"set_remote_ip\"\x7d"

def mappingLibs : Libs := sampleLibs [(mappingText, .object [(bytes "m", .string (bytes "set_remote_ip")),
  (bytes "uid", .string (List.replicate 40 97)), (bytes "ip4", .string kIpv4), (bytes "ip6", .string kIpv6)])]

def mappingEvents : List Event :=
  List.replicate 2 (.datagram sampleEnv (datagramOf (kIpopVer :: kTincanControl :: mappingText)))

theorem tap_holds_the_tables_mapped : ∃ s, replay (step mappingLibs) startState mappingEvents = some s ∧
    tapCalls s.sent = mappingCalls kIpv4 kIpv6 (List.replicate 20 170) ∧
    ∃ entries, tapCalls s.sent = entries.flatMap Entry.calls ∧ Recorded s.controller.manager entries := by
  have hrun : ∃ s, replay (step mappingLibs) startState mappingEvents = some s ∧
      tapCalls s.sent = mappingCalls kIpv4 kIpv6 (List.replicate 20 170) := ⟨_, rfl, rfl⟩
  obtain ⟨s, hs, hcalls⟩ := hrun
  exact ⟨s, hs, hcalls, tap_holds_the_tables plain_hexDecodes
    ⟨_, _, startState_initial, run_of_replay hs⟩⟩

end Tincan.TapRegistry
