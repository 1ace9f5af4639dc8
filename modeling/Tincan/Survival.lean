import Tincan.LinkHeap
import Tincan.RepeatedRequests
import Tincan.PeerStanzas
import Tincan.Services
import Tincan.StateQueries

namespace Tincan.Survival

open Tincan.Library Tincan.Library.Text Tincan.Library.Runs Tincan.Libjingle Tincan.Utils
open Tincan.ConnectionManager Tincan.StateReport Tincan.XmppNetwork Tincan.ControllerAccess
open Tincan.Process Tincan.LinkChanges Tincan.LinkHeap

inductive Kind
  | string
  | int
  | bool

def fields : RpcCall → List (String × Kind)
  | .registerSvc => [("username", .string), ("password", .string), ("host", .string)]
  | .createLink => [("overlay_id", .int), ("uid", .string), ("fpr", .string), ("stun", .string),
      ("turn", .string), ("turn_user", .string), ("turn_pass", .string), ("cas", .string), ("sec", .bool)]
  | .setLocalIp => [("uid", .string), ("ip4", .string), ("ip6", .string), ("ip4_mask", .int),
      ("ip6_mask", .int), ("subnet_mask", .int), ("switchmode", .int)]
  | .setRemoteIp => [("uid", .string), ("ip4", .string), ("ip6", .string)]
  | .trimLink => [("uid", .string)]
  | .setCbEndpoint => [("ip", .string), ("port", .int)]
  | .getState => [("uid", .string), ("stats", .bool)]
  | .setLogging => [("logging", .int)]
  | .setTranslation => [("translate", .int)]
  | .setSwitchmode => [("switchmode", .int)]
  | .setTrimpolicy => [("trim_enabled", .bool)]
  | .echoRequest => [("msg", .string)]
  | .echoReply => []
  | .setNetworkIgnoreList => []
  | .unknown => [("overlay_id", .int), ("uid", .string), ("data", .string)]

def Readable (libs : Libs) (root : Json.Value) : String × Kind → Prop
  | (name, .string) => (libs.json.string root (bytes name)).isSome
  | (name, .int) => (libs.json.int root (bytes name)).isSome
  | (name, .bool) => (libs.json.bool root (bytes name)).isSome

/-- A link whose statistics can be had: it is not online, or has its channel still. -/
def Countable (m : Manager) (uid : Bytes) : Prop :=
  ∀ p tr, m.uidMap uid = some (some p) → m.transports p.transport = some tr →
    tr.readable = true → tr.writable = true → tr.channel.isSome

/-- What a handler relies on besides its plain fields. -/
def Rest (libs : Libs) (s : Controller) (root : Json.Value) : RpcCall → Prop
  | .registerSvc => (requestedPort libs root).isSome
  | .setNetworkIgnoreList => ∃ list, libs.json.index root (bytes "network_ignore_list") = some list ∧
      (libs.json.isArray list = true →
        ∀ i < libs.json.size list, ((libs.json.item list i).bind libs.json.asString).isSome)
  | .getState => libs.json.bool root (bytes "stats") = some true →
      ∀ uid, libs.json.string root (bytes "uid") = some uid →
        ∀ u, (if uid ≠ [] then u = uid else u ∈ s.network.presenceTime) → Countable s.manager u
  | _ => True

/-- The datagrams whose handler comes to its end. -/
def Answerable (libs : Libs) (s : Controller) (d : Datagram) : Prop :=
  if d.buffer 1 = kTincanPacket ∨ d.buffer 1 = kICCControl ∨ d.buffer 1 = kICCPacket then
    kTincanHeaderSize ≤ d.len
  else d.buffer 0 ≠ 0 ∧ d.buffer 1 ≠ 0 ∧ ∃ method call root,
    requestOf libs s d = some (method, call, root) ∧
      (∀ f ∈ fields call, Readable libs root f) ∧ Rest libs s root call

def linkOf (m : Manager) (t : Ptr) : Option PeerState := (m.uidMap (knownAs m t)).join

/-- The events that the process does not survive. -/
def Fatal (libs : Libs) (s : State) : Event → Prop
  | .datagram _ d => ¬ Answerable libs s.controller d
  | .candidatesReady t _ => linkOf s.controller.manager t = none
  | .candidatesAllocationDone _ t =>
    ∀ p, linkOf s.controller.manager t = some p → ¬ Services.Registered p.overlayId
  | .rwChangeState _ t => ∀ tr, s.controller.manager.transports t = some tr →
      tr.readable = true ∧ tr.writable = true ∧ linkOf s.controller.manager t = none
  | .processStart _ => ∃ stanza q, s.controller.network.nextAccepted libs.xmpp = some stanza ∧
      stanza.query = some q ∧ q.data.isSome ∧ q.type = none
  | _ => False

section

variable {libs : Libs} {env : Env} {s : Controller} {root : Json.Value}

theorem payload_isSome_iff (d : Datagram) : d.payload.isSome ↔ kTincanHeaderSize ≤ d.len := by
  have hlt := d.len_lt
  unfold Datagram.payload kTincanHeaderSize
  dsimp only
  split
  · exact iff_of_true rfl (by omega)
  · exact iff_of_false Bool.false_ne_true (by omega)

theorem message_isSome_iff (d : Datagram) : d.message.isSome ↔ d.buffer 0 ≠ 0 ∧ d.buffer 1 ≠ 0 := by
  have hwindow : (List.range (d.len + 2)).map d.buffer =
      d.buffer 0 :: d.buffer 1 :: (List.range d.len).map (fun i => d.buffer (i + 2)) := by
    rw [List.range_succ_eq_map, List.map_cons, List.map_map, List.range_succ_eq_map, List.map_cons,
      List.map_map]
    rfl
  rw [Datagram.message, hwindow]
  by_cases h₀ : d.buffer 0 = 0
  · simp [cutAt, h₀]
  · by_cases h₁ : d.buffer 1 = 0 <;> simp [cutAt, h₀, h₁]

theorem mapM_isSome_iff {α β : Type} {f : α → Option β} {l : List α} :
    (l.mapM f).isSome ↔ ∀ a ∈ l, (f a).isSome := by
  induction l with
  | nil => simp
  | cons a l ih =>
    rw [List.forall_mem_cons, ← ih]
    cases hf : f a <;> cases hl : l.mapM f <;> simp [hf, hl]

theorem stateToJson_isSome_iff {m : Manager} (hl : Live m) (uid : Bytes) (x : Fin (2 ^ 32))
    (getStats : Bool) : (stateToJson env.stats env.fresh.now m uid x getStats).isSome ↔
      (getStats = true → Countable m uid) := by
  unfold stateToJson Countable
  dsimp only
  split
  · next hu => simp [hu]
  · next hu =>
    obtain ⟨p, hp, _⟩ := hl.owned uid none hu
    cases hp
  · next p hp =>
    obtain ⟨tr, htr⟩ := Option.isSome_iff_exists.mp (hl.transport hp)
    rw [htr]
    dsimp only
    have hcount : (∀ p' tr', m.uidMap uid = some (some p') → m.transports p'.transport = some tr' →
        tr'.readable = true → tr'.writable = true → tr'.channel.isSome) ↔
        (tr.readable = true → tr.writable = true → tr.channel.isSome) := by
      constructor
      · intro h
        exact h p tr hp htr
      · intro h p' tr' hp' htr'
        rw [hp] at hp'
        cases hp'
        rw [htr] at htr'
        cases htr'
        exact h
    rw [hcount]
    split
    · next ho =>
      split
      · next hs => simp [hs, ho.1, ho.2]
      · next hs => simp [hs]
    · next ho =>
      refine iff_of_true rfl fun _ hr hw => absurd ⟨hr, hw⟩ ho

theorem sendState_isSome_iff (hl : Live s.manager) (uid : Bytes) (getStats : Bool) (addr : SocketAddress) :
    (sendState libs env s uid getStats addr).isSome ↔ (getStats = true →
      ∀ u, (if uid ≠ [] then u = uid else u ∈ s.network.presenceTime) → Countable s.manager u) := by
  unfold sendState getState
  dsimp only
  rw [Option.isSome_map, mapM_isSome_iff]
  by_cases hu : uid = []
  · simp only [hu, ne_eq, not_true_eq_false, ↓reduceIte]
    constructor
    · intro h hs u hmem
      obtain ⟨t, ht⟩ := Finmap.mem_iff.mp hmem
      exact (stateToJson_isSome_iff hl u t getStats).mp (h _ (StateQueries.mem_friends.mpr ht)) hs
    · rintro h ⟨u, t⟩ hut
      have hmem := Finmap.mem_of_lookup_eq_some (StateQueries.mem_friends.mp hut)
      exact (stateToJson_isSome_iff hl u t getStats).mpr fun hs => h hs u hmem
  · simp only [hu, ne_eq, not_false_eq_true, ↓reduceIte, List.forall_mem_singleton, forall_eq]
    exact stateToJson_isSome_iff hl uid _ getStats

theorem ignoreList_isSome_iff : (setNetworkIgnoreList libs s root).isSome ↔
    Rest libs s root .setNetworkIgnoreList := by
  unfold setNetworkIgnoreList Rest
  cases hlist : libs.json.index root (bytes "network_ignore_list") with
  | none => simp
  | some list =>
    by_cases ha : libs.json.isArray list = true
    · have hm := mapM_isSome_iff (f := fun i => (libs.json.item list i).bind libs.json.asString)
        (l := List.range (libs.json.size list))
      simp only [List.mem_range] at hm
      simp only [Option.bind_eq_bind, Option.bind_some, ha, ↓reduceIte, Option.some.injEq, forall_const,
        exists_eq_left', ← hm]
      cases List.mapM (fun i => (libs.json.item list i).bind libs.json.asString)
        (List.range (libs.json.size list)) <;> simp
    · simp [ha]

theorem isSome_bind_of {α β : Type} {x : Option α} {f : α → Option β} {b : Bool}
    (h : ∀ a, (f a).isSome = b) : (x.bind f).isSome = (x.isSome && b) := by
  cases x with
  | none => rfl
  | some a => simpa using h a

theorem createLinkRequest_isSome_iff :
    (createLinkRequest libs root).isSome ↔ ∀ f ∈ fields .createLink, Readable libs root f := by
  have hread := isSome_bind_of (x := libs.json.int root (bytes "overlay_id"))
    fun overlayId => isSome_bind_of (x := libs.json.string root (bytes "uid"))
    fun uid => isSome_bind_of (x := libs.json.string root (bytes "fpr"))
    fun fpr => isSome_bind_of (x := libs.json.string root (bytes "stun"))
    fun stun => isSome_bind_of (x := libs.json.string root (bytes "turn"))
    fun turn => isSome_bind_of (x := libs.json.string root (bytes "turn_user"))
    fun turnUser => isSome_bind_of (x := libs.json.string root (bytes "turn_pass"))
    fun turnPass => isSome_bind_of (x := libs.json.string root (bytes "cas"))
    fun cas => isSome_bind_of (x := libs.json.bool root (bytes "sec"))
    fun sec => (rfl : (some ((⟨uid, fpr, overlayId, stun, turn, turnUser, turnPass, sec⟩ :
      CreateRequest), cas)).isSome = true)
  unfold createLinkRequest
  simp only [Option.bind_eq_bind, hread, fields, Readable, List.forall_mem_cons, Bool.and_eq_true,
    List.not_mem_nil, false_implies, implies_true]

theorem createLink_isSome_iff (hl : Live s.manager)
    (hnew : ∀ r cas, createLinkRequest libs root = some (r, cas) → r.refused s.manager = false →
      LinkThreads.Available s.manager env.fresh) :
    (createLink libs env s root).isSome ↔ ∀ f ∈ fields .createLink, Readable libs root f := by
  rw [← createLinkRequest_isSome_iff, createLink]
  cases hr : createLinkRequest libs root with
  | none => simp
  | some request =>
    obtain ⟨r, cas⟩ := request
    have hlive : Live (createTransport libs.jingle s.manager r env.fresh).1 := hl.create (hnew r cas hr)
    obtain ⟨m', hm⟩ : ∃ m', giveCandidates libs _ r.uid cas = some m' :=
      RepeatedRequests.giveCandidates_defined hlive r.uid cas
    simp [hm]

theorem trimLink_isSome_iff (hl : Live s.manager) :
    (trimLink libs s root).isSome ↔ ∀ f ∈ fields .trimLink, Readable libs root f := by
  unfold trimLink
  cases hu : libs.json.string root (bytes "uid") with
  | none => simp [fields, Readable, hu]
  | some uid =>
    obtain ⟨m', done, log, hd⟩ := RepeatedRequests.destroyTransport_defined hl uid
    simp [fields, Readable, hu, hd]

theorem getStateCall_isSome_iff (hl : Live s.manager) (addr : SocketAddress) :
    (getStateCall libs env s root addr).isSome ↔
      (∀ f ∈ fields .getState, Readable libs root f) ∧ Rest libs s root .getState := by
  unfold getStateCall Rest
  cases hu : libs.json.string root (bytes "uid") with
  | none => simp [fields, Readable, hu]
  | some uid =>
    cases hg : libs.json.bool root (bytes "stats") with
    | none => simp [fields, Readable, hg]
    | some getStats =>
      have hsend : (sendState libs env s uid getStats addr).isSome ↔ _ :=
        sendState_isSome_iff hl uid getStats addr
      simp only [Option.bind_eq_bind, Option.bind_some, fields, Readable, List.forall_mem_cons, hu, hg,
        Option.isSome_some, List.not_mem_nil, false_implies, implies_true, and_self, true_and,
        Option.some.injEq, forall_eq', ← hsend]
      cases sendState libs env s uid getStats addr <;> simp

theorem dispatch_isSome_iff (hl : Live s.manager) (method : Bytes) (addr : SocketAddress) (call : RpcCall)
    (hnew : call = .createLink → ∀ r cas, createLinkRequest libs root = some (r, cas) →
      r.refused s.manager = false → LinkThreads.Available s.manager env.fresh) :
    (dispatch libs env s root method addr call).isSome ↔
      (∀ f ∈ fields call, Readable libs root f) ∧ Rest libs s root call := by
  cases call with
  | registerSvc =>
    simp [dispatch, registerSvc, fields, Readable, Rest, Option.isSome_iff_exists, Option.bind_eq_some_iff,
      and_assoc]
  | createLink => exact (createLink_isSome_iff hl (hnew rfl)).trans (and_iff_left trivial).symm
  | trimLink => exact (trimLink_isSome_iff hl).trans (and_iff_left trivial).symm
  | getState => exact getStateCall_isSome_iff hl addr
  | setNetworkIgnoreList => exact ignoreList_isSome_iff.trans (and_iff_right (by simp [fields])).symm
  | setLocalIp =>
    simp [dispatch, setLocalIp, fields, Readable, Rest, Option.isSome_iff_exists, Option.bind_eq_some_iff]
  | setRemoteIp =>
    simp [dispatch, setRemoteIp, fields, Readable, Rest, Option.isSome_iff_exists, Option.bind_eq_some_iff]
  | setCbEndpoint =>
    simp [dispatch, setCbEndpoint, fields, Readable, Rest, Option.isSome_iff_exists, Option.bind_eq_some_iff]
  | setLogging =>
    simp [dispatch, setLogging, fields, Readable, Rest, Option.isSome_iff_exists, Option.bind_eq_some_iff]
  | setTranslation =>
    simp [dispatch, setTranslation, fields, Readable, Rest, Option.isSome_iff_exists, Option.bind_eq_some_iff]
  | setSwitchmode =>
    simp [dispatch, setSwitchmode, fields, Readable, Rest, Option.isSome_iff_exists, Option.bind_eq_some_iff]
  | setTrimpolicy =>
    cases ht : libs.json.bool root (bytes "trim_enabled") <;>
      simp [dispatch, setTrimpolicy, fields, Readable, Rest, ht]
  | echoRequest =>
    simp [dispatch, echoRequest, fields, Readable, Rest, Option.isSome_iff_exists, Option.bind_eq_some_iff]
  | echoReply => simp [dispatch, fields, Rest]
  | unknown =>
    simp [dispatch, relay, fields, Readable, Rest, Option.isSome_iff_exists, Option.bind_eq_some_iff]

theorem rest_rpcCalls (rpcCalls : PartialMap Bytes RpcCall) (call : RpcCall) :
    Rest libs { s with rpcCalls := rpcCalls } root call ↔ Rest libs s root call := by
  cases call <;> exact Iff.rfl

theorem handlePacket_of_unread {d : Datagram}
    (hbranch : ¬ (d.buffer 1 = kTincanPacket ∨ d.buffer 1 = kICCControl ∨ d.buffer 1 = kICCPacket))
    (h : requestOf libs s d = none) : handlePacket libs env s d = none := by
  rw [requestOf, if_neg hbranch] at h
  unfold handlePacket handleRequest
  rw [if_neg (fun hb => hbranch (.inl hb)), if_neg (fun hb => hbranch (.inr hb))]
  cases hm : d.message with
  | none => rfl
  | some message =>
    rw [hm, Option.bind_eq_bind, Option.bind_some] at h
    rw [Option.bind_eq_bind, Option.bind_some]
    generalize libs.json.parse message = parsed at h ⊢
    obtain ⟨accepted, root⟩ := parsed
    cases hmethod : libs.json.string root (bytes "m") with
    | none => simp [hmethod]
    | some method => simp [hmethod] at h

theorem handlePacket_isSome_iff {d : Datagram} (hl : Live s.manager)
    (hnew : ∀ r, linkRequest libs s d = some r → r.refused s.manager = false →
      LinkThreads.Available s.manager env.fresh) :
    (handlePacket libs env s d).isSome ↔ Answerable libs s d := by
  unfold Answerable
  split
  · next hbranch =>
    rw [← payload_isSome_iff]
    unfold handlePacket
    dsimp only
    obtain hb | hb | hb := hbranch
    · rw [if_pos hb, Option.isSome_map]
    · rw [if_neg (by rw [hb]; decide), if_pos (.inl hb), Option.isSome_map]
    · rw [if_neg (by rw [hb]; decide), if_pos (.inr hb), Option.isSome_map]
  · next hbranch =>
    cases hreq : requestOf libs s d with
    | none => simp [handlePacket_of_unread hbranch hreq]
    | some request =>
      obtain ⟨method, call, root⟩ := request
      have hmessage : d.message.isSome := by
        rw [requestOf, if_neg hbranch] at hreq
        cases hm : d.message with
        | none => simp [hm] at hreq
        | some _ => rfl
      have hnew' : call = .createLink → ∀ r cas, createLinkRequest libs root = some (r, cas) →
          r.refused s.manager = false → LinkThreads.Available s.manager env.fresh := by
        rintro rfl r cas hr
        exact hnew r (linkRequest_of_request hreq hr)
      have hl' : Live ({ s with rpcCalls := (s.rpcCalls.index method .unknown).2 } : Controller).manager := hl
      have hd : (dispatch libs env { s with rpcCalls := (s.rpcCalls.index method .unknown).2 } root method
          d.addr call).isSome ↔ _ := dispatch_isSome_iff hl' method d.addr call hnew'
      rw [rest_rpcCalls] at hd
      rw [← Option.isSome_map (f := Outcome.state), handlePacket_request env hreq, Option.isSome_map, hd]
      obtain ⟨h₀, h₁⟩ := (message_isSome_iff d).mp hmessage
      simp [h₀, h₁]

end

section

variable {libs : Libs} {env : Env} {s t : State}

theorem signal_crashed (hs : s.services = mainServices) (msg : PeerMessage) :
    (signal libs env s msg).crashed = true ↔ s.crashed = true ∨ ¬ Services.Registered msg.overlayId := by
  rw [← Services.mainServices_eq]
  simp only [signal, hs]
  cases hm : mainServices msg.overlayId with
  | none => simp [PartialMap.index, hm]
  | some service =>
    rw [PartialMap.index_of_mem none hm]
    cases service with
    | none => simp
    | some service => cases service <;> simp

theorem signal_services {msg : PeerMessage} (h : (signal libs env s msg).crashed = false) :
    (signal libs env s msg).services = s.services ∧ s.crashed = false := by
  unfold signal at h ⊢
  cases hm : s.services msg.overlayId with
  | none => simp [PartialMap.index, hm] at h
  | some service =>
    rw [PartialMap.index_of_mem none hm] at h ⊢
    cases service with
    | none => simp at h
    | some service => cases service <;> exact ⟨rfl, h⟩

theorem signals_services {msgs : List PeerMessage}
    (h : (msgs.foldl (signal libs env) s).crashed = false) :
    (msgs.foldl (signal libs env) s).services = s.services ∧ s.crashed = false := by
  induction msgs generalizing s with
  | nil => exact ⟨rfl, h⟩
  | cons msg msgs ih =>
    obtain ⟨hs, hc⟩ := ih h
    obtain ⟨hs', hc'⟩ := signal_services hc
    exact ⟨hs.trans hs', hc'⟩

theorem services_of_reachable (h : Reachable (Steps (step libs)) Initial s) (hrun : s.crashed = false) :
    s.services = mainServices := by
  refine reachable_invariant (P := fun s : State => s.crashed = false → s.services = mainServices)
    ?_ ?_ h hrun
  · rintro s ⟨_, _, _, _, _, _, _, rfl⟩ _
    rfl
  · intro s e t hs hst ht
    obtain ⟨env, c, taken, sent, msgs, fault, _, rfl⟩ := step_cases hst
    simp only [conclude, Bool.or_eq_false_iff] at ht
    rw [conclude, (signals_services ht.1).1]
    exact hs (running_of_step hst)

theorem pending_controller {c c' : Controller} {e : Event} {taken : List Xmpp.Stanza}
    {msgs : List PeerMessage} (h : c.pending = c.sendQueue.length)
    (hstep : ControllerStep libs c e c' taken msgs) : c'.pending = c'.sendQueue.length := by
  cases hstep with
  | datagram hd =>
    have hu := update_handlePacket hd
    generalize ControllerAccess.Outcome.state _ = c' at hu
    cases hu with
    | toSend packet => simp [doPacketSend, PacketPath.WQueue.add, h]
    | _ => exact h
  | queueSignal hq =>
    obtain ⟨packet, queue, hqueue, rfl⟩ := handleQueueSignal_eq_some hq
    simp [h, hqueue]
  | tapSend data => simp [doPacketSend, PacketPath.WQueue.add, h]
  | tapRecv hr =>
    obtain ⟨_, _, _, rfl, _⟩ := doPacketRecv_eq_some hr
    exact h
  | _ => exact h

theorem pending_of_reachable (h : Reachable (Steps (step libs)) Initial s) :
    s.controller.pending = s.controller.sendQueue.length := by
  refine reachable_invariant (P := fun s : State => s.controller.pending = s.controller.sendQueue.length)
    ?_ ?_ h
  · rintro s ⟨_, _, _, _, _, _, _, rfl⟩
    rfl
  · intro s e t hs hst
    obtain ⟨taken, msgs, hc⟩ := controllerStep_of_step hst
    exact pending_controller hs hc

theorem linkOf_eq_index (m : Manager) (t : Ptr) : (m.uidMap.index (knownAs m t) none).1 = linkOf m t := by
  unfold linkOf
  cases hu : m.uidMap (knownAs m t) with
  | none => simp [PartialMap.index, hu]
  | some p => rw [PartialMap.index_of_mem none hu]; rfl

theorem candidatesReady_fault (L : Api) (m : Manager) (t : Ptr) (candidates : List Candidate) :
    (onCandidatesReady L m t candidates).fault = (linkOf m t).isNone := by
  have hl := linkOf_eq_index m t
  unfold knownAs at hl
  unfold onCandidatesReady
  dsimp only
  rw [hl]
  cases linkOf m t <;> rfl

theorem allocationDone_outcome (m : Manager) (t : Ptr) :
    (linkOf m t = none ∧ (onCandidatesAllocationDone m t).fault = true) ∨
      ∃ p msg, linkOf m t = some p ∧ msg.overlayId = p.overlayId ∧
        (onCandidatesAllocationDone m t).sent = [msg] ∧
        (onCandidatesAllocationDone m t).fault = false := by
  obtain ⟨uid, transportMap, hindex, hself⟩ : ∃ uid transportMap,
      m.transportMap.index t [] = (uid, transportMap) ∧ transportMap t = some uid := by
    cases ht : m.transportMap t with
    | none => exact ⟨[], m.transportMap.insert t [], by simp [PartialMap.index, ht], by simp⟩
    | some uid => exact ⟨uid, m.transportMap, PartialMap.index_of_mem [] ht, ht⟩
  have hl := linkOf_eq_index m t
  unfold knownAs at hl
  unfold onCandidatesAllocationDone
  simp only [hindex] at hl ⊢
  rw [hl]
  cases linkOf m t with
  | none => exact .inl ⟨rfl, rfl⟩
  | some p =>
    dsimp only
    split
    · exact .inr ⟨p, _, rfl, rfl, rfl, rfl⟩
    · next hnone =>
      rw [hself] at hnone
      cases hnone

theorem rwChange_outcome (m : Manager) (t : Ptr) :
    (m.transports t = none ∧ (onRWChangeState m t).sent = [] ∧ (onRWChangeState m t).fault = true) ∨
      ∃ tr, m.transports t = some tr ∧
        ((onRWChangeState m t).fault = true ↔
          tr.readable = true ∧ tr.writable = true ∧ linkOf m t = none) := by
  have hl := linkOf_eq_index m t
  unfold knownAs at hl
  unfold onRWChangeState
  dsimp only
  split
  · next htr => exact .inl ⟨htr, rfl, rfl⟩
  · next tr htr =>
    refine .inr ⟨tr, htr, ?_⟩
    by_cases ho : tr.readable = true ∧ tr.writable = true
    · rw [if_pos ho, if_pos rfl]
      dsimp only
      rw [hl, Option.isNone_iff_eq_none]
      exact ⟨fun hn => ⟨ho.1, ho.2, hn⟩, fun h => h.2.2⟩
    · have hstatus : ¬ (if tr.wasWritable = true then bytes "offline" else bytes "unknown") =
          bytes "online" := by
        split <;> decide
      rw [if_neg ho, if_neg hstatus]
      exact iff_of_false Bool.false_ne_true fun h => ho ⟨h.1, h.2.1⟩

theorem processStart_eq_none_iff {X : Xmpp.Api} {n : Network} (now : Fin (2 ^ 32)) :
    n.processStart X now = none ↔ ∃ stanza q, n.nextAccepted X = some stanza ∧ stanza.query = some q ∧
      q.data.isSome ∧ q.type = none := by
  cases ht : n.tincanTask with
  | none => simp [Network.processStart, Network.nextAccepted, ht]
  | some task =>
    obtain ⟨number, _ | ⟨stanza, stanzas⟩⟩ := task
    · simp [Network.processStart, Network.nextAccepted, ht]
    · have hfirst : n.processStart X now = none ↔ processStanza X n.me n.gUidMap stanza = none := by
        rw [← Option.map_eq_none_iff (f := Prod.snd), PeerStanzas.processStart_first now ht,
          Option.map_eq_none_iff]
      rw [hfirst]
      simp only [Network.nextAccepted, ht]
      by_cases ha : accepts X n.me stanza = true
      · rw [if_pos ha]
        cases hq : stanza.query with
        | none =>
          have hplain := PeerStanzas.processStanza_isSome n.gUidMap fun _ : accepts X n.me stanza = true => hq
          refine iff_of_false (Option.isSome_iff_ne_none.mp hplain) ?_
          simp [hq]
        | some q =>
          rw [PeerStanzas.processStanza_query n.gUidMap ha hq]
          simp [hq]
      · rw [if_neg ha]
        have hplain := PeerStanzas.processStanza_isSome n.gUidMap
          fun h : accepts X n.me stanza = true => absurd h ha
        refine iff_of_false (Option.isSome_iff_ne_none.mp hplain) ?_
        simp

theorem signals_crashed {msgs : List PeerMessage} (hs : s.services = mainServices)
    (h : ∀ msg ∈ msgs, Services.Registered msg.overlayId) :
    (msgs.foldl (signal libs env) s).crashed = s.crashed := by
  induction msgs generalizing s with
  | nil => rfl
  | cons msg msgs ih =>
    have hmsg := h msg (by simp)
    have hcrashed : (signal libs env s msg).crashed = s.crashed := by
      rw [Bool.eq_iff_iff, signal_crashed hs]
      exact or_iff_left (not_not_intro hmsg)
    have hservices : (signal libs env s msg).services = mainServices := by
      obtain ⟨service, hservice⟩ := (Services.mainServices_eq msg.overlayId).mpr hmsg
      rw [← hs] at hservice ⊢
      unfold signal
      rw [PartialMap.index_of_mem none hservice]
      cases service <;> rfl
    rw [List.foldl_cons, ih hservices fun m hm => h m (by simp [hm]), hcrashed]

theorem crashed_iff_fatal {e : Event} (hl : Tidy s.controller.manager) (hs : s.services = mainServices)
    (hrun : s.crashed = false) (hnew : NewObjects libs s e) (hst : step libs s e = some t) :
    t.crashed = true ↔ Fatal libs s e := by
  simp only [step, hrun, Bool.false_eq_true, ↓reduceIte] at hst
  cases e with
  | datagram env d =>
    have hd := handlePacket_isSome_iff (d := d) hl.live hnew
    dsimp only at hst
    rw [Fatal, ← hd]
    cases ho : handlePacket libs env s.controller d with
    | none =>
      rw [ho] at hst
      cases hst
      simp
    | some o =>
      rw [ho] at hst
      cases hst
      simp
  | candidatesReady x candidates =>
    cases hst
    rw [Fatal, candidatesReady_fault, Option.isNone_iff_eq_none]
  | candidatesAllocationDone env x =>
    cases hst
    rw [Fatal]
    obtain ⟨hnone, hf⟩ | ⟨p, msg, hp, hid, hsent, hf⟩ := allocationDone_outcome s.controller.manager x
    · simp [absorb, hf, hnone]
    · simp only [absorb, hsent, hf, Bool.or_false, List.foldl_cons, List.foldl_nil, hp, Option.some.injEq,
        forall_eq', ← hid]
      rw [signal_crashed (by exact hs)]
      simp [hrun]
  | rwChangeState env x =>
    cases hst
    rw [Fatal]
    unfold absorb
    dsimp only
    rw [signals_crashed (by exact hs) (Services.registered_of_rwChange _ _), hrun, Bool.false_or]
    obtain ⟨hnone, _, hf⟩ | ⟨tr, htr, hf⟩ := rwChange_outcome s.controller.manager x
    · simp [hnone, hf]
    · rw [hf]
      simp [htr]
  | processStart env =>
    dsimp only at hst
    rw [Fatal, ← processStart_eq_none_iff env.fresh.now]
    cases hp : s.controller.network.processStart libs.xmpp env.fresh.now with
    | none =>
      rw [hp] at hst
      cases hst
      simp
    | some result =>
      obtain ⟨n, call⟩ := result
      rw [hp] at hst
      cases hst
      refine iff_of_false ?_ (by simp)
      rw [signals_crashed (by exact hs)]
      · simpa [State.withNetwork] using hrun
      · intro msg hmsg
        cases call with
        | none => cases hmsg
        | some call =>
          rw [List.mem_singleton.mp hmsg]
          exact .inl rfl
  | readPacket channel data =>
    obtain ⟨packet, hr⟩ := PacketPath.onReadPacket_defined (L := libs.jingle) hl.linked.routesLive channel data
    dsimp only at hst
    rw [hr] at hst
    cases hst
    exact iff_of_false (by simp) id
  | linkStatus x readable writable wasWritable hasChannel =>
    rw [Option.map_eq_some_iff] at hst
    obtain ⟨tr, htr, rfl⟩ := hst
    exact iff_of_false (by simp) id
  | stateChange jid state =>
    rw [Option.map_eq_some_iff] at hst
    obtain ⟨pump, hpump, rfl⟩ := hst
    exact iff_of_false (by simp [State.withNetwork, hrun]) id
  | timer anyChildError =>
    dsimp only at hst
    split at hst
    · cases hst
    · cases hst
      exact iff_of_false (by simp [State.withNetwork, hrun]) id
  | stanza stanza =>
    cases hst
    exact iff_of_false (by simp [State.withNetwork, hrun]) id
  | queueSignal memory =>
    dsimp only at hst
    split at hst
    · cases hst
    · rw [Option.map_eq_some_iff] at hst
      obtain ⟨⟨c, out⟩, hq, rfl⟩ := hst
      exact iff_of_false (by simp) id
  | tapSend data =>
    cases hst
    exact iff_of_false (by simp) id
  | tapRecv len =>
    rw [Option.map_eq_some_iff] at hst
    obtain ⟨⟨c, packet⟩, hr, rfl⟩ := hst
    exact iff_of_false (by simp) id

theorem queueSignal_defined (hl : Tidy s.controller.manager) (hrun : s.crashed = false)
    (hq : s.controller.pending = s.controller.sendQueue.length) (hp : s.controller.pending ≠ 0)
    (memory : Nat → Byte) : (step libs s (.queueSignal memory)).isSome := by
  simp only [step, hrun, Bool.false_eq_true, ↓reduceIte, hp, Option.isSome_map]
  cases hqueue : s.controller.sendQueue with
  | nil =>
    rw [hqueue] at hq
    exact absurd hq hp
  | cons packet queue =>
    obtain ⟨out, hh⟩ : ∃ out, PacketPath.handlePacket libs.jingle memory s.controller.manager packet =
        some (s.controller.manager, out) := PacketPath.handlePacket_defined _ _ hl.linked.routesLive packet
    simp [handleQueueSignal, hqueue, PacketPath.WQueue.remove, hh]

end

end Tincan.Survival
