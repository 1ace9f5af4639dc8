import Tincan.LinkChanges

namespace Tincan.Requests

open Tincan.Library.Text Tincan.Libjingle Tincan.ConnectionManager Tincan.ControllerAccess
open Tincan.LinkChanges

/-- What a control request can ask of the manager, its settings apart. -/
inductive Demand
  | link (r : CreateRequest) (cas : Bytes)
  | trim (uid : Bytes)
  | identity (r : SetupRequest)
  | mapping (uid ip4 ip6 : Bytes)

def Demand.uid : Demand → Option Bytes
  | .link r _ => some r.uid
  | .trim uid => some uid
  | .identity _ => none
  | .mapping uid _ _ => some uid

def localIpRequest (libs : Libs) (root : Json.Value) : Option SetupRequest := do
  let uid ← libs.json.string root (bytes "uid")
  let ip4 ← libs.json.string root (bytes "ip4")
  let ip6 ← libs.json.string root (bytes "ip6")
  let ip4Mask ← libs.json.int root (bytes "ip4_mask")
  let ip6Mask ← libs.json.int root (bytes "ip6_mask")
  let subnetMask ← libs.json.int root (bytes "subnet_mask")
  let switchmode ← libs.json.int root (bytes "switchmode")
  some ⟨uid, ip4, ip4Mask, ip6, ip6Mask, subnetMask, switchmode⟩

def demandOf (libs : Libs) (root : Json.Value) : RpcCall → Option Demand
  | .createLink => (createLinkRequest libs root).map fun request => .link request.1 request.2
  | .trimLink => (libs.json.string root (bytes "uid")).map .trim
  | .setLocalIp => (localIpRequest libs root).map .identity
  | .setRemoteIp => do
    let uid ← libs.json.string root (bytes "uid")
    let ip4 ← libs.json.string root (bytes "ip4")
    let ip6 ← libs.json.string root (bytes "ip6")
    some (.mapping uid ip4 ip6)
  | _ => none

def demand (libs : Libs) (c : Controller) (d : Datagram) : Option Demand :=
  (requestOf libs c d).bind fun request => demandOf libs request.2.2 request.2.1

def carryOut (libs : Libs) (env : Env) (m : Manager) : Demand → Option Manager
  | .link r cas => giveCandidates libs (createTransport libs.jingle m r env.fresh).1 r.uid cas
  | .trim uid => (destroyTransport m uid).map Prod.fst
  | .identity r => some (setup libs.jingle env.memory m r).1
  | .mapping uid ip4 ip6 => some (addIPMapping libs.jingle env.memory m uid ip4 ip6).1

def trimOf (libs : Libs) (root : Json.Value) : RpcCall → Option Bool
  | .setTrimpolicy => libs.json.bool root (bytes "trim_enabled")
  | _ => none

def trimRequest (libs : Libs) (c : Controller) (d : Datagram) : Option Bool :=
  (requestOf libs c d).bind fun request => trimOf libs request.2.2 request.2.1

def Resettled (trim : Option Bool) (m m' : Manager) : Prop :=
  m' = { m with
    forwardAddr := m'.forwardAddr
    trimEnabled := trim.getD m.trimEnabled
    networkIgnoreList := m'.networkIgnoreList }

section

variable {libs : Libs} {env : Env} {c : Controller}

theorem setLocalIp_eq (root : Json.Value) :
    setLocalIp libs env c root = (localIpRequest libs root).map fun r =>
      ⟨{ c with manager := (setup libs.jingle env.memory c.manager r).1 },
        (setup libs.jingle env.memory c.manager r).2.map .tap, []⟩ := by
  simp only [setLocalIp, localIpRequest, Option.bind_eq_bind, Option.map_bind, Function.comp_def,
    Option.map_some]

theorem carryOut_dispatch {root : Json.Value} {method : Bytes} {addr : SocketAddress} {call : RpcCall}
    {o : ControllerAccess.Outcome} (h : dispatch libs env c root method addr call = some o) :
    (∃ q, demandOf libs root call = some q ∧ carryOut libs env c.manager q = some o.state.manager) ∨
      (demandOf libs root call = none ∧ Resettled (trimOf libs root call) c.manager o.state.manager) := by
  cases call with
  | createLink =>
    simp only [dispatch, createLink, Option.bind_eq_bind, Option.bind_eq_some_iff,
      Option.some.injEq] at h
    obtain ⟨⟨r, cas⟩, hreq, m, hm, rfl⟩ := h
    exact .inl ⟨.link r cas, by rw [demandOf, hreq]; rfl, hm⟩
  | trimLink =>
    simp only [dispatch, trimLink, Option.bind_eq_bind, Option.bind_eq_some_iff,
      Option.some.injEq] at h
    obtain ⟨uid, huid, ⟨m, done, log⟩, hd, rfl⟩ := h
    exact .inl ⟨.trim uid, by rw [demandOf, huid]; rfl, by rw [carryOut, hd]; rfl⟩
  | setLocalIp =>
    rw [dispatch, setLocalIp_eq, Option.map_eq_some_iff] at h
    obtain ⟨r, hr, rfl⟩ := h
    exact .inl ⟨.identity r, by rw [demandOf, hr]; rfl, rfl⟩
  | setRemoteIp =>
    simp only [dispatch, setRemoteIp, Option.bind_eq_bind, Option.bind_eq_some_iff,
      Option.some.injEq] at h
    obtain ⟨uid, huid, ip4, hip4, ip6, hip6, rfl⟩ := h
    exact .inl ⟨.mapping uid ip4 ip6, by rw [demandOf, huid, hip4, hip6]; rfl, rfl⟩
  | registerSvc =>
    simp only [dispatch, registerSvc, Option.bind_eq_bind, Option.bind_eq_some_iff,
      Option.some.injEq] at h
    obtain ⟨_, _, _, _, _, _, _, _, rfl⟩ := h
    exact .inr ⟨rfl, rfl⟩
  | setCbEndpoint =>
    simp only [dispatch, setCbEndpoint, Option.bind_eq_bind, Option.bind_eq_some_iff,
      Option.some.injEq] at h
    obtain ⟨_, _, _, _, rfl⟩ := h
    exact .inr ⟨rfl, rfl⟩
  | getState =>
    simp only [dispatch, getStateCall, Option.bind_eq_bind, Option.bind_eq_some_iff,
      Option.some.injEq] at h
    obtain ⟨_, _, _, _, _, _, rfl⟩ := h
    exact .inr ⟨rfl, rfl⟩
  | setLogging =>
    simp only [dispatch, setLogging, Option.bind_eq_bind, Option.bind_eq_some_iff,
      Option.some.injEq] at h
    obtain ⟨_, _, rfl⟩ := h
    exact .inr ⟨rfl, rfl⟩
  | setTranslation =>
    simp only [dispatch, setTranslation, Option.bind_eq_bind, Option.bind_eq_some_iff,
      Option.some.injEq] at h
    obtain ⟨_, _, rfl⟩ := h
    exact .inr ⟨rfl, rfl⟩
  | setSwitchmode =>
    simp only [dispatch, setSwitchmode, Option.bind_eq_bind, Option.bind_eq_some_iff,
      Option.some.injEq] at h
    obtain ⟨_, _, rfl⟩ := h
    exact .inr ⟨rfl, rfl⟩
  | setTrimpolicy =>
    simp only [dispatch, setTrimpolicy, Option.bind_eq_bind, Option.bind_eq_some_iff,
      Option.some.injEq] at h
    obtain ⟨trim, htrim, rfl⟩ := h
    exact .inr ⟨rfl, by rw [Resettled, trimOf, htrim]; rfl⟩
  | echoRequest =>
    simp only [dispatch, echoRequest, Option.bind_eq_bind, Option.bind_eq_some_iff,
      Option.some.injEq] at h
    obtain ⟨_, _, rfl⟩ := h
    exact .inr ⟨rfl, rfl⟩
  | echoReply =>
    cases h
    exact .inr ⟨rfl, rfl⟩
  | setNetworkIgnoreList =>
    simp only [dispatch, setNetworkIgnoreList, Option.bind_eq_bind, Option.bind_eq_some_iff] at h
    obtain ⟨_, _, h⟩ := h
    split at h
    · simp only [Option.bind_eq_some_iff, Option.some.injEq] at h
      obtain ⟨_, _, rfl⟩ := h
      exact .inr ⟨rfl, rfl⟩
    · cases h
      exact .inr ⟨rfl, rfl⟩
  | unknown =>
    simp only [dispatch, relay, Option.bind_eq_bind, Option.bind_eq_some_iff, Option.some.injEq] at h
    obtain ⟨_, _, _, _, _, _, rfl⟩ := h
    exact .inr ⟨rfl, rfl⟩

/-- A datagram carries out its demand, or changes settings at most. -/
theorem carryOut_handlePacket {d : Datagram} {o : ControllerAccess.Outcome}
    (h : handlePacket libs env c d = some o) :
    (∃ q, demand libs c d = some q ∧ carryOut libs env c.manager q = some o.state.manager) ∨
      (demand libs c d = none ∧ Resettled (trimRequest libs c d) c.manager o.state.manager) := by
  unfold demand trimRequest
  cases hreq : requestOf libs c d with
  | none =>
    obtain ⟨packet, ho | ho⟩ := handlePacket_packet hreq h <;> rw [ho] <;> exact .inr ⟨rfl, rfl⟩
  | some request =>
    obtain ⟨method, call, root⟩ := request
    have hstate := handlePacket_request env hreq
    rw [h, Option.map_some] at hstate
    obtain ⟨o', ho', he⟩ := Option.map_eq_some_iff.mp hstate.symm
    rw [← he]
    have hcarry := carryOut_dispatch ho'
    exact hcarry

theorem linkRequest_of_demand {d : Datagram} {r : CreateRequest} {cas : Bytes}
    (h : demand libs c d = some (.link r cas)) : linkRequest libs c d = some r := by
  obtain ⟨⟨method, call, root⟩, hreq, h⟩ := Option.bind_eq_some_iff.mp h
  cases call with
  | createLink =>
    obtain ⟨⟨r', cas'⟩, hr, he⟩ := Option.map_eq_some_iff.mp h
    cases he
    exact linkRequest_of_request hreq hr
  | trimLink | setLocalIp =>
    obtain ⟨_, _, he⟩ := Option.map_eq_some_iff.mp h
    cases he
  | setRemoteIp =>
    simp [demandOf, Option.bind_eq_some_iff] at h
  | _ => cases h

end

def trimAsked (libs : Libs) (c : Controller) : Process.Event → Option Bool
  | .datagram _ d => trimRequest libs c d
  | _ => none

/-- What happens to the settings of the node. Its name and addresses are given once. -/
structure SettingsStep (trim : Option Bool) (m m' : Manager) : Prop where
  trimEnabled : m'.trimEnabled = trim.getD m.trimEnabled
  tapName : m'.tapName = m.tapName
  identity : (m'.tincanId = m.tincanId ∧ m'.tincanIp6 = m.tincanIp6) ∨ (m.tincanId = [] ∧ m'.tincanId ≠ [])

section

variable {libs : Libs} {env : Env} {c c' : Controller} {m m' m'' : Manager}

theorem SettingsStep.refl (m : Manager) : SettingsStep none m m := ⟨rfl, rfl, .inl ⟨rfl, rfl⟩⟩

theorem settings_create (L : Libjingle.Api) (m : Manager) (r : CreateRequest) (f : Fresh) :
    SettingsStep none m (createTransport L m r f).1 := by
  obtain ⟨_, hm⟩ | ⟨_, tr, hm⟩ := createTransport_cases L m r f <;> rw [hm] <;>
    exact ⟨rfl, rfl, .inl ⟨rfl, rfl⟩⟩

theorem settings_give {uid cas : Bytes} (h : SettingsStep none m m')
    (hm : giveCandidates libs m' uid cas = some m'') : SettingsStep none m m'' := by
  obtain rfl | ⟨p, tr, candidates, _, _, _, rfl⟩ := giveCandidates_cases hm
  · exact h
  · exact ⟨h.trimEnabled, h.tapName, h.identity⟩

theorem settings_setup (L : Libjingle.Api) (memory : Nat → Byte) (m : Manager) (r : SetupRequest) :
    SettingsStep none m (setup L memory m r).1 := by
  unfold setup
  split
  · exact .refl m
  next hr =>
  obtain ⟨hnone, hlength⟩ : m.tincanId = [] ∧ r.uid.length = Utils.kIdSize := by
    simpa only [not_or, not_not] using hr
  refine ⟨rfl, rfl, .inr ⟨hnone, ?_⟩⟩
  intro (hempty : r.uid = [])
  rw [hempty] at hlength
  cases hlength

theorem settings_carryOut {q : Demand} (h : carryOut libs env m q = some m') : SettingsStep none m m' := by
  cases q with
  | link r cas => exact settings_give (settings_create _ _ _ _) h
  | trim uid =>
    simp only [carryOut, Option.map_eq_some_iff] at h
    obtain ⟨⟨m', done, log⟩, hd, rfl⟩ := h
    obtain ⟨_, rfl⟩ | ⟨p, _, rfl⟩ := destroyTransport_cases hd
    · exact .refl _
    · exact ⟨rfl, rfl, .inl ⟨rfl, rfl⟩⟩
  | identity r =>
    cases h
    exact settings_setup _ _ _ _
  | mapping uid ip4 ip6 =>
    cases h
    unfold addIPMapping
    split
    · exact .refl m
    · exact ⟨rfl, rfl, .inl ⟨rfl, rfl⟩⟩

theorem trimOf_of_demandOf {root : Json.Value} {call : RpcCall} {q : Demand}
    (h : demandOf libs root call = some q) : trimOf libs root call = none := by
  cases call <;> first | rfl | cases h

theorem trimRequest_of_demand {d : Datagram} {q : Demand} (h : demand libs c d = some q) :
    trimRequest libs c d = none := by
  obtain ⟨request, hreq, h⟩ := Option.bind_eq_some_iff.mp h
  rw [trimRequest, hreq, Option.bind_some, trimOf_of_demandOf h]

theorem settings_handlePacket {d : Datagram} {o : ControllerAccess.Outcome}
    (h : handlePacket libs env c d = some o) :
    SettingsStep (trimRequest libs c d) c.manager o.state.manager := by
  obtain ⟨q, hq, hcarry⟩ | ⟨_, hs⟩ := carryOut_handlePacket h
  · rw [trimRequest_of_demand hq]
    exact settings_carryOut hcarry
  · rw [Resettled] at hs
    rw [hs]
    exact ⟨rfl, rfl, .inl ⟨rfl, rfl⟩⟩

theorem handled_of_trimRequest (env : Env) {d : Datagram} {trim : Bool} (h : trimRequest libs c d = some trim) :
    handlePacket libs env c d ≠ none := by
  obtain ⟨⟨method, call, root⟩, hreq, htrim⟩ := Option.bind_eq_some_iff.mp h
  cases call with
  | setTrimpolicy =>
    intro hnone
    have hstate := handlePacket_request env hreq
    have hbool : libs.json.bool root (bytes "trim_enabled") = some trim := htrim
    simp [hnone, dispatch, setTrimpolicy, hbool] at hstate
  | _ => cases htrim

theorem settings_controller {e : Process.Event} {taken : List Xmpp.Stanza} {msgs : List PeerMessage}
    (h : Process.ControllerStep libs c e c' taken msgs) (he : trimAsked libs c e = none) :
    SettingsStep none c.manager c'.manager := by
  cases h with
  | datagram h => exact he ▸ settings_handlePacket h
  | candidatesReady x candidates =>
    obtain ⟨_, hm⟩ | ⟨p, _, _, hm⟩ := onCandidatesReady_cases libs.jingle c.manager x candidates <;>
      rw [hm] <;> exact ⟨rfl, rfl, .inl ⟨rfl, rfl⟩⟩
  | candidatesAllocationDone env x =>
    rw [onCandidatesAllocationDone_manager]
    exact ⟨rfl, rfl, .inl ⟨rfl, rfl⟩⟩
  | rwChangeState env x =>
    obtain hm | ⟨hm, _⟩ := onRWChangeState_cases c.manager x <;> rw [hm] <;>
      exact ⟨rfl, rfl, .inl ⟨rfl, rfl⟩⟩
  | queueSignal h =>
    obtain ⟨_, _, _, rfl⟩ := Process.handleQueueSignal_eq_some h
    exact .refl _
  | readPacket h =>
    rw [PacketPath.onReadPacket_manager _ h]
    exact .refl _
  | tapRecv h =>
    obtain ⟨_, _, _, rfl, _⟩ := Process.doPacketRecv_eq_some h
    exact .refl _
  | linkStatus => exact ⟨rfl, rfl, .inl ⟨rfl, rfl⟩⟩
  | same | stateChange | timer | stanza | processStart | tapSend => exact .refl _

theorem settings_step {s t : Process.State} {e : Process.Event} (h : Process.step libs s e = some t) :
    SettingsStep (trimAsked libs s.controller e) s.controller.manager t.controller.manager := by
  cases hasked : trimAsked libs s.controller e with
  | none =>
    obtain ⟨taken, msgs, hc⟩ := Process.controllerStep_of_step h
    exact settings_controller hc hasked
  | some trim =>
    cases e with
    | datagram env d =>
      obtain ⟨o, ho⟩ := Option.ne_none_iff_exists'.mp (handled_of_trimRequest env hasked)
      simp only [Process.step, Process.running_of_step h, Bool.false_eq_true, ↓reduceIte, ho,
        Option.some.injEq] at h
      subst h
      exact hasked ▸ settings_handlePacket ho
    | _ => cases hasked

end

end Tincan.Requests
