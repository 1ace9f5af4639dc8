import Tincan.LinkChanges
import Tincan.Registration

namespace Tincan.RepeatedRequests

open Tincan.Library Tincan.Library.Text Tincan.Library.Runs Tincan.Library.PartialMap
open Tincan.Libjingle Tincan.Utils Tincan.ConnectionManager Tincan.XmppNetwork
open Tincan.ControllerAccess Tincan.Process Tincan.LinkChanges

/-- The fields that a request of each kind needs can be read. The kinds are
those that only set something up or take it away. -/
inductive Readable (libs : Libs) (root : Json.Value) : RpcCall → Prop
  | registerSvc {user pass host : Bytes} {port : Int}
      (hu : libs.json.string root (bytes "username") = some user)
      (hp : libs.json.string root (bytes "password") = some pass)
      (hh : libs.json.string root (bytes "host") = some host)
      (hport : requestedPort libs root = some port) : Readable libs root .registerSvc
  | createLink {r : CreateRequest} {cas : Bytes} (h : createLinkRequest libs root = some (r, cas)) :
      Readable libs root .createLink
  | setLocalIp {uid ip4 ip6 : Bytes} {ip4Mask ip6Mask subnetMask switchmode : Int}
      (hu : libs.json.string root (bytes "uid") = some uid)
      (h4 : libs.json.string root (bytes "ip4") = some ip4)
      (h6 : libs.json.string root (bytes "ip6") = some ip6)
      (hm4 : libs.json.int root (bytes "ip4_mask") = some ip4Mask)
      (hm6 : libs.json.int root (bytes "ip6_mask") = some ip6Mask)
      (hs : libs.json.int root (bytes "subnet_mask") = some subnetMask)
      (hw : libs.json.int root (bytes "switchmode") = some switchmode) : Readable libs root .setLocalIp
  | setRemoteIp {uid ip4 ip6 : Bytes} (hu : libs.json.string root (bytes "uid") = some uid)
      (h4 : libs.json.string root (bytes "ip4") = some ip4)
      (h6 : libs.json.string root (bytes "ip6") = some ip6) : Readable libs root .setRemoteIp
  | trimLink {uid : Bytes} (hu : libs.json.string root (bytes "uid") = some uid) :
      Readable libs root .trimLink
  | setCbEndpoint {ip : Bytes} {port : Int} (hi : libs.json.string root (bytes "ip") = some ip)
      (hp : libs.json.int root (bytes "port") = some port) : Readable libs root .setCbEndpoint
  | setLogging {logging : Int} (h : libs.json.int root (bytes "logging") = some logging) :
      Readable libs root .setLogging
  | setTranslation {translate : Int} (h : libs.json.int root (bytes "translate") = some translate) :
      Readable libs root .setTranslation
  | setSwitchmode {switchmode : Int} (h : libs.json.int root (bytes "switchmode") = some switchmode) :
      Readable libs root .setSwitchmode
  | setTrimpolicy {trim : Bool} (h : libs.json.bool root (bytes "trim_enabled") = some trim) :
      Readable libs root .setTrimpolicy
  | setNetworkIgnoreList {list : Json.Value} {names : List Bytes}
      (hl : libs.json.index root (bytes "network_ignore_list") = some list)
      (ha : libs.json.isArray list = true)
      (hn : (List.range (libs.json.size list)).mapM (fun i =>
        (libs.json.item list i).bind libs.json.asString) = some names) :
      Readable libs root .setNetworkIgnoreList

structure WellFormed (libs : Libs) (d : Datagram) (root : Json.Value) (method : Bytes)
    (call : RpcCall) : Prop where
  type : d.buffer 1 = kTincanControl
  message : ∃ message, d.message = some message ∧ libs.json.parse message = (true, root)
  named : libs.json.string root (bytes "m") = some method
  known : initMap method = some call
  fields : Readable libs root call

section

variable {L : Api} {m m' : Manager} {uid : Bytes}

theorem login_twice (X : Xmpp.Api) (n : Network) (user pass pcid host : Bytes) (port : Int) :
    ((n.login L X user pass pcid host port).1.login L X user pass pcid host port).1 =
      (n.login L X user pass pcid host port).1 := by
  cases hr : n.refuses user pass pcid host with
  | true =>
    have hn : n.login L X user pass pcid host port = (n, false) := by rw [Network.login, if_pos hr]
    rw [hn, hn]
  | false =>
    have hpump : (n.login L X user pass pcid host port).1.pump.isSome := by
      rw [Network.login, hr]
      rfl
    rw [login_of_pump hpump]

theorem setup_twice (memory memory' : Nat → Byte) (m : Manager) (r : SetupRequest) :
    setup L memory' (setup L memory m r).1 r = ((setup L memory m r).1, []) := by
  by_cases hr : Registration.setupRefused m r
  · rw [Registration.setup_of_refused _ hr, Registration.setup_of_refused _ hr]
  · have hid := (Registration.setup_of_accepted (L := L) memory hr).1
    have hne : r.uid ≠ [] := by
      intro he
      simp [Registration.setupRefused, he, kIdSize] at hr
    exact Registration.setup_of_refused _ (.inl (hid ▸ hne))

theorem addIPMapping_twice (memory memory' : Nat → Byte) (m : Manager) (uid ip4 ip6 : Bytes) :
    addIPMapping L memory' (addIPMapping L memory m uid ip4 ip6).1 uid ip4 ip6 =
      ((addIPMapping L memory m uid ip4 ip6).1, false, []) := by
  by_cases hr : Registration.mappingRefused m uid ip4 ip6
  · rw [Registration.addIPMapping_of_refused _ hr, Registration.addIPMapping_of_refused _ hr]
  · have hmap := (Registration.addIPMapping_of_accepted (L := L) memory hr).1
    refine Registration.addIPMapping_of_refused _ (.inr (.inr (.inr ?_)))
    rw [hmap, PartialMap.insert_self]
    rfl

theorem destroyTransport_twice {done : Bool} {log : List ConnectionManager.Log}
    (h : destroyTransport m uid = some (m', done, log)) :
    destroyTransport m' uid = some (m', false, []) := by
  have hnone : m'.uidMap uid = none := by
    obtain ⟨hu, rfl⟩ | ⟨p, _, rfl⟩ := destroyTransport_cases h
    · exact hu
    · exact erase_self _ _
  simp [destroyTransport, hnone]

theorem createConnections_twice {cas : Bytes} {done : Bool}
    (h : createConnections L m uid cas = some (m', done)) :
    ∃ done', createConnections L m' uid cas = some (m', done') := by
  unfold createConnections at h
  split at h
  · next hu =>
    cases h
    exact ⟨false, by simp [createConnections, hu]⟩
  · cases h
  · next p hp =>
    split at h
    · next hc =>
      cases h
      exact ⟨false, by simp [createConnections, hp, hc]⟩
    · next hc =>
      dsimp only at h
      split at h
      · cases h
      · next tr htr =>
        cases h
        have hnone : p.candidates = [] := by simpa using hc
        rw [hnone]
        generalize hread : readCandidates L (Tokens.IStream.ofBytes cas) [] = candidates
        cases candidates with
        | cons c candidates => exact ⟨false, by simp [createConnections]⟩
        -- No candidate could be read, so the request is carried out again, in vain.
        | nil =>
          refine ⟨true, ?_⟩
          simp [createConnections, hread, insert_of_mem]

theorem giveCandidates_twice {libs : Libs} {cas : Bytes} (h : giveCandidates libs m uid cas = some m') :
    giveCandidates libs m' uid cas = some m' := by
  unfold giveCandidates at h ⊢
  split at h
  · next hc => rw [if_pos hc]
  · next hc =>
    rw [Option.map_eq_some_iff] at h
    obtain ⟨⟨m', done⟩, hm, rfl⟩ := h
    obtain ⟨done', hm'⟩ := createConnections_twice hm
    rw [if_neg hc, hm']
    rfl

theorem refused_createTransport (L : Api) (m : Manager) (r : CreateRequest)
    (f : ConnectionManager.Fresh) : r.refused (createTransport L m r f).1 = true := by
  obtain ⟨hr, hm⟩ | ⟨_, tr, hm⟩ := createTransport_cases L m r f
  · rw [hm, hr]
  · rw [hm]
    simp [CreateRequest.refused]

theorem refused_giveCandidates {libs : Libs} {cas : Bytes} {r : CreateRequest}
    (h : giveCandidates libs m uid cas = some m') (hr : r.refused m = true) : r.refused m' = true := by
  obtain rfl | ⟨p, tr, candidates, hp, _, _, rfl⟩ := giveCandidates_cases h
  · exact hr
  · simp only [CreateRequest.refused, Bool.or_eq_true] at hr ⊢
    refine hr.imp_left fun hu => ?_
    by_cases he : r.uid = uid
    · simp [he]
    · simpa [he] using hu

theorem giveCandidates_defined {libs : Libs} (h : Live m) (uid cas : Bytes) :
    ∃ m', giveCandidates libs m uid cas = some m' := by
  unfold giveCandidates createConnections
  split
  · exact ⟨m, rfl⟩
  · split
    · exact ⟨m, rfl⟩
    · next hnull =>
      obtain ⟨_, hs, _⟩ := h.owned uid none hnull
      cases hs
    · next p hp =>
      obtain ⟨tr, htr⟩ := Option.isSome_iff_exists.mp (h.transport hp)
      rw [htr]
      split <;> exact ⟨_, rfl⟩

theorem destroyTransport_defined (h : Live m) (uid : Bytes) :
    ∃ m' done log, destroyTransport m uid = some (m', done, log) := by
  unfold destroyTransport
  split
  · exact ⟨_, _, _, rfl⟩
  · next hnull =>
    obtain ⟨_, hs, _⟩ := h.owned uid none hnull
    cases hs
  · exact ⟨_, _, _, rfl⟩

theorem endpoint_twice {libs : Libs} (h : libs.jingle.SetsFields) (remoteAddr addr : SocketAddress)
    (ip : Bytes) (port : Int) : endpoint libs (endpoint libs remoteAddr addr ip port) addr ip port =
      endpoint libs remoteAddr addr ip port := by
  obtain ⟨⟨_, hip⟩, ⟨_, hport⟩⟩ := h
  unfold endpoint
  split
  · rfl
  · simp only [hip, hport]

theorem severity_twice (logging : Int) (old : LoggingSeverity) :
    (severity logging).getD ((severity logging).getD old) = (severity logging).getD old := by
  cases severity logging <;> rfl

end

theorem rpcCalls_update {libs : Libs} {env : Env} {s s' : Controller} {d : Datagram} {method : Bytes}
    {call : RpcCall} (hu : Update libs env s d s') (h : s.rpcCalls method = some call) :
    s'.rpcCalls method = some call := by
  cases hu with
  | @method name hnone =>
    have hne : method ≠ name := by
      rintro rfl
      rw [hnone] at h
      cases h
    exact insert_eq_some.mpr (.inr ⟨hne, h⟩)
  | _ => exact h

section

variable {libs : Libs} {env : Env} {s : Controller} {d : Datagram} {root : Json.Value}
  {method : Bytes} {call : RpcCall}

theorem createLink_twice (env' : Env) {r : CreateRequest} {cas : Bytes} (hl : Live s.manager)
    (hr : createLinkRequest libs root = some (r, cas))
    (hnew : r.refused s.manager = false → LinkThreads.Available s.manager env.fresh) :
    ∃ o, createLink libs env s root = some o ∧
      createLink libs env' o.state root = some ⟨o.state, [], []⟩ := by
  obtain ⟨m, hm⟩ : ∃ m, giveCandidates libs (createTransport libs.jingle s.manager r env.fresh).1
      r.uid cas = some m := giveCandidates_defined (hl.create hnew) r.uid cas
  have hrefused := refused_giveCandidates hm (refused_createTransport libs.jingle s.manager r env.fresh)
  have hagain : createTransport libs.jingle m r env'.fresh = (m, false, []) := by
    rw [createTransport, if_pos hrefused]
  refine ⟨⟨{ s with manager := m }, [], (createTransport libs.jingle s.manager r env.fresh).2.2.map
    .shortUidMap⟩, ?_, ?_⟩
  · simp only [createLink, hr, hm, Option.bind_eq_bind, Option.bind_some]
  · simp only [createLink, hr, hagain, giveCandidates_twice hm, Option.bind_eq_bind, Option.bind_some,
      List.map_nil]

/-- Each kind of request is carried out, and carried out again to no effect. -/
theorem dispatch_twice (env' : Env) (method : Bytes) (addr : SocketAddress)
    (hset : libs.jingle.SetsFields) (hr : Readable libs root call)
    (hl : Live s.manager) (hnew : ∀ r cas, call = .createLink →
      createLinkRequest libs root = some (r, cas) → r.refused s.manager = false →
        LinkThreads.Available s.manager env.fresh) :
    ∃ o, dispatch libs env s root method addr call = some o ∧
      dispatch libs env' o.state root method addr call = some ⟨o.state, [], []⟩ := by
  cases hr with
  | @registerSvc user pass host port hu hp hh hport =>
    have h : ∀ s, registerSvc libs s root = some ⟨{ s with
        network := (s.network.login libs.jingle libs.xmpp user pass s.manager.tincanId host port).1 },
        [], []⟩ := by
      intro s
      simp only [registerSvc, hu, hp, hh, hport, Option.bind_eq_bind, Option.bind_some]
    refine ⟨_, h s, (h _).trans ?_⟩
    simp only [login_twice]
  | createLink h => exact createLink_twice env' hl h (hnew _ _ rfl h)
  | @setLocalIp uid ip4 ip6 ip4Mask ip6Mask subnetMask switchmode hu h4 h6 hm4 hm6 hs hw =>
    have h : ∀ env s, setLocalIp libs env s root = some ⟨{ s with
        manager := (setup libs.jingle env.memory s.manager
          ⟨uid, ip4, ip4Mask, ip6, ip6Mask, subnetMask, switchmode⟩).1 },
        (setup libs.jingle env.memory s.manager
          ⟨uid, ip4, ip4Mask, ip6, ip6Mask, subnetMask, switchmode⟩).2.map .tap, []⟩ := by
      intro env s
      simp only [setLocalIp, hu, h4, h6, hm4, hm6, hs, hw, Option.bind_eq_bind, Option.bind_some]
    refine ⟨_, h env s, (h env' _).trans ?_⟩
    simp only [setup_twice, List.map_nil]
  | @setRemoteIp uid ip4 ip6 hu h4 h6 =>
    have h : ∀ env s, setRemoteIp libs env s root = some ⟨{ s with
        manager := (addIPMapping libs.jingle env.memory s.manager uid ip4 ip6).1 },
        (addIPMapping libs.jingle env.memory s.manager uid ip4 ip6).2.2.map .tap, []⟩ := by
      intro env s
      simp only [setRemoteIp, hu, h4, h6, Option.bind_eq_bind, Option.bind_some]
    refine ⟨_, h env s, (h env' _).trans ?_⟩
    simp only [addIPMapping_twice, List.map_nil]
  | @trimLink uid hu =>
    have h : ∀ (s : Controller) m done log, destroyTransport s.manager uid = some (m, done, log) →
        trimLink libs s root = some ⟨{ s with manager := m }, [], log.map .shortUidMap⟩ := by
      intro s m done log hd
      simp only [trimLink, hu, hd, Option.bind_eq_bind, Option.bind_some]
    obtain ⟨m, done, log, hd⟩ := destroyTransport_defined hl uid
    exact ⟨_, h s m done log hd, h _ m false [] (destroyTransport_twice hd)⟩
  | @setCbEndpoint ip port hi hp =>
    have h : ∀ s, setCbEndpoint libs s root addr = some ⟨{ s with
        remoteAddr := endpoint libs s.remoteAddr addr ip port
        manager := { s.manager with forwardAddr := endpoint libs s.remoteAddr addr ip port } },
        [], []⟩ := by
      intro s
      simp only [setCbEndpoint, hi, hp, Option.bind_eq_bind, Option.bind_some]
    refine ⟨_, h s, (h _).trans ?_⟩
    simp only [endpoint_twice hset]
  | @setLogging logging hg =>
    have h : ∀ s, setLogging libs s root =
        some ⟨{ s with logging := (severity logging).getD s.logging }, [], []⟩ := by
      intro s
      simp only [setLogging, hg, Option.bind_eq_bind, Option.bind_some]
    refine ⟨_, h s, (h _).trans ?_⟩
    simp only [severity_twice]
  | setTranslation h | setSwitchmode h | setTrimpolicy h =>
    simp only [dispatch, setTranslation, setSwitchmode, setTrimpolicy, h, Option.bind_eq_bind,
      Option.bind_some]
    exact ⟨_, rfl, rfl⟩
  | setNetworkIgnoreList hl ha hn =>
    simp only [dispatch, setNetworkIgnoreList, hl, ha, hn, Option.bind_eq_bind, Option.bind_some,
      ↓reduceIte]
    exact ⟨_, rfl, rfl⟩

theorem handlePacket_wellFormed (hd : WellFormed libs d root method call)
    (hknown : s.rpcCalls method = some call) (env : Env) :
    ∃ log, handlePacket libs env s d = (dispatch libs env s root method d.addr call).map
      (fun o => { o with log := log ++ o.log }) := by
  obtain ⟨message, hm, hparse⟩ := hd.message
  have hindex := index_of_mem RpcCall.unknown hknown
  have hrequest : handleRequest libs env s d = dispatch libs env s root method d.addr call := by
    simp only [handleRequest, hm, hparse, hd.named, hindex, Option.bind_eq_bind, Option.bind_some,
      ↓reduceIte]
    exact Option.bind_fun_some _
  refine ⟨if d.buffer 0 ≠ kIpopVer then [.versionMismatch (d.buffer 0)] else [], ?_⟩
  unfold handlePacket
  rw [hd.type, if_neg (by decide), if_neg (by decide), hrequest]
  simp

theorem linkRequest_wellFormed (hd : WellFormed libs d root method .createLink)
    (hknown : s.rpcCalls method = some .createLink) {r : CreateRequest} {cas : Bytes}
    (hr : createLinkRequest libs root = some (r, cas)) : linkRequest libs s d = some r := by
  obtain ⟨message, hm, hparse⟩ := hd.message
  have hindex := index_of_mem RpcCall.unknown hknown
  have hrequest : requestOf libs s d = some (method, .createLink, root) := by
    rw [requestOf, hd.type, if_neg (by decide)]
    simp [hm, hparse, hd.named, hindex]
  exact linkRequest_of_request hrequest hr

theorem handlePacket_twice (env' : Env) (hset : libs.jingle.SetsFields)
    (hd : WellFormed libs d root method call) (hl : Live s.manager)
    (hknown : ∀ call, initMap method = some call → s.rpcCalls method = some call)
    (hnew : ∀ r, linkRequest libs s d = some r → r.refused s.manager = false →
      LinkThreads.Available s.manager env.fresh) :
    ∃ o log, handlePacket libs env s d = some o ∧
      handlePacket libs env' o.state d = some ⟨o.state, [], log⟩ := by
  have hcall := hknown call hd.known
  have hfresh : ∀ r cas, call = .createLink → createLinkRequest libs root = some (r, cas) →
      r.refused s.manager = false → LinkThreads.Available s.manager env.fresh := by
    rintro r cas rfl hr
    exact hnew r (linkRequest_wellFormed hd hcall hr)
  obtain ⟨o, ho, ho'⟩ := dispatch_twice env' method d.addr hset hd.fields hl hfresh
  obtain ⟨log, hfirst⟩ := handlePacket_wellFormed hd hcall env
  rw [ho, Option.map_some] at hfirst
  have hupdate := update_handlePacket hfirst
  have hcall' : o.state.rpcCalls method = some call := rpcCalls_update hupdate hcall
  obtain ⟨log', hsecond⟩ := handlePacket_wellFormed hd hcall' env'
  rw [ho', Option.map_some] at hsecond
  exact ⟨_, _, hfirst, hsecond⟩

end

theorem rpcCalls_step {libs : Libs} {s t : State} {e : Event} {method : Bytes} {call : RpcCall}
    (hst : step libs s e = some t) (h : s.controller.rpcCalls method = some call) :
    t.controller.rpcCalls method = some call := by
  obtain ⟨taken, msgs, hc⟩ := controllerStep_of_step hst
  generalize t.controller = c at hc ⊢
  cases hc with
  | datagram h' => exact rpcCalls_update (update_handlePacket h') h
  | queueSignal h' =>
    obtain ⟨_, _, _, rfl⟩ := handleQueueSignal_eq_some h'
    exact h
  | tapRecv h' =>
    obtain ⟨_, _, _, rfl, _⟩ := doPacketRecv_eq_some h'
    exact h
  | _ => exact h

section

variable {libs : Libs} {s : State}

theorem known_of_reachable {method : Bytes} {call : RpcCall}
    (h : Reachable (Guarded (NewObjects libs) (Steps (step libs))) Initial s)
    (hm : initMap method = some call) : s.controller.rpcCalls method = some call := by
  refine reachable_invariant (P := fun s : State => s.controller.rpcCalls method = some call) ?_ ?_ h
  · rintro s ⟨tiebreaker, kTapName, ip4, mac, logging, xmppState, onMsgCounter, rfl⟩
    exact hm
  · rintro s e t hs ⟨_, hst⟩
    exact rpcCalls_step hst hs

theorem live_of_reachable (h : Reachable (Guarded (NewObjects libs) (Steps (step libs))) Initial s)
    (hrun : s.crashed = false) : Live s.controller.manager := by
  refine reachable_invariant (P := fun s : State => s.crashed = false → Live s.controller.manager)
    ?_ ?_ h hrun
  · rintro s ⟨tiebreaker, kTapName, ip4, mac, logging, xmppState, onMsgCounter, rfl⟩ _
    exact live_of_empty rfl
  · intro s e t hs hst ht
    exact live_step (hs (running_of_step hst.2)) hst ht

end

theorem step_datagram {libs : Libs} {env : Env} {s : State} {d : Datagram} {o : ControllerAccess.Outcome}
    (hrun : s.crashed = false) (h : handlePacket libs env s.controller d = some o) :
    step libs s (.datagram env d) = some { s with controller := o.state, sent := s.sent ++ o.output } := by
  simp [step, hrun, h]

/-- A request that is received twice in a row has the effect that it has when
it is received once. -/
theorem repeated_request_harmless (libs : Libs) (hset : libs.jingle.SetsFields) (s : State)
    (h : Reachable (Guarded (NewObjects libs) (Steps (step libs))) Initial s) (hrun : s.crashed = false)
    (d : Datagram) (root : Json.Value) (method : Bytes) (call : RpcCall)
    (hd : WellFormed libs d root method call) (env env' : Env)
    (hnew : NewObjects libs s (.datagram env d)) :
    ∃ t, step libs s (.datagram env d) = some t ∧ t.crashed = false ∧
      step libs t (.datagram env' d) = some t := by
  obtain ⟨o, log, ho, ho'⟩ := handlePacket_twice env' hset hd (live_of_reachable h hrun)
    (fun _ hm => known_of_reachable h hm) hnew
  have hagain := step_datagram (s := { s with controller := o.state, sent := s.sent ++ o.output }) hrun ho'
  rw [List.append_nil] at hagain
  exact ⟨_, step_datagram hrun ho, hrun, hagain⟩

def oneLinkLibs : Libs := sampleLibs [(linkText [49], linkValue 1)]

theorem oneLink_wellFormed :
    WellFormed oneLinkLibs (linkDatagram 49) (linkValue 1) (bytes "create_link") .createLink where
  type := rfl
  message := ⟨linkText [49], rfl, rfl⟩
  named := rfl
  known := rfl
  fields := .createLink rfl

theorem repeated_request_harmless_link : ∃ t,
    step oneLinkLibs startState (.datagram sampleEnv (linkDatagram 49)) = some t ∧ t.crashed = false ∧
      step oneLinkLibs t (.datagram ⟨fun _ => 0, ⟨3, 4, 0⟩, fun _ => []⟩ (linkDatagram 49)) = some t := by
  have hnew : NewObjects oneLinkLibs startState (.datagram sampleEnv (linkDatagram 49)) :=
    fun _ _ _ => ⟨by decide, rfl, rfl⟩
  exact repeated_request_harmless oneLinkLibs plain_setsFields startState
    (reachable_init startState_initial) rfl (linkDatagram 49) (linkValue 1) (bytes "create_link")
    .createLink oneLink_wellFormed sampleEnv ⟨fun _ => 0, ⟨3, 4, 0⟩, fun _ => []⟩ hnew

end Tincan.RepeatedRequests
