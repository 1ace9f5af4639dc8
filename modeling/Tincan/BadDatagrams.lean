import Tincan.LinkChanges

namespace Tincan.BadDatagrams

open Tincan.Library Tincan.Library.Text Tincan.Library.Runs Tincan.Library.Tokens
open Tincan.Libjingle Tincan.Utils Tincan.ConnectionManager Tincan.ControllerAccess Tincan.Process
open Tincan.LinkChanges

/-- The call returns with the state as it was and nothing sent. Lines in the
log do not count. -/
def Quiet (s : Controller) (x : Option ControllerAccess.Outcome) : Prop :=
  ∃ o, x = some o ∧ o.state = s ∧ o.output = []

@[simp] theorem quiet_bind {α : Type*} {s : Controller} {x : Option α}
    {f : α → Option ControllerAccess.Outcome} : Quiet s (x.bind f) ↔ ∃ a, x = some a ∧ Quiet s (f a) := by
  cases x <;> simp [Quiet]

@[simp] theorem quiet_some {s : Controller} {o : ControllerAccess.Outcome} :
    Quiet s (some o) ↔ o.state = s ∧ o.output = [] := by
  simp [Quiet]

@[simp] theorem quiet_none {s : Controller} : ¬Quiet s none := by
  simp [Quiet]

/-- A candidate string that changes nothing: there is none, there is no such
link, the link has its candidates, or no candidate can be read. -/
def CandidatesIdle (L : Libjingle.Api) (m : Manager) (uid cas : Bytes) : Prop :=
  cas = [] ∨ m.uidMap uid = none ∨ ∃ p, m.uidMap uid = some (some p) ∧
    (p.candidates ≠ [] ∨
      readCandidates L (IStream.ofBytes cas) [] = [] ∧ m.transports p.transport ≠ none)

/-- What the state has to be for a request to have no effect. -/
def Idle (libs : Libs) (s : Controller) (root : Json.Value) (addr : SocketAddress) : RpcCall → Prop
  | .registerSvc => ∃ user pass host port, libs.json.string root (bytes "username") = some user ∧
      libs.json.string root (bytes "password") = some pass ∧
      libs.json.string root (bytes "host") = some host ∧ requestedPort libs root = some port ∧
      s.network.refuses user pass s.manager.tincanId host = true
  | .createLink => ∃ r cas, createLinkRequest libs root = some (r, cas) ∧
      r.refused s.manager = true ∧ CandidatesIdle libs.jingle s.manager r.uid cas
  | .setLocalIp => ∃ uid, libs.json.string root (bytes "uid") = some uid ∧
      (∃ ip4, libs.json.string root (bytes "ip4") = some ip4) ∧
      (∃ ip6, libs.json.string root (bytes "ip6") = some ip6) ∧
      (∃ mask, libs.json.int root (bytes "ip4_mask") = some mask) ∧
      (∃ mask, libs.json.int root (bytes "ip6_mask") = some mask) ∧
      (∃ mask, libs.json.int root (bytes "subnet_mask") = some mask) ∧
      (∃ mode, libs.json.int root (bytes "switchmode") = some mode) ∧
      (s.manager.tincanId ≠ [] ∨ uid.length ≠ kIdSize)
  | .setRemoteIp => ∃ uid ip4 ip6, libs.json.string root (bytes "uid") = some uid ∧
      libs.json.string root (bytes "ip4") = some ip4 ∧
      libs.json.string root (bytes "ip6") = some ip6 ∧
      (ip4 = [] ∨ ip6 = [] ∨ uid.length ≠ kIdSize ∨ s.manager.ipMap uid ≠ none)
  | .trimLink => ∃ uid, libs.json.string root (bytes "uid") = some uid ∧ s.manager.uidMap uid = none
  | .setCbEndpoint => ∃ ip port, libs.json.string root (bytes "ip") = some ip ∧
      libs.json.int root (bytes "port") = some port ∧
      endpoint libs s.remoteAddr addr ip port = s.remoteAddr ∧ s.manager.forwardAddr = s.remoteAddr
  | .getState => False
  | .setLogging => ∃ logging, libs.json.int root (bytes "logging") = some logging ∧
      (severity logging = none ∨ severity logging = some s.logging)
  | .setTranslation => libs.json.int root (bytes "translate") = some s.opts.translate
  | .setSwitchmode => libs.json.int root (bytes "switchmode") = some s.opts.switchmode
  | .setTrimpolicy => libs.json.bool root (bytes "trim_enabled") = some s.manager.trimEnabled
  | .echoRequest => False
  | .echoReply => True
  | .setNetworkIgnoreList => ∃ list, libs.json.index root (bytes "network_ignore_list") = some list ∧
      (libs.json.isArray list = true →
        (List.range (libs.json.size list)).mapM (fun i =>
          (libs.json.item list i).bind libs.json.asString) = some s.manager.networkIgnoreList)
  | .unknown => ∃ uid, libs.json.string root (bytes "uid") = some uid ∧
      (∃ overlayId, libs.json.int root (bytes "overlay_id") = some overlayId) ∧
      (∃ data, libs.json.string root (bytes "data") = some data) ∧
      (s.network.xmppState ≠ .stateOpen ∨ s.network.tincanTask = none ∨ s.network.gUidMap uid = none)

section

variable {libs : Libs} {env : Env} {s : Controller} {root : Json.Value} {addr : SocketAddress}

theorem sendTo_ne_nil (pv : Bytes) (h : addr.family ≠ .unspec) : sendTo env pv addr ≠ [] := by
  unfold sendTo
  split
  · simp
  · simp
  · next hf => exact absurd hf h

theorem quiet_registerSvc : Quiet s (registerSvc libs s root) ↔ Idle libs s root addr .registerSvc := by
  have hlogin : ∀ user pass host port,
      { s with network := (s.network.login libs.jingle libs.xmpp user pass s.manager.tincanId
        host port).1 } = s ↔ s.network.refuses user pass s.manager.tincanId host = true := by
    intro user pass host port
    unfold XmppNetwork.Network.login
    cases hr : s.network.refuses user pass s.manager.tincanId host with
    | true => simp
    | false =>
      simp only [Bool.false_eq_true, ↓reduceIte, iff_false]
      intro h
      have hnone : s.network.pump = none := by
        simp only [XmppNetwork.Network.refuses, Bool.or_eq_false_iff] at hr
        simpa using hr.1.1.1.1
      have hpump := congrArg (fun c => c.network.pump) h
      simp [XmppNetwork.Network.connect, hnone] at hpump
  simp only [registerSvc, Option.bind_eq_bind, quiet_bind, quiet_some, Idle, hlogin, and_true]
  constructor
  · rintro ⟨user, hu, pass, hp, host, hh, port, hport, hr⟩
    exact ⟨user, pass, host, port, hu, hp, hh, hport, hr⟩
  · rintro ⟨user, pass, host, port, hu, hp, hh, hport, hr⟩
    exact ⟨user, hu, pass, hp, host, hh, port, hport, hr⟩

theorem quiet_setLocalIp : Quiet s (setLocalIp libs env s root) ↔ Idle libs s root addr .setLocalIp := by
  have hsetup : ∀ r : SetupRequest,
      ({ s with manager := (setup libs.jingle env.memory s.manager r).1 } = s ∧
        (setup libs.jingle env.memory s.manager r).2.map Effect.tap = []) ↔
      (s.manager.tincanId ≠ [] ∨ r.uid.length ≠ kIdSize) := by
    intro r
    by_cases h : s.manager.tincanId ≠ [] ∨ r.uid.length ≠ kIdSize
    · simp [setup, h]
    · simp [setup, h]
  simp only [setLocalIp, Option.bind_eq_bind, quiet_bind, quiet_some, Idle, hsetup]
  constructor
  · rintro ⟨uid, hu, ip4, h4, ip6, h6, m4, hm4, m6, hm6, sm, hsm, mode, hmode, h⟩
    exact ⟨uid, hu, ⟨ip4, h4⟩, ⟨ip6, h6⟩, ⟨m4, hm4⟩, ⟨m6, hm6⟩, ⟨sm, hsm⟩, ⟨mode, hmode⟩, h⟩
  · rintro ⟨uid, hu, ⟨ip4, h4⟩, ⟨ip6, h6⟩, ⟨m4, hm4⟩, ⟨m6, hm6⟩, ⟨sm, hsm⟩, ⟨mode, hmode⟩, h⟩
    exact ⟨uid, hu, ip4, h4, ip6, h6, m4, hm4, m6, hm6, sm, hsm, mode, hmode, h⟩

theorem quiet_setRemoteIp : Quiet s (setRemoteIp libs env s root) ↔ Idle libs s root addr .setRemoteIp := by
  have hadd : ∀ uid ip4 ip6,
      ({ s with manager := (addIPMapping libs.jingle env.memory s.manager uid ip4 ip6).1 } = s ∧
        (addIPMapping libs.jingle env.memory s.manager uid ip4 ip6).2.2.map Effect.tap = []) ↔
      (ip4 = [] ∨ ip6 = [] ∨ uid.length ≠ kIdSize ∨ s.manager.ipMap uid ≠ none) := by
    intro uid ip4 ip6
    simp only [← Option.isSome_iff_ne_none]
    by_cases h : ip4 = [] ∨ ip6 = [] ∨ uid.length ≠ kIdSize ∨ (s.manager.ipMap uid).isSome
    · simp [addIPMapping, h]
    · simp [addIPMapping, h]
  simp only [setRemoteIp, Option.bind_eq_bind, quiet_bind, quiet_some, Idle, hadd]
  constructor
  · rintro ⟨uid, hu, ip4, h4, ip6, h6, h⟩
    exact ⟨uid, ip4, ip6, hu, h4, h6, h⟩
  · rintro ⟨uid, ip4, ip6, hu, h4, h6, h⟩
    exact ⟨uid, hu, ip4, h4, ip6, h6, h⟩

theorem quiet_trimLink : Quiet s (trimLink libs s root) ↔ Idle libs s root addr .trimLink := by
  have hdestroy : ∀ uid, Quiet s ((destroyTransport s.manager uid).bind (fun x =>
      some ⟨{ s with manager := x.1 }, [], x.2.2.map .shortUidMap⟩)) ↔ s.manager.uidMap uid = none := by
    intro uid
    unfold destroyTransport
    cases hu : s.manager.uidMap uid with
    | none => simp
    | some q =>
      cases q with
      | none => simp
      | some p =>
        simp only [Option.bind_some, quiet_some, and_true, reduceCtorEq, iff_false]
        intro h
        have hgone := congrArg (fun c => c.manager.uidMap uid) h
        rw [hu] at hgone
        simp [releasePeer] at hgone
  simp only [trimLink, Option.bind_eq_bind, quiet_bind, Idle]
  simp only [← quiet_bind, hdestroy]

theorem quiet_setCbEndpoint :
    Quiet s (setCbEndpoint libs s root addr) ↔ Idle libs s root addr .setCbEndpoint := by
  simp only [setCbEndpoint, Option.bind_eq_bind, quiet_bind, quiet_some, Idle, and_true]
  constructor
  · rintro ⟨ip, hip, port, hport, h⟩
    have hremote := congrArg Controller.remoteAddr h
    have hforward := congrArg (fun c => c.manager.forwardAddr) h
    exact ⟨ip, port, hip, hport, hremote, hforward.symm.trans hremote⟩
  · rintro ⟨ip, port, hip, hport, hremote, hforward⟩
    have hmanager : { s.manager with forwardAddr := s.remoteAddr } = s.manager := by
      rw [← hforward]
    exact ⟨ip, hip, port, hport, by rw [hremote, hmanager]⟩

theorem quiet_setLogging : Quiet s (setLogging libs s root) ↔ Idle libs s root addr .setLogging := by
  have hlevel : ∀ level : Option LoggingSeverity,
      { s with logging := level.getD s.logging } = s ↔ level = none ∨ level = some s.logging := by
    intro level
    constructor
    · intro h
      have hl : level.getD s.logging = s.logging := congrArg Controller.logging h
      cases level with
      | none => exact .inl rfl
      | some level => exact .inr (congrArg some hl)
    · rintro (rfl | rfl) <;> rfl
  simp only [setLogging, Option.bind_eq_bind, quiet_bind, quiet_some, Idle, and_true, hlevel]

theorem quiet_setTranslation :
    Quiet s (setTranslation libs s root) ↔ Idle libs s root addr .setTranslation := by
  simp only [setTranslation, Option.bind_eq_bind, quiet_bind, quiet_some, Idle, and_true]
  constructor
  · rintro ⟨translate, ht, h⟩
    have hsame : translate = s.opts.translate := congrArg (fun c => c.opts.translate) h
    rw [ht, hsame]
  · intro h
    exact ⟨_, h, rfl⟩

theorem quiet_setSwitchmode :
    Quiet s (setSwitchmode libs s root) ↔ Idle libs s root addr .setSwitchmode := by
  simp only [setSwitchmode, Option.bind_eq_bind, quiet_bind, quiet_some, Idle, and_true]
  constructor
  · rintro ⟨switchmode, ht, h⟩
    have hsame : switchmode = s.opts.switchmode := congrArg (fun c => c.opts.switchmode) h
    rw [ht, hsame]
  · intro h
    exact ⟨_, h, rfl⟩

theorem quiet_setTrimpolicy :
    Quiet s (setTrimpolicy libs s root) ↔ Idle libs s root addr .setTrimpolicy := by
  simp only [setTrimpolicy, Option.bind_eq_bind, quiet_bind, quiet_some, Idle, and_true]
  constructor
  · rintro ⟨trim, ht, h⟩
    have hsame : trim = s.manager.trimEnabled := congrArg (fun c => c.manager.trimEnabled) h
    rw [ht, hsame]
  · intro h
    exact ⟨_, h, rfl⟩

theorem quiet_setNetworkIgnoreList :
    Quiet s (setNetworkIgnoreList libs s root) ↔ Idle libs s root addr .setNetworkIgnoreList := by
  simp only [setNetworkIgnoreList, Option.bind_eq_bind, quiet_bind, Idle]
  refine exists_congr fun list => and_congr_right fun _ => ?_
  cases hlist : libs.json.isArray list with
  | false => simp
  | true =>
    simp only [↓reduceIte, quiet_bind, quiet_some, and_true, forall_const]
    constructor
    · rintro ⟨names, hn, h⟩
      have hsame : names = s.manager.networkIgnoreList :=
        congrArg (fun c => c.manager.networkIgnoreList) h
      rw [hn, hsame]
    · intro h
      exact ⟨_, h, rfl⟩

theorem quiet_relay (method : Bytes) :
    Quiet s (relay libs s root method) ↔ Idle libs s root addr .unknown := by
  have hsend : ∀ uid data, (s.network.sendToPeer libs.xmpp uid data method).map Effect.stanza = [] ↔
      (s.network.xmppState ≠ .stateOpen ∨ s.network.tincanTask = none ∨ s.network.gUidMap uid = none) := by
    intro uid data
    rw [List.map_eq_nil_iff]
    unfold XmppNetwork.Network.sendToPeer XmppNetwork.taskSendToPeer
    cases s.network.tincanTask <;> cases s.network.gUidMap uid <;> simp
  simp only [relay, Option.bind_eq_bind, quiet_bind, quiet_some, Idle, true_and, hsend]
  constructor
  · rintro ⟨overlayId, ho, uid, hu, data, hd, h⟩
    exact ⟨uid, hu, ⟨overlayId, ho⟩, ⟨data, hd⟩, h⟩
  · rintro ⟨uid, hu, ⟨overlayId, ho⟩, ⟨data, hd⟩, h⟩
    exact ⟨overlayId, ho, uid, hu, data, hd, h⟩

theorem giveCandidates_idle_iff (m : Manager) (uid cas : Bytes) :
    giveCandidates libs m uid cas = some m ↔ CandidatesIdle libs.jingle m uid cas := by
  unfold giveCandidates CandidatesIdle createConnections
  cases cas with
  | nil => simp
  | cons b cas =>
    simp only [List.isEmpty_cons, Bool.false_eq_true, ↓reduceIte, reduceCtorEq, false_or]
    cases hu : m.uidMap uid with
    | none => simp
    | some q =>
      cases q with
      | none => simp
      | some p =>
        by_cases hp : p.candidates = []
        · cases ht : m.transports p.transport with
          | none => simp [hp, ht]
          | some tr =>
            simp only [hp, ht, ne_eq, not_true_eq_false, ↓reduceIte, Option.map_some, Option.some.injEq,
              reduceCtorEq, false_or, exists_eq_left', not_false_eq_true, and_true]
            constructor
            · intro h
              have hlink := congrArg (fun m => m.uidMap uid) h
              simp only [PartialMap.insert_self, hu, Option.some.injEq] at hlink
              have hcas := congrArg PeerState.candidates hlink
              exact hcas.trans hp
            · intro h
              have hsame : { p with candidates := [] } = p := by
                rw [← hp]
              rw [h, List.append_nil, hsame, PartialMap.insert_of_mem hu, PartialMap.insert_of_mem ht]
        · simp [hp]

theorem createTransport_keyed {L : Libjingle.Api} {m : Manager} {r : CreateRequest} (f : Fresh)
    (hr : r.refused m = false) : (createTransport L m r f).1.uidMap r.uid ≠ none := by
  obtain ⟨hrefused, _⟩ | ⟨_, tr, hm⟩ := createTransport_cases L m r f
  · exact absurd (hrefused.symm.trans hr) Bool.true_eq_false_eq_False
  · rw [hm]
    simp

theorem giveCandidates_keyed {m m' : Manager} {uid cas : Bytes}
    (h : giveCandidates libs m uid cas = some m') (hm : m.uidMap uid ≠ none) :
    m'.uidMap uid ≠ none := by
  obtain rfl | ⟨p, tr, candidates, _, _, _, rfl⟩ := giveCandidates_cases h
  · exact hm
  · simp

theorem quiet_createLink : Quiet s (createLink libs env s root) ↔ Idle libs s root addr .createLink := by
  simp only [createLink, Option.bind_eq_bind, quiet_bind, quiet_some, Idle, Prod.exists, and_true]
  refine exists_congr fun r => exists_congr fun cas => and_congr_right fun _ => ?_
  rw [← giveCandidates_idle_iff]
  cases hr : r.refused s.manager with
  | true =>
    have hsame : createTransport libs.jingle s.manager r env.fresh = (s.manager, false, []) := by
      simp [createTransport, hr]
    rw [hsame]
    constructor
    · rintro ⟨m, hm, h⟩
      have hmanager : m = s.manager := congrArg Controller.manager h
      exact ⟨rfl, hmanager ▸ hm⟩
    · rintro ⟨_, hm⟩
      exact ⟨_, hm, rfl⟩
  | false =>
    simp only [Bool.false_eq_true, false_and, iff_false]
    rintro ⟨m, hm, h⟩
    have hmanager : m = s.manager := congrArg Controller.manager h
    have hkeyed := giveCandidates_keyed hm (createTransport_keyed env.fresh hr)
    have hnone : s.manager.uidMap r.uid = none := by
      simp only [CreateRequest.refused, Bool.or_eq_false_iff] at hr
      simpa using hr.1
    exact hkeyed (hmanager ▸ hnone)

theorem quiet_dispatch (method : Bytes) (call : RpcCall) (haddr : addr.family ≠ .unspec) :
    Quiet s (dispatch libs env s root method addr call) ↔ Idle libs s root addr call := by
  cases call with
  | unknown => exact quiet_relay method
  | registerSvc => exact quiet_registerSvc
  | createLink => exact quiet_createLink
  | setLocalIp => exact quiet_setLocalIp
  | setRemoteIp => exact quiet_setRemoteIp
  | trimLink => exact quiet_trimLink
  | setCbEndpoint => exact quiet_setCbEndpoint
  | getState =>
    -- The answer about the node itself is always sent.
    simp only [dispatch, getStateCall, sendState, Option.bind_eq_bind, quiet_bind, quiet_some, Idle,
      iff_false]
    rintro ⟨uid, _, getStats, _, output, ho, _, hnil⟩
    rw [Option.map_eq_some_iff] at ho
    obtain ⟨peers, _, rfl⟩ := ho
    exact sendTo_ne_nil _ haddr (List.append_eq_nil_iff.mp hnil).1
  | setLogging => exact quiet_setLogging
  | setTranslation => exact quiet_setTranslation
  | setSwitchmode => exact quiet_setSwitchmode
  | setTrimpolicy => exact quiet_setTrimpolicy
  | echoRequest =>
    simp only [dispatch, echoRequest, Option.bind_eq_bind, quiet_bind, quiet_some, Idle, iff_false]
    rintro ⟨msg, _, _, hnil⟩
    exact sendTo_ne_nil _ haddr hnil
  | echoReply => simp [dispatch, Idle]
  | setNetworkIgnoreList => exact quiet_setNetworkIgnoreList

end

/-- A datagram that the code finds fault with: its version, its type, or a
text that the reader rejects. -/
def Diagnosed (libs : Libs) (d : Datagram) : Prop :=
  d.buffer 0 ≠ kIpopVer ∨
  (d.buffer 1 ≠ kTincanControl ∧ d.buffer 1 ≠ kTincanPacket ∧ d.buffer 1 ≠ kICCControl ∧
    d.buffer 1 ≠ kICCPacket) ∨
  ∃ message, d.message = some message ∧ (libs.json.parse message).1 = false

def errorReply (libs : Libs) (env : Env) (d : Datagram) : List Effect :=
  match d.message.map libs.json.parse with
  | some (false, _) => sendTo env parsingFailed d.addr
  | _ => []

/-- Lines in the log and the error reply are the only effects. -/
def Harmless (libs : Libs) (env : Env) (s : Controller) (d : Datagram) : Prop :=
  ∃ o, handlePacket libs env s d = some o ∧ o.state = s ∧ o.output = errorReply libs env d

/-- The datagram gets as far as its text, which can be taken out of the buffer
and names a method of the dispatch table that has nothing to do. -/
def FindsNothingToDo (libs : Libs) (s : Controller) (d : Datagram) : Prop :=
  d.buffer 1 ≠ kTincanPacket ∧ d.buffer 1 ≠ kICCControl ∧ d.buffer 1 ≠ kICCPacket ∧
    ∃ message method call, d.message = some message ∧
      libs.json.string (libs.json.parse message).2 (bytes "m") = some method ∧
      s.rpcCalls method = some call ∧ Idle libs s (libs.json.parse message).2 d.addr call

theorem dispatch_unknown_state {libs : Libs} {env : Env} {s : Controller} {root : Json.Value}
    {method : Bytes} {addr : SocketAddress} {o : ControllerAccess.Outcome}
    (h : dispatch libs env s root method addr .unknown = some o) : o.state = s := by
  simp only [dispatch, relay, Option.bind_eq_bind, Option.bind_eq_some_iff, Option.some.injEq] at h
  obtain ⟨_, _, _, _, _, _, rfl⟩ := h
  rfl

theorem handleRequest_iff (libs : Libs) (env : Env) (s : Controller) (d : Datagram) :
    (∃ o, handleRequest libs env s d = some o ∧ o.state = s ∧ o.output = errorReply libs env d) ↔
      ∃ message method, d.message = some message ∧
        libs.json.string (libs.json.parse message).2 (bytes "m") = some method ∧
        ∃ o, dispatch libs env
            { s with rpcCalls := (s.rpcCalls.index method .unknown).2 } (libs.json.parse message).2
            method d.addr (s.rpcCalls.index method .unknown).1 = some o ∧ o.state = s ∧ o.output = [] := by
  have hfailed : parsingFailed ≠ [] := by decide
  constructor
  · rintro ⟨o, ho, hstate, hout⟩
    simp only [handleRequest, Option.bind_eq_bind, Option.bind_eq_some_iff] at ho
    obtain ⟨message, hmsg, method, hmethod, o', hd, ho⟩ := ho
    refine ⟨message, method, hmsg, hmethod, o', hd, ?_⟩
    rw [errorReply, hmsg, Option.map_some] at hout
    cases haccepted : (libs.json.parse message).1 with
    | true =>
      have hpair : libs.json.parse message = (true, (libs.json.parse message).2) := by rw [← haccepted]
      rw [hpair] at hout
      simp only [haccepted, ↓reduceIte, Option.some.injEq] at ho
      subst ho
      exact ⟨hstate, hout⟩
    | false =>
      have hpair : libs.json.parse message = (false, (libs.json.parse message).2) := by rw [← haccepted]
      rw [hpair] at hout
      simp only [haccepted, Bool.false_eq_true, ↓reduceIte, hfailed, Option.some.injEq] at ho
      subst ho
      exact ⟨hstate, by simpa using hout⟩
  · rintro ⟨message, method, hmsg, hmethod, o, hd, hstate, hout⟩
    rw [errorReply, hmsg, Option.map_some]
    cases haccepted : (libs.json.parse message).1 with
    | true =>
      have hpair : libs.json.parse message = (true, (libs.json.parse message).2) := by rw [← haccepted]
      refine ⟨o, ?_, hstate, by rw [hpair]; exact hout⟩
      simp [handleRequest, hmsg, hmethod, hd, haccepted]
    | false =>
      have hpair : libs.json.parse message = (false, (libs.json.parse message).2) := by rw [← haccepted]
      refine ⟨{ o with output := o.output ++ sendTo env parsingFailed d.addr }, ?_, hstate, ?_⟩
      · simp [handleRequest, hmsg, hmethod, hd, haccepted, hfailed]
      · rw [hpair, hout]
        rfl

theorem packet_not_harmless {libs : Libs} {env : Env} {s : Controller} {d : Datagram}
    (h : d.buffer 1 = kTincanPacket ∨ d.buffer 1 = kICCControl ∨ d.buffer 1 = kICCPacket) :
    ¬Harmless libs env s d := by
  rintro ⟨o, ho, hstate, _⟩
  have hgrows : ∀ (q : PacketPath.WQueue Bytes) p, q.add p ≠ q := by
    intro q p hq
    have hl := congrArg List.length hq
    simp [PacketPath.WQueue.add] at hl
  unfold handlePacket at ho
  dsimp only at ho
  split at ho
  · rw [Option.map_eq_some_iff] at ho
    obtain ⟨p, _, rfl⟩ := ho
    exact hgrows _ p (congrArg Controller.recvQueue hstate)
  · next hnot =>
    rw [if_pos (h.resolve_left hnot), Option.map_eq_some_iff] at ho
    obtain ⟨p, _, rfl⟩ := ho
    exact hgrows _ p (congrArg Controller.sendQueue hstate)

theorem harmless_of_control {libs : Libs} {env : Env} {s : Controller} {d : Datagram}
    (htincan : d.buffer 1 ≠ kTincanPacket) (hicc : ¬(d.buffer 1 = kICCControl ∨ d.buffer 1 = kICCPacket)) :
    Harmless libs env s d ↔
      ∃ o, handleRequest libs env s d = some o ∧ o.state = s ∧ o.output = errorReply libs env d := by
  unfold Harmless handlePacket
  dsimp only
  rw [if_neg htincan, if_neg hicc]
  constructor
  · rintro ⟨o, ho, hstate, hout⟩
    rw [Option.map_eq_some_iff] at ho
    obtain ⟨o', ho', rfl⟩ := ho
    exact ⟨o', ho', hstate, hout⟩
  · rintro ⟨o, ho, hstate, hout⟩
    rw [ho]
    exact ⟨_, rfl, hstate, hout⟩

/-- A datagram does nothing beyond the log and the error reply exactly when
the branch that it still gets to finds nothing to do. In particular this holds
of the datagrams the code finds fault with. -/
theorem harmless_iff (libs : Libs) (env : Env) (s : Controller) (d : Datagram) :
    Harmless libs env s d ↔ FindsNothingToDo libs s d := by
  by_cases hpacket : d.buffer 1 = kTincanPacket ∨ d.buffer 1 = kICCControl ∨ d.buffer 1 = kICCPacket
  · have hnot : ¬Harmless libs env s d := packet_not_harmless hpacket
    simp only [hnot, false_iff]
    rintro ⟨h₂, h₃, h₄, _⟩
    obtain h | h | h := hpacket
    · exact h₂ h
    · exact h₃ h
    · exact h₄ h
  · simp only [not_or] at hpacket
    obtain ⟨h₂, h₃, h₄⟩ := hpacket
    rw [harmless_of_control h₂ (by simp [h₃, h₄]), handleRequest_iff]
    unfold FindsNothingToDo
    simp only [ne_eq, h₂, h₃, h₄, not_false_eq_true, true_and]
    refine exists_congr fun message => exists_congr fun method => ?_
    cases hcall : s.rpcCalls method with
    | some call =>
      have hindex := PartialMap.index_of_mem RpcCall.unknown hcall
      have hquiet : Quiet s (dispatch libs env s (libs.json.parse message).2 method d.addr call) ↔
          Idle libs s (libs.json.parse message).2 d.addr call := quiet_dispatch method call d.family
      simp only [hindex, Option.some.injEq, exists_and_left, exists_eq_left']
      rw [← hquiet]
      rfl
    | none =>
      -- An unknown method is entered into the dispatch table.
      simp only [reduceCtorEq, false_and, and_false, exists_false, iff_false]
      rintro ⟨_, _, o, hd, hstate, _⟩
      have hindex : s.rpcCalls.index method RpcCall.unknown =
          (.unknown, s.rpcCalls.insert method .unknown) := by
        simp [PartialMap.index, hcall]
      rw [hindex] at hd
      have hsame := dispatch_unknown_state hd
      rw [hstate] at hsame
      have hentry := congrArg (fun c => c.rpcCalls method) hsame
      simp [hcall] at hentry

def trimText : Bytes := bytes "\x7b\"m\":\"trim_link\",\"uid\":\"b\"\x7d"

def trimValue : Json.Value :=
  .object [(bytes "m", .string (bytes "trim_link")), (bytes "uid", .string (bytes "b"))]

def trimLibs : Libs := sampleLibs [(linkText [49], linkValue 1), (trimText, trimValue)]

def oldDatagram : Datagram := datagramOf (2 :: kTincanControl :: trimText)

/-- The version is found to be wrong, and the link is destroyed all the same. -/
theorem old_version_trims_link :
    ∃ s, Reachable (Steps (step trimLibs)) Initial s ∧ s.crashed = false ∧
      Diagnosed trimLibs oldDatagram ∧ s.controller.manager.uidMap (bytes "b") ≠ none ∧
      (∃ o, handlePacket trimLibs sampleEnv s.controller oldDatagram = some o ∧
        o.log = [.versionMismatch 2] ∧ o.state.manager.uidMap (bytes "b") = none) ∧
      ¬Harmless trimLibs sampleEnv s.controller oldDatagram := by
  have hrun : ∃ s o, step trimLibs startState (.datagram sampleEnv (linkDatagram 49)) = some s ∧ s.crashed = false ∧
      (s.controller.manager.uidMap (bytes "b")).isSome = true ∧
      handlePacket trimLibs sampleEnv s.controller oldDatagram = some o ∧
      o.log = [.versionMismatch 2] ∧ o.state.manager.uidMap (bytes "b") = none :=
    ⟨_, _, rfl, rfl, rfl, rfl, rfl, rfl⟩
  obtain ⟨s, o, hs, hcrashed, hlink, ho, hlog, hgone⟩ := hrun
  have hkeyed : s.controller.manager.uidMap (bytes "b") ≠ none := Option.isSome_iff_ne_none.mp hlink
  refine ⟨s, reachable_step (reachable_init startState_initial) hs, hcrashed, .inl (by decide), hkeyed,
    ⟨o, ho, hlog, hgone⟩, ?_⟩
  rintro ⟨o', ho', hstate, _⟩
  rw [ho] at ho'
  cases ho'
  exact hkeyed (hstate ▸ hgone)

end Tincan.BadDatagrams
