import Tincan.Process
import Tincan.Routes

namespace Tincan.Signalling

open Tincan.Library Tincan.Library.Text Tincan.Library.Runs Tincan.Libjingle Tincan.Utils Tincan.Xmpp
open Tincan.ConnectionManager Tincan.XmppNetwork Tincan.ControllerAccess Tincan.Process
open Tincan.Routes (uidA uidB)

def HexUid (uid : Bytes) : Prop := uid.length = kIdSize ∧ ∀ c ∈ uid, c ∈ bytes "0123456789abcdefABCDEF"

/-- The text of a full JID that is read back as it is. -/
structure Readable (X : Xmpp.Api) (j : Jid) : Prop where
  jid : X.jid j.full = j
  node : 47 ∉ j.node
  domain : 47 ∉ j.domain
  length_lt : j.full.length < 2 ^ 63

/-- The sender has a resource of this program. -/
def FromNode (X : Xmpp.Api) (stanza : Stanza) : Prop := kXmppPrefix <+: (X.jid stanza.sender).resource

/-- The sender has logged in with this identifier. -/
def FromUid (X : Xmpp.Api) (uid : Bytes) (stanza : Stanza) : Prop :=
  kXmppPrefix ++ uid <+: (X.jid stanza.sender).resource

/-- A stanza of another node bears the full JID of its sender. -/
def Genuine (X : Xmpp.Api) (stanza : Stanza) : Prop :=
  FromNode X stanza → ∃ j, Readable X j ∧ stanza.sender = j.full

def Stamps (X : Xmpp.Api) (_ : Process.State) : Event → Prop
  | .stanza stanza => Genuine X stanza
  | _ => True

/-- The server binds the resource that was asked for, followed by any suffix. -/
def Binds (X : Xmpp.Api) (s : Process.State) : Event → Prop
  | .stateChange jid .stateOpen => Readable X jid ∧ s.controller.network.xcs.resource <+: jid.resource
  | _ => True

/-- `Login` has just returned true for this identifier. -/
def LoggedIn (libs : Libs) (pcid : Bytes) (n : Network) : Prop :=
  ∃ before user pass host port,
    Network.login libs.jingle libs.xmpp before user pass pcid host port = (n, true)

/-- What a node makes of a stanza: it is queued, and the `ProcessStart` that
takes it passes these arguments to `DoHandlePeer` and so to the controller. -/
structure HandsOver (libs : Libs) (r : Process.State) (stanza : Stanza) (uid data type : Bytes) :
    Prop where
  queued : ∀ number stanzas, r.controller.network.tincanTask = some ⟨number, stanzas⟩ →
    ∃ r', step libs r (.stanza stanza) = some r' ∧
      r'.controller.network.tincanTask = some ⟨number, stanzas ++ [stanza]⟩
  handed : ∀ env number stanzas,
    r.controller.network.tincanTask = some ⟨number, stanza :: stanzas⟩ →
    ∃ n r', r.controller.network.processStart libs.xmpp env.fresh.now = some (n, some (uid, data, type)) ∧
      step libs r (.processStart env) = some r' ∧
      r'.calls = r.calls ++ [(⟨kLocalControllerId, uid, data, type⟩, some .controller)] ∧
      r'.sent = r.sent ++ ControllerAccess.sendToPeer libs env r'.controller uid data type

/-- The recipient of an IQ and what it gets. The server writes the full JID of
the sender on it. -/
def delivered (j : Jid) : Xmpp.Output → Option (Jid × Stanza)
  | .iq type recipient query => some (recipient, ⟨.iq, type, j.full, some query⟩)
  | .presence _ => none

section

variable {X : Xmpp.Api} {j : Jid} {uid : Bytes} {stanza : Stanza}

theorem slash_not_mem_bare (hn : 47 ∉ j.node) (hd : 47 ∉ j.domain) : 47 ∉ j.bare := by
  unfold Jid.bare
  split
  · exact hd
  · simp [hn, hd]

theorem slash_not_mem_hexUid (h : HexUid uid) : 47 ∉ uid := by
  intro hs
  exact absurd (h.2 47 hs) (by decide)

theorem getKey_full {rest : Bytes} (hj : Readable X j) (hr : j.resource = kXmppPrefix ++ rest) :
    getKey j.full = if kIdSize ≤ rest.length then rest.take kIdSize else j.full := by
  have hfull : j.full = j.bare ++ 47 :: (kXmppPrefix ++ rest) := by
    rw [Jid.full, hr]
  have hfind : find j.full 47 = j.bare.length := by
    rw [hfull, find_append_cons _ (slash_not_mem_bare hj.node hj.domain)]
  have hsplit : j.full = (j.bare ++ 47 :: kXmppPrefix) ++ rest := by
    rw [hfull]
    simp
  have hlen : (j.bare ++ 47 :: kXmppPrefix).length = j.bare.length + sizeofXmppPrefix := by
    simp [sizeofXmppPrefix]
  have hshort := hj.length_lt
  have htotal : j.full.length = j.bare.length + sizeofXmppPrefix + rest.length := by
    rw [hsplit, List.length_append, hlen]
  have hsize : sizeofXmppPrefix = 7 := by rfl
  have hid : kIdSize = 40 := by rfl
  have hidx : (find j.full 47 + sizeofXmppPrefix) % 2 ^ 64 = (j.bare ++ 47 :: kXmppPrefix).length := by
    rw [hfind, hlen]
    exact Nat.mod_eq_of_lt (by omega)
  simp only [getKey, hidx]
  have hsub : substr j.full (j.bare ++ 47 :: kXmppPrefix).length kIdSize = rest.take kIdSize := by
    conv_lhs => rw [hsplit]
    exact substr_append_length _ _ _
  have hcond : ((j.bare ++ 47 :: kXmppPrefix).length + kIdSize) % 2 ^ 64 ≤ j.full.length ↔
      kIdSize ≤ rest.length := by
    rw [hlen, Nat.mod_eq_of_lt (by omega)]
    omega
  rw [hsub]
  simp only [hcond]

theorem getKey_full_eq (huid : uid.length = kIdSize) (hj : Readable X j)
    (hp : kXmppPrefix ++ uid <+: j.resource) : getKey j.full = uid := by
  obtain ⟨suffix, hs⟩ := hp
  rw [List.append_assoc] at hs
  rw [getKey_full hj hs.symm, if_pos (by simp [huid]), List.take_left' huid]

theorem getKey_eq_iff (huid : HexUid uid) (hj : Readable X j) (hp : kXmppPrefix <+: j.resource) :
    getKey j.full = uid ↔ kXmppPrefix ++ uid <+: j.resource := by
  constructor
  · intro h
    obtain ⟨rest, hr⟩ := hp
    rw [getKey_full hj hr.symm] at h
    split at h
    · rw [← hr, List.prefix_append_right_inj, ← h]
      exact List.take_prefix kIdSize rest
    · have hslash : (47 : Byte) ∈ j.full := by simp [Jid.full]
      rw [h] at hslash
      exact absurd hslash (slash_not_mem_hexUid huid)
  · exact getKey_full_eq huid.1 hj

theorem accepts_iff {me : Jid} :
    accepts X me stanza = true ↔ FromNode X stanza ∧ X.jid stanza.sender ≠ me := by
  have hsize : sizeofXmppPrefix - 1 = kXmppPrefix.length := rfl
  simp [accepts, FromNode, hsize, compareAt_zero_eq_iff]

/-- The invariant of the map: it was learnt from the accepted stanzas, and
these, like the ones that still wait, are genuine. -/
structure Learned (X : Xmpp.Api) (n : Network) (accepted : List Stanza) : Prop where
  queued : ∀ task, n.tincanTask = some task → ∀ stanza ∈ task.stanzas, Genuine X stanza
  taken : ∀ stanza ∈ accepted, FromNode X stanza ∧ Genuine X stanza
  gUidMap : n.gUidMap = accepted.foldl record PartialMap.empty

variable {libs : Libs} {n n' : Network} {s t : Process.State} {e : Event} {accepted taken : List Stanza}

theorem learned_processStart {now : Fin (2 ^ 32)} {call : Option (Bytes × Bytes × Bytes)}
    (h : Learned X n accepted) (hp : n.processStart X now = some (n', call)) :
    (∀ stanza ∈ accepted ++ (n.nextAccepted X).toList, FromNode X stanza ∧ Genuine X stanza) ∧
      n'.gUidMap = (accepted ++ (n.nextAccepted X).toList).foldl record PartialMap.empty := by
  obtain ⟨rfl, hnone⟩ | ⟨number, stanza, stanzas, presenceTime, ht, rfl⟩ := processStart_cases hp
  · rw [hnone, Option.toList_none, List.append_nil]
    exact ⟨h.taken, h.gUidMap⟩
  · constructor
    · intro st hst
      obtain hst | hst := List.mem_append.mp hst
      · exact h.taken st hst
      · simp only [Network.nextAccepted, ht, Option.mem_toList, Option.ite_none_right_eq_some,
          Option.some.injEq] at hst
        obtain ⟨ha, rfl⟩ := hst
        exact ⟨(accepts_iff.mp ha).1, h.queued _ ht _ List.mem_cons_self⟩
    · rw [List.foldl_append, ← h.gUidMap]

theorem learned_step (h : Learned libs.xmpp n accepted) (hg : Stamps libs.xmpp s e)
    (hst : NetworkStep libs n e n' taken) : Learned libs.xmpp n' (accepted ++ taken) := by
  have hqueued : ∀ task, n'.tincanTask = some task → ∀ stanza ∈ task.stanzas, Genuine libs.xmpp stanza := by
    refine hst.waiting ?_ h.queued
    rintro stanza rfl _
    exact hg
  cases hst with
  | same e => rwa [List.append_nil]
  | login env d user pass pcid host port =>
    rw [List.append_nil]
    refine ⟨hqueued, h.taken, ?_⟩
    unfold Network.login
    split <;> exact h.gUidMap
  | stateChange jid state hp =>
    rw [List.append_nil]
    cases state <;> exact ⟨hqueued, h.taken, h.gUidMap⟩
  | timer anyChildError =>
    rw [List.append_nil]
    exact ⟨hqueued, h.taken, (onMessage_kept n anyChildError).gUidMap.trans h.gUidMap⟩
  | stanza stanza =>
    rw [List.append_nil]
    refine ⟨hqueued, h.taken, ?_⟩
    unfold Network.handleStanza
    split <;> exact h.gUidMap
  | processStart hp =>
    obtain ⟨htaken, hmap⟩ := learned_processStart h hp
    exact ⟨hqueued, htaken, hmap⟩

theorem learned_of_reachable
    (h : Reachable (Guarded (Stamps libs.xmpp) (Steps (step libs))) Initial s) :
    Learned libs.xmpp s.controller.network s.accepted := by
  refine reachable_invariant (P := fun s => Learned libs.xmpp s.controller.network s.accepted) ?_ ?_ h
  · rintro s ⟨tiebreaker, kTapName, ip4, mac, logging, xmppState, onMsgCounter, rfl⟩
    refine ⟨?_, ?_, rfl⟩
    · intro task htask
      cases htask
    · intro st hst
      cases hst
  · rintro s e t hs ⟨hg, hst⟩
    obtain ⟨taken, haccepted, hnet⟩ := networkStep_of_step hst
    rw [haccepted]
    exact learned_step hs hg hnet

theorem getKey_sender_eq_iff (huid : HexUid uid) (hf : FromNode X stanza) (hg : Genuine X stanza) :
    getKey stanza.sender = uid ↔ FromUid X uid stanza := by
  obtain ⟨j, hj, hs⟩ := hg hf
  have hjid : X.jid stanza.sender = j := by
    rw [hs, hj.jid]
  have hp : kXmppPrefix <+: j.resource := by
    have hp := hf
    rwa [FromNode, hjid] at hp
  rw [FromUid, hjid, hs]
  exact getKey_eq_iff huid hj hp

theorem taskSendToPeer_cases (h : Learned X n accepted) (huid : HexUid uid) (data type : Bytes) :
    ((∀ stanza ∈ accepted, ¬FromUid X uid stanza) ∧ taskSendToPeer X n.gUidMap uid data type = []) ∨
      ∃ earlier stanza later, accepted = earlier ++ stanza :: later ∧ FromUid X uid stanza ∧
        (∀ st ∈ later, ¬FromUid X uid st) ∧
        taskSendToPeer X n.gUidMap uid data type =
          [.iq strGet (X.jid stanza.sender) ⟨some data, some type⟩] := by
  have hkey : ∀ st ∈ accepted, getKey st.sender = uid ↔ FromUid X uid st := by
    intro st hst
    exact getKey_sender_eq_iff huid (h.taken st hst).1 (h.taken st hst).2
  have hmap : n.gUidMap uid = accepted.foldl
      (fun m st => m.insert (getKey st.sender) st.sender) PartialMap.empty uid := by
    rw [h.gUidMap]
    rfl
  obtain ⟨hne, hnone⟩ | ⟨earlier, st, later, hsplit, hst, hlater, hsome⟩ :=
    PartialMap.foldl_insert_cases (fun st : Stanza => getKey st.sender) Stanza.sender PartialMap.empty
      accepted uid
  · refine .inl ⟨?_, ?_⟩
    · intro st hst hfrom
      exact hne st hst ((hkey st hst).mpr hfrom)
    · rw [taskSendToPeer, hmap, hnone]
      rfl
  · refine .inr ⟨earlier, st, later, hsplit, (hkey st (by simp [hsplit])).mp hst, ?_, ?_⟩
    · intro z hz hfrom
      exact hlater z hz ((hkey z (by simp [hsplit, hz])).mpr hfrom)
    · rw [taskSendToPeer, hmap, hsome]

/-- The invariant of a node that has logged in: it keeps the resource it asked
for, and while its engine is open it has a JID with this resource. -/
structure SignedOn (X : Xmpp.Api) (resource : Bytes) (n : Network) : Prop where
  asked : n.xcs.resource = resource
  pump : n.pump.isSome
  jid : n.xmppState = .stateOpen → Readable X n.me ∧ resource <+: n.me.resource

theorem signedOn_of_loggedIn {pcid : Bytes} (h : LoggedIn libs pcid n) :
    SignedOn libs.xmpp (kXmppPrefix ++ pcid) n := by
  obtain ⟨before, user, pass, host, port, hlogin⟩ := h
  unfold Network.login at hlogin
  split at hlogin
  · cases hlogin
  · cases hlogin
    refine ⟨rfl, rfl, ?_⟩
    intro h
    cases h

theorem signedOn_step {resource : Bytes} (h : SignedOn libs.xmpp resource s.controller.network)
    (hg : Binds libs.xmpp s e) (hst : NetworkStep libs s.controller.network e n' taken) :
    SignedOn libs.xmpp resource n' := by
  generalize hn : s.controller.network = n at h hst
  cases hst with
  | same e => exact h
  | login env d user pass pcid host port =>
    rw [login_of_pump h.pump]
    exact h
  | stateChange jid state hp =>
    cases state with
    | stateOpen =>
      refine ⟨h.asked, rfl, ?_⟩
      intro _
      obtain ⟨hj, hr⟩ := hg
      rw [hn, h.asked] at hr
      exact ⟨hj, hr⟩
    | _ =>
      refine ⟨h.asked, rfl, ?_⟩
      intro hopen
      cases hopen
  | timer anyChildError =>
    have hk := onMessage_kept n anyChildError
    refine ⟨hk.xcs ▸ h.asked, hk.pump h.pump, ?_⟩
    intro hopen
    obtain ⟨hopen', hme⟩ := hk.client hopen
    rw [hme]
    exact h.jid hopen'
  | stanza stanza =>
    unfold Network.handleStanza
    split
    · exact ⟨h.asked, h.pump, h.jid⟩
    · exact h
  | processStart hp =>
    obtain ⟨rfl, _⟩ | ⟨_, _, _, _, _, rfl⟩ := processStart_cases hp
    · exact h
    · exact ⟨h.asked, h.pump, h.jid⟩

theorem signedOn_of_run {resource : Bytes} {es : List Event}
    (hs : SignedOn libs.xmpp resource s.controller.network)
    (h : Run (Guarded (Binds libs.xmpp) (Steps (step libs))) s es t) :
    SignedOn libs.xmpp resource t.controller.network := by
  refine run_invariant (P := fun s => SignedOn libs.xmpp resource s.controller.network) ?_ h hs
  rintro s e t hs ⟨hg, hst⟩
  obtain ⟨taken, _, hnet⟩ := networkStep_of_step hst
  exact signedOn_step hs hg hnet

theorem controller_service (h : Reachable (Steps (step libs)) Initial s) :
    s.services kLocalControllerId = some (some .controller) := by
  refine reachable_invariant
    (P := fun s => s.services kLocalControllerId = some (some .controller)) ?_ ?_ h
  · rintro s ⟨_, _, _, _, _, _, _, rfl⟩
    rfl
  · intro s e t hs hst
    exact services_step hst hs

theorem processStanza_delivered {me : Jid} {data type : Bytes} (huid : uid.length = kIdSize)
    (hj : Readable X j) (hp : kXmppPrefix ++ uid <+: j.resource) (hme : j ≠ me)
    (gUidMap : PartialMap Bytes Bytes) :
    processStanza X me gUidMap ⟨.iq, strGet, j.full, some ⟨some data, some type⟩⟩ =
      some (gUidMap.insert uid j.full, some (.doHandlePeer uid data type)) := by
  have haccepts : accepts X me ⟨.iq, strGet, j.full, some ⟨some data, some type⟩⟩ = true := by
    refine accepts_iff.mpr ⟨?_, ?_⟩
    · rw [FromNode, hj.jid]
      exact (List.prefix_append _ _).trans hp
    · rw [hj.jid]
      exact hme
  rw [processStanza, if_pos haccepts]
  dsimp only
  rw [getKey_full_eq huid hj hp]

theorem handsOver_of_delivered {r : Process.State} {data type : Bytes}
    (hX : libs.xmpp.MatchesRequests) (huid : uid.length = kIdSize) (hj : Readable libs.xmpp j)
    (hp : kXmppPrefix ++ uid <+: j.resource) (hr : Reachable (Steps (step libs)) Initial r)
    (hcrashed : r.crashed = false) (hme : j ≠ r.controller.network.me) :
    HandsOver libs r ⟨.iq, strGet, j.full, some ⟨some data, some type⟩⟩ uid data type := by
  refine ⟨?_, ?_⟩
  · intro number stanzas ht
    have hmatch : queues libs.xmpp ⟨.iq, strGet, j.full, some ⟨some data, some type⟩⟩ = true := by
      rw [queues, (hX _ _).mpr ⟨rfl, rfl, by simp⟩, Bool.true_or]
    refine ⟨r.withNetwork (r.controller.network.handleStanza libs.xmpp
      ⟨.iq, strGet, j.full, some ⟨some data, some type⟩⟩) [], by simp [step, hcrashed], ?_⟩
    simp [State.withNetwork, Network.handleStanza, hmatch, ht]
  · intro env number stanzas ht
    have hstart : ∃ n, r.controller.network.processStart libs.xmpp env.fresh.now =
        some (n, some (uid, data, type)) := by
      refine ⟨{ r.controller.network with
        tincanTask := some ⟨number, stanzas⟩
        gUidMap := r.controller.network.gUidMap.insert uid j.full }, ?_⟩
      unfold Network.processStart
      simp only [ht]
      change Option.map _ (processStanza libs.xmpp r.controller.network.me _ _) = _
      rw [processStanza_delivered huid hj hp hme]
      rfl
    obtain ⟨n, hn⟩ := hstart
    have hindex : r.services.index kLocalControllerId none = (some .controller, r.services) :=
      PartialMap.index_of_mem none (controller_service hr)
    refine ⟨n, _, hn, by simp only [step, hcrashed, hn]; rfl, ?_, ?_⟩
    · simp [handlePeer, signal, State.withNetwork, hindex]
    · simp [handlePeer, signal, State.withNetwork, hindex]

end

/-- A signalling message goes to the peer it names and arrives with the name of
its sender. With a server that stamps what it delivers, `TinCanTask::SendToPeer`
addresses the latest sender with the identifier, if there was one. With a server
that also binds the resource asked for, every other node that gets the IQ hands
over exactly the identifier of the login, the data and the type. -/
theorem signalling_addressed_and_attributed (libs : Libs) (hX : libs.xmpp.MatchesRequests) :
    (∀ s, Reachable (Guarded (Stamps libs.xmpp) (Steps (step libs))) Initial s →
      ∀ uid, HexUid uid → ∀ data type,
        ((∀ stanza ∈ s.accepted, ¬FromUid libs.xmpp uid stanza) ∧
          taskSendToPeer libs.xmpp s.controller.network.gUidMap uid data type = []) ∨
        ∃ earlier stanza later, s.accepted = earlier ++ stanza :: later ∧
          FromUid libs.xmpp uid stanza ∧ (∀ st ∈ later, ¬FromUid libs.xmpp uid st) ∧
          taskSendToPeer libs.xmpp s.controller.network.gUidMap uid data type =
            [.iq strGet (libs.xmpp.jid stanza.sender) ⟨some data, some type⟩]) ∧
    ∀ pcid s₀ es s, pcid.length = kIdSize → LoggedIn libs pcid s₀.controller.network →
      Run (Guarded (Binds libs.xmpp) (Steps (step libs))) s₀ es s →
      ∀ uid data type out, out ∈ s.controller.network.sendToPeer libs.xmpp uid data type →
        ∃ recipient stanza, delivered s.controller.network.me out = some (recipient, stanza) ∧
          ∀ r, Reachable (Steps (step libs)) Initial r → r.crashed = false →
            s.controller.network.me ≠ r.controller.network.me →
            HandsOver libs r stanza pcid data type := by
  constructor
  · intro s hs uid huid data type
    exact taskSendToPeer_cases (learned_of_reachable hs) huid data type
  · intro pcid s₀ es s hpcid hlogin hrun uid data type out hout
    have hs := signedOn_of_run (signedOn_of_loggedIn hlogin) hrun
    unfold Network.sendToPeer at hout
    split at hout
    · next hopen =>
      obtain ⟨hj, hp⟩ := hs.jid hopen.1
      unfold taskSendToPeer at hout
      split at hout
      · cases hout
      · rw [List.mem_singleton.mp hout]
        refine ⟨_, _, rfl, ?_⟩
        intro r hr hcrashed hme
        exact handsOver_of_delivered hX hpcid hj hp hr hcrashed hme
    · cases hout

def jidA : Jid := ⟨bytes "a", bytes "x", kXmppPrefix ++ uidA ++ bytes "1F"⟩

def jidB : Jid := ⟨bytes "b", bytes "x", kXmppPrefix ++ uidB ++ bytes "2E"⟩

def requestText (fields : List (Bytes × Bytes)) : Bytes :=
  123 :: [44].intercalate (fields.map (fun (name, value) =>
    34 :: name ++ [34, 58, 34] ++ value ++ [34])) ++ [125]

def requestValue (fields : List (Bytes × Bytes)) : Json.Value :=
  .object (fields.map (fun (name, value) => (name, .string value)))

def setupRequest (uid : Bytes) : List (Bytes × Bytes) :=
  [(bytes "m", bytes "set_local_ip"), (bytes "uid", uid)]

def loginRequest (user : Bytes) : List (Bytes × Bytes) :=
  [(bytes "m", bytes "register_svc"), (bytes "username", user), (bytes "password", bytes "p"),
    (bytes "host", bytes "x")]

def pairLibs : Libs := sampleLibs
  ([setupRequest uidA, setupRequest uidB, loginRequest jidA.bare, loginRequest jidB.bare].map
    (fun fields => (requestText fields, requestValue fields)))

def requestDatagram (fields : List (Bytes × Bytes)) : Event :=
  .datagram sampleEnv (datagramOf (kIpopVer :: kTincanControl :: requestText fields))

def loginEvents (uid : Bytes) (j : Jid) : List Event :=
  [requestDatagram (setupRequest uid), requestDatagram (loginRequest j.bare)]

def onlineEvents (j other : Jid) : List Event :=
  [.stateChange j .stateOpen, .stanza ⟨.presence, [], other.full, none⟩, .processStart sampleEnv]

theorem jidA_readable : Readable Api.plain jidA := ⟨rfl, by decide, by decide, by decide⟩

theorem jidB_readable : Readable Api.plain jidB := ⟨rfl, by decide, by decide, by decide⟩

theorem uidB_hex : HexUid uidB := by
  refine ⟨rfl, ?_⟩
  intro c hc
  rw [(List.mem_replicate.mp hc).2]
  decide

theorem loginOnline_stamped : ∀ e ∈ loginEvents uidA jidA ++ onlineEvents jidA jidB, ∀ s,
    Stamps Api.plain s e := by
  intro e he s
  simp only [loginEvents, onlineEvents, List.cons_append, List.nil_append, List.mem_cons,
    List.not_mem_nil, or_false] at he
  obtain rfl | rfl | rfl | rfl | rfl := he
  · trivial
  · trivial
  · trivial
  · intro _
    exact ⟨jidB, jidB_readable, rfl⟩
  · trivial

def connectStanza : Stanza := ⟨.iq, strGet, jidA.full, some ⟨some (bytes "d"), some (bytes "t")⟩⟩

theorem sender_run : ∃ s₀ s₁ s₂ s,
    replay (step pairLibs) startState (loginEvents uidA jidA) = some s₀ ∧
    step pairLibs s₀ (.stateChange jidA .stateOpen) = some s₁ ∧
    step pairLibs s₁ (.stanza ⟨.presence, [], jidB.full, none⟩) = some s₂ ∧
    step pairLibs s₂ (.processStart sampleEnv) = some s ∧
    LoggedIn pairLibs uidA s₀.controller.network ∧
    s₀.controller.network.xcs.resource = kXmppPrefix ++ uidA ∧ s.controller.network.me = jidA ∧
    s.accepted = [⟨.presence, [], jidB.full, none⟩] ∧
    s.controller.network.sendToPeer Api.plain uidB (bytes "d") (bytes "t") =
      taskSendToPeer Api.plain s.controller.network.gUidMap uidB (bytes "d") (bytes "t") :=
  ⟨_, _, _, _, rfl, rfl, rfl, rfl,
    ⟨startState.controller.network, jidA.bare, bytes "p", bytes "x", 5222, rfl⟩, rfl, rfl, rfl, rfl⟩

theorem receiver_run : ∃ r, replay (step pairLibs) startState
      (loginEvents uidB jidB ++ onlineEvents jidB jidA ++ [.stanza connectStanza]) = some r ∧
    r.crashed = false ∧ r.controller.network.me = jidB ∧
    r.controller.network.tincanTask = some ⟨0, [connectStanza]⟩ ∧ r.calls = [] :=
  ⟨_, rfl, rfl, rfl, rfl, rfl⟩

theorem signalling_addressed_and_attributed_pair :
    ∃ s r : Process.State,
      taskSendToPeer Api.plain s.controller.network.gUidMap uidB (bytes "d") (bytes "t") =
        [.iq strGet jidB ⟨some (bytes "d"), some (bytes "t")⟩] ∧
      r.calls = [(⟨kLocalControllerId, uidA, bytes "d", bytes "t"⟩, some .controller)] := by
  obtain ⟨s₀, s₁, s₂, s, h₀, h₁, h₂, h₃, hlogin, hasked, hme, haccepted, hsend⟩ := sender_run
  obtain ⟨r, hr, hcrashed, hmeB, htask, hcalls⟩ := receiver_run
  have hreach : Reachable (Guarded (Stamps Api.plain) (Steps (step pairLibs))) Initial s :=
    ⟨startState, _, startState_initial, run_guarded loginOnline_stamped
      (run_append (run_of_replay h₀) (run_cons h₁ (run_cons h₂ (run_single h₃))))⟩
  have hrun : Run (Guarded (Binds Api.plain) (Steps (step pairLibs))) s₀ (onlineEvents jidA jidB) s :=
    run_cons ⟨⟨jidA_readable, hasked ▸ ⟨bytes "1F", rfl⟩⟩, h₁⟩
      (run_cons ⟨trivial, h₂⟩ (run_single ⟨trivial, h₃⟩))
  have haddressed : taskSendToPeer Api.plain s.controller.network.gUidMap uidB (bytes "d") (bytes "t") =
      [.iq strGet jidB ⟨some (bytes "d"), some (bytes "t")⟩] := by
    obtain ⟨hnone, _⟩ | ⟨earlier, stanza, later, hsplit, _, _, hiq⟩ :=
      (signalling_addressed_and_attributed pairLibs plain_matchesRequests).1 s hreach uidB uidB_hex
        (bytes "d") (bytes "t")
    · refine absurd ?_ (hnone ⟨.presence, [], jidB.full, none⟩ (by simp [haccepted]))
      change kXmppPrefix ++ uidB <+: (Api.plain.jid jidB.full).resource
      rw [jidB_readable.jid]
      exact ⟨bytes "2E", rfl⟩
    · have hmem : stanza ∈ s.accepted := by simp [hsplit]
      rw [haccepted, List.mem_singleton] at hmem
      subst hmem
      have hjid : pairLibs.xmpp.jid jidB.full = jidB := jidB_readable.jid
      rwa [hjid] at hiq
  have hsent : .iq strGet jidB ⟨some (bytes "d"), some (bytes "t")⟩ ∈
      s.controller.network.sendToPeer Api.plain uidB (bytes "d") (bytes "t") := by
    rw [hsend, haddressed]
    exact List.mem_cons_self
  obtain ⟨recipient, stanza, hdelivered, hall⟩ :=
    (signalling_addressed_and_attributed pairLibs plain_matchesRequests).2 uidA s₀ _ s rfl hlogin hrun
      uidB (bytes "d") (bytes "t") _ hsent
  rw [hme] at hdelivered hall
  cases hdelivered
  have hreachB : Reachable (Steps (step pairLibs)) Initial r :=
    ⟨startState, _, startState_initial, run_of_replay hr⟩
  have hne : jidA ≠ r.controller.network.me := by
    rw [hmeB]
    decide
  obtain ⟨_, r', _, _, hcalls', _⟩ := (hall r hreachB hcrashed hne).handed sampleEnv 0 [] htask
  refine ⟨s, r', haddressed, ?_⟩
  rw [hcalls', hcalls]
  rfl

end Tincan.Signalling
