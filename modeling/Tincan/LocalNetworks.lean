import Tincan.Attribution
import Tincan.LinkHeap
import Tincan.Requests

namespace Tincan.LocalNetworks

open Tincan.Library Tincan.Library.Text Tincan.Library.Runs Tincan.Libjingle Tincan.ConnectionManager
open Tincan.ControllerAccess Tincan.LinkChanges Tincan.Requests

def kTapDesc : Bytes := bytes "TAP"

structure Network where
  name : Bytes
  description : Bytes
  ips : List IPAddress

def Network.isTap (m : Manager) (n : Network) : Bool :=
  n.name == m.tapName || compareAt n.description 0 3 kTapDesc == .eq

def onNetworksChanged (L : Api) (m : Manager) (networks : List Network) : List Network :=
  let ip6Addr := L.socketAddress m.tincanIp6 0
  networks.map fun n => if n.isTap m then { n with ips := [ip6Addr.ip] } else n

/-- The process, with every network that the operating system ever listed, the
networks as the handler left them for candidates to be gathered on, and the
candidates that were found, each with the peer that it was found for. -/
structure State where
  process : Process.State
  listed : List Network
  offered : List Network
  found : List (Bytes × Candidate)

inductive Event
  | process (e : Process.Event)
  | networksChanged (networks : List Network)

def foundBy (m : Manager) : Process.Event → List (Bytes × Candidate)
  | .candidatesReady x candidates => candidates.map fun c => ((m.transportMap.index x []).1, c)
  | _ => []

def step (libs : Libs) (s : State) : Event → Option State
  | .process e => (Process.step libs s.process e).map fun process => { s with
      process := process
      found := s.found ++ foundBy s.process.controller.manager e }
  | .networksChanged networks =>
    if s.process.crashed then none
    else some { s with
      listed := s.listed ++ networks
      offered := s.offered ++ onNetworksChanged libs.jingle s.process.controller.manager networks }

structure Initial (s : State) : Prop where
  process : Process.Initial s.process
  listed : s.listed = []
  offered : s.offered = []
  found : s.found = []

/-- A candidate of the type `hostType` has an address of the network it names. -/
def Gathers (hostType : Bytes) (s : State) : Event → Prop
  | .process (.candidatesReady _ candidates) => ∀ c ∈ candidates, c.type = hostType →
      ∃ n ∈ s.offered, n.name = c.networkName ∧ c.address.ip ∈ n.ips
  | _ => True

def StandsIn (L : Api) (m : Manager) (ip : IPAddress) : Prop :=
  ∃ ip6, (ip6 = kIpv6 ∨ ip6 = m.tincanIp6) ∧ ip = (L.socketAddress ip6 0).ip

/-- A record of a candidate that was found for the peer `u` and is not of the tap.
One of the node itself has an address that the system listed for another network,
or the one that stands in. -/
def Public (L : Api) (hostType : Bytes) (s : State) (u word : Bytes) : Prop :=
  ∃ c, (u, c) ∈ s.found ∧ word = encodeCandidate L c ∧
    c.networkName ≠ s.process.controller.manager.tapName ∧ (c.type = hostType →
      (∃ n ∈ s.listed, n.name = c.networkName ∧ n.isTap s.process.controller.manager = false ∧
        c.address.ip ∈ n.ips) ∨
      StandsIn L s.process.controller.manager c.address.ip)

structure Sound (L : Api) (hostType : Bytes) (s : State) : Prop where
  unnamed : s.process.controller.manager.tincanId = [] → s.process.controller.manager.tincanIp6 = kIpv6
  offered : ∀ n ∈ s.offered, (n ∈ s.listed ∧ n.isTap s.process.controller.manager = false) ∨
    ∀ ip ∈ n.ips, StandsIn L s.process.controller.manager ip
  advertised : ∀ u p, s.process.controller.manager.uidMap u = some (some p) → ∀ word ∈ p.candidateList,
    Public L hostType s u word

section

variable {libs : Libs} {L : Api} {hostType : Bytes} {m m' : Manager} {trim : Option Bool}

theorem StandsIn.step {ip : IPAddress} (h : StandsIn L m ip) (hs : SettingsStep trim m m')
    (hunnamed : m.tincanId = [] → m.tincanIp6 = kIpv6) : StandsIn L m' ip := by
  obtain ⟨ip6, hip6, rfl⟩ := h
  refine ⟨ip6, ?_, rfl⟩
  obtain ⟨_, hsame⟩ | ⟨hnone, _⟩ := hs.identity
  · rwa [hsame]
  · -- The first `Setup` finds the address that the constructor left.
    rw [hunnamed hnone] at hip6
    exact .inl (hip6.elim id id)

theorem isTap_of_tapName (h : m'.tapName = m.tapName) (n : Network) : n.isTap m' = n.isTap m := by
  rw [Network.isTap, h, Network.isTap]

theorem Public.mono {s t : State} {u word : Bytes} (h : Public L hostType s u word)
    (hfound : s.found ⊆ t.found) (hlisted : s.listed ⊆ t.listed)
    (htapName : t.process.controller.manager.tapName = s.process.controller.manager.tapName)
    (hstands : ∀ ip, StandsIn L s.process.controller.manager ip → StandsIn L t.process.controller.manager ip) :
    Public L hostType t u word := by
  obtain ⟨c, hc, hword, hname, haddress⟩ := h
  refine ⟨c, hfound hc, hword, by rwa [htapName], fun htype => ?_⟩
  obtain ⟨n, hn, hnamed, htap, hip⟩ | hstand := haddress htype
  · exact .inl ⟨n, hlisted hn, hnamed, by rwa [isTap_of_tapName htapName], hip⟩
  · exact .inr (hstands _ hstand)

theorem mem_withReported {p : PeerState} {candidates : List Candidate} {word : Bytes}
    (h : word ∈ (withReported L m p candidates).candidateList) :
    word ∈ p.candidateList ∨ ∃ c ∈ candidates, c.networkName ≠ m.tapName ∧ word = encodeCandidate L c := by
  rw [withReported, CandidateExchange.foldl_insert, Finset.mem_union, List.mem_toFinset, List.mem_map] at h
  obtain hold | ⟨c, hc, rfl⟩ := h
  · exact .inl hold
  · obtain ⟨hmem, hname⟩ := List.mem_filter.mp hc
    exact .inr ⟨c, hmem, of_decide_eq_true hname, rfl⟩

theorem record_step {s t : Process.State} {e : Process.Event} {u word : Bytes} {p : PeerState}
    (h : Process.step libs s e = some t) (hp : t.controller.manager.uidMap u = some (some p))
    (hword : word ∈ p.candidateList) :
    (∃ q, s.controller.manager.uidMap u = some (some q) ∧ word ∈ q.candidateList) ∨
      ∃ x candidates, e = .candidatesReady x candidates ∧
        (s.controller.manager.transportMap.index x []).1 = u ∧
        ∃ c ∈ candidates, c.networkName ≠ s.controller.manager.tapName ∧
          word = encodeCandidate libs.jingle c := by
  have hm := managerStep_of_step h
  generalize t.controller.manager = m', t.crashed = crashed at hm hp
  cases hm with
  | quiet hs =>
    rw [hs.uidMap] at hp
    exact .inl ⟨p, hp, hword⟩
  | setup env d r =>
    rw [(LinkThreads.frame_setup libs.jingle env.memory s.controller.manager r).uidMap] at hp
    exact .inl ⟨p, hp, hword⟩
  | @link env d r cas _ _ hr hgive =>
    have hbuilt : ∀ q, (createTransport libs.jingle s.controller.manager r env.fresh).1.uidMap u =
        some (some q) → word ∈ q.candidateList → s.controller.manager.uidMap u = some (some q) := by
      intro q hq hmem
      obtain hold | ⟨_, _, rfl⟩ := link_of_createTransport hq
      · exact hold
      · rw [Attribution.candidateList_buildTransport] at hmem
        cases hmem
    obtain rfl | ⟨q, tr, candidates, hq, _, _, rfl⟩ := giveCandidates_cases hgive
    · exact .inl ⟨p, hbuilt p hp hword, hword⟩
    · obtain ⟨rfl, he⟩ | ⟨_, hold⟩ := PartialMap.insert_eq_some.mp hp
      · cases he
        exact .inl ⟨q, hbuilt q hq hword, hword⟩
      · exact .inl ⟨p, hbuilt p hold hword, hword⟩
  | trim hd =>
    obtain ⟨_, rfl⟩ | ⟨q, _, rfl⟩ := destroyTransport_cases hd
    · exact .inl ⟨p, hp, hword⟩
    · exact .inl ⟨p, (PartialMap.erase_eq_some.mp hp).2, hword⟩
  | candidatesReady x candidates =>
    obtain ⟨_, hm⟩ | ⟨q, hq, _, hm⟩ :=
      onCandidatesReady_cases libs.jingle s.controller.manager x candidates <;> rw [hm] at hp
    · exact .inl ⟨p, link_of_index hp, hword⟩
    · obtain ⟨rfl, he⟩ | ⟨_, hold⟩ := PartialMap.insert_eq_some.mp hp
      · cases he
        obtain hold | hnew := mem_withReported hword
        · exact .inl ⟨q, hq, hold⟩
        · exact .inr ⟨x, candidates, rfl, rfl, hnew⟩
      · exact .inl ⟨p, hold, hword⟩
  | candidatesAllocationDone env x hf =>
    rw [onCandidatesAllocationDone_manager] at hp
    exact .inl ⟨p, link_of_index hp, hword⟩
  | rwChangeState env x hf =>
    obtain hm | ⟨hm, _⟩ := onRWChangeState_cases s.controller.manager x <;> rw [hm] at hp
    · exact .inl ⟨p, hp, hword⟩
    · exact .inl ⟨p, link_of_index hp, hword⟩

theorem offered_onNetworksChanged {networks : List Network} {n : Network}
    (h : n ∈ onNetworksChanged L m networks) :
    (n ∈ networks ∧ n.isTap m = false) ∨ ∀ ip ∈ n.ips, StandsIn L m ip := by
  obtain ⟨n', hn', rfl⟩ := List.mem_map.mp h
  split_ifs with htap
  · right
    intro ip hip
    exact ⟨m.tincanIp6, .inr rfl, List.mem_singleton.mp hip⟩
  · exact .inl ⟨hn', eq_false_of_ne_true htap⟩

theorem sound_step {s t : State} {e : Event} (h : Sound libs.jingle hostType s)
    (hst : Guarded (Gathers hostType) (Steps (step libs)) s e t) : Sound libs.jingle hostType t := by
  obtain ⟨hgathers, hst⟩ := hst
  cases e with
  | process e =>
    obtain ⟨process, hp, rfl⟩ := Option.map_eq_some_iff.mp hst
    have hs := settings_step hp
    refine ⟨fun hnone => ?_, fun n hn => ?_, fun u p hlink word hword => ?_⟩
    · obtain ⟨hid, hip6⟩ | ⟨_, hnamed⟩ := hs.identity
      · exact hip6.trans (h.unnamed (hid.symm.trans hnone))
      · exact absurd hnone hnamed
    · obtain ⟨hlisted, htap⟩ | hstands := h.offered n hn
      · exact .inl ⟨hlisted, (isTap_of_tapName hs.tapName n).trans htap⟩
      · exact .inr fun ip hip => (hstands ip hip).step hs h.unnamed
    · obtain ⟨q, hq, hold⟩ | ⟨x, candidates, rfl, hu, c, hc, hname, rfl⟩ := record_step hp hlink hword
      · exact (h.advertised u q hq word hold).mono (List.subset_append_left _ _) (List.Subset.refl _)
          hs.tapName fun ip hstand => hstand.step hs h.unnamed
      · have hfound : (u, c) ∈ foundBy s.process.controller.manager (.candidatesReady x candidates) :=
          List.mem_map.mpr ⟨c, hc, by rw [hu]⟩
        refine ⟨c, List.mem_append_right _ hfound, rfl, ?_, fun htype => ?_⟩
        · rwa [hs.tapName]
        obtain ⟨n, hn, hnamed, hip⟩ := hgathers c hc htype
        obtain ⟨hlisted, htap⟩ | hstands := h.offered n hn
        · exact .inl ⟨n, hlisted, hnamed, (isTap_of_tapName hs.tapName n).trans htap, hip⟩
        · exact .inr ((hstands _ hip).step hs h.unnamed)
  | networksChanged networks =>
    simp only [Steps, step, Option.ite_none_left_eq_some, Option.some.injEq] at hst
    obtain ⟨_, rfl⟩ := hst
    refine ⟨h.unnamed, fun n hn => ?_, fun u p hlink word hword =>
      (h.advertised u p hlink word hword).mono (List.Subset.refl _) (List.subset_append_left _ _) rfl
        fun _ hstand => hstand⟩
    obtain hold | hnew := List.mem_append.mp hn
    · exact (h.offered n hold).imp_left fun hl => ⟨List.mem_append_left _ hl.1, hl.2⟩
    · exact (offered_onNetworksChanged hnew).imp_left fun hl => ⟨List.mem_append_right _ hl.1, hl.2⟩

theorem sound_initial {s : State} (h : Initial s) : Sound L hostType s := by
  obtain ⟨_, _, _, _, _, _, _, hs⟩ := h.process
  refine ⟨fun _ => by rw [hs]; rfl, fun n hn => ?_, fun u p hp => ?_⟩
  · rw [h.offered] at hn
    cases hn
  · rw [hs] at hp
    cases hp

/-- The network of the overlay is kept out of the links that carry it. In what is
sent to a peer about the paths to this node, each record is of a candidate that was
found for this peer on another network than the tap, and an address of the node
itself was listed for that network; otherwise it is the one that the handler put in
place of those of the tap. -/
theorem tap_is_not_advertised {s : State}
    (h : Reachable (Guarded (Gathers hostType) (Steps (step libs))) Initial s) (x : Ptr) :
    ∀ msg ∈ (onCandidatesAllocationDone s.process.controller.manager x).sent, ∃ p,
      s.process.controller.manager.uidMap msg.uid = some (some p) ∧
      msg.data = (inOrder p.candidateList).foldl (fun data c => data ++ [32] ++ c)
        s.process.controller.manager.fingerprint ∧
      ∀ word ∈ p.candidateList, Public libs.jingle hostType s msg.uid word := by
  have hsound : Sound libs.jingle hostType s :=
    reachable_invariant (P := Sound libs.jingle hostType) (fun _ hs => sound_initial hs)
      (fun _ _ _ hs hst => sound_step hs hst) h
  intro msg hmsg
  simp only [onCandidatesAllocationDone] at hmsg
  split at hmsg
  · cases hmsg
  next p hp =>
  have hlink := PartialMap.of_index_fst hp (by simp)
  rw [PartialMap.index_snd_self] at hmsg
  cases List.mem_singleton.mp hmsg
  exact ⟨p, hlink, rfl, hsound.advertised _ p hlink⟩

end

def sampleNetworks : List Network :=
  [⟨bytes "eth0", bytes "eth0", [.v4 3232235777]⟩, ⟨bytes "ipop", bytes "ipop", [.v4 2887712868]⟩]

def sampleStart : State := ⟨Process.startState, [], [], []⟩

theorem tap_is_not_advertised_two : ∃ (s : State) (msg : PeerMessage) (p : PeerState),
    msg ∈ (onCandidatesAllocationDone s.process.controller.manager 1).sent ∧ p.candidateList.card = 1 ∧
    msg.data = (inOrder p.candidateList).foldl (fun data c => data ++ [32] ++ c)
      s.process.controller.manager.fingerprint ∧
    ∀ word ∈ p.candidateList, Public BadDatagrams.trimLibs.jingle (bytes "local") s msg.uid word := by
  obtain ⟨s₁, s₂, s, p, h₁, h₂, h, hoffered, ht, hp, hcard⟩ : ∃ s₁ s₂ s p,
      step BadDatagrams.trimLibs sampleStart (.networksChanged sampleNetworks) = some s₁ ∧
      step BadDatagrams.trimLibs s₁ (.process (.datagram Process.sampleEnv (Process.linkDatagram 49))) =
        some s₂ ∧
      step BadDatagrams.trimLibs s₂ (.process (.candidatesReady 1
        [CandidateExchange.udpCandidate (bytes "eth0") 5000])) = some s ∧
      s₂.offered.head? = some ⟨bytes "eth0", bytes "eth0", [.v4 3232235777]⟩ ∧
      s.process.controller.manager.transportMap 1 = some (bytes "b") ∧
      s.process.controller.manager.uidMap (bytes "b") = some (some p) ∧ p.candidateList.card = 1 :=
    ⟨_, _, _, _, rfl, rfl, rfl, rfl, rfl, rfl, rfl⟩
  have hgathers : Gathers (bytes "local") s₂ (.process (.candidatesReady 1
      [CandidateExchange.udpCandidate (bytes "eth0") 5000])) := by
    intro c hc _
    rw [List.mem_singleton.mp hc]
    exact ⟨_, List.mem_of_mem_head? hoffered, rfl, List.mem_singleton.mpr rfl⟩
  have hinit : Initial sampleStart := ⟨Process.startState_initial, rfl, rfl, rfl⟩
  have hchanged : Gathers (bytes "local") sampleStart (.networksChanged sampleNetworks) := trivial
  have hlink : Gathers (bytes "local") s₁ (.process (.datagram Process.sampleEnv (Process.linkDatagram 49))) :=
    trivial
  have hreached : Reachable (Guarded (Gathers (bytes "local")) (Steps (step BadDatagrams.trimLibs)))
      Initial s :=
    reachable_step (reachable_step (reachable_step (reachable_init hinit) ⟨hchanged, h₁⟩) ⟨hlink, h₂⟩)
      ⟨hgathers, h⟩
  obtain ⟨msg, hmsg, huid⟩ : ∃ msg,
      msg ∈ (onCandidatesAllocationDone s.process.controller.manager 1).sent ∧ msg.uid = bytes "b" := by
    rw [onCandidatesAllocationDone_eq ht hp]
    exact ⟨_, List.mem_singleton_self _, rfl⟩
  obtain ⟨q, hq, hdata, hpublic⟩ := tap_is_not_advertised hreached 1 msg hmsg
  rw [huid, hp] at hq
  cases hq
  exact ⟨s, msg, p, hmsg, hcard, hdata, hpublic⟩

end Tincan.LocalNetworks
