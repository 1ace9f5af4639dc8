import Tincan.Library.Unwinding
import Tincan.LinkAtomicity
import Tincan.LinkHeap
import Tincan.Requests

namespace Tincan.Isolation

open Tincan.Library Tincan.Library.Text Tincan.Library.Runs Tincan.Library.Unwinding Tincan.Libjingle
open Tincan.Utils Tincan.ConnectionManager Tincan.ControllerAccess Tincan.Process
open Tincan.LinkChanges Tincan.LinkHeap Tincan.Requests

/-- Whether an event is about the links with certain uids: a request that names
one of them or sets the identity, or an event of a transport known as one. -/
def concerns (libs : Libs) (mine : Bytes → Bool) (s : State) : Event → Bool
  | .datagram _ d => (demand libs s.controller d).any fun q => q.uid.all mine
  | .candidatesReady t _ | .linkStatus t _ _ _ _ => mine (knownAs s.controller.manager t)
  | _ => false

structure Node where
  tincanId : Bytes
  identity : Option SSLIdentity
  localFingerprint : Option SSLFingerprint
  fingerprint : Bytes
  tiebreaker : Fin (2 ^ 64)
  tapName : Bytes

def nodeOf (m : Manager) : Node :=
  ⟨m.tincanId, m.identity, m.localFingerprint, m.fingerprint, m.tiebreaker, m.tapName⟩

/-- Two managers in which all that is kept about certain uids is the same: the
links, their transports and routes, and the addresses. -/
structure Alike (mine : Bytes → Bool) (m m' : Manager) : Prop where
  node : nodeOf m' = nodeOf m
  links : ∀ u, mine u = true → m'.uidMap u = m.uidMap u
  transports : ∀ u p, mine u = true → m.uidMap u = some (some p) →
    m'.transports p.transport = m.transports p.transport
  routes : ∀ u, mine u = true → m'.shortUidMap (shortUid u) = m.shortUidMap (shortUid u)
  addresses : ∀ u, mine u = true → m'.ipMap u = m.ipMap u

section

variable {mine : Bytes → Bool} {m m' m'' : Manager}

theorem Alike.refl (mine : Bytes → Bool) (m : Manager) : Alike mine m m :=
  ⟨rfl, fun _ _ => rfl, fun _ _ _ _ => rfl, fun _ _ => rfl, fun _ _ => rfl⟩

theorem Alike.symm (h : Alike mine m m') : Alike mine m' m := by
  refine ⟨h.node.symm, fun u hu => (h.links u hu).symm, fun u p hu hp => ?_,
    fun u hu => (h.routes u hu).symm, fun u hu => (h.addresses u hu).symm⟩
  rw [h.links u hu] at hp
  exact (h.transports u p hu hp).symm

theorem Alike.trans (h : Alike mine m m') (h' : Alike mine m' m'') : Alike mine m m'' := by
  refine ⟨h'.node.trans h.node, fun u hu => (h'.links u hu).trans (h.links u hu), fun u p hu hp => ?_,
    fun u hu => (h'.routes u hu).trans (h.routes u hu),
    fun u hu => (h'.addresses u hu).trans (h.addresses u hu)⟩
  have hp' := hp
  rw [← h.links u hu] at hp'
  exact (h'.transports u p hu hp').trans (h.transports u p hu hp)

theorem ne_of_mine {u v : Bytes} (hu : mine u = true) (hv : mine v = false) : u ≠ v := by
  rintro rfl
  rw [hu] at hv
  cases hv

end

/-- A set of uids that has with one uid all that share its key. -/
def Closed (mine : Bytes → Bool) : Prop := ∀ u v, shortUid u = shortUid v → mine u = mine v

section

variable {libs : Libs} {mine : Bytes → Bool} {m m' : Manager}

theorem alike_create_other {L : Libjingle.Api} {r : CreateRequest} {f : Fresh} (hclosed : Closed mine)
    (h : Live m) (hf : r.refused m = false → LinkThreads.Available m f) (hr : mine r.uid = false) :
    Alike mine m (createTransport L m r f).1 := by
  obtain ⟨_, hm⟩ | ⟨hnew, tr, hm⟩ := createTransport_cases L m r f
  · rw [hm]
    exact .refl _ _
  rw [hm]
  refine ⟨rfl, fun u hu => ?_, fun u p hu hp => ?_, fun u hu => ?_,
    fun _ _ => rfl⟩
  · exact PartialMap.insert_of_ne _ _ (ne_of_mine hu hr)
  · exact PartialMap.insert_of_ne _ _ (h.transport_ne (hf hnew) hp)
  · refine PartialMap.insert_of_ne _ _ fun hkey => ?_
    rw [hclosed _ _ hkey, hr] at hu
    cases hu

theorem alike_give_other {uid cas : Bytes} (h : Live m) (hm : giveCandidates libs m uid cas = some m')
    (hr : mine uid = false) : Alike mine m m' := by
  obtain rfl | ⟨p, tr, candidates, hp, _, _, rfl⟩ := giveCandidates_cases hm
  · exact .refl _ _
  refine ⟨rfl, fun u hu => ?_, fun u q hu hq => ?_, fun _ _ => rfl,
    fun _ _ => rfl⟩
  · exact PartialMap.insert_of_ne _ _ (ne_of_mine hu hr)
  · have hne : q.transport ≠ p.transport := fun he => ne_of_mine hu hr (h.apart u uid q p hq hp he)
    exact PartialMap.insert_of_ne _ _ hne

theorem alike_destroy_other {uid : Bytes} {done : Bool} {log : List Log} (hclosed : Closed mine)
    (h : Live m) (hd : destroyTransport m uid = some (m', done, log)) (hr : mine uid = false) :
    Alike mine m m' := by
  obtain ⟨_, rfl⟩ | ⟨p, hp, rfl⟩ := destroyTransport_cases hd
  · exact .refl _ _
  refine ⟨rfl, fun u hu => ?_, fun u q hu hq => ?_, fun u hu => ?_,
    fun _ _ => rfl⟩
  · exact PartialMap.erase_of_ne _ (ne_of_mine hu hr)
  · have hne : q.transport ≠ p.transport := fun he => ne_of_mine hu hr (h.apart u uid q p hq hp he)
    exact PartialMap.erase_of_ne _ hne
  · refine PartialMap.erase_of_ne _ fun hkey => ?_
    rw [hclosed _ _ hkey, hr] at hu
    cases hu

theorem alike_mapping_other {L : Libjingle.Api} {memory : Nat → Byte} {uid ip4 ip6 : Bytes}
    (hr : mine uid = false) : Alike mine m (addIPMapping L memory m uid ip4 ip6).1 := by
  unfold addIPMapping
  split
  · exact .refl _ _
  · exact ⟨rfl, fun _ _ => rfl, fun _ _ _ _ => rfl, fun _ _ => rfl,
      fun u hu => PartialMap.insert_of_ne _ _ (ne_of_mine hu hr)⟩

theorem alike_carryOut_other {env : Env} {q : Demand} {uid : Bytes} (hclosed : Closed mine) (h : Live m)
    (hf : ∀ r cas, q = .link r cas → r.refused m = false → LinkThreads.Available m env.fresh)
    (hq : q.uid = some uid) (hr : mine uid = false) (hm : carryOut libs env m q = some m') :
    Alike mine m m' := by
  cases q with
  | link r cas =>
    cases hq
    have hnew := hf r cas rfl
    exact (alike_create_other hclosed h hnew hr).trans (alike_give_other (h.create hnew) hm hr)
  | trim v =>
    cases hq
    simp only [carryOut, Option.map_eq_some_iff] at hm
    obtain ⟨⟨m', done, log⟩, hd, rfl⟩ := hm
    exact alike_destroy_other hclosed h hd hr
  | identity r => cases hq
  | mapping v ip4 ip6 =>
    cases hq
    cases hm
    exact alike_mapping_other hr

end

section

variable {L : Libjingle.Api} {libs : Libs} {mine : Bytes → Bool} {m m' n n' : Manager}

theorem secure_congr (h : nodeOf n = nodeOf m) (r : CreateRequest) : r.secure n = r.secure m := by
  have hlocal : n.localFingerprint = m.localFingerprint := congrArg Node.localFingerprint h
  rw [CreateRequest.secure, hlocal, CreateRequest.secure]

theorem newPeer_congr (h : nodeOf n = nodeOf m) (r : CreateRequest) (f : Fresh) :
    newPeer L n r f = newPeer L m r f := by
  unfold newPeer
  rw [secure_congr h]

theorem setupTransport_congr (h : nodeOf n = nodeOf m) (p : PeerState) (tr : Transport) :
    setupTransport L n p tr = setupTransport L m p tr := by
  have hid : n.tincanId = m.tincanId := congrArg Node.tincanId h
  have hlocal : n.localFingerprint = m.localFingerprint := congrArg Node.localFingerprint h
  have htie : n.tiebreaker = m.tiebreaker := congrArg Node.tiebreaker h
  simp only [setupTransport, hid, hlocal, htie]

theorem buildTransport_congr (h : nodeOf n = nodeOf m) (r : CreateRequest) (f : Fresh) :
    (buildTransport L n r f).2 = (buildTransport L m r f).2 ∧
      LinkAtomicity.builtTransport L n r f = LinkAtomicity.builtTransport L m r f := by
  have hidentity : n.identity = m.identity := congrArg Node.identity h
  have hnew : newTransport n r f = newTransport m r f := by
    unfold newTransport
    rw [secure_congr h, hidentity]
  constructor
  · simp only [buildTransport, newPeer_congr h, setupTransport_congr h, hnew]
  · simp only [LinkAtomicity.builtTransport, newPeer_congr h, setupTransport_congr h, hnew]

theorem Alike.refused (h : Alike mine m n) {r : CreateRequest} (hr : mine r.uid = true) :
    r.refused n = r.refused m := by
  have hid : n.tincanId = m.tincanId := congrArg Node.tincanId h.node
  rw [CreateRequest.refused, h.links r.uid hr, hid, CreateRequest.refused]

theorem alike_create {r : CreateRequest} {f : Fresh} (h : Alike mine m n) (hr : mine r.uid = true) :
    Alike mine (createTransport L m r f).1 (createTransport L n r f).1 := by
  cases href : r.refused m with
  | true =>
    rw [createTransport, if_pos href, createTransport, if_pos ((h.refused hr).trans href)]
    exact h
  | false =>
    obtain ⟨hpeer, hbuilt⟩ := buildTransport_congr (L := L) h.node r f
    obtain ⟨huid, ht⟩ := LinkThreads.buildTransport_fields L m r f
    rw [LinkAtomicity.createTransport_withObjects href,
      LinkAtomicity.createTransport_withObjects ((h.refused hr).trans href), hpeer, hbuilt]
    dsimp only
    generalize (buildTransport L m r f).2 = p at huid ht ⊢
    refine ⟨h.node, fun u hu => ?_, fun u q hu hq => ?_, fun u hu => ?_, h.addresses⟩
    · exact PartialMap.insert_congr _ fun _ => h.links u hu
    · refine PartialMap.insert_congr _ fun hne => ?_
      obtain ⟨_, he⟩ | ⟨_, hold⟩ := PartialMap.insert_eq_some.mp hq
      · cases he
        exact absurd ht hne
      · exact h.transports u q hu hold
    · exact PartialMap.insert_congr _ fun _ => h.routes u hu

theorem alike_give {uid cas : Bytes} (h : Alike mine m n) (hr : mine uid = true)
    (hm : giveCandidates libs m uid cas = some m') (hn : giveCandidates libs n uid cas = some n') :
    Alike mine m' n' := by
  unfold giveCandidates at hm hn
  split at hm
  · next hempty =>
    rw [if_pos hempty] at hn
    cases hm
    cases hn
    exact h
  next hempty =>
  rw [if_neg hempty] at hn
  unfold createConnections at hm hn
  rw [h.links uid hr] at hn
  cases hp : m.uidMap uid with
  | none =>
    rw [hp] at hm hn
    cases hm
    cases hn
    exact h
  | some q =>
    rw [hp] at hm hn
    cases q with
    | none => cases hm
    | some p =>
      dsimp only at hm hn
      split at hm
      · next hgiven =>
        rw [if_pos hgiven] at hn
        cases hm
        cases hn
        exact h
      next hgiven =>
      rw [if_neg hgiven, h.transports uid p hr hp] at hn
      cases htr : m.transports p.transport with
      | none =>
        rw [htr] at hm
        cases hm
      | some tr =>
        rw [htr] at hm hn
        cases hm
        cases hn
        refine ⟨h.node, fun u hu => ?_, fun u q hu hq => ?_, h.routes, h.addresses⟩
        · exact PartialMap.insert_congr _ fun _ => h.links u hu
        · refine PartialMap.insert_congr _ fun hne => ?_
          obtain ⟨_, he⟩ | ⟨_, hold⟩ := PartialMap.insert_eq_some.mp hq
          · cases he
            exact absurd rfl hne
          · exact h.transports u q hu hold

theorem alike_destroy {uid : Bytes} {done done' : Bool} {log log' : List Log} (h : Alike mine m n)
    (hr : mine uid = true) (hd : destroyTransport m uid = some (m', done, log))
    (hd' : destroyTransport n uid = some (n', done', log')) : Alike mine m' n' := by
  have hlink := h.links uid hr
  obtain ⟨hnone, rfl⟩ | ⟨p, hp, rfl⟩ := destroyTransport_cases hd <;>
    obtain ⟨hnone', rfl⟩ | ⟨p', hp', rfl⟩ := destroyTransport_cases hd'
  · exact h
  · simp [hlink, hnone] at hp'
  · simp [hlink, hp] at hnone'
  · rw [hlink, hp] at hp'
    cases hp'
    refine ⟨h.node, fun u hu => ?_, fun u q hu hq => ?_, fun u hu => ?_, h.addresses⟩
    · exact PartialMap.erase_congr fun _ => h.links u hu
    · exact PartialMap.erase_congr fun _ => h.transports u q hu (PartialMap.erase_eq_some.mp hq).2
    · exact PartialMap.erase_congr fun _ => h.routes u hu

theorem alike_mapping {memory : Nat → Byte} {uid ip4 ip6 : Bytes} (h : Alike mine m n) (hr : mine uid = true) :
    Alike mine (addIPMapping L memory m uid ip4 ip6).1 (addIPMapping L memory n uid ip4 ip6).1 := by
  unfold addIPMapping
  rw [h.addresses uid hr]
  split
  · exact h
  · exact ⟨h.node, h.links, h.transports, h.routes,
      fun u hu => PartialMap.insert_congr _ fun _ => h.addresses u hu⟩

theorem alike_setup (memory : Nat → Byte) (r : SetupRequest) (h : Alike mine m n) :
    Alike mine (setup L memory m r).1 (setup L memory n r).1 := by
  have hid : n.tincanId = m.tincanId := congrArg Node.tincanId h.node
  have hfingerprint : n.fingerprint = m.fingerprint := congrArg Node.fingerprint h.node
  have htie : n.tiebreaker = m.tiebreaker := congrArg Node.tiebreaker h.node
  have htap : n.tapName = m.tapName := congrArg Node.tapName h.node
  unfold setup
  rw [hid, hfingerprint]
  split
  · exact h
  · refine ⟨?_, h.links, h.transports, h.routes, h.addresses⟩
    simp only [nodeOf, htie, htap]

theorem alike_carryOut {env : Env} {q : Demand} (h : Alike mine m n) (hq : q.uid.all mine = true)
    (hm : carryOut libs env m q = some m') (hn : carryOut libs env n q = some n') : Alike mine m' n' := by
  cases q with
  | link r cas => exact alike_give (alike_create h hq) hq hm hn
  | trim uid =>
    simp only [carryOut, Option.map_eq_some_iff] at hm hn
    obtain ⟨⟨_, _, _⟩, hd, rfl⟩ := hm
    obtain ⟨⟨_, _, _⟩, hd', rfl⟩ := hn
    exact alike_destroy h hq hd hd'
  | identity r =>
    cases hm
    cases hn
    exact alike_setup env.memory r h
  | mapping uid ip4 ip6 =>
    cases hm
    cases hn
    exact alike_mapping h hq

end

section

variable {libs : Libs} {env : Env} {c c' : Controller} {mine : Bytes → Bool}

theorem alike_resettled {trim : Option Bool} {m m' : Manager} (h : Resettled trim m m') : Alike mine m m' := by
  rw [Resettled] at h
  rw [h]
  exact ⟨rfl, fun _ _ => rfl, fun _ _ _ _ => rfl, fun _ _ => rfl, fun _ _ => rfl⟩

def callOf (c : Controller) (method : Bytes) : RpcCall := (c.rpcCalls.index method .unknown).1

theorem callOf_eq (c : Controller) (method : Bytes) :
    callOf c method = (c.rpcCalls method).getD .unknown := by
  unfold callOf PartialMap.index
  cases c.rpcCalls method <;> rfl

theorem demand_congr (h : callOf c' = callOf c) (d : Datagram) : demand libs c' d = demand libs c d := by
  have hcall : ∀ method, (c'.rpcCalls.index method .unknown).1 = (c.rpcCalls.index method .unknown).1 :=
    congrFun h
  simp only [demand, requestOf, hcall]

theorem callOf_update {d : Datagram} (h : Update libs env c d c') : callOf c' = callOf c := by
  cases h with
  | @method name hnone =>
    funext method
    rw [callOf_eq, callOf_eq]
    by_cases hm : method = name
    · subst hm
      simp [hnone]
    · simp [hm]
  | _ => rfl

theorem callOf_step {s t : State} {e : Event} (hst : step libs s e = some t) :
    callOf t.controller = callOf s.controller := by
  obtain ⟨taken, msgs, hc⟩ := controllerStep_of_step hst
  generalize t.controller = c' at hc
  cases hc with
  | datagram h => exact callOf_update (update_handlePacket h)
  | queueSignal h =>
    obtain ⟨_, _, _, rfl⟩ := handleQueueSignal_eq_some h
    rfl
  | tapRecv h =>
    obtain ⟨_, _, _, rfl, _⟩ := doPacketRecv_eq_some h
    rfl
  | _ => rfl

end

section

variable {mine : Bytes → Bool} {m n : Manager} {u : Bytes} {p : PeerState} {x : Ptr}

theorem knownAs_of_link (h : Tidy m) (hp : m.uidMap u = some (some p)) : knownAs m p.transport = u := by
  rw [knownAs, PartialMap.index_of_mem [] (h.known u p hp)]

theorem link_of_knownAs (h : Tidy m) (hx : knownAs m x ≠ []) :
    ∃ p, m.uidMap (knownAs m x) = some (some p) ∧ p.transport = x := by
  have hentry := PartialMap.of_index_fst (d := []) rfl hx
  obtain hnil | hlink := h.mapped x _ hentry
  · exact absurd hnil hx
  · exact hlink

theorem knownAs_of_alike (h : Alike mine m n) (hm : Tidy m) (hn : Tidy n) (hx : mine (knownAs m x) = true)
    (hne : knownAs m x ≠ []) : knownAs n x = knownAs m x := by
  obtain ⟨p, hp, ht⟩ := link_of_knownAs hm hne
  rw [← h.links _ hx] at hp
  have hknown := knownAs_of_link hn hp
  rwa [ht] at hknown

theorem knownAs_alike (h : Alike mine m n) (hm : Tidy m) (hn : Tidy n) (hx : mine (knownAs m x) = true)
    (hx' : mine (knownAs n x) = true) : knownAs n x = knownAs m x := by
  by_cases hne : knownAs m x = []
  · by_cases hne' : knownAs n x = []
    · rw [hne, hne']
    · exact (knownAs_of_alike h.symm hn hm hx' hne').symm
  · exact knownAs_of_alike h hm hn hx hne

theorem alike_lookup (mine : Bytes → Bool) (m : Manager) (transportMap : PartialMap Ptr Bytes) :
    Alike mine m { m with transportMap := transportMap } :=
  ⟨rfl, fun _ _ => rfl, fun _ _ _ _ => rfl, fun _ _ => rfl, fun _ _ => rfl⟩

theorem alike_status_other {tr : Transport} (hm : Tidy m) (ht : m.transports x = some tr)
    (hx : mine (knownAs m x) = false) (a b c d : Bool) :
    Alike mine m (LinkThreads.setStatus m x tr a b c d) := by
  refine ⟨rfl, fun _ _ => rfl, fun u p hu hp => ?_, fun _ _ => rfl,
    fun _ _ => rfl⟩
  have hne : p.transport ≠ x := by
    rintro rfl
    rw [knownAs_of_link hm hp, hu] at hx
    cases hx
  exact PartialMap.insert_of_ne _ _ hne

theorem alike_status {tr tr' : Transport} (h : Alike mine m n) (hm : Tidy m)
    (ht : m.transports x = some tr) (ht' : n.transports x = some tr') (hx : mine (knownAs m x) = true)
    (a b c d : Bool) :
    Alike mine (LinkThreads.setStatus m x tr a b c d) (LinkThreads.setStatus n x tr' a b c d) := by
  obtain ⟨u, p, hp, rfl⟩ := hm.used x tr ht
  rw [knownAs_of_link hm hp] at hx
  rw [h.transports u p hx hp, ht] at ht'
  cases ht'
  refine ⟨h.node, h.links, fun v q hv hq => ?_, h.routes, h.addresses⟩
  exact PartialMap.insert_congr _ fun _ => h.transports v q hv hq

end

section

variable {libs : Libs} {mine : Bytes → Bool} {s t s' t' : State} {e : Event}

theorem survived_datagram {env : Env} {d : Datagram} (hst : step libs s (.datagram env d) = some t)
    (hrun : t.crashed = false) :
    ∃ o, handlePacket libs env s.controller d = some o ∧ t.controller.manager = o.state.manager := by
  simp only [step, running_of_step hst, Bool.false_eq_true, ↓reduceIte] at hst
  split at hst
  · cases hst
    cases hrun
  · next o ho =>
    cases hst
    exact ⟨o, ho, rfl⟩

theorem survived_candidatesReady {x : Ptr} {candidates : List Candidate}
    (hst : step libs s (.candidatesReady x candidates) = some t) (hrun : t.crashed = false) :
    ∃ p, s.controller.manager.uidMap (knownAs s.controller.manager x) = some (some p) ∧
      t.controller.manager = { s.controller.manager with
        transportMap := (s.controller.manager.transportMap.index x []).2
        uidMap := s.controller.manager.uidMap.insert (knownAs s.controller.manager x)
          (some (withReported libs.jingle s.controller.manager p candidates)) } := by
  simp only [step, running_of_step hst, Bool.false_eq_true, ↓reduceIte, Option.some.injEq] at hst
  subst hst
  obtain ⟨hf, _⟩ | ⟨p, hp, _, hm⟩ := onCandidatesReady_cases libs.jingle s.controller.manager x candidates
  · exact absurd (hrun.symm.trans hf) (by simp)
  · exact ⟨p, hp, hm⟩

theorem survived_allocationDone {env : Env} {x : Ptr}
    (hst : step libs s (.candidatesAllocationDone env x) = some t) (hrun : t.crashed = false) :
    t.controller.manager = { s.controller.manager with
      transportMap := (s.controller.manager.transportMap.index x []).2 } := by
  simp only [step, running_of_step hst, Bool.false_eq_true, ↓reduceIte, Option.some.injEq] at hst
  subst hst
  obtain ⟨hm, hf⟩ := absorb_frame libs env s (onCandidatesAllocationDone s.controller.manager x)
  have hfound := hf hrun
  rw [onCandidatesAllocationDone_fault] at hfound
  rw [hm, onCandidatesAllocationDone_manager, uidMap_of_found hfound]

theorem survived_rwChange {env : Env} {x : Ptr} (hst : step libs s (.rwChangeState env x) = some t)
    (hrun : t.crashed = false) :
    t.controller.manager = { s.controller.manager with
      transportMap := (s.controller.manager.transportMap.index x []).2 } := by
  simp only [step, running_of_step hst, Bool.false_eq_true, ↓reduceIte, Option.some.injEq] at hst
  subst hst
  obtain ⟨hm, hf⟩ := absorb_frame libs env s (onRWChangeState s.controller.manager x)
  rw [hm]
  obtain hm' | ⟨hm', hfault⟩ := onRWChangeState_cases s.controller.manager x
  · rw [hm']
  · rw [hm', uidMap_of_found (hfault ▸ hf hrun)]

def apart : Event → Bool
  | .stateChange _ _ | .timer _ | .stanza _ | .processStart _ | .queueSignal _ | .readPacket _ _
  | .tapSend _ | .tapRecv _ => true
  | _ => false

theorem same_manager (hst : step libs s e = some t) (he : apart e = true) :
    t.controller.manager = s.controller.manager := by
  obtain ⟨taken, msgs, hc⟩ := controllerStep_of_step hst
  generalize t.controller = c at hc ⊢
  cases hc with
  | queueSignal h =>
    obtain ⟨_, _, _, rfl⟩ := handleQueueSignal_eq_some h
    rfl
  | readPacket h =>
    have hm := PacketPath.onReadPacket_manager _ h
    exact hm
  | tapRecv h =>
    obtain ⟨_, _, _, rfl, _⟩ := doPacketRecv_eq_some h
    rfl
  | same | stateChange | timer | stanza | processStart | tapSend => rfl
  | _ => cases he

theorem stepped_linkStatus {x : Ptr} {a b c d : Bool}
    (hst : step libs s (.linkStatus x a b c d) = some t) :
    ∃ tr, s.controller.manager.transports x = some tr ∧
      t.controller.manager = LinkThreads.setStatus s.controller.manager x tr a b c d := by
  simp only [step, running_of_step hst, Bool.false_eq_true, ↓reduceIte, Option.map_eq_some_iff] at hst
  obtain ⟨tr, htr, rfl⟩ := hst
  exact ⟨tr, htr, rfl⟩

/-- An event that does not concern the links leaves all that is kept about them. -/
theorem alike_unseen (hclosed : Closed mine) (h : Tidy s.controller.manager)
    (hst : Guarded (NewObjects libs) (Steps (step libs)) s e t) (hrun : t.crashed = false)
    (hc : concerns libs mine s e = false) : Alike mine s.controller.manager t.controller.manager := by
  obtain ⟨hnew, hst⟩ := hst
  have hcontroller := controllerStep_of_step hst
  cases e with
  | datagram env d =>
    obtain ⟨o, ho, hm⟩ := survived_datagram hst hrun
    rw [hm]
    obtain ⟨q, hq, hcarry⟩ | ⟨_, hs⟩ := carryOut_handlePacket ho
    · rw [concerns, hq, Option.any_some] at hc
      cases huid : q.uid with
      | none => simp [huid] at hc
      | some uid =>
        rw [huid, Option.all_some] at hc
        refine alike_carryOut_other hclosed h.live ?_ huid hc hcarry
        rintro r cas rfl hr
        exact hnew r (linkRequest_of_demand hq) hr
    · exact alike_resettled hs
  | candidatesReady x candidates =>
    obtain ⟨p, hp, hm⟩ := survived_candidatesReady hst hrun
    rw [hm]
    exact ⟨rfl, fun u hu => PartialMap.insert_of_ne _ _ (ne_of_mine hu hc),
      fun _ _ _ _ => rfl, fun _ _ => rfl, fun _ _ => rfl⟩
  | linkStatus x a b c d =>
    obtain ⟨tr, htr, hm⟩ := stepped_linkStatus hst
    rw [hm]
    exact alike_status_other h htr hc a b c d
  | candidatesAllocationDone env x =>
    rw [survived_allocationDone hst hrun]
    exact alike_lookup _ _ _
  | rwChangeState env x =>
    rw [survived_rwChange hst hrun]
    exact alike_lookup _ _ _
  | stateChange | timer | stanza | processStart | queueSignal | readPacket | tapSend | tapRecv =>
    rw [same_manager hst rfl]
    exact .refl _ _

theorem alike_seen (h : Alike mine s.controller.manager t.controller.manager)
    (hcall : callOf t.controller = callOf s.controller) (hs : Tidy s.controller.manager)
    (ht : Tidy t.controller.manager) (hst : step libs s e = some s') (hst' : step libs t e = some t')
    (hrun : s'.crashed = false) (hrun' : t'.crashed = false) (hc : concerns libs mine s e = true)
    (hc' : concerns libs mine t e = true) : Alike mine s'.controller.manager t'.controller.manager := by
  cases e with
  | datagram env d =>
    obtain ⟨o, ho, hm⟩ := survived_datagram hst hrun
    obtain ⟨o', ho', hm'⟩ := survived_datagram hst' hrun'
    rw [hm, hm']
    obtain ⟨q, hq, hcarry⟩ | ⟨hnone, _⟩ := carryOut_handlePacket ho
    · obtain ⟨q', hq', hcarry'⟩ | ⟨hnone', _⟩ := carryOut_handlePacket ho'
      · rw [demand_congr hcall, hq] at hq'
        cases hq'
        rw [concerns, hq, Option.any_some] at hc
        exact alike_carryOut h hc hcarry hcarry'
      · simp [concerns, hnone'] at hc'
    · simp [concerns, hnone] at hc
  | candidatesReady x candidates =>
    obtain ⟨p, hp, hm⟩ := survived_candidatesReady hst hrun
    obtain ⟨p', hp', hm'⟩ := survived_candidatesReady hst' hrun'
    have hx : mine (knownAs s.controller.manager x) = true := hc
    rw [knownAs_alike h hs ht hx hc', h.links _ hx, hp] at hp'
    cases hp'
    have hreported : withReported libs.jingle t.controller.manager p candidates =
        withReported libs.jingle s.controller.manager p candidates := by
      have htap : t.controller.manager.tapName = s.controller.manager.tapName := congrArg Node.tapName h.node
      rw [withReported, htap, withReported]
    rw [hm, hm', knownAs_alike h hs ht hx hc', hreported]
    refine ⟨h.node, fun u hu => PartialMap.insert_congr _ fun _ => h.links u hu,
      fun u q hu hq => ?_, h.routes, h.addresses⟩
    obtain ⟨rfl, he⟩ | ⟨_, hold⟩ := PartialMap.insert_eq_some.mp hq
    · cases he
      exact h.transports _ p hu hp
    · exact h.transports u q hu hold
  | linkStatus x a b c d =>
    obtain ⟨tr, htr, hm⟩ := stepped_linkStatus hst
    obtain ⟨tr', htr', hm'⟩ := stepped_linkStatus hst'
    rw [hm, hm']
    exact alike_status h hs htr htr' hc a b c d
  | _ => cases hc

theorem Alike.stateToJson {m n : Manager} (h : Alike mine m n) {u : Bytes} (hu : mine u = true)
    (stats : Ptr → List StateReport.ConnectionInfo) (now xmppTime : Fin (2 ^ 32)) (getStats : Bool) :
    StateReport.stateToJson stats now n u xmppTime getStats =
      StateReport.stateToJson stats now m u xmppTime getStats := by
  unfold StateReport.stateToJson
  dsimp only
  rw [h.addresses u hu, h.links u hu]
  cases hp : m.uidMap u with
  | none => rfl
  | some q =>
    cases q with
    | none => rfl
    | some p =>
      dsimp only
      rw [h.transports u p hu hp]

/-- The two states of a pair of runs. Of a process that has ended nothing is said. -/
structure Agree (mine : Bytes → Bool) (s t : State) : Prop where
  calls : callOf t.controller = callOf s.controller
  left : s.crashed = false → Tidy s.controller.manager
  right : t.crashed = false → Tidy t.controller.manager
  managers : s.crashed = false → t.crashed = false → Alike mine s.controller.manager t.controller.manager

theorem Agree.symm (h : Agree mine s t) : Agree mine t s :=
  ⟨h.calls.symm, h.right, h.left, fun ht hs => (h.managers hs ht).symm⟩

theorem agree_unseen (hclosed : Closed mine) (h : Agree mine s t)
    (hst : Guarded (NewObjects libs) (Steps (step libs)) s e s') (hc : concerns libs mine s e = false) :
    Agree mine s' t := by
  have hs := running_of_step hst.2
  refine ⟨h.calls.trans (callOf_step hst.2).symm, fun hrun => tidy_step (h.left hs) hst hrun, h.right, ?_⟩
  intro hrun ht
  exact (alike_unseen hclosed (h.left hs) hst hrun hc).symm.trans (h.managers hs ht)

theorem agree_seen (h : Agree mine s t) (hst : Guarded (NewObjects libs) (Steps (step libs)) s e s')
    (hst' : Guarded (NewObjects libs) (Steps (step libs)) t e t') (hc : concerns libs mine s e = true)
    (hc' : concerns libs mine t e = true) : Agree mine s' t' := by
  have hs := running_of_step hst.2
  have ht := running_of_step hst'.2
  refine ⟨?_, fun hrun => tidy_step (h.left hs) hst hrun, fun hrun => tidy_step (h.right ht) hst' hrun, ?_⟩
  · rw [callOf_step hst'.2, h.calls, callOf_step hst.2]
  · intro hrun hrun'
    exact alike_seen (h.managers hs ht) h.calls (h.left hs) (h.right ht) hst.2 hst'.2 hrun hrun' hc hc'

/-- Links do not interfere. In two runs of one node from its start, in which the
same is done to the links of certain uids, whatever else is done to other links,
and by the tap, the other nodes and the XMPP server, in which order, what the
manager keeps about these links is the same in the end, and so are their records
in `get_state`, given the same statistics, clock and time of presence. Only links
that share a key have to be looked at together. -/
theorem links_do_not_interfere (hclosed : Closed mine) {es : List Event} (hs : Initial s) (ht : Initial t)
    (hnode : nodeOf t.controller.manager = nodeOf s.controller.manager)
    (h : Seen (Guarded (NewObjects libs) (Steps (step libs))) (concerns libs mine) s es s')
    (h' : Seen (Guarded (NewObjects libs) (Steps (step libs))) (concerns libs mine) t es t')
    (hrun : s'.crashed = false) (hrun' : t'.crashed = false) :
    Alike mine s'.controller.manager t'.controller.manager ∧
      ∀ u, mine u = true → ∀ stats now xmppTime getStats,
        StateReport.stateToJson stats now t'.controller.manager u xmppTime getStats =
          StateReport.stateToJson stats now s'.controller.manager u xmppTime getStats := by
  have hagree : Agree mine s t := by
    refine ⟨?_, fun _ => tidy_initial hs, fun _ => tidy_initial ht, fun _ _ => ⟨hnode, ?_, ?_, ?_, ?_⟩⟩ <;>
      obtain ⟨_, _, _, _, _, _, _, rfl⟩ := hs <;> obtain ⟨_, _, _, _, _, _, _, rfl⟩ := ht
    · rfl
    · intro u hu
      rfl
    · intro u p hu hp
      cases hp
    · intro u hu
      rfl
    · intro u hu
      rfl
  have hend : Agree mine s' t' := by
    refine alike_of_seen ?_ ?_ ?_ h h' hagree
    · intro s t e s' hR hst hc
      exact agree_unseen hclosed hR hst hc
    · intro s t e t' hR hst hc
      exact (agree_unseen hclosed hR.symm hst hc).symm
    · intro s t e s' t' hR hst hc hst' hc'
      exact agree_seen hR hst hst' hc hc'
  have halike := hend.managers hrun hrun'
  exact ⟨halike, fun u hu => halike.stateToJson hu⟩

end

def otherText : Bytes := bytes "\x7b\"m\":\"create_link\",\"uid\":\"c\"\x7d"

def otherValue : Json.Value :=
  .object [(bytes "m", .string (bytes "create_link")), (bytes "uid", .string (bytes "c"))]

def otherDatagram : Datagram := datagramOf (kIpopVer :: kTincanControl :: otherText)

def linkLibs : Libs := sampleLibs [(linkText [49], linkValue 1), (otherText, otherValue)]

def otherEnv : Env := ⟨fun _ => 0, ⟨3, 4, 0⟩, fun _ => []⟩

def keyOf (key u : Bytes) : Bool := shortUid u == key

theorem one_and_two_links : ∃ s t₁ t₂ t,
    step linkLibs startState (.datagram sampleEnv (linkDatagram 49)) = some s ∧
    step linkLibs startState (.datagram otherEnv otherDatagram) = some t₁ ∧
    step linkLibs t₁ (.datagram sampleEnv (linkDatagram 49)) = some t₂ ∧
    step linkLibs t₂ (.linkStatus 3 true true true true) = some t ∧
    concerns linkLibs (keyOf (bytes "b")) t₁ (.datagram sampleEnv (linkDatagram 49)) = true ∧
    concerns linkLibs (keyOf (bytes "b")) t₂ (.linkStatus 3 true true true true) = false ∧
    t₁.controller.manager.transports 1 = none ∧ t₁.controller.manager.channels 2 = none ∧
    (s.controller.manager.uidMap (bytes "b")).isSome = true ∧
    s.controller.manager.uidMap (bytes "c") = none ∧
    (t.controller.manager.uidMap (bytes "c")).isSome = true ∧ s.crashed = false ∧ t.crashed = false :=
  ⟨_, _, _, _, rfl, rfl, rfl, rfl, rfl, rfl, rfl, rfl, rfl, rfl, rfl, rfl, rfl⟩

theorem links_do_not_interfere_other : ∃ s t : State,
    (s.controller.manager.uidMap (bytes "b")).isSome = true ∧
    s.controller.manager.uidMap (bytes "c") = none ∧
    (t.controller.manager.uidMap (bytes "c")).isSome = true ∧
    Alike (keyOf (bytes "b")) s.controller.manager t.controller.manager := by
  obtain ⟨s, t₁, t₂, t, hs, ht₁, ht₂, ht, hseen, hunseen, htransport, hchannel, hlink, hnone, hother,
    hrun, hrun'⟩ := one_and_two_links
  have hnew : NewObjects linkLibs startState (.datagram sampleEnv (linkDatagram 49)) :=
    fun _ _ _ => ⟨by decide, rfl, rfl⟩
  have hnew₁ : NewObjects linkLibs startState (.datagram otherEnv otherDatagram) :=
    fun _ _ _ => ⟨by decide, rfl, rfl⟩
  have hnew₂ : NewObjects linkLibs t₁ (.datagram sampleEnv (linkDatagram 49)) :=
    fun _ _ _ => ⟨by decide, htransport, hchannel⟩
  have hnew₃ : NewObjects linkLibs t₂ (.linkStatus 3 true true true true) := trivial
  have hlinked : concerns linkLibs (keyOf (bytes "b")) startState (.datagram sampleEnv (linkDatagram 49)) = true :=
    rfl
  have hapart : concerns linkLibs (keyOf (bytes "b")) startState (.datagram otherEnv otherDatagram) = false :=
    rfl
  have hleft : Seen (Guarded (NewObjects linkLibs) (Steps (step linkLibs)))
      (concerns linkLibs (keyOf (bytes "b"))) startState _ s := (Seen.nil _).seen ⟨hnew, hs⟩ hlinked
  have hright : Seen (Guarded (NewObjects linkLibs) (Steps (step linkLibs)))
      (concerns linkLibs (keyOf (bytes "b"))) startState _ t :=
    (((Seen.nil _).unseen ⟨hnew₁, ht₁⟩ hapart).seen ⟨hnew₂, ht₂⟩ hseen).unseen ⟨hnew₃, ht⟩ hunseen
  have hclosed : Closed (keyOf (bytes "b")) := by
    intro u v huv
    rw [keyOf, huv, keyOf]
  exact ⟨s, t, hlink, hnone, hother, (links_do_not_interfere hclosed startState_initial startState_initial
    rfl hleft hright hrun hrun').1⟩

end Tincan.Isolation
