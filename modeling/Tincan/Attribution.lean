import Tincan.CandidateExchange
import Tincan.FastLookup
import Tincan.LinkChanges

namespace Tincan.Attribution

open Tincan.Library Tincan.Library.Text Tincan.Library.Runs Tincan.Library.PartialMap
open Tincan.Libjingle Tincan.Utils Tincan.ConnectionManager Tincan.StateReport Tincan.ControllerAccess
open Tincan.CandidateExchange Tincan.LinkThreads Tincan.FastLookup Tincan.LinkChanges

/-- The manager, and the candidates that each transport has reported since it
was made. -/
structure Node where
  manager : Manager
  reported : Ptr → List Candidate

inductive Notification
  | candidatesReady (candidates : List Candidate)
  | candidatesAllocationDone
  | rwChangeState

inductive Event
  | createTransport (r : CreateRequest) (f : Fresh)
  | createConnections (uid candidates : Bytes)
  | destroyTransport (uid : Bytes)
  | getState (friends : List (Bytes × Fin (2 ^ 32))) (getStats : Bool)
  | raised (t : Ptr) (n : Notification)
  | setup (r : SetupRequest)
  | elsewhere

def handle (L : Api) (m : Manager) (t : Ptr) : Notification → ConnectionManager.Outcome
  | .candidatesReady candidates => onCandidatesReady L m t candidates
  | .candidatesAllocationDone => onCandidatesAllocationDone m t
  | .rwChangeState => onRWChangeState m t

def noted (reported : Ptr → List Candidate) (t : Ptr) : Notification → Ptr → List Candidate
  | .candidatesReady candidates => Function.update reported t (reported t ++ candidates)
  | _ => reported

/-- Events are raised for the transports of links only, and an address may be
handed out again once its transport is gone. -/
inductive Step (L : Api) (s : Node) : Event → Node → Prop
  | refuse {r : CreateRequest} {f : Fresh} (hr : r.refused s.manager = true) :
      Step L s (.createTransport r f) s
  | createTransport {r : CreateRequest} {f : Fresh} (hr : r.refused s.manager = false)
      (hf : Available s.manager f) :
      Step L s (.createTransport r f)
        ⟨(createTransport L s.manager r f).1, Function.update s.reported f.transport []⟩
  | createConnections {uid candidates : Bytes} {m : Manager} {done : Bool}
      (h : createConnections L s.manager uid candidates = some (m, done)) :
      Step L s (.createConnections uid candidates) ⟨m, s.reported⟩
  | destroyTransport {uid : Bytes} {m : Manager} {done : Bool} {log : List Log}
      (h : destroyTransport s.manager uid = some (m, done, log)) :
      Step L s (.destroyTransport uid) ⟨m, s.reported⟩
  | getState {stats : Ptr → List ConnectionInfo} {now : Fin (2 ^ 32)}
      {friends : List (Bytes × Fin (2 ^ 32))} {getStats : Bool}
      {peers : List (List (Bytes × Json.Value))}
      (h : getState stats now s.manager friends getStats = some peers) :
      Step L s (.getState friends getStats) s
  | raised {t : Ptr} (n : Notification) (ht : ∃ u, fullLookup s.manager u = some t) :
      Step L s (.raised t n) ⟨(handle L s.manager t n).manager, noted s.reported t n⟩
  | setup (memory : Nat → Byte) (r : SetupRequest) :
      Step L s (.setup r) ⟨(setup L memory s.manager r).1, s.reported⟩
  | elsewhere {m : Manager} (h : SameLinks s.manager m) : Step L s .elsewhere ⟨m, s.reported⟩

def Initial (s : Node) : Prop :=
  s.manager.uidMap = PartialMap.empty ∧ s.manager.transportMap = PartialMap.empty

def Observes : Event → Prop
  | .getState _ _ | .raised _ _ => True
  | _ => False

structure SameKeys (m m' : Manager) : Prop where
  uidMap : ∀ u, (m'.uidMap u).isSome = (m.uidMap u).isSome
  transportMap : ∀ t, (m'.transportMap t).isSome = (m.transportMap t).isSome

/-- A message about the link that owns a transport. Candidates in it are of
this transport. -/
inductive Attributed (L : Api) (s : Node) (t : Ptr) (u : Bytes) : PeerMessage → Prop
  | conStat (status : Bytes) : Attributed L s t u ⟨kLocalControllerId, u, status, kConStat⟩
  | conResp {p : PeerState} {words : List Bytes} (hp : s.manager.uidMap u = some (some p))
      (ht : p.transport = t) (hw : ∀ word ∈ words, ∃ c ∈ s.reported t, word = encodeCandidate L c) :
      Attributed L s t u ⟨p.overlayId, u,
        words.foldl (fun data c => data ++ [32] ++ c) s.manager.fingerprint, kConResp⟩

section

variable {m m' : Manager} {u uid : Bytes} {t : Ptr} {p : PeerState}

theorem fullLookup_eq_some :
    fullLookup m u = some t ↔ ∃ p, m.uidMap u = some (some p) ∧ p.transport = t := by
  simp only [fullLookup, Option.bind_eq_some_iff, Option.map_eq_some_iff]
  constructor
  · rintro ⟨_, hu, p, rfl, ht⟩
    exact ⟨p, hu, ht⟩
  · rintro ⟨p, hu, ht⟩
    exact ⟨_, hu, p, rfl, ht⟩

theorem fullLookup_insert (h : m'.uidMap = m.uidMap.insert uid (some p)) :
    fullLookup m' = PartialMap.insert (fullLookup m) uid p.transport := by
  funext u
  by_cases he : u = uid
  · subst he
    simp [fullLookup, h]
  · simp [fullLookup, h, he]

theorem fullLookup_erase (h : m'.uidMap = m.uidMap.erase uid) :
    fullLookup m' = PartialMap.erase (fullLookup m) uid := by
  funext u
  by_cases he : u = uid
  · subst he
    simp [fullLookup, h]
  · simp [fullLookup, h, he]

end

/-- What holds whenever no call is in progress. -/
structure Paired (L : Api) (s : Node) : Prop where
  inverse : Inverse (fullLookup s.manager) s.manager.transportMap
  live : Live s.manager
  reported : ∀ u p, s.manager.uidMap u = some (some p) →
    ∀ word ∈ p.candidateList, ∃ c ∈ s.reported p.transport, word = encodeCandidate L c

section

variable {L : Api} {s : Node} {m : Manager} {u : Bytes} {t : Ptr} {p p' : PeerState}
  {reported : Ptr → List Candidate}

theorem Paired.congr (h : Paired L s) (hu : m.uidMap = s.manager.uidMap)
    (ht : m.transportMap = s.manager.transportMap)
    (hl : ∀ t, (s.manager.transports t).isSome → (m.transports t).isSome) :
    Paired L ⟨m, s.reported⟩ := by
  have hf : fullLookup m = fullLookup s.manager := by
    unfold fullLookup
    rw [hu]
  refine ⟨?_, h.live.congr hu hl, ?_⟩
  · simp only [hf, ht]
    exact h.inverse
  · intro u p hp
    exact h.reported u p (hu ▸ hp)

theorem Paired.change (h : Paired L s) (hp : s.manager.uidMap u = some (some p))
    (hu : m.uidMap = s.manager.uidMap.insert u (some p')) (hp' : p'.transport = p.transport)
    (ht : m.transportMap = s.manager.transportMap) (hl : Live m)
    (hr : ∀ t c, c ∈ s.reported t → c ∈ reported t)
    (hw : ∀ word ∈ p'.candidateList, ∃ c ∈ reported p.transport, word = encodeCandidate L c) :
    Paired L ⟨m, reported⟩ := by
  have hf : fullLookup m = fullLookup s.manager := by
    rw [fullLookup_insert hu, hp', insert_of_mem (fullLookup_eq_some.mpr ⟨p, hp, rfl⟩)]
  refine ⟨?_, hl, ?_⟩
  · simp only [hf, ht]
    exact h.inverse
  · intro v q hq word hword
    simp only [hu] at hq
    obtain ⟨_, he⟩ | ⟨_, hold⟩ := insert_eq_some.mp hq
    · cases he
      exact hp' ▸ hw word hword
    · obtain ⟨c, hc, he⟩ := h.reported v q hold word hword
      exact ⟨c, hr _ c hc, he⟩

theorem candidateList_buildTransport (L : Api) (m : Manager) (r : CreateRequest) (f : Fresh) :
    (buildTransport L m r f).2.candidateList = ∅ := by
  simp only [buildTransport, setupTransport, newPeer, setRelay]
  split_ifs <;> rfl

theorem paired_createTransport {r : CreateRequest} {f : Fresh} (h : Paired L s)
    (hr : r.refused s.manager = false) (hf : Available s.manager f) :
    Paired L ⟨(createTransport L s.manager r f).1, Function.update s.reported f.transport []⟩ := by
  obtain ⟨hrefused, _⟩ | ⟨_, tr, hm⟩ := createTransport_cases L s.manager r f
  · exact absurd (hrefused.symm.trans hr) Bool.true_eq_false_eq_False
  have htransport : (buildTransport L s.manager r f).2.transport = f.transport :=
    (buildTransport_fields L s.manager r f).2
  have hfree : s.manager.transportMap f.transport = none := by
    by_contra hne
    obtain ⟨u, hu⟩ := Option.ne_none_iff_exists'.mp hne
    obtain ⟨p, hp, he⟩ := fullLookup_eq_some.mp ((h.inverse u f.transport).mpr hu)
    exact h.live.transport_ne hf hp he
  have hlookup : fullLookup s.manager r.uid = none := by
    simp only [CreateRequest.refused, Bool.or_eq_false_iff, Option.isSome_eq_false_iff,
      Option.isNone_iff_eq_none] at hr
    simp [fullLookup, hr.1]
  have hu : (createTransport L s.manager r f).1.uidMap =
      s.manager.uidMap.insert r.uid (some (buildTransport L s.manager r f).2) := by rw [hm]
  refine ⟨?_, h.live.create (fun _ => hf), ?_⟩
  · simp only [fullLookup_insert hu, htransport]
    rw [hm]
    exact h.inverse.insert hlookup hfree
  · intro u p hp word hword
    simp only [hu] at hp
    obtain ⟨_, he⟩ | ⟨_, hold⟩ := insert_eq_some.mp hp
    · cases he
      rw [candidateList_buildTransport] at hword
      cases hword
    · obtain ⟨c, hc, he⟩ := h.reported u p hold word hword
      refine ⟨c, ?_, he⟩
      change c ∈ Function.update s.reported f.transport [] p.transport
      rwa [Function.update_of_ne (h.live.transport_ne hf hold)]

theorem paired_destroyTransport {uid : Bytes} {done : Bool} {log : List Log} (h : Paired L s)
    (hd : destroyTransport s.manager uid = some (m, done, log)) : Paired L ⟨m, s.reported⟩ := by
  have hl := h.live.destroy hd
  obtain ⟨_, rfl⟩ | ⟨p, hp, rfl⟩ := destroyTransport_cases hd
  · exact h
  refine ⟨?_, hl, ?_⟩
  · have hlookup : fullLookup { s.manager with uidMap := s.manager.uidMap.erase uid } =
        PartialMap.erase (fullLookup s.manager) uid := fullLookup_erase rfl
    have hinverse := h.inverse.erase (fullLookup_eq_some.mpr ⟨p, hp, rfl⟩)
    rwa [← hlookup] at hinverse
  · intro u q hq
    exact h.reported u q (erase_eq_some.mp hq).2

theorem paired_createConnections {uid cas : Bytes} {done : Bool} (h : Paired L s)
    (hc : createConnections L s.manager uid cas = some (m, done)) : Paired L ⟨m, s.reported⟩ := by
  have hl := h.live.connect hc
  obtain rfl | ⟨p, tr, candidates, hp, _, htr, rfl⟩ := createConnections_cases hc
  · exact h
  · exact h.change hp rfl rfl rfl hl (fun _ _ hc => hc) (h.reported uid p hp)

theorem onRWChangeState_eq (ht : s.manager.transportMap t = some u)
    (hp : s.manager.uidMap u = some (some p)) (hl : (s.manager.transports t).isSome) :
    ∃ status, onRWChangeState s.manager t =
      ⟨s.manager, [⟨kLocalControllerId, u, status, kConStat⟩], false⟩ := by
  obtain ⟨tr, htr⟩ := Option.isSome_iff_exists.mp hl
  simp only [onRWChangeState, index_of_mem [] ht, htr, index_of_mem none hp]
  split_ifs <;> exact ⟨_, rfl⟩

theorem paired_raised (n : Notification) (h : Paired L s) (ht : ∃ u, fullLookup s.manager u = some t) :
    Paired L ⟨(handle L s.manager t n).manager, noted s.reported t n⟩ := by
  obtain ⟨u, hu⟩ := ht
  obtain ⟨p, hp, rfl⟩ := fullLookup_eq_some.mp hu
  have hknown := (h.inverse u p.transport).mp hu
  cases n with
  | candidatesReady candidates =>
    simp only [handle, noted, onCandidatesReady_eq hknown hp]
    refine h.change hp rfl rfl rfl (h.live.change hp rfl rfl (fun _ hl => hl)) ?_ ?_
    · intro t c hc
      by_cases he : t = p.transport
      · subst he
        rw [Function.update_self]
        exact List.mem_append_left _ hc
      · rwa [Function.update_of_ne he]
    · intro word hword
      rw [Function.update_self]
      obtain hold | hnew := Finset.mem_union.mp hword
      · obtain ⟨c, hc, he⟩ := h.reported u p hp word hold
        exact ⟨c, List.mem_append_left _ hc, he⟩
      · simp only [List.mem_toFinset, List.mem_map, advertised, List.flatten_singleton,
          List.mem_filter] at hnew
        obtain ⟨c, ⟨hc, _⟩, rfl⟩ := hnew
        exact ⟨c, List.mem_append_right _ hc, rfl⟩
  | candidatesAllocationDone =>
    simp only [handle, noted, onCandidatesAllocationDone_eq hknown hp]
    exact h
  | rwChangeState =>
    obtain ⟨status, he⟩ := onRWChangeState_eq hknown hp (h.live.transport hp)
    simp only [handle, noted, he]
    exact h

theorem paired_setup (h : Paired L s) (memory : Nat → Byte) (r : SetupRequest) :
    Paired L ⟨(setup L memory s.manager r).1, s.reported⟩ := by
  unfold setup
  split <;> exact h.congr rfl rfl (fun _ hl => hl)

theorem paired_step {t : Node} {e : Event} (h : Paired L s) (hst : Step L s e t) : Paired L t := by
  cases hst with
  | refuse | getState => exact h
  | createTransport hr hf => exact paired_createTransport h hr hf
  | createConnections hc => exact paired_createConnections h hc
  | destroyTransport hd => exact paired_destroyTransport h hd
  | raised n ht => exact paired_raised n h ht
  | setup memory r => exact paired_setup h memory r
  | elsewhere hs => exact h.congr hs.uidMap hs.transportMap (fun t hl => (hs.live t).symm ▸ hl)

theorem paired_of_reachable (h : Reachable (Step L) Initial s) : Paired L s := by
  refine reachable_invariant (P := Paired L) ?_ (fun _ _ _ hs hst => paired_step hs hst) h
  rintro s ⟨hu, ht⟩
  have hf : fullLookup s.manager = PartialMap.empty := by
    unfold fullLookup
    rw [hu]
    rfl
  refine ⟨?_, live_of_empty hu, ?_⟩
  · rw [hf, ht]
    intro u t
    constructor <;> intro h <;> cases h
  · intro u p hp
    rw [hu] at hp
    cases hp

theorem attributed_handle (h : Paired L s) (hu : fullLookup s.manager u = some t) (n : Notification) :
    (handle L s.manager t n).fault = false ∧
      ∀ msg ∈ (handle L s.manager t n).sent, Attributed L s t u msg := by
  obtain ⟨p, hp, rfl⟩ := fullLookup_eq_some.mp hu
  have hknown := (h.inverse u p.transport).mp hu
  cases n with
  | candidatesReady candidates =>
    rw [handle, onCandidatesReady_eq hknown hp]
    exact ⟨rfl, by simp⟩
  | candidatesAllocationDone =>
    simp only [handle, onCandidatesAllocationDone_eq hknown hp, List.mem_singleton, forall_eq,
      true_and]
    refine .conResp hp rfl ?_
    intro word hword
    exact h.reported u p hp word (mem_inOrder.mp hword)
  | rwChangeState =>
    obtain ⟨status, he⟩ := onRWChangeState_eq hknown hp (h.live.transport hp)
    simp only [handle, he, List.mem_singleton, forall_eq, true_and]
    exact .conStat status

theorem sameKeys_raised (h : Paired L s) (hu : fullLookup s.manager u = some t) (n : Notification) :
    SameKeys s.manager (handle L s.manager t n).manager := by
  obtain ⟨p, hp, rfl⟩ := fullLookup_eq_some.mp hu
  have hknown := (h.inverse u p.transport).mp hu
  cases n with
  | candidatesReady candidates =>
    simp only [handle, onCandidatesReady_eq hknown hp]
    refine ⟨?_, fun _ => rfl⟩
    intro v
    by_cases he : v = u
    · subst he
      simp [hp]
    · simp [he]
  | candidatesAllocationDone =>
    simp only [handle, onCandidatesAllocationDone_eq hknown hp]
    exact ⟨fun _ => rfl, fun _ => rfl⟩
  | rwChangeState =>
    obtain ⟨status, he⟩ := onRWChangeState_eq hknown hp (h.live.transport hp)
    simp only [handle, he]
    exact ⟨fun _ => rfl, fun _ => rfl⟩

end

/-- Libjingle raises events for the transports of links. -/
def Raised (s : Process.State) : Process.Event → Prop
  | .candidatesReady t _ | .candidatesAllocationDone _ t | .rwChangeState _ t =>
      ∃ u, fullLookup s.controller.manager u = some t
  | _ => True

def Promised (libs : Libs) (s : Process.State) (e : Process.Event) : Prop :=
  NewObjects libs s e ∧ Raised s e

theorem run_of_step {libs : Libs} {s t : Process.State} {e : Process.Event}
    (hst : Guarded (Promised libs) (Steps (Process.step libs)) s e t)
    (reported : Ptr → List Candidate) :
    ∃ es reported', Run (Step libs.jingle) ⟨s.controller.manager, reported⟩ es
      ⟨t.controller.manager, reported'⟩ := by
  obtain ⟨⟨hnew, hp⟩, hst⟩ := hst
  have hm := managerStep_of_step hst
  generalize t.controller.manager = m', t.crashed = crashed at hm
  cases hm with
  | quiet hs => exact ⟨_, _, run_single (.elsewhere hs)⟩
  | setup env d r => exact ⟨_, _, run_single (.setup env.memory r)⟩
  | @link env d r cas m' crashed hr hm =>
    have hcreate : ∃ reported', Run (Step libs.jingle) ⟨s.controller.manager, reported⟩
        [.createTransport r env.fresh]
        ⟨(createTransport libs.jingle s.controller.manager r env.fresh).1, reported'⟩ := by
      cases href : r.refused s.controller.manager with
      | true =>
        rw [createTransport, if_pos href]
        exact ⟨_, run_single (.refuse href)⟩
      | false => exact ⟨_, run_single (.createTransport href (hnew r hr href))⟩
    obtain ⟨reported', hcreate⟩ := hcreate
    unfold giveCandidates at hm
    split at hm
    · cases hm
      exact ⟨_, _, hcreate⟩
    · rw [Option.map_eq_some_iff] at hm
      obtain ⟨⟨m', done⟩, hc, rfl⟩ := hm
      exact ⟨_, _, run_append hcreate (run_single (.createConnections hc))⟩
  | trim hd => exact ⟨_, _, run_single (.destroyTransport hd)⟩
  | candidatesReady t candidates => exact ⟨_, _, run_single (.raised (.candidatesReady candidates) hp)⟩
  | candidatesAllocationDone env t => exact ⟨_, _, run_single (.raised .candidatesAllocationDone hp)⟩
  | rwChangeState env t => exact ⟨_, _, run_single (.raised .rwChangeState hp)⟩

/-- The manager of a process is in a state that its own calls lead to. -/
theorem reachable_of_process {libs : Libs} {s : Process.State}
    (h : Reachable (Guarded (Promised libs) (Steps (Process.step libs))) Process.Initial s) :
    ∃ reported, Reachable (Step libs.jingle) Initial ⟨s.controller.manager, reported⟩ := by
  refine reachable_invariant (P := fun s : Process.State => ∃ reported,
    Reachable (Step libs.jingle) Initial ⟨s.controller.manager, reported⟩) ?_ ?_ h
  · rintro s ⟨tiebreaker, kTapName, ip4, mac, logging, xmppState, onMsgCounter, rfl⟩
    exact ⟨fun _ => [], reachable_init ⟨rfl, rfl⟩⟩
  · rintro s e t ⟨reported, s₀, es₀, hs₀, hr⟩ hst
    obtain ⟨es, reported', hrun⟩ := run_of_step hst reported
    exact ⟨reported', s₀, es₀ ++ es, hs₀, run_append hr hrun⟩

/-- Outside calls the two tables are inverse to each other, events and queries
change no key, and what is sent for a transport names the link that owns it. -/
theorem notifications_attributed (L : Api) (s : Node) (h : Reachable (Step L) Initial s) :
    (∀ u t, (∃ p, s.manager.uidMap u = some (some p) ∧ p.transport = t) ↔
      s.manager.transportMap t = some u) ∧
    (∀ e s', Observes e → Step L s e s' → SameKeys s.manager s'.manager) ∧
    ∀ t n s', Step L s (.raised t n) s' → ∃ u, s.manager.transportMap t = some u ∧
      (handle L s.manager t n).fault = false ∧
      ∀ msg ∈ (handle L s.manager t n).sent, Attributed L s t u msg := by
  have hp := paired_of_reachable h
  refine ⟨?_, ?_, ?_⟩
  · intro u t
    rw [← fullLookup_eq_some]
    exact hp.inverse u t
  · intro e s' he hst
    cases hst with
    | getState => exact ⟨fun _ => rfl, fun _ => rfl⟩
    | raised n ht =>
      obtain ⟨u, hu⟩ := ht
      exact sameKeys_raised hp hu n
    | _ => cases he
  · intro t n s' hst
    cases hst with
    | raised n ht =>
      obtain ⟨u, hu⟩ := ht
      exact ⟨u, (hp.inverse u t).mp hu, attributed_handle hp hu n⟩

def createdNode : Node :=
  ⟨(Routes.created Routes.start Routes.uidB ⟨1, 2, 0⟩).manager, Function.update (fun _ => []) 1 []⟩

def gathered : Notification :=
  .candidatesReady [udpCandidate (bytes "eth0") 5000, udpCandidate (bytes "wlan0") 5001]

def reportedNode : Node :=
  ⟨(handle Api.plain createdNode.manager 1 gathered).manager, noted createdNode.reported 1 gathered⟩

theorem notifications_attributed_reported :
    ∃ u, reportedNode.manager.transportMap 1 = some u ∧
      (handle Api.plain reportedNode.manager 1 .candidatesAllocationDone).fault = false ∧
      ∀ msg ∈ (handle Api.plain reportedNode.manager 1 .candidatesAllocationDone).sent,
        Attributed Api.plain reportedNode 1 u msg := by
  have hcreated : Step Api.plain ⟨Routes.start.manager, fun _ => []⟩
      (.createTransport (Routes.sampleRequest Routes.uidB) ⟨1, 2, 0⟩) createdNode :=
    .createTransport rfl ⟨by decide, rfl, rfl⟩
  have hreported : Step Api.plain createdNode (.raised 1 gathered) reportedNode :=
    .raised gathered ⟨Routes.uidB, rfl⟩
  have hreach : Reachable (Step Api.plain) Initial reportedNode :=
    reachable_step (reachable_step (reachable_init ⟨rfl, rfl⟩) hcreated) hreported
  exact (notifications_attributed Api.plain reportedNode hreach).2.2 1 _ _
    (.raised .candidatesAllocationDone ⟨Routes.uidB, rfl⟩)

end Tincan.Attribution
