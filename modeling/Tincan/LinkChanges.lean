import Tincan.Process

namespace Tincan.LinkChanges

open Tincan.Library Tincan.Library.Text Tincan.Library.Runs Tincan.Libjingle Tincan.Utils
open Tincan.ConnectionManager Tincan.ControllerAccess Tincan.Process

/-- The identity of a node, which only `Setup` writes. -/
structure SameIdentity (m m' : Manager) : Prop where
  tincanId : m'.tincanId = m.tincanId
  localFingerprint : m'.localFingerprint = m.localFingerprint
  fingerprint : m'.fingerprint = m.fingerprint

/-- What most events leave alone: the tables of links, the identity, and which
transports are alive. -/
structure SameLinks (m m' : Manager) : Prop where
  uidMap : m'.uidMap = m.uidMap
  transportMap : m'.transportMap = m.transportMap
  identity : SameIdentity m m'
  live : ∀ t, (m'.transports t).isSome = (m.transports t).isSome

/-- What an event can do to the manager. The flag tells whether the process is
gone afterwards. -/
inductive ManagerStep (libs : Libs) (c : Controller) : Event → Manager → Bool → Prop
  | quiet {e : Event} {m' : Manager} {crashed : Bool} (h : SameLinks c.manager m') :
      ManagerStep libs c e m' crashed
  | setup (env : Env) (d : Datagram) (r : SetupRequest) (crashed : Bool) :
      ManagerStep libs c (.datagram env d) (setup libs.jingle env.memory c.manager r).1 crashed
  | link {env : Env} {d : Datagram} {r : CreateRequest} {cas : Bytes} {m' : Manager} {crashed : Bool}
      (hr : linkRequest libs c d = some r)
      (hm : giveCandidates libs (createTransport libs.jingle c.manager r env.fresh).1 r.uid cas = some m') :
      ManagerStep libs c (.datagram env d) m' crashed
  | trim {env : Env} {d : Datagram} {uid : Bytes} {m' : Manager} {done : Bool}
      {log : List ConnectionManager.Log} {crashed : Bool}
      (h : destroyTransport c.manager uid = some (m', done, log)) :
      ManagerStep libs c (.datagram env d) m' crashed
  | candidatesReady (t : Ptr) (candidates : List Candidate) :
      ManagerStep libs c (.candidatesReady t candidates)
        (onCandidatesReady libs.jingle c.manager t candidates).manager
        (onCandidatesReady libs.jingle c.manager t candidates).fault
  | candidatesAllocationDone (env : Env) (t : Ptr) {crashed : Bool}
      (h : crashed = false → (onCandidatesAllocationDone c.manager t).fault = false) :
      ManagerStep libs c (.candidatesAllocationDone env t)
        (onCandidatesAllocationDone c.manager t).manager crashed
  | rwChangeState (env : Env) (t : Ptr) {crashed : Bool}
      (h : crashed = false → (onRWChangeState c.manager t).fault = false) :
      ManagerStep libs c (.rwChangeState env t) (onRWChangeState c.manager t).manager crashed

theorem SameLinks.refl (m : Manager) : SameLinks m m := ⟨rfl, rfl, ⟨rfl, rfl, rfl⟩, fun _ => rfl⟩

theorem sameLinks_setStatus {m : Manager} {t : Ptr} {tr : Transport} (h : m.transports t = some tr)
    (a b c d : Bool) : SameLinks m (LinkThreads.setStatus m t tr a b c d) := by
  refine ⟨rfl, rfl, ⟨rfl, rfl, rfl⟩, ?_⟩
  intro t'
  by_cases he : t' = t
  · subst he
    simp [LinkThreads.setStatus, h]
  · simp [LinkThreads.setStatus, he]

theorem sameLinks_addIPMapping (L : Libjingle.Api) (memory : Nat → Byte) (m : Manager)
    (uid ip4 ip6 : Bytes) : SameLinks m (addIPMapping L memory m uid ip4 ip6).1 := by
  unfold addIPMapping
  split <;> exact ⟨rfl, rfl, ⟨rfl, rfl, rfl⟩, fun _ => rfl⟩

section

variable {libs : Libs} {c c' : Controller} {e : Event} {taken : List Xmpp.Stanza}
  {msgs : List PeerMessage} {crashed : Bool}

theorem managerStep_of_update {env : Env} {d : Datagram} (h : Update libs env c d c') :
    ManagerStep libs c (.datagram env d) c'.manager crashed := by
  cases h with
  | link hr hm => exact .link hr hm
  | setup r => exact .setup env d r crashed
  | trim hd => exact .trim hd
  | addIPMapping uid ip4 ip6 => exact .quiet (sameLinks_addIPMapping _ _ _ _ _ _)
  | endpoint | trimPolicy | ignoreList =>
    exact .quiet ⟨rfl, rfl, ⟨rfl, rfl, rfl⟩, fun _ => rfl⟩
  | same | toTap | toSend | login | logging | opts | method => exact .quiet (.refl _)

theorem managerStep_of_controller (h : ControllerStep libs c e c' taken msgs)
    (hready : ∀ t candidates, e ≠ .candidatesReady t candidates)
    (hdone : ∀ env t, e ≠ .candidatesAllocationDone env t)
    (hrw : ∀ env t, e ≠ .rwChangeState env t) : ManagerStep libs c e c'.manager crashed := by
  cases h with
  | datagram h => exact managerStep_of_update (update_handlePacket h)
  | candidatesReady t candidates => exact absurd rfl (hready t candidates)
  | candidatesAllocationDone env t => exact absurd rfl (hdone env t)
  | rwChangeState env t => exact absurd rfl (hrw env t)
  | linkStatus a b c d h => exact .quiet (sameLinks_setStatus h a b c d)
  | queueSignal h =>
    obtain ⟨_, _, _, rfl⟩ := handleQueueSignal_eq_some h
    exact .quiet (.refl _)
  | readPacket h =>
    have hm := PacketPath.onReadPacket_manager _ h
    exact .quiet (hm ▸ .refl _)
  | tapRecv h =>
    obtain ⟨_, _, _, rfl, _⟩ := doPacketRecv_eq_some h
    exact .quiet (.refl _)
  | same | stateChange | timer | stanza | processStart | tapSend => exact .quiet (.refl _)

end

theorem absorb_frame (libs : Libs) (env : Env) (s : State) (o : ConnectionManager.Outcome) :
    (absorb libs env s o).controller.manager = o.manager ∧
      ((absorb libs env s o).crashed = false → o.fault = false) := by
  unfold absorb
  refine ⟨by rw [(signals_frame libs env _ o.sent).1], ?_⟩
  intro h
  simpa using (Bool.or_eq_false_iff.mp h).2

theorem managerStep_of_step {libs : Libs} {s t : State} {e : Event} (h : step libs s e = some t) :
    ManagerStep libs s.controller e t.controller.manager t.crashed := by
  have hcontroller := controllerStep_of_step h
  have hs := running_of_step h
  cases e with
  | candidatesReady x candidates =>
    simp only [step, hs, Bool.false_eq_true, ↓reduceIte, Option.some.injEq] at h
    subst h
    exact .candidatesReady x candidates
  | candidatesAllocationDone env x =>
    simp only [step, hs, Bool.false_eq_true, ↓reduceIte, Option.some.injEq] at h
    subst h
    obtain ⟨hm, hf⟩ := absorb_frame libs env s (onCandidatesAllocationDone s.controller.manager x)
    rw [hm]
    exact .candidatesAllocationDone env x hf
  | rwChangeState env x =>
    simp only [step, hs, Bool.false_eq_true, ↓reduceIte, Option.some.injEq] at h
    subst h
    obtain ⟨hm, hf⟩ := absorb_frame libs env s (onRWChangeState s.controller.manager x)
    rw [hm]
    exact .rwChangeState env x hf
  | _ =>
    obtain ⟨taken, msgs, hc⟩ := hcontroller
    exact managerStep_of_controller hc (by simp) (by simp) (by simp)

theorem createTransport_cases (L : Libjingle.Api) (m : Manager) (r : CreateRequest)
    (f : ConnectionManager.Fresh) :
    (r.refused m = true ∧ (createTransport L m r f).1 = m) ∨
      (r.refused m = false ∧ ∃ tr, (createTransport L m r f).1 = { m with
        uidMap := m.uidMap.insert r.uid (some (buildTransport L m r f).2)
        shortUidMap := m.shortUidMap.insert (shortUid r.uid) f.transport
        transportMap := m.transportMap.insert f.transport r.uid
        transports := m.transports.insert f.transport tr
        channels := m.channels.insert f.channel f.transport }) := by
  cases hr : r.refused m with
  | true => exact .inl ⟨rfl, by rw [createTransport, if_pos hr]⟩
  | false =>
    obtain ⟨tr, _, hm⟩ := LinkThreads.buildTransport_manager L m r f
    obtain ⟨hu, ht⟩ := LinkThreads.buildTransport_fields L m r f
    refine .inr ⟨rfl, tr, ?_⟩
    rw [LinkThreads.createTransport_eq hr, hm]
    simp only [insertTransportMapW, hu, ht]

theorem createConnections_cases {L : Libjingle.Api} {m m' : Manager} {uid cas : Bytes} {done : Bool}
    (h : createConnections L m uid cas = some (m', done)) :
    m' = m ∨ ∃ p tr candidates, m.uidMap uid = some (some p) ∧ p.candidates = [] ∧
      m.transports p.transport = some tr ∧ m' = { m with
        uidMap := m.uidMap.insert uid (some { p with candidates := candidates })
        transports := m.transports.insert p.transport
          { tr with remoteCandidates := tr.remoteCandidates ++ candidates } } := by
  unfold createConnections at h
  split at h
  · cases h
    exact .inl rfl
  · cases h
  · next p hp =>
    split at h
    · cases h
      exact .inl rfl
    · next hempty =>
      dsimp only at h
      split at h
      · cases h
      · next tr htr =>
        cases h
        exact .inr ⟨p, tr, _, hp, by simpa using hempty, htr, rfl⟩

theorem giveCandidates_cases {libs : Libs} {m m' : Manager} {uid cas : Bytes}
    (h : giveCandidates libs m uid cas = some m') :
    m' = m ∨ ∃ p tr candidates, m.uidMap uid = some (some p) ∧ p.candidates = [] ∧
      m.transports p.transport = some tr ∧ m' = { m with
        uidMap := m.uidMap.insert uid (some { p with candidates := candidates })
        transports := m.transports.insert p.transport
          { tr with remoteCandidates := tr.remoteCandidates ++ candidates } } := by
  unfold giveCandidates at h
  split at h
  · exact .inl (Option.some.inj h).symm
  · rw [Option.map_eq_some_iff] at h
    obtain ⟨⟨m', done⟩, hc, rfl⟩ := h
    exact createConnections_cases hc

theorem destroyTransport_cases {m m' : Manager} {uid : Bytes} {done : Bool}
    {log : List ConnectionManager.Log} (h : destroyTransport m uid = some (m', done, log)) :
    (m.uidMap uid = none ∧ m' = m) ∨ ∃ p, m.uidMap uid = some (some p) ∧ m' = releasePeer { m with
      uidMap := m.uidMap.erase uid
      shortUidMap := m.shortUidMap.erase (shortUid uid)
      transportMap := m.transportMap.erase p.transport } p := by
  unfold destroyTransport at h
  split at h
  · next hu =>
    cases h
    exact .inl ⟨hu, rfl⟩
  · cases h
  · next p hp =>
    simp only [Option.some.injEq, Prod.mk.injEq] at h
    obtain ⟨hm, _⟩ := h
    refine .inr ⟨p, hp, ?_⟩
    rw [← hm, LinkThreads.deleteTransportMapW_manager]

/-- The uid that a transport is known under, if any. -/
def knownAs (m : Manager) (t : Ptr) : Bytes := (m.transportMap.index t []).1

def withReported (L : Libjingle.Api) (m : Manager) (p : PeerState) (candidates : List Candidate) :
    PeerState :=
  { p with candidateList := candidates.foldl (fun l c =>
      if c.networkName = m.tapName then l else insert (encodeCandidate L c) l) p.candidateList }

theorem onCandidatesReady_cases (L : Libjingle.Api) (m : Manager) (t : Ptr)
    (candidates : List Candidate) :
    ((onCandidatesReady L m t candidates).fault = true ∧
      (onCandidatesReady L m t candidates).manager = { m with
        transportMap := (m.transportMap.index t []).2
        uidMap := (m.uidMap.index (knownAs m t) none).2 }) ∨
    ∃ p, m.uidMap (knownAs m t) = some (some p) ∧
      (onCandidatesReady L m t candidates).fault = false ∧
      (onCandidatesReady L m t candidates).manager = { m with
        transportMap := (m.transportMap.index t []).2
        uidMap := m.uidMap.insert (knownAs m t) (some (withReported L m p candidates)) } := by
  unfold onCandidatesReady knownAs
  dsimp only
  split
  · exact .inl ⟨rfl, rfl⟩
  · next p hp =>
    have hentry := PartialMap.of_index_fst hp (by simp)
    refine .inr ⟨p, hentry, rfl, ?_⟩
    simp only [PartialMap.index_of_mem none hentry]
    rfl

theorem onCandidatesAllocationDone_manager (m : Manager) (t : Ptr) :
    (onCandidatesAllocationDone m t).manager = { m with
      transportMap := (m.transportMap.index t []).2
      uidMap := (m.uidMap.index (knownAs m t) none).2 } := by
  unfold onCandidatesAllocationDone
  dsimp only
  split
  · rfl
  · split <;> rfl

theorem onCandidatesAllocationDone_fault (m : Manager) (t : Ptr) :
    (onCandidatesAllocationDone m t).fault = (m.uidMap.index (knownAs m t) none).1.isNone := by
  unfold onCandidatesAllocationDone knownAs
  dsimp only
  split
  · next hnone => rw [hnone]; rfl
  · next p hp =>
    rw [hp]
    split <;> rfl

theorem onRWChangeState_cases (m : Manager) (t : Ptr) :
    (onRWChangeState m t).manager = { m with transportMap := (m.transportMap.index t []).2 } ∨
      (onRWChangeState m t).manager = { m with
        transportMap := (m.transportMap.index t []).2
        uidMap := (m.uidMap.index (knownAs m t) none).2 } ∧
      (onRWChangeState m t).fault = (m.uidMap.index (knownAs m t) none).1.isNone := by
  unfold onRWChangeState
  dsimp only
  split
  · exact .inl rfl
  · split_ifs <;> first | exact .inl rfl | exact .inr ⟨rfl, rfl⟩

/-- The same link, perhaps with other candidates. -/
def SameLink (q p : PeerState) : Prop :=
  p = { q with candidates := p.candidates, candidateList := p.candidateList }

theorem SameLink.trans {p q r : PeerState} (h : SameLink p q) (h' : SameLink q r) : SameLink p r := by
  unfold SameLink at h h' ⊢
  rw [h', h]

theorem link_of_index {m : PartialMap Bytes (Option PeerState)} {key u : Bytes} {p : PeerState}
    (h : (m.index key none).2 u = some (some p)) : m u = some (some p) := by
  cases hk : m key with
  | some q => rwa [PartialMap.index_of_mem none hk] at h
  | none =>
    have hins : (m.index key none).2 = m.insert key none := by simp [PartialMap.index, hk]
    rw [hins] at h
    obtain ⟨_, hp⟩ | ⟨_, hp⟩ := PartialMap.insert_eq_some.mp h
    · cases hp
    · exact hp

theorem SameIdentity.refl (m : Manager) : SameIdentity m m := ⟨rfl, rfl, rfl⟩

theorem SameIdentity.trans {m m' m'' : Manager} (h : SameIdentity m m') (h' : SameIdentity m' m'') :
    SameIdentity m m'' :=
  ⟨h'.tincanId.trans h.tincanId, h'.localFingerprint.trans h.localFingerprint,
    h'.fingerprint.trans h.fingerprint⟩

theorem identity_giveCandidates {libs : Libs} {m m' : Manager} {uid cas : Bytes}
    (h : giveCandidates libs m uid cas = some m') : SameIdentity m m' := by
  obtain rfl | ⟨p, tr, candidates, _, _, _, rfl⟩ := giveCandidates_cases h
  · exact .refl m'
  · exact ⟨rfl, rfl, rfl⟩

theorem identity_createTransport (L : Libjingle.Api) (m : Manager) (r : CreateRequest)
    (f : ConnectionManager.Fresh) : SameIdentity m (createTransport L m r f).1 := by
  obtain ⟨_, hm⟩ | ⟨_, tr, hm⟩ := createTransport_cases L m r f <;> rw [hm] <;> exact ⟨rfl, rfl, rfl⟩

section

variable {libs : Libs} {c : Controller} {e : Event} {m' : Manager} {crashed : Bool}

theorem identity_step (h : ManagerStep libs c e m' crashed) :
    SameIdentity c.manager m' ∨ c.manager.tincanId = [] ∧
      ∃ memory r, m' = (setup libs.jingle memory c.manager r).1 := by
  cases h with
  | quiet hs => exact .inl hs.identity
  | setup env d r =>
    by_cases hnone : c.manager.tincanId = []
    · exact .inr ⟨hnone, env.memory, r, rfl⟩
    · refine .inl ?_
      simp [setup, hnone, SameIdentity.refl]
  | link hr hm => exact .inl ((identity_createTransport _ _ _ _).trans (identity_giveCandidates hm))
  | trim hd =>
    obtain ⟨_, rfl⟩ | ⟨p, _, rfl⟩ := destroyTransport_cases hd
    · exact .inl (.refl _)
    · exact .inl ⟨rfl, rfl, rfl⟩
  | candidatesReady t candidates =>
    obtain ⟨_, hm⟩ | ⟨p, _, _, hm⟩ := onCandidatesReady_cases libs.jingle c.manager t candidates <;>
      rw [hm] <;> exact .inl ⟨rfl, rfl, rfl⟩
  | candidatesAllocationDone env t hf =>
    rw [onCandidatesAllocationDone_manager]
    exact .inl ⟨rfl, rfl, rfl⟩
  | rwChangeState env t hf =>
    obtain hm | ⟨hm, _⟩ := onRWChangeState_cases c.manager t <;> rw [hm] <;> exact .inl ⟨rfl, rfl, rfl⟩

theorem link_of_giveCandidates {m : Manager} {uid cas u : Bytes} {p : PeerState}
    (h : giveCandidates libs m uid cas = some m') (hp : m'.uidMap u = some (some p)) :
    ∃ q, m.uidMap u = some (some q) ∧ SameLink q p := by
  obtain rfl | ⟨q, tr, candidates, hq, _, _, rfl⟩ := giveCandidates_cases h
  · exact ⟨p, hp, rfl⟩
  · obtain ⟨rfl, hnew⟩ | ⟨_, hold⟩ := PartialMap.insert_eq_some.mp hp
    · cases hnew
      exact ⟨q, hq, rfl⟩
    · exact ⟨p, hold, rfl⟩

theorem link_of_createTransport {L : Libjingle.Api} {m : Manager} {r : CreateRequest}
    {f : ConnectionManager.Fresh} {u : Bytes} {p : PeerState}
    (hp : (createTransport L m r f).1.uidMap u = some (some p)) :
    m.uidMap u = some (some p) ∨
      r.refused m = false ∧ u = r.uid ∧ p = (buildTransport L m r f).2 := by
  obtain ⟨_, hm⟩ | ⟨hr, tr, hm⟩ := createTransport_cases L m r f
  · rw [hm] at hp
    exact .inl hp
  · rw [hm] at hp
    obtain ⟨hu, hnew⟩ | ⟨_, hold⟩ := PartialMap.insert_eq_some.mp hp
    · exact .inr ⟨hr, hu, Option.some.inj hnew⟩
    · exact .inl hold

theorem link_step {u : Bytes} {p : PeerState} (h : ManagerStep libs c e m' crashed)
    (hp : m'.uidMap u = some (some p)) :
    (∃ q, c.manager.uidMap u = some (some q) ∧ SameLink q p) ∨
      ∃ env d r, e = .datagram env d ∧ linkRequest libs c d = some r ∧
        r.refused c.manager = false ∧ u = r.uid ∧
        SameLink (buildTransport libs.jingle c.manager r env.fresh).2 p := by
  cases h with
  | quiet hs =>
    rw [hs.uidMap] at hp
    exact .inl ⟨p, hp, rfl⟩
  | setup env d r =>
    rw [(LinkThreads.frame_setup libs.jingle env.memory c.manager r).uidMap] at hp
    exact .inl ⟨p, hp, rfl⟩
  | link hr hm =>
    obtain ⟨q, hq, hsame⟩ := link_of_giveCandidates hm hp
    obtain hold | ⟨href, hu, rfl⟩ := link_of_createTransport hq
    · exact .inl ⟨q, hold, hsame⟩
    · exact .inr ⟨_, _, _, rfl, hr, href, hu, hsame⟩
  | trim hd =>
    obtain ⟨_, rfl⟩ | ⟨q, _, rfl⟩ := destroyTransport_cases hd
    · exact .inl ⟨p, hp, rfl⟩
    · exact .inl ⟨p, (PartialMap.erase_eq_some.mp hp).2, rfl⟩
  | candidatesReady t candidates =>
    obtain ⟨_, hm⟩ | ⟨q, hq, _, hm⟩ := onCandidatesReady_cases libs.jingle c.manager t candidates
    · rw [hm] at hp
      exact .inl ⟨p, link_of_index hp, rfl⟩
    · rw [hm] at hp
      obtain ⟨rfl, hnew⟩ | ⟨_, hold⟩ := PartialMap.insert_eq_some.mp hp
      · cases hnew
        exact .inl ⟨q, hq, rfl⟩
      · exact .inl ⟨p, hold, rfl⟩
  | candidatesAllocationDone env t hf =>
    rw [onCandidatesAllocationDone_manager] at hp
    exact .inl ⟨p, link_of_index hp, rfl⟩
  | rwChangeState env t hf =>
    obtain hm | ⟨hm, _⟩ := onRWChangeState_cases c.manager t <;> rw [hm] at hp
    · exact .inl ⟨p, hp, rfl⟩
    · exact .inl ⟨p, link_of_index hp, rfl⟩

end

/-- Every link has a transport of its own, which is alive. -/
structure Live (m : Manager) : Prop where
  owned : ∀ u q, m.uidMap u = some q → ∃ p, q = some p ∧ (m.transports p.transport).isSome
  apart : ∀ u v p q, m.uidMap u = some (some p) → m.uidMap v = some (some q) →
    p.transport = q.transport → u = v

section

variable {m m' : Manager} {u : Bytes} {p p' : PeerState}

theorem Live.transport (h : Live m) (hp : m.uidMap u = some (some p)) :
    (m.transports p.transport).isSome := by
  obtain ⟨_, hs, hl⟩ := h.owned u _ hp
  cases hs
  exact hl

theorem live_of_empty (h : m.uidMap = PartialMap.empty) : Live m := by
  constructor
  · intro u q hq
    rw [h] at hq
    cases hq
  · intro u v p q hp
    rw [h] at hp
    cases hp

theorem Live.congr (h : Live m) (hu : m'.uidMap = m.uidMap)
    (hl : ∀ t, (m.transports t).isSome → (m'.transports t).isSome) : Live m' := by
  constructor
  · intro u q hq
    obtain ⟨p, hp, hlive⟩ := h.owned u q (hu ▸ hq)
    exact ⟨p, hp, hl _ hlive⟩
  · intro u v p q hp hq
    exact h.apart u v p q (hu ▸ hp) (hu ▸ hq)

theorem Live.change (h : Live m) (hp : m.uidMap u = some (some p))
    (hu : m'.uidMap = m.uidMap.insert u (some p')) (hp' : p'.transport = p.transport)
    (hl : ∀ t, (m.transports t).isSome → (m'.transports t).isSome) : Live m' := by
  have hback : ∀ v q, m'.uidMap v = some (some q) →
      ∃ q₀, m.uidMap v = some (some q₀) ∧ q.transport = q₀.transport := by
    intro v q hq
    rw [hu] at hq
    obtain ⟨rfl, he⟩ | ⟨_, hold⟩ := PartialMap.insert_eq_some.mp hq
    · cases he
      exact ⟨p, hp, hp'⟩
    · exact ⟨q, hold, rfl⟩
  constructor
  · intro v q hq
    rw [hu] at hq
    obtain ⟨_, rfl⟩ | ⟨_, hold⟩ := PartialMap.insert_eq_some.mp hq
    · exact ⟨p', rfl, hl _ (hp' ▸ h.transport hp)⟩
    · obtain ⟨q, he, hlive⟩ := h.owned v q hold
      exact ⟨q, he, hl _ hlive⟩
  · intro v w a b ha hb hab
    obtain ⟨a₀, ha₀, hta⟩ := hback v a ha
    obtain ⟨b₀, hb₀, htb⟩ := hback w b hb
    exact h.apart v w a₀ b₀ ha₀ hb₀ (by rw [← hta, ← htb, hab])

theorem Live.transport_ne {f : ConnectionManager.Fresh} (h : Live m) (hf : LinkThreads.Available m f)
    (hp : m.uidMap u = some (some p)) : p.transport ≠ f.transport := by
  intro he
  have hl := h.transport hp
  rw [he, hf.transport_free] at hl
  cases hl

theorem Live.create {L : Libjingle.Api} {r : CreateRequest} {f : ConnectionManager.Fresh} (h : Live m)
    (hf : r.refused m = false → LinkThreads.Available m f) : Live (createTransport L m r f).1 := by
  obtain ⟨_, hm⟩ | ⟨hr, tr, hm⟩ := createTransport_cases L m r f
  · rwa [hm]
  rw [hm]
  have ht := (LinkThreads.buildTransport_fields L m r f).2
  constructor
  · intro u q hq
    obtain ⟨_, rfl⟩ | ⟨_, hold⟩ := PartialMap.insert_eq_some.mp hq
    · exact ⟨_, rfl, by simp [ht]⟩
    · obtain ⟨p, rfl, hlive⟩ := h.owned u q hold
      exact ⟨p, rfl, by simpa [h.transport_ne (hf hr) hold] using hlive⟩
  · intro u v p q hp hq hpq
    obtain ⟨hu, hp⟩ | ⟨_, hp⟩ := PartialMap.insert_eq_some.mp hp <;>
      obtain ⟨hv, hq⟩ | ⟨_, hq⟩ := PartialMap.insert_eq_some.mp hq
    · rw [hu, hv]
    · cases hp
      exact absurd (hpq.symm.trans ht) (h.transport_ne (hf hr) hq)
    · cases hq
      exact absurd (hpq.trans ht) (h.transport_ne (hf hr) hp)
    · exact h.apart u v p q hp hq hpq

theorem Live.connect {L : Libjingle.Api} {uid cas : Bytes} {done : Bool} (h : Live m)
    (hc : createConnections L m uid cas = some (m', done)) : Live m' := by
  obtain rfl | ⟨p, tr, candidates, hp, _, htr, rfl⟩ := createConnections_cases hc
  · exact h
  · refine h.change hp rfl rfl ?_
    intro t hl
    by_cases he : t = p.transport
    · subst he
      simp
    · simpa [he] using hl

theorem Live.give {libs : Libs} {uid cas : Bytes} (h : Live m)
    (hm : giveCandidates libs m uid cas = some m') : Live m' := by
  unfold giveCandidates at hm
  split at hm
  · cases hm
    exact h
  · rw [Option.map_eq_some_iff] at hm
    obtain ⟨⟨m', done⟩, hc, rfl⟩ := hm
    exact h.connect hc

theorem Live.destroy {uid : Bytes} {done : Bool} {log : List ConnectionManager.Log} (h : Live m)
    (hd : destroyTransport m uid = some (m', done, log)) : Live m' := by
  obtain ⟨_, rfl⟩ | ⟨p, hp, rfl⟩ := destroyTransport_cases hd
  · exact h
  constructor
  · intro u q hq
    obtain ⟨hne, hold⟩ := PartialMap.erase_eq_some.mp hq
    obtain ⟨q, rfl, hlive⟩ := h.owned u q hold
    have hother : q.transport ≠ p.transport := fun he => hne (h.apart u uid q p hold hp he)
    exact ⟨q, rfl, by simpa [releasePeer, hother] using hlive⟩
  · intro u v a b ha hb
    exact h.apart u v a b (PartialMap.erase_eq_some.mp ha).2 (PartialMap.erase_eq_some.mp hb).2

end

/-- The allocator never hands out the address of a live object. -/
def NewObjects (libs : Libs) (s : State) : Event → Prop
  | .datagram env d => ∀ r, linkRequest libs s.controller d = some r →
      r.refused s.controller.manager = false → LinkThreads.Available s.controller.manager env.fresh
  | _ => True

theorem uidMap_of_found {m : Manager} {key : Bytes} (h : (m.uidMap.index key none).1.isNone = false) :
    (m.uidMap.index key none).2 = m.uidMap := by
  obtain ⟨p, hp⟩ := Option.isSome_iff_exists.mp (Option.isNone_eq_false_iff.mp h)
  rw [PartialMap.index_of_mem none (PartialMap.of_index_fst hp (by simp))]

/-- An event that the process survives has not asked for a link that is missing. -/
theorem live_step {libs : Libs} {s t : State} {e : Event} (h : Live s.controller.manager)
    (hst : Guarded (NewObjects libs) (Steps (step libs)) s e t) (hrun : t.crashed = false) :
    Live t.controller.manager := by
  obtain ⟨hnew, hst⟩ := hst
  have hm := managerStep_of_step hst
  rw [hrun] at hm
  generalize t.controller.manager = m', hcrashed : false = crashed at hm
  cases hm with
  | quiet hs => exact h.congr hs.uidMap (fun t hl => (hs.live t).symm ▸ hl)
  | setup env d r =>
    refine h.congr (LinkThreads.frame_setup libs.jingle env.memory _ r).uidMap ?_
    intro t hl
    rwa [LinkThreads.setup_transports]
  | link hr hm => exact (h.create (hnew _ hr)).give hm
  | trim hd => exact h.destroy hd
  | candidatesReady x candidates =>
    obtain ⟨hf, _⟩ | ⟨p, hp, _, hm⟩ := onCandidatesReady_cases libs.jingle s.controller.manager x candidates
    · exact absurd (hcrashed.trans hf) Bool.false_ne_true
    · rw [hm]
      exact h.change hp rfl rfl (fun _ hl => hl)
  | candidatesAllocationDone env x hf =>
    have hfound := hf hcrashed.symm
    rw [onCandidatesAllocationDone_fault] at hfound
    rw [onCandidatesAllocationDone_manager]
    exact h.congr (uidMap_of_found hfound) (fun _ hl => hl)
  | rwChangeState env x hf =>
    obtain hm | ⟨hm, hfault⟩ := onRWChangeState_cases s.controller.manager x <;> rw [hm]
    · exact h.congr rfl (fun _ hl => hl)
    · exact h.congr (uidMap_of_found (hfault ▸ hf hcrashed.symm)) (fun _ hl => hl)

end Tincan.LinkChanges
