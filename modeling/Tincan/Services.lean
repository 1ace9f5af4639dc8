import Tincan.LinkChanges

namespace Tincan.Services

open Tincan.Library Tincan.Library.Text Tincan.Library.Runs Tincan.Libjingle Tincan.Utils
open Tincan.ConnectionManager Tincan.ControllerAccess Tincan.Process Tincan.LinkChanges

def Registered (overlayId : Int) : Prop := overlayId = 0 ∨ overlayId = 1

/-- Requests for new links carry a registered overlay id. -/
def RegisteredRequests (libs : Libs) (s : State) : Event → Prop
  | .datagram _ d => ∀ r, linkRequest libs s.controller d = some r →
      r.refused s.controller.manager = false → Registered r.overlayId
  | _ => True

def Overlays (P : Int → Prop) (m : Manager) : Prop :=
  ∀ u p, m.uidMap u = some (some p) → P p.overlayId

theorem overlayId_buildTransport (L : Libjingle.Api) (m : Manager) (r : CreateRequest) (f : Fresh) :
    (buildTransport L m r f).2.overlayId = r.overlayId := by
  obtain ⟨_, _, _, _, hp⟩ := LinkThreads.buildTransport_peer L m r f
  rw [hp]

theorem overlays_step {P : Int → Prop} {libs : Libs} {s t : State} {e : Event}
    (h : Overlays P s.controller.manager) (hst : step libs s e = some t)
    (hnew : ∀ env d r, e = .datagram env d → linkRequest libs s.controller d = some r →
      r.refused s.controller.manager = false → P r.overlayId) :
    Overlays P t.controller.manager := by
  intro u p hp
  obtain ⟨q, hq, hsame⟩ | ⟨env, d, r, he, hr, href, _, hsame⟩ := link_step (managerStep_of_step hst) hp
  · rw [hsame]
    exact h u q hq
  · rw [hsame]
    change P (buildTransport libs.jingle s.controller.manager r env.fresh).2.overlayId
    rw [overlayId_buildTransport]
    exact hnew env d r he hr href

theorem mainServices_eq (overlayId : Int) :
    (∃ service, mainServices overlayId = some (some service)) ↔ Registered overlayId := by
  by_cases h₁ : overlayId = 1
  · subst h₁
    simp [mainServices, addService, Registered]
  · by_cases h₀ : overlayId = 0
    · subst h₀
      simp [mainServices, addService, Registered]
    · simp [mainServices, addService, Registered, h₀, h₁, PartialMap.empty]

/-- The invariant: the services are those of `main`, every link can use one of
them, and every call so far has. -/
structure Served (s : State) : Prop where
  services : s.services = mainServices
  links : Overlays Registered s.controller.manager
  calls : ∀ c ∈ s.calls, ∃ service, c.2 = some service ∧
    mainServices c.1.overlayId = some (some service)

theorem served_signal (libs : Libs) (env : Env) {s : State} {msg : PeerMessage} (h : Served s)
    (hmsg : Registered msg.overlayId) : Served (signal libs env s msg) := by
  obtain ⟨service, hservice⟩ := (mainServices_eq msg.overlayId).mpr hmsg
  have hindex : s.services.index msg.overlayId none = (some service, s.services) :=
    PartialMap.index_of_mem none (h.services ▸ hservice)
  have hcalls : ∀ c ∈ s.calls ++ [(msg, some service)], ∃ service, c.2 = some service ∧
      mainServices c.1.overlayId = some (some service) := by
    intro c hc
    obtain hold | hnew := List.mem_append.mp hc
    · exact h.calls c hold
    · rw [List.mem_singleton.mp hnew]
      exact ⟨service, rfl, hservice⟩
  simp only [signal, hindex]
  cases service with
  | controller => exact ⟨h.services, h.links, hcalls⟩
  | xmpp => exact ⟨h.services, h.links, hcalls⟩

theorem served_signals (libs : Libs) (env : Env) {s : State} {msgs : List PeerMessage} (h : Served s)
    (hmsgs : ∀ msg ∈ msgs, Registered msg.overlayId) : Served (msgs.foldl (signal libs env) s) := by
  induction msgs generalizing s with
  | nil => exact h
  | cons msg msgs ih =>
    have hmsg := served_signal libs env h (hmsgs msg (by simp))
    exact ih hmsg (fun m hm => hmsgs m (by simp [hm]))

theorem registered_of_allocationDone {m : Manager} (h : Overlays Registered m) (t : Ptr) :
    ∀ msg ∈ (onCandidatesAllocationDone m t).sent, Registered msg.overlayId := by
  intro msg hmsg
  unfold onCandidatesAllocationDone at hmsg
  dsimp only at hmsg
  split at hmsg
  · simp at hmsg
  · next p hp =>
    split at hmsg
    · rw [List.mem_singleton.mp hmsg]
      exact h _ p (PartialMap.of_index_fst hp (by simp))
    · simp at hmsg

theorem registered_of_rwChange (m : Manager) (t : Ptr) :
    ∀ msg ∈ (onRWChangeState m t).sent, Registered msg.overlayId := by
  intro msg hmsg
  unfold onRWChangeState at hmsg
  dsimp only at hmsg
  split at hmsg
  · simp at hmsg
  · split_ifs at hmsg <;> rw [List.mem_singleton.mp hmsg] <;> exact .inl rfl

theorem registered_messages {libs : Libs} {c c' : Controller} {e : Event} {taken : List Xmpp.Stanza}
    {msgs : List PeerMessage} (h : Overlays Registered c.manager)
    (hc : ControllerStep libs c e c' taken msgs) : ∀ msg ∈ msgs, Registered msg.overlayId := by
  cases hc with
  | candidatesAllocationDone env t => exact registered_of_allocationDone h t
  | rwChangeState env t => exact registered_of_rwChange _ t
  | @processStart env n call hp =>
    intro msg hmsg
    cases call with
    | none => cases hmsg
    | some call =>
      rw [List.mem_singleton.mp hmsg]
      exact .inl rfl
  | _ =>
    intro msg hmsg
    cases hmsg

theorem served_step {libs : Libs} {s t : State} {e : Event} (h : Served s)
    (hg : RegisteredRequests libs s e) (hst : step libs s e = some t) : Served t := by
  have hlinks : Overlays Registered t.controller.manager := by
    refine overlays_step h.links hst ?_
    rintro env d r rfl hr
    exact hg r hr
  obtain ⟨env, c, taken, sent, msgs, fault, hc, rfl⟩ := step_cases hst
  rw [conclude, (signals_frame libs env _ msgs).1] at hlinks
  have hserved : Served { s with
      controller := c, accepted := s.accepted ++ taken, sent := s.sent ++ sent } :=
    ⟨h.services, hlinks, h.calls⟩
  have hsignals := served_signals libs env hserved (registered_messages h.links hc)
  exact ⟨hsignals.services, hsignals.links, hsignals.calls⟩

theorem served_initial {s : State} (h : Initial s) : Served s := by
  obtain ⟨tiebreaker, kTapName, ip4, mac, logging, xmppState, onMsgCounter, rfl⟩ := h
  refine ⟨rfl, ?_, ?_⟩
  · intro u p hp
    cases hp
  · intro c hc
    cases hc

theorem served_of_reachable {libs : Libs} {s : State}
    (h : Reachable (Guarded (RegisteredRequests libs) (Steps (step libs))) Initial s) : Served s := by
  refine reachable_invariant ?_ ?_ h
  · intro s hs
    exact served_initial hs
  · intro s e t hs hst
    exact served_step hs hst.1 hst.2

/-- When a link has gathered its candidates, the process survives exactly with
a registered overlay id. -/
theorem allocationDone_survives_iff (libs : Libs) (env : Env) {s : State} (hcrashed : s.crashed = false)
    (hservices : s.services = mainServices) {t : Ptr} {uid : Bytes} {p : PeerState}
    (ht : s.controller.manager.transportMap t = some uid)
    (hp : s.controller.manager.uidMap uid = some (some p)) :
    (absorb libs env s (onCandidatesAllocationDone s.controller.manager t)).crashed = false ↔
      Registered p.overlayId := by
  rw [← mainServices_eq, onCandidatesAllocationDone_eq ht hp]
  simp only [absorb, List.foldl_cons, List.foldl_nil, signal, hservices, Bool.or_false]
  cases hm : mainServices p.overlayId with
  | none => simp [PartialMap.index, hm]
  | some service =>
    rw [PartialMap.index_of_mem none hm]
    cases service with
    | none => simp
    | some service => cases service <;> simp [hcrashed]

/-- As long as new links come with a registered overlay id, every message of
the connection manager reaches a service that `main` registered. A link with
another id ends the process when it has its candidates. -/
theorem calls_reach_registered_services (libs : Libs) :
    (∀ s, Reachable (Guarded (RegisteredRequests libs) (Steps (step libs))) Initial s →
      s.services = mainServices ∧ ∀ c ∈ s.calls, ∃ service, c.2 = some service ∧
        mainServices c.1.overlayId = some (some service)) ∧
    ∀ s env t uid p, s.crashed = false → s.services = mainServices →
      s.controller.manager.transportMap t = some uid →
      s.controller.manager.uidMap uid = some (some p) →
      ((absorb libs env s (onCandidatesAllocationDone s.controller.manager t)).crashed = false ↔
        Registered p.overlayId) := by
  constructor
  · intro s h
    exact ⟨(served_of_reachable h).services, (served_of_reachable h).calls⟩
  · intro s env t uid p hcrashed hservices ht hp
    exact allocationDone_survives_iff libs env hcrashed hservices ht hp

def linkLibs : Libs := sampleLibs [(linkText [49], linkValue 1), (linkText [50], linkValue 2)]

def linkEvents (overlayId : Byte) : List Event :=
  [.datagram sampleEnv (linkDatagram overlayId), .candidatesAllocationDone sampleEnv 1]

theorem calls_reach_registered_services_one :
    ∃ s : State, s.calls.map (fun c => (c.1.overlayId, c.2)) = [(1, some .xmpp)] ∧
      s.services = mainServices ∧ ∀ c ∈ s.calls, ∃ service, c.2 = some service ∧
        mainServices c.1.overlayId = some (some service) := by
  have hrequest : (linkRequest linkLibs startState.controller (linkDatagram 49)).map
      CreateRequest.overlayId = some 1 := rfl
  have hguard : RegisteredRequests linkLibs startState (.datagram sampleEnv (linkDatagram 49)) := by
    intro r hr _
    rw [hr] at hrequest
    exact .inr (by simpa using hrequest)
  have hrun : ∃ s t, step linkLibs startState (.datagram sampleEnv (linkDatagram 49)) = some s ∧
      step linkLibs s (.candidatesAllocationDone sampleEnv 1) = some t ∧
      t.calls.map (fun c => (c.1.overlayId, c.2)) = [(1, some .xmpp)] := ⟨_, _, rfl, rfl, rfl⟩
  obtain ⟨s, t, hs, ht, hcalls⟩ := hrun
  have h₁ : Reachable (Guarded (RegisteredRequests linkLibs) (Steps (step linkLibs))) Initial s :=
    reachable_step (reachable_init startState_initial) ⟨hguard, hs⟩
  have hdone : RegisteredRequests linkLibs s (.candidatesAllocationDone sampleEnv 1) := trivial
  have h₂ : Reachable (Guarded (RegisteredRequests linkLibs) (Steps (step linkLibs))) Initial t :=
    reachable_step h₁ ⟨hdone, ht⟩
  exact ⟨t, hcalls, (calls_reach_registered_services linkLibs).1 t h₂⟩

/-- With overlay id 2 the call finds no service. -/
theorem overlay_two_finds_none :
    ∃ s, Reachable (Steps (step linkLibs)) Initial s ∧
      s.calls.map (fun c => (c.1.overlayId, c.2)) = [(2, none)] ∧ s.crashed = true := by
  have hrun : ∃ s, replay (step linkLibs) startState (linkEvents 50) = some s ∧
      s.calls.map (fun c => (c.1.overlayId, c.2)) = [(2, none)] ∧ s.crashed = true :=
    ⟨_, rfl, rfl, rfl⟩
  obtain ⟨s, hr, hs⟩ := hrun
  exact ⟨s, ⟨startState, _, startState_initial, run_of_replay hr⟩, hs⟩

end Tincan.Services
