import Tincan.LinkThreads

namespace Tincan.Routes

open Tincan.Library Tincan.Library.Text Tincan.Library.Runs
open Tincan.Libjingle Tincan.Utils Tincan.ConnectionManager Tincan.PacketPath Tincan.LinkThreads

def start : Threads := ⟨Manager.new 0 (bytes "ipop") .socket6, .idle, [], [], []⟩

def sampleRequest (uid : Bytes) : CreateRequest := ⟨uid, kFprNull, 1, [], [], [], [], false⟩

def created (s : Threads) (uid : Bytes) (f : ConnectionManager.Fresh) : Threads :=
  ⟨(createTransport Api.plain s.manager (sampleRequest uid) f).1, .idle, s.recvQueue, s.sent,
    s.log ++ (createTransport Api.plain s.manager (sampleRequest uid) f).2.2⟩

def uidA : Bytes := List.replicate 40 97

def uidA' : Bytes := List.replicate 39 97 ++ [98]

def uidB : Bytes := List.replicate 40 98

theorem start_initial : Initial start := ⟨rfl, rfl, rfl, rfl, rfl, rfl, rfl, rfl, rfl⟩

theorem reachable_created {guard : Threads → Event → Prop} {s : Threads} {uid : Bytes}
    {f : ConnectionManager.Fresh}
    (h : Reachable (Guarded guard (Step Api.plain)) Initial s) (hc : s.call = .idle)
    (hf : Available s.manager f) (hg : guard s (.create (sampleRequest uid) f))
    (hadv : ∀ s, guard s .advance) :
    Reachable (Guarded guard (Step Api.plain)) Initial (created s uid f) := by
  obtain ⟨s₀, es, hs, hr⟩ := h
  obtain ⟨es', hr'⟩ := run_createTransport (L := Api.plain) hc (fun _ => hf) hg hadv
  exact ⟨s₀, es ++ es', hs, run_append hr hr'⟩

def destroyed (s : Threads) (uid : Bytes) : Threads :=
  match destroyTransport s.manager uid with
  | some (m, _, log) => ⟨m, .idle, s.recvQueue, s.sent, s.log ++ log⟩
  | none => s

theorem reachable_destroyed {guard : Threads → Event → Prop} {s : Threads} {uid : Bytes}
    (h : Reachable (Guarded guard (Step Api.plain)) Initial s) (hc : s.call = .idle)
    (hg : guard s (.destroy uid)) (hadv : ∀ s, guard s .advance) :
    Reachable (Guarded guard (Step Api.plain)) Initial (destroyed s uid) := by
  unfold destroyed
  split
  · next m done log hd =>
    obtain ⟨s₀, es, hs, hr⟩ := h
    obtain ⟨es', hr'⟩ := run_destroyTransport hc hd hg hadv
    exact ⟨s₀, es ++ es', hs, run_append hr hr'⟩
  · exact h

def clash : Threads := created (created start uidA ⟨1, 2, 0⟩) uidA' ⟨3, 4, 0⟩

theorem clash_reachable : Reachable (Guarded (fun _ _ => True) (Step Api.plain)) Initial clash := by
  have h₁ : Reachable (Guarded (fun _ _ => True) (Step Api.plain)) Initial
      (created start uidA ⟨1, 2, 0⟩) :=
    reachable_created (reachable_init start_initial) rfl ⟨by decide, rfl, rfl⟩ trivial
      (fun _ => trivial)
  exact reachable_created h₁ rfl ⟨by decide, rfl, rfl⟩ trivial (fun _ => trivial)

/-- Under every interleaving of the two threads' sub-steps a route is the
transport of a peer state that still exists, and the packet path never uses
any other pointer. -/
theorem routes_never_dangle (L : Api) {s : Threads} (h : Reachable (Step L) Initial s) :
    (∀ key t, s.manager.shortUidMap key = some t → t ≠ null ∧
      ∃ p tr, s.Holds p ∧ p.transport = t ∧ shortUid p.uid = key ∧ s.manager.transports t = some tr) ∧
    (∀ memory data, ∃ out, handlePacket L memory s.manager data = some (s.manager, out)) ∧
    (∀ channel data, ∃ packet, onReadPacket L s.manager channel data = some (s.manager, packet)) := by
  have hl := (sound_of_reachable h).linked
  refine ⟨?_, fun memory data => handlePacket_defined L memory hl.routesLive data,
    fun channel data => onReadPacket_defined L hl.routesLive channel data⟩
  intro key t hk
  obtain ⟨u, p, hp, ht, hu⟩ := hl.routes key t hk
  obtain ⟨p', tr, hpp, hpu, htr⟩ := hl.owned u (some p) hp
  cases hpp
  rw [ht] at htr
  refine ⟨?_, p, tr, .inl ⟨u, hp⟩, ht, by rw [hpu, hu], htr⟩
  rintro rfl
  rw [hl.null_dead] at htr
  cases htr

theorem routes_never_dangle_clash :
    (∀ key t, clash.manager.shortUidMap key = some t → t ≠ null ∧
      ∃ p tr, clash.Holds p ∧ p.transport = t ∧ shortUid p.uid = key ∧
        clash.manager.transports t = some tr) ∧
    (∀ memory data, ∃ out, handlePacket Api.plain memory clash.manager data = some (clash.manager, out)) ∧
    (∀ channel data, ∃ packet,
      onReadPacket Api.plain clash.manager channel data = some (clash.manager, packet)) :=
  routes_never_dangle Api.plain (reachable_of_guarded clash_reachable)

/-- Nor does `DestroyTransport` itself ever meet a null pointer: a call that is
under way can always take its next step. -/
theorem call_never_faults (L : Api) {s : Threads} (h : Reachable (Step L) Initial s)
    (hc : s.call ≠ .idle) : ∃ t, Step L s .advance t := by
  have hcall := (sound_of_reachable h).callOk
  cases hs : s.call with
  | idle => exact absurd hs hc
  | createBuilt p => exact ⟨_, Step.key hs⟩
  | createKeyed p => exact ⟨_, Step.map hs⟩
  | createMapped p => exact ⟨_, Step.insertRoute hs⟩
  | createRouted p => exact ⟨_, Step.created hs⟩
  | destroyFound uid => exact ⟨_, Step.deleteRoute hs⟩
  | destroyUnrouted uid =>
    rw [hs] at hcall
    obtain ⟨⟨p, hp⟩, _⟩ := hcall
    exact ⟨_, Step.unmap hs hp⟩
  | destroyUnmapped uid p => exact ⟨_, Step.erase hs⟩
  | destroyErased p => exact ⟨_, Step.release hs⟩

/-- No request for a new link names a uid whose short form is already taken by
a different link. -/
def NoClash (s : Threads) : Event → Prop
  | .create r _ => ∀ u, s.manager.uidMap u ≠ none → shortUid u = shortUid r.uid → u = r.uid
  | _ => True

def Unused (m : Manager) : Call → Prop
  | .createBuilt p =>
    m.shortUidMap (shortUid p.uid) = none ∧ ∀ u, m.uidMap u ≠ none → shortUid u ≠ shortUid p.uid
  | .createKeyed p | .createMapped p => m.shortUidMap (shortUid p.uid) = none
  | _ => True

/-- Without clashes every link has exactly its own route, apart from the one
the call in progress is about. -/
structure Exact (s : Threads) : Prop where
  sound : Sound s
  distinct : ∀ u v, s.manager.uidMap u ≠ none → s.manager.uidMap v ≠ none →
    shortUid u = shortUid v → u = v
  unused : Unused s.manager s.call
  routed : ∀ u p, s.manager.uidMap u = some (some p) → s.call.unrouted ≠ some u →
    s.manager.shortUidMap (shortUid u) = some p.transport
  quiet : s.log = []

theorem exact_initial {s : Threads} (h : Initial s) : Exact s := by
  refine ⟨sound_initial h, ?_, ?_, ?_, h.log⟩
  · simp [h.uidMap, PartialMap.empty]
  · rw [h.call]
    trivial
  · simp [h.uidMap, PartialMap.empty]

theorem Unused.congr {m m' : Manager} {c : Call} (h : Unused m c) (hu : m'.uidMap = m.uidMap)
    (hs : m'.shortUidMap = m.shortUidMap) : Unused m' c := by
  cases c with
  | createBuilt p | createKeyed p | createMapped p => simpa only [Unused, hu, hs] using h
  | _ => trivial

theorem Exact.congr {s t : Threads} (h : Exact s) (ht : Sound t)
    (hu : t.manager.uidMap = s.manager.uidMap) (hs : t.manager.shortUidMap = s.manager.shortUidMap)
    (hc : t.call = s.call) (hl : t.log = s.log) : Exact t := by
  refine ⟨ht, ?_, hc ▸ h.unused.congr hu hs, ?_, hl ▸ h.quiet⟩
  · rw [hu]
    exact h.distinct
  · rw [hu, hs, hc]
    exact h.routed

theorem exact_build {L : Api} {s : Threads} {r : CreateRequest} {f : ConnectionManager.Fresh}
    (h : Exact s) (hg : NoClash s (.create r f)) (hc : s.call = .idle)
    (hr : r.refused s.manager = false) (ht : Sound { s with
      manager := (buildTransport L s.manager r f).1
      call := .createBuilt (buildTransport L s.manager r f).2 }) :
    Exact { s with
      manager := (buildTransport L s.manager r f).1
      call := .createBuilt (buildTransport L s.manager r f).2 } := by
  obtain ⟨tr, _, hm⟩ := buildTransport_manager L s.manager r f
  have hu := (buildTransport_fields L s.manager r f).1
  have hnew : s.manager.uidMap r.uid = none := by
    simp only [CreateRequest.refused, Bool.or_eq_false_iff] at hr
    simpa using hr.1
  have hapart : ∀ u, s.manager.uidMap u ≠ none → shortUid u ≠ shortUid r.uid := by
    intro u hne he
    rw [hg u hne he] at hne
    exact hne hnew
  refine ⟨ht, by rw [hm]; exact h.distinct, ⟨?_, ?_⟩, ?_, h.quiet⟩
  · rw [hu, hm]
    cases hk : s.manager.shortUidMap (shortUid r.uid) with
    | none => rfl
    | some t =>
      obtain ⟨u, p, hp, _, he⟩ := h.sound.linked.routes _ t hk
      exact absurd he (hapart u (by rw [hp]; simp))
  · rw [hu, hm]
    exact hapart
  · rw [hm]
    intro u p hp _
    exact h.routed u p hp (by rw [hc]; simp [Call.unrouted])

theorem exact_key {s : Threads} {p : PeerState} (h : Exact s) (hc : s.call = .createBuilt p)
    (ht : Sound { s with
      manager := { s.manager with uidMap := s.manager.uidMap.insert p.uid (some p) }
      call := .createKeyed p }) :
    Exact { s with
      manager := { s.manager with uidMap := s.manager.uidMap.insert p.uid (some p) }
      call := .createKeyed p } := by
  have hn := h.unused
  rw [hc] at hn
  obtain ⟨hkey, hapart⟩ := hn
  have hsub : ∀ u, s.manager.uidMap.insert p.uid (some p) u ≠ none → u ≠ p.uid →
      s.manager.uidMap u ≠ none := by
    intro u hu hne
    rwa [PartialMap.insert_of_ne _ _ hne] at hu
  refine ⟨ht, ?_, hkey, ?_, h.quiet⟩
  · intro u v hu hv he
    by_cases hup : u = p.uid <;> by_cases hvp : v = p.uid
    · rw [hup, hvp]
    · subst hup
      exact absurd he.symm (hapart v (hsub v hv hvp))
    · subst hvp
      exact absurd he (hapart u (hsub u hu hup))
    · exact h.distinct u v (hsub u hu hup) (hsub v hv hvp) he
  · intro u q hq hne
    obtain ⟨rfl, _⟩ | ⟨_, hq'⟩ := PartialMap.insert_eq_some.mp hq
    · exact absurd rfl hne
    · exact h.routed u q hq' (by rw [hc]; simp [Call.unrouted])

theorem exact_insertRoute {s : Threads} {p : PeerState} (h : Exact s) (hc : s.call = .createMapped p)
    (ht : Sound { s with
      manager := (insertTransportMapW s.manager (shortUid p.uid) p.transport).1
      call := .createRouted p
      log := s.log ++ (insertTransportMapW s.manager (shortUid p.uid) p.transport).2 }) :
    Exact { s with
      manager := (insertTransportMapW s.manager (shortUid p.uid) p.transport).1
      call := .createRouted p
      log := s.log ++ (insertTransportMapW s.manager (shortUid p.uid) p.transport).2 } := by
  have hn := h.unused
  have hcall := h.sound.callOk
  rw [hc] at hn hcall
  change s.manager.shortUidMap (shortUid p.uid) = none at hn
  change s.manager.uidMap p.uid = some (some p) at hcall
  refine ⟨ht, h.distinct, trivial, ?_, ?_⟩
  · intro u q hq _
    change s.manager.uidMap u = some (some q) at hq
    change s.manager.shortUidMap.insert (shortUid p.uid) p.transport (shortUid u) = _
    by_cases hu : u = p.uid
    · subst hu
      rw [hcall] at hq
      cases hq
      exact PartialMap.insert_self _ _ _
    · have hne : shortUid u ≠ shortUid p.uid := by
        intro he
        exact hu (h.distinct u p.uid (by rw [hq]; simp) (by rw [hcall]; simp) he)
      rw [PartialMap.insert_of_ne _ _ hne]
      exact h.routed u q hq (by rw [hc]; simpa [Call.unrouted] using Ne.symm hu)
  · simp [insertTransportMapW, hn, h.quiet]

theorem exact_deleteRoute {s : Threads} {uid : Bytes} (h : Exact s) (hc : s.call = .destroyFound uid)
    (ht : Sound { s with
      manager := (deleteTransportMapW s.manager (shortUid uid)).1
      call := .destroyUnrouted uid
      log := s.log ++ (deleteTransportMapW s.manager (shortUid uid)).2 }) :
    Exact { s with
      manager := (deleteTransportMapW s.manager (shortUid uid)).1
      call := .destroyUnrouted uid
      log := s.log ++ (deleteTransportMapW s.manager (shortUid uid)).2 } := by
  have hcall := h.sound.callOk
  rw [hc] at hcall
  obtain ⟨p, hp⟩ := hcall
  have hroute := h.routed uid p hp (by rw [hc]; simp [Call.unrouted])
  have hdel : deleteTransportMapW s.manager (shortUid uid) =
      ({ s.manager with shortUidMap := s.manager.shortUidMap.erase (shortUid uid) }, []) := by
    simp [deleteTransportMapW, hroute]
  rw [hdel] at ht ⊢
  refine ⟨ht, h.distinct, trivial, ?_, by simpa using h.quiet⟩
  intro u q hq hne
  change s.manager.uidMap u = some (some q) at hq
  have hu : u ≠ uid := by simpa [Call.unrouted, eq_comm] using hne
  have hshort : shortUid u ≠ shortUid uid := by
    intro he
    exact hu (h.distinct u uid (by rw [hq]; simp) (by rw [hp]; simp) he)
  change s.manager.shortUidMap.erase (shortUid uid) (shortUid u) = _
  rw [PartialMap.erase_of_ne _ hshort]
  exact h.routed u q hq (by rw [hc]; simp [Call.unrouted])

theorem exact_step {L : Api} {s t : Threads} {e : Event} (h : Exact s)
    (hst : Guarded NoClash (Step L) s e t) : Exact t := by
  obtain ⟨hg, hst⟩ := hst
  have ht := sound_step h.sound hst
  cases hst with
  | refuse hc hr => exact h
  | build hc hr hf => exact exact_build h hg hc hr ht
  | key hc => exact exact_key h hc ht
  | map hc =>
    have hn := h.unused
    have hr := h.routed
    rw [hc] at hn hr
    exact ⟨ht, h.distinct, hn, hr, h.quiet⟩
  | insertRoute hc => exact exact_insertRoute h hc ht
  | created hc =>
    have hr := h.routed
    rw [hc] at hr
    exact ⟨ht, h.distinct, trivial, hr, h.quiet⟩
  | unknown hc hn => exact h
  | find hc hn =>
    have hr := h.routed
    rw [hc] at hr
    exact ⟨ht, h.distinct, trivial, hr, h.quiet⟩
  | deleteRoute hc => exact exact_deleteRoute h hc ht
  | unmap hc hp =>
    have hr := h.routed
    rw [hc] at hr
    exact ⟨ht, h.distinct, trivial, hr, h.quiet⟩
  | erase hc =>
    have hr := h.routed
    rw [hc] at hr
    refine ⟨ht, ?_, trivial, ?_, h.quiet⟩
    · intro u v hu hv he
      exact h.distinct u v (PartialMap.of_erase_ne_none hu) (PartialMap.of_erase_ne_none hv) he
    · intro u q hq _
      obtain ⟨hne, hq'⟩ := PartialMap.erase_eq_some.mp hq
      exact hr u q hq' (by simpa [Call.unrouted] using Ne.symm hne)
  | release hc =>
    have hr := h.routed
    rw [hc] at hr
    exact ⟨ht, h.distinct, trivial, hr, h.quiet⟩
  | @setup memory r hc =>
    have hf := frame_setup L memory s.manager r
    exact h.congr ht hf.uidMap hf.shortUidMap rfl rfl
  | setForwardAddr addr => exact h.congr ht rfl rfl rfl rfl
  | linkStatus a b c d htr => exact h.congr ht rfl rfl rfl rfl
  | handlePacket hh =>
    have hm := handlePacket_manager L _ hh
    subst hm
    exact h.congr ht rfl rfl rfl rfl
  | onReadPacket hh =>
    have hm := onReadPacket_manager L hh
    subst hm
    exact h.congr ht rfl rfl rfl rfl

theorem exact_of_reachable {L : Api} {s : Threads}
    (h : Reachable (Guarded NoClash (Step L)) Initial s) : Exact s := by
  refine reachable_invariant ?_ ?_ h
  · intro s hs
    exact exact_initial hs
  · intro s e t hs hst
    exact exact_step hs hst

theorem route_step {L : Api} {s t : Threads} {e : Event} (h : Exact s) (hst : Step L s e t) (u : Bytes)
    (hu : s.manager.uidMap u ≠ none) (hne : s.call.subject ≠ some u) :
    t.manager.shortUidMap (shortUid u) = s.manager.shortUidMap (shortUid u) := by
  have hcall := h.sound.callOk
  cases hst with
  | @build r f hc hr hf =>
    obtain ⟨tr, _, hm⟩ := buildTransport_manager L s.manager r f
    dsimp only
    rw [hm]
  | @insertRoute p hc =>
    rw [hc] at hcall hne
    change s.manager.uidMap p.uid = some (some p) at hcall
    have hshort : shortUid u ≠ shortUid p.uid := by
      intro he
      exact hne (congrArg some (h.distinct p.uid u (by rw [hcall]; simp) hu he.symm))
    exact PartialMap.insert_of_ne _ _ hshort
  | @deleteRoute uid hc =>
    rw [hc] at hcall hne
    obtain ⟨p, hp⟩ := hcall
    have hshort : shortUid u ≠ shortUid uid := by
      intro he
      exact hne (congrArg some (h.distinct uid u (by rw [hp]; simp) hu he.symm))
    dsimp only
    rw [deleteTransportMapW_manager]
    exact PartialMap.erase_of_ne _ hshort
  | @setup memory r hc =>
    dsimp only
    rw [(frame_setup L memory s.manager r).shortUidMap]
  | handlePacket hh => rw [handlePacket_manager L _ hh]
  | onReadPacket hh => rw [onReadPacket_manager L hh]
  | _ => rfl

/-- As long as no two links at a time share a short uid, links do not disturb
each other's routes and the two error lines are never written. -/
theorem links_keep_their_routes (L : Api) {s : Threads}
    (h : Reachable (Guarded NoClash (Step L)) Initial s) :
    (s.call = .idle → ∀ u q, s.manager.uidMap u = some q →
      ∃ p, q = some p ∧ s.manager.shortUidMap (shortUid u) = some p.transport) ∧
    (∀ e t, Guarded NoClash (Step L) s e t → ∀ u, s.manager.uidMap u ≠ none →
      s.call.subject ≠ some u →
      t.manager.shortUidMap (shortUid u) = s.manager.shortUidMap (shortUid u)) ∧
    s.log = [] := by
  have hx := exact_of_reachable h
  refine ⟨?_, fun e t hst u hu hne => route_step hx hst.2 u hu hne, hx.quiet⟩
  intro hc u q hq
  obtain ⟨p, _, hp, _⟩ := hx.sound.linked.owned u q hq
  subst hp
  exact ⟨p, rfl, hx.routed u p hq (by rw [hc]; simp [Call.unrouted])⟩

theorem links_keep_their_routes_two :
    let s := created (created start uidA ⟨1, 2, 0⟩) uidB ⟨3, 4, 0⟩
    (s.call = .idle → ∀ u q, s.manager.uidMap u = some q →
      ∃ p, q = some p ∧ s.manager.shortUidMap (shortUid u) = some p.transport) ∧
    (∀ e t, Guarded NoClash (Step Api.plain) s e t → ∀ u, s.manager.uidMap u ≠ none →
      s.call.subject ≠ some u →
      t.manager.shortUidMap (shortUid u) = s.manager.shortUidMap (shortUid u)) ∧
    s.log = [] := by
  have h₁ : Reachable (Guarded NoClash (Step Api.plain)) Initial (created start uidA ⟨1, 2, 0⟩) :=
    reachable_created (reachable_init start_initial) rfl ⟨by decide, rfl, rfl⟩
      (fun u hu => absurd rfl hu) (fun _ => trivial)
  refine links_keep_their_routes Api.plain
    (reachable_created h₁ rfl ⟨by decide, rfl, rfl⟩ ?_ (fun _ => trivial))
  intro u hu hs
  have hA : u = uidA := by
    by_contra hne
    exact hu (PartialMap.insert_of_ne _ _ hne)
  subst hA
  exact absurd hs (by decide)

/-- With a shared short uid the second link takes the route of the first, the
end of the second leaves the first without one, and both error lines appear. -/
theorem shared_short_uid_disturbs :
    Reachable (Step Api.plain) Initial clash ∧ clash.call = .idle ∧
    (∃ p, clash.manager.uidMap uidA = some (some p) ∧
      clash.manager.shortUidMap (shortUid uidA) ≠ some p.transport) ∧
    Reachable (Step Api.plain) Initial (destroyed clash uidA') ∧
    (destroyed clash uidA').manager.uidMap uidA ≠ none ∧
    (destroyed clash uidA').manager.shortUidMap (shortUid uidA) = none ∧
    Reachable (Step Api.plain) Initial (destroyed (destroyed clash uidA') uidA) ∧
    (destroyed (destroyed clash uidA') uidA).log =
      [.alreadyExists (shortUid uidA), .cannotFind (shortUid uidA)] := by
  have h₁ := @reachable_destroyed _ _ uidA' clash_reachable rfl trivial (fun _ => trivial)
  have h₂ := @reachable_destroyed _ _ uidA h₁ rfl trivial (fun _ => trivial)
  refine ⟨reachable_of_guarded clash_reachable, rfl, ⟨_, rfl, ?_⟩, reachable_of_guarded h₁, ?_, rfl,
    reachable_of_guarded h₂, rfl⟩
  · decide
  · exact Option.isSome_iff_ne_none.mp rfl

end Tincan.Routes
