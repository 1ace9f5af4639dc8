import Tincan.BadDatagrams

namespace Tincan.LinkHeap

open Tincan.Library Tincan.Library.Text Tincan.Library.Runs Tincan.Libjingle Tincan.Utils
open Tincan.ConnectionManager Tincan.ControllerAccess Tincan.Process Tincan.LinkChanges

/-- The tables and the objects of the links agree: each link has one live
transport and one channel of its own, nothing else is alive, and no entry of a
table refers to anything else. A lookup with an unknown transport leaves an
entry for the empty uid behind. -/
structure Tidy (m : Manager) : Prop where
  linked : LinkThreads.Linked m
  known : ∀ u p, m.uidMap u = some (some p) → m.transportMap p.transport = some u
  mapped : ∀ t u, m.transportMap t = some u →
    u = [] ∨ ∃ p, m.uidMap u = some (some p) ∧ p.transport = t
  used : ∀ t tr, m.transports t = some tr → ∃ u p, m.uidMap u = some (some p) ∧ p.transport = t
  owner : ∀ channel t, m.channels channel = some t → ∃ tr, m.transports t = some tr
  channel : ∀ t tr, m.transports t = some tr → ∃! channel, m.channels channel = some t

/-- All that the tables and objects of the links are made of. -/
structure SameHeap (m m' : Manager) : Prop where
  uidMap : m'.uidMap = m.uidMap
  shortUidMap : m'.shortUidMap = m.shortUidMap
  transportMap : m'.transportMap = m.transportMap
  channels : m'.channels = m.channels
  live : ∀ t, (m'.transports t).isSome = (m.transports t).isSome

section

variable {m m' : Manager} {u : Bytes} {p p' : PeerState}

theorem SameHeap.refl (m : Manager) : SameHeap m m := ⟨rfl, rfl, rfl, rfl, fun _ => rfl⟩

theorem SameHeap.transport (h : SameHeap m m') {t : Ptr} :
    (∃ tr, m'.transports t = some tr) ↔ ∃ tr, m.transports t = some tr := by
  rw [← Option.isSome_iff_exists, ← Option.isSome_iff_exists, h.live]

theorem SameHeap.frame (h : SameHeap m m') : LinkThreads.Frame m m' := by
  refine ⟨h.uidMap, h.shortUidMap, fun t tr ht => h.transport.mpr ⟨tr, ht⟩, fun hn => ?_⟩
  have hl := h.live null
  rw [hn] at hl
  simpa using hl

theorem tidy_of_empty (hu : m.uidMap = PartialMap.empty) (hs : m.shortUidMap = PartialMap.empty)
    (hm : m.transportMap = PartialMap.empty) (ht : m.transports = PartialMap.empty)
    (hc : m.channels = PartialMap.empty) : Tidy m := by
  refine ⟨⟨?_, ?_, ?_, ?_⟩, ?_, ?_, ?_, ?_, ?_⟩ <;> simp [hu, hs, hm, ht, hc, PartialMap.empty]

theorem Tidy.congr (h : Tidy m) (hs : SameHeap m m') : Tidy m' := by
  refine ⟨h.linked.frame hs.frame, ?_, ?_, ?_, ?_, ?_⟩
  · rw [hs.uidMap, hs.transportMap]
    exact h.known
  · rw [hs.uidMap, hs.transportMap]
    exact h.mapped
  · intro t tr ht
    obtain ⟨tr', ht'⟩ := hs.transport.mp ⟨tr, ht⟩
    rw [hs.uidMap]
    exact h.used t tr' ht'
  · intro channel t hch
    rw [hs.channels] at hch
    exact hs.transport.mpr (h.owner channel t hch)
  · intro t tr ht
    obtain ⟨tr', ht'⟩ := hs.transport.mp ⟨tr, ht⟩
    rw [hs.channels]
    exact h.channel t tr' ht'

theorem Tidy.live (h : Tidy m) : Live m := by
  refine ⟨fun u q hq => ?_, h.linked.apart⟩
  obtain ⟨p, tr, rfl, _, ht⟩ := h.linked.owned u q hq
  exact ⟨p, rfl, by rw [ht]; rfl⟩

theorem Tidy.change (h : Tidy m) (p' : PeerState) (hp : m.uidMap u = some (some p)) (huid : p'.uid = p.uid)
    (ht : p'.transport = p.transport)
    (hs : SameHeap { m with uidMap := m.uidMap.insert u (some p') } m') : Tidy m' := by
  refine Tidy.congr ?_ hs
  have hback : ∀ v q, m.uidMap.insert u (some p') v = some (some q) →
      ∃ q₀, m.uidMap v = some (some q₀) ∧ q.uid = q₀.uid ∧ q.transport = q₀.transport := by
    intro v q hq
    obtain ⟨rfl, he⟩ | ⟨_, hold⟩ := PartialMap.insert_eq_some.mp hq
    · cases he
      exact ⟨p, hp, huid, ht⟩
    · exact ⟨q, hold, rfl, rfl⟩
  have hforth : ∀ v q₀, m.uidMap v = some (some q₀) →
      ∃ q, m.uidMap.insert u (some p') v = some (some q) ∧ q.transport = q₀.transport := by
    intro v q₀ hq
    by_cases hv : v = u
    · subst hv
      rw [hp] at hq
      cases hq
      exact ⟨p', PartialMap.insert_self _ _ _, ht⟩
    · exact ⟨q₀, PartialMap.insert_eq_some.mpr (.inr ⟨hv, hq⟩), rfl⟩
  refine ⟨⟨h.linked.null_dead, ?_, ?_, ?_⟩, ?_, ?_, ?_, h.owner, h.channel⟩
  · intro v q hq
    obtain ⟨rfl, rfl⟩ | ⟨_, hold⟩ := PartialMap.insert_eq_some.mp hq
    · obtain ⟨p₀, tr, he, hu, hl⟩ := h.linked.owned v _ hp
      cases he
      exact ⟨p', tr, rfl, huid.trans hu, ht ▸ hl⟩
    · exact h.linked.owned v q hold
  · intro v w a b ha hb hab
    obtain ⟨a₀, ha₀, _, hta⟩ := hback v a ha
    obtain ⟨b₀, hb₀, _, htb⟩ := hback w b hb
    exact h.linked.apart v w a₀ b₀ ha₀ hb₀ (by rw [← hta, ← htb, hab])
  · intro key t hk
    obtain ⟨v, q₀, hq, hqt, hkey⟩ := h.linked.routes key t hk
    obtain ⟨q, hq', hqt'⟩ := hforth v q₀ hq
    exact ⟨v, q, hq', hqt'.trans hqt, hkey⟩
  · intro v q hq
    obtain ⟨q₀, hq₀, _, hqt⟩ := hback v q hq
    rw [hqt]
    exact h.known v q₀ hq₀
  · intro t v hv
    obtain hnil | ⟨q₀, hq, hqt⟩ := h.mapped t v hv
    · exact .inl hnil
    · obtain ⟨q, hq', hqt'⟩ := hforth v q₀ hq
      exact .inr ⟨q, hq', hqt'.trans hqt⟩
  · intro t tr htr
    obtain ⟨v, q₀, hq, hqt⟩ := h.used t tr htr
    obtain ⟨q, hq', hqt'⟩ := hforth v q₀ hq
    exact ⟨v, q, hq', hqt'.trans hqt⟩

theorem Tidy.transport_ne {f : Fresh} (h : Tidy m) (hf : LinkThreads.Available m f)
    (hp : m.uidMap u = some (some p)) : p.transport ≠ f.transport := h.live.transport_ne hf hp

theorem linked_create {L : Api} {r : CreateRequest} {f : Fresh} (h : LinkThreads.Linked m)
    (hf : r.refused m = false → LinkThreads.Available m f) :
    LinkThreads.Linked (createTransport L m r f).1 := by
  obtain ⟨es, hr⟩ : ∃ es, Run (Guarded (fun _ _ => True) (LinkThreads.Step L)) ⟨m, .idle, [], [], []⟩ es _ :=
    LinkThreads.run_createTransport rfl hf trivial fun _ => trivial
  exact (run_invariant (P := LinkThreads.Sound) (fun _ _ _ hs hst => LinkThreads.sound_step hs hst.2) hr
    ⟨h, trivial⟩).linked

theorem linked_destroy {uid : Bytes} {done : Bool} {log : List ConnectionManager.Log}
    (h : LinkThreads.Linked m) (hd : destroyTransport m uid = some (m', done, log)) :
    LinkThreads.Linked m' := by
  obtain ⟨es, hr⟩ : ∃ es, Run (Guarded (fun _ _ => True) (LinkThreads.Step Api.plain))
      ⟨m, .idle, [], [], []⟩ es _ := LinkThreads.run_destroyTransport rfl hd trivial fun _ => trivial
  exact (run_invariant (P := LinkThreads.Sound) (fun _ _ _ hs hst => LinkThreads.sound_step hs hst.2) hr
    ⟨h, trivial⟩).linked

theorem Tidy.create {L : Api} {r : CreateRequest} {f : Fresh} (h : Tidy m)
    (hf : r.refused m = false → LinkThreads.Available m f) : Tidy (createTransport L m r f).1 := by
  have hlinked := linked_create (L := L) h.linked hf
  obtain ⟨_, hm⟩ | ⟨hr, tr, hm⟩ := createTransport_cases L m r f
  · rwa [hm]
  rw [hm] at hlinked ⊢
  have hp := (LinkThreads.buildTransport_fields L m r f).2
  have hnew := hf hr
  have hfree : m.uidMap r.uid = none := by
    simp only [CreateRequest.refused, Bool.or_eq_false_iff] at hr
    simpa using hr.1
  have hkept : ∀ v q, m.uidMap v = some q →
      m.uidMap.insert r.uid (some (buildTransport L m r f).2) v = some q := by
    intro v q hq
    refine PartialMap.insert_eq_some.mpr (.inr ⟨?_, hq⟩)
    rintro rfl
    rw [hfree] at hq
    cases hq
  have hdead : ∀ channel, m.channels channel ≠ some f.transport := by
    intro channel hch
    obtain ⟨tr, htr⟩ := h.owner channel _ hch
    rw [hnew.transport_free] at htr
    cases htr
  refine ⟨hlinked, ?_, ?_, ?_, ?_, ?_⟩
  · intro v q hq
    obtain ⟨rfl, he⟩ | ⟨_, hold⟩ := PartialMap.insert_eq_some.mp hq
    · cases he
      rw [hp]
      exact PartialMap.insert_self _ _ _
    · exact PartialMap.insert_eq_some.mpr (.inr ⟨h.transport_ne hnew hold, h.known v q hold⟩)
  · intro t v hv
    obtain ⟨rfl, rfl⟩ | ⟨_, hold⟩ := PartialMap.insert_eq_some.mp hv
    · exact .inr ⟨_, PartialMap.insert_self _ _ _, hp⟩
    · obtain hnil | ⟨q, hq, hqt⟩ := h.mapped t v hold
      · exact .inl hnil
      · exact .inr ⟨q, hkept v _ hq, hqt⟩
  · intro t tr' ht
    obtain ⟨rfl, _⟩ | ⟨_, hold⟩ := PartialMap.insert_eq_some.mp ht
    · exact ⟨r.uid, _, PartialMap.insert_self _ _ _, hp⟩
    · obtain ⟨v, q, hq, hqt⟩ := h.used t tr' hold
      exact ⟨v, q, hkept v _ hq, hqt⟩
  · intro channel t hch
    obtain ⟨_, rfl⟩ | ⟨_, hold⟩ := PartialMap.insert_eq_some.mp hch
    · exact ⟨tr, PartialMap.insert_self _ _ _⟩
    · obtain ⟨tr', ht⟩ := h.owner channel t hold
      refine ⟨tr', PartialMap.insert_eq_some.mpr (.inr ⟨?_, ht⟩)⟩
      rintro rfl
      exact hdead channel hold
  · intro t tr' ht
    obtain ⟨rfl, _⟩ | ⟨hne, hold⟩ := PartialMap.insert_eq_some.mp ht
    · refine ⟨f.channel, PartialMap.insert_self _ _ _, fun channel hch => ?_⟩
      obtain ⟨he, _⟩ | ⟨_, hold⟩ := PartialMap.insert_eq_some.mp hch
      · exact he
      · exact absurd hold (hdead channel)
    · obtain ⟨channel, hch, huniq⟩ := h.channel t tr' hold
      refine ⟨channel, PartialMap.insert_eq_some.mpr (.inr ⟨?_, hch⟩), fun channel' hch' => ?_⟩
      · rintro rfl
        rw [hnew.channel_free] at hch
        cases hch
      · obtain ⟨_, he⟩ | ⟨_, hold'⟩ := PartialMap.insert_eq_some.mp hch'
        · exact absurd he hne
        · exact huniq channel' hold'

theorem channels_release {channel t : Ptr} :
    (releasePeer m p).channels channel = some t ↔ m.channels channel = some t ∧ t ≠ p.transport := by
  simp only [releasePeer, Option.filter_eq_some_iff, bne_iff_ne]

theorem Tidy.destroy {uid : Bytes} {done : Bool} {log : List ConnectionManager.Log} (h : Tidy m)
    (hd : destroyTransport m uid = some (m', done, log)) : Tidy m' := by
  have hlinked := linked_destroy h.linked hd
  obtain ⟨_, rfl⟩ | ⟨p, hp, rfl⟩ := destroyTransport_cases hd
  · exact h
  have hother : ∀ v q, v ≠ uid → m.uidMap v = some (some q) → q.transport ≠ p.transport :=
    fun v q hv hq he => hv (h.linked.apart v uid q p hq hp he)
  have hkept : ∀ v q, m.uidMap v = some (some q) → q.transport ≠ p.transport →
      m.uidMap.erase uid v = some (some q) := by
    intro v q hq hne
    refine PartialMap.erase_eq_some.mpr ⟨?_, hq⟩
    rintro rfl
    rw [hp] at hq
    cases hq
    exact hne rfl
  refine ⟨hlinked, ?_, ?_, ?_, ?_, ?_⟩
  · intro v q hq
    obtain ⟨hv, hold⟩ := PartialMap.erase_eq_some.mp hq
    exact PartialMap.erase_eq_some.mpr ⟨hother v q hv hold, h.known v q hold⟩
  · intro t v hv
    obtain ⟨ht, hold⟩ := PartialMap.erase_eq_some.mp hv
    obtain hnil | ⟨q, hq, rfl⟩ := h.mapped t v hold
    · exact .inl hnil
    · exact .inr ⟨q, hkept v q hq ht, rfl⟩
  · intro t tr ht
    obtain ⟨hne, hold⟩ := PartialMap.erase_eq_some.mp ht
    obtain ⟨v, q, hq, rfl⟩ := h.used t tr hold
    exact ⟨v, q, hkept v q hq hne, rfl⟩
  · intro channel t hch
    obtain ⟨hold, hne⟩ := channels_release.mp hch
    obtain ⟨tr, ht⟩ := h.owner channel t hold
    exact ⟨tr, PartialMap.erase_eq_some.mpr ⟨hne, ht⟩⟩
  · intro t tr ht
    obtain ⟨hne, hold⟩ := PartialMap.erase_eq_some.mp ht
    obtain ⟨channel, hch, huniq⟩ := h.channel t tr hold
    exact ⟨channel, channels_release.mpr ⟨hch, hne⟩,
      fun channel' hch' => huniq channel' (channels_release.mp hch').1⟩

theorem live_insert {transports : PartialMap Ptr Transport} {t : Ptr} {tr tr' : Transport}
    (h : transports t = some tr) (t' : Ptr) :
    (transports.insert t tr' t').isSome = (transports t').isSome := by
  by_cases he : t' = t
  · subst he
    simp [h]
  · simp [he]

theorem Tidy.give {libs : Libs} {uid cas : Bytes} (h : Tidy m)
    (hm : giveCandidates libs m uid cas = some m') : Tidy m' := by
  obtain rfl | ⟨p, tr, candidates, hp, _, htr, rfl⟩ := giveCandidates_cases hm
  · exact h
  · exact h.change { p with candidates := candidates } hp rfl rfl
      ⟨rfl, rfl, rfl, rfl, live_insert htr⟩

theorem Tidy.lookup (h : Tidy m) (t : Ptr) :
    Tidy { m with transportMap := (m.transportMap.index t []).2 } := by
  refine ⟨h.linked.frame (.of_eq rfl rfl rfl), ?_, ?_, h.used, h.owner, h.channel⟩
  · intro u p hp
    exact PartialMap.index_snd_eq_some [] (h.known u p hp)
  · intro t' u hu
    cases ht : m.transportMap t with
    | some v =>
      rw [PartialMap.index_of_mem [] ht] at hu
      exact h.mapped t' u hu
    | none =>
      have hins : (m.transportMap.index t []).2 = m.transportMap.insert t [] := by
        simp [PartialMap.index, ht]
      rw [hins] at hu
      obtain ⟨_, rfl⟩ | ⟨_, hold⟩ := PartialMap.insert_eq_some.mp hu
      · exact .inl rfl
      · exact h.mapped t' u hold

end

section

variable {libs : Libs}

theorem sameHeap_setStatus {m : Manager} {t : Ptr} {tr : Transport} (h : m.transports t = some tr)
    (a b c d : Bool) : SameHeap m (LinkThreads.setStatus m t tr a b c d) :=
  ⟨rfl, rfl, rfl, rfl, live_insert h⟩

theorem heap_of_update {env : Env} {c c' : Controller} {d : Datagram} (h : Update libs env c d c') :
    (SameHeap c.manager c'.manager ∧ c'.manager.transports = c.manager.transports) ∨
      (∃ r cas, linkRequest libs c d = some r ∧
        giveCandidates libs (createTransport libs.jingle c.manager r env.fresh).1 r.uid cas =
          some c'.manager) ∨
      ∃ uid done log, destroyTransport c.manager uid = some (c'.manager, done, log) := by
  cases h with
  | link hr hm => exact .inr (.inl ⟨_, _, hr, hm⟩)
  | trim hd => exact .inr (.inr ⟨_, _, _, hd⟩)
  | setup r =>
    refine .inl ?_
    unfold setup
    split <;> exact ⟨⟨rfl, rfl, rfl, rfl, fun _ => rfl⟩, rfl⟩
  | addIPMapping uid ip4 ip6 =>
    refine .inl ?_
    unfold addIPMapping
    split <;> exact ⟨⟨rfl, rfl, rfl, rfl, fun _ => rfl⟩, rfl⟩
  | _ => exact .inl ⟨⟨rfl, rfl, rfl, rfl, fun _ => rfl⟩, rfl⟩

theorem tidy_candidatesReady {m : Manager} {t : Ptr} {candidates : List Candidate} (h : Tidy m)
    (hf : (onCandidatesReady libs.jingle m t candidates).fault = false) :
    Tidy (onCandidatesReady libs.jingle m t candidates).manager := by
  obtain ⟨hfault, _⟩ | ⟨p, hp, _, hm⟩ := onCandidatesReady_cases libs.jingle m t candidates
  · rw [hf] at hfault
    cases hfault
  · rw [hm]
    exact (h.lookup t).change (withReported libs.jingle m p candidates) hp rfl rfl (.refl _)

theorem tidy_allocationDone {m : Manager} {t : Ptr} (h : Tidy m)
    (hf : (onCandidatesAllocationDone m t).fault = false) :
    Tidy (onCandidatesAllocationDone m t).manager := by
  rw [onCandidatesAllocationDone_fault] at hf
  rw [onCandidatesAllocationDone_manager, uidMap_of_found hf]
  exact h.lookup t

theorem tidy_rwChange {m : Manager} {t : Ptr} (h : Tidy m) (hf : (onRWChangeState m t).fault = false) :
    Tidy (onRWChangeState m t).manager := by
  obtain hm | ⟨hm, hfault⟩ := onRWChangeState_cases m t
  · rw [hm]
    exact h.lookup t
  · rw [hm, uidMap_of_found (hfault ▸ hf)]
    exact h.lookup t

theorem tidy_controller {c c' : Controller} {e : Event} {taken : List Xmpp.Stanza}
    {msgs : List PeerMessage} (h : Tidy c.manager) (hstep : ControllerStep libs c e c' taken msgs)
    (hnew : ∀ env d, e = .datagram env d → ∀ r, linkRequest libs c d = some r →
      r.refused c.manager = false → LinkThreads.Available c.manager env.fresh)
    (hready : ∀ t candidates, e ≠ .candidatesReady t candidates)
    (hdone : ∀ env t, e ≠ .candidatesAllocationDone env t)
    (hrw : ∀ env t, e ≠ .rwChangeState env t) : Tidy c'.manager := by
  cases hstep with
  | datagram hd =>
    obtain ⟨hs, _⟩ | ⟨r, cas, hr, hm⟩ | ⟨uid, done, log, ht⟩ := heap_of_update (update_handlePacket hd)
    · exact h.congr hs
    · exact (h.create (hnew _ _ rfl r hr)).give hm
    · exact h.destroy ht
  | candidatesReady t candidates => exact absurd rfl (hready t candidates)
  | candidatesAllocationDone env t => exact absurd rfl (hdone env t)
  | rwChangeState env t => exact absurd rfl (hrw env t)
  | linkStatus a b c d ht => exact h.congr (sameHeap_setStatus ht a b c d)
  | queueSignal hq =>
    obtain ⟨_, _, _, rfl⟩ := handleQueueSignal_eq_some hq
    exact h
  | readPacket hr =>
    rw [PacketPath.onReadPacket_manager _ hr]
    exact h
  | tapRecv hr =>
    obtain ⟨_, _, _, rfl, _⟩ := doPacketRecv_eq_some hr
    exact h
  | same | stateChange | timer | stanza | processStart | tapSend => exact h

theorem tidy_step {s t : State} {e : Event} (h : Tidy s.controller.manager)
    (hst : Guarded (NewObjects libs) (Steps (step libs)) s e t) (hrun : t.crashed = false) :
    Tidy t.controller.manager := by
  obtain ⟨hnew, hst⟩ := hst
  have hs := running_of_step hst
  have hcontroller := controllerStep_of_step hst
  cases e with
  | candidatesReady x candidates =>
    simp only [Steps, step, hs, Bool.false_eq_true, ↓reduceIte, Option.some.injEq] at hst
    subst hst
    exact tidy_candidatesReady h hrun
  | candidatesAllocationDone env x =>
    simp only [Steps, step, hs, Bool.false_eq_true, ↓reduceIte, Option.some.injEq] at hst
    subst hst
    obtain ⟨hm, hf⟩ := absorb_frame libs env s (onCandidatesAllocationDone s.controller.manager x)
    rw [hm]
    exact tidy_allocationDone h (hf hrun)
  | rwChangeState env x =>
    simp only [Steps, step, hs, Bool.false_eq_true, ↓reduceIte, Option.some.injEq] at hst
    subst hst
    obtain ⟨hm, hf⟩ := absorb_frame libs env s (onRWChangeState s.controller.manager x)
    rw [hm]
    exact tidy_rwChange h (hf hrun)
  | datagram env d =>
    obtain ⟨taken, msgs, hc⟩ := hcontroller
    refine tidy_controller h hc ?_ (by simp) (by simp) (by simp)
    rintro _ _ ⟨⟩
    exact hnew
  | _ =>
    obtain ⟨taken, msgs, hc⟩ := hcontroller
    exact tidy_controller h hc (by simp) (by simp) (by simp) (by simp)

theorem tidy_initial {s : State} (h : Initial s) : Tidy s.controller.manager := by
  obtain ⟨_, _, _, _, _, _, _, rfl⟩ := h
  exact tidy_of_empty rfl rfl rfl rfl rfl

def Reached (libs : Libs) (s : State) : Prop :=
  Reachable (Guarded (NewObjects libs) (Steps (step libs))) Initial s

theorem tidy_of_reachable {s : State} (h : Reached libs s) (hrun : s.crashed = false) :
    Tidy s.controller.manager := by
  refine reachable_invariant (P := fun s : State => s.crashed = false → Tidy s.controller.manager)
    ?_ ?_ h hrun
  · exact fun s hs _ => tidy_initial hs
  · exact fun s e t hs hst hrun => tidy_step (hs (running_of_step hst.2)) hst hrun

/-- Whatever the controller and the transports do, no transport or channel
outlives its link or is shared by two, and no table refers to one that is gone,
except that the empty uid can be left as that of an unknown transport; when the
last link has been taken away nothing is left of any of them. -/
theorem objects_belong_to_links {s : State} (h : Reached libs s) (hrun : s.crashed = false) :
    Tidy s.controller.manager ∧
      (s.controller.manager.uidMap = PartialMap.empty →
        s.controller.manager.transports = PartialMap.empty ∧
        s.controller.manager.channels = PartialMap.empty ∧
        s.controller.manager.shortUidMap = PartialMap.empty) := by
  have ht := tidy_of_reachable h hrun
  refine ⟨ht, fun hempty => ?_⟩
  have hnone : ∀ u p, s.controller.manager.uidMap u ≠ some (some p) := by
    intro u p hu
    rw [hempty] at hu
    cases hu
  have hdead : ∀ t, s.controller.manager.transports t = none := by
    intro t
    cases htr : s.controller.manager.transports t with
    | none => rfl
    | some tr =>
      obtain ⟨u, p, hp, _⟩ := ht.used t tr htr
      exact absurd hp (hnone u p)
  refine ⟨funext hdead, funext fun channel => ?_, funext fun key => ?_⟩
  · cases hch : s.controller.manager.channels channel with
    | none => rfl
    | some t =>
      obtain ⟨tr, htr⟩ := ht.owner channel t hch
      rw [hdead t] at htr
      cases htr
  · cases hk : s.controller.manager.shortUidMap key with
    | none => rfl
    | some t =>
      obtain ⟨u, p, hp, _⟩ := ht.linked.routes key t hk
      exact absurd hp (hnone u p)

def trimDatagram : Datagram := datagramOf (kIpopVer :: kTincanControl :: BadDatagrams.trimText)

theorem reached_trimmed : ∃ s t,
    step BadDatagrams.trimLibs startState (.datagram sampleEnv (linkDatagram 49)) = some s ∧
    step BadDatagrams.trimLibs s (.datagram sampleEnv trimDatagram) = some t ∧
    s.controller.manager.uidMap (bytes "b") ≠ none ∧ t.controller.manager.uidMap (bytes "b") = none ∧
    t.crashed = false ∧ Reached BadDatagrams.trimLibs t := by
  have hrun : ∃ s t, step BadDatagrams.trimLibs startState (.datagram sampleEnv (linkDatagram 49)) = some s ∧
      step BadDatagrams.trimLibs s (.datagram sampleEnv trimDatagram) = some t ∧
      linkRequest BadDatagrams.trimLibs s.controller trimDatagram = none ∧
      (s.controller.manager.uidMap (bytes "b")).isSome = true ∧
      t.controller.manager.uidMap (bytes "b") = none ∧ t.crashed = false :=
    ⟨_, _, rfl, rfl, rfl, rfl, rfl, rfl⟩
  obtain ⟨s, t, hs, ht, hrequest, hlink, hgone, hcrashed⟩ := hrun
  have hnew : NewObjects BadDatagrams.trimLibs startState (.datagram sampleEnv (linkDatagram 49)) :=
    fun _ _ _ => ⟨by decide, rfl, rfl⟩
  have hnew' : NewObjects BadDatagrams.trimLibs s (.datagram sampleEnv trimDatagram) := by
    intro r hr
    rw [hrequest] at hr
    cases hr
  exact ⟨s, t, hs, ht, Option.isSome_iff_ne_none.mp hlink, hgone, hcrashed,
    reachable_step (reachable_step (reachable_init startState_initial) ⟨hnew, hs⟩) ⟨hnew', ht⟩⟩

theorem objects_belong_to_links_trimmed : ∃ t : State, Reached BadDatagrams.trimLibs t ∧
    Tidy t.controller.manager ∧ (t.controller.manager.uidMap = PartialMap.empty →
      t.controller.manager.transports = PartialMap.empty ∧
      t.controller.manager.channels = PartialMap.empty ∧
      t.controller.manager.shortUidMap = PartialMap.empty) := by
  obtain ⟨s, t, _, _, _, _, hrun, h⟩ := reached_trimmed
  exact ⟨t, h, objects_belong_to_links h hrun⟩

end

end Tincan.LinkHeap
