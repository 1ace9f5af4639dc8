import Tincan.Routes

namespace Tincan.Roles

open Tincan.Library Tincan.Library.Text Tincan.Library.Runs
open Tincan.Libjingle Tincan.Utils Tincan.ConnectionManager Tincan.PacketPath Tincan.LinkThreads

/-- A node, and for each link the identity the node had when the link was made. -/
structure Node where
  threads : Threads
  idAtCreate : PartialMap Bytes Bytes

def Node.noted (s : Node) : Event → PartialMap Bytes Bytes
  | .create r _ =>
    if r.refused s.threads.manager then s.idAtCreate
    else s.idAtCreate.insert r.uid s.threads.manager.tincanId
  | _ => s.idAtCreate

def Step (L : Api) (s : Node) (e : Event) (t : Node) : Prop :=
  LinkThreads.Step L s.threads e t.threads ∧ t.idAtCreate = s.noted e

/-- A node before its `Setup`, without links. -/
structure Initial (s : Node) : Prop where
  threads : LinkThreads.Initial s.threads
  tincanId : s.threads.manager.tincanId = []
  idAtCreate : s.idAtCreate = PartialMap.empty

structure Offering (tr : Transport) : Prop where
  iceRole : tr.iceRole = some .controlling
  localDescription : ∃ d, tr.localDescription = some (d, .offer) ∧ d.connectionRole = .actpass

structure Answering (tr : Transport) : Prop where
  iceRole : tr.iceRole = some .controlled
  localDescription : ∃ d, tr.localDescription = some (d, .answer) ∧ d.connectionRole = .active

/-- The role of a link to `uid` that was set up under the identity `id`. -/
structure Decided (uid id : Bytes) (tr : Transport) : Prop where
  smaller : uid < id → Offering tr
  larger : id < uid → Answering tr

theorem decided_setupTransport (L : Api) (m : Manager) (p : PeerState) (tr : Transport) :
    Decided p.uid m.tincanId (setupTransport L m p tr).2 := by
  constructor
  · intro h
    have hlt : compare p.uid m.tincanId = .lt := compare_eq_lt_iff.mpr h
    simp only [setupTransport, hlt, reduceCtorEq, ↓reduceIte]
    exact ⟨rfl, _, rfl, rfl⟩
  · intro h
    have hgt : compare p.uid m.tincanId = .gt := compare_eq_gt_iff.mpr h
    simp only [setupTransport, hgt, reduceCtorEq, ↓reduceIte]
    exact ⟨rfl, _, rfl, rfl⟩

theorem Decided.congr {uid id : Bytes} {tr tr' : Transport} (h : Decided uid id tr)
    (hrole : tr'.iceRole = tr.iceRole) (hlocal : tr'.localDescription = tr.localDescription) :
    Decided uid id tr' :=
  ⟨fun hlt => ⟨hrole ▸ (h.smaller hlt).iceRole, hlocal ▸ (h.smaller hlt).localDescription⟩,
    fun hlt => ⟨hrole ▸ (h.larger hlt).iceRole, hlocal ▸ (h.larger hlt).localDescription⟩⟩

theorem decided_build (L : Api) (m : Manager) (r : CreateRequest) (f : Fresh) :
    ∃ tr, (buildTransport L m r f).1 = { m with
        transports := m.transports.insert f.transport tr
        channels := m.channels.insert f.channel f.transport } ∧ Decided r.uid m.tincanId tr := by
  have h := decided_setupTransport L m (newPeer L m r f) (newTransport m r f)
  obtain ⟨_, hp⟩ := newPeer_eq L m r f
  have hu : (newPeer L m r f).uid = r.uid := by rw [hp]
  rw [hu] at h
  exact ⟨{ (setupTransport L m (newPeer L m r f) (newTransport m r f)).2 with connecting := true }, rfl,
    h.congr rfl rfl⟩

/-- Every peer state is in the role that its uid has against the identity at
its creation, and that identity is the one of now unless it was none. -/
structure Settled (s : Node) : Prop where
  sound : Sound s.threads
  decided : ∀ p tr, s.threads.Holds p → s.threads.manager.transports p.transport = some tr →
    ∃ id, s.idAtCreate p.uid = some id ∧ Decided p.uid id tr
  identity : ∀ u id, s.idAtCreate u = some id → id = [] ∨ id = s.threads.manager.tincanId

structure Builds (s : Threads) (e : Event) (r : CreateRequest) (f : Fresh) : Prop where
  event : e = .create r f
  idle : s.call = .idle
  accepted : r.refused s.manager = false
  available : Available s.manager f

theorem holds_step {L : Api} {s t : Threads} {e : Event} {p : PeerState}
    (hst : LinkThreads.Step L s e t) (hp : t.Holds p) :
    s.Holds p ∨ ∃ r f, Builds s e r f ∧ p = (buildTransport L s.manager r f).2 := by
  cases hst with
  | @build r f hc hr hf =>
    obtain ⟨tr, _, hm⟩ := buildTransport_manager L s.manager r f
    obtain ⟨u, hu⟩ | hheld := hp
    · rw [hm] at hu
      exact .inl (.inl ⟨u, hu⟩)
    · exact .inr ⟨r, f, ⟨rfl, hc, hr, hf⟩, (Option.some.inj hheld).symm⟩
  | @key q hc =>
    obtain ⟨u, hu⟩ | hheld := hp
    · obtain ⟨_, hq⟩ | ⟨_, hu'⟩ := PartialMap.insert_eq_some.mp hu
      · exact .inl (.inr (by rw [hc, Option.some.inj hq]; rfl))
      · exact .inl (.inl ⟨u, hu'⟩)
    · exact .inl (.inr (by rw [hc]; exact hheld))
  | map hc | insertRoute hc =>
    obtain hu | hheld := hp
    · exact .inl (.inl hu)
    · exact .inl (.inr (by rw [hc]; exact hheld))
  | created hc | release hc | find hc hn =>
    obtain hu | hheld := hp
    · exact .inl (.inl hu)
    · cases hheld
  | deleteRoute hc =>
    obtain ⟨u, hu⟩ | hheld := hp
    · simp only [deleteTransportMapW_manager] at hu
      exact .inl (.inl ⟨u, hu⟩)
    · cases hheld
  | unmap hc hq =>
    obtain hu | hheld := hp
    · exact .inl (.inl hu)
    · cases hheld
      exact .inl (.inl ⟨_, hq⟩)
  | erase hc =>
    obtain ⟨u, hu⟩ | hheld := hp
    · exact .inl (.inl ⟨u, (PartialMap.erase_eq_some.mp hu).2⟩)
    · exact .inl (.inr (by rw [hc]; exact hheld))
  | @setup memory r hc =>
    obtain ⟨u, hu⟩ | hheld := hp
    · simp only [(frame_setup L memory s.manager r).uidMap] at hu
      exact .inl (.inl ⟨u, hu⟩)
    · exact .inl (.inr hheld)
  | handlePacket hh =>
    rw [handlePacket_manager L _ hh] at hp
    exact .inl hp
  | onReadPacket hh =>
    rw [onReadPacket_manager L hh] at hp
    exact .inl hp
  | refuse | unknown | setForwardAddr | linkStatus => exact .inl hp

theorem transports_step {L : Api} {s t : Threads} {e : Event} {x : Ptr} {tr' : Transport}
    (hst : LinkThreads.Step L s e t) (hx : t.manager.transports x = some tr') :
    (∃ tr, s.manager.transports x = some tr ∧ tr'.iceRole = tr.iceRole ∧
      tr'.localDescription = tr.localDescription) ∨
    ∃ r f, Builds s e r f ∧ x = f.transport ∧ Decided r.uid s.manager.tincanId tr' := by
  cases hst with
  | @build r f hc hr hf =>
    obtain ⟨tr, hm, hd⟩ := decided_build L s.manager r f
    rw [hm] at hx
    obtain ⟨hxf, htr⟩ | ⟨_, hx'⟩ := PartialMap.insert_eq_some.mp hx
    · exact .inr ⟨r, f, ⟨rfl, hc, hr, hf⟩, hxf, htr ▸ hd⟩
    · exact .inl ⟨tr', hx', rfl, rfl⟩
  | deleteRoute hc =>
    simp only [deleteTransportMapW_manager] at hx
    exact .inl ⟨tr', hx, rfl, rfl⟩
  | @release p hc => exact .inl ⟨tr', (PartialMap.erase_eq_some.mp hx).2, rfl, rfl⟩
  | @setup memory r hc =>
    rw [setup_transports] at hx
    exact .inl ⟨tr', hx, rfl, rfl⟩
  | linkStatus a b c d ht =>
    obtain ⟨hxt, htr⟩ | ⟨_, hx'⟩ := PartialMap.insert_eq_some.mp hx
    · exact .inl ⟨_, hxt ▸ ht, htr ▸ rfl, htr ▸ rfl⟩
    · exact .inl ⟨tr', hx', rfl, rfl⟩
  | handlePacket hh =>
    rw [handlePacket_manager L _ hh] at hx
    exact .inl ⟨tr', hx, rfl, rfl⟩
  | onReadPacket hh =>
    rw [onReadPacket_manager L hh] at hx
    exact .inl ⟨tr', hx, rfl, rfl⟩
  | refuse | unknown | setForwardAddr | key | map | insertRoute | created | find | unmap | erase =>
    exact .inl ⟨tr', hx, rfl, rfl⟩

theorem tincanId_step {L : Api} {s t : Threads} {e : Event} (hst : LinkThreads.Step L s e t) :
    t.manager.tincanId = s.manager.tincanId ∨ s.manager.tincanId = [] := by
  cases hst with
  | @build r f hc hr hf =>
    obtain ⟨tr, _, hm⟩ := buildTransport_manager L s.manager r f
    exact .inl (by rw [hm])
  | deleteRoute hc => exact .inl (by simp only [deleteTransportMapW_manager])
  | @setup memory r hc =>
    by_cases hnone : s.manager.tincanId = []
    · exact .inr hnone
    · exact .inl (by simp [setup, hnone])
  | handlePacket hh => exact .inl (by rw [handlePacket_manager L _ hh])
  | onReadPacket hh => exact .inl (by rw [onReadPacket_manager L hh])
  | refuse | unknown | setForwardAddr | key | map | insertRoute | created | find | unmap | erase
  | release | linkStatus => exact .inl rfl

theorem builds_apart {s : Threads} {e : Event} {r : CreateRequest} {f : Fresh} {p : PeerState}
    (h : Sound s) (hb : Builds s e r f) (hp : s.Holds p) :
    p.uid ≠ r.uid ∧ p.transport ≠ f.transport := by
  obtain ⟨u, hu⟩ | hheld := hp
  · obtain ⟨p', tr, hpp, hpu, htr⟩ := h.linked.owned u (some p) hu
    cases hpp
    constructor
    · intro he
      have hacc := hb.accepted
      simp only [CreateRequest.refused, Bool.or_eq_false_iff] at hacc
      rw [← he, hpu, hu] at hacc
      simp at hacc
    · intro he
      rw [he, hb.available.transport_free] at htr
      cases htr
  · rw [hb.idle] at hheld
    cases hheld

theorem noted_of_builds {s : Node} {e : Event} {r : CreateRequest} {f : Fresh}
    (hb : Builds s.threads e r f) :
    s.noted e = s.idAtCreate.insert r.uid s.threads.manager.tincanId := by
  rw [hb.event]
  simp [Node.noted, hb.accepted]

theorem noted_step {L : Api} {s t : Node} {e : Event} (hst : Step L s e t) :
    t.idAtCreate = s.idAtCreate ∨ ∃ r f, Builds s.threads e r f := by
  obtain ⟨hst, hn⟩ := hst
  generalize t.threads = t' at hst
  rw [hn]
  cases hst with
  | refuse hc hr => exact .inl (by simp [Node.noted, hr])
  | build hc hr hf => exact .inr ⟨_, _, rfl, hc, hr, hf⟩
  | _ => exact .inl rfl

theorem settled_initial {s : Node} (h : Initial s) : Settled s := by
  refine ⟨sound_initial h.threads, ?_, ?_⟩
  · intro p tr hp htr
    simp [h.threads.transports, PartialMap.empty] at htr
  · simp [h.idAtCreate, PartialMap.empty]

theorem settled_step {L : Api} {s t : Node} {e : Event} (h : Settled s) (hst : Step L s e t) :
    Settled t := by
  have hsound := sound_step h.sound hst.1
  refine ⟨hsound, ?_, ?_⟩
  · intro p tr' hp htr'
    obtain hold | ⟨r, f, hb, rfl⟩ := holds_step hst.1 hp
    · obtain ⟨tr, htr, hrole, hlocal⟩ | ⟨r, f, hb, hx, _⟩ := transports_step hst.1 htr'
      · obtain ⟨id, hid, hd⟩ := h.decided p tr hold htr
        refine ⟨id, ?_, hd.congr hrole hlocal⟩
        obtain hsame | ⟨r, f, hb⟩ := noted_step hst
        · rw [hsame, hid]
        · rw [hst.2, noted_of_builds hb,
            PartialMap.insert_of_ne _ _ (builds_apart h.sound hb hold).1, hid]
      · exact absurd hx (builds_apart h.sound hb hold).2
    · obtain ⟨hu, ht⟩ := buildTransport_fields L s.threads.manager r f
      rw [ht] at htr'
      obtain ⟨tr, htr, _⟩ | ⟨r', f', hb', _, hd⟩ := transports_step hst.1 htr'
      · rw [hb.available.transport_free] at htr
        cases htr
      · have heq := hb.event.symm.trans hb'.event
        cases heq
        rw [hu, hst.2, noted_of_builds hb]
        exact ⟨_, PartialMap.insert_self _ _ _, hd⟩
  · intro u id hid
    have hkeep : id = [] ∨ id = s.threads.manager.tincanId := by
      obtain hsame | ⟨r, f, hb⟩ := noted_step hst
      · exact h.identity u id (hsame ▸ hid)
      · rw [hst.2, noted_of_builds hb] at hid
        obtain ⟨_, hid'⟩ | ⟨_, hid'⟩ := PartialMap.insert_eq_some.mp hid
        · exact .inr hid'
        · exact h.identity u id hid'
    obtain hsame | hnone := tincanId_step hst.1
    · rwa [hsame]
    · obtain hk | hk := hkeep
      · exact .inl hk
      · exact .inl (hk.trans hnone)

theorem settled_of_reachable {L : Api} {s : Node} (h : Reachable (Step L) Initial s) : Settled s := by
  refine reachable_invariant ?_ ?_ h
  · intro s hs
    exact settled_initial hs
  · intro s e t hs hst
    exact settled_step hs hst

/-- The empty identity is smaller than any uid, so a link to a larger uid has
its role whenever it is made. -/
theorem role_of_link {L : Api} {s : Node} (h : Reachable (Step L) Initial s) {u id : Bytes}
    {p : PeerState} (hid : s.threads.manager.tincanId = id)
    (hp : s.threads.manager.uidMap u = some (some p)) :
    ∃ tr, s.threads.manager.transports p.transport = some tr ∧ (id < u → Answering tr) ∧
      (u < id → s.idAtCreate u = some id → Offering tr) := by
  have hs := settled_of_reachable h
  obtain ⟨p', tr, hpp, hpu, htr⟩ := hs.sound.linked.owned u (some p) hp
  cases hpp
  obtain ⟨id', hid', hd⟩ := hs.decided p tr (.inl ⟨u, hp⟩) htr
  rw [hpu] at hid' hd
  refine ⟨tr, htr, ?_, ?_⟩
  · intro hlt
    obtain rfl | rfl := hs.identity u id' hid'
    · have hnil : ([] : Bytes) < u := by
        cases u with
        | nil => exact absurd hlt (List.not_lt_nil id)
        | cons b u => exact List.nil_lt_cons b u
      exact hd.larger hnil
    · exact hd.larger (hid ▸ hlt)
  · intro hlt hnow
    rw [hid'] at hnow
    cases hnow
    exact hd.smaller hlt

def setUp (s : Threads) (uid : Bytes) : Threads :=
  { s with manager := (setup Api.plain (fun _ => 0) s.manager ⟨uid, [], 0, [], 0, 0, 0⟩).1 }

theorem reachable_setUp {n : Node} (h : Reachable (Step Api.plain) Initial n)
    (hc : n.threads.call = .idle) (uid : Bytes) :
    Reachable (Step Api.plain) Initial ⟨setUp n.threads uid, n.idAtCreate⟩ :=
  reachable_step (e := .setup (fun _ => 0) ⟨uid, [], 0, [], 0, 0, 0⟩) h ⟨.setup hc, rfl⟩

theorem reachable_advance {n : Node} {t : Threads} (h : Reachable (Step Api.plain) Initial n)
    (hst : LinkThreads.Step Api.plain n.threads .advance t) :
    Reachable (Step Api.plain) Initial ⟨t, n.idAtCreate⟩ :=
  reachable_step (t := ⟨t, n.idAtCreate⟩) h ⟨hst, rfl⟩

theorem reachable_linked {n : Node} {uid : Bytes} {f : Fresh}
    (h : Reachable (Step Api.plain) Initial n) (hc : n.threads.call = .idle)
    (hr : (Routes.sampleRequest uid).refused n.threads.manager = false)
    (hf : Available n.threads.manager f) :
    Reachable (Step Api.plain) Initial
      ⟨Routes.created n.threads uid f, n.idAtCreate.insert uid n.threads.manager.tincanId⟩ := by
  have hb : Builds n.threads (.create (Routes.sampleRequest uid) f) (Routes.sampleRequest uid) f :=
    ⟨rfl, hc, hr, hf⟩
  have h₁ : Reachable (Step Api.plain) Initial
      ⟨_, n.idAtCreate.insert uid n.threads.manager.tincanId⟩ :=
    reachable_step h ⟨.build hc hr hf, (noted_of_builds hb).symm⟩
  have h₂ := reachable_advance h₁ (.key rfl)
  have h₃ := reachable_advance h₂ (.map rfl)
  have h₄ := reachable_advance h₃ (.insertRoute rfl)
  have h₅ := reachable_advance h₄ (.created rfl)
  unfold Routes.created
  rw [createTransport_eq hr]
  exact h₅

def newNode : Node := ⟨Routes.start, PartialMap.empty⟩

theorem newNode_initial : Initial newNode := ⟨Routes.start_initial, rfl, rfl⟩

def early (uid peer : Bytes) : Node :=
  ⟨setUp (Routes.created Routes.start peer ⟨1, 2, 0⟩) uid, newNode.idAtCreate.insert peer []⟩

def late (uid peer : Bytes) : Node :=
  ⟨Routes.created (setUp Routes.start uid) peer ⟨1, 2, 0⟩,
    newNode.idAtCreate.insert peer (setUp Routes.start uid).manager.tincanId⟩

theorem early_reachable {peer : Bytes} (uid : Bytes)
    (hr : (Routes.sampleRequest peer).refused Routes.start.manager = false) :
    Reachable (Step Api.plain) Initial (early uid peer) :=
  reachable_setUp (reachable_linked (reachable_init newNode_initial) rfl hr ⟨by decide, rfl, rfl⟩) rfl uid

/-- The two ends of a link take complementary roles, provided the end with the
larger uid made its link when it already had its identity. -/
theorem ends_take_complementary_roles (L L' : Api) {here there : Node}
    (h : Reachable (Interleaved (Step L) (Step L')) (fun p => Initial p.1 ∧ Initial p.2) (here, there))
    {a b : Bytes} (ha : here.threads.manager.tincanId = a) (hb : there.threads.manager.tincanId = b)
    (hab : a ≠ b) {p q : PeerState}
    (hp : here.threads.manager.uidMap b = some (some p))
    (hq : there.threads.manager.uidMap a = some (some q))
    (hhere : b < a → here.idAtCreate b = some a) (hthere : a < b → there.idAtCreate a = some b) :
    ∃ tr tr', here.threads.manager.transports p.transport = some tr ∧
      there.threads.manager.transports q.transport = some tr' ∧
      ((Offering tr ∧ Answering tr') ∨ (Answering tr ∧ Offering tr')) := by
  obtain ⟨hl, hr⟩ := reachable_interleaved h
  obtain ⟨tr, htr, hans, hoff⟩ := role_of_link hl ha hp
  obtain ⟨tr', htr', hans', hoff'⟩ := role_of_link hr hb hq
  refine ⟨tr, tr', htr, htr', ?_⟩
  obtain hlt | hgt := lt_or_gt_of_ne hab
  · exact .inr ⟨hans hlt, hoff' hlt (hthere hlt)⟩
  · exact .inl ⟨hoff hgt (hhere hgt), hans' hgt⟩

theorem ends_take_complementary_roles_late :
    let here := early Routes.uidA Routes.uidB
    let there := late Routes.uidB Routes.uidA
    ∃ p q tr tr', here.threads.manager.uidMap Routes.uidB = some (some p) ∧
      there.threads.manager.uidMap Routes.uidA = some (some q) ∧
      here.threads.manager.transports p.transport = some tr ∧
      there.threads.manager.transports q.transport = some tr' ∧
      ((Offering tr ∧ Answering tr') ∨ (Answering tr ∧ Offering tr')) := by
  intro here there
  have hl : Reachable (Step Api.plain) Initial here := early_reachable Routes.uidA rfl
  have hr : Reachable (Step Api.plain) Initial there :=
    reachable_linked (reachable_setUp (reachable_init newNode_initial) rfl Routes.uidB) rfl rfl
      ⟨by decide, rfl, rfl⟩
  have hp : ∃ p, here.threads.manager.uidMap Routes.uidB = some (some p) := ⟨_, rfl⟩
  have hq : ∃ q, there.threads.manager.uidMap Routes.uidA = some (some q) := ⟨_, rfl⟩
  obtain ⟨p, hp⟩ := hp
  obtain ⟨q, hq⟩ := hq
  obtain ⟨tr, tr', htr, htr', hroles⟩ := ends_take_complementary_roles Api.plain Api.plain
    (interleaved_of_reachable hl hr) (a := Routes.uidA) (b := Routes.uidB) rfl rfl (by decide) hp hq
    (fun h => absurd h (by decide)) (fun _ => rfl)
  exact ⟨p, q, tr, tr', hp, hq, htr, htr', hroles⟩

/-- If both make the link first, both ends wait to be called. -/
theorem early_links_both_answer :
    let here := early Routes.uidA Routes.uidB
    let there := early Routes.uidB Routes.uidA
    Reachable (Interleaved (Step Api.plain) (Step Api.plain)) (fun p => Initial p.1 ∧ Initial p.2)
      (here, there) ∧
    here.threads.manager.tincanId = Routes.uidA ∧ there.threads.manager.tincanId = Routes.uidB ∧
    ∃ p q tr tr', here.threads.manager.uidMap Routes.uidB = some (some p) ∧
      there.threads.manager.uidMap Routes.uidA = some (some q) ∧
      here.threads.manager.transports p.transport = some tr ∧
      there.threads.manager.transports q.transport = some tr' ∧ Answering tr ∧ Answering tr' ∧
      ¬((Offering tr ∧ Answering tr') ∨ (Answering tr ∧ Offering tr')) := by
  intro here there
  have hl : Reachable (Step Api.plain) Initial here := early_reachable Routes.uidA rfl
  have hr : Reachable (Step Api.plain) Initial there := early_reachable Routes.uidB rfl
  refine ⟨interleaved_of_reachable hl hr, rfl, rfl, _, _, _, _, rfl, rfl, rfl, rfl, ?_, ?_, ?_⟩
  · exact ⟨rfl, _, rfl, rfl⟩
  · exact ⟨rfl, _, rfl, rfl⟩
  · rintro (⟨⟨h, _⟩, _⟩ | ⟨_, ⟨h, _⟩⟩)
    · cases h
    · cases h

end Tincan.Roles
