import Tincan.CandidateParser
import Tincan.RepeatedRequests

namespace Tincan.WriteOnce

open Tincan.Library Tincan.Library.Text Tincan.Library.Runs Tincan.Library.Tokens Tincan.Libjingle
open Tincan.Utils Tincan.ConnectionManager Tincan.ControllerAccess Tincan.CandidateExchange
open Tincan.CandidateParser Tincan.Process Tincan.LinkChanges

structure Attached (m : Manager) (u : Bytes) (p : PeerState) (tr : Transport) : Prop where
  link : m.uidMap u = some (some p)
  transport : m.transports p.transport = some tr

/-- The same transport, perhaps in another state of the connection and with
other candidates. Its roles and descriptions are the same. -/
def SameSetup (tr tr' : Transport) : Prop :=
  tr' = { tr with
    channel := tr'.channel
    readable := tr'.readable
    writable := tr'.writable
    wasWritable := tr'.wasWritable
    remoteCandidates := tr'.remoteCandidates }

/-- What a link holds once texts have been given for it one after the other. -/
def afterTexts (L : Api) (candidates : List Candidate) (texts : List Bytes) : List Candidate :=
  texts.foldl (fun candidates s => if candidates = [] then parse L s else candidates) candidates

/-- The parse of the first text with a token of at least twelve fields. -/
def firstCandidates (L : Api) (texts : List Bytes) : List Candidate :=
  ((texts.find? (fun s => (tokens s).any (fun w => decide (WellFormed w)))).map (parse L)).getD []

def textsFor (libs : Libs) (u : Bytes) (s : Controller) : Event → List Bytes
  | .datagram _ d => match linkOffer libs s d with
    | some (r, cas) => if r.uid = u then [cas] else []
    | none => []
  | _ => []

/-- A link and its transport before and after texts were given. -/
structure Carried (L : Api) (texts : List Bytes) (p : PeerState) (tr : Transport) (p' : PeerState)
    (tr' : Transport) : Prop where
  link : SameLink p p'
  setup : SameSetup tr tr'
  candidates : p'.candidates = afterTexts L p.candidates texts
  handed : tr'.remoteCandidates = p'.candidates

def Continues (L : Api) (u : Bytes) (texts : List Bytes) (m m' : Manager) : Prop :=
  ∀ p tr, Attached m u p tr → tr.remoteCandidates = p.candidates →
    ∃ p' tr', Attached m' u p' tr' ∧ Carried L texts p tr p' tr'

/-- An event that does not destroy the link of a uid, next to the texts that have
been given for it so far. -/
structure Watched (libs : Libs) (u : Bytes) (s : State × List Bytes) (e : Event)
    (t : State × List Bytes) : Prop where
  step : Guarded (NewObjects libs) (Steps (step libs)) s.1 e t.1
  texts : t.2 = s.2 ++ textsFor libs u s.1.controller e
  linked : t.1.controller.manager.uidMap u ≠ none

section

variable {L : Api} {texts texts' : List Bytes} {candidates : List Candidate}

theorem afterTexts_append (L : Api) (candidates : List Candidate) (texts texts' : List Bytes) :
    afterTexts L candidates (texts ++ texts') = afterTexts L (afterTexts L candidates texts) texts' :=
  List.foldl_append

theorem afterTexts_of_ne (h : candidates ≠ []) (texts : List Bytes) :
    afterTexts L candidates texts = candidates := by
  unfold afterTexts
  induction texts with
  | nil => rfl
  | cons s texts ih => rw [List.foldl_cons, if_neg h, ih]

theorem parse_eq_nil_iff (hsplit : L.Splits) (s : Bytes) :
    parse L s = [] ↔ (tokens s).any (fun w => decide (WellFormed w)) = false := by
  rw [parse_eq hsplit, candidatesOf, List.map_eq_nil_iff, List.filter_eq_nil_iff, List.any_eq_false]

theorem afterTexts_nil (hsplit : L.Splits) (texts : List Bytes) :
    afterTexts L [] texts = firstCandidates L texts := by
  unfold firstCandidates
  induction texts with
  | nil => rfl
  | cons s texts ih =>
    have hcons : afterTexts L [] (s :: texts) = afterTexts L (parse L s) texts := rfl
    rw [hcons, List.find?_cons]
    by_cases hs : parse L s = []
    · rw [(parse_eq_nil_iff hsplit s).mp hs, hs, ih]
    · have hany : (tokens s).any (fun w => decide (WellFormed w)) = true := by
        rw [← Bool.not_eq_false]
        exact mt (parse_eq_nil_iff hsplit s).mpr hs
      rw [hany, afterTexts_of_ne hs]
      rfl

theorem SameSetup.trans {tr tr' tr'' : Transport} (h : SameSetup tr tr') (h' : SameSetup tr' tr'') :
    SameSetup tr tr'' := by
  unfold SameSetup at h h' ⊢
  rw [h', h]

theorem Carried.refl {p : PeerState} {tr : Transport} (h : tr.remoteCandidates = p.candidates) :
    Carried L [] p tr p tr := ⟨rfl, rfl, rfl, h⟩

theorem Carried.trans {p p' p'' : PeerState} {tr tr' tr'' : Transport}
    (h : Carried L texts p tr p' tr') (h' : Carried L texts' p' tr' p'' tr'') :
    Carried L (texts ++ texts') p tr p'' tr'' := by
  refine ⟨h.link.trans h'.link, h.setup.trans h'.setup, ?_, h'.handed⟩
  rw [h'.candidates, h.candidates, afterTexts_append]

end

section

variable {libs : Libs} {m m' : Manager} {u uid cas : Bytes} {p : PeerState} {tr : Transport}

theorem continues_same (L : Api) (u : Bytes) (hu : m'.uidMap = m.uidMap)
    (ht : m'.transports = m.transports) : Continues L u [] m m' := by
  intro p tr h hheld
  refine ⟨p, tr, ⟨?_, ?_⟩, .refl hheld⟩
  · rw [hu]
    exact h.link
  · rw [ht]
    exact h.transport

theorem continues_index (L : Api) (u key : Bytes) (hu : m'.uidMap = (m.uidMap.index key none).2)
    (ht : m'.transports = m.transports) : Continues L u [] m m' := by
  intro p tr h hheld
  refine ⟨p, tr, ⟨?_, ?_⟩, .refl hheld⟩
  · rw [hu]
    exact PartialMap.index_snd_eq_some none h.link
  · rw [ht]
    exact h.transport

theorem continues_setStatus (L : Api) (u : Bytes) {t : Ptr} (ht : m.transports t = some tr)
    (a b c d : Bool) : Continues L u [] m (LinkThreads.setStatus m t tr a b c d) := by
  intro p tr' h hheld
  by_cases he : p.transport = t
  · subst he
    obtain rfl := Option.some.inj (ht.symm.trans h.transport)
    exact ⟨p, _, ⟨h.link, PartialMap.insert_self _ _ _⟩, rfl, rfl, rfl, hheld⟩
  · exact ⟨p, tr', ⟨h.link, (PartialMap.insert_of_ne _ _ he).trans h.transport⟩, .refl hheld⟩

theorem continues_candidatesReady (L : Api) (u : Bytes) (m : Manager) (t : Ptr)
    (candidates : List Candidate) : Continues L u [] m (onCandidatesReady L m t candidates).manager := by
  obtain ⟨_, hm⟩ | ⟨q, hq, _, hm⟩ := onCandidatesReady_cases L m t candidates
  · rw [hm]
    exact continues_index L u (knownAs m t) rfl rfl
  · rw [hm]
    intro p tr h hheld
    by_cases he : u = knownAs m t
    · subst he
      obtain rfl := Option.some.inj (Option.some.inj (hq.symm.trans h.link))
      exact ⟨_, tr, ⟨PartialMap.insert_self _ _ _, h.transport⟩, rfl, rfl, rfl, hheld⟩
    · exact ⟨p, tr, ⟨(PartialMap.insert_of_ne _ _ he).trans h.link, h.transport⟩, .refl hheld⟩

theorem continues_create {L : Api} {r : CreateRequest} {f : ConnectionManager.Fresh} (u : Bytes)
    (hf : r.refused m = false → LinkThreads.Available m f) :
    Continues L u [] m (createTransport L m r f).1 := by
  obtain ⟨_, hm⟩ | ⟨hr, tr₀, hm⟩ := createTransport_cases L m r f
  · rw [hm]
    exact continues_same L u rfl rfl
  · rw [hm]
    intro p tr h hheld
    have hu : u ≠ r.uid := by
      rintro rfl
      simp [CreateRequest.refused, h.link] at hr
    have ht : p.transport ≠ f.transport := by
      intro he
      have hfree := (hf hr).transport_free
      rw [← he, h.transport] at hfree
      cases hfree
    exact ⟨p, tr, ⟨(PartialMap.insert_of_ne _ _ hu).trans h.link,
      (PartialMap.insert_of_ne _ _ ht).trans h.transport⟩, .refl hheld⟩

theorem attached_createTransport (L : Api) {r : CreateRequest} (hr : r.refused m = false)
    (f : ConnectionManager.Fresh) :
    ∃ tr, Attached (createTransport L m r f).1 r.uid (buildTransport L m r f).2 tr ∧
      (buildTransport L m r f).1.transports (buildTransport L m r f).2.transport = some tr ∧
      (buildTransport L m r f).2.candidates = [] ∧ tr.remoteCandidates = [] := by
  obtain ⟨_, _, _, _, hp⟩ := LinkThreads.buildTransport_peer L m r f
  obtain ⟨tr, ⟨_, hnone⟩, hm⟩ := LinkThreads.buildTransport_manager L m r f
  obtain ⟨hu, ht⟩ := LinkThreads.buildTransport_fields L m r f
  have hbuilt : (buildTransport L m r f).1.transports f.transport = some tr := by
    rw [hm]
    exact PartialMap.insert_self _ _ _
  refine ⟨tr, ⟨?_, ?_⟩, ht ▸ hbuilt, by rw [hp], hnone⟩
  · rw [LinkThreads.createTransport_eq hr]
    dsimp only [insertTransportMapW]
    rw [hu]
    exact PartialMap.insert_self _ _ _
  · rw [LinkThreads.createTransport_eq hr, ht]
    exact hbuilt

theorem continues_give (L : Api) (hlive : Live m) (hne : uid ≠ u)
    (h : giveCandidates libs m uid cas = some m') : Continues L u [] m m' := by
  obtain rfl | ⟨q, trq, candidates, hq, _, _, rfl⟩ := giveCandidates_cases h
  · exact continues_same L u rfl rfl
  · intro p tr h hheld
    have ht : p.transport ≠ q.transport := fun he => hne (hlive.apart uid u q p hq h.link he.symm)
    exact ⟨p, tr, ⟨(PartialMap.insert_of_ne _ _ (Ne.symm hne)).trans h.link,
      (PartialMap.insert_of_ne _ _ ht).trans h.transport⟩, .refl hheld⟩

theorem continues_given (hsplit : libs.jingle.Splits)
    (h : giveCandidates libs m u cas = some m') : Continues libs.jingle u [cas] m m' := by
  intro p tr hat hheld
  have htexts : afterTexts libs.jingle p.candidates [cas] =
      if p.candidates = [] then parse libs.jingle cas else p.candidates := rfl
  unfold giveCandidates at h
  split at h
  · next hempty =>
    cases h
    obtain rfl := List.isEmpty_iff.mp hempty
    refine ⟨p, tr, hat, rfl, rfl, ?_, hheld⟩
    rw [htexts]
    split
    · next hnone =>
      rw [hnone, parse_eq hsplit]
      rfl
    · rfl
  · rw [Option.map_eq_some_iff] at h
    obtain ⟨⟨m', done⟩, hc, rfl⟩ := h
    by_cases hnone : p.candidates = []
    · rw [createConnections_parse hsplit hat.link hnone hat.transport] at hc
      cases hc
      refine ⟨_, _, ⟨PartialMap.insert_self _ _ _, PartialMap.insert_self _ _ _⟩, rfl, rfl, ?_, ?_⟩
      · rw [htexts, if_pos hnone]
      · dsimp only
        rw [hheld, hnone, List.nil_append]
    · simp only [createConnections, hat.link, if_pos (show p.candidates ≠ [] from hnone)] at hc
      cases hc
      refine ⟨p, tr, hat, rfl, rfl, ?_, hheld⟩
      rw [htexts, if_neg hnone]

theorem continues_destroy (L : Api) {done : Bool} {log : List ConnectionManager.Log} (hlive : Live m)
    (hne : uid ≠ u) (h : destroyTransport m uid = some (m', done, log)) : Continues L u [] m m' := by
  obtain ⟨_, rfl⟩ | ⟨q, hq, rfl⟩ := destroyTransport_cases h
  · exact continues_same L u rfl rfl
  · intro p tr h hheld
    have ht : p.transport ≠ q.transport := fun he => hne (hlive.apart uid u q p hq h.link he.symm)
    exact ⟨p, tr, ⟨(PartialMap.erase_of_ne _ (Ne.symm hne)).trans h.link,
      (PartialMap.erase_of_ne _ ht).trans h.transport⟩, .refl hheld⟩

end

section

variable {libs : Libs} {env : Env} {c c' : Controller} {d : Datagram}

/-- The request is carried out whether or not `CreateTransport` makes a link. -/
theorem handlePacket_of_offer {r : CreateRequest} {cas : Bytes} (env : Env)
    (h : linkOffer libs c d = some (r, cas)) :
    (handlePacket libs env c d).map (fun o => o.state.manager) =
      giveCandidates libs (createTransport libs.jingle c.manager r env.fresh).1 r.uid cas := by
  rw [linkOffer, Option.bind_eq_bind, Option.bind_eq_some_iff] at h
  obtain ⟨⟨method, call, root⟩, hrequest, hreq⟩ := h
  dsimp only at hreq
  split at hreq
  · next hcall =>
    subst hcall
    have hstate := congrArg (Option.map Controller.manager) (handlePacket_request env hrequest)
    rw [Option.map_map, Option.map_map] at hstate
    refine hstate.trans ?_
    simp only [dispatch, createLink, hreq, Option.bind_eq_bind, Option.bind_some]
    cases giveCandidates libs (createTransport libs.jingle c.manager r env.fresh).1 r.uid cas <;> rfl
  · cases hreq

theorem textsFor_of_none {u : Bytes} (env : Env) (h : linkOffer libs c d = none) :
    textsFor libs u c (.datagram env d) = [] := by
  simp only [textsFor, h]

theorem continues_offer {r : CreateRequest} {cas u : Bytes} {m : Manager} (hsplit : libs.jingle.Splits)
    (hlive : Live c.manager) (h : linkOffer libs c d = some (r, cas))
    (hf : r.refused c.manager = false → LinkThreads.Available c.manager env.fresh)
    (hm : giveCandidates libs (createTransport libs.jingle c.manager r env.fresh).1 r.uid cas = some m) :
    Continues libs.jingle u (textsFor libs u c (.datagram env d)) c.manager m := by
  have hcreate := continues_create (L := libs.jingle) u hf
  simp only [textsFor, h]
  intro p tr hat hheld
  obtain ⟨p₁, tr₁, hat₁, hcarried₁⟩ := hcreate p tr hat hheld
  by_cases hu : r.uid = u
  · subst hu
    obtain ⟨p₂, tr₂, hat₂, hcarried₂⟩ := continues_given hsplit hm p₁ tr₁ hat₁ hcarried₁.handed
    rw [if_pos rfl]
    exact ⟨p₂, tr₂, hat₂, hcarried₁.trans hcarried₂⟩
  · obtain ⟨p₂, tr₂, hat₂, hcarried₂⟩ :=
      continues_give libs.jingle (hlive.create hf) hu hm p₁ tr₁ hat₁ hcarried₁.handed
    rw [if_neg hu]
    exact ⟨p₂, tr₂, hat₂, hcarried₁.trans hcarried₂⟩

theorem destroyTransport_false {m m' : Manager} {uid : Bytes} {log : List ConnectionManager.Log}
    (h : destroyTransport m uid = some (m', false, log)) : m' = m := by
  unfold destroyTransport at h
  split at h
  · cases h
    rfl
  · cases h
  · cases h

theorem continues_update (hlive : Live c.manager) (u : Bytes) (hoffer : linkOffer libs c d = none)
    (h : Update libs env c d c') :
    Continues libs.jingle u [] c.manager c'.manager ∨
      ∃ log, destroyTransport c.manager u = some (c'.manager, true, log) := by
  cases h with
  | link hr _ =>
    rw [linkRequest, hoffer] at hr
    cases hr
  | setup r =>
    have hsame := (LinkThreads.frame_setup libs.jingle env.memory c.manager r).uidMap
    exact .inl (continues_same _ u hsame (LinkThreads.setup_transports _ _ _ _))
  | addIPMapping uid ip4 ip6 =>
    have hsame := (sameLinks_addIPMapping libs.jingle env.memory c.manager uid ip4 ip6).uidMap
    refine .inl (continues_same _ u hsame ?_)
    unfold addIPMapping
    split <;> rfl
  | @trim uid m done log hd =>
    by_cases hu : uid = u
    · subst hu
      cases done with
      | true => exact .inr ⟨log, hd⟩
      | false =>
        obtain rfl := destroyTransport_false hd
        exact .inl (continues_same _ uid rfl rfl)
    · exact .inl (continues_destroy _ hlive hu hd)
  | same | toTap | toSend | login | endpoint | logging | opts | trimPolicy | ignoreList | method =>
    exact .inl (continues_same _ u rfl rfl)

theorem continues_controller {e : Event} {taken : List Xmpp.Stanza} {msgs : List PeerMessage} (u : Bytes)
    (h : ControllerStep libs c e c' taken msgs) (he : ∀ env d, e ≠ .datagram env d) :
    Continues libs.jingle u [] c.manager c'.manager := by
  cases h with
  | datagram h => exact absurd rfl (he _ _)
  | candidatesReady t candidates => exact continues_candidatesReady _ u c.manager t candidates
  | candidatesAllocationDone env t =>
    rw [onCandidatesAllocationDone_manager]
    exact continues_index _ u (knownAs c.manager t) rfl rfl
  | rwChangeState env t =>
    obtain hm | ⟨hm, _⟩ := onRWChangeState_cases c.manager t <;> rw [hm]
    · exact continues_same _ u rfl rfl
    · exact continues_index _ u (knownAs c.manager t) rfl rfl
  | linkStatus a b c d h => exact continues_setStatus _ u h a b c d
  | queueSignal h =>
    obtain ⟨_, _, _, rfl⟩ := handleQueueSignal_eq_some h
    exact continues_same _ u rfl rfl
  | readPacket h =>
    have hm := PacketPath.onReadPacket_manager _ h
    exact continues_same _ u (by rw [hm]) (by rw [hm])
  | tapRecv h =>
    obtain ⟨_, _, _, rfl, _⟩ := doPacketRecv_eq_some h
    exact continues_same _ u rfl rfl
  | same | stateChange | timer | stanza | processStart | tapSend => exact continues_same _ u rfl rfl

end

section

variable {libs : Libs} {s t : State} {e : Event}

theorem offer_step {env : Env} {d : Datagram} {r : CreateRequest} {cas : Bytes}
    (hlive : Live s.controller.manager) (hoffer : linkOffer libs s.controller d = some (r, cas))
    (hf : r.refused s.controller.manager = false → LinkThreads.Available s.controller.manager env.fresh)
    (hst : step libs s (.datagram env d) = some t) :
    giveCandidates libs (createTransport libs.jingle s.controller.manager r env.fresh).1 r.uid cas =
      some t.controller.manager := by
  obtain ⟨m, hm⟩ : ∃ m, giveCandidates libs (createTransport libs.jingle s.controller.manager r
      env.fresh).1 r.uid cas = some m :=
    RepeatedRequests.giveCandidates_defined (hlive.create hf) r.uid cas
  have hsome := (handlePacket_of_offer env hoffer).trans hm
  obtain ⟨o, ho, hc⟩ | ⟨hnone, _⟩ := datagram_step hst
  · rw [ho, Option.map_some, Option.some.injEq] at hsome
    rw [hc, hsome, hm]
  · rw [hnone] at hsome
    cases hsome

theorem available_of_offer {env : Env} {d : Datagram} {r : CreateRequest} {cas : Bytes}
    (hoffer : linkOffer libs s.controller d = some (r, cas)) (hnew : NewObjects libs s (.datagram env d))
    (href : r.refused s.controller.manager = false) :
    LinkThreads.Available s.controller.manager env.fresh :=
  hnew r (by rw [linkRequest, hoffer, Option.map_some]) href

/-- One event gives the link of a uid the texts that are meant for it, and
nothing else happens to it, unless the event is the request to destroy it. -/
theorem continues_step (hsplit : libs.jingle.Splits) (hlive : Live s.controller.manager)
    (hst : Guarded (NewObjects libs) (Steps (step libs)) s e t) (u : Bytes) :
    Continues libs.jingle u (textsFor libs u s.controller e) s.controller.manager t.controller.manager ∨
      ∃ env d log, e = .datagram env d ∧
        destroyTransport s.controller.manager u = some (t.controller.manager, true, log) := by
  obtain ⟨hnew, hst⟩ := hst
  have hquiet : (∀ env d, e ≠ .datagram env d) →
      Continues libs.jingle u [] s.controller.manager t.controller.manager := by
    intro he
    obtain ⟨taken, msgs, hc⟩ := controllerStep_of_step hst
    exact continues_controller u hc he
  cases e with
  | datagram env d =>
    cases hoffer : linkOffer libs s.controller d with
    | none =>
      rw [textsFor_of_none env hoffer]
      obtain ⟨o, ho, hc⟩ | ⟨_, hc⟩ := datagram_step hst <;> rw [hc]
      · obtain hcont | ⟨log, hlost⟩ := continues_update hlive u hoffer (update_handlePacket ho)
        · exact .inl hcont
        · exact .inr ⟨env, d, log, rfl, hlost⟩
      · exact .inl (continues_same _ u rfl rfl)
    | some offer =>
      have hf := available_of_offer hoffer hnew
      exact .inl (continues_offer hsplit hlive hoffer hf (offer_step hlive hoffer hf hst))
  | _ => exact .inl (hquiet (by simp))

theorem destroyTransport_gone {m m' : Manager} {uid : Bytes} {done : Bool}
    {log : List ConnectionManager.Log} (h : destroyTransport m uid = some (m', done, log)) :
    m'.uidMap uid = none := by
  obtain ⟨hnone, rfl⟩ | ⟨p, _, rfl⟩ := destroyTransport_cases h
  · exact hnone
  · exact PartialMap.erase_self _ _

theorem carried_run {u : Bytes} {es : List Event} {texts texts' : List Bytes} {p : PeerState}
    {tr : Transport} (hsplit : libs.jingle.Splits)
    (hs : Reachable (Guarded (NewObjects libs) (Steps (step libs))) Initial s)
    (hat : Attached s.controller.manager u p tr) (hheld : tr.remoteCandidates = p.candidates)
    (hrun : Run (Watched libs u) (s, texts) es (t, texts')) :
    Reachable (Guarded (NewObjects libs) (Steps (step libs))) Initial t ∧
      ∃ more p' tr', texts' = texts ++ more ∧ Attached t.controller.manager u p' tr' ∧
        Carried libs.jingle more p tr p' tr' := by
  refine run_invariant (P := fun q : State × List Bytes =>
    Reachable (Guarded (NewObjects libs) (Steps (step libs))) Initial q.1 ∧
      ∃ more p' tr', q.2 = texts ++ more ∧ Attached q.1.controller.manager u p' tr' ∧
        Carried libs.jingle more p tr p' tr') ?_ hrun ?_
  · rintro q e q' ⟨hq, more, p', tr', htexts, hat', hcarried⟩ ⟨hst, htexts', hlinked⟩
    have hlive := RepeatedRequests.live_of_reachable hq (running_of_step hst.2)
    obtain hcont | ⟨env, d, log, _, hlost⟩ := continues_step hsplit hlive hst u
    · obtain ⟨p'', tr'', hat'', hcarried'⟩ := hcont p' tr' hat' hcarried.handed
      refine ⟨reachable_step hq hst, _, p'', tr'', ?_, hat'', hcarried.trans hcarried'⟩
      rw [htexts', htexts, List.append_assoc]
    · exact absurd (destroyTransport_gone hlost) hlinked
  · exact ⟨hs, [], p, tr, by simp, hat, .refl hheld⟩

theorem created_step {env : Env} {d : Datagram} {r : CreateRequest} {cas : Bytes}
    (hsplit : libs.jingle.Splits) (hlive : Live s.controller.manager)
    (hoffer : linkOffer libs s.controller d = some (r, cas))
    (href : r.refused s.controller.manager = false)
    (hst : Guarded (NewObjects libs) (Steps (step libs)) s (.datagram env d) t) :
    ∃ tr₀ p tr, (buildTransport libs.jingle s.controller.manager r env.fresh).1.transports
        (buildTransport libs.jingle s.controller.manager r env.fresh).2.transport = some tr₀ ∧
      (buildTransport libs.jingle s.controller.manager r env.fresh).2.candidates = [] ∧
      Attached t.controller.manager r.uid p tr ∧
      Carried libs.jingle [cas] (buildTransport libs.jingle s.controller.manager r env.fresh).2 tr₀
        p tr := by
  obtain ⟨hnew, hst⟩ := hst
  have hf := available_of_offer hoffer hnew
  obtain ⟨tr₀, hat, htr₀, hempty, hnone⟩ := attached_createTransport libs.jingle href env.fresh
  obtain ⟨p, tr, hat', hcarried⟩ :=
    continues_given hsplit (offer_step hlive hoffer hf hst) _ tr₀ hat (hnone.trans hempty.symm)
  exact ⟨tr₀, p, tr, htr₀, hempty, hat', hcarried⟩

end

/-- Between the `CreateTransport` that makes a link and the `DestroyTransport`
that takes it away, which alone can do so, the link and its transport stay as
they were made. Their candidates are those of the first text with a well-formed
token that was given for the link, and once there are some nothing is added. -/
theorem link_written_once (libs : Libs) (hsplit : libs.jingle.Splits) (s₀ s₁ : State) (env : Env)
    (d : Datagram) (r : CreateRequest) (cas : Bytes)
    (hs₀ : Reachable (Guarded (NewObjects libs) (Steps (step libs))) Initial s₀)
    (hoffer : linkOffer libs s₀.controller d = some (r, cas))
    (href : r.refused s₀.controller.manager = false)
    (hst : Guarded (NewObjects libs) (Steps (step libs)) s₀ (.datagram env d) s₁) :
    ∃ p₀ tr₀, (buildTransport libs.jingle s₀.controller.manager r env.fresh).2 = p₀ ∧
      (buildTransport libs.jingle s₀.controller.manager r env.fresh).1.transports p₀.transport = some tr₀ ∧
      ∀ es s texts, Run (Watched libs r.uid) (s₁, [cas]) es (s, texts) →
        (∃ p tr, Attached s.controller.manager r.uid p tr ∧ SameLink p₀ p ∧ SameSetup tr₀ tr ∧
          p.candidates = firstCandidates libs.jingle texts ∧ tr.remoteCandidates = p.candidates ∧
          (p.candidates ≠ [] → ∀ es' s' texts', Run (Watched libs r.uid) (s, texts) es' (s', texts') →
            ∃ p' tr', Attached s'.controller.manager r.uid p' tr' ∧ p'.candidates = p.candidates ∧
              tr'.remoteCandidates = tr.remoteCandidates)) ∧
        ∀ e t, Guarded (NewObjects libs) (Steps (step libs)) s e t →
          (∃ p tr, Attached t.controller.manager r.uid p tr) ∨ ∃ env d log, e = .datagram env d ∧
            destroyTransport s.controller.manager r.uid = some (t.controller.manager, true, log) := by
  have hlive := RepeatedRequests.live_of_reachable hs₀ (running_of_step hst.2)
  obtain ⟨tr₀, p₁, tr₁, htr₀, hempty, hat₁, hcarried₁⟩ := created_step hsplit hlive hoffer href hst
  refine ⟨_, tr₀, rfl, htr₀, ?_⟩
  intro es s texts hrun
  obtain ⟨hs, more, p, tr, rfl, hat, hcarried⟩ :=
    carried_run hsplit (reachable_step hs₀ hst) hat₁ hcarried₁.handed hrun
  have hall := hcarried₁.trans hcarried
  refine ⟨⟨p, tr, hat, hall.link, hall.setup, ?_, hall.handed, ?_⟩, ?_⟩
  · rw [hall.candidates, hempty, afterTexts_nil hsplit]
  · intro hsome es' s' texts' hrun'
    obtain ⟨_, more', p', tr', _, hat', hcarried'⟩ := carried_run hsplit hs hat hcarried.handed hrun'
    have hsame : p'.candidates = p.candidates := by
      rw [hcarried'.candidates, afterTexts_of_ne hsome]
    exact ⟨p', tr', hat', hsame, by rw [hcarried'.handed, hsame, hcarried.handed]⟩
  · intro e t hst'
    have hlive' := RepeatedRequests.live_of_reachable hs (running_of_step hst'.2)
    obtain hcont | hlost := continues_step hsplit hlive' hst' r.uid
    · obtain ⟨p', tr', hat', _⟩ := hcont p tr hat hcarried.handed
      exact .inl ⟨p', tr', hat'⟩
    · exact .inr hlost

def offerText (overlayId cas : Bytes) : Bytes :=
  bytes "\x7b\"m\":\"create_link\",\"uid\":\"b\",\"overlay_id\":" ++ overlayId ++
    bytes ",\"cas\":\"" ++ cas ++ [34, 125]

def offerValue (overlayId : Int) (cas : Bytes) : Json.Value :=
  .object [(bytes "m", .string (bytes "create_link")), (bytes "uid", .string (bytes "b")),
    (bytes "overlay_id", .int overlayId), (bytes "cas", .string cas)]

def offerLibs : Libs := sampleLibs
  [(offerText [49] [], offerValue 1 []), (offerText [50] longToken, offerValue 2 longToken)]

def offerDatagram (overlayId cas : Bytes) : Datagram :=
  datagramOf (kIpopVer :: kTincanControl :: offerText overlayId cas)

def laterEnv : Env := ⟨fun _ => 0, ⟨3, 4, 0⟩, fun _ => []⟩

set_option maxRecDepth 2000 in
theorem offer_runs : ∃ s₁ s₂,
    step offerLibs startState (.datagram sampleEnv (offerDatagram [49] [])) = some s₁ ∧
    step offerLibs s₁ (.datagram laterEnv (offerDatagram [50] longToken)) = some s₂ ∧
    textsFor offerLibs (bytes "b") s₁.controller (.datagram laterEnv (offerDatagram [50] longToken)) =
      [longToken] ∧
    s₂.controller.manager.uidMap (bytes "b") ≠ none ∧
    LinkThreads.Available s₁.controller.manager laterEnv.fresh := by
  refine ⟨_, _, rfl, rfl, rfl, ?_, by decide, rfl, rfl⟩
  exact Option.some_ne_none _

theorem first_longToken : firstCandidates Api.plain [[], longToken] = [described Api.plain longToken] := by
  have htokens : tokens longToken = [longToken] := tokens_token ⟨by decide, by decide +kernel⟩
  have hfound : [[], longToken].find? (fun s => (tokens s).any (fun w => decide (WellFormed w))) =
      some longToken := by
    rw [List.find?_cons_of_neg (by decide), List.find?_cons_of_pos]
    rw [htokens]
    decide
  rw [firstCandidates, hfound, Option.map_some, Option.getD_some, parse_eq plain_splits, candidatesOf,
    htokens]
  rfl

theorem link_written_once_two : ∃ s₁ s₂ p tr,
    step offerLibs startState (.datagram sampleEnv (offerDatagram [49] [])) = some s₁ ∧
    step offerLibs s₁ (.datagram laterEnv (offerDatagram [50] longToken)) = some s₂ ∧
    Attached s₂.controller.manager (bytes "b") p tr ∧ p.overlayId = 1 ∧
    p.candidates = [described Api.plain longToken] ∧ tr.remoteCandidates = p.candidates := by
  obtain ⟨s₁, s₂, h₁, h₂, htexts, hlinked, hfree⟩ := offer_runs
  have hnew₁ : NewObjects offerLibs startState (.datagram sampleEnv (offerDatagram [49] [])) :=
    fun _ _ _ => ⟨by decide, rfl, rfl⟩
  have hrun : Run (Watched offerLibs (bytes "b")) (s₁, [[]])
      [.datagram laterEnv (offerDatagram [50] longToken)] (s₂, [[], longToken]) := by
    refine run_single ⟨⟨fun _ _ _ => hfree, h₂⟩, ?_, hlinked⟩
    rw [htexts]
    rfl
  obtain ⟨p₀, tr₀, hp₀, _, hall⟩ := link_written_once offerLibs plain_splits startState s₁ sampleEnv
    (offerDatagram [49] []) ⟨bytes "b", [], 1, [], [], [], [], false⟩ []
    (reachable_init startState_initial) rfl rfl ⟨hnew₁, h₁⟩
  obtain ⟨⟨p, tr, hat, hlink, _, hcandidates, hhanded, _⟩, _⟩ := hall _ _ _ hrun
  refine ⟨s₁, s₂, p, tr, h₁, h₂, hat, ?_, hcandidates.trans first_longToken, hhanded⟩
  rw [hlink, ← hp₀]
  rfl

end Tincan.WriteOnce
