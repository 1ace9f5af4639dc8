import Tincan.Signalling

namespace Tincan.PeerStanzas

open Tincan.Library Tincan.Library.Text Tincan.Library.Runs Tincan.Utils Tincan.Xmpp
open Tincan.XmppNetwork Tincan.ControllerAccess Tincan.Process Tincan.Signalling
open Tincan.Routes (uidA uidB)

/-- A stanza that is first in the queue is handled safely: no missing element is
used, and what another node sent is handed over, an empty text for each child
that is missing. -/
structure HandledSafely (X : Xmpp.Api) (n : Network) (stanza : Stanza) (now : Fin (2 ^ 32)) : Prop where
  starts : (n.processStart X now).isSome
  handed : FromNode X stanza → X.jid stanza.sender ≠ n.me → ∀ q, stanza.query = some q →
    ∃ n', n.processStart X now =
      some (n', some (getKey stanza.sender, q.data.getD [], q.type.getD []))

/-- With a data child there is a type child, and without one there is none or
an empty one. -/
def Together : Query → Prop
  | ⟨some _, type⟩ => type.isSome
  | ⟨none, type⟩ => type.getD [] = []

def ChildrenTogether (X : Xmpp.Api) (me : Jid) (stanza : Stanza) : Prop :=
  FromNode X stanza → X.jid stanza.sender ≠ me → ∀ q, stanza.query = some q → Together q

def SentTogether (X : Xmpp.Api) (_ : Process.State) : Event → Prop
  | .stanza stanza => FromNode X stanza → ∀ q, stanza.query = some q → Together q
  | _ => True

section

variable {X : Xmpp.Api} {n : Network} {stanza : Stanza} {number : Nat} {waiting : List Stanza}
  (now : Fin (2 ^ 32))

theorem handleStanza_queues (hq : queues X stanza = true) (ht : n.tincanTask = some ⟨number, waiting⟩) :
    (n.handleStanza X stanza).tincanTask = some ⟨number, waiting ++ [stanza]⟩ := by
  simp [Network.handleStanza, hq, ht]

theorem processStanza_query {me : Jid} {q : Query} (gUidMap : PartialMap Bytes Bytes)
    (ha : accepts X me stanza = true) (hq : stanza.query = some q) :
    processStanza X me gUidMap stanza =
      if q.data.isSome ∧ q.type = none then none
      else some (gUidMap.insert (getKey stanza.sender) stanza.sender,
        some (.doHandlePeer (getKey stanza.sender) (q.data.getD [])
          (if q.data.isSome then q.type.getD [] else []))) := by
  obtain ⟨data, type⟩ := q
  rw [processStanza, if_pos ha]
  simp only [hq]
  cases data <;> cases type <;> rfl

theorem processStanza_isSome {me : Jid} (gUidMap : PartialMap Bytes Bytes)
    (h : accepts X me stanza = true → stanza.query = none) :
    (processStanza X me gUidMap stanza).isSome := by
  unfold processStanza
  split
  · next ha =>
    simp only [h ha]
    rfl
  · rfl

theorem processStart_first (ht : n.tincanTask = some ⟨number, stanza :: waiting⟩) :
    (n.processStart X now).map Prod.snd = (processStanza X n.me n.gUidMap stanza).map (fun result =>
      match result.2 with
      | some (.doHandlePeer uid data type) => some (uid, data, type)
      | _ => none) := by
  unfold Network.processStart
  simp only [ht, Option.map_map]
  change Option.map _ (processStanza X n.me n.gUidMap stanza) = _
  congr 1
  funext ⟨gUidMap, call⟩
  obtain _ | ⟨uid, data, type⟩ | uid := call <;> rfl

theorem processStart_query {q : Query} (ht : n.tincanTask = some ⟨number, stanza :: waiting⟩)
    (ha : accepts X n.me stanza = true) (hq : stanza.query = some q) :
    (n.processStart X now).map Prod.snd =
      if q.data.isSome ∧ q.type = none then none
      else some (some (getKey stanza.sender, q.data.getD [],
        if q.data.isSome then q.type.getD [] else [])) := by
  rw [processStart_first now ht, processStanza_query _ ha hq]
  split <;> rfl

theorem handed_iff_together {q : Query} (ht : n.tincanTask = some ⟨number, stanza :: waiting⟩)
    (ha : accepts X n.me stanza = true) (hq : stanza.query = some q) :
    (n.processStart X now).map Prod.snd =
      some (some (getKey stanza.sender, q.data.getD [], q.type.getD [])) ↔ Together q := by
  rw [processStart_query now ht ha hq]
  obtain ⟨data, type⟩ := q
  cases data with
  | none =>
    simp only [Together, Option.isSome_none, Bool.false_eq_true, false_and, if_false, Option.getD_none,
      Option.some.injEq, Prod.mk.injEq, true_and]
    exact eq_comm
  | some data => cases type <;> simp [Together]

theorem handledSafely_iff (ht : n.tincanTask = some ⟨number, stanza :: waiting⟩) :
    HandledSafely X n stanza now ↔ ChildrenTogether X n.me stanza := by
  constructor
  · intro h hf hme q hq
    obtain ⟨n', hn'⟩ := h.handed hf hme q hq
    refine (handed_iff_together now ht (accepts_iff.mpr ⟨hf, hme⟩) hq).mp ?_
    rw [hn']
    rfl
  · intro h
    have hquery : ∀ q, accepts X n.me stanza = true → stanza.query = some q →
        ∃ n', n.processStart X now =
          some (n', some (getKey stanza.sender, q.data.getD [], q.type.getD [])) := by
      intro q ha hq
      have htogether := h (accepts_iff.mp ha).1 (accepts_iff.mp ha).2 q hq
      have hhanded := (handed_iff_together now ht ha hq).mpr htogether
      obtain ⟨⟨n', call⟩, hn', rfl⟩ := Option.map_eq_some_iff.mp hhanded
      exact ⟨n', hn'⟩
    refine ⟨?_, fun hf hme q hq => hquery q (accepts_iff.mpr ⟨hf, hme⟩) hq⟩
    by_cases hplain : accepts X n.me stanza = true → stanza.query = none
    · have hsome := processStanza_isSome n.gUidMap hplain
      rwa [← Option.isSome_map, ← processStart_first now ht, Option.isSome_map] at hsome
    · simp only [Classical.not_imp] at hplain
      obtain ⟨q, hq⟩ := Option.ne_none_iff_exists'.mp hplain.2
      obtain ⟨n', hn'⟩ := hquery q hplain.1 hq
      rw [hn']
      rfl

theorem waiting_together {libs : Libs} {s : Process.State}
    (h : Reachable (Guarded (SentTogether libs.xmpp) (Steps (step libs))) Initial s) :
    ∀ task, s.controller.network.tincanTask = some task → ∀ stanza ∈ task.stanzas,
      FromNode libs.xmpp stanza → ∀ q, stanza.query = some q → Together q := by
  refine reachable_invariant (P := fun s => ∀ task, s.controller.network.tincanTask = some task →
    ∀ stanza ∈ task.stanzas, FromNode libs.xmpp stanza → ∀ q, stanza.query = some q → Together q) ?_ ?_ h
  · rintro s ⟨_, _, _, _, _, _, _, rfl⟩ task htask
    cases htask
  · rintro s e t hs ⟨hg, hst⟩
    obtain ⟨taken, _, hnet⟩ := networkStep_of_step hst
    refine hnet.waiting ?_ hs
    rintro stanza rfl _
    exact hg

end

/-- `ProcessStart` handles a stanza that `HandleStanza` has queued safely just if
its children come together, so in a run that gets only such stanzas it handles
every one of them safely. -/
theorem handled_safely_iff_together (X : Xmpp.Api) (stanza : Stanza) (hq : queues X stanza = true) :
    (∀ (n : Network) number waiting, n.tincanTask = some ⟨number, waiting⟩ →
      (n.handleStanza X stanza).tincanTask = some ⟨number, waiting ++ [stanza]⟩) ∧
    (∀ (n : Network) number waiting now, n.tincanTask = some ⟨number, stanza :: waiting⟩ →
      (HandledSafely X n stanza now ↔ ChildrenTogether X n.me stanza)) ∧
    ∀ libs : Libs, libs.xmpp = X → ∀ s,
      Reachable (Guarded (SentTogether X) (Steps (step libs))) Initial s → ∀ number waiting now,
        s.controller.network.tincanTask = some ⟨number, stanza :: waiting⟩ →
        HandledSafely X s.controller.network stanza now := by
  refine ⟨fun n number waiting ht => handleStanza_queues hq ht,
    fun n number waiting now ht => handledSafely_iff now ht, ?_⟩
  rintro libs rfl s hs number waiting now ht
  refine (handledSafely_iff now ht).mpr ?_
  intro hf _
  exact waiting_together hs _ ht stanza List.mem_cons_self hf

def dataOnlyStanza : Stanza := ⟨.iq, strGet, jidA.full, some ⟨some (bytes "d"), none⟩⟩

def typeOnlyStanza : Stanza := ⟨.iq, strGet, jidA.full, some ⟨none, some (bytes "t")⟩⟩

theorem handled_safely_iff_together_request : ∃ r : Process.State,
    HandledSafely Api.plain r.controller.network connectStanza 0 := by
  obtain ⟨r, hr, _, _, htask, _⟩ := receiver_run
  refine ⟨r, ((handled_safely_iff_together Api.plain connectStanza (by decide)).2.1 _ _ _ 0 htask).mpr ?_⟩
  intro _ _ q hq
  cases hq
  rfl

theorem unsafe_of_not_together {n : Network} {number : Nat} {stanza : Stanza} {waiting : List Stanza}
    {q : Query} {now : Fin (2 ^ 32)} (ht : n.tincanTask = some ⟨number, stanza :: waiting⟩)
    (ha : accepts Api.plain n.me stanza = true) (hq : stanza.query = some q) (hnot : ¬Together q) :
    ¬HandledSafely Api.plain n stanza now := by
  intro h
  obtain ⟨hf, hme⟩ := accepts_iff.mp ha
  exact hnot ((handledSafely_iff now ht).mp h hf hme q hq)

theorem missing_child_mishandled : ∃ r₁ r₂ r₃ : Process.State,
    replay (step pairLibs) startState
      (loginEvents uidB jidB ++ onlineEvents jidB jidA ++ [.stanza dataOnlyStanza]) = some r₁ ∧
    ¬HandledSafely Api.plain r₁.controller.network dataOnlyStanza 0 ∧
    step pairLibs r₁ (.processStart sampleEnv) = some r₂ ∧ r₂.crashed = true ∧
    replay (step pairLibs) startState
      (loginEvents uidB jidB ++ onlineEvents jidB jidA ++ [.stanza typeOnlyStanza]) = some r₃ ∧
    ¬HandledSafely Api.plain r₃.controller.network typeOnlyStanza 0 := by
  refine ⟨_, _, _, rfl, unsafe_of_not_together rfl rfl rfl ?_, rfl, rfl, rfl,
    unsafe_of_not_together rfl rfl rfl ?_⟩
  · simp [Together]
  · change ¬bytes "t" = []
    decide

end Tincan.PeerStanzas
