import Tincan.Emissions
import Tincan.PeerStanzas
import Mathlib.Logic.Function.Basic

namespace Tincan.Exchange

open Tincan.Library Tincan.Library.Text Tincan.Library.Runs Tincan.Libjingle Tincan.Utils
open Tincan.ConnectionManager Tincan.XmppNetwork Tincan.ControllerAccess Tincan.Process
open Tincan.Emissions

def Requested (s : State) (recipient : Xmpp.Jid) (data type : Bytes) : Prop :=
  Effect.stanza (.iq Xmpp.strGet recipient ⟨some data, some type⟩) ∈ s.sent

section

variable {ι : Type*}

def Starts (s : ι → State) : Prop := ∀ i, Initial (s i)

/-- A node takes a step, whatever that brings in from the network. -/
inductive Turn [DecidableEq ι] (libs : ι → Libs) (s : ι → State) : ι × Event → (ι → State) → Prop
  | mk {i : ι} {e : Event} {t : State} (hst : step (libs i) (s i) e = some t) :
      Turn libs s (i, e) (Function.update s i t)

/-- The server delivers presence, and requests that nodes have sent, at any time
and any number of times. It writes the name of the sender on them. -/
def Serves (names : ι → Bytes → Prop) (s : ι → State) : ι × Event → Prop
  | (_, .stanza stanza) => stanza.query = none ∨ ∃ k recipient query, names k stanza.sender ∧
      Effect.stanza (.iq stanza.type recipient query) ∈ (s k).sent ∧ stanza.query = some query
  | _ => True

def Carries (names : ι → Bytes → Prop) (s : ι → State) (stanza : Xmpp.Stanza) : Prop :=
  stanza.query = none ∨ ∃ k recipient data type, names k stanza.sender ∧
    Requested (s k) recipient data type ∧ stanza.query = some ⟨some data, some type⟩

structure Faithful (names : ι → Bytes → Prop) (s : ι → State) : Prop where
  whole : ∀ i x, Effect.stanza x ∈ (s i).sent → Whole x
  waiting : ∀ i task, (s i).controller.network.tincanTask = some task →
    ∀ stanza ∈ task.stanzas, Carries names s stanza

theorem Carries.mono {names : ι → Bytes → Prop} {s t : ι → State} {stanza : Xmpp.Stanza}
    (h : Carries names s stanza) (hsent : ∀ k, (s k).sent ⊆ (t k).sent) :
    Carries names t stanza := by
  obtain hq | ⟨k, recipient, data, type, hname, hreq, hq⟩ := h
  · exact .inl hq
  · exact .inr ⟨k, recipient, data, type, hname, hsent k hreq, hq⟩

end

section

variable {libs : Libs} {s t : State} {e : Event}

theorem whole_step (hst : step libs s e = some t) (h : ∀ x, Effect.stanza x ∈ s.sent → Whole x) :
    s.sent ⊆ t.sent ∧ ∀ x, Effect.stanza x ∈ t.sent → Whole x := by
  obtain ⟨new, hnew, hemits⟩ := emits_of_step hst
  rw [hnew]
  refine ⟨List.subset_append_left _ _, fun x hx => ?_⟩
  obtain hx | hx := List.mem_append.mp hx
  · exact h x hx
  · generalize hy : Effect.stanza x = y at hx
    cases hemits y hx with
    | stanza _ hw =>
      cases hy
      exact hw
    | reply ht | notice ht =>
      obtain ⟨_, _, _, rfl⟩ := ht
      cases hy
    | tap | handled => cases hy

end

section

variable {ι : Type*} [DecidableEq ι] {libs : ι → Libs} {names : ι → Bytes → Prop}

omit [DecidableEq ι] in
theorem faithful_initial {s : ι → State} (h : Starts s) : Faithful names s := by
  constructor
  · intro i x hx
    obtain ⟨_, _, _, _, _, _, _, hi⟩ := h i
    rw [hi] at hx
    cases hx
  · intro i task ht
    obtain ⟨_, _, _, _, _, _, _, hi⟩ := h i
    rw [hi] at ht
    cases ht

omit [DecidableEq ι] in
theorem Faithful.delivered {s : ι → State} {i : ι} {stanza : Xmpp.Stanza} (h : Faithful names s)
    (hs : Serves names s (i, .stanza stanza)) : Carries names s stanza := by
  obtain hq | ⟨k, recipient, query, hname, hsent, hq⟩ := hs
  · exact .inl hq
  · obtain ⟨htype, data, type, rfl⟩ := h.whole k _ hsent
    rw [htype] at hsent
    exact .inr ⟨k, recipient, data, type, hname, hsent, hq⟩

theorem faithful_step {s t : ι → State} {e : ι × Event} (h : Faithful names s)
    (hst : Guarded (Serves names) (Turn libs) s e t) : Faithful names t := by
  obtain ⟨hserves, hst⟩ := hst
  cases hst with
  | @mk i e u hst =>
    obtain ⟨hsubset, hwhole⟩ := whole_step hst (h.whole i)
    have hsent : ∀ k, (s k).sent ⊆ (Function.update s i u k).sent := by
      intro k
      obtain rfl | hk := eq_or_ne k i
      · rwa [Function.update_self]
      · rw [Function.update_of_ne hk]
        exact List.Subset.refl _
    constructor
    · intro k x hx
      obtain rfl | hk := eq_or_ne k i
      · rw [Function.update_self] at hx
        exact hwhole x hx
      · rw [Function.update_of_ne hk] at hx
        exact h.whole k x hx
    · intro k task ht stanza hmem
      obtain rfl | hk := eq_or_ne k i
      · rw [Function.update_self] at ht
        obtain ⟨taken, _, hnetwork⟩ := networkStep_of_step hst
        refine hnetwork.waiting ?_ ?_ task ht stanza hmem
        · rintro stanza rfl _
          exact (h.delivered hserves).mono hsent
        · intro task ht stanza hmem
          exact (h.waiting k task ht stanza hmem).mono hsent
      · rw [Function.update_of_ne hk] at ht
        exact (h.waiting k task ht stanza hmem).mono hsent

omit [DecidableEq ι] in
theorem processStart_carried {s : ι → State} {X : Xmpp.Api} {n : Network} (now : Fin (2 ^ 32))
    (h : ∀ task, n.tincanTask = some task → ∀ stanza ∈ task.stanzas, Carries names s stanza) :
    ∃ call, (n.processStart X now).map Prod.snd = some call ∧
      ∀ uid data type, call = some (uid, data, type) → ∃ k sender recipient, names k sender ∧
        uid = getKey sender ∧ Requested (s k) recipient data type := by
  cases ht : n.tincanTask with
  | none => exact ⟨none, by simp [Network.processStart, ht], by simp⟩
  | some task =>
    obtain ⟨number, stanzas⟩ := task
    cases stanzas with
    | nil => exact ⟨none, by simp [Network.processStart, ht], by simp⟩
    | cons stanza waiting =>
      by_cases ha : accepts X n.me stanza = true
      · obtain hq | ⟨k, recipient, data, type, hname, hreq, hq⟩ := h _ ht stanza (List.mem_cons_self ..)
        · refine ⟨none, ?_, by simp⟩
          rw [PeerStanzas.processStart_first now ht, processStanza, if_pos ha]
          simp only [hq, Option.map_some]
        · refine ⟨_, PeerStanzas.processStart_query now ht ha hq, ?_⟩
          intro uid data' type' hcall
          cases hcall
          exact ⟨k, stanza.sender, recipient, hname, rfl, hreq⟩
      · refine ⟨none, ?_, by simp⟩
        rw [PeerStanzas.processStart_first now ht, processStanza, if_neg ha]
        rfl

/-- Among nodes that run this program, whatever the server does with their
requests, signalling arrives as it was sent: no node ends over an incomplete
request, and each pair of texts that a node takes from another was sent by the
node whose name the server has put on it. -/
theorem signalling_crosses_unaltered {s : ι → State}
    (h : Reachable (Guarded (Serves names) (Turn libs)) Starts s) (i : ι) (now : Fin (2 ^ 32)) :
    ∃ call, ((s i).controller.network.processStart (libs i).xmpp now).map Prod.snd = some call ∧
      ∀ uid data type, call = some (uid, data, type) → ∃ k sender recipient, names k sender ∧
        uid = getKey sender ∧ Requested (s k) recipient data type := by
  have hs : Faithful names s := by
    refine reachable_invariant ?_ ?_ h
    · exact fun s hs => faithful_initial hs
    · exact fun s e t hs hst => faithful_step hs hst
  exact processStart_carried now (hs.waiting i)

def alone : Event → Bool
  | .stanza stanza => stanza.query.isNone
  | _ => true

omit [DecidableEq ι] in
theorem serves_alone {e : Event} (h : alone e = true) (s : ι → State) (i : ι) : Serves names s (i, e) := by
  cases e with
  | stanza stanza => exact .inl (Option.isNone_iff_eq_none.mp h)
  | _ => trivial

theorem reachable_alone {s : ι → State} {i : ι} {es : List Event} {t : State}
    (h : Reachable (Guarded (Serves names) (Turn libs)) Starts s)
    (hr : replay (step (libs i)) (s i) es = some t) (hes : es.all alone = true) :
    ∃ u, Reachable (Guarded (Serves names) (Turn libs)) Starts u ∧ u i = t ∧ ∀ j ≠ i, u j = s j := by
  replace hr := run_of_replay hr
  rw [List.all_eq_true] at hes
  generalize hp : s i = p at hr
  induction hr with
  | nil => exact ⟨s, h, hp, fun _ _ => rfl⟩
  | @snoc r u es e _ hst ih =>
    obtain ⟨v, hv, hvi, hvj⟩ := ih fun e he => hes e (List.mem_append_left _ he)
    have hserves : Serves names v (i, e) := serves_alone (hes e (by simp)) v i
    rw [← hvi] at hst
    refine ⟨_, reachable_step hv ⟨hserves, .mk hst⟩, Function.update_self .., fun j hj => ?_⟩
    exact (Function.update_of_ne hj ..).trans (hvj j hj)

end

open Tincan.Signalling
open Tincan.Routes (uidA uidB)

def relayRequest : List (Bytes × Bytes) := [(bytes "m", bytes "t"), (bytes "uid", uidB), (bytes "data", bytes "d")]

def exchangeLibs : Libs := sampleLibs
  ([setupRequest uidA, setupRequest uidB, loginRequest jidA.bare, loginRequest jidB.bare, relayRequest].map
    (fun fields => (requestText fields, requestValue fields)))

def fullNames (k : Bool) (sender : Bytes) : Prop := sender = (if k then jidA else jidB).full

def senderEvents : List Event :=
  loginEvents uidA jidA ++ onlineEvents jidA jidB ++ [requestDatagram relayRequest]

def receiverEvents : List Event := loginEvents uidB jidB ++ onlineEvents jidB jidA

theorem signalling_crosses_unaltered_relayed : ∃ s : Bool → State,
    ((s false).controller.network.processStart exchangeLibs.xmpp 0).map Prod.snd =
      some (some (uidA, bytes "d", bytes "t")) ∧
    ∃ k sender recipient, fullNames k sender ∧ uidA = getKey sender ∧
      Requested (s k) recipient (bytes "d") (bytes "t") := by
  obtain ⟨a, b, b', ha, hb, hsent, hst, hstart⟩ : ∃ a b b',
      replay (step exchangeLibs) startState senderEvents = some a ∧
      replay (step exchangeLibs) startState receiverEvents = some b ∧
      a.sent.contains (.stanza (.iq Xmpp.strGet jidB ⟨some (bytes "d"), some (bytes "t")⟩)) = true ∧
      step exchangeLibs b (.stanza connectStanza) = some b' ∧
      (b'.controller.network.processStart exchangeLibs.xmpp 0).map Prod.snd =
        some (some (uidA, bytes "d", bytes "t")) :=
    ⟨_, _, _, rfl, rfl, rfl, rfl, rfl⟩
  have h₀ : Reachable (Guarded (Serves fullNames) (Turn fun _ => exchangeLibs)) Starts
      (fun _ => startState) := reachable_init fun _ => startState_initial
  obtain ⟨u, hu, hua, hub⟩ := reachable_alone (i := true) h₀ ha rfl
  have hb' : replay (step exchangeLibs) (u false) receiverEvents = some b := by
    rw [hub false (by decide)]
    exact hb
  obtain ⟨v, hv, hvb, hva⟩ := reachable_alone (i := false) hu hb' rfl
  have hrequested : Requested (v true) jidB (bytes "d") (bytes "t") := by
    rw [Requested, hva true (by decide), hua]
    exact List.contains_iff_mem.mp hsent
  rw [← hvb] at hst
  have hserves : Serves fullNames v (false, .stanza connectStanza) :=
    Or.inr ⟨true, jidB, _, rfl, hrequested, rfl⟩
  have hw := reachable_step hv ⟨hserves, .mk hst⟩
  obtain ⟨call, hcall, hfrom⟩ := signalling_crosses_unaltered hw false 0
  exact ⟨_, hstart, hfrom uidA (bytes "d") (bytes "t") (Option.some.inj (hcall.symm.trans hstart))⟩

end Tincan.Exchange
