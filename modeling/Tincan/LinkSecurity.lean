import Tincan.LinkChanges
import Tincan.Routes
import Tincan.StateReport

namespace Tincan.LinkSecurity

open Tincan.Library Tincan.Library.Text Tincan.Library.Runs Tincan.Libjingle Tincan.Utils
open Tincan.ConnectionManager Tincan.ControllerAccess Tincan.Process Tincan.LinkChanges
open Tincan.StateReport
open Tincan.Routes (uidA uidB)

def label (secure : Bool) : Bytes := if secure then bytes "dtls" else bytes "none"

theorem label_eq_dtls_iff {secure : Bool} : label secure = bytes "dtls" ↔ secure = true := by
  cases secure <;> decide

/-- No fingerprint of a new identity is written as the text that stands for none. -/
def NeverNull (L : Libjingle.Api) : Prop :=
  ∀ uid f, uid.length = kIdSize → L.createFingerprint (L.generateIdentity uid) = some f →
    L.getRfc4572Fingerprint f ≠ kFprNull

structure Labelled (L : Libjingle.Api) (m : Manager) (r : CreateRequest) (p : PeerState) : Prop where
  security : p.connectionSecurity = label (r.secure m)
  remoteFingerprint : p.remoteFingerprint = L.createFromRfc4572 r.fingerprint
  localDescription : ∃ d, p.localDescription = some d ∧ d.fingerprint = m.localFingerprint
  remoteDescription : ∃ d, p.remoteDescription = some d ∧ d.fingerprint = p.remoteFingerprint

theorem labelled_build (L : Libjingle.Api) (m : Manager) (r : CreateRequest)
    (f : ConnectionManager.Fresh) : Labelled L m r (buildTransport L m r f).2 := by
  have hsetup : ∀ p tr, Labelled L m r (setupTransport L m p tr).1 ↔
      p.connectionSecurity = label (r.secure m) ∧
        L.createFromRfc4572 p.fingerprint = L.createFromRfc4572 r.fingerprint := by
    intro p tr
    unfold setupTransport
    dsimp only
    split <;> exact ⟨fun h => ⟨h.security, h.remoteFingerprint⟩,
      fun h => ⟨h.1, h.2, ⟨_, rfl, rfl⟩, ⟨_, rfl, rfl⟩⟩⟩
  refine (hsetup (newPeer L m r f) (newTransport m r f)).mpr ?_
  obtain ⟨_, hp⟩ := LinkThreads.newPeer_eq L m r f
  rw [hp]
  exact ⟨rfl, rfl⟩

/-- Whether there is a local fingerprint can be told from its text, and there
is none before `Setup`. -/
structure Keyed (m : Manager) : Prop where
  blank : m.tincanId = [] → m.localFingerprint = none
  fingerprint : m.fingerprint = kFprNull ↔ m.localFingerprint = none

theorem keyed_setup {L : Libjingle.Api} (hL : NeverNull L) {m : Manager} (h : Keyed m)
    (memory : Nat → Byte) (r : SetupRequest) : Keyed (setup L memory m r).1 := by
  unfold setup
  split
  · exact h
  · next hr =>
    obtain ⟨hid, hlen⟩ := not_or.mp hr
    have hnone : m.tincanId = [] := by simpa using hid
    have hnull : m.fingerprint = kFprNull := h.fingerprint.mpr (h.blank hnone)
    constructor
    · intro hblank
      change r.uid = [] at hblank
      rw [hblank] at hlen
      exact absurd (by decide) hlen
    · dsimp only
      cases hf : L.createFingerprint (L.generateIdentity r.uid) with
      | none => simp [hnull]
      | some f => simpa using hL r.uid f (not_not.mp hlen) hf

theorem Keyed.congr {m m' : Manager} (h : Keyed m) (hi : SameIdentity m m') : Keyed m' := by
  constructor
  · rw [hi.tincanId, hi.localFingerprint]
    exact h.blank
  · rw [hi.fingerprint, hi.localFingerprint]
    exact h.fingerprint

theorem keyed_step {libs : Libs} (hL : NeverNull libs.jingle) {s t : State} {e : Event}
    (h : Keyed s.controller.manager) (hst : step libs s e = some t) : Keyed t.controller.manager := by
  obtain hsame | ⟨_, memory, r, hm⟩ := identity_step (managerStep_of_step hst)
  · exact h.congr hsame
  · rw [hm]
    exact keyed_setup hL h memory r

/-- Every request for a link to `peer` comes after `Setup`, with the peer's
fingerprint and the agreed security. -/
def Informed (libs : Libs) (peer fpr : Bytes) (sec : Bool) (s : State) : Event → Prop
  | .datagram _ d => ∀ r, linkRequest libs s.controller d = some r → r.uid = peer →
      s.controller.manager.tincanId ≠ [] ∧ r.fingerprint = fpr ∧ r.secEnabled = sec
  | _ => True

structure Secured (peer fpr : Bytes) (sec : Bool) (m : Manager) : Prop where
  keyed : Keyed m
  link : ∀ p, m.uidMap peer = some (some p) → m.tincanId ≠ [] ∧
    p.connectionSecurity = label (sec && m.localFingerprint.isSome && fpr != kFprNull)

theorem secured_initial {s : State} (h : Initial s) (peer fpr : Bytes) (sec : Bool) :
    Secured peer fpr sec s.controller.manager := by
  obtain ⟨tiebreaker, kTapName, ip4, mac, logging, xmppState, onMsgCounter, rfl⟩ := h
  refine ⟨⟨fun _ => rfl, iff_of_true rfl rfl⟩, ?_⟩
  intro p hp
  cases hp

theorem secured_step {libs : Libs} (hL : NeverNull libs.jingle) {peer fpr : Bytes} {sec : Bool}
    {s t : State} {e : Event} (h : Secured peer fpr sec s.controller.manager)
    (hst : Guarded (Informed libs peer fpr sec) (Steps (step libs)) s e t) :
    Secured peer fpr sec t.controller.manager := by
  obtain ⟨hg, hst⟩ := hst
  have hm := managerStep_of_step hst
  refine ⟨keyed_step hL h.keyed hst, ?_⟩
  intro p hp
  -- The label was right under the identity that the link was made with.
  have hbefore : s.controller.manager.tincanId ≠ [] ∧ p.connectionSecurity =
      label (sec && s.controller.manager.localFingerprint.isSome && fpr != kFprNull) := by
    obtain ⟨q, hq, hsame⟩ | ⟨env, d, r, rfl, hr, _, hu, hsame⟩ := link_step hm hp
    · rw [hsame]
      exact h.link q hq
    · obtain ⟨hid, hfpr, hsec⟩ := hg r hr hu.symm
      rw [hsame]
      refine ⟨hid, (labelled_build _ _ r _).security.trans ?_⟩
      rw [CreateRequest.secure, hfpr, hsec]
  obtain hsame | ⟨hnone, _⟩ := identity_step hm
  · rw [hsame.tincanId, hsame.localFingerprint]
    exact hbefore
  · exact absurd hnone hbefore.1

theorem secured_of_reachable {libs : Libs} (hL : NeverNull libs.jingle) {peer fpr : Bytes} {sec : Bool}
    {s : State} (h : Reachable (Guarded (Informed libs peer fpr sec) (Steps (step libs))) Initial s) :
    Secured peer fpr sec s.controller.manager := by
  refine reachable_invariant (P := fun s : State => Secured peer fpr sec s.controller.manager) ?_ ?_ h
  · intro s hs
    exact secured_initial hs peer fpr sec
  · intro s e t hs hst
    exact secured_step hL hs hst

/-- The two ends of a link agree on its security: it is used when it is asked
for and both nodes have a fingerprint. -/
theorem ends_choose_same_security (libs libs' : Libs) (hL : NeverNull libs.jingle)
    (hL' : NeverNull libs'.jingle) {here there : State} {a b fpr fpr' : Bytes} {sec : Bool}
    (h : Reachable (Interleaved
      (Guarded (Informed libs b fpr' sec) (Steps (step libs)))
      (Guarded (Informed libs' a fpr sec) (Steps (step libs'))))
      (fun p => Initial p.1 ∧ Initial p.2) (here, there))
    (ha : here.controller.manager.tincanId = a) (hb : there.controller.manager.tincanId = b)
    (hfpr : here.controller.manager.fingerprint = fpr)
    (hfpr' : there.controller.manager.fingerprint = fpr') {p q : PeerState}
    (hp : here.controller.manager.uidMap there.controller.manager.tincanId = some (some p))
    (hq : there.controller.manager.uidMap here.controller.manager.tincanId = some (some q)) :
    p.connectionSecurity = q.connectionSecurity ∧
      (p.connectionSecurity = bytes "dtls" ↔ sec = true ∧
        here.controller.manager.localFingerprint ≠ none ∧
        there.controller.manager.localFingerprint ≠ none) := by
  obtain ⟨hl, hr⟩ := reachable_interleaved h
  have hhere := secured_of_reachable hL hl
  have hthere := secured_of_reachable hL' hr
  have hkey := hhere.keyed.fingerprint
  have hkey' := hthere.keyed.fingerprint
  rw [hfpr] at hkey
  rw [hfpr'] at hkey'
  have hlabel := (hhere.link p (hb ▸ hp)).2
  have hlabel' := (hthere.link q (ha ▸ hq)).2
  have hsome : (fpr != kFprNull) = here.controller.manager.localFingerprint.isSome := by
    rw [Bool.eq_iff_iff, bne_iff_ne, ne_eq, hkey, Option.isSome_iff_ne_none]
  have hsome' : (fpr' != kFprNull) = there.controller.manager.localFingerprint.isSome := by
    rw [Bool.eq_iff_iff, bne_iff_ne, ne_eq, hkey', Option.isSome_iff_ne_none]
  rw [hsome'] at hlabel
  rw [hsome] at hlabel'
  refine ⟨?_, ?_⟩
  · rw [hlabel, hlabel', Bool.and_assoc, Bool.and_assoc, Bool.and_comm (Option.isSome _)]
  · rw [hlabel, label_eq_dtls_iff, Bool.and_eq_true, Bool.and_eq_true, Option.isSome_iff_ne_none,
      Option.isSome_iff_ne_none, and_assoc]

def colonHex (s : Bytes) : Bool :=
  (s.splitOn 58).all (fun f => f.length == 2 && f.all (fun b => (Numerals.hexValue b).isSome))

/-- A library whose fingerprints are short, and read back only as they are written. -/
def shortPrints : Libjingle.Api :=
  { Api.plain with
    getRfc4572Fingerprint f := Numerals.hex (f.digest.take 1)
    createFromRfc4572 s :=
      if colonHex s then some ⟨(Numerals.unhex (s.filter (fun b => b != 58))).getD []⟩ else none }

theorem shortPrints_neverNull : NeverNull shortPrints := by
  intro uid f _ _ he
  have hl := congrArg List.length he
  have hnull : kFprNull.length = 59 := by decide
  have hshort : (shortPrints.getRfc4572Fingerprint f).length ≤ 2 := by
    change (Numerals.hex (f.digest.take 1)).length ≤ 2
    cases f.digest with
    | nil => decide
    | cons b digest => exact le_refl 2
  omega

def setUpText (uid : Bytes) : Bytes :=
  bytes "\x7b\"m\":\"set_local_ip\",\"uid\":\"" ++ uid ++ bytes "\"\x7d"

def setUpValue (uid : Bytes) : Json.Value :=
  .object [(bytes "m", .string (bytes "set_local_ip")), (bytes "uid", .string uid)]

def secureText (uid fpr : Bytes) : Bytes :=
  bytes "\x7b\"m\":\"create_link\",\"sec\":true,\"uid\":\"" ++ uid ++ bytes "\",\"fpr\":\"" ++ fpr ++
    bytes "\"\x7d"

def secureValue (uid fpr : Bytes) : Json.Value :=
  .object [(bytes "m", .string (bytes "create_link")), (bytes "sec", .boolean true),
    (bytes "uid", .string uid), (bytes "fpr", .string fpr)]

def secureLibs : Libs :=
  { sampleLibs [(setUpText uidA, setUpValue uidA), (setUpText uidB, setUpValue uidB),
      (secureText uidB (bytes "62"), secureValue uidB (bytes "62")),
      (secureText uidA (bytes "61"), secureValue uidA (bytes "61")),
      (secureText uidB [], secureValue uidB [])] with jingle := shortPrints }

def request (text : Bytes) : Datagram := datagramOf (kIpopVer :: kTincanControl :: text)

structure LinkedRun (uid peer own fpr : Bytes) (s t : State) (p : PeerState) : Prop where
  first : step secureLibs startState (.datagram sampleEnv (request (setUpText uid))) = some s
  second : step secureLibs s (.datagram sampleEnv (request (secureText peer fpr))) = some t
  nothing : linkRequest secureLibs startState.controller (request (setUpText uid)) = none
  asked : (linkRequest secureLibs s.controller (request (secureText peer fpr))).map
    (fun r => (r.fingerprint, r.secEnabled)) = some (fpr, true)
  early : s.controller.manager.tincanId = uid
  tincanId : t.controller.manager.tincanId = uid
  fingerprint : t.controller.manager.fingerprint = own
  link : t.controller.manager.uidMap peer = some (some p)

set_option maxRecDepth 2000 in
theorem linked_runs : (∃ s t p, LinkedRun uidA uidB (bytes "61") (bytes "62") s t p) ∧
    ∃ s t p, LinkedRun uidB uidA (bytes "62") (bytes "61") s t p :=
  ⟨⟨_, _, _, rfl, rfl, rfl, rfl, rfl, rfl, rfl, rfl⟩, ⟨_, _, _, rfl, rfl, rfl, rfl, rfl, rfl, rfl, rfl⟩⟩

theorem LinkedRun.reachable {uid peer own fpr : Bytes} {s t : State} {p : PeerState}
    (h : LinkedRun uid peer own fpr s t p) (huid : uid ≠ []) :
    Reachable (Guarded (Informed secureLibs peer fpr true) (Steps (step secureLibs))) Initial t := by
  have hfirst : Informed secureLibs peer fpr true startState
      (.datagram sampleEnv (request (setUpText uid))) := by
    intro r hr
    rw [h.nothing] at hr
    cases hr
  have hsecond : Informed secureLibs peer fpr true s
      (.datagram sampleEnv (request (secureText peer fpr))) := by
    intro r hr _
    have hasked := h.asked
    rw [hr] at hasked
    simp only [Option.map_some, Option.some.injEq, Prod.mk.injEq] at hasked
    exact ⟨h.early ▸ huid, hasked.1, hasked.2⟩
  exact reachable_step (reachable_step (reachable_init startState_initial) ⟨hfirst, h.first⟩)
    ⟨hsecond, h.second⟩

theorem ends_choose_same_security_pair :
    ∃ p q : PeerState, p.connectionSecurity = q.connectionSecurity ∧
      ∃ here there : State,
        here.controller.manager.uidMap uidB = some (some p) ∧
        there.controller.manager.uidMap uidA = some (some q) ∧
        (p.connectionSecurity = bytes "dtls" ↔ true = true ∧
          here.controller.manager.localFingerprint ≠ none ∧
          there.controller.manager.localFingerprint ≠ none) := by
  obtain ⟨⟨_, here, p, hp⟩, ⟨_, there, q, hq⟩⟩ := linked_runs
  have hreach := interleaved_of_reachable (hp.reachable (by decide)) (hq.reachable (by decide))
  obtain ⟨hsame, hdtls⟩ := ends_choose_same_security secureLibs secureLibs shortPrints_neverNull
    shortPrints_neverNull hreach hp.tincanId hq.tincanId hp.fingerprint hq.fingerprint
    (hq.tincanId.symm ▸ hp.link) (hp.tincanId.symm ▸ hq.link)
  exact ⟨p, q, hsame, here, there, hp.link, hq.link, hdtls⟩

def Truthful (p : PeerState) : Prop :=
  p.connectionSecurity = bytes "dtls" →
    (∃ d f, p.localDescription = some d ∧ d.fingerprint = some f) ∧
      ∃ d f, p.remoteDescription = some d ∧ d.fingerprint = some f ∧ p.remoteFingerprint = some f

/-- The reader of fingerprints takes pairs of hex digits with colons between them. -/
def ReadsFingerprints (L : Libjingle.Api) : Prop :=
  ∀ s, L.createFromRfc4572 s = none ↔ colonHex s = false

theorem truthful_build_iff {L : Libjingle.Api} (hL : ReadsFingerprints L) (m : Manager)
    (r : CreateRequest) (f : ConnectionManager.Fresh) :
    Truthful (buildTransport L m r f).2 ↔ (r.secure m = true → colonHex r.fingerprint = true) := by
  obtain ⟨hlabel, hremote, ⟨d, hd, hdf⟩, ⟨d', hd', hdf'⟩⟩ := labelled_build L m r f
  have hread : (∃ f, L.createFromRfc4572 r.fingerprint = some f) ↔ colonHex r.fingerprint = true := by
    rw [← Option.isSome_iff_exists, Option.isSome_iff_ne_none, ne_eq, hL, Bool.not_eq_false]
  unfold Truthful
  rw [hlabel, label_eq_dtls_iff]
  constructor
  · intro h hsecure
    obtain ⟨_, _, fp, _, _, hfp⟩ := h hsecure
    exact hread.mp ⟨fp, hremote ▸ hfp⟩
  · intro h hsecure
    have hlocal : m.localFingerprint.isSome := by
      simp only [CreateRequest.secure, Bool.and_eq_true] at hsecure
      exact hsecure.1.2
    obtain ⟨lf, hlf⟩ := Option.isSome_iff_exists.mp hlocal
    obtain ⟨fp, hfp⟩ := hread.mpr (h hsecure)
    have hrf := hremote.trans hfp
    exact ⟨⟨d, lf, hd, hdf.trans hlf⟩, d', fp, hd', hdf'.trans hrf, hrf⟩

/-- Every link that is going to be labelled secure is requested with a
fingerprint that can be read. -/
def ReadableRequests (libs : Libs) (s : State) : Event → Prop
  | .datagram _ d => ∀ r, linkRequest libs s.controller d = some r →
      r.refused s.controller.manager = false → r.secure s.controller.manager = true →
      colonHex r.fingerprint = true
  | _ => True

theorem truthful_of_reachable {libs : Libs} (hL : ReadsFingerprints libs.jingle) {s : State}
    (h : Reachable (Guarded (ReadableRequests libs) (Steps (step libs))) Initial s) {u : Bytes}
    {p : PeerState} (hp : s.controller.manager.uidMap u = some (some p)) : Truthful p := by
  refine reachable_invariant (P := fun s : State =>
    ∀ u p, s.controller.manager.uidMap u = some (some p) → Truthful p) ?_ ?_ h u p hp
  · rintro s ⟨tiebreaker, kTapName, ip4, mac, logging, xmppState, onMsgCounter, rfl⟩ u p hp
    cases hp
  · rintro s e t hs ⟨hg, hst⟩ u p hp
    obtain ⟨q, hq, hsame⟩ | ⟨env, d, r, rfl, hr, href, _, hsame⟩ :=
      link_step (managerStep_of_step hst) hp
    · rw [hsame]
      exact hs u q hq
    · rw [hsame]
      exact (truthful_build_iff hL _ r env.fresh).mpr (hg r hr href)

/-- The reported security is true of every link as long as fingerprints that
matter can be read; for each single link, exactly then. -/
theorem reported_security_truthful (libs : Libs) (hL : ReadsFingerprints libs.jingle) :
    (∀ s, Reachable (Guarded (ReadableRequests libs) (Steps (step libs))) Initial s →
      ∀ u stats now xmppTime getStats fields,
        stateToJson stats now s.controller.manager u xmppTime getStats = some fields →
        (bytes "security", .string (bytes "dtls")) ∈ fields →
        ∃ p, s.controller.manager.uidMap u = some (some p) ∧
          (∃ d f, p.localDescription = some d ∧ d.fingerprint = some f) ∧
          ∃ d f, p.remoteDescription = some d ∧ d.fingerprint = some f ∧ p.remoteFingerprint = some f) ∧
    (∀ s, Reachable (Guarded (ReadableRequests libs) (Steps (step libs))) Initial s →
      ∀ u p, s.controller.manager.uidMap u = some (some p) → Truthful p) ∧
    ∀ m r f, Truthful (buildTransport libs.jingle m r f).2 ↔
      (r.secure m = true → colonHex r.fingerprint = true) := by
  refine ⟨?_, fun s hs u p hp => truthful_of_reachable hL hs hp,
    fun m r f => truthful_build_iff hL m r f⟩
  intro s hs u stats now xmppTime getStats fields hreport hmem
  obtain ⟨p, hp, hlabel⟩ := reported_security hreport hmem
  have hdtls : p.connectionSecurity = bytes "dtls" := (Json.Value.string.inj hlabel).symm
  exact ⟨p, hp, truthful_of_reachable hL hs hp hdtls⟩

theorem shortPrints_readsFingerprints : ReadsFingerprints shortPrints := by
  intro s
  change (if colonHex s then some _ else none) = none ↔ colonHex s = false
  cases colonHex s <;> simp

theorem reported_security_truthful_linked :
    ∃ (s : State) (p : PeerState), s.controller.manager.uidMap uidB = some (some p) ∧ Truthful p := by
  obtain ⟨⟨s, t, p, hrun⟩, _⟩ := linked_runs
  have hfirst : ReadableRequests secureLibs startState
      (.datagram sampleEnv (request (setUpText uidA))) := by
    intro r hr
    rw [hrun.nothing] at hr
    cases hr
  have hsecond : ReadableRequests secureLibs s
      (.datagram sampleEnv (request (secureText uidB (bytes "62")))) := by
    intro r hr _ _
    have hasked := hrun.asked
    rw [hr] at hasked
    simp only [Option.map_some, Option.some.injEq, Prod.mk.injEq] at hasked
    rw [hasked.1]
    decide
  have hreach : Reachable (Guarded (ReadableRequests secureLibs) (Steps (step secureLibs))) Initial t :=
    reachable_step (reachable_step (reachable_init startState_initial) ⟨hfirst, hrun.first⟩)
      ⟨hsecond, hrun.second⟩
  exact ⟨t, p, hrun.link,
    (reported_security_truthful secureLibs shortPrints_readsFingerprints).2.1 t hreach uidB p hrun.link⟩

set_option maxRecDepth 2000 in
/-- A link that was requested with an empty fingerprint is reported as secure,
and the transport is never told whom to expect. -/
theorem unread_fingerprint_reported_secure :
    ReadsFingerprints secureLibs.jingle ∧
    ∃ s p tr fields, Reachable (Steps (step secureLibs)) Initial s ∧
      s.controller.manager.uidMap uidB = some (some p) ∧
      s.controller.manager.transports p.transport = some tr ∧ tr.readable = true ∧ tr.writable = true ∧
      stateToJson (fun _ => []) 0 s.controller.manager uidB 0 false = some fields ∧
      (bytes "security", .string (bytes "dtls")) ∈ fields ∧
      p.connectionSecurity = bytes "dtls" ∧ p.remoteFingerprint = none := by
  have hrun : ∃ s p tr fields, replay (step secureLibs) startState
        [.datagram sampleEnv (request (setUpText uidA)),
          .datagram sampleEnv (request (secureText uidB [])), .linkStatus 1 true true true true] = some s ∧
      s.controller.manager.uidMap uidB = some (some p) ∧
      s.controller.manager.transports p.transport = some tr ∧ tr.readable = true ∧ tr.writable = true ∧
      stateToJson (fun _ => []) 0 s.controller.manager uidB 0 false = some fields ∧
      fields[5]? = some (bytes "security", .string (bytes "dtls")) ∧
      p.connectionSecurity = bytes "dtls" ∧ p.remoteFingerprint = none :=
    ⟨_, _, _, _, rfl, rfl, rfl, rfl, rfl, rfl, rfl, rfl, rfl⟩
  obtain ⟨s, p, tr, fields, hr, hp, htr, hread, hwrite, hreport, hmem, hlabel, hremote⟩ := hrun
  exact ⟨shortPrints_readsFingerprints, s, p, tr, fields,
    ⟨startState, _, startState_initial, run_of_replay hr⟩, hp, htr, hread, hwrite, hreport,
    List.mem_of_getElem? hmem, hlabel, hremote⟩

end Tincan.LinkSecurity
