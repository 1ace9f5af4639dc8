import Tincan.CandidateParser

namespace Tincan.InterfaceNames

open Tincan.Library Tincan.Library.Text Tincan.Library.Tokens Tincan.Library.Numerals
open Tincan.Libjingle Tincan.ConnectionManager Tincan.CandidateExchange Tincan.CandidateParser

/-- The record of a candidate survives: it is one token with twelve fields, and
between any others the peer reads one candidate from it, whose last two values
come from their own fields. -/
structure Survives (L : Api) (c : Candidate) : Prop where
  token : IsToken (encodeCandidate L c)
  fields : (fieldsOf (encodeCandidate L c)).length = 12
  read : ∀ s v w t, IsGap v → IsGap w → ∃ d,
    parse L (s ++ v ++ encodeCandidate L c ++ w ++ t) = parse L s ++ d :: parse L t ∧
      d.generation = c.generation ∧ d.foundation = c.foundation

section

variable {L : Api} {c : Candidate}

theorem twelve_fields_iff :
    (fieldsOf (encodeCandidate L c)).length = 12 ↔ ∀ f ∈ fields L c, kCandidateDelim ∉ f :=
  length_splitOn_intercalate (by simp)

theorem isPlain_iff {fs : List Bytes} : (∀ f ∈ fs, IsPlain f) ↔
    (∀ f ∈ fs, kCandidateDelim ∉ f) ∧ ∀ f ∈ fs, ∀ b ∈ f, isSpace b = false := by
  constructor
  · intro h
    refine ⟨?_, fun f hf b hb => (h f hf b hb).2⟩
    intro f hf hmem
    exact (h f hf _ hmem).1 rfl
  · rintro ⟨hdelim, hspace⟩ f hf b hb
    refine ⟨?_, hspace f hf b hb⟩
    rintro rfl
    exact hdelim f hf hb

theorem fieldsOf_encodeCandidate (h : ∀ f ∈ fields L c, kCandidateDelim ∉ f) :
    fieldsOf (encodeCandidate L c) = fields L c :=
  List.splitOn_intercalate kCandidateDelim h (by simp)

theorem described_encodeCandidate (h : ∀ f ∈ fields L c, kCandidateDelim ∉ f) :
    (described L (encodeCandidate L c)).generation = c.generation ∧
      (described L (encodeCandidate L c)).foundation = c.foundation := by
  have hgeneration : field (encodeCandidate L c) 10 = decimal c.generation := by
    rw [field, fieldsOf_encodeCandidate h]
    rfl
  have hfoundation : field (encodeCandidate L c) 11 = c.foundation := by
    rw [field, fieldsOf_encodeCandidate h]
    rfl
  constructor
  · simp only [described, hgeneration, toUInt32_atoi_decimal]
  · simp only [described, hfoundation]

theorem parse_token (hsplit : L.Splits) {w : Bytes} (hw : IsToken w) (hgood : WellFormed w) :
    parse L w = [described L w] := by
  simp [parse_eq hsplit, candidatesOf, tokens_token hw, hgood]

theorem survives_iff (hsplit : L.Splits) (h : TextsPlain c) :
    Survives L c ↔ IsPlain (cutAt 32 c.networkName) ∧ IsPlain (L.ipToString c.address.ip) := by
  rw [← isPlain_fields_iff h, isPlain_iff]
  constructor
  · intro hs
    exact ⟨twelve_fields_iff.mp hs.fields, isToken_encodeCandidate_iff.mp hs.token⟩
  · rintro ⟨hdelim, hspace⟩
    have htoken : IsToken (encodeCandidate L c) := isToken_encodeCandidate_iff.mpr hspace
    have htwelve := twelve_fields_iff.mpr hdelim
    refine ⟨htoken, htwelve, ?_⟩
    intro s v w t hv hw
    refine ⟨_, ?_, described_encodeCandidate hdelim⟩
    have hone := parse_token hsplit htoken htwelve.ge
    rw [parse_eq hsplit] at hone
    simp only [parse_eq hsplit, candidatesOf_gap hw, candidatesOf_gap hv, hone]
    simp

end

/-- A candidate whose other texts are plain survives just if its network name is
plain up to the first space, and so is the text of its address. On an interface
that is not the tap it is advertised either way. -/
theorem survives_iff_plain_name {L : Api} (hsplit : L.Splits) {c : Candidate} (h : TextsPlain c) :
    (∀ (m : Manager) t uid p, m.transportMap t = some uid → m.uidMap uid = some (some p) →
      c.networkName ≠ m.tapName → ∀ candidates, c ∈ candidates →
        ∃ q, (onCandidatesReady L m t candidates).manager.uidMap uid = some (some q) ∧
          encodeCandidate L c ∈ q.candidateList) ∧
    (Survives L c ↔ IsPlain (cutAt 32 c.networkName) ∧ IsPlain (L.ipToString c.address.ip)) := by
  refine ⟨?_, survives_iff hsplit h⟩
  intro m t uid p ht hp hname candidates hc
  rw [onCandidatesReady_eq ht hp]
  refine ⟨_, PartialMap.insert_self _ _ _, ?_⟩
  refine Finset.mem_union_right _ (List.mem_toFinset.mpr (List.mem_map_of_mem ?_))
  simp [advertised, hc, hname]

theorem textsPlain_udpCandidate (networkName : Bytes) (port : Fin 65536) :
    TextsPlain (udpCandidate networkName port) :=
  ⟨isPlain_of_all rfl, isPlain_of_all rfl, isPlain_of_all rfl, isPlain_of_all rfl, isPlain_of_all rfl,
    isPlain_of_all rfl⟩

theorem survives_iff_plain_name_udp : Survives Api.plain (udpCandidate (bytes "eth0 main") 5000) :=
  ((survives_iff_plain_name plain_splits (textsPlain_udpCandidate _ _)).2).mpr
    ⟨isPlain_of_all rfl, isPlain_dotted plain_readsDotted _⟩

/-- The alias of an interface shifts the last two fields, and a tab in its name
breaks the record in two that are too short. -/
theorem alias_corrupts :
    let aliased := encodeCandidate Api.plain (udpCandidate (bytes "eth0:1") 5000)
    let broken := encodeCandidate Api.plain (udpCandidate (bytes "Local\tArea") 5000)
    ¬Survives Api.plain (udpCandidate (bytes "eth0:1") 5000) ∧ (fieldsOf aliased).length = 13 ∧
      (parse Api.plain aliased).map (fun d => (d.networkName, d.generation, d.foundation)) =
        [(bytes "eth0", 1, bytes "0")] ∧
      ¬Survives Api.plain (udpCandidate (bytes "Local\tArea") 5000) ∧ parse Api.plain broken = [] := by
  have hname : ∀ name, ¬IsPlain (cutAt 32 name) → ¬Survives Api.plain (udpCandidate name 5000) := by
    intro name hbad hs
    exact hbad ((survives_iff plain_splits (textsPlain_udpCandidate name 5000)).mp hs).1
  refine ⟨hname _ ?_, rfl, ?_, hname _ ?_, ?_⟩
  · intro hp
    exact absurd rfl (hp 58 (by decide +kernel)).1
  · rw [parse_eq plain_splits]
    decide +kernel
  · intro hp
    exact absurd (hp 9 (by decide +kernel)).2 (by decide)
  · rw [parse_eq plain_splits]
    decide +kernel

end Tincan.InterfaceNames
