import Tincan.CandidateExchange

namespace Tincan.CandidateParser

open Tincan.Library Tincan.Library.Text Tincan.Library.Tokens Tincan.Library.Numerals
open Tincan.Libjingle Tincan.ConnectionManager Tincan.CandidateExchange

def parse (L : Api) (s : Bytes) : List Candidate := readCandidates L (IStream.ofBytes s) []

def fieldsOf (w : Bytes) : List Bytes := w.splitOn kCandidateDelim

def field (w : Bytes) (i : Nat) : Bytes := (fieldsOf w).getD i []

def WellFormed (w : Bytes) : Prop := 12 ≤ (fieldsOf w).length

instance (w : Bytes) : Decidable (WellFormed w) := inferInstanceAs (Decidable (12 ≤ (fieldsOf w).length))

def described (L : Api) (w : Bytes) : Candidate where
  id := field w 0
  component := atoi (field w 1)
  protocol := field w 2
  address := L.socketAddress (field w 3) (atoi (field w 4))
  priority := toUInt32 (atoi (field w 5))
  username := field w 6
  password := field w 7
  type := field w 8
  networkName := field w 9
  generation := toUInt32 (atoi (field w 10))
  foundation := field w 11

def candidatesOf (L : Api) (s : Bytes) : List Candidate :=
  ((tokens s).filter (fun w => decide (WellFormed w))).map (described L)

section

variable {L : Api}

theorem decodeCandidate_eq (hsplit : L.Splits) (w : Bytes) :
    decodeCandidate L w = if WellFormed w then some (described L w) else none := by
  unfold decodeCandidate
  rw [hsplit, ← fieldsOf]
  split
  · next hfields =>
    have hlong : WellFormed w := by simp [WellFormed, hfields]
    simp [hlong, described, field, hfields]
  · next hshort =>
    rw [if_neg]
    intro hlong
    have hlength : 12 ≤ (fieldsOf w).length := hlong
    generalize fieldsOf w = fields at hshort hlength
    refine hshort fields[0] fields[1] fields[2] fields[3] fields[4] fields[5] fields[6] fields[7]
      fields[8] fields[9] fields[10] fields[11] (fields.drop 12) ?_
    simp only [List.getElem_cons_drop, List.drop_zero]

theorem filterMap_decodeCandidate (hsplit : L.Splits) (ws : List Bytes) :
    ws.filterMap (decodeCandidate L) =
      (ws.filter (fun w => decide (WellFormed w))).map (described L) := by
  induction ws with
  | nil => rfl
  | cons w ws ih =>
    rw [List.filterMap_cons, decodeCandidate_eq hsplit, ih]
    by_cases hw : WellFormed w <;> simp [hw]

theorem parse_eq (hsplit : L.Splits) (s : Bytes) : parse L s = candidatesOf L s := by
  rw [parse, readCandidates_eq hsplit _ rfl, List.nil_append, filterMap_decodeCandidate hsplit]
  rfl

/-- A candidate is read just if a maximal piece without whitespace describes it. -/
theorem mem_parse_iff (hsplit : L.Splits) {s : Bytes} {c : Candidate} :
    c ∈ parse L s ↔ ∃ before w after, s = before ++ w ++ after ∧ IsToken w ∧ WellFormed w ∧
      (∀ b t, before = t ++ [b] → isSpace b = true) ∧ (∀ b t, after = b :: t → isSpace b = true) ∧
      described L w = c := by
  rw [parse_eq hsplit, candidatesOf, List.mem_map]
  simp only [List.mem_filter, decide_eq_true_eq, mem_tokens_iff]
  constructor
  · rintro ⟨w, ⟨⟨hw, before, after, hs, hbefore, hafter⟩, hlong⟩, hc⟩
    exact ⟨before, w, after, hs, hw, hlong, hbefore, hafter, hc⟩
  · rintro ⟨before, w, after, hs, hw, hlong, hbefore, hafter, hc⟩
    exact ⟨w, ⟨⟨hw, before, after, hs, hbefore, hafter⟩, hlong⟩, hc⟩

theorem createConnections_parse (hsplit : L.Splits) {m : Manager} {uid : Bytes} {p : PeerState}
    {tr : Transport} (hp : m.uidMap uid = some (some p)) (hnone : p.candidates = [])
    (htr : m.transports p.transport = some tr) (s : Bytes) :
    createConnections L m uid s = some ({ m with
      uidMap := m.uidMap.insert uid (some { p with candidates := parse L s })
      transports := m.transports.insert p.transport
        { tr with remoteCandidates := tr.remoteCandidates ++ parse L s } }, true) := by
  have hread : (tokens s).filterMap (decodeCandidate L) = parse L s := by
    rw [filterMap_decodeCandidate hsplit, parse_eq hsplit]
    rfl
  rw [createConnections_eq hsplit hp hnone htr]
  simp only [hread]

theorem candidatesOf_gap {w : Bytes} (hw : IsGap w) (s t : Bytes) :
    candidatesOf L (s ++ w ++ t) = candidatesOf L s ++ candidatesOf L t := by
  rw [candidatesOf, tokens_append_gap hw, List.filter_append, List.map_append]
  rfl

theorem candidatesOf_malformed {w : Bytes} (hw : IsToken w) (hbad : ¬WellFormed w) :
    candidatesOf L w = [] := by
  simp [candidatesOf, tokens_token hw, hbad]

end

/-- `CreateConnections` reads exactly the well-formed tokens: it gives the link
and its transport one candidate for each, in order, and what is read does not
depend on how the tokens are set apart. -/
theorem parser_accepts_tokens {L : Api} (hsplit : L.Splits) :
    (∀ (m : Manager) (uid s : Bytes) (p : PeerState) (tr : Transport), m.uidMap uid = some (some p) →
      p.candidates = [] → m.transports p.transport = some tr →
      createConnections L m uid s = some ({ m with
        uidMap := m.uidMap.insert uid (some { p with candidates := parse L s })
        transports := m.transports.insert p.transport
          { tr with remoteCandidates := tr.remoteCandidates ++ parse L s } }, true)) ∧
    (∀ s, parse L s = candidatesOf L s) ∧
    (∀ s w t, IsGap w → parse L (s ++ w ++ t) = parse L s ++ parse L t) ∧
    (∀ s v w, (∀ b ∈ v ++ w, isSpace b = true) → parse L (v ++ s ++ w) = parse L s) ∧
    (∀ s v w t, IsGap v → IsGap w → parse L (s ++ v ++ t) = parse L (s ++ w ++ t)) ∧
    ∀ s v w v' t, IsGap v → IsGap v' → IsToken w → ¬WellFormed w →
      parse L (s ++ v ++ w ++ v' ++ t) = parse L s ++ parse L t := by
  have hparse := parse_eq hsplit
  refine ⟨?_, hparse, ?_, ?_, ?_, ?_⟩
  · intro m uid s p tr hp hnone htr
    exact createConnections_parse hsplit hp hnone htr s
  · intro s w t hw
    simp only [hparse, candidatesOf_gap hw]
  · intro s v w hvw
    have hv := tokens_spaces_append (fun b hb => hvw b (List.mem_append_left w hb)) (s ++ w)
    have hw := tokens_append_spaces (fun b hb => hvw b (List.mem_append_right v hb)) s
    rw [hparse, hparse, candidatesOf, List.append_assoc, hv, hw]
    rfl
  · intro s v w t hv hw
    simp only [hparse, candidatesOf_gap hv, candidatesOf_gap hw]
  · intro s v w v' t hv hv' hw hbad
    simp only [hparse, candidatesOf_gap hv', candidatesOf_gap hv, candidatesOf_malformed hw hbad,
      List.append_nil]

def longToken : Bytes := bytes "1:1:udp:10.0.0.1:5000:9:u:p:local::0:f:g:h"

theorem parser_accepts_tokens_two :
    parse Api.plain (longToken ++ bytes " \t" ++ bytes "a:b" ++ bytes "\n" ++ longToken) =
      [described Api.plain longToken, described Api.plain longToken] := by
  have hgap := (parser_accepts_tokens plain_splits).2.2.2.2.2 longToken (bytes " \t") (bytes "a:b")
    (bytes "\n") longToken ⟨by decide, by decide +kernel⟩ ⟨by decide, by decide +kernel⟩
    ⟨by decide, by decide +kernel⟩ (by decide +kernel)
  have hlong : candidatesOf Api.plain longToken = [described Api.plain longToken] := by
    rw [candidatesOf, tokens_token ⟨by decide, by decide +kernel⟩]
    rfl
  rw [hgap, (parser_accepts_tokens plain_splits).2.1, hlong]
  rfl

end Tincan.CandidateParser
