import Tincan.Attribution

namespace Tincan.UnknownTransports

open Tincan.Library Tincan.Library.Text Tincan.Library.PartialMap
open Tincan.Libjingle Tincan.Utils Tincan.ConnectionManager Tincan.ControllerAccess Tincan.Process
open Tincan.LinkChanges Tincan.Attribution

/-- An event that nobody notices. -/
structure Ignored (m : Manager) (o : ConnectionManager.Outcome) : Prop where
  sent : o.sent = []
  fault : o.fault = false
  uidMap : o.manager.uidMap = m.uidMap
  transportMap : o.manager.transportMap = m.transportMap

section

variable {L : Libjingle.Api} {m : Manager} {t : Ptr}

theorem index_unknown (h : m.transportMap t = none) :
    m.transportMap.index t [] = ([], m.transportMap.insert t []) := by
  simp [PartialMap.index, h]

theorem handle_transportMap (h : m.transportMap t = none) (n : Notification) :
    (handle L m t n).manager.transportMap = m.transportMap.insert t [] := by
  have hindex := index_unknown h
  cases n with
  | candidatesReady candidates =>
    obtain ⟨_, hm⟩ | ⟨p, _, _, hm⟩ := onCandidatesReady_cases L m t candidates <;>
      rw [handle, hm] <;> simp [hindex]
  | candidatesAllocationDone =>
    rw [handle, onCandidatesAllocationDone_manager]
    simp [hindex]
  | rwChangeState =>
    obtain hm | ⟨hm, _⟩ := onRWChangeState_cases m t <;> rw [handle, hm] <;> simp [hindex]

theorem not_ignored (h : m.transportMap t = none) (n : Notification) : ¬ Ignored m (handle L m t n) := by
  intro hi
  have hmap := (handle_transportMap (L := L) h n).symm.trans hi.transportMap
  have hself := congrFun hmap t
  rw [insert_self, h] at hself
  cases hself

theorem knownAs_unknown (h : m.transportMap t = none) : knownAs m t = [] := by
  rw [knownAs, index_unknown h]

theorem candidatesReady_fault_iff (h : m.transportMap t = none) (candidates : List Candidate) :
    (handle L m t (.candidatesReady candidates)).fault = true ↔ ¬ ∃ p, m.uidMap [] = some (some p) := by
  have hknown := knownAs_unknown h
  obtain ⟨hf, hm⟩ | ⟨p, hp, hf, _⟩ := onCandidatesReady_cases L m t candidates
  · refine iff_of_true hf ?_
    rintro ⟨p, hp⟩
    have hindex := index_of_mem none hp
    simp [onCandidatesReady, index_unknown h, hindex] at hf
  · rw [hknown] at hp
    exact iff_of_false (by simp [handle, hf]) (not_not.mpr ⟨p, hp⟩)

theorem candidatesAllocationDone_fault_iff (h : m.transportMap t = none) :
    (handle L m t .candidatesAllocationDone).fault = true ↔ ¬ ∃ p, m.uidMap [] = some (some p) := by
  rw [handle, onCandidatesAllocationDone_fault, knownAs_unknown h]
  cases hu : m.uidMap [] with
  | none => simp [PartialMap.index, hu]
  | some q => cases q <;> simp [PartialMap.index, hu]

/-- With a link of the empty uid the message is sent, under this uid: after the
subscript the search for the transport cannot fail. -/
theorem candidatesAllocationDone_sent (h : m.transportMap t = none) {p : PeerState}
    (hp : m.uidMap [] = some (some p)) :
    (handle L m t .candidatesAllocationDone).sent = [⟨p.overlayId, [],
      (inOrder p.candidateList).foldl (fun data c => data ++ [32] ++ c) m.fingerprint, kConResp⟩] := by
  simp [handle, onCandidatesAllocationDone, index_unknown h, index_of_mem none hp]

theorem rwChangeState_sent (h : m.transportMap t = none) {tr : Transport} (htr : m.transports t = some tr) :
    ∃ status, (handle L m t .rwChangeState).sent = [⟨kLocalControllerId, [], status, kConStat⟩] := by
  simp only [handle, onRWChangeState, index_unknown h, htr]
  split_ifs <;> exact ⟨_, rfl⟩

end

/-- No event of an unknown transport is ignored: the transport becomes known
under the empty uid. What else is done depends on whether there is a link of
this uid, and on the transport still being alive. -/
theorem unknown_never_ignored (L : Libjingle.Api) (m : Manager) (t : Ptr) (h : m.transportMap t = none) :
    (∀ n, ¬ Ignored m (handle L m t n) ∧
      (handle L m t n).manager.transportMap = m.transportMap.insert t []) ∧
    (∀ candidates, (handle L m t (.candidatesReady candidates)).fault = true ↔
      ¬ ∃ p, m.uidMap [] = some (some p)) ∧
    ((handle L m t .candidatesAllocationDone).fault = true ↔ ¬ ∃ p, m.uidMap [] = some (some p)) ∧
    (∀ p, m.uidMap [] = some (some p) → ∃ data,
      (handle L m t .candidatesAllocationDone).sent = [⟨p.overlayId, [], data, kConResp⟩]) ∧
    ((m.transports t).isSome → ∃ status,
      (handle L m t .rwChangeState).sent = [⟨kLocalControllerId, [], status, kConStat⟩]) := by
  refine ⟨fun n => ⟨not_ignored h n, handle_transportMap h n⟩, candidatesReady_fault_iff h,
    candidatesAllocationDone_fault_iff h, fun p hp => ⟨_, candidatesAllocationDone_sent h hp⟩, ?_⟩
  intro hl
  obtain ⟨tr, htr⟩ := Option.isSome_iff_exists.mp hl
  exact rwChangeState_sent h htr

def trimmed : Manager :=
  (Routes.destroyed (Routes.created Routes.start Routes.uidB ⟨1, 2, 0⟩) Routes.uidB).manager

theorem unknown_never_ignored_trimmed :
    ¬ Ignored trimmed (handle Api.plain trimmed 1 .rwChangeState) ∧
      (handle Api.plain trimmed 1 .rwChangeState).manager.transportMap = trimmed.transportMap.insert 1 [] :=
  (unknown_never_ignored Api.plain trimmed 1 rfl).1 .rwChangeState

/-- The search that guards the message comes after the subscripts that insert
the transport and use a null peer state. -/
theorem late_event_faults : trimmed.transportMap 1 = none ∧
    (onCandidatesAllocationDone trimmed 1).manager.transportMap 1 = some [] ∧
    (onCandidatesAllocationDone trimmed 1).manager.uidMap [] = some none ∧
    (onCandidatesAllocationDone trimmed 1).fault = true ∧
    ¬ Ignored trimmed (onCandidatesAllocationDone trimmed 1) := by
  refine ⟨rfl, rfl, rfl, rfl, ?_⟩
  intro h
  cases h.fault

end Tincan.UnknownTransports
