import Mathlib.Data.List.Basic

namespace Tincan.Library.SendBuffer

variable {α : Type*}

/-- Items on their way into a sink that may take fewer than it is offered.
`written` and `accepted` are the history at the two ends. -/
structure Stream (α : Type*) where
  written : List α
  accepted : List α
  buffer : List α

def Stream.write (s : Stream α) (items : List α) : Stream α :=
  { s with written := s.written ++ items, buffer := s.buffer ++ items }

/-- The stream after the sink has answered an offer of the whole buffer with
the number of items it has taken; zero and below mean none. -/
def Stream.offered (s : Stream α) (count : Int) : Stream α :=
  if 0 < count then
    { s with
      accepted := s.accepted ++ s.buffer.take count.toNat
      buffer := s.buffer.drop count.toNat }
  else s

structure Sink (α : Type*) where
  answer : Nat → List α → Int
  answer_le : ∀ n items, answer n items ≤ items.length

/-- Nothing is lost, doubled or moved. -/
def Stream.Intact (s : Stream α) : Prop := s.accepted ++ s.buffer = s.written

theorem Stream.Intact.write {s : Stream α} (h : s.Intact) (items : List α) : (s.write items).Intact := by
  unfold Stream.Intact Stream.write at *
  rw [← List.append_assoc, h]

theorem Stream.Intact.offered {s : Stream α} (h : s.Intact) (count : Int) : (s.offered count).Intact := by
  unfold Stream.Intact Stream.offered at *
  split
  · rw [List.append_assoc, List.take_append_drop, h]
  · exact h

@[simp] theorem Stream.offered_written (s : Stream α) (count : Int) :
    (s.offered count).written = s.written := by
  unfold Stream.offered
  split <;> rfl

theorem Stream.offered_of_not_pos {s : Stream α} {count : Int} (h : ¬ 0 < count) : s.offered count = s :=
  if_neg h

theorem Stream.length_offered {s : Stream α} {count : Int} (hb : s.buffer ≠ []) (h : 0 < count) :
    (s.offered count).buffer.length < s.buffer.length := by
  have hpos := List.length_pos_of_ne_nil hb
  rw [Stream.offered, if_pos h, List.length_drop]
  omega

/-- Offering the buffer again and again until it is empty or nothing is taken.
The offers are numbered, from `n` on. -/
def flush (S : Sink α) (n : Nat) (s : Stream α) : Nat × Stream α :=
  if _hb : s.buffer = [] then (n, s)
  else if _h : 0 < S.answer n s.buffer then flush S (n + 1) (s.offered (S.answer n s.buffer))
  else (n + 1, s)
termination_by s.buffer.length
decreasing_by exact Stream.length_offered _hb _h

theorem intact_flush {S : Sink α} {n : Nat} {s : Stream α} (h : s.Intact) :
    (flush S n s).2.Intact ∧ (flush S n s).2.written = s.written := by
  fun_induction flush S n s with
  | case1 n s hb => exact ⟨h, rfl⟩
  | case2 n s hb hpos ih =>
    obtain ⟨hi, hw⟩ := ih (h.offered _)
    exact ⟨hi, hw.trans (s.offered_written _)⟩
  | case3 n s hb hpos => exact ⟨h, rfl⟩

theorem flush_offers (S : Sink α) (n : Nat) (s : Stream α) : (flush S n s).1 ≤ n + s.buffer.length := by
  fun_induction flush S n s with
  | case1 n s hb => exact Nat.le_add_right _ _
  | case2 n s hb hpos ih =>
    have hlt := Stream.length_offered hb hpos
    omega
  | case3 n s hb hpos =>
    have hlen := List.length_pos_of_ne_nil hb
    omega

end Tincan.Library.SendBuffer
