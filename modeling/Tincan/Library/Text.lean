import Mathlib.Algebra.GroupWithZero.Nat
import Mathlib.Data.List.Lex
import Mathlib.Data.List.TakeWhile
import Mathlib.Order.Compare
import Mathlib.Order.Fin.Basic

namespace Tincan.Library.Text

abbrev Byte := Fin 256

-- A named instance, so that literals read the same in every module.
instance (priority := high) byteNeZero : NeZero 256 := ⟨by decide⟩

/-- A byte array or a byte string; nothing distinguishes the two. -/
abbrev Bytes := List Byte

def bytes (s : String) : Bytes := s.toList.map (fun c => Fin.ofNat 256 c.toNat)

def substr (s : Bytes) (pos len : Nat) : Bytes := (s.drop pos).take len

/-- Three-way comparison of the substring at `pos` with another string. -/
def compareAt (s : Bytes) (pos len : Nat) (t : Bytes) : Ordering := compare (substr s pos len) t

/-- The part of a string before the first occurrence of a byte, or all of it. -/
def cutAt (b : Byte) (s : Bytes) : Bytes := s.takeWhile (fun c => c != b)

def npos : Nat := 2 ^ 64 - 1

def find (s : Bytes) (b : Byte) : Nat := if b ∈ s then s.idxOf b else npos

def isSpace (b : Byte) : Bool := b == 32 || (9 ≤ b && b ≤ 13)

theorem substr_zero (s : Bytes) (len : Nat) : substr s 0 len = s.take len := rfl

/-- A comparison against a longer text cannot come out equal, whatever the bytes. -/
theorem compareAt_ne_eq {s t : Bytes} {pos len : Nat} (h : len < t.length) :
    compareAt s pos len t ≠ .eq := by
  intro he
  have ht : substr s pos len = t := by simpa [compareAt] using he
  have hl : (substr s pos len).length ≤ len := by simp [substr]
  rw [ht] at hl
  omega

theorem compare_eq_lt_iff {s t : Bytes} : compare s t = .lt ↔ s < t := by
  induction s generalizing t with
  | nil => cases t <;> simp
  | cons b s ih =>
    cases t with
    | nil => simp
    | cons c t =>
      rw [List.compare_cons_cons, List.cons_lt_cons_iff, Ordering.then_eq_lt, ih]
      simp [compare_lt_iff_lt]

theorem compare_eq_gt_iff {s t : Bytes} : compare s t = .gt ↔ t < s := by
  rw [← compare_eq_lt_iff, ← Std.OrientedCmp.gt_iff_lt]

theorem cutAt_append {b : Byte} {s : Bytes} (t : Bytes) (h : b ∉ s) :
    cutAt b (s ++ t) = s ++ cutAt b t := by
  refine List.takeWhile_append_of_pos ?_
  intro c hc
  have hne : c ≠ b := by
    rintro rfl
    exact h hc
  simpa using hne

theorem cutAt_cons_self (b : Byte) (s : Bytes) : cutAt b (b :: s) = [] := by simp [cutAt]

theorem field_inj {b : Byte} {f g s t : Bytes} (hf : b ∉ f) (hg : b ∉ g) (h : f ++ b :: s = g ++ b :: t) :
    f = g ∧ s = t := by
  have hcut := congrArg (cutAt b) h
  rw [cutAt_append _ hf, cutAt_append _ hg, cutAt_cons_self, cutAt_cons_self, List.append_nil,
    List.append_nil] at hcut
  subst hcut
  exact ⟨rfl, (List.cons.inj (List.append_cancel_left h)).2⟩

theorem cutAt_append_of_mem {b : Byte} {s : Bytes} (t : Bytes) (h : b ∈ s) :
    cutAt b (s ++ t) = cutAt b s := by
  induction s with
  | nil => cases h
  | cons c s ih =>
    by_cases hc : c = b
    · simp [cutAt, hc]
    · have hs : b ∈ s := by
        obtain he | hs := List.mem_cons.mp h
        · exact absurd he.symm hc
        · exact hs
      have hcut := ih hs
      unfold cutAt at hcut ⊢
      rw [List.cons_append, List.takeWhile_cons_of_pos (by simpa using hc), hcut,
        List.takeWhile_cons_of_pos (by simpa using hc)]

theorem length_cutAt_lt {b : Byte} {s : Bytes} (h : b ∈ s) : (cutAt b s).length < s.length := by
  refine lt_of_le_of_ne (List.takeWhile_prefix _).length_le ?_
  intro he
  have hs : cutAt b s = s := (List.takeWhile_prefix _).eq_of_length he
  rw [← hs] at h
  have hb := List.mem_takeWhile_imp (p := fun c => c != b) h
  simp at hb

theorem find_append_cons {s : Bytes} {b : Byte} (t : Bytes) (h : b ∉ s) :
    find (s ++ b :: t) b = s.length := by
  simp [find, List.idxOf_append_of_notMem h]

theorem substr_append_length (s t : Bytes) (len : Nat) : substr (s ++ t) s.length len = t.take len := by
  simp [substr]

theorem compareAt_zero_eq_iff {s t : Bytes} : compareAt s 0 t.length t = .eq ↔ t <+: s := by
  rw [compareAt, Std.compare_eq_iff_eq, substr_zero, List.prefix_iff_eq_take, eq_comm]

theorem mem_intercalate {b : Byte} {sep : Bytes} {fs : List Bytes}
    (h : b ∈ sep.intercalate fs) : b ∈ sep ∨ ∃ f ∈ fs, b ∈ f := by
  induction fs with
  | nil => simp [List.intercalate] at h
  | cons f fs ih =>
    cases fs with
    | nil => exact .inr ⟨f, by simp, by simpa [List.intercalate] using h⟩
    | cons g fs =>
      rw [List.intercalate_cons_cons] at h
      simp only [List.mem_append] at h
      obtain (h | h) | h := h
      · exact .inr ⟨f, by simp, h⟩
      · exact .inl h
      · obtain hs | ⟨k, hk, hb⟩ := ih h
        · exact .inl hs
        · exact .inr ⟨k, List.mem_cons_of_mem f hk, hb⟩

theorem mem_intercalate_of_mem {sep f : Bytes} {fs : List Bytes} {b : Byte} (hf : f ∈ fs) (hb : b ∈ f) :
    b ∈ sep.intercalate fs := by
  induction fs with
  | nil => cases hf
  | cons g fs ih =>
    cases fs with
    | nil =>
      rw [List.mem_singleton.mp hf] at hb
      simpa [List.intercalate] using hb
    | cons k fs =>
      rw [List.intercalate_cons_cons, List.mem_append, List.mem_append]
      obtain rfl | hf := List.mem_cons.mp hf
      · exact .inl (.inl hb)
      · exact .inr (ih hf)

theorem length_splitOn (s : Bytes) (b : Byte) : (s.splitOn b).length = s.count b + 1 := by
  induction s with
  | nil => rfl
  | cons c s ih =>
    rw [List.splitOn_cons_eq_if_modifyHead, List.count_cons]
    split
    · rw [List.length_cons, ih]
    · rw [List.length_modifyHead, ih]

theorem count_intercalate (b : Byte) (f : Bytes) (fs : List Bytes) :
    ([b].intercalate (f :: fs)).count b = fs.length + ((f :: fs).map (List.count b)).sum := by
  induction fs generalizing f with
  | nil => simp [List.intercalate]
  | cons g fs ih =>
    rw [List.intercalate_cons_cons, List.count_append, List.count_append, ih]
    simp only [List.count_singleton_self, List.length_cons, List.map_cons, List.sum_cons]
    omega

theorem length_splitOn_intercalate {b : Byte} {fs : List Bytes} (h : fs ≠ []) :
    (([b].intercalate fs).splitOn b).length = fs.length ↔ ∀ f ∈ fs, b ∉ f := by
  constructor
  · obtain ⟨g, fs, rfl⟩ := List.exists_cons_of_ne_nil h
    intro hlength f hf
    rw [length_splitOn, count_intercalate, List.length_cons] at hlength
    have hsum : ((g :: fs).map (List.count b)).sum = 0 := by omega
    exact List.count_eq_zero.mp (List.sum_eq_zero_iff_forall_eq_nat.mp hsum _ (List.mem_map_of_mem hf))
  · intro hfs
    rw [List.splitOn_intercalate b hfs h]

end Tincan.Library.Text
