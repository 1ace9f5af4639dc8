import Mathlib.Data.List.Induction
import Mathlib.Data.Option.Basic
import Mathlib.Logic.Function.Basic

namespace Tincan.Library

/-- An associative container, seen through its lookup function. -/
abbrev PartialMap (K V : Type*) := K → Option V

end Tincan.Library

namespace Tincan.Library.PartialMap

variable {K V : Type*}

def empty : PartialMap K V := fun _ => none

variable [DecidableEq K]

def insert (m : PartialMap K V) (k : K) (v : V) : PartialMap K V := Function.update m k (some v)

def erase (m : PartialMap K V) (k : K) : PartialMap K V := Function.update m k none

/-- The subscript operator: a missing key is first inserted with the default. -/
def index (m : PartialMap K V) (k : K) (d : V) : V × PartialMap K V :=
  match m k with
  | some v => (v, m)
  | none => (d, m.insert k d)

@[simp] theorem insert_self (m : PartialMap K V) (k : K) (v : V) : m.insert k v k = some v := by
  simp [insert]

@[simp] theorem insert_of_ne (m : PartialMap K V) {k j : K} (v : V) (h : j ≠ k) :
    m.insert k v j = m j := by
  simp [insert, h]

@[simp] theorem erase_self (m : PartialMap K V) (k : K) : m.erase k k = none := by
  simp [erase]

@[simp] theorem erase_of_ne (m : PartialMap K V) {k j : K} (h : j ≠ k) : m.erase k j = m j := by
  simp [erase, h]

theorem insert_eq_some {m : PartialMap K V} {k j : K} {v w : V} :
    m.insert k v j = some w ↔ (j = k ∧ w = v) ∨ (j ≠ k ∧ m j = some w) := by
  by_cases h : j = k
  · subst h
    simp [eq_comm]
  · simp [h]

theorem erase_eq_some {m : PartialMap K V} {k j : K} {w : V} :
    m.erase k j = some w ↔ j ≠ k ∧ m j = some w := by
  by_cases h : j = k
  · subst h
    simp
  · simp [h]

theorem of_erase_ne_none {m : PartialMap K V} {k j : K} (h : m.erase k j ≠ none) : m j ≠ none := by
  obtain ⟨v, hv⟩ := Option.ne_none_iff_exists'.mp h
  simp [(erase_eq_some.mp hv).2]

theorem erase_of_none {m : PartialMap K V} {k : K} (h : m k = none) : m.erase k = m :=
  Function.update_eq_self_iff.mpr h.symm

theorem index_of_mem {m : PartialMap K V} {k : K} {v : V} (d : V) (h : m k = some v) :
    m.index k d = (v, m) := by
  simp [index, h]

theorem index_snd_self (m : PartialMap K V) (k : K) (d : V) :
    (m.index k d).2 k = some (m.index k d).1 := by
  cases hk : m k <;> simp [index, hk]

theorem of_index_fst {m : PartialMap K V} {k : K} {d v : V} (h : (m.index k d).1 = v) (hv : v ≠ d) :
    m k = some v := by
  cases hk : m k with
  | some w => rw [← h, index_of_mem d hk]
  | none => simp [index, hk, Ne.symm hv] at h

theorem index_snd_eq_some {m : PartialMap K V} {k j : K} {v : V} (d : V) (h : m j = some v) :
    (m.index k d).2 j = some v := by
  cases hk : m k with
  | some w => rwa [index_of_mem d hk]
  | none =>
    have hne : j ≠ k := by
      rintro rfl
      rw [h] at hk
      cases hk
    simp [index, hk, hne, h]

theorem insert_insert (m : PartialMap K V) (k : K) (v w : V) : (m.insert k v).insert k w = m.insert k w := by
  funext j
  by_cases h : j = k
  · subst h
    simp
  · simp [h]

theorem insert_comm (m : PartialMap K V) {k j : K} (h : k ≠ j) (v w : V) :
    (m.insert k v).insert j w = (m.insert j w).insert k v := by
  funext i
  by_cases hk : i = k
  · subst hk
    simp [h]
  · by_cases hj : i = j
    · subst hj
      simp [hk]
    · simp [hk, hj]

theorem erase_insert_self (m : PartialMap K V) (k : K) (v : V) : (m.insert k v).erase k = m.erase k := by
  funext j
  by_cases h : j = k
  · subst h
    simp
  · simp [h]

theorem erase_insert_of_ne (m : PartialMap K V) {k j : K} (h : k ≠ j) (v : V) :
    (m.insert k v).erase j = (m.erase j).insert k v := by
  funext i
  by_cases hk : i = k
  · subst hk
    simp [h]
  · by_cases hj : i = j
    · subst hj
      simp [hk]
    · simp [hk, hj]

theorem insert_congr {m m' : PartialMap K V} {k j : K} (v : V) (h : j ≠ k → m' j = m j) :
    m'.insert k v j = m.insert k v j := by
  by_cases hj : j = k
  · subst hj
    simp
  · simp [hj, h hj]

theorem erase_congr {m m' : PartialMap K V} {k j : K} (h : j ≠ k → m' j = m j) :
    m'.erase k j = m.erase k j := by
  by_cases hj : j = k
  · subst hj
    simp
  · simp [hj, h hj]

theorem insert_of_mem {m : PartialMap K V} {k : K} {v : V} (h : m k = some v) : m.insert k v = m :=
  Function.update_eq_self_iff.mpr h.symm

/-- A container that a list was written into has, for each key, what was there
before or what the last item with this key has written. -/
theorem foldl_insert_cases {α : Type*} (key : α → K) (val : α → V) (m : PartialMap K V) (xs : List α)
    (k : K) :
    ((∀ x ∈ xs, key x ≠ k) ∧ xs.foldl (fun m x => m.insert (key x) (val x)) m k = m k) ∨
      ∃ ys x zs, xs = ys ++ x :: zs ∧ key x = k ∧ (∀ z ∈ zs, key z ≠ k) ∧
        xs.foldl (fun m x => m.insert (key x) (val x)) m k = some (val x) := by
  induction xs using List.reverseRecOn with
  | nil => exact .inl ⟨by simp, rfl⟩
  | append_singleton xs x ih =>
    rw [List.foldl_append, List.foldl_cons, List.foldl_nil]
    by_cases hx : key x = k
    · refine .inr ⟨xs, x, [], rfl, hx, by simp, ?_⟩
      rw [hx, insert_self]
    · rw [insert_of_ne _ _ (Ne.symm hx)]
      obtain ⟨hne, h⟩ | ⟨ys, y, zs, rfl, hy, hne, h⟩ := ih
      · refine .inl ⟨?_, h⟩
        intro z hz
        obtain hz | hz := List.mem_append.mp hz
        · exact hne z hz
        · rw [List.mem_singleton.mp hz]
          exact hx
      · refine .inr ⟨ys, y, zs ++ [x], by simp, hy, ?_, h⟩
        intro z hz
        obtain hz | hz := List.mem_append.mp hz
        · exact hne z hz
        · rw [List.mem_singleton.mp hz]
          exact hx

def Inverse (f : PartialMap K V) (g : PartialMap V K) : Prop := ∀ k v, f k = some v ↔ g v = some k

variable [DecidableEq V] {f : PartialMap K V} {g : PartialMap V K} {k : K} {v : V}

theorem Inverse.insert (h : Inverse f g) (hk : f k = none) (hv : g v = none) :
    Inverse (f.insert k v) (g.insert v k) := by
  intro j w
  rw [insert_eq_some, insert_eq_some, h j w]
  constructor
  · rintro (⟨rfl, rfl⟩ | ⟨_, hg⟩)
    · exact .inl ⟨rfl, rfl⟩
    · refine .inr ⟨?_, hg⟩
      rintro rfl
      rw [hv] at hg
      cases hg
  · rintro (⟨rfl, rfl⟩ | ⟨_, hg⟩)
    · exact .inl ⟨rfl, rfl⟩
    · refine .inr ⟨?_, hg⟩
      rintro rfl
      rw [(h j w).mpr hg] at hk
      cases hk

theorem Inverse.erase (h : Inverse f g) (hk : f k = some v) : Inverse (f.erase k) (g.erase v) := by
  intro j w
  rw [erase_eq_some, erase_eq_some, h j w]
  refine and_congr_left fun hg => not_congr ⟨?_, ?_⟩
  · rintro rfl
    rw [(h j w).mpr hg] at hk
    exact Option.some.inj hk
  · rintro rfl
    rw [(h k w).mp hk] at hg
    exact (Option.some.inj hg).symm

end Tincan.Library.PartialMap
