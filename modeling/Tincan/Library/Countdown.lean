import Mathlib.Data.List.Basic
import Mathlib.Data.List.Sublists

namespace Tincan.Library.Countdown

def descent (start k : Nat) : List Nat := (List.range (start - k)).map (fun i => start - i)

/-- One pass over a list with a counter that goes down whenever the list has its
value, until it is at the floor. -/
def countdown (floor start : Nat) (xs : List Nat) : Nat :=
  xs.foldl (fun n x => if x = n ∧ floor < n then n - 1 else n) start

variable {floor start k x : Nat} {xs : List Nat}

theorem descent_self (k : Nat) : descent k k = [] := by simp [descent]

theorem descent_of_lt (h : k < start) : descent start k = start :: descent (start - 1) k := by
  have hlength : start - k = start - 1 - k + 1 := by omega
  rw [descent, hlength, List.range_succ_eq_map, List.map_cons, List.map_map, descent]
  congr 1
  apply List.map_congr_left
  intro i _
  simp only [Function.comp_apply]
  omega

theorem countdown_nil : countdown floor start [] = start := rfl

theorem countdown_cons (floor start x : Nat) (xs : List Nat) : countdown floor start (x :: xs) =
    countdown floor (if x = start ∧ floor < start then start - 1 else start) xs := rfl

theorem countdown_hit (h : floor < start) (xs : List Nat) :
    countdown floor start (start :: xs) = countdown floor (start - 1) xs := by
  rw [countdown_cons, if_pos ⟨rfl, h⟩]

theorem countdown_miss (h : x = start → start ≤ floor) (xs : List Nat) :
    countdown floor start (x :: xs) = countdown floor start xs := by
  rw [countdown_cons, if_neg (fun hit => absurd (h hit.1) (by omega))]

theorem countdown_bounds (h : floor ≤ start) (xs : List Nat) :
    floor ≤ countdown floor start xs ∧ countdown floor start xs ≤ start := by
  induction xs generalizing start with
  | nil => exact ⟨h, le_rfl⟩
  | cons x xs ih =>
    by_cases hit : x = start ∧ floor < start
    · obtain ⟨rfl, hlt⟩ := hit
      rw [countdown_hit hlt]
      have hbounds : floor ≤ countdown floor (x - 1) xs ∧ countdown floor (x - 1) xs ≤ x - 1 :=
        ih (by omega)
      omega
    · rw [countdown_miss (by omega)]
      exact ih h

/-- The counter ends at a number that is not in the list just if the list has
the numbers above it in descending order. -/
theorem countdown_eq_iff (hfloor : floor ≤ k) (hk : k ≤ start) (hfree : k ∉ xs) :
    countdown floor start xs = k ↔ (descent start k).Sublist xs := by
  induction xs generalizing start with
  | nil =>
    rw [countdown_nil, List.sublist_nil]
    by_cases he : start = k
    · simp [he, descent_self]
    · simp [he, descent_of_lt (lt_of_le_of_ne hk (Ne.symm he))]
  | cons x xs ih =>
    obtain ⟨hx, hfree⟩ := not_or.mp (mt List.mem_cons.mpr hfree)
    by_cases hs : x = start
    · subst hs
      have hlt : k < x := lt_of_le_of_ne hk hx
      rw [countdown_hit (by omega), descent_of_lt hlt, List.cons_sublist_cons, ih (by omega) hfree]
    · rw [countdown_miss (fun he => absurd he hs), ih hk hfree]
      by_cases he : start = k
      · simp [he, descent_self]
      · rw [descent_of_lt (lt_of_le_of_ne hk (Ne.symm he)), List.sublist_cons_iff]
        constructor
        · exact .inl
        · rintro (h | ⟨_, hcons, _⟩)
          · exact h
          · exact absurd (List.cons.inj hcons).1.symm hs

end Tincan.Library.Countdown
