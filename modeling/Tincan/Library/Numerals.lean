import Tincan.Library.Text
import Mathlib.Data.List.TakeWhile
import Mathlib.Tactic.IntervalCases

namespace Tincan.Library.Numerals

open Tincan.Library.Text

def decimal (n : Nat) : Bytes := (Nat.toDigits 10 n).map (fun c => Fin.ofNat 256 c.toNat)

def decimalInt (i : Int) : Bytes :=
  if i < 0 then 45 :: decimal i.natAbs else decimal i.natAbs

def isDigit (b : Byte) : Bool := 48 ≤ b && b ≤ 57

def digitsValue (s : Bytes) : Nat := s.foldl (fun n b => 10 * n + (b.val - 48)) 0

/-- `atoi`: whitespace, an optional sign and a maximal run of digits, read as
a long, which saturates, and then cut to 32 bits. -/
def atoi (s : Bytes) : Int :=
  let long (i : Int) : Int := max (-2 ^ 63) (min i (2 ^ 63 - 1))
  let value : Int := match s.dropWhile isSpace with
    | 45 :: r => -digitsValue (r.takeWhile isDigit)
    | 43 :: r => digitsValue (r.takeWhile isDigit)
    | r => digitsValue (r.takeWhile isDigit)
  (long value).bmod (2 ^ 32)

theorem digitChar_byte {d : Nat} (h : d < 10) :
    (Fin.ofNat 256 (Nat.digitChar d).toNat : Byte) = Fin.ofNat 256 (48 + d) := by
  interval_cases d <;> rfl

theorem decimal_eq (n : Nat) :
    decimal n = (if n < 10 then [] else decimal (n / 10)) ++ [Fin.ofNat 256 (48 + n % 10)] := by
  unfold decimal
  rw [Nat.toDigits_eq_if (by omega)]
  split
  · next h => rw [Nat.mod_eq_of_lt h, ← digitChar_byte h]; rfl
  · simp only [List.map_append, List.map_cons, List.map_nil]
    rw [digitChar_byte (Nat.mod_lt n (by omega))]

theorem digit_val {d : Nat} (h : d < 10) : (Fin.ofNat 256 (48 + d) : Byte).val = 48 + d := by
  simp only [Fin.ofNat]
  omega

theorem isDigit_digit {d : Nat} (h : d < 10) : isDigit (Fin.ofNat 256 (48 + d)) = true := by
  have hv := digit_val h
  simp only [isDigit, Bool.and_eq_true, decide_eq_true_eq, Fin.le_def, hv]
  exact ⟨by simp, by simp; omega⟩

theorem isDigit_of_mem_decimal {n : Nat} {b : Byte} (h : b ∈ decimal n) : isDigit b = true := by
  induction n using Nat.strong_induction_on with
  | _ n ih =>
    rw [decimal_eq, List.mem_append, List.mem_singleton] at h
    obtain h | rfl := h
    · split at h
      · simp at h
      · next hn => exact ih (n / 10) (by omega) h
    · exact isDigit_digit (Nat.mod_lt n (by omega))

theorem digitsValue_decimal (n : Nat) : digitsValue (decimal n) = n := by
  induction n using Nat.strong_induction_on with
  | _ n ih =>
    have hd := digit_val (Nat.mod_lt n (by omega : 10 > 0))
    rw [decimal_eq, digitsValue, List.foldl_append]
    simp only [List.foldl_cons, List.foldl_nil, hd]
    split
    · next h => simp only [List.foldl_nil]; omega
    · next h =>
      have hq := ih (n / 10) (by omega)
      rw [digitsValue] at hq
      rw [hq]
      omega

theorem decimal_injective {m n : Nat} (h : decimal m = decimal n) : m = n := by
  rw [← digitsValue_decimal m, h, digitsValue_decimal]

theorem decimal_digit {n : Nat} (h : n < 10) : decimal n = [Fin.ofNat 256 (48 + n)] := by
  rw [decimal_eq, if_pos h, Nat.mod_eq_of_lt h, List.nil_append]

theorem length_decimal_two {n : Nat} (h : 10 ≤ n) (h' : n < 100) : (decimal n).length = 2 := by
  rw [decimal_eq, if_neg (by omega), decimal_digit (by omega)]
  rfl

theorem decimal_ne_nil (n : Nat) : decimal n ≠ [] := by
  rw [decimal_eq]
  simp

theorem not_isSpace_of_isDigit {b : Byte} (h : isDigit b = true) : isSpace b = false := by
  simp only [isDigit, Bool.and_eq_true, decide_eq_true_eq, Fin.le_def] at h
  have h48 : (48 : Byte).val = 48 := rfl
  simp only [isSpace, Bool.or_eq_false_iff, beq_eq_false_iff_ne, ne_eq, Bool.and_eq_false_iff,
    decide_eq_false_iff_not, Fin.le_def, Fin.ext_iff]
  have h32 : (32 : Byte).val = 32 := rfl
  have h13 : (13 : Byte).val = 13 := rfl
  omega

theorem atoi_decimal_append {n : Nat} (h : n < 2 ^ 63) {t : Bytes}
    (ht : ∀ b r, t = b :: r → isDigit b = false) :
    atoi (decimal n ++ t) = (n : Int).bmod (2 ^ 32) := by
  have hd : ∀ b ∈ decimal n, isDigit b = true := fun b hb => isDigit_of_mem_decimal hb
  have hstop : t.takeWhile isDigit = [] := by
    cases t with
    | nil => rfl
    | cons b r => rw [List.takeWhile_cons_of_neg (by simp [ht b r rfl])]
  have htake : (decimal n ++ t).takeWhile isDigit = decimal n := by
    rw [List.takeWhile_append_of_pos hd, hstop, List.append_nil]
  obtain ⟨b, r, hbr⟩ := List.exists_cons_of_ne_nil (decimal_ne_nil n)
  have hb : isDigit b = true := hd b (by rw [hbr]; simp)
  have hskip : (decimal n ++ t).dropWhile isSpace = b :: (r ++ t) := by
    rw [hbr, List.cons_append, List.dropWhile_cons_of_neg (by simp [not_isSpace_of_isDigit hb])]
  have hminus : b ≠ 45 := by rintro rfl; simp [isDigit] at hb
  have hplus : b ≠ 43 := by rintro rfl; simp [isDigit] at hb
  have hvalue := digitsValue_decimal n
  unfold atoi
  rw [hskip]
  split
  · next heq => simp at heq; exact absurd heq.1 hminus
  · next heq => simp at heq; exact absurd heq.1 hplus
  · have hlong : max (-2 ^ 63) (min (n : Int) (2 ^ 63 - 1)) = n := by omega
    rw [← List.cons_append, ← hbr, htake, hvalue]
    dsimp only
    rw [hlong]

theorem atoi_decimal_bmod {n : Nat} (h : n < 2 ^ 63) : atoi (decimal n) = (n : Int).bmod (2 ^ 32) := by
  have happend := atoi_decimal_append h (t := []) (by simp)
  rwa [List.append_nil] at happend

theorem atoi_decimal {n : Nat} (h : n < 2 ^ 31) : atoi (decimal n) = n := by
  rw [atoi_decimal_bmod (by omega), Int.bmod_def]
  omega

theorem decimalInt_ofNat (n : Nat) : decimalInt n = decimal n := by
  simp [decimalInt]

def hexDigit (d : Nat) : Byte := if d < 10 then Fin.ofNat 256 (48 + d) else Fin.ofNat 256 (87 + d)

def hexByte (b : Byte) : Bytes := [hexDigit (b.val / 16), hexDigit (b.val % 16)]

def hex (s : Bytes) : Bytes := s.flatMap hexByte

theorem take_hex (s : Bytes) (n : Nat) : (hex s).take (2 * n) = hex (s.take n) := by
  induction n generalizing s with
  | zero => simp [hex]
  | succ n ih =>
    cases s with
    | nil => simp [hex]
    | cons b s =>
      change (hexByte b ++ hex s).take (2 * (n + 1)) = hexByte b ++ hex (s.take n)
      rw [← ih s]
      simp [hexByte, Nat.mul_succ]

theorem hexDigit_injective {d e : Nat} (hd : d < 16) (he : e < 16) (h : hexDigit d = hexDigit e) :
    d = e := by
  interval_cases d <;> interval_cases e <;> first | rfl | cases h

theorem hexByte_injective {b c : Byte} (h : hexByte b = hexByte c) : b = c := by
  simp only [hexByte, List.cons.injEq, and_true] at h
  have hhigh := hexDigit_injective (by omega) (by omega) h.1
  have hlow := hexDigit_injective (by omega) (by omega) h.2
  apply Fin.ext
  omega

theorem hex_injective {s t : Bytes} (h : hex s = hex t) : s = t := by
  induction s generalizing t with
  | nil =>
    cases t with
    | nil => rfl
    | cons c t => simp [hex, hexByte] at h
  | cons b s ih =>
    cases t with
    | nil => simp [hex, hexByte] at h
    | cons c t =>
      change hexByte b ++ hex s = hexByte c ++ hex t at h
      obtain ⟨hb, hs⟩ := List.append_inj h rfl
      rw [hexByte_injective hb, ih hs]

def isHexDigit (b : Byte) : Bool := isDigit b || (97 ≤ b && b ≤ 102)

theorem exists_hexDigit {b : Byte} (h : isHexDigit b = true) : ∃ d < 16, hexDigit d = b := by
  have h48 : (48 : Byte).val = 48 := rfl
  have h57 : (57 : Byte).val = 57 := rfl
  have h97 : (97 : Byte).val = 97 := rfl
  have h102 : (102 : Byte).val = 102 := rfl
  simp only [isHexDigit, isDigit, Bool.or_eq_true, Bool.and_eq_true, decide_eq_true_eq, Fin.le_def] at h
  obtain ⟨hlow, hhigh⟩ | ⟨hlow, hhigh⟩ := h
  · refine ⟨b.val - 48, by omega, ?_⟩
    rw [hexDigit, if_pos (by omega)]
    apply Fin.ext
    simp only [Fin.ofNat]
    omega
  · refine ⟨b.val - 87, by omega, ?_⟩
    rw [hexDigit, if_neg (by omega)]
    apply Fin.ext
    simp only [Fin.ofNat]
    omega

theorem exists_hex {s : Bytes} {n : Nat} (hs : ∀ b ∈ s, isHexDigit b = true) (hn : s.length = 2 * n) :
    ∃ t : Bytes, t.length = n ∧ hex t = s := by
  induction n generalizing s with
  | zero => exact ⟨[], rfl, (List.length_eq_zero_iff.mp hn).symm⟩
  | succ n ih =>
    match s, hn with
    | c :: d :: s, hn =>
      obtain ⟨high, hhigh, rfl⟩ := exists_hexDigit (hs c (by simp))
      obtain ⟨low, hlow, rfl⟩ := exists_hexDigit (hs d (by simp))
      have hlen : s.length = 2 * n := by simpa [Nat.mul_succ] using hn
      obtain ⟨t, ht, rfl⟩ := ih (fun b hb => hs b (by simp [hb])) hlen
      refine ⟨⟨16 * high + low, by omega⟩ :: t, by simp [ht], ?_⟩
      have hq : (16 * high + low) / 16 = high := by omega
      have hr : (16 * high + low) % 16 = low := by omega
      simp [hex, hexByte, hq, hr]

def hexValue (b : Byte) : Option Nat :=
  if 48 ≤ b ∧ b ≤ 57 then some (b.val - 48)
  else if 97 ≤ b ∧ b ≤ 102 then some (b.val - 87)
  else if 65 ≤ b ∧ b ≤ 70 then some (b.val - 55)
  else none

def unhex : Bytes → Option Bytes
  | [] => some []
  | [_] => none
  | c :: d :: s => do
    let high ← hexValue c
    let low ← hexValue d
    let rest ← unhex s
    some (Fin.ofNat 256 (16 * high + low) :: rest)

theorem unhex_cons_cons {c d : Byte} {s t : Bytes} (h : unhex (c :: d :: s) = some t) :
    ∃ high low rest, hexValue c = some high ∧ hexValue d = some low ∧ unhex s = some rest ∧
      t = Fin.ofNat 256 (16 * high + low) :: rest := by
  simp only [unhex, Option.bind_eq_bind, Option.bind_eq_some_iff, Option.some.injEq] at h
  obtain ⟨high, hhigh, low, hlow, rest, hrest, rfl⟩ := h
  exact ⟨high, low, rest, hhigh, hlow, hrest, rfl⟩

theorem length_of_unhex {s t : Bytes} (h : unhex s = some t) : s.length = 2 * t.length := by
  induction s using unhex.induct generalizing t with
  | case1 =>
    cases h
    rfl
  | case2 b => cases h
  | case3 c d s ih =>
    obtain ⟨high, low, rest, _, _, hrest, rfl⟩ := unhex_cons_cons h
    have hlength := ih hrest
    simp only [List.length_cons]
    omega

theorem hexValue_lt {b : Byte} {v : Nat} (h : hexValue b = some v) : v < 16 := by
  have h57 : (57 : Byte).val = 57 := rfl
  have h102 : (102 : Byte).val = 102 := rfl
  have h70 : (70 : Byte).val = 70 := rfl
  unfold hexValue at h
  simp only [Fin.le_def] at h
  split_ifs at h <;> simp only [Option.some.injEq] at h <;> omega

theorem isHexDigit_hexDigit {v : Nat} (h : v < 16) : isHexDigit (hexDigit v) = true := by
  interval_cases v <;> rfl

theorem hexDigit_hexValue_iff {b : Byte} {v : Nat} (h : hexValue b = some v) :
    hexDigit v = b ↔ isHexDigit b = true := by
  constructor
  · rintro rfl
    exact isHexDigit_hexDigit (hexValue_lt h)
  · intro hb
    obtain ⟨d, hd, rfl⟩ := exists_hexDigit hb
    have hvalue : hexValue (hexDigit d) = some d := by interval_cases d <;> rfl
    rw [hvalue] at h
    cases h
    rfl

theorem hexByte_ofNat {high low : Nat} (hhigh : high < 16) (hlow : low < 16) :
    hexByte (Fin.ofNat 256 (16 * high + low)) = [hexDigit high, hexDigit low] := by
  have hval : (Fin.ofNat 256 (16 * high + low) : Byte).val = 16 * high + low := by
    simp only [Fin.ofNat]
    omega
  have hq : (16 * high + low) / 16 = high := by omega
  have hr : (16 * high + low) % 16 = low := by omega
  rw [hexByte, hval, hq, hr]

/-- Encoding the bytes of a text gives the text back just as far as it is
written in the digits of the encoder. -/
theorem hex_take_eq_iff {s t : Bytes} (h : unhex s = some t) (n : Nat) :
    hex (t.take n) = s.take (2 * n) ↔ ∀ b ∈ s.take (2 * n), isHexDigit b = true := by
  induction s using unhex.induct generalizing t n with
  | case1 =>
    cases h
    simp [hex]
  | case2 b => cases h
  | case3 c d s ih =>
    obtain ⟨high, low, rest, hhigh, hlow, hrest, rfl⟩ := unhex_cons_cons h
    cases n with
    | zero => simp [hex]
    | succ n =>
      have htake : (c :: d :: s).take (2 * (n + 1)) = c :: d :: s.take (2 * n) := by
        simp [Nat.mul_succ]
      have hhex : hex ((Fin.ofNat 256 (16 * high + low) :: rest).take (n + 1)) =
          hexDigit high :: hexDigit low :: hex (rest.take n) := by
        rw [List.take_succ_cons, hex, List.flatMap_cons,
          hexByte_ofNat (hexValue_lt hhigh) (hexValue_lt hlow)]
        rfl
      rw [htake, hhex]
      simp only [List.cons.injEq, hexDigit_hexValue_iff hhigh, hexDigit_hexValue_iff hlow, ih hrest,
        List.forall_mem_cons]

end Tincan.Library.Numerals
