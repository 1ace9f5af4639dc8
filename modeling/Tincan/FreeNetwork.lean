import Tincan.Library.Countdown
import Tincan.Process

namespace Tincan.FreeNetwork

open Tincan.Library Tincan.Library.Text Tincan.Library.Numerals Tincan.Library.Countdown
open Tincan.Libjingle Tincan.ConnectionManager

def kSegmentSize : Nat := 3

def kSegmentOffset : Nat := 4

def kCmpSize : Nat := 7

def kMaxHost : Nat := 1025

/-- An entry of the list of interfaces. For an IPv4 address it comes with what
`getnameinfo` returns on it, zero unless it fails. -/
inductive Interface
  | noAddress
  | otherFamily
  | inet (addr : Fin (2 ^ 32)) (error : Int)

/-- Comparison of at most `n` characters of two terminated strings. -/
def strncmp (s t : Bytes) (n : Nat) : Ordering := compare ((cutAt 0 s).take n) ((cutAt 0 t).take n)

def overwrite (buf : Bytes) (pos : Nat) (new : Bytes) : Bytes :=
  buf.take pos ++ new ++ buf.drop (pos + new.length)

/-- `snprintf` of a number. The text is cut to leave room for the terminator. -/
def snprintf (buf : Bytes) (pos size : Nat) (i : Int) : Bytes :=
  overwrite buf pos ((decimalInt i).take (size - 1) ++ [0])

/-- The body of the loop, once the name of an address is known. -/
def avoid (ipAddr tmpAddr : Bytes) : Bytes :=
  if strncmp ipAddr tmpAddr kCmpSize = .eq then
    let segment := substr ipAddr kSegmentOffset (kSegmentSize - 1) ++ [0]
    let i := atoi segment - 1
    overwrite (snprintf ipAddr kSegmentOffset kSegmentSize i) (kCmpSize - 1) [46]
  else ipAddr

def visit (ipAddr : Bytes) : Interface → Bytes
  | .inet addr error => if error = 0 then avoid ipAddr (dotted addr ++ [0]) else ipAddr
  | _ => ipAddr

/-- The status and the buffer. `none` is a list that cannot be had. -/
def getFreeNetworkIp (interfaces : Option (List Interface)) (ipAddr : Bytes) : Int × Bytes :=
  match interfaces with
  | none => (-1, ipAddr)
  | some interfaces => (0, interfaces.foldl visit ipAddr)

def ipBuffer : Bytes := kIpv4 ++ List.replicate (kMaxHost - kIpv4.length) 0

def mainIp (interfaces : Option (List Interface)) : Bytes :=
  let (status, ipAddr) := getFreeNetworkIp interfaces ipBuffer
  if status = 0 then cutAt 0 ipAddr else kIpv4

def chosen (interfaces : List Interface) : Bytes :=
  cutAt 0 (getFreeNetworkIp (some interfaces) ipBuffer).2

def addresses (interfaces : List Interface) : List (Fin (2 ^ 32)) :=
  interfaces.filterMap fun
    | .inet addr error => if error = 0 then some addr else none
    | _ => none

/-- A default network that no interface is in. -/
structure WellChosen (ip : Bytes) (addrs : List (Fin (2 ^ 32))) : Prop where
  wellFormed : ∃ n, 10 ≤ n ∧ n < 100 ∧ ip = bytes "172." ++ decimal n ++ bytes ".0.100"
  free : ∀ a ∈ addrs, (dotted a).take kCmpSize ≠ ip.take kCmpSize

def networks (addrs : List (Fin (2 ^ 32))) : List Nat :=
  addrs.filterMap (fun a => if a.val / 2 ^ 24 = 172 then some (a.val / 2 ^ 16 % 256) else none)

def networkPrefix (n : Nat) : Bytes := bytes "172" ++ 46 :: (decimal n ++ [46])

/-- The address while the loop is at a number. The terminator of the print is
only overwritten as long as the number has two digits. -/
def addressAt (n : Nat) : Bytes :=
  bytes "172." ++ decimal n ++ (if n < 10 then [0] else []) ++ bytes ".0.100"

def bufferAt (n : Nat) : Bytes := addressAt n ++ List.replicate (kMaxHost - kIpv4.length) 0

theorem bufferAt_start : bufferAt 31 = ipBuffer := rfl

section

variable {n : Nat} {a : Fin (2 ^ 32)}

theorem strncmp_eq_iff {s t : Bytes} {n : Nat} :
    strncmp s t n = .eq ↔ (cutAt 0 s).take n = (cutAt 0 t).take n := by simp [strncmp]

theorem dot_notMem_decimal (n : Nat) : (46 : Byte) ∉ decimal n :=
  fun h => absurd (isDigit_of_mem_decimal h) (by decide)

theorem null_notMem_decimal (n : Nat) : (0 : Byte) ∉ decimal n :=
  fun h => absurd (isDigit_of_mem_decimal h) (by decide)

theorem length_networkPrefix (h : 10 ≤ n) (h' : n < 100) : (networkPrefix n).length = kCmpSize := by
  simp [networkPrefix, length_decimal_two h h', bytes, kCmpSize]

theorem take_dotted_iff (h : 10 ≤ n) (h' : n < 100) :
    (dotted a).take kCmpSize = networkPrefix n ↔ a.val / 2 ^ 24 = 172 ∧ a.val / 2 ^ 16 % 256 = n := by
  have hdotted : ∃ rest, dotted a =
      decimal (a.val / 2 ^ 24) ++ 46 :: (decimal (a.val / 2 ^ 16 % 256) ++ 46 :: rest) :=
    ⟨decimal (a.val / 2 ^ 8 % 256) ++ 46 :: decimal (a.val % 256), by simp [dotted, List.intercalate]⟩
  obtain ⟨rest, hrest⟩ := hdotted
  constructor
  · intro htake
    have hsplit : dotted a = decimal 172 ++ 46 :: (decimal n ++ 46 :: (dotted a).drop kCmpSize) := by
      conv_lhs => rw [← List.take_append_drop kCmpSize (dotted a), htake]
      simp [networkPrefix, show bytes "172" = decimal 172 from rfl]
    rw [hrest] at hsplit
    obtain ⟨hfirst, htail⟩ := field_inj (dot_notMem_decimal _) (dot_notMem_decimal _) hsplit
    obtain ⟨hsecond, _⟩ := field_inj (dot_notMem_decimal _) (dot_notMem_decimal _) htail
    exact ⟨decimal_injective hfirst, decimal_injective hsecond⟩
  · rintro ⟨hfirst, hsecond⟩
    have hbegins : dotted a = networkPrefix n ++ rest := by
      rw [hrest, hfirst, hsecond]
      simp [networkPrefix, show bytes "172" = decimal 172 from rfl]
    rw [hbegins, ← length_networkPrefix h h', List.take_left]

theorem overwrite_piece (front rest : Bytes) {old new : Bytes} (h : old.length = new.length) :
    overwrite (front ++ old ++ rest) front.length new = front ++ new ++ rest := by
  rw [overwrite, ← h, ← List.length_append, List.drop_left, List.append_assoc front old,
    List.take_left]

theorem segment_address (rest : Bytes) (h : 10 ≤ n) (h' : n < 100) :
    atoi (substr (bytes "172." ++ decimal n ++ rest) kSegmentOffset (kSegmentSize - 1) ++ [0]) = n := by
  have hlength : kSegmentSize - 1 = (decimal n).length := (length_decimal_two h h').symm
  have hsubstr :
      substr (bytes "172." ++ decimal n ++ rest) kSegmentOffset (kSegmentSize - 1) = decimal n := by
    rw [List.append_assoc, show kSegmentOffset = (bytes "172.").length from rfl, substr_append_length,
      hlength, List.take_left]
  rw [hsubstr, atoi_decimal_append (by omega), Int.bmod_def]
  · omega
  · rintro b r ⟨⟩
    rfl

theorem overwrite_address (tail : Bytes) (h : 10 ≤ n) (h' : n < 100) :
    overwrite (snprintf (addressAt n ++ tail) kSegmentOffset kSegmentSize (n - 1)) (kCmpSize - 1) [46] =
      addressAt (n - 1) ++ tail := by
  obtain hten | hmore : n = 10 ∨ 10 ≤ n - 1 := by omega
  · subst hten
    rfl
  · have hprint : (decimalInt (n - 1)).take (kSegmentSize - 1) = decimal (n - 1) := by
      rw [show (n : Int) - 1 = (n - 1 : Nat) by omega, decimalInt_ofNat]
      exact List.take_of_length_le (length_decimal_two hmore (by omega)).le
    have hold : addressAt n ++ tail =
        bytes "172." ++ (decimal n ++ [46]) ++ (bytes "0.100" ++ tail) := by
      rw [addressAt, if_neg (by omega)]
      simp [bytes]
    have hnew : addressAt (n - 1) ++ tail =
        bytes "172." ++ decimal (n - 1) ++ [46] ++ (bytes "0.100" ++ tail) := by
      rw [addressAt, if_neg (by omega)]
      simp [bytes]
    have hlength : (decimal n ++ [46]).length = (decimal (n - 1) ++ [0]).length := by
      rw [List.length_append, List.length_append, length_decimal_two h h',
        length_decimal_two hmore (by omega)]
      rfl
    have hdot : kCmpSize - 1 = (bytes "172." ++ decimal (n - 1)).length := by
      rw [List.length_append, length_decimal_two hmore (by omega)]
      rfl
    have hone : ([0] : Bytes).length = ([46] : Bytes).length := rfl
    rw [snprintf, hprint, hold, show kSegmentOffset = (bytes "172.").length from rfl,
      overwrite_piece _ _ hlength, ← List.append_assoc (bytes "172."), hdot, overwrite_piece _ _ hone, hnew]

theorem cutAt_bufferAt (n : Nat) : cutAt 0 (bufferAt n) =
    if n < 10 then bytes "172." ++ decimal n else bytes "172." ++ decimal n ++ bytes ".0.100" := by
  have hfront : (0 : Byte) ∉ bytes "172." ++ decimal n := by
    rw [List.mem_append, not_or]
    exact ⟨by decide, null_notMem_decimal n⟩
  rw [bufferAt, addressAt, List.append_assoc, List.append_assoc, cutAt_append _ hfront]
  split
  · rw [List.singleton_append, cutAt_cons_self, List.append_nil]
  · rw [List.nil_append, cutAt_append _ (by decide), show kMaxHost - kIpv4.length = 1012 + 1 from rfl,
      List.replicate_succ, cutAt_cons_self, List.append_nil]

theorem take_bufferAt (h : 10 ≤ n) (h' : n < 100) :
    (cutAt 0 (bufferAt n)).take kCmpSize = networkPrefix n := by
  have hsplit : bytes "172." ++ decimal n ++ bytes ".0.100" = networkPrefix n ++ bytes "0.100" := by
    simp [networkPrefix, bytes]
  rw [cutAt_bufferAt, if_neg (by omega), hsplit, ← length_networkPrefix h h', List.take_left]

theorem cutAt_dotted (a : Fin (2 ^ 32)) : cutAt 0 (dotted a ++ [0]) = dotted a := by
  have hnull : (0 : Byte) ∉ dotted a := by
    intro h
    obtain h | ⟨f, hf, h⟩ := mem_intercalate h
    · exact absurd h (by decide)
    · simp only [List.mem_cons, List.not_mem_nil, or_false] at hf
      obtain rfl | rfl | rfl | rfl := hf <;> exact null_notMem_decimal _ h
  rw [cutAt_append _ hnull, cutAt_cons_self, List.append_nil]

theorem length_take_dotted (a : Fin (2 ^ 32)) : ((dotted a).take kCmpSize).length = kCmpSize := by
  have hpos : ∀ n, 0 < (decimal n).length := fun n => List.length_pos_of_ne_nil (decimal_ne_nil n)
  have hlength : kCmpSize ≤ (dotted a).length := by
    have h₁ := hpos (a.val / 2 ^ 24)
    have h₂ := hpos (a.val / 2 ^ 16 % 256)
    have h₃ := hpos (a.val / 2 ^ 8 % 256)
    have h₄ := hpos (a.val % 256)
    simp only [dotted, List.intercalate, List.intersperse_cons_cons, List.intersperse_singleton,
      List.flatten_cons, List.flatten_nil, List.length_append, List.length_singleton, List.length_nil,
      kCmpSize]
    omega
  rw [List.length_take, min_eq_left hlength]

theorem matches_iff (h : 9 ≤ n) (h' : n < 100) :
    strncmp (bufferAt n) (dotted a ++ [0]) kCmpSize = .eq ↔
      (a.val / 2 ^ 24 = 172 ∧ a.val / 2 ^ 16 % 256 = n) ∧ 9 < n := by
  rw [strncmp_eq_iff, cutAt_dotted]
  obtain hnine | hten : n = 9 ∨ 10 ≤ n := by omega
  · subst hnine
    refine iff_of_false ?_ (by omega)
    intro he
    have hlength := congrArg List.length he
    rw [length_take_dotted] at hlength
    exact absurd hlength (by decide)
  · rw [take_bufferAt hten h', and_iff_left (by omega), ← take_dotted_iff hten h']
    exact eq_comm

theorem avoid_bufferAt (h : 9 ≤ n) (h' : n < 100) (a : Fin (2 ^ 32)) :
    avoid (bufferAt n) (dotted a ++ [0]) =
      bufferAt (if (a.val / 2 ^ 24 = 172 ∧ a.val / 2 ^ 16 % 256 = n) ∧ 9 < n then n - 1 else n) := by
  by_cases hmatch : (a.val / 2 ^ 24 = 172 ∧ a.val / 2 ^ 16 % 256 = n) ∧ 9 < n
  · have hsegment : atoi (substr (bufferAt n) kSegmentOffset (kSegmentSize - 1) ++ [0]) = n := by
      rw [bufferAt, addressAt, List.append_assoc, List.append_assoc]
      exact segment_address _ hmatch.2 h'
    rw [if_pos hmatch, avoid, if_pos ((matches_iff h h').mpr hmatch)]
    dsimp only
    rw [hsegment]
    exact overwrite_address _ hmatch.2 h'
  · rw [if_neg hmatch, avoid, if_neg (mt (matches_iff h h').mp hmatch)]

theorem loop_bufferAt (interfaces : List Interface) (h : 9 ≤ n) (h' : n < 100) :
    interfaces.foldl visit (bufferAt n) = bufferAt (countdown 9 n (networks (addresses interfaces))) := by
  induction interfaces generalizing n with
  | nil => rfl
  | cons interface interfaces ih =>
    rw [List.foldl_cons]
    cases interface with
    | noAddress | otherFamily => exact ih h h'
    | inet a error =>
      by_cases herror : error = 0
      · have hlist : addresses (.inet a error :: interfaces) = a :: addresses interfaces := by
          simp [addresses, herror]
        rw [visit, if_pos herror, avoid_bufferAt h h', hlist]
        by_cases hfirst : a.val / 2 ^ 24 = 172
        · have hnetworks : networks (a :: addresses interfaces) =
              a.val / 2 ^ 16 % 256 :: networks (addresses interfaces) := by
            rw [networks, List.filterMap_cons, if_pos hfirst]
            rfl
          rw [hnetworks, countdown_cons, ← ih (by split <;> omega) (by split <;> omega)]
          simp only [hfirst, true_and]
        · have hnetworks : networks (a :: addresses interfaces) = networks (addresses interfaces) := by
            rw [networks, List.filterMap_cons, if_neg hfirst]
            rfl
          rw [hnetworks, if_neg (fun hboth => hfirst hboth.1.1), ih h h']
      · have hlist : addresses (.inet a error :: interfaces) = addresses interfaces := by
          simp [addresses, herror]
        rw [visit, if_neg herror, hlist, ih h h']

theorem mem_networks {addrs : List (Fin (2 ^ 32))} :
    n ∈ networks addrs ↔ ∃ a ∈ addrs, a.val / 2 ^ 24 = 172 ∧ a.val / 2 ^ 16 % 256 = n := by
  simp only [networks, List.mem_filterMap, Option.ite_none_right_eq_some, Option.some.injEq]

theorem wellChosen_iff (addrs : List (Fin (2 ^ 32))) (h' : n < 100) :
    WellChosen (cutAt 0 (bufferAt n)) addrs ↔ 10 ≤ n ∧ n ∉ networks addrs := by
  obtain hlow | hten : n < 10 ∨ 10 ≤ n := by omega
  · refine iff_of_false ?_ (by omega)
    rintro ⟨⟨k, hk, hk', htext⟩, _⟩
    have hlength := congrArg List.length htext
    rw [cutAt_bufferAt, if_pos hlow, decimal_digit hlow, List.length_append, List.length_append,
      List.length_append, length_decimal_two hk hk', List.length_singleton] at hlength
    exact absurd hlength (by decide)
  · have htext : cutAt 0 (bufferAt n) = bytes "172." ++ decimal n ++ bytes ".0.100" := by
      rw [cutAt_bufferAt, if_neg (by omega)]
    rw [mem_networks, and_iff_right hten]
    constructor
    · rintro hchosen ⟨a, ha, hin⟩
      refine hchosen.free a ha ?_
      rw [take_bufferAt hten h', (take_dotted_iff hten h').mpr hin]
    · intro hfree
      refine ⟨⟨n, hten, h', htext⟩, ?_⟩
      intro a ha he
      rw [take_bufferAt hten h', take_dotted_iff hten h'] at he
      exact hfree ⟨a, ha, he⟩

end

theorem chosen_eq (interfaces : List Interface) :
    chosen interfaces = cutAt 0 (bufferAt (countdown 9 31 (networks (addresses interfaces)))) := by
  rw [chosen, getFreeNetworkIp, ← bufferAt_start, loop_bufferAt interfaces (by omega) (by omega)]

/-- The process starts with the address that was chosen. -/
theorem initial_chosen (tiebreaker : Fin (2 ^ 64)) (kTapName mac : Bytes)
    (logging : ControllerAccess.LoggingSeverity) (xmppState : Xmpp.EngineState) (onMsgCounter : Int)
    (interfaces : List Interface) :
    Process.Initial (Process.State.new tiebreaker kTapName (mainIp (some interfaces)) mac logging xmppState
      onMsgCounter) ∧ mainIp (some interfaces) = chosen interfaces :=
  ⟨⟨_, _, _, _, _, _, _, rfl⟩, rfl⟩

/-- The network is free and its address well formed just if the networks above
the highest free one come in descending order in the list, and this one has two
digits: the list is gone through once, for a number that changes on the way. -/
theorem well_chosen_iff_descending (interfaces : List Interface) :
    (getFreeNetworkIp (some interfaces) ipBuffer).1 = 0 ∧
    (WellChosen (chosen interfaces) (addresses interfaces) ↔
      ∃ n, 10 ≤ n ∧ n ≤ 31 ∧ n ∉ networks (addresses interfaces) ∧
        (descent 31 n).Sublist (networks (addresses interfaces))) := by
  refine ⟨rfl, ?_⟩
  obtain ⟨hlow, hhigh⟩ := countdown_bounds (show 9 ≤ 31 by omega) (networks (addresses interfaces))
  rw [chosen_eq, wellChosen_iff _ (by omega)]
  constructor
  · rintro ⟨hten, hfree⟩
    exact ⟨_, hten, hhigh, hfree, (countdown_eq_iff hlow hhigh hfree).mp rfl⟩
  · rintro ⟨n, hten, hle, hfree, hdescent⟩
    rw [(countdown_eq_iff (by omega) hle hfree).mpr hdescent]
    exact ⟨hten, hfree⟩

def interfaceIn (n : Nat) : Interface := .inet (Fin.ofNat (2 ^ 32) (172 * 2 ^ 24 + n * 2 ^ 16 + 1)) 0

/-- The lower network comes first in the list, and every two-digit network from
31 down is taken. -/
theorem taken_or_malformed :
    (chosen [interfaceIn 30, interfaceIn 31] = bytes "172.30.0.100" ∧
      ¬WellChosen (chosen [interfaceIn 30, interfaceIn 31]) (addresses [interfaceIn 30, interfaceIn 31])) ∧
    chosen ((descent 31 9).map interfaceIn) = bytes "172.9" ∧
      ¬WellChosen (chosen ((descent 31 9).map interfaceIn))
        (addresses ((descent 31 9).map interfaceIn)) := by
  have hcrossed : networks (addresses [interfaceIn 30, interfaceIn 31]) = [30, 31] := rfl
  have hcrowded : networks (addresses ((descent 31 9).map interfaceIn)) = descent 31 9 := rfl
  rw [chosen_eq, chosen_eq, hcrossed, hcrowded]
  refine ⟨⟨?_, ?_⟩, ?_, ?_⟩
  · rw [show countdown 9 31 [30, 31] = 30 from rfl, cutAt_bufferAt]
    rfl
  · rw [wellChosen_iff _ (by decide), hcrossed]
    decide
  · rw [show countdown 9 31 (descent 31 9) = 9 from rfl, cutAt_bufferAt]
    rfl
  · rw [wellChosen_iff _ (by decide)]
    decide

end Tincan.FreeNetwork
