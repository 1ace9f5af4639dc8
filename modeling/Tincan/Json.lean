import Tincan.Library.Numerals

namespace Tincan.Json

open Tincan.Library.Text

inductive Value
  | null
  | boolean (b : Bool)
  | int (i : Int)
  | string (s : Bytes)
  | array (items : List Value)
  | object (members : List (Bytes × Value))

/-- Assignment to a member: an old one is overwritten where it stands. -/
def set (members : List (Bytes × Value)) (key : Bytes) (value : Value) : List (Bytes × Value) :=
  if key ∈ members.map Prod.fst then
    members.map (fun m => if m.1 = key then (key, value) else m)
  else members ++ [(key, value)]

theorem mem_set {members : List (Bytes × Value)} {key k : Bytes} {value v : Value}
    (h : (k, v) ∈ set members key value) : (k = key ∧ v = value) ∨ (k, v) ∈ members := by
  unfold set at h
  split at h
  · obtain ⟨m, hm, he⟩ := List.mem_map.mp h
    split at he
    · cases he
      exact .inl ⟨rfl, rfl⟩
    · exact .inr (he ▸ hm)
  · obtain hold | hnew := List.mem_append.mp h
    · exact .inr hold
    · cases List.mem_singleton.mp hnew
      exact .inl ⟨rfl, rfl⟩

theorem lookup_set_of_ne {members : List (Bytes × Value)} {key k : Bytes} (value : Value) (hk : k ≠ key) :
    (set members key value).lookup k = members.lookup k := by
  have hmap : (members.map (fun m => if m.1 = key then (key, value) else m)).lookup k =
      members.lookup k := by
    induction members with
    | nil => rfl
    | cons m members ih =>
      rw [List.map_cons, List.lookup_cons, List.lookup_cons, ih]
      by_cases hm : m.1 = key
      · have hfirst : (k == m.1) = false := by simpa [hm] using hk
        have hnew : (k == key) = false := by simpa using hk
        rw [if_pos hm, hfirst, hnew]
      · rw [if_neg hm]
  unfold set
  split
  · exact hmap
  · have hnew : (k == key) = false := by simpa using hk
    rw [List.lookup_append, List.lookup_cons, hnew]
    simp

/-- The library calls on values that the program makes. Accessors that meet a
value of the wrong type do not return. -/
structure Api where
  /-- Whether the reader accepts the text, and what it leaves in the root. -/
  parse : Bytes → Bool × Value
  index : Value → Bytes → Option Value
  isMember : Value → Bytes → Option Bool
  asString : Value → Option Bytes
  asInt : Value → Option Int
  asBool : Value → Option Bool
  size : Value → Nat
  isArray : Value → Bool
  item : Value → Nat → Option Value
  toStyledString : Value → Bytes

def Api.string (J : Api) (root : Value) (key : Bytes) : Option Bytes :=
  (J.index root key).bind J.asString

def Api.int (J : Api) (root : Value) (key : Bytes) : Option Int :=
  (J.index root key).bind J.asInt

def Api.bool (J : Api) (root : Value) (key : Bytes) : Option Bool :=
  (J.index root key).bind J.asBool

def member : Value → Bytes → Option Value
  | .null, _ => some .null
  | .object members, key => some ((members.lookup key).getD .null)
  | _, _ => none

def hasMember : Value → Bytes → Option Bool
  | .null, _ => some false
  | .object members, key => some (members.lookup key).isSome
  | _, _ => none

def toText : Value → Option Bytes
  | .null => some []
  | .boolean b => some (if b then bytes "true" else bytes "false")
  | .string s => some s
  | _ => none

def toInt : Value → Option Int
  | .null => some 0
  | .boolean b => some (if b then 1 else 0)
  | .int i => some i
  | _ => none

def toBool : Value → Option Bool
  | .null => some false
  | .boolean b => some b
  | .int i => some (i != 0)
  | .string s => some (!s.isEmpty)
  | .array items => some (!items.isEmpty)
  | .object members => some (!members.isEmpty)

def length : Value → Nat
  | .array items => items.length
  | .object members => members.length
  | _ => 0

def isList : Value → Bool
  | .array _ => true
  | _ => false

def itemAt : Value → Nat → Option Value
  | .null, _ => some .null
  | .array items, i => some (items[i]?.getD .null)
  | _, _ => none

def Api.over (parse : Bytes → Bool × Value) (toStyledString : Value → Bytes) : Api where
  parse := parse
  index := member
  isMember := hasMember
  asString := toText
  asInt := toInt
  asBool := toBool
  size := length
  isArray := isList
  item := itemAt
  toStyledString := toStyledString

end Tincan.Json
