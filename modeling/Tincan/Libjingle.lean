import Tincan.Library.Numerals

namespace Tincan.Libjingle

open Tincan.Library Tincan.Library.Text

-- As for bytes: one instance for the literals of each width.
instance (priority := high) portNeZero : NeZero 65536 := ⟨by decide⟩

instance (priority := high) uint32NeZero : NeZero (2 ^ 32) := ⟨by decide⟩

instance (priority := high) uint64NeZero : NeZero (2 ^ 64) := ⟨by decide⟩

abbrev Ptr := Nat

def null : Ptr := 0

inductive IPAddress
  | unspec
  | v4 (addr : Fin (2 ^ 32))
  | v6 (addr : Fin (2 ^ 128))
  deriving DecidableEq

inductive AddressFamily
  | unspec
  | inet
  | inet6
  deriving DecidableEq

structure SocketAddress where
  hostname : Bytes
  ip : IPAddress
  port : Fin 65536
  deriving DecidableEq

def SocketAddress.family (a : SocketAddress) : AddressFamily :=
  match a.ip with
  | .unspec => .unspec
  | .v4 _ => .inet
  | .v6 _ => .inet6

structure SSLIdentity where
  certificate : Bytes
  deriving DecidableEq

structure SSLFingerprint where
  digest : Bytes
  deriving DecidableEq

structure Candidate where
  id : Bytes
  component : Int
  protocol : Bytes
  address : SocketAddress
  priority : Fin (2 ^ 32)
  username : Bytes
  password : Bytes
  type : Bytes
  networkName : Bytes
  generation : Fin (2 ^ 32)
  foundation : Bytes
  deriving DecidableEq

inductive IceRole
  | controlling
  | controlled
  deriving DecidableEq

inductive IceMode
  | full
  | lite
  deriving DecidableEq

inductive ConnectionRole
  | none
  | active
  | passive
  | actpass
  | holdconn
  deriving DecidableEq

inductive ContentAction
  | offer
  | pranswer
  | answer
  deriving DecidableEq

structure TransportDescription where
  transportType : Bytes
  transportOptions : List Bytes
  iceUfrag : Bytes
  icePwd : Bytes
  iceMode : IceMode
  connectionRole : ConnectionRole
  fingerprint : Option SSLFingerprint
  candidates : List Candidate
  deriving DecidableEq

inductive ProtocolType
  | udp
  | tcp
  deriving DecidableEq

structure RelayServerConfig where
  address : SocketAddress
  proto : ProtocolType
  username : Bytes
  password : Bytes
  deriving DecidableEq

structure PortAllocator where
  stunAddress : SocketAddress
  flags : Nat
  relays : List RelayServerConfig
  deriving DecidableEq

inductive TransportKind
  | p2p
  | dtls (identity : Option SSLIdentity)
  deriving DecidableEq

/-- What the program sees of a transport object. `channel` is the channel of
the default component, the only one that is ever created. -/
structure Transport where
  kind : TransportKind
  contentName : Bytes
  channel : Option Ptr
  readable : Bool
  writable : Bool
  wasWritable : Bool
  iceTiebreaker : Option (Fin (2 ^ 64))
  iceRole : Option IceRole
  localDescription : Option (TransportDescription × ContentAction)
  remoteDescription : Option (TransportDescription × ContentAction)
  connecting : Bool
  remoteCandidates : List Candidate
  deriving DecidableEq

/-- The library calls whose code is not part of the program. -/
structure Api where
  hexEncode : Bytes → Bytes
  /-- The buffer to decode into and the text; the number of bytes decoded,
  zero for an error, and the buffer as it is left. -/
  hexDecode : Bytes → Bytes → Nat × Bytes
  split : Bytes → Byte → List Bytes
  ipToString : IPAddress → Bytes
  /-- `SocketAddress(hostname, port)`. -/
  socketAddress : Bytes → Int → SocketAddress
  /-- `SocketAddress::FromString` on an address that was just constructed. -/
  fromString : Bytes → SocketAddress
  setIP : SocketAddress → Bytes → SocketAddress
  setPort : SocketAddress → Int → SocketAddress
  nsJingleIceUdp : Bytes
  generateIdentity : Bytes → Option SSLIdentity
  createFingerprint : Option SSLIdentity → Option SSLFingerprint
  getRfc4572Fingerprint : SSLFingerprint → Bytes
  createFromRfc4572 : Bytes → Option SSLFingerprint

/-- `hex_encode` writes two lowercase digits for each byte. -/
def Api.HexEncodes (L : Api) : Prop := ∀ s, L.hexEncode s = Numerals.hex s

/-- `hex_decode` reads pairs of digits of either case, if the buffer has room for the bytes. -/
def Api.HexDecodes (L : Api) : Prop := ∀ buf s bs, Numerals.unhex s = some bs →
  bs.length ≤ buf.length → L.hexDecode buf s = (bs.length, bs ++ buf.drop bs.length)

def Api.Splits (L : Api) : Prop := ∀ s sep, L.split s sep = s.splitOn sep

/-- `SetIP` replaces the name and the address, and `SetPort` the port. -/
structure Api.SetsFields (L : Api) : Prop where
  setIP : ∃ ip : Bytes → IPAddress, ∀ a host, L.setIP a host = { a with hostname := host, ip := ip host }
  setPort : ∃ port : Int → Fin 65536, ∀ a n, L.setPort a n = { a with port := port n }

/-- Dotted text of an IPv4 address consists of digits and dots and is read
back as the same address. -/
structure Api.ReadsDotted (L : Api) : Prop where
  chars : ∀ a, ∀ b ∈ L.ipToString (.v4 a), Numerals.isDigit b = true ∨ b = 46
  ip : ∀ a port, (L.socketAddress (L.ipToString (.v4 a)) port).ip = .v4 a
  port : ∀ a (port : Fin 65536), (L.socketAddress (L.ipToString (.v4 a)) port.val).port = port

def dotted (a : Fin (2 ^ 32)) : Bytes :=
  [46].intercalate [Numerals.decimal (a.val / 2 ^ 24), Numerals.decimal (a.val / 2 ^ 16 % 256),
    Numerals.decimal (a.val / 2 ^ 8 % 256), Numerals.decimal (a.val % 256)]

def parseDotted (s : Bytes) : IPAddress :=
  match s.splitOn 46 with
  | [a, b, c, d] =>
    if [a, b, c, d].all (fun f => !f.isEmpty && f.all Numerals.isDigit) then
      .v4 (Fin.ofNat (2 ^ 32) (((Numerals.digitsValue a * 256 + Numerals.digitsValue b) * 256 +
        Numerals.digitsValue c) * 256 + Numerals.digitsValue d))
    else .unspec
  | _ => .unspec

/-- One library that behaves as documented on the inputs the program gives it
most: identities are never refused, and only IPv4 text is understood. -/
def Api.plain : Api where
  hexEncode := Numerals.hex
  hexDecode buf s := match Numerals.unhex s with
    | some bs => if bs.length ≤ buf.length then (bs.length, bs ++ buf.drop bs.length) else (0, buf)
    | none => (0, buf)
  split s sep := s.splitOn sep
  ipToString
    | .v4 a => dotted a
    | .v6 a => Numerals.decimal a
    | .unspec => []
  socketAddress host port := ⟨host, parseDotted host, Fin.ofNat 65536 (port % 65536).toNat⟩
  fromString s := ⟨s, parseDotted s, 0⟩
  setIP a host := { a with hostname := host, ip := parseDotted host }
  setPort a port := { a with port := Fin.ofNat 65536 (port % 65536).toNat }
  nsJingleIceUdp := bytes "urn:xmpp:jingle:transports:ice-udp:1"
  generateIdentity name := some ⟨name⟩
  createFingerprint identity := identity.map (fun i => ⟨i.certificate⟩)
  getRfc4572Fingerprint f := [58].intercalate (f.digest.map Numerals.hexByte)
  createFromRfc4572 s := (Numerals.unhex (s.filter (fun b => b != 58))).map SSLFingerprint.mk

theorem plain_hexEncodes : Api.plain.HexEncodes := fun _ => rfl

theorem plain_hexDecodes : Api.plain.HexDecodes := by
  intro buf s bs hs hroom
  simp [Api.plain, hs, hroom]

theorem plain_splits : Api.plain.Splits := fun _ _ => rfl

theorem plain_setsFields : Api.plain.SetsFields := ⟨⟨_, fun _ _ => rfl⟩, ⟨_, fun _ _ => rfl⟩⟩

theorem plain_readsDotted : Api.plain.ReadsDotted := by
  have hdigits : ∀ n, ∀ b ∈ Numerals.decimal n, Numerals.isDigit b = true :=
    fun n b hb => Numerals.isDigit_of_mem_decimal hb
  constructor
  · intro a b hb
    obtain h | ⟨f, hf, h⟩ := mem_intercalate hb
    · exact .inr (by simpa using h)
    · simp only [List.mem_cons, List.not_mem_nil, or_false] at hf
      obtain rfl | rfl | rfl | rfl := hf <;> exact .inl (hdigits _ b h)
  · intro a port
    have hdot : ∀ n, (46 : Byte) ∉ Numerals.decimal n :=
      fun n h => absurd (hdigits n 46 h) (by decide)
    have hempty : ∀ n, (Numerals.decimal n).isEmpty = false :=
      fun n => by simpa using Numerals.decimal_ne_nil n
    have hall : ∀ n, (Numerals.decimal n).all Numerals.isDigit = true :=
      fun n => by simpa using hdigits n
    change parseDotted (dotted a) = .v4 a
    unfold parseDotted dotted
    rw [List.splitOn_intercalate 46 (by simp [hdot]) (by simp)]
    simp only [List.all_cons, List.all_nil, hempty, hall, Bool.not_false, Bool.and_self, ↓reduceIte,
      Numerals.digitsValue_decimal, IPAddress.v4.injEq]
    apply Fin.ext
    simp only [Fin.ofNat]
    omega
  · intro a port
    apply Fin.ext
    simp only [Api.plain, Fin.ofNat]
    omega

end Tincan.Libjingle
