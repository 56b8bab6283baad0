import Mathlib.Data.List.Basic
import P2PObserver.Addresses.Base32

/-! # Parsing addresses

One parser reads the five forms an address is printed in, and the addresses gossip brings are
brought to the same form.
-/

namespace P2PObserver

structure SocketAddr where
  ip : IpAddr
  port : UInt16
  deriving DecidableEq

/-- The socket addresses of the standard library, which read back what they print. -/
class SocketText extends AddrText where
  /-- `str::parse::<SocketAddr>`. -/
  socketAddr : String → Option SocketAddr
  socketAddr_v4 : ∀ (ip : Bytes 4) (port : UInt16),
    socketAddr (ipv4 ip ++ ":" ++ toString port.toNat) = some ⟨.v4 ip, port⟩
  socketAddr_v6 : ∀ (ip : Bytes 16) (port : UInt16),
    socketAddr ("[" ++ ipv6 ip ++ "]" ++ ":" ++ toString port.toNat) = some ⟨.v6 ip, port⟩
  ipv4_chars : ∀ (ip : Bytes 4), ∀ char ∈ (ipv4 ip).toList, char.isDigit ∨ char = '.'
  ipv6_chars : ∀ (ip : Bytes 16), ∀ char ∈ (ipv6 ip).toList, char.toLower = char

/-- `Ipv6Addr::to_ipv4_mapped`. -/
def toIpv4Mapped (ip : Bytes 16) : Option (Bytes 4) :=
  if ip.val.take 12 = [0, 0, 0, 0, 0, 0, 0, 0, 0, 0, 0xff, 0xff] then
    some ⟨ip.val.drop 12, by rw [List.length_drop, ip.property]⟩
  else none

/-- Splits at the last separator. -/
def rsplitOnce (sep : Char) : List Char → Option (List Char × List Char)
  | [] => none
  | char :: rest =>
      match rsplitOnce sep rest with
      | some (front, back) => some (char :: front, back)
      | none => if char = sep then some ([], rest) else none

/-- A number may start with a plus sign. -/
def dropSign : List Char → List Char
  | '+' :: rest => rest
  | s => s

/-- A printed number is digits, none of which is taken for a sign. -/
theorem dropSign_toDigits (n : Nat) : dropSign (Nat.toDigits 10 n) = Nat.toDigits 10 n ∧
    (Nat.toDigits 10 n).all Char.isDigit = true := by
  have figures : ∀ char ∈ Nat.toDigits 10 n, char.isDigit := fun char listed =>
    Nat.isDigit_of_mem_toDigits (by decide) (by decide) listed
  refine ⟨?_, List.all_eq_true.mpr figures⟩
  unfold dropSign
  split
  · rename_i rest begins
    have sign := figures '+' (by rw [begins]; exact List.mem_cons_self)
    exact absurd sign (by decide)
  · rfl

/-- `str::parse` of an unsigned type with so many values. -/
def parseUnsigned (values : Nat) (s : List Char) : Option Nat :=
  let digits := dropSign s
  if digits.isEmpty || !digits.all Char.isDigit then none
  else
    let n := Nat.ofDigitChars 10 digits 0
    if n < values then some n else none

theorem parseUnsigned_toDigits {n values : Nat} (fits : n < values) :
    parseUnsigned values (Nat.toDigits 10 n) = some n := by
  obtain ⟨spelled, all⟩ := dropSign_toDigits n
  simp [parseUnsigned, spelled, all, fits]

/-- `str::parse::<u16>`. -/
def parsePort (s : List Char) : Option UInt16 := (parseUnsigned 65536 s).map Nat.toUInt16

namespace PeerAddr

def fromSocketAddr (sa : SocketAddr) : PeerAddr :=
  match sa.ip with
  | .v4 ip => .ipv4 ip sa.port
  | .v6 ip =>
      -- An IPv4-mapped address is an IPv4 peer, not an IPv6 one.
      match toIpv4Mapped ip with
      | some v4 => .ipv4 v4 sa.port
      | none => if ip.at 0 = 0xfc then .cjdns ip sa.port else .ipv6 ip sa.port

end PeerAddr

/-- The key a host names, checked by rendering it again. -/
def onionKey [AddrText] (host : List Char) : Option (Bytes 32) :=
  match host.dropSuffix? ".onion".toList with
  | none => none
  | some name =>
      match base32Decode name with
      | none => none
      | some raw =>
          if long : raw.length = 35 then
            let key : Bytes 32 := ⟨raw.take 32, by rw [List.length_take, long]; rfl⟩
            if (onionHost key).toList = host then some key else none
          else none

def i2pHash (b32 : List Char) : Option (Bytes 32) :=
  match base32Decode b32 with
  | none => none
  | some hash => if long : hash.length = 32 then some ⟨hash, long⟩ else none

namespace PeerAddr

variable [SocketText]

/-- Neither prefixed nor suffixed: a socket address in its own right. -/
def parseSocket (lower : List Char) : Option PeerAddr :=
  (SocketText.socketAddr (String.ofList lower)).map fromSocketAddr

/-- A host and a port, told apart by how the host ends. -/
def parseHost (lower host : List Char) (port : UInt16) : Option PeerAddr :=
  match host.dropSuffix? ".b32.i2p".toList with
  | some b32 => (i2pHash b32).map (.i2p · port)
  | none =>
      if ".onion".toList.isSuffixOf host then (onionKey host).map (.torV3 · port)
      else parseSocket lower

/-- The parser after the text is lowered. -/
def parseLower (lower : List Char) : Option PeerAddr :=
  match lower.dropPrefix? "cjdns:".toList with
  | some rest =>
      match SocketText.socketAddr (String.ofList rest) with
      | some ⟨.v6 ip, port⟩ => some (.cjdns ip port)
      | _ => none
  | none =>
      match rsplitOnce ':' lower with
      | none => parseSocket lower
      | some (host, port) =>
          match parsePort port with
          | none => parseSocket lower
          | some port => parseHost lower host port

def parse (s : String) : Option PeerAddr := parseLower (s.toList.map Char.toLower)

end PeerAddr

/-! ## Gossip -/

/-- The addresses of an addrv2 message. -/
inductive AddrV2 where
  | ipv4 (ip : Bytes 4)
  | ipv6 (ip : Bytes 16)
  | torV3 (key : Bytes 32)
  | i2p (hash : Bytes 32)
  | cjdns (ip : Bytes 16)
  | unknown (network : UInt8) (bytes : List UInt8)

structure AddrV2Message where
  time : UInt32
  services : UInt64
  addr : AddrV2
  port : UInt16

namespace PeerAddr

/-- `TryFrom<&AddrV2Message>`. -/
def ofAddrV2 (msg : AddrV2Message) : Option PeerAddr :=
  match msg.addr with
  | .ipv4 ip => some (.ipv4 ip msg.port)
  | .ipv6 ip => some (fromSocketAddr ⟨.v6 ip, msg.port⟩)
  | .torV3 key => some (.torV3 key msg.port)
  | .i2p hash => some (.i2p hash msg.port)
  | .cjdns ip => some (.cjdns ip msg.port)
  | .unknown .. => none

/-- `TryFrom<&Address>`, given what `Address::socket_addr` reads in it. -/
def ofAddress {Address : Type} (socketAddr : Address → Option SocketAddr) (addr : Address) :
    Option PeerAddr :=
  (socketAddr addr).map fromSocketAddr

/-- Held under the network it is reached over. -/
def Canonical : PeerAddr → Prop
  | .ipv6 ip _ => toIpv4Mapped ip = none ∧ ip.at 0 ≠ 0xfc
  | _ => True

theorem fromSocketAddr_canonical (sa : SocketAddr) : (fromSocketAddr sa).Canonical := by
  unfold fromSocketAddr
  cases sa.ip with
  | v4 ip => trivial
  | v6 ip =>
      cases mapped : toIpv4Mapped ip with
      | some v4 =>
          simp only [mapped]
          trivial
      | none =>
          simp only [mapped]
          split
          · trivial
          · rename_i other
            exact ⟨mapped, other⟩

theorem ofAddrV2_canonical {msg : AddrV2Message} {a : PeerAddr} (read : ofAddrV2 msg = some a) :
    a.Canonical := by
  unfold ofAddrV2 at read
  split at read
  · obtain rfl := Option.some.inj read
    trivial
  · obtain rfl := Option.some.inj read
    exact fromSocketAddr_canonical _
  · obtain rfl := Option.some.inj read
    trivial
  · obtain rfl := Option.some.inj read
    trivial
  · obtain rfl := Option.some.inj read
    trivial
  · cases read

theorem ofAddress_canonical {Address : Type} {socketAddr : Address → Option SocketAddr}
    {addr : Address} {a : PeerAddr} (read : ofAddress socketAddr addr = some a) :
    a.Canonical := by
  obtain ⟨sa, _, rfl⟩ := Option.map_eq_some_iff.mp read
  exact fromSocketAddr_canonical sa

end PeerAddr

end P2PObserver
