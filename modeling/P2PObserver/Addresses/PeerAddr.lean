import Mathlib.Algebra.Ring.Nat

/-! # Peer addresses

An address is its network and the raw bytes. Rendering one takes the IP text forms of the
standard library and the SHA3-256 of the sha3 crate, which are not part of the source.
-/

namespace P2PObserver

/-- A byte array of a fixed length. -/
abbrev Bytes (n : Nat) := { bytes : List UInt8 // bytes.length = n }

inductive PeerAddr where
  | ipv4 (bytes : Bytes 4) (port : UInt16)
  | ipv6 (bytes : Bytes 16) (port : UInt16)
  | torV3 (key : Bytes 32) (port : UInt16)
  | i2p (hash : Bytes 32) (port : UInt16)
  | cjdns (bytes : Bytes 16) (port : UInt16)
  deriving DecidableEq

inductive Net where
  | ipv4 | ipv6 | torV3 | i2p | cjdns
  deriving DecidableEq

inductive IpAddr where
  | v4 (octets : Bytes 4)
  | v6 (octets : Bytes 16)
  deriving DecidableEq

class AddrText where
  ipv4 : Bytes 4 → String
  ipv6 : Bytes 16 → String
  sha3_256 : List UInt8 → Bytes 32

/-- The big-endian number the bytes spell. -/
def fromBytes {n : Nat} (bytes : Bytes n) : Nat :=
  bytes.val.foldl (fun acc byte => acc * 256 + byte.toNat) 0

/-- A byte of the address, 0 past its end. -/
def Bytes.at {n : Nat} (bytes : Bytes n) (i : Nat) : UInt8 := bytes.val.getD i 0

namespace PeerAddr

def net : PeerAddr → Net
  | .ipv4 .. => .ipv4
  | .ipv6 .. => .ipv6
  | .torV3 .. => .torV3
  | .i2p .. => .i2p
  | .cjdns .. => .cjdns

def port : PeerAddr → UInt16
  | .ipv4 _ port | .ipv6 _ port | .torV3 _ port | .i2p _ port | .cjdns _ port => port

def ip : PeerAddr → Option IpAddr
  | .ipv4 bytes _ => some (.v4 bytes)
  | .ipv6 bytes _ | .cjdns bytes _ => some (.v6 bytes)
  | .torV3 .. | .i2p .. => none

/-- Whether every byte is zero. -/
def unspecified {n : Nat} (bytes : Bytes n) : Bool := bytes.val.all (· == 0)

def isRoutableV4 (ip : Bytes 4) : Bool :=
  let loopback := ip.at 0 == 127
  let isPrivate := ip.at 0 == 10 || (ip.at 0 == 172 && 16 ≤ ip.at 1 && ip.at 1 ≤ 31) ||
    (ip.at 0 == 192 && ip.at 1 == 168)
  let linkLocal := ip.at 0 == 169 && ip.at 1 == 254
  let multicast := 224 ≤ ip.at 0 && ip.at 0 ≤ 239
  let broadcast := ip.val.all (· == 255)
  !unspecified ip && !loopback && !isPrivate && !linkLocal && !multicast && !broadcast

def isRoutableV6 (ip : Bytes 16) : Bool :=
  let loopback := ip.val == List.replicate 15 0 ++ [1]
  let multicast := ip.at 0 == 0xff
  -- fe80::/10: the first ten bits of the first segment
  let linkLocal := ip.at 0 == 0xfe && ip.at 1 &&& 0xc0 == 0x80
  let uniqueLocal := ip.at 0 == 0xfd
  !unspecified ip && !loopback && !multicast && !linkLocal && !uniqueLocal

def isRoutable (addr : PeerAddr) : Bool :=
  addr.port != 0 &&
    match addr with
    | .ipv4 bytes _ => isRoutableV4 bytes
    | .ipv6 bytes _ => isRoutableV6 bytes
    | .torV3 key _ => !unspecified key
    | .i2p hash _ => !unspecified hash
    | .cjdns bytes _ => !unspecified bytes

end PeerAddr

/-! ## Rendering -/

def base32Alphabet : List Char := "abcdefghijklmnopqrstuvwxyz234567".toList

def base32Digit (value : UInt64) : Char := base32Alphabet.getD (value &&& 0x1f).toNat 'a'

/-- The digits ready in `n` bits, highest first, and the bits left. -/
def base32Flush (bits : UInt64) : Nat → List Char × Nat
  | n + 5 =>
      let (digits, left) := base32Flush bits n
      (base32Digit (bits >>> n.toUInt64) :: digits, left)
  | n => ([], n)

def base32Go : List UInt8 → UInt64 → Nat → List Char
  | [], bits, n => if 0 < n then [base32Digit (bits <<< (5 - n).toUInt64)] else []
  | byte :: rest, bits, n =>
      let bits := bits <<< 8 ||| byte.toUInt64
      let (digits, left) := base32Flush bits (n + 8)
      digits ++ base32Go rest bits left

def base32Encode (bytes : List UInt8) : String := String.ofList (base32Go bytes 0 0)

variable [AddrText]

/-- The host of a Tor v3 key: key, checksum and version in base32. -/
def onionHost (key : Bytes 32) : String :=
  let version : UInt8 := 0x03
  let hash := AddrText.sha3_256 (".onion checksum".toUTF8.toList ++ key.val ++ [version])
  base32Encode (key.val ++ hash.val.take 2 ++ [version]) ++ ".onion"

/-- `Display` of an address. -/
def PeerAddr.display (addr : PeerAddr) : String :=
  let host := match addr with
    | .ipv4 bytes _ => AddrText.ipv4 bytes
    | .ipv6 bytes _ => "[" ++ AddrText.ipv6 bytes ++ "]"
    | .torV3 key _ => onionHost key
    | .i2p hash _ => base32Encode hash.val ++ ".b32.i2p"
    | .cjdns bytes _ => "cjdns:[" ++ AddrText.ipv6 bytes ++ "]"
  host ++ ":" ++ toString addr.port.toNat

example : base32Encode [102, 111, 111, 98, 97, 114] = "mzxw6ytboi" := by decide +kernel

end P2PObserver
