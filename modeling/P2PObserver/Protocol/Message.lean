import P2PObserver.Addresses.Text
import P2PObserver.Events
import P2PObserver.HeaderTree.Basic

/-! # Messages of the network

The messages a session sends and reads, with the parts of them it looks at. What rust-bitcoin
does to an address on the wire comes as one `AddrCodec`.
-/

namespace P2PObserver

/-- An address as a version or addr message carries it. -/
structure Address where
  services : UInt64
  segments : List UInt16
  port : UInt16
  deriving DecidableEq, Repr

/-- What the lenient reader and the address conversions take from rust-bitcoin. -/
structure AddrCodec where
  /-- `Address::socket_addr`. -/
  socketAddr : Address → Option SocketAddr
  /-- `read_compact_size`: the number at the front of some bytes and the bytes after it. -/
  readCompactSize : List UInt8 → Option (UInt64 × List UInt8)
  /-- `emit_compact_size`. -/
  emitCompactSize : UInt64 → List UInt8
  /-- `deserialize::<AddrV2>`. -/
  deserializeAddrV2 : List UInt8 → Option AddrV2

/-- `Display` of a socket address. -/
def SocketAddr.display [AddrText] (sa : SocketAddr) : String :=
  match sa.ip with
  | .v4 ip => AddrText.ipv4 ip ++ ":" ++ toString sa.port.toNat
  | .v6 ip => "[" ++ AddrText.ipv6 ip ++ "]:" ++ toString sa.port.toNat

structure VersionMessage where
  version : UInt32
  services : UInt64
  timestamp : Int
  receiver : Address
  nonce : UInt64
  userAgent : String
  startHeight : Int
  relay : Bool

/-- One item of an inv or getdata. -/
inductive Inventory (H : Type) where
  | block (hash : H)
  | witnessBlock (hash : H)
  | compactBlock (hash : H)
  | other
  deriving DecidableEq, Repr

structure GetHeadersMessage (H : Type) where
  version : UInt32
  locatorHashes : List H
  stopHash : H
  deriving DecidableEq, Repr

/-- A compact block, its transactions counted. -/
structure CmpctBlock (H : Type) where
  header : Header H
  shortIds : Nat
  prefilledTxs : Nat
  deriving DecidableEq, Repr

inductive NetworkMessage (H : Type) where
  | version (message : VersionMessage)
  | verack
  | sendAddrV2
  | wtxidRelay
  | ping (nonce : UInt64)
  | pong (nonce : UInt64)
  | inv (items : List (Inventory H))
  | getData (items : List (Inventory H))
  | headers (headers : List (Header H))
  | getHeaders (message : GetHeadersMessage H)
  | sendHeaders
  | cmpctBlock (block : CmpctBlock H)
  | sendCmpct (message : SendCmpct)
  | getBlockTxn (blockHash : H) (indexes : List Nat)
  | blockTxn (blockHash : H)
  | getAddr
  | addr (addrs : List (UInt32 × Address))
  | addrV2 (addrs : List AddrV2Message)
  /-- The rate in whole sat/kvB. -/
  | feeFilter (satPerKvb : UInt64)
  /-- A message the decoder left as raw bytes. -/
  | unknown (command : String) (payload : List UInt8)
  /-- A message no handler acts on. -/
  | other (command : String)

/-- `NetworkMessage::command`. -/
def NetworkMessage.command {H : Type} : NetworkMessage H → String
  | .version _ => "version"
  | .verack => "verack"
  | .sendAddrV2 => "sendaddrv2"
  | .wtxidRelay => "wtxidrelay"
  | .ping _ => "ping"
  | .pong _ => "pong"
  | .inv _ => "inv"
  | .getData _ => "getdata"
  | .headers _ => "headers"
  | .getHeaders _ => "getheaders"
  | .sendHeaders => "sendheaders"
  | .cmpctBlock _ => "cmpctblock"
  | .sendCmpct _ => "sendcmpct"
  | .getBlockTxn .. => "getblocktxn"
  | .blockTxn _ => "blocktxn"
  | .getAddr => "getaddr"
  | .addr _ => "addr"
  | .addrV2 _ => "addrv2"
  | .feeFilter _ => "feefilter"
  | .unknown command _ => command
  | .other command => command

/-! ## Protocol versions -/

/-- `ProtocolVersion::WTXID_RELAY_VERSION`. -/
def WTXID_RELAY_VERSION : UInt32 := 70016

/-- Longest user agent kept from a version message, in characters. -/
def MAX_USER_AGENT_CHARS : Nat := 256

def capUserAgent (ua : String) : String := String.ofList (ua.toList.take MAX_USER_AGENT_CHARS)

end P2PObserver
