import Mathlib.Data.Rat.Floor
import P2PObserver.Lib.HashMap
import P2PObserver.Lib.TokenBucket
import P2PObserver.Addresses.Book
import P2PObserver.Protocol.Message

/-! # A connection's state

What a session keeps between two messages, and what its handlers compute from it. Instants
are seconds on the monotonic clock; the token buckets are exact.
-/

namespace P2PObserver

/-- How many unanswered pings to remember. -/
def OUTSTANDING_PINGS : Nat := 10

/-- How long a ping may go unanswered before the session is over, in seconds. -/
def PING_TIMEOUT : ℚ := 20 * 60

def GETHEADERS_BURST : ℚ := 4
def GETHEADERS_RATE_PER_SEC : ℚ := 1 / 30

/-- Distinct commands counted per session. -/
def MESSAGES_BY_COMMAND_CAP : Nat := 64

/-- Addresses accepted from a peer per second, and the burst it may spend at once. -/
def ADDR_RATE_PER_SEC : ℚ := 1 / 10
def ADDR_BURST : ℚ := 1000

/-- `Instant::elapsed`, which is zero for an instant that lies ahead. -/
def elapsedSince (instant now : ℚ) : ℚ := max 0 (now - instant)

/-! ## Statistics -/

structure ConnectionStats where
  /-- Nonces of pings sent and not yet answered, oldest first. -/
  outstandingPings : List UInt64
  unsolicitedPongs : UInt32
  getheadersIgnored : UInt32
  /-- When the peer last answered a ping, or the handshake if it never has. -/
  lastPong : ℚ
  messagesByCommand : HashMap String UInt32
  messagesOther : UInt32

namespace ConnectionStats

def new (now : ℚ) : ConnectionStats where
  outstandingPings := []
  unsolicitedPongs := 0
  getheadersIgnored := 0
  lastPong := now
  messagesByCommand := ∅
  messagesOther := 0

/-- Remember a ping just sent, forgetting the oldest if there are too many. -/
def recordPing (stats : ConnectionStats) (nonce : UInt64) : ConnectionStats :=
  let pings := stats.outstandingPings ++ [nonce]
  { stats with
    outstandingPings := if OUTSTANDING_PINGS < pings.length then pings.tail else pings }

/-- Whether a pong answers a ping we sent, consuming it if so. -/
def claimPong (stats : ConnectionStats) (nonce : UInt64) (now : ℚ) : Bool × ConnectionStats :=
  if nonce ∈ stats.outstandingPings then
    (true, { stats with outstandingPings := stats.outstandingPings.erase nonce, lastPong := now })
  else (false, { stats with unsolicitedPongs := saturatingAdd stats.unsolicitedPongs 1 })

/-- How long the peer has owed us an answer, once that is too long. -/
def pingTimedOut (stats : ConnectionStats) (now : ℚ) : Option ℚ :=
  let waited := elapsedSince stats.lastPong now
  if !stats.outstandingPings.isEmpty && PING_TIMEOUT ≤ waited then some waited else none

/-- Count one received message against its command. -/
def recordMessage (stats : ConnectionStats) (command : String) : ConnectionStats :=
  if command ∈ stats.messagesByCommand then
    { stats with
      messagesByCommand := HashMap.modify stats.messagesByCommand command (saturatingAdd · 1) }
  else if HashMap.size stats.messagesByCommand < MESSAGES_BY_COMMAND_CAP then
    { stats with messagesByCommand := stats.messagesByCommand.insert command 1 }
  else { stats with messagesOther := saturatingAdd stats.messagesOther 1 }

end ConnectionStats

/-! ## The connection -/

/-- Information collected from the peer during the version handshake. -/
structure HandshakeInfo where
  version : VersionMessage
  sendAddrV2 : Bool
  wtxidRelay : Bool

structure Connection (H : Type) where
  addrTokens : ℚ
  addrTokensUpdated : ℚ
  getheadersTokens : ℚ
  getheadersTokensUpdated : ℚ
  /-- Set while we are expecting the reply to our own GETADDR. -/
  getaddrOutstanding : Bool
  handshakeInfo : HandshakeInfo
  stats : ConnectionStats
  addr : PeerAddr
  transportVersion : UInt8
  connectionId : UInt64
  syncHeaders : Bool
  /-- The missing block this connection last asked its peer about. -/
  askedFor : Option H
  probeCompactBlocks : Bool

namespace Connection

variable {H : Type}

/-- The connection of a session whose handshake is done. -/
def new (addrNow getheadersNow pongNow : ℚ) (info : HandshakeInfo) (addr : PeerAddr)
    (transportVersion : UInt8) (connectionId : UInt64) (syncHeaders probeCompactBlocks : Bool) :
    Connection H where
  addrTokens := ADDR_BURST
  addrTokensUpdated := addrNow
  getheadersTokens := GETHEADERS_BURST
  getheadersTokensUpdated := getheadersNow
  getaddrOutstanding := false
  handshakeInfo := info
  stats := .new pongNow
  addr := addr
  transportVersion := transportVersion
  connectionId := connectionId
  syncHeaders := syncHeaders
  askedFor := none
  probeCompactBlocks := probeCompactBlocks

/-- Whether a GETHEADERS gets an answer, spending a token if it does. The clock is read twice:
    for the time that has passed, and to count from then on. -/
def mayAnswerGetheaders (conn : Connection H) (now restart : ℚ) : Bool × Connection H :=
  let elapsed := elapsedSince conn.getheadersTokensUpdated now
  let tokens := TokenBucket.refill GETHEADERS_RATE_PER_SEC GETHEADERS_BURST conn.getheadersTokens
    elapsed
  let conn := { conn with getheadersTokensUpdated := restart }
  if tokens < 1 then (false, { conn with getheadersTokens := tokens })
  else (true, { conn with getheadersTokens := tokens - 1 })

end Connection

/-! ## Gossip -/

/-- `u16::swap_bytes`. -/
def swapBytes (n : UInt16) : UInt16 := n <<< 8 ||| n >>> 8

namespace AddrCodec

variable (codec : AddrCodec)

/-- `u32::consensus_decode`. -/
def readU32 : List UInt8 → Option (UInt32 × List UInt8)
  | a :: b :: c :: d :: rest =>
      some (a.toUInt32 ||| b.toUInt32 <<< 8 ||| c.toUInt32 <<< 16 ||| d.toUInt32 <<< 24, rest)
  | _ => none

/-- `u16::consensus_decode`. -/
def readU16 : List UInt8 → Option (UInt16 × List UInt8)
  | a :: b :: rest => some (a.toUInt16 ||| b.toUInt16 <<< 8, rest)
  | _ => none

/-- The frame of one entry: what the entry says, and the bytes after it. The address alone goes
    to the decoder, which may refuse it. -/
def readEntry (bytes : List UInt8) : Option (Option AddrV2Message × List UInt8) := do
  let (time, rest) ← readU32 bytes
  let (services, rest) ← codec.readCompactSize rest
  let (network, rest) ← rest.head?.map (·, rest.tail)
  let (len, rest) ← codec.readCompactSize rest
  guard (len.toNat ≤ rest.length)
  let addr := rest.take len.toNat
  let (port, rest) ← readU16 (rest.drop len.toNat)
  let raw := network :: codec.emitCompactSize len ++ addr
  return ((codec.deserializeAddrV2 raw).map fun addr =>
    { time, services, addr, port := swapBytes port }, rest)

/-- Up to `count` entries, stopping at the first whose framing cannot be followed. -/
def readEntries : Nat → List UInt8 → List AddrV2Message
  | 0, _ => []
  | count + 1, bytes =>
      match codec.readEntry bytes with
      | none => []
      | some (entry, rest) => entry.toList ++ readEntries count rest

/-- The entry count an addrv2 payload declares, and the entries that parse. -/
def parseAddrv2Leniently (payload : List UInt8) : Nat × List AddrV2Message :=
  match codec.readCompactSize payload with
  | none => (0, [])
  | some (count, rest) =>
      -- Every entry takes at least nine bytes.
      let count := min count.toNat (payload.length / 9)
      (count, codec.readEntries count rest)

end AddrCodec

/-- What a handler of addresses leaves: the connection, the research event and the addresses
    handed to the manager. -/
structure Offered (H : Type) where
  conn : Connection H
  event : AddressAnnouncement
  gossip : List Gossiped

namespace Connection

variable {H : Type} (codec : AddrCodec)

/-- A peer announcing its own address. -/
def selfAnnouncement (conn : Connection H) (received : Nat) (parsed : List GossipedAddress) :
    Bool :=
  received == 1 && parsed.map (·.addr) == [conn.addr]

/-- Rate-limit gossiped addresses and hand the survivors to the manager. -/
def offerGossip (conn : Connection H) (now restart : ℚ) (message : AddrMessage) (received : Nat)
    (parsed : List GossipedAddress) : Offered H :=
  let selfAnnouncement := conn.selfAnnouncement received parsed
  let solicited := !selfAnnouncement && conn.getaddrOutstanding
  let elapsed := elapsedSince conn.addrTokensUpdated now
  let tokens := TokenBucket.refill ADDR_RATE_PER_SEC ADDR_BURST conn.addrTokens elapsed
  let rateLimited := if solicited then 0 else parsed.length - TokenBucket.allowed tokens
  let kept := parsed.take (parsed.length - rateLimited)
  { conn := { conn with
      getaddrOutstanding := selfAnnouncement && conn.getaddrOutstanding
      addrTokensUpdated := restart
      addrTokens := if solicited then tokens else tokens - kept.length }
    event :=
      { message
        unparsed := received - parsed.length
        addresses := parsed
        solicited
        rateLimited
        rateLimitTokens := tokens }
    gossip := kept.map fun g => ⟨g.addr, g.services⟩ }

def handleAddr (conn : Connection H) (now restart : ℚ) (addrs : List (UInt32 × Address)) :
    Offered H :=
  let parsed := addrs.filterMap fun (ntime, a) =>
    (PeerAddr.ofAddress codec.socketAddr a).map fun addr =>
      { addr, services := a.services, ntime }
  conn.offerGossip now restart .addr addrs.length parsed

/-- `received` is how many entries the message declared. -/
def offerAddrv2 (conn : Connection H) (now restart : ℚ) (received : Nat)
    (addrs : List AddrV2Message) : Offered H :=
  let parsed := addrs.filterMap fun m =>
    (PeerAddr.ofAddrV2 m).map fun addr => { addr, services := m.services, ntime := m.time }
  conn.offerGossip now restart .addrv2 received parsed

def handleAddrv2 (conn : Connection H) (now restart : ℚ) (addrs : List AddrV2Message) :
    Offered H :=
  conn.offerAddrv2 now restart addrs.length addrs

/-- A message the decoder left as raw bytes; only an addrv2 is read on. -/
def handleUnknown (conn : Connection H) (now restart : ℚ) (command : String)
    (payload : List UInt8) : Option (Offered H) :=
  if command = "addrv2" then
    let (received, entries) := codec.parseAddrv2Leniently payload
    some (conn.offerAddrv2 now restart received entries)
  else none

end Connection

end P2PObserver
