import Mathlib.Data.Rat.Defs
import P2PObserver.Addresses.PeerAddr

/-! # Research events

The messages of `events.proto` the observer publishes. What the proto renders as text is
kept as the value it renders, and the socket samples are left out: they are read off the
kernel and decide nothing.
-/

namespace P2PObserver

/-! ## Sessions -/

/-- What the peer said about itself in its version message. -/
structure Handshake where
  protocolVersion : UInt32
  services : UInt64
  startHeight : Int
  relay : Bool
  peerTimestamp : Int
  addrRecv : String
  sendaddrv2 : Bool
  wtxidRelay : Bool
  userAgent : String
  nonce : UInt64
  deriving DecidableEq, Repr

structure PingRtt where
  rttMs : UInt64
  deriving DecidableEq, Repr

structure SendCmpct where
  highBandwidth : Bool
  version : UInt64
  deriving DecidableEq, Repr

structure FeeFilter where
  feerateSatPerKvb : UInt64
  deriving DecidableEq, Repr

/-! ## Blocks -/

inductive AnnouncementType where
  | inv
  | headers
  | compactBlock
  deriving DecidableEq, Repr

/-- Why an announced block has no height. -/
inductive Unplaced where
  | noHeader
  | orphan
  | invalidPow
  | forkBelowCheckpoint
  | checkpointMismatch
  | weakerChain
  deriving DecidableEq, Repr

structure CompactBlockShape where
  shortIds : Nat
  prefilledTxs : Nat
  deriving DecidableEq, Repr

structure BlockAnnouncement (H : Type) where
  blockHash : H
  announcementType : AnnouncementType
  batchSize : Nat
  height : Option Nat
  newToUs : Bool
  compactBlock : Option CompactBlockShape
  unplaced : Option Unplaced
  deriving DecidableEq, Repr

inductive ProbeStage where
  | requested
  | answered
  deriving DecidableEq, Repr

structure CompactBlockProbe (H : Type) where
  blockHash : H
  stage : ProbeStage
  deriving DecidableEq, Repr

/-! ## Gossip -/

/-- The message that carried an address announcement. -/
inductive AddrMessage where
  | addr
  | addrv2
  deriving DecidableEq, Repr

structure GossipedAddress where
  addr : PeerAddr
  services : UInt64
  ntime : UInt32
  deriving DecidableEq

structure AddressAnnouncement where
  message : AddrMessage
  /-- Entries that could not be parsed. -/
  unparsed : Nat
  /-- Every entry that could, before the rate limit. -/
  addresses : List GossipedAddress
  /-- Whether a GETADDR of ours was outstanding. -/
  solicited : Bool
  rateLimited : Nat
  rateLimitTokens : ℚ
  deriving DecidableEq

/-! ## Outcomes -/

/-- How a session that ran came to its end. -/
inductive DisconnectReason where
  | unknown
  | peerClosed
  | truncated
  | connectionReset
  | decodeError
  | v2DecryptError
  | writeError
  | other
  | otherChain
  | oversizedMessage
  | pingTimeout
  | protocolViolation
  | wrongMagic
  deriving DecidableEq, Repr

inductive FailureReason where
  | unknown
  | connectionRefused
  | hostUnreachable
  | tcpConnectTimeout
  | v2TransportTimeout
  | versionHandshakeTimeout
  | v2TransportHandshake
  | versionHandshake
  | unexpectedEof
  | other
  deriving DecidableEq, Repr

inductive OurFaultReason where
  | unknown
  | networkUnreachable
  | proxyUnreachable
  | networkDisabled
  deriving DecidableEq, Repr

/-- A session ran and then ended. -/
structure Disconnected where
  setupMs : UInt64
  uptimeMs : UInt64
  reason : DisconnectReason
  messagesByCommand : List (String × UInt32)
  messagesOther : UInt32
  unsolicitedPongs : UInt32
  undecodable : UInt32
  getheadersIgnored : UInt32
  deriving DecidableEq, Repr

/-- The outcome of one connection attempt. -/
inductive ConnectionResult where
  | disconnected (session : Disconnected)
  /-- Never reached a session. -/
  | failed (reason : FailureReason) (setupMs : UInt64)
  /-- We could not make the attempt. -/
  | ourFault (reason : OurFaultReason) (setupMs : UInt64)
  deriving DecidableEq, Repr

/-! ## The event -/

inductive Event (H : Type) where
  | pingRtt (ping : PingRtt)
  | blockAnnouncement (announcement : BlockAnnouncement H)
  | addressAnnouncement (announcement : AddressAnnouncement)
  | connectionResult (result : ConnectionResult)
  | handshake (info : Handshake)
  | compactBlockProbe (probe : CompactBlockProbe H)
  | feeFilter (filter : FeeFilter)
  | sendCmpct (message : SendCmpct)
  deriving DecidableEq

/-- One slot a variant of the event oneof, so a loss can be attributed. -/
inductive Kind where
  | pingRtt
  | blockAnnouncement
  | addressAnnouncement
  | connectionResult
  | handshake
  | compactBlockProbe
  | feeFilter
  | sendCmpct
  deriving DecidableEq, Repr

namespace Kind

/-- The kinds in the order `dropped_by_kind` reads their counters. -/
def all : List Kind :=
  [pingRtt, blockAnnouncement, addressAnnouncement, connectionResult, handshake,
    compactBlockProbe, feeFilter, sendCmpct]

theorem mem_all (kind : Kind) : kind ∈ all := by
  cases kind <;> simp [all]

end Kind

/-- Running counts of events lost before the publisher, one a kind. -/
abbrev DroppedEvents := Kind → UInt64

structure PeerEvent (H : Type) where
  connectionId : UInt64
  timestampMs : UInt64
  peerAddr : PeerAddr
  userAgent : String
  transportVersion : Option UInt32
  /-- Events that could not be handed to the publisher before this one. -/
  droppedEvents : UInt64
  /-- Which run of the observer produced this event. -/
  instanceId : UInt64
  droppedByKind : Option DroppedEvents
  event : Option (Event H)

namespace PeerEvent

/-- The kind of an event, or `none` for an event with no kind at all. -/
def kind {H : Type} (event : PeerEvent H) : Option Kind :=
  event.event.map fun
    | .pingRtt _ => .pingRtt
    | .blockAnnouncement _ => .blockAnnouncement
    | .addressAnnouncement _ => .addressAnnouncement
    | .connectionResult _ => .connectionResult
    | .handshake _ => .handshake
    | .compactBlockProbe _ => .compactBlockProbe
    | .feeFilter _ => .feeFilter
    | .sendCmpct _ => .sendCmpct

end PeerEvent

end P2PObserver
