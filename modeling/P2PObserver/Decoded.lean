import P2PObserver.Events
import P2PObserver.Lib.HashMap

/-! # Events as they are read

The messages of `events.proto` as prost decodes them, whoever wrote them: a text is any text, a
value of an enumeration any number. What no reader looks at is left out.
-/

namespace P2PObserver.Decoded

/-- OS-level statistics of a connection's socket; what the platform does not report is absent. -/
structure TcpStats where
  srttUs : UInt32
  rttvarUs : UInt32
  totalRetrans : UInt32
  sndCwnd : UInt32
  minRttUs : Option UInt32
  lost : Option UInt32
  reordering : Option UInt32
  deliveryRate : Option UInt64
  bytesReceived : Option UInt64

structure Handshake where
  protocolVersion : UInt32
  services : UInt64
  startHeight : Int32
  relay : Bool
  peerTimestamp : Int64
  addrRecv : String
  sendaddrv2 : Bool
  wtxidRelay : Bool
  userAgent : String

structure PingRtt where
  rttMs : UInt64
  tcpStats : Option TcpStats

/-! ## Blocks -/

structure CompactBlockShape where
  shortIds : UInt32
  prefilledTxs : UInt32

structure BlockAnnouncement where
  blockHash : String
  announcementType : Int32
  tcpStats : Option TcpStats
  batchSize : UInt32
  height : Option UInt32
  newToUs : Bool
  compactBlock : Option CompactBlockShape
  unplaced : Option Int32

structure CompactBlockProbe where
  blockHash : String
  stage : Int32
  tcpStats : Option TcpStats

/-! ## Gossip -/

structure AddressAnnouncement where
  message : Int32
  unparsed : UInt32
  /-- The addresses as they were rendered. -/
  addresses : List String
  solicited : Bool
  rateLimited : UInt32
  rateLimitTokens : Float

/-! ## Outcomes -/

structure Disconnected where
  setupMs : UInt64
  uptimeMs : UInt64
  reason : Int32
  messagesByCommand : HashMap String UInt32
  messagesOther : UInt32
  unsolicitedPongs : UInt32
  undecodable : UInt32
  getheadersIgnored : UInt32

inductive Attempt where
  | disconnected (session : Disconnected)
  | failed (reason : Int32) (setupMs : UInt64)
  | ourFault (reason : Int32) (setupMs : UInt64)

/-! ## The event -/

inductive Event where
  | handshake (hs : Handshake)
  | pingRtt (ping : PingRtt)
  | blockAnnouncement (blk : BlockAnnouncement)
  | compactBlockProbe (probe : CompactBlockProbe)
  | feeFilter (filter : FeeFilter)
  | sendCmpct (message : SendCmpct)
  | addressAnnouncement (ann : AddressAnnouncement)
  | connectionResult (result : Option Attempt)

structure PeerEvent where
  connectionId : UInt64
  timestampMs : UInt64
  peerAddr : String
  userAgent : String
  transportVersion : Option UInt32
  droppedEvents : UInt64
  droppedByKind : Option DroppedEvents
  event : Option Event

end P2PObserver.Decoded
