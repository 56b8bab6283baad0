import Mathlib.Data.Prod.Lex
import Mathlib.Data.String.Basic
import P2PObserver.Decoded
import P2PObserver.Render.OneLine

/-! # Events on one line

The text of an event as the tools print it, over events whoever wrote them.
-/

namespace P2PObserver

/-- What the standard library prints that is not printed here: a text in quotes, and a number of
    type f64 with one decimal. -/
class DebugText where
  /-- `{:?}` of a string. -/
  debug : String → String
  /-- `{:.1}`. -/
  fixed1 : Float → String
  debug_printed : ∀ s, ∀ char ∈ (debug s).toList, isControl char = false
  fixed1_printed : ∀ x, ∀ char ∈ (fixed1 x).toList, isControl char = false

namespace Render

open Decoded (TcpStats)

/-! ## Parts -/

def counted (name : String) (n : UInt32) : String :=
  if n = 0 then "" else String.join [" ", name, "=", toString n]

/-- The names of an enumeration, by their numbers. -/
abbrev EnumNames := List String

/-- `TryFrom<i32>` of an enumeration, as the name of its value. -/
def tryFrom (names : EnumNames) (raw : Int32) : Option String :=
  if raw.toInt < 0 then none else names[raw.toInt.toNat]?

def announcementType : EnumNames := ["Unknown", "Inv", "Headers", "CompactBlock"]

def unplaced : EnumNames :=
  ["Unknown", "NoHeader", "Orphan", "InvalidPow", "ForkBelowCheckpoint", "CheckpointMismatch",
    "WeakerChain"]

def probeStage : EnumNames := ["Unknown", "Requested", "Answered"]

def addrMessage : EnumNames := ["Unknown", "Addr", "Addrv2"]

def disconnectReason : EnumNames :=
  ["Unknown", "PeerClosed", "Truncated", "ConnectionReset", "DecodeError", "V2DecryptError",
    "WriteError", "Other", "OtherChain", "OversizedMessage", "PingTimeout", "ProtocolViolation",
    "WrongMagic"]

def failureReason : EnumNames :=
  ["Unknown", "ConnectionRefused", "HostUnreachable", "TcpConnectTimeout", "V2TransportTimeout",
    "VersionHandshakeTimeout", "V2TransportHandshake", "VersionHandshake", "UnexpectedEof", "Other"]

def ourFaultReason : EnumNames :=
  ["Unknown", "NetworkUnreachable", "ProxyUnreachable", "NetworkDisabled"]

/-- The value's name, or the number it arrived as where this build has no name for it. -/
def named (raw : Int32) (parsed : Option String) : String :=
  match parsed with
  | some value => value
  | none => String.join ["unknown(", toString raw, ")"]

def transport (version : Option UInt32) : String :=
  match version with
  | some v => String.join ["v", toString v]
  | none => "detecting"

/-- A measurement, shown only when it was taken. -/
def measured {V : Type} [ToString V] (name : String) (v : Option V) (unit : String) : String :=
  match v with
  | some v => String.join [" ", name, "=", toString v, unit]
  | none => ""

def tcp (stats : Option TcpStats) : String :=
  match stats with
  | none => ""
  | some t => String.join
      [" srtt=", toString t.srttUs, "µs rttvar=", toString t.rttvarUs, "µs retrans=",
        toString t.totalRetrans, " cwnd=", toString t.sndCwnd, measured "minrtt" t.minRttUs "µs",
        measured "lost" t.lost "", measured "reorder" t.reordering "",
        measured "rate" t.deliveryRate "B/s", measured "rx" t.bytesReceived "B"]

/-- `{:#x}`. -/
def hex (n : UInt64) : String := "0x" ++ String.ofList (Nat.toDigits 16 n.toNat)

/-- `i64::saturating_sub`. -/
def saturatingSub (a b : Int64) : Int64 :=
  let difference := a.toInt - b.toInt
  if difference < Int64.minValue.toInt then Int64.minValue
  else if Int64.maxValue.toInt < difference then Int64.maxValue
  else Int64.ofInt difference

/-- The peer's clock against ours. -/
def skew (event : Decoded.PeerEvent) (hs : Decoded.Handshake) : Int64 :=
  saturatingSub hs.peerTimestamp (event.timestampMs / 1000).toInt64

/-! ## Arms -/

variable [DebugText]

/-- Where an event comes from, as most lines begin. -/
def origin (event : Decoded.PeerEvent) : String :=
  String.join ["conn=", toString event.connectionId, " peer=", oneLine event.peerAddr]

def handshakeLine (event : Decoded.PeerEvent) (hs : Decoded.Handshake) : String :=
  let addrRecv := if hs.addrRecv.isEmpty then "" else " sees_us=" ++ oneLine hs.addrRecv
  String.join
    [origin event, " ua=", DebugText.debug hs.userAgent, " transport=",
      transport event.transportVersion, " version=", toString hs.protocolVersion, " services=",
      hex hs.services, " height=", toString hs.startHeight, " relay=", toString hs.relay, " skew=",
      toString (skew event hs), "s addrv2=", toString hs.sendaddrv2, " wtxidrelay=",
      toString hs.wtxidRelay, addrRecv, " ts=", toString event.timestampMs]

def pingLine (event : Decoded.PeerEvent) (ping : Decoded.PingRtt) : String :=
  String.join
    [origin event, " ua=", DebugText.debug event.userAgent, " transport=",
      transport event.transportVersion, " rtt=", toString ping.rttMs, "ms", tcp ping.tcpStats,
      " ts=", toString event.timestampMs]

def blockLine (event : Decoded.PeerEvent) (blk : Decoded.BlockAnnouncement) : String :=
  let atype := named blk.announcementType (tryFrom announcementType blk.announcementType)
  let batch := if 1 < blk.batchSize then " batch=" ++ toString blk.batchSize else ""
  let height := match blk.height with
    | some h => " height=" ++ toString h
    | none => ""
  let unplaced := match blk.unplaced with
    | some u => " unplaced=" ++ named u (tryFrom unplaced u)
    | none => ""
  let new := if blk.newToUs then " new" else ""
  let shape := match blk.compactBlock with
    | some c => String.join
        [" shortids=", toString c.shortIds, " prefilled=", toString c.prefilledTxs]
    | none => ""
  String.join
    [origin event, " block=", oneLine blk.blockHash, " type=", atype, height, unplaced, new, batch,
      shape, tcp blk.tcpStats, " ts=", toString event.timestampMs]

def probeLine (event : Decoded.PeerEvent) (probe : Decoded.CompactBlockProbe) : String :=
  let stage := named probe.stage (tryFrom probeStage probe.stage)
  String.join
    [origin event, " block=", oneLine probe.blockHash, " probe=", stage, tcp probe.tcpStats,
      " ts=", toString event.timestampMs]

def feeFilterLine (event : Decoded.PeerEvent) (f : FeeFilter) : String :=
  String.join
    [origin event, " feefilter=", toString f.feerateSatPerKvb, "sat/kvB ts=",
      toString event.timestampMs]

def sendCmpctLine (event : Decoded.PeerEvent) (s : SendCmpct) : String :=
  String.join
    [origin event, " sendcmpct hb=", toString s.highBandwidth, " version=", toString s.version,
      " ts=", toString event.timestampMs]

def addressLine (event : Decoded.PeerEvent) (ann : Decoded.AddressAnnouncement) : String :=
  let unparsed := if 0 < ann.unparsed then " unparsed=" ++ toString ann.unparsed else ""
  let limited := if 0 < ann.rateLimited then " rate_limited=" ++ toString ann.rateLimited else ""
  let message := named ann.message (tryFrom addrMessage ann.message)
  String.join
    [origin event, " message=", message, " addresses=", toString ann.addresses.length,
      " solicited=", toString ann.solicited, limited, unparsed, " tokens=",
      DebugText.fixed1 ann.rateLimitTokens, " ts=", toString event.timestampMs]

/-- The commands ordered by count, the largest first, and then by name. -/
def byCommand (messages : HashMap String UInt32) : List (Sigma fun _ : String => UInt32) :=
  messages.sortedBy fun e => toLex (OrderDual.toDual e.2.toNat, e.1)

def disconnectedDetail (d : Decoded.Disconnected) : String :=
  let reason := named d.reason (tryFrom disconnectReason d.reason)
  let messages := ((byCommand d.messagesByCommand).take 5).map fun e =>
    String.join [oneLine e.1, "=", toString e.2]
  let counters := String.join
    [counted "unsolicited_pongs" d.unsolicitedPongs, counted "undecodable" d.undecodable,
      counted "getheaders_ignored" d.getheadersIgnored, counted "msgs_other" d.messagesOther]
  String.join
    ["result=disconnected reason=", reason, " setup=", toString d.setupMs, "ms uptime=",
      toString d.uptimeMs, "ms", counters, " msgs=[", " ".intercalate messages, "]"]

def resultDetail (result : Option Decoded.Attempt) : String :=
  match result with
  | some (.disconnected d) => disconnectedDetail d
  | some (.failed reason setupMs) => String.join
      ["result=failed reason=", named reason (tryFrom failureReason reason), " setup=",
        toString setupMs, "ms"]
  | some (.ourFault reason setupMs) => String.join
      ["result=our_fault reason=", named reason (tryFrom ourFaultReason reason), " setup=",
        toString setupMs, "ms"]
  | none => "result=unset"

def resultLine (event : Decoded.PeerEvent) (result : Option Decoded.Attempt) : String :=
  String.join
    [origin event, " ua=", DebugText.debug event.userAgent, " ", resultDetail result,
      " transport=", transport event.transportVersion, " ts=", toString event.timestampMs]

/-! ## The line -/

def kindName : Kind → String
  | .pingRtt => "ping_rtt"
  | .blockAnnouncement => "block_announcement"
  | .addressAnnouncement => "address_announcement"
  | .connectionResult => "connection_result"
  | .handshake => "handshake"
  | .compactBlockProbe => "compact_block_probe"
  | .feeFilter => "fee_filter"
  | .sendCmpct => "send_cmpct"

/-- The kinds that lost anything. -/
def byKind (dropped : Option DroppedEvents) : String :=
  match dropped with
  | none => ""
  | some d =>
      let lost := " ".intercalate ((Kind.all.filter fun kind => 0 < d kind).map fun kind =>
        String.join [kindName kind, "=", toString (d kind)])
      if lost.isEmpty then "" else String.join [" [", lost, "]"]

def eventLine (event : Decoded.PeerEvent) : String :=
  let line := match event.event with
    | some (.handshake hs) => handshakeLine event hs
    | some (.pingRtt ping) => pingLine event ping
    | some (.blockAnnouncement blk) => blockLine event blk
    | some (.compactBlockProbe probe) => probeLine event probe
    | some (.feeFilter f) => feeFilterLine event f
    | some (.sendCmpct s) => sendCmpctLine event s
    | some (.addressAnnouncement ann) => addressLine event ann
    | some (.connectionResult res) => resultLine event res
    | none => "unknown event from " ++ oneLine event.peerAddr
  -- Shown on every kind of event, since the loss is not confined to the kind that carries it.
  if 0 < event.droppedEvents then
    String.join [line, " dropped=", toString event.droppedEvents, byKind event.droppedByKind]
  else line

end Render

end P2PObserver
