import Mathlib.Data.Finset.Card
import Mathlib.Data.Prod.Lex
import Mathlib.Data.String.Basic
import P2PObserver.Archive.Reader
import P2PObserver.Lib.Tally

/-! # Adding up what is in an archive

Everything is keyed by host, not by connection or address: a host that opens six thousand sessions
is one row. The counters are numbers without a bound.
-/

namespace P2PObserver.ArchiveStats

/-! ## What is read of an event

As prost decodes it, whoever wrote it: addresses and hashes are any texts, reasons any numbers.
-/

structure Disconnected where
  uptimeMs : Nat
  reason : Int
  messagesByCommand : List (String × Nat)
  messagesOther : Nat

inductive Attempt where
  | disconnected (session : Disconnected)
  | failed (reason : Int)
  | ourFault

inductive Event where
  | handshake (userAgent : String) (services : UInt64)
  | connectionResult (result : Option Attempt)
  | blockAnnouncement (blockHash : String) (height : Option Nat)
  /-- The entries' service fields. -/
  | addressAnnouncement (rateLimited : Nat) (addresses : List UInt64)
  | pingRtt
  | compactBlockProbe
  | feeFilter
  | sendCmpct

structure PeerEvent where
  timestampMs : Nat
  peerAddr : String
  droppedEvents : Nat
  instanceId : UInt64
  event : Option Event

namespace Disconnected

/-- A number the enumeration lacks reads as its first reason. -/
def getReason (d : Disconnected) : DisconnectReason :=
  match d.reason with
  | 1 => .peerClosed
  | 2 => .truncated
  | 3 => .connectionReset
  | 4 => .decodeError
  | 5 => .v2DecryptError
  | 6 => .writeError
  | 7 => .other
  | 8 => .otherChain
  | 9 => .oversizedMessage
  | 10 => .pingTimeout
  | 11 => .protocolViolation
  | 12 => .wrongMagic
  | _ => .unknown

end Disconnected

def failureReason : Int → FailureReason
  | 1 => .connectionRefused
  | 2 => .hostUnreachable
  | 3 => .tcpConnectTimeout
  | 4 => .v2TransportTimeout
  | 5 => .versionHandshakeTimeout
  | 6 => .v2TransportHandshake
  | 7 => .versionHandshake
  | 8 => .unexpectedEof
  | 9 => .other
  | _ => .unknown

def disconnectReasonName : DisconnectReason → String
  | .unknown => "DISCONNECT_REASON_UNKNOWN"
  | .peerClosed => "DISCONNECT_REASON_PEER_CLOSED"
  | .truncated => "DISCONNECT_REASON_TRUNCATED"
  | .connectionReset => "DISCONNECT_REASON_CONNECTION_RESET"
  | .decodeError => "DISCONNECT_REASON_DECODE_ERROR"
  | .v2DecryptError => "DISCONNECT_REASON_V2_DECRYPT_ERROR"
  | .writeError => "DISCONNECT_REASON_WRITE_ERROR"
  | .other => "DISCONNECT_REASON_OTHER"
  | .otherChain => "DISCONNECT_REASON_OTHER_CHAIN"
  | .oversizedMessage => "DISCONNECT_REASON_OVERSIZED_MESSAGE"
  | .pingTimeout => "DISCONNECT_REASON_PING_TIMEOUT"
  | .protocolViolation => "DISCONNECT_REASON_PROTOCOL_VIOLATION"
  | .wrongMagic => "DISCONNECT_REASON_WRONG_MAGIC"

def failureReasonName : FailureReason → String
  | .unknown => "FAILURE_REASON_UNKNOWN"
  | .connectionRefused => "FAILURE_REASON_CONNECTION_REFUSED"
  | .hostUnreachable => "FAILURE_REASON_HOST_UNREACHABLE"
  | .tcpConnectTimeout => "FAILURE_REASON_TCP_CONNECT_TIMEOUT"
  | .v2TransportTimeout => "FAILURE_REASON_V2_TRANSPORT_TIMEOUT"
  | .versionHandshakeTimeout => "FAILURE_REASON_VERSION_HANDSHAKE_TIMEOUT"
  | .v2TransportHandshake => "FAILURE_REASON_V2_TRANSPORT_HANDSHAKE"
  | .versionHandshake => "FAILURE_REASON_VERSION_HANDSHAKE"
  | .unexpectedEof => "FAILURE_REASON_UNEXPECTED_EOF"
  | .other => "FAILURE_REASON_OTHER"

/-- `DISCONNECT_REASON_PEER_CLOSED` as `peer_closed`. -/
def enumLabel (name start : String) : String :=
  let label := if start.toList.isPrefixOf name.toList then name.toList.drop start.length
    else name.toList
  String.ofList (label.map Char.toLower)

example : enumLabel (disconnectReasonName .peerClosed) "DISCONNECT_REASON_" = "peer_closed" := by
  decide

/-- The host of a rendered peer address: everything before the port. -/
def hostOf (addr : String) : String :=
  match addr.toList.reverse.dropWhile (· ≠ ':') with
  | [] => addr
  | _ :: host => String.ofList host.reverse

example : hostOf "[2001:db8::1]:8333" = "[2001:db8::1]" := by decide

/-- Leading zero hex digits of a block hash as rendered, a coarse reading of its work. -/
def leadingZeros (hash : String) : Nat := (hash.toList.takeWhile (· = '0')).length

/-! ## What is remembered -/

/-- Everything remembered about one host. -/
structure Host where
  handshakes : Nat := 0
  sessions : Nat := 0
  /-- Sessions in which the peer sent no message after the handshake. -/
  silent : Nat := 0
  uptimeSecs : Nat := 0
  longestSecs : Nat := 0
  decodeErrors : Nat := 0
  failedAttempts : Nat := 0
  /-- Announcements of blocks the observer's header tree could not place. -/
  unplaced : Nat := 0
  /-- Entries the rate limit discarded. -/
  rateLimited : Nat := 0
  userAgents : BTreeMap String Nat := ∅

instance : Inhabited Host := ⟨{}⟩

namespace Host

def handshake (userAgent : String) (h : Host) : Host :=
  { h with
    handshakes := h.handshakes + 1
    userAgents := h.userAgents.entry userAgent (· + 1) }

def ended (d : Disconnected) (h : Host) : Host :=
  let secs := d.uptimeMs / 1000
  { h with
    sessions := h.sessions + 1
    uptimeSecs := h.uptimeSecs + secs
    longestSecs := max h.longestSecs secs
    silent := if d.messagesByCommand.isEmpty ∧ d.messagesOther = 0 then h.silent + 1 else h.silent
    decodeErrors :=
      if d.getReason = .decodeError then h.decodeErrors + 1 else h.decodeErrors }

end Host

/-- Bits set in service fields, with an all-ones field kept apart. -/
structure ServiceBits where
  fields : Nat := 0
  allOnes : Nat := 0
  bits : BTreeMap Nat Nat := ∅

namespace ServiceBits

def observe (b : ServiceBits) (services : UInt64) : ServiceBits :=
  let b := { b with fields := b.fields + 1 }
  if services = 0xffffffffffffffff then { b with allOnes := b.allOnes + 1 }
  else
    let set := (List.range 64).filter fun bit => services.toNat.testBit bit
    { b with bits := set.foldl (fun bits bit => bits.entry bit (· + 1)) b.bits }

end ServiceBits

structure Stats where
  network : String := ""
  events : Nat := 0
  firstMs : Option Nat := none
  lastMs : Option Nat := none
  instances : Finset UInt64 := ∅
  /-- The highest drop count seen per instance. -/
  dropped : HashMap UInt64 Nat := ∅
  hosts : HashMap String Host := ∅
  /-- Hosts that completed a handshake under each user agent. -/
  hostsByUserAgent : HashMap String (Finset String) := ∅
  handshakesByUserAgent : HashMap String Nat := ∅
  sessionEnds : BTreeMap String Nat := ∅
  failures : BTreeMap String Nat := ∅
  ourFaults : Nat := 0
  /-- Whether any announcement of the hash carried a height. -/
  blocks : HashMap String Bool := ∅
  announcements : Nat := 0
  handshakeServices : ServiceBits := {}
  gossipServices : ServiceBits := {}

namespace Stats

def observe (s : Stats) (e : PeerEvent) : Stats :=
  let s := { s with
    events := s.events + 1
    firstMs := some (s.firstMs.elim e.timestampMs fun t => min t e.timestampMs)
    lastMs := some (s.lastMs.elim e.timestampMs fun t => max t e.timestampMs)
    instances := insert e.instanceId s.instances
    dropped := s.dropped.entry e.instanceId fun dropped => max dropped e.droppedEvents }
  let host := hostOf e.peerAddr
  match e.event with
  | none => s
  | some (.handshake userAgent services) => { s with
      hosts := s.hosts.entry host (Host.handshake userAgent)
      hostsByUserAgent := s.hostsByUserAgent.entry userAgent fun hosts => insert host hosts
      handshakesByUserAgent := s.handshakesByUserAgent.entry userAgent (· + 1)
      handshakeServices := s.handshakeServices.observe services }
  | some (.connectionResult (some (.disconnected d))) => { s with
      hosts := s.hosts.entry host (Host.ended d)
      sessionEnds := s.sessionEnds.entry
        (enumLabel (disconnectReasonName d.getReason) "DISCONNECT_REASON_") (· + 1) }
  | some (.connectionResult (some (.failed reason))) => { s with
      hosts := s.hosts.entry host fun h => { h with failedAttempts := h.failedAttempts + 1 }
      failures := s.failures.entry
        (enumLabel (failureReasonName (failureReason reason)) "FAILURE_REASON_") (· + 1) }
  | some (.connectionResult (some .ourFault)) => { s with ourFaults := s.ourFaults + 1 }
  | some (.connectionResult none) => s
  | some (.blockAnnouncement blockHash height) =>
      let s := { s with
        announcements := s.announcements + 1
        blocks := s.blocks.entry blockHash fun placed => placed || height.isSome }
      if height.isNone then
        { s with hosts := s.hosts.entry host fun h => { h with unplaced := h.unplaced + 1 } }
      else s
  | some (.addressAnnouncement rateLimited addresses) => { s with
      hosts := s.hosts.entry host fun h => { h with rateLimited := h.rateLimited + rateLimited }
      gossipServices := addresses.foldl ServiceBits.observe s.gossipServices }
  | some .pingRtt | some .compactBlockProbe | some .feeFilter | some .sendCmpct => s

end Stats

/-! ## The report -/

/-- Texts of the time crate and of floating-point numbers. -/
class StatsText where
  /-- A time in unix seconds, where the calendar has it. -/
  rfc3339 : Nat → Option String
  /-- One hundred times the part of the whole, to one decimal. -/
  percent : Nat → Nat → String

def serviceName : Nat → String
  | 0 => "network"
  | 1 => "getutxo"
  | 2 => "bloom"
  | 3 => "witness"
  | 4 => "xthin"
  | 6 => "compact_filters"
  | 10 => "network_limited"
  | 11 => "p2p_v2"
  | _ => ""

def n (v : Nat) : String :=
  let digits := (toString v).toList
  String.ofList (digits.zipIdx.flatMap fun (c, i) =>
    if 0 < i ∧ (digits.length - i) % 3 = 0 then [',', c] else [c])

example : n 1234567 = "1,234,567" := by decide

def share [StatsText] (part whole : Nat) : String :=
  if whole = 0 then "" else StatsText.percent part whole ++ "%"

def unix [StatsText] (ms : Nat) : String := (StatsText.rfc3339 (ms / 1000)).getD (toString ms)

def twoDigits (v : Nat) : String := if v < 10 then "0" ++ toString v else toString v

def duration (ms : Nat) : String :=
  let secs := ms / 1000
  toString (secs / 86400) ++ "d " ++ twoDigits (secs % 86400 / 3600) ++ "h " ++
    twoDigits (secs % 3600 / 60) ++ "m"

def sectionTitle (out title : String) : String :=
  (if out.isEmpty then out else out.push '\n') ++ "== " ++ title ++ "\n"

/-- Unicode's `White_Space`. -/
def isWhitespace (c : Char) : Bool :=
  let v := c.toNat
  (9 ≤ v ∧ v ≤ 13) ∨ v = 0x20 ∨ v = 0x85 ∨ v = 0xa0 ∨ v = 0x1680 ∨ (0x2000 ≤ v ∧ v ≤ 0x200a) ∨
    v = 0x2028 ∨ v = 0x2029 ∨ v = 0x202f ∨ v = 0x205f ∨ v = 0x3000

def trimEnd (s : String) : String :=
  String.ofList (s.toList.reverse.dropWhile isWhitespace).reverse

/-- Pads each column to its widest cell. -/
def table (out : String) (rows : List (List String)) : String :=
  let columns := (rows.map List.length).foldl max 0
  let widths := (List.range columns).map fun c =>
    ((rows.filterMap fun r => r[c]?).map String.length).foldl max 0
  rows.foldl (fun out r =>
    let line := r.zipIdx.map fun (cell, c) =>
      cell ++ String.ofList (List.replicate (widths.getD c 0 - cell.length) ' ')
    out ++ "  " ++ trimEnd ("  ".intercalate line) ++ "\n") out

/-- Where a row stands in a table: by its count, highest first, then by its name. -/
def rank (count : Nat) (name : String) : Natᵒᵈ ×ₗ String := toLex (OrderDual.toDual count, name)

namespace Host

def userAgent (h : Host) : String :=
  let agents := h.userAgents.toList.insertionSort fun a b => rank a.2 a.1 ≤ rank b.2 b.1
  let out := (agents.take 2).map Prod.fst
  " ".intercalate (if 2 < agents.length then out ++ ["..."] else out)

end Host

namespace Stats

def coverage [StatsText] (s : Stats) (out : String) : String :=
  let span := match s.firstMs, s.lastMs with
    | some a, some b => unix a ++ " to " ++ unix b ++ " (" ++ duration (b - a) ++ ")"
    | _, _ => "nothing"
  let handshook := (s.hosts.values.filter fun h => 0 < h.handshakes).length
  let sessions := (s.hosts.values.map Host.sessions).sum
  let dropped := s.dropped.values.sum
  table (sectionTitle out ("coverage (" ++ s.network ++ ")"))
    [["events", n s.events],
      ["span", span],
      ["observer instances", n s.instances.card],
      ["events dropped by the observer", n dropped],
      ["hosts seen", n s.hosts.size],
      ["hosts that completed a handshake", n handshook],
      ["sessions ended", n sessions],
      ["block announcements", n s.announcements],
      ["distinct block hashes", n s.blocks.size]]

def sessions [StatsText] (s : Stats) (out : String) : String :=
  let total := s.sessionEnds.values.sum
  let silent := (s.hosts.values.map Host.silent).sum
  let rows := s.sessionEnds.toList.map fun (reason, count) => [reason, n count, share count total]
  let out := table (sectionTitle out "how sessions ended")
    (rows ++ [["(peer sent nothing)", n silent, share silent total]])
  let failed := s.failures.values.sum
  let rows := s.failures.toList.map fun (reason, count) => [reason, n count, share count failed]
  table (sectionTitle out "attempts that never reached a session")
    (rows ++ [["(our fault)", n s.ourFaults, ""]])

def hostRow (host : String) (h : Host) : List String :=
  [host, n h.sessions, n h.silent, n (h.uptimeSecs / h.sessions), n h.longestSecs,
    n h.decodeErrors, n h.failedAttempts, n h.unplaced, n h.rateLimited, h.userAgent]

/-- The hosts by sessions, then the hosts the tree could not follow. -/
def hostTables (s : Stats) (out : String) (top : Nat) : String :=
  let hosts := s.hosts.sortedBy fun e => rank e.2.sessions e.1
  let out := table (sectionTitle out ("hosts by sessions (top " ++ toString top ++ ")"))
    (["host", "sessions", "silent", "mean s", "longest s", "decode err", "failed", "unplaced",
      "rate limited", "user agent"] :: (hosts.take top).map fun e => hostRow e.1 e.2)
  let unplaced := s.hosts.retain fun _ h => 0 < h.unplaced
  if unplaced.size = 0 then out
  else
    let sorted := unplaced.sortedBy fun e => rank e.2.unplaced e.1
    table
      (sectionTitle out ("hosts announcing blocks without a height (" ++
        toString unplaced.size ++ " hosts, top " ++ toString top ++ ")"))
      (["host", "unplaced", "sessions", "user agent"] :: (sorted.take top).map fun e =>
        [e.1, n e.2.unplaced, n e.2.sessions, e.2.userAgent])

def userAgents (s : Stats) (out : String) (top : Nat) : String :=
  let agents := s.hostsByUserAgent.sortedBy fun e => rank e.2.card e.1
  table (sectionTitle out ("user agents by hosts (top " ++ toString top ++ ")"))
    (["user agent", "hosts", "handshakes"] :: (agents.take top).map fun e =>
      [e.1, n e.2.card, n ((s.handshakesByUserAgent.lookup e.1).getD 0)])

/-- How many hashes of each number of leading zeros were placed, and how many were not. -/
def zeros (blocks : List (Sigma fun _ : String => Bool)) : BTreeMap Nat (Nat × Nat) :=
  blocks.foldl (fun zeros block => zeros.entry (leadingZeros block.1) fun counts =>
    if block.2 then (counts.1 + 1, counts.2) else (counts.1, counts.2 + 1)) ∅

def blockTable (s : Stats) (out : String) : String :=
  table (sectionTitle out "distinct block hashes by leading zero hex digits")
    (["zeros", "with height", "without height"] :: (zeros s.blocks.entries).toList.map fun row =>
      [n row.1, n row.2.1, n row.2.2])

def serviceTable [StatsText] (out what : String) (bits : ServiceBits) : String :=
  table (sectionTitle out (what ++ " (" ++ n bits.fields ++ " fields)"))
    (["bit", "name", "fields", "share"] ::
      bits.bits.toList.map (fun (bit, count) =>
        [n bit, serviceName bit, n count, share count bits.fields]) ++
      [["all", "every bit set", n bits.allOnes, share bits.allOnes bits.fields]])

def services [StatsText] (s : Stats) (out : String) : String :=
  serviceTable (serviceTable out "handshake service bits" s.handshakeServices)
    "gossiped entry service bits" s.gossipServices

/-- The whole summary as text. -/
def report [StatsText] (s : Stats) (top : Nat) : String :=
  let out := s.coverage ""
  let out := s.sessions out
  let out := s.hostTables out top
  let out := s.userAgents out top
  let out := s.blockTable out
  s.services out

end Stats

/-! ## Reading the files -/

/-- An opened archive and what its reader yields. -/
structure Archive where
  header : ArchiveHeader
  events : List (Except ReadError PeerEvent)

def readFile (stats : Stats) (file : Except ReadError Archive) : Except ReadError Stats := do
  let archive ← file
  let stats := if stats.network.isEmpty then { stats with network := archive.header.network }
    else stats
  archive.events.foldlM (fun stats event => return stats.observe (← event)) stats

/-- Reads every file into one `Stats`. -/
def run (files : List (Except ReadError Archive)) : Except ReadError Stats :=
  files.foldlM readFile {}

end P2PObserver.ArchiveStats
