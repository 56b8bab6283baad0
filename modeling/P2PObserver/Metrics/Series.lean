import P2PObserver.Archive.Stats
import P2PObserver.Decoded
import P2PObserver.Lib.Capped
import P2PObserver.Metrics.Labels
import P2PObserver.Metrics.Observe

/-! # The series of the metrics tool

What each message from the observer adds to the registry: the series it touches, by their labels,
and how much it adds to the count of each. A value that only a gauge shows or that a histogram
sorts into its buckets is left out.
-/

namespace P2PObserver

namespace Metrics

open ArchiveStats (enumLabel isWhitespace)

/-! ## Labels -/

def USER_AGENT_CAP : Nat := 128
def PROTOCOL_VERSION_CAP : Nat := 32
def USER_AGENT_MAX_CHARS : Nat := 64

/-- The transport version as announced. -/
def transport : Option UInt32 → String
  | some 1 => "v1"
  | some 2 => "v2"
  | _ => "unknown"

/-- A text without what is in parentheses, `depth` of which are open. -/
def withoutComments : Nat → List Char → List Char
  | _, [] => []
  | depth, '(' :: rest => withoutComments (depth + 1) rest
  | depth, ')' :: rest => withoutComments (depth - 1) rest
  | 0, c :: rest => c :: withoutComments 0 rest
  | depth + 1, _ :: rest => withoutComments (depth + 1) rest

def trim (text : List Char) : List Char :=
  ((text.dropWhile isWhitespace).reverse.dropWhile isWhitespace).reverse

/-- The client behind a user agent, without comments and enclosing slashes. -/
def userAgent (raw : String) : String :=
  let segments := ((withoutComments 0 raw.toList).splitOn '/').map trim
  let joined := ['/'].intercalate (segments.filter fun s => !s.isEmpty)
  if joined.isEmpty then "unknown" else String.ofList (joined.take USER_AGENT_MAX_CHARS)

/-- The commands with a label of their own. -/
def KNOWN : List String :=
  ["addr", "addrv2", "alert", "block", "blocktxn", "cfcheckpt", "cfheaders", "cfilter",
    "cmpctblock", "feefilter", "filteradd", "filterclear", "filterload", "getaddr", "getblocks",
    "getblocktxn", "getcfcheckpt", "getcfheaders", "getcfilters", "getdata", "getheaders",
    "headers", "inv", "mempool", "merkleblock", "notfound", "ping", "pong", "reject",
    "sendaddrv2", "sendcmpct", "sendheaders", "sendtxrcncl", "tx", "verack", "version",
    "wtxidrelay"]

def command (raw : String) : String := if raw ∈ KNOWN then raw else OTHER

def NAMED : List (UInt64 × String) :=
  [(1, "network"), (2, "getutxo"), (4, "bloom"), (8, "witness"), (16, "xthin"),
    (64, "compact_filters"), ((1 : UInt64) <<< 10, "network_limited"),
    ((1 : UInt64) <<< 11, "p2p_v2")]

def serviceBit (bit : Nat) : String :=
  match NAMED.find? fun named => named.1 = 1 <<< UInt64.ofNat bit with
  | some (_, name) => name
  | none => "bit_" ++ toString bit

/-- Service bits by name. -/
def serviceBits (services : UInt64) : List String :=
  if services = 0 then ["none"]
  else if services = UInt64.ofNat (UInt64.size - 1) then ["all"]
  else ((List.range 64).filter fun bit => services &&& (1 <<< UInt64.ofNat bit) ≠ 0).map serviceBit

/-- The names of an enumeration, by number. -/
abbrev EnumNames := List String

/-- The name of a value read off the wire; one without a name is read as the first. -/
def EnumNames.get (names : EnumNames) (raw : Int32) : String :=
  (if raw.toInt < 0 then none else names[raw.toInt.toNat]?).getD (names.headD "")

def announcementType : EnumNames :=
  ["ANNOUNCEMENT_TYPE_UNKNOWN", "ANNOUNCEMENT_TYPE_INV", "ANNOUNCEMENT_TYPE_HEADERS",
    "ANNOUNCEMENT_TYPE_COMPACT_BLOCK"]

def probeStage : EnumNames :=
  ["PROBE_STAGE_UNKNOWN", "PROBE_STAGE_REQUESTED", "PROBE_STAGE_ANSWERED"]

def addrMessage : EnumNames := ["ADDR_MESSAGE_UNKNOWN", "ADDR_MESSAGE_ADDR", "ADDR_MESSAGE_ADDRV2"]

def disconnectReason : EnumNames :=
  ["DISCONNECT_REASON_UNKNOWN", "DISCONNECT_REASON_PEER_CLOSED", "DISCONNECT_REASON_TRUNCATED",
    "DISCONNECT_REASON_CONNECTION_RESET", "DISCONNECT_REASON_DECODE_ERROR",
    "DISCONNECT_REASON_V2_DECRYPT_ERROR", "DISCONNECT_REASON_WRITE_ERROR",
    "DISCONNECT_REASON_OTHER", "DISCONNECT_REASON_OTHER_CHAIN",
    "DISCONNECT_REASON_OVERSIZED_MESSAGE", "DISCONNECT_REASON_PING_TIMEOUT",
    "DISCONNECT_REASON_PROTOCOL_VIOLATION", "DISCONNECT_REASON_WRONG_MAGIC"]

def failureReason : EnumNames :=
  ["FAILURE_REASON_UNKNOWN", "FAILURE_REASON_CONNECTION_REFUSED",
    "FAILURE_REASON_HOST_UNREACHABLE", "FAILURE_REASON_TCP_CONNECT_TIMEOUT",
    "FAILURE_REASON_V2_TRANSPORT_TIMEOUT", "FAILURE_REASON_VERSION_HANDSHAKE_TIMEOUT",
    "FAILURE_REASON_V2_TRANSPORT_HANDSHAKE", "FAILURE_REASON_VERSION_HANDSHAKE",
    "FAILURE_REASON_UNEXPECTED_EOF", "FAILURE_REASON_OTHER"]

def ourFaultReason : EnumNames :=
  ["OUR_FAULT_REASON_UNKNOWN", "OUR_FAULT_REASON_NETWORK_UNREACHABLE",
    "OUR_FAULT_REASON_PROXY_UNREACHABLE", "OUR_FAULT_REASON_NETWORK_DISABLED"]

/-! ## The registry -/

/-- The families with a network label. -/
inductive Family where
  | eventsTotal
  | eventBytesTotal
  | undecodableEventsTotal
  | eventDelaySeconds
  | lastEventTimestampSeconds
  | observerDroppedEvents
  | observerDroppedEventsByKind
  | observerRestartsTotal
  | connectionAttemptsTotal
  | connectionSetupSeconds
  | sessionDurationSeconds
  | sessionMessagesTotal
  | unsolicitedPongsTotal
  | silentSessionsTotal
  | handshakesTotal
  | handshakeUserAgentsTotal
  | handshakeProtocolVersionsTotal
  | handshakeServicesTotal
  | handshakeFeaturesTotal
  | handshakeClockSkewSeconds
  | handshakeHeightDelta
  | bestHeight
  | pingRttSeconds
  | pingTcpSrttSeconds
  | pingTcpMinRttSeconds
  | pingTcpRttvarSeconds
  | pingTcpCwndSegments
  | pingTcpRetransmits
  | pingTcpDeliveryRateBytesPerSecond
  | blockAnnouncementsTotal
  | blocksTotal
  | blockAnnouncementBatchSize
  | blockPropagationSeconds
  | compactBlockShortIds
  | compactBlockPrefilledTxs
  | compactBlockProbesTotal
  | feeFiltersTotal
  | feeFilterSatPerKvb
  | sendCmpctTotal
  | addressAnnouncementsTotal
  | addressAnnouncementEntries
  | addressEntriesTotal
  | addressEntryServicesTotal
  | addressEntryAgeSeconds
  | unparsedAddressEntriesTotal
  | rateLimitedAddressEntriesTotal
  | solicitedAddressAnnouncementsTotal
  | selfAnnouncementsTotal
  | addressRateLimitTokens
  deriving DecidableEq

/-- A series touched: its labels but for the network, and what is added to its count. A histogram
    counts its samples, a gauge counts nothing. -/
structure Touch where
  family : Family
  labels : List String
  amount : Nat
  deriving DecidableEq

namespace Touch

def inc (family : Family) (labels : List String) : Touch := ⟨family, labels, 1⟩

def incBy (family : Family) (labels : List String) (amount : Nat) : Touch :=
  ⟨family, labels, amount⟩

def observe (family : Family) (labels : List String) : Touch := ⟨family, labels, 1⟩

def set (family : Family) (labels : List String) : Touch := ⟨family, labels, 0⟩

/-- What some touches add together. -/
def weigh (which : Touch → Bool) (touches : List Touch) : Nat :=
  ((touches.filter which).map amount).sum

end Touch

/-! ## Messages -/

/-- An event as the tool reads it: besides what the other tools read, the run it comes from and
    the services of each gossiped address. -/
structure Received extends Decoded.PeerEvent where
  instanceId : UInt64
  addressServices : List UInt64

/-- A message from NATS, with what its payload decodes as. -/
structure NatsMessage where
  subject : String
  size : Nat
  event : Option Received

/-- The network token of an event subject. -/
def networkOf (subject : String) : Option String :=
  match subject.toList.splitOn '.' with
  | [start, network, _] =>
      if start = "p2p-observer".toList then some (String.ofList network) else none
  | _ => none

def kindOf (event : Option Decoded.Event) : String :=
  match event with
  | some (.pingRtt _) => "ping_rtt"
  | some (.blockAnnouncement _) => "block_announcement"
  | some (.addressAnnouncement _) => "address_announcement"
  | some (.connectionResult _) => "connection_result"
  | some (.handshake _) => "handshake"
  | some (.compactBlockProbe _) => "compact_block_probe"
  | some (.feeFilter _) => "fee_filter"
  | some (.sendCmpct _) => "send_cmpct"
  | none => "none"

/-- What is remembered about one network between events. -/
structure Memory where
  instanceId : Option UInt64
  bestHeight : Option UInt32
  blocks : RecentBlocks String
  userAgents : Capped String
  protocolVersions : Capped String

def Memory.default : Memory :=
  ⟨none, none, .empty, .new USER_AGENT_CAP, .new PROTOCOL_VERSION_CAP⟩

/-! ## Observing -/

open Touch

/-- Touches with what is remembered after them. -/
abbrev Observed := Memory × List Touch

def observeDroppedByKind : List Touch :=
  Kinds.map fun kind => set .observerDroppedEventsByKind [kind]
where
  Kinds : List String :=
    ["ping_rtt", "block_announcement", "address_announcement", "connection_result", "handshake",
      "compact_block_probe", "fee_filter", "send_cmpct"]

/-- What every event says about the pipeline that delivered it. -/
def observePipeline (net : Memory) (event : Received) : Observed :=
  let restarted := net.instanceId.any fun previous => previous ≠ event.instanceId
  ({ net with instanceId := some event.instanceId },
    [observe .eventDelaySeconds [], set .lastEventTimestampSeconds [],
      set .observerDroppedEvents []] ++
    (if event.droppedByKind.isSome then observeDroppedByKind else []) ++
    -- the old run's drops are gone with it
    if restarted then inc .observerRestartsTotal [] :: observeDroppedByKind else [])

/-- Whether a peer filled in the address it sees us at. -/
def addrRecvIsSet (addrRecv : String) : Bool :=
  !addrRecv.isEmpty && !"0.0.0.0:".toList.isPrefixOf addrRecv.toList && addrRecv != "[::]:0"

def observeHandshake (net : Memory) (event : Received) (hs : Decoded.Handshake) : Observed :=
  let userAgent := userAgent hs.userAgent
  let version := toString hs.protocolVersion
  let features :=
    [("relay", hs.relay), ("sendaddrv2", hs.sendaddrv2), ("wtxid_relay", hs.wtxidRelay),
      ("addr_recv", addrRecvIsSet hs.addrRecv)]
  ({ net with
      userAgents := net.userAgents.next userAgent
      protocolVersions := net.protocolVersions.next version },
    [inc .handshakesTotal [transport event.transportVersion],
      inc .handshakeUserAgentsTotal [net.userAgents.label OTHER userAgent],
      inc .handshakeProtocolVersionsTotal [net.protocolVersions.label OTHER version]] ++
    (serviceBits hs.services).map (fun bit => inc .handshakeServicesTotal [bit]) ++
    (features.filter Prod.snd).map (fun feature => inc .handshakeFeaturesTotal [feature.1]) ++
    [observe .handshakeClockSkewSeconds []] ++
    if net.bestHeight.isSome then [observe .handshakeHeightDelta []] else [])

def observeTcp (tcp : Decoded.TcpStats) : List Touch :=
  [observe .pingTcpSrttSeconds [], observe .pingTcpRttvarSeconds [],
    observe .pingTcpCwndSegments [], observe .pingTcpRetransmits []] ++
  (if tcp.minRttUs.isSome then [observe .pingTcpMinRttSeconds []] else []) ++
  if tcp.deliveryRate.isSome then [observe .pingTcpDeliveryRateBytesPerSecond []] else []

def observePing (ping : Decoded.PingRtt) : List Touch :=
  observe .pingRttSeconds [] :: (ping.tcpStats.map observeTcp).getD []

def observeBlockAnnouncement (net : Memory) (event : Received)
    (blk : Decoded.BlockAnnouncement) : Observed :=
  let atype := enumLabel (announcementType.get blk.announcementType) "ANNOUNCEMENT_TYPE_"
  let height := if blk.height.isSome then "known" else "unknown"
  let shape :=
    if blk.compactBlock.isSome then
      [observe .compactBlockShortIds [], observe .compactBlockPrefilledTxs []]
    else []
  let higher := blk.height.filter fun height => net.bestHeight.all (· < height)
  let net := match higher with
    | some height => { net with bestHeight := some height }
    | none => net
  let announced := [inc .blockAnnouncementsTotal [atype, height],
      observe .blockAnnouncementBatchSize []] ++ shape ++
    if higher.isSome then [set .bestHeight []] else []
  if blk.newToUs then
    ({ net with blocks := net.blocks.record blk.blockHash event.timestampMs.toNat },
      announced ++ [inc .blocksTotal [atype, height]])
  else
    (net, announced ++ if (net.blocks.firstSeen blk.blockHash).isSome then
      [observe .blockPropagationSeconds [atype, height]] else [])

/-- What the messages of an ended session add. -/
def observeSession (d : Decoded.Disconnected) : List Touch :=
  [observe .sessionDurationSeconds []] ++
  d.messagesByCommand.entries.map (fun count =>
    incBy .sessionMessagesTotal [command count.1] count.2.toNat) ++
  (if 0 < d.messagesOther then
    [incBy .sessionMessagesTotal [OTHER] d.messagesOther.toNat] else []) ++
  (if 0 < d.unsolicitedPongs then
    [incBy .unsolicitedPongsTotal [] d.unsolicitedPongs.toNat] else []) ++
  if d.messagesByCommand.size = 0 ∧ d.messagesOther = 0 then [inc .silentSessionsTotal []] else []

def observeConnectionResult (result : Option Decoded.Attempt) : List Touch :=
  let ended (outcome reason : String) :=
    [inc .connectionAttemptsTotal [outcome, reason], observe .connectionSetupSeconds [outcome]]
  match result with
  | some (.disconnected d) =>
      observeSession d ++
        ended "disconnected" (enumLabel (disconnectReason.get d.reason) "DISCONNECT_REASON_")
  | some (.failed reason _) =>
      ended "failed" (enumLabel (failureReason.get reason) "FAILURE_REASON_")
  | some (.ourFault reason _) =>
      ended "our_fault" (enumLabel (ourFaultReason.get reason) "OUR_FAULT_REASON_")
  | none => ended "unknown" "unknown"

def observeSendCmpct (sc : SendCmpct) : List Touch :=
  let mode := if sc.highBandwidth then "high" else "low"
  let version := if sc.version = 1 then "1" else if sc.version = 2 then "2" else OTHER
  [inc .sendCmpctTotal [mode, version]]

/-- How often each label is among some, gathered before a series is touched. -/
def gather (labels : List String) : HashMap String Nat :=
  labels.foldl (fun held label => held.entry label (· + 1)) ∅

def observeAddressAnnouncement [HostText] (event : Received) (ann : Decoded.AddressAnnouncement) :
    List Touch :=
  let message := enumLabel (addrMessage.get ann.message) "ADDR_MESSAGE_"
  let alone := ann.addresses.length = 1 ∧ ann.unparsed = 0 ∧
    ann.addresses.head?.map host = some (host event.peerAddr)
  [inc .addressAnnouncementsTotal [message], observe .addressAnnouncementEntries []] ++
  (if 0 < ann.unparsed then
    [incBy .unparsedAddressEntriesTotal [] ann.unparsed.toNat] else []) ++
  (if 0 < ann.rateLimited then
    [incBy .rateLimitedAddressEntriesTotal [] ann.rateLimited.toNat] else []) ++
  (if ann.solicited then [inc .solicitedAddressAnnouncementsTotal []] else []) ++
  [set .addressRateLimitTokens []] ++
  (if alone then [inc .selfAnnouncementsTotal []] else []) ++
  -- the series is there without a sample
  incBy .addressEntryAgeSeconds [] 0 ::
  ann.addresses.map (fun _ => observe .addressEntryAgeSeconds []) ++
  (gather (ann.addresses.map addressNet)).entries.map (fun count =>
    incBy .addressEntriesTotal [count.1] count.2) ++
  (gather (event.addressServices.flatMap serviceBits)).entries.map fun count =>
    incBy .addressEntryServicesTotal [count.1] count.2

/-- What an event says about the peer it came from. -/
def observeEvent [HostText] (net : Memory) (event : Received) : Observed :=
  match event.event with
  | some (.handshake hs) => observeHandshake net event hs
  | some (.pingRtt ping) => (net, observePing ping)
  | some (.blockAnnouncement blk) => observeBlockAnnouncement net event blk
  | some (.connectionResult result) => (net, observeConnectionResult result)
  | some (.addressAnnouncement ann) => (net, observeAddressAnnouncement event ann)
  | some (.compactBlockProbe probe) =>
      let stage := enumLabel (probeStage.get probe.stage) "PROBE_STAGE_"
      (net, [inc .compactBlockProbesTotal [stage]])
  | some (.feeFilter _) => (net, [inc .feeFiltersTotal [], observe .feeFilterSatPerKvb []])
  | some (.sendCmpct sc) => (net, observeSendCmpct sc)
  | none => (net, [])

/-- Turns one event into its samples and increments. -/
def observe [HostText] (net : Memory) (event : Received) : Observed :=
  let (net, pipeline) := observePipeline net event
  let (net, touches) := observeEvent net event
  (net, pipeline ++ touches)

/-- One message of a network: decoded, counted and observed. -/
def handleMessage [HostText] (net : Memory) (message : NatsMessage) : Observed :=
  match message.event with
  | none => (net, [inc .undecodableEventsTotal []])
  | some event =>
      let kind := kindOf event.event
      let (net, touches) := observe net event
      (net, inc .eventsTotal [kind] :: incBy .eventBytesTotal [kind] message.size :: touches)

/-! ## The tool -/

/-- What is remembered of each network, and every series touched so far with its network. -/
structure Registry where
  networks : HashMap String Memory
  touches : List (String × Touch)

namespace Registry

def new : Registry := ⟨∅, []⟩

def network (r : Registry) (network : String) : Memory :=
  (r.networks.lookup network).getD .default

def step [HostText] (r : Registry) (message : NatsMessage) : Registry :=
  match networkOf message.subject with
  | none => r
  | some network =>
      let (net, touches) := handleMessage (r.network network) message
      ⟨r.networks.insert network net, r.touches ++ touches.map fun t => (network, t)⟩

def run [HostText] (messages : List NatsMessage) : Registry := Run.runFrom step new messages

/-- The series of a network that have been touched. -/
def series (r : Registry) (network : String) : Finset (Family × List String) :=
  ((r.touches.filter (·.1 = network)).map fun t => (t.2.family, t.2.labels)).toFinset

/-- What has been touched on a network, oldest first. -/
def on (r : Registry) (network : String) : List Touch :=
  (r.touches.filter (·.1 = network)).map Prod.snd

/-- What a counter shows, a number that goes around. -/
def counter (r : Registry) (network : String) (family : Family) (labels : List String) : UInt64 :=
  .ofNat (Touch.weigh (fun t => t.family = family ∧ t.labels = labels) (r.on network))

/-- What the counters of a family show together. -/
def total (r : Registry) (network : String) (family : Family) : UInt64 :=
  .ofNat (Touch.weigh (fun t => t.family = family) (r.on network))

end Registry

end Metrics

end P2PObserver
