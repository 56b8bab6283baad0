import P2PObserver.Addresses.Manager
import P2PObserver.HeaderTree.Basic
import P2PObserver.Lib.Program
import P2PObserver.Protocol.Connection
import P2PObserver.Protocol.Errors

/-! # A session

The message handlers and the loop around them, as programs over what is outside the task: the
shared header tree, one lock at a time, the clocks, the transport and the manager.
-/

namespace P2PObserver

/-! ## Constants -/

def MAX_HEADERS_ANNOUNCED : Nat := 8
def MAX_BLOCK_INVS_ANNOUNCED : Nat := MAX_HEADERS_ANNOUNCED

/-- The most items an inv may carry, past which the session ends. -/
def MAX_INV_SIZE : Nat := 50000

/-- The longest locator we will walk, in hashes. -/
def MAX_LOCATOR_SZ : Nat := 101

def HIGH_BANDWIDTH_COMPACT_BLOCKS : Bool := true

/-! ## Questions -/

/-- What a bounded wait came to. -/
inductive Timed (α : Type) where
  | elapsed
  | finished (value : α)

/-- What wakes the message loop. -/
inductive Woken (H : Type) where
  | tick
  | message (message : NetworkMessage H)
  | failed (error : TransportError)

/-- What a task asks of its surroundings. Every question about the tree takes its lock. -/
inductive Question (H : Type) where
  | tip
  | seen (hash : H)
  | seenEach (hashes : List H)
  | insertBatch (headers : List (Header H))
  /-- The height of a block and why it was refused, read together. -/
  | placement (hash : H)
  | rejectionOf (hash : H)
  | recoveryDue (missing : H) (proven : Bool)
  | buildLocator
  | getHeadersFromLocator (locator : List H) (stop : H)
  /-- `PEER_ID.fetch_add`. -/
  | peerId
  /-- `Instant::now`. -/
  | now
  | unixMs
  | random
  | send (message : NetworkMessage H)
  /-- A send within the time of the version handshake. -/
  | handshakeSend (message : NetworkMessage H)
  | handshakeRecv
  | select
  /-- How many messages the reader has skipped. -/
  | undecodable
  | socksConnect (proxy : SocketAddr) (target : String)
  | tcpConnect (addr : SocketAddr)
  | setNodelay
  | setUserTimeout
  | bip324Handshake
  | emit (event : PeerEvent H)
  | gossip (addrs : List Gossiped)
  | lifecycle (msg : Lifecycle)

@[reducible] def Answer {H : Type} : Question H → Type
  | .tip => H × Nat
  | .seen _ => Bool
  | .seenEach _ => List Bool
  | .insertBatch _ => Nat × Option HeaderError
  | .placement _ => Option Nat × Option HeaderError
  | .rejectionOf _ => Option HeaderError
  | .recoveryDue .. => Bool
  | .buildLocator => List H
  | .getHeadersFromLocator .. => List (Header H)
  | .peerId => UInt64
  | .now => ℚ
  | .unixMs => UInt64
  | .random => UInt64
  | .send _ => Option TransportError
  | .handshakeSend _ => Timed (Option TransportError)
  | .handshakeRecv => Timed (Except TransportError (NetworkMessage H))
  | .select => Woken H
  | .undecodable => UInt32
  | .socksConnect .. => Timed (Option TransportError)
  | .tcpConnect _ => Timed (Option IoErrorKind)
  | .setNodelay => Option IoErrorKind
  | .setUserTimeout => Option IoErrorKind
  | .bip324Handshake => Timed (Option TransportError)
  | .emit _ => Unit
  | .gossip _ => Unit
  | .lifecycle _ => Unit

/-- The code of a task, failing with errors. -/
abbrev Routine (H R : Type) := Program (Question H) Answer AnyError R

/-- A handler's code: what fails leaves the connection as it was then. -/
abbrev Handler (H R : Type) := Program (Question H) Answer (AnyError × Connection H) R

/-- Ask, whatever the kind of code. -/
def ask {H E : Type} (q : Question H) : Program (Question H) Answer E (Answer q) := .question q

/-- The items that announce a block: its hash, and whether as a compact block. -/
def Inventory.announces {H : Type} : Inventory H → Option (H × Bool)
  | .block hash | .witnessBlock hash => some (hash, false)
  | .compactBlock hash => some (hash, true)
  | .other => none

/-- Why the tree refused a header, as the archive says it. -/
def unplacedFor : HeaderError → Unplaced
  | .orphanHeader => .orphan
  | .weakerChain => .weakerChain
  | .invalidPow | .targetTooEasy => .invalidPow
  | .checkpointMismatch => .checkpointMismatch
  | .forkBelowCheckpoint => .forkBelowCheckpoint

namespace Connection

variable {H : Type} [DecidableEq H]

/-! ## Sending and emitting -/

def send (conn : Connection H) (message : NetworkMessage H) : Handler H Unit := do
  match ← ask (.send message) with
  | none => return ()
  | some e => .fail (.ofTransport e, conn)

/-- Fails with an error of the session's own. -/
def throw {R : Type} (conn : Connection H) (root : Root) : Handler H R :=
  .fail (.ofRoot root, conn)

def emitEvent (conn : Connection H) (event : Event H) : Handler H Unit := do
  let timestampMs ← ask .unixMs
  ask (.emit
    { timestampMs
      peerAddr := conn.addr
      userAgent := conn.handshakeInfo.version.userAgent
      transportVersion := some conn.transportVersion.toUInt32
      connectionId := conn.connectionId
      droppedEvents := 0
      instanceId := 0
      droppedByKind := none
      event := some event })

/-- Looked up after any insertion, so a header just accepted has a height. -/
def emitBlockAnnouncement (conn : Connection H) (hash : H) (announcementType : AnnouncementType)
    (batchSize : Nat) (newToUs : Bool) (compactBlock : Option CompactBlockShape) :
    Handler H Unit := do
  let (height, rejection) ← ask (.placement hash)
  let unplaced := match height, rejection with
    | some _, _ => none
    | none, some reason => some (unplacedFor reason)
    | none, none => some (if announcementType = .inv then .noHeader else .orphan)
  conn.emitEvent (.blockAnnouncement
    { blockHash := hash, announcementType, batchSize, height, newToUs, compactBlock, unplaced })

def emitCompactBlockProbe (conn : Connection H) (blockHash : H) (stage : ProbeStage) :
    Handler H Unit :=
  conn.emitEvent (.compactBlockProbe { blockHash, stage })

/-! ## Headers -/

variable (net : Network H)

def sendGetheaders (conn : Connection H) : Handler H Unit := do
  let locator ← ask .buildLocator
  let _ ← ask .tip
  conn.send (.getHeaders
    { version := WTXID_RELAY_VERSION, locatorHashes := locator, stopHash := net.zeroHash })

/-- Ask this peer for headers because an announcement has shown the tree to be behind. -/
def recoverHeaders (conn : Connection H) (missing : H) (proven : Bool) :
    Handler H (Connection H) := do
  if conn.askedFor = some missing then return conn
  -- Not missing: refused. Asking for it again would fetch the same chain.
  let rejection ← ask (.rejectionOf missing)
  if rejection.isSome then return conn
  let due ← ask (.recoveryDue missing proven)
  if !due then return conn
  let conn := { conn with askedFor := some missing }
  conn.sendGetheaders net
  return conn

/-- Offer headers to the tree: how many were new, and the verdict when the peer has shown
    itself to be on a chain we refuse. -/
def acceptHeaders (conn : Connection H) (headers : List (Header H)) :
    Handler H (Connection H × Nat × Option HeaderError) := do
  let (accepted, err) ← ask (.insertBatch headers)
  let _ ← ask .tip
  match err with
  | none => return (conn, accepted, none)
  | some e =>
      if e = .orphanHeader ∧ conn.syncHeaders = false then
        -- The tree is behind. The newest header is the block being announced.
        match headers.getLast? with
        | none => return (conn, accepted, none)
        | some newest =>
            let conn ← conn.recoverHeaders net (net.blockHash newest) true
            return (conn, accepted, none)
      else return (conn, accepted, if e.isOtherChain then some e else none)

/-- One announcement a header, each with whether it was known before the insertion. -/
def announceHeaders (conn : Connection H) (batchSize : Nat) :
    List (Header H × Bool) → Handler H Unit
  | [] => return ()
  | (header, known) :: rest => do
      conn.emitBlockAnnouncement (net.blockHash header) .headers batchSize (!known) none
      conn.announceHeaders batchSize rest

/-- The announcements a HEADERS message is worth: none in a sync or for a sync response. -/
def announceBatch (conn : Connection H) (headers : List (Header H)) (knownBefore : List Bool) :
    Handler H Unit :=
  if conn.syncHeaders = false ∧ headers.length ≤ MAX_HEADERS_ANNOUNCED then
    conn.announceHeaders net headers.length (headers.zip knownBefore)
  else return ()

def handleHeaders (conn : Connection H) (headers : List (Header H)) :
    Handler H (Connection H) := do
  if headers.isEmpty then
    if conn.syncHeaders then
      let _ ← ask .tip
      conn.throw .syncComplete
    else return conn
  else
    let knownBefore ← ask (.seenEach (headers.map net.blockHash))
    let (conn, accepted, otherChain) ← conn.acceptHeaders net headers
    conn.announceBatch net headers knownBefore
    -- The announcements are out. Now the session ends.
    match otherChain with
    | some reason => conn.throw (.otherChain reason)
    | none =>
        if conn.syncHeaders && 0 < accepted then
          conn.sendGetheaders net
          return conn
        else return conn

/-! ## Other announcements -/

/-- The loop over an inv: what is left of it, how many were announced and the compact blocks
    to ask for. -/
def announceInv (conn : Connection H) (blocks : Nat) :
    List (Inventory H) → Nat → List (Inventory H) →
      Handler H (Connection H × List (Inventory H))
  | [], _, getdata => return (conn, getdata)
  | item :: rest, announced, getdata =>
      match item.announces with
      | none => conn.announceInv blocks rest announced getdata
      | some (hash, compact) =>
          if MAX_BLOCK_INVS_ANNOUNCED ≤ announced then return (conn, getdata)
          else do
            let known ← ask (.seen hash)
            conn.emitBlockAnnouncement hash .inv blocks (!known) none
            let getdata := if compact then getdata ++ [.compactBlock hash] else getdata
            if known then conn.announceInv blocks rest (announced + 1) getdata
            else
              -- An inv carries no header, so an unknown block is asked for by headers.
              let conn ← conn.recoverHeaders net hash false
              conn.announceInv blocks rest (announced + 1) getdata

def handleInv (conn : Connection H) (inv : List (Inventory H)) : Handler H (Connection H) := do
  if MAX_INV_SIZE < inv.length then
    conn.throw (.protocolViolation
      s!"inv of {inv.length} items, over the protocol's {MAX_INV_SIZE}")
  else
    let blocks := inv.countP fun item => item.announces.isSome
    let (conn, getdata) ← conn.announceInv net blocks inv 0 []
    if getdata.isEmpty then return conn
    else
      conn.send (.getData getdata)
      return conn

/-- Ask for the coinbase of a compact block. -/
def requestCompactBlockCoinbase (conn : Connection H) (hash : H) : Handler H Unit := do
  conn.send (.getBlockTxn hash [0])
  conn.emitCompactBlockProbe hash .requested

def handleCmpctBlock (conn : Connection H) (cmpct : CmpctBlock H) :
    Handler H (Connection H) := do
  let hash := net.blockHash cmpct.header
  let known ← ask (.seen hash)
  let shape : CompactBlockShape := ⟨cmpct.shortIds, cmpct.prefilledTxs⟩
  let (conn, _, otherChain) ← conn.acceptHeaders net [cmpct.header]
  conn.emitBlockAnnouncement hash .compactBlock 1 (!known) (some shape)
  match otherChain with
  | some reason => conn.throw (.otherChain reason)
  | none =>
      if conn.probeCompactBlocks then
        conn.requestCompactBlockCoinbase hash
        return conn
      else return conn

/-! ## The other messages -/

def handlePong (conn : Connection H) (nonce : UInt64) : Handler H (Connection H) := do
  let now ← ask .now
  let (claimed, stats) := conn.stats.claimPong nonce now
  let conn := { conn with stats }
  if claimed then
    let ms ← ask .unixMs
    conn.emitEvent (.pingRtt { rttMs := .ofNat (ms.toNat - nonce.toNat) })
    return conn
  else return conn

/-- Publishes what was announced and hands the rest to the manager. -/
def deliver (offered : Offered H) : Handler H (Connection H) := do
  offered.conn.emitEvent (.addressAnnouncement offered.event)
  if offered.gossip.isEmpty then return offered.conn
  else
    ask (.gossip offered.gossip)
    return offered.conn

/-- `stats.getheaders_ignored += 1`, saturating. -/
def ignoreGetheaders (conn : Connection H) : Connection H :=
  { conn with stats := { conn.stats with
      getheadersIgnored := saturatingAdd conn.stats.getheadersIgnored 1 } }

def handleGetHeaders (conn : Connection H) (msg : GetHeadersMessage H) :
    Handler H (Connection H) := do
  let now ← ask .now
  let restart ← ask .now
  let (answer, conn) := conn.mayAnswerGetheaders now restart
  if answer then
    let headers ← ask (.getHeadersFromLocator (msg.locatorHashes.take MAX_LOCATOR_SZ) msg.stopHash)
    conn.send (.headers headers)
    return conn
  else return conn.ignoreGetheaders

variable (codec : AddrCodec)

/-- The two readings of the clock a message with addresses causes. -/
def timed (offer : ℚ → ℚ → Offered H) : Handler H (Connection H) := do
  let now ← ask .now
  let restart ← ask .now
  deliver (offer now restart)

/-- The handler of a message. -/
def dispatch (conn : Connection H) (msg : NetworkMessage H) : Handler H (Connection H) := do
  match msg with
  | .ping nonce =>
      conn.send (.pong nonce)
      return conn
  | .pong nonce => conn.handlePong nonce
  | .inv inv => conn.handleInv net inv
  | .headers headers => conn.handleHeaders net headers
  | .cmpctBlock cmpct => conn.handleCmpctBlock net cmpct
  | .addr payload => timed fun now restart => conn.handleAddr codec now restart payload
  | .addrV2 payload => timed fun now restart => conn.handleAddrv2 now restart payload
  | .sendCmpct message =>
      conn.emitEvent (.sendCmpct message)
      return conn
  | .feeFilter satPerKvb =>
      conn.emitEvent (.feeFilter { feerateSatPerKvb := satPerKvb })
      return conn
  | .getHeaders msg => conn.handleGetHeaders msg
  | .blockTxn hash =>
      conn.emitCompactBlockProbe hash .answered
      return conn
  | .unknown command payload =>
      if command = "addrv2" then
        let (received, entries) := codec.parseAddrv2Leniently payload
        timed fun now restart => conn.offerAddrv2 now restart received entries
      else return conn
  | _ => return conn

def handleMessage (conn : Connection H) (msg : NetworkMessage H) : Handler H (Connection H) :=
  { conn with stats := conn.stats.recordMessage msg.command }.dispatch net codec msg

/-! ## The loop -/

def pingTick (conn : Connection H) : Handler H (Connection H) := do
  let now ← ask .now
  match conn.stats.pingTimedOut now with
  | some waited => conn.throw (.pingTimeout waited)
  | none =>
      let nonce ← ask .unixMs
      let conn := { conn with stats := conn.stats.recordPing nonce }
      conn.send (.ping nonce)
      return conn

/-- The message loop, whose only way out is an error. -/
def messageLoop : Nat → Connection H → Handler H (Connection H)
  | 0, _ => .running
  | fuel + 1, conn => do
      match ← ask .select with
      | .tick => messageLoop fuel (← conn.pingTick)
      | .message msg => messageLoop fuel (← conn.handleMessage net codec msg)
      | .failed e => .fail (.ofTransport e, conn)

def run (fuel : Nat) (conn : Connection H) : Handler H (Connection H) := do
  conn.send (.sendCmpct { highBandwidth := HIGH_BANDWIDTH_COMPACT_BLOCKS, version := 2 })
  let conn := { conn with getaddrOutstanding := true }
  conn.send .getAddr
  conn.send .sendHeaders
  conn.sendGetheaders net
  messageLoop net codec fuel conn

end Connection

end P2PObserver
