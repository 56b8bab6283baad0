import P2PObserver.Protocol.Session

/-! # A connection attempt

From the dial to the report of how it ended, for the manager's dialer and for the header sync
before it.
-/

namespace P2PObserver

/-- What an attempt reads of its configuration. -/
structure ProtocolConfig where
  userAgent : String
  syncHeaders : Bool
  probeCompactBlocks : Bool
  torEnabled : Bool
  proxyAddr : String

variable {H : Type} [DecidableEq H]

/-! ## The version handshake -/

/-- `build_version`. -/
def buildVersion (userAgent : String) (startHeight : Int) (timestamp nonce : UInt64) :
    NetworkMessage H :=
  .version
    { version := WTXID_RELAY_VERSION
      services := 1 ||| 8
      timestamp := timestamp.toNat / 1000
      receiver := ⟨0, [0, 0, 0, 0, 0, 0xffff, 0, 0], 0⟩
      nonce
      userAgent
      startHeight
      relay := false }

/-- Code under the time limit of the version handshake. -/
abbrev Handshaking (H R : Type) := Program (Question H) Answer (Timed AnyError) R

namespace VersionHandshake

def send (message : NetworkMessage H) : Handshaking H Unit := do
  match ← ask (.handshakeSend message) with
  | .elapsed => .fail .elapsed
  | .finished none => return ()
  | .finished (some e) => .fail (.finished (.ofTransport e))

/-- utreexod rejects any message between version and verack. -/
def skipSendAddrV2 (v : VersionMessage) : Bool :=
  v.version == 70013 && v.userAgent == "/btcwire:0.5.0/utreexod:0.5.0/"

def sendIf (wanted : Bool) (message : NetworkMessage H) : Handshaking H Unit :=
  if wanted then send message else return ()

/-- Answer the peer's version. -/
def answer (v : VersionMessage) : Handshaking H Unit := do
  sendIf (!skipSendAddrV2 v) .sendAddrV2
  sendIf (WTXID_RELAY_VERSION ≤ v.version) .wtxidRelay
  send .verack

/-- What the peer has said so far. -/
structure State where
  peerVersion : Option VersionMessage
  gotVerack : Bool
  sendAddrV2 : Bool
  wtxidRelay : Bool

def State.info (s : State) : Option HandshakeInfo :=
  match s.peerVersion, s.gotVerack with
  | some version, true => some { version, sendAddrV2 := s.sendAddrV2, wtxidRelay := s.wtxidRelay }
  | _, _ => none

theorem State.info_isSome (s : State) : s.info.isSome = (s.peerVersion.isSome && s.gotVerack) := by
  unfold State.info
  cases s.peerVersion <;> cases s.gotVerack <;> rfl

def receive (s : State) : NetworkMessage H → Handshaking H State
  | .version v => do
      let v := { v with userAgent := capUserAgent v.userAgent }
      answer v
      return { s with peerVersion := some v }
  | .verack => return { s with gotVerack := true }
  | .sendAddrV2 => return { s with sendAddrV2 := true }
  | .wtxidRelay => return { s with wtxidRelay := true }
  | _ => return s

def loop : Nat → State → Handshaking H HandshakeInfo
  | 0, _ => .running
  | fuel + 1, s =>
      match s.info with
      | some info => return info
      | none => do
          match ← ask .handshakeRecv with
          | .elapsed => .fail .elapsed
          | .finished (.error e) => .fail (.finished (.ofTransport e))
          | .finished (.ok message) => loop fuel (← receive s message)

/-- `version_handshake`. -/
def run (fuel : Nat) (userAgent : String) (tipHeight : Int) : Handshaking H HandshakeInfo := do
  let timestamp ← ask .unixMs
  let nonce ← ask .random
  send (buildVersion userAgent tipHeight timestamp nonce)
  loop fuel { peerVersion := none, gotVerack := false, sendAddrV2 := false, wtxidRelay := false }

/-- What a failed handshake is reported as. -/
def error : Timed AnyError → AnyError
  | .elapsed => .ofStage .versionHandshakeTimeout
  | .finished e => e.context (.stage .versionHandshake)

end VersionHandshake

/-! ## A session and how it ends -/

/-- What a session that ran and then ended leaves for the attempt's result. -/
structure SessionEnd where
  /-- When the handshake completed. -/
  connectedAt : ℚ
  error : Option AnyError
  userAgent : String
  messagesByCommand : HashMap String UInt32
  messagesOther : UInt32
  unsolicitedPongs : UInt32
  undecodable : UInt32
  getheadersIgnored : UInt32

/-- Whether the peer sent nothing at all after the handshake. -/
def SessionEnd.silent (end_ : SessionEnd) : Bool :=
  end_.messagesByCommand.entries.isEmpty && end_.messagesOther == 0

section Session

variable (net : Network H) (codec : AddrCodec) (cfg : ProtocolConfig) [SocketText] (fuel : Nat)

/-- Publish what the peer said about itself in its version message. -/
def emitHandshake (connectionId : UInt64) (addr : PeerAddr) (transportVersion : UInt8)
    (info : HandshakeInfo) : Routine H Unit := do
  let version := info.version
  let timestampMs ← ask .unixMs
  ask (.emit
    { timestampMs
      peerAddr := addr
      userAgent := version.userAgent
      transportVersion := some transportVersion.toUInt32
      connectionId
      droppedEvents := 0
      instanceId := 0
      droppedByKind := none
      event := some (.handshake
        { protocolVersion := version.version
          services := version.services
          startHeight := version.startHeight
          relay := version.relay
          peerTimestamp := version.timestamp
          addrRecv := ((codec.socketAddr version.receiver).map SocketAddr.display).getD ""
          sendaddrv2 := info.sendAddrV2
          wtxidRelay := info.wtxidRelay
          userAgent := version.userAgent
          nonce := version.nonce }) })

/-- The end of a session, from the error that ended it and the connection as it was then. -/
def SessionEnd.of (connectedAt : ℚ) (undecodable : UInt32)
    (ended : Except (AnyError × Connection H) (Connection H)) : SessionEnd :=
  let (error, conn) := match ended with
    | .ok conn => (none, conn)
    | .error (e, conn) => (some e, conn)
  { connectedAt
    error
    userAgent := conn.handshakeInfo.version.userAgent
    messagesByCommand := conn.stats.messagesByCommand
    messagesOther := conn.stats.messagesOther
    unsolicitedPongs := conn.stats.unsolicitedPongs
    undecodable
    getheadersIgnored := conn.stats.getheadersIgnored }

/-- Run the session on an established transport. -/
def runSession (connectionId : UInt64) (addr : PeerAddr) (transportVersion : UInt8) :
    Routine H SessionEnd := do
  let (_, tipHeight) ← ask .tip
  let info ← (VersionHandshake.run fuel cfg.userAgent (Int32.ofNat tipHeight).toInt).mapError
    VersionHandshake.error
  let connectedAt ← ask .now
  ask (.lifecycle (.connected addr info.version.services transportVersion))
  -- Before anything else this connection emits.
  emitHandshake codec connectionId addr transportVersion info
  let addrNow ← ask .now
  let getheadersNow ← ask .now
  let pongNow ← ask .now
  let conn := Connection.new addrNow getheadersNow pongNow info addr transportVersion
    connectionId cfg.syncHeaders cfg.probeCompactBlocks
  -- How the session ended is no failure of the attempt.
  let ended ← (conn.run net codec fuel).outcome
  let undecodable ← ask .undecodable
  return .of connectedAt undecodable ended

/-! ## Connecting -/

/-- A socket address for the networks that can be dialled directly. -/
def PeerAddr.socketAddr (addr : PeerAddr) : Option SocketAddr :=
  addr.ip.map fun ip => ⟨ip, addr.port⟩

/-- Apply socket options that matter for long-lived connections. -/
def configureStream : Routine H Unit := do
  match ← ask .setNodelay with
  | some kind => .fail (.ofIo kind "set_nodelay")
  | none =>
      match ← ask .setUserTimeout with
      | some kind => .fail (.ofIo kind "TCP_USER_TIMEOUT")
      | none => return ()

def torConnect (addr : PeerAddr) : Routine H Unit := do
  if !cfg.torEnabled then
    .fail ((AnyError.ofStage .networkDisabled).context
      (.text "attempted to connect to a TorV3 address, but Tor is disabled"))
  else
    match SocketText.socketAddr cfg.proxyAddr with
    | none => .fail ⟨[.text "invalid SOCKS5 proxy address"], .library .other, []⟩
    | some proxy =>
        match ← ask (.socksConnect proxy addr.display) with
        | .elapsed => .fail (.ofStage .torProxyTimeout)
        | .finished (some e) => .fail ((AnyError.ofTransport e).context (.stage .proxyUnreachable))
        | .finished none => configureStream

def ipConnect (addr : PeerAddr) : Routine H Unit := do
  match addr.socketAddr with
  | none => .fail (.ofRoot (.message "address has no socket address"))
  | some socketAddr =>
      match ← ask (.tcpConnect socketAddr) with
      | .elapsed => .fail (.ofStage .tcpConnectTimeout)
      | .finished (some kind) => .fail (.ofIo kind "TCP connect")
      | .finished none => configureStream

def tcpConnect (addr : PeerAddr) : Routine H Unit :=
  match addr.net with
  | .torV3 => torConnect cfg addr
  | .ipv4 | .ipv6 | .cjdns => ipConnect addr
  | .i2p => .fail ((AnyError.ofStage .networkDisabled).context (.text "I2P is not supported yet"))

def connectV2 (id : UInt64) (addr : PeerAddr) : Routine H SessionEnd := do
  tcpConnect cfg addr
  match ← ask .bip324Handshake with
  | .elapsed => .fail (.ofStage .v2TransportTimeout)
  | .finished (some e) => .fail ((AnyError.ofTransport e).context (.stage .v2TransportHandshake))
  | .finished none => runSession net codec cfg fuel id addr 2

def connectV1 (id : UInt64) (addr : PeerAddr) : Routine H SessionEnd := do
  tcpConnect cfg addr
  runSession net codec cfg fuel id addr 1

/-- Connect with whichever transport the hint calls for, then run the session. -/
def connectAndRun (id : UInt64) (dial : Dial) : Routine H (UInt8 × SessionEnd) := do
  match dial.transport with
  | .v2 => return (2, ← connectV2 net codec cfg fuel id dial.addr)
  | .v1Only => return (1, ← connectV1 net codec cfg fuel id dial.addr)
  | .unknown =>
      match ← (connectV2 net codec cfg fuel id dial.addr).outcome with
      | .ok end_ => return (2, end_)
      | .error e =>
          if e.isTcpLevel then .fail e
          else
            -- Told before v1 is tried, so the knowledge survives a failure of v1.
            ask (.lifecycle (.v1Only dial.addr))
            return (1, ← connectV1 net codec cfg fuel id dial.addr)

end Session

/-! ## Results -/

/-- `Duration::as_millis`. -/
def asMillis (duration : ℚ) : UInt64 := .ofNat ⌊duration * 1000⌋.toNat

/-- `Duration::as_secs`. -/
def asSecs (duration : ℚ) : UInt32 := .ofNat ⌊duration⌋.toNat

def disconnectedResult (setup uptime : ℚ) (reason : DisconnectReason) (end_ : SessionEnd) :
    ConnectionResult :=
  .disconnected
    { setupMs := asMillis setup
      uptimeMs := asMillis uptime
      reason
      messagesByCommand := end_.messagesByCommand.entries.map fun e => (e.1, e.2)
      messagesOther := end_.messagesOther
      unsolicitedPongs := end_.unsolicitedPongs
      undecodable := end_.undecodable
      getheadersIgnored := end_.getheadersIgnored }

/-- How the address book should judge a session that ran to its end. -/
def sessionOutcome (end_ : SessionEnd) (uptimeSecs : UInt32) : Outcome :=
  if end_.error.any fun e => e.otherChainOf.isSome then .otherChain
  else if end_.error.any AnyError.isViolation then .violated
  else .disconnected uptimeSecs end_.silent

def OurFault.resultReason : OurFault → OurFaultReason
  | .networkUnreachable => .networkUnreachable
  | .proxyUnreachable => .proxyUnreachable
  | .networkDisabled => .networkDisabled

def Reason.resultReason : Reason → FailureReason
  | .connectionRefused => .connectionRefused
  | .hostUnreachable => .hostUnreachable
  | .tcpConnectTimeout => .tcpConnectTimeout
  | .v2TransportTimeout => .v2TransportTimeout
  | .versionHandshakeTimeout => .versionHandshakeTimeout
  | .v2TransportHandshake => .v2TransportHandshake
  | .versionHandshake => .versionHandshake
  | .unexpectedEof => .unexpectedEof
  | .other => .other

/-- An attempt that never reached a session. -/
def failedResult (outcome : Outcome) (elapsed : ℚ) : ConnectionResult :=
  match outcome with
  | .ourFault reason => .ourFault reason.resultReason (asMillis elapsed)
  | .failed reason => .failed reason.resultReason (asMillis elapsed)
  | .otherChain | .violated | .disconnected .. => .failed .unknown (asMillis elapsed)

/-- Publish the outcome of an attempt. -/
def emitResult (id : UInt64) (dial : Dial) (transportVersion : Option UInt32)
    (userAgent : String) (result : ConnectionResult) : Routine H Unit := do
  let timestampMs ← ask .unixMs
  ask (.emit
    { timestampMs
      peerAddr := dial.addr
      userAgent
      transportVersion
      connectionId := id
      droppedEvents := 0
      instanceId := 0
      droppedByKind := none
      event := some (.connectionResult result) })

/-- The transport a hint names; still detecting settles nothing. -/
def TransportHint.attempted : TransportHint → Option UInt32
  | .v2 => some 2
  | .v1Only => some 1
  | .unknown => none

section Attempt

variable (net : Network H) (codec : AddrCodec) (cfg : ProtocolConfig) [SocketText] (fuel : Nat)

/-! ## Attempts -/

/-- `attempt` under the id it has drawn. -/
def attemptAs (id : UInt64) (dial : Dial) : Routine H Unit := do
  let started ← ask .now
  match ← (connectAndRun net codec cfg fuel id dial).outcome with
  | .ok (version, end_) =>
      let uptime := elapsedSince end_.connectedAt (← ask .now)
      let reason := classifySessionEnd end_.error
      let setup := max 0 (elapsedSince started (← ask .now) - uptime)
      emitResult id dial (some version.toUInt32) end_.userAgent
        (disconnectedResult setup uptime reason end_)
      ask (.lifecycle (.ended dial.addr (sessionOutcome end_ (asSecs uptime))))
  | .error e =>
      let outcome := e.classify dial.addr.net
      let elapsed := elapsedSince started (← ask .now)
      emitResult id dial dial.transport.attempted "" (failedResult outcome elapsed)
      ask (.lifecycle (.ended dial.addr outcome))

/-- Run one attempt and report the outcome. -/
def attempt (dial : Dial) : Routine H Unit := do
  let id ← ask .peerId
  attemptAs net codec cfg fuel id dial

/-- `bootstrap_attempt` under the id it has drawn. -/
def bootstrapAttemptAs (id : UInt64) (addr : PeerAddr) : Routine H ℚ := do
  match ← (connectAndRun net codec cfg fuel id ⟨addr, .unknown⟩).outcome with
  | .ok (_, end_) =>
      let uptime := elapsedSince end_.connectedAt (← ask .now)
      ask (.lifecycle (.ended addr (sessionOutcome end_ (asSecs uptime))))
      return end_.connectedAt
  | .error e =>
      ask (.lifecycle (.ended addr (e.classify addr.net)))
      .fail e

/-- One attempt for the bootstrap header sync. -/
def bootstrapAttempt (addr : PeerAddr) : Routine H ℚ := do
  let id ← ask .peerId
  bootstrapAttemptAs net codec cfg fuel id addr

/-! ## The header sync at the start -/

/-- Every bootstrap peer once: whether one of them finished the sync. -/
def bootstrapRound : List PeerAddr → Routine H Bool
  | [] => return false
  | addr :: rest => do
      match ← (bootstrapAttempt net codec cfg fuel addr).outcome with
      | .ok _ => return true
      | .error e => if e.isSyncComplete then return true else bootstrapRound rest

/-- The rounds of `bootstrap_sync`, as many of its endless loop as there is fuel for. -/
def bootstrapRounds (peers : List PeerAddr) : Nat → Routine H Unit
  | 0 => .running
  | rounds + 1 => do
      if ← bootstrapRound net codec cfg fuel peers then return ()
      else bootstrapRounds peers rounds

def bootstrapSync (peers : List PeerAddr) : Routine H Unit :=
  if peers.isEmpty then return ()
  else bootstrapRounds net codec { cfg with syncHeaders := true } fuel peers fuel

end Attempt

end P2PObserver
