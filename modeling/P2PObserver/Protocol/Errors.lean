import P2PObserver.Addresses.Book
import P2PObserver.Events
import P2PObserver.HeaderTree.Basic
import P2PObserver.Transport.V1Reader

/-! # Errors and what they are read as

An error is a root cause, what that was caused by, and the contexts attached to it on the way
up. A context is found by its type but is no link of the chain.
-/

namespace P2PObserver

/-- The io error kinds that are told apart. -/
inductive IoErrorKind where
  | connectionRefused
  | networkUnreachable
  | hostUnreachable
  | timedOut
  | unexpectedEof
  | connectionReset
  | brokenPipe
  | connectionAborted
  /-- Any other kind. -/
  | other
  deriving DecidableEq, Repr

/-- A failure at a point in the attempt worth telling apart from the others. -/
inductive Stage where
  | tcpConnectTimeout
  | torProxyTimeout
  | v2TransportTimeout
  | versionHandshakeTimeout
  | v2TransportHandshake
  | versionHandshake
  | proxyUnreachable
  | networkDisabled
  deriving DecidableEq, Repr

/-- An error of a library, as far as it is told apart. -/
inductive LibraryError where
  | io (kind : IoErrorKind)
  /-- A timeout of the runtime. -/
  | elapsed
  | other
  deriving DecidableEq, Repr

/-- What an error began with. -/
inductive Root where
  | library (error : LibraryError)
  | stage (stage : Stage)
  | syncComplete
  | otherChain (reason : HeaderError)
  | pingTimeout (waited : ℚ)
  | protocolViolation (text : String)
  /-- An error that is only a text. -/
  | message (text : String)
  deriving DecidableEq

inductive Context where
  | stage (stage : Stage)
  | fault (fault : Fault)
  | text (text : String)
  deriving DecidableEq, Repr

/-- `anyhow::Error`. -/
structure AnyError where
  /-- The latest first. -/
  contexts : List Context
  root : Root
  /-- What the root was caused by, as `source` tells. -/
  sources : List LibraryError

/-- An error of a transport or of a connect: a library's, with what the caller said of it. -/
structure TransportError where
  contexts : List (Fault ⊕ String)
  root : LibraryError
  sources : List LibraryError

namespace AnyError

/-- `Stage` as an error of its own. -/
def ofStage (stage : Stage) : AnyError := ⟨[], .stage stage, []⟩

def ofRoot (root : Root) : AnyError := ⟨[], root, []⟩

def context (err : AnyError) (context : Context) : AnyError :=
  { err with contexts := context :: err.contexts }

/-- An io error, with what the caller said of it. -/
def ofIo (kind : IoErrorKind) (text : String) : AnyError :=
  ⟨[.text text], .library (.io kind), []⟩

def ofTransport (err : TransportError) : AnyError where
  contexts := err.contexts.map fun
    | .inl fault => .fault fault
    | .inr text => .text text
  root := .library err.root
  sources := err.sources

/-- The library errors of `chain`; contexts are not among its links. -/
def chain (err : AnyError) : List LibraryError :=
  match err.root with
  | .library error => error :: err.sources
  | _ => err.sources

/-! ## Classification -/

/-- The stage a failure was tagged with. -/
def stageOf (err : AnyError) : Option Stage :=
  (err.contexts.findSome? fun
    | .stage stage => some stage
    | _ => none).or
    (match err.root with
    | .stage stage => some stage
    | _ => none)

/-- The fault a transport error was tagged with. -/
def faultOf (err : AnyError) : Option Fault :=
  err.contexts.findSome? fun
    | .fault fault => some fault
    | _ => none

/-- The other-chain verdict carried by an error. -/
def otherChainOf (err : AnyError) : Option HeaderError :=
  match err.root with
  | .otherChain reason => some reason
  | _ => none

/-- `err.is::<SyncComplete>()`. -/
def isSyncComplete (err : AnyError) : Bool := err.root == .syncComplete

def hasKind (err : AnyError) (kind : IoErrorKind) : Bool := err.chain.contains (.io kind)

def isTimedOut (err : AnyError) : Bool :=
  (match stageOf err with
    | some .tcpConnectTimeout | some .torProxyTimeout | some .v2TransportTimeout
    | some .versionHandshakeTimeout => true
    | _ => false) ||
    -- A timeout that was not tagged, or one from the OS.
    (err.chain.contains .elapsed || hasKind err .timedOut)

/-- Whether retrying with a different transport version cannot help. -/
def isTcpLevel (err : AnyError) : Bool :=
  hasKind err .connectionRefused || hasKind err .networkUnreachable ||
    hasKind err .hostUnreachable || isTimedOut err

/-- The outcome the manager records for a failure. -/
def classify (err : AnyError) (net : Net) : Outcome :=
  if hasKind err .networkUnreachable then .ourFault .networkUnreachable
  else
    match stageOf err with
    | some .networkDisabled => .ourFault .networkDisabled
    | some .proxyUnreachable => .ourFault .proxyUnreachable
    | some .torProxyTimeout => .ourFault .proxyUnreachable
    | some .tcpConnectTimeout => .failed .tcpConnectTimeout
    | some .v2TransportTimeout => .failed .v2TransportTimeout
    | some .versionHandshakeTimeout => .failed .versionHandshakeTimeout
    | some .v2TransportHandshake => .failed .v2TransportHandshake
    | some .versionHandshake => .failed .versionHandshake
    | none =>
        -- A refused connection to an onion address means our proxy is not running.
        if net = .torV3 ∧ hasKind err .connectionRefused then .ourFault .proxyUnreachable
        else if hasKind err .connectionRefused then .failed .connectionRefused
        else if hasKind err .hostUnreachable then .failed .hostUnreachable
        else if hasKind err .unexpectedEof then .failed .unexpectedEof
        else .failed .other

/-- Whether the error that ended a session was the peer breaking the protocol. -/
def isViolation (err : AnyError) : Bool :=
  faultOf err == some .oversized ||
    match err.root with
    | .protocolViolation _ => true
    | _ => false

end AnyError

/-- The reason a fault stands for. -/
def Fault.disconnectReason : Fault → DisconnectReason
  | .peerClosed => .peerClosed
  | .truncated => .truncated
  | .decode => .decodeError
  | .oversized => .oversizedMessage
  | .wrongMagic => .wrongMagic
  | .v2Decrypt => .v2DecryptError
  | .write => .writeError

/-- How a session that had started ended. -/
def classifySessionEnd : Option AnyError → DisconnectReason
  | none => .unknown
  | some err =>
      match err.otherChainOf, err.faultOf, err.root with
      | some _, _, _ => .otherChain
      | none, some fault, _ => fault.disconnectReason
      | none, none, .pingTimeout _ => .pingTimeout
      | none, none, .protocolViolation _ => .protocolViolation
      | none, none, _ =>
          if err.hasKind .connectionReset || err.hasKind .brokenPipe ||
              err.hasKind .connectionAborted then .connectionReset
          else if err.hasKind .unexpectedEof then .peerClosed
          else .other

end P2PObserver
