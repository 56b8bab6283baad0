import P2PObserver.Addresses.PlainText
import P2PObserver.HeaderTree.Networks
import P2PObserver.Protocol.Dialled

/-! # When a peer is taken to speak v1 only

The verdict is told for every failure that is not of the TCP level, so it is evidence about
the peer exactly when the test sees every failure but the transport's as one.
-/

namespace P2PObserver

open Program

/-! ## What the test sees -/

/-- TCP was up and the BIP324 handshake is what failed. -/
def FailurePoint.isTransport : FailurePoint → Bool
  | bip324Timeout | bip324Failed _ => true
  | _ => false

def IoErrorKind.isTcpLevel : IoErrorKind → Bool
  | connectionRefused | networkUnreachable | hostUnreachable | timedOut => true
  | _ => false

def LibraryError.isTcpLevel : LibraryError → Bool
  | io kind => kind.isTcpLevel
  | elapsed => true
  | other => false

def TransportError.isTcpLevel (e : TransportError) : Bool :=
  (e.root :: e.sources).any LibraryError.isTcpLevel

/-- The transport's own failures, and the others that are seen to be of the TCP level. -/
def FailurePoint.recognised : FailurePoint → Bool
  | torDisabled | i2pUnsupported | invalidProxy | noSocketAddr => false
  | proxyTimeout | tcpTimeout | versionTimeout | bip324Timeout | bip324Failed _ => true
  | tcpFailed kind | nodelay kind | userTimeout kind => kind.isTcpLevel
  | proxyFailed e | versionFailed e => e.isTcpLevel

theorem LibraryError.isTcpLevel_eq (e : LibraryError) :
    e.isTcpLevel = ((e == .io .connectionRefused) || (e == .io .networkUnreachable) ||
      (e == .io .hostUnreachable) || ((e == .elapsed) || (e == .io .timedOut))) := by
  cases e with
  | io kind => cases kind <;> rfl
  | elapsed | other => rfl

theorem any_isTcpLevel (chain : List LibraryError) : chain.any LibraryError.isTcpLevel =
    (chain.contains (.io .connectionRefused) || chain.contains (.io .networkUnreachable) ||
      chain.contains (.io .hostUnreachable) ||
      (chain.contains .elapsed || chain.contains (.io .timedOut))) := by
  rw [Bool.eq_iff_iff]
  simp [LibraryError.isTcpLevel_eq, and_or_left, exists_or]

namespace FailurePoint

/-- The test sees a failure, or it is the transport's, exactly when it is recognised. -/
theorem isTcpLevel_or_isTransport (p : FailurePoint) :
    (p.error.isTcpLevel || p.isTransport) = p.recognised := by
  cases p with
  | torDisabled | i2pUnsupported | invalidProxy | noSocketAddr | proxyTimeout | tcpTimeout
  | bip324Timeout | versionTimeout => rfl
  | bip324Failed e => simp [isTransport, recognised]
  | tcpFailed kind | nodelay kind | userTimeout kind => cases kind <;> rfl
  | proxyFailed e | versionFailed e =>
      simp only [recognised, TransportError.isTcpLevel, any_isTcpLevel, isTransport, Bool.or_false]
      rfl

end FailurePoint

/-! ## Every dial -/

/-- Whether a trace tells the manager of a v1-only peer. -/
def toldV1Only {H : Type} (trace : List (Exchange (Question H) Answer)) : Bool :=
  trace.any fun x => Ledger.isV1Only x.1

section Dials

variable {H : Type} [SocketText]

/-- The failure of a dial's first transport. -/
def failurePoint (cfg : ProtocolConfig) (addr : PeerAddr)
    (trace : List (Exchange (Question H) Answer)) : Option FailurePoint :=
  (notDialled cfg addr).or (Ledger.failureIn trace)

variable [DecidableEq H] (net : Network H) (codec : AddrCodec)

/-- The manager hears that a peer speaks v1 only, and v1 is tried, only when the BIP324
    handshake itself failed: exactly the dials whose first failure is recognised. -/
theorem run_v1Only_evidence (cfg : ProtocolConfig) (fuel : Nat) (id : UInt64) (addr : PeerAddr)
    {trace : List (Exchange (Question H) Answer)}
    {end_ : Option (Except AnyError (UInt8 × SessionEnd))}
    (run : Runs (connectAndRun net codec cfg fuel id ⟨addr, .unknown⟩) trace end_) :
    (toldV1Only trace = true → ∃ p, failurePoint cfg addr trace = some p ∧
      (p.recognised = true → p.isTransport = true)) ∧
    ∀ e, end_ = some e → ∀ p, failurePoint cfg addr trace = some p →
      ((p.isTransport = true ∨ toldV1Only trace = false ∧ e = .error p.error) ↔
        p.recognised = true) := by
  have fresh : (Ledger.start id).Fresh := ⟨rfl, rfl, rfl, rfl⟩
  have spec : wp (Ledger.monitor cfg (some addr)) _ _ (Ledger.start id) :=
    wp_connectAndRun_unknown cfg addr net codec fuel (fun _ is => (Option.some.inj is).symm)
      fresh rfl
  obtain ⟨accepts, ended⟩ := run.sound spec
  have failure : ((Ledger.monitor cfg (some addr)).after (Ledger.start id) trace).failure =
      Ledger.failureIn trace := Ledger.after_failure ..
  have told : ((Ledger.monitor cfg (some addr)).after (Ledger.start id) trace).v1Only =
      toldV1Only trace := (Ledger.after_v1Only ..).trans (Bool.false_or _)
  constructor
  · intro verdict
    obtain ⟨p, first, other⟩ := Ledger.told_of_other accepts verdict
    refine ⟨p, by rw [failurePoint, ← failure]; exact first, fun recognised => ?_⟩
    rwa [← p.isTcpLevel_or_isTransport, other, Bool.false_or] at recognised
  · intro e is p first
    have settled := (ended e is).2 rfl
    rw [Ledger.Settled, failure, told, ← failurePoint, first] at settled
    dsimp only at settled
    rw [← p.isTcpLevel_or_isTransport, Bool.or_eq_true]
    split at settled
    case isTrue tcp => exact ⟨fun _ => .inl tcp, fun _ => .inr settled⟩
    case isFalse other =>
      constructor
      · rintro (transport | ⟨untold, _⟩)
        · exact .inr transport
        · rw [settled] at untold
          cases untold
      · rintro (tcp | transport)
        · exact absurd tcp other
        · exact .inl transport

end Dials

/-! ## A peer that hangs up -/

namespace HungUp

/-- No address is ever decoded here. -/
def codec : AddrCodec := ⟨fun _ => none, fun _ => none, fun _ => [], fun _ => none⟩

def cfg : ProtocolConfig := ⟨"/observer/", false, false, false, ""⟩

def addr : PeerAddr := .ipv4 ⟨[11, 1, 2, 3], rfl⟩ 8333

/-- Where it is dialled. -/
def sockaddr : SocketAddr := ⟨.v4 ⟨[11, 1, 2, 3], rfl⟩, 8333⟩

/-- The peer closes the connection. -/
def eof : TransportError := ⟨[.inl .peerClosed], .io .unexpectedEof, []⟩

/-- The v2 transport is up and the peer closes it in the version handshake; then v1 is refused. -/
def trace : List (Exchange (Question (List Nat)) Answer) :=
  [⟨.tcpConnect sockaddr, .finished none⟩, ⟨.setNodelay, none⟩,
    ⟨.setUserTimeout, none⟩, ⟨.bip324Handshake, .finished none⟩, ⟨.tip, ([], 0)⟩, ⟨.unixMs, 0⟩,
    ⟨.random, 0⟩, ⟨.handshakeSend (buildVersion cfg.userAgent 0 0 0), .finished none⟩,
    ⟨.handshakeRecv, .finished (.error eof)⟩, ⟨.lifecycle (.v1Only addr), ()⟩,
    ⟨.tcpConnect sockaddr, .finished (some .connectionRefused)⟩]

theorem run (text : SocketText) (net : Network (List Nat)) :
    Runs (connectAndRun net codec cfg 1 0 ⟨addr, .unknown⟩) trace
      (some (.error (.ofIo .connectionRefused "TCP connect"))) :=
  .ask (.ask (.ask (.ask (.ask (.ask (.ask (.ask (.ask (.ask (.ask (.fail _)))))))))))

/-- No connection at all. -/
def refused : List (Exchange (Question (List Nat)) Answer) :=
  [⟨.tcpConnect sockaddr, .finished (some .connectionRefused)⟩]

end HungUp

/-- The verdict is told of a peer whose BIP324 handshake succeeded. -/
theorem hungUp_v1Only : ¬ ∀ (_ : SocketText) (net : Network (List Nat))
    (trace : List (Exchange (Question (List Nat)) Answer)) (e : AnyError),
    Runs (connectAndRun net HungUp.codec HungUp.cfg 1 0 ⟨HungUp.addr, .unknown⟩) trace
      (some (.error e)) →
    toldV1Only trace = true → ∃ p, failurePoint HungUp.cfg HungUp.addr trace = some p ∧
      p.isTransport = true := by
  intro claim
  obtain ⟨p, first, transport⟩ := claim plainText (Params.network Params.mainnet) HungUp.trace _
    (HungUp.run plainText _) rfl
  have versionFailed : p = .versionFailed HungUp.eof := Option.some.inj first.symm
  rw [versionFailed] at transport
  cases transport

/-- A dial whose TCP connection is refused. -/
theorem run_v1Only_evidence_refused :
    (FailurePoint.isTransport (.tcpFailed .connectionRefused) = true ∨
      toldV1Only HungUp.refused = false ∧
        (Except.error (.ofIo .connectionRefused "TCP connect") :
          Except AnyError (UInt8 × SessionEnd)) =
            .error (FailurePoint.error (.tcpFailed .connectionRefused))) ↔
      FailurePoint.recognised (.tcpFailed .connectionRefused) = true :=
  (@run_v1Only_evidence _ plainText _ (Params.network Params.mainnet) HungUp.codec HungUp.cfg 0 0
    HungUp.addr HungUp.refused _ (.ask (.fail _))).2 _ rfl _ rfl

end P2PObserver
