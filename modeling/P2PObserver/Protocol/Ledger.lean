import P2PObserver.Protocol.Attempt
import P2PObserver.Protocol.InSession

/-! # What an attempt shows

A ledger kept over the questions and answers of an attempt: where connecting failed, how far
the version handshake came, what was published, and what became of the first session.
-/

namespace P2PObserver

open Program

variable {H : Type}

/-! ## Failures -/

/-- A point at which connecting can fail. -/
inductive FailurePoint where
  | torDisabled
  | i2pUnsupported
  | invalidProxy
  | noSocketAddr
  | proxyTimeout
  | proxyFailed (error : TransportError)
  | tcpTimeout
  | tcpFailed (kind : IoErrorKind)
  | nodelay (kind : IoErrorKind)
  | userTimeout (kind : IoErrorKind)
  | bip324Timeout
  | bip324Failed (error : TransportError)
  | versionTimeout
  | versionFailed (error : TransportError)

/-- The error of a failure. -/
def FailurePoint.error : FailurePoint → AnyError
  | torDisabled => (AnyError.ofStage .networkDisabled).context
      (.text "attempted to connect to a TorV3 address, but Tor is disabled")
  | i2pUnsupported => (AnyError.ofStage .networkDisabled).context
      (.text "I2P is not supported yet")
  | invalidProxy => ⟨[.text "invalid SOCKS5 proxy address"], .library .other, []⟩
  | noSocketAddr => .ofRoot (.message "address has no socket address")
  | proxyTimeout => .ofStage .torProxyTimeout
  | proxyFailed e => (AnyError.ofTransport e).context (.stage .proxyUnreachable)
  | tcpTimeout => .ofStage .tcpConnectTimeout
  | tcpFailed kind => .ofIo kind "TCP connect"
  | nodelay kind => .ofIo kind "set_nodelay"
  | userTimeout kind => .ofIo kind "TCP_USER_TIMEOUT"
  | bip324Timeout => .ofStage .v2TransportTimeout
  | bip324Failed e => (AnyError.ofTransport e).context (.stage .v2TransportHandshake)
  | versionTimeout => .ofStage .versionHandshakeTimeout
  | versionFailed e => (AnyError.ofTransport e).context (.stage .versionHandshake)

theorem FailurePoint.not_syncComplete (p : FailurePoint) : p.error.isSyncComplete = false := by
  cases p <;> rfl

/-- Why an address is not even tried. -/
def notDialled [SocketText] (cfg : ProtocolConfig) (addr : PeerAddr) : Option FailurePoint :=
  match addr.net with
  | .torV3 =>
      if !cfg.torEnabled then some .torDisabled
      else if (SocketText.socketAddr cfg.proxyAddr).isNone then some .invalidProxy
      else none
  | .ipv4 | .ipv6 | .cjdns => if addr.socketAddr.isNone then some .noSocketAddr else none
  | .i2p => some .i2pUnsupported

/-- An answer that fails the attempt. -/
@[simp] def Question.failure : (q : Question H) → Answer q → Option FailurePoint
  | .socksConnect .., .elapsed => some .proxyTimeout
  | .socksConnect .., .finished (some e) => some (.proxyFailed e)
  | .tcpConnect _, .elapsed => some .tcpTimeout
  | .tcpConnect _, .finished (some kind) => some (.tcpFailed kind)
  | .setNodelay, some kind => some (.nodelay kind)
  | .setUserTimeout, some kind => some (.userTimeout kind)
  | .bip324Handshake, .elapsed => some .bip324Timeout
  | .bip324Handshake, .finished (some e) => some (.bip324Failed e)
  | .handshakeSend _, .elapsed => some .versionTimeout
  | .handshakeSend _, .finished (some e) => some (.versionFailed e)
  | .handshakeRecv, .elapsed => some .versionTimeout
  | .handshakeRecv, .finished (.error e) => some (.versionFailed e)
  | _, _ => none

/-! ## The version handshake -/

/-- How far a version handshake has come, and whether one has ever completed. -/
structure Progress where
  /-- The peer's version is answered. -/
  version : Bool
  /-- The peer's verack is here. -/
  verack : Bool
  completed : Bool

namespace Progress

def start : Progress := ⟨false, false, false⟩

def check (s : Progress) : Progress := { s with completed := s.completed || s.version && s.verack }

/-- A message of ours, and whether it could be sent. -/
def sent (s : Progress) : NetworkMessage H → Timed (Option TransportError) → Progress
  -- our own version opens a handshake
  | .version _, _ => { s with version := false, verack := false }
  -- and our verack answers the peer's
  | .verack, .finished none => { s with version := true }.check
  | _, _ => s

def received (s : Progress) : Timed (Except TransportError (NetworkMessage H)) → Progress
  | .finished (.ok .verack) => { s with verack := true }.check
  | _ => s

@[simp] def next (s : Progress) : (q : Question H) → Answer q → Progress
  | .handshakeSend message, a => s.sent message a
  | .handshakeRecv, a => s.received a
  | _, _ => s

theorem sent_completed (s : Progress) (message : NetworkMessage H)
    {a : Timed (Option TransportError)} (failed : a ≠ .finished none) :
    (s.sent message a).completed = s.completed := by
  cases message with
  | verack =>
      unfold sent
      split <;> simp_all
  | _ => rfl

end Progress

/-! ## Events -/

/-- What the events of an attempt have told so far. -/
inductive Reported where
  | nothing
  | handshake
  /-- That no session was reached. -/
  | failed
  | disconnected
  deriving DecidableEq, Repr

/-- The event that may come next, and what has been told with it. -/
def Reported.next : Reported → Event H → Option Reported
  | .nothing, .handshake _ => some .handshake
  | .nothing, .connectionResult (.disconnected _) => none
  | .nothing, .connectionResult _ => some .failed
  | .handshake, .connectionResult (.disconnected _) => some .disconnected
  | .handshake, event => if event.ofSession then some .handshake else none
  | _, _ => none

/-- The report of an attempt that reached no session is not that one ended. -/
theorem Reported.next_failedResult (outcome : Outcome) (elapsed : ℚ) :
    Reported.nothing.next (.connectionResult (failedResult outcome elapsed) : Event H) =
      some .failed := by
  cases outcome <;> rfl

/-! ## The first session -/

/-- What became of the first session of a header sync. -/
inductive FirstSession where
  | none
  /-- Whether an empty HEADERS has come. -/
  | running (synced : Bool)
  | over (synced : Bool)
  deriving DecidableEq, Repr

@[simp] def FirstSession.next : FirstSession → (q : Question H) → Answer q → FirstSession
  | .none, .lifecycle (.connected ..), _ => .running false
  | .running _, .select, .message (.headers []) => .running true
  | .running synced, .lifecycle (.ended ..), _ => .over synced
  | s, _, _ => s

/-- Whether an exchange is the arrival of an empty HEADERS. -/
@[simp] def emptyHeaders : (q : Question H) → Answer q → Bool
  | .select, .message (.headers []) => true
  | _, _ => false

/-! ## The ledger -/

structure Ledger where
  id : UInt64
  failure : Option FailurePoint
  /-- Whether the manager has been told that the peer speaks v1 only. -/
  v1Only : Bool
  progress : Progress
  reported : Reported
  first : FirstSession
  synced : Bool

namespace Ledger

/-- The ledger of an attempt that has its id. -/
def start (id : UInt64) : Ledger where
  id
  failure := none
  v1Only := false
  progress := .start
  reported := .nothing
  first := .none
  synced := false

/-- Whether an exchange is a v1-only verdict. -/
@[simp] def isV1Only : Question H → Bool
  | .lifecycle (.v1Only _) => true
  | _ => false

@[simp] def nextId (id : UInt64) : (q : Question H) → Answer q → UInt64
  | .peerId, drawn => drawn
  | _, _ => id

@[simp] def nextReported (reported : Reported) : Question H → Reported
  | .peerId => .nothing
  | .emit event => (event.event.bind reported.next).getD reported
  | _ => reported

@[simp] def nextFailure (failure : Option FailurePoint) (q : Question H) (a : Answer q) :
    Option FailurePoint :=
  match q with
  | .peerId => none
  | q => failure.or (q.failure a)

def next (s : Ledger) (q : Question H) (a : Answer q) : Ledger where
  id := nextId s.id q a
  failure := nextFailure s.failure q a
  v1Only := s.v1Only || isV1Only q
  progress := s.progress.next q a
  reported := nextReported s.reported q
  first := s.first.next q a
  synced := s.synced || emptyHeaders q a

theorem emptyHeaders_select (woken : Woken H) :
    emptyHeaders .select woken = true ↔ woken = .message (.headers []) := by
  cases woken with
  | message msg =>
      cases msg with
      | headers headers => cases headers <;> simp
      | _ => simp
  | _ => simp

theorem next_select (s : Ledger) (synced : Bool) (woken : Woken H) :
    next { s with first := .running synced, synced } .select woken =
      let synced := synced || emptyHeaders .select woken
      { s with first := .running synced, synced } := by
  cases woken with
  | message msg =>
      cases msg with
      | headers headers => cases headers <;> simp [Ledger.next]
      | _ => simp [Ledger.next]
  | _ => simp [Ledger.next]

/-- The questions the ledger takes no note of. -/
def Quiet : Question H → Prop
  | .tip | .seen _ | .seenEach _ | .insertBatch _ | .placement _ | .rejectionOf _
  | .recoveryDue .. | .buildLocator | .getHeadersFromLocator .. | .now | .unixMs | .random
  | .send _ | .undecodable | .gossip _ => True
  | _ => False

theorem next_quiet (s : Ledger) {q : Question H} (quiet : Quiet q) (a : Answer q) :
    s.next q a = s := by
  cases q with
  | tip | seen | seenEach | insertBatch | placement | rejectionOf | recoveryDue | buildLocator
  | getHeadersFromLocator | now | unixMs | random | send | undecodable | gossip =>
      simp [Ledger.next]
  | _ => cases quiet

/-- An event in its turn. -/
theorem next_emit {s : Ledger} {event : PeerEvent H} {e : Event H} {reported : Reported}
    (is : event.event = some e) (turn : s.reported.next e = some reported) (a : Unit) :
    s.next (.emit event) a = { s with reported } := by
  simp [Ledger.next, is, turn]

/-- The questions of connecting, before anything is sent. -/
def Connecting : Question H → Prop
  | .socksConnect .. | .tcpConnect _ | .setNodelay | .setUserTimeout | .bip324Handshake => True
  | _ => False

theorem next_connecting (s : Ledger) {q : Question H} (connecting : Connecting q)
    (a : Answer q) : s.next q a = { s with failure := s.failure.or (q.failure a) } := by
  cases q with
  | socksConnect | tcpConnect | setNodelay | setUserTimeout | bip324Handshake =>
      simp [Ledger.next, -Question.failure]
  | _ => cases connecting

theorem next_connected (s : Ledger) {q : Question H} {a : Answer q} (connecting : Connecting q)
    (succeeded : q.failure a = none) : s.next q a = s := by
  rw [next_connecting s connecting, succeeded, Option.or_none]

/-- A step of the version handshake. -/
theorem next_handshakeSend (s : Ledger) (message : NetworkMessage H)
    (a : Timed (Option TransportError)) : s.next (.handshakeSend message) a =
      { s with
        progress := s.progress.sent message a
        failure := s.failure.or (Question.failure (.handshakeSend message) a) } := by
  simp [Ledger.next, -Question.failure]

theorem next_handshakeRecv (s : Ledger)
    (a : Timed (Except TransportError (NetworkMessage H))) : s.next .handshakeRecv a =
      { s with
        progress := s.progress.received a
        failure := s.failure.or (Question.failure .handshakeRecv a) } := by
  simp [Ledger.next, -Question.failure]

/-- Telling the manager something. -/
theorem next_lifecycle (s : Ledger) (msg : Lifecycle) (a : Unit) :
    s.next (.lifecycle msg : Question H) a =
      { s with
        v1Only := s.v1Only || isV1Only (.lifecycle msg : Question H)
        first := s.first.next (.lifecycle msg : Question H) a } := by
  simp [Ledger.next]

/-- The ledger after a failure of connecting. -/
def Fails (s : Ledger) (p : FailurePoint) (s' : Ledger) : Prop :=
  ∃ progress, progress.completed = false ∧
    s' = { s with progress, failure := s.failure.or (some p) }

theorem Fails.of_answer {s : Ledger} (fresh : s.progress.completed = false) {q : Question H}
    {a : Answer q} {p : FailurePoint} (connecting : Connecting q)
    (failed : q.failure a = some p) : s.Fails p (s.next q a) :=
  ⟨s.progress, fresh, by rw [next_connecting s connecting, failed]⟩

/-- Nothing has come of the attempt yet. -/
structure Fresh (s : Ledger) : Prop where
  progress : s.progress.completed = false
  reported : s.reported = .nothing
  first : s.first = .none
  synced : s.synced = false

/-- The ledger after a session that ran. -/
def Ran (s : Ledger) (sync : Bool) (end_ : SessionEnd) (s' : Ledger) : Prop :=
  ∃ progress synced, progress.completed = true ∧
    s' = { s with progress, reported := .handshake, first := .running synced, synced } ∧
    (sync = true → end_.error.any AnyError.isSyncComplete = synced)

/-- The ledger after an attempt to connect that failed: before anything was asked, or at an
    answer. -/
def Broke (s : Ledger) (refused : Option FailurePoint) (e : AnyError) (s' : Ledger) : Prop :=
  ∃ p, e = p.error ∧ (refused = some p ∧ s' = s ∨ refused = none ∧ s.Fails p s')

/-- The ledger after a dial, and what it ended with. -/
def Dialled (s : Ledger) (sync : Bool) (s' : Ledger) :
    Except AnyError (UInt8 × SessionEnd) → Prop
  | .ok (_, end_) => ∃ failure v1Only, Ran { s with failure, v1Only } sync end_ s'
  | .error e => (∃ p : FailurePoint, e = p.error) ∧ ∃ progress failure v1Only,
      progress.completed = false ∧ s' = { s with progress, failure, v1Only }

namespace Broke

variable {s s' : Ledger} {refused : Option FailurePoint} {e : AnyError}

/-- The first failure is the one that broke it. -/
theorem first (broke : s.Broke refused e s') (unfailed : s.failure = none) :
    ∃ p, e = p.error ∧ refused.or s'.failure = some p := by
  obtain ⟨p, is, ⟨refused, rfl⟩ | ⟨dialled, _, _, rfl⟩⟩ := broke
  · exact ⟨p, is, by rw [refused]; rfl⟩
  · exact ⟨p, is, by rw [dialled, unfailed]; rfl⟩

/-- A failure that is known stays the first. -/
theorem failure_of_first (broke : s.Broke refused e s') {p : FailurePoint}
    (first : refused.or s.failure = some p) : refused.or s'.failure = some p := by
  obtain ⟨_, _, ⟨_, rfl⟩ | ⟨dialled, _, _, rfl⟩⟩ := broke
  · exact first
  · rw [dialled, Option.none_or] at first ⊢
    dsimp only
    rw [first, Option.some_or]

theorem v1Only (broke : s.Broke refused e s') : s'.v1Only = s.v1Only := by
  obtain ⟨_, _, ⟨_, rfl⟩ | ⟨_, _, _, rfl⟩⟩ := broke <;> rfl

theorem dialled (broke : s.Broke refused e s') (fresh : s.Fresh) (sync : Bool) :
    s.Dialled sync s' (.error e) := by
  obtain ⟨p, is, ⟨_, rfl⟩ | ⟨_, progress, unfinished, rfl⟩⟩ := broke
  · exact ⟨⟨p, is⟩, s'.progress, s'.failure, s'.v1Only, fresh.progress, rfl⟩
  · exact ⟨⟨p, is⟩, progress, _, s.v1Only, unfinished, rfl⟩

end Broke

variable [SocketText] (cfg : ProtocolConfig) (scope : Option PeerAddr)

/-- What may be asked: an event only in its turn and under the attempt's id, and a v1-only
    verdict only for a failure that is not of the TCP level. In the scope of one dial there is
    no other attempt and no verdict on another address. -/
def Allows (s : Ledger) : Question H → Prop
  | .peerId => scope = none
  | .emit event =>
      event.connectionId = s.id ∧ ∃ e, event.event = some e ∧ (s.reported.next e).isSome
  | .lifecycle (.v1Only addr) => (∀ a ∈ scope, a = addr) ∧
      ∃ p, (notDialled cfg addr).or s.failure = some p ∧ p.error.isTcpLevel = false
  | _ => True

def monitor : Monitor (Question H) Answer Ledger where
  ok := Allows cfg scope
  next := next

/-! ## Traces -/

/-- The failure of the latest attempt of a trace: its first failing answer. -/
def failureIn (trace : List (Exchange (Question H) Answer)) : Option FailurePoint :=
  trace.foldl (fun failure x => nextFailure failure x.1 x.2) none

theorem after_failure (s : Ledger) (trace : List (Exchange (Question H) Answer)) :
    ((monitor cfg scope).after s trace).failure =
      trace.foldl (fun failure x => nextFailure failure x.1 x.2) s.failure := by
  induction trace generalizing s with
  | nil => rfl
  | cons x rest ih => exact ih _

theorem after_v1Only (s : Ledger) (trace : List (Exchange (Question H) Answer)) :
    ((monitor cfg scope).after s trace).v1Only = (s.v1Only || trace.any fun x => isV1Only x.1) := by
  induction trace generalizing s with
  | nil => exact (Bool.or_false _).symm
  | cons x rest ih =>
      rw [List.any_cons, ← Bool.or_assoc]
      exact ih _

theorem after_first (s : Ledger) (trace : List (Exchange (Question H) Answer)) :
    ((monitor cfg scope).after s trace).first =
      trace.foldl (fun first x => first.next x.1 x.2) s.first := by
  induction trace generalizing s with
  | nil => rfl
  | cons x rest ih => exact ih _

theorem after_synced (s : Ledger) (trace : List (Exchange (Question H) Answer)) :
    ((monitor cfg scope).after s trace).synced =
      (s.synced || trace.any fun x => emptyHeaders x.1 x.2) := by
  induction trace generalizing s with
  | nil => exact (Bool.or_false _).symm
  | cons x rest ih =>
      rw [List.any_cons, ← Bool.or_assoc]
      exact ih _

variable {cfg}

/-- In the scope of one dial a failure stays the first. -/
theorem after_failure_of_some {s : Ledger} {addr : PeerAddr} {p : FailurePoint}
    (first : (notDialled cfg addr).or s.failure = some p)
    {trace : List (Exchange (Question H) Answer)}
    (accepts : (monitor cfg (some addr)).Accepts s trace) :
    (notDialled cfg addr).or ((monitor cfg (some addr)).after s trace).failure = some p := by
  induction trace generalizing s with
  | nil => exact first
  | cons x rest ih =>
      obtain ⟨ok, accepts⟩ := accepts
      apply ih _ accepts
      have kept : nextFailure s.failure x.1 x.2 = s.failure.or (x.1.failure x.2) := by
        obtain ⟨q, a⟩ := x
        cases q with
        | peerId => cases ok
        | _ => rfl
      show (notDialled cfg addr).or (nextFailure s.failure x.1 x.2) = some p
      rw [kept, ← Option.or_assoc, first]
      rfl

/-- A verdict of a dial is for a first failure that is not of the TCP level. -/
theorem told_of_other {s : Ledger} {addr : PeerAddr}
    {trace : List (Exchange (Question H) Answer)}
    (accepts : (monitor cfg (some addr)).Accepts s trace)
    (told : (trace.any fun x => isV1Only x.1) = true) :
    ∃ p, (notDialled cfg addr).or ((monitor cfg (some addr)).after s trace).failure = some p ∧
      p.error.isTcpLevel = false := by
  induction trace generalizing s with
  | nil => cases told
  | cons x rest ih =>
      have all := accepts
      obtain ⟨ok, accepts⟩ := accepts
      cases verdict : isV1Only x.1 with
      | false =>
          rw [List.any_cons, verdict, Bool.false_or] at told
          exact ih accepts told
      | true =>
          have first : ∃ p, (notDialled cfg addr).or s.failure = some p ∧
              p.error.isTcpLevel = false := by
            obtain ⟨q, a⟩ := x
            cases q with
            | lifecycle msg =>
                cases msg with
                | v1Only a =>
                    obtain ⟨here, first⟩ := ok
                    rw [here addr rfl]
                    exact first
                | connected | ended => cases verdict
            | _ => cases verdict
          obtain ⟨p, first, other⟩ := first
          exact ⟨p, after_failure_of_some first all, other⟩

end Ledger

end P2PObserver
