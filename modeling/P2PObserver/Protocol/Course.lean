import P2PObserver.Protocol.Grammar

/-! # The course of an attempt

Which streams an attempt opens and to whom, when its session begins, and what it tells the
manager on the way: it reaches its address alone, and its end is the last thing it does.
-/

namespace P2PObserver

open Program

variable {H : Type}

/-! ## Stages -/

/-- Where an attempt has come to. The stages before the session carry the transport that the
    attempt holds its peer to, `unknown` while it may still fall back to v1. -/
inductive Course where
  | dialling (transport : TransportHint)
  | unreachable (transport : TransportHint)
  /-- The TCP stream is up. -/
  | opened (transport : TransportHint)
  /-- The BIP324 handshake is done. -/
  | secured (transport : TransportHint)
  /-- The manager has been told of the session. -/
  | session (transportVersion : UInt8)
  | done
  deriving DecidableEq

namespace Course

/-- Still without a session. -/
def Trying (transport : TransportHint) (s : Course) : Prop :=
  s = .dialling transport ∨ s = .unreachable transport ∨ s = .opened transport ∨
    s = .secured transport

/-- The transport version a version handshake would run over. -/
def speaks : Course → Option UInt8
  | opened .v1Only => some 1
  | secured _ => some 2
  | _ => none

/-- The answer to a dial. -/
def dials {E : Type} : Course → Timed (Option E) → Course
  | dialling transport, .finished none => opened transport
  | dialling transport, _ => unreachable transport
  | s, _ => s

def secures : Course → Course
  | opened transport => secured transport
  | s => s

@[simp] def next (s : Course) : (q : Question H) → Answer q → Course
  | .tcpConnect _, connected => s.dials connected
  | .socksConnect .., connected => s.dials connected
  | .bip324Handshake, .finished none => s.secures
  -- the verdict is followed by another dial
  | .lifecycle (.v1Only _), _ => .dialling .v1Only
  | .lifecycle (.connected _ _ transportVersion), _ => .session transportVersion
  | .lifecycle (.ended ..), _ => .done
  | _, _ => s

end Course

/-- The questions of a session on the tree, the peer and the manager's gossip queue. -/
def Question.ofSession : Question H → Bool
  | .seen _ | .seenEach _ | .insertBatch _ | .placement _ | .rejectionOf _ | .recoveryDue ..
  | .buildLocator | .getHeadersFromLocator .. | .send _ | .select | .gossip _ => true
  | _ => false

section Monitor

variable [SocketText] (cfg : ProtocolConfig) (addr : PeerAddr)

/-- Whether a connection is one to an address: straight to it, or for an onion address through
    the proxy, if Tor is enabled. -/
def Question.contacts : Question H → Prop
  | .tcpConnect target => addr.net ≠ .torV3 ∧ addr.socketAddr = some target
  | .socksConnect proxy target => addr.net = .torV3 ∧ cfg.torEnabled = true ∧
      SocketText.socketAddr cfg.proxyAddr = some proxy ∧ target = addr.display
  | _ => True

/-- What an attempt on an address may ask at a stage. -/
def Course.Allows (s : Course) (q : Question H) : Prop :=
  match q with
  | .peerId => False
  | .tcpConnect _ | .socksConnect .. => (∃ transport, s = .dialling transport) ∧ q.contacts cfg addr
  | .setNodelay | .setUserTimeout => ∃ transport, s = .opened transport
  | .bip324Handshake => ∃ transport, s = .opened transport ∧ transport ≠ .v1Only
  | .handshakeSend _ | .handshakeRecv => s.speaks.isSome
  | .lifecycle (.v1Only a) => a = addr ∧ s.Trying .unknown
  | .lifecycle (.connected a _ transportVersion) => a = addr ∧ s.speaks = some transportVersion
  | .lifecycle (.ended a _) => a = addr ∧ s ≠ .done
  | q => if q.ofSession then ∃ transportVersion, s = .session transportVersion else s ≠ .done

def Course.monitor : Monitor (Question H) Answer Course where
  ok := Course.Allows cfg addr
  next := Course.next

end Monitor

/-! ## What the parts of an attempt ask -/

/-- The questions of a version handshake. -/
def Question.ofHandshake : Question H → Bool
  | .unixMs | .random | .handshakeSend _ | .handshakeRecv => true
  | _ => false

namespace VersionHandshake

variable {allowed : Question H → Prop}

theorem asks_send (asked : ∀ message, allowed (.handshakeSend message))
    (message : NetworkMessage H) : Asks allowed (send message) := by
  refine .question (asked message) fun sent => ?_
  cases sent with
  | elapsed => trivial
  | finished failed => cases failed <;> trivial

theorem asks_sendIf (asked : ∀ message, allowed (.handshakeSend message)) (wanted : Bool)
    (message : NetworkMessage H) : Asks allowed (sendIf wanted message) := by
  unfold sendIf
  split
  · exact asks_send asked message
  · trivial

theorem asks_answer (asked : ∀ message, allowed (.handshakeSend message)) (v : VersionMessage) :
    Asks allowed (answer v : Handshaking H Unit) :=
  .bind (asks_sendIf asked _ _) fun _ => .bind (asks_sendIf asked _ _) fun _ =>
    asks_send asked _

theorem asks_receive (asked : ∀ message, allowed (.handshakeSend message)) (s : State)
    (message : NetworkMessage H) : Asks allowed (receive s message) := by
  cases message with
  | version v => exact .bind (asks_answer asked _) fun _ => trivial
  | _ => trivial

theorem asks_loop (asked : ∀ message, allowed (.handshakeSend message))
    (received : allowed .handshakeRecv) (fuel : Nat) (s : State) :
    Asks allowed (loop fuel s) := by
  induction fuel generalizing s with
  | zero => trivial
  | succ fuel ih =>
      unfold loop
      cases s.info with
      | some info => trivial
      | none =>
          refine .question received fun arrived => ?_
          cases arrived with
          | elapsed => trivial
          | finished result =>
              cases result with
              | error e => trivial
              | ok message => exact .bind (asks_receive asked s message) fun s' => ih s'

theorem asks_run (fuel : Nat) (userAgent : String) (tipHeight : Int) :
    Asks (·.ofHandshake = true) (run fuel userAgent tipHeight : Handshaking H HandshakeInfo) := by
  refine .question rfl fun timestamp => .question rfl fun nonce => ?_
  refine .bind (asks_send ?_ _) fun _ => asks_loop ?_ ?_ fuel _
  · exact fun _ => rfl
  · exact fun _ => rfl
  · exact rfl

end VersionHandshake

/-! ## Connecting -/

namespace Course

variable [SocketText] (cfg : ProtocolConfig) {addr : PeerAddr}

/-- A question that says nothing of where the attempt is. -/
theorem wp_aside {E R : Type} {s : Course} {q : Question H}
    {f : Answer q → Program (Question H) Answer E R} {post : Course → Except E R → Prop}
    (asked : s.Allows cfg addr q) (still : ∀ a, s.next q a = s)
    (rest : ∀ a, wp (monitor cfg addr) (f a) post s) :
    wp (monitor cfg addr) (ask q >>= f) post s := by
  refine wp_question_bind asked fun a => ?_
  rw [show (monitor cfg addr).next s q a = s from still a]
  exact rest a

/-- Connecting: with a stream, or still without a session. -/
def Opens (transport : TransportHint) : Course → Except AnyError Unit → Prop
  | s, .ok () => s = .opened transport
  | s, .error _ => s.Trying transport

theorem wp_configureStream (transport : TransportHint) :
    wp (monitor cfg addr) (configureStream : Routine H Unit) (Opens transport)
      (.opened transport) := by
  refine wp_aside cfg ⟨transport, rfl⟩ (fun _ => rfl) fun nodelay => ?_
  cases nodelay with
  | some kind => exact .inr (.inr (.inl rfl))
  | none =>
      refine wp_aside cfg ⟨transport, rfl⟩ (fun _ => rfl) fun userTimeout => ?_
      cases userTimeout with
      | some kind => exact .inr (.inr (.inl rfl))
      | none => exact rfl

theorem wp_torConnect (transport : TransportHint) (tor : addr.net = .torV3) :
    wp (monitor cfg addr) (torConnect cfg addr : Routine H Unit) (Opens transport)
      (.dialling transport) := by
  unfold torConnect
  split
  case isTrue => exact .inl rfl
  case isFalse enabled =>
    cases parsed : SocketText.socketAddr cfg.proxyAddr with
    | none => exact .inl rfl
    | some proxy =>
        have ours : (Question.socksConnect proxy addr.display : Question H).contacts cfg addr :=
          ⟨tor, by simpa using enabled, parsed, rfl⟩
        refine wp_question_bind ⟨⟨transport, rfl⟩, ours⟩ fun connected => ?_
        cases connected with
        | elapsed => exact .inr (.inl rfl)
        | finished failed =>
            cases failed with
            | some e => exact .inr (.inl rfl)
            | none => exact wp_configureStream cfg transport

theorem wp_ipConnect (transport : TransportHint) (direct : addr.net ≠ .torV3) :
    wp (monitor cfg addr) (ipConnect addr : Routine H Unit) (Opens transport)
      (.dialling transport) := by
  unfold ipConnect
  cases target : addr.socketAddr with
  | none => exact .inl rfl
  | some socketAddr =>
      refine wp_question_bind ⟨⟨transport, rfl⟩, direct, target⟩ fun connected => ?_
      cases connected with
      | elapsed => exact .inr (.inl rfl)
      | finished failed =>
          cases failed with
          | some kind => exact .inr (.inl rfl)
          | none => exact wp_configureStream cfg transport

theorem wp_tcpConnect (transport : TransportHint) :
    wp (monitor cfg addr) (tcpConnect cfg addr : Routine H Unit) (Opens transport)
      (.dialling transport) := by
  unfold tcpConnect
  cases net : addr.net with
  | torV3 => exact wp_torConnect cfg transport net
  | ipv4 | ipv6 | cjdns => exact wp_ipConnect cfg transport (by rw [net]; nofun)
  | i2p => exact .inl rfl

/-! ## The session -/

variable (net : Network H) (codec : AddrCodec) (fuel : Nat)

theorem watches {conn : Connection H} (transportVersion : UInt8) :
    conn.Watches (monitor cfg addr) (· = .session transportVersion)
      (· = .session transportVersion) where
  still s q holds asked := by
    rcases holds with rfl | rfl <;> cases q <;>
      first
        | exact ⟨⟨_, rfl⟩, fun _ => rfl⟩
        | exact ⟨Course.noConfusion, fun _ => rfl⟩
        | cases asked
  select s holds := ⟨_, holds⟩
  ordinary _ _ holds _ := holds
  synced _ _ holds _ := holds

theorem wp_handshake (userAgent : String) (tipHeight : Int) {s : Course}
    (shakes : s.speaks.isSome) :
    wp (monitor cfg addr)
      ((VersionHandshake.run fuel userAgent tipHeight).mapError VersionHandshake.error :
        Routine H HandshakeInfo) (fun s' _ => s' = s) s := by
  rw [wp_mapError]
  apply (VersionHandshake.asks_run fuel userAgent tipHeight).wp
  have running : s ≠ .done := by
    rintro rfl
    cases shakes
  intro q asked
  cases q with
  | unixMs | random => exact ⟨running, fun _ => rfl⟩
  | handshakeSend | handshakeRecv => exact ⟨shakes, fun _ => rfl⟩
  | _ => cases asked

theorem wp_emitHandshake (id : UInt64) (transportVersion : UInt8) (info : HandshakeInfo) :
    wp (monitor cfg addr)
      (emitHandshake codec id addr transportVersion info : Routine H Unit)
      (fun s' end_ => end_ = .ok () ∧ s' = .session transportVersion)
      (.session transportVersion) :=
  wp_aside cfg Course.noConfusion (fun _ => rfl) fun _ => ⟨Course.noConfusion, fun _ => ⟨rfl, rfl⟩⟩

/-- A session that ran, or none. -/
def Sessions (transportVersion : UInt8) (transport : TransportHint) :
    Course → Except AnyError SessionEnd → Prop
  | s, .ok _ => s = .session transportVersion
  | s, .error _ => s.Trying transport

variable [DecidableEq H]

theorem wp_runSession (id : UInt64) {transportVersion : UInt8} {transport : TransportHint}
    {s : Course} (trying : s.Trying transport) (speaks : s.speaks = some transportVersion) :
    wp (monitor cfg addr) (runSession net codec cfg fuel id addr transportVersion)
      (Sessions transportVersion transport) s := by
  have shakes : s.speaks.isSome := by rw [speaks]; rfl
  have running : s ≠ .done := by
    rintro rfl
    cases shakes
  refine wp_aside cfg running (fun _ => rfl) fun (_, tipHeight) => ?_
  refine wp_bind_of (wp_handshake cfg fuel _ _ shakes) ?_ ?_
  · rintro _ info rfl
    refine wp_aside cfg running (fun _ => rfl) fun connectedAt => ?_
    refine wp_question_bind ⟨rfl, speaks⟩ fun _ => ?_
    change wp (monitor cfg addr) _ _ (.session transportVersion)
    refine wp_bind_of (wp_emitHandshake cfg codec id transportVersion info) ?_ ?_
    · rintro _ _ ⟨_, rfl⟩
      refine wp_aside cfg Course.noConfusion (fun _ => rfl) fun addrNow => ?_
      refine wp_aside cfg Course.noConfusion (fun _ => rfl) fun getheadersNow => ?_
      refine wp_aside cfg Course.noConfusion (fun _ => rfl) fun pongNow => ?_
      rw [bind_eq, wp_bind, wp_outcome]
      apply wp_mono (Connection.wp_run net codec (watches cfg transportVersion) fuel rfl)
      rintro s' _ ⟨e, conn, rfl, still⟩
      have here : s' = .session transportVersion := by simpa using still
      subst here
      exact wp_aside cfg Course.noConfusion (fun _ => rfl) fun undecodable => rfl
    · rintro _ _ ⟨never, _⟩
      cases never
  · rintro _ _ rfl
    exact trying

/-! ## Attempts -/

theorem wp_connectV2 (id : UInt64) {transport : TransportHint} (secure : transport ≠ .v1Only) :
    wp (monitor cfg addr) (connectV2 net codec cfg fuel id addr) (Sessions 2 transport)
      (.dialling transport) := by
  refine wp_bind_of (wp_tcpConnect cfg transport) ?_ fun _ _ trying => trying
  rintro _ _ rfl
  refine wp_question_bind ⟨transport, rfl, secure⟩ fun shaken => ?_
  cases shaken with
  | elapsed => exact .inr (.inr (.inl rfl))
  | finished failed =>
      cases failed with
      | some e => exact .inr (.inr (.inl rfl))
      | none => exact wp_runSession cfg net codec fuel id (.inr (.inr (.inr rfl))) rfl

theorem wp_connectV1 (id : UInt64) :
    wp (monitor cfg addr) (connectV1 net codec cfg fuel id addr) (Sessions 1 .v1Only)
      (.dialling .v1Only) := by
  refine wp_bind_of (wp_tcpConnect cfg .v1Only) ?_ fun _ _ trying => trying
  rintro _ _ rfl
  exact wp_runSession cfg net codec fuel id (.inr (.inr (.inl rfl))) rfl

/-- How connecting ends: in a session of some version, or without any. -/
def Dialled : Course → Except AnyError (UInt8 × SessionEnd) → Prop
  | s, .ok (transportVersion, _) => s = .session transportVersion
  | s, .error _ => ∃ transport, s.Trying transport

omit [DecidableEq H] in
/-- With whatever version a session carries. -/
theorem Sessions.dialled {p : Routine H SessionEnd} {transportVersion : UInt8}
    {transport : TransportHint} {s : Course}
    (runs : wp (monitor cfg addr) p (Sessions transportVersion transport) s) :
    wp (monitor cfg addr) (p >>= fun end_ => pure (transportVersion, end_)) Dialled s :=
  wp_bind_of runs (fun _ _ here => here) fun _ _ trying => ⟨transport, trying⟩

theorem wp_connectAndRun (id : UInt64) (transport : TransportHint) :
    wp (monitor cfg addr) (connectAndRun net codec cfg fuel id ⟨addr, transport⟩) Dialled
      (.dialling transport) := by
  cases transport with
  | v2 => exact Sessions.dialled cfg (wp_connectV2 cfg net codec fuel id nofun)
  | v1Only => exact Sessions.dialled cfg (wp_connectV1 cfg net codec fuel id)
  | unknown =>
      dsimp only [connectAndRun]
      rw [bind_eq, wp_bind, wp_outcome]
      have detecting : TransportHint.unknown ≠ .v1Only := nofun
      apply wp_mono (wp_connectV2 cfg net codec fuel id detecting)
      intro s end_ reached
      cases end_ with
      | ok end_ => exact reached
      | error e =>
          dsimp only [andThen_ok]
          split
          · exact ⟨_, reached⟩
          · exact wp_question_bind ⟨rfl, reached⟩ fun _ =>
              Sessions.dialled cfg (wp_connectV1 cfg net codec fuel id)

omit [SocketText] in
theorem Dialled.running {s : Course} {end_ : Except AnyError (UInt8 × SessionEnd)}
    (dialled : s.Dialled end_) : s ≠ .done := by
  rintro rfl
  cases end_ with
  | ok r => cases dialled
  | error e =>
      obtain ⟨transport, trying⟩ := dialled
      rcases trying with never | never | never | never <;> cases never

omit [DecidableEq H] in
theorem wp_emitResult (id : UInt64) (dial : Dial) (version : Option UInt32) (userAgent : String)
    (result : ConnectionResult) {s : Course} (running : s ≠ .done) :
    wp (monitor cfg addr) (emitResult id dial version userAgent result : Routine H Unit)
      (fun s' end_ => end_ = .ok () ∧ s' = s) s :=
  wp_aside cfg running (fun _ => rfl) fun _ => ⟨running, fun _ => ⟨rfl, rfl⟩⟩

theorem wp_attemptAs (id : UInt64) (transport : TransportHint) :
    wp (monitor cfg addr) (attemptAs net codec cfg fuel id ⟨addr, transport⟩)
      (fun s _ => s = .done) (.dialling transport) := by
  refine wp_aside cfg Course.noConfusion (fun _ => rfl) fun started => ?_
  rw [bind_eq, wp_bind, wp_outcome]
  apply wp_mono (wp_connectAndRun cfg net codec fuel id transport)
  intro s end_ dialled
  have running := dialled.running
  have ends (outcome : Outcome) :
      wp (monitor cfg addr) (ask (.lifecycle (.ended addr outcome)) : Routine H Unit)
        (fun s _ => s = .done) s := ⟨⟨rfl, running⟩, fun _ => rfl⟩
  cases end_ with
  | ok r =>
      obtain ⟨version, end_⟩ := r
      refine wp_aside cfg running (fun _ => rfl) fun now => ?_
      refine wp_aside cfg running (fun _ => rfl) fun now' => ?_
      refine wp_bind_of (wp_emitResult cfg id _ _ _ _ running) ?_ ?_
      · rintro _ _ ⟨_, rfl⟩
        exact ends _
      · rintro _ _ ⟨never, _⟩
        cases never
  | error e =>
      refine wp_aside cfg running (fun _ => rfl) fun now => ?_
      refine wp_bind_of (wp_emitResult cfg id _ _ _ _ running) ?_ ?_
      · rintro _ _ ⟨_, rfl⟩
        exact ends _
      · rintro _ _ ⟨never, _⟩
        cases never

theorem wp_bootstrapAttemptAs (id : UInt64) :
    wp (monitor cfg addr) (bootstrapAttemptAs net codec cfg fuel id addr)
      (fun s _ => s = .done) (.dialling .unknown) := by
  dsimp only [bootstrapAttemptAs]
  rw [bind_eq, wp_bind, wp_outcome]
  apply wp_mono (wp_connectAndRun cfg net codec fuel id .unknown)
  intro s end_ dialled
  have running := dialled.running
  cases end_ with
  | ok r =>
      obtain ⟨version, end_⟩ := r
      refine wp_aside cfg running (fun _ => rfl) fun now => ?_
      exact wp_question_bind ⟨rfl, running⟩ fun _ => rfl
  | error e => exact wp_question_bind ⟨rfl, running⟩ fun _ => rfl

end Course

/-! ## Traces -/

/-- What a question reports to the manager. -/
def Question.report : Question H → Option Lifecycle
  | .lifecycle msg => some msg
  | _ => none

/-- What a trace reports to the manager, in order. -/
def reports (trace : List (Exchange (Question H) Answer)) : List Lifecycle :=
  trace.filterMap fun x => x.1.report

def Question.isContact : Question H → Bool
  | .tcpConnect _ | .socksConnect .. => true
  | _ => false

/-- How often a trace dials. -/
def contacts (trace : List (Exchange (Question H) Answer)) : Nat :=
  trace.countP fun x => x.1.isContact

theorem reports_concat (before : List (Exchange (Question H) Answer))
    (x : Exchange (Question H) Answer) :
    reports (before ++ [x]) = reports before ++ x.1.report.toList := by
  rw [reports, List.filterMap_append]
  cases report : x.1.report <;> simp [reports, report]

theorem contacts_concat (before : List (Exchange (Question H) Answer))
    (x : Exchange (Question H) Answer) :
    contacts (before ++ [x]) = contacts before + x.1.isContact.toNat := by
  rw [contacts, List.countP_append]
  cases contact : x.1.isContact <;> simp [contacts, contact]

namespace Course

/-- A transport that was settled before a stream, what the manager was told of it, and the
    dials before. -/
def Verdict (addr : PeerAddr) (hint transport : TransportHint) (told : List Lifecycle)
    (dials : Nat) : Prop :=
  transport = hint ∧ told = [] ∧ dials = 0 ∨
    hint = .unknown ∧ transport = .v1Only ∧ told = [.v1Only addr] ∧ dials ≤ 1

/-- What an attempt has told and how often it has dialled when it comes to a stage. -/
def Told (addr : PeerAddr) (hint : TransportHint) (s : Course) (told : List Lifecycle)
    (dials : Nat) : Prop :=
  match s with
  | .dialling transport => Verdict addr hint transport told dials
  | .unreachable transport | .opened transport | .secured transport =>
      ∃ before, Verdict addr hint transport told before ∧ dials ≤ before + 1
  | .session transportVersion => ∃ transport verdict before services,
      Verdict addr hint transport verdict before ∧ dials ≤ before + 1 ∧
        told = verdict ++ [.connected addr services transportVersion]
  | .done => ∃ transport verdict before session outcome,
      Verdict addr hint transport verdict before ∧ dials ≤ before + 1 ∧
        (session = [] ∨ ∃ services version, session = [.connected addr services version]) ∧
        told = verdict ++ session ++ [.ended addr outcome]

variable {addr : PeerAddr} {hint : TransportHint}

theorem Told.dials {transport : TransportHint} {told : List Lifecycle} {dials : Nat}
    (sofar : (dialling transport).Told addr hint told dials) {E : Type} (a : Timed (Option E)) :
    ((dialling transport).dials a).Told addr hint told (dials + 1) := by
  have tried : ∃ before, Verdict addr hint transport told before ∧ dials + 1 ≤ before + 1 :=
    ⟨dials, sofar, le_rfl⟩
  cases a with
  | elapsed => exact tried
  | finished failed => cases failed <;> exact tried

/-- Without a session nothing is told but the verdict. -/
theorem Told.trying {s : Course} {transport : TransportHint} {told : List Lifecycle} {dials : Nat}
    (sofar : s.Told addr hint told dials) (trying : s.Trying transport) :
    ∃ before, Verdict addr hint transport told before ∧ dials ≤ before + 1 := by
  rcases trying with rfl | rfl | rfl | rfl
  · exact ⟨dials, sofar, Nat.le_succ _⟩
  all_goals exact sofar

theorem trying_of_speaks {s : Course} {transportVersion : UInt8}
    (speaks : s.speaks = some transportVersion) : ∃ transport, s.Trying transport := by
  cases s with
  | opened transport => exact ⟨transport, .inr (.inr (.inl rfl))⟩
  | secured transport => exact ⟨transport, .inr (.inr (.inr rfl))⟩
  | _ => cases speaks

/-- What the end of an attempt leaves told. -/
theorem Told.ended {s : Course} {told : List Lifecycle} {dials : Nat}
    (sofar : s.Told addr hint told dials) (running : s ≠ .done) (outcome : Outcome) :
    Course.done.Told addr hint (told ++ [.ended addr outcome]) dials := by
  have without {transport : TransportHint} (trying : s.Trying transport) :
      Course.done.Told addr hint (told ++ [.ended addr outcome]) dials := by
    obtain ⟨before, verdict, few⟩ := sofar.trying trying
    exact ⟨transport, told, before, [], outcome, verdict, few, .inl rfl, by simp⟩
  cases s with
  | dialling transport => exact without (.inl rfl)
  | unreachable transport => exact without (.inr (.inl rfl))
  | opened transport => exact without (.inr (.inr (.inl rfl)))
  | secured transport => exact without (.inr (.inr (.inr rfl)))
  | session transportVersion =>
      obtain ⟨transport, verdict, before, services, first, few, rfl⟩ := sofar
      exact ⟨transport, verdict, before, _, outcome, first, few, .inr ⟨_, _, rfl⟩, rfl⟩
  | done => exact absurd rfl running

variable [SocketText] {cfg : ProtocolConfig}

theorem Told.next {s : Course} {told : List Lifecycle} {dials : Nat}
    (sofar : s.Told addr hint told dials) {q : Question H} (asked : s.Allows cfg addr q)
    (a : Answer q) :
    (s.next q a).Told addr hint (told ++ q.report.toList) (dials + q.isContact.toNat) := by
  cases q with
  | tcpConnect | socksConnect =>
      obtain ⟨⟨transport, rfl⟩, _⟩ := asked
      simpa [Question.report, Question.isContact] using sofar.dials a
  | bip324Handshake =>
      obtain ⟨transport, rfl, _⟩ := asked
      have same : told ++ (Question.bip324Handshake : Question H).report.toList = told :=
        List.append_nil told
      rw [same]
      cases a with
      | elapsed => exact sofar
      | finished failed => cases failed <;> exact sofar
  | lifecycle msg =>
      cases msg with
      | v1Only a =>
          obtain ⟨rfl, trying⟩ := asked
          obtain ⟨before, verdict, few⟩ := sofar.trying trying
          rcases verdict with ⟨rfl, rfl, rfl⟩ | ⟨_, never, _⟩
          · exact .inr ⟨rfl, rfl, rfl, few⟩
          · cases never
      | connected a services transportVersion =>
          obtain ⟨rfl, speaks⟩ := asked
          obtain ⟨transport, trying⟩ := trying_of_speaks speaks
          obtain ⟨before, verdict, few⟩ := sofar.trying trying
          exact ⟨transport, told, before, services, verdict, few, rfl⟩
      | ended a outcome =>
          obtain ⟨rfl, running⟩ := asked
          exact sofar.ended running outcome
  | _ => simpa [Question.report, Question.isContact] using sofar

/-- The monitor's stage tells what a trace has reported. -/
theorem told {trace : List (Exchange (Question H) Answer)}
    (accepts : (monitor cfg addr).Accepts (.dialling hint) trace) :
    ((monitor cfg addr).after (.dialling hint) trace).Told addr hint (reports trace)
      (contacts trace) := by
  refine accepts.invariant (fun s before => s.Told addr hint (reports before) (contacts before))
    (.inl ⟨rfl, rfl, rfl⟩) fun s before x sofar asked => ?_
  rw [reports_concat, contacts_concat]
  exact sofar.next asked x.2

theorem not_allows_done (q : Question H) : ¬done.Allows cfg addr q := by
  intro asked
  cases q with
  | peerId => exact asked
  | tcpConnect | socksConnect | setNodelay | setUserTimeout => grind [Allows]
  | lifecycle msg => cases msg <;> grind [Allows, Trying, speaks]
  | _ => grind [Allows, Question.ofSession, speaks]

theorem contacts_of_allows {s : Course} {q : Question H} (asked : s.Allows cfg addr q) :
    q.contacts cfg addr := by
  cases q with
  | tcpConnect | socksConnect => exact asked.2
  | _ => trivial

/-- A question of the session comes right after the manager has heard of it. -/
theorem Told.session {s : Course} {told : List Lifecycle} {dials : Nat}
    (sofar : s.Told addr hint told dials) {q : Question H} (ofSession : q.ofSession = true)
    (asked : s.Allows cfg addr q) :
    ∃ services transportVersion,
      told.getLast? = some (.connected addr services transportVersion) := by
  have here : ∃ transportVersion, s = .session transportVersion := by
    cases q <;> first | exact asked | cases ofSession
  obtain ⟨transportVersion, rfl⟩ := here
  obtain ⟨_, _, _, services, _, _, rfl⟩ := sofar
  exact ⟨services, transportVersion, by simp⟩

end Course

/-! ## Attempts -/

/-- The reports of an attempt on an address: the verdict of one that detects the transport, a
    session, and the end, each once at most and in this order. -/
def CourseReports (addr : PeerAddr) (hint : TransportHint) (finished : Bool)
    (reports : List Lifecycle) : Prop :=
  ∃ verdict session ended, reports = verdict ++ session ++ ended ∧
    (verdict = [] ∨ hint = .unknown ∧ verdict = [.v1Only addr]) ∧
    (session = [] ∨ ∃ services version, session = [.connected addr services version]) ∧
    (ended = [] ∧ finished = false ∨ ∃ outcome, ended = [.ended addr outcome])

namespace Course

variable {addr : PeerAddr} {hint : TransportHint}

theorem Verdict.reports {transport : TransportHint} {verdict : List Lifecycle} {dials : Nat}
    (settled : Verdict addr hint transport verdict dials) :
    verdict = [] ∨ hint = .unknown ∧ verdict = [.v1Only addr] := by
  rcases settled with ⟨_, is, _⟩ | ⟨detecting, _, is, _⟩
  · exact .inl is
  · exact .inr ⟨detecting, is⟩

theorem Verdict.dials_le {transport : TransportHint} {verdict : List Lifecycle} {before dials : Nat}
    (settled : Verdict addr hint transport verdict before) (few : dials ≤ before + 1) :
    dials ≤ if hint = .unknown then 2 else 1 := by
  rcases settled with ⟨_, _, rfl⟩ | ⟨rfl, _, _, one⟩
  · split <;> omega
  · rw [if_pos rfl]
    omega

/-- The reports of an attempt that is under way or over. -/
theorem Told.reports {s : Course} {told : List Lifecycle} {dials : Nat}
    (sofar : s.Told addr hint told dials) {finished : Bool} (whole : finished = true → s = .done) :
    dials ≤ (if hint = .unknown then 2 else 1) ∧ CourseReports addr hint finished told := by
  have unfinished (running : s ≠ .done) : finished = false := by
    simpa using mt whole running
  have without {transport : TransportHint} (trying : s.Trying transport) (running : s ≠ .done) :
      dials ≤ (if hint = .unknown then 2 else 1) ∧ CourseReports addr hint finished told := by
    obtain ⟨before, verdict, few⟩ := sofar.trying trying
    exact ⟨verdict.dials_le few, told, [], [], by simp, verdict.reports, .inl rfl,
      .inl ⟨rfl, unfinished running⟩⟩
  cases s with
  | dialling transport => exact without (.inl rfl) nofun
  | unreachable transport => exact without (.inr (.inl rfl)) nofun
  | opened transport => exact without (.inr (.inr (.inl rfl))) nofun
  | secured transport => exact without (.inr (.inr (.inr rfl))) nofun
  | session transportVersion =>
      obtain ⟨transport, verdict, before, services, settled, few, rfl⟩ := sofar
      exact ⟨settled.dials_le few, verdict, _, [], (List.append_nil _).symm, settled.reports,
        .inr ⟨services, transportVersion, rfl⟩, .inl ⟨rfl, unfinished nofun⟩⟩
  | done =>
      obtain ⟨transport, verdict, before, session, outcome, settled, few, held, rfl⟩ := sofar
      exact ⟨settled.dials_le few, verdict, session, _, rfl, settled.reports, held,
        .inr ⟨outcome, rfl⟩⟩

end Course

section Attempts

variable [SocketText] [DecidableEq H] (net : Network H) (codec : AddrCodec) (cfg : ProtocolConfig)
  (fuel : Nat)

/-- What an attempt takes its peer to speak; the bootstrap sync always detects it. -/
def Starter.hint (dial : Dial) : Starter → TransportHint
  | .manager => dial.transport
  | .bootstrap => .unknown

theorem Starter.wp_course (starter : Starter) (id : UInt64) (dial : Dial) :
    wp (Course.monitor cfg dial.addr) (starter.attemptAs net codec cfg fuel id dial)
      (fun s _ => s = .done) (.dialling (starter.hint dial)) := by
  cases starter with
  | manager => exact Course.wp_attemptAs cfg net codec fuel id dial.transport
  | bootstrap =>
      apply wp_bind_of (Course.wp_bootstrapAttemptAs cfg net codec fuel id)
      · intro _ _ ended
        exact ended
      · intro _ _ ended
        exact ended

/-- Whatever its peer does and wherever it is stopped, an attempt dials its own address alone,
    twice at most, tells the manager of it in order and ends with that, and is in no session
    that the manager has not just been told of. -/
theorem run_attempt_course (starter : Starter) (dial : Dial) {id : UInt64}
    {trace : List (Exchange (Question H) Answer)} {end_ : Option (Except AnyError Unit)}
    (run : Runs (starter.attempt net codec cfg fuel dial) (⟨.peerId, id⟩ :: trace) end_) :
    (∀ x ∈ trace, x.1.contacts cfg dial.addr) ∧
      contacts trace ≤ (if starter.hint dial = .unknown then 2 else 1) ∧
      CourseReports dial.addr (starter.hint dial) end_.isSome (reports trace) ∧
      ∀ before x rest, trace = before ++ x :: rest →
        (x.1.ofSession = true → ∃ services transportVersion,
          (reports before).getLast? = some (.connected dial.addr services transportVersion)) ∧
        (∀ addr outcome, x.1 = .lifecycle (.ended addr outcome) → rest = []) := by
  rw [starter.attempt_eq] at run
  cases run with
  | ask run =>
      obtain ⟨accepts, ended⟩ := run.sound (starter.wp_course net codec cfg fuel id dial)
      have whole : end_.isSome = true → (Course.monitor cfg dial.addr).after
          (.dialling (starter.hint dial)) trace = .done := by
        intro finished
        obtain ⟨e, is⟩ := Option.isSome_iff_exists.mp finished
        exact ended e is
      obtain ⟨few, told⟩ := (Course.told accepts).reports whole
      refine ⟨?_, few, told, ?_⟩
      · intro x listed
        obtain ⟨before, rest, rfl⟩ := List.append_of_mem listed
        obtain ⟨_, ok, _⟩ := Monitor.accepts_append.mp accepts
        exact Course.contacts_of_allows ok
      · rintro before x rest rfl
        obtain ⟨accepts, ok, after⟩ := Monitor.accepts_append.mp accepts
        refine ⟨fun ofSession => (Course.told accepts).session ofSession ok, ?_⟩
        rintro addr outcome is
        obtain ⟨q, a⟩ := x
        cases is
        cases rest with
        | nil => rfl
        | cons next rest => exact absurd after.1 (Course.not_allows_done _)

end Attempts

/-- An attempt that finds out its peer's transport, and the session it comes to. -/
theorem run_attempt_course_session :
    contacts (HungUp.detecting .manager) = 2 ∧
      (∃ outcome, reports (HungUp.detecting .manager) =
        [.v1Only HungUp.addr, .connected HungUp.addr 0 1, .ended HungUp.addr outcome]) ∧
      CourseReports HungUp.addr .unknown true (reports (HungUp.detecting .manager)) := by
  have course := @run_attempt_course _ plainText _ Params.mainnet.network HungUp.codec HungUp.cfg 5
    .manager ⟨HungUp.addr, .unknown⟩ _ _ _ (HungUp.runDetecting .manager)
  exact ⟨rfl, ⟨_, rfl⟩, course.2.2.1⟩

end P2PObserver
