import P2PObserver.Protocol.Ledger

/-! # The ledger of a dial

Every step of connecting against the ledger: it ends with a session that is recorded as one,
or with the error of the failure the ledger holds.
-/

namespace P2PObserver

open Program

variable {H : Type} [SocketText] (cfg : ProtocolConfig) {scope : Option PeerAddr}

namespace Ledger

theorem wp_quiet {E R : Type} {s : Ledger} {q : Question H}
    {f : Answer q → Program (Question H) Answer E R} {post : Ledger → Except E R → Prop}
    (quiet : Quiet q) (rest : ∀ a, wp (monitor cfg scope) (f a) post s) :
    wp (monitor cfg scope) (ask q >>= f) post s := by
  refine wp_question_bind ?_ fun a => ?_
  · cases q with
    | tip | seen | seenEach | insertBatch | placement | rejectionOf | recoveryDue | buildLocator
    | getHeadersFromLocator | now | unixMs | random | send | undecodable | gossip => trivial
    | _ => cases quiet
  · rw [show (monitor cfg scope).next s q a = s from next_quiet s quiet a]
    exact rest a

/-- A handler leaves the ledger of its session as it is. -/
theorem still {s : Ledger} {q : Question H} {id : UInt64} (own : s.id = id)
    (running : s.reported = .handshake) (asked : q.InHandler id) :
    (monitor cfg scope).ok s q ∧ ∀ a, (monitor cfg scope).next s q a = s := by
  cases q with
  | emit event =>
      obtain ⟨ofId, e, is, ofSession⟩ := asked
      have turn : s.reported.next e = some s.reported := by
        rw [running]
        cases e with
        | handshake | connectionResult => cases ofSession
        | _ => rfl
      exact ⟨⟨ofId.trans own.symm, e, is, by rw [turn]; rfl⟩, fun _ => next_emit is turn _⟩
  | tip | seen | seenEach | insertBatch | placement | rejectionOf | recoveryDue | buildLocator
  | getHeadersFromLocator | now | unixMs | send | gossip =>
      exact ⟨trivial, next_quiet s trivial⟩
  | _ => cases asked

end Ledger

namespace VersionHandshake

open Ledger

/-- What a handshake step may end with. -/
def Steps {R : Type} (s : Ledger) (ok : R → Ledger → Prop) (s' : Ledger) :
    Except (Timed AnyError) R → Prop
  | .ok r => ok r s'
  | .error e => ∃ p, error e = p.error ∧ s.Fails p s'

theorem wp_send {s : Ledger} (message : NetworkMessage H) (fresh : s.progress.completed = false) :
    wp (monitor cfg scope) (send message)
      (Steps s fun _ s' => s' = s.next (.handshakeSend message) (.finished none)) s := by
  refine wp_question_bind trivial fun a => ?_
  cases a with
  | elapsed =>
      have fails : (s.progress.sent message .elapsed).completed = false :=
        (Progress.sent_completed _ _ (by simp)).trans fresh
      exact ⟨.versionTimeout, rfl, _, fails, next_handshakeSend s message _⟩
  | finished failed =>
      cases failed with
      | none => rfl
      | some e =>
          have fails : (s.progress.sent message (.finished (some e))).completed = false :=
            (Progress.sent_completed _ _ (by simp)).trans fresh
          exact ⟨.versionFailed e, rfl, _, fails, next_handshakeSend s message _⟩

theorem wp_sendIf {s : Ledger} (wanted : Bool) {message : NetworkMessage H}
    (silent : ∀ a, s.progress.sent message a = s.progress)
    (fresh : s.progress.completed = false) :
    wp (monitor cfg scope) (sendIf wanted message) (Steps s fun _ s' => s' = s) s := by
  unfold sendIf
  cases wanted with
  | false => rfl
  | true =>
      apply wp_mono (wp_send cfg message fresh)
      intro s' end_ reached
      cases end_ with
      | ok => exact reached.trans (by simp [next_handshakeSend, silent])
      | error e => exact reached

theorem wp_answer {s : Ledger} (v : VersionMessage) (fresh : s.progress.completed = false) :
    wp (monitor cfg scope) (answer v : Handshaking H Unit)
      (Steps s fun _ s' => s' = { s with progress := { s.progress with version := true }.check })
      s := by
  refine wp_bind_of (wp_sendIf cfg _ (fun a => rfl) fresh) ?_ fun _ _ failed => failed
  rintro _ _ rfl
  refine wp_bind_of (wp_sendIf cfg _ (fun a => rfl) fresh) ?_ fun _ _ failed => failed
  rintro _ _ rfl
  apply wp_mono (wp_send cfg _ fresh)
  intro s' end_ reached
  cases end_ with
  | ok => exact reached.trans (by simp [next_handshakeSend, Progress.sent])
  | error e => exact reached

/-- The ledger of a handshake that has come as far as `st`. -/
def Open (s : Ledger) (st : State) : Prop :=
  s.progress.version = st.peerVersion.isSome ∧ s.progress.verack = st.gotVerack ∧
    s.progress.completed = st.info.isSome

theorem wp_receive {s : Ledger} {st : State} (opened : Open s st) (unfinished : st.info = none)
    (message : NetworkMessage H) :
    wp (monitor cfg scope) (receive st message)
      (Steps s fun st' s' => Open s' st' ∧ ∃ progress, s' = { s with progress })
      (s.next .handshakeRecv (.finished (.ok message))) := by
  obtain ⟨version, verack, completed⟩ := opened
  have unfinished : st.info.isSome = false := by rw [unfinished]; rfl
  have fresh : s.progress.completed = false := completed.trans unfinished
  -- Every message but a verack leaves the ledger as it is.
  have same (other : s.progress.received (.finished (.ok message)) = s.progress) :
      s.next .handshakeRecv (.finished (.ok message)) = s := by
    simp [next_handshakeRecv, other]
  cases message with
  | version v =>
      rw [same rfl]
      refine wp_bind_of (wp_answer cfg _ fresh) ?_ fun _ _ failed => failed
      rintro _ _ rfl
      refine ⟨⟨rfl, verack, ?_⟩, _, rfl⟩
      simp [Progress.check, State.info_isSome, fresh, verack]
  | verack =>
      refine ⟨⟨version, rfl, ?_⟩,
        s.progress.received (.finished (.ok (.verack : NetworkMessage H))), ?_⟩
      · simp [next_handshakeRecv, Progress.received, Progress.check, State.info_isSome, fresh,
          version]
      · simp [next_handshakeRecv]
  | sendAddrV2 | wtxidRelay =>
      rw [same rfl]
      exact ⟨⟨version, verack, by rw [completed, State.info_isSome, State.info_isSome]⟩, _, rfl⟩
  | _ =>
      rw [same rfl]
      exact ⟨⟨version, verack, completed⟩, _, rfl⟩

theorem wp_loop (fuel : Nat) {s : Ledger} {st : State} (opened : Open s st) :
    wp (monitor cfg scope) (loop fuel st : Handshaking H HandshakeInfo)
      (Steps s fun _ s' => ∃ progress, progress.completed = true ∧ s' = { s with progress }) s := by
  induction fuel generalizing s st with
  | zero => trivial
  | succ fuel ih =>
      unfold loop
      cases unfinished : st.info with
      | some info => exact ⟨s.progress, by rw [opened.2.2, unfinished]; rfl, rfl⟩
      | none =>
          have fresh : s.progress.completed = false := by rw [opened.2.2, unfinished]; rfl
          refine wp_question_bind trivial fun a => ?_
          cases a with
          | elapsed =>
              exact ⟨.versionTimeout, rfl, s.progress, fresh, next_handshakeRecv (H := H) s _⟩
          | finished received =>
              cases received with
              | error e =>
                  exact ⟨.versionFailed e, rfl, s.progress, fresh,
                    next_handshakeRecv (H := H) s _⟩
              | ok message =>
                  refine wp_bind_of (wp_receive cfg opened unfinished message) ?_
                    fun _ _ failed => failed
                  rintro _ st' ⟨opened', progress, rfl⟩
                  apply wp_mono (ih opened')
                  intro s' end_ reached
                  cases end_ with
                  | ok info => exact reached
                  | error e => exact reached

theorem wp_run (fuel : Nat) (userAgent : String) (tipHeight : Int) {s : Ledger}
    (fresh : s.progress.completed = false) :
    wp (monitor cfg scope) (run fuel userAgent tipHeight : Handshaking H HandshakeInfo)
      (Steps s fun _ s' => ∃ progress, progress.completed = true ∧ s' = { s with progress }) s := by
  refine wp_quiet cfg trivial fun timestamp => ?_
  refine wp_quiet cfg trivial fun nonce => ?_
  refine wp_bind_of (wp_send cfg _ fresh) ?_ fun _ _ failed => failed
  rintro _ _ rfl
  have sent : s.next (.handshakeSend (buildVersion userAgent tipHeight timestamp nonce :
      NetworkMessage H)) (.finished none) = { s with progress := ⟨false, false, false⟩ } := by
    simp [next_handshakeSend, buildVersion, Progress.sent, fresh]
  rw [sent]
  apply wp_mono (wp_loop cfg fuel ⟨rfl, rfl, rfl⟩)
  intro s' end_ reached
  cases end_ with
  | ok info => exact reached
  | error e => exact reached

end VersionHandshake

/-! ## The session -/

namespace Ledger

/-- The ledger of a running session, which notes an empty HEADERS. -/
def Running (s₁ : Ledger) (sync : Bool) (s : Ledger) : Prop :=
  ∃ synced, s = { s₁ with first := .running synced, synced } ∧ (sync = true → synced = false)

theorem watches {s₁ : Ledger} {conn : Connection H} (own : s₁.id = conn.connectionId)
    (reported : s₁.reported = .handshake) :
    conn.Watches (monitor cfg scope) (s₁.Running conn.syncHeaders)
      (fun s => s = { s₁ with first := .running true, synced := true }) where
  still s q holds asked := by
    rcases holds with ⟨_, rfl, _⟩ | rfl
    · exact still cfg own reported asked
    · exact still cfg own reported asked
  select _ _ := trivial
  ordinary s woken holds unsynced := by
    obtain ⟨synced, rfl, before⟩ := holds
    refine ⟨_, next_select s₁ synced woken, fun sync => ?_⟩
    rw [before sync, Bool.false_or, ← Bool.not_eq_true, emptyHeaders_select]
    intro is
    exact unsynced _ is ⟨sync, rfl⟩
  synced s msg holds synced := by
    obtain ⟨before, rfl, _⟩ := holds
    obtain ⟨_, rfl⟩ := synced
    refine (next_select s₁ before _).trans ?_
    simp

end Ledger

section Session

open Ledger

variable (net : Network H) (codec : AddrCodec)

theorem wp_emitHandshake {s : Ledger} (addr : PeerAddr) (transportVersion : UInt8)
    (info : HandshakeInfo) (nothing : s.reported = .nothing) :
    wp (monitor cfg scope) (emitHandshake codec s.id addr transportVersion info : Routine H Unit)
      (fun s' end_ => end_ = .ok () ∧ s' = { s with reported := .handshake }) s := by
  refine wp_quiet cfg trivial fun timestampMs => ?_
  have turn (info : Handshake) :
      s.reported.next (.handshake info : Event H) = some .handshake := by rw [nothing]; rfl
  refine ⟨⟨rfl, _, rfl, ?_⟩, fun a => ⟨rfl, next_emit rfl (turn _) a⟩⟩
  rw [turn]
  rfl

/-- The report of an attempt, in its turn. -/
theorem wp_emitResult {s : Ledger} (dial : Dial) (version : Option UInt32) (userAgent : String)
    {result : ConnectionResult} {reported : Reported}
    (turn : s.reported.next (.connectionResult result : Event H) = some reported) :
    wp (monitor cfg scope) (emitResult s.id dial version userAgent result : Routine H Unit)
      (fun s' end_ => end_ = .ok () ∧ s' = { s with reported }) s := by
  refine wp_quiet cfg trivial fun timestampMs => ?_
  refine ⟨⟨rfl, _, rfl, ?_⟩, fun a => ⟨rfl, next_emit rfl turn a⟩⟩
  rw [turn]
  rfl

theorem wp_handshake (fuel : Nat) (userAgent : String) (tipHeight : Int) {s : Ledger}
    (fresh : s.progress.completed = false) :
    wp (monitor cfg scope)
      ((VersionHandshake.run fuel userAgent tipHeight).mapError VersionHandshake.error :
        Routine H HandshakeInfo)
      (fun s' => fun
        | .ok _ => ∃ progress, progress.completed = true ∧ s' = { s with progress }
        | .error e => ∃ p, e = p.error ∧ s.Fails p s') s := by
  rw [wp_mapError]
  apply wp_mono (VersionHandshake.wp_run cfg fuel userAgent tipHeight fresh)
  intro s' end_ reached
  cases end_ with
  | ok info => exact reached
  | error e => exact reached

variable [DecidableEq H]

theorem wp_connection (fuel : Nat) {s : Ledger} {conn : Connection H}
    (own : s.id = conn.connectionId) (reported : s.reported = .handshake)
    (first : s.first = .running false) (unsynced : s.synced = false) :
    wp (monitor cfg scope) (conn.run net codec fuel)
      (fun s' end_ => ∃ e conn' synced, end_ = .error (e, conn') ∧
        s' = { s with first := .running synced, synced } ∧
        (conn.syncHeaders = true → e.isSyncComplete = synced)) s := by
  have running : s.Running conn.syncHeaders s := by
    refine ⟨false, ?_, fun _ => rfl⟩
    rw [← first, ← unsynced]
  apply wp_mono (Connection.wp_run net codec (watches cfg own reported) fuel running)
  rintro s' _ ⟨e, conn', rfl, watched⟩
  split at watched
  case isTrue complete => exact ⟨e, conn', true, rfl, watched, fun _ => complete⟩
  case isFalse other =>
    obtain ⟨synced, rfl, sync⟩ := watched
    refine ⟨e, conn', synced, rfl, rfl, fun isSync => ?_⟩
    rw [sync isSync]
    simpa using other

theorem wp_runSession (fuel : Nat) (addr : PeerAddr) (transportVersion : UInt8) {s : Ledger}
    (fresh : s.Fresh) :
    wp (monitor cfg scope) (runSession net codec cfg fuel s.id addr transportVersion)
      (fun s' => fun
        | .ok end_ => s.Ran cfg.syncHeaders end_ s'
        | .error e => ∃ p, e = p.error ∧ s.Fails p s') s := by
  refine wp_quiet cfg trivial fun (_, tipHeight) => ?_
  refine wp_bind_of (wp_handshake cfg fuel _ _ fresh.progress) ?_ fun _ _ failed => failed
  rintro _ info ⟨progress, completed, rfl⟩
  refine wp_quiet cfg trivial fun connectedAt => ?_
  refine wp_question_bind trivial fun _ => ?_
  -- The manager is told, which is where the session begins.
  have begun : (monitor cfg scope).next { s with progress } (.lifecycle (.connected addr
      info.version.services transportVersion) : Question H) () =
        { s with progress, first := .running false } := by
    refine (next_lifecycle _ _ _).trans ?_
    simp [fresh.first]
  rw [begun]
  refine wp_bind_of (wp_emitHandshake cfg codec addr transportVersion info fresh.reported) ?_ ?_
  · rintro _ _ ⟨_, rfl⟩
    refine wp_quiet cfg trivial fun addrNow => ?_
    refine wp_quiet cfg trivial fun getheadersNow => ?_
    refine wp_quiet cfg trivial fun pongNow => ?_
    rw [bind_eq, wp_bind, wp_outcome]
    refine wp_mono (wp_connection cfg net codec fuel rfl rfl rfl (by exact fresh.synced)) ?_
    rintro _ _ ⟨e, conn, synced, rfl, rfl, complete⟩
    refine wp_quiet cfg trivial fun undecodable => ?_
    exact ⟨progress, synced, completed, rfl, complete⟩
  · rintro _ _ ⟨never, _⟩
    cases never

end Session

/-! ## Connecting -/

section Connect

open Ledger

variable {s : Ledger} (addr : PeerAddr)

theorem wp_configureStream (fresh : s.progress.completed = false) :
    wp (monitor cfg scope) (configureStream : Routine H Unit)
      (fun s' => fun
        | .ok () => s' = s
        | .error e => ∃ p, e = p.error ∧ s.Fails p s') s := by
  refine wp_question_bind trivial fun nodelay => ?_
  cases nodelay with
  | some kind => exact ⟨.nodelay kind, rfl, .of_answer fresh trivial rfl⟩
  | none =>
      have same : (monitor cfg scope).next s (.setNodelay : Question H) none = s :=
        next_connected s trivial rfl
      rw [same]
      refine wp_question_bind trivial fun userTimeout => ?_
      cases userTimeout with
      | some kind => exact ⟨.userTimeout kind, rfl, .of_answer fresh trivial rfl⟩
      | none => exact next_connected s trivial rfl

theorem wp_torConnect (fresh : s.progress.completed = false) (tor : addr.net = .torV3) :
    wp (monitor cfg scope) (torConnect cfg addr : Routine H Unit)
      (fun s' => fun
        | .ok () => s' = s ∧ notDialled cfg addr = none
        | .error e => s.Broke (notDialled cfg addr) e s') s := by
  have refused : notDialled cfg addr = if !cfg.torEnabled then some .torDisabled
      else if (SocketText.socketAddr cfg.proxyAddr).isNone then some .invalidProxy else none := by
    rw [notDialled, tor]
  rw [refused]
  unfold torConnect
  split
  case isTrue => exact ⟨_, rfl, .inl ⟨rfl, rfl⟩⟩
  case isFalse =>
    cases SocketText.socketAddr cfg.proxyAddr with
    | none => exact ⟨_, rfl, .inl ⟨rfl, rfl⟩⟩
    | some proxy =>
        refine wp_question_bind trivial fun connected => ?_
        cases connected with
        | elapsed =>
            exact ⟨.proxyTimeout, rfl, .inr ⟨rfl, .of_answer fresh trivial rfl⟩⟩
        | finished failed =>
            cases failed with
            | some e =>
                exact ⟨.proxyFailed e, rfl, .inr ⟨rfl, .of_answer fresh trivial rfl⟩⟩
            | none =>
                have same : (monitor cfg scope).next s
                    (.socksConnect proxy addr.display : Question H) (.finished none) = s := next_connected s trivial rfl
                rw [same]
                apply wp_mono (wp_configureStream cfg fresh)
                intro s' end_ reached
                cases end_ with
                | ok => exact ⟨reached, rfl⟩
                | error e =>
                    obtain ⟨p, is, fails⟩ := reached
                    exact ⟨p, is, .inr ⟨rfl, fails⟩⟩

theorem wp_ipConnect (fresh : s.progress.completed = false)
    (refused : notDialled cfg addr = if addr.socketAddr.isNone then some .noSocketAddr else none) :
    wp (monitor cfg scope) (ipConnect addr : Routine H Unit)
      (fun s' => fun
        | .ok () => s' = s ∧ notDialled cfg addr = none
        | .error e => s.Broke (notDialled cfg addr) e s') s := by
  rw [refused]
  unfold ipConnect
  cases addr.socketAddr with
  | none => exact ⟨_, rfl, .inl ⟨rfl, rfl⟩⟩
  | some socketAddr =>
      refine wp_question_bind trivial fun connected => ?_
      cases connected with
      | elapsed =>
          exact ⟨.tcpTimeout, rfl, .inr ⟨rfl, .of_answer fresh trivial rfl⟩⟩
      | finished failed =>
          cases failed with
          | some kind =>
              exact ⟨.tcpFailed kind, rfl, .inr ⟨rfl, .of_answer fresh trivial rfl⟩⟩
          | none =>
              have same : (monitor cfg scope).next s (.tcpConnect socketAddr : Question H)
                  (.finished none) = s := next_connected s trivial rfl
              rw [same]
              apply wp_mono (wp_configureStream cfg fresh)
              intro s' end_ reached
              cases end_ with
              | ok => exact ⟨reached, rfl⟩
              | error e =>
                  obtain ⟨p, is, fails⟩ := reached
                  exact ⟨p, is, .inr ⟨rfl, fails⟩⟩

theorem wp_tcpConnect (fresh : s.progress.completed = false) :
    wp (monitor cfg scope) (tcpConnect cfg addr : Routine H Unit)
      (fun s' => fun
        | .ok () => s' = s ∧ notDialled cfg addr = none
        | .error e => s.Broke (notDialled cfg addr) e s') s := by
  unfold tcpConnect
  cases net : addr.net with
  | torV3 => exact wp_torConnect cfg addr fresh net
  | ipv4 | ipv6 | cjdns => exact wp_ipConnect cfg addr fresh (by rw [notDialled, net])
  | i2p => exact ⟨.i2pUnsupported, rfl, .inl ⟨by rw [notDialled, net], rfl⟩⟩

/-- What a dial of unknown transport made of its first failure. -/
def Ledger.Settled (s' : Ledger) (end_ : Except AnyError (UInt8 × SessionEnd)) : Prop :=
  match (notDialled cfg addr).or s'.failure with
  | none => s'.v1Only = false
  | some p => if p.error.isTcpLevel then s'.v1Only = false ∧ end_ = .error p.error
      else s'.v1Only = true

theorem Ledger.Settled.of_tcp {s' : Ledger} {end_ : Except AnyError (UInt8 × SessionEnd)}
    {p : FailurePoint} (first : (notDialled cfg addr).or s'.failure = some p)
    (tcp : p.error.isTcpLevel = true) (untold : s'.v1Only = false) (is : end_ = .error p.error) :
    Settled cfg addr s' end_ := by
  rw [Settled, first]
  dsimp only
  rw [if_pos tcp]
  exact ⟨untold, is⟩

theorem Ledger.Settled.of_other {s' : Ledger} {end_ : Except AnyError (UInt8 × SessionEnd)}
    {p : FailurePoint} (first : (notDialled cfg addr).or s'.failure = some p)
    (other : ¬p.error.isTcpLevel = true) (told : s'.v1Only = true) : Settled cfg addr s' end_ := by
  rw [Settled, first]
  dsimp only
  rw [if_neg other]
  exact told

/-- A known transport is not tried again. -/
theorem wp_known {p : Routine H SessionEnd} (version : UInt8) (fresh : s.Fresh)
    (runs : wp (monitor cfg scope) p (fun s' => fun
      | .ok end_ => s.Ran cfg.syncHeaders end_ s' ∧ notDialled cfg addr = none
      | .error e => s.Broke (notDialled cfg addr) e s') s) :
    wp (monitor cfg scope) (p >>= fun end_ => pure (version, end_))
      (fun s' end_ => s.Dialled cfg.syncHeaders s' end_) s := by
  refine wp_bind_of runs ?_ fun _ _ broke => broke.dialled fresh _
  rintro s' end_ ⟨ran, _⟩
  exact ⟨s.failure, s.v1Only, ran⟩

variable [DecidableEq H] (net : Network H) (codec : AddrCodec) (fuel : Nat)

theorem wp_connectV2 (fresh : s.Fresh) :
    wp (monitor cfg scope) (connectV2 net codec cfg fuel s.id addr)
      (fun s' => fun
        | .ok end_ => s.Ran cfg.syncHeaders end_ s' ∧ notDialled cfg addr = none
        | .error e => s.Broke (notDialled cfg addr) e s') s := by
  refine wp_bind_of (wp_tcpConnect cfg addr fresh.progress) ?_ fun _ _ failed => failed
  rintro _ _ ⟨same, dialled⟩
  rw [same, dialled]
  refine wp_question_bind trivial fun shaken => ?_
  cases shaken with
  | elapsed => exact ⟨.bip324Timeout, rfl, .inr ⟨rfl, .of_answer fresh.progress trivial rfl⟩⟩
  | finished failed =>
      cases failed with
      | some e => exact ⟨.bip324Failed e, rfl, .inr ⟨rfl, .of_answer fresh.progress trivial rfl⟩⟩
      | none =>
          have same : (monitor cfg scope).next s (.bip324Handshake : Question H)
              (.finished none) = s :=
            next_connected s trivial rfl
          rw [same]
          apply wp_mono (wp_runSession cfg net codec fuel addr 2 fresh)
          intro s' end_ reached
          cases end_ with
          | ok end_ => exact ⟨reached, rfl⟩
          | error e =>
              obtain ⟨p, is, fails⟩ := reached
              exact ⟨p, is, .inr ⟨rfl, fails⟩⟩

theorem wp_connectV1 (fresh : s.Fresh) :
    wp (monitor cfg scope) (connectV1 net codec cfg fuel s.id addr)
      (fun s' => fun
        | .ok end_ => s.Ran cfg.syncHeaders end_ s' ∧ notDialled cfg addr = none
        | .error e => s.Broke (notDialled cfg addr) e s') s := by
  refine wp_bind_of (wp_tcpConnect cfg addr fresh.progress) ?_ fun _ _ failed => failed
  rintro _ _ ⟨same, dialled⟩
  rw [same, dialled]
  apply wp_mono (wp_runSession cfg net codec fuel addr 1 fresh)
  intro s' end_ reached
  cases end_ with
  | ok end_ => exact ⟨reached, rfl⟩
  | error e =>
      obtain ⟨p, is, fails⟩ := reached
      exact ⟨p, is, .inr ⟨rfl, fails⟩⟩

theorem wp_connectAndRun_unknown (ours : ∀ a ∈ scope, a = addr) (fresh : s.Fresh)
    (unfailed : s.failure = none) :
    wp (monitor cfg scope) (connectAndRun net codec cfg fuel s.id ⟨addr, .unknown⟩)
      (fun s' end_ => s.Dialled cfg.syncHeaders s' end_ ∧
        (s.v1Only = false → Settled cfg addr s' end_)) s := by
  dsimp only [connectAndRun]
  rw [bind_eq, wp_bind, wp_outcome]
  apply wp_mono (wp_connectV2 cfg addr net codec fuel fresh)
  intro s₁ end_ reached
  cases end_ with
  | ok end_ =>
      obtain ⟨⟨progress, synced, completed, rfl, sync⟩, dialled⟩ := reached
      refine ⟨⟨s.failure, s.v1Only, progress, synced, completed, rfl, sync⟩, fun untold => ?_⟩
      simp [Settled, dialled, unfailed, untold]
  | error e =>
      obtain ⟨p, rfl, first⟩ := reached.first unfailed
      obtain ⟨_, progress, failure, v1Only, unfinished, rfl⟩ :=
        reached.dialled fresh cfg.syncHeaders
      dsimp only [andThen_ok]
      split
      case isTrue tcp =>
        exact ⟨reached.dialled fresh cfg.syncHeaders, fun untold =>
          .of_tcp cfg addr first tcp (reached.v1Only.trans untold) rfl⟩
      case isFalse other =>
        refine wp_question_bind ⟨ours, p, first, by simpa using other⟩ fun _ => ?_
        have told : (monitor cfg scope).next { s with progress, failure, v1Only }
            (.lifecycle (.v1Only addr) : Question H) () =
              { s with progress, failure, v1Only := true } := by
          refine (next_lifecycle _ _ _).trans ?_
          simp
        rw [told]
        have fresh' : Fresh { s with progress, failure, v1Only := true } :=
          ⟨unfinished, fresh.reported, fresh.first, fresh.synced⟩
        refine wp_bind_of (wp_connectV1 cfg addr net codec fuel fresh') ?_ ?_
        · rintro s' end_ ⟨⟨progress, synced, completed, rfl, sync⟩, _⟩
          exact ⟨⟨failure, true, progress, synced, completed, rfl, sync⟩, fun _ =>
            .of_other cfg addr first other rfl⟩
        · intro s' e broke
          obtain ⟨is, progress, failure, v1Only, unfinished, same⟩ :=
            broke.dialled fresh' cfg.syncHeaders
          exact ⟨⟨is, progress, failure, v1Only, unfinished, same⟩, fun _ =>
            .of_other cfg addr (broke.failure_of_first first) other broke.v1Only⟩

theorem wp_connectAndRun (dial : Dial) (ours : ∀ a ∈ scope, a = dial.addr) (fresh : s.Fresh)
    (unfailed : s.failure = none) :
    wp (monitor cfg scope) (connectAndRun net codec cfg fuel s.id dial)
      (fun s' end_ => s.Dialled cfg.syncHeaders s' end_) s := by
  cases dial with
  | mk addr transport =>
      cases transport with
      | v2 => exact wp_known cfg addr 2 fresh (wp_connectV2 cfg addr net codec fuel fresh)
      | v1Only => exact wp_known cfg addr 1 fresh (wp_connectV1 cfg addr net codec fuel fresh)
      | unknown =>
          apply wp_mono (wp_connectAndRun_unknown cfg addr net codec fuel ours fresh unfailed)
          intro _ _ reached
          exact reached.1

/-! ## Attempts -/

theorem wp_attemptAs (dial : Dial) (ours : ∀ a ∈ scope, a = dial.addr) (fresh : s.Fresh)
    (unfailed : s.failure = none) :
    wp (monitor cfg scope) (attemptAs net codec cfg fuel s.id dial)
      (fun s' end_ => end_ = .ok () ∧
        s'.reported = if s'.progress.completed then .disconnected else .failed) s := by
  refine wp_quiet cfg trivial fun started => ?_
  rw [bind_eq, wp_bind, wp_outcome]
  apply wp_mono (wp_connectAndRun cfg net codec fuel dial ours fresh unfailed)
  intro s₁ end_ reached
  cases end_ with
  | ok r =>
      obtain ⟨version, end_⟩ := r
      obtain ⟨failure, v1Only, progress, synced, completed, rfl, _⟩ := reached
      refine wp_quiet cfg trivial fun now => ?_
      refine wp_quiet cfg trivial fun now' => ?_
      refine wp_bind_of (wp_emitResult cfg dial _ _ rfl) ?_ ?_
      · rintro _ _ ⟨_, rfl⟩
        exact ⟨trivial, fun _ => ⟨rfl, by simp [monitor, Ledger.next, completed]⟩⟩
      · rintro _ _ ⟨never, _⟩
        cases never
  | error e =>
      obtain ⟨_, progress, failure, v1Only, unfinished, rfl⟩ := reached
      refine wp_quiet cfg trivial fun now => ?_
      refine wp_bind_of (wp_emitResult cfg dial _ _ (by
        rw [fresh.reported]; exact Reported.next_failedResult _ _)) ?_ ?_
      · rintro _ _ ⟨_, rfl⟩
        exact ⟨trivial, fun _ => ⟨rfl, by simp [monitor, Ledger.next, unfinished]⟩⟩
      · rintro _ _ ⟨never, _⟩
        cases never

/-- A bootstrap attempt ends with a session that is over, or with an error that is not the
    sync's completion. -/
theorem wp_bootstrapAttemptAs (addr : PeerAddr) (ours : ∀ a ∈ scope, a = addr) (fresh : s.Fresh)
    (unfailed : s.failure = none) :
    wp (monitor cfg scope) (bootstrapAttemptAs net codec cfg fuel s.id addr)
      (fun s' => fun
        | .ok _ => s'.progress.completed = true ∧ s'.reported = .handshake ∧
            s'.first = .over s'.synced
        | .error e => e.isSyncComplete = false ∧ s'.Fresh) s := by
  dsimp only [bootstrapAttemptAs]
  rw [bind_eq, wp_bind, wp_outcome]
  apply wp_mono (wp_connectAndRun cfg net codec fuel ⟨addr, .unknown⟩ ours fresh unfailed)
  intro s₁ end_ reached
  cases end_ with
  | ok r =>
      obtain ⟨version, end_⟩ := r
      obtain ⟨failure, v1Only, progress, synced, completed, rfl, _⟩ := reached
      refine wp_quiet cfg trivial fun now => ?_
      exact wp_question_bind trivial fun _ => ⟨completed, rfl, by simp [monitor, Ledger.next]⟩
  | error e =>
      obtain ⟨⟨p, rfl⟩, progress, failure, v1Only, unfinished, rfl⟩ := reached
      refine wp_question_bind trivial fun _ =>
        ⟨p.not_syncComplete, unfinished, fresh.reported, ?_, ?_⟩
      · simp [monitor, Ledger.next, fresh.first]
      · simp [monitor, Ledger.next, fresh.synced]

end Connect

end P2PObserver
