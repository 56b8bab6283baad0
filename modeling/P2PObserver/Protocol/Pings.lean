import P2PObserver.Protocol.HeaderSync

/-! # The ping deadline

A session ends over a ping when one is outstanding and the peer's last answer, or the
handshake, is too long ago. The pings themselves may all be younger: by up to the time between
two ticks of the ping clock.
-/

namespace P2PObserver

open Program

variable {H : Type}

/-- A ping and when it was sent. -/
structure SentPing where
  nonce : UInt64
  sent : ℚ

/-- What the next reading of the clock is for. -/
inductive ReadFor where
  | nothing
  | tick
  | pong (nonce : UInt64)

/-- What has become of a session's pings. -/
structure Pinging where
  /-- The last reading of the clock. -/
  clock : ℚ
  readFor : ReadFor
  /-- When the ping clock last ticked, or the handshake if it never has. -/
  lastTick : ℚ
  /-- The longest time between two ticks, or the handshake and the first. -/
  longestWait : ℚ
  /-- When the peer last answered a ping, or the handshake if it never has. -/
  lastAnswer : ℚ
  /-- Pings without an answer that are past answering, and those that are not, oldest first. -/
  forgotten : List SentPing
  remembered : List SentPing

namespace Pinging

def start (handshake : ℚ) : Pinging where
  clock := handshake
  readFor := .nothing
  lastTick := handshake
  longestWait := 0
  lastAnswer := handshake
  forgotten := []
  remembered := []

def unanswered (w : Pinging) : List SentPing := w.forgotten ++ w.remembered

/-- A ping goes out: only the last ones sent are remembered. -/
def send (w : Pinging) (nonce : UInt64) : Pinging :=
  let pings := w.remembered ++ [⟨nonce, w.clock⟩]
  let excess := pings.length - OUTSTANDING_PINGS
  { w with forgotten := w.forgotten ++ pings.take excess, remembered := pings.drop excess }

/-- A pong answers the oldest ping that is remembered with its nonce. -/
def answer (w : Pinging) (nonce : UInt64) : Pinging :=
  if w.remembered.any (nonce == ·.nonce) then
    { w with remembered := w.remembered.eraseP (nonce == ·.nonce), lastAnswer := w.clock }
  else w

def tick (w : Pinging) : Pinging :=
  { w with longestWait := max w.longestWait (w.clock - w.lastTick), lastTick := w.clock }

/-- A reading of the clock. -/
def read (w : Pinging) (now : ℚ) : Pinging :=
  let w' := { w with clock := now, readFor := .nothing }
  match w.readFor with
  | .nothing => w'
  | .tick => w'.tick
  | .pong nonce => w'.answer nonce

/-- A session's surroundings: they may do anything, with a clock that does not run backwards. -/
def serves : Service (Question H) Answer Pinging
  | w, .now, now, w' => w.clock ≤ now ∧ w' = w.read now
  | w, .select, .tick, w' => w' = { w with readFor := .tick }
  | w, .select, .message (.pong nonce), w' => w' = { w with readFor := .pong nonce }
  | w, .select, _, w' => w' = { w with readFor := .nothing }
  | w, .send (.ping nonce), _, w' => w' = w.send nonce
  | w, _, _, w' => w' = w

/-- What it takes for a session to end over its pings. -/
structure Overdue (w : Pinging) (waited : ℚ) : Prop where
  outstanding : w.remembered ≠ []
  quiet : waited = w.clock - w.lastAnswer ∧ PING_TIMEOUT ≤ waited
  old : ∃ ping ∈ w.unanswered, PING_TIMEOUT ≤ w.clock - ping.sent + w.longestWait

/-! ## The invariant -/

/-- What a connection knows of its pings. Between two answers, the first ping goes out no later
    than a tick of the clock takes. -/
structure Tracks (w : Pinging) (conn : Connection H) : Prop where
  outstanding : conn.stats.outstandingPings = w.remembered.map (·.nonce)
  few : w.remembered.length ≤ OUTSTANDING_PINGS
  lastPong : conn.stats.lastPong = w.lastAnswer
  answered : w.lastAnswer ≤ w.clock
  ticked : w.lastTick ≤ w.clock
  sent : ∀ ping ∈ w.remembered, ping.sent ≤ w.lastTick
  wait : 0 ≤ w.longestWait
  early : w.lastAnswer < w.lastTick → ∃ ping ∈ w.unanswered, ping.sent ≤ w.lastAnswer + w.longestWait

variable {w : Pinging} {conn : Connection H}

theorem tracks_start {conn : Connection H} {handshake : ℚ} (new : conn.stats = .new handshake) :
    (start handshake).Tracks conn := by
  constructor <;> simp [start, new, ConnectionStats.new]

theorem Tracks.wake (tracks : w.Tracks conn) (readFor : ReadFor) :
    Tracks { w with readFor } conn := { tracks with }

/-- A reading for nothing. -/
theorem Tracks.read (tracks : w.Tracks conn) {now : ℚ} (later : w.clock ≤ now) :
    Tracks { w with clock := now, readFor := .nothing } conn :=
  { tracks with
    answered := tracks.answered.trans later
    ticked := tracks.ticked.trans later }

theorem unanswered_send (w : Pinging) (nonce : UInt64) :
    (w.send nonce).unanswered = w.unanswered ++ [⟨nonce, w.clock⟩] := by
  unfold send unanswered
  dsimp only
  rw [List.append_assoc, List.take_append_drop, List.append_assoc]

/-- The code forgets the same pings. -/
theorem Tracks.recordPing (tracks : w.Tracks conn) (nonce : UInt64) :
    (conn.stats.recordPing nonce).outstandingPings =
      (w.send nonce).remembered.map (·.nonce) := by
  have few := tracks.few
  unfold ConnectionStats.recordPing send
  simp only [tracks.outstanding, List.length_append, List.length_map, List.length_singleton,
    List.map_drop, List.map_append, List.map_cons, List.map_nil]
  by_cases full : w.remembered.length = OUTSTANDING_PINGS
  · have one : w.remembered.length + 1 - OUTSTANDING_PINGS = 1 := by omega
    rw [if_pos (by omega), one, List.drop_one]
  · have room : w.remembered.length + 1 - OUTSTANDING_PINGS = 0 := by omega
    rw [if_neg (by omega), room, List.drop_zero]

/-- The clock ticks, and a ping goes out. -/
theorem Tracks.tick (tracks : w.Tracks conn) (nonce : UInt64) :
    (w.tick.send nonce).Tracks { conn with stats := conn.stats.recordPing nonce } where
  outstanding := tracks.recordPing nonce
  few := by
    have few := tracks.few
    simp only [send, Pinging.tick, List.length_drop, List.length_append, List.length_singleton]
    omega
  lastPong := tracks.lastPong
  answered := tracks.answered
  ticked := le_rfl
  sent := by
    intro ping listed
    cases List.mem_append.mp (List.mem_of_mem_drop listed) with
    | inl old => exact (tracks.sent ping old).trans tracks.ticked
    | inr new =>
        obtain rfl := List.mem_singleton.mp new
        exact le_rfl
  wait := le_max_of_le_left tracks.wait
  early := by
    intro later
    rw [unanswered_send]
    show ∃ ping ∈ w.unanswered ++ [⟨nonce, w.clock⟩],
      ping.sent ≤ w.lastAnswer + max w.longestWait (w.clock - w.lastTick)
    by_cases before : w.lastAnswer < w.lastTick
    · obtain ⟨ping, listed, early⟩ := tracks.early before
      refine ⟨ping, List.mem_append_left _ listed, early.trans ?_⟩
      gcongr
      exact le_max_left ..
    · -- The first tick since the answer.
      refine ⟨_, List.mem_append_right _ (List.mem_singleton_self _), ?_⟩
      have wait : w.clock - w.lastTick ≤ max w.longestWait (w.clock - w.lastTick) :=
        le_max_right ..
      linarith only [wait, not_lt.mp before]

/-- A pong is claimed exactly if it answers a ping. -/
theorem Tracks.answer (tracks : w.Tracks conn) (nonce : UInt64) :
    (w.answer nonce).Tracks { conn with stats := (conn.stats.claimPong nonce w.clock).2 } := by
  have listed : nonce ∈ conn.stats.outstandingPings ↔
      w.remembered.any (nonce == ·.nonce) = true := by
    rw [tracks.outstanding]
    simp only [List.mem_map, List.any_eq_true, beq_iff_eq]
    exact exists_congr fun _ => and_congr_right fun _ => eq_comm
  unfold Pinging.answer ConnectionStats.claimPong
  by_cases remembered : w.remembered.any (nonce == ·.nonce) = true
  · rw [if_pos remembered, if_pos (listed.mpr remembered)]
    exact
      { outstanding := by
          show conn.stats.outstandingPings.erase nonce = _
          rw [tracks.outstanding, List.erase_eq_eraseP, List.eraseP_map]
          rfl
        few := (List.length_eraseP_le).trans tracks.few
        lastPong := rfl
        answered := le_rfl
        ticked := tracks.ticked
        sent := fun ping inside => tracks.sent ping (List.mem_of_mem_eraseP inside)
        wait := tracks.wait
        early := fun later => absurd tracks.ticked (not_le.mpr later) }
  · rw [if_neg remembered, if_neg (mt listed.mp remembered)]
    exact { tracks with }

/-- A session that ends over its pings has one that is overdue. -/
theorem Tracks.overdue (tracks : w.Tracks conn) {waited : ℚ}
    (timedOut : conn.stats.pingTimedOut w.clock = some waited) : w.tick.Overdue waited := by
  unfold ConnectionStats.pingTimedOut at timedOut
  have since : elapsedSince conn.stats.lastPong w.clock = w.clock - w.lastAnswer := by
    rw [elapsedSince, tracks.lastPong]
    exact max_eq_right (sub_nonneg.mpr tracks.answered)
  rw [since] at timedOut
  obtain ⟨owed, rfl⟩ : (conn.stats.outstandingPings ≠ [] ∧
      PING_TIMEOUT ≤ w.clock - w.lastAnswer) ∧ w.clock - w.lastAnswer = waited := by
    simpa using timedOut
  obtain ⟨owed, long⟩ := owed
  have remembered : w.remembered ≠ [] := by
    intro idle
    rw [tracks.outstanding, idle] at owed
    exact owed rfl
  refine ⟨remembered, ⟨rfl, long⟩, ?_⟩
  have wait : w.longestWait ≤ w.tick.longestWait := le_max_left ..
  show ∃ ping ∈ w.unanswered, PING_TIMEOUT ≤ w.clock - ping.sent + w.tick.longestWait
  by_cases before : w.lastAnswer < w.lastTick
  · obtain ⟨ping, listed, early⟩ := tracks.early before
    refine ⟨ping, listed, ?_⟩
    linarith only [early, wait, long]
  · -- No ping went out since the answer.
    obtain ⟨ping, listed⟩ := List.exists_mem_of_ne_nil _ remembered
    refine ⟨ping, List.mem_append_right _ listed, ?_⟩
    have sent := tracks.sent ping listed
    linarith only [sent, not_lt.mp before, long, wait, tracks.wait]

/-! ## The session -/

/-- If a session ends over its pings, one is overdue. -/
def Ended (w : Pinging) (e : AnyError × Connection H) : Prop :=
  ∀ waited, e.1.root = .pingTimeout waited → w.Overdue waited

theorem meets_handlePong (tracks : w.Tracks conn) (nonce : UInt64) :
    meets serves (fun _ _ => True) (conn.handlePong nonce) (Connection.Ends Tracks Ended id)
      { w with readFor := .pong nonce } := by
  refine meets_question_bind trivial fun now w₁ answer => ?_
  obtain ⟨later, rfl⟩ := answer
  have answered := (tracks.read later).answer nonce
  dsimp only at answered
  generalize conn.stats.claimPong nonce now = claim at answered ⊢
  obtain ⟨claimed, stats⟩ := claim
  dsimp only at answered ⊢
  split
  · refine meets_question_bind trivial fun ms w₂ same => ?_
    obtain rfl : w₂ = _ := same
    refine meets_question_bind trivial fun ms w₃ same => ?_
    obtain rfl : w₃ = _ := same
    refine meets_question_bind trivial fun _ w₄ same => ?_
    obtain rfl : w₄ = _ := same
    exact answered
  · exact answered

theorem meets_pingTick (tracks : w.Tracks conn) :
    meets serves (fun _ _ => True) conn.pingTick (Connection.Ends Tracks Ended id)
      { w with readFor := .tick } := by
  refine meets_question_bind trivial fun now w₁ answer => ?_
  obtain ⟨later, rfl⟩ := answer
  have read := tracks.read later
  cases timedOut : conn.stats.pingTimedOut now with
  | some waited =>
      intro waited' same
      obtain rfl := Root.pingTimeout.inj same
      exact read.overdue timedOut
  | none =>
      refine meets_question_bind trivial fun nonce w₂ same => ?_
      obtain rfl : w₂ = _ := same
      refine meets_question_bind trivial fun failed w₃ same => ?_
      obtain rfl : w₃ = _ := same
      cases failed with
      | none => exact read.tick nonce
      | some e => exact nofun

/-- What a connection knows of its pings. -/
def pings (conn : Connection H) : List UInt64 × ℚ :=
  (conn.stats.outstandingPings, conn.stats.lastPong)

/-- Questions that neither wait nor ping. -/
def Plain (q : Question H) : Prop := q ≠ .select ∧ ∀ nonce, q ≠ .send (.ping nonce)

theorem Tracks.of_pings (tracks : w.Tracks conn) {conn' : Connection H}
    (same : pings conn' = pings conn) : w.Tracks conn' :=
  { tracks with
    outstanding := (congrArg (·.1) same).trans tracks.outstanding
    lastPong := (congrArg (·.2) same).trans tracks.lastPong }

def Idle (w : Pinging) (conn : Connection H) : Prop := w.readFor = .nothing ∧ w.Tracks conn

/-- Where a session does nothing with its pings, only the clock goes on. -/
theorem meets_plain {R : Type} {p : Handler H R} {left : R → Connection H}
    (idle : w.Idle conn)
    (keeps : Connection.Keeps pings Plain (fun e => ∀ waited, e.1.root ≠ .pingTimeout waited) conn p
      left) :
    meets serves (fun _ _ => True) p (Connection.Ends Idle Ended left) w := by
  have still : ∀ (w : Pinging) (q : Question H), w.Idle conn → Plain q →
      True ∧ ∀ a w', serves w q a w' → w'.Idle conn := by
    intro w q idle asked
    refine ⟨trivial, fun a w' answer => ?_⟩
    obtain ⟨nothing, tracks⟩ := idle
    cases q with
    | now =>
        obtain ⟨later, rfl⟩ := answer
        have goesOn := tracks.read later
        unfold read
        rw [nothing]
        exact ⟨rfl, goesOn⟩
    | send message =>
        cases message with
        | ping nonce => exact absurd rfl (asked.2 nonce)
        | _ =>
            obtain rfl : w' = w := answer
            exact ⟨nothing, tracks⟩
    | select => exact absurd rfl asked.1
    | _ =>
        obtain rfl : w' = w := answer
        exact ⟨nothing, tracks⟩
  apply meets_mono (meets_of_keeps (Idle · conn) keeps idle still)
  intro w' end_ reached
  cases end_ with
  | ok r => exact ⟨reached.1.1, reached.1.2.of_pings reached.2⟩
  | error e => exact fun waited is => absurd is (reached.2 waited)

theorem plain_of_ordinary {q : Question H} {id : UInt64} (ordinary : q.Ordinary id) : Plain q := by
  refine ⟨?_, ordinary.2.1⟩
  rintro rfl
  exact ordinary.1

theorem pings_recordMessage (command : String) :
    pings ({ conn with stats := conn.stats.recordMessage command } : Connection H) =
      pings conn :=
  congrArg (fun steady : Connection.Steady => (steady.outstandingPings, steady.lastPong))
    (Connection.steady_recordMessage command)

theorem pings_mayAnswerGetheaders (now restart : ℚ) :
    pings (conn.mayAnswerGetheaders now restart).2 = pings conn := by
  unfold Connection.mayAnswerGetheaders
  dsimp only
  split <;> rfl

variable [DecidableEq H] (net : Network H) (codec : AddrCodec)

theorem keeps_pings {msg : NetworkMessage H} (other : ∀ nonce, msg ≠ .pong nonce) :
    Connection.Keeps pings Plain (fun e => ∀ waited, e.1.root ≠ .pingTimeout waited) conn
      (conn.handleMessage net codec msg) id := by
  cases kind : msg.ordinary with
  | true =>
      exact (Connection.keeps_handleMessage net codec kind).mono
        (fun steady => (steady.outstandingPings, steady.lastPong))
        (fun _ => plain_of_ordinary) fun _ failed => failed.1
  | false =>
      cases msg with
      | pong nonce => exact absurd rfl (other nonce)
      | getHeaders request =>
          refine Connection.Keeps.of_same { conn with
            stats := conn.stats.recordMessage (NetworkMessage.command (.getHeaders request)) }
            (pings_recordMessage _) ?_
          exact Connection.keeps_handleGetHeaders request ⟨nofun, nofun⟩
            (fun _ _ => ⟨nofun, nofun⟩) (fun _ => ⟨nofun, nofun⟩) (fun _ _ _ => nofun)
            pings_mayAnswerGetheaders fun _ => rfl
      | _ => cases kind

theorem served : Connection.Served net codec (serves (H := H)) Tracks Ended where
  tick := by
    intro w w' conn tracks answer
    obtain rfl : w' = { w with readFor := .tick } := answer
    exact meets_pingTick tracks
  message := by
    intro w w' conn msg tracks answer
    by_cases pong : ∃ nonce, msg = .pong nonce
    · obtain ⟨nonce, rfl⟩ := pong
      obtain rfl : w' = { w with readFor := .pong nonce } := answer
      exact meets_handlePong (tracks.of_pings (pings_recordMessage _)) nonce
    · have plain : w' = { w with readFor := .nothing } := by
        cases msg with
        | pong nonce => exact absurd ⟨nonce, rfl⟩ pong
        | _ => exact answer
      obtain rfl := plain
      apply meets_mono (meets_plain ⟨rfl, tracks.wake .nothing⟩
        (keeps_pings net codec fun nonce is => pong ⟨nonce, is⟩))
      intro w' end_ reached
      cases end_ with
      | ok conn' => exact reached.2
      | error e => exact reached
  failed := by
    intro w w' conn e tracks answer waited is
    cases is

theorem meets_run (idle : w.Idle conn) (fuel : Nat) :
    meets serves (fun _ _ => True) (conn.run net codec fuel) (Connection.Ends Tracks Ended id)
      w := by
  apply Connection.meets_run net codec Idle (served net codec)
  · intro R conn p left w idle ordinary
    have keeps := Connection.Keeps.mono (fun steady => (steady.outstandingPings, steady.lastPong))
      ordinary (fun _ => plain_of_ordinary) fun _ failed => failed.1.2
    exact meets_plain idle keeps
  · intro w conn idle
    exact ⟨idle.1, idle.2.of_pings rfl⟩
  · intro w conn idle
    exact idle.2
  · exact idle

end Pinging

/-- A session ends over its pings only if one has gone unanswered, while it could still be
    answered, for the deadline less the longest time between two ticks. -/
theorem run_pingTimeout [DecidableEq H] (net : Network H) (codec : AddrCodec)
    (addrNow getheadersNow handshake : ℚ) (info : HandshakeInfo) (addr : PeerAddr)
    (transportVersion : UInt8) (connectionId : UInt64) (syncHeaders probe : Bool) (fuel : Nat)
    (trace : List (Exchange (Question H) Answer)) (e : AnyError) (conn : Connection H)
    (w : Pinging) (waited : ℚ)
    (reaches : Reaches ((Connection.new addrNow getheadersNow handshake info addr transportVersion
      connectionId syncHeaders probe).run net codec fuel) trace (.fail (e, conn)))
    (served : Pinging.serves.Serves (.start handshake) trace w)
    (timedOut : e.root = .pingTimeout waited) : w.Overdue waited := by
  have new : (Connection.new (H := H) addrNow getheadersNow handshake info addr transportVersion
    connectionId syncHeaders probe).stats = .new handshake := rfl
  exact reaches.meets served
    (Pinging.meets_run net codec ⟨rfl, Pinging.tracks_start new⟩ fuel) waited timedOut

/-! ## Pings of ten minutes -/

/-- A session ends over its pings only if one has gone unanswered for the deadline. -/
def EndsUnanswered [DecidableEq H] (net : Network H) (codec : AddrCodec) (handshake : ℚ)
    (conn : Connection H) : Prop :=
  ∀ fuel trace e conn' w waited, Reaches (conn.run net codec fuel) trace (.fail (e, conn')) →
    Pinging.serves.Serves (.start handshake) trace w → e.root = .pingTimeout waited →
    ∃ ping ∈ w.unanswered, PING_TIMEOUT ≤ w.clock - ping.sent

/-- A peer that says nothing, and a clock that ticks every ten minutes. -/
def Pinging.silent (net : Network H) (w : Pinging) :
    (q : Question H) → Option (Answer q × Pinging)
  | .now => some (w.clock + 600, w.read (w.clock + 600))
  | .select => some (.tick, { w with readFor := .tick })
  | .send (.ping nonce) => some (none, w.send nonce)
  | .send _ => some (none, w)
  | .unixMs => some (0, w)
  | .tip => some ((net.zeroHash, 0), w)
  | .buildLocator => some ([], w)
  | _ => none

theorem Pinging.silent_serves (net : Network H) (w : Pinging) (q : Question H) (a : Answer q)
    (w' : Pinging) (answered : w.silent net q = some (a, w')) : w.serves q a w' := by
  cases q with
  | now =>
      cases answered
      exact ⟨by linarith, rfl⟩
  | send message => cases message <;> cases answered <;> rfl
  | select | unixMs | tip | buildLocator => cases answered; rfl
  | _ => cases answered

/-- A session of two ticks. -/
def Pinging.play [LinearOrder H] (net : Network H) (codec : AddrCodec) (conn : Connection H) :
    List (Exchange (Question H) Answer) × Handler H (Connection H) × Pinging :=
  (conn.run net codec 2).against (silent net) (.start 0)

/-- What a program has failed over. -/
def failure {R : Type} : Handler H R → Option Root
  | .fail (e, _) => some e.root
  | _ => none

theorem of_failure {R : Type} {p : Handler H R} {root : Root} (failed : failure p = some root) :
    ∃ e conn, p = .fail (e, conn) ∧ e.root = root := by
  unfold failure at failed
  split at failed
  · exact ⟨_, _, rfl, Option.some.inj failed⟩
  · cases failed

open Stall in
theorem silent_play :
    failure (Pinging.play Params.mainnet.network codec conn).2.1 = some (.pingTimeout 1200) ∧
      ¬ ∃ ping ∈ (Pinging.play Params.mainnet.network codec conn).2.2.unanswered,
        PING_TIMEOUT ≤ (Pinging.play Params.mainnet.network codec conn).2.2.clock - ping.sent := by
  decide +kernel

open Stall in
/-- The first ping goes out after ten minutes. After twenty, that many seconds have passed since
    the handshake, and the ping is ten minutes old. -/
theorem ping_too_young : ¬ EndsUnanswered Params.mainnet.network codec 0 conn := by
  intro old
  obtain ⟨reaches, served⟩ := against_spec (Pinging.silent_serves Params.mainnet.network)
    (conn.run Params.mainnet.network codec 2) (.start 0)
  obtain ⟨ends, young⟩ := silent_play
  obtain ⟨e, conn', is, timedOut⟩ := of_failure ends
  exact young (old 2 _ e conn' _ 1200 (is ▸ reaches) served timedOut)

open Stall in
/-- The ping is as old as the deadline less the time between the ticks. -/
theorem run_pingTimeout_silent :
    (Pinging.play Params.mainnet.network codec conn).2.2.Overdue 1200 := by
  obtain ⟨reaches, served⟩ := against_spec (Pinging.silent_serves Params.mainnet.network)
    (conn.run Params.mainnet.network codec 2) (.start 0)
  have ends := silent_play.1
  obtain ⟨e, conn', is, timedOut⟩ := of_failure ends
  exact run_pingTimeout Params.mainnet.network codec 0 0 0 _ _ 2 1 true false 2 _ e conn' _ 1200
    (is ▸ reaches) served timedOut

end P2PObserver
