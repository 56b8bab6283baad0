import P2PObserver.Lib.Meter
import P2PObserver.Protocol.Pings

/-! # Answering GETHEADERS

A session answers as many GETHEADERS as its tokens allow and drops the others. The clock is read
twice for a request, once for the tokens that have come back and once to count from then on;
none come back between the two, and no real clock stands still from one to the other.
-/

namespace P2PObserver

open Program

variable {H : Type}

/-- What a session does between two waits, as far as GETHEADERS goes. -/
inductive Handling where
  | other
  | arrived
  | looked (time : ℚ)
  | answering

/-- A GETHEADERS: when the clock was read for it, and what was sent for it. -/
structure Asked (H : Type) where
  call : Meter.Call ℚ
  replies : List (NetworkMessage H)

/-- Whether anything was sent for it. -/
def Asked.answered (asked : Asked H) : Bool := !asked.replies.isEmpty

/-- What has become of a session's GETHEADERS. -/
structure Limiting (H : Type) where
  /-- The last reading of the clock. -/
  clock : ℚ
  handling : Handling
  requests : List (Asked H)
  /-- What was sent for anything else. -/
  unasked : List (NetworkMessage H)

namespace Limiting

def start (began : ℚ) : Limiting H where
  clock := began
  handling := .other
  requests := []
  unasked := []

def read (w : Limiting H) (now : ℚ) : Limiting H :=
  let w' := { w with clock := now }
  match w.handling with
  | .arrived => { w' with handling := .looked now }
  | .looked time =>
      { w' with handling := .answering, requests := w.requests ++ [⟨⟨time, now⟩, []⟩] }
  | .answering | .other => w'

def send (w : Limiting H) (message : NetworkMessage H) : Limiting H :=
  match w.handling, w.requests.getLast? with
  | .answering, some last =>
      { w with
        requests := w.requests.dropLast ++ [{ last with replies := last.replies ++ [message] }] }
  | _, _ => { w with unasked := w.unasked ++ [message] }

/-- A session's surroundings: they may do anything, with a clock that does not run backwards. -/
def serves : Service (Question H) Answer (Limiting H)
  | w, .now, now, w' => w.clock ≤ now ∧ w' = w.read now
  | w, .select, .message (.getHeaders _), w' => w' = { w with handling := .arrived }
  | w, .select, _, w' => w' = { w with handling := .other }
  | w, .send message, _, w' => w' = w.send message
  | w, _, _, w' => w' = w

def calls (requests : List (Asked H)) : List (Meter.Call ℚ) := requests.map (·.call)

/-- The requests, each with whether it was answered. -/
def outcomes (requests : List (Asked H)) : List (Meter.Call ℚ × Bool) :=
  requests.map fun asked => (asked.call, asked.answered)

/-- The bucket a session begins with. -/
def full (began : ℚ) : Meter ℚ := ⟨GETHEADERS_BURST, began⟩

/-- How full a bucket would be that fills all the time, with the requests answered so far. -/
def idealLevel (began : ℚ) (requests : List (Asked H)) (time : ℚ) : ℚ :=
  (Meter.ideal GETHEADERS_RATE_PER_SEC GETHEADERS_BURST (full began) (outcomes requests)).levelAt
    GETHEADERS_RATE_PER_SEC GETHEADERS_BURST time

/-- What holds of a session's GETHEADERS, however they come. -/
structure Metered (w : Limiting H) (conn : Connection H) : Prop where
  window : ∀ opens length, 0 ≤ length →
    (Meter.passedIn opens length (outcomes w.requests) : ℚ) ≤
      GETHEADERS_BURST + length * GETHEADERS_RATE_PER_SEC
  replies : ∀ asked ∈ w.requests, asked.replies = [] ∨ ∃ headers, asked.replies = [.headers headers]
  unasked : ∀ headers, .headers headers ∉ w.unasked
  ignored : conn.stats.getheadersIgnored = saturating (w.requests.countP (!·.answered))

/-- Every request that would find a token in a bucket that fills all the time is answered. -/
def Prompt (began : ℚ) (w : Limiting H) : Prop :=
  ∀ (i : Nat) (h : i < w.requests.length),
    1 ≤ idealLevel began (w.requests.take i) w.requests[i].call.looked →
      w.requests[i].answered = true

end Limiting

/-! ## The invariant -/

/-- A connection's bucket. -/
def Connection.meter (conn : Connection H) : Meter ℚ :=
  ⟨conn.getheadersTokens, conn.getheadersTokensUpdated⟩

theorem Connection.mayAnswerGetheaders_fst (conn : Connection H) (now restart : ℚ) :
    (conn.mayAnswerGetheaders now restart).1 =
      (conn.meter.take GETHEADERS_RATE_PER_SEC GETHEADERS_BURST ⟨now, restart⟩).1 := by
  unfold mayAnswerGetheaders Meter.take Meter.levelAt meter elapsedSince
  dsimp only
  split <;> rfl

theorem Connection.meter_mayAnswerGetheaders (conn : Connection H) (now restart : ℚ) :
    (conn.mayAnswerGetheaders now restart).2.meter =
      (conn.meter.take GETHEADERS_RATE_PER_SEC GETHEADERS_BURST ⟨now, restart⟩).2 := by
  unfold mayAnswerGetheaders Meter.take Meter.levelAt meter elapsedSince
  dsimp only
  split <;> rfl

theorem Connection.ignored_mayAnswerGetheaders (conn : Connection H) (now restart : ℚ) :
    (conn.mayAnswerGetheaders now restart).2.stats.getheadersIgnored =
      conn.stats.getheadersIgnored := by
  unfold mayAnswerGetheaders
  dsimp only
  split <;> rfl

theorem saturatingAdd_one (n : Nat) : saturatingAdd (saturating n) 1 = saturating (n + 1) := by
  have kept : (saturating n).toNat = min n (UInt32.size - 1) := by
    apply UInt32.toNat_ofNat_of_lt'
    have : (UInt32.size - 1) < UInt32.size := by decide
    omega
  unfold saturatingAdd
  rw [kept, UInt32.toNat_one]
  unfold saturating
  congr 1
  omega

namespace Limiting

variable {began : ℚ} {w : Limiting H} {conn : Connection H}

/-- What a connection knows of its GETHEADERS. -/
structure Tracks (began : ℚ) (w : Limiting H) (conn : Connection H) : Prop where
  meter : conn.meter =
    (full began).after GETHEADERS_RATE_PER_SEC GETHEADERS_BURST (calls w.requests)
  ordered : Meter.Ordered (full began).since (calls w.requests)
  since : conn.meter.since ≤ w.clock
  outcomes : outcomes w.requests =
    (full began).admissions GETHEADERS_RATE_PER_SEC GETHEADERS_BURST (calls w.requests)
  replies : ∀ asked ∈ w.requests, asked.replies = [] ∨ ∃ headers, asked.replies = [.headers headers]
  unasked : ∀ headers, .headers headers ∉ w.unasked
  ignored : conn.stats.getheadersIgnored = saturating (w.requests.countP (!·.answered))

theorem calls_concat (requests : List (Asked H)) (asked : Asked H) :
    calls (requests ++ [asked]) = calls requests ++ [asked.call] := List.map_append

theorem outcomes_concat (requests : List (Asked H)) (asked : Asked H) :
    Limiting.outcomes (requests ++ [asked]) =
      Limiting.outcomes requests ++ [(asked.call, asked.answered)] := List.map_append

theorem rate_nonneg : (0 : ℚ) ≤ GETHEADERS_RATE_PER_SEC := by
  unfold GETHEADERS_RATE_PER_SEC
  norm_num

theorem Tracks.metered (tracks : w.Tracks began conn) : w.Metered conn where
  window := by
    intro opens length forward
    have burst_nonneg : (0 : ℚ) ≤ GETHEADERS_BURST := by
      unfold GETHEADERS_BURST
      norm_num
    rw [tracks.outcomes, mul_comm]
    exact Meter.passedIn_le rate_nonneg burst_nonneg le_rfl tracks.ordered forward
  replies := tracks.replies
  unasked := tracks.unasked
  ignored := tracks.ignored

/-- Where the clock stood still for the requests before, a request is answered if and only if a
    bucket that fills all the time has a token. -/
theorem Tracks.answered_iff (tracks : w.Tracks began conn) (i : Nat) (h : i < w.requests.length)
    (once : ∀ earlier ∈ w.requests.take i, earlier.call.resumed = earlier.call.looked) :
    w.requests[i].answered = true ↔
      1 ≤ idealLevel began (w.requests.take i) w.requests[i].call.looked := by
  have split : w.requests = w.requests.take i ++ w.requests[i] :: w.requests.drop (i + 1) := by
    rw [← List.drop_eq_getElem_cons h, List.take_append_drop]
  have admitted : (full began).admissions GETHEADERS_RATE_PER_SEC GETHEADERS_BURST
      (calls w.requests) = Limiting.outcomes (w.requests.take i) ++
        (w.requests[i].call, w.requests[i].answered) ::
          Limiting.outcomes (w.requests.drop (i + 1)) := by
    rw [← tracks.outcomes]
    exact (congrArg Limiting.outcomes split).trans List.map_append
  apply Meter.passes_iff rate_nonneg (full began) tracks.ordered admitted
  intro a listed
  obtain ⟨earlier, inside, rfl⟩ := List.mem_map.mp listed
  exact once earlier inside

theorem tracks_start {conn : Connection H} (fresh : conn.meter = full began)
    (unused : conn.stats.getheadersIgnored = 0) : (start began).Tracks began conn where
  meter := fresh
  ordered := trivial
  since := by rw [fresh]; exact le_rfl
  outcomes := rfl
  replies := by simp [start]
  unasked := by simp [start]
  ignored := unused

theorem Tracks.wake (tracks : w.Tracks began conn) (handling : Handling) :
    Tracks began { w with handling } conn := { tracks with }

theorem Tracks.later (tracks : w.Tracks began conn) {now : ℚ} (later : w.clock ≤ now) :
    Tracks began { w with clock := now } conn := { tracks with since := tracks.since.trans later }

/-- A request has come, and is answered if there is a token and counted if not. -/
theorem Tracks.request (tracks : w.Tracks began conn) {looked resumed : ℚ}
    (later : w.clock ≤ looked) (resumes : looked ≤ resumed) {conn' : Connection H}
    {replies : List (NetworkMessage H)} {handling : Handling}
    (meter : conn'.meter =
      (conn.meter.take GETHEADERS_RATE_PER_SEC GETHEADERS_BURST ⟨looked, resumed⟩).2)
    (settled : replies = [] ∨ ∃ headers, replies = [.headers headers])
    (passes : (conn.meter.take GETHEADERS_RATE_PER_SEC GETHEADERS_BURST ⟨looked, resumed⟩).1 =
      !replies.isEmpty)
    (ignored : conn'.stats.getheadersIgnored = if replies.isEmpty then
      saturatingAdd conn.stats.getheadersIgnored 1 else conn.stats.getheadersIgnored) :
    Tracks began
      ⟨resumed, handling, w.requests ++ [⟨⟨looked, resumed⟩, replies⟩], w.unasked⟩ conn' where
  meter := by
    rw [meter, tracks.meter, ← Meter.after_concat, calls_concat]
  ordered := by
    have since := tracks.since.trans later
    rw [tracks.meter] at since
    rw [calls_concat]
    exact Meter.ordered_concat _ _ tracks.ordered since resumes
  since := by rw [meter, Meter.take_since]
  outcomes := by
    rw [outcomes_concat, calls_concat, Meter.admissions_concat, ← tracks.meter, passes,
      tracks.outcomes]
    rfl
  replies := by
    intro asked listed
    cases List.mem_append.mp listed with
    | inl old => exact tracks.replies asked old
    | inr new =>
        obtain rfl := List.mem_singleton.mp new
        exact settled
  unasked := tracks.unasked
  ignored := by
    rw [ignored, tracks.ignored, List.countP_append, List.countP_singleton]
    unfold Asked.answered
    by_cases unanswered : replies.isEmpty = true
    · simp [unanswered, saturatingAdd_one]
    · simp [unanswered]

/-! ## The session -/

def Ended (began : ℚ) (w : Limiting H) (e : AnyError × Connection H) : Prop := w.Tracks began e.2

def Idle (began : ℚ) (w : Limiting H) (conn : Connection H) : Prop :=
  w.handling = .other ∧ w.Tracks began conn

theorem send_answering (clock : ℚ) (requests : List (Asked H)) (call : Meter.Call ℚ)
    (unasked : List (NetworkMessage H)) (message : NetworkMessage H) :
    send ⟨clock, .answering, requests ++ [⟨call, []⟩], unasked⟩ message =
      ⟨clock, .answering, requests ++ [⟨call, [message]⟩], unasked⟩ := by
  simp [send]

theorem meets_handleGetHeaders (tracks : w.Tracks began conn) (request : GetHeadersMessage H) :
    meets serves (fun _ _ => True) (conn.handleGetHeaders request)
      (Connection.Ends (Tracks began) (Ended began) id) { w with handling := .arrived } := by
  refine meets_question_bind trivial fun looked w₁ answer => ?_
  obtain ⟨later, rfl⟩ := answer
  refine meets_question_bind trivial fun resumed w₂ answer => ?_
  obtain ⟨resumes, rfl⟩ := answer
  have passes := conn.mayAnswerGetheaders_fst looked resumed
  have meter := conn.meter_mayAnswerGetheaders looked resumed
  have uncounted := conn.ignored_mayAnswerGetheaders looked resumed
  generalize conn.mayAnswerGetheaders looked resumed = decision at passes meter uncounted ⊢
  obtain ⟨answered, conn'⟩ := decision
  dsimp only at passes meter uncounted ⊢
  subst passes
  cases passes : (conn.meter.take GETHEADERS_RATE_PER_SEC GETHEADERS_BURST ⟨looked, resumed⟩).1 with
  | true =>
      refine meets_question_bind trivial fun headers w₃ same => ?_
      obtain rfl : w₃ = _ := same
      have answered : Tracks began
          ⟨resumed, .answering, w.requests ++ [⟨⟨looked, resumed⟩, [.headers headers]⟩], w.unasked⟩
          conn' :=
        tracks.request later resumes meter (.inr ⟨headers, rfl⟩) passes uncounted
      refine meets_question_bind trivial fun failed w₄ sent => ?_
      obtain rfl : w₄ = _ := sent.trans (send_answering ..)
      cases failed with
      | none => exact answered
      | some e => exact answered
  | false =>
      have ignored : conn'.ignoreGetheaders.stats.getheadersIgnored =
          saturatingAdd conn.stats.getheadersIgnored 1 := by
        unfold Connection.ignoreGetheaders
        rw [uncounted]
      exact tracks.request later resumes meter (.inl rfl) passes ignored

/-- What a connection knows of its GETHEADERS. -/
def limits (conn : Connection H) : Meter ℚ × UInt32 :=
  (conn.meter, conn.stats.getheadersIgnored)

/-- Questions that neither wait nor send headers. -/
def Plain (q : Question H) : Prop := q ≠ .select ∧ ∀ headers, q ≠ .send (.headers headers)

theorem plain_of_ordinary {q : Question H} {id : UInt64} (ordinary : q.Ordinary id) : Plain q := by
  refine ⟨?_, ordinary.2.2⟩
  rintro rfl
  exact ordinary.1

theorem Tracks.of_limits (tracks : w.Tracks began conn) {conn' : Connection H}
    (same : limits conn' = limits conn) : w.Tracks began conn' := by
  have meter : conn'.meter = conn.meter := congrArg (·.1) same
  have ignored : conn'.stats.getheadersIgnored = conn.stats.getheadersIgnored :=
    congrArg (·.2) same
  exact
    { tracks with
      meter := meter.trans tracks.meter
      since := meter ▸ tracks.since
      ignored := ignored.trans tracks.ignored }

/-- Where a session has nothing to do with GETHEADERS, only the clock goes on. -/
theorem meets_plain {R : Type} {p : Handler H R} {left : R → Connection H}
    (idle : w.Idle began conn)
    (keeps : Connection.Keeps limits Plain (fun e => limits e.2 = limits conn) conn p left) :
    meets serves (fun _ _ => True) p (Connection.Ends (Idle began) (Ended began) left) w := by
  have still : ∀ (w : Limiting H) (q : Question H), w.Idle began conn → Plain q →
      True ∧ ∀ a w', serves w q a w' → w'.Idle began conn := by
    intro w q idle asked
    refine ⟨trivial, fun a w' answer => ?_⟩
    obtain ⟨clock, handling, requests, unasked⟩ := w
    obtain ⟨other, tracks⟩ := idle
    dsimp only at other
    subst other
    cases q with
    | now =>
        obtain ⟨later, rfl⟩ := answer
        exact ⟨rfl, tracks.later later⟩
    | send message =>
        obtain rfl : w' = _ := answer
        refine ⟨rfl, { tracks with unasked := ?_ }⟩
        intro headers sent
        cases List.mem_append.mp sent with
        | inl old => exact tracks.unasked headers old
        | inr new =>
            obtain rfl := List.mem_singleton.mp new
            exact asked.2 headers rfl
    | select => exact absurd rfl asked.1
    | _ =>
        obtain rfl : w' = _ := answer
        exact ⟨rfl, tracks⟩
  apply meets_mono (meets_of_keeps (Idle began · conn) keeps idle still)
  intro w' end_ reached
  cases end_ with
  | ok r => exact ⟨reached.1.1, reached.1.2.of_limits reached.2⟩
  | error e => exact reached.1.2.of_limits reached.2

/-- What is steady of its limits. -/
def ofSteady (steady : Connection.Steady) : Meter ℚ × UInt32 :=
  (⟨steady.getheadersTokens, steady.getheadersTokensUpdated⟩, steady.getheadersIgnored)

theorem limits_recordMessage (conn : Connection H) (command : String) :
    limits { conn with stats := conn.stats.recordMessage command } = limits conn :=
  congrArg ofSteady (Connection.steady_recordMessage command)

theorem limits_recordPing (nonce : UInt64) :
    limits { conn with stats := conn.stats.recordPing nonce } = limits conn := by
  unfold ConnectionStats.recordPing
  dsimp only
  split <;> rfl

theorem limits_claimPong (conn : Connection H) (nonce : UInt64) (now : ℚ) :
    limits { conn with stats := (conn.stats.claimPong nonce now).2 } = limits conn := by
  unfold ConnectionStats.claimPong
  split <;> rfl

theorem keeps_pingTick :
    Connection.Keeps limits Plain (fun e => limits e.2 = limits conn) conn conn.pingTick id :=
  Connection.keeps_pingTick ⟨nofun, nofun⟩ ⟨nofun, nofun⟩ (fun _ => ⟨nofun, nofun⟩)
    (fun _ => limits_recordPing) (fun _ => rfl) limits_recordPing

variable [DecidableEq H] (net : Network H) (codec : AddrCodec)

theorem keeps_limits {msg : NetworkMessage H} (other : ∀ request, msg ≠ .getHeaders request) :
    Connection.Keeps limits Plain (fun e => limits e.2 = limits conn) conn
      (conn.handleMessage net codec msg) id := by
  cases kind : msg.ordinary with
  | true =>
      exact (Connection.keeps_handleMessage net codec kind).mono ofSteady
        (fun _ => plain_of_ordinary) fun _ failed => congrArg ofSteady failed.2
  | false =>
      cases msg with
      | pong nonce =>
          refine Connection.Keeps.of_same { conn with
            stats := conn.stats.recordMessage (NetworkMessage.command (.pong nonce : NetworkMessage H)) }
            (limits_recordMessage ..) ?_
          exact Connection.keeps_handlePong nonce ⟨nofun, nofun⟩ ⟨nofun, nofun⟩
            (fun _ _ _ => ⟨nofun, nofun⟩) (limits_claimPong _ nonce)
      | getHeaders request => exact absurd rfl (other request)
      | _ => cases kind

theorem served : Connection.Served net codec (serves (H := H)) (Tracks began) (Ended began) where
  tick := by
    intro w w' conn tracks answer
    obtain rfl : w' = { w with handling := .other } := answer
    apply meets_mono (meets_plain ⟨rfl, tracks.wake .other⟩ keeps_pingTick)
    intro w' end_ reached
    cases end_ with
    | ok conn' => exact reached.2
    | error e => exact reached
  message := by
    intro w w' conn msg tracks answer
    by_cases asks : ∃ request, msg = .getHeaders request
    · obtain ⟨request, rfl⟩ := asks
      obtain rfl : w' = { w with handling := .arrived } := answer
      exact meets_handleGetHeaders (tracks.of_limits (limits_recordMessage ..)) request
    · have other : w' = { w with handling := .other } := by
        cases msg with
        | getHeaders request => exact absurd ⟨request, rfl⟩ asks
        | _ => exact answer
      obtain rfl := other
      apply meets_mono (meets_plain ⟨rfl, tracks.wake .other⟩
        (keeps_limits net codec fun request is => asks ⟨request, is⟩))
      intro w' end_ reached
      cases end_ with
      | ok conn' => exact reached.2
      | error e => exact reached
  failed := by
    intro w w' conn e tracks answer
    obtain rfl : w' = { w with handling := .other } := answer
    exact tracks.wake .other

theorem meets_run (idle : w.Idle began conn) (fuel : Nat) :
    meets serves (fun _ _ => True) (conn.run net codec fuel)
      (Connection.Ends (Tracks began) (Ended began) id) w := by
  apply Connection.meets_run net codec (Idle began) (served net codec)
  · intro R conn p left w idle ordinary
    exact meets_plain idle (Connection.Keeps.mono ofSteady ordinary
      (fun _ => plain_of_ordinary) fun _ failed => congrArg ofSteady failed.2)
  · intro w conn idle
    exact ⟨idle.1, idle.2.of_limits rfl⟩
  · intro w conn idle
    exact idle.2
  · exact idle

end Limiting

/-- In any window a session answers no more GETHEADERS than the burst and what comes back, each
    gets one HEADERS or is counted, and none is dropped that would find a token in a bucket that
    fills all the time, as long as the clock stood still for the requests before. -/
theorem run_getheaders [DecidableEq H] (net : Network H) (codec : AddrCodec)
    (addrNow getheadersNow handshake : ℚ) (info : HandshakeInfo) (addr : PeerAddr)
    (transportVersion : UInt8) (connectionId : UInt64) (syncHeaders probe : Bool) (fuel : Nat)
    (trace : List (Exchange (Question H) Answer)) (e : AnyError) (conn : Connection H)
    (w : Limiting H)
    (reaches : Reaches ((Connection.new addrNow getheadersNow handshake info addr transportVersion
      connectionId syncHeaders probe).run net codec fuel) trace (.fail (e, conn)))
    (served : Limiting.serves.Serves (.start getheadersNow) trace w) :
    w.Metered conn ∧ ∀ (i : Nat) (h : i < w.requests.length),
      (∀ earlier ∈ w.requests.take i, earlier.call.resumed = earlier.call.looked) →
        (w.requests[i].answered = true ↔
          1 ≤ Limiting.idealLevel getheadersNow (w.requests.take i) w.requests[i].call.looked) := by
  have tracks : w.Tracks getheadersNow conn :=
    reaches.meets served
      (Limiting.meets_run net codec ⟨rfl, Limiting.tracks_start rfl rfl⟩ fuel)
  exact ⟨tracks.metered, tracks.answered_iff⟩

/-! ## A clock between its readings -/

/-- A session drops no request that would find a token in a bucket that fills all the time. -/
def AnswersPromptly [DecidableEq H] (net : Network H) (codec : AddrCodec) (began : ℚ)
    (conn : Connection H) : Prop :=
  ∀ fuel trace e conn' w, Reaches (conn.run net codec fuel) trace (.fail (e, conn')) →
    Limiting.serves.Serves (.start began) trace w → w.Prompt began

/-- A peer that asks for headers four times at once, a fifth time when half a minute has passed
    since the session began, and hangs up. Between the two readings of the clock for a request
    some time passes. -/
def Limiting.asker (net : Network H) (pause : ℚ) (w : Limiting H) :
    (q : Question H) → Option (Answer q × Limiting H)
  | .now =>
      let now := match w.handling with
        | .looked _ => w.clock + pause
        | .arrived => if w.requests.length < 4 then w.clock else max w.clock 30
        | _ => w.clock
      some (now, w.read now)
  | .select =>
      if w.requests.length < 5 then
        some (.message (.getHeaders ⟨70016, [], net.zeroHash⟩), { w with handling := .arrived })
      else some (.failed ⟨[.inl .peerClosed], .io .unexpectedEof, []⟩, { w with handling := .other })
  | .send message => some (none, w.send message)
  | .tip => some ((net.zeroHash, 0), w)
  | .buildLocator | .getHeadersFromLocator .. => some ([], w)
  | _ => none

theorem Limiting.asker_serves (net : Network H) {pause : ℚ} (forward : 0 ≤ pause)
    (w : Limiting H) (q : Question H) (a : Answer q) (w' : Limiting H)
    (answered : w.asker net pause q = some (a, w')) : w.serves q a w' := by
  cases q with
  | now =>
      cases answered
      refine ⟨?_, rfl⟩
      split
      · exact le_add_of_nonneg_right forward
      · split
        · exact le_rfl
        · exact le_max_left ..
      · exact le_rfl
  | send message => cases answered; rfl
  | select =>
      unfold Limiting.asker at answered
      dsimp only at answered
      split at answered <;> cases answered <;> rfl
  | tip | buildLocator | getHeadersFromLocator => cases answered; rfl
  | _ => cases answered

/-- A session with such a peer. -/
def Limiting.play [DecidableEq H] (net : Network H) (codec : AddrCodec) (pause : ℚ)
    (conn : Connection H) :
    List (Exchange (Question H) Answer) × Handler H (Connection H) × Limiting H :=
  (conn.run net codec 6).against (asker net pause) (.start 0)

/-- The fifth request comes when a bucket that fills all the time holds one token again, and each
    of the four before has lost a thousandth of a second. -/
theorem getheaders_lost : ¬ AnswersPromptly Params.mainnet.network Stall.codec 0 Stall.conn := by
  intro prompt
  obtain ⟨reaches, served⟩ := against_spec
    (Limiting.asker_serves Params.mainnet.network (by norm_num : (0 : ℚ) ≤ 1 / 1000))
    (Stall.conn.run Params.mainnet.network Stall.codec 6) (.start 0)
  have ends : failure (Limiting.play Params.mainnet.network Stall.codec (1 / 1000) Stall.conn).2.1 =
      some (.library (.io .unexpectedEof)) := by
    decide +kernel
  have late : ¬ (Limiting.play Params.mainnet.network Stall.codec (1 / 1000)
      Stall.conn).2.2.Prompt 0 := by
    unfold Limiting.Prompt
    decide +kernel
  obtain ⟨e, conn', is, _⟩ := of_failure ends
  exact late (prompt 6 _ e conn' _ (is ▸ reaches) served)

/-- All five are answered where no time passes between the readings. -/
theorem run_getheaders_asker :
    (∃ conn, (Limiting.play Params.mainnet.network Stall.codec 0 Stall.conn).2.2.Metered conn) ∧
      (Limiting.play Params.mainnet.network Stall.codec 0 Stall.conn).2.2.Prompt 0 ∧
      ((Limiting.play Params.mainnet.network Stall.codec 0 Stall.conn).2.2.requests.map
        (·.answered)) = [true, true, true, true, true] := by
  obtain ⟨reaches, served⟩ := against_spec
    (Limiting.asker_serves Params.mainnet.network (le_refl (0 : ℚ)))
    (Stall.conn.run Params.mainnet.network Stall.codec 6) (.start 0)
  have ends : failure (Limiting.play Params.mainnet.network Stall.codec 0 Stall.conn).2.1 =
      some (.library (.io .unexpectedEof)) := by
    decide +kernel
  have once : ∀ asked ∈ (Limiting.play Params.mainnet.network Stall.codec 0 Stall.conn).2.2.requests,
      asked.call.resumed = asked.call.looked := by
    decide +kernel
  have all : (Limiting.play Params.mainnet.network Stall.codec 0 Stall.conn).2.2.requests.map
      (·.answered) = [true, true, true, true, true] := by
    decide +kernel
  obtain ⟨e, conn', is, _⟩ := of_failure ends
  obtain ⟨metered, answered⟩ := run_getheaders Params.mainnet.network Stall.codec 0 0 0 _ _ 2 1
    true false 6 _ e conn' _ (is ▸ reaches) served
  refine ⟨⟨conn', metered⟩, fun i h level => ?_, all⟩
  exact (answered i h fun earlier inside => once earlier (List.mem_of_mem_take inside)).mpr level

end P2PObserver
