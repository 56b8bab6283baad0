import P2PObserver.Lib.Capped
import P2PObserver.Protocol.Bootstrap
import P2PObserver.Protocol.Course
import P2PObserver.Protocol.Getheaders

/-! # The books of a session

What an attempt publishes of its session when that is over adds up: the messages it counted are
those that were read, every pong was measured against a ping of its own or counted as unsolicited,
and every GETHEADERS was answered or counted as ignored.
-/

namespace P2PObserver

open Program

variable {H : Type}

/-! ## What shows of a session -/

structure Audit (H : Type) where
  heard : List (NetworkMessage H)
  /-- The nonces of the pings that went out. -/
  pinged : List UInt64
  /-- The first reading of the wall clock since the session last woke. -/
  read : Option UInt64
  /-- The round trips that were published, each with that reading. -/
  measured : List (Option UInt64 × UInt64)
  /-- How many GETHEADERS were answered. -/
  answered : Nat

namespace Audit

def start : Audit H := ⟨[], [], none, [], 0⟩

def next (s : Audit H) : (q : Question H) → Answer q → Audit H
  | .select, .message msg => { s with heard := s.heard ++ [msg], read := none }
  | .unixMs, ms => { s with read := s.read.or (some ms) }
  | .send (.ping nonce), _ => { s with pinged := s.pinged ++ [nonce] }
  | .send (.headers _), _ => { s with answered := s.answered + 1 }
  | .emit event, _ =>
      match event.event with
      | some (.pingRtt rtt) => { s with measured := s.measured ++ [(s.read, rtt.rttMs)] }
      | _ => s
  | _, _ => s

/-- What shows of a trace. -/
def of (trace : List (Exchange (Question H) Answer)) : Audit H :=
  trace.foldl (fun s x => s.next x.1 x.2) start

def commands (s : Audit H) : List String := s.heard.map NetworkMessage.command

/-- The nonces of the pongs, oldest first. -/
def pongs (s : Audit H) : List UInt64 :=
  s.heard.filterMap fun
    | .pong nonce => some nonce
    | _ => none

/-- How many GETHEADERS came. -/
def requests (s : Audit H) : Nat :=
  s.heard.countP fun
    | .getHeaders _ => true
    | _ => false

/-- The commands that are counted one by one. -/
def counted (s : Audit H) : List String := Capped.firsts MESSAGES_BY_COMMAND_CAP s.commands

/-- Round trips, each over a ping that went out and was answered once, with what is left of the
    pings and of the pongs. A round trip is the time read at its answer less the nonce. -/
def Measures (s : Audit H) (outstanding : List UInt64) (unsolicited : UInt32) : Prop :=
  ∃ claimed : List (UInt64 × UInt64),
    s.measured = claimed.map (fun (nonce, ms) => (some ms, .ofNat (ms.toNat - nonce.toNat))) ∧
      (claimed.map Prod.fst).Sublist s.pongs ∧
      (outstanding ++ claimed.map Prod.fst).Subperm s.pinged ∧
      unsolicited = saturating (s.pongs.length - claimed.length)

end Audit

/-- What is published of a session is what shows of it. -/
structure Disconnected.Balances (d : Disconnected) (s : Audit H) : Prop where
  counted : ∀ command count, (command, count) ∈ d.messagesByCommand ↔
    command ∈ s.counted ∧ count = saturating (s.commands.count command)
  once : (d.messagesByCommand.map Prod.fst).Nodup
  other : d.messagesOther = saturating (s.commands.countP (· ∉ s.counted))
  pongs : s.Measures [] d.unsolicitedPongs
  requests : s.answered ≤ s.requests ∧
    d.getheadersIgnored = saturating (s.requests - s.answered)

/-- The commands a connection has counted are those it has read. -/
structure ConnectionStats.Counts (stats : ConnectionStats) (s : Audit H) : Prop where
  counted : ∀ command, stats.messagesByCommand.lookup command =
    if command ∈ s.counted then some (saturating (s.commands.count command)) else none
  other : stats.messagesOther = saturating (s.commands.countP (· ∉ s.counted))

/-- What a connection has counted is what shows of it. -/
structure ConnectionStats.Balances (stats : ConnectionStats) (s : Audit H) : Prop where
  counts : stats.Counts s
  pongs : s.Measures stats.outstandingPings stats.unsolicitedPongs
  requests : s.answered ≤ s.requests ∧
    stats.getheadersIgnored = saturating (s.requests - s.answered)

namespace Audit

/-- A message is read. -/
def hear (s : Audit H) (msg : NetworkMessage H) : Audit H :=
  { s with heard := s.heard ++ [msg], read := none }

theorem commands_hear (s : Audit H) (msg : NetworkMessage H) :
    (s.hear msg).commands = s.commands ++ [msg.command] := List.map_append

theorem counted_nodup (s : Audit H) : s.counted.Nodup := Capped.firsts_nodup ..

theorem counted_hear (s : Audit H) (msg : NetworkMessage H) :
    (s.hear msg).counted =
      if msg.command ∉ s.commands ∧ s.counted.length < MESSAGES_BY_COMMAND_CAP then
        s.counted ++ [msg.command]
      else s.counted := by
  rw [counted, commands_hear]
  exact Capped.firsts_concat ..

end Audit

namespace ConnectionStats

/-! ## Counting commands -/

variable {stats : ConnectionStats} {s : Audit H}

/-- The keys are the commands that are counted one by one. -/
theorem Counts.size (counts : stats.Counts s) :
    HashMap.size stats.messagesByCommand = s.counted.length := by
  have same : stats.messagesByCommand.keys.Perm s.counted := by
    rw [List.perm_ext_iff_of_nodup stats.messagesByCommand.keys_nodup s.counted_nodup]
    intro command
    rw [← AList.mem_keys, HashMap.mem_iff_lookup, counts.counted]
    split <;> simp [*]
  have length := same.length_eq
  rw [AList.keys, List.keys, List.length_map] at length
  exact length

theorem Counts.known (counts : stats.Counts s) (command : String) :
    command ∈ stats.messagesByCommand ↔ command ∈ s.counted := by
  rw [HashMap.mem_iff_lookup, counts.counted]
  split <;> simp [*]

/-- A message more. -/
theorem Counts.recordMessage (counts : stats.Counts s) (msg : NetworkMessage H) :
    (stats.recordMessage msg.command).Counts (s.hear msg) := by
  have commands := s.commands_hear msg
  have counted := s.counted_hear msg
  generalize s.hear msg = s' at commands counted ⊢
  generalize msg.command = command at commands counted ⊢
  have tally (c : String) : s'.commands.count c =
      s.commands.count c + if command = c then 1 else 0 := by
    rw [commands, List.count_append, List.count_singleton]
    simp only [beq_iff_eq]
  unfold ConnectionStats.recordMessage
  by_cases known : command ∈ s.counted
  · have same : s'.counted = s.counted := by
      rw [counted, if_neg fun new => new.1 (Capped.mem_of_mem_firsts known)]
    rw [if_pos ((counts.known command).mpr known)]
    constructor
    · intro c
      rw [HashMap.lookup_modify, same, tally]
      by_cases here : c = command
      · rw [if_pos here, here, counts.counted, if_pos known, if_pos known, if_pos rfl,
          Option.map_some, saturatingAdd_one]
      · rw [if_neg here, counts.counted, if_neg (Ne.symm here)]
        rfl
    · rw [same, commands, List.countP_append]
      simp [counts.other, known]
  · rw [if_neg (mt (counts.known command).mp known), counts.size]
    by_cases room : s.counted.length < MESSAGES_BY_COMMAND_CAP
    · have new : command ∉ s.commands := mt (Capped.mem_firsts_of_room room command).mpr known
      rw [if_pos ⟨new, room⟩] at counted
      rw [if_pos room]
      constructor
      · intro c
        rw [counted, tally]
        by_cases here : c = command
        · rw [here, AList.lookup_insert, if_pos rfl, if_pos (by simp),
            List.count_eq_zero_of_not_mem new]
          rfl
        · rw [AList.lookup_insert_ne here, counts.counted, if_neg (Ne.symm here)]
          simp [here]
      · have all (c : String) (listed : c ∈ s.commands) :
            c ∉ s.counted ++ [command] ↔ c ∉ s.counted := by
          have other : c ≠ command := fun same => new (same ▸ listed)
          simp [other]
        have before : s.commands.countP (· ∉ s.counted ++ [command]) =
            s.commands.countP (· ∉ s.counted) :=
          List.countP_congr fun c listed => by simpa using all c listed
        rw [counted, commands, List.countP_append, before, counts.other]
        simp
    · rw [if_neg fun both => room both.2] at counted
      rw [if_neg room]
      constructor
      · intro c
        rw [counted, tally, counts.counted]
        by_cases here : c ∈ s.counted
        · have other : command ≠ c := fun same => known (same.symm ▸ here)
          rw [if_pos here, if_pos here, if_neg other]
          rfl
        · rw [if_neg here, if_neg here]
      · rw [counted, commands, List.countP_append]
        simp [counts.other, known, saturatingAdd_one]

end ConnectionStats

/-! ## Pings and requests -/

namespace Audit

variable {s : Audit H} {stats : ConnectionStats} {outstanding : List UInt64} {unsolicited : UInt32}

/-- A ping goes out; the connection remembers some of those that have. -/
theorem Measures.ping (measures : s.Measures outstanding unsolicited) (nonce : UInt64)
    {outstanding' : List UInt64} (remembered : outstanding'.Sublist (outstanding ++ [nonce])) :
    Measures { s with pinged := s.pinged ++ [nonce] } outstanding' unsolicited := by
  obtain ⟨claimed, measured, pongs, pings, rest⟩ := measures
  refine ⟨claimed, measured, pongs, ?_, rest⟩
  have grown : (outstanding' ++ claimed.map Prod.fst).Subperm
      (outstanding ++ [nonce] ++ claimed.map Prod.fst) :=
    (remembered.append_right _).subperm
  have moved : (outstanding ++ [nonce] ++ claimed.map Prod.fst).Perm
      (outstanding ++ claimed.map Prod.fst ++ [nonce]) := by
    rw [List.append_assoc, List.append_assoc]
    exact (List.perm_append_comm).append_left _
  exact grown.trans (moved.subperm.trans ((List.subperm_append_right [nonce]).mpr pings))

/-- A pong answers a ping that is remembered, and the round trip is published. -/
theorem Measures.claim {nonce : UInt64} (known : nonce ∈ outstanding)
    (measures : s.Measures outstanding unsolicited) (ms : UInt64) :
    Measures { s.hear (.pong nonce) with
      read := some ms
      measured := s.measured ++ [(some ms, .ofNat (ms.toNat - nonce.toNat))] }
      (outstanding.erase nonce) unsolicited := by
  obtain ⟨claimed, measured, pongs, pings, rest⟩ := measures
  have heard : Audit.pongs { s.hear (.pong nonce) with
      read := some ms
      measured := s.measured ++ [(some ms, .ofNat (ms.toNat - nonce.toNat))] } =
        s.pongs ++ [nonce] :=
    List.filterMap_append ..
  refine ⟨claimed ++ [(nonce, ms)], ?_, ?_, ?_, ?_⟩
  · rw [List.map_append, ← measured]
    rfl
  · rw [heard, List.map_append]
    exact pongs.append (.refl _)
  · have moved : (outstanding.erase nonce ++ (claimed ++ [(nonce, ms)]).map Prod.fst).Perm
        (outstanding ++ claimed.map Prod.fst) := by
      rw [List.map_append, ← List.append_assoc]
      exact List.perm_append_comm.trans ((List.perm_cons_erase known).symm.append_right _)
    exact moved.subperm.trans pings
  · rw [heard, rest, List.length_append, List.length_append]
    simp

/-- A pong answers nothing. -/
theorem Measures.stray (measures : s.Measures outstanding unsolicited) (nonce : UInt64) :
    (s.hear (.pong nonce)).Measures outstanding (saturatingAdd unsolicited 1) := by
  obtain ⟨claimed, measured, pongs, pings, rest⟩ := measures
  have heard : (s.hear (.pong nonce)).pongs = s.pongs ++ [nonce] := List.filterMap_append ..
  have few := pongs.length_le
  rw [List.length_map] at few
  refine ⟨claimed, measured, ?_, pings, ?_⟩
  · rw [heard]
    exact pongs.trans (List.sublist_append_left ..)
  · have more : (s.pongs ++ [nonce]).length - claimed.length =
        s.pongs.length - claimed.length + 1 := by
      rw [List.length_append, List.length_singleton]
      omega
    rw [heard, rest, saturatingAdd_one, more]

end Audit

/-! ## Steps of a session -/

namespace ConnectionStats.Balances

variable {stats : ConnectionStats} {s : Audit H}

theorem start (now : ℚ) : (ConnectionStats.new now).Balances (Audit.start : Audit H) where
  counts := ⟨fun _ => rfl, rfl⟩
  pongs := ⟨[], rfl, .slnil, .refl _, rfl⟩
  requests := ⟨Nat.le_refl 0, rfl⟩

/-- The code forgets the oldest ping when there are too many. -/
theorem ping (balances : stats.Balances s) (nonce : UInt64) :
    (stats.recordPing nonce).Balances { s with pinged := s.pinged ++ [nonce] } where
  counts := ⟨balances.counts.counted, balances.counts.other⟩
  pongs := by
    apply balances.pongs.ping nonce
    unfold recordPing
    dsimp only
    split
    · exact List.tail_sublist _
    · exact .refl _
  requests := balances.requests

/-- Counting a command touches nothing else. -/
theorem rest_recordMessage (stats : ConnectionStats) (command : String) :
    (stats.recordMessage command).outstandingPings = stats.outstandingPings ∧
      (stats.recordMessage command).unsolicitedPongs = stats.unsolicitedPongs ∧
      (stats.recordMessage command).getheadersIgnored = stats.getheadersIgnored := by
  unfold recordMessage
  split
  · exact ⟨rfl, rfl, rfl⟩
  · split <;> exact ⟨rfl, rfl, rfl⟩

/-- A message that is no pong and no GETHEADERS. -/
theorem hear (balances : stats.Balances s) {msg : NetworkMessage H}
    (ordinary : msg.ordinary = true) :
    (stats.recordMessage msg.command).Balances (s.hear msg) := by
  obtain ⟨outstanding, unsolicited, ignored⟩ := rest_recordMessage stats msg.command
  have pongs : (s.hear msg).pongs = s.pongs := by
    have no_pong : ∀ nonce, msg ≠ .pong nonce := by
      rintro nonce rfl
      cases ordinary
    unfold Audit.pongs Audit.hear
    rw [List.filterMap_append]
    cases msg <;> simp_all
  have requests : (s.hear msg).requests = s.requests := by
    unfold Audit.requests Audit.hear
    rw [List.countP_append]
    cases msg <;> first | rfl | cases ordinary
  constructor
  · exact balances.counts.recordMessage msg
  · obtain ⟨claimed, measured, answers, pings, rest⟩ := balances.pongs
    rw [outstanding, unsolicited]
    exact ⟨claimed, measured, pongs ▸ answers, pings, pongs ▸ rest⟩
  · rw [ignored, requests]
    exact balances.requests

/-- A pong is claimed and its round trip published. -/
theorem claim (balances : stats.Balances s) {nonce : UInt64}
    (known : nonce ∈ stats.outstandingPings) (now : ℚ) (ms : UInt64) :
    ConnectionStats.Balances
      { stats.recordMessage (NetworkMessage.command (H := H) (.pong nonce)) with
        outstandingPings := (stats.recordMessage (NetworkMessage.command (H := H)
          (.pong nonce))).outstandingPings.erase nonce
        lastPong := now }
      { s.hear (.pong nonce) with
        read := some ms
        measured := s.measured ++ [(some ms, .ofNat (ms.toNat - nonce.toNat))] } := by
  obtain ⟨outstanding, unsolicited, ignored⟩ :=
    rest_recordMessage stats (NetworkMessage.command (H := H) (.pong nonce))
  have counts := balances.counts.recordMessage (.pong nonce)
  have requests : (s.hear (.pong nonce)).requests = s.requests := List.countP_append ..
  constructor
  · exact ⟨counts.counted, counts.other⟩
  · dsimp only
    rw [outstanding, unsolicited]
    exact balances.pongs.claim known ms
  · dsimp only
    rw [ignored]
    exact ⟨balances.requests.1.trans requests.symm.le, requests ▸ balances.requests.2⟩

/-- A pong that answers nothing is counted. -/
theorem stray (balances : stats.Balances s) (nonce : UInt64) :
    ConnectionStats.Balances
      { stats.recordMessage (NetworkMessage.command (H := H) (.pong nonce)) with
        unsolicitedPongs := saturatingAdd
          (stats.recordMessage (NetworkMessage.command (H := H) (.pong nonce))).unsolicitedPongs 1 }
      (s.hear (.pong nonce)) := by
  obtain ⟨outstanding, unsolicited, ignored⟩ :=
    rest_recordMessage stats (NetworkMessage.command (H := H) (.pong nonce))
  have counts := balances.counts.recordMessage (.pong nonce)
  have requests : (s.hear (.pong nonce)).requests = s.requests := List.countP_append ..
  constructor
  · exact ⟨counts.counted, counts.other⟩
  · dsimp only
    rw [outstanding, unsolicited]
    exact balances.pongs.stray nonce
  · dsimp only
    rw [ignored, requests]
    exact balances.requests

/-- A GETHEADERS comes. -/
theorem request (balances : stats.Balances s) (msg : GetHeadersMessage H) :
    (stats.recordMessage (NetworkMessage.command (.getHeaders msg))).Counts
        (s.hear (.getHeaders msg)) ∧
      (s.hear (.getHeaders msg)).Measures
        (stats.recordMessage (NetworkMessage.command (.getHeaders msg))).outstandingPings
        (stats.recordMessage (NetworkMessage.command (.getHeaders msg))).unsolicitedPongs ∧
      (s.hear (.getHeaders msg)).requests = s.requests + 1 ∧
      (stats.recordMessage (NetworkMessage.command (.getHeaders msg))).getheadersIgnored =
        saturating (s.requests - s.answered) := by
  obtain ⟨outstanding, unsolicited, ignored⟩ :=
    rest_recordMessage stats (NetworkMessage.command (.getHeaders msg))
  have pongs : (s.hear (.getHeaders msg)).pongs = s.pongs := by
    unfold Audit.pongs Audit.hear
    rw [List.filterMap_append]
    exact List.append_nil _
  refine ⟨balances.counts.recordMessage _, ?_, List.countP_append .., ?_⟩
  · obtain ⟨claimed, measured, answers, pings, rest⟩ := balances.pongs
    rw [outstanding, unsolicited]
    exact ⟨claimed, measured, pongs ▸ answers, pings, pongs ▸ rest⟩
  · rw [ignored]
    exact balances.requests.2

theorem answer (balances : stats.Balances s) (msg : GetHeadersMessage H) :
    (stats.recordMessage (NetworkMessage.command (.getHeaders msg))).Balances
      { s.hear (.getHeaders msg) with answered := s.answered + 1 } := by
  obtain ⟨counts, pongs, more, ignored⟩ := balances.request msg
  have few := balances.requests.1
  refine ⟨⟨counts.counted, counts.other⟩, pongs, ?_⟩
  have same : Audit.requests { s.hear (.getHeaders msg) with answered := s.answered + 1 } =
      s.requests + 1 := more
  rw [same, ignored]
  exact ⟨Nat.succ_le_succ few, by rw [Nat.add_sub_add_right]⟩

theorem ignore (balances : stats.Balances s) (msg : GetHeadersMessage H) :
    ConnectionStats.Balances
      { stats.recordMessage (NetworkMessage.command (.getHeaders msg)) with
        getheadersIgnored := saturatingAdd
          (stats.recordMessage (NetworkMessage.command (.getHeaders msg))).getheadersIgnored 1 }
      (s.hear (.getHeaders msg)) := by
  obtain ⟨counts, pongs, more, ignored⟩ := balances.request msg
  have few := balances.requests.1
  refine ⟨⟨counts.counted, counts.other⟩, pongs, ?_⟩
  dsimp only
  rw [more, ignored, saturatingAdd_one]
  have answered : (s.hear (.getHeaders msg)).answered = s.answered := rfl
  rw [answered]
  exact ⟨Nat.le_succ_of_le few, by rw [Nat.sub_add_comm few]⟩

end ConnectionStats.Balances

/-! ## Quiet code -/

/-- Whether a question leaves the books alone. -/
def Question.Unbooked : Question H → Prop
  | .select | .send (.ping _) | .send (.headers _) => False
  | .emit event => ∀ e, event.event = some e → match e with
      | .pingRtt _ | .connectionResult _ => False
      | _ => True
  | _ => True

theorem Question.Plain.unbooked {q : Question H} {id : UInt64} (plain : q.Plain id) : q.Unbooked := by
  cases q with
  | select => exact plain.inHandler
  | send msg =>
      cases msg with
      | ping nonce => exact absurd rfl (plain.noPing nonce)
      | headers headers => exact absurd rfl (plain.noHeaders headers)
      | _ => trivial
  | emit event =>
      obtain ⟨-, e, is, ofSession⟩ := plain.inHandler
      intro e' is'
      obtain rfl := Option.some.inj (is.symm.trans is')
      cases e with
      | pingRtt ping => exact absurd is (plain.unmeasured event rfl ping)
      | connectionResult result => cases ofSession
      | _ => trivial
  | _ => trivial

/-- What of it the books are about. -/
def Audit.Keeps (s s' : Audit H) : Prop := s' = { s with read := s'.read }

theorem Audit.keeps_next (s : Audit H) {q : Question H} (quiet : q.Unbooked) (a : Answer q) :
    s.Keeps (s.next q a) := by
  cases q with
  | select => cases quiet
  | send msg => cases msg <;> first | rfl | cases quiet
  | emit event =>
      unfold next
      dsimp only
      split
      · rename_i measured is
        exact (quiet _ is).elim
      · rfl
  | _ => rfl

theorem ConnectionStats.Balances.of_keeps {stats : ConnectionStats} {s s' : Audit H}
    (keeps : s.Keeps s') (balances : stats.Balances s) : stats.Balances s' := by
  rw [keeps]
  exact ⟨⟨balances.counts.counted, balances.counts.other⟩, balances.pongs, balances.requests⟩

theorem Disconnected.Balances.of_keeps {d : Disconnected} {s s' : Audit H} (keeps : s.Keeps s')
    (balances : d.Balances s) : d.Balances s' := by
  rw [keeps]
  exact ⟨balances.counted, balances.once, balances.other, balances.pongs, balances.requests⟩

/-- Every result that is published must balance. -/
def Audit.monitor : Monitor (Question H) Answer (Audit H) where
  ok s
    | .emit event => ∀ d, event.event = some (.connectionResult (.disconnected d)) → d.Balances s
    | _ => True
  next := Audit.next

theorem Audit.still (stats : ConnectionStats) {s : Audit H} (balances : stats.Balances s)
    {q : Question H} (quiet : q.Unbooked) :
    Audit.monitor.ok s q ∧ ∀ a, stats.Balances (Audit.monitor.next s q a) := by
  refine ⟨?_, fun a => balances.of_keeps (s.keeps_next quiet a)⟩
  cases q with
  | emit event => exact fun d is => (quiet _ is).elim
  | _ => trivial

namespace Connection

variable {R : Type} {conn : Connection H}

/-- Code that leaves the books alone. -/
def Quietly (conn : Connection H) (p : Handler H R) (left : R → Connection H) : Prop :=
  Keeps stats Question.Unbooked (fun e => e.2.stats = conn.stats) conn p left

/-- Where a part of a session leaves off, its books balance. -/
def Balanced (left : R → Connection H) (s : Audit H) :
    Except (AnyError × Connection H) R → Prop
  | .ok r => (left r).stats.Balances s
  | .error e => e.2.stats.Balances s

theorem Quietly.balanced {p : Handler H R} {left : R → Connection H} {s : Audit H}
    (quiet : conn.Quietly p left) (balances : conn.stats.Balances s) :
    wp Audit.monitor p (Balanced left) s := by
  apply wp_mono (wp_of_keeps quiet balances fun _ _ balances =>
    Audit.still conn.stats balances)
  rintro s end_ ⟨balances, same⟩
  cases end_ with
  | ok r =>
      have same : (left r).stats = conn.stats := same
      rw [← same] at balances
      exact balances
  | error e =>
      have same : e.2.stats = conn.stats := same
      rw [← same] at balances
      exact balances

theorem Plainly.quietly {within : Question H → Prop} {p : Handler H R} {left : R → Connection H}
    (plainly : conn.Plainly within True p left) : conn.Quietly p left :=
  Keeps.mono Settled.stats plainly (fun _ asked => asked.1.unbooked)
    fun _ failed => congrArg Settled.stats failed.2.2

theorem quietly_send {message : NetworkMessage H} (quiet : (Question.send message).Unbooked) :
    conn.Quietly (conn.send message) fun _ => conn :=
  keeps_send quiet fun _ => rfl

variable [DecidableEq H] (net : Network H) (codec : AddrCodec)

/-! ## A session -/

variable {s : Audit H}

omit [DecidableEq H] in
theorem stats_mayAnswerGetheaders (conn : Connection H) (now restart : ℚ) :
    (conn.mayAnswerGetheaders now restart).2.stats = conn.stats := by
  unfold mayAnswerGetheaders
  dsimp only
  split <;> rfl

omit [DecidableEq H] in
theorem balanced_handlePong {stats : ConnectionStats} (balances : stats.Balances s) (nonce : UInt64)
    (counted : conn.stats = stats.recordMessage (NetworkMessage.command (H := H) (.pong nonce))) :
    wp Audit.monitor (conn.handlePong nonce) (Balanced id) (s.hear (.pong nonce)) := by
  refine wp_question_bind trivial fun now => ?_
  have listed := (ConnectionStats.Balances.rest_recordMessage stats
    (NetworkMessage.command (H := H) (.pong nonce))).1
  rw [counted]
  by_cases known : nonce ∈ stats.outstandingPings
  · rw [ConnectionStats.claimPong, if_pos (listed ▸ known)]
    -- the clock, the timestamp of the event and the event itself
    refine ⟨trivial, fun ms => ⟨trivial, fun _ => ⟨nofun, fun _ => ?_⟩⟩⟩
    exact balances.claim known now ms
  · rw [ConnectionStats.claimPong, if_neg (listed ▸ known)]
    exact balances.stray nonce

omit [DecidableEq H] in
theorem balanced_handleGetHeaders {stats : ConnectionStats} (balances : stats.Balances s)
    (msg : GetHeadersMessage H)
    (counted : conn.stats = stats.recordMessage (NetworkMessage.command (.getHeaders msg))) :
    wp Audit.monitor (conn.handleGetHeaders msg) (Balanced id) (s.hear (.getHeaders msg)) := by
  refine wp_question_bind trivial fun now => wp_question_bind trivial fun restart => ?_
  have same := (stats_mayAnswerGetheaders conn now restart).trans counted
  generalize conn.mayAnswerGetheaders now restart = passes at same ⊢
  obtain ⟨passes, conn'⟩ := passes
  have same : conn'.stats = _ := same
  cases passes with
  | true =>
      refine wp_question_bind trivial fun headers => ?_
      have answered := balances.answer msg
      rw [← same] at answered
      refine wp_question_bind trivial fun failed => ?_
      cases failed with
      | none => exact answered
      | some e => exact answered
  | false =>
      have ignored := balances.ignore msg
      rw [← same] at ignored
      exact ignored

omit [DecidableEq H] in
/-- The ping is remembered before it goes out. -/
theorem balanced_pingTick (balances : conn.stats.Balances s) :
    wp Audit.monitor conn.pingTick (Balanced id) s := by
  refine wp_question_bind trivial fun now => ?_
  cases conn.stats.pingTimedOut now with
  | some waited => exact balances
  | none =>
      refine wp_question_bind trivial fun (nonce : UInt64) => ?_
      refine wp_question_bind trivial fun failed => ?_
      have pinged := (balances.of_keeps (s.keeps_next (q := .unixMs) trivial nonce)).ping nonce
      cases failed with
      | none => exact pinged
      | some e => exact pinged

theorem balanced_handleMessage (balances : conn.stats.Balances s) (msg : NetworkMessage H) :
    wp Audit.monitor (conn.handleMessage net codec msg) (Balanced id) (s.hear msg) := by
  unfold handleMessage
  cases ordinary : msg.ordinary with
  | true =>
      exact (tells_dispatch net codec ordinary fun _ _ => trivial).quietly.balanced
        (balances.hear ordinary)
  | false =>
      cases msg with
      | pong nonce => exact balanced_handlePong balances nonce rfl
      | getHeaders request => exact balanced_handleGetHeaders balances request rfl
      | _ => cases ordinary

theorem balanced_messageLoop (fuel : Nat) {conn : Connection H} {s : Audit H}
    (balances : conn.stats.Balances s) :
    wp Audit.monitor (messageLoop net codec fuel conn) (Balanced id) s := by
  induction fuel generalizing conn s with
  | zero => trivial
  | succ fuel ih =>
      have goesOn {p : Handler H (Connection H)} {s : Audit H}
          (first : wp Audit.monitor p (Balanced id) s) :
          wp Audit.monitor (p.bind fun conn => messageLoop net codec fuel conn) (Balanced id) s :=
        wp_bind_of first (fun _ _ again => ih again) fun _ _ ended => ended
      refine wp_question_bind trivial fun woken => ?_
      cases woken with
      | tick => exact goesOn (balanced_pingTick balances)
      | message msg => exact goesOn (balanced_handleMessage net codec balances msg)
      | failed e => exact balances

theorem balanced_run (fuel : Nat) (balances : conn.stats.Balances s) :
    wp Audit.monitor (conn.run net codec fuel) (Balanced id) s := by
  have goesOn {conn : Connection H} {s : Audit H} {p : Handler H Unit}
      {f : Unit → Handler H (Connection H)} (balances : conn.stats.Balances s)
      (first : conn.Quietly p fun _ => conn)
      (rest : ∀ s, conn.stats.Balances s → wp Audit.monitor (f ()) (Balanced id) s) :
      wp Audit.monitor (p.bind f) (Balanced id) s :=
    wp_bind_of (first.balanced balances) (fun s _ again => rest s again) fun _ _ ended => ended
  refine goesOn balances (quietly_send trivial) fun s balances => ?_
  have asked : Connection.stats { conn with getaddrOutstanding := true } = conn.stats := rfl
  refine goesOn (asked ▸ balances) (quietly_send trivial) fun s balances => ?_
  refine goesOn balances (quietly_send trivial) fun s balances => ?_
  refine goesOn balances (plainly_sendGetheaders net).quietly fun s balances => ?_
  exact balanced_messageLoop net codec fuel balances

end Connection

/-! ## An attempt -/

/-- What is published once pings that were never answered are forgotten. -/
theorem ConnectionStats.Balances.disconnected {stats : ConnectionStats} {s : Audit H}
    (balances : stats.Balances s) (setupMs uptimeMs : UInt64) (reason : DisconnectReason)
    (undecodable : UInt32) :
    Disconnected.Balances
      { setupMs, uptimeMs, reason
        messagesByCommand := stats.messagesByCommand.entries.map fun e => (e.1, e.2)
        messagesOther := stats.messagesOther
        unsolicitedPongs := stats.unsolicitedPongs
        undecodable
        getheadersIgnored := stats.getheadersIgnored } s where
  counted command count := by
    have listed : (command, count) ∈ stats.messagesByCommand.entries.map (fun e => (e.1, e.2)) ↔
        stats.messagesByCommand.lookup command = some count := by
      rw [← HashMap.mem_entries_iff, List.mem_map]
      constructor
      · rintro ⟨_, listed, same⟩
        cases same
        exact listed
      · exact fun listed => ⟨_, listed, rfl⟩
    dsimp only
    rw [listed, balances.counts.counted]
    split <;> simp [*, eq_comm]
  once := by
    have keys : (stats.messagesByCommand.entries.map fun e => (e.1, e.2)).map Prod.fst =
        stats.messagesByCommand.keys := List.map_map
    rw [keys]
    exact stats.messagesByCommand.keys_nodup
  other := balances.counts.other
  pongs := by
    obtain ⟨claimed, measured, pongs, pings, rest⟩ := balances.pongs
    exact ⟨claimed, measured, pongs, (List.sublist_append_right ..).subperm.trans pings, rest⟩
  requests := balances.requests

/-- What would be published of a session balances. -/
def SessionEnd.Balances (end_ : SessionEnd) (s : Audit H) : Prop :=
  ∀ setup uptime reason d, disconnectedResult setup uptime reason end_ = .disconnected d →
    d.Balances s

theorem SessionEnd.balances_of {s : Audit H}
    {ended : Except (AnyError × Connection H) (Connection H)}
    (balanced : Connection.Balanced id s ended) (connectedAt : ℚ) (undecodable : UInt32) :
    (SessionEnd.of connectedAt undecodable ended).Balances s := by
  rintro setup uptime reason d is
  cases ConnectionResult.disconnected.inj is
  cases ended with
  | ok conn => exact ConnectionStats.Balances.disconnected balanced ..
  | error e => exact ConnectionStats.Balances.disconnected balanced ..

namespace Audit

/-- There has been no session yet. -/
def Unused (s : Audit H) : Prop := ∀ now, (ConnectionStats.new now).Balances s

theorem Unused.next {s : Audit H} (unused : s.Unused) {q : Question H} (quiet : q.Unbooked) :
    monitor.ok s q ∧ ∀ a, (monitor.next s q a).Unused :=
  ⟨(still _ (unused 0) quiet).1, fun a now => (still _ (unused now) quiet).2 a⟩

/-- With a session whose books balance, or before any. -/
def Ended {R : Type} (session : R → SessionEnd) (s : Audit H) : Except AnyError R → Prop
  | .ok r => (session r).Balances s
  | .error _ => s.Unused

/-- Code before a session. -/
theorem wp_quiet_bind {R R' : Type} {p : Routine H R} {f : R → Routine H R'}
    {session : R' → SessionEnd} {s : Audit H} (unused : s.Unused) (asks : Asks Question.Unbooked p)
    (rest : ∀ s r, s.Unused → wp monitor (f r) (Ended session) s) :
    wp monitor (p >>= f) (Ended session) s := by
  have quiet : wp monitor p (fun s' _ => s'.Unused ∧ True) s :=
    wp_of_keeps asks unused fun s q unused => unused.next
  apply wp_bind_of quiet
  · exact fun s r still => rest s r still.1
  · exact fun s e still => still.1

variable [SocketText] (net : Network H) (codec : AddrCodec) (cfg : ProtocolConfig) (fuel : Nat)

omit [SocketText] in
theorem unused_start : (start : Audit H).Unused := ConnectionStats.Balances.start

omit [SocketText] in
theorem asks_one {q : Question H} (quiet : q.Unbooked) :
    Asks Question.Unbooked (ask q : Routine H (Answer q)) := ⟨quiet, fun _ => trivial⟩

omit [SocketText] in
theorem asks_configureStream : Asks Question.Unbooked (configureStream : Routine H Unit) := by
  refine .question trivial fun nodelay => ?_
  cases nodelay with
  | some kind => trivial
  | none =>
      refine .question trivial fun userTimeout => ?_
      cases userTimeout <;> trivial

theorem asks_tcpConnect (addr : PeerAddr) :
    Asks Question.Unbooked (tcpConnect cfg addr : Routine H Unit) := by
  have direct : Asks Question.Unbooked (ipConnect addr : Routine H Unit) := by
    unfold ipConnect
    split
    · trivial
    · refine .question trivial fun connected => ?_
      cases connected with
      | elapsed => trivial
      | finished failed => cases failed <;> first | exact asks_configureStream | trivial
  unfold tcpConnect
  split
  · unfold torConnect
    split
    · trivial
    · split
      · trivial
      · refine .question trivial fun connected => ?_
        cases connected with
        | elapsed => trivial
        | finished failed => cases failed <;> first | exact asks_configureStream | trivial
  · exact direct
  · exact direct
  · exact direct
  · trivial

omit [SocketText] in
theorem quiet_of_handshake {q : Question H} (asked : q.ofHandshake = true) : q.Unbooked := by
  cases q with
  | unixMs | random | handshakeSend | handshakeRecv => trivial
  | _ => cases asked

variable [DecidableEq H] {s : Audit H}

theorem balanced_runSession (unused : s.Unused) (id : UInt64) (addr : PeerAddr)
    (transportVersion : UInt8) :
    wp monitor (runSession net codec cfg fuel id addr transportVersion) (Ended fun end_ => end_)
      s := by
  refine wp_quiet_bind unused (asks_one trivial) fun s tip unused => ?_
  have handshake : Asks Question.Unbooked ((VersionHandshake.run fuel cfg.userAgent
      (Int32.ofNat tip.2).toInt).mapError VersionHandshake.error : Routine H HandshakeInfo) := by
    unfold Asks
    rw [wp_mapError]
    exact (VersionHandshake.asks_run fuel _ _).mono fun q => quiet_of_handshake
  refine wp_quiet_bind unused handshake fun s info unused => ?_
  refine wp_quiet_bind unused (asks_one trivial) fun s connectedAt unused => ?_
  refine wp_quiet_bind unused (asks_one trivial) fun s _ unused => ?_
  have published : Asks Question.Unbooked
      (emitHandshake codec id addr transportVersion info : Routine H Unit) :=
    .question trivial fun _ => ⟨fun _ is => by cases is; trivial, fun _ => trivial⟩
  refine wp_quiet_bind unused published fun s _ unused => ?_
  refine wp_question_bind trivial fun addrNow => wp_question_bind trivial fun getheadersNow =>
    wp_question_bind trivial fun pongNow => ?_
  rw [bind_eq, wp_bind, wp_outcome]
  generalize started : Connection.new addrNow getheadersNow pongNow info addr transportVersion id
    cfg.syncHeaders cfg.probeCompactBlocks = conn
  have balances : conn.stats.Balances s := by
    rw [← started]
    exact unused pongNow
  apply wp_mono (Connection.balanced_run net codec fuel balances)
  intro s ended balanced
  exact wp_question_bind trivial fun undecodable =>
    SessionEnd.balances_of balanced connectedAt undecodable

theorem balanced_connectV2 (unused : s.Unused) (id : UInt64) (addr : PeerAddr) :
    wp monitor (connectV2 net codec cfg fuel id addr) (Ended fun end_ => end_) s := by
  refine wp_quiet_bind unused (asks_tcpConnect cfg addr) fun s _ unused => ?_
  refine wp_quiet_bind unused (asks_one trivial) fun s shaken unused => ?_
  cases shaken with
  | elapsed => exact unused
  | finished failed =>
      cases failed with
      | some e => exact unused
      | none => exact balanced_runSession net codec cfg fuel unused id addr 2

theorem balanced_connectV1 (unused : s.Unused) (id : UInt64) (addr : PeerAddr) :
    wp monitor (connectV1 net codec cfg fuel id addr) (Ended fun end_ => end_) s :=
  wp_quiet_bind unused (asks_tcpConnect cfg addr) fun _ _ unused =>
    balanced_runSession net codec cfg fuel unused id addr 1

theorem balanced_connectAndRun (unused : s.Unused) (id : UInt64) (dial : Dial) :
    wp monitor (connectAndRun net codec cfg fuel id dial) (Ended fun r => r.2) s := by
  have tagged {p : Routine H SessionEnd} {s : Audit H} (transportVersion : UInt8)
      (first : wp monitor p (Ended fun end_ => end_) s) :
      wp monitor (p >>= fun end_ => pure (transportVersion, end_)) (Ended fun r => r.2) s :=
    wp_bind_of first (fun _ _ balances => balances) fun _ _ still => still
  unfold connectAndRun
  cases dial.transport with
  | v2 => exact tagged 2 (balanced_connectV2 net codec cfg fuel unused id dial.addr)
  | v1Only => exact tagged 1 (balanced_connectV1 net codec cfg fuel unused id dial.addr)
  | unknown =>
      dsimp only
      rw [bind_eq, wp_bind, wp_outcome]
      apply wp_mono (balanced_connectV2 net codec cfg fuel unused id dial.addr)
      intro s end_ reached
      cases end_ with
      | ok end_ => exact reached
      | error e =>
          dsimp only [andThen_ok]
          split
          · exact reached
          · refine wp_quiet_bind reached (asks_one trivial) fun s _ unused => ?_
            exact tagged 1 (balanced_connectV1 net codec cfg fuel unused id dial.addr)

omit [DecidableEq H] [SocketText] in
/-- A result that balances is published. -/
theorem wp_emitResult (id : UInt64) (dial : Dial) (version : Option UInt32) (userAgent : String)
    {result : ConnectionResult} {s : Audit H}
    (balances : ∀ d, result = .disconnected d → d.Balances s) (ended : Lifecycle) :
    wp monitor (emitResult id dial version userAgent result >>= fun _ =>
      (ask (.lifecycle ended) : Routine H Unit)) (fun _ _ => True) s := by
  refine wp_question_bind trivial fun timestampMs => ⟨fun d is => ?_, fun _ => ?_⟩
  · have published := Event.connectionResult.inj (Option.some.inj is)
    exact (balances d published).of_keeps (s.keeps_next (q := .unixMs) trivial timestampMs)
  · exact ⟨trivial, fun _ => trivial⟩

theorem balanced_attempt (dial : Dial) :
    wp monitor (attempt net codec cfg fuel dial) (fun _ _ => True) start := by
  refine wp_question_bind trivial fun id => wp_question_bind trivial fun started => ?_
  rw [bind_eq, wp_bind, wp_outcome]
  apply wp_mono (balanced_connectAndRun net codec cfg fuel unused_start id dial)
  intro s end_ reached
  cases end_ with
  | ok r =>
      refine wp_question_bind trivial fun _ => wp_question_bind trivial fun _ => ?_
      exact wp_emitResult id dial _ _ (fun d is => reached _ _ _ d is) _
  | error e =>
      refine wp_question_bind trivial fun _ => ?_
      refine wp_emitResult id dial _ _ (fun d is => ?_) _
      unfold failedResult at is
      split at is <;> cases is

end Audit

/-- What is published of a session is what showed of it until then. -/
theorem attempt_balances [SocketText] [DecidableEq H] (net : Network H) (codec : AddrCodec)
    (cfg : ProtocolConfig) (fuel : Nat) (dial : Dial)
    {before after : List (Exchange (Question H) Answer)} {event : PeerEvent H}
    {end_ : Option (Except AnyError Unit)}
    (runs : Runs (attempt net codec cfg fuel dial) (before ++ ⟨.emit event, ()⟩ :: after) end_)
    {d : Disconnected} (published : event.event = some (.connectionResult (.disconnected d))) :
    d.Balances (Audit.of before) := by
  obtain ⟨accepts, -⟩ := runs.sound (Audit.balanced_attempt net codec cfg fuel dial)
  exact (Monitor.accepts_append.mp accepts).2.1 d published

/-! ## One that balances -/

namespace Audited

/-- One ping and its pong, a pong nobody asked for, a ping, and the peer is gone. -/
def woken (n : Nat) : Woken (List Nat) :=
  if n < 32 then .tick
  else if n < 37 then .message (.pong 30)
  else if n < 39 then .message (.pong 99)
  else if n < 41 then .message (.ping 5)
  else .failed HungUp.eof

/-- The wall clock goes on with every question. -/
def answers (n : Nat) : (q : Question (List Nat)) → Answer q
  | .unixMs => (.ofNat n : UInt64)
  | q => HungUp.answer (fun n => if n = 10 then .version HungUp.version else .verack) woken n q

def trace : List (Exchange (Question (List Nat)) Answer) :=
  ((@attempt _ _ Params.mainnet.network HungUp.codec HungUp.cfg plainText 5
    ⟨HungUp.addr, .v2⟩).play answers 0).1

/-- What is published of it. -/
def result : Disconnected where
  setupMs := asMillis (max 0 (elapsedSince 0 0 - elapsedSince 0 0))
  uptimeMs := asMillis (elapsedSince 0 0)
  reason := classifySessionEnd (some (.ofTransport HungUp.eof))
  messagesByCommand := [("ping", 1), ("pong", 2)]
  messagesOther := 0
  unsolicitedPongs := 1
  undecodable := 0
  getheadersIgnored := 0

end Audited

open Audited in
theorem attempt_balances_rtt :
    (Audit.of (trace.take 46)).measured = [(some 34, 4)] ∧
      result.Balances (Audit.of (trace.take 46)) := by
  refine ⟨rfl, ?_⟩
  have runs := runs_play answers (@attempt _ _ Params.mainnet.network HungUp.codec HungUp.cfg
    plainText 5 ⟨HungUp.addr, .v2⟩) 0
  exact @attempt_balances _ plainText _ Params.mainnet.network HungUp.codec HungUp.cfg 5
    ⟨HungUp.addr, .v2⟩ (trace.take 46) (trace.drop 47)
    { timestampMs := 45, peerAddr := HungUp.addr, userAgent := "", transportVersion := some 2,
      connectionId := 7, droppedEvents := 0, instanceId := 0, droppedByKind := none,
      event := some (.connectionResult (.disconnected result)) } _ runs result rfl

end P2PObserver
