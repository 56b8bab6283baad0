import Mathlib.Data.NNRat.Defs
import P2PObserver.Lib.Run
import P2PObserver.Protocol.Connection

/-! # How much gossip a session passes on

Every address message but one is charged against the bucket. The one that takes the exemption
is passed on whole, however many addresses it brings.
-/

namespace P2PObserver

variable {H : Type} (codec : AddrCodec)

/-- Entries a reply to a GETADDR may have under the protocol. -/
def MAX_ADDR_TO_SEND : Nat := 1000

/-! ## What a message announces -/

/-- The addresses read in a message, and how many it declared. -/
structure Announced where
  message : AddrMessage
  received : Nat
  parsed : List GossipedAddress

namespace AddrCodec

def announcedV2 (received : Nat) (addrs : List AddrV2Message) : Announced where
  message := .addrv2
  received := received
  parsed := addrs.filterMap fun m =>
    (PeerAddr.ofAddrV2 m).map fun addr => { addr, services := m.services, ntime := m.time }

/-- The addresses of a message, if it is one that carries addresses. -/
def announced : NetworkMessage H → Option Announced
  | .addr addrs => some
      { message := .addr
        received := addrs.length
        parsed := addrs.filterMap fun (ntime, a) =>
          (PeerAddr.ofAddress codec.socketAddr a).map fun addr =>
            { addr, services := a.services, ntime } }
  | .addrV2 addrs => some (announcedV2 addrs.length addrs)
  | .unknown command payload =>
      if command = "addrv2" then
        let (received, entries) := codec.parseAddrv2Leniently payload
        some (announcedV2 received entries)
      else none
  | _ => none

end AddrCodec

namespace Connection

/-- What a session does about addresses when a message arrives. -/
def hear (conn : Connection H) (now restart : ℚ) : NetworkMessage H → Option (Offered H)
  | .addr addrs => some (conn.handleAddr codec now restart addrs)
  | .addrV2 addrs => some (conn.handleAddrv2 now restart addrs)
  | .unknown command payload => conn.handleUnknown codec now restart command payload
  | _ => none

theorem hear_eq (conn : Connection H) (now restart : ℚ) (message : NetworkMessage H) :
    conn.hear codec now restart message = (codec.announced message).map fun a =>
      conn.offerGossip now restart a.message a.received a.parsed := by
  cases message with
  | addr addrs => rfl
  | addrV2 addrs => rfl
  | unknown command payload =>
      simp only [hear, handleUnknown, AddrCodec.announced]
      split <;> rfl
  | _ => rfl

/-- Whether a message takes the exemption of the reply to our GETADDR. -/
def takesExemption (conn : Connection H) (a : Announced) : Bool :=
  !conn.selfAnnouncement a.received a.parsed && conn.getaddrOutstanding

end Connection

/-! ## A session's messages -/

/-- A message, how long after the last one it arrives, and how long passes between the two
    readings of the clock it causes. -/
structure Arrival (H : Type) where
  gap : ℚ≥0
  lag : ℚ≥0
  message : NetworkMessage H

/-- A connection and the time. -/
structure Listening (H : Type) where
  conn : Connection H
  clock : ℚ

namespace Listening

def hear (s : Listening H) (a : Arrival H) : Option (Offered H) :=
  s.conn.hear codec (s.clock + a.gap) (s.clock + a.gap + a.lag) a.message

def next (s : Listening H) (a : Arrival H) : Listening H where
  conn := ((s.hear codec a).map Offered.conn).getD s.conn
  clock := s.clock + a.gap + a.lag

def report (s : Listening H) (a : Arrival H) : List (Offered H) := (s.hear codec a).toList

/-- A session that has just asked for addresses, its bucket full since `conn` was made. -/
def start (conn : Connection H) : Listening H where
  conn := { conn with getaddrOutstanding := true }
  clock := conn.addrTokensUpdated

/-- A message that takes the exemption has no more entries than the protocol allows. -/
def Capped (w : Run.Logged (Listening H) (Offered H)) (a : Arrival H) : Prop :=
  ∀ announced, codec.announced a.message = some announced →
    w.state.conn.takesExemption announced = true → announced.parsed.length ≤ MAX_ADDR_TO_SEND

end Listening

/-- A session with everything it passed on. -/
abbrev Heard (H : Type) := Run.Logged (Listening H) (Offered H)

namespace Heard

/-- One message. -/
def step : Heard H → Arrival H → Heard H :=
  Run.Logged.step (Listening.next codec) (Listening.report codec)

def run (conn : Connection H) (arrivals : List (Arrival H)) : Heard H :=
  Run.runFrom (step codec) ⟨.start conn, []⟩ arrivals

/-- How many addresses went to the manager. -/
def offered (w : Heard H) : Nat := (w.history.map fun o => o.gossip.length).sum

/-- How many messages took the exemption. -/
def exempted (w : Heard H) : Nat := w.history.countP fun o => o.event.solicited

def chargedBy (o : Offered H) : Nat := if o.event.solicited then 0 else o.gossip.length

def exemptBy (o : Offered H) : Nat := if o.event.solicited then o.gossip.length else 0

/-- The addresses that were charged against the bucket. -/
def charged (w : Heard H) : Nat := (w.history.map chargedBy).sum

/-- The addresses that were not. -/
def exempt (w : Heard H) : Nat := (w.history.map exemptBy).sum

theorem offered_eq (w : Heard H) : w.offered = w.charged + w.exempt := by
  have split : ∀ history : List (Offered H), (history.map fun o => o.gossip.length).sum =
      (history.map chargedBy).sum + (history.map exemptBy).sum := by
    intro history
    induction history with
    | nil => rfl
    | cons o rest ih =>
        simp only [List.map_cons, List.sum_cons, ih, chargedBy, exemptBy]
        split <;> omega
  exact split w.history

end Heard

/-! ## One message -/

namespace Connection

/-- The books of the bucket after a message, charged or not. -/
theorem offerGossip_books {conn : Connection H} {began now restart : ℚ} {spent : Nat}
    (books : TokenBucket.Balanced ADDR_RATE_PER_SEC ADDR_BURST conn.addrTokens
      (conn.addrTokensUpdated - began) spent)
    (later : conn.addrTokensUpdated ≤ now) (last : now ≤ restart) (a : Announced) :
    let o := conn.offerGossip now restart a.message a.received a.parsed
    TokenBucket.Balanced ADDR_RATE_PER_SEC ADDR_BURST o.conn.addrTokens
      (o.conn.addrTokensUpdated - began) (spent + Heard.chargedBy o) := by
  intro o
  have elapsed : elapsedSince conn.addrTokensUpdated now = now - conn.addrTokensUpdated :=
    max_eq_right (sub_nonneg.mpr later)
  have filled := books.refill (by norm_num [ADDR_RATE_PER_SEC]) (by norm_num [ADDR_BURST])
    (sub_nonneg.mpr later)
  have waited := filled.wait (by norm_num [ADDR_RATE_PER_SEC]) (sub_nonneg.mpr last)
  have time : conn.addrTokensUpdated - began + (now - conn.addrTokensUpdated) + (restart - now) =
      restart - began := by ring
  rw [time, ← elapsed] at waited
  cases exempt : conn.takesExemption a with
  | true =>
      have solicited : (!conn.selfAnnouncement a.received a.parsed && conn.getaddrOutstanding) =
          true := exempt
      simp only [o, offerGossip, Heard.chargedBy, solicited, if_true, Nat.add_zero]
      exact waited
  | false =>
      have charged : (!conn.selfAnnouncement a.received a.parsed && conn.getaddrOutstanding) =
          false := exempt
      simp only [o, offerGossip, Heard.chargedBy, charged, Bool.false_eq_true, if_false,
        List.length_map]
      apply waited.spend
      rw [List.length_take]
      omega

/-- The exemption is taken by the message it is for, and is gone then. -/
theorem offerGossip_exempt (conn : Connection H) (now restart : ℚ) (a : Announced) :
    let o := conn.offerGossip now restart a.message a.received a.parsed
    o.event.solicited = conn.takesExemption a ∧
      o.conn.getaddrOutstanding = (conn.getaddrOutstanding && !conn.takesExemption a) ∧
      o.conn.addrTokensUpdated = restart := by
  refine ⟨rfl, ?_, rfl⟩
  simp only [offerGossip, takesExemption]
  cases conn.getaddrOutstanding <;> cases conn.selfAnnouncement a.received a.parsed <;> rfl

/-- What takes the exemption is passed on whole. -/
theorem offerGossip_exemptBy (conn : Connection H) (now restart : ℚ) (a : Announced) :
    Heard.exemptBy (conn.offerGossip now restart a.message a.received a.parsed) =
      if conn.takesExemption a then a.parsed.length else 0 := by
  have solicited : (!conn.selfAnnouncement a.received a.parsed && conn.getaddrOutstanding) =
      conn.takesExemption a := rfl
  simp only [Heard.exemptBy, offerGossip, solicited]
  split
  · simp
  · rfl

end Connection

/-! ## The whole session -/

namespace Heard

/-- What holds between two messages of a session that began at a time. -/
structure Kept (began : ℚ) (w : Heard H) : Prop where
  current : w.state.conn.addrTokensUpdated ≤ w.state.clock
  books : TokenBucket.Balanced ADDR_RATE_PER_SEC ADDR_BURST w.state.conn.addrTokens
    (w.state.conn.addrTokensUpdated - began) w.charged
  /-- The exemption is taken once, or still to be taken. -/
  once : w.exempted = if w.state.conn.getaddrOutstanding then 0 else 1
  unused : w.state.conn.getaddrOutstanding = true → w.exempt = 0

/-- What is passed on without charge stays within the protocol's limit. -/
def ExemptCapped (w : Heard H) : Prop := w.exempt ≤ MAX_ADDR_TO_SEND

theorem start_kept {conn : Connection H} (full : conn.addrTokens = ADDR_BURST) :
    Kept conn.addrTokensUpdated (⟨.start conn, []⟩ : Heard H) := by
  refine ⟨le_rfl, ?_, rfl, fun _ => rfl⟩
  have books : TokenBucket.Balanced ADDR_RATE_PER_SEC ADDR_BURST ADDR_BURST 0 0 :=
    .full (by norm_num [ADDR_BURST])
  simp only [Listening.start, full, sub_self]
  exact books

theorem step_silent {w : Heard H} {a : Arrival H} (silent : codec.announced a.message = none) :
    step codec w a =
      ⟨⟨w.state.conn, w.state.clock + a.gap + a.lag⟩, w.history⟩ := by
  simp [step, Run.Logged.step, Listening.next, Listening.report, Listening.hear,
    Connection.hear_eq, silent]

theorem step_heard {w : Heard H} {a : Arrival H} {said : Announced}
    (announced : codec.announced a.message = some said) :
    step codec w a =
      let o := w.state.conn.offerGossip (w.state.clock + a.gap) (w.state.clock + a.gap + a.lag)
        said.message said.received said.parsed
      ⟨⟨o.conn, w.state.clock + a.gap + a.lag⟩, w.history ++ [o]⟩ := by
  simp [step, Run.Logged.step, Listening.next, Listening.report, Listening.hear,
    Connection.hear_eq, announced]

theorem charged_concat (s : Listening H) (history : List (Offered H)) (o : Offered H) :
    charged ⟨s, history ++ [o]⟩ = (history.map chargedBy).sum + chargedBy o := by
  simp [charged]

theorem exempt_concat (s : Listening H) (history : List (Offered H)) (o : Offered H) :
    exempt ⟨s, history ++ [o]⟩ = (history.map exemptBy).sum + exemptBy o := by
  simp [exempt]

theorem exempted_concat (s : Listening H) (history : List (Offered H)) (o : Offered H) :
    exempted ⟨s, history ++ [o]⟩ =
      history.countP (fun o => o.event.solicited) + o.event.solicited.toNat := by
  cases solicited : o.event.solicited with
  | true => simp [exempted, List.countP_append, solicited]
  | false => simp [exempted, List.countP_append, solicited]

/-- One message keeps the books, and is passed on without charge at most once. -/
theorem Kept.step {began : ℚ} {w : Heard H} (kept : w.Kept began) (a : Arrival H) :
    (step codec w a).Kept began := by
  have gap : (0 : ℚ) ≤ a.gap := a.gap.2
  have lag : (0 : ℚ) ≤ a.lag := a.lag.2
  have current := kept.current
  cases announced : codec.announced a.message with
  | none =>
      rw [step_silent codec announced]
      exact ⟨by simp only; linarith, kept.books, kept.once, kept.unused⟩
  | some said =>
      rw [step_heard codec announced]
      have now : w.state.conn.addrTokensUpdated ≤ w.state.clock + a.gap := by linarith
      have restart : w.state.clock + a.gap ≤ w.state.clock + a.gap + a.lag := by linarith
      have books := Connection.offerGossip_books kept.books now restart said
      obtain ⟨solicited, outstanding, updated⟩ := w.state.conn.offerGossip_exempt
        (w.state.clock + a.gap) (w.state.clock + a.gap + a.lag) said
      have passed := w.state.conn.offerGossip_exemptBy
        (w.state.clock + a.gap) (w.state.clock + a.gap + a.lag) said
      generalize w.state.conn.offerGossip (w.state.clock + a.gap)
        (w.state.clock + a.gap + a.lag) said.message said.received said.parsed = o at *
      have once := kept.once
      have unused := kept.unused
      simp only [exempted, exempt] at once unused
      have takes : w.state.conn.takesExemption said = true →
          w.state.conn.getaddrOutstanding = true := by
        intro takes
        exact (Bool.and_eq_true _ _ ▸ takes).2
      refine ⟨updated.le, ?_, ?_, ?_⟩
      · rw [charged_concat]
        exact books
      · rw [exempted_concat, once, solicited, outstanding]
        cases exempt : w.state.conn.takesExemption said with
        | true => simp [takes exempt]
        | false => simp
      · intro still
        rw [outstanding] at still
        rw [exempt_concat, passed]
        simp only [Bool.and_eq_true, Bool.not_eq_true'] at still
        rw [unused still.1, still.2]
        rfl

/-- A message that meets the protocol's limit keeps what is exempt within it. -/
theorem Kept.exemptCapped {began : ℚ} {w : Heard H} (kept : w.Kept began)
    (within : w.ExemptCapped) {a : Arrival H} (capped : Listening.Capped codec w a) :
    (Heard.step codec w a).ExemptCapped := by
  unfold ExemptCapped at *
  cases announced : codec.announced a.message with
  | none =>
      rw [step_silent codec announced]
      exact within
  | some said =>
      rw [step_heard codec announced]
      simp only [exempt_concat, Connection.offerGossip_exemptBy]
      cases takes : w.state.conn.takesExemption said with
      | false => exact within
      | true =>
          have outstanding : w.state.conn.getaddrOutstanding = true :=
            (Bool.and_eq_true _ _ ▸ takes).2
          have unused := kept.unused outstanding
          simp only [exempt] at unused
          rw [unused, Nat.zero_add]
          exact capped said announced takes

end Heard

/-- Seconds a list of arrivals takes. -/
def secs (arrivals : List (Arrival H)) : ℚ := (arrivals.map fun a => (a.gap + a.lag : ℚ)).sum

theorem Heard.runFrom_clock (arrivals : List (Arrival H)) : ∀ w : Heard H,
    (Run.runFrom (step codec) w arrivals).state.clock = w.state.clock + secs arrivals := by
  induction arrivals with
  | nil =>
      intro w
      simp [secs]
  | cons a rest ih =>
      intro w
      rw [Run.runFrom_cons, ih]
      simp only [step, Run.Logged.step, Listening.next, secs, List.map_cons, List.sum_cons]
      ring

/-- The bound on the addresses a session passes on in so many seconds. -/
def GossipBounded (codec : AddrCodec) (conn : Connection H) (arrivals : List (Arrival H)) : Prop :=
  ∀ seconds, secs arrivals ≤ seconds →
    ((Heard.run codec conn arrivals).offered : ℚ) ≤
      MAX_ADDR_TO_SEND + ADDR_BURST + ADDR_RATE_PER_SEC * seconds

/-- In a session whose exempt message has no more entries than the protocol allows, the
    addresses passed on stay within that limit, the burst and the rate; and the exemption is
    taken at most once, whatever arrives. -/
theorem run_gossip_bounded (codec : AddrCodec) (addrNow getheadersNow pongNow : ℚ)
    (info : HandshakeInfo) (addr : PeerAddr) (transportVersion : UInt8) (connectionId : UInt64)
    (syncHeaders probeCompactBlocks : Bool) (arrivals : List (Arrival H)) :
    let conn := Connection.new addrNow getheadersNow pongNow info addr transportVersion
      connectionId syncHeaders probeCompactBlocks
    (Heard.run codec conn arrivals).exempted ≤ 1 ∧
      (Run.Along (Heard.step codec) (Listening.Capped codec) ⟨.start conn, []⟩ arrivals →
        GossipBounded codec conn arrivals) := by
  intro conn
  have begun := (Heard.start_kept rfl : Heard.Kept conn.addrTokensUpdated ⟨.start conn, []⟩)
  have kept : (Heard.run codec conn arrivals).Kept conn.addrTokensUpdated :=
    Run.runFrom_preserves (Heard.step codec) (fun w a kept => kept.step codec a) begun arrivals
  have once := kept.once
  refine ⟨?_, fun capped seconds within => ?_⟩
  · rw [once]
    split
    · exact Nat.zero_le _
    · exact le_rfl
  · have both : (Heard.run codec conn arrivals).Kept conn.addrTokensUpdated ∧
        (Heard.run codec conn arrivals).ExemptCapped := by
      refine Run.runFrom_induct (Heard.step codec) (P := fun w : Heard H =>
        w.Kept conn.addrTokensUpdated ∧ w.ExemptCapped) ?_ arrivals _
        ⟨begun, Nat.zero_le _⟩ capped
      intro w a ⟨kept, exempt⟩ capped
      exact ⟨kept.step codec a, kept.exemptCapped codec exempt capped⟩
    have exempt : ((Heard.run codec conn arrivals).exempt : ℚ) ≤ MAX_ADDR_TO_SEND :=
      Nat.cast_le.mpr both.2
    have charged := kept.books.spent_le
    have clock := Heard.runFrom_clock codec arrivals ⟨.start conn, []⟩
    have current := kept.current
    have time : (Heard.run codec conn arrivals).state.conn.addrTokensUpdated -
        conn.addrTokensUpdated ≤ seconds := by
      simp only [Heard.run] at current ⊢
      rw [clock] at current
      simp only [Listening.start] at current ⊢
      linarith
    have inflow := mul_le_mul_of_nonneg_left time
      (by norm_num [ADDR_RATE_PER_SEC] : (0 : ℚ) ≤ ADDR_RATE_PER_SEC)
    rw [Heard.offered_eq, Nat.cast_add]
    linarith

/-! ## A reply over the limit -/

/-- Entries whose frames can be followed are all read, and each is judged alone. -/
theorem AddrCodec.readEntries_flatMap {α : Type} {frame : α → List UInt8}
    {said : α → Option AddrV2Message}
    (framed : ∀ x rest, codec.readEntry (frame x ++ rest) = some (said x, rest)) (xs : List α) :
    codec.readEntries xs.length (xs.flatMap frame) = xs.filterMap said := by
  induction xs with
  | nil => rfl
  | cons x rest ih =>
      rw [List.length_cons, List.flatMap_cons, AddrCodec.readEntries, framed]
      simp only [ih, List.filterMap_cons]
      cases said x <;> rfl

/-- A reply, and at the same moment as many addresses as the burst allows. -/
theorem Heard.offered_flood {conn : Connection H} (full : conn.addrTokens = ADDR_BURST)
    {reply more : NetworkMessage H} {a b : Announced} (announced : codec.announced reply = some a)
    (announced' : codec.announced more = some b) (many : a.received ≠ 1)
    (burst : b.parsed.length = 1000) :
    (run codec conn [⟨0, 0, reply⟩, ⟨0, 0, more⟩]).offered = a.parsed.length + 1000 := by
  have filled : TokenBucket.refill ADDR_RATE_PER_SEC ADDR_BURST ADDR_BURST
      (elapsedSince conn.addrTokensUpdated conn.addrTokensUpdated) = ADDR_BURST := by
    simp [TokenBucket.refill, elapsedSince]
  have whole : TokenBucket.allowed ADDR_BURST = 1000 := by
    norm_num [TokenBucket.allowed, ADDR_BURST]
    rfl
  have other : ∀ conn : Connection H, conn.selfAnnouncement a.received a.parsed = false := by
    simp [Connection.selfAnnouncement, many]
  have first := fun w : Heard H => step_heard codec (w := w) (a := ⟨0, 0, reply⟩) announced
  have second := fun w : Heard H => step_heard codec (w := w) (a := ⟨0, 0, more⟩) announced'
  simp only [run, Run.runFrom_cons, Run.runFrom_nil, first, second, Listening.start,
    NNRat.cast_zero, add_zero]
  simp only [offered, Connection.offerGossip, other, full, filled, whole, burst, List.map_append,
    List.map_cons, List.map_nil, List.nil_append, List.sum_append, List.sum_cons, List.sum_nil,
    Bool.not_false, Bool.and_true, if_true, Bool.and_false, Bool.false_eq_true,
    if_false, List.length_map, List.length_take]
  omega

namespace Flood

/-- The wire format, as far as the payload below goes. -/
def wire : AddrCodec where
  socketAddr _ := none
  readCompactSize
    | 0xfd :: lo :: hi :: rest =>
        let n := lo.toUInt64 ||| hi.toUInt64 <<< 8
        if n < 0xfd then none else some (n, rest)
    | byte :: rest => if byte < 0xfd then some (byte.toUInt64, rest) else none
    | [] => none
  emitCompactSize n := [n.toUInt8]
  deserializeAddrV2
    | [1, 4, a, b, c, d] => some (.ipv4 ⟨[a, b, c, d], rfl⟩)
    | _ => none

/-- An entry of the reply; the first is an IPv4 address under the IPv6 network id. -/
def frame (i : Nat) : List UInt8 :=
  if i = 0 then
    [0, 0, 0, 0, 1, 2, 16, 0, 0, 0, 0, 0, 0, 0, 0, 0, 0, 0xff, 0xff, 10, 0, 0, 2, 0x20, 0x8d]
  else [0, 0, 0, 0, 1, 1, 4, 10, (i / 256).toUInt8, i.toUInt8, 1, 0x20, 0x8d]

def entry (i : Nat) : AddrV2Message where
  time := 0
  services := 1
  addr := .ipv4 ⟨[10, (i / 256).toUInt8, i.toUInt8, 1], rfl⟩
  port := 8333

theorem readEntry_frame (i : Nat) (rest : List UInt8) :
    wire.readEntry (frame i ++ rest) = some (if i = 0 then none else some (entry i), rest) := by
  by_cases first : i = 0
  · rw [first]
    rfl
  · rw [frame, if_neg first, if_neg first]
    rfl

/-- An addrv2 the decoder refuses for its first entry, with 1001 good ones after it. -/
def reply : NetworkMessage (List Nat) :=
  .unknown "addrv2" ([0xfd, 0xea, 0x03] ++ (List.range 1002).flatMap frame)

/-- Another 1000 addresses. -/
def more : NetworkMessage (List Nat) := .addrV2 ((List.range 1000).map entry)

theorem frame_flatMap_length (xs : List Nat) : 9 * xs.length ≤ (xs.flatMap frame).length := by
  induction xs with
  | nil => exact Nat.zero_le _
  | cons i rest ih =>
      have long : 9 ≤ (frame i).length := by
        unfold frame
        split <;> simp
      simp only [List.length_cons, List.flatMap_cons, List.length_append]
      omega

theorem parse_reply : wire.parseAddrv2Leniently
    ([0xfd, 0xea, 0x03] ++ (List.range 1002).flatMap frame) =
      (1002, (List.range 1002).filterMap fun i => if i = 0 then none else some (entry i)) := by
  have count : ∀ bytes, wire.readCompactSize ([0xfd, 0xea, 0x03] ++ bytes) = some (1002, bytes) :=
    fun _ => rfl
  have long := frame_flatMap_length (List.range 1002)
  have fits : min (1002 : UInt64).toNat
      (([0xfd, 0xea, 0x03] ++ (List.range 1002).flatMap frame).length / 9) = 1002 := by
    rw [List.length_range] at long
    rw [List.length_append]
    have small : (1002 : UInt64).toNat = 1002 := rfl
    simp only [List.length_cons, List.length_nil, small]
    omega
  have read := AddrCodec.readEntries_flatMap wire readEntry_frame (List.range 1002)
  rw [List.length_range] at read
  simp only [AddrCodec.parseAddrv2Leniently, count, fits, read]

theorem announced_reply : ∃ a, wire.announced reply = some a ∧ a.received = 1002 ∧
    a.parsed.length = 1001 := by
  have unknown : wire.announced reply = some (AddrCodec.announcedV2 1002
      ((List.range 1002).filterMap fun i => if i = 0 then none else some (entry i))) := by
    simp only [reply, AddrCodec.announced, if_true, parse_reply]
  refine ⟨_, unknown, rfl, ?_⟩
  have good : ∀ xs : List Nat, 0 ∉ xs → (AddrCodec.announcedV2 1002
      (xs.filterMap fun i => if i = 0 then none else some (entry i))).parsed.length =
        xs.length := by
    intro xs
    induction xs with
    | nil => exact fun _ => rfl
    | cons x rest ih =>
        intro positive
        simp only [List.mem_cons, not_or] at positive
        have next := ih positive.2
        simp only [List.filterMap_cons, Ne.symm positive.1, if_false]
        exact congrArg Nat.succ next
  have range : List.range 1002 = 0 :: List.range' 1 1001 := by
    rw [List.range_eq_range']
    exact List.range'_succ ..
  have all := good (List.range' 1 1001) (by simp)
  rw [List.length_range'] at all
  simp only [range, List.filterMap_cons, if_true]
  exact all

theorem announced_more : ∃ a, wire.announced more = some a ∧ a.parsed.length = 1000 := by
  have all : ∀ xs : List Nat,
      (AddrCodec.announcedV2 1000 (xs.map entry)).parsed.length = xs.length := by
    intro xs
    induction xs with
    | nil => rfl
    | cons x rest ih => exact congrArg Nat.succ ih
  have count : ((List.range 1000).map entry).length = 1000 := by
    rw [List.length_map, List.length_range]
  have parsed := all (List.range 1000)
  rw [List.length_range] at parsed
  refine ⟨_, ?_, parsed⟩
  simp only [more, AddrCodec.announced, count]

def peer : PeerAddr := .ipv4 ⟨[10, 9, 8, 6], rfl⟩ 8333

def info : HandshakeInfo where
  version :=
    { version := 70016, services := 0, timestamp := 0, receiver := ⟨0, [], 0⟩, nonce := 0,
      userAgent := "", startHeight := 0, relay := false }
  sendAddrV2 := true
  wtxidRelay := true

def conn : Connection (List Nat) := .new 0 0 0 info peer 2 1 false false

end Flood

/-- A reply with 1001 addresses takes the exemption, and the bucket is still full. -/
theorem flood_unbounded : ¬ GossipBounded Flood.wire Flood.conn
    [⟨0, 0, Flood.reply⟩, ⟨0, 0, Flood.more⟩] := by
  obtain ⟨a, announced, received, many⟩ := Flood.announced_reply
  obtain ⟨b, announced', burst⟩ := Flood.announced_more
  have full : Flood.conn.addrTokens = ADDR_BURST := rfl
  have offered := Heard.offered_flood Flood.wire full announced announced' (by omega) burst
  intro bounded
  have le := bounded 0 (by simp [secs])
  rw [offered, many] at le
  norm_num [MAX_ADDR_TO_SEND, ADDR_BURST, ADDR_RATE_PER_SEC] at le

/-- A session that hears the second message alone. -/
theorem run_gossip_bounded_more :
    ((Heard.run Flood.wire Flood.conn [⟨0, 0, Flood.more⟩]).offered : ℚ) ≤ 2000 := by
  obtain ⟨b, announced, burst⟩ := Flood.announced_more
  obtain ⟨-, bounded⟩ := run_gossip_bounded Flood.wire 0 0 0 Flood.info Flood.peer 2 1 false false
    [⟨0, 0, Flood.more⟩]
  have capped : Run.Along (Heard.step Flood.wire) (Listening.Capped Flood.wire)
      ⟨.start Flood.conn, []⟩ [⟨0, 0, Flood.more⟩] := by
    refine ⟨fun said is _ => ?_, trivial⟩
    cases announced.symm.trans is
    exact burst.le
  have le := bounded capped 0 (by simp [secs])
  refine le.trans ?_
  norm_num [MAX_ADDR_TO_SEND, ADDR_BURST, ADDR_RATE_PER_SEC]

end P2PObserver
