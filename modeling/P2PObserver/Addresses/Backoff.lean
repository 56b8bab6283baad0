import P2PObserver.Addresses.Bans
import P2PObserver.Addresses.Hints

/-! # Backoff over runs

The arithmetic saturates twice and is clamped, which is exact because nothing above the cap is
ever needed. The counters saturate as well: by then every backoff has long reached its cap, so a
run of one kind of outcome waits as if it were counted without bound.
-/

namespace P2PObserver

/-! ## The arithmetic -/

theorem saturating_toNat (n : Nat) : (saturating n).toNat = min n (UInt32.size - 1) := by
  have below : min n (UInt32.size - 1) < 2 ^ 32 := by
    simp only [UInt32.size]
    omega
  rw [saturating, UInt32.toNat_ofNat_of_lt' below]

theorem saturatingSucc_toNat (n : UInt8) : (saturatingSucc n).toNat = min (n.toNat + 1) 255 := by
  have below := n.toNat_lt
  unfold saturatingSucc
  split
  · rename_i full
    rw [full]
    rfl
  · rename_i room
    have less : n.toNat ≠ 255 := fun full => room (UInt8.toNat_inj.mp full)
    rw [UInt8.toNat_add]
    change (n.toNat + 1) % 2 ^ 8 = _
    omega

/-- Saturating the power and the product loses nothing below the cap. -/
theorem expBackoff_toNat (base factor cap : UInt32) (n : UInt8) :
    (expBackoff base factor n cap).toNat =
      min cap.toNat (base.toNat * factor.toNat ^ (max n.toNat 1 - 1)) := by
  have exponent : max n.toNat 1 - 1 = n.toNat - 1 := by omega
  have clamped (a : UInt32) : (min a cap).toNat = min cap.toNat a.toNat := by
    change (if a ≤ cap then a else cap).toNat = _
    split
    · rename_i le
      exact (Nat.min_eq_right (UInt32.le_iff_toNat_le.mp le)).symm
    · rename_i more
      rw [UInt32.le_iff_toNat_le] at more
      exact (Nat.min_eq_left (by omega)).symm
  have capped : cap.toNat ≤ UInt32.size - 1 := Nat.le_sub_one_of_lt cap.toNat_lt
  rw [expBackoff, clamped, saturatingMul, saturatingPow, saturating_toNat, saturating_toNat,
    exponent]
  generalize factor.toNat ^ (n.toNat - 1) = power
  generalize UInt32.size - 1 = top at capped
  by_cases fits : power ≤ top
  · rw [Nat.min_eq_left fits]
    omega
  · rw [Nat.min_eq_right (Nat.le_of_not_le fits)]
    cases base.toNat with
    | zero => simp
    | succ base =>
        have high : top ≤ (base + 1) * top := Nat.le_mul_of_pos_left top (Nat.succ_pos base)
        have higher : (base + 1) * top ≤ (base + 1) * power :=
          Nat.mul_le_mul_left _ (by omega)
        omega

/-- How a class backs off: the delays grow, and reach the cap before a counter saturates. -/
structure Backoff where
  base : UInt32
  factor : UInt32
  cap : UInt32
  factor_pos : 0 < factor.toNat
  reaches : cap.toNat ≤ base.toNat * factor.toNat ^ 254

namespace Backoff

def wasGood : Backoff where
  base := WAS_GOOD_BASE_SECS
  factor := 2
  cap := WAS_GOOD_CAP_SECS
  factor_pos := by decide
  reaches := by decide

def bad : Backoff where
  base := BAD_BASE_SECS
  factor := 4
  cap := BAD_CAP_SECS
  factor_pos := by decide
  reaches := by decide

def eviction : Backoff where
  base := EVICTION_BASE_SECS
  factor := 2
  cap := EVICTION_CAP_SECS
  factor_pos := by decide
  reaches := by decide

variable (backoff : Backoff)

def delay (n : UInt8) : UInt32 := expBackoff backoff.base backoff.factor n backoff.cap

/-- The delay behind `before` outcomes of the kind, counted without bound. -/
def exact (before : Nat) : Nat :=
  min backoff.cap.toNat (backoff.base.toNat * backoff.factor.toNat ^ before)

theorem exact_le_cap (before : Nat) : backoff.exact before ≤ backoff.cap.toNat := Nat.min_le_left ..

theorem exact_mono {before later : Nat} (le : before ≤ later) :
    backoff.exact before ≤ backoff.exact later := by
  have power := Nat.pow_le_pow_right backoff.factor_pos le
  have product := Nat.mul_le_mul_left backoff.base.toNat power
  simp only [exact]
  omega

/-- From there on it is the cap. -/
theorem exact_eq_cap {before : Nat} (le : 254 ≤ before) :
    backoff.exact before = backoff.cap.toNat := by
  have early : backoff.exact 254 = backoff.cap.toNat := Nat.min_eq_left backoff.reaches
  have grown := backoff.exact_mono le
  have below := backoff.exact_le_cap before
  omega

/-- A counter that saturates delays as one without bound. -/
theorem delay_toNat {before : Nat} {count : UInt8} (counted : count.toNat = min before 255) :
    (backoff.delay (saturatingSucc count)).toNat = backoff.exact before := by
  have next : (saturatingSucc count).toNat = min (before + 1) 255 := by
    rw [saturatingSucc_toNat, counted]
    omega
  rw [delay, expBackoff_toNat, next]
  by_cases room : before < 255
  · rw [show max (min (before + 1) 255) 1 - 1 = before by omega]
    rfl
  · rw [show max (min (before + 1) 255) 1 - 1 = 254 by omega, backoff.exact_eq_cap (by omega)]
    exact backoff.exact_eq_cap (Nat.le_refl 254)

end Backoff

/-! ## Outcomes that are counted -/

/-- The delay that `record_ended` computes for an entry, before jitter. -/
def Entry.retryDelay (e : Entry) (outcome : Outcome) : UInt32 :=
  let e := Book.judge outcome e
  retryDelaySecs outcome e.origin e.connectedBefore e.failures e.shortSessions

theorem Book.reschedule_nextAttempt (now : UInt32) (outcome : Outcome) (r : Float32) (e : Entry) :
    (Book.reschedule now outcome r e).nextAttempt =
      saturatingAdd now (jitter (e.retryDelay outcome) r) := rfl

/-- Whether an outcome counts as a failure of the address itself. -/
def Outcome.countsAsFailure : Outcome → Bool
  | .failed _ => true
  | _ => false

/-- The kinds of outcome an entry counts, one after another. -/
inductive Streak where
  | failed
  | short
  deriving DecidableEq

namespace Streak

def counts : Streak → Outcome → Bool
  | .failed, outcome => outcome.countsAsFailure
  | .short, outcome => outcome.isShortSession

def counter : Streak → Entry → UInt8
  | .failed, e => e.failures
  | .short, e => e.shortSessions

def backoff : Streak → Entry → Backoff
  | .failed, e => if e.connectedBefore then .wasGood else .bad
  | .short, _ => .eviction

/-- The same count towards the same backoff. -/
structure Same (streak : Streak) (e e' : Entry) : Prop where
  counter : streak.counter e' = streak.counter e
  backoff : streak.backoff e' = streak.backoff e

theorem Same.refl (streak : Streak) (e : Entry) : streak.Same e e := ⟨rfl, rfl⟩

theorem Same.of_fields (streak : Streak) {e e' : Entry} (failures : e'.failures = e.failures)
    (shortSessions : e'.shortSessions = e.shortSessions)
    (lastSuccess : e'.lastSuccess = e.lastSuccess) : streak.Same e e' := by
  cases streak with
  | failed =>
      have worked : e'.connectedBefore = e.connectedBefore :=
        congrArg (fun time : UInt32 => decide (0 < time)) lastSuccess
      refine ⟨failures, ?_⟩
      exact congrArg (fun worked : Bool => if worked then Backoff.wasGood else .bad) worked
  | short => exact ⟨shortSessions, rfl⟩

theorem counter_reschedule {streak : Streak} {outcome : Outcome}
    (counted : streak.counts outcome = true) (now : UInt32) (r : Float32) (e : Entry) :
    streak.counter (Book.reschedule now outcome r e) = saturatingSucc (streak.counter e) ∧
      streak.backoff (Book.reschedule now outcome r e) = streak.backoff e := by
  cases streak with
  | failed =>
      cases outcome with
      | failed => exact ⟨rfl, rfl⟩
      | disconnected | otherChain | violated | ourFault => cases counted
  | short =>
      cases outcome with
      | disconnected uptime silent => exact ⟨if_pos counted, rfl⟩
      | failed | otherChain | violated | ourFault => cases counted

theorem retryDelay_eq {streak : Streak} {outcome : Outcome}
    (counted : streak.counts outcome = true) {e : Entry} (gossip : e.origin = .gossip) :
    e.retryDelay outcome = (streak.backoff e).delay (saturatingSucc (streak.counter e)) := by
  cases streak with
  | failed =>
      cases outcome with
      | failed reason =>
          simp only [Entry.retryDelay, Book.judge, retryDelaySecs, gossip, Streak.backoff, counter]
          change (if e.connectedBefore then _ else _) = _
          split <;> rfl
      | disconnected | otherChain | violated | ourFault => cases counted
  | short =>
      cases outcome with
      | disconnected uptime silent =>
          have short : (Outcome.disconnected uptime silent).isShortSession = true := counted
          simp only [Entry.retryDelay, Book.judge, retryDelaySecs, gossip, short, if_pos]
          rfl
      | failed | otherChain | violated | ourFault => cases counted

end Streak

/-! ## Calls on the book -/

/-- What the manager does to its book, gossip and operator's addresses one at a time. -/
inductive BookCall where
  | one (step : BookStep)
  | pick (now : UInt32) (budget : Nat) (nets : EnabledNets) (banlist : Banlist)
  | purgeBanned (banlist : Banlist)
  | reorder (entries : HashMap PeerAddr Entry)

namespace BookCall

def next [AddrText] (book : Book) : BookCall → Book
  | one step => step.next book
  | pick now budget nets banlist => (book.pick now budget nets banlist).2
  | purgeBanned banlist => (book.purgeBanned banlist).1
  | reorder entries =>
      if entries.entries.Perm book.entries.entries then { book with entries } else book

/-- The delay a call computes for an address, if it ends an attempt at it. -/
def delayAt (addr : PeerAddr) (book : Book) : BookCall → Option UInt32
  | one (.recordEnded addr' _ outcome) =>
      if addr' = addr then (book.entry addr).map (·.retryDelay outcome) else none
  | _ => none

theorem delayAt_some {addr : PeerAddr} {book : Book} {call : BookCall} {d : UInt32}
    {e : Entry} (ends : call.delayAt addr book = some d) (found : book.entry addr = some e) :
    ∃ now outcome, call = .one (.recordEnded addr now outcome) ∧ e.retryDelay outcome = d := by
  cases call with
  | one step =>
      cases step with
      | recordEnded addr' now outcome =>
          rw [delayAt] at ends
          split at ends
          · rename_i same
            rw [found] at ends
            exact ⟨now, outcome, same ▸ rfl, Option.some.inj ends⟩
          · cases ends
      | ingestOne | insertManualOne | recordDialing | recordConnected | recordV1Only => cases ends
  | pick | purgeBanned | reorder => cases ends

end BookCall

/-- The delays before jitter that a run of calls computes for an address, oldest first. -/
def Book.delays [AddrText] (book : Book) (addr : PeerAddr) (calls : List BookCall) : List UInt32 :=
  (Run.runFrom (Run.Logged.step BookCall.next fun book call => (call.delayAt addr book).toList)
    ⟨book, []⟩ calls).history

/-- A call that keeps a run of one kind going: it ends no attempt at the address another way, and
    among failures there is no session with it. -/
def Streak.Continues (streak : Streak) (addr : PeerAddr) : BookCall → Prop
  | .one (.recordEnded addr' _ outcome) => addr' = addr → streak.counts outcome = true
  | .one (.recordConnected addr' ..) => addr' = addr → streak = .short
  | _ => True

/-! ## One call -/

namespace Streak

variable {streak : Streak} {addr : PeerAddr} {book after : Book} {e e' : Entry}

theorem same_of_sub (sub : ∀ e', after.entry addr = some e' → book.entry addr = some e')
    (before : book.entry addr = some e) (stored : after.entry addr = some e') :
    streak.Same e e' := by
  obtain rfl := Option.some.inj (before.symm.trans (sub e' stored))
  exact .refl streak e

theorem same_refresh (now : UInt32) (services : UInt64) (e : Entry) :
    streak.Same e (Book.refresh now services e) := by
  unfold Book.refresh
  dsimp only
  split
  · exact .of_fields streak rfl rfl rfl
  · exact .of_fields streak rfl rfl rfl

/-- Picking an address to dial moves none of its counters. -/
theorem same_recordAll (now : UInt32) (dials : List Dial) : ∀ (book : Book) (e : Entry),
    book.entry addr = some e →
    (dials.foldl (fun book d => book.recordDialing d.addr now) book).entry addr = some e' →
    streak.Same e e' := by
  induction dials with
  | nil =>
      intro book e before stored
      obtain rfl := Option.some.inj (before.symm.trans stored)
      exact .refl streak e
  | cons d dials ih =>
      intro book e before stored
      have marked : (book.recordDialing d.addr now).entry addr =
          some (if d.addr = addr then { e with lastAttempt := now } else e) := by
        rw [Book.entry, Book.recordDialing, HashMap.lookup_modify, ← Book.entry, before]
        grind
      have later := ih _ _ marked stored
      have here : streak.Same e (if d.addr = addr then { e with lastAttempt := now } else e) := by
        split
        · exact .of_fields streak rfl rfl rfl
        · exact .refl streak e
      exact ⟨later.counter.trans here.counter, later.backoff.trans here.backoff⟩

variable [AddrText]

/-- A call that ends no attempt at the address leaves its count as it was. -/
theorem next_same {call : BookCall} (continues : streak.Continues addr call)
    (quiet : call.delayAt addr book = none) (before : book.entry addr = some e)
    (stored : (call.next book).entry addr = some e') : streak.Same e e' := by
  cases call with
  | one step =>
      rcases Book.next_entry before stored with rfl | ⟨here, rfl⟩
      · exact .refl streak e'
      cases step with
      | ingestOne now banlist g => exact same_refresh now g.services e
      | insertManualOne | recordDialing => exact .of_fields streak rfl rfl rfl
      | recordConnected addr' now services version =>
          obtain rfl := continues here.symm
          exact ⟨rfl, rfl⟩
      | recordV1Only addr' =>
          rw [BookStep.change]
          split
          · exact .of_fields streak rfl rfl rfl
          · exact .refl streak e
      | recordEnded addr' now outcome =>
          have own : addr' = addr := here.symm
          rw [BookCall.delayAt, if_pos own, before] at quiet
          cases quiet
  | pick now budget nets banlist =>
      refine same_recordAll now (book.pick now budget nets banlist).1 _ e ?_ stored
      exact before
  | purgeBanned banlist =>
      exact same_of_sub (fun e' stored => (Book.purgeBanned_lookup stored).1) before stored
  | reorder entries =>
      by_cases perm : entries.entries.Perm book.entries.entries
      · rw [BookCall.next, if_pos perm] at stored
        apply same_of_sub _ before stored
        intro e' stored
        exact HashMap.mem_entries_iff.mp (perm.mem_iff.mp (HashMap.mem_entries_iff.mpr stored))
      · rw [BookCall.next, if_neg perm] at stored
        exact same_of_sub (fun e' stored => stored) before stored

end Streak

/-! ## Runs -/

namespace Book

variable [AddrText] {book : Book} {addr : PeerAddr}

theorem delays_concat (calls : List BookCall) (call : BookCall) :
    book.delays addr (calls ++ [call]) = book.delays addr calls ++
      (call.delayAt addr (Run.runFrom BookCall.next book calls)).toList := by
  simp only [delays, Run.runFrom_append, Run.runFrom_cons, Run.runFrom_nil, Run.Logged.step,
    Run.Logged.runFrom_state]

/-- A call in a run of one kind: the address has a gossiped entry, and the run goes on. -/
def InStreak (streak : Streak) (addr : PeerAddr) (book : Book) (call : BookCall) : Prop :=
  book.Gossips addr ∧ streak.Continues addr call

/-- An entry's counter counts the outcomes of the run, up to where it saturates, and every delay
    is that of the unbounded count. -/
theorem run_counted {streak : Streak} {e : Entry} (found : book.entry addr = some e)
    (calls : List BookCall)
    (run : Run.Along BookCall.next (InStreak streak addr) book calls) :
    (∀ e', (Run.runFrom BookCall.next book calls).entry addr = some e' →
      streak.backoff e' = streak.backoff e ∧ (streak.counter e').toNat =
        min ((streak.counter e).toNat + (book.delays addr calls).length) 255) ∧
    ∀ i d, (book.delays addr calls)[i]? = some d →
      d.toNat = (streak.backoff e).exact ((streak.counter e).toNat + i) := by
  induction calls using List.reverseRecOn with
  | nil =>
      constructor
      · intro e' stored
        obtain rfl := Option.some.inj (found.symm.trans stored)
        have below := (streak.counter e).toNat_lt
        refine ⟨rfl, (Nat.min_eq_left ?_).symm⟩
        exact Nat.le_of_lt_succ below
      · intro i d here
        cases here
  | append_singleton calls call ih =>
      obtain ⟨before, here⟩ := (Run.along_concat _ calls call book).mp run
      obtain ⟨counted, timed⟩ := ih before
      obtain ⟨⟨e₁, held, gossip⟩, continues⟩ := here
      obtain ⟨same, count⟩ := counted e₁ held
      rw [Run.runFrom_append, Run.runFrom_cons, Run.runFrom_nil, delays_concat]
      generalize Run.runFrom BookCall.next book calls = during at *
      generalize book.delays addr calls = earlier at *
      cases quiet : call.delayAt addr during with
      | none =>
          rw [Option.toList_none, List.append_nil]
          refine ⟨fun e' stored => ?_, timed⟩
          have kept := Streak.next_same continues quiet held stored
          rw [kept.counter, kept.backoff]
          exact ⟨same, count⟩
      | some d =>
          obtain ⟨now, outcome, rfl, rfl⟩ := BookCall.delayAt_some quiet held
          have counts : streak.counts outcome = true := continues rfl
          rw [Option.toList_some, List.length_append, List.length_singleton]
          constructor
          · intro e' stored
            rw [Book.recordEnded_entry held stored, if_pos rfl]
            obtain ⟨next, backoff⟩ := Streak.counter_reschedule counts now during.rng.nextF32.1 e₁
            rw [next, backoff, saturatingSucc_toNat, count]
            exact ⟨same, by omega⟩
          · intro i d here
            rw [List.getElem?_append] at here
            split at here
            · exact timed i d here
            · rw [List.getElem?_singleton] at here
              split at here
              · obtain rfl := Option.some.inj here
                rw [Streak.retryDelay_eq counts gossip, same, Backoff.delay_toNat _ count]
                congr 1
                omega
              · cases here

/-- Whatever the manager does with its book in between, an address that fails again and again, or
    hangs up early again and again, waits for the exact delay of the unbounded count: never less
    than before and never more than the cap of its class. -/
theorem run_backoff (streak : Streak) {e : Entry} (found : book.entry addr = some e)
    {calls : List BookCall}
    (run : Run.Along BookCall.next (InStreak streak addr) book calls) :
    (∀ base factor cap n, (expBackoff base factor n cap).toNat =
      min cap.toNat (base.toNat * factor.toNat ^ (max n.toNat 1 - 1))) ∧
    (∀ now outcome r e, (reschedule now outcome r e).nextAttempt =
      saturatingAdd now (jitter (e.retryDelay outcome) r)) ∧
    (∀ i d, (book.delays addr calls)[i]? = some d →
      d.toNat = (streak.backoff e).exact ((streak.counter e).toNat + i)) ∧
    (book.delays addr calls).Pairwise (· ≤ ·) ∧
    ∀ d ∈ book.delays addr calls, d ≤ (streak.backoff e).cap := by
  obtain ⟨-, timed⟩ := run_counted found calls run
  refine ⟨expBackoff_toNat, reschedule_nextAttempt, timed, ?_, ?_⟩
  · rw [List.pairwise_iff_getElem]
    intro i j hi hj less
    rw [UInt32.le_iff_toNat_le, timed i _ (List.getElem?_eq_getElem hi),
      timed j _ (List.getElem?_eq_getElem hj)]
    exact (streak.backoff e).exact_mono (by omega)
  · intro d member
    obtain ⟨i, inside, rfl⟩ := List.getElem_of_mem member
    rw [UInt32.le_iff_toNat_le, timed i _ (List.getElem?_eq_getElem inside)]
    exact (streak.backoff e).exact_le_cap _

end Book

/-! ## The manager's runs -/

/-- The calls that a round of the manager's loop makes on its book. -/
def ManagerEvent.calls [AddrText] (m : Manager) : ManagerEvent → List BookCall
  | .tick now => [.pick now m.budget m.cfg.nets m.banlist]
  | .apply (.connected addr services version) now =>
      [.one (.recordConnected addr now services version)]
  | .apply (.v1Only addr) _ => [.one (.recordV1Only addr)]
  | .apply (.ended addr outcome) now => [.one (.recordEnded addr now outcome)]
  | .ingest now addrs => addrs.map fun g => .one (.ingestOne now m.banlist g)
  | .command (.addManual addrs) _ now => addrs.map fun addr => .one (.insertManualOne now addr)
  | .command (.ban entry) .. =>
      if 0 < (m.banlist.add entry).2 then [.purgeBanned (m.banlist.add entry).1] else []
  | .command .. => []
  | .reorder entries => [.reorder entries]

namespace Manager

variable [AddrText]

theorem runFrom_one {X : Type} (made : X → BookStep) (xs : List X) : ∀ book : Book,
    Run.runFrom BookCall.next book (xs.map fun x => .one (made x)) =
      Run.runFrom BookStep.next book (xs.map made) := by
  induction xs with
  | nil => exact fun _ => rfl
  | cons x xs ih => exact fun book => ih _

theorem step_book (m : Manager) (event : ManagerEvent) :
    (m.step event).book = Run.runFrom BookCall.next m.book (event.calls m) := by
  cases event with
  | tick now => rfl
  | apply msg now => cases msg <;> rfl
  | ingest now addrs =>
      rw [ManagerEvent.calls, runFrom_one]
      exact BookOp.next_eq m.book (.ingest now addrs m.banlist)
  | command cmd saved now =>
      cases cmd with
      | addManual addrs =>
          rw [ManagerEvent.calls, runFrom_one]
          exact BookOp.next_eq m.book (.insertManual now addrs)
      | ban entry =>
          simp only [step, next, command, ManagerEvent.calls]
          split <;> rfl
      | banList | stats | inspect | dueNext => rfl
  | reorder entries =>
      simp only [step, next, reorder, ManagerEvent.calls, Run.runFrom_cons, Run.runFrom_nil,
        BookCall.next]
      split <;> rfl

/-- A run of the manager is a run of calls on its book. -/
theorem run_book (events : List ManagerEvent) : ∀ m : Manager,
    ∃ calls, (m.run events).book = Run.runFrom BookCall.next m.book calls := by
  induction events with
  | nil => exact fun m => ⟨[], rfl⟩
  | cons event rest ih =>
      intro m
      obtain ⟨calls, later⟩ := ih (m.step event)
      refine ⟨event.calls m ++ calls, ?_⟩
      rw [Run.runFrom_append, ← step_book, ← later]
      rfl

end Manager

/-! ## A counter that is full -/

namespace Exhausted

def addr : PeerAddr := .ipv4 ⟨[15, 6, 7, 8], rfl⟩ 8333

/-- A peer that worked once and has failed since. -/
def entry : Entry :=
  { Entry.new 1000 0 .gossip with lastSuccess := 1000, failures := 254, lastAttemptFailed := true }

def book : Book := (Book.new 16 1).restore ((∅ : HashMap PeerAddr Entry).insert addr entry)

def calls : List BookCall :=
  [.one (.recordEnded addr 2000 (.failed .hostUnreachable)), .one (.recordDialing addr 3000),
    .one (.recordEnded addr 3000 (.failed .connectionRefused))]

end Exhausted

theorem run_backoff_exhausted :
    let delays := @Book.delays plainText.toAddrText Exhausted.book Exhausted.addr Exhausted.calls
    delays = [21600, 21600] ∧ ∀ d ∈ delays, d ≤ WAS_GOOD_CAP_SECS := by
  have found : Exhausted.book.entry Exhausted.addr = some Exhausted.entry := rfl
  have run : Run.Along (@BookCall.next plainText.toAddrText)
      (Book.InStreak .failed Exhausted.addr) Exhausted.book Exhausted.calls :=
    ⟨⟨⟨_, rfl, rfl⟩, fun _ => rfl⟩, ⟨⟨_, rfl, rfl⟩, trivial⟩, ⟨⟨_, rfl, rfl⟩, fun _ => rfl⟩,
      trivial⟩
  obtain ⟨-, -, -, -, capped⟩ := @Book.run_backoff plainText.toAddrText _ _ .failed _ found _ run
  exact ⟨rfl, capped⟩

end P2PObserver
