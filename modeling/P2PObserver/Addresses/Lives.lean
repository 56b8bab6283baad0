import P2PObserver.Addresses.Backoff
import P2PObserver.Addresses.Picked

/-! # What an entry remembers

The life of an address is what has happened to it since it was last taken in. Its entry keeps ten
values, each overwritten in place by whoever last had something to say; they are what the whole
life says.
-/

namespace P2PObserver

/-- What happens to an address that is stored afterwards. -/
inductive Occurrence where
  | listed (now : UInt32) (services : UInt64) (origin : Origin)
  | announced (now : UInt32) (services : UInt64)
  | promoted
  | dialled (now : UInt32)
  | welcomed (now : UInt32) (services : UInt64) (transportVersion : UInt8)
  | spokeV1
  | ended (now : UInt32) (outcome : Outcome) (r : Float32)

namespace Occurrence

@[simp] def services : Occurrence → Option UInt64
  | listed _ services _ | announced _ services | welcomed _ services _ => some services
  | _ => none

@[simp] def announcedAt : Occurrence → Option UInt32
  | listed now .. | announced now _ => some now
  | _ => none

@[simp] def dialledAt : Occurrence → Option UInt32
  | dialled now => some now
  | _ => none

@[simp] def welcomedAt : Occurrence → Option UInt32
  | welcomed now .. => some now
  | _ => none

/-- Whether the address failed, where this says anything about it. -/
@[simp] def failed : Occurrence → Option Bool
  | welcomed .. => some false
  | ended _ (.failed _) _ => some true
  | ended _ (.ourFault _) _ => none
  | ended .. => some false
  | _ => none

/-- Whether a session was short, where one ended. -/
@[simp] def short : Occurrence → Option Bool
  | ended _ outcome@(.disconnected ..) _ => some outcome.isShortSession
  | _ => none

/-- Whether an operator asked for the address. -/
@[simp] def byOperator : Occurrence → Bool
  | listed _ _ .manual | promoted => true
  | _ => false

@[simp] def overV2 : Occurrence → Bool
  | welcomed _ _ transportVersion => transportVersion = 2
  | _ => false

/-- What an occurrence makes of an entry. -/
def change : Occurrence → Entry → Entry
  | listed now services origin, _ => .new now services origin
  | announced now services, e => Book.refresh now services e
  | promoted, e => { e with origin := .manual }
  | dialled now, e => { e with lastAttempt := now }
  | welcomed now services version, e => Book.welcome now services version e
  | spokeV1, e => if e.transport = .unknown then { e with transport := .v1Only } else e
  | ended now outcome r, e => Book.reschedule now outcome r e

end Occurrence

/-! ## Lives -/

/-- What has happened to an address, newest first. -/
abbrev Lifetime := List Occurrence

namespace Lifetime

/-- How many say yes since one said no. -/
def streak (answer : Occurrence → Option Bool) (life : Lifetime) : Nat :=
  (life.takeWhile (answer · ≠ some false)).countP (answer · = some true)

def manual (life : Lifetime) : Bool := life.any Occurrence.byOperator

def spokeV2 (life : Lifetime) : Bool := life.any Occurrence.overV2

def lastSuccess (life : Lifetime) : UInt32 := (life.findSome? Occurrence.welcomedAt).getD 0

/-- How long an address with this life waits after an outcome, counted without bound. -/
def wait (life : Lifetime) (outcome : Outcome) : Nat :=
  if outcome = .otherChain then 24 * 60 * 60
  else if life.manual then 60
  else
    match outcome with
    | .otherChain => 24 * 60 * 60
    | .violated => 60 * 60
    | .ourFault .proxyUnreachable => 30
    | .ourFault .networkUnreachable => 60 * 60
    | .ourFault .networkDisabled => 24 * 60 * 60
    | .disconnected .. =>
        if outcome.isShortSession then Backoff.eviction.exact (life.streak Occurrence.short)
        else 5
    | .failed _ =>
        if 0 < life.lastSuccess then Backoff.wasGood.exact (life.streak Occurrence.failed)
        else Backoff.bad.exact (life.streak Occurrence.failed)

/-- From when on an address with this life may be dialled. -/
@[simp] def dueAt : Lifetime → UInt32
  | [] => 0
  | .ended now outcome r :: before =>
      saturatingAdd now (jitter (.ofNat (wait before outcome)) r)
  | _ :: before => dueAt before

@[simp] theorem manual_cons (h : Occurrence) (life : Lifetime) :
    manual (h :: life) = (h.byOperator || life.manual) := rfl

@[simp] theorem spokeV2_cons (h : Occurrence) (life : Lifetime) :
    spokeV2 (h :: life) = (h.overV2 || life.spokeV2) := rfl

@[simp] theorem lastSuccess_cons (h : Occurrence) (life : Lifetime) :
    lastSuccess (h :: life) = h.welcomedAt.getD life.lastSuccess := by
  unfold lastSuccess
  rw [List.findSome?_cons]
  cases h.welcomedAt <;> rfl

@[simp] theorem streak_cons (answer : Occurrence → Option Bool) (h : Occurrence) (life : Lifetime) :
    streak answer (h :: life) =
      match answer h with
      | none => streak answer life
      | some true => streak answer life + 1
      | some false => 0 := by
  cases said : answer h with
  | none => simp [streak, said]
  | some yes => cases yes <;> simp [streak, said]

end Lifetime

/-- An entry keeps what a life says. -/
structure Entry.Recounts (e : Entry) (life : Lifetime) : Prop where
  services : life.findSome? Occurrence.services = some e.services
  lastAnnounced : life.findSome? Occurrence.announcedAt = some e.lastAnnounced
  lastAttempt : e.lastAttempt = (life.findSome? Occurrence.dialledAt).getD 0
  lastSuccess : e.lastSuccess = life.lastSuccess
  failures : e.failures.toNat = min (life.streak Occurrence.failed) 255
  shortSessions : e.shortSessions.toNat = min (life.streak Occurrence.short) 255
  lastAttemptFailed : e.lastAttemptFailed = (life.findSome? Occurrence.failed).getD false
  origin : e.origin = if life.manual then .manual else .gossip
  v2 : e.transport = .v2 ↔ life.spokeV2 = true
  nextAttempt : e.nextAttempt = life.dueAt

/-! ## One occurrence -/

namespace Entry.Recounts

variable {e : Entry} {life : Lifetime}

theorem listed (now : UInt32) (services : UInt64) (origin : Origin) :
    (Entry.new now services origin).Recounts [.listed now services origin] := by
  cases origin <;> constructor <;> simp [Entry.new, Lifetime.streak, Lifetime.manual,
    Lifetime.spokeV2, Lifetime.lastSuccess]

/-- The delay that an outcome computes is that of the whole life. -/
theorem retryDelay (recounts : e.Recounts life) (outcome : Outcome) :
    (e.retryDelay outcome).toNat = life.wait outcome := by
  have origin := recounts.origin
  by_cases manual : life.manual = true
  · rw [if_pos manual] at origin
    cases outcome <;>
      simp [Entry.retryDelay, retryDelaySecs, Lifetime.wait, manual, Book.judge, origin] <;> rfl
  rw [if_neg manual] at origin
  cases outcome with
  | failed reason =>
      have counted : (Streak.failed.counter e).toNat = min (life.streak Occurrence.failed) 255 :=
        recounts.failures
      have counts : Streak.failed.counts (.failed reason) = true := rfl
      rw [Streak.retryDelay_eq counts origin, Backoff.delay_toNat _ counted, Lifetime.wait,
        if_neg (by simp), if_neg manual]
      simp only [Streak.backoff, Entry.connectedBefore, recounts.lastSuccess, decide_eq_true_eq]
      split <;> rfl
  | disconnected uptime silent =>
      by_cases short : (Outcome.disconnected uptime silent).isShortSession = true
      · have counted : (Streak.short.counter e).toNat = min (life.streak Occurrence.short) 255 :=
          recounts.shortSessions
        have counts : Streak.short.counts (.disconnected uptime silent) = true := short
        rw [Streak.retryDelay_eq counts origin, Backoff.delay_toNat _ counted]
        simp [Lifetime.wait, manual, short, Streak.backoff]
      · simp [Entry.retryDelay, retryDelaySecs, Lifetime.wait, manual, Book.judge, origin, short]
        rfl
  | otherChain => rfl
  | violated =>
      simp [Entry.retryDelay, retryDelaySecs, Lifetime.wait, manual, Book.judge, origin]
      rfl
  | ourFault fault =>
      cases fault <;>
        simp [Entry.retryDelay, retryDelaySecs, Lifetime.wait, manual, Book.judge, origin] <;> rfl

theorem due (recounts : e.Recounts life) (now : UInt32) (outcome : Outcome) (r : Float32) :
    (Book.reschedule now outcome r e).nextAttempt =
      Lifetime.dueAt (.ended now outcome r :: life) := by
  rw [Book.reschedule_nextAttempt, Lifetime.dueAt, ← recounts.retryDelay, UInt32.ofNat_toNat]

/-- The last session decides whether there was one over v2 only until there is. -/
theorem welcomed_v2 (v2 : e.transport = .v2 ↔ life.spokeV2 = true) (now : UInt32)
    (services : UInt64) (version : UInt8) :
    (Book.welcome now services version e).transport = .v2 ↔
      Lifetime.spokeV2 (.welcomed now services version :: life) = true := by
  rw [Lifetime.spokeV2_cons, Bool.or_eq_true, ← v2]
  simp only [Book.welcome, Occurrence.overV2, decide_eq_true_eq]
  cases e.transport <;> grind

theorem change (recounts : e.Recounts life) {h : Occurrence}
    (stored : ∀ now services origin, h ≠ .listed now services origin) :
    (h.change e).Recounts (h :: life) := by
  have later := recounts.due
  obtain ⟨services, announced, attempt, success, failures, shorts, failed, origin, v2, due⟩ :=
    recounts
  cases h with
  | listed now services origin => exact absurd rfl (stored now services origin)
  | announced now services' =>
      by_cases same : services' = e.services
      · constructor <;> simp [Occurrence.change, Book.refresh, List.findSome?_cons, *]
      · constructor
        case v2 =>
          change _ ↔ life.spokeV2 = true
          rw [← v2]
          simp only [Occurrence.change, Book.refresh, if_neg same]
          cases e.transport <;> grind
        all_goals simp [Occurrence.change, Book.refresh, List.findSome?_cons, *]
  | promoted => constructor <;> simp [Occurrence.change, List.findSome?_cons, *]
  | dialled now => constructor <;> simp [Occurrence.change, List.findSome?_cons, *]
  | welcomed now services' version =>
      constructor
      case v2 => exact welcomed_v2 v2 now services' version
      all_goals simp [Occurrence.change, Book.welcome, List.findSome?_cons, *]
  | spokeV1 =>
      by_cases unsure : e.transport = .unknown
      · have never : life.spokeV2 = false := by simpa [unsure] using v2
        constructor <;> simp [Occurrence.change, List.findSome?_cons, *]
      · constructor <;> simp [Occurrence.change, List.findSome?_cons, *]
  | ended now outcome r =>
      cases outcome with
      | failed reason =>
          constructor
          case nextAttempt => exact later now (.failed reason) r
          case failures =>
            have counted :
                Lifetime.streak Occurrence.failed (.ended now (.failed reason) r :: life) =
                  life.streak Occurrence.failed + 1 := Lifetime.streak_cons ..
            change (saturatingSucc e.failures).toNat = _
            rw [counted, saturatingSucc_toNat, failures]
            omega
          all_goals simp [Occurrence.change, Book.reschedule, Book.judge, List.findSome?_cons, *]
      | disconnected uptime silent =>
          constructor
          case nextAttempt => exact later now (.disconnected uptime silent) r
          case shortSessions =>
            simp only [Occurrence.change, Book.reschedule, Book.judge, Lifetime.streak_cons,
              Occurrence.short]
            cases (Outcome.disconnected uptime silent).isShortSession with
            | false => rfl
            | true =>
                simp only [if_pos, saturatingSucc_toNat, shorts]
                omega
          all_goals simp [Occurrence.change, Book.reschedule, Book.judge, List.findSome?_cons, *]
      | otherChain | violated | ourFault =>
          constructor
          case nextAttempt => exact later now _ r
          all_goals simp [Occurrence.change, Book.reschedule, Book.judge, List.findSome?_cons, *]

end Entry.Recounts

/-! ## One call -/

/-- What a call does to an address, where it is stored afterwards. -/
def BookCall.happens [AddrText] (addr : PeerAddr) (book : Book) : BookCall → Option Occurrence
  | one (.ingestOne now banlist g) =>
      if g.addr = addr ∧ addr.isRoutable = true ∧ banlist.contains addr = false then
        if (book.entry addr).isSome then some (.announced now g.services)
        else some (.listed now g.services .gossip)
      else none
  | one (.insertManualOne now addr') =>
      if addr' = addr then
        if (book.entry addr).isSome then some .promoted else some (.listed now 0 .manual)
      else none
  | one (.recordDialing addr' now) => if addr' = addr then some (.dialled now) else none
  | one (.recordConnected addr' now services version) =>
      if addr' = addr then some (.welcomed now services version) else none
  | one (.recordV1Only addr') => if addr' = addr then some .spokeV1 else none
  | one (.recordEnded addr' now outcome) =>
      if addr' = addr then some (.ended now outcome book.rng.nextF32.1) else none
  | pick now budget nets banlist =>
      if addr ∈ (book.pick now budget nets banlist).1.map Dial.addr then some (.dialled now)
      else none
  | purgeBanned _ | reorder _ => none

namespace Book

variable {book : Book} {addr : PeerAddr} {e e' : Entry}

/-- A change in place is made where its address is the one, and only there. -/
theorem modified_happens {after : Book} (addr' : PeerAddr) (h : Occurrence)
    (changed : after.entries = HashMap.modify book.entries addr' h.change)
    (before : book.entry addr = some e) (stored : after.entry addr = some e') :
    e' = (if addr' = addr then some h else none).elim e fun h => h.change e := by
  rw [entry] at before stored
  rw [changed, HashMap.lookup_modify, before] at stored
  by_cases here : addr' = addr
  · rw [if_pos here]
    rw [if_pos here.symm] at stored
    exact (Option.some.inj stored).symm
  · rw [if_neg here]
    rw [if_neg (Ne.symm here)] at stored
    exact (Option.some.inj stored).symm

/-- No address comes into a book by the end of an attempt at it. -/
theorem recordEnded_known {addr' : PeerAddr} {now : UInt32} {outcome : Outcome}
    (stored : (book.recordEnded addr' now outcome).entry addr = some e') :
    book.entry addr ≠ none := by
  intro absent
  have nowhere : book.entries.lookup addr = none := absent
  rw [recordEnded] at stored
  dsimp only at stored
  split at stored
  · rw [entry, nowhere] at stored
    cases stored
  · split at stored
    · by_cases here : addr = addr'
      · rw [here, entry, AList.lookup_erase] at stored
        cases stored
      · rw [entry, AList.lookup_erase_ne here, nowhere] at stored
        cases stored
    · rw [entry, HashMap.lookup_modify, nowhere] at stored
      split at stored <;> cases stored

variable [AddrText]

theorem reorder_entry (entries : HashMap PeerAddr Entry) (addr : PeerAddr) :
    (BookCall.next book (.reorder entries)).entry addr = book.entry addr := by
  rw [BookCall.next]
  split
  · rename_i perm
    apply Option.ext
    intro e
    rw [entry, entry, ← HashMap.mem_entries_iff, ← HashMap.mem_entries_iff]
    exact perm.mem_iff
  · rfl

theorem pick_entry (now : UInt32) (budget : Nat) (nets : EnabledNets) (banlist : Banlist)
    (addr : PeerAddr) :
    (book.pick now budget nets banlist).2.entry addr =
      if addr ∈ (book.pick now budget nets banlist).1.map Dial.addr then
        (book.entry addr).map fun e => { e with lastAttempt := now }
      else book.entry addr :=
  recordAll_entry now addr (book.pick now budget nets banlist).1 _

theorem ingestOne_happens {now : UInt32} {banlist : Banlist} {g : Gossiped}
    (before : book.entry addr = some e)
    (stored : (ingestOne now banlist book g).1.entry addr = some e') :
    e' = if g.addr = addr ∧ addr.isRoutable = true ∧ banlist.contains addr = false then
        refresh now g.services e else e := by
  split
  · rename_i taken
    obtain ⟨rfl, routable, allowed⟩ := taken
    have known : (book.entry g.addr).isSome = true := by rw [before]; rfl
    rw [ingestOne, routable, allowed, if_neg (by decide), if_pos known, entry,
      HashMap.lookup_modify, if_pos rfl, ← entry, before, Option.map_some] at stored
    exact (Option.some.inj stored).symm
  · rename_i refused
    rcases ingestOne_entry before stored with kept | ⟨rfl, routable, allowed, -⟩
    · exact kept
    · exact absurd ⟨rfl, routable, allowed⟩ refused

theorem insertManualOne_happens {now : UInt32} {addr' : PeerAddr}
    (before : book.entry addr = some e)
    (stored : (insertManualOne now book addr').1.entry addr = some e') :
    e' = if addr' = addr then { e with origin := .manual } else e := by
  split
  · rename_i here
    subst here
    have found : book.entries.lookup addr' = some e := before
    rw [insertManualOne, found] at stored
    dsimp only at stored
    split at stored
    · rename_i manual
      rw [before] at stored
      obtain rfl := Option.some.inj stored
      rw [← manual]
    · rw [entry, HashMap.lookup_modify, if_pos rfl, found] at stored
      exact (Option.some.inj stored).symm
  · rename_i other
    have after : (BookStep.next book (.insertManualOne now addr')).entry addr = some e' := stored
    rcases next_entry before after with kept | ⟨here, -⟩
    · exact kept
    · exact absurd here.symm other

/-- A stored address that is stored after a call has been through what the call does to it. -/
theorem next_happens {call : BookCall} (before : book.entry addr = some e)
    (stored : (call.next book).entry addr = some e') :
    (∀ now services origin, call.happens addr book ≠ some (.listed now services origin)) ∧
      e' = (call.happens addr book).elim e fun h => h.change e := by
  have known : (book.entry addr).isSome = true := by rw [before]; rfl
  cases call with
  | one step =>
      cases step with
      | ingestOne now banlist g =>
          have after := ingestOne_happens before stored
          rw [BookCall.happens, if_pos known]
          split at after
          · rename_i taken
            rw [if_pos taken]
            exact ⟨by simp, after⟩
          · rename_i refused
            rw [if_neg refused]
            exact ⟨by simp, after⟩
      | insertManualOne now addr' =>
          have after := insertManualOne_happens before stored
          rw [BookCall.happens, if_pos known]
          split at after
          · rename_i here
            rw [if_pos here]
            exact ⟨by simp, after⟩
          · rename_i other
            rw [if_neg other]
            exact ⟨by simp, after⟩
      | recordDialing addr' now =>
          refine ⟨?_, modified_happens addr' (.dialled now) rfl before stored⟩
          rw [BookCall.happens]
          split <;> simp
      | recordConnected addr' now services version =>
          refine ⟨?_, modified_happens addr' (.welcomed now services version) rfl before stored⟩
          rw [BookCall.happens]
          split <;> simp
      | recordV1Only addr' =>
          refine ⟨?_, modified_happens addr' .spokeV1 rfl before stored⟩
          rw [BookCall.happens]
          split <;> simp
      | recordEnded addr' now outcome =>
          have after := recordEnded_entry before stored
          rw [BookCall.happens]
          by_cases here : addr' = addr
          · rw [if_pos here]
            rw [if_pos here.symm] at after
            exact ⟨by simp, after⟩
          · rw [if_neg here]
            rw [if_neg (Ne.symm here)] at after
            exact ⟨by simp, after⟩
  | pick now budget nets banlist =>
      rw [BookCall.next, pick_entry, before] at stored
      rw [BookCall.happens]
      split at stored
      · rename_i picked
        rw [if_pos picked]
        exact ⟨by simp, (Option.some.inj stored).symm⟩
      · rename_i passed
        rw [if_neg passed]
        exact ⟨by simp, (Option.some.inj stored).symm⟩
  | purgeBanned banlist =>
      obtain rfl := Option.some.inj (before.symm.trans (purgeBanned_lookup stored).1)
      exact ⟨by simp [BookCall.happens], rfl⟩
  | reorder entries =>
      rw [reorder_entry, before] at stored
      exact ⟨by simp [BookCall.happens], (Option.some.inj stored).symm⟩

theorem ingestOne_lists {now : UInt32} {banlist : Banlist} {g : Gossiped}
    (before : book.entry addr = none)
    (stored : (ingestOne now banlist book g).1.entry addr = some e') :
    (g.addr = addr ∧ addr.isRoutable = true ∧ banlist.contains addr = false) ∧
      e' = .new now g.services .gossip := by
  have absent (after : Book)
      (sub : ∀ addr e, after.entry addr = some e → book.entry addr = some e) :
      after.entry addr = none := by
    cases there : after.entry addr with
    | none => rfl
    | some e =>
        rw [sub addr e there] at before
        cases before
  have inserted (after : Book) (gone : after.entry addr = none)
      (stored : (after.entries.insert g.addr (.new now g.services .gossip)).lookup addr =
        some e') : g.addr = addr ∧ e' = .new now g.services .gossip := by
    by_cases here : addr = g.addr
    · rw [here, AList.lookup_insert] at stored
      exact ⟨here.symm, (Option.some.inj stored).symm⟩
    · rw [AList.lookup_insert_ne here, ← entry, gone] at stored
      cases stored
  unfold ingestOne at stored
  split at stored
  · rw [before] at stored
    cases stored
  rename_i allowed
  rw [Bool.or_eq_true, not_or, Bool.not_eq_true', Bool.not_eq_false, Bool.not_eq_true] at allowed
  split at stored
  · rw [entry, HashMap.lookup_modify, ← entry, before] at stored
    split at stored <;> cases stored
  have sub (addr : PeerAddr) (e : Entry)
      (kept : (if book.capacity ≤ book.len then book.evictBatch now else (book, true)).1.entry
        addr = some e) : book.entry addr = some e := by
    split at kept
    · exact (evictBatch_spec book now).sub addr e kept
    · exact kept
  generalize (if book.capacity ≤ book.len then book.evictBatch now else (book, true)) = made
    at sub stored
  obtain ⟨after, room⟩ := made
  cases room with
  | true =>
      obtain ⟨rfl, rfl⟩ := inserted after (absent after sub) stored
      exact ⟨⟨rfl, allowed⟩, rfl⟩
  | false =>
      have kept : after.entry addr = some e' := stored
      rw [absent after sub] at kept
      cases kept

/-- An address that a call brings into the book is listed by it. -/
theorem next_lists {call : BookCall} (before : book.entry addr = none)
    (stored : (call.next book).entry addr = some e') :
    ∃ now services origin, call.happens addr book = some (.listed now services origin) ∧
      e' = .new now services origin := by
  have unknown : (book.entry addr).isSome = false := by rw [before]; rfl
  have modified {after : Book} (addr' : PeerAddr) (h : Occurrence)
      (changed : after.entries = HashMap.modify book.entries addr' h.change) :
      after.entry addr ≠ some e' := by
    intro stored
    rw [entry, changed, HashMap.lookup_modify, ← entry, before] at stored
    split at stored <;> cases stored
  cases call with
  | one step =>
      cases step with
      | ingestOne now banlist g =>
          obtain ⟨taken, rfl⟩ := ingestOne_lists before stored
          refine ⟨now, g.services, .gossip, ?_, rfl⟩
          rw [BookCall.happens, if_pos taken, unknown]
          rfl
      | insertManualOne now addr' =>
          rw [BookCall.next, BookStep.next, insertManualOne] at stored
          split at stored
          · split at stored
            · rw [before] at stored
              cases stored
            · exact absurd stored (modified addr' .promoted rfl)
          · by_cases here : addr = addr'
            · rw [here, entry, AList.lookup_insert] at stored
              refine ⟨now, 0, .manual, ?_, (Option.some.inj stored).symm⟩
              rw [BookCall.happens, if_pos here.symm, unknown]
              rfl
            · rw [entry, AList.lookup_insert_ne here, ← entry, before] at stored
              cases stored
      | recordDialing addr' now => exact absurd stored (modified addr' (.dialled now) rfl)
      | recordConnected addr' now services version =>
          exact absurd stored (modified addr' (.welcomed now services version) rfl)
      | recordV1Only addr' => exact absurd stored (modified addr' .spokeV1 rfl)
      | recordEnded addr' now outcome => exact absurd before (recordEnded_known stored)
  | pick now budget nets banlist =>
      rw [BookCall.next, pick_entry, before] at stored
      split at stored <;> cases stored
  | purgeBanned banlist =>
      rw [entry, (purgeBanned_lookup stored).1] at before
      cases before
  | reorder entries =>
      rw [reorder_entry, before] at stored
      cases stored

end Book

/-! ## Runs of calls -/

namespace Lifetime

variable [AddrText] (addr : PeerAddr)

/-- The book and the life of one of its addresses, which ends when the address is dropped. -/
def next (s : Book × Lifetime) (call : BookCall) : Book × Lifetime :=
  let book := call.next s.1
  (book, if (book.entry addr).isSome then (call.happens addr s.1).toList ++ s.2 else [])

/-- The life of an address that was not in the book at the start of the calls. -/
def during (book : Book) (calls : List BookCall) : Lifetime :=
  (Run.runFrom (next addr) (book, []) calls).2

/-- An address has the life of its entry, or none. -/
def Kept (s : Book × Lifetime) : Prop :=
  (s.1.entry addr = none → s.2 = []) ∧ ∀ e, s.1.entry addr = some e → e.Recounts s.2

variable {addr}

theorem Kept.next {s : Book × Lifetime} (kept : Kept addr s) (call : BookCall) :
    Kept addr (Lifetime.next addr s call) := by
  obtain ⟨book, life⟩ := s
  obtain ⟨empty, recounts⟩ := kept
  constructor
  · intro dropped
    exact if_neg (by simp [Lifetime.next] at dropped ⊢; exact dropped)
  · intro e' stored
    have here : (call.next book).entry addr = some e' := stored
    have life' : (Lifetime.next addr (book, life) call).2 =
        (call.happens addr book).toList ++ life := if_pos (by rw [here]; rfl)
    rw [life']
    cases before : book.entry addr with
    | none =>
        obtain ⟨now, services, origin, happens, rfl⟩ := Book.next_lists before here
        have empty : life = [] := empty before
        rw [happens, empty]
        exact .listed now services origin
    | some e =>
        obtain ⟨known, rfl⟩ := Book.next_happens before here
        cases happens : call.happens addr book with
        | none => exact recounts e before
        | some h =>
            rw [happens] at known
            refine (recounts e before).change fun now services origin same => ?_
            exact known now services origin (congrArg some same)

theorem runFrom_book (calls : List BookCall) : ∀ s : Book × Lifetime,
    (Run.runFrom (next addr) s calls).1 = Run.runFrom BookCall.next s.1 calls := by
  induction calls with
  | nil => exact fun _ => rfl
  | cons call rest ih => exact fun s => ih _

/-- After any calls, an entry keeps what the life of its address says. -/
theorem during_recounts {book : Book} (absent : book.entry addr = none) (calls : List BookCall)
    {e : Entry} (stored : (Run.runFrom BookCall.next book calls).entry addr = some e) :
    e.Recounts (during addr book calls) := by
  have start : Kept addr (book, []) := by
    refine ⟨fun _ => rfl, fun e here => ?_⟩
    rw [absent] at here
    cases here
  have kept := Run.runFrom_preserves (P := Kept addr) _ (fun s call kept => kept.next call)
    start calls
  refine kept.2 e ?_
  rw [runFrom_book]
  exact stored

end Lifetime

/-! ## Runs of the manager -/

namespace Manager

variable [AddrText]

/-- The calls that a run of the manager's loop makes on its book. -/
def calls (m : Manager) : List ManagerEvent → List BookCall
  | [] => []
  | event :: rest => event.calls m ++ (m.step event).calls rest

/-- The life of an address that was not in the manager's book at the start of a run. -/
def life (m : Manager) (addr : PeerAddr) (events : List ManagerEvent) : Lifetime :=
  Lifetime.during addr m.book (m.calls events)

theorem run_calls (events : List ManagerEvent) : ∀ m : Manager,
    (m.run events).book = Run.runFrom BookCall.next m.book (m.calls events) := by
  induction events with
  | nil => exact fun _ => rfl
  | cons event rest ih =>
      intro m
      rw [calls, Run.runFrom_append, ← step_book, ← ih]
      rfl

/-- Whatever the manager's loop goes through, an entry keeps what has happened to its address
    since it was taken in, its counters as they would be without bound, and a tick dials an
    address no earlier than its life so far allows. -/
theorem run_recounts (m : Manager) {addr : PeerAddr} (absent : m.book.entry addr = none)
    (events : List ManagerEvent) :
    (∀ e, (m.run events).book.entry addr = some e → e.Recounts (m.life addr events)) ∧
    ∀ before now after d, events = before ++ .tick now :: after →
      d ∈ ((m.run before).next (.tick now)).2 → d.addr = addr →
        (m.life addr before).dueAt ≤ now := by
  have recounts (events : List ManagerEvent) (e : Entry)
      (stored : (m.run events).book.entry addr = some e) : e.Recounts (m.life addr events) := by
    rw [run_calls] at stored
    exact Lifetime.during_recounts absent _ stored
  refine ⟨recounts events, ?_⟩
  rintro before now after d - dialled rfl
  obtain ⟨e, stored, -, isDue⟩ := Book.pick_due dialled
  rw [← (recounts before e stored).nextAttempt]
  simp only [Book.due, Bool.and_eq_true, Bool.not_eq_true', decide_eq_false_iff_not] at isDue
  exact UInt32.not_lt.mp isDue.1.1.2

end Manager

/-! ## A peer that hangs up at once -/

namespace ShortStay

def addr : PeerAddr := .ipv4 ⟨[16, 7, 8, 9], rfl⟩ 8333

def manager : Manager where
  book := Book.new 16 1
  banlist := ⟨[]⟩
  cfg :=
    { dialsPerTick := 4, maxDialing := 8, capacity := 16, nets := ⟨true, true, true, true, true⟩ }

def events : List ManagerEvent :=
  [.ingest 1000 [⟨addr, 9⟩], .apply (.connected addr 2057 2) 1010,
    .apply (.ended addr (.disconnected 10 false)) 1020]

end ShortStay

theorem run_recounts_short_stay :
    ∃ e, (@Manager.run plainText.toAddrText ShortStay.manager ShortStay.events).book.entry
        ShortStay.addr = some e ∧
      e.shortSessions.toNat = 1 ∧ e.services = 2057 ∧ e.lastAnnounced = 1000 := by
  have absent : ShortStay.manager.book.entry ShortStay.addr = none := rfl
  obtain ⟨recounts, -⟩ :=
    @Manager.run_recounts plainText.toAddrText ShortStay.manager ShortStay.addr absent
      ShortStay.events
  refine ⟨_, rfl, ?_⟩
  have kept := recounts _ rfl
  refine ⟨kept.shortSessions, ?_, ?_⟩
  · exact (Option.some.inj kept.services).symm
  · exact (Option.some.inj kept.lastAnnounced).symm

end P2PObserver
