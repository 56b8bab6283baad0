import P2PObserver.Addresses.Eviction
import P2PObserver.Addresses.PlainText

/-! # What revises a v1-only verdict

A session over v2 does, and so does an address that starts to advertise v2. The version
message compares the flags with those the book has; gossip does not.
-/

namespace P2PObserver

/-- The operations on the book between a load and a save. -/
inductive BookOp where
  | ingest (now : UInt32) (addrs : List Gossiped) (banlist : Banlist)
  | insertManual (now : UInt32) (addrs : List PeerAddr)
  | recordDialing (addr : PeerAddr) (now : UInt32)
  | recordConnected (addr : PeerAddr) (now : UInt32) (services : UInt64)
      (transportVersion : UInt8)
  | recordV1Only (addr : PeerAddr)
  | recordEnded (addr : PeerAddr) (now : UInt32) (outcome : Outcome)

/-- An operation on one address. -/
inductive BookStep where
  | ingestOne (now : UInt32) (banlist : Banlist) (g : Gossiped)
  | insertManualOne (now : UInt32) (addr : PeerAddr)
  | recordDialing (addr : PeerAddr) (now : UInt32)
  | recordConnected (addr : PeerAddr) (now : UInt32) (services : UInt64)
      (transportVersion : UInt8)
  | recordV1Only (addr : PeerAddr)
  | recordEnded (addr : PeerAddr) (now : UInt32) (outcome : Outcome)

namespace BookOp

def next [AddrText] (book : Book) : BookOp → Book
  | ingest now addrs banlist => (book.ingest now addrs banlist).1
  | insertManual now addrs => (book.insertManual now addrs).1
  | recordDialing addr now => book.recordDialing addr now
  | recordConnected addr now services version => book.recordConnected addr now services version
  | recordV1Only addr => book.recordV1Only addr
  | recordEnded addr now outcome => book.recordEnded addr now outcome

/-- The addresses an operation goes through, one at a time. -/
def steps : BookOp → List BookStep
  | ingest now addrs banlist => addrs.map (.ingestOne now banlist)
  | insertManual now addrs => addrs.map (.insertManualOne now)
  | recordDialing addr now => [.recordDialing addr now]
  | recordConnected addr now services version => [.recordConnected addr now services version]
  | recordV1Only addr => [.recordV1Only addr]
  | recordEnded addr now outcome => [.recordEnded addr now outcome]

end BookOp

namespace BookStep

def next [AddrText] (book : Book) : BookStep → Book
  | ingestOne now banlist g => (Book.ingestOne now banlist book g).1
  | insertManualOne now addr => (Book.insertManualOne now book addr).1
  | recordDialing addr now => book.recordDialing addr now
  | recordConnected addr now services version => book.recordConnected addr now services version
  | recordV1Only addr => book.recordV1Only addr
  | recordEnded addr now outcome => book.recordEnded addr now outcome

/-- The address a step is about. -/
def target : BookStep → PeerAddr
  | ingestOne _ _ g => g.addr
  | insertManualOne _ addr | recordDialing addr _ | recordConnected addr .. | recordV1Only addr
  | recordEnded addr .. => addr

/-- What a step makes of the entry for its address, where it changes it and does not drop it. -/
def change (book : Book) : BookStep → Entry → Entry
  | ingestOne now _ g, e => Book.refresh now g.services e
  | insertManualOne .., e => { e with origin := .manual }
  | recordDialing _ now, e => { e with lastAttempt := now }
  | recordConnected _ now services version, e => Book.welcome now services version e
  | recordV1Only _, e => if e.transport = .unknown then { e with transport := .v1Only } else e
  | recordEnded _ now outcome, e => Book.reschedule now outcome book.rng.nextF32.1 e

/-- A session over v2 with an address. -/
def SpokeV2 (addr : PeerAddr) : BookStep → Prop
  | recordConnected addr' _ _ version => addr' = addr ∧ version = 2
  | _ => False

/-- Gossip that changes the flags of an address filed as v1-only, which advertises v2 as it
    did before. -/
def Relabels [AddrText] (book : Book) : BookStep → Prop
  | ingestOne _ banlist g => g.addr.isRoutable = true ∧ banlist.contains g.addr = false ∧
      ∃ e, book.entry g.addr = some e ∧ e.transport = .v1Only ∧ g.services ≠ e.services ∧
        advertisesV2 e.services = true ∧ advertisesV2 g.services = true
  | _ => False

end BookStep

/-- A v1-only verdict changes only after a session over v2 or when v2 is newly advertised. -/
def VerdictStands [AddrText] (book : Book) (step : BookStep) : Prop :=
  ∀ addr e e', book.entry addr = some e → (step.next book).entry addr = some e' →
    e.transport = .v1Only → e'.transport ≠ .v1Only →
      step.SpokeV2 addr ∨ advertisesV2 e.services = false ∧ advertisesV2 e'.services = true

namespace BookOp

variable [AddrText]

theorem next_eq (book : Book) (op : BookOp) :
    op.next book = Run.runFrom BookStep.next book op.steps := by
  cases op with
  | ingest now addrs banlist =>
      unfold next steps Book.ingest
      generalize (0 : Nat) = added
      induction addrs generalizing book added with
      | nil => rfl
      | cons g addrs ih => exact ih _ _
  | insertManual now addrs =>
      unfold next steps Book.insertManual
      generalize (0 : Nat) = added
      induction addrs generalizing book added with
      | nil => rfl
      | cons addr addrs ih => exact ih _ _
  | recordDialing addr now => rfl
  | recordConnected addr now services version => rfl
  | recordV1Only addr => rfl
  | recordEnded addr now outcome => rfl

/-- A run of operations goes through the addresses of each. -/
theorem run_eq (ops : List BookOp) : ∀ book : Book,
    Run.runFrom next book ops = Run.runFrom BookStep.next book (ops.flatMap steps) := by
  induction ops with
  | nil => exact fun book => rfl
  | cons op ops ih =>
      intro book
      rw [List.flatMap_cons, Run.runFrom_append, Run.runFrom_cons, next_eq, ih]

end BookOp

namespace Book

/-- An entry of a book is the one of another, changed in place where the address is one. -/
theorem entry_modify {book after : Book} {addr : PeerAddr} {e e' : Entry} (addr' : PeerAddr)
    (change : Entry → Entry) (changed : after.entries = HashMap.modify book.entries addr' change)
    (before : book.entry addr = some e) (stored : after.entry addr = some e') :
    addr = addr' ∧ e' = change e ∨ e' = e := by
  rw [entry] at before stored
  rw [changed, HashMap.lookup_modify, before] at stored
  split at stored
  · rename_i same
    exact .inl ⟨same, (Option.some.inj stored).symm⟩
  · exact .inr (Option.some.inj stored).symm

theorem refresh_transport {now : UInt32} {services : UInt64} {e : Entry}
    (verdict : e.transport = .v1Only) (revised : (refresh now services e).transport ≠ .v1Only) :
    services ≠ e.services ∧ advertisesV2 services = true ∧
      (refresh now services e).services = services := by
  unfold refresh at *
  dsimp only at *
  split at revised
  · exact absurd verdict revised
  · rename_i other
    rw [if_neg other]
    refine ⟨other, ?_, rfl⟩
    dsimp only at revised
    split at revised
    · rename_i advertised
      rw [Bool.and_eq_true] at advertised
      exact advertised.1
    · exact absurd verdict revised

/-- Gossip with other flags takes the verdict back whenever they advertise v2. -/
theorem refresh_relabels {now : UInt32} {services : UInt64} {e : Entry}
    (verdict : e.transport = .v1Only) (other : services ≠ e.services)
    (advertised : advertisesV2 services = true) :
    (refresh now services e).transport = .unknown := by
  unfold refresh
  dsimp only
  rw [if_neg other]
  simp [advertised, verdict]

variable {book : Book}

/-- The entries of one book that are in another have their transport hints there. -/
def KeepsTransport (book after : Book) : Prop :=
  ∀ addr e e', book.entry addr = some e → after.entry addr = some e' →
    e'.transport = e.transport

/-- An entry that outlives the end of an attempt is rescheduled at its address, kept elsewhere. -/
theorem recordEnded_entry {addr addr' : PeerAddr} {now : UInt32} {outcome : Outcome}
    {e e' : Entry} (before : book.entry addr = some e)
    (stored : (book.recordEnded addr' now outcome).entry addr = some e') :
    e' = if addr = addr' then reschedule now outcome book.rng.nextF32.1 e else e := by
  unfold recordEnded at stored
  dsimp only at stored
  by_cases here : addr = addr'
  · subst here
    rw [if_pos rfl]
    rw [show book.entries.lookup addr = some e from before] at stored
    dsimp only at stored
    split at stored
    · rw [entry, AList.lookup_erase] at stored
      cases stored
    · rw [entry, HashMap.lookup_modify, if_pos rfl] at stored
      obtain ⟨_, _, rfl⟩ := Option.map_eq_some_iff.mp stored
      rfl
  · rw [if_neg here]
    apply Option.some.inj
    rw [← before, ← stored]
    split
    · rfl
    · split
      · exact AList.lookup_erase_ne here
      · rw [entry, HashMap.lookup_modify, if_neg here]
        rfl

theorem judge_transport (outcome : Outcome) (e : Entry) :
    (judge outcome e).transport = e.transport := by
  unfold judge
  cases outcome <;> rfl

variable [AddrText]

/-- What gossip does to the entry of an address that had one. -/
theorem ingestOne_entry {now : UInt32} {banlist : Banlist} {g : Gossiped} {addr : PeerAddr}
    {e e' : Entry} (before : book.entry addr = some e)
    (stored : (ingestOne now banlist book g).1.entry addr = some e') :
    e' = e ∨ addr = g.addr ∧ g.addr.isRoutable = true ∧ banlist.contains g.addr = false ∧
      e' = refresh now g.services e := by
  unfold ingestOne at stored
  split at stored
  · rw [before] at stored
    exact .inl (Option.some.inj stored).symm
  rename_i allowed
  rw [Bool.or_eq_true, not_or, Bool.not_eq_true', Bool.not_eq_false, Bool.not_eq_true] at allowed
  split at stored
  · rcases entry_modify g.addr (refresh now g.services) rfl before stored with
      ⟨same, changed⟩ | same
    · exact .inr ⟨same, allowed.1, allowed.2, changed⟩
    · exact .inl same
  rename_i absent
  have other : addr ≠ g.addr := by
    intro same
    rw [← same, before] at absent
    exact absent rfl
  have evicted := (evictBatch_spec book now).sub
  left
  split at stored
  all_goals
    split at stored
    all_goals
      try rw [entry, AList.lookup_insert_ne other] at stored
      grind [entry]

/-- What is in a book before and after a step is what it was, or what the step makes of it. -/
theorem next_entry {step : BookStep} {addr : PeerAddr} {e e' : Entry}
    (before : book.entry addr = some e) (stored : (step.next book).entry addr = some e') :
    e' = e ∨ addr = step.target ∧ e' = step.change book e := by
  have same {e' : Entry} (stored : book.entry addr = some e') : e' = e :=
    Option.some.inj (stored.symm.trans before)
  have modified {after : Book} (change : Entry → Entry)
      (changed : after.entries = HashMap.modify book.entries step.target change)
      (stored : after.entry addr = some e') : e' = e ∨ addr = step.target ∧ e' = change e :=
    (entry_modify step.target change changed before stored).symm
  cases step with
  | ingestOne now banlist g =>
      rcases ingestOne_entry before stored with kept | ⟨here, -, -, changed⟩
      · exact .inl kept
      · exact .inr ⟨here, changed⟩
  | insertManualOne now addr' =>
      rw [BookStep.next] at stored
      unfold insertManualOne at stored
      split at stored
      · split at stored
        · exact .inl (same stored)
        · exact modified (fun e => { e with origin := .manual }) rfl stored
      · rename_i absent
        have other : addr ≠ addr' := by
          intro here
          rw [here, entry, absent] at before
          cases before
        rw [entry, AList.lookup_insert_ne other] at stored
        exact .inl (same stored)
  | recordDialing addr' now =>
      exact modified (fun e => { e with lastAttempt := now }) rfl stored
  | recordConnected addr' now services version =>
      exact modified (welcome now services version) rfl stored
  | recordV1Only addr' =>
      exact modified
        (fun e => if e.transport = .unknown then { e with transport := .v1Only } else e) rfl stored
  | recordEnded addr' now outcome =>
      have after := recordEnded_entry before stored
      split at after
      · rename_i here
        exact .inr ⟨here, after⟩
      · exact .inl after

theorem next_keepsTransport {step : BookStep}
    (kept : ∀ e, (step.change book e).transport = e.transport) :
    book.KeepsTransport (step.next book) := by
  intro addr e e' before stored
  rcases next_entry before stored with rfl | ⟨-, rfl⟩
  · rfl
  · exact kept e

/-- A step lets the verdicts stand unless it is gossip that relabels one. -/
theorem verdictStands_iff (book : Book) (step : BookStep) :
    VerdictStands book step ↔ ¬step.Relabels book := by
  constructor
  · intro stands relabels
    cases step with
    | ingestOne now banlist g =>
        obtain ⟨routable, allowed, e, before, verdict, other, had, has⟩ := relabels
        have revised : (refresh now g.services e).transport = .unknown :=
          refresh_relabels verdict other has
        have stored : (BookStep.next book (.ingestOne now banlist g)).entry g.addr =
            some (refresh now g.services e) := by
          have known : (book.entry g.addr).isSome = true := by
            rw [before]
            rfl
          rw [BookStep.next, ingestOne, routable, allowed, if_neg (by decide), if_pos known,
            entry, HashMap.lookup_modify, if_pos rfl, ← entry, before, Option.map_some]
        rcases stands g.addr e _ before stored verdict (by rw [revised]; decide) with spoke | new
        · exact spoke
        · rw [had] at new
          cases new.1
    | insertManualOne | recordDialing | recordConnected | recordV1Only | recordEnded =>
        exact relabels
  · intro spared addr e e' before stored verdict revised
    cases step with
    | ingestOne now banlist g =>
        rcases ingestOne_entry before stored with rfl | ⟨rfl, routable, allowed, rfl⟩
        · exact absurd verdict revised
        · obtain ⟨other, has, services⟩ := refresh_transport verdict revised
          right
          refine ⟨?_, services.symm ▸ has⟩
          by_contra had
          rw [Bool.not_eq_false] at had
          exact spared ⟨routable, allowed, e, before, verdict, other, had, has⟩
    | insertManualOne now addr' =>
        have kept := next_keepsTransport (fun e => rfl) addr e e' before stored
        exact absurd (kept.trans verdict) revised
    | recordDialing addr' now =>
        have kept := next_keepsTransport (fun e => rfl) addr e e' before stored
        exact absurd (kept.trans verdict) revised
    | recordConnected addr' now services version =>
        rcases next_entry before stored with rfl | ⟨same, rfl⟩
        · exact absurd verdict revised
        · simp only [BookStep.change, BookStep.target, welcome] at *
          simp only [BookStep.SpokeV2, verdict] at *
          grind
    | recordV1Only addr' =>
        rcases next_entry before stored with rfl | ⟨-, rfl⟩
        · exact absurd verdict revised
        · rw [BookStep.change, if_neg (by rw [verdict]; decide)] at revised
          exact absurd verdict revised
    | recordEnded addr' now outcome =>
        have keeps : book.KeepsTransport (BookStep.next book (.recordEnded addr' now outcome)) :=
          next_keepsTransport (judge_transport outcome)
        exact absurd ((keeps addr e e' before stored).trans verdict) revised

/-- Over any operations on the book, every verdict stands exactly when no gossip relabels
    one. -/
theorem run_verdictStands_iff (book : Book) (ops : List BookOp) :
    Run.runFrom BookOp.next book ops = Run.runFrom BookStep.next book (ops.flatMap BookOp.steps) ∧
      (Run.Along BookStep.next VerdictStands book (ops.flatMap BookOp.steps) ↔
        Run.Along BookStep.next (fun book step => ¬step.Relabels book) book
          (ops.flatMap BookOp.steps)) :=
  ⟨BookOp.run_eq ops book, Run.along_congr _ verdictStands_iff _ book⟩

end Book

/-! ## Another flag -/

namespace Relabelled

def addr : PeerAddr := .ipv4 ⟨[52, 8, 7, 6], rfl⟩ 8333

def v2Flag : UInt64 := 2048

/-- An address that advertises v2 is filed as v1-only, then gossiped with one more flag. -/
def ops : List BookOp :=
  [.ingest 1000 [⟨addr, v2Flag⟩] ⟨[]⟩, .recordV1Only addr,
    .ingest 1001 [⟨addr, v2Flag ||| 1⟩] ⟨[]⟩]

end Relabelled

/-- Gossip takes a verdict back although the address advertises v2 as it did before. -/
theorem relabelled_verdict : ¬ ∀ (_ : AddrText) (book : Book) (ops : List BookOp),
    Run.Along BookStep.next VerdictStands book (ops.flatMap BookOp.steps) := by
  intro all
  obtain ⟨-, -, stands, -⟩ := all plainText.toAddrText (.new 100 1) Relabelled.ops
  have spared := (@Book.verdictStands_iff plainText.toAddrText _ _).mp stands
  apply spared
  exact ⟨by decide +kernel, by decide +kernel, _, rfl, rfl, by decide, by decide, by decide⟩

end P2PObserver
