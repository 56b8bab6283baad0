import Mathlib.Logic.Equiv.List
import Mathlib.Data.Countable.Basic
import Mathlib.Tactic.DeriveCountable
import P2PObserver.Lib.Replace
import P2PObserver.Addresses.Bans
import P2PObserver.HeaderTree.Persist

/-! # The files of the address manager

The ban list and the snapshot of the book are files of their own, each written next to itself,
flushed and renamed. The observer may fail in the middle of that and go on, or the machine may
go down at any moment and take what was not flushed with it.
-/

namespace P2PObserver

/-- Bumped whenever the stored layout changes. -/
def formatVersion : UInt32 := 2

structure Snapshot where
  version : UInt32
  entries : List (PeerAddr × Entry)

/-- What every network has that was read from a text. -/
def IpNet.Valid (net : IpNet) : Prop :=
  net.prefixLen.toNat ≤ match net.addr with
    | .v4 _ => 32
    | .v6 _ => 128

def BanEntry.Valid (entry : BanEntry) : Prop := ∀ net ∈ entry.nets, net.Valid

/-- The ban list as JSON, and the snapshot in postcard's format. -/
class FileFormats where
  printBans : List BanEntry → List UInt8
  parseBans : List UInt8 → Option (List BanEntry)
  encodeSnapshot : Snapshot → List UInt8
  decodeSnapshot : List UInt8 → Option Snapshot

/-- What both formats promise. -/
class ExactFormats extends FileFormats where
  parseBans_printBans : ∀ entries, (∀ e ∈ entries, e.Valid) →
    parseBans (printBans entries) = some entries
  parseBans_valid : ∀ bytes entries, parseBans bytes = some entries → ∀ e ∈ entries, e.Valid
  decodeSnapshot_encodeSnapshot : ∀ snapshot, decodeSnapshot (encodeSnapshot snapshot) =
    some snapshot

inductive AddressFile where
  | banlist | snapshot
  deriving DecidableEq

/-- What reading a file gives, where the system lets it be read. -/
def fileRead (files : Storage.Contents AddressFile UInt8) (denied : AddressFile → Bool)
    (file : AddressFile) : FileRead :=
  if denied file then .failed
  else
    match files file with
    | none => .notFound
    | some bytes => .found bytes

section Load

variable [FileFormats]

/-- A missing list is empty, a malformed one an error. -/
def Banlist.load : FileRead → Except String Banlist
  | .found bytes =>
      match FileFormats.parseBans bytes with
      | some entries => .ok ⟨entries⟩
      | none => .error "parse ban list"
  | .notFound => .ok ⟨[]⟩
  | .failed => .error "read ban list"

namespace Persist

/-- The bytes the book is written as. -/
def bytes (entries : HashMap PeerAddr Entry) : List UInt8 :=
  FileFormats.encodeSnapshot ⟨formatVersion, entries.entries.map fun e => (e.1, e.2)⟩

/-- Anything unexpected comes back as an empty book. -/
def load : FileRead → HashMap PeerAddr Entry
  | .found bytes =>
      match FileFormats.decodeSnapshot bytes with
      | some snapshot =>
          if snapshot.version ≠ formatVersion then ∅
          else HashMap.collect snapshot.entries
      | none => ∅
  | .notFound => ∅
  | .failed => ∅

end Persist

/-- A manager over what the files hold; the error of a ban list that does not load. -/
def Manager.open [AddrText] (cfg : Config) (seed : UInt64) (files : AddressFile → FileRead) :
    Except String Manager :=
  match Banlist.load (files .banlist) with
  | .ok banlist => .ok (.new cfg seed (Persist.load (files .snapshot)) banlist)
  | .error e => .error e

theorem Manager.open_ok [AddrText] {cfg : Config} {seed : UInt64} {files : AddressFile → FileRead}
    {banlist : Banlist} (loaded : Banlist.load (files .banlist) = .ok banlist) :
    Manager.open cfg seed files = .ok (.new cfg seed (Persist.load (files .snapshot)) banlist) := by
  rw [Manager.open, loaded]

end Load

/-! ## One machine -/

/-- A disk, and the manager while the observer runs. -/
structure Station where
  disk : Storage.Disk AddressFile UInt8
  manager : Option Manager

inductive StationEvent where
  | start (cfg : Config) (seed : UInt64) (denied : AddressFile → Bool)
  /-- A round of the loop; where it writes the ban list, in which pieces, and how far it gets if
      that fails. -/
  | manager (event : ManagerEvent) (sizes : List Nat) (steps : Nat)
  | save (sizes : List Nat) (failed : Option Nat)
  /-- The machine goes down. In the middle of a write this follows a failed one. -/
  | crash (back : Nat) (torn : Nat → List UInt8)

namespace Station

variable [AddrText] [FileFormats]

/-- The files as a start finds them. -/
def found (s : Station) (denied : AddressFile → Bool) : AddressFile → FileRead :=
  fileRead s.disk.read denied

/-- The disk after a round of the loop that left the manager. -/
def written (disk : Storage.Disk AddressFile UInt8) (manager : Manager) (sizes : List Nat)
    (steps : Nat) : ManagerEvent → Storage.Disk AddressFile UInt8
  | .command (.ban _) saved _ =>
      disk.save .banlist (FileFormats.printBans manager.banlist.entries) sizes
        (saved.map fun _ => steps)
  | _ => disk

def step (s : Station) : StationEvent → Station
  | .start cfg seed denied =>
      { s with manager := (Manager.open cfg seed (s.found denied)).toOption }
  | .manager event sizes steps =>
      match s.manager with
      | none => s
      | some m => ⟨written s.disk (m.step event) sizes steps event, some (m.step event)⟩
  | .save sizes failed =>
      match s.manager with
      | none => s
      | some m => { s with
          disk := s.disk.save .snapshot (Persist.bytes m.book.entries) sizes failed }
  | .crash back torn => ⟨s.disk.crash back torn, none⟩

end Station

/-! ## What is left of a run -/

/-- What was written, as the observer had it. -/
inductive Saved where
  | banlist (banlist : Banlist)
  | book (entries : HashMap PeerAddr Entry)

namespace Saved

def banlist? : Saved → Option Banlist
  | banlist b => some b
  | book _ => none

def book? : Saved → Option (HashMap PeerAddr Entry)
  | banlist _ => none
  | book entries => some entries

end Saved

/-- The ban lists there have been on disk, oldest first. -/
def banlists (stored : Banlist) (history : List Saved) : List Banlist :=
  stored :: history.filterMap Saved.banlist?

/-- The books there have been on disk, oldest first. -/
def books (stored : HashMap PeerAddr Entry) (history : List Saved) :
    List (HashMap PeerAddr Entry) :=
  stored :: history.filterMap Saved.book?

namespace Station

variable [AddrText] [FileFormats]

/-- What an event wrote without a failure. -/
def reports (s : Station) : StationEvent → List Saved
  | .manager (.command (.ban entry) none now) _ _ =>
      (s.manager.map fun m => .banlist (m.step (.command (.ban entry) none now)).banlist).toList
  | .save _ none => (s.manager.map fun m => .book m.book.entries).toList
  | _ => []

/-- A run, with what it wrote. -/
def run (s : Station) (events : List StationEvent) : Run.Logged Station Saved :=
  Run.runFrom (Run.Logged.step step reports) ⟨s, []⟩ events

end Station

/-- The ban list a start would load. -/
def loadedBanlist [FileFormats] (files : Storage.Contents AddressFile UInt8) :
    Except String Banlist :=
  Banlist.load (fileRead files (fun _ => false) .banlist)

/-- The book a start would load. -/
def loadedBook [FileFormats] (files : Storage.Contents AddressFile UInt8) :
    HashMap PeerAddr Entry :=
  Persist.load (fileRead files (fun _ => false) .snapshot)

theorem loadedBanlist_banlist [ExactFormats] {entries : List BanEntry}
    (valid : ∀ e ∈ entries, e.Valid) (files : Storage.Contents AddressFile UInt8) :
    loadedBanlist (Function.update files .banlist (some (FileFormats.printBans entries))) =
      .ok ⟨entries⟩ := by
  rw [loadedBanlist, fileRead, Function.update_self]
  simp only [Bool.false_eq_true, if_false, Banlist.load]
  rw [ExactFormats.parseBans_printBans entries valid]

theorem loadedBook_snapshot [ExactFormats] (entries : HashMap PeerAddr Entry)
    (files : Storage.Contents AddressFile UInt8) :
    loadedBook (Function.update files .snapshot (some (Persist.bytes entries))) = entries := by
  rw [loadedBook, fileRead, Function.update_self]
  simp only [Bool.false_eq_true, if_false, Persist.load, Persist.bytes]
  rw [ExactFormats.decodeSnapshot_encodeSnapshot]
  exact (if_neg fun differs => differs rfl).trans (HashMap.collect_entries entries)

theorem loadedBanlist_snapshot [FileFormats] (files : Storage.Contents AddressFile UInt8)
    (bytes : Option (List UInt8)) :
    loadedBanlist (Function.update files .snapshot bytes) = loadedBanlist files := by
  rw [loadedBanlist, loadedBanlist, fileRead, fileRead, Function.update_of_ne (by simp)]

theorem loadedBook_banlist [FileFormats] (files : Storage.Contents AddressFile UInt8)
    (bytes : Option (List UInt8)) :
    loadedBook (Function.update files .banlist bytes) = loadedBook files := by
  rw [loadedBook, loadedBook, fileRead, fileRead, Function.update_of_ne (by simp)]

/-- A ban list that loads is the one there is. -/
theorem load_denied [FileFormats] {files : Storage.Contents AddressFile UInt8}
    {denied : AddressFile → Bool} {banlist : Banlist}
    (loaded : Banlist.load (fileRead files denied .banlist) = .ok banlist) :
    loadedBanlist files = .ok banlist := by
  cases shut : denied .banlist with
  | true =>
      rw [fileRead, shut] at loaded
      cases loaded
  | false =>
      rw [fileRead, shut] at loaded
      exact loaded

/-! ## Valid networks -/

def Banlist.Valid (banlist : Banlist) : Prop := ∀ e ∈ banlist.entries, e.Valid

theorem Banlist.Valid.add {banlist : Banlist} (valid : banlist.Valid) {entry : BanEntry}
    (fits : entry.Valid) : (banlist.add entry).1.Valid := by
  rw [add_eq]
  dsimp only
  split
  · intro e listed
    rcases List.mem_append.mp listed with old | new
    · exact valid e old
    · rw [List.mem_singleton.mp new]
      intro net within
      exact fits net (List.mem_filter.mp within).1
  · exact valid

theorem loadedBanlist_valid [ExactFormats] {files : Storage.Contents AddressFile UInt8}
    {denied : AddressFile → Bool} {banlist : Banlist}
    (loaded : Banlist.load (fileRead files denied .banlist) = .ok banlist) : banlist.Valid := by
  unfold Banlist.load at loaded
  split at loaded
  · split at loaded
    · cases loaded
      exact ExactFormats.parseBans_valid _ _ ‹_›
    · cases loaded
  · cases loaded
    intro e listed
    cases listed
  · cases loaded

/-- The networks of a ban were read from texts. -/
def StationEvent.Valid : StationEvent → Prop
  | .manager (.command (.ban entry) _ _) _ _ => entry.Valid
  | _ => True

/-- A crash takes no change of the directory back. -/
def StationEvent.Durable : StationEvent → Prop
  | .crash back _ => back = 0
  | _ => True

namespace Manager

variable [AddrText]

theorem step_valid {m : Manager} (valid : m.banlist.Valid) {event : ManagerEvent}
    {sizes : List Nat} {steps : Nat} (fits : (StationEvent.manager event sizes steps).Valid) :
    (m.step event).banlist.Valid := by
  rw [step_banlist]
  split
  · exact valid.add fits
  · exact valid

/-- No event lifts a ban. -/
theorem step_contains (m : Manager) (event : ManagerEvent) {addr : PeerAddr}
    (banned : m.banlist.contains addr) : (m.step event).banlist.contains addr := by
  rw [step_banlist]
  split
  · rw [Banlist.contains_add, banned, Bool.true_or]
  · exact banned

end Manager

/-! ## One event -/

namespace Station

section Effect

variable [AddrText] [FileFormats]

/-- What an event does to the disk and the manager, and what it reports as written. -/
inductive Effect (s later : Station) : StationEvent → List Saved → Prop where
  | banlist {m : Manager} {entry : BanEntry} {now : UInt32} {sizes : List Nat} {steps : Nat}
      (running : s.manager = some m)
      (next : later.manager = some (m.step (.command (.ban entry) none now)))
      (disk : s.disk.Replaced later.disk .banlist (FileFormats.printBans
        (m.step (.command (.ban entry) none now)).banlist.entries)) :
      Effect s later (.manager (.command (.ban entry) none now) sizes steps)
        [.banlist (m.step (.command (.ban entry) none now)).banlist]
  | book {m : Manager} {sizes : List Nat} (running : s.manager = some m)
      (next : later.manager = some m)
      (disk : s.disk.Replaced later.disk .snapshot (Persist.bytes m.book.entries)) :
      Effect s later (.save sizes none) [.book m.book.entries]
  | crash {back : Nat} {torn : Nat → List UInt8} (disk : later.disk = s.disk.crash back torn)
      (stopped : later.manager = none) : Effect s later (.crash back torn) []
  /-- The manager is one that was loaded, or one that went on. -/
  | quiet {e : StationEvent} (disk : s.disk.Keeps later.disk)
      (next : ∀ m, later.manager = some m →
        (∃ denied, Banlist.load (s.found denied .banlist) = .ok m.banlist) ∨
        s.manager = some m ∨
        ∃ m' event sizes steps, s.manager = some m' ∧ e = .manager event sizes steps ∧
          m = m'.step event) : Effect s later e []

theorem step_effect {s : Station} (sound : s.disk.Sound) (e : StationEvent) :
    Effect s (s.step e) e (s.reports e) := by
  cases e with
  | start cfg seed denied =>
      refine .quiet sound.keeps fun m opened => .inl ⟨denied, ?_⟩
      change (Manager.open cfg seed (s.found denied)).toOption = some m at opened
      unfold Manager.open at opened
      split at opened
      · cases opened
        assumption
      · cases opened
  | crash back torn => exact .crash rfl rfl
  | save sizes failed =>
      cases running : s.manager with
      | none =>
          have still : s.step (.save sizes failed) = s := by rw [step, running]
          have silent : s.reports (.save sizes failed) = [] := by
            cases failed <;> simp [reports, running]
          rw [still, silent]
          exact .quiet sound.keeps fun m here => .inr (.inl here)
      | some m =>
          cases failed with
          | none =>
              have next : s.step (.save sizes none) =
                  ⟨s.disk.save .snapshot (Persist.bytes m.book.entries) sizes none, some m⟩ := by
                rw [step, running]
              have told : s.reports (.save sizes none) = [.book m.book.entries] := by
                rw [reports, running]
                rfl
              rw [next, told]
              exact .book running rfl (sound.save ..)
          | some steps =>
              have next : s.step (.save sizes (some steps)) =
                  ⟨s.disk.save .snapshot (Persist.bytes m.book.entries) sizes (some steps),
                    some m⟩ := by
                rw [step, running]
              rw [next]
              refine .quiet (sound.save_failed ..) fun m' here => .inr (.inl ?_)
              exact running.trans here
  | manager event sizes steps =>
      cases running : s.manager with
      | none =>
          have still : s.step (.manager event sizes steps) = s := by rw [step, running]
          have silent : s.reports (.manager event sizes steps) = [] := by
            unfold reports
            split
            · rw [running]
              rfl
            · rename_i saved
              cases saved
            · rfl
          rw [still, silent]
          exact .quiet sound.keeps fun m here => .inr (.inl here)
      | some m =>
          have next : s.step (.manager event sizes steps) =
              ⟨written s.disk (m.step event) sizes steps event, some (m.step event)⟩ := by
            rw [step, running]
          have went (m' : Manager) (here : some (m.step event) = some m') :
              ∃ m₀ event' sizes' steps', s.manager = some m₀ ∧
                StationEvent.manager event sizes steps = .manager event' sizes' steps' ∧
                m' = m₀.step event' :=
            ⟨m, event, sizes, steps, running, rfl, (Option.some.inj here).symm⟩
          by_cases ban : ∃ entry saved now, event = .command (.ban entry) saved now
          · obtain ⟨entry, saved, now, rfl⟩ := ban
            rw [next]
            cases saved with
            | none =>
                rw [reports, running]
                exact .banlist running rfl (sound.save ..)
            | some text =>
                exact .quiet (sound.save_failed ..) fun m' here => .inr (.inr (went m' here))
          · have silent : s.reports (.manager event sizes steps) = [] := by
              unfold reports
              split
              · rename_i same
                cases same
                exact absurd ⟨_, _, _, rfl⟩ ban
              · rename_i same
                cases same
              · rfl
            have untouched : written s.disk (m.step event) sizes steps event = s.disk := by
              unfold written
              split
              · exact absurd ⟨_, _, _, rfl⟩ ban
              · rfl
            rw [next, silent, untouched]
            exact .quiet sound.keeps fun m' here => .inr (.inr (went m' here))

end Effect

/-! ## The invariant -/

section Whole

variable [AddrText] [ExactFormats]

/-- Whatever a crash leaves, both files were there as a whole at some time. -/
structure Whole (stored : Banlist) (book : HashMap PeerAddr Entry)
    (w : Run.Logged Station Saved) : Prop where
  sound : w.state.disk.Sound
  valid : ∀ m, w.state.manager = some m → m.banlist.Valid
  banlist : ∀ files ∈ w.state.disk.states, ∃ banlist ∈ banlists stored w.history,
    loadedBanlist files = .ok banlist
  book : ∀ files ∈ w.state.disk.states, loadedBook files ∈ books book w.history

theorem Whole.step {stored : Banlist} {book : HashMap PeerAddr Entry}
    {w : Run.Logged Station Saved} (whole : Whole stored book w) {e : StationEvent}
    (fits : e.Valid) : Whole stored book (Run.Logged.step Station.step reports w e) := by
  have effect := step_effect whole.sound e
  have recent : w.state.disk.read ∈ w.state.disk.states := List.mem_cons_self
  unfold Run.Logged.step
  generalize w.state.step e = later at effect
  generalize w.state.reports e = told at effect
  have older {b : Banlist} (listed : b ∈ banlists stored w.history) :
      b ∈ banlists stored (w.history ++ told) := by
    rw [banlists, List.filterMap_append, ← List.cons_append]
    exact List.mem_append_left _ listed
  have older' {entries : HashMap PeerAddr Entry} (listed : entries ∈ books book w.history) :
      entries ∈ books book (w.history ++ told) := by
    rw [books, List.filterMap_append, ← List.cons_append]
    exact List.mem_append_left _ listed
  cases effect with
  | @banlist m entry now sizes steps running next disk =>
      have valid := Manager.step_valid (whole.valid m running) fits
      constructor
      · exact disk.sound
      · intro m' here
        rw [next] at here
        cases here
        exact valid
      · intro files known
        rcases disk.states files known with rfl | known
        · rw [disk.read, loadedBanlist_banlist valid]
          exact ⟨_, by simp [banlists, Saved.banlist?], rfl⟩
        · obtain ⟨b, listed, loaded⟩ := whole.banlist files known
          exact ⟨b, older listed, loaded⟩
      · intro files known
        rcases disk.states files known with rfl | known
        · rw [disk.read, loadedBook_banlist]
          exact older' (whole.book _ recent)
        · exact older' (whole.book files known)
  | @book m sizes running next disk =>
      constructor
      · exact disk.sound
      · intro m' here
        rw [next] at here
        exact whole.valid m' (running.trans here)
      · intro files known
        rcases disk.states files known with rfl | known
        · rw [disk.read, loadedBanlist_snapshot]
          obtain ⟨b, listed, loaded⟩ := whole.banlist _ recent
          exact ⟨b, older listed, loaded⟩
        · obtain ⟨b, listed, loaded⟩ := whole.banlist files known
          exact ⟨b, older listed, loaded⟩
      · intro files known
        rcases disk.states files known with rfl | known
        · rw [disk.read, loadedBook_snapshot]
          simp [books, Saved.book?]
        · exact older' (whole.book files known)
  | @crash back torn disk stopped =>
      obtain ⟨sound, left, only, -⟩ := whole.sound.crash back torn
      rw [← disk] at sound left only
      constructor
      · exact sound
      · intro m here
        rw [stopped] at here
        cases here
      · intro files known
        rw [only] at known
        obtain rfl := List.mem_singleton.mp known
        obtain ⟨b, listed, loaded⟩ := whole.banlist _ left
        exact ⟨b, older listed, loaded⟩
      · intro files known
        rw [only] at known
        obtain rfl := List.mem_singleton.mp known
        exact older' (whole.book _ left)
  | quiet disk next =>
      constructor
      · exact disk.sound
      · intro m here
        rcases next m here with
          ⟨denied, loaded⟩ | running | ⟨m', event, sizes, steps, running, rfl, rfl⟩
        · exact loadedBanlist_valid loaded
        · exact whole.valid m running
        · exact Manager.step_valid (whole.valid m' running) fits
      · intro files known
        obtain ⟨b, listed, loaded⟩ := whole.banlist files (disk.states files known)
        exact ⟨b, older listed, loaded⟩
      · intro files known
        exact older' (whole.book files (disk.states files known))

/-- The files are those written last, and no ban that was written is missing from them or from the
    manager. -/
structure Latest (stored : Banlist) (book : HashMap PeerAddr Entry)
    (w : Run.Logged Station Saved) (banlist : Banlist) : Prop where
  whole : Whole stored book w
  last : (banlists stored w.history).getLast? = some banlist
  loaded : loadedBanlist w.state.disk.read = .ok banlist
  book : (books book w.history).getLast? = some (loadedBook w.state.disk.read)
  covers : ∀ earlier ∈ banlists stored w.history, ∀ addr, earlier.contains addr →
    banlist.contains addr
  running : ∀ m, w.state.manager = some m → ∀ addr, banlist.contains addr →
    m.banlist.contains addr

theorem Latest.step {stored banlist : Banlist} {book : HashMap PeerAddr Entry}
    {w : Run.Logged Station Saved} (latest : Latest stored book w banlist) {e : StationEvent}
    (fits : e.Valid) (durable : e.Durable) :
    ∃ banlist', Latest stored book (Run.Logged.step Station.step reports w e) banlist' := by
  have whole := latest.whole.step fits
  have effect := step_effect latest.whole.sound e
  unfold Run.Logged.step at whole ⊢
  generalize w.state.step e = later at effect whole ⊢
  generalize w.state.reports e = told at effect whole ⊢
  cases effect with
  | @banlist m entry now sizes steps running next disk =>
      have valid := Manager.step_valid (latest.whole.valid m running) fits
      have lists : banlists stored (w.history ++
          [.banlist (m.step (.command (.ban entry) none now)).banlist]) =
            banlists stored w.history ++ [(m.step (.command (.ban entry) none now)).banlist] := by
        simp [banlists, Saved.banlist?]
      have same : books book (w.history ++
          [.banlist (m.step (.command (.ban entry) none now)).banlist]) =
            books book w.history := by
        simp [books, Saved.book?]
      refine ⟨(m.step (.command (.ban entry) none now)).banlist, whole, ?_, ?_, ?_, ?_, ?_⟩
      · rw [lists, List.getLast?_concat]
      · rw [disk.read, loadedBanlist_banlist valid]
      · rw [same, disk.read, loadedBook_banlist]
        exact latest.book
      · intro earlier listed addr banned
        rw [lists] at listed
        rcases List.mem_append.mp listed with old | new
        · exact m.step_contains _ (latest.running m running addr
            (latest.covers earlier old addr banned))
        · rw [List.mem_singleton.mp new] at banned
          exact banned
      · intro m' here addr banned
        rw [next] at here
        cases here
        exact banned
  | @book m sizes running next disk =>
      have lists : banlists stored (w.history ++ [.book m.book.entries]) =
          banlists stored w.history := by
        simp [banlists, Saved.banlist?]
      have more : books book (w.history ++ [.book m.book.entries]) =
          books book w.history ++ [m.book.entries] := by
        simp [books, Saved.book?]
      refine ⟨banlist, whole, ?_, ?_, ?_, ?_, ?_⟩
      · rw [lists]
        exact latest.last
      · rw [disk.read, loadedBanlist_snapshot]
        exact latest.loaded
      · rw [more, List.getLast?_concat, disk.read, loadedBook_snapshot]
      · rw [lists]
        exact latest.covers
      · intro m' here
        rw [next] at here
        exact latest.running m' (running.trans here)
  | @crash back torn disk stopped =>
      obtain rfl : back = 0 := durable
      obtain ⟨-, -, -, still⟩ := latest.whole.sound.crash 0 torn
      rw [← disk] at still
      rw [List.append_nil] at whole ⊢
      refine ⟨banlist, whole, latest.last, ?_, ?_, latest.covers, ?_⟩
      · rw [still rfl]
        exact latest.loaded
      · rw [still rfl]
        exact latest.book
      · intro m here
        rw [stopped] at here
        cases here
  | quiet disk next =>
      rw [List.append_nil] at whole ⊢
      refine ⟨banlist, whole, latest.last, ?_, ?_, latest.covers, ?_⟩
      · rw [disk.read]
        exact latest.loaded
      · rw [disk.read]
        exact latest.book
      · intro m here addr banned
        rcases next m here with
          ⟨denied, loaded⟩ | running | ⟨m', event, sizes, steps, running, rfl, rfl⟩
        · have same := (load_denied loaded).symm.trans latest.loaded
          cases same
          exact banned
        · exact latest.running m running addr banned
        · exact m'.step_contains event (latest.running m' running addr banned)

/-! ## Whole runs -/

/-- Both files survive crashes, whole and at the latest that was written. -/
theorem run_survives_crashes (disk : Storage.Disk AddressFile UInt8) (sound : disk.Sound)
    (settled : disk.states = [disk.read]) (stored : Banlist)
    (loads : loadedBanlist disk.read = .ok stored) (events : List StationEvent)
    (valid : ∀ e ∈ events, e.Valid) :
    let w := run ⟨disk, none⟩ events
    let snapshot := loadedBook disk.read
    (∀ back torn cfg seed denied, denied .banlist = false →
      ∃ banlist entries,
        ((w.state.step (.crash back torn)).step (.start cfg seed denied)).manager =
          some (.new cfg seed entries banlist) ∧
        banlist ∈ banlists stored w.history ∧
        (entries ∈ books snapshot w.history ∨ denied .snapshot = true ∧ entries = ∅)) ∧
      ((∀ e ∈ events, e.Durable) → ∃ banlist,
        (banlists stored w.history).getLast? = some banlist ∧
        loadedBanlist w.state.disk.read = .ok banlist ∧
        (books snapshot w.history).getLast? = some (loadedBook w.state.disk.read) ∧
        ∀ earlier ∈ banlists stored w.history, ∀ addr, earlier.contains addr →
          banlist.contains addr ∧ ∀ m, w.state.manager = some m → m.banlist.contains addr) := by
  intro w snapshot
  have begun : Whole stored snapshot ⟨⟨disk, none⟩, []⟩ := by
    refine ⟨sound, by simp, ?_, ?_⟩
    · intro files known
      rw [settled] at known
      rw [List.mem_singleton.mp known]
      exact ⟨stored, List.mem_cons_self, loads⟩
    · intro files known
      rw [settled] at known
      rw [List.mem_singleton.mp known]
      exact List.mem_cons_self
  constructor
  · intro back torn cfg seed denied allowed
    have whole : Whole stored snapshot w :=
      Run.runFrom_forall _ (fun _ _ whole fits => whole.step fits) begun events valid
    obtain ⟨-, left, -, -⟩ := whole.sound.crash back torn
    obtain ⟨banlist, listed, loaded⟩ := whole.banlist _ left
    have book := whole.book _ left
    refine ⟨banlist, Persist.load (fileRead (w.state.disk.crash back torn).read denied .snapshot),
      ?_, listed, ?_⟩
    · have readable : Banlist.load (fileRead (w.state.disk.crash back torn).read denied .banlist) =
          .ok banlist := by
        rw [loadedBanlist, fileRead] at loaded
        rw [fileRead, allowed]
        exact loaded
      rw [step]
      exact congrArg Except.toOption (Manager.open_ok readable)
    · cases shut : denied .snapshot with
      | true =>
          right
          rw [fileRead, shut]
          exact ⟨rfl, rfl⟩
      | false =>
          left
          rw [loadedBook, fileRead] at book
          rw [fileRead, shut]
          exact book
  · intro durable
    have latest : ∃ banlist, Latest stored snapshot w banlist := by
      have next (w : Run.Logged Station Saved) (e : StationEvent)
          (latest : ∃ banlist, Latest stored snapshot w banlist) (ok : e.Valid ∧ e.Durable) :
          ∃ banlist, Latest stored snapshot (Run.Logged.step Station.step reports w e) banlist := by
        obtain ⟨banlist, latest⟩ := latest
        exact latest.step ok.1 ok.2
      refine Run.runFrom_forall _ next ⟨stored, begun, rfl, loads, rfl, ?_, ?_⟩ events
        fun e listed => ⟨valid e listed, durable e listed⟩
      · intro earlier listed addr banned
        rw [List.mem_singleton.mp listed] at banned
        exact banned
      · simp
    obtain ⟨banlist, latest⟩ := latest
    refine ⟨banlist, latest.last, latest.loaded, latest.book, ?_⟩
    intro earlier listed addr banned
    have still := latest.covers earlier listed addr banned
    exact ⟨still, fun m running => latest.running m running addr still⟩

end Whole

end Station

/-! ## A reboot -/

namespace Reboot

section Formats

/-! One ban list and one snapshot are written as they are, all others as so many ones. -/

scoped instance countableUInt8 : Countable UInt8 :=
  Function.Injective.countable fun _ _ => UInt8.toNat_inj.mp

scoped instance countableUInt16 : Countable UInt16 :=
  Function.Injective.countable fun _ _ => UInt16.toNat_inj.mp

scoped instance countableUInt32 : Countable UInt32 :=
  Function.Injective.countable fun _ _ => UInt32.toNat_inj.mp

scoped instance countableUInt64 : Countable UInt64 :=
  Function.Injective.countable fun _ _ => UInt64.toNat_inj.mp

scoped instance countableChar : Countable Char :=
  Function.Injective.countable fun _ _ => Char.toNat_inj.mp

scoped instance countableString : Countable String :=
  Function.Injective.countable fun _ _ => String.toList_inj.mp

scoped instance countableBytes (n : Nat) : Countable (Bytes n) := Subtype.countable

deriving instance Countable for IpAddr
deriving instance Countable for IpNet
deriving instance Countable for BanEntry
deriving instance Countable for PeerAddr
deriving instance Countable for Origin
deriving instance Countable for TransportHint
deriving instance Countable for Entry
deriving instance Countable for Snapshot

variable {α : Type} [Countable α]

noncomputable def ones (a : α) : List UInt8 :=
  0 :: List.replicate ((Countable.exists_injective_nat α).choose a) 1

theorem ones_injective : Function.Injective (ones (α := α)) := by
  intro a b same
  have length := congrArg List.length same
  simp only [ones, List.length_cons, List.length_replicate, Nat.add_right_cancel_iff] at length
  exact (Countable.exists_injective_nat α).choose_spec length

open Classical in
noncomputable def print (known : α) (text : List UInt8) (a : α) : List UInt8 :=
  if a = known then text else ones a

open Classical in
noncomputable def parse (ok : α → Prop) (known : α) (text bytes : List UInt8) : Option α :=
  if bytes = text then some known
  else if h : ∃ a, ok a ∧ ones a = bytes then some h.choose else none

theorem parse_print {ok : α → Prop} {known : α} {text : List UInt8} (apart : text.head? ≠ some 0)
    {a : α} (fits : ok a) : parse ok known text (print known text a) = some a := by
  unfold print
  split
  · rename_i same
    rw [same, parse, if_pos rfl]
  · have other : ones a ≠ text := by
      rintro rfl
      exact apart rfl
    have spelled : ∃ a', ok a' ∧ ones a' = ones a := ⟨a, fits, rfl⟩
    rw [parse, if_neg other, dif_pos spelled]
    exact congrArg some (ones_injective spelled.choose_spec.2)

theorem parse_ok {ok : α → Prop} {known : α} (fits : ok known) {text bytes : List UInt8} {a : α}
    (read : parse ok known text bytes = some a) : ok a := by
  unfold parse at read
  split at read
  · cases read
    exact fits
  · split at read
    · rename_i spelled
      cases read
      exact spelled.choose_spec.1
    · cases read

end Formats

def peer : PeerAddr := .ipv4 ⟨[12, 13, 14, 15], rfl⟩ 8333

def other : PeerAddr := .ipv4 ⟨[16, 13, 14, 15], rfl⟩ 8333

def ban : BanEntry := ⟨none, [⟨.v4 ⟨[12, 13, 14, 0], rfl⟩, 24⟩], []⟩

/-- The list with that ban, as JSON. -/
def text : List UInt8 :=
  ("[\n  \x7b\n    \"nets\": [\n      \"12.13.14.0/24\"\n    ],\n" ++
    "    \"hosts\": []\n  \x7d\n]").toUTF8.toList

/-- What is known of the other address, as postcard writes it. -/
def packed : List UInt8 :=
  [2, 1, 0, 16, 13, 14, 15, 0x8d, 0x41, 0, 10, 0, 0, 0, 0, 0, 0, 1, 0]

def kept : Snapshot := ⟨2, [(other, .new 10 0 .gossip)]⟩

theorem ban_valid : ∀ e ∈ [ban], e.Valid := by
  intro e listed
  rw [List.mem_singleton.mp listed]
  intro net within
  rw [List.mem_singleton.mp within]
  exact (by decide : 24 ≤ 32)

theorem text_head : text.head? ≠ some 0 := by decide +kernel

@[reducible] noncomputable def formats : ExactFormats where
  printBans := print [ban] text
  parseBans := parse (fun entries => ∀ e ∈ entries, e.Valid) [ban] text
  encodeSnapshot := print kept packed
  decodeSnapshot := parse (fun _ => True) kept packed
  parseBans_printBans _ fits := parse_print text_head fits
  parseBans_valid _ _ read := parse_ok ban_valid read
  decodeSnapshot_encodeSnapshot _ := parse_print (by decide) trivial

def cfg : Config :=
  { dialsPerTick := 4, maxDialing := 32, capacity := 500,
    nets := { ipv4 := true, ipv6 := true, tor := true, cjdns := true, i2p := true } }

def disk : Storage.Disk AddressFile UInt8 :=
  { file := fun _ => ⟨[], true⟩, unused := 0, directory := fun _ => none, earlier := [] }

theorem disk_sound : disk.Sound := by
  constructor <;> simp [disk, Storage.Disk.directories]

/-- Two addresses are gossiped and one is banned. The book is saved, and again when the machine
    goes down. -/
def events : List StationEvent :=
  [.start cfg 1 fun _ => false, .manager (.ingest 10 [⟨peer, 0⟩, ⟨other, 0⟩]) [] 0,
    .manager (.command (.ban ban) none 20) [7, 20] 0, .save [10] none, .save [4] (some 2),
    .crash 0 fun _ => [2, 1, 0], .start cfg 2 fun _ => false]

theorem events_ban : ⟨[ban]⟩ ∈ banlists ⟨[]⟩
    (@Station.run plainText.toAddrText formats.toFileFormats ⟨disk, none⟩ events).history :=
  .tail _ (.head _)

/-- The station after the run. -/
noncomputable def final : Station :=
  (@Station.run plainText.toAddrText formats.toFileFormats ⟨disk, none⟩ events).state

end Reboot

open Reboot in
theorem run_survives_crashes_reboot :
    (∃ banlist, @loadedBanlist formats.toFileFormats final.disk.read = .ok banlist ∧
      @Banlist.contains plainText.toAddrText banlist peer) ∧
      ∀ m, final.manager = some m → @Banlist.contains plainText.toAddrText m.banlist peer := by
  obtain ⟨-, latest⟩ := @Station.run_survives_crashes plainText.toAddrText formats disk
    disk_sound rfl ⟨[]⟩ rfl events (by simpa [events, StationEvent.Valid] using ban_valid)
  obtain ⟨banlist, -, loaded, -, covers⟩ := latest (by simp [events, StationEvent.Durable])
  have banned := covers ⟨[ban]⟩ events_ban peer (by decide)
  exact ⟨⟨banlist, loaded, banned.1⟩, banned.2⟩

end P2PObserver
