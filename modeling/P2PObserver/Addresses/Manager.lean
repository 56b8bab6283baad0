import P2PObserver.Lib.Run
import P2PObserver.Addresses.Book

/-! # The address manager

The manager's own steps, and the events its loop drives it with. A tick hands the dials it
returns to the dialer.
-/

namespace P2PObserver

/-- What a connection task reports back. -/
inductive Lifecycle where
  | connected (addr : PeerAddr) (services : UInt64) (transportVersion : UInt8)
  | v1Only (addr : PeerAddr)
  | ended (addr : PeerAddr) (outcome : Outcome)

inductive Command where
  | addManual (addrs : List PeerAddr)
  | ban (entry : BanEntry)
  | banList
  | stats
  | inspect (addr : PeerAddr)
  | dueNext (limit : Nat)

structure BanResult where
  added : Nat
  purged : Nat
  saveError : Option String

inductive Reply where
  | added (count : Nat)
  | banned (result : BanResult)
  | bans (entries : List BanEntry)
  | stats (stats : Stats)
  | entry (entry : Option Entry)
  | due (addrs : List (PeerAddr × UInt32))

structure Config where
  dialsPerTick : Nat
  maxDialing : Nat
  capacity : Nat
  nets : EnabledNets

structure Manager where
  book : Book
  banlist : Banlist
  cfg : Config

namespace Manager

/-- A manager over a loaded snapshot and ban list. -/
def new [AddrText] (cfg : Config) (seed : UInt64) (snapshot : HashMap PeerAddr Entry)
    (banlist : Banlist) :
    Manager where
  book := (((Book.new cfg.capacity seed).restore snapshot).purgeBanned banlist).1
  banlist
  cfg

def addManual (m : Manager) (now : UInt32) (addrs : List PeerAddr) : Manager × Nat :=
  let (book, added) := m.book.insertManual now addrs
  ({ m with book }, added)

/-- The dials of one tick, before the pick. -/
def budget (m : Manager) : Nat := min m.cfg.dialsPerTick (m.cfg.maxDialing - m.book.dialingCount)

def tick [AddrText] (m : Manager) (now : UInt32) : Manager × List Dial :=
  let (picks, book) := m.book.pick now m.budget m.cfg.nets m.banlist
  ({ m with book }, picks)

def apply (m : Manager) (msg : Lifecycle) (now : UInt32) : Manager :=
  match msg with
  | .connected addr services transportVersion =>
      { m with book := m.book.recordConnected addr now services transportVersion }
  | .v1Only addr => { m with book := m.book.recordV1Only addr }
  | .ended addr outcome => { m with book := m.book.recordEnded addr now outcome }

def ingest [AddrText] (m : Manager) (now : UInt32) (addrs : List Gossiped) : Manager × Nat :=
  let (book, added) := m.book.ingest now addrs m.banlist
  ({ m with book }, added)

/-- Answer a request; `saved` is the error of writing the ban list, if there is one. -/
def command [AddrText] (m : Manager) (cmd : Command) (saved : Option String) (now : UInt32) :
    Manager × Reply :=
  match cmd with
  | .addManual addrs =>
      let (m, added) := m.addManual now addrs
      (m, .added added)
  | .ban entry =>
      let (banlist, added) := m.banlist.add entry
      let (book, purged) := if 0 < added then m.book.purgeBanned banlist else (m.book, 0)
      ({ m with book, banlist }, .banned { added, purged, saveError := saved })
  | .banList => (m, .bans m.banlist.entries)
  | .stats => (m, .stats m.book.stats)
  | .inspect addr => (m, .entry (m.book.entry addr))
  | .dueNext limit =>
      let due := m.book.entries.entries.map fun e => (e.1, e.2.nextAttempt)
      (m, .due ((due.insertionSort fun a b => a.2 ≤ b.2).take limit))

end Manager

/-- What the manager's loop reacts to, and the map changing its iteration order. -/
inductive ManagerEvent where
  | tick (now : UInt32)
  | apply (msg : Lifecycle) (now : UInt32)
  | ingest (now : UInt32) (addrs : List Gossiped)
  | command (cmd : Command) (saved : Option String) (now : UInt32)
  | reorder (entries : HashMap PeerAddr Entry)

namespace Manager

/-- The same entries in another order. -/
def reorder (m : Manager) (entries : HashMap PeerAddr Entry) : Manager :=
  if entries.entries.Perm m.book.entries.entries then { m with book := { m.book with entries } }
  else m

/-- One round of the loop; the dials it hands out. -/
def next [AddrText] (m : Manager) : ManagerEvent → Manager × List Dial
  | .tick now => m.tick now
  | .apply msg now => (m.apply msg now, [])
  | .ingest now addrs => ((m.ingest now addrs).1, [])
  | .command cmd saved now => ((m.command cmd saved now).1, [])
  | .reorder entries => (m.reorder entries, [])

def step [AddrText] (m : Manager) (event : ManagerEvent) : Manager := (m.next event).1

def run [AddrText] (m : Manager) (events : List ManagerEvent) : Manager :=
  Run.runFrom step m events

end Manager

end P2PObserver
