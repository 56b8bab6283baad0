import P2PObserver.Lib.HashMap
import P2PObserver.Lib.Reservoir
import P2PObserver.Addresses.Banlist
import P2PObserver.Addresses.Policy

/-! # The address book

The entries, the addresses with a task, and the pick. Both maps list their entries in
iteration order, which the pick and the eviction walk.
-/

namespace P2PObserver

/-- What we have learned about the transport a peer speaks. -/
inductive TransportHint where
  | unknown
  | v2
  | v1Only
  deriving DecidableEq

def advertisesV2 (services : UInt64) : Bool := services &&& ((1 : UInt64) <<< 11) != 0

/-- Whether we have a task for an address. -/
inductive Phase where
  | dialing
  | connected
  deriving DecidableEq

structure Entry where
  services : UInt64
  lastAnnounced : UInt32
  lastAttempt : UInt32
  lastSuccess : UInt32
  nextAttempt : UInt32
  failures : UInt8
  shortSessions : UInt8
  lastAttemptFailed : Bool
  origin : Origin
  transport : TransportHint
  deriving DecidableEq

namespace Entry

def new (now : UInt32) (services : UInt64) (origin : Origin) : Entry where
  services
  lastAnnounced := now
  lastAttempt := 0
  lastSuccess := 0
  nextAttempt := 0
  failures := 0
  shortSessions := 0
  lastAttemptFailed := false
  origin
  transport := .unknown

def classOf (e : Entry) : Class := classify (0 < e.failures) e.lastSuccess e.lastAttemptFailed

def connectedBefore (e : Entry) : Bool := 0 < e.lastSuccess

def forgettable (e : Entry) (now : UInt32) : Bool :=
  shouldForget now e.origin e.lastSuccess e.lastAnnounced e.failures

end Entry

/-- An address learned from gossip; the announced time is only published. -/
structure Gossiped where
  addr : PeerAddr
  services : UInt64

structure Dial where
  addr : PeerAddr
  transport : TransportHint
  deriving DecidableEq

structure EnabledNets where
  ipv4 : Bool
  ipv6 : Bool
  tor : Bool
  cjdns : Bool
  i2p : Bool

def EnabledNets.allows (nets : EnabledNets) : Net → Bool
  | .ipv4 => nets.ipv4
  | .ipv6 => nets.ipv6
  | .torV3 => nets.tor
  | .cjdns => nets.cjdns
  | .i2p => nets.i2p

structure Stats where
  total : Nat
  unknown : Nat
  good : Nat
  wasGood : Nat
  bad : Nat
  dialing : Nat
  connected : Nat

/-! ## Randomness -/

/-- xorshift64*. -/
structure Rng where
  state : UInt64

namespace Rng

def new (seed : UInt64) : Rng := ⟨seed ||| 1⟩

def nextU64 (rng : Rng) : UInt64 × Rng :=
  let x := rng.state
  let x := x ^^^ (x >>> 12)
  let x := x ^^^ (x <<< 25)
  let x := x ^^^ (x >>> 27)
  (x * 0x2545F4914F6CDD1D, ⟨x⟩)

/-- Uniform in `[0, 1)`. -/
def nextF32 (rng : Rng) : Float32 × Rng :=
  let (x, rng) := rng.nextU64
  ((x >>> 40).toFloat32 / 16777216.0, rng)

/-- Uniform in `[0, n)`, 0 for 0. -/
def below (rng : Rng) (n : Nat) : Nat × Rng :=
  if n = 0 then (0, rng)
  else
    let (x, rng) := rng.nextU64
    (x.toNat % n, rng)

end Rng

def EVICTION_BATCH : Nat := 1024
def EVICTION_BATCH_SHARE : Nat := 16
def CREDIT_CAP : Float32 := 4.0

/-- The classes that share the dial budget; good addresses are reconnected outside it. -/
inductive Share where
  | unknown
  | wasGood
  | bad
  deriving DecidableEq

def Share.all : List Share := [.unknown, .wasGood, .bad]

def Share.weight : Share → Float32
  | .unknown => WEIGHT_UNKNOWN
  | .wasGood => WEIGHT_WAS_GOOD
  | .bad => WEIGHT_BAD

structure Book where
  entries : HashMap PeerAddr Entry
  active : HashMap PeerAddr Phase
  credit : Share → Float32
  capacity : Nat
  evictionPasses : Nat
  rng : Rng

namespace Book

def new (capacity : Nat) (seed : UInt64) : Book where
  entries := ∅
  active := ∅
  credit _ := 0
  capacity
  evictionPasses := 0
  rng := Rng.new seed

def len (book : Book) : Nat := HashMap.size book.entries

def entry (book : Book) (addr : PeerAddr) : Option Entry := book.entries.lookup addr

/-- Replace the whole entry set, as when loading a snapshot. -/
def restore (book : Book) (entries : HashMap PeerAddr Entry) : Book :=
  { book with entries, active := ∅ }

def countClass (book : Book) (c : Class) : Nat := book.entries.entries.countP (·.2.classOf = c)

def countPhase (book : Book) (phase : Phase) : Nat := book.active.entries.countP (·.2 = phase)

def stats (book : Book) : Stats where
  total := book.len
  unknown := book.countClass .unknown
  good := book.countClass .good
  wasGood := book.countClass .wasGood
  bad := book.countClass .bad
  dialing := book.countPhase .dialing
  connected := book.countPhase .connected

def dialingCount (book : Book) : Nat := book.countPhase .dialing

/-! ## Ingest -/

/-- The walk of an eviction: what is past its forget rule, until the batch is full, and a
    sample of the unknown addresses. -/
def victims (active : HashMap PeerAddr Phase) (now : UInt32) (batch : Nat) :
    List (Sigma fun _ : PeerAddr => Entry) → List PeerAddr → Reservoir Dial → Rng →
      List PeerAddr × Reservoir Dial × Rng
  | [], forgettable, unknown, rng => (forgettable, unknown, rng)
  | ⟨addr, e⟩ :: rest, forgettable, unknown, rng =>
      if e.origin = .manual ∨ (active.lookup addr).isSome then
        victims active now batch rest forgettable unknown rng
      else if e.forgettable now then
        if batch ≤ (forgettable ++ [addr]).length then (forgettable ++ [addr], unknown, rng)
        else victims active now batch rest (forgettable ++ [addr]) unknown rng
      else if e.classOf = .unknown then
        let (unknown, rng) := unknown.offer Rng.below rng { addr, transport := .unknown }
        victims active now batch rest forgettable unknown rng
      else victims active now batch rest forgettable unknown rng

/-- Remove addresses; how many of them there were. -/
def removeAll (entries : HashMap PeerAddr Entry) (addrs : List PeerAddr) :
    HashMap PeerAddr Entry × Nat :=
  addrs.foldl (fun acc addr =>
    if (acc.1.lookup addr).isSome then (acc.1.erase addr, acc.2 + 1) else acc) (entries, 0)

def evictBatch (book : Book) (now : UInt32) : Book × Bool :=
  let batch := max (min EVICTION_BATCH (book.capacity / EVICTION_BATCH_SHARE)) 1
  let (forgettable, unknown, rng) :=
    victims book.active now batch book.entries.entries [] (Reservoir.new batch) book.rng
  let (entries, forgotten) := removeAll book.entries forgettable
  let (entries, displaced) :=
    removeAll entries ((unknown.items.take (batch - forgotten)).map Dial.addr)
  ({ book with evictionPasses := book.evictionPasses + 1, entries, rng },
    0 < forgotten + displaced)

def refresh (now : UInt32) (services : UInt64) (e : Entry) : Entry :=
  let e := { e with lastAnnounced := now }
  if services = e.services then e
  else
    let transport :=
      if advertisesV2 services && e.transport = .v1Only then .unknown else e.transport
    { e with services, transport }

/-- Take one address in; whether it is new. -/
def ingestOne [AddrText] (now : UInt32) (banlist : Banlist) (book : Book) (g : Gossiped) :
    Book × Bool :=
  if !g.addr.isRoutable || banlist.contains g.addr then (book, false)
  else if (book.entry g.addr).isSome then
    ({ book with entries := HashMap.modify book.entries g.addr (refresh now g.services) }, false)
  else
    let (book, room) :=
      if book.capacity ≤ book.len then book.evictBatch now else (book, true)
    if room then
      ({ book with entries := book.entries.insert g.addr (.new now g.services .gossip) }, true)
    else (book, false)

def ingest [AddrText] (book : Book) (now : UInt32) (addrs : List Gossiped) (banlist : Banlist) :
    Book × Nat :=
  addrs.foldl (fun acc g =>
    let (book, new) := ingestOne now banlist acc.1 g
    (book, acc.2 + new.toNat)) (book, 0)

/-- Add an operator's address; whether that changes anything. -/
def insertManualOne (now : UInt32) (book : Book) (addr : PeerAddr) : Book × Bool :=
  match book.entries.lookup addr with
  | some e =>
      if e.origin = .manual then (book, false)
      else
        let promote := fun e : Entry => { e with origin := .manual }
        ({ book with entries := HashMap.modify book.entries addr promote }, true)
  | none => ({ book with entries := book.entries.insert addr (.new now 0 .manual) }, true)

def insertManual (book : Book) (now : UInt32) (addrs : List PeerAddr) : Book × Nat :=
  addrs.foldl (fun acc addr =>
    let (book, new) := insertManualOne now acc.1 addr
    (book, acc.2 + new.toNat)) (book, 0)

/-- Drop the entries a ban matches; how many. -/
def purgeBanned [AddrText] (book : Book) (banlist : Banlist) : Book × Nat :=
  let entries := HashMap.retain (fun addr _ => !banlist.contains addr) book.entries
  ({ book with entries }, book.len - HashMap.size entries)

/-! ## Outcomes -/

def recordDialing (book : Book) (addr : PeerAddr) (now : UInt32) : Book :=
  { book with
    active := book.active.insert addr .dialing
    entries := HashMap.modify book.entries addr fun e => { e with lastAttempt := now } }

/-- What a session on `transportVersion` says about an entry. -/
def welcome (now : UInt32) (services : UInt64) (transportVersion : UInt8) (e : Entry) : Entry :=
  let upgraded := advertisesV2 services && !advertisesV2 e.services
  let transport :=
    if transportVersion = 2 then .v2
    else if e.transport = .unknown then .v1Only
    else if e.transport = .v1Only && upgraded then .unknown
    else e.transport
  { e with lastSuccess := now, lastAttemptFailed := false, failures := 0, services, transport }

def recordConnected (book : Book) (addr : PeerAddr) (now : UInt32) (services : UInt64)
    (transportVersion : UInt8) : Book :=
  { book with
    active := book.active.insert addr .connected
    entries := HashMap.modify book.entries addr (welcome now services transportVersion) }

/-- What an outcome does to the counters. -/
def judge (outcome : Outcome) (e : Entry) : Entry :=
  match outcome with
  | .ourFault _ => e
  | .otherChain | .violated => { e with lastAttemptFailed := false, failures := 0 }
  | .disconnected .. =>
      { e with
        lastAttemptFailed := false
        failures := 0
        shortSessions := if outcome.isShortSession then saturatingSucc e.shortSessions else 0 }
  | .failed _ => { e with lastAttemptFailed := true, failures := saturatingSucc e.failures }

/-- The entry after its attempt ended, with its retry scheduled. -/
def reschedule (now : UInt32) (outcome : Outcome) (r : Float32) (e : Entry) : Entry :=
  let e := judge outcome e
  let base := retryDelaySecs outcome e.origin e.connectedBefore e.failures e.shortSessions
  { e with nextAttempt := saturatingAdd now (jitter base r) }

def recordEnded (book : Book) (addr : PeerAddr) (now : UInt32) (outcome : Outcome) : Book :=
  let (r, rng) := book.rng.nextF32
  let book := { book with active := book.active.erase addr, rng }
  match book.entries.lookup addr with
  | none => book
  | some e =>
      let e := reschedule now outcome r e
      if e.forgettable now then { book with entries := book.entries.erase addr }
      else { book with entries := HashMap.modify book.entries addr fun _ => e }

def recordV1Only (book : Book) (addr : PeerAddr) : Book :=
  let conclude := fun e : Entry =>
    if e.transport = .unknown then { e with transport := .v1Only } else e
  { book with entries := HashMap.modify book.entries addr conclude }

/-! ## The pick -/

/-- The pools the pick fills. -/
structure Pools where
  manual : Reservoir Dial
  reconnect : Reservoir Dial
  byClass : Share → Reservoir Dial

def Pools.new (budget : Nat) : Pools where
  manual := .new budget
  reconnect := .new MAX_RECONNECTS_PER_TICK
  byClass _ := .new budget

/-- Whether an entry may be dialled now. -/
def due [AddrText] (active : HashMap PeerAddr Phase) (now : UInt32) (nets : EnabledNets)
    (banlist : Banlist) (e : Sigma fun _ : PeerAddr => Entry) : Bool :=
  !(active.lookup e.1).isSome && !(now < e.2.nextAttempt) &&
    nets.allows e.1.net && !banlist.contains e.1

/-- Offer a due entry to its pool. -/
def Pools.offer (pools : Pools) (rng : Rng) (addr : PeerAddr) (e : Entry) : Pools × Rng :=
  let dial := { addr, transport := e.transport }
  let offerClass (share : Share) :=
    let (pool, rng) := (pools.byClass share).offer Rng.below rng dial
    ({ pools with byClass := fun s => if s = share then pool else pools.byClass s }, rng)
  if e.origin = .manual then
    let (manual, rng) := pools.manual.offer Rng.below rng dial
    ({ pools with manual }, rng)
  else
    match e.classOf with
    | .good =>
        let (reconnect, rng) := pools.reconnect.offer Rng.below rng dial
        ({ pools with reconnect }, rng)
    | .unknown => offerClass .unknown
    | .wasGood => offerClass .wasGood
    | .bad => offerClass .bad

def fillPools (pools : Pools) (rng : Rng) (entries : List (Sigma fun _ : PeerAddr => Entry)) :
    Pools × Rng :=
  entries.foldl (fun acc e => acc.1.offer acc.2 e.1 e.2) (pools, rng)

/-- The class owed most among those with a candidate left. -/
def mostOwed (credit : Share → Float32) (take available : Share → Nat) : Option Share :=
  Share.all.foldl (fun best i =>
    if available i ≤ take i then best
    else
      match best with
      | none => some i
      | some b => if credit b < credit i then some i else best) none

/-- Hand out slots one at a time; the shares taken and the credit left. -/
def handOut (available : Share → Nat) :
    Nat → (Share → Nat) → (Share → Float32) → (Share → Nat) × (Share → Float32)
  | 0, take, credit => (take, credit)
  | slots + 1, take, credit =>
      match mostOwed credit take available with
      | none => (take, credit)
      | some i =>
          handOut available slots (fun s => if s = i then take s + 1 else take s)
            fun s => if s = i then max (credit s - 1.0) (-CREDIT_CAP) else credit s

def allocate (book : Book) (budget : Nat) (available : Share → Nat) : (Share → Nat) × Book :=
  let total := Share.unknown.weight + Share.wasGood.weight + Share.bad.weight
  let earned := fun s =>
    min (book.credit s + s.weight / total * Float32.ofNat budget) CREDIT_CAP
  let (take, credit) := handOut available budget (fun _ => 0) earned
  (take, { book with credit })

def pick [AddrText] (book : Book) (now : UInt32) (budget : Nat) (nets : EnabledNets)
    (banlist : Banlist) : List Dial × Book :=
  let (pools, rng) := fillPools (.new budget) book.rng
    (book.entries.entries.filter (due book.active now nets banlist))
  let (take, book) := { book with rng }.allocate budget fun s => (pools.byClass s).items.length
  let out := pools.manual.items ++ pools.reconnect.items ++
    Share.all.flatMap fun s => (pools.byClass s).items.take (take s)
  (out, out.foldl (fun book dial => book.recordDialing dial.addr now) book)

end Book

end P2PObserver
