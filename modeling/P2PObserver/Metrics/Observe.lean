import Mathlib.Order.Defs.LinearOrder
import P2PObserver.Events
import P2PObserver.Lib.HashMap

/-! # The metrics tool

What it remembers of a network between two events, and the gauges that say what the observer
dropped. The counters and the histograms come with the series, over events as they are read.
-/

namespace P2PObserver

namespace Metrics

variable {H : Type} [DecidableEq H]

/-! ## Recent blocks -/

/-- How many blocks a network's first sightings are remembered for. -/
def RECENT_BLOCKS : Nat := 64

/-- The first sightings of the last blocks, `order` oldest first. -/
structure RecentBlocks (H : Type) where
  firstSeenMs : HashMap H Nat
  order : List H

namespace RecentBlocks

def empty : RecentBlocks H := ⟨∅, []⟩

def firstSeen (b : RecentBlocks H) (hash : H) : Option Nat := b.firstSeenMs.lookup hash

/-- Forgets the oldest hashes until the others fit. -/
def forget (firstSeenMs : HashMap H Nat) : List H → RecentBlocks H
  | [] => ⟨firstSeenMs, []⟩
  | old :: order =>
      if RECENT_BLOCKS < (old :: order).length then forget (firstSeenMs.erase old) order
      else ⟨firstSeenMs, old :: order⟩

/-- Records a first sighting; a hash already known keeps its earlier time. -/
def record (b : RecentBlocks H) (hash : H) (timestampMs : Nat) : RecentBlocks H :=
  match b.firstSeenMs.lookup hash with
  | some _ => { b with firstSeenMs := HashMap.modify b.firstSeenMs hash (min · timestampMs) }
  | none => forget (b.firstSeenMs.insert hash timestampMs) (b.order ++ [hash])

end RecentBlocks

/-! ## Events -/

/-- What is remembered about one network between events. -/
structure NetworkState (H : Type) where
  /-- The observer run the last event came from. -/
  instanceId : Option UInt64
  /-- The highest height any announcement has carried. -/
  bestHeight : Option Nat
  blocks : RecentBlocks H

def NetworkState.default : NetworkState H := ⟨none, none, .empty⟩

/-- A gauge not set yet shows zero. -/
structure Gauges where
  observerDroppedEvents : String → Int
  observerDroppedEventsByKind : String → Kind → Int
  observerRestartsTotal : String → Nat

structure Tool (H : Type) where
  networks : HashMap String (NetworkState H)
  gauges : Gauges

namespace Tool

def new : Tool H := ⟨∅, ⟨fun _ => 0, fun _ _ => 0, fun _ => 0⟩⟩

/-- What is remembered of a network, from nothing for a new one. -/
def network (t : Tool H) (network : String) : NetworkState H :=
  (t.networks.lookup network).getD .default

def setNetwork (t : Tool H) (network : String) (state : NetworkState H) : Tool H :=
  { t with networks := t.networks.insert network state }

/-- A count as a gauge takes it, `as i64`. -/
def asI64 (count : UInt64) : Int := count.toInt64.toInt

def observeDroppedByKind (t : Tool H) (network : String) (dropped : DroppedEvents) : Tool H :=
  { t with gauges := { t.gauges with
    observerDroppedEventsByKind := fun other =>
      if other = network then fun kind => asI64 (dropped kind)
      else t.gauges.observerDroppedEventsByKind other } }

/-- What every event says about the pipeline that delivered it. -/
def observePipeline (t : Tool H) (network : String) (event : PeerEvent H) : Tool H :=
  let t := { t with gauges := { t.gauges with
    observerDroppedEvents := fun other =>
      if other = network then asI64 event.droppedEvents
      else t.gauges.observerDroppedEvents other } }
  let t := match event.droppedByKind with
    | some byKind => t.observeDroppedByKind network byKind
    | none => t
  let net := t.network network
  let t := match net.instanceId with
    | some previous =>
        if previous ≠ event.instanceId then
          let t := { t with gauges := { t.gauges with
            observerRestartsTotal := fun other =>
              if other = network then t.gauges.observerRestartsTotal other + 1
              else t.gauges.observerRestartsTotal other } }
          -- The old run's drops are gone with it.
          t.observeDroppedByKind network fun _ => 0
        else t
    | none => t
  t.setNetwork network { net with instanceId := some event.instanceId }

def observeBlockAnnouncement (t : Tool H) (network : String) (timestampMs : UInt64)
    (announcement : BlockAnnouncement H) : Tool H :=
  let net := t.network network
  let net := match announcement.height with
    | some height =>
        if net.bestHeight.all (· < height) then { net with bestHeight := some height } else net
    | none => net
  if announcement.newToUs then
    t.setNetwork network { net with
      blocks := net.blocks.record announcement.blockHash timestampMs.toNat }
  else t.setNetwork network net

/-- Turns one event into what is remembered and shown of it. -/
def observe (t : Tool H) (network : String) (event : PeerEvent H) : Tool H :=
  let t := t.observePipeline network event
  match event.event with
  | some (.blockAnnouncement announcement) =>
      t.observeBlockAnnouncement network event.timestampMs announcement
  | _ => t

end Tool

end Metrics

end P2PObserver
