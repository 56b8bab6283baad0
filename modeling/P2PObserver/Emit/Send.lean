import P2PObserver.Events
import P2PObserver.Lib.Run

/-! # Handing events to the publisher

`emit::send` one atomic access at a time: any number of calls in flight at once, over one
queue and the process-wide drop counters.
-/

namespace P2PObserver

/-- Depth of the event queue between the connection tasks and the publisher. -/
def EVENT_QUEUE : Nat := 8192

/-- Slots kept free of address announcements. -/
def GOSSIP_SHED_BELOW : Nat := 1024

/-- How far one call of `send` has come. -/
inductive Call (H : Type) where
  | ready
  /-- Stamped with the total; the counters of the kinds in `left` are still to be read. -/
  | stamping (event : PeerEvent H) (counts : DroppedEvents) (left : List Kind)
  /-- A gossip event, before its look at the room in the queue. -/
  | checking (event : PeerEvent H)
  | sending (event : PeerEvent H)
  /-- The event is lost and not counted yet. -/
  | losing (kind : Option Kind)
  /-- The event is in the total and not in its kind's count yet. -/
  | attributing (kind : Kind)
  | returned

/-- The queue, the counters and the calls in flight. -/
structure Emit (H : Type) where
  /-- `DROPPED`. -/
  dropped : UInt64
  /-- `DROPPED_BY_KIND`. -/
  droppedByKind : DroppedEvents
  /-- `INSTANCE`. -/
  instanceId : UInt64
  /-- Slots of the channel. -/
  slots : Nat
  queue : List (PeerEvent H)
  /-- What the receiver has taken, oldest first. -/
  taken : List (PeerEvent H)
  /-- The receiver is gone. -/
  closed : Bool
  calls : Nat → Call H

/-- One step: of a call, or of the receiver. -/
inductive EmitStep (H : Type) where
  /-- A task calls `send`, whose first access loads the drop counter. -/
  | start (call : Nat) (event : PeerEvent H)
  /-- A call makes its next access. -/
  | advance (call : Nat)
  | take
  | close

namespace Emit

variable {H : Type}

def new (instanceId : UInt64) (slots : Nat) : Emit H where
  dropped := 0
  droppedByKind := fun _ => 0
  instanceId := instanceId
  slots := slots
  queue := []
  taken := []
  closed := false
  calls := fun _ => .ready

def setCall (s : Emit H) (call : Nat) (phase : Call H) : Emit H :=
  { s with calls := fun other => if other = call then phase else s.calls other }

/-- `tx.capacity()`. -/
def capacity (s : Emit H) : Nat := s.slots - s.queue.length

/-- Where a stamped event goes next: gossip looks at the room left first. -/
def stamped (event : PeerEvent H) : Call H :=
  if event.kind = some .addressAnnouncement then .checking event else .sending event

/-- Loads the total, and sets out to read the kinds if anything was lost. -/
def start (s : Emit H) (call : Nat) (event : PeerEvent H) : Emit H :=
  let event := { event with droppedEvents := s.dropped, instanceId := s.instanceId }
  if 0 < s.dropped then s.setCall call (.stamping event (fun _ => 0) Kind.all)
  else s.setCall call (stamped { event with droppedByKind := none })

def trySend (s : Emit H) (call : Nat) (event : PeerEvent H) : Emit H :=
  if s.closed || s.slots ≤ s.queue.length then s.setCall call (.losing event.kind)
  else { s with queue := s.queue ++ [event] }.setCall call .returned

/-- The next access of a call. -/
def advance (s : Emit H) (call : Nat) : Emit H :=
  match s.calls call with
  | .ready | .returned => s
  | .stamping event counts [] =>
      s.setCall call (stamped { event with droppedByKind := some counts })
  | .stamping event counts (kind :: left) =>
      let counts := fun other => if other = kind then s.droppedByKind kind else counts other
      s.setCall call (.stamping event counts left)
  | .checking event =>
      if s.capacity ≤ GOSSIP_SHED_BELOW then s.setCall call (.losing event.kind)
      else s.setCall call (.sending event)
  | .sending event => s.trySend call event
  | .losing kind =>
      { s with dropped := s.dropped + 1 }.setCall call
        (match kind with
        | some kind => .attributing kind
        | none => .returned)
  | .attributing kind =>
      let counts := fun other =>
        if other = kind then s.droppedByKind other + 1 else s.droppedByKind other
      { s with droppedByKind := counts }.setCall call .returned

def step (s : Emit H) : EmitStep H → Emit H
  | .start call event =>
      match s.calls call with
      | .ready => s.start call event
      | _ => s
  | .advance call => s.advance call
  | .take =>
      match s.queue with
      | [] => s
      | event :: rest => { s with queue := rest, taken := s.taken ++ [event] }
  | .close => { s with closed := true }

/-- The events in the order the receiver takes them: taken already, then waiting. -/
def stream (s : Emit H) : List (PeerEvent H) := s.taken ++ s.queue

end Emit

end P2PObserver
