import P2PObserver.Addresses.Tasks
import P2PObserver.Protocol.Course

/-! # The manager and its attempts

The manager with every attempt it has had dialled, each of them code that is somewhere in its
course, and the two queues between them.
-/

namespace P2PObserver

open Program

/-- Bound on the gossip queue. -/
def GOSSIP_QUEUE : Nat := 256

/-- What has become of the guard that reports an attempt's end. -/
inductive EndGuard where
  | untaken
  | held
  | dropped
  deriving DecidableEq

/-- The task of a dial: the code it has still to run. -/
structure Attempting (H : Type) where
  dial : Dial
  guard : EndGuard
  rest : Routine H Unit

/-- Whether its end has still to be reported. -/
def Attempting.live {H : Type} (x : Attempting H) : Bool := x.guard ≠ .dropped

structure Observer (H : Type) where
  manager : Manager
  /-- Every attempt there has been, oldest first. -/
  attempts : List (Attempting H)
  /-- Reported and not yet taken, oldest first. -/
  lifecycle : List Lifecycle
  gossip : List (List Gossiped)

inductive ObserverEvent (H : Type) where
  | tick (now : UInt32)
  | command (cmd : Command) (saved : Option String) (now : UInt32)
  | reorder (entries : HashMap PeerAddr Entry)
  /-- An attempt gets its next answer. -/
  | answer (i : Nat) (answers : (q : Question H) → Answer q)
  /-- An attempt panics. -/
  | panics (i : Nat)
  | takeLifecycle (now : UInt32)
  | takeGossip (now : UInt32)

/-- The address a report is about. -/
def Lifecycle.addr : Lifecycle → PeerAddr
  | .connected addr .. => addr
  | .v1Only addr => addr
  | .ended addr _ => addr

def Lifecycle.isEnded : Lifecycle → Bool
  | .ended .. => true
  | _ => false

namespace Observer

variable {H : Type}

/-- An attempt goes on from its question, and whoever else hears of it. -/
def asked (s : Observer H) (i : Nat) (x : Attempting H) (q : Question H) (rest : Routine H Unit) :
    Observer H :=
  match q with
  | .peerId => { s with attempts := s.attempts.set i { x with guard := .held, rest } }
  | .lifecycle (.ended addr outcome) =>
      { s with
        attempts := s.attempts.set i { x with guard := .dropped, rest }
        lifecycle := s.lifecycle ++ [.ended addr outcome] }
  | .lifecycle msg =>
      { s with
        attempts := s.attempts.set i { x with rest }
        lifecycle := s.lifecycle ++ [msg] }
  | .gossip addrs =>
      { s with
        attempts := s.attempts.set i { x with rest }
        gossip := if s.gossip.length < GOSSIP_QUEUE then s.gossip ++ [addrs] else s.gossip }
  | _ => { s with attempts := s.attempts.set i { x with rest } }

def answer (s : Observer H) (i : Nat) (answers : (q : Question H) → Answer q) : Observer H :=
  match s.attempts[i]? with
  | some x =>
      match x.rest with
      | .ask q next => s.asked i x q (next (answers q))
      | _ => s
  | none => s

/-- The guard of an attempt that vanishes reports a generic failure. -/
def panics (s : Observer H) (i : Nat) : Observer H :=
  match s.attempts[i]? with
  | some x =>
      match x.guard with
      | .held =>
          { s with
            attempts := s.attempts.set i { x with guard := .dropped, rest := .done () }
            lifecycle := s.lifecycle ++ [.ended x.dial.addr (.failed .other)] }
      | _ => s
  | none => s

section Step

variable [SocketText] [DecidableEq H] (net : Network H) (codec : AddrCodec) (cfg : ProtocolConfig)
  (fuel : Nat)

/-- `TaskDialer::dial`. -/
def spawn (dial : Dial) : Attempting H :=
  { dial, guard := .untaken, rest := attempt net codec cfg fuel dial }

def step (s : Observer H) : ObserverEvent H → Observer H
  | .tick now =>
      let (manager, dials) := s.manager.tick now
      { s with manager, attempts := s.attempts ++ dials.map (spawn net codec cfg fuel) }
  | .command cmd saved now => { s with manager := (s.manager.command cmd saved now).1 }
  | .reorder entries => { s with manager := s.manager.reorder entries }
  | .answer i answers => s.answer i answers
  | .panics i => s.panics i
  | .takeLifecycle now =>
      match s.lifecycle with
      | msg :: rest => { s with manager := s.manager.apply msg now, lifecycle := rest }
      | [] => s
  | .takeGossip now =>
      match s.gossip with
      | addrs :: rest => { s with manager := (s.manager.ingest now addrs).1, gossip := rest }
      | [] => s

def run (s : Observer H) (events : List (ObserverEvent H)) : Observer H :=
  Run.runFrom (step net codec cfg fuel) s events

end Step

/-- An observer before its first dial. -/
def new [AddrText] (cfg : Config) (seed : UInt64) (snapshot : HashMap PeerAddr Entry)
    (banlist : Banlist) : Observer H :=
  { manager := .new cfg seed snapshot banlist, attempts := [], lifecycle := [], gossip := [] }

/-- The reports about an address that wait for the manager. -/
def pending (s : Observer H) (addr : PeerAddr) : List Lifecycle :=
  s.lifecycle.filter fun msg => msg.addr = addr

end Observer

end P2PObserver
