import Mathlib.Data.String.Basic
import P2PObserver.Events
import P2PObserver.Lib.HashMap
import P2PObserver.Lib.Run

/-! # The websocket server

Its tasks one lock acquisition or channel send at a time: the status poll, the relay of the
event stream, and one handler and one writer a client connection. They share the map of
clients and the cache of status updates, and each connection has a queue.
-/

namespace P2PObserver

namespace Websocket

/-- Messages queued to a client before it counts as too slow. -/
def CLIENT_QUEUE : Nat := 16384

/-- What a client wants to receive. -/
structure ClientSubscriptions where
  pingRtt : Bool
  blockAnnouncements : Bool
  addressAnnouncements : Bool
  connectionResults : Bool
  handshakes : Bool
  compactBlockProbes : Bool
  feeFilters : Bool
  sendCmpcts : Bool
  connectionStatus : Bool
  deriving DecidableEq, Repr

namespace ClientSubscriptions

/-- Nothing, until the client says otherwise. -/
def default : ClientSubscriptions :=
  ⟨false, false, false, false, false, false, false, false, false⟩

def wants {H : Type} (subs : ClientSubscriptions) (event : PeerEvent H) : Bool :=
  match event.kind with
  | some .pingRtt => subs.pingRtt
  | some .blockAnnouncement => subs.blockAnnouncements
  | some .addressAnnouncement => subs.addressAnnouncements
  | some .connectionResult => subs.connectionResults
  | some .handshake => subs.handshakes
  | some .compactBlockProbe => subs.compactBlockProbes
  | some .feeFilter => subs.feeFilters
  | some .sendCmpct => subs.sendCmpcts
  | none => false

end ClientSubscriptions

/-- A status reply, numbered in the order `poll_status` obtained them. -/
structure Snapshot (V : Type) where
  poll : Nat
  reply : V
  deriving DecidableEq, Repr

/-- A message to a client. -/
inductive Outgoing (H V : Type) where
  | hello
  | event (network : String) (event : PeerEvent H)
  | status (network : String) (snapshot : Snapshot V)

/-- Whether a broadcast of the message is for a client with these subscriptions. -/
def Outgoing.wantedBy {H V : Type} (subs : ClientSubscriptions) : Outgoing H V → Bool
  | .hello => false
  | .event _ relayed => subs.wants relayed
  | .status .. => subs.connectionStatus

structure Client where
  /-- The connection whose queue this feeds. -/
  tx : Nat
  subscriptions : ClientSubscriptions
  deriving DecidableEq, Repr

/-- The queue of a connection. -/
structure Outbox (H V : Type) where
  waiting : List (Outgoing H V)
  /-- The writer is gone. -/
  closed : Bool

/-- A broadcast on its way round the clients, which it holds locked. -/
structure Broadcast (A H V : Type) where
  text : Outgoing H V
  left : List A
  slow : List A

/-- A task that broadcasts: the status poll or the event relay. -/
inductive Sender (A H V : Type) where
  | idle
  /-- `poll_status` has its snapshot and not put it in the cache yet. -/
  | caching (network : String) (snapshot : Snapshot V)
  /-- `handle_event` has not looked yet whether anyone wants the event. -/
  | asking (network : String) (event : PeerEvent H)
  /-- Waiting for the lock on the clients. -/
  | locking (text : Outgoing H V)
  | sending (broadcast : Broadcast A H V)

/-- How far the handler of one connection has come. -/
inductive Handler (A H V : Type) where
  | absent
  /-- Accepted, not among the clients yet. -/
  | joining (addr : A)
  | greeting (addr : A)
  /-- Waiting for the client's next message. -/
  | reading (addr : A)
  | subscribing (addr : A) (subs : ClientSubscriptions)
  /-- Subscribed to the status, and yet to read the cache. -/
  | answering (addr : A)
  | sending (addr : A) (cached : List (Outgoing H V))
  | leaving (addr : A)
  | gone

/-- What a client sends. -/
inductive Incoming where
  | subscribe (subs : ClientSubscriptions)
  /-- A binary message, a ping or a pong. -/
  | other
  /-- A close, a read error, a text of a bad size or no subscription message. -/
  | disconnect

structure Server (A H V : Type) where
  clients : HashMap A Client
  /-- The latest status update a network. -/
  latestStatus : HashMap String (Snapshot V)
  /-- Status replies obtained so far. -/
  polls : Nat
  poller : Sender A H V
  relay : Sender A H V
  handlers : Nat → Handler A H V
  outboxes : Nat → Outbox H V

/-- One step of one task. -/
inductive ServerStep (A H V : Type) where
  /-- The status request is answered, or not to any use. -/
  | poll (network : String) (reply : Option V)
  | poller
  /-- The poller's broadcast comes to a client. -/
  | pollerVisit (addr : A)
  /-- An event arrives from the stream. -/
  | event (network : String) (event : PeerEvent H)
  | relay
  | relayVisit (addr : A)
  | accept (conn : Nat) (addr : A)
  | receive (conn : Nat) (message : Incoming)
  | advance (conn : Nat)
  /-- The writer takes a message off the queue and sends it. -/
  | write (conn : Nat)
  /-- The writer cannot send and ends. -/
  | hangUp (conn : Nat)

namespace Server

variable {A H V : Type} [DecidableEq A]

def new : Server A H V where
  clients := ∅
  latestStatus := ∅
  polls := 0
  poller := .idle
  relay := .idle
  handlers := fun _ => .absent
  outboxes := fun _ => ⟨[], false⟩

/-- Whether a broadcast holds the lock on the clients. -/
def locked (s : Server A H V) : Bool :=
  match s.poller, s.relay with
  | .sending _, _ | _, .sending _ => true
  | _, _ => false

def setHandler (s : Server A H V) (conn : Nat) (handler : Handler A H V) : Server A H V :=
  { s with handlers := fun other => if other = conn then handler else s.handlers other }

def setOutbox (s : Server A H V) (conn : Nat) (outbox : Outbox H V) : Server A H V :=
  { s with outboxes := fun other => if other = conn then outbox else s.outboxes other }

/-- Whether a send to the queue goes through at once. -/
def hasRoom (s : Server A H V) (conn : Nat) : Bool :=
  !(s.outboxes conn).closed && (s.outboxes conn).waiting.length < CLIENT_QUEUE

def put (s : Server A H V) (conn : Nat) (text : Outgoing H V) : Server A H V :=
  s.setOutbox conn
    { s.outboxes conn with waiting := (s.outboxes conn).waiting ++ [text] }

/-- What is in the cache, as messages in the order of the networks. -/
def cached (s : Server A H V) : List (Outgoing H V) :=
  (HashMap.sortedBy Sigma.fst s.latestStatus).map fun entry => .status entry.1 entry.2

/-- A client the broadcast has not come to yet: the message goes to its queue, or the client
    is too slow. -/
def visit (s : Server A H V) (broadcast : Broadcast A H V) (addr : A) :
    Server A H V × Broadcast A H V :=
  match s.clients.lookup addr with
  | none => (s, { broadcast with left := broadcast.left.erase addr })
  | some client =>
      if broadcast.text.wantedBy client.subscriptions then
        if s.hasRoom client.tx then
          (s.put client.tx broadcast.text, { broadcast with left := broadcast.left.erase addr })
        else
          (s, { broadcast with
            left := broadcast.left.erase addr
            slow := addr :: broadcast.slow })
      else (s, { broadcast with left := broadcast.left.erase addr })

/-- Takes the clients found too slow off the map. -/
def dropSlow (s : Server A H V) (slow : List A) : Server A H V :=
  { s with clients := slow.foldl (fun clients addr => clients.erase addr) s.clients }

def stepPoller (s : Server A H V) : Server A H V :=
  match s.poller with
  | .idle | .asking .. => s
  | .caching network snapshot =>
      { s with
        latestStatus := s.latestStatus.insert network snapshot
        poller := .locking (.status network snapshot) }
  | .locking text =>
      if s.locked then s else { s with poller := .sending ⟨text, s.clients.keys, []⟩ }
  | .sending broadcast =>
      if broadcast.left.isEmpty then { s.dropSlow broadcast.slow with poller := .idle } else s

def stepRelay (s : Server A H V) : Server A H V :=
  match s.relay with
  | .idle | .caching .. => s
  | .asking network event =>
      if s.locked then s
      else if s.clients.entries.any fun entry => entry.2.subscriptions.wants event then
        { s with relay := .locking (.event network event) }
      else { s with relay := .idle }
  | .locking text =>
      if s.locked then s else { s with relay := .sending ⟨text, s.clients.keys, []⟩ }
  | .sending broadcast =>
      if broadcast.left.isEmpty then { s.dropSlow broadcast.slow with relay := .idle } else s

def receive (s : Server A H V) (conn : Nat) (message : Incoming) : Server A H V :=
  match s.handlers conn with
  | .reading addr =>
      s.setHandler conn
        (match message with
        | .subscribe subs => .subscribing addr subs
        | .other => .reading addr
        | .disconnect => .leaving addr)
  | _ => s

def advance (s : Server A H V) (conn : Nat) : Server A H V :=
  match s.handlers conn with
  | .absent | .reading _ | .gone => s
  | .joining addr =>
      if s.locked then s
      else
        { s with clients := s.clients.insert addr ⟨conn, .default⟩ }.setHandler conn
          (.greeting addr)
  | .greeting addr =>
      if (s.outboxes conn).closed then s.setHandler conn (.reading addr)
      else if s.hasRoom conn then (s.put conn .hello).setHandler conn (.reading addr)
      else s
  | .subscribing addr subs =>
      if s.locked then s
      else
        match s.clients.lookup addr with
        | none => s.setHandler conn (.leaving addr)
        | some _ =>
            { s with
              clients := HashMap.modify s.clients addr fun client =>
                { client with subscriptions := subs } }.setHandler conn
              (if subs.connectionStatus then .answering addr else .reading addr)
  | .answering addr => s.setHandler conn (.sending addr s.cached)
  | .sending addr [] => s.setHandler conn (.reading addr)
  | .sending addr (text :: rest) =>
      if (s.outboxes conn).closed then s.setHandler conn (.reading addr)
      else if s.hasRoom conn then (s.put conn text).setHandler conn (.sending addr rest)
      else s
  | .leaving addr =>
      if s.locked then s
      else
        ({ s with clients := s.clients.erase addr }.setOutbox conn ⟨[], true⟩).setHandler conn
          .gone

def step (s : Server A H V) : ServerStep A H V → Server A H V
  | .poll network reply =>
      match s.poller, reply with
      | .idle, some reply =>
          { s with polls := s.polls + 1, poller := .caching network ⟨s.polls + 1, reply⟩ }
      | _, _ => s
  | .poller => s.stepPoller
  | .pollerVisit addr =>
      match s.poller with
      | .sending broadcast =>
          if broadcast.left.contains addr then
            { (s.visit broadcast addr).1 with poller := .sending (s.visit broadcast addr).2 }
          else s
      | _ => s
  | .event network event =>
      match s.relay with
      | .idle => { s with relay := .asking network event }
      | _ => s
  | .relay => s.stepRelay
  | .relayVisit addr =>
      match s.relay with
      | .sending broadcast =>
          if broadcast.left.contains addr then
            { (s.visit broadcast addr).1 with relay := .sending (s.visit broadcast addr).2 }
          else s
      | _ => s
  | .accept conn addr =>
      match s.handlers conn with
      | .absent => s.setHandler conn (.joining addr)
      | _ => s
  | .receive conn message => s.receive conn message
  | .advance conn => s.advance conn
  | .write conn =>
      s.setOutbox conn { s.outboxes conn with waiting := (s.outboxes conn).waiting.tail }
  | .hangUp conn =>
      match s.handlers conn with
      | .absent | .joining _ => s
      | _ => s.setOutbox conn ⟨[], true⟩

end Server

end Websocket

end P2PObserver
