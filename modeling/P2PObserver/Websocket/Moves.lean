import P2PObserver.Websocket.Effects

/-! # What becomes of the messages to a client

A broadcast selects clients and queues its message where there is room, a handler queues what it
has for its own client, and a writer sends the queue. Every step of the server is one of a few
moves of these.
-/

namespace P2PObserver

namespace Websocket

/-- Who puts a message in a queue. -/
inductive Source where
  | broadcast
  | handler
  deriving DecidableEq, Repr

/-- What the steps do with the messages to a connection. -/
inductive Mark (H V : Type) where
  /-- Its handler has these to send: the hello, or what it read in the cache. -/
  | offered (conn : Nat) (texts : List (Outgoing H V))
  /-- A broadcast is for its client. -/
  | selected (conn : Nat) (text : Outgoing H V)
  | queued (conn : Nat) (source : Source) (text : Outgoing H V)
  | written (conn : Nat) (text : Outgoing H V)
  /-- A broadcast takes its client off the map as too slow. -/
  | dropped (conn : Nat)

/-- Where a connection stands with the map of clients. -/
inductive Standing (A : Type) where
  | new
  | serving (addr : A)
  | gone

namespace Handler

variable {A H V : Type}

def standing : Handler A H V → Standing A
  | .absent | .joining _ => .new
  | .greeting addr | .reading addr | .subscribing addr _ | .answering addr | .sending addr _
  | .leaving addr => .serving addr
  | .gone => .gone

/-- A handler holds a sender of its queue from before its client is on the map until it ends. -/
def HoldsSender : Handler A H V → Prop
  | .absent | .gone => False
  | _ => True

/-- What the handler has still to send. -/
def pending : Handler A H V → List (Outgoing H V)
  | .greeting _ => [.hello]
  | .sending _ texts => texts
  | _ => []

end Handler

/-- The broadcast a task is at. -/
def Sender.broadcast {A H V : Type} : Sender A H V → Option (Broadcast A H V)
  | .sending broadcast => some broadcast
  | _ => none

/-- What the messages to the clients depend on. -/
structure View (A H V : Type) where
  clients : HashMap A Client
  handlers : Nat → Handler A H V
  outboxes : Nat → Outbox H V
  /-- The broadcast that holds the lock. -/
  progress : Option (Broadcast A H V)

namespace Server

variable {A H V : Type} [DecidableEq A]

def view (s : Server A H V) : View A H V :=
  ⟨s.clients, s.handlers, s.outboxes, s.poller.broadcast.or s.relay.broadcast⟩

def marksVisit (s : Server A H V) (broadcast : Broadcast A H V) (addr : A) : List (Mark H V) :=
  match s.clients.lookup addr with
  | none => []
  | some client =>
      if broadcast.text.wantedBy client.subscriptions then
        if s.hasRoom client.tx then
          [.selected client.tx broadcast.text, .queued client.tx .broadcast broadcast.text]
        else [.selected client.tx broadcast.text]
      else []

/-- The clients a broadcast found too slow leave the map. -/
def marksDrop (clients : HashMap A Client) (slow : List A) : List (Mark H V) :=
  slow.filterMap fun addr => (clients.lookup addr).map fun client => .dropped client.tx

def marks (s : Server A H V) : ServerStep A H V → List (Mark H V)
  | .poller =>
      match s.poller with
      | .sending broadcast =>
          if broadcast.left.isEmpty then marksDrop s.clients broadcast.slow else []
      | _ => []
  | .relay =>
      match s.relay with
      | .sending broadcast =>
          if broadcast.left.isEmpty then marksDrop s.clients broadcast.slow else []
      | _ => []
  | .pollerVisit addr =>
      match s.poller with
      | .sending broadcast =>
          if broadcast.left.contains addr then s.marksVisit broadcast addr else []
      | _ => []
  | .relayVisit addr =>
      match s.relay with
      | .sending broadcast =>
          if broadcast.left.contains addr then s.marksVisit broadcast addr else []
      | _ => []
  | .advance conn =>
      match s.handlers conn with
      | .joining _ => if s.locked then [] else [.offered conn [.hello]]
      | .greeting _ => if s.hasRoom conn then [.queued conn .handler .hello] else []
      | .answering _ => [.offered conn s.cached]
      | .sending _ (text :: _) => if s.hasRoom conn then [.queued conn .handler text] else []
      | _ => []
  | .write conn =>
      match (s.outboxes conn).waiting with
      | text :: _ => [.written conn text]
      | [] => []
  | _ => []

end Server

namespace View

variable {A H V : Type} [DecidableEq A]

def setHandler (v : View A H V) (conn : Nat) (handler : Handler A H V) : View A H V :=
  { v with handlers := fun other => if other = conn then handler else v.handlers other }

def setOutbox (v : View A H V) (conn : Nat) (outbox : Outbox H V) : View A H V :=
  { v with outboxes := fun other => if other = conn then outbox else v.outboxes other }

def put (v : View A H V) (conn : Nat) (text : Outgoing H V) : View A H V :=
  v.setOutbox conn { v.outboxes conn with waiting := (v.outboxes conn).waiting ++ [text] }

/-- What a step can do to the messages and the clients. -/
inductive Move : View A H V → View A H V → List (Mark H V) → Prop where
  | still (v : View A H V) : Move v v []
  | begin {v : View A H V} (text : Outgoing H V) (free : v.progress = none) :
      Move v { v with progress := some ⟨text, v.clients.keys, []⟩ } []
  /-- The broadcast is not for this client. -/
  | pass {v : View A H V} {broadcast : Broadcast A H V} (addr : A)
      (running : v.progress = some broadcast) :
      Move v { v with
        progress := some { broadcast with left := broadcast.left.erase addr } } []
  | feed {v : View A H V} {broadcast : Broadcast A H V} {addr : A} {client : Client}
      (running : v.progress = some broadcast) (inside : addr ∈ broadcast.left)
      (found : v.clients.lookup addr = some client)
      (heard : (v.outboxes client.tx).closed = false) :
      Move v { v.put client.tx broadcast.text with
        progress := some { broadcast with left := broadcast.left.erase addr } }
        [.selected client.tx broadcast.text, .queued client.tx .broadcast broadcast.text]
  | miss {v : View A H V} {broadcast : Broadcast A H V} {addr : A} {client : Client}
      (running : v.progress = some broadcast) (inside : addr ∈ broadcast.left)
      (found : v.clients.lookup addr = some client) :
      Move v { v with progress := some { broadcast with
        left := broadcast.left.erase addr
        slow := addr :: broadcast.slow } } [.selected client.tx broadcast.text]
  | finish {v : View A H V} {broadcast : Broadcast A H V}
      (running : v.progress = some broadcast) :
      Move v { v with
        clients := broadcast.slow.foldl (fun clients addr => clients.erase addr) v.clients
        progress := none } (Server.marksDrop v.clients broadcast.slow)
  /-- A handler changes phase and keeps what it has to send, unless its writer is gone. -/
  | settle {v : View A H V} {conn : Nat} {handler : Handler A H V}
      (standing : handler.standing = (v.handlers conn).standing)
      (pending : (v.outboxes conn).closed = false → handler.pending = (v.handlers conn).pending) :
      Move v (v.setHandler conn handler) []
  | join {v : View A H V} {conn : Nat} {addr : A} (free : v.progress = none)
      (joining : v.handlers conn = .joining addr) :
      Move v ({ v with clients := v.clients.insert addr ⟨conn, .default⟩ }.setHandler conn
        (.greeting addr)) [.offered conn [.hello]]
  | subscribe {v : View A H V} {conn : Nat} {addr : A} {handler : Handler A H V}
      (subs : ClientSubscriptions) (free : v.progress = none)
      (standing : handler.standing = (v.handlers conn).standing)
      (pending : handler.pending = (v.handlers conn).pending) :
      Move v ({ v with
        clients := HashMap.modify v.clients addr fun client =>
          { client with subscriptions := subs } }.setHandler conn handler) []
  | answer {v : View A H V} {conn : Nat} {addr : A} (texts : List (Outgoing H V))
      (answering : v.handlers conn = .answering addr) :
      Move v (v.setHandler conn (.sending addr texts)) [.offered conn texts]
  | push {v : View A H V} {conn : Nat} {handler : Handler A H V} {text : Outgoing H V}
      (heard : (v.outboxes conn).closed = false)
      (standing : handler.standing = (v.handlers conn).standing)
      (pending : (v.handlers conn).pending = text :: handler.pending) :
      Move v ((v.put conn text).setHandler conn handler) [.queued conn .handler text]
  | leave {v : View A H V} {conn : Nat} {addr : A} (free : v.progress = none)
      (leaving : v.handlers conn = .leaving addr) :
      Move v (({ v with clients := v.clients.erase addr }.setOutbox conn ⟨[], true⟩).setHandler
        conn .gone) []
  | write {v : View A H V} {conn : Nat} {text : Outgoing H V} {rest : List (Outgoing H V)}
      (waiting : (v.outboxes conn).waiting = text :: rest) :
      Move v (v.setOutbox conn { v.outboxes conn with waiting := rest }) [.written conn text]
  | hangUp {v : View A H V} (conn : Nat) : Move v (v.setOutbox conn ⟨[], true⟩) []

end View

namespace Server

variable {A H V : Type} [DecidableEq A] {s : Server A H V}

/-- Only one broadcast holds the lock. -/
def Alone (s : Server A H V) : Prop := s.poller.broadcast = none ∨ s.relay.broadcast = none

omit [DecidableEq A] in
theorem locked_eq (s : Server A H V) : s.locked = s.view.progress.isSome := by
  unfold locked view
  cases s.poller <;> cases s.relay <;> rfl

omit [DecidableEq A] in
theorem free_of_not_locked (free : ¬ s.locked = true) : s.view.progress = none := by
  rwa [locked_eq, Option.not_isSome_iff_eq_none] at free

omit [DecidableEq A] in
theorem broadcast_none (free : s.view.progress = none) :
    s.poller.broadcast = none ∧ s.relay.broadcast = none :=
  Option.or_eq_none_iff.mp free

omit [DecidableEq A] in
theorem heard_of_hasRoom {conn : Nat} (room : s.hasRoom conn = true) :
    (s.outboxes conn).closed = false := by
  simp only [hasRoom, Bool.and_eq_true, Bool.not_eq_true'] at room
  exact room.1

/-- A broadcast comes to a client. -/
theorem visit_move {broadcast : Broadcast A H V} {addr : A} (inside : addr ∈ broadcast.left)
    (running : s.view.progress = some broadcast) :
    View.Move s.view
      { (s.visit broadcast addr).1.view with progress := some (s.visit broadcast addr).2 }
      (s.marksVisit broadcast addr) := by
  unfold visit marksVisit
  cases found : s.clients.lookup addr with
  | none => exact .pass addr running
  | some client =>
      by_cases wanted : broadcast.text.wantedBy client.subscriptions
      · simp only [wanted, if_true]
        by_cases room : s.hasRoom client.tx
        · simp only [room, if_true]
          exact .feed running inside found (heard_of_hasRoom room)
        · simp only [room]
          exact .miss running inside found
      · simp only [wanted]
        exact .pass addr running

theorem stepPoller_move (alone : s.Alone) :
    View.Move s.view s.stepPoller.view (s.marks .poller) := by
  cases phase : s.poller with
  | idle | asking network event =>
      simp only [stepPoller, marks, phase]
      exact .still _
  | caching network snapshot =>
      have same : s.stepPoller.view = s.view := by simp [stepPoller, phase, view, Sender.broadcast]
      rw [same]
      simp only [marks, phase]
      exact .still _
  | locking text =>
      simp only [stepPoller, marks, phase]
      split
      · exact .still _
      · rename_i free
        exact .begin text (free_of_not_locked free)
  | sending broadcast =>
      have running : s.view.progress = some broadcast := by simp [view, phase, Sender.broadcast]
      have other : s.relay.broadcast = none := by
        simpa [Alone, phase, Sender.broadcast] using alone
      simp only [stepPoller, marks, phase]
      split
      · have finished := View.Move.finish running
        rw [← other] at finished
        exact finished
      · exact .still _

omit [DecidableEq A] in
/-- The relay's phase, with the poller at no broadcast. -/
theorem view_relay (quiet : s.poller.broadcast = none) (relay : Sender A H V) :
    { s with relay := relay }.view = { s.view with progress := relay.broadcast } := by
  simp only [view, quiet, Option.none_or]

omit [DecidableEq A] in
theorem running_relay {broadcast : Broadcast A H V} (quiet : s.poller.broadcast = none)
    (phase : s.relay = .sending broadcast) : s.view.progress = some broadcast := by
  simp only [view, quiet, Option.none_or]
  rw [phase]
  rfl

theorem stepRelay_move (alone : s.Alone) :
    View.Move s.view s.stepRelay.view (s.marks .relay) := by
  cases phase : s.relay with
  | idle | caching network snapshot =>
      simp only [stepRelay, marks, phase]
      exact .still _
  | asking network event =>
      have same : s.stepRelay.view = s.view := by
        simp only [stepRelay, phase]
        split
        · rfl
        · split <;> simp [view, phase, Sender.broadcast]
      rw [same]
      simp only [marks, phase]
      exact .still _
  | locking text =>
      simp only [stepRelay, marks, phase]
      split
      · exact .still _
      · rename_i free
        have free := free_of_not_locked free
        rw [view_relay (broadcast_none free).1 (.sending ⟨text, s.clients.keys, []⟩)]
        exact .begin text free
  | sending broadcast =>
      have quiet : s.poller.broadcast = none := by
        simpa [Alone, phase, Sender.broadcast] using alone
      have running := running_relay quiet phase
      simp only [stepRelay, marks, phase]
      split
      · have dropped : (s.dropSlow broadcast.slow).poller.broadcast = none := quiet
        rw [view_relay dropped .idle]
        exact .finish running
      · exact .still _

theorem advance_move (conn : Nat) :
    View.Move s.view (s.advance conn).view (s.marks (.advance conn)) := by
  cases phase : s.handlers conn with
  | absent | reading addr | gone =>
      simp only [advance, marks, phase]
      exact .still _
  | joining addr =>
      simp only [advance, marks, phase]
      split
      · exact .still _
      · rename_i free
        exact .join (free_of_not_locked free) phase
  | greeting addr =>
      have standing : (Handler.reading addr : Handler A H V).standing =
          (s.view.handlers conn).standing := by simp only [view, phase, Handler.standing]
      have pending : (s.view.handlers conn).pending =
          .hello :: (Handler.reading addr : Handler A H V).pending := by
        simp only [view, phase, Handler.pending]
      simp only [advance, marks, phase]
      by_cases room : s.hasRoom conn
      · have heard := heard_of_hasRoom room
        simp only [room, heard, if_true]
        exact .push heard standing pending
      · simp only [room]
        split
        · rename_i closed
          exact .settle standing fun heard => absurd (closed.symm.trans heard) (by simp)
        · exact .still _
  | subscribing addr subs =>
      simp only [advance, marks, phase]
      split
      · exact .still _
      · rename_i free
        split
        · refine .settle ?_ ?_ <;> simp [view, phase, Handler.standing, Handler.pending]
        · refine .subscribe subs (free_of_not_locked free) ?_ ?_
          all_goals
            simp only [view, phase]
            split <;> rfl
  | answering addr =>
      simp only [advance, marks, phase]
      exact .answer s.cached phase
  | sending addr texts =>
      have standing (texts' : List (Outgoing H V)) :
          (Handler.sending addr texts' : Handler A H V).standing =
            (s.view.handlers conn).standing := by simp only [view, phase, Handler.standing]
      cases texts with
      | nil =>
          simp only [advance, marks, phase]
          refine .settle (standing []) ?_
          simp [view, phase, Handler.pending]
      | cons text rest =>
          simp only [advance, marks, phase]
          by_cases room : s.hasRoom conn
          · have heard := heard_of_hasRoom room
            simp only [room, heard, if_true]
            refine .push heard (standing rest) ?_
            simp only [view, phase, Handler.pending]
          · simp only [room]
            split
            · rename_i closed
              exact .settle (standing []) fun heard =>
                absurd (closed.symm.trans heard) (by simp)
            · exact .still _
  | leaving addr =>
      simp only [advance, marks, phase]
      split
      · exact .still _
      · rename_i free
        exact .leave (free_of_not_locked free) phase

omit [DecidableEq A] in
theorem setOutbox_self (s : Server A H V) (conn : Nat) :
    s.setOutbox conn (s.outboxes conn) = s := by
  have same : (fun other => if other = conn then s.outboxes conn else s.outboxes other) =
      s.outboxes := by
    funext other
    split
    · rename_i here
      rw [here]
    · rfl
  rw [setOutbox, same]

/-- Every step of the server is one of the moves. -/
theorem move (alone : s.Alone) (e : ServerStep A H V) :
    View.Move s.view (s.step e).view (s.marks e) := by
  cases e with
  | poll network reply =>
      simp only [step, marks]
      split
      · rename_i reply idle
        have same : { s with
            polls := s.polls + 1
            poller := .caching network ⟨s.polls + 1, reply⟩ }.view = s.view := by
          simp only [view, idle, Sender.broadcast]
        rw [same]
        exact .still _
      · exact .still _
  | poller => exact stepPoller_move alone
  | pollerVisit addr =>
      cases phase : s.poller with
      | sending broadcast =>
          have running : s.view.progress = some broadcast := by
            simp [view, phase, Sender.broadcast]
          simp only [step, marks, phase]
          split
          · rename_i inside
            exact visit_move (List.contains_iff_mem.mp inside) running
          · exact .still _
      | _ =>
          simp only [step, marks, phase]
          exact .still _
  | event network event =>
      simp only [step, marks]
      split
      · rename_i idle
        have same : { s with relay := .asking network event }.view = s.view := by
          simp only [view, idle, Sender.broadcast]
        rw [same]
        exact .still _
      · exact .still _
  | relay => exact stepRelay_move alone
  | relayVisit addr =>
      cases phase : s.relay with
      | sending broadcast =>
          have quiet : s.poller.broadcast = none := by
            simpa [Alone, phase, Sender.broadcast] using alone
          have running := running_relay quiet phase
          simp only [step, marks, phase]
          split
          · rename_i inside
            have still : (s.visit broadcast addr).1.poller.broadcast = none := by
              rw [(s.visit_frame broadcast addr).2.2.2.1, quiet]
            rw [view_relay still (.sending (s.visit broadcast addr).2)]
            exact visit_move (List.contains_iff_mem.mp inside) running
          · exact .still _
      | _ =>
          simp only [step, marks, phase]
          exact .still _
  | accept conn addr =>
      simp only [step, marks]
      split
      · rename_i absent
        refine .settle ?_ ?_ <;> simp [view, absent, Handler.standing, Handler.pending]
      · exact .still _
  | receive conn message =>
      simp only [step, receive, marks]
      split
      · rename_i addr reading
        refine .settle ?_ ?_
        all_goals
          simp only [view, reading]
          cases message <;> simp [Handler.standing, Handler.pending]
      · exact .still _
  | advance conn => exact advance_move conn
  | write conn =>
      simp only [step, marks]
      split
      · rename_i text rest waiting
        rw [waiting]
        exact .write waiting
      · rename_i waiting
        have tail : (s.outboxes conn).waiting.tail = (s.outboxes conn).waiting := by
          rw [waiting, List.tail_nil]
        rw [tail, setOutbox_self]
        exact .still _
  | hangUp conn =>
      simp only [step, marks]
      split
      · exact .still _
      · exact .still _
      · exact .hangUp conn

/-! ## One broadcast at a time -/

omit [DecidableEq A] in
theorem alone_new : (new : Server A H V).Alone := .inl rfl

omit [DecidableEq A] in
/-- A task that takes the lock finds the other at no broadcast. -/
theorem alone_of_free (free : ¬ s.locked = true) :
    s.poller.broadcast = none ∧ s.relay.broadcast = none :=
  broadcast_none (free_of_not_locked free)

theorem Alone.step (alone : s.Alone) (e : ServerStep A H V) : (s.step e).Alone := by
  cases e with
  | poll network reply =>
      simp only [Server.step]
      split
      · exact .inl rfl
      · exact alone
  | poller =>
      cases phase : s.poller with
      | idle | asking network event =>
          simp only [Server.step, stepPoller, phase]
          exact alone
      | caching network snapshot =>
          simp only [Server.step, stepPoller, phase]
          exact .inl rfl
      | locking text =>
          simp only [Server.step, stepPoller, phase]
          split
          · exact alone
          · rename_i free
            exact .inr (alone_of_free free).2
      | sending broadcast =>
          simp only [Server.step, stepPoller, phase]
          split
          · exact .inl rfl
          · exact alone
  | relay =>
      cases phase : s.relay with
      | idle | caching network snapshot =>
          simp only [Server.step, stepRelay, phase]
          exact alone
      | asking network event =>
          simp only [Server.step, stepRelay, phase]
          split
          · exact alone
          · split
            · exact .inr rfl
            · exact .inr rfl
      | locking text =>
          simp only [Server.step, stepRelay, phase]
          split
          · exact alone
          · rename_i free
            exact .inl (alone_of_free free).1
      | sending broadcast =>
          simp only [Server.step, stepRelay, phase]
          split
          · exact .inr rfl
          · exact alone
  | pollerVisit addr =>
      cases phase : s.poller with
      | sending broadcast =>
          have other : s.relay.broadcast = none := by
            simpa [Alone, phase, Sender.broadcast] using alone
          simp only [Server.step, phase]
          split
          · refine .inr ?_
            rw [(s.visit_frame broadcast addr).2.2.2.2.1, other]
          · exact alone
      | _ =>
          simp only [Server.step, phase]
          exact alone
  | relayVisit addr =>
      cases phase : s.relay with
      | sending broadcast =>
          have other : s.poller.broadcast = none := by
            simpa [Alone, phase, Sender.broadcast] using alone
          simp only [Server.step, phase]
          split
          · refine .inl ?_
            rw [(s.visit_frame broadcast addr).2.2.2.1, other]
          · exact alone
      | _ =>
          simp only [Server.step, phase]
          exact alone
  | event network event =>
      simp only [Server.step]
      split
      · exact .inr rfl
      · exact alone
  | accept conn addr =>
      simp only [Server.step]
      split <;> exact alone
  | receive conn message =>
      simp only [Server.step, receive]
      split <;> exact alone
  | advance conn =>
      obtain ⟨-, -, poller, relay⟩ := s.advance_frame conn
      rw [Alone, Server.step, poller, relay]
      exact alone
  | write conn => exact alone
  | hangUp conn =>
      simp only [Server.step]
      split <;> exact alone

end Server

end Websocket

end P2PObserver
