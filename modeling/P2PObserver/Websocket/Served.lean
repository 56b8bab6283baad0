import P2PObserver.Lib.Run
import P2PObserver.Websocket.Queues

/-! # Served or closed

What reaches a client is in order and has no gaps. A broadcast that finds a client too slow takes
its sender off the map, and its handler keeps another, so the client stays connected and hears
nothing more.
-/

namespace P2PObserver

namespace Websocket

variable {A H V : Type} [DecidableEq A]

/-! ## The property -/

/-- Whether anything still holds a sender of the queue: the map of clients or the handler. -/
def Server.HasSender (s : Server A H V) (conn : Nat) : Prop :=
  (∃ addr client, s.clients.lookup addr = some client ∧ client.tx = conn) ∨
    (s.handlers conn).HoldsSender

/-- The writer has ended, or ends because nothing can send to it. -/
def Server.Closing (s : Server A H V) (conn : Nat) : Prop :=
  (s.outboxes conn).closed = true ∨ ¬ s.HasSender conn

/-- A run with the history of the messages to the clients. -/
abbrev Traced (A H V : Type) := Run.Logged (Server A H V) (Mark H V)

namespace Traced

def new : Traced A H V := ⟨.new, []⟩

def step (w : Traced A H V) (e : ServerStep A H V) : Traced A H V :=
  Run.Logged.step Server.step Server.marks w e

/-- What is written to a client is in order, and without a gap, what broadcasts selected for it
    and what its handler had for it; and a client that was too slow, and whose queue is written
    out, is being closed. -/
structure ServedOrClosed (w : Traced A H V) (conn : Nat) : Prop where
  inOrder : ∃ messages : List (Source × Outgoing H V),
    written conn w.history = messages.map Prod.snd ∧
    ofSource .broadcast messages <+: selected conn w.history ∧
    ofSource .handler messages <+: offered conn w.history
  closing : .dropped conn ∈ w.history → (w.state.outboxes conn).waiting = [] →
    w.state.Closing conn

/-- The step drops no client whose writer is still there. -/
def Spares (w : Traced A H V) (e : ServerStep A H V) : Prop :=
  ∀ conn, .dropped conn ∈ w.state.marks e → (w.state.outboxes conn).closed = true

/-! ## Runs -/

structure Sound (w : Traced A H V) : Prop where
  alone : w.state.Alone
  mapped : Mapped w.state.view
  flow : ∀ conn, Flow w.state.view w.history conn
  chosen : ∀ conn, Chosen w.state.view w.history conn
  lasting : ∀ conn, Lasting w.state.view w.history conn

theorem sound_new : (new : Traced A H V).Sound where
  alone := Server.alone_new
  mapped := ⟨(fun _ _ found => nomatch found), (fun _ running => nomatch running)⟩
  flow _ := .of_open rfl rfl rfl
  chosen _ := ⟨fun _ => rfl, List.prefix_rfl, .inl rfl⟩
  lasting _ := ⟨(fun gone => nomatch gone), (fun dropped => nomatch dropped)⟩

theorem Sound.step {w : Traced A H V} (sound : w.Sound) (e : ServerStep A H V) :
    (w.step e).Sound := by
  have move := Server.move sound.alone e
  exact ⟨sound.alone.step e, sound.mapped.move move,
    fun conn => (sound.flow conn).touch (touch move conn),
    fun conn => (sound.chosen conn).move sound.mapped move,
    fun conn => (sound.lasting conn).move sound.mapped move⟩

/-- What is written is always in order and without gaps. -/
theorem Sound.inOrder {w : Traced A H V} (sound : w.Sound) (conn : Nat) :
    ∃ messages : List (Source × Outgoing H V),
      written conn w.history = messages.map Prod.snd ∧
      ofSource .broadcast messages <+: selected conn w.history ∧
      ofSource .handler messages <+: offered conn w.history := by
  obtain ⟨messages, same, part⟩ : ∃ messages : List (Source × Outgoing H V),
      written conn w.history = messages.map Prod.snd ∧ messages <+: queued conn w.history := by
    refine ⟨(queued conn w.history).take (written conn w.history).length, ?_, List.take_prefix ..⟩
    rw [List.map_take]
    exact List.prefix_iff_eq_take.mp (sound.flow conn).written
  have inside (source : Source) :
      ofSource source messages <+: ofSource source (queued conn w.history) :=
    (part.filter _).map _
  exact ⟨messages, same, (inside .broadcast).trans (sound.chosen conn).part,
    (inside .handler).trans (sound.flow conn).ownPart⟩

/-- Every client dropped has lost its writer. -/
def Heard (w : Traced A H V) : Prop :=
  ∀ conn, .dropped conn ∈ w.history → (w.state.outboxes conn).closed = true

theorem Sound.heard_step_iff {w : Traced A H V} (sound : w.Sound) (heard : w.Heard)
    (e : ServerStep A H V) : (w.step e).Heard ↔ w.Spares e := by
  have move := Server.move sound.alone e
  constructor
  · intro after conn dropped
    have closed := after conn (List.mem_append_right _ dropped)
    obtain ⟨-, same, -⟩ := dropped_move move dropped
    exact (congrArg Outbox.closed (congrFun same conn)).symm.trans closed
  · intro spares conn dropped
    rcases List.mem_append.mp dropped with earlier | here
    · exact closed_move move (heard conn earlier)
    · exact closed_move move (spares conn here)

/-! ## A queue written out -/

omit [DecidableEq A] in
theorem holdsSender_of_serving {handler : Handler A H V} {addr : A}
    (serving : handler.standing = .serving addr) : handler.HoldsSender := by
  cases handler <;> first | exact trivial | cases serving

/-- A writer that goes on until its queue is empty changes nothing else. -/
theorem written_out (conn count : Nat) (w : Traced A H V) :
    let after := Run.runFrom step w (List.replicate count (.write conn))
    (after.state.outboxes conn).waiting = (w.state.outboxes conn).waiting.drop count ∧
      (after.state.outboxes conn).closed = (w.state.outboxes conn).closed ∧
      after.state.handlers = w.state.handlers ∧ w.history <+: after.history ∧
      ∀ other, .dropped other ∈ after.history → .dropped other ∈ w.history := by
  induction count generalizing w with
  | zero => exact ⟨rfl, rfl, rfl, List.prefix_rfl, fun _ => id⟩
  | succ count ih =>
      obtain ⟨waiting, closed, handlers, grown, old⟩ := ih (w.step (.write conn))
      rw [List.replicate_succ, Run.runFrom_cons]
      refine ⟨waiting.trans ?_, closed.trans ?_, handlers, (List.prefix_append ..).trans grown, ?_⟩
      · simp [step, Run.Logged.step, Server.step, Server.setOutbox]
      · simp [step, Run.Logged.step, Server.step, Server.setOutbox]
      · intro other dropped
        rcases List.mem_append.mp (old other dropped) with earlier | here
        · exact earlier
        · simp only [Server.marks] at here
          split at here
          · simp at here
          · cases here

theorem Sound.heard_iff {w : Traced A H V} (sound : w.Sound) :
    w.Heard ↔ ∀ conn count, (Run.runFrom Traced.step w
      (List.replicate count (.write conn))).ServedOrClosed conn := by
  constructor
  · intro heard conn count
    obtain ⟨-, closed, -, -, old⟩ := written_out conn count w
    have sound' := Run.runFrom_preserves (P := Sound) Traced.step
      (fun _ e sound => sound.step e) sound (List.replicate count (.write conn))
    exact ⟨sound'.inOrder conn, fun dropped _ =>
      .inl (closed.trans (heard conn (old conn dropped)))⟩
  · intro served conn dropped
    by_contra open_
    obtain ⟨waiting, closed, handlers, grown, -⟩ :=
      written_out conn (w.state.outboxes conn).waiting.length w
    rw [List.drop_length] at waiting
    rcases (served conn _).closing (grown.subset dropped) waiting with ended | short
    · exact open_ (closed.symm.trans ended)
    · refine short (.inr ?_)
      rw [handlers]
      cases standing : (w.state.handlers conn).standing with
      | new => exact absurd standing ((sound.lasting conn).met dropped)
      | gone => exact absurd ((sound.lasting conn).ended standing) open_
      | serving addr => exact holdsSender_of_serving standing

/-- Along a run, and however far a writer goes on from there, clients are served or closed exactly
    when no broadcast drops a client whose writer is still there. -/
theorem run_served_iff (steps : List (ServerStep A H V)) :
    (∀ before, before <+: steps → ∀ conn count,
      (Run.runFrom step (Run.runFrom step new before)
        (List.replicate count (.write conn))).ServedOrClosed conn) ↔
      Run.Along step Spares new steps := by
  have sound (before : List (ServerStep A H V)) : (Run.runFrom step new before).Sound :=
    Run.runFrom_preserves (P := Sound) step (fun _ e sound => sound.step e) sound_new before
  have heard : (∀ before, before <+: steps → (Run.runFrom step new before).Heard) ↔
      Run.Along step Spares new steps := by
    refine Run.prefixes_iff_along_of step (fun _ dropped => nomatch dropped) steps ?_
    intro before e _ heard
    rw [Run.runFrom_append]
    exact (sound before).heard_step_iff heard e
  rw [← heard]
  exact forall₂_congr fun before _ => (sound before).heard_iff.symm

/-! ## A client too slow for pings

It subscribes to pings, hears nothing but keeps its connection. One more ping than its queue holds
takes it off the map, and then its writer sends the whole queue.
-/

namespace TooSlow

def ping : PeerEvent Nat where
  connectionId := 0
  timestampMs := 0
  peerAddr := .ipv4 ⟨[12, 3, 4, 5], rfl⟩ 8333
  userAgent := ""
  transportVersion := some 2
  droppedEvents := 0
  instanceId := 1
  droppedByKind := none
  event := some (.pingRtt ⟨5⟩)

def pings : ClientSubscriptions := { ClientSubscriptions.default with pingRtt := true }

/-- A client joins, gets its hello and subscribes. -/
def join : List (ServerStep Nat Nat Nat) :=
  [.accept 0 7, .advance 0, .advance 0, .write 0, .receive 0 (.subscribe pings), .advance 0]

def relayed : List (ServerStep Nat Nat Nat) :=
  [.event "main" ping, .relay, .relay, .relayVisit 7, .relay]

/-- One ping more than the queue holds. -/
def overflowing : List (ServerStep Nat Nat Nat) :=
  join ++ (List.replicate CLIENT_QUEUE relayed).flatten ++ relayed

/-- The client is subscribed and so many pings wait for it. -/
structure Behind (s : Server Nat Nat Nat) (count : Nat) : Prop where
  poller : s.poller = .idle
  relay : s.relay = .idle
  clients : s.clients = AList.singleton 7 ⟨0, pings⟩
  handler : s.handlers 0 = .reading 7
  outbox : s.outboxes 0 = ⟨List.replicate count (.event "main" ping), false⟩

theorem behind_join : Behind (Run.runFrom Server.step Server.new join) 0 := by
  constructor <;> rfl

/-- A ping gets the lock and finds one client. -/
theorem Behind.locked {s : Server Nat Nat Nat} {count : Nat} (behind : Behind s count) :
    Run.runFrom Server.step s [.event "main" ping, .relay, .relay] =
      { s with relay := .sending ⟨.event "main" ping, [7], []⟩ } := by
  obtain ⟨clients, latest, polls, poller, relay, handlers, outboxes⟩ := s
  obtain ⟨rfl, rfl, rfl, -, -⟩ := behind
  rfl

theorem Behind.visit {s : Server Nat Nat Nat} {count : Nat} (behind : Behind s count)
    (relay : Sender Nat Nat Nat) :
    { s with relay := relay }.visit ⟨.event "main" ping, [7], []⟩ 7 =
      if count < CLIENT_QUEUE then
        ({ s with relay := relay }.put 0 (.event "main" ping), ⟨.event "main" ping, [], []⟩)
      else ({ s with relay := relay }, ⟨.event "main" ping, [], [7]⟩) := by
  have found : { s with relay := relay }.clients.lookup 7 = some ⟨0, pings⟩ := by
    rw [behind.clients]
    rfl
  have wanted : (Outgoing.event "main" ping : Outgoing Nat Nat).wantedBy pings = true := rfl
  have room : { s with relay := relay }.hasRoom 0 = decide (count < CLIENT_QUEUE) := by
    simp [Server.hasRoom, behind.outbox]
  simp only [Server.visit, found, wanted, room, if_true, decide_eq_true_eq]
  rfl

/-- The ping goes into the queue, or the client is found too slow. -/
theorem Behind.visited {s : Server Nat Nat Nat} {count : Nat} (behind : Behind s count) :
    Run.runFrom Server.step s [.event "main" ping, .relay, .relay, .relayVisit 7] =
      if count < CLIENT_QUEUE then
        { s.put 0 (.event "main" ping) with relay := .sending ⟨.event "main" ping, [], []⟩ }
      else { s with relay := .sending ⟨.event "main" ping, [], [7]⟩ } := by
  have split : [.event "main" ping, .relay, .relay, .relayVisit 7] =
      [.event "main" ping, .relay, .relay] ++ [(.relayVisit 7 : ServerStep Nat Nat Nat)] := rfl
  have visit := behind.visit (.sending ⟨.event "main" ping, [7], []⟩)
  rw [split, Run.runFrom_append, behind.locked, Run.runFrom_cons, Run.runFrom_nil]
  by_cases room : count < CLIENT_QUEUE
  · rw [if_pos room] at visit ⊢
    simp only [Server.step, visit]
    rfl
  · rw [if_neg room] at visit ⊢
    simp only [Server.step, visit]
    rfl

theorem relayed_split : relayed =
    [.event "main" ping, .relay, .relay, .relayVisit 7] ++ [.relay] := rfl

theorem Behind.relayed {s : Server Nat Nat Nat} {count : Nat} (behind : Behind s count)
    (room : count < CLIENT_QUEUE) : Behind (Run.runFrom Server.step s relayed) (count + 1) := by
  rw [relayed_split, Run.runFrom_append, behind.visited, if_pos room]
  constructor
  · exact behind.poller
  · rfl
  · exact behind.clients
  · exact behind.handler
  · have outbox : s.outboxes 0 = _ := behind.outbox
    simp [Server.step, Server.stepRelay, Server.dropSlow, Server.put, Server.setOutbox, outbox,
      List.replicate_succ']

theorem behind_full {s : Server Nat Nat Nat} (behind : Behind s 0) : ∀ count, count ≤ CLIENT_QUEUE →
    Behind (Run.runFrom Server.step s (List.replicate count relayed).flatten) count
  | 0, _ => behind
  | count + 1, room => by
      rw [List.replicate_succ', List.flatten_concat, Run.runFrom_append]
      exact (behind_full behind count (Nat.le_of_succ_le room)).relayed room

/-- One ping more takes the client off the map. -/
theorem Behind.dropped {w : Traced Nat Nat Nat} (behind : Behind w.state CLIENT_QUEUE) :
    let after := Run.runFrom Traced.step w TooSlow.relayed
    .dropped 0 ∈ after.history ∧ after.state.outboxes 0 = w.state.outboxes 0 ∧
      after.state.handlers 0 = .reading 7 := by
  have visited : (Run.runFrom Traced.step w
      [.event "main" ping, .relay, .relay, .relayVisit 7]).state =
        { w.state with relay := .sending ⟨.event "main" ping, [], [7]⟩ } := by
    have found := behind.visited
    rw [if_neg (Nat.lt_irrefl _)] at found
    exact (Run.Logged.runFrom_state Server.step Server.marks _ w).trans found
  rw [relayed_split, Run.runFrom_append]
  generalize Run.runFrom Traced.step w
    [.event "main" ping, .relay, .relay, .relayVisit 7] = before at visited
  have dropped : before.state.marks .relay = [.dropped 0] := by
    rw [visited]
    simp only [Server.marks, behind.clients]
    rfl
  refine ⟨List.mem_append_right _ (dropped ▸ List.mem_singleton_self _), ?_, ?_⟩
  all_goals
    simp only [Run.runFrom_cons, Run.runFrom_nil, Traced.step, Run.Logged.step, visited]
  · rfl
  · exact behind.handler

end TooSlow

/-- The client whose queue overflowed has been sent all of it, and its handler still waits for it
    to say something. -/
theorem silent_client :
    ¬ ∀ (steps : List (ServerStep Nat Nat Nat)) (conn : Nat),
      (Run.runFrom step new steps).ServedOrClosed conn := by
  intro served
  have full : TooSlow.Behind (Run.runFrom step new
      (TooSlow.join ++ (List.replicate CLIENT_QUEUE TooSlow.relayed).flatten)).state
      CLIENT_QUEUE := by
    have reached := TooSlow.behind_full TooSlow.behind_join CLIENT_QUEUE le_rfl
    rw [← Run.runFrom_append] at reached
    rw [show (Run.runFrom step new _).state = _ from
      Run.Logged.runFrom_state Server.step Server.marks _ new]
    exact reached
  obtain ⟨dropped, outbox, handler⟩ := full.dropped
  rw [← Run.runFrom_append, ← TooSlow.overflowing] at dropped outbox handler
  obtain ⟨waiting, closed, handlers, grown, -⟩ :=
    written_out 0 CLIENT_QUEUE (Run.runFrom step new TooSlow.overflowing)
  have left := served (TooSlow.overflowing ++ List.replicate CLIENT_QUEUE (.write 0)) 0
  rw [Run.runFrom_append] at left
  have empty : ((Run.runFrom step new TooSlow.overflowing).state.outboxes 0).waiting.drop
      CLIENT_QUEUE = [] := by
    rw [outbox, full.outbox, List.drop_replicate, Nat.sub_self]
    rfl
  rcases left.closing (grown.subset dropped) (waiting.trans empty) with ended | silent
  · rw [closed, outbox, full.outbox] at ended
    cases ended
  · refine silent (.inr ?_)
    rw [handlers, handler]
    trivial

end Traced

end Websocket

end P2PObserver
