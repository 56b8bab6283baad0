import P2PObserver.Websocket.Moves

/-! # The queues of the clients

What a move does to the messages of one connection, and what holds of them from then on: a queue
passes on in order what was put in it, and what was put in it is what broadcasts and its handler
had for the client, up to where it missed one or its writer ended.
-/

namespace P2PObserver

namespace Websocket

/-! ## What the marks say of a connection -/

section History

variable {H V : Type} (conn : Nat)

/-- What its handler had for it: the hello and each time the cached updates. -/
def offered (history : List (Mark H V)) : List (Outgoing H V) :=
  history.flatMap fun
    | .offered conn' texts => if conn' = conn then texts else []
    | _ => []

/-- What broadcasts were for its client. -/
def selected (history : List (Mark H V)) : List (Outgoing H V) :=
  history.filterMap fun
    | .selected conn' text => if conn' = conn then some text else none
    | _ => none

def queued (history : List (Mark H V)) : List (Source × Outgoing H V) :=
  history.filterMap fun
    | .queued conn' source text => if conn' = conn then some (source, text) else none
    | _ => none

def written (history : List (Mark H V)) : List (Outgoing H V) :=
  history.filterMap fun
    | .written conn' text => if conn' = conn then some text else none
    | _ => none

/-- The messages of one source. -/
def ofSource (source : Source) (messages : List (Source × Outgoing H V)) : List (Outgoing H V) :=
  (messages.filter fun message => message.1 = source).map Prod.snd

variable (history marks : List (Mark H V))

@[simp] theorem offered_append :
    offered conn (history ++ marks) = offered conn history ++ offered conn marks :=
  List.flatMap_append ..

@[simp] theorem selected_append :
    selected conn (history ++ marks) = selected conn history ++ selected conn marks :=
  List.filterMap_append ..

@[simp] theorem queued_append :
    queued conn (history ++ marks) = queued conn history ++ queued conn marks :=
  List.filterMap_append ..

@[simp] theorem written_append :
    written conn (history ++ marks) = written conn history ++ written conn marks :=
  List.filterMap_append ..

theorem mem_marksDrop {A : Type} [DecidableEq A] {clients : HashMap A Client} {slow : List A}
    {mark : Mark H V} : mark ∈ Server.marksDrop clients slow ↔
      ∃ addr ∈ slow, ∃ client, clients.lookup addr = some client ∧ .dropped client.tx = mark := by
  simp only [Server.marksDrop, List.mem_filterMap, Option.map_eq_some_iff]

/-- Dropping a client says nothing of its messages. -/
theorem drops_nothing {A : Type} [DecidableEq A] (clients : HashMap A Client) (slow : List A) :
    let drops : List (Mark H V) := Server.marksDrop clients slow
    offered conn drops = [] ∧ selected conn drops = [] ∧ queued conn drops = [] ∧
      written conn drops = [] := by
  refine ⟨List.flatMap_eq_nil_iff.mpr ?_, List.filterMap_eq_nil_iff.mpr ?_,
    List.filterMap_eq_nil_iff.mpr ?_, List.filterMap_eq_nil_iff.mpr ?_⟩
  all_goals
    intro mark inside
    obtain ⟨-, -, -, -, rfl⟩ := mem_marksDrop.mp inside
    rfl

end History

open View

variable {A H V : Type} [DecidableEq A]

/-! ## The invariant -/

/-- No broadcast reaches the client any more, or the one at work has found it too slow. -/
def View.Missed (v : View A H V) (conn : Nat) : Prop :=
  (v.outboxes conn).closed = true ∨ ∀ addr client, v.clients.lookup addr = some client →
    client.tx = conn → ∃ broadcast, v.progress = some broadcast ∧ addr ∈ broadcast.slow

/-- Who is on the map, and what the broadcast at work has come to. -/
structure Mapped (v : View A H V) : Prop where
  serving : ∀ addr client, v.clients.lookup addr = some client →
    (v.handlers client.tx).standing = .serving addr
  passing : ∀ broadcast, v.progress = some broadcast →
    broadcast.left.Nodup ∧ ∀ addr ∈ broadcast.slow, addr ∉ broadcast.left

namespace Mapped

/-- New subscriptions leave a client its sender. -/
theorem lookup_modify_tx {clients : HashMap A Client} {addr addr' : A} {client : Client}
    {subs : ClientSubscriptions}
    (found : (HashMap.modify clients addr' fun client =>
      { client with subscriptions := subs }).lookup addr = some client) :
    ∃ client', clients.lookup addr = some client' ∧ client'.tx = client.tx := by
  rw [HashMap.lookup_modify] at found
  split at found
  · rename_i here
    obtain ⟨client', old, rfl⟩ := Option.map_eq_some_iff.mp found
    exact ⟨client', here ▸ old, rfl⟩
  · exact ⟨client, found, rfl⟩

variable {v v' : View A H V} {marks : List (Mark H V)}

omit [DecidableEq A] in
/-- A handler that changes phase and not its standing. -/
theorem standing_setHandler {conn : Nat} {handler : Handler A H V}
    (same : handler.standing = (v.handlers conn).standing) (other : Nat) :
    ((v.setHandler conn handler).handlers other).standing = (v.handlers other).standing := by
  simp only [View.setHandler]
  split
  · rename_i here
    rw [same, here]
  · rfl

theorem serving_move (mapped : Mapped v) (move : Move v v' marks) {addr : A}
    {client : Client} (found : v'.clients.lookup addr = some client) :
    (v'.handlers client.tx).standing = .serving addr := by
  cases move with
  | still | begin | pass | feed | miss | write | hangUp => exact mapped.serving addr client found
  | finish running =>
      exact mapped.serving addr client (HashMap.lookup_foldl_erase.mp found).2
  | settle standing pending =>
      rw [standing_setHandler standing]
      exact mapped.serving addr client found
  | @join conn addr' free joining =>
      simp only [View.setHandler]
      rcases HashMap.lookup_insert_iff.mp found with ⟨rfl, rfl⟩ | ⟨other, old⟩
      · rw [if_pos rfl]
        rfl
      · have before := mapped.serving addr client old
        split
        · rename_i same
          rw [same, joining] at before
          cases before
        · exact before
  | @subscribe conn addr' handler subs free standing pending =>
      obtain ⟨client', old, same⟩ := lookup_modify_tx found
      have stays := standing_setHandler (v := v) standing client.tx
      rw [← same] at stays ⊢
      exact stays.trans (mapped.serving addr client' old)
  | answer texts answering =>
      have standing : (Handler.sending _ texts).standing = (v.handlers _).standing :=
        (congrArg Handler.standing answering).symm
      rw [standing_setHandler standing]
      exact mapped.serving addr client found
  | push heard standing pending =>
      exact (standing_setHandler (v := v) standing client.tx).trans
        (mapped.serving addr client found)
  | @leave conn addr' free leaving =>
      obtain ⟨other, old⟩ := HashMap.lookup_erase_iff.mp found
      have before := mapped.serving addr client old
      simp only [View.setHandler]
      split
      · rename_i same
        rw [same, leaving] at before
        cases before
        exact absurd rfl other
      · exact before

theorem move (mapped : Mapped v) (move : Move v v' marks) : Mapped v' where
  serving _ _ found := mapped.serving_move move found
  passing := by
    intro broadcast' running'
    cases move with
    | still | settle | answer | push | write | hangUp => exact mapped.passing broadcast' running'
    | join free | subscribe _ free | leave free => exact mapped.passing broadcast' running'
    | begin text free =>
        cases running'
        exact ⟨AList.keys_nodup _, fun _ slow => absurd slow (List.not_mem_nil)⟩
    | pass addr running =>
        cases running'
        obtain ⟨distinct, apart⟩ := mapped.passing _ running
        exact ⟨distinct.erase addr, fun addr' slow left =>
          apart addr' slow (List.mem_of_mem_erase left)⟩
    | @feed broadcast addr client running inside found heard =>
        cases running'
        obtain ⟨distinct, apart⟩ := mapped.passing _ running
        exact ⟨distinct.erase addr, fun addr' slow left =>
          apart addr' slow (List.mem_of_mem_erase left)⟩
    | @miss broadcast addr client running inside found =>
        cases running'
        obtain ⟨distinct, apart⟩ := mapped.passing _ running
        refine ⟨distinct.erase addr, fun addr' slow left => ?_⟩
        rcases List.mem_cons.mp slow with rfl | earlier
        · exact distinct.not_mem_erase left
        · exact apart addr' earlier (List.mem_of_mem_erase left)
    | finish running => cases running'

end Mapped

/-- What marks say of a connection: what was offered, selected, queued and written. -/
def Said (conn : Nat) (marks : List (Mark H V)) (offers selects : List (Outgoing H V))
    (queues : List (Source × Outgoing H V)) (writes : List (Outgoing H V)) : Prop :=
  offered conn marks = offers ∧ selected conn marks = selects ∧ queued conn marks = queues ∧
    written conn marks = writes

/-- What a move does to the messages of one connection. -/
inductive Touch (conn : Nat) (v v' : View A H V) (marks : List (Mark H V)) : Prop
  | quiet (outbox : v'.outboxes conn = v.outboxes conn)
      (pending : (v.outboxes conn).closed = false →
        (v'.handlers conn).pending = (v.handlers conn).pending)
      (said : Said conn marks [] [] [] [])
  | offer (texts : List (Outgoing H V)) (outbox : v'.outboxes conn = v.outboxes conn)
      (before : (v.handlers conn).pending = []) (pending : (v'.handlers conn).pending = texts)
      (said : Said conn marks texts [] [] [])
  | feed (text : Outgoing H V) (heard : (v.outboxes conn).closed = false)
      (outbox : v'.outboxes conn = ⟨(v.outboxes conn).waiting ++ [text], false⟩)
      (pending : (v'.handlers conn).pending = (v.handlers conn).pending)
      (said : Said conn marks [] [text] [(.broadcast, text)] [])
  | miss (text : Outgoing H V) (outbox : v'.outboxes conn = v.outboxes conn)
      (pending : (v'.handlers conn).pending = (v.handlers conn).pending)
      (said : Said conn marks [] [text] [] [])
  | push (text : Outgoing H V) (heard : (v.outboxes conn).closed = false)
      (outbox : v'.outboxes conn = ⟨(v.outboxes conn).waiting ++ [text], false⟩)
      (pending : (v.handlers conn).pending = text :: (v'.handlers conn).pending)
      (said : Said conn marks [] [] [(.handler, text)] [])
  | write (text : Outgoing H V)
      (waiting : (v.outboxes conn).waiting = text :: (v'.outboxes conn).waiting)
      (closed : (v'.outboxes conn).closed = (v.outboxes conn).closed)
      (pending : (v'.handlers conn).pending = (v.handlers conn).pending)
      (said : Said conn marks [] [] [] [text])
  | hangUp (outbox : v'.outboxes conn = ⟨[], true⟩) (said : Said conn marks [] [] [] [])

section Touch

variable {v v' : View A H V} {marks : List (Mark H V)}

omit [DecidableEq A] in
theorem touch_setHandler {conn : Nat} {handler : Handler A H V}
    (pending : (v.outboxes conn).closed = false → handler.pending = (v.handlers conn).pending)
    (other : Nat) (same : v'.outboxes other = v.outboxes other)
    (handlers : v'.handlers = (v.setHandler conn handler).handlers) : Touch other v v' [] := by
  refine .quiet same ?_ ⟨rfl, rfl, rfl, rfl⟩
  intro heard
  simp only [handlers, View.setHandler]
  split
  · rename_i here
    subst here
    exact pending heard
  · rfl

theorem touch (move : Move v v' marks) (conn : Nat) : Touch conn v v' marks := by
  have silent : Said conn ([] : List (Mark H V)) [] [] [] [] := ⟨rfl, rfl, rfl, rfl⟩
  cases move with
  | still | begin | pass => exact .quiet rfl (fun _ => rfl) silent
  | @feed broadcast addr client running inside found heard =>
      by_cases here : client.tx = conn
      · subst here
        refine .feed broadcast.text heard ?_ rfl ?_
        · simp [View.put, View.setOutbox, heard]
        · simp [Said, offered, selected, queued, written]
      · refine .quiet ?_ (fun _ => rfl) ?_
        · simp [View.put, View.setOutbox, Ne.symm here]
        · simp [Said, offered, selected, queued, written, here]
  | @miss broadcast addr client running inside found =>
      by_cases here : client.tx = conn
      · refine .miss broadcast.text rfl rfl ?_
        simp [Said, offered, selected, queued, written, here]
      · refine .quiet rfl (fun _ => rfl) ?_
        simp [Said, offered, selected, queued, written, here]
  | finish running => exact .quiet rfl (fun _ => rfl) (drops_nothing conn ..)
  | settle standing pending => exact touch_setHandler pending conn rfl rfl
  | @join conn' addr free joining =>
      by_cases here : conn' = conn
      · subst here
        refine .offer [.hello] rfl ?_ ?_ ?_
        · simp [joining, Handler.pending]
        · simp [View.setHandler, Handler.pending]
        · simp [Said, offered, selected, queued, written]
      · refine .quiet rfl (fun _ => ?_) ?_
        · simp [View.setHandler, Ne.symm here]
        · simp [Said, offered, selected, queued, written, here]
  | subscribe subs free standing pending => exact touch_setHandler (fun _ => pending) conn rfl rfl
  | @answer conn' addr texts answering =>
      by_cases here : conn' = conn
      · subst here
        refine .offer texts rfl ?_ ?_ ?_
        · simp [answering, Handler.pending]
        · simp [View.setHandler, Handler.pending]
        · simp [Said, offered, selected, queued, written]
      · refine .quiet rfl (fun _ => ?_) ?_
        · simp [View.setHandler, Ne.symm here]
        · simp [Said, offered, selected, queued, written, here]
  | @push conn' handler text heard standing pending =>
      by_cases here : conn' = conn
      · subst here
        refine .push text heard ?_ ?_ ?_
        · simp [View.setHandler, View.put, View.setOutbox, heard]
        · simp [View.setHandler, pending]
        · simp [Said, offered, selected, queued, written]
      · refine .quiet ?_ (fun _ => ?_) ?_
        · simp [View.setHandler, View.put, View.setOutbox, Ne.symm here]
        · simp [View.setHandler, View.put, View.setOutbox, Ne.symm here]
        · simp [Said, offered, selected, queued, written, here]
  | @leave conn' addr free leaving =>
      by_cases here : conn' = conn
      · subst here
        refine .hangUp ?_ silent
        simp [View.setHandler, View.setOutbox]
      · refine .quiet ?_ (fun _ => ?_) silent
        · simp [View.setHandler, View.setOutbox, Ne.symm here]
        · simp [View.setHandler, View.setOutbox, Ne.symm here]
  | @write conn' text rest waiting =>
      by_cases here : conn' = conn
      · subst here
        refine .write text ?_ ?_ rfl ?_
        · simp [View.setOutbox, waiting]
        · simp [View.setOutbox]
        · simp [Said, offered, selected, queued, written]
      · refine .quiet ?_ (fun _ => rfl) ?_
        · simp [View.setOutbox, Ne.symm here]
        · simp [Said, offered, selected, queued, written, here]
  | hangUp conn' =>
      by_cases here : conn' = conn
      · subst here
        refine .hangUp ?_ silent
        simp [View.setOutbox]
      · refine .quiet ?_ (fun _ => rfl) silent
        simp [View.setOutbox, Ne.symm here]

end Touch

/-! ## One queue -/

omit [DecidableEq A] in
theorem ofSource_append (source : Source) (messages more : List (Source × Outgoing H V)) :
    ofSource source (messages ++ more) = ofSource source messages ++ ofSource source more := by
  simp only [ofSource, List.filter_append, List.map_append]

/-- What went into a queue is written or waits, and what its handler had is in the queue or to
    come; a writer that ends leaves the rest of both. -/
structure Flow (v : View A H V) (history : List (Mark H V)) (conn : Nat) : Prop where
  queue : (v.outboxes conn).closed = false →
    (queued conn history).map Prod.snd = written conn history ++ (v.outboxes conn).waiting
  lost : (v.outboxes conn).closed = true → (v.outboxes conn).waiting = []
  written : written conn history <+: (queued conn history).map Prod.snd
  own : (v.outboxes conn).closed = false → offered conn history =
    ofSource .handler (queued conn history) ++ (v.handlers conn).pending
  ownPart : ofSource .handler (queued conn history) <+: offered conn history

variable {v v' : View A H V} {history marks : List (Mark H V)} {conn : Nat}

omit [DecidableEq A] in
theorem Flow.of_open (heard : (v.outboxes conn).closed = false)
    (queue : (queued conn history).map Prod.snd =
      Websocket.written conn history ++ (v.outboxes conn).waiting)
    (own : offered conn history =
      ofSource .handler (queued conn history) ++ (v.handlers conn).pending) :
    Flow v history conn where
  queue _ := queue
  lost closed := by simp [heard] at closed
  written := queue ▸ List.prefix_append ..
  own _ := own
  ownPart := own ▸ List.prefix_append ..

omit [DecidableEq A] in
/-- A queue left alone, while its handler may be offered more. -/
theorem Flow.of_same (flow : Flow v history conn) {texts : List (Outgoing H V)}
    (outbox : v'.outboxes conn = v.outboxes conn)
    (pending : (v.outboxes conn).closed = false →
      (v'.handlers conn).pending = (v.handlers conn).pending ++ texts)
    (offers : offered conn marks = texts) (queues : queued conn marks = [])
    (writes : Websocket.written conn marks = []) : Flow v' (history ++ marks) conn := by
  constructor <;>
    simp only [offered_append, queued_append, written_append, offers, queues, writes,
      List.append_nil, outbox]
  · exact flow.queue
  · exact flow.lost
  · exact flow.written
  · intro heard
    rw [pending heard, flow.own heard, List.append_assoc]
  · exact flow.ownPart.trans (List.prefix_append ..)

omit [DecidableEq A] in
theorem Flow.touch (flow : Flow v history conn) (touch : Touch conn v v' marks) :
    Flow v' (history ++ marks) conn := by
  cases touch with
  | quiet outbox pending said =>
      obtain ⟨offers, -, queues, writes⟩ := said
      refine flow.of_same outbox (fun heard => ?_) offers queues writes
      rw [pending heard, List.append_nil]
  | miss text outbox pending said =>
      obtain ⟨offers, -, queues, writes⟩ := said
      refine flow.of_same outbox (fun _ => ?_) offers queues writes
      rw [pending, List.append_nil]
  | offer texts outbox before pending said =>
      obtain ⟨offers, -, queues, writes⟩ := said
      refine flow.of_same outbox (fun _ => ?_) offers queues writes
      rw [pending, before, List.nil_append]
  | feed text heard outbox pending said =>
      obtain ⟨offers, -, queues, writes⟩ := said
      apply Flow.of_open
      · rw [outbox]
      · rw [queued_append, written_append, queues, writes, outbox, List.map_append,
          flow.queue heard, List.append_nil, List.append_assoc]
        rfl
      · rw [offered_append, queued_append, offers, queues, ofSource_append, pending,
          flow.own heard, List.append_nil]
        simp [ofSource]
  | push text heard outbox pending said =>
      obtain ⟨offers, -, queues, writes⟩ := said
      apply Flow.of_open
      · rw [outbox]
      · rw [queued_append, written_append, queues, writes, outbox, List.map_append,
          flow.queue heard, List.append_nil, List.append_assoc]
        rfl
      · rw [offered_append, queued_append, offers, queues, ofSource_append, flow.own heard,
          pending, List.append_nil, List.append_assoc]
        rfl
  | write text waiting closed pending said =>
      obtain ⟨offers, -, queues, writes⟩ := said
      have heard : (v.outboxes conn).closed = false := by
        by_contra ended
        have empty := flow.lost (by simpa using ended)
        rw [waiting] at empty
        cases empty
      apply Flow.of_open
      · rw [closed, heard]
      · rw [queued_append, written_append, queues, writes, List.append_nil, flow.queue heard,
          waiting, List.append_assoc]
        rfl
      · rw [offered_append, queued_append, offers, queues, List.append_nil, List.append_nil,
          pending, flow.own heard]
  | hangUp outbox said =>
      obtain ⟨offers, -, queues, writes⟩ := said
      constructor <;>
        simp only [offered_append, queued_append, written_append, offers, queues, writes,
          List.append_nil, outbox]
      · intro heard
        cases heard
      · exact fun _ => trivial
      · exact flow.written
      · intro heard
        cases heard
      · exact flow.ownPart

/-! ## What broadcasts select -/

/-- What a move selects for a connection. -/
inductive Choice (conn : Nat) (v v' : View A H V) (marks : List (Mark H V)) : Prop
  | none (selects : selected conn marks = [])
      (queues : ofSource .broadcast (queued conn marks) = [])
  | feed {broadcast : Broadcast A H V} {addr : A} {client : Client}
      (running : v.progress = some broadcast) (inside : addr ∈ broadcast.left)
      (found : v.clients.lookup addr = some client) (tx : client.tx = conn)
      (heard : (v.outboxes conn).closed = false)
      (selects : selected conn marks = [broadcast.text])
      (queues : ofSource .broadcast (queued conn marks) = [broadcast.text])
  | miss {after : Broadcast A H V} {addr : A} {client : Client} (text : Outgoing H V)
      (found : v.clients.lookup addr = some client) (tx : client.tx = conn)
      (selects : selected conn marks = [text])
      (queues : ofSource .broadcast (queued conn marks) = [])
      (clients : v'.clients = v.clients) (running : v'.progress = some after)
      (slow : addr ∈ after.slow)

theorem choice (move : Move v v' marks) (conn : Nat) : Choice conn v v' marks := by
  cases move with
  | still | begin | pass | settle | subscribe | leave | hangUp => exact .none rfl rfl
  | @feed broadcast addr client running inside found heard =>
      by_cases here : client.tx = conn
      · refine .feed running inside found here (here ▸ heard) ?_ ?_
        · simp [selected, here]
        · simp [queued, ofSource, here]
      · refine .none ?_ ?_
        · simp [selected, here]
        · simp [queued, ofSource, here]
  | @miss broadcast addr client running inside found =>
      by_cases here : client.tx = conn
      · refine .miss broadcast.text found here ?_ ?_ rfl rfl List.mem_cons_self
        · simp [selected, here]
        · simp [queued, ofSource]
      · refine .none ?_ ?_
        · simp [selected, here]
        · simp [queued, ofSource]
  | finish running =>
      obtain ⟨-, selects, queues, -⟩ := drops_nothing (H := H) (V := V) conn v.clients _
      refine .none selects ?_
      rw [queues]
      rfl
  | join free joining => exact .none rfl rfl
  | answer texts answering => exact .none rfl rfl
  | @push conn' handler text heard standing pending =>
      refine .none rfl ?_
      by_cases here : conn' = conn <;> simp [queued, ofSource, here]
  | write waiting => exact .none rfl rfl

theorem closed_move (move : Move v v' marks) (closed : (v.outboxes conn).closed = true) :
    (v'.outboxes conn).closed = true := by
  cases touch move conn with
  | quiet outbox | offer _ outbox | miss _ outbox => rw [outbox, closed]
  | feed _ heard | push _ heard => simp [closed] at heard
  | write _ _ same => rw [same, closed]
  | hangUp outbox => rw [outbox]

theorem View.Missed.move (missed : v.Missed conn) (met : (v.handlers conn).standing ≠ .new)
    (move : Move v v' marks) : v'.Missed conn := by
  rcases missed with closed | slow
  · exact .inl (closed_move move closed)
  · refine .inr fun addr client found tx => ?_
    cases move with
    | still | settle | answer | push | write | hangUp => exact slow addr client found tx
    | begin text free =>
        obtain ⟨broadcast, running, -⟩ := slow addr client found tx
        simp [free] at running
    | pass addr' running' | feed running' =>
        obtain ⟨broadcast, running, inside⟩ := slow addr client found tx
        cases running.symm.trans running'
        exact ⟨_, rfl, inside⟩
    | miss running' =>
        obtain ⟨broadcast, running, inside⟩ := slow addr client found tx
        cases running.symm.trans running'
        exact ⟨_, rfl, List.mem_cons_of_mem _ inside⟩
    | finish running' =>
        obtain ⟨other, old⟩ := HashMap.lookup_foldl_erase.mp found
        obtain ⟨broadcast, running, inside⟩ := slow addr client old tx
        cases running.symm.trans running'
        exact absurd inside other
    | @join conn' addr' free joining =>
        rcases HashMap.lookup_insert_iff.mp found with ⟨-, rfl⟩ | ⟨-, old⟩
        · cases tx
          exact absurd (congrArg Handler.standing joining) met
        · exact slow addr client old tx
    | subscribe subs free =>
        obtain ⟨client', old, same⟩ := Mapped.lookup_modify_tx found
        exact slow addr client' old (same.trans tx)
    | leave free leaving =>
        exact slow addr client (HashMap.lookup_erase_iff.mp found).2 tx

/-- What a queue has of the broadcasts: all that were for its client, or all up to one that was
    missed. -/
structure Chosen (v : View A H V) (history : List (Mark H V)) (conn : Nat) : Prop where
  unheard : (v.handlers conn).standing = .new → selected conn history = []
  part : ofSource .broadcast (queued conn history) <+: selected conn history
  missed : ofSource .broadcast (queued conn history) = selected conn history ∨ v.Missed conn

theorem standing_new (move : Move v v' marks) (new : (v'.handlers conn).standing = .new) :
    (v.handlers conn).standing = .new := by
  cases move with
  | still | begin | pass | feed | miss | finish | write | hangUp => exact new
  | settle standing => exact (Mapped.standing_setHandler standing conn).symm.trans new
  | @join conn' addr free joining =>
      simp only [View.setHandler] at new
      split at new
      · cases new
      · exact new
  | subscribe subs free standing =>
      exact (Mapped.standing_setHandler (v := v) standing conn).symm.trans new
  | answer texts answering =>
      have standing : (Handler.sending _ texts).standing = (v.handlers _).standing :=
        (congrArg Handler.standing answering).symm
      rwa [Mapped.standing_setHandler standing] at new
  | push heard standing =>
      exact (Mapped.standing_setHandler (v := v) standing conn).symm.trans new
  | leave free leaving =>
      simp only [View.setHandler] at new
      split at new
      · cases new
      · exact new

theorem Chosen.move (chosen : Chosen v history conn) (mapped : Mapped v) (move : Move v v' marks) :
    Chosen v' (history ++ marks) conn := by
  have onMap {addr : A} {client : Client} (found : v.clients.lookup addr = some client)
      (tx : client.tx = conn) : (v.handlers conn).standing = .serving addr :=
    tx ▸ mapped.serving addr client found
  cases choice move conn with
  | none selects queues =>
      constructor
      · intro new
        rw [selected_append, chosen.unheard (standing_new move new), selects, List.append_nil]
      · rw [selected_append, queued_append, ofSource_append, selects, queues, List.append_nil,
          List.append_nil]
        exact chosen.part
      · rw [selected_append, queued_append, ofSource_append, selects, queues, List.append_nil,
          List.append_nil]
        rcases chosen.missed with all | missed
        · exact .inl all
        · by_cases new : (v.handlers conn).standing = .new
          · have part := chosen.part
            rw [chosen.unheard new, List.prefix_nil] at part
            exact .inl (part.trans (chosen.unheard new).symm)
          · exact .inr (missed.move new move)
  | feed running inside found tx heard selects queues =>
      have all : ofSource .broadcast (queued conn history) = selected conn history := by
        rcases chosen.missed with all | closed | slow
        · exact all
        · simp [heard] at closed
        · obtain ⟨broadcast, running', member⟩ := slow _ _ found tx
          cases running'.symm.trans running
          exact absurd inside ((mapped.passing _ running).2 _ member)
      have still : ofSource .broadcast (queued conn (history ++ marks)) =
          selected conn (history ++ marks) := by
        rw [selected_append, queued_append, ofSource_append, selects, queues, all]
      refine ⟨fun new => ?_, still ▸ List.prefix_rfl, .inl still⟩
      have old := standing_new move new
      rw [onMap found tx] at old
      cases old
  | miss text found tx selects queues clients running slow =>
      constructor
      · intro new
        have old := standing_new move new
        rw [onMap found tx] at old
        cases old
      · rw [selected_append, queued_append, ofSource_append, queues, List.append_nil]
        exact chosen.part.trans (List.prefix_append ..)
      · refine .inr (.inr fun addr client found' tx' => ⟨_, running, ?_⟩)
        rw [clients] at found'
        have same := (onMap found tx).symm.trans (onMap found' tx')
        cases same
        exact slow

/-! ## Handlers that have ended -/

/-- A handler that has ended has ended its writer, and only a client on the map is dropped. -/
structure Lasting (v : View A H V) (history : List (Mark H V)) (conn : Nat) : Prop where
  ended : (v.handlers conn).standing = .gone → (v.outboxes conn).closed = true
  met : .dropped conn ∈ history → (v.handlers conn).standing ≠ .new

/-- The only move that drops is the end of a broadcast. -/
theorem dropped_move (move : Move v v' marks) (dropped : .dropped conn ∈ marks) :
    v'.handlers = v.handlers ∧ v'.outboxes = v.outboxes ∧
      ∃ addr client, v.clients.lookup addr = some client ∧ client.tx = conn := by
  cases move with
  | finish running =>
      obtain ⟨addr, -, client, found, same⟩ := mem_marksDrop.mp dropped
      cases same
      exact ⟨rfl, rfl, addr, client, found, rfl⟩
  | still | begin | pass | settle | subscribe | leave | hangUp => cases dropped
  | feed | miss | join | answer | push | write => simp at dropped

theorem standing_gone (move : Move v v' marks) (gone : (v'.handlers conn).standing = .gone) :
    (v.handlers conn).standing = .gone ∨ (v'.outboxes conn).closed = true := by
  cases move with
  | still | begin | pass | feed | miss | finish | write | hangUp => exact .inl gone
  | settle standing => exact .inl ((Mapped.standing_setHandler standing conn).symm.trans gone)
  | @join conn' addr free joining =>
      simp only [View.setHandler] at gone
      split at gone
      · cases gone
      · exact .inl gone
  | subscribe subs free standing =>
      exact .inl ((Mapped.standing_setHandler (v := v) standing conn).symm.trans gone)
  | answer texts answering =>
      have standing : (Handler.sending _ texts).standing = (v.handlers _).standing :=
        (congrArg Handler.standing answering).symm
      rw [Mapped.standing_setHandler standing] at gone
      exact .inl gone
  | push heard standing =>
      exact .inl ((Mapped.standing_setHandler (v := v) standing conn).symm.trans gone)
  | @leave conn' addr free leaving =>
      by_cases here : conn = conn'
      · exact .inr (by simp [View.setHandler, View.setOutbox, here])
      · simp only [View.setHandler, if_neg here] at gone
        exact .inl gone

theorem Lasting.move (lasting : Lasting v history conn) (mapped : Mapped v)
    (move : Move v v' marks) : Lasting v' (history ++ marks) conn where
  ended gone := by
    rcases standing_gone move gone with before | closed
    · exact closed_move move (lasting.ended before)
    · exact closed
  met dropped new := by
    have before := standing_new move new
    rcases List.mem_append.mp dropped with earlier | here
    · exact lasting.met earlier before
    · obtain ⟨-, -, addr, client, found, rfl⟩ := dropped_move move here
      rw [mapped.serving addr client found] at before
      cases before

end Websocket

end P2PObserver
