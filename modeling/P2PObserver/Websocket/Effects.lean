import P2PObserver.Websocket.Server

/-! # What a step does to the status updates

A poll replaces the cached update, a handler reads the cache, and a broadcast or a handler
puts an update in a queue. Everything else a step does leaves them alone.
-/

namespace P2PObserver

namespace Websocket

/-- What the steps do to the status updates. -/
inductive Report (V : Type) where
  /-- `poll_status` put a snapshot in the cache. -/
  | cached (network : String) (poll : Nat)
  /-- The handler of the connection read the cache. -/
  | read (conn : Nat)
  /-- A snapshot went into the queue of the connection. -/
  | put (conn : Nat) (network : String) (snapshot : Snapshot V)

namespace Server

variable {A H V : Type} [DecidableEq A]

def reportPut (conn : Nat) : Outgoing H V → List (Report V)
  | .status network snapshot => [.put conn network snapshot]
  | _ => []

def reportVisit (s : Server A H V) (broadcast : Broadcast A H V) (addr : A) : List (Report V) :=
  match s.clients.lookup addr with
  | none => []
  | some client =>
      if broadcast.text.wantedBy client.subscriptions && s.hasRoom client.tx then
        reportPut client.tx broadcast.text
      else []

def report (s : Server A H V) : ServerStep A H V → List (Report V)
  | .poller =>
      match s.poller with
      | .caching network snapshot => [.cached network snapshot.poll]
      | _ => []
  | .pollerVisit addr =>
      match s.poller with
      | .sending broadcast =>
          if broadcast.left.contains addr then s.reportVisit broadcast addr else []
      | _ => []
  | .relayVisit addr =>
      match s.relay with
      | .sending broadcast =>
          if broadcast.left.contains addr then s.reportVisit broadcast addr else []
      | _ => []
  | .advance conn =>
      match s.handlers conn with
      | .answering _ => [.read conn]
      | .sending _ (text :: _) => if s.hasRoom conn then reportPut conn text else []
      | _ => []
  | _ => []

/-- The message a task is about to broadcast or broadcasting. -/
def outbound : Sender A H V → Option (Outgoing H V)
  | .locking text => some text
  | .sending broadcast => some broadcast.text
  | _ => none

/-- The newest snapshot is the poller's, then the cache's, and only the poller broadcasts
    snapshots, after it has put them in the cache. -/
structure Fresh (s : Server A H V) : Prop where
  caching : ∀ network snapshot, s.poller = .caching network snapshot →
    snapshot.poll = s.polls ∧
      ∀ other current, s.latestStatus.lookup other = some current → current.poll < snapshot.poll
  cached : ∀ network current, s.latestStatus.lookup network = some current →
    current.poll ≤ s.polls
  poller : ∀ network snapshot, outbound s.poller = some (.status network snapshot) →
    s.latestStatus.lookup network = some snapshot
  relay : ∀ network snapshot, outbound s.relay ≠ some (.status network snapshot)

/-- The status updates only change in these ways. -/
inductive Effect (s : Server A H V) (e : ServerStep A H V) (s' : Server A H V) :
    List (Report V) → Prop where
  | quiet (latest : s'.latestStatus = s.latestStatus)
      (handlers : ∀ conn addr texts, s'.handlers conn = .sending addr texts →
        ∃ more, s.handlers conn = .sending addr (more ++ texts)) : Effect s e s' []
  | cache (network : String) (snapshot : Snapshot V)
      (poller : s.poller = .caching network snapshot)
      (latest : s'.latestStatus = s.latestStatus.insert network snapshot)
      (handlers : s'.handlers = s.handlers) : Effect s e s' [.cached network snapshot.poll]
  | read (conn : Nat) (addr : A) (latest : s'.latestStatus = s.latestStatus)
      (answering : s.handlers conn = .answering addr)
      (handlers : s'.handlers = fun other =>
        if other = conn then .sending addr s.cached else s.handlers other) :
      Effect s e s' [.read conn]
  | broadcast (conn : Nat) (network : String) (snapshot : Snapshot V)
      (latest : s'.latestStatus = s.latestStatus) (handlers : s'.handlers = s.handlers)
      (current : s.latestStatus.lookup network = some snapshot)
      (notOwn : ∀ other, e ≠ .advance other) : Effect s e s' [.put conn network snapshot]
  | answer (conn : Nat) (addr : A) (network : String) (snapshot : Snapshot V)
      (rest : List (Outgoing H V)) (latest : s'.latestStatus = s.latestStatus)
      (sending : s.handlers conn = .sending addr (.status network snapshot :: rest))
      (handlers : s'.handlers = fun other =>
        if other = conn then .sending addr rest else s.handlers other)
      (own : e = .advance conn) : Effect s e s' [.put conn network snapshot]

variable {s : Server A H V}

theorem visit_frame (broadcast : Broadcast A H V) (addr : A) :
    (s.visit broadcast addr).1.latestStatus = s.latestStatus ∧
      (s.visit broadcast addr).1.handlers = s.handlers ∧
      (s.visit broadcast addr).1.polls = s.polls ∧
      (s.visit broadcast addr).1.poller = s.poller ∧
      (s.visit broadcast addr).1.relay = s.relay ∧
      (s.visit broadcast addr).2.text = broadcast.text := by
  unfold visit
  split
  · simp
  · split
    · split <;> simp [put, setOutbox]
    · simp

omit [DecidableEq A] in
/-- A handler that moves to a phase other than sending cached updates. -/
theorem setHandler_sending {conn other : Nat} {handler : Handler A H V} {addr : A}
    {texts : List (Outgoing H V)} (elsewhere : ∀ addr texts, handler ≠ .sending addr texts)
    (sending : (s.setHandler conn handler).handlers other = .sending addr texts) :
    ∃ more, s.handlers other = .sending addr (more ++ texts) := by
  simp only [setHandler] at sending
  split at sending
  · exact absurd sending (elsewhere addr texts)
  · exact ⟨[], sending⟩

/-! ## Freshness -/

omit [DecidableEq A] in
theorem fresh_new : (new : Server A H V).Fresh where
  caching := by simp [new]
  cached := by simp [new]
  poller := by simp [new, outbound]
  relay := by simp [new, outbound]

omit [DecidableEq A] in
/-- A step that leaves the poller and the cache alone. -/
theorem Fresh.of_same {s' : Server A H V} (fresh : s.Fresh)
    (latest : s'.latestStatus = s.latestStatus) (polls : s'.polls = s.polls)
    (poller : s'.poller = s.poller)
    (relay : ∀ network snapshot, outbound s'.relay ≠ some (.status network snapshot)) :
    s'.Fresh where
  caching := by
    rw [latest, polls, poller]
    exact fresh.caching
  cached := by
    rw [latest, polls]
    exact fresh.cached
  poller := by
    rw [latest, poller]
    exact fresh.poller
  relay := relay

theorem Fresh.stepPoller (fresh : s.Fresh) : s.stepPoller.Fresh := by
  cases phase : s.poller with
  | idle =>
      simp only [Server.stepPoller, phase]
      exact fresh
  | asking network event =>
      simp only [Server.stepPoller, phase]
      exact fresh
  | caching network snapshot =>
      simp only [Server.stepPoller, phase]
      obtain ⟨newest, newer⟩ := fresh.caching network snapshot phase
      refine ⟨by simp, ?_, ?_, fresh.relay⟩
      · intro other current found
        rcases HashMap.lookup_insert_iff.mp found with ⟨-, rfl⟩ | ⟨-, before⟩
        · exact newest.le
        · exact fresh.cached other current before
      · intro other current out
        cases out
        exact AList.lookup_insert _
  | locking text =>
      simp only [Server.stepPoller, phase]
      split
      · exact fresh
      · refine ⟨by simp, fresh.cached, ?_, fresh.relay⟩
        intro network snapshot out
        exact fresh.poller network snapshot (by rw [phase]; exact out)
  | sending broadcast =>
      simp only [Server.stepPoller, phase]
      split
      · exact ⟨by simp, fresh.cached, by simp [outbound], fresh.relay⟩
      · exact fresh

theorem Fresh.stepRelay (fresh : s.Fresh) : s.stepRelay.Fresh := by
  cases phase : s.relay with
  | idle =>
      simp only [Server.stepRelay, phase]
      exact fresh
  | caching network snapshot =>
      simp only [Server.stepRelay, phase]
      exact fresh
  | asking network event =>
      simp only [Server.stepRelay, phase]
      split
      · exact fresh
      · split
        · exact fresh.of_same rfl rfl rfl (by simp [outbound])
        · exact fresh.of_same rfl rfl rfl (by simp [outbound])
  | locking text =>
      simp only [Server.stepRelay, phase]
      split
      · exact fresh
      · refine fresh.of_same rfl rfl rfl ?_
        intro network snapshot out
        exact fresh.relay network snapshot (by rw [phase]; exact out)
  | sending broadcast =>
      simp only [Server.stepRelay, phase]
      split
      · exact fresh.of_same rfl rfl rfl (by simp [outbound])
      · exact fresh

theorem advance_frame (conn : Nat) :
    (s.advance conn).latestStatus = s.latestStatus ∧ (s.advance conn).polls = s.polls ∧
      (s.advance conn).poller = s.poller ∧ (s.advance conn).relay = s.relay := by
  cases phase : s.handlers conn with
  | absent | reading addr | gone | answering addr =>
      simp [advance, phase, setHandler]
  | joining addr | leaving addr =>
      simp only [advance, phase]
      split <;> exact ⟨rfl, rfl, rfl, rfl⟩
  | greeting addr =>
      simp only [advance, phase]
      split
      · exact ⟨rfl, rfl, rfl, rfl⟩
      · split <;> exact ⟨rfl, rfl, rfl, rfl⟩
  | subscribing addr subs =>
      simp only [advance, phase]
      split
      · exact ⟨rfl, rfl, rfl, rfl⟩
      · split <;> exact ⟨rfl, rfl, rfl, rfl⟩
  | sending addr texts =>
      cases texts with
      | nil =>
          simp [advance, phase, setHandler]
      | cons text rest =>
          simp only [advance, phase]
          split
          · exact ⟨rfl, rfl, rfl, rfl⟩
          · split <;> exact ⟨rfl, rfl, rfl, rfl⟩

theorem Fresh.step (fresh : s.Fresh) (e : ServerStep A H V) : (s.step e).Fresh := by
  cases e with
  | poll network reply =>
      simp only [Server.step]
      split
      · rename_i reply idle
        refine ⟨?_, ?_, by simp [outbound], fresh.relay⟩
        · intro network snapshot same
          cases same
          refine ⟨rfl, fun other current found => ?_⟩
          exact Nat.lt_succ_of_le (fresh.cached other current found)
        · intro other current found
          exact (fresh.cached other current found).trans (Nat.le_succ _)
      · exact fresh
  | poller => exact fresh.stepPoller
  | pollerVisit addr =>
      simp only [Server.step]
      split
      · rename_i broadcast phase
        obtain ⟨latest, -, polls, -, relay, text⟩ := s.visit_frame broadcast addr
        split
        · refine ⟨by simp, ?_, ?_, ?_⟩
          · simp only [latest, polls]
            exact fresh.cached
          · intro network snapshot out
            simp only [latest]
            refine fresh.poller network snapshot ?_
            rw [phase]
            simpa [outbound, text] using out
          · simp only [relay]
            exact fresh.relay
        · exact fresh
      · exact fresh
  | event network event =>
      simp only [Server.step]
      split
      · exact fresh.of_same rfl rfl rfl (by simp [outbound])
      · exact fresh
  | relay => exact fresh.stepRelay
  | relayVisit addr =>
      simp only [Server.step]
      split
      · rename_i broadcast phase
        obtain ⟨latest, -, polls, poller, -, text⟩ := s.visit_frame broadcast addr
        split
        · refine fresh.of_same latest polls poller ?_
          intro network snapshot out
          refine fresh.relay network snapshot ?_
          rw [phase]
          simpa [outbound, text] using out
        · exact fresh
      · exact fresh
  | accept conn addr =>
      simp only [Server.step]
      split
      · exact fresh.of_same rfl rfl rfl fresh.relay
      · exact fresh
  | receive conn message =>
      simp only [Server.step, receive]
      split
      · exact fresh.of_same rfl rfl rfl fresh.relay
      · exact fresh
  | advance conn =>
      obtain ⟨latest, polls, poller, relay⟩ := s.advance_frame conn
      exact fresh.of_same latest polls poller (relay ▸ fresh.relay)
  | write conn => exact fresh.of_same rfl rfl rfl fresh.relay
  | hangUp conn =>
      simp only [Server.step]
      split
      · exact fresh
      · exact fresh
      · exact fresh.of_same rfl rfl rfl fresh.relay

/-! ## Effects -/

omit [DecidableEq A] in
theorem effect_same {e : ServerStep A H V} {s' : Server A H V}
    (latest : s'.latestStatus = s.latestStatus) (handlers : s'.handlers = s.handlers) :
    Effect s e s' [] :=
  .quiet latest fun _ _ _ sending => ⟨[], handlers ▸ sending⟩

/-- What a broadcast of the cached snapshot, or of an event, does at a client. -/
theorem visit_effect {e : ServerStep A H V} {s' : Server A H V} {broadcast : Broadcast A H V}
    (addr : A) (latest : s'.latestStatus = s.latestStatus) (handlers : s'.handlers = s.handlers)
    (current : ∀ network snapshot, broadcast.text = .status network snapshot →
      s.latestStatus.lookup network = some snapshot)
    (notOwn : ∀ other, e ≠ .advance other) : Effect s e s' (s.reportVisit broadcast addr) := by
  unfold reportVisit
  split
  · exact effect_same latest handlers
  · split
    · cases text : broadcast.text with
      | status network snapshot =>
          exact .broadcast _ network snapshot latest handlers (current network snapshot text) notOwn
      | hello | event network event => exact effect_same latest handlers
    · exact effect_same latest handlers

omit [DecidableEq A] in
theorem cached_statuses {text : Outgoing H V} (inside : text ∈ s.cached) :
    ∃ network snapshot, text = .status network snapshot ∧
      s.latestStatus.lookup network = some snapshot := by
  obtain ⟨⟨network, snapshot⟩, entry, rfl⟩ := List.mem_map.mp inside
  exact ⟨network, snapshot, rfl, HashMap.mem_sortedBy.mp entry⟩

theorem advance_effect (conn : Nat) :
    Effect s (.advance conn) (s.advance conn) (s.report (.advance conn)) := by
  have latest := (s.advance_frame conn).1
  cases phase : s.handlers conn with
  | absent | reading addr | gone =>
      simp only [advance, report, phase]
      exact effect_same rfl rfl
  | joining addr | leaving addr =>
      simp only [report, phase]
      refine .quiet latest fun other addr' texts sending => ?_
      simp only [advance, phase] at sending
      split at sending
      · exact ⟨[], sending⟩
      · exact setHandler_sending (by simp) sending
  | greeting addr =>
      simp only [report, phase]
      refine .quiet latest fun other addr' texts sending => ?_
      simp only [advance, phase] at sending
      split at sending
      · exact setHandler_sending (by simp) sending
      · split at sending
        · exact setHandler_sending (by simp) sending
        · exact ⟨[], sending⟩
  | subscribing addr subs =>
      simp only [report, phase]
      refine .quiet latest fun other addr' texts sending => ?_
      simp only [advance, phase] at sending
      split at sending
      · exact ⟨[], sending⟩
      · split at sending
        · exact setHandler_sending (by simp) sending
        · refine setHandler_sending ?_ sending
          split <;> simp
  | answering addr =>
      simp only [advance, report, phase]
      exact .read conn addr rfl phase rfl
  | sending addr texts =>
      cases texts with
      | nil =>
          simp only [report, phase]
          refine .quiet latest fun other addr' texts sending => ?_
          simp only [advance, phase] at sending
          exact setHandler_sending (by simp) sending
      | cons text rest =>
          simp only [advance, report, phase]
          split
          · rename_i closed
            have full : s.hasRoom conn = false := by simp [hasRoom, closed]
            rw [full, if_neg Bool.false_ne_true]
            exact .quiet rfl fun other addr' texts sending =>
              setHandler_sending (by simp) sending
          · split
            · cases text with
              | status network snapshot =>
                  exact .answer conn addr network snapshot rest rfl phase rfl rfl
              | hello | event network event =>
                  refine .quiet rfl fun other addr' texts sending => ?_
                  simp only [setHandler, put, setOutbox] at sending
                  split at sending
                  · cases sending
                    rename_i same
                    exact ⟨[_], by rw [same, phase]; rfl⟩
                  · exact ⟨[], sending⟩
            · exact effect_same rfl rfl

/-- What every step does to the status updates. -/
theorem effect (fresh : s.Fresh) (e : ServerStep A H V) : Effect s e (s.step e) (s.report e) := by
  cases e with
  | poll network reply =>
      simp only [Server.step, report]
      split <;> exact effect_same rfl rfl
  | poller =>
      cases phase : s.poller with
      | caching network snapshot =>
          simp only [Server.step, stepPoller, report, phase]
          exact .cache network snapshot phase rfl rfl
      | idle | asking network event =>
          simp only [Server.step, stepPoller, report, phase]
          exact effect_same rfl rfl
      | locking text | sending broadcast =>
          simp only [Server.step, stepPoller, report, phase]
          split <;> exact effect_same rfl rfl
  | pollerVisit addr =>
      cases phase : s.poller with
      | sending broadcast =>
          simp only [Server.step, report, phase]
          obtain ⟨latest, handlers, -⟩ := s.visit_frame broadcast addr
          split
          · refine visit_effect addr latest handlers ?_ (by intro other; simp)
            intro network snapshot text
            exact fresh.poller network snapshot (by rw [phase]; exact congrArg some text)
          · exact effect_same rfl rfl
      | _ =>
          simp only [Server.step, report, phase]
          exact effect_same rfl rfl
  | event network event =>
      simp only [Server.step, report]
      split <;> exact effect_same rfl rfl
  | relay =>
      cases phase : s.relay with
      | asking network event =>
          simp only [Server.step, stepRelay, report, phase]
          split
          · exact effect_same rfl rfl
          · split <;> exact effect_same rfl rfl
      | idle | caching network snapshot =>
          simp only [Server.step, stepRelay, report, phase]
          exact effect_same rfl rfl
      | locking text | sending broadcast =>
          simp only [Server.step, stepRelay, report, phase]
          split <;> exact effect_same rfl rfl
  | relayVisit addr =>
      cases phase : s.relay with
      | sending broadcast =>
          simp only [Server.step, report, phase]
          obtain ⟨latest, handlers, -⟩ := s.visit_frame broadcast addr
          split
          · refine visit_effect addr latest handlers ?_ (by intro other; simp)
            intro network snapshot text
            exact absurd (by rw [phase]; exact congrArg some text) (fresh.relay network snapshot)
          · exact effect_same rfl rfl
      | _ =>
          simp only [Server.step, report, phase]
          exact effect_same rfl rfl
  | accept conn addr =>
      simp only [Server.step, report]
      split
      · exact .quiet rfl fun other addr' texts sending => setHandler_sending (by simp) sending
      · exact effect_same rfl rfl
  | receive conn message =>
      simp only [Server.step, receive, report]
      split
      · refine .quiet rfl fun other addr' texts sending => setHandler_sending ?_ sending
        cases message <;> simp
      · exact effect_same rfl rfl
  | advance conn => exact s.advance_effect conn
  | write conn => exact effect_same rfl rfl
  | hangUp conn =>
      simp only [Server.step, report]
      split <;> exact effect_same rfl rfl

end Server

end Websocket

end P2PObserver
