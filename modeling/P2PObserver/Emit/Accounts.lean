import P2PObserver.Emit.History

/-! # What becomes of every event

`emit::send` as one step. Every event is delivered in its turn or counted as lost, once, and
the room kept free of gossip is there for everything else.
-/

namespace P2PObserver

namespace Emit

variable {H : Type}

/-- Stamps an event with the losses before it. -/
def stamp (s : Emit H) (event : PeerEvent H) : PeerEvent H :=
  { event with
    droppedEvents := s.dropped
    droppedByKind := if 0 < s.dropped then some s.droppedByKind else none
    instanceId := s.instanceId }

/-- Counts a loss: in the total, and under its kind if it has one. -/
def count (s : Emit H) (kind : Option Kind) : Emit H :=
  { s with
    dropped := s.dropped + 1
    droppedByKind := fun other =>
      if some other = kind then s.droppedByKind other + 1 else s.droppedByKind other }

/-- Whether an event is lost: gossip if no room is left for it, anything if none is left. -/
def loses (s : Emit H) (event : PeerEvent H) : Bool :=
  (event.kind == some .addressAnnouncement && decide (s.capacity ≤ GOSSIP_SHED_BELOW)) ||
    (s.closed || decide (s.slots ≤ s.queue.length))

/-- `emit::send`, with no other call in between. -/
def send (s : Emit H) (event : PeerEvent H) : Emit H :=
  let event := s.stamp event
  if s.loses event then s.count event.kind else { s with queue := s.queue ++ [event] }

/-! ## The calls one access at a time -/

theorem setCall_setCall (s : Emit H) (call : Nat) (phase phase' : Call H) :
    (s.setCall call phase).setCall call phase' = s.setCall call phase' := by
  unfold setCall
  congr 1
  funext other
  dsimp only
  split <;> rfl

/-- The kinds' counters, read one after the other while nothing else happens. -/
theorem run_stamping (s : Emit H) (call : Nat) (event : PeerEvent H) (left : List Kind) :
    ∀ counts, Run.runFrom step (s.setCall call (.stamping event counts left))
      (List.replicate (left.length + 1) (.advance call)) =
        s.setCall call (stamped { event with
          droppedByKind := some fun kind => if kind ∈ left then s.droppedByKind kind
            else counts kind }) := by
  induction left with
  | nil =>
      intro counts
      simp [Run.runFrom, step, advance, setCall_setCall]
  | cons kind left ih =>
      intro counts
      rw [List.length_cons, List.replicate_succ, Run.runFrom_cons]
      have next : (s.setCall call (.stamping event counts (kind :: left))).step (.advance call) =
          s.setCall call (.stamping event
            (fun other => if other = kind then s.droppedByKind kind else counts other) left) := by
        simp only [step, advance, Watched.setCall_calls_same, setCall_setCall]
        rfl
      rw [next, ih]
      congr 4
      funext other
      by_cases here : other = kind
      · subst here
        simp
      · simp [here]

theorem run_returned (s : Emit H) (call n : Nat) :
    Run.runFrom step (s.setCall call .returned) (List.replicate n (.advance call)) =
      s.setCall call .returned := by
  induction n with
  | zero => rfl
  | succ n ih =>
      rw [List.replicate_succ, Run.runFrom_cons]
      have next : (s.setCall call .returned).step (.advance call) = s.setCall call .returned := by
        simp only [step, advance, Watched.setCall_calls_same]
      rw [next, ih]

theorem count_none (s : Emit H) : s.count none = { s with dropped := s.dropped + 1 } := by
  simp [count]

theorem count_some (s : Emit H) (kind : Kind) :
    s.count (some kind) = { s with
      dropped := s.dropped + 1
      droppedByKind := fun other =>
        if other = kind then s.droppedByKind other + 1 else s.droppedByKind other } := by
  simp [count]

theorem run_losing (s : Emit H) (call n : Nat) (kind : Option Kind) :
    Run.runFrom step (s.setCall call (.losing kind)) (List.replicate (n + 2) (.advance call)) =
      (s.count kind).setCall call .returned := by
  rw [List.replicate_succ, Run.runFrom_cons]
  cases kind with
  | none =>
      have next : (s.setCall call (.losing none)).step (.advance call) =
          (s.count none).setCall call .returned := by
        simp only [step, advance, Watched.setCall_calls_same, count_none]
        exact setCall_setCall { s with dropped := s.dropped + 1 } call _ _
      rw [next, run_returned]
  | some kind =>
      rw [List.replicate_succ, Run.runFrom_cons]
      have counted : (s.setCall call (.losing (some kind))).step (.advance call) =
          { s with dropped := s.dropped + 1 }.setCall call (.attributing kind) := by
        simp only [step, advance, Watched.setCall_calls_same]
        exact setCall_setCall { s with dropped := s.dropped + 1 } call _ _
      have attributed : ({ s with dropped := s.dropped + 1 }.setCall call
          (.attributing kind)).step (.advance call) =
            (s.count (some kind)).setCall call .returned := by
        simp only [step, advance, Watched.setCall_calls_same, count_some]
        exact setCall_setCall { s with
          dropped := s.dropped + 1
          droppedByKind := fun other =>
            if other = kind then s.droppedByKind other + 1 else s.droppedByKind other } call _ _
      rw [counted, attributed, run_returned]

theorem run_sending (s : Emit H) (call n : Nat) (event : PeerEvent H) :
    Run.runFrom step (s.setCall call (.sending event)) (List.replicate (n + 3) (.advance call)) =
      (if s.closed || decide (s.slots ≤ s.queue.length) then s.count event.kind
        else { s with queue := s.queue ++ [event] }).setCall call .returned := by
  rw [List.replicate_succ, Run.runFrom_cons]
  by_cases full : (s.closed || decide (s.slots ≤ s.queue.length)) = true
  · have next : (s.setCall call (.sending event)).step (.advance call) =
        s.setCall call (.losing event.kind) := by
      simp only [step, advance, Watched.setCall_calls_same, trySend]
      exact (if_pos full).trans (setCall_setCall ..)
    rw [next, run_losing, if_pos full]
  · have next : (s.setCall call (.sending event)).step (.advance call) =
        { s with queue := s.queue ++ [event] }.setCall call .returned := by
      simp only [step, advance, Watched.setCall_calls_same, trySend]
      exact (if_neg full).trans
        (setCall_setCall { s with queue := s.queue ++ [event] } call _ _)
    rw [next, run_returned, if_neg full]

theorem run_stamped (s : Emit H) (call n : Nat) (event : PeerEvent H) :
    Run.runFrom step (s.setCall call (stamped event)) (List.replicate (n + 4) (.advance call)) =
      (if s.loses event then s.count event.kind
        else { s with queue := s.queue ++ [event] }).setCall call .returned := by
  unfold stamped loses
  by_cases gossip : event.kind = some .addressAnnouncement
  · rw [if_pos gossip, List.replicate_succ, Run.runFrom_cons]
    by_cases short : s.capacity ≤ GOSSIP_SHED_BELOW
    · have next : (s.setCall call (.checking event)).step (.advance call) =
          s.setCall call (.losing event.kind) := by
        simp only [step, advance, Watched.setCall_calls_same]
        exact (if_pos short).trans (setCall_setCall ..)
      rw [next, run_losing, if_pos (by simp [gossip, short])]
    · have next : (s.setCall call (.checking event)).step (.advance call) =
          s.setCall call (.sending event) := by
        simp only [step, advance, Watched.setCall_calls_same]
        exact (if_neg short).trans (setCall_setCall ..)
      rw [next, run_sending]
      simp only [gossip, short, beq_self_eq_true, decide_false, Bool.and_false, Bool.false_or]
  · rw [if_neg gossip, run_sending s call (n + 1)]
    have other : (event.kind == some Kind.addressAnnouncement) = false := by simpa using gossip
    simp only [other, Bool.false_and, Bool.false_or]

/-- A call that nothing comes between ends as `send` does. -/
theorem run_send (s : Emit H) {call : Nat} (ready : s.calls call = .ready)
    (event : PeerEvent H) :
    Run.runFrom step s (.start call event :: List.replicate 13 (.advance call)) =
      (s.send event).setCall call .returned := by
  rw [Run.runFrom_cons]
  have started : s.step (.start call event) = s.start call event := by simp only [step, ready]
  rw [started]
  unfold start send stamp
  dsimp only
  by_cases lost : 0 < s.dropped
  · rw [if_pos lost, if_pos lost]
    have all : List.replicate 13 (EmitStep.advance (H := H) call) =
        List.replicate (Kind.all.length + 1) (.advance call) ++ List.replicate (0 + 4) (.advance call) := rfl
    rw [all, Run.runFrom_append, run_stamping, run_stamped]
    simp only [Kind.mem_all, if_true]
  · rw [if_neg lost, if_neg lost]
    exact run_stamped s call 9 _

/-! ## A run -/

/-- A call of `send`, or the receiver taking an event. -/
inductive Traffic (H : Type) where
  | send (event : PeerEvent H)
  | take

def pass (s : Emit H) : Traffic H → Emit H
  | .send event => s.send event
  | .take => s.step .take

/-- An event sent, and whether it was lost. -/
def sent (s : Emit H) : Traffic H → List (PeerEvent H × Bool)
  | .send event => [(event, s.loses event)]
  | .take => []

/-- A run with the events sent so far. -/
def watch (slots : Nat) (instanceId : UInt64) (traffic : List (Traffic H)) :
    Run.Logged (Emit H) (PeerEvent H × Bool) :=
  Run.runFrom (Run.Logged.step pass sent) ⟨.new instanceId slots, []⟩ traffic

end Emit

/-- An event without its stamps. -/
def PeerEvent.content {H : Type} (event : PeerEvent H) : PeerEvent H :=
  { event with droppedEvents := 0, droppedByKind := none, instanceId := 0 }

namespace Emit

variable {H : Type}

def gossip (event : PeerEvent H) : Bool := event.kind == some .addressAnnouncement

/-- Every event is in the stream the receiver takes, in its turn, or counted. -/
structure Accounts (s : Emit H) (log : List (PeerEvent H × Bool)) : Prop where
  stream : s.stream.map (·.content) = (log.filter (!·.2)).map (·.1.content)
  total : s.dropped = UInt64.ofNat (log.countP (·.2))
  byKind : ∀ kind, s.droppedByKind kind =
    UInt64.ofNat (log.countP fun x => x.2 && x.1.kind == some kind)

/-- The room kept free of gossip. -/
structure Reserves (slots : Nat) (s : Emit H) : Prop where
  opened : s.closed = false
  size : s.slots = slots
  within : s.queue.length ≤ slots
  gossip : s.queue.countP gossip ≤ slots - GOSSIP_SHED_BELOW

variable {s : Emit H} {log : List (PeerEvent H × Bool)} {slots : Nat}

theorem accounts_new (slots : Nat) (instanceId : UInt64) :
    (new (H := H) instanceId slots).Accounts [] := ⟨rfl, rfl, fun _ => rfl⟩

theorem Accounts.lose (accounts : s.Accounts log) (event : PeerEvent H) :
    (s.count event.kind).Accounts (log ++ [(event, true)]) where
  stream := by
    have kept : (s.count event.kind).stream = s.stream := rfl
    rw [kept, accounts.stream, List.filter_append]
    simp
  total := by
    rw [List.countP_append, List.countP_singleton, if_pos rfl, UInt64.ofNat_add, ← accounts.total]
    rfl
  byKind := by
    intro kind
    have byKind := accounts.byKind kind
    rw [List.countP_append, List.countP_singleton]
    unfold count
    dsimp only
    rw [Bool.true_and]
    by_cases its : event.kind = some kind
    · rw [if_pos its.symm, if_pos (beq_iff_eq.mpr its), UInt64.ofNat_add, ← byKind]
      rfl
    · rw [if_neg (Ne.symm its), if_neg (by simpa using its), Nat.add_zero]
      exact byKind

theorem Accounts.queue (accounts : s.Accounts log) (event : PeerEvent H) :
    Accounts { s with queue := s.queue ++ [s.stamp event] } (log ++ [(event, false)]) where
  stream := by
    have stream := accounts.stream
    unfold Emit.stream at stream ⊢
    rw [← List.append_assoc, List.map_append, stream, List.filter_append, List.map_append]
    rfl
  total := by
    rw [List.countP_append, List.countP_singleton, if_neg (by simp), Nat.add_zero]
    exact accounts.total
  byKind := by
    intro kind
    rw [List.countP_append, List.countP_singleton, if_neg (by simp), Nat.add_zero]
    exact accounts.byKind kind

theorem Accounts.pass (accounts : s.Accounts log) (traffic : Traffic H) :
    (s.pass traffic).Accounts (log ++ s.sent traffic) := by
  cases traffic with
  | send event =>
      have same : s.loses (s.stamp event) = s.loses event := rfl
      unfold Emit.pass Emit.send sent
      dsimp only
      rw [same]
      cases s.loses event with
      | true => exact accounts.lose event
      | false => exact accounts.queue event
  | take =>
      have same : (s.step .take).stream = s.stream := by
        unfold Emit.step Emit.stream
        cases waiting : s.queue <;> simp [waiting]
      have kept : (s.step .take).dropped = s.dropped ∧
          (s.step .take).droppedByKind = s.droppedByKind := by
        unfold Emit.step
        cases s.queue <;> exact ⟨rfl, rfl⟩
      unfold Emit.pass sent
      rw [List.append_nil]
      exact ⟨same ▸ accounts.stream, kept.1 ▸ accounts.total, kept.2 ▸ accounts.byKind⟩

theorem reserves_new (slots : Nat) (instanceId : UInt64) :
    (new (H := H) instanceId slots).Reserves slots :=
  ⟨rfl, rfl, Nat.zero_le _, Nat.zero_le _⟩

theorem Reserves.send (reserves : s.Reserves slots) (event : PeerEvent H) :
    (s.send event).Reserves slots := by
  unfold Emit.send
  dsimp only
  cases lost : s.loses (s.stamp event) with
  | true => exact { reserves with }
  | false =>
      unfold loses capacity at lost
      simp only [Bool.or_eq_false_iff, Bool.and_eq_false_iff, decide_eq_false_iff_not,
        beq_eq_false_iff_ne] at lost
      obtain ⟨room, _, free⟩ := lost
      have most := List.countP_le_length (p := Emit.gossip) (l := s.queue)
      have size := reserves.size
      refine ⟨reserves.opened, size, ?_, ?_⟩
      · simp only [List.length_append, List.length_singleton, Bool.false_eq_true, if_false]
        omega
      · simp only [Bool.false_eq_true, if_false, List.countP_append, List.countP_singleton]
        have before := reserves.gossip
        by_cases its : Emit.gossip (s.stamp event) = true
        · rw [if_pos its]
          have announces : (s.stamp event).kind = some .addressAnnouncement := by
            simpa [Emit.gossip] using its
          have spare := room.resolve_left (not_not.mpr announces)
          omega
        · rw [if_neg its]
          exact before

theorem Reserves.pass (reserves : s.Reserves slots) (traffic : Traffic H) :
    (s.pass traffic).Reserves slots := by
  cases traffic with
  | send event => exact reserves.send event
  | take =>
      unfold Emit.pass step
      obtain ⟨opened, size, within, few⟩ := reserves
      cases waiting : s.queue with
      | nil => exact ⟨opened, size, within, few⟩
      | cons event rest =>
          rw [waiting] at within few
          refine ⟨opened, size, Nat.le_of_succ_le within, ?_⟩
          exact ((List.sublist_cons_self event rest).countP_le).trans few

/-- What is not gossip is lost only if the reserve is full of its like. -/
theorem Reserves.crowded (reserves : s.Reserves slots) {event : PeerEvent H}
    (other : Emit.gossip event = false) (lost : s.loses event = true) :
    slots - (slots - GOSSIP_SHED_BELOW) ≤ s.queue.countP (!Emit.gossip ·) := by
  have all := List.length_eq_countP_add_countP Emit.gossip (l := s.queue)
  simp only [Bool.not_eq_true, Bool.decide_eq_false] at all
  have few := reserves.gossip
  unfold loses at lost
  unfold Emit.gossip at other
  rw [other, reserves.opened] at lost
  have full : s.slots ≤ s.queue.length := by simpa using lost
  rw [reserves.size] at full
  omega

theorem watch_spec (slots : Nat) (instanceId : UInt64) (traffic : List (Traffic H)) :
    (watch slots instanceId traffic).state.Accounts (watch slots instanceId traffic).history ∧
      (watch slots instanceId traffic).state.Reserves slots := by
  apply Run.runFrom_preserves (Run.Logged.step pass sent)
    (P := fun w => w.state.Accounts w.history ∧ w.state.Reserves slots)
  · intro w traffic holds
    exact ⟨holds.1.pass traffic, holds.2.pass traffic⟩
  · exact ⟨accounts_new slots instanceId, reserves_new slots instanceId⟩

/-- The event of a call of `send`. -/
def Traffic.event? : Traffic H → Option (PeerEvent H)
  | .send event => some event
  | .take => none

theorem watch_history (slots : Nat) (instanceId : UInt64) (traffic : List (Traffic H)) :
    (watch slots instanceId traffic).history.map (·.1) = traffic.filterMap Traffic.event? := by
  have all : ∀ (w : Run.Logged (Emit H) (PeerEvent H × Bool)),
      (Run.runFrom (Run.Logged.step pass sent) w traffic).history.map (·.1) =
        w.history.map (·.1) ++ traffic.filterMap Traffic.event? := by
    induction traffic with
    | nil => simp
    | cons first rest ih =>
        intro w
        rw [Run.runFrom_cons, ih]
        cases first <;> simp [Run.Logged.step, sent, Traffic.event?, List.filterMap_cons]
  exact all _

end Emit

/-- Whatever is sent and taken, every event is in the stream in its turn or counted once, gossip
    leaves its reserve alone, and what is not gossip is lost only if the reserve is full of its
    like. -/
theorem run_losses {H : Type} (instanceId : UInt64) (traffic : List (Emit.Traffic H)) :
    (Emit.watch EVENT_QUEUE instanceId traffic).history.map (·.1) =
        traffic.filterMap Emit.Traffic.event? ∧
      (Emit.watch EVENT_QUEUE instanceId traffic).state.Accounts
        (Emit.watch EVENT_QUEUE instanceId traffic).history ∧
      (Emit.watch EVENT_QUEUE instanceId traffic).state.queue.countP Emit.gossip ≤
        EVENT_QUEUE - GOSSIP_SHED_BELOW ∧
      ∀ event, Emit.gossip event = false →
        (Emit.watch EVENT_QUEUE instanceId traffic).state.loses event = true →
          GOSSIP_SHED_BELOW ≤
            (Emit.watch EVENT_QUEUE instanceId traffic).state.queue.countP (!Emit.gossip ·) := by
  obtain ⟨accounts, reserves⟩ := Emit.watch_spec EVENT_QUEUE instanceId traffic
  refine ⟨Emit.watch_history EVENT_QUEUE instanceId traffic, accounts, reserves.gossip, ?_⟩
  intro event other lost
  exact reserves.crowded other lost

end P2PObserver
