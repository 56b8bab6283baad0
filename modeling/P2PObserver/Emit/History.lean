import Mathlib.Data.List.Basic
import P2PObserver.Emit.Send

/-! # The history of a run

What the steps did, oldest first: the loads of the drop counter, the losses and their
counting, and the events that went into the queue. The history is that of the state, at
every step of every interleaving.
-/

namespace P2PObserver

/-- What a step did that a later step can depend on. -/
inductive Happening (H : Type) where
  /-- The call loaded the drop counter. -/
  | loaded (call : Nat)
  /-- The call gave its event up. -/
  | lost (call : Nat)
  /-- The call added its loss to the drop counter. -/
  | counted (call : Nat)
  | queued (call : Nat) (event : PeerEvent H)

namespace Happening

variable {H : Type}

def call : Happening H → Nat
  | .loaded call | .lost call | .counted call | .queued call _ => call

def load? : Happening H → Option Nat
  | .loaded call => some call
  | _ => none

def loss? : Happening H → Option Nat
  | .lost call => some call
  | _ => none

def count? : Happening H → Option Nat
  | .counted call => some call
  | _ => none

def event? : Happening H → Option (PeerEvent H)
  | .queued _ event => some event
  | _ => none

end Happening

namespace Emit

variable {H : Type}

def happening (s : Emit H) : EmitStep H → List (Happening H)
  | .start call _ =>
      match s.calls call with
      | .ready => [.loaded call]
      | _ => []
  | .advance call =>
      match s.calls call with
      | .checking _ => if s.capacity ≤ GOSSIP_SHED_BELOW then [.lost call] else []
      | .sending event =>
          if s.closed || s.slots ≤ s.queue.length then [.lost call] else [.queued call event]
      | .losing _ => [.counted call]
      | _ => []
  | .take | .close => []

end Emit

/-- A run under observation. -/
abbrev Watched (H : Type) := Run.Logged (Emit H) (Happening H)

namespace Watched

variable {H : Type}

def new (instanceId : UInt64) (slots : Nat) : Watched H := ⟨.new instanceId slots, []⟩

def step (w : Watched H) (e : EmitStep H) : Watched H :=
  Run.Logged.step Emit.step Emit.happening w e

def losses (history : List (Happening H)) : List Nat := history.filterMap Happening.loss?
def counts (history : List (Happening H)) : List Nat := history.filterMap Happening.count?
def loads (history : List (Happening H)) : List Nat := history.filterMap Happening.load?

/-- The call loaded the counter when it stood at this value. -/
def LoadedAt (history : List (Happening H)) (call : Nat) (stamp : UInt64) : Prop :=
  ∃ before after, history = before ++ .loaded call :: after ∧
    stamp = UInt64.ofNat (counts before).length

/-! ## What the history says about the state -/

theorem LoadedAt.append {history : List (Happening H)} {call : Nat} {stamp : UInt64}
    (loaded : LoadedAt history call stamp) (more : List (Happening H)) :
    LoadedAt (history ++ more) call stamp := by
  obtain ⟨before, after, rfl, value⟩ := loaded
  exact ⟨before, after ++ more, by simp, value⟩

/-- What the history holds of a call in each phase. -/
def Tracks (history : List (Happening H)) (call : Nat) : Call H → Prop
  | .ready => call ∉ loads history ∧ call ∉ counts history
  | .stamping event _ _ | .checking event | .sending event =>
      LoadedAt history call event.droppedEvents ∧ call ∉ counts history
  | .losing _ => call ∈ losses history ∧ call ∉ counts history
  | .attributing _ | .returned => True

theorem mem_losses {history : List (Happening H)} {call : Nat} :
    call ∈ losses history ↔ .lost call ∈ history := by
  simp only [losses, List.mem_filterMap]
  constructor
  · rintro ⟨happening, inside, same⟩
    cases happening <;> simp [Happening.loss?] at same
    exact same ▸ inside
  · intro inside
    exact ⟨_, inside, rfl⟩

theorem mem_counts {history : List (Happening H)} {call : Nat} :
    call ∈ counts history ↔ .counted call ∈ history := by
  simp only [counts, List.mem_filterMap]
  constructor
  · rintro ⟨happening, inside, same⟩
    cases happening <;> simp [Happening.count?] at same
    exact same ▸ inside
  · intro inside
    exact ⟨_, inside, rfl⟩

theorem mem_loads {history : List (Happening H)} {call : Nat} :
    call ∈ loads history ↔ .loaded call ∈ history := by
  simp only [loads, List.mem_filterMap]
  constructor
  · rintro ⟨happening, inside, same⟩
    cases happening <;> simp [Happening.load?] at same
    exact same ▸ inside
  · intro inside
    exact ⟨_, inside, rfl⟩

/-- What happens to other calls leaves what is known of a call alone. -/
theorem Tracks.append {history more : List (Happening H)} {call : Nat} {phase : Call H}
    (tracks : Tracks history call phase) (others : ∀ x ∈ more, x.call ≠ call) :
    Tracks (history ++ more) call phase := by
  have notLoaded : .loaded call ∉ more := fun inside => others _ inside rfl
  have notCounted : .counted call ∉ more := fun inside => others _ inside rfl
  cases phase with
  | ready =>
      simp only [Tracks, mem_loads, mem_counts, List.mem_append] at tracks ⊢
      simp [tracks, notLoaded, notCounted]
  | stamping event _ _ | checking event | sending event =>
      obtain ⟨loaded, uncounted⟩ := tracks
      rw [mem_counts] at uncounted
      refine ⟨loaded.append more, ?_⟩
      simp [mem_counts, uncounted, notCounted]
  | losing kind =>
      simp only [Tracks, mem_losses, mem_counts, List.mem_append] at tracks ⊢
      simp [tracks, notCounted]
  | attributing kind | returned => trivial

/-- The history is that of the state. -/
structure Sound (w : Watched H) : Prop where
  total : w.state.dropped = UInt64.ofNat (counts w.history).length
  stream : w.state.stream = w.history.filterMap Happening.event?
  tracks : ∀ call, Tracks w.history call (w.state.calls call)
  queued : ∀ before call event after, w.history = before ++ .queued call event :: after →
    LoadedAt before call event.droppedEvents
  loadedOnce : (loads w.history).Nodup
  countedOnce : (counts w.history).Nodup
  countedLost : ∀ before, before <+: w.history → counts before ⊆ losses before

theorem sound_new (instanceId : UInt64) (slots : Nat) : (new (H := H) instanceId slots).Sound where
  total := rfl
  stream := rfl
  tracks := by simp [new, Emit.new, Tracks, loads, counts]
  queued := by simp [new]
  loadedOnce := List.nodup_nil
  countedOnce := List.nodup_nil
  countedLost := by simp [new, counts, losses]

variable {w : Watched H}

/-- A step that only moves one call along. -/
theorem Sound.quiet (sound : w.Sound) (call : Nat) {emit : Emit H}
    (others : ∀ other, other ≠ call → emit.calls other = w.state.calls other)
    (dropped : emit.dropped = w.state.dropped) (stream : emit.stream = w.state.stream)
    (tracks : Tracks w.history call (emit.calls call)) : Sound ⟨emit, w.history⟩ where
  total := dropped.trans sound.total
  stream := stream.trans sound.stream
  tracks := by
    intro other
    by_cases same : other = call
    · exact same ▸ tracks
    · simp only [others other same]
      exact sound.tracks other
  queued := sound.queued
  loadedOnce := sound.loadedOnce
  countedOnce := sound.countedOnce
  countedLost := sound.countedLost

/-- A step of one call that the history records. -/
theorem Sound.record (sound : w.Sound) (x : Happening H) {emit : Emit H}
    (others : ∀ other, other ≠ x.call → emit.calls other = w.state.calls other)
    (total : emit.dropped = UInt64.ofNat (counts (w.history ++ [x])).length)
    (stream : emit.stream = w.state.stream ++ x.event?.toList)
    (tracks : Tracks (w.history ++ [x]) x.call (emit.calls x.call))
    (queued : ∀ call event, x = .queued call event →
      LoadedAt w.history call event.droppedEvents)
    (loaded : ∀ call, x = .loaded call → call ∉ loads w.history)
    (counted : ∀ call, x = .counted call → call ∈ losses w.history ∧ call ∉ counts w.history) :
    Sound ⟨emit, w.history ++ [x]⟩ where
  total := total
  stream := by
    rw [stream, sound.stream, List.filterMap_append]
    cases h : x.event? <;> simp [h]
  tracks := by
    intro other
    by_cases same : other = x.call
    · exact same ▸ tracks
    · simp only [others other same]
      refine (sound.tracks other).append fun y inside here => same ?_
      simp only [List.mem_singleton] at inside
      exact (inside ▸ here).symm
  queued := by
    intro before call event after split
    rcases Run.concat_eq_split split with ⟨rfl, same, rfl⟩ | ⟨rest, rfl, earlier⟩
    · exact queued call event same
    · exact sound.queued before call event rest earlier
  loadedOnce := by
    rw [loads, List.filterMap_append]
    refine List.nodup_append.mpr ⟨sound.loadedOnce, ?_, ?_⟩
    · simp only [List.filterMap_cons, List.filterMap_nil]
      split <;> simp
    · intro call earlier other here same
      cases x <;> simp [Happening.load?] at here
      exact loaded call (by rw [same, here]) earlier
  countedOnce := by
    rw [counts, List.filterMap_append]
    refine List.nodup_append.mpr ⟨sound.countedOnce, ?_, ?_⟩
    · simp only [List.filterMap_cons, List.filterMap_nil]
      split <;> simp
    · intro call earlier other here same
      cases x <;> simp [Happening.count?] at here
      exact (counted call (by rw [same, here])).2 earlier
  countedLost := by
    intro before inside
    rcases List.prefix_concat_iff.mp inside with rfl | earlier
    · intro call inside
      rw [mem_counts] at inside
      rw [mem_losses]
      refine List.mem_append.mpr (.inl (mem_losses.mp ?_))
      rcases List.mem_append.mp inside with earlier | here
      · exact sound.countedLost _ List.prefix_rfl (mem_counts.mpr earlier)
      · exact (counted call (List.mem_singleton.mp here).symm).1
    · exact sound.countedLost before earlier

/-! ## The steps keep the history true -/

@[simp] theorem setCall_calls_same (s : Emit H) (call : Nat) (phase : Call H) :
    (s.setCall call phase).calls call = phase := by
  simp [Emit.setCall]

theorem setCall_calls_other (s : Emit H) {call other : Nat} (phase : Call H)
    (different : other ≠ call) : (s.setCall call phase).calls other = s.calls other := by
  simp [Emit.setCall, different]

/-- A stamped event is carried on, whichever way it goes. -/
theorem tracks_stamped {history : List (Happening H)} {call : Nat} {event : PeerEvent H}
    (loaded : LoadedAt history call event.droppedEvents) (uncounted : call ∉ counts history) :
    Tracks history call (Emit.stamped event) := by
  unfold Emit.stamped
  split
  · exact ⟨loaded, uncounted⟩
  · exact ⟨loaded, uncounted⟩

theorem Sound.start (sound : w.Sound) {call : Nat} (ready : w.state.calls call = .ready)
    (event : PeerEvent H) :
    Sound ⟨w.state.start call event, w.history ++ [.loaded call]⟩ := by
  have unseen : call ∉ loads w.history ∧ call ∉ counts w.history := by
    have tracks := sound.tracks call
    rw [ready] at tracks
    exact tracks
  have same : counts (w.history ++ [.loaded call]) = counts w.history := by
    simp [counts, Happening.count?]
  have loaded : LoadedAt (w.history ++ [.loaded call]) call w.state.dropped :=
    ⟨w.history, [], rfl, sound.total⟩
  have uncounted : call ∉ counts (w.history ++ [.loaded call]) := same ▸ unseen.2
  unfold Emit.start
  split
  all_goals
    refine sound.record (.loaded call) ?_ ?_ ?_ ?_ ?_ ?_ ?_
  case isTrue.refine_1 | isFalse.refine_1 =>
    intro other different
    exact setCall_calls_other _ _ different
  case isTrue.refine_2 | isFalse.refine_2 => exact same.symm ▸ sound.total
  case isTrue.refine_3 | isFalse.refine_3 => exact (List.append_nil _).symm
  case isTrue.refine_4 =>
    simp only [Happening.call, setCall_calls_same]
    exact ⟨loaded, uncounted⟩
  case isFalse.refine_4 =>
    simp only [Happening.call, setCall_calls_same]
    exact tracks_stamped loaded uncounted
  case isTrue.refine_5 | isFalse.refine_5 =>
    intro call event other
    cases other
  case isTrue.refine_6 | isFalse.refine_6 =>
    intro other same
    cases same
    exact unseen.1
  case isTrue.refine_7 | isFalse.refine_7 =>
    intro call other
    cases other

/-- A call that gives its event up. -/
theorem Sound.lose (sound : w.Sound) {call : Nat} {event : PeerEvent H}
    (uncounted : call ∉ counts w.history) :
    Sound ⟨w.state.setCall call (.losing event.kind), w.history ++ [.lost call]⟩ := by
  have same : counts (w.history ++ [.lost call]) = counts w.history := by
    simp [counts, Happening.count?]
  refine sound.record (.lost call) ?_ ?_ ?_ ?_ ?_ ?_ ?_
  · intro other different
    exact setCall_calls_other _ _ different
  · exact same.symm ▸ sound.total
  · exact (List.append_nil _).symm
  · simp only [Happening.call, setCall_calls_same, Tracks, mem_losses]
    exact ⟨by simp, same ▸ uncounted⟩
  · intro call event other
    cases other
  · intro call other
    cases other
  · intro call other
    cases other

theorem Sound.advance (sound : w.Sound) (call : Nat) :
    Sound ⟨w.state.advance call, w.history ++ w.state.happening (.advance call)⟩ := by
  have tracks := sound.tracks call
  cases phase : w.state.calls call with
  | ready | returned =>
      simp only [Emit.advance, Emit.happening, phase, List.append_nil]
      exact sound
  | stamping event counts left =>
      rw [phase] at tracks
      cases left with
      | nil =>
          simp only [Emit.advance, Emit.happening, phase, List.append_nil]
          refine sound.quiet call (fun other => setCall_calls_other _ _) rfl rfl ?_
          rw [setCall_calls_same]
          exact tracks_stamped tracks.1 tracks.2
      | cons kind left =>
          simp only [Emit.advance, Emit.happening, phase, List.append_nil]
          refine sound.quiet call (fun other => setCall_calls_other _ _) rfl rfl ?_
          rw [setCall_calls_same]
          exact tracks
  | checking event =>
      rw [phase] at tracks
      simp only [Emit.advance, Emit.happening, phase]
      split
      · exact sound.lose tracks.2
      · simp only [List.append_nil]
        refine sound.quiet call (fun other => setCall_calls_other _ _) rfl rfl ?_
        rw [setCall_calls_same]
        exact tracks
  | sending event =>
      rw [phase] at tracks
      simp only [Emit.advance, Emit.happening, phase, Emit.trySend]
      split
      · exact sound.lose tracks.2
      · refine sound.record (.queued call event) ?_ ?_ ?_ ?_ ?_ ?_ ?_
        · intro other different
          exact setCall_calls_other _ _ different
        · have same : Watched.counts (w.history ++ [.queued call event]) =
              Watched.counts w.history := by
            simp [Watched.counts, Happening.count?]
          exact same.symm ▸ sound.total
        · exact (List.append_assoc ..).symm
        · simp only [Happening.call, setCall_calls_same]
          trivial
        · intro other another same
          cases same
          exact tracks.1
        · intro call other
          cases other
        · intro call other
          cases other
  | losing kind =>
      rw [phase] at tracks
      simp only [Emit.advance, Emit.happening, phase]
      refine sound.record (.counted call) ?_ ?_ ?_ ?_ ?_ ?_ ?_
      · intro other different
        exact setCall_calls_other _ _ different
      · have more : (Watched.counts (w.history ++ [.counted call])).length =
            (Watched.counts w.history).length + 1 := by
          simp [Watched.counts, Happening.count?]
        rw [more]
        simp only [Emit.setCall, sound.total, UInt64.ofNat_add]
        rfl
      · exact (List.append_nil _).symm
      · simp only [Happening.call, setCall_calls_same]
        cases kind <;> trivial
      · intro call event other
        cases other
      · intro call other
        cases other
      · intro other same
        cases same
        exact tracks
  | attributing kind =>
      simp only [Emit.advance, Emit.happening, phase, List.append_nil]
      refine sound.quiet call (fun other => setCall_calls_other _ _) rfl rfl ?_
      rw [setCall_calls_same]
      trivial

theorem Sound.step (sound : w.Sound) (e : EmitStep H) : (w.step e).Sound := by
  cases e with
  | start call event =>
      simp only [Watched.step, Run.Logged.step, Emit.step, Emit.happening]
      cases phase : w.state.calls call with
      | ready => exact sound.start phase event
      | _ =>
          simp only [List.append_nil]
          exact sound
  | advance call => exact sound.advance call
  | take =>
      simp only [Watched.step, Run.Logged.step, Emit.step, Emit.happening, List.append_nil]
      split
      · exact sound
      · rename_i event rest waiting
        refine sound.quiet 0 (fun other _ => rfl) rfl ?_ (sound.tracks 0)
        simp [Emit.stream, waiting]
  | close =>
      simp only [Watched.step, Run.Logged.step, Emit.step, Emit.happening, List.append_nil]
      exact sound.quiet 0 (fun other _ => rfl) rfl rfl (sound.tracks 0)

end Watched

end P2PObserver
