import Mathlib.Data.List.Perm.Subperm
import P2PObserver.Emit.History

/-! # The stamps along the stream

An event's stamp is the number of losses counted when its call loaded the counter, so the
stream is in order exactly as long as no call is overtaken between its load and its place
in the queue.
-/

namespace P2PObserver

namespace Watched

variable {H : Type}

/-- No event goes in behind one whose call loaded the counter after a loss that was counted
    since this event's call loaded it. -/
def InOrder (w : Watched H) (e : EmitStep H) : Prop :=
  ∀ call event, .queued call event ∈ w.state.happening e →
    ∀ later ahead, .queued later ahead ∈ w.history →
      ∀ loss, ¬ [.loaded call, .counted loss, .loaded later].Sublist w.history

/-- The stamps along the stream do not decrease. -/
def Ordered (w : Watched H) : Prop :=
  w.state.stream.Pairwise (·.droppedEvents ≤ ·.droppedEvents)

/-- No event reports more losses than there were before it went into the queue. -/
def Bounded (w : Watched H) : Prop :=
  ∀ before call event after, w.history = before ++ .queued call event :: after →
    event.droppedEvents.toNat ≤ (losses before).length

variable {w : Watched H}

/-! ## Stamps compared -/

theorem counts_append (history more : List (Happening H)) :
    counts (history ++ more) = counts history ++ counts more :=
  List.filterMap_append ..

/-- A load divides the history in one way only. -/
theorem Sound.split_unique (sound : w.Sound) {call : Nat} {before after front back}
    (here : w.history = before ++ .loaded call :: after)
    (there : w.history = front ++ .loaded call :: back) : before = front := by
  have once := sound.loadedOnce
  rw [here, loads, List.filterMap_append, List.nodup_append] at once
  simp only [List.filterMap_cons, Happening.load?, List.nodup_cons] at once
  have notBefore : .loaded call ∉ before := by
    intro inside
    exact once.2.2 call (mem_loads.mpr inside) call (by simp) rfl
  have notAfter : .loaded call ∉ after := by
    intro inside
    exact once.2.1.1 (mem_loads.mpr inside)
  exact ((List.append_cons_inj_of_notMem notBefore notAfter).mp (here.symm.trans there)).1

/-- A later stamp is larger exactly when a loss was counted between the two loads. -/
theorem Sound.stamp_lt_iff (sound : w.Sound) (few : (counts w.history).length < UInt64.size)
    {call later : Nat} {stamp laterStamp : UInt64} (loaded : LoadedAt w.history call stamp)
    (laterLoaded : LoadedAt w.history later laterStamp) :
    stamp < laterStamp ↔
      ∃ loss, [.loaded call, .counted loss, .loaded later].Sublist w.history := by
  obtain ⟨before, after, here, rfl⟩ := loaded
  obtain ⟨front, back, there, rfl⟩ := laterLoaded
  have fits : ∀ xs ys : List (Happening H), w.history = xs ++ ys →
      (UInt64.ofNat (counts xs).length).toNat = (counts xs).length := by
    intro xs ys split
    rw [split, counts_append, List.length_append] at few
    exact UInt64.toNat_ofNat_of_lt' (by omega)
  rw [UInt64.lt_iff_toNat_lt, fits before _ here, fits front _ there]
  constructor
  · intro fewer
    have upToCall : before ++ [.loaded call] <+: w.history := ⟨after, by simp [here]⟩
    have upToLater : front <+: w.history := ⟨_, there.symm⟩
    have shorter : before ++ [.loaded call] <+: front := by
      refine List.prefix_of_prefix_length_le upToCall upToLater ?_
      by_contra longer
      simp only [List.length_append, List.length_singleton, not_le] at longer
      have inside : front <+: before :=
        List.prefix_of_prefix_length_le upToLater ⟨_, here.symm⟩ (by omega)
      obtain ⟨rest, rfl⟩ := inside
      rw [counts_append, List.length_append] at fewer
      omega
    obtain ⟨between, rfl⟩ := shorter
    have lossBetween : counts between ≠ [] := by
      intro noLoss
      rw [counts_append, counts_append, noLoss] at fewer
      simp [counts, Happening.count?] at fewer
    obtain ⟨loss, inside⟩ := List.exists_mem_of_ne_nil _ lossBetween
    refine ⟨loss, there ▸ ?_⟩
    have first : [.loaded call].Sublist (before ++ [.loaded call]) :=
      List.sublist_append_right ..
    have second : [.counted loss].Sublist between :=
      List.singleton_sublist.mpr (mem_counts.mp inside)
    have third : [.loaded later].Sublist (.loaded later :: back) :=
      List.singleton_sublist.mpr (List.mem_cons_self ..)
    exact (first.append second).append third
  · rintro ⟨loss, inside⟩
    obtain ⟨left, right, split, loadedFirst, inside⟩ := List.cons_sublist_iff.mp inside
    obtain ⟨middle, right, rfl, countedNext, inside⟩ := List.cons_sublist_iff.mp inside
    obtain ⟨earlier, rest, rfl⟩ := List.mem_iff_append.mp loadedFirst
    obtain ⟨upTo, tail, rfl⟩ := List.mem_iff_append.mp (List.singleton_sublist.mp inside)
    have atCall : w.history =
        earlier ++ .loaded call :: (rest ++ (middle ++ (upTo ++ .loaded later :: tail))) := by
      simpa using split
    have atLater : w.history =
        (earlier ++ .loaded call :: rest ++ middle ++ upTo) ++ .loaded later :: tail := by
      simpa using split
    have first := sound.split_unique here atCall
    have second := sound.split_unique there atLater
    have lossCounted : 0 < (counts middle).length :=
      List.length_pos_of_mem (mem_counts.mpr countedNext)
    rw [second, first]
    simp only [counts_append, List.length_append]
    omega

/-! ## Runs -/

theorem Sound.bounded (sound : w.Sound) : w.Bounded := by
  intro before call event after split
  obtain ⟨front, back, here, stamp⟩ := sound.queued before call event after split
  have counted : counts before ⊆ losses before :=
    sound.countedLost before ⟨_, split.symm⟩
  have once : (counts before).Nodup := by
    have whole := sound.countedOnce
    rw [split, counts_append] at whole
    exact (List.nodup_append.mp whole).1
  calc event.droppedEvents.toNat
      ≤ (counts front).length := by
        rw [stamp]
        exact Nat.mod_le ..
    _ ≤ (counts before).length := by
        rw [here, counts_append, List.length_append]
        omega
    _ ≤ (losses before).length := (once.subperm counted).length_le

theorem Sound.mem_stream (sound : w.Sound) {event : PeerEvent H} :
    event ∈ w.state.stream ↔ ∃ call, .queued call event ∈ w.history := by
  rw [sound.stream, List.mem_filterMap]
  constructor
  · rintro ⟨happening, inside, same⟩
    cases happening <;> simp [Happening.event?] at same
    exact ⟨_, same ▸ inside⟩
  · rintro ⟨call, inside⟩
    exact ⟨_, inside, rfl⟩

theorem Sound.queued_loaded (sound : w.Sound) {call : Nat} {event : PeerEvent H}
    (inside : .queued call event ∈ w.history) : LoadedAt w.history call event.droppedEvents := by
  obtain ⟨before, after, split⟩ := List.mem_iff_append.mp inside
  rw [split]
  exact (sound.queued before call event after split).append _

theorem Sound.step_stream (sound : w.Sound) (e : EmitStep H) :
    (w.step e).state.stream =
      w.state.stream ++ (w.state.happening e).filterMap Happening.event? := by
  rw [(sound.step e).stream, sound.stream, Watched.step, Run.Logged.step, List.filterMap_append]

/-- A step does one thing at most. -/
theorem happening_eq (s : Emit H) (e : EmitStep H) :
    s.happening e = [] ∨ ∃ x, s.happening e = [x] := by
  unfold Emit.happening
  split
  · split <;> simp
  · split
    · split <;> simp
    · split <;> simp
    · simp
    · simp
  · simp
  · simp

/-- A step keeps the stamps in order exactly when it puts no event in out of order. -/
theorem Sound.ordered_step_iff (sound : w.Sound) (ordered : w.Ordered) (e : EmitStep H)
    (few : (counts w.history).length < UInt64.size) : (w.step e).Ordered ↔ w.InOrder e := by
  rw [Ordered, sound.step_stream]
  rcases happening_eq w.state e with nothing | ⟨x, one⟩
  · simp [InOrder, nothing]
    exact ordered
  · cases x with
    | queued call event =>
        have next := sound.step e
        have loaded : LoadedAt w.history call event.droppedEvents :=
          next.queued w.history call event [] (by rw [Watched.step, Run.Logged.step, one])
        simp only [one, List.filterMap_cons, List.filterMap_nil, Happening.event?,
          List.pairwise_append, List.mem_singleton, forall_eq, List.pairwise_singleton, true_and]
        constructor
        · rintro ⟨-, above⟩ other event' inside later ahead inStream loss overtaken
          rw [one, List.mem_singleton] at inside
          cases inside
          have larger := (sound.stamp_lt_iff few loaded (sound.queued_loaded inStream)).mpr
            ⟨loss, overtaken⟩
          have smaller := above ahead (sound.mem_stream.mpr ⟨later, inStream⟩)
          exact absurd larger (UInt64.not_lt.mpr smaller)
        · intro inOrder
          refine ⟨ordered, fun ahead inside => ?_⟩
          obtain ⟨later, inStream⟩ := sound.mem_stream.mp inside
          by_contra smaller
          obtain ⟨loss, overtaken⟩ := (sound.stamp_lt_iff few loaded
            (sound.queued_loaded inStream)).mp (UInt64.not_le.mp smaller)
          exact inOrder call event (by simp [one]) later ahead inStream loss overtaken
    | loaded call | lost call | counted call =>
        simp only [InOrder, one, List.filterMap_cons, List.filterMap_nil, Happening.event?,
          List.append_nil, List.mem_singleton, reduceCtorEq, false_implies, implies_true,
          iff_true]
        exact ordered

theorem run_sound (instanceId : UInt64) (slots : Nat) (steps : List (EmitStep H)) :
    (Run.runFrom step (new instanceId slots) steps).Sound :=
  Run.runFrom_preserves step (fun _ e sound => sound.step e) (sound_new instanceId slots) steps

theorem counts_mono (w : Watched H) (steps : List (EmitStep H)) :
    (counts w.history).length ≤ (counts (Run.runFrom step w steps).history).length := by
  induction steps generalizing w with
  | nil => exact le_rfl
  | cons e rest ih =>
      refine le_trans ?_ (ih (w.step e))
      rw [Watched.step, Run.Logged.step, counts_append, List.length_append]
      omega

/-- The stamps follow the stream, all along a run, exactly when no event goes into the
    queue out of order. -/
theorem run_stamps_ordered_iff (instanceId : UInt64) (slots : Nat) (steps : List (EmitStep H))
    (few : (counts (Run.runFrom step (new instanceId slots) steps).history).length <
      UInt64.size) :
    (∀ before, before <+: steps →
        (Run.runFrom step (new instanceId slots) before).Ordered ∧
          (Run.runFrom step (new instanceId slots) before).Bounded) ↔
      Run.Along step InOrder (new instanceId slots) steps := by
  refine Run.prefixes_iff_along_of step (P := fun w => w.Ordered ∧ w.Bounded) ?_ steps ?_
  · exact ⟨List.Pairwise.nil, (sound_new instanceId slots).bounded⟩
  · intro before e inside holds
    have sound := run_sound instanceId slots before
    rw [Run.runFrom_append]
    obtain ⟨rest, rfl⟩ := inside
    have fewer := lt_of_le_of_lt (counts_mono _ ([e] ++ rest))
      (by rwa [← Run.runFrom_append, ← List.append_assoc])
    exact (and_iff_left (sound.step e).bounded).trans
      (sound.ordered_step_iff holds.1 e fewer)

end Watched

/-! ## An overtaken call

The observer's queue is full of pings when two more calls load the counter. One of them
loses its event and counts it; a third loads the new count and is in the queue before the
first sends.
-/

namespace Emit

def ping : PeerEvent Nat where
  connectionId := 0
  timestampMs := 0
  peerAddr := .ipv4 ⟨[1, 2, 3, 4], rfl⟩ 8333
  userAgent := ""
  transportVersion := some 2
  droppedEvents := 0
  instanceId := 1
  droppedByKind := none
  event := some (.pingRtt ⟨5⟩)

def fill (n : Nat) : List (EmitStep Nat) :=
  (List.range n).flatMap fun call => [.start (call + 3) ping, .advance (call + 3)]

def filled (n slots : Nat) : Emit Nat :=
  { new 1 slots with
    queue := List.replicate n ping
    calls := fun call => if 3 ≤ call ∧ call < n + 3 then .returned else .ready }

theorem run_fill (slots : Nat) : ∀ n, n ≤ slots →
    Run.runFrom step (new 1 slots) (fill n) = filled n slots := by
  intro n
  induction n with
  | zero =>
      intro _
      simp [fill, filled, new]
      funext call
      split <;> first | rfl | omega
  | succ n ih =>
      intro room
      have earlier := ih (by omega)
      rw [fill, List.range_succ, List.flatMap_append, Run.runFrom_append]
      rw [fill] at earlier
      rw [earlier]
      have free : ¬ slots ≤ n := by omega
      have start : (filled n slots).step (.start (n + 3) ping) = (filled n slots).setCall (n + 3) (.sending ping) := by
        simp [step, filled, Emit.start, new, stamped, PeerEvent.kind, ping]
      simp only [List.flatMap_cons, List.flatMap_nil, List.append_nil, Run.runFrom_cons, Run.runFrom_nil, start]
      simp [step, advance, trySend, setCall, filled, new, free, List.replicate_succ']
      funext call
      grind

/-- Two calls load the counter; one loses its event and counts it. Another call loads the
    new count and gets its event in before the first call sends. -/
def race : List (EmitStep Nat) :=
  [.start 0 ping, .start 1 ping, .advance 1, .advance 1, .take, .take, .start 2 ping] ++
    List.replicate 10 (.advance 2) ++ [.advance 0]

theorem filled_race (m : Nat) :
    ((Run.runFrom step (filled (m + 2) (m + 2)) race).stream).map (·.droppedEvents) =
      List.replicate (m + 2) 0 ++ [1, 0] := by
  have room : ¬ m + 2 ≤ m := by omega
  have more : ¬ m + 2 ≤ m + 1 := by omega
  simp [room, more, race, filled, List.replicate_succ, step, start, advance, trySend, setCall, new, stamped,  PeerEvent.kind, ping, stream, Kind.all]

theorem overtaken : ¬ ∀ (instanceId : UInt64) (steps : List (EmitStep Nat)),
    (Run.runFrom step (new instanceId EVENT_QUEUE) steps).stream.Pairwise
      (·.droppedEvents ≤ ·.droppedEvents) := by
  intro ordered
  have stamps := ordered 1 (fill EVENT_QUEUE ++ race)
  rw [Run.runFrom_append, run_fill EVENT_QUEUE EVENT_QUEUE le_rfl, ← List.pairwise_map,
    show EVENT_QUEUE = 8190 + 2 from rfl, filled_race] at stamps
  have last := (List.pairwise_append.mp stamps).2.1
  exact absurd last (by decide)

end Emit

/-! ## A loss counted in time -/

namespace Emit

/-- A queue of one slot: the first call fills it, the second loses its event and counts it, and
    the third loads the new count and sends once there is room. -/
def lossy : List (EmitStep Nat) :=
  [.start 0 ping, .start 1 ping, .advance 0, .advance 1, .advance 1, .advance 1, .start 2 ping,
    .take] ++ List.replicate 10 (.advance 2)

end Emit

theorem Watched.run_stamps_ordered_iff_lossy :
    (Run.runFrom step (new 1 1) Emit.lossy).state.stream.map (·.droppedEvents) = [0, 1] ∧
      Run.Along step InOrder (new 1 1) Emit.lossy := by
  have ordered : ∀ n < Emit.lossy.length + 1,
      (Run.runFrom step (new 1 1) (Emit.lossy.take n)).state.stream.Pairwise
        (·.droppedEvents ≤ ·.droppedEvents) := by decide
  refine ⟨by decide, (run_stamps_ordered_iff 1 1 Emit.lossy (by decide)).mp ?_⟩
  intro before inside
  refine ⟨?_, (run_sound 1 1 before).bounded⟩
  rw [List.prefix_iff_eq_take.mp inside]
  exact ordered before.length (Nat.lt_succ_of_le inside.length_le)

end P2PObserver
