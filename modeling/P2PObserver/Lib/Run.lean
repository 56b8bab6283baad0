import Mathlib.Data.List.Induction

/-! # Runs of a step function

A state machine driven by events: its runs, and the induction that carries what one step
preserves over a whole run.
-/

namespace Run

section Steps

variable {S E : Type} (step : S → E → S)

/-- The state after a list of events. -/
def runFrom (s : S) (events : List E) : S := events.foldl step s

/-- Every event of the run finds a state that meets the condition. -/
def Along (ok : S → E → Prop) : S → List E → Prop
  | _, [] => True
  | s, e :: rest => ok s e ∧ Along ok (step s e) rest

instance Along.decidable {ok : S → E → Prop} [∀ s e, Decidable (ok s e)] :
    (s : S) → (events : List E) → Decidable (Along step ok s events)
  | _, [] => .isTrue trivial
  | s, e :: rest =>
      have : Decidable (Along step ok (step s e) rest) := Along.decidable (step s e) rest
      inferInstanceAs (Decidable (ok s e ∧ Along step ok (step s e) rest))

@[simp] theorem runFrom_nil (s : S) : runFrom step s [] = s := rfl

@[simp] theorem runFrom_cons (s : S) (e : E) (rest : List E) :
    runFrom step s (e :: rest) = runFrom step (step s e) rest := rfl

theorem runFrom_append (s : S) (events more : List E) :
    runFrom step s (events ++ more) = runFrom step (runFrom step s events) more :=
  List.foldl_append ..

/-- What every step that meets the condition preserves, every such run preserves. -/
theorem runFrom_induct {ok : S → E → Prop} {P : S → Prop}
    (preserved : ∀ s e, P s → ok s e → P (step s e)) (events : List E) :
    ∀ s, P s → Along step ok s events → P (runFrom step s events) := by
  induction events with
  | nil =>
      intro s holds _
      exact holds
  | cons e rest ih =>
      intro s holds along
      exact ih (step s e) (preserved s e holds along.1) along.2

/-- What every step preserves, every run preserves. -/
theorem runFrom_preserves {P : S → Prop} (preserved : ∀ s e, P s → P (step s e))
    {s : S} (start : P s) (events : List E) : P (runFrom step s events) := by
  induction events generalizing s with
  | nil => exact start
  | cons e rest ih => exact ih (preserved s e start)

/-- What every step on an event of a kind preserves, every run of such events preserves. -/
theorem runFrom_forall {ok : E → Prop} {P : S → Prop}
    (preserved : ∀ s e, P s → ok e → P (step s e)) {s : S} (start : P s) (events : List E)
    (all : ∀ e ∈ events, ok e) : P (runFrom step s events) := by
  induction events generalizing s with
  | nil => exact start
  | cons e rest ih =>
      obtain ⟨here, later⟩ := List.forall_mem_cons.mp all
      exact ih (preserved s e start here) later

/-- Where every step of one machine is a run of another, every run is. -/
theorem runFrom_simulates {S' E' : Type} {step' : S' → E' → S'} {R : S → S' → Prop}
    (simulated : ∀ s s' e, R s s' → ∃ events', R (step s e) (runFrom step' s' events'))
    {s : S} {s' : S'} (start : R s s') (events : List E) :
    ∃ events', R (runFrom step s events) (runFrom step' s' events') := by
  induction events generalizing s s' with
  | nil => exact ⟨[], start⟩
  | cons e rest ih =>
      obtain ⟨first, next⟩ := simulated s s' e start
      obtain ⟨more, reached⟩ := ih next
      refine ⟨first ++ more, ?_⟩
      rw [runFrom_append]
      exact reached

/-- Where a step keeps a property exactly when it meets the condition, the property holds
    all along a run exactly when every step meets it. -/
theorem prefixes_iff_along {ok : S → E → Prop} {P : S → Prop}
    (exact : ∀ s e, P s → (P (step s e) ↔ ok s e)) (events : List E) :
    ∀ s, P s → ((∀ before, before <+: events → P (runFrom step s before)) ↔
      Along step ok s events) := by
  induction events with
  | nil =>
      intro s start
      simp [Along, List.prefix_nil, start]
  | cons e rest ih =>
      intro s start
      rw [Along, ← exact s e start]
      constructor
      · intro holds
        have next : P (step s e) := holds [e] ⟨rest, rfl⟩
        refine ⟨next, (ih _ next).mp fun before inside => ?_⟩
        exact holds (e :: before) (List.prefix_cons_inj e |>.mpr inside)
      · intro ⟨next, along⟩ before inside
        cases before with
        | nil => exact start
        | cons e' before =>
            obtain ⟨rfl, tail⟩ := List.cons_prefix_cons.mp inside
            exact (ih _ next).mpr along before tail

/-- Where a step leaves a property exactly when it was there before and the condition is met, it
    is there after a run exactly when it was at the start and every step meets the condition. -/
theorem holds_iff_along {ok : S → E → Prop} {P : S → Prop}
    (exact : ∀ s e, P (step s e) ↔ P s ∧ ok s e) (events : List E) :
    ∀ s, P (runFrom step s events) ↔ P s ∧ Along step ok s events := by
  induction events with
  | nil => simp [Along]
  | cons e rest ih =>
      intro s
      rw [runFrom_cons, ih, exact, Along, and_assoc]

/-- Conditions that agree on every step agree on every run. -/
theorem along_congr {ok ok' : S → E → Prop} (same : ∀ s e, ok s e ↔ ok' s e) (events : List E) :
    ∀ s, Along step ok s events ↔ Along step ok' s events := by
  induction events with
  | nil => exact fun s => Iff.rfl
  | cons e rest ih =>
      intro s
      rw [Along, Along, same, ih]

theorem along_concat {ok : S → E → Prop} (events : List E) (e : E) :
    ∀ s, Along step ok s (events ++ [e]) ↔
      Along step ok s events ∧ ok (runFrom step s events) e := by
  induction events with
  | nil =>
      intro s
      simp [Along]
  | cons head rest ih =>
      intro s
      simp only [List.cons_append, Along, ih, runFrom_cons, and_assoc]

/-- The same for a property that is exact only where this run goes. -/
theorem prefixes_iff_along_of {ok : S → E → Prop} {P : S → Prop} {s : S} (start : P s)
    (events : List E)
    (exact : ∀ before e, before ++ [e] <+: events → P (runFrom step s before) →
      (P (runFrom step s (before ++ [e])) ↔ ok (runFrom step s before) e)) :
    (∀ before, before <+: events → P (runFrom step s before)) ↔ Along step ok s events := by
  induction events using List.reverseRecOn with
  | nil => simp [Along, List.prefix_nil, start]
  | append_singleton events e ih =>
      have upTo := ih fun before e inside =>
        exact before e (inside.trans (List.prefix_append ..))
      rw [along_concat, ← upTo]
      constructor
      · intro holds
        have before : ∀ xs, xs <+: events → P (runFrom step s xs) := fun xs inside =>
          holds xs (inside.trans (List.prefix_append ..))
        have here := exact events e List.prefix_rfl (before events List.prefix_rfl)
        exact ⟨before, here.mp (holds _ List.prefix_rfl)⟩
      · intro ⟨before, allowed⟩ xs inside
        rcases List.prefix_concat_iff.mp inside with rfl | earlier
        · exact (exact events e List.prefix_rfl (before events List.prefix_rfl)).mpr allowed
        · exact before xs earlier

/-- Where what a step leaves fits its event, all events before having been fitted, exactly when
    the event meets a condition on those before it: every event of a run is fitted exactly when
    each meets it. -/
theorem each_iff_history {P : S → E → Prop} {ok : List E → E → Prop} {s : S}
    (exact : ∀ before e,
      (∀ front x, front ++ [x] <+: before → P (runFrom step s (front ++ [x])) x) →
        (P (runFrom step s (before ++ [e])) e ↔ ok before e)) (events : List E) :
    (∀ before e, before ++ [e] <+: events → P (runFrom step s (before ++ [e])) e) ↔
      ∀ before e, before ++ [e] <+: events → ok before e := by
  constructor
  · intro fitted before e inside
    refine (exact before e fun front x earlier => ?_).mp (fitted before e inside)
    exact fitted front x (earlier.trans ((List.prefix_append ..).trans inside))
  · intro allowed before
    -- The events before an event are fitted by induction on how many there are.
    induction length : before.length using Nat.strongRecOn generalizing before with
    | ind n ih =>
        intro e inside
        refine (exact before e fun front x earlier => ?_).mpr (allowed before e inside)
        have shorter := earlier.length_le
        rw [List.length_append, List.length_singleton] at shorter
        exact ih front.length (by omega) front rfl x
          (earlier.trans ((List.prefix_append ..).trans inside))

end Steps

/-! ## Histories -/

/-- A state with the history of what the steps reported, oldest first. -/
structure Logged (S X : Type) where
  state : S
  history : List X

namespace Logged

variable {S E X : Type} (next : S → E → S) (report : S → E → List X)

def step (w : Logged S X) (e : E) : Logged S X :=
  ⟨next w.state e, w.history ++ report w.state e⟩

theorem runFrom_state (events : List E) : ∀ w : Logged S X,
    (runFrom (step next report) w events).state = runFrom next w.state events := by
  induction events with
  | nil =>
      intro w
      rfl
  | cons e rest ih =>
      intro w
      exact ih (step next report w e)

end Logged

/-- A new entry of a history is either its last or was there before. -/
theorem concat_eq_split {X : Type} {history before after : List X} {new x : X}
    (split : history ++ [new] = before ++ x :: after) :
    history = before ∧ new = x ∧ after = [] ∨
      ∃ rest, after = rest ++ [new] ∧ history = before ++ x :: rest := by
  rcases List.eq_nil_or_concat after with rfl | ⟨rest, last, rfl⟩
  · obtain ⟨same, here⟩ := List.append_inj' split rfl
    exact .inl ⟨same, List.singleton_inj.mp here, rfl⟩
  · rw [List.concat_eq_append, ← List.cons_append, ← List.append_assoc] at split
    obtain ⟨same, here⟩ := List.append_inj' split rfl
    obtain rfl := List.singleton_inj.mp here
    exact .inr ⟨rest, List.concat_eq_append, same⟩

/-- The last place of an entry divides a history in one way only. -/
theorem last_split_unique {X : Type} {before after front back : List X} {x : X}
    (same : before ++ x :: after = front ++ x :: back) (last : x ∉ after) (last' : x ∉ back) :
    before = front ∧ after = back := by
  rcases List.append_eq_append_iff.mp same with ⟨between, rfl, rest⟩ | ⟨between, rfl, rest⟩
  · cases between with
    | nil =>
        simp only [List.nil_append, List.cons.injEq, true_and] at rest
        simp [rest]
    | cons y between =>
        simp only [List.cons_append, List.cons.injEq] at rest
        exact absurd (by simp [rest.2]) last
  · cases between with
    | nil =>
        simp only [List.nil_append, List.cons.injEq, true_and] at rest
        simp [rest]
    | cons y between =>
        simp only [List.cons_append, List.cons.injEq] at rest
        exact absurd (by simp [rest.2]) last'

end Run
