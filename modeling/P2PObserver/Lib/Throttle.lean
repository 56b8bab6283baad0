import P2PObserver.Lib.Run

/-! # Throttles that work in rounds

Requests for one thing are granted in rounds: the first grant begins a round, which lasts a
fixed while and holds a few grants at most. A request that cannot prove its worth is granted
only where it begins a round.
-/

namespace Throttle

/-- One request: whether it was proven, when it was made and what it was told. -/
structure Asked where
  proven : Bool
  now : Nat
  granted : Bool
  deriving DecidableEq, Repr

/-- The grants of one round. -/
structure Round where
  started : Nat
  /-- When the others after the first were granted. -/
  more : List Nat
  deriving DecidableEq, Repr

namespace Round

/-- When the grants of a round were made. -/
def times (r : Round) : List Nat := r.started :: r.more

def requests (r : Round) : Nat := r.more.length + 1

end Round

/-- The times of the grants. -/
def grantTimes (asks : List Asked) : List Nat := (asks.filter (·.granted)).map (·.now)

section Rounds

variable (interval : Nat)

/-- A grant joins the last round while that lasts, and begins one after. The last round
    comes first. -/
def grant (rounds : List Round) (now : Nat) : List Round :=
  match rounds with
  | [] => [⟨now, []⟩]
  | r :: older =>
      if now - r.started < interval then ⟨r.started, r.more ++ [now]⟩ :: older
      else ⟨now, []⟩ :: r :: older

/-- The rounds the grants make, the last one first. -/
def rounds (asks : List Asked) : List Round :=
  asks.foldl (fun rounds a => if a.granted then grant interval rounds a.now else rounds) []

/-- The round that lasts at a time, if one does. -/
def outAt (asks : List Asked) (now : Nat) : Option Round :=
  (rounds interval asks).head?.filter fun r => now - r.started < interval

theorem rounds_concat (asks : List Asked) (a : Asked) :
    rounds interval (asks ++ [a]) =
      if a.granted then grant interval (rounds interval asks) a.now else rounds interval asks := by
  rw [rounds, List.foldl_append]
  rfl

theorem grantTimes_concat (asks : List Asked) (a : Asked) :
    grantTimes (asks ++ [a]) = grantTimes asks ++ if a.granted then [a.now] else [] := by
  rw [grantTimes, List.filter_append, List.map_append, List.filter_cons, grantTimes]
  cases a.granted <;> rfl

/-- A grant with no round going begins one. -/
theorem grant_of_none {asks : List Asked} {now : Nat} (idle : outAt interval asks now = none) :
    grant interval (rounds interval asks) now = ⟨now, []⟩ :: rounds interval asks := by
  unfold grant
  cases eq : rounds interval asks with
  | nil => rfl
  | cons r older =>
      have expired : ¬ now - r.started < interval := by simpa [outAt, eq] using idle
      exact if_neg expired

theorem grant_of_some {asks : List Asked} {now : Nat} {r : Round}
    (going : outAt interval asks now = some r) :
    ∃ older, rounds interval asks = r :: older ∧ now - r.started < interval ∧
      grant interval (rounds interval asks) now = ⟨r.started, r.more ++ [now]⟩ :: older := by
  rw [outAt, Option.filter_eq_some_iff] at going
  obtain ⟨first, lasts⟩ := going
  have lasts : now - r.started < interval := by simpa using lasts
  obtain ⟨older, eq⟩ := List.head?_eq_some_iff.mp first
  refine ⟨older, eq, lasts, ?_⟩
  rw [eq, grant, if_pos lasts]

/-- A round that lasts at a later time lasted before. -/
theorem outAt_later {asks : List Asked} {now later : Nat} (le : now ≤ later) :
    outAt interval asks later =
      (outAt interval asks now).filter fun r => later - r.started < interval := by
  rw [outAt, outAt, Option.filter_filter]
  congr 1
  funext r
  rw [← Bool.decide_and]
  apply decide_eq_decide.mpr
  omega

theorem outAt_concat {asks : List Asked} {a : Asked} {later : Nat} (le : a.now ≤ later) :
    outAt interval (asks ++ [a]) later =
      if a.granted then
        (match outAt interval asks a.now with
          | none => some ⟨a.now, []⟩
          | some r => some ⟨r.started, r.more ++ [a.now]⟩ : Option Round).filter fun r =>
            later - r.started < interval
      else (outAt interval asks a.now).filter fun r => later - r.started < interval := by
  rw [outAt, rounds_concat]
  split
  · cases going : outAt interval asks a.now with
    | none => rw [grant_of_none interval going, List.head?_cons]
    | some r =>
        obtain ⟨older, -, -, joined⟩ := grant_of_some interval going
        rw [joined, List.head?_cons]
  · exact outAt_later interval le

/-- The rounds hold the grants and nothing else. -/
theorem rounds_times (asks : List Asked) :
    (rounds interval asks).reverse.flatMap Round.times = grantTimes asks := by
  induction asks using List.reverseRecOn with
  | nil => rfl
  | append_singleton asks a ih =>
      rw [rounds_concat, grantTimes_concat, ← ih]
      split
      · cases going : outAt interval asks a.now with
        | none =>
            rw [grant_of_none interval going]
            simp [Round.times]
        | some r =>
            obtain ⟨older, eq, -, joined⟩ := grant_of_some interval going
            rw [joined, eq]
            simp [Round.times]
      · rw [List.append_nil]

end Rounds

variable {interval limit : Nat}

/-- Who is told yes: the first to ask where no round is going, and who can prove their
    worth while the round has room. -/
def allows (limit : Nat) : Option Round → Bool → Bool
  | none, _ => true
  | some r, proven => proven && decide (r.requests < limit)

/-- Every request was told what the grants before it call for. -/
inductive Throttled (interval limit : Nat) : List Asked → Prop where
  | nil : Throttled interval limit []
  | concat {asks : List Asked} {a : Asked} : Throttled interval limit asks →
    a.granted = allows limit (outAt interval asks a.now) a.proven →
    Throttled interval limit (asks ++ [a])

theorem Throttled.split {asks before after : List Asked} {a : Asked}
    (T : Throttled interval limit asks) (eq : asks = before ++ a :: after) :
    a.granted = allows limit (outAt interval before a.now) a.proven := by
  induction T generalizing after with
  | nil => simp at eq
  | concat T told ih =>
      rcases Run.concat_eq_split eq with ⟨rfl, rfl, -⟩ | ⟨rest, -, same⟩
      · exact told
      · exact ih same

/-- A throttle's rounds: how many grants each holds, how long it lasts, how far they are
    apart. -/
structure Paced (interval limit : Nat) (rounds : List Round) : Prop where
  few : ∀ r ∈ rounds, r.requests ≤ limit
  lasts : ∀ r ∈ rounds, ∀ time ∈ r.more, r.started ≤ time ∧ time < r.started + interval
  apart : rounds.Pairwise fun r earlier => earlier.started + interval ≤ r.started

theorem started_le {asks : List Asked} {now : Nat}
    (sorted : ∀ a ∈ asks, a.now ≤ now) : ∀ r ∈ rounds interval asks, r.started ≤ now := by
  intro r member
  have inside : r.started ∈ grantTimes asks := by
    rw [← rounds_times interval]
    exact List.mem_flatMap.mpr ⟨r, List.mem_reverse.mpr member, List.mem_cons_self⟩
  obtain ⟨a, asked, same⟩ := List.mem_map.mp inside
  rw [← same]
  exact sorted a (List.mem_filter.mp asked).1

/-- Where no round is going, the last one is over. -/
theorem ended_of_none {asks : List Asked} {now : Nat} (idle : outAt interval asks now = none)
    (begun : ∀ r ∈ rounds interval asks, r.started ≤ now)
    (apart : (rounds interval asks).Pairwise fun r earlier =>
      earlier.started + interval ≤ r.started) :
    ∀ r ∈ rounds interval asks, r.started + interval ≤ now := by
  rw [outAt] at idle
  cases eq : rounds interval asks with
  | nil => simp
  | cons last older =>
      rw [eq] at idle begun apart
      have expired : ¬ now - last.started < interval := by simpa using idle
      have here := begun last List.mem_cons_self
      intro r member
      cases List.mem_cons.mp member with
      | inl same => rw [same]; omega
      | inr old =>
          have gap := List.rel_of_pairwise_cons apart old
          omega

theorem Throttled.paced {asks : List Asked} (room : 0 < limit)
    (T : Throttled interval limit asks) (sorted : asks.Pairwise fun a b => a.now ≤ b.now) :
    Paced interval limit (rounds interval asks) := by
  induction T with
  | nil => exact ⟨by simp [rounds], by simp [rounds], by simp [rounds]⟩
  | @concat asks a T told ih =>
      rw [List.pairwise_append] at sorted
      have P := ih sorted.1
      have before : ∀ b ∈ asks, b.now ≤ a.now := fun b member =>
        sorted.2.2 b member a List.mem_cons_self
      have begun : ∀ r ∈ rounds interval asks, r.started ≤ a.now := started_le before
      rw [rounds_concat]
      split
      · rename_i granted
        cases going : outAt interval asks a.now with
        | none =>
            rw [grant_of_none interval going]
            refine ⟨?_, ?_, List.pairwise_cons.mpr ⟨fun r member => ?_, P.apart⟩⟩
            · intro r member
              cases List.mem_cons.mp member with
              | inl new => exact new ▸ room
              | inr old => exact P.few r old
            · intro r member
              cases List.mem_cons.mp member with
              | inl new => simp [new]
              | inr old => exact P.lasts r old
            · exact ended_of_none going begun P.apart r member
        | some r =>
            obtain ⟨older, eq, lasts, joined⟩ := grant_of_some interval going
            rw [told, going] at granted
            have fits : r.requests < limit := by
              simp only [allows, Bool.and_eq_true, decide_eq_true_eq] at granted
              exact granted.2
            rw [joined]
            rw [eq] at P begun
            have here := begun r List.mem_cons_self
            refine ⟨?_, ?_, ?_⟩
            · intro r' member
              cases List.mem_cons.mp member with
              | inl new =>
                  rw [new, Round.requests, List.length_append]
                  exact fits
              | inr old => exact P.few r' (List.mem_cons_of_mem _ old)
            · intro r' member
              cases List.mem_cons.mp member with
              | inl new =>
                  intro time inside
                  rw [new] at inside ⊢
                  cases List.mem_append.mp inside with
                  | inl old => exact P.lasts r List.mem_cons_self time old
                  | inr last =>
                      rw [List.mem_singleton.mp last]
                      exact ⟨here, Nat.sub_lt_iff_lt_add' here |>.mp lasts⟩
              | inr old => exact P.lasts r' (List.mem_cons_of_mem _ old)
            · exact List.pairwise_cons.mpr (List.pairwise_cons.mp P.apart)
      · exact P

/-! ## Windows -/

/-- How many of the times fall in a window. -/
def within (first width : Nat) (times : List Nat) : Nat :=
  (times.filter fun time => first ≤ time ∧ time ≤ first + width).length

variable {first width : Nat}

theorem within_append (times more : List Nat) :
    within first width (times ++ more) = within first width times + within first width more := by
  rw [within, List.filter_append, List.length_append]
  rfl

theorem within_le (times : List Nat) : within first width times ≤ times.length :=
  List.length_filter_le ..

theorem within_eq_zero {times : List Nat}
    (outside : ∀ time ∈ times, time < first ∨ first + width < time) :
    within first width times = 0 := by
  rw [within, List.length_eq_zero_iff, List.filter_eq_nil_iff]
  intro time member
  have side := outside time member
  simp only [decide_eq_true_eq]
  omega

/-- A round begun before the window has one grant less to give. -/
theorem within_of_before {r : Round} (before : r.started < first) :
    within first width r.times ≤ r.requests - 1 := by
  have missed : within first width [r.started] = 0 := within_eq_zero (by simp [before])
  rw [Round.times, ← List.singleton_append, within_append, missed, Nat.zero_add]
  exact within_le r.more

namespace Paced

variable {r : Round} {rounds older : List Round}

theorem tail (P : Paced interval limit (r :: older)) : Paced interval limit older where
  few := fun r' member => P.few r' (List.mem_cons_of_mem _ member)
  lasts := fun r' member => P.lasts r' (List.mem_cons_of_mem _ member)
  apart := (List.pairwise_cons.mp P.apart).2

theorem times_lt (P : Paced interval limit rounds) (member : r ∈ rounds) (lasting : 0 < interval) :
    ∀ time ∈ r.times, time < r.started + interval := by
  intro time inside
  cases List.mem_cons.mp inside with
  | inl start => omega
  | inr later => exact (P.lasts r member time later).2

/-- Rounds that ended before the window have no part in it. -/
theorem within_of_ended (P : Paced interval limit rounds) (lasting : 0 < interval)
    (ended : ∀ r ∈ rounds, r.started + interval ≤ first) :
    within first width (rounds.reverse.flatMap Round.times) = 0 := by
  apply within_eq_zero
  intro time inside
  obtain ⟨r, member, at_time⟩ := List.mem_flatMap.mp inside
  rw [List.mem_reverse] at member
  exact .inl (Nat.lt_of_lt_of_le (P.times_lt member lasting time at_time) (ended r member))

/-- Where the last round began before the window, only it has a part in it. -/
theorem within_of_before (P : Paced interval limit (r :: older)) (lasting : 0 < interval)
    (before : r.started < first) :
    within first width ((r :: older).reverse.flatMap Round.times) ≤ limit - 1 := by
  have few := P.few r List.mem_cons_self
  have last : within first width r.times ≤ r.requests - 1 := Throttle.within_of_before before
  have past : within first width (older.reverse.flatMap Round.times) = 0 := by
    apply P.tail.within_of_ended lasting
    intro r' member
    have gap := List.rel_of_pairwise_cons P.apart member
    omega
  rw [List.reverse_cons, List.flatMap_append, within_append, past, List.flatMap_singleton]
  omega

/-- A window shorter than a round meets two rounds at most, the first of them begun. -/
theorem within_le (P : Paced interval limit rounds) (short : width < interval) :
    within first width (rounds.reverse.flatMap Round.times) ≤ 2 * limit - 1 := by
  induction rounds with
  | nil => exact Nat.zero_le _
  | cons r older ih =>
      have few := P.few r List.mem_cons_self
      by_cases before : r.started < first
      · have one : within first width ((r :: older).reverse.flatMap Round.times) ≤ limit - 1 :=
          P.within_of_before (by omega) before
        omega
      · rw [List.reverse_cons, List.flatMap_append, within_append, List.flatMap_singleton]
        by_cases after : first + width < r.started
        · have idle : within first width r.times = 0 := by
            apply within_eq_zero
            intro time inside
            cases List.mem_cons.mp inside with
            | inl start => omega
            | inr later =>
                have lasts := P.lasts r List.mem_cons_self time later
                omega
          have rest := ih P.tail
          omega
        · have all : within first width r.times ≤ r.requests := Throttle.within_le r.times
          cases older with
          | nil =>
              have nothing : within first width (([] : List Round).reverse.flatMap Round.times) = 0 :=
                rfl
              omega
          | cons earlier rest =>
              have gap := List.rel_of_pairwise_cons P.apart List.mem_cons_self
              have one : within first width ((earlier :: rest).reverse.flatMap Round.times) ≤
                  limit - 1 := P.tail.within_of_before (by omega) (by omega)
              omega

end Paced

end Throttle
