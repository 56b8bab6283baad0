import Mathlib.Tactic.Ring
import P2PObserver.Lib.TokenBucket

/-! # A metered door

Calls come one after another, and each passes if the token bucket has a token for it. The bucket
is filled when it is looked at, from the time it was last looked at; what passes in a window is
bounded by the burst and the window's length, and a bucket filled so is as full as one that
fills all the time.
-/

/-- A bucket and the time it was filled up to. -/
structure Meter (K : Type) where
  level : K
  since : K

namespace Meter

/-- A call: when the bucket is looked at, and from when on it fills again. -/
structure Call (K : Type) where
  looked : K
  resumed : K

variable {K : Type} [Field K] [LinearOrder K] [IsStrictOrderedRing K] {rate burst : K}

/-- How full the bucket is at a time. -/
def levelAt (rate burst : K) (m : Meter K) (time : K) : K :=
  TokenBucket.refill rate burst m.level (max 0 (time - m.since))

/-- One call: whether it passes, spending a token. -/
def take (rate burst : K) (m : Meter K) (call : Call K) : Bool × Meter K :=
  let level := m.levelAt rate burst call.looked
  if level < 1 then (false, ⟨level, call.resumed⟩) else (true, ⟨level - 1, call.resumed⟩)

/-- The calls, each with whether it passes. -/
def admissions (rate burst : K) : Meter K → List (Call K) → List (Call K × Bool)
  | _, [] => []
  | m, call :: rest =>
      (call, (m.take rate burst call).1) ::
        admissions rate burst (m.take rate burst call).2 rest

/-- The bucket after some calls. -/
def after (rate burst : K) (m : Meter K) (calls : List (Call K)) : Meter K :=
  calls.foldl (fun m call => (m.take rate burst call).2) m

/-- Calls in the order of time, none before the bucket was filled last. -/
def Ordered : K → List (Call K) → Prop
  | _, [] => True
  | since, call :: rest => since ≤ call.looked ∧ call.looked ≤ call.resumed ∧
      Ordered call.resumed rest

omit [IsStrictOrderedRing K] in
theorem admissions_concat (m : Meter K) (calls : List (Call K)) (call : Call K) :
    m.admissions rate burst (calls ++ [call]) = m.admissions rate burst calls ++
      [(call, ((m.after rate burst calls).take rate burst call).1)] := by
  induction calls generalizing m with
  | nil => rfl
  | cons first rest ih =>
      rw [List.cons_append, admissions, admissions, ih]
      rfl

omit [IsStrictOrderedRing K] in
theorem after_concat (m : Meter K) (calls : List (Call K)) (call : Call K) :
    m.after rate burst (calls ++ [call]) =
      ((m.after rate burst calls).take rate burst call).2 := by
  simp [after]

omit [IsStrictOrderedRing K] in
theorem take_since (rate burst : K) (m : Meter K) (call : Call K) :
    (m.take rate burst call).2.since = call.resumed := by
  unfold take
  dsimp only
  split <;> rfl

omit [IsStrictOrderedRing K] in
theorem ordered_concat (rate burst : K) {m : Meter K} {calls : List (Call K)} {call : Call K}
    (ordered : Ordered m.since calls) (later : (m.after rate burst calls).since ≤ call.looked)
    (resumes : call.looked ≤ call.resumed) : Ordered m.since (calls ++ [call]) := by
  induction calls generalizing m with
  | nil => exact ⟨later, resumes, trivial⟩
  | cons first rest ih =>
      obtain ⟨here, first_resumes, ordered⟩ := ordered
      refine ⟨here, first_resumes, ?_⟩
      rw [← take_since rate burst m] at ordered ⊢
      exact ih ordered later

/-! ## Windows -/

/-- The bucket against a window that opens at `start`: what has passed since then came out of
    the burst and of the time since. -/
structure Covers (rate burst start : K) (m : Meter K) (passed : Nat) : Prop where
  nonneg : 0 ≤ m.level
  le_burst : m.level ≤ burst
  inside : start ≤ m.since → m.level + passed ≤ burst + rate * (m.since - start)
  before : m.since < start → passed = 0

variable {start : K} {m : Meter K} {passed : Nat} {call : Call K}

theorem Covers.levelAt (covers : Covers rate burst start m passed) (rate_nonneg : 0 ≤ rate)
    (time : K) : 0 ≤ m.levelAt rate burst time ∧ m.levelAt rate burst time ≤ burst := by
  have inflow : 0 ≤ max 0 (time - m.since) * rate :=
    mul_nonneg (le_max_left ..) rate_nonneg
  have burst_nonneg : 0 ≤ burst := covers.nonneg.trans covers.le_burst
  exact ⟨le_min (add_nonneg covers.nonneg inflow) burst_nonneg, min_le_right _ _⟩

/-- Looking at the bucket in the window. -/
theorem Covers.look (covers : Covers rate burst start m passed) (rate_nonneg : 0 ≤ rate)
    {time : K} (later : m.since ≤ time) (opened : start ≤ time) :
    m.levelAt rate burst time + passed ≤ burst + rate * (time - start) := by
  unfold Meter.levelAt TokenBucket.refill
  rw [max_eq_right (sub_nonneg.mpr later)]
  by_cases inside : start ≤ m.since
  · have capped := min_le_left (m.level + (time - m.since) * rate) burst
    have le := covers.inside inside
    linarith only [capped, le, mul_sub rate m.since start, mul_sub rate time start,
      sub_mul time m.since rate, mul_comm rate m.since, mul_comm rate time]
  · have capped := min_le_right (m.level + (time - m.since) * rate) burst
    have untimed := covers.before (not_le.mp inside)
    have inflow : 0 ≤ rate * (time - start) := mul_nonneg rate_nonneg (sub_nonneg.mpr opened)
    rw [untimed, Nat.cast_zero, add_zero]
    linarith only [capped, inflow]

/-- The bucket covers a call that passes in the window. -/
theorem Covers.take (covers : Covers rate burst start m passed) (rate_nonneg : 0 ≤ rate)
    (later : m.since ≤ call.looked) (resumes : call.looked ≤ call.resumed) :
    Covers rate burst start (m.take rate burst call).2
      (passed + if (m.take rate burst call).1 && start ≤ call.looked then 1 else 0) := by
  obtain ⟨nonneg, le_burst⟩ := covers.levelAt rate_nonneg call.looked
  unfold Meter.take
  dsimp only
  by_cases opened : start ≤ call.looked
  · have look := covers.look rate_nonneg later opened
    have inflow : rate * (call.looked - start) ≤ rate * (call.resumed - start) :=
      mul_le_mul_of_nonneg_left (sub_le_sub_right resumes start) rate_nonneg
    have shut : ¬ call.resumed < start := not_lt.mpr (opened.trans resumes)
    split
    · refine ⟨nonneg, le_burst, fun _ => ?_, fun early => absurd early shut⟩
      simp only [Bool.false_and, Bool.false_eq_true, if_false, Nat.add_zero]
      exact look.trans (by gcongr)
    · rename_i enough
      refine ⟨sub_nonneg.mpr (not_lt.mp enough), ?_, fun _ => ?_, fun early => absurd early shut⟩
      · linarith only [le_burst]
      · simp only [opened, Bool.true_and, decide_true, if_true, Nat.cast_add, Nat.cast_one]
        linarith only [look, inflow]
  · -- The window is not open yet.
    have untimed := covers.before (later.trans_lt (not_le.mp opened))
    subst untimed
    split
    · refine ⟨nonneg, le_burst, fun inside => ?_, fun _ => by simp⟩
      have inflow : 0 ≤ rate * (call.resumed - start) :=
        mul_nonneg rate_nonneg (sub_nonneg.mpr inside)
      simp only [Bool.false_and, Bool.false_eq_true, if_false, Nat.add_zero, Nat.cast_zero]
      linarith only [le_burst, inflow]
    · rename_i enough
      refine ⟨sub_nonneg.mpr (not_lt.mp enough), ?_, fun inside => ?_, fun _ => by simp [opened]⟩
      · linarith only [le_burst]
      · have inflow : 0 ≤ rate * (call.resumed - start) :=
          mul_nonneg rate_nonneg (sub_nonneg.mpr inside)
        simp only [opened, decide_false, Bool.and_false, Bool.false_eq_true, if_false,
          Nat.add_zero, Nat.cast_zero]
        linarith only [le_burst, inflow]

/-- How many calls pass in a window. -/
def passedIn (start length : K) (admitted : List (Call K × Bool)) : Nat :=
  admitted.countP fun a => a.2 && start ≤ a.1.looked && a.1.looked ≤ start + length

omit [IsStrictOrderedRing K] in
/-- Once a window is shut it stays shut. -/
theorem passedIn_eq_zero {length : K} {calls : List (Call K)} (ordered : Ordered m.since calls)
    (shut : start + length < m.since) :
    passedIn start length (m.admissions rate burst calls) = 0 := by
  induction calls generalizing m with
  | nil => rfl
  | cons call rest ih =>
      obtain ⟨later, resumes, ordered⟩ := ordered
      rw [← take_since rate burst m] at ordered
      have late : start + length < call.looked := shut.trans_le later
      have still := ih ordered (by rw [take_since]; exact late.trans_le resumes)
      rw [admissions, passedIn, List.countP_cons, ← passedIn, still]
      simp [not_le.mpr late]

/-- What has passed after a call in the window. -/
theorem Covers.count_le (covers : Covers rate burst start m passed) (rate_nonneg : 0 ≤ rate)
    {length : K} (later : m.since ≤ call.looked) (within : call.looked ≤ start + length)
    (so_far : (passed : K) ≤ burst + rate * length) :
    ((passed + if (m.take rate burst call).1 && start ≤ call.looked then 1 else 0 : Nat) : K) ≤
      burst + rate * length := by
  split
  · rename_i counted
    obtain ⟨taken, opened⟩ : (m.take rate burst call).1 = true ∧ start ≤ call.looked := by
      simpa using counted
    have enough : 1 ≤ m.levelAt rate burst call.looked := by
      unfold Meter.take at taken
      by_contra short
      rw [if_pos (not_le.mp short)] at taken
      cases taken
    have look := covers.look rate_nonneg later opened
    have inflow : rate * (call.looked - start) ≤ rate * length :=
      mul_le_mul_of_nonneg_left (by linarith only [within]) rate_nonneg
    rw [Nat.cast_add, Nat.cast_one]
    linarith only [enough, look, inflow]
  · exact so_far

theorem Covers.passedIn_le (covers : Covers rate burst start m passed) (rate_nonneg : 0 ≤ rate)
    {length : K} {calls : List (Call K)} (ordered : Ordered m.since calls)
    (so_far : (passed : K) ≤ burst + rate * length) :
    (passed : K) + passedIn start length (m.admissions rate burst calls) ≤
      burst + rate * length := by
  induction calls generalizing m passed with
  | nil => simpa [passedIn, admissions] using so_far
  | cons call rest ih =>
      obtain ⟨later, resumes, ordered⟩ := ordered
      have next := covers.take rate_nonneg later resumes
      rw [← take_since rate burst m] at ordered
      rw [admissions, passedIn, List.countP_cons, ← passedIn]
      by_cases shut : start + length < call.looked
      · have untimed : passedIn start length
            ((m.take rate burst call).2.admissions rate burst rest) = 0 :=
          passedIn_eq_zero ordered (by rw [take_since]; exact shut.trans_le resumes)
        simpa [untimed, not_le.mpr shut] using so_far
      · have within : call.looked ≤ start + length := not_lt.mp shut
        have counts := covers.count_le rate_nonneg later within so_far
        have all := ih next ordered counts
        rw [Nat.cast_add, add_assoc, ← Nat.cast_add] at all
        simpa [within, Nat.add_comm] using all

/-- In any window no more calls pass than the burst and what flows in. -/
theorem passedIn_le (rate_nonneg : 0 ≤ rate) (nonneg : 0 ≤ m.level) (le_burst : m.level ≤ burst)
    {calls : List (Call K)} (ordered : Ordered m.since calls) {length : K} (forward : 0 ≤ length) :
    (passedIn start length (m.admissions rate burst calls) : K) ≤ burst + rate * length := by
  have inflow : 0 ≤ rate * length := mul_nonneg rate_nonneg forward
  have covers : Covers rate burst start m 0 := by
    refine ⟨nonneg, le_burst, fun inside => ?_, fun _ => rfl⟩
    have inflow : 0 ≤ rate * (m.since - start) := mul_nonneg rate_nonneg (sub_nonneg.mpr inside)
    rw [Nat.cast_zero]
    linarith only [le_burst, inflow]
  have so_far : ((0 : Nat) : K) ≤ burst + rate * length := by
    rw [Nat.cast_zero]
    linarith only [nonneg, le_burst, inflow]
  have le := covers.passedIn_le rate_nonneg ordered so_far
  rwa [Nat.cast_zero, zero_add] at le

/-! ## A bucket that fills all the time -/

/-- The bucket of the calls that passed: it is looked at for no other. -/
def ideal (rate burst : K) (m : Meter K) (admitted : List (Call K × Bool)) : Meter K :=
  admitted.foldl (fun m a =>
    if a.2 then ⟨m.levelAt rate burst a.1.looked - 1, a.1.looked⟩ else m) m

theorem levelAt_levelAt (rate_nonneg : 0 ≤ rate) (m : Meter K) {time time' : K}
    (later : m.since ≤ time) (later' : time ≤ time') :
    levelAt rate burst ⟨m.levelAt rate burst time, time⟩ time' = m.levelAt rate burst time' := by
  unfold levelAt TokenBucket.refill
  dsimp only
  rw [max_eq_right (sub_nonneg.mpr later), max_eq_right (sub_nonneg.mpr later'),
    max_eq_right (sub_nonneg.mpr (later.trans later')), ← min_add_add_right, min_assoc]
  have inflow : 0 ≤ (time' - time) * rate := mul_nonneg (sub_nonneg.mpr later') rate_nonneg
  rw [min_eq_right (b := burst) (by linarith only [inflow])]
  congr 1
  ring

/-- A bucket that is filled when it is looked at, and one that fills all the time. -/
structure Agrees (rate burst : K) (m i : Meter K) : Prop where
  since_le : i.since ≤ m.since
  level : ∀ time, m.since ≤ time → m.levelAt rate burst time = i.levelAt rate burst time

variable {i : Meter K}

/-- A call keeps them as full as each other, if no time is lost between looking and resuming. -/
theorem Agrees.take (agrees : Agrees rate burst m i) (rate_nonneg : 0 ≤ rate)
    (later : m.since ≤ call.looked) (once : call.resumed = call.looked) :
    Agrees rate burst (m.take rate burst call).2
      (i.ideal rate burst [(call, (m.take rate burst call).1)]) := by
  unfold Meter.take ideal
  dsimp only [List.foldl]
  rw [once]
  split
  · refine ⟨agrees.since_le.trans later, fun time later' => ?_⟩
    rw [levelAt_levelAt rate_nonneg m later later']
    exact agrees.level time (later.trans later')
  · refine ⟨le_rfl, fun time _ => ?_⟩
    rw [agrees.level call.looked later]
    rfl

theorem Agrees.passes_iff (agrees : Agrees rate burst m i) (rate_nonneg : 0 ≤ rate)
    {calls : List (Call K)} (ordered : Ordered m.since calls)
    {before rest : List (Call K × Bool)} {passes : Bool}
    (split : m.admissions rate burst calls = before ++ (call, passes) :: rest)
    (once : ∀ a ∈ before, a.1.resumed = a.1.looked) :
    passes = true ↔ 1 ≤ (i.ideal rate burst before).levelAt rate burst call.looked := by
  induction before generalizing m i calls with
  | nil =>
      cases calls with
      | nil => cases split
      | cons first later =>
          obtain ⟨rfl, rfl⟩ := Prod.mk.inj (List.cons.inj split).1
          rw [ideal, List.foldl_nil, ← agrees.level first.looked ordered.1, Meter.take]
          by_cases short : m.levelAt rate burst first.looked < 1
          · simp [short]
          · simp [short, not_lt.mp short]
  | cons earlier before ih =>
      cases calls with
      | nil => cases split
      | cons first later =>
          obtain ⟨same, tail⟩ := List.cons.inj split
          subst same
          obtain ⟨here, resumes, ordered⟩ := ordered
          rw [← take_since rate burst m] at ordered
          exact ih (agrees.take rate_nonneg here (once _ (List.mem_cons_self ..))) ordered tail
            fun a inside => once a (List.mem_cons_of_mem _ inside)

/-- Where no time is lost, a call passes exactly if a bucket that fills all the time has a
    token. -/
theorem passes_iff (rate_nonneg : 0 ≤ rate) (m : Meter K) {calls : List (Call K)}
    (ordered : Ordered m.since calls) {before rest : List (Call K × Bool)} {passes : Bool}
    (split : m.admissions rate burst calls = before ++ (call, passes) :: rest)
    (once : ∀ a ∈ before, a.1.resumed = a.1.looked) :
    passes = true ↔ 1 ≤ (m.ideal rate burst before).levelAt rate burst call.looked := by
  have agrees : Agrees rate burst m m := ⟨le_rfl, fun _ _ => rfl⟩
  exact agrees.passes_iff rate_nonneg ordered split once

end Meter
