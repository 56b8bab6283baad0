import Mathlib.Algebra.Order.Floor.Ring
import Mathlib.Tactic.Linarith

/-! # Token buckets

A level that fills with time up to a burst and is spent in whole tokens. Over any while, what is
spent is no more than what the bucket could hold and what flowed in.
-/

namespace TokenBucket

variable {K : Type} [Field K] [LinearOrder K] [IsStrictOrderedRing K]

/-- The level after a while without spending. -/
def refill (rate burst level elapsed : K) : K := min (level + elapsed * rate) burst

/-- The whole tokens there are to spend. -/
def allowed [FloorRing K] (level : K) : Nat := ⌊level⌋.toNat

/-- The books of a bucket that began full: what was spent and what is left come out of the
    burst and of the time that has passed. -/
structure Balanced (rate burst level time : K) (spent : Nat) : Prop where
  nonneg : 0 ≤ level
  le : level + spent ≤ burst + rate * time

namespace Balanced

variable {rate burst level time : K} {spent : Nat}

omit [IsStrictOrderedRing K] in
theorem full (nonneg : 0 ≤ burst) : Balanced rate burst burst 0 0 := by
  refine ⟨nonneg, ?_⟩
  simp

/-- Filling the bucket, though not past the burst. -/
theorem refill (books : Balanced rate burst level time spent) (rate_nonneg : 0 ≤ rate)
    (burst_nonneg : 0 ≤ burst) {elapsed : K} (later : 0 ≤ elapsed) :
    Balanced rate burst (refill rate burst level elapsed) (time + elapsed) spent := by
  have inflow : 0 ≤ elapsed * rate := mul_nonneg later rate_nonneg
  have le := books.le
  have capped : TokenBucket.refill rate burst level elapsed ≤ level + elapsed * rate :=
    min_le_left _ _
  refine ⟨le_min (add_nonneg books.nonneg inflow) burst_nonneg, ?_⟩
  rw [mul_add, mul_comm rate elapsed]
  linarith

/-- Time in which nothing flows in. -/
theorem wait (books : Balanced rate burst level time spent) (rate_nonneg : 0 ≤ rate) {lag : K}
    (later : 0 ≤ lag) : Balanced rate burst level (time + lag) spent := by
  have le := books.le
  have unused : 0 ≤ rate * lag := mul_nonneg rate_nonneg later
  refine ⟨books.nonneg, ?_⟩
  rw [mul_add]
  linarith

/-- Spending no more than there is. -/
theorem spend [FloorRing K] (books : Balanced rate burst level time spent) {n : Nat}
    (within : n ≤ allowed level) : Balanced rate burst (level - n) time (spent + n) := by
  have floor : ((allowed level : Nat) : K) ≤ level := by
    have nonneg : 0 ≤ ⌊level⌋ := Int.floor_nonneg.mpr books.nonneg
    have cast : ((⌊level⌋.toNat : Nat) : K) = (⌊level⌋ : K) := by
      rw [← Int.cast_natCast, Int.toNat_of_nonneg nonneg]
    rw [allowed, cast]
    exact Int.floor_le level
  have le := books.le
  have enough : (n : K) ≤ level := (Nat.cast_le.mpr within).trans floor
  refine ⟨sub_nonneg.mpr enough, ?_⟩
  rw [Nat.cast_add]
  linarith

/-- What was spent is covered by the burst and the time passed. -/
theorem spent_le (books : Balanced rate burst level time spent) :
    (spent : K) ≤ burst + rate * time := by
  have le := books.le
  have nonneg := books.nonneg
  linarith

end Balanced

end TokenBucket
