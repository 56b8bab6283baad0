import Mathlib.Data.Finset.Card
import Mathlib.Data.Finset.Dedup
import P2PObserver.Lib.Run

/-! # Labels with a cap

The first so many distinct values are labels of their own, every later new value goes under
another. The values that have a label at the end of a run decide all the labels given on the way.
-/

/-- The values with a label of their own, of which there is room for `cap`. -/
structure Capped (V : Type) where
  cap : Nat
  seen : Finset V
  within : seen.card ≤ cap

namespace Capped

variable {V : Type}

def new (cap : Nat) : Capped V := ⟨cap, ∅, Nat.zero_le cap⟩

@[simp] theorem new_cap (cap : Nat) : (new cap : Capped V).cap = cap := rfl

variable [DecidableEq V]

/-- The values with a label once this one has asked for one. -/
def next (c : Capped V) (value : V) : Capped V :=
  if room : value ∉ c.seen ∧ c.seen.card < c.cap then
    { c with
      seen := insert value c.seen
      within := (Finset.card_insert_of_notMem room.1).trans_le room.2 }
  else c

/-- The label of a value. -/
def label (other : V) (c : Capped V) (value : V) : V :=
  if value ∈ (c.next value).seen then value else other

def run (c : Capped V) (values : List V) : Capped V := Run.runFrom next c values

/-- The labels that a run of values gets, oldest first. -/
def labels (other : V) : Capped V → List V → List V
  | _, [] => []
  | c, value :: values => c.label other value :: labels other (c.next value) values

section Steps

variable (c : Capped V) (value : V)

@[simp] theorem next_cap : (c.next value).cap = c.cap := by
  unfold next
  split <;> rfl

theorem next_seen : (c.next value).seen =
    if c.seen.card < c.cap then insert value c.seen else c.seen := by
  unfold next
  by_cases known : value ∈ c.seen
  · rw [dif_neg (fun room => room.1 known), Finset.insert_eq_of_mem known]
    split <;> rfl
  · by_cases room : c.seen.card < c.cap
    · rw [dif_pos ⟨known, room⟩, if_pos room]
    · rw [dif_neg (fun both => room both.2), if_neg room]

variable {value} in
theorem mem_next {c : Capped V} {other : V} (seen : other ∈ (c.next value).seen) :
    other ∈ c.seen ∨ other = value := by
  rw [next_seen] at seen
  split at seen
  · exact (Finset.mem_insert.mp seen).symm
  · exact .inl seen

theorem seen_subset : c.seen ⊆ (c.next value).seen := by
  rw [next_seen]
  split
  · exact Finset.subset_insert ..
  · exact Finset.Subset.refl _

end Steps

@[simp] theorem run_nil (c : Capped V) : c.run [] = c := rfl

@[simp] theorem run_cons (c : Capped V) (value : V) (values : List V) :
    c.run (value :: values) = (c.next value).run values := rfl

theorem run_concat (c : Capped V) (values : List V) (value : V) :
    c.run (values ++ [value]) = (c.run values).next value := Run.runFrom_append ..

@[simp] theorem run_cap (values : List V) : ∀ c : Capped V, (c.run values).cap = c.cap := by
  induction values with
  | nil => exact fun _ => rfl
  | cons value values ih => exact fun c => (ih (c.next value)).trans (c.next_cap value)

theorem run_subset (values : List V) : ∀ c : Capped V, c.seen ⊆ (c.run values).seen := by
  induction values with
  | nil => exact fun c => Finset.Subset.refl c.seen
  | cons value values ih => exact fun c => (c.seen_subset value).trans (ih _)

/-- Once there is no room, nothing more gets a label. -/
theorem run_full {c : Capped V} (full : c.cap ≤ c.seen.card) (values : List V) :
    c.run values = c := by
  induction values with
  | nil => rfl
  | cons value values ih =>
      have kept : c.next value = c := dif_neg fun room => absurd room.2 (Nat.not_lt.mpr full)
      rw [run_cons, kept, ih]

/-- A value that has just asked for a label has one at the end if it has one now. -/
theorem mem_run_iff (c : Capped V) (value : V) (values : List V) :
    value ∈ ((c.next value).run values).seen ↔ value ∈ (c.next value).seen := by
  refine ⟨fun later => ?_, fun now => run_subset values _ now⟩
  rw [next_seen]
  by_cases room : c.seen.card < c.cap
  · rw [if_pos room]
    exact Finset.mem_insert_self ..
  · have kept : c.next value = c := dif_neg fun both => room both.2
    rw [kept, run_full (Nat.le_of_not_lt room)] at later
    rw [if_neg room]
    exact later

/-- The labels of a run: what has one at the end of it had one all along. -/
theorem labels_eq (other : V) (values : List V) : ∀ c : Capped V,
    labels other c values =
      values.map fun value => if value ∈ (c.run values).seen then value else other := by
  induction values with
  | nil => exact fun _ => rfl
  | cons value values ih =>
      intro c
      rw [labels, ih, run_cons, List.map_cons, label]
      congr 1
      exact if_congr (mem_run_iff c value values).symm rfl rfl

theorem labels_concat (other : V) (values : List V) (value : V) : ∀ c : Capped V,
    labels other c (values ++ [value]) =
      labels other c values ++ [(c.run values).label other value] := by
  induction values with
  | nil => exact fun _ => rfl
  | cons first values ih =>
      intro c
      rw [List.cons_append, labels, labels, ih, List.cons_append, run_cons]

/-! ## The first values of a run -/

/-- The first distinct values, oldest first. -/
def firsts (cap : Nat) (values : List V) : List V := values.reverse.dedup.reverse.take cap

theorem firsts_concat (cap : Nat) (values : List V) (value : V) :
    firsts cap (values ++ [value]) =
      if value ∉ values ∧ (firsts cap values).length < cap then firsts cap values ++ [value]
      else firsts cap values := by
  unfold firsts
  rw [List.reverse_append, List.reverse_singleton, List.singleton_append]
  by_cases known : value ∈ values
  · rw [if_neg (fun both => both.1 known), List.dedup_cons_of_mem (List.mem_reverse.mpr known)]
  · rw [List.dedup_cons_of_notMem (mt List.mem_reverse.mp known), List.reverse_cons,
      List.length_take]
    generalize values.reverse.dedup.reverse = distinct
    by_cases room : distinct.length < cap
    · have longer : (distinct ++ [value]).length ≤ cap := by
        rw [List.length_append, List.length_singleton]
        exact room
      rw [if_pos ⟨known, (Nat.min_le_right ..).trans_lt room⟩, List.take_of_length_le longer,
        List.take_of_length_le room.le]
    · rw [if_neg (fun both => room (by omega)),
        List.take_append_of_le_length (Nat.le_of_not_lt room)]

theorem firsts_nodup (cap : Nat) (values : List V) : (firsts cap values).Nodup :=
  (List.nodup_reverse.mpr (List.nodup_dedup _)).sublist (List.take_sublist ..)

theorem mem_of_mem_firsts {cap : Nat} {values : List V} {value : V}
    (first : value ∈ firsts cap values) : value ∈ values := by
  have listed := List.mem_of_mem_take first
  rwa [List.mem_reverse, List.mem_dedup, List.mem_reverse] at listed

/-- While there is room, every value is among the first. -/
theorem mem_firsts_of_room {cap : Nat} {values : List V} (room : (firsts cap values).length < cap)
    (value : V) : value ∈ firsts cap values ↔ value ∈ values := by
  have short : values.reverse.dedup.reverse.length < cap := by
    rw [firsts, List.length_take] at room
    omega
  rw [firsts, List.take_of_length_le short.le, List.mem_reverse, List.mem_dedup, List.mem_reverse]

/-- A run from nothing labels the first distinct values there is room for. -/
theorem run_new (cap : Nat) (values : List V) :
    ((new cap).run values).seen = (firsts cap values).toFinset := by
  induction values using List.reverseRecOn with
  | nil => simp [firsts, new]
  | append_singleton values value ih =>
      have size : (firsts cap values).toFinset.card = (firsts cap values).length :=
        List.toFinset_card_of_nodup (firsts_nodup cap values)
      rw [run_concat, next_seen, run_cap, new_cap, ih, size, firsts_concat]
      by_cases room : (firsts cap values).length < cap
      · rw [if_pos room]
        by_cases known : value ∈ values
        · rw [if_neg (fun both => both.1 known)]
          exact Finset.insert_eq_of_mem
            (List.mem_toFinset.mpr ((mem_firsts_of_room room value).mpr known))
        · rw [if_pos ⟨known, room⟩]
          ext other
          simp
      · rw [if_neg room, if_neg (fun both => room both.2)]

/-- From nothing, the first distinct values are labels of their own. -/
theorem labels_new (other : V) (cap : Nat) (values : List V) :
    labels other (new cap) values =
      values.map fun value => if value ∈ firsts cap values then value else other := by
  rw [labels_eq]
  apply List.map_congr_left
  intro value _
  exact if_congr (by rw [run_new, List.mem_toFinset]) rfl rfl

end Capped
