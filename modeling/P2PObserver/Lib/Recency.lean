import Mathlib.Data.List.Dedup
import Mathlib.Data.List.DropRight

/-! # Keys by their last use

What a memory of a fixed size holds when it forgets the key it has gone longest without
using: the last keys of the history of uses, each at the place of its last use.
-/

namespace Recency

variable {K : Type}

/-- Cutting a list back to its end does not look at what is before that end. -/
theorem rtake_append_of_le {old new : List K} {bound : Nat} (le : bound ≤ new.length) :
    (old ++ new).rtake bound = new.rtake bound := by
  have place : (old ++ new).length - bound = old.length + (new.length - bound) := by
    rw [List.length_append]
    omega
  rw [List.rtake, List.rtake, place, List.drop_append]
  simp

theorem rtake_of_length_le {keys : List K} {bound : Nat} (le : keys.length ≤ bound) :
    keys.rtake bound = keys := by
  rw [List.rtake, Nat.sub_eq_zero_of_le le, List.drop_zero]

theorem length_rtake_le (keys : List K) (bound : Nat) : (keys.rtake bound).length ≤ bound := by
  rw [List.rtake, List.length_drop]
  omega

/-- What is cut off a list is empty, or all the room is taken. -/
theorem rtake_split (keys : List K) (bound : Nat) :
    ∃ old, keys = old ++ keys.rtake bound ∧ (old = [] ∨ (keys.rtake bound).length = bound) := by
  refine ⟨keys.take (keys.length - bound), (List.take_append_drop ..).symm, ?_⟩
  by_cases le : keys.length ≤ bound
  · left
    rw [Nat.sub_eq_zero_of_le le, List.take_zero]
  · right
    rw [List.rtake, List.length_drop]
    omega

theorem exists_last_use {uses : List K} {k : K} (used : k ∈ uses) :
    ∃ before after, uses = before ++ k :: after ∧ k ∉ after := by
  obtain ⟨after, before, split, last⟩ := List.eq_append_cons_of_mem (List.mem_reverse.mpr used)
  refine ⟨before.reverse, after.reverse, ?_, by simpa using last⟩
  rw [← List.reverse_reverse uses, split]
  simp

variable [DecidableEq K]

/-- Using a key moves it to the end. -/
theorem dedup_concat (uses : List K) (k : K) :
    (uses ++ [k]).dedup = uses.dedup.erase k ++ [k] := by
  induction uses with
  | nil => simp
  | cons head rest ih =>
      rw [List.cons_append, List.dedup_cons, List.dedup_cons, ih]
      by_cases again : head ∈ rest
      · rw [if_pos again, if_pos (List.mem_append_left _ again)]
      · rw [if_neg again]
        by_cases same : head = k
        · subst same
          have absent : head ∉ rest.dedup := fun member => again (List.mem_dedup.mp member)
          rw [if_pos (by simp), List.erase_cons_head, List.erase_of_not_mem absent]
        · rw [if_neg (by simp [again, same]), List.erase_cons_tail (by simpa using same),
            List.cons_append]

theorem dedup_suffix (uses more : List K) : more.dedup <:+ (uses ++ more).dedup := by
  induction uses with
  | nil => exact List.suffix_rfl
  | cons head rest ih =>
      rw [List.cons_append, List.dedup_cons]
      split
      · exact ih
      · exact ih.trans (List.suffix_cons ..)

/-- The `bound` keys used last, in the order of their last uses. -/
def recent (bound : Nat) (uses : List K) : List K := uses.dedup.rtake bound

@[simp] theorem recent_nil (bound : Nat) : recent bound ([] : List K) = [] := List.rtake_nil ..

variable {bound : Nat} {uses : List K} {k : K}

theorem recent_suffix (bound : Nat) (uses : List K) : recent bound uses <:+ uses.dedup :=
  List.drop_suffix ..

theorem length_recent_le (bound : Nat) (uses : List K) : (recent bound uses).length ≤ bound :=
  length_rtake_le ..

theorem mem_uses_of_recent (member : k ∈ recent bound uses) : k ∈ uses :=
  List.mem_dedup.mp ((recent_suffix bound uses).subset member)

/-- Using a key that is there forgets none. -/
theorem recent_concat_of_mem (member : k ∈ recent bound uses) :
    recent bound (uses ++ [k]) = (recent bound uses).erase k ++ [k] := by
  obtain ⟨old, split, full⟩ := rtake_split uses.dedup bound
  have distinct := List.nodup_dedup uses
  have here : (recent bound uses).length ≤ bound := length_recent_le bound uses
  have fewer := List.length_erase_of_mem member
  have some_room : 0 < (recent bound uses).length := List.length_pos_of_mem member
  rw [split] at distinct
  have apart : k ∉ old := fun early => (List.nodup_append.mp distinct).2.2 k early k member rfl
  obtain ⟨others, rfl⟩ : ∃ others, bound = others + 1 := ⟨bound - 1, by omega⟩
  rw [recent, dedup_concat, List.rtake_concat_succ, split, List.erase_append_right _ apart,
    ← recent]
  congr 1
  cases full with
  | inl unused =>
      rw [unused, List.nil_append]
      exact rtake_of_length_le (by omega)
  | inr full =>
      rw [← recent] at full
      rw [rtake_append_of_le (by omega)]
      exact rtake_of_length_le (by omega)

/-- Using a key that is not there forgets at most the one longest unused. -/
theorem recent_concat_of_notMem (room : 0 < bound) (new : k ∉ recent bound uses) :
    recent bound (uses ++ [k]) = (recent bound uses ++ [k]).rtake bound := by
  obtain ⟨old, split, full⟩ := rtake_split uses.dedup bound
  obtain ⟨others, rfl⟩ : ∃ others, bound = others + 1 := ⟨bound - 1, by omega⟩
  rw [← recent] at split full
  rw [recent, dedup_concat, List.rtake_concat_succ, List.rtake_concat_succ, split]
  congr 1
  cases full with
  | inl unused => rw [unused, List.nil_append, List.erase_of_not_mem new]
  | inr full =>
      by_cases early : k ∈ old
      · rw [List.erase_append_left _ early, rtake_append_of_le (by omega)]
      · have absent : k ∉ old ++ recent (others + 1) uses := by
          simp [early, new]
        rw [List.erase_of_not_mem absent, rtake_append_of_le (by omega)]

/-- The key used last is there. -/
theorem mem_recent_concat (room : 0 < bound) : k ∈ recent bound (uses ++ [k]) := by
  obtain ⟨others, rfl⟩ : ∃ others, bound = others + 1 := ⟨bound - 1, by omega⟩
  rw [recent, dedup_concat, List.rtake_concat_succ]
  exact List.mem_append_right _ List.mem_cons_self

/-- So is the one used before it, where there is room for two. -/
theorem mem_recent_concat_concat (room : 1 < bound) (next : K) :
    k ∈ recent bound (uses ++ [k] ++ [next]) := by
  by_cases same : k = next
  · subst same
    exact mem_recent_concat (by omega)
  · obtain ⟨others, rfl⟩ : ∃ others, bound = others + 2 := ⟨bound - 2, by omega⟩
    have kept : (uses.dedup.erase k ++ [k]).erase next =
        (uses.dedup.erase k).erase next ++ [k] := by
      have other : next ∉ [k] := by simpa using Ne.symm same
      rw [List.erase_append]
      split
      · rfl
      · rename_i absent
        rw [List.erase_of_not_mem absent, List.erase_of_not_mem other]
    rw [recent, dedup_concat, dedup_concat, List.rtake_concat_succ, kept, List.rtake_concat_succ]
    simp

/-- The last use of one key came before a use of the other. -/
def UsedBefore (older newer : K) (uses : List K) : Prop :=
  ∃ before after, uses = before ++ older :: after ∧ older ∉ after ∧ newer ∈ after

/-- What is forgotten went unused longer than anything that is kept. -/
theorem usedBefore_of_recent {older newer : K} (used : older ∈ uses)
    (forgotten : older ∉ recent bound uses) (kept : newer ∈ recent bound uses) :
    UsedBefore older newer uses := by
  obtain ⟨before, after, rfl, last⟩ := exists_last_use used
  refine ⟨before, after, rfl, last, ?_⟩
  have tail : (older :: after).dedup = older :: after.dedup := List.dedup_cons_of_notMem last
  have back := dedup_suffix before (older :: after)
  rw [tail] at back
  have inside : recent bound (before ++ older :: after) <:+ older :: after.dedup := by
    cases List.suffix_or_suffix_of_suffix back (recent_suffix bound _) with
    | inl all => exact absurd (all.subset List.mem_cons_self) forgotten
    | inr part => exact part
  cases List.suffix_cons_iff.mp inside with
  | inl all => exact absurd (all ▸ List.mem_cons_self) forgotten
  | inr part => exact List.mem_dedup.mp (part.subset kept)

end Recency
