import Mathlib.Data.List.Infix

/-! # Cursors on a slice

A reader takes a value from the front of some bytes and leaves the rest. On a slice with a
cursor it reads at the cursor's position and moves it.
-/

/-- What reads a value from the front of a list, if it can, and what it leaves. -/
abbrev Reader (β α : Type) := List β → Option (α × List β)

namespace Reader

variable {α β : Type}

/-- A reader that leaves what it has not read. -/
def Leaves (reader : Reader β α) : Prop :=
  ∀ bytes a rest, reader bytes = some (a, rest) → rest <:+ bytes

end Reader

/-- A position in a slice. -/
structure Cursor where
  position : Nat

namespace Cursor

variable {α β : Type}

/-- The part of the slice that has not been read. -/
def remaining (slice : List β) (cursor : Cursor) : List β := slice.drop cursor.position

/-- Read at the cursor and move it past what was read. -/
def read (slice : List β) (reader : Reader β α) (cursor : Cursor) : Option (α × Cursor) :=
  (reader (cursor.remaining slice)).map fun (a, rest) =>
    (a, ⟨cursor.position + ((cursor.remaining slice).length - rest.length)⟩)

variable {slice : List β} {reader : Reader β α} {cursor : Cursor}

theorem read_none (stuck : reader (cursor.remaining slice) = none) :
    cursor.read slice reader = none := by
  rw [read, stuck, Option.map_none]

/-- A cursor is left where the reader leaves the rest. -/
theorem read_some (leaves : reader.Leaves) (inside : cursor.position ≤ slice.length) {a : α}
    {rest : List β} (reads : reader (cursor.remaining slice) = some (a, rest)) :
    ∃ cursor' : Cursor, cursor.read slice reader = some (a, cursor') ∧
      cursor'.remaining slice = rest ∧ cursor'.position ≤ slice.length := by
  have behind := leaves _ _ _ reads
  have moved : cursor.read slice reader =
      some (a, ⟨cursor.position + ((cursor.remaining slice).length - rest.length)⟩) := by
    rw [read, reads, Option.map_some]
  refine ⟨_, moved, ?_, ?_⟩
  · unfold remaining at behind ⊢
    rw [← List.drop_drop]
    exact (List.suffix_iff_eq_drop.mp behind).symm
  · unfold remaining
    rw [List.length_drop]
    dsimp only
    omega

/-- A range of the slice, if it is inside. -/
def range (slice : List β) (start stop : Nat) : Option (List β) :=
  if start ≤ stop ∧ stop ≤ slice.length then some ((slice.drop start).take (stop - start))
  else none

/-- The next elements are there exactly if so many remain. -/
theorem range_eq (cursor : Cursor) (inside : cursor.position ≤ slice.length) (n : Nat) :
    range slice cursor.position (cursor.position + n) =
      if n ≤ (cursor.remaining slice).length then some ((cursor.remaining slice).take n)
      else none := by
  unfold range remaining
  rw [Nat.add_sub_cancel_left, List.length_drop]
  by_cases fits : cursor.position + n ≤ slice.length
  · rw [if_pos ⟨Nat.le_add_right .., fits⟩, if_pos (by omega)]
  · rw [if_neg fun both => fits both.2, if_neg (by omega)]

end Cursor
