import Mathlib.Algebra.Ring.Nat

/-! # Reading in chunks

A source hands its items out in pieces of its own choosing, and a reader that waits for more
may be dropped and called again. What ends up in a buffer depends on neither.
-/

namespace Chunks

variable {B : Type}

/-- How a read ends: with at most `limit + 1` items, or with the reader dropped. -/
inductive Answer where
  | chunk (limit : Nat)
  | cancel
  deriving DecidableEq, Repr

/-- Reads among the answers. -/
def reads : List Answer → Nat
  | [] => 0
  | .chunk _ :: rest => reads rest + 1
  | .cancel :: rest => reads rest

/-- How far filling a buffer came. -/
inductive Fill (B : Type) where
  | full (buffer left : List B) (answers : List Answer)
  /-- The source ended first. -/
  | ended (buffer : List B) (answers : List Answer)
  | dropped (buffer left : List B) (answers : List Answer)
  /-- The last read is not answered yet. -/
  | waiting (buffer left : List B)

/-- Reads into a buffer until it holds `size` items. -/
def fill (size : Nat) (buffer left : List B) : List Answer → Fill B
  | [] => if size ≤ buffer.length then .full buffer left [] else .waiting buffer left
  | answer :: rest =>
      if size ≤ buffer.length then .full buffer left (answer :: rest)
      else
        match answer with
        | .cancel => .dropped buffer left rest
        | .chunk limit =>
            if left.isEmpty then .ended buffer rest
            else
              let n := min (limit + 1) (size - buffer.length)
              fill size (buffer ++ left.take n) (left.drop n) rest

/-- Nothing is lost or read twice, the buffer does not run over, and every read took at
    least one item. -/
structure Kept (size : Nat) (buffer left : List B) (answers : List Answer)
    (buffer' left' : List B) (answers' : List Answer) : Prop where
  items : buffer' ++ left' = buffer ++ left
  grows : buffer.length ≤ buffer'.length
  room : buffer'.length ≤ size
  progress : reads answers + left'.length ≤ reads answers' + left.length

/-- What a fill comes to. -/
def Filled (size : Nat) (buffer left : List B) (answers : List Answer) : Fill B → Prop
  | .full buffer' left' answers' =>
      Kept size buffer left answers buffer' left' answers' ∧ buffer'.length = size ∧
        (answers'.length < answers.length ∨ buffer.length = size ∧ answers' = answers)
  | .ended buffer' _ => buffer' = buffer ++ left ∧ buffer'.length < size
  | .dropped buffer' left' answers' =>
      Kept size buffer left answers buffer' left' answers' ∧ buffer'.length < size ∧
        answers'.length < answers.length
  | .waiting buffer' left' =>
      Kept size buffer left answers buffer' left' [] ∧ buffer'.length < size

theorem Kept.refl {size : Nat} {buffer left : List B} (room : buffer.length ≤ size)
    (answers : List Answer) : Kept size buffer left answers buffer left answers where
  items := rfl
  grows := Nat.le_refl _
  room := room
  progress := Nat.le_refl _

theorem Kept.chunk {size limit : Nat} {buffer left buffer' left' : List B}
    {rest answers' : List Answer} (filled : left ≠ []) (short : buffer.length < size)
    (kept : Kept size (buffer ++ left.take (min (limit + 1) (size - buffer.length)))
      (left.drop (min (limit + 1) (size - buffer.length))) rest buffer' left' answers') :
    Kept size buffer left (.chunk limit :: rest) buffer' left' answers' where
  items := by
    rw [kept.items, List.append_assoc, List.take_append_drop]
  grows := by
    have more := kept.grows
    rw [List.length_append] at more
    omega
  room := kept.room
  progress := by
    have taken := kept.progress
    have positive := List.length_pos_iff.mpr filled
    simp only [reads, List.length_drop] at taken ⊢
    omega

/-- A read carries what the rest of the fill comes to over to the whole. -/
theorem Filled.chunk {size limit : Nat} {buffer left : List B} {rest : List Answer}
    (filled : left ≠ []) (short : buffer.length < size) {outcome : Fill B}
    (filled : Filled size (buffer ++ left.take (min (limit + 1) (size - buffer.length)))
      (left.drop (min (limit + 1) (size - buffer.length))) rest outcome) :
    Filled size buffer left (.chunk limit :: rest) outcome := by
  cases outcome with
  | full buffer' left' answers' =>
      obtain ⟨kept, size', fewer⟩ := filled
      refine ⟨kept.chunk filled short, size', .inl ?_⟩
      rw [List.length_cons]
      rcases fewer with fewer | ⟨-, rfl⟩
      · omega
      · omega
  | ended buffer' answers' =>
      obtain ⟨all, size'⟩ := filled
      rw [List.append_assoc, List.take_append_drop] at all
      exact ⟨all, size'⟩
  | dropped buffer' left' answers' =>
      obtain ⟨kept, size', fewer⟩ := filled
      exact ⟨kept.chunk filled short, size', Nat.lt_succ_of_lt fewer⟩
  | waiting buffer' left' =>
      obtain ⟨kept, size'⟩ := filled
      exact ⟨kept.chunk filled short, size'⟩

theorem fill_spec (size : Nat) (answers : List Answer) :
    ∀ buffer left : List B, buffer.length ≤ size →
      Filled size buffer left answers (fill size buffer left answers) := by
  induction answers with
  | nil =>
      intro buffer left room
      unfold fill
      split
      · exact ⟨.refl room [], by omega, .inr ⟨by omega, rfl⟩⟩
      · exact ⟨.refl room [], by omega⟩
  | cons answer rest ih =>
      intro buffer left room
      unfold fill
      split
      · exact ⟨.refl room _, by omega, .inr ⟨by omega, rfl⟩⟩
      · rename_i short
        cases answer with
        | cancel =>
            refine ⟨⟨rfl, Nat.le_refl _, room, ?_⟩, by omega, Nat.lt_succ_self _⟩
            simp [reads]
        | chunk limit =>
            simp only
            split
            · rename_i nothing
              obtain rfl := List.isEmpty_iff.mp nothing
              exact ⟨by simp, by omega⟩
            · rename_i filled
              refine Filled.chunk (by simpa using filled) (by omega) (ih _ _ ?_)
              simp only [List.length_append, List.length_take]
              omega

/-! ## Reading an exact number -/

/-- A source with the sizes of the pieces it will hand out, after which it hands out all that
    is asked for. -/
structure Source (B : Type) where
  left : List B
  cuts : List Nat

namespace Source

/-- How many of `room` items the next read gets. -/
def piece (s : Source B) (room : Nat) : Nat :=
  match s.cuts with
  | [] => room
  | cut :: _ => min (cut + 1) room

def advance (s : Source B) (n : Nat) : Source B := ⟨s.left.drop n, s.cuts.tail⟩

theorem piece_pos (s : Source B) (room : Nat) (positive : 0 < room) : 0 < s.piece room := by
  unfold piece
  split <;> omega

theorem piece_le (s : Source B) (room : Nat) : s.piece room ≤ room := by
  unfold piece
  split <;> omega

/-- Reads until it has all of what is asked for, or the source ends. -/
def readExact (need : Nat) (s : Source B) : Option (List B) × Source B :=
  if h : need = 0 then (some [], s)
  else if s.left.isEmpty then (none, s)
  else
    have := s.piece_pos need (Nat.pos_of_ne_zero h)
    let rest := readExact (need - (s.left.take (s.piece need)).length) (s.advance (s.piece need))
    (rest.1.map (s.left.take (s.piece need) ++ ·), rest.2)
termination_by need
decreasing_by
  rename_i more
  have := List.length_pos_iff.mpr (by simpa using more)
  simp only [List.length_take]
  omega

/-- However the source cuts it, the reader gets the next `need` items, if there are so many. -/
theorem readExact_spec (need : Nat) : ∀ s : Source B,
    (s.readExact need).1 = (if need ≤ s.left.length then some (s.left.take need) else none) ∧
      (s.readExact need).2.left = s.left.drop need := by
  induction need using Nat.strongRecOn with
  | ind need ih =>
      intro s
      rw [readExact]
      split
      · rename_i empty
        subst empty
        simp
      · split
        · rename_i empty
          obtain empty := List.isEmpty_iff.mp empty
          simp [*]
        · rename_i more
          have filled := List.length_pos_iff.mpr (by simpa using more)
          have fits := s.piece_le need
          have positive := s.piece_pos need (by omega)
          obtain ⟨bytes, left⟩ := ih (need - (s.left.take (s.piece need)).length)
            (by simp only [List.length_take]; omega) (s.advance (s.piece need))
          simp only [advance, List.length_take, List.length_drop, List.drop_drop] at bytes left ⊢
          rw [bytes, left]
          by_cases enough : s.piece need ≤ s.left.length
          · rw [Nat.min_eq_left enough]
            have whole : s.piece need + (need - s.piece need) = need := by omega
            rw [whole]
            refine ⟨?_, rfl⟩
            by_cases all : need ≤ s.left.length
            · rw [if_pos (by omega), if_pos all, Option.map_some, ← List.take_add, whole]
            · rw [if_neg (by omega), if_neg all, Option.map_none]
          · rw [Nat.min_eq_right (by omega), if_neg (by omega), if_neg (by omega), Option.map_none,
              List.drop_eq_nil_of_le (by omega), List.drop_eq_nil_of_le (by omega)]
            exact ⟨rfl, rfl⟩

theorem readExact_append {s : Source B} (items : List B) {rest : List B} (left : s.left = items ++ rest) :
    ∃ after : Source B, s.readExact items.length = (some items, after) ∧ after.left = rest := by
  obtain ⟨read, unread⟩ := s.readExact_spec items.length
  rw [left, List.length_append, if_pos (by omega), List.take_left] at read
  rw [left, List.drop_left] at unread
  exact ⟨(s.readExact items.length).2, Prod.ext read rfl, unread⟩

theorem readExact_short {s : Source B} (need : Nat) (short : s.left.length < need) :
    (s.readExact need).1 = none := by
  obtain ⟨read, -⟩ := s.readExact_spec need
  rw [read, if_neg (by omega)]

end Source

end Chunks
