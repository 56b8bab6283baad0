import Mathlib.Data.String.Basic

/-! # Texts by byte offset

A text is its characters, a place in it the number of bytes before it. A cut inside a character is
a failure, and what a search finds is always a place between two characters.
-/

namespace Slices

open String (utf8Len utf8Len_cons)

/-- The text before a place and the text behind it, none inside a character or past the end. -/
def cut : List Char → Nat → Option (List Char × List Char)
  | text, 0 => some ([], text)
  | [], _ + 1 => none
  | char :: rest, n + 1 =>
      if char.utf8Size ≤ n + 1 then
        (cut rest (n + 1 - char.utf8Size)).map fun parts => (char :: parts.1, parts.2)
      else none

/-- The place of the first character the pattern accepts. -/
def find (pattern : Char → Bool) : List Char → Option Nat
  | [] => none
  | char :: rest =>
      if pattern char then some 0 else (find pattern rest).map (char.utf8Size + ·)

/-- Between two texts is a place. -/
theorem cut_append (text more : List Char) :
    cut (text ++ more) (utf8Len text) = some (text, more) := by
  induction text with
  | nil =>
      rw [List.nil_append]
      cases more <;> rfl
  | cons char rest ih =>
      have positive := char.utf8Size_pos
      obtain ⟨n, size_eq⟩ := Nat.exists_eq_succ_of_ne_zero (Nat.pos_iff_ne_zero.mp positive)
      have place : utf8Len (char :: rest) = (n + utf8Len rest) + 1 := by
        rw [utf8Len_cons]
        omega
      have behind : n + utf8Len rest + 1 - char.utf8Size = utf8Len rest := by omega
      rw [place, List.cons_append, cut, if_pos (by omega), behind, ih]
      rfl

/-- Nothing the pattern accepts, or a first character it does. -/
theorem find_spec (pattern : Char → Bool) (text : List Char) :
    (find pattern text = none ∧ ∀ char ∈ text, pattern char = false) ∨
      ∃ front char back, text = front ++ char :: back ∧ find pattern text = some (utf8Len front) ∧
        pattern char = true ∧ ∀ char ∈ front, pattern char = false := by
  induction text with
  | nil => exact .inl ⟨rfl, by simp⟩
  | cons char rest ih =>
      by_cases accepted : pattern char = true
      · exact .inr ⟨[], char, rest, rfl, if_pos accepted, accepted, by simp⟩
      · have refused : pattern char = false := by simpa using accepted
        rcases ih with ⟨not_found, all⟩ | ⟨front, found, back, rfl, at_, accepts, all⟩
        · refine .inl ⟨?_, List.forall_mem_cons.mpr ⟨refused, all⟩⟩
          rw [find, if_neg accepted, not_found, Option.map_none]
        · refine .inr ⟨char :: front, found, back, rfl, ?_, accepts,
            List.forall_mem_cons.mpr ⟨refused, all⟩⟩
          rw [find, if_neg accepted, at_, Option.map_some, utf8Len_cons, Nat.add_comm]

end Slices
