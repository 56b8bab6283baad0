import Mathlib.Data.Nat.Notation

/-! # Numbers as text

What a number is printed as: digits, behind a minus sign where it is below zero.
-/

namespace Digits

/-- Each character is a digit below the base. -/
theorem mem_toDigits {base : Nat} (more : 1 < base) {n : Nat} {char : Char}
    (inside : char ∈ Nat.toDigits base n) : ∃ digit < base, char = Nat.digitChar digit := by
  induction n using Nat.strongRecOn with
  | ind n ih =>
      rw [Nat.toDigits_eq_if more] at inside
      split at inside
      · rename_i small
        exact ⟨n, small, List.mem_singleton.mp inside⟩
      · rename_i large
        rcases List.mem_append.mp inside with front | last
        · exact ih (n / base) (Nat.div_lt_self (by omega) more) front
        · exact ⟨n % base, Nat.mod_lt n (by omega), List.mem_singleton.mp last⟩

theorem toString_nat {n : Nat} {char : Char} (inside : char ∈ (toString n).toList) :
    char.isDigit := by
  rw [Nat.toString_eq_ofList_toDigits, String.toList_ofList] at inside
  exact Nat.isDigit_of_mem_toDigits (by decide) (by decide) inside

theorem toString_int {i : Int} {char : Char} (inside : char ∈ (toString i).toList) :
    char = '-' ∨ char.isDigit := by
  rw [Int.toString_eq_repr, Int.repr_eq_if] at inside
  split at inside
  · exact .inr (toString_nat inside)
  · rw [String.toList_append, List.mem_append] at inside
    rcases inside with sign | digit
    · exact .inl (by simpa using sign)
    · exact .inr (toString_nat digit)

end Digits
