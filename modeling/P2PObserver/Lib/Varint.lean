import Mathlib.Algebra.Ring.Nat

/-! # Varints

A number in bytes of seven bits, the lowest first, every byte but the last with its top bit
set.
-/

/-- A byte string that ends where its continuation bits say so. -/
structure IsVarint (bytes : List UInt8) : Prop where
  delimited : ∃ front last, bytes = front ++ [last] ∧ (∀ byte ∈ front, byte &&& 0x80 ≠ 0) ∧
    last &&& 0x80 = 0
  /-- Ten bytes hold any 64-bit number. -/
  short : bytes.length ≤ 10

namespace Varint

def encode (n : Nat) : List UInt8 :=
  if n < 128 then [UInt8.ofNat n] else UInt8.ofNat (n % 128 + 128) :: encode (n / 128)

/-- The number at the front of some bytes, and the bytes after it. -/
def decode : List UInt8 → Option (Nat × List UInt8)
  | [] => none
  | byte :: rest =>
      if byte &&& 0x80 = 0 then some (byte.toNat, rest)
      else (decode rest).map fun (n, left) => (byte.toNat % 128 + 128 * n, left)

theorem top_bit_clear (byte : UInt8) : byte &&& 0x80 = 0 ↔ byte.toNat < 128 := by
  have all : ∀ i : Fin 256, UInt8.ofFin i &&& 0x80 = 0 ↔ i.val < 128 := by decide +kernel
  exact all byte.toFin

theorem last_byte {n : Nat} (small : n < 128) : UInt8.ofNat n &&& 0x80 = 0 := by
  rw [top_bit_clear, UInt8.toNat_ofNat']
  omega

theorem front_byte (n : Nat) : UInt8.ofNat (n % 128 + 128) &&& 0x80 ≠ 0 := by
  rw [Ne, top_bit_clear, UInt8.toNat_ofNat']
  omega

theorem decode_encode_append (n : Nat) (rest : List UInt8) :
    decode (encode n ++ rest) = some (n, rest) := by
  induction n using Nat.strongRecOn with
  | ind n ih =>
      rw [encode]
      split
      · rename_i small
        have byte : (UInt8.ofNat n).toNat = n := by
          rw [UInt8.toNat_ofNat']
          omega
        simp [decode, last_byte small, byte]
      · have byte : (UInt8.ofNat (n % 128 + 128)).toNat % 128 = n % 128 := by
          rw [UInt8.toNat_ofNat']
          omega
        have number : n % 128 + 128 * (n / 128) = n := Nat.mod_add_div n 128
        rw [List.cons_append, decode, if_neg (front_byte n), ih (n / 128) (by omega),
          Option.map_some, byte]
        exact congrArg (fun m => some (m, rest)) number

theorem decode_encode (n : Nat) : decode (encode n) = some (n, []) := by
  have decoded := decode_encode_append n []
  rw [List.append_nil] at decoded
  exact decoded

theorem encode_delimited (n : Nat) : ∃ front last, encode n = front ++ [last] ∧
    (∀ byte ∈ front, byte &&& 0x80 ≠ 0) ∧ last &&& 0x80 = 0 := by
  induction n using Nat.strongRecOn with
  | ind n ih =>
      rw [encode]
      split
      · rename_i small
        exact ⟨[], UInt8.ofNat n, rfl, by simp, last_byte small⟩
      · obtain ⟨front, last, bytes, continued, ends⟩ := ih (n / 128) (by omega)
        refine ⟨UInt8.ofNat (n % 128 + 128) :: front, last, by rw [bytes]; rfl, ?_, ends⟩
        intro byte listed
        cases listed with
        | head => exact front_byte n
        | tail _ later => exact continued byte later

theorem encode_ne_nil (n : Nat) : encode n ≠ [] := by
  obtain ⟨front, last, bytes, -⟩ := encode_delimited n
  rw [bytes]
  simp

theorem encode_length_le (room : Nat) : ∀ n, n < 128 ^ (room + 1) →
    (encode n).length ≤ room + 1 := by
  induction room with
  | zero =>
      intro n small
      rw [encode, if_pos (by omega)]
      simp
  | succ room ih =>
      intro n small
      rw [encode]
      split
      · simp
      · have rest := ih (n / 128) (by rw [Nat.pow_succ] at small; omega)
        rw [List.length_cons]
        omega

theorem encode_isVarint {n : Nat} (fits : n < 2 ^ 64) : IsVarint (encode n) where
  delimited := encode_delimited n
  short := encode_length_le 9 n (Nat.lt_of_lt_of_le fits (by decide))

end Varint
