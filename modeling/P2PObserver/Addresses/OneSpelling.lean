import Mathlib.Data.List.Induction
import P2PObserver.Addresses.Base32

/-! # One spelling of some bytes

The encoder's word keeps every bit that waits to be printed, and what it prints decodes. The other
way a text may have a whole digit of zeros to spare, which the decoder drops: then it is a second
spelling of the bytes, and there is no other kind.
-/

namespace P2PObserver

open Regroup

/-! ## The encoder's word -/

/-- What the encoder holds behind some bytes: the word it shifts through, and how many of its bits
    wait. -/
def encoderAfter (bytes : List UInt8) : UInt64 × Nat :=
  bytes.foldl (fun held byte =>
    let bits := held.1 <<< 8 ||| byte.toUInt64
    (bits, (base32Flush bits (held.2 + 8)).2)) (0, 0)

theorem encoderAfter_concat (bytes : List UInt8) (byte : UInt8) :
    encoderAfter (bytes ++ [byte]) =
      let bits := (encoderAfter bytes).1 <<< 8 ||| byte.toUInt64
      (bits, (base32Flush bits ((encoderAfter bytes).2 + 8)).2) := by
  simp only [encoderAfter, List.foldl_append, List.foldl_cons, List.foldl_nil]

/-- The encoder goes on from what it holds. -/
theorem base32Go_append (before after : List UInt8) :
    ∃ printed, base32Go (before ++ after) 0 0 =
      printed ++ base32Go after (encoderAfter before).1 (encoderAfter before).2 := by
  induction before using List.reverseRecOn generalizing after with
  | nil => exact ⟨[], rfl⟩
  | append_singleton before byte ih =>
      obtain ⟨printed, split⟩ := ih (byte :: after)
      rw [List.append_assoc, List.singleton_append, split, base32Go, encoderAfter_concat]
      exact ⟨_, (List.append_assoc ..).symm⟩

theorem base32Flush_left (bits : UInt64) (n : Nat) : (base32Flush bits n).2 = n % 5 := by
  induction n using Nat.strongRecOn with
  | ind n ih =>
      unfold base32Flush
      split
      · rename_i n
        rw [ih n (by omega)]
        omega
      · rename_i short
        have less : n < 5 := by
          by_contra more
          exact short (n - 5) (by omega)
        exact (Nat.mod_eq_of_lt less).symm

theorem encoderAfter_spec (bytes : List UInt8) :
    (encoderAfter bytes).2 = 8 * bytes.length % 5 ∧
      (encoderAfter bytes).1.toNat = value 8 (bytes.map (·.toNat)) % 2 ^ 64 := by
  induction bytes using List.reverseRecOn with
  | nil => exact ⟨rfl, rfl⟩
  | append_singleton bytes byte ih =>
      obtain ⟨waiting, held⟩ := ih
      rw [encoderAfter_concat]
      dsimp only
      rw [base32Flush_left, waiting, List.length_append, List.length_singleton]
      refine ⟨by omega, ?_⟩
      have byte_lt := byte.toNat_lt
      have shifted := shift_in 64 56 8 (by decide) (encoderAfter bytes).1.toNat byte_lt
      have word : ((encoderAfter bytes).1 <<< 8 ||| byte.toUInt64).toNat < 2 ^ 64 :=
        UInt64.toNat_lt _
      have same : ((encoderAfter bytes).1 <<< 8 ||| byte.toUInt64).toNat =
          (encoderAfter bytes).1.toNat <<< 8 % 2 ^ 64 ||| byte.toNat := by
        rw [UInt64.toNat_or, UInt64.toNat_shiftLeft, UInt8.toNat_toUInt64]
        rfl
      rw [← same, Nat.mod_eq_of_lt word, held] at shifted
      rw [shifted, List.map_append, List.map_singleton, value_append, value_singleton,
        List.length_singleton]
      omega

/-- The bits that wait when a byte comes in are the last of all the bytes. -/
theorem encoder_keeps (bytes : List UInt8) (byte : UInt8) :
    (encoderAfter bytes).2 = 8 * bytes.length % 5 ∧
      ((encoderAfter bytes).1 <<< 8 ||| byte.toUInt64).toNat % 2 ^ ((encoderAfter bytes).2 + 8) =
        value 8 ((bytes ++ [byte]).map (·.toNat)) % 2 ^ ((encoderAfter bytes).2 + 8) := by
  have after := (encoderAfter_spec (bytes ++ [byte])).2
  rw [encoderAfter_concat] at after
  dsimp only at after
  have waiting := (encoderAfter_spec bytes).1
  refine ⟨waiting, ?_⟩
  rw [after, Nat.mod_mod_of_dvd _ (Nat.pow_dvd_pow 2 (by omega))]

/-! ## Spare digits -/

/-- Letters of the alphabet, the last of which make no byte: a digit of them or more, and all
    zero. -/
def Spare (s : List Char) : Prop :=
  ∃ digits : List Nat, (∀ digit ∈ digits, digit < 32) ∧ digits.map digitChar = s ∧
    5 ≤ 5 * digits.length % 8 ∧ value 5 digits % 2 ^ (5 * digits.length % 8) = 0

/-- What decodes is digits that leave nothing but zeros over. -/
theorem base32Decode_some_iff {s : List Char} : (∃ bytes, base32Decode s = some bytes) ↔
    ∃ digits : List Nat, (∀ digit ∈ digits, digit < 32) ∧ digits.map digitChar = s ∧
      value 5 digits % 2 ^ (5 * digits.length % 8) = 0 := by
  have left {digits : List Nat} (small : ∀ digit ∈ digits, digit < 32) :
      (∃ bytes, base32Decode (digits.map digitChar) = some bytes) ↔
        value 5 digits % 2 ^ (5 * digits.length % 8) = 0 := by
    obtain ⟨spells, short⟩ := regroup_spells (w := 5) (v := 8) (by omega) digits 0 0 (by simp)
      (by omega) small
    have bits := spells.bits_eq
    have number := spells.number_eq
    have pending_lt := spells.pending_lt
    rw [Nat.zero_mul, Nat.zero_add] at number
    rw [Nat.zero_add] at bits
    have rest : (regroup 5 8 digits 0 0).bits = 5 * digits.length % 8 := by omega
    have pending : (regroup 5 8 digits 0 0).pending =
        value 5 digits % 2 ^ (5 * digits.length % 8) := by
      rw [← rest, ← number, Nat.mul_add_mod', Nat.mod_eq_of_lt pending_lt]
    rw [base32Decode, base32DecodeGo_eq digits 0 0 (by omega) small, ← pending, UInt32.toNat_zero,
      Nat.zero_mod, whole]
    split
    · rename_i zero
      simp [zero]
    · rename_i nonzero
      simp [nonzero]
  constructor
  · rintro ⟨bytes, decoded⟩
    obtain ⟨digits, small, rfl⟩ := base32DecodeGo_digits s decoded
    exact ⟨digits, small, rfl, (left small).mp ⟨bytes, decoded⟩⟩
  · rintro ⟨digits, small, spelled, zero⟩
    exact spelled ▸ (left small).mpr zero

theorem spare_iff {s : List Char} {bytes : List UInt8} (decoded : base32Decode s = some bytes) :
    Spare s ↔ 5 ≤ 5 * s.length % 8 := by
  obtain ⟨digits, small, spelled, zero⟩ := base32Decode_some_iff.mp ⟨bytes, decoded⟩
  have long : digits.length = s.length := by rw [← spelled, List.length_map]
  constructor
  · rintro ⟨digits', _, spelled', more, _⟩
    rwa [← spelled', List.length_map]
  · intro more
    exact ⟨digits, small, spelled, long ▸ more, zero⟩

theorem length_base32Encode (bytes : List UInt8) :
    ∃ pad < 5, 5 * (base32Encode bytes).toList.length = 8 * bytes.length + pad := by
  obtain ⟨pad, less, -, -, length⟩ := pack_spec (v := 5) (by omega) (bytes_lt bytes)
  refine ⟨pad, less, ?_⟩
  rwa [base32Encode_toList, List.length_map, ← List.length_map (fun byte : UInt8 => byte.toNat)]

/-- What decodes is the encoder's own spelling exactly when it has no digit to spare. -/
theorem base32Encode_eq_iff {s : List Char} {bytes : List UInt8}
    (decoded : base32Decode s = some bytes) :
    (base32Encode bytes).toList = s ↔ ¬Spare s := by
  obtain ⟨least, most, encoded⟩ := base32Encode_decode decoded
  rw [spare_iff decoded]
  constructor
  · rintro rfl
    obtain ⟨pad, less, length⟩ := length_base32Encode bytes
    have rest : 5 * (base32Encode bytes).toList.length % 8 = pad := by
      rw [length, Nat.mul_add_mod, Nat.mod_eq_of_lt (by omega)]
    omega
  · intro fits
    exact encoded (by omega)

/-- Bytes decode from what they encode to, for which the encoder's word has lost nothing; and a text
    is the encoding of what it decodes to exactly when it has no digit to spare, so that two such
    texts never decode to the same bytes. -/
theorem base32_own_spelling_iff (s : List Char) :
    ((∀ bytes, base32Decode s = some bytes → (base32Encode bytes).toList = s) ↔ ¬Spare s) ∧
      (∀ s' bytes, ¬Spare s → ¬Spare s' → base32Decode s = some bytes →
        base32Decode s' = some bytes → s = s') ∧
      (∀ bytes, base32Decode (base32Encode bytes).toList = some bytes) ∧
      (∀ (bytes : List UInt8) (byte : UInt8),
        (encoderAfter bytes).2 = 8 * bytes.length % 5 ∧
          ((encoderAfter bytes).1 <<< 8 ||| byte.toUInt64).toNat %
              2 ^ ((encoderAfter bytes).2 + 8) =
            value 8 ((bytes ++ [byte]).map (·.toNat)) % 2 ^ ((encoderAfter bytes).2 + 8)) ∧
      ∀ before after : List UInt8, ∃ printed, (base32Encode (before ++ after)).toList =
        printed ++ base32Go after (encoderAfter before).1 (encoderAfter before).2 := by
  refine ⟨?_, ?_, base32Decode_encode, encoder_keeps, ?_⟩
  · constructor
    · rintro own ⟨digits, small, spelled, more, zero⟩
      obtain ⟨bytes, decoded⟩ := base32Decode_some_iff.mpr ⟨digits, small, spelled, zero⟩
      exact (base32Encode_eq_iff decoded).mp (own bytes decoded)
        ⟨digits, small, spelled, more, zero⟩
    · intro fits bytes decoded
      exact (base32Encode_eq_iff decoded).mpr fits
  · intro s' bytes fits fits' decoded decoded'
    rw [← (base32Encode_eq_iff decoded).mpr fits, (base32Encode_eq_iff decoded').mpr fits']
  · intro before after
    rw [base32Encode, String.toList_ofList]
    exact base32Go_append before after

/-! ## A letter for nothing -/

theorem second_spelling :
    ¬∀ (s : List Char) (bytes : List UInt8), base32Decode s = some bytes →
      (base32Encode bytes).toList = s := by
  intro own
  exact absurd (own ['a'] [] (by decide)) (by decide)

end P2PObserver
