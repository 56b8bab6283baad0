import P2PObserver.Addresses.PeerAddr
import P2PObserver.Lib.Regroup

/-! # Base32

The encoder and the decoder shift bits through a machine word; both regroup one bit string.
-/

namespace P2PObserver

open Regroup

/-! ## Decoding -/

def base32Value (char : Char) : Option UInt32 :=
  if 'a' ≤ char ∧ char ≤ 'z' then some (char.val - 'a'.val)
  else if '2' ≤ char ∧ char ≤ '7' then some (char.val - '2'.val + 26)
  else none

def base32DecodeGo : List Char → UInt32 → Nat → Option (List UInt8)
  | [], bits, n => if 0 < n ∧ bits &&& (1 <<< n.toUInt32 - 1) ≠ 0 then none else some []
  | char :: rest, bits, n =>
      match base32Value char with
      | none => none
      | some value =>
          let bits := bits <<< 5 ||| value
          if 8 ≤ n + 5 then
            (base32DecodeGo rest bits (n + 5 - 8)).map
              ((bits >>> (n + 5 - 8).toUInt32).toUInt8 :: ·)
          else base32DecodeGo rest bits (n + 5)

/-- The inverse of `base32Encode`: refuses other characters and trailing bits that are set. -/
def base32Decode (s : List Char) : Option (List UInt8) := base32DecodeGo s 0 0

/-! ## One digit -/

def digitChar (digit : Nat) : Char := base32Alphabet.getD digit 'a'

theorem base32Digit_eq (value : UInt64) : base32Digit value = digitChar (value.toNat % 32) := by
  have masked : (value &&& 0x1f).toNat = value.toNat % 32 := by
    rw [UInt64.toNat_and]
    exact Nat.and_two_pow_sub_one_eq_mod value.toNat 5
  rw [base32Digit, masked, digitChar]

theorem base32Value_digitChar {digit : Nat} (small : digit < 32) :
    base32Value (digitChar digit) = some digit.toUInt32 := by
  have all : ∀ i : Fin 32, base32Value (digitChar i.val) = some i.val.toUInt32 := by
    decide +kernel
  exact all ⟨digit, small⟩

theorem base32Value_ascii {char : Char} {value : UInt32} (found : base32Value char = some value) :
    char.toNat < 128 := by
  unfold base32Value at found
  split at found
  · rename_i letter
    have last : char.toNat ≤ 'z'.toNat := letter.2
    exact Nat.lt_of_le_of_lt last (by decide)
  · split at found
    · rename_i figure
      have last : char.toNat ≤ '7'.toNat := figure.2
      exact Nat.lt_of_le_of_lt last (by decide)
    · cases found

theorem base32Value_some {char : Char} {value : UInt32} (found : base32Value char = some value) :
    value.toNat < 32 ∧ digitChar value.toNat = char := by
  have all : ∀ i : Fin 128, (base32Value (Char.ofNat i)).all
      fun value => value.toNat < 32 && digitChar value.toNat == Char.ofNat i := by
    decide +kernel
  have this := all ⟨char.toNat, base32Value_ascii found⟩
  simpa [Char.ofNat_toNat, found] using this

/-! ## Shifting through a word -/

/-- A word of `width` bits keeps the low bits that are pending when more are shifted in. -/
theorem shift_in (width n more : Nat) (room : n + more ≤ width) (bits : Nat) {next : Nat}
    (small : next < 2 ^ more) :
    (bits <<< more % 2 ^ width ||| next) % 2 ^ (n + more) = bits % 2 ^ n * 2 ^ more + next := by
  obtain ⟨high, rfl⟩ := Nat.exists_eq_add_of_le room
  have wrapped : bits <<< more % 2 ^ (n + more + high) = (bits % 2 ^ (n + high)) <<< more := by
    rw [Nat.shiftLeft_eq, Nat.shiftLeft_eq, Nat.add_right_comm, Nat.pow_add _ _ more,
      Nat.mul_mod_mul_right]
  have cut : bits % 2 ^ (n + high) % 2 ^ n = bits % 2 ^ n :=
    Nat.mod_mod_of_dvd _ (Nat.pow_dvd_pow 2 (by omega))
  generalize bits % 2 ^ (n + high) = kept at wrapped cut
  have low : (kept * 2 ^ more + next) % 2 ^ more = next := by
    rw [Nat.mul_add_mod', Nat.mod_eq_of_lt small]
  have top : (kept * 2 ^ more + next) / 2 ^ more = kept := by
    rw [Nat.mul_comm, Nat.mul_add_div (Nat.two_pow_pos _), Nat.div_eq_of_lt small, Nat.add_zero]
  rw [wrapped, ← Nat.shiftLeft_add_eq_or_of_lt small, Nat.shiftLeft_eq, Nat.add_comm n more,
    Nat.pow_add, Nat.mod_mul, low, top, cut, Nat.mul_comm, Nat.add_comm]

/-! ## Encoding regroups bytes into digits -/

theorem base32Flush_eq (n : Nat) : ∀ bits : UInt64, n < 64 →
    base32Flush bits n = ((emit 5 (bits.toNat % 2 ^ n) n).digits.map digitChar,
      (emit 5 (bits.toNat % 2 ^ n) n).bits) ∧
    (emit 5 (bits.toNat % 2 ^ n) n).pending =
      bits.toNat % 2 ^ (emit 5 (bits.toNat % 2 ^ n) n).bits := by
  induction n using Nat.strongRecOn with
  | ind n ih =>
      intro bits small
      rw [emit]
      split
      · rename_i room
        obtain ⟨n, rfl⟩ := Nat.exists_eq_add_of_le' room.2
        obtain ⟨rest, pending⟩ := ih n (by omega) bits (by omega)
        have cut : bits.toNat % 2 ^ (n + 5) % 2 ^ n = bits.toNat % 2 ^ n :=
          Nat.mod_mod_of_dvd _ (Nat.pow_dvd_pow 2 (by omega))
        have shifted : (bits >>> n.toUInt64).toNat % 32 = bits.toNat % 2 ^ (n + 5) / 2 ^ n := by
          rw [UInt64.toNat_shiftRight, Nat.toUInt64_eq, UInt64.toNat_ofNat',
            Nat.mod_eq_of_lt (by omega : n < 2 ^ 64), Nat.mod_eq_of_lt (by omega : n < 64),
            Nat.shiftRight_eq_div_pow, Nat.pow_add, Nat.mod_mul_right_div_self]
        rw [Nat.add_sub_cancel, cut]
        rw [base32Flush, rest]
        refine ⟨?_, pending⟩
        simp only [Split.prepend, List.singleton_append, List.map_cons, base32Digit_eq, shifted]
      · rename_i less
        unfold base32Flush
        split
        · omega
        · exact ⟨rfl, rfl⟩

theorem base32Go_eq (bytes : List UInt8) : ∀ (bits : UInt64) (n : Nat), n < 5 →
    base32Go bytes bits n =
      (fillUp 5 (regroup 8 5 (bytes.map (·.toNat)) (bits.toNat % 2 ^ n) n)).map digitChar := by
  induction bytes with
  | nil =>
      intro bits n short
      unfold base32Go fillUp
      simp only [List.map_nil, regroup]
      by_cases at_end : n = 0
      · simp [at_end]
      · have shifted : (bits <<< (5 - n).toUInt64).toNat % 32 = bits.toNat % 2 ^ n * 2 ^ (5 - n) := by
          have filled := shift_in 64 n (5 - n) (by omega) bits.toNat
            (Nat.two_pow_pos _)
          rw [Nat.or_zero, Nat.add_zero, Nat.add_sub_cancel' (by omega)] at filled
          rw [UInt64.toNat_shiftLeft, Nat.toUInt64_eq, UInt64.toNat_ofNat',
            Nat.mod_eq_of_lt (by omega : 5 - n < 2 ^ 64), Nat.mod_eq_of_lt (by omega : 5 - n < 64)]
          exact filled
        rw [if_pos (Nat.pos_of_ne_zero at_end), if_neg at_end, base32Digit_eq, shifted]
        rfl
  | cons byte rest ih =>
      intro bits n short
      have shifted : (bits <<< 8 ||| byte.toUInt64).toNat % 2 ^ (n + 8) =
          bits.toNat % 2 ^ n * 2 ^ 8 + byte.toNat := by
        rw [UInt64.toNat_or, UInt64.toNat_shiftLeft, UInt8.toNat_toUInt64]
        exact shift_in 64 n 8 (by omega) bits.toNat byte.toNat_lt
      obtain ⟨flushed, pending⟩ := base32Flush_eq (n + 8) (bits <<< 8 ||| byte.toUInt64) (by omega)
      obtain ⟨-, less⟩ := emit_spells (v := 5) (by omega) (n + 8)
        ((bits <<< 8 ||| byte.toUInt64).toNat % 2 ^ (n + 8)) (Nat.mod_lt _ (Nat.two_pow_pos _))
      have later := ih (bits <<< 8 ||| byte.toUInt64) _ less
      simp only [base32Go, flushed, later, List.map_cons, regroup, ← shifted, fillUp_prepend,
        List.map_append, pending]

theorem base32Encode_toList (bytes : List UInt8) :
    (base32Encode bytes).toList = (pack 8 5 (bytes.map (·.toNat))).map digitChar := by
  rw [base32Encode, String.toList_ofList, base32Go_eq bytes 0 0 (by omega)]
  rfl

/-! ## Decoding regroups digits into bytes -/

theorem trailing_iff (bits : UInt32) {n : Nat} (short : n < 8) :
    (0 < n ∧ bits &&& (1 <<< n.toUInt32 - 1) ≠ 0) ↔ bits.toNat % 2 ^ n ≠ 0 := by
  have mask : ∀ i : Fin 8, (1 <<< i.val.toUInt32 - 1 : UInt32).toNat = 2 ^ i.val - 1 := by
    decide
  have masked : (bits &&& (1 <<< n.toUInt32 - 1)).toNat = bits.toNat % 2 ^ n := by
    rw [UInt32.toNat_and, mask ⟨n, short⟩, Nat.and_two_pow_sub_one_eq_mod]
  rw [Ne, ← UInt32.toNat_inj, masked]
  constructor
  · exact fun left => left.2
  · intro left
    refine ⟨Nat.pos_of_ne_zero ?_, left⟩
    rintro rfl
    exact left (Nat.mod_one _)

theorem top_byte (word : UInt32) {k : Nat} (small : k < 32) :
    (word >>> k.toUInt32).toUInt8 = (word.toNat % 2 ^ (k + 8) / 2 ^ k).toUInt8 := by
  apply UInt8.toNat_inj.mp
  rw [UInt32.toNat_toUInt8, UInt32.toNat_shiftRight, Nat.toUInt32_eq, UInt32.toNat_ofNat',
    Nat.mod_eq_of_lt (by omega : k < 2 ^ 32), Nat.mod_eq_of_lt small, Nat.shiftRight_eq_div_pow,
    Nat.pow_add, Nat.mod_mul_right_div_self, Nat.toUInt8_eq, UInt8.toNat_ofNat', Nat.mod_mod]

theorem base32DecodeGo_eq (digits : List Nat) : ∀ (bits : UInt32) (n : Nat), n < 8 →
    (∀ digit ∈ digits, digit < 32) →
    base32DecodeGo (digits.map digitChar) bits n =
      (whole (regroup 5 8 digits (bits.toNat % 2 ^ n) n)).map (·.map Nat.toUInt8) := by
  induction digits with
  | nil =>
      intro bits n short _
      rw [List.map_nil, base32DecodeGo, regroup, whole]
      simp only [trailing_iff bits short]
      by_cases left : bits.toNat % 2 ^ n = 0
      · rw [if_neg (not_not_intro left), if_pos left]
        rfl
      · rw [if_pos left, if_neg left]
        rfl
  | cons digit rest ih =>
      intro bits n short small
      obtain ⟨digit_lt, rest_lt⟩ := List.forall_mem_cons.mp small
      have shifted : (bits <<< 5 ||| digit.toUInt32).toNat % 2 ^ (n + 5) =
          bits.toNat % 2 ^ n * 2 ^ 5 + digit := by
        rw [UInt32.toNat_or, UInt32.toNat_shiftLeft, Nat.toUInt32_eq, UInt32.toNat_ofNat',
          Nat.mod_eq_of_lt (by omega : digit < 2 ^ 32)]
        exact shift_in 32 n 5 (by omega) bits.toNat digit_lt
      simp only [List.map_cons, base32DecodeGo, base32Value_digitChar digit_lt, regroup, ← shifted]
      split
      · rename_i room
        have byte := top_byte (bits <<< 5 ||| digit.toUInt32) (k := n + 5 - 8) (by omega)
        rw [Nat.sub_add_cancel room] at byte
        rw [emit_one room (by omega), whole_prepend, byte, ih _ _ (by omega) rest_lt,
          Nat.mod_mod_of_dvd _ (Nat.pow_dvd_pow 2 (by omega)), Option.map_map, Option.map_map]
        rfl
      · rename_i less
        rw [emit_none (by omega), whole_prepend, ih _ _ (by omega) rest_lt, Option.map_map]
        rfl

/-- What is decoded is made of digits. -/
theorem base32DecodeGo_digits (s : List Char) : ∀ {bits : UInt32} {n : Nat} {bytes : List UInt8},
    base32DecodeGo s bits n = some bytes →
      ∃ digits : List Nat, (∀ digit ∈ digits, digit < 32) ∧ digits.map digitChar = s := by
  induction s with
  | nil =>
      intro bits n bytes _
      exact ⟨[], by simp, rfl⟩
  | cons char rest ih =>
      intro bits n bytes decoded
      unfold base32DecodeGo at decoded
      cases found : base32Value char with
      | none => simp [found] at decoded
      | some value =>
          obtain ⟨small, named⟩ := base32Value_some found
          have tail : ∃ digits : List Nat, (∀ digit ∈ digits, digit < 32) ∧
              digits.map digitChar = rest := by
            simp only [found] at decoded
            split at decoded
            · obtain ⟨later, decoded, -⟩ := Option.map_eq_some_iff.mp decoded
              exact ih decoded
            · exact ih decoded
          obtain ⟨digits, digits_lt, spelled⟩ := tail
          refine ⟨value.toNat :: digits, List.forall_mem_cons.mpr ⟨small, digits_lt⟩, ?_⟩
          rw [List.map_cons, named, spelled]

theorem bytes_lt (bytes : List UInt8) : ∀ byte ∈ bytes.map (·.toNat), byte < 2 ^ 8 := by
  intro byte listed
  obtain ⟨byte, -, rfl⟩ := List.mem_map.mp listed
  exact byte.toNat_lt

theorem base32Encode_digits (bytes : List UInt8) : ∀ char ∈ (base32Encode bytes).toList,
    ∃ digit < 32, char = digitChar digit := by
  intro char listed
  rw [base32Encode_toList] at listed
  obtain ⟨digit, packed, rfl⟩ := List.mem_map.mp listed
  obtain ⟨_, _, small, _⟩ := pack_spec (v := 5) (by omega) (bytes_lt bytes)
  exact ⟨digit, small digit packed, rfl⟩

theorem base32Decode_encode (bytes : List UInt8) :
    base32Decode (base32Encode bytes).toList = some bytes := by
  obtain ⟨_, _, small, _⟩ := pack_spec (v := 5) (by omega) (bytes_lt bytes)
  rw [base32Encode_toList, base32Decode, base32DecodeGo_eq _ 0 0 (by omega) small]
  have unpacked := unpack_pack (v := 5) (by omega) (by omega) (bytes_lt bytes)
  have same : Nat.toUInt8 ∘ (fun byte : UInt8 => byte.toNat) = id := by
    funext byte
    exact UInt8.ofNat_toNat
  unfold unpack at unpacked
  rw [UInt32.toNat_zero, Nat.zero_mod, unpacked, Option.map_some, List.map_map, same, List.map_id]

/-- A string that decodes is the one the encoder prints, where it has no whole digit to spare. -/
theorem base32Encode_decode {s : List Char} {bytes : List UInt8}
    (decoded : base32Decode s = some bytes) :
    8 * bytes.length ≤ 5 * s.length ∧ 5 * s.length < 8 * bytes.length + 8 ∧
      (5 * s.length % 8 < 5 → (base32Encode bytes).toList = s) := by
  obtain ⟨digits, small, rfl⟩ := base32DecodeGo_digits s decoded
  rw [base32Decode, base32DecodeGo_eq digits 0 0 (by omega) small] at decoded
  obtain ⟨unpacked, found, rfl⟩ := Option.map_eq_some_iff.mp decoded
  obtain ⟨spells, short⟩ := regroup_spells (w := 5) (v := 8) (by omega) digits 0 0 (by simp)
    (by omega) small
  have taken : unpacked = (regroup 5 8 digits 0 0).digits := by
    unfold whole at found
    split at found
    · exact (Option.some.inj found).symm
    · cases found
  have length := spells.bits_eq
  rw [← taken, Nat.zero_add] at length
  have bytes_back : (unpacked.map Nat.toUInt8).map (·.toNat) = unpacked := by
    have each : ∀ byte ∈ unpacked, byte.toUInt8.toNat = byte := by
      intro byte listed
      have small := spells.digits_lt byte (taken ▸ listed)
      rw [Nat.toUInt8_eq, UInt8.toNat_ofNat', Nat.mod_eq_of_lt small]
    rw [List.map_map]
    exact (List.map_congr_left each).trans (List.map_id _)
  rw [List.length_map, List.length_map]
  refine ⟨by omega, by omega, ?_⟩
  intro fits
  rw [base32Encode_toList, bytes_back, pack_unpack (by omega) (by omega) small fits found]

end P2PObserver
