import Mathlib.Data.Nat.Digits.Defs
import Mathlib.Tactic.Ring

/-! # Cutting a bit string into digits of another width

Digits of `w` bits are read as one bit string, the first digit highest, and cut into digits of
`v` bits. What does not fill a digit yet stays pending.
-/

namespace Regroup

/-- The number that digits of `w` bits spell. -/
def value (w : Nat) (digits : List Nat) : Nat := Nat.ofDigits (2 ^ w) digits.reverse

theorem value_nil (w : Nat) : value w [] = 0 := rfl

theorem value_append (w : Nat) (front back : List Nat) :
    value w (front ++ back) = value w front * 2 ^ (w * back.length) + value w back := by
  unfold value
  rw [List.reverse_append, Nat.ofDigits_append, List.length_reverse, ← Nat.pow_mul]
  ring

theorem value_singleton (w digit : Nat) : value w [digit] = digit := by
  simp [value]

theorem value_cons (w digit : Nat) (back : List Nat) :
    value w (digit :: back) = digit * 2 ^ (w * back.length) + value w back := by
  rw [← List.singleton_append, value_append, value_singleton]

/-- Digit strings of one length spell different numbers. -/
theorem eq_of_value {w : Nat} (wide : 0 < w) {digits digits' : List Nat}
    (small : ∀ digit ∈ digits, digit < 2 ^ w) (small' : ∀ digit ∈ digits', digit < 2 ^ w)
    (length : digits.length = digits'.length) (same : value w digits = value w digits') :
    digits = digits' := by
  apply List.reverse_inj.mp
  apply Nat.ofDigits_inj_of_len_eq (Nat.one_lt_two_pow (Nat.pos_iff_ne_zero.mp wide))
  · simpa using length
  · simpa using small
  · simpa using small'
  · exact same

/-- Whole digits and the bits that do not fill one. -/
structure Split where
  digits : List Nat
  pending : Nat
  bits : Nat

/-- The split is this bit string. -/
structure Spells (v : Nat) (s : Split) (number bits : Nat) : Prop where
  digits_lt : ∀ digit ∈ s.digits, digit < 2 ^ v
  pending_lt : s.pending < 2 ^ s.bits
  number_eq : value v s.digits * 2 ^ s.bits + s.pending = number
  bits_eq : v * s.digits.length + s.bits = bits

def Split.prepend (digits : List Nat) (s : Split) : Split :=
  { s with digits := digits ++ s.digits }

/-- What is split off the pending bits and `more` new ones follows the digits there are. -/
theorem Spells.append (more extra : Nat) {v number bits : Nat} {first rest : Split}
    (spells : Spells v first number bits)
    (next : Spells v rest (first.pending * 2 ^ more + extra) (first.bits + more)) :
    Spells v (rest.prepend first.digits) (number * 2 ^ more + extra) (bits + more) where
  digits_lt := List.forall_mem_append.mpr ⟨spells.digits_lt, next.digits_lt⟩
  pending_lt := next.pending_lt
  number_eq := by
    have place : v * rest.digits.length + rest.bits = first.bits + more := next.bits_eq
    calc value v (first.digits ++ rest.digits) * 2 ^ rest.bits + rest.pending
        = value v first.digits * 2 ^ (v * rest.digits.length + rest.bits) +
            (value v rest.digits * 2 ^ rest.bits + rest.pending) := by
          rw [value_append, Nat.pow_add]
          ring
      _ = (value v first.digits * 2 ^ first.bits + first.pending) * 2 ^ more + extra := by
          rw [place, next.number_eq, Nat.pow_add]
          ring
      _ = number * 2 ^ more + extra := by
          rw [spells.number_eq]
  bits_eq := by
    have place := next.bits_eq
    have start := spells.bits_eq
    simp only [Split.prepend, List.length_append, Nat.mul_add]
    omega

/-- Cuts digits off the front while there are bits for one. -/
def emit (v pending bits : Nat) : Split :=
  if 0 < v ∧ v ≤ bits then
    (emit v (pending % 2 ^ (bits - v)) (bits - v)).prepend [pending / 2 ^ (bits - v)]
  else ⟨[], pending, bits⟩
termination_by bits

theorem emit_spells {v : Nat} (wide : 0 < v) (bits : Nat) :
    ∀ pending, pending < 2 ^ bits →
      Spells v (emit v pending bits) pending bits ∧ (emit v pending bits).bits < v := by
  induction bits using Nat.strongRecOn with
  | ind bits ih =>
      intro pending small
      rw [emit]
      split
      · rename_i room
        have cut : Spells v ⟨[pending / 2 ^ (bits - v)], pending % 2 ^ (bits - v), bits - v⟩
            pending bits := by
          refine ⟨?_, Nat.mod_lt _ (Nat.two_pow_pos _), ?_, ?_⟩
          · intro digit listed
            obtain rfl := List.mem_singleton.mp listed
            apply Nat.div_lt_of_lt_mul
            rw [← Nat.pow_add, Nat.sub_add_cancel room.2]
            exact small
          · rw [value_singleton]
            exact Nat.div_add_mod' ..
          · simp only [List.length_singleton]
            omega
        obtain ⟨rest, short⟩ := ih (bits - v) (by omega) (pending % 2 ^ (bits - v))
          (Nat.mod_lt _ (Nat.two_pow_pos _))
        have whole := cut.append 0 0 (by simpa using rest)
        exact ⟨by simpa using whole, short⟩
      · refine ⟨⟨by simp, small, by simp [value_nil], by simp⟩, ?_⟩
        simp only
        omega

theorem emit_none {v bits : Nat} (less : bits < v) (pending : Nat) :
    emit v pending bits = ⟨[], pending, bits⟩ := by
  rw [emit, if_neg (by omega)]

theorem emit_one {v bits : Nat} (room : v ≤ bits) (less : bits < v + v) (pending : Nat) :
    emit v pending bits =
      ⟨[pending / 2 ^ (bits - v)], pending % 2 ^ (bits - v), bits - v⟩ := by
  rw [emit, if_pos (by omega), emit_none (by omega)]
  rfl

/-- Reads digits of `w` bits behind the pending ones and cuts off digits of `v` bits. -/
def regroup (w v : Nat) : List Nat → Nat → Nat → Split
  | [], pending, bits => ⟨[], pending, bits⟩
  | digit :: rest, pending, bits =>
      let first := emit v (pending * 2 ^ w + digit) (bits + w)
      (regroup w v rest first.pending first.bits).prepend first.digits

theorem regroup_spells {w v : Nat} (wide : 0 < v) (digits : List Nat) :
    ∀ pending bits, pending < 2 ^ bits → bits < v → (∀ digit ∈ digits, digit < 2 ^ w) →
      Spells v (regroup w v digits pending bits)
          (pending * 2 ^ (w * digits.length) + value w digits) (bits + w * digits.length) ∧
        (regroup w v digits pending bits).bits < v := by
  induction digits with
  | nil =>
      intro pending bits small short _
      refine ⟨⟨by simp [regroup], small, ?_, ?_⟩, short⟩
      · simp [regroup, value_nil]
      · simp [regroup]
  | cons digit rest ih =>
      intro pending bits small short digits_lt
      obtain ⟨digit_lt, rest_lt⟩ := List.forall_mem_cons.mp digits_lt
      have grown : pending * 2 ^ w + digit < 2 ^ (bits + w) := by
        have room : (pending + 1) * 2 ^ w ≤ 2 ^ bits * 2 ^ w := Nat.mul_le_mul_right _ small
        rw [Nat.pow_add]
        rw [Nat.add_mul] at room
        omega
      obtain ⟨first, short⟩ := emit_spells wide (bits + w) _ grown
      obtain ⟨later, short⟩ := ih _ _ first.pending_lt short rest_lt
      have number : pending * 2 ^ (w * (digit :: rest).length) + value w (digit :: rest) =
          (pending * 2 ^ w + digit) * 2 ^ (w * rest.length) + value w rest := by
        rw [value_cons, List.length_cons, Nat.mul_succ, Nat.pow_add]
        ring
      have total : bits + w * (digit :: rest).length = bits + w + w * rest.length := by
        rw [List.length_cons, Nat.mul_succ]
        omega
      rw [number, total]
      exact ⟨first.append (w * rest.length) (value w rest) later, short⟩

/-! ## Round trips -/

/-- What fills the last digit up. -/
def padding (v : Nat) (s : Split) : Nat := if s.bits = 0 then 0 else v - s.bits

/-- The digits of a split, the last one filled up with zeros. -/
def fillUp (v : Nat) (s : Split) : List Nat :=
  if s.bits = 0 then s.digits else s.digits ++ [s.pending * 2 ^ (v - s.bits)]

theorem fillUp_prepend (v : Nat) (digits : List Nat) (s : Split) :
    fillUp v (s.prepend digits) = digits ++ fillUp v s := by
  unfold fillUp Split.prepend
  split <;> simp

def pack (w v : Nat) (digits : List Nat) : List Nat := fillUp v (regroup w v digits 0 0)

/-- The digits of a split in which no pending bit is set. -/
def whole (s : Split) : Option (List Nat) := if s.pending = 0 then some s.digits else none

theorem whole_prepend (digits : List Nat) (s : Split) :
    whole (s.prepend digits) = (whole s).map (digits ++ ·) := by
  unfold whole Split.prepend
  split <;> rfl

def unpack (w v : Nat) (digits : List Nat) : Option (List Nat) := whole (regroup w v digits 0 0)

theorem fillUp_spells {v number bits : Nat} {s : Split} (spells : Spells v s number bits)
    (short : s.bits < v) :
    (∀ digit ∈ fillUp v s, digit < 2 ^ v) ∧
      value v (fillUp v s) = number * 2 ^ padding v s ∧
      v * (fillUp v s).length = bits + padding v s := by
  have length := spells.bits_eq
  unfold fillUp padding
  split
  · rename_i whole
    have zero : s.pending = 0 := by
      have small := spells.pending_lt
      rw [whole] at small
      omega
    refine ⟨spells.digits_lt, ?_, by omega⟩
    rw [← spells.number_eq, zero, whole]
    simp
  · have room : s.bits + (v - s.bits) = v := Nat.add_sub_cancel' (Nat.le_of_lt short)
    have last : s.pending * 2 ^ (v - s.bits) < 2 ^ v := by
      rw [← room, Nat.pow_add, room]
      exact Nat.mul_lt_mul_of_pos_right spells.pending_lt (Nat.two_pow_pos _)
    refine ⟨?_, ?_, ?_⟩
    · exact List.forall_mem_append.mpr ⟨spells.digits_lt, by simpa using last⟩
    · calc value v (s.digits ++ [s.pending * 2 ^ (v - s.bits)])
          = value v s.digits * 2 ^ v + s.pending * 2 ^ (v - s.bits) := by
            rw [value_append, value_singleton, List.length_singleton, Nat.mul_one]
        _ = value v s.digits * 2 ^ (s.bits + (v - s.bits)) + s.pending * 2 ^ (v - s.bits) := by
            rw [room]
        _ = number * 2 ^ (v - s.bits) := by
            rw [← spells.number_eq, Nat.pow_add]
            ring
    · rw [List.length_append, List.length_singleton, Nat.mul_succ]
      omega

/-- Two counts of digits that differ by less than a digit are one count. -/
theorem count_eq {w count count' rest rest' : Nat} (same : w * count + rest = w * count' + rest')
    (short : rest < w) (short' : rest' < w) : count = count' ∧ rest = rest' := by
  have counts : count = count' := by
    have quotients := congrArg (· / w) same
    simp only [Nat.mul_add_div (Nat.zero_lt_of_lt short), Nat.div_eq_of_lt short,
      Nat.div_eq_of_lt short'] at quotients
    exact quotients
  subst counts
  omega

section RoundTrip

variable {w v : Nat} {digits : List Nat}

theorem pack_spec (wide : 0 < v) (small : ∀ digit ∈ digits, digit < 2 ^ w) :
    ∃ pad < v, (∀ digit ∈ pack w v digits, digit < 2 ^ v) ∧
      value v (pack w v digits) = value w digits * 2 ^ pad ∧
      v * (pack w v digits).length = w * digits.length + pad := by
  obtain ⟨spells, short⟩ := regroup_spells wide digits 0 0 (by simp) wide small
  simp only [Nat.zero_mul, Nat.zero_add] at spells
  refine ⟨padding v (regroup w v digits 0 0), ?_, fillUp_spells spells short⟩
  unfold padding
  split <;> omega

/-- Digits packed into narrower ones come back out. -/
theorem unpack_pack (narrow : v ≤ w) (wide : 0 < v) (small : ∀ digit ∈ digits, digit < 2 ^ w) :
    unpack v w (pack w v digits) = some digits := by
  obtain ⟨pad, pad_lt, packed_lt, number, length⟩ := pack_spec wide small
  have wide : 0 < w := Nat.lt_of_lt_of_le wide narrow
  obtain ⟨spells, short⟩ := regroup_spells wide (pack w v digits) 0 0 (by simp) wide packed_lt
  unfold unpack
  generalize regroup v w (pack w v digits) 0 0 = s at spells short ⊢
  have bits := spells.bits_eq
  have same := spells.number_eq
  have pending_lt := spells.pending_lt
  simp only [Nat.zero_mul, Nat.zero_add, length, number] at bits same
  obtain ⟨count, rest⟩ := count_eq bits short (Nat.lt_of_lt_of_le pad_lt narrow)
  rw [rest, Nat.mul_comm, Nat.mul_comm (value w digits), ← Nat.add_zero (_ * value w digits)] at same
  rw [rest] at pending_lt
  obtain ⟨numbers, padded⟩ := count_eq same pending_lt (Nat.two_pow_pos _)
  rw [whole, if_pos padded]
  exact congrArg some (eq_of_value wide spells.digits_lt small count numbers)

/-- Digits unpacked from narrower ones are packed into the same, where no whole narrow digit is
    among the bits left over. -/
theorem pack_unpack {unpacked : List Nat} (wide : 0 < v) (narrow : v ≤ w)
    (small : ∀ digit ∈ digits, digit < 2 ^ v) (fits : v * digits.length % w < v)
    (found : unpack v w digits = some unpacked) : pack w v unpacked = digits := by
  have wide' : 0 < w := Nat.lt_of_lt_of_le wide narrow
  obtain ⟨spells, short⟩ := regroup_spells wide' digits 0 0 (by simp) wide' small
  unfold unpack at found
  generalize regroup v w digits 0 0 = s at spells short found
  unfold whole at found
  split at found
  · rename_i even
    obtain rfl := Option.some.inj found
    have bits := spells.bits_eq
    have same := spells.number_eq
    simp only [Nat.zero_mul, Nat.zero_add, even, Nat.add_zero] at bits same
    rw [← bits, Nat.mul_add_mod, Nat.mod_eq_of_lt short] at fits
    obtain ⟨pad, pad_lt, packed_lt, number, length⟩ := pack_spec wide spells.digits_lt
    have counted : v * (pack w v s.digits).length + s.bits = v * digits.length + pad := by
      omega
    obtain ⟨count, rest⟩ := count_eq counted fits pad_lt
    apply eq_of_value wide packed_lt small count
    rw [number, ← rest, same]
  · cases found

end RoundTrip

end Regroup
