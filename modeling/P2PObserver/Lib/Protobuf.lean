import Mathlib.Algebra.BigOperators.Group.List.Basic
import Mathlib.Algebra.Ring.Nat
import P2PObserver.Lib.Varint

/-! # The wire format of protocol buffers

A message is its fields one after the other, each as its number with a wire type and then its
value. The order is left to the encoder, and so is nothing else that makes a message longer.
-/

namespace Protobuf

inductive Value where
  | varint (n : Nat)
  | fixed64 (bytes : { bytes : List UInt8 // bytes.length = 8 })
  /-- A string or a nested message, by its bytes. -/
  | delimited (bytes : List UInt8)

namespace Value

def wireType : Value → Nat
  | varint _ => 0
  | fixed64 _ => 1
  | delimited _ => 2

def encode : Value → List UInt8
  | varint n => Varint.encode n
  | fixed64 bytes => bytes.val
  | delimited bytes => Varint.encode bytes.length ++ bytes

end Value

structure Field where
  number : Nat
  value : Value

namespace Field

def key (field : Field) : Nat := field.number * 8 + field.value.wireType

def encode (field : Field) : List UInt8 := Varint.encode field.key ++ field.value.encode

def size (field : Field) : Nat := field.encode.length

end Field

/-! ## Fields of the scalar types -/

/-- A number; the default is not written. -/
def uint (number n : Nat) : List Field := if n = 0 then [] else [⟨number, .varint n⟩]

def boolean (number : Nat) (b : Bool) : List Field := uint number b.toNat

/-- A string; the empty one is not written. -/
def string (number : Nat) (s : String) : List Field :=
  if s = "" then [] else [⟨number, .delimited s.toUTF8.data.toList⟩]

/-- A number with explicit presence. -/
def optional (number : Nat) (n : Option Nat) : List Field :=
  n.toList.map fun n => ⟨number, .varint n⟩

/-- The numbers of a repeated field, in one value; none are not written. -/
def packed (number : Nat) (ns : List Nat) : List Field :=
  if ns = [] then [] else [⟨number, .delimited (ns.flatMap Varint.encode)⟩]

/-- Nested messages, any number of them. -/
def messages (number : Nat) (encoded : List (List UInt8)) : List Field :=
  encoded.map fun bytes => ⟨number, .delimited bytes⟩

/-! ## Messages -/

/-- Whether some bytes are these fields, in whatever order. -/
def Writes (fields : List Field) (bytes : List UInt8) : Prop :=
  ∃ order : List Field, order.Perm fields ∧ bytes = order.flatMap Field.encode

def size (fields : List Field) : Nat := (fields.map Field.size).sum

theorem Writes.length {fields : List Field} {bytes : List UInt8} (writes : Writes fields bytes) :
    bytes.length = size fields := by
  obtain ⟨order, perm, rfl⟩ := writes
  rw [List.length_flatMap]
  exact (perm.map Field.size).sum_eq

@[simp] theorem size_nil : size [] = 0 := rfl

@[simp] theorem size_cons (field : Field) (fields : List Field) :
    size (field :: fields) = field.size + size fields := by
  simp [size]

@[simp] theorem size_append (fields later : List Field) :
    size (fields ++ later) = size fields + size later := by
  simp [size]

/-! ## How long a field is -/

theorem size_uint_le (number n key room : Nat) (short : number * 8 < 128 ^ (key + 1))
    (fits : n < 128 ^ (room + 1)) : size (uint number n) ≤ key + room + 2 := by
  unfold uint
  split
  · exact Nat.zero_le _
  · have number := Varint.encode_length_le key (number * 8 + 0) short
    have value := Varint.encode_length_le room n fits
    simp only [size_cons, size_nil, Field.size, Field.encode, Field.key, Value.wireType,
      Value.encode, List.length_append]
    omega

theorem size_uint64_le (number : Nat) (n : UInt64) (short : number * 8 < 128) :
    size (uint number n.toNat) ≤ 11 :=
  size_uint_le number n.toNat 0 9 short (Nat.lt_of_lt_of_le n.toNat_lt (by decide))

theorem size_uint32_le (number : Nat) {n : Nat} (short : number * 8 < 128) (small : n < 2 ^ 32) :
    size (uint number n) ≤ 6 :=
  size_uint_le number n 0 4 short (Nat.lt_of_lt_of_le small (by decide))

theorem size_boolean_le (number : Nat) (b : Bool) (short : number * 8 < 128) :
    size (boolean number b) ≤ 2 :=
  size_uint_le number b.toNat 0 0 short (by cases b <;> decide)

theorem size_optional_le (number : Nat) (n : Option Nat) (key room : Nat)
    (short : number * 8 < 128 ^ (key + 1)) (fits : ∀ m ∈ n, m < 128 ^ (room + 1)) :
    size (optional number n) ≤ key + room + 2 := by
  cases n with
  | none => exact Nat.zero_le _
  | some n =>
      have number := Varint.encode_length_le key (number * 8 + 0) short
      have value := Varint.encode_length_le room n (fits n rfl)
      simp only [optional, Option.toList_some, List.map_cons, List.map_nil, size_cons, size_nil,
        Field.size, Field.encode, Field.key, Value.wireType, Value.encode, List.length_append]
      omega

theorem size_fixed64_le {number : Nat} (bytes : { bytes : List UInt8 // bytes.length = 8 })
    (short : number * 8 + 1 < 128) : Field.size ⟨number, .fixed64 bytes⟩ ≤ 9 := by
  have number := Varint.encode_length_le 0 (number * 8 + 1) short
  simp only [Field.size, Field.encode, Field.key, Value.wireType, Value.encode,
    List.length_append, bytes.property]
  omega

theorem size_delimited_le (number : Nat) (bytes : List UInt8) (key room : Nat)
    (short : number * 8 + 2 < 128 ^ (key + 1)) (fits : bytes.length < 128 ^ (room + 1)) :
    Field.size ⟨number, .delimited bytes⟩ ≤ key + room + 2 + bytes.length := by
  have number := Varint.encode_length_le key (number * 8 + 2) short
  have length := Varint.encode_length_le room bytes.length fits
  simp only [Field.size, Field.encode, Field.key, Value.wireType, Value.encode,
    List.length_append]
  omega

theorem size_string_le (number : Nat) (s : String) (room : Nat) (short : number * 8 + 2 < 128)
    (fits : s.utf8ByteSize < 128 ^ (room + 1)) :
    size (string number s) ≤ room + 2 + s.utf8ByteSize := by
  unfold string
  split
  · exact Nat.zero_le _
  · have length : s.toUTF8.data.toList.length = s.utf8ByteSize := rfl
    have field := size_delimited_le number s.toUTF8.data.toList 0 room short (length.symm ▸ fits)
    rw [size_cons, size_nil]
    omega

/-! ## Reading -/

/-- The items that follow one another up to the end of some bytes, given how one is taken off
    their front. -/
def readAll {A : Type} (read : List UInt8 → Option (A × List UInt8)) :
    Nat → List UInt8 → Option (List A)
  | _, [] => some []
  | 0, _ :: _ => none
  | fuel + 1, byte :: bytes =>
      match read (byte :: bytes) with
      | none => none
      | some (item, rest) => (readAll read fuel rest).map (item :: ·)

/-- What is taken off the front is read back, whatever follows and however many there are. -/
theorem readAll_flatMap {A : Type} {read : List UInt8 → Option (A × List UInt8)}
    {write : A → List UInt8} (back : ∀ item rest, read (write item ++ rest) = some (item, rest))
    (filled : ∀ item, write item ≠ []) (items : List A) :
    ∀ fuel, (items.flatMap write).length ≤ fuel →
      readAll read fuel (items.flatMap write) = some items := by
  induction items with
  | nil =>
      intro fuel _
      cases fuel <;> rfl
  | cons item items ih =>
      intro fuel enough
      have first := back item (items.flatMap write)
      rw [List.flatMap_cons] at enough ⊢
      obtain ⟨byte, bytes, split⟩ := List.exists_cons_of_ne_nil (filled item)
      rw [split, List.cons_append] at enough first ⊢
      cases fuel with
      | zero => cases enough
      | succ fuel =>
          rw [List.length_cons, List.length_append] at enough
          rw [readAll, first]
          dsimp only
          rw [ih fuel (by omega), Option.map_some]

namespace Value

/-- The value of a wire type at the front of some bytes, and the bytes after it. -/
def decode (wireType : Nat) (bytes : List UInt8) : Option (Value × List UInt8) :=
  match wireType with
  | 0 => (Varint.decode bytes).map fun (n, rest) => (varint n, rest)
  | 1 =>
      if long : 8 ≤ bytes.length then
        some (fixed64 ⟨bytes.take 8, List.length_take_of_le long⟩, bytes.drop 8)
      else none
  | 2 =>
      match Varint.decode bytes with
      | none => none
      | some (len, rest) =>
          if len ≤ rest.length then some (delimited (rest.take len), rest.drop len) else none
  | _ => none

theorem decode_encode_append (value : Value) (rest : List UInt8) :
    decode value.wireType (value.encode ++ rest) = some (value, rest) := by
  cases value with
  | varint n => simp [decode, wireType, encode, Varint.decode_encode_append]
  | fixed64 bytes =>
      obtain ⟨bytes, length⟩ := bytes
      have long : 8 ≤ (bytes ++ rest).length := by
        rw [List.length_append]
        omega
      rw [encode]
      simp only [wireType, decode, dif_pos long]
      simp [← length]
  | delimited bytes =>
      rw [encode, List.append_assoc]
      simp [wireType, decode, Varint.decode_encode_append]

end Value

namespace Field

/-- The field at the front of some bytes, and the bytes after it. -/
def decode (bytes : List UInt8) : Option (Field × List UInt8) :=
  match Varint.decode bytes with
  | none => none
  | some (key, rest) =>
      (Value.decode (key % 8) rest).map fun (value, rest) => (⟨key / 8, value⟩, rest)

theorem decode_encode_append (field : Field) (rest : List UInt8) :
    decode (field.encode ++ rest) = some (field, rest) := by
  have small : field.value.wireType < 8 := by
    cases field.value <;> simp [Value.wireType]
  have number : field.key / 8 = field.number := by
    unfold key
    omega
  have wire : field.key % 8 = field.value.wireType := by
    unfold key
    omega
  rw [decode, encode, List.append_assoc, Varint.decode_encode_append]
  dsimp only
  rw [wire, number, Value.decode_encode_append]
  rfl

theorem encode_ne_nil (field : Field) : field.encode ≠ [] := by
  rw [encode]
  exact List.append_ne_nil_of_left_ne_nil (Varint.encode_ne_nil _) _

end Field

/-- The fields of a message, in the order they were written. -/
def decode (bytes : List UInt8) : Option (List Field) := readAll Field.decode bytes.length bytes

theorem decode_encode (fields : List Field) : decode (fields.flatMap Field.encode) = some fields :=
  readAll_flatMap Field.decode_encode_append Field.encode_ne_nil fields _ (Nat.le_refl _)

/-! ## What the fields of a number say -/

def values (number : Nat) (fields : List Field) : List Value :=
  (fields.filter (·.number = number)).map (·.value)

/-- A number. Of several the last counts, and without any it is the default. -/
def readUint (number : Nat) (fields : List Field) : Nat :=
  match (values number fields).getLast? with
  | some (.varint n) => n
  | _ => 0

/-- The bytes of a string or of a nested message. -/
def readBytes (number : Nat) (fields : List Field) : List UInt8 :=
  match (values number fields).getLast? with
  | some (.delimited bytes) => bytes
  | _ => []

/-- A string, or `none` where it is not UTF-8. -/
def readString (number : Nat) (fields : List Field) : Option String :=
  String.fromUTF8? ⟨(readBytes number fields).toArray⟩

/-- The numbers of a packed field. -/
def readPacked (number : Nat) (fields : List Field) : Option (List Nat) :=
  readAll Varint.decode (readBytes number fields).length (readBytes number fields)

section Values

variable (number m : Nat)

@[simp] theorem values_append (fields later : List Field) :
    values number (fields ++ later) = values number fields ++ values number later := by
  simp [values]

@[simp] theorem values_uint (n : Nat) :
    values number (uint m n) = if m = number ∧ n ≠ 0 then [.varint n] else [] := by
  unfold uint values
  by_cases zero : n = 0 <;> by_cases same : m = number <;> simp [zero, same]

@[simp] theorem values_optional (n : Option Nat) : values number (optional m n) =
    if m = number then n.toList.map .varint else [] := by
  unfold optional values
  rw [List.filter_map, List.map_map]
  by_cases same : m = number <;> simp [same, Function.comp_def]

@[simp] theorem values_string (s : String) : values number (string m s) =
    if m = number ∧ s ≠ "" then [.delimited s.toUTF8.data.toList] else [] := by
  unfold string values
  by_cases empty : s = "" <;> by_cases same : m = number <;> simp [empty, same]

@[simp] theorem values_packed (ns : List Nat) : values number (packed m ns) =
    if m = number ∧ ns ≠ [] then [.delimited (ns.flatMap Varint.encode)] else [] := by
  unfold packed values
  by_cases empty : ns = [] <;> by_cases same : m = number <;> simp [empty, same]

@[simp] theorem values_messages (encoded : List (List UInt8)) : values number (messages m encoded) =
    if m = number then encoded.map .delimited else [] := by
  unfold messages values
  rw [List.filter_map, List.map_map]
  by_cases same : m = number <;> simp [same, Function.comp_def]

end Values

theorem readUint_of_values {number n : Nat} {fields : List Field}
    (written : values number fields = if n ≠ 0 then [.varint n] else []) :
    readUint number fields = n := by
  rw [readUint, written]
  by_cases zero : n = 0 <;> simp [zero]

theorem readString_of_values {number : Nat} {s : String} {fields : List Field}
    (written : values number fields = if s ≠ "" then [.delimited s.toUTF8.data.toList] else []) :
    readString number fields = some s := by
  have bytes : readBytes number fields = s.toUTF8.data.toList := by
    rw [readBytes, written]
    by_cases empty : s = "" <;> simp [empty]
  rw [readString, bytes, String.fromUTF8?]
  exact dif_pos s.isValidUTF8

theorem readPacked_of_values {number : Nat} {ns : List Nat} {fields : List Field}
    (written : values number fields =
      if ns ≠ [] then [.delimited (ns.flatMap Varint.encode)] else []) :
    readPacked number fields = some ns := by
  have bytes : readBytes number fields = ns.flatMap Varint.encode := by
    rw [readBytes, written]
    by_cases empty : ns = [] <;> simp [empty]
  rw [readPacked, bytes]
  exact readAll_flatMap Varint.decode_encode_append Varint.encode_ne_nil ns _ (Nat.le_refl _)

end Protobuf
