import P2PObserver.Addresses.PeerAddr
import P2PObserver.Transport.V1Reader

/-! # Frames on the wire

What a stream of bytes says, with no word of how it is read: frames laid out field by field, one
behind the other, and the error the stream ends with.
-/

namespace P2PObserver

/-- A v1 header, field by field. -/
structure WireHeader where
  magic : Bytes 4
  command : Bytes 12
  length : UInt32
  checksum : Bytes 4

/-- A number as it is written, its lowest byte first. -/
def leBytes (n : UInt32) : List UInt8 :=
  [n.toUInt8, (n >>> 8).toUInt8, (n >>> 16).toUInt8, (n >>> 24).toUInt8]

/-- The header as it is laid out. -/
def WireHeader.bytes (h : WireHeader) : List UInt8 :=
  h.magic.val ++ (h.command.val ++ (leBytes h.length ++ h.checksum.val))

/-- A command that can be read: up to its first zero byte, or to its end, it is the text of a
    command string. -/
def V1Codec.Reads {M C : Type} (codec : V1Codec M C) (command : List UInt8) (c : C) : Prop :=
  ∃ (name : String) (padding : List UInt8), command = name.toByteArray.data.toList ++ padding ∧
    0 ∉ name.toByteArray.data.toList ∧ (∀ byte ∈ padding.head?, byte = 0) ∧
      codec.commandString name = some c

/-- A stream that ends inside a frame, or before one. -/
inductive Unfinished (magic : List UInt8) : List UInt8 → Prop where
  | header {stream : List UInt8} (short : stream.length < 24) : Unfinished magic stream
  | payload (h : WireHeader) {payload : List UInt8} (ours : h.magic.val = magic)
      (inside : h.length.toNat ≤ MAX_V1_PAYLOAD) (short : payload.length < h.length.toNat) :
      Unfinished magic (h.bytes ++ payload)

/-- A header of ours and all of the payload it declares. -/
structure Complete (magic : List UInt8) (h : WireHeader) (payload : List UInt8) : Prop where
  ours : h.magic.val = magic
  inside : h.length.toNat ≤ MAX_V1_PAYLOAD
  size : payload.length = h.length.toNat

section Streams

variable {M C E : Type} (codec : V1Codec M C) (magic : List UInt8)

/-- What a stream begins with: a message and what follows it, or an error. The stream ends with
    `ending`: a failed read, or the peer's close. -/
inductive Begins :
    Option E → List UInt8 → Except (RecvError E) (M × List UInt8) → Prop where
  | closed : Begins none [] (.error (.fault .peerClosed))
  | truncated {stream : List UInt8} (begun : stream ≠ []) (cut : Unfinished magic stream) :
      Begins none stream (.error (.fault .truncated))
  | failed {e : E} {stream : List UInt8} (cut : Unfinished magic stream) :
      Begins (some e) stream (.error (.io e))
  | wrongMagic {ending : Option E} (h : WireHeader) {rest : List UInt8}
      (other : h.magic.val ≠ magic) :
      Begins ending (h.bytes ++ rest) (.error (.fault .wrongMagic))
  | oversized {ending : Option E} (h : WireHeader) {rest : List UInt8}
      (ours : h.magic.val = magic) (outside : MAX_V1_PAYLOAD < h.length.toNat) :
      Begins ending (h.bytes ++ rest) (.error (.fault .oversized))
  | corrupt {ending : Option E} (h : WireHeader) {payload rest : List UInt8}
      (complete : Complete magic h payload)
      (mismatch : (codec.sha256d payload).take 4 ≠ h.checksum.val) :
      Begins ending (h.bytes ++ (payload ++ rest)) (.error (.fault .decode))
  | message {ending : Option E} (h : WireHeader) {payload rest : List UInt8} {message : M}
      (complete : Complete magic h payload)
      (sums : (codec.sha256d payload).take 4 = h.checksum.val)
      (decodes : codec.deserialize (h.bytes ++ payload) = some message) :
      Begins ending (h.bytes ++ (payload ++ rest)) (.ok (message, rest))
  /-- The payload is no message, but the command can be read. -/
  | unknown {ending : Option E} (h : WireHeader) {payload rest : List UInt8} {c : C}
      (complete : Complete magic h payload)
      (sums : (codec.sha256d payload).take 4 = h.checksum.val)
      (fails : codec.deserialize (h.bytes ++ payload) = none)
      (reads : codec.Reads h.command.val c) :
      Begins ending (h.bytes ++ (payload ++ rest)) (.ok (codec.unknown c payload, rest))
  | unreadable {ending : Option E} (h : WireHeader) {payload rest : List UInt8}
      (complete : Complete magic h payload)
      (sums : (codec.sha256d payload).take 4 = h.checksum.val)
      (fails : codec.deserialize (h.bytes ++ payload) = none)
      (garbled : ∀ c, ¬codec.Reads h.command.val c) :
      Begins ending (h.bytes ++ (payload ++ rest)) (.error (.fault .decode))

/-- Frames one behind the other: their messages, and what follows the last of them. -/
inductive Frames (ending : Option E) : List UInt8 → List M → List UInt8 → Prop where
  | none {stream : List UInt8} : Frames ending stream [] stream
  | next {stream rest after : List UInt8} {message : M} {messages : List M}
      (begins : Begins codec magic ending stream (.ok (message, rest)))
      (frames : Frames ending rest messages after) :
      Frames ending stream (message :: messages) after

/-- All that a stream comes to: the messages of its frames, and the error behind the last. -/
def Parses (ending : Option E) (stream : List UInt8) (messages : List M) (error : RecvError E) :
    Prop :=
  ∃ rest, Frames codec magic ending stream messages rest ∧
    Begins codec magic ending rest (.error error)

end Streams

/-! ## The header's layout -/

theorem fromLeBytes_leBytes (n : UInt32) : fromLeBytes (leBytes n) = n.toNat := by
  have small := n.toNat_lt
  simp [fromLeBytes, leBytes, Nat.shiftRight_eq_div_pow]
  omega

theorem leBytes_fromLeBytes {bytes : List UInt8} (size : bytes.length = 4) :
    leBytes (UInt32.ofNat (fromLeBytes bytes)) = bytes := by
  match bytes, size with
  | [a, b, c, d], _ =>
      have first := a.toNat_lt
      have second := b.toNat_lt
      have third := c.toNat_lt
      have fourth := d.toNat_lt
      simp [fromLeBytes, leBytes, ← UInt8.toNat_inj, Nat.shiftRight_eq_div_pow]
      omega

namespace WireHeader

theorem length_bytes (h : WireHeader) : h.bytes.length = 24 := by
  simp [bytes, leBytes, h.magic.property, h.command.property, h.checksum.property]

theorem bytes_append_ne_nil (h : WireHeader) (rest : List UInt8) : h.bytes ++ rest ≠ [] := by
  apply List.ne_nil_of_length_pos
  rw [List.length_append, length_bytes]
  omega

theorem take_magic (h : WireHeader) (rest : List UInt8) :
    (h.bytes ++ rest).take 4 = h.magic.val := by
  rw [bytes, List.append_assoc]
  exact List.take_left' h.magic.property

/-- A field of the header, of a stream that goes on after it. -/
theorem field_append (h : WireHeader) {start size : Nat} (inside : start + size ≤ 24)
    (rest : List UInt8) : ((h.bytes ++ rest).drop start).take size = (h.bytes.drop start).take size := by
  have length := h.length_bytes
  rw [List.drop_append_of_le_length (by omega),
    List.take_append_of_le_length (by rw [List.length_drop]; omega)]

theorem drop_command (h : WireHeader) :
    h.bytes.drop 4 = h.command.val ++ (leBytes h.length ++ h.checksum.val) :=
  List.drop_left' h.magic.property

theorem drop_length (h : WireHeader) : h.bytes.drop 16 = leBytes h.length ++ h.checksum.val := by
  rw [show 16 = 4 + 12 from rfl, ← List.drop_drop, drop_command]
  exact List.drop_left' h.command.property

theorem take_command (h : WireHeader) : (h.bytes.drop 4).take 12 = h.command.val := by
  rw [drop_command]
  exact List.take_left' h.command.property

theorem payloadLen_bytes (h : WireHeader) : payloadLen h.bytes = h.length.toNat := by
  have field : (h.bytes.drop 16).take 4 = leBytes h.length := by
    rw [drop_length]
    exact List.take_left' rfl
  rw [payloadLen, field, fromLeBytes_leBytes]

theorem take_checksum (h : WireHeader) : (h.bytes.drop 20).take 4 = h.checksum.val := by
  have field : h.bytes.drop 20 = h.checksum.val := by
    rw [show 20 = 16 + 4 from rfl, ← List.drop_drop, drop_length]
    exact List.drop_left' rfl
  rw [field]
  exact List.take_of_length_le (Nat.le_of_eq h.checksum.property)

/-- Any 24 bytes are a header. -/
theorem exists_bytes {bytes : List UInt8} (size : bytes.length = 24) :
    ∃ h : WireHeader, h.bytes = bytes := by
  let h : WireHeader := {
    magic := ⟨bytes.take 4, by simp [size]⟩
    command := ⟨(bytes.drop 4).take 12, by simp [size]⟩
    length := UInt32.ofNat (fromLeBytes ((bytes.drop 16).take 4))
    checksum := ⟨bytes.drop 20, by simp [size]⟩ }
  refine ⟨h, ?_⟩
  calc h.bytes = bytes.take 4 ++ ((bytes.drop 4).take 12 ++
        ((bytes.drop 16).take 4 ++ bytes.drop 20)) := by
        rw [WireHeader.bytes, leBytes_fromLeBytes (by simp [size])]
    _ = bytes.take 4 ++ ((bytes.drop 4).take 12 ++ bytes.drop 16) := by
        rw [show bytes.drop 20 = (bytes.drop 16).drop 4 from by rw [List.drop_drop],
          List.take_append_drop]
    _ = bytes.take 4 ++ bytes.drop 4 := by
        rw [show bytes.drop 16 = (bytes.drop 4).drop 12 from by rw [List.drop_drop],
          List.take_append_drop]
    _ = bytes := List.take_append_drop ..

theorem exists_append {stream : List UInt8} (long : 24 ≤ stream.length) :
    ∃ (h : WireHeader) (rest : List UInt8), stream = h.bytes ++ rest := by
  obtain ⟨h, start⟩ := exists_bytes (List.length_take_of_le long)
  refine ⟨h, stream.drop 24, ?_⟩
  rw [start, List.take_append_drop]

end WireHeader

/-! ## The command's text -/

theorem upToZero_eq_iff (command name : List UInt8) :
    command.takeWhile (· ≠ 0) = name ↔ ∃ padding, command = name ++ padding ∧ 0 ∉ name ∧
      ∀ byte ∈ padding.head?, byte = 0 := by
  constructor
  · rintro rfl
    refine ⟨command.dropWhile (· ≠ 0), List.takeWhile_append_dropWhile.symm, ?_, ?_⟩
    · intro zero
      simpa using List.all_eq_true.mp List.all_takeWhile 0 zero
    · intro byte first
      have ends := List.head?_dropWhile_not (· ≠ 0) command
      rw [first] at ends
      simpa using ends
  · rintro ⟨padding, rfl, nonzero, ends⟩
    have kept : ∀ byte ∈ name, decide (byte ≠ 0) = true := by
      intro byte inside
      exact decide_eq_true (ne_of_mem_of_not_mem inside nonzero)
    rw [List.takeWhile_append_of_pos kept]
    cases padding with
    | nil => simp
    | cons byte padding => simp [ends byte rfl]

/-- What is handed up for a payload that does not decode, under a command that can be read. -/
theorem V1Codec.undecodable_iff {M C : Type} (codec : V1Codec M C) (command payload : List UInt8)
    (message : M) : codec.undecodable command payload = some message ↔
      ∃ c, codec.Reads command c ∧ message = codec.unknown c payload := by
  simp only [V1Codec.undecodable, Option.bind_eq_bind, Option.bind_eq_some_iff, Option.pure_def,
    Option.some.injEq]
  constructor
  · rintro ⟨name, text, c, known, rfl⟩
    have bytes : command.takeWhile (· ≠ 0) = name.toByteArray.data.toList := by
      unfold String.fromUTF8? at text
      split at text
      · cases text
        rfl
      · cases text
    obtain ⟨padding, laid, nonzero, ends⟩ := (upToZero_eq_iff ..).mp bytes
    exact ⟨c, ⟨name, padding, laid, nonzero, ends, known⟩, rfl⟩
  · rintro ⟨c, ⟨name, padding, laid, nonzero, ends, known⟩, rfl⟩
    refine ⟨name, ?_, c, known, rfl⟩
    rw [(upToZero_eq_iff ..).mpr ⟨padding, laid, nonzero, ends⟩]
    exact dif_pos name.isValidUTF8

theorem V1Codec.undecodable_eq_none {M C : Type} (codec : V1Codec M C)
    (command payload : List UInt8) :
    codec.undecodable command payload = none ↔ ∀ c, ¬codec.Reads command c := by
  rw [Option.eq_none_iff_forall_ne_some]
  constructor
  · intro readable c reads
    exact readable _ ((codec.undecodable_iff ..).mpr ⟨c, reads, rfl⟩)
  · intro garbled message unknown
    obtain ⟨c, reads, -⟩ := (codec.undecodable_iff ..).mp unknown
    exact garbled c reads

end P2PObserver
