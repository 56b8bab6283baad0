import P2PObserver.Archive.RoundTrip

/-! # A cut archive

The end of the file is the end of the archive only before the first byte of a length prefix. A
reader that comes to it anywhere else says so, whatever the prefix looks like.
-/

namespace P2PObserver

open Chunks

variable {H : Type} (codec : ArchiveCodec H)

/-! ## Records -/

/-- The bytes of a length prefix: up to the first without a continuation bit, ten at most. -/
structure IsDelimiter (front : List UInt8) (last : UInt8) : Prop where
  continued : ∀ byte ∈ front, byte &&& 0x80 ≠ 0
  short : front.length < 10
  ends : last &&& 0x80 = 0 ∨ front.length + 1 = 10

/-- A record: a length prefix and as many bytes as it says, which are a message. -/
structure IsRecord {M : Type} (decode : List UInt8 → Option M) (bytes : List UInt8) (message : M) :
    Prop where
  parts : ∃ front last body, bytes = front ++ last :: body ∧ IsDelimiter front last ∧
    codec.decodeLengthDelimiter (front ++ [last]) = some body.length ∧
    body.length ≤ MAX_RECORD ∧ decode body = some message

/-- Bytes either have a length prefix or end in the middle of one. -/
theorem delimiter_cases (room : Nat) (bytes : List UInt8) :
    ((∀ byte ∈ bytes, byte &&& 0x80 ≠ 0) ∧ bytes.length < room + 1) ∨
      ∃ front last rest, bytes = front ++ last :: rest ∧ (∀ byte ∈ front, byte &&& 0x80 ≠ 0) ∧
        front.length < room + 1 ∧ (last &&& 0x80 = 0 ∨ front.length + 1 = room + 1) := by
  induction bytes generalizing room with
  | nil => exact .inl ⟨by simp, Nat.succ_pos _⟩
  | cons byte bytes ih =>
      by_cases ends : byte &&& 0x80 = 0
      · exact .inr ⟨[], byte, bytes, rfl, by simp, Nat.succ_pos _, .inl ends⟩
      · cases room with
        | zero => exact .inr ⟨[], byte, bytes, rfl, by simp, Nat.succ_pos _, .inr rfl⟩
        | succ room =>
            cases ih room with
            | inl all =>
                exact .inl ⟨List.forall_mem_cons.mpr ⟨ends, all.1⟩, Nat.succ_lt_succ all.2⟩
            | inr split =>
                obtain ⟨front, last, rest, rfl, continued, short, ends'⟩ := split
                refine .inr ⟨byte :: front, last, rest, rfl,
                  List.forall_mem_cons.mpr ⟨ends, continued⟩, Nat.succ_lt_succ short, ?_⟩
                rw [List.length_cons, Nat.succ_inj]
                exact ends'

/-- Where the file ends among bytes that all continue, the reader knows it, unless it has none. -/
theorem collectDelimiter_short (more : List UInt8) :
    ∀ (room : Nat) (bytes : List UInt8) (source : Source UInt8),
      (∀ byte ∈ more, byte &&& 0x80 ≠ 0) → more.length < room → source.left = more →
      ∃ after : Source UInt8, collectDelimiter codec room bytes source =
        (if (bytes ++ more).isEmpty then .ok none else .error .unexpectedEof, after) := by
  induction more with
  | nil =>
      intro room bytes source _ fits left
      obtain ⟨room, rfl⟩ := Nat.exists_eq_add_of_lt fits
      have read := source.readExact_short 1 (by rw [left]; exact Nat.zero_lt_one)
      unfold collectDelimiter
      generalize source.readExact 1 = outcome at read ⊢
      obtain ⟨_, after⟩ := outcome
      obtain rfl := read
      rw [List.append_nil]
      exact ⟨after, rfl⟩
  | cons byte more ih =>
      intro room bytes source continued fits left
      obtain ⟨room, rfl⟩ := Nat.exists_eq_add_of_lt (Nat.zero_lt_of_lt fits)
      obtain ⟨next, read, unread⟩ := source.readExact_append [byte] left
      simp only [List.length_singleton] at read
      obtain ⟨first, continued⟩ := List.forall_mem_cons.mp continued
      obtain ⟨after, collected⟩ := ih (0 + room) (bytes ++ [byte]) next continued
        (by simp only [List.length_cons] at fits; omega) unread
      refine ⟨after, ?_⟩
      rw [collectDelimiter, read]
      simp only [if_neg first, collected, List.append_assoc, List.cons_append, List.nil_append]

theorem readLengthDelimiter_delimiter {front : List UInt8} {last : UInt8}
    (delimiter : IsDelimiter front last) {rest : List UInt8} {source : Source UInt8}
    (left : source.left = front ++ last :: rest) :
    ∃ after : Source UInt8, after.left = rest ∧
      readLengthDelimiter codec source = (decodeDelimiter codec (front ++ [last]), after) :=
  collectDelimiter_spec codec rest front 10 [] source delimiter.continued delimiter.short
    delimiter.ends left

section Message

variable {M : Type} {decode : List UInt8 → Option M} {bytes : List UInt8} {message : M}

theorem IsRecord.nonempty (record : IsRecord codec decode bytes message) : bytes ≠ [] := by
  obtain ⟨front, last, body, rfl, -⟩ := record.parts
  simp

variable {codec}

theorem IsRecord.read (record : IsRecord codec decode bytes message) {rest : List UInt8}
    {source : Source UInt8} (left : source.left = bytes ++ rest) :
    ∃ after : Source UInt8, after.left = rest ∧
      readMessage codec decode source = (.ok (some message), after) := by
  obtain ⟨front, last, body, rfl, delimiter, len, short, decoded⟩ := record.parts
  rw [List.append_assoc] at left
  obtain ⟨next, unread, prefixed⟩ := readLengthDelimiter_delimiter codec delimiter left
  obtain ⟨after, read, unread⟩ := next.readExact_append body unread
  refine ⟨after, unread, ?_⟩
  rw [readMessage, prefixed, decodeDelimiter, len]
  simp only [if_neg (Nat.not_lt.mpr short), read, decoded]

/-- A reader that finds the file to end inside a record fails. -/
theorem IsRecord.torn (record : IsRecord codec decode bytes message) {part missing : List UInt8}
    (split : bytes = part ++ missing) (filled : part ≠ []) (more : missing ≠ [])
    {source : Source UInt8} (left : source.left = part) :
    ∃ after : Source UInt8,
      readMessage codec decode source = (.error .unexpectedEof, after) := by
  obtain ⟨front, last, body, rfl, delimiter, len, short, decoded⟩ := record.parts
  by_cases inside : part.length ≤ front.length
  · -- In the prefix: so far every byte continues.
    have part_le : part <+: front :=
      List.prefix_of_prefix_length_le ⟨missing, split.symm⟩ ⟨last :: body, rfl⟩ inside
    obtain ⟨after, collected⟩ := collectDelimiter_short codec part 10 [] source
      (fun byte listed => delimiter.continued byte (part_le.subset listed))
      (Nat.lt_of_le_of_lt inside delimiter.short) left
    refine ⟨after, ?_⟩
    have nonempty : ([] ++ part).isEmpty = false := by simp [filled]
    rw [readMessage, readLengthDelimiter, collected, nonempty]
    rfl
  · -- Past it: the payload comes up short.
    obtain ⟨body', rfl⟩ : front ++ [last] <+: part :=
      List.prefix_of_prefix_length_le ⟨body, by simp⟩ ⟨missing, split.symm⟩
        (by rw [List.length_append, List.length_singleton]; omega)
    rw [List.append_assoc, List.singleton_append] at left
    obtain ⟨next, unread, prefixed⟩ := readLengthDelimiter_delimiter codec delimiter left
    have rest : body = body' ++ missing := by simpa using split
    have lost := List.length_pos_of_ne_nil more
    have few := next.readExact_short body.length (by rw [unread, rest, List.length_append]; omega)
    rw [readMessage, prefixed, decodeDelimiter, len]
    simp only [if_neg (Nat.not_lt.mpr short)]
    generalize next.readExact body.length = outcome at few ⊢
    obtain ⟨_, after⟩ := outcome
    obtain rfl := few
    exact ⟨after, rfl⟩

variable (codec) in
/-- A reader comes to the end, fails, or takes a record off the file. -/
theorem readMessage_cases (decode : List UInt8 → Option M) (source : Source UInt8) :
    (source.left = [] ∧ ∃ after, readMessage codec decode source = (.ok none, after)) ∨
      (∃ error after, readMessage codec decode source = (.error error, after)) ∨
      ∃ bytes message after, source.left = bytes ++ Source.left after ∧
        IsRecord codec decode bytes message ∧
        readMessage codec decode source = (.ok (some message), after) := by
  cases delimiter_cases 9 source.left with
  | inl all =>
      obtain ⟨after, collected⟩ :=
        collectDelimiter_short codec source.left 10 [] source all.1 all.2 rfl
      rw [readMessage, readLengthDelimiter, collected]
      by_cases drained : source.left = []
      · rw [drained]
        exact .inl ⟨rfl, after, rfl⟩
      · have nonempty : ([] ++ source.left).isEmpty = false := by simp [drained]
        rw [nonempty]
        exact .inr (.inl ⟨_, after, rfl⟩)
  | inr split =>
      obtain ⟨front, last, rest, left, continued, short, ends⟩ := split
      have delimiter : IsDelimiter front last := ⟨continued, short, ends⟩
      obtain ⟨next, unread, prefixed⟩ := readLengthDelimiter_delimiter codec delimiter left
      rw [readMessage, prefixed, decodeDelimiter]
      cases decoded : codec.decodeLengthDelimiter (front ++ [last]) with
      | none => exact .inr (.inl ⟨_, next, rfl⟩)
      | some len =>
          dsimp only
          split
          · exact .inr (.inl ⟨_, next, rfl⟩)
          · rename_i fits
            obtain ⟨read, remains⟩ := next.readExact_spec len
            generalize next.readExact len = outcome at read remains ⊢
            obtain ⟨_, after⟩ := outcome
            dsimp only at read remains
            split at read
            · rename_i enough
              obtain rfl := read
              dsimp only
              cases known : decode (next.left.take len) with
              | none => exact .inr (.inl ⟨_, after, rfl⟩)
              | some message =>
                  have exact : (next.left.take len).length = len := List.length_take_of_le enough
                  refine .inr (.inr ⟨front ++ last :: next.left.take len, message, after, ?_,
                    ⟨front, last, _, rfl, delimiter, by rw [exact, decoded], ?_, known⟩, rfl⟩)
                  · rw [left, remains, List.append_assoc, List.cons_append, List.take_append_drop,
                      unread]
                  · rw [exact]
                    exact Nat.not_lt.mp fits
            · obtain rfl := read
              exact .inr (.inl ⟨_, after, rfl⟩)

end Message

/-! ## What is left of an archive -/

namespace ArchiveReader

variable (reader : ArchiveReader) (events : List (PeerEvent H))

/-- The reader yields these events and comes to the end of the archive. -/
def Ends : Prop := ∀ calls, reader.nexts codec calls = (events.take calls).map .ok

/-- The reader yields these events and then fails. -/
def Fails : Prop :=
  ∃ error, reader.nexts codec (events.length + 1) = events.map .ok ++ [.error error]

variable {codec reader events}

theorem Fails.not_ends (fails : Fails codec reader events) : ¬ Ends codec reader events := by
  intro ends
  obtain ⟨error, yielded⟩ := fails
  rw [ends, List.take_of_length_le (Nat.le_succ _)] at yielded
  simpa using congrArg List.length yielded

theorem ends_nil (left : reader.source.left = []) : Ends codec reader [] := by
  intro calls
  exact reader.nexts_records codec [] (by simp) (by simp) calls left

variable {event : PeerEvent H} {after : Source UInt8}

theorem nexts_succ (read : readMessage codec codec.decodeEvent reader.source =
    (.ok (some event), after)) (calls : Nat) :
    reader.nexts codec (calls + 1) =
      .ok event :: nexts codec calls { reader with source := after } := by
  rw [nexts, next, read]

theorem Ends.cons (read : readMessage codec codec.decodeEvent reader.source =
    (.ok (some event), after)) (ends : Ends codec { reader with source := after } events) :
    Ends codec reader (event :: events) := by
  intro calls
  cases calls with
  | zero => rfl
  | succ calls => rw [nexts_succ read, ends calls, List.take_succ_cons, List.map_cons]

theorem Fails.cons (read : readMessage codec codec.decodeEvent reader.source =
    (.ok (some event), after)) (fails : Fails codec { reader with source := after } events) :
    Fails codec reader (event :: events) := by
  obtain ⟨error, yielded⟩ := fails
  refine ⟨error, ?_⟩
  rw [List.length_cons, nexts_succ read, yielded, List.map_cons, List.cons_append]

/-- What is read to its end without an error is records. -/
theorem Ends.records (ends : Ends codec reader events) :
    ∃ records, reader.source.left = records.flatten ∧
      List.Forall₂ (IsRecord codec codec.decodeEvent) records events := by
  induction events generalizing reader with
  | nil =>
      have first := ends 1
      rw [nexts, next] at first
      rcases readMessage_cases codec codec.decodeEvent reader.source with
        ⟨left, -⟩ | ⟨error, after, read⟩ | ⟨_, _, after, -, -, read⟩
      · exact ⟨[], left, .nil⟩
      · rw [read] at first
        cases first
      · rw [read] at first
        cases first
  | cons event events ih =>
      have first := ends 1
      rw [nexts, next] at first
      rcases readMessage_cases codec codec.decodeEvent reader.source with
        ⟨-, after, read⟩ | ⟨error, after, read⟩ | ⟨bytes, message, after, left, record, read⟩
      · rw [read] at first
        cases first
      · rw [read] at first
        cases first
      · rw [read] at first
        obtain rfl : message = event := Except.ok.inj (List.cons.inj first).1
        have later : Ends codec { reader with source := after } events := by
          intro calls
          have more := ends (calls + 1)
          rw [nexts_succ read, List.take_succ_cons, List.map_cons] at more
          exact (List.cons.inj more).2
        obtain ⟨records, rest, all⟩ := ih later
        exact ⟨bytes :: records, by rw [left, rest, List.flatten_cons], .cons record all⟩

/-- A reader of the first bytes of some records. -/
theorem cut_records (reader : ArchiveReader) {records : List (List UInt8)}
    (all : List.Forall₂ (IsRecord codec codec.decodeEvent) records events) {cut : Nat}
    (inside : cut ≤ records.flatten.length) (left : reader.source.left = records.flatten.take cut) :
    ∃ whole torn, records = whole ++ torn ∧ whole.flatten.length ≤ cut ∧
      (∀ record ∈ torn.head?, cut < whole.flatten.length + record.length) ∧
      (cut = whole.flatten.length → Ends codec reader (events.take whole.length)) ∧
      (cut ≠ whole.flatten.length → Fails codec reader (events.take whole.length)) := by
  induction all generalizing reader cut with
  | nil =>
      obtain rfl : cut = 0 := Nat.le_zero.mp inside
      exact ⟨[], [], rfl, Nat.le_refl 0, by simp, fun _ => ends_nil left,
        fun unread => absurd rfl unread⟩
  | @cons record event records events first all ih =>
      rw [List.flatten_cons] at inside left
      by_cases torn : cut < record.length
      · refine ⟨[], record :: records, rfl, Nat.zero_le _, ?_, ?_, ?_⟩
        · intro _ same
          obtain rfl := Option.some.inj same
          simpa using torn
        · intro at_start
          obtain rfl : cut = 0 := at_start
          exact ends_nil left
        · intro begun
          rw [List.take_append_of_le_length (Nat.le_of_lt torn)] at left
          have part : record.take cut ≠ [] := by
            rw [Ne, List.take_eq_nil_iff, not_or]
            exact ⟨begun, first.nonempty⟩
          have missing : record.drop cut ≠ [] := by
            rw [Ne, List.drop_eq_nil_iff]
            omega
          have split := (List.take_append_drop cut record).symm
          obtain ⟨after, read⟩ := first.torn split part missing left
          refine ⟨.unexpectedEof, ?_⟩
          rw [List.length_nil, List.take_zero, List.length_nil, nexts, next, read]
          rfl
      · obtain ⟨more, rfl⟩ := Nat.exists_eq_add_of_le (Nat.not_lt.mp torn)
        rw [List.take_length_add_append] at left
        rw [List.length_append] at inside
        obtain ⟨after, unread, read⟩ := first.read left
        obtain ⟨whole, torn, rfl, fits, next, ends, fails⟩ :=
          ih { reader with source := after } (by omega) unread
        refine ⟨record :: whole, torn, rfl, ?_, ?_, ?_, ?_⟩
        · rw [List.flatten_cons, List.length_append]
          omega
        · intro last listed
          have past := next last listed
          rw [List.flatten_cons, List.length_append]
          omega
        · intro boundary
          rw [List.flatten_cons, List.length_append] at boundary
          exact (ends (by omega)).cons read
        · intro inside
          rw [List.flatten_cons, List.length_append] at inside
          exact (fails (by omega)).cons read

end ArchiveReader

/-- An archive read to its end is a header and records. Of its first bytes, however many but the
    header, a reader yields the events of the records that are whole, and then ends just when
    nothing else is left, and fails when something is. -/
theorem cut_archive {bytes : List UInt8} {cuts : List Nat} {reader : ArchiveReader}
    {events : List (PeerEvent H)} (opened : ArchiveReader.new codec ⟨bytes, cuts⟩ = .ok reader)
    (complete : reader.Ends codec events) :
    ∃ header records, bytes = header ++ records.flatten ∧
      IsRecord codec codec.decodeHeader header reader.header ∧
      List.Forall₂ (IsRecord codec codec.decodeEvent) records events ∧
      ∀ cut, header.length ≤ cut → cut ≤ bytes.length → ∀ cuts' : List Nat,
        ∃ reader' : ArchiveReader, ArchiveReader.new codec ⟨bytes.take cut, cuts'⟩ = .ok reader' ∧
          reader'.header = reader.header ∧
          ∃ whole torn, records = whole ++ torn ∧ header.length + whole.flatten.length ≤ cut ∧
            (∀ record ∈ torn.head?, cut < header.length + whole.flatten.length + record.length) ∧
            (reader'.Ends codec (events.take whole.length) ↔
              cut = header.length + whole.flatten.length) ∧
            (cut ≠ header.length + whole.flatten.length →
              reader'.Fails codec (events.take whole.length)) := by
  rcases readMessage_cases codec codec.decodeHeader ⟨bytes, cuts⟩ with
    ⟨-, after, read⟩ | ⟨error, after, read⟩ | ⟨header, message, after, left, first, read⟩
  · rw [ArchiveReader.new, read] at opened
    cases opened
  · rw [ArchiveReader.new, read] at opened
    cases opened
  · rw [ArchiveReader.new, read] at opened
    obtain rfl := Except.ok.inj opened
    obtain ⟨records, rest, all⟩ := complete.records
    obtain rfl : bytes = header ++ records.flatten := by rw [← rest]; exact left
    refine ⟨header, records, rfl, first, all, ?_⟩
    intro cut headed inside cuts'
    obtain ⟨more, rfl⟩ := Nat.exists_eq_add_of_le headed
    rw [List.length_append] at inside
    rw [List.take_length_add_append]
    have cut_left : Source.left ⟨header ++ records.flatten.take more, cuts'⟩ =
        header ++ records.flatten.take more := rfl
    obtain ⟨after', unread, read'⟩ := first.read cut_left
    obtain ⟨whole, torn, split, fits, next, ends, fails⟩ :=
      ArchiveReader.cut_records ⟨after', message⟩ all (by omega) unread
    refine ⟨⟨after', message⟩, by rw [ArchiveReader.new, read'], rfl, whole, torn, split, by omega,
      ?_, ⟨?_, ?_⟩, fun other => fails (by omega)⟩
    · intro record listed
      have past := next record listed
      omega
    · intro ended
      by_contra other
      exact (fails (by omega)).not_ends ended
    · intro boundary
      exact ends (by omega)

/-- An archive of two pings. -/
def pingArchive : List UInt8 :=
  ArchiveFile.record pingCodec (pingCodec.headerPayload pingHeader) ++
    [quickPing, laterPing].flatMap (ArchiveFile.record pingCodec)

theorem pingArchive_reads : ∃ reader : ArchiveReader,
    ArchiveReader.new pingCodec ⟨pingArchive, []⟩ = .ok reader ∧
      reader.Ends pingCodec [pinged 30, pinged 45] := by
  have start : Source.left ⟨pingArchive, []⟩ = pingArchive := rfl
  obtain ⟨after, left, read⟩ := readMessage_record pingCodec pingCodec.decodeHeader
    (pingCodec.headerPayload pingHeader) (by decide +kernel)
    (pingCodec.header_roundTrip pingHeader) start
  have events : ArchiveReader.eventsOf pingCodec [quickPing, laterPing] =
      [pinged 30, pinged 45] := by
    simp [ArchiveReader.eventsOf, pingCodec, readPing_quickPing, readPing_laterPing]
  refine ⟨⟨after, pingHeader⟩, by rw [ArchiveReader.new, read], fun calls => ?_⟩
  rw [← events]
  exact ArchiveReader.nexts_records pingCodec [quickPing, laterPing]
    (by simp [pingCodec, readPing_quickPing, readPing_laterPing]) (by decide) calls _ left

/-- Without its last byte the archive has the first event and then an error. -/
theorem cut_archive_ping : ∃ (reader : ArchiveReader) (error : ReadError),
    ArchiveReader.new pingCodec ⟨pingArchive.take (pingArchive.length - 1), []⟩ = .ok reader ∧
      reader.nexts pingCodec 2 = [.ok (pinged 30), .error error] := by
  obtain ⟨reader, opened, complete⟩ := pingArchive_reads
  obtain ⟨header, records, whole_file, -, all, cut⟩ := cut_archive pingCodec opened complete
  obtain ⟨first, _, one, rest, rfl⟩ := List.forall₂_cons_right_iff.mp all
  obtain ⟨second, _, two, none_left, rfl⟩ := List.forall₂_cons_right_iff.mp rest
  obtain rfl := List.forall₂_nil_right_iff.mp none_left
  -- The second record has a length and a message, which is not empty.
  have long : 2 ≤ second.length := by
    obtain ⟨front, last, body, rfl, -, -, -, known⟩ := two.parts
    have nonempty : body ≠ [] := by
      rintro rfl
      have empty : (readPing []).isSome = false := by decide +kernel
      rw [show readPing [] = _ from known] at empty
      cases empty
    have := List.length_pos_of_ne_nil nonempty
    rw [List.length_append, List.length_cons]
    omega
  have length := congrArg List.length whole_file
  simp only [List.flatten_cons, List.flatten_nil, List.length_append, List.length_nil] at length
  obtain ⟨reader, opened, -, whole, torn, split, fits, past, -, fails⟩ :=
    cut (pingArchive.length - 1) (by omega) (by omega) []
  obtain rfl : whole = [first] := by
    match whole, split with
    | [], split =>
        rw [List.nil_append] at split
        have := past first (by rw [← split]; rfl)
        simp only [List.flatten_nil, List.length_nil] at this
        omega
    | [_], split => rw [(List.cons.inj split).1]
    | _ :: _ :: more, split =>
        obtain ⟨rfl, rest⟩ := List.cons.inj split
        obtain ⟨rfl, -⟩ := List.cons.inj rest
        simp only [List.flatten_cons, List.length_append] at fits
        omega
  simp only [List.flatten_singleton] at fails
  obtain ⟨error, yielded⟩ := fails (by omega)
  exact ⟨reader, error, opened, yielded⟩

end P2PObserver
