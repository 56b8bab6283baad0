import Mathlib.Data.List.Forall2
import P2PObserver.Archive.Pings
import P2PObserver.Archive.Reader

/-! # What the archiver writes is what a reader yields

A file is its header's record and the records written after it, and a reader takes them off
one at a time. It refuses a record only for its length, which the archiver does not bound.
-/

namespace P2PObserver

open Chunks

variable {H : Type} (codec : ArchiveCodec H)

/-! ## One record -/

/-- The bytes of a length prefix are collected up to its last, whatever follows. -/
theorem collectDelimiter_spec {last : UInt8} (rest front : List UInt8) :
    ∀ (room : Nat) (bytes : List UInt8) (source : Source UInt8),
      (∀ byte ∈ front, byte &&& 0x80 ≠ 0) → front.length < room →
      (last &&& 0x80 = 0 ∨ front.length + 1 = room) → source.left = front ++ last :: rest →
      ∃ after : Source UInt8, after.left = rest ∧
        collectDelimiter codec room bytes source =
          (decodeDelimiter codec (bytes ++ (front ++ [last])), after) := by
  induction front with
  | nil =>
      intro room bytes source _ fits ends left
      obtain ⟨room, rfl⟩ := Nat.exists_eq_add_of_lt fits
      obtain ⟨after, read, unread⟩ := source.readExact_append [last] left
      refine ⟨after, unread, ?_⟩
      simp only [List.length_singleton] at read
      rw [collectDelimiter, read]
      cases ends with
      | inl ends => exact if_pos ends
      | inr full =>
          obtain rfl : room = 0 := by simpa using full
          exact ite_self _
  | cons byte front ih =>
      intro room bytes source continued fits ends left
      obtain ⟨room, rfl⟩ := Nat.exists_eq_add_of_lt (Nat.zero_lt_of_lt fits)
      obtain ⟨next, read, unread⟩ := source.readExact_append [byte] left
      simp only [List.length_singleton] at read
      obtain ⟨more, continued⟩ := List.forall_mem_cons.mp continued
      rw [List.length_cons] at fits ends
      obtain ⟨after, unread, collected⟩ := ih (0 + room) (bytes ++ [byte]) next continued
        (by omega) (ends.imp_right fun full => by omega) unread
      refine ⟨after, unread, ?_⟩
      rw [collectDelimiter, read]
      simp only [if_neg more, collected, List.append_assoc, List.cons_append, List.nil_append]

theorem readLengthDelimiter_spec {len : Nat} (fits : len < 2 ^ 64) {rest : List UInt8}
    {source : Source UInt8} (left : source.left = codec.encodeLengthDelimiter len ++ rest) :
    ∃ after : Source UInt8, after.left = rest ∧
      readLengthDelimiter codec source = (.ok (some len), after) := by
  obtain ⟨front, last, bytes, continued, ends⟩ := (codec.delimiter_varint len fits).delimited
  have short := (codec.delimiter_varint len fits).short
  rw [bytes, List.length_append, List.length_singleton] at short
  rw [bytes, List.append_assoc, List.singleton_append] at left
  obtain ⟨after, unread, collected⟩ :=
    collectDelimiter_spec codec rest front 10 [] source continued (by omega) (.inl ends) left
  refine ⟨after, unread, ?_⟩
  rw [readLengthDelimiter, collected, List.nil_append, ← bytes, decodeDelimiter,
    codec.delimiter_roundTrip len fits]

theorem readLengthDelimiter_end {source : Source UInt8} (left : source.left = []) :
    ∃ after : Source UInt8, after.left = [] ∧
      readLengthDelimiter codec source = (.ok none, after) := by
  have read := source.readExact_short 1 (by rw [left]; exact Nat.zero_lt_one)
  have unread := (source.readExact_spec 1).2
  rw [left, List.drop_nil] at unread
  refine ⟨(source.readExact 1).2, unread, ?_⟩
  unfold readLengthDelimiter collectDelimiter
  generalize source.readExact 1 = outcome at read ⊢
  obtain ⟨bytes, after⟩ := outcome
  obtain rfl : bytes = none := read
  rfl

section Message

variable {M : Type} (decode : List UInt8 → Option M)

theorem readMessage_end {source : Source UInt8} (left : source.left = []) :
    ∃ after : Source UInt8, after.left = [] ∧ readMessage codec decode source = (.ok none, after) := by
  obtain ⟨after, unread, read⟩ := readLengthDelimiter_end codec left
  refine ⟨after, unread, ?_⟩
  rw [readMessage, read]

/-- What a reader makes of prost's answer. -/
def decoded : Option M → Except ReadError (Option M)
  | some message => .ok (some message)
  | none => .error .decode

/-- A record that is short enough is read whole and handed to prost. -/
theorem readMessage_short (payload : Payload) (short : payload.val.length ≤ MAX_RECORD)
    {rest : List UInt8} {source : Source UInt8}
    (left : source.left = ArchiveFile.record codec payload ++ rest) :
    ∃ after : Source UInt8, after.left = rest ∧
      readMessage codec decode source = (decoded (decode payload.val), after) := by
  rw [ArchiveFile.record, List.append_assoc] at left
  obtain ⟨next, unread, prefixed⟩ := readLengthDelimiter_spec codec payload.property left
  obtain ⟨after, read, unread⟩ := next.readExact_append _ unread
  refine ⟨after, unread, ?_⟩
  rw [readMessage, prefixed]
  simp only [if_neg (Nat.not_lt.mpr short), read]
  cases decode payload.val <;> rfl

theorem readMessage_record (payload : Payload) (short : payload.val.length ≤ MAX_RECORD)
    {message : M} (known : decode payload.val = some message) {rest : List UInt8}
    {source : Source UInt8} (left : source.left = ArchiveFile.record codec payload ++ rest) :
    ∃ after : Source UInt8, after.left = rest ∧
      readMessage codec decode source = (.ok (some message), after) := by
  obtain ⟨after, unread, read⟩ := readMessage_short codec decode payload short left
  rw [known] at read
  exact ⟨after, unread, read⟩

/-- A longer record is refused once its length is read. -/
theorem readMessage_tooLong (payload : Payload) (long : MAX_RECORD < payload.val.length)
    {rest : List UInt8} {source : Source UInt8}
    (left : source.left = ArchiveFile.record codec payload ++ rest) :
    ∃ after : Source UInt8,
      readMessage codec decode source = (.error (.tooLong payload.val.length), after) := by
  rw [ArchiveFile.record, List.append_assoc] at left
  obtain ⟨next, unread, prefixed⟩ := readLengthDelimiter_spec codec payload.property left
  refine ⟨next, ?_⟩
  rw [readMessage, prefixed]
  simp only [if_pos long]

end Message

/-! ## One file -/

namespace ArchiveReader

/-- The events of some payloads, as far as they decode. -/
def eventsOf (payloads : List Payload) : List (PeerEvent H) :=
  payloads.filterMap fun payload => codec.decodeEvent payload.val

theorem nexts_records (payloads : List Payload)
    (decodes : ∀ payload ∈ payloads, (codec.decodeEvent payload.val).isSome)
    (short : ∀ payload ∈ payloads, payload.val.length ≤ MAX_RECORD) :
    ∀ (calls : Nat) (reader : ArchiveReader),
      reader.source.left = payloads.flatMap (ArchiveFile.record codec) →
      nexts codec calls reader = ((eventsOf codec payloads).take calls).map .ok := by
  induction payloads with
  | nil =>
      intro calls reader left
      cases calls with
      | zero => rfl
      | succ calls =>
          obtain ⟨after, -, read⟩ := readMessage_end codec codec.decodeEvent left
          simp [nexts, next, read, eventsOf]
  | cons payload payloads ih =>
      intro calls reader left
      cases calls with
      | zero => rfl
      | succ calls =>
          obtain ⟨event, decoded⟩ := Option.isSome_iff_exists.mp (decodes payload (by simp))
          obtain ⟨after, unread, read⟩ :=
            readMessage_record codec codec.decodeEvent payload (short payload (by simp)) decoded left
          have rest := ih (fun later listed => decodes later (by simp [listed]))
            (fun later listed => short later (by simp [listed])) calls
            { reader with source := after } unread
          simp [nexts, next, read, rest, eventsOf, decoded]

/-- A reader that is asked often enough comes to the record it refuses. -/
theorem nexts_tooLong (payloads : List Payload)
    (decodes : ∀ payload ∈ payloads, (codec.decodeEvent payload.val).isSome)
    {payload : Payload} (listed : payload ∈ payloads) (long : MAX_RECORD < payload.val.length) :
    ∀ reader : ArchiveReader, reader.source.left = payloads.flatMap (ArchiveFile.record codec) →
      ∃ error, .error error ∈ nexts codec payloads.length reader := by
  induction payloads with
  | nil => cases listed
  | cons first payloads ih =>
      intro reader left
      by_cases refused : MAX_RECORD < first.val.length
      · obtain ⟨after, read⟩ := readMessage_tooLong codec codec.decodeEvent first refused left
        refine ⟨.tooLong first.val.length, ?_⟩
        simp [nexts, next, read]
      · obtain ⟨event, decoded⟩ := Option.isSome_iff_exists.mp (decodes first (by simp))
        obtain ⟨after, unread, read⟩ :=
          readMessage_record codec codec.decodeEvent first (Nat.not_lt.mp refused) decoded left
        have later : payload ∈ payloads := by
          cases listed with
          | head => exact absurd long refused
          | tail _ later => exact later
        obtain ⟨error, yielded⟩ := ih (fun later listed => decodes later (by simp [listed])) later
          { reader with source := after } unread
        refine ⟨error, ?_⟩
        simp [nexts, next, read, yielded]

end ArchiveReader

/-- A file finished with these payloads after its header. -/
structure Stored (header : codec.Header) (file : StoredFile) (payloads : List Payload) : Prop where
  written : ∃ contents : ArchiveFile, file = contents.finalize codec ∧
    contents.written = ArchiveFile.record codec (codec.headerPayload header) ++
      payloads.flatMap (ArchiveFile.record codec)

/-- Opened, a file gives its header and then these events and nothing else, however its reads
    are split and however often it is asked. -/
def ReadsBack (header : ArchiveHeader) (file : StoredFile) (events : List (PeerEvent H)) : Prop :=
  ∀ (cuts : List Nat) (calls : Nat), ∃ reader, ArchiveReader.openFile codec file cuts = .ok reader ∧
    reader.header = header ∧ reader.nexts codec calls = (events.take calls).map .ok

namespace Stored

variable {codec} {header : codec.Header} {file : StoredFile} {payloads : List Payload}

/-- Opening starts reading at what the writer was handed. -/
theorem openFile_source (stored : Stored codec header file payloads) (cuts : List Nat) :
    ∃ source : Source UInt8, ArchiveReader.openFile codec file cuts = ArchiveReader.new codec source ∧
      source.left = ArchiveFile.record codec (codec.headerPayload header) ++
        payloads.flatMap (ArchiveFile.record codec) := by
  obtain ⟨contents, rfl, written⟩ := stored.written
  refine ⟨⟨contents.written, cuts⟩, ?_, written⟩
  unfold ArchiveReader.openFile ArchiveFile.finalize
  cases contents.compressed with
  | true => simp [codec.zstd_roundTrip]
  | false => rfl

theorem opens (stored : Stored codec header file payloads) (cuts : List Nat)
    (short : (codec.encodeHeader header).length ≤ MAX_RECORD) :
    ∃ reader, ArchiveReader.openFile codec file cuts = .ok reader ∧ reader.header = header ∧
      reader.source.left = payloads.flatMap (ArchiveFile.record codec) := by
  obtain ⟨source, opened, left⟩ := stored.openFile_source cuts
  obtain ⟨after, unread, read⟩ := readMessage_record codec codec.decodeHeader
    (codec.headerPayload header) short (codec.header_roundTrip header) left
  refine ⟨⟨after, header⟩, ?_, rfl, unread⟩
  rw [opened, ArchiveReader.new, read]

theorem header_short (stored : Stored codec header file payloads) {reader : ArchiveReader}
    {cuts : List Nat} (opened : ArchiveReader.openFile codec file cuts = .ok reader) :
    (codec.encodeHeader header).length ≤ MAX_RECORD := by
  apply Nat.not_lt.mp
  intro long
  obtain ⟨source, same, left⟩ := stored.openFile_source cuts
  obtain ⟨after, read⟩ := readMessage_tooLong codec codec.decodeHeader
    (codec.headerPayload header) long left
  rw [same, ArchiveReader.new, read] at opened
  cases opened

theorem readsBack (stored : Stored codec header file payloads)
    (decodes : ∀ payload ∈ payloads, (codec.decodeEvent payload.val).isSome)
    (header_short : (codec.encodeHeader header).length ≤ MAX_RECORD)
    (short : ∀ payload ∈ payloads, payload.val.length ≤ MAX_RECORD) :
    ReadsBack codec header file (ArchiveReader.eventsOf codec payloads) := by
  intro cuts calls
  obtain ⟨reader, opened, headed, left⟩ := stored.opens cuts header_short
  exact ⟨reader, opened, headed, reader.nexts_records codec payloads decodes short calls left⟩

theorem short_of_readsBack (stored : Stored codec header file payloads)
    (decodes : ∀ payload ∈ payloads, (codec.decodeEvent payload.val).isSome)
    {events : List (PeerEvent H)} (back : ReadsBack codec header file events) :
    (codec.encodeHeader header).length ≤ MAX_RECORD ∧
      ∀ payload ∈ payloads, payload.val.length ≤ MAX_RECORD := by
  obtain ⟨reader, opened, -, yielded⟩ := back [] payloads.length
  have header_short := stored.header_short opened
  refine ⟨header_short, ?_⟩
  intro payload listed
  apply Nat.not_lt.mp
  intro long
  obtain ⟨reader', opened', -, left⟩ := stored.opens [] header_short
  obtain rfl : reader = reader' := Except.ok.inj (opened.symm.trans opened')
  obtain ⟨error, refused⟩ := reader.nexts_tooLong codec payloads decodes listed long left
  rw [yielded] at refused
  obtain ⟨_, _, clash⟩ := List.mem_map.mp refused
  cases clash

theorem readsBack_all {files : List StoredFile} {parts : List (List Payload)}
    (stored : List.Forall₂ (Stored codec header) files parts)
    (decodes : ∀ payload ∈ parts.flatten, (codec.decodeEvent payload.val).isSome)
    (header_short : (codec.encodeHeader header).length ≤ MAX_RECORD)
    (short : ∀ payload ∈ parts.flatten, payload.val.length ≤ MAX_RECORD) :
    List.Forall₂ (ReadsBack codec header) files (parts.map (ArchiveReader.eventsOf codec)) := by
  induction stored with
  | nil => exact .nil
  | cons first _ ih =>
      rw [List.flatten_cons] at decodes short
      obtain ⟨decodes, decodes_later⟩ := List.forall_mem_append.mp decodes
      obtain ⟨short, short_later⟩ := List.forall_mem_append.mp short
      exact .cons (first.readsBack decodes header_short short) (ih decodes_later short_later)

theorem short_of_readsBack_all {files : List StoredFile} {parts : List (List Payload)}
    (stored : List.Forall₂ (Stored codec header) files parts) :
    (∀ payload ∈ parts.flatten, (codec.decodeEvent payload.val).isSome) →
      ∀ {events : List (List (PeerEvent H))},
        List.Forall₂ (ReadsBack codec header) files events →
        (files ≠ [] → (codec.encodeHeader header).length ≤ MAX_RECORD) ∧
          ∀ payload ∈ parts.flatten, payload.val.length ≤ MAX_RECORD := by
  induction stored with
  | nil => simp
  | cons first _ ih =>
      intro decodes events back
      rw [List.flatten_cons] at decodes ⊢
      obtain ⟨decodes, decodes_later⟩ := List.forall_mem_append.mp decodes
      cases back with
      | cons back back_later =>
          obtain ⟨header_short, short⟩ := first.short_of_readsBack decodes back
          obtain ⟨-, short_later⟩ := ih decodes_later back_later
          exact ⟨fun _ => header_short, List.forall_mem_append.mpr ⟨short, short_later⟩⟩

end Stored

/-! ## A whole subscription -/

namespace Archiver

/-- What the archiver has put in each file it closed and in the one it has open. -/
structure Wrote (header : codec.Header) (s : Archiver) (parts : List (List Payload))
    (last : List Payload) : Prop where
  closed : List.Forall₂ (Stored codec header) s.closed parts
  current : s.file.written =
    ArchiveFile.record codec (codec.headerPayload header) ++
      last.flatMap (ArchiveFile.record codec)

/-- The payloads that are kept. -/
def kept (filter : Filter) (messages : List Payload) : List Payload :=
  messages.filter fun payload => (accepted codec filter payload).isSome

theorem kept_append (filter : Filter) (messages later : List Payload) :
    kept codec filter (messages ++ later) = kept codec filter messages ++ kept codec filter later :=
  List.filter_append ..

variable {codec} (filter : Filter) {header : codec.Header} (full : Nat → ArchiveFile → Bool)

theorem Wrote.step {s : Archiver} {parts : List (List Payload)} {last : List Payload}
    (wrote : Wrote codec header s parts last) (payload : Payload) :
    ∃ parts' last', Wrote codec header (s.step codec filter header full payload) parts' last' ∧
      parts'.flatten ++ last' = parts.flatten ++ last ++ kept codec filter [payload] := by
  unfold Archiver.step
  cases outcome : accepted codec filter payload with
  | none =>
      refine ⟨parts, last, wrote, ?_⟩
      simp [kept, outcome]
  | some event =>
      have written : (s.file.writeRecord codec payload).written =
          ArchiveFile.record codec (codec.headerPayload header) ++
            (last ++ [payload]).flatMap (ArchiveFile.record codec) := by
        simp [ArchiveFile.writeRecord, wrote.current]
      simp only
      split
      · refine ⟨parts ++ [last ++ [payload]], [], ⟨?_, by simp [ArchiveFile.create]⟩, ?_⟩
        · have finished := List.Forall₂.cons (R := Stored codec header) ⟨_, rfl, written⟩ .nil
          exact List.rel_append wrote.closed finished
        · simp [kept, outcome]
      · refine ⟨parts, last ++ [payload], ⟨wrote.closed, written⟩, ?_⟩
        simp [kept, outcome]

theorem Wrote.steps (messages : List Payload) :
    ∀ {s : Archiver} {parts : List (List Payload)} {last : List Payload},
      Wrote codec header s parts last →
      ∃ parts' last', Wrote codec header (messages.foldl (Archiver.step codec filter header full) s)
          parts' last' ∧
        parts'.flatten ++ last' = parts.flatten ++ last ++ kept codec filter messages := by
  induction messages with
  | nil =>
      intro s parts last wrote
      exact ⟨parts, last, wrote, by simp [kept]⟩
  | cons payload messages ih =>
      intro s parts last wrote
      obtain ⟨parts₁, last₁, wrote₁, flat₁⟩ := wrote.step filter full payload
      obtain ⟨parts₂, last₂, wrote₂, flat₂⟩ := ih wrote₁
      refine ⟨parts₂, last₂, wrote₂, ?_⟩
      rw [flat₂, flat₁, List.append_assoc]
      rw [← kept_append, List.singleton_append]

theorem decodes_of_kept {messages : List Payload} {payload : Payload}
    (listed : payload ∈ kept codec filter messages) : (codec.decodeEvent payload.val).isSome := by
  have accepted := (List.mem_filter.mp listed).2
  obtain ⟨event, found⟩ := Option.isSome_iff_exists.mp accepted
  rw [(Option.filter_eq_some_iff.mp found).1]
  rfl

theorem eventsOf_kept (messages : List Payload) :
    ArchiveReader.eventsOf codec (kept codec filter messages) =
      messages.filterMap (accepted codec filter) := by
  induction messages with
  | nil => rfl
  | cons payload messages ih =>
      unfold ArchiveReader.eventsOf kept at ih ⊢
      rw [List.filter_cons, List.filterMap_cons]
      cases outcome : accepted codec filter payload with
      | none => exact ih
      | some event =>
          have decoded := (Option.filter_eq_some_iff.mp outcome).1
          simp only [Option.isSome_some, if_true, List.filterMap_cons, decoded, ih]

/-- Each file holds its part of the payloads kept, in order. -/
theorem run_stored (compressed : Bool) (messages : List Payload) :
    ∃ parts, List.Forall₂ (Stored codec header)
        (run codec filter compressed header full messages) parts ∧
      parts.flatten = kept codec filter messages := by
  have start : Wrote codec header (new codec compressed header) [] [] :=
    ⟨.nil, by simp [new, ArchiveFile.create]⟩
  obtain ⟨parts, last, wrote, flat⟩ := Wrote.steps filter full messages start
  refine ⟨parts ++ [last], ?_, by simpa using flat⟩
  exact List.rel_append wrote.closed (.cons ⟨_, rfl, wrote.current⟩ .nil)

section ReadsBack

variable (compressed : Bool) (messages : List Payload)

theorem run_readsBack (header_short : (codec.encodeHeader header).length ≤ MAX_RECORD)
    (short : ∀ payload ∈ messages, (accepted codec filter payload).isSome →
      payload.val.length ≤ MAX_RECORD) :
    ∃ parts : List (List (PeerEvent H)),
      parts.flatten = messages.filterMap (accepted codec filter) ∧
        List.Forall₂ (ReadsBack codec header)
          (run codec filter compressed header full messages) parts := by
  obtain ⟨parts, stored, flat⟩ := run_stored filter full compressed messages
  refine ⟨parts.map (ArchiveReader.eventsOf codec), ?_, ?_⟩
  · rw [← eventsOf_kept filter messages, ← flat]
    exact List.filterMap_flatten.symm
  · apply Stored.readsBack_all stored
    · rw [flat]
      exact fun payload => decodes_of_kept filter
    · exact header_short
    · intro payload listed
      rw [flat] at listed
      obtain ⟨sent, accepted⟩ := List.mem_filter.mp listed
      exact short payload sent accepted

theorem short_of_run_readsBack {parts : List (List (PeerEvent H))}
    (back : List.Forall₂ (ReadsBack codec header)
      (run codec filter compressed header full messages) parts) :
    (codec.encodeHeader header).length ≤ MAX_RECORD ∧
      ∀ payload ∈ messages, (accepted codec filter payload).isSome →
        payload.val.length ≤ MAX_RECORD := by
  obtain ⟨parts, stored, flat⟩ := run_stored filter full compressed messages
  have decodes : ∀ payload ∈ parts.flatten, (codec.decodeEvent payload.val).isSome := by
    rw [flat]
    exact fun payload => decodes_of_kept filter
  obtain ⟨header_short, short⟩ := Stored.short_of_readsBack_all stored decodes back
  refine ⟨header_short (by simp [run]), ?_⟩
  intro payload sent accepted
  apply short
  rw [flat]
  exact List.mem_filter.mpr ⟨sent, accepted⟩

/-- The files of a run give back what was kept, in order, just when no record is longer than a
    reader takes. -/
theorem run_readsBack_iff :
    (∃ parts : List (List (PeerEvent H)),
        parts.flatten = messages.filterMap (accepted codec filter) ∧
          List.Forall₂ (ReadsBack codec header)
            (run codec filter compressed header full messages) parts) ↔
      (codec.encodeHeader header).length ≤ MAX_RECORD ∧
        ∀ payload ∈ messages, (accepted codec filter payload).isSome →
          payload.val.length ≤ MAX_RECORD := by
  constructor
  · intro ⟨parts, _, back⟩
    exact short_of_run_readsBack filter full compressed messages back
  · intro ⟨header_short, short⟩
    exact run_readsBack filter full compressed messages header_short short

end ReadsBack

/-- The program's files, for arguments it takes, open with what it was asked to record. -/
theorem main_readsBack {args : Args} {created : UInt64} {compressedBytes : List UInt8 → Nat}
    {messages : List Payload} {files : List StoredFile}
    (ran : main codec args created compressedBytes messages = some files)
    (header_short : (codec.encodeHeader
      ⟨created, args.network, (Filter.ofArgs args).kinds⟩).length ≤ MAX_RECORD)
    (short : ∀ payload ∈ messages, payload.val.length ≤ MAX_RECORD) :
    ∃ parts : List (List (PeerEvent H)),
      parts.flatten = messages.filterMap (accepted codec (.ofArgs args)) ∧
        List.Forall₂ (ReadsBack codec ⟨created, args.network, (Filter.ofArgs args).kinds⟩)
          files parts := by
  simp only [main] at ran
  split at ran
  · cases ran
  · split at ran
    · rename_i fits
      obtain rfl := Option.some.inj ran
      exact @run_readsBack H codec _ ⟨_, fits⟩ _ _ messages header_short
        fun payload sent _ => short payload sent
    · cases ran

end Archiver

/-! ## A record that is written and refused -/

def everyKind : Filter := ⟨true, false, false, false, false, false, false, false, false⟩

/-- The archiver writes the record and the reader refuses it. -/
theorem longPing_refused : ¬ ∃ parts : List (List (PeerEvent Nat)),
    parts.flatten = [longPing].filterMap (Archiver.accepted pingCodec everyKind) ∧
      List.Forall₂ (ReadsBack pingCodec pingHeader)
        (Archiver.run pingCodec everyKind false pingHeader (fun _ _ => false) [longPing])
        parts := by
  intro ⟨parts, _, back⟩
  obtain ⟨-, short⟩ := Archiver.short_of_run_readsBack _ _ _ _ back
  have accepted : Archiver.accepted pingCodec everyKind longPing = some (pinged 0) := by
    rw [Archiver.accepted]
    exact Option.filter_eq_some_iff.mpr ⟨readPing_longPing, rfl⟩
  have claimed := short longPing List.mem_cons_self (by rw [accepted]; rfl)
  rw [longPing, List.length_append, List.length_replicate] at claimed
  exact absurd claimed (by decide)

end P2PObserver
