import P2PObserver.Lib.Cursor
import P2PObserver.Protocol.Session

/-! # Reading an addrv2 the decoder refused

The lenient reader moves a cursor by hand and judges one entry after the other. It keeps exactly
the entries whose address the decoder takes, up to the first whose frame cannot be followed, and
on a payload the decoder accepts it agrees with it.
-/

namespace P2PObserver

namespace AddrCodec

variable (codec : AddrCodec)

/-! ## The reader at a cursor -/

/-- Why an entry is not read. -/
inductive Stop where
  | framing
  | panic

/-- `read_u8`. -/
def readU8 : Reader UInt8 UInt8
  | byte :: rest => some (byte, rest)
  | [] => none

/-- A payload in memory, of no more bytes than a `usize` counts. -/
structure Payload (usizeMax : Nat) where
  bytes : List UInt8
  fits : bytes.length ≤ usizeMax

section AtCursor

variable (usizeMax : Nat)

/-- `usize::try_from` a `u64`. -/
def usizeTryFrom (n : UInt64) : Option Nat := if n.toNat ≤ usizeMax then some n.toNat else none

/-- `usize::checked_add`. -/
def checkedAdd (a b : Nat) : Option Nat := if a + b ≤ usizeMax then some (a + b) else none

/-- What the code breaks off the loop for if there is none. -/
def followed {α : Type} : Option α → Except Stop α
  | some a => .ok a
  | none => .error .framing

/-- A sum that panics if it overflows. -/
def sum (a b : Nat) : Except Stop Nat :=
  match checkedAdd usizeMax a b with
  | some sum => .ok sum
  | none => .error .panic

/-- One entry of the loop, and where it leaves the cursor. -/
def readEntryAt (payload : List UInt8) (cursor : Cursor) :
    Except Stop (Option AddrV2Message × Cursor) := do
  let (time, cursor) ← followed (cursor.read payload readU32)
  let (services, cursor) ← followed (cursor.read payload codec.readCompactSize)
  let (network, cursor) ← followed (cursor.read payload readU8)
  let (len, cursor) ← followed (cursor.read payload codec.readCompactSize)
  let start := cursor.position
  let addr ← followed ((usizeTryFrom usizeMax len).bind fun len =>
    (checkedAdd usizeMax start len).bind fun stop => Cursor.range payload start stop)
  let position ← sum usizeMax start addr.length
  let (port, cursor) ← followed (Cursor.read payload readU16 ⟨position⟩)
  let raw := network :: codec.emitCompactSize len ++ addr
  return ((codec.deserializeAddrV2 raw).map fun addr =>
    { time, services, addr, port := swapBytes port }, cursor)

/-- The loop; none if it panics. -/
def readEntriesAt (payload : List UInt8) : Nat → Cursor → Option (List AddrV2Message)
  | 0, _ => some []
  | count + 1, cursor =>
      match codec.readEntryAt usizeMax payload cursor with
      | .error .framing => some []
      | .error .panic => none
      | .ok (entry, cursor) => (readEntriesAt payload count cursor).map (entry.toList ++ ·)

/-- `parse_addrv2_leniently` on a slice; none if it panics. -/
def parseAddrv2LenientlyAt (payload : Payload usizeMax) : Option (Nat × List AddrV2Message) :=
  match Cursor.read payload.bytes codec.readCompactSize ⟨0⟩ with
  | none => some (0, [])
  | some (count, cursor) =>
      let count := min ((usizeTryFrom usizeMax count).getD usizeMax) (payload.bytes.length / 9)
      (codec.readEntriesAt usizeMax payload.bytes count cursor).map (count, ·)

end AtCursor

/-! ## What the decoders are documented to do -/

/-- Compact sizes are read only as they are written, in at least a byte. -/
structure Canonical : Prop where
  written : ∀ bytes n rest, codec.readCompactSize bytes = some (n, rest) →
    bytes = codec.emitCompactSize n ++ rest
  nonempty : ∀ n, codec.emitCompactSize n ≠ []

/-- The decoders of the strict path. -/
structure Strict where
  /-- `AddrV2::consensus_decode`. -/
  decodeAddrV2 : Reader UInt8 AddrV2
  /-- `AddrV2Message::consensus_decode`. -/
  decodeMessage : Reader UInt8 AddrV2Message
  /-- `deserialize` of an addrv2 payload. -/
  deserialize : List UInt8 → Option (List AddrV2Message)

/-- Messages read one after the other, with nothing left. -/
def Strict.ReadsAll (strict : Strict) : List AddrV2Message → List UInt8 → Prop
  | [], bytes => bytes = []
  | message :: messages, bytes =>
      ∃ rest, strict.decodeMessage bytes = some (message, rest) ∧ strict.ReadsAll messages rest

/-- What BIP155 has them read: a count and so many entries; an entry's time, services, address
    and port; an address as a network id and a length with so many bytes, which alone decide
    whether it is one. -/
structure Strict.Documented (strict : Strict) : Prop where
  payload : ∀ bytes messages, strict.deserialize bytes = some messages →
    ∃ count rest, codec.readCompactSize bytes = some (count, rest) ∧
      count.toNat = messages.length ∧ strict.ReadsAll messages rest
  message : ∀ bytes message rest, strict.decodeMessage bytes = some (message, rest) →
    ∃ r₁ r₂ r₃ port, readU32 bytes = some (message.time, r₁) ∧
      codec.readCompactSize r₁ = some (message.services, r₂) ∧
      strict.decodeAddrV2 r₂ = some (message.addr, r₃) ∧
      readU16 r₃ = some (port, rest) ∧ message.port = swapBytes port
  addr : ∀ bytes addr rest, strict.decodeAddrV2 bytes = some (addr, rest) →
    ∃ network r len raw, bytes = network :: r ∧
      codec.readCompactSize r = some (len, raw ++ rest) ∧ raw.length = len.toNat
  alone : ∀ used addr rest, strict.decodeAddrV2 (used ++ rest) = some (addr, rest) →
    codec.deserializeAddrV2 used = some addr

/-! ## Frames -/

/-- An entry as it is framed. -/
structure Frame where
  time : UInt32
  services : UInt64
  network : UInt8
  len : UInt64
  address : List UInt8
  port : UInt16

/-- The entry of a frame, if the decoder takes its address. -/
def Frame.entry (frame : Frame) : Option AddrV2Message :=
  (codec.deserializeAddrV2
    (frame.network :: codec.emitCompactSize frame.len ++ frame.address)).map fun addr =>
      { time := frame.time, services := frame.services, addr, port := swapBytes frame.port }

/-- Bytes that begin with a frame. -/
def Framed (bytes : List UInt8) (frame : Frame) (rest : List UInt8) : Prop :=
  ∃ r₁ r₂ r₃, readU32 bytes = some (frame.time, r₁) ∧
    codec.readCompactSize r₁ = some (frame.services, frame.network :: r₂) ∧
    codec.readCompactSize r₂ = some (frame.len, frame.address ++ r₃) ∧
    frame.address.length = frame.len.toNat ∧ readU16 r₃ = some (frame.port, rest)

/-- So many frames, or those before the first that cannot be followed. -/
inductive Frames : Nat → List UInt8 → List Frame → Prop where
  | done (bytes : List UInt8) : Frames 0 bytes []
  | stuck {count : Nat} {bytes : List UInt8} (stuck : ∀ frame rest, ¬ codec.Framed bytes frame rest) :
      Frames (count + 1) bytes []
  | next {count : Nat} {bytes rest : List UInt8} {frame : Frame} {frames : List Frame} :
      codec.Framed bytes frame rest → Frames count rest frames →
        Frames (count + 1) bytes (frame :: frames)

/-- The entries a payload's frames give, however many it declares. -/
inductive Keeps (payload : List UInt8) : Nat × List AddrV2Message → Prop where
  | uncounted : codec.readCompactSize payload = none → Keeps payload (0, [])
  | counted {count : UInt64} {rest : List UInt8} {frames : List Frame} :
      codec.readCompactSize payload = some (count, rest) →
      codec.Frames count.toNat rest frames →
      Keeps payload (min count.toNat (payload.length / 9), frames.filterMap (Frame.entry codec))

variable {codec}

/-! ## Following frames -/

theorem leaves_readU8 : Reader.Leaves readU8 := by
  intro bytes byte rest reads
  unfold readU8 at reads
  split at reads
  · cases reads
    exact List.suffix_cons ..
  · cases reads

theorem readU16_some {bytes rest : List UInt8} {n : UInt16}
    (reads : readU16 bytes = some (n, rest)) : ∃ a b, bytes = a :: b :: rest := by
  unfold readU16 at reads
  split at reads
  · cases reads
    exact ⟨_, _, rfl⟩
  · cases reads

theorem leaves_readU16 : Reader.Leaves readU16 := by
  intro bytes n rest reads
  obtain ⟨a, b, rfl⟩ := readU16_some reads
  exact (List.suffix_cons b rest).trans (List.suffix_cons ..)

theorem readU32_some {bytes rest : List UInt8} {n : UInt32}
    (reads : readU32 bytes = some (n, rest)) : ∃ a b c d, bytes = a :: b :: c :: d :: rest := by
  unfold readU32 at reads
  split at reads
  · cases reads
    exact ⟨_, _, _, _, rfl⟩
  · cases reads

theorem leaves_readU32 : Reader.Leaves readU32 := by
  intro bytes n rest reads
  obtain ⟨a, b, c, d, rfl⟩ := readU32_some reads
  exact List.suffix_append [a, b, c, d] rest

theorem Canonical.leaves (canonical : codec.Canonical) : Reader.Leaves codec.readCompactSize := by
  intro bytes n rest reads
  rw [canonical.written bytes n rest reads]
  exact List.suffix_append ..

theorem Canonical.shorter (canonical : codec.Canonical) {bytes rest : List UInt8} {n : UInt64}
    (reads : codec.readCompactSize bytes = some (n, rest)) : rest.length < bytes.length := by
  have written := List.length_pos_of_ne_nil (canonical.nonempty n)
  rw [canonical.written bytes n rest reads, List.length_append]
  omega

/-- An entry is read exactly where there is a frame. -/
theorem readEntry_iff {bytes rest : List UInt8} {entry : Option AddrV2Message} :
    codec.readEntry bytes = some (entry, rest) ↔
      ∃ frame, codec.Framed bytes frame rest ∧ entry = frame.entry codec := by
  constructor
  · intro reads
    unfold readEntry at reads
    simp only [Option.bind_eq_bind, Option.bind_eq_some_iff, Option.pure_def] at reads
    obtain ⟨⟨time, r₁⟩, hasTime, ⟨services, r₂⟩, hasServices, ⟨network, r₃⟩, hasNetwork,
      ⟨len, r₄⟩, hasLen, _, long, ⟨port, r₅⟩, hasPort, same⟩ := reads
    dsimp only at *
    cases same
    have fits : len.toNat ≤ r₄.length := by
      by_contra short
      rw [guard, if_neg short] at long
      cases long
    cases r₂ with
    | nil => cases hasNetwork
    | cons head tail =>
        cases hasNetwork
        refine ⟨⟨time, services, network, len, r₄.take len.toNat, port⟩,
          ⟨r₁, tail, r₄.drop len.toNat, hasTime, hasServices, ?_, ?_, hasPort⟩, rfl⟩
        · rw [List.take_append_drop]
          exact hasLen
        · exact List.length_take_of_le fits
  · intro framed
    obtain ⟨frame, ⟨r₁, r₂, r₃, hasTime, hasServices, hasLen, long, hasPort⟩, rfl⟩ := framed
    have fits : frame.address.length ≤ (frame.address ++ r₃).length := by
      rw [List.length_append]
      exact Nat.le_add_right ..
    simp only [readEntry, Option.bind_eq_bind, hasTime, hasServices, hasLen, Option.bind_some,
      List.head?_cons, List.tail_cons, Option.map_some, ← long, List.take_left, List.drop_left,
      hasPort, guard, if_pos fits]
    rfl

/-- A frame takes nine bytes beside its address. -/
theorem Framed.span (canonical : codec.Canonical) {bytes rest : List UInt8} {frame : Frame}
    (framed : codec.Framed bytes frame rest) :
    rest.length + (9 + frame.address.length) ≤ bytes.length := by
  obtain ⟨r₁, r₂, r₃, hasTime, hasServices, hasLen, _, hasPort⟩ := framed
  obtain ⟨_, _, _, _, rfl⟩ := readU32_some hasTime
  obtain ⟨_, _, rfl⟩ := readU16_some hasPort
  have services := canonical.shorter hasServices
  have len := canonical.shorter hasLen
  simp only [List.length_append, List.length_cons] at services len ⊢
  omega

theorem Framed.longer (canonical : codec.Canonical) {bytes rest : List UInt8} {frame : Frame}
    (framed : codec.Framed bytes frame rest) : rest.length + 9 ≤ bytes.length := by
  have span := framed.span canonical
  omega

theorem Frames.length_le {count : Nat} {bytes : List UInt8} {frames : List Frame}
    (read : codec.Frames count bytes frames) : frames.length ≤ count := by
  induction read with
  | done => exact Nat.le_refl 0
  | stuck => exact Nat.zero_le _
  | next _ _ ih => exact Nat.succ_le_succ ih

theorem Frames.fit (canonical : codec.Canonical) {count : Nat} {bytes : List UInt8}
    {frames : List Frame} (read : codec.Frames count bytes frames) :
    9 * frames.length ≤ bytes.length := by
  induction read with
  | done => exact Nat.zero_le _
  | stuck => exact Nat.zero_le _
  | next framed _ ih =>
      have longer := framed.longer canonical
      rw [List.length_cons]
      omega

/-- Where no more frames fit, it does not matter how many more are declared. -/
theorem Frames.uncapped (canonical : codec.Canonical) {cap count : Nat} {bytes : List UInt8}
    {frames : List Frame} (read : codec.Frames cap bytes frames) (le : cap ≤ count)
    (short : bytes.length < 9 * (cap + 1)) : codec.Frames count bytes frames := by
  induction read generalizing count with
  | done bytes =>
      cases count with
      | zero => exact .done bytes
      | succ count =>
          refine .stuck fun frame rest framed => ?_
          have longer := framed.longer canonical
          omega
  | stuck stuck =>
      cases count with
      | zero => cases le
      | succ count => exact .stuck stuck
  | next framed _ ih =>
      cases count with
      | zero => cases le
      | succ count =>
          have longer := framed.longer canonical
          exact .next framed (ih (Nat.le_of_succ_le_succ le) (by omega))

/-- The loop reads the frames' entries. -/
theorem readEntries_frames (codec : AddrCodec) (count : Nat) (bytes : List UInt8) :
    ∃ frames, codec.Frames count bytes frames ∧
      codec.readEntries count bytes = frames.filterMap (Frame.entry codec) := by
  induction count generalizing bytes with
  | zero => exact ⟨[], .done bytes, rfl⟩
  | succ count ih =>
      unfold readEntries
      cases reads : codec.readEntry bytes with
      | none =>
          refine ⟨[], .stuck fun frame rest framed => ?_, rfl⟩
          rw [readEntry_iff.mpr ⟨frame, framed, rfl⟩] at reads
          cases reads
      | some read =>
          obtain ⟨frame, framed, entry⟩ := readEntry_iff.mp reads
          obtain ⟨frames, rest, same⟩ := ih read.2
          refine ⟨frame :: frames, .next framed rest, ?_⟩
          dsimp only
          rw [same, entry, List.filterMap_cons]
          cases frame.entry codec <;> rfl

theorem parse_keeps (canonical : codec.Canonical) (payload : List UInt8) :
    codec.Keeps payload (codec.parseAddrv2Leniently payload) := by
  unfold parseAddrv2Leniently
  cases reads : codec.readCompactSize payload with
  | none => exact .uncounted reads
  | some read =>
      obtain ⟨count, rest⟩ := read
      obtain ⟨frames, capped, same⟩ :=
        readEntries_frames codec (min count.toNat (payload.length / 9)) rest
      dsimp only
      rw [same]
      apply Keeps.counted reads
      by_cases fits : count.toNat ≤ payload.length / 9
      · rwa [Nat.min_eq_left fits] at capped
      · have shorter := canonical.shorter reads
        rw [Nat.min_eq_right (by omega)] at capped
        exact capped.uncapped canonical (by omega) (by omega)

theorem Keeps.bounds (canonical : codec.Canonical) {payload : List UInt8}
    {result : Nat × List AddrV2Message} (keeps : codec.Keeps payload result) :
    result.1 ≤ payload.length / 9 ∧ result.2.length ≤ result.1 := by
  cases keeps with
  | uncounted => exact ⟨Nat.zero_le _, Nat.le_refl 0⟩
  | counted reads frames =>
      refine ⟨Nat.min_le_right .., (List.length_filterMap_le ..).trans ?_⟩
      have shorter := canonical.shorter reads
      have fit := frames.fit canonical
      exact Nat.le_min.mpr ⟨frames.length_le, by omega⟩

/-! ## At the cursor -/

/-- Reading at the cursor, and from the front of what remains. -/
inductive Agrees {α : Type} (payload : List UInt8) :
    Option (α × List UInt8) → Except Stop (α × Cursor) → Prop where
  | stuck : Agrees payload none (.error .framing)
  | read (a : α) {cursor : Cursor} (inside : cursor.position ≤ payload.length) :
      Agrees payload (some (a, cursor.remaining payload)) (.ok (a, cursor))

variable {payload : List UInt8} {α β : Type}

theorem agrees_read {reader : Reader UInt8 α} (leaves : reader.Leaves) {cursor : Cursor}
    (inside : cursor.position ≤ payload.length) :
    Agrees payload (reader (cursor.remaining payload)) (followed (cursor.read payload reader)) := by
  cases reads : reader (cursor.remaining payload) with
  | none =>
      rw [Cursor.read_none reads]
      exact .stuck
  | some read =>
      obtain ⟨cursor', moved, rest, inside'⟩ := Cursor.read_some leaves inside reads
      rw [moved]
      obtain ⟨a, _⟩ := read
      subst rest
      exact .read a inside'

theorem Agrees.bind {x : Option (α × List UInt8)} {y : Except Stop (α × Cursor)}
    {f : α × List UInt8 → Option (β × List UInt8)} {g : α × Cursor → Except Stop (β × Cursor)}
    (agrees : Agrees payload x y)
    (rest : ∀ a (cursor : Cursor), cursor.position ≤ payload.length →
      Agrees payload (f (a, cursor.remaining payload)) (g (a, cursor))) :
    Agrees payload (x >>= f) (y >>= g) := by
  cases agrees with
  | stuck => exact .stuck
  | read a inside => exact rest a _ inside

variable {usizeMax : Nat}

/-- An entry is read at the cursor as it is from the front of what remains. -/
theorem agrees_readEntryAt (canonical : codec.Canonical) (fits : payload.length ≤ usizeMax)
    {cursor : Cursor} (inside : cursor.position ≤ payload.length) :
    Agrees payload (codec.readEntry (cursor.remaining payload))
      (codec.readEntryAt usizeMax payload cursor) := by
  unfold readEntry readEntryAt
  refine (agrees_read leaves_readU32 inside).bind fun time cursor inside => ?_
  refine (agrees_read canonical.leaves inside).bind fun services cursor inside => ?_
  have head : (cursor.remaining payload).head?.map (·, (cursor.remaining payload).tail) =
      readU8 (cursor.remaining payload) := by
    cases cursor.remaining payload <;> rfl
  dsimp only
  rw [head]
  refine (agrees_read leaves_readU8 inside).bind fun network cursor inside => ?_
  refine (agrees_read canonical.leaves inside).bind fun len cursor inside => ?_
  dsimp only
  have remains : (cursor.remaining payload).length = payload.length - cursor.position :=
    List.length_drop ..
  by_cases long : len.toNat ≤ (cursor.remaining payload).length
  · have usize : usizeTryFrom usizeMax len = some len.toNat := if_pos (by omega)
    have stop : checkedAdd usizeMax cursor.position len.toNat =
        some (cursor.position + len.toNat) := if_pos (by omega)
    have range := Cursor.range_eq cursor inside len.toNat
    rw [if_pos long] at range
    have moved : sum usizeMax cursor.position ((cursor.remaining payload).take len.toNat).length =
        .ok (cursor.position + len.toNat) := by
      rw [List.length_take_of_le long, sum, stop]
    have rest : (cursor.remaining payload).drop len.toNat =
        Cursor.remaining payload ⟨cursor.position + len.toNat⟩ := List.drop_drop ..
    simp only [guard, if_pos long, usize, stop, range, moved, Option.bind_some, rest, followed,
      bind, Except.bind, pure]
    have further : cursor.position + len.toNat ≤ payload.length := by omega
    exact (agrees_read leaves_readU16 further).bind fun port cursor inside => .read _ inside
  · have stuck : (usizeTryFrom usizeMax len).bind (fun len =>
        (checkedAdd usizeMax cursor.position len).bind fun stop =>
          Cursor.range payload cursor.position stop) = none := by
      have range := Cursor.range_eq cursor inside len.toNat
      rw [if_neg long] at range
      unfold usizeTryFrom checkedAdd
      split
      · rw [Option.bind_some]
        split
        · exact range
        · rfl
      · rfl
    simp only [guard, if_neg long, stuck, followed, bind, Except.bind]
    exact .stuck

theorem readEntriesAt_eq (canonical : codec.Canonical) (fits : payload.length ≤ usizeMax)
    (count : Nat) {cursor : Cursor} (inside : cursor.position ≤ payload.length) :
    codec.readEntriesAt usizeMax payload count cursor =
      some (codec.readEntries count (cursor.remaining payload)) := by
  induction count generalizing cursor with
  | zero => rfl
  | succ count ih =>
      unfold readEntriesAt readEntries
      have agrees := agrees_readEntryAt canonical fits inside
      generalize codec.readEntry (cursor.remaining payload) = entry at agrees ⊢
      generalize codec.readEntryAt usizeMax payload cursor = entryAt at agrees ⊢
      cases agrees with
      | stuck => rfl
      | read entry inside =>
          dsimp only
          rw [ih inside, Option.map_some]

/-- The reader on a slice never panics, and reads what the reader from the front does. -/
theorem parseAddrv2LenientlyAt_eq (canonical : codec.Canonical) (payload : Payload usizeMax) :
    codec.parseAddrv2LenientlyAt usizeMax payload =
      some (codec.parseAddrv2Leniently payload.bytes) := by
  have all : payload.bytes = Cursor.remaining payload.bytes ⟨0⟩ := rfl
  have start : (⟨0⟩ : Cursor).position ≤ payload.bytes.length := Nat.zero_le _
  unfold parseAddrv2LenientlyAt parseAddrv2Leniently
  cases reads : codec.readCompactSize payload.bytes with
  | none =>
      rw [all] at reads
      rw [Cursor.read_none reads]
  | some read =>
      obtain ⟨count, rest⟩ := read
      rw [all] at reads
      obtain ⟨cursor, moved, rfl, inside⟩ := Cursor.read_some canonical.leaves start reads
      rw [moved]
      -- A count past `usize::MAX` is capped by the length all the same.
      have capped : min ((usizeTryFrom usizeMax count).getD usizeMax) (payload.bytes.length / 9) =
          min count.toNat (payload.bytes.length / 9) := by
        have fits := payload.fits
        unfold usizeTryFrom
        split
        · rfl
        · rw [Option.getD_none]
          omega
      dsimp only
      rw [capped, readEntriesAt_eq canonical payload.fits _ inside, Option.map_some]

/-! ## Against the strict decoder -/

section Strict

variable {strict : Strict}

/-- What the strict decoder reads as a message, the lenient reader reads as an entry. -/
theorem Strict.Documented.readEntry (documented : strict.Documented codec)
    (canonical : codec.Canonical) {bytes rest : List UInt8} {message : AddrV2Message}
    (decodes : strict.decodeMessage bytes = some (message, rest)) :
    codec.readEntry bytes = some (some message, rest) := by
  obtain ⟨r₁, r₂, r₃, port, hasTime, hasServices, hasAddr, hasPort, swapped⟩ :=
    documented.message bytes message rest decodes
  obtain ⟨network, r, len, raw, rfl, hasLen, long⟩ := documented.addr r₂ message.addr r₃ hasAddr
  have written := canonical.written r len (raw ++ r₃) hasLen
  have alone : codec.deserializeAddrV2 (network :: codec.emitCompactSize len ++ raw) =
      some message.addr := by
    apply documented.alone _ _ r₃
    rw [List.cons_append, List.cons_append, List.append_assoc, ← written]
    exact hasAddr
  refine readEntry_iff.mpr ⟨⟨message.time, message.services, network, len, raw, port⟩,
    ⟨r₁, r, r₃, hasTime, hasServices, hasLen, long, hasPort⟩, ?_⟩
  unfold Frame.entry
  rw [alone, Option.map_some, ← swapped]

theorem Strict.Documented.readEntries (documented : strict.Documented codec)
    (canonical : codec.Canonical) {messages : List AddrV2Message} {bytes : List UInt8}
    (reads : strict.ReadsAll messages bytes) :
    codec.readEntries messages.length bytes = messages ∧ 9 * messages.length ≤ bytes.length := by
  induction messages generalizing bytes with
  | nil => exact ⟨rfl, Nat.zero_le _⟩
  | cons message messages ih =>
      obtain ⟨rest, decodes, reads⟩ := reads
      obtain ⟨same, fit⟩ := ih reads
      have entry := documented.readEntry canonical decodes
      obtain ⟨frame, framed, _⟩ := readEntry_iff.mp entry
      have longer := framed.longer canonical
      rw [List.length_cons]
      refine ⟨?_, by omega⟩
      rw [AddrCodec.readEntries, entry]
      dsimp only
      rw [same]
      rfl

theorem Strict.Documented.parse (documented : strict.Documented codec)
    (canonical : codec.Canonical) {payload : List UInt8} {messages : List AddrV2Message}
    (accepts : strict.deserialize payload = some messages) :
    (codec.readCompactSize payload).map (·.1.toNat) = some messages.length ∧
      codec.parseAddrv2Leniently payload = (messages.length, messages) := by
  obtain ⟨count, rest, reads, declared, all⟩ := documented.payload payload messages accepts
  obtain ⟨same, fit⟩ := documented.readEntries canonical all
  have shorter := canonical.shorter reads
  unfold parseAddrv2Leniently
  rw [reads, Option.map_some]
  dsimp only
  rw [Nat.min_eq_left (by omega), declared, same]
  exact ⟨rfl, rfl⟩

end Strict

end AddrCodec

/-- On a payload the decoder accepts the lenient reader returns its count and its entries; on any
    payload it ends without a panic, with no more than fit and exactly the entries of the frames
    that can be followed whose address the decoder takes. -/
theorem parseAddrv2Leniently_agrees (codec : AddrCodec) (canonical : codec.Canonical)
    (strict : AddrCodec.Strict) (documented : strict.Documented codec) (usizeMax : Nat)
    (payload : AddrCodec.Payload usizeMax) :
    (∀ messages, strict.deserialize payload.bytes = some messages →
      (codec.readCompactSize payload.bytes).map (·.1.toNat) = some messages.length ∧
        codec.parseAddrv2LenientlyAt usizeMax payload = some (messages.length, messages)) ∧
      ∃ result, codec.parseAddrv2LenientlyAt usizeMax payload = some result ∧
        result.1 ≤ payload.bytes.length / 9 ∧ result.2.length ≤ result.1 ∧
          codec.Keeps payload.bytes result := by
  have same := AddrCodec.parseAddrv2LenientlyAt_eq canonical payload
  constructor
  · intro messages accepts
    obtain ⟨declared, parsed⟩ := documented.parse canonical accepts
    rw [same, parsed]
    exact ⟨declared, rfl⟩
  · have keeps := AddrCodec.parse_keeps canonical payload.bytes
    obtain ⟨count, entries⟩ := keeps.bounds canonical
    exact ⟨_, same, count, entries, keeps⟩

namespace Greeting

def decodeAddrV2 : Reader UInt8 AddrV2
  | 1 :: 4 :: rest =>
      if long : 4 ≤ rest.length then
        some (.ipv4 ⟨rest.take 4, List.length_take_of_le long⟩, rest.drop 4)
      else none
  | _ => none

/-- The wire format, as far as the payload below goes: small numbers and IPv4 addresses. -/
def codec : AddrCodec where
  socketAddr _ := none
  readCompactSize
    | byte :: rest => if byte < 0xfd then some (byte.toUInt64, rest) else none
    | [] => none
  emitCompactSize n := [n.toUInt8]
  deserializeAddrV2 bytes := ((decodeAddrV2 bytes).filter (·.2.isEmpty)).map (·.1)

def decodeMessage : Reader UInt8 AddrV2Message := fun bytes => do
  let (time, rest) ← AddrCodec.readU32 bytes
  let (services, rest) ← codec.readCompactSize rest
  let (addr, rest) ← decodeAddrV2 rest
  let (port, rest) ← AddrCodec.readU16 rest
  return ({ time, services, addr, port := swapBytes port }, rest)

def decodeMessages : Nat → List UInt8 → Option (List AddrV2Message)
  | 0, [] => some []
  | 0, _ :: _ => none
  | count + 1, bytes => do
      let (message, rest) ← decodeMessage bytes
      let messages ← decodeMessages count rest
      return message :: messages

def strict : AddrCodec.Strict where
  decodeAddrV2 := decodeAddrV2
  decodeMessage := decodeMessage
  deserialize bytes := do
    let (count, rest) ← codec.readCompactSize bytes
    decodeMessages count.toNat rest

theorem decodeAddrV2_some {bytes rest : List UInt8} {addr : AddrV2}
    (decodes : decodeAddrV2 bytes = some (addr, rest)) :
    ∃ raw, bytes = 1 :: 4 :: (raw ++ rest) ∧ raw.length = 4 ∧
      decodeAddrV2 (1 :: 4 :: raw) = some (addr, []) := by
  unfold decodeAddrV2 at decodes
  split at decodes
  · rename_i more
    split at decodes
    · rename_i long
      cases decodes
      have exact : (more.take 4).length = 4 := List.length_take_of_le long
      refine ⟨more.take 4, by rw [List.take_append_drop], exact, ?_⟩
      unfold decodeAddrV2
      simp only [exact, Nat.le_refl, dite_true, List.take_take, Nat.min_self, List.drop_eq_nil_of_le]
    · cases decodes
  · cases decodes

theorem canonical : codec.Canonical where
  written := by
    intro bytes n rest reads
    cases bytes with
    | nil => cases reads
    | cons byte tail =>
        by_cases small : byte < 0xfd
        · have same : (byte.toUInt64, tail) = (n, rest) := by simpa [codec, small] using reads
          cases same
          simp [codec]
        · simp [codec, small] at reads
  nonempty _ := List.cons_ne_nil _ _

theorem decodeMessages_readsAll {count : Nat} {bytes : List UInt8} {messages : List AddrV2Message}
    (decodes : decodeMessages count bytes = some messages) :
    count = messages.length ∧ strict.ReadsAll messages bytes := by
  induction count generalizing bytes messages with
  | zero =>
      cases bytes with
      | nil =>
          cases decodes
          exact ⟨rfl, rfl⟩
      | cons => cases decodes
  | succ count ih =>
      simp only [decodeMessages, Option.bind_eq_bind, Option.bind_eq_some_iff,
        Option.pure_def, Option.some.injEq] at decodes
      obtain ⟨⟨message, rest⟩, reads, messages, later, rfl⟩ := decodes
      obtain ⟨counted, all⟩ := ih later
      exact ⟨congrArg Nat.succ counted, rest, reads, all⟩

theorem documented : strict.Documented codec where
  payload := by
    intro bytes messages accepts
    simp only [strict, Option.bind_eq_bind, Option.bind_eq_some_iff] at accepts
    obtain ⟨⟨count, rest⟩, reads, decodes⟩ := accepts
    obtain ⟨counted, all⟩ := decodeMessages_readsAll decodes
    exact ⟨count, rest, reads, counted, all⟩
  message := by
    intro bytes message rest decodes
    simp only [strict, decodeMessage, Option.bind_eq_bind, Option.bind_eq_some_iff,
      Option.pure_def, Option.some.injEq, Prod.mk.injEq] at decodes
    obtain ⟨⟨time, r₁⟩, hasTime, ⟨services, r₂⟩, hasServices, ⟨addr, r₃⟩, hasAddr, ⟨port, r₄⟩,
      hasPort, rfl, rfl⟩ := decodes
    exact ⟨r₁, r₂, r₃, port, hasTime, hasServices, hasAddr, hasPort, rfl⟩
  addr := by
    intro bytes addr rest decodes
    obtain ⟨raw, rfl, long, -⟩ := decodeAddrV2_some decodes
    exact ⟨1, _, 4, raw, rfl, rfl, long⟩
  alone := by
    intro used addr rest decodes
    obtain ⟨raw, bytes, -, found⟩ := decodeAddrV2_some decodes
    have same : used ++ rest = 1 :: 4 :: raw ++ rest := bytes
    rw [List.append_cancel_right same]
    simp only [codec, found, Option.filter, List.isEmpty_nil, if_true, Option.map_some]

/-- Two addresses. -/
def payload : AddrCodec.Payload (2 ^ 64 - 1) where
  bytes := [2,
    0, 0, 0, 0, 1, 1, 4, 10, 0, 0, 1, 0x20, 0x8d,
    0, 0, 0, 0, 9, 1, 4, 10, 0, 0, 2, 0x20, 0x8d]
  fits := by decide

def messages : List AddrV2Message :=
  [{ time := 0, services := 1, addr := .ipv4 ⟨[10, 0, 0, 1], rfl⟩, port := 8333 },
    { time := 0, services := 9, addr := .ipv4 ⟨[10, 0, 0, 2], rfl⟩, port := 8333 }]

end Greeting

/-- Two addresses the decoder accepts. -/
theorem parseAddrv2Leniently_agrees_greeting :
    Greeting.codec.parseAddrv2LenientlyAt (2 ^ 64 - 1) Greeting.payload =
      some (2, Greeting.messages) :=
  ((parseAddrv2Leniently_agrees Greeting.codec Greeting.canonical Greeting.strict
    Greeting.documented _ Greeting.payload).1 Greeting.messages rfl).2

end P2PObserver
