import P2PObserver.Addresses.PlainText
import P2PObserver.Archive.Archiver
import P2PObserver.Lib.Protobuf

/-! # Archives of pings

The records of an archive in prost's coding, as far as the header and pings go, without
compression.
-/

namespace P2PObserver

open Protobuf

/-! ## The header -/

namespace Kind

/-- The value of `EventKind`. -/
def eventKind : Kind → Nat
  | .pingRtt => 1
  | .blockAnnouncement => 2
  | .addressAnnouncement => 3
  | .connectionResult => 4
  | .handshake => 5
  | .compactBlockProbe => 6
  | .feeFilter => 7
  | .sendCmpct => 8

/-- The kind of a value, which `EVENT_KIND_UNKNOWN` has not. -/
def ofEventKind (n : Nat) : Option Kind := Kind.all.find? (·.eventKind = n)

theorem ofEventKind_eventKind (kind : Kind) : ofEventKind kind.eventKind = some kind := by
  cases kind <;> rfl

end Kind

namespace ArchiveHeader

def fields (header : ArchiveHeader) : List Field :=
  uint 1 header.created.toNat ++ string 2 header.network ++
    packed 3 (header.events.map Kind.eventKind)

def encode (header : ArchiveHeader) : List UInt8 := header.fields.flatMap Field.encode

def decode (bytes : List UInt8) : Option ArchiveHeader := do
  let fields ← Protobuf.decode bytes
  let network ← readString 2 fields
  let events ← readPacked 3 fields
  return ⟨.ofNat (readUint 1 fields), network, events.filterMap Kind.ofEventKind⟩

theorem decode_encode (header : ArchiveHeader) : decode header.encode = some header := by
  have created : readUint 1 header.fields = header.created.toNat :=
    readUint_of_values (by simp [fields])
  have network : readString 2 header.fields = some header.network :=
    readString_of_values (by simp [fields])
  have events : readPacked 3 header.fields = some (header.events.map Kind.eventKind) :=
    readPacked_of_values (by simp [fields])
  have kinds : (header.events.map Kind.eventKind).filterMap Kind.ofEventKind = header.events := by
    rw [List.filterMap_map]
    exact (List.filterMap_congr fun kind _ => kind.ofEventKind_eventKind).trans
      List.filterMap_some
  simp [decode, encode, Protobuf.decode_encode, created, network, events, kinds]

end ArchiveHeader

/-! ## Pings -/

def readLength (bytes : List UInt8) : Option Nat := (Varint.decode bytes).map (·.1)

theorem readLength_encode (len : Nat) : readLength (Varint.encode len) = some len := by
  rw [readLength, Varint.decode_encode]
  rfl

/-- A ping, by the fields of the event and of its own message; another event counts as one of no
    kind. An address that reads as none is a failure here. -/
def readPing (bytes : List UInt8) : Option (PeerEvent Nat) := do
  let fields ← Protobuf.decode bytes
  let text ← readString 3 fields
  let peerAddr ← @PeerAddr.parse plainText text
  let userAgent ← readString 4 fields
  let ping ← Protobuf.decode (readBytes 6 fields)
  return {
    connectionId := .ofNat (readUint 1 fields)
    timestampMs := .ofNat (readUint 2 fields)
    peerAddr, userAgent
    transportVersion := if values 5 fields = [] then none else some (.ofNat (readUint 5 fields))
    droppedEvents := .ofNat (readUint 10 fields)
    instanceId := .ofNat (readUint 15 fields)
    droppedByKind := none
    event := if values 6 fields = [] then none else some (.pingRtt ⟨.ofNat (readUint 1 ping)⟩) }

/-- What the archiver and a reader agree on. -/
def pingCodec : ArchiveCodec Nat where
  encodeLengthDelimiter := Varint.encode
  decodeLengthDelimiter := readLength
  encodeHeader := ArchiveHeader.encode
  decodeHeader := ArchiveHeader.decode
  decodeEvent := readPing
  compress bytes := bytes
  decompress := some
  delimiter_varint _ fits := Varint.encode_isVarint fits
  delimiter_roundTrip len _ := readLength_encode len
  header_roundTrip := ArchiveHeader.decode_encode
  zstd_roundTrip _ := rfl

def pingHeader : pingCodec.Header := ⟨⟨1700000000, "regtest", [.pingRtt]⟩, by decide +kernel⟩

/-! ### As they are sent -/

/-- A ping of 5.6.7.8:8333 that took so many milliseconds, with fields this build does not know. -/
def pingFields (rttMs : Nat) (unknown : List (List UInt8)) : List Field :=
  string 3 "5.6.7.8:8333" ++ messages 6 [(uint 1 rttMs).flatMap Field.encode] ++
    messages 17 unknown

/-- What is read of it. -/
def pinged (rttMs : UInt64) : PeerEvent Nat :=
  ⟨0, 0, .ipv4 ⟨[5, 6, 7, 8], rfl⟩ 8333, "", none, 0, 0, none, some (.pingRtt ⟨rttMs⟩)⟩

theorem readPing_pingFields (rttMs : UInt64) (unknown : List (List UInt8)) :
    readPing ((pingFields rttMs.toNat unknown).flatMap Field.encode) = some (pinged rttMs) := by
  have text : readString 3 (pingFields rttMs.toNat unknown) = some "5.6.7.8:8333" :=
    readString_of_values (by simp [pingFields])
  have userAgent : readString 4 (pingFields rttMs.toNat unknown) = some "" :=
    readString_of_values (by simp [pingFields])
  have absent : ∀ number ∈ [1, 2, 5, 10, 15],
      readUint number (pingFields rttMs.toNat unknown) = 0 ∧
        values number (pingFields rttMs.toNat unknown) = [] := by
    simp [pingFields, readUint]
  simp only [List.forall_mem_cons] at absent
  have message : readBytes 6 (pingFields rttMs.toNat unknown) =
        (uint 1 rttMs.toNat).flatMap Field.encode ∧
      values 6 (pingFields rttMs.toNat unknown) ≠ [] := by
    simp [pingFields, readBytes]
  have rtt : readUint 1 (uint 1 rttMs.toNat) = rttMs.toNat := readUint_of_values (by simp)
  have addr : @PeerAddr.parse plainText "5.6.7.8:8333" =
      some (.ipv4 ⟨[5, 6, 7, 8], rfl⟩ 8333) := by decide +kernel
  simp [readPing, Protobuf.decode_encode, text, userAgent, addr, absent, message, rtt,
    pinged]

theorem encode_text : (string 3 "5.6.7.8:8333").flatMap Field.encode =
    [0x1a, 12, 53, 46, 54, 46, 55, 46, 56, 58, 56, 51, 51, 51] := by decide +kernel

/-- A ping that took thirty milliseconds. -/
def quickPing : Payload :=
  ⟨[0x1a, 12, 53, 46, 54, 46, 55, 46, 56, 58, 56, 51, 51, 51, 0x32, 2, 0x08, 30], by decide⟩

theorem readPing_quickPing : readPing quickPing.val = some (pinged 30) := by
  have bytes : quickPing.val = (pingFields (UInt64.toNat 30) []).flatMap Field.encode := by
    decide +kernel
  rw [bytes, readPing_pingFields]

/-- One that took forty-five. -/
def laterPing : Payload :=
  ⟨[0x1a, 12, 53, 46, 54, 46, 55, 46, 56, 58, 56, 51, 51, 51, 0x32, 2, 0x08, 45], by decide⟩

theorem readPing_laterPing : readPing laterPing.val = some (pinged 45) := by
  have bytes : laterPing.val = (pingFields (UInt64.toNat 45) []).flatMap Field.encode := by
    decide +kernel
  rw [bytes, readPing_pingFields]

/-- A ping with a field this build does not know, a byte over the reader's limit. -/
def longPing : Payload :=
  ⟨[0x1a, 12, 53, 46, 54, 46, 55, 46, 56, 58, 56, 51, 51, 51, 0x32, 0, 0x8a, 1, 0x81, 0x80, 0x80,
    0x08] ++ List.replicate 16777217 0, by
    simp only [List.length_append, List.length_replicate]
    decide⟩

theorem readPing_longPing : readPing longPing.val = some (pinged 0) := by
  have key : Varint.encode (17 * 8 + 2) = [0x8a, 1] := by decide +kernel
  have length : Varint.encode (List.replicate 16777217 (0 : UInt8)).length =
      [0x81, 0x80, 0x80, 0x08] := by
    rw [List.length_replicate]
    decide +kernel
  have message : (messages 6 [(uint 1 (UInt64.toNat 0)).flatMap Field.encode]).flatMap
      Field.encode = [0x32, 0] := by decide +kernel
  have unknown : (messages 17 [List.replicate 16777217 0]).flatMap Field.encode =
      [0x8a, 1, 0x81, 0x80, 0x80, 0x08] ++ List.replicate 16777217 0 := by
    simp only [messages, List.map_cons, List.map_nil, List.flatMap_singleton, Field.encode,
      Field.key, Value.wireType, Value.encode, key, length]
    rfl
  have bytes : longPing.val =
      (pingFields (UInt64.toNat 0) [List.replicate 16777217 0]).flatMap Field.encode := by
    rw [pingFields, List.flatMap_append, List.flatMap_append, encode_text, message, unknown]
    rfl
  rw [bytes, readPing_pingFields]

end P2PObserver
