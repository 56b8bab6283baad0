import Mathlib.Algebra.Ring.Nat
import P2PObserver.Events
import P2PObserver.Lib.Varint

/-! # The archiver

From the payloads of a subscription to a sequence of files: a header, then one
length-delimited record a payload. The codings are prost's and zstd's and come as an
`ArchiveCodec` with what the archive relies on.
-/

namespace P2PObserver

/-- What an archive was asked to record. -/
structure ArchiveHeader where
  /-- When the file was opened, in unix seconds. -/
  created : UInt64
  network : String
  events : List Kind
  deriving DecidableEq, Repr

/-- A byte buffer, whose length is a 64-bit number. -/
abbrev Payload := { bytes : List UInt8 // bytes.length < 2 ^ 64 }

/-- prost's and zstd's codings. -/
structure ArchiveCodec (H : Type) where
  encodeLengthDelimiter : Nat → List UInt8
  decodeLengthDelimiter : List UInt8 → Option Nat
  encodeHeader : ArchiveHeader → List UInt8
  decodeHeader : List UInt8 → Option ArchiveHeader
  /-- `PeerEvent::decode`. -/
  decodeEvent : List UInt8 → Option (PeerEvent H)
  compress : List UInt8 → List UInt8
  decompress : List UInt8 → Option (List UInt8)
  delimiter_varint : ∀ len, len < 2 ^ 64 → IsVarint (encodeLengthDelimiter len)
  delimiter_roundTrip : ∀ len, len < 2 ^ 64 →
    decodeLengthDelimiter (encodeLengthDelimiter len) = some len
  header_roundTrip : ∀ header, decodeHeader (encodeHeader header) = some header
  zstd_roundTrip : ∀ bytes, decompress (compress bytes) = some bytes

/-- A header whose encoding fits a buffer. -/
abbrev ArchiveCodec.Header {H : Type} (codec : ArchiveCodec H) :=
  { header : ArchiveHeader // (codec.encodeHeader header).length < 2 ^ 64 }

/-- What the header's record holds. -/
def ArchiveCodec.headerPayload {H : Type} (codec : ArchiveCodec H) (header : codec.Header) :
    Payload :=
  ⟨codec.encodeHeader header, header.property⟩

/-- The arguments that choose what is archived and how. -/
structure Args where
  network : String
  maxFileSize : Nat
  compressionLevel : Nat
  pingRtt : Bool
  blockAnnouncements : Bool
  addressAnnouncements : Bool
  connectionResults : Bool
  handshakes : Bool
  compactBlockProbes : Bool
  feeFilters : Bool
  sendCmpcts : Bool

/-- Whether no event filter was given. -/
def Args.archivesEverything (args : Args) : Bool :=
  !(args.pingRtt || args.blockAnnouncements || args.addressAnnouncements ||
    args.connectionResults || args.handshakes || args.compactBlockProbes || args.feeFilters ||
    args.sendCmpcts)

/-- Which events get written to disk. -/
structure Filter where
  all : Bool
  pingRtt : Bool
  blockAnnouncement : Bool
  addressAnnouncement : Bool
  connectionResult : Bool
  handshake : Bool
  compactBlockProbe : Bool
  feeFilter : Bool
  sendCmpct : Bool

namespace Filter

def ofArgs (args : Args) : Filter where
  all := args.archivesEverything
  pingRtt := args.pingRtt
  blockAnnouncement := args.blockAnnouncements
  addressAnnouncement := args.addressAnnouncements
  connectionResult := args.connectionResults
  handshake := args.handshakes
  compactBlockProbe := args.compactBlockProbes
  feeFilter := args.feeFilters
  sendCmpct := args.sendCmpcts

def allows (filter : Filter) : Kind → Bool
  | .pingRtt => filter.pingRtt
  | .blockAnnouncement => filter.blockAnnouncement
  | .addressAnnouncement => filter.addressAnnouncement
  | .connectionResult => filter.connectionResult
  | .handshake => filter.handshake
  | .compactBlockProbe => filter.compactBlockProbe
  | .feeFilter => filter.feeFilter
  | .sendCmpct => filter.sendCmpct

/-- An event of no kind is archived only when nothing in particular was asked for. -/
def accepts {H : Type} (filter : Filter) (event : PeerEvent H) : Bool :=
  filter.all ||
    match event.kind with
    | some kind => filter.allows kind
    | none => false

/-- The kinds to record in the header, always written out in full. -/
def kinds (filter : Filter) : List Kind :=
  Kind.all.filter fun kind => filter.all || filter.allows kind

end Filter

variable {H : Type} (codec : ArchiveCodec H)

/-- The archive file being written. -/
structure ArchiveFile where
  /-- Whether the writer is a zstd encoder. -/
  compressed : Bool
  /-- What the writer was handed. -/
  written : List UInt8
  bytesWritten : Nat

/-- A finished file; its name ends in `.zst` when it is compressed. -/
structure StoredFile where
  zst : Bool
  contents : List UInt8

namespace ArchiveFile

/-- A record: its length and its bytes. -/
def record (payload : Payload) : List UInt8 :=
  codec.encodeLengthDelimiter payload.val.length ++ payload.val

def create (compressed : Bool) (header : codec.Header) : ArchiveFile where
  compressed := compressed
  written := record codec (codec.headerPayload header)
  bytesWritten := (record codec (codec.headerPayload header)).length

/-- Appends one length-delimited record. -/
def writeRecord (file : ArchiveFile) (payload : Payload) : ArchiveFile :=
  { file with
    written := file.written ++ record codec payload
    bytesWritten := file.bytesWritten + (record codec payload).length }

/-- Whether the file has reached its size limit. `compressedBytes` is what a zstd encoder has
    put on disk of what it was handed. -/
def needsRotation (compressedBytes : List UInt8 → Nat) (maxFileSize : Nat)
    (file : ArchiveFile) : Bool :=
  maxFileSize ≤ if file.compressed then compressedBytes file.written else file.bytesWritten

def finalize (file : ArchiveFile) : StoredFile where
  zst := file.compressed
  contents := if file.compressed then codec.compress file.written else file.written

end ArchiveFile

/-- The archiver between two messages. -/
structure Archiver where
  file : ArchiveFile
  /-- The files closed before it, oldest first. -/
  closed : List StoredFile
  /-- Records written to all of them. -/
  events : Nat

namespace Archiver

def new (compressed : Bool) (header : codec.Header) : Archiver where
  file := .create codec compressed header
  closed := []
  events := 0

/-- The event of a payload the archiver keeps. -/
def accepted (filter : Filter) (payload : Payload) : Option (PeerEvent H) :=
  (codec.decodeEvent payload.val).filter filter.accepts

/-- Takes one message of the subscription. `full` decides whether the file is to be rotated
    after the so-manieth record. -/
def step (filter : Filter) (header : codec.Header) (full : Nat → ArchiveFile → Bool)
    (s : Archiver) (payload : Payload) : Archiver :=
  match accepted codec filter payload with
  | none => s
  | some _ =>
      let file := s.file.writeRecord codec payload
      if full (s.events + 1) file then
        { file := .create codec s.file.compressed header
          closed := s.closed ++ [file.finalize codec]
          events := s.events + 1 }
      else { s with file := file, events := s.events + 1 }

/-- The files of a whole subscription, in the order they were opened. -/
def run (filter : Filter) (compressed : Bool) (header : codec.Header)
    (full : Nat → ArchiveFile → Bool) (messages : List Payload) : List StoredFile :=
  let s := messages.foldl (step codec filter header full) (new codec compressed header)
  s.closed ++ [s.file.finalize codec]

/-- What the program does with its arguments, at a header that fits a buffer. -/
def main (args : Args) (created : UInt64) (compressedBytes : List UInt8 → Nat)
    (messages : List Payload) : Option (List StoredFile) :=
  let filter := Filter.ofArgs args
  let header : ArchiveHeader := ⟨created, args.network, filter.kinds⟩
  if 22 < args.compressionLevel then none
  else if fits : (codec.encodeHeader header).length < 2 ^ 64 then
    some (run codec filter (args.compressionLevel ≠ 0) ⟨header, fits⟩
      (fun _ file => file.needsRotation compressedBytes args.maxFileSize) messages)
  else none

end Archiver

end P2PObserver
