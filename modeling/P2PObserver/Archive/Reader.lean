import P2PObserver.Archive.Archiver
import P2PObserver.Lib.Chunks

/-! # Reading an archive back -/

namespace P2PObserver

open Chunks

/-- The longest record an archive may claim. -/
def MAX_RECORD : Nat := 16777216

inductive ReadError where
  | missingHeader
  /-- The file is no zstd stream. -/
  | zstd
  | unexpectedEof
  /-- prost refused the length prefix. -/
  | delimiter
  | tooLong (len : Nat)
  /-- prost refused the message. -/
  | decode
  deriving DecidableEq, Repr

variable {H : Type} (codec : ArchiveCodec H)

/-- Hands the collected bytes to prost. -/
def decodeDelimiter (bytes : List UInt8) : Except ReadError (Option Nat) :=
  match codec.decodeLengthDelimiter bytes with
  | some len => .ok (some len)
  | none => .error .delimiter

/-- Pulls a length prefix off the stream one byte at a time; `room` more fit a varint. -/
def collectDelimiter : Nat → List UInt8 → Source UInt8 →
    Except ReadError (Option Nat) × Source UInt8
  | 0, bytes, source => (decodeDelimiter codec bytes, source)
  | room + 1, bytes, source =>
      match source.readExact 1 with
      | (some [byte], source) =>
          if byte &&& 0x80 = 0 then (decodeDelimiter codec (bytes ++ [byte]), source)
          else collectDelimiter room (bytes ++ [byte]) source
      | (_, source) =>
          (if bytes.isEmpty then .ok none else .error .unexpectedEof, source)

/-- Reads a protobuf varint length prefix, or nothing where the stream ends. -/
def readLengthDelimiter (source : Source UInt8) : Except ReadError (Option Nat) × Source UInt8 :=
  collectDelimiter codec 10 [] source

def readMessage {M : Type} (decode : List UInt8 → Option M) (source : Source UInt8) :
    Except ReadError (Option M) × Source UInt8 :=
  match readLengthDelimiter codec source with
  | (.error error, source) => (.error error, source)
  -- A clean EOF at a message boundary is the normal end of the archive.
  | (.ok none, source) => (.ok none, source)
  | (.ok (some len), source) =>
      if MAX_RECORD < len then (.error (.tooLong len), source)
      else
        match source.readExact len with
        | (none, source) => (.error .unexpectedEof, source)
        | (some bytes, source) =>
            (match decode bytes with
              | some message => .ok (some message)
              | none => .error .decode, source)

/-- Reads an archive, yielding its events. -/
structure ArchiveReader where
  source : Source UInt8
  header : ArchiveHeader

namespace ArchiveReader

def new (source : Source UInt8) : Except ReadError ArchiveReader :=
  match readMessage codec codec.decodeHeader source with
  | (.error error, _) => .error error
  | (.ok none, _) => .error .missingHeader
  | (.ok (some header), source) => .ok ⟨source, header⟩

/-- Opens an archive, decompressing it when its name ends in `.zst`. `cuts` is how the reader
    underneath splits its reads. -/
def openFile (file : StoredFile) (cuts : List Nat) : Except ReadError ArchiveReader :=
  if file.zst then
    match codec.decompress file.contents with
    | some bytes => new codec ⟨bytes, cuts⟩
    | none => .error .zstd
  else new codec ⟨file.contents, cuts⟩

def next (reader : ArchiveReader) : Option (Except ReadError (PeerEvent H)) × ArchiveReader :=
  match readMessage codec codec.decodeEvent reader.source with
  | (.error error, source) => (some (.error error), { reader with source := source })
  | (.ok none, source) => (none, { reader with source := source })
  | (.ok (some event), source) => (some (.ok event), { reader with source := source })

/-- What so many calls of `next` yield, up to the end. -/
def nexts : Nat → ArchiveReader → List (Except ReadError (PeerEvent H))
  | 0, _ => []
  | calls + 1, reader =>
      match next codec reader with
      | (none, _) => []
      | (some item, reader) => item :: nexts calls reader

end ArchiveReader

end P2PObserver
