import P2PObserver.Lib.Chunks
import P2PObserver.Addresses.Policy

/-! # The v1 transport's reader

`recv` with its state kept across cancelled calls. The message decoder, the hash and the
command strings are rust-bitcoin's and come as a `V1Codec`.
-/

namespace P2PObserver

open Chunks

/-- rust-bitcoin's limit on a message, header included. -/
def MAX_MSG_SIZE : Nat := 5000000

/-- The most a v1 header may declare. -/
def MAX_V1_PAYLOAD : Nat := MAX_MSG_SIZE - 24

/-- How a transport stopped being one we can follow. -/
inductive Fault where
  | peerClosed
  | truncated
  | decode
  | oversized
  | wrongMagic
  | v2Decrypt
  | write
  deriving DecidableEq, Repr

/-- What the v1 reader takes from rust-bitcoin. -/
structure V1Codec (M C : Type) where
  sha256d : List UInt8 → List UInt8
  /-- `deserialize` of a whole frame as a `RawNetworkMessage`. -/
  deserialize : List UInt8 → Option M
  /-- `CommandString::try_from`. -/
  commandString : String → Option C
  /-- `NetworkMessage::Unknown`. -/
  unknown : C → List UInt8 → M

/-- An error of `recv`: tagged with a fault, or a failed read. -/
inductive RecvError (E : Type) where
  | fault (fault : Fault)
  | io (error : E)
  deriving DecidableEq, Repr

/-- The bytes of a buffer read so far; its position is their number. -/
inductive V1ReadState where
  /-- Reading the 24-byte header. -/
  | header (buf : List UInt8)
  /-- Header is complete, reading the payload it declares. -/
  | payload (header : List UInt8) (len : Fin (MAX_V1_PAYLOAD + 1)) (buf : List UInt8)

structure V1Reader (E : Type) where
  /-- What the stream still holds. -/
  left : List UInt8
  /-- How the stream ends: closed, or with a failed read. -/
  ending : Option E
  state : V1ReadState
  undecodable : UInt32
  magic : List UInt8

/-- How one call of `recv` ends. -/
inductive Recv (M E : Type) where
  | message (message : M)
  | failed (error : RecvError E)
  /-- The future was dropped at a read. -/
  | dropped
  /-- Still waiting for a read. -/
  | waiting

/-- `u32::from_le_bytes`. -/
def fromLeBytes (bytes : List UInt8) : Nat :=
  bytes.foldr (fun byte acc => byte.toNat + 256 * acc) 0

namespace V1Codec

variable {M C : Type} (codec : V1Codec M C)

/-- The message to hand up for a payload that would not deserialize. -/
def undecodable (command payload : List UInt8) : Option M := do
  let command ← String.fromUTF8? ⟨(command.takeWhile (· ≠ 0)).toArray⟩
  let command ← codec.commandString command
  return codec.unknown command payload

end V1Codec

/-- The length a header declares. -/
def payloadLen (header : List UInt8) : Nat := fromLeBytes ((header.drop 16).take 4)

namespace V1Reader

variable {M C E : Type} (codec : V1Codec M C)

def new (magic : List UInt8) (left : List UInt8) (ending : Option E) : V1Reader E where
  left := left
  ending := ending
  state := .header []
  undecodable := 0
  magic := magic

/-- The error where the stream ends. -/
def atEnd (ending : Option E) (fault : Fault) : RecvError E :=
  match ending with
  | none => .fault fault
  | some error => .io error

/-- Checks and decodes a complete frame. -/
def decode (r : V1Reader E) (header buf : List UInt8) : Recv M E × V1Reader E :=
  let reset := { r with state := .header [] }
  if (codec.sha256d (buf.drop 24)).take 4 ≠ (header.drop 20).take 4 then
    (.failed (.fault .decode), r)
  else
    match codec.deserialize buf with
    | some message => (.message message, reset)
    | none =>
        match codec.undecodable ((header.drop 4).take 12) (buf.drop 24) with
        | some message =>
            (.message message, { reset with undecodable := saturatingAdd r.undecodable 1 })
        | none => (.failed (.fault .decode), reset)

/-- Reads the payload, resuming where a dropped call left off. -/
def recvPayload (r : V1Reader E) (header : List UInt8) (len : Fin (MAX_V1_PAYLOAD + 1))
    (buf : List UInt8) (answers : List Answer) : Recv M E × V1Reader E × List Answer :=
  match fill (24 + len) buf r.left answers with
  | .ended buf answers =>
      (.failed (atEnd r.ending .truncated),
        { r with left := [], state := .payload header len buf }, answers)
  | .dropped buf left answers =>
      (.dropped, { r with left := left, state := .payload header len buf }, answers)
  | .waiting buf left =>
      (.waiting, { r with left := left, state := .payload header len buf }, [])
  | .full buf left answers =>
      let decoded := decode codec { r with left := left, state := .payload header len buf }
        header buf
      (decoded.1, decoded.2, answers)

def recv (r : V1Reader E) (answers : List Answer) : Recv M E × V1Reader E × List Answer :=
  match r.state with
  | .payload header len buf => recvPayload codec r header len buf answers
  | .header buf =>
      match fill 24 buf r.left answers with
      | .ended buf answers =>
          -- Nothing of the header had arrived yet, so the peer closed between messages.
          let fault := if buf.isEmpty then .peerClosed else .truncated
          (.failed (atEnd r.ending fault), { r with left := [], state := .header buf }, answers)
      | .dropped buf left answers =>
          (.dropped, { r with left := left, state := .header buf }, answers)
      | .waiting buf left => (.waiting, { r with left := left, state := .header buf }, [])
      | .full header left answers =>
          let read := { r with left := left, state := .header header }
          if header.take 4 ≠ r.magic then (.failed (.fault .wrongMagic), read, answers)
          else if inside : payloadLen header < MAX_V1_PAYLOAD + 1 then
            recvPayload codec read header ⟨payloadLen header, inside⟩ header answers
          else (.failed (.fault .oversized), read, answers)

/-- Calls `recv` over and over, up to the first error. -/
def recvs : Nat → V1Reader E → List Answer → List (Except (RecvError E) M) × V1Reader E
  | 0, r, _ => ([], r)
  | calls + 1, r, answers =>
      match recv codec r answers with
      | (.message message, r, answers) =>
          let rest := recvs calls r answers
          (.ok message :: rest.1, rest.2)
      | (.failed error, r, _) => ([.error error], r)
      | (.dropped, r, answers) => recvs calls r answers
      | (.waiting, r, _) => ([], r)

end V1Reader

end P2PObserver
