import P2PObserver.Transport.Framing

/-! # Streams that cannot be followed

A reader that has refused a frame keeps it, and refuses it again at every later call. There is
one frame it does not keep: one whose bytes are intact but whose command is no command string.
-/

namespace P2PObserver

open Chunks

namespace V1Reader

variable {M C E : Type} (codec : V1Codec M C)

/-- Calls of `recv` one after the other, whatever they come to, each with its own reads. -/
def calls (r : V1Reader E) : List (List Chunks.Answer) → List (Recv M E) × V1Reader E
  | [] => ([], r)
  | answers :: rest =>
      let (result, r, _) := recv codec r answers
      let (results, r) := calls r rest
      (result :: results, r)

/-- The faults of a stream that cannot be followed. -/
def unfollowable : Fault → Bool
  | .wrongMagic | .oversized | .decode => true
  | _ => false

/-- Every later call fails with the fault, and no byte is read. -/
def StaysRefused (r : V1Reader E) (fault : Fault) : Prop :=
  ∀ later, (calls codec r later).1 = later.map (fun _ => .failed (.fault fault)) ∧
    (calls codec r later).2.left = r.left

/-- A stream that begins with a whole frame of ours whose checksum holds, but which is no message
    and has no command string. -/
structure Unreadable (magic stream : List UInt8) : Prop where
  ours : stream.take 4 = magic
  inside : payloadLen (stream.take 24) ≤ MAX_V1_PAYLOAD
  whole : 24 + payloadLen (stream.take 24) ≤ stream.length
  sums : (codec.sha256d ((stream.take (24 + payloadLen (stream.take 24))).drop 24)).take 4 =
    (stream.drop 20).take 4
  noMessage : codec.deserialize (stream.take (24 + payloadLen (stream.take 24))) = none
  noCommand : codec.undecodable ((stream.drop 4).take 12)
    ((stream.take (24 + payloadLen (stream.take 24))).drop 24) = none

/-! ## A frame that is kept -/

/-- A reader that holds what it has refused. -/
inductive Refused (r : V1Reader E) : Fault → Prop where
  | wrongMagic {header : List UInt8} : r.state = .header header → header.length = 24 →
      header.take 4 ≠ r.magic → Refused r .wrongMagic
  | oversized {header : List UInt8} : r.state = .header header → header.length = 24 →
      header.take 4 = r.magic → MAX_V1_PAYLOAD < payloadLen header → Refused r .oversized
  | decode {buf : List UInt8} {len : Fin (MAX_V1_PAYLOAD + 1)} :
      r.state = .payload (buf.take 24) len buf → buf.length = 24 + len →
      payloadLen (buf.take 24) = len →
      (codec.sha256d (buf.drop 24)).take 4 ≠ ((buf.take 24).drop 20).take 4 → Refused r .decode

variable {codec} {r r' : V1Reader E} {fault : Fault}

theorem fill_self {size : Nat} {buffer : List UInt8} (full : buffer.length = size)
    (left : List UInt8) (answers : List Chunks.Answer) :
    fill size buffer left answers = .full buffer left answers := by
  cases answers <;> simp [fill, full]

/-- It refuses it again. -/
theorem Refused.recv (refused : Refused codec r fault) (answers : List Chunks.Answer) :
    recv codec r answers = (.failed (.fault fault), r, answers) := by
  obtain ⟨left, ending, state, undecodable, magic⟩ := r
  cases refused with
  | wrongMagic state size other =>
      dsimp only at state other
      subst state
      simp only [V1Reader.recv, fill_self size, if_pos other]
  | @oversized header state size ours long =>
      dsimp only at state ours
      subst state
      have outside : ¬ payloadLen header < MAX_V1_PAYLOAD + 1 := by omega
      simp only [V1Reader.recv, fill_self size, ours, ne_eq, not_true_eq_false, if_false,
        dif_neg outside]
  | decode state size declares mismatch =>
      dsimp only at state
      subst state
      simp only [V1Reader.recv, recvPayload, fill_self size, V1Reader.decode, if_pos mismatch]

theorem Refused.stays (refused : Refused codec r fault) : StaysRefused codec r fault := by
  intro later
  induction later with
  | nil => exact ⟨rfl, rfl⟩
  | cons answers rest ih =>
      unfold calls
      rw [refused.recv answers]
      exact ⟨congrArg _ ih.1, ih.2⟩

/-- What is kept is not unreadable. -/
theorem Refused.not_unreadable (refused : Refused codec r fault) :
    ¬ Unreadable codec r.magic r.pending := by
  intro unreadable
  have ours := unreadable.ours
  cases refused with
  | wrongMagic state size other =>
      simp only [pending, buffered, state] at ours
      rw [List.take_append_of_le_length (by omega)] at ours
      exact other ours
  | oversized state size _ long =>
      have inside := unreadable.inside
      simp only [pending, buffered, state] at inside
      rw [List.take_left' size] at inside
      omega
  | @decode buf len state size declares mismatch =>
      have sums := unreadable.sums
      simp only [pending, buffered, state] at sums
      have start : (buf ++ r.left).take 24 = buf.take 24 :=
        List.take_append_of_le_length (by omega)
      rw [start, declares, List.take_left' size] at sums
      apply mismatch
      rw [sums, List.drop_append_of_le_length (by omega),
        List.take_append_of_le_length (by rw [List.length_drop]; omega), List.drop_take,
        List.take_take]
      rfl

/-! ## Failed calls -/

/-- How a reader is left by a call that failed, on this much of the stream. -/
inductive Failed (codec : V1Codec M C) (stream : List UInt8) (r : V1Reader E) :
    RecvError E → Prop where
  | ended {fault : Fault} : unfollowable fault = false → r.Ready → r.pending = stream →
      Failed codec stream r (atEnd r.ending fault)
  | refused {fault : Fault} : Refused codec r fault → r.pending = stream →
      Failed codec stream r (.fault fault)
  | unreadable : Unreadable codec r.magic stream → r.state = .header [] →
      Failed codec stream r (.fault .decode)

variable {error : RecvError E} {answers rest : List Chunks.Answer}

theorem unreadable_frame {magic frame left : List UInt8} {len : Nat}
    (accepted : Accepted magic (frame.take 24) len) (size : frame.length = 24 + len)
    (sums : (codec.sha256d (frame.drop 24)).take 4 = ((frame.take 24).drop 20).take 4)
    (noMessage : codec.deserialize frame = none)
    (noCommand : codec.undecodable (((frame.take 24).drop 4).take 12) (frame.drop 24) = none) :
    Unreadable codec magic (frame ++ left) := by
  have start : (frame ++ left).take 24 = frame.take 24 :=
    List.take_append_of_le_length (by omega)
  have whole : (frame ++ left).take (24 + len) = frame := List.take_left' size
  have field (from_ n : Nat) (inside : from_ + n ≤ 24) :
      ((frame ++ left).drop from_).take n = ((frame.take 24).drop from_).take n := by
    rw [List.drop_append_of_le_length (by omega),
      List.take_append_of_le_length (by rw [List.length_drop]; omega), List.drop_take,
      List.take_take, Nat.min_eq_left (by omega)]
  constructor
  · exact (field 0 4 (by omega)).trans accepted.ours
  · rw [start, accepted.declares]
    exact accepted.inside
  · rw [start, accepted.declares, List.length_append]
    omega
  · rw [start, accepted.declares, whole, field 20 4 (by omega)]
    exact sums
  · rw [start, accepted.declares, whole]
    exact noMessage
  · rw [start, accepted.declares, whole, field 4 12 (by omega)]
    exact noCommand

/-- A frame in full. -/
theorem decode_failed {frame left : List UInt8} {len : Fin (MAX_V1_PAYLOAD + 1)}
    (accepted : Accepted r.magic (frame.take 24) len) (size : frame.length = 24 + len)
    (holds : r.state = .payload (frame.take 24) len frame) (leaves : r.left = left)
    (failed : decode codec r (frame.take 24) frame = (.failed error, r')) :
    r.SameStream r' ∧ Failed codec (frame ++ left) r' error := by
  have pending : r.pending = frame ++ left := by
    simp only [V1Reader.pending, buffered, holds, leaves]
  unfold decode at failed
  dsimp only at failed
  by_cases mismatch : (codec.sha256d (frame.drop 24)).take 4 ≠ ((frame.take 24).drop 20).take 4
  · rw [if_pos mismatch] at failed
    cases failed
    exact ⟨⟨rfl, rfl⟩, .refused (.decode holds size accepted.declares mismatch) pending⟩
  · rw [if_neg mismatch] at failed
    cases message : codec.deserialize frame with
    | some message =>
        rw [message] at failed
        cases failed
    | none =>
        rw [message] at failed
        dsimp only at failed
        cases unknown : codec.undecodable (((frame.take 24).drop 4).take 12) (frame.drop 24) with
        | some message =>
            rw [unknown] at failed
            cases failed
        | none =>
            rw [unknown] at failed
            cases failed
            refine ⟨⟨rfl, rfl⟩, .unreadable ?_ rfl⟩
            exact unreadable_frame accepted size (not_not.mp mismatch) message unknown

theorem recvPayload_failed {header buf : List UInt8} (len : Fin (MAX_V1_PAYLOAD + 1))
    (accepted : Accepted r.magic (buf.take 24) len) (same : header = buf.take 24)
    (enough : 24 ≤ buf.length) (room : buf.length ≤ 24 + len)
    (failed : recvPayload codec r header len buf answers = (.failed error, r', rest)) :
    r.SameStream r' ∧ Failed codec (buf ++ r.left) r' error := by
  subst same
  have filled := fill_spec (24 + len) answers buf r.left room
  unfold recvPayload at failed
  cases outcome : fill (24 + len) buf r.left answers with
  | full frame left answers' =>
      rw [outcome] at filled failed
      obtain ⟨kept, size, _⟩ := filled
      have grows := kept.grows
      have start : buf.take 24 = frame.take 24 := by
        calc buf.take 24 = (buf ++ r.left).take 24 := (List.take_append_of_le_length enough).symm
          _ = (frame ++ left).take 24 := by rw [kept.items]
          _ = frame.take 24 := List.take_append_of_le_length (by omega)
      rw [start] at accepted failed
      have decoded : decode codec
          { r with left := left, state := .payload (frame.take 24) len frame } (frame.take 24)
          frame = (.failed error, r') := by
        obtain ⟨result, rest⟩ := Prod.mk.inj failed
        exact Prod.ext result (Prod.mk.inj rest).1
      rw [← kept.items]
      exact decode_failed (r := { r with left := left, state := _ }) accepted size rfl rfl decoded
  | ended frame answers' =>
      rw [outcome] at filled failed
      obtain ⟨all, short⟩ := filled
      cases failed
      have start : (buf ++ r.left).take 24 = buf.take 24 := List.take_append_of_le_length enough
      have long : 24 ≤ frame.length := by
        rw [all, List.length_append]
        omega
      refine ⟨⟨rfl, rfl⟩, .ended rfl ⟨short, long, ?_, accepted.ours, accepted.declares⟩ ?_⟩
      · rw [all, start]
      · simp only [pending, buffered, all, List.append_nil]
  | dropped => rw [outcome] at failed; cases failed
  | waiting => rw [outcome] at failed; cases failed

theorem recv_failed (ready : r.Ready) (failed : recv codec r answers = (.failed error, r', rest)) :
    r.SameStream r' ∧ Failed codec r.pending r' error := by
  obtain ⟨left, ending, state, undecodable, magic⟩ := r
  cases state with
  | payload header len buf =>
      obtain ⟨short, enough, same, ours, declares⟩ : buf.length < 24 + len ∧ 24 ≤ buf.length ∧
        header = buf.take 24 ∧ header.take 4 = magic ∧ payloadLen header = len := ready
      have inside := len.isLt
      have accepted : Accepted magic (buf.take 24) len := same ▸ ⟨ours, declares, by omega⟩
      show _ ∧ Failed codec (buf ++ left) r' error
      exact recvPayload_failed len accepted same enough (by omega) failed
  | header buf =>
      have short : buf.length < 24 := ready
      have filled := fill_spec 24 answers buf left (by omega)
      unfold recv at failed
      dsimp only at failed
      cases outcome : fill 24 buf left answers with
      | full header left' answers' =>
          rw [outcome] at filled failed
          obtain ⟨kept, size, _⟩ := filled
          dsimp only at failed
          have all : header.take 24 = header := by rw [← size, List.take_length]
          have pending : pending ⟨left, ending, .header buf, undecodable, magic⟩ =
            header ++ left' := kept.items.symm
          rw [pending]
          by_cases other : header.take 4 ≠ magic
          · rw [if_pos other] at failed
            cases failed
            exact ⟨⟨rfl, rfl⟩, .refused (.wrongMagic rfl size other) rfl⟩
          · rw [if_neg other] at failed
            by_cases inside : payloadLen header < MAX_V1_PAYLOAD + 1
            · rw [dif_pos inside] at failed
              have accepted : Accepted magic (header.take 24) (payloadLen header) :=
                ⟨by rw [all]; exact not_not.mp other, by rw [all], Nat.le_of_lt_succ inside⟩
              exact recvPayload_failed ⟨payloadLen header, inside⟩ accepted all.symm (by omega)
                (by simp [size]) failed
            · rw [dif_neg inside] at failed
              cases failed
              exact ⟨⟨rfl, rfl⟩, .refused (.oversized rfl size (not_not.mp other) (by omega)) rfl⟩
      | ended header answers' =>
          rw [outcome] at filled failed
          obtain ⟨all, short⟩ := filled
          cases failed
          refine ⟨⟨rfl, rfl⟩, .ended ?_ short ?_⟩
          · split <;> rfl
          · simp only [pending, buffered, all, List.append_nil]
      | dropped => rw [outcome] at failed; cases failed
      | waiting => rw [outcome] at failed; cases failed

/-! ## Call after call -/

/-- A reader as calls leave it: part way through a frame, or with one it has refused. -/
def Settled (codec : V1Codec M C) (r : V1Reader E) : Prop :=
  r.Ready ∨ ∃ fault, Refused codec r fault

theorem ready_of_fresh (fresh : r.state = .header []) : r.Ready := by
  simp [Ready, fresh]

theorem Settled.recv (settled : Settled codec r) (answers : List Chunks.Answer) :
    Settled codec (recv codec r answers).2.1 := by
  cases settled with
  | inr refused =>
      obtain ⟨fault, refused⟩ := refused
      rw [refused.recv answers]
      exact .inr ⟨fault, refused⟩
  | inl ready =>
      have received := recv_received codec ready answers
      cases outcome : V1Reader.recv codec r answers with
      | mk result left =>
          obtain ⟨r', rest⟩ := left
          rw [outcome] at received
          cases result with
          | message message => exact .inl (ready_of_fresh received.2.1)
          | dropped => exact .inl received.1
          | waiting => exact .inl received.1
          | failed error =>
              cases (recv_failed ready outcome).2 with
              | ended _ ready => exact .inl ready
              | refused refused => exact .inr ⟨_, refused⟩
              | unreadable _ fresh => exact .inl (ready_of_fresh fresh)

theorem Settled.calls (settled : Settled codec r) (before : List (List Chunks.Answer)) :
    Settled codec (calls codec r before).2 := by
  induction before generalizing r with
  | nil => exact settled
  | cons answers rest ih =>
      unfold V1Reader.calls
      exact ih (settled.recv answers)

/-- A reader that has given its frame up reads on. -/
theorem not_staysRefused_of_fresh (followed : unfollowable fault = true)
    (fresh : r.state = .header []) : ¬ StaysRefused codec r fault := by
  intro stays
  obtain ⟨results, left⟩ := stays [[.chunk 0]]
  obtain ⟨stream, ending, state, undecodable, magic⟩ := r
  dsimp only at fresh
  subst fresh
  cases stream with
  | nil =>
      have error := Recv.failed.inj (List.cons.inj results).1
      cases ending with
      | none =>
          obtain rfl : Fault.peerClosed = fault := RecvError.fault.inj error
          cases followed
      | some e => cases error
  | cons byte stream =>
      -- The call has read a byte.
      have read : stream = byte :: stream := left
      exact List.cons_ne_self _ _ read.symm

/-- The error of a frame that is not refused again. -/
theorem Settled.stays_iff (settled : Settled codec r) (followed : unfollowable fault = true)
    (failed : V1Reader.recv codec r answers = (.failed (.fault fault), r', rest)) :
    StaysRefused codec r' fault ↔ ¬ Unreadable codec r.magic r.pending := by
  cases settled with
  | inr refused =>
      obtain ⟨fault', refused⟩ := refused
      rw [refused.recv answers] at failed
      cases failed
      exact iff_of_true refused.stays refused.not_unreadable
  | inl ready =>
      obtain ⟨⟨magic, ending⟩, left⟩ := recv_failed ready failed
      generalize is : (RecvError.fault fault : RecvError E) = error at left
      cases left with
      | @ended fault' other =>
          unfold atEnd at is
          split at is
          · cases is
            rw [other] at followed
            cases followed
          · cases is
      | refused refused pending =>
          cases is
          rw [← magic, ← pending]
          exact iff_of_true refused.stays refused.not_unreadable
      | unreadable unreadable fresh =>
          rw [magic] at unreadable
          exact iff_of_false (not_staysRefused_of_fresh followed fresh) (not_not.mpr unreadable)

end V1Reader

/-- A call fails over a stream that cannot be followed, and all later calls do and read nothing
    more, if and only if the frame it was at is not one whose bytes are intact and whose command
    is no command string. -/
theorem calls_staysRefused_iff {M C E : Type} (codec : V1Codec M C) (magic stream : List UInt8)
    (ending : Option E) (before : List (List Chunks.Answer)) (answers rest : List Chunks.Answer)
    (fault : Fault)
    (r' : V1Reader E) (followed : V1Reader.unfollowable fault = true)
    (failed : V1Reader.recv codec (V1Reader.calls codec (.new magic stream ending) before).2 answers =
      (.failed (.fault fault), r', rest)) :
    V1Reader.StaysRefused codec r' fault ↔
      ¬ V1Reader.Unreadable codec (V1Reader.calls codec (.new magic stream ending) before).2.magic
        (V1Reader.calls codec (.new magic stream ending) before).2.pending := by
  have fresh : (V1Reader.new magic stream ending).Ready := V1Reader.ready_of_fresh rfl
  have settled : V1Reader.Settled codec (.new magic stream ending) := .inl fresh
  exact (settled.calls before).stays_iff followed failed

namespace Unnamed

def magic : List UInt8 := [0xfa, 0xbf, 0xb5, 0xda]

/-- The bytes of `verack`. -/
def verack : List UInt8 := [0x76, 0x65, 0x72, 0x61, 0x63, 0x6b, 0, 0, 0, 0, 0, 0]

/-- Bytes that are no UTF-8. -/
def garbled : List UInt8 := [0xff, 0xfe, 0x7b, 0x76, 0x65, 0x72, 0x73, 0x69, 0x6f, 0, 0, 0]

/-- The codec, as far as frames without a payload go. -/
def codec : V1Codec String String where
  sha256d _ := [0x5d, 0xf6, 0xe0, 0xe2]
  deserialize frame := if (frame.drop 4).take 12 = verack then some "verack" else none
  commandString := some
  unknown command _ := command

/-- A frame without a payload. -/
def frame (command : List UInt8) : List UInt8 :=
  magic ++ command ++ [0, 0, 0, 0] ++ [0x5d, 0xf6, 0xe0, 0xe2]

/-- The reads of a call: a header in one piece. -/
def reads : List Chunks.Answer := [.chunk 23]

/-- A reader of another network that has read the header of a frame. -/
def foreign : V1Reader Unit where
  left := []
  ending := none
  state := .header (frame verack)
  undecodable := 0
  magic := [0xf9, 0xbe, 0xb4, 0xd9]

end Unnamed

/-- Another network's magic is refused for good. -/
theorem calls_staysRefused_iff_foreign :
    V1Reader.StaysRefused Unnamed.codec Unnamed.foreign .wrongMagic := by
  apply (calls_staysRefused_iff Unnamed.codec [0xf9, 0xbe, 0xb4, 0xd9]
    (Unnamed.frame Unnamed.verack) none [] Unnamed.reads [] .wrongMagic Unnamed.foreign rfl rfl).mpr
  intro unreadable
  cases unreadable.ours

/-- Once a call has failed over a stream that cannot be followed, all later ones do. -/
def RefusalsStay {M C E : Type} (codec : V1Codec M C) (magic stream : List UInt8)
    (ending : Option E) : Prop :=
  ∀ before answers rest fault r', V1Reader.unfollowable fault = true →
    V1Reader.recv codec (V1Reader.calls codec (.new magic stream ending) before).2 answers =
      (.failed (.fault fault), r', rest) → V1Reader.StaysRefused codec r' fault

/-- The first call fails to decode, and the second returns the message after. -/
theorem garbled_command_skipped : ¬ RefusalsStay (E := Unit) Unnamed.codec Unnamed.magic
    (Unnamed.frame Unnamed.garbled ++ Unnamed.frame Unnamed.verack) none := by
  intro stay
  have stays := stay [] Unnamed.reads _ .decode _ rfl (by rfl)
  have message : (.message "verack" : Recv String Unit) = .failed (.fault .decode) :=
    (List.cons.inj (stays [Unnamed.reads]).1).1
  cases message

end P2PObserver
