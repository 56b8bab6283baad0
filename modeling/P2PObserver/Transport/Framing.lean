import P2PObserver.Transport.Wire

/-! # Framing

The reader that gets a stream in pieces: whatever the pieces and wherever a call is dropped, the
results are what the stream says frame by frame.
-/

namespace P2PObserver

open Chunks

namespace V1Reader

variable {M C E : Type} (codec : V1Codec M C)

/-! ## The stream frame by frame -/

/-- The message of a complete frame whose checksum holds. -/
def decoded (frame : List UInt8) : Option M :=
  (codec.deserialize frame).or
    (codec.undecodable ((frame.drop 4).take 12) (frame.drop 24))

/-- The first frame of a stream and what follows it. -/
def frame (magic : List UInt8) (ending : Option E) (stream : List UInt8) :
    Except (RecvError E) (M × List UInt8) :=
  if stream.length < 24 then
    .error (atEnd ending (if stream.isEmpty then .peerClosed else .truncated))
  else if stream.take 4 ≠ magic then .error (.fault .wrongMagic)
  else if MAX_V1_PAYLOAD < payloadLen (stream.take 24) then .error (.fault .oversized)
  else if stream.length < 24 + payloadLen (stream.take 24) then
    .error (atEnd ending .truncated)
  else
    let whole := stream.take (24 + payloadLen (stream.take 24))
    if (codec.sha256d (whole.drop 24)).take 4 ≠ (whole.drop 20).take 4 then
      .error (.fault .decode)
    else
      match decoded codec whole with
      | some message => .ok (message, stream.drop (24 + payloadLen (stream.take 24)))
      | none => .error (.fault .decode)

variable {codec}

theorem frame_header (magic : List UInt8) (ending : Option E) (h : WireHeader)
    (rest : List UInt8) :
    frame codec magic ending (h.bytes ++ rest) =
      if h.magic.val ≠ magic then .error (.fault .wrongMagic)
      else if MAX_V1_PAYLOAD < h.length.toNat then .error (.fault .oversized)
      else if rest.length < h.length.toNat then .error (atEnd ending .truncated)
      else if (codec.sha256d (rest.take h.length.toNat)).take 4 ≠ h.checksum.val then
        .error (.fault .decode)
      else
        match (codec.deserialize (h.bytes ++ rest.take h.length.toNat)).or
            (codec.undecodable h.command.val (rest.take h.length.toNat)) with
        | some message => .ok (message, rest.drop h.length.toNat)
        | none => .error (.fault .decode) := by
  have long : ¬(h.bytes ++ rest).length < 24 := by
    rw [List.length_append, h.length_bytes]
    omega
  have size : (h.bytes ++ rest).length = 24 + rest.length := by
    rw [List.length_append, h.length_bytes]
  have whole (n : Nat) : (h.bytes ++ rest).take (24 + n) = h.bytes ++ rest.take n := by
    rw [← h.length_bytes, List.take_length_add_append]
  have after (n : Nat) : (h.bytes ++ rest).drop (24 + n) = rest.drop n := by
    rw [← h.length_bytes, List.drop_length_add_append]
  have payload (n : Nat) : (h.bytes ++ rest.take n).drop 24 = rest.take n :=
    List.drop_left' h.length_bytes
  unfold frame decoded
  rw [if_neg long, h.take_magic, List.take_left' h.length_bytes, h.payloadLen_bytes]
  simp only [size, whole, after, payload, Nat.add_lt_add_iff_left]
  rw [h.field_append (by omega), h.field_append (by omega), h.take_command, h.take_checksum]

theorem frame_complete {magic : List UInt8} (ending : Option E) {h : WireHeader}
    {payload : List UInt8} (complete : Complete magic h payload) (rest : List UInt8) :
    frame codec magic ending (h.bytes ++ (payload ++ rest)) =
      if (codec.sha256d payload).take 4 ≠ h.checksum.val then .error (.fault .decode)
      else
        match (codec.deserialize (h.bytes ++ payload)).or
            (codec.undecodable h.command.val payload) with
        | some message => .ok (message, rest)
        | none => .error (.fault .decode) := by
  obtain ⟨ours, inside, size⟩ := complete
  rw [frame_header, if_neg (not_not.mpr ours), if_neg (by omega),
    if_neg (by rw [List.length_append]; omega), List.take_left' size, List.drop_left' size]

theorem frame_unfinished {magic stream : List UInt8} (ending : Option E)
    (cut : Unfinished magic stream) :
    frame codec magic ending stream =
      .error (atEnd ending (if stream.isEmpty then .peerClosed else .truncated)) := by
  cases cut with
  | header short => rw [frame, if_pos short]
  | @payload h part ours inside short =>
      have begun := List.isEmpty_eq_false_iff.mpr (h.bytes_append_ne_nil part)
      rw [frame_header, if_neg (not_not.mpr ours), if_neg (by omega), if_pos short, begun]
      rfl

/-! ## The stream as it is laid out -/

/-- What a stream begins with is what `frame` reads off it. -/
theorem frame_of_begins {magic : List UInt8} {ending : Option E} {stream : List UInt8}
    {result : Except (RecvError E) (M × List UInt8)}
    (begins : Begins codec magic ending stream result) :
    frame codec magic ending stream = result := by
  cases begins with
  | closed => rfl
  | truncated begun cut =>
      have begun := List.isEmpty_eq_false_iff.mpr begun
      rw [frame_unfinished _ cut, begun]
      rfl
  | failed cut => rw [frame_unfinished _ cut, atEnd]
  | wrongMagic h other => rw [frame_header, if_pos other]
  | oversized h ours outside => rw [frame_header, if_neg (not_not.mpr ours), if_pos outside]
  | corrupt h complete mismatch => rw [frame_complete _ complete, if_pos mismatch]
  | message h complete sums decodes =>
      rw [frame_complete _ complete, if_neg (not_not.mpr sums), decodes, Option.some_or]
  | @unknown _ h payload _ _ complete sums fails reads =>
      have handed := (codec.undecodable_iff _ payload _).mpr ⟨_, reads, rfl⟩
      rw [frame_complete _ complete, if_neg (not_not.mpr sums), fails, Option.none_or, handed]
  | @unreadable _ h payload _ complete sums fails garbled =>
      have nothing := (codec.undecodable_eq_none _ payload).mpr garbled
      rw [frame_complete _ complete, if_neg (not_not.mpr sums), fails, Option.none_or, nothing]

theorem begins_unfinished {magic stream : List UInt8} (ending : Option E)
    (cut : Unfinished magic stream) :
    Begins codec magic ending stream (frame codec magic ending stream) := by
  rw [frame_unfinished ending cut]
  cases ending with
  | some e => exact .failed cut
  | none =>
      cases stream with
      | nil => exact .closed
      | cons byte stream => exact .truncated nofun cut

theorem begins_complete {magic : List UInt8} (ending : Option E) {h : WireHeader}
    {payload : List UInt8} (complete : Complete magic h payload) (rest : List UInt8) :
    Begins codec magic ending (h.bytes ++ (payload ++ rest))
      (frame codec magic ending (h.bytes ++ (payload ++ rest))) := by
  rw [frame_complete ending complete]
  by_cases sums : (codec.sha256d payload).take 4 = h.checksum.val
  · rw [if_neg (not_not.mpr sums)]
    cases decodes : codec.deserialize (h.bytes ++ payload) with
    | some message => exact .message h complete sums decodes
    | none =>
        rw [Option.none_or]
        cases handed : codec.undecodable h.command.val payload with
        | some message =>
            obtain ⟨c, reads, rfl⟩ := (codec.undecodable_iff ..).mp handed
            exact .unknown h complete sums decodes reads
        | none =>
            exact .unreadable h complete sums decodes ((codec.undecodable_eq_none ..).mp handed)
  · rw [if_pos sums]
    exact .corrupt h complete sums

/-- What `frame` reads off a stream is what it begins with. -/
theorem begins_of_frame {magic : List UInt8} {ending : Option E} {stream : List UInt8}
    {result : Except (RecvError E) (M × List UInt8)}
    (first : frame codec magic ending stream = result) :
    Begins codec magic ending stream result := by
  subst first
  by_cases short : stream.length < 24
  · exact begins_unfinished ending (.header short)
  obtain ⟨h, rest, rfl⟩ := WireHeader.exists_append (not_lt.mp short)
  by_cases ours : h.magic.val = magic
  · by_cases inside : h.length.toNat ≤ MAX_V1_PAYLOAD
    · by_cases enough : h.length.toNat ≤ rest.length
      · have complete : Complete magic h (rest.take h.length.toNat) :=
          ⟨ours, inside, List.length_take_of_le enough⟩
        rw [← List.take_append_drop h.length.toNat rest]
        exact begins_complete ending complete _
      · exact begins_unfinished ending (.payload h ours inside (not_le.mp enough))
    · rw [frame_header, if_neg (not_not.mpr ours), if_pos (not_le.mp inside)]
      exact .oversized h ours (not_le.mp inside)
  · rw [frame_header, if_pos ours]
    exact .wrongMagic h ours

theorem begins_shorter {magic : List UInt8} {ending : Option E} {stream rest : List UInt8}
    {message : M} (begins : Begins codec magic ending stream (.ok (message, rest))) :
    rest.length < stream.length := by
  cases begins with
  | message h _ _ _ | unknown h _ _ _ _ =>
      simp only [List.length_append, h.length_bytes]
      omega

variable (codec) in
theorem exists_parses (magic : List UInt8) (ending : Option E) (stream : List UInt8) :
    ∃ messages error, Parses codec magic ending stream messages error := by
  cases first : frame codec magic ending stream with
  | error error => exact ⟨[], error, stream, .none, begins_of_frame first⟩
  | ok next =>
      obtain ⟨message, rest⟩ := next
      have begins := begins_of_frame first
      have shorter := begins_shorter begins
      obtain ⟨messages, error, after, frames, ends⟩ := exists_parses magic ending rest
      exact ⟨message :: messages, error, after, .next begins frames, ends⟩
termination_by stream.length

/-- A stream comes to one thing only. -/
theorem parses_unique {magic : List UInt8} {ending : Option E} {stream : List UInt8}
    {messages messages' : List M} {error error' : RecvError E}
    (parses : Parses codec magic ending stream messages error)
    (parses' : Parses codec magic ending stream messages' error') :
    messages' = messages ∧ error' = error := by
  obtain ⟨after, frames, ends⟩ := parses
  obtain ⟨after', frames', ends'⟩ := parses'
  induction frames generalizing messages' with
  | none =>
      have first := frame_of_begins ends
      cases frames' with
      | none =>
          rw [frame_of_begins ends'] at first
          cases first
          exact ⟨rfl, rfl⟩
      | next begins' _ =>
          rw [frame_of_begins begins'] at first
          cases first
  | next begins frames ih =>
      have first := frame_of_begins begins
      cases frames' with
      | none =>
          rw [frame_of_begins ends'] at first
          cases first
      | next begins' frames' =>
          rw [frame_of_begins begins'] at first
          cases first
          obtain ⟨same, error⟩ := ih ends frames'
          exact ⟨congrArg _ same, error⟩

theorem parses_append {magic : List UInt8} {ending : Option E} {stream after : List UInt8}
    {messages more : List M} {error : RecvError E}
    (frames : Frames codec magic ending stream messages after)
    (parses : Parses codec magic ending after more error) :
    Parses codec magic ending stream (messages ++ more) error := by
  induction frames with
  | none => exact parses
  | next begins _ ih =>
      obtain ⟨rest, frames, ends⟩ := ih parses
      exact ⟨rest, .next begins frames, ends⟩

variable (codec)

/-! ## One call -/

/-- The bytes a reader has read of the frame it is in. -/
def buffered (r : V1Reader E) : List UInt8 :=
  match r.state with
  | .header buf | .payload _ _ buf => buf

/-- The stream from the frame the reader is in. -/
def pending (r : V1Reader E) : List UInt8 := r.buffered ++ r.left

/-- The reader is part way through a frame, and its state says how far. -/
def Ready (r : V1Reader E) : Prop :=
  match r.state with
  | .header buf => buf.length < 24
  | .payload header len buf =>
      buf.length < 24 + len ∧ 24 ≤ buf.length ∧ header = buf.take 24 ∧
        header.take 4 = r.magic ∧ payloadLen header = len

/-- The same stream and network. -/
def SameStream (r r' : V1Reader E) : Prop := r'.magic = r.magic ∧ r'.ending = r.ending

/-- What a call of `recv` on this much of the stream comes to. -/
def Received (r : V1Reader E) (stream : List UInt8) (answers : List Chunks.Answer) :
    Recv M E × V1Reader E × List Chunks.Answer → Prop
  | (.message message, r', answers') =>
      frame codec r.magic r.ending stream = .ok (message, r'.left) ∧ r'.state = .header [] ∧
        r.SameStream r' ∧ reads answers + r'.left.length ≤ reads answers' + r.left.length ∧
          answers'.length ≤ answers.length
  | (.failed error, _, _) => frame codec r.magic r.ending stream = .error error
  | (.dropped, r', answers') =>
      r'.Ready ∧ r'.pending = stream ∧ r.SameStream r' ∧
        reads answers + r'.left.length ≤ reads answers' + r.left.length ∧
          answers'.length < answers.length
  | (.waiting, r', _) =>
      r'.Ready ∧ r'.pending = stream ∧ r.SameStream r' ∧
        reads answers + r'.left.length ≤ r.left.length

/-- A header of ours that declares no more than it may. -/
structure Accepted (magic header : List UInt8) (len : Nat) : Prop where
  ours : header.take 4 = magic
  declares : payloadLen header = len
  inside : len ≤ MAX_V1_PAYLOAD

theorem frame_accepted {magic : List UInt8} (ending : Option E) {stream : List UInt8}
    {len : Nat} (long : 24 ≤ stream.length) (accepted : Accepted magic (stream.take 24) len) :
    frame codec magic ending stream =
      if stream.length < 24 + len then .error (atEnd ending .truncated)
      else if (codec.sha256d ((stream.take (24 + len)).drop 24)).take 4 ≠
          ((stream.take 24).drop 20).take 4 then .error (.fault .decode)
      else
        match decoded codec (stream.take (24 + len)) with
        | some message => .ok (message, stream.drop (24 + len))
        | none => .error (.fault .decode) := by
  have ours : stream.take 4 = magic := by
    rw [← accepted.ours, List.take_take]
    rfl
  have checksum : ((stream.take (24 + len)).drop 20).take 4 = ((stream.take 24).drop 20).take 4 := by
    simp only [List.drop_take, List.take_take]
    congr 1
    omega
  unfold frame
  rw [if_neg (by omega), if_neg (by simp [ours]), accepted.declares,
    if_neg (by have := accepted.inside; omega)]
  simp only [checksum]

/-- Decoding a complete frame is the last step of reading it off the stream. -/
theorem decode_received {r : V1Reader E} {stream : List UInt8} {len : Nat}
    {answers answers' : List Chunks.Answer} {r₀ : V1Reader E} (same : r₀.SameStream r)
    (accepted : Accepted r.magic (stream.take 24) len) (long : 24 + len ≤ stream.length)
    (left : r.left = stream.drop (24 + len))
    (progress : reads answers + r.left.length ≤ reads answers' + r₀.left.length)
    (spent : answers'.length ≤ answers.length) :
    Received codec r₀ stream answers
      ((decode codec r (stream.take 24) (stream.take (24 + len))).1,
        (decode codec r (stream.take 24) (stream.take (24 + len))).2, answers') := by
  obtain ⟨magic, ending⟩ := same
  have first := frame_accepted codec r₀.ending (by omega) (magic ▸ accepted)
  rw [if_neg (by omega)] at first
  have command : ((stream.take 24).drop 4).take 12 =
      ((stream.take (24 + len)).drop 4).take 12 := by
    simp only [List.drop_take, List.take_take]
    congr 1
    omega
  unfold decode
  simp only
  split
  · rename_i mismatch
    simp only [Received]
    rw [first, if_pos mismatch]
  · rename_i sums
    rw [if_neg sums, decoded] at first
    cases message : codec.deserialize (stream.take (24 + len)) with
    | some message =>
        simp only [message, Option.some_or] at first
        exact ⟨left ▸ first, rfl, ⟨magic, ending⟩, progress, spent⟩
    | none =>
        simp only [message, Option.none_or] at first
        rw [command]
        cases unknown : codec.undecodable (((stream.take (24 + len)).drop 4).take 12)
            ((stream.take (24 + len)).drop 24) with
        | some message =>
            simp only [unknown] at first
            exact ⟨left ▸ first, rfl, ⟨magic, ending⟩, progress, spent⟩
        | none =>
            simp only [unknown] at first
            exact first

omit codec in
/-- Part of a payload read on leaves the reader ready to go on with it. -/
theorem Accepted.resumed {r : V1Reader E} {len : Fin (MAX_V1_PAYLOAD + 1)}
    {buf left frame left' : List UInt8} {answers answers' : List Chunks.Answer}
    (accepted : Accepted r.magic (buf.take 24) len)
    (kept : Kept (24 + len) buf left answers frame left' answers') (enough : 24 ≤ buf.length)
    (short : frame.length < 24 + len) :
    Ready { r with left := left', state := .payload (buf.take 24) len frame } := by
  have grows := kept.grows
  have start : buf.take 24 = frame.take 24 := by
    calc buf.take 24 = (buf ++ left).take 24 := (List.take_append_of_le_length enough).symm
      _ = (frame ++ left').take 24 := by rw [kept.items]
      _ = frame.take 24 := List.take_append_of_le_length (by omega)
  exact ⟨short, by omega, start, accepted.ours, accepted.declares⟩

theorem recvPayload_received {r : V1Reader E} {header buf : List UInt8}
    (len : Fin (MAX_V1_PAYLOAD + 1)) (answers : List Chunks.Answer)
    (accepted : Accepted r.magic (buf.take 24) len) (same : header = buf.take 24)
    (enough : 24 ≤ buf.length) (room : buf.length ≤ 24 + len) :
    Received codec r (buf ++ r.left) answers (recvPayload codec r header len buf answers) := by
  subst same
  have filled := fill_spec (24 + len) answers buf r.left room
  unfold recvPayload
  cases outcome : fill (24 + len) buf r.left answers with
  | full frame left answers' =>
      rw [outcome] at filled
      obtain ⟨kept, size, spent⟩ := filled
      have start : buf.take 24 = (buf ++ r.left).take 24 :=
        (List.take_append_of_le_length enough).symm
      have whole : frame = (buf ++ r.left).take (24 + len) := by
        rw [← kept.items, ← size, List.take_left]
      have rest : left = (buf ++ r.left).drop (24 + len) := by
        rw [← kept.items, ← size, List.drop_left]
      have long : 24 + len.val ≤ (buf ++ r.left).length := by
        rw [← kept.items, List.length_append]
        omega
      simp only
      rw [start] at accepted ⊢
      rw [whole]
      refine decode_received codec ⟨rfl, rfl⟩ accepted long rest kept.progress ?_
      rcases spent with fewer | ⟨-, rfl⟩
      · omega
      · exact le_rfl
  | ended frame answers' =>
      rw [outcome] at filled
      obtain ⟨all, short⟩ := filled
      have start : (buf ++ r.left).take 24 = buf.take 24 := List.take_append_of_le_length enough
      simp only [Received]
      rw [frame_accepted codec r.ending (by simp; omega) (start ▸ accepted), if_pos (by rwa [← all])]
  | dropped frame left answers' =>
      rw [outcome] at filled
      obtain ⟨kept, short, spent⟩ := filled
      have resumed := accepted.resumed kept enough short
      exact ⟨resumed, kept.items, ⟨rfl, rfl⟩, kept.progress, spent⟩
  | waiting frame left =>
      rw [outcome] at filled
      obtain ⟨kept, short⟩ := filled
      have resumed := accepted.resumed kept enough short
      refine ⟨resumed, kept.items, ⟨rfl, rfl⟩, ?_⟩
      have progress := kept.progress
      simp only [reads, Nat.zero_add] at progress
      exact progress

/-- What follows a header read in full is what the call comes to. -/
theorem Received.after_header {r read : V1Reader E} {stream : List UInt8}
    {answers answers' : List Chunks.Answer} {outcome : Recv M E × V1Reader E × List Chunks.Answer}
    (same : r.SameStream read)
    (progress : reads answers + read.left.length ≤ reads answers' + r.left.length)
    (spent : answers'.length ≤ answers.length)
    (received : Received codec read stream answers' outcome) :
    Received codec r stream answers outcome := by
  obtain ⟨magic, ending⟩ := same
  obtain ⟨result, r', answers''⟩ := outcome
  cases result with
  | message message =>
      obtain ⟨first, state, ⟨magic', ending'⟩, progress', spent'⟩ := received
      rw [magic, ending] at first
      exact ⟨first, state, ⟨magic'.trans magic, ending'.trans ending⟩, by omega, by omega⟩
  | failed error =>
      simp only [Received, magic, ending] at received ⊢
      exact received
  | dropped =>
      obtain ⟨ready, items, ⟨magic', ending'⟩, progress', spent'⟩ := received
      exact ⟨ready, items, ⟨magic'.trans magic, ending'.trans ending⟩, by omega, by omega⟩
  | waiting =>
      obtain ⟨ready, items, ⟨magic', ending'⟩, progress'⟩ := received
      exact ⟨ready, items, ⟨magic'.trans magic, ending'.trans ending⟩, by omega⟩

/-- A call of `recv` gives the first frame of what is pending, or leaves it pending. -/
theorem recv_received {r : V1Reader E} (ready : r.Ready) (answers : List Chunks.Answer) :
    Received codec r r.pending answers (recv codec r answers) := by
  unfold recv
  cases state : r.state with
  | payload header len buf =>
      simp only [Ready, state] at ready
      obtain ⟨short, enough, same, ours, declares⟩ := ready
      simp only [pending, buffered, state]
      have inside := len.isLt
      subst same
      exact recvPayload_received codec len answers ⟨ours, declares, by omega⟩ rfl enough (by omega)
  | header buf =>
      simp only [Ready, state] at ready
      simp only [pending, buffered, state]
      have filled := fill_spec 24 answers buf r.left (by omega)
      cases outcome : fill 24 buf r.left answers with
      | full header left answers' =>
          rw [outcome] at filled
          obtain ⟨kept, size, spent⟩ := filled
          have fewer : answers'.length ≤ answers.length := by
            rcases spent with fewer | ⟨-, rfl⟩
            · omega
            · omega
          have start : (header ++ left).take 24 = header := by
            rw [← size, List.take_left]
          have first : (header ++ left).take 4 = header.take 4 :=
            List.take_append_of_le_length (by omega)
          have long : ¬ (header ++ left).length < 24 := by
            rw [List.length_append]
            omega
          rw [← kept.items]
          simp only
          split
          · rename_i other
            simp only [Received]
            rw [frame, if_neg long, first, if_pos other]
          · rename_i ours
            split
            · rename_i inside
              have all : header.take 24 = header := by rw [← size, List.take_length]
              have accepted : Accepted r.magic (header.take 24) (payloadLen header) :=
                ⟨by rw [all]; exact not_not.mp ours, by rw [all], Nat.le_of_lt_succ inside⟩
              have payload := recvPayload_received codec
                (r := { r with left := left, state := .header header })
                ⟨payloadLen header, inside⟩ answers' accepted all.symm (by omega) (by simp [size])
              refine Received.after_header codec ?_ ?_ fewer payload
              · exact ⟨rfl, rfl⟩
              · exact kept.progress
            · rename_i outside
              simp only [Received]
              rw [frame, if_neg long, first, if_neg ours, start, if_pos (by omega)]
      | ended header answers' =>
          rw [outcome] at filled
          obtain ⟨all, short⟩ := filled
          simp only [Received]
          rw [frame, if_pos (by rwa [← all]), all]
      | dropped header left answers' =>
          rw [outcome] at filled
          obtain ⟨kept, short, spent⟩ := filled
          exact ⟨short, kept.items, ⟨rfl, rfl⟩, kept.progress, spent⟩
      | waiting header left =>
          rw [outcome] at filled
          obtain ⟨kept, short⟩ := filled
          refine ⟨short, kept.items, ⟨rfl, rfl⟩, ?_⟩
          have progress := kept.progress
          simp only [reads, Nat.zero_add] at progress
          exact progress

/-- What a reader has of the frame it is in is not the whole of it. -/
theorem Ready.unfinished {r : V1Reader E} (ready : r.Ready) : Unfinished r.magic r.buffered := by
  unfold buffered
  cases state : r.state with
  | header buf =>
      simp only [Ready, state] at ready
      exact .header ready
  | payload header len buf =>
      simp only [Ready, state] at ready
      obtain ⟨short, enough, rfl, ours, declares⟩ := ready
      obtain ⟨h, part, rfl⟩ := WireHeader.exists_append enough
      rw [List.take_left' h.length_bytes] at ours declares
      rw [h.payloadLen_bytes] at declares
      have magic := h.take_magic []
      rw [List.append_nil, ours] at magic
      rw [List.length_append, h.length_bytes] at short
      exact .payload h magic.symm (by omega) (by omega)

/-! ## Call after call -/

/-- What repeated calls come to: all the results of the stream, or the messages of some frames
    with what follows them still pending, for want of calls or of reads. -/
theorem recvs_received (calls : Nat) : ∀ {r : V1Reader E} (_ : r.Ready) (answers : List Chunks.Answer),
    (∃ messages error, (recvs codec calls r answers).1 = messages.map .ok ++ [.error error] ∧
      Parses codec r.magic r.ending r.pending messages error) ∨
      (∃ messages, (recvs codec calls r answers).1 = messages.map .ok ∧
        Frames codec r.magic r.ending r.pending messages (recvs codec calls r answers).2.pending ∧
          (recvs codec calls r answers).2.Ready ∧ r.SameStream (recvs codec calls r answers).2) ∧
        (calls ≤ answers.length + r.pending.length ∨ reads answers ≤ r.left.length) := by
  induction calls with
  | zero =>
      intro r ready answers
      exact .inr ⟨⟨[], rfl, .none, ready, rfl, rfl⟩, .inl (Nat.zero_le _)⟩
  | succ calls ih =>
      intro r ready answers
      have received := recv_received codec ready answers
      unfold recvs
      generalize recv codec r answers = outcome at received ⊢
      obtain ⟨result, r', answers'⟩ := outcome
      cases result with
      | failed error =>
          have begins : Begins codec r.magic r.ending r.pending (.error error) :=
            begins_of_frame received
          exact .inl ⟨[], error, rfl, r.pending, .none, begins⟩
      | message message =>
          obtain ⟨first, state, ⟨magic, ending⟩, progress, spent⟩ := received
          have all : r'.pending = r'.left := by simp [pending, buffered, state]
          have size := congrArg List.length all
          have ready' : r'.Ready := by simp [Ready, state]
          have begins := begins_of_frame first
          have shorter := begins_shorter begins
          rcases ih ready' answers' with ⟨messages, error, results, after, frames, ends⟩ |
            ⟨⟨messages, results, frames, further, magic', ending'⟩, short⟩
          · rw [magic, ending, all] at frames
            rw [magic, ending] at ends
            refine .inl ⟨message :: messages, error, ?_, after, .next begins frames, ends⟩
            simp only [results, List.map_cons, List.cons_append]
          · rw [magic, ending, all] at frames
            refine .inr ⟨⟨message :: messages, ?_, .next begins frames, further,
              magic'.trans magic, ending'.trans ending⟩, by omega⟩
            simp only [results, List.map_cons]
      | dropped =>
          obtain ⟨ready', items, ⟨magic, ending⟩, progress, spent⟩ := received
          rcases ih ready' answers' with ⟨messages, error, results, parses⟩ |
            ⟨⟨messages, results, frames, further, magic', ending'⟩, short⟩
          · rw [magic, ending, items] at parses
            exact .inl ⟨messages, error, results, parses⟩
          · rw [magic, ending, items] at frames
            rw [items] at short
            exact .inr ⟨⟨messages, results, frames, further, magic'.trans magic,
              ending'.trans ending⟩, by omega⟩
      | waiting =>
          obtain ⟨ready', items, same, progress⟩ := received
          refine .inr ⟨⟨[], rfl, ?_, ready', same⟩, by omega⟩
          rw [items]
          exact .none

/-- Whatever pieces a stream comes in and wherever calls are dropped, repeated calls give the
    one thing the stream comes to: its messages in order and the error behind them, once there
    were calls and reads enough. Until then they give the first of the messages, and what follows
    their frames is pending, with no more read of it than a part of the frame in progress. -/
theorem recvs_parses (magic stream : List UInt8) (ending : Option E) (calls : Nat)
    (answers : List Chunks.Answer) :
    ∃ messages error, Parses codec magic ending stream messages error ∧
      (∀ messages' error', Parses codec magic ending stream messages' error' →
        messages' = messages ∧ error' = error) ∧
      ((recvs codec calls (new magic stream ending) answers).1 =
          messages.map .ok ++ [.error error] ∨
        (∃ first more, messages = first ++ more ∧
          (recvs codec calls (new magic stream ending) answers).1 = first.map .ok ∧
          Frames codec magic ending stream first
            (recvs codec calls (new magic stream ending) answers).2.pending ∧
          Parses codec magic ending
            (recvs codec calls (new magic stream ending) answers).2.pending more error ∧
          Unfinished magic (recvs codec calls (new magic stream ending) answers).2.buffered) ∧
          (calls ≤ answers.length + stream.length ∨ reads answers ≤ stream.length)) := by
  have ready : (new magic stream ending).Ready := by simp [Ready, new]
  rcases recvs_received codec calls ready answers with ⟨messages, error, results, parses⟩ |
    ⟨⟨first, results, frames, further, same, _⟩, short⟩
  · exact ⟨messages, error, parses, fun _ _ => parses_unique parses, .inl results⟩
  · obtain ⟨more, error, parses⟩ := exists_parses codec magic ending
      (recvs codec calls (new magic stream ending) answers).2.pending
    have all : Parses codec magic ending stream (first ++ more) error := parses_append frames parses
    have unfinished := further.unfinished
    rw [same] at unfinished
    exact ⟨first ++ more, error, all, fun _ _ => parses_unique all,
      .inr ⟨⟨first, more, rfl, results, frames, parses, unfinished⟩, short⟩⟩

end V1Reader

end P2PObserver
