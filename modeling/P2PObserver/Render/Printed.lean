import Mathlib.Algebra.Ring.Int.Defs
import P2PObserver.Render.EventLine

/-! # A rendered event is one line

Each part of a line is free of control characters, whatever it renders: texts from the wire go
through the escaper or come out quoted, and the rest are names and numbers.
-/

namespace P2PObserver

namespace Render

open Decoded (TcpStats)

/-- Text without a control character. -/
def Printed (s : String) : Prop := ∀ char ∈ s.toList, isControl char = false

theorem printed_iff (s : String) : s.toList.all (!isControl ·) = true ↔ Printed s := by
  simp [Printed]

instance (s : String) : Decidable (Printed s) := decidable_of_iff _ (printed_iff s)

/-! ## Parts -/

@[simp] theorem printed_append (s t : String) : Printed (s ++ t) ↔ Printed s ∧ Printed t := by
  simp [Printed, or_imp, forall_and]

@[simp] theorem printed_empty : Printed "" := by simp [Printed]

theorem printed_intercalate {sep : String} {parts : List String} (between : Printed sep)
    (all : ∀ part ∈ parts, Printed part) : Printed (sep.intercalate parts) := by
  induction parts with
  | nil => simp
  | cons part rest ih =>
      obtain ⟨here, later⟩ := List.forall_mem_cons.mp all
      cases rest with
      | nil => simpa using here
      | cons next rest => simpa [here, between] using ih later

theorem digit_printed {char : Char} (digit : char.isDigit) : isControl char = false := by
  have bounds := Char.isDigit_iff_toNat.mp digit
  have low : '0'.toNat = 48 := rfl
  have high : '9'.toNat = 57 := rfl
  simp only [isControl, Bool.or_eq_false_iff, decide_eq_false_iff_not, Bool.and_eq_false_iff]
  omega

@[simp] theorem printed_nat (n : Nat) : Printed (toString n) := fun _ inside =>
  digit_printed (Digits.toString_nat inside)

@[simp] theorem printed_repr (n : Nat) : Printed n.repr := printed_nat n

@[simp] theorem printed_int (i : Int) : Printed (toString i) := by
  intro char inside
  rcases Digits.toString_int inside with rfl | digit
  · rfl
  · exact digit_printed digit

@[simp] theorem printed_uint32 (n : UInt32) : Printed (toString n) := printed_nat n.toNat

@[simp] theorem printed_uint64 (n : UInt64) : Printed (toString n) := printed_nat n.toNat

@[simp] theorem printed_int32 (i : Int32) : Printed (toString i) := printed_int i.toInt

@[simp] theorem printed_int64 (i : Int64) : Printed (toString i) := printed_int i.toInt

@[simp] theorem printed_bool (b : Bool) : Printed (toString b) := by cases b <;> decide

@[simp] theorem printed_oneLine (s : String) : Printed (oneLine s) := by
  rw [Printed, oneLine_toList]
  exact escaped_printed s.toList

@[simp] theorem printed_hex (n : UInt64) : Printed (hex n) := by
  have digits : Printed (String.ofList (Nat.toDigits 16 n.toNat)) := by
    intro char inside
    rw [String.toList_ofList] at inside
    exact digits_printed n.toNat char inside
  simp +decide [hex, digits]

theorem printed_counted {name : String} (plain : Printed name) (n : UInt32) :
    Printed (counted name n) := by
  unfold counted
  split <;> simp +decide [plain]

/-- A name of an enumeration, or the number. -/
theorem printed_named {names : EnumNames} (plain : ∀ name ∈ names, Printed name) (raw : Int32) :
    Printed (named raw (tryFrom names raw)) := by
  cases found : tryFrom names raw with
  | none => simp +decide [named]
  | some name =>
      unfold tryFrom at found
      split at found
      · cases found
      · exact plain name (List.mem_of_getElem? found)

@[simp] theorem printed_transport (version : Option UInt32) : Printed (transport version) := by
  cases version <;> simp +decide [transport]

theorem printed_measured {V : Type} [ToString V] {name unit : String} (plain : Printed name)
    (plain' : Printed unit) (shown : ∀ v : V, Printed (toString v)) (v : Option V) :
    Printed (measured name v unit) := by
  cases v <;> simp +decide [measured, plain, plain', shown]

@[simp] theorem printed_tcp (stats : Option TcpStats) : Printed (tcp stats) := by
  cases stats with
  | none => simp [tcp]
  | some t =>
      have small {name unit : String} (plain : Printed name) (plain' : Printed unit) :=
        printed_measured plain plain' printed_uint32
      have large {name unit : String} (plain : Printed name) (plain' : Printed unit) :=
        printed_measured plain plain' printed_uint64
      simp +decide [tcp, small, large]

/-! ## Lines -/

theorem printed_blockLine (event : Decoded.PeerEvent) (blk : Decoded.BlockAnnouncement) :
    Printed (blockLine event blk) := by
  have atype := printed_named (by decide : ∀ name ∈ announcementType, Printed name)
    blk.announcementType
  have reason := printed_named (by decide : ∀ name ∈ unplaced, Printed name)
  cases height : blk.height <;> cases why : blk.unplaced <;> cases shape : blk.compactBlock <;>
    cases fresh : blk.newToUs <;> by_cases batch : 1 < blk.batchSize <;>
      simp +decide [blockLine, origin, height, why, shape, fresh, batch, atype, reason]

theorem printed_probeLine (event : Decoded.PeerEvent) (probe : Decoded.CompactBlockProbe) :
    Printed (probeLine event probe) := by
  have stage := printed_named (by decide : ∀ name ∈ probeStage, Printed name) probe.stage
  simp +decide [probeLine, origin, stage]

theorem printed_feeFilterLine (event : Decoded.PeerEvent) (f : FeeFilter) :
    Printed (feeFilterLine event f) := by
  simp +decide [feeFilterLine, origin]

theorem printed_sendCmpctLine (event : Decoded.PeerEvent) (s : SendCmpct) :
    Printed (sendCmpctLine event s) := by
  simp +decide [sendCmpctLine, origin]

theorem printed_disconnectedDetail (d : Decoded.Disconnected) :
    Printed (disconnectedDetail d) := by
  have reason := printed_named (by decide : ∀ name ∈ disconnectReason, Printed name) d.reason
  have messages : Printed (" ".intercalate (((byCommand d.messagesByCommand).take 5).map fun e =>
      String.join [oneLine e.1, "=", toString e.2])) := by
    apply printed_intercalate (by decide)
    intro part listed
    obtain ⟨e, -, rfl⟩ := List.mem_map.mp listed
    simp +decide
  have pongs := printed_counted (by decide : Printed "unsolicited_pongs") d.unsolicitedPongs
  have undecodable := printed_counted (by decide : Printed "undecodable") d.undecodable
  have ignored := printed_counted (by decide : Printed "getheaders_ignored") d.getheadersIgnored
  have others := printed_counted (by decide : Printed "msgs_other") d.messagesOther
  simp only [disconnectedDetail]
  generalize " ".intercalate _ = listed at messages ⊢
  simp +decide [reason, messages, pongs, undecodable, ignored, others]

theorem printed_byKind (dropped : Option DroppedEvents) : Printed (byKind dropped) := by
  cases dropped with
  | none => simp [byKind]
  | some d =>
      have lost : Printed (" ".intercalate ((Kind.all.filter fun kind => 0 < d kind).map
          fun kind => String.join [kindName kind, "=", toString (d kind)])) := by
        apply printed_intercalate (by decide)
        intro part listed
        obtain ⟨kind, -, rfl⟩ := List.mem_map.mp listed
        have name : Printed (kindName kind) := by cases kind <;> decide
        simp +decide [name]
      simp only [byKind]
      split
      · simp
      · generalize " ".intercalate _ = listed at lost ⊢
        simp +decide [lost]

theorem join_ne_empty {first : String} (filled : first ≠ "") (rest : List String) :
    String.join (first :: rest) ≠ "" := by
  rw [String.join_cons]
  intro empty
  exact filled (String.append_eq_empty_iff.mp empty).1

theorem origin_ne_empty (event : Decoded.PeerEvent) : origin event ≠ "" :=
  join_ne_empty (by decide) _

/-- The difference of the two clocks, held to the bounds of its type. -/
theorem skew_toInt (event : Decoded.PeerEvent) (hs : Decoded.Handshake) :
    (skew event hs).toInt = max (-2 ^ 63) (min (2 ^ 63 - 1)
      (hs.peerTimestamp.toInt - (event.timestampMs.toNat / 1000 : Nat))) := by
  have ours : (event.timestampMs / 1000).toInt64.toInt =
      (event.timestampMs.toNat / 1000 : Nat) := by
    have below := event.timestampMs.toNat_lt
    have seconds : (event.timestampMs / 1000).toBitVec.toNat = event.timestampMs.toNat / 1000 := rfl
    rw [Int64.toInt, UInt64.toBitVec_toInt64, BitVec.toInt_eq_toNat_cond, seconds,
      if_pos (by omega)]
  have low : Int64.minValue.toInt = -2 ^ 63 := rfl
  have high : Int64.maxValue.toInt = 2 ^ 63 - 1 := rfl
  unfold skew saturatingSub
  rw [ours, low, high]
  dsimp only
  generalize hs.peerTimestamp.toInt - (event.timestampMs.toNat / 1000 : Nat) = difference
  split
  · rw [low]
    omega
  · split
    · rw [high]
      omega
    · rw [Int64.toInt_ofInt_of_le (by omega) (by omega)]
      omega

section Quoted

variable [DebugText]

@[simp] theorem printed_debug (s : String) : Printed (DebugText.debug s) :=
  DebugText.debug_printed s

@[simp] theorem printed_fixed1 (x : Float) : Printed (DebugText.fixed1 x) :=
  DebugText.fixed1_printed x

theorem printed_handshakeLine (event : Decoded.PeerEvent) (hs : Decoded.Handshake) :
    Printed (handshakeLine event hs) := by
  simp +decide only [handshakeLine, origin]
  split <;> simp +decide

theorem printed_pingLine (event : Decoded.PeerEvent) (ping : Decoded.PingRtt) :
    Printed (pingLine event ping) := by
  simp +decide [pingLine, origin]

theorem printed_addressLine (event : Decoded.PeerEvent) (ann : Decoded.AddressAnnouncement) :
    Printed (addressLine event ann) := by
  have message := printed_named (by decide : ∀ name ∈ addrMessage, Printed name) ann.message
  by_cases unparsed : 0 < ann.unparsed <;> by_cases limited : 0 < ann.rateLimited <;>
    simp +decide [addressLine, origin, message, unparsed, limited]

theorem printed_resultLine (event : Decoded.PeerEvent) (result : Option Decoded.Attempt) :
    Printed (resultLine event result) := by
  have failed := printed_named (by decide : ∀ name ∈ failureReason, Printed name)
  have fault := printed_named (by decide : ∀ name ∈ ourFaultReason, Printed name)
  have detail : Printed (resultDetail result) := by
    match result with
    | some (.disconnected d) => exact printed_disconnectedDetail d
    | some (.failed reason setupMs) => simp +decide [resultDetail, failed]
    | some (.ourFault reason setupMs) => simp +decide [resultDetail, fault]
    | none => decide
  simp +decide [resultLine, origin, detail]

/-- Every event renders as one line: some text, without a control character, and the one number
    computed of a peer's is exact up to the bounds of its type. -/
theorem eventLine_one_line (event : Decoded.PeerEvent) :
    eventLine event ≠ "" ∧ Printed (eventLine event) ∧ ∀ hs : Decoded.Handshake,
      (skew event hs).toInt = max (-2 ^ 63) (min (2 ^ 63 - 1)
        (hs.peerTimestamp.toInt - (event.timestampMs.toNat / 1000 : Nat))) := by
  have shown (rest : List String) := join_ne_empty (origin_ne_empty event) rest
  rw [← and_assoc]
  refine ⟨?_, skew_toInt event⟩
  unfold eventLine
  extract_lets line
  have own : line ≠ "" ∧ Printed line := by
    unfold line
    split
    · exact ⟨shown _, printed_handshakeLine event _⟩
    · exact ⟨shown _, printed_pingLine event _⟩
    · exact ⟨shown _, printed_blockLine event _⟩
    · exact ⟨shown _, printed_probeLine event _⟩
    · exact ⟨shown _, printed_feeFilterLine event _⟩
    · exact ⟨shown _, printed_sendCmpctLine event _⟩
    · exact ⟨shown _, printed_addressLine event _⟩
    · exact ⟨shown _, printed_resultLine event _⟩
    · exact ⟨fun empty => absurd (String.append_eq_empty_iff.mp empty).1 (by decide), by simp +decide⟩
  clear_value line
  split
  · exact ⟨join_ne_empty own.1 _, by simp +decide [own.2, printed_byKind]⟩
  · exact own

end Quoted

/-- Quotes around the escaped text, and every number as zero. -/
@[reducible] def plainDebug : DebugText where
  debug s := String.join ["\"", oneLine s, "\""]
  fixed1 _ := "0.0"
  debug_printed s := by
    have quoted : Printed (String.join ["\"", oneLine s, "\""]) := by simp +decide
    exact quoted
  fixed1_printed _ := by
    have zero : Printed "0.0" := by decide
    exact zero

/-- A version message that would clear the line and begin another, from the earliest time there
    is. -/
def forgedHandshake : Decoded.Handshake :=
  { protocolVersion := 70016
    services := 1033
    startHeight := -1
    relay := true
    peerTimestamp := Int64.minValue
    addrRecv := "10.0.0.1:8333\r"
    sendaddrv2 := true
    wtxidRelay := true
    userAgent := "/Satoshi:29.0.0/\x1b[2K\nconn=2 peer=6.6.6.6:8333" }

/-- And an address that would do the same. -/
def forged : Decoded.PeerEvent :=
  { connectionId := 1
    timestampMs := 1760000000000
    peerAddr := "1.2.3.4:8333\nconn=2 peer=6.6.6.6:8333"
    userAgent := ""
    transportVersion := some 2
    droppedEvents := 3
    droppedByKind := none
    event := some (.handshake forgedHandshake) }

theorem forged_one_line :
    letI := plainDebug
    eventLine forged ≠ "" ∧ Printed (eventLine forged) ∧
      (skew forged forgedHandshake).toInt = -2 ^ 63 := by
  obtain ⟨shown, printed, computed⟩ := @eventLine_one_line plainDebug forged
  refine ⟨shown, printed, ?_⟩
  rw [computed forgedHandshake]
  decide

end Render

end P2PObserver
