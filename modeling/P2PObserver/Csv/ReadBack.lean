import P2PObserver.Csv.Rows
import P2PObserver.Lib.Digits

/-! # What is logged reads back

Every cell but the block hash is text that reads as its value, whatever the event says. The hash is
written as it came, so a file of announcements reads back exactly when no hash has a character that
would end a field.
-/

namespace P2PObserver.Csv

open Rfc4180
open Decoded (TcpStats)

/-! ## Cells -/

theorem special_iff (char : Char) :
    special char = true ↔ char = '"' ∨ char = ',' ∨ char = '\n' ∨ char = '\r' := by
  simp only [special, Bool.or_eq_true, decide_eq_true_eq]
  have quoted : quote = '"' := rfl
  have comma' : comma = ',' := rfl
  have cr' : cr = '\r' := rfl
  have lf' : lf = '\n' := rfl
  rw [quoted, comma', cr', lf']
  tauto

theorem spells_escapeCsv (s : String) : Spells (escapeCsv s).toList s.toList := by
  unfold escapeCsv
  split
  · have text : ("\"" ++ String.ofList (s.toList.flatMap fun char =>
        if char = '"' then ['"', '"'] else [char]) ++ "\"").toList =
        quote :: doubled s.toList ++ [quote] := by
      simp only [String.toList_append, String.toList_ofList]
      rfl
    rw [text]
    exact spells_quoted s.toList
  · rename_i plain
    apply spells_plain
    intro char inside
    rw [Bool.not_eq_true, List.any_eq_false] at plain
    have absent := plain char inside
    rw [← Bool.not_eq_true, special_iff]
    simp at absent
    tauto

theorem plain_digit {char : Char} (digit : char.isDigit) : special char = false := by
  rw [← Bool.not_eq_true, special_iff]
  rintro (rfl | rfl | rfl | rfl) <;> exact absurd digit (by decide)

theorem spells_nat (n : Nat) : Spells (toString n).toList (toString n).toList :=
  spells_plain fun _ inside => plain_digit (Digits.toString_nat inside)

theorem spells_int (i : Int) : Spells (toString i).toList (toString i).toList := by
  apply spells_plain
  intro char inside
  rcases Digits.toString_int inside with rfl | digit
  · rfl
  · exact plain_digit digit

theorem spells_bool (b : Bool) : Spells (toString b).toList (toString b).toList := by
  have plain : (toString b).toList.all (!special ·) = true := by cases b <;> decide
  exact spells_plain fun char inside => by simpa using List.all_eq_true.mp plain char inside

theorem spells_empty : Spells [] [] := spells_plain (by simp)

/-- A number that may be absent. -/
theorem spells_absent {V : Type} {text : V → String}
    (shown : ∀ v, Spells (text v).toList (text v).toList) (v : Option V) :
    Spells ((v.map text).getD "").toList ((v.map text).getD "").toList := by
  cases v with
  | none => exact spells_empty
  | some v => exact shown v

/-! ## Rows -/

theorem tcpColumns_toList (stats : Option TcpStats) :
    (tcpColumns stats).toList = [comma].intercalate ((tcpCells stats).map Cell.text) := by
  cases stats with
  | none => rfl
  | some t =>
      simp only [tcpColumns, String.toList_intercalate]
      rfl

theorem spells_tcp (stats : Option TcpStats) :
    List.Forall₂ Spells ((tcpCells stats).map Cell.text) ((tcpCells stats).map Cell.text) := by
  have small := spells_absent fun n : UInt32 => spells_nat n.toNat
  have large := spells_absent fun n : UInt64 => spells_nat n.toNat
  cases stats with
  | none => simp [tcpCells, Cell.text, spells_empty]
  | some t =>
      simp only [tcpCells, Cell.text, List.map_cons, List.map_nil, List.forall₂_cons,
        Option.map_some, Option.bind_some, Option.getD_some, List.Forall₂.nil, and_true]
      exact ⟨spells_nat _, spells_nat _, spells_nat _, spells_nat _, small _, small _, small _,
        large _, large _⟩

/-- The five columns every event has. -/
def commonTexts (event : Decoded.PeerEvent) : List (List Char) :=
  [(toString event.connectionId).toList, (toString event.timestampMs).toList,
    (escapeCsv event.peerAddr).toList, (escapeCsv event.userAgent).toList,
    (opt event.transportVersion).toList]

theorem spells_common (event : Decoded.PeerEvent) :
    List.Forall₂ Spells (commonTexts event) ((commonCells event).map Cell.text) := by
  have version := spells_absent (fun n : UInt32 => spells_nat n.toNat) event.transportVersion
  simp only [commonTexts, commonCells, Cell.text, List.map_cons, List.map_nil, List.forall₂_cons,
    Option.getD_some, List.Forall₂.nil, and_true]
  exact ⟨spells_nat _, spells_nat _, spells_escapeCsv _, spells_escapeCsv _, version⟩

/-- The columns of an announcement between its hash and its TCP sample. -/
def shapeCells (blk : Decoded.BlockAnnouncement) : List Cell :=
  [("announcement_type", some (toString blk.announcementType)),
    ("batch_size", some (toString blk.batchSize)),
    ("height", blk.height.map toString),
    ("new_to_us", some (toString blk.newToUs)),
    ("short_ids", blk.compactBlock.map fun c => toString c.shortIds),
    ("prefilled_txs", blk.compactBlock.map fun c => toString c.prefilledTxs)]

theorem spells_shape (blk : Decoded.BlockAnnouncement) :
    List.Forall₂ Spells ((shapeCells blk).map Cell.text) ((shapeCells blk).map Cell.text) := by
  have height := spells_absent (fun n : UInt32 => spells_nat n.toNat) blk.height
  have ids := spells_absent (fun c : Decoded.CompactBlockShape => spells_nat c.shortIds.toNat)
    blk.compactBlock
  have txs := spells_absent (fun c : Decoded.CompactBlockShape => spells_nat c.prefilledTxs.toNat)
    blk.compactBlock
  simp only [shapeCells, Cell.text, List.map_cons, List.map_nil, List.forall₂_cons,
    Option.getD_some, List.Forall₂.nil, and_true]
  exact ⟨spells_int _, spells_nat _, height, spells_bool _, ids, txs⟩

/-- Columns joined beforehand are columns. -/
theorem intercalate_joined (sep : List Char) (texts : List (List Char)) {more : List (List Char)}
    (filled : more ≠ []) :
    sep.intercalate (texts ++ [sep.intercalate more]) = sep.intercalate (texts ++ more) := by
  induction texts with
  | nil => rw [List.nil_append, List.nil_append, List.intercalate_singleton]
  | cons text rest ih =>
      rw [List.cons_append, List.cons_append, List.intercalate_cons_of_ne_nil (by simp),
        List.intercalate_cons_of_ne_nil (by simp [filled]), ih]

theorem tcpCells_ne_nil (stats : Option TcpStats) : (tcpCells stats).map Cell.text ≠ [] := by
  simp [tcpCells]

theorem blockRow_toList (event : Decoded.PeerEvent) (blk : Decoded.BlockAnnouncement) :
    (blockRow event blk).toList = [comma].intercalate
      (commonTexts event ++ blk.blockHash.toList ::
        ((shapeCells blk).map Cell.text ++ (tcpCells blk.tcpStats).map Cell.text)) := by
  have ids : opt (blk.compactBlock.map (·.shortIds)) =
      (blk.compactBlock.map fun c => toString c.shortIds).getD "" := by
    rw [opt, Option.map_map]
    rfl
  have txs : opt (blk.compactBlock.map (·.prefilledTxs)) =
      (blk.compactBlock.map fun c => toString c.prefilledTxs).getD "" := by
    rw [opt, Option.map_map]
    rfl
  have joined := intercalate_joined [comma]
    (commonTexts event ++ blk.blockHash.toList :: (shapeCells blk).map Cell.text)
    (tcpCells_ne_nil blk.tcpStats)
  rw [List.append_assoc, List.append_assoc, List.cons_append, List.cons_append] at joined
  rw [← joined, ← tcpColumns_toList, blockRow, String.toList_intercalate, ids, txs]
  rfl

theorem pingRow_toList (event : Decoded.PeerEvent) (ping : Decoded.PingRtt) :
    (pingRow event ping).toList = [comma].intercalate
      (commonTexts event ++ (toString ping.rttMs).toList ::
        (tcpCells ping.tcpStats).map Cell.text) := by
  have joined := intercalate_joined [comma]
    (commonTexts event ++ [(toString ping.rttMs).toList]) (tcpCells_ne_nil ping.tcpStats)
  rw [List.append_assoc, List.append_assoc, List.singleton_append, List.singleton_append] at joined
  rw [← joined, ← tcpColumns_toList, pingRow, String.toList_intercalate]
  rfl

/-- A line of pings reads as its cells, and one of announcements where its hash is plain. -/
theorem line_ping (event : Decoded.PeerEvent) (ping : Decoded.PingRtt) :
    Line ((pingRow event ping).toList ++ [lf]) ((pingCells event ping).map Cell.text) := by
  rw [pingRow_toList]
  have cells : (pingCells event ping).map Cell.text = (commonCells event).map Cell.text ++
      (toString ping.rttMs).toList :: (tcpCells ping.tcpStats).map Cell.text := by
    simp [pingCells, Cell.text]
  rw [cells]
  refine line_intercalate ?_ (by simp)
  exact List.rel_append (spells_common event) (.cons (spells_nat _) (spells_tcp _))

theorem blockCells_text (event : Decoded.PeerEvent) (blk : Decoded.BlockAnnouncement) :
    (blockCells event blk).map Cell.text = (commonCells event).map Cell.text ++
      blk.blockHash.toList ::
        ((shapeCells blk).map Cell.text ++ (tcpCells blk.tcpStats).map Cell.text) := by
  simp [blockCells, shapeCells, Cell.text]

theorem line_block {event : Decoded.PeerEvent} {blk : Decoded.BlockAnnouncement}
    (plain : ∀ char ∈ blk.blockHash.toList, special char = false) :
    Line ((blockRow event blk).toList ++ [lf]) ((blockCells event blk).map Cell.text) := by
  rw [blockRow_toList, blockCells_text]
  refine line_intercalate ?_ (by simp)
  exact List.rel_append (spells_common event)
    (.cons (spells_plain plain) (List.rel_append (spells_shape blk) (spells_tcp _)))

/-- The record of an announcement that reads as its cells has a plain hash. -/
theorem plain_of_read {event : Decoded.PeerEvent} {blk : Decoded.BlockAnnouncement}
    {records others : List (List (List Char))} {rest : List Char}
    (read : ((Reader.fresh records []).run ((blockRow event blk).toList ++ [lf] ++ rest)).bind
      Reader.finish = some (records ++ (blockCells event blk).map Cell.text :: others)) :
    ∀ char ∈ blk.blockHash.toList, special char = false := by
  by_contra bad
  have special : ∃ char ∈ blk.blockHash.toList, special char = true := by
    simpa using bad
  have behind : (shapeCells blk).map Cell.text ++ (tcpCells blk.tcpStats).map Cell.text ≠ [] := by
    simp [shapeCells]
  rw [blockRow_toList, List.append_assoc, run_fields records (spells_common event) (by simp),
    List.intercalate_cons_of_ne_nil behind, List.append_assoc, List.append_assoc,
    List.singleton_append] at read
  obtain ⟨value, record, others', differs, split, there⟩ :=
    run_misread (by simp [commonCells]) special read
  rw [List.append_cancel_left_eq, List.cons.injEq] at split
  rw [← split.1, blockCells_text, List.nil_append, List.prefix_append_right_inj,
    List.cons_prefix_cons] at there
  exact differs there.1

/-! ## Files -/

def blockLines (events : List Decoded.PeerEvent) : List (List Char) :=
  events.filterMap fun event => match event.event with
    | some (.blockAnnouncement blk) => some ((blockRow event blk).toList ++ [lf])
    | _ => none

def pingLines (events : List Decoded.PeerEvent) : List (List Char) :=
  events.filterMap fun event => match event.event with
    | some (.pingRtt ping) => some ((pingRow event ping).toList ++ [lf])
    | _ => none

def blockNames : List String :=
  ["connection_id", "timestamp_ms", "peer_addr", "user_agent", "transport_version", "block_hash",
    "announcement_type", "batch_size", "height", "new_to_us", "short_ids", "prefilled_txs",
    "srtt_us", "rttvar_us", "total_retrans", "snd_cwnd", "min_rtt_us", "lost", "reordering",
    "delivery_rate", "bytes_received"]

def pingNames : List String :=
  ["connection_id", "timestamp_ms", "peer_addr", "user_agent", "transport_version", "rtt_ms",
    "srtt_us", "rttvar_us", "total_retrans", "snd_cwnd", "min_rtt_us", "lost", "reordering",
    "delivery_rate", "bytes_received"]

theorem line_names {names : List String} {text : String}
    (spelled : text = ",".intercalate names ++ "\n") (filled : names ≠ [])
    (plain : names.all (·.toList.all (!special ·)) = true) :
    Line text.toList (names.map String.toList) := by
  rw [spelled, String.toList_append, String.toList_intercalate]
  refine line_intercalate ?_ (by simpa using filled)
  rw [List.forall₂_map_left_iff, List.forall₂_map_right_iff, List.forall₂_same]
  intro name listed
  have here := List.all_eq_true.mp plain name listed
  exact spells_plain fun char inside => by simpa using List.all_eq_true.mp here char inside

theorem line_blockNames :
    Line (CsvLogger.new.blockWriter.toList) (blockNames.map String.toList) :=
  line_names (by decide +kernel) (by simp [blockNames]) (by decide +kernel)

theorem line_pingNames :
    Line (CsvLogger.new.pingWriter.toList) (pingNames.map String.toList) :=
  line_names (by decide +kernel) (by simp [pingNames]) (by decide +kernel)

theorem foldl_handle (events : List Decoded.PeerEvent) : ∀ logger : CsvLogger,
    (events.foldl CsvLogger.handle logger).blockWriter.toList =
        logger.blockWriter.toList ++ (blockLines events).flatten ∧
      (events.foldl CsvLogger.handle logger).pingWriter.toList =
        logger.pingWriter.toList ++ (pingLines events).flatten := by
  induction events with
  | nil => simp [blockLines, pingLines]
  | cons event rest ih =>
      intro logger
      obtain ⟨blocks, pings⟩ := ih (logger.handle event)
      rw [List.foldl_cons, blocks, pings]
      have feed : "\n".toList = [lf] := rfl
      cases kind : event.event with
      | none => simp [CsvLogger.handle, blockLines, pingLines, kind]
      | some variant =>
          cases variant <;>
            simp [CsvLogger.handle, CsvLogger.writePingRtt, CsvLogger.writeBlockAnnouncement,
              blockLines, pingLines, kind, feed]

/-! ## Reading back -/

theorem pingRows_named (events : List Decoded.PeerEvent) :
    ∀ row ∈ pingRows events, row.map Prod.fst = pingNames := by
  intro row listed
  obtain ⟨event, -, made⟩ := List.mem_filterMap.mp listed
  split at made <;> cases made
  rfl

theorem blockRows_named (events : List Decoded.PeerEvent) :
    ∀ row ∈ blockRows events, row.map Prod.fst = blockNames := by
  intro row listed
  obtain ⟨event, -, made⟩ := List.mem_filterMap.mp listed
  split at made <;> cases made
  rfl

theorem lines_pings (events : List Decoded.PeerEvent) :
    List.Forall₂ Line (pingLines events) ((pingRows events).map fun row => row.map Cell.text) := by
  induction events with
  | nil => exact .nil
  | cons event rest ih =>
      by_cases pinged : ∃ ping, event.event = some (.pingRtt ping)
      · obtain ⟨ping, kind⟩ := pinged
        simp only [pingLines, pingRows, List.filterMap_cons, kind, List.map_cons]
        exact .cons (line_ping event ping) ih
      · have skipped : pingLines (event :: rest) = pingLines rest ∧
            pingRows (event :: rest) = pingRows rest := by
          simp only [pingLines, pingRows, List.filterMap_cons]
          grind
        rwa [skipped.1, skipped.2]

/-- The file of pings reads back, whatever the events say. -/
theorem pings_read (events : List Decoded.PeerEvent) :
    ReadsAs (CsvLogger.logged events).pingWriter pingNames (pingRows events) := by
  refine ⟨pingRows_named events, ?_⟩
  rw [CsvLogger.logged, (foldl_handle events CsvLogger.new).2, ← List.flatten_cons]
  exact read_lines (.cons line_pingNames (lines_pings events))

/-- Every announced hash is plain. -/
def PlainHashes (events : List Decoded.PeerEvent) : Prop :=
  ∀ event ∈ events, ∀ blk, event.event = some (.blockAnnouncement blk) →
    ∀ char ∈ blk.blockHash.toList, special char = false

theorem PlainHashes.cons_iff (event : Decoded.PeerEvent) (rest : List Decoded.PeerEvent) :
    PlainHashes (event :: rest) ↔ (∀ blk, event.event = some (.blockAnnouncement blk) →
      ∀ char ∈ blk.blockHash.toList, special char = false) ∧ PlainHashes rest :=
  List.forall_mem_cons

theorem blockLines_skip {event : Decoded.PeerEvent} {rest : List Decoded.PeerEvent}
    (other : ¬∃ blk, event.event = some (.blockAnnouncement blk)) :
    blockLines (event :: rest) = blockLines rest ∧ blockRows (event :: rest) = blockRows rest := by
  simp only [blockLines, blockRows, List.filterMap_cons]
  cases kind : event.event with
  | none => exact ⟨rfl, rfl⟩
  | some said =>
      cases said with
      | blockAnnouncement blk => exact absurd ⟨blk, kind⟩ other
      | _ => exact ⟨rfl, rfl⟩

/-- What follows the records reads as the announcements exactly when their hashes are plain. -/
theorem run_blocks_iff (events : List Decoded.PeerEvent) : ∀ records,
    ((Reader.fresh records []).run (blockLines events).flatten).bind Reader.finish =
        some (records ++ (blockRows events).map fun row => row.map Cell.text) ↔
      PlainHashes events := by
  induction events with
  | nil => simp [blockLines, blockRows, PlainHashes, Reader.run, Reader.finish, Reader.fresh]
  | cons event rest ih =>
      intro records
      rw [PlainHashes.cons_iff]
      by_cases announced : ∃ blk, event.event = some (.blockAnnouncement blk)
      · obtain ⟨blk, kind⟩ := announced
        have lines : (blockLines (event :: rest)).flatten =
            (blockRow event blk).toList ++ [lf] ++ (blockLines rest).flatten := by
          simp only [blockLines, List.filterMap_cons, kind, List.flatten_cons]
        have rows : (blockRows (event :: rest)).map (fun row => row.map Cell.text) =
            (blockCells event blk).map Cell.text ::
              (blockRows rest).map fun row => row.map Cell.text := by
          simp only [blockRows, List.filterMap_cons, kind, List.map_cons]
        have hashes : (∀ blk', event.event = some (.blockAnnouncement blk') →
            ∀ char ∈ blk'.blockHash.toList, special char = false) ↔
              ∀ char ∈ blk.blockHash.toList, special char = false := by
          rw [kind]
          simp
        have split := List.append_cons records ((blockCells event blk).map Cell.text)
          ((blockRows rest).map fun row => row.map Cell.text)
        rw [lines, rows, hashes]
        have onward (plain : ∀ char ∈ blk.blockHash.toList, special char = false) :
            (Reader.fresh records []).run ((blockRow event blk).toList ++ [lf] ++
              (blockLines rest).flatten) =
            (Reader.fresh (records ++ [(blockCells event blk).map Cell.text]) []).run
              (blockLines rest).flatten := by
          rw [Reader.run_append, line_block plain, Option.bind_some]
        constructor
        · intro read
          have plain := plain_of_read read
          rw [onward plain, split] at read
          exact ⟨plain, (ih _).mp read⟩
        · rintro ⟨plain, later⟩
          rw [onward plain, split]
          exact (ih _).mpr later
      · have skipped := @blockLines_skip event rest announced
        have no_block (blk : Decoded.BlockAnnouncement) :
            event.event ≠ some (.blockAnnouncement blk) := fun kind => announced ⟨blk, kind⟩
        rw [skipped.1, skipped.2, ih]
        exact ⟨fun later => ⟨fun blk kind => absurd kind (no_block blk), later⟩, fun both => both.2⟩

theorem blocks_read_iff (events : List Decoded.PeerEvent) :
    ReadsAs (CsvLogger.logged events).blockWriter blockNames (blockRows events) ↔
      PlainHashes events := by
  rw [ReadsAs, and_iff_right (blockRows_named events), CsvLogger.logged,
    (foldl_handle events CsvLogger.new).1, Rfc4180.read, Reader.run_append]
  have header : Reader.new.run CsvLogger.new.blockWriter.toList =
      some (Reader.fresh [blockNames.map String.toList] []) := line_blockNames []
  rw [header, Option.bind_some]
  exact run_blocks_iff events [blockNames.map String.toList]

/-- Both files read back exactly when no announced hash has a character a field is quoted for. -/
theorem reads_back_iff (events : List Decoded.PeerEvent) :
    (ReadsAs (CsvLogger.logged events).pingWriter pingNames (pingRows events) ∧
      ReadsAs (CsvLogger.logged events).blockWriter blockNames (blockRows events)) ↔
        PlainHashes events := by
  rw [and_iff_right (pings_read events), blocks_read_iff]

/-! ## A hash with a comma -/

def torn : Decoded.PeerEvent :=
  { connectionId := 1
    timestampMs := 0
    peerAddr := "1.2.3.4:8333"
    userAgent := "/Satoshi:29.0.0/"
    transportVersion := some 2
    droppedEvents := 0
    droppedByKind := none
    event := some (.blockAnnouncement
      { blockHash := "00,01"
        announcementType := 1
        tcpStats := none
        batchSize := 1
        height := none
        newToUs := false
        compactBlock := none
        unplaced := none }) }

theorem torn_hash : ¬∀ events : List Decoded.PeerEvent,
    ReadsAs (CsvLogger.logged events).pingWriter pingNames (pingRows events) ∧
      ReadsAs (CsvLogger.logged events).blockWriter blockNames (blockRows events) := by
  intro all
  have plain := (blocks_read_iff [torn]).mp (all [torn]).2
  exact absurd (plain torn List.mem_cons_self _ rfl ',' (by decide)) (by decide)

end P2PObserver.Csv
