import P2PObserver.Decoded
import P2PObserver.Lib.Rfc4180

/-! # The CSV logger

One file of block announcements and one of pings, a header row and then a row an event.
-/

namespace P2PObserver.Csv

open Decoded (TcpStats)

def COMMON_HEADER : String := "connection_id,timestamp_ms,peer_addr,user_agent,transport_version"

def TCP_STATS_HEADER : String := "srtt_us,rttvar_us,total_retrans,snd_cwnd,min_rtt_us,lost," ++
  "reordering,delivery_rate,bytes_received"

def BLOCK_SPECIFIC_HEADER : String :=
  "block_hash,announcement_type,batch_size,height,new_to_us,short_ids,prefilled_txs"

def PING_SPECIFIC_HEADER : String := "rtt_ms"

structure CsvLogger where
  blockWriter : String
  pingWriter : String

/-- An optional value, an empty cell where it is absent. -/
def opt {V : Type} [ToString V] (v : Option V) : String := (v.map toString).getD ""

/-- The TCP sample as its columns. -/
def tcpColumns : Option TcpStats → String
  | none => String.ofList (List.replicate 8 ',')
  | some t => ",".intercalate
      [toString t.srttUs, toString t.rttvarUs, toString t.totalRetrans, toString t.sndCwnd,
        opt t.minRttUs, opt t.lost, opt t.reordering, opt t.deliveryRate, opt t.bytesReceived]

/-- A field quoted if it holds anything that would end the field or the record. -/
def escapeCsv (s : String) : String :=
  if s.toList.any [',', '"', '\n', '\r'].contains then
    "\"" ++
      String.ofList (s.toList.flatMap fun char => if char = '"' then ['"', '"'] else [char]) ++ "\""
  else s

/-- What `write_block_announcement` writes on its line. -/
def blockRow (event : Decoded.PeerEvent) (blk : Decoded.BlockAnnouncement) : String :=
  ",".intercalate
    [toString event.connectionId, toString event.timestampMs, escapeCsv event.peerAddr,
      escapeCsv event.userAgent, opt event.transportVersion, blk.blockHash,
      toString blk.announcementType, toString blk.batchSize, opt blk.height, toString blk.newToUs,
      opt (blk.compactBlock.map (·.shortIds)), opt (blk.compactBlock.map (·.prefilledTxs)),
      tcpColumns blk.tcpStats]

/-- What `write_ping_rtt` writes on its line. -/
def pingRow (event : Decoded.PeerEvent) (ping : Decoded.PingRtt) : String :=
  ",".intercalate
    [toString event.connectionId, toString event.timestampMs, escapeCsv event.peerAddr,
      escapeCsv event.userAgent, opt event.transportVersion, toString ping.rttMs,
      tcpColumns ping.tcpStats]

namespace CsvLogger

def writeHeaders (logger : CsvLogger) : CsvLogger where
  blockWriter := logger.blockWriter ++
    (",".intercalate [COMMON_HEADER, BLOCK_SPECIFIC_HEADER, TCP_STATS_HEADER] ++ "\n")
  pingWriter := logger.pingWriter ++
    (",".intercalate [COMMON_HEADER, PING_SPECIFIC_HEADER, TCP_STATS_HEADER] ++ "\n")

def writeBlockAnnouncement (logger : CsvLogger) (event : Decoded.PeerEvent)
    (blk : Decoded.BlockAnnouncement) : CsvLogger :=
  { logger with blockWriter := logger.blockWriter ++ (blockRow event blk ++ "\n") }

def writePingRtt (logger : CsvLogger) (event : Decoded.PeerEvent) (ping : Decoded.PingRtt) :
    CsvLogger :=
  { logger with pingWriter := logger.pingWriter ++ (pingRow event ping ++ "\n") }

def new : CsvLogger := writeHeaders ⟨"", ""⟩

/-- One message of the subscription; the other kinds of event are not logged. -/
def handle (logger : CsvLogger) (event : Decoded.PeerEvent) : CsvLogger :=
  match event.event with
  | some (.pingRtt ping) => logger.writePingRtt event ping
  | some (.blockAnnouncement blk) => logger.writeBlockAnnouncement event blk
  | _ => logger

def logged (events : List Decoded.PeerEvent) : CsvLogger := events.foldl handle new

end CsvLogger

/-! ## What the columns say -/

/-- A name and its value, where there is one. -/
abbrev Cell := String × Option String

def commonCells (event : Decoded.PeerEvent) : List Cell :=
  [("connection_id", some (toString event.connectionId)),
    ("timestamp_ms", some (toString event.timestampMs)),
    ("peer_addr", some event.peerAddr),
    ("user_agent", some event.userAgent),
    ("transport_version", event.transportVersion.map toString)]

def tcpCells (stats : Option TcpStats) : List Cell :=
  [("srtt_us", stats.map fun t => toString t.srttUs),
    ("rttvar_us", stats.map fun t => toString t.rttvarUs),
    ("total_retrans", stats.map fun t => toString t.totalRetrans),
    ("snd_cwnd", stats.map fun t => toString t.sndCwnd),
    ("min_rtt_us", stats.bind fun t => t.minRttUs.map toString),
    ("lost", stats.bind fun t => t.lost.map toString),
    ("reordering", stats.bind fun t => t.reordering.map toString),
    ("delivery_rate", stats.bind fun t => t.deliveryRate.map toString),
    ("bytes_received", stats.bind fun t => t.bytesReceived.map toString)]

def blockCells (event : Decoded.PeerEvent) (blk : Decoded.BlockAnnouncement) : List Cell :=
  commonCells event ++
    [("block_hash", some blk.blockHash),
      ("announcement_type", some (toString blk.announcementType)),
      ("batch_size", some (toString blk.batchSize)),
      ("height", blk.height.map toString),
      ("new_to_us", some (toString blk.newToUs)),
      ("short_ids", blk.compactBlock.map fun c => toString c.shortIds),
      ("prefilled_txs", blk.compactBlock.map fun c => toString c.prefilledTxs)] ++
    tcpCells blk.tcpStats

def pingCells (event : Decoded.PeerEvent) (ping : Decoded.PingRtt) : List Cell :=
  commonCells event ++ [("rtt_ms", some (toString ping.rttMs))] ++ tcpCells ping.tcpStats

/-- The rows of block announcements, and of pings. -/
def blockRows (events : List Decoded.PeerEvent) : List (List Cell) :=
  events.filterMap fun event => match event.event with
    | some (.blockAnnouncement blk) => some (blockCells event blk)
    | _ => none

def pingRows (events : List Decoded.PeerEvent) : List (List Cell) :=
  events.filterMap fun event => match event.event with
    | some (.pingRtt ping) => some (pingCells event ping)
    | _ => none

/-- A value as it is read, empty where there is none. -/
def Cell.text (cell : Cell) : List Char := (cell.2.getD "").toList

/-- A file that reads as a header with the names, and a record a row with its values under them. -/
def ReadsAs (file : String) (names : List String) (rows : List (List Cell)) : Prop :=
  (∀ row ∈ rows, row.map Prod.fst = names) ∧
    Rfc4180.read file.toList =
      some (names.map String.toList :: rows.map fun row => row.map Cell.text)

end P2PObserver.Csv
