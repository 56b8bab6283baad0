import P2PObserver.Lib.HashMap
import P2PObserver.Lib.Lineage
import P2PObserver.HeaderTree.Basic
import P2PObserver.HeaderTree.Networks
import P2PObserver.HeaderTree.Insert
import P2PObserver.HeaderTree.Frame
import P2PObserver.HeaderTree.Forest
import P2PObserver.HeaderTree.Represents
import P2PObserver.HeaderTree.Refinement
import P2PObserver.HeaderTree.Accept
import P2PObserver.HeaderTree.Invariant
import P2PObserver.HeaderTree.Delivered
import P2PObserver.HeaderTree.Mined
import P2PObserver.HeaderTree.Refusals
import P2PObserver.HeaderTree.ProofOfWork
import P2PObserver.HeaderTree.Persist
import P2PObserver.HeaderTree.Reload
import P2PObserver.Addresses.Banlist
import P2PObserver.Addresses.Book
import P2PObserver.Lib.Run
import P2PObserver.Addresses.Manager
import P2PObserver.Addresses.Pick
import P2PObserver.Addresses.Ceiling
import P2PObserver.Addresses.Tasks
import P2PObserver.Events
import P2PObserver.Emit.Send
import P2PObserver.Emit.History
import P2PObserver.Emit.Stamps
import P2PObserver.Websocket.Server
import P2PObserver.Websocket.Effects
import P2PObserver.Websocket.Order
import P2PObserver.Lib.Chunks
import P2PObserver.Transport.V1Reader
import P2PObserver.Transport.Wire
import P2PObserver.Transport.Framing
import P2PObserver.Archive.Archiver
import P2PObserver.Archive.Pings
import P2PObserver.Archive.Reader
import P2PObserver.Archive.RoundTrip
import P2PObserver.Addresses.Base32
import P2PObserver.Addresses.Text
import P2PObserver.Addresses.ParseDisplay
import P2PObserver.Addresses.PlainText
import P2PObserver.Addresses.Bans
import P2PObserver.HeaderTree.Verdicts
import P2PObserver.Lib.TokenBucket
import P2PObserver.Protocol.Connection
import P2PObserver.Protocol.GossipRate
import P2PObserver.HeaderTree.Locator
import P2PObserver.Lib.Program
import P2PObserver.Protocol.Errors
import P2PObserver.Protocol.Session
import P2PObserver.Protocol.Attempt
import P2PObserver.Protocol.InSession
import P2PObserver.Protocol.Ledger
import P2PObserver.Protocol.Dialled
import P2PObserver.Protocol.V1Only
import P2PObserver.Protocol.Grammar
import P2PObserver.Protocol.Bootstrap
import P2PObserver.Addresses.Picked
import P2PObserver.Addresses.Eviction
import P2PObserver.Addresses.Hints
import P2PObserver.Addresses.Spellings
import P2PObserver.HeaderTree.Tips
import P2PObserver.Protocol.Locators
import P2PObserver.HeaderTree.Remembered
import P2PObserver.HeaderTree.Recoveries
import P2PObserver.Protocol.Offers
import P2PObserver.Lib.Service
import P2PObserver.Protocol.Asides
import P2PObserver.Protocol.Replies
import P2PObserver.Protocol.HeaderSync
import P2PObserver.HeaderTree.Sightings
import P2PObserver.Protocol.NewToUs
import P2PObserver.Protocol.Pings
import P2PObserver.Lib.Meter
import P2PObserver.Protocol.Getheaders
import P2PObserver.Lib.Cursor
import P2PObserver.Protocol.Lenient
import P2PObserver.Transport.Refusal
import P2PObserver.Emit.Accounts
import P2PObserver.Archive.Announcements
import P2PObserver.Archive.Cut
import P2PObserver.Archive.Headers
import P2PObserver.Archive.Stats
import P2PObserver.Archive.AnyOrder
import P2PObserver.Websocket.Moves
import P2PObserver.Websocket.Served
import P2PObserver.Metrics.Observe
import P2PObserver.Metrics.DropGauges
import P2PObserver.Metrics.RecentBlocks
import P2PObserver.Addresses.Networks
import P2PObserver.Metrics.Labels
import P2PObserver.Decoded
import P2PObserver.Lib.Rfc4180
import P2PObserver.Csv.Rows
import P2PObserver.Lib.Digits
import P2PObserver.Csv.ReadBack
import P2PObserver.Lib.Slices
import P2PObserver.Render.OneLine
import P2PObserver.Render.EventLine
import P2PObserver.Render.Printed
import P2PObserver.Addresses.OneSpelling
import P2PObserver.HeaderTree.Retarget
import P2PObserver.Addresses.Backoff
import P2PObserver.Addresses.Lives
import P2PObserver.Protocol.Course
import P2PObserver.Protocol.Attempts
import P2PObserver.Protocol.Underway
import P2PObserver.Lib.Capped
import P2PObserver.Metrics.Series
import P2PObserver.Metrics.Counted
import P2PObserver.Metrics.Exact
import P2PObserver.Metrics.SameStream
import P2PObserver.Lib.Replace
import P2PObserver.Addresses.Persist
import P2PObserver.Lib.Script
import P2PObserver.Protocol.Dialogue
import P2PObserver.Protocol.Balance
