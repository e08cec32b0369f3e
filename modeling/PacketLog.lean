import PacketLog.Backoff
import PacketLog.Binary64
import PacketLog.Config.Environment
import PacketLog.Config.Error
import PacketLog.Config.Layer
import PacketLog.Config.Resolve
import PacketLog.Config.Schema
import PacketLog.Config.Settings
import PacketLog.Config.Source
import PacketLog.Counters
import PacketLog.Datum
import PacketLog.Event
import PacketLog.FileSystem
import PacketLog.FileSystem.Path
import PacketLog.Instant
import PacketLog.Intake
import PacketLog.Json
import PacketLog.Json.Draft
import PacketLog.Json.Reader
import PacketLog.KindFlags
import PacketLog.Line
import PacketLog.Line.Bytes
import PacketLog.Line.Detail
import PacketLog.Line.Field
import PacketLog.Line.JsonForm
import PacketLog.Line.TextForm
import PacketLog.Packet
import PacketLog.Packet.Details
import PacketLog.Pause
import PacketLog.Policy
import PacketLog.Proofs.Accounting
import PacketLog.Proofs.Attempts
import PacketLog.Proofs.Batch
import PacketLog.Proofs.Calendar
import PacketLog.Proofs.Capture
import PacketLog.Proofs.Clockwork
import PacketLog.Proofs.Conservation
import PacketLog.Proofs.Correlation
import PacketLog.Proofs.Deadline
import PacketLog.Proofs.Deciding
import PacketLog.Proofs.Deciphering
import PacketLog.Proofs.Delivery
import PacketLog.Proofs.Excerpt
import PacketLog.Proofs.Fifo
import PacketLog.Proofs.FilterOptions
import PacketLog.Proofs.Filtering
import PacketLog.Proofs.Forms
import PacketLog.Proofs.Grammar
import PacketLog.Proofs.History
import PacketLog.Proofs.JsonReading
import PacketLog.Proofs.KindPrecedence
import PacketLog.Proofs.KindTables
import PacketLog.Proofs.Layout
import PacketLog.Proofs.Leaves
import PacketLog.Proofs.LogFile
import PacketLog.Proofs.Lossless
import PacketLog.Proofs.Matching
import PacketLog.Proofs.Overwriting
import PacketLog.Proofs.Precedence
import PacketLog.Proofs.Reading
import PacketLog.Proofs.Redaction
import PacketLog.Proofs.Refinement
import PacketLog.Proofs.Schedule
import PacketLog.Proofs.Serializing
import PacketLog.Proofs.SingleLine
import PacketLog.Proofs.Spool
import PacketLog.Proofs.Tokens
import PacketLog.Proofs.Trace
import PacketLog.Proofs.Unicode
import PacketLog.Proofs.Validation
import PacketLog.Proofs.Verbosity
import PacketLog.Proofs.Wakening
import PacketLog.Proofs.Work
import PacketLog.Queue
import PacketLog.Record
import PacketLog.Retry
import PacketLog.Rounding
import PacketLog.Session
import PacketLog.Sink
import PacketLog.Sink.File
import PacketLog.Sink.Scripted
import PacketLog.Sink.Tracing
import PacketLog.Text.Ascii
import PacketLog.Text.Hex
import PacketLog.Text.Literal
import PacketLog.Text.Printable
import PacketLog.Text.Quoted
import PacketLog.Text.Reader
import PacketLog.Text.Utf8
import PacketLog.Timeline
import PacketLog.Toml.Blank
import PacketLog.Toml.Document
import PacketLog.Toml.Quoted
import PacketLog.Toml.Scalar
import PacketLog.Toml.Table
import PacketLog.Toml.Value
import PacketLog.Topic.Pattern
import PacketLog.Topic.Rules
import PacketLog.Watcher
import PacketLog.Writer
