import EventStream.Assoc
import EventStream.Bytes
import EventStream.Chat.Message
import EventStream.Chat.Request
import EventStream.Checksum
import EventStream.Cli.Arguments
import EventStream.Cli.Command
import EventStream.Cli.Folder
import EventStream.Cli.Outcome
import EventStream.Cli.Report
import EventStream.Cli.Run
import EventStream.Event
import EventStream.Frame.Append
import EventStream.Frame.Error
import EventStream.Frame.Wire
import EventStream.Guarded.Access
import EventStream.Guarded.Frame
import EventStream.Guarded.Header
import EventStream.Guarded.Stream
import EventStream.Header.Block
import EventStream.Header.Headers
import EventStream.Header.Name
import EventStream.Header.Value
import EventStream.Json.Basic
import EventStream.Json.Fault
import EventStream.Json.Format
import EventStream.Json.Numeral
import EventStream.Json.Print
import EventStream.Json.Quoted
import EventStream.Json.Record
import EventStream.Json.Scan
import EventStream.Json.Skip
import EventStream.Json.Value
import EventStream.Main
import EventStream.Number.Binary64
import EventStream.Number.Shortest
import EventStream.Number.Text
import EventStream.Proofs.Bytes
import EventStream.Proofs.Chat.Bounded
import EventStream.Proofs.Chat.Revision
import EventStream.Proofs.Chat.RoundTrip
import EventStream.Proofs.Chat.Schema
import EventStream.Proofs.Checksum
import EventStream.Proofs.Cli.Appending
import EventStream.Proofs.Cli.Report
import EventStream.Proofs.Cli.Segmentation
import EventStream.Proofs.Event.Body
import EventStream.Proofs.Event.Revision
import EventStream.Proofs.Event.Routing
import EventStream.Proofs.Event.Schema
import EventStream.Proofs.Frame.Access
import EventStream.Proofs.Frame.Corruption
import EventStream.Proofs.Frame.Encoding
import EventStream.Proofs.Frame.Extension
import EventStream.Proofs.Frame.Refusal
import EventStream.Proofs.Frame.RoundTrip
import EventStream.Proofs.Frame.Soundness
import EventStream.Proofs.Header.Access
import EventStream.Proofs.Header.Canonical
import EventStream.Proofs.Header.Composition
import EventStream.Proofs.Header.Extension
import EventStream.Proofs.Header.Lookup
import EventStream.Proofs.Header.RoundTrip
import EventStream.Proofs.Json.Bounded
import EventStream.Proofs.Json.Formats
import EventStream.Proofs.Json.Grammar
import EventStream.Proofs.Json.Numerals
import EventStream.Proofs.Json.RecordSchema
import EventStream.Proofs.Json.Reordered
import EventStream.Proofs.Json.Revision
import EventStream.Proofs.Json.Scalar
import EventStream.Proofs.Json.Schema
import EventStream.Proofs.Json.Settled
import EventStream.Proofs.Json.SettledFormats
import EventStream.Proofs.Json.SettledValues
import EventStream.Proofs.Json.Skipping
import EventStream.Proofs.Json.Values
import EventStream.Proofs.Json.Written
import EventStream.Proofs.Stream.Access
import EventStream.Proofs.Stream.Accounting
import EventStream.Proofs.Stream.Adapters
import EventStream.Proofs.Stream.Boundaries
import EventStream.Proofs.Stream.Buffering
import EventStream.Proofs.Stream.Containment
import EventStream.Proofs.Stream.Contents
import EventStream.Proofs.Stream.Entries
import EventStream.Proofs.Stream.Finding
import EventStream.Proofs.Stream.History
import EventStream.Proofs.Stream.Lifecycle
import EventStream.Proofs.Stream.Mirror
import EventStream.Proofs.Stream.Missing
import EventStream.Proofs.Stream.Operations
import EventStream.Proofs.Stream.Placement
import EventStream.Proofs.Stream.Progress
import EventStream.Proofs.Stream.Schedule
import EventStream.Proofs.Stream.Simulation
import EventStream.Proofs.Stream.Termination
import EventStream.Proofs.Stream.Truncation
import EventStream.Proofs.Stream.Undrained
import EventStream.Proofs.Text.Order
import EventStream.Proofs.Text.Strict
import EventStream.Proofs.Text.Utf8
import EventStream.Stream.Assembler
import EventStream.Stream.Codec
import EventStream.Stream.Item
import EventStream.Stream.Listing
import EventStream.Stream.Reader
import EventStream.Stream.Segment
import EventStream.Stream.Transport
import EventStream.Text.Blank
import EventStream.Text.Columns
import EventStream.Text.Emoji
import EventStream.Text.Extending
import EventStream.Text.Ligature
import EventStream.Text.Printable
import EventStream.Text.Quoted
import EventStream.Text.Ranges
import EventStream.Text.Split
import EventStream.Text.Table
import EventStream.Text.Utf8
import EventStream.Text.Width
import EventStream.Text.Wrap
