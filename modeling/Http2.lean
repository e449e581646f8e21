import Http2.BoundedMap
import Http2.BoundedSet
import Http2.Connection.Accounts
import Http2.Connection.Admission
import Http2.Connection.Agreement
import Http2.Connection.Balance
import Http2.Connection.Blind
import Http2.Connection.Blocks
import Http2.Connection.Calls
import Http2.Connection.Chunking
import Http2.Connection.Closures
import Http2.Connection.Compression
import Http2.Connection.Content
import Http2.Connection.Cookies
import Http2.Connection.Delivery
import Http2.Connection.Expected
import Http2.Connection.Flush
import Http2.Connection.Fragments
import Http2.Connection.Goaway
import Http2.Connection.Grammar
import Http2.Connection.Guards
import Http2.Connection.Idle
import Http2.Connection.Injection
import Http2.Connection.Integrity
import Http2.Connection.Life
import Http2.Connection.Lifecycle
import Http2.Connection.Lifetime
import Http2.Connection.Marks
import Http2.Connection.Moves
import Http2.Connection.Negotiation
import Http2.Connection.Outgoing
import Http2.Connection.Output
import Http2.Connection.Ownership
import Http2.Connection.Pair
import Http2.Connection.Passes
import Http2.Connection.Progress
import Http2.Connection.Receive
import Http2.Connection.Response
import Http2.Connection.Run
import Http2.Connection.Send
import Http2.Connection.Sending
import Http2.Connection.Sequence
import Http2.Connection.Simulation
import Http2.Connection.Split
import Http2.Connection.State
import Http2.Connection.Step
import Http2.Connection.TableSize
import Http2.Connection.Taken
import Http2.Connection.Tidy
import Http2.Connection.Trace
import Http2.Connection.Transfer
import Http2.Connection.Tuning
import Http2.Connection.Windows
import Http2.Connection.Wire
import Http2.Error
import Http2.Event
import Http2.Frame
import Http2.Frame.Decoder
import Http2.Frame.Range
import Http2.Frame.RoundTrip
import Http2.Hpack.Canonical
import Http2.Hpack.Checked
import Http2.Hpack.Decoder
import Http2.Hpack.DynamicTable
import Http2.Hpack.Encoder
import Http2.Hpack.Following
import Http2.Hpack.Huffman
import Http2.Hpack.Integer
import Http2.Hpack.IntegerCode
import Http2.Hpack.Limits
import Http2.Hpack.Reference
import Http2.Hpack.RoundTrip
import Http2.Hpack.Sensitive
import Http2.Hpack.Session
import Http2.Hpack.Table
import Http2.Lib.Budget
import Http2.Lib.Checked
import Http2.Lib.Framing
import Http2.Lib.History
import Http2.Lib.Maps
import Http2.Lib.Monitor
import Http2.Lib.PrefixCode
import Http2.Lib.Prog
import Http2.Lib.Pump
import Http2.Lib.Scanner
import Http2.Lib.Utf8
import Http2.Settings
import Http2.Stream
import Http2.Validation
import Http2.Validation.Authority
import Http2.Validation.Request
import Http2.Validation.Section
import Http2.Validation.Static
import Http2.WebTransport.Bounds
import Http2.WebTransport.Calls
import Http2.WebTransport.Capsule
import Http2.WebTransport.Chunks
import Http2.WebTransport.CloseReason
import Http2.WebTransport.Codec
import Http2.WebTransport.Credit
import Http2.WebTransport.Deliver
import Http2.WebTransport.Dictionary
import Http2.WebTransport.Driver
import Http2.WebTransport.Ends
import Http2.WebTransport.Error
import Http2.WebTransport.Handling
import Http2.WebTransport.Init
import Http2.WebTransport.Ledger
import Http2.WebTransport.Moves
import Http2.WebTransport.Protocols
import Http2.WebTransport.Reach
import Http2.WebTransport.Receive
import Http2.WebTransport.Rejection
import Http2.WebTransport.Run
import Http2.WebTransport.Scan
import Http2.WebTransport.Session
import Http2.WebTransport.Shortage
import Http2.WebTransport.Silence
import Http2.WebTransport.Slots
import Http2.WebTransport.Stream
import Http2.WebTransport.Table
import Http2.WebTransport.Varint
