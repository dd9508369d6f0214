import Logwire.Envelope.Basic
import Logwire.Envelope.Pagination
import Logwire.Envelope.Reply
import Logwire.Failure.Arguments
import Logwire.Failure.Basic
import Logwire.Failure.Excerpt
import Logwire.Failure.Report
import Logwire.Index.Basic
import Logwire.Index.Document
import Logwire.Json.Basic
import Logwire.Json.Coercion
import Logwire.Json.Display
import Logwire.Json.Reader
import Logwire.Json.Writer
import Logwire.Line.Escape
import Logwire.Line.Reader
import Logwire.Line.StructuredData
import Logwire.Line.Writer
import Logwire.Logging.Handler
import Logwire.Logging.Logger
import Logwire.Net.Address
import Logwire.Net.Http
import Logwire.Net.JsonClient
import Logwire.Net.Sockets
import Logwire.Number.Binary64
import Logwire.Number.Decimal
import Logwire.Number.Measure
import Logwire.Number.Numeral
import Logwire.Number.Rounding
import Logwire.Record.Basic
import Logwire.Record.Document
import Logwire.Record.Producer
import Logwire.Record.Validity
import Logwire.Service.Directory
import Logwire.Service.Platform
import Logwire.Service.PortNumber
import Logwire.Service.Registry
import Logwire.Service.Wait
import Logwire.Sink.Basic
import Logwire.Sink.LogFile
import Logwire.Sink.Memory
import Logwire.Sink.Remote
import Logwire.Sink.Syslogd
import Logwire.Sink.Tree
import Logwire.Storage.FileTree
import Logwire.Template.Basic
import Logwire.Template.Directive
import Logwire.Template.Piece
import Logwire.Text.Blank
import Logwire.Text.Digit
import Logwire.Text.Encoding
import Logwire.Text.Length
import Logwire.Text.Printable
import Logwire.Text.Quoted
import Logwire.Time.Calendar
import Logwire.Time.Clock
import Logwire.Time.Moment
import Logwire.Time.Rfc3339
import Logwire.Proofs.Json.Members
import Logwire.Proofs.Line.Elements
import Logwire.Proofs.Line.Factorization
import Logwire.Proofs.Line.Grammar
import Logwire.Proofs.Line.Header
import Logwire.Proofs.Line.Independence
import Logwire.Proofs.Line.RoundTrip
import Logwire.Proofs.Line.Validity
import Logwire.Proofs.Line.Stamps
import Logwire.Proofs.Line.Written
import Logwire.Proofs.Number.Digits
import Logwire.Proofs.Number.Nearest
import Logwire.Proofs.Time.Timestamp
import Logwire.Proofs.Time.Normal
import Logwire.Proofs.Time.Clock
import Logwire.Proofs.Number.Shortest
import Logwire.Proofs.Json.Numbers
import Logwire.Proofs.Json.RoundTrip
import Logwire.Proofs.Record.Lines
import Logwire.Proofs.Record.Reading
import Logwire.Proofs.Logging.Accounting
import Logwire.Proofs.Logging.Origin
import Logwire.Proofs.Envelope.RoundTrip
import Logwire.Proofs.Storage.Paths
import Logwire.Proofs.Sink.Files
import Logwire.Proofs.Net.Dialing
import Logwire.Proofs.Sink.Connection
import Logwire.Proofs.Index.History
import Logwire.Proofs.Net.Requests
import Logwire.Proofs.Service.Waiting
import Logwire.Proofs.Service.Startup
import Logwire.Proofs.Service.Addresses
import Logwire.Proofs.Envelope.Answers
import Logwire.Proofs.Sink.FanOut
import Logwire.Proofs.Sink.Delivery
import Logwire.Proofs.Index.Pages
import Logwire.Proofs.Index.Refusals
import Logwire.Proofs.Line.ForeignElements
import Logwire.Proofs.Line.Quotes
import Logwire.Proofs.Sink.Targets
