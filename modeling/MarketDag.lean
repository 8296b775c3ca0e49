import MarketDag.Client
import MarketDag.Json.Writer
import MarketDag.Proofs.Address.Cid
import MarketDag.Proofs.Address.CidText
import MarketDag.Proofs.Address.Multibase
import MarketDag.Proofs.Address.Sha256
import MarketDag.Proofs.Address.Varint
import MarketDag.Proofs.Archive.RoundTrip
import MarketDag.Proofs.Archive.Stable
import MarketDag.Proofs.Archive.Truncated
import MarketDag.Proofs.Archive.Whole
import MarketDag.Proofs.Cbor.Faithful
import MarketDag.Proofs.Cbor.Head
import MarketDag.Proofs.Cbor.Length
import MarketDag.Proofs.Cbor.Normal
import MarketDag.Proofs.Cbor.Record
import MarketDag.Proofs.Cbor.Step
import MarketDag.Proofs.Cbor.Tree
import MarketDag.Proofs.Client.Agreement
import MarketDag.Proofs.Client.Answers
import MarketDag.Proofs.Client.Atomic
import MarketDag.Proofs.Client.Download
import MarketDag.Proofs.Client.Integrity
import MarketDag.Proofs.Client.NetworkUpload
import MarketDag.Proofs.Client.RoundTrip
import MarketDag.Proofs.Client.Stages
import MarketDag.Proofs.Client.Steps
import MarketDag.Proofs.Client.Tampering
import MarketDag.Proofs.Client.Upload
import MarketDag.Proofs.Client.Valid
import MarketDag.Proofs.Dag.Block
import MarketDag.Proofs.Dag.Codecs
import MarketDag.Proofs.Dag.Coherence
import MarketDag.Proofs.Dag.Commitment
import MarketDag.Proofs.Dag.DecimalText
import MarketDag.Proofs.Dag.Decimals
import MarketDag.Proofs.Dag.Documents
import MarketDag.Proofs.Dag.Exclusive
import MarketDag.Proofs.Dag.Failures
import MarketDag.Proofs.Dag.Metadata
import MarketDag.Proofs.Dag.Normal
import MarketDag.Proofs.Dag.Omission
import MarketDag.Proofs.Dag.Registration
import MarketDag.Proofs.Dag.Registry
import MarketDag.Proofs.Dag.Resolution
import MarketDag.Proofs.Dag.Root
import MarketDag.Proofs.Dag.Slots
import MarketDag.Proofs.Dag.TimeText
import MarketDag.Proofs.Dag.Timestamps
import MarketDag.Proofs.Dag.Variants
import MarketDag.Proofs.Document.Dates
import MarketDag.Proofs.Document.Equality
import MarketDag.Proofs.Document.Recoverable
import MarketDag.Proofs.Document.Rules
import MarketDag.Proofs.Document.Schema
import MarketDag.Proofs.Document.Settings
import MarketDag.Proofs.Document.UrlLength
import MarketDag.Proofs.Document.Valid
import MarketDag.Proofs.Document.Validation
import MarketDag.Proofs.Except
import MarketDag.Proofs.Ipld.Canonical
import MarketDag.Proofs.Json.Entries
import MarketDag.Proofs.Json.Faithful
import MarketDag.Proofs.Json.Record
import MarketDag.Proofs.Json.Regular
import MarketDag.Proofs.Json.Reserved
import MarketDag.Proofs.Json.Scalar
import MarketDag.Proofs.Json.Tree
import MarketDag.Proofs.Number.Decimal
import MarketDag.Proofs.Number.Digits
import MarketDag.Proofs.Number.Grammar
import MarketDag.Proofs.Number.Numeral
import MarketDag.Proofs.Number.PlainNumeral
import MarketDag.Proofs.Number.Rounding
import MarketDag.Proofs.Shape.Buffered
import MarketDag.Proofs.Shape.Equality
import MarketDag.Proofs.Shape.Faithful
import MarketDag.Proofs.Shape.Layout
import MarketDag.Proofs.Shape.Omission
import MarketDag.Proofs.Shape.Origin
import MarketDag.Proofs.Shape.Outcome
import MarketDag.Proofs.Shape.Reader
import MarketDag.Proofs.Shape.Total
import MarketDag.Proofs.Shape.Written
import MarketDag.Proofs.Store.Host
import MarketDag.Proofs.Store.ImportReply
import MarketDag.Proofs.Store.Memory
import MarketDag.Proofs.Store.Outcome
import MarketDag.Proofs.Store.Remote
import MarketDag.Proofs.Store.ReplyFormat
import MarketDag.Proofs.Store.Run
import MarketDag.Proofs.Text.Blank
import MarketDag.Proofs.Text.Utf8
import MarketDag.Proofs.Time.Date
import MarketDag.Proofs.Time.DateText
import MarketDag.Proofs.Time.DayNumber
import MarketDag.Proofs.Time.Instant
import MarketDag.Proofs.Time.Spelling
import MarketDag.Proofs.Web.Base
import MarketDag.Proofs.Web.Url
import MarketDag.Store.Memory
import MarketDag.Store.Remote
