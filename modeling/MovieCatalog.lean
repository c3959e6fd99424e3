import MovieCatalog.Binary64.Arithmetic
import MovieCatalog.Binary64.Basic
import MovieCatalog.Binary64.Integral
import MovieCatalog.Binary64.Layout
import MovieCatalog.Binary64.Rounding
import MovieCatalog.Binary64.Shortest
import MovieCatalog.Bounds
import MovieCatalog.Decimal.Estimate
import MovieCatalog.Decimal.Literal
import MovieCatalog.Engine.Address
import MovieCatalog.Engine.Failure
import MovieCatalog.Engine.Reply
import MovieCatalog.Envelope
import MovieCatalog.Facet.Aggregation
import MovieCatalog.Facet.Basic
import MovieCatalog.Facet.Dimension
import MovieCatalog.Form.Urlencoded
import MovieCatalog.Index
import MovieCatalog.Json.Decode
import MovieCatalog.Json.Fault
import MovieCatalog.Json.Lexeme
import MovieCatalog.Json.Node
import MovieCatalog.Json.Number
import MovieCatalog.Json.Pointer
import MovieCatalog.Json.Scan
import MovieCatalog.Json.Value
import MovieCatalog.Log.Directive
import MovieCatalog.Log.Filter
import MovieCatalog.Main
import MovieCatalog.Movie.Basic
import MovieCatalog.Movie.Response
import MovieCatalog.Net.Ip
import MovieCatalog.Net.SocketAddress
import MovieCatalog.Power
import MovieCatalog.Proofs.Binary64.Exact
import MovieCatalog.Proofs.Binary64.Fewest
import MovieCatalog.Proofs.Binary64.Layout
import MovieCatalog.Proofs.Binary64.Nearest
import MovieCatalog.Proofs.Binary64.Reading
import MovieCatalog.Proofs.Binary64.Rounding
import MovieCatalog.Proofs.Binary64.Shortest
import MovieCatalog.Proofs.Binary64.Wide
import MovieCatalog.Proofs.Bounds
import MovieCatalog.Proofs.Decimal.Digits
import MovieCatalog.Proofs.Decimal.Estimate
import MovieCatalog.Proofs.Decimal.Grammar
import MovieCatalog.Proofs.Engine.Account
import MovieCatalog.Proofs.Engine.Address
import MovieCatalog.Proofs.Engine.Change
import MovieCatalog.Proofs.Engine.Node
import MovieCatalog.Proofs.Engine.Reason
import MovieCatalog.Proofs.Engine.Reply
import MovieCatalog.Proofs.Envelope
import MovieCatalog.Proofs.Facet.Buckets
import MovieCatalog.Proofs.Facet.Codec
import MovieCatalog.Proofs.Facet.Integer
import MovieCatalog.Proofs.Facet.Key
import MovieCatalog.Proofs.Facet.Steps
import MovieCatalog.Proofs.Form.Urlencoded
import MovieCatalog.Proofs.Json.Change
import MovieCatalog.Proofs.Json.Decode
import MovieCatalog.Proofs.Json.Definite
import MovieCatalog.Proofs.Json.Grammar
import MovieCatalog.Proofs.Json.Legible
import MovieCatalog.Proofs.Json.Meaning
import MovieCatalog.Proofs.Json.Members
import MovieCatalog.Proofs.Json.Number
import MovieCatalog.Proofs.Json.Quoted
import MovieCatalog.Proofs.Json.Record
import MovieCatalog.Proofs.Json.Scan
import MovieCatalog.Proofs.Json.Sorted
import MovieCatalog.Proofs.Json.Strings
import MovieCatalog.Proofs.Json.Value
import MovieCatalog.Proofs.Movie.Codec
import MovieCatalog.Proofs.Query.Codec
import MovieCatalog.Proofs.Query.Contents
import MovieCatalog.Proofs.Query.Grammar
import MovieCatalog.Proofs.Records
import MovieCatalog.Proofs.Request.Genres
import MovieCatalog.Proofs.Request.Integer
import MovieCatalog.Proofs.Request.Normal
import MovieCatalog.Proofs.Request.Parameter
import MovieCatalog.Proofs.Request.Values
import MovieCatalog.Proofs.Search.Agreement
import MovieCatalog.Proofs.Search.Body
import MovieCatalog.Proofs.Search.Meaning
import MovieCatalog.Proofs.Search.Pages
import MovieCatalog.Proofs.Search.Presence
import MovieCatalog.Proofs.Service.Answer
import MovieCatalog.Proofs.Settings.Given
import MovieCatalog.Proofs.Settings.Precedence
import MovieCatalog.Proofs.Text.Utf8
import MovieCatalog.Proofs.Url.Relative
import MovieCatalog.Proofs.Url.Segments
import MovieCatalog.Query.Basic
import MovieCatalog.Query.Codec
import MovieCatalog.Query.Meaning
import MovieCatalog.Request.Basic
import MovieCatalog.Request.Parameter
import MovieCatalog.Request.QueryString
import MovieCatalog.Search.Basic
import MovieCatalog.Service.Basic
import MovieCatalog.Service.Document
import MovieCatalog.Service.Endpoint
import MovieCatalog.Service.Target
import MovieCatalog.Settings.Basic
import MovieCatalog.Settings.CommandLine
import MovieCatalog.Startup
import MovieCatalog.Text.Blank
import MovieCatalog.Text.Case
import MovieCatalog.Text.Cut
import MovieCatalog.Text.Hex
import MovieCatalog.Text.Hidden
import MovieCatalog.Text.Percent
import MovieCatalog.Text.Quoted
import MovieCatalog.Text.Utf8
import MovieCatalog.Url.Basic
import MovieCatalog.Url.Fault
import MovieCatalog.Url.Host
import MovieCatalog.Url.Punycode
import MovieCatalog.Url.Reserved
import MovieCatalog.Url.Resolve
import MovieCatalog.Url.Scheme
import MovieCatalog.Url.Segments
import MovieCatalog.Version
