import TypedQuery.Calendar.Date
import TypedQuery.Calendar.Reader
import TypedQuery.Calendar.Timestamp
import TypedQuery.Error
import TypedQuery.Exchange.Expr
import TypedQuery.Exchange.Fault
import TypedQuery.Exchange.Host
import TypedQuery.Exchange.Rendered
import TypedQuery.Exchange.Session
import TypedQuery.Exchange.Table
import TypedQuery.Exchange.Value
import TypedQuery.Expr.Basic
import TypedQuery.Expr.Calls
import TypedQuery.Expr.Compile
import TypedQuery.Expr.Fold
import TypedQuery.Expr.Function
import TypedQuery.Expr.Operator
import TypedQuery.Expr.Path
import TypedQuery.Fragment.Alias
import TypedQuery.Fragment.Basic
import TypedQuery.Fragment.Render
import TypedQuery.Host.Conversion
import TypedQuery.Host.Type
import TypedQuery.Json.Document
import TypedQuery.Json.Reader
import TypedQuery.Number.BigEndian
import TypedQuery.Number.Binary
import TypedQuery.Number.Decimal
import TypedQuery.Number.Power
import TypedQuery.Number.Rounding
import TypedQuery.Number.Shortest
import TypedQuery.Proofs.Calendar.DayNumber
import TypedQuery.Proofs.Calendar.Reading
import TypedQuery.Proofs.Expr.Accepted
import TypedQuery.Proofs.Expr.ArrayLength
import TypedQuery.Proofs.Expr.AsWritten
import TypedQuery.Proofs.Expr.Composed
import TypedQuery.Proofs.Expr.Congruence
import TypedQuery.Proofs.Expr.Declared
import TypedQuery.Proofs.Expr.Elementary
import TypedQuery.Proofs.Expr.Equality
import TypedQuery.Proofs.Expr.FoldedDecimal
import TypedQuery.Proofs.Expr.Function
import TypedQuery.Proofs.Expr.IntegerTree
import TypedQuery.Proofs.Expr.Meaning
import TypedQuery.Proofs.Expr.Meeting
import TypedQuery.Proofs.Expr.Method
import TypedQuery.Proofs.Expr.NormalForm
import TypedQuery.Proofs.Expr.Operator
import TypedQuery.Proofs.Expr.Path
import TypedQuery.Proofs.Expr.Qualified
import TypedQuery.Proofs.Expr.Registered
import TypedQuery.Proofs.Expr.Rendered
import TypedQuery.Proofs.Expr.Resolution
import TypedQuery.Proofs.Expr.Served
import TypedQuery.Proofs.Expr.Source
import TypedQuery.Proofs.Expr.TextMatch
import TypedQuery.Proofs.Expr.Transparent
import TypedQuery.Proofs.Expr.Typing
import TypedQuery.Proofs.Expr.Whole
import TypedQuery.Proofs.Fragment.Alias
import TypedQuery.Proofs.Fragment.Anchor
import TypedQuery.Proofs.Fragment.Drawn
import TypedQuery.Proofs.Fragment.Leaf
import TypedQuery.Proofs.Fragment.Lookup
import TypedQuery.Proofs.Fragment.Meaning
import TypedQuery.Proofs.Fragment.Placeholder
import TypedQuery.Proofs.Fragment.Reference
import TypedQuery.Proofs.Fragment.Regrouping
import TypedQuery.Proofs.Fragment.Site
import TypedQuery.Proofs.Fragment.Sketch
import TypedQuery.Proofs.Fragment.Text
import TypedQuery.Proofs.Fragment.Whole
import TypedQuery.Proofs.Fragment.Written
import TypedQuery.Proofs.Host.Label
import TypedQuery.Proofs.Host.RoundTrip
import TypedQuery.Proofs.Json.Padded
import TypedQuery.Proofs.Number.DecimalArithmetic
import TypedQuery.Proofs.Number.DecimalValue
import TypedQuery.Proofs.Result
import TypedQuery.Proofs.Row.Reading
import TypedQuery.Proofs.Schema.Index
import TypedQuery.Proofs.Schema.Lookup
import TypedQuery.Proofs.Schema.Sharing
import TypedQuery.Proofs.Server.Agreement
import TypedQuery.Proofs.Server.ArrayLiteral
import TypedQuery.Proofs.Server.DocumentPath
import TypedQuery.Proofs.Server.Equality
import TypedQuery.Proofs.Server.Evaluation
import TypedQuery.Proofs.Server.Grid
import TypedQuery.Proofs.Server.Lexer
import TypedQuery.Proofs.Server.Like
import TypedQuery.Proofs.Server.Literal
import TypedQuery.Proofs.Server.Name
import TypedQuery.Proofs.Server.Parser
import TypedQuery.Proofs.Server.Qualifier
import TypedQuery.Proofs.Server.Query
import TypedQuery.Proofs.Server.Quotation
import TypedQuery.Proofs.Server.Readable
import TypedQuery.Proofs.Server.Reading
import TypedQuery.Proofs.Server.RowTest
import TypedQuery.Proofs.Server.Scope
import TypedQuery.Proofs.Server.Shape
import TypedQuery.Proofs.Server.Spelling
import TypedQuery.Proofs.Server.TypeName
import TypedQuery.Proofs.Server.Typing
import TypedQuery.Proofs.Server.Word
import TypedQuery.Proofs.Session.Abandonment
import TypedQuery.Proofs.Session.Delivery
import TypedQuery.Proofs.Session.Numbering
import TypedQuery.Proofs.Session.Rejection
import TypedQuery.Proofs.Session.Routine
import TypedQuery.Proofs.Session.Single
import TypedQuery.Proofs.Statement.Assignment
import TypedQuery.Proofs.Statement.Body
import TypedQuery.Proofs.Statement.Builder
import TypedQuery.Proofs.Statement.Capture
import TypedQuery.Proofs.Statement.Chain
import TypedQuery.Proofs.Statement.Composition
import TypedQuery.Proofs.Statement.Condition
import TypedQuery.Proofs.Statement.Counting
import TypedQuery.Proofs.Statement.DocumentNull
import TypedQuery.Proofs.Statement.DocumentValue
import TypedQuery.Proofs.Statement.Embedding
import TypedQuery.Proofs.Statement.FirstError
import TypedQuery.Proofs.Statement.Helped
import TypedQuery.Proofs.Statement.Helper
import TypedQuery.Proofs.Statement.HelperTree
import TypedQuery.Proofs.Statement.InsertForm
import TypedQuery.Proofs.Statement.Join
import TypedQuery.Proofs.Statement.JsonHelper
import TypedQuery.Proofs.Statement.Label
import TypedQuery.Proofs.Statement.Layout
import TypedQuery.Proofs.Statement.ListValue
import TypedQuery.Proofs.Statement.Mismatch
import TypedQuery.Proofs.Statement.Outcome
import TypedQuery.Proofs.Statement.Presence
import TypedQuery.Proofs.Statement.Projection
import TypedQuery.Proofs.Statement.Stored
import TypedQuery.Proofs.Statement.Structure
import TypedQuery.Proofs.Statement.Where
import TypedQuery.Proofs.Statement.Whole
import TypedQuery.Proofs.Wire.ArrayBytes
import TypedQuery.Proofs.Wire.ArrayCount
import TypedQuery.Proofs.Wire.ArrayForm
import TypedQuery.Proofs.Wire.ArrayText
import TypedQuery.Proofs.Wire.ArrayTree
import TypedQuery.Proofs.Wire.ClockReading
import TypedQuery.Proofs.Wire.HexText
import TypedQuery.Proofs.Wire.HostParameter
import TypedQuery.Proofs.Wire.IntervalGuard
import TypedQuery.Proofs.Wire.IntervalStyle
import TypedQuery.Proofs.Wire.Malformed
import TypedQuery.Proofs.Wire.Moment
import TypedQuery.Proofs.Wire.Numeric
import TypedQuery.Proofs.Wire.NumericValue
import TypedQuery.Proofs.Wire.Outgoing
import TypedQuery.Proofs.Wire.SentArray
import TypedQuery.Row.Reader
import TypedQuery.Schema.Declaration
import TypedQuery.Schema.Registry
import TypedQuery.Schema.Table
import TypedQuery.Session.Backend
import TypedQuery.Session.Batch
import TypedQuery.Session.Bootstrap
import TypedQuery.Session.Client
import TypedQuery.Session.Command
import TypedQuery.Session.Database
import TypedQuery.Session.Duration
import TypedQuery.Session.Fault
import TypedQuery.Session.Recording
import TypedQuery.Settings.Connection
import TypedQuery.Settings.Ipv6
import TypedQuery.Settings.Login
import TypedQuery.Settings.Percent
import TypedQuery.Settings.Url
import TypedQuery.Settings.UrlReader
import TypedQuery.Sql.Bytes
import TypedQuery.Sql.Literal
import TypedQuery.Sql.Type
import TypedQuery.Sql.Value
import TypedQuery.Statement.Basic
import TypedQuery.Statement.Delete
import TypedQuery.Statement.Insert
import TypedQuery.Statement.Select
import TypedQuery.Statement.Update
import TypedQuery.Text.Blank
import TypedQuery.Text.Case
import TypedQuery.Text.CaseTable
import TypedQuery.Text.Quoted
import TypedQuery.Wire.Array
import TypedQuery.Wire.Backend
import TypedQuery.Wire.Column
import TypedQuery.Wire.Element
import TypedQuery.Wire.IntervalText
import TypedQuery.Wire.Numeric
import TypedQuery.Wire.Oid
import TypedQuery.Wire.Parameter
import TypedQuery.Wire.Scripted
