import UpdateExpr.Text.Bytes
import UpdateExpr.Text.Printable
import UpdateExpr.Text.Quoted
import UpdateExpr.Decimal.Shortest
import UpdateExpr.Table
import UpdateExpr.Base64
import UpdateExpr.Token
import UpdateExpr.Json.Number
import UpdateExpr.Json.Basic
import UpdateExpr.Json.Printer
import UpdateExpr.Json.Source
import UpdateExpr.DecodeError
import UpdateExpr.Json.Decode
import UpdateExpr.ListEnd
import UpdateExpr.AttributeValue.Basic
import UpdateExpr.AttributeValue.Encode
import UpdateExpr.AttributeValue.Decode
import UpdateExpr.Record.Schema
import UpdateExpr.Record.Encode
import UpdateExpr.Record.Decode
import UpdateExpr.Record.Forms
import UpdateExpr.Builder.Action
import UpdateExpr.Builder.Clause
import UpdateExpr.Builder.Basic
import UpdateExpr.Builder.Build
import UpdateExpr.Builder.Operation
import UpdateExpr.Session
import UpdateExpr.Proofs.Results
import UpdateExpr.Proofs.Text.Utf8
import UpdateExpr.Proofs.Text.Order
import UpdateExpr.Proofs.Token.Numeral
import UpdateExpr.Proofs.Token.Allocation
import UpdateExpr.Proofs.Token.Increase
import UpdateExpr.Proofs.Table.Lookup
import UpdateExpr.Proofs.Builder.Contribution
import UpdateExpr.Proofs.Builder.Direct
import UpdateExpr.Proofs.Builder.Ledger
import UpdateExpr.Proofs.Builder.Run
import UpdateExpr.Proofs.Builder.Values
import UpdateExpr.Proofs.Builder.Erasure
import UpdateExpr.Proofs.Builder.Validation
import UpdateExpr.Proofs.Builder.ClauseLists
import UpdateExpr.Proofs.Statement.Lexer
import UpdateExpr.Proofs.Statement.Tokens
import UpdateExpr.Proofs.Statement.References
import UpdateExpr.Proofs.Statement.Aliases
import UpdateExpr.Proofs.Statement.Splitting
import UpdateExpr.Proofs.Statement.Unambiguous
import UpdateExpr.Proofs.Builder.Placement
import UpdateExpr.Proofs.Builder.Reordering
import UpdateExpr.Proofs.Base64.RoundTrip
import UpdateExpr.Proofs.Base64.Grammar
import UpdateExpr.Proofs.Json.Scalars
import UpdateExpr.Proofs.Json.Text
import UpdateExpr.Proofs.Json.Nesting
import UpdateExpr.Proofs.AttributeValue.RoundTrip
import UpdateExpr.Proofs.AttributeValue.FirstFault
import UpdateExpr.Proofs.AttributeValue.Binaries
import UpdateExpr.Proofs.AttributeValue.Text
import UpdateExpr.Proofs.AttributeValue.Agreement
import UpdateExpr.Proofs.AttributeValue.Equality
import UpdateExpr.Proofs.Record.Text
import UpdateExpr.Proofs.Record.Agreement
import UpdateExpr.Proofs.Record.RoundTrip
import UpdateExpr.Proofs.Builder.Refusals
import UpdateExpr.Proofs.Builder.Names
import UpdateExpr.Proofs.Builder.Parameters
import UpdateExpr.Proofs.Record.Defaults
import UpdateExpr.Proofs.Record.Positions
