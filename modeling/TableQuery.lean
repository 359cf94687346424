import TableQuery.Builtin.Apply
import TableQuery.Builtin.Basic
import TableQuery.Command.Arguments
import TableQuery.Command.Error
import TableQuery.Command.Run
import TableQuery.Config
import TableQuery.Csv
import TableQuery.Decimal.Basic
import TableQuery.Decimal.Text
import TableQuery.Environment
import TableQuery.Error
import TableQuery.Expr.Basic
import TableQuery.Expr.Lexer
import TableQuery.Expr.Parser
import TableQuery.Expr.Printer
import TableQuery.Expr.Token
import TableQuery.Fields
import TableQuery.Files
import TableQuery.Item
import TableQuery.Json.Basic
import TableQuery.Json.Decode
import TableQuery.Json.Document
import TableQuery.Json.Number
import TableQuery.Json.Place
import TableQuery.Json.Printer
import TableQuery.Json.Reader
import TableQuery.Json.Record
import TableQuery.Main
import TableQuery.Native.Builder
import TableQuery.Native.Condition
import TableQuery.Operator
import TableQuery.Path
import TableQuery.Plan
import TableQuery.Proofs.Decimal.Numeral
import TableQuery.Proofs.Decimal.Order
import TableQuery.Proofs.Decimal.RoundTrip
import TableQuery.Proofs.Except
import TableQuery.Proofs.Expr.Acceptance
import TableQuery.Proofs.Expr.Grammar
import TableQuery.Proofs.Expr.Language
import TableQuery.Proofs.Expr.Lexing
import TableQuery.Proofs.Expr.Literals
import TableQuery.Proofs.Expr.Meaning
import TableQuery.Proofs.Expr.Parsing
import TableQuery.Proofs.Expr.RoundTrip
import TableQuery.Proofs.Expr.WellFormed
import TableQuery.Proofs.Fields
import TableQuery.Proofs.Item.Writing
import TableQuery.Proofs.Json.Alike
import TableQuery.Proofs.Json.Decode
import TableQuery.Proofs.Native.Builder
import TableQuery.Proofs.Native.Discipline
import TableQuery.Proofs.Native.Faithful
import TableQuery.Proofs.Native.Folding
import TableQuery.Proofs.Native.Occurrences
import TableQuery.Proofs.Native.Reading
import TableQuery.Proofs.Native.Unambiguous
import TableQuery.Proofs.Native.Usage
import TableQuery.Proofs.Plan.Attributes
import TableQuery.Proofs.Plan.Outcome
import TableQuery.Proofs.Plan.Selection
import TableQuery.Proofs.Plan.Soundness
import TableQuery.Proofs.Plan.Split
import TableQuery.Proofs.Plan.Tolerance
import TableQuery.Proofs.ResultSet.Flags
import TableQuery.Proofs.ResultSet.Saved
import TableQuery.Proofs.Stored.Codec
import TableQuery.Proofs.Term.Attributes
import TableQuery.Proofs.Term.Conjuncts
import TableQuery.Proofs.Term.Holds
import TableQuery.Proofs.Term.KeyTerms
import TableQuery.Proofs.Term.Lowering
import TableQuery.Proofs.Term.Lowers
import TableQuery.Proofs.Term.Normal
import TableQuery.Proofs.Term.RoundTrip
import TableQuery.Proofs.Text.Digits
import TableQuery.Proofs.Text.Quoted
import TableQuery.Proofs.Value.Conversion
import TableQuery.Proofs.Value.Order
import TableQuery.Proofs.Value.Stored
import TableQuery.Proofs.Word
import TableQuery.ResultSet
import TableQuery.Schema.Basic
import TableQuery.Schema.Description
import TableQuery.Schema.Json
import TableQuery.Stored.Basic
import TableQuery.Stored.Json
import TableQuery.Term.Basic
import TableQuery.Term.Eval
import TableQuery.Term.Lower
import TableQuery.Text.Base64
import TableQuery.Text.Blank
import TableQuery.Text.Digits
import TableQuery.Text.Escaped
import TableQuery.Text.Quoted
import TableQuery.Text.Shortest
import TableQuery.Text.Unprintable
import TableQuery.Text.Utf8
import TableQuery.Value.Arith
import TableQuery.Value.Basic
import TableQuery.Value.Order
import TableQuery.Word
import TableQuery.Proofs.Item.Lens
import TableQuery.Proofs.Item.Removal
import TableQuery.Proofs.ResultSet.Matching
import TableQuery.Proofs.Decimal.Arith
import TableQuery.Proofs.Value.Comparison
import TableQuery.Proofs.Decimal.Truncation
import TableQuery.Proofs.Value.Arith
import TableQuery.Proofs.Builtin.Range
import TableQuery.Proofs.Text.Utf8
import TableQuery.Proofs.ResultSet.Sorting
import TableQuery.Proofs.Term.TypeNames
import TableQuery.Proofs.Term.Validity
import TableQuery.Proofs.Term.TypeTests
import TableQuery.Proofs.Expr.Lexemes
import TableQuery.Proofs.Expr.Parentheses
import TableQuery.Proofs.Expr.Places
import TableQuery.Proofs.Schema.Resolution
import TableQuery.Proofs.Command.Selection
import TableQuery.Proofs.Builtin.Column
import TableQuery.Proofs.Builtin.Marked
import TableQuery.Proofs.ResultSet.KeyOrder
