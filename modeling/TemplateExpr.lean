import TemplateExpr.Access
import TemplateExpr.Action
import TemplateExpr.Command
import TemplateExpr.EvalError
import TemplateExpr.Expr
import TemplateExpr.Expr.Cache
import TemplateExpr.Expr.Evaluate
import TemplateExpr.Expr.Parse
import TemplateExpr.Expr.Render
import TemplateExpr.Expr.SourceError
import TemplateExpr.Fields
import TemplateExpr.Filter
import TemplateExpr.Filter.Builtin
import TemplateExpr.Heap
import TemplateExpr.Json
import TemplateExpr.Json.Convert
import TemplateExpr.Json.Read
import TemplateExpr.Main
import TemplateExpr.Number.Arithmetic
import TemplateExpr.Number.Binary64
import TemplateExpr.Number.Decimal
import TemplateExpr.Number.FixedPoint
import TemplateExpr.Number.Layout
import TemplateExpr.Number.Reading
import TemplateExpr.Operator
import TemplateExpr.Operator.Apply
import TemplateExpr.Outline
import TemplateExpr.Proofs.Access
import TemplateExpr.Proofs.Action
import TemplateExpr.Proofs.Expr.Assignment
import TemplateExpr.Proofs.Expr.Executions
import TemplateExpr.Proofs.Expr.Formed
import TemplateExpr.Proofs.Expr.Locals
import TemplateExpr.Proofs.Expr.Names
import TemplateExpr.Proofs.Expr.Nodes
import TemplateExpr.Proofs.Expr.Padding
import TemplateExpr.Proofs.Expr.Repetition
import TemplateExpr.Proofs.Expr.Reread
import TemplateExpr.Proofs.Expr.RoundTrip
import TemplateExpr.Proofs.Expr.Sequencing
import TemplateExpr.Proofs.Expr.Totality
import TemplateExpr.Proofs.Grammar.Locations
import TemplateExpr.Proofs.Grammar.Reading
import TemplateExpr.Proofs.Heap.Comparison
import TemplateExpr.Proofs.Heap.Correspondence
import TemplateExpr.Proofs.Heap.Data
import TemplateExpr.Proofs.Heap.Invariance
import TemplateExpr.Proofs.Heap.Path
import TemplateExpr.Proofs.Heap.Refinement
import TemplateExpr.Proofs.Heap.Update
import TemplateExpr.Proofs.Json.Documents
import TemplateExpr.Proofs.Json.RoundTrip
import TemplateExpr.Proofs.Number.Integers
import TemplateExpr.Proofs.Number.Nearest
import TemplateExpr.Proofs.Operator.Equality
import TemplateExpr.Proofs.Operator.Ordering
import TemplateExpr.Proofs.Token.Extent
import TemplateExpr.Proofs.Token.Progress
import TemplateExpr.Proofs.Token.Spacing
import TemplateExpr.Proofs.Watch.Agreement
import TemplateExpr.Proofs.Watch.Binding
import TemplateExpr.Proofs.Watch.History
import TemplateExpr.Proofs.Watch.Memory
import TemplateExpr.Proofs.Watch.Obstacles
import TemplateExpr.Proofs.Watch.Refinement
import TemplateExpr.Proofs.Watch.Transparency
import TemplateExpr.Snapshot
import TemplateExpr.Text.Alphabetic
import TemplateExpr.Text.Blank
import TemplateExpr.Text.Case
import TemplateExpr.Text.CaseTable
import TemplateExpr.Text.Cased
import TemplateExpr.Text.Numeric
import TemplateExpr.Text.Printable
import TemplateExpr.Text.Quoted
import TemplateExpr.Text.Spans
import TemplateExpr.Token
import TemplateExpr.Token.Quotation
import TemplateExpr.Token.Scan
import TemplateExpr.Value
import TemplateExpr.Watch
import TemplateExpr.Watch.Build
