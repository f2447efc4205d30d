import ObjectQuery.Main
import ObjectQuery.Catalog.Memo
import ObjectQuery.Proofs.Evaluation.Outcome
import ObjectQuery.Proofs.Value.Renaming
import ObjectQuery.Proofs.Value.Symmetry
import ObjectQuery.Proofs.Number.Decimal
import ObjectQuery.Proofs.Number.Shortest
import ObjectQuery.Proofs.Number.Conversion
import ObjectQuery.Proofs.Number.Rounding
import ObjectQuery.Proofs.Number.Rereading
import ObjectQuery.Proofs.Value.Comparison
import ObjectQuery.Proofs.Evaluation.Agreement
import ObjectQuery.Proofs.Method.Agreement
import ObjectQuery.Proofs.Method.Safety
import ObjectQuery.Proofs.Method.Slicing
import ObjectQuery.Proofs.Evaluation.Operation
import ObjectQuery.Proofs.Evaluation.Aggregate
import ObjectQuery.Proofs.Expr.Tree
import ObjectQuery.Proofs.Evaluation.Expression
import ObjectQuery.Proofs.Evaluation.Resolution
import ObjectQuery.Proofs.Evaluation.ResultSet
import ObjectQuery.Proofs.Expr.Inlining
import ObjectQuery.Proofs.Evaluation.Inlining
import ObjectQuery.Proofs.Method.Inlining
import ObjectQuery.Proofs.Evaluation.Parameter
import ObjectQuery.Proofs.Evaluation.Sequence
import ObjectQuery.Proofs.Evaluation.Safety
import ObjectQuery.Proofs.Evaluation.Fresh
import ObjectQuery.Proofs.Cursor.Work
import ObjectQuery.Proofs.Cursor.Selection
import ObjectQuery.Proofs.Cursor.Disjunction
import ObjectQuery.Proofs.Cursor.Event
import ObjectQuery.Proofs.Cursor.Streaming
import ObjectQuery.Proofs.Cursor.Gathering
import ObjectQuery.Proofs.Cursor.Opening
import ObjectQuery.Proofs.Cursor.Retry
import ObjectQuery.Proofs.Cursor.StableSort
import ObjectQuery.Proofs.Cursor.KeyOrder
import ObjectQuery.Proofs.Evaluation.Extreme
import ObjectQuery.Proofs.Cursor.Composition
import ObjectQuery.Proofs.Cursor.Sorting
import ObjectQuery.Proofs.Cursor.Extension
import ObjectQuery.Proofs.Store.History
import ObjectQuery.Proofs.Store.Layout
import ObjectQuery.Proofs.Catalog.Memo
import ObjectQuery.Proofs.Query.Planning
import ObjectQuery.Proofs.Query.Paging
import ObjectQuery.Proofs.Query.Document
import ObjectQuery.Proofs.Pattern.Search
import ObjectQuery.Proofs.Pattern.Scan
import ObjectQuery.Proofs.Pattern.CharClass
import ObjectQuery.Proofs.Pattern.Reader
import ObjectQuery.Proofs.Pattern.Size
import ObjectQuery.Proofs.Pattern.Enclosing
import ObjectQuery.Proofs.Json.Members
import ObjectQuery.Proofs.Json.Tree
import ObjectQuery.Proofs.Json.Reader
import ObjectQuery.Proofs.Number.Digits
import ObjectQuery.Proofs.Value.Reading
import ObjectQuery.Proofs.Number.Quotient
import ObjectQuery.Proofs.Evaluation.Total
import ObjectQuery.Proofs.Catalog.Ancestry
import ObjectQuery.Proofs.Catalog.Registration
import ObjectQuery.Proofs.Value.Strict
import ObjectQuery.Proofs.Value.Representative
import ObjectQuery.Proofs.Evaluation.Apart
import ObjectQuery.Proofs.Evaluation.Counting
import ObjectQuery.Proofs.Catalog.Naming
import ObjectQuery.Proofs.Evaluation.Comparison
import ObjectQuery.Proofs.Evaluation.Arithmetic
import ObjectQuery.Proofs.Cursor.FilterOrder
import ObjectQuery.Proofs.Evaluation.Casting
import ObjectQuery.Proofs.Evaluation.Negation
import ObjectQuery.Proofs.Evaluation.Conversion
import ObjectQuery.Proofs.Method.Entry
import ObjectQuery.Proofs.Cursor.Rounds
import ObjectQuery.Proofs.Cursor.Fusion
import ObjectQuery.Proofs.Cursor.Lineage
import ObjectQuery.Proofs.Evaluation.Condition
import ObjectQuery.Proofs.Method.Dispatch
import ObjectQuery.Proofs.Evaluation.Arguments
import ObjectQuery.Proofs.Catalog.Construction
import ObjectQuery.Proofs.Evaluation.Creation
import ObjectQuery.Proofs.Method.Positions
import ObjectQuery.Proofs.Value.Numeral
import ObjectQuery.Proofs.Value.Plain
import ObjectQuery.Proofs.Value.Reprinting
import ObjectQuery.Proofs.Query.Reprinting
import ObjectQuery.Proofs.Value.Refinement
import ObjectQuery.Proofs.Catalog.Builtin
import ObjectQuery.Proofs.Method.Receivers
import ObjectQuery.Proofs.Method.Membership
