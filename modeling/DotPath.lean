import DotPath.Text.Basic
import DotPath.Text.Blank
import DotPath.Text.Glob
import DotPath.Text.Ranges
import DotPath.Text.Alphanumeric
import DotPath.Text.Cased
import DotPath.Text.CaseMapping
import DotPath.Text.Shown
import DotPath.Json.Kind
import DotPath.Json.Extent
import DotPath.Json.Quoted
import DotPath.Json.Place
import DotPath.Json.Items
import DotPath.Json.WellFormed
import DotPath.Number.Binary64
import DotPath.Number.Reading
import DotPath.Number.Shortest
import DotPath.Number.Notation
import DotPath.Json.Value
import DotPath.Json.Layout
import DotPath.Json.Walk
import DotPath.Text.Place
import DotPath.Path.Basic
import DotPath.Path.Error
import DotPath.Path.Escape
import DotPath.Path.Delimit
import DotPath.Path.Component
import DotPath.Path.Compile
import DotPath.Selection.Basic
import DotPath.Selection.Convert
import DotPath.Json.Stream
import DotPath.Json.Compose
import DotPath.Selection.Compare
import DotPath.Evaluator.Basic
import DotPath.Evaluator.Abort
import DotPath.Memory
import DotPath.Sorting
import DotPath.Json.Equality
import DotPath.Transformer.Basic
import DotPath.Transformer.Argument
import DotPath.Transformer.Structure
import DotPath.Transformer.Strings
import DotPath.Transformer.Objects
import DotPath.Transformer.Arrays
import DotPath.Transformer.Builtin
import DotPath.Registry
import DotPath.Environment
import DotPath.Transformer.Custom
import DotPath.Text.Utf8
import DotPath.Octets
import DotPath.Search
import DotPath.Aggregate
import DotPath.Command
import DotPath.Main
import DotPath.Proofs.Text.Octets
import DotPath.Proofs.Text.Order
import DotPath.Proofs.Json.Grammar
import DotPath.Proofs.Json.Numeral
import DotPath.Proofs.Json.Extent
import DotPath.Proofs.Json.Token
import DotPath.Proofs.Json.WellFormed
import DotPath.Proofs.Octets
import DotPath.Proofs.Json.Place
import DotPath.Proofs.Json.Items
import DotPath.Proofs.Json.Slice
import DotPath.Proofs.Evaluator.Batch
import DotPath.Proofs.Json.Composed
import DotPath.Proofs.Json.Quoted
import DotPath.Proofs.Json.Walk
import DotPath.Proofs.Json.Tree
import DotPath.Proofs.Evaluator.Anchored
import DotPath.Proofs.Evaluator.Follow
import DotPath.Proofs.Evaluator.Located
import DotPath.Proofs.Evaluator.Stages
import DotPath.Proofs.Evaluator.Gathered
import DotPath.Proofs.Evaluator.WellFormed
import DotPath.Proofs.Number.Reading
import DotPath.Proofs.Path.Delimit
import DotPath.Proofs.Path.Component
import DotPath.Proofs.Path.Segments
import DotPath.Proofs.Path.Compile
import DotPath.Proofs.Evaluator.Pipe
import DotPath.Proofs.Evaluator.Alike
import DotPath.Proofs.Evaluator.Fusion
import DotPath.Proofs.Evaluator.Hardened
import DotPath.Proofs.Path.Plain
import DotPath.Proofs.Path.Embedded
import DotPath.Proofs.Path.Query
import DotPath.Proofs.Json.Nodes
import DotPath.Proofs.Json.Reached
import DotPath.Proofs.Search
import DotPath.Proofs.Evaluator.Named
import DotPath.Proofs.Evaluator.Shift
import DotPath.Proofs.Json.Stream
import DotPath.Proofs.Evaluator.Lines
import DotPath.Proofs.Json.LeftOpen
import DotPath.Proofs.Evaluator.SkippedLine
import DotPath.Proofs.Path.Carried
import DotPath.Proofs.Path.Height
import DotPath.Proofs.Path.Levels
import DotPath.Proofs.Evaluator.Enclosed
import DotPath.Proofs.Command
import DotPath.Proofs.Registry
import DotPath.Proofs.Number.Notation
import DotPath.Proofs.Json.Closure
import DotPath.Proofs.Json.Lenient
import DotPath.Proofs.Path.Literal
import DotPath.Proofs.Json.Layout
import DotPath.Proofs.Json.Canonical
import DotPath.Proofs.StableSort
import DotPath.Proofs.Json.Arranged
import DotPath.Proofs.Json.Sorted
import DotPath.Proofs.Json.Merged
import DotPath.Proofs.Json.Made
import DotPath.Proofs.Aggregate.Sorting
import DotPath.Proofs.Selection.Compare
import DotPath.Proofs.Evaluator.Query
import DotPath.Proofs.Evaluator.Projection
import DotPath.Proofs.Aggregate.Distinct
import DotPath.Proofs.Transformer.WellFormed
import DotPath.Proofs.Evaluator.Abort
import DotPath.Proofs.Transformer.Room
import DotPath.Proofs.Transformer.Outputs
import DotPath.Proofs.Transformer.Reading
import DotPath.Proofs.Transformer.Join
import DotPath.Proofs.Transformer.Defaults
import DotPath.Proofs.Transformer.Columns
import DotPath.Proofs.Number.Binary64
import DotPath.Proofs.Selection.Integer
import DotPath.Proofs.Indexed.Basic
import DotPath.Proofs.Indexed.Scan
import DotPath.Proofs.Indexed.Items
import DotPath.Proofs.Indexed.Visitor
import DotPath.Proofs.Indexed.Run
import DotPath.Proofs.Indexed.Delimit
import DotPath.Proofs.Indexed.Component
import DotPath.Proofs.Indexed.Compile
import DotPath.Proofs.Text.Glob
import DotPath.Proofs.Evaluator.Descent
import DotPath.Proofs.Evaluator.RootDescent
import DotPath.Proofs.Indexed.Glob
import DotPath.Proofs.Indexed.Selection
import DotPath.Proofs.Indexed.Accessors
import DotPath.Proofs.Indexed.Evaluator
import DotPath.Proofs.Indexed.Engine
import DotPath.Proofs.Indexed.Flatten
import DotPath.Proofs.Indexed.Group
import DotPath.Proofs.Transformer.Flatten
import DotPath.Proofs.Transformer.Group
import DotPath.Proofs.Aggregate.Grouping
import DotPath.Proofs.Transformer.Quoting
import DotPath.Proofs.Selection.Order
import DotPath.Proofs.Indexed.Masked
import DotPath.Proofs.Indexed.Contained
import DotPath.Proofs.Indexed.Exact
import DotPath.Proofs.Transformer.Words
