import GridOps.Device.Crew
import GridOps.Device.PrefixSum
import GridOps.Device.Session
import GridOps.Device.Trace
import GridOps.Join.Cell
import GridOps.Join.ConcurrentInsert
import GridOps.Join.Cursor
import GridOps.Join.NestedLoop
import GridOps.Join.Session
import GridOps.Main
import GridOps.Proofs.Bench.Options
import GridOps.Proofs.Bench.Width
import GridOps.Proofs.CommandLine.Values
import GridOps.Proofs.Device.Accounting
import GridOps.Proofs.Device.Crew
import GridOps.Proofs.Device.Dispatch
import GridOps.Proofs.Device.Geometry
import GridOps.Proofs.Device.Plan
import GridOps.Proofs.Device.PrefixSum
import GridOps.Proofs.Device.Scan
import GridOps.Proofs.Device.Schedule
import GridOps.Proofs.Device.Serial
import GridOps.Proofs.Device.Session
import GridOps.Proofs.Device.Settle
import GridOps.Proofs.Device.Tiles
import GridOps.Proofs.Join.Attempt
import GridOps.Proofs.Join.Build
import GridOps.Proofs.Join.BuildOutcome
import GridOps.Proofs.Join.Columns
import GridOps.Proofs.Join.ConcurrentInsert
import GridOps.Proofs.Join.Course
import GridOps.Proofs.Join.Entries
import GridOps.Proofs.Join.Estimate
import GridOps.Proofs.Join.Failure
import GridOps.Proofs.Join.Filling
import GridOps.Proofs.Join.Growth
import GridOps.Proofs.Join.HashBijection
import GridOps.Proofs.Join.HashBytes
import GridOps.Proofs.Join.Materialize
import GridOps.Proofs.Join.NestedLoop
import GridOps.Proofs.Join.Outcome
import GridOps.Proofs.Join.Peak
import GridOps.Proofs.Join.Prepare
import GridOps.Proofs.Join.Probe
import GridOps.Proofs.Join.Reach
import GridOps.Proofs.Join.Resize
import GridOps.Proofs.Join.Result
import GridOps.Proofs.Join.RowNumbers
import GridOps.Proofs.Join.Sampling
import GridOps.Proofs.Join.Session
import GridOps.Proofs.Join.SingleKey
import GridOps.Proofs.Join.Symmetry
import GridOps.Proofs.Join.Transpose
import GridOps.Proofs.Join.Walk
import GridOps.Proofs.Join.Width
import GridOps.Proofs.Relation.File
import GridOps.Proofs.Relation.Foreign
import GridOps.Proofs.Relation.Primary
import GridOps.Proofs.Relation.Sheet
import GridOps.Proofs.Relation.Shuffle
import GridOps.Proofs.Relation.SkewedTail
import GridOps.Proofs.Text.Numeral
import GridOps.Proofs.Text.Words
import GridOps.Proofs.Vocabulary.Format
import GridOps.Proofs.Vocabulary.Lookup
import GridOps.Proofs.Vocabulary.TokenHash
import GridOps.Proofs.WordPiece.Accepted
import GridOps.Proofs.WordPiece.Fill
import GridOps.Proofs.WordPiece.Greedy
import GridOps.Proofs.WordPiece.Layout
import GridOps.Proofs.WordPiece.Memory
import GridOps.Proofs.WordPiece.Normalized
import GridOps.Proofs.WordPiece.Outcome
import GridOps.Proofs.WordPiece.Rows
import GridOps.Proofs.WordPiece.Segment
import GridOps.Proofs.WordPiece.Session
import GridOps.Proofs.WordPiece.Tensor
import GridOps.Proofs.WordPiece.TensorOutcome
import GridOps.Proofs.WordPiece.TokenCount
import GridOps.Proofs.WordPiece.TokenIds
import GridOps.Proofs.WordPiece.Tokenize
import GridOps.Text.Normalize
import GridOps.WordPiece.Session
import GridOps.WordPiece.Tensor
