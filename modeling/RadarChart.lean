import RadarChart.Main
import RadarChart.Proofs.Chart.Soundness
import RadarChart.Proofs.Document.Resolution
import RadarChart.Proofs.Chart.Language
import RadarChart.Proofs.Document.Line
import RadarChart.Proofs.Document.Printing
import RadarChart.Proofs.Chart.RoundTrip
import RadarChart.Proofs.Document.FirstMistake
import RadarChart.Proofs.Chart.Lookup
import RadarChart.Proofs.Chart.Meaning
import RadarChart.Proofs.Chart.Consistency
import RadarChart.Proofs.Chart.FirstProblem
import RadarChart.Proofs.Document.Source
import RadarChart.Proofs.Chart.ProblemLine
import RadarChart.Proofs.Drawing.Occurrence
import RadarChart.Proofs.Drawing.Written
import RadarChart.Proofs.Number.Plain
import RadarChart.Proofs.Drawing.Skeleton
import RadarChart.Proofs.Drawing.Reader
import RadarChart.Proofs.Drawing.Recovery
import RadarChart.Proofs.Layout.Exact
import RadarChart.Proofs.Layout.Extrema
import RadarChart.Proofs.Layout.Overhang
import RadarChart.Proofs.Layout.Fit
import RadarChart.Proofs.Layout.Faults
import RadarChart.Proofs.Layout.Total
import RadarChart.Proofs.Layout.Shape
import RadarChart.Proofs.Layout.Canvas
import RadarChart.Proofs.Number.Rounding
import RadarChart.Proofs.Number.Unpacked
import RadarChart.Proofs.Number.Packed
import RadarChart.Proofs.Number.Conversion
import RadarChart.Proofs.Number.Estimate
import RadarChart.Proofs.Layout.Floats
import RadarChart.Proofs.Layout.Placed
import RadarChart.Proofs.Layout.Capacity
import RadarChart.Proofs.Layout.Limits
import RadarChart.Proofs.Chart.Permutation
import RadarChart.Proofs.Chart.Renumbering
import RadarChart.Proofs.Chart.Comment
import RadarChart.Proofs.Document.FullLine
import RadarChart.Proofs.Chart.Expansion
import RadarChart.Proofs.Command.Loading
import RadarChart.Proofs.Chart.Alignment
import RadarChart.Proofs.Layout.Frame
import RadarChart.Proofs.Layout.Rescale
import RadarChart.Proofs.Command.FileTree
import RadarChart.Proofs.Drawing.Total
import RadarChart.Proofs.Command.Arguments
import RadarChart.Proofs.Command.Work
import RadarChart.Proofs.Command.Preservation
import RadarChart.Proofs.Text.Digits
import RadarChart.Proofs.Number.Decimal
import RadarChart.Proofs.Number.Trimmed
import RadarChart.Proofs.Number.Notation
import RadarChart.Proofs.Document.ProblemText
import RadarChart.Proofs.Command.Saving
import RadarChart.Proofs.Command.Agreement
import RadarChart.Proofs.Command.FileFault
import RadarChart.Proofs.Command.Stopped
import RadarChart.Proofs.Command.Outcome
import RadarChart.Proofs.Command.VerboseFlag
import RadarChart.Proofs.Command.Verbosity
import RadarChart.Proofs.Document.Concatenation
import RadarChart.Proofs.Layout.Coincidence
import RadarChart.Proofs.Layout.Factor
import RadarChart.Proofs.Layout.Wider
import RadarChart.Proofs.Text.Escape
import RadarChart.Proofs.Layout.BoundingBox
