import LatencyReport.CommandLine
import LatencyReport.CommandLine.Filter
import LatencyReport.CommandLine.Options
import LatencyReport.Comparison
import LatencyReport.Config
import LatencyReport.Config.BuiltIn
import LatencyReport.Config.Reader
import LatencyReport.Dataset
import LatencyReport.Dataset.Table
import LatencyReport.Decimal.Layout
import LatencyReport.Decimal.Reader
import LatencyReport.Decimal.Shortest
import LatencyReport.Document
import LatencyReport.Experiment
import LatencyReport.Figure
import LatencyReport.FileError
import LatencyReport.Journal
import LatencyReport.Json
import LatencyReport.Json.Reader
import LatencyReport.Json.Writer
import LatencyReport.Label
import LatencyReport.Main
import LatencyReport.Palette
import LatencyReport.Partition
import LatencyReport.Phase
import LatencyReport.Plot
import LatencyReport.Records
import LatencyReport.Report
import LatencyReport.Series
import LatencyReport.Size
import LatencyReport.Storage.OsError
import LatencyReport.Storage.Path
import LatencyReport.Storage.Tree
import LatencyReport.Summary
import LatencyReport.Text.Alphanumeric
import LatencyReport.Text.Blank
import LatencyReport.Text.Lowercase
import LatencyReport.Text.Numeral
import LatencyReport.Text.Quoted
import LatencyReport.Text.Split
import LatencyReport.Text.Utf8
import LatencyReport.Tick
import LatencyReport.World
import LatencyReport.Yaml.Cursor
import LatencyReport.Yaml.Lexeme
import LatencyReport.Yaml.Node
import LatencyReport.Yaml.Resolve
import LatencyReport.Yaml.Token
import LatencyReport.Yaml.Writer
import LatencyReport.Proofs.Text.Split
import LatencyReport.Proofs.Text.Utf8
import LatencyReport.Proofs.Records.Cells
import LatencyReport.Proofs.Records.Lines
import LatencyReport.Proofs.Records.Table
import LatencyReport.Proofs.Records.Append
import LatencyReport.Proofs.Records.Cut
import LatencyReport.Proofs.Records.Header
import LatencyReport.Proofs.Dataset.File
import LatencyReport.Proofs.Dataset.Listing
import LatencyReport.Proofs.Dataset.Directory
import LatencyReport.Proofs.Figure.Points
import LatencyReport.Proofs.Text.Numeral
import LatencyReport.Proofs.Text.Lowercase
import LatencyReport.Proofs.Experiment.FileName
import LatencyReport.Proofs.Dataset.Spelling
import LatencyReport.Proofs.Summary.Order
import LatencyReport.Proofs.Dataset.RowOrder
import LatencyReport.Proofs.Binary64.Rounding
import LatencyReport.Proofs.Binary64.Encoding
import LatencyReport.Proofs.Binary64.Arithmetic
import LatencyReport.Proofs.Binary64.Between
import LatencyReport.Proofs.Binary64.Scientific
import LatencyReport.Proofs.Binary64.Conversion
import LatencyReport.Proofs.Binary64.NotNegative
import LatencyReport.Proofs.Binary64.Repeated
import LatencyReport.Proofs.Summary.Bounds
import LatencyReport.Proofs.Summary.Percentile
import LatencyReport.Proofs.Summary.Equal
import LatencyReport.Proofs.Records.Columns
import LatencyReport.Proofs.Records.Durations
import LatencyReport.Proofs.Records.Lookup
import LatencyReport.Proofs.Dataset.Bounds
import LatencyReport.Proofs.Decimal.Reader
import LatencyReport.Proofs.Records.Written
import LatencyReport.Proofs.Config.Threshold
import LatencyReport.Proofs.Config.RoundTrip
import LatencyReport.Proofs.Storage.Place
import LatencyReport.Proofs.Storage.Walk
import LatencyReport.Proofs.Storage.Change
import LatencyReport.Proofs.Storage.Runs
import LatencyReport.Proofs.Report.Stages
import LatencyReport.Proofs.Report.Outputs
import LatencyReport.Proofs.Report.Again
import LatencyReport.Proofs.Storage.Route
import LatencyReport.Proofs.Report.Within
import LatencyReport.Proofs.Decimal.Shortest
import LatencyReport.Proofs.Decimal.Layout
import LatencyReport.Proofs.Dataset.Table
import LatencyReport.Proofs.Dataset.TableLines
import LatencyReport.Proofs.Json.Scalars
import LatencyReport.Proofs.Json.Values
import LatencyReport.Proofs.Figure.Values
import LatencyReport.Proofs.Size.Reading
import LatencyReport.Proofs.Tick.Powers
import LatencyReport.Proofs.Figure.Stem
import LatencyReport.Proofs.Report.AnyOrder
import LatencyReport.Proofs.Records.Layout
import LatencyReport.Proofs.Records.Gaps
import LatencyReport.Proofs.Records.Numbers
import LatencyReport.Proofs.Dataset.Declared
import LatencyReport.Proofs.Dataset.Building
import LatencyReport.Proofs.Dataset.WholeMicros
import LatencyReport.Proofs.Json.Integers
import LatencyReport.Proofs.Config.ThresholdField
import LatencyReport.Proofs.Config.ThresholdText
import LatencyReport.Proofs.Series.Selection
import LatencyReport.Proofs.Plot.Sequence
import LatencyReport.Proofs.Palette.Numbering
import LatencyReport.Proofs.Figure.Panels
import LatencyReport.Proofs.Partition.Span
import LatencyReport.Proofs.Report.Plan
