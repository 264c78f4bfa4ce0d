import EventTrace.CommandLine.Directory
import EventTrace.Main
import EventTrace.Proofs.Expression.Field
import EventTrace.Proofs.Interval.Statistics
import EventTrace.Proofs.Record.Truncation
import EventTrace.Proofs.Run.Interruption
import EventTrace.Proofs.Schema.Definitions
import EventTrace.Proofs.Template.Address
import EventTrace.Proofs.Template.Lines
import EventTrace.Proofs.Template.Rendering
import EventTrace.Proofs.Interval.Retiming
import EventTrace.Proofs.Run.Passes
import EventTrace.Proofs.Run.Report
import EventTrace.Proofs.Run.Level
import EventTrace.Proofs.Run.Aggregation
import EventTrace.Proofs.Run.Calibration
import EventTrace.Proofs.Run.Lines
import EventTrace.Proofs.Run.Sink
import EventTrace.Proofs.Text.Lines
import EventTrace.Proofs.Text.Escape
import EventTrace.Proofs.Record.Codec
import EventTrace.Proofs.Expression.Nesting
import EventTrace.Proofs.Run.Continuity
import EventTrace.Proofs.Run.Warnings
import EventTrace.Proofs.Run.Fallback
import EventTrace.Proofs.Template.Memory
import EventTrace.Proofs.Schema.Naming
import EventTrace.Proofs.Expression.Literal
import EventTrace.Proofs.Decimal.Fixed
import EventTrace.Proofs.Report.Magnitude
