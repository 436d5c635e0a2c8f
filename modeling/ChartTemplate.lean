import ChartTemplate.Axis.Basic
import ChartTemplate.Axis.Drawing
import ChartTemplate.Color
import ChartTemplate.CommandLine.Arguments
import ChartTemplate.CommandLine.Help
import ChartTemplate.CommandLine.Run
import ChartTemplate.Entries
import ChartTemplate.Fault
import ChartTemplate.Format.Digits
import ChartTemplate.Format.NumberFormat
import ChartTemplate.Format.Specifier
import ChartTemplate.Helper.Call
import ChartTemplate.Helper.Name
import ChartTemplate.Helper.Registry
import ChartTemplate.Host
import ChartTemplate.Json.Basic
import ChartTemplate.Json.Indented
import ChartTemplate.Json.Parser
import ChartTemplate.Json.Printer
import ChartTemplate.Json.Skip
import ChartTemplate.Main
import ChartTemplate.Numeric.Decimal
import ChartTemplate.Numeric.Elementary
import ChartTemplate.Numeric.Logarithm
import ChartTemplate.Numeric.Parts
import ChartTemplate.Numeric.Read
import ChartTemplate.Numeric.Rounding
import ChartTemplate.Numeric.Text
import ChartTemplate.Options
import ChartTemplate.Palette
import ChartTemplate.Proofs.Axis.Markup
import ChartTemplate.Proofs.Entries
import ChartTemplate.Proofs.Format.CutOff
import ChartTemplate.Proofs.Format.Grouping
import ChartTemplate.Proofs.Format.Guard
import ChartTemplate.Proofs.Format.HalfUp
import ChartTemplate.Proofs.Format.Padding
import ChartTemplate.Proofs.Format.Partition
import ChartTemplate.Proofs.Format.Placed
import ChartTemplate.Proofs.Format.Rounded
import ChartTemplate.Proofs.Format.Specifier
import ChartTemplate.Proofs.Format.Thousands
import ChartTemplate.Proofs.Format.Trimmed
import ChartTemplate.Proofs.Helper.Alike
import ChartTemplate.Proofs.Helper.CutOff
import ChartTemplate.Proofs.Helper.Effect
import ChartTemplate.Proofs.Helper.Isolation
import ChartTemplate.Proofs.Helper.Lists
import ChartTemplate.Proofs.Helper.Refused
import ChartTemplate.Proofs.Helper.Reset
import ChartTemplate.Proofs.Helper.TickCounts
import ChartTemplate.Proofs.InPlace.Call
import ChartTemplate.Proofs.InPlace.Continuous
import ChartTemplate.Proofs.InPlace.CutOff
import ChartTemplate.Proofs.InPlace.Format
import ChartTemplate.Proofs.InPlace.Registry
import ChartTemplate.Proofs.InPlace.Scale
import ChartTemplate.Proofs.InPlace.Ticks
import ChartTemplate.Proofs.Json.Depth
import ChartTemplate.Proofs.Json.Distinct
import ChartTemplate.Proofs.Json.Numeral
import ChartTemplate.Proofs.Json.Quoted
import ChartTemplate.Proofs.Json.Reading
import ChartTemplate.Proofs.Numeric.Exact
import ChartTemplate.Proofs.Numeric.Integers
import ChartTemplate.Proofs.Numeric.Leading
import ChartTemplate.Proofs.Numeric.Nearest
import ChartTemplate.Proofs.Numeric.Packing
import ChartTemplate.Proofs.Numeric.ReadBack
import ChartTemplate.Proofs.Numeric.Signs
import ChartTemplate.Proofs.Palette
import ChartTemplate.Proofs.RenderedChart
import ChartTemplate.Proofs.Scale.Layout
import ChartTemplate.Proofs.Scale.Ordinal
import ChartTemplate.Proofs.Scale.Reread
import ChartTemplate.Proofs.Scale.Segments
import ChartTemplate.Proofs.Scale.Steps
import ChartTemplate.Proofs.Scale.StrayTicks
import ChartTemplate.Proofs.Scale.TimeDomain
import ChartTemplate.Proofs.Session
import ChartTemplate.Proofs.Spec.Binding
import ChartTemplate.Proofs.Spec.Closure
import ChartTemplate.Proofs.Spec.Fallback
import ChartTemplate.Proofs.Spec.Frame
import ChartTemplate.Proofs.Spec.Layout
import ChartTemplate.Proofs.Spec.Readable
import ChartTemplate.Proofs.Spec.Rebound
import ChartTemplate.Proofs.Spec.Remap
import ChartTemplate.Proofs.Spec.Strict
import ChartTemplate.Proofs.Spec.Tokens
import ChartTemplate.Proofs.Spec.Tolerant
import ChartTemplate.Proofs.Spec.Verified
import ChartTemplate.Proofs.Spec.Verify
import ChartTemplate.Proofs.Table.Checks
import ChartTemplate.Proofs.Table.Construction
import ChartTemplate.Proofs.Table.Inference
import ChartTemplate.Proofs.Table.Rows
import ChartTemplate.Proofs.Table.Vectors
import ChartTemplate.Proofs.Table.Views
import ChartTemplate.Proofs.Template.CallSites
import ChartTemplate.Proofs.Template.Calls
import ChartTemplate.Proofs.Template.Checked
import ChartTemplate.Proofs.Template.Ends
import ChartTemplate.Proofs.Template.Failures
import ChartTemplate.Proofs.Template.Hidden
import ChartTemplate.Proofs.Template.Kept
import ChartTemplate.Proofs.Template.Room
import ChartTemplate.Proofs.Ticks.Range
import ChartTemplate.Proofs.Ticks.Search
import ChartTemplate.Proofs.Ticks.Units
import ChartTemplate.Proofs.Time.Instants
import ChartTemplate.Proofs.Time.Months
import ChartTemplate.Proofs.Time.Passages
import ChartTemplate.Proofs.Time.Timestamps
import ChartTemplate.Proofs.Value.Passed
import ChartTemplate.Proofs.Walk.Address
import ChartTemplate.Proofs.Walk.Coverage
import ChartTemplate.Proofs.Walk.Frame
import ChartTemplate.Proofs.Walk.Live
import ChartTemplate.Proofs.Walk.Pass
import ChartTemplate.Proofs.Walk.Reference
import ChartTemplate.Proofs.Walk.Run
import ChartTemplate.Proofs.Walk.Traced
import ChartTemplate.Proofs.Walk.Visits
import ChartTemplate.Scale.Band
import ChartTemplate.Scale.Basic
import ChartTemplate.Scale.Continuous
import ChartTemplate.Scale.Kind
import ChartTemplate.Scale.Ordinal
import ChartTemplate.Scale.Quantize
import ChartTemplate.Scale.Sequential
import ChartTemplate.Session
import ChartTemplate.Spec.Binding
import ChartTemplate.Spec.Mapping
import ChartTemplate.Spec.Relaxed
import ChartTemplate.Spec.Source
import ChartTemplate.Spec.Walk
import ChartTemplate.Table.Basic
import ChartTemplate.Table.Cell
import ChartTemplate.Table.Csv
import ChartTemplate.Table.Lists
import ChartTemplate.Template.Basic
import ChartTemplate.Template.Builtin
import ChartTemplate.Template.CallTree
import ChartTemplate.Template.Diagnostic
import ChartTemplate.Template.Expression
import ChartTemplate.Template.Hidden
import ChartTemplate.Template.Layout
import ChartTemplate.Template.Position
import ChartTemplate.Template.Render
import ChartTemplate.Template.Scope
import ChartTemplate.Template.Tag
import ChartTemplate.Text.Blank
import ChartTemplate.Text.Escape
import ChartTemplate.Text.Printable
import ChartTemplate.Text.Quoted
import ChartTemplate.Ticks.Label
import ChartTemplate.Ticks.Linear
import ChartTemplate.Ticks.Time
import ChartTemplate.Time.Calendar
import ChartTemplate.Time.Instant
import ChartTemplate.Time.Iso
import ChartTemplate.Time.Pattern
import ChartTemplate.Value.Arithmetic
import ChartTemplate.Value.Basic
import ChartTemplate.Value.Document
import ChartTemplate.Value.Interpolation
import ChartTemplate.Value.Lists
