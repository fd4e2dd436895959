import CodeAtlas.Analysis
import CodeAtlas.Analysis.Document
import CodeAtlas.Candidate
import CodeAtlas.CommandLine.Command
import CodeAtlas.CommandLine.Grammar
import CodeAtlas.CommandLine.Run
import CodeAtlas.Complexity
import CodeAtlas.Decimal.Binary64
import CodeAtlas.Decimal.Fixed
import CodeAtlas.Decimal.Shortest
import CodeAtlas.Diagram.Basic
import CodeAtlas.Diagram.Loops
import CodeAtlas.Diagram.Operation
import CodeAtlas.Diagram.Shape
import CodeAtlas.Diagram.Viewport
import CodeAtlas.Disk.Basic
import CodeAtlas.Disk.Canonical
import CodeAtlas.Disk.Edit
import CodeAtlas.Disk.Listing
import CodeAtlas.Edge
import CodeAtlas.Entry
import CodeAtlas.Fault
import CodeAtlas.Forest
import CodeAtlas.Forest.Growth
import CodeAtlas.Forest.Selection
import CodeAtlas.Journal
import CodeAtlas.Json
import CodeAtlas.Json.Decode
import CodeAtlas.Json.Reader
import CodeAtlas.Json.Shown
import CodeAtlas.Json.Value
import CodeAtlas.Language
import CodeAtlas.Layout.Body
import CodeAtlas.Layout.Cooling
import CodeAtlas.Layout.Force
import CodeAtlas.Layout.Simulation
import CodeAtlas.Layout.Spring
import CodeAtlas.Linkage
import CodeAtlas.Linkage.Import
import CodeAtlas.Main
import CodeAtlas.Path
import CodeAtlas.Project
import CodeAtlas.Random.Twister
import CodeAtlas.Reading
import CodeAtlas.Role
import CodeAtlas.Scalar
import CodeAtlas.Scene
import CodeAtlas.Scene.Document
import CodeAtlas.Service
import CodeAtlas.Session
import CodeAtlas.Session.Document
import CodeAtlas.Settings
import CodeAtlas.SourceUnit
import CodeAtlas.Statistics
import CodeAtlas.Studio
import CodeAtlas.Svg.Drawing
import CodeAtlas.Svg.Markup
import CodeAtlas.Table
import CodeAtlas.Text.Blank
import CodeAtlas.Text.Casing
import CodeAtlas.Text.Casing.Table
import CodeAtlas.Text.Numeral
import CodeAtlas.Text.Printable
import CodeAtlas.Text.Quoted
import CodeAtlas.Text.Scan
import CodeAtlas.Text.Segment
import CodeAtlas.Text.Utf8
import CodeAtlas.Upload
import CodeAtlas.ViewMode
import CodeAtlas.Proofs.Analysis.Counts
import CodeAtlas.Proofs.Analysis.Dependents
import CodeAtlas.Proofs.Analysis.Recorded
import CodeAtlas.Proofs.Analysis.Records
import CodeAtlas.Proofs.Analysis.Reordered
import CodeAtlas.Proofs.Complexity
import CodeAtlas.Proofs.Decimal.Binary64
import CodeAtlas.Proofs.Decimal.Numerals
import CodeAtlas.Proofs.Diagram.Drag
import CodeAtlas.Proofs.Diagram.Effect
import CodeAtlas.Proofs.Diagram.Hold
import CodeAtlas.Proofs.Diagram.Loops
import CodeAtlas.Proofs.Diagram.Rest
import CodeAtlas.Proofs.Diagram.Restart
import CodeAtlas.Proofs.Diagram.Scene
import CodeAtlas.Proofs.Diagram.Settling
import CodeAtlas.Proofs.Diagram.Size
import CodeAtlas.Proofs.Diagram.View
import CodeAtlas.Proofs.Diagram.Viewport
import CodeAtlas.Proofs.Disk.Links
import CodeAtlas.Proofs.Disk.Listing
import CodeAtlas.Proofs.Disk.Place
import CodeAtlas.Proofs.Disk.Pruned
import CodeAtlas.Proofs.Edge.Dependency
import CodeAtlas.Proofs.Edge.Nesting
import CodeAtlas.Proofs.Forest.Growth
import CodeAtlas.Proofs.Forest.Nesting
import CodeAtlas.Proofs.Forest.Nodes
import CodeAtlas.Proofs.Forest.RoundTrip
import CodeAtlas.Proofs.Forest.Search
import CodeAtlas.Proofs.Forest.Selection
import CodeAtlas.Proofs.Forest.Survey
import CodeAtlas.Proofs.Journal
import CodeAtlas.Proofs.Layout.Cooling
import CodeAtlas.Proofs.Layout.Division
import CodeAtlas.Proofs.Layout.Divisors
import CodeAtlas.Proofs.Layout.Hold
import CodeAtlas.Proofs.Layout.Momentum
import CodeAtlas.Proofs.Layout.Quotients
import CodeAtlas.Proofs.Linkage.ExportPhrase
import CodeAtlas.Proofs.Linkage.ImportPhrase
import CodeAtlas.Proofs.Linkage.Lines
import CodeAtlas.Proofs.Linkage.SourcePhrase
import CodeAtlas.Proofs.Path
import CodeAtlas.Proofs.Project
import CodeAtlas.Proofs.Reading.Collect
import CodeAtlas.Proofs.Reading.Course
import CodeAtlas.Proofs.Scalar
import CodeAtlas.Proofs.Session.Account
import CodeAtlas.Proofs.Session.Ending
import CodeAtlas.Proofs.Session.Heard
import CodeAtlas.Proofs.Session.Informed
import CodeAtlas.Proofs.Session.Overtaken
import CodeAtlas.Proofs.Session.Recovery
import CodeAtlas.Proofs.Session.Standing
import CodeAtlas.Proofs.Session.Step
import CodeAtlas.Proofs.Statistics
import CodeAtlas.Proofs.Statistics.Parts
import CodeAtlas.Proofs.Studio.Display
import CodeAtlas.Proofs.Svg.Markup
import CodeAtlas.Proofs.Svg.Places
import CodeAtlas.Proofs.Svg.Reader
import CodeAtlas.Proofs.Svg.RoundTrip
import CodeAtlas.Proofs.Table
import CodeAtlas.Proofs.Text.Casing
import CodeAtlas.Proofs.Text.Cut
import CodeAtlas.Proofs.Text.LineEnds
import CodeAtlas.Proofs.Text.Scan
import CodeAtlas.Proofs.Text.Segment
import CodeAtlas.Proofs.Text.Words
import CodeAtlas.Proofs.Upload.Listing
import CodeAtlas.Proofs.Upload.Units
