import Scriptorium.Architecture.Diagram
import Scriptorium.Architecture.Model
import Scriptorium.Architecture.NodeId
import Scriptorium.Architecture.Tag
import Scriptorium.Archive.Artifact
import Scriptorium.Archive.Disk
import Scriptorium.Archive.Fault
import Scriptorium.Archive.FileTree
import Scriptorium.Archive.Name
import Scriptorium.Archive.Path
import Scriptorium.Archive.RunId
import Scriptorium.Archive.Shelf
import Scriptorium.Archive.Store
import Scriptorium.Archive.Timestamp
import Scriptorium.Assistant.Endpoint
import Scriptorium.Assistant.Failure
import Scriptorium.Assistant.Rehearsal
import Scriptorium.Assistant.Reply
import Scriptorium.Assistant.Request
import Scriptorium.CallGraph
import Scriptorium.Catalog
import Scriptorium.CommandLine.Arguments
import Scriptorium.CommandLine.Invocation
import Scriptorium.CommandLine.Program
import Scriptorium.Document
import Scriptorium.Drafting
import Scriptorium.Fatal
import Scriptorium.Json.Basic
import Scriptorium.Json.Object
import Scriptorium.Json.Printer
import Scriptorium.Json.Reader
import Scriptorium.Json.Record
import Scriptorium.Main
import Scriptorium.Manuscript
import Scriptorium.Number.Binary
import Scriptorium.Number.Literal
import Scriptorium.Number.Shortest
import Scriptorium.Pattern.Basic
import Scriptorium.Pattern.Reader
import Scriptorium.Pattern.Search
import Scriptorium.Placement
import Scriptorium.Proofs.Manuscript
import Scriptorium.Proofs.Run.Act
import Scriptorium.Proofs.Run.Cap
import Scriptorium.Proofs.Run.Course
import Scriptorium.Proofs.Run.Ending
import Scriptorium.Proofs.Run.Itinerary
import Scriptorium.Proofs.Run.Steady
import Scriptorium.Proofs.Run.Step
import Scriptorium.Proofs.Run.Texts
import Scriptorium.Proofs.Run.Turn
import Scriptorium.Proofs.Settings
import Scriptorium.Proofs.Store
import Scriptorium.Run.Clock
import Scriptorium.Run.Fanout
import Scriptorium.Run.Phase
import Scriptorium.Run.Progress
import Scriptorium.Run.Report
import Scriptorium.Run.Session
import Scriptorium.Run.Tally
import Scriptorium.Settings.Basic
import Scriptorium.Settings.Prompts
import Scriptorium.Settings.Record
import Scriptorium.Source
import Scriptorium.Survey
import Scriptorium.Taxonomy
import Scriptorium.Text.Blank
import Scriptorium.Text.Case
import Scriptorium.Text.CaseTable
import Scriptorium.Text.CategoryTable
import Scriptorium.Text.CharClass
import Scriptorium.Text.CodeRange
import Scriptorium.Text.Excerpt
import Scriptorium.Text.Fence
import Scriptorium.Text.Lines
import Scriptorium.Text.Ordered
import Scriptorium.Text.Quoted
import Scriptorium.Text.Search
import Scriptorium.Text.Template
import Scriptorium.Text.WordClass
import Scriptorium.Text.WordTable
import Scriptorium.Triage
import Scriptorium.Worklist
import Scriptorium.Yaml.Document
import Scriptorium.Yaml.Node
import Scriptorium.Yaml.Printer
import Scriptorium.Yaml.Scalar
import Scriptorium.Yaml.Spot
import Scriptorium.Yaml.Style
import Scriptorium.Yaml.Token
import Scriptorium.Yaml.Value
import Scriptorium.Proofs.Document
import Scriptorium.Proofs.Drafting
import Scriptorium.Proofs.Run.Replay
import Scriptorium.Proofs.Run.Document
import Scriptorium.Proofs.Run.Retained
import Scriptorium.Proofs.Run.Listing
import Scriptorium.Proofs.Run.InTurn
import Scriptorium.Proofs.Run.Flight
import Scriptorium.Proofs.Fitful
import Scriptorium.Proofs.Run.Twin
import Scriptorium.Proofs.Run.Judging
import Scriptorium.Proofs.Run.Accounts
import Scriptorium.Proofs.CommandLine.Inspection
import Scriptorium.Proofs.Run.Recovery
import Scriptorium.Proofs.Architecture
import Scriptorium.Proofs.Archive.Freshness
import Scriptorium.Proofs.Archive.Loading
import Scriptorium.Proofs.Archive.Mirror
import Scriptorium.Proofs.Compiling
import Scriptorium.Proofs.Architecture.NodeId
import Scriptorium.Proofs.Architecture.Drawing.Lines
import Scriptorium.Proofs.Survey
import Scriptorium.Proofs.Run.Surveys
import Scriptorium.Proofs.Settings.Record
import Scriptorium.Proofs.Text.Template
import Scriptorium.Proofs.Text.Lines
import Scriptorium.Proofs.Drafting.Failures
import Scriptorium.Proofs.Assistant.Reply
import Scriptorium.Proofs.Placement
import Scriptorium.Proofs.Triage.Keywords
import Scriptorium.Proofs.Triage.Substance
import Scriptorium.Proofs.Text.Lower
import Scriptorium.Proofs.Triage.Verbatim
import Scriptorium.Proofs.Triage.Names
import Scriptorium.Proofs.Catalog
import Scriptorium.Proofs.Run.Machine
import Scriptorium.Proofs.Archive.Containment
import Scriptorium.Proofs.Assistant.Endpoint
import Scriptorium.Proofs.CallGraph
import Scriptorium.Proofs.CallGraph.NodeLink
import Scriptorium.Proofs.CallGraph.Indexed
import Scriptorium.Proofs.Taxonomy
import Scriptorium.Proofs.Architecture.NodeId.Search
import Scriptorium.Proofs.Manuscript.Sections
