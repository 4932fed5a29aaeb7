import MeshView.Backfill
import MeshView.Backfill.Intake
import MeshView.Bytes
import MeshView.CommandLine
import MeshView.CommandLine.Help
import MeshView.CommandLine.Run
import MeshView.Component
import MeshView.Diff
import MeshView.Diff.Frame
import MeshView.Document
import MeshView.Document.Content
import MeshView.Document.Diff
import MeshView.Document.Frame
import MeshView.Document.Identity
import MeshView.Document.Load
import MeshView.Document.Scenario
import MeshView.Document.Settings
import MeshView.Event
import MeshView.Fleet
import MeshView.IdMap
import MeshView.Identity
import MeshView.Json
import MeshView.Json.Document
import MeshView.Json.Parse
import MeshView.Json.Render
import MeshView.Json.Sorted
import MeshView.Main
import MeshView.Mesh
import MeshView.Mesh.Convergence
import MeshView.Mesh.Random
import MeshView.Mesh.Survey
import MeshView.Monitor
import MeshView.Monitor.Engine
import MeshView.Monitor.Settle
import MeshView.Neighbors
import MeshView.Proofs.Backfill
import MeshView.Proofs.Backfill.Intake
import MeshView.Proofs.Capacity
import MeshView.Proofs.Component
import MeshView.Proofs.Component.Queue
import MeshView.Proofs.Costs
import MeshView.Proofs.Diff.Frame
import MeshView.Proofs.Diff.Transmission
import MeshView.Proofs.Document.Records
import MeshView.Proofs.Document.RoundTrip
import MeshView.Proofs.Fleet
import MeshView.Proofs.Json.RoundTrip
import MeshView.Proofs.Json.Tokens
import MeshView.Proofs.Latest
import MeshView.Proofs.Mesh.Knowledge
import MeshView.Proofs.Mesh.Links
import MeshView.Proofs.Mesh.Lists
import MeshView.Proofs.Mesh.Mirror
import MeshView.Proofs.Mesh.Partition
import MeshView.Proofs.Mesh.Play
import MeshView.Proofs.Mesh.Random
import MeshView.Proofs.Mesh.Survey
import MeshView.Proofs.Mesh.Visible
import MeshView.Proofs.Monitor.Abreast
import MeshView.Proofs.Monitor.Actions
import MeshView.Proofs.Monitor.Alone
import MeshView.Proofs.Monitor.Course
import MeshView.Proofs.Monitor.Engine
import MeshView.Proofs.Monitor.Events
import MeshView.Proofs.Monitor.Front
import MeshView.Proofs.Monitor.Ledger
import MeshView.Proofs.Monitor.Lockstep
import MeshView.Proofs.Monitor.Moves
import MeshView.Proofs.Monitor.Passage
import MeshView.Proofs.Monitor.Quiescence
import MeshView.Proofs.Monitor.Requests
import MeshView.Proofs.Monitor.Retry
import MeshView.Proofs.Monitor.Rivals
import MeshView.Proofs.Monitor.Schedule
import MeshView.Proofs.Monitor.Settling
import MeshView.Proofs.Monitor.Sources
import MeshView.Proofs.Monitor.Status
import MeshView.Proofs.Monitor.Subscribers
import MeshView.Proofs.Monitor.Tracking
import MeshView.Proofs.Monitor.Turn
import MeshView.Proofs.Scenario
import MeshView.Proofs.Script
import MeshView.Proofs.Topology.Batch
import MeshView.Proofs.Topology.Connected
import MeshView.Proofs.Topology.Entries
import MeshView.Proofs.Topology.Fetched
import MeshView.Proofs.Topology.Gaps
import MeshView.Proofs.Topology.Growth
import MeshView.Proofs.Topology.Order
import MeshView.Proofs.Topology.Pruning
import MeshView.Proofs.Topology.Remainders
import MeshView.Proofs.Topology.Remembered
import MeshView.Proofs.Topology.Removal
import MeshView.Proofs.Topology.Removed
import MeshView.Proofs.Topology.Run
import MeshView.Proofs.Topology.Settled
import MeshView.Proofs.Topology.Shadow
import MeshView.Proofs.Topology.Snapshot
import MeshView.Proofs.Topology.View
import MeshView.Proofs.Topology.WellFormed
import MeshView.Proofs.View
import MeshView.Proofs.Wire
import MeshView.Report
import MeshView.Report.Shown
import MeshView.Responder
import MeshView.Scenario
import MeshView.Settings
import MeshView.Sha256
import MeshView.Text.Quoted
import MeshView.Text.Record
import MeshView.Text.Socket
import MeshView.Text.Unprintable
import MeshView.Topology
import MeshView.Topology.Vertex
import MeshView.Wire
import MeshView.Yaml.Document
import MeshView.Yaml.Lexer
import MeshView.Yaml.Node
import MeshView.Yaml.Plain
import MeshView.Yaml.Scalar
import MeshView.Yaml.Tag
import MeshView.Yaml.Text
import MeshView.Yaml.Token
