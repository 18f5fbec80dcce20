import ProjectOutline.Discovery
import ProjectOutline.Document
import ProjectOutline.Failure
import ProjectOutline.FileTree
import ProjectOutline.Outline
import ProjectOutline.Report
import ProjectOutline.Parser
import ProjectOutline.Source.Parse
import ProjectOutline.JsonValue
import ProjectOutline.Yaml.Cursor
import ProjectOutline.Yaml.Scalar
import ProjectOutline.Yaml.Token
import ProjectOutline.Yaml.Event
import ProjectOutline.Decimal
import ProjectOutline.Yaml.Decode
import ProjectOutline.Config
import ProjectOutline.Timestamp
import ProjectOutline.Cassette
import ProjectOutline.StoreCall
import ProjectOutline.Recorder
import ProjectOutline.Replay
import ProjectOutline.DocumentFile
import ProjectOutline.Generate
import ProjectOutline.CommandLine
import ProjectOutline.Host
import ProjectOutline.Program
import ProjectOutline.World
import ProjectOutline.Main
import ProjectOutline.Proofs.Document.Region
import ProjectOutline.Proofs.Document.Surroundings
import ProjectOutline.Proofs.Document.Absorption
import ProjectOutline.Proofs.Text.Trimming
import ProjectOutline.Proofs.Outline.Sites
import ProjectOutline.Proofs.Outline.Walk
import ProjectOutline.Proofs.Report.Placement
import ProjectOutline.Proofs.Report.Names
import ProjectOutline.Proofs.Document.Idempotence
import ProjectOutline.Proofs.Document.UserText
import ProjectOutline.Proofs.Replay.Outputs
import ProjectOutline.Proofs.Replay.Simulation
import ProjectOutline.Proofs.Report.Reading
import ProjectOutline.Proofs.Path.Components
import ProjectOutline.Proofs.Discovery.Scan
import ProjectOutline.Proofs.Document.FirstRegion
import ProjectOutline.Proofs.Replay.Tracks
import ProjectOutline.Proofs.Discovery.Packages
import ProjectOutline.Proofs.Generate.Conduct
import ProjectOutline.Proofs.Document.Splice
import ProjectOutline.Proofs.Report.LongestRoot
import ProjectOutline.Proofs.Outline.Exports
import ProjectOutline.Proofs.Outline.Patterns
import ProjectOutline.Proofs.Discovery.FirstFound
import ProjectOutline.Proofs.Outline.Wrappers
import ProjectOutline.Proofs.Store.Answers
import ProjectOutline.Proofs.Discovery.Sources
import ProjectOutline.Proofs.Discovery.Manifests
import ProjectOutline.Proofs.FileTree.Entries
import ProjectOutline.Proofs.FileTree.Walk
import ProjectOutline.Proofs.Replay.Breakdown
import ProjectOutline.Proofs.FileTree.Standing
import ProjectOutline.Proofs.FileTree.Growth
import ProjectOutline.Proofs.Document.Storage
import ProjectOutline.Proofs.Report.LineCount
import ProjectOutline.Proofs.Outline.Provenance
import ProjectOutline.Proofs.Document.Course
import ProjectOutline.Proofs.Report.Insertion
