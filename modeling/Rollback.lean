import Rollback.Actor.Basic
import Rollback.Actor.Command
import Rollback.Checkpoint
import Rollback.CheckpointId
import Rollback.CommandLine.Arguments
import Rollback.CommandLine.Help
import Rollback.CommandLine.Report
import Rollback.Deployment
import Rollback.Disk
import Rollback.Double.Basic
import Rollback.Double.Shortest
import Rollback.Error
import Rollback.Gate
import Rollback.Graph
import Rollback.Header
import Rollback.Instant
import Rollback.Json.Basic
import Rollback.Json.Printer
import Rollback.Json.Reader
import Rollback.Json.Record
import Rollback.Json.Tagged
import Rollback.Json.Tree
import Rollback.Main
import Rollback.Message.Control
import Rollback.Message.Payload
import Rollback.Message.Pruning
import Rollback.Recovery.Chronicle
import Rollback.Recovery.Line
import Rollback.Recovery.Search
import Rollback.Registry
import Rollback.Scenario.Analysis
import Rollback.Scenario.Basic
import Rollback.Service.Basic
import Rollback.Service.Checkpointing
import Rollback.Service.Collection
import Rollback.Settings.Backend
import Rollback.Settings.Basic
import Rollback.Settings.Environment
import Rollback.Snapshot.Basic
import Rollback.Snapshot.Cell
import Rollback.Snapshot.Field
import Rollback.Store.Basic
import Rollback.Store.Directory
import Rollback.Store.Memory
import Rollback.Text.Extending
import Rollback.Text.Numeral
import Rollback.Text.Quoted
import Rollback.Tracker
import Rollback.Volume
import Rollback.World
import Rollback.Yaml.Document
import Rollback.Yaml.Glyph
import Rollback.Yaml.Node
import Rollback.Yaml.Scalar
import Rollback.Yaml.Tag
import Rollback.Yaml.Token
import Rollback.Proofs.Recovery.Cursors
import Rollback.Proofs.Recovery.Settling
import Rollback.Proofs.Recovery.Histories
import Rollback.Proofs.Recovery.Consistency
import Rollback.Proofs.Recovery.Greatest
import Rollback.Proofs.Recovery.Trimming
import Rollback.Proofs.Recovery.Pruning
import Rollback.Proofs.Recovery.Failures
import Rollback.Proofs.Recovery.Downstream
import Rollback.Proofs.Checkpoint.Text
import Rollback.Proofs.Store.Listing
import Rollback.Proofs.Store.Deleting
import Rollback.Proofs.Network.Basic
import Rollback.Proofs.Network.Log
import Rollback.Proofs.Network.Archive
import Rollback.Proofs.Network.Orphans
import Rollback.Proofs.Text.Decimal
import Rollback.Proofs.Json.Strings
import Rollback.Proofs.Json.Scanning
import Rollback.Proofs.Json.Records
import Rollback.Proofs.Service.Sessions
import Rollback.Proofs.Service.Restoring
import Rollback.Proofs.Recovery.Outdating
import Rollback.Proofs.Service.Collecting
import Rollback.Proofs.Service.Upkeep
import Rollback.Proofs.Network.Collecting
import Rollback.Proofs.Recovery.Extending
import Rollback.Proofs.Recovery.Restored
import Rollback.Proofs.Store.Reading
import Rollback.Proofs.Service.Succession
import Rollback.Proofs.Service.Lineage
import Rollback.Proofs.Service.Predecessors
import Rollback.Proofs.Json.Numbers
import Rollback.Proofs.Double.Shortest
import Rollback.Proofs.Double.Text
import Rollback.Proofs.Json.Documents
import Rollback.Proofs.Json.Reading
import Rollback.Proofs.Json.Values
import Rollback.Proofs.Checkpoint.Reading
import Rollback.Proofs.Store.Requests
import Rollback.Proofs.Store.Tidiness
import Rollback.Proofs.Store.Catalogue
import Rollback.Proofs.Service.Recording
import Rollback.Proofs.Store.Listable
import Rollback.Proofs.Site.Progress
import Rollback.Proofs.Site.Publishing
import Rollback.Proofs.Site.Serial
import Rollback.Proofs.Recovery.Returning
import Rollback.Proofs.Service.Superseding
import Rollback.Proofs.Registry.Overwriting
import Rollback.Proofs.Service.Failing
import Rollback.Proofs.Snapshot.Lawful
import Rollback.Proofs.Registry.Reproducing
import Rollback.Proofs.Recovery.Reordering
import Rollback.Proofs.Registry.Capturing
import Rollback.Proofs.Scenario.Validity
import Rollback.Proofs.Json.Restating
import Rollback.Proofs.Json.Tags
import Rollback.Proofs.Scenario.Restating
import Rollback.Proofs.Message.Restating
import Rollback.Proofs.Tracker.Changes
