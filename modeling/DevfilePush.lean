import DevfilePush.Command.Actions
import DevfilePush.Command.Execution
import DevfilePush.Command.Selection
import DevfilePush.Config.Address
import DevfilePush.Config.Basic
import DevfilePush.Config.Document
import DevfilePush.Container.Blueprint
import DevfilePush.Container.Build
import DevfilePush.Container.Definition
import DevfilePush.Container.Difference
import DevfilePush.Container.Report
import DevfilePush.Context
import DevfilePush.Conventions
import DevfilePush.Devfile.Basic
import DevfilePush.Devfile.Check
import DevfilePush.Duration
import DevfilePush.Engine.Conduct
import DevfilePush.Engine.Holdings
import DevfilePush.Engine.Request
import DevfilePush.Engine.Script
import DevfilePush.Event
import DevfilePush.FileTree
import DevfilePush.Json.Codec
import DevfilePush.Json.Forms
import DevfilePush.Json.Read
import DevfilePush.Json.Token
import DevfilePush.Json.Value
import DevfilePush.Labels
import DevfilePush.Lock.Clients
import DevfilePush.Lock.Registry
import DevfilePush.Lookup
import DevfilePush.Proofs.Command.Announcement
import DevfilePush.Proofs.Command.Course
import DevfilePush.Proofs.Command.Renamed
import DevfilePush.Proofs.Command.Requests
import DevfilePush.Proofs.Command.Selection
import DevfilePush.Proofs.Command.Supervision
import DevfilePush.Proofs.Command.Words
import DevfilePush.Proofs.Container.Attempt
import DevfilePush.Proofs.Container.Desired
import DevfilePush.Proofs.Container.Difference
import DevfilePush.Proofs.Container.Exposure
import DevfilePush.Proofs.Container.Failure
import DevfilePush.Proofs.Container.Injection
import DevfilePush.Proofs.Container.Labelling
import DevfilePush.Proofs.Container.Realize
import DevfilePush.Proofs.Container.Rearranged
import DevfilePush.Proofs.Container.Record
import DevfilePush.Proofs.Container.Renamed
import DevfilePush.Proofs.Container.Revision
import DevfilePush.Proofs.Devfile.Check
import DevfilePush.Proofs.Engine.Closed
import DevfilePush.Proofs.Engine.Drawn
import DevfilePush.Proofs.Engine.Ends
import DevfilePush.Proofs.Engine.Looking
import DevfilePush.Proofs.Engine.Lots
import DevfilePush.Proofs.Engine.Memory
import DevfilePush.Proofs.Engine.Nesting
import DevfilePush.Proofs.Engine.Part
import DevfilePush.Proofs.Engine.Plan
import DevfilePush.Proofs.Engine.Renaming
import DevfilePush.Proofs.Engine.Runs
import DevfilePush.Proofs.Engine.Twins
import DevfilePush.Proofs.Json.Document
import DevfilePush.Proofs.Json.Forms
import DevfilePush.Proofs.Labels
import DevfilePush.Proofs.Lock.Attendance
import DevfilePush.Proofs.Lock.Exclusion
import DevfilePush.Proofs.Pool.Careful
import DevfilePush.Proofs.Pool.Recovery
import DevfilePush.Proofs.Pool.Serial
import DevfilePush.Proofs.Pool.Serialisable
import DevfilePush.Proofs.Pool.Session
import DevfilePush.Proofs.Pool.Turns
import DevfilePush.Proofs.Pool.Unique
import DevfilePush.Proofs.Push.Beginning
import DevfilePush.Proofs.Push.Commands
import DevfilePush.Proofs.Push.Convergence
import DevfilePush.Proofs.Push.Entrypoint
import DevfilePush.Proofs.Push.Errors
import DevfilePush.Proofs.Push.Exposure
import DevfilePush.Proofs.Push.Failure
import DevfilePush.Proofs.Push.Frame
import DevfilePush.Proofs.Push.Initialisation
import DevfilePush.Proofs.Push.Leftovers
import DevfilePush.Proofs.Push.Parts
import DevfilePush.Proofs.Push.Phases
import DevfilePush.Proofs.Push.Progress
import DevfilePush.Proofs.Push.Renamed
import DevfilePush.Proofs.Push.Repetition
import DevfilePush.Proofs.Push.Stale
import DevfilePush.Proofs.Push.Stopping
import DevfilePush.Proofs.Push.Success
import DevfilePush.Proofs.Push.Supervision
import DevfilePush.Proofs.Url.Tables
import DevfilePush.Proofs.Url.Bindings
import DevfilePush.Proofs.Volume.Course
import DevfilePush.Proofs.Volume.Renamed
import DevfilePush.Proofs.Volume.Resolve
import DevfilePush.Proofs.Volume.Supply
import DevfilePush.Push
import DevfilePush.PushError
import DevfilePush.Simulation.Bench
import DevfilePush.Simulation.Course
import DevfilePush.Simulation.Engine
import DevfilePush.Simulation.Fate
import DevfilePush.Simulation.History
import DevfilePush.Simulation.Lot
import DevfilePush.Simulation.Pool
import DevfilePush.Simulation.Run
import DevfilePush.Simulation.Schedule
import DevfilePush.SortedMap
import DevfilePush.Text.Digits
import DevfilePush.Text.Printable
import DevfilePush.Text.Quoted
import DevfilePush.Text.Within
import DevfilePush.Url.Basic
import DevfilePush.Url.PortMap
import DevfilePush.Url.Source
import DevfilePush.Volume.Resolve
import DevfilePush.Volume.Role
import DevfilePush.Yaml.Event
import DevfilePush.Yaml.Node
import DevfilePush.Yaml.Read
import DevfilePush.Yaml.Stream
import DevfilePush.Yaml.Token
import DevfilePush.Yaml.Token.Block
import DevfilePush.Yaml.Token.Gap
import DevfilePush.Yaml.Token.Plain
import DevfilePush.Yaml.Token.Property
import DevfilePush.Yaml.Token.Quoted
import DevfilePush.Yaml.Token.Scan
import DevfilePush.Proofs.Devfile.Offence
import DevfilePush.Proofs.Lock.Tracking
import DevfilePush.Proofs.Yaml.Extent
import DevfilePush.Proofs.Yaml.Reading
import DevfilePush.Proofs.Config.Overlay
import DevfilePush.Proofs.Url.Blank
import DevfilePush.Proofs.Url.Records
import DevfilePush.Proofs.Url.EnvFile
