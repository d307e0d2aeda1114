-- State machines read from diagrams, and the supervised instances that live by them.
import Turnstile.Bus.Basic
import Turnstile.Bus.Delivery
import Turnstile.Bus.Script
import Turnstile.Command.Arguments
import Turnstile.Command.Basic
import Turnstile.Config.Basic
import Turnstile.Config.Runtime
import Turnstile.Diagram.Compile
import Turnstile.Diagram.Edge
import Turnstile.Fault.Basic
import Turnstile.Fault.Report
import Turnstile.Files.Path
import Turnstile.Files.Tree
import Turnstile.Hooks.Basic
import Turnstile.Hooks.Catalogue
import Turnstile.Hooks.Rules
import Turnstile.Hooks.Samples
import Turnstile.Http.Route
import Turnstile.Http.Service
import Turnstile.Http.Target
import Turnstile.Instance.Basic
import Turnstile.Instance.RunState
import Turnstile.Instance.Step
import Turnstile.Jobs.Hooks
import Turnstile.Jobs.Walk
import Turnstile.Log.Record
import Turnstile.Main
import Turnstile.Number.Basic
import Turnstile.Number.Binary64
import Turnstile.Number.Shortest
import Turnstile.Proofs.Command.Checked
import Turnstile.Proofs.Diagram.AnyOrder
import Turnstile.Proofs.Diagram.Dialects
import Turnstile.Proofs.Diagram.Grammar
import Turnstile.Proofs.Diagram.Lines
import Turnstile.Proofs.Diagram.Meaning
import Turnstile.Proofs.Diagram.RoundTrip
import Turnstile.Proofs.Table.Distinct
import Turnstile.Proofs.Table.Follow
import Turnstile.Proofs.Table.Queries
import Turnstile.Proofs.Table.Reach
import Turnstile.Proofs.Table.SameEdges
import Turnstile.Proofs.Table.Warnings
import Turnstile.Supervisor.Calls
import Turnstile.Supervisor.Dialogue
import Turnstile.Supervisor.Host
import Turnstile.Supervisor.Session
import Turnstile.Supervisor.Settings
import Turnstile.Supervisor.Step
import Turnstile.Table.Basic
import Turnstile.Table.Explain
import Turnstile.Table.Reachable
import Turnstile.Table.Render
import Turnstile.Text.Blank
import Turnstile.Text.Lines
import Turnstile.Text.Printable
import Turnstile.Text.Quoted
import Turnstile.Text.Ranges
import Turnstile.Text.Uppercase
import Turnstile.Text.Utf8
import Turnstile.Text.Word
import Turnstile.Value.Basic
import Turnstile.Yaml.Cursor
import Turnstile.Yaml.Document
import Turnstile.Yaml.Render
import Turnstile.Yaml.Scalar
import Turnstile.Yaml.ScalarForm
import Turnstile.Proofs.Instance.Moves
import Turnstile.Proofs.Instance.Live
import Turnstile.Proofs.Instance.Simulation
import Turnstile.Proofs.Instance.OneAtATime
import Turnstile.Proofs.Instance.AtRest
import Turnstile.Proofs.Supervisor.Changes
import Turnstile.Proofs.Supervisor.Sessions
import Turnstile.Proofs.Supervisor.Instances
import Turnstile.Proofs.Instance.Chronicle
import Turnstile.Proofs.Supervisor.Heard
import Turnstile.Proofs.Instance.Stopped
import Turnstile.Proofs.Supervisor.Shown
import Turnstile.Proofs.Instance.Walked
import Turnstile.Proofs.Supervisor.Lives
import Turnstile.Proofs.Supervisor.Deeds
import Turnstile.Proofs.Supervisor.Names
import Turnstile.Proofs.Supervisor.Roster
import Turnstile.Proofs.Supervisor.Noticed
import Turnstile.Proofs.Supervisor.Holders
import Turnstile.Proofs.Supervisor.Window
import Turnstile.Proofs.Supervisor.Desk
import Turnstile.Proofs.Supervisor.Served
import Turnstile.Proofs.Instance.Entered
import Turnstile.Proofs.Supervisor.Replies
import Turnstile.Proofs.Supervisor.Closing
import Turnstile.Proofs.Supervisor.Office
import Turnstile.Proofs.Supervisor.Rounds
import Turnstile.Proofs.Supervisor.Told
import Turnstile.Proofs.Supervisor.Guards
import Turnstile.Proofs.Supervisor.Turns
import Turnstile.Proofs.Instance.Endings
import Turnstile.Proofs.Instance.Halted
import Turnstile.Proofs.Supervisor.Contained
import Turnstile.Proofs.Instance.Warned
import Turnstile.Proofs.Supervisor.Latest
import Turnstile.Proofs.Supervisor.Given
import Turnstile.Proofs.Supervisor.Separate
import Turnstile.Proofs.Supervisor.Announced
import Turnstile.Proofs.Supervisor.Ledger
import Turnstile.Proofs.Supervisor.Lineage
import Turnstile.Proofs.Supervisor.Observed
import Turnstile.Proofs.Diagram.Located
import Turnstile.Proofs.Supervisor.Courses
import Turnstile.Proofs.Supervisor.Stuck
import Turnstile.Proofs.Http.Refined
import Turnstile.Proofs.Table.Search
import Turnstile.Proofs.Table.Indexed
import Turnstile.Proofs.Supervisor.Answers
import Turnstile.Proofs.Supervisor.Followed
import Turnstile.Proofs.Bus.Present
import Turnstile.Proofs.Bus.Trail
import Turnstile.Proofs.Bus.Visits
import Turnstile.Proofs.Bus.Depth
import Turnstile.Proofs.Bus.Delivered
import Turnstile.Proofs.Bus.Callers
import Turnstile.Proofs.Bus.Standing
import Turnstile.Proofs.Config.Loaded
import Turnstile.Proofs.Supervisor.Refused
import Turnstile.Proofs.Command.Carried
import Turnstile.Proofs.Config.Mapping
import Turnstile.Proofs.Config.Sources
import Turnstile.Proofs.Number.Nearest
import Turnstile.Proofs.Config.Managed
import Turnstile.Proofs.Supervisor.Endless
import Turnstile.Proofs.Text.Utf8
import Turnstile.Proofs.Http.Paths
import Turnstile.Proofs.Supervisor.Upheld
import Turnstile.Proofs.Supervisor.Unanswered
import Turnstile.Proofs.Http.Addressed
import Turnstile.Proofs.Diagram.Snippets
import Turnstile.Proofs.Hooks.Symbols
import Turnstile.Proofs.Supervisor.Rejections
import Turnstile.Proofs.Supervisor.Prompt
import Turnstile.Proofs.Jobs.Answers
import Turnstile.Proofs.Jobs.Attempts
