-- What each command does: it loads a configuration, builds its machine, and writes a text,
-- or takes one instance through some events.
import Turnstile.Command.Arguments
import Turnstile.Config.Basic
import Turnstile.Log.Record
import Turnstile.Supervisor.Dialogue
import Turnstile.Table.Explain
import Turnstile.Table.Render

namespace Turnstile

/-- How a command ends: with an exit code, or with a fault that nobody reports. -/
inductive CommandEnd where
  | code (code : Nat) (complaint : String)
  | raised (fault : Fault)
  deriving Repr, Inhabited

/-- All that a command leaves behind: what it wrote, and the records of the log. -/
structure CommandReport where
  written : List String
  log : List Event := []
  ending : CommandEnd

namespace CommandReport

/-- The end of a command that a fault stopped. A report goes to the user. -/
def ofFault (written : List String) (fault : Fault) : CommandReport :=
  match fault with
  | .reported report => { written, ending := .code 1 (report.message ++ "\n") }
  | fault => { written, ending := .raised fault }

/-- What was written, each line with its end. -/
def output (r : CommandReport) : String := String.join (r.written.map (· ++ "\n"))

/-- The number of a level. -/
def levelNumber : LogLevel → Int
  | .debug => 10
  | .info => 20
  | .warning => 30
  | .error | .exception => 40

/-- The records of the log that are shown, without their times. -/
def logLines (r : CommandReport) : List String :=
  r.log.filterMap fun
    | .logged scope level text =>
      Log.text? "fsmflow" 20 (levelNumber level) (Log.instanceName (scope.getD .null)) text
    | _ => none

end CommandReport

namespace Command

/-- The path of the configuration file, for which there may be a default; an empty path
counts as none. -/
def configPath? (c : Command) (default : Option String) : Option Path :=
  match c.config? with
  | none | some "" => (default.filter (· ≠ "")).map Path.ofText
  | some path => some (Path.ofText path)

/-! ## A run -/

/-- Splits an event at its first `=`; an empty payload counts as none. -/
def splitEvent (s : String) : Value × Value :=
  match Argument.splitAssignment s with
  | (event, none) | (event, some "") => (.text event, .null)
  | (event, some payload) => (.text event, .text payload)

/-- Sends some events in turn, up to the first that the instance does not outlive. -/
def sendEvents (h : Host) (name : Value) : List String → Host × Except Fault Unit
  | [] => (h, .ok ())
  | s :: rest =>
    let (event, payload) := splitEvent s
    match h.send ⟨name, event, payload⟩ with
    | .error fault => (h, .error fault)
    | .ok h =>
      match h.stateOf name with
      | (h, .ok _) => sendEvents h name rest
      | (h, .error (.reported report)) =>
        (h, if report.kind = .missing then .ok () else .error (.reported report))
      | (h, .error fault) => (h, .error fault)

/-- Writes where an instance stands, and stops it; or writes why it stopped. -/
def finish (h : Host) (name : Value) (t : Nat) : Host × Except Fault Unit :=
  match h.isAlive name with
  | .ok true =>
    match h.stateOf name with
    | (h, .error fault) => (h, .error fault)
    | (h, .ok rs) =>
      let history := ", ".intercalate rs.history
      let h := h.write ("state: " ++ rs.current)
      let h := h.write ("history: " ++ if history.isEmpty then "(empty)" else history)
      let (h, result) := Host.await (h.shutdown none)
      (h, result.map fun _ => ())
  | _ =>
    let (h, _) := Host.await (h.waitTask t)
    let reason := ((h.stopReason t).map (·.text)).getD "None"
    (h.write ("state: [*] (" ++ reason ++ ")"), .ok ())

/-- Takes one instance of a machine through some events. -/
def runInstance (settings : Settings) (m : Machine) (name payload : Value)
    (events : List String) : CommandReport :=
  let h : Host := { settings, registry := Registry.register [] m }
  let (h, result) : Host × Except Fault Unit := match h.start (.given m) name payload with
    | (h, .error fault) => (h, .error fault)
    | (h, .ok t) =>
      match sendEvents h name events with
      | (h, .error fault) => (h, .error fault)
      | (h, .ok _) => finish h name t
  let h := h.cancelAll
  let report : CommandReport := match result with
    | .ok _ => { written := h.lines, ending := .code 0 "" }
    | .error fault => .ofFault h.lines fault
  { report with log := h.events }

/-! ## Commands -/

/-- What a command does with a machine. -/
def perform (settings : Settings) (m : Machine) : Command → CommandReport
  | .check _ strict =>
    let x := m.table.explain
    { written := [x.text]
      ending := .code (if strict && !x.warnings.isEmpty then 1 else 0) "" }
  | .visualize _ format =>
    match m.table.renderAs format with
    | .ok text => { written := [text], ending := .code 0 "" }
    | .error fault => .ofFault [] fault
  | .run _ name payload events =>
    runInstance settings m (.text name) ((payload.map .text).getD .null) events

/-- Carries a command out with the configuration file of a path. -/
def execute (c : Command) (read : Config.Reader) (catalogue : Catalogue) :
    Option Path → CommandReport
  | none =>
    { written := []
      ending := .code 1 "No config provided. Use --config or set FSMFLOW_CONFIG.\n" }
  | some path =>
    let loaded := do
      let config ← Config.load read path
      return (config.settings, ← config.build catalogue)
    match loaded with
    | .ok (settings, m) => c.perform settings m
    | .error fault => .ofFault [] fault

end Command
end Turnstile
