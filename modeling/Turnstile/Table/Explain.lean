-- What a table describes, and what is suspicious about it.
import Turnstile.Table.Reachable
import Turnstile.Text.Uppercase

namespace Turnstile

/-- A warning about a table. -/
structure Diagnostic where
  level : String
  what : String
  why : Option String := none
  fix : Option String := none
  context : List (String × Value) := []
  deriving Repr, Inhabited

/-- The text of a warning, in the form of a report under its level. -/
def Diagnostic.text (d : Diagnostic) : String :=
  "[" ++ Text.uppercase d.level ++ "] " ++ d.what ++ Report.headed "Why: " d.why ++
    Report.headed "Fix: " d.fix ++ Report.headed "Context:\n" (some (contextText d.context))

structure Explanation where
  initial : String
  states : List String := []
  events : List String := []
  terminalStates : List String := []
  transitions : List String := []
  warnings : List Diagnostic := []
  deriving Repr, Inhabited

namespace Explanation

def text (x : Explanation) : String :=
  let join := ", ".intercalate
  let terminal := join x.terminalStates
  "\n".intercalate (
    ["FSMFlow Table Explanation",
      "========================================",
      "initial_state: " ++ x.initial,
      "states: " ++ join x.states,
      "events: " ++ join x.events,
      "terminal_states: " ++ (if terminal.isEmpty then "(none)" else terminal),
      "",
      "Transitions:"] ++
    x.transitions.map ("  " ++ ·) ++
    (if x.warnings.isEmpty then []
      else ["", s!"Warnings ({x.warnings.length}):"] ++ x.warnings.map (·.text)))

end Explanation

namespace Table

/-! ## Warnings -/

def unreachableStates (t : Table) : List String :=
  let reached := t.reachable
  t.states.filter fun s => s ∉ reached

/-- The states that no edge leaves. -/
def deadEnds (t : Table) : List String := t.states.filter fun s => (t.eventsFrom s).isEmpty

def endlessWarning (t : Table) : List Diagnostic :=
  if t.terminalStates.isEmpty then [{
    level := "warning"
    what := "No transition reaches the terminal state"
    why := some "Instances of this FSM never stop on their own."
    fix := some "Add an edge to '[*]' if instances should finish." }]
  else []

def unreachableWarning (t : Table) : List Diagnostic :=
  let states := t.unreachableStates
  if states.isEmpty then [] else [{
    level := "warning"
    what := "Unreachable states: " ++ ", ".intercalate states
    why := some "No path of transitions leads to them from the initial state."
    fix := some "Connect them to the rest of the diagram or remove them."
    context := [("states", .texts states)] }]

def deadEndWarning (t : Table) : List Diagnostic :=
  let states := t.deadEnds
  if states.isEmpty then [] else [{
    level := "warning"
    what := "Dead-end states: " ++ ", ".intercalate states
    why := some "An instance entering them can never move or stop again."
    fix := some "Add an outgoing edge, e.g. to '[*]'."
    context := [("states", .texts states)] }]

def ambiguityWarnings (t : Table) : List Diagnostic :=
  t.ambiguous.map fun ((state, event), targets) => {
    level := "warning"
    what := "Event " ++ Text.quoted event ++ " in state " ++ Text.quoted state ++
      " has several targets"
    why := some "on_transition must pick one; the default callback refuses such events."
    fix := some "Rename the events or supply an on_transition that chooses the target."
    context := [("state", .text state), ("event", .text event),
      ("targets", .texts (targets.map (·.toValue.literal)))] }

def warnings (t : Table) : List Diagnostic :=
  t.endlessWarning ++ t.unreachableWarning ++ t.deadEndWarning ++ t.ambiguityWarnings

/-- What a table describes. -/
def explain (t : Table) : Explanation where
  initial := t.initial
  states := t.states
  events := t.events
  terminalStates := t.terminalStates
  transitions := t.transitions.map fun e =>
    e.source ++ " --" ++ e.event ++ "--> " ++ e.target.text
  warnings := t.warnings

end Table
end Turnstile
