-- Reports: what the library tells its users when it refuses something. Each says what
-- happened and may add why, how to fix it, and the facts that it is about.
import Turnstile.Value.Basic

namespace Turnstile

/-- What a report is about. A report about a diagram may carry a place in it. -/
inductive ReportKind where
  | general
  | diagram (line column : Option Nat) (snippet : Option String)
  | rejection
  | missing
  | start
  | config
  | symbol
  deriving DecidableEq, Repr, Inhabited

/-- The name that a kind of report goes by in texts. -/
def ReportKind.label : ReportKind → String
  | .general => "FSMFlowError"
  | .diagram .. => "CompileError"
  | .rejection => "TransitionRejected"
  | .missing => "NotFoundError"
  | .start => "StartError"
  | .config => "ConfigError"
  | .symbol => "ImportError_"

structure Report where
  kind : ReportKind
  what : String
  why : Option String := none
  fix : Option String := none
  context : List (String × Value) := []
  deriving Repr, Inhabited

/-- The facts of a context, one indented line for each. -/
def contextText (context : List (String × Value)) : String :=
  "\n".intercalate (context.map fun (key, v) => "  " ++ key ++ "=" ++ v.literal)

namespace Report

/-- A part of a report's text under its heading, or nothing for a part that is empty. -/
def headed (heading : String) (part : Option String) : String :=
  match part with
  | none | some "" => ""
  | some s => "\n" ++ heading ++ s

/-- The text of a report. -/
def message (r : Report) : String :=
  r.what ++ headed "Why: " r.why ++ headed "Fix: " r.fix ++
    headed "Context:\n" (some (contextText r.context))

/-- A report about a diagram, with the known parts of its place among its facts. -/
def aboutDiagram (what : String) (line column : Option Nat) (snippet : Option String)
    (why fix : Option String) (context : List (String × Value)) : Report :=
  let set (facts : List (String × Value)) (key : String) (v : Option Value) :=
    match v with
    | some v => Value.setField facts key v
    | none => facts
  let facts := set context "line" (line.map fun n => Value.int n)
  let facts := set facts "column" (column.map fun n => Value.int n)
  let facts := set facts "snippet" (snippet.map .text)
  ⟨.diagram line column snippet, what, why, fix, facts⟩

end Report

/-! ## Diagrams -/

/-- Why a diagram has no table. -/
inductive DiagramFault where
  | malformedLine (dialect : String) (line column : Nat) (snippet expected : String)
  | noEdges (dialect : String)
  | entryToExit (line : Nat) (event : String)
  | noInitialState (dialect : String)
  | severalInitialStates (dialect : String) (states : List String) (line : Option Nat)
  | unknownDialect (name : String) (known : List String)
  deriving DecidableEq, Repr

def DiagramFault.report : DiagramFault → Report
  | .malformedLine dialect line column snippet expected =>
    .aboutDiagram s!"Malformed {dialect} transition at line {line}, column {column}"
      (some line) (some column) (some snippet)
      (some s!"Expected {expected}.")
      (some "Fix the line, or turn it into a comment if it is not a transition.")
      [("syntax", .text dialect)]
  | .noEdges dialect =>
    .aboutDiagram "Diagram declares no transitions" none none none
      (some "A transition table needs at least one edge.")
      (some "Add transitions such as '[*] --> idle : start'.")
      [("syntax", .text dialect)]
  | .entryToExit line event =>
    .aboutDiagram s!"Entry edge at line {line} targets the exit pseudo-state"
      (some line) none (some s!"[*] --> [*] : {event}")
      (some "'[*] --> [*]' would start an instance that is already finished.")
      (some "Point the entry edge at a concrete initial state.")
      []
  | .noInitialState dialect =>
    .aboutDiagram "Diagram has no initial state" none none none
      (some "No transition leaves the '[*]' entry pseudo-state.")
      (some "Add exactly one entry edge, e.g. '[*] --> idle : start'.")
      [("syntax", .text dialect)]
  | .severalInitialStates dialect states line =>
    let listed := ", ".intercalate states
    .aboutDiagram s!"Diagram has {states.length} initial states: {listed}" line none none
      (some "Every entry edge from '[*]' must target the same state.")
      (some "Keep a single initial state and route the others through events.")
      [("syntax", .text dialect), ("initial_states", .texts states)]
  | .unknownDialect name known =>
    let listed := ", ".intercalate known
    .aboutDiagram s!"Unknown diagram syntax: '{name}'" none none none
      (some "Diagrams can only be compiled with a registered syntax.")
      (some s!"Use one of: {listed}")
      [("syntax", .text name)]

/-! ## Instances and types -/

/-- Why an instance or its type is not at hand. -/
inductive LookupFault where
  | noInstance (name : Value)
  | nameTaken (name : Value) (runningType : String)
  | unknownType (name : Value) (known : List String)
  deriving Repr

def LookupFault.report : LookupFault → Report
  | .noInstance name =>
    { kind := .missing
      what := "No running FSM instance named " ++ name.literal
      why := some "The instance was never started, or it has already stopped."
      fix := some "Check the name, or start the instance with InstanceManager.start()."
      context := [("name", name)] }
  | .nameTaken name runningType =>
    { kind := .start
      what := "FSM instance " ++ name.literal ++ " is already running"
      why := some "Instance names must be unique among running instances."
      fix := some "Pick another name, or stop the running instance first."
      context := [("name", name), ("running_type", .text runningType)] }
  | .unknownType name known =>
    let shown := known.take 5
    let listed := if shown.isEmpty then "(none registered)" else ", ".intercalate shown
    let more := if known.length > 5 then s!" (+{known.length - 5} more)" else ""
    { kind := .config
      what := "Unknown FSM type: '" ++ name.plain ++ "'"
      why := some "The requested FSM type is not registered."
      fix := some (s!"Use one of the registered types: {listed}{more}\n" ++
        "Or register yours with DEFAULT_REGISTRY.register(fsm_type)")
      context := [("requested_type", name), ("valid_types", .texts shown)] }

/-! ## Configuration files -/

/-- Why a configuration file is refused. -/
inductive ConfigFault where
  | missingField (field : String) (path : Option String)
  | wrongType (field expected got : String) (path : Option String)
  | twoDiagrams (path : String)
  | unreadableDiagram (path diagramPath cause : String)
  | unknownPolicy (path : String) (policy : Value)
  | brokenHooks (source cause : String)
  deriving Repr

/-- The path of a configuration file as a fact, if there is one. -/
def pathFact : Option String → List (String × Value)
  | none | some "" => []
  | some p => [("config_path", .text p)]

def ConfigFault.report : ConfigFault → Report
  | .missingField field path =>
    { kind := .config
      what := s!"Config missing required field: '{field}'"
      why := some s!"The '{field}' field is required but was not found in the config."
      fix := some s!"Add '{field}' to your config file."
      context := pathFact path ++ [("field", .text field)] }
  | .wrongType field expected got path =>
    { kind := .config
      what := s!"Config field '{field}' has wrong type"
      why := some s!"Expected {expected}, but got {got}."
      fix := some s!"Change '{field}' to be a {expected}."
      context := pathFact path ++
        [("field", .text field), ("expected", .text expected), ("got", .text got)] }
  | .twoDiagrams path =>
    { kind := .config
      what := "Config sets both 'diagram' and 'diagram_file'"
      why := some "The diagram must come from exactly one place."
      fix := some "Keep either the inline 'diagram' or the 'diagram_file' path."
      context := [("config_path", .text path)] }
  | .unreadableDiagram path diagramPath cause =>
    { kind := .config
      what := s!"Cannot read diagram file: {diagramPath}"
      why := some cause
      fix := some "Check the 'diagram_file' path; relative paths start at the config file."
      context := [("config_path", .text path), ("diagram_file", .text diagramPath)] }
  | .unknownPolicy path policy =>
    { kind := .config
      what := "Unknown restart policy: " ++ policy.literal
      why := some "Instances are supervised with a fixed set of policies."
      fix := some "Use one of: transient, temporary"
      context := [("config_path", .text path), ("restart", policy)] }
  | .brokenHooks source cause =>
    { kind := .config
      what := s!"Failed to instantiate callbacks: '{source}'"
      why := some s!"The callbacks class raised an error during instantiation: {cause}"
      fix := some "Give the callbacks class a zero-argument constructor."
      context := [("source", .text source), ("error", .text cause)] }

/-! ## Symbols -/

/-- Why a dotted path names no hooks. -/
inductive SymbolFault where
  | malformedPath (path : String)
  | noModule (module path : String)
  | noSymbol (module symbol path : String)
  | noHooks (path typeName : String)
  deriving DecidableEq, Repr

def SymbolFault.report : SymbolFault → Report
  | .malformedPath path =>
    { kind := .symbol
      what := s!"Invalid dotted path format: '{path}'"
      why := some "Dotted paths must be in 'module:Symbol' format."
      fix := some ("Use the format 'mypackage.module:MyCallbacks' " ++
        "(colon separates module from symbol).")
      context := [("dotted_path", .text path)] }
  | .noModule module path =>
    { kind := .symbol
      what := s!"Module not found: '{module}'"
      why := some "The module specified in the dotted path could not be imported."
      fix := some "Check that the module exists and is on your Python path."
      context := [("module", .text module), ("dotted_path", .text path)] }
  | .noSymbol module symbol path =>
    { kind := .symbol
      what := s!"Symbol '{symbol}' not found in module '{module}'"
      why := some "The module was imported successfully, but doesn't contain that symbol."
      fix := some "Check the spelling and make sure it's defined at module top level."
      context := [("module", .text module), ("symbol", .text symbol),
        ("dotted_path", .text path)] }
  | .noHooks path typeName =>
    { kind := .symbol
      what := s!"No FSM callbacks found at '{path}'"
      why := some ("Expected an object, class or module defining on_transition, " ++
        s!"on_failure or on_terminate, but got {typeName} without any of them.")
      fix := some ("Define at least one of the hooks:\n" ++
        "  def on_transition(state, event, event_payload, state_payload): ...")
      context := [("dotted_path", .text path), ("got_type", .text typeName)] }

end Turnstile
