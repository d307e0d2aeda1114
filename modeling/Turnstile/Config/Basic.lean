-- Configuration files: a name, a diagram, hooks and settings, from which a machine is built and a
-- host is set up.
import Turnstile.Config.Runtime
import Turnstile.Diagram.Compile
import Turnstile.Files.Tree
import Turnstile.Hooks.Catalogue
import Turnstile.Supervisor.Host
import Turnstile.Yaml.Document

namespace Turnstile

structure Config where
  name : String
  diagram : String
  dialect : String
  /-- The dotted path of the hooks. -/
  hooks : Option String
  settings : Settings
  /-- The path of the file. -/
  source : String
  deriving Repr, Inhabited

namespace Config

/-- What reads a text file. -/
abbrev Reader := Path → Except Fault String

/-! ## Fields -/

/-- The fields of a configuration file. Anything empty counts as no fields. -/
def fields (read : Reader) (p : Path) : Except Fault (List (String × Value)) := do
  let text ← read p
  match Yaml.read? text with
  | none => throw (.raised .malformedYaml [])
  | some v =>
    if !v.isTrue then return []
    else match v with
    | .record fields => return fields
    | v => throw (refuse (.wrongType "(root)" "mapping/object" v.typeName (some p.text)))

/-- A field that is not there, like null. -/
def get (fields : List (String × Value)) (key : String) : Value :=
  (fields.lookup key).getD .null

def nameOf (p : Path) (fields : List (String × Value)) : Except Fault String :=
  let missing := refuse (.missingField "name" (some p.text))
  match get fields "name" with
  | .text s => if s.isEmpty then .error missing else .ok s
  | _ => .error missing

def dialectOf (p : Path) (fields : List (String × Value)) : Except Fault String :=
  match (fields.lookup "syntax").getD (.text "plantuml") with
  | .text s => .ok s
  | v => .error (refuse (.wrongType "syntax" "string" v.typeName (some p.text)))

def hooksOf (p : Path) (fields : List (String × Value)) : Except Fault (Option String) :=
  match get fields "callbacks" with
  | .null => .ok none
  | .text s => .ok (some s)
  | v => .error (refuse (.wrongType "callbacks" "string" v.typeName (some p.text)))

/-! ## The diagram -/

/-- Where a diagram comes from. -/
inductive DiagramSource where
  | inline (text : String)
  | file (path : Path)

/-- Where the diagram of a configuration comes from. A relative path starts at the directory
of the configuration file. -/
def diagramSource (p : Path) (fields : List (String × Value)) : Except Fault DiagramSource :=
  match get fields "diagram", get fields "diagram_file" with
  | .null, .null => .error (refuse (.missingField "diagram" (some p.text)))
  | .null, .text s => .ok (.file ((Path.ofText s).under p.parent))
  | .null, v => .error (refuse (.wrongType "diagram_file" "string" v.typeName (some p.text)))
  | .text s, .null => .ok (.inline s)
  | v, .null => .error (refuse (.wrongType "diagram" "string" v.typeName (some p.text)))
  | _, _ => .error (refuse (.twoDiagrams p.text))

/-- Reads a diagram. A file that cannot be opened is reported; other faults are passed on. -/
def readDiagram (read : Reader) (p : Path) : DiagramSource → Except Fault String
  | .inline text => .ok text
  | .file path =>
    match read path with
    | .ok text => .ok text
    | .error fault =>
      if fault.isSystem then
        .error (refuse (.unreadableDiagram p.text path.text fault.message))
      else .error fault

/-! ## Loading -/

/-- The configuration of a file. Its fields are checked in the order name, syntax, hooks,
diagram, settings. -/
def load (read : Reader) (p : Path) : Except Fault Config := do
  let fields ← fields read p
  let name ← nameOf p fields
  let dialect ← dialectOf p fields
  let hooks ← hooksOf p fields
  let diagram ← readDiagram read p (← diagramSource p fields)
  let settings ← runtime p.text (get fields "runtime")
  return ⟨name, diagram, dialect, hooks, settings, p.text⟩

/-- The path of the diagram that a configuration file refers to, if it can be read so far. -/
def diagramFile? (read : Reader) (p : Path) : Option Path :=
  match (fields read p).bind (diagramSource p) with
  | .ok (.file path) => some path
  | _ => none

/-- The machine of a configuration: its hooks are found before its diagram is compiled. -/
def build (c : Config) (catalogue : Catalogue) : Except Fault Machine := do
  let hooks ← match c.hooks with
    | none | some "" => pure {}
    | some path => catalogue.hooksAt path
  match compileDiagram c.diagram c.dialect with
  | .ok table => return .ofTable c.name table hooks
  | .error fault => throw (.reported fault.report)

/-- Builds the machine of a configuration and registers it. Without a machine the registry stays as
it is. -/
def enroll (c : Config) (catalogue : Catalogue) (r : Registry) : Registry × Except Fault Machine :=
  match c.build catalogue with
  | .ok m => (r.register m, .ok m)
  | .error fault => (r, .error fault)

/-- The host of a configuration, which checks the settings as it would check any. -/
def host (c : Config) (registry : Registry) : Except Fault Host := do
  let s := c.settings
  let settings ← Settings.ofValues (.text s.restart.text) (.number s.shutdownTimeout)
    (.number s.maxRestarts) (.number s.maxSeconds)
  return { settings, registry }

end Config
end Turnstile
