-- Tables written as diagrams again. A table that was compiled comes back from either
-- dialect's text.
import Turnstile.Diagram.Compile

namespace Turnstile.Table

/-- The edges of a table as source, event and target texts, the entry edges in front. A
table without entry events is entered by `start`. -/
def edgeTexts (t : Table) : List (String × String × String) :=
  let entries := if t.entryEvents.isEmpty then ["start"] else t.entryEvents
  entries.map (fun event => ("[*]", event, t.initial)) ++
    t.transitions.map (fun e => (e.source, e.event, e.target.text))

/-- The text of a table as a diagram. -/
def render (t : Table) : Dialect → String
  | .mermaid =>
    "\n".intercalate ("stateDiagram-v2" ::
      t.edgeTexts.map fun (source, event, target) => s!"{source} --> |{event}| {target}")
  | .plantuml =>
    "\n".intercalate ("@startuml" ::
      t.edgeTexts.map (fun (source, event, target) => s!"{source} --> {target} : {event}") ++
      ["@enduml"])

/-- The text of a table in a format given by its exact name. -/
def renderAs (t : Table) (format : String) : Except Fault String :=
  if format = "mermaid" then .ok (t.render .mermaid)
  else if format = "plantuml" then .ok (t.render .plantuml)
  else .error (.plain .value
    ("Unsupported format: " ++ Text.quoted format ++ ". Use one of: mermaid, plantuml."))

end Turnstile.Table
