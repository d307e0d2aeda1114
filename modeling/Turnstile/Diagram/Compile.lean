-- From the text of a diagram to its table: the lines that are no edges are left out, the
-- others are read as edges, and the edges have to agree on one initial state.
import Turnstile.Diagram.Edge
import Turnstile.Text.Lines
import Turnstile.Text.Word

namespace Turnstile

/-! ## Lines that are no edges -/

/-- What follows a word and at least one blank in front of a text. -/
def afterWordAndBlank? (word : String) (cs : List Char) : Option (List Char) :=
  match splitMark? word.toList cs with
  | some (c :: rest) => if Text.isBlank c then some (Text.trimStart rest) else none
  | _ => none

/-- Whether a line is one of PlantUML's directives that say nothing about edges. -/
def isDirective (raw : List Char) : Bool :=
  let cs := Text.trimStart raw
  (splitMark? "@startuml".toList cs).isSome || (splitMark? "@enduml".toList cs).isSome ||
    (match afterWordAndBlank? "hide" cs with
      | some rest => (afterWordAndBlank? "empty" rest).isSome
      | none => false) ||
    (match afterWordAndBlank? "skinparam" cs with
      | some (c :: _) => Text.isWord c
      | _ => false)

/-- Whether a line is a word, alone or with one further word after blanks. -/
def isLabelled (word : String) (cs : List Char) : Bool :=
  cs == word.toList ||
    (match afterWordAndBlank? word cs with
      | some rest => !rest.isEmpty && rest.all Text.isWord
      | none => false)

/-- Whether a line is one of Mermaid's headers. -/
def isHeader (raw : List Char) : Bool :=
  let cs := Text.trim raw
  cs == "stateDiagram".toList || cs == "stateDiagram-v2".toList || isLabelled "graph" cs ||
    isLabelled "flowchart" cs

namespace Dialect

/-- How a comment line begins. -/
def commentMark : Dialect → List Char
  | .plantuml => ['\'']
  | .mermaid => ['%', '%']

/-- Whether a line is blank or a comment. -/
def isRemark (dialect : Dialect) (raw : List Char) : Bool :=
  let cs := Text.trim raw
  cs.isEmpty || (splitMark? dialect.commentMark cs).isSome

/-- Whether a line that is no remark is left out: a directive anywhere, a header only as the
first such line. -/
def isPreamble (dialect : Dialect) (first : Bool) (raw : List Char) : Bool :=
  match dialect with
  | .plantuml => isDirective raw
  | .mermaid => first && isHeader raw

/-- The edges of some lines, of which the first has the given number. -/
def edgesFrom (dialect : Dialect) (first : Bool) (line : Nat) :
    List (List Char) → Except DiagramFault (List Edge)
  | [] => .ok []
  | raw :: rest =>
    if dialect.isRemark raw then dialect.edgesFrom first (line + 1) rest
    else if dialect.isPreamble first raw then dialect.edgesFrom false (line + 1) rest
    else
      match Edge.read dialect line raw with
      | .error fault => .error fault
      | .ok edge =>
        match dialect.edgesFrom false (line + 1) rest with
        | .error fault => .error fault
        | .ok edges => .ok (edge :: edges)

/-- The edges of a diagram. -/
def edges (dialect : Dialect) (text : String) : Except DiagramFault (List Edge) :=
  dialect.edgesFrom true 1 (Text.lines text.toList)

end Dialect

/-! ## From edges to a table -/

namespace Edge

/-- Whether an edge enters the diagram. -/
def isEntry (e : Edge) : Bool := e.source = .pseudo

/-- Whether an edge enters the diagram only to leave it. -/
def isEntryToExit (e : Edge) : Bool := e.source = .pseudo && e.target = .pseudo

/-- The state that an entry edge leads to. -/
def entryState? (e : Edge) : Option String :=
  match e.source, e.target with
  | .pseudo, .state s => some s
  | _, _ => none

/-- The transition of an edge that leaves a state. -/
def transition? (e : Edge) : Option Transition :=
  match e.source with
  | .pseudo => none
  | .state s => some ⟨s, e.event, match e.target with
    | .pseudo => .terminal
    | .state x => .state x⟩

end Edge

/-- The table of some edges. -/
def Table.ofEdges (dialect : String) (edges : List Edge) : Except DiagramFault Table :=
  if edges.isEmpty then .error (.noEdges dialect)
  else match edges.find? (·.isEntryToExit) with
  | some e => .error (.entryToExit e.line e.event)
  | none =>
    match distinct (edges.filterMap (·.entryState?)) with
    | [] => .error (.noInitialState dialect)
    | [s] => .ok {
        initial := s
        transitions := distinct (edges.filterMap (·.transition?))
        entryEvents := distinct ((edges.filter (·.isEntry)).map (·.event)) }
    | s :: others =>
      let second := edges.find? fun e => e.isEntry && e.target ≠ .state s
      .error (.severalInitialStates dialect (s :: others) (second.map (·.line)))

namespace Dialect

/-- The table of a diagram. -/
def compile (dialect : Dialect) (text : String) : Except DiagramFault Table :=
  match dialect.edges text with
  | .error fault => .error fault
  | .ok edges => Table.ofEdges dialect.name edges

end Dialect

/-- The table of a diagram in the dialect of a name. -/
def compileDiagram (text : String) (dialect : String) : Except DiagramFault Table :=
  match Dialect.ofName? dialect with
  | none => .error (.unknownDialect dialect Dialect.names)
  | some d => d.compile text

end Turnstile
