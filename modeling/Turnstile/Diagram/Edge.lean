-- Edge lines of a diagram. Each dialect is an order of parts; a line is read part by
-- part, and a line that does not fit is refused at the column of the part that is missing.
import Turnstile.Text.Blank
import Turnstile.Table.Basic

namespace Turnstile

/-- The two ways to write a diagram. -/
inductive Dialect where
  | plantuml
  | mermaid
  deriving DecidableEq, Repr, Inhabited

/-- An end of an edge: the pseudo-state `[*]` or a named state. -/
inductive Node where
  | pseudo
  | state (name : String)
  deriving DecidableEq, Repr, Inhabited

/-- An edge with the number of its line. -/
structure Edge where
  source : Node
  event : String
  target : Node
  line : Nat
  deriving DecidableEq, Repr, Inhabited

/-- A part of an edge line. -/
inductive Part where
  | source
  | event
  | target
  | mark (text : List Char)
  deriving DecidableEq, Repr

namespace Dialect

def name : Dialect → String
  | .plantuml => "plantuml"
  | .mermaid => "mermaid"

/-- The names of the dialects, sorted. -/
def names : List String := ["mermaid", "plantuml"]

/-- The dialect of a name, in letters of either case. -/
def ofName? (name : String) : Option Dialect :=
  let lower := name.map Char.toLower
  if lower = "plantuml" then some .plantuml
  else if lower = "mermaid" then some .mermaid
  else none

/-- The parts of an edge line in their order, each with what a line that lacks it is told. -/
def layout : Dialect → List (Part × String)
  | .plantuml => [
    (.source, "a state name or '[*]'"),
    (.mark ['-', '-', '>'], "'-->' after the source state"),
    (.target, "a target state name or '[*]'"),
    (.mark [':'], "':' followed by the event name"),
    (.event, "an event name after ':'")]
  | .mermaid => [
    (.source, "a state name or '[*]'"),
    (.mark ['-', '-', '>'], "'-->' after the source state"),
    (.mark ['|'], "'|' opening the event label"),
    (.event, "an event name inside '|...|'"),
    (.mark ['|'], "'|' closing the event label"),
    (.target, "a target state name or '[*]'")]

end Dialect

/-! ## Tokens -/

/-- Whether a character may begin a name. -/
def isNameStart (c : Char) : Bool := c.isAlpha || c == '_'

/-- Whether a character may go on a name. -/
def isNameChar (c : Char) : Bool := c.isAlpha || c.isDigit || c == '_' || c == '.'

/-- Whether a text is a name: a Latin letter or an underscore, then letters, digits,
underscores and points. -/
def isName : List Char → Bool
  | [] => false
  | c :: rest => isNameStart c && rest.all isNameChar

/-- Splits the longest name off. -/
def splitName? : List Char → Option (List Char × List Char)
  | [] => none
  | c :: rest =>
    if isNameStart c then some (c :: rest.takeWhile isNameChar, rest.dropWhile isNameChar)
    else none

/-- Splits a text off that stands in front. -/
def splitMark? : List Char → List Char → Option (List Char)
  | [], cs => some cs
  | _ :: _, [] => none
  | m :: ms, c :: cs => if m = c then splitMark? ms cs else none

/-- Splits a node off: the pseudo-state or the longest name. -/
def splitNode? (cs : List Char) : Option (Node × Nat × List Char) :=
  match splitMark? ['[', '*', ']'] cs with
  | some rest => some (.pseudo, 3, rest)
  | none => (splitName? cs).map fun (name, rest) =>
    (.state (String.ofList name), name.length, rest)

/-- Reads one part in front of a text into an edge; gives the part's length and the rest. -/
def Part.read? (part : Part) (edge : Edge) (cs : List Char) : Option (Edge × Nat × List Char) :=
  match part with
  | .source => (splitNode? cs).map fun (node, n, rest) => ({ edge with source := node }, n, rest)
  | .target => (splitNode? cs).map fun (node, n, rest) => ({ edge with target := node }, n, rest)
  | .event => (splitName? cs).map fun (name, rest) =>
    ({ edge with event := String.ofList name }, name.length, rest)
  | .mark text => (splitMark? text cs).map fun rest => (edge, text.length, rest)

/-! ## Edge lines -/

/-- Where a line stops being an edge line, and what should stand there. -/
structure Mismatch where
  offset : Nat
  expected : String
  deriving DecidableEq, Repr

/-- Reads the parts of a layout, with any blanks around them, from a text that begins at an
offset of its line. -/
def readParts (edge : Edge) (offset : Nat) (cs : List Char) :
    List (Part × String) → Except Mismatch Edge
  | [] =>
    let rest := Text.trimStart cs
    if rest.isEmpty then .ok edge
    else .error ⟨offset + (cs.length - rest.length), "end of line"⟩
  | (part, expected) :: parts =>
    let here := Text.trimStart cs
    let offset := offset + (cs.length - here.length)
    match part.read? edge here with
    | none => .error ⟨offset, expected⟩
    | some (edge, n, rest) => readParts edge (offset + n) rest parts

/-- Reads a line of a diagram as an edge. -/
def Edge.read (dialect : Dialect) (line : Nat) (raw : List Char) : Except DiagramFault Edge :=
  match readParts ⟨.pseudo, "", .pseudo, line⟩ 0 raw dialect.layout with
  | .ok edge => .ok edge
  | .error mismatch =>
    .error (.malformedLine dialect.name line (mismatch.offset + 1)
      (String.ofList (Text.trim raw)) mismatch.expected)

end Turnstile
