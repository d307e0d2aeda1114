-- Scalars as they are written: plain ones, quoted ones, and blocks of lines.
import Turnstile.Yaml.Cursor
import Turnstile.Yaml.Scalar

namespace Turnstile.Yaml

/-- The marks that set off a list or a record written in brackets. -/
def isFlowMark (c : Char) : Bool :=
  c == ',' || c == '[' || c == ']' || c == '\x7b' || c == '\x7d'

/-! ## Plain scalars -/

/-- Whether a plain scalar may begin here. -/
def startsPlain (flow : Bool) : List Char → Bool
  | [] => false
  | c :: rest =>
    if c = '-' then !atGap rest
    else if c = '?' ∨ c = ':' then !flow && !atGap rest
    else !isGap c && c ∉ ",[]\x7b\x7d#&*!|>'\"%@`".toList

/-- Whether a plain scalar ends at a character with some more behind it. -/
def stopsPlain (flow : Bool) (c : Char) (rest : List Char) : Bool :=
  isGap c || (flow && (isFlowMark c || c == '?')) ||
    (c == ':' && (atGap rest || (flow && rest.head?.any isFlowMark)))

/-- The part of a plain scalar that stands on one line; a comment needs a blank before it.
The text and the blanks read so far stand in reverse. -/
def plainLineFrom (flow : Bool) (text blanks : List Char) (line column : Nat) :
    List Char → List Char × Cursor
  | [] => (text.reverse, ⟨line, column, []⟩)
  | c :: rest =>
    if c = ' ' then plainLineFrom flow text (c :: blanks) line (column + 1) rest
    else if (c == '#' && !blanks.isEmpty) || stopsPlain flow c rest then
      (text.reverse, ⟨line, column, c :: rest⟩)
    else plainLineFrom flow (c :: blanks ++ text) [] line (column + 1) rest

/-- The part of a plain scalar that stands on one line. -/
def plainLine (flow : Bool) (c : Cursor) : List Char × Cursor :=
  plainLineFrom flow [] [] c.line c.column c.rest

/-- Goes over line breaks and blanks; gives the number of breaks. -/
def countBreaks (count line column : Nat) : List Char → Nat × Cursor
  | [] => (count, ⟨line, column, []⟩)
  | c :: rest =>
    if isBreak c then countBreaks (count + 1) (line + 1) 0 rest
    else if c = ' ' then countBreaks count line (column + 1) rest
    else (count, ⟨line, column, c :: rest⟩)

/-- What stands for some line breaks inside a scalar: a blank for one, and else one break
less. -/
def fold : Nat → List Char
  | 0 => []
  | 1 => [' ']
  | n + 2 => List.replicate (n + 1) '\n'

/-- The further lines of a plain scalar. Outside of brackets they are indented. -/
def plainLines (flow : Bool) (floor : Nat) (text : List Char) (c : Cursor) :
    Nat → List Char × Cursor
  | 0 => (text, c)
  | fuel + 1 =>
    if !c.rest.head?.any isBreak then (text, c)
    else
      let (breaks, d) := countBreaks 0 c.line c.column c.rest
      if d.atEnd || (!flow && d.column < floor) || d.rest.head? = some '#' then (text, d)
      else
        let (more, e) := plainLine flow d
        if more.isEmpty then (text, d)
        else plainLines flow floor (text ++ fold breaks ++ more) e fuel

/-- A plain scalar. -/
def plainScalar (flow : Bool) (floor : Nat) (c : Cursor) : List Char × Cursor :=
  let (text, d) := plainLine flow c
  plainLines flow floor text d c.rest.length

/-! ## Quoted scalars -/

/-- What was read between two visible characters of a quoted scalar: blanks, or line breaks,
the first of which may have been escaped. -/
inductive Between where
  | blanks (cs : List Char)
  | breaks (escaped : Bool) (count : Nat)

/-- What stands for it in the scalar, in reverse. -/
def Between.text : Between → List Char
  | .blanks cs => cs
  | .breaks false count => (fold count).reverse
  | .breaks true count => List.replicate (count - 1) '\n'

/-- What an escape of one character stands for. -/
def escaped? (c : Char) : Option Char :=
  match c with
  | '0' => some '\x00'
  | 'a' => some '\x07'
  | 'b' => some '\x08'
  | 't' | '\t' => some '\t'
  | 'n' => some '\n'
  | 'v' => some '\x0b'
  | 'f' => some '\x0c'
  | 'r' => some '\r'
  | 'e' => some '\x1b'
  | ' ' | '"' | '\\' | '/' => some c
  | 'N' => some '\u0085'
  | '_' => some '\u00a0'
  | 'L' => some '\u2028'
  | 'P' => some '\u2029'
  | _ => none

/-- The number of digits of an escape by code point. -/
def escapeWidth? (c : Char) : Option Nat :=
  match c with
  | 'x' => some 2
  | 'u' => some 4
  | 'U' => some 8
  | _ => none

/-- The rest of a quoted scalar. The text read so far stands in reverse. -/
def quotedFrom (quote : Char) (text : List Char) (between : Between) (c : Cursor) :
    Nat → Option (List Char × Cursor)
  | 0 => none
  | fuel + 1 =>
    let shown := between.text ++ text
    if c.atDivider then none
    else match c.rest with
    | [] => none
    | x :: rest =>
      if isBreak x then
        let between := match between with
          | .blanks _ => .breaks false 1
          | .breaks escaped n => .breaks escaped (n + 1)
        quotedFrom quote text between c.next fuel
      else if x = ' ' ∨ x = '\t' then
        let between := match between with
          | .blanks cs => .blanks (x :: cs)
          | between => between
        quotedFrom quote text between c.next fuel
      else if x = quote then
        if quote = '\'' ∧ rest.head? = some '\'' then
          quotedFrom quote ('\'' :: shown) (.blanks []) (c.skip 2) fuel
        else some (shown.reverse, c.next)
      else if quote = '"' ∧ x = '\\' then
        match rest with
        | [] => none
        | y :: more =>
          if isBreak y then quotedFrom quote shown (.breaks true 1) c.next.next fuel
          else match escaped? y, escapeWidth? y with
          | some z, _ => quotedFrom quote (z :: shown) (.blanks []) (c.skip 2) fuel
          | none, some width =>
            let digits := more.take width
            if digits.length = width ∧ digits.all isHexDigit then
              quotedFrom quote (Char.ofNat (digitsTo 16 digits) :: shown) (.blanks [])
                (c.skip (2 + width)) fuel
            else none
          | none, none => none
      else quotedFrom quote (x :: shown) (.blanks []) c.next fuel

/-- A quoted scalar, with its first quote in front. -/
def quotedScalar (c : Cursor) : Option (List Char × Cursor) :=
  match c.rest with
  | [] => none
  | quote :: rest => quotedFrom quote [] (.blanks []) c.next (rest.length + 1)

/-! ## Blocks of lines -/

/-- What becomes of the line breaks at the end of a block. -/
inductive Chomping where
  | strip
  | clip
  | keep
  deriving DecidableEq

/-- The head of a block: the chomping and the indentation, if they are given. -/
def blockHead (chomping : Chomping) (indent : Option Nat) : List Char →
    Option (Chomping × Option Nat × List Char)
  | '+' :: rest => if chomping = .clip then blockHead .keep indent rest else none
  | '-' :: rest => if chomping = .clip then blockHead .strip indent rest else none
  | c :: rest =>
    if c.isDigit then
      if c ≠ '0' ∧ indent.isNone then blockHead chomping (some (c.toNat - 48)) rest else none
    else if isGap c then some (chomping, indent, c :: rest)
    else none
  | [] => some (chomping, indent, [])

/-- The deepest indentation of the lines up to the first one that is not blank. -/
def firstIndent (deepest column : Nat) : List Char → Nat
  | [] => max deepest column
  | c :: rest =>
    if c = ' ' then firstIndent deepest (column + 1) rest
    else if isBreak c then firstIndent (max deepest column) 0 rest
    else max deepest column

/-- Goes over the blank lines in front of the next line of a block; gives their number. -/
def blankLines (indent : Nat) (c : Cursor) : Nat → Nat × Cursor
  | 0 => (0, c)
  | fuel + 1 =>
    let d := c.skipBlanks (indent - c.column)
    if d.rest.head?.any isBreak then
      let (n, e) := blankLines indent d.next fuel
      (n + 1, e)
    else (0, d)

/-- The lines of a block. `blank` is the number of blank lines in front. -/
def blockLines (folded : Bool) (indent : Nat) (chomping : Chomping) (text : List Char)
    (blank : Nat) (c : Cursor) : Nat → List Char × Cursor
  | 0 => (text, c)
  | fuel + 1 =>
    if c.column ≠ indent ∨ c.rest.isEmpty then (text, c)
    else
      let line := c.rest.takeWhile fun x => !isBreak x
      let text := text ++ List.replicate blank '\n' ++ line
      let d := c.skip line.length
      let ended := !d.rest.isEmpty
      let (blank, e) := blankLines indent d.next (d.rest.length + 1)
      if e.column = indent ∧ !e.rest.isEmpty then
        let deeper (cs : List Char) := cs.head?.any fun x => x == ' ' || x == '\t'
        let joint : List Char :=
          if folded ∧ !deeper line ∧ !deeper e.rest then (if blank = 0 then [' '] else [])
          else ['\n']
        blockLines folded indent chomping (text ++ joint) blank e fuel
      else
        let text := if ended ∧ chomping ≠ .strip then text ++ ['\n'] else text
        (if chomping = .keep then text ++ List.replicate blank '\n' else text, e)

/-- A block, with its mark in front. -/
def blockScalar (floor : Nat) (c : Cursor) : Option (List Char × Cursor) :=
  match c.rest with
  | [] => none
  | mark :: rest =>
    match blockHead .clip none rest with
    | none => none
    | some (chomping, given, tail) =>
      let head := Cursor.skipBlanks tail.length ⟨c.line, c.column, tail⟩
      let comment := if head.rest.head? = some '#' then
        head.rest.takeWhile fun x => !isBreak x else []
      let d := head.skip comment.length
      if !(d.rest.isEmpty || d.rest.head?.any isBreak) then none
      else
        let body := d.next
        let least := max floor 1
        let indent := match given with
          | some n => least + n - 1
          | none => max least (firstIndent 0 0 body.rest)
        let (blank, e) := blankLines indent body (body.rest.length + 1)
        if e.column = indent ∧ !e.rest.isEmpty then
          some (blockLines (mark = '>') indent chomping [] blank e (e.rest.length + 1))
        else
          some (if chomping = .keep then List.replicate blank '\n' else [], e)

end Turnstile.Yaml
