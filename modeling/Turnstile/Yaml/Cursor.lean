-- A place in the text of a YAML document, and the layout between tokens: blanks, comments
-- and line breaks.
import Turnstile.Value.Basic

namespace Turnstile.Yaml

/-- What is left of a text, and the line and the column where it begins. -/
structure Cursor where
  line : Nat
  column : Nat
  rest : List Char
  deriving Repr, Inhabited

def isBreak (c : Char) : Bool :=
  let n := c.toNat
  n == 10 || n == 13 || n == 0x85 || n == 0x2028 || n == 0x2029

def isGap (c : Char) : Bool := c == ' ' || c == '\t' || isBreak c

/-- Whether a token may end here. -/
def atGap : List Char → Bool
  | [] => true
  | c :: _ => isGap c

/-- Whether a character may stand in a document. -/
def isAllowed (c : Char) : Bool :=
  let n := c.toNat
  n == 9 || n == 10 || n == 13 || (0x20 ≤ n && n ≤ 0x7e) || n == 0x85 ||
    (0xa0 ≤ n && n ≤ 0xfffd) || 0x10000 ≤ n

namespace Cursor

def start (text : List Char) : Cursor := ⟨0, 0, text⟩

/-- The place behind one character. -/
def next (c : Cursor) : Cursor :=
  match c.rest with
  | [] => c
  | '\r' :: '\n' :: rest => ⟨c.line + 1, 0, rest⟩
  | x :: rest => if isBreak x then ⟨c.line + 1, 0, rest⟩ else ⟨c.line, c.column + 1, rest⟩

/-- The place behind some characters of the same line. -/
def skip (c : Cursor) (n : Nat) : Cursor := ⟨c.line, c.column + n, c.rest.drop n⟩

/-- Goes over blanks, comments and line breaks. -/
def layoutFrom (comment : Bool) (line column : Nat) : List Char → Cursor
  | [] => ⟨line, column, []⟩
  | c :: rest =>
    if isBreak c then layoutFrom false (line + 1) 0 rest
    else if comment then layoutFrom true line (column + 1) rest
    else if c = ' ' then layoutFrom false line (column + 1) rest
    else if c = '#' then layoutFrom true line (column + 1) rest
    else ⟨line, column, c :: rest⟩

/-- The next token. -/
def toToken (c : Cursor) : Cursor := layoutFrom false c.line c.column c.rest

/-- The place behind the blanks of a line, of which at most some are taken. -/
def skipBlanks (limit : Nat) (c : Cursor) : Cursor :=
  c.skip (c.rest.takeWhile (· = ' ') |>.length |> min limit)

/-- Whether a line of three equal marks that divides documents begins here. -/
def atDivider (c : Cursor) : Bool :=
  c.column = 0 && (match c.rest with
    | '-' :: '-' :: '-' :: rest | '.' :: '.' :: '.' :: rest => atGap rest
    | _ => false)

/-- Whether the document ends here. -/
def atEnd (c : Cursor) : Bool := c.rest.isEmpty || c.atDivider

/-- Whether an item of a list begins here. -/
def atItem (c : Cursor) : Bool :=
  match c.rest with
  | '-' :: rest => atGap rest
  | _ => false

end Cursor
end Turnstile.Yaml
