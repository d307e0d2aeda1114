-- Lines of a text under every line separator of Unicode, and texts whose usual line ends
-- are made one.

namespace Turnstile.Text

/-- Whether a character ends a line. A carriage return takes a line feed after it along. -/
def isLineEnd (c : Char) : Bool :=
  let n := c.toNat
  (10 ≤ n && n ≤ 13) || (28 ≤ n && n ≤ 30) || n == 0x85 || n == 0x2028 || n == 0x2029

/-- The lines of a text, given the part of the current line that was read already. -/
def linesFrom (line : List Char) : List Char → List (List Char)
  | [] => if line.isEmpty then [] else [line.reverse]
  | '\r' :: '\n' :: rest => line.reverse :: linesFrom [] rest
  | c :: rest =>
    if isLineEnd c then line.reverse :: linesFrom [] rest else linesFrom (c :: line) rest

/-- The lines of a text without their ends. A text that ends with a line end has no further,
empty line. -/
def lines (cs : List Char) : List (List Char) := linesFrom [] cs

/-- A text with each `\r\n` and each other `\r` turned into `\n`. -/
def unifyLineEnds : List Char → List Char
  | [] => []
  | '\r' :: '\n' :: rest => '\n' :: unifyLineEnds rest
  | c :: rest => (if c = '\r' then '\n' else c) :: unifyLineEnds rest

end Turnstile.Text
