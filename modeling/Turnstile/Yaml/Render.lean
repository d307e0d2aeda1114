-- Values written as YAML documents by indentation, each text in the plainest form that
-- reads back.
import Turnstile.Yaml.Document

namespace Turnstile.Yaml

/-! ## Scalars -/

/-- Whether a text may stand without quotes: it must not look like a mark, a key, a comment or
another kind of value. -/
def isPlain (s : String) : Bool :=
  let cs := s.toList
  let ends (c : Option Char) : Bool := c.any fun x => x == ' ' || isBreak x
  let shown := cs.all fun c => 0x20 ≤ c.toNat && c.toNat ≤ 0x7e
  let (text, d) := plainLine false (.start cs)
  startsPlain false cs && shown && !ends cs.getLast? && d.rest.isEmpty && text == cs &&
    !(cs.take 3 == "---".toList) && !(cs.take 3 == "...".toList) &&
    (match resolve? s with
      | some (.text _) => true
      | _ => false)

/-- Whether a text may stand in single quotes: no blank next to a line break, and nothing that
needs an escape. -/
def isSingle (cs : List Char) : Bool :=
  cs.all (fun c => c == '\n' || (0x20 ≤ c.toNat && c.toNat ≤ 0x7e)) &&
    (cs.zip (cs.drop 1)).all fun (a, b) => !(a == '\n' && b == ' ') && !(a == ' ' && b == '\n')

/-- The lines of a text in single quotes: one line break is written as an empty line. -/
def singleLines (line : List Char) : List Char → List String
  | [] => [String.ofList (line.reverse ++ ['\''])]
  | '\n' :: '\n' :: rest => String.ofList line.reverse :: singleLines [] ('\n' :: rest)
  | '\n' :: rest => String.ofList line.reverse :: "" :: singleLines [' ', ' '] rest
  | '\'' :: rest => singleLines ('\'' :: '\'' :: line) rest
  | c :: rest => singleLines (c :: line) rest

/-- A character in double quotes. -/
def doubleChar (c : Char) : List Char :=
  let n := c.toNat
  let digits (width : Nat) := (Text.hexDigits width n).map Char.toUpper
  match c with
  | '"' => ['\\', '"']
  | '\\' => ['\\', '\\']
  | '\x00' => ['\\', '0']
  | '\x07' => ['\\', 'a']
  | '\x08' => ['\\', 'b']
  | '\t' => ['\\', 't']
  | '\n' => ['\\', 'n']
  | '\x0b' => ['\\', 'v']
  | '\x0c' => ['\\', 'f']
  | '\r' => ['\\', 'r']
  | '\x1b' => ['\\', 'e']
  | '\u0085' => ['\\', 'N']
  | '\u00a0' => ['\\', '_']
  | '\u2028' => ['\\', 'L']
  | '\u2029' => ['\\', 'P']
  | c =>
    if 0x20 ≤ n ∧ n ≤ 0x7e then [c]
    else if n ≤ 0xff then '\\' :: 'x' :: digits 2
    else if n ≤ 0xffff then '\\' :: 'u' :: digits 4
    else '\\' :: 'U' :: digits 8

/-- A text in double quotes. -/
def double (cs : List Char) : String := String.ofList ('"' :: cs.flatMap doubleChar ++ ['"'])

/-- The lines of a text. -/
def textLines (s : String) : List String :=
  if isPlain s then [s]
  else if isSingle s.toList then singleLines ['\''] s.toList
  else [double s.toList]

/-- The text of a number; one with an exponent gets a point. -/
def numberText : Number → String
  | .flag b => if b then "true" else "false"
  | .whole n => toString n
  | .real .nan => ".nan"
  | .real (.infinite negative) => if negative then "-.inf" else ".inf"
  | .real x =>
    let cs := x.text.toList
    if '.' ∈ cs then x.text
    else String.ofList (cs.flatMap fun c => if c = 'e' then ['.', '0', 'e'] else [c])

/-! ## Values -/

/-- Some lines below a key or behind a mark; empty ones stay empty. -/
def indented (lines : List String) : List String :=
  lines.map fun line => if line.isEmpty then line else "  " ++ line

/-- Some lines with a text in front of the first one. -/
def headed (head : String) : List String → List String
  | [] => [head]
  | line :: rest => (head ++ line) :: rest

/-- A key with its colon, on one line. -/
def keyHead (key : String) : String :=
  match textLines key with
  | [line] => line ++ ":"
  | _ => double key.toList ++ ":"

mutual

/-- The lines of a value. -/
def valueLines : Value → List String
  | .null => ["null"]
  | .number n => [numberText n]
  | .text s => textLines s
  | .list [] => ["[]"]
  | .list items => itemLines items
  | .record [] => ["\x7b\x7d"]
  | .record fields => fieldLines fields
  | .terminal => textLines "[*]"

def itemLines : List Value → List String
  | [] => []
  | v :: rest =>
    (match v, valueLines v with
      | .text _, lines => headed "- " lines
      | _, first :: more => ("- " ++ first) :: indented more
      | _, [] => []) ++ itemLines rest

def fieldLines : List (String × Value) → List String
  | [] => []
  | (key, v) :: rest =>
    let lines := valueLines v
    (match v with
      | .list (_ :: _) => keyHead key :: lines
      | .record (_ :: _) => keyHead key :: indented lines
      | _ => headed (keyHead key ++ " ") lines) ++ fieldLines rest

end

/-- The document of a value. -/
def render (v : Value) : String := "\n".intercalate (valueLines v) ++ "\n"

end Turnstile.Yaml
