-- What a plain YAML 1.1 scalar stands for: null, a truth value, a number, or its own text.
import Turnstile.Value.Basic

namespace Turnstile.Yaml

def nullWords : List String := ["", "~", "null", "Null", "NULL"]

def trueWords : List String :=
  ["yes", "Yes", "YES", "true", "True", "TRUE", "on", "On", "ON"]

def falseWords : List String :=
  ["no", "No", "NO", "false", "False", "FALSE", "off", "Off", "OFF"]

/-! ## Digits -/

/-- The value of a digit to any base up to sixteen. -/
def digitValue (c : Char) : Nat :=
  if c.isDigit then c.toNat - 48 else c.toLower.toNat - 87

/-- The number that some digits write to a base; underscores between them do not count. -/
def digitsTo (base : Nat) (cs : List Char) : Nat :=
  (cs.filter (· ≠ '_')).foldl (fun n c => base * n + digitValue c) 0

def isDigitOrMark (c : Char) : Bool := c.isDigit || c == '_'

/-- Whether some digits of a base, with underscores, stand here. -/
def areDigits (isDigit : Char → Bool) (cs : List Char) : Bool :=
  !cs.isEmpty && cs.all fun c => isDigit c || c == '_'

/-- Whether a text begins with a digit and goes on with digits and underscores. -/
def isDigitRun : List Char → Bool
  | c :: rest => c.isDigit && rest.all isDigitOrMark
  | [] => false

def isHexDigit (c : Char) : Bool :=
  c.isDigit || ('a' ≤ c && c ≤ 'f') || ('A' ≤ c && c ≤ 'F')

/-! ## Base sixty -/

/-- Whether a text is a number below sixty in one or two digits. -/
def isSixtieth : List Char → Bool
  | [c] => c.isDigit
  | [c, d] => '0' ≤ c && c ≤ '5' && d.isDigit
  | _ => false

/-- The parts of a text between its colons. -/
def colonParts (cs : List Char) : List (List Char) :=
  ((String.ofList cs).splitOn ":").map (·.toList)

/-- The number whose digits to base sixty are some decimal numbers. -/
def sixties (parts : List (List Char)) : Nat :=
  parts.foldl (fun n part => 60 * n + digitsTo 10 part) 0

/-! ## Numbers -/

/-- A whole number without its sign. -/
def wholeNumber? (cs : List Char) : Option Nat :=
  match cs with
  | ['0'] => some 0
  | '0' :: 'b' :: rest =>
    if areDigits (fun c => c == '0' || c == '1') rest then some (digitsTo 2 rest) else none
  | '0' :: 'x' :: rest => if areDigits isHexDigit rest then some (digitsTo 16 rest) else none
  | '0' :: rest =>
    if areDigits (fun c => '0' ≤ c && c ≤ '7') rest then some (digitsTo 8 rest) else none
  | cs =>
    match colonParts cs with
    | first :: rest =>
      if isDigitRun first && rest.all isSixtieth then some (sixties (first :: rest)) else none
    | [] => none

/-- The power of ten of an exponent, which has to have a sign. -/
def exponent? : List Char → Option Int
  | [] => some 0
  | e :: sign :: digits =>
    if (e == 'e' || e == 'E') && !digits.isEmpty && digits.all Char.isDigit then
      if sign = '+' then some (digitsTo 10 digits)
      else if sign = '-' then some (-(digitsTo 10 digits : Int))
      else none
    else none
  | _ => none

/-- A number with a point. One without digits before the point has no sign. -/
def pointedNumber? (negative signed : Bool) (cs : List Char) : Option Binary64 :=
  let before := cs.takeWhile (· ≠ '.')
  match cs.dropWhile (· ≠ '.') with
  | [] => none
  | _ :: rest =>
    let after := rest.takeWhile isDigitOrMark
    let power := exponent? (rest.dropWhile isDigitOrMark)
    let places := (after.filter (· ≠ '_')).length
    if before.isEmpty then
      if signed || !isDigitRun after then none
      else power.map fun p => .ofDecimal negative (digitsTo 10 after) (p - places)
    else if isDigitRun before then
      power.map fun p => .ofDecimal negative (digitsTo 10 (before ++ after)) (p - places)
    else
      match colonParts before with
      | first :: sixtieth :: more =>
        if isDigitRun first && (sixtieth :: more).all isSixtieth &&
            rest.length = after.length then
          let scale := Nat.pow 10 places
          let whole := sixties (first :: sixtieth :: more)
          some (.ofRatio negative (whole * scale + digitsTo 10 after) scale)
        else none
      | _ => none

def number? (cs : List Char) : Option Number :=
  let (negative, signed, body) := match cs with
    | '-' :: rest => (true, true, rest)
    | '+' :: rest => (false, true, rest)
    | cs => (false, false, cs)
  match String.ofList body with
  | ".inf" | ".Inf" | ".INF" => some (.real (.infinite negative))
  | ".nan" | ".NaN" | ".NAN" => if signed then none else some (.real .nan)
  | _ =>
    match wholeNumber? body with
    | some n => some (.whole (if negative then -n else n))
    | none => (pointedNumber? negative signed body).map .real

/-- The value of a plain scalar. The sign of equality alone has none. -/
def resolve? (s : String) : Option Value :=
  if s ∈ nullWords then some .null
  else if s ∈ trueWords then some (.bool true)
  else if s ∈ falseWords then some (.bool false)
  else if s = "=" || s = "<<" then none
  else match number? s.toList with
  | some n => some (.number n)
  | none => some (.text s)

end Turnstile.Yaml
