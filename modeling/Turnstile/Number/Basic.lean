-- Numbers as settings and payloads hold them: whole ones of any size, binary64 ones, and
-- truth values, which count as 0 and 1.
import Turnstile.Number.Shortest

namespace Turnstile

inductive Number where
  | flag (b : Bool)
  | whole (n : Int)
  | real (x : Binary64)
  deriving DecidableEq, Repr, Inhabited

namespace Number

/-- The whole number that a truth value or a whole number counts as. -/
def whole? : Number → Option Int
  | .flag b => some (if b then 1 else 0)
  | .whole n => some n
  | .real _ => none

/-- The rational that a number equals, unless it is infinite or no number. -/
def toRat? : Number → Option Rat
  | .flag b => some (if b then 1 else 0)
  | .whole n => some n
  | .real x => x.toRat?

def ltRat (n : Number) (q : Rat) : Bool :=
  match n with
  | .flag b => (if b then 1 else 0 : Rat) < q
  | .whole n => (n : Rat) < q
  | .real x => x.ltRat q

def gtRat (n : Number) (q : Rat) : Bool :=
  match n with
  | .flag b => q < (if b then 1 else 0 : Rat)
  | .whole n => q < (n : Rat)
  | .real x => x.gtRat q

def eqRat (n : Number) (q : Rat) : Bool :=
  match n with
  | .flag b => (if b then 1 else 0 : Rat) == q
  | .whole n => (n : Rat) == q
  | .real x => x.eqRat q

/-- Whether a number is at most a rational, which `nan` never is. -/
def leRat (n : Number) (q : Rat) : Bool := n.ltRat q || n.eqRat q

/-- Whether a number is at least a rational, which `nan` never is. -/
def geRat (n : Number) (q : Rat) : Bool := n.gtRat q || n.eqRat q

/-- Equality by value: `1`, `1.0` and true are the same number. -/
def same (a b : Number) : Bool :=
  match a, b with
  | .real x, .real y => x.same y
  | a, .real y => match a.toRat? with
    | some q => y.eqRat q
    | none => false
  | a, b => match b.toRat? with
    | some q => a.eqRat q
    | none => false

/-- Whether a number is zero. -/
def isZero (n : Number) : Bool := n.eqRat 0

/-- The nearest binary64 number; `none` for a whole number beyond the finite ones. -/
def toBinary64? : Number → Option Binary64
  | .flag b => Binary64.ofInt? (if b then 1 else 0)
  | .whole n => Binary64.ofInt? n
  | .real x => some x

/-- One more than a number, rounded if it is a binary64 one. -/
def succ : Number → Number
  | .flag b => .whole (if b then 2 else 1)
  | .whole n => .whole (n + 1)
  | .real x => .real (x.addRat 1)

/-- The text of a number. -/
def text : Number → String
  | .flag b => if b then "True" else "False"
  | .whole n => toString n
  | .real x => x.text

/-- The text of a number with one place after the point. -/
def textToTenth (n : Number) : String :=
  match n.toBinary64? with
  | some x => x.textToTenth
  | none => n.text

end Number
end Turnstile
