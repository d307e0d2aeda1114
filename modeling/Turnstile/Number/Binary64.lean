-- Floating-point numbers of 64 bits as exact data: a finite one is a mantissa times a
-- power of two, so that sums, comparisons and roundings are statements about integers.

namespace Turnstile

/-- A number of the binary64 format. A finite one stands for `± mantissa * 2 ^ exponent`,
with `mantissa < 2 ^ 53` and `-1074 ≤ exponent ≤ 971`; below `2 ^ 52` the mantissa has the
exponent `-1074`. -/
inductive Binary64 where
  | finite (negative : Bool) (mantissa : Nat) (exponent : Int)
  | infinite (negative : Bool)
  | nan
  deriving DecidableEq, Repr, Inhabited

namespace Binary64

/-- The least exponent, the one of the numbers next to zero. -/
def minExponent : Int := -1074

/-- The greatest exponent of a finite number. -/
def maxExponent : Int := 971

/-- Positive or negative zero. -/
def zero (negative : Bool) : Binary64 := .finite negative 0 minExponent

/-! ## Rounding -/

/-- The natural number nearest to `num / den`; of two equally near, the even one. -/
def roundDiv (num den : Nat) : Nat :=
  let q := num / den
  let r := num % den
  if 2 * r < den then q
  else if den < 2 * r then q + 1
  else if q % 2 = 0 then q else q + 1

/-- The fraction `num / den` divided by `2 ^ e`, again as a fraction. -/
def scale (num den : Nat) (e : Int) : Nat × Nat :=
  if e < 0 then (num * Nat.pow 2 (-e).toNat, den) else (num, den * Nat.pow 2 e.toNat)

/-- The exponent under which `num / den` has a mantissa of 53 binary digits, or the least
one if that is greater. -/
def exponentOf (num den : Nat) : Int :=
  let guess : Int := (Nat.log2 num : Int) - (Nat.log2 den : Int) - 52
  let (n, d) := scale num den guess
  let e := if n < d * Nat.pow 2 52 then guess - 1 else guess
  max e minExponent

/-- The number nearest to `± num / den`; of two equally near, the one with the even mantissa. -/
def ofRatio (negative : Bool) (num den : Nat) : Binary64 :=
  if num = 0 then zero negative
  else
    let e := exponentOf num den
    let (n, d) := scale num den e
    let m := roundDiv n d
    let (m, e) := if m = Nat.pow 2 53 then (Nat.pow 2 52, e + 1) else (m, e)
    if maxExponent < e then .infinite negative else .finite negative m e

/-- The number nearest to a rational. -/
def ofRat (q : Rat) : Binary64 := ofRatio (q.num < 0) q.num.natAbs q.den

/-- The number nearest to an integer; `none` if it lies beyond the finite ones. -/
def ofInt? (n : Int) : Option Binary64 :=
  match ofRatio (n < 0) n.natAbs 1 with
  | .infinite _ => none
  | x => some x

/-- The number nearest to `± digits * 10 ^ power`. -/
def ofDecimal (negative : Bool) (digits : Nat) (power : Int) : Binary64 :=
  if digits = 0 then zero negative
  else if 400 < power then .infinite negative
  else if power < -20000 then zero negative
  else if power < 0 then ofRatio negative digits (Nat.pow 10 (-power).toNat)
  else ofRatio negative (digits * Nat.pow 10 power.toNat) 1

/-! ## Values -/

/-- The rational that a finite number stands for. -/
def toRat? : Binary64 → Option Rat
  | .finite negative m e =>
    let size : Rat :=
      if e < 0 then mkRat m (Nat.pow 2 (-e).toNat) else ((m * Nat.pow 2 e.toNat : Nat) : Rat)
    some (if negative then -size else size)
  | _ => none

/-- Whether a number is below a rational. -/
def ltRat (x : Binary64) (q : Rat) : Bool :=
  match x with
  | .finite .. => (x.toRat?.getD 0) < q
  | .infinite negative => negative
  | .nan => false

/-- Whether a number is above a rational. -/
def gtRat (x : Binary64) (q : Rat) : Bool :=
  match x with
  | .finite .. => q < x.toRat?.getD 0
  | .infinite negative => !negative
  | .nan => false

/-- Whether a number equals a rational. -/
def eqRat (x : Binary64) (q : Rat) : Bool :=
  match x with
  | .finite .. => x.toRat?.getD 0 == q
  | _ => false

/-- Equality of numbers: both zeros are equal, and nothing equals `nan`. -/
def same (x y : Binary64) : Bool :=
  match x, y with
  | .finite .., .finite .. => x.toRat? == y.toRat?
  | .infinite a, .infinite b => a == b
  | _, _ => false

/-- Whether a number is zero. -/
def isZero : Binary64 → Bool
  | .finite _ m _ => m == 0
  | _ => false

/-- The sum of a number and a rational, rounded. -/
def addRat (x : Binary64) (q : Rat) : Binary64 :=
  match x with
  | .finite negative .. =>
    let sum := x.toRat?.getD 0 + q
    if sum == 0 then zero (negative && q == 0) else ofRat sum
  | x => x

end Binary64
end Turnstile
