-- Decimal texts of binary64 numbers: the fewest digits that read back, and a fixed
-- number of places.
import Turnstile.Number.Binary64

namespace Turnstile
namespace Binary64

/-! ## The fewest digits -/

/-- The decimal `digits * 10 ^ power`. -/
structure Decimal where
  digits : Nat
  power : Int
  deriving DecidableEq, Repr

/-- `num / den` divided by `10 ^ p`, as a fraction. -/
def scaleTen (num den : Nat) (p : Int) : Nat × Nat :=
  if p < 0 then (num * Nat.pow 10 (-p).toNat, den) else (num, den * Nat.pow 10 p.toNat)

/-- The number of decimal digits before the point of `num / den`, which is at most zero for
a fraction below `1 / 10`. -/
def leadingPlace (num den : Nat) : Int :=
  let guess : Int := ((Nat.log2 num : Int) - (Nat.log2 den : Int)) * 30103 / 100000 - 1
  let step (p : Int) : Int :=
    let (n, d) := scaleTen num den p
    if n < d then p else p + 1
  step (step (step (step guess)))

/-- Twice the value, its lower and its upper neighbour's midpoint, over one denominator. -/
def bounds (m : Nat) (e : Int) : (Nat × Nat × Nat) × Nat :=
  let lowStep := if m = Nat.pow 2 52 ∧ minExponent < e then 1 else 2
  if e < 0 then ((4 * m, 4 * m - lowStep, 4 * m + 2), 4 * Nat.pow 2 (-e).toNat)
  else
    let p := Nat.pow 2 e.toNat
    ((4 * m * p, (4 * m - lowStep) * p, (4 * m + 2) * p), 4)

/-- The candidate of `count` digits: of the two neighbours of the value on that grid, the
nearest one that still reads back. -/
def candidate (m : Nat) (e : Int) (place : Int) (count : Nat) : Option Decimal :=
  let ((v, low, high), den) := bounds m e
  let power := place - count
  let reads (c : Nat) : Bool :=
    let (cn, cd) := if power < 0 then (c, Nat.pow 10 (-power).toNat)
      else (c * Nat.pow 10 power.toNat, 1)
    if m % 2 = 0 then low * cd ≤ cn * den && cn * den ≤ high * cd
    else low * cd < cn * den && cn * den < high * cd
  let (n, d) := scaleTen v den power
  let below := n / d
  let rest := n % d
  let above := if rest = 0 then below else below + 1
  let nearBelow : Bool := 2 * rest < d || (2 * rest == d && below % 2 == 0)
  let (first, second) := if nearBelow then (below, above) else (above, below)
  if reads first then some ⟨first, power⟩
  else if reads second then some ⟨second, power⟩
  else none

/-- The decimal with the fewest digits that rounds to `m * 2 ^ e`, and of those the nearest. -/
def shortest (m : Nat) (e : Int) : Decimal :=
  let ((v, _, _), den) := bounds m e
  let place := leadingPlace v den
  ((List.range 17).findSome? fun n => candidate m e place (n + 1)).getD ⟨m, e⟩

/-! ## Texts -/

/-- Digits and the place of the point, without trailing zeros: the value is
`0.digits * 10 ^ place`. -/
def pointed (x : Decimal) : List Char × Int :=
  let ds := Nat.toDigits 10 x.digits
  let place := x.power + ds.length
  ((ds.reverse.dropWhile (· == '0')).reverse, place)

/-- At least two digits of an exponent. -/
def exponentText (n : Nat) : String :=
  let ds := String.ofList (Nat.toDigits 10 n)
  if n < 10 then "0" ++ ds else ds

/-- A decimal text: positional while the point stands from three places before the digits
to sixteen digits in, and otherwise with an exponent. -/
def layout (digits : List Char) (place : Int) : String :=
  if place ≤ -4 ∨ 16 < place then
    let e := place - 1
    let body := match digits with
      | [] => "0"
      | [d] => String.ofList [d]
      | d :: rest => String.ofList (d :: '.' :: rest)
    body ++ (if e < 0 then "e-" else "e+") ++ exponentText e.natAbs
  else if place ≤ 0 then
    "0." ++ String.ofList (List.replicate (-place).toNat '0') ++ String.ofList digits
  else
    let n := place.toNat
    let whole := digits.take n ++ List.replicate (n - digits.length) '0'
    let fraction := digits.drop n
    String.ofList whole ++ "." ++ (if fraction.isEmpty then "0" else String.ofList fraction)

/-- The shortest text that reads back as the number. -/
def text : Binary64 → String
  | .nan => "nan"
  | .infinite negative => if negative then "-inf" else "inf"
  | .finite negative m e =>
    let sign := if negative then "-" else ""
    if m = 0 then sign ++ "0.0"
    else
      let (digits, place) := pointed (shortest m e)
      sign ++ layout digits place

/-- A text with one place after the point; a half goes to the even neighbour. -/
def textToTenth : Binary64 → String
  | .nan => "nan"
  | .infinite negative => if negative then "-inf" else "inf"
  | .finite negative m e =>
    let (n, d) := if e < 0 then (m, Nat.pow 2 (-e).toNat) else (m * Nat.pow 2 e.toNat, 1)
    let tenths := roundDiv (10 * n) d
    (if negative then "-" else "") ++ toString (tenths / 10) ++ "." ++ toString (tenths % 10)

end Binary64
end Turnstile
