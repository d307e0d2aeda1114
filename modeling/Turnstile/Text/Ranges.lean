-- Sets of code points given as ranges in increasing order.

namespace Turnstile.Text

/-- Looks a code point up by halving the part of the table that may hold it; `fuel` bounds
the halvings. -/
def inRangesBetween (table : Array (Nat × Nat)) (n : Nat) : Nat → Nat → Nat → Bool
  | 0, _, _ => false
  | fuel + 1, first, last =>
    if last ≤ first then false
    else
      let middle := (first + last) / 2
      match table[middle]? with
      | none => false
      | some (low, high) =>
        if n < low then inRangesBetween table n fuel first middle
        else if high < n then inRangesBetween table n fuel (middle + 1) last
        else true

/-- Whether a code point lies in one of the ranges of an increasing table. -/
def inRanges (table : Array (Nat × Nat)) (n : Nat) : Bool :=
  inRangesBetween table n (Nat.log2 table.size + 2) 0 table.size

end Turnstile.Text
