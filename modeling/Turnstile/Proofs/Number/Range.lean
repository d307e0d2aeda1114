-- Which whole numbers have a nearest binary64 number: those that lie less than half a step beyond
-- the greatest finite one.
import Mathlib.Tactic
import Turnstile.Number.Binary64

namespace Turnstile.Binary64

variable {num : Nat}

/-! ## Rounding quotients -/

theorem roundDiv_le (num den : Nat) : roundDiv num den ≤ num / den + 1 := by
  unfold roundDiv
  simp only
  split_ifs <;> omega

/-- The fraction that is rounded to the mantissa of a whole number. -/
theorem scale_whole (num k : Nat) : scale num 1 (k : Int) = (num, 2 ^ k) := by
  unfold scale
  rw [if_neg (by omega), Int.toNat_natCast, Nat.one_mul]
  rfl

/-- A whole number of 53 binary digits or more has the exponent that leaves just so many. -/
theorem exponentOf_long (hlong : 2 ^ 52 ≤ num) :
    exponentOf num 1 = ((Nat.log2 num - 52 : Nat) : Int) := by
  have hlog : 52 ≤ Nat.log2 num := (Nat.le_log2 (by omega)).2 hlong
  have hguess : (Nat.log2 num : Int) - (Nat.log2 1 : Int) - 52 =
      ((Nat.log2 num - 52 : Nat) : Int) := by
    have hone : Nat.log2 1 = 0 := rfl
    omega
  have hfull : 2 ^ (Nat.log2 num - 52) * Nat.pow 2 52 ≤ num :=
    calc 2 ^ (Nat.log2 num - 52) * Nat.pow 2 52 = 2 ^ (Nat.log2 num - 52 + 52) :=
          (Nat.pow_add ..).symm
      _ = 2 ^ Nat.log2 num := by rw [Nat.sub_add_cancel hlog]
      _ ≤ num := Nat.log2_self_le (by omega)
  unfold exponentOf
  simp only [hguess, scale_whole, if_neg (Nat.not_lt.2 hfull), minExponent]
  omega

/-! ## What is too large -/

/-- A mantissa that reaches `2 ^ 53` carries over into the exponent. -/
theorem ofRatio_eq (negative : Bool) (hnum : num ≠ 0) {e : Int} {n d : Nat}
    (he : exponentOf num 1 = e) (hscale : scale num 1 e = (n, d)) :
    ofRatio negative num 1 =
      if roundDiv n d = Nat.pow 2 53 then
        if maxExponent < e + 1 then .infinite negative
        else .finite negative (Nat.pow 2 52) (e + 1)
      else if maxExponent < e then .infinite negative
      else .finite negative (roundDiv n d) e := by
  unfold ofRatio
  rw [if_neg hnum, he]
  generalize Nat.pow 2 53 = top
  generalize Nat.pow 2 52 = bottom
  simp only [hscale]
  split_ifs <;> simp_all

end Turnstile.Binary64
