-- The binary64 number of a whole number is the one nearest to it, and the one with the even mantissa
-- of two that are equally near.
import Mathlib
import Turnstile.Proofs.Number.Range

namespace Turnstile.Binary64

variable {num m : Nat} {e : Int}

/-! ## The numbers of the format -/

/-- A mantissa and an exponent as the format has them: short mantissas have the least exponent. -/
structure Fits (m : Nat) (e : Int) : Prop where
  mantissa : m < 2 ^ 53
  least : minExponent ≤ e
  greatest : e ≤ maxExponent
  short : m < 2 ^ 52 → e = minExponent

/-- A finite number of the format. -/
def IsFinite : Binary64 → Prop
  | .finite _ m e => Fits m e
  | .infinite _ | .nan => False

/-- What a mantissa and an exponent stand for. -/
def magnitude (m : Nat) (e : Int) : Rat := m * 2 ^ e

theorem toRat?_finite (negative : Bool) (m : Nat) (e : Int) :
    toRat? (.finite negative m e) =
      some (if negative then -magnitude m e else magnitude m e) := by
  have hsize : (if e < 0 then mkRat m (Nat.pow 2 (-e).toNat)
      else ((m * Nat.pow 2 e.toNat : Nat) : Rat)) = magnitude m e := by
    unfold magnitude
    split_ifs with he
    · obtain ⟨k, rfl⟩ : ∃ k : Nat, e = -k := ⟨(-e).toNat, by omega⟩
      rw [neg_neg, Int.toNat_natCast, Rat.mkRat_eq_div, zpow_neg, zpow_natCast,
        show Nat.pow 2 k = 2 ^ k from rfl]
      push_cast
      rfl
    · obtain ⟨k, rfl⟩ : ∃ k : Nat, e = k := ⟨e.toNat, by omega⟩
      rw [Int.toNat_natCast, zpow_natCast, show Nat.pow 2 k = 2 ^ k from rfl]
      push_cast
      rfl
  simp only [toRat?, hsize]

theorem magnitude_nonneg (m : Nat) (e : Int) : 0 ≤ magnitude m e := by
  unfold magnitude
  positivity

/-! ## The nearest quotient -/

/-- A rounded quotient is nearest to what was divided, and even where another one is as near. -/
theorem roundDiv_nearest {den : Nat} (hden : 0 < den) (j : Nat) :
    |(roundDiv num den * den : Int) - num| ≤ |(j * den : Int) - num| ∧
      (|(j * den : Int) - num| = |(roundDiv num den * den : Int) - num| →
        j = roundDiv num den ∨ roundDiv num den % 2 = 0) := by
  have hsplit : num / den * den + num % den = num := Nat.div_add_mod' num den
  have hrest : num % den < den := Nat.mod_lt num hden
  unfold roundDiv
  simp only
  generalize num / den = q at *
  generalize num % den = r at *
  have hsplit' : (q * den + r : Int) = num := by exact_mod_cast hsplit
  have hnext : ((q + 1 : Nat) * den : Int) = q * den + den := by push_cast; ring
  -- what lies below the lower quotient or above the upper one is further away than these are
  have hplace : (j * den + den : Int) ≤ q * den ∧ j < q ∨ j = q ∨ j = q + 1 ∨
      (q * den + 2 * den : Int) ≤ j * den ∧ q + 1 < j := by
    rcases Nat.lt_trichotomy j q with hj | hj | hj
    · have hle : (j + 1) * den ≤ q * den := Nat.mul_le_mul_right den hj
      refine .inl ⟨?_, hj⟩
      have hle' : ((j + 1) * den : Int) ≤ q * den := by exact_mod_cast hle
      linarith
    · exact .inr (.inl hj)
    · rcases Nat.eq_or_lt_of_le hj with hj | hj
      · exact .inr (.inr (.inl hj.symm))
      · have hle : (q + 2) * den ≤ j * den := Nat.mul_le_mul_right den hj
        refine .inr (.inr (.inr ⟨?_, hj⟩))
        have hle' : ((q + 2) * den : Int) ≤ j * den := by exact_mod_cast hle
        linarith
  simp only [abs_eq_max_neg]
  rcases hplace with ⟨hfar, hj⟩ | rfl | rfl | ⟨hfar, hj⟩ <;> split_ifs <;> omega

/-! ## The nearest magnitude -/

/-- Of all magnitudes of the format the one that is nearest to a rational, or of two that are equally
near the one with the even mantissa. -/
structure NearestMagnitude (q : Rat) (m : Nat) (e : Int) : Prop where
  fits : Fits m e
  nearest : ∀ m' e', Fits m' e' → |magnitude m e - q| ≤ |magnitude m' e' - q|
  even : ∀ m' e', Fits m' e' → |magnitude m' e' - q| = |magnitude m e - q| →
    magnitude m' e' = magnitude m e ∨ m % 2 = 0

theorem NearestMagnitude.of_exact (hfits : Fits m e) :
    NearestMagnitude (magnitude m e) m e where
  fits := hfits
  nearest m' e' _ := by
    rw [sub_self, abs_zero]
    exact abs_nonneg _
  even m' e' _ heq := by
    rw [sub_self, abs_zero, abs_eq_zero, sub_eq_zero] at heq
    exact .inl heq

theorem fits_zero : Fits 0 minExponent where
  mantissa := by decide
  least := le_rfl
  greatest := by decide
  short _ := rfl

/-- Shifted up, a short whole number is a full mantissa. -/
theorem shifted_bounds (hnum : num ≠ 0) {k : Nat} (hk : Nat.log2 num + k = 52) :
    2 ^ 52 ≤ num * 2 ^ k ∧ num * 2 ^ k < 2 ^ 53 := by
  constructor
  · calc 2 ^ 52 = 2 ^ Nat.log2 num * 2 ^ k := by rw [← Nat.pow_add, hk]
      _ ≤ num * 2 ^ k := Nat.mul_le_mul_right _ (Nat.log2_self_le hnum)
  · calc num * 2 ^ k < 2 ^ (Nat.log2 num + 1) * 2 ^ k :=
          Nat.mul_lt_mul_of_pos_right Nat.lt_log2_self (Nat.two_pow_pos k)
      _ = 2 ^ 53 := by rw [← Nat.pow_add, Nat.add_right_comm, hk]

/-- A whole number of fewer than 53 binary digits is kept as it is. -/
theorem ofRatio_short_eq (negative : Bool) (hnum : num ≠ 0) {k : Nat}
    (hk : Nat.log2 num + k = 52) :
    ofRatio negative num 1 = .finite negative (num * 2 ^ k) (-(k : Int)) := by
  obtain ⟨hfull, htop⟩ := shifted_bounds hnum hk
  have hone : Nat.log2 1 = 0 := rfl
  have hguess : (Nat.log2 num : Int) - (Nat.log2 1 : Int) - 52 = -(k : Int) := by omega
  have hscale : scale num 1 (-(k : Int)) = (num * 2 ^ k, 1) := by
    unfold scale
    split_ifs with hneg
    · rw [neg_neg, Int.toNat_natCast]
      rfl
    · obtain rfl : k = 0 := by omega
      simp
  have hexponent : exponentOf num 1 = -(k : Int) := by
    unfold exponentOf
    simp only [hguess, hscale]
    rw [if_neg (by rw [Nat.one_mul]; exact Nat.not_lt.2 hfull)]
    unfold minExponent
    omega
  have hround : roundDiv (num * 2 ^ k) 1 = num * 2 ^ k := by
    unfold roundDiv
    simp [Nat.mod_one]
  have htop' : num * 2 ^ k ≠ Nat.pow 2 53 := Nat.ne_of_lt htop
  rw [ofRatio_eq negative hnum hexponent hscale, hround, if_neg htop',
    if_neg (by unfold maxExponent; omega)]

theorem ofRatio_short_nearest {negative b : Bool} (hnum : num ≠ 0) (hshort : num < 2 ^ 52)
    (h : ofRatio negative num 1 = .finite b m e) : b = negative ∧ NearestMagnitude num m e := by
  have hlog : Nat.log2 num < 52 := (Nat.log2_lt hnum).2 hshort
  obtain ⟨k, hk⟩ : ∃ k, Nat.log2 num + k = 52 := ⟨52 - Nat.log2 num, by omega⟩
  obtain ⟨hfull, htop⟩ := shifted_bounds hnum hk
  rw [ofRatio_short_eq negative hnum hk] at h
  obtain ⟨rfl, rfl, rfl⟩ := Binary64.finite.inj h
  have hexact : magnitude (num * 2 ^ k) (-(k : Int)) = num := by
    unfold magnitude
    rw [zpow_neg, zpow_natCast]
    push_cast
    exact mul_inv_cancel_right₀ (by positivity) _
  have hfits : Fits (num * 2 ^ k) (-(k : Int)) := {
    mantissa := htop
    least := by unfold minExponent; omega
    greatest := by unfold maxExponent; omega
    short := fun hlow => absurd hfull (Nat.not_le.2 hlow) }
  exact ⟨rfl, hexact ▸ .of_exact hfits⟩

/-- From an exponent on, all magnitudes are multiples of the power of two that it gives. -/
theorem magnitude_eq_mul {k : Nat} (he : (k : Int) ≤ e) :
    ∃ j : Nat, magnitude m e = j * 2 ^ k := by
  obtain ⟨i, rfl⟩ : ∃ i : Nat, e = i + k := ⟨(e - k).toNat, by omega⟩
  refine ⟨m * 2 ^ i, ?_⟩
  unfold magnitude
  rw [zpow_add₀ two_ne_zero, zpow_natCast, zpow_natCast]
  push_cast
  ring

/-- Below an exponent, all magnitudes are less than its least full mantissa. -/
theorem magnitude_lt {k : Nat} (hfits : Fits m e) (he : e < (k : Int)) :
    magnitude m e < 2 ^ 52 * 2 ^ k := by
  have hmantissa : (m : Rat) < 2 ^ 53 := by exact_mod_cast hfits.mantissa
  have hpower : (2 : Rat) ^ e ≤ 2 ^ ((k : Int) - 1) :=
    zpow_le_zpow_right₀ one_le_two (by omega)
  have hpositive : (0 : Rat) < 2 ^ e := by positivity
  calc magnitude m e < 2 ^ 53 * 2 ^ e := mul_lt_mul_of_pos_right hmantissa hpositive
    _ ≤ 2 ^ 53 * 2 ^ ((k : Int) - 1) := by gcongr
    _ = 2 ^ 52 * 2 ^ k := by
      rw [zpow_sub_one₀ two_ne_zero, zpow_natCast]
      ring

/-- A long whole number goes to the nearest multiple of the last place of its mantissa, and no
magnitude with a lesser exponent is as near. -/
theorem nearestMagnitude_of_roundDiv {k : Nat} (hlower : 2 ^ 52 * 2 ^ k ≤ num) (hfits : Fits m e)
    (heq : magnitude m e = roundDiv num (2 ^ k) * 2 ^ k)
    (heven : roundDiv num (2 ^ k) % 2 = 0 → m % 2 = 0) : NearestMagnitude num m e := by
  have hnear := fun j => @roundDiv_nearest num (2 ^ k) (Nat.two_pow_pos k) j
  have hcast : ∀ j : Nat, |(j : Rat) * 2 ^ k - num| = ((|(j * (2 ^ k : Nat) : Int) - num| : Int) : Rat) := by
    intro j
    push_cast
    rfl
  have hlower' : (2 : Rat) ^ 52 * 2 ^ k ≤ num := by exact_mod_cast hlower
  -- what has a lesser exponent lies below the least full mantissa, which is no nearer itself
  have hbelow : ∀ m' e', Fits m' e' → e' < (k : Int) →
      |magnitude m e - num| < |magnitude m' e' - num| := by
    intro m' e' hfits' he'
    have hlt := magnitude_lt hfits' he'
    obtain ⟨full, hfull⟩ : ∃ full : Nat, (2 : Rat) ^ 52 = full := ⟨2 ^ 52, by norm_num⟩
    rw [hfull] at hlt hlower'
    have hle : |magnitude m e - num| ≤ |(full : Rat) * 2 ^ k - num| := by
      rw [heq, hcast, hcast]
      exact_mod_cast (hnear full).1
    rw [abs_of_nonpos (sub_nonpos.2 hlower')] at hle
    rw [abs_of_neg (a := magnitude m' e' - num) (by linarith)]
    linarith
  constructor
  · exact hfits
  · intro m' e' hfits'
    rcases lt_or_ge e' (k : Int) with he' | he'
    · exact (hbelow m' e' hfits' he').le
    · obtain ⟨j, hj⟩ := magnitude_eq_mul (m := m') he'
      rw [hj, heq, hcast, hcast]
      exact_mod_cast (hnear j).1
  · intro m' e' hfits' htie
    rcases lt_or_ge e' (k : Int) with he' | he'
    · exact absurd htie (hbelow m' e' hfits' he').ne'
    · obtain ⟨j, hj⟩ := magnitude_eq_mul (m := m') he'
      rw [hj, heq, hcast, hcast] at htie
      rcases (hnear j).2 (by exact_mod_cast htie) with rfl | hround
      · exact .inl (hj.trans heq.symm)
      · exact .inr (heven hround)

/-- A number of more digits than a mantissa has lies between two powers of two. -/
theorem exists_binade (hlong : 2 ^ 52 ≤ num) :
    ∃ k : Nat, exponentOf num 1 = k ∧ 2 ^ 52 * 2 ^ k ≤ num ∧ num < 2 ^ 53 * 2 ^ k := by
  have hnum : num ≠ 0 := by omega
  have hlog : 52 ≤ Nat.log2 num := (Nat.le_log2 hnum).2 hlong
  obtain ⟨k, hk⟩ : ∃ k, Nat.log2 num = 52 + k := ⟨Nat.log2 num - 52, by omega⟩
  refine ⟨k, ?_, ?_, ?_⟩
  · rw [exponentOf_long hlong]
    omega
  · rw [← Nat.pow_add, ← hk]
    exact Nat.log2_self_le hnum
  · rw [← Nat.pow_add, show 53 + k = Nat.log2 num + 1 by omega]
    exact Nat.lt_log2_self

theorem ofRatio_long_nearest {negative b : Bool} (hlong : 2 ^ 52 ≤ num)
    (h : ofRatio negative num 1 = .finite b m e) : b = negative ∧ NearestMagnitude num m e := by
  have hnum : num ≠ 0 := by omega
  obtain ⟨k, hexponent, hlower, hupper⟩ := exists_binade hlong
  have hfull : 2 ^ 52 ≤ num / 2 ^ k := (Nat.le_div_iff_mul_le (Nat.two_pow_pos k)).2 hlower
  have htop : num / 2 ^ k < 2 ^ 53 := (Nat.div_lt_iff_lt_mul (Nat.two_pow_pos k)).2 hupper
  have hround := roundDiv_le num (2 ^ k)
  have hround' : num / 2 ^ k ≤ roundDiv num (2 ^ k) := by
    unfold roundDiv
    simp only
    split_ifs <;> omega
  rw [ofRatio_eq negative hnum hexponent (scale_whole num k)] at h
  have hcarry : Nat.pow 2 53 = 2 ^ 53 := rfl
  split_ifs at h with hcarries hbeyond hbeyond
  · -- the mantissa carries over into the exponent
    obtain ⟨rfl, rfl, rfl⟩ := Binary64.finite.inj h
    refine ⟨rfl, nearestMagnitude_of_roundDiv hlower ⟨by decide, ?_, not_lt.1 hbeyond, ?_⟩ ?_ ?_⟩
    · unfold minExponent
      omega
    · exact fun hlow => absurd hlow (lt_irrefl _)
    · rw [hcarries, hcarry]
      unfold magnitude
      rw [zpow_add₀ two_ne_zero, zpow_natCast]
      norm_num
      ring
    · exact fun _ => by decide
  · obtain ⟨rfl, rfl, rfl⟩ := Binary64.finite.inj h
    refine ⟨rfl, nearestMagnitude_of_roundDiv hlower ⟨?_, ?_, not_lt.1 hbeyond, ?_⟩ ?_ id⟩
    · omega
    · unfold minExponent
      omega
    · exact fun hlow => by omega
    · unfold magnitude
      rw [zpow_natCast]

theorem ofRatio_nearest {negative b : Bool} (h : ofRatio negative num 1 = .finite b m e) :
    b = negative ∧ NearestMagnitude num m e := by
  by_cases hnum : num = 0
  · subst hnum
    obtain ⟨rfl, rfl, rfl⟩ := Binary64.finite.inj h
    have hzero : magnitude 0 minExponent = ((0 : Nat) : Rat) := by simp [magnitude]
    exact ⟨rfl, hzero ▸ .of_exact fits_zero⟩
  · rcases lt_or_ge num (2 ^ 52) with hshort | hlong
    · exact ofRatio_short_nearest hnum hshort h
    · exact ofRatio_long_nearest hlong h

/-! ## The nearest number -/

/-- The mantissa of a number is even. -/
def IsEven : Binary64 → Prop
  | .finite _ m _ => m % 2 = 0
  | .infinite _ | .nan => False

/-- The finite number that a rational is rounded to, with its value: no finite number of the format is
nearer, and if one is as near, the mantissa is even. -/
structure IsNearest (q : Rat) (x : Binary64) (r : Rat) : Prop where
  finite : x.IsFinite
  value : x.toRat? = some r
  nearest : ∀ (y : Binary64) (s : Rat), y.IsFinite → y.toRat? = some s → |r - q| ≤ |s - q|
  even : ∀ (y : Binary64) (s : Rat), y.IsFinite → y.toRat? = some s → |s - q| = |r - q| →
    s = r ∨ x.IsEven

/-- What is a number of the format is rounded to itself. -/
theorem IsNearest.exact {q r : Rat} {x y : Binary64} (h : IsNearest q x r) (hy : y.IsFinite)
    (hvalue : y.toRat? = some q) : r = q := by
  have hle := h.nearest y q hy hvalue
  rw [sub_self, abs_zero] at hle
  exact sub_eq_zero.1 (abs_eq_zero.1 (le_antisymm hle (abs_nonneg _)))

/-- No number of the format is passed on the way down to what is rounded to. -/
theorem IsNearest.le {q r s : Rat} {x y : Binary64} (h : IsNearest q x r) (hy : y.IsFinite)
    (hvalue : y.toRat? = some s) (hle : s ≤ q) : s ≤ r := by
  have hnearest := h.nearest y s hy hvalue
  rw [abs_of_nonpos (sub_nonpos.2 hle)] at hnearest
  linarith [neg_abs_le (r - q)]

/-- A magnitude under a sign. -/
def signed (negative : Bool) (q : Rat) : Rat := if negative then -q else q

theorem abs_signed_sub (b : Bool) (q r : Rat) : |signed b q - signed b r| = |q - r| := by
  cases b with
  | false => rfl
  | true =>
    show |-q - -r| = |q - r|
    rw [neg_sub_neg, abs_sub_comm]

/-- Under different signs, two magnitudes are as far from each other as both are from zero. -/
theorem abs_signed_sub_not (b : Bool) {q r : Rat} (hq : 0 ≤ q) (hr : 0 ≤ r) :
    |signed (!b) q - signed b r| = q + r := by
  cases b with
  | false =>
    show |-q - r| = q + r
    rw [abs_of_nonpos (by linarith)]
    ring
  | true =>
    show |q - -r| = q + r
    rw [abs_of_nonneg (by linarith)]
    ring

/-- On the other side only zero is as near as the nearest magnitude, and then zero is nearest. -/
theorem NearestMagnitude.opposite {q : Rat} (h : NearestMagnitude q m e) (hq : 0 ≤ q) (b : Bool)
    {m' : Nat} {e' : Int}
    (htie : |signed (!b) (magnitude m' e') - signed b q| = |magnitude m e - q|) :
    signed (!b) (magnitude m' e') = signed b (magnitude m e) ∨ m % 2 = 0 := by
  have hzero : |magnitude 0 minExponent - q| = q := by
    simp [magnitude, abs_of_nonneg hq]
  have hle := h.nearest 0 minExponent fits_zero
  rw [abs_signed_sub_not b (magnitude_nonneg m' e') hq] at htie
  have hnone : magnitude m' e' = 0 := by linarith [magnitude_nonneg m' e']
  have hsame : |magnitude 0 minExponent - q| = |magnitude m e - q| := by
    rw [hzero, ← htie, hnone, zero_add]
  rcases h.even 0 minExponent fits_zero hsame with heq | heven
  · refine .inl ?_
    rw [hnone, ← heq]
    cases b <;> simp [signed, magnitude]
  · exact .inr heven

/-- The nearest magnitude under the sign is the nearest number, since zero is nearer than all that is
on the other side. -/
theorem NearestMagnitude.isNearest {q : Rat} (h : NearestMagnitude q m e) (hq : 0 ≤ q) (b : Bool) :
    IsNearest (signed b q) (.finite b m e) (signed b (magnitude m e)) := by
  have hzero : |magnitude 0 minExponent - q| = q := by
    simp [magnitude, abs_of_nonneg hq]
  have hle := h.nearest 0 minExponent fits_zero
  rw [hzero] at hle
  constructor
  · exact h.fits
  · exact toRat?_finite b m e
  · intro y s hy hs
    cases y with
    | finite b' m' e' =>
      obtain rfl := Option.some.inj ((toRat?_finite b' m' e').symm.trans hs)
      rw [abs_signed_sub]
      by_cases hb : b' = b
      · subst hb
        exact (h.nearest m' e' hy).trans (abs_signed_sub b' _ _).ge
      · obtain rfl : b' = !b := Bool.eq_not.2 hb
        refine hle.trans (le_trans ?_ (abs_signed_sub_not b (magnitude_nonneg m' e') hq).ge)
        linarith [magnitude_nonneg m' e']
    | infinite b' => exact hy.elim
    | nan => exact hy.elim
  · intro y s hy hs htie
    cases y with
    | finite b' m' e' =>
      obtain rfl := Option.some.inj ((toRat?_finite b' m' e').symm.trans hs)
      rw [abs_signed_sub b] at htie
      by_cases hb : b' = b
      · subst hb
        rcases h.even m' e' hy ((abs_signed_sub b' _ _).symm.trans htie) with heq | heven
        · exact .inl (congrArg (signed b') heq)
        · exact .inr heven
      · obtain rfl : b' = !b := Bool.eq_not.2 hb
        exact h.opposite hq b htie
    | infinite b' => exact hy.elim
    | nan => exact hy.elim

theorem ofRatio_ne_nan (negative : Bool) (num : Nat) : ofRatio negative num 1 ≠ .nan := by
  by_cases hnum : num = 0
  · have hzero : ofRatio negative num 1 = zero negative := if_pos hnum
    rw [hzero]
    exact Binary64.noConfusion
  · obtain ⟨⟨n, d⟩, hscale⟩ : ∃ fraction, scale num 1 (exponentOf num 1) = fraction := ⟨_, rfl⟩
    rw [ofRatio_eq negative hnum rfl hscale]
    generalize Nat.pow 2 53 = top
    generalize Nat.pow 2 52 = bottom
    split_ifs <;> simp

/-- The binary64 number of a whole number, where there is one, is the nearest to it. -/
theorem ofInt?_isNearest {n : Int} {x : Binary64} (h : ofInt? n = some x) :
    ∃ r, IsNearest n x r := by
  have hvalue : (n : Rat) = signed (decide (n < 0)) n.natAbs := by
    unfold signed
    split_ifs with hneg
    · have hneg' : n < 0 := of_decide_eq_true hneg
      rw [← Int.cast_natCast, Int.natCast_natAbs, abs_of_neg hneg']
      push_cast
      ring
    · have hneg' : ¬ n < 0 := fun hlt => hneg (decide_eq_true hlt)
      rw [← Int.cast_natCast, Int.natCast_natAbs, abs_of_nonneg (not_lt.1 hneg')]
  unfold ofInt? at h
  cases hx : ofRatio (decide (n < 0)) n.natAbs 1 with
  | finite b m e =>
    rw [hx] at h
    obtain rfl := Option.some.inj h
    obtain ⟨rfl, hnearest⟩ := ofRatio_nearest hx
    exact ⟨_, hvalue ▸ hnearest.isNearest (Nat.cast_nonneg _) _⟩
  | infinite b =>
    rw [hx] at h
    cases h
  | nan => exact absurd hx (ofRatio_ne_nan _ _)

end Turnstile.Binary64
