import Mathlib.Algebra.Order.Ring.Rat
import Mathlib.Algebra.Order.Field.Power
import Mathlib.Tactic.LinearCombination
import Mathlib.Tactic.Linarith
import Mathlib.Tactic.Ring
import VibeScript.Proofs.Number.Literal

/-!
Where the doubles end.

A decimal is read as an infinity exactly if it is at least halfway from the greatest double to
2^1024 (`Binary64.ofDecimal_cases`).  The greatest double is odd as a number of its last bits,
so the number in the middle is rounded up.
-/

namespace VibeScript

namespace Binary64

theorem twoTo_eq (n : Nat) : twoTo n = 2 ^ n := rfl

theorem tenTo_eq (n : Nat) : tenTo n = 10 ^ n := rfl

theorem twoTo_pos (n : Nat) : 0 < twoTo n := Nat.two_pow_pos n

theorem tenTo_pos (n : Nat) : 0 < tenTo n := Nat.pow_pos (by decide)

theorem unitLimit_eq : unitLimit = 2 ^ (2044 + 54) := twoTo_eq (2044 + 54)

theorem le_divideToNearest (num den : Nat) : num / den ≤ divideToNearest num den := by
  rw [divideToNearest]
  split <;> omega

theorem divideToNearest_le (num den : Nat) : divideToNearest num den ≤ num / den + 1 := by
  rw [divideToNearest]
  split <;> omega

/-- A quotient is rounded to an even number from the middle below it on. -/
theorem even_le_divideToNearest_iff {num den n : Nat} (hden : 0 < den) (hn : 0 < n)
    (heven : n % 2 = 0) : n ≤ divideToNearest num den ↔ (2 * n - 1) * den ≤ 2 * num := by
  have hsplit : den * (num / den) + num % den = num := Nat.div_add_mod num den
  have hless : num % den < den := Nat.mod_lt num hden
  have hnearest : divideToNearest num den =
      if den < 2 * (num % den) ∨ (den = 2 * (num % den) ∧ num / den % 2 = 1) then num / den + 1
      else num / den := rfl
  generalize hq : num / den = q at *
  generalize hr : num % den = r at *
  rcases Nat.lt_trichotomy n (q + 1) with hbelow | hnext | habove
  · -- the quotient is there without being rounded
    have hround : n ≤ divideToNearest num den := by rw [hnearest]; split <;> omega
    have hmul : (2 * n - 1) * den ≤ (2 * q) * den := Nat.mul_le_mul_right den (by omega)
    have hdouble : (2 * q) * den = 2 * (den * q) := by rw [Nat.mul_assoc, Nat.mul_comm q]
    exact iff_of_true hround (by omega)
  · -- the quotient is odd, so the middle is rounded up
    have hodd : q % 2 = 1 := by omega
    have hmul : (2 * n - 1) * den = 2 * (den * q) + den := by
      rw [hnext, show 2 * (q + 1) - 1 = 2 * q + 1 by omega, Nat.add_mul, Nat.one_mul,
        Nat.mul_assoc, Nat.mul_comm q]
    rw [hmul, hnearest]
    split <;> omega
  · have hround : ¬ n ≤ divideToNearest num den := by rw [hnearest]; split <;> omega
    have hmul : (2 * q + 3) * den ≤ (2 * n - 1) * den := Nat.mul_le_mul_right den (by omega)
    have hdouble : (2 * q + 3) * den = 2 * (den * q) + 3 * den := by
      rw [Nat.add_mul, Nat.mul_assoc, Nat.mul_comm q]
    exact iff_of_false hround (by omega)

theorem roundUnits_le (num den : Nat) :
    roundUnits num den ≤ num / den + 2 ^ spareBits (num / den) := by
  have hround := divideToNearest_le num (den * 2 ^ spareBits (num / den))
  rw [← Nat.div_div_eq_div_mul] at hround
  calc roundUnits num den
      ≤ (num / den / 2 ^ spareBits (num / den) + 1) * 2 ^ spareBits (num / den) :=
        Nat.mul_le_mul_right _ hround
    _ = num / den / 2 ^ spareBits (num / den) * 2 ^ spareBits (num / den) +
          2 ^ spareBits (num / den) := by rw [Nat.add_mul, Nat.one_mul]
    _ ≤ num / den + 2 ^ spareBits (num / den) :=
        Nat.add_le_add_right (Nat.div_mul_le_self _ _) _

/-- Rounding does not go below a power of two. -/
theorem two_pow_le_roundUnits {num den k : Nat} (h : 2 ^ k ≤ num / den) :
    2 ^ k ≤ roundUnits num den := by
  have hpositive : num / den ≠ 0 := by have := Nat.two_pow_pos k; omega
  have hlog : k ≤ (num / den).log2 := (Nat.le_log2 hpositive).mpr h
  obtain ⟨more, hmore⟩ : ∃ more, (num / den).log2 = more + spareBits (num / den) :=
    ⟨(num / den).log2 - spareBits (num / den), by rw [spareBits]; omega⟩
  have hpower : 2 ^ more * 2 ^ spareBits (num / den) ≤ num / den := by
    rw [← Nat.pow_add, ← hmore]
    exact Nat.log2_self_le hpositive
  have hround := le_divideToNearest num (den * 2 ^ spareBits (num / den))
  rw [← Nat.div_div_eq_div_mul] at hround
  calc 2 ^ k ≤ 2 ^ (num / den).log2 := Nat.pow_le_pow_right (by decide) hlog
    _ = 2 ^ more * 2 ^ spareBits (num / den) := by rw [hmore, Nat.pow_add]
    _ ≤ roundUnits num den := Nat.mul_le_mul_right _
        (((Nat.le_div_iff_mul_le (Nat.two_pow_pos _)).mpr hpower).trans hround)

/-- A quotient of units is rounded up to a power of two from halfway on.  Of the 54 places below
it, the lowest one is not significant. -/
theorem roundUnits_lt_two_pow_iff {num den : Nat} (hden : 0 < den) (k : Nat) :
    roundUnits num den < 2 ^ (k + 54) ↔ num < (2 ^ 54 - 1) * 2 ^ k * den := by
  have hpower : 2 ^ (k + 54) = 2 ^ 54 * 2 ^ k := by rw [Nat.pow_add, Nat.mul_comm]
  have hpower' : 2 ^ (k + 53) = 2 ^ 53 * 2 ^ k := by rw [Nat.pow_add, Nat.mul_comm]
  have hpos : 0 < 2 ^ k := Nat.two_pow_pos k
  by_cases hlow : num / den < 2 ^ (k + 53)
  · -- far below: fewer places are dropped
    have hspare : spareBits (num / den) ≤ k := by
      rw [spareBits]
      by_cases hzero : num / den = 0
      · rw [hzero]
        exact Nat.zero_le k
      · have hlog := (Nat.log2_lt hzero).mpr hlow
        omega
    have hround := roundUnits_le num den
    have hscale : 2 ^ spareBits (num / den) ≤ 2 ^ k := Nat.pow_le_pow_right (by decide) hspare
    have hnum : num < 2 ^ (k + 53) * den := (Nat.div_lt_iff_lt_mul hden).mp hlow
    have hmul : 2 ^ (k + 53) * den ≤ (2 ^ 54 - 1) * 2 ^ k * den :=
      Nat.mul_le_mul_right den (by omega)
    exact iff_of_true (by omega) (by omega)
  · by_cases hhigh : 2 ^ (k + 54) ≤ num / den
    · have hround := two_pow_le_roundUnits hhigh
      have hnum : 2 ^ (k + 54) * den ≤ num := (Nat.le_div_iff_mul_le hden).mp hhigh
      have hmul : (2 ^ 54 - 1) * 2 ^ k * den ≤ 2 ^ (k + 54) * den :=
        Nat.mul_le_mul_right den (by omega)
      exact iff_of_false (by omega) (by omega)
    · have hzero : num / den ≠ 0 := by omega
      have hlog : (num / den).log2 = k + 53 := by
        have hfrom := (Nat.le_log2 hzero).mpr (Nat.le_of_not_lt hlow)
        have hto := (Nat.log2_lt hzero).mpr (Nat.lt_of_not_le hhigh)
        omega
      have hround : roundUnits num den =
          divideToNearest num (den * 2 ^ (k + 1)) * 2 ^ (k + 1) := by
        have hspare : spareBits (num / den) = k + 1 := by rw [spareBits, hlog]; omega
        rw [roundUnits, hspare]
        rfl
      have hlimit : 2 ^ (k + 54) = 2 ^ 53 * 2 ^ (k + 1) := by
        rw [← Nat.pow_add, show 53 + (k + 1) = k + 54 by omega]
      have hscale : 0 < 2 ^ (k + 1) := Nat.two_pow_pos (k + 1)
      generalize hq : divideToNearest num (den * 2 ^ (k + 1)) = q at hround
      have hmiddle : 2 ^ 53 ≤ q ↔ (2 * 2 ^ 53 - 1) * (den * 2 ^ (k + 1)) ≤ 2 * num := by
        rw [← hq]
        exact even_le_divideToNearest_iff (Nat.mul_pos hden hscale) (Nat.two_pow_pos 53) (by omega)
      have hdouble : (2 * 2 ^ 53 - 1) * (den * 2 ^ (k + 1)) =
          2 * ((2 ^ 54 - 1) * 2 ^ k * den) := by
        rw [Nat.pow_succ]
        ring
      have hcompare : roundUnits num den < 2 ^ (k + 54) ↔ q < 2 ^ 53 :=
        ⟨fun h => (Nat.mul_lt_mul_right hscale).mp (hround.symm.trans_lt (h.trans_eq hlimit)),
          fun h => hround.trans_lt (((Nat.mul_lt_mul_right hscale).mpr h).trans_eq hlimit.symm)⟩
      rw [hcompare, ← Nat.not_le, hmiddle, hdouble, Nat.not_le]
      exact Nat.mul_lt_mul_left (by decide)

/-- The first number that is no longer rounded to a finite one. -/
def overflowBound : ℚ := 2 ^ 1024 - 2 ^ 970

theorem overflowBound_units : (((2 ^ 54 - 1) * 2 ^ 2044 : Nat) : ℚ) = overflowBound * 2 ^ 1074 := by
  have hlow : (2 : ℚ) ^ 2044 = 2 ^ 970 * 2 ^ 1074 := by rw [← pow_add]
  have hhigh : (2 : ℚ) ^ 1024 = 2 ^ 54 * 2 ^ 970 := by rw [← pow_add]
  have hnumber : ((2 ^ 54 - 1 : Nat) : ℚ) = 2 ^ 54 - 1 := by norm_num
  rw [Nat.cast_mul, hnumber, Nat.cast_pow, Nat.cast_ofNat, hlow, overflowBound, hhigh]
  generalize (2 : ℚ) ^ 970 = a
  generalize (2 : ℚ) ^ 1074 = b
  ring

theorem one_lt_overflowBound : 1 < overflowBound := by
  have hhigh : (2 : ℚ) ^ 1024 = 2 ^ 54 * 2 ^ 970 := by rw [← pow_add]
  have hlow : (1 : ℚ) ≤ 2 ^ 970 := one_le_pow₀ (by norm_num)
  rw [overflowBound, hhigh]
  generalize (2 : ℚ) ^ 970 = a at hlow ⊢
  linarith

theorem overflowBound_le_pow : overflowBound ≤ 10 ^ 400 := by
  calc overflowBound ≤ 2 ^ 1024 := sub_le_self _ (by positivity)
    _ ≤ 2 ^ (3 * 400) := pow_le_pow_right₀ (by norm_num) (by norm_num)
    _ = (2 ^ 3) ^ 400 := pow_mul 2 3 400
    _ ≤ 10 ^ 400 := pow_le_pow_left₀ (by norm_num) (by norm_num) 400

/-- The quotient that stands for a number of units is compared like the number. -/
theorem units_lt_iff {num den : Nat} {x : ℚ} (hden : 0 < den)
    (h : (num : ℚ) = x * 2 ^ 1074 * den) :
    num < (2 ^ 54 - 1) * 2 ^ 2044 * den ↔ x < overflowBound := by
  have hpositive : (0 : ℚ) < 2 ^ 1074 := by positivity
  have hden' : (0 : ℚ) < den := Nat.cast_pos.mpr hden
  rw [← Nat.cast_lt (α := ℚ), Nat.cast_mul, overflowBound_units, h,
    mul_lt_mul_iff_left₀ hden', mul_lt_mul_iff_left₀ hpositive]

/-- What a number of digits and a power of ten are rounded to, as far as the shortcuts for very
great and very small numbers do not apply. -/
def quotientUnits (digits : Nat) (exponent : Int) : Nat :=
  if 0 ≤ exponent then roundUnits (digits * tenTo exponent.toNat * twoTo 1074) 1
  else roundUnits (digits * twoTo 1074) (tenTo (-exponent).toNat)

theorem quotientUnits_lt_iff (digits : Nat) (exponent : Int) :
    quotientUnits digits exponent < unitLimit ↔ (digits : ℚ) * 10 ^ exponent < overflowBound := by
  have hround : ∀ {num den : Nat}, 0 < den →
      (roundUnits num den < unitLimit ↔ num < (2 ^ 54 - 1) * 2 ^ 2044 * den) := by
    intro num den hden
    rw [unitLimit_eq]
    exact roundUnits_lt_two_pow_iff hden 2044
  rw [quotientUnits]
  split
  · next hnonneg =>
      obtain ⟨e, rfl⟩ := Int.eq_ofNat_of_zero_le hnonneg
      rw [hround one_pos]
      refine units_lt_iff one_pos ?_
      simp only [-Nat.reducePow, twoTo_eq, tenTo_eq, Int.toNat_natCast, zpow_natCast,
        Nat.cast_mul, Nat.cast_pow, Nat.cast_ofNat, Nat.cast_one, mul_one]
  · next hnegative =>
      obtain ⟨e, rfl⟩ : ∃ e : Nat, exponent = -e := ⟨(-exponent).toNat, by omega⟩
      rw [hround (tenTo_pos _)]
      refine units_lt_iff (tenTo_pos _) ?_
      have hcancel : ((10 : ℚ) ^ e)⁻¹ * 10 ^ e = 1 := inv_mul_cancel₀ (by positivity)
      simp only [-Nat.reducePow, twoTo_eq, tenTo_eq, neg_neg, Int.toNat_natCast, zpow_neg,
        zpow_natCast, Nat.cast_mul, Nat.cast_pow, Nat.cast_ofNat]
      generalize (2 : ℚ) ^ 1074 = a
      linear_combination (-(digits : ℚ) * a) * hcancel

/-- The place of the decimal point bounds a number on both sides. -/
theorem pow_length_bounds {digits : Nat} (h : digits ≠ 0) (exponent : Int) :
    (10 : ℚ) ^ ((Nat.toDigits 10 digits).length + exponent - 1) ≤ digits * 10 ^ exponent ∧
      (digits : ℚ) * 10 ^ exponent < 10 ^ ((Nat.toDigits 10 digits).length + exponent) := by
  have hpositive : (0 : ℚ) < 10 ^ exponent := by positivity
  obtain ⟨k, hk⟩ : ∃ k, (Nat.toDigits 10 digits).length = k + 1 :=
    Nat.exists_eq_succ_of_ne_zero (Nat.ne_of_gt Nat.length_toDigits_pos)
  have hupper : digits < 10 ^ (k + 1) :=
    (Nat.length_toDigits_le_iff (by decide) k.succ_pos).mp (Nat.le_of_eq hk)
  have hlower : 10 ^ k ≤ digits := by
    rcases Nat.eq_zero_or_pos k with rfl | hpos
    · exact Nat.one_le_iff_ne_zero.mpr h
    · rw [← Nat.not_lt, ← Nat.length_toDigits_le_iff (by decide) hpos]
      omega
  rw [hk]
  constructor
  · have hshift : ((k + 1 : Nat) : Int) + exponent - 1 = k + exponent := by push_cast; ring
    rw [hshift, zpow_add₀ (by norm_num), zpow_natCast]
    exact mul_le_mul_of_nonneg_right (by exact_mod_cast hlower) hpositive.le
  · rw [zpow_add₀ (by norm_num), zpow_natCast]
    exact mul_lt_mul_of_pos_right (by exact_mod_cast hupper) hpositive

/-- A decimal is read as an infinity exactly if it is not below the bound. -/
theorem ofDecimal_cases (negative : Bool) (digits : Nat) (exponent : Int) :
    ((digits : ℚ) * 10 ^ exponent < overflowBound ∧
      ∃ units < unitLimit, ofDecimal negative digits exponent = .finite negative units) ∨
    (overflowBound ≤ (digits : ℚ) * 10 ^ exponent ∧
      ofDecimal negative digits exponent = .infinity negative) := by
  have hzero : 0 < unitLimit := twoTo_pos 2098
  by_cases hdigits : digits = 0
  · left
    have hbound := one_lt_overflowBound
    refine ⟨by rw [hdigits]; simp; linarith, 0, hzero, ?_⟩
    rw [ofDecimal, if_pos (.inl hdigits)]
  obtain ⟨hlower, hupper⟩ := pow_length_bounds hdigits exponent
  by_cases hsmall : (Nat.toDigits 10 digits).length + exponent < -400
  · left
    refine ⟨?_, 0, hzero, by rw [ofDecimal, if_pos (.inr hsmall)]⟩
    calc (digits : ℚ) * 10 ^ exponent < 10 ^ ((Nat.toDigits 10 digits).length + exponent) := hupper
      _ ≤ 1 := zpow_le_one_of_nonpos₀ (by norm_num) (by omega)
      _ < overflowBound := one_lt_overflowBound
  by_cases hgreat : 400 < (Nat.toDigits 10 digits).length + exponent
  · right
    constructor
    · calc overflowBound ≤ (10 : ℚ) ^ (400 : Int) := overflowBound_le_pow
        _ ≤ 10 ^ ((Nat.toDigits 10 digits).length + exponent - 1) :=
          zpow_le_zpow_right₀ (by norm_num) (by omega)
        _ ≤ digits * 10 ^ exponent := hlower
    · rw [ofDecimal, if_neg (not_or.mpr ⟨hdigits, hsmall⟩), if_pos hgreat]
  have hread : ofDecimal negative digits exponent =
      if quotientUnits digits exponent < unitLimit then
        .finite negative (quotientUnits digits exponent)
      else .infinity negative := by
    rw [ofDecimal, if_neg (not_or.mpr ⟨hdigits, hsmall⟩), if_neg hgreat]
    rfl
  have hbound := quotientUnits_lt_iff digits exponent
  by_cases hfinite : quotientUnits digits exponent < unitLimit
  · exact .inl ⟨hbound.mp hfinite, _, hfinite, by rw [hread, if_pos hfinite]⟩
  · exact .inr ⟨le_of_not_gt (hbound.not.mp hfinite), by rw [hread, if_neg hfinite]⟩

end Binary64

end VibeScript
