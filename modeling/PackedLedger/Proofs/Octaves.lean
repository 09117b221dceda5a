import Mathlib.Algebra.Order.Field.Power
import Mathlib.Algebra.Order.Floor.Semifield
import Mathlib.Data.Rat.Floor
import Mathlib.Tactic.Linarith
import PackedLedger.Number.FixedPoint
import PackedLedger.Proofs.Magnitude

namespace PackedLedger

namespace FixedPoint

/-!
# The octave of a positive rational

A logarithm begins by writing its argument as a power of two times a mantissa
between one and two.  The difference of the bit lengths is within one of the
exponent, and one comparison on the grid settles which.  So `Octave.of` finds
the octave that the value lies in, and its mantissa is the value in that octave,
rounded down to the grid.
-/

theorem natAbs_num_div_den {value : Rat} (positive : 0 < value) :
    (value.num.natAbs : Rat) / value.den = value := by
  have numerator : (value.num.natAbs : Rat) = value.num := by
    rw [← Int.cast_natCast, Int.natAbs_of_nonneg (le_of_lt (Rat.num_pos.mpr positive))]
  rw [numerator, Rat.num_div_den]

/-- The steps of a positive rational in an octave are the exact quotient,
rounded down. -/
theorem shiftedSteps_eq_floor (scale : Nat) {value : Rat} (positive : 0 < value) (exponent : Int) :
    shiftedSteps scale value exponent = ⌊value * scale / (2 : Rat) ^ exponent⌋₊ := by
  have fraction := natAbs_num_div_den positive
  cases exponent with
  | ofNat shift =>
      rw [shiftedSteps, ← Nat.floor_div_eq_div (K := Rat)]
      congr 1
      rw [Int.ofNat_eq_natCast, zpow_natCast, powerOfTwo_eq]
      push_cast
      rw [← div_div, mul_div_right_comm, fraction]
  | negSucc shift =>
      rw [shiftedSteps, ← Nat.floor_div_eq_div (K := Rat)]
      congr 1
      rw [zpow_negSucc, powerOfTwo_eq, div_inv_eq_mul]
      push_cast
      rw [mul_assoc, mul_div_right_comm, fraction, mul_assoc]

theorem two_zpow_le_of_bitLength {number : Nat} (positive : 0 < number) :
    (2 : Rat) ^ ((bitLength number : Int) - 1) ≤ number := by
  have reaches := powerOfTwo_le_of_bitLength positive
  have length := bitLength_pos positive
  have same : (bitLength number : Int) - 1 = (bitLength number - 1 : Nat) := by omega
  rw [same, zpow_natCast]
  exact_mod_cast reaches

theorem lt_two_zpow_bitLength (number : Nat) :
    (number : Rat) < (2 : Rat) ^ (bitLength number : Int) := by
  have below := lt_powerOfTwo_bitLength number
  rw [zpow_natCast]
  exact_mod_cast below

/-- The difference of the bit lengths misses the exponent of the octave by at
most one, and never from below. -/
theorem estimate_spec {value : Rat} (positive : 0 < value) :
    (2 : Rat) ^ ((bitLength value.num.natAbs : Int) - bitLength value.den - 1) < value ∧
      value < (2 : Rat) ^ ((bitLength value.num.natAbs : Int) - bitLength value.den + 1) := by
  have fraction := natAbs_num_div_den positive
  have someNum : 0 < value.num.natAbs :=
    Int.natAbs_pos.mpr (ne_of_gt (Rat.num_pos.mpr positive))
  have someDen : (0 : Rat) < value.den := Nat.cast_pos.mpr value.den_pos
  generalize value.num.natAbs = numerator at fraction someNum ⊢
  constructor
  · apply lt_of_lt_of_eq _ fraction
    rw [lt_div_iff₀ someDen]
    calc
      (2 : Rat) ^ ((bitLength numerator : Int) - bitLength value.den - 1) * value.den
          < 2 ^ ((bitLength numerator : Int) - bitLength value.den - 1) *
            2 ^ (bitLength value.den : Int) :=
        mul_lt_mul_of_pos_left (lt_two_zpow_bitLength _) (zpow_pos two_pos _)
      _ = 2 ^ ((bitLength numerator : Int) - 1) := by
        rw [← zpow_add₀ two_ne_zero]
        congr 1
        omega
      _ ≤ numerator := two_zpow_le_of_bitLength someNum
  · apply lt_of_eq_of_lt fraction.symm
    rw [div_lt_iff₀ someDen]
    calc
      (numerator : Rat) < 2 ^ (bitLength numerator : Int) := lt_two_zpow_bitLength _
      _ = 2 ^ ((bitLength numerator : Int) - bitLength value.den + 1) *
            2 ^ ((bitLength value.den : Int) - 1) := by
        rw [← zpow_add₀ two_ne_zero]
        congr 1
        omega
      _ ≤ 2 ^ ((bitLength numerator : Int) - bitLength value.den + 1) * value.den :=
        mul_le_mul_of_nonneg_left (two_zpow_le_of_bitLength value.den_pos)
          (le_of_lt (zpow_pos two_pos _))

/-- An octave fits a value on a grid: the value lies in it, and the mantissa is
the part of the value in it, rounded down to steps. -/
structure Octave.Fits (octave : Octave) (scale : Nat) (value : Rat) : Prop where
  reaches : (2 : Rat) ^ octave.exponent ≤ value
  below : value < (2 : Rat) ^ (octave.exponent + 1)
  mantissa : octave.mantissa = ⌊value * scale / (2 : Rat) ^ octave.exponent⌋₊

theorem Octave.of_fits {scale : Nat} (someScale : 0 < scale) {value : Rat} (positive : 0 < value) :
    (Octave.of scale value).Fits scale value := by
  rcases estimate_spec positive with ⟨above, below⟩
  simp only [Octave.of]
  generalize (bitLength value.num.natAbs : Int) - bitLength value.den = estimate at above below
  have power : (0 : Rat) < 2 ^ estimate := zpow_pos two_pos _
  have steps : (0 : Rat) < scale := Nat.cast_pos.mpr someScale
  have reachesIff : shiftedSteps scale value estimate < scale ↔ value < 2 ^ estimate := by
    rw [shiftedSteps_eq_floor scale positive, Nat.floor_lt' (Nat.ne_of_gt someScale),
      div_lt_iff₀ power, mul_comm (scale : Rat), mul_lt_mul_iff_left₀ steps]
  by_cases short : shiftedSteps scale value estimate < scale
  · rw [if_pos short]
    refine ⟨le_of_lt above, ?_, shiftedSteps_eq_floor scale positive _⟩
    rw [Int.sub_add_cancel]
    exact reachesIff.mp short
  · rw [if_neg short]
    exact ⟨le_of_not_gt fun less => short (reachesIff.mpr less), below,
      shiftedSteps_eq_floor scale positive _⟩

namespace Octave.Fits

variable {octave : Octave} {scale : Nat} {value : Rat}

theorem scale_le (fits : octave.Fits scale value) : scale ≤ octave.mantissa := by
  have power : (0 : Rat) < 2 ^ octave.exponent := zpow_pos two_pos _
  rw [fits.mantissa]
  apply Nat.le_floor
  rw [le_div_iff₀ power, mul_comm]
  exact mul_le_mul_of_nonneg_right fits.reaches (Nat.cast_nonneg scale)

theorem lt_two_mul_scale (fits : octave.Fits scale value) (someScale : 0 < scale) :
    octave.mantissa < 2 * scale := by
  have power : (0 : Rat) < 2 ^ octave.exponent := zpow_pos two_pos _
  have steps : (0 : Rat) < scale := Nat.cast_pos.mpr someScale
  rw [fits.mantissa, Nat.floor_lt' (by omega), div_lt_iff₀ power]
  calc
    value * scale < 2 ^ (octave.exponent + 1) * scale := mul_lt_mul_of_pos_right fits.below steps
    _ = ((2 * scale : Nat) : Rat) * 2 ^ octave.exponent := by
      rw [zpow_add_one₀ two_ne_zero]
      push_cast
      ring

theorem le_exponent_iff (fits : octave.Fits scale value) {bound : Int} :
    bound ≤ octave.exponent ↔ (2 : Rat) ^ bound ≤ value := by
  constructor
  · intro ordered
    exact le_trans (zpow_le_zpow_right₀ one_le_two ordered) fits.reaches
  · intro reaches
    have less : (2 : Rat) ^ bound < 2 ^ (octave.exponent + 1) := lt_of_le_of_lt reaches fits.below
    exact Int.lt_add_one_iff.mp ((zpow_lt_zpow_iff_right₀ one_lt_two).mp less)

end Octave.Fits

end FixedPoint

end PackedLedger
