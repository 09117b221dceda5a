import Mathlib.Analysis.SpecialFunctions.Log.Base
import PackedLedger.Proofs.GridStages

namespace PackedLedger

namespace FixedPoint

/-!
# The range reduction of a logarithm is exact

A logarithm takes the difference of two bit lengths for the exponent of its argument, and
corrects it once, by one, if the mantissa on the grid falls short of one.  That mantissa is
rounded down, but one is a number of whole steps, so the comparison decides as the exact one
would.  After it the exponent is the whole part of the binary logarithm, whatever the scale.
The mantissa is then between one and two, and the argument of the series at most a third.
-/

/-- What a logarithm takes the exponent for at first. -/
def estimatedExponent (value : Rat) : Int :=
  (bitLength value.num.natAbs : Int) - bitLength value.den

namespace Octave.Fits

variable {octave : Octave} {scale : Nat} {value : Rat}

theorem exponent_eq_floor_logb (fits : octave.Fits scale value) :
    octave.exponent = ⌊Real.logb 2 value⌋ := by
  have positive : (0 : Rat) < value := lt_of_lt_of_le (zpow_pos two_pos _) fits.reaches
  apply eq_of_forall_le_iff
  intro bound
  rw [fits.le_exponent_iff, Int.le_floor,
    Real.le_logb_iff_rpow_le one_lt_two (Rat.cast_pos.mpr positive), Real.rpow_intCast,
    ← Rat.cast_le (K := ℝ), Rat.cast_zpow, Rat.cast_ofNat]

/-- The exponent is the estimate, or one less if the value does not reach it. -/
theorem exponent_eq_estimate (fits : octave.Fits scale value) :
    octave.exponent =
      if value < 2 ^ estimatedExponent value then estimatedExponent value - 1
      else estimatedExponent value := by
  have positive : (0 : Rat) < value := lt_of_lt_of_le (zpow_pos two_pos _) fits.reaches
  rcases estimate_spec positive with ⟨above, below⟩
  have least : estimatedExponent value - 1 ≤ octave.exponent := fits.le_exponent_iff.mpr above.le
  have most : ¬ estimatedExponent value + 1 ≤ octave.exponent :=
    fun reaches => absurd (fits.le_exponent_iff.mp reaches) (not_le_of_gt below)
  by_cases short : value < 2 ^ estimatedExponent value
  · have misses : ¬ estimatedExponent value ≤ octave.exponent :=
      fun reaches => absurd (fits.le_exponent_iff.mp reaches) (not_le_of_gt short)
    rw [if_pos short]
    omega
  · have reaches : estimatedExponent value ≤ octave.exponent :=
      fits.le_exponent_iff.mpr (le_of_not_gt short)
    rw [if_neg short]
    omega

end Octave.Fits

/-- What the range reduction of a value leaves on a grid: its octave, found from the
estimate by at most one correction, a mantissa between one and two, and the argument of the
series that belongs to it. -/
structure Octave.Reduces (octave : Octave) (scale : Nat) (value : Rat) : Prop
    extends octave.Fits scale value where
  exponent_eq_floor : octave.exponent = ⌊Real.logb 2 value⌋
  corrected : octave.exponent =
    if value < 2 ^ estimatedExponent value then estimatedExponent value - 1
    else estimatedExponent value
  scale_le : scale ≤ octave.mantissa
  lt_two_mul_scale : octave.mantissa < 2 * scale
  argument_nonneg : 0 ≤ octave.argument scale
  argument_le_third : octave.argument scale ≤ (scale / 3 : Nat)

/-- On every scale the octave that a logarithm finds for a positive rational is the one it
lies in, and the logarithm attempts the series at the argument of that octave and no other. -/
theorem range_reduction_exact {scale : Nat} (someScale : 1 ≤ scale) {value : Rat}
    (positive : 0 < value) :
    (Octave.of scale value).Reduces scale value ∧
      ∀ grid : Grid, grid.scale = scale ->
        grid.ln value =
          (inverseTangent scale ((Octave.of scale value).argument scale) >>= fun half =>
            pure (grid.ln2 * (Octave.of scale value).exponent + half * 2)) := by
  have fits := Octave.of_fits someScale positive
  rcases fits.argument_spec someScale with ⟨nonneg, third⟩
  have wholeThird : (Octave.of scale value).argument scale ≤ (scale / 3 : Nat) := by omega
  refine ⟨⟨fits, fits.exponent_eq_floor_logb, fits.exponent_eq_estimate, fits.scale_le,
    fits.lt_two_mul_scale someScale, nonneg, wholeThird⟩, ?_⟩
  intro grid same
  subst same
  exact Grid.ln_eq_bind positive

/-- A value just below one has the bit lengths of one, and on a scale of ten its argument is
the whole third. -/
theorem range_reduction_exact_below_one :
    ⌊Real.logb 2 ((99999999999999999999 / 100000000000000000000 : Rat) : ℝ)⌋ = -1 ∧
      estimatedExponent (99999999999999999999 / 100000000000000000000) = 0 ∧
      (Octave.of 10 (99999999999999999999 / 100000000000000000000)).argument 10 = 3 := by
  have octave : Octave.of 10 (99999999999999999999 / 100000000000000000000) = ⟨-1, 19⟩ := by
    decide +kernel
  have positive : (0 : Rat) < 99999999999999999999 / 100000000000000000000 := by norm_num
  rcases range_reduction_exact (by decide : 1 ≤ 10) positive with ⟨reduces, _⟩
  have floor := reduces.exponent_eq_floor
  rw [octave] at floor ⊢
  exact ⟨floor.symm, by decide +kernel, by decide⟩

end FixedPoint

end PackedLedger
