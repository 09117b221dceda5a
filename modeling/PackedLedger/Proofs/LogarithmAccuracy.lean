import PackedLedger.Proofs.GridStages
import PackedLedger.Proofs.TangentAccuracy

namespace PackedLedger

namespace FixedPoint

/-!
# The accuracy of a logarithm

The logarithm of a ratio between one and two is twice an inverse hyperbolic
tangent of at most a third.  Rounding its argument down to the grid loses at most
one step, and the tangent turns that into one and a half.  So both parts of a
logarithm, the octaves and the mantissa, are short of the exact value by one and
the same number of steps, and the whole logarithm by that number for each octave
and once more.
-/

/-- The steps by which twice a rounded tangent may fall short after so many
rounds. -/
def shortfall (rounds : Nat) : Nat := 10 * rounds + 14

/-- Up to a third the inverse hyperbolic tangent is no steeper than three
halves. -/
theorem artanh_sub_artanh_le {low high : ℝ} (nonneg : 0 ≤ low) (ordered : low ≤ high)
    (third : 3 * high ≤ 1) : Real.artanh high - Real.artanh low ≤ 3 / 2 * (high - low) := by
  have upper : 0 < 1 - high := by linarith
  have lower : 0 < 1 - low := by linarith
  have lowRatio : 0 < (1 + low) / (1 - low) := div_pos (by linarith) lower
  have highRatio : 0 < (1 + high) / (1 - high) := div_pos (by linarith) upper
  have quotient : (1 + high) / (1 - high) / ((1 + low) / (1 - low)) - 1 ≤ 3 * (high - low) := by
    have exact : (1 + high) / (1 - high) / ((1 + low) / (1 - low)) - 1 =
        2 * (high - low) / ((1 - high) * (1 + low)) := by
      field_simp
      ring
    have least : 2 / 3 ≤ (1 - high) * (1 + low) := by nlinarith
    rw [exact, div_le_iff₀ (by linarith)]
    nlinarith
  have logarithm := Real.log_le_sub_one_of_pos (div_pos highRatio lowRatio)
  rw [Real.log_div highRatio.ne' lowRatio.ne'] at logarithm
  rw [artanh_eq_half_log (nonneg.trans ordered) third, artanh_eq_half_log nonneg (by linarith)]
  linarith

noncomputable def tangentOf (ratio : ℝ) : ℝ := (ratio - 1) / (ratio + 1)

section Ratio

variable {ratio : ℝ} (least : 1 ≤ ratio)
include least

theorem tangentOf_nonneg : 0 ≤ tangentOf ratio := div_nonneg (by linarith) (by linarith)

theorem tangentOf_le_third (most : ratio ≤ 2) : 3 * tangentOf ratio ≤ 1 := by
  rw [tangentOf, ← mul_div_assoc, div_le_one (by linarith)]
  linarith

theorem log_eq_artanh (most : ratio ≤ 2) : Real.log ratio = 2 * Real.artanh (tangentOf ratio) := by
  have back : (1 + tangentOf ratio) / (1 - tangentOf ratio) = ratio := by
    have someRatio : ratio + 1 ≠ 0 := by linarith
    have double : 1 - tangentOf ratio = 2 / (ratio + 1) := by
      rw [tangentOf]
      field_simp
      ring
    rw [double, tangentOf]
    field_simp
    ring
  rw [artanh_eq_half_log (tangentOf_nonneg least) (tangentOf_le_third least most), back]
  ring

/-- Twice the tangent of a rounded argument is the logarithm of the ratio, less
a shortfall. -/
theorem double_inverseTangent_accuracy {scale rounds : Nat} (positive : 0 < scale)
    (ends : scale < 9 ^ rounds) (most : ratio ≤ 2) {argument half : Int} (nonneg : 0 ≤ argument)
    (below : (argument : ℝ) ≤ scale * tangentOf ratio)
    (above : scale * tangentOf ratio ≤ argument + 1)
    (found : (inverseTangent scale argument : Verdict Int) = .ok half) :
    ((half * 2 : Int) : ℝ) ≤ scale * Real.log ratio ∧
      scale * Real.log ratio ≤ (half * 2 : Int) + (10 * rounds + 13) := by
  have steps : (0 : ℝ) < scale := Nat.cast_pos.mpr positive
  have third := tangentOf_le_third least most
  have small : 3 * argument ≤ scale := by
    have part : (3 : ℝ) * argument ≤ scale := by
      have product := mul_le_mul_of_nonneg_left third steps.le
      linarith
    exact_mod_cast part
  have ordered : (argument : ℝ) / scale ≤ tangentOf ratio := by
    rw [div_le_iff₀ steps, mul_comm]
    exact below
  have someArgument : (0 : ℝ) ≤ argument / scale := div_nonneg (Int.cast_nonneg nonneg) steps.le
  have rounded : scale * Real.artanh (tangentOf ratio) - scale * Real.artanh (argument / scale) ≤
      3 / 2 := by
    have slope := mul_le_mul_of_nonneg_left (artanh_sub_artanh_le someArgument ordered third)
      steps.le
    have exact : (scale : ℝ) * (argument / scale) = argument := mul_div_cancel₀ _ steps.ne'
    linarith
  have monotone : scale * Real.artanh (argument / scale) ≤ scale * Real.artanh (tangentOf ratio) :=
    mul_le_mul_of_nonneg_left
      (Real.artanh_le_artanh (by linarith) (by linarith) ordered) steps.le
  rcases inverseTangent_accuracy positive ends nonneg small found with ⟨lower, upper⟩
  rw [log_eq_artanh least most]
  push_cast
  exact ⟨by linarith, by linarith⟩

end Ratio

/-- Rounding at least one down to a step takes at most a step off its logarithm,
since what it took is at most one part in the mantissa. -/
theorem mul_log_le_of_floor {scale mantissa : Nat} (positive : 0 < scale)
    (least : scale ≤ mantissa) {part : ℝ} (somePart : 0 < part)
    (above : scale * part ≤ mantissa + 1) :
    scale * Real.log part ≤ scale * Real.log (mantissa / scale) + 1 := by
  have steps : (0 : ℝ) < scale := Nat.cast_pos.mpr positive
  have leastReal : (scale : ℝ) ≤ mantissa := Nat.cast_le.mpr least
  have someMantissa : (0 : ℝ) < mantissa := steps.trans_le leastReal
  have someRatio : (0 : ℝ) < mantissa / scale := div_pos someMantissa steps
  have logarithm := Real.log_le_sub_one_of_pos (div_pos somePart someRatio)
  rw [Real.log_div somePart.ne' someRatio.ne'] at logarithm
  have gap : part / (mantissa / scale) - 1 ≤ 1 / scale := by
    rw [div_div_eq_mul_div, div_sub_one someMantissa.ne', div_le_div_iff₀ someMantissa steps]
    nlinarith
  have product := mul_le_mul_of_nonneg_left (logarithm.trans gap) steps.le
  rw [mul_one_div_cancel steps.ne', mul_sub] at product
  linarith

namespace Grid

variable {grid : Grid} {rounds : Nat}

/-- The logarithm of two on the grid, less than a shortfall below the exact
one. -/
theorem HasThird.ln2_accuracy (third : grid.HasThird) (ends : grid.scale < 9 ^ rounds) :
    (grid.ln2 : ℝ) ≤ grid.scale * Real.log 2 ∧
      grid.scale * Real.log 2 ≤ grid.ln2 + shortfall rounds := by
  rcases third with ⟨half, found, twice⟩
  have exact : tangentOf 2 = 1 / 3 := by
    rw [tangentOf]
    norm_num
  have below : (((grid.scale / 3 : Nat) : Int) : ℝ) ≤ grid.scale * tangentOf 2 := by
    have whole : grid.scale / 3 * 3 ≤ grid.scale := Nat.div_mul_le_self _ _
    have cast : ((grid.scale / 3 : Nat) : ℝ) * 3 ≤ grid.scale := by exact_mod_cast whole
    rw [Int.cast_natCast, exact]
    linarith
  have above : grid.scale * tangentOf 2 ≤ (((grid.scale / 3 : Nat) : Int) : ℝ) + 1 := by
    have whole : grid.scale ≤ (grid.scale / 3 + 1) * 3 := by omega
    have cast : (grid.scale : ℝ) ≤ (((grid.scale / 3 : Nat) : ℝ) + 1) * 3 := by exact_mod_cast whole
    rw [Int.cast_natCast, exact]
    linarith
  rcases double_inverseTangent_accuracy one_le_two grid.scale_pos ends le_rfl
    (Int.natCast_nonneg _) below above found with ⟨lower, upper⟩
  rw [twice, shortfall]
  push_cast at lower upper ⊢
  exact ⟨lower, by linarith⟩

end Grid

namespace Octave.Fits

variable {octave : Octave} {scale rounds : Nat} {value : Rat}

/-- The mantissa is the part of the value in its octave, less at most a step. -/
theorem mantissa_floor (fits : octave.Fits scale value) :
    (octave.mantissa : ℝ) ≤ scale * ((value : ℝ) / 2 ^ octave.exponent) ∧
      scale * ((value : ℝ) / 2 ^ octave.exponent) ≤ octave.mantissa + 1 := by
  have part : (0 : Rat) ≤ value * scale / 2 ^ octave.exponent :=
    div_nonneg (mul_nonneg ((zpow_pos two_pos _).le.trans fits.reaches) (Nat.cast_nonneg scale))
      (zpow_pos two_pos _).le
  have below : (octave.mantissa : Rat) ≤ scale * (value / 2 ^ octave.exponent) := by
    rw [mul_div_left_comm, ← mul_div_assoc, fits.mantissa]
    exact Nat.floor_le part
  have above : scale * (value / 2 ^ octave.exponent) ≤ (octave.mantissa : Rat) + 1 := by
    rw [mul_div_left_comm, ← mul_div_assoc, fits.mantissa]
    exact (Nat.lt_floor_add_one _).le
  have belowReal := (Rat.cast_le (K := ℝ)).mpr below
  have aboveReal := (Rat.cast_le (K := ℝ)).mpr above
  push_cast at belowReal aboveReal
  exact ⟨belowReal, aboveReal⟩

/-- The argument of an octave is that of its mantissa, rounded down. -/
theorem argument_floor (fits : octave.Fits scale value) (positive : 0 < scale) :
    (octave.argument scale : ℝ) ≤ scale * tangentOf (octave.mantissa / scale) ∧
      scale * tangentOf (octave.mantissa / scale) ≤ octave.argument scale + 1 := by
  have steps : (0 : ℝ) < scale := Nat.cast_pos.mpr positive
  have least := fits.scale_le
  have numerator : 0 ≤ ((octave.mantissa : Int) - scale) * scale :=
    Int.mul_nonneg (by omega) (Int.natCast_nonneg _)
  have denominator : 0 < (octave.mantissa : Int) + scale := by omega
  have someSum : (0 : ℝ) < octave.mantissa + scale :=
    add_pos_of_nonneg_of_pos (Nat.cast_nonneg _) steps
  have exact : (((octave.mantissa : Int) - scale) * scale : Int) /
      ((octave.mantissa : Int) + scale : Int) =
        scale * tangentOf ((octave.mantissa : ℝ) / scale) := by
    have ratioSum : (octave.mantissa : ℝ) / scale + 1 ≠ 0 :=
      (add_pos_of_nonneg_of_pos (div_nonneg (Nat.cast_nonneg _) steps.le) one_pos).ne'
    rw [tangentOf]
    push_cast
    field_simp
  rcases tdiv_floor numerator denominator with ⟨below, above⟩
  rw [exact] at below above
  exact ⟨below, above.le⟩

/-- Twice the tangent of the argument is the logarithm of the part of the value
in its octave, less a shortfall. -/
theorem mantissa_accuracy (fits : octave.Fits scale value) (positive : 0 < scale)
    (ends : scale < 9 ^ rounds) {half : Int}
    (found : (inverseTangent scale (octave.argument scale) : Verdict Int) = .ok half) :
    ((half * 2 : Int) : ℝ) ≤ scale * Real.log ((value : ℝ) / 2 ^ octave.exponent) ∧
      scale * Real.log ((value : ℝ) / 2 ^ octave.exponent) ≤
        (half * 2 : Int) + shortfall rounds := by
  have steps : (0 : ℝ) < scale := Nat.cast_pos.mpr positive
  have least : (scale : ℝ) ≤ octave.mantissa := Nat.cast_le.mpr fits.scale_le
  have most : (octave.mantissa : ℝ) < 2 * scale := by
    exact_mod_cast fits.lt_two_mul_scale positive
  have someMantissa : (0 : ℝ) < octave.mantissa := steps.trans_le least
  rcases fits.mantissa_floor with ⟨below, above⟩
  generalize (value : ℝ) / 2 ^ octave.exponent = part at below above ⊢
  have somePart : 0 < part := by
    apply pos_of_mul_pos_right _ steps.le
    exact someMantissa.trans_le below
  have ordered : (octave.mantissa : ℝ) / scale ≤ part := by
    rw [div_le_iff₀ steps, mul_comm]
    exact below
  have someRatio : (0 : ℝ) < octave.mantissa / scale := div_pos someMantissa steps
  have leastRatio : (1 : ℝ) ≤ octave.mantissa / scale := by
    rw [le_div_iff₀ steps, one_mul]
    exact least
  have mostRatio : (octave.mantissa : ℝ) / scale ≤ 2 := by
    rw [div_le_iff₀ steps]
    exact most.le
  have monotone : scale * Real.log (octave.mantissa / scale) ≤ scale * Real.log part :=
    mul_le_mul_of_nonneg_left (Real.log_le_log someRatio ordered) steps.le
  have rounded := mul_log_le_of_floor positive fits.scale_le somePart above
  rcases fits.argument_floor positive with ⟨lower, upper⟩
  rcases double_inverseTangent_accuracy leastRatio positive ends mostRatio
    (fits.argument_spec positive).1 lower upper found with ⟨halfLe, leHalf⟩
  rw [shortfall]
  push_cast at halfLe leHalf ⊢
  exact ⟨by linarith, by linarith⟩

end Octave.Fits

namespace Grid

variable {grid : Grid} {rounds : Nat}

/-- The logarithm of at least one on the grid is short of the exact one by at
most a shortfall for each octave and one more. -/
theorem ln_accuracy (third : grid.HasThird) (ends : grid.scale < 9 ^ rounds) {value : Rat}
    (least : 1 ≤ value) {steps : Int} (found : grid.ln value = .ok steps) :
    0 ≤ (Octave.of grid.scale value).exponent ∧
      (steps : ℝ) ≤ grid.scale * Real.log value ∧
      grid.scale * Real.log value ≤
        steps + ((Octave.of grid.scale value).exponent + 1) * shortfall rounds := by
  have positive : 0 < value := zero_lt_one.trans_le least
  have fits := Octave.of_fits grid.scale_pos positive
  rcases (ln_eq_ok positive).mp found with ⟨half, foundHalf, rfl⟩
  generalize Octave.of grid.scale value = octave at fits foundHalf ⊢
  have exponent : 0 ≤ octave.exponent := by
    rw [fits.le_exponent_iff, zpow_zero]
    exact least
  have octaves : (0 : ℝ) ≤ octave.exponent := Int.cast_nonneg exponent
  have power : (2 : ℝ) ^ octave.exponent ≠ 0 := (zpow_pos two_pos _).ne'
  have someValue : (value : ℝ) ≠ 0 := (Rat.cast_pos.mpr positive).ne'
  have split : Real.log value = octave.exponent * Real.log 2 +
      Real.log ((value : ℝ) / 2 ^ octave.exponent) := by
    rw [Real.log_div someValue power, Real.log_zpow]
    ring
  rcases third.ln2_accuracy ends with ⟨ln2Le, leLn2⟩
  rcases fits.mantissa_accuracy grid.scale_pos ends foundHalf with ⟨halfLe, leHalf⟩
  have lower := mul_le_mul_of_nonneg_left ln2Le octaves
  have upper := mul_le_mul_of_nonneg_left leLn2 octaves
  rw [split]
  push_cast at halfLe leHalf ⊢
  exact ⟨exponent, by linarith, by linarith⟩

end Grid

end FixedPoint

end PackedLedger
