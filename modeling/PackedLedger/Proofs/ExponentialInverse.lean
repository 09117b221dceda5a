import PackedLedger.Proofs.ExponentialAccuracy
import PackedLedger.Proofs.Logarithm

namespace PackedLedger

namespace FixedPoint

/-!
# The exponential undoes the logarithm

A logarithm counts octaves by a logarithm of two that is rounded down, and for a
very large or a very small argument what was lost adds up to more than any guard
digits hold.  The exponential takes all of it off again, since it reduces by the
same rounded number.  It comes to the octave that the logarithm began with, or to
the next one when the mantissa lies above the middle of its octave.  Either way
the rest that it sums is the logarithm of the value in that octave, up to one
shortfall.  So the error is that of one mantissa, in steps of its octave, and one
step more where the sum is moved down and rounded.
-/

/-- Near a half and below, the exponential is no steeper than four. -/
theorem abs_exp_sub_exp_le {x y : ℝ} (small : |x| ≤ 1 / 2) (near : |y - x| ≤ 1) :
    |Real.exp y - Real.exp x| ≤ 4 * |y - x| := by
  have most : Real.exp x ≤ 2 := by
    have fromOne := Real.abs_exp_sub_one_le (small.trans (by norm_num))
    have upper := (abs_le.mp fromOne).2
    linarith
  have split : Real.exp y - Real.exp x = Real.exp x * (Real.exp (y - x) - 1) := by
    rw [mul_sub, mul_one, ← Real.exp_add, add_sub_cancel]
  rw [split, abs_mul, Real.abs_exp]
  calc
    Real.exp x * |Real.exp (y - x) - 1| ≤ 2 * (2 * |y - x|) :=
      mul_le_mul most (Real.abs_exp_sub_one_le near) (abs_nonneg _) (by norm_num)
    _ = 4 * |y - x| := by ring

namespace Grid

variable {grid : Grid} {rounds : Nat}

/-- Moving a sum by octaves rounds it down by less than a step. -/
theorem abs_moved_sub_le (sum multiple : Int) :
    |(moved sum multiple : ℝ) - sum * 2 ^ multiple| ≤ 1 := by
  cases multiple with
  | ofNat shift =>
      rw [Int.ofNat_eq_natCast, moved_natCast, zpow_natCast]
      push_cast
      rw [sub_self, abs_zero]
      exact zero_le_one
  | negSucc shift =>
      have power : (0 : Int) < ((2 ^ (shift + 1) : Nat) : Int) :=
        Int.natCast_pos.mpr (Nat.pow_pos two_pos)
      have powerReal : (0 : ℝ) < 2 ^ (shift + 1) := pow_pos two_pos _
      have below := Int.ediv_mul_le sum (ne_of_gt power)
      have above := Int.lt_ediv_add_one_mul_self sum power
      rw [moved, Int.shiftRight_eq_div_pow, zpow_negSucc, ← div_eq_mul_inv]
      generalize sum / ((2 ^ (shift + 1) : Nat) : Int) = quotient at below above ⊢
      have belowReal : (quotient : ℝ) * 2 ^ (shift + 1) ≤ sum := by exact_mod_cast below
      have aboveReal : (sum : ℝ) < (quotient + 1) * 2 ^ (shift + 1) := by exact_mod_cast above
      rw [← le_div_iff₀ powerReal] at belowReal
      rw [← div_lt_iff₀ powerReal] at aboveReal
      rw [abs_le]
      exact ⟨by linarith, by linarith⟩

section Reduction

variable {value : Rat} {steps multiple rest : Int}
  (third : grid.HasThird) (someLn2 : 0 < grid.ln2) (positive : 0 < value)
  (found : grid.ln value = .ok steps) (exact : steps = multiple * grid.ln2 + rest)
  (above : -grid.ln2 ≤ 2 * rest) (below : 2 * rest < grid.ln2)

include third someLn2 positive found exact above below

/-- The reduction of a logarithm finds the octave of the value or the next one. -/
theorem multiple_of_ln :
    multiple = (Octave.of grid.scale value).exponent ∨
      multiple = (Octave.of grid.scale value).exponent + 1 := by
  rcases ln_octave_bounds third positive found with ⟨least, most⟩
  generalize (Octave.of grid.scale value).exponent = exponent at least most ⊢
  rw [exact, Int.mul_comm grid.ln2] at least most
  have notBelow : exponent ≤ multiple := by
    by_contra less
    have product : (multiple + 1) * grid.ln2 ≤ exponent * grid.ln2 :=
      Int.mul_le_mul_of_nonneg_right (by omega) someLn2.le
    linarith
  have notAbove : multiple ≤ exponent + 1 := by
    by_contra more
    have product : (exponent + 2) * grid.ln2 ≤ multiple * grid.ln2 :=
      Int.mul_le_mul_of_nonneg_right (by omega) someLn2.le
    linarith
  omega

/-- The rest that the reduction of a logarithm leaves is the logarithm of the value
in the octave found, up to a shortfall. -/
theorem rest_accuracy (ends : grid.scale < 9 ^ rounds) :
    |(rest : ℝ) - grid.scale * Real.log ((value : ℝ) / 2 ^ multiple)| ≤ shortfall rounds := by
  have octave := multiple_of_ln third someLn2 positive found exact above below
  have fits := Octave.of_fits grid.scale_pos positive
  rcases (ln_eq_ok positive).mp found with ⟨half, foundHalf, split⟩
  rcases fits.mantissa_accuracy grid.scale_pos ends foundHalf with ⟨halfLe, leHalf⟩
  rcases third.ln2_accuracy ends with ⟨ln2Le, leLn2⟩
  generalize (Octave.of grid.scale value).exponent = exponent at octave split halfLe leHalf
  rcases octave with rfl | rfl
  · have same : rest = half * 2 := by linarith
    rw [same, abs_le]
    exact ⟨by linarith, by linarith⟩
  · have same : rest = half * 2 - grid.ln2 := by linarith
    have somePart : (value : ℝ) / 2 ^ exponent ≠ 0 :=
      (div_pos (Rat.cast_pos.mpr positive) (zpow_pos two_pos _)).ne'
    have octaveMore : Real.log ((value : ℝ) / 2 ^ (exponent + 1)) =
        Real.log ((value : ℝ) / 2 ^ exponent) - Real.log 2 := by
      rw [zpow_add_one₀ two_ne_zero, ← div_div, Real.log_div somePart two_ne_zero]
    rw [same, octaveMore, Int.cast_sub, abs_le]
    exact ⟨by linarith, by linarith⟩

/-- The sum of the series at that rest is the value in the octave found, within the
errors of both. -/
theorem sum_accuracy {Reason : Type} (ends : grid.scale < 9 ^ rounds)
    (wide : shortfall rounds ≤ grid.scale) (small : 2 * rest.natAbs ≤ grid.scale) {sum : Int}
    (foundSum : (exponentialTail grid.scale rest grid.scale grid.scale 1 : Attempt Reason Int) =
      .ok sum) :
    |(sum : ℝ) - grid.scale * ((value : ℝ) / 2 ^ multiple)| ≤ 48 * rounds + 60 := by
  have scalePos : (0 : ℝ) < grid.scale := Nat.cast_pos.mpr grid.scale_pos
  have bits : grid.scale < 2 ^ (4 * rounds) := by
    rw [Nat.pow_mul]
    exact Nat.lt_of_lt_of_le ends (Nat.pow_le_pow_left (by decide) rounds)
  have series := exponential_accuracy grid.scale_pos small bits foundSum
  have argument := rest_accuracy third someLn2 positive found exact above below ends
  have half := abs_exponent_le grid.scale_pos small
  have somePart : 0 < (value : ℝ) / 2 ^ multiple :=
    div_pos (Rat.cast_pos.mpr positive) (zpow_pos two_pos _)
  have same : grid.scale * ((rest : ℝ) / grid.scale) = rest := mul_div_cancel₀ _ scalePos.ne'
  generalize (value : ℝ) / 2 ^ multiple = part at argument somePart ⊢
  have scaled : grid.scale * |Real.log part - rest / grid.scale| ≤ shortfall rounds := by
    rw [← abs_of_pos scalePos, ← abs_mul, abs_of_pos scalePos, mul_sub, same, abs_sub_comm]
    exact argument
  have near : |Real.log part - rest / grid.scale| ≤ 1 := by
    have room : (shortfall rounds : ℝ) ≤ grid.scale := Nat.cast_le.mpr wide
    apply le_of_mul_le_mul_left _ scalePos
    linarith
  have slope := mul_le_mul_of_nonneg_left (abs_exp_sub_exp_le half near) scalePos.le
  rw [Real.exp_log somePart] at slope
  have exponential : |grid.scale * part - grid.scale * Real.exp (rest / grid.scale)| ≤
      4 * shortfall rounds := by
    rw [← mul_sub, abs_mul, abs_of_pos scalePos]
    linarith
  have triangle := abs_sub_le (sum : ℝ) (grid.scale * Real.exp (rest / grid.scale))
    (grid.scale * part)
  rw [abs_sub_comm (grid.scale * Real.exp _)] at triangle
  unfold shortfall at exponential
  push_cast at series exponential
  linarith

end Reduction

/-- The exponential of a logarithm is its argument, within so many steps of the
argument or of one, whichever is larger. -/
theorem exp_ln_accuracy (third : grid.HasThird) (ends : grid.scale < 9 ^ rounds)
    (wide : shortfall rounds ≤ grid.scale) {value : Rat} (positive : 0 < value)
    {steps factor : Int} (found : grid.ln value = .ok steps)
    (foundFactor : (grid.exp steps : Verdict Int) = .ok factor) :
    |(factor : ℝ) - grid.scale * value| ≤ (96 * rounds + 121) * max 1 (value : ℝ) := by
  have least : 3 ≤ grid.scale := by
    unfold shortfall at wide
    omega
  rcases third.ln2_bounds least with ⟨someLn2, part⟩
  rcases exp_spec Rejection someLn2 steps with
    ⟨⟨multiple, rest⟩, exact, above, below, foundIff⟩
  dsimp only at exact above below foundIff
  rcases (foundIff factor).mp foundFactor with ⟨sum, foundSum, rfl⟩
  have accurate := sum_accuracy third someLn2 positive found exact above below ends wide (by omega)
    foundSum
  have rounded := abs_moved_sub_le sum multiple
  have power : (0 : ℝ) < 2 ^ multiple := zpow_pos two_pos _
  have whole : (2 : ℝ) ^ multiple * (grid.scale * ((value : ℝ) / 2 ^ multiple)) =
      grid.scale * value := by
    rw [mul_left_comm, mul_div_cancel₀ _ power.ne']
  have octave : (2 : ℝ) ^ multiple ≤ 2 * value := by
    have reaches := (Rat.cast_le (K := ℝ)).mpr (Octave.of_fits grid.scale_pos positive).reaches
    push_cast at reaches
    have next : multiple ≤ (Octave.of grid.scale value).exponent + 1 := by
      have choice := multiple_of_ln third someLn2 positive found exact above below
      omega
    calc
      (2 : ℝ) ^ multiple ≤ 2 ^ ((Octave.of grid.scale value).exponent + 1) :=
        zpow_le_zpow_right₀ one_le_two next
      _ = 2 * 2 ^ (Octave.of grid.scale value).exponent := by
        rw [zpow_add_one₀ two_ne_zero, mul_comm]
      _ ≤ 2 * value := mul_le_mul_of_nonneg_left reaches zero_le_two
  have movedError : |(sum : ℝ) * 2 ^ multiple - grid.scale * value| ≤
      2 * value * (48 * rounds + 60) := by
    rw [← whole, mul_comm (sum : ℝ), ← mul_sub, abs_mul, abs_of_pos power]
    exact mul_le_mul octave accurate (abs_nonneg _) (power.le.trans octave)
  have triangle := abs_sub_le (moved sum multiple : ℝ) (sum * 2 ^ multiple) (grid.scale * value)
  have oneLe := le_max_left 1 (value : ℝ)
  have valueLe := le_max_right 1 (value : ℝ)
  have someRounds : (0 : ℝ) ≤ rounds := Nat.cast_nonneg rounds
  have product := mul_le_mul_of_nonneg_right valueLe (by linarith : (0 : ℝ) ≤ 96 * rounds + 120)
  linarith

/-! ## The working precision -/

theorem mantissaError_le {digits : Nat} (few : digits ≤ 10 ^ 6) :
    96 * (2 * (digits + guardDigits)) + 121 ≤ 10 ^ guardDigits := by
  unfold guardDigits
  omega

/-- Up to a million digits the exponential of the logarithm of a positive rational is
that rational to the working precision, however large or small it is. -/
theorem exp_undoes_ln {digits : Nat} (few : digits ≤ 10 ^ 6) :
    ∃ grid, (ofDigits digits : Verdict Grid) = .ok grid ∧
      ∀ value : Rat, 0 < value ->
        ∃ steps factor, grid.ln value = .ok steps ∧ (grid.exp steps : Verdict Int) = .ok factor ∧
          |grid.value factor - value| ≤ (1 / 10 ^ digits) * max 1 value := by
  rcases ofDigits_sound Rejection few with ⟨grid, built, sound⟩
  rcases ofDigits_eq_ok built with ⟨scale, third⟩
  refine ⟨grid, built, ?_⟩
  intro value positive
  rcases third.ln_total positive with ⟨steps, found⟩
  rcases exp_total Rejection sound steps with ⟨factor, foundFactor⟩
  refine ⟨steps, factor, found, foundFactor, ?_⟩
  have ends := powerOfTen_lt_nine_pow (Nat.add_pos_right digits (by decide : 0 < guardDigits))
  rw [← scale] at ends
  have error := mantissaError_le few
  have split : grid.scale = 10 ^ digits * 10 ^ guardDigits := by
    rw [scale, powerOfTen_eq, Nat.pow_add]
  have room : 10 ^ guardDigits ≤ grid.scale := by
    rw [split]
    exact Nat.le_mul_of_pos_left _ (Nat.pow_pos (by decide))
  have wide : shortfall (2 * (digits + guardDigits)) ≤ grid.scale := by
    unfold shortfall
    omega
  have accurate := exp_ln_accuracy third ends wide positive found foundFactor
  have scalePos : (0 : ℝ) < grid.scale := Nat.cast_pos.mpr grid.scale_pos
  have splitReal : (grid.scale : ℝ) = 10 ^ digits * 10 ^ guardDigits := by exact_mod_cast split
  have errorReal : 96 * ((2 * (digits + guardDigits) : Nat) : ℝ) + 121 ≤ 10 ^ guardDigits := by
    exact_mod_cast error
  have someSize : 0 ≤ max 1 (value : ℝ) := zero_le_one.trans (le_max_left _ _)
  have quotient : (factor : ℝ) / grid.scale - value =
      (factor - grid.scale * value) / grid.scale := by
    rw [sub_div, mul_div_cancel_left₀ _ scalePos.ne']
  rw [← Rat.cast_le (K := ℝ)]
  push_cast
  rw [cast_value, quotient, abs_div, abs_of_pos scalePos, div_le_iff₀ scalePos]
  calc
    |(factor : ℝ) - grid.scale * value| ≤
        (96 * ((2 * (digits + guardDigits) : Nat) : ℝ) + 121) * max 1 (value : ℝ) := accurate
    _ ≤ 10 ^ guardDigits * max 1 (value : ℝ) := mul_le_mul_of_nonneg_right errorReal someSize
    _ = 1 / 10 ^ digits * max 1 (value : ℝ) * grid.scale := by
      rw [splitReal]
      field_simp

/-- At fifty digits a ratio of thirteen decimals comes back within fifty places, and
so does one over two to the five hundredth. -/
theorem exp_undoes_ln_fifty :
    ∃ grid, (ofDigits 50 : Verdict Grid) = .ok grid ∧
      ∀ value ∈ [(4722366482869 / 1000 : Rat), 1 / 2 ^ 500],
        ∃ steps factor, grid.ln value = .ok steps ∧ (grid.exp steps : Verdict Int) = .ok factor ∧
          |grid.value factor - value| ≤ (1 / 10 ^ 50) * max 1 value := by
  rcases exp_undoes_ln (show 50 ≤ 10 ^ 6 by decide) with ⟨grid, built, undoes⟩
  refine ⟨grid, built, ?_⟩
  intro value listed
  apply undoes
  rcases List.mem_pair.mp listed with rfl | rfl
  · norm_num
  · positivity

end Grid

end FixedPoint

end PackedLedger
