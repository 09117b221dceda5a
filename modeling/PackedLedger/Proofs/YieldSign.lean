import PackedLedger.Proofs.Logarithm

namespace PackedLedger

/-!
# A yield above zero needs an index that rises

No stage compares the ends of the index range with each other.  What excludes a
range that goes nowhere is the sign of its largest yield, and rounding could
blur a sign.  It does not: the sums of the logarithm keep the order of their
arguments, so the logarithm of at most one is at most zero, whatever the number
of digits.  And the sum of the exponential stays within its last term, so the
exponential of at most zero is at most one.
-/

namespace FixedPoint

variable {Reason : Type} {scale : Nat}

/-! ## The distance of a sum from its start -/

section Exponential

variable {exponent : Int}

/-- All terms to come add up to at most the last one, in either direction. -/
theorem exponentialTail_near (positive : 0 < scale) (small : 2 * exponent.natAbs ≤ scale)
    (term sum : Int) (count : Nat) (someCount : 0 < count) {result : Int}
    (found : (exponentialTail scale exponent term sum count : Attempt Reason Int) = .ok result) :
    (result - sum).natAbs ≤ term.natAbs := by
  induction term, sum, count using exponentialTail.induct scale exponent with
  | case1 term sum count next zero =>
      rw [exponentialTail, if_pos zero] at found
      cases found
      omega
  | case2 term sum count next moves fits inductionHypothesis =>
      rw [exponentialTail, if_neg moves, if_pos fits] at found
      have rest := inductionHypothesis (Nat.succ_pos count) found
      have half := two_mul_natAbs_nextTerm_le positive small term someCount
      omega
  | case3 term sum count next moves overflow =>
      rw [exponentialTail, if_neg moves, if_neg overflow] at found
      cases found

theorem firstTerm_eq (positive : 0 < scale) (exponent : Int) :
    ((scale : Int) * exponent).tdiv ((scale * 1 : Nat) : Int) = exponent := by
  rw [Nat.mul_one]
  exact Int.mul_tdiv_cancel_left _ (Int.natCast_ne_zero.mpr (Nat.ne_of_gt positive))

/-- What follows the first term cannot take a negative exponent back above one. -/
theorem exponential_le_scale (positive : 0 < scale) (small : 2 * exponent.natAbs ≤ scale)
    (nonpos : exponent ≤ 0) {result : Int}
    (found : (exponentialTail scale exponent scale scale 1 : Attempt Reason Int) = .ok result) :
    result ≤ scale := by
  rw [exponentialTail, firstTerm_eq positive] at found
  by_cases zero : exponent = 0
  · rw [if_pos zero] at found
    cases found
    exact Int.le_refl _
  · rw [if_neg zero, if_pos (by decide)] at found
    have near := exponentialTail_near positive small _ _ _ Nat.two_pos found
    omega

end Exponential

/-! ## Signs on a grid -/

namespace Grid

variable {grid : Grid}

theorem ln_nonpos (third : grid.HasThird) {value : Rat} (atMostOne : value ≤ 1) {steps : Int}
    (found : grid.ln value = .ok steps) : steps ≤ 0 := by
  have positive : 0 < value := by
    apply lt_of_not_ge
    intro nonpos
    exact ln_refuses_nonpos nonpos found
  exact ln_mono third positive atMostOne found grid.ln_one

theorem exp_le_scale (third : grid.HasThird) (least : 3 ≤ grid.scale) {steps : Int}
    (nonpos : steps ≤ 0) {factor : Int}
    (found : (grid.exp steps : Attempt Reason Int) = .ok factor) : factor ≤ grid.scale := by
  rcases third.ln2_bounds least with ⟨someLn2, part⟩
  rcases exp_spec Reason someLn2 steps with ⟨⟨multiple, rest⟩, exact, above, below, foundIff⟩
  dsimp only at exact above below foundIff
  rcases (foundIff factor).mp found with ⟨sum, foundSum, rfl⟩
  have small : 2 * rest.natAbs ≤ grid.scale := by omega
  rcases lt_trichotomy multiple 0 with negative | zero | positive
  · have near := exponentialTail_near grid.scale_pos small _ _ _ Nat.one_pos foundSum
    rcases Int.eq_negSucc_of_lt_zero negative with ⟨shift, rfl⟩
    have two : (2 : Int) ≤ ((2 ^ (shift + 1) : Nat) : Int) := by
      have power : 2 ^ 1 ≤ 2 ^ (shift + 1) := Nat.pow_le_pow_right (by decide) (by omega)
      exact_mod_cast power
    rw [moved, Int.shiftRight_eq_div_pow]
    apply Int.ediv_le_of_le_mul (by omega)
    have double : (grid.scale : Int) * 2 ≤ grid.scale * ((2 ^ (shift + 1) : Nat) : Int) :=
      Int.mul_le_mul_of_nonneg_left two (Int.natCast_nonneg _)
    omega
  · rw [zero] at exact ⊢
    have restNonpos : rest ≤ 0 := by omega
    have sumLe := exponential_le_scale grid.scale_pos small restNonpos foundSum
    have unmoved := moved_natCast sum 0
    rw [pow_zero, Int.mul_one] at unmoved
    exact unmoved.trans_le sumLe
  · have product : grid.ln2 ≤ multiple * grid.ln2 := by
      rw [← Int.one_mul grid.ln2, ← Int.mul_assoc, Int.mul_one]
      exact Int.mul_le_mul_of_nonneg_right positive someLn2.le
    omega

end Grid

end FixedPoint

/-- An index range that does not rise has no largest yield above zero. -/
theorem largestYield_nonpos {grid : FixedPoint.Grid} {digits : Nat}
    (gridFound : (FixedPoint.Grid.ofDigits digits : Verdict _) = .ok grid) {scaling : Scaling}
    {horizon : Horizon} (someInitial : 0 < scaling.initialIndex)
    (someYears : 0 < horizon.years) (flat : scaling.largestIndex ≤ scaling.initialIndex)
    {largest : LargestYield} (found : largestYield scaling horizon grid = .ok largest) :
    largest.apy ≤ 0 := by
  rcases FixedPoint.Grid.ofDigits_eq_ok gridFound with ⟨scale, third⟩
  have least : 3 ≤ grid.scale := by
    have ten : 10 ^ 1 ≤ powerOfTen (digits + FixedPoint.guardDigits) :=
      Nat.pow_le_pow_right (by decide) (Nat.le_add_left 1 (digits + 9))
    omega
  have atMostOne : scaling.indexGrowth ≤ 1 :=
    div_le_one_of_le₀ (Nat.cast_le.mpr flat) (Nat.cast_nonneg _)
  rcases (largestYield_eq_ok someInitial someYears).mp found with
    ⟨logarithm, factor, foundLogarithm, foundFactor, rfl⟩
  have logarithmNonpos := FixedPoint.Grid.ln_nonpos third atMostOne foundLogarithm
  have rateNonpos : (logarithm * horizon.years.den).tdiv horizon.years.num ≤ 0 := by
    have product : logarithm * horizon.years.den ≤ 0 :=
      Int.mul_nonpos_of_nonpos_of_nonneg logarithmNonpos (Int.natCast_nonneg _)
    have quotient := Int.tdiv_le_tdiv (Rat.num_pos.mpr someYears) product
    rwa [Int.zero_tdiv] at quotient
  have factorLe := FixedPoint.Grid.exp_le_scale third least rateNonpos foundFactor
  dsimp only
  rw [FixedPoint.Grid.value, Rat.mkRat_eq_div]
  apply div_nonpos_of_nonpos_of_nonneg _ (Nat.cast_nonneg _)
  exact_mod_cast Int.sub_nonpos_of_le factorLe

end PackedLedger
