import Mathlib.Analysis.Complex.ExponentialBounds
import PackedLedger.Allocation.Basic
import PackedLedger.Proofs.ExponentialAccuracy
import PackedLedger.Proofs.YieldSign

namespace PackedLedger

/-!
# A compounded yield is at least the simple one

The exponential lies above its tangent at zero, and at zero it touches it.  So
an approximation has no room there: whatever error it is granted may take it below.
What keeps the rounded series above is that its terms come off one by one.  The first
is the exponent itself, without any error.  The second is half the square, rounded
down and never negative, and all that follow take away at most a third of it.  Where
an octave is put back, the square has to make up for half a logarithm of two, and it
does, as long as that logarithm is close enough to the exact one.
-/

namespace FixedPoint

variable {Reason : Type} {scale : Nat} {exponent : Int}

/-! ## The series above its tangent -/

def halfSquare (scale : Nat) (exponent : Int) : Int :=
  (exponent * exponent).tdiv ((scale * 2 : Nat) : Int)

theorem halfSquare_nonneg (scale : Nat) (exponent : Int) : 0 ≤ halfSquare scale exponent :=
  Int.tdiv_nonneg (mul_self_nonneg exponent) (Int.natCast_nonneg _)

theorem lt_halfSquare_add_one (positive : 0 < scale) (exponent : Int) :
    exponent * exponent < 2 * scale * (halfSquare scale exponent + 1) := by
  have double : (0 : Int) < ((scale * 2 : Nat) : Int) := by omega
  have above := Int.lt_ediv_add_one_mul_self (exponent * exponent) double
  rw [halfSquare, Int.tdiv_eq_ediv_of_nonneg (mul_self_nonneg exponent)]
  push_cast at above ⊢
  linarith

theorem exponentialTail_ge (positive : 0 < scale) (small : 2 * exponent.natAbs ≤ scale)
    {term sum result : Int} (nonneg : 0 ≤ term)
    (found : (exponentialTail scale exponent term sum 3 : Attempt Reason Int) = .ok result) :
    3 * sum ≤ 3 * result + term := by
  have third := natAbs_nextTerm_le positive small term 3
  rcases exponentialTail_round found with ⟨_, rfl⟩ | ⟨_, later⟩
  · omega
  · have near := exponentialTail_near positive small _ _ _ (Nat.succ_pos 3) later
    omega

/-- The sum of the series is at least one and the exponent and two thirds of the
second term. -/
theorem exponential_ge_square (positive : 0 < scale) (small : 2 * exponent.natAbs ≤ scale)
    {sum : Int}
    (found : (exponentialTail scale exponent scale scale 1 : Attempt Reason Int) = .ok sum) :
    3 * (scale + exponent) + 2 * halfSquare scale exponent ≤ 3 * sum := by
  have nonneg := halfSquare_nonneg scale exponent
  have first := exponentialTail_round found
  rw [firstTerm_eq positive] at first
  rcases first with ⟨stop, rfl⟩ | ⟨_, later⟩
  · rw [stop, halfSquare, Int.mul_zero, Int.zero_tdiv]
    omega
  · rcases exponentialTail_round later with
      ⟨(stop : halfSquare scale exponent = 0), rfl⟩ | ⟨_, last⟩
    · omega
    · have rest : 3 * (scale + exponent + halfSquare scale exponent) ≤
          3 * sum + halfSquare scale exponent :=
        exponentialTail_ge positive small nonneg last
      omega

/-- Down to an exponent of minus seven twentieths, one and the exponent and four thirds
of the second term still come up to seven tenths. -/
theorem seven_tenths_le_tangent_add_square (wide : 43 ≤ scale)
    (least : -7 * (scale : Int) ≤ 20 * exponent) :
    21 * (scale : Int) ≤ 30 * (scale + exponent) + 40 * halfSquare scale exponent := by
  have square := lt_halfSquare_add_one (by omega : 0 < scale) exponent
  have wideInt : (43 : Int) ≤ scale := by exact_mod_cast wide
  generalize halfSquare scale exponent = half at square ⊢
  generalize (scale : Int) = one at *
  -- The difference of both sides, completed to the square of the distance from the least exponent.
  have completed : 0 ≤ (20 * exponent + 7 * one) * (20 * exponent + 7 * one) +
      16 * one * (20 * exponent + 7 * one) :=
    add_nonneg (mul_self_nonneg _) (Int.mul_nonneg (by omega) (by omega))
  have room : 43 * one ≤ one * one := Int.mul_le_mul_of_nonneg_right wideInt (by omega)
  by_contra negative
  have product : one * (30 * (one + exponent) + 40 * half - 21 * one) ≤ one * -1 :=
    Int.mul_le_mul_of_nonneg_left (by omega) (by omega)
  linarith

namespace Grid

variable {grid : Grid} {rounds : Nat}

/-! ## The logarithm of two -/

/-- With room for the shortfall, the logarithm of two lies between two thirds and
seven tenths. -/
theorem HasThird.ln2_near (third : grid.HasThird) (ends : grid.scale < 9 ^ rounds)
    (wide : 50 * shortfall rounds ≤ grid.scale) :
    2 * (grid.scale : Int) ≤ 3 * grid.ln2 ∧ 10 * grid.ln2 ≤ 7 * grid.scale := by
  have steps : (0 : ℝ) < grid.scale := Nat.cast_pos.mpr grid.scale_pos
  have room : (50 : ℝ) * shortfall rounds ≤ grid.scale := by exact_mod_cast wide
  rcases third.ln2_accuracy ends with ⟨below, above⟩
  have lower := mul_le_mul_of_nonneg_left Real.log_two_gt_d9.le steps.le
  have upper := mul_le_mul_of_nonneg_left Real.log_two_lt_d9.le steps.le
  have twoThirds : 2 * (grid.scale : ℝ) ≤ 3 * grid.ln2 := by linarith
  have sevenTenths : 10 * (grid.ln2 : ℝ) ≤ 7 * grid.scale := by linarith
  exact ⟨by exact_mod_cast twoThirds, by exact_mod_cast sevenTenths⟩

/-! ## Octaves above the tangent -/

/-- A rest of the reduction, the sum of its series, and a logarithm of two that is
close enough. -/
structure ReducedSum (grid : Grid) (rest sum : Int) : Prop where
  wide : 43 ≤ grid.scale
  two_thirds : 2 * (grid.scale : Int) ≤ 3 * grid.ln2
  seven_tenths : 10 * grid.ln2 ≤ 7 * grid.scale
  above : -grid.ln2 ≤ 2 * rest
  below : 2 * rest < grid.ln2
  square : 3 * (grid.scale + rest) + 2 * halfSquare grid.scale rest ≤ 3 * sum

namespace ReducedSum

variable {rest sum : Int} (reduced : ReducedSum grid rest sum)
include reduced

theorem ge_tangent : grid.scale + rest ≤ sum := by
  have nonneg := halfSquare_nonneg grid.scale rest
  have square := reduced.square
  omega

/-- Every octave that is put back doubles the sum, and the tangent gains no more
than a logarithm of two. -/
theorem moved_up (octaves : Nat) :
    grid.scale + ((octaves + 1) * grid.ln2 + rest) ≤ sum * 2 ^ (octaves + 1) := by
  rcases reduced with ⟨wide, twoThirds, sevenTenths, above, below, square⟩
  induction octaves with
  | zero =>
      have enough := seven_tenths_le_tangent_add_square wide
        (by omega : -7 * (grid.scale : Int) ≤ 20 * rest)
      rw [Nat.cast_zero, Int.zero_add, Int.one_mul, Nat.zero_add, pow_one]
      omega
  | succ octaves inductionHypothesis =>
      have someOctaves : 0 ≤ (octaves : Int) * grid.ln2 :=
        Int.mul_nonneg (Int.natCast_nonneg _) (by omega)
      rw [pow_succ, ← Int.mul_assoc]
      push_cast
      linarith

/-- An octave that is taken off halves the sum.  The tangent loses a logarithm of two,
which is more, and from the second octave on it is at most zero. -/
theorem moved_down (octaves : Nat) :
    (grid.scale + (rest - (octaves + 1) * grid.ln2)) * 2 ^ (octaves + 1) ≤ sum := by
  have tangent := reduced.ge_tangent
  rcases reduced with ⟨wide, twoThirds, _, above, below, _⟩
  cases octaves with
  | zero =>
      rw [Nat.cast_zero, Int.zero_add, Int.one_mul, Nat.zero_add, pow_one]
      omega
  | succ octaves =>
      have someOctaves : 0 ≤ (octaves : Int) * grid.ln2 :=
        Int.mul_nonneg (Int.natCast_nonneg _) (by omega)
      have nonpos : grid.scale + (rest - ((octaves + 1 : Nat) + 1) * grid.ln2) ≤ 0 := by
        push_cast
        linarith
      have product := Int.mul_nonpos_of_nonpos_of_nonneg nonpos
        (show (0 : Int) ≤ 2 ^ (octaves + 1 + 1) by positivity)
      omega

theorem moved_ge_tangent (multiple : Int) :
    grid.scale + (multiple * grid.ln2 + rest) ≤ moved sum multiple := by
  cases multiple with
  | ofNat octaves =>
      rw [Int.ofNat_eq_natCast, moved_natCast]
      cases octaves with
      | zero =>
          have tangent := reduced.ge_tangent
          rw [Nat.cast_zero, pow_zero]
          omega
      | succ octaves =>
          rw [Nat.cast_succ]
          exact reduced.moved_up octaves
  | negSucc octaves =>
      have down := reduced.moved_down octaves
      have power : (0 : Int) < ((2 ^ (octaves + 1) : Nat) : Int) :=
        Int.natCast_pos.mpr (Nat.pow_pos two_pos)
      rw [moved, Int.shiftRight_eq_div_pow, Int.le_ediv_iff_mul_le power, Int.negSucc_eq]
      push_cast
      linarith

end ReducedSum

/-- The exponential on the grid is at least its tangent at zero. -/
theorem exp_ge_tangent (third : grid.HasThird) (ends : grid.scale < 9 ^ rounds)
    (wide : 50 * shortfall rounds ≤ grid.scale) {steps factor : Int}
    (found : (grid.exp steps : Attempt Reason Int) = .ok factor) :
    grid.scale + steps ≤ factor := by
  have least : 43 ≤ grid.scale := by
    unfold shortfall at wide
    omega
  rcases third.ln2_near ends wide with ⟨twoThirds, sevenTenths⟩
  rcases exp_spec Reason (by omega : 0 < grid.ln2) steps with
    ⟨⟨multiple, rest⟩, exact, above, below, foundIff⟩
  dsimp only at exact above below foundIff
  rcases (foundIff factor).mp found with ⟨sum, foundSum, rfl⟩
  have square := exponential_ge_square grid.scale_pos (by omega) foundSum
  have reduced : ReducedSum grid rest sum :=
    ⟨least, twoThirds, sevenTenths, above, below, square⟩
  rw [exact]
  exact reduced.moved_ge_tangent multiple

theorem fifty_shortfalls_le {digits : Nat} (few : digits ≤ 10 ^ 6) :
    50 * shortfall (2 * (digits + guardDigits)) ≤ 10 ^ guardDigits := by
  unfold shortfall guardDigits
  omega

end Grid

end FixedPoint

open FixedPoint

/-! ## The two largest yields -/

/-- The simple and the compounded yield belong to one rate and its exponential. -/
theorem exists_rate_of_largestYield {grid : Grid} {scaling : Scaling} {horizon : Horizon}
    {largest : LargestYield} (found : largestYield scaling horizon grid = .ok largest) :
    ∃ rate factor, (grid.exp rate : Verdict Int) = .ok factor ∧
      largest = ⟨grid.value rate, grid.value (factor - grid.scale)⟩ := by
  rcases Attempt.bind_eq_ok.mp found with ⟨growth, _, afterGrowth⟩
  rcases Attempt.bind_eq_ok.mp afterGrowth with ⟨logarithm, _, afterLogarithm⟩
  rcases Attempt.bind_eq_ok.mp afterLogarithm with ⟨rate, _, afterRate⟩
  rcases Attempt.bind_eq_ok.mp afterRate with ⟨factor, foundFactor, same⟩
  cases same
  exact ⟨rate, factor, foundFactor, rfl⟩

/-- Up to a million digits every exponential exists, is at least its tangent, and below
zero at most one.  So a largest yield is never smaller compounded than simple. -/
theorem compounded_dominates_simple {digits : Nat} (few : digits ≤ 10 ^ 6) :
    ∃ grid, (Grid.ofDigits digits : Verdict Grid) = .ok grid ∧
      (∀ steps, ∃ factor, (grid.exp steps : Verdict Int) = .ok factor ∧
        grid.scale + steps ≤ factor ∧ (steps ≤ 0 -> factor ≤ grid.scale)) ∧
      ∀ scaling horizon largest, largestYield scaling horizon grid = .ok largest ->
        largest.apr ≤ largest.apy := by
  rcases Grid.ofDigits_sound Rejection few with ⟨grid, gridFound, sound⟩
  rcases Grid.ofDigits_eq_ok gridFound with ⟨scale, third⟩
  have ends := powerOfTen_lt_nine_pow (Nat.add_pos_right digits (by decide : 0 < guardDigits))
  have room : 10 ^ guardDigits ≤ powerOfTen (digits + guardDigits) :=
    Nat.pow_le_pow_right (by decide) (Nat.le_add_left _ _)
  rw [← scale] at ends room
  have wide := (Grid.fifty_shortfalls_le few).trans room
  have least : 3 ≤ grid.scale := by
    unfold guardDigits at room
    omega
  have tangent : ∀ {steps factor : Int}, (grid.exp steps : Verdict Int) = .ok factor ->
      grid.scale + steps ≤ factor := Grid.exp_ge_tangent third ends wide
  refine ⟨grid, gridFound, ?_, ?_⟩
  · intro steps
    rcases Grid.exp_total Rejection sound steps with ⟨factor, found⟩
    exact ⟨factor, found, tangent found, fun nonpos => Grid.exp_le_scale third least nonpos found⟩
  · intro scaling horizon largest found
    rcases exists_rate_of_largestYield found with ⟨rate, factor, foundFactor, rfl⟩
    have above := tangent foundFactor
    exact grid.value_mono (by omega)

/-- The first generation at the default digits, and the exponential of one below zero. -/
theorem compounded_dominates_simple_first_generation :
    ∃ grid scaling horizon largest factor, (Grid.ofDigits 60 : Verdict Grid) = .ok grid ∧
      Scaling.ofAllocation Generation.v1.allocation = .ok scaling ∧
      Horizon.ofBits 32 1700000000 {} = .ok horizon ∧
      largestYield scaling horizon grid = .ok largest ∧ largest.apr ≤ largest.apy ∧
      (grid.exp (-grid.scale) : Verdict Int) = .ok factor ∧ 0 ≤ factor ∧
      factor ≤ grid.scale := by
  have computed : Attempt.Holds (Grid.ofDigits 60 : Verdict Grid) fun grid =>
      Attempt.Holds (Scaling.ofAllocation Generation.v1.allocation) fun scaling =>
        Attempt.Holds (Horizon.ofBits 32 1700000000 {}) fun horizon =>
          Attempt.Holds (largestYield scaling horizon grid) fun _ => True := by
    decide +kernel
  rcases computed with ⟨grid, gridFound, scaling, constants, horizon, lasting, largest, found, _⟩
  rcases compounded_dominates_simple (show 60 ≤ 10 ^ 6 by decide) with
    ⟨same, sameFound, exponentials, yields⟩
  cases gridFound.symm.trans sameFound
  rcases exponentials (-grid.scale) with ⟨factor, foundFactor, tangent, below⟩
  exact ⟨grid, scaling, horizon, largest, factor, gridFound, constants, lasting, found,
    yields scaling horizon largest found, foundFactor, by omega, below (by omega)⟩

end PackedLedger
