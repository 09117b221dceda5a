import Mathlib.Analysis.SpecialFunctions.Artanh
import Mathlib.Analysis.SpecialFunctions.Log.Deriv
import PackedLedger.Proofs.Series

namespace PackedLedger

namespace FixedPoint

/-!
# The accuracy of the inverse hyperbolic tangent

Every quotient in the series is rounded toward zero, the power from which the
next terms are made included.  For an argument that is not negative this only
ever loses, so the sum stays below the exact value.  A rounded power stays within
two and a quarter steps of the exact one, because each round divides what was
lost before by nine.  So a term loses at most two steps, and the terms left out
at the end come to a few steps for each round made.
-/

/-! ## The exact series -/

noncomputable def tangentRest (x : ℝ) (terms : Nat) : ℝ :=
  Real.artanh x - ∑ i ∈ Finset.range terms, x ^ (2 * i + 1) / (2 * i + 1)

theorem tangentRest_zero (x : ℝ) : tangentRest x 0 = Real.artanh x := by
  rw [tangentRest, Finset.sum_range_zero, sub_zero]

theorem tangentRest_eq_add (x : ℝ) (terms : Nat) :
    tangentRest x terms = x ^ (2 * terms + 1) / (2 * terms + 1) + tangentRest x (terms + 1) := by
  rw [tangentRest, tangentRest, Finset.sum_range_succ]
  ring

section Rest

variable {x : ℝ} (nonneg : 0 ≤ x) (third : 3 * x ≤ 1)
include nonneg third

theorem artanh_eq_half_log : Real.artanh x = 1 / 2 * Real.log ((1 + x) / (1 - x)) :=
  Real.artanh_eq_half_log ⟨by linarith, by linarith⟩

theorem tangentRest_nonneg (terms : Nat) : 0 ≤ tangentRest x terms := by
  rw [tangentRest, artanh_eq_half_log nonneg third]
  exact sub_nonneg.mpr (Real.sum_range_le_log_div nonneg (by linarith) terms)

theorem tangentRest_le (terms : Nat) : tangentRest x terms ≤ 9 / 8 * x ^ (2 * terms + 1) := by
  have remainder := Real.log_div_le_sum_range_add nonneg (by linarith) terms
  have power : 0 ≤ x ^ (2 * terms + 1) := pow_nonneg nonneg _
  have square : x ^ 2 ≤ 1 / 9 := by nlinarith
  have quotient : x ^ (2 * terms + 1) / (1 - x ^ 2) ≤ 9 / 8 * x ^ (2 * terms + 1) := by
    rw [div_le_iff₀ (by linarith)]
    nlinarith
  rw [tangentRest, artanh_eq_half_log nonneg third]
  linarith

end Rest

/-! ## Rounded powers and terms -/

theorem tdiv_floor {numerator denominator : Int} (nonneg : 0 ≤ numerator)
    (positive : 0 < denominator) :
    ((numerator.tdiv denominator : Int) : ℝ) ≤ numerator / denominator ∧
      (numerator : ℝ) / denominator < (numerator.tdiv denominator : Int) + 1 := by
  have steps : (0 : ℝ) < denominator := Int.cast_pos.mpr positive
  rw [Int.tdiv_eq_ediv_of_nonneg nonneg, le_div_iff₀ steps, div_lt_iff₀ steps]
  have below := Int.ediv_mul_le numerator (ne_of_gt positive)
  have above := Int.lt_ediv_add_one_mul_self numerator positive
  exact ⟨by exact_mod_cast below, by exact_mod_cast above⟩

/-- The rounded square of an exact argument. -/
structure RoundsSquare (scale : Nat) (x : ℝ) (square : Int) : Prop where
  nonneg : 0 ≤ square
  le_exact : (square : ℝ) ≤ scale * x ^ 2
  exact_le : scale * x ^ 2 ≤ square + 1

/-- A rounded power of an exact argument, with what it may have lost so far. -/
structure RoundsPower (scale : Nat) (x : ℝ) (power : Int) (terms : Nat) : Prop where
  nonneg : 0 ≤ power
  le_exact : (power : ℝ) ≤ scale * x ^ (2 * terms + 1)
  exact_le : scale * x ^ (2 * terms + 1) ≤ power + 9 / 4

section Rounding

variable {scale : Nat} {x : ℝ} {square power : Int} {terms : Nat}
  (positive : 0 < scale) (nonneg : 0 ≤ x) (third : 3 * x ≤ 1)
include positive nonneg third

/-- One round divides the loss by nine and adds at most two steps. -/
theorem RoundsPower.next (rounds : RoundsPower scale x power terms)
    (squared : RoundsSquare scale x square) :
    RoundsPower scale x ((power * square).tdiv scale) (terms + 1) := by
  have steps : (0 : ℝ) < scale := Nat.cast_pos.mpr positive
  have someProduct : 0 ≤ power * square := Int.mul_nonneg rounds.nonneg squared.nonneg
  have someScale : (0 : Int) < scale := Int.natCast_pos.mpr positive
  have somePower : (0 : ℝ) ≤ power := Int.cast_nonneg rounds.nonneg
  have someSquare : (0 : ℝ) ≤ square := Int.cast_nonneg squared.nonneg
  rcases tdiv_floor someProduct someScale with ⟨below, above⟩
  rw [Int.cast_mul, Int.cast_natCast] at below above
  have exact : scale * x ^ (2 * (terms + 1) + 1) = scale * x ^ (2 * terms + 1) * x ^ 2 := by ring
  refine ⟨Int.tdiv_nonneg someProduct someScale.le, ?_, ?_⟩
  · apply below.trans
    rw [div_le_iff₀ steps, exact]
    calc
      (power : ℝ) * square ≤ scale * x ^ (2 * terms + 1) * (scale * x ^ 2) :=
        mul_le_mul rounds.le_exact squared.le_exact someSquare (somePower.trans rounds.le_exact)
      _ = scale * x ^ (2 * terms + 1) * x ^ 2 * scale := by ring
  · have ninth : x ^ 2 ≤ 1 / 9 := by nlinarith
    have powerLe : (power : ℝ) ≤ scale := by
      apply rounds.le_exact.trans
      exact mul_le_of_le_one_right steps.le (pow_le_one₀ nonneg (by linarith))
    have whole : (power : ℝ) * x ^ 2 ≤ power * square / scale + 1 := by
      rw [← sub_le_iff_le_add, le_div_iff₀ steps]
      have lost := mul_le_mul_of_nonneg_left squared.exact_le somePower
      linarith
    calc
      scale * x ^ (2 * (terms + 1) + 1) = scale * x ^ (2 * terms + 1) * x ^ 2 := exact
      _ ≤ (power + 9 / 4) * x ^ 2 := mul_le_mul_of_nonneg_right rounds.exact_le (sq_nonneg x)
      _ ≤ ((power * square).tdiv scale : Int) + 9 / 4 := by linarith

omit positive nonneg third in
/-- A term after the first is at most two steps below the exact one. -/
theorem RoundsPower.term (rounds : RoundsPower scale x power (terms + 1)) :
    ((power.tdiv ((2 * terms + 1 + 2 : Nat) : Int) : Int) : ℝ) ≤
        scale * (x ^ (2 * (terms + 1) + 1) / (2 * (terms + 1 : Nat) + 1)) ∧
      scale * (x ^ (2 * (terms + 1) + 1) / (2 * (terms + 1 : Nat) + 1)) ≤
        (power.tdiv ((2 * terms + 1 + 2 : Nat) : Int) : Int) + 2 := by
  have same : ((2 * terms + 1 + 2 : Nat) : ℝ) = 2 * (terms + 1 : Nat) + 1 := by
    push_cast
    ring
  have three : (3 : ℝ) ≤ (2 * terms + 1 + 2 : Nat) := by
    exact_mod_cast Nat.le_add_left 3 (2 * terms)
  rcases tdiv_floor rounds.nonneg (Int.natCast_pos.mpr (Nat.succ_pos (2 * terms + 1 + 1)))
    with ⟨below, above⟩
  rw [Int.cast_natCast] at below above
  rw [← same, ← mul_div_assoc]
  generalize ((2 * terms + 1 + 2 : Nat) : ℝ) = count at three below above ⊢
  have someCount : 0 < count := by linarith
  constructor
  · exact below.trans (div_le_div_of_nonneg_right rounds.le_exact someCount.le)
  · have lost : 9 / 4 / count ≤ 1 := by
      rw [div_le_one someCount]
      linarith
    calc
      scale * x ^ (2 * (terms + 1) + 1) / count ≤ (power + 9 / 4) / count :=
        div_le_div_of_nonneg_right rounds.exact_le someCount.le
      _ = power / count + 9 / 4 / count := add_div _ _ _
      _ ≤ _ := by linarith

/-- Where the next term is zero, the rest is no more than the counter's size. -/
theorem RoundsPower.rest_of_stop (rounds : RoundsPower scale x power (terms + 1))
    (stop : power.tdiv ((2 * terms + 1 + 2 : Nat) : Int) = 0) :
    0 ≤ scale * tangentRest x (terms + 1) ∧
      scale * tangentRest x (terms + 1) ≤ 3 * terms + 5 := by
  have steps : (0 : ℝ) < scale := Nat.cast_pos.mpr positive
  have last : (power : ℝ) ≤ 2 * terms + 2 := by
    have least : power < (2 * terms + 1 + 2 : Nat) := by
      apply Int.lt_of_not_ge
      intro large
      have one : ((2 * terms + 1 + 2 : Nat) : Int).tdiv ((2 * terms + 1 + 2 : Nat) : Int) ≤ 0 := by
        rw [← stop]
        exact Int.tdiv_le_tdiv (Int.natCast_pos.mpr (Nat.succ_pos _)) large
      rw [Int.tdiv_self (Int.natCast_ne_zero.mpr (Nat.succ_ne_zero _))] at one
      exact absurd one (by decide)
    exact_mod_cast (by omega : power ≤ 2 * terms + 2)
  have size : (0 : ℝ) ≤ terms := Nat.cast_nonneg terms
  refine ⟨mul_nonneg steps.le (tangentRest_nonneg nonneg third (terms + 1)), ?_⟩
  calc
    scale * tangentRest x (terms + 1) ≤ scale * (9 / 8 * x ^ (2 * (terms + 1) + 1)) :=
      mul_le_mul_of_nonneg_left (tangentRest_le nonneg third _) steps.le
    _ = 9 / 8 * (scale * x ^ (2 * (terms + 1) + 1)) := by ring
    _ ≤ 9 / 8 * (power + 9 / 4) := mul_le_mul_of_nonneg_left rounds.exact_le (by norm_num)
    _ ≤ 3 * terms + 5 := by linarith

omit nonneg in
theorem RoundsSquare.ninth (squared : RoundsSquare scale x square) (nonneg : 0 ≤ x) :
    9 * square.natAbs ≤ scale := by
  have steps : (0 : ℝ) < scale := Nat.cast_pos.mpr positive
  have part : (9 : ℝ) * square ≤ scale := by
    have ninth : x ^ 2 ≤ 1 / 9 := by nlinarith
    have product := mul_le_mul_of_nonneg_left ninth steps.le
    linarith [squared.le_exact]
  have whole : 9 * square ≤ scale := by exact_mod_cast part
  have someSquare := squared.nonneg
  omega

omit positive nonneg third in
/-- One round of the series: it ends at a term that is zero, or goes on with the
next power. -/
theorem tangentTail_round {Reason : Type} {sum result : Int} {count : Nat}
    (found : (tangentTail scale square power sum count : Attempt Reason Int) = .ok result) :
    ((power * square).tdiv scale).tdiv ((count + 2 : Nat) : Int) = 0 ∧ result = sum ∨
      ((power * square).tdiv scale).tdiv ((count + 2 : Nat) : Int) ≠ 0 ∧
        (tangentTail scale square ((power * square).tdiv scale)
          (sum + ((power * square).tdiv scale).tdiv ((count + 2 : Nat) : Int)) (count + 2) :
            Attempt Reason Int) = .ok result := by
  rw [tangentTail] at found
  dsimp only at found
  split at found
  · split at found
    · rename_i stop
      cases found
      exact .inl ⟨stop, rfl⟩
    · rename_i moves
      exact .inr ⟨moves, found⟩
  · cases found

/-- The terms still to come add up to the exact rest, less two steps for each
round and a few at the end. -/
theorem tangentTail_accuracy {Reason : Type} (squared : RoundsSquare scale x square)
    (rounds : Nat) :
    ∀ (power sum : Int) (terms : Nat) (result : Int), RoundsPower scale x power terms ->
      power.natAbs < 9 ^ rounds ->
      (tangentTail scale square power sum (2 * terms + 1) : Attempt Reason Int) = .ok result ->
      ((result - sum : Int) : ℝ) ≤ scale * tangentRest x (terms + 1) ∧
        scale * tangentRest x (terms + 1) ≤
          (result - sum : Int) + (3 * terms + 5 * rounds + 5) := by
  have steps : (0 : ℝ) < scale := Nat.cast_pos.mpr positive
  have small := squared.ninth positive third nonneg
  induction rounds with
  | zero =>
      intro power sum terms result rounded bounded found
      have next := rounded.next positive nonneg third squared
      rcases tangentTail_round found with ⟨stop, rfl⟩ | ⟨moves, _⟩
      · rcases next.rest_of_stop positive nonneg third stop with ⟨someRest, rest⟩
        rw [Int.sub_self, Int.cast_zero, Nat.cast_zero]
        exact ⟨someRest, by linarith⟩
      · have zero : power = 0 := Int.natAbs_eq_zero.mp (Nat.lt_one_iff.mp bounded)
        rw [zero, Int.zero_mul, Int.zero_tdiv, Int.zero_tdiv] at moves
        exact absurd rfl moves
  | succ rounds inductionHypothesis =>
      intro power sum terms result rounded bounded found
      have next := rounded.next positive nonneg third squared
      have someRounds : (0 : ℝ) ≤ rounds := Nat.cast_nonneg rounds
      rcases tangentTail_round found with ⟨stop, rfl⟩ | ⟨_, later⟩
      · rcases next.rest_of_stop positive nonneg third stop with ⟨someRest, rest⟩
        rw [Int.sub_self, Int.cast_zero, Nat.cast_add_one]
        exact ⟨someRest, by linarith⟩
      · rw [Nat.pow_succ, Nat.mul_comm] at bounded
        have less := natAbs_nextPower_lt positive small bounded
        rcases inductionHypothesis _ _ (terms + 1) _ next less later with ⟨above, below⟩
        rcases next.term with ⟨termLe, leTerm⟩
        rw [tangentRest_eq_add, mul_add]
        push_cast at above below termLe leTerm ⊢
        exact ⟨by linarith, by linarith⟩

end Rounding

/-! ## The whole sum -/

/-- The inverse hyperbolic tangent of at most a third is at most the exact one,
and short of it by a few steps for each round. -/
theorem inverseTangent_accuracy {Reason : Type} {scale rounds : Nat} (positive : 0 < scale)
    (ends : scale < 9 ^ rounds) {argument result : Int} (nonneg : 0 ≤ argument)
    (small : 3 * argument ≤ scale)
    (found : (inverseTangent scale argument : Attempt Reason Int) = .ok result) :
    (result : ℝ) ≤ scale * Real.artanh (argument / scale) ∧
      scale * Real.artanh (argument / scale) ≤ result + (5 * rounds + 5) := by
  have steps : (0 : ℝ) < scale := Nat.cast_pos.mpr positive
  have someArgument : (0 : ℝ) ≤ argument := Int.cast_nonneg nonneg
  have someX : (0 : ℝ) ≤ argument / scale := div_nonneg someArgument steps.le
  have third : 3 * ((argument : ℝ) / scale) ≤ 1 := by
    rw [← mul_div_assoc, div_le_one steps]
    exact_mod_cast small
  have exact : (scale : ℝ) * (argument / scale) = argument := mul_div_cancel₀ _ steps.ne'
  have squared :
      RoundsSquare scale ((argument : ℝ) / scale) ((argument * argument).tdiv scale) := by
    have someProduct : 0 ≤ argument * argument := Int.mul_nonneg nonneg nonneg
    have someScale : (0 : Int) < scale := Int.natCast_pos.mpr positive
    rcases tdiv_floor someProduct someScale with ⟨below, above⟩
    have same : ((argument * argument : Int) : ℝ) / ((scale : Nat) : Int) =
        scale * ((argument : ℝ) / scale) ^ 2 := by
      push_cast
      field_simp
    rw [same] at below above
    exact ⟨Int.tdiv_nonneg someProduct someScale.le, below, above.le⟩
  have first : RoundsPower scale ((argument : ℝ) / scale) argument 0 := by
    have power : (scale : ℝ) * ((argument : ℝ) / scale) ^ (2 * 0 + 1) = argument := by
      rw [Nat.mul_zero, Nat.zero_add, pow_one, exact]
    exact ⟨nonneg, power.ge, by linarith⟩
  have whole : (scale : ℝ) * Real.artanh (argument / scale) =
      argument + scale * tangentRest (argument / scale) (0 + 1) := by
    rw [← tangentRest_zero, tangentRest_eq_add, mul_add, Nat.cast_zero, Nat.mul_zero, Nat.zero_add,
      pow_one, mul_zero, zero_add, div_one, exact]
  rcases tangentTail_accuracy positive someX third squared rounds argument argument 0 result first
    (by omega) found with ⟨above, below⟩
  rw [whole]
  push_cast at above below
  exact ⟨by linarith, by linarith⟩

end FixedPoint

end PackedLedger
