import Mathlib.Algebra.Order.Ring.Int
import Mathlib.Tactic.Linarith
import PackedLedger.Number.FixedPoint
import PackedLedger.Proofs.Attempt

namespace PackedLedger

namespace FixedPoint

/-!
# The series end before their counters do

A sum ends at its first zero term, and the counter of its terms is a word.  The
power in the series of the inverse hyperbolic tangent falls by a factor of at
least nine each round when the argument is at most a third, and the term of the
exponential by a factor of at least two when the exponent is at most a half.  So
a number of rounds that such factors need to get below one bounds the counter.
-/

variable {Reason : Type} {scale : Nat}

theorem natAbs_tdiv_lt {numerator denominator : Int} {bound : Nat}
    (someDenominator : 0 < denominator.natAbs)
    (less : numerator.natAbs < bound * denominator.natAbs) :
    (numerator.tdiv denominator).natAbs < bound := by
  rw [Int.natAbs_tdiv]
  exact (Nat.div_lt_iff_lt_mul someDenominator).mpr less

/-! ## The inverse hyperbolic tangent -/

section Tangent

variable {square : Int}

/-- One round takes the power down by a factor of nine. -/
theorem natAbs_nextPower_lt (positive : 0 < scale) (small : 9 * square.natAbs ≤ scale)
    {power : Int} {bound : Nat} (bounded : power.natAbs < 9 * bound) :
    ((power * square).tdiv scale).natAbs < bound := by
  apply natAbs_tdiv_lt
  · exact positive
  · rw [Int.natAbs_mul, Int.natAbs_natCast]
    have product : power.natAbs * (9 * square.natAbs) ≤ power.natAbs * scale :=
      Nat.mul_le_mul_left _ small
    have less : power.natAbs * scale < 9 * bound * scale :=
      Nat.mul_lt_mul_of_pos_right bounded positive
    linarith

/-- The sum of the remaining terms exists. -/
theorem tangentTail_total (Reason : Type) (positive : 0 < scale)
    (small : 9 * square.natAbs ≤ scale) (rounds : Nat) :
    ∀ (power sum : Int) (count : Nat), power.natAbs < 9 ^ rounds ->
      count + 2 * rounds + 2 < Checked.wordLimit ->
      ∃ result, (tangentTail scale square power sum count : Attempt Reason Int) = .ok result := by
  induction rounds with
  | zero =>
      intro power sum count bounded fits
      have zero : power = 0 := Int.natAbs_eq_zero.mp (Nat.lt_one_iff.mp bounded)
      rw [tangentTail, if_pos (by omega), zero, Int.zero_mul, Int.zero_tdiv, Int.zero_tdiv,
        if_pos rfl]
      exact ⟨sum, rfl⟩
  | succ rounds inductionHypothesis =>
      intro power sum count bounded fits
      rw [Nat.pow_succ, Nat.mul_comm] at bounded
      have next := natAbs_nextPower_lt positive small bounded
      rw [tangentTail, if_pos (by omega)]
      dsimp only
      split
      · exact ⟨sum, rfl⟩
      · exact inductionHypothesis _ _ _ next (by omega)

/-- From a power that is not negative the terms are not negative either, and
together they come to at most an eighth of it. -/
theorem tangentTail_bounds (positive : 0 < scale) (nonneg : 0 ≤ square)
    (small : 9 * square ≤ scale) (power sum : Int) (count : Nat) (somePower : 0 ≤ power)
    {result : Int}
    (found : (tangentTail scale square power sum count : Attempt Reason Int) = .ok result) :
    sum ≤ result ∧ 8 * (result - sum) ≤ power := by
  induction power, sum, count using tangentTail.induct scale square with
  | case1 power sum count next fits term zero =>
      rw [tangentTail, if_pos fits, if_pos zero] at found
      cases found
      omega
  | case2 power sum count next fits term moves inductionHypothesis =>
      rw [tangentTail, if_pos fits, if_neg moves] at found
      have steps : (0 : Int) < scale := Int.natCast_pos.mpr positive
      have someNext : 0 ≤ next := Int.tdiv_nonneg (Int.mul_nonneg somePower nonneg) steps.le
      have falls : 9 * next ≤ power := by
        have exact : scale * next ≤ power * square :=
          Int.mul_tdiv_self_le (Int.mul_nonneg somePower nonneg)
        have product : power * (9 * square) ≤ power * scale :=
          Int.mul_le_mul_of_nonneg_left small somePower
        apply Int.le_of_mul_le_mul_right _ steps
        linarith
      have someTerm : 0 ≤ term := Int.tdiv_nonneg someNext (Int.natCast_nonneg _)
      have part : term ≤ next := Int.tdiv_le_self _ someNext
      rcases inductionHypothesis someNext found with ⟨above, below⟩
      omega
  | case3 power sum count overflow =>
      rw [tangentTail, if_neg overflow] at found
      cases found

/-- The square of an argument of at most a third is at most a ninth. -/
theorem tangentSquare_spec (positive : 0 < scale) {argument : Int} (nonneg : 0 ≤ argument)
    (small : 3 * argument ≤ scale) :
    0 ≤ (argument * argument).tdiv scale ∧ 9 * (argument * argument).tdiv scale ≤ scale := by
  have steps : (0 : Int) < scale := Int.natCast_pos.mpr positive
  have someProduct : 0 ≤ argument * argument := Int.mul_nonneg nonneg nonneg
  refine ⟨Int.tdiv_nonneg someProduct steps.le, ?_⟩
  have exact : scale * (argument * argument).tdiv scale ≤ argument * argument :=
    Int.mul_tdiv_self_le someProduct
  have product : 3 * argument * (3 * argument) ≤ scale * scale :=
    Int.mul_le_mul small small (by omega) steps.le
  apply Int.le_of_mul_le_mul_right _ steps
  linarith

theorem inverseTangent_bounds (positive : 0 < scale) {argument result : Int}
    (nonneg : 0 ≤ argument) (small : 3 * argument ≤ scale)
    (found : (inverseTangent scale argument : Attempt Reason Int) = .ok result) :
    argument ≤ result ∧ 8 * result ≤ 9 * argument := by
  rcases tangentSquare_spec positive nonneg small with ⟨someSquare, smallSquare⟩
  rcases tangentTail_bounds positive someSquare smallSquare argument argument 1 nonneg found with
    ⟨above, below⟩
  exact ⟨above, by omega⟩

/-- The inverse hyperbolic tangent of at most a third has a value.  It is at
least its argument, and exceeds it by at most an eighth. -/
theorem inverseTangent_spec (Reason : Type) {rounds : Nat} (fits : scale < 9 ^ rounds)
    (word : 2 * rounds + 3 < Checked.wordLimit) {argument : Int} (nonneg : 0 ≤ argument)
    (small : 3 * argument ≤ scale) :
    ∃ result, (inverseTangent scale argument : Attempt Reason Int) = .ok result ∧
      argument ≤ result ∧ 8 * result ≤ 9 * argument := by
  rcases Nat.eq_zero_or_pos scale with noneLeft | positive
  · have zero : argument = 0 := by omega
    subst noneLeft zero
    refine ⟨0, ?_, by omega⟩
    unfold inverseTangent tangentTail
    rfl
  rcases tangentSquare_spec positive nonneg small with ⟨someSquare, smallSquare⟩
  have smallAbs : 9 * ((argument * argument).tdiv scale).natAbs ≤ scale := by omega
  rcases tangentTail_total Reason positive smallAbs rounds argument argument 1 (by omega)
    (by omega) with ⟨result, found⟩
  exact ⟨result, found, inverseTangent_bounds positive nonneg small found⟩

end Tangent

/-! ## The exponential -/

section Exponential

variable {exponent : Int}

/-- The next term is at most the one before it over twice its index. -/
theorem natAbs_nextTerm_le (positive : 0 < scale) (small : 2 * exponent.natAbs ≤ scale)
    (term : Int) (count : Nat) :
    2 * count * ((term * exponent).tdiv ((scale * count : Nat) : Int)).natAbs ≤ term.natAbs := by
  have magnitude : ((term * exponent).tdiv ((scale * count : Nat) : Int)).natAbs =
      term.natAbs * exponent.natAbs / (scale * count) := by
    rw [Int.natAbs_tdiv, Int.natAbs_mul, Int.natAbs_natCast]
    rfl
  have quotient := Nat.div_mul_le_self (term.natAbs * exponent.natAbs) (scale * count)
  have half : term.natAbs * (2 * exponent.natAbs) ≤ term.natAbs * scale :=
    Nat.mul_le_mul_left _ small
  rw [magnitude]
  apply Nat.le_of_mul_le_mul_right _ positive
  linarith

theorem two_mul_natAbs_nextTerm_le (positive : 0 < scale) (small : 2 * exponent.natAbs ≤ scale)
    (term : Int) {count : Nat} (someCount : 0 < count) :
    2 * ((term * exponent).tdiv ((scale * count : Nat) : Int)).natAbs ≤ term.natAbs := by
  have next := natAbs_nextTerm_le positive small term count
  generalize ((term * exponent).tdiv ((scale * count : Nat) : Int)).natAbs = magnitude at next ⊢
  have once : 1 * magnitude ≤ count * magnitude := Nat.mul_le_mul_right _ someCount
  linarith

/-- The sum of the remaining terms exists. -/
theorem exponentialTail_total (Reason : Type) (positive : 0 < scale)
    (small : 2 * exponent.natAbs ≤ scale) (rounds : Nat) :
    ∀ (term sum : Int) (count : Nat), 0 < count -> term.natAbs < 2 ^ rounds ->
      count + rounds < Checked.wordLimit ->
      ∃ result, (exponentialTail scale exponent term sum count : Attempt Reason Int) =
        .ok result := by
  induction rounds with
  | zero =>
      intro term sum count someCount bounded fits
      have zero : term = 0 := Int.natAbs_eq_zero.mp (Nat.lt_one_iff.mp bounded)
      rw [exponentialTail, zero, Int.zero_mul, Int.zero_tdiv, if_pos rfl]
      exact ⟨sum, rfl⟩
  | succ rounds inductionHypothesis =>
      intro term sum count someCount bounded fits
      rw [Nat.pow_succ, Nat.mul_comm] at bounded
      have next := two_mul_natAbs_nextTerm_le positive small term someCount
      unfold exponentialTail
      dsimp only
      split
      · exact ⟨sum, rfl⟩
      · rw [if_pos (by omega)]
        exact inductionHypothesis _ _ _ (Nat.succ_pos count) (by omega) (by omega)

end Exponential

end FixedPoint

end PackedLedger
