import Mathlib.Analysis.Complex.Exponential
import Mathlib.Analysis.SpecialFunctions.Log.Basic
import PackedLedger.Proofs.LogarithmAccuracy

namespace PackedLedger

namespace FixedPoint

/-!
# The accuracy of an exponential

The terms of the exponential may have either sign, and rounding toward zero may
err in either direction.  A rounded term stays within two steps of the exact one,
because each round at least halves what went before.  So the sum is within two
steps for each round of the exact value, and a few more for the terms left out.
Seen as a logarithm, the error of the exponential is that of its sum, which is at
least half of one, and a shortfall for each octave that was taken off.
-/

/-! ## The exact series -/

noncomputable def exponentialRest (x : ℝ) (terms : Nat) : ℝ :=
  Real.exp x - ∑ i ∈ Finset.range terms, x ^ i / i.factorial

theorem exponentialRest_zero (x : ℝ) : exponentialRest x 0 = Real.exp x := by
  rw [exponentialRest, Finset.sum_range_zero, sub_zero]

theorem exponentialRest_eq_add (x : ℝ) (terms : Nat) :
    exponentialRest x terms = x ^ terms / terms.factorial + exponentialRest x (terms + 1) := by
  rw [exponentialRest, exponentialRest, Finset.sum_range_succ]
  ring

/-- The rest is at most twice the next term. -/
theorem abs_exponentialRest_le {x : ℝ} (small : |x| ≤ 1) {terms : Nat} (someTerms : 0 < terms) :
    |exponentialRest x terms| ≤ 2 * |x ^ terms / terms.factorial| := by
  have least : (1 : ℝ) ≤ terms := Nat.one_le_cast.mpr someTerms
  have factorial : (0 : ℝ) < terms.factorial := Nat.cast_pos.mpr terms.factorial_pos
  apply (Real.exp_bound small someTerms).trans
  rw [abs_div, abs_pow, abs_of_pos factorial, ← mul_div_assoc, ← mul_div_assoc,
    div_le_div_iff₀ (mul_pos factorial (by linarith)) factorial]
  have power : 0 ≤ |x| ^ terms := pow_nonneg (abs_nonneg x) terms
  have count : ((terms.succ : Nat) : ℝ) ≤ 2 * terms := by
    rw [Nat.cast_succ]
    linarith
  calc
    |x| ^ terms * (terms.succ : Nat) * terms.factorial ≤
        |x| ^ terms * (2 * terms) * terms.factorial :=
      mul_le_mul_of_nonneg_right (mul_le_mul_of_nonneg_left count power) factorial.le
    _ = 2 * |x| ^ terms * (terms.factorial * terms) := by ring

/-- A logarithm near zero is at most twice the distance from one. -/
theorem abs_log_le {ratio : ℝ} (near : |ratio - 1| ≤ 1 / 2) :
    |Real.log ratio| ≤ 2 * |ratio - 1| := by
  have least := (abs_le.mp near).1
  have positive : 0 < ratio := by linarith
  have upper := Real.log_le_sub_one_of_pos positive
  have lower := Real.one_sub_inv_le_log_of_pos positive
  have inverse : -(2 * |ratio - 1|) ≤ 1 - ratio⁻¹ := by
    have quotient : 1 - ratio⁻¹ = (ratio - 1) / ratio := by
      rw [sub_div, div_self positive.ne', one_div]
    rw [quotient, le_div_iff₀ positive]
    have distance := neg_abs_le (ratio - 1)
    nlinarith [abs_nonneg (ratio - 1)]
  have distance := le_abs_self (ratio - 1)
  have nonneg := abs_nonneg (ratio - 1)
  rw [abs_le]
  exact ⟨by linarith, by linarith⟩

/-! ## Rounded terms -/

/-- A truncated quotient is within one of the exact one. -/
theorem abs_tdiv_sub_le (numerator : Int) {denominator : Int} (positive : 0 < denominator) :
    |((numerator.tdiv denominator : Int) : ℝ) - numerator / denominator| ≤ 1 := by
  have steps : (0 : ℝ) < denominator := Int.cast_pos.mpr positive
  have rest : |numerator.tmod denominator| < denominator :=
    abs_lt.mpr ⟨Int.lt_tmod_of_pos numerator positive, Int.tmod_lt_of_pos numerator positive⟩
  have exact : (numerator : ℝ) =
      denominator * (numerator.tdiv denominator : Int) + (numerator.tmod denominator : Int) := by
    exact_mod_cast (Int.mul_tdiv_add_tmod numerator denominator).symm
  have quotient : ((numerator.tdiv denominator : Int) : ℝ) - numerator / denominator =
      -((numerator.tmod denominator : Int) / (denominator : ℝ)) := by
    rw [exact, add_div, mul_div_cancel_left₀ _ steps.ne']
    ring
  rw [quotient, abs_neg, abs_div, abs_of_pos steps, div_le_one steps]
  exact_mod_cast rest.le

/-- A rounded term of the exponential, within two steps of the exact one. -/
structure RoundsTerm (scale : Nat) (x : ℝ) (term : Int) (terms : Nat) : Prop where
  near : |(term : ℝ) - scale * (x ^ terms / terms.factorial)| ≤ 2

section Rounding

variable {scale : Nat} {exponent term : Int} {terms : Nat} (positive : 0 < scale)
  (small : 2 * exponent.natAbs ≤ scale)
include positive small

theorem abs_exponent_le : |(exponent : ℝ) / scale| ≤ 1 / 2 := by
  have steps : (0 : ℝ) < scale := Nat.cast_pos.mpr positive
  rw [abs_div, abs_of_pos steps, div_le_iff₀ steps]
  have cast : (2 : ℝ) * |(exponent : ℝ)| ≤ scale := by
    rw [← Int.cast_abs, Int.abs_eq_natAbs]
    exact_mod_cast small
  linarith

/-- One round halves the error and adds at most one step. -/
theorem RoundsTerm.next (rounds : RoundsTerm scale (exponent / scale) term terms) :
    RoundsTerm scale (exponent / scale)
      ((term * exponent).tdiv ((scale * (terms + 1) : Nat) : Int)) (terms + 1) := by
  have steps : (0 : ℝ) < scale := Nat.cast_pos.mpr positive
  have count : (1 : ℝ) ≤ (terms + 1 : Nat) := Nat.one_le_cast.mpr (Nat.succ_pos terms)
  have quotient := abs_tdiv_sub_le (term * exponent)
    (Int.natCast_pos.mpr (Nat.mul_pos positive (Nat.succ_pos terms)))
  have half := abs_exponent_le positive small
  have factor : |(exponent : ℝ) / scale / (terms + 1 : Nat)| ≤ 1 / 2 := by
    rw [abs_div, abs_of_pos (zero_lt_one.trans_le count)]
    exact (div_le_self (abs_nonneg _) count).trans half
  have product : ((term * exponent : Int) : ℝ) / ((scale * (terms + 1) : Nat) : Int) =
      term * ((exponent : ℝ) / scale / (terms + 1 : Nat)) := by
    push_cast
    field_simp
  have exact : scale * (((exponent : ℝ) / scale) ^ (terms + 1) / (terms + 1).factorial) =
      scale * (((exponent : ℝ) / scale) ^ terms / terms.factorial) *
        ((exponent : ℝ) / scale / (terms + 1 : Nat)) := by
    rw [Nat.factorial_succ, Nat.cast_mul, pow_succ]
    field_simp
  have near := rounds.near
  constructor
  rw [product] at quotient
  rw [exact]
  generalize ((exponent : ℝ) / scale / (terms + 1 : Nat)) = ratio at factor quotient ⊢
  generalize scale * (((exponent : ℝ) / scale) ^ terms / terms.factorial) = whole at near ⊢
  have carried : |(term : ℝ) * ratio - whole * ratio| ≤ 1 := by
    rw [← sub_mul, abs_mul]
    calc
      |(term : ℝ) - whole| * |ratio| ≤ 2 * (1 / 2) :=
        mul_le_mul near factor (abs_nonneg _) (by norm_num)
      _ = 1 := by norm_num
  have triangle := abs_sub_le
    (((term * exponent).tdiv ((scale * (terms + 1) : Nat) : Int) : Int) : ℝ) (term * ratio)
    (whole * ratio)
  linarith

omit positive small in
/-- One round of the series: it ends at a term that is zero, or goes on with that
term. -/
theorem exponentialTail_round {Reason : Type} {sum result : Int} {count : Nat}
    (found : (exponentialTail scale exponent term sum count : Attempt Reason Int) = .ok result) :
    (term * exponent).tdiv ((scale * count : Nat) : Int) = 0 ∧ result = sum ∨
      (term * exponent).tdiv ((scale * count : Nat) : Int) ≠ 0 ∧
        (exponentialTail scale exponent ((term * exponent).tdiv ((scale * count : Nat) : Int))
          (sum + (term * exponent).tdiv ((scale * count : Nat) : Int)) (count + 1) :
            Attempt Reason Int) = .ok result := by
  rw [exponentialTail] at found
  split at found
  · rename_i stop
    cases found
    exact .inl ⟨stop, rfl⟩
  · rename_i moves
    split at found
    · exact .inr ⟨moves, found⟩
    · cases found

/-- Where the next term is zero, the rest is at most four steps. -/
theorem RoundsTerm.rest_of_stop (rounds : RoundsTerm scale (exponent / scale) 0 (terms + 1)) :
    |scale * exponentialRest (exponent / scale) (terms + 1)| ≤ 4 := by
  have steps : (0 : ℝ) < scale := Nat.cast_pos.mpr positive
  have most : |(exponent : ℝ) / scale| ≤ 1 := (abs_exponent_le positive small).trans (by norm_num)
  have last := abs_exponentialRest_le most (Nat.succ_pos terms)
  have near := rounds.near
  rw [Int.cast_zero, zero_sub, abs_neg, abs_mul, abs_of_pos steps] at near
  rw [abs_mul, abs_of_pos steps]
  have product := mul_le_mul_of_nonneg_left last steps.le
  linarith

/-- The terms still to come add up to the exact rest, within two steps for each
round and four at the end. -/
theorem exponentialTail_accuracy {Reason : Type} (rounds : Nat) :
    ∀ (term sum : Int) (terms : Nat) (result : Int),
      RoundsTerm scale (exponent / scale) term terms -> term.natAbs < 2 ^ rounds ->
      (exponentialTail scale exponent term sum (terms + 1) : Attempt Reason Int) = .ok result ->
      |((result - sum : Int) : ℝ) - scale * exponentialRest (exponent / scale) (terms + 1)| ≤
        2 * rounds + 4 := by
  induction rounds with
  | zero =>
      intro term sum terms result rounded bounded found
      have next := rounded.next positive small
      rcases exponentialTail_round found with ⟨stop, rfl⟩ | ⟨moves, _⟩
      · rw [stop] at next
        have rest := next.rest_of_stop positive small
        rw [Int.sub_self, Int.cast_zero, zero_sub, abs_neg, Nat.cast_zero]
        linarith
      · have zero : term = 0 := Int.natAbs_eq_zero.mp (Nat.lt_one_iff.mp bounded)
        rw [zero, Int.zero_mul, Int.zero_tdiv] at moves
        exact absurd rfl moves
  | succ rounds inductionHypothesis =>
      intro term sum terms result rounded bounded found
      have next := rounded.next positive small
      have someRounds : (0 : ℝ) ≤ rounds := Nat.cast_nonneg rounds
      rcases exponentialTail_round found with ⟨stop, rfl⟩ | ⟨_, later⟩
      · rw [stop] at next
        have rest := next.rest_of_stop positive small
        rw [Int.sub_self, Int.cast_zero, zero_sub, abs_neg, Nat.cast_add_one]
        linarith
      · rw [Nat.pow_succ, Nat.mul_comm] at bounded
        have less := two_mul_natAbs_nextTerm_le positive small term (Nat.add_one_pos terms)
        have rest := inductionHypothesis _ _ (terms + 1) _ next (by omega) later
        have near := next.near
        rw [exponentialRest_eq_add, mul_add]
        rw [abs_le] at rest near ⊢
        push_cast at rest near ⊢
        exact ⟨by linarith, by linarith⟩

/-- The sum of the whole series. -/
theorem exponential_accuracy {Reason : Type} {rounds : Nat} (ends : scale < 2 ^ rounds)
    {sum : Int}
    (found : (exponentialTail scale exponent scale scale 1 : Attempt Reason Int) = .ok sum) :
    |(sum : ℝ) - scale * Real.exp (exponent / scale)| ≤ 2 * rounds + 4 := by
  have first : RoundsTerm scale ((exponent : ℝ) / scale) scale 0 := by
    constructor
    rw [pow_zero, Nat.factorial_zero, Nat.cast_one, div_one, mul_one, Int.cast_natCast, sub_self,
      abs_zero]
    norm_num
  have tail := exponentialTail_accuracy positive small rounds scale scale 0 sum first
    (by omega) found
  have whole : scale * Real.exp (exponent / scale) =
      scale + scale * exponentialRest (exponent / scale) (0 + 1) := by
    rw [← exponentialRest_zero, exponentialRest_eq_add, pow_zero, Nat.factorial_zero, Nat.cast_one,
      div_one, mul_add, mul_one]
  rw [whole, ← sub_sub]
  push_cast at tail
  exact tail

/-- The logarithm of a sum of at least four steps for each of its errors is that of
the exponential it stands for, within four times the error. -/
theorem exponential_log_accuracy {Reason : Type} {rounds : Nat} (ends : scale < 2 ^ rounds)
    (wide : 8 * rounds + 16 ≤ scale) {sum : Int}
    (found : (exponentialTail scale exponent scale scale 1 : Attempt Reason Int) = .ok sum) :
    0 < sum ∧ |scale * Real.log (sum / scale) - exponent| ≤ 8 * rounds + 16 := by
  have steps : (0 : ℝ) < scale := Nat.cast_pos.mpr positive
  have room : (8 : ℝ) * rounds + 16 ≤ scale := by exact_mod_cast wide
  have accurate := exponential_accuracy positive small ends found
  have argument : scale * ((exponent : ℝ) / scale) = exponent := mul_div_cancel₀ _ steps.ne'
  have half : 1 / 2 ≤ Real.exp ((exponent : ℝ) / scale) := by
    have least := (abs_le.mp (abs_exponent_le positive small)).1
    have line := Real.add_one_le_exp ((exponent : ℝ) / scale)
    linarith
  have logarithm := Real.log_exp ((exponent : ℝ) / scale)
  generalize Real.exp ((exponent : ℝ) / scale) = whole at accurate half logarithm
  have someWhole : 0 < whole := by linarith
  have near : scale * |(sum : ℝ) / (scale * whole) - 1| ≤ 4 * rounds + 8 := by
    rw [div_sub_one (mul_pos steps someWhole).ne', abs_div, abs_of_pos (mul_pos steps someWhole),
      ← mul_div_assoc, mul_div_mul_left _ _ steps.ne', div_le_iff₀ someWhole]
    have product := mul_le_mul_of_nonneg_left half (by positivity : (0 : ℝ) ≤ 4 * rounds + 8)
    linarith
  have smallError : |(sum : ℝ) / (scale * whole) - 1| ≤ 1 / 2 := by
    apply le_of_mul_le_mul_left _ steps
    linarith
  have someRatio : 0 < (sum : ℝ) / (scale * whole) := by
    have lower := (abs_le.mp smallError).1
    linarith
  have someSum : (0 : ℝ) < sum := by
    have product := mul_pos someRatio (mul_pos steps someWhole)
    rwa [div_mul_cancel₀ _ (mul_pos steps someWhole).ne'] at product
  have split : scale * Real.log (sum / scale) - exponent =
      scale * Real.log ((sum : ℝ) / (scale * whole)) := by
    rw [← div_div, Real.log_div (div_pos someSum steps).ne' someWhole.ne', logarithm, mul_sub,
      argument]
  rw [split, abs_mul, abs_of_pos steps]
  have error := mul_le_mul_of_nonneg_left (abs_log_le smallError) steps.le
  exact ⟨Int.cast_pos.mp someSum, by linarith⟩

end Rounding

/-! ## Factors on a grid -/

namespace Grid

variable {grid : Grid} {rounds : Nat}

theorem cast_value (grid : Grid) (steps : Int) :
    ((grid.value steps : Rat) : ℝ) = steps / grid.scale := by
  rw [value, Rat.mkRat_eq_div]
  push_cast
  rfl

theorem log_moved {sum : Int} (someSum : 0 < sum) (octaves : Nat) :
    Real.log (moved sum octaves / grid.scale) =
      Real.log (sum / grid.scale) + octaves * Real.log 2 := by
  have steps : (0 : ℝ) < grid.scale := Nat.cast_pos.mpr grid.scale_pos
  have ratio : (sum : ℝ) / grid.scale ≠ 0 := (div_pos (Int.cast_pos.mpr someSum) steps).ne'
  rw [moved_natCast, Int.cast_mul, Int.cast_pow, Int.cast_ofNat, mul_div_right_comm,
    Real.log_mul ratio (by positivity), Real.log_pow]

/-- The logarithm of a factor is its number of steps, within a shortfall for each
octave that was taken off and the error of the sum. -/
theorem exp_accuracy {Reason : Type} (third : grid.HasThird) (ends : grid.scale < 9 ^ rounds)
    (wide : 32 * rounds + 16 ≤ grid.scale) {steps : Int} (nonneg : 0 ≤ steps) {factor : Int}
    (found : (grid.exp steps : Attempt Reason Int) = .ok factor) :
    ∃ octaves : Nat, 2 * octaves * grid.ln2 ≤ 2 * steps + grid.ln2 ∧ 0 < factor ∧
      |grid.scale * Real.log (factor / grid.scale) - steps| ≤
        octaves * shortfall rounds + (32 * rounds + 16) := by
  rcases third.ln2_bounds (by omega) with ⟨someLn2, part⟩
  rcases exp_spec Reason someLn2 steps with ⟨⟨multiple, rest⟩, exact, above, below, foundIff⟩
  dsimp only at exact above below foundIff
  rcases (foundIff factor).mp found with ⟨sum, foundSum, rfl⟩
  have least : 0 ≤ multiple := by
    apply Int.not_lt.mp
    intro negative
    have product : multiple * grid.ln2 ≤ -1 * grid.ln2 :=
      Int.mul_le_mul_of_nonneg_right (by omega) someLn2.le
    omega
  rcases Int.eq_ofNat_of_zero_le least with ⟨octaves, rfl⟩
  have bits : grid.scale < 2 ^ (4 * rounds) := by
    rw [Nat.pow_mul]
    exact Nat.lt_of_lt_of_le ends (Nat.pow_le_pow_left (by decide) rounds)
  have positive := grid.scale_pos
  rcases exponential_log_accuracy positive (by omega) bits (by omega) foundSum with
    ⟨someSum, error⟩
  rcases third.ln2_accuracy ends with ⟨ln2Le, leLn2⟩
  have someOctaves : (0 : ℝ) ≤ octaves := Nat.cast_nonneg octaves
  have lower := mul_le_mul_of_nonneg_left ln2Le someOctaves
  have upper := mul_le_mul_of_nonneg_left leLn2 someOctaves
  refine ⟨octaves, by linarith, ?_, ?_⟩
  · rw [moved_natCast]
    positivity
  · rw [log_moved someSum, exact]
    rw [abs_le] at error ⊢
    push_cast at error ⊢
    exact ⟨by linarith, by linarith⟩

end Grid

end FixedPoint

end PackedLedger
