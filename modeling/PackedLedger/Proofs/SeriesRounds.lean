import Mathlib.Algebra.BigOperators.Group.Finset.Basic
import Mathlib.Order.Bounds.Basic
import PackedLedger.Proofs.Logarithm

namespace PackedLedger

namespace FixedPoint

/-!
# The rounds of the series

Neither series has a bound of its own.  The terms of its rounds are sequences of integers,
given by the argument alone, and a loop ends in the first round whose term is zero, with the
sum of the terms before it.  It breaks off only if its counter leaves the word before that
round.  There always is such a round: truncation takes at least one step off every power
below the scale, and at least half of every term of an exponential.  And for the arguments
that a logarithm and an exponential come to, it lies well inside the word.
-/

variable {Reason : Type} {scale : Nat} {argument exponent : Int}

/-! ## Sequences that fall to zero -/

/-- The magnitude falls by at least one in each round until it is zero. -/
def Falls (term : Nat -> Int) : Prop :=
  ∀ round, term round ≠ 0 -> (term (round + 1)).natAbs < (term round).natAbs

/-- The first round after the start whose term is zero. -/
def EndsIn (term : Nat -> Int) (last : Nat) : Prop :=
  IsLeast {round | 0 < round ∧ term round = 0} last

/-- A sequence that falls comes to zero, since each round takes a step off its magnitude. -/
theorem Falls.exists_zero {term : Nat -> Int} (falls : Falls term) : ∃ round, term round = 0 := by
  by_contra noneZero
  have nonzero : ∀ round, term round ≠ 0 := fun round zero => noneZero ⟨round, zero⟩
  have bound : ∀ round, (term round).natAbs + round ≤ (term 0).natAbs := by
    intro round
    induction round with
    | zero => exact le_refl _
    | succ round inductionHypothesis =>
        have less := falls round (nonzero round)
        omega
  have beyond := bound ((term 0).natAbs + 1)
  omega

theorem Falls.exists_endsIn {power term : Nat -> Int} (falls : Falls power)
    (nothing : ∀ round, power round = 0 -> term (round + 1) = 0) : ∃ last, EndsIn term last := by
  classical
  rcases falls.exists_zero with ⟨round, zero⟩
  have someRound : ∃ round, 0 < round ∧ term round = 0 :=
    ⟨round + 1, Nat.succ_pos round, nothing round zero⟩
  exact ⟨Nat.find someRound, Nat.find_spec someRound,
    fun _ ends => Nat.find_min' someRound ends⟩

theorem EndsIn.ne_zero {term : Nat -> Int} {last round : Nat} (ends : EndsIn term last)
    (later : 0 < round) (earlier : round < last) : term round ≠ 0 :=
  fun zero => Nat.not_lt_of_le (ends.2 ⟨later, zero⟩) earlier

theorem met_of_ite_breakDown {Value : Type} {condition : Prop} [Decidable condition]
    {value result : Value} {step : Breakdown}
    (found : (if condition then .ok value else .breakDown step : Attempt Reason Value) =
      .ok result) : condition := by
  by_contra unmet
  rw [if_neg unmet] at found
  cases found

/-! ## The inverse hyperbolic tangent -/

/-- The power of the argument that a round makes its term of. -/
def tangentPower (scale : Nat) (argument : Int) : Nat -> Int
  | 0 => argument
  | round + 1 =>
    (tangentPower scale argument round * (argument * argument).tdiv scale).tdiv scale

def tangentTerm (scale : Nat) (argument : Int) (round : Nat) : Int :=
  (tangentPower scale argument round).tdiv ((2 * round + 1 : Nat) : Int)

/-- After some rounds the loop has added their terms, and goes on to the last round or to the
end of its word. -/
theorem tangentTail_eq (Reason : Type) {last : Nat}
    (ends : EndsIn (tangentTerm scale argument) last) (rest : Nat) :
    ∀ round, round + 1 + rest = last ->
      (tangentTail scale ((argument * argument).tdiv scale) (tangentPower scale argument round)
          (∑ earlier ∈ Finset.range (round + 1), tangentTerm scale argument earlier)
          (2 * round + 1) : Attempt Reason Int) =
        if 2 * last + 1 < Checked.wordLimit then
          .ok (∑ earlier ∈ Finset.range last, tangentTerm scale argument earlier)
        else .breakDown .wordOverflow := by
  -- The counter of a round is twice its number and one.  The induction is on the rounds left.
  have sameTerm : ∀ round, ((tangentPower scale argument round *
      (argument * argument).tdiv scale).tdiv scale).tdiv ((2 * round + 1 + 2 : Nat) : Int) =
        tangentTerm scale argument (round + 1) := fun _ => rfl
  induction rest with
  | zero =>
      intro round same
      have zero : tangentTerm scale argument (round + 1) = 0 := by
        rw [show round + 1 = last from same]
        exact ends.1.2
      rw [tangentTail, sameTerm, zero, if_pos rfl, ← same]
      rfl
  | succ rest inductionHypothesis =>
      intro round same
      have moves : tangentTerm scale argument (round + 1) ≠ 0 :=
        ends.ne_zero (Nat.succ_pos round) (by omega)
      rw [tangentTail, sameTerm, if_neg moves, ← Finset.sum_range_succ]
      by_cases fits : 2 * round + 1 + 2 < Checked.wordLimit
      · rw [if_pos fits]
        exact inductionHypothesis (round + 1) (by omega)
      · rw [if_neg fits, if_neg (by omega)]

/-- The inverse hyperbolic tangent is the sum of its terms up to the first that is zero, as
far as the counter goes. -/
theorem inverseTangent_eq {last : Nat} (ends : EndsIn (tangentTerm scale argument) last) :
    (inverseTangent scale argument : Attempt Reason Int) =
      if 2 * last + 1 < Checked.wordLimit then
        .ok (∑ round ∈ Finset.range last, tangentTerm scale argument round)
      else .breakDown .wordOverflow := by
  have first : tangentTerm scale argument 0 = argument := Int.tdiv_one argument
  have later := ends.1.1
  have run := tangentTail_eq Reason ends (last - 1) 0 (by omega)
  rw [Finset.sum_range_one, first] at run
  exact run

theorem natAbs_tangentSquare_lt (small : argument.natAbs < scale) :
    ((argument * argument).tdiv scale).natAbs < scale := by
  apply natAbs_tdiv_lt (Nat.zero_lt_of_lt small)
  rw [Int.natAbs_mul, Int.natAbs_natCast]
  exact Nat.mul_lt_mul'' small small

theorem tangentPower_falls (small : argument.natAbs < scale) :
    Falls (tangentPower scale argument) := by
  intro round nonzero
  have square := natAbs_tangentSquare_lt small
  apply natAbs_tdiv_lt (Nat.zero_lt_of_lt small)
  rw [Int.natAbs_mul, Int.natAbs_natCast]
  exact Nat.mul_lt_mul_of_pos_left square (Int.natAbs_pos.mpr nonzero)

theorem tangentPower_succ_of_zero {round : Nat} (zero : tangentPower scale argument round = 0) :
    tangentPower scale argument (round + 1) = 0 := by
  rw [tangentPower, zero, Int.zero_mul, Int.zero_tdiv]

theorem natAbs_tangentPower_succ_le (small : argument.natAbs < scale) (round : Nat) :
    (tangentPower scale argument (round + 1)).natAbs ≤
      (tangentPower scale argument round).natAbs := by
  by_cases zero : tangentPower scale argument round = 0
  · rw [tangentPower_succ_of_zero zero, zero]
  · exact (tangentPower_falls small round zero).le

theorem exists_tangent_last (small : argument.natAbs < scale) :
    ∃ last, EndsIn (tangentTerm scale argument) last := by
  apply (tangentPower_falls small).exists_endsIn
  intro round zero
  rw [tangentTerm, tangentPower_succ_of_zero zero, Int.zero_tdiv]

/-! ## The exponential -/

/-- The term of a round of the exponential. -/
def exponentialTerm (scale : Nat) (exponent : Int) : Nat -> Int
  | 0 => scale
  | round + 1 =>
    (exponentialTerm scale exponent round * exponent).tdiv ((scale * (round + 1) : Nat) : Int)

/-- The loop of an exponential goes on in the same way, with the round for its counter. -/
theorem exponentialTail_eq (Reason : Type) {last : Nat}
    (ends : EndsIn (exponentialTerm scale exponent) last) (rest : Nat) :
    ∀ round, round + 1 + rest = last -> round + 1 < Checked.wordLimit ->
      (exponentialTail scale exponent (exponentialTerm scale exponent round)
          (∑ earlier ∈ Finset.range (round + 1), exponentialTerm scale exponent earlier)
          (round + 1) : Attempt Reason Int) =
        if last < Checked.wordLimit then
          .ok (∑ earlier ∈ Finset.range last, exponentialTerm scale exponent earlier)
        else .breakDown .wordOverflow := by
  have sameTerm : ∀ round, (exponentialTerm scale exponent round * exponent).tdiv
      ((scale * (round + 1) : Nat) : Int) = exponentialTerm scale exponent (round + 1) :=
    fun _ => rfl
  induction rest with
  | zero =>
      intro round same within
      have zero : exponentialTerm scale exponent (round + 1) = 0 := by
        rw [show round + 1 = last from same]
        exact ends.1.2
      rw [exponentialTail, sameTerm, zero, if_pos rfl, ← same, if_pos within]
  | succ rest inductionHypothesis =>
      intro round same within
      have moves : exponentialTerm scale exponent (round + 1) ≠ 0 :=
        ends.ne_zero (Nat.succ_pos round) (by omega)
      rw [exponentialTail, sameTerm, if_neg moves, ← Finset.sum_range_succ]
      by_cases fits : round + 1 + 1 < Checked.wordLimit
      · rw [if_pos fits]
        exact inductionHypothesis (round + 1) (by omega) fits
      · rw [if_neg fits, if_neg (by omega)]

/-- The series of an exponential is the sum of its terms up to the first that is zero, as far
as the counter goes. -/
theorem exponentialTail_eq_sum (Reason : Type) {last : Nat}
    (ends : EndsIn (exponentialTerm scale exponent) last) :
    (exponentialTail scale exponent scale scale 1 : Attempt Reason Int) =
      if last < Checked.wordLimit then
        .ok (∑ round ∈ Finset.range last, exponentialTerm scale exponent round)
      else .breakDown .wordOverflow := by
  have later := ends.1.1
  have run := exponentialTail_eq Reason ends (last - 1) 0 (by omega) (by decide)
  rw [Finset.sum_range_one] at run
  exact run

theorem exponentialTerm_falls (positive : 0 < scale) (small : 2 * exponent.natAbs ≤ scale) :
    Falls (exponentialTerm scale exponent) := by
  intro round nonzero
  have half : 2 * (exponentialTerm scale exponent (round + 1)).natAbs ≤
      (exponentialTerm scale exponent round).natAbs :=
    two_mul_natAbs_nextTerm_le positive small _ (Nat.succ_pos round)
  have someTerm := Int.natAbs_pos.mpr nonzero
  omega

theorem exists_exponential_last (positive : 0 < scale) (small : 2 * exponent.natAbs ≤ scale) :
    ∃ last, EndsIn (exponentialTerm scale exponent) last := by
  apply (exponentialTerm_falls positive small).exists_endsIn
  intro round zero
  rw [exponentialTerm, zero, Int.zero_mul, Int.zero_tdiv]

/-! ## A grid -/

/-- How the loop of the inverse hyperbolic tangent ends. -/
structure TangentEnds (Reason : Type) (scale : Nat) (argument : Int) (last : Nat) : Prop where
  never_grows : ∀ round, (tangentPower scale argument (round + 1)).natAbs ≤
    (tangentPower scale argument round).natAbs
  falls : Falls (tangentPower scale argument)
  /-- The last round is the first whose term is zero. -/
  ends : EndsIn (tangentTerm scale argument) last
  /-- The loop comes to its last round unless the counter leaves the word before. -/
  sum : (inverseTangent scale argument : Attempt Reason Int) =
    if 2 * last + 1 < Checked.wordLimit then
      .ok (∑ round ∈ Finset.range last, tangentTerm scale argument round)
    else .breakDown .wordOverflow
  word : 3 * argument.natAbs ≤ scale -> 2 * last + 1 < Checked.wordLimit

namespace Grid

variable {grid : Grid}

/-- How the loop of an exponential ends, after the reduction of its exponent. -/
structure ExponentialEnds (Reason : Type) (grid : Grid) (steps : Int) (reduced : Reduced)
    (last : Nat) : Prop where
  found : (grid.reduce steps : Attempt Reason Reduced) = .ok reduced
  exact : steps = reduced.multiple * grid.ln2 + reduced.rest
  above : -grid.ln2 ≤ 2 * reduced.rest
  below : 2 * reduced.rest < grid.ln2
  falls : Falls (exponentialTerm grid.scale reduced.rest)
  ends : EndsIn (exponentialTerm grid.scale reduced.rest) last
  word : last < Checked.wordLimit
  sum : (grid.exp steps : Attempt Reason Int) =
    .ok (moved (∑ round ∈ Finset.range last, exponentialTerm grid.scale reduced.rest round)
      reduced.multiple)

/-- Both series of a grid end, that of an exponential after every reduction and that of a
logarithm for every argument below the scale. -/
structure SeriesEnd (Reason : Type) (grid : Grid) : Prop where
  ln2_pos : 0 < grid.ln2
  ln2_lt_scale : grid.ln2 < grid.scale
  exponential : ∀ steps, ∃ reduced last, grid.ExponentialEnds Reason steps reduced last
  tangent : ∀ argument : Int, argument.natAbs < grid.scale ->
    ∃ last, TangentEnds Reason grid.scale argument last

/-- An argument of at most a third, of either sign, ends its series within the word. -/
theorem tangent_word (sound : grid.Sound) {argument : Int}
    (third : 3 * argument.natAbs ≤ grid.scale) {last : Nat}
    (ends : EndsIn (tangentTerm grid.scale argument) last) :
    2 * last + 1 < Checked.wordLimit := by
  rcases sound.ends with ⟨rounds, within, word⟩
  have square : 9 * ((argument * argument).tdiv grid.scale).natAbs ≤ grid.scale := by
    have magnitude : (0 : Int) ≤ argument.natAbs := Int.natCast_nonneg _
    rcases tangentSquare_spec grid.scale_pos magnitude (by omega) with ⟨nonneg, ninth⟩
    rw [Int.natAbs_mul_self'] at nonneg ninth
    omega
  rcases tangentTail_total Rejection grid.scale_pos square rounds argument argument 1 (by omega)
    (by omega) with ⟨result, found⟩
  exact met_of_ite_breakDown ((inverseTangent_eq ends).symm.trans found)

theorem tangent_ends (Reason : Type) (sound : grid.Sound) {argument : Int}
    (small : argument.natAbs < grid.scale) :
    ∃ last, TangentEnds Reason grid.scale argument last := by
  rcases exists_tangent_last small with ⟨last, ends⟩
  exact ⟨last, natAbs_tangentPower_succ_le small, tangentPower_falls small, ends,
    inverseTangent_eq ends, fun third => tangent_word sound third ends⟩

theorem exponential_ends (Reason : Type) (sound : grid.Sound) (steps : Int) :
    ∃ reduced last, grid.ExponentialEnds Reason steps reduced last := by
  rcases reduce_spec Reason sound.ln2_pos steps with ⟨reduced, found, exact, above, below⟩
  have part := sound.ln2_le
  have small : 2 * reduced.rest.natAbs ≤ grid.scale := by omega
  rcases exists_exponential_last grid.scale_pos small with ⟨last, ends⟩
  rcases exponentialTail_of_sound Reason sound small with ⟨sum, foundSum⟩
  have run := exponentialTail_eq_sum Reason ends
  have inside : last < Checked.wordLimit := met_of_ite_breakDown (run.symm.trans foundSum)
  rw [if_pos inside] at run
  refine ⟨reduced, last, found, exact, above, below, exponentialTerm_falls grid.scale_pos small,
    ends, inside, ?_⟩
  cases shift : reduced.multiple <;> simp [exp, found, run, shift, moved]

/-- Up to a million digits there is a grid, and both of its series end. -/
theorem ofDigits_series_end (Reason : Type) {digits : Nat} (few : digits ≤ 10 ^ 6) :
    ∃ grid, (ofDigits digits : Attempt Reason Grid) = .ok grid ∧ grid.SeriesEnd Reason := by
  rcases ofDigits_sound Reason few with ⟨grid, found, sound⟩
  have part := sound.ln2_le
  have someScale := grid.scale_pos
  exact ⟨grid, found, sound.ln2_pos, by omega, exponential_ends Reason sound,
    fun _ => tangent_ends Reason sound⟩

theorem ofDigits_series_end_million :
    ∃ grid, (ofDigits 1000000 : Verdict Grid) = .ok grid ∧ grid.SeriesEnd Rejection :=
  ofDigits_series_end Rejection (by decide : 1000000 ≤ 10 ^ 6)

end Grid

end FixedPoint

end PackedLedger
