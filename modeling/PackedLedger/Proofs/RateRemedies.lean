import PackedLedger.Allocation.Basic
import PackedLedger.Proofs.Coherence
import PackedLedger.Proofs.Logarithm

namespace PackedLedger

/-!
# The remedies for the rate ceiling help

An allocation whose largest yield is too small is told to give its index more bits or
fewer digits, or its timestamp fewer bits.  The first two raise the growth of the index,
the last one shortens the horizon that its logarithm is spread over.  Growth and years
are fractions in lowest terms, and every width gives them another numerator and another
denominator.  But a logarithm on the grid keeps the order of its arguments, however they
are written, and a logarithm that is not negative is divided by the years as the exact
quotient rounded down.  So no remedy lowers the rate, alone or with the others.
-/

namespace FixedPoint

namespace Grid

/-- A logarithm that is not negative, spread over the years and rounded toward zero, is
the exact quotient rounded down. -/
theorem rate_eq_floor {logarithm : Int} (nonneg : 0 ≤ logarithm) {years : Rat}
    (ahead : 0 < years) :
    (logarithm * years.den).tdiv years.num = ⌊(logarithm : Rat) / years⌋ := by
  have someNum : 0 < years.num := Rat.num_pos.mpr ahead
  have steps : (0 : Rat) < years.num := Int.cast_pos.mpr someNum
  have exact : (logarithm : Rat) / years = ((logarithm * years.den : Int) : Rat) / years.num := by
    rw [Int.cast_mul, Int.cast_natCast, ← div_div_eq_mul_div, Rat.num_div_den]
  rw [exact, Int.tdiv_eq_ediv_of_nonneg (Int.mul_nonneg nonneg (Int.natCast_nonneg _)), eq_comm,
    Int.floor_eq_iff, le_div_iff₀ steps, div_lt_iff₀ steps]
  have below := Int.ediv_mul_le (logarithm * years.den) someNum.ne'
  have above := Int.lt_ediv_add_one_mul_self (logarithm * years.den) someNum
  exact ⟨by exact_mod_cast below, by exact_mod_cast above⟩

theorem rate_mono {low high : Int} (nonneg : 0 ≤ low) (ordered : low ≤ high)
    {shorter longer : Rat} (ahead : 0 < shorter) (sooner : shorter ≤ longer) :
    (low * longer.den).tdiv longer.num ≤ (high * shorter.den).tdiv shorter.num := by
  have logarithms : (low : Rat) ≤ high := Int.cast_le.mpr ordered
  have someHigh : (0 : Rat) ≤ high := Int.cast_nonneg (nonneg.trans ordered)
  rw [rate_eq_floor nonneg (ahead.trans_le sooner), rate_eq_floor (nonneg.trans ordered) ahead]
  exact Int.floor_le_floor (div_le_div₀ someHigh logarithms ahead sooner)

end Grid

end FixedPoint

open FixedPoint

/-! ## Constants and horizons after a remedy -/

/-- The constants and the horizon that a largest yield is made of, beside those after
some of the remedies: the index starts no higher and ends no lower, and no more years
are left. -/
structure EasesRate (eased scaling : Scaling) (shorter horizon : Horizon) : Prop where
  positive : 0 < eased.initialIndex
  initial : eased.initialIndex ≤ scaling.initialIndex
  rises : scaling.initialIndex ≤ scaling.largestIndex
  largest : scaling.largestIndex ≤ eased.largestIndex
  ahead : 0 < shorter.years
  sooner : shorter.years ≤ horizon.years

namespace EasesRate

variable {eased scaling : Scaling} {shorter horizon : Horizon}
  (eases : EasesRate eased scaling shorter horizon)

include eases

theorem one_le_growth : 1 ≤ scaling.indexGrowth := by
  have someInitial : (0 : Rat) < scaling.initialIndex :=
    Nat.cast_pos.mpr (eases.positive.trans_le eases.initial)
  rw [Scaling.indexGrowth, one_le_div someInitial]
  exact Nat.cast_le.mpr eases.rises

theorem growth_le : scaling.indexGrowth ≤ eased.indexGrowth :=
  div_le_div₀ (Nat.cast_nonneg _) (Nat.cast_le.mpr eases.largest)
    (Nat.cast_pos.mpr eases.positive) (Nat.cast_le.mpr eases.initial)

/-- The rate is not negative, and after the remedies it is at least as large. -/
theorem apr_le {digits : Nat} {grid : Grid}
    (gridFound : (Grid.ofDigits digits : Verdict Grid) = .ok grid)
    {largest better : LargestYield} (found : largestYield scaling horizon grid = .ok largest)
    (easedFound : largestYield eased shorter grid = .ok better) :
    0 ≤ largest.apr ∧ largest.apr ≤ better.apr := by
  rcases Grid.ofDigits_eq_ok gridFound with ⟨_, third⟩
  have someInitial := eases.positive.trans_le eases.initial
  have someYears := eases.ahead.trans_le eases.sooner
  rcases (largestYield_eq_ok someInitial someYears).mp found with
    ⟨logarithm, _, foundLogarithm, _, rfl⟩
  rcases (largestYield_eq_ok eases.positive eases.ahead).mp easedFound with
    ⟨larger, _, foundLarger, _, rfl⟩
  have nonneg : 0 ≤ logarithm :=
    Grid.ln_mono third zero_lt_one eases.one_le_growth grid.ln_one foundLogarithm
  have ordered : logarithm ≤ larger :=
    Grid.ln_mono third (zero_lt_one.trans_le eases.one_le_growth) eases.growth_le foundLogarithm
      foundLarger
  constructor
  · have rateNonneg : 0 ≤ (logarithm * horizon.years.den).tdiv horizon.years.num :=
      Int.tdiv_nonneg (Int.mul_nonneg nonneg (Int.natCast_nonneg _)) (Rat.num_pos.mpr someYears).le
    have valueNonneg := grid.value_mono rateNonneg
    rwa [Grid.value, Rat.zero_mkRat] at valueNonneg
  · exact grid.value_mono (Grid.rate_mono nonneg ordered eases.ahead eases.sooner)

/-- Both yields exist on a grid of a million digits or fewer. -/
theorem exists_yields {digits : Nat} (few : digits ≤ 10 ^ 6) :
    ∃ grid largest better, (Grid.ofDigits digits : Verdict Grid) = .ok grid ∧
      largestYield scaling horizon grid = .ok largest ∧
      largestYield eased shorter grid = .ok better := by
  rcases Grid.ofDigits_sound Rejection few with ⟨grid, gridFound, sound⟩
  have someInitial := eases.positive.trans_le eases.initial
  have someLargest := someInitial.trans_le eases.rises
  rcases largestYield_total sound someInitial someLargest (eases.ahead.trans_le eases.sooner) with
    ⟨largest, found⟩
  rcases largestYield_total sound eases.positive (someLargest.trans_le eases.largest)
    eases.ahead with ⟨better, easedFound⟩
  exact ⟨grid, largest, better, gridFound, found, easedFound⟩

end EasesRate

/-! ## Widths and digits -/

/-- A timestamp with fewer bits leaves no more years. -/
theorem Horizon.years_mono {fewer bits now : Nat} {parameters : Parameters}
    {shorter horizon : Horizon} (narrower : fewer ≤ bits)
    (found : ofBits bits now parameters = .ok horizon)
    (stillFound : ofBits fewer now parameters = .ok shorter) : shorter.years ≤ horizon.years := by
  rcases Attempt.bind_eq_ok.mp found with ⟨_, sound, _⟩
  rcases (ofBits_eq_ok sound).mp found with ⟨_, _, rfl⟩
  rcases (ofBits_eq_ok sound).mp stillFound with ⟨_, _, rfl⟩
  have seconds : fieldMaximum fewer - now ≤ fieldMaximum bits - now :=
    Nat.sub_le_sub_right (fieldMaximum_mono narrower) now
  simp only [left, Rat.divInt_eq_div, Int.cast_natCast]
  exact div_le_div_of_nonneg_right (Nat.cast_le.mpr seconds) (Nat.cast_nonneg _)

section Allocation

variable {allocation eased : Allocation} {index easedIndex : Field} {scaling easedScaling : Scaling}
  {bits fewer now : Nat} {parameters : Parameters} {horizon shorter : Horizon}

theorem easesRate_of_fields (oneIndex : allocation.withRole .borrowIndex = [index])
    (oneEased : eased.withRole .borrowIndex = [easedIndex])
    (constants : Scaling.ofAllocation allocation = .ok scaling)
    (easedConstants : Scaling.ofAllocation eased = .ok easedScaling)
    (lasting : Horizon.ofBits bits now parameters = .ok horizon)
    (stillLasting : Horizon.ofBits fewer now parameters = .ok shorter)
    (wider : index.bits ≤ easedIndex.bits) (coarser : easedIndex.digits ≤ index.digits)
    (narrower : fewer ≤ bits) (rises : scaling.initialIndex ≤ scaling.largestIndex) :
    EasesRate easedScaling scaling shorter horizon := by
  refine ⟨Scaling.initialIndex_pos easedConstants, ?_, rises, ?_,
    Horizon.years_pos stillLasting, Horizon.years_mono narrower lasting stillLasting⟩
  · rcases Scaling.ofAllocation_eq_ok.mp constants with ⟨same, _, _, oneSame, _, _, _, rfl⟩
    rcases Scaling.ofAllocation_eq_ok.mp easedConstants with ⟨also, _, _, oneAlso, _, _, _, rfl⟩
    cases oneIndex.symm.trans oneSame
    cases oneEased.symm.trans oneAlso
    exact Nat.pow_le_pow_right (by decide) coarser
  · rw [Scaling.largestIndex_eq constants oneIndex,
      Scaling.largestIndex_eq easedConstants oneEased]
    exact fieldMaximum_mono wider

/-- With at least as many bits and at most as many digits for the index, and at most as
many bits for the timestamp, an index that ends no lower than it starts has a largest
rate that is not negative and at least as large as before.  Both largest yields exist up
to a million digits, and the order holds on every grid that can be built. -/
theorem remedies_never_lower_largest_rate
    (oneIndex : allocation.withRole .borrowIndex = [index])
    (oneEased : eased.withRole .borrowIndex = [easedIndex])
    (constants : Scaling.ofAllocation allocation = .ok scaling)
    (easedConstants : Scaling.ofAllocation eased = .ok easedScaling)
    (lasting : Horizon.ofBits bits now parameters = .ok horizon)
    (stillLasting : Horizon.ofBits fewer now parameters = .ok shorter)
    (wider : index.bits ≤ easedIndex.bits) (coarser : easedIndex.digits ≤ index.digits)
    (narrower : fewer ≤ bits) (rises : scaling.initialIndex ≤ scaling.largestIndex) :
    (∀ digits ≤ 10 ^ 6, ∃ grid largest better,
      (Grid.ofDigits digits : Verdict Grid) = .ok grid ∧
        largestYield scaling horizon grid = .ok largest ∧
        largestYield easedScaling shorter grid = .ok better) ∧
    ∀ digits grid largest better, (Grid.ofDigits digits : Verdict Grid) = .ok grid ->
      largestYield scaling horizon grid = .ok largest ->
      largestYield easedScaling shorter grid = .ok better ->
      0 ≤ largest.apr ∧ largest.apr ≤ better.apr := by
  have eases := easesRate_of_fields oneIndex oneEased constants easedConstants lasting
    stillLasting wider coarser narrower rises
  constructor
  · intro digits few
    exact eases.exists_yields few
  · intro digits grid largest better gridFound found easedFound
    exact eases.apr_le gridFound found easedFound

/-- The first generation with an index of 88 bits and 9 digits and a timestamp of 31
bits has a largest rate at least as large as before. -/
theorem remedies_never_lower_largest_rate_first_generation :
    ∃ grid horizon shorter scaling easedScaling largest better,
      (Grid.ofDigits 60 : Verdict Grid) = .ok grid ∧
      Horizon.ofBits 32 1700000000 {} = .ok horizon ∧
      Horizon.ofBits 31 1700000000 {} = .ok shorter ∧
      Scaling.ofAllocation Generation.v1.allocation = .ok scaling ∧
      Scaling.ofAllocation (Generation.v1.allocation.changeField "borrowIndex" fun index =>
        { index with bits := 88, precision := some 9 }) = .ok easedScaling ∧
      largestYield scaling horizon grid = .ok largest ∧
      largestYield easedScaling shorter grid = .ok better ∧
      0 ≤ largest.apr ∧ largest.apr ≤ better.apr := by
  have computed :
      Attempt.Holds (Horizon.ofBits 32 1700000000 {}) fun horizon =>
        Attempt.Holds (Horizon.ofBits 31 1700000000 {}) fun shorter =>
        Attempt.Holds (Scaling.ofAllocation Generation.v1.allocation) fun scaling =>
        Attempt.Holds (Scaling.ofAllocation (Generation.v1.allocation.changeField "borrowIndex"
          fun index => { index with bits := 88, precision := some 9 })) fun easedScaling =>
        Attempt.Holds (Generation.v1.allocation.requireRole .borrowIndex) fun index =>
        Attempt.Holds ((Generation.v1.allocation.changeField "borrowIndex" fun index =>
          { index with bits := 88, precision := some 9 }).requireRole .borrowIndex)
            fun easedIndex => (index.bits ≤ easedIndex.bits ∧ easedIndex.digits ≤ index.digits) ∧
              scaling.initialIndex ≤ scaling.largestIndex := by
    decide +kernel
  rcases computed with ⟨horizon, lasting, shorter, stillLasting, scaling, constants,
    easedScaling, easedConstants, index, oneIndex, easedIndex, oneEased, ⟨wider, coarser⟩,
    rises⟩
  rcases remedies_never_lower_largest_rate (Allocation.requireRole_eq_ok.mp oneIndex)
    (Allocation.requireRole_eq_ok.mp oneEased) constants easedConstants lasting stillLasting
    wider coarser (by decide) rises with ⟨exist, ordered⟩
  rcases exist 60 (by decide) with ⟨grid, largest, better, gridFound, found, easedFound⟩
  exact ⟨grid, horizon, shorter, scaling, easedScaling, largest, better, gridFound, lasting,
    stillLasting, constants, easedConstants, found, easedFound,
    ordered 60 grid largest better gridFound found easedFound⟩

end Allocation

end PackedLedger
