import Mathlib.Analysis.SpecialFunctions.Log.Basic
import PackedLedger.Allocation.Basic
import PackedLedger.Proofs.ExponentialAccuracy
import PackedLedger.Proofs.Requirements
import PackedLedger.Proofs.YieldSign

namespace PackedLedger

/-!
# The verdict on a largest yield is right

A largest yield is compared with a floor after a logarithm, a quotient and an
exponential, and each of the three rounds.  Seen as logarithms their errors add
up: a shortfall for each octave of the growth, once in the logarithm and once in
the exponential, a step for the quotient, and the error of one sum.  Ten guard
digits hold all of this for an index of 65536 bits and fewer, to one part in
10^20.  So a yield above the floor comes from a growth that really reaches the
floor over the horizon, and a yield that is refused comes from one that really
stays within it, but for that part.
-/

namespace FixedPoint

/-! ## The errors together -/

/-- The steps by which the logarithm of a largest yield may be off. -/
def yieldError (rounds bits : Nat) : Nat :=
  2 * bits * shortfall rounds + (32 * rounds + 17)

/-- From twenty digits on the guard digits hold twice the error twenty places
down. -/
theorem yieldError_le {digits bits : Nat} (enough : 20 ≤ digits) (narrow : bits ≤ 65536) :
    2 * 10 ^ 20 * yieldError (2 * (digits + guardDigits)) bits ≤
      powerOfTen (digits + guardDigits) := by
  rcases Nat.exists_eq_add_of_le enough with ⟨further, rfl⟩
  have linear : yieldError (2 * (20 + further + guardDigits)) bits ≤ 10 ^ 8 * (further + 1) := by
    unfold yieldError shortfall guardDigits
    have wide := Nat.mul_le_mul_right (10 * (2 * (20 + further + 10)) + 14)
      (Nat.mul_le_mul_left 2 narrow)
    omega
  have counted : further + 1 ≤ 10 ^ further := Nat.lt_pow_self (by decide)
  calc
    2 * 10 ^ 20 * yieldError (2 * (20 + further + guardDigits)) bits ≤
        2 * 10 ^ 20 * (10 ^ 8 * 10 ^ further) :=
      Nat.mul_le_mul_left _ (linear.trans (Nat.mul_le_mul_left _ counted))
    _ = 2 * 10 ^ 28 * 10 ^ further := by ring
    _ ≤ 10 ^ 30 * 10 ^ further := Nat.mul_le_mul_right _ (by decide)
    _ = powerOfTen (20 + further + guardDigits) := by
      rw [powerOfTen_eq, guardDigits, Nat.add_right_comm, Nat.pow_add]

namespace Grid

variable {grid : Grid} {rounds bits : Nat}

/-- The logarithm of a growth, spread over at least a year and rounded down. -/
theorem rate_accuracy (third : grid.HasThird) (ends : grid.scale < 9 ^ rounds) {growth : Rat}
    (least : 1 ≤ growth) {years : Rat} (year : 1 ≤ years) {logarithm : Int}
    (found : grid.ln growth = .ok logarithm) :
    0 ≤ (logarithm * years.den).tdiv years.num ∧
      (logarithm * years.den).tdiv years.num ≤
        grid.ln2 * ((Octave.of grid.scale growth).exponent + 1) ∧
      |((logarithm * years.den).tdiv years.num : Int) - grid.scale * (Real.log growth / years)| ≤
        ((Octave.of grid.scale growth).exponent + 1) * shortfall rounds + 1 := by
  rcases ln_accuracy third ends least found with ⟨octaves, lower, upper⟩
  rcases ln_octave_bounds third (zero_lt_one.trans_le least) found with ⟨above, below⟩
  generalize (Octave.of grid.scale growth).exponent = exponent at octaves upper above below ⊢
  have someYears : 0 < years := zero_lt_one.trans_le year
  have someNum : 0 < years.num := Rat.num_pos.mpr someYears
  have nonneg : 0 ≤ logarithm := (Int.mul_nonneg third.ln2_nonneg octaves).trans above
  have numerator : 0 ≤ logarithm * years.den := Int.mul_nonneg nonneg (Int.natCast_nonneg _)
  have yearReal : (1 : ℝ) ≤ years := by exact_mod_cast year
  have exact : ((logarithm * years.den : Int) : ℝ) / years.num = logarithm / (years : ℝ) := by
    rw [Rat.cast_def years, div_div_eq_mul_div]
    push_cast
    rfl
  rcases tdiv_floor numerator someNum with ⟨rateLe, ltRate⟩
  rw [exact] at rateLe ltRate
  refine ⟨Int.tdiv_nonneg numerator someNum.le, ?_, ?_⟩
  · have part : (logarithm : ℝ) / years ≤ logarithm :=
      div_le_self (Int.cast_nonneg nonneg) yearReal
    exact (Int.cast_le.mp (rateLe.trans part)).trans below
  · have gap : 0 ≤ grid.scale * Real.log growth - logarithm := by linarith
    have spread : (grid.scale * Real.log growth - logarithm) / years ≤
        (exponent + 1) * shortfall rounds := (div_le_self gap yearReal).trans (by linarith)
    have spreadNonneg := div_nonneg gap (zero_le_one.trans yearReal)
    rw [sub_div, mul_div_assoc] at spread spreadNonneg
    rw [abs_le]
    exact ⟨by linarith, by linarith⟩

/-- The exponential of a logarithm spread over the years takes off no more octaves
than the logarithm found, so both errors are those of so many octaves. -/
theorem compounded_accuracy {Reason : Type} (third : grid.HasThird) (ends : grid.scale < 9 ^ rounds)
    (wide : yieldError rounds bits ≤ grid.scale) {growth : Rat} (least : 1 ≤ growth)
    (narrow : growth < 2 ^ bits) {years : Rat} (year : 1 ≤ years) {logarithm factor : Int}
    (foundLogarithm : grid.ln growth = .ok logarithm)
    (foundFactor : (grid.exp ((logarithm * years.den).tdiv years.num) : Attempt Reason Int) =
      .ok factor) :
    0 < factor ∧
      |grid.scale * Real.log (factor / grid.scale) - grid.scale * (Real.log growth / years)| ≤
        yieldError rounds bits := by
  unfold yieldError at wide ⊢
  have fits := Octave.of_fits grid.scale_pos (zero_lt_one.trans_le least)
  rcases rate_accuracy third ends least year foundLogarithm with ⟨nonneg, rateLe, rateError⟩
  rcases exp_accuracy third ends (by omega) nonneg foundFactor with
    ⟨octaves, taken, someFactor, factorError⟩
  rcases third.ln2_bounds (by omega) with ⟨someLn2, _⟩
  have octaveLt : (Octave.of grid.scale growth).exponent + 1 ≤ bits := by
    have short : ¬ (bits : Int) ≤ (Octave.of grid.scale growth).exponent := by
      rw [fits.le_exponent_iff, zpow_natCast]
      exact not_le.mpr narrow
    omega
  generalize (Octave.of grid.scale growth).exponent = exponent at rateLe rateError octaveLt
  generalize (logarithm * years.den).tdiv years.num = rate at rateLe rateError taken factorError
  have octavesLe : (octaves : Int) ≤ exponent + 1 := by
    by_contra more
    have product : grid.ln2 * (exponent + 2) ≤ grid.ln2 * octaves :=
      Int.mul_le_mul_of_nonneg_left (by omega) someLn2.le
    linarith
  have octavesReal : (octaves : ℝ) ≤ bits := by exact_mod_cast octavesLe.trans octaveLt
  have exponentReal : (exponent : ℝ) + 1 ≤ bits := by exact_mod_cast octaveLt
  have someShortfall : (0 : ℝ) ≤ shortfall rounds := Nat.cast_nonneg _
  have first := mul_le_mul_of_nonneg_right octavesReal someShortfall
  have second := mul_le_mul_of_nonneg_right exponentReal someShortfall
  have triangle := abs_sub_le (grid.scale * Real.log (factor / grid.scale)) (rate : ℝ)
    (grid.scale * (Real.log growth / years))
  push_cast
  exact ⟨someFactor, by linarith⟩

theorem one_add_value (grid : Grid) (factor : Int) :
    ((1 + grid.value (factor - grid.scale) : Rat) : ℝ) = factor / grid.scale := by
  have steps : (grid.scale : ℝ) ≠ 0 := (Nat.cast_pos.mpr grid.scale_pos).ne'
  rw [Rat.cast_add, Rat.cast_one, cast_value, Int.cast_sub, Int.cast_natCast, sub_div,
    div_self steps, add_sub_cancel]

end Grid

end FixedPoint

open FixedPoint

/-- The logarithm of a largest yield is that of the growth over the years, within
the error. -/
theorem largestYield_accuracy {grid : Grid} {rounds bits : Nat} (third : grid.HasThird)
    (ends : grid.scale < 9 ^ rounds) (wide : yieldError rounds bits ≤ grid.scale)
    {scaling : Scaling} {horizon : Horizon} (someInitial : 0 < scaling.initialIndex)
    (rises : 1 ≤ scaling.indexGrowth) (narrow : scaling.indexGrowth < 2 ^ bits)
    (year : 1 ≤ horizon.years) {largest : LargestYield}
    (found : largestYield scaling horizon grid = .ok largest) :
    0 < 1 + largest.apy ∧
      grid.scale * |Real.log ((1 + largest.apy : Rat) : ℝ) -
        Real.log scaling.indexGrowth / horizon.years| ≤ yieldError rounds bits := by
  rcases (largestYield_eq_ok someInitial (zero_lt_one.trans_le year)).mp found with
    ⟨logarithm, factor, foundLogarithm, foundFactor, rfl⟩
  rcases Grid.compounded_accuracy third ends wide rises narrow year foundLogarithm foundFactor with
    ⟨someFactor, error⟩
  have steps : (0 : ℝ) < grid.scale := Nat.cast_pos.mpr grid.scale_pos
  have oneAdd := grid.one_add_value factor
  constructor
  · have positive : (0 : ℝ) < factor / grid.scale := div_pos (Int.cast_pos.mpr someFactor) steps
    rw [← oneAdd] at positive
    exact Rat.cast_pos.mp positive
  · dsimp only
    rw [← mul_sub, abs_mul, abs_of_pos steps] at error
    rw [oneAdd]
    exact error

/-! ## From logarithms to powers -/

theorem pow_le_pow_iff_log_le {low high : Rat} (someLow : 0 < low) (someHigh : 0 < high)
    {first second : Nat} :
    low ^ first ≤ high ^ second ↔ first * Real.log low ≤ second * Real.log high := by
  have lowReal : (0 : ℝ) < (low : ℝ) ^ first := pow_pos (Rat.cast_pos.mpr someLow) first
  have highReal : (0 : ℝ) < (high : ℝ) ^ second := pow_pos (Rat.cast_pos.mpr someHigh) second
  rw [← Real.log_pow, ← Real.log_pow, Real.log_le_log_iff lowReal highReal]
  norm_cast

/-- Near zero a logarithm is at least half the distance from one. -/
theorem half_le_log_one_add {distance : ℝ} (nonneg : 0 ≤ distance) (most : distance ≤ 1) :
    distance / 2 ≤ Real.log (1 + distance) := by
  have positive : 0 < 1 + distance := by linarith
  have quotient : 1 - (1 + distance)⁻¹ = distance / (1 + distance) := by
    field_simp
    ring
  have bound := Real.one_sub_inv_le_log_of_pos positive
  rw [quotient] at bound
  apply le_trans _ bound
  exact div_le_div_of_nonneg_left nonneg positive (by linarith)

section Verdict

variable {growth apy floor tolerance : Rat} {seconds secondsPerYear : Nat}
  (someGrowth : 0 < growth) (someSeconds : 0 < seconds) (someYear : 0 < secondsPerYear)

include someGrowth someSeconds someYear

theorem pow_le_growth_pow_iff {factor : Rat} (someFactor : 0 < factor) :
    factor ^ seconds ≤ growth ^ secondsPerYear ↔
      Real.log factor ≤ Real.log growth / ((seconds : ℝ) / secondsPerYear) := by
  have secondsReal : (0 : ℝ) < seconds := Nat.cast_pos.mpr someSeconds
  have yearReal : (0 : ℝ) < secondsPerYear := Nat.cast_pos.mpr someYear
  rw [pow_le_pow_iff_log_le someFactor someGrowth, le_div_iff₀ (div_pos secondsReal yearReal),
    ← mul_div_assoc, div_le_iff₀ yearReal, mul_comm (seconds : ℝ), mul_comm (secondsPerYear : ℝ)]

theorem growth_pow_le_pow_iff {factor : Rat} (someFactor : 0 < factor) :
    growth ^ secondsPerYear ≤ factor ^ seconds ↔
      Real.log growth / ((seconds : ℝ) / secondsPerYear) ≤ Real.log factor := by
  have secondsReal : (0 : ℝ) < seconds := Nat.cast_pos.mpr someSeconds
  have yearReal : (0 : ℝ) < secondsPerYear := Nat.cast_pos.mpr someYear
  rw [pow_le_pow_iff_log_le someGrowth someFactor, div_le_iff₀ (div_pos secondsReal yearReal),
    ← mul_div_assoc, le_div_iff₀ yearReal, mul_comm (seconds : ℝ), mul_comm (secondsPerYear : ℝ)]

variable (someFloor : 0 ≤ floor) (someTolerance : 0 < tolerance) (small : tolerance < 1)
  (close : |Real.log ((1 + apy : Rat) : ℝ) -
    Real.log growth / ((seconds : ℝ) / secondsPerYear)| ≤ tolerance / 2)

include someFloor someTolerance small close

/-- A yield above the floor, close to that of a growth: the growth reaches the
floor, less the tolerance. -/
theorem floor_pow_le_of_close (above : floor < apy) :
    ((1 + floor) * (1 - tolerance)) ^ seconds ≤ growth ^ secondsPerYear := by
  have factor : 0 < 1 - tolerance := sub_pos.mpr small
  have whole : 0 < 1 + floor := by linarith
  have less : Real.log ((1 + floor : Rat) : ℝ) ≤ Real.log ((1 + apy : Rat) : ℝ) :=
    Real.log_le_log (Rat.cast_pos.mpr whole) (Rat.cast_le.mpr (by linarith))
  have lost := Real.log_le_sub_one_of_pos
    (Rat.cast_pos.mpr factor : (0 : ℝ) < (1 - tolerance : Rat))
  have toleranceReal : (0 : ℝ) < tolerance := Rat.cast_pos.mpr someTolerance
  have near := (abs_le.mp close).2
  rw [pow_le_growth_pow_iff someGrowth someSeconds someYear (mul_pos whole factor), Rat.cast_mul,
    Real.log_mul (Rat.cast_pos.mpr whole).ne' (Rat.cast_pos.mpr factor).ne']
  rw [Rat.cast_sub, Rat.cast_one] at lost ⊢
  linarith

/-- A yield within the floor, close to that of a growth: the growth stays within
the floor, and the tolerance more. -/
theorem pow_le_floor_of_close (someYield : 0 < 1 + apy) (within : apy ≤ floor) :
    growth ^ secondsPerYear ≤ ((1 + floor) * (1 + tolerance)) ^ seconds := by
  have factor : 0 < 1 + tolerance := by linarith
  have whole : 0 < 1 + floor := by linarith
  have less : Real.log ((1 + apy : Rat) : ℝ) ≤ Real.log ((1 + floor : Rat) : ℝ) :=
    Real.log_le_log (Rat.cast_pos.mpr someYield) (Rat.cast_le.mpr (by linarith))
  have gained : (tolerance : ℝ) / 2 ≤ Real.log ((1 + tolerance : Rat) : ℝ) := by
    rw [Rat.cast_add, Rat.cast_one]
    exact half_le_log_one_add (Rat.cast_nonneg.mpr someTolerance.le) (by exact_mod_cast small.le)
  have near := (abs_le.mp close).1
  rw [growth_pow_le_pow_iff someGrowth someSeconds someYear (mul_pos whole factor), Rat.cast_mul,
    Real.log_mul (Rat.cast_pos.mpr whole).ne' (Rat.cast_pos.mpr factor).ne']
  linarith

end Verdict

/-! ## The verdict -/

theorem YieldSetting.exact_nonneg (setting : YieldSetting) : 0 ≤ setting.exact :=
  div_nonneg (Nat.cast_nonneg _) (Nat.cast_nonneg _)

theorem le_half_tolerance {scale steps : Nat} (positive : 0 < scale)
    (room : 2 * 10 ^ 20 * steps ≤ scale) {distance : ℝ} (error : scale * distance ≤ steps) :
    distance ≤ ((1 / 10 ^ 20 : Rat) : ℝ) / 2 := by
  have tolerance : ((1 / 10 ^ 20 : Rat) : ℝ) = 1 / 10 ^ 20 := by norm_num
  have roomReal : (2 * 10 ^ 20 : ℝ) * steps ≤ scale := by exact_mod_cast room
  rw [tolerance]
  apply le_of_mul_le_mul_left _ (Nat.cast_pos.mpr positive : (0 : ℝ) < scale)
  linarith

section Allocation

variable {allocation : Allocation} {parameters : Parameters} {index : Field} {scaling : Scaling}
  {horizon : Horizon} {grid : Grid}

/-- The growth of an index is below two to the bits of the field. -/
theorem Scaling.indexGrowth_lt (oneIndex : allocation.withRole .borrowIndex = [index])
    (constants : Scaling.ofAllocation allocation = .ok scaling) :
    scaling.indexGrowth < 2 ^ index.bits := by
  rcases ofAllocation_eq_ok.mp constants with ⟨same, total, account, oneSame, _, _, _, rfl⟩
  cases oneIndex.symm.trans oneSame
  have below : fieldMaximum index.bits < 2 ^ index.bits := by
    rw [← powerOfTwo_eq, ← fieldMaximum_add_one]
    exact Nat.lt_succ_self _
  have least : 1 ≤ powerOfTen index.digits := powerOfTen_pos _
  rw [indexGrowth, div_lt_iff₀ (Nat.cast_pos.mpr least)]
  have product : fieldMaximum index.bits < 2 ^ index.bits * powerOfTen index.digits :=
    Nat.lt_of_lt_of_le below (Nat.le_mul_of_pos_right _ least)
  exact_mod_cast product

/-- A yield decides whether a growth comes up to a floor over a number of seconds,
to one part in 10^20. -/
structure LargestYield.Decides (apy floor growth : Rat) (seconds secondsPerYear : Nat) : Prop where
  above : floor < apy ->
    ((1 + floor) * (1 - 1 / 10 ^ 20)) ^ seconds ≤ growth ^ secondsPerYear
  within : apy ≤ floor ->
    growth ^ secondsPerYear ≤ ((1 + floor) * (1 + 1 / 10 ^ 20)) ^ seconds

/-- An index that rises: the errors stay within the guard digits. -/
theorem LargestYield.decides_of_rises (someYear : 0 < parameters.secondsPerYear)
    (enough : 20 ≤ parameters.mathDigits) (oneIndex : allocation.withRole .borrowIndex = [index])
    (narrow : index.bits ≤ 65536) (constants : Scaling.ofAllocation allocation = .ok scaling)
    (measured : horizon.years = Rat.divInt horizon.seconds parameters.secondsPerYear)
    (year : parameters.secondsPerYear ≤ horizon.seconds)
    (gridFound : (Grid.ofDigits parameters.mathDigits : Verdict _) = .ok grid)
    (rises : 1 ≤ scaling.indexGrowth) {largest : LargestYield}
    (found : largestYield scaling horizon grid = .ok largest) :
    Decides largest.apy parameters.apyFloor.exact scaling.indexGrowth horizon.seconds
      parameters.secondsPerYear := by
  rcases Grid.ofDigits_eq_ok gridFound with ⟨scale, third⟩
  have someGrowth : 0 < scaling.indexGrowth := zero_lt_one.trans_le rises
  have someSeconds := Nat.lt_of_lt_of_le someYear year
  have someFloor := parameters.apyFloor.exact_nonneg
  have ends := powerOfTen_lt_nine_pow
    (Nat.add_pos_right parameters.mathDigits (by decide : 0 < guardDigits))
  have room := yieldError_le enough narrow
  rw [← scale] at ends room
  rw [Rat.divInt_eq_div, Int.cast_natCast, Int.cast_natCast] at measured
  have atLeastOne : 1 ≤ horizon.years := by
    rw [measured, one_le_div (Nat.cast_pos.mpr someYear)]
    exact Nat.cast_le.mpr year
  rcases largestYield_accuracy third ends (by omega) (Scaling.initialIndex_pos constants) rises
    (Scaling.indexGrowth_lt oneIndex constants) atLeastOne found with ⟨someYield, error⟩
  rw [measured, Rat.cast_div, Rat.cast_natCast, Rat.cast_natCast] at error
  have tolerance := le_half_tolerance grid.scale_pos room error
  constructor
  · exact floor_pow_le_of_close someGrowth someSeconds someYear someFloor (by norm_num)
      (by norm_num) tolerance
  · exact pow_le_floor_of_close someGrowth someSeconds someYear someFloor (by norm_num)
      (by norm_num) tolerance someYield

/-- An index that does not rise: its yield is at most zero and its growth at most
one. -/
theorem LargestYield.decides_of_flat (floor : YieldSetting) {digits : Nat}
    (gridFound : (Grid.ofDigits digits : Verdict _) = .ok grid)
    (someInitial : 0 < scaling.initialIndex) (ahead : 0 < horizon.years)
    (flat : scaling.indexGrowth ≤ 1) {largest : LargestYield}
    (found : largestYield scaling horizon grid = .ok largest) (seconds secondsPerYear : Nat) :
    Decides largest.apy floor.exact scaling.indexGrowth seconds secondsPerYear := by
  have ordered : scaling.largestIndex ≤ scaling.initialIndex := by
    rw [Scaling.indexGrowth, div_le_one (Nat.cast_pos.mpr someInitial)] at flat
    exact Nat.cast_le.mp flat
  have nonpos := largestYield_nonpos gridFound someInitial ahead ordered found
  have someFloor := floor.exact_nonneg
  constructor
  · intro above
    linarith
  · intro _
    have growthLe : scaling.indexGrowth ^ secondsPerYear ≤ 1 :=
      pow_le_one₀ (div_nonneg (Nat.cast_nonneg _) (Nat.cast_nonneg _)) flat
    have factor : 1 ≤ (1 + floor.exact) * (1 + 1 / 10 ^ 20) :=
      one_le_mul_of_one_le_of_one_le (by linarith) (by norm_num)
    exact growthLe.trans (one_le_pow₀ factor)

/-- Over a year or more, with the parameters of a check and an index of 65536
bits or fewer: a largest yield exists as soon as the index holds anything, and
it decides whether the growth of the index comes up to the floor. -/
theorem largestYield_decides (sound : parameters.check = .ok ())
    (few : parameters.mathDigits ≤ 10 ^ 6) (oneIndex : allocation.withRole .borrowIndex = [index])
    (narrow : index.bits ≤ 65536) (constants : Scaling.ofAllocation allocation = .ok scaling)
    (measured : horizon.years = Rat.divInt horizon.seconds parameters.secondsPerYear)
    (year : parameters.secondsPerYear ≤ horizon.seconds) :
    ∃ grid, (Grid.ofDigits parameters.mathDigits : Verdict _) = .ok grid ∧
      (index.bits ≠ 0 -> ∃ largest, largestYield scaling horizon grid = .ok largest) ∧
      ∀ largest, largestYield scaling horizon grid = .ok largest ->
        LargestYield.Decides largest.apy parameters.apyFloor.exact scaling.indexGrowth
          horizon.seconds parameters.secondsPerYear := by
  have someYear := Nat.pos_of_ne_zero (Parameters.divides_of_check sound).year
  have someInitial := Scaling.initialIndex_pos constants
  have ahead : 0 < horizon.years := by
    rw [measured, Rat.divInt_eq_div]
    exact div_pos (by exact_mod_cast Nat.lt_of_lt_of_le someYear year) (by exact_mod_cast someYear)
  rcases Grid.ofDigits_sound Rejection few with ⟨grid, gridFound, gridSound⟩
  refine ⟨grid, gridFound, ?_, ?_⟩
  · intro someBits
    have someLargest : 0 < scaling.largestIndex := by
      rcases Scaling.ofAllocation_eq_ok.mp constants with ⟨same, _, _, oneSame, _, _, _, rfl⟩
      cases oneIndex.symm.trans oneSame
      exact fieldMaximum_pos someBits
    exact largestYield_total gridSound someInitial someLargest ahead
  · intro largest found
    rcases le_total 1 scaling.indexGrowth with rises | flat
    · exact LargestYield.decides_of_rises someYear (Parameters.enough_digits sound) oneIndex
        narrow constants measured year gridFound rises found
    · exact LargestYield.decides_of_flat _ gridFound someInitial ahead flat found _ _

/-- The first generation at the default parameters: its yield lies above the
floor, and so does its growth over the horizon. -/
theorem largestYield_decides_first_generation :
    ∃ horizon scaling grid largest, Horizon.ofBits 32 1700000000 {} = .ok horizon ∧
      Scaling.ofAllocation Generation.v1.allocation = .ok scaling ∧
      (Grid.ofDigits 60 : Verdict _) = .ok grid ∧
      largestYield scaling horizon grid = .ok largest ∧
      ({} : Parameters).apyFloor.exact < largest.apy ∧
      ((1 + ({} : Parameters).apyFloor.exact) * (1 - 1 / 10 ^ 20)) ^ horizon.seconds ≤
        scaling.indexGrowth ^ ({} : Parameters).secondsPerYear := by
  have computed : Attempt.Holds (Horizon.ofBits 32 1700000000 {}) fun horizon =>
      (horizon.years = Rat.divInt horizon.seconds ({} : Parameters).secondsPerYear ∧
        ({} : Parameters).secondsPerYear ≤ horizon.seconds) ∧
      Attempt.Holds (Scaling.ofAllocation Generation.v1.allocation) fun scaling =>
        Attempt.Holds (Generation.v1.allocation.requireRole .borrowIndex) fun index =>
          index.bits ≤ 65536 ∧
          Attempt.Holds (Grid.ofDigits 60 : Verdict _) fun grid =>
            Attempt.Holds (largestYield scaling horizon grid) fun largest =>
              ({} : Parameters).apyFloor.exact < largest.apy := by
    decide +kernel
  rcases computed with ⟨horizon, built, ⟨measured, year⟩, scaling, constants, index, oneIndex,
    narrow, grid, gridFound, largest, found, above⟩
  rcases largestYield_decides (rfl : ({} : Parameters).check = .ok ()) (by decide)
    (Allocation.requireRole_eq_ok.mp oneIndex) narrow constants measured year with
    ⟨same, sameFound, _, decides⟩
  cases gridFound.symm.trans sameFound
  exact ⟨horizon, scaling, grid, largest, built, constants, gridFound, found, above,
    (decides largest found).above above⟩

end Allocation

end PackedLedger
