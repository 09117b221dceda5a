import PackedLedger.Allocation.Basic
import PackedLedger.Proofs.IndexSteps
import PackedLedger.Proofs.Requirements

namespace PackedLedger

/-!
# Acceptance is a list of plain conditions

A candidate passes through stages that count digits, compound in jumps, solve
for the first growth and draw samples.  Whether it is accepted in the end is
decided by conditions that mention none of this: the roles occur once, powers
reach powers, a year of single accruals stays low, and the steps at the ends and
at the drawn indices lose base units.
-/

variable {allocation : Allocation} {assetDecimals now : Nat} {parameters : Parameters}

/-! ## The envelope -/

namespace Envelope

/-- What an envelope asks of an allocation. -/
structure Meets (allocation : Allocation) (assetDecimals : Nat) (parameters : Parameters)
    (horizon : Horizon) (index total account : Field) : Prop where
  decimals_le : assetDecimals ≤ parameters.maxAssetDecimals
  one_index : allocation.withRole .borrowIndex = [index]
  one_total : allocation.withRole .totalBorrows = [total]
  one_account : allocation.withRole .accountBorrows = [account]
  ranges : ∀ field ∈ allocation.fields, field.role.isRangeChecked ->
    FieldRange.Reaches field assetDecimals parameters.minOrder
  above_floor : ∃ grid largest,
    (FixedPoint.Grid.ofDigits parameters.mathDigits : Verdict _) = .ok grid ∧
      largestYield (Scaling.ofFields allocation.accrualPrecision index total account) horizon grid =
        .ok largest ∧
      parameters.apyFloor.exact < largest.apy
  index_precise : allocation.accrualPrecision ≤ index.digits
  total_precise : allocation.accrualPrecision ≤ total.digits
  below_ceiling : (Scaling.ofFields allocation.accrualPrecision index total account).yieldAfter
    (parameters.secondsPerYear / parameters.secondsPerBlock) < parameters.apyCeiling.exact

theorem isRangeChecked_iff {field : Field} (packed : field ∈ allocation.fields) :
    field.role.isRangeChecked ↔
      field ∈ allocation.withRole .totalBorrows ∨ field ∈ supplyFields allocation := by
  unfold Allocation.withRole supplyFields
  rw [List.mem_filter, List.mem_filter, and_iff_right packed, and_iff_right packed]
  cases field.role <;> decide

theorem secondIndex_larger_iff (accrual : Nat) (index total account : Field) :
    (Scaling.ofFields accrual index total account).initialIndex <
        (Scaling.ofFields accrual index total account).grow
          (Scaling.ofFields accrual index total account).initialIndex ↔
      accrual ≤ index.digits := by
  rw [← powerOfTen_div_pos]
  exact Nat.lt_add_right_iff_pos

/-- The shared assumptions on sizes: every slot is filled, and the sums of
digits and the working digits are small enough to be formed. -/
structure Sized (allocation : Allocation) (assetDecimals : Nat) (parameters : Parameters) :
    Prop where
  sound : parameters.check = .ok ()
  filled : ∀ slot ∈ allocation.slots, slot.Filled
  fits : ∀ field ∈ allocation.fields, field.role.isRangeChecked ->
    field.digits + assetDecimals < Checked.wordLimit
  few : parameters.mathDigits ≤ 10 ^ 6

namespace Sized

variable (sized : Sized allocation assetDecimals parameters)
include sized

theorem divides : parameters.Divides :=
  Parameters.divides_of_check sized.sound

theorem grid_sound {grid : FixedPoint.Grid}
    (found : (FixedPoint.Grid.ofDigits parameters.mathDigits : Verdict _) = .ok grid) :
    grid.Sound := by
  rcases FixedPoint.Grid.ofDigits_sound Rejection sized.few with ⟨other, also, sound⟩
  cases also.symm.trans found
  exact sound

theorem wide_of_one {role : Role} {field : Field}
    (oneField : allocation.withRole role = [field]) : 0 < fieldMaximum field.bits := by
  have held : field ∈ allocation.withRole role := by
    rw [oneField]
    exact List.mem_singleton_self field
  have packed := (Allocation.mem_of_withRole held).1
  exact fieldMaximum_pos (allocation.bits_ne_zero sized.filled packed)

theorem scaling_found {index total account : Field}
    (oneIndex : allocation.withRole .borrowIndex = [index])
    (oneTotal : allocation.withRole .totalBorrows = [total])
    (oneAccount : allocation.withRole .accountBorrows = [account]) :
    Scaling.ofAllocation allocation =
      .ok (Scaling.ofFields allocation.accrualPrecision index total account) := by
  have wide := Nat.ne_of_gt (sized.wide_of_one oneTotal)
  exact Scaling.ofAllocation_eq_ok.mpr
    ⟨index, total, account, oneIndex, oneTotal, oneAccount, wide, rfl⟩

/-- The ranges of total borrows and of the supply side exist exactly when every
range-checked field reaches the required order. -/
theorem exists_ranges_iff {grid : FixedPoint.Grid} (sound : grid.Sound) {total : Field}
    (oneTotal : allocation.withRole .totalBorrows = [total]) :
    ((∃ range, FieldRange.of total assetDecimals parameters grid = .ok range) ∧
        ∃ ranges, ((supplyFields allocation).mapM fun field =>
          FieldRange.of field assetDecimals parameters grid) = .ok ranges) ↔
      ∀ field ∈ allocation.fields, field.role.isRangeChecked ->
        FieldRange.Reaches field assetDecimals parameters.minOrder := by
  have single : ∀ field ∈ allocation.fields, field.role.isRangeChecked ->
      ((∃ range, FieldRange.of field assetDecimals parameters grid = .ok range) ↔
        FieldRange.Reaches field assetDecimals parameters.minOrder) := by
    intro field packed checked
    exact FieldRange.exists_of_iff sound (allocation.bits_ne_zero sized.filled packed)
      (sized.fits field packed checked)
  rw [Attempt.exists_mapM_eq_ok]
  constructor
  · intro found field packed checked
    rw [← single field packed checked]
    rcases (isRangeChecked_iff packed).mp checked with held | supplied
    · rw [oneTotal, List.mem_singleton] at held
      rw [held]
      exact found.1
    · exact found.2 field supplied
  · intro reaches
    have every : ∀ field ∈ allocation.fields, field.role.isRangeChecked ->
        ∃ range, FieldRange.of field assetDecimals parameters grid = .ok range := by
      intro field packed checked
      exact (single field packed checked).mpr (reaches field packed checked)
    constructor
    · have held : total ∈ allocation.withRole .totalBorrows := by
        rw [oneTotal]
        exact List.mem_singleton_self total
      have packed := (Allocation.mem_of_withRole held).1
      exact every total packed ((isRangeChecked_iff packed).mpr (.inl held))
    · intro field supplied
      have packed := (List.mem_filter.mp supplied).1
      exact every field packed ((isRangeChecked_iff packed).mpr (.inr supplied))

end Sized

/-- An envelope that passed its stages meets what is asked of it. -/
theorem Stages.meets {horizon : Horizon} {grid : FixedPoint.Grid} {index total : Field}
    {floor ceiling : Rat} {blocks : Nat} {envelope : Envelope}
    (stages : Stages allocation assetDecimals parameters horizon grid index total floor ceiling
      blocks envelope)
    (sized : Sized allocation assetDecimals parameters) :
    ∃ account, Meets allocation assetDecimals parameters horizon index total account ∧
      Scaling.ofFields allocation.accrualPrecision index total account = envelope.scaling := by
  rcases Scaling.ofAllocation_eq_ok.mp stages.scaling_found with
    ⟨first, second, account, oneIndex, oneTotal, oneAccount, _, scaling⟩
  cases oneIndex.symm.trans stages.one_index
  cases oneTotal.symm.trans stages.one_total
  have initial : 0 < envelope.scaling.initialIndex := Scaling.initialIndex_pos stages.scaling_found
  have floorExact := (YieldSetting.value_eq_ok sized.divides.floor).mp stages.floor_found
  have ceilingExact := (YieldSetting.value_eq_ok sized.divides.ceiling).mp stages.ceiling_found
  have year := (Parameters.blocksPerYear_eq_ok sized.divides).symm.trans stages.blocks_found
  cases year
  refine ⟨account, {
    decimals_le := stages.decimals_le, one_index := oneIndex, one_total := oneTotal
    one_account := oneAccount, ranges := ?_, above_floor := ?_, index_precise := ?_
    total_precise := ?_, below_ceiling := ?_ }, scaling⟩
  · exact (sized.exists_ranges_iff (sized.grid_sound stages.grid_found) oneTotal).mp
      ⟨⟨_, stages.total_range⟩, ⟨_, stages.supply_ranges⟩⟩
  · rw [scaling, floorExact]
    exact ⟨grid, _, stages.grid_found, stages.largest_found, stages.above_floor⟩
  · have larger := stages.second_larger
    rw [← stages.second_found, ← scaling] at larger
    exact (secondIndex_larger_iff _ _ _ _).mp larger
  · have someInterest := Nat.pos_of_ne_zero stages.interest_pos
    rw [← stages.interest_found, ← scaling] at someInterest
    exact powerOfTen_div_pos.mp someInterest
  · rw [scaling, ceilingExact, ← smallestYield_lt_iff initial]
    exact ⟨_, stages.smallest_found, stages.below_ceiling⟩

/-- What is asked of an envelope is all that its stages check. -/
theorem Meets.exists_stages {horizon : Horizon} {index total account : Field}
    (meets : Meets allocation assetDecimals parameters horizon index total account)
    (sized : Sized allocation assetDecimals parameters) :
    ∃ grid floor ceiling blocks envelope,
      Stages allocation assetDecimals parameters horizon grid index total floor ceiling blocks
        envelope ∧
      Scaling.ofFields allocation.accrualPrecision index total account = envelope.scaling := by
  have scalingFound := sized.scaling_found meets.one_index meets.one_total meets.one_account
  rcases meets.above_floor with ⟨grid, largest, gridFound, largestFound, aboveFloor⟩
  rcases (sized.exists_ranges_iff (sized.grid_sound gridFound) meets.one_total).mpr meets.ranges
    with ⟨⟨totalRange, totalRanged⟩, ⟨supplyRanges, suppliesRanged⟩⟩
  rcases (smallestYield_lt_iff (Scaling.initialIndex_pos scalingFound) _ _).mpr meets.below_ceiling
    with ⟨apyMin, smallestFound, belowCeiling⟩
  have secondLarger := (secondIndex_larger_iff _ _ total account).mpr meets.index_precise
  have interestPos : powerOfTen total.digits /
      (Scaling.ofFields allocation.accrualPrecision index total account).accrualScaler ≠ 0 :=
    Nat.ne_of_gt (powerOfTen_div_pos.mpr meets.total_precise)
  have floorFound := (YieldSetting.value_eq_ok sized.divides.floor).mpr rfl
  have ceilingFound := (YieldSetting.value_eq_ok sized.divides.ceiling).mpr rfl
  generalize Scaling.ofFields allocation.accrualPrecision index total account = scaling at *
  exact ⟨grid, parameters.apyFloor.exact, parameters.apyCeiling.exact, _, {
      horizon, scaling, totalRange, supplyRanges, largest, apyMin
      leastInterest := powerOfTen total.digits / scaling.accrualScaler
      secondIndex := scaling.grow scaling.initialIndex
      penultimateIndex := scaling.shrink scaling.largestIndex }, {
      parameters_sound := sized.sound, decimals_le := meets.decimals_le
      grid_found := gridFound, one_index := meets.one_index, one_total := meets.one_total
      scaling_found := scalingFound, total_range := totalRanged
      supply_ranges := suppliesRanged, largest_found := largestFound
      floor_found := floorFound, above_floor := aboveFloor, second_found := rfl
      second_larger := secondLarger, interest_found := rfl, interest_pos := interestPos
      ceiling_found := ceilingFound
      blocks_found := Parameters.blocksPerYear_eq_ok sized.divides
      smallest_found := smallestFound, below_ceiling := belowCeiling
      penultimate_found := rfl, horizon_kept := rfl }, rfl⟩

end Envelope

/-! ## The sweep -/

/-- The step from an index to the next shows under a whole scaler: it goes up,
and one amount unit stands for fewer base units after it. -/
def StepShows (scaler index next : Nat) : Prop :=
  index < next ∧ scaler / next < scaler / index

/-- The steps that a sweep looks at show: the first, the last, and, if there is
an index to draw, every drawn one. -/
structure StepsShow (scaling : Scaling) (scaler samples seed : Nat) : Prop where
  first : StepShows scaler scaling.initialIndex (scaling.grow scaling.initialIndex)
  last : StepShows scaler (scaling.shrink scaling.largestIndex) scaling.largestIndex
  drawn : scaling.initialIndex ≤ scaling.shrink scaling.largestIndex ->
    ∀ position, position < samples ->
      ∃ index, Sweep.drawnAt scaling.initialIndex (scaling.shrink scaling.largestIndex) position
        (.ofSeed seed) = .ok index ∧ StepShows scaler index (scaling.grow index)

theorem Scaling.borrowsScalerFloor_ofFields (accrual : Nat) (index total account : Field) :
    (ofFields accrual index total account).borrowsScalerFloor =
      10 ^ index.digits * (2 ^ account.bits - 1) / (2 ^ total.bits - 1) := by
  have quotient : (ofFields accrual index total account).borrowsScaler =
      ((10 ^ index.digits * (2 ^ account.bits - 1) : Nat) : Rat) / (2 ^ total.bits - 1 : Nat) := by
    simp only [ofFields]
    rw [Rat.divInt_eq_div, Int.cast_natCast, Int.cast_natCast]
    rfl
  have floor : ⌊((10 ^ index.digits * (2 ^ account.bits - 1) : Nat) : Rat) /
      (2 ^ total.bits - 1 : Nat)⌋ = _ := Rat.floor_natCast_div_natCast _ _
  rw [borrowsScalerFloor, quotient]
  exact congrArg Int.toNat floor

namespace Sweep

theorem separates_iff_shows {sweep : Sweep} (nonneg : 0 ≤ sweep.scaling.borrowsScaler)
    {index next : Nat} :
    sweep.Separates index next ↔ StepShows sweep.scaling.borrowsScalerFloor index next := by
  rcases Nat.eq_zero_or_pos index with zero | positive
  · rw [zero]
    constructor
    · intro separates
      exact absurd separates.positive (Nat.lt_irrefl 0)
    · intro shows
      rcases shows with ⟨_, fewer⟩
      rw [Nat.div_zero] at fewer
      exact absurd fewer (Nat.not_lt_zero _)
  · exact separates_iff nonneg positive

theorem Derived.exists_run_iff {sweep : Sweep} (derived : Derived sweep)
    (second : sweep.scaling.grow sweep.scaling.initialIndex = sweep.secondIndex)
    {samples seed : Nat} :
    (∃ summary, (sweep.run samples seed).result = .ok summary) ↔
      StepsShow sweep.scaling sweep.scaling.borrowsScalerFloor samples seed := by
  rw [run_eq_ok_iff, checkBoundaries_eq_ok, separates_iff_shows derived.nonneg,
    separates_iff_shows derived.nonneg, ← second, ← derived.penultimate]
  simp only [DrawSeparates, separates_iff_shows derived.nonneg, ← derived.penultimate]
  constructor
  · intro passes
    rcases passes with ⟨⟨first, last⟩, drawn⟩
    exact ⟨first, last, drawn⟩
  · intro shows
    rcases shows with ⟨first, last, drawn⟩
    exact ⟨⟨first, last⟩, drawn⟩

end Sweep

/-! ## The candidate -/

namespace Candidate

/-- Everything that an accepted candidate meets. -/
structure Acceptable (allocation : Allocation) (assetDecimals : Nat) (parameters : Parameters)
    (now : Nat) (timestamp index total account : Field) : Prop where
  parameters_sound : parameters.check = .ok ()
  slots_filled : ∀ slot ∈ allocation.slots, slot.Filled
  one_timestamp : allocation.withRole .timestamp = [timestamp]
  lasting : now < 2 ^ timestamp.bits - 1
  lasting_years :
    parameters.minHorizonYears * parameters.secondsPerYear ≤ 2 ^ timestamp.bits - 1 - now
  envelope : Envelope.Meets allocation assetDecimals parameters
    (Horizon.left timestamp.bits now parameters.secondsPerYear) index total account
  steps_show : StepsShow (Scaling.ofFields allocation.accrualPrecision index total account)
    (10 ^ index.digits * (2 ^ account.bits - 1) / (2 ^ total.bits - 1)) parameters.samples
    parameters.seed
  one_supply : (allocation.withRole .totalSupply).length ≤ 1
  reserves_start : ∀ supply ∈ allocation.withRole .totalSupply,
    Reserve.StartsInTime supply assetDecimals parameters

/-- A candidate is accepted exactly when its fields of the four roles are the
only ones and everything about them is acceptable. -/
theorem check_accepts_iff
    (widthsFit : ∀ slot ∈ allocation.slots,
      (slot.fields.map Field.bits).sum < Checked.wordLimit)
    (digitsFit : ∀ field ∈ allocation.fields, field.role.isRangeChecked ->
      field.digits + assetDecimals < Checked.wordLimit)
    (few : parameters.mathDigits ≤ 10 ^ 6) :
    (∃ report, check allocation assetDecimals parameters now = .ok report) ↔
      ∃ timestamp index total account,
        Acceptable allocation assetDecimals parameters now timestamp index total account := by
  unfold check Horizon.ofAllocation
  simp only [Attempt.bind_eq_ok, Attempt.pure_eq_ok, Allocation.requireRole_eq_ok]
  constructor
  · intro accepted
    rcases accepted with
      ⟨report, _, sound, _, filled, horizon, ⟨timestamp, oneTimestamp, lasts⟩, envelope, derived,
        sweep, sweepFound, summary, swept, growth, grown, _⟩
    have slotsFilled := (Allocation.checkFilled_eq_ok widthsFit).mp filled
    rcases (Horizon.ofBits_eq_ok sound).mp lasts with ⟨lasting, lastingYears, rfl⟩
    rcases Envelope.ofAllocation_eq_ok.mp derived with
      ⟨grid, index, total, floor, ceiling, blocks, stages⟩
    rcases stages.meets ⟨sound, slotsFilled, digitsFit, few⟩ with ⟨account, meets, scaling⟩
    rcases Sweep.derived_of_envelope derived sweepFound with ⟨settled, _⟩
    rcases Sweep.ofAllocation_eq_ok.mp sweepFound with ⟨_, _, _, _, rfl⟩
    have stepsShow := (settled.exists_run_iff stages.second_found).mp ⟨summary, swept⟩
    dsimp only at stepsShow
    rw [← scaling, Scaling.borrowsScalerFloor_ofFields] at stepsShow
    rcases (exists_reserveGrowth_iff (Parameters.divides_of_check sound)).mp ⟨growth, grown⟩ with
      ⟨oneSupply, reservesStart⟩
    exact ⟨timestamp, index, total, account, {
      parameters_sound := sound, slots_filled := slotsFilled, one_timestamp := oneTimestamp
      lasting, lasting_years := lastingYears, envelope := meets, steps_show := stepsShow
      one_supply := oneSupply, reserves_start := reservesStart }⟩
  · intro meets
    rcases meets with ⟨timestamp, index, total, account, acceptable⟩
    have sound := acceptable.parameters_sound
    have lasts : Horizon.ofBits timestamp.bits now parameters =
        .ok (Horizon.left timestamp.bits now parameters.secondsPerYear) :=
      (Horizon.ofBits_eq_ok sound).mpr ⟨acceptable.lasting, acceptable.lasting_years, rfl⟩
    rcases acceptable.envelope.exists_stages ⟨sound, acceptable.slots_filled, digitsFit, few⟩ with
      ⟨grid, floor, ceiling, blocks, envelope, stages, scaling⟩
    have derived := Envelope.ofAllocation_eq_ok.mpr
      ⟨grid, index, total, floor, ceiling, blocks, stages⟩
    have sweepFound : Sweep.ofAllocation allocation envelope = .ok _ :=
      Sweep.ofAllocation_eq_ok.mpr
        ⟨index, account, acceptable.envelope.one_index, acceptable.envelope.one_account, rfl⟩
    rcases Sweep.derived_of_envelope derived sweepFound with ⟨settled, _⟩
    have stepsShow := acceptable.steps_show
    rw [← Scaling.borrowsScalerFloor_ofFields allocation.accrualPrecision, scaling] at stepsShow
    rcases (settled.exists_run_iff stages.second_found).mpr stepsShow with ⟨summary, swept⟩
    rcases (exists_reserveGrowth_iff (Parameters.divides_of_check sound)).mpr
      ⟨acceptable.one_supply, acceptable.reserves_start⟩ with ⟨growth, grown⟩
    exact ⟨_, (), sound, (), (Allocation.checkFilled_eq_ok widthsFit).mpr acceptable.slots_filled,
      _, ⟨timestamp, acceptable.one_timestamp, lasts⟩, envelope, derived, _, sweepFound, summary,
      swept, growth, grown, rfl⟩

/-- The second layout is accepted for an asset of six decimals, so it meets
every condition. -/
theorem check_accepts_second_generation :
    ∃ timestamp index total account,
      Acceptable Generation.v2.allocation 6 { samples := 16 } 1700000000 timestamp index total
        account := by
  have accepted : Attempt.Holds (check Generation.v2.allocation 6 { samples := 16 } 1700000000)
      fun _ => True := by decide +kernel
  rcases accepted with ⟨report, found, _⟩
  exact (check_accepts_iff (by decide) (by decide) (by decide)).mp ⟨report, found⟩

end Candidate

end PackedLedger
