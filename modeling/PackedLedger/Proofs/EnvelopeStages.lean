import PackedLedger.Envelope
import PackedLedger.Proofs.Attempt
import PackedLedger.Proofs.Magnitude

namespace PackedLedger

/-!
# What a derived envelope has passed

An envelope is the last value of a chain of stages.  The lemmas here take that
chain apart once: whatever is later said of an envelope follows from `Stages`,
which names the value and the verdict of every stage, and nothing later unfolds
the chain again.
-/

namespace Allocation

/-- The field found for a role is the whole list of fields that hold it. -/
@[simp] theorem findRole_eq_ok {allocation : Allocation} {role : Role} {found : Option Field} :
    allocation.findRole role = .ok found ↔ allocation.withRole role = found.toList := by
  unfold findRole
  cases holders : allocation.withRole role with
  | nil => cases found <;> simp
  | cons first rest =>
      cases rest with
      | nil => cases found <;> simp
      | cons second others =>
          constructor
          · intro impossible
            cases impossible
          · cases found <;> simp

@[simp] theorem requireRole_eq_ok {allocation : Allocation} {role : Role} {field : Field} :
    allocation.requireRole role = .ok field ↔ allocation.withRole role = [field] := by
  constructor
  · intro required
    rcases Attempt.bind_eq_ok.mp required with ⟨found, lookup, rest⟩
    rw [findRole_eq_ok] at lookup
    cases found with
    | none => cases rest
    | some holder =>
        cases rest
        exact lookup
  · exact requireRole_of_unique

end Allocation

namespace Scaling

/-- The constants that the fields of the three roles imply. -/
def ofFields (accrualPrecision : Nat) (index total account : Field) : Scaling where
  accrualScaler := powerOfTen accrualPrecision
  initialIndex := powerOfTen index.digits
  largestIndex := fieldMaximum index.bits
  borrowsScaler :=
    Rat.divInt ((powerOfTen index.digits * fieldMaximum account.bits : Nat) : Int)
      (fieldMaximum total.bits)
  accrualScaler_pos := powerOfTen_pos _

theorem ofAllocation_eq_ok {allocation : Allocation} {scaling : Scaling} :
    ofAllocation allocation = .ok scaling ↔
      ∃ index total account, allocation.withRole .borrowIndex = [index] ∧
        allocation.withRole .totalBorrows = [total] ∧
        allocation.withRole .accountBorrows = [account] ∧
        fieldMaximum total.bits ≠ 0 ∧
        ofFields allocation.accrualPrecision index total account = scaling := by
  simp [ofAllocation, ofFields]

theorem ofFields_borrowsScaler_nonneg (accrualPrecision : Nat) (index total account : Field) :
    0 ≤ (ofFields accrualPrecision index total account).borrowsScaler :=
  Rat.divInt_nonneg (Int.natCast_nonneg _) (Int.natCast_nonneg _)

theorem borrowsScaler_nonneg {allocation : Allocation} {scaling : Scaling}
    (found : ofAllocation allocation = .ok scaling) : 0 ≤ scaling.borrowsScaler := by
  rcases ofAllocation_eq_ok.mp found with ⟨index, total, account, _, _, _, _, rfl⟩
  exact ofFields_borrowsScaler_nonneg _ _ _ _

theorem initialIndex_pos {allocation : Allocation} {scaling : Scaling}
    (found : ofAllocation allocation = .ok scaling) : 0 < scaling.initialIndex := by
  rcases ofAllocation_eq_ok.mp found with ⟨index, total, account, _, _, _, _, rfl⟩
  exact powerOfTen_pos _

theorem largestIndex_eq {allocation : Allocation} {scaling : Scaling} {index : Field}
    (found : ofAllocation allocation = .ok scaling)
    (oneIndex : allocation.withRole .borrowIndex = [index]) :
    scaling.largestIndex = fieldMaximum index.bits := by
  rcases ofAllocation_eq_ok.mp found with ⟨same, total, account, oneSame, _, _, _, rfl⟩
  cases oneIndex.symm.trans oneSame
  rfl

end Scaling

namespace Envelope

/-- The values and verdicts of the stages that lead to an envelope. -/
structure Stages (allocation : Allocation) (assetDecimals : Nat) (parameters : Parameters)
    (horizon : Horizon) (grid : FixedPoint.Grid) (index total : Field) (floor ceiling : Rat)
    (blocks : Nat) (envelope : Envelope) : Prop where
  parameters_sound : parameters.check = .ok ()
  decimals_le : assetDecimals ≤ parameters.maxAssetDecimals
  grid_found : (FixedPoint.Grid.ofDigits parameters.mathDigits : Verdict _) = .ok grid
  one_index : allocation.withRole .borrowIndex = [index]
  one_total : allocation.withRole .totalBorrows = [total]
  scaling_found : Scaling.ofAllocation allocation = .ok envelope.scaling
  total_range : FieldRange.of total assetDecimals parameters grid = .ok envelope.totalRange
  supply_ranges :
    ((supplyFields allocation).mapM fun field =>
      FieldRange.of field assetDecimals parameters grid) = .ok envelope.supplyRanges
  largest_found : largestYield envelope.scaling horizon grid = .ok envelope.largest
  floor_found : parameters.apyFloor.value = .ok floor
  above_floor : floor < envelope.largest.apy
  second_found : envelope.scaling.grow envelope.scaling.initialIndex = envelope.secondIndex
  second_larger : envelope.scaling.initialIndex < envelope.secondIndex
  interest_found : powerOfTen total.digits / envelope.scaling.accrualScaler =
    envelope.leastInterest
  interest_pos : envelope.leastInterest ≠ 0
  ceiling_found : parameters.apyCeiling.value = .ok ceiling
  blocks_found : parameters.blocksPerYear = .ok blocks
  smallest_found : smallestYield envelope.scaling blocks ceiling = .ok envelope.apyMin
  below_ceiling : envelope.apyMin < ceiling
  penultimate_found : envelope.scaling.shrink envelope.scaling.largestIndex =
    envelope.penultimateIndex
  horizon_kept : horizon = envelope.horizon

theorem checkFloor_eq_ok {indexField : String} {apy floor : Rat} {passed : Unit} :
    checkFloor indexField apy floor = .ok passed ↔ floor < apy := by
  simp only [checkFloor, Attempt.ite_refuse_eq_ok, and_true, Rat.not_le]

theorem checkCeiling_eq_ok {indexField : String} {apy ceiling : Rat} {passed : Unit} :
    checkCeiling indexField apy ceiling = .ok passed ↔ apy < ceiling := by
  simp only [checkCeiling, Attempt.ite_refuse_eq_ok, and_true, Rat.not_le]

theorem secondIndexOf_eq_ok {indexField : String} {scaling : Scaling} {second : Nat} :
    secondIndexOf indexField scaling = .ok second ↔
      scaling.initialIndex < second ∧ scaling.grow scaling.initialIndex = second := by
  rw [← Nat.not_le]
  exact Attempt.refuse_or_ok_eq_ok (· ≤ scaling.initialIndex)

theorem leastInterestOf_eq_ok {total : Field} {scaling : Scaling} {interest : Nat} :
    leastInterestOf total scaling = .ok interest ↔
      interest ≠ 0 ∧ powerOfTen total.digits / scaling.accrualScaler = interest := by
  exact Attempt.refuse_or_ok_eq_ok (· = 0)

/-- An allocation has an envelope exactly when it passes every stage. -/
theorem ofAllocation_eq_ok {allocation : Allocation} {assetDecimals : Nat}
    {parameters : Parameters} {horizon : Horizon} {envelope : Envelope} :
    ofAllocation allocation assetDecimals parameters horizon = .ok envelope ↔
      ∃ grid index total floor ceiling blocks,
        Stages allocation assetDecimals parameters horizon grid index total floor ceiling blocks
          envelope := by
  simp only [ofAllocation, Attempt.bind_eq_ok, Attempt.ite_refuse_eq_ok, Attempt.pure_eq_ok,
    Allocation.requireRole_eq_ok, checkFloor_eq_ok, checkCeiling_eq_ok, secondIndexOf_eq_ok,
    leastInterestOf_eq_ok, Nat.not_lt]
  constructor
  · intro passed
    rcases passed with
      ⟨_, sound, decimals, grid, gridFound, index, oneIndex, total, oneTotal, scaling,
        scalingFound, range, totalRanged, ranges, suppliesRanged, largest, largestFound, floor,
        floorFound, _, above, second, ⟨larger, secondFound⟩, interest, ⟨positive, interestFound⟩,
        ceiling, ceilingFound, blocks, blocksFound, apyMin, smallestFound, _, below, rfl⟩
    exact ⟨grid, index, total, floor, ceiling, blocks, {
      parameters_sound := sound, decimals_le := decimals, grid_found := gridFound
      one_index := oneIndex, one_total := oneTotal, scaling_found := scalingFound
      total_range := totalRanged, supply_ranges := suppliesRanged
      largest_found := largestFound, floor_found := floorFound, above_floor := above
      second_found := secondFound, second_larger := larger, interest_found := interestFound
      interest_pos := positive, ceiling_found := ceilingFound, blocks_found := blocksFound
      smallest_found := smallestFound
      below_ceiling := below, penultimate_found := rfl, horizon_kept := rfl }⟩
  · intro passed
    rcases passed with ⟨grid, index, total, floor, ceiling, blocks, stages⟩
    refine ⟨(), stages.parameters_sound, stages.decimals_le, grid, stages.grid_found, index,
      stages.one_index, total, stages.one_total, _, stages.scaling_found, _, stages.total_range, _,
      stages.supply_ranges, _, stages.largest_found, floor, stages.floor_found, (),
      stages.above_floor, _, ⟨stages.second_larger, stages.second_found⟩, _,
      ⟨stages.interest_pos, stages.interest_found⟩, ceiling, stages.ceiling_found, blocks,
      stages.blocks_found, _, stages.smallest_found, (), stages.below_ceiling, ?_⟩
    rw [stages.penultimate_found]
    cases stages.horizon_kept
    rfl

/-- The initial index of an envelope moves, so it has come up to the accrual
scaler. -/
theorem Stages.accrualScaler_le {allocation : Allocation} {assetDecimals : Nat}
    {parameters : Parameters} {horizon : Horizon} {grid : FixedPoint.Grid} {index total : Field}
    {floor ceiling : Rat} {blocks : Nat} {envelope : Envelope}
    (stages : Stages allocation assetDecimals parameters horizon grid index total floor ceiling
      blocks envelope) :
    envelope.scaling.accrualScaler ≤ envelope.scaling.initialIndex := by
  have moves := stages.second_larger
  rw [← stages.second_found, Scaling.grow] at moves
  have positive : 0 < envelope.scaling.initialIndex / envelope.scaling.accrualScaler :=
    Nat.pos_of_lt_add_right moves
  exact (Nat.div_pos_iff.mp positive).2

end Envelope

end PackedLedger
