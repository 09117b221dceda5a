import PackedLedger.Proofs.Acceptance
import PackedLedger.Proofs.Coherence

namespace PackedLedger

/-!
# A check always answers

On its way a check divides, subtracts, adds in words, draws from ranges and relies on
what it has found, and any of these could be without a result.  None is, and the
reasons lie stages apart.  A layout without empty fields makes every largest value
positive, sound parameters make every divisor positive, a horizon that was built
lies ahead, and an index that goes on is below the limit of its loop.  So each stage
is answered under what the stages before it have established, and a chain of stages
is answered when each of them is.  All that a candidate has to bring along is that
its widths and digits add up within a word.
-/

open Attempt

/-! ## Parameters, slots and roles -/

theorem Parameters.check_answered (parameters : Parameters) : parameters.check.Answered := by
  unfold check
  cases parameters.fault? <;> trivial

theorem Slot.checkFilled_answered {slot : Slot}
    (fits : (slot.fields.map Field.bits).sum < Checked.wordLimit) : slot.checkFilled.Answered := by
  rcases slot.checkFilled_cases with ⟨_, _, passed⟩ | ⟨_, _, _, refused⟩ | ⟨overflows, _⟩
  · exact answered_of_eq_ok passed
  · rw [refused]
    trivial
  · exact absurd fits (Nat.not_lt_of_le overflows.leaves)

namespace Allocation

theorem findRole_answered (allocation : Allocation) (role : Role) :
    (allocation.findRole role).Answered := by
  unfold findRole
  split <;> trivial

theorem requireRole_answered (allocation : Allocation) (role : Role) :
    (allocation.requireRole role).Answered := by
  apply answered_bind (allocation.findRole_answered role)
  intro found _
  cases found <;> trivial

end Allocation

/-! ## Horizon -/

namespace Horizon

/-- The horizon checks its own divisor, and subtracts only what is smaller. -/
theorem ofBits_answered (bits now : Nat) (parameters : Parameters) :
    (ofBits bits now parameters).Answered := by
  apply answered_bind parameters.check_answered
  intro _ sound
  apply answered_ite_refuse
  intro ahead
  have year := (Parameters.divides_of_check sound).year
  apply answered_bind
  · exact answered_of_eq_ok (Checked.difference_of_le (Nat.le_of_not_le ahead))
  · intro seconds _
    apply answered_bind
    · exact answered_of_eq_ok (Checked.unlessZero_of_ne (Int.natCast_ne_zero.mpr year))
    · intro years _
      exact answered_ite_refuse fun _ => trivial

theorem ofAllocation_answered (allocation : Allocation) (now : Nat) (parameters : Parameters) :
    (ofAllocation allocation now parameters).Answered := by
  apply answered_bind (allocation.requireRole_answered .timestamp)
  intro timestamp _
  exact ofBits_answered timestamp.bits now parameters

end Horizon

/-! ## Envelope -/

theorem YieldSetting.value_answered {setting : YieldSetting} (divides : setting.denominator ≠ 0) :
    setting.value.Answered :=
  answered_of_eq_ok ((value_eq_ok divides).mpr rfl)

theorem smallestYield_answered {scaling : Scaling} (someInitial : 0 < scaling.initialIndex)
    (blocks : Nat) (ceiling : Rat) : (smallestYield scaling blocks ceiling).Answered := by
  rcases smallestYield_spec someInitial blocks ceiling with ⟨taken, _, found⟩
  exact answered_of_eq_ok found

namespace Envelope

variable {allocation : Allocation} {assetDecimals : Nat} {parameters : Parameters}
  {grid : FixedPoint.Grid} {horizon : Horizon}

namespace Sized

variable (sized : Sized allocation assetDecimals parameters)
include sized

/-- The total borrows field is not empty, so its largest value divides. -/
theorem scaling_answered : (Scaling.ofAllocation allocation).Answered := by
  apply answered_bind (allocation.requireRole_answered .borrowIndex)
  intro index _
  apply answered_bind (allocation.requireRole_answered .totalBorrows)
  intro total oneTotal
  apply answered_bind (allocation.requireRole_answered .accountBorrows)
  intro account _
  have wide := sized.wide_of_one (Allocation.requireRole_eq_ok.mp oneTotal)
  apply answered_bind
  · exact answered_of_eq_ok (Checked.unlessZero_of_ne (Int.natCast_ne_zero.mpr (Nat.ne_of_gt wide)))
  · intro borrowsScaler _
    trivial

theorem range_answered (sound : grid.Sound) {field : Field} (packed : field ∈ allocation.fields)
    (checked : field.role.isRangeChecked) :
    (FieldRange.of field assetDecimals parameters grid).Answered := by
  have wide := allocation.bits_ne_zero sized.filled packed
  rcases FieldRange.of_eq_ite parameters sound wide (sized.fits field packed checked) with
    ⟨_, found⟩
  rw [found]
  exact answered_ite_refuse fun _ => trivial

theorem totalRange_answered (sound : grid.Sound) {total : Field}
    (oneTotal : allocation.withRole .totalBorrows = [total]) :
    (FieldRange.of total assetDecimals parameters grid).Answered := by
  have held : total ∈ allocation.withRole .totalBorrows := by
    rw [oneTotal]
    exact List.mem_singleton_self total
  have packed := (Allocation.mem_of_withRole held).1
  exact sized.range_answered sound packed ((isRangeChecked_iff packed).mpr (.inl held))

theorem supplyRanges_answered (sound : grid.Sound) :
    Answered ((supplyFields allocation).mapM fun field =>
      FieldRange.of field assetDecimals parameters grid) := by
  apply answered_mapM
  intro field supplied
  have packed := (List.mem_filter.mp supplied).1
  exact sized.range_answered sound packed ((isRangeChecked_iff packed).mpr (.inr supplied))

/-- The index holds something, so its growth has a logarithm, and the horizon that the
logarithm is spread over lies ahead. -/
theorem largestYield_answered (sound : grid.Sound) {scaling : Scaling} {index : Field}
    (constants : Scaling.ofAllocation allocation = .ok scaling)
    (oneIndex : allocation.withRole .borrowIndex = [index]) (ahead : 0 < horizon.years) :
    (largestYield scaling horizon grid).Answered := by
  have someLargest : 0 < scaling.largestIndex := by
    rw [Scaling.largestIndex_eq constants oneIndex]
    exact sized.wide_of_one oneIndex
  rcases largestYield_total sound (Scaling.initialIndex_pos constants) someLargest ahead with
    ⟨largest, found⟩
  exact answered_of_eq_ok found

end Sized

theorem ofAllocation_answered (sized : Sized allocation assetDecimals parameters)
    (ahead : 0 < horizon.years) :
    (ofAllocation allocation assetDecimals parameters horizon).Answered := by
  have divides := sized.divides
  apply answered_bind parameters.check_answered
  intro _ _
  apply answered_ite_refuse
  intro _
  rcases FixedPoint.Grid.ofDigits_sound Rejection sized.few with ⟨grid, built, sound⟩
  rw [built, ok_bind]
  apply answered_bind (allocation.requireRole_answered .borrowIndex)
  intro index foundIndex
  apply answered_bind (allocation.requireRole_answered .totalBorrows)
  intro total foundTotal
  rw [Allocation.requireRole_eq_ok] at foundIndex foundTotal
  apply answered_bind sized.scaling_answered
  intro scaling constants
  apply answered_bind (sized.totalRange_answered sound foundTotal)
  intro totalRange _
  apply answered_bind (sized.supplyRanges_answered sound)
  intro supplyRanges _
  apply answered_bind (sized.largestYield_answered sound constants foundIndex ahead)
  intro largest _
  apply answered_bind (YieldSetting.value_answered divides.floor)
  intro floor _
  apply answered_bind
  · exact answered_ite_refuse fun _ => trivial
  intro _ _
  apply answered_bind
  · exact answered_ite_refuse fun _ => trivial
  intro secondIndex _
  apply answered_bind
  · exact answered_ite_refuse fun _ => trivial
  intro leastInterest _
  apply answered_bind (YieldSetting.value_answered divides.ceiling)
  intro ceiling _
  apply answered_bind (answered_of_eq_ok (Parameters.blocksPerYear_eq_ok divides))
  intro blocks _
  apply answered_bind (smallestYield_answered (Scaling.initialIndex_pos constants) blocks ceiling)
  intro apyMin _
  apply answered_bind
  · exact answered_ite_refuse fun _ => trivial
  intro _ _
  trivial

end Envelope

/-! ## Sweep -/

namespace Sweep

theorem unitBase_answered (sweep : Sweep) (index : Nat) : (sweep.unitBase index).Answered := by
  rcases Nat.eq_zero_or_pos index with zero | positive
  · rw [zero, unitBase_zero]
    trivial
  · rcases sweep.unitBase_total positive with ⟨base, found⟩
    exact answered_of_eq_ok found

theorem checkStep_answered (sweep : Sweep) (origin : Origin) (index next : Nat) :
    (sweep.checkStep origin index next).Answered := by
  apply answered_ite_refuse
  intro _
  apply answered_bind (sweep.unitBase_answered index)
  intro before _
  apply answered_bind (sweep.unitBase_answered next)
  intro after _
  exact answered_ite_refuse fun _ => trivial

/-- A sweep draws only from ranges that are not empty, so whatever ends it early is
the check of a step. -/
theorem run_answered (sweep : Sweep) (samples seed : Nat) :
    (sweep.run samples seed).result.Answered := by
  cases ends : (sweep.run samples seed).result with
  | ok summary => trivial
  | error failure =>
      rcases exists_tested_of_refused ends with ⟨origin, index, next, _, refused⟩
      have answered := sweep.checkStep_answered origin index next
      rw [refused] at answered
      cases failure with
      | refused reason => trivial
      | undefined step => exact answered

theorem ofAllocation_answered (allocation : Allocation) (envelope : Envelope) :
    (ofAllocation allocation envelope).Answered := by
  apply answered_bind (allocation.requireRole_answered .borrowIndex)
  intro index _
  apply answered_bind (allocation.requireRole_answered .accountBorrows)
  intro borrows _
  trivial

end Sweep

/-! ## Reserves -/

namespace Reserve

variable {parameters : Parameters}

/-- The closed form ends with an interest or without one, and what it relies on about
the interest before holds. -/
theorem checkScenario_answered (scenario : Scenario) (totalSupply inventory assetUnit : Nat)
    (divides : parameters.Divides) :
    (checkScenario scenario totalSupply inventory assetUnit parameters).Answered := by
  unfold checkScenario
  rcases firstGrowth_spec totalSupply inventory (Nat.pos_of_ne_zero divides.reserve) with
    ⟨first, found, _⟩ | ⟨found, _⟩
  · rw [found, ok_bind]
    exact answered_ite_refuse fun _ => trivial
  · rw [found]
    trivial

theorem check_answered (supply : Field) (assetDecimals : Nat) (divides : parameters.Divides) :
    (check supply assetDecimals parameters).Answered := by
  apply answered_bind
  · exact answered_of_eq_ok (Checked.unlessZero_of_ne divides.erosion)
  · intro erodedSupply _
    apply answered_bind (checkScenario_answered .full _ _ _ divides)
    intro full _
    apply answered_bind (checkScenario_answered .eroded _ _ _ divides)
    intro eroded _
    trivial

end Reserve

/-! ## Candidate -/

namespace Candidate

variable {allocation : Allocation} {assetDecimals now : Nat} {parameters : Parameters}

theorem reserveGrowth_answered (allocation : Allocation) (assetDecimals : Nat)
    (divides : parameters.Divides) :
    (reserveGrowth allocation assetDecimals parameters).Answered := by
  apply answered_bind (allocation.findRole_answered .totalSupply)
  intro holder _
  cases holder with
  | none => trivial
  | some supply =>
      apply answered_bind (Reserve.check_answered supply assetDecimals divides)
      intro growth _
      trivial

/-- While the widths of each slot and the digits of each range-checked field add up
within a word, and at no more than a million working digits, the check of a
candidate ends with a report or with a reason against it.  No step of it is without
a result. -/
theorem check_always_answers
    (widthsFit : ∀ slot ∈ allocation.slots,
      (slot.fields.map Field.bits).sum < Checked.wordLimit)
    (digitsFit : ∀ field ∈ allocation.fields, field.role.isRangeChecked ->
      field.digits + assetDecimals < Checked.wordLimit)
    (few : parameters.mathDigits ≤ 10 ^ 6) :
    (check allocation assetDecimals parameters now).Answered := by
  apply answered_bind parameters.check_answered
  intro _ sound
  have divides := Parameters.divides_of_check sound
  apply answered_bind
  · exact answered_forM fun slot member => Slot.checkFilled_answered (widthsFit slot member)
  intro _ filled
  have sized : Envelope.Sized allocation assetDecimals parameters :=
    ⟨sound, (Allocation.checkFilled_eq_ok widthsFit).mp filled, digitsFit, few⟩
  apply answered_bind (Horizon.ofAllocation_answered allocation now parameters)
  intro horizon built
  rcases bind_eq_ok.mp built with ⟨timestamp, _, lasting⟩
  apply answered_bind (Envelope.ofAllocation_answered sized (Horizon.years_pos lasting))
  intro envelope _
  apply answered_bind (Sweep.ofAllocation_answered allocation envelope)
  intro sweep _
  apply answered_bind (sweep.run_answered parameters.samples parameters.seed)
  intro monotonicity _
  apply answered_bind (reserveGrowth_answered allocation assetDecimals divides)
  intro growth _
  trivial

/-- The second layout is turned down for an asset of two decimals: a reason is an
answer, too. -/
theorem check_always_answers_second_generation :
    (check Generation.v2.allocation 2 { samples := 4 } 1700000000).Answered :=
  check_always_answers (by decide) (by decide) (by decide)

end Candidate

end PackedLedger
