import PackedLedger.Allocation.Basic
import PackedLedger.Proofs.CappedYield
import PackedLedger.Proofs.IndexSteps
import PackedLedger.Proofs.Refusals

namespace PackedLedger

/-!
# More digits of the index do not lower the smallest yield

Every accrual adds the index over the accrual scaler, rounded down.  An index with more
digits starts higher by a whole factor, and then a step adds at least that factor times
what it added before: less is rounded away.  So the relative gain of a step, and with it
the smallest yield, never falls when the index gets more digits.  An allocation refused
for the rate floor stays refused, whatever precision its index is given.  What bounds the
smallest yield from below is the accrual scaler, which the index does not touch.
-/

namespace Scaling

variable {coarse fine : Scaling}

theorem mul_grow_le (scaling : Scaling) (factor index : Nat) :
    factor * scaling.grow index ≤ scaling.grow (factor * index) := by
  rw [grow, grow, Nat.mul_add]
  exact Nat.add_le_add_left (Nat.mul_div_le_mul_div_assoc _ _ _) _

theorem mul_iterate_le (scaling : Scaling) (factor steps index : Nat) :
    factor * scaling.iterate steps index ≤ scaling.iterate steps (factor * index) := by
  induction steps with
  | zero => exact Nat.le_refl _
  | succ steps inductionHypothesis =>
      rw [iterate_succ_grow, iterate_succ_grow]
      exact (scaling.mul_grow_le factor _).trans (scaling.grow_mono inductionHypothesis)

/-- One scaling starts at a multiple of the index of another, and both accrue in the same
steps. -/
structure Refines (fine coarse : Scaling) : Prop where
  accrual : fine.accrualScaler = coarse.accrualScaler
  initial : coarse.initialIndex ∣ fine.initialIndex
  positive : 0 < fine.initialIndex

namespace Refines

theorem iterate_eq (refines : fine.Refines coarse) (steps index : Nat) :
    fine.iterate steps index = coarse.iterate steps index := by
  induction steps generalizing index with
  | zero => rfl
  | succ steps inductionHypothesis =>
      have same : fine.grow index = coarse.grow index := by
        rw [grow, grow, increment, increment, refines.accrual]
      rw [iterate_succ, iterate_succ, same, inductionHypothesis]

/-- No yield falls when the index starts higher by a whole factor. -/
theorem yieldAfter_le (refines : fine.Refines coarse) (steps : Nat) :
    coarse.yieldAfter steps ≤ fine.yieldAfter steps := by
  rcases refines.initial with ⟨factor, initial⟩
  have positive := refines.positive
  rw [initial] at positive
  have someFactor : (factor : Rat) ≠ 0 :=
    Nat.cast_ne_zero.mpr (Nat.pos_of_mul_pos_left positive).ne'
  have grown : factor * coarse.iterate steps coarse.initialIndex ≤
      coarse.iterate steps (factor * coarse.initialIndex) :=
    coarse.mul_iterate_le factor steps coarse.initialIndex
  rw [yieldAfter, yieldAfter, refines.iterate_eq, initial, Nat.mul_comm coarse.initialIndex,
    ← mul_div_mul_left _ _ someFactor, mul_sub, Nat.cast_mul]
  apply div_le_div_of_nonneg_right _ (by positivity)
  apply sub_le_sub_right
  exact_mod_cast grown

/-- A smallest yield that comes up to the ceiling still does so when the index starts
higher by a whole factor. -/
theorem reaches (refines : fine.Refines coarse) (someInitial : 0 < coarse.initialIndex)
    {blocks : Nat} {ceiling yield : Rat} (found : smallestYield coarse blocks ceiling = .ok yield)
    (enough : ceiling ≤ yield) :
    ∃ other, smallestYield fine blocks ceiling = .ok other ∧ ceiling ≤ other := by
  have uncapped : ceiling ≤ coarse.yieldAfter blocks :=
    (le_smallestYield_iff someInitial found).mp enough
  rcases smallestYield_spec refines.positive blocks ceiling with ⟨taken, _, value⟩
  refine ⟨_, value, ?_⟩
  apply (le_smallestYield_iff refines.positive value).mpr
  exact uncapped.trans (refines.yieldAfter_le blocks)

end Refines

end Scaling

/-! ## Giving the index more digits -/

/-- The index with so many implied digits; any other field is left as it is. -/
def Field.withIndexPrecision (precision : Nat) (field : Field) : Field :=
  if field.role = .borrowIndex then { field with precision := some precision } else field

namespace Field

variable {field : Field} {precision : Nat}

@[simp] theorem withIndexPrecision_role :
    (field.withIndexPrecision precision).role = field.role := by
  unfold withIndexPrecision
  split <;> rfl

@[simp] theorem withIndexPrecision_bits :
    (field.withIndexPrecision precision).bits = field.bits := by
  unfold withIndexPrecision
  split <;> rfl

@[simp] theorem withIndexPrecision_digits (index : field.role = .borrowIndex) :
    (field.withIndexPrecision precision).digits = precision := by
  rw [withIndexPrecision, if_pos index]
  rfl

end Field

namespace Allocation

/-- The allocation with so many digits for its index, and everything else unchanged. -/
def withIndexPrecision (precision : Nat) (allocation : Allocation) : Allocation :=
  { allocation with
    slots := allocation.slots.map fun slot =>
      { slot with fields := slot.fields.map (Field.withIndexPrecision precision) } }

@[simp] theorem fields_withIndexPrecision (precision : Nat) (allocation : Allocation) :
    (allocation.withIndexPrecision precision).fields =
      allocation.fields.map (Field.withIndexPrecision precision) := by
  simp only [fields, withIndexPrecision, List.flatMap_map, List.map_flatMap]

@[simp] theorem withRole_withIndexPrecision (precision : Nat) (allocation : Allocation)
    (role : Role) : (allocation.withIndexPrecision precision).withRole role =
      (allocation.withRole role).map (Field.withIndexPrecision precision) := by
  simp [withRole, List.filter_map, Function.comp_def]

end Allocation

/-- With more digits for the index an allocation still has its constants, and they are
finer. -/
theorem Scaling.exists_refines {allocation : Allocation} {scaling : Scaling} {index : Field}
    {precision : Nat} (found : ofAllocation allocation = .ok scaling)
    (oneIndex : allocation.withRole .borrowIndex = [index]) (more : index.digits ≤ precision) :
    ∃ fine, ofAllocation (allocation.withIndexPrecision precision) = .ok fine ∧
      fine.Refines scaling := by
  rcases ofAllocation_eq_ok.mp found with ⟨same, total, account, oneSame, oneTotal, oneAccount,
    wide, rfl⟩
  cases oneIndex.symm.trans oneSame
  have held : index ∈ allocation.withRole .borrowIndex := by
    rw [oneIndex]
    exact List.mem_singleton_self index
  have digits : (index.withIndexPrecision precision).digits = precision :=
    Field.withIndexPrecision_digits (Allocation.mem_of_withRole held).2
  refine ⟨ofFields allocation.accrualPrecision (index.withIndexPrecision precision)
    (total.withIndexPrecision precision) (account.withIndexPrecision precision), ?_, ?_⟩
  · apply ofAllocation_eq_ok.mpr
    refine ⟨_, _, _, ?_, ?_, ?_, ?_, rfl⟩
    · simp [oneIndex]
    · simp [oneTotal]
    · simp [oneAccount]
    · simpa using wide
  · exact ⟨rfl, by simpa [ofFields, digits] using pow_dvd_pow 10 more, powerOfTen_pos _⟩

/-! ## The refusal for the rate floor -/

namespace Envelope

variable {allocation : Allocation} {assetDecimals : Nat} {parameters : Parameters}
  {horizon : Horizon} {indexField : String} {reached required : Rat}

/-- Where an envelope is refused for the rate floor, the smallest yield comes up to the
ceiling with any higher precision of the index. -/
theorem reached_with_precision_of_rateFloor
    (refused : ofAllocation allocation assetDecimals parameters horizon =
      .error (.refused (.rateFloor indexField reached required))) :
    ∃ index blocks, allocation.withRole .borrowIndex = [index] ∧ index.name = indexField ∧
      parameters.apyCeiling.value = .ok required ∧ parameters.blocksPerYear = .ok blocks ∧
      ∀ precision, index.digits ≤ precision ->
        ∃ finer yield,
          Scaling.ofAllocation (allocation.withIndexPrecision precision) = .ok finer ∧
            smallestYield finer blocks required = .ok yield ∧ required ≤ yield := by
  rcases reached_of_rateFloor refused with ⟨index, scaling, blocks, oneIndex, name, constants,
    foundCeiling, foundBlocks, foundYield, enough⟩
  refine ⟨index, blocks, oneIndex, name, foundCeiling, foundBlocks, ?_⟩
  intro precision more
  rcases Scaling.exists_refines constants oneIndex more with ⟨finer, foundFiner, refines⟩
  rcases refines.reaches (Scaling.initialIndex_pos constants) foundYield enough with
    ⟨yield, value, still⟩
  exact ⟨finer, yield, foundFiner, value, still⟩

/-- An allocation has no envelope while its smallest yield comes up to the ceiling. -/
theorem ne_ok_of_reached {scaling : Scaling} {ceiling yield : Rat} {blocks : Nat}
    (constants : Scaling.ofAllocation allocation = .ok scaling)
    (foundCeiling : parameters.apyCeiling.value = .ok ceiling)
    (foundBlocks : parameters.blocksPerYear = .ok blocks)
    (foundYield : smallestYield scaling blocks ceiling = .ok yield) (enough : ceiling ≤ yield)
    (envelope : Envelope) :
    ofAllocation allocation assetDecimals parameters horizon ≠ .ok envelope := by
  intro derived
  rcases ofAllocation_eq_ok.mp derived with ⟨_, _, _, _, _, _, stages⟩
  cases constants.symm.trans stages.scaling_found
  cases foundCeiling.symm.trans stages.ceiling_found
  cases foundBlocks.symm.trans stages.blocks_found
  cases foundYield.symm.trans stages.smallest_found
  exact absurd stages.below_ceiling (not_lt.mpr enough)

/-- The change that a refusal for the rate floor suggests never clears it.  With any
higher precision of the index, and everything else unchanged, the smallest yield still
comes up to the ceiling, and the allocation still has no envelope. -/
theorem index_precision_never_clears_rateFloor
    (refused : ofAllocation allocation assetDecimals parameters horizon =
      .error (.refused (.rateFloor indexField reached required))) :
    ∃ index blocks, allocation.withRole .borrowIndex = [index] ∧ index.name = indexField ∧
      parameters.apyCeiling.value = .ok required ∧ parameters.blocksPerYear = .ok blocks ∧
      ∀ precision, index.digits ≤ precision ->
        (∃ finer yield,
          Scaling.ofAllocation (allocation.withIndexPrecision precision) = .ok finer ∧
            smallestYield finer blocks required = .ok yield ∧ required ≤ yield) ∧
        ∀ envelope, ofAllocation (allocation.withIndexPrecision precision) assetDecimals
          parameters horizon ≠ .ok envelope := by
  rcases reached_with_precision_of_rateFloor refused with
    ⟨index, blocks, oneIndex, name, foundCeiling, foundBlocks, still⟩
  refine ⟨index, blocks, oneIndex, name, foundCeiling, foundBlocks, ?_⟩
  intro precision more
  rcases still precision more with ⟨finer, yield, foundFiner, value, enough⟩
  exact ⟨⟨finer, yield, foundFiner, value, enough⟩,
    ne_ok_of_reached foundFiner foundCeiling foundBlocks value enough⟩

/-- The second generation with nine digits for an accrual instead of twelve. -/
def coarseAllocation : Allocation :=
  { Generation.v2.allocation with name := "coarse", accrualPrecision := 9 }

def coarseHorizon : Horizon :=
  Horizon.left 32 1700000000 31536000

/-- The coarse allocation is refused for the rate floor, and so it is with any number of
digits from its twelve on. -/
theorem index_precision_never_clears_rateFloor_coarse :
    Horizon.ofAllocation coarseAllocation 1700000000 {} = .ok coarseHorizon ∧
      ofAllocation coarseAllocation 6 {} coarseHorizon =
        .error (.refused (.rateFloor "borrowIndex" (1 / 2000) (1 / 2000))) ∧
      ∀ precision, 12 ≤ precision -> ∀ envelope,
        ofAllocation (coarseAllocation.withIndexPrecision precision) 6 {} coarseHorizon ≠
          .ok envelope := by
  have refused : ofAllocation coarseAllocation 6 {} coarseHorizon =
      .error (.refused (.rateFloor "borrowIndex" (1 / 2000) (1 / 2000))) := by decide +kernel
  refine ⟨by decide +kernel, refused, ?_⟩
  intro precision more
  rcases index_precision_never_clears_rateFloor refused with ⟨index, _, oneIndex, _, _, _, still⟩
  cases oneIndex
  exact (still precision more).2

/-- The coarse allocation is told to increase the precision of its index, and with none
that is larger is its smallest yield below the ceiling. -/
theorem coarse_keeps_its_smallest_yield :
    ofAllocation coarseAllocation 6 {} coarseHorizon =
        .error (.refused (.rateFloor "borrowIndex" (1 / 2000) (1 / 2000))) ∧
      (Rejection.rateFloor "borrowIndex" (1 / 2000) (1 / 2000)).remediation =
        "increase `borrowIndex` precision" ∧
      ¬ ∃ precision finer blocks ceiling yield, 12 < precision ∧
        Scaling.ofAllocation (coarseAllocation.withIndexPrecision precision) = .ok finer ∧
        ({} : Parameters).blocksPerYear = .ok blocks ∧
        ({} : Parameters).apyCeiling.value = .ok ceiling ∧
        smallestYield finer blocks ceiling = .ok yield ∧ yield < ceiling := by
  have refused : ofAllocation coarseAllocation 6 {} coarseHorizon =
      .error (.refused (.rateFloor "borrowIndex" (1 / 2000) (1 / 2000))) := by decide +kernel
  refine ⟨refused, by decide, ?_⟩
  intro cleared
  rcases cleared with
    ⟨precision, finer, blocks, ceiling, yield, larger, foundFiner, foundBlocks, foundCeiling,
      value, below⟩
  rcases reached_with_precision_of_rateFloor refused with
    ⟨index, sameBlocks, oneIndex, _, sameCeiling, foundSameBlocks, still⟩
  cases oneIndex
  cases foundCeiling.symm.trans sameCeiling
  cases foundBlocks.symm.trans foundSameBlocks
  rcases still precision larger.le with ⟨sameFiner, sameYield, foundSame, sameValue, enough⟩
  cases foundFiner.symm.trans foundSame
  cases value.symm.trans sameValue
  exact absurd below (not_lt.mpr enough)

end Envelope

end PackedLedger
