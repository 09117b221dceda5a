import PackedLedger.Proofs.IndexSteps
import PackedLedger.Proofs.Requirements
import PackedLedger.Proofs.YieldSign

namespace PackedLedger

/-!
# A derived envelope has its bounds in order

A sweep refuses a step for one of two reasons: its index does not rise, or it
keeps its base units.  The bounds of a derived envelope rule out the first, and
they rule out the index zero.  Most of their order is arithmetic.  That the last
index lies above the first is not checked anywhere, and follows from a largest
yield above the floor.  So what remains is one kind of refusal, and it is about
the base units of a tested step.
-/

theorem Horizon.years_pos {bits now : Nat} {parameters : Parameters} {horizon : Horizon}
    (built : ofBits bits now parameters = .ok horizon) : 0 < horizon.years := by
  rcases Attempt.bind_eq_ok.mp built with ⟨_, sound, _⟩
  rcases (ofBits_eq_ok sound).mp built with ⟨lasting, _, rfl⟩
  exact left_years_pos lasting (Parameters.divides_of_check sound).year

/-! ## The bounds -/

namespace Scaling

theorem grow_le_double (scaling : Scaling) (index : Nat) : scaling.grow index ≤ 2 * index := by
  have part : scaling.increment index ≤ index := Nat.div_le_self _ _
  rw [grow]
  omega

theorem shrink_lt (scaling : Scaling) {index : Nat} (positive : 0 < index) :
    scaling.shrink index < index := by
  apply Nat.div_lt_of_lt_mul
  rw [Nat.mul_comm]
  exact Nat.mul_lt_mul_of_pos_right (Nat.lt_succ_self _) positive

theorem shrink_pos (scaling : Scaling) {index : Nat} (two : 2 ≤ index) :
    0 < scaling.shrink index := by
  have positive := scaling.accrualScaler_pos
  apply Nat.div_pos _ (Nat.succ_pos _)
  calc
    scaling.accrualScaler + 1 ≤ 2 * scaling.accrualScaler := by omega
    _ ≤ index * scaling.accrualScaler := Nat.mul_le_mul_right _ two

end Scaling

namespace Envelope

/-- The bounds of an envelope are in order. -/
structure Coherent (envelope : Envelope) : Prop where
  scaler_le_initial : envelope.scaling.accrualScaler ≤ envelope.scaling.initialIndex
  initial_lt_largest : envelope.scaling.initialIndex < envelope.scaling.largestIndex
  initial_lt_second : envelope.scaling.initialIndex < envelope.secondIndex
  second_le_double : envelope.secondIndex ≤ 2 * envelope.scaling.initialIndex
  penultimate_pos : 1 ≤ envelope.penultimateIndex
  penultimate_lt_largest : envelope.penultimateIndex < envelope.scaling.largestIndex

variable {allocation : Allocation} {assetDecimals : Nat} {parameters : Parameters}
  {horizon : Horizon} {grid : FixedPoint.Grid} {index total : Field} {floor ceiling : Rat}
  {blocks : Nat} {envelope : Envelope}

/-- A floor is never below zero, so a yield above it belongs to an index that
rises. -/
theorem Stages.initial_lt_largest
    (stages : Stages allocation assetDecimals parameters horizon grid index total floor ceiling
      blocks envelope) (ahead : 0 < horizon.years) :
    envelope.scaling.initialIndex < envelope.scaling.largestIndex := by
  apply Nat.lt_of_not_le
  intro flat
  have nonpos := largestYield_nonpos stages.grid_found
    (Scaling.initialIndex_pos stages.scaling_found) ahead flat stages.largest_found
  have floorNonneg : 0 ≤ floor := by
    rcases Checked.unlessZero_eq_ok.mp stages.floor_found with ⟨_, rfl⟩
    exact Rat.divInt_nonneg (Int.natCast_nonneg _) (Int.natCast_nonneg _)
  exact absurd stages.above_floor (not_lt.mpr (nonpos.trans floorNonneg))

theorem Stages.coherent
    (stages : Stages allocation assetDecimals parameters horizon grid index total floor ceiling
      blocks envelope) (ahead : 0 < horizon.years) : envelope.Coherent := by
  have rises := stages.initial_lt_largest ahead
  have initial := Scaling.initialIndex_pos stages.scaling_found
  refine ⟨stages.accrualScaler_le, rises, stages.second_larger, ?_, ?_, ?_⟩
  · rw [← stages.second_found]
    exact envelope.scaling.grow_le_double _
  · rw [← stages.penultimate_found]
    exact envelope.scaling.shrink_pos (by omega)
  · rw [← stages.penultimate_found]
    exact envelope.scaling.shrink_lt (Nat.lt_trans initial rises)

end Envelope

/-! ## The steps that a sweep looks at -/

namespace Sweep

variable {sweep : Sweep} {samples seed : Nat}

/-- The steps that a sweep looks at, each with the place it came from. -/
inductive Tests (sweep : Sweep) (samples seed : Nat) : Origin -> Nat -> Nat -> Prop
  | first : Tests sweep samples seed .lowerBoundary sweep.scaling.initialIndex sweep.secondIndex
  | last :
    Tests sweep samples seed .upperBoundary sweep.penultimateIndex sweep.scaling.largestIndex
  | drawn {ordinal index : Nat} (less : ordinal < samples) (inside : sweep.InDomain index)
      (draw : drawnAt sweep.scaling.initialIndex sweep.penultimateIndex ordinal (.ofSeed seed) =
        .ok index) :
    Tests sweep samples seed (.sample ordinal seed) index (sweep.scaling.grow index)

/-- A sweep is refused only by the check of a step that it looks at. -/
theorem exists_tested_of_refused {failure : Failure Rejection}
    (refused : (sweep.run samples seed).result = .error failure) :
    ∃ origin index next, sweep.Tests samples seed origin index next ∧
      sweep.checkStep origin index next = .error failure := by
  cases ends : sweep.checkBoundaries with
  | ok passed =>
      rcases exists_draw_of_refused ends refused with
        ⟨ordinal, index, less, above, below, drawn, check⟩
      exact ⟨_, _, _, .drawn less ⟨above, below⟩ drawn, check⟩
  | error other =>
      have same : other = failure := by
        rw [run, ends] at refused
        cases refused
        rfl
      rw [checkBoundaries] at ends
      cases first :
          sweep.checkStep .lowerBoundary sweep.scaling.initialIndex sweep.secondIndex with
      | error lower =>
          rw [first] at ends
          cases ends
          exact ⟨_, _, _, .first, same ▸ first⟩
      | ok passed =>
          exact ⟨_, _, _, .last, by simpa [first, same] using ends⟩

end Sweep

namespace Envelope

variable {allocation : Allocation} {assetDecimals bits now : Nat}
  {parameters lifetime : Parameters} {horizon : Horizon} {envelope : Envelope}

/-- An allocation with an envelope has a sweep. -/
theorem exists_sweep
    (derived : ofAllocation allocation assetDecimals parameters horizon = .ok envelope) :
    ∃ index account : Field, allocation.withRole .accountBorrows = [account] ∧
      Sweep.ofAllocation allocation envelope =
        .ok ⟨envelope.scaling, index.name, account.name, envelope.secondIndex,
          envelope.penultimateIndex⟩ := by
  rcases ofAllocation_eq_ok.mp derived with ⟨grid, field, total, floor, ceiling, blocks, stages⟩
  rcases Scaling.ofAllocation_eq_ok.mp stages.scaling_found with
    ⟨index, _, account, oneIndex, _, oneAccount, _, _⟩
  exact ⟨index, account, oneAccount,
    Sweep.ofAllocation_eq_ok.mpr ⟨index, account, oneIndex, oneAccount, rfl⟩⟩

/-- Every step that the sweep of a coherent envelope looks at rises from a
positive index. -/
theorem Coherent.tested_rises (coherent : envelope.Coherent) {indexField borrowsField : String}
    {samples seed index next : Nat} {origin : Origin}
    (tested : Sweep.Tests ⟨envelope.scaling, indexField, borrowsField, envelope.secondIndex,
      envelope.penultimateIndex⟩ samples seed origin index next) : 0 < index ∧ index < next := by
  have someInitial : 0 < envelope.scaling.initialIndex :=
    Nat.lt_of_lt_of_le envelope.scaling.accrualScaler_pos coherent.scaler_le_initial
  cases tested with
  | first => exact ⟨someInitial, coherent.initial_lt_second⟩
  | last => exact ⟨coherent.penultimate_pos, coherent.penultimate_lt_largest⟩
  | drawn _ inside _ =>
      exact ⟨Nat.lt_of_lt_of_le someInitial inside.1,
        Scaling.lt_grow (coherent.scaler_le_initial.trans inside.1)⟩

/-- The bounds of a derived envelope are in order, and its sweep, which exists,
is refused for one reason only, whatever it draws: a step that it looked at rises
and leaves one amount unit at the base units it had. -/
theorem refused_only_at_kept_units (built : Horizon.ofBits bits now lifetime = .ok horizon)
    (derived : ofAllocation allocation assetDecimals parameters horizon = .ok envelope) :
    envelope.Coherent ∧
    ∃ account sweep, allocation.withRole .accountBorrows = [account] ∧
      Sweep.ofAllocation allocation envelope = .ok sweep ∧
      ∀ samples seed failure, (sweep.run samples seed).result = .error failure ->
        ∃ origin index next base, sweep.Tests samples seed origin index next ∧ index < next ∧
          sweep.unitBase index = .ok base ∧ sweep.unitBase next = .ok base ∧
          failure = .refused (.quantization account.name (.baseUnits origin index next base)) := by
  rcases ofAllocation_eq_ok.mp derived with ⟨grid, field, total, floor, ceiling, blocks, stages⟩
  have coherent := stages.coherent (Horizon.years_pos built)
  rcases exists_sweep derived with ⟨index, account, oneAccount, found⟩
  refine ⟨coherent, account, _, oneAccount, found, ?_⟩
  intro samples seed failure refused
  rcases Sweep.exists_tested_of_refused refused with ⟨origin, index, next, tested, check⟩
  rcases coherent.tested_rises tested with ⟨positive, larger⟩
  rcases Sweep.kept_of_checkStep_refused (Scaling.borrowsScaler_nonneg stages.scaling_found)
    positive larger check with ⟨base, before, after, reason⟩
  exact ⟨origin, index, next, base, tested, larger, before, after, reason⟩

/-- The narrow pool has such an envelope, and a sweep of it is refused for this
reason. -/
theorem refused_only_at_kept_units_narrow :
    ∃ horizon envelope, Horizon.ofBits 32 1700000000 Sweep.narrowParameters = .ok horizon ∧
      ofAllocation Sweep.narrowAllocation 0 Sweep.narrowParameters horizon = .ok envelope ∧
      envelope.Coherent ∧
      ∃ account sweep failure, Sweep.narrowAllocation.withRole .accountBorrows = [account] ∧
        Sweep.ofAllocation Sweep.narrowAllocation envelope = .ok sweep ∧
        (sweep.run 10 0).result = .error failure ∧
        ∃ origin index next base, sweep.Tests 10 0 origin index next ∧ index < next ∧
          sweep.unitBase index = .ok base ∧ sweep.unitBase next = .ok base ∧
          failure = .refused (.quantization account.name (.baseUnits origin index next base)) := by
  have found : Attempt.Holds (Horizon.ofBits 32 1700000000 Sweep.narrowParameters) fun horizon =>
      Attempt.Holds (ofAllocation Sweep.narrowAllocation 0 Sweep.narrowParameters horizon)
        fun envelope => Attempt.Holds (Sweep.ofAllocation Sweep.narrowAllocation envelope)
          fun sweep => (sweep.run 10 0).result = .error (.refused (.quantization "borrows"
            (.baseUnits (.sample 1 0) 13 14 3))) := by
    decide +kernel
  rcases found with ⟨horizon, built, envelope, derived, sweep, found, refused⟩
  rcases refused_only_at_kept_units built derived with
    ⟨coherent, account, same, oneAccount, also, reasons⟩
  cases found.symm.trans also
  exact ⟨horizon, envelope, built, derived, coherent, account, sweep, _, oneAccount, found, refused,
    reasons 10 0 _ refused⟩

end Envelope

end PackedLedger
