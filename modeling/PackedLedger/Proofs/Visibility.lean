import Mathlib.Algebra.Order.Floor.Ring
import PackedLedger.Proofs.Conversions
import PackedLedger.Proofs.Draws

namespace PackedLedger

/-!
# What a sweep decides

A step of the index separates two states when the later index is larger and
stands for fewer base units of one amount unit.  Every check of a sweep is a
question of this kind.  So a sweep passes exactly when both its ends separate
and every drawn index separates from its successor, and when it is refused
after its ends, some drawn index is to blame.
-/

theorem Scaling.borrowsScalerFloor_eq (scaling : Scaling) :
    scaling.borrowsScalerFloor = ⌊scaling.borrowsScaler⌋₊ := rfl

namespace Sweep

variable {sweep : Sweep} {index next : Nat}

/-- The step from an index to the next one is a step up that loses base units. -/
def Separates (sweep : Sweep) (index next : Nat) : Prop :=
  index < next ∧ ∃ before after,
    sweep.unitBase index = .ok before ∧ sweep.unitBase next = .ok after ∧ after < before

theorem unitBase_eq (nonneg : 0 ≤ sweep.scaling.borrowsScaler) (positive : 0 < index) :
    sweep.unitBase index = .ok (sweep.scaling.borrowsScalerFloor / index) := by
  rw [Scaling.borrowsScalerFloor_eq]
  exact Conversion.toBase_unit nonneg sweep.scaling.accrualScaler positive

@[simp] theorem unitBase_zero : sweep.unitBase 0 = .error (.refused .zeroIndex) := rfl

theorem unitBase_total (sweep : Sweep) {index : Nat} (positive : 0 < index) :
    ∃ base, sweep.unitBase index = .ok base := by
  have divisor : 0 < index * sweep.scaling.borrowsScaler.den * 1 :=
    Nat.mul_pos (Nat.mul_pos positive (Rat.den_pos _)) Nat.one_pos
  rw [unitBase, Conversion.toBase, if_neg (Nat.ne_of_gt positive)]
  exact ⟨_, Checked.unlessZero_of_ne (Nat.ne_of_gt divisor)⟩

theorem separates_iff (nonneg : 0 ≤ sweep.scaling.borrowsScaler) (positive : 0 < index) :
    sweep.Separates index next ↔
      index < next ∧
        sweep.scaling.borrowsScalerFloor / next < sweep.scaling.borrowsScalerFloor / index := by
  unfold Separates
  apply and_congr_right
  intro larger
  rw [unitBase_eq nonneg positive, unitBase_eq nonneg (Nat.lt_trans positive larger)]
  constructor
  · intro separates
    rcases separates with ⟨before, after, first, second, fewer⟩
    cases first
    cases second
    exact fewer
  · intro fewer
    exact ⟨_, _, rfl, rfl, fewer⟩

theorem Separates.positive (separates : sweep.Separates index next) : 0 < index := by
  rcases separates with ⟨_, before, _, first, _⟩
  apply Nat.pos_of_ne_zero
  intro zero
  rw [zero, unitBase_zero] at first
  cases first

/-! ## Single checks -/

@[simp] theorem checkStep_eq_ok {origin : Origin} :
    sweep.checkStep origin index next = .ok () ↔ sweep.Separates index next := by
  unfold checkStep Separates
  by_cases flat : next ≤ index
  · rw [if_pos flat]
    constructor
    · intro impossible
      cases impossible
    · intro separates
      exact absurd separates.1 (Nat.not_lt.mpr flat)
  · rw [if_neg flat, Attempt.bind_eq_ok]
    constructor
    · intro passed
      rcases passed with ⟨before, first, rest⟩
      rcases Attempt.bind_eq_ok.mp rest with ⟨after, second, fewer⟩
      exact ⟨Nat.lt_of_not_le flat, before, after, first, second,
        Nat.lt_of_not_le (Attempt.ite_refuse_eq_ok.mp fewer).1⟩
    · intro separates
      rcases separates with ⟨_, before, after, first, second, fewer⟩
      refine ⟨before, first, Attempt.bind_eq_ok.mpr ⟨after, second, ?_⟩⟩
      exact Attempt.ite_refuse_eq_ok.mpr ⟨Nat.not_le.mpr fewer, rfl⟩

/-- A step up that does not separate is refused for the base units it keeps. -/
theorem checkStep_of_not_separates {origin : Origin}
    (nonneg : 0 ≤ sweep.scaling.borrowsScaler) (positive : 0 < index) (larger : index < next)
    (merged : ¬ sweep.Separates index next) :
    sweep.checkStep origin index next = .error (.refused (.quantization sweep.borrowsField
      (.baseUnits origin index next (sweep.scaling.borrowsScalerFloor / index)))) := by
  have kept : sweep.scaling.borrowsScalerFloor / index ≤
      sweep.scaling.borrowsScalerFloor / next :=
    Nat.le_of_not_lt fun fewer => merged ((separates_iff nonneg positive).mpr ⟨larger, fewer⟩)
  simp [checkStep, Nat.not_le.mpr larger, unitBase_eq nonneg positive,
    unitBase_eq nonneg (Nat.lt_trans positive larger), kept, Attempt.refuse]

/-- A step up from a positive index is refused only for keeping its base
units. -/
theorem kept_of_checkStep_refused (nonneg : 0 ≤ sweep.scaling.borrowsScaler)
    (positive : 0 < index) (larger : index < next) {origin : Origin}
    {failure : Failure Rejection} (refused : sweep.checkStep origin index next = .error failure) :
    ∃ base, sweep.unitBase index = .ok base ∧ sweep.unitBase next = .ok base ∧
      failure =
        .refused (.quantization sweep.borrowsField (.baseUnits origin index next base)) := by
  have merged : ¬ sweep.Separates index next := by
    intro separates
    rw [checkStep_eq_ok.mpr separates] at refused
    cases refused
  have kept := mt (fun fewer => (separates_iff nonneg positive).mpr ⟨larger, fewer⟩) merged
  have falls : sweep.scaling.borrowsScalerFloor / next ≤ sweep.scaling.borrowsScalerFloor / index :=
    Nat.div_le_div_left (Nat.le_of_lt larger) positive
  refine ⟨sweep.scaling.borrowsScalerFloor / index, unitBase_eq nonneg positive, ?_, ?_⟩
  · rw [unitBase_eq nonneg (Nat.lt_trans positive larger)]
    exact congrArg _ (Nat.le_antisymm falls (Nat.le_of_not_lt kept))
  · rw [checkStep_of_not_separates nonneg positive larger merged] at refused
    cases refused
    rfl

theorem checkBoundaries_eq_ok :
    sweep.checkBoundaries = .ok () ↔
      sweep.Separates sweep.scaling.initialIndex sweep.secondIndex ∧
        sweep.Separates sweep.penultimateIndex sweep.scaling.largestIndex := by
  simp [checkBoundaries, Unique.exists_iff]

/-! ## The sample -/

/-- The index of a draw separates from its successor. -/
def DrawSeparates (sweep : Sweep) (stream : Random.WordStream) (position : Nat) : Prop :=
  ∃ index,
    drawnAt sweep.scaling.initialIndex sweep.penultimateIndex position stream = .ok index ∧
      sweep.Separates index (sweep.scaling.grow index)

theorem drawSeparates_zero {rest stream : Random.WordStream}
    (found : (drawIndex sweep.scaling.initialIndex sweep.penultimateIndex stream : Verdict _) =
      .ok (index, rest))
    (separates : sweep.Separates index (sweep.scaling.grow index)) :
    sweep.DrawSeparates stream 0 :=
  ⟨index, drawnAt_zero found, separates⟩

theorem drawSeparates_succ {rest stream : Random.WordStream}
    (found : (drawIndex sweep.scaling.initialIndex sweep.penultimateIndex stream : Verdict _) =
      .ok (index, rest)) (position : Nat) :
    sweep.DrawSeparates stream (position + 1) ↔ sweep.DrawSeparates rest position := by
  unfold DrawSeparates
  rw [drawnAt_succ found]

/-- The remaining samples pass, or the first one that does not is the answer.
The notes kept so far play no part in it. -/
theorem drawSamples_spec (sweep : Sweep) (seed total : Nat)
    (positive : 0 < sweep.scaling.initialIndex)
    (ordered : sweep.scaling.initialIndex ≤ sweep.penultimateIndex)
    (remaining ordinal : Nat) (stream : Random.WordStream) (notes : List Progress) :
    ((sweep.drawSamples seed total remaining ordinal stream notes).2 = .ok () ∧
      ∀ position, position < remaining -> sweep.DrawSeparates stream position) ∨
    ∃ position index failure, position < remaining ∧
      drawnAt sweep.scaling.initialIndex sweep.penultimateIndex position stream = .ok index ∧
      (∀ earlier, earlier < position -> sweep.DrawSeparates stream earlier) ∧
      sweep.checkStep (.sample (ordinal + position) seed) index (sweep.scaling.grow index) =
        .error failure ∧
      (sweep.drawSamples seed total remaining ordinal stream notes).2 = .error failure := by
  induction remaining generalizing ordinal stream notes with
  | zero =>
      left
      exact ⟨rfl, fun position impossible => absurd impossible (Nat.not_lt_zero position)⟩
  | succ remaining inductionHypothesis =>
      rcases drawIndex_spec Rejection positive ordered stream with ⟨index, rest, found, _⟩
      rw [drawSamples, found]
      dsimp only
      cases verdict : sweep.checkStep (.sample ordinal seed) index (sweep.scaling.grow index) with
      | error failure =>
          right
          exact ⟨0, index, failure, Nat.succ_pos _, drawnAt_zero found,
            fun earlier impossible => absurd impossible (Nat.not_lt_zero earlier), verdict, rfl⟩
      | ok passed =>
          have head : sweep.DrawSeparates stream 0 :=
            drawSeparates_zero found (checkStep_eq_ok.mp verdict)
          have prepend : ∀ bound,
              (∀ position, position < bound -> sweep.DrawSeparates rest position) ->
                ∀ position, position < bound + 1 -> sweep.DrawSeparates stream position := by
            intro bound tail position less
            cases position with
            | zero => exact head
            | succ position =>
                exact (drawSeparates_succ found position).mpr
                  (tail position (Nat.lt_of_succ_lt_succ less))
          dsimp only
          rcases inductionHypothesis (ordinal + 1) rest _ with
            ⟨value, tail⟩ | ⟨position, last, failure, less, drawn, tail, refused, value⟩
          · left
            exact ⟨value, prepend remaining tail⟩
          · right
            rw [Nat.add_assoc, Nat.add_comm 1] at refused
            exact ⟨position + 1, last, failure, Nat.succ_lt_succ less,
              (drawnAt_succ found position).trans drawn, prepend position tail, refused, value⟩

/-- A sweep whose ends pass and whose domain is not empty answers as its draws do. -/
theorem run_of_ordered (ends : sweep.checkBoundaries = .ok ())
    (ordered : sweep.scaling.initialIndex ≤ sweep.penultimateIndex) (samples seed : Nat) :
    sweep.run samples seed =
      ⟨(sweep.drawSamples seed samples samples 0 (.ofSeed seed) []).1.reverse,
        (sweep.drawSamples seed samples samples 0 (.ofSeed seed) []).2.map fun _ =>
          ⟨samples, seed, sweep.scaling.initialIndex, sweep.penultimateIndex⟩⟩ := by
  unfold run
  dsimp only
  rw [ends]
  dsimp only
  rw [if_pos ordered]
  generalize sweep.drawSamples seed samples samples 0 (.ofSeed seed) [] = outcome
  rcases outcome with ⟨notes, verdict⟩
  cases verdict <;> rfl

/-- A sweep has a result, after both its ends separate, exactly when every draw
from a domain that is not empty does. -/
theorem run_eq_ok_iff {samples seed : Nat} :
    (∃ summary, (sweep.run samples seed).result = .ok summary) ↔
      sweep.checkBoundaries = .ok () ∧
        (sweep.scaling.initialIndex ≤ sweep.penultimateIndex ->
          ∀ position, position < samples ->
            sweep.DrawSeparates (.ofSeed seed) position) := by
  cases ends : sweep.checkBoundaries with
  | error failure => simp [run, ends]
  | ok passed =>
      have positive := (checkBoundaries_eq_ok.mp ends).1.positive
      by_cases ordered : sweep.scaling.initialIndex ≤ sweep.penultimateIndex
      · rw [run_of_ordered ends ordered]
        rcases sweep.drawSamples_spec seed samples positive ordered samples 0 (.ofSeed seed) [] with
          ⟨value, all⟩ | ⟨position, index, failure, less, drawn, _, refused, value⟩
        · rw [value]
          exact ⟨fun _ => ⟨rfl, fun _ => all⟩, fun _ => ⟨_, rfl⟩⟩
        · rw [value]
          constructor
          · intro passed
            rcases passed with ⟨summary, impossible⟩
            cases impossible
          · intro passed
            rcases passed with ⟨_, all⟩
            rcases all ordered position less with ⟨same, again, separates⟩
            rw [drawn] at again
            cases again
            rw [checkStep_eq_ok.mpr separates] at refused
            cases refused
      · unfold run
        dsimp only
        rw [ends]
        dsimp only
        rw [if_neg ordered]
        exact ⟨fun _ => ⟨rfl, fun impossible => absurd impossible ordered⟩, fun _ => ⟨_, rfl⟩⟩

/-- A sweep whose ends pass is refused only by the check of a drawn index. -/
theorem exists_draw_of_refused {samples seed : Nat} {failure : Failure Rejection}
    (ends : sweep.checkBoundaries = .ok ())
    (refused : (sweep.run samples seed).result = .error failure) :
    ∃ ordinal index, ordinal < samples ∧ sweep.scaling.initialIndex ≤ index ∧
      index ≤ sweep.penultimateIndex ∧
      drawnAt sweep.scaling.initialIndex sweep.penultimateIndex ordinal (.ofSeed seed) =
        .ok index ∧
      sweep.checkStep (.sample ordinal seed) index (sweep.scaling.grow index) =
        .error failure := by
  have positive := (checkBoundaries_eq_ok.mp ends).1.positive
  by_cases ordered : sweep.scaling.initialIndex ≤ sweep.penultimateIndex
  · rw [run_of_ordered ends ordered] at refused
    rcases sweep.drawSamples_spec seed samples positive ordered samples 0 (.ofSeed seed) [] with
      ⟨value, _⟩ | ⟨ordinal, index, found, less, drawn, _, check, value⟩
    · rw [value] at refused
      cases refused
    · rw [value] at refused
      cases refused
      rw [Nat.zero_add] at check
      rcases drawnAt_inside drawn with ⟨above, below⟩
      exact ⟨ordinal, index, less, above, below, drawn, check⟩
  · simp only [run, ends] at refused
    rw [if_neg ordered] at refused
    cases refused

/-!
## One unit speaks for every amount

A sweep looks at one amount unit and at the exact scaler, while a ledger stores
arbitrary amounts under a scaler that was rounded down.  Neither makes a
difference to what a step of the index shows: the rounded scaler gives one unit
the same base units, and a step that one unit passes is passed by every amount.
-/

/-- The sweep under the scaler that contract code would hold. -/
def withWholeScaler (sweep : Sweep) : Sweep :=
  { sweep with
    scaling := { sweep.scaling with borrowsScaler := (sweep.scaling.borrowsScalerFloor : Rat) } }

theorem withWholeScaler_unitBase (nonneg : 0 ≤ sweep.scaling.borrowsScaler) :
    sweep.withWholeScaler.unitBase = sweep.unitBase := by
  funext index
  unfold unitBase withWholeScaler
  rw [Scaling.borrowsScalerFloor_eq]
  exact Conversion.toBase_unit_floor nonneg sweep.scaling.accrualScaler index

theorem withWholeScaler_checkStep (nonneg : 0 ≤ sweep.scaling.borrowsScaler) :
    sweep.withWholeScaler.checkStep = sweep.checkStep := by
  funext origin index next
  unfold checkStep
  rw [withWholeScaler_unitBase nonneg]
  rfl

/-- One amount unit has base units at every index, the same under the exact scaler
and under the scaler rounded down, and so has a step its verdict.  Where a step
passes, every amount is worth fewer base units from the next index on, under
either scaler. -/
theorem unit_speaks_for_amounts (positive : 0 < sweep.scaling.borrowsScaler) :
    (∀ index, 1 ≤ index -> ∃ base,
      Conversion.toBase sweep.scaling.borrowsScaler sweep.scaling.accrualScaler .raw index 1 =
        .ok base ∧
      Conversion.toBase (sweep.scaling.borrowsScalerFloor : Rat) sweep.scaling.accrualScaler .raw
        index 1 = .ok base) ∧
    (∀ origin index next,
      sweep.withWholeScaler.checkStep origin index next = sweep.checkStep origin index next) ∧
    ∀ origin index next, sweep.checkStep origin index next = .ok () ->
      ∀ amount later, 1 ≤ amount -> next ≤ later ->
        ∀ scaler ∈ [sweep.scaling.borrowsScaler, (sweep.scaling.borrowsScalerFloor : Rat)],
          ∃ before after,
            Conversion.toBase scaler sweep.scaling.accrualScaler .raw index amount = .ok before ∧
              Conversion.toBase scaler sweep.scaling.accrualScaler .raw later amount = .ok after ∧
              after < before := by
  have nonneg := positive.le
  refine ⟨?_, ?_, ?_⟩
  · intro index someIndex
    have exact := Conversion.toBase_unit nonneg sweep.scaling.accrualScaler someIndex
    refine ⟨_, exact, ?_⟩
    rw [Scaling.borrowsScalerFloor_eq, Conversion.toBase_unit_floor nonneg]
    exact exact
  · intro origin index next
    rw [withWholeScaler_checkStep nonneg]
  · intro origin index next passes amount later someAmount ordered scaler listed
    have separates := checkStep_eq_ok.mp passes
    have someIndex := separates.positive
    rcases (separates_iff nonneg someIndex).mp separates with ⟨larger, fewer⟩
    have someNext := Nat.lt_trans someIndex larger
    rw [List.mem_cons, List.mem_singleton] at listed
    rcases listed with rfl | rfl
    · exact Conversion.toBase_lt_of_unit nonneg _ someIndex someNext fewer someAmount ordered
    · apply Conversion.toBase_lt_of_unit (Nat.cast_nonneg _) _ someIndex someNext _ someAmount
        ordered
      rw [Nat.floor_natCast]
      exact fewer

/-- A sweep whose scaler is no whole number. -/
def fractional : Sweep where
  scaling :=
    { accrualScaler := 10, initialIndex := 10, largestIndex := 15, borrowsScaler := 62 / 3
      accrualScaler_pos := by decide }
  indexField := "index"
  borrowsField := "borrows"
  secondIndex := 11
  penultimateIndex := 13

/-- Rounding the scaler of this sweep to 20 keeps the refusal of one step and the
verdict on another, which then holds of a thousand units too. -/
theorem unit_speaks_for_amounts_fractional :
    0 < fractional.scaling.borrowsScaler ∧
    fractional.withWholeScaler.checkStep (.sample 0 0) 13 14 =
      .error (.refused (.quantization "borrows" (.baseUnits (.sample 0 0) 13 14 1))) ∧
    fractional.checkStep .lowerBoundary 10 11 = .ok () ∧
    ∃ before after, Conversion.toBase 20 10 .raw 10 1000 = .ok before ∧
      Conversion.toBase 20 10 .raw 13 1000 = .ok after ∧ after < before := by
  have positive : 0 < fractional.scaling.borrowsScaler := by decide +kernel
  have refused : fractional.checkStep (.sample 0 0) 13 14 =
      .error (.refused (.quantization "borrows" (.baseUnits (.sample 0 0) 13 14 1))) := by
    decide +kernel
  have passes : fractional.checkStep .lowerBoundary 10 11 = .ok () := by decide +kernel
  have whole : (fractional.scaling.borrowsScalerFloor : Rat) = 20 := by decide +kernel
  rcases unit_speaks_for_amounts positive with ⟨_, alike, amounts⟩
  refine ⟨positive, (alike _ _ _).trans refused, passes, ?_⟩
  have lifted := amounts .lowerBoundary 10 11 passes 1000 13 (by decide) (by decide) 20
  rw [whole] at lifted
  exact lifted (List.mem_cons_of_mem _ (List.mem_singleton_self _))

end Sweep

end PackedLedger
