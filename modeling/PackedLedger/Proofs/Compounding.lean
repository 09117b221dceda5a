import Mathlib.Logic.ExistsUnique
import Mathlib.Order.Lattice
import Mathlib.Order.Monotone.Basic
import Mathlib.Tactic.Ring
import PackedLedger.Proofs.Attempt
import PackedLedger.Scaling

namespace PackedLedger

namespace Scaling

/-!
# Accelerated compounding is stepwise compounding

`compoundUntil` advances a whole run of equal increments by one multiplication.
A run is sound for two reasons.  Inside it no index reaches the next multiple of
the accrual scaler, so the increment is the one it began with; and no index
before its end reaches the limit, so nothing is overshot.  Both are one fact
about a rounded-up quotient, `lt_target_of_lt_quotient`.  By induction on the
remaining steps the accelerated index is the stepwise one after the number of
steps that `StopsAfter` describes.
-/

variable {Reason : Type} {scaling : Scaling} {limit : Option Nat}

theorem iterate_succ (scaling : Scaling) (steps index : Nat) :
    scaling.iterate (steps + 1) index = scaling.iterate steps (scaling.grow index) := rfl

theorem iterate_add (scaling : Scaling) (first second index : Nat) :
    scaling.iterate (first + second) index =
      scaling.iterate second (scaling.iterate first index) := by
  induction first generalizing index with
  | zero => rw [Nat.zero_add]; rfl
  | succ first inductionHypothesis =>
      rw [Nat.succ_add, iterate_succ, iterate_succ, inductionHypothesis]

theorem iterate_succ_grow (scaling : Scaling) (steps index : Nat) :
    scaling.iterate (steps + 1) index = scaling.grow (scaling.iterate steps index) :=
  scaling.iterate_add steps 1 index

theorem iterate_of_increment_eq_zero {index : Nat} (flat : scaling.increment index = 0)
    (steps : Nat) : scaling.iterate steps index = index := by
  induction steps with
  | zero => rfl
  | succ steps inductionHypothesis =>
      rw [iterate_succ_grow, inductionHypothesis, grow, flat, Nat.add_zero]

theorem le_grow (scaling : Scaling) (index : Nat) : index ≤ scaling.grow index :=
  Nat.le_add_right _ _

theorem lt_grow {index : Nat} (moves : scaling.accrualScaler ≤ index) :
    index < scaling.grow index :=
  Nat.lt_add_of_pos_right (Nat.div_pos moves scaling.accrualScaler_pos)

theorem grow_mono (scaling : Scaling) {left right : Nat} (ordered : left ≤ right) :
    scaling.grow left ≤ scaling.grow right :=
  Nat.add_le_add ordered (Nat.div_le_div_right ordered)

theorem le_iterate (scaling : Scaling) (steps index : Nat) :
    index ≤ scaling.iterate steps index := by
  induction steps with
  | zero => exact Nat.le_refl _
  | succ steps inductionHypothesis =>
      rw [iterate_succ_grow]
      exact Nat.le_trans inductionHypothesis (scaling.le_grow _)

theorem iterate_le_iterate (scaling : Scaling) {fewer more : Nat} (ordered : fewer ≤ more)
    (index : Nat) : scaling.iterate fewer index ≤ scaling.iterate more index := by
  rw [← Nat.add_sub_cancel' ordered, iterate_add]
  exact scaling.le_iterate _ _

/-! ## One run of equal increments -/

theorem lt_target_of_lt_quotient {target index increment steps : Nat} (below : index < target)
    (positive : 0 < increment)
    (fewer : steps < (target - index + increment - 1) / increment) :
    index + increment * steps < target := by
  have covered : (steps + 1) * increment ≤ target - index + increment - 1 :=
    (Nat.le_div_iff_mul_le positive).mp fewer
  rw [Nat.add_mul, Nat.one_mul, Nat.mul_comm] at covered
  omega

theorem increment_eq_of_lt_nextMultiple {index later : Nat} (ordered : index ≤ later)
    (below : later < (scaling.increment index + 1) * scaling.accrualScaler) :
    scaling.increment later = scaling.increment index := by
  apply Nat.le_antisymm
  · exact Nat.le_of_lt_succ ((Nat.div_lt_iff_lt_mul scaling.accrualScaler_pos).mpr below)
  · exact Nat.div_le_div_right ordered

/-- A number of steps is within a run when no index before the last of them
leaves the multiple it began under. -/
def WithinRun (scaling : Scaling) (index steps : Nat) : Prop :=
  ∀ earlier, earlier < steps ->
    index + scaling.increment index * earlier <
      (scaling.increment index + 1) * scaling.accrualScaler

theorem iterate_of_withinRun {index steps : Nat} (within : scaling.WithinRun index steps) :
    scaling.iterate steps index = index + scaling.increment index * steps := by
  induction steps with
  | zero => rfl
  | succ steps inductionHypothesis =>
      have reached := inductionHypothesis
        (fun earlier less => within earlier (Nat.lt_succ_of_lt less))
      have same : scaling.increment (index + scaling.increment index * steps) =
          scaling.increment index :=
        increment_eq_of_lt_nextMultiple (Nat.le_add_right _ _) (within steps (Nat.lt_succ_self _))
      rw [iterate_succ_grow, reached, grow, same, Nat.mul_succ, Nat.add_assoc]

/-- What `runLength` answers: a positive number of steps within a run, none of
which but the last reaches the limit. -/
theorem runLength_spec (Reason : Type) {index : Nat} (short : ¬ Reached limit index)
    (positive : 0 < scaling.increment index) :
    ∃ run, (scaling.runLength limit index : Attempt Reason Nat) = .ok run ∧ 1 ≤ run ∧
      scaling.WithinRun index run ∧
      ∀ earlier, earlier < run ->
        ¬ Reached limit (index + scaling.increment index * earlier) := by
  have below := scaling.lt_nextMultiple index
  cases limit with
  | none =>
      refine ⟨_, ?_, one_le_quotient below positive, ?_, ?_⟩
      · simp [runLength, stepsTo_of_lt below positive]
      · intro earlier less
        exact lt_target_of_lt_quotient below positive less
      · rintro earlier - ⟨bound, impossible, -⟩
        cases impossible
  | some bound =>
      have under : index < bound :=
        Nat.lt_of_not_le fun reached => short ⟨bound, rfl, reached⟩
      refine ⟨min _ _, ?_, le_min (one_le_quotient below positive)
        (one_le_quotient under positive), ?_, ?_⟩
      · simp [runLength, stepsTo_of_lt below positive, stepsTo_of_lt under positive]
      · intro earlier less
        exact lt_target_of_lt_quotient below positive (lt_of_lt_of_le less (min_le_left _ _))
      · rintro earlier less ⟨found, same, reached⟩
        cases same
        exact absurd
          (lt_target_of_lt_quotient under positive (lt_of_lt_of_le less (min_le_right _ _)))
          (Nat.not_lt.mpr reached)

/-! ## A whole run of the loop -/

/-- The number of single steps after which compounding stops: all of them, or
the first that comes up to the limit. -/
structure StopsAfter (scaling : Scaling) (limit : Option Nat) (index steps taken : Nat) :
    Prop where
  le_steps : taken ≤ steps
  before : ∀ earlier, earlier < taken -> ¬ Reached limit (scaling.iterate earlier index)
  exhausted_or_reached : taken = steps ∨ Reached limit (scaling.iterate taken index)

namespace StopsAfter

theorem unique {index steps first second : Nat}
    (left : StopsAfter scaling limit index steps first)
    (right : StopsAfter scaling limit index steps second) : first = second := by
  rcases Nat.lt_trichotomy first second with less | equal | greater
  · have reached := left.exhausted_or_reached.resolve_left
      (Nat.ne_of_lt (lt_of_lt_of_le less right.le_steps))
    exact absurd reached (right.before first less)
  · exact equal
  · have reached := right.exhausted_or_reached.resolve_left
      (Nat.ne_of_lt (lt_of_lt_of_le greater left.le_steps))
    exact absurd reached (left.before second greater)

/-- Steps that reach no limit can be put in front. -/
theorem prepend {index steps taken first : Nat}
    (quiet : ∀ earlier, earlier < first -> ¬ Reached limit (scaling.iterate earlier index))
    (rest : StopsAfter scaling limit (scaling.iterate first index) steps taken) :
    StopsAfter scaling limit index (first + steps) (first + taken) where
  le_steps := Nat.add_le_add_left rest.le_steps first
  before := by
    intro earlier less
    rcases Nat.lt_or_ge earlier first with inside | outside
    · exact quiet earlier inside
    · have later := rest.before (earlier - first) (by omega)
      rwa [← iterate_add, Nat.add_sub_cancel' outside] at later
  exhausted_or_reached := by
    rw [iterate_add]
    exact rest.exhausted_or_reached.imp_left (congrArg (first + ·))

end StopsAfter

/-- One round of the loop, whenever it goes on: at least one of the remaining
steps is used up, and together they are single steps that reach no limit. -/
theorem compoundUntil_round (Reason : Type) {index steps : Nat} (remaining : 0 < steps)
    (short : ¬ Reached limit index) (positive : 0 < scaling.increment index) :
    ∃ run, (scaling.runLength limit index : Attempt Reason Nat) = .ok run ∧
      1 ≤ min run steps ∧
      scaling.iterate (min run steps) index = index + scaling.increment index * min run steps ∧
      (∀ earlier, earlier < min run steps -> ¬ Reached limit (scaling.iterate earlier index)) ∧
      (scaling.compoundUntil limit index steps : Attempt Reason Nat) =
        scaling.compoundUntil limit (index + scaling.increment index * min run steps)
          (steps - min run steps) := by
  rcases runLength_spec Reason short positive with ⟨run, found, least, within, quiet⟩
  have stepwise : ∀ count, count ≤ min run steps ->
      scaling.iterate count index = index + scaling.increment index * count := by
    intro count few
    apply iterate_of_withinRun
    intro earlier less
    exact within earlier (lt_of_lt_of_le less (few.trans (min_le_left _ _)))
  have unfinished : ¬ (steps = 0 ∨ Reached limit index ∨ scaling.increment index = 0) := by
    rintro (noneLeft | reached | flat)
    · exact absurd noneLeft (Nat.ne_of_gt remaining)
    · exact short reached
    · exact absurd flat (Nat.ne_of_gt positive)
  refine ⟨run, found, le_min least remaining, stepwise _ (le_refl _), ?_, ?_⟩
  · intro earlier less
    rw [stepwise earlier (Nat.le_of_lt less)]
    exact quiet earlier (lt_of_lt_of_le less (min_le_left _ _))
  · rw [compoundUntil, dif_neg unfinished]
    split
    · next failure broken => rw [found] at broken; cases broken
    · next answer same => rw [found] at same; cases same; rfl

theorem compoundUntil_of_stopped {index steps : Nat}
    (stopped : steps = 0 ∨ Reached limit index ∨ scaling.increment index = 0) :
    (scaling.compoundUntil limit index steps : Attempt Reason Nat) = .ok index := by
  rw [compoundUntil, dif_pos stopped]

theorem compoundUntil_spec (Reason : Type) (scaling : Scaling) (limit : Option Nat)
    (index steps : Nat) :
    ∃ taken, StopsAfter scaling limit index steps taken ∧
      (scaling.compoundUntil limit index steps : Attempt Reason Nat) =
        .ok (scaling.iterate taken index) := by
  induction steps using Nat.strong_induction_on generalizing index with
  | _ steps inductionHypothesis =>
      by_cases reached : Reached limit index
      · exact ⟨0, ⟨Nat.zero_le _, fun _ less => absurd less (Nat.not_lt_zero _), .inr reached⟩,
          compoundUntil_of_stopped (.inr (.inl reached))⟩
      by_cases flat : scaling.increment index = 0
      · refine ⟨steps, ⟨le_refl _, ?_, .inl rfl⟩, ?_⟩
        · intro earlier _
          rwa [iterate_of_increment_eq_zero flat]
        · rw [compoundUntil_of_stopped (.inr (.inr flat)), iterate_of_increment_eq_zero flat]
      rcases Nat.eq_zero_or_pos steps with noneLeft | remaining
      · subst noneLeft
        exact ⟨0, ⟨le_refl _, fun _ less => absurd less (Nat.not_lt_zero _), .inl rfl⟩,
          compoundUntil_of_stopped (.inl rfl)⟩
      rcases compoundUntil_round Reason remaining reached (Nat.pos_of_ne_zero flat) with
        ⟨run, _, least, stepwise, quiet, round⟩
      rcases inductionHypothesis (steps - min run steps) (Nat.sub_lt remaining least)
          (scaling.iterate (min run steps) index) with
        ⟨later, stops, value⟩
      refine ⟨min run steps + later, ?_, ?_⟩
      · have whole := stops.prepend quiet
        rwa [Nat.add_sub_cancel' (min_le_right _ _)] at whole
      · rw [round, ← stepwise, value, iterate_add]

theorem compound_eq_iterate (scaling : Scaling) (index steps : Nat) :
    (scaling.compound index steps : Attempt Reason Nat) = .ok (scaling.iterate steps index) := by
  rcases compoundUntil_spec Reason scaling none index steps with ⟨taken, stops, value⟩
  have all : taken = steps := by
    rcases stops.exhausted_or_reached with all | ⟨bound, impossible, -⟩
    · exact all
    · cases impossible
  rw [compound, value, all]

/-- Compounding ends, and its index is the one after the steps taken singly up
to the first that comes up to the limit; without a limit it takes them all.
Every round that does not stop uses up at least one remaining step. -/
theorem compoundUntil_eq_stepwise (scaling : Scaling) (limit : Option Nat) (index steps : Nat) :
    (∃! taken, StopsAfter scaling limit index steps taken) ∧
      (∀ taken, StopsAfter scaling limit index steps taken ->
        (scaling.compoundUntil limit index steps : Attempt Reason Nat) =
          .ok (scaling.iterate taken index)) ∧
      (scaling.compound index steps : Attempt Reason Nat) =
        .ok (scaling.iterate steps index) ∧
      (steps ≠ 0 -> ¬ Reached limit index -> scaling.increment index ≠ 0 ->
        ∃ run, (scaling.runLength limit index : Attempt Reason Nat) = .ok run ∧
          1 ≤ min run steps ∧
          (scaling.compoundUntil limit index steps : Attempt Reason Nat) =
            scaling.compoundUntil limit (index + scaling.increment index * min run steps)
              (steps - min run steps)) := by
  rcases compoundUntil_spec Reason scaling limit index steps with ⟨taken, stops, value⟩
  refine ⟨⟨taken, stops, fun other also => also.unique stops⟩, ?_,
    compound_eq_iterate scaling index steps, ?_⟩
  · intro other also
    rw [value, also.unique stops]
  · intro remaining short moving
    rcases compoundUntil_round Reason (Nat.pos_of_ne_zero remaining) short (Nat.pos_of_ne_zero
        moving) with
      ⟨run, found, least, _, _, round⟩
    exact ⟨run, found, least, round⟩

/-!
## Compounding between linear and geometric growth

Every accrual of a run adds at least what the first one added, since the index never
falls, and at most the exact part of the index.  So a number of accruals lies between a
straight line and a power of the growth factor, and rounding can only lose against the
power.  Below the accrual scaler nothing is ever added; from there on the line rises.
The bounds hold for single accruals by induction on their number.  Accelerated
compounding has them because it is single accruals.
-/

/-! ### Single accruals -/

theorem accrualScaler_mul_grow_le (scaling : Scaling) (index : Nat) :
    scaling.accrualScaler * scaling.grow index ≤ index * (scaling.accrualScaler + 1) := by
  have added : scaling.accrualScaler * scaling.increment index ≤ index := Nat.mul_div_le _ _
  rw [grow, Nat.mul_add, Nat.mul_succ, Nat.mul_comm index]
  exact Nat.add_le_add_left added _

theorem linear_le_iterate (scaling : Scaling) (steps index : Nat) :
    index + steps * scaling.increment index ≤ scaling.iterate steps index := by
  induction steps with
  | zero =>
      rw [Nat.zero_mul]
      exact Nat.le_refl _
  | succ steps inductionHypothesis =>
      have least : scaling.increment index ≤ scaling.increment (scaling.iterate steps index) :=
        Nat.div_le_div_right (scaling.le_iterate steps index)
      rw [iterate_succ_grow, grow, Nat.succ_mul, ← Nat.add_assoc]
      exact Nat.add_le_add inductionHypothesis least

theorem iterate_le_geometric (scaling : Scaling) (steps index : Nat) :
    scaling.accrualScaler ^ steps * scaling.iterate steps index ≤
      index * (scaling.accrualScaler + 1) ^ steps := by
  induction steps with
  | zero =>
      rw [Nat.pow_zero, Nat.pow_zero, Nat.one_mul, Nat.mul_one]
      exact Nat.le_refl _
  | succ steps inductionHypothesis =>
      have last := scaling.accrualScaler_mul_grow_le (scaling.iterate steps index)
      rw [iterate_succ_grow]
      calc
        scaling.accrualScaler ^ (steps + 1) * scaling.grow (scaling.iterate steps index) =
            scaling.accrualScaler ^ steps *
              (scaling.accrualScaler * scaling.grow (scaling.iterate steps index)) := by ring
        _ ≤ scaling.accrualScaler ^ steps *
              (scaling.iterate steps index * (scaling.accrualScaler + 1)) :=
          Nat.mul_le_mul_left _ last
        _ = scaling.accrualScaler ^ steps * scaling.iterate steps index *
              (scaling.accrualScaler + 1) := by ring
        _ ≤ index * (scaling.accrualScaler + 1) ^ steps * (scaling.accrualScaler + 1) :=
          Nat.mul_le_mul_right _ inductionHypothesis
        _ = index * (scaling.accrualScaler + 1) ^ (steps + 1) := by ring

/-- Accruals leave an index where it is when it is below the scaler, or when there are none. -/
theorem iterate_eq_self_iff {steps index : Nat} :
    scaling.iterate steps index = index ↔ index < scaling.accrualScaler ∨ steps = 0 := by
  constructor
  · intro kept
    by_contra moving
    rcases not_or.mp moving with ⟨reaches, someSteps⟩
    have least : 0 < scaling.increment index :=
      Nat.div_pos (Nat.le_of_not_lt reaches) scaling.accrualScaler_pos
    have rises := scaling.linear_le_iterate steps index
    have added := Nat.mul_pos (Nat.pos_of_ne_zero someSteps) least
    omega
  · intro still
    rcases still with below | rfl
    · exact iterate_of_increment_eq_zero (Nat.div_eq_of_lt below) steps
    · rfl

theorem iterate_mono (scaling : Scaling) (steps : Nat) : Monotone (scaling.iterate steps) := by
  intro smaller larger ordered
  induction steps with
  | zero => exact ordered
  | succ steps inductionHypothesis =>
      rw [iterate_succ_grow, iterate_succ_grow]
      exact scaling.grow_mono inductionHypothesis

/-! ### Compounding -/

/-- Compounding returns an index, which is at least the linear growth by the first
increment and at most the exact geometric growth, and which is the one it started from
exactly below the accrual scaler or without a step.  A larger start and more steps never
lead to a smaller index. -/
theorem compound_bracketed {Reason : Type} (scaling : Scaling) :
    (∀ start steps, ∃ last, (scaling.compound start steps : Attempt Reason Nat) = .ok last ∧
      start + steps * (start / scaling.accrualScaler) ≤ last ∧
      scaling.accrualScaler ^ steps * last ≤ start * (scaling.accrualScaler + 1) ^ steps ∧
      (last = start ↔ start < scaling.accrualScaler ∨ steps = 0)) ∧
    ∀ start larger fewer more, start ≤ larger -> fewer ≤ more -> ∃ least greatest,
      (scaling.compound start fewer : Attempt Reason Nat) = .ok least ∧
      (scaling.compound larger more : Attempt Reason Nat) = .ok greatest ∧
      least ≤ greatest := by
  constructor
  · intro start steps
    exact ⟨_, scaling.compound_eq_iterate start steps, scaling.linear_le_iterate steps start,
      scaling.iterate_le_geometric steps start, iterate_eq_self_iff⟩
  · intro start larger fewer more later longer
    refine ⟨_, _, scaling.compound_eq_iterate start fewer,
      scaling.compound_eq_iterate larger more, ?_⟩
    exact (scaling.iterate_mono fewer later).trans (scaling.iterate_le_iterate longer larger)

end Scaling

end PackedLedger
