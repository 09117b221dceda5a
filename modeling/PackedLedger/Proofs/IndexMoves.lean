import Mathlib.Data.Rat.Floor
import Mathlib.Order.Monotone.Basic
import PackedLedger.Proofs.IndexSteps

namespace PackedLedger

/-!
# Growing and shrinking an index

Growing and shrinking an index both round down, so the one does not undo the other.  The
index is taken apart by the divisor of the first move: the quotient comes back, and of a
rest one is lost, but never more.

Below the bound that shrinking gives, an accrual stays within the field.  The converse
holds but for one index: the next one above the bound fits as well, unless the largest
index leaves one of two remainders.  Both are seen on the products that the quotients
came from.  An index fits under the shrunk bound when its product is at most that of
the largest index, and its accrual fits into the field when the product is less than
one accrual scaler above; in between lies at most one multiple.
-/

namespace Scaling

variable {scaling : Scaling} {index largest : Nat}

theorem grow_eq_quotient (scaling : Scaling) (index : Nat) :
    scaling.grow index = index * (scaling.accrualScaler + 1) / scaling.accrualScaler := by
  rw [Nat.mul_succ, Nat.mul_comm index, Nat.mul_add_div scaling.accrualScaler_pos]
  rfl

theorem grow_le_iff :
    scaling.grow index ≤ largest ↔
      index * (scaling.accrualScaler + 1) < (largest + 1) * scaling.accrualScaler := by
  rw [grow_eq_quotient, ← Nat.lt_succ_iff, Nat.div_lt_iff_lt_mul scaling.accrualScaler_pos]

theorem le_shrink_iff :
    index ≤ scaling.shrink largest ↔
      index * (scaling.accrualScaler + 1) ≤ largest * scaling.accrualScaler :=
  Nat.le_div_iff_mul_le (Nat.succ_pos _)

theorem grow_le_of_le_shrink (inside : index ≤ scaling.shrink largest) :
    scaling.grow index ≤ largest := by
  have positive := scaling.accrualScaler_pos
  have product := le_shrink_iff.mp inside
  rw [grow_le_iff, Nat.add_mul]
  omega

/-- Two above the shrunk bound, it does. -/
theorem le_shrink_succ_of_grow_le (fits : scaling.grow index ≤ largest) :
    index ≤ scaling.shrink largest + 1 := by
  have product := grow_le_iff.mp fits
  have above : largest * scaling.accrualScaler <
      (scaling.shrink largest + 1) * (scaling.accrualScaler + 1) :=
    Nat.lt_of_not_le fun below => absurd (le_shrink_iff.mpr below) (Nat.not_succ_le_self _)
  apply Nat.le_of_lt_succ
  apply Nat.lt_of_mul_lt_mul_right (a := scaling.accrualScaler + 1)
  rw [Nat.add_mul] at product
  rw [Nat.succ_mul]
  omega

/-- An index shrinks by its quotient, and by one more unless it is a multiple. -/
theorem shrink_eq (scaling : Scaling) (index : Nat) :
    scaling.shrink index =
      scaling.accrualScaler * (index / (scaling.accrualScaler + 1)) +
        (index % (scaling.accrualScaler + 1) - 1) := by
  have whole := Nat.div_add_mod index (scaling.accrualScaler + 1)
  have small := Nat.mod_lt index (Nat.succ_pos scaling.accrualScaler)
  unfold shrink
  generalize index / (scaling.accrualScaler + 1) = quotient at whole ⊢
  generalize index % (scaling.accrualScaler + 1) = rest at whole small ⊢
  generalize scaling.accrualScaler = accrual at whole small ⊢
  subst whole
  cases rest with
  | zero =>
      rw [Nat.zero_sub]
      apply Nat.div_eq_of_lt_le <;> linarith
  | succ rest =>
      rw [Nat.add_sub_cancel]
      apply Nat.div_eq_of_lt_le <;> linarith

/-- One above the shrunk bound, the accrual stays in the field but for two remainders
of the largest index. -/
theorem grow_shrink_succ_le_iff :
    scaling.grow (scaling.shrink largest + 1) ≤ largest ↔
      largest % (scaling.accrualScaler + 1) ≠ 0 ∧
        largest % (scaling.accrualScaler + 1) ≠ scaling.accrualScaler := by
  have whole := Nat.div_add_mod largest (scaling.accrualScaler + 1)
  have small := Nat.mod_lt largest (Nat.succ_pos scaling.accrualScaler)
  rw [grow_le_iff, shrink_eq]
  generalize largest / (scaling.accrualScaler + 1) = quotient at whole ⊢
  generalize largest % (scaling.accrualScaler + 1) = rest at whole small ⊢
  generalize scaling.accrualScaler = accrual at whole small ⊢
  subst whole
  cases rest with
  | zero =>
      rw [Nat.zero_sub]
      constructor
      · intro fits
        linarith
      · intro apart
        exact absurd rfl apart.1
  | succ rest =>
      rw [Nat.add_sub_cancel]
      constructor
      · intro fits
        refine ⟨Nat.succ_ne_zero rest, ?_⟩
        intro same
        linarith
      · intro apart
        have less : rest + 1 < accrual := by omega
        linarith

/-- An accrual fits into the field exactly below the shrunk bound and, but for two
remainders, one above it. -/
theorem grow_le_iff_le_shrink_or :
    scaling.grow index ≤ largest ↔
      index ≤ scaling.shrink largest ∨
        index = scaling.shrink largest + 1 ∧
          largest % (scaling.accrualScaler + 1) ≠ 0 ∧
          largest % (scaling.accrualScaler + 1) ≠ scaling.accrualScaler := by
  rw [← grow_shrink_succ_le_iff]
  constructor
  · intro fits
    rcases Nat.lt_or_eq_of_le (le_shrink_succ_of_grow_le fits) with below | next
    · exact .inl (Nat.le_of_lt_succ below)
    · right
      rw [← next]
      exact ⟨rfl, fits⟩
  · intro reached
    rcases reached with below | ⟨rfl, fits⟩
    · exact grow_le_of_le_shrink below
    · exact fits

/-! ## Growing and shrinking after each other -/

theorem grow_mul_add {quotient rest : Nat} (small : rest < scaling.accrualScaler) :
    scaling.grow (scaling.accrualScaler * quotient + rest) =
      (scaling.accrualScaler + 1) * quotient + rest := by
  have added : (scaling.accrualScaler * quotient + rest) / scaling.accrualScaler = quotient := by
    rw [Nat.mul_add_div scaling.accrualScaler_pos, Nat.div_eq_of_lt small, Nat.add_zero]
  rw [grow, increment, added, Nat.add_mul, Nat.one_mul, Nat.add_right_comm]

theorem shrink_mul_add {quotient rest : Nat} (small : rest < scaling.accrualScaler + 1) :
    scaling.shrink ((scaling.accrualScaler + 1) * quotient + rest) =
      scaling.accrualScaler * quotient + (rest - 1) := by
  rw [shrink_eq, Nat.mul_add_div (Nat.succ_pos _), Nat.div_eq_of_lt small, Nat.add_zero,
    Nat.mul_add_mod, Nat.mod_eq_of_lt small]

/-- A number loses one of its rest exactly when the divisor does not divide it. -/
theorem mul_add_pred_eq_ite {divisor rest : Nat} (quotient : Nat) (small : rest < divisor) :
    divisor * quotient + (rest - 1) =
      if divisor ∣ divisor * quotient + rest then divisor * quotient + rest
      else divisor * quotient + rest - 1 := by
  have divides : divisor ∣ divisor * quotient + rest ↔ divisor ∣ rest :=
    Nat.dvd_add_right (Nat.dvd_mul_right divisor quotient)
  rcases Nat.eq_zero_or_pos rest with rfl | positive
  · rw [if_pos (divides.mpr (Nat.dvd_zero divisor)), Nat.zero_sub]
  · have apart : ¬ divisor ∣ rest := Nat.not_dvd_of_pos_of_lt positive small
    rw [if_neg (mt divides.mp apart), Nat.add_sub_assoc positive]

theorem shrink_grow (scaling : Scaling) (index : Nat) :
    scaling.shrink (scaling.grow index) =
      if scaling.accrualScaler ∣ index then index else index - 1 := by
  have whole := Nat.div_add_mod index scaling.accrualScaler
  have small := Nat.mod_lt index scaling.accrualScaler_pos
  rw [← whole, grow_mul_add small, shrink_mul_add (Nat.lt_succ_of_lt small)]
  exact mul_add_pred_eq_ite _ small

theorem grow_shrink (scaling : Scaling) (index : Nat) :
    scaling.grow (scaling.shrink index) =
      if scaling.accrualScaler + 1 ∣ index then index else index - 1 := by
  have positive := scaling.accrualScaler_pos
  have whole := Nat.div_add_mod index (scaling.accrualScaler + 1)
  have small := Nat.mod_lt index (Nat.succ_pos scaling.accrualScaler)
  rw [← whole, shrink_mul_add small, grow_mul_add (by omega)]
  exact mul_add_pred_eq_ite _ small

theorem grow_eq_floor (scaling : Scaling) (index : Nat) :
    (scaling.grow index : Int) = ⌊(index : Rat) * scaling.growthFactor⌋ := by
  rw [grow_eq_quotient, growthFactor, Rat.mkRat_eq_div, ← mul_div_assoc, Int.cast_natCast,
    ← Nat.cast_mul, Rat.floor_natCast_div_natCast, Int.natCast_ediv]

theorem grow_strictMono (scaling : Scaling) : StrictMono scaling.grow := by
  apply strictMono_nat_of_lt_succ
  intro index
  exact Nat.add_lt_add_of_lt_of_le (Nat.lt_succ_self index)
    (Nat.div_le_div_right (Nat.le_succ index))

/-- Growing is multiplication by the growth factor, rounded down, and never brings two
indices together.  Shrinking after it, and growing after shrinking, return the index where
the division of the first move leaves no rest, and the one below it elsewhere. -/
theorem grow_and_shrink_invert_up_to_one (scaling : Scaling) :
    (∀ index, scaling.shrink (scaling.grow index) =
      if scaling.accrualScaler ∣ index then index else index - 1) ∧
    (∀ index, scaling.grow (scaling.shrink index) =
      if scaling.accrualScaler + 1 ∣ index then index else index - 1) ∧
    (∀ index, scaling.grow index =
      index * (scaling.accrualScaler + 1) / scaling.accrualScaler) ∧
    (∀ index : Nat, (scaling.grow index : Int) = ⌊(index : Rat) * scaling.growthFactor⌋) ∧
    StrictMono scaling.grow :=
  ⟨scaling.shrink_grow, scaling.grow_shrink, scaling.grow_eq_quotient, scaling.grow_eq_floor,
    scaling.grow_strictMono⟩

end Scaling

/-! ## The domain of a sweep -/

namespace Sweep

/-- Where the domain of a sweep ends at the shrunk bound of the largest index, whatever
it draws stays in the field, and what fits into the field lies below the end of the
domain.  One index is left out: the next one after the domain fits, unless the largest
index leaves one of two remainders. -/
theorem domain_reaches_but_one_step (sweep : Sweep)
    (penultimate : sweep.scaling.shrink sweep.scaling.largestIndex = sweep.penultimateIndex) :
    (∀ index, sweep.scaling.initialIndex ≤ index ->
      (sweep.scaling.grow index ≤ sweep.scaling.largestIndex ↔
        index ≤ sweep.penultimateIndex ∨
          index = sweep.penultimateIndex + 1 ∧
            sweep.scaling.largestIndex % (sweep.scaling.accrualScaler + 1) ≠ 0 ∧
            sweep.scaling.largestIndex % (sweep.scaling.accrualScaler + 1) ≠
              sweep.scaling.accrualScaler)) ∧
    ∀ position stream index,
      drawnAt sweep.scaling.initialIndex sweep.penultimateIndex position stream = .ok index ->
        sweep.scaling.grow index ≤ sweep.scaling.largestIndex := by
  constructor
  · intro index _
    rw [← penultimate]
    exact Scaling.grow_le_iff_le_shrink_or
  · intro position stream index drawn
    have below := (drawnAt_inside drawn).2
    rw [← penultimate] at below
    exact Scaling.grow_le_of_le_shrink below

/-- In the first generation the accruals that fit are those of the domain and one more. -/
theorem domain_reaches_but_one_step_first_generation :
    ∃ horizon envelope sweep,
      Envelope.ofAllocation Generation.v1.allocation 18 {} horizon = .ok envelope ∧
        ofAllocation Generation.v1.allocation envelope = .ok sweep ∧
        sweep.scaling.shrink sweep.scaling.largestIndex = sweep.penultimateIndex ∧
        sweep.penultimateIndex = 1208925819613420248886561 ∧
        ∀ index, sweep.scaling.initialIndex ≤ index ->
          (sweep.scaling.grow index ≤ sweep.scaling.largestIndex ↔
            index ≤ 1208925819613420248886562) := by
  have first : Attempt.Holds (ofCandidate Generation.v1.allocation 18 {} 1700000000)
      fun sweep => sweep.scaling.shrink sweep.scaling.largestIndex = sweep.penultimateIndex ∧
        sweep.penultimateIndex = 1208925819613420248886561 ∧
        sweep.scaling.largestIndex % (sweep.scaling.accrualScaler + 1) ≠ 0 ∧
        sweep.scaling.largestIndex % (sweep.scaling.accrualScaler + 1) ≠
          sweep.scaling.accrualScaler := by
    decide +kernel
  rcases exists_of_ofCandidate first with
    ⟨horizon, envelope, sweep, derived, found, penultimate, last, apart⟩
  refine ⟨horizon, envelope, sweep, derived, found, penultimate, last, ?_⟩
  intro index started
  rw [(domain_reaches_but_one_step sweep penultimate).1 index started, last, and_iff_left apart]
  omega

/-- Both built-in layouts have an accrual that fits into the index field and starts above
the domain of their sweep. -/
theorem last_step_lies_above_domain :
    (∃ horizon envelope sweep,
      Envelope.ofAllocation Generation.v1.allocation 18 {} horizon = .ok envelope ∧
        ofAllocation Generation.v1.allocation envelope = .ok sweep ∧
        sweep.scaling.shrink sweep.scaling.largestIndex = sweep.penultimateIndex ∧
        sweep.scaling.initialIndex ≤ 1208925819613420248886562 ∧
        ¬ (sweep.scaling.grow 1208925819613420248886562 ≤ sweep.scaling.largestIndex ↔
          1208925819613420248886562 ≤ sweep.penultimateIndex)) ∧
    ∃ horizon envelope sweep,
      Envelope.ofAllocation Generation.v2.allocation 18 {} horizon = .ok envelope ∧
        ofAllocation Generation.v2.allocation envelope = .ok sweep ∧
        sweep.scaling.shrink sweep.scaling.largestIndex = sweep.penultimateIndex ∧
        sweep.scaling.initialIndex ≤ 4722366482864922847213 ∧
        ¬ (sweep.scaling.grow 4722366482864922847213 ≤ sweep.scaling.largestIndex ↔
          4722366482864922847213 ≤ sweep.penultimateIndex) := by
  exact ⟨@exists_of_ofCandidate _ _ 1700000000 _ _ (by decide +kernel),
    @exists_of_ofCandidate _ _ 1700000000 _ _ (by decide +kernel)⟩

end Sweep

end PackedLedger
