import Mathlib.Algebra.Order.Floor.Semifield
import Mathlib.Data.Rat.Floor
import PackedLedger.Proofs.Attempt
import PackedLedger.Scaling

namespace PackedLedger

/-!
# Conversions between amounts and base units

## Base units as exact quotients

In raw units the base units of an amount are its exact quotient, rounded down.
For one amount unit the scaler may be rounded down first.  And where the base
units of one amount unit fall, a whole number lies between the two quotients:
the same number times an amount lies between the quotients of that amount,
however little these differ.
-/

namespace Conversion

variable {scaler : Rat} {index next later amount : Nat}

theorem natAbs_num_eq (nonneg : 0 ≤ scaler) : (scaler.num.natAbs : Rat) = scaler * scaler.den := by
  rw [Rat.mul_den_eq_num, ← Int.cast_natCast, Int.natAbs_of_nonneg (Rat.num_nonneg.mpr nonneg)]

/-- In raw units, the base units of an amount are the exact quotient rounded
down. -/
theorem toBase_raw (nonneg : 0 ≤ scaler) (accrualScaler amount : Nat) (positive : 0 < index) :
    toBase scaler accrualScaler .raw index amount = .ok ⌊amount * scaler / index⌋₊ := by
  have divisor : 0 < index * scaler.den * 1 :=
    Nat.mul_pos (Nat.mul_pos positive scaler.den_pos) Nat.one_pos
  have exact : (amount : Rat) * scaler / index =
      ((amount * scaler.num.natAbs : Nat) : Rat) / (index * scaler.den * 1 : Nat) := by
    have den : (scaler.den : Rat) ≠ 0 := Nat.cast_ne_zero.mpr scaler.den_ne_zero
    push_cast
    rw [natAbs_num_eq nonneg, mul_one, ← mul_assoc, mul_div_mul_right _ _ den]
  rw [exact, Nat.floor_div_eq_div, toBase, if_neg (Nat.ne_of_gt positive)]
  exact Checked.unlessZero_of_ne (Nat.ne_of_gt divisor)

theorem toBase_unit (nonneg : 0 ≤ scaler) (accrualScaler : Nat) (positive : 0 < index) :
    toBase scaler accrualScaler .raw index 1 = .ok (⌊scaler⌋₊ / index) := by
  rw [toBase_raw nonneg accrualScaler 1 positive, Nat.cast_one, one_mul, Nat.floor_div_natCast]

theorem toBase_unit_floor (nonneg : 0 ≤ scaler) (accrualScaler index : Nat) :
    toBase (⌊scaler⌋₊ : Rat) accrualScaler .raw index 1 =
      toBase scaler accrualScaler .raw index 1 := by
  rcases Nat.eq_zero_or_pos index with zero | positive
  · rw [zero]
    rfl
  · rw [toBase_unit nonneg accrualScaler positive,
      toBase_unit (Nat.cast_nonneg _) accrualScaler positive, Nat.floor_natCast]

/-- A whole number that separates the quotients of one unit separates those of
every amount. -/
theorem floor_quotient_lt (nonneg : 0 ≤ scaler) (someAmount : 1 ≤ amount)
    (fewer : ⌊scaler / later⌋₊ < ⌊scaler / index⌋₊) :
    ⌊amount * scaler / later⌋₊ < ⌊amount * scaler / index⌋₊ := by
  have positive : (0 : Rat) < amount := Nat.cast_pos.mpr someAmount
  have fits : (⌊scaler / index⌋₊ : Rat) ≤ scaler / index :=
    Nat.floor_le (div_nonneg nonneg (Nat.cast_nonneg index))
  have outgrown : scaler / later < ⌊scaler / index⌋₊ :=
    (Nat.floor_lt (div_nonneg nonneg (Nat.cast_nonneg later))).mp fewer
  have below : ⌊amount * scaler / later⌋₊ < amount * ⌊scaler / index⌋₊ := by
    rw [Nat.floor_lt (div_nonneg (mul_nonneg positive.le nonneg) (Nat.cast_nonneg later)),
      mul_div_assoc, Nat.cast_mul]
    exact mul_lt_mul_of_pos_left outgrown positive
  apply lt_of_lt_of_le below
  apply Nat.le_floor
  rw [mul_div_assoc, Nat.cast_mul]
  exact mul_le_mul_of_nonneg_left fits positive.le

/-- If one unit is worth fewer base units at the next index, then every amount
is, at that index and at every later one. -/
theorem toBase_lt_of_unit (nonneg : 0 ≤ scaler) (accrualScaler : Nat) (positive : 0 < index)
    (someNext : 0 < next) (fewer : ⌊scaler⌋₊ / next < ⌊scaler⌋₊ / index)
    (someAmount : 1 ≤ amount) (ordered : next ≤ later) :
    ∃ before after, toBase scaler accrualScaler .raw index amount = .ok before ∧
      toBase scaler accrualScaler .raw later amount = .ok after ∧ after < before := by
  refine ⟨_, _, toBase_raw nonneg accrualScaler amount positive,
    toBase_raw nonneg accrualScaler amount (Nat.lt_of_lt_of_le someNext ordered), ?_⟩
  apply floor_quotient_lt nonneg someAmount
  rw [Nat.floor_div_natCast, Nat.floor_div_natCast]
  exact Nat.lt_of_le_of_lt (Nat.div_le_div_left ordered someNext) fewer

end Conversion

/-!
## Conversions there and back

Both directions multiply by one of two weights and divide by the other, rounded
down: the numerator of the scaler, and its denominator times the index, counted
in the steps of the amount.  So stored units that become an amount and an amount
that becomes stored units come back by the same calculation, with the weights
exchanged.  The two floors never gain.  They lose less than one and the ratio of
the weights, and nothing at all where the first division leaves no rest.
-/

namespace Conversion

/-! ### Two floors in opposite directions -/

section Returned

variable {weight counterweight : Nat}

end Returned

/-! ### The two directions -/

def Resolution.indexSteps (resolution : Resolution) (accrualScaler index : Nat) : Nat :=
  index * resolution.stepsPerUnit accrualScaler

theorem Resolution.indexSteps_pos (resolution : Resolution) {accrualScaler index : Nat}
    (someIndex : 0 < index) (someAccrual : 0 < accrualScaler) :
    0 < resolution.indexSteps accrualScaler index := by
  cases resolution with
  | raw => exact Nat.mul_pos someIndex Nat.one_pos
  | scaled => exact Nat.mul_pos someIndex someAccrual

theorem Resolution.indexSteps_scaled (accrualScaler index : Nat) :
    Resolution.scaled.indexSteps accrualScaler index =
      Resolution.raw.indexSteps accrualScaler index * accrualScaler := by
  simp only [indexSteps, stepsPerUnit, Nat.mul_one]

section Directions

variable {scaler : Rat} {accrualScaler index : Nat} {resolution : Resolution}

theorem toAmount_eq_ok (someNumerator : 0 < scaler.num.natAbs) (someIndex : 0 < index)
    (base : Nat) :
    toAmount scaler accrualScaler resolution index base =
      .ok (base * (resolution.indexSteps accrualScaler index * scaler.den) /
        scaler.num.natAbs) := by
  have weight : base * index * scaler.den * resolution.stepsPerUnit accrualScaler =
      base * (resolution.indexSteps accrualScaler index * scaler.den) := by
    rw [Resolution.indexSteps, Nat.mul_right_comm _ scaler.den, Nat.mul_assoc base,
      Nat.mul_assoc base]
  rw [toAmount, if_neg (Nat.ne_of_gt someIndex), weight]
  exact Checked.unlessZero_of_ne (Nat.ne_of_gt someNumerator)

theorem toBase_eq_ok (weighed : 0 < resolution.indexSteps accrualScaler index)
    (someIndex : 0 < index) (amount : Nat) :
    toBase scaler accrualScaler resolution index amount =
      .ok (amount * scaler.num.natAbs /
        (resolution.indexSteps accrualScaler index * scaler.den)) := by
  have weight : index * scaler.den * resolution.stepsPerUnit accrualScaler =
      resolution.indexSteps accrualScaler index * scaler.den := Nat.mul_right_comm _ _ _
  rw [toBase, if_neg (Nat.ne_of_gt someIndex), weight]
  exact Checked.unlessZero_of_ne (Nat.ne_of_gt (Nat.mul_pos weighed scaler.den_pos))

end Directions

/-! ### What comes back -/

section Scaler

variable {scaler : Rat} (positive : 0 < scaler)
include positive

theorem natAbs_num_pos : 0 < scaler.num.natAbs :=
  Int.natAbs_pos.mpr (ne_of_gt (Rat.num_pos.mpr positive))

end Scaler

end Conversion

/-!
## Raw and scaled conversions agree

An amount counts raw asset units, or steps of which the accrual scaler makes one unit.  On
the way to an amount the steps multiply the dividend and on the way back the divisor, with
a floor after either.  Two facts bring the resolutions together.  A floor of a floor is one
floor, so an amount in raw units is the amount in steps rounded down to whole units.  And
whole units are stored alike in both, so an amount in steps is stored between the whole
units below and above it.
-/

namespace Conversion

section Resolutions

variable {scaler : Rat} {accrualScaler index : Nat} {resolution : Resolution}

/-- A raw amount is the scaled one rounded down to whole units. -/
theorem exists_toAmount_raw_of_scaled (someNumerator : 0 < scaler.num.natAbs)
    (someIndex : 0 < index) (someAccrual : 0 < accrualScaler) (base : Nat) :
    ∃ steps, toAmount scaler accrualScaler .scaled index base = .ok steps ∧
      toAmount scaler accrualScaler .raw index base = .ok (steps / accrualScaler) := by
  refine ⟨_, toAmount_eq_ok someNumerator someIndex base, ?_⟩
  have weight : base * (Resolution.scaled.indexSteps accrualScaler index * scaler.den) =
      base * (Resolution.raw.indexSteps accrualScaler index * scaler.den) * accrualScaler := by
    rw [Resolution.indexSteps_scaled, Nat.mul_right_comm _ accrualScaler, Nat.mul_assoc base]
  rw [toAmount_eq_ok someNumerator someIndex, weight, Nat.div_div_eq_div_mul,
    Nat.mul_div_mul_right _ _ someAccrual]

theorem toBase_scaled_of_units (someIndex : 0 < index) (someAccrual : 0 < accrualScaler)
    (units : Nat) :
    toBase scaler accrualScaler .scaled index (units * accrualScaler) =
      toBase scaler accrualScaler .raw index units := by
  have weighed := fun resolution : Resolution => resolution.indexSteps_pos someIndex someAccrual
  rw [toBase_eq_ok (weighed .scaled) someIndex, toBase_eq_ok (weighed .raw) someIndex,
    Resolution.indexSteps_scaled, Nat.mul_right_comm _ accrualScaler scaler.den,
    Nat.mul_right_comm units, Nat.mul_div_mul_right _ _ someAccrual]

theorem exists_toBase_le (weighed : 0 < resolution.indexSteps accrualScaler index)
    (someIndex : 0 < index) {amount larger : Nat} (ordered : amount ≤ larger) :
    ∃ base more, toBase scaler accrualScaler resolution index amount = .ok base ∧
      toBase scaler accrualScaler resolution index larger = .ok more ∧ base ≤ more :=
  ⟨_, _, toBase_eq_ok weighed someIndex amount, toBase_eq_ok weighed someIndex larger,
    Nat.div_le_div_right (Nat.mul_le_mul_right _ ordered)⟩

end Resolutions

/-- Under a positive scaler and at a positive index both resolutions agree, as far as their
amounts do.  A raw amount is the scaled one rounded down, whole units are stored alike, and
any amount in steps is stored between the units below and above it. -/
theorem resolutions_agree {scaler : Rat} (positive : 0 < scaler) {index accrualScaler : Nat}
    (someIndex : 1 ≤ index) (someAccrual : 1 ≤ accrualScaler) :
    (∀ base, ∃ steps, toAmount scaler accrualScaler .scaled index base = .ok steps ∧
      toAmount scaler accrualScaler .raw index base = .ok (steps / accrualScaler)) ∧
    (∀ units, ∃ base, toBase scaler accrualScaler .raw index units = .ok base ∧
      toBase scaler accrualScaler .scaled index (units * accrualScaler) = .ok base) ∧
    ∀ steps, ∃ below base above,
      toBase scaler accrualScaler .raw index (steps / accrualScaler) = .ok below ∧
      toBase scaler accrualScaler .scaled index steps = .ok base ∧
      toBase scaler accrualScaler .raw index (steps / accrualScaler + 1) = .ok above ∧
      below ≤ base ∧ base ≤ above := by
  have weighed := fun resolution : Resolution => resolution.indexSteps_pos someIndex someAccrual
  refine ⟨?_, ?_, ?_⟩
  · intro base
    exact exists_toAmount_raw_of_scaled (natAbs_num_pos positive) someIndex someAccrual base
  · intro units
    refine ⟨_, toBase_eq_ok (weighed .raw) someIndex units, ?_⟩
    rw [toBase_scaled_of_units someIndex someAccrual, toBase_eq_ok (weighed .raw) someIndex]
  · intro steps
    have unitsBelow : steps / accrualScaler * accrualScaler ≤ steps := Nat.div_mul_le_self _ _
    have unitsAbove : steps ≤ (steps / accrualScaler + 1) * accrualScaler := by
      rw [Nat.mul_comm]
      exact (Nat.lt_mul_div_succ steps someAccrual).le
    rcases exists_toBase_le (weighed .scaled) someIndex unitsBelow with
      ⟨below, base, foundBelow, found, least⟩
    rcases exists_toBase_le (weighed .scaled) someIndex unitsAbove with
      ⟨same, above, foundAgain, foundAbove, most⟩
    rw [toBase_scaled_of_units someIndex someAccrual] at foundBelow foundAbove
    cases found.symm.trans foundAgain
    exact ⟨below, base, above, foundBelow, found, foundAbove, least, most⟩

/-- Under a scaler of five halves and at index three, four stored units are worth 480
hundredths or four whole units.  250 hundredths are stored as two units, which is what
three whole units are stored as and one more than two are. -/
theorem resolutions_agree_fractional :
    (0 : Rat) < 5 / 2 ∧ toAmount (5 / 2) 100 .scaled 3 4 = .ok 480 ∧
      toAmount (5 / 2) 100 .raw 3 4 = .ok (480 / 100) ∧
      ∃ below above, toBase (5 / 2) 100 .raw 3 (250 / 100) = .ok below ∧
        toBase (5 / 2) 100 .scaled 3 250 = .ok 2 ∧
        toBase (5 / 2) 100 .raw 3 (250 / 100 + 1) = .ok above ∧ below ≤ 2 ∧ 2 ≤ above := by
  have positive : (0 : Rat) < 5 / 2 := by decide +kernel
  have someIndex : 1 ≤ 3 := by decide
  have someAccrual : 1 ≤ 100 := by decide
  rcases resolutions_agree positive someIndex someAccrual with ⟨amounts, _, bases⟩
  have scaledAmount : toAmount (5 / 2) 100 .scaled 3 4 = .ok 480 := by decide +kernel
  have scaledBase : toBase (5 / 2) 100 .scaled 3 250 = .ok 2 := by decide +kernel
  rcases amounts 4 with ⟨_, found, rawAmount⟩
  cases scaledAmount.symm.trans found
  rcases bases 250 with ⟨below, _, above, foundBelow, found, foundAbove, least, most⟩
  cases scaledBase.symm.trans found
  exact ⟨positive, scaledAmount, rawAmount, below, above, foundBelow, scaledBase, foundAbove,
    least, most⟩

end Conversion

end PackedLedger
