import PackedLedger.Allocation.Lookup
import PackedLedger.Attempt
import PackedLedger.Number.Digits
import PackedLedger.Rejection

namespace PackedLedger

/-!
# Scaling constants, moves of the borrow index and conversions

The index starts at ten to its precision and compounds.  One smallest accrual
multiplies it by `(accrualScaler + 1) / accrualScaler` and rounds down, which
adds `index / accrualScaler`, itself rounded down.  `compoundUntil` repeats
that move.  As long as the increment stays the same it takes many steps at
once, and the termination argument is that it takes at least one.
-/

/-- The constants that widths and precisions imply. -/
structure Scaling where
  /-- Ten to the accrual precision. -/
  accrualScaler : Nat
  /-- The index at the start, ten to its precision. -/
  initialIndex : Nat
  /-- The largest index the field can hold. -/
  largestIndex : Nat
  /-- The factor between stored borrow units and amounts at index one. -/
  borrowsScaler : Rat
  accrualScaler_pos : 0 < accrualScaler
  deriving Repr

namespace Scaling

variable {Reason : Type}

/-- The constants of an allocation.  Its largest stored borrow has to mean its
largest total at the initial index, which fixes the scaler between them. -/
def ofAllocation (allocation : Allocation) : Verdict Scaling := do
  let index ← allocation.requireRole .borrowIndex
  let total ← allocation.requireRole .totalBorrows
  let account ← allocation.requireRole .accountBorrows
  let initialIndex := powerOfTen index.digits
  let borrowsScaler ←
    Checked.fraction ((initialIndex * fieldMaximum account.bits : Nat) : Int)
      (fieldMaximum total.bits)
  return {
    accrualScaler := powerOfTen allocation.accrualPrecision
    initialIndex
    largestIndex := fieldMaximum index.bits
    borrowsScaler
    accrualScaler_pos := powerOfTen_pos _ }

/-- The growth factor of one smallest accrual. -/
def growthFactor (scaling : Scaling) : Rat :=
  mkRat (scaling.accrualScaler + 1 : Nat) scaling.accrualScaler

/-- The integer constant that contract code would hold. -/
def borrowsScalerFloor (scaling : Scaling) : Nat :=
  scaling.borrowsScaler.floor.toNat

/-- What one smallest accrual adds to an index. -/
def increment (scaling : Scaling) (index : Nat) : Nat :=
  index / scaling.accrualScaler

/-- The index after one smallest accrual. -/
def grow (scaling : Scaling) (index : Nat) : Nat :=
  index + scaling.increment index

/-- The index one smallest accrual below. -/
def shrink (scaling : Scaling) (index : Nat) : Nat :=
  index * scaling.accrualScaler / (scaling.accrualScaler + 1)

/-- The index after a number of smallest accruals, one by one. -/
def iterate (scaling : Scaling) : Nat -> Nat -> Nat
  | 0, index => index
  | steps + 1, index => iterate scaling steps (scaling.grow index)

/-- Whether an index has come up to a limit, if there is one. -/
def Reached (limit : Option Nat) (index : Nat) : Prop :=
  ∃ bound ∈ limit, bound ≤ index

instance (limit : Option Nat) (index : Nat) : Decidable (Reached limit index) :=
  inferInstanceAs (Decidable (∃ bound, bound ∈ limit ∧ bound ≤ index))

/-- The number of equal increments that take `index` up to `target`. -/
def stepsTo (target index increment : Nat) : Attempt Reason Nat := do
  let gap ← Checked.difference target index
  let rounded ← Checked.difference (gap + increment) 1
  Checked.quotient rounded increment

/-- The number of steps that surely add the same increment: up to the next
multiple of the scaler, and no further than needed for the limit. -/
def runLength (scaling : Scaling) (limit : Option Nat) (index : Nat) :
    Attempt Reason Nat := do
  let increment := scaling.increment index
  let run ← stepsTo ((increment + 1) * scaling.accrualScaler) index increment
  match limit with
  | none => return run
  | some bound => return min run (← stepsTo bound index increment)

theorem stepsTo_of_lt {target index increment : Nat} (below : index < target)
    (positive : 0 < increment) :
    (stepsTo target index increment : Attempt Reason Nat) =
      .ok ((target - index + increment - 1) / increment) := by
  have rounds : 1 ≤ target - index + increment := by omega
  simp [stepsTo, Nat.le_of_lt below, rounds, Nat.ne_of_gt positive]

theorem one_le_quotient {target index increment : Nat} (below : index < target)
    (positive : 0 < increment) : 1 ≤ (target - index + increment - 1) / increment := by
  rw [Nat.le_div_iff_mul_le positive]
  omega

theorem lt_nextMultiple (scaling : Scaling) (index : Nat) :
    index < (scaling.increment index + 1) * scaling.accrualScaler := by
  rw [Nat.mul_comm]
  exact Nat.lt_mul_div_succ index scaling.accrualScaler_pos

theorem one_le_runLength {scaling : Scaling} {limit : Option Nat} {index run : Nat}
    (short : ¬ Reached limit index) (positive : 0 < scaling.increment index)
    (found : (scaling.runLength limit index : Attempt Reason Nat) = .ok run) : 1 ≤ run := by
  have below := scaling.lt_nextMultiple index
  rw [runLength, stepsTo_of_lt below positive] at found
  have least := one_le_quotient below positive
  cases limit with
  | none =>
      simp at found
      omega
  | some bound =>
      have under : index < bound := by
        apply Nat.lt_of_not_le
        intro reached
        exact short ⟨bound, rfl, reached⟩
      have least' := one_le_quotient under positive
      simp [stepsTo_of_lt under positive] at found
      omega

/-- The index after `steps` smallest accruals, or at the first one of them that
comes up to the limit. -/
def compoundUntil (scaling : Scaling) (limit : Option Nat) (index steps : Nat) :
    Attempt Reason Nat :=
  if finished : steps = 0 ∨ Reached limit index ∨ scaling.increment index = 0 then .ok index
  else
    match found : (scaling.runLength limit index : Attempt Reason Nat) with
    | .error failure => .error failure
    | .ok run =>
      have : 1 ≤ run := by
        simp only [not_or] at finished
        exact one_le_runLength finished.2.1 (Nat.pos_of_ne_zero finished.2.2) found
      let taken := min run steps
      scaling.compoundUntil limit (index + scaling.increment index * taken) (steps - taken)
termination_by steps
decreasing_by
  simp only [not_or] at finished
  omega

/-- The index after `steps` smallest accruals. -/
def compound (scaling : Scaling) (index steps : Nat) : Attempt Reason Nat :=
  scaling.compoundUntil none index steps

end Scaling

/-!
## Amounts owed and units stored

An account stores base units, and what it owes is `base * index / scaler`.
Both directions round down.  An amount may carry the extra digits of the
accrual factor, which keeps more of the product.  A scaler counts by its
magnitude alone.
-/

namespace Conversion

/-- The precision of an amount. -/
inductive Resolution where
  /-- Raw asset units. -/
  | raw
  /-- Raw asset units times the accrual scaler. -/
  | scaled
  deriving Repr, DecidableEq

/-- The number of amount steps in one raw asset unit. -/
def Resolution.stepsPerUnit (accrualScaler : Nat) : Resolution -> Nat
  | raw => 1
  | scaled => accrualScaler

/-- The amount that `base` stored units stand for at `index`, rounded down. -/
def toAmount (scaler : Rat) (accrualScaler : Nat) (resolution : Resolution)
    (index base : Nat) : Verdict Nat :=
  if index = 0 then .refuse .zeroIndex
  else
    Checked.quotient
      (base * index * scaler.den * resolution.stepsPerUnit accrualScaler)
      scaler.num.natAbs

/-- The stored units that stand for `amount` at `index`, rounded down. -/
def toBase (scaler : Rat) (accrualScaler : Nat) (resolution : Resolution)
    (index amount : Nat) : Verdict Nat :=
  if index = 0 then .refuse .zeroIndex
  else
    Checked.quotient (amount * scaler.num.natAbs)
      (index * scaler.den * resolution.stepsPerUnit accrualScaler)

end Conversion

end PackedLedger
