import PackedLedger.Proofs.Acceptance

namespace PackedLedger

/-!
# The scaler of stored borrows as a shift

An account field is usually wider than the total, and the scaler between them is a power of
ten times the quotient of their largest values.  The larger of these is the smaller one
moved up by the added bits, with all of them set below it.  So the quotient is the shift,
and a rest that reaches one only when the power of ten makes up for the width of the total.
The first generation has such a rest, the second has none.
-/

theorem fieldMaximum_add (bits more : Nat) :
    fieldMaximum (bits + more) = fieldMaximum bits * 2 ^ more + fieldMaximum more := by
  have total := fieldMaximum_add_one (bits + more)
  have most := fieldMaximum_add_one more
  rw [powerOfTwo_eq, Nat.pow_add, ← powerOfTwo_eq bits, ← fieldMaximum_add_one bits,
    Nat.add_mul, Nat.one_mul] at total
  rw [powerOfTwo_eq] at most
  omega

namespace Scaling

/-- The rounded scaler is the shift by the added bits and the rest of the added bits. -/
theorem borrowsScalerFloor_ofFields_shift (accrual : Nat) (index : Field) {total account : Field}
    (wide : total.bits ≠ 0) {more : Nat} (wider : account.bits = total.bits + more) :
    (ofFields accrual index total account).borrowsScalerFloor =
      10 ^ index.digits * 2 ^ more +
        10 ^ index.digits * (2 ^ more - 1) / (2 ^ total.bits - 1) := by
  have divides : 0 < 2 ^ total.bits - 1 := fieldMaximum_pos wide
  have moved : 2 ^ account.bits - 1 = (2 ^ total.bits - 1) * 2 ^ more + (2 ^ more - 1) := by
    rw [wider]
    exact fieldMaximum_add total.bits more
  have parts : 10 ^ index.digits * (2 ^ account.bits - 1) =
      (2 ^ total.bits - 1) * (10 ^ index.digits * 2 ^ more) +
        10 ^ index.digits * (2 ^ more - 1) := by
    rw [moved, Nat.mul_add, Nat.mul_left_comm]
  rw [borrowsScalerFloor_ofFields, parts, Nat.mul_add_div divides]

/-- Over one field of each role, the total not empty and the account field at least as wide,
the scaler that contract code holds is the power of ten of the index, shifted by the added
bits, and a rest.  It is the shift alone exactly when the rest is less than one. -/
theorem borrowsScalerFloor_is_shift_and_rest {allocation : Allocation}
    {index total account : Field} (oneIndex : allocation.withRole .borrowIndex = [index])
    (oneTotal : allocation.withRole .totalBorrows = [total])
    (oneAccount : allocation.withRole .accountBorrows = [account]) (wide : 1 ≤ total.bits)
    {more : Nat} (wider : account.bits = total.bits + more) :
    ∃ scaling, ofAllocation allocation = .ok scaling ∧
      scaling.borrowsScalerFloor =
        10 ^ index.digits * 2 ^ more +
          10 ^ index.digits * (2 ^ more - 1) / (2 ^ total.bits - 1) ∧
      (scaling.borrowsScalerFloor = 10 ^ index.digits * 2 ^ more ↔
        10 ^ index.digits * (2 ^ more - 1) < 2 ^ total.bits - 1) := by
  have someBits : total.bits ≠ 0 := Nat.one_le_iff_ne_zero.mp wide
  have divides : 0 < 2 ^ total.bits - 1 := fieldMaximum_pos someBits
  have found : ofAllocation allocation =
      .ok (ofFields allocation.accrualPrecision index total account) :=
    ofAllocation_eq_ok.mpr
      ⟨index, total, account, oneIndex, oneTotal, oneAccount, ne_of_gt divides, rfl⟩
  have closed :=
    borrowsScalerFloor_ofFields_shift allocation.accrualPrecision index someBits wider
  refine ⟨_, found, closed, ?_⟩
  rw [closed, Nat.add_eq_left, Nat.div_eq_zero_iff_lt divides]

/-- With a total of 144 bits the rest comes to 232, and with one of 184 bits to nothing. -/
theorem borrowsScalerFloor_is_shift_and_rest_generations :
    (∃ scaling, ofAllocation Generation.v1.allocation = .ok scaling ∧
      scaling.borrowsScalerFloor = 10 ^ 12 * 2 ^ 112 + 232) ∧
    (∃ scaling, ofAllocation Generation.v2.allocation = .ok scaling ∧
      scaling.borrowsScalerFloor = 10 ^ 12 * 2 ^ 72) := by
  constructor
  · have oneIndex : Generation.v1.allocation.withRole .borrowIndex =
        [⟨"borrowIndex", 80, some 12, .borrowIndex⟩] := rfl
    have oneTotal : Generation.v1.allocation.withRole .totalBorrows =
        [⟨"totalBorrows", 144, some 12, .totalBorrows⟩] := rfl
    have oneAccount : Generation.v1.allocation.withRole .accountBorrows =
        [⟨"borrows", 144 + 112, none, .accountBorrows⟩] := rfl
    rcases borrowsScalerFloor_is_shift_and_rest oneIndex oneTotal oneAccount (by decide) rfl
      with ⟨scaling, found, closed, _⟩
    exact ⟨scaling, found, closed.trans (by decide)⟩
  · have oneIndex : Generation.v2.allocation.withRole .borrowIndex =
        [⟨"borrowIndex", 72, some 12, .borrowIndex⟩] := rfl
    have oneTotal : Generation.v2.allocation.withRole .totalBorrows =
        [⟨"borrowBase", 184, some 12, .totalBorrows⟩] := rfl
    have oneAccount : Generation.v2.allocation.withRole .accountBorrows =
        [⟨"borrows", 184 + 72, none, .accountBorrows⟩] := rfl
    rcases borrowsScalerFloor_is_shift_and_rest oneIndex oneTotal oneAccount (by decide) rfl
      with ⟨scaling, found, _, shift⟩
    exact ⟨scaling, found, shift.mpr (by decide)⟩

end Scaling

end PackedLedger
