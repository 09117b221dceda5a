import Mathlib.Algebra.Order.Ring.Nat
import PackedLedger.Number.Digits

namespace PackedLedger

/-!
# Sizes as comparisons with powers

A bit length and a number of decimal digits are counts, but what a check asks
of them is always a comparison of the number itself with a power.  The lemmas
here replace the count by that comparison, in both directions, so that no later
argument looks inside the counting.
-/

@[simp] theorem powerOfTwo_eq (exponent : Nat) : powerOfTwo exponent = 2 ^ exponent := rfl

@[simp] theorem powerOfTen_eq (exponent : Nat) : powerOfTen exponent = 10 ^ exponent := rfl

theorem fieldMaximum_pos {bits : Nat} (wide : bits ≠ 0) : 0 < fieldMaximum bits := by
  have two : 2 ^ 1 ≤ 2 ^ bits := Nat.pow_le_pow_right (by decide) (Nat.pos_of_ne_zero wide)
  simp [fieldMaximum]
  omega

theorem fieldMaximum_mono {fewer bits : Nat} (narrower : fewer ≤ bits) :
    fieldMaximum fewer ≤ fieldMaximum bits :=
  Nat.sub_le_sub_right (Nat.pow_le_pow_right (by decide) narrower) 1

/-! ## Bits -/

theorem bitLength_le_iff {value bits : Nat} : bitLength value ≤ bits ↔ value < powerOfTwo bits := by
  unfold bitLength
  by_cases zero : value = 0
  · rw [if_pos zero, zero]
    exact ⟨fun _ => powerOfTwo_pos bits, fun _ => Nat.zero_le bits⟩
  · rw [if_neg zero]
    exact Nat.log2_lt zero

theorem lt_bitLength_iff {value bits : Nat} : bits < bitLength value ↔ powerOfTwo bits ≤ value := by
  rw [← Nat.not_le, bitLength_le_iff, Nat.not_lt]

theorem lt_powerOfTwo_bitLength (value : Nat) : value < powerOfTwo (bitLength value) :=
  bitLength_le_iff.mp (Nat.le_refl _)

theorem bitLength_pos {value : Nat} (positive : 0 < value) : 0 < bitLength value :=
  lt_bitLength_iff.mpr positive

theorem bitLength_mono {left right : Nat} (ordered : left ≤ right) :
    bitLength left ≤ bitLength right :=
  bitLength_le_iff.mpr (Nat.lt_of_le_of_lt ordered (lt_powerOfTwo_bitLength right))

theorem powerOfTwo_le_of_bitLength {value : Nat} (positive : 0 < value) :
    powerOfTwo (bitLength value - 1) ≤ value :=
  lt_bitLength_iff.mp (Nat.sub_lt (bitLength_pos positive) Nat.one_pos)

/-! ## Decimal digits -/

/-- A number has more than `exponent` digits exactly when it reaches that power
of ten, except that zero has a digit too. -/
theorem lt_decimalDigits_iff {value exponent : Nat} (positive : 0 < value) :
    exponent < decimalDigits value ↔ powerOfTen exponent ≤ value := by
  induction value using decimalDigits.induct generalizing exponent with
  | case1 value small =>
      rw [decimalDigits, if_pos small]
      cases exponent with
      | zero => exact ⟨fun _ => positive, fun _ => Nat.one_pos⟩
      | succ exponent =>
          have large : 10 ≤ powerOfTen (exponent + 1) := by
            rw [powerOfTen_succ]
            exact Nat.le_mul_of_pos_left 10 (powerOfTen_pos exponent)
          omega
  | case2 value large inductionHypothesis =>
      rw [decimalDigits, if_neg large]
      cases exponent with
      | zero => exact ⟨fun _ => positive, fun _ => Nat.succ_pos _⟩
      | succ exponent =>
          rw [Nat.succ_lt_succ_iff, inductionHypothesis (by omega), powerOfTen_succ,
            Nat.le_div_iff_mul_le (by decide)]

/-- The order of magnitude of a positive number reaches a requirement exactly
when the number reaches the power of ten of the requirement and the shift.  A
requirement so low that this power is no natural number is always met. -/
theorem le_orderOfMagnitude_iff {value shift : Nat} {required : Int} (positive : 0 < value) :
    required ≤ orderOfMagnitude value shift ↔
      ∀ exponent : Nat, (exponent : Int) = shift + required -> powerOfTen exponent ≤ value := by
  unfold orderOfMagnitude
  constructor
  · intro met exponent same
    apply (lt_decimalDigits_iff positive).mp
    omega
  · intro reaches
    have digits := decimalDigits_pos value
    rcases Int.lt_or_le ((shift : Int) + required) 0 with low | high
    · omega
    · have met := (lt_decimalDigits_iff positive).mpr
        (reaches ((shift : Int) + required).toNat (Int.toNat_of_nonneg high))
      omega

end PackedLedger
