import Mathlib.Algebra.Order.Field.Power
import Mathlib.Data.Nat.Digits.Lemmas
import Mathlib.Data.Rat.Floor
import Mathlib.Tactic.NormNum
import PackedLedger.Proofs.Requirements

namespace PackedLedger

/-!
# The magnitude of a field is exact

The order of magnitude of a field is a count of digits less a shift, both whole numbers,
while what it stands for is a quotient that may lie far below one.  The count and the
quotient say the same: the order is the one whose powers of ten enclose the exact number
of asset units, for every width and with either sign.  From this follow the verdict, since
a required order is reached exactly when its power of ten is, and the number of digits of
the whole units, which is computed apart from the order by a division of its own.
-/

/-! ## Orders of magnitude as rational bounds -/

theorem decimalDigits_bounds {value : Nat} (positive : 0 < value) :
    10 ^ (decimalDigits value - 1) ≤ value ∧ value < 10 ^ decimalDigits value := by
  constructor
  · exact (lt_decimalDigits_iff positive).mp
      (Nat.sub_lt (decimalDigits_pos value) Nat.one_pos)
  · apply Nat.lt_of_not_le
    intro reached
    exact absurd ((lt_decimalDigits_iff positive).mpr reached) (Nat.lt_irrefl _)

/-- The power of ten of an order is at most the shifted number, and that of the next order
is larger. -/
theorem orderOfMagnitude_bounds {value : Nat} (positive : 0 < value) (shift : Nat) :
    (10 : Rat) ^ orderOfMagnitude value shift ≤ (value : Rat) / 10 ^ shift ∧
      (value : Rat) / 10 ^ shift < (10 : Rat) ^ (orderOfMagnitude value shift + 1) := by
  rcases decimalDigits_bounds positive with ⟨reached, below⟩
  have someDigits := decimalDigits_pos value
  have scale : (0 : Rat) < 10 ^ shift := pow_pos (by norm_num) shift
  have order : orderOfMagnitude value shift = ((decimalDigits value - 1 : Nat) : Int) - shift := by
    unfold orderOfMagnitude
    omega
  have next : orderOfMagnitude value shift + 1 = (decimalDigits value : Int) - shift := by
    unfold orderOfMagnitude
    omega
  constructor
  · rw [order, zpow_sub₀ (by norm_num), zpow_natCast, zpow_natCast,
      div_le_div_iff_of_pos_right scale]
    exact_mod_cast reached
  · rw [next, zpow_sub₀ (by norm_num), zpow_natCast, zpow_natCast,
      div_lt_div_iff_of_pos_right scale]
    exact_mod_cast below

theorem le_order_iff {value : Rat} {order required : Int} (reached : (10 : Rat) ^ order ≤ value)
    (below : value < (10 : Rat) ^ (order + 1)) :
    required ≤ order ↔ (10 : Rat) ^ required ≤ value := by
  constructor
  · intro within
    exact (zpow_le_zpow_right₀ (by norm_num) within).trans reached
  · intro reaches
    apply Int.le_of_lt_add_one
    exact (zpow_lt_zpow_iff_right₀ (by norm_num)).mp (reaches.trans_lt below)

theorem digits_length_eq {number order : Nat} (reached : 10 ^ order ≤ number)
    (below : number < 10 ^ (order + 1)) : (Nat.digits 10 number).length = order + 1 := by
  apply Nat.le_antisymm
  · exact (Nat.digits_length_le_iff (by decide) number).mpr below
  · exact (Nat.lt_digits_length_iff (by decide) number).mpr reached

/-- The whole part of a value has one digit more than the order of the value, if that is not
negative. -/
theorem digits_length_floor {value : Rat} {order : Int} {units : Nat} (nonneg : 0 ≤ order)
    (reached : (10 : Rat) ^ order ≤ value) (below : value < (10 : Rat) ^ (order + 1))
    (whole : (units : Int) = ⌊value⌋) : ((Nat.digits 10 units).length : Int) = order + 1 := by
  lift order to Nat using nonneg
  have least : ((10 ^ order : Nat) : Int) ≤ units := by
    rw [whole, Int.le_floor]
    rw [zpow_natCast] at reached
    exact_mod_cast reached
  have greatest : (units : Int) < ((10 ^ (order + 1) : Nat) : Int) := by
    rw [whole, Int.floor_lt]
    rw [← Int.natCast_succ, zpow_natCast] at below
    exact_mod_cast below
  rw [digits_length_eq (Int.ofNat_le.mp least) (Int.ofNat_lt.mp greatest)]
  rfl

/-! ## Ranges -/

def Field.unitsHeld (field : Field) (assetDecimals : Nat) : Rat :=
  ((2 ^ field.bits - 1 : Nat) : Rat) / 10 ^ (field.digits + assetDecimals)

namespace FieldRange

/-- A range tells the order of magnitude and the whole units of what its field holds. -/
structure Exact (range : FieldRange) (field : Field) (assetDecimals : Nat) : Prop where
  name_eq : range.field = field.name
  role_eq : range.role = field.role
  order_le : (10 : Rat) ^ range.order ≤ field.unitsHeld assetDecimals
  lt_next_order : field.unitsHeld assetDecimals < (10 : Rat) ^ (range.order + 1)
  maxUnits_eq : (range.maxUnits : Int) = ⌊field.unitsHeld assetDecimals⌋
  digits_eq : 0 ≤ range.order -> ((Nat.digits 10 range.maxUnits).length : Int) = range.order + 1

variable {field : Field} {assetDecimals : Nat}

theorem measured_exact (wide : field.bits ≠ 0) (logarithm : Rat) :
    (measured field assetDecimals logarithm).Exact field assetDecimals := by
  have bounds := orderOfMagnitude_bounds (fieldMaximum_pos wide) (field.digits + assetDecimals)
  have whole : ((measured field assetDecimals logarithm).maxUnits : Int) =
      ⌊field.unitsHeld assetDecimals⌋ := by
    have power : (10 : Rat) ^ (field.digits + assetDecimals) =
        ((powerOfTen (field.digits + assetDecimals) : Nat) : Rat) := by
      simp
    rw [Field.unitsHeld, power, Rat.floor_natCast_div_natCast]
    rfl
  exact ⟨rfl, rfl, bounds.1, bounds.2, whole,
    fun nonneg => digits_length_floor nonneg bounds.1 bounds.2 whole⟩

theorem Exact.required_le_iff {range : FieldRange} (exact : range.Exact field assetDecimals)
    (required : Int) :
    required ≤ range.order ↔
      (10 : Rat) ^ ((field.digits + assetDecimals : Nat) + required) ≤
        ((2 ^ field.bits - 1 : Nat) : Rat) := by
  have scale : (0 : Rat) < 10 ^ (field.digits + assetDecimals) := pow_pos (by norm_num) _
  rw [le_order_iff exact.order_le exact.lt_next_order, Field.unitsHeld, le_div_iff₀ scale,
    zpow_add₀ (by norm_num), zpow_natCast, mul_comm]

theorem power_le_largest (wide : field.bits ≠ 0) {exponent : Int} (low : exponent ≤ 0) :
    (10 : Rat) ^ exponent ≤ ((2 ^ field.bits - 1 : Nat) : Rat) := by
  have least : 1 ≤ 2 ^ field.bits - 1 := fieldMaximum_pos wide
  exact (zpow_le_one_of_nonpos₀ (by norm_num) low).trans (Nat.one_le_cast.mpr least)

/-- While its digits add up within a word, a field of any positive width passes the range
check exactly when its largest value reaches the power of ten that is asked for, which an
exponent of zero or below always grants.  The order and the whole units that the check
computes are exact, and where it refuses it names the exact order. -/
theorem range_check_is_exact (parameters : Parameters) {digits : Nat} (wide : field.bits ≠ 0)
    (fits : field.digits + assetDecimals < Checked.wordLimit) (few : digits ≤ 10 ^ 6) :
    ∃ grid range, (FixedPoint.Grid.ofDigits digits : Verdict _) = .ok grid ∧
      range.Exact field assetDecimals ∧
      (FieldRange.of field assetDecimals parameters grid = .ok range ↔
        (10 : Rat) ^ ((field.digits + assetDecimals : Nat) + parameters.minOrder) ≤
          ((2 ^ field.bits - 1 : Nat) : Rat)) ∧
      ((field.digits + assetDecimals : Nat) + parameters.minOrder ≤ 0 ->
        FieldRange.of field assetDecimals parameters grid = .ok range) ∧
      (((2 ^ field.bits - 1 : Nat) : Rat) <
          (10 : Rat) ^ ((field.digits + assetDecimals : Nat) + parameters.minOrder) ->
        FieldRange.of field assetDecimals parameters grid =
          .refuse (.range field.name range.order parameters.minOrder)) := by
  rcases FixedPoint.Grid.ofDigits_sound Rejection few with ⟨grid, built, sound⟩
  rcases of_eq_ite parameters sound wide fits with ⟨logarithm, found⟩
  have exact : (measured field assetDecimals logarithm).Exact field assetDecimals :=
    measured_exact wide logarithm
  have reaches := exact.required_le_iff parameters.minOrder
  have passes : FieldRange.of field assetDecimals parameters grid =
      .ok (measured field assetDecimals logarithm) ↔
        parameters.minOrder ≤ (measured field assetDecimals logarithm).order := by
    simp [found]
  refine ⟨grid, _, built, exact, passes.trans reaches, ?_, ?_⟩
  · intro low
    exact passes.mpr (reaches.mpr (power_le_largest wide low))
  · intro short
    have missed := Int.lt_of_not_ge (mt reaches.mp (not_le.mpr short))
    rw [found, if_pos missed]

/-- One byte that counts ten-thousandths. -/
def share : Field := { name := "share", bits := 8, precision := some 4 }

/-- One byte of ten-thousandths holds 255 of them: hundredths, but no tenths and no whole
unit. -/
theorem range_check_is_exact_share :
    ∃ grid range, (FixedPoint.Grid.ofDigits 60 : Verdict _) = .ok grid ∧
      FieldRange.of share 0 { minOrder := -2 } grid = .ok range ∧
      range.order = -2 ∧ range.maxUnits = 0 ∧
      FieldRange.of share 0 { minOrder := -1 } grid = .refuse (.range "share" (-2) (-1)) := by
  have wide : share.bits ≠ 0 := by decide
  have fits : share.digits + 0 < Checked.wordLimit := by decide
  have few : 60 ≤ 10 ^ 6 := by decide
  rcases range_check_is_exact { minOrder := -2 } wide fits few with
    ⟨grid, range, built, exact, passes, _, _⟩
  rcases range_check_is_exact { minOrder := -1 } wide fits few with
    ⟨same, other, also, exact', _, _, refuses⟩
  cases built.symm.trans also
  have order : ∀ measured : FieldRange, measured.Exact share 0 -> measured.order = -2 := by
    intro measured exact
    have hundredths := (exact.required_le_iff (-2)).mpr (by norm_num [share, Field.digits])
    have tenths : ¬ -1 ≤ measured.order := by
      rw [exact.required_le_iff (-1)]
      norm_num [share, Field.digits]
    omega
  have units : (range.maxUnits : Int) = 0 := by
    rw [exact.maxUnits_eq]
    norm_num [share, Field.unitsHeld, Field.digits]
  have refused := refuses (by norm_num [share, Field.digits])
  rw [order other exact'] at refused
  exact ⟨grid, range, built, passes.mpr (by norm_num [share, Field.digits]), order range exact,
    Int.ofNat_eq_zero.mp units, refused⟩

end FieldRange

end PackedLedger
