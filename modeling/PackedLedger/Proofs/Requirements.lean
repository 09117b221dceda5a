import Mathlib.Algebra.BigOperators.Group.List.Basic
import PackedLedger.Candidate
import PackedLedger.Proofs.Compounding
import PackedLedger.Proofs.EnvelopeStages
import PackedLedger.Proofs.Logarithm
import PackedLedger.Proofs.ReserveGrowth
import PackedLedger.Proofs.SlotFaults

namespace PackedLedger

/-!
# The requirement behind each stage

A stage computes a value with counts, logarithms, capped loops and closed forms,
and refuses when the value is out of bounds.  The lemmas here say which plain
arithmetic condition that comes to.  Each is an equivalence, and each says that
the stage has a value, so that a chain of stages has one exactly when all the
conditions hold.
-/

/-! ## Parameters -/

theorem Parameters.divisor_ne_zero {parameters : Parameters} (sound : parameters.check = .ok ())
    {divisor : String × Nat} (member : divisor ∈ parameters.divisors) : divisor.2 ≠ 0 := by
  unfold check fault? at sound
  cases found : parameters.divisors.find? fun divisor => divisor.2 == 0 with
  | some zero =>
      rw [found] at sound
      cases sound
  | none =>
      have passed := List.find?_eq_none.mp found divisor member
      intro zero
      exact passed (beq_iff_eq.mpr zero)

/-- Every parameter that something is divided by is not zero. -/
structure Parameters.Divides (parameters : Parameters) : Prop where
  year : parameters.secondsPerYear ≠ 0
  block : parameters.secondsPerBlock ≠ 0
  floor : parameters.apyFloor.denominator ≠ 0
  ceiling : parameters.apyCeiling.denominator ≠ 0
  reserve : parameters.reserveDivisor ≠ 0
  erosion : parameters.reserveErosionFactor ≠ 0

theorem Parameters.divides_of_check {parameters : Parameters}
    (sound : parameters.check = .ok ()) : parameters.Divides := by
  have all : ∀ divisor ∈ parameters.divisors, divisor.2 ≠ 0 :=
    fun divisor => divisor_ne_zero sound
  simp only [divisors, List.forall_mem_cons] at all
  rcases all with ⟨year, block, floor, ceiling, reserve, _, _, erosion, _⟩
  exact ⟨year, block, floor, ceiling, reserve, erosion⟩

theorem Parameters.enough_digits {parameters : Parameters} (sound : parameters.check = .ok ()) :
    20 ≤ parameters.mathDigits := by
  have faultless : parameters.fault? = none := by
    unfold check at sound
    cases found : parameters.fault? with
    | none => rfl
    | some fault =>
        rw [found] at sound
        cases sound
  grind [fault?]

theorem Parameters.blocksPerYear_eq_ok {parameters : Parameters} (divides : parameters.Divides) :
    parameters.blocksPerYear = .ok (parameters.secondsPerYear / parameters.secondsPerBlock) :=
  Checked.unlessZero_of_ne divides.block

def YieldSetting.exact (setting : YieldSetting) : Rat :=
  (setting.numerator : Rat) / setting.denominator

theorem YieldSetting.value_eq_ok {setting : YieldSetting} (divides : setting.denominator ≠ 0)
    {value : Rat} : setting.value = .ok value ↔ setting.exact = value := by
  unfold YieldSetting.value exact
  rw [Checked.fraction, Checked.unlessZero_eq_ok, Rat.divInt_eq_div, Int.cast_natCast,
    Int.cast_natCast]
  exact and_iff_right (Int.natCast_ne_zero.mpr divides)

/-! ## Slots -/

theorem Slot.checkFilled_eq_ok {slot : Slot}
    (fits : (slot.fields.map Field.bits).sum < Checked.wordLimit) :
    slot.checkFilled = .ok () ↔ slot.Filled :=
  checkFilled_eq_ok_iff.trans (and_iff_left fits)

theorem Allocation.checkFilled_eq_ok {allocation : Allocation}
    (fits : ∀ slot ∈ allocation.slots,
      (slot.fields.map Field.bits).sum < Checked.wordLimit) :
    allocation.checkFilled = .ok () ↔ ∀ slot ∈ allocation.slots, slot.Filled := by
  rw [checkFilled, Attempt.forM_eq_ok]
  exact forall₂_congr fun slot member => Slot.checkFilled_eq_ok (fits slot member)

theorem Allocation.bits_ne_zero {allocation : Allocation}
    (filled : ∀ slot ∈ allocation.slots, slot.Filled) {field : Field}
    (member : field ∈ allocation.fields) : field.bits ≠ 0 := by
  rcases List.mem_flatMap.mp member with ⟨slot, inside, packed⟩
  exact (filled slot inside).1 field packed

theorem Allocation.mem_of_withRole {allocation : Allocation} {role : Role} {field : Field}
    (member : field ∈ allocation.withRole role) :
    field ∈ allocation.fields ∧ field.role = role := by
  rcases List.mem_filter.mp member with ⟨packed, same⟩
  exact ⟨packed, beq_iff_eq.mp same⟩

/-! ## Horizon -/

def Horizon.left (bits now secondsPerYear : Nat) : Horizon :=
  ⟨fieldMaximum bits - now, Rat.divInt (fieldMaximum bits - now : Nat) secondsPerYear⟩

theorem Horizon.ofBits_eq_ok {bits now : Nat} {parameters : Parameters} {horizon : Horizon}
    (sound : parameters.check = .ok ()) :
    ofBits bits now parameters = .ok horizon ↔
      now < fieldMaximum bits ∧
        parameters.minHorizonYears * parameters.secondsPerYear ≤ fieldMaximum bits - now ∧
        left bits now parameters.secondsPerYear = horizon := by
  have year := (Parameters.divides_of_check sound).year
  have someYear : (0 : Rat) < parameters.secondsPerYear :=
    Nat.cast_pos.mpr (Nat.pos_of_ne_zero year)
  simp only [ofBits, sound, Attempt.ok_bind, Attempt.ite_refuse_eq_ok, Nat.not_le]
  apply and_congr_right
  intro lasting
  simp only [Checked.difference_of_le (Nat.le_of_lt lasting), Checked.fraction,
    Checked.unlessZero_of_ne (Int.natCast_ne_zero.mpr year), Attempt.ok_bind,
    Attempt.ite_refuse_eq_ok, Rat.not_lt, Attempt.pure_eq_ok]
  apply and_congr_left
  intro _
  rw [Rat.divInt_eq_div, Int.cast_natCast, Int.cast_natCast, le_div_iff₀ someYear]
  exact_mod_cast Iff.rfl

theorem Horizon.left_years_pos {bits now secondsPerYear : Nat} (lasting : now < fieldMaximum bits)
    (year : secondsPerYear ≠ 0) : 0 < (left bits now secondsPerYear).years := by
  simp only [left]
  rw [Rat.divInt_eq_div, Int.cast_natCast, Int.cast_natCast]
  exact div_pos (Nat.cast_pos.mpr (Nat.sub_pos_of_lt lasting))
    (Nat.cast_pos.mpr (Nat.pos_of_ne_zero year))

/-! ## Ranges -/

/-- The largest value of a field reaches the required order of magnitude in
whole asset units.  A requirement below one step of the field is no condition. -/
def FieldRange.Reaches (field : Field) (assetDecimals : Nat) (order : Int) : Prop :=
  ∀ exponent : Nat, (exponent : Int) = field.digits + assetDecimals + order ->
    10 ^ exponent ≤ 2 ^ field.bits - 1

/-- The range of a field, with whatever logarithm is shown for it. -/
def FieldRange.measured (field : Field) (assetDecimals : Nat) (logarithm : Rat) : FieldRange where
  field := field.name
  role := field.role
  maxUnits := fieldMaximum field.bits / powerOfTen (field.digits + assetDecimals)
  order := orderOfMagnitude (fieldMaximum field.bits) (field.digits + assetDecimals)
  log10 := logarithm

/-- While its digits add up within a word, a field has a range, and only the order of
magnitude speaks against it. -/
theorem FieldRange.of_eq_ite {field : Field} {assetDecimals : Nat} (parameters : Parameters)
    {grid : FixedPoint.Grid} (sound : grid.Sound) (wide : field.bits ≠ 0)
    (fits : field.digits + assetDecimals < Checked.wordLimit) :
    ∃ logarithm, FieldRange.of field assetDecimals parameters grid =
      if (measured field assetDecimals logarithm).order < parameters.minOrder then
        .refuse (.range field.name (measured field assetDecimals logarithm).order
          parameters.minOrder)
      else .ok (measured field assetDecimals logarithm) := by
  have value : (0 : Rat) <
      mkRat (fieldMaximum field.bits) (powerOfTen (field.digits + assetDecimals)) := by
    rw [Rat.mkRat_eq_div, Int.cast_natCast]
    exact div_pos (Nat.cast_pos.mpr (fieldMaximum_pos wide)) (Nat.cast_pos.mpr (powerOfTen_pos _))
  rcases FixedPoint.Grid.log10_total sound value with ⟨logarithm, found⟩
  refine ⟨logarithm, ?_⟩
  simp only [FieldRange.of, Checked.wordSum_of_lt fits, found, Attempt.ok_bind]
  rfl

theorem FieldRange.exists_of_iff {field : Field} {assetDecimals : Nat} {parameters : Parameters}
    {grid : FixedPoint.Grid} (sound : grid.Sound) (wide : field.bits ≠ 0)
    (fits : field.digits + assetDecimals < Checked.wordLimit) :
    (∃ range, FieldRange.of field assetDecimals parameters grid = .ok range) ↔
      Reaches field assetDecimals parameters.minOrder := by
  rcases of_eq_ite parameters sound wide fits with ⟨logarithm, found⟩
  have order : parameters.minOrder ≤ (measured field assetDecimals logarithm).order ↔ _ :=
    le_orderOfMagnitude_iff (fieldMaximum_pos wide)
  rw [found]
  simp only [Attempt.ite_refuse_eq_ok, Int.not_lt, exists_and_left]
  rw [order]
  simp only [Reaches, powerOfTen_eq, fieldMaximum, powerOfTwo_eq, Int.natCast_add]
  exact and_iff_left ⟨_, rfl⟩

/-! ## The smallest yield -/

namespace Scaling

/-- The yield of so many single accruals from the initial index. -/
def yieldAfter (scaling : Scaling) (steps : Nat) : Rat :=
  ((scaling.iterate steps scaling.initialIndex : Rat) - scaling.initialIndex) /
    scaling.initialIndex

theorem yieldAfter_mono (scaling : Scaling) {fewer more : Nat} (ordered : fewer ≤ more) :
    scaling.yieldAfter fewer ≤ scaling.yieldAfter more := by
  unfold yieldAfter
  apply div_le_div_of_nonneg_right _ (Nat.cast_nonneg _)
  apply sub_le_sub_right
  exact Nat.cast_le.mpr (scaling.iterate_le_iterate ordered _)

theorem ceilingIndex_le_iff {initial index : Nat} (someInitial : 0 < initial)
    (above : initial ≤ index) (ceiling : Rat) :
    ceilingIndex initial ceiling ≤ index ↔ ceiling ≤ ((index : Rat) - initial) / initial := by
  have positive : (0 : Rat) < initial := Nat.cast_pos.mpr someInitial
  have gain : ((index - initial : Nat) : Rat) = (index : Rat) - initial := Nat.cast_sub above
  rw [ceilingIndex, le_div_iff₀ positive, ← gain, mul_comm ceiling, ← Nat.le_sub_iff_add_le' above,
    Int.toNat_le, Rat.ceil_le_iff, Int.cast_natCast]

/-- A number of steps comes up to the limit exactly when its yield comes up to the
ceiling. -/
theorem reached_ceilingIndex_iff {scaling : Scaling} (someInitial : 0 < scaling.initialIndex)
    (steps : Nat) (ceiling : Rat) :
    Reached (some (ceilingIndex scaling.initialIndex ceiling))
        (scaling.iterate steps scaling.initialIndex) ↔ ceiling ≤ scaling.yieldAfter steps := by
  have above := scaling.le_iterate steps scaling.initialIndex
  rw [yieldAfter, ← ceilingIndex_le_iff someInitial above ceiling]
  constructor
  · intro reached
    rcases reached with ⟨bound, same, reached⟩
    cases same
    exact reached
  · intro enough
    exact ⟨_, rfl, enough⟩

end Scaling

/-- The capped loop has a yield: that of the single accruals up to where it stops. -/
theorem smallestYield_spec {scaling : Scaling} (someInitial : 0 < scaling.initialIndex)
    (blocks : Nat) (ceiling : Rat) :
    ∃ taken, Scaling.StopsAfter scaling (some (ceilingIndex scaling.initialIndex ceiling))
        scaling.initialIndex blocks taken ∧
      smallestYield scaling blocks ceiling = .ok (scaling.yieldAfter taken) := by
  rcases Scaling.compoundUntil_spec Rejection scaling
      (some (ceilingIndex scaling.initialIndex ceiling)) scaling.initialIndex blocks with
    ⟨taken, stops, value⟩
  have above := scaling.le_iterate taken scaling.initialIndex
  refine ⟨taken, stops, ?_⟩
  simp [smallestYield, value, above, Nat.ne_of_gt someInitial, Rat.divInt_eq_div,
    Scaling.yieldAfter]

/-- The capped loop finds a yield below the ceiling exactly when the whole year
of single accruals has one.  It stops early only at a yield that is too large,
and no later one is smaller. -/
theorem smallestYield_lt_iff {scaling : Scaling} (someInitial : 0 < scaling.initialIndex)
    (blocks : Nat) (ceiling : Rat) :
    (∃ yield, smallestYield scaling blocks ceiling = .ok yield ∧ yield < ceiling) ↔
      scaling.yieldAfter blocks < ceiling := by
  rcases smallestYield_spec someInitial blocks ceiling with ⟨taken, stops, found⟩
  have same : scaling.yieldAfter taken < ceiling ↔ scaling.yieldAfter blocks < ceiling := by
    rcases stops.exhausted_or_reached with all | reached
    · rw [all]
    · have enough := (Scaling.reached_ceilingIndex_iff someInitial taken ceiling).mp reached
      constructor
      · intro less
        exact absurd less (not_lt.mpr enough)
      · intro less
        exact lt_of_le_of_lt (scaling.yieldAfter_mono stops.le_steps) less
  rw [← same]
  constructor
  · intro below
    rcases below with ⟨yield, also, less⟩
    rw [found] at also
    cases also
    exact less
  · intro less
    exact ⟨_, found, less⟩

theorem powerOfTen_div_pos {digits accrual : Nat} :
    0 < powerOfTen digits / powerOfTen accrual ↔ accrual ≤ digits := by
  simp [Nat.div_pos_iff, Nat.pow_le_pow_iff_right]

/-! ## Reserves -/

namespace Reserve

variable {parameters : Parameters} {assetDecimals : Nat}

def inventoryOf (assetDecimals : Nat) (parameters : Parameters) : Nat :=
  10 ^ assetDecimals * parameters.reserveInventoryUnits

/-- The supply minted against the inventory at the precision of the field, and no more
than the field holds. -/
def fullSupply (supply : Field) (assetDecimals : Nat) (parameters : Parameters) : Nat :=
  mintedSupply supply (inventoryOf assetDecimals parameters)

def erodedSupply (supply : Field) (assetDecimals : Nat) (parameters : Parameters) : Nat :=
  fullSupply supply assetDecimals parameters / parameters.reserveErosionFactor

/-- Both scenarios of a total supply start to grow in time. -/
structure StartsInTime (supply : Field) (assetDecimals : Nat) (parameters : Parameters) : Prop where
  full : (Timely (fullSupply supply assetDecimals parameters)
    (inventoryOf assetDecimals parameters) (10 ^ assetDecimals) parameters).Nonempty
  eroded : (Timely (erodedSupply supply assetDecimals parameters)
    (inventoryOf assetDecimals parameters) (10 ^ assetDecimals) parameters).Nonempty

theorem check_eq_scenarios {supply : Field} (erodes : 0 < parameters.reserveErosionFactor) :
    check supply assetDecimals parameters =
      (checkScenario .full (fullSupply supply assetDecimals parameters)
          (inventoryOf assetDecimals parameters) (10 ^ assetDecimals) parameters >>= fun full =>
        checkScenario .eroded (erodedSupply supply assetDecimals parameters)
          (inventoryOf assetDecimals parameters) (10 ^ assetDecimals) parameters >>= fun eroded =>
          pure ⟨parameters.reserveDivisor, full, eroded⟩) := by
  simp [check, fullSupply, erodedSupply, inventoryOf, Nat.ne_of_gt erodes]

theorem exists_check_iff {supply : Field} (divides : parameters.Divides) :
    (∃ growth, check supply assetDecimals parameters = .ok growth) ↔
      StartsInTime supply assetDecimals parameters := by
  have positive := Nat.pos_of_ne_zero divides.reserve
  rw [check_eq_scenarios (Nat.pos_of_ne_zero divides.erosion)]
  constructor
  · intro passed
    rcases passed with ⟨growth, found⟩
    rcases Attempt.bind_eq_ok.mp found with ⟨full, foundFull, rest⟩
    rcases Attempt.bind_eq_ok.mp rest with ⟨eroded, foundEroded, _⟩
    exact ⟨(exists_checkScenario_iff positive).mp ⟨full, foundFull⟩,
      (exists_checkScenario_iff positive).mp ⟨eroded, foundEroded⟩⟩
  · intro starts
    rcases (exists_checkScenario_iff positive).mpr starts.full with ⟨full, foundFull⟩
    rcases (exists_checkScenario_iff positive).mpr starts.eroded with ⟨eroded, foundEroded⟩
    exact ⟨_, Attempt.bind_eq_ok.mpr ⟨full, foundFull,
      Attempt.bind_eq_ok.mpr ⟨eroded, foundEroded, rfl⟩⟩⟩

end Reserve

/-- Reserves are no obstacle exactly when there is at most one total supply and
it starts to grow in time. -/
theorem Candidate.exists_reserveGrowth_iff {allocation : Allocation} {assetDecimals : Nat}
    {parameters : Parameters} (divides : parameters.Divides) :
    (∃ growth, reserveGrowth allocation assetDecimals parameters = .ok growth) ↔
      (allocation.withRole .totalSupply).length ≤ 1 ∧
        ∀ supply ∈ allocation.withRole .totalSupply,
          Reserve.StartsInTime supply assetDecimals parameters := by
  unfold reserveGrowth
  constructor
  · intro passed
    rcases passed with ⟨growth, found⟩
    rcases Attempt.bind_eq_ok.mp found with ⟨holder, lookup, rest⟩
    rw [Allocation.findRole_eq_ok.mp lookup]
    cases holder with
    | none => exact ⟨Nat.zero_le 1, fun supply impossible => absurd impossible List.not_mem_nil⟩
    | some supply =>
        rcases Attempt.bind_eq_ok.mp rest with ⟨growth, checked, _⟩
        refine ⟨Nat.le_refl 1, ?_⟩
        intro other member
        rw [List.mem_singleton.mp member]
        exact (Reserve.exists_check_iff divides).mp ⟨growth, checked⟩
  · intro possible
    rcases possible with ⟨single, starts⟩
    cases holders : allocation.withRole .totalSupply with
    | nil =>
        have lookup : allocation.findRole .totalSupply = .ok none :=
          Allocation.findRole_eq_ok.mpr holders
        exact ⟨none, by simp [lookup]⟩
    | cons supply others =>
        rw [holders, List.length_cons] at single
        have noneLeft : others = [] := List.length_eq_zero_iff.mp (by omega)
        rw [noneLeft] at holders
        have lookup : allocation.findRole .totalSupply = .ok (some supply) :=
          Allocation.findRole_eq_ok.mpr holders
        have held : supply ∈ allocation.withRole .totalSupply := by
          rw [holders]
          exact List.mem_singleton_self supply
        rcases (Reserve.exists_check_iff divides).mpr (starts supply held) with
          ⟨growth, checked⟩
        exact ⟨some growth, by simp [lookup, checked]⟩

end PackedLedger
