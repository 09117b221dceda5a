import PackedLedger.Attempt
import PackedLedger.Number.Digits
import PackedLedger.Rejection

namespace PackedLedger

/-!
# Protocol constants and settings of a check

Yields are kept as a numerator over a denominator, so that a setting never
passes through binary fractions.  Constants with which no candidate could be
checked are refused before any check runs.
-/

/-- A yield as it is written in a setting. -/
structure YieldSetting where
  numerator : Nat
  denominator : Nat
  deriving Repr, DecidableEq

namespace YieldSetting

/-- The largest component a yield may have. -/
def componentLimit : Nat := fieldMaximum 63

def value (setting : YieldSetting) : Verdict Rat :=
  Checked.fraction setting.numerator setting.denominator

/-- Both components are small enough to be divided. -/
def Fits (setting : YieldSetting) : Prop :=
  setting.numerator ≤ componentLimit ∧ setting.denominator ≤ componentLimit

instance (setting : YieldSetting) : Decidable setting.Fits :=
  inferInstanceAs (Decidable (_ ∧ _))

end YieldSetting

structure Parameters where
  secondsPerYear : Nat := 365 * 24 * 60 * 60
  /-- The expected time between accruals. -/
  secondsPerBlock : Nat := 13
  /-- The least lifetime of the timestamp field. -/
  minHorizonYears : Nat := 10
  /-- The order of magnitude that range-checked fields have to hold, in asset
  units. -/
  minOrder : Int := 12
  /-- The index has to express more than this yield. -/
  apyFloor : YieldSetting := ⟨25, 100⟩
  /-- The index has to express less than this yield. -/
  apyCeiling : YieldSetting := ⟨5, 10000⟩
  /-- One part in this many of the interest is minted to reserves. -/
  reserveDivisor : Nat := 8
  /-- Reserve growth has to start below one asset unit over this. -/
  reserveGrowthLimit : Nat := 1000
  /-- The inventory of the reserve scenarios, in whole asset units. -/
  reserveInventoryUnits : Nat := 1000000
  /-- The factor by which the eroded scenario reduces the supply. -/
  reserveErosionFactor : Nat := 10
  maxAssetDecimals : Nat := 18
  /-- The number of indices that a sweep draws. -/
  samples : Nat := 100000
  seed : Nat := 0
  /-- Working digits of logarithms and exponentials. -/
  mathDigits : Nat := 60
  deriving Repr, DecidableEq

namespace Parameters

/-- The number of whole blocks in a year. -/
def blocksPerYear (parameters : Parameters) : Verdict Nat :=
  Checked.quotient parameters.secondsPerYear parameters.secondsPerBlock

/-- The parameters that have to be positive, under the names they are reported
by. -/
def divisors (parameters : Parameters) : List (String × Nat) :=
  [("seconds_per_year", parameters.secondsPerYear),
   ("seconds_per_block", parameters.secondsPerBlock),
   ("apy_floor denominator", parameters.apyFloor.denominator),
   ("apy_ceiling denominator", parameters.apyCeiling.denominator),
   ("reserve_divisor", parameters.reserveDivisor),
   ("reserve_growth_limit", parameters.reserveGrowthLimit),
   ("reserve_inventory_units", parameters.reserveInventoryUnits),
   ("reserve_erosion_factor", parameters.reserveErosionFactor)]

/-- The first fault that makes every check meaningless. -/
def fault? (parameters : Parameters) : Option ParameterFault :=
  match parameters.divisors.find? fun divisor => divisor.2 == 0 with
  | some (name, _) => some (.zero name)
  | none =>
    if parameters.secondsPerYear < parameters.secondsPerBlock then
      some .blockLongerThanYear
    else if ¬ (parameters.apyFloor.Fits ∧ parameters.apyCeiling.Fits) then
      some .yieldTooLarge
    else if parameters.mathDigits < 20 then
      some (.tooFewDigits parameters.mathDigits)
    else none

/-- Refuse constants no candidate could be checked against. -/
def check (parameters : Parameters) : Verdict Unit :=
  match parameters.fault? with
  | some fault => .refuse (.invalidParameter fault)
  | none => .ok ()

theorem fault?_default : ({} : Parameters).fault? = none := by
  decide

end Parameters

end PackedLedger
