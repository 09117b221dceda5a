import PackedLedger.Allocation.Basic
import PackedLedger.Allocation.Lookup
import PackedLedger.Number.Digits
import PackedLedger.Number.FixedPoint
import PackedLedger.Parameters
import PackedLedger.Scaling

namespace PackedLedger

/-!
# The numeric envelope of a candidate

What an allocation can express for one asset: how long its timestamp lasts, how
large its fields grow, and which yields its index can follow.

## The lifetime of a timestamp field

A timestamp of so many bits runs out at the largest second it can hold.  The
horizon is the time left until then, seen from a reference time, and a ledger
needs a horizon of some years.
-/

/-- The time left before the timestamp field runs out. -/
structure Horizon where
  seconds : Nat
  years : Rat
  deriving Repr, DecidableEq

namespace Horizon

/-- The horizon of a timestamp of `bits` bits, seen from `now`. -/
def ofBits (bits now : Nat) (parameters : Parameters) : Verdict Horizon := do
  parameters.check
  let last := fieldMaximum bits
  if last ≤ now then
    .refuse (.timestampExpired parameters.minHorizonYears)
  else
    let seconds ← Checked.difference last now
    let years ← Checked.fraction seconds parameters.secondsPerYear
    if years < parameters.minHorizonYears then
      .refuse (.horizonTooShort years parameters.minHorizonYears)
    else return ⟨seconds, years⟩

/-- The horizon of the timestamp field of an allocation. -/
def ofAllocation (allocation : Allocation) (now : Nat) (parameters : Parameters) :
    Verdict Horizon := do
  let timestamp ← allocation.requireRole .timestamp
  ofBits timestamp.bits now parameters

end Horizon

/-!
## The magnitude a field can hold

A field counts steps of ten to the minus its precision and the asset's
decimals.  What it can hold is judged by its order of magnitude in whole asset
units, which is found exactly; the logarithm is for display.
-/

/-- The largest value of a range-checked field. -/
structure FieldRange where
  field : String
  role : Role
  /-- Whole asset units. -/
  maxUnits : Nat
  /-- The order of magnitude in asset units. -/
  order : Int
  /-- The decimal logarithm in asset units. -/
  log10 : Rat
  deriving Repr, DecidableEq

/-- The range of a field for an asset, refused when it misses the required
order of magnitude. -/
def FieldRange.of (field : Field) (assetDecimals : Nat) (parameters : Parameters)
    (grid : FixedPoint.Grid) : Verdict FieldRange := do
  let shift ← Checked.wordSum field.digits assetDecimals
  let largest := fieldMaximum field.bits
  let order := orderOfMagnitude largest shift
  let log10 ← grid.log10 (mkRat largest (powerOfTen shift))
  if order < parameters.minOrder then
    .refuse (.range field.name order parameters.minOrder)
  else
    return {
      field := field.name, role := field.role, maxUnits := largest / powerOfTen shift
      order, log10 }

/-!
## The yields an index can express

The largest yield uses the whole index range up over the horizon, compounded
continuously.  The smallest one is what a year of smallest accruals adds to the
initial index, where every accrual rounds down.
-/

/-- The largest yield, as a rate and compounded over a year. -/
structure LargestYield where
  apr : Rat
  apy : Rat
  deriving Repr, DecidableEq

/-- The yield that takes the index from its start to its end over the horizon. -/
def largestYield (scaling : Scaling) (horizon : Horizon) (grid : FixedPoint.Grid) :
    Verdict LargestYield := do
  let growth ← Checked.fraction scaling.largestIndex scaling.initialIndex
  let logarithm ← grid.ln growth
  let rate ← Checked.truncatedQuotient (logarithm * horizon.years.den) horizon.years.num
  let factor ← grid.exp rate
  return { apr := grid.value rate, apy := grid.value (factor - grid.scale) }

/-- The first index whose yield is at least `ceiling`. -/
def ceilingIndex (initialIndex : Nat) (ceiling : Rat) : Nat :=
  initialIndex + ((initialIndex : Rat) * ceiling).ceil.toNat

/-- The yield of `blocks` smallest accruals from the initial index.  It stops
at the first yield that comes up to `ceiling`. -/
def smallestYield (scaling : Scaling) (blocks : Nat) (ceiling : Rat) : Verdict Rat := do
  let limit := ceilingIndex scaling.initialIndex ceiling
  let last ← scaling.compoundUntil (some limit) scaling.initialIndex blocks
  let gain ← Checked.difference last scaling.initialIndex
  Checked.fraction gain scaling.initialIndex

/-!
## All requirements in their order

The requirements are checked in a fixed order: ranges, the largest yield, the smallest index step,
the smallest interest, the smallest yield.  The first requirement missed is the
answer.
-/

structure Envelope where
  horizon : Horizon
  scaling : Scaling
  /-- The range of total borrows. -/
  totalRange : FieldRange
  /-- The ranges of the supply side, in slot order. -/
  supplyRanges : List FieldRange
  largest : LargestYield
  apyMin : Rat
  /-- What a smallest accrual adds to total borrows of one asset step. -/
  leastInterest : Nat
  /-- The index one smallest accrual above the start. -/
  secondIndex : Nat
  /-- The index one smallest accrual below the end. -/
  penultimateIndex : Nat
  deriving Repr

namespace Envelope

/-- All ranges, total borrows first. -/
def ranges (envelope : Envelope) : List FieldRange :=
  envelope.totalRange :: envelope.supplyRanges

/-- The fields other than total borrows that have to hold the magnitude. -/
def supplyFields (allocation : Allocation) : List Field :=
  allocation.fields.filter fun field =>
    field.role.isRangeChecked && field.role != .totalBorrows

/-- Refuse a largest yield that does not exceed the floor. -/
def checkFloor (indexField : String) (apy floor : Rat) : Verdict Unit :=
  if apy ≤ floor then .refuse (.rateCeiling indexField apy floor) else .ok ()

/-- The second index, refused when it is the first one. -/
def secondIndexOf (indexField : String) (scaling : Scaling) : Verdict Nat :=
  let second := scaling.grow scaling.initialIndex
  if second ≤ scaling.initialIndex then
    .refuse (.quantization indexField (.initialIndex scaling.initialIndex))
  else .ok second

/-- The smallest interest on one asset step of borrows, refused when it is
nothing. -/
def leastInterestOf (total : Field) (scaling : Scaling) : Verdict Nat :=
  let interest := powerOfTen total.digits / scaling.accrualScaler
  if interest = 0 then .refuse (.quantization total.name .interest) else .ok interest

/-- Refuse a smallest yield that is not below the ceiling. -/
def checkCeiling (indexField : String) (apy ceiling : Rat) : Verdict Unit :=
  if ceiling ≤ apy then .refuse (.rateFloor indexField apy ceiling) else .ok ()

/-- The envelope of an allocation for an asset with so many decimals. -/
def ofAllocation (allocation : Allocation) (assetDecimals : Nat) (parameters : Parameters)
    (horizon : Horizon) : Verdict Envelope := do
  parameters.check
  if parameters.maxAssetDecimals < assetDecimals then
    .refuse (.assetDecimals assetDecimals parameters.maxAssetDecimals)
  else
    let grid ← FixedPoint.Grid.ofDigits parameters.mathDigits
    let index ← allocation.requireRole .borrowIndex
    let total ← allocation.requireRole .totalBorrows
    let scaling ← Scaling.ofAllocation allocation
    let totalRange ← FieldRange.of total assetDecimals parameters grid
    let supplyRanges ←
      (supplyFields allocation).mapM fun field => FieldRange.of field assetDecimals parameters grid
    let largest ← largestYield scaling horizon grid
    let floor ← parameters.apyFloor.value
    checkFloor index.name largest.apy floor
    let secondIndex ← secondIndexOf index.name scaling
    let leastInterest ← leastInterestOf total scaling
    let ceiling ← parameters.apyCeiling.value
    let blocks ← parameters.blocksPerYear
    let apyMin ← smallestYield scaling blocks ceiling
    checkCeiling index.name apyMin ceiling
    return {
      horizon, scaling, totalRange, supplyRanges, largest, apyMin, leastInterest, secondIndex
      penultimateIndex := scaling.shrink scaling.largestIndex }

end Envelope

end PackedLedger
