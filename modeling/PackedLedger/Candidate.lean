import PackedLedger.Allocation.Lookup
import PackedLedger.Envelope
import PackedLedger.Json
import PackedLedger.Reserve
import PackedLedger.Sweep

namespace PackedLedger

/-!
# Checking one candidate

A candidate is an allocation together with the decimals of an asset.  Checking
it ends in a report or in the first requirement that it misses.

## The report

A report restates the envelope in the units its readers use: yields in percent
and magnitudes in whole asset units.  It can be read as a list of named metrics
or as a JSON object, where exact values have twelve decimal places.
-/

structure Report where
  /-- The name of the checked allocation. -/
  layout : String
  assetDecimals : Nat
  horizonYears : Rat
  /-- The smallest yield in percent. -/
  minApy : Rat
  /-- The largest yield in percent. -/
  maxApy : Rat
  /-- The largest rate in percent. -/
  maxApr : Rat
  totalRange : FieldRange
  supplyRanges : List FieldRange
  leastInterest : Nat
  initialIndex : Nat
  /-- The scaler constant, rounded down. -/
  borrowsScaler : Nat
  monotonicity : Sweep.Summary
  /-- Reserve growth, when there is a total supply. -/
  reserveGrowth : Option Reserve.Growth
  deriving Repr, DecidableEq

namespace Report

def ofEnvelope (layout : String) (assetDecimals : Nat) (envelope : Envelope)
    (monotonicity : Sweep.Summary) (reserveGrowth : Option Reserve.Growth) : Report where
  layout := layout
  assetDecimals := assetDecimals
  horizonYears := envelope.horizon.years
  minApy := percent envelope.apyMin
  maxApy := percent envelope.largest.apy
  maxApr := percent envelope.largest.apr
  totalRange := envelope.totalRange
  supplyRanges := envelope.supplyRanges
  leastInterest := envelope.leastInterest
  initialIndex := envelope.scaling.initialIndex
  borrowsScaler := envelope.scaling.borrowsScalerFloor
  monotonicity := monotonicity
  reserveGrowth := reserveGrowth

/-- The maxima of the range-checked fields, total borrows first. -/
def maxima (report : Report) : List FieldRange :=
  report.totalRange :: report.supplyRanges

/-- The metric of one field's maximum. -/
private def maximumMetric (range : FieldRange) : String × String :=
  (s!"max {range.field}", s!"{range.maxUnits} units (10^{fixedText 1 range.log10})")

/-- The metric of the reserve's growth. -/
private def growthMetric (growth : Reserve.Growth) : String × String :=
  ("reserve growth at", s!"{growth.full} / {growth.eroded} raw units")

/-- Names and values in the order they are shown. -/
def metrics (report : Report) : List (String × String) :=
  [("layout", report.layout),
   ("min APY", s!"{fixedText 6 report.minApy}%"),
   ("max APY", s!"{fixedText 2 report.maxApy}%")] ++
  report.maxima.map maximumMetric ++
  [("min accruedInterest", toString report.leastInterest),
   ("init borrowIndex", toString report.initialIndex),
   ("borrows scaler", toString report.borrowsScaler),
   ("horizon", s!"{fixedText 2 report.horizonYears} years"),
   ("monotonic samples",
     s!"{report.monotonicity.samples} (seed {report.monotonicity.seed})")] ++
  (report.reserveGrowth.map growthMetric).toList

/-- An exact value with twelve decimal places. -/
private def exactJson (value : Rat) : Json :=
  .text (fixedText 12 value)

private def naturalJson (value : Nat) : Json :=
  .text (toString value)

private def maximumJson (range : FieldRange) : Json :=
  .object
    [("field", .text range.field),
     ("role", .text range.role.label),
     ("max_units", naturalJson range.maxUnits),
     ("oom", .integer range.order),
     ("log10", exactJson range.log10)]

private def summaryJson (summary : Sweep.Summary) : Json :=
  .object
    [("samples", .integer summary.samples),
     ("seed", .integer summary.seed),
     ("domain_low", naturalJson summary.low),
     ("domain_high", naturalJson summary.high)]

private def growthJson (growth : Reserve.Growth) : Json :=
  .object
    [("reserve_divisor", .integer growth.divisor),
     ("full_precision", naturalJson growth.full),
     ("eroded_precision", naturalJson growth.eroded)]

def toJson (report : Report) : Json :=
  .object <|
    [("layout", .text report.layout),
     ("asset_decimals", .integer report.assetDecimals),
     ("horizon_years", exactJson report.horizonYears),
     ("min_apy", exactJson report.minApy),
     ("max_apy", exactJson report.maxApy),
     ("max_apr", exactJson report.maxApr),
     ("max_total_borrows_units", naturalJson report.totalRange.maxUnits),
     ("field_maxima", .array (report.maxima.map maximumJson)),
     ("min_accrued_interest", naturalJson report.leastInterest),
     ("init_borrow_index", naturalJson report.initialIndex),
     ("borrows_scaler", naturalJson report.borrowsScaler),
     ("monotonicity", summaryJson report.monotonicity)] ++
    (report.reserveGrowth.map fun growth => ("reserve_growth", growthJson growth)).toList

end Report

/-!
## The check

The stages run in a fixed order and the first requirement missed is the answer;
there is no partial report.
-/

namespace Candidate

/-- Reserve growth of an allocation that has a total supply. -/
def reserveGrowth (allocation : Allocation) (assetDecimals : Nat) (parameters : Parameters) :
    Verdict (Option Reserve.Growth) := do
  match ← allocation.findRole .totalSupply with
  | none => return none
  | some supply => return some (← Reserve.check supply assetDecimals parameters)

/-- Run every stage on an allocation for an asset. -/
def check (allocation : Allocation) (assetDecimals : Nat) (parameters : Parameters)
    (now : Nat) : Verdict Report := do
  parameters.check
  allocation.checkFilled
  let horizon ← Horizon.ofAllocation allocation now parameters
  let envelope ← Envelope.ofAllocation allocation assetDecimals parameters horizon
  let sweep ← Sweep.ofAllocation allocation envelope
  let monotonicity ← (sweep.run parameters.samples parameters.seed).result
  let growth ← reserveGrowth allocation assetDecimals parameters
  return .ofEnvelope allocation.name assetDecimals envelope monotonicity growth

end Candidate

end PackedLedger
