import PackedLedger.Allocation.Basic
import PackedLedger.Attempt
import PackedLedger.Number.Digits

namespace PackedLedger

/-!
# Reasons to turn a design down

A rejection is a verdict on the design and never a passing fault, so each one
names the requirement it misses, the field to blame where there is one, and a
change to the design that would clear it.  The constructors hold the values
the verdict was reached on; the wording is all in `message` and `remediation`.
-/

/-- The class of requirement that was missed. -/
inductive Requirement where
  /-- Slots are filled exactly. -/
  | layout
  /-- Fields hold the required magnitude. -/
  | range
  /-- The index reaches the largest required yield. -/
  | rateCeiling
  /-- The index resolves the smallest required yield. -/
  | rateFloor
  /-- Neighbouring index states stay apart under rounding. -/
  | quantization
  /-- Reserve mints grow the supply in time. -/
  | reserveStall
  /-- The inputs can be used at all. -/
  | config
  deriving Repr, DecidableEq

namespace Requirement

/-- The name in structured reports. -/
def label : Requirement -> String
  | layout => "layout"
  | range => "range"
  | rateCeiling => "rate_ceiling"
  | rateFloor => "rate_floor"
  | quantization => "quantization"
  | reserveStall => "reserve_stall"
  | config => "config"

/-- The name in printed reports. -/
def title : Requirement -> String
  | layout => "Layout"
  | range => "Range"
  | rateCeiling => "RateCeiling"
  | rateFloor => "RateFloor"
  | quantization => "Quantization"
  | reserveStall => "ReserveStall"
  | config => "Config"

end Requirement

/-- What is wrong with a parameter of the checks. -/
inductive ParameterFault where
  | zero (parameter : String)
  | blockLongerThanYear
  | yieldTooLarge
  | tooFewDigits (digits : Nat)
  | logarithmOf (value : Rat)
  deriving Repr, DecidableEq

namespace ParameterFault

/-- The parameter to mend. -/
def parameter : ParameterFault -> String
  | zero parameter => parameter
  | blockLongerThanYear => "seconds_per_block"
  | yieldTooLarge => "apy bounds"
  | tooFewDigits _ => "math_digits"
  | logarithmOf _ => "ln argument"

def reason : ParameterFault -> String
  | zero _ => "must be non-zero"
  | blockLongerThanYear => "longer than a year"
  | yieldTooLarge => "components must fit in i64"
  | tooFewDigits digits => s!"{digits} is too coarse, use at least 20"
  | logarithmOf value => s!"{exactText value} is not positive"

end ParameterFault

/-- Where an index under test came from. -/
inductive Origin where
  | lowerBoundary
  | upperBoundary
  | sample (ordinal seed : Nat)
  deriving Repr, DecidableEq

def Origin.text : Origin -> String
  | lowerBoundary => "lower boundary"
  | upperBoundary => "upper boundary"
  | sample ordinal seed => s!"sample #{ordinal} (seed {seed})"

/-- How an index step is lost to rounding. -/
inductive LostStep where
  /-- The initial index does not move under the smallest growth factor. -/
  | initialIndex (index : Nat)
  /-- The smallest growth factor adds no interest to the total. -/
  | interest
  /-- A tested index has no larger successor. -/
  | flatIndex (origin : Origin) (index : Nat)
  /-- A tested step leaves the base units of one amount unit where they were. -/
  | baseUnits (origin : Origin) (index next before : Nat)
  deriving Repr, DecidableEq

def LostStep.text : LostStep -> String
  | initialIndex index => s!"index {index} does not grow when the accrual factor is only 1"
  | interest => "accrued interest is zero when the accrual factor is only 1"
  | flatIndex origin index => s!"{origin.text} index {index} does not grow"
  | baseUnits origin index next before =>
    s!"{origin.text} index {index} -> {next} leaves base units at {before}"

/-- The supply that a reserve check starts from. -/
inductive Scenario where
  | full
  /-- Share value has grown, so the same inventory backs fewer shares. -/
  | eroded
  deriving Repr, DecidableEq

def Scenario.text : Scenario -> String
  | full => "full precision"
  | eroded => "eroded precision"

/-- How reserve mints fail to grow the supply in time. -/
inductive Stall where
  | forever (totalSupply divisor : Nat)
  | tooLong (interest limit : Nat)
  deriving Repr, DecidableEq

def Stall.text : Stall -> String
  | forever totalSupply divisor =>
    s!"total supply {totalSupply} never grows with reserve divisor {divisor}"
  | tooLong interest limit =>
    s!"first growth needs {interest} raw units of interest, at least 1/{limit} of an asset unit"

/-- A requirement that a design misses. -/
inductive Rejection where
  | slotWidth (slot : String) (used capacity : Nat)
  | emptyField (slot field : String)
  | missingField (role : Role)
  | duplicateField (role : Role) (first second : String)
  | assetDecimals (decimals largest : Nat)
  | timestampExpired (required : Nat)
  | horizonTooShort (years : Rat) (required : Nat)
  | range (field : String) (order required : Int)
  | rateCeiling (field : String) (reached required : Rat)
  | rateFloor (field : String) (reached required : Rat)
  | quantization (field : String) (step : LostStep)
  | reserveStall (scenario : Scenario) (stall : Stall)
  | zeroIndex
  | invalidParameter (fault : ParameterFault)
  deriving Repr, DecidableEq

namespace Rejection

def requirement : Rejection -> Requirement
  | slotWidth .. | emptyField .. => .layout
  | range .. => .range
  | rateCeiling .. => .rateCeiling
  | rateFloor .. => .rateFloor
  | quantization .. | zeroIndex => .quantization
  | reserveStall .. => .reserveStall
  | missingField .. | duplicateField .. | assetDecimals .. | timestampExpired ..
  | horizonTooShort .. | invalidParameter .. => .config

/-- The field to blame, or the slot when its widths are. -/
def culprit? : Rejection -> Option String
  | slotWidth slot .. => some slot
  | emptyField _ field | range field .. | rateCeiling field .. | rateFloor field ..
  | quantization field .. => some field
  | missingField .. | duplicateField .. | assetDecimals .. | timestampExpired ..
  | horizonTooShort .. | reserveStall .. | zeroIndex | invalidParameter .. => none

private def widthGap (used capacity : Nat) : String :=
  if used < capacity then s!"short by {capacity - used} bits"
  else s!"over by {used - capacity} bits"

private def horizonMessage (years : String) (required : Nat) : String :=
  s!"time horizon is {years} years, at least {required} required"

def message : Rejection -> String
  | slotWidth slot used capacity =>
    s!"slot `{slot}` is {widthGap used capacity} ({used} of {capacity} used)"
  | emptyField slot field => s!"field `{field}` in slot `{slot}` has zero width"
  | missingField role => s!"allocation has no field with role {role.label}"
  | duplicateField role first second =>
    s!"allocation has more than one field with role {role.label} (`{first}`, `{second}`)"
  | assetDecimals decimals largest =>
    s!"asset decimals {decimals} is unreasonably large (max {largest})"
  | timestampExpired required => horizonMessage "0" required
  | horizonTooShort years required => horizonMessage (fixedText 2 years) required
  | range field order required =>
    s!"`{field}` should hold at least 10^{required} units of asset, current max is 10^{order}"
  | rateCeiling field reached required =>
    s!"`{field}` should allow at least {fixedText 2 (percent required)}% APY over the " ++
      s!"protocol's lifetime, current max is {fixedText 2 (percent reached)}%"
  | rateFloor field reached required =>
    s!"`{field}` should allow APY as low as {fixedText 6 (percent required)}%, " ++
      s!"current min is {fixedText 6 (percent reached)}%"
  | quantization field step =>
    s!"`{field}` should change with the smallest change in borrow index ({step.text})"
  | reserveStall scenario stall =>
    s!"total supply stalls under minimal interest ({scenario.text}): {stall.text}"
  | zeroIndex => "borrow index must be non-zero"
  | invalidParameter fault => s!"invalid parameter `{fault.parameter}`: {fault.reason}"

/-- A change to the design that would clear the rejection. -/
def remediation : Rejection -> String
  | slotWidth slot used capacity =>
    if used < capacity then s!"widen fields in `{slot}` until they add up to {capacity} bits"
    else s!"narrow fields in `{slot}` until they add up to {capacity} bits"
  | emptyField _ field => s!"give `{field}` a positive width or remove it"
  | missingField role => s!"declare exactly one {role.label} field"
  | duplicateField role .. => s!"keep a single {role.label} field"
  | assetDecimals .. => "decrease asset decimals"
  | timestampExpired _ | horizonTooShort .. => "increase the timestamp width"
  | range field .. => s!"increase `{field}` bits or decrease its precision"
  | rateCeiling field .. =>
    s!"increase `{field}` bits, decrease its precision, or decrease the timestamp width"
  | rateFloor field .. => s!"increase `{field}` precision"
  | quantization field _ =>
    s!"increase `{field}` precision or decrease accrual factor precision"
  | reserveStall .. =>
    "increase total supply precision or decrease the reserve divisor"
  | zeroIndex => "start the borrow index at 10^precision"
  | invalidParameter fault => s!"fix `{fault.parameter}`"

end Rejection

/-- A value, a rejection of the design, or a step without a result. -/
abbrev Verdict := Attempt Rejection

end PackedLedger
