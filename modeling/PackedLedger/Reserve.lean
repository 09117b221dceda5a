import PackedLedger.Allocation.Basic
import PackedLedger.Attempt
import PackedLedger.Number.Digits
import PackedLedger.Parameters

namespace PackedLedger

/-!
# Growth of the supply by reserve mints

Of an interest `i` the reserve takes `i / divisor`, rounded down, as newly
minted shares, so the supply becomes `supply * (inventory + i)` over
`inventory + i - i / divisor`, rounded down.  A mint that rounds to nothing
stalls the reserve.  The least interest that does not is found in closed form.
-/

namespace Reserve

variable {Reason : Type}

/-- The supply after a mint for `interest`. -/
def mint (totalSupply inventory interest divisor : Nat) : Attempt Reason Nat := do
  let reserve ← Checked.quotient interest divisor
  let gross := inventory + interest
  let net ← Checked.difference gross reserve
  if net = 0 then return totalSupply
  else Checked.quotient (totalSupply * gross) net

/-- The least number of divisors of interest that could grow the supply.  A
supply of `t` grows when `r * (t + 1)` covers the inventory and the interest,
where `r` is the reserve's part; at `r` divisors of interest that is
`inventory ≤ r * (t + 1 - divisor)`. -/
def leastMultiple (totalSupply inventory divisor : Nat) : Attempt Reason (Option Nat) := do
  let headroom := totalSupply + 1
  if divisor < headroom then
    let gap ← Checked.difference headroom divisor
    let rounded ← Checked.difference (inventory + gap) 1
    let needed ← Checked.quotient rounded gap
    return some (max needed 1)
  else if headroom = divisor ∧ inventory = 0 then return some 1
  else return none

/-- Whether no interest below `interest` could have grown the supply, judged by
the one before it. -/
def stalledBefore (totalSupply inventory interest divisor : Nat) : Attempt Reason Bool :=
  if interest = 1 then .ok true
  else do
    let previous ← Checked.difference interest 1
    let supply ← mint totalSupply inventory previous divisor
    return supply ≤ totalSupply

/-- The least interest whose mint grows the supply, if one does.  A mint with
nothing left beside the reserve leaves the supply alone, however large. -/
def firstGrowth (totalSupply inventory divisor : Nat) : Attempt Reason (Option Nat) :=
  if totalSupply = 0 then .ok none
  else do
    match ← leastMultiple totalSupply inventory divisor with
    | none => return none
    | some multiple =>
      let interest := multiple * divisor
      let supply ← mint totalSupply inventory interest divisor
      if supply ≤ totalSupply then return none
      else if ← stalledBefore totalSupply inventory interest divisor then
        return some interest
      else .breakDown .brokenInvariant

/-- The first growth of both scenarios, in raw units of interest. -/
structure Growth where
  divisor : Nat
  full : Nat
  eroded : Nat
  deriving Repr, DecidableEq

/-- The first growth of a scenario, refused when there is none or when it is
not below one asset unit over the limit. -/
def checkScenario (scenario : Scenario) (totalSupply inventory assetUnit : Nat)
    (parameters : Parameters) : Verdict Nat := do
  match ← firstGrowth totalSupply inventory parameters.reserveDivisor with
  | none =>
    .refuse (.reserveStall scenario (.forever totalSupply parameters.reserveDivisor))
  | some interest =>
    if assetUnit ≤ interest * parameters.reserveGrowthLimit then
      .refuse (.reserveStall scenario (.tooLong interest parameters.reserveGrowthLimit))
    else return interest

/-- The supply minted against an inventory: one raw asset unit mints ten to the
precision, and the field's width caps the total. -/
def mintedSupply (supply : Field) (inventory : Nat) : Nat :=
  min (inventory * powerOfTen supply.digits) (fieldMaximum supply.bits)

/-- Check both scenarios of a total-supply field: the supply at its full
precision, and the supply reduced by the erosion factor. -/
def check (supply : Field) (assetDecimals : Nat) (parameters : Parameters) :
    Verdict Growth := do
  let assetUnit := powerOfTen assetDecimals
  let inventory := assetUnit * parameters.reserveInventoryUnits
  let fullSupply := mintedSupply supply inventory
  let erodedSupply ← Checked.quotient fullSupply parameters.reserveErosionFactor
  let full ← checkScenario .full fullSupply inventory assetUnit parameters
  let eroded ← checkScenario .eroded erodedSupply inventory assetUnit parameters
  return { divisor := parameters.reserveDivisor, full, eroded }

end Reserve

end PackedLedger
