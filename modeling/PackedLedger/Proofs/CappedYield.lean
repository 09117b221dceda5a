import Mathlib.Order.Bounds.Basic
import PackedLedger.Proofs.Requirements

namespace PackedLedger

/-!
# A cap on compounding does not change the verdict

The smallest yield is wanted for one comparison, and compounding stops as soon as it is
decided.  The stop is a comparison of whole numbers: the ceiling is turned into an
index, rounded up, and a ceiling below zero into the index at the start.  Nothing is
lost in that.  An index comes up to the limit exactly when its yield comes up to the
ceiling, on ties and for every sign, so compounding ends at the first yield that is
large enough, and with the yield of all blocks when none is.
-/

namespace Scaling

variable {scaling : Scaling} {blocks taken : Nat} {ceiling : Rat}

/-- Compounding under the limit stops at the first step whose yield comes up to the
ceiling. -/
theorem stopsAfter_of_isLeast (someInitial : 0 < scaling.initialIndex)
    (first : IsLeast {steps | steps ≤ blocks ∧ ceiling ≤ scaling.yieldAfter steps} taken) :
    StopsAfter scaling (some (ceilingIndex scaling.initialIndex ceiling)) scaling.initialIndex
      blocks taken where
  le_steps := first.1.1
  before := by
    intro earlier less reached
    have enough := (reached_ceilingIndex_iff someInitial earlier ceiling).mp reached
    have within : earlier ≤ blocks := less.le.trans first.1.1
    exact absurd (first.2 ⟨within, enough⟩) (Nat.not_le.mpr less)
  exhausted_or_reached := .inr ((reached_ceilingIndex_iff someInitial taken ceiling).mpr first.1.2)

/-- Compounding under the limit takes every step when no yield comes up to the
ceiling. -/
theorem stopsAfter_of_below (someInitial : 0 < scaling.initialIndex)
    (below : ∀ steps, steps ≤ blocks -> scaling.yieldAfter steps < ceiling) :
    StopsAfter scaling (some (ceilingIndex scaling.initialIndex ceiling)) scaling.initialIndex
      blocks blocks where
  le_steps := Nat.le_refl blocks
  before := by
    intro earlier less reached
    have enough := (reached_ceilingIndex_iff someInitial earlier ceiling).mp reached
    exact absurd (below earlier less.le) (not_lt.mpr enough)
  exhausted_or_reached := .inl rfl

end Scaling

section

variable {scaling : Scaling} (someInitial : 0 < scaling.initialIndex)
include someInitial

theorem smallestYield_of_stopsAfter {blocks taken : Nat} {ceiling : Rat}
    (stops : Scaling.StopsAfter scaling (some (ceilingIndex scaling.initialIndex ceiling))
      scaling.initialIndex blocks taken) :
    smallestYield scaling blocks ceiling = .ok (scaling.yieldAfter taken) := by
  rcases smallestYield_spec someInitial blocks ceiling with ⟨other, also, found⟩
  rw [found, also.unique stops]

/-- The capped loop finds a yield that is large enough exactly when the whole number of
blocks has one. -/
theorem le_smallestYield_iff {blocks : Nat} {ceiling yield : Rat}
    (found : smallestYield scaling blocks ceiling = .ok yield) :
    ceiling ≤ yield ↔ ceiling ≤ scaling.yieldAfter blocks := by
  rw [← not_lt, ← not_lt, ← smallestYield_lt_iff someInitial blocks ceiling, found]
  apply not_congr
  constructor
  · intro below
    exact ⟨yield, rfl, below⟩
  · intro someYield
    rcases someYield with ⟨other, same, below⟩
    cases same
    exact below

/-- The smallest yield is the first of the yields after so many accruals that comes up
to the ceiling, and the last of them when none does.  It exists, it misses the ceiling
exactly when the uncapped yield does, and then it is the uncapped yield. -/
theorem smallestYield_agrees_with_uncapped (blocks : Nat) (ceiling : Rat) :
    (∀ taken, IsLeast {steps | steps ≤ blocks ∧ ceiling ≤ scaling.yieldAfter steps} taken ->
      smallestYield scaling blocks ceiling = .ok (scaling.yieldAfter taken)) ∧
    ((∀ steps, steps ≤ blocks -> scaling.yieldAfter steps < ceiling) ->
      smallestYield scaling blocks ceiling = .ok (scaling.yieldAfter blocks)) ∧
    ∃ yield, smallestYield scaling blocks ceiling = .ok yield ∧
      (ceiling ≤ yield ↔ ceiling ≤ scaling.yieldAfter blocks) ∧
      (yield < ceiling -> yield = scaling.yieldAfter blocks) := by
  refine ⟨?_, ?_, ?_⟩
  · intro taken first
    exact smallestYield_of_stopsAfter someInitial
      (Scaling.stopsAfter_of_isLeast someInitial first)
  · intro below
    exact smallestYield_of_stopsAfter someInitial
      (Scaling.stopsAfter_of_below someInitial below)
  · rcases smallestYield_spec someInitial blocks ceiling with ⟨taken, stops, found⟩
    refine ⟨_, found, le_smallestYield_iff someInitial found, ?_⟩
    intro less
    rcases stops.exhausted_or_reached with all | reached
    · rw [all]
    · have enough := (Scaling.reached_ceilingIndex_iff someInitial taken ceiling).mp reached
      exact absurd less (not_lt.mpr enough)

end

/-- A scaling whose index starts at ten and first moves by one. -/
def tenfold : Scaling where
  accrualScaler := powerOfTen 1
  initialIndex := powerOfTen 1
  largestIndex := fieldMaximum 8
  borrowsScaler := 1
  accrualScaler_pos := powerOfTen_pos 1

/-- Out of five blocks, the second already has a yield above fifteen percent, none has
a whole, and a negative ceiling is reached before the first. -/
theorem smallestYield_agrees_with_uncapped_tenfold :
    0 < tenfold.initialIndex ∧ smallestYield tenfold 5 (3 / 20) = .ok (1 / 5) ∧
      smallestYield tenfold 5 1 = .ok (1 / 2) ∧ smallestYield tenfold 5 (-1) = .ok 0 := by
  have someInitial : 0 < tenfold.initialIndex := by decide
  have second : tenfold.yieldAfter 2 = 1 / 5 := by decide +kernel
  have fifth : tenfold.yieldAfter 5 = 1 / 2 := by decide +kernel
  refine ⟨someInitial, ?_, ?_, ?_⟩
  · rw [← second]
    apply (smallestYield_agrees_with_uncapped someInitial 5 (3 / 20)).1
    refine ⟨⟨by decide, by decide +kernel⟩, ?_⟩
    intro steps large
    apply Nat.le_of_not_lt
    intro less
    have first : tenfold.yieldAfter 1 < 3 / 20 := by decide +kernel
    exact absurd large.2 (not_le.mpr ((tenfold.yieldAfter_mono (by omega)).trans_lt first))
  · rw [← fifth]
    apply (smallestYield_agrees_with_uncapped someInitial 5 1).2.1
    intro steps within
    have last : tenfold.yieldAfter 5 < 1 := by decide +kernel
    exact (tenfold.yieldAfter_mono within).trans_lt last
  · have start : tenfold.yieldAfter 0 = 0 := by decide +kernel
    rw [← start]
    apply (smallestYield_agrees_with_uncapped someInitial 5 (-1)).1
    exact ⟨⟨by decide, by decide +kernel⟩, fun steps _ => Nat.zero_le steps⟩

end PackedLedger
