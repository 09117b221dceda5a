import Mathlib.Tactic.LinearCombination
import PackedLedger.Proofs.Valuation

namespace PackedLedger

/-!
# Positions in parts

A position can be held as two: over two ranges that meet at a middle price, or with two
shares of the liquidity over one range.  The exact values add up either way.  For ranges
this hangs on one remark: wherever the price lies, one of the two parts sees it moved to
where the whole range moves it, and the other one sees it at the middle, where that part
holds nothing that the whole would not.  What is left to lose is then in the rounding,
which takes each amount down once for the whole and twice for the parts.
-/

namespace Position

/-- What is held in two parts is what is held in one, or a unit of a token less. -/
def Amounts.SplitInto (whole part rest : Amounts) : Prop :=
  ∀ token, part.of token + rest.of token ≤ whole.of token ∧
    whole.of token ≤ part.of token + rest.of token + 1

namespace Query

def lowerPart (query : Query) (middle : Rat) : Query :=
  { query with upper := middle }

def upperPart (query : Query) (middle : Rat) : Query :=
  { query with lower := middle }

def withLiquidity (query : Query) (liquidity : Rat) : Query :=
  { query with liquidity := liquidity }

/-- Two sound positions whose exact values add up to those of a third. -/
structure Makes (part rest whole : Query) : Prop where
  part_sound : part.Sound
  rest_sound : rest.Sound
  value_add : ∀ token, part.value token + rest.value token = whole.value token

/-- Where there are amounts of the whole there are amounts of both parts, and these are
the same up to one rounding. -/
theorem Makes.amounts_split {part rest whole : Query} (makes : Makes part rest whole)
    {found : Amounts} (answer : whole.amounts = .ok found) :
    ∃ first second, part.amounts = .ok first ∧ rest.amounts = .ok second ∧
      found.SplitInto first second := by
  rcases makes with ⟨partSound, restSound, valueAdd⟩
  rcases amounts_eq_ok.mp answer with ⟨-, every⟩
  have partFits : ∀ token, part.value token < 2 ^ 256 := by
    intro token
    refine lt_of_le_of_lt ?_ (every token).2
    rw [← valueAdd]
    exact le_add_of_nonneg_right (restSound.value_nonneg token)
  have restFits : ∀ token, rest.value token < 2 ^ 256 := by
    intro token
    refine lt_of_le_of_lt ?_ (every token).2
    rw [← valueAdd]
    exact le_add_of_nonneg_left (partSound.value_nonneg token)
  rcases exists_amounts_iff.mpr ⟨partSound, partFits⟩ with ⟨first, firstFound⟩
  rcases exists_amounts_iff.mpr ⟨restSound, restFits⟩ with ⟨second, secondFound⟩
  refine ⟨first, second, firstFound, secondFound, ?_⟩
  intro token
  rw [(every token).1, ((amounts_eq_ok.mp firstFound).2 token).1,
    ((amounts_eq_ok.mp secondFound).2 token).1, ← valueAdd]
  exact floor_add_bounds (partSound.value_nonneg token) (restSound.value_nonneg token)

/-! ## Two ranges -/

/-- One part sees the price where the whole sees it, and the other one at the middle.
Which part is which does not matter to a sum over both. -/
theorem add_clampedPrice_parts {query : Query} {middle : Rat} (lower : query.lower ≤ middle)
    (upper : middle ≤ query.upper) (measure : Rat -> Rat) :
    measure (query.lowerPart middle).clampedPrice + measure (query.upperPart middle).clampedPrice =
      measure query.clampedPrice + measure middle := by
  unfold clampedPrice lowerPart upperPart
  rcases le_total query.price middle with below | above
  · rw [min_eq_left below, min_eq_left (below.trans upper), max_eq_left below]
  · have inside : middle ≤ min query.price query.upper := le_min above upper
    rw [min_eq_right above, max_eq_right lower, max_eq_right inside,
      max_eq_right (lower.trans inside), add_comm]

namespace Sound

variable {query : Query} (sound : query.Sound)
include sound

theorem firstValue_eq_reciprocals :
    query.firstValue = query.liquidity * query.price ^ 2 / priceScale *
      (1 / query.clampedPrice - 1 / query.upper) := by
  have scale := priceScale_pos.ne'
  have upper := sound.upper_pos.ne'
  have clamped := (lt_of_lt_of_le sound.lower_pos query.lower_le_clampedPrice).ne'
  rw [firstValue]
  field_simp

theorem parts_make {middle : Rat} (lower : query.lower ≤ middle) (upper : middle ≤ query.upper) :
    Makes (query.lowerPart middle) (query.upperPart middle) query := by
  have lowerSound : (query.lowerPart middle).Sound :=
    ⟨sound.price_nonneg, sound.liquidity_nonneg, sound.lower_pos, lower⟩
  have upperSound : (query.upperPart middle).Sound :=
    ⟨sound.price_nonneg, sound.liquidity_nonneg, lt_of_lt_of_le sound.lower_pos lower, upper⟩
  refine ⟨lowerSound, upperSound, ?_⟩
  intro token
  cases token with
  | first =>
      have moved := add_clampedPrice_parts lower upper fun price => 1 / price
      change (query.lowerPart middle).firstValue + (query.upperPart middle).firstValue =
        query.firstValue
      rw [sound.firstValue_eq_reciprocals, lowerSound.firstValue_eq_reciprocals,
        upperSound.firstValue_eq_reciprocals]
      simp only [lowerPart, upperPart] at moved ⊢
      linear_combination (query.liquidity * query.price ^ 2 / priceScale) * moved
  | second =>
      have moved := add_clampedPrice_parts lower upper fun price => price
      change (query.lowerPart middle).secondValue + (query.upperPart middle).secondValue =
        query.secondValue
      unfold secondValue
      simp only [lowerPart, upperPart] at moved ⊢
      linear_combination (query.liquidity / priceScale) * moved

/-! ## Two shares -/

theorem shares_make {share rest : Rat} (shareNonneg : 0 ≤ share) (restNonneg : 0 ≤ rest)
    (together : share + rest = query.liquidity) :
    Makes (query.withLiquidity share) (query.withLiquidity rest) query := by
  refine ⟨⟨sound.price_nonneg, shareNonneg, sound.lower_pos, sound.ordered⟩,
    ⟨sound.price_nonneg, restNonneg, sound.lower_pos, sound.ordered⟩, ?_⟩
  intro token
  cases token with
  | first =>
      simp only [value, firstValue, withLiquidity, clampedPrice, ← together]
      ring
  | second =>
      simp only [value, secondValue, withLiquidity, clampedPrice, ← together]
      ring

end Sound

end Query

/-- A position that has amounts has them in parts, too: over the two ranges on both sides
of any price of its range, and with any two shares of its liquidity.  Of each token the
parts never hold more than the whole, and at most one unit less. -/
theorem amounts_of_parts {query : Query} {whole : Amounts} (answer : query.amounts = .ok whole) :
    (∀ middle, query.lower ≤ middle -> middle ≤ query.upper ->
      ∃ below above, (query.lowerPart middle).amounts = .ok below ∧
        (query.upperPart middle).amounts = .ok above ∧ whole.SplitInto below above) ∧
    ∀ share rest, 0 ≤ share -> 0 ≤ rest -> share + rest = query.liquidity ->
      ∃ first second, (query.withLiquidity share).amounts = .ok first ∧
        (query.withLiquidity rest).amounts = .ok second ∧ whole.SplitInto first second := by
  have sound := Query.sound_of_amounts answer
  constructor
  · intro middle lower upper
    exact (sound.parts_make lower upper).amounts_split answer
  · intro share rest shareNonneg restNonneg together
    exact (sound.shares_make shareNonneg restNonneg together).amounts_split answer

/-- Half a unit is lost twice: in each half of the range below the price, and in each half
of the liquidity. -/
theorem amounts_of_parts_halves :
    (splitQuery.withLiquidity 1002).amounts = .ok ⟨375, 501⟩ ∧
      ((splitQuery.withLiquidity 1002).lowerPart (priceScale * 5 / 4)).amounts = .ok ⟨0, 250⟩ ∧
      ((splitQuery.withLiquidity 1002).upperPart (priceScale * 5 / 4)).amounts = .ok ⟨375, 250⟩ ∧
      Amounts.SplitInto ⟨375, 501⟩ ⟨0, 250⟩ ⟨375, 250⟩ ∧
      ((splitQuery.withLiquidity 1002).withLiquidity 501).amounts = .ok ⟨187, 250⟩ ∧
      Amounts.SplitInto ⟨375, 501⟩ ⟨187, 250⟩ ⟨187, 250⟩ := by
  have answer : (splitQuery.withLiquidity 1002).amounts = .ok ⟨375, 501⟩ := by decide +kernel
  have low : ((splitQuery.withLiquidity 1002).lowerPart (priceScale * 5 / 4)).amounts =
      .ok ⟨0, 250⟩ := by
    decide +kernel
  have high : ((splitQuery.withLiquidity 1002).upperPart (priceScale * 5 / 4)).amounts =
      .ok ⟨375, 250⟩ := by
    decide +kernel
  have half : ((splitQuery.withLiquidity 1002).withLiquidity 501).amounts = .ok ⟨187, 250⟩ := by
    decide +kernel
  rcases amounts_of_parts answer with ⟨ranges, shares⟩
  rcases ranges (priceScale * 5 / 4) (by decide +kernel) (by decide +kernel) with
    ⟨below, above, belowFound, aboveFound, split⟩
  rcases shares 501 501 (by decide) (by decide) (by decide +kernel) with
    ⟨first, second, firstFound, secondFound, share⟩
  cases low.symm.trans belowFound
  cases high.symm.trans aboveFound
  cases half.symm.trans firstFound
  cases half.symm.trans secondFound
  exact ⟨answer, low, high, split, half, share⟩

end Position

end PackedLedger
