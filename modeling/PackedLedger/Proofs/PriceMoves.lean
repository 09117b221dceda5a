import Mathlib.Order.Interval.Set.LinearOrder
import Mathlib.Order.Monotone.Union
import PackedLedger.Proofs.Valuation

namespace PackedLedger

/-!
# What a position holds as the price moves

The second amount only grows with the price.  The first one does not go one way: below
the range it grows with the square of the price, and inside the range it is sold off.
What it loses there the second amount gains at least, so both together never fall.  The
total is simple on each region by itself, and as the regions meet at the ends of the
range, nothing is left to compare across them.
-/

namespace Position

namespace Query

variable {query : Query}

def seenFrom (query : Query) (price : Rat) : Query :=
  { query with price := price }

def totalValue (query : Query) : Rat :=
  query.value .first + query.value .second

theorem clampedPrice_mono (query : Query) {lower higher : Rat} (ordered : lower ≤ higher) :
    (query.seenFrom lower).clampedPrice ≤ (query.seenFrom higher).clampedPrice :=
  max_le_max_left _ (min_le_min_right _ ordered)

theorem secondValue_mono (liquidity : 0 ≤ query.liquidity) {lower higher : Rat}
    (ordered : lower ≤ higher) :
    (query.seenFrom lower).value .second ≤ (query.seenFrom higher).value .second := by
  have moved := sub_le_sub_right (query.clampedPrice_mono ordered) query.lower
  exact div_le_div_of_nonneg_right (mul_le_mul_of_nonneg_left moved liquidity) priceScale_pos.le

namespace Sound

theorem seenFrom (sound : query.Sound) {price : Rat} (nonneg : 0 ≤ price) :
    (query.seenFrom price).Sound where
  price_nonneg := nonneg
  liquidity_nonneg := sound.liquidity_nonneg
  lower_pos := sound.lower_pos
  ordered := sound.ordered

/-! ## The total on each region -/

theorem totalValue_below (sound : query.Sound) (below : query.price ≤ query.lower) :
    query.totalValue = query.liquidity * (query.upper - query.lower) /
      (query.upper * query.lower * priceScale) * query.price ^ 2 := by
  have scale := priceScale_pos.ne'
  have lower := sound.lower_pos.ne'
  have upper := sound.upper_pos.ne'
  rw [totalValue, value, value, firstValue, secondValue, clampedPrice_of_le_lower below]
  field_simp
  ring

/-- Inside the range, the square of the way to its upper end is missing. -/
theorem totalValue_inside (sound : query.Sound) (lower : query.lower ≤ query.price)
    (upper : query.price ≤ query.upper) :
    query.totalValue = query.liquidity / (query.upper * priceScale) *
      (query.upper * (query.upper - query.lower) - (query.upper - query.price) ^ 2) := by
  have scale := priceScale_pos.ne'
  have nonzero := sound.upper_pos.ne'
  have price : query.price ≠ 0 := (lt_of_lt_of_le sound.lower_pos lower).ne'
  rw [totalValue, value, value, firstValue, secondValue, clampedPrice_of_inside lower upper]
  field_simp
  ring

theorem totalValue_above (sound : query.Sound) (above : query.upper ≤ query.price) :
    query.totalValue = query.liquidity * (query.upper - query.lower) / priceScale := by
  rw [totalValue, value, value, firstValue, secondValue,
    clampedPrice_of_upper_le sound.ordered above, sub_self, mul_zero, zero_div, zero_mul, zero_div,
    zero_add]

/-! ## The total along the price -/

theorem totalValue_monotoneOn_below (sound : query.Sound) :
    MonotoneOn (fun price => (query.seenFrom price).totalValue) (Set.Icc 0 query.lower) := by
  intro price inside higher insideHigher ordered
  have range := sub_nonneg.mpr sound.ordered
  have scale := priceScale_pos
  have lower := sound.lower_pos
  have upper := sound.upper_pos
  have share : 0 ≤ query.liquidity * (query.upper - query.lower) /
      (query.upper * query.lower * priceScale) :=
    div_nonneg (mul_nonneg sound.liquidity_nonneg range) (by positivity)
  dsimp only
  rw [(sound.seenFrom inside.1).totalValue_below inside.2,
    (sound.seenFrom insideHigher.1).totalValue_below insideHigher.2]
  exact mul_le_mul_of_nonneg_left (pow_le_pow_left₀ inside.1 ordered 2) share

theorem totalValue_monotoneOn_inside (sound : query.Sound) :
    MonotoneOn (fun price => (query.seenFrom price).totalValue)
      (Set.Icc query.lower query.upper) := by
  intro price inside higher insideHigher ordered
  have share : 0 ≤ query.liquidity / (query.upper * priceScale) :=
    div_nonneg sound.liquidity_nonneg (mul_pos sound.upper_pos priceScale_pos).le
  have way : (query.upper - higher) ^ 2 ≤ (query.upper - price) ^ 2 :=
    pow_le_pow_left₀ (sub_nonneg.mpr insideHigher.2) (sub_le_sub_left ordered _) 2
  have nonneg := sound.lower_pos.le
  dsimp only
  rw [(sound.seenFrom (nonneg.trans inside.1)).totalValue_inside inside.1 inside.2,
    (sound.seenFrom (nonneg.trans insideHigher.1)).totalValue_inside insideHigher.1
      insideHigher.2]
  exact mul_le_mul_of_nonneg_left (sub_le_sub_left way _) share

theorem totalValue_monotoneOn_above (sound : query.Sound) :
    MonotoneOn (fun price => (query.seenFrom price).totalValue) (Set.Ici query.upper) := by
  intro price above higher aboveHigher _
  have nonneg := sound.upper_pos.le
  dsimp only
  rw [(sound.seenFrom (nonneg.trans above)).totalValue_above above,
    (sound.seenFrom (nonneg.trans aboveHigher)).totalValue_above aboveHigher]
  exact le_rfl

theorem totalValue_monotoneOn (sound : query.Sound) :
    MonotoneOn (fun price => (query.seenFrom price).totalValue) (Set.Ici 0) := by
  have lower := sound.lower_pos.le
  have toUpper := sound.totalValue_monotoneOn_below.union_right
    sound.totalValue_monotoneOn_inside (isGreatest_Icc lower) (isLeast_Icc sound.ordered)
  rw [Set.Icc_union_Icc_eq_Icc lower sound.ordered] at toUpper
  have everywhere := toUpper.union_right sound.totalValue_monotoneOn_above
    (isGreatest_Icc sound.upper_pos.le) isLeast_Ici
  rwa [Set.Icc_union_Ici_eq_Ici sound.upper_pos.le] at everywhere

end Sound

end Query

/-- When the price rises, the second amount does not fall, and both amounts together
fall by one unit at most, which is what rounding down two values can take away. -/
theorem amounts_along_price {query : Query} {lower higher : Rat} {before after : Amounts}
    (ordered : lower ≤ higher) (foundBefore : (query.seenFrom lower).amounts = .ok before)
    (foundAfter : (query.seenFrom higher).amounts = .ok after) :
    before.second ≤ after.second ∧
      before.first + before.second ≤ after.first + after.second + 1 := by
  rcases Query.amounts_eq_ok.mp foundBefore with ⟨soundBefore, everyBefore⟩
  rcases Query.amounts_eq_ok.mp foundAfter with ⟨soundAfter, everyAfter⟩
  constructor
  · change before.of .second ≤ after.of .second
    rw [(everyBefore .second).1, (everyAfter .second).1]
    exact Nat.floor_le_floor (Query.secondValue_mono soundBefore.liquidity_nonneg ordered)
  · have grows : (query.seenFrom lower).totalValue ≤ (query.seenFrom higher).totalValue :=
      soundBefore.totalValue_monotoneOn soundBefore.price_nonneg soundAfter.price_nonneg ordered
    have roundedBefore := (floor_add_bounds (soundBefore.value_nonneg .first)
      (soundBefore.value_nonneg .second)).1
    have roundedAfter := (floor_add_bounds (soundAfter.value_nonneg .first)
      (soundAfter.value_nonneg .second)).2
    calc
      before.of .first + before.of .second
          ≤ ⌊(query.seenFrom lower).totalValue⌋₊ := by
        rw [(everyBefore .first).1, (everyBefore .second).1]
        exact roundedBefore
      _ ≤ ⌊(query.seenFrom higher).totalValue⌋₊ := Nat.floor_le_floor grows
      _ ≤ after.of .first + after.of .second + 1 := by
        rw [(everyAfter .first).1, (everyAfter .second).1]
        exact roundedAfter

/-- The one unit can be lost: the exact amounts go from 180 and 800 to a little under 178.5
and exactly 801.9, and both fractions are cut off. -/
theorem amounts_along_price_rounded :
    (splitQuery.seenFrom (priceScale * 9 / 5)).amounts = .ok ⟨180, 800⟩ ∧
      (splitQuery.seenFrom (priceScale * 18019 / 10000)).amounts = .ok ⟨178, 801⟩ ∧
      800 ≤ 801 ∧ 180 + 800 ≤ 178 + 801 + 1 := by
  have before : (splitQuery.seenFrom (priceScale * 9 / 5)).amounts = .ok ⟨180, 800⟩ := by
    decide +kernel
  have after : (splitQuery.seenFrom (priceScale * 18019 / 10000)).amounts = .ok ⟨178, 801⟩ := by
    decide +kernel
  exact ⟨before, after, amounts_along_price (by decide +kernel) before after⟩

end Position

end PackedLedger
