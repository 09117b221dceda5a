import Mathlib.Algebra.Order.Floor.Semifield
import Mathlib.Data.Rat.Floor
import Mathlib.Tactic.FieldSimp
import PackedLedger.Position
import PackedLedger.Proofs.Attempt
import PackedLedger.Proofs.Conversions
import PackedLedger.Proofs.Magnitude

namespace PackedLedger

/-!
# One formula for all price regions

The amounts of a position are computed differently below its range, inside it and
above it, and the price enters each computation in another way.  All three are one
formula of the price moved to the nearer end of the range, and each of them may be
used wherever the price lies in its region or at an end of it.  So nothing hangs on
which of the comparisons are strict, not even when the range is a single price and
all three regions meet.
-/

namespace Position

/-! ## Sound queries -/

namespace Query

/-- A query of positive prices in order, seen from a price that is not negative. -/
structure Sound (query : Query) : Prop where
  price_nonneg : 0 ≤ query.price
  liquidity_nonneg : 0 ≤ query.liquidity
  lower_pos : 0 < query.lower
  ordered : query.lower ≤ query.upper

variable {query : Query}

theorem Sound.upper_pos (sound : query.Sound) : 0 < query.upper :=
  lt_of_lt_of_le sound.lower_pos sound.ordered

theorem Sound.fault?_eq_none (sound : query.Sound) : query.fault? = none := by
  have nonneg : [query.price, query.lower, query.upper, query.liquidity].find?
      (fun value => value < 0) = none := by
    rw [List.find?_eq_none]
    simp [sound.price_nonneg, sound.lower_pos.le, sound.upper_pos.le, sound.liquidity_nonneg]
  rw [fault?, nonneg]
  dsimp only
  rw [if_neg sound.lower_pos.ne', if_neg sound.upper_pos.ne', if_neg (not_lt.mpr sound.ordered)]

/-! ## The formula -/

def clampedPrice (query : Query) : Rat :=
  max query.lower (min query.price query.upper)

def firstValue (query : Query) : Rat :=
  query.liquidity * priceScale * (query.upper - query.clampedPrice) /
    (query.upper * query.clampedPrice) * query.price ^ 2 / priceScale ^ 2

def secondValue (query : Query) : Rat :=
  query.liquidity * (query.clampedPrice - query.lower) / priceScale

theorem clampedPrice_of_le_lower (below : query.price ≤ query.lower) :
    query.clampedPrice = query.lower :=
  max_eq_left ((min_le_left _ _).trans below)

theorem clampedPrice_of_inside (lower : query.lower ≤ query.price)
    (upper : query.price ≤ query.upper) : query.clampedPrice = query.price := by
  rw [clampedPrice, min_eq_left upper, max_eq_right lower]

theorem clampedPrice_of_upper_le (ordered : query.lower ≤ query.upper)
    (above : query.upper ≤ query.price) : query.clampedPrice = query.upper := by
  rw [clampedPrice, min_eq_right above, max_eq_right ordered]

theorem lower_le_clampedPrice (query : Query) : query.lower ≤ query.clampedPrice :=
  le_max_left _ _

theorem Sound.clampedPrice_le_upper (sound : query.Sound) : query.clampedPrice ≤ query.upper :=
  max_le sound.ordered (min_le_right _ _)

end Query

theorem priceScale_pos : 0 < priceScale :=
  Nat.cast_pos.mpr (powerOfTwo_pos 96)

namespace Query.Sound

variable {query : Query} (sound : query.Sound)
include sound

theorem firstValue_nonneg : 0 ≤ query.firstValue := by
  have scale := priceScale_pos.le
  have left : 0 ≤ query.upper - query.clampedPrice := sub_nonneg.mpr sound.clampedPrice_le_upper
  have held : 0 ≤ query.clampedPrice := sound.lower_pos.le.trans query.lower_le_clampedPrice
  unfold firstValue
  have share := mul_nonneg (mul_nonneg sound.liquidity_nonneg scale) left
  have quotient := div_nonneg share (mul_nonneg sound.upper_pos.le held)
  exact div_nonneg (mul_nonneg quotient (sq_nonneg _)) (sq_nonneg _)

theorem secondValue_nonneg : 0 ≤ query.secondValue :=
  div_nonneg (mul_nonneg sound.liquidity_nonneg (sub_nonneg.mpr query.lower_le_clampedPrice))
    priceScale_pos.le

end Query.Sound

/-! ## Regions -/

/-- Where a price lies to a range. -/
inductive Region where
  | below
  | inside
  | above
  deriving Repr, DecidableEq

namespace Region

/-- The price of a query lies in the region or at an end of it. -/
def Covers (query : Query) : Region -> Prop
  | below => query.price ≤ query.lower
  | inside => query.lower ≤ query.price ∧ query.price ≤ query.upper
  | above => query.upper ≤ query.price

/-- The exact values as they are computed for a region. -/
def values (query : Query) : Region -> Attempt Fault (Rat × Rat)
  | below => do
    let perUpper ← Checked.ratio
      (query.liquidity * priceScale * (query.upper - query.lower)) query.upper
    let full ← Checked.ratio perUpper query.lower
    return (full * query.price / priceScale * query.price / priceScale, 0)
  | inside => do
    let perUpper ← Checked.ratio
      (query.liquidity * priceScale * (query.upper - query.price)) query.upper
    return (perUpper / priceScale * query.price / priceScale,
      query.liquidity * (query.price - query.lower) / priceScale)
  | above => .ok (0, query.liquidity * (query.upper - query.lower) / priceScale)

/-- The region by which a query is answered. -/
def of (query : Query) : Region :=
  if query.price ≤ query.lower then below
  else if query.price < query.upper then inside
  else above

variable {query : Query}

theorem covers_of (query : Query) : (of query).Covers query := by
  unfold of
  split
  · assumption
  · split
    · exact ⟨le_of_not_ge ‹_›, le_of_lt ‹_›⟩
    · exact le_of_not_gt ‹_›

theorem exactValues_eq (query : Query) : query.exactValues = (of query).values query := by
  unfold Query.exactValues of
  dsimp only
  split
  · rfl
  · split <;> rfl

/-- The computation of every region that covers the price comes to the one formula. -/
theorem Covers.values_eq {region : Region} (sound : query.Sound) (covers : region.Covers query) :
    region.values query = .ok (query.firstValue, query.secondValue) := by
  have scale := priceScale_pos.ne'
  have lower := sound.lower_pos.ne'
  have upper := sound.upper_pos.ne'
  cases region with
  | below =>
      have clamped := Query.clampedPrice_of_le_lower covers
      have first : query.liquidity * priceScale * (query.upper - query.lower) / query.upper /
          query.lower * query.price / priceScale * query.price / priceScale = query.firstValue := by
        rw [Query.firstValue, clamped]
        field_simp
      have second : query.secondValue = 0 := by
        rw [Query.secondValue, clamped, sub_self, mul_zero, zero_div]
      rw [← first, second]
      simp [values, upper, lower]
  | inside =>
      have clamped := Query.clampedPrice_of_inside covers.1 covers.2
      have price : query.price ≠ 0 := (lt_of_lt_of_le sound.lower_pos covers.1).ne'
      have first : query.liquidity * priceScale * (query.upper - query.price) / query.upper /
          priceScale * query.price / priceScale = query.firstValue := by
        rw [Query.firstValue, clamped]
        field_simp
      have second : query.liquidity * (query.price - query.lower) / priceScale =
          query.secondValue := by
        rw [Query.secondValue, clamped]
      rw [← first, ← second]
      simp [values, upper]
  | above =>
      have clamped := Query.clampedPrice_of_upper_le sound.ordered covers
      have first : query.firstValue = 0 := by
        rw [Query.firstValue, clamped, sub_self, mul_zero, zero_div, zero_mul, zero_div]
      rw [values, first, Query.secondValue, clamped]

end Region

/-! ## Amounts -/

/-- The whole part of a value is taken while it fits a word. -/
theorem wholeAmount_eq_ok {token : Token} {value : Rat} {whole : Nat} (nonneg : 0 ≤ value) :
    wholeAmount token value = .ok whole ↔ whole = ⌊value⌋₊ ∧ whole < 2 ^ 256 := by
  have den : (value.den : Rat) ≠ 0 := Nat.cast_ne_zero.mpr value.den_ne_zero
  have floor : value.num.natAbs / value.den = ⌊value⌋₊ := by
    rw [← Nat.floor_div_eq_div (K := Rat), Conversion.natAbs_num_eq nonneg,
      mul_div_cancel_right₀ _ den]
  simp only [wholeAmount, floor]
  rw [Attempt.ite_refuse_eq_ok, Nat.not_lt, bitLength_le_iff]
  constructor
  · intro passed
    rcases passed with ⟨fits, same⟩
    cases same
    exact ⟨rfl, fits⟩
  · intro passed
    rcases passed with ⟨rfl, fits⟩
    exact ⟨fits, rfl⟩

/-- The amounts of a sound query are the formula's two values, rounded down, and there
are amounts exactly when both fit a word.  The formula is what the computation of every
region comes to wherever the region covers the price, ends included, so it does not
matter to which region an end is counted. -/
theorem amounts_of_clamped_price {query : Query} (sound : query.Sound) :
    (∀ amounts, query.amounts = .ok amounts ↔
      amounts = ⟨⌊query.firstValue⌋₊, ⌊query.secondValue⌋₊⟩ ∧
        amounts.first < 2 ^ 256 ∧ amounts.second < 2 ^ 256) ∧
      query.exactValues = (Region.of query).values query ∧
      ∀ region : Region, region.Covers query ->
        region.values query = .ok (query.firstValue, query.secondValue) := by
  have agree : ∀ region : Region, region.Covers query ->
      region.values query = .ok (query.firstValue, query.secondValue) :=
    fun region covers => covers.values_eq sound
  refine ⟨?_, Region.exactValues_eq query, agree⟩
  intro amounts
  rw [Query.amounts, sound.fault?_eq_none, Region.exactValues_eq,
    agree _ (Region.covers_of query)]
  simp only [Attempt.ok_bind, Attempt.bind_eq_ok, Attempt.pure_eq_ok,
    wholeAmount_eq_ok sound.firstValue_nonneg, wholeAmount_eq_ok sound.secondValue_nonneg]
  constructor
  · intro found
    rcases found with ⟨first, ⟨rfl, firstFits⟩, second, ⟨rfl, secondFits⟩, rfl⟩
    exact ⟨rfl, firstFits, secondFits⟩
  · intro found
    rcases found with ⟨rfl, firstFits, secondFits⟩
    exact ⟨_, ⟨rfl, firstFits⟩, _, ⟨rfl, secondFits⟩, rfl⟩

/-- A position of 1000 from one to two, seen from one and a half. -/
def splitQuery : Query where
  price := priceScale * 3 / 2
  lower := priceScale
  upper := priceScale * 2
  liquidity := 1000

theorem amounts_of_clamped_price_split :
    splitQuery.Sound ∧ splitQuery.amounts = .ok ⟨375, 500⟩ ∧
      Region.inside.values splitQuery = .ok (375, 500) := by
  have sound : splitQuery.Sound :=
    ⟨by decide +kernel, by decide +kernel, by decide +kernel, by decide +kernel⟩
  have first : splitQuery.firstValue = 375 := by decide +kernel
  have second : splitQuery.secondValue = 500 := by decide +kernel
  rcases amounts_of_clamped_price sound with ⟨answer, _, agree⟩
  rw [first, second] at answer agree
  refine ⟨sound, (answer _).mpr ⟨?_, by decide, by decide⟩,
    agree .inside ⟨by decide +kernel, by decide +kernel⟩⟩
  rw [Nat.floor_ofNat, Nat.floor_ofNat]

end Position

end PackedLedger
