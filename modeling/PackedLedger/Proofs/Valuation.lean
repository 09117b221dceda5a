import Mathlib.Tactic.Linarith
import PackedLedger.Proofs.PriceRegions

namespace PackedLedger

/-!
# Which positions have amounts

A query is looked through for faults before anything is divided, and a query without
one divides by its two bounds only, which are then positive.  Both exact values come out
natural, so the magnitude that is taken of them drops no sign, and there are amounts
exactly when both values stay below a word's limit.
-/

namespace Position

def Amounts.of (amounts : Amounts) : Token -> Nat
  | .first => amounts.first
  | .second => amounts.second

/-- Rounding down two values and rounding down their sum differ by one at most. -/
theorem floor_add_bounds {left right : Rat} (leftNonneg : 0 ≤ left) (rightNonneg : 0 ≤ right) :
    ⌊left⌋₊ + ⌊right⌋₊ ≤ ⌊left + right⌋₊ ∧ ⌊left + right⌋₊ ≤ ⌊left⌋₊ + ⌊right⌋₊ + 1 := by
  constructor
  · apply Nat.le_floor
    push_cast
    exact add_le_add (Nat.floor_le leftNonneg) (Nat.floor_le rightNonneg)
  · apply Nat.lt_succ_iff.mp
    rw [Nat.floor_lt (add_nonneg leftNonneg rightNonneg)]
    push_cast
    have leftHigh := Nat.lt_floor_add_one left
    have rightHigh := Nat.lt_floor_add_one right
    linarith

theorem wholeAmount_answered (token : Token) (value : Rat) :
    (wholeAmount token value).Answered := by
  unfold wholeAmount
  apply Attempt.answered_ite_refuse
  intro _
  trivial

namespace Query

variable {query : Query}

def value (query : Query) : Token -> Rat
  | .first => query.firstValue
  | .second => query.secondValue

/-! ## Guards -/

/-- A query has no fault exactly when it is sound. -/
theorem fault?_eq_none_iff : query.fault? = none ↔ query.Sound := by
  constructor
  · intro clean
    unfold fault? at clean
    split at clean
    · cases clean
    · rename_i noneNegative
      have nonneg : 0 ≤ query.price ∧ 0 ≤ query.lower ∧ 0 ≤ query.upper ∧ 0 ≤ query.liquidity := by
        simpa [List.find?_eq_none] using noneNegative
      rcases nonneg with ⟨price, lower, _, liquidity⟩
      split at clean
      · cases clean
      · rename_i someLower
        split at clean
        · cases clean
        · split at clean
          · cases clean
          · rename_i ordered
            exact ⟨price, liquidity, lower.lt_of_ne' someLower, not_lt.mp ordered⟩
  · exact Sound.fault?_eq_none

namespace Sound

theorem exactValues_eq (sound : query.Sound) :
    query.exactValues = .ok (query.value .first, query.value .second) := by
  rw [Region.exactValues_eq]
  exact (Region.covers_of query).values_eq sound

theorem value_nonneg (sound : query.Sound) (token : Token) : 0 ≤ query.value token := by
  cases token with
  | first => exact sound.firstValue_nonneg
  | second => exact sound.secondValue_nonneg

theorem floor_value_lt (sound : query.Sound) {token : Token} :
    ⌊query.value token⌋₊ < 2 ^ 256 ↔ query.value token < 2 ^ 256 := by
  rw [Nat.floor_lt (sound.value_nonneg token)]
  norm_cast

theorem wholeAmount_eq_ok (sound : query.Sound) {token : Token} {whole : Nat} :
    wholeAmount token (query.value token) = .ok whole ↔
      whole = ⌊query.value token⌋₊ ∧ query.value token < 2 ^ 256 := by
  rw [Position.wholeAmount_eq_ok (sound.value_nonneg token), ← sound.floor_value_lt]
  exact and_congr_right fun same => by rw [same]

theorem amounts_eq (sound : query.Sound) :
    query.amounts = (do
      let first ← wholeAmount .first (query.value .first)
      let second ← wholeAmount .second (query.value .second)
      return ⟨first, second⟩) := by
  simp [amounts, sound.fault?_eq_none, sound.exactValues_eq]

end Sound

/-! ## Amounts -/

theorem sound_of_amounts {found : Amounts} (answer : query.amounts = .ok found) : query.Sound := by
  apply fault?_eq_none_iff.mp
  unfold amounts at answer
  split at answer
  · cases answer
  · assumption

/-- There are amounts exactly when the query is sound and both exact values fit a word. -/
theorem amounts_eq_ok {found : Amounts} :
    query.amounts = .ok found ↔ query.Sound ∧
      ∀ token, found.of token = ⌊query.value token⌋₊ ∧ query.value token < 2 ^ 256 := by
  constructor
  · intro answer
    have sound := sound_of_amounts answer
    refine ⟨sound, ?_⟩
    simp only [sound.amounts_eq, Attempt.bind_eq_ok, sound.wholeAmount_eq_ok] at answer
    rcases answer with ⟨first, firstSpec, second, secondSpec, same⟩
    cases same
    intro token
    cases token with
    | first => exact firstSpec
    | second => exact secondSpec
  · intro spec
    rcases spec with ⟨sound, every⟩
    rw [sound.amounts_eq]
    exact Attempt.bind_eq_ok.mpr ⟨_, sound.wholeAmount_eq_ok.mpr (every .first),
      Attempt.bind_eq_ok.mpr ⟨_, sound.wholeAmount_eq_ok.mpr (every .second), rfl⟩⟩

theorem amounts_fit {found : Amounts} (answer : query.amounts = .ok found) (token : Token) :
    found.of token < 2 ^ 256 := by
  rcases amounts_eq_ok.mp answer with ⟨sound, every⟩
  rw [(every token).1]
  exact sound.floor_value_lt.mpr (every token).2

theorem exists_amounts_iff :
    (∃ found, query.amounts = .ok found) ↔
      query.Sound ∧ ∀ token, query.value token < 2 ^ 256 := by
  constructor
  · intro someAmounts
    rcases someAmounts with ⟨found, answer⟩
    rcases amounts_eq_ok.mp answer with ⟨sound, every⟩
    exact ⟨sound, fun token => (every token).2⟩
  · intro spec
    rcases spec with ⟨sound, fits⟩
    refine ⟨⟨⌊query.value .first⌋₊, ⌊query.value .second⌋₊⟩, amounts_eq_ok.mpr ⟨sound, ?_⟩⟩
    intro token
    cases token with
    | first => exact ⟨rfl, fits .first⟩
    | second => exact ⟨rfl, fits .second⟩

theorem amounts_answered (query : Query) : query.amounts.Answered := by
  cases fault : query.fault? with
  | some fault =>
      unfold amounts
      rw [fault]
      trivial
  | none =>
      rw [(fault?_eq_none_iff.mp fault).amounts_eq]
      apply Attempt.answered_bind (wholeAmount_answered _ _)
      intro first _
      apply Attempt.answered_bind (wholeAmount_answered _ _)
      intro second _
      trivial

end Query

end Position

end PackedLedger
