import Mathlib.Algebra.Order.Floor.Semifield
import Mathlib.Data.Nat.Cast.Order.Field
import Mathlib.Data.Rat.Floor
import Mathlib.Tactic.FieldSimp
import Mathlib.Tactic.Linarith
import Mathlib.Tactic.Positivity
import PackedLedger.Number.Digits
import PackedLedger.Proofs.DecimalReading

namespace PackedLedger

/-!
# Printing with fixed places, and reading it back

A number is printed as the integer nearest to it in units of the last place, with zeros
in front when that integer is short and a point put in by counting from the end.  Here
the printed text is shown to be a numeral whose digits, point and all, are again that
integer.  What the reader makes of it, where a sign stands and which of two texts
denotes the larger number are then questions about nearest integers, and those are
answered without looking at the quotient that finds one.
-/

/-! ## Nearest integers -/

/-- The integer nearest to a number, a half going away from zero. -/
structure Nearest (exact : Rat) (rounded : Int) : Prop where
  near : |exact - rounded| ≤ 1 / 2
  away : |exact - rounded| = 1 / 2 -> |exact| < |(rounded : Rat)|

namespace Nearest

theorem ofInt (rounded : Int) : Nearest rounded rounded where
  near := by norm_num
  away := by norm_num

theorem neg {exact : Rat} {rounded : Int} (nearest : Nearest exact rounded) :
    Nearest (-exact) (-rounded) := by
  have distance : |(-exact) - ((-rounded : Int) : Rat)| = |exact - rounded| := by
    rw [Int.cast_neg, neg_sub_neg, abs_sub_comm]
  constructor
  · rw [distance]
    exact nearest.near
  · rw [distance, abs_neg, Int.cast_neg, abs_neg]
    exact nearest.away

/-- Rounding keeps the order.  Two numbers could only change places around one tie, and
a tie goes one way. -/
theorem mono {exact larger : Rat} {rounded above : Int} (nearest : Nearest exact rounded)
    (nearestAbove : Nearest larger above) (ordered : exact ≤ larger) : rounded ≤ above := by
  by_contra crossed
  have apart : (above : Rat) + 1 ≤ rounded := by exact_mod_cast Int.not_le.mp crossed
  rcases abs_le.mp nearest.near with ⟨low, -⟩
  rcases abs_le.mp nearestAbove.near with ⟨-, high⟩
  -- The integers are neighbours and both numbers lie halfway between them, so one tie
  -- went down and the other up.
  have tie : exact = above + 1 / 2 := by linarith
  have next : (rounded : Rat) = above + 1 := by linarith
  have same : larger = exact := by linarith
  have away := nearest.away (by rw [tie, next]; norm_num)
  have awayAbove := nearestAbove.away (by rw [same, tie]; norm_num)
  rw [tie, next] at away
  rw [same, tie] at awayAbove
  rcases Int.lt_or_le above 0 with below | natural
  · have unit : (above : Rat) ≤ -1 := by exact_mod_cast Int.le_sub_one_of_lt below
    rw [abs_of_nonpos (by linarith), abs_of_nonpos (by linarith)] at away
    linarith
  · have unit : (0 : Rat) ≤ above := by exact_mod_cast natural
    rw [abs_of_nonneg (by linarith), abs_of_nonneg unit] at awayAbove
    linarith

theorem unique {exact : Rat} {rounded other : Int} (nearest : Nearest exact rounded)
    (nearestOther : Nearest exact other) : rounded = other :=
  Int.le_antisymm (nearest.mono nearestOther le_rfl) (nearestOther.mono nearest le_rfl)

/-- A number rounds below zero when it is at least a half below zero. -/
theorem neg_iff {exact : Rat} {rounded : Int} (nearest : Nearest exact rounded) :
    rounded < 0 ↔ exact < 0 ∧ 1 / 2 ≤ |exact| := by
  rcases abs_le.mp nearest.near with ⟨low, high⟩
  constructor
  · intro below
    have unit : (rounded : Rat) ≤ -1 := by exact_mod_cast Int.le_sub_one_of_lt below
    have negative : exact < 0 := by linarith
    rw [abs_of_neg negative]
    exact ⟨negative, by linarith⟩
  · intro half
    rw [abs_of_neg half.1] at half
    by_contra above
    have natural : (0 : Rat) ≤ rounded := by exact_mod_cast Int.not_lt.mp above
    have zero : (rounded : Rat) = 0 := by linarith
    have away := nearest.away (by rw [zero, sub_zero, abs_of_neg half.1]; linarith)
    rw [zero, abs_zero] at away
    exact absurd (abs_nonneg exact) (not_le.mpr away)

end Nearest

/-- Adding half a denominator before dividing rounds a fraction to the nearest integer. -/
theorem nearest_quotient (numerator : Nat) {denominator : Nat} (positive : 0 < denominator) :
    Nearest (numerator / denominator)
      ((2 * numerator + denominator) / (2 * denominator) : Nat) := by
  have nonzero : (denominator : Rat) ≠ 0 := by exact_mod_cast positive.ne'
  have shifted : ((2 * numerator + denominator : Nat) : Rat) / (2 * denominator : Nat) =
      numerator / denominator + 1 / 2 := by
    push_cast
    field_simp
  have low : (((2 * numerator + denominator) / (2 * denominator) : Nat) : Rat) ≤
      numerator / denominator + 1 / 2 := by
    rw [← shifted]
    exact Nat.cast_div_le
  have high : (numerator : Rat) / denominator + 1 / 2 <
      ((2 * numerator + denominator) / (2 * denominator) : Nat) + 1 := by
    rw [← shifted, ← Nat.floor_div_eq_div (K := Rat)]
    exact Nat.lt_floor_add_one _
  have natural : (0 : Rat) ≤ numerator / denominator := by positivity
  generalize (2 * numerator + denominator) / (2 * denominator) = rounded at low high ⊢
  constructor
  · rw [Int.cast_natCast, abs_le]
    constructor <;> linarith
  · intro tie
    rw [Int.cast_natCast] at tie ⊢
    rw [abs_of_nonneg natural, Nat.abs_cast]
    rcases abs_eq (by norm_num) |>.mp tie with above | below
    · linarith
    · linarith

theorem nearestInteger_spec (value : Rat) : Nearest value (nearestInteger value) := by
  have quotient := nearest_quotient value.num.natAbs value.den_pos
  have magnitude : (value.num.natAbs : Rat) / value.den = |value| := by
    rw [Nat.cast_natAbs, Int.cast_abs, ← Nat.abs_cast value.den, ← abs_div, Rat.num_div_den]
  rw [magnitude] at quotient
  unfold nearestInteger
  dsimp only
  split
  · rename_i below
    rw [abs_of_neg (Rat.num_neg.mp below)] at quotient
    have mirrored := quotient.neg
    rwa [neg_neg] at mirrored
  · rename_i above
    rwa [abs_of_nonneg (Rat.num_nonneg.mp (Int.not_lt.mp above))] at quotient

/-! ## The printed numeral -/

namespace Position

namespace Digits

/-- The digits of a natural number, at least so many of them. -/
def padded (width number : Nat) : Digits where
  characters := (Nat.repr number).toList.leftpad width '0'
  all_digits := by
    intro character member
    rw [Nat.toList_repr] at member
    rcases List.mem_append.mp member with zero | digit
    · rw [List.eq_of_mem_replicate zero]
      rfl
    · exact Nat.isDigit_of_mem_toDigits (by decide) (by decide) digit

theorem number_padded (width number : Nat) : (padded width number).number = number := by
  change Nat.ofDigitChars 10 ((Nat.repr number).toList.leftpad width '0') 0 = number
  rw [Nat.toList_repr, List.leftpad, Nat.ofDigitChars_append, Nat.ofDigitChars_replicate_zero,
    Nat.mul_zero, Nat.ofDigitChars_ten_toDigits]

theorem width_le_length_padded (width number : Nat) :
    width ≤ (padded width number).characters.length := by
  rw [padded, List.length_leftpad]
  exact Nat.le_max_left _ _

def front (places : Nat) (digits : Digits) : Digits where
  characters := digits.characters.take (digits.characters.length - places)
  all_digits := fun character member => digits.all_digits character (List.mem_of_mem_take member)

def back (places : Nat) (digits : Digits) : Digits where
  characters := digits.characters.drop (digits.characters.length - places)
  all_digits := fun character member => digits.all_digits character (List.mem_of_mem_drop member)

theorem front_append_back (places : Nat) (digits : Digits) :
    (digits.front places).characters ++ (digits.back places).characters = digits.characters :=
  List.take_append_drop _ _

theorem front_zero (digits : Digits) : (digits.front 0).characters = digits.characters :=
  List.take_length

theorem front_ne_nil {places : Nat} {digits : Digits} (more : places < digits.characters.length) :
    (digits.front places).characters ≠ [] := by
  rw [← List.length_pos_iff, front, List.length_take]
  omega

theorem length_back {places : Nat} {digits : Digits} (enough : places ≤ digits.characters.length) :
    (digits.back places).characters.length = places := by
  rw [back, List.length_drop]
  omega

end Digits

namespace Numeral

/-- A digit before the point, exactly so many places after it, no point without places
and no exponent. -/
structure Fixed (numeral : Numeral) (places : Nat) : Prop where
  some_whole : numeral.whole.characters ≠ []
  places_eq : numeral.places = places
  no_point : numeral.fraction = none ↔ places = 0
  no_exponent : numeral.exponent = none

/-- An integer counted in units of the last place. -/
def ofUnits (places : Nat) (units : Int) : Numeral :=
  let digits := Digits.padded (places + 1) units.natAbs
  { sign := if units < 0 then some .minus else none
    whole := digits.front places
    fraction := if places = 0 then none else some (digits.back places)
    exponent := none
    some_digit := List.append_ne_nil_of_left_ne_nil
      (Digits.front_ne_nil (Digits.width_le_length_padded _ _)) _ }

variable (places : Nat) (units : Int)

theorem fixed_ofUnits : (ofUnits places units).Fixed places where
  some_whole := Digits.front_ne_nil (Digits.width_le_length_padded _ _)
  places_eq := by
    unfold Numeral.places ofUnits
    dsimp only
    split
    · rename_i noneWanted
      rw [noneWanted]
      rfl
    · exact Digits.length_back (Nat.le_of_succ_le (Digits.width_le_length_padded _ _))
  no_point := by simp [ofUnits]
  no_exponent := rfl

@[simp] theorem number_ofUnits : (ofUnits places units).digits.number = units.natAbs := by
  have same : (ofUnits places units).digits.characters =
      (Digits.padded (places + 1) units.natAbs).characters := by
    unfold Numeral.digits Digits.append ofUnits
    dsimp only
    split
    · rename_i noneWanted
      rw [noneWanted]
      exact (List.append_nil _).trans (Digits.front_zero _)
    · exact Digits.front_append_back _ _
  rw [Digits.number, same]
  exact Digits.number_padded _ _

@[simp] theorem sign_ofUnits : (ofUnits places units).sign = some .minus ↔ units < 0 := by
  simp [ofUnits]

@[simp] theorem power_ofUnits : (ofUnits places units).power = 0 := rfl

theorem unsigned_ofUnits : (ofUnits places units).unsigned = placedDigits places units.natAbs := by
  unfold unsigned mantissa placedDigits ofUnits
  dsimp only
  by_cases noneWanted : places = 0
  · rw [if_pos noneWanted, if_pos noneWanted]
    exact (List.append_nil _).trans (List.append_nil _)
  · rw [if_neg noneWanted, if_neg noneWanted]
    exact List.append_nil _

theorem magnitude_ofUnits : (ofUnits places units).magnitude * 10 ^ places = units.natAbs := by
  rw [magnitude, number_ofUnits, power_ofUnits, (fixed_ofUnits places units).places_eq, zero_sub,
    zpow_neg, zpow_natCast, inv_mul_cancel_right₀ (by positivity)]

theorem value_ofUnits : (ofUnits places units).value * 10 ^ places = units := by
  have magnitude := magnitude_ofUnits places units
  unfold value Sign.apply
  by_cases below : units < 0
  · rw [if_pos ((sign_ofUnits places units).mpr below), neg_mul, magnitude, Nat.cast_natAbs,
      abs_of_neg below, Int.cast_neg, neg_neg]
  · rw [if_neg (below ∘ (sign_ofUnits places units).mp), magnitude, Nat.cast_natAbs,
      abs_of_nonneg (Int.not_lt.mp below)]

theorem characters_ofUnits (value : Rat) :
    (ofUnits places (lastPlaceUnits places value)).characters =
      (fixedText places value).toList := by
  rw [characters, unsigned_ofUnits, fixedText, String.toList_ofList]
  unfold ofUnits
  dsimp only
  split <;> rfl

theorem Fixed.minus_mem_iff {numeral : Numeral} {places : Nat} (fixed : numeral.Fixed places) :
    '-' ∈ numeral.characters ↔ numeral.sign = some .minus := by
  have unsignedPlain : '-' ∉ numeral.unsigned := by
    rw [unsigned, fixed.no_exponent]
    intro member
    rcases numeral.mantissa_spec '-' (by simpa using member) with digit | point
    · exact absurd digit (by decide)
    · exact absurd point (by decide)
  rw [characters, List.mem_append, or_iff_left unsignedPlain]
  cases numeral.sign with
  | none => simp [Sign.written]
  | some sign => cases sign <;> decide

end Numeral

def Denotes (text : String) (number : Rat) : Prop :=
  ∃ numeral : Numeral, numeral.characters = text.toList ∧ numeral.value = number

end Position

/-! ## Reading it back -/

open Position

section

variable {places : Nat} {value : Rat}

theorem nearest_lastPlaceUnits : Nearest (value * 10 ^ places) (lastPlaceUnits places value) := by
  have scale : (powerOfTen places : Rat) = 10 ^ places := by
    simp
  rw [lastPlaceUnits, scale]
  exact nearestInteger_spec _

/-- The one number that a printed text denotes. -/
theorem denotes_fixedText_iff {number : Rat} :
    Denotes (fixedText places value) number ↔
      number * 10 ^ places = lastPlaceUnits places value := by
  have printed := Numeral.characters_ofUnits places value
  have denoted := Numeral.value_ofUnits places (lastPlaceUnits places value)
  constructor
  · intro denotes
    rcases denotes with ⟨numeral, written, rfl⟩
    rw [Numeral.value_eq_of_characters_eq (written.trans printed.symm), denoted]
  · intro scaled
    have positive : (10 : Rat) ^ places ≠ 0 := by positivity
    exact ⟨_, printed, mul_right_cancel₀ positive (denoted.trans scaled.symm)⟩

theorem minus_printed_iff :
    '-' ∈ (fixedText places value).toList ↔ lastPlaceUnits places value < 0 := by
  rw [← Numeral.characters_ofUnits, (Numeral.fixed_ofUnits places _).minus_mem_iff,
    Numeral.sign_ofUnits]

theorem read_fixedText : DecimalText.read (fixedText places value) =
    if lastPlaceUnits places value < 0 then .refuse (.negative (fixedText places value))
    else .ok (Numeral.ofUnits places (lastPlaceUnits places value)).magnitude := by
  have written : Text.trim (fixedText places value).toList =
      (Numeral.ofUnits places (lastPlaceUnits places value)).characters := by
    rw [← Numeral.characters_ofUnits]
    exact Text.trim_of_no_blank (Numeral.no_blank _)
  have small : (Numeral.ofUnits places (lastPlaceUnits places value)).power.natAbs ≤
      DecimalText.exponentLimit := Nat.zero_le _
  rw [DecimalText.read_numeral written small]
  refine if_congr ?_ rfl rfl
  rw [Numeral.sign_ofUnits, Numeral.number_ofUnits]
  omega

theorem read_fixedText_of_natural (natural : 0 ≤ lastPlaceUnits places value) :
    ∃ back, DecimalText.read (fixedText places value) = .ok back ∧
      back * 10 ^ places = lastPlaceUnits places value := by
  refine ⟨_, read_fixedText.trans (if_neg (Int.not_lt.mpr natural)), ?_⟩
  rw [Numeral.magnitude_ofUnits, Nat.cast_natAbs, abs_of_nonneg natural]

end

/-- What is promised of a number that is printed with fixed places. -/
structure PrintedFaithfully (places : Nat) (value : Rat) : Prop where
  layout : ∃ numeral : Numeral,
    numeral.characters = (fixedText places value).toList ∧ numeral.Fixed places
  minus : '-' ∈ (fixedText places value).toList ↔ value < 0 ∧ 1 / 2 ≤ |value| * 10 ^ places
  refused : '-' ∈ (fixedText places value).toList ->
    DecimalText.read (fixedText places value) = .refuse (.negative (fixedText places value))
  rounded : '-' ∉ (fixedText places value).toList ->
    ∃ (back : Rat) (units : Int), DecimalText.read (fixedText places value) = .ok back ∧
      back * 10 ^ places = units ∧ Nearest (value * 10 ^ places) units
  unchanged : ∀ units : Nat, value * 10 ^ places = units ->
    DecimalText.read (fixedText places value) = .ok value
  denotes_one : ∃! number, Denotes (fixedText places value) number
  ordered : ∀ larger, value ≤ larger -> ∀ number above,
    Denotes (fixedText places value) number -> Denotes (fixedText places larger) above ->
      number ≤ above

/-- Printing with fixed places and reading agree, for every number and every count of
places. -/
theorem fixedText_reads_back (places : Nat) (value : Rat) : PrintedFaithfully places value := by
  have positive : (0 : Rat) < 10 ^ places := by positivity
  constructor
  case layout =>
    exact ⟨_, Numeral.characters_ofUnits places value, Numeral.fixed_ofUnits places _⟩
  case minus =>
    rw [minus_printed_iff, nearest_lastPlaceUnits.neg_iff, abs_mul, abs_of_pos positive, ← not_le,
      mul_nonneg_iff_of_pos_right positive, not_le]
  case refused =>
    intro minus
    rw [read_fixedText, if_pos (minus_printed_iff.mp minus)]
  case rounded =>
    intro noMinus
    rcases read_fixedText_of_natural (Int.not_lt.mp (noMinus ∘ minus_printed_iff.mpr)) with
      ⟨back, accepted, same⟩
    exact ⟨back, _, accepted, same, nearest_lastPlaceUnits⟩
  case unchanged =>
    intro units exactUnits
    have nearest : Nearest (value * 10 ^ places) (units : Int) := by
      rw [exactUnits]
      exact_mod_cast Nearest.ofInt units
    have found : lastPlaceUnits places value = units := nearest_lastPlaceUnits.unique nearest
    rcases read_fixedText_of_natural (by rw [found]; exact Int.natCast_nonneg units) with
      ⟨back, accepted, same⟩
    rw [found, Int.cast_natCast, ← exactUnits] at same
    rw [accepted, mul_right_cancel₀ positive.ne' same]
  case denotes_one =>
    simp only [denotes_fixedText_iff, ← eq_div_iff positive.ne', existsUnique_eq]
  case ordered =>
    intro larger smaller number above denotes denotesAbove
    rw [denotes_fixedText_iff] at denotes denotesAbove
    have scaled : value * 10 ^ places ≤ larger * 10 ^ places :=
      mul_le_mul_of_nonneg_right smaller positive.le
    have unitsOrdered := nearest_lastPlaceUnits.mono nearest_lastPlaceUnits scaled
    rw [← mul_le_mul_iff_left₀ positive, denotes, denotesAbove]
    exact_mod_cast unitsOrdered

/-- A half goes away from zero, and what rounds to zero has no sign. -/
example : fixedText 0 (5 / 2) = "3" ∧ fixedText 1 (-1 / 100) = "0.0" := by decide +kernel

end PackedLedger
