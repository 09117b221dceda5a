namespace PackedLedger

/-!
# Powers, sizes and texts of numbers

Widths count in powers of two and decimals in powers of ten.  Both are powers
of natural numbers by name, so that they mean the same wherever they are used.
-/

/-- The number of values of `exponent` bits. -/
def powerOfTwo (exponent : Nat) : Nat :=
  Nat.pow 2 exponent

/-- The number of values of `exponent` decimal digits. -/
def powerOfTen (exponent : Nat) : Nat :=
  Nat.pow 10 exponent

theorem powerOfTwo_pos (exponent : Nat) : 0 < powerOfTwo exponent :=
  Nat.pow_pos (by decide)

theorem powerOfTen_pos (exponent : Nat) : 0 < powerOfTen exponent :=
  Nat.pow_pos (by decide)

theorem powerOfTen_succ (exponent : Nat) :
    powerOfTen (exponent + 1) = powerOfTen exponent * 10 := rfl

/-!
## Sizes of natural numbers

Widths are counted in bits and magnitudes in decimal digits.  Zero has no bits
and one decimal digit.
-/

/-- The number of bits of `value`, none for zero. -/
def bitLength (value : Nat) : Nat :=
  if value = 0 then 0 else value.log2 + 1

/-- The number of decimal digits of `value`, one for zero. -/
def decimalDigits (value : Nat) : Nat :=
  if value < 10 then 1 else decimalDigits (value / 10) + 1

/-- The largest value of a field that is `bits` wide. -/
def fieldMaximum (bits : Nat) : Nat :=
  powerOfTwo bits - 1

/-- The order of magnitude of `value / 10 ^ shift`: the largest `k` for which
`10 ^ k` does not exceed it, when `value` is positive. -/
def orderOfMagnitude (value shift : Nat) : Int :=
  (decimalDigits value : Int) - 1 - shift

theorem fieldMaximum_add_one (bits : Nat) : fieldMaximum bits + 1 = powerOfTwo bits :=
  Nat.sub_add_cancel (powerOfTwo_pos bits)

theorem decimalDigits_pos (value : Nat) : 0 < decimalDigits value := by
  rw [decimalDigits]
  split <;> omega

/-!
## Text of exact rationals

Reports show a rational with a fixed number of decimal places, rounded to the
nearest such number, with a half going away from zero.  A sign is written only
when the rounded number is below zero, so a small negative value prints as a
plain zero.  Messages that quote a value exactly write it as a fraction.
-/

/-- The integer nearest to `value`, a half going away from zero. -/
def nearestInteger (value : Rat) : Int :=
  let magnitude := (2 * value.num.natAbs + value.den) / (2 * value.den)
  if value.num < 0 then -(magnitude : Int) else magnitude

/-- The number of units of the last of `places` decimal places in `value`. -/
def lastPlaceUnits (places : Nat) (value : Rat) : Int :=
  nearestInteger (value * (powerOfTen places : Rat))

/-- The digits of `units / 10 ^ places`, at least one before the point and
exactly `places` after it.  There is no point without places. -/
def placedDigits (places units : Nat) : List Char :=
  let digits := (Nat.repr units).toList.leftpad (places + 1) '0'
  let whole := digits.take (digits.length - places)
  let fraction := digits.drop (digits.length - places)
  if places = 0 then whole else whole ++ '.' :: fraction

/-- `value` with exactly `places` decimal places. -/
def fixedText (places : Nat) (value : Rat) : String :=
  let units := lastPlaceUnits places value
  let digits := placedDigits places units.natAbs
  String.ofList (if units < 0 then '-' :: digits else digits)

/-- `value` as a fraction in lowest terms, or as an integer when it is one. -/
def exactText (value : Rat) : String :=
  if value.den = 1 then toString value.num
  else toString value.num ++ "/" ++ toString value.den

/-- `value` as a multiple of one hundredth. -/
def percent (value : Rat) : Rat :=
  value * 100

end PackedLedger
