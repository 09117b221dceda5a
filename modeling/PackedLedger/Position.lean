import PackedLedger.Attempt
import PackedLedger.Number.Digits
import PackedLedger.Text

namespace PackedLedger

/-!
# Concentrated-liquidity positions

A position is given by decimal texts for its liquidity and its prices, and its
amounts follow from their exact values.  A fault says why there are none.
-/

namespace Position

/-- One end of a price range. -/
inductive Bound where
  | lower
  | upper
  deriving Repr, DecidableEq

def Bound.text : Bound -> String
  | lower => "lower"
  | upper => "upper"

/-- One of the two tokens of a position. -/
inductive Token where
  | first
  | second
  deriving Repr, DecidableEq

def Token.text : Token -> String
  | first => "token0"
  | second => "token1"

inductive Fault where
  /-- The text is not a plain decimal number. -/
  | malformed (text : String)
  /-- A value is below zero. -/
  | negative (text : String)
  /-- A bound is zero, and the range would divide by it. -/
  | zeroBound (bound : Bound)
  /-- The lower bound is above the upper one. -/
  | invertedRange (lower upper : Rat)
  /-- An amount does not fit a word. -/
  | overflow (token : Token) (bits : Nat)
  deriving Repr, DecidableEq

namespace Fault

/-- The class of fault in structured answers. -/
def label : Fault -> String
  | malformed _ => "malformed"
  | negative _ => "negative"
  | zeroBound _ => "zero_bound"
  | invertedRange .. => "inverted_range"
  | overflow .. => "overflow"

def message : Fault -> String
  | malformed text => s!"`{text}` is not a decimal number"
  | negative text => s!"`{text}` is negative"
  | zeroBound bound => s!"{bound.text} sqrt price is zero"
  | invertedRange lower upper =>
    s!"sqrt price range is inverted (lower {exactText lower} > upper {exactText upper})"
  | overflow token bits => s!"{token.text} amount needs {bits} bits, more than 256"

end Fault

/-!
## Reading decimal numbers

A decimal number is an optional sign, digits that a point may divide, and an
optional exponent of ten.  At least one digit is needed before the exponent.
The value is exact.  A value below zero is a fault of its own, so a minus sign
is only accepted in front of zero.
-/

namespace DecimalText

/-- The largest magnitude of an exponent. -/
def exponentLimit : Nat := 4096

def isExponentMark (character : Char) : Bool :=
  character == 'e' || character == 'E'

/-- Split at the first exponent mark, if there is one. -/
def splitExponent (characters : List Char) : List Char × Option (List Char) :=
  match characters.span fun character => !isExponentMark character with
  | (mantissa, _ :: exponent) => (mantissa, some exponent)
  | (mantissa, []) => (mantissa, none)

/-- Split at the first point.  Without one there is no fraction. -/
def splitPoint (mantissa : List Char) : List Char × List Char :=
  match mantissa.span fun character => character != '.' with
  | (whole, _ :: fraction) => (whole, fraction)
  | (whole, []) => (whole, [])

/-- The magnitude of an exponent.  The least word has none. -/
def exponentMagnitude (exponent : Int) : Attempt Fault Nat :=
  if exponent = -(powerOfTwo 63 : Int) then .breakDown .wordOverflow else .ok exponent.natAbs

/-- `digits` counted in steps of ten to `exponent`. -/
def scaled (digits : Nat) (exponent : Int) : Rat :=
  match exponent with
  | .ofNat shift => ((digits * powerOfTen shift : Nat) : Rat)
  | .negSucc shift => mkRat digits (powerOfTen (shift + 1))

/-- The exact value of a decimal number, with blanks around it or not.  Faults
quote the text as it was given. -/
def read (text : String) : Attempt Fault Rat := do
  let (negative, unsigned) := Text.splitSign (Text.trim text.toList)
  let (mantissa, written) := splitExponent unsigned
  match (written.map Text.signedWord?).getD (some 0) with
  | none => .refuse (.malformed text)
  | some exponent =>
    let magnitude ← exponentMagnitude exponent
    if exponentLimit < magnitude then .refuse (.malformed text)
    else
      let (whole, fraction) := splitPoint mantissa
      match Text.natural? (whole ++ fraction) with
      | none => .refuse (.malformed text)
      | some digits =>
        if negative ∧ digits ≠ 0 then .refuse (.negative text)
        else return scaled digits (exponent - fraction.length)

end DecimalText

/-!
## Token amounts of a concentrated-liquidity position

Prices are square roots in fixed point with 96 binary places.  Below its range
a position is all first token, above it all second token, and inside it splits
at the price.  All intermediate values are exact and only the final amounts are
truncated, so the order of the operations does not matter.
-/

/-- The number of steps in one unit of a square-root price. -/
def priceScale : Rat :=
  (powerOfTwo 96 : Rat)

/-- The width of an amount. -/
def amountBits : Nat := 256

/-- A position as seen at a price. -/
structure Query where
  price : Rat
  lower : Rat
  upper : Rat
  liquidity : Rat
  deriving Repr, DecidableEq

namespace Query

/-- The first fault of a query: a negative value, then a zero bound, then an
inverted range. -/
def fault? (query : Query) : Option Fault :=
  match [query.price, query.lower, query.upper, query.liquidity].find? fun value => value < 0 with
  | some value => some (.negative (exactText value))
  | none =>
    if query.lower = 0 then some (.zeroBound .lower)
    else if query.upper = 0 then some (.zeroBound .upper)
    else if query.upper < query.lower then some (.invertedRange query.lower query.upper)
    else none

/-- The exact value of each token. -/
def exactValues (query : Query) : Attempt Fault (Rat × Rat) := do
  let price := query.price
  let lower := query.lower
  let upper := query.upper
  let liquidity := query.liquidity
  if price ≤ lower then
    let perUpper ← Checked.ratio (liquidity * priceScale * (upper - lower)) upper
    let full ← Checked.ratio perUpper lower
    return (full * price / priceScale * price / priceScale, 0)
  else if price < upper then
    let perUpper ← Checked.ratio (liquidity * priceScale * (upper - price)) upper
    return (perUpper / priceScale * price / priceScale, liquidity * (price - lower) / priceScale)
  else
    return (0, liquidity * (upper - lower) / priceScale)

end Query

/-- The whole part of an amount, refused when it does not fit a word. -/
def wholeAmount (token : Token) (value : Rat) : Attempt Fault Nat :=
  let whole := value.num.natAbs / value.den
  if amountBits < bitLength whole then .refuse (.overflow token (bitLength whole)) else .ok whole

/-- Token amounts held by a position. -/
structure Amounts where
  first : Nat
  second : Nat
  deriving Repr, DecidableEq

/-- The amounts of a position at a price. -/
def Query.amounts (query : Query) : Attempt Fault Amounts := do
  match query.fault? with
  | some fault => .refuse fault
  | none =>
    let (firstValue, secondValue) ← query.exactValues
    let first ← wholeAmount .first firstValue
    let second ← wholeAmount .second secondValue
    return ⟨first, second⟩

namespace Amounts

/-- An amount as 64 hexadecimal digits. -/
def wordDigits (amount : Nat) : List Char :=
  (Nat.toDigits 16 amount).leftpad 64 '0'

/-- Both amounts as one hexadecimal word pair. -/
def hex (amounts : Amounts) : String :=
  String.ofList ('0' :: 'x' :: (wordDigits amounts.first ++ wordDigits amounts.second))

end Amounts

end Position

end PackedLedger
