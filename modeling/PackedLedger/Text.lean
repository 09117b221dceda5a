import PackedLedger.Number.Digits

namespace PackedLedger

/-!
# Blanks and integers of a text

The characters that Unicode counts as white space are blank.  Surrounding ones
are not part of what a text says.
-/

namespace Text

/-- The code points with the White_Space property, as inclusive ranges. -/
def blankRanges : List (Nat × Nat) :=
  [(0x0009, 0x000D), (0x0020, 0x0020), (0x0085, 0x0085), (0x00A0, 0x00A0), (0x1680, 0x1680),
   (0x2000, 0x200A), (0x2028, 0x2029), (0x202F, 0x202F), (0x205F, 0x205F), (0x3000, 0x3000)]

def isBlank (character : Char) : Bool :=
  blankRanges.any fun (first, last) => first ≤ character.toNat && character.toNat ≤ last

/-- What is left without the blanks at both ends. -/
def trim (characters : List Char) : List Char :=
  ((characters.dropWhile isBlank).reverse.dropWhile isBlank).reverse

/-!
## Integers written in decimal

Digits are the ten ASCII ones, any number of them, leading zeros included.  A
sign is optional.  Readers that fill a word refuse a value that does not fit.
-/

/-- The value of a list of digits, the first one the most significant. -/
def digitsValue (digits : List Char) : Nat :=
  digits.foldl (fun value digit => 10 * value + (digit.toNat - '0'.toNat)) 0

/-- Read one or more digits. -/
def natural? (characters : List Char) : Option Nat :=
  if !characters.isEmpty && characters.all Char.isDigit then some (digitsValue characters)
  else none

/-- Split off a sign, and say whether it is a minus. -/
def splitSign : List Char -> Bool × List Char
  | '-' :: rest => (true, rest)
  | '+' :: rest => (false, rest)
  | characters => (false, characters)

/-- Read an optional sign and one or more digits. -/
def integer? (characters : List Char) : Option Int :=
  let (negative, digits) := splitSign characters
  (natural? digits).map fun value => if negative then -(value : Int) else value

/-- The integer fits a signed word of so many bits. -/
def FitsSigned (bits : Nat) (value : Int) : Prop :=
  -(powerOfTwo (bits - 1) : Int) ≤ value ∧ value < powerOfTwo (bits - 1)

instance (bits : Nat) (value : Int) : Decidable (FitsSigned bits value) :=
  inferInstanceAs (Decidable (_ ∧ _))

/-- Read an integer that fits a signed word of 64 bits. -/
def signedWord? (characters : List Char) : Option Int :=
  (integer? characters).filter fun value => decide (FitsSigned 64 value)

/-- Read a natural number of at most 64 bits, which may have a plus sign. -/
def unsignedWord? (characters : List Char) : Option Nat :=
  let digits := match characters with
    | '+' :: rest => rest
    | _ => characters
  (natural? digits).filter fun value => decide (value < powerOfTwo 64)

end Text

end PackedLedger
