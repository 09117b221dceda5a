import Mathlib.Algebra.Order.Field.Rat
import PackedLedger.Position

namespace PackedLedger

namespace Position

/-!
# Written numbers

A number is written as an optional sign, digits that a point may divide, and an
optional exponent of ten.  `Numeral` is this grammar as a type: every numeral can be
written, and what is not the writing of a numeral is not a number.  At least one digit
has to stand before the exponent, on either side of the point, and at least one in an
exponent.  What a numeral means is said here, too, by the library's reading of digits
and by a power of ten, without the reader of texts.
-/

inductive Sign where
  | plus
  | minus
  deriving Repr, DecidableEq

namespace Sign

def character : Sign -> Char
  | plus => '+'
  | minus => '-'

def written : Option Sign -> List Char
  | none => []
  | some sign => [sign.character]

def apply {Number : Type} [Neg Number] (sign : Option Sign) (magnitude : Number) : Number :=
  if sign = some .minus then -magnitude else magnitude

end Sign

/-- A run of decimal digits, which may be empty. -/
structure Digits where
  characters : List Char
  all_digits : ∀ character ∈ characters, character.isDigit

namespace Digits

def empty : Digits := ⟨[], fun _ impossible => absurd impossible List.not_mem_nil⟩

/-- The number that the digits stand for, the first one the most significant. -/
def number (digits : Digits) : Nat :=
  Nat.ofDigitChars 10 digits.characters 0

def append (front back : Digits) : Digits where
  characters := front.characters ++ back.characters
  all_digits := List.forall_mem_append.mpr ⟨front.all_digits, back.all_digits⟩

end Digits

/-- An exponent of ten, with its mark. -/
structure Exponent where
  mark : Char
  sign : Option Sign
  digits : Digits
  marks : mark = 'e' ∨ mark = 'E'
  some_digit : digits.characters ≠ []

namespace Exponent

def characters (exponent : Exponent) : List Char :=
  exponent.mark :: (Sign.written exponent.sign ++ exponent.digits.characters)

def value (exponent : Exponent) : Int :=
  Sign.apply exponent.sign (exponent.digits.number : Int)

end Exponent

/-- A written number. -/
structure Numeral where
  sign : Option Sign
  whole : Digits
  /-- The digits after the point, if there is a point. -/
  fraction : Option Digits
  exponent : Option Exponent
  some_digit : (whole.append (fraction.getD .empty)).characters ≠ []

namespace Numeral

def digits (numeral : Numeral) : Digits :=
  numeral.whole.append (numeral.fraction.getD .empty)

def places (numeral : Numeral) : Nat :=
  (numeral.fraction.getD .empty).characters.length

/-- What stands between the sign and the exponent. -/
def mantissa (numeral : Numeral) : List Char :=
  numeral.whole.characters ++ numeral.fraction.elim [] fun fraction => '.' :: fraction.characters

def unsigned (numeral : Numeral) : List Char :=
  numeral.mantissa ++ numeral.exponent.elim [] Exponent.characters

def characters (numeral : Numeral) : List Char :=
  Sign.written numeral.sign ++ numeral.unsigned

def power (numeral : Numeral) : Int :=
  numeral.exponent.elim 0 Exponent.value

def magnitude (numeral : Numeral) : Rat :=
  (numeral.digits.number : Rat) * 10 ^ (numeral.power - numeral.places)

/-- The exact number. -/
def value (numeral : Numeral) : Rat :=
  Sign.apply numeral.sign numeral.magnitude

end Numeral

/-! ## Digits are nothing else -/

theorem ne_of_isDigit {character other : Char} (digit : character.isDigit)
    (noDigit : other.isDigit = false) : character ≠ other := by
  intro same
  rw [same, noDigit] at digit
  cases digit

/-- A number is zero exactly when all its digits are. -/
theorem Digits.number_eq_zero_iff {digits : Digits} :
    digits.number = 0 ↔ ∀ character ∈ digits.characters, character = '0' := by
  rcases digits with ⟨characters, allDigits⟩
  simp only [number]
  induction characters with
  | nil => simp
  | cons first rest inductionHypothesis =>
      have digit := Char.isDigit_iff_toNat.mp (allDigits first List.mem_cons_self)
      have zero : first.toNat - '0'.toNat = 0 ↔ first = '0' := by
        rw [← Char.toNat_inj]
        omega
      rw [List.forall_mem_cons, ← inductionHypothesis (List.forall_mem_cons.mp allDigits).2,
        ← zero, Nat.ofDigitChars_cons, Nat.ofDigitChars_eq_ofDigitChars_zero]
      have power : 0 < 10 ^ rest.length := Nat.pow_pos (by decide)
      rw [Nat.mul_zero, Nat.zero_add, Nat.add_eq_zero_iff, Nat.mul_eq_zero]
      omega

namespace Numeral

theorem exists_unsigned_eq_cons (numeral : Numeral) :
    ∃ first rest, numeral.unsigned = first :: rest ∧ (first.isDigit ∨ first = '.') := by
  rcases numeral with ⟨sign, ⟨whole, wholeDigits⟩, fraction, exponent, someDigit⟩
  cases whole with
  | cons first rest => exact ⟨first, _, rfl, .inl (wholeDigits first List.mem_cons_self)⟩
  | nil =>
      cases fraction with
      | none => exact absurd rfl someDigit
      | some fraction => exact ⟨'.', _, rfl, .inr rfl⟩

theorem mantissa_spec (numeral : Numeral) :
    ∀ character ∈ numeral.mantissa, character.isDigit ∨ character = '.' := by
  intro character member
  rcases List.mem_append.mp member with front | back
  · exact .inl (numeral.whole.all_digits character front)
  · cases found : numeral.fraction with
    | none =>
        rw [found] at back
        exact absurd back List.not_mem_nil
    | some fraction =>
        rw [found] at back
        rcases List.mem_cons.mp back with point | digit
        · exact .inr point
        · exact .inl (fraction.all_digits character digit)

end Numeral

end Position

end PackedLedger
