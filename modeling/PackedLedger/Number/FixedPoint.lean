import PackedLedger.Attempt
import PackedLedger.Number.Digits
import PackedLedger.Rejection

namespace PackedLedger

/-!
# Logarithms and exponentials on a fixed-point grid

Rationals are exact, but logarithms and exponentials cannot be.  They are
evaluated on integers that count steps of `1 / scale`, with a few digits more
than were asked for.  A logarithm splits off the power of two and sums the
series of the inverse hyperbolic tangent; an exponential splits off the
multiple of the logarithm of two and sums the Taylor series.  Each term is
rounded toward zero, and a sum ends at its first zero term.
-/

namespace FixedPoint

variable {Reason : Type}

/-- Digits carried beyond those asked for. -/
def guardDigits : Nat := 10

/-- Add the terms after `sum` of the inverse hyperbolic tangent.  The power of
the argument with odd exponent `count` is `power`, and `square` is the square
of the argument. -/
def tangentTail (scale : Nat) (square power sum : Int) (count : Nat) : Attempt Reason Int :=
  let next := (power * square).tdiv scale
  if count + 2 < Checked.wordLimit then
    let term := next.tdiv ((count + 2 : Nat) : Int)
    if term = 0 then .ok sum else tangentTail scale square next (sum + term) (count + 2)
  else .breakDown .wordOverflow
termination_by Checked.wordLimit - count

/-- The inverse hyperbolic tangent of `argument / scale`, in steps. -/
def inverseTangent (scale : Nat) (argument : Int) : Attempt Reason Int :=
  tangentTail scale ((argument * argument).tdiv scale) argument argument 1

/-- Add the terms after `sum` of the exponential of `exponent / scale`.  The
last term added is `term`, and `count` is the index of the next one. -/
def exponentialTail (scale : Nat) (exponent term sum : Int) (count : Nat) :
    Attempt Reason Int :=
  let next := (term * exponent).tdiv ((scale * count : Nat) : Int)
  if next = 0 then .ok sum
  else if count + 1 < Checked.wordLimit then
    exponentialTail scale exponent next (sum + next) (count + 1)
  else .breakDown .wordOverflow
termination_by Checked.wordLimit - count

/-- A positive rational as a power of two times a mantissa in steps, which
lies between one and two. -/
structure Octave where
  exponent : Int
  mantissa : Nat
  deriving Repr, DecidableEq

/-- The number of steps in `value / 2 ^ exponent`, rounded down. -/
def shiftedSteps (scale : Nat) (value : Rat) : Int -> Nat
  | .ofNat shift => value.num.natAbs * scale / (value.den * powerOfTwo shift)
  | .negSucc shift => value.num.natAbs * scale * powerOfTwo (shift + 1) / value.den

/-- Split a positive rational into its octave and mantissa.  The difference of
the bit lengths is the exponent or one more than it. -/
def Octave.of (scale : Nat) (value : Rat) : Octave :=
  let estimate : Int := (bitLength value.num.natAbs : Int) - bitLength value.den
  let mantissa := shiftedSteps scale value estimate
  if mantissa < scale then ⟨estimate - 1, shiftedSteps scale value (estimate - 1)⟩
  else ⟨estimate, mantissa⟩

/-- A grid of steps, with the logarithm of two on it. -/
structure Grid where
  scale : Nat
  ln2 : Int
  scale_pos : 0 < scale
  deriving Repr, DecidableEq

namespace Grid

/-- The grid that carries `digits` decimal digits and the guard digits.  The
logarithm of two is twice the inverse hyperbolic tangent of a third. -/
def ofDigits (digits : Nat) : Attempt Reason Grid := do
  let carried ← Checked.wordSum digits guardDigits
  let scale := powerOfTen carried
  let half ← inverseTangent scale ((scale / 3 : Nat) : Int)
  return ⟨scale, half * 2, powerOfTen_pos _⟩

/-- The exact value of a number of steps. -/
def value (grid : Grid) (steps : Int) : Rat :=
  mkRat steps grid.scale

/-- The number of steps in `value`, rounded toward zero. -/
def steps (grid : Grid) (value : Rat) : Int :=
  (value.num * grid.scale).tdiv value.den

/-- The natural logarithm of a positive rational, in steps. -/
def ln (grid : Grid) (value : Rat) : Verdict Int :=
  if value.num ≤ 0 then .refuse (.invalidParameter (.logarithmOf value))
  else do
    let octave := Octave.of grid.scale value
    let mantissa : Int := octave.mantissa
    let argument ←
      Checked.truncatedQuotient ((mantissa - grid.scale) * grid.scale) (mantissa + grid.scale)
    let half ← inverseTangent grid.scale argument
    return grid.ln2 * octave.exponent + half * 2

/-- A number of steps as a multiple of the logarithm of two and a rest of at
most half of it. -/
structure Reduced where
  multiple : Int
  rest : Int
  deriving Repr, DecidableEq

def reduce (grid : Grid) (steps : Int) : Attempt Reason Reduced := do
  let multiple ← Checked.floorQuotient (steps * 2 + grid.ln2) (grid.ln2 * 2)
  return ⟨multiple, steps - multiple * grid.ln2⟩

/-- The exponential of a number of steps, in steps, rounded down. -/
def exp (grid : Grid) (steps : Int) : Attempt Reason Int := do
  let reduced ← grid.reduce steps
  let sum ← exponentialTail grid.scale reduced.rest grid.scale grid.scale 1
  match reduced.multiple with
  | .ofNat shift => return sum * powerOfTwo shift
  | .negSucc shift => return sum >>> (shift + 1)

/-- The decimal logarithm of a positive rational. -/
def log10 (grid : Grid) (value : Rat) : Verdict Rat := do
  let numerator ← grid.ln value
  let denominator ← grid.ln 10
  Checked.fraction numerator denominator

end Grid

end FixedPoint

end PackedLedger
