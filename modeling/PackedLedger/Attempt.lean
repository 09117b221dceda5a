namespace PackedLedger

/-!
# How a computation can end without a value

A design can be turned down for a reason that its author can act on, and a
computation can reach a step that has no result at all: a division by zero, a
difference below zero, a sum too wide for its word.  The two are kept apart.
`Failure.refused` carries the reason and `Failure.undefined` the step, so that
"always answered with a value or a reason" can be said of a function.
-/

/-- A step of arithmetic that has no result. -/
inductive Breakdown where
  | zeroDivisor
  | negativeDifference
  | wordOverflow
  | emptyRange
  | brokenInvariant
  deriving Repr, DecidableEq

/-- Why there is no value.  The reasons for a refusal belong to the subject. -/
inductive Failure (Reason : Type) where
  | refused (reason : Reason)
  | undefined (step : Breakdown)
  deriving Repr, DecidableEq

/-- A value, a reason against it, or the step at which it broke down. -/
abbrev Attempt (Reason : Type) := Except (Failure Reason)

namespace Attempt

/-- Turn the subject down. -/
def refuse {Reason Value : Type} (reason : Reason) : Attempt Reason Value :=
  .error (.refused reason)

/-- Break down at a step without a result. -/
def breakDown {Reason Value : Type} (step : Breakdown) : Attempt Reason Value :=
  .error (.undefined step)

@[simp] theorem ok_bind {Reason Value Result : Type} (value : Value)
    (next : Value -> Attempt Reason Result) :
    ((.ok value : Attempt Reason Value) >>= next) = next value := rfl

@[simp] theorem map_ok {Reason Value Result : Type} (change : Value -> Result) (value : Value) :
    change <$> (.ok value : Attempt Reason Value) = .ok (change value) := rfl

@[simp] theorem pure_eq_ok {Reason Value : Type} {value result : Value} :
    (pure value : Attempt Reason Value) = .ok result ↔ value = result := by
  simp [pure, Except.pure]

/-- Neither a value nor a reason is an answer that was broken off. -/
def Answered {Reason Value : Type} : Attempt Reason Value -> Prop
  | .ok _ => True
  | .error (.refused _) => True
  | .error (.undefined _) => False

end Attempt

/-!
## Arithmetic that says when it has no result

The operators of the natural numbers are total: a difference stops at zero and
a quotient by zero is zero.  The ledger's arithmetic has no such results, so
every subtraction, division and word sum that a design could drive out of its
range goes through one of these.  The divisions share the guard against a
divisor of zero.  Each check has one lemma that removes it once its condition
is known.
-/

namespace Checked

variable {Reason : Type}

/-- One more than the largest value of a 32-bit word. -/
def wordLimit : Nat := 4294967296

/-- The sum of two 32-bit words, if it is one. -/
def wordSum (left right : Nat) : Attempt Reason Nat :=
  if left + right < wordLimit then .ok (left + right) else .breakDown .wordOverflow

/-- The difference of two natural numbers, if it is one. -/
def difference (left right : Nat) : Attempt Reason Nat :=
  if right ≤ left then .ok (left - right) else .breakDown .negativeDifference

/-- A result that there is no use for when a divisor is zero. -/
def unlessZero {Number Result : Type} [OfNat Number 0] [DecidableEq Number] (divisor : Number)
    (result : Result) : Attempt Reason Result :=
  if divisor = 0 then .breakDown .zeroDivisor else .ok result

/-- The quotient of two natural numbers, rounded down. -/
@[simp] def quotient (numerator denominator : Nat) : Attempt Reason Nat :=
  unlessZero denominator (numerator / denominator)

/-- The quotient of two integers, rounded toward zero. -/
@[simp] def truncatedQuotient (numerator denominator : Int) : Attempt Reason Int :=
  unlessZero denominator (numerator.tdiv denominator)

/-- The quotient of two integers, rounded down. -/
@[simp] def floorQuotient (numerator denominator : Int) : Attempt Reason Int :=
  unlessZero denominator (numerator.fdiv denominator)

/-- The exact fraction of two integers. -/
@[simp] def fraction (numerator denominator : Int) : Attempt Reason Rat :=
  unlessZero denominator (Rat.divInt numerator denominator)

/-- The exact quotient of two rationals. -/
@[simp] def ratio (numerator denominator : Rat) : Attempt Reason Rat :=
  unlessZero denominator (numerator / denominator)

@[simp] theorem wordSum_of_lt {left right : Nat} (fits : left + right < wordLimit) :
    (wordSum left right : Attempt Reason Nat) = .ok (left + right) :=
  if_pos fits

@[simp] theorem difference_of_le {left right : Nat} (ordered : right ≤ left) :
    (difference left right : Attempt Reason Nat) = .ok (left - right) :=
  if_pos ordered

@[simp] theorem unlessZero_of_ne {Number Result : Type} [OfNat Number 0] [DecidableEq Number]
    {divisor : Number} {result : Result} (nonzero : divisor ≠ 0) :
    (unlessZero divisor result : Attempt Reason Result) = .ok result :=
  if_neg nonzero

/-- A sum of 32-bit words, taken from the left and broken off where it
leaves the word. -/
def wordTotal (start : Nat) : List Nat -> Attempt Reason Nat
  | [] => .ok start
  | width :: rest =>
    match wordSum start width with
    | .ok next => wordTotal next rest
    | .error failure => .error failure

end Checked

end PackedLedger
