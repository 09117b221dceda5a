import PackedLedger.Envelope
import PackedLedger.Random
import PackedLedger.Scaling

namespace PackedLedger

/-!
# Visibility of every index step

A step of the index is visible when it maps one amount unit to fewer base
units.  The range of the index is far too large to walk, so a sweep checks the
first and the last step exactly, and between them a seeded sample.  A sample is
evidence and no proof, and its size and seed are part of the result.  Draws are
spread over the octaves of the domain, so that short indices are seen as often
as long ones.
-/

/-- The index range of a sweep and the names it reports by. -/
structure Sweep where
  scaling : Scaling
  indexField : String
  borrowsField : String
  /-- The index one smallest accrual above the start, the next of the start. -/
  secondIndex : Nat
  /-- The index one smallest accrual below the end, the highest one drawn. -/
  penultimateIndex : Nat
  deriving Repr

namespace Sweep

variable {Reason : Type}

/-- What a sweep covered. -/
structure Summary where
  samples : Nat
  seed : Nat
  /-- The lowest index that could be drawn. -/
  low : Nat
  /-- The highest index that could be drawn. -/
  high : Nat
  deriving Repr, DecidableEq

/-- A note that so many of all draws have passed. -/
structure Progress where
  done : Nat
  total : Nat
  deriving Repr, DecidableEq

/-- A sweep's notes in the order they were given, and its result. -/
structure Trace where
  progress : List Progress
  result : Verdict Summary

/-- Draws between two notes. -/
def progressInterval : Nat := 1024

/-- The sweep of an allocation over its envelope. -/
def ofAllocation (allocation : Allocation) (envelope : Envelope) : Verdict Sweep := do
  let index ← allocation.requireRole .borrowIndex
  let borrows ← allocation.requireRole .accountBorrows
  return {
    scaling := envelope.scaling
    indexField := index.name
    borrowsField := borrows.name
    secondIndex := envelope.secondIndex
    penultimateIndex := envelope.penultimateIndex }

/-- The base units of one amount unit at an index. -/
def unitBase (sweep : Sweep) (index : Nat) : Verdict Nat :=
  Conversion.toBase sweep.scaling.borrowsScaler sweep.scaling.accrualScaler .raw index 1

/-- Refuse a step to an index that is not larger, or that leaves the base units
of one amount unit where they were. -/
def checkStep (sweep : Sweep) (origin : Origin) (index next : Nat) : Verdict Unit :=
  if next ≤ index then .refuse (.quantization sweep.indexField (.flatIndex origin index))
  else do
    let before ← sweep.unitBase index
    let after ← sweep.unitBase next
    if before ≤ after then
      .refuse (.quantization sweep.borrowsField (.baseUnits origin index next before))
    else return ()

/-- Refuse when the first or the last step is not visible. -/
def checkBoundaries (sweep : Sweep) : Verdict Unit := do
  sweep.checkStep .lowerBoundary sweep.scaling.initialIndex sweep.secondIndex
  sweep.checkStep .upperBoundary sweep.penultimateIndex sweep.scaling.largestIndex

/-- The lowest index of `bits` bits that is not below `low`. -/
def octaveLow (low bits : Nat) : Nat :=
  max low (powerOfTwo (bits - 1))

/-- The highest index of `bits` bits that is not above `high`. -/
def octaveHigh (high bits : Nat) : Nat :=
  min high (fieldMaximum bits)

/-- Draw a bit length between those of the ends, and then an index of that
length between the ends. -/
def drawIndex (low high : Nat) (stream : Random.WordStream) :
    Attempt Reason (Nat × Random.WordStream) := do
  let (bits, stream) ← Random.drawBetween (bitLength low) (bitLength high) stream
  let _ ← Checked.difference bits 1
  Random.drawBelow (octaveLow low bits) (octaveHigh high bits + 1) stream

/-- Whether a note is due once `drawn` of `total` draws have passed. -/
def noteDue (drawn total : Nat) : Bool :=
  drawn % progressInterval == 0 || drawn == total

/-- Draw and check the remaining samples.  Notes are kept latest first. -/
def drawSamples (sweep : Sweep) (seed total : Nat) :
    Nat -> Nat -> Random.WordStream -> List Progress -> List Progress × Verdict Unit
  | 0, _, _, notes => (notes, .ok ())
  | remaining + 1, ordinal, stream, notes =>
    match drawIndex sweep.scaling.initialIndex sweep.penultimateIndex stream with
    | .error failure => (notes, .error failure)
    | .ok (index, stream) =>
      match sweep.checkStep (.sample ordinal seed) index (sweep.scaling.grow index) with
      | .error failure => (notes, .error failure)
      | .ok () =>
        let drawn := ordinal + 1
        let notes := if noteDue drawn total then ⟨drawn, total⟩ :: notes else notes
        drawSamples sweep seed total remaining drawn stream notes

/-- Check both ends and a sample of so many indices between them.  A domain
without an index has nothing to draw from. -/
def run (sweep : Sweep) (samples seed : Nat) : Trace :=
  let low := sweep.scaling.initialIndex
  let high := sweep.penultimateIndex
  match sweep.checkBoundaries with
  | .error failure => ⟨[], .error failure⟩
  | .ok () =>
    if low ≤ high then
      match sweep.drawSamples seed samples samples 0 (.ofSeed seed) [] with
      | (notes, .ok ()) => ⟨notes.reverse, .ok ⟨samples, seed, low, high⟩⟩
      | (notes, .error failure) => ⟨notes.reverse, .error failure⟩
    else ⟨[], .ok ⟨0, seed, low, high⟩⟩

end Sweep

end PackedLedger
