import PackedLedger.Allocation.Lookup
import PackedLedger.Candidate
import PackedLedger.Position

namespace PackedLedger

/-!
# Checking a list of candidates and showing what came of it

Candidates are checked one after another.  The survey ends at the first
rejection unless it is told to go on; whether it counts as passed does not
depend on that.  A check that breaks down ends every survey.
-/

/-- What became of one candidate. -/
inductive Outcome where
  | accepted (report : Report)
  | rejected (assetDecimals : Nat) (reason : Rejection)
  | broken (assetDecimals : Nat) (step : Breakdown)
  deriving Repr, DecidableEq

namespace Outcome

def ofVerdict (assetDecimals : Nat) : Verdict Report -> Outcome
  | .ok report => accepted report
  | .error (.refused reason) => rejected assetDecimals reason
  | .error (.undefined step) => broken assetDecimals step

def isRejected : Outcome -> Bool
  | rejected .. => true
  | accepted _ | broken .. => false

def isBroken : Outcome -> Bool
  | broken .. => true
  | accepted _ | rejected .. => false

/-- Whether a survey ends with this outcome. -/
def endsSurvey (keepGoing : Bool) : Outcome -> Bool
  | accepted _ => false
  | rejected .. => !keepGoing
  | broken .. => true

end Outcome

namespace Survey

/-- The outcomes of candidates up to the one that ends the survey. -/
def outcomes (judge : Nat -> Outcome) (keepGoing : Bool) : List Nat -> List Outcome
  | [] => []
  | candidate :: rest =>
    let outcome := judge candidate
    if outcome.endsSurvey keepGoing then [outcome]
    else outcome :: outcomes judge keepGoing rest

/-- The number of candidates rejected so far. -/
def rejectedCount (outcomes : List Outcome) : Nat :=
  outcomes.countP Outcome.isRejected

/-- Every candidate passed. -/
def Passed (outcomes : List Outcome) : Prop :=
  ∀ outcome ∈ outcomes, outcome.isRejected = false ∧ outcome.isBroken = false

instance (outcomes : List Outcome) : Decidable (Passed outcomes) :=
  inferInstanceAs (Decidable (∀ outcome ∈ outcomes, _))

end Survey

/-!
## What a command prints

Text for readers: headings, metrics in two columns, verdicts with a remedy, the
fields of an allocation.  Structured output is one JSON document.
-/

namespace Command

/-- A line of text. -/
def line (text : String) : String :=
  text ++ "\n"

/-- `text` with blanks behind it up to a width in characters. -/
def padRight (width : Nat) (text : String) : String :=
  String.ofList (text.toList.rightpad width ' ')

/-- `text` with blanks in front of it up to a width in characters. -/
def padLeft (width : Nat) (text : String) : String :=
  String.ofList (text.toList.leftpad width ' ')

/-! ### Outcomes of a check -/

def candidateHeading (assetDecimals : Nat) : String :=
  line "" ++ line s!"=== Candidate: {assetDecimals} asset decimals ==="

def reportText (report : Report) : String :=
  let metric := fun (name, value) => line (padRight 22 (name ++ ":") ++ " " ++ value)
  String.join (report.metrics.map metric) ++ line "✓ all requirements hold"

def remediationLine (reason : Rejection) : String :=
  line s!"remediation: {reason.remediation}"

def rejectionText (reason : Rejection) : String :=
  line s!"✗ {reason.requirement.title}: {reason.message}" ++ "  " ++ remediationLine reason

/-- A candidate's heading and outcome.  A check that broke down leaves only the
heading. -/
def outcomeText : Outcome -> String
  | .accepted report => candidateHeading report.assetDecimals ++ reportText report
  | .rejected assetDecimals reason => candidateHeading assetDecimals ++ rejectionText reason
  | .broken assetDecimals _ => candidateHeading assetDecimals

def outcomeJson : Outcome -> Json
  | .accepted report => .object [("status", .text "accepted"), ("report", report.toJson)]
  | .rejected assetDecimals reason =>
    .object <|
      [("status", .text "rejected"),
       ("asset_decimals", .integer assetDecimals),
       ("kind", .text reason.requirement.label)] ++
      (reason.culprit?.map fun culprit => ("field", .text culprit)).toList ++
      [("error", .text reason.message),
       ("remediation", .text reason.remediation)]
  | .broken .. => .null

/-! ### Allocations -/

def fieldLine (field : Field) : String :=
  let precision := match field.precision with
    | some digits => s!"p={digits}"
    | none => ""
  line <|
    s!"    {padRight 24 field.name} {padLeft 4 (toString field.bits)} bits  " ++
      s!"{padRight 6 precision} {field.role.label}"

def slotText (slot : Slot) (used : Nat) : String :=
  let mark := if used = slot.capacity then "✓" else "✗"
  line "" ++ line s!"{mark} {slot.name} ({used} / {slot.capacity} bits)" ++
    String.join (slot.fields.map fieldLine)

def allocationHeading (allocation : Allocation) : String :=
  line "=== Field Allocation ===" ++ line s!"Layout: {allocation.name}" ++
    line s!"Accrual factor precision: {allocation.accrualPrecision}"

/-- The text of slots up to the first whose widths have no sum, and whether
there is such a slot. -/
def slotsText : List Slot -> String × Option Breakdown
  | [] => ("", none)
  | slot :: rest =>
    match slot.usedBits with
    | .ok used =>
      let (text, step) := slotsText rest
      (slotText slot used ++ text, step)
    | .error (.undefined step) => ("", some step)
    | .error (.refused _) => ("", none)

/-! ### Positions -/

def amountsText (amounts : Position.Amounts) (verbose : Bool) : String :=
  let details :=
    line "=== Position Amounts ===" ++ line s!"value0: {amounts.first}" ++
      line s!"value1: {amounts.second}"
  (if verbose then details else "") ++ line amounts.hex

end Command

end PackedLedger
