import PackedLedger.Command.Arguments
import PackedLedger.Command.Survey
import PackedLedger.Position
import PackedLedger.Settings
import PackedLedger.Settings.Path

namespace PackedLedger

/-!
# Commands

## What a command asks of its surroundings

A command looks up variables, reads and writes files and asks for the time.
`Dialogue` is a command as a tree of such questions: each one comes with what
follows from its answer, and every path ends in a result.  Whoever runs the
tree gives the answers, be it a computer or a table of files.
-/

namespace Command

/-- Why a file could not be read or written. -/
inductive FileFault where
  | missing
  | isDirectory
  | notDirectory
  | denied
  | notText
  | other (description : String)
  deriving Repr, DecidableEq

def FileFault.message : FileFault -> String
  | missing => "No such file or directory (os error 2)"
  | isDirectory => "Is a directory (os error 21)"
  | notDirectory => "Not a directory (os error 20)"
  | denied => "Permission denied (os error 13)"
  | notText => "stream did not contain valid UTF-8"
  | other description => description

inductive Dialogue (Result : Type) where
  | done (result : Result)
  | variable (name : String) (next : Option String -> Dialogue Result)
  | now (next : Nat -> Dialogue Result)
  | read (path : String) (next : Except FileFault String -> Dialogue Result)
  | present (path : String) (next : Bool -> Dialogue Result)
  | write (path text : String) (next : Option FileFault -> Dialogue Result)

namespace Dialogue

/-- Go on from the result of a dialogue. -/
def andThen {First Second : Type} (dialogue : Dialogue First)
    (next : First -> Dialogue Second) : Dialogue Second :=
  match dialogue with
  | .done result => next result
  | .variable name answer => .variable name fun value => (answer value).andThen next
  | .now answer => .now fun time => (answer time).andThen next
  | .read path answer => .read path fun text => (answer text).andThen next
  | .present path answer => .present path fun found => (answer found).andThen next
  | .write path text answer =>
    .write path text fun fault => (answer fault).andThen next

instance : Monad Dialogue where
  pure := .done
  bind := andThen

end Dialogue

/-!
## Running a command

A command ends with what it printed and a status: 0 when it did its work, 1
with a complaint, 2 when the arguments make no sense, and 101 when a computation
broke down.
-/

/-- The end of a command. -/
structure Response where
  status : Nat
  output : String := ""
  errors : String := ""
  deriving Repr, DecidableEq

/-- What went wrong, and what that was due to, the nearest cause first. -/
structure Complaint where
  message : String
  causes : List String := []
  deriving Repr, DecidableEq

/-- The text of a complaint.  A single cause stands alone and several are
numbered. -/
def Complaint.text (complaint : Complaint) : String :=
  let causes := match complaint.causes with
    | [] => ""
    | [cause] => line "" ++ line "Caused by:" ++ line s!"    {cause}"
    | causes =>
      line "" ++ line "Caused by:" ++
        String.join (causes.mapIdx fun position cause => line s!"    {position}: {cause}")
  line s!"Error: {complaint.message}" ++ causes

namespace Response

def complaint (complaint : Complaint) (output : String) : Response :=
  { status := 1, output, errors := complaint.text }

def broken (output : String) : Response :=
  { status := 101, output }

/-- Put text in front of what was printed. -/
def after (text : String) (response : Response) : Response :=
  { response with output := text ++ response.output }

end Response

/-- The environment variable that names the settings file. -/
def settingsVariable : String := "LEDGER_BOUNDS_CONFIG"

def versionLine : String := line "ledger-bounds 0.1.0"

def usageText : String :=
  line "Usage: ledger-bounds [-c CONFIG] [-v] COMMAND" ++
  line "" ++
  line "Commands:" ++
  line "  check        Check the allocation for each asset precision" ++
  line "  amounts      Token amounts of a concentrated-liquidity position" ++
  line "  layout       Show the field allocation under check" ++
  line "  init-config  Write a default config file"

/-! ### Settings and paths -/

/-- A dialogue that may end with a complaint. -/
abbrev Work := ExceptT Complaint Dialogue

def complain {Result : Type} (message : String) (causes : List String) : Work Result :=
  throw ⟨message, causes⟩

/-- Give a path with variables and tilde replaced. -/
def expandPath (path : String) : Work String := do
  let lookup := fun name => Dialogue.variable name Dialogue.done
  match ← (Settings.Path.expand lookup path).run with
  | .ok expanded => return expanded
  | .error unset =>
    let unknown := "environment variable not found"
    complain s!"Failed to expand path: {path}"
      [s!"error looking key '{unset.name}' up: {unknown}", unknown]

/-- Load settings from a file, or take the defaults without one. -/
def loadSettings : Option String -> Work Settings
  | none => return {}
  | some written => do
    let path ← expandPath written
    match ← (Dialogue.read path Dialogue.done : Dialogue _) with
    | .error fault => complain s!"Failed to read config file: {path}" [fault.message]
    | .ok text =>
      match Settings.ofText? text with
      | some settings => return settings
      | none =>
        complain s!"Failed to parse config TOML: {path}" ["not a document of known settings"]

/-! ### Commands -/

/-- The end of a check, given its outcomes and the number of candidates. -/
def surveyResponse (outcomes : List Outcome) (total : Nat) (json : Bool) : Response :=
  let text := String.join (outcomes.map outcomeText)
  let document := line (Json.array (outcomes.map outcomeJson)).document
  if outcomes.any Outcome.isBroken then .broken (if json then "" else text)
  else
    let rejected := Survey.rejectedCount outcomes
    let output := if json then document else text
    if 0 < rejected then
      .complaint ⟨s!"{rejected} of {total} candidates rejected", []⟩ output
    else
      let closing := line "" ++ line s!"✓ all {total} candidate(s) accepted"
      { status := 0, output := if json then output else output ++ closing }

/-- The settings' parameters with those of the command line over them. -/
def CheckOptions.parameters (options : CheckOptions) (settings : Settings) : Parameters :=
  { settings.parameters with
    samples := options.samples.getD settings.parameters.samples
    seed := options.seed.getD settings.parameters.seed }

/-- The assets of the command line, or those of the settings without any. -/
def CheckOptions.candidates (options : CheckOptions) (settings : Settings) : List Nat :=
  if options.assetDecimals.isEmpty then settings.assetDecimals else options.assetDecimals

/-- The time the horizon is measured from: that of the command line, of the
settings, or the current one. -/
def CheckOptions.time (options : CheckOptions) (settings : Settings) : Dialogue Nat :=
  match options.referenceTime.orElse fun _ => settings.referenceTime with
  | some time => return time
  | none => .now .done

/-- The outcome of a check of one candidate. -/
def CheckOptions.judge (options : CheckOptions) (settings : Settings) (now assetDecimals : Nat) :
    Outcome :=
  Outcome.ofVerdict assetDecimals
    (Candidate.check settings.allocation assetDecimals (options.parameters settings) now)

/-- The outcomes of a check of all candidates. -/
def CheckOptions.outcomes (options : CheckOptions) (settings : Settings) (now : Nat) :
    List Outcome :=
  Survey.outcomes (options.judge settings now) options.keepGoing (options.candidates settings)

/-- The end of a check of all candidates. -/
def CheckOptions.response (options : CheckOptions) (settings : Settings) (now : Nat) : Response :=
  surveyResponse (options.outcomes settings now) (options.candidates settings).length options.json

def runCheck (path : Option String) (options : CheckOptions) : Work Response := do
  let settings := (← loadSettings path).withGeneration options.generation
  return options.response settings (← options.time settings)

/-- Show an allocation, with a remedy when its slots are not filled. -/
def layoutResponse (allocation : Allocation) : Response :=
  let (slots, step) := slotsText allocation.slots
  let output := allocationHeading allocation ++ slots
  match step, allocation.checkFilled with
  | some _, _ | _, .error (.undefined _) => .broken output
  | none, .error (.refused reason) =>
    .complaint ⟨reason.message, []⟩ (output ++ line "" ++ remediationLine reason)
  | none, .ok () => { status := 0, output }

def runLayout (path : Option String) (generation : Option Generation) : Work Response := do
  let settings := (← loadSettings path).withGeneration generation
  return layoutResponse settings.allocation

/-- Read one of a position's texts. -/
def readOperand (name text : String) : Except (Failure Complaint) Rat :=
  match Position.DecimalText.read text with
  | .ok value => .ok value
  | .error (.undefined step) => .error (.undefined step)
  | .error (.refused fault) => .error (.refused ⟨s!"Invalid {name}: {text}", [fault.message]⟩)

/-- The amounts of a position from its texts. -/
def positionAmounts (texts : PositionTexts) : Except (Failure Complaint) Position.Amounts := do
  let price ← readOperand "sqrt price" texts.price
  let lower ← readOperand "lower sqrt price" texts.lower
  let upper ← readOperand "upper sqrt price" texts.upper
  let liquidity ← readOperand "liquidity" texts.liquidity
  match (⟨price, lower, upper, liquidity⟩ : Position.Query).amounts with
  | .ok amounts => .ok amounts
  | .error (.undefined step) => .error (.undefined step)
  | .error (.refused fault) =>
    .error (.refused ⟨"Failed to compute position amounts", [fault.message]⟩)

def amountsResponse (texts : PositionTexts) (verbose : Bool) : Response :=
  match positionAmounts texts with
  | .ok amounts => { status := 0, output := amountsText amounts verbose }
  | .error (.undefined _) => .broken ""
  | .error (.refused complaint) => .complaint complaint ""

/-- Write the default settings file, over another one only by force. -/
def runInit (written : String) (force : Bool) : Work Response := do
  let path ← expandPath written
  let present ← (Dialogue.present path Dialogue.done : Dialogue _)
  if present && !force then
    complain s!"Config file already exists: {path}\nUse --force to overwrite it" []
  else
    match ← (Dialogue.write path Settings.defaultDocument Dialogue.done : Dialogue _) with
    | some fault => complain s!"Failed to write config to {path}" [fault.message]
    | none => return { status := 0, output := line s!"Wrote default config to {path}" }

def runTask (invocation : Invocation) : Work Response :=
  match invocation.task with
  | .check options => runCheck invocation.settingsPath options
  | .amounts texts => return amountsResponse texts invocation.verbose
  | .layout generation => runLayout invocation.settingsPath generation
  | .initSettings path force => runInit path force

/-- What a verbose command prints first. -/
def announcement (invocation : Invocation) : String :=
  match invocation.verbose, invocation.settingsPath with
  | true, some path => line s!"Config: {path}"
  | _, _ => ""

/-- Run a command line. -/
def run (arguments : List String) : Dialogue Response :=
  .variable settingsVariable fun environmentPath =>
    match readArguments environmentPath arguments with
    | .error .usage => .done { status := 2, errors := usageText }
    | .error .version => .done { status := 0, output := versionLine }
    | .error .help => .done { status := 0, output := usageText }
    | .ok invocation => do
      let response ← match ← (runTask invocation).run with
        | .ok response => pure response
        | .error complaint => pure (.complaint complaint "")
      return response.after (announcement invocation)

end Command

end PackedLedger
