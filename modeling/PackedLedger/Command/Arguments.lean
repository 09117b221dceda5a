import PackedLedger.Allocation.Basic
import PackedLedger.Text

namespace PackedLedger

/-!
# The command line

Arguments are read from left to right.  At the top only the options that every
command shares may stand, and then the command's name; after it follow the
command's own options, the shared ones again, and its operands.  An option may
be given once on each level, except for the list of decimals, which adds up.
Whatever follows two hyphens is an operand.
-/

namespace Command

/-- How often an option is given and whether it takes a value. -/
inductive OptionKind where
  | flag
  | value
  | values
  deriving Repr, DecidableEq

/-- An option by its long name and, if it has one, its letter. -/
structure OptionForm where
  name : String
  letter : Option Char := none
  kind : OptionKind
  deriving Repr, DecidableEq

/-- What can end the reading of arguments early. -/
inductive Stop where
  /-- The arguments make no sense. -/
  | usage
  /-- The version is asked for. -/
  | version
  /-- An overview is asked for. -/
  | help
  deriving Repr, DecidableEq

/-- Given options with their values, in order, and operands.  A flag has an
empty value. -/
structure Given where
  options : List (String × String) := []
  operands : List String := []
  deriving Repr, DecidableEq

namespace Given

def has (given : Given) (name : String) : Bool :=
  given.options.any fun option => option.1 == name

def value? (given : Given) (name : String) : Option String :=
  given.options.lookup name

def values (given : Given) (name : String) : List String :=
  (given.options.filter fun option => option.1 == name).map Prod.snd

/-- Add an option, which may have to be the only one of its name. -/
def addOption (given : Given) (form : OptionForm) (value : String) : Except Stop Given :=
  if form.kind != .values && given.has form.name then .error .usage
  else if form.name == "version" then .error .version
  else if form.name == "help" then .error .help
  else .ok { given with options := given.options ++ [(form.name, value)] }

def addOperand (given : Given) (operand : String) : Given :=
  { given with operands := given.operands ++ [operand] }

end Given

/-- Whether an argument can be the value of the option before it. -/
def isOperandLike (argument : String) : Bool :=
  argument == "-" || argument.toList.head? != some '-'

/-- Read a long option.  It may have its value after an equals sign; without
one it is given back as the option that awaits its value. -/
def readLong (forms : List OptionForm) (given : Given) (body : List Char) :
    Except Stop (Given × Option OptionForm) :=
  let (name, attached) := match body.span fun character => character != '=' with
    | (name, _ :: value) => (name, some (String.ofList value))
    | (name, []) => (name, none)
  match forms.find? fun form => form.name.toList == name with
  | none => .error .usage
  | some form =>
    match form.kind, attached with
    | .flag, some _ => .error .usage
    | .flag, none => do return (← given.addOption form "", none)
    | _, some value => do return (← given.addOption form value, none)
    | _, none => .ok (given, some form)

/-- Read a group of letters.  The first one that takes a value has the rest of
the group as its value, an equals sign in front not counted. -/
def readLetters (forms : List OptionForm) (given : Given) :
    List Char -> Except Stop (Given × Option OptionForm)
  | [] => .ok (given, none)
  | letter :: rest =>
    match forms.find? fun form => form.letter == some letter with
    | none => .error .usage
    | some form =>
      match form.kind, rest with
      | .flag, _ => do readLetters forms (← given.addOption form "") rest
      | _, [] => .ok (given, some form)
      | _, '=' :: value => do return (← given.addOption form (String.ofList value), none)
      | _, value => do return (← given.addOption form (String.ofList value), none)

/-- Read the arguments of a level.  With `single` the first operand ends the
level, and the arguments after it are left over. -/
def readLevel (forms : List OptionForm) (single : Bool) (given : Given) :
    List String -> Except Stop (Given × List String)
  | [] => .ok (given, [])
  | argument :: rest =>
    match argument.toList with
    | ['-', '-'] =>
      if single then .error .usage
      else .ok ({ given with operands := given.operands ++ rest }, [])
    | '-' :: '-' :: body => do
      match ← readLong forms given body, rest with
      | (given, none), rest => readLevel forms single given rest
      | (_, some _), [] => .error .usage
      | (given, some awaiting), value :: rest =>
        if isOperandLike value then
          readLevel forms single (← given.addOption awaiting value) rest
        else .error .usage
    | '-' :: letter :: letters => do
      match ← readLetters forms given (letter :: letters), rest with
      | (given, none), rest => readLevel forms single given rest
      | (_, some _), [] => .error .usage
      | (given, some awaiting), value :: rest =>
        if isOperandLike value then
          readLevel forms single (← given.addOption awaiting value) rest
        else .error .usage
    | _ =>
      let given := given.addOperand argument
      if single then .ok (given, rest) else readLevel forms single given rest

/-! ## Commands -/

/-- Choices that a check takes from the command line over the settings. -/
structure CheckOptions where
  assetDecimals : List Nat := []
  generation : Option Generation := none
  samples : Option Nat := none
  seed : Option Nat := none
  referenceTime : Option Nat := none
  json : Bool := false
  keepGoing : Bool := false
  deriving Repr, DecidableEq

/-- The texts of a position's price, range and liquidity. -/
structure PositionTexts where
  price : String
  lower : String
  upper : String
  liquidity : String
  deriving Repr, DecidableEq

inductive Task where
  /-- Check the allocation for each asset. -/
  | check (options : CheckOptions)
  /-- Token amounts of a position. -/
  | amounts (texts : PositionTexts)
  /-- Show the allocation under check. -/
  | layout (generation : Option Generation)
  /-- Write a default settings file. -/
  | initSettings (path : String) (force : Bool)
  deriving Repr, DecidableEq

/-- A command line that makes sense. -/
structure Invocation where
  /-- The settings file, if one is named. -/
  settingsPath : Option String
  verbose : Bool
  task : Task
  deriving Repr, DecidableEq

/-- Options that stand on every level. -/
def sharedForms : List OptionForm :=
  [⟨"config", some 'c', .value⟩, ⟨"verbose", some 'v', .flag⟩, ⟨"help", some 'h', .flag⟩]

def topForms : List OptionForm :=
  sharedForms ++ [⟨"version", some 'V', .flag⟩]

def generationForm : OptionForm :=
  ⟨"generation", some 'g', .value⟩

def checkForms : List OptionForm :=
  sharedForms ++
    [⟨"decimals", some 'd', .values⟩, generationForm, ⟨"samples", none, .value⟩,
     ⟨"seed", none, .value⟩, ⟨"reference-time", none, .value⟩, ⟨"json", none, .flag⟩,
     ⟨"keep-going", none, .flag⟩]

def layoutForms : List OptionForm :=
  sharedForms ++ [generationForm]

def initForms : List OptionForm :=
  sharedForms ++ [⟨"force", none, .flag⟩]

/-- Read the value of an option, if it is given. -/
def Given.read? {Value : Type} (given : Given) (name : String)
    (read : String -> Option Value) : Except Stop (Option Value) :=
  match given.value? name with
  | none => .ok none
  | some text =>
    match read text with
    | some value => .ok (some value)
    | none => .error .usage

/-- A number of 64 bits. -/
def readWord (text : String) : Option Nat :=
  Text.unsignedWord? text.toList

/-- A number of 32 bits, read as a signed word. -/
def readDecimals (text : List Char) : Option Nat :=
  match Text.signedWord? text with
  | some value => if 0 ≤ value ∧ value < powerOfTwo 32 then some value.toNat else none
  | none => none

/-- Numbers with commas between them. -/
def readDecimalList (text : String) : Option (List Nat) :=
  (text.toList.splitOnP fun character => character == ',').mapM readDecimals

def readCheck (given : Given) : Except Stop Task := do
  let lists ←
    match (given.values "decimals").mapM readDecimalList with
    | some lists => .ok lists
    | none => .error .usage
  let options : CheckOptions := {
    assetDecimals := lists.flatten
    generation := ← given.read? "generation" Generation.ofText?
    samples := ← given.read? "samples" readWord
    seed := ← given.read? "seed" readWord
    referenceTime := ← given.read? "reference-time" readWord
    json := given.has "json"
    keepGoing := given.has "keep-going" }
  match given.operands with
  | [] => return .check options
  | _ => .error .usage

def readAmounts (given : Given) : Except Stop Task :=
  match given.operands with
  | [price, lower, upper, liquidity] => .ok (.amounts ⟨price, lower, upper, liquidity⟩)
  | _ => .error .usage

def readLayout (given : Given) : Except Stop Task := do
  let generation ← given.read? "generation" Generation.ofText?
  match given.operands with
  | [] => return .layout generation
  | _ => .error .usage

def readInit (given : Given) : Except Stop Task :=
  match given.operands with
  | [] => .ok (.initSettings "ledger-bounds.toml" (given.has "force"))
  | [path] => .ok (.initSettings path (given.has "force"))
  | _ => .error .usage

/-- The options of a command, and how the rest of it is read. -/
def taskForm? : String -> Option (List OptionForm × (Given -> Except Stop Task))
  | "check" => some (checkForms, readCheck)
  | "amounts" => some (sharedForms, readAmounts)
  | "layout" => some (layoutForms, readLayout)
  | "init-config" => some (initForms, readInit)
  | _ => none

/-- Read a command line.  A settings file named after the command counts before
one named in front of it, and that one before the environment's. -/
def readArguments (environmentPath : Option String) (arguments : List String) :
    Except Stop Invocation := do
  let (top, rest) ← readLevel topForms true {} arguments
  match top.operands with
  | [] => .error .usage
  | name :: _ =>
    if name == "help" then .error .help
    else
      match taskForm? name with
      | none => .error .usage
      | some (forms, read) =>
        let (given, _) ← readLevel forms false {} rest
        let task ← read given
        let named := (given.value? "config").orElse fun _ => top.value? "config"
        return {
          settingsPath := named.orElse fun _ => environmentPath
          verbose := top.has "verbose" || given.has "verbose"
          task }

end Command

end PackedLedger
