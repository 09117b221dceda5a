import PackedLedger.Allocation.Basic
import PackedLedger.Number.Digits
import PackedLedger.Parameters
import PackedLedger.Toml.Document

namespace PackedLedger

/-!
# Settings of a check run

Settings choose the layout, the assets and the parameters.  A layout is built
in or given slot by slot, in which case it is called custom whatever its
fields.  A generation asked for later replaces slots given before.
-/

structure Settings where
  /-- The built-in layout used when no slots are given. -/
  generation : Generation := .v2
  /-- The asset decimals to check, in order. -/
  assetDecimals : List Nat := [6, 8, 18]
  /-- The time the horizon is measured from, the current one when absent. -/
  referenceTime : Option Nat := none
  /-- The accrual precision, that of the generation when absent. -/
  accrualPrecision : Option Nat := none
  parameters : Parameters := {}
  /-- The slots of a custom layout. -/
  slots : List Slot := []
  deriving Repr, DecidableEq

namespace Settings

/-- Ask for a built-in layout, if one is named. -/
def withGeneration (settings : Settings) : Option Generation -> Settings
  | none => settings
  | some generation => { settings with generation, slots := [] }

/-- The layout under check. -/
def allocation (settings : Settings) : Allocation :=
  let builtIn := settings.generation.allocation
  let accrualPrecision := settings.accrualPrecision.getD builtIn.accrualPrecision
  if settings.slots.isEmpty then { builtIn with accrualPrecision }
  else { slots := settings.slots, accrualPrecision }

/-!
## Settings from a document

Every setting has a default and unknown ones are passed over, but a known one
has to have the right kind and fit its word.  A group of settings is a table,
or an array that lists them by position, whose missing end takes defaults.
-/

open Toml

/-- A group of settings, by name or by position. -/
inductive Group where
  | named (entries : List (String × Value))
  | positional (elements : List Value)

namespace Group

/-- Read a value as a group.  A date counts as a table of unknown names. -/
def of? : Value -> Option Group
  | .table entries => some (.named entries)
  | .array elements => some (.positional elements)
  | .moment => some (.named [])
  | _ => none

def member? (group : Group) (position : Nat) (name : String) : Option Value :=
  match group with
  | named entries => find? entries name
  | positional elements => elements[position]?

/-- Decode a member, or take its default if it has one. -/
def decode {Member : Type} (group : Group) (position : Nat) (name : String)
    (read : Value -> Option Member) (default : Option Member) : Option Member :=
  match group.member? position name with
  | some value => read value
  | none => default

end Group

/-- An integer between bounds, both included. -/
def integerBetween (low high : Int) : Value -> Option Int
  | .integer value => if low ≤ value ∧ value ≤ high then some value else none
  | _ => none

/-- A natural number of so many bits. -/
def natural (bits : Nat) (value : Value) : Option Nat :=
  (integerBetween 0 (fieldMaximum bits) value).map Int.toNat

def word32 : Value -> Option Nat := natural 32

def word64 : Value -> Option Nat := natural 64

def signed64 : Value -> Option Int :=
  integerBetween (-(powerOfTwo 63 : Int)) (fieldMaximum 63)

def string : Value -> Option String
  | .text value => some value
  | _ => none

def list {Element : Type} (read : Value -> Option Element) : Value -> Option (List Element)
  | .array elements => elements.mapM read
  | _ => none

/-- The name of a choice: a text, or a table with that one name and nothing
under it. -/
def choice : Value -> Option String
  | .text name => some name
  | .table [(name, .table [])] | .table [(name, .array [])] => some name
  | _ => none

def role (value : Value) : Option Role :=
  (choice value).bind Role.ofLabel?

def generationOf (value : Value) : Option Generation :=
  (choice value).bind fun name =>
    [Generation.v1, Generation.v2].find? fun generation => generation.label == name

/-- A yield as an array of at least two components, of which two count. -/
def yield : Value -> Option YieldSetting
  | .array (numerator :: denominator :: _) => do
    return ⟨← word64 numerator, ← word64 denominator⟩
  | _ => none

def field (value : Value) : Option Field := do
  let group ← Group.of? value
  return {
    name := ← group.decode 0 "name" string none
    bits := ← group.decode 1 "bits" word32 none
    precision := ← group.decode 2 "precision" (fun value => (word32 value).map some) (some none)
    role := ← group.decode 3 "role" role (some .other) }

def slot (value : Value) : Option Slot := do
  let group ← Group.of? value
  return {
    name := ← group.decode 0 "name" string none
    capacity := ← group.decode 1 "capacity" word32 (some 256)
    fields := ← group.decode 2 "fields" (list field) none }

def parametersOf (value : Value) : Option Parameters := do
  let group ← Group.of? value
  let default : Parameters := {}
  return {
    secondsPerYear := ← group.decode 0 "seconds_per_year" word64 default.secondsPerYear
    secondsPerBlock := ← group.decode 1 "seconds_per_block" word64 default.secondsPerBlock
    minHorizonYears := ← group.decode 2 "min_horizon_years" word32 default.minHorizonYears
    minOrder := ← group.decode 3 "min_oom" signed64 default.minOrder
    apyFloor := ← group.decode 4 "apy_floor" yield default.apyFloor
    apyCeiling := ← group.decode 5 "apy_ceiling" yield default.apyCeiling
    reserveDivisor := ← group.decode 6 "reserve_divisor" word64 default.reserveDivisor
    reserveGrowthLimit :=
      ← group.decode 7 "reserve_growth_limit" word64 default.reserveGrowthLimit
    reserveInventoryUnits :=
      ← group.decode 8 "reserve_inventory_units" word64 default.reserveInventoryUnits
    reserveErosionFactor :=
      ← group.decode 9 "reserve_erosion_factor" word64 default.reserveErosionFactor
    maxAssetDecimals := ← group.decode 10 "max_asset_decimals" word32 default.maxAssetDecimals
    samples := ← group.decode 11 "samples" word64 default.samples
    seed := ← group.decode 12 "seed" word64 default.seed
    mathDigits := ← group.decode 13 "math_digits" word32 default.mathDigits }

/-- Settings from the table of a document. -/
def ofEntries? (entries : List (String × Value)) : Option Settings := do
  let group := Group.named entries
  let default : Settings := {}
  let optional := fun (read : Value -> Option Nat) (value : Value) => (read value).map some
  return {
    generation := ← group.decode 0 "generation" generationOf default.generation
    assetDecimals := ← group.decode 1 "asset_decimals" (list word32) default.assetDecimals
    referenceTime := ← group.decode 2 "reference_time" (optional word64) (some none)
    accrualPrecision :=
      ← group.decode 3 "accrual_factor_precision" (optional word32) (some none)
    parameters := ← group.decode 4 "constants" parametersOf default.parameters
    slots := ← group.decode 5 "slots" (list slot) default.slots }

/-- Settings from the text of a document. -/
def ofText? (text : String) : Option Settings :=
  (Toml.read? text).bind ofEntries?

/-!
## The default settings file

A settings file to start from, which spells out every setting that has a fixed
default, in the order of their declaration.
-/

/-- A line that gives a setting a number. -/
private def numberLine (name : String) (value : Int) : String :=
  s!"{name} = {value}\n"

/-- Lines that give a setting a list of numbers, one to a line. -/
private def listLines (name : String) (values : List Nat) : String :=
  let elements := values.map fun value => s!"    {value},\n"
  s!"{name} = [\n{String.join elements}]\n"

private def yieldLines (name : String) (value : YieldSetting) : String :=
  listLines name [value.numerator, value.denominator]

/-- The text of a settings file with these parameters. -/
private def parameterLines (parameters : Parameters) : String :=
  numberLine "seconds_per_year" parameters.secondsPerYear ++
  numberLine "seconds_per_block" parameters.secondsPerBlock ++
  numberLine "min_horizon_years" parameters.minHorizonYears ++
  numberLine "min_oom" parameters.minOrder ++
  yieldLines "apy_floor" parameters.apyFloor ++
  yieldLines "apy_ceiling" parameters.apyCeiling ++
  numberLine "reserve_divisor" parameters.reserveDivisor ++
  numberLine "reserve_growth_limit" parameters.reserveGrowthLimit ++
  numberLine "reserve_inventory_units" parameters.reserveInventoryUnits ++
  numberLine "reserve_erosion_factor" parameters.reserveErosionFactor ++
  numberLine "max_asset_decimals" parameters.maxAssetDecimals ++
  numberLine "samples" parameters.samples ++
  numberLine "seed" parameters.seed ++
  numberLine "math_digits" parameters.mathDigits

/-- The text of the default settings file. -/
def defaultDocument : String :=
  let settings : Settings := {}
  s!"generation = \"{settings.generation.label}\"\n" ++
    listLines "asset_decimals" settings.assetDecimals ++
    "\n[constants]\n" ++ parameterLines settings.parameters

end Settings

end PackedLedger
