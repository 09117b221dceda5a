import PackedLedger.Settings

namespace PackedLedger

/-!
# What a built-in name says of a layout

A layout carries the name of a built-in one when the settings give no slots, or when a
generation is asked for over them.  The name answers for the slots.  It does not answer for
the accrual digits: settings put theirs into whatever layout they come to, and a generation
asked for replaces the slots given before but not the digits given with them.  So a layout
with a built-in name is the built-in one exactly when no accrual digits are given, or its
own are.
-/

namespace Generation

theorem allocation_name (generation : Generation) :
    generation.allocation.name = generation.label := by
  cases generation <;> rfl

theorem label_inj {left right : Generation} : left.label = right.label ↔ left = right := by
  cases left <;> cases right <;> decide

theorem custom_ne_label (generation : Generation) : "custom" ≠ generation.label := by
  cases generation <;> decide

/-- The built-in layout with the given accrual digits in place of its own, if any are. -/
def withAccrual (generation : Generation) (digits : Option Nat) : Allocation :=
  { generation.allocation with
    accrualPrecision := digits.getD generation.allocation.accrualPrecision }

/-- No accrual digits are given, or those of the built-in layout. -/
def KeepsAccrual (generation : Generation) (digits : Option Nat) : Prop :=
  ∀ given ∈ digits, given = generation.allocation.accrualPrecision

theorem withAccrual_eq_iff {generation : Generation} {digits : Option Nat} :
    generation.withAccrual digits = generation.allocation ↔ generation.KeepsAccrual digits := by
  unfold KeepsAccrual
  constructor
  · rintro same given rfl
    exact congrArg Allocation.accrualPrecision same
  · intro keeps
    cases digits with
    | none => rfl
    | some given =>
        rw [keeps given rfl]
        rfl

end Generation

namespace Settings

variable {settings : Settings} {override : Option Generation} {generation : Generation}

/-- The generation whose built-in layout the settings come to, if they come to one. -/
def builtIn? (settings : Settings) : Option Generation -> Option Generation
  | some generation => some generation
  | none => if settings.slots.isEmpty then some settings.generation else none

theorem allocation_of_builtIn (chosen : settings.builtIn? override = some generation) :
    (settings.withGeneration override).allocation =
      generation.withAccrual settings.accrualPrecision := by
  cases override with
  | some asked =>
      cases chosen
      rfl
  | none =>
      rw [builtIn?] at chosen
      by_cases empty : settings.slots.isEmpty = true
      · rw [if_pos empty] at chosen
        cases chosen
        exact if_pos empty
      · rw [if_neg empty] at chosen
        cases chosen

theorem allocation_name_of_slots (noneChosen : settings.builtIn? override = none) :
    (settings.withGeneration override).allocation.name = "custom" := by
  cases override with
  | some asked => cases noneChosen
  | none =>
      rw [builtIn?] at noneChosen
      by_cases empty : settings.slots.isEmpty = true
      · rw [if_pos empty] at noneChosen
        cases noneChosen
      · rw [withGeneration, allocation, if_neg empty]

theorem allocation_name_eq_label_iff :
    (settings.withGeneration override).allocation.name = generation.label ↔
      settings.builtIn? override = some generation := by
  cases chosen : settings.builtIn? override with
  | none =>
      rw [allocation_name_of_slots chosen]
      exact iff_of_false generation.custom_ne_label nofun
  | some other =>
      rw [allocation_of_builtIn chosen, Option.some_inj, ← Generation.label_inj]
      rw [← other.allocation_name]
      rfl

/-- How much of the built-in layout of its name is in the layout that settings come to. -/
structure NamedLayouts (settings : Settings) : Prop where
  /-- A built-in name comes from a generation asked for, or from settings without slots. -/
  named_iff : ∀ override (generation : Generation),
    (settings.withGeneration override).allocation.name = generation.label ↔
      settings.builtIn? override = some generation
  /-- The name answers for everything but the accrual digits. -/
  named : ∀ override (generation : Generation),
    (settings.withGeneration override).allocation.name = generation.label ->
      (settings.withGeneration override).allocation =
        generation.withAccrual settings.accrualPrecision
  named_faithful_iff : ∀ override (generation : Generation),
    (settings.withGeneration override).allocation.name = generation.label ->
      ((settings.withGeneration override).allocation = generation.allocation ↔
        generation.KeepsAccrual settings.accrualPrecision)
  /-- A generation asked for has its name, and with it no more than the name answers for. -/
  asked : ∀ generation, (settings.withGeneration (some generation)).allocation =
    generation.withAccrual settings.accrualPrecision
  asked_faithful_iff : ∀ generation,
    (settings.withGeneration (some generation)).allocation = generation.allocation ↔
      generation.KeepsAccrual settings.accrualPrecision

/-- A layout with a built-in name has the slots of the built-in layout, and it is the
built-in layout exactly when the settings leave its accrual digits as they are. -/
theorem built_in_names_answer_for_slots (settings : Settings) : settings.NamedLayouts := by
  have named : ∀ override (generation : Generation),
      (settings.withGeneration override).allocation.name = generation.label ->
        (settings.withGeneration override).allocation =
          generation.withAccrual settings.accrualPrecision :=
    fun _ _ name => allocation_of_builtIn (allocation_name_eq_label_iff.mp name)
  have asked : ∀ generation, (settings.withGeneration (some generation)).allocation =
      generation.withAccrual settings.accrualPrecision :=
    fun _ => allocation_of_builtIn rfl
  refine ⟨fun _ _ => allocation_name_eq_label_iff, named, ?_, asked, ?_⟩
  · intro override generation name
    rw [named override generation name, Generation.withAccrual_eq_iff]
  · intro generation
    rw [asked generation, Generation.withAccrual_eq_iff]

/-- Settings of a custom layout with ten accrual digits. -/
def packed : Settings where
  accrualPrecision := some 10
  slots :=
    [{ name := "packed"
       fields :=
         [⟨"debt", 128, some 10, .totalBorrows⟩, ⟨"index", 96, some 10, .borrowIndex⟩,
          ⟨"stamp", 32, none, .timestamp⟩] }]

theorem built_in_names_answer_for_slots_packed :
    (packed.withGeneration (some .v1)).allocation.name = Generation.v1.label ∧
      (packed.withGeneration (some .v1)).allocation = Generation.v1.withAccrual (some 10) := by
  have name : (packed.withGeneration (some .v1)).allocation.name = Generation.v1.label := by
    decide
  exact ⟨name, (built_in_names_answer_for_slots packed).named (some .v1) .v1 name⟩

/-- Under its own name the first generation has the accrual digits of the custom layout that
it replaces, and those of settings that never had one. -/
theorem asked_generation_keeps_custom_accrual :
    ((packed.withGeneration (some .v1)).allocation.name = Generation.v1.label ∧
        (packed.withGeneration (some .v1)).allocation ≠ Generation.v1.allocation) ∧
      (({ packed with generation := .v1, slots := [] } : Settings).allocation.name =
          Generation.v1.label ∧
        ({ packed with generation := .v1, slots := [] } : Settings).allocation ≠
          Generation.v1.allocation) := by
  decide

end Settings

end PackedLedger
