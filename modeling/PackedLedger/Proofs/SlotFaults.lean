import Mathlib.Algebra.GroupWithZero.Nat
import PackedLedger.Allocation.Lookup
import PackedLedger.Proofs.Attempt

namespace PackedLedger

/-!
# The first slot that is not filled

A layout is refused for the first of its slots that is not filled, and that slot for the
first of its fields without a width, or else for its total.  `Slot.Misses` says so of
totals without a limit.  The check itself adds in words, and one kind of slot escapes
it: fields that all have a width and together leave the word.  The total of such a slot
is never known, and the check breaks down where it should have named it.
-/

namespace Checked

variable {Reason : Type}

@[simp] theorem wordTotal_of_lt (widths : List Nat) (start : Nat)
    (fits : start + widths.sum < wordLimit) :
    (wordTotal start widths : Attempt Reason Nat) = .ok (start + widths.sum) := by
  induction widths generalizing start with
  | nil => rfl
  | cons width rest inductionHypothesis =>
      rw [List.sum_cons, ← Nat.add_assoc] at fits ⊢
      have first : start + width < wordLimit := by omega
      rw [wordTotal, wordSum_of_lt first]
      exact inductionHypothesis (start + width) fits

/-- Words that add up to more than a word break the sum off. -/
theorem wordTotal_of_le {widths : List Nat} {start : Nat} (word : start < wordLimit)
    (leaves : wordLimit ≤ start + widths.sum) :
    (wordTotal start widths : Attempt Reason Nat) = .breakDown .wordOverflow := by
  induction widths generalizing start with
  | nil =>
      rw [List.sum_nil] at leaves
      omega
  | cons width rest inductionHypothesis =>
      rw [List.sum_cons, ← Nat.add_assoc] at leaves
      rw [wordTotal, wordSum]
      by_cases fits : start + width < wordLimit
      · rw [if_pos fits]
        exact inductionHypothesis fits leaves
      · rw [if_neg fits]
        rfl

end Checked

namespace Slot

variable {slot : Slot}

/-- Every field has a width and the widths add up to the capacity. -/
def Filled (slot : Slot) : Prop :=
  (∀ field ∈ slot.fields, field.bits ≠ 0) ∧
    (slot.fields.map Field.bits).sum = slot.capacity

instance (slot : Slot) : Decidable slot.Filled :=
  inferInstanceAs (Decidable (_ ∧ _))

def width (slot : Slot) : Nat :=
  (slot.fields.map Field.bits).sum

def Wide (slot : Slot) : Prop :=
  ∀ field ∈ slot.fields, field.bits ≠ 0

/-- The first field, in order, without a width. -/
def FirstEmpty (slot : Slot) (field : Field) : Prop :=
  ∃ before after, slot.fields = before ++ field :: after ∧
    (∀ earlier ∈ before, earlier.bits ≠ 0) ∧ field.bits = 0

/-- Why a slot is not filled: its first empty field or, without any, its total. -/
inductive Misses (slot : Slot) : Rejection -> Prop where
  | emptyField {field : Field} (first : slot.FirstEmpty field) :
      Misses slot (.emptyField slot.name field.name)
  | width (wide : slot.Wide) (other : slot.width ≠ slot.capacity) :
      Misses slot (.slotWidth slot.name slot.width slot.capacity)

/-- Fields that all have a width and together leave a word. -/
structure Overflows (slot : Slot) : Prop where
  wide : slot.Wide
  leaves : Checked.wordLimit ≤ slot.width

theorem filled_iff : slot.Filled ↔ slot.Wide ∧ slot.width = slot.capacity := Iff.rfl

/-! ## One slot -/

theorem find?_empty_eq_none :
    slot.fields.find? (fun field => field.bits == 0) = none ↔ slot.Wide := by
  rw [List.find?_eq_none]
  exact forall₂_congr fun field _ => not_congr beq_iff_eq

theorem find?_empty_eq_some {field : Field} :
    slot.fields.find? (fun field => field.bits == 0) = some field ↔ slot.FirstEmpty field := by
  simp only [List.find?_eq_some_iff_append, FirstEmpty, beq_iff_eq, Bool.not_eq_true',
    beq_eq_false_iff_ne]
  constructor
  · rintro ⟨empty, before, after, parts, wide⟩
    exact ⟨before, after, parts, wide, empty⟩
  · rintro ⟨before, after, parts, wide, empty⟩
    exact ⟨empty, before, after, parts, wide⟩

theorem Overflows.checkFilled {slot : Slot} (overflows : slot.Overflows) :
    slot.checkFilled = .breakDown .wordOverflow := by
  have total : slot.usedBits = .breakDown .wordOverflow :=
    Checked.wordTotal_of_le (by decide) (by rw [Nat.zero_add]; exact overflows.leaves)
  rw [Slot.checkFilled, find?_empty_eq_none.mpr overflows.wide, total]
  rfl

/-- Without empty fields, a total within the word decides. -/
theorem Wide.checkFilled {slot : Slot} (wide : slot.Wide) (fits : slot.width < Checked.wordLimit) :
    slot.checkFilled =
      if slot.width = slot.capacity then .ok ()
      else .refuse (.slotWidth slot.name slot.width slot.capacity) := by
  have total : slot.usedBits = .ok slot.width := by
    unfold Slot.width at fits ⊢
    simp [usedBits, fits]
  rw [Slot.checkFilled, find?_empty_eq_none.mpr wide]
  dsimp only
  rw [total]
  rfl

theorem Misses.checkFilled {slot : Slot} {reason : Rejection} (misses : slot.Misses reason)
    (fits : ¬ slot.Overflows) : slot.checkFilled = .refuse reason := by
  cases misses with
  | emptyField first => rw [Slot.checkFilled, find?_empty_eq_some.mpr first]
  | width wide other =>
      have within : slot.width < Checked.wordLimit :=
        Nat.lt_of_not_le fun leaves => fits ⟨wide, leaves⟩
      rw [wide.checkFilled within, if_neg other]

theorem Misses.not_filled {slot : Slot} {reason : Rejection} (misses : slot.Misses reason) :
    ¬ slot.Filled := by
  rw [filled_iff]
  rintro ⟨wide, exact⟩
  cases misses with
  | emptyField first =>
      cases (find?_empty_eq_some.mpr first).symm.trans (find?_empty_eq_none.mpr wide)
  | width _ other => exact other exact

/-- A slot is filled and passes, misses something that it is refused for, or leaves the
word. -/
theorem checkFilled_cases (slot : Slot) :
    (slot.Filled ∧ slot.width < Checked.wordLimit ∧ slot.checkFilled = .ok ()) ∨
    (∃ reason, slot.Misses reason ∧ ¬ slot.Overflows ∧ slot.checkFilled = .refuse reason) ∨
    (slot.Overflows ∧ slot.checkFilled = .breakDown .wordOverflow) := by
  by_cases wide : slot.Wide
  · by_cases leaves : Checked.wordLimit ≤ slot.width
    · have overflows : slot.Overflows := ⟨wide, leaves⟩
      exact .inr (.inr ⟨overflows, overflows.checkFilled⟩)
    · have within : slot.width < Checked.wordLimit := Nat.lt_of_not_le leaves
      by_cases exact : slot.width = slot.capacity
      · refine .inl ⟨filled_iff.mpr ⟨wide, exact⟩, within, ?_⟩
        rw [wide.checkFilled within, if_pos exact]
      · have misses := Misses.width wide exact
        have fits : ¬ slot.Overflows := fun overflows => leaves overflows.leaves
        exact .inr (.inl ⟨_, misses, fits, misses.checkFilled fits⟩)
  · cases found : slot.fields.find? fun field => field.bits == 0 with
    | none => exact absurd (find?_empty_eq_none.mp found) wide
    | some field =>
        have misses := Misses.emptyField (find?_empty_eq_some.mp found)
        have fits : ¬ slot.Overflows := fun overflows => wide overflows.wide
        exact .inr (.inl ⟨_, misses, fits, misses.checkFilled fits⟩)

/-- A slot passes exactly when it is filled by widths that add up within a word. -/
theorem checkFilled_eq_ok_iff :
    slot.checkFilled = .ok () ↔
      slot.Filled ∧ (slot.fields.map Field.bits).sum < Checked.wordLimit := by
  rcases slot.checkFilled_cases with
    ⟨filled, within, passed⟩ | ⟨reason, misses, _, found⟩ | ⟨overflows, broken⟩
  · exact iff_of_true passed ⟨filled, within⟩
  · rw [found]
    exact iff_of_false nofun fun passes => misses.not_filled passes.1
  · rw [broken]
    exact iff_of_false nofun fun passes => Nat.not_lt_of_le overflows.leaves passes.2

theorem checkFilled_eq_refuse {reason : Rejection} :
    slot.checkFilled = .refuse reason ↔ slot.Misses reason ∧ ¬ slot.Overflows := by
  constructor
  · intro refused
    rcases slot.checkFilled_cases with
      ⟨_, _, passed⟩ | ⟨missed, misses, fits, found⟩ | ⟨_, broken⟩
    · cases passed.symm.trans refused
    · cases found.symm.trans refused
      exact ⟨misses, fits⟩
    · cases broken.symm.trans refused
  · rintro ⟨misses, fits⟩
    exact misses.checkFilled fits

theorem checkFilled_eq_breakDown {step : Breakdown} :
    slot.checkFilled = .breakDown step ↔ step = .wordOverflow ∧ slot.Overflows := by
  constructor
  · intro broke
    rcases slot.checkFilled_cases with
      ⟨_, _, passed⟩ | ⟨missed, _, _, found⟩ | ⟨overflows, broken⟩
    · cases passed.symm.trans broke
    · cases found.symm.trans broke
    · cases broken.symm.trans broke
      exact ⟨rfl, overflows⟩
  · rintro ⟨rfl, overflows⟩
    exact overflows.checkFilled

theorem checkFilled_eq_ok_of_word (word : slot.capacity < Checked.wordLimit) :
    slot.checkFilled = .ok () ↔ slot.Filled := by
  rw [checkFilled_eq_ok_iff, and_iff_left_of_imp]
  intro filled
  exact Nat.lt_of_le_of_lt (Nat.le_of_eq (filled_iff.mp filled).2) word

end Slot

/-! ## A layout -/

namespace Allocation

variable {allocation : Allocation}

/-- The first slot, in order, that is not filled. -/
def FirstUnfilled (allocation : Allocation) (slot : Slot) : Prop :=
  ∃ before after, allocation.slots = before ++ slot :: after ∧
    (∀ earlier ∈ before, earlier.Filled) ∧ ¬ slot.Filled

/-- A layout fails as its first unfilled slot does. -/
theorem checkFilled_eq_error (words : ∀ slot ∈ allocation.slots, slot.capacity < Checked.wordLimit)
    {failure : Failure Rejection} :
    allocation.checkFilled = .error failure ↔
      ∃ slot, allocation.FirstUnfilled slot ∧ slot.checkFilled = .error failure := by
  rw [checkFilled, Attempt.forM_eq_error]
  constructor
  · rintro ⟨before, slot, after, parts, passed, fails⟩
    rw [parts, List.forall_mem_append, List.forall_mem_cons] at words
    refine ⟨slot, ⟨before, after, parts, ?_, ?_⟩, fails⟩
    · intro earlier member
      exact (Slot.checkFilled_eq_ok_of_word (words.1 earlier member)).mp (passed earlier member)
    · intro filled
      rw [(Slot.checkFilled_eq_ok_of_word words.2.1).mpr filled] at fails
      cases fails
  · rintro ⟨slot, ⟨before, after, parts, filled, _⟩, fails⟩
    rw [parts, List.forall_mem_append] at words
    refine ⟨before, slot, after, parts, ?_, fails⟩
    intro earlier member
    exact (Slot.checkFilled_eq_ok_of_word (words.1 earlier member)).mpr (filled earlier member)

/-- A layout whose capacities are words passes exactly when every slot is filled.  If not,
it is refused for what its first unfilled slot misses, with the first empty field or the
whole total, unless that slot has no empty field and its total leaves the word.  Then,
and only then, the check breaks down. -/
theorem checkFilled_names_first_unfilled
    (words : ∀ slot ∈ allocation.slots, slot.capacity < Checked.wordLimit) :
    (allocation.checkFilled = .ok () ↔ ∀ slot ∈ allocation.slots, slot.Filled) ∧
    (∀ reason, allocation.checkFilled = .refuse reason ↔
      ∃ slot, allocation.FirstUnfilled slot ∧ slot.Misses reason ∧ ¬ slot.Overflows) ∧
    ∀ step, allocation.checkFilled = .breakDown step ↔
      step = .wordOverflow ∧ ∃ slot, allocation.FirstUnfilled slot ∧ slot.Overflows := by
  refine ⟨?_, ?_, ?_⟩
  · rw [checkFilled, Attempt.forM_eq_ok]
    exact forall₂_congr fun slot member => Slot.checkFilled_eq_ok_of_word (words slot member)
  · intro reason
    rw [Attempt.refuse, checkFilled_eq_error words]
    exact exists_congr fun slot => and_congr_right fun _ => Slot.checkFilled_eq_refuse
  · intro step
    rw [Attempt.breakDown, checkFilled_eq_error words]
    constructor
    · rintro ⟨slot, first, fails⟩
      rcases Slot.checkFilled_eq_breakDown.mp fails with ⟨overflow, overflows⟩
      exact ⟨overflow, slot, first, overflows⟩
    · rintro ⟨overflow, slot, first, overflows⟩
      exact ⟨slot, first, Slot.checkFilled_eq_breakDown.mpr ⟨overflow, overflows⟩⟩

/-- A slot whose fields add up to more than a word, with an empty one among them. -/
def paddedSlot : Slot where
  name := "padded"
  fields := [⟨"low", 4294967295, none, .other⟩, ⟨"pad", 0, none, .other⟩,
    ⟨"high", 1, none, .other⟩]

def padded : Allocation where
  slots := [⟨"clock", 32, [⟨"time", 32, none, .timestamp⟩]⟩, paddedSlot]
  accrualPrecision := 12

/-- Behind a slot that is filled, the empty field is what the layout is refused for. -/
theorem checkFilled_names_first_unfilled_padded :
    (∀ slot ∈ padded.slots, slot.capacity < Checked.wordLimit) ∧
      padded.checkFilled = .refuse (.emptyField "padded" "pad") := by
  have words : ∀ slot ∈ padded.slots, slot.capacity < Checked.wordLimit := by decide
  have first : padded.FirstUnfilled paddedSlot :=
    ⟨[⟨"clock", 32, [⟨"time", 32, none, .timestamp⟩]⟩], [], rfl, by decide, by decide⟩
  have firstEmpty : paddedSlot.FirstEmpty ⟨"pad", 0, none, .other⟩ :=
    ⟨[⟨"low", 4294967295, none, .other⟩], [⟨"high", 1, none, .other⟩], rfl, by decide, rfl⟩
  have misses : paddedSlot.Misses (.emptyField "padded" "pad") := .emptyField firstEmpty
  have fits : ¬ paddedSlot.Overflows := fun overflows =>
    overflows.wide ⟨"pad", 0, none, .other⟩ (by decide) rfl
  exact ⟨words,
    ((checkFilled_names_first_unfilled words).2.1 _).mpr ⟨paddedSlot, first, misses, fits⟩⟩

/-- A slot with two fields that add up to one more than the largest word. -/
def oversizedSlot : Slot where
  name := "oversized"
  fields := [⟨"low", 4294967295, none, .other⟩, ⟨"high", 1, none, .other⟩]

def oversized : Allocation where
  slots := [oversizedSlot]
  accrualPrecision := 12

/-- Every number of this layout is a word, and its one slot misses its capacity by a total
that can be told.  The check breaks down over it. -/
theorem oversized_total_breaks_down :
    (∀ slot ∈ oversized.slots, slot.capacity < Checked.wordLimit ∧
        ∀ field ∈ slot.fields, field.bits < Checked.wordLimit) ∧
      oversized.FirstUnfilled oversizedSlot ∧
      oversizedSlot.Misses (.slotWidth "oversized" 4294967296 256) ∧
      oversized.checkFilled = .breakDown .wordOverflow := by
  have first : oversized.FirstUnfilled oversizedSlot := ⟨[], [], rfl, by decide, by decide⟩
  have wide : oversizedSlot.Wide := by
    unfold Slot.Wide
    decide
  exact ⟨by decide, first, .width wide (by decide), by decide⟩

end Allocation

end PackedLedger
