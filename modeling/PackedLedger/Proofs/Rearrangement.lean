import PackedLedger.Proofs.Requirements

namespace PackedLedger

/-!
# What a rearranged allocation keeps

Slots can be put in another order, the fields of a slot can be packed in another
order, and a slot can be added whose fields no check reads.  None of this touches
the fields that hold a role, except for their order.  `ReadAlike` says just that
about two allocations, without saying how one came from the other: it is symmetric,
so whatever is shown to pass from one to the other also passes back.
-/

/-! ## Slots -/

/-- The same slot with its fields in some order. -/
structure Slot.Reordered (slot other : Slot) : Prop where
  name : other.name = slot.name
  capacity : other.capacity = slot.capacity
  fields : slot.fields.Perm other.fields

/-- A slot that fields without a role fill exactly. -/
structure Slot.Filler (slot : Slot) : Prop where
  filled : slot.Filled
  unread : ∀ field ∈ slot.fields, field.role = .other
  fits : (slot.fields.map Field.bits).sum < Checked.wordLimit

namespace Slot

theorem Reordered.checkFilled_iff {slot other : Slot} (reordered : slot.Reordered other) :
    slot.checkFilled = .ok () ↔ other.checkFilled = .ok () := by
  have widths : (slot.fields.map Field.bits).sum = (other.fields.map Field.bits).sum :=
    (reordered.fields.map Field.bits).sum_eq
  have wide : (∀ field ∈ slot.fields, field.bits ≠ 0) ↔ ∀ field ∈ other.fields, field.bits ≠ 0 :=
    ⟨fun all field member => all field (reordered.fields.mem_iff.mpr member),
      fun all field member => all field (reordered.fields.mem_iff.mp member)⟩
  rw [checkFilled_eq_ok_iff, checkFilled_eq_ok_iff, Filled, Filled,
    widths, wide, reordered.capacity]

theorem Filler.checkFilled {slot : Slot} (filler : slot.Filler) : slot.checkFilled = .ok () :=
  checkFilled_eq_ok_iff.mpr ⟨filler.filled, filler.fits⟩

end Slot

/-! ## Allocations -/

namespace Allocation

/-- The other allocation has the slots of this one, each with its fields in some
order, and any number of fillers, all in some order. -/
structure Rearranged (allocation other : Allocation) : Prop where
  name : other.name = allocation.name
  accrualPrecision : other.accrualPrecision = allocation.accrualPrecision
  slots : ∃ reordered fillers, List.Forall₂ Slot.Reordered allocation.slots reordered ∧
    (∀ filler ∈ fillers, filler.Filler) ∧ (reordered ++ fillers).Perm other.slots

def roleFields (allocation : Allocation) : List Field :=
  allocation.fields.filter fun field => field.role != .other

/-- Two allocations that the checks cannot tell apart by anything but the order of
the fields with a role. -/
structure ReadAlike (allocation other : Allocation) : Prop where
  name : other.name = allocation.name
  accrualPrecision : other.accrualPrecision = allocation.accrualPrecision
  filled : allocation.checkFilled = .ok () ↔ other.checkFilled = .ok ()
  fields : allocation.roleFields.Perm other.roleFields

theorem ReadAlike.symm {allocation other : Allocation} (alike : allocation.ReadAlike other) :
    other.ReadAlike allocation where
  name := alike.name.symm
  accrualPrecision := alike.accrualPrecision.symm
  filled := alike.filled.symm
  fields := alike.fields.symm

theorem flatMap_fields_perm {slots others : List Slot}
    (reordered : List.Forall₂ Slot.Reordered slots others) :
    (slots.flatMap Slot.fields).Perm (others.flatMap Slot.fields) := by
  induction reordered with
  | nil => exact .nil
  | cons first _ inductionHypothesis => exact first.fields.append inductionHypothesis

theorem checkFilled_iff_of_reordered {slots others : List Slot}
    (reordered : List.Forall₂ Slot.Reordered slots others) :
    (∀ slot ∈ slots, slot.checkFilled = .ok ()) ↔ ∀ slot ∈ others, slot.checkFilled = .ok () := by
  induction reordered with
  | nil => exact Iff.rfl
  | cons first _ inductionHypothesis =>
      rw [List.forall_mem_cons, List.forall_mem_cons, first.checkFilled_iff, inductionHypothesis]

/-- Fields without a role are all that rearranging adds. -/
theorem Rearranged.readAlike {allocation other : Allocation}
    (rearranged : allocation.Rearranged other) : allocation.ReadAlike other := by
  rcases rearranged.slots with ⟨reordered, fillers, same, fill, order⟩
  refine ⟨rearranged.name, rearranged.accrualPrecision, ?_, ?_⟩
  · rw [checkFilled, checkFilled, Attempt.forM_eq_ok, Attempt.forM_eq_ok,
      checkFilled_iff_of_reordered same]
    constructor
    · intro all slot member
      rcases List.mem_append.mp (order.mem_iff.mpr member) with old | added
      · exact all slot old
      · exact (fill slot added).checkFilled
    · intro all slot member
      exact all slot (order.mem_iff.mp (List.mem_append_left fillers member))
  · have added : (fillers.flatMap Slot.fields).filter (fun field => field.role != .other) = [] := by
      rw [List.filter_eq_nil_iff]
      intro field member
      rcases List.mem_flatMap.mp member with ⟨filler, inside, packed⟩
      simp [(fill filler inside).unread field packed]
    have whole := (order.flatMap_right Slot.fields).filter fun field => field.role != .other
    rw [List.flatMap_append, List.filter_append, added, List.append_nil] at whole
    exact ((flatMap_fields_perm same).filter _).trans whole

/-! ## Look-ups -/

namespace ReadAlike

variable {allocation other : Allocation} (alike : allocation.ReadAlike other)
include alike

/-- A selection of fields that leaves out those without a role is the same up to
order. -/
theorem filter_perm {keep : Field -> Bool}
    (reads : ∀ field, field.role = .other -> keep field = false) :
    (allocation.fields.filter keep).Perm (other.fields.filter keep) := by
  have only : ∀ field, keep field = (keep field && field.role != .other) := by
    intro field
    by_cases unread : field.role = .other
    · rw [reads field unread, Bool.false_and]
    · simp [unread]
  have whole := alike.fields.filter keep
  unfold roleFields at whole
  rw [List.filter_filter, List.filter_filter] at whole
  simpa only [← only] using whole

theorem withRole_perm {role : Role} (read : role ≠ .other) :
    (allocation.withRole role).Perm (other.withRole role) := by
  apply alike.filter_perm
  intro field unread
  rw [unread]
  exact beq_eq_false_iff_ne.mpr read.symm

theorem withRole_eq_singleton {role : Role} (read : role ≠ .other) {field : Field}
    (oneField : allocation.withRole role = [field]) : other.withRole role = [field] := by
  have order := alike.withRole_perm read
  rw [oneField, List.singleton_perm] at order
  exact order.symm

theorem findRole_eq_ok {role : Role} (read : role ≠ .other) {found : Option Field}
    (lookedUp : allocation.findRole role = .ok found) : other.findRole role = .ok found := by
  rw [Allocation.findRole_eq_ok] at lookedUp ⊢
  cases found with
  | none =>
      have order := alike.withRole_perm read
      rw [lookedUp] at order
      exact order.nil_eq.symm
  | some field => exact alike.withRole_eq_singleton read lookedUp

theorem requireRole_eq_ok {role : Role} (read : role ≠ .other) {field : Field}
    (required : allocation.requireRole role = .ok field) : other.requireRole role = .ok field := by
  rw [Allocation.requireRole_eq_ok] at required ⊢
  exact alike.withRole_eq_singleton read required

theorem supplyFields_perm :
    (Envelope.supplyFields allocation).Perm (Envelope.supplyFields other) := by
  apply alike.filter_perm
  intro field unread
  rw [unread]
  rfl

end ReadAlike

end Allocation

end PackedLedger
