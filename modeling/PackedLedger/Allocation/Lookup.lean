import PackedLedger.Attempt
import PackedLedger.Rejection

namespace PackedLedger

/-!
# Finding and changing the fields of an allocation

A check asks for the field of a role, which has to be the only one.  Which two
fields clash is part of the answer: the first two in slot order.  Changes are
addressed by field name, where the first match counts, or by slot position.
-/

namespace Allocation

/-- The field that holds `role`, if there is one.  Two of them are refused. -/
def findRole (allocation : Allocation) (role : Role) : Verdict (Option Field) :=
  match allocation.withRole role with
  | [] => .ok none
  | [field] => .ok (some field)
  | first :: second :: _ => .refuse (.duplicateField role first.name second.name)

/-- The one field that holds `role`. -/
def requireRole (allocation : Allocation) (role : Role) : Verdict Field := do
  match ← allocation.findRole role with
  | some field => return field
  | none => .refuse (.missingField role)

theorem requireRole_of_unique {allocation : Allocation} {role : Role} {field : Field}
    (unique : allocation.withRole role = [field]) :
    allocation.requireRole role = .ok field := by
  simp [requireRole, findRole, unique, bind, Except.bind, pure, Except.pure]

/-- The first field of the given name, in slot order. -/
def fieldNamed? (allocation : Allocation) (name : String) : Option Field :=
  allocation.fields.find? fun field => field.name == name

/-- Change the first element that satisfies `test`, if there is one. -/
def changeFirst {Element : Type} (test : Element -> Bool) (change : Element -> Element) :
    List Element -> List Element
  | [] => []
  | element :: rest =>
    if test element then change element :: rest else element :: changeFirst test change rest

/-- Change the first field of the given name, in slot order. -/
def changeField (allocation : Allocation) (name : String) (change : Field -> Field) :
    Allocation :=
  let named := fun field : Field => field.name == name
  { allocation with
    slots := changeFirst (fun slot => slot.fields.any named)
      (fun slot => { slot with fields := changeFirst named change slot.fields })
      allocation.slots }

/-- Change the slot at `position`, if there is one. -/
def changeSlot (allocation : Allocation) (position : Nat) (change : Slot -> Slot) :
    Allocation :=
  { allocation with slots := allocation.slots.modify position change }

/-- Append a field to the slot at `position`. -/
def appendField (allocation : Allocation) (position : Nat) (field : Field) : Allocation :=
  allocation.changeSlot position fun slot => { slot with fields := slot.fields ++ [field] }

end Allocation

/-!
## Filling slots exactly

A layout is sound when every slot is filled to its capacity by fields of
positive width.  The first slot that is not gives the reason: an empty field
before a wrong total.  Widths are added in 32-bit words, so the total of a slot
can break off.
-/

/-- The bits that the fields of a slot take up. -/
def Slot.usedBits (slot : Slot) : Verdict Nat :=
  Checked.wordTotal 0 (slot.fields.map Field.bits)

/-- Refuse a slot with an empty field or a total other than its capacity. -/
def Slot.checkFilled (slot : Slot) : Verdict Unit :=
  match slot.fields.find? fun field => field.bits == 0 with
  | some field => .refuse (.emptyField slot.name field.name)
  | none => do
    let used ← slot.usedBits
    if used = slot.capacity then return ()
    else .refuse (.slotWidth slot.name used slot.capacity)

/-- Refuse the first slot that is not filled exactly. -/
def Allocation.checkFilled (allocation : Allocation) : Verdict Unit :=
  allocation.slots.forM Slot.checkFilled

/-- The bits used in each slot, in order. -/
def Allocation.usedBits (allocation : Allocation) : Verdict (List Nat) :=
  allocation.slots.mapM Slot.usedBits

end PackedLedger
