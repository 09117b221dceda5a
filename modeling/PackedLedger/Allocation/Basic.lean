namespace PackedLedger

/-!
# Packed storage allocations

The state of a lending ledger is packed into storage slots of a fixed number
of bits.  An allocation says which fields share which slot, how wide each one
is, and how many implied decimal digits it carries.  A role tells the checks
what a field holds, whatever its name and place.
-/

/-- What a packed field stores. -/
inductive Role where
  /-- The quantity borrowed from the pool. -/
  | totalBorrows
  /-- The compounding index, which starts at ten to its precision. -/
  | borrowIndex
  /-- The time of the last accrual, in seconds. -/
  | timestamp
  /-- The supply of receipt tokens. -/
  | totalSupply
  /-- The last recorded asset balance of the pool. -/
  | inventory
  /-- The borrow units that one account stores. -/
  | accountBorrows
  /-- Anything the checks do not reason about. -/
  | other
  deriving Repr, DecidableEq

namespace Role

def label : Role -> String
  | totalBorrows => "total_borrows"
  | borrowIndex => "borrow_index"
  | timestamp => "timestamp"
  | totalSupply => "total_supply"
  | inventory => "inventory"
  | accountBorrows => "account_borrows"
  | other => "other"

/-- Every role, once. -/
def all : List Role :=
  [totalBorrows, borrowIndex, timestamp, totalSupply, inventory, accountBorrows, other]

/-- The role with the given label. -/
def ofLabel? (label : String) : Option Role :=
  all.find? fun role => role.label == label

/-- Whether the field has to cover the required magnitude of the asset. -/
def isRangeChecked : Role -> Bool
  | totalBorrows | totalSupply | inventory => true
  | borrowIndex | timestamp | accountBorrows | other => false

theorem mem_all (role : Role) : role ∈ all := by
  cases role <;> decide

theorem ofLabel?_label (role : Role) : ofLabel? role.label = some role := by
  cases role <;> decide

end Role

/-- One packed field. -/
structure Field where
  name : String
  bits : Nat
  /-- Implied decimal digits on top of the asset's own, if it has any. -/
  precision : Option Nat := none
  role : Role := .other
  deriving Repr, DecidableEq

/-- The implied decimal digits, none for a field of whole units. -/
def Field.digits (field : Field) : Nat :=
  field.precision.getD 0

/-- A storage slot and the fields packed into it, in order. -/
structure Slot where
  name : String
  capacity : Nat := 256
  fields : List Field
  deriving Repr, DecidableEq

/-- A complete candidate layout. -/
structure Allocation where
  /-- The label that reports carry. -/
  name : String := "custom"
  slots : List Slot
  /-- Decimal digits of the growth factor of one accrual. -/
  accrualPrecision : Nat
  deriving Repr, DecidableEq

namespace Allocation

/-- All fields, slot by slot. -/
def fields (allocation : Allocation) : List Field :=
  allocation.slots.flatMap Slot.fields

/-- The fields that hold `role`, in order. -/
def withRole (allocation : Allocation) (role : Role) : List Field :=
  allocation.fields.filter fun field => field.role == role

end Allocation

/-!
## Built-in layouts

Two generations of the ledger's storage are built in.  The first keeps the
index and its timestamp beside the total in one slot.  The second has a slot
for the supply side and one for the borrow side.
-/

inductive Generation where
  | v1
  | v2
  deriving Repr, DecidableEq

namespace Generation

def label : Generation -> String
  | v1 => "v1"
  | v2 => "v2"

/-- Read a generation from its label or its number, in either case. -/
def ofText? (text : String) : Option Generation :=
  match String.ofList (text.toList.map Char.toLower) with
  | "v1" | "1" => some v1
  | "v2" | "2" => some v2
  | _ => none

/-- The complaint about a text that names no generation. -/
def unknownMessage (text : String) : String :=
  s!"unknown generation `{String.ofList (text.toList.map Char.toLower)}` (expected v1 or v2)"

/-- The slot of the units stored for each account. -/
private def accountSlot : Slot where
  name := "borrows"
  fields := [⟨"borrows", 256, none, .accountBorrows⟩]

def allocation : Generation -> Allocation
  | v1 =>
    { name := "v1"
      slots :=
        [{ name := "packed"
           fields :=
             [⟨"totalBorrows", 144, some 12, .totalBorrows⟩,
              ⟨"borrowIndex", 80, some 12, .borrowIndex⟩,
              ⟨"borrowIndexTimestamp", 32, none, .timestamp⟩] },
         accountSlot]
      accrualPrecision := 12 }
  | v2 =>
    { name := "v2"
      slots :=
        [{ name := "supply"
           fields :=
             [⟨"totalSupply", 112, none, .totalSupply⟩,
              ⟨"lastBalance", 112, none, .inventory⟩,
              ⟨"lastAccrualTime", 32, none, .timestamp⟩] },
         { name := "borrow"
           fields :=
             [⟨"borrowBase", 184, some 12, .totalBorrows⟩,
              ⟨"borrowIndex", 72, some 12, .borrowIndex⟩] },
         accountSlot]
      accrualPrecision := 12 }

end Generation

end PackedLedger
