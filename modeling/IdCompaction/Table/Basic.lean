import IdCompaction.Cell
import IdCompaction.Memory.Buffer
import IdCompaction.Memory.Host

/-!
# Tables

A table renumbers the global IDs below its capacity. Each global ID has a slot, which says whether
the ID is claimed and which local ID it got; each local ID has an owner, the global ID that got it;
and a counter says how many local IDs have been handed out. Both arrays are addressed directly, so
the capacity is fixed when the table is built and nothing is ever searched.
-/

namespace IdCompaction

/-- What a table knows about one global ID. -/
structure Slot where
  /-- The global ID itself once it is claimed, and vacant before. -/
  claim : Cell
  /-- The local ID, vacant until the claiming thread has stored it. -/
  localId : Cell
  deriving DecidableEq

/-- The slot of an unclaimed ID. -/
def Slot.empty : Slot := ⟨vacant, vacant⟩

/-- Slots by global ID, owners by local ID, and the number of local IDs handed out. -/
structure Table (capacity : Nat) where
  slots : Buffer Slot capacity
  owners : Buffer Cell capacity
  count : Cell

namespace Table

variable {σ : Type} {capacity : Nat}

/-- Slots are two cells each. -/
def slotElement : Element σ Slot := .plain (2 * Id.bytes) Id.bytes

/-- Owners are one cell each. -/
def ownerElement : Element σ Cell := .plain Id.bytes Id.bytes

/-- Lets both arrays go, slots first. -/
def free (service : MemoryService σ) (t : Table capacity) : Action Empty σ Unit := do
  t.slots.free service slotElement
  t.owners.free service ownerElement

/-- A table without claims. The slots are granted before the owners, and go back if the owners are
refused. -/
def allocate (service : MemoryService σ) (context : Context) (capacity : Nat) :
    Action Failure σ (Table capacity) :=
  if vacant.toNat < capacity then Action.fail (.fault (.capacityTooLarge capacity))
  else do
    let slots ← Buffer.build service slotElement context capacity fun _ => .ok Slot.empty
    let owners ← (Buffer.build service ownerElement context capacity fun _ => .ok vacant).onError
      (slots.free service slotElement)
    Action.emit (.tableAllocated capacity context)
    return ⟨slots, owners, 0⟩

/-- A table in host memory that must be granted: a refusal is a fault. -/
def allocateHere (service : MemoryService σ) (capacity : Nat) : Action Failure σ (Table capacity) :=
  (allocate service .cpu capacity).mapError fun
    | .fault fault => .fault fault
    | .refused error => .fault (.tableRefused error)

/-- Where the arrays live. -/
def context (t : Table capacity) : Context := t.slots.context

/-- How many IDs have been claimed since the table was built or last cleared. -/
def numItems (t : Table capacity) : Nat := t.count.toNat

/-- Nothing has been claimed. -/
def isEmpty (t : Table capacity) : Bool := t.numItems == 0

/-- The long form of a table. -/
def describe (t : Table capacity) : String :=
  Text.record "IdRemapTable"
    [("context", t.context.describe), ("capacity", toString capacity),
      ("num_items", toString t.numItems)]

end Table

end IdCompaction
