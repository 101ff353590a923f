import IdCompaction.Cell
import IdCompaction.Device
import IdCompaction.Memory.Buffer

/-!
# Presence maps

A presence map has one flag for each ID below its length. A flag that is not zero marks its ID as
seen. The map is never cleared by a check: whoever owns it clears it before a batch is checked
afresh, and makes it long enough for the largest value of the batch.
-/

namespace IdCompaction

/-- One flag for each ID below `length`. -/
abbrev Presence (length : Nat) := Buffer Cell length

namespace Presence

variable {σ : Type} {length : Nat}

/-- Flags are one cell each. -/
def element : Element σ Cell := .plain Id.bytes Id.bytes

/-- A cleared map on the context of a stream. -/
def allocate (service : MemoryService σ) (stream : Stream) (length : Nat) :
    Action Failure σ (Presence length) :=
  Buffer.build service element stream.device.context length fun _ => .ok 0

/-- The map with its first flags cleared. -/
def clearFirst (p : Presence length) (count : Nat) : Presence length :=
  { p with cells := p.cells.mapFinIdx fun i flag _ => if i < count then 0 else flag }

/-- The map with every flag cleared. -/
def clear (p : Presence length) : Presence length := p.clearFirst length

/-- The flags that are not zero, with their IDs, in order. -/
def marked (p : Presence length) : List (Nat × Id) :=
  (p.cells.toList.zipIdx.filter fun (flag, _) => flag != 0).map fun (flag, i) => (i, flag)

end Presence

/-- A presence map during a check, with the number of values that were found marked. -/
structure Marking (length : Nat) where
  presence : Presence length
  found : Nat

namespace Marking

variable {length : Nat}

/-- One atomic access of a check. -/
inductive Access (length : Nat)
  /-- The flag of an ID. -/
  | readFlag (place : Fin length)
  /-- Marks an ID. -/
  | mark (place : Fin length)
  /-- Counts a value that was found marked. -/
  | countFound

/-- What an access answers. -/
@[reducible] def Access.Answer : Access length → Type
  | .readFlag _ => Id
  | .mark _ => Unit
  | .countFound => Unit

/-- The effect of one access. -/
def Access.apply : (op : Access length) → Marking length → op.Answer × Marking length
  | .readFlag place, m => (m.presence.get place, m)
  | .mark place, m => ((), { m with presence := m.presence.put place 1 })
  | .countFound, m => ((), { m with found := m.found + 1 })

instance : SharedMemory (Marking length) (Access length) Access.Answer := ⟨Access.apply⟩

/-- What a thread does to a presence map. -/
abbrev Routine (length : Nat) (α : Type) := IdCompaction.Routine (Access length) Access.Answer α

/-- The routine of one access. -/
def ask (op : Access length) : Routine length op.Answer := IdCompaction.Routine.ask op

end Marking

end IdCompaction
