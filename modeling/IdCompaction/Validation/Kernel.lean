import IdCompaction.Validation.Presence

/-!
# Validation kernels

Two kernels look at every element of a batch, lane by lane. The duplicate kernel reports each value
whose flag is marked and then marks it; reading and marking are separate accesses, so two threads
that hold the same value may both read it unmarked and both say nothing. The sentinel kernel stops
at the first element of a lane that must not occur.
-/

namespace IdCompaction.Validation

/-- The element of a batch at an index. -/
def elementAt {Op : Type} {Answer : Op → Type} (input : Array Id) (index : Nat) :
    Routine Op Answer Id :=
  if h : index < input.size then .done input[index]
  else .stop (.indexOutOfBounds input.size index)

/-- The flag of a value. -/
def flagOf {length : Nat} (value : Id) (index : Nat) : Marking.Routine length (Fin length) :=
  if h : value.toNat < length then .done ⟨value.toNat, h⟩
  else .stop (.beyondPresence value index length)

/-- Reports the value at an index if it is marked, and marks it. -/
def markElement {length : Nat} (input : Array Id) (index : Nat) : Marking.Routine length Unit := do
  let value ← elementAt input index
  let place ← flagOf value index
  let flag ← Marking.ask (.readFlag place)
  if flag ≠ 0 then
    Routine.emit (.duplicateValue index value)
    Marking.ask .countFound
  Marking.ask (.mark place)

/-- The duplicate kernel. -/
def duplicateKernel {length : Nat} (input : Array Id) (lane : Lane) :
    Marking.Routine length Unit := do
  let indices ← Routine.ofExcept lane.indices
  indices.toList.forM (markElement input)

/-- The sentinel kernel touches no shared memory at all. -/
instance : SharedMemory Unit Empty (fun _ => Unit) := ⟨fun op => op.elim⟩

/-- Stops if the value at an index must not occur. -/
def refuseElement (input : Array Id) (invalid : Id) (index : Nat) :
    Routine Empty (fun _ => Unit) Unit := do
  let value ← elementAt input index
  if value = invalid then .stop (.invalidValue invalid index)

/-- The sentinel kernel. -/
def sentinelKernel (input : Array Id) (invalid : Id) (lane : Lane) :
    Routine Empty (fun _ => Unit) Unit := do
  let indices ← Routine.ofExcept lane.indices
  indices.toList.forM (refuseElement input invalid)

end IdCompaction.Validation
