import IdCompaction.Session.Pools

/-!
# Steps on memory

Opening memories, asking them for grants and buffers, and giving those back.
-/

namespace IdCompaction.Session

/-- Opens a memory, perhaps under a quota. -/
def openMemory (name : String) (maxBytes maxCalls : Option Nat) : Work Answer := do
  let quota : Quota := { maxBytes, maxCalls }
  Action.modify fun s =>
    { s with
      memories := s.memories.push ⟨quota, .fresh {}⟩
      memoryNumbers := s.memoryNumbers.put name s.memories.size }
  return .nothing

/-- The host memory under a name, behind its quota. -/
def hostMemory (name : String) : Work (HostMemory Arena) := do
  let number ← memory name
  Action.gets fun s => ((State.memoryPart number).get s).memory

/-- The counts of a memory. -/
def memoryCounts (name : String) : Work Answer := return .memory (← hostMemory name).tally

/-- The long form of a memory. -/
def describeMemory (name : String) : Work Answer := return .text (← hostMemory name).describe

/-- Asks for a grant and keeps it. An array that is too large is refused before the memory is asked.
-/
def allocate (name memoryName : String) (context : Context) (kind : ElementKind) (count : Nat) :
    Work Answer := do
  let memory ← memory memoryName
  match kind.layout.array count with
  | none => Action.fail (.bare (.refused ⟨context, Size.limit - 1⟩))
  | some layout =>
    let address ← ((service memory).allocate context layout).mapError fun e => .bare (.refused e)
    Registry.grants.hold name { memory, context, address, layout }
    return .grant (address % layout.align == 0) (address == layout.align)

/-- Builds a buffer whose element `i` is `i * factor + offset`. -/
def buildBuffer (name memoryName : String) (context : Context) (kind : ElementKind)
    (length factor offset : Nat) (raiseAt : Option Nat) : Work Answer := do
  let memory ← memory memoryName
  let init (i : Nat) : Except Fault UInt64 :=
    if raiseAt = some i then .error (.raised s!"initialiser failed at {i}")
    else .ok (kind.keep (i * factor + offset))
  let buffer ← (Buffer.build (service memory) kind.element context length init).mapError
    Stop.ofFailure
  Registry.buffers.hold name { memory, kind, length, buffer }
  return .buffer kind length buffer

/-- Shows a buffer. -/
def showBuffer (name : String) : Work Answer := do
  let held ← need name (Registry.buffers.find? name)
  return .buffer held.kind held.length held.buffer

/-- Replaces one element of a buffer. -/
def setElement (name : String) (index value : Nat) : Work Answer := do
  let held ← need name (Registry.buffers.find? name)
  let buffer ← (held.buffer.assign held.kind.element index (held.kind.keep value)).mapError
    Stop.ofFault
  Action.modify (Registry.buffers.update name { held with buffer })
  return .buffer held.kind held.length buffer

/-- Gives back whatever a name stands for, of any kind; says whether it stood for anything. -/
def drop (name : String) : Work Answer := do
  let table ← Registry.tables.drop name
  let buffer ← Registry.buffers.drop name
  let grant ← Registry.grants.drop name
  let presence ← Registry.presences.drop name
  return .flag (table || buffer || grant || presence)

/-- How many counted elements have been let go. -/
def countDropped : Work Answer := return .count (← Action.gets State.dropped)

end IdCompaction.Session
