import IdCompaction.Session.Step

/-!
# The objects of a session

The objects that the steps of a session name, kind by kind: a name may stand for one object of each
kind at once. Tables, buffers, grants and presence maps hold memory. They remember which memory that
is by its number, which outlives the memory's name.
-/

namespace IdCompaction.Session

/-- Values under names. A name that is put again stands for the newer value. -/
structure Named (α : Type) where
  entries : List (String × α)

namespace Named

variable {α : Type}

/-- No names. -/
def empty : Named α := ⟨[]⟩

/-- The value under a name. -/
def find? (names : Named α) (name : String) : Option α := names.entries.lookup name

/-- The names without one of them. -/
def erase (names : Named α) (name : String) : Named α :=
  ⟨names.entries.filter fun entry => entry.1 != name⟩

/-- The names with one more, or with a newer value under one. -/
def put (names : Named α) (name : String) (value : α) : Named α :=
  ⟨(name, value) :: (names.erase name).entries⟩

end Named

/-- A table and the memory that it was granted from. -/
structure HeldTable where
  memory : Nat
  capacity : Nat
  table : Table capacity

/-- A buffer and the memory that it was granted from. -/
structure HeldBuffer where
  memory : Nat
  kind : ElementKind
  length : Nat
  buffer : Buffer UInt64 length

/-- A grant as it was given. -/
structure HeldGrant where
  memory : Nat
  context : Context
  address : Address
  layout : Layout

/-- A presence map and the memory that it was granted from. -/
structure HeldPresence where
  memory : Nat
  length : Nat
  presence : Presence length

/-- The objects of a session. -/
structure State where
  pools : Named Pool
  /-- All memories by number; the first is there from the start. -/
  memories : Array (Guarded Quota Arena)
  /-- The numbers of the memories that were opened by name. -/
  memoryNumbers : Named Nat
  tables : Named HeldTable
  buffers : Named HeldBuffer
  grants : Named HeldGrant
  presences : Named HeldPresence
  devices : Named Device
  streams : Named Stream
  validators : Named Validator
  /-- Counted elements that were let go. -/
  dropped : Nat

namespace State

/-- The name of the memory that every session starts with. It cannot be given to another one. -/
def globalMemory : String := "global"

/-- A host memory without a quota. -/
def unlimited : Guarded Quota Arena := ⟨{}, .fresh {}⟩

/-- A session that nothing has happened in. -/
def start : State where
  pools := .empty
  memories := #[unlimited]
  memoryNumbers := .empty
  tables := .empty
  buffers := .empty
  grants := .empty
  presences := .empty
  devices := .empty
  streams := .empty
  validators := .empty
  dropped := 0

/-- The number of the memory under a name. -/
def memoryNumber? (s : State) (name : String) : Option Nat :=
  if name = globalMemory then some 0 else s.memoryNumbers.find? name

/-- The memory with a number. -/
def memoryPart (number : Nat) : Part State (Guarded Quota Arena) where
  get s := s.memories.getD number unlimited
  put memory s := { s with memories := s.memories.setIfInBounds number memory }

end State

/-- The heap that sessions run on, in the place of the host's own: it has no room for a request of
eight gibibytes, and room for any number of smaller ones. Nothing that is proved depends on it. -/
def hostHeap : Heap Arena := Arena.heap (8 * 1024 * 1024 * 1024)

/-- The service of the memory with a number. -/
def service (memory : Nat) : MemoryService State :=
  (Quota.service hostHeap).within (State.memoryPart memory)

/-- The elements of a kind; those that are counted are counted when they are let go. -/
def ElementKind.element (kind : ElementKind) : Element State UInt64 where
  layout := kind.layout
  release _ s := if kind = .counted then { s with dropped := s.dropped + 1 } else s

/-- What a step does. -/
abbrev Work (α : Type) := Action Stop State α

variable {α : Type}

/-- The step cannot go on, since a name stands for nothing that it needs. -/
def unknown (name : String) : Work α := Action.fail (.bare (.unknownName name))

/-- The object that a name must stand for. -/
def need (name : String) (find : State → Option α) : Work α := do
  match ← Action.gets find with
  | some object => return object
  | none => unknown name

/-- The pool under a name. -/
def pool (name : String) : Work Pool := need name fun s => s.pools.find? name

/-- The device under a name. -/
def device (name : String) : Work Device := need name fun s => s.devices.find? name

/-- The stream under a name. -/
def stream (name : String) : Work Stream := need name fun s => s.streams.find? name

/-- The number of the memory under a name. -/
def memory (name : String) : Work Nat := need name fun s => s.memoryNumber? name

/-- A computation that may fault. -/
def checked (x : Except Fault α) : Work α := Action.ofExcept (x.mapError Stop.ofFault)

/-- Named objects of one kind that hold memory, and what giving one of them back does. -/
structure Registry (α : Type) where
  names : Part State (Named α)
  release : α → Action Empty State Unit

namespace Registry

/-- The tables of a session. -/
def tables : Registry HeldTable where
  names := ⟨State.tables, fun tables s => { s with tables }⟩
  release held := held.table.free (service held.memory)

/-- The buffers of a session. -/
def buffers : Registry HeldBuffer where
  names := ⟨State.buffers, fun buffers s => { s with buffers }⟩
  release held := held.buffer.free (service held.memory) held.kind.element

/-- The grants of a session. -/
def grants : Registry HeldGrant where
  names := ⟨State.grants, fun grants s => { s with grants }⟩
  release held := (service held.memory).deallocate held.context held.address held.layout

/-- The presence maps of a session. -/
def presences : Registry HeldPresence where
  names := ⟨State.presences, fun presences s => { s with presences }⟩
  release held := held.presence.free (service held.memory) Presence.element

/-- The object under a name. -/
def find? (registry : Registry α) (name : String) (s : State) : Option α :=
  (registry.names.get s).find? name

/-- Puts back a changed object. -/
def update (registry : Registry α) (name : String) (object : α) (s : State) : State :=
  registry.names.put ((registry.names.get s).put name object) s

/-- Puts an object under a name; what the name stood for before is given back after that. -/
def hold (registry : Registry α) (name : String) (object : α) : Work Unit := do
  let before ← Action.gets (registry.find? name)
  Action.modify (registry.update name object)
  match before with
  | some old => (registry.release old).safely
  | none => pure ()

/-- Gives back what a name stands for; says whether it stood for anything. -/
def drop (registry : Registry α) (name : String) : Work Bool := do
  match ← Action.gets (registry.find? name) with
  | some old =>
    Action.modify fun s => registry.names.put ((registry.names.get s).erase name) s
    (registry.release old).safely
    return true
  | none => return false

end Registry

/-- An action on the table under a name. -/
def onTable (name : String) (x : {capacity : Nat} → Action Fault (Table capacity) α) : Work α :=
  fun s =>
    match s.tables.find? name with
    | some held =>
      match x held.table with
      | ⟨table, events, result⟩ =>
        ⟨Registry.tables.update name { held with table } s, events, result.mapError Stop.ofFault⟩
    | none => unknown name s

/-- Something read from the table under a name. -/
def fromTable (name : String) (read : {capacity : Nat} → Table capacity → Except Fault α) :
    Work α :=
  fun s =>
    match s.tables.find? name with
    | some held => checked (read held.table) s
    | none => unknown name s

/-- The IDs of a batch. -/
def IdSource.resolve : IdSource → Work (Array Id)
  | .listed ids => return ids
  | .generated count factor offset modulus => do
    let number (i : Nat) : Except Fault Id := do
      let product ← Size.mul i factor
      let sum ← Size.add product offset
      return (← Size.mod sum modulus).toUInt32
    return (← checked (Size.tabulate count number)).toArray
  | .claimed table poolName => do
    let pool ← pool poolName
    fromTable table fun t => t.globalIds pool

end IdCompaction.Session
