import IdCompaction.Session.Pools

/-!
# Steps on tables

Opening tables, claiming IDs one by one, in batches and in races, and reading the numbering back.
-/

namespace IdCompaction.Session

/-- Opens a table, on a memory and a context or in host memory. -/
def openTable (name : String) (capacity : Nat) (place : Option (String × Context)) :
    Work Answer := do
  let memory ← memory ((place.map Prod.fst).getD State.globalMemory)
  let build := match place with
    | some (_, context) => Table.allocate (service memory) context capacity
    | none => Table.allocateHere (service memory) capacity
  let table ← build.mapError Stop.ofFailure
  Registry.tables.hold name { memory, capacity, table }
  return .table capacity table

/-- Shows a table. -/
def showTable (name : String) : Work Answer := fromTable name fun t => .ok (.table _ t)

/-- The number of claimed IDs. -/
def numItems (name : String) : Work Nat := fromTable name fun t => .ok t.numItems

/-- Claims one ID. -/
def insert (name : String) (id : Id) : Work Answer := do
  let won ← onTable name (Table.insert id)
  return .claimed won (← numItems name)

/-- Claims a batch. -/
def populate (name poolName : String) (ids : IdSource) : Work Answer := do
  let pool ← pool poolName
  let ids ← ids.resolve
  onTable name (Table.insertAll pool ids)
  return .populated (← numItems name)

/-- Several threads claim a list each. All of them run to their own end, and here they take turns
list by list, which is one of the orders that may happen. -/
def claimLists {capacity : Nat} (pool : Option Pool) :
    List (Array Id) → Action Fault (Table capacity) Nat
  | [] => return 0
  | ids :: rest => fun t =>
    let first : Action Fault (Table capacity) Nat := match pool with
      | none => (Table.claimEach 0 ids.toList).perform
      | some pool => do
        Table.insertAll pool ids
        return 0
    match first t with
    | ⟨t', events, result⟩ =>
      match claimLists pool rest t' with
      | ⟨t'', later, result'⟩ =>
        ⟨t'', events ++ later, do return (← result) + (← result')⟩

/-- Races several threads for a table. -/
def race (name : String) (lists : List IdSource) (poolName : Option String) : Work Answer := do
  let pool ← poolName.mapM pool
  let lists ← lists.mapM IdSource.resolve
  let wins ← onTable name (claimLists pool lists)
  return .raced wins (← numItems name)

/-- The owners of the first local IDs. -/
def copyNodes (name poolName : String) (length : Nat) (fill : Id) : Work Answer := do
  let pool ← pool poolName
  let output ← fromTable name fun t =>
    let outcome := t.copyGlobals pool (Array.replicate length fill)
    outcome.result.map fun _ => outcome.state
  return .counts (numbersOf output)

/-- All claimed IDs. -/
def uniqueNodes (name poolName : String) (sorted : Bool) : Work Answer := do
  let pool ← pool poolName
  let ids := numbersOf (← fromTable name fun t => t.globalIds pool)
  return .counts (if sorted then ids.mergeSort else ids)

/-- Relabels an edge list, and maps the labels back if asked to. -/
def mapEdges (name poolName : String) (src dst : IdSource) (fill : Id)
    (newSrcLength newDstLength : Option Nat) (restore : Bool) : Work Answer := do
  let pool ← pool poolName
  let edges : Edges := ⟨← src.resolve, ← dst.resolve⟩
  let output : Edges :=
    ⟨Array.replicate (newSrcLength.getD edges.src.size) fill,
      Array.replicate (newDstLength.getD edges.dst.size) fill⟩
  let labels (ids : Array Id) : List (Option Id) := ids.toList.map some
  let written (e : Edges) : Answer := .edges (labels e.src) (labels e.dst)
  let relabelled ← fun s =>
    match s.tables.find? name with
    | some held =>
      match held.table.relabel pool edges output with
      | ⟨last, events, .ok _⟩ => ⟨s, events, .ok last⟩
      | ⟨last, events, .error fault⟩ => ⟨s, events, .error ⟨.fault fault, some (written last)⟩⟩
    | none => unknown name s
  if restore then
    let owners (ids : Array Id) : Work (List (Option Id)) :=
      fromTable name fun t => ids.toList.mapM t.globalId?
    return .edges (← owners relabelled.src) (← owners relabelled.dst)
  else return written relabelled

/-- The local ID of one ID. -/
def lookUp (name : String) (id : Id) : Work Answer := do
  return .id (← fromTable name fun t => t.localId? id)

/-- The local IDs of several IDs. -/
def lookUpAll (name : String) (ids : IdSource) : Work Answer := do
  let ids ← ids.resolve
  return .ids (← fromTable name fun t => ids.toList.mapM t.localId?)

/-- The owner of one local ID. -/
def ownerOf (name : String) (number : Id) : Work Answer := do
  return .id (← fromTable name fun t => t.globalId? number)

/-- The owners of several local IDs. -/
def ownersOf (name : String) (numbers : IdSource) : Work Answer := do
  let numbers ← numbers.resolve
  return .ids (← fromTable name fun t => numbers.toList.mapM t.globalId?)

/-- Whether local and global IDs invert each other, how many global IDs are claimed, and what owns
the first local ID that was not handed out. -/
def consistency {capacity : Nat} (t : Table capacity) : Except Fault Answer := do
  let inverse ← (List.range t.numItems).mapM fun number => do
    match ← t.globalId? number.toUInt32 with
    | none => return false
    | some id => return (← t.localId? id) == some number.toUInt32
  let found ← (List.range capacity).mapM fun id => t.localId? id.toUInt32
  let pastEnd ← t.globalId? t.count
  return .consistency (inverse.all id) (found.countP Option.isSome) pastEnd

/-- Checks a table against itself. -/
def checkTable (name : String) : Work Answer := fromTable name consistency

/-- Clears a table. -/
def clearTable (name poolName : String) : Work Answer := do
  let pool ← pool poolName
  onTable name (Table.clear pool)
  showTable name

end IdCompaction.Session
