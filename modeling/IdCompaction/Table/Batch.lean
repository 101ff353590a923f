import IdCompaction.Pool
import IdCompaction.Table.Access

/-!
# Batches

The operations of a table on whole batches: claiming every ID of an input, listing the claimed IDs
in the order of their local IDs, relabelling an edge list, and clearing the table for the next
batch. Claims may race with each other. Listing and relabelling read a table that nobody is claiming
in, and clearing has the table to itself.
-/

namespace IdCompaction

/-- The endpoints of an edge list, or of its relabelled copy. -/
structure Edges where
  src : Array Id
  dst : Array Id

namespace Table

variable {capacity : Nat}

/-- What a routine answers on a table that nobody else touches. -/
def read {α : Type} (t : Table capacity) (routine : Routine capacity α) : Except Fault α :=
  (routine.perform t).result

/-- Claims one ID; answers whether this call made the claim. -/
def insert (id : Id) : Action Fault (Table capacity) Bool := (claimId id).perform

/-- The local ID of a global ID, if it is claimed. -/
def localId? (t : Table capacity) (id : Id) : Except Fault (Option Id) := t.read (localOf id)

/-- The global ID that owns a local ID, if it has been handed out. -/
def globalId? (t : Table capacity) (number : Id) : Except Fault (Option Id) :=
  t.read (globalOf number)

/-- Makes the claims of a batch of that many IDs, and reports how many were made. -/
def claimAll (size : Nat) (claims : Action Fault (Table capacity) Unit) :
    Action Fault (Table capacity) Unit := do
  let before ← Action.gets numItems
  claims
  let after ← Action.gets numItems
  Action.emit (.populated size (after - before) after)

/-- Claims every ID of a batch. IDs that are claimed already, or twice in the batch, are absorbed.
-/
def insertAll (pool : Pool) (ids : Array Id) : Action Fault (Table capacity) Unit :=
  claimAll ids.size (pool.forEach ids.size fun i => discard ((claimId ids[i]).perform))

/-- Writes the owners of the first local IDs over an output, which must not be longer than the
number of claims. -/
def copyGlobals (t : Table capacity) (pool : Pool) : Action Fault (Array Id) Unit := do
  let wanted ← Action.gets Array.size
  if t.numItems < wanted then Action.fail (.tooManyNodes wanted t.numItems)
  else
    pool.forEach wanted fun i => do
      let id ← Action.ofExcept (t.read (ownerAt i))
      Action.modify fun output => output.setIfInBounds i id

/-- Every claimed global ID, in the order of their local IDs. -/
def globalIds (t : Table capacity) (pool : Pool) : Except Fault (Array Id) :=
  let outcome := t.copyGlobals pool (Array.replicate t.numItems vacant)
  outcome.result.map fun _ => outcome.state

/-- Visits the edges of a list over an output in the state, if all lengths agree. -/
def relabelOver {σ : Type} (outputOf : σ → Edges) (edges : Edges) (visits : Action Fault σ Unit) :
    Action Fault σ Unit := do
  let length := edges.src.size
  let output ← Action.gets outputOf
  if edges.dst.size = length ∧ output.src.size = length ∧ output.dst.size = length then
    visits
    Action.emit (.edgesMapped length)
  else
    Action.fail (.edgeLengths length edges.dst.size output.src.size output.dst.size)

/-- Writes the local IDs of both endpoints of every edge over an output. Each edge is checked and
written source first; a fault leaves what was written before it. -/
def relabel (t : Table capacity) (pool : Pool) (edges : Edges) : Action Fault Edges Unit :=
  let pairs := edges.src.zip edges.dst
  relabelOver id edges <| pool.forEach pairs.size fun i => do
    let src ← Action.ofExcept (t.read (endpoint pairs[i].1))
    Action.modify fun output => { output with src := output.src.setIfInBounds i src }
    let dst ← Action.ofExcept (t.read (endpoint pairs[i].2))
    Action.modify fun output => { output with dst := output.dst.setIfInBounds i dst }

/-- Forgets every claim. All slots are cleared, whatever was claimed, and of the owners those that
were handed out. -/
def clear (pool : Pool) : Action Fault (Table capacity) Unit := do
  let used ← Action.gets numItems
  pool.forEach capacity fun slot => Action.modify fun t => t.putSlot slot Slot.empty
  pool.forEach used fun i =>
    if h : i < capacity then Action.modify fun t => t.putOwner ⟨i, h⟩ vacant
    else Action.fail (.indexOutOfBounds capacity i)
  Action.modify fun t => { t with count := 0 }
  Action.emit (.tableCleared capacity)

end Table

end IdCompaction
