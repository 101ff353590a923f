import IdCompaction.Id
import IdCompaction.Fault

/-!
# Cells

A cell holds one ID and is read and written by single atomic accesses. The slots of a table and the
flags of a presence map are cells. An access with an unsuitable order is a fault and changes
nothing.
-/

namespace IdCompaction

/-- An atomic place for one ID; its contents are all there is to it. -/
abbrev Cell := Id

namespace Cell

/-- The contents. -/
def load (cell : Cell) (order : MemoryOrder) : Except Fault Id :=
  if OrderUse.load.allows order then .ok cell else .error (.unsuitedOrder .load order)

/-- The cell with new contents. -/
def store (_cell : Cell) (value : Id) (order : MemoryOrder) : Except Fault Cell :=
  if OrderUse.store.allows order then .ok value else .error (.unsuitedOrder .store order)

/-- The contents before, and the cell with an amount added to them; sums past the last word start
again from zero. -/
def fetchAdd (cell : Cell) (amount : Id) : Id × Cell := (cell, cell + amount)

/-- Puts in `new` if the contents are `current`. The answer is `ok` with the contents before if they
were, and `error` with the contents if they were not. -/
def compareAndSwap (cell : Cell) (current new : Id) : Except Id Id × Cell :=
  if cell = current then (.ok cell, new) else (.error cell, cell)

/-- The same as `compareAndSwap`, with the order that its failing side asks for. -/
def compareExchange (cell : Cell) (current new : Id) (failure : MemoryOrder) :
    Except Fault (Except Id Id × Cell) :=
  if OrderUse.failure.allows failure then .ok (cell.compareAndSwap current new)
  else .error (.unsuitedOrder .failure failure)

/-- The long form of a cell. -/
def describe (cell : Cell) : String := Text.record "AtomicId" [("inner", toString cell)]

/-- A cell claimed away from the vacant mark is not claimed again. -/
theorem compareAndSwap_claimed {cell id : Id} (h : cell ≠ vacant) :
    Cell.compareAndSwap cell vacant id = (.error cell, cell) := by
  simp [compareAndSwap, h]

/-- One access to a cell. -/
inductive Access
  | load (order : MemoryOrder)
  | store (value : Id) (order : MemoryOrder)
  | fetchAdd (amount : Id)
  | compareAndSwap (current new : Id)
  | compareExchange (current new : Id) (failure : MemoryOrder)
  | describe

/-- The answer to one access. -/
inductive Reply
  | nothing
  | value (contents : Id)
  | exchange (outcome : Except Id Id)
  | text (shown : String)

/-- Makes one access; a fault leaves the cell as it is. -/
def access (cell : Cell) : Access → Except Fault Reply × Cell
  | .load order => ((cell.load order).map .value, cell)
  | .store value order =>
    match cell.store value order with
    | .ok next => (.ok .nothing, next)
    | .error fault => (.error fault, cell)
  | .fetchAdd amount => (.ok (.value (cell.fetchAdd amount).1), (cell.fetchAdd amount).2)
  | .compareAndSwap current new =>
    (.ok (.exchange (cell.compareAndSwap current new).1), (cell.compareAndSwap current new).2)
  | .compareExchange current new failure =>
    match cell.compareExchange current new failure with
    | .ok (outcome, next) => (.ok (.exchange outcome), next)
    | .error fault => (.error fault, cell)
  | .describe => (.ok (.text cell.describe), cell)

/-- Makes accesses one after another: each answer with the contents after it, and the last contents.
-/
def accessAll (cell : Cell) : List Access → List (Except Fault Reply × Cell) × Cell
  | [] => ([], cell)
  | next :: rest =>
    let (reply, after) := cell.access next
    let (replies, last) := accessAll after rest
    ((reply, after) :: replies, last)

end Cell

end IdCompaction
