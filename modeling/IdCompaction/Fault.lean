import IdCompaction.Context
import IdCompaction.MemoryOrder
import IdCompaction.Text.Record

/-!
# Faults and refusals

Two things can end an operation early. A *fault* is a broken precondition: it stops the operation
where it is, and nothing that was already written is taken back. A *refusal* is a memory service's
answer that it cannot serve a request.
-/

namespace IdCompaction

/-- A request that a memory service turned down. -/
structure AllocError where
  context : Context
  bytes : Nat
  deriving DecidableEq

namespace AllocError

/-- The text of a refusal. -/
def message (e : AllocError) : String :=
  s!"memory allocation of {e.bytes} bytes failed on {e.context.label}"

/-- Whether another error stands behind a refusal: none does, a service says no by itself. -/
def hasSource (_ : AllocError) : Bool := false

/-- The long form of a refusal. -/
def describe (e : AllocError) : String :=
  Text.record "AllocError" [("context", e.context.describe), ("bytes", toString e.bytes)]

end AllocError

/-- The ways in which a precondition can be broken. -/
inductive Fault
  /-- A global ID at or past the table's capacity. -/
  | idOutOfRange (id : Id) (capacity : Nat)
  /-- A capacity whose IDs would reach the vacant mark. -/
  | capacityTooLarge (capacity : Nat)
  /-- More nodes asked for than are mapped. -/
  | tooManyNodes (requested mapped : Nat)
  /-- Edge arrays of unequal lengths. -/
  | edgeLengths (src dst newSrc newDst : Nat)
  /-- An edge endpoint that was never claimed. -/
  | neverPopulated (id : Id)
  /-- A sum past the largest size. -/
  | additionOverflow
  /-- A product past the largest size. -/
  | multiplicationOverflow
  /-- A remainder by zero. -/
  | zeroDivisor
  /-- An index at or past the end of an array. -/
  | indexOutOfBounds (length index : Nat)
  /-- A part of an array that would end past the array. -/
  | rangeOutOfBounds (length stop : Nat)
  /-- A progression that would never advance. -/
  | zeroStride
  /-- A grid whose blocks have no threads. -/
  | emptyBlock
  /-- A grid whose tiles have no elements. -/
  | emptyTile
  /-- A batch value that the presence map has no flag for. -/
  | beyondPresence (value : Id) (index length : Nat)
  /-- A batch value that must not occur. -/
  | invalidValue (value : Id) (index : Nat)
  /-- A table in host memory that could not be allocated. -/
  | tableRefused (error : AllocError)
  /-- A memory order that does not suit its use. -/
  | unsuitedOrder (use : OrderUse) (order : MemoryOrder)
  /-- A fault that a caller's own code raises, with its own words. -/
  | raised (message : String)
  deriving DecidableEq

/-- The text of a fault. -/
def Fault.message : Fault → String
  | .idOutOfRange id capacity => s!"global id {id} out of range for capacity {capacity}"
  | .capacityTooLarge capacity => s!"capacity {capacity} exceeds the ID domain (max {vacant})"
  | .tooManyNodes requested mapped => s!"requested {requested} nodes but only {mapped} are mapped"
  | .edgeLengths src dst newSrc newDst =>
    s!"edge arrays differ in length: src={src} dst={dst} new_src={newSrc} new_dst={newDst}"
  | .neverPopulated id => s!"edge endpoint {id} was never populated"
  | .additionOverflow => "attempt to add with overflow"
  | .multiplicationOverflow => "attempt to multiply with overflow"
  | .zeroDivisor => "attempt to calculate the remainder with a divisor of zero"
  | .indexOutOfBounds length index =>
    s!"index out of bounds: the len is {length} but the index is {index}"
  | .rangeOutOfBounds length stop =>
    s!"range end index {stop} out of range for slice of length {length}"
  | .zeroStride => "assertion failed: step != 0"
  | .emptyBlock => "block_dim must be > 0"
  | .emptyTile => "tile_size must be > 0"
  | .beyondPresence value index length =>
    s!"value {value} at index {index} exceeds presence map of length {length}"
  | .invalidValue value index => s!"invalid value {value} found at index {index}"
  | .tableRefused error => "failed to allocate remap table: " ++ error.message
  | .unsuitedOrder use order => s!"there is no such thing as {order.phrase} {use.noun}"
  | .raised message => message

/-- What ends an operation that can both break a precondition and be refused memory. -/
inductive Failure
  | fault (fault : Fault)
  | refused (error : AllocError)
  deriving DecidableEq

end IdCompaction
