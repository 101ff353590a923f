/-!
# Orders of atomic accesses

An atomic access names how strongly it orders the accesses around it. Not every order suits every
use: a load cannot release, a store cannot acquire, and the failing side of an exchange only loads.
-/

namespace IdCompaction

/-- How strongly an atomic access orders the accesses around it. -/
inductive MemoryOrder
  | relaxed
  | acquire
  | release
  | acquireRelease
  | sequential
  deriving DecidableEq

/-- What an order is asked for. -/
inductive OrderUse
  | load
  | store
  | failure
  deriving DecidableEq

/-- The orders that suit a use. -/
def OrderUse.allows : OrderUse → MemoryOrder → Bool
  | .load, .release => false
  | .store, .acquire => false
  | .failure, .release => false
  | _, .acquireRelease => false
  | _, _ => true

/-- The order with its article, as a message names it. -/
def MemoryOrder.phrase : MemoryOrder → String
  | .relaxed => "a relaxed"
  | .acquire => "an acquire"
  | .release => "a release"
  | .acquireRelease => "an acquire-release"
  | .sequential => "a sequential"

/-- The use, as a message names it. -/
def OrderUse.noun : OrderUse → String
  | .load => "load"
  | .store => "store"
  | .failure => "failure ordering"

end IdCompaction
