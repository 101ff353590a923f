import IdCompaction.Config.Basic
import IdCompaction.Loop

/-!
# Worker pools

A pool cuts a loop into runs of consecutive numbers, none of them shorter than its least chunk. One
worker makes the runs in order. Several workers may cut finer and overlap their runs, so an
operation on a pool of several workers promises only what holds however they share the loop; here it
is made as one worker makes it.
-/

namespace IdCompaction

/-- Workers for parallel loops, and the least run that one of them takes. -/
structure Pool where
  numThreads : Nat
  minChunk : Nat
  deriving DecidableEq

namespace Pool

variable {ε σ : Type}

/-- Opens a pool. A least chunk of zero elements is taken as one. -/
def create (config : ParallelConfig) : Action ε σ Pool := do
  let threads := workersFor config.numThreads
  Action.emit (.poolReady threads config.minChunk.toNat)
  return ⟨threads, max config.minChunk.toNat 1⟩

/-- The name of a worker. -/
def workerName (worker : Nat) : String := s!"remap-worker-{worker}"

/-- The long form of a pool. -/
def describe (p : Pool) : String :=
  Text.record "WorkerPool"
    [("num_threads", toString p.numThreads), ("min_chunk", toString p.minChunk)]

/-- Runs the body for every number below `count`. -/
def forEach (p : Pool) (count : Nat) (body : Fin count → Action ε σ Unit) : Action ε σ Unit :=
  Action.forAll p.minChunk body

end Pool

end IdCompaction
