import IdCompaction.Grid
import IdCompaction.Pool
import IdCompaction.Routine.Crew

/-!
# Devices and streams

A device runs the blocks of a grid on its workers, and the threads of one block in order on the same
worker. How it comes to share the blocks among its workers, and whose turn it is, is a dispatch: a
worker that comes to a fault goes no further with what it has, and the others go on.

A stream issues launches on a device one at a time and counts those that ran to their end: a launch
that faults is not counted, and leaves the stream as it was.
-/

namespace IdCompaction

/-- A context with the workers that run its blocks. -/
structure Device where
  context : Context
  config : DeviceConfig
  deriving DecidableEq

/-- An ordered queue of launches on a device. -/
structure Stream where
  device : Device
  /-- Launches that ran to their end. -/
  launches : UInt64
  deriving DecidableEq

namespace Device

variable {ε σ : Type}

/-- Host threads that run the blocks. -/
def workers (d : Device) : Nat := workersFor d.config.deviceThreads

/-- Opens a device. -/
def create (context : Context) (config : DeviceConfig) : Action ε σ Device := do
  let device : Device := ⟨context, config⟩
  Action.emit
    (.deviceOpened context config.blockSize.toNat config.elementsPerBlock.toNat device.workers)
  return device

/-- The name of a worker. -/
def workerName (d : Device) (worker : Nat) : String := s!"{d.context.label}-sm{worker}"

/-- The long form of a device. -/
def describe (d : Device) : String :=
  Text.openRecord "Device" [("context", d.context.describe), ("config", d.config.describe)]

end Device

namespace Grid

variable {Op : Type} {Answer : Op → Type}

/-- What one worker does for one block: the kernel at each of the block's threads, in order. -/
def block (g : Grid) (kernel : Lane → Routine Op Answer Unit) (number : Nat) :
    Routine Op Answer Unit :=
  Routine.forFrom 0 g.blockSize fun thread => do
    let lane ← Routine.ofExcept (g.lane number thread)
    kernel lane

end Grid

/-- Blocks shared among workers that take turns. -/
structure Shares where
  /-- The blocks of each worker in the order in which it makes them, by the number of blocks. -/
  lists : Nat → List (List Nat)
  /-- Every block is made once. -/
  perm : ∀ blocks, (lists blocks).flatten.Perm (List.range blocks)
  /-- Whose turn it is. -/
  schedule : List Nat

/-- How a device comes to run the blocks of a launch. -/
inductive Dispatch
  /-- One worker makes all blocks, in order. -/
  | oneWorker
  /-- Several workers share the blocks. -/
  | shared (shares : Shares)

namespace Dispatch

variable {Op : Type} {Answer : Op → Type} {σ : Type} [SharedMemory σ Op Answer]

/-- A worker for each block. -/
def workerEach (schedule : List Nat) : Dispatch :=
  .shared {
    lists blocks := (List.range blocks).map fun block => [block]
    perm blocks := by rw [← List.flatMap_def, List.flatMap_singleton']
    schedule }

/-- Runs the routines of the blocks below `blocks`. -/
def run (blocks : Nat) (block : Nat → Routine Op Answer Unit) : Dispatch → Action Fault σ Unit
  | .oneWorker => Action.forAll 1 fun number : Fin blocks => (block number).perform
  | .shared shares =>
    Routine.together shares.schedule ((shares.lists blocks).map fun list => list.forM block)

end Dispatch

namespace Stream

variable {Op : Type} {Answer : Op → Type} {σ : Type} [SharedMemory σ Op Answer]

/-- A stream without launches. -/
def create (device : Device) : Stream := ⟨device, 0⟩

/-- Runs a kernel over a grid as a dispatch says. The stream that counts the launch is the answer,
so a launch that faults is not counted. -/
def launchUnder (d : Dispatch) (s : Stream) (g : Grid) (kernel : Lane → Routine Op Answer Unit) :
    Action Fault σ Stream := do
  d.run g.blocks (g.block kernel)
  Action.emit (.kernelLaunched s.device.context g.blocks g.blockSize g.elements)
  return { s with launches := s.launches + 1 }

/-- Runs a kernel over a grid on one worker. -/
def launch (s : Stream) (g : Grid) (kernel : Lane → Routine Op Answer Unit) :
    Action Fault σ Stream :=
  s.launchUnder .oneWorker g kernel

/-- The long form of a stream. -/
def describe (s : Stream) : String :=
  Text.record "Stream"
    [("context", s.device.context.describe), ("launches", toString s.launches)]

end Stream

end IdCompaction
