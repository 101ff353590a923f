import IdCompaction.Config.Basic
import IdCompaction.Size

/-!
# Grids

A kernel runs over a grid: blocks of threads, where each block owns one tile of the input and its
threads take the tile's elements in turn, `blockSize` apart. The last tile is clipped to the input
and a thread past the end of its tile gets nothing. Positions are computed with checked sizes, so a
grid near the size limit has threads whose place is a fault.
-/

namespace IdCompaction

/-- The numbers `start`, `start + step`, and so on, below `stop`. -/
structure Progression where
  start : Nat
  stop : Nat
  step : Nat
  deriving DecidableEq

namespace Progression

/-- How many numbers there are. -/
def count (p : Progression) : Nat := (p.stop - p.start + (p.step - 1)) / p.step

/-- The numbers in order. -/
def toList (p : Progression) : List Nat := List.range' p.start p.count p.step

/-- The first numbers, at most `n` of them. -/
def take (p : Progression) (n : Nat) : List Nat := List.range' p.start (min p.count n) p.step

/-- The last number, if there is one. -/
def last? (p : Progression) : Option Nat :=
  if p.count = 0 then none else some (p.start + (p.count - 1) * p.step)

end Progression

/-- The shape of one launch over `elements` elements. -/
structure Grid where
  blocks : Nat
  blockSize : Nat
  tileSize : Nat
  elements : Nat
  deriving DecidableEq

/-- One thread's place in a grid, with the tile of its block. -/
structure Lane where
  block : Nat
  thread : Nat
  blockSize : Nat
  blocks : Nat
  tileStart : Nat
  tileEnd : Nat
  deriving DecidableEq

namespace Lane

/-- The thread's number when the blocks are laid end to end. -/
def global (l : Lane) : Except Fault Nat := do
  let before ← Size.mul l.block l.blockSize
  Size.add before l.thread

/-- The elements of the thread: those of its tile that lie a multiple of `blockSize` past its own
first one. -/
def indices (l : Lane) : Except Fault Progression := do
  let first ← Size.add l.tileStart l.thread
  if l.blockSize = 0 then .error .zeroStride
  else .ok ⟨min first l.tileEnd, l.tileEnd, l.blockSize⟩

/-- The long form of a thread's place. -/
def describe (l : Lane) : String :=
  Text.record "ThreadIdx"
    [("block_idx", toString l.block), ("thread_idx", toString l.thread),
      ("block_dim", toString l.blockSize), ("grid_dim", toString l.blocks),
      ("tile_start", toString l.tileStart), ("tile_end", toString l.tileEnd)]

end Lane

namespace Grid

/-- The least grid that covers `elements` elements. -/
def covering (elements blockSize tileSize : Nat) : Except Fault Grid :=
  if blockSize = 0 then .error .emptyBlock
  else if tileSize = 0 then .error .emptyTile
  else .ok ⟨(elements + (tileSize - 1)) / tileSize, blockSize, tileSize, elements⟩

/-- The least grid of a device's shape that covers `elements` elements. -/
def ofConfig (elements : Nat) (config : DeviceConfig) : Except Fault Grid :=
  covering elements config.blockSize.toNat config.elementsPerBlock.toNat

/-- The place of a thread, which need not be one that a launch visits. -/
def lane (g : Grid) (block thread : Nat) : Except Fault Lane := do
  let tileStart ← Size.mul block g.tileSize
  let tileEnd ← Size.add tileStart g.tileSize
  .ok ⟨block, thread, g.blockSize, g.blocks, tileStart, min tileEnd g.elements⟩

/-- The elements of one thread. -/
def laneIndices (g : Grid) (block thread : Nat) : Except Fault Progression := do
  let lane ← g.lane block thread
  lane.indices

/-- The elements of all threads, block by block and thread by thread. -/
def visits (g : Grid) : Except Fault (List Nat) := do
  let tiles ← Size.tabulate g.blocks fun block =>
    Size.tabulate g.blockSize fun thread => return (← g.laneIndices block thread).toList
  return tiles.flatten.flatten

/-- The long form of a grid. -/
def describe (g : Grid) : String :=
  Text.record "LaunchConfig"
    [("grid_dim", toString g.blocks), ("block_dim", toString g.blockSize),
      ("tile_size", toString g.tileSize), ("len", toString g.elements)]

end Grid

end IdCompaction
