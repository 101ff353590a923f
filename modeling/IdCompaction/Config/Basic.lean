import IdCompaction.Text.Record

/-!
# Configurations

How many workers a parallel loop gets, how it is cut up, and the shape of the grids that kernels run
on. Every field has a default, so that a document only names what it changes.
-/

namespace IdCompaction

/-- How parallel loops on the host are shared out. -/
structure ParallelConfig where
  /-- Workers of a pool; zero leaves the number to the host. -/
  numThreads : UInt64 := 0
  /-- The least number of consecutive elements that one worker takes. -/
  minChunk : UInt64 := 1024
  deriving DecidableEq

/-- The shape of the grids of a device. -/
structure DeviceConfig where
  /-- Threads of a block. -/
  blockSize : UInt64 := 256
  /-- Elements that one block covers. -/
  elementsPerBlock : UInt64 := 1024
  /-- Host threads that run the blocks; zero leaves the number to the host. -/
  deviceThreads : UInt64 := 0
  deriving DecidableEq

/-- Everything that a configuration document can set. -/
structure RuntimeConfig where
  parallel : ParallelConfig := {}
  device : DeviceConfig := {}
  deriving DecidableEq

namespace ParallelConfig

instance : Inhabited ParallelConfig := ⟨{}⟩

/-- The long form of the host settings. -/
def describe (c : ParallelConfig) : String :=
  Text.record "ParallelConfig"
    [("num_threads", toString c.numThreads), ("min_chunk", toString c.minChunk)]

end ParallelConfig

namespace DeviceConfig

instance : Inhabited DeviceConfig := ⟨{}⟩

/-- The long form of the grid settings. -/
def describe (c : DeviceConfig) : String :=
  Text.record "DeviceConfig"
    [("block_size", toString c.blockSize), ("elements_per_block", toString c.elementsPerBlock),
      ("device_threads", toString c.deviceThreads)]

end DeviceConfig

/-- The number of workers that a request gets: the number asked for, or one where the number is left
to the host. -/
def workersFor (requested : UInt64) : Nat := if requested = 0 then 1 else requested.toNat

/-- A change of one field. -/
inductive Setting
  | numThreads (value : UInt64)
  | minChunk (value : UInt64)
  | blockSize (value : UInt64)
  | elementsPerBlock (value : UInt64)
  | deviceThreads (value : UInt64)

namespace RuntimeConfig

instance : Inhabited RuntimeConfig := ⟨{}⟩

/-- The long form of a whole configuration. -/
def describe (c : RuntimeConfig) : String :=
  Text.record "RuntimeConfig" [("parallel", c.parallel.describe), ("device", c.device.describe)]

/-- The configuration with one field changed. -/
def set (c : RuntimeConfig) : Setting → RuntimeConfig
  | .numThreads value => { c with parallel := { c.parallel with numThreads := value } }
  | .minChunk value => { c with parallel := { c.parallel with minChunk := value } }
  | .blockSize value => { c with device := { c.device with blockSize := value } }
  | .elementsPerBlock value => { c with device := { c.device with elementsPerBlock := value } }
  | .deviceThreads value => { c with device := { c.device with deviceThreads := value } }

/-- The configuration with several fields changed, the last change of a field winning. -/
def setAll (c : RuntimeConfig) (settings : List Setting) : RuntimeConfig := settings.foldl set c

end RuntimeConfig

end IdCompaction
