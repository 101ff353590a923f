import IdCompaction.Context

/-!
# Events

Operations report what they did as events. An event has a level, a fixed text and named fields; the
order in which events are reported is part of an operation's behaviour.
-/

namespace IdCompaction

/-- How much an event matters. -/
inductive Level
  | trace
  | debug
  | warn
  deriving DecidableEq

/-- What operations report. -/
inductive Event
  /-- A worker pool was opened; the minimum chunk is shown as it was asked for. -/
  | poolReady (threads minChunk : Nat)
  /-- Memory of a positive size was handed out. -/
  | bufferAllocated (context : Context) (bytes : Nat)
  /-- Memory of a positive size was taken back. -/
  | bufferFreed (context : Context) (bytes : Nat)
  /-- Both arrays of a table were allocated. -/
  | tableAllocated (capacity : Nat) (context : Context)
  /-- A whole input was claimed. -/
  | populated (input claimed total : Nat)
  /-- A whole edge list was relabelled. -/
  | edgesMapped (edges : Nat)
  /-- Every claim of a table was cleared. -/
  | tableCleared (capacity : Nat)
  /-- A device was opened. -/
  | deviceOpened (context : Context) (blockSize elementsPerBlock workers : Nat)
  /-- A kernel ran over its whole grid. -/
  | kernelLaunched (context : Context) (blocks blockSize elements : Nat)
  /-- A batch value was marked before. -/
  | duplicateValue (index : Nat) (value : Id)
  /-- A duplicate check reported at least one value. -/
  | duplicatesFound (duplicates elements : Nat)
  /-- A configuration was read from a file. -/
  | configLoaded (path config : String)
  deriving DecidableEq

/-- The value of an event's field. -/
inductive EventField
  | number (value : Nat)
  | text (value : String)
  deriving DecidableEq

/-- The name of a level. -/
def Level.name : Level → String
  | .trace => "TRACE"
  | .debug => "DEBUG"
  | .warn => "WARN"

namespace Event

/-- Warnings are about batches, traces about single operations, the rest is for debugging. -/
def level : Event → Level
  | .poolReady .. => .debug
  | .bufferAllocated .. => .trace
  | .bufferFreed .. => .trace
  | .tableAllocated .. => .debug
  | .populated .. => .trace
  | .edgesMapped .. => .trace
  | .tableCleared .. => .debug
  | .deviceOpened .. => .debug
  | .kernelLaunched .. => .trace
  | .duplicateValue .. => .warn
  | .duplicatesFound .. => .warn
  | .configLoaded .. => .debug

/-- The fixed text of an event. -/
def message : Event → String
  | .poolReady .. => "worker pool ready"
  | .bufferAllocated .. => "allocated buffer"
  | .bufferFreed .. => "freed buffer"
  | .tableAllocated .. => "remap table allocated"
  | .populated .. => "populate"
  | .edgesMapped .. => "map_edges"
  | .tableCleared .. => "remap table reset"
  | .deviceOpened .. => "device opened"
  | .kernelLaunched .. => "kernel launched"
  | .duplicateValue .. => "duplicate value in batch"
  | .duplicatesFound .. => "batch contains duplicates"
  | .configLoaded .. => "loaded runtime config"

/-- The named fields of an event. -/
def fields : Event → List (String × EventField)
  | .poolReady threads minChunk =>
    [("num_threads", .number threads), ("min_chunk", .number minChunk)]
  | .bufferAllocated context bytes => [("context", .text context.label), ("bytes", .number bytes)]
  | .bufferFreed context bytes => [("context", .text context.label), ("bytes", .number bytes)]
  | .tableAllocated capacity context =>
    [("capacity", .number capacity), ("context", .text context.label)]
  | .populated input claimed total =>
    [("input", .number input), ("claimed", .number claimed), ("num_items", .number total)]
  | .edgesMapped edges => [("edges", .number edges)]
  | .tableCleared capacity => [("capacity", .number capacity)]
  | .deviceOpened context blockSize elementsPerBlock workers =>
    [("context", .text context.label), ("block_size", .number blockSize),
      ("elements_per_block", .number elementsPerBlock), ("workers", .number workers)]
  | .kernelLaunched context blocks blockSize elements =>
    [("context", .text context.label), ("grid_dim", .number blocks),
      ("block_dim", .number blockSize), ("len", .number elements)]
  | .duplicateValue index value => [("index", .number index), ("value", .number value.toNat)]
  | .duplicatesFound duplicates elements =>
    [("duplicates", .number duplicates), ("len", .number elements)]
  | .configLoaded path config => [("path", .text path), ("cfg", .text config)]

end Event

end IdCompaction
