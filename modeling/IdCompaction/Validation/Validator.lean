import IdCompaction.Validation.Kernel

/-!
# Validators

A validator launches the validation kernels with a grid shape of its own. The duplicate check
reports and counts and goes on; the sentinel check is a fault. Either one counts as a launch of its
stream exactly if it runs to its end.
-/

namespace IdCompaction

/-- The grid shape that checks are launched with. -/
structure Validator where
  config : DeviceConfig
  deriving DecidableEq

namespace Validator

instance : Inhabited Validator := ⟨⟨{}⟩⟩

/-- The validator with the grid shape of a stream's device. -/
def ofStream (stream : Stream) : Validator := ⟨stream.device.config⟩

/-- The grid of a check. -/
def grid (v : Validator) (elements : Nat) : Except Fault Grid := Grid.ofConfig elements v.config

/-- Reports every value that was marked before, and marks every value, in a launch that runs as a
dispatch says. The answer is the number of reports; racing threads may miss one, so it is a lower
bound. -/
def countDuplicatesUnder {length : Nat} (d : Dispatch) (v : Validator) (stream : Stream)
    (input : Array Id) : Action Fault (Presence length) (Nat × Stream) := fun presence =>
  let check : Action Fault (Marking length) (Nat × Stream) := do
    let grid ← Action.ofExcept (v.grid input.size)
    let stream ← stream.launchUnder d grid (Validation.duplicateKernel input)
    let found ← Action.gets Marking.found
    if 0 < found then Action.emit (.duplicatesFound found input.size)
    return (found, stream)
  match check ⟨presence, 0⟩ with
  | ⟨marking, events, result⟩ => ⟨marking.presence, events, result⟩

/-- The duplicate check on one worker. -/
def countDuplicates {length : Nat} (v : Validator) (stream : Stream) (input : Array Id) :
    Action Fault (Presence length) (Nat × Stream) :=
  v.countDuplicatesUnder .oneWorker stream input

/-- Faults if any element is the invalid one, in a launch that runs as a dispatch says. -/
def refuseSentinelUnder (d : Dispatch) (v : Validator) (stream : Stream) (input : Array Id)
    (invalid : Id) : Action Fault Unit Stream := do
  let grid ← Action.ofExcept (v.grid input.size)
  stream.launchUnder d grid (Validation.sentinelKernel input invalid)

/-- The sentinel check on one worker. -/
def refuseSentinel (v : Validator) (stream : Stream) (input : Array Id) (invalid : Id) :
    Action Fault Unit Stream :=
  v.refuseSentinelUnder .oneWorker stream input invalid

/-- The long form of a validator. -/
def describe (v : Validator) : String :=
  Text.record "BatchValidator" [("config", v.config.describe)]

end Validator

end IdCompaction
